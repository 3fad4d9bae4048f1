/-
  JvmClass.Interner — one copy of each text.

  Every text that is made has a cell of its own, numbered in the order of making. An interner
  hands out the cell of an equal text that it handed out before, if there is one. Texts made
  outside the interner share their cell with no other.
-/

import JvmClass.Name

namespace JvmClass

structure Interned where
  cell : Nat
  text : String
  deriving DecidableEq

namespace Interned

/-- Both are the same copy. -/
def shares (a b : Interned) : Bool := a.cell == b.cell

/-- Both have the same text; copies are looked at first. -/
def equals (a b : Interned) : Bool := a.shares b || a.text == b.text

end Interned

structure Interner where
  /-- Number of texts made so far, in the table or not. -/
  made : Nat
  table : List Interned

namespace Interner

def empty : Interner := ⟨0, []⟩

def find? (i : Interner) (text : String) : Option Interned := i.table.find? (·.text == text)

/-- Makes a text outside the table. -/
def make (i : Interner) (text : String) : Interned × Interner :=
  (⟨i.made, text⟩, { i with made := i.made + 1 })

def intern (i : Interner) (text : String) : Interned × Interner :=
  match i.find? text with
  | some found => (found, i)
  | none =>
    let (new, i') := i.make text
    (new, { i' with table := new :: i'.table })

def internDotted (i : Interner) (text : String) : Interned × Interner := i.intern (dotted text)

def size (i : Interner) : Nat := i.table.length

end Interner

end JvmClass
