/-
  JvmClass.Pool.Basic — resolved constant pools.

  Slots are looked up by number; a slot that is not there is like an empty one. What a class file
  names but never uses is not loaded: `require` marks the class that a constant depends on,
  directly, through a member or through a method handle's member.
-/

import JvmClass.Annotation
import JvmClass.Fault
import JvmClass.Pool.Entry

namespace JvmClass

structure Pool (T F M : Type) where
  entries : Array (Entry T F M)

namespace Pool

variable {T F M : Type}

/-- Number of slots, the empty slot 0 included. -/
def size (p : Pool T F M) : Nat := p.entries.size

def entry (p : Pool T F M) (i : Index) : Entry T F M := p.entries[i.toNat]?.getD .vacant

def modify (p : Pool T F M) (i : Index) (f : Entry T F M → Entry T F M) : Pool T F M :=
  ⟨p.entries.modify i.toNat f⟩

/-- The slots that hold a constant, in order. -/
def constants (p : Pool T F M) : List (Nat × Entry T F M) :=
  (p.entries.toList.zipIdx.filter (·.1.isConstant)).map fun (e, i) => (i, e)

/-! ## Looking up -/

def text? (p : Pool T F M) (i : Index) : Option String :=
  match p.entry i with
  | .text value _ => some value
  | _ => none

def text (p : Pool T F M) (i : Index) : Except FormatFault String :=
  match p.text? i with
  | some value => .ok value
  | none => .error (.badPoolIndex i.toNat)

def class? (p : Pool T F M) (i : Index) : Option (ClassEntry T) :=
  match p.entry i with
  | .cls item => some item
  | _ => none

/-- The name of a class. -/
def className (p : Pool T F M) (i : Index) : Except FormatFault String :=
  match p.class? i with
  | some item => .ok item.name
  | none => .error (.badPoolIndex i.toNat)

def isClass (p : Pool T F M) (i : Index) : Bool := (p.entry i).isClass

def isLoadable (p : Pool T F M) (i : Index) : Bool := (p.entry i).isLoadable

/-- The field that a slot refers to. -/
def field? (p : Pool T F M) (i : Index) : Option MemberRef :=
  match p.entry i with
  | .field member _ => some member
  | _ => none

/-- The method of a class that a slot refers to. -/
def method? (p : Pool T F M) (i : Index) : Option MemberRef :=
  match p.entry i with
  | .method item => some item.member
  | _ => none

def literal? (p : Pool T F M) (i : Index) : Option Literal :=
  match p.entry i with
  | .literal value => some value
  | _ => none

/-- The pool as annotations see it. -/
def elementConstants (p : Pool T F M) : ElementConstants := ⟨p.text?, p.literal?⟩

/-! ## Changing -/

/-- Makes constants of all texts. -/
def exposeTexts (p : Pool T F M) : Pool T F M := ⟨p.entries.map Entry.expose⟩

/-- The class that a constant depends on, over so many steps at most. -/
def classWithin (p : Pool T F M) : Nat → Index → Option Index
  | 0, i => if p.isClass i then some i else none
  | steps + 1, i =>
    match (p.entry i).dependency? with
    | some j => p.classWithin steps j
    | none => if p.isClass i then some i else none

/-- The class that a constant depends on: two steps lead from a method handle to its member and
    on to the member's class. -/
def classOf? (p : Pool T F M) (i : Index) : Option Index := p.classWithin 2 i

/-- Linking is to load the class that the constant depends on; there may be none. -/
def require (p : Pool T F M) (i : Index) : Pool T F M :=
  match p.classOf? i with
  | some j => p.modify j Entry.requireLink
  | none => p

def requireAll (p : Pool T F M) (indices : List Index) : Pool T F M := indices.foldl require p

/-- Gives a class its type without asking the host, unless it has one. -/
def bindSelf (p : Pool T F M) (i : Index) (t : T) : Pool T F M := p.modify i (Entry.bindType t)

end Pool

end JvmClass
