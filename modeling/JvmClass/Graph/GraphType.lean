/-
  JvmClass.Graph.GraphType — the types that a graph of classes knows.

  Besides base types, `void` and references there are placeholders, which keep the name of a
  class or the descriptor of a type that is missing. Two types are the same if they are built
  alike from classes of the same names.
-/

import JvmClass.Graph.Subtype
import JvmClass.Text.Quoted

namespace JvmClass

inductive GraphType (C : Type)
  | base (type : BaseType)
  | void
  | ref (type : RefType C)
  | unloadable (name : String)
  deriving DecidableEq

namespace GraphType

def ofClass {C : Type} (c : C) : GraphType C := .ref (.object c)

def map {C D : Type} (f : C → D) : GraphType C → GraphType D
  | .base b => .base b
  | .void => .void
  | .ref r => .ref (r.map f)
  | .unloadable name => .unloadable name

def isUnloadable {C : Type} : GraphType C → Bool
  | .unloadable _ => true
  | _ => false

/-- The type with the names of its classes. -/
def named (t : GraphType ClassInfo) : GraphType String := t.map (·.name)

def isSame (a b : GraphType ClassInfo) : Bool := a.named == b.named

def isInterface : GraphType ClassInfo → Bool
  | .ref (.object c) => c.isInterface
  | _ => false

/-- Arrays count as abstract. -/
def isAbstract : GraphType ClassInfo → Bool
  | .ref (.object c) => c.isAbstract
  | .ref _ => true
  | _ => false

def isSubtype : GraphType ClassInfo → GraphType ClassInfo → Bool
  | .ref r, .ref s => r.isSubtype s
  | a, b => a.isSame b

/-- The name of a class, or that of a placeholder. -/
def className? : GraphType ClassInfo → Option String
  | .ref (.object c) => some c.name
  | .unloadable name => some name
  | _ => none

/-- The class itself, or the class of the elements of an array. -/
def elementClass? : GraphType ClassInfo → Option ClassInfo
  | .ref (.object c) => some c
  | .ref (.objectArray _ c) => some c
  | _ => none

/-- A class that is not public is accessible in its package only, and so are its arrays. Only
    code of classes is restricted. -/
def isAccessibleFrom (t asking : GraphType ClassInfo) : Bool :=
  match t.elementClass?, asking with
  | some c, .ref (.object d) => c.isPublic || c.package == d.package
  | _, _ => true

/-! ## As text -/

def arrayText (extra : Nat) (element : String) : String :=
  "ArrayType \x7b additional_dimensions: " ++ toString extra ++ ", element_type: " ++ element ++
    " \x7d"

def refText : RefType String → String
  | .object name => s!"Object({name})"
  | .objectArray extra name => s!"ObjectArray({arrayText extra name})"
  | .primitiveArray extra b => s!"PrimitiveArray({arrayText extra b.name})"

/-- The type with its constructors spelled out, as diagnostics show it. -/
def describe (t : GraphType ClassInfo) : String :=
  match t.named with
  | .base b => s!"Base({b.name})"
  | .void => "Void"
  | .ref r => s!"Ref({refText r})"
  | .unloadable name => s!"Unloadable({Text.quoted name})"

instance : ToString (GraphType ClassInfo) := ⟨describe⟩

end GraphType

end JvmClass
