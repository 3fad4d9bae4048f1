/-
  JvmClass.Descriptor.Basic — types as descriptors write them.

  A field descriptor is a base type letter, a class name between `L` and `;`, or an element type
  after one `[` for each dimension. A method descriptor is the parameter types in parentheses and
  the return type, or `V` for none. The types are generic in what stands for a class: its name in
  a parsed descriptor, a class of the host once it has been looked up.
-/

namespace JvmClass

inductive BaseType
  | byte
  | char
  | double
  | float
  | int
  | long
  | short
  | boolean
  deriving DecidableEq

namespace BaseType

/-- Number of local variable slots of a value. -/
def width : BaseType → Nat
  | .double | .long => 2
  | _ => 1

def letter : BaseType → Char
  | .byte => 'B'
  | .char => 'C'
  | .double => 'D'
  | .float => 'F'
  | .int => 'I'
  | .long => 'J'
  | .short => 'S'
  | .boolean => 'Z'

def ofLetter? : Char → Option BaseType
  | 'B' => some .byte
  | 'C' => some .char
  | 'D' => some .double
  | 'F' => some .float
  | 'I' => some .int
  | 'J' => some .long
  | 'S' => some .short
  | 'Z' => some .boolean
  | _ => none

def name : BaseType → String
  | .byte => "Byte"
  | .char => "Char"
  | .double => "Double"
  | .float => "Float"
  | .int => "Int"
  | .long => "Long"
  | .short => "Short"
  | .boolean => "Boolean"

theorem ofLetter?_letter (b : BaseType) : ofLetter? b.letter = some b := by
  cases b <;> rfl

theorem letter_of_ofLetter? {c : Char} {b : BaseType} (h : ofLetter? c = some b) :
    b.letter = c := by
  unfold ofLetter? at h
  split at h <;> simp_all [letter]
  all_goals subst h; rfl

end BaseType

/-- A reference type. An array of `extra + 1` dimensions has elements of the type it holds. -/
inductive RefType (C : Type)
  | object (cls : C)
  | objectArray (extra : Nat) (cls : C)
  | primitiveArray (extra : Nat) (base : BaseType)
  deriving DecidableEq

inductive FieldType (C : Type)
  | base (type : BaseType)
  | ref (type : RefType C)
  deriving DecidableEq

structure MethodDescriptor (C : Type) where
  parameters : List (FieldType C)
  /-- None for `void`. -/
  returns : Option (FieldType C)
  deriving DecidableEq

/-- Number of local variable slots of a value. -/
def FieldType.width {C : Type} : FieldType C → Nat
  | .base b => b.width
  | .ref _ => 1

/-- Number of local variable slots of values in a row. -/
def totalWidth {C : Type} : List (FieldType C) → Nat
  | [] => 0
  | t :: rest => t.width + totalWidth rest

/-- Slots of the parameters, the receiver included if there is one. -/
def MethodDescriptor.slots {C : Type} (d : MethodDescriptor C) (receiver : Bool) : Nat :=
  (if receiver then 1 else 0) + totalWidth d.parameters

/-! ## Classes replaced -/

def RefType.map {C D : Type} (f : C → D) : RefType C → RefType D
  | .object c => .object (f c)
  | .objectArray extra c => .objectArray extra (f c)
  | .primitiveArray extra b => .primitiveArray extra b

def FieldType.map {C D : Type} (f : C → D) : FieldType C → FieldType D
  | .base b => .base b
  | .ref r => .ref (r.map f)

/-! ## Writing -/

def classText (name : String) : List Char := 'L' :: (name.toList ++ [';'])

def RefType.chars : RefType String → List Char
  | .object name => classText name
  | .objectArray extra name => List.replicate (extra + 1) '[' ++ classText name
  | .primitiveArray extra b => List.replicate (extra + 1) '[' ++ [b.letter]

def FieldType.chars : FieldType String → List Char
  | .base b => [b.letter]
  | .ref r => r.chars

def MethodDescriptor.chars (d : MethodDescriptor String) : List Char :=
  '(' :: (d.parameters.flatMap FieldType.chars ++
    ')' :: (d.returns.map FieldType.chars).getD ['V'])

def RefType.render (r : RefType String) : String := String.ofList r.chars

def FieldType.render (t : FieldType String) : String := String.ofList t.chars

def MethodDescriptor.render (d : MethodDescriptor String) : String := String.ofList d.chars

end JvmClass
