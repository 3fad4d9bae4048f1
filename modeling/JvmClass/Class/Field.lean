/-
  JvmClass.Class.Field — fields.

  A field may have a constant value, whose kind is that of its descriptor, and a pair of
  accessors from the first usable property annotation.
-/

import JvmClass.Class.Member
import JvmClass.File.Record
import JvmClass.Name

namespace JvmClass

inductive FieldConstant
  | boolean (value : Bool)
  | byte (value : Int8)
  | char (unit : UInt16)
  | short (value : Int16)
  | int (value : Int32)
  | long (value : Int64)
  | float (bits : UInt32)
  | double (bits : UInt64)
  | string (text : String)
  deriving DecidableEq

/-- The names of the accessors of a property. -/
structure Property where
  getter : Option String
  setter : Option String
  deriving DecidableEq

structure Field where
  member : Member .ofField
  constant : Option FieldConstant := none
  property : Option Property := none

namespace Field

def isStatic (f : Field) : Bool := f.member.access.has accStatic

def isFinal (f : Field) : Bool := f.member.access.has accFinal

/-! ## Flags -/

/-- Fields of interfaces are public, static and final. -/
def areLegalFlags (bits : UInt16) (inInterface : Bool) : Bool :=
  let a := Access.ofBits .ofField bits
  !hasConflictingVisibility bits && !a.has (accFinal ||| accVolatile) &&
    (!inInterface || a.has (accPublic ||| accStatic ||| accFinal) && !a.has accTransient)

/-! ## Constants -/

/-- The fields of these descriptors may have constants. -/
def constantDescriptors : List String :=
  ["I", "S", "B", "C", "Z", "J", "F", "D", "Ljava.lang.String;"]

/-- The constant of a pool entry as a value of the descriptor. -/
def constantOf? {T F M : Type} (descriptor : String) : Entry T F M → Option FieldConstant
  | .literal (.int v) =>
    match descriptor with
    | "I" => some (.int v)
    | "S" => some (.short v.toInt16)
    | "B" => some (.byte v.toInt8)
    | "C" => some (.char v.toUInt32.toUInt16)
    | "Z" => some (.boolean (v != 0))
    | _ => none
  | .literal (.long v) => if descriptor = "J" then some (.long v) else none
  | .literal (.float bits) => if descriptor = "F" then some (.float bits) else none
  | .literal (.double bits) => if descriptor = "D" then some (.double bits) else none
  | .string value => if descriptor = "Ljava.lang.String;" then some (.string value) else none
  | _ => none

def readConstant {T F M : Type} (descriptor : String) (e : Entry T F M) :
    Except FormatFault FieldConstant :=
  match constantOf? descriptor e with
  | some c => .ok c
  | none =>
    if descriptor ∈ constantDescriptors then .error .constantIndex
    else .error .constantDescriptor

end Field

/-! ## Properties -/

/-- The property with one more element: `get` or `set`, each at most once and a text. -/
def Property.withElement? (p : Property) (name : String) (value : ElementValue) :
    Option Property :=
  match name, value.text? with
  | "get", some text => if p.getter.isNone then some { p with getter := some text } else none
  | "set", some text => if p.setter.isNone then some { p with setter := some text } else none
  | _, _ => none

/-- The property that an annotation describes, if it is usable. -/
def Property.ofAnnotation? (a : Annotation) : Option Property :=
  a.elements.foldlM (fun p (name, value) => p.withElement? name value) ⟨none, none⟩

namespace Field

variable {T F M : Type}

/-- The field with an invisible annotation. -/
def withInvisible (cls : DeclaringClass) (f : Field) (a : Annotation) : Build T F M Field := do
  if a.type = internalMarker ∧ cls.options.staticCompiler then
    return { f with member := f.member.hide }
  else if a.type = propertyMarker then
    if f.property.isSome then
      Build.warn (.duplicateProperty cls.name f.member.name)
      return f
    match Property.ofAnnotation? a with
    | some p => return { f with property := some p }
    | none =>
      Build.warn (.malformedProperty cls.name f.member.name)
      return f
  else return f

def withAttribute (cls : DeclaringClass) (f : Field) (a : Attribute) : Build T F M Field := do
  let kind ← Build.kindOf cls.version a
  match ← f.member.withAttribute? kind a.info with
  | some member => return { f with member }
  | none =>
    match kind with
    | .constantValue =>
      let index ← Build.singleIndex (.badLength "ConstantValue") a.info
      let constant ←
        MonadExcept.ofExcept (readConstant f.member.descriptor ((← Build.pool).entry index))
      return { f with constant := some constant }
    | .invisibleAnnotations => (← Build.annotations a.info).foldlM (withInvisible cls) f
    | _ => return f

def build (cls : DeclaringClass) (info : MemberInfo) : Build T F M Field := do
  let name ← Build.text info.name
  let descriptor ← Build.text info.descriptor
  if !isValidFieldDescriptor descriptor then throw (.fieldDescriptor name descriptor)
  if !isValidFieldName name cls.version then throw (.fieldName name)
  if !areLegalFlags info.access cls.isInterface then throw (.fieldModifiers info.access)
  let member := { name, descriptor := dotted descriptor, access := .ofBits .ofField info.access }
  info.attributes.foldlM (withAttribute cls) { member }

end Field

end JvmClass
