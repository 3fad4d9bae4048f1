/-
  JvmClass.Annotation — annotations.

  An annotation is a type and named element values, which nest. Numbers and texts are constants
  of the pool. A constant that is missing or of another kind does not fail the whole: the value
  becomes `unreadable`, which stands for the exception that reflection throws for it. What does
  fail is a payload that ends too early, an unknown tag, and a type or element name that cannot be
  read.
-/

import JvmClass.Cursor
import JvmClass.File.Constant

namespace JvmClass

inductive ElementValue
  | boolean (value : Bool)
  | byte (value : Int8)
  | char (unit : UInt16)
  | short (value : Int16)
  | int (value : Int32)
  | float (bits : UInt32)
  | long (value : Int64)
  | double (bits : UInt64)
  | string (text : String)
  | enum (type const : String)
  /-- A class by its return descriptor, `V` for `void`. -/
  | cls (descriptor : String)
  | nested (type : String) (elements : List (String × ElementValue))
  | array (values : List ElementValue)
  /-- The constant could not be read. -/
  | unreadable

structure Annotation where
  /-- The field descriptor of the annotation type. -/
  type : String
  elements : List (String × ElementValue)

/-- The exception that an unreadable value stands for. -/
def unreadableException : String := "java.lang.IllegalArgumentException"

def unreadableMessage : String := "Wrong type at constant pool index"

def ElementValue.text? : ElementValue → Option String
  | .string text => some text
  | _ => none

/-- The value of the first element of the name. -/
def Annotation.element? (a : Annotation) (name : String) : Option ElementValue :=
  (a.elements.find? (·.1 == name)).map (·.2)

/-! ## Marker annotations -/

def internalMarker : String := "Likvm/lang/Internal;"

def propertyMarker : String := "Likvm/lang/Property;"

def compareAndSetMarker : String := "Likvm/lang/InterlockedCompareAndSet;"

def moduleInitializerMarker : String := "Likvm/lang/ModuleInitializer;"

def callerSensitiveMarker : String := "Lsun/reflect/CallerSensitive;"

def lambdaFormCompiledMarker : String := "Ljava/lang/invoke/LambdaForm$Compiled;"

def lambdaFormHiddenMarker : String := "Ljava/lang/invoke/LambdaForm$Hidden;"

def forceInlineMarker : String := "Ljava/lang/invoke/ForceInline;"

/-! ## Reading -/

/-- The constants that annotations refer to. -/
structure ElementConstants where
  text? : Index → Option String
  literal? : Index → Option Literal

namespace ElementConstants

variable (constants : ElementConstants)

/-- The name of a type or element. -/
def readName : Read FormatFault String := do
  let index ← Read.short .truncated
  match constants.text? index with
  | some text => return text
  | none => throw (.badPoolIndex index.toNat)

/-- The value that an integer constant is under a tag. -/
def ofInt (tag : Char) (value : Int32) : ElementValue :=
  match tag with
  | 'B' => .byte value.toInt8
  | 'C' => .char value.toUInt32.toUInt16
  | 'S' => .short value.toInt16
  | 'Z' => .boolean (value != 0)
  | _ => .int value

/-- The value that a number constant is under a tag, if it is of the kind the tag asks for. -/
def ofLiteral? (tag : Char) : Literal → Option ElementValue
  | .int value => if tag ∈ ['B', 'C', 'S', 'Z', 'I'] then some (ofInt tag value) else none
  | .long value => if tag = 'J' then some (.long value) else none
  | .float bits => if tag = 'F' then some (.float bits) else none
  | .double bits => if tag = 'D' then some (.double bits) else none

def readLiteral (tag : Char) : Read FormatFault ElementValue := do
  let index ← Read.short .truncated
  return ((constants.literal? index).bind (ofLiteral? tag)).getD .unreadable

def readText (value : String → ElementValue) : Read FormatFault ElementValue := do
  let index ← Read.short .truncated
  return ((constants.text? index).map value).getD .unreadable

def readEnum : Read FormatFault ElementValue := do
  let type ← Read.short .truncated
  let const ← Read.short .truncated
  match constants.text? type, constants.text? const with
  | some t, some c => return .enum t c
  | _, _ => return .unreadable

/-- The type and the elements of an annotation, given how to read a value. -/
def readWith (value : Read FormatFault ElementValue) : Read FormatFault Annotation := do
  let type ← constants.readName
  let elements ← Read.counted .truncated do
    let name ← constants.readName
    let v ← value
    return (name, v)
  return ⟨type, elements⟩

/-- A value with at most `depth` values around its innermost one. Each level takes a byte, so the
    number of bytes that are left is depth enough. -/
def readValueWithin : Nat → Read FormatFault ElementValue
  | 0 => Read.overrun .truncated
  | depth + 1 => do
    let tag ← Read.byte .truncated
    match Char.ofNat tag.toNat with
    | 's' => constants.readText .string
    | 'c' => constants.readText .cls
    | 'e' => constants.readEnum
    | '@' => do
      let a ← constants.readWith (readValueWithin depth)
      return .nested a.type a.elements
    | '[' => return .array (← Read.counted .truncated (readValueWithin depth))
    | c =>
      if c ∈ ['B', 'C', 'S', 'Z', 'I', 'J', 'F', 'D'] then constants.readLiteral c
      else throw (.badElementTag tag)

def readValue : Read FormatFault ElementValue := do
  constants.readValueWithin (← get).rest.length

def readAnnotation : Read FormatFault Annotation := do
  constants.readWith (constants.readValueWithin (← get).rest.length)

def readAnnotations : Read FormatFault (List Annotation) := do
  let value := constants.readValueWithin (← get).rest.length
  Read.counted .truncated (constants.readWith value)

/-- A list of annotations for each parameter; their number has one byte. -/
def readParameterAnnotations : Read FormatFault (List (List Annotation)) := do
  let value := constants.readValueWithin (← get).rest.length
  let n ← Read.byte .truncated
  Read.many (Read.counted .truncated (constants.readWith value)) n.toNat

end ElementConstants

end JvmClass
