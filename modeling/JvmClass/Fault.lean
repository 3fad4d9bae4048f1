/-
  JvmClass.Fault — what can be wrong with a class file.

  A `ReadFault` is a file that does not have the binary layout. A `FormatFault` is anything
  structurally wrong that shows while the model of a class is built; the truncated payloads and
  misdirected indices of the lower layers are among them. An `Error` adds the class it arose in,
  once that is known, and the two other ways to refuse a class: its version, or a pool patch that
  is not supported. A `VerifyFault` is a method body that cannot be used; the class still loads.
-/

import JvmClass.Version

namespace JvmClass

/-- The number in upper-case hexadecimal, without leading zeros. -/
def upperHex (n : Nat) : String := String.ofList ((Nat.toDigits 16 n).map Char.toUpper)

/-! ## Reading the binary layout -/

/-- Bytes that are there but cannot be read. -/
inductive Malformation
  | unknownConstant (tag : UInt8)
  | illegalText
  /-- A long or double in the last slot of the pool. -/
  | wideAtEnd
  | other (message : String)
  deriving DecidableEq

inductive ReadFault
  | badMagic (magic : UInt32)
  | truncated
  | malformed (what : Malformation)
  | trailingBytes (count : Nat)
  deriving DecidableEq

def Malformation.message : Malformation → String
  | .unknownConstant tag => s!"Unknown constant pool type {tag.toNat}"
  | .illegalText => "Illegal UTF8 string in constant pool"
  | .wideAtEnd => "Wide constant at the end of the constant pool"
  | .other message => message

def ReadFault.message : ReadFault → String
  | .badMagic magic =>
    let digits := upperHex magic.toNat
    "Bad magic number 0x" ++ String.ofList (List.replicate (8 - digits.length) '0') ++ digits
  | .truncated => "Truncated class file"
  | .malformed what => what.message
  | .trailingBytes count => s!"Extra bytes at the end of class file ({count} bytes)"

/-! ## Method bodies -/

inductive VerifyFault
  | truncatedInstruction (offset : Nat)
  | badOpcode (byte : UInt8) (offset : Nat)
  | badTableSwitch (offset : Nat) (low high : Int)
  | badLookupSwitch (offset : Nat) (pairs : Int)
  | badWide (byte : UInt8) (offset : Nat)
  | badHandler (start stop handler : Nat)
  | noCode (cls name descriptor : String)
  | other (message : String)
  deriving DecidableEq

/-- The byte as two lower-case hexadecimal digits. -/
def byteHex (b : UInt8) : String :=
  String.ofList [Nat.digitChar (b.toNat / 16), Nat.digitChar (b.toNat % 16)]

def VerifyFault.message : VerifyFault → String
  | .truncatedInstruction offset => s!"Truncated instruction at offset {offset}"
  | .badOpcode byte offset => s!"Invalid opcode 0x{byteHex byte} at offset {offset}"
  | .badTableSwitch offset low high =>
    s!"Invalid tableswitch at offset {offset}: low {low} > high {high}"
  | .badLookupSwitch offset pairs => s!"Invalid lookupswitch at offset {offset}: {pairs} pairs"
  | .badWide byte offset =>
    s!"Invalid wide prefix on opcode 0x{byteHex byte} at offset {offset}"
  | .badHandler start stop handler => s!"Illegal exception table: {start}:{stop}:{handler}"
  | .noCode cls name descriptor =>
    s!"Class {cls}, method {name} signature {descriptor}: No Code attribute"
  | .other message => message

/-! ## Building the model -/

/-- What is structurally wrong. -/
inductive FormatFault
  /-- The file could not be read. -/
  | unreadable (fault : ReadFault)
  | truncated
  | other (message : String)
  -- attributes
  | leftoverBytes (kind : String)
  | badLength (kind : String)
  | badDeprecated
  | badEnclosingMethod
  | badBootstrapMethods
  | badElementTag (tag : UInt8)
  -- constant pool
  | poolTooLarge
  | badPoolItem (slot : Nat)
  | badPoolType (tag : UInt8)
  | tooManyPatches (patches slots : Nat)
  | badPatch (slot : Nat) (patch kind : String)
  | badPoolIndex (index : Nat)
  | badClassName (name : String)
  | badFieldDescriptor (descriptor : String)
  | badFieldName (name : String)
  | badMethodDescriptor (name descriptor : String)
  | badMethodName (name : String)
  | badMethodType
  | badMethodHandle
  | badHandleName
  -- method bodies
  | badCodeLength (length : Nat)
  | badExceptionTable (name descriptor : String)
  | badLineNumber
  | badBodyDescriptor (descriptor : String)
  | tooFewLocals
  | badTarget
  -- fields and methods
  | fieldDescriptor (name descriptor : String)
  | fieldName (name : String)
  | fieldModifiers (bits : UInt16)
  | repeatedField
  | constantIndex
  | constantDescriptor
  | methodDescriptor (cls name descriptor : String)
  | methodName (name : String)
  | initializerDescriptor (name descriptor : String)
  | methodModifiers (name cls : String) (bits : UInt16)
  | repeatedMethod
  | repeatedAttribute (kind : String)
  | needlessCode
  | missingCode
  -- the class itself
  | classModifiers (bits : UInt16)
  | badThisClass
  | arrayAsThisClass
  | badSuperClass
  | interfaceSuperClass
  | badInterface
  | repeatedInterface
  | badInnerClass
  | badOuterClass
  | badInnerName
  | innerIsOuter
  | badBootstrapHandle (index : Nat)
  | badBootstrapArgument (index : Nat)
  | missingBootstrapMethod
  deriving DecidableEq

def FormatFault.message : FormatFault → String
  | .unreadable fault => fault.message
  | .truncated => "Truncated class file"
  | .other message => message
  | .leftoverBytes kind => s!"{kind} attribute has wrong length"
  | .badLength kind => s!"{kind} attribute has incorrect length"
  | .badDeprecated => "Invalid Deprecated attribute length"
  | .badEnclosingMethod => "Wrong EnclosingMethod attribute length"
  | .badBootstrapMethods => "Bad length on BootstrapMethods"
  | .badElementTag tag => s!"Invalid tag {tag.toNat} in annotation element_value"
  | .poolTooLarge => "Constant pool is too large"
  | .badPoolItem slot => s!"Invalid constant pool item #{slot}"
  | .badPoolType tag => "Illegal constant pool type 0x" ++ upperHex tag.toNat
  | .tooManyPatches patches slots =>
    s!"{patches} constant pool patches for a pool of size {slots}"
  | .badPatch slot patch kind =>
    s!"Illegal constant pool patch at #{slot}: {patch} does not fit a {kind} constant"
  | .badPoolIndex index => s!"Bad constant pool index #{index}"
  | .badClassName name => s!"Invalid class name \"{name}\""
  | .badFieldDescriptor descriptor => s!"Invalid field signature \"{descriptor}\""
  | .badFieldName name => s!"Invalid field name \"{name}\""
  | .badMethodDescriptor name descriptor => s!"Method {name} has invalid signature {descriptor}"
  | .badMethodName name => s!"Invalid method name \"{name}\""
  | .badMethodType => "Invalid MethodType signature"
  | .badMethodHandle => "Invalid constant pool item MethodHandle"
  | .badHandleName => "Bad method name"
  | .badCodeLength length => s!"Invalid method Code length {length}"
  | .badExceptionTable name descriptor => s!"Illegal exception table in {name}{descriptor}"
  | .badLineNumber => "LineNumberTable has invalid pc"
  | .badBodyDescriptor descriptor => s!"Invalid method signature {descriptor}"
  | .tooFewLocals => "Arguments can't fit into locals"
  | .badTarget => "Illegal target of jump or branch"
  | .fieldDescriptor name descriptor =>
    s!"Field \"{name}\" has invalid signature \"{descriptor}\""
  | .fieldName name => s!"Illegal field name \"{name}\""
  | .fieldModifiers bits => "Illegal field modifiers: 0x" ++ upperHex bits.toNat
  | .repeatedField => "Repetitive field name/signature"
  | .constantIndex => "Bad index into constant pool"
  | .constantDescriptor => "Invalid signature for constant"
  | .methodDescriptor cls name descriptor =>
    s!"Method {cls}.{name} has invalid signature {descriptor}"
  | .methodName name => s!"Illegal method name \"{name}\""
  | .initializerDescriptor name descriptor =>
    s!"Method \"{name}\" has illegal signature \"{descriptor}\""
  | .methodModifiers name cls bits =>
    s!"Method {name} in class {cls} has illegal modifiers: 0x" ++ upperHex bits.toNat
  | .repeatedMethod => "Repetitive method name/signature"
  | .repeatedAttribute kind => s!"Duplicate {kind} attribute"
  | .needlessCode => "Code attribute in native or abstract methods"
  | .missingCode => "Absent Code attribute in method that is not native or abstract"
  | .classModifiers bits => "Illegal class modifiers 0x" ++ upperHex bits.toNat
  | .badThisClass => "Invalid this_class constant pool index"
  | .arrayAsThisClass => "Bad name"
  | .badSuperClass => "Bad superclass index"
  | .interfaceSuperClass => "Interfaces must have java.lang.Object as superclass"
  | .badInterface => "Interface name has bad constant type"
  | .repeatedInterface => "Repetitive interface name"
  | .badInnerClass => "inner_class_info_index has bad constant type"
  | .badOuterClass => "outer_class_info_index has bad constant type"
  | .badInnerName => "inner_name_index has bad constant type"
  | .innerIsOuter => "Class is both inner and outer class"
  | .badBootstrapHandle index => s!"bootstrap_method_index {index} has bad constant type"
  | .badBootstrapArgument index => s!"argument_index {index} has bad constant type"
  | .missingBootstrapMethod => "Short length on BootstrapMethods in class file"

/-! ## Errors -/

/-- What is well-formed but not supported. -/
inductive Unsupported
  | patchOfEmptySlot (slot : Nat)
  | patchOfItem (kind : String) (slot : Nat)
  | other (message : String)
  deriving DecidableEq

def Unsupported.message : Unsupported → String
  | .patchOfEmptySlot slot => s!"Constant pool patch for empty slot #{slot}"
  | .patchOfItem kind slot => s!"Constant pool patch for {kind} at #{slot}"
  | .other message => message

inductive Error
  | format (cls : Option String) (fault : FormatFault)
  | unsupportedVersion (cls : String) (version : Version)
  | notImplemented (what : Unsupported)
  deriving DecidableEq

namespace Error

/-- A format error that is not associated with a class yet takes the name. -/
def inClass (name : String) : Error → Error
  | .format none fault => .format (some name) fault
  | e => e

/-- The message without the class. -/
def message : Error → String
  | .format _ fault => fault.message
  | .unsupportedVersion _ version => s!"Unsupported major.minor version {version.text}"
  | .notImplemented what => what.message

def text : Error → String
  | .format (some cls) fault => s!"{cls} ({fault.message})"
  | .format none fault => fault.message
  | .unsupportedVersion cls version =>
    s!"{cls} (Unsupported major.minor version {version.text})"
  | .notImplemented what => s!"not implemented: {what.message}"

/-- Every fault of the binary layout is also a format error. -/
def ofRead (fault : ReadFault) : Error := .format none (.unreadable fault)

end Error

end JvmClass
