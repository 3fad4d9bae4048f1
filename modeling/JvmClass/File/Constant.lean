/-
  JvmClass.File.Constant — the constants of a class file.

  A constant refers to others by their slot in the pool; nothing here says that the slot holds
  what it should. Floating point values are kept as their bits.
-/

namespace JvmClass

/-- A slot of the constant pool. -/
abbrev Index := UInt16

/-- A number. -/
inductive Literal
  | int (value : Int32)
  | float (bits : UInt32)
  | long (value : Int64)
  | double (bits : UInt64)
  deriving DecidableEq

/-- What a member reference refers to. -/
inductive MemberKind
  | field
  | method
  | interfaceMethod
  deriving DecidableEq

inductive Constant
  | utf8 (text : String)
  | literal (value : Literal)
  | cls (name : Index)
  | string (text : Index)
  | member (kind : MemberKind) (cls nameAndType : Index)
  | nameAndType (name descriptor : Index)
  | methodHandle (kind : UInt8) (reference : Index)
  | methodType (descriptor : Index)
  /-- The first index is one of the bootstrap methods of the class. -/
  | invokeDynamic (bootstrap nameAndType : Index)
  /-- A well-formed constant of a kind that no supported version has. -/
  | unsupported (tag : UInt8)
  deriving DecidableEq

/-- Longs and doubles take two slots of the pool. -/
def Literal.isWide : Literal → Bool
  | .long _ | .double _ => true
  | _ => false

def Constant.isWide : Constant → Bool
  | .literal value => value.isWide
  | _ => false

def Literal.kindName : Literal → String
  | .int _ => "Integer"
  | .float _ => "Float"
  | .long _ => "Long"
  | .double _ => "Double"

def MemberKind.kindName : MemberKind → String
  | .field => "Fieldref"
  | .method => "Methodref"
  | .interfaceMethod => "InterfaceMethodref"

/-! ## Method handles -/

inductive HandleKind
  | getField
  | getStatic
  | putField
  | putStatic
  | invokeVirtual
  | invokeStatic
  | invokeSpecial
  | newInvokeSpecial
  | invokeInterface
  deriving DecidableEq

namespace HandleKind

def ofByte? : UInt8 → Option HandleKind
  | 1 => some .getField
  | 2 => some .getStatic
  | 3 => some .putField
  | 4 => some .putStatic
  | 5 => some .invokeVirtual
  | 6 => some .invokeStatic
  | 7 => some .invokeSpecial
  | 8 => some .newInvokeSpecial
  | 9 => some .invokeInterface
  | _ => none

/-- The handle refers to a field. -/
def isField : HandleKind → Bool
  | .getField | .getStatic | .putField | .putStatic => true
  | _ => false

def name : HandleKind → String
  | .getField => "GetField"
  | .getStatic => "GetStatic"
  | .putField => "PutField"
  | .putStatic => "PutStatic"
  | .invokeVirtual => "InvokeVirtual"
  | .invokeStatic => "InvokeStatic"
  | .invokeSpecial => "InvokeSpecial"
  | .newInvokeSpecial => "NewInvokeSpecial"
  | .invokeInterface => "InvokeInterface"

end HandleKind

end JvmClass
