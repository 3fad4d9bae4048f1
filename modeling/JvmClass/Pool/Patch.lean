/-
  JvmClass.Pool.Patch — values that a host puts in the place of constants.

  With patches a host defines classes from a template: one class file, other names, types and
  values. A patch fits some kinds of constants only; see `JvmClass.Pool.Draft`.
-/

import JvmClass.Decimal.Notation
import JvmClass.File.Constant
import JvmClass.Text.Quoted

namespace JvmClass

/-- A value of the host that takes the place of a string constant. -/
inductive LiveObject
  | text (value : String)
  | number (value : Int)
  deriving DecidableEq

inductive Patch (T : Type)
  | text (value : String)
  | type (value : T)
  | literal (value : Literal)
  | object (value : LiveObject)

/-- The number in decimal, without a point if it is whole. -/
def Literal.text : Literal → String
  | .int value => toString value.toInt
  | .float bits => Decimal.float32Text Decimal.plain bits
  | .long value => toString value.toInt
  | .double bits => Decimal.float64Text Decimal.plain bits

/-- The patch as a fault shows it. -/
def Patch.describe {T : Type} [ToString T] : Patch T → String
  | .text value => s!"Text({Text.quoted value})"
  | .type value => s!"Type({value})"
  | .literal value => s!"{value.kindName}({value.text})"
  | .object _ => "Object"

end JvmClass
