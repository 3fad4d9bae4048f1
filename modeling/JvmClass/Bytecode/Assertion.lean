/-
  JvmClass.Bytecode.Assertion — static initializers that ask whether assertions are on.

  A class that uses assertions starts its static initializer with

      0  ldc            (a class)
      1  invokevirtual  java.lang.Class.desiredAssertionStatus ()Z
      2  ifne           5
      3  iconst         1
      4  goto           6
      5  iconst         0
      6  putstatic      (a field of this class, Z)

  If nothing else jumps into these instructions, is caught in them or stores to the field, they
  can be skipped: the field is then the constant true.
-/

import JvmClass.Bytecode.Code

namespace JvmClass

/-- Number of instructions that ask. -/
def prologueLength : Nat := 7

variable {T F M : Type} (pool : Pool T F M)

def isStatusQuery (m : MemberRef) : Bool :=
  m.className == classClassName && m.name == "desiredAssertionStatus" && m.descriptor == "()Z"

def Instruction.isOf (i : Instruction) (opcode : Opcode) (operand : Int) : Bool :=
  i.opcode == opcode && i.operand == operand

/-- The method of a class that the instruction calls. -/
def calledMethod? (i : Instruction) : Option MemberRef :=
  if i.opcode == .invokevirtual then i.constant?.bind pool.method? else none

/-- The field that the instruction stores to. -/
def storedField? (i : Instruction) : Option MemberRef :=
  if i.opcode == .putstatic then i.constant?.bind pool.field? else none

/-- The field of the class that the first instructions set, if they ask for assertions. At least
    one instruction follows them. -/
def prologueField? (thisClass : String) : List Instruction → Option MemberRef
  | load :: call :: i₂ :: i₃ :: i₄ :: i₅ :: store :: _ :: _ => do
    guard (load.opcode == .ldc && (load.constant?.map pool.isClass).getD false)
    guard ((calledMethod? pool call).map isStatusQuery |>.getD false)
    guard (i₂.isOf .ifne 5 && i₃.isOf .iconst 1 && i₄.isOf .goto 6 && i₅.isOf .iconst 0)
    let field ← storedField? pool store
    guard (field.className == thisClass && field.descriptor == "Z")
    return field
  | _ => none

/-- The position is one of the instructions that ask, other than the first. -/
def isInPrologue (position : Int) : Bool := 0 < position && position < prologueLength

/-- Both refer to one field. -/
def MemberRef.isSameMember (a b : MemberRef) : Bool :=
  a.className == b.className && a.name == b.name && a.descriptor == b.descriptor

/-- The instruction jumps into the prologue or stores to the field. -/
def disturbs (field : MemberRef) (i : Instruction) : Bool :=
  i.targets.any isInPrologue || ((storedField? pool i).map field.isSameMember |>.getD false)

/-- The handler covers part of the prologue or lies in it. -/
def ExceptionHandler.touchesPrologue (h : ExceptionHandler) : Bool :=
  h.first < prologueLength || isInPrologue h.handler

/-- The jump that takes the place of the first instruction. -/
def skipPrologue : List Instruction → List Instruction
  | first :: rest => { pc := first.pc, opcode := .goto, operand := prologueLength } :: rest
  | [] => []

/-- The body without its question for assertions, and the field that is true from now on.
    `isStaticFinal` tells of the names of fields of descriptor `Z`. -/
def removeAssertions (thisClass : String) (isStaticFinal : String → Bool) (body : DecodedBody) :
    Option (MemberRef × DecodedBody) := do
  let field ← prologueField? pool thisClass body.instructions
  guard (isStaticFinal field.name)
  guard !((body.instructions.drop prologueLength).any (disturbs pool field))
  guard !(body.handlers.any (·.touchesPrologue))
  return (field, { body with instructions := skipPrologue body.instructions })

end JvmClass
