/-
  JvmClass.Bytecode.Instruction — decoded instructions.

  What the operands mean depends on the opcode: a constant, a local variable, a number, or the
  target of a jump. Targets are offsets in the bytes at first and positions in the list of
  instructions afterwards (`mapTargets?`).
-/

import JvmClass.Bytecode.Opcode

namespace JvmClass

structure SwitchTable where
  otherwise : Int
  /-- Keys and their targets, in the order of the bytes. -/
  entries : List (Int × Int)
  deriving DecidableEq

structure Instruction where
  /-- Where the instruction starts in the bytes. -/
  pc : Nat
  opcode : Opcode
  operand : Int := 0
  /-- An increment, a number of arguments or a number of dimensions. -/
  extra : Int := 0
  switch : Option SwitchTable := none
  deriving DecidableEq

def SwitchTable.targets (t : SwitchTable) : List Int := t.otherwise :: t.entries.map (·.2)

def SwitchTable.mapTargets? (f : Int → Option Int) (t : SwitchTable) : Option SwitchTable := do
  let otherwise ← f t.otherwise
  let entries ← t.entries.mapM fun (key, target) => (f target).map (key, ·)
  return ⟨otherwise, entries⟩

namespace Instruction

/-- Where the instruction may jump to, other than on to the next one. -/
def targets (i : Instruction) : List Int :=
  if i.opcode.isBranch then [i.operand]
  else
    match i.switch with
    | some table => table.targets
    | none => []

/-- The instruction with its targets replaced, unless one has no replacement. -/
def mapTargets? (f : Int → Option Int) (i : Instruction) : Option Instruction :=
  if i.opcode.isBranch then (f i.operand).map fun target => { i with operand := target }
  else
    match i.switch with
    | some table => (table.mapTargets? f).map fun table => { i with switch := some table }
    | none => some i

/-- The slot of the constant that the instruction refers to. -/
def constant? (i : Instruction) : Option UInt16 :=
  if i.opcode.hasConstant then some i.operand.toNat.toUInt16 else none

end Instruction

end JvmClass
