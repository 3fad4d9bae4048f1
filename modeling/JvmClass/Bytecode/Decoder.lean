/-
  JvmClass.Bytecode.Decoder — instructions read from the bytes of a method body.

  Instructions follow one another without gaps. A switch is padded up to a multiple of four,
  counted from the start of the body. Jumps are written as offsets from their instruction; offsets
  of four bytes are added without leaving the range of 32 bits. A last instruction without effect
  stands for the end of the body.
-/

import JvmClass.Bytecode.Instruction
import JvmClass.Cursor

namespace JvmClass

/-- The number of 32 bits that is nearest. -/
def clampInt32 (n : Int) : Int := max (-0x80000000) (min 0x7FFFFFFF n)

/-- A reader of a body; `length` is the number of bytes of the body, where a body that ends too
    early is reported. -/
abbrev CodeRead := Read VerifyFault

namespace CodeRead

variable (length : Nat)

def ended : VerifyFault := .truncatedInstruction length

def byte : CodeRead UInt8 := Read.byte (ended length)

def unsignedByte : CodeRead Int := return (← byte length).toNat

def signedByte : CodeRead Int := return (← byte length).toInt8.toInt

def unsignedShort : CodeRead Int := return (← Read.short (ended length)).toNat

def signedShort : CodeRead Int := return (← Read.short (ended length)).toInt16.toInt

def signedWord : CodeRead Int := return (← Read.word (ended length)).toInt32.toInt

/-- Number of bytes up to the next multiple of four. -/
def padding (position : Nat) : Nat := (4 - position % 4) % 4

def align : CodeRead Unit := do
  let _ ← Read.exact (ended length) (padding (← Read.position))

/-- A target in two bytes. -/
def target (pc : Nat) : CodeRead Int := return pc + (← signedShort length)

/-- A target in four bytes. -/
def wideTarget (pc : Nat) : CodeRead Int := return clampInt32 (pc + (← signedWord length))

/-- The keys of a table switch are consecutive. -/
def tableSwitch (pc : Nat) : CodeRead SwitchTable := do
  align length
  let otherwise ← wideTarget length pc
  let low ← signedWord length
  let high ← signedWord length
  if high < low then throw (.badTableSwitch pc low high)
  let targets ← Read.many (wideTarget length pc) (high - low + 1).toNat
  return ⟨otherwise, targets.zipIdx.map fun (target, k) => (low + k, target)⟩

def lookupSwitch (pc : Nat) : CodeRead SwitchTable := do
  align length
  let otherwise ← wideTarget length pc
  let pairs ← signedWord length
  if pairs < 0 then throw (.badLookupSwitch pc pairs)
  let entries ← Read.many (do return (← signedWord length, ← wideTarget length pc)) pairs.toNat
  return ⟨otherwise, entries⟩

/-- The instruction that the prefix `wide` belongs to. -/
def wideInstruction (pc : Nat) : CodeRead Instruction := do
  let modified ← byte length
  match Opcode.ofByte? modified with
  | some (opcode, .slot) => return { pc, opcode, operand := ← unsignedShort length }
  | some (opcode, .increment) =>
    return { pc, opcode, operand := ← unsignedShort length, extra := ← signedShort length }
  | _ => throw (.badWide modified pc)

/-- The rest of an instruction whose opcode is known. -/
def operands (pc : Nat) (opcode : Opcode) : OperandFormat → CodeRead Instruction
  | .plain => return { pc, opcode }
  | .implied operand => return { pc, opcode, operand }
  | .slot | .constantByte | .arrayType =>
    return { pc, opcode, operand := ← unsignedByte length }
  | .byte => return { pc, opcode, operand := ← signedByte length }
  | .short => return { pc, opcode, operand := ← signedShort length }
  | .constant => return { pc, opcode, operand := ← unsignedShort length }
  | .increment =>
    return { pc, opcode, operand := ← unsignedByte length, extra := ← signedByte length }
  | .interfaceCall => do
    let operand ← unsignedShort length
    let extra ← unsignedByte length
    let _ ← byte length
    return { pc, opcode, operand, extra }
  | .dynamicCall => do
    let operand ← unsignedShort length
    let _ ← unsignedShort length
    return { pc, opcode, operand }
  | .dimensions =>
    return { pc, opcode, operand := ← unsignedShort length, extra := ← unsignedByte length }
  | .branch => return { pc, opcode, operand := ← target length pc }
  | .wideBranch => return { pc, opcode, operand := ← wideTarget length pc }
  | .tableSwitch => return { pc, opcode, switch := some (← tableSwitch length pc) }
  | .lookupSwitch => return { pc, opcode, switch := some (← lookupSwitch length pc) }
  | .wide => wideInstruction length pc

def instruction : CodeRead Instruction := do
  let pc ← Read.position
  let first ← byte length
  match Opcode.ofByte? first with
  | some (opcode, format) => operands length pc opcode format
  | none => throw (.badOpcode first pc)

/-- Instructions up to the end, at most so many, after those of `acc` (last first). -/
def instructionsInto (acc : List Instruction) : Nat → CodeRead (List Instruction)
  | 0 => return acc.reverse
  | most + 1 => do
    if ← Read.isAtEnd then return acc.reverse
    let i ← instruction length
    instructionsInto (i :: acc) most

end CodeRead

/-- What stands for the end of a body. -/
def Instruction.final (length : Nat) : Instruction := { pc := length, opcode := .nop }

/-- The instructions of a body and the final one. Each instruction takes at least a byte, so there
    are no more than bytes. -/
def decodeInstructions (bytes : List UInt8) : Except VerifyFault (List Instruction) :=
  let length := bytes.length
  (Read.run (CodeRead.instructionsInto length [] length) bytes).map
    (· ++ [Instruction.final length])

end JvmClass
