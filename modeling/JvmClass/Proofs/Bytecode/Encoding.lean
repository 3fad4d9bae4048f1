/-
  JvmClass.Proofs.Bytecode.Encoding — how instructions are written.

  A `Written` instruction is the byte of its opcode and operands of the opcode's format, those
  that have no meaning included: the spare bytes of calls and the padding of switches. Where it
  stands matters twice: a switch is padded to a multiple of four counted from the start of the
  body (`FitsAt`), and jumps are offsets (`targets`). Targets are whole numbers here; in an
  instruction, those of four bytes are cut off to 32 bits.
-/

import JvmClass.Bytecode.Decoder
import JvmClass.Proofs.Cursor

namespace JvmClass

/-! ## Operands -/

inductive Operands : OperandFormat → Type
  | plain : Operands .plain
  | implied (operand : Int) : Operands (.implied operand)
  | slot (n : UInt8) : Operands .slot
  | byte (n : Int8) : Operands .byte
  | short (n : Int16) : Operands .short
  | constantByte (n : UInt8) : Operands .constantByte
  | constant (n : UInt16) : Operands .constant
  | increment (index : UInt8) (amount : Int8) : Operands .increment
  | interfaceCall (method : UInt16) (count spare : UInt8) : Operands .interfaceCall
  | dynamicCall (site spare : UInt16) : Operands .dynamicCall
  | dimensions (cls : UInt16) (count : UInt8) : Operands .dimensions
  | arrayType (code : UInt8) : Operands .arrayType
  | branch (offset : Int16) : Operands .branch
  | wideBranch (offset : Int32) : Operands .wideBranch
  | tableSwitch (padding : List UInt8) (otherwise low high : Int32) (offsets : List Int32) :
      Operands .tableSwitch
  | lookupSwitch (padding : List UInt8) (otherwise count : Int32) (pairs : List (Int32 × Int32)) :
      Operands .lookupSwitch
  | wideSlot (modified : UInt8) (opcode : Opcode)
      (known : Opcode.ofByte? modified = some (opcode, .slot)) (n : UInt16) : Operands .wide
  | wideIncrement (modified : UInt8) (opcode : Opcode)
      (known : Opcode.ofByte? modified = some (opcode, .increment)) (index : UInt16) (amount : Int16) :
      Operands .wide

def signedShortBytes (n : Int16) : List UInt8 := shortBytes n.toUInt16

def signedWordBytes (n : Int32) : List UInt8 := wordBytes n.toUInt32

def pairBytes (pair : Int32 × Int32) : List UInt8 := signedWordBytes pair.1 ++ signedWordBytes pair.2

/-- The padding ends at a multiple of four and is no longer than it has to be. -/
def IsPadding (position : Nat) (padding : List UInt8) : Prop :=
  padding.length < 4 ∧ (position + padding.length) % 4 = 0

namespace Operands

variable {format : OperandFormat}

def bytes : Operands format → List UInt8
  | plain | implied _ => []
  | slot n | constantByte n | arrayType n => [n]
  | byte n => [n.toUInt8]
  | short n | branch n => signedShortBytes n
  | constant n => shortBytes n
  | increment index amount => [index] ++ [amount.toUInt8]
  | interfaceCall method count spare => shortBytes method ++ [count] ++ [spare]
  | dynamicCall site spare => shortBytes site ++ shortBytes spare
  | dimensions cls count => shortBytes cls ++ [count]
  | wideBranch offset => signedWordBytes offset
  | tableSwitch padding otherwise low high offsets =>
    padding ++ signedWordBytes otherwise ++ signedWordBytes low ++ signedWordBytes high ++
      offsets.flatMap signedWordBytes
  | lookupSwitch padding otherwise count pairs =>
    padding ++ signedWordBytes otherwise ++ signedWordBytes count ++ pairs.flatMap pairBytes
  | wideSlot modified _ _ n => [modified] ++ shortBytes n
  | wideIncrement modified _ _ index amount => [modified] ++ shortBytes index ++ signedShortBytes amount

/-- The operands can follow an opcode at `pc`. -/
def FitsAt (pc : Nat) : Operands format → Prop
  | tableSwitch padding _ low high offsets =>
    IsPadding (pc + 1) padding ∧ low.toInt ≤ high.toInt ∧ offsets.length = high.toInt - low.toInt + 1
  | lookupSwitch padding _ count pairs => IsPadding (pc + 1) padding ∧ pairs.length = count.toInt
  | _ => True

/-- Where the operands send an instruction at `pc`, over the integers. -/
def targets (pc : Nat) : Operands format → List Int
  | branch offset => [pc + offset.toInt]
  | wideBranch offset => [pc + offset.toInt]
  | tableSwitch _ otherwise _ _ offsets => (otherwise :: offsets).map (pc + ·.toInt)
  | lookupSwitch _ otherwise _ pairs => (otherwise :: pairs.map (·.2)).map (pc + ·.toInt)
  | _ => []

/-- The lowest and the highest key of a table switch. -/
def keyBounds? : Operands format → Option (Int × Int)
  | tableSwitch _ _ low high _ => some (low.toInt, high.toInt)
  | _ => none

/-- A target in four bytes as an instruction keeps it. -/
def reach (pc : Nat) (offset : Int32) : Int := clampInt32 (pc + offset.toInt)

/-- The instruction at `pc` that the operands complete; `wide` brings its opcode along. -/
def instruction (pc : Nat) (opcode : Opcode) : Operands format → Instruction
  | plain => { pc, opcode }
  | implied operand => { pc, opcode, operand }
  | slot n | constantByte n | arrayType n => { pc, opcode, operand := n.toNat }
  | byte n => { pc, opcode, operand := n.toInt }
  | short n => { pc, opcode, operand := n.toInt }
  | constant n => { pc, opcode, operand := n.toNat }
  | increment index amount => { pc, opcode, operand := index.toNat, extra := amount.toInt }
  | interfaceCall method count _ => { pc, opcode, operand := method.toNat, extra := count.toNat }
  | dynamicCall site _ => { pc, opcode, operand := site.toNat }
  | dimensions cls count => { pc, opcode, operand := cls.toNat, extra := count.toNat }
  | branch offset => { pc, opcode, operand := pc + offset.toInt }
  | wideBranch offset => { pc, opcode, operand := reach pc offset }
  | tableSwitch _ otherwise low _ offsets =>
    { pc, opcode, switch := some ⟨reach pc otherwise,
        (offsets.map (reach pc)).zipIdx.map fun (target, k) => (low.toInt + k, target)⟩ }
  | lookupSwitch _ otherwise _ pairs =>
    { pc, opcode, switch := some ⟨reach pc otherwise,
        pairs.map fun (key, offset) => (key.toInt, reach pc offset)⟩ }
  | wideSlot _ opcode _ n => { pc, opcode, operand := n.toNat }
  | wideIncrement _ opcode _ index amount =>
    { pc, opcode, operand := index.toNat, extra := amount.toInt }

@[simp] theorem instruction_pc (pc : Nat) (opcode : Opcode) (o : Operands format) :
    (o.instruction pc opcode).pc = pc := by cases o <;> rfl

/-- The keys of a switch are numbers of 32 bits. -/
theorem key_range {pc : Nat} {opcode : Opcode} {o : Operands format} (hfit : o.FitsAt pc) {table : SwitchTable}
    (htable : (o.instruction pc opcode).switch = some table) {e : Int × Int} (he : e ∈ table.entries) :
    -0x80000000 ≤ e.1 ∧ e.1 < 0x80000000 := by
  cases o with
  | tableSwitch padding otherwise low high offsets =>
    cases htable
    obtain ⟨-, -, hlen⟩ := hfit
    obtain ⟨⟨target, k⟩, hk, rfl⟩ := List.mem_map.mp he
    have hlt := List.snd_lt_of_mem_zipIdx hk
    have hlow := low.le_toInt
    have hhigh := high.toInt_lt
    simp only [List.length_map] at hlt ⊢
    omega
  | lookupSwitch padding otherwise count pairs =>
    cases htable
    obtain ⟨⟨key, offset⟩, -, rfl⟩ := List.mem_map.mp he
    exact ⟨key.le_toInt, key.toInt_lt⟩
  | _ => cases htable

/-- The keys of a table switch are those from the lowest to the highest, one by one. -/
theorem keys_eq {pc : Nat} {opcode : Opcode} {o : Operands format} (hfit : o.FitsAt pc) {low high : Int}
    (hbounds : o.keyBounds? = some (low, high)) :
    ∃ table, (o.instruction pc opcode).switch = some table ∧
      table.entries.map (·.1) = (List.range (high - low + 1).toNat).map fun k : Nat => low + k := by
  cases o with
  | tableSwitch padding otherwise low' high' offsets =>
    cases hbounds
    obtain ⟨-, -, hlen⟩ := hfit
    refine ⟨_, rfl, ?_⟩
    have hn : (high'.toInt - low'.toInt + 1).toNat = (offsets.map (reach pc)).length := by
      rw [List.length_map]
      omega
    rw [List.map_map, hn, List.range_eq_range', ← List.zipIdx_map_snd 0, List.map_map]
    rfl
  | _ => cases hbounds

end Operands

/-! ## Instructions -/

structure Written where
  byte : UInt8
  opcode : Opcode
  format : OperandFormat
  known : Opcode.ofByte? byte = some (opcode, format)
  operands : Operands format

namespace Written

def bytes (w : Written) : List UInt8 := w.byte :: w.operands.bytes

def FitsAt (pc : Nat) (w : Written) : Prop := w.operands.FitsAt pc

def targets (pc : Nat) (w : Written) : List Int := w.operands.targets pc

def instruction (pc : Nat) (w : Written) : Instruction := w.operands.instruction pc w.opcode

theorem length_bytes_pos (w : Written) : 0 < w.bytes.length := Nat.succ_pos _

@[simp] theorem instruction_pc (pc : Nat) (w : Written) : (w.instruction pc).pc = pc :=
  w.operands.instruction_pc pc w.opcode

/-! ## Bodies -/

/-- Where the `k`th of the instructions starts; behind the last one, where they end. -/
def start (ws : List Written) (k : Nat) : Nat := ((ws.take k).flatMap bytes).length

/-- Each instruction can stand where it does if the first one stands at `pc`. -/
def FitFrom (pc : Nat) : List Written → Prop
  | [] => True
  | w :: ws => w.FitsAt pc ∧ FitFrom (pc + w.bytes.length) ws

def instructionsFrom (pc : Nat) : List Written → List Instruction
  | [] => []
  | w :: ws => w.instruction pc :: instructionsFrom (pc + w.bytes.length) ws

/-- The instructions of a body, the final one included. -/
def decoded (ws : List Written) (body : List UInt8) : List Instruction :=
  instructionsFrom 0 ws ++ [Instruction.final body.length]

/-- The body is these instructions one after the other. -/
structure Spell (ws : List Written) (body : List UInt8) : Prop where
  fit : FitFrom 0 ws
  bytes : ws.flatMap Written.bytes = body

/-- At the end of the payload nothing more is written. -/
theorem eq_nil_of_takes {c c' : Cursor} {ws : List Written} (hend : c.rest = []) (h : c.Takes (ws.flatMap bytes) c') :
    ws = [] := by
  cases ws with
  | nil => rfl
  | cons w ws =>
    have hrest := h.rest
    rw [hend] at hrest
    cases hrest

@[simp] theorem start_zero (ws : List Written) : start ws 0 = 0 := rfl

@[simp] theorem start_cons_succ (w : Written) (ws : List Written) (k : Nat) :
    start (w :: ws) (k + 1) = w.bytes.length + start ws k := by
  simp [start]

theorem start_length (ws : List Written) : start ws ws.length = (ws.flatMap bytes).length := by
  simp [start]

theorem start_lt_succ {ws : List Written} {k : Nat} (hk : k < ws.length) : start ws k < start ws (k + 1) := by
  have := ws[k].length_bytes_pos
  simp only [start, ← List.take_append_getElem hk, List.flatMap_append, List.flatMap_cons, List.flatMap_nil,
    List.append_nil, List.length_append]
  omega

theorem start_lt_start {ws : List Written} {j k : Nat} (hjk : j < k) (hk : k ≤ ws.length) :
    start ws j < start ws k := by
  induction k with
  | zero => omega
  | succ k ih =>
    have hstep := start_lt_succ (show k < ws.length by omega)
    rcases Nat.lt_succ_iff_lt_or_eq.mp hjk with hlt | rfl
    · have := ih hlt (by omega)
      omega
    · exact hstep

theorem start_le_start {ws : List Written} {j k : Nat} (hjk : j ≤ k) (hk : k ≤ ws.length) :
    start ws j ≤ start ws k := by
  rcases Nat.lt_or_eq_of_le hjk with hlt | rfl
  · exact Nat.le_of_lt (start_lt_start hlt hk)
  · exact Nat.le_refl _

/-- A byte before the end belongs to an instruction. -/
theorem exists_start_le {ws : List Written} {p n : Nat} (hp : p < start ws n) :
    ∃ k < n, start ws k ≤ p ∧ p < start ws (k + 1) := by
  induction n with
  | zero => simp at hp
  | succ n ih =>
    by_cases hn : start ws n ≤ p
    · exact ⟨n, Nat.lt_succ_self n, hn, hp⟩
    · obtain ⟨k, hk, h⟩ := ih (by omega)
      exact ⟨k, Nat.lt_succ_of_lt hk, h⟩

@[simp] theorem length_instructionsFrom (pc : Nat) (ws : List Written) :
    (instructionsFrom pc ws).length = ws.length := by
  induction ws generalizing pc with
  | nil => rfl
  | cons w ws ih => simp [instructionsFrom, ih]

theorem getElem?_instructionsFrom (pc : Nat) (ws : List Written) (k : Nat) :
    (instructionsFrom pc ws)[k]? = ws[k]?.map (instruction (pc + start ws k)) := by
  induction ws generalizing pc k with
  | nil => rfl
  | cons w ws ih =>
    cases k with
    | zero => rfl
    | succ k =>
      simp only [instructionsFrom, List.getElem?_cons_succ, start_cons_succ, ← Nat.add_assoc]
      exact ih (pc + w.bytes.length) k

end Written

end JvmClass
