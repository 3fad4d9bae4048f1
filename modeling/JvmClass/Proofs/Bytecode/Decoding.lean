/-
  JvmClass.Proofs.Bytecode.Decoding — decoding undoes writing.

  Each read of the decoder is described by what it takes (see `JvmClass.Proofs.Cursor`), up to
  `instruction_eq_ok`: an instruction is read exactly if the next bytes are how it is written.
-/

import JvmClass.Proofs.Bytecode.Encoding
import JvmClass.Proofs.Except
import Mathlib.Data.List.Basic

namespace JvmClass

namespace CodeRead

open Read

variable {length pc : Nat} {c c' : Cursor}

/-! ## Numbers -/

theorem unsignedByte_decodes : Decodes (unsignedByte length) (fun n : UInt8 => (n.toNat : Int)) fun n => [n] :=
  (byte_decodes (ended length)).map _

theorem signedByte_decodes : Decodes (signedByte length) Int8.toInt fun n => [n.toUInt8] :=
  ((byte_decodes (ended length)).map _).comap Int8.toUInt8 fun n => ⟨n.toInt8, rfl⟩

theorem unsignedShort_decodes : Decodes (unsignedShort length) (fun n : UInt16 => (n.toNat : Int)) shortBytes :=
  (short_decodes (ended length)).map _

theorem signedShort_decodes : Decodes (signedShort length) Int16.toInt signedShortBytes :=
  ((short_decodes (ended length)).map _).comap Int16.toUInt16 fun n => ⟨n.toInt16, rfl⟩

theorem signedWord_decodes : Decodes (signedWord length) Int32.toInt signedWordBytes :=
  ((word_decodes (ended length)).map _).comap Int32.toUInt32 fun n => ⟨n.toInt32, rfl⟩

theorem target_decodes : Decodes (target length pc) (fun n : Int16 => pc + n.toInt) signedShortBytes :=
  signedShort_decodes.map _

theorem wideTarget_decodes : Decodes (wideTarget length pc) (Operands.reach pc) signedWordBytes :=
  signedWord_decodes.map _

theorem pair_decodes :
    Decodes (do return (← signedWord length, ← wideTarget length pc))
      (fun p : Int32 × Int32 => (p.1.toInt, Operands.reach pc p.2)) pairBytes :=
  signedWord_decodes.map₂ wideTarget_decodes Prod.mk

theorem isPadding_iff {position : Nat} {bytes : List UInt8} :
    IsPadding position bytes ↔ bytes.length = padding position := by
  unfold IsPadding padding
  omega

theorem align_eq_ok {u : Unit} :
    align length c = .ok u c' ↔ ∃ bytes, IsPadding c.position bytes ∧ c.Takes bytes c' := by
  simp only [align, bind_eq_ok, position_eq_ok, exact_eq_ok, pure_eq_ok, isPadding_iff]
  constructor
  · intro ⟨_, _, ⟨hp, hc⟩, bytes, m, h, _, hm⟩
    subst hp hc hm
    exact ⟨bytes, h⟩
  · intro ⟨bytes, h⟩
    exact ⟨_, _, ⟨rfl, rfl⟩, bytes, c', h, trivial, rfl⟩

/-! ## Operands -/

theorem tableSwitch_eq_ok (hc : c.position = pc + 1) {opcode : Opcode} {i : Instruction} :
    operands length pc opcode .tableSwitch c = .ok i c' ↔
      ∃ o : Operands .tableSwitch, o.FitsAt pc ∧ o.instruction pc opcode = i ∧ c.Takes o.bytes c' := by
  simp only [operands, tableSwitch, bind_eq_ok, align_eq_ok, wideTarget_decodes.eq_ok, signedWord_decodes.eq_ok,
    ite_throw_eq_ok, wideTarget_decodes.many, pure_eq_ok, hc]
  constructor
  · intro h
    obtain ⟨_, _, ⟨_, m₁, ⟨padding, hpad, h₁⟩, _, m₂, ⟨otherwise, rfl, h₂⟩, _, m₃, ⟨low, rfl, h₃⟩, _, m₄,
      ⟨high, rfl, h₄⟩, hle, _, _, ⟨offsets, hlen, rfl, h₅⟩, rfl, rfl⟩, hi, rfl⟩ := h
    refine ⟨.tableSwitch padding otherwise low high offsets, ⟨hpad, by omega, by omega⟩, hi, ?_⟩
    simp only [Operands.bytes, Cursor.takes_append]
    exact ⟨m₄, ⟨m₃, ⟨m₂, ⟨m₁, h₁, h₂⟩, h₃⟩, h₄⟩, h₅⟩
  · intro ⟨.tableSwitch padding otherwise low high offsets, ⟨hpad, hle, hlen⟩, hi, h⟩
    simp only [Operands.bytes, Cursor.takes_append] at h
    obtain ⟨m₄, ⟨m₃, ⟨m₂, ⟨m₁, h₁, h₂⟩, h₃⟩, h₄⟩, h₅⟩ := h
    exact ⟨_, _, ⟨(), m₁, ⟨padding, hpad, h₁⟩, _, m₂, ⟨otherwise, rfl, h₂⟩, _, m₃, ⟨low, rfl, h₃⟩, _, m₄,
      ⟨high, rfl, h₄⟩, by omega, _, _, ⟨offsets, by omega, rfl, h₅⟩, rfl, rfl⟩, hi, rfl⟩

theorem lookupSwitch_eq_ok (hc : c.position = pc + 1) {opcode : Opcode} {i : Instruction} :
    operands length pc opcode .lookupSwitch c = .ok i c' ↔
      ∃ o : Operands .lookupSwitch, o.FitsAt pc ∧ o.instruction pc opcode = i ∧ c.Takes o.bytes c' := by
  simp only [operands, lookupSwitch, bind_eq_ok, align_eq_ok, wideTarget_decodes.eq_ok, signedWord_decodes.eq_ok,
    ite_throw_eq_ok, pair_decodes.many, pure_eq_ok, hc]
  constructor
  · intro h
    obtain ⟨_, _, ⟨_, m₁, ⟨padding, hpad, h₁⟩, _, m₂, ⟨otherwise, rfl, h₂⟩, _, m₃, ⟨count, rfl, h₃⟩, hle, _, _,
      ⟨pairs, hlen, rfl, h₄⟩, rfl, rfl⟩, hi, rfl⟩ := h
    refine ⟨.lookupSwitch padding otherwise count pairs, ⟨hpad, by omega⟩, hi, ?_⟩
    simp only [Operands.bytes, Cursor.takes_append]
    exact ⟨m₃, ⟨m₂, ⟨m₁, h₁, h₂⟩, h₃⟩, h₄⟩
  · intro ⟨.lookupSwitch padding otherwise count pairs, ⟨hpad, hlen⟩, hi, h⟩
    simp only [Operands.bytes, Cursor.takes_append] at h
    obtain ⟨m₃, ⟨m₂, ⟨m₁, h₁, h₂⟩, h₃⟩, h₄⟩ := h
    exact ⟨_, _, ⟨(), m₁, ⟨padding, hpad, h₁⟩, _, m₂, ⟨otherwise, rfl, h₂⟩, _, m₃, ⟨count, rfl, h₃⟩, by omega, _, _,
      ⟨pairs, by omega, rfl, h₄⟩, rfl, rfl⟩, hi, rfl⟩

theorem wide_eq_ok {opcode : Opcode} {i : Instruction} :
    operands length pc opcode .wide c = .ok i c' ↔
      ∃ o : Operands .wide, o.FitsAt pc ∧ o.instruction pc opcode = i ∧ c.Takes o.bytes c' := by
  simp only [operands, wideInstruction, byte, bind_eq_ok, (byte_decodes _).eq_ok]
  constructor
  · intro ⟨modified, m₁, ⟨_, rfl, h₁⟩, h⟩
    cases known : Opcode.ofByte? modified with
    | none =>
      rw [known] at h
      exact (throw_eq_ok.mp h).elim
    | some entry =>
      obtain ⟨opcode', format⟩ := entry
      rw [known] at h
      cases format with
      | slot =>
        obtain ⟨n, hi, h₂⟩ := (unsignedShort_decodes.map _).eq_ok.mp h
        exact ⟨.wideSlot modified opcode' known n, trivial, hi, Cursor.takes_append.mpr ⟨m₁, h₁, h₂⟩⟩
      | increment =>
        obtain ⟨⟨index, amount⟩, hi, h₂⟩ := (unsignedShort_decodes.map₂ signedShort_decodes _).eq_ok.mp h
        refine ⟨.wideIncrement modified opcode' known index amount, trivial, hi, ?_⟩
        rw [Operands.bytes, List.append_assoc]
        exact Cursor.takes_append.mpr ⟨m₁, h₁, h₂⟩
      | _ => exact (throw_eq_ok.mp h).elim
  · intro ⟨o, _, hi, h⟩
    cases o with
    | wideSlot modified opcode' known n =>
      obtain ⟨m₁, h₁, h₂⟩ := Cursor.takes_append.mp h
      refine ⟨modified, m₁, ⟨modified, rfl, h₁⟩, ?_⟩
      rw [known]
      exact (unsignedShort_decodes.map _).eq_ok.mpr ⟨n, hi, h₂⟩
    | wideIncrement modified opcode' known index amount =>
      rw [Operands.bytes, List.append_assoc] at h
      obtain ⟨m₁, h₁, h₂⟩ := Cursor.takes_append.mp h
      refine ⟨modified, m₁, ⟨modified, rfl, h₁⟩, ?_⟩
      rw [known]
      exact (unsignedShort_decodes.map₂ signedShort_decodes _).eq_ok.mpr ⟨(index, amount), hi, h₂⟩

theorem interfaceCall_eq_ok {opcode : Opcode} {i : Instruction} :
    operands length pc opcode .interfaceCall c = .ok i c' ↔
      ∃ o : Operands .interfaceCall, o.FitsAt pc ∧ o.instruction pc opcode = i ∧ c.Takes o.bytes c' := by
  simp only [operands, byte, bind_eq_ok, unsignedShort_decodes.eq_ok, unsignedByte_decodes.eq_ok,
    (byte_decodes _).eq_ok, pure_eq_ok]
  constructor
  · intro h
    obtain ⟨_, m₁, ⟨method, rfl, h₁⟩, _, m₂, ⟨count, rfl, h₂⟩, _, _, ⟨spare, rfl, h₃⟩, hi, rfl⟩ := h
    refine ⟨.interfaceCall method count spare, trivial, hi, ?_⟩
    simp only [Operands.bytes, Cursor.takes_append]
    exact ⟨m₂, ⟨m₁, h₁, h₂⟩, h₃⟩
  · intro ⟨.interfaceCall method count spare, _, hi, h⟩
    simp only [Operands.bytes, Cursor.takes_append] at h
    obtain ⟨m₂, ⟨m₁, h₁, h₂⟩, h₃⟩ := h
    exact ⟨_, m₁, ⟨method, rfl, h₁⟩, _, m₂, ⟨count, rfl, h₂⟩, _, c', ⟨spare, rfl, h₃⟩, hi, rfl⟩

/-- Operands are read exactly if the next bytes are how they are written. -/
theorem operands_eq_ok (hc : c.position = pc + 1) {opcode : Opcode} {format : OperandFormat} {i : Instruction} :
    operands length pc opcode format c = .ok i c' ↔
      ∃ o : Operands format, o.FitsAt pc ∧ o.instruction pc opcode = i ∧ c.Takes o.bytes c' := by
  cases format with
  | plain =>
    exact pure_eq_ok.trans ⟨fun ⟨hi, h⟩ => ⟨.plain, trivial, hi, Cursor.takes_nil.mpr h⟩,
      fun ⟨.plain, _, hi, h⟩ => ⟨hi, Cursor.takes_nil.mp h⟩⟩
  | implied operand =>
    exact pure_eq_ok.trans ⟨fun ⟨hi, h⟩ => ⟨.implied operand, trivial, hi, Cursor.takes_nil.mpr h⟩,
      fun ⟨.implied _, _, hi, h⟩ => ⟨hi, Cursor.takes_nil.mp h⟩⟩
  | slot =>
    exact (unsignedByte_decodes.map _).eq_ok.trans ⟨fun ⟨n, h⟩ => ⟨.slot n, trivial, h⟩,
      fun ⟨.slot n, _, h⟩ => ⟨n, h⟩⟩
  | byte =>
    exact (signedByte_decodes.map _).eq_ok.trans ⟨fun ⟨n, h⟩ => ⟨.byte n, trivial, h⟩,
      fun ⟨.byte n, _, h⟩ => ⟨n, h⟩⟩
  | short =>
    exact (signedShort_decodes.map _).eq_ok.trans ⟨fun ⟨n, h⟩ => ⟨.short n, trivial, h⟩,
      fun ⟨.short n, _, h⟩ => ⟨n, h⟩⟩
  | constantByte =>
    exact (unsignedByte_decodes.map _).eq_ok.trans ⟨fun ⟨n, h⟩ => ⟨.constantByte n, trivial, h⟩,
      fun ⟨.constantByte n, _, h⟩ => ⟨n, h⟩⟩
  | constant =>
    exact (unsignedShort_decodes.map _).eq_ok.trans ⟨fun ⟨n, h⟩ => ⟨.constant n, trivial, h⟩,
      fun ⟨.constant n, _, h⟩ => ⟨n, h⟩⟩
  | increment =>
    exact (unsignedByte_decodes.map₂ signedByte_decodes _).eq_ok.trans
      ⟨fun ⟨(index, amount), h⟩ => ⟨.increment index amount, trivial, h⟩,
        fun ⟨.increment index amount, _, h⟩ => ⟨(index, amount), h⟩⟩
  | interfaceCall => exact interfaceCall_eq_ok
  | dynamicCall =>
    exact (unsignedShort_decodes.map₂ unsignedShort_decodes _).eq_ok.trans
      ⟨fun ⟨(site, spare), h⟩ => ⟨.dynamicCall site spare, trivial, h⟩,
        fun ⟨.dynamicCall site spare, _, h⟩ => ⟨(site, spare), h⟩⟩
  | dimensions =>
    exact (unsignedShort_decodes.map₂ unsignedByte_decodes _).eq_ok.trans
      ⟨fun ⟨(cls, count), h⟩ => ⟨.dimensions cls count, trivial, h⟩,
        fun ⟨.dimensions cls count, _, h⟩ => ⟨(cls, count), h⟩⟩
  | arrayType =>
    exact (unsignedByte_decodes.map _).eq_ok.trans ⟨fun ⟨n, h⟩ => ⟨.arrayType n, trivial, h⟩,
      fun ⟨.arrayType n, _, h⟩ => ⟨n, h⟩⟩
  | branch =>
    exact (target_decodes.map _).eq_ok.trans ⟨fun ⟨n, h⟩ => ⟨.branch n, trivial, h⟩,
      fun ⟨.branch n, _, h⟩ => ⟨n, h⟩⟩
  | wideBranch =>
    exact (wideTarget_decodes.map _).eq_ok.trans ⟨fun ⟨n, h⟩ => ⟨.wideBranch n, trivial, h⟩,
      fun ⟨.wideBranch n, _, h⟩ => ⟨n, h⟩⟩
  | tableSwitch => exact tableSwitch_eq_ok hc
  | lookupSwitch => exact lookupSwitch_eq_ok hc
  | wide => exact wide_eq_ok

/-! ## Instructions -/

/-- An instruction is read exactly if the next bytes are how it is written where the cursor is. -/
theorem instruction_eq_ok {i : Instruction} :
    instruction length c = .ok i c' ↔
      ∃ w : Written, w.FitsAt c.position ∧ w.instruction c.position = i ∧ c.Takes w.bytes c' := by
  simp only [instruction, byte, bind_eq_ok, position_eq_ok, (byte_decodes _).eq_ok]
  constructor
  · intro h
    obtain ⟨_, _, ⟨rfl, rfl⟩, _, m, ⟨first, rfl, hm⟩, h⟩ := h
    cases known : Opcode.ofByte? first with
    | none =>
      rw [id, known] at h
      exact (throw_eq_ok.mp h).elim
    | some entry =>
      obtain ⟨opcode, format⟩ := entry
      rw [id, known] at h
      obtain ⟨o, hfit, hi, ho⟩ := (operands_eq_ok hm.position).mp h
      exact ⟨⟨first, opcode, format, known, o⟩, hfit, hi, Cursor.takes_append.mpr ⟨m, hm, ho⟩⟩
  · intro ⟨w, hfit, hi, h⟩
    obtain ⟨m, hm, ho⟩ := Cursor.takes_append.mp (show c.Takes ([w.byte] ++ w.operands.bytes) c' from h)
    refine ⟨_, c, ⟨rfl, rfl⟩, w.byte, m, ⟨w.byte, rfl, hm⟩, ?_⟩
    rw [w.known]
    exact (operands_eq_ok hm.position).mpr ⟨w.operands, hfit, hi, ho⟩

/-- At the end of the payload there is nothing to read. -/
theorem end_eq_ok {acc : List Instruction} (hend : c.rest = []) {is : List Instruction} :
    (pure acc.reverse : CodeRead (List Instruction)) c = .ok is c' ↔
      c'.rest = [] ∧ ∃ ws, Written.FitFrom c.position ws ∧
        acc.reverse ++ Written.instructionsFrom c.position ws = is ∧ c.Takes (ws.flatMap Written.bytes) c' := by
  rw [pure_eq_ok]
  constructor
  · intro ⟨hi, hc⟩
    exact ⟨hc ▸ hend, [], trivial, (List.append_nil _).trans hi, Cursor.takes_nil.mpr hc⟩
  · intro ⟨_, ws, _, hi, h⟩
    obtain rfl := Written.eq_nil_of_takes hend h
    exact ⟨(List.append_nil _).symm.trans hi, Cursor.takes_nil.mp h⟩

/-- Instructions are read up to the end. The measure is the number of bytes left, of which each
    instruction takes one at least. -/
theorem instructionsInto_eq_ok {acc : List Instruction} {most : Nat} (hmost : c.rest.length ≤ most)
    {is : List Instruction} :
    instructionsInto length acc most c = .ok is c' ↔
      c'.rest = [] ∧ ∃ ws, Written.FitFrom c.position ws ∧
        acc.reverse ++ Written.instructionsFrom c.position ws = is ∧ c.Takes (ws.flatMap Written.bytes) c' := by
  induction most generalizing acc c with
  | zero => exact end_eq_ok (List.eq_nil_of_length_eq_zero (by omega))
  | succ most ih =>
    simp only [instructionsInto, bind_eq_ok, isAtEnd_eq_ok]
    by_cases hend : c.rest = []
    · have hc : c.isAtEnd = true := Cursor.isAtEnd_iff.mpr hend
      constructor
      · intro h
        obtain ⟨_, _, ⟨hb, hm⟩, h⟩ := h
        rw [← hb, hc, if_pos rfl, ← hm] at h
        exact (end_eq_ok hend).mp h
      · intro h
        refine ⟨true, c, ⟨hc, rfl⟩, ?_⟩
        rw [if_pos rfl]
        exact (end_eq_ok hend).mpr h
    · have hc : ¬c.isAtEnd = true := fun h => hend (Cursor.isAtEnd_iff.mp h)
      constructor
      · intro h
        obtain ⟨_, _, ⟨hb, hm⟩, h⟩ := h
        rw [← hb, if_neg hc, ← hm, bind_eq_ok] at h
        obtain ⟨i, m, hi, h⟩ := h
        obtain ⟨w, hfit, rfl, hw⟩ := instruction_eq_ok.mp hi
        have hlen := hw.length_rest
        have hpos := w.length_bytes_pos
        obtain ⟨hrest, ws, hfits, his, hws⟩ := (ih (by omega)).mp h
        rw [hw.position] at hfits his
        refine ⟨hrest, w :: ws, ⟨hfit, hfits⟩, ?_, Cursor.takes_append.mpr ⟨m, hw, hws⟩⟩
        simpa [Written.instructionsFrom] using his
      · intro h
        obtain ⟨hrest, ws, hfits, his, h⟩ := h
        refine ⟨false, c, ⟨by simpa using hc, rfl⟩, ?_⟩
        rw [if_neg Bool.false_ne_true, bind_eq_ok]
        cases ws with
        | nil =>
          obtain rfl := Cursor.takes_nil.mp h
          exact absurd hrest hend
        | cons w ws =>
          obtain ⟨m, hw, hws⟩ := Cursor.takes_append.mp h
          have hlen := hw.length_rest
          have hpos := w.length_bytes_pos
          refine ⟨_, m, instruction_eq_ok.mpr ⟨w, hfits.1, rfl, hw⟩, (ih (by omega)).mpr ⟨hrest, ws, ?_, ?_, hws⟩⟩
          · rw [hw.position]
            exact hfits.2
          · rw [hw.position]
            simpa [Written.instructionsFrom] using his

end CodeRead

theorem run_instructionsInto_eq_ok {bytes : List UInt8} {is : List Instruction} :
    Read.run (CodeRead.instructionsInto bytes.length [] bytes.length) bytes = .ok is ↔
      ∃ ws, Written.Spell ws bytes ∧ Written.instructionsFrom 0 ws = is := by
  have hall (c' : Cursor) :
      CodeRead.instructionsInto bytes.length [] bytes.length (Cursor.ofBytes bytes) = .ok is c' ↔ _ :=
    CodeRead.instructionsInto_eq_ok (Nat.le_refl (Cursor.ofBytes bytes).rest.length)
  rw [Read.run_eq_ok]
  constructor
  · intro ⟨c', h⟩
    obtain ⟨hend, ws, hfits, his, hws⟩ := (hall c').mp h
    have hrest := hws.rest
    rw [hend, List.append_nil] at hrest
    exact ⟨ws, ⟨hfits, hrest.symm⟩, his⟩
  · intro ⟨ws, hspell, his⟩
    refine ⟨⟨bytes.length, []⟩, (hall _).mpr ⟨rfl, ws, hspell.fit, his, ?_, ?_⟩⟩
    · rw [hspell.bytes]
      exact (List.append_nil _).symm
    · rw [hspell.bytes]
      exact (Nat.zero_add _).symm

/-- A body is decoded exactly if it is written as a row of instructions. -/
theorem decodeInstructions_eq_ok {bytes : List UInt8} {is : List Instruction} :
    decodeInstructions bytes = .ok is ↔
      ∃ ws, Written.Spell ws bytes ∧ Written.decoded ws bytes = is := by
  simp only [decodeInstructions, Except.map_eq_ok, run_instructionsInto_eq_ok]
  constructor
  · intro h
    obtain ⟨_, ⟨ws, hspell, rfl⟩, his⟩ := h
    exact ⟨ws, hspell, his⟩
  · intro ⟨ws, hspell, his⟩
    exact ⟨_, ⟨ws, hspell, rfl⟩, his⟩

namespace Written

/-! ## The split of a body -/

/-- What is written at a position tells where it ends: the read stops behind it, whatever follows. -/
theorem bytes_unique {pc : Nat} {w w' : Written} {rest rest' : List UInt8} (hfit : w.FitsAt pc) (hfit' : w'.FitsAt pc)
    (h : w.bytes ++ rest = w'.bytes ++ rest') : w.bytes = w'.bytes ∧ rest = rest' := by
  have hread : CodeRead.instruction 0 ⟨pc, w.bytes ++ rest⟩ =
      .ok (w.instruction pc) ⟨pc + w.bytes.length, rest⟩ :=
    CodeRead.instruction_eq_ok.mpr ⟨w, hfit, rfl, rfl, rfl⟩
  have hread' : CodeRead.instruction 0 ⟨pc, w.bytes ++ rest⟩ =
      .ok (w'.instruction pc) ⟨pc + w'.bytes.length, rest'⟩ :=
    CodeRead.instruction_eq_ok.mpr ⟨w', hfit', rfl, h, rfl⟩
  rw [hread] at hread'
  injection hread' with _ hc
  injection hc with _ hrest
  subst hrest
  exact ⟨List.append_cancel_right h, rfl⟩

theorem split_unique {pc : Nat} {ws ws' : List Written} (hfit : FitFrom pc ws) (hfit' : FitFrom pc ws')
    (h : ws.flatMap bytes = ws'.flatMap bytes) : ws.map bytes = ws'.map bytes := by
  induction ws generalizing pc ws' with
  | nil =>
    cases ws' with
    | nil => rfl
    | cons w' ws' => cases h
  | cons w ws ih =>
    cases ws' with
    | nil => cases h
    | cons w' ws' =>
      obtain ⟨hw, hrest⟩ := bytes_unique hfit.1 hfit'.1 h
      have hfits' := hfit'.2
      rw [← hw] at hfits'
      rw [List.map_cons, List.map_cons, hw, ih hfit.2 hfits' hrest]

variable {ws : List Written} {body : List UInt8}

@[simp] theorem length_decoded : (decoded ws body).length = ws.length + 1 := by
  simp [decoded]

theorem getElem?_decoded {k : Nat} {w : Written} (hw : ws[k]? = some w) :
    (decoded ws body)[k]? = some (w.instruction (start ws k)) := by
  obtain ⟨hk, -⟩ := List.getElem?_eq_some_iff.mp hw
  rw [decoded, List.getElem?_append_left (by simpa using hk), getElem?_instructionsFrom, hw, Nat.zero_add]
  rfl

theorem getElem?_decoded_length : (decoded ws body)[ws.length]? = some (Instruction.final body.length) := by
  simp [decoded]

theorem pc_decoded (h : Spell ws body) {k : Nat} {i : Instruction} (hi : (decoded ws body)[k]? = some i) :
    i.pc = start ws k := by
  obtain ⟨hk, -⟩ := List.getElem?_eq_some_iff.mp hi
  rw [length_decoded] at hk
  rcases Nat.lt_succ_iff_lt_or_eq.mp hk with hlt | rfl
  · rw [getElem?_decoded (List.getElem?_eq_getElem hlt)] at hi
    cases hi
    exact instruction_pc _ _
  · rw [getElem?_decoded_length] at hi
    cases hi
    rw [start_length, h.bytes]
    rfl

theorem pairwise_pc_decoded (h : Spell ws body) : (decoded ws body).Pairwise (·.pc < ·.pc) := by
  rw [List.pairwise_iff_getElem]
  intro j k hj hk hjk
  rw [pc_decoded h (List.getElem?_eq_getElem hj), pc_decoded h (List.getElem?_eq_getElem hk)]
  rw [length_decoded] at hk
  exact start_lt_start hjk (by omega)

theorem fitsAt_start {pc k : Nat} {w : Written} (h : FitFrom pc ws) (hw : ws[k]? = some w) :
    w.FitsAt (pc + start ws k) := by
  induction ws generalizing pc k with
  | nil => cases hw
  | cons w' ws ih =>
    cases k with
    | zero =>
      cases hw
      exact h.1
    | succ k =>
      rw [start_cons_succ, ← Nat.add_assoc]
      exact ih h.2 hw

/-- What decoding makes of a body: an instruction for each part, at the start of that part, and the
    final one. -/
structure Transcript (ws : List Written) (body : List UInt8) (is : List Instruction) : Prop where
  length : is.length = ws.length + 1
  part : ∀ (k : Nat) (w : Written), ws[k]? = some w → is[k]? = some (w.instruction (start ws k))
  final : is[ws.length]? = some (Instruction.final body.length)
  pc : ∀ (k : Nat) (i : Instruction), is[k]? = some i → i.pc = start ws k
  increasing : is.Pairwise (·.pc < ·.pc)
  /-- The keys of a table switch run from its lowest to its highest, one by one. -/
  keys : ∀ (k : Nat) (w : Written) (low high : Int), ws[k]? = some w → w.operands.keyBounds? = some (low, high) →
    ∃ i table, is[k]? = some i ∧ i.switch = some table ∧
      table.entries.map (·.1) = (List.range (high - low + 1).toNat).map fun n : Nat => low + n
  keyRange : ∀ i ∈ is, ∀ table, i.switch = some table → ∀ e ∈ table.entries,
    -0x80000000 ≤ e.1 ∧ e.1 < 0x80000000

theorem transcript_decoded (h : Spell ws body) : Transcript ws body (decoded ws body) where
  length := length_decoded
  part _ _ := getElem?_decoded
  final := getElem?_decoded_length
  pc _ _ := pc_decoded h
  increasing := pairwise_pc_decoded h
  keys := by
    intro k w low high hw hbounds
    have hfit := fitsAt_start h.fit hw
    rw [Nat.zero_add] at hfit
    obtain ⟨table, htable, hkeys⟩ : ∃ table, (w.instruction (start ws k)).switch = some table ∧ _ :=
      Operands.keys_eq hfit hbounds
    exact ⟨_, table, getElem?_decoded hw, htable, hkeys⟩
  keyRange := by
    intro i hi table htable e he
    rcases List.mem_append.mp hi with hi | hi
    · obtain ⟨k, hk⟩ := List.mem_iff_getElem?.mp hi
      rw [getElem?_instructionsFrom] at hk
      obtain ⟨w, hw, rfl⟩ := Option.map_eq_some_iff.mp hk
      exact Operands.key_range (fitsAt_start h.fit hw) htable he
    · obtain rfl := List.mem_singleton.mp hi
      cases htable

end Written

/-- A body decodes exactly if it is a row of written instructions. It is so in one way only, and
    decodes to what is written. -/
theorem decodeInstructions_inverts_writing (bytes : List UInt8) :
    ((∃ is, decodeInstructions bytes = .ok is) ↔ ∃ ws, Written.Spell ws bytes) ∧
      (∀ ws ws', Written.Spell ws bytes → Written.Spell ws' bytes →
        ws.map Written.bytes = ws'.map Written.bytes) ∧
      ∀ ws, Written.Spell ws bytes → ∃ is, decodeInstructions bytes = .ok is ∧ Written.Transcript ws bytes is := by
  refine ⟨?_, ?_, ?_⟩
  · constructor
    · intro ⟨is, h⟩
      obtain ⟨ws, hspell, -⟩ := decodeInstructions_eq_ok.mp h
      exact ⟨ws, hspell⟩
    · intro ⟨ws, hspell⟩
      exact ⟨_, decodeInstructions_eq_ok.mpr ⟨ws, hspell, rfl⟩⟩
  · intro ws ws' h h'
    exact Written.split_unique h.fit h'.fit (h.bytes.trans h'.bytes.symm)
  · intro ws h
    exact ⟨Written.decoded ws bytes, decodeInstructions_eq_ok.mpr ⟨ws, h, rfl⟩, Written.transcript_decoded h⟩

theorem decodeInstructions_inverts_writing_goto :
    ∃ ws, Written.Spell ws [0xA7, 0, 3, 0xB1] ∧ Written.Transcript ws [0xA7, 0, 3, 0xB1]
      [{ pc := 0, opcode := .goto, operand := 3 }, { pc := 3, opcode := .returnVoid }, Instruction.final 4] := by
  have h : decodeInstructions [0xA7, 0, 3, 0xB1] =
      .ok [{ pc := 0, opcode := .goto, operand := 3 }, { pc := 3, opcode := .returnVoid }, Instruction.final 4] := by
    decide +kernel
  obtain ⟨hdecodes, -, htranscript⟩ := decodeInstructions_inverts_writing [0xA7, 0, 3, 0xB1]
  obtain ⟨ws, hspell⟩ := hdecodes.mp ⟨_, h⟩
  obtain ⟨is, his, hws⟩ := htranscript ws hspell
  cases h.symm.trans his
  exact ⟨ws, hspell, hws⟩

end JvmClass
