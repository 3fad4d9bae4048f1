/-
  JvmClass.Proofs.Bytecode.Targets — jumps go where they are written to go.

  Decoding knows three forms of a target: the offset in the bytes, the number that an instruction
  keeps of it, cut off to 32 bits, and the position of the instruction there. That the starts of
  instructions increase makes the last step a bijection (`getElem?_offsetMap`); that bodies are
  short makes the cut harmless (`targetPosition?_clamp`).
-/

import JvmClass.Bytecode.Code
import JvmClass.Proofs.Bytecode.Decoding
import Mathlib.Data.List.Forall2

namespace JvmClass

/-! ## Instructions with other targets -/

/-- The instructions differ in their targets at most. -/
structure Instruction.AgreeBesideTargets (i j : Instruction) : Prop where
  pc : i.pc = j.pc
  opcode : i.opcode = j.opcode
  extra : i.extra = j.extra
  operand : i.opcode.isBranch = false → i.operand = j.operand
  keys : i.switch.map (·.entries.map (·.1)) = j.switch.map (·.entries.map (·.1))

theorem SwitchTable.mapTargets?_eq_some {f : Int → Option Int} {t t' : SwitchTable} (h : t.mapTargets? f = some t') :
    t.targets.map f = t'.targets.map some ∧ t'.entries.map (·.1) = t.entries.map (·.1) := by
  simp only [mapTargets?, Option.bind_eq_bind, Option.bind_eq_some_iff, Option.pure_def, Option.some.injEq,
    List.mapM_eq_some_iff] at h
  obtain ⟨otherwise, ho, entries, he, rfl⟩ := h
  have hentry : ∀ (es es' : List (Int × Int)), es.map (fun e => (f e.2).map (e.1, ·)) = es'.map some →
      (es.map (·.2)).map f = (es'.map (·.2)).map some ∧ es'.map (·.1) = es.map (·.1) := by
    intro es
    induction es with
    | nil =>
      intro es' h
      cases es' with
      | nil => exact ⟨rfl, rfl⟩
      | cons e' es' => cases h
    | cons e es ih =>
      intro es' h
      cases es' with
      | nil => cases h
      | cons e' es' =>
        injection h with h₁ h₂
        obtain ⟨target, ht, rfl⟩ := Option.map_eq_some_iff.mp h₁
        obtain ⟨htargets, hkeys⟩ := ih es' h₂
        simp only [List.map_cons, ht, htargets, hkeys, and_self]
  obtain ⟨htargets, hkeys⟩ := hentry _ _ he
  exact ⟨by simp only [targets, List.map_cons, ho, htargets], hkeys⟩

theorem SwitchTable.mapTargets?_eq_none_iff {f : Int → Option Int} {t : SwitchTable} :
    t.mapTargets? f = none ↔ ∃ target ∈ t.targets, f target = none := by
  have hmap : t.mapTargets? f = (f t.otherwise).bind fun otherwise =>
      (t.entries.mapM fun e => (f e.2).map (e.1, ·)).bind fun entries => some ⟨otherwise, entries⟩ := rfl
  simp only [hmap, targets, List.mem_cons, List.mem_map]
  cases ho : f t.otherwise with
  | none => exact iff_of_true rfl ⟨_, .inl rfl, ho⟩
  | some otherwise =>
    cases he : t.entries.mapM fun e => (f e.2).map (e.1, ·) with
    | none =>
      obtain ⟨e, hmem, h⟩ := List.mapM_eq_none_iff.mp he
      exact iff_of_true rfl ⟨e.2, .inr ⟨e, hmem, rfl⟩, by simpa using h⟩
    | some entries =>
      constructor
      · intro h
        cases h
      · intro h
        obtain ⟨target, hmem, h⟩ := h
        rcases hmem with rfl | ⟨e, hmem, rfl⟩
        · rw [ho] at h
          cases h
        · rw [List.mapM_eq_none_iff.mpr ⟨e, hmem, by simp [h]⟩] at he
          cases he

namespace Instruction

theorem mapTargets?_eq_some {f : Int → Option Int} {i i' : Instruction} (h : i.mapTargets? f = some i') :
    i'.AgreeBesideTargets i ∧ i.targets.map f = i'.targets.map some := by
  unfold mapTargets? at h
  by_cases hb : i.opcode.isBranch = true
  · rw [if_pos hb] at h
    obtain ⟨target, ht, rfl⟩ := Option.map_eq_some_iff.mp h
    refine ⟨⟨rfl, rfl, rfl, fun hb' => ?_, rfl⟩, ?_⟩
    · rw [hb] at hb'
      cases hb'
    · simp only [targets, hb, if_true, List.map_cons, List.map_nil, ht]
  · rw [if_neg hb] at h
    cases hs : i.switch with
    | none =>
      rw [hs] at h
      cases h
      exact ⟨⟨rfl, rfl, rfl, fun _ => rfl, rfl⟩, by simp only [targets, if_neg hb, hs, List.map_nil]⟩
    | some table =>
      rw [hs] at h
      obtain ⟨table', ht, rfl⟩ := Option.map_eq_some_iff.mp h
      obtain ⟨htargets, hkeys⟩ := SwitchTable.mapTargets?_eq_some ht
      refine ⟨⟨rfl, rfl, rfl, fun _ => rfl, ?_⟩, ?_⟩
      · simp only [hs, Option.map_some, hkeys]
      · simp only [targets, if_neg hb, hs, htargets]

theorem mapTargets?_eq_none_iff {f : Int → Option Int} {i : Instruction} :
    i.mapTargets? f = none ↔ ∃ target ∈ i.targets, f target = none := by
  unfold mapTargets? targets
  by_cases hb : i.opcode.isBranch = true
  · simp only [if_pos hb, Option.map_eq_none_iff, List.mem_singleton, exists_eq_left]
  · simp only [if_neg hb]
    cases hs : i.switch with
    | none => simp
    | some table => simp only [Option.map_eq_none_iff, SwitchTable.mapTargets?_eq_none_iff]

end Instruction

/-! ## Constants -/

theorem Opcode.isBranch_of_hasConstant {opcode : Opcode} (h : opcode.hasConstant = true) : opcode.isBranch = false := by
  cases opcode <;> first | rfl | cases h

namespace Instruction

theorem constant?_of_agree {i i' : Instruction} (h : i'.AgreeBesideTargets i) : i'.constant? = i.constant? := by
  unfold constant?
  rw [h.opcode]
  by_cases hconstant : i.opcode.hasConstant = true
  · rw [if_pos hconstant, if_pos hconstant, h.operand (h.opcode ▸ Opcode.isBranch_of_hasConstant hconstant)]
  · rw [if_neg hconstant, if_neg hconstant]

theorem filterMap_constant?_of_mapM {f : Int → Option Int} {raw is : List Instruction}
    (h : raw.mapM (·.mapTargets? f) = some is) : is.filterMap (·.constant?) = raw.filterMap (·.constant?) := by
  induction raw generalizing is with
  | nil =>
    cases h
    rfl
  | cons r raw ih =>
    simp only [List.mapM_cons, Option.bind_eq_bind, Option.bind_eq_some_iff, Option.pure_def, Option.some.injEq] at h
    obtain ⟨i, hi, is, his, rfl⟩ := h
    rw [List.filterMap_cons, List.filterMap_cons, constant?_of_agree (mapTargets?_eq_some hi).1, ih his]

end Instruction

/-- The constants that the instructions in the bytes refer to; none if the bytes do not decode. -/
def bodyConstants (bytes : List UInt8) : List Index :=
  match decodeInstructions bytes with
  | .ok raw => raw.filterMap (·.constant?)
  | .error _ => []

/-! ## Targets as they are kept -/

def OperandFormat.isJump : OperandFormat → Bool
  | .branch | .wideBranch => true
  | _ => false

/-- The opcodes of the table that jump are those whose operand is an offset. -/
theorem Opcode.isBranch_eq_isJump {byte : UInt8} {opcode : Opcode} {format : OperandFormat}
    (h : Opcode.ofByte? byte = some (opcode, format)) : opcode.isBranch = format.isJump := by
  have htable : ∀ e ∈ opcodeTable.toList, e.1.isBranch = e.2.isJump := by decide +kernel
  exact htable _ (Array.mem_toList_iff.mpr (Array.mem_of_getElem? h))

/-- The longest body is far from the limits of 32 bits. -/
theorem clampInt32_of_near {t : Int} (h : -0x80000000 ≤ t ∧ t ≤ 0x7FFFFFFF) : clampInt32 t = t := by
  unfold clampInt32
  omega

namespace Instruction

variable {i : Instruction}

theorem targets_of_branch (h : i.opcode.isBranch = true) : i.targets = [i.operand] := by
  rw [targets, if_pos h]

theorem targets_of_switch (h : i.opcode.isBranch = false) {table : SwitchTable} (hs : i.switch = some table) :
    i.targets = table.targets := by
  rw [targets, if_neg (by simp [h]), hs]

theorem targets_of_neither (h : i.opcode.isBranch = false) (hs : i.switch = none) : i.targets = [] := by
  rw [targets, if_neg (by simp [h]), hs]

end Instruction

/-- An instruction keeps the targets that are written, cut off to 32 bits. -/
theorem Written.targets_instruction {pc : Nat} (hpc : pc ≤ CodeAttribute.maxLength) (w : Written) :
    (w.instruction pc).targets = (w.targets pc).map clampInt32 := by
  obtain ⟨byte, opcode, format, known, o⟩ := w
  have hb := Opcode.isBranch_eq_isJump known
  unfold CodeAttribute.maxLength at hpc
  cases o with
  | branch offset =>
    have hlow := offset.le_toInt
    have hhigh := offset.toInt_lt
    have hclamp : clampInt32 (pc + offset.toInt) = pc + offset.toInt := clampInt32_of_near (by omega)
    rw [Instruction.targets_of_branch hb]
    exact congrArg (fun t => [t]) hclamp.symm
  | wideBranch offset => exact Instruction.targets_of_branch hb
  | tableSwitch padding otherwise low high offsets =>
    rw [Instruction.targets_of_switch hb rfl]
    simp only [SwitchTable.targets, targets, Operands.targets, List.map_cons, List.map_map]
    exact congrArg (Operands.reach pc otherwise :: ·) (List.zipIdx_map_fst 0 (offsets.map (Operands.reach pc)))
  | lookupSwitch padding otherwise count pairs =>
    rw [Instruction.targets_of_switch hb rfl]
    simp only [SwitchTable.targets, targets, Operands.targets, List.map_cons, List.map_map]
    rfl
  | wideSlot modified opcode' known' n =>
    exact Instruction.targets_of_neither (Opcode.isBranch_eq_isJump known') rfl
  | wideIncrement modified opcode' known' index amount =>
    exact Instruction.targets_of_neither (Opcode.isBranch_eq_isJump known') rfl
  | _ => exact Instruction.targets_of_neither hb rfl

/-! ## Positions -/

/-- Laying instructions over a map from bytes to positions: the starts are distinct, so none hides
    another. -/
theorem getElem?_foldl_offsets {is : List Instruction} {n : Nat} {map : Array (Option Nat)}
    (hincreasing : is.Pairwise (·.pc < ·.pc)) (hin : ∀ i ∈ is, i.pc < map.size) {p k : Nat} :
    (((is.zipIdx n).foldl (fun map (i, position) => map.setIfInBounds i.pc (some position)) map)[p]?).join = some k ↔
      (∃ j i, is[j]? = some i ∧ i.pc = p ∧ k = n + j) ∨ ((∀ i ∈ is, i.pc ≠ p) ∧ (map[p]?).join = some k) := by
  induction is generalizing n map with
  | nil => simp
  | cons i is ih =>
    have hi := hin i List.mem_cons_self
    obtain ⟨hlater, hincreasing⟩ := List.pairwise_cons.mp hincreasing
    rw [List.zipIdx_cons, List.foldl_cons, ih hincreasing (by simpa using fun j hj => hin j (List.mem_cons_of_mem i hj))]
    by_cases hp : i.pc = p
    · have hnone : ∀ j ∈ is, j.pc ≠ p := fun j hj => by
        have := hlater j hj
        omega
      constructor
      · intro h
        rcases h with ⟨j, i', hj, hpc, -⟩ | ⟨-, h⟩
        · exact absurd hpc (hnone i' (List.mem_of_getElem? hj))
        · rw [← hp, Array.getElem?_setIfInBounds_self_of_lt hi] at h
          cases h
          exact .inl ⟨0, i, rfl, hp, rfl⟩
      · intro h
        refine .inr ⟨hnone, ?_⟩
        rcases h with ⟨j, i', hj, hpc, hk⟩ | ⟨h, -⟩
        · cases j with
          | zero => rw [← hp, Array.getElem?_setIfInBounds_self_of_lt hi, hk]; rfl
          | succ j => exact absurd hpc (hnone i' (List.mem_of_getElem? hj))
        · exact absurd hp (h i List.mem_cons_self)
    · rw [Array.getElem?_setIfInBounds_ne hp]
      constructor
      · intro h
        rcases h with ⟨j, i', hj, hpc, hk⟩ | ⟨h, hk⟩
        · exact .inl ⟨j + 1, i', hj, hpc, by omega⟩
        · exact .inr ⟨List.forall_mem_cons.mpr ⟨hp, h⟩, hk⟩
      · intro h
        rcases h with ⟨j, i', hj, hpc, hk⟩ | ⟨h, hk⟩
        · cases j with
          | zero =>
            cases hj
            exact absurd hpc hp
          | succ j => exact .inl ⟨j, i', hj, hpc, by omega⟩
        · exact .inr ⟨(List.forall_mem_cons.mp h).2, hk⟩

/-- The map leads from the start of an instruction to its position, and from no other byte. -/
theorem getElem?_offsetMap {is : List Instruction} {length : Nat} (hincreasing : is.Pairwise (·.pc < ·.pc))
    (hin : ∀ i ∈ is, i.pc ≤ length) {p k : Nat} :
    ((offsetMap length is)[p]?).join = some k ↔ ∃ i, is[k]? = some i ∧ i.pc = p := by
  rw [offsetMap, getElem?_foldl_offsets hincreasing (by simpa [Nat.lt_succ_iff] using hin)]
  constructor
  · intro h
    rcases h with ⟨j, i, hj, hpc, rfl⟩ | ⟨-, h⟩
    · exact ⟨i, by simpa using hj, hpc⟩
    · rw [Array.getElem?_replicate] at h
      split at h <;> cases h
  · intro ⟨i, hi, hpc⟩
    exact .inl ⟨k, i, hi, hpc, (Nat.zero_add k).symm⟩

namespace Written

/-- A target before the body, behind it or in the midst of an instruction. -/
def Misses (ws : List Written) (target : Int) : Prop :=
  target < 0 ∨ (start ws ws.length : Int) ≤ target ∨
    ∃ k < ws.length, (start ws k : Int) < target ∧ target < start ws (k + 1)

theorem misses_iff {ws : List Written} {target : Int} :
    Misses ws target ↔ ∀ k < ws.length, (start ws k : Int) ≠ target := by
  constructor
  · intro h k hk hstart
    rcases h with h | h | ⟨j, hj, h⟩
    · omega
    · have := start_lt_start hk (Nat.le_refl _)
      omega
    · rcases Nat.lt_or_ge j k with hjk | hjk
      · have := start_le_start (show j + 1 ≤ k from hjk) (Nat.le_of_lt hk)
        omega
      · have := start_le_start hjk (Nat.le_of_lt hj)
        omega
  · intro h
    by_cases hneg : target < 0
    · exact .inl hneg
    by_cases hend : (start ws ws.length : Int) ≤ target
    · exact .inr (.inl hend)
    obtain ⟨k, hk, hle, hlt⟩ := exists_start_le (show target.toNat < start ws ws.length by omega)
    have hne := h k hk
    exact .inr (.inr ⟨k, hk, by omega, by omega⟩)

variable {ws : List Written} {body : List UInt8}

/-- The starts of the instructions have positions, and so has the end of the body. -/
theorem getElem?_offsetMap_decoded (h : Spell ws body) {p k : Nat} :
    ((offsetMap body.length (decoded ws body))[p]?).join = some k ↔ k ≤ ws.length ∧ start ws k = p := by
  have hin : ∀ i ∈ decoded ws body, i.pc ≤ body.length := by
    intro i hi
    obtain ⟨k, hk⟩ := List.mem_iff_getElem?.mp hi
    obtain ⟨hlt, -⟩ := List.getElem?_eq_some_iff.mp hk
    rw [length_decoded] at hlt
    rw [pc_decoded h hk, ← h.bytes, ← start_length]
    exact start_le_start (by omega) (Nat.le_refl _)
  rw [getElem?_offsetMap (pairwise_pc_decoded h) hin]
  constructor
  · intro ⟨i, hi, hpc⟩
    obtain ⟨hlt, -⟩ := List.getElem?_eq_some_iff.mp hi
    rw [length_decoded] at hlt
    exact ⟨Nat.le_of_lt_succ hlt, (pc_decoded h hi).symm.trans hpc⟩
  · intro ⟨hk, hstart⟩
    have hi := List.getElem?_eq_getElem (l := decoded ws body) (i := k) (by rw [length_decoded]; omega)
    exact ⟨_, hi, (pc_decoded h hi).trans hstart⟩

/-- A jump goes to the instruction that starts at its target, the final one excepted. -/
theorem targetPosition?_eq_some (h : Spell ws body) {target m : Int} :
    targetPosition? body.length (offsetMap body.length (decoded ws body)) target = some m ↔
      ∃ k < ws.length, (start ws k : Int) = target ∧ m = k := by
  have hlen : body.length = start ws ws.length := by rw [start_length, h.bytes]
  unfold targetPosition?
  constructor
  · intro ht
    split at ht
    · rename_i hrange
      obtain ⟨k, hk, rfl⟩ := Option.map_eq_some_iff.mp ht
      obtain ⟨hk, hstart⟩ := (getElem?_offsetMap_decoded h).mp hk
      have hne : k ≠ ws.length := by
        rintro rfl
        omega
      exact ⟨k, by omega, by omega, rfl⟩
    · cases ht
  · intro ⟨k, hk, hstart, hm⟩
    have hlt := start_lt_start hk (Nat.le_refl _)
    have hk' := (getElem?_offsetMap_decoded h).mpr ⟨Nat.le_of_lt hk, rfl⟩
    rw [if_pos (by omega), ← hstart, Int.toNat_natCast, hm, hk']
    rfl

theorem targetPosition?_eq_none_iff (h : Spell ws body) {target : Int} :
    targetPosition? body.length (offsetMap body.length (decoded ws body)) target = none ↔ Misses ws target := by
  rw [misses_iff, Option.eq_none_iff_forall_ne_some]
  constructor
  · intro hnone k hk hstart
    exact hnone k ((targetPosition?_eq_some h).mpr ⟨k, hk, hstart, rfl⟩)
  · intro hmiss m hm
    obtain ⟨k, hk, hstart, -⟩ := (targetPosition?_eq_some h).mp hm
    exact hmiss k hk hstart

end Written

/-- A target that is cut off is beside the body before and after. -/
theorem targetPosition?_clamp {length : Nat} (hlength : length ≤ CodeAttribute.maxLength)
    (offsets : Array (Option Nat)) (target : Int) :
    targetPosition? length offsets (clampInt32 target) = targetPosition? length offsets target := by
  unfold CodeAttribute.maxLength at hlength
  by_cases hrange : 0 ≤ target ∧ target < length
  · rw [clampInt32_of_near (by omega)]
  · have hcut : ¬(0 ≤ clampInt32 target ∧ clampInt32 target < length) := by
      unfold clampInt32
      omega
    rw [targetPosition?, targetPosition?, if_neg hrange, if_neg hcut]

/-! ## The attribute -/

namespace CodeAttribute

variable {T F M : Type} {pool : Pool T F M} {options : Options} {method : String × String} {info : List UInt8}
  {a : CodeAttribute}

theorem length_readBytes {c c' : Cursor} {bytes : List UInt8} (h : readBytes c = .ok bytes c') :
    0 < bytes.length ∧ bytes.length ≤ maxLength := by
  simp only [readBytes, Read.bind_eq_ok, Read.ite_throw_eq_ok, Read.slice_eq_ok] at h
  obtain ⟨length, m, -, hrange, hlen, -⟩ := h
  omega

/-- The bytes of a body are neither none nor too many. -/
theorem length_read (h : Read.run (read pool options method) info = .ok a) :
    0 < a.bytes.length ∧ a.bytes.length ≤ maxLength := by
  obtain ⟨c', h⟩ := Read.run_eq_ok.mp h
  simp only [read, Read.bind_eq_ok, Read.pure_eq_ok] at h
  obtain ⟨_, _, _, _, _, _, bytes, _, hbytes, _, _, _, _, _, _, _, _, _, _, _, _, rfl, _⟩ := h
  exact length_readBytes hbytes

variable {ws : List Written}

/-- The targets of the instructions as positions, if each has one. -/
def retargeted? (a : CodeAttribute) (raw : List Instruction) : Option (List Instruction) :=
  raw.mapM (·.mapTargets? (targetPosition? a.bytes.length (offsetMap a.bytes.length raw)))

/-- The handlers by position, if each has its places. -/
def placed (a : CodeAttribute) (raw : List Instruction) : Except VerifyFault (List ExceptionHandler) :=
  a.handlers.mapM (·.toHandler (offsetMap a.bytes.length raw))

/-- What becomes of a body whose bytes are instructions: a jump spoils it, or a handler makes it invalid,
    or it is decoded. -/
theorem body_cases (hspell : Written.Spell ws a.bytes) :
    (a.retargeted? (Written.decoded ws a.bytes) = none ∧ a.body = .error .badTarget) ∨
      ∃ is, a.retargeted? (Written.decoded ws a.bytes) = some is ∧
        ((∃ fault, a.placed (Written.decoded ws a.bytes) = .error fault ∧
            a.body = .ok (.invalid fault, is.filterMap (·.constant?))) ∨
          ∃ handlers, a.placed (Written.decoded ws a.bytes) = .ok handlers ∧
            a.body = .ok (.decoded ⟨is, handlers⟩, is.filterMap (·.constant?))) := by
  have hraw := decodeInstructions_eq_ok.mpr ⟨ws, hspell, rfl⟩
  unfold retargeted? placed
  cases hmap : (Written.decoded ws a.bytes).mapM
      (·.mapTargets? (targetPosition? a.bytes.length (offsetMap a.bytes.length (Written.decoded ws a.bytes)))) with
  | none => exact .inl ⟨rfl, by simp only [body, hraw, hmap]⟩
  | some is =>
    refine .inr ⟨is, rfl, ?_⟩
    cases hplaced : a.handlers.mapM (·.toHandler (offsetMap a.bytes.length (Written.decoded ws a.bytes))) with
    | error fault => exact .inl ⟨fault, rfl, by simp only [body, hraw, hmap, hplaced]⟩
    | ok handlers => exact .inr ⟨handlers, rfl, by simp only [body, hraw, hmap, hplaced]⟩

/-- Bytes that are no instructions make the body invalid, whatever else is wrong with it. -/
theorem body_of_not_spelled (hnone : ¬∃ ws, Written.Spell ws a.bytes) :
    ∃ fault, decodeInstructions a.bytes = .error fault ∧ a.body = .ok (.invalid fault, []) := by
  cases hraw : decodeInstructions a.bytes with
  | ok raw =>
    obtain ⟨ws, hspell, -⟩ := decodeInstructions_eq_ok.mp hraw
    exact absurd ⟨ws, hspell⟩ hnone
  | error fault => exact ⟨fault, rfl, by rw [body, hraw]⟩

end CodeAttribute

/-! ## Jumps by position -/

/-- The instruction at position `m` starts at the target, and is not the final one. -/
def LeadsTo (is : List Instruction) (target m : Int) : Prop :=
  0 ≤ m ∧ m < is.length - 1 ∧ ∃ i, is[m.toNat]? = some i ∧ (i.pc : Int) = target

/-- The instructions `is` are those of `raw`, with the targets that `ws` writes as positions. -/
structure Retargeted (ws : List Written) (raw is : List Instruction) : Prop where
  length : is.length = raw.length
  pc : ∀ (k : Nat) (i : Instruction), is[k]? = some i → i.pc = Written.start ws k
  beside : ∀ (k : Nat) (i : Instruction), is[k]? = some i → ∃ r, raw[k]? = some r ∧ i.AgreeBesideTargets r
  targets : ∀ (k : Nat) (w : Written) (i : Instruction), ws[k]? = some w → is[k]? = some i →
    List.Forall₂ (LeadsTo is) (w.targets (Written.start ws k)) i.targets
  final : ∀ i, is[ws.length]? = some i → i.targets = []

namespace CodeAttribute

variable {a : CodeAttribute} {ws : List Written} {is : List Instruction}

/-- Mapping the raw instructions treats each by itself. -/
theorem retargeted?_eq_some {raw : List Instruction} (h : a.retargeted? raw = some is) :
    is.length = raw.length ∧ ∀ (k : Nat) (i : Instruction), is[k]? = some i → ∃ r, raw[k]? = some r ∧
      r.mapTargets? (targetPosition? a.bytes.length (offsetMap a.bytes.length raw)) = some i := by
  have hmap := List.mapM_eq_some_iff.mp h
  refine ⟨by simpa using (congrArg List.length hmap).symm, ?_⟩
  intro k i hi
  have hk := congrArg (·[k]?) hmap
  simp only [List.getElem?_map, hi, Option.map_some] at hk
  exact Option.map_eq_some_iff.mp hk

theorem targets_eq (hlength : a.bytes.length ≤ maxLength) (hspell : Written.Spell ws a.bytes) {k : Nat} {w : Written}
    (hw : ws[k]? = some w) :
    (w.instruction (Written.start ws k)).targets = (w.targets (Written.start ws k)).map clampInt32 := by
  obtain ⟨hk, -⟩ := List.getElem?_eq_some_iff.mp hw
  have hstart := Written.start_le_start (Nat.le_of_lt hk) (Nat.le_refl _)
  rw [Written.start_length, hspell.bytes] at hstart
  exact w.targets_instruction (Nat.le_trans hstart hlength)

theorem retargeted_of_eq_some (hlength : a.bytes.length ≤ maxLength) (hspell : Written.Spell ws a.bytes)
    (h : a.retargeted? (Written.decoded ws a.bytes) = some is) :
    Retargeted ws (Written.decoded ws a.bytes) is := by
  obtain ⟨hlen, hmap⟩ := retargeted?_eq_some h
  have hagree : ∀ (k : Nat) (i : Instruction), is[k]? = some i →
      ∃ r, (Written.decoded ws a.bytes)[k]? = some r ∧ i.AgreeBesideTargets r := by
    intro k i hi
    obtain ⟨r, hr, hri⟩ := hmap k i hi
    exact ⟨r, hr, (Instruction.mapTargets?_eq_some hri).1⟩
  have hpc : ∀ (k : Nat) (i : Instruction), is[k]? = some i → i.pc = Written.start ws k := by
    intro k i hi
    obtain ⟨r, hr, hagree⟩ := hagree k i hi
    rw [hagree.pc]
    exact Written.pc_decoded hspell hr
  refine ⟨hlen, hpc, hagree, ?_, ?_⟩
  · intro k w i hw hi
    obtain ⟨r, hr, hri⟩ := hmap k i hi
    rw [Written.getElem?_decoded hw] at hr
    cases hr
    have htargets := (Instruction.mapTargets?_eq_some hri).2
    rw [targets_eq hlength hspell hw, List.map_map] at htargets
    have heach : List.Forall₂ Eq _ _ := List.forall₂_eq_eq_eq ▸ htargets
    rw [List.forall₂_map_left_iff, List.forall₂_map_right_iff] at heach
    refine heach.imp ?_
    intro t m htm
    rw [Function.comp_apply, targetPosition?_clamp hlength, Written.targetPosition?_eq_some hspell] at htm
    obtain ⟨j, hj, hstart, rfl⟩ := htm
    rw [Written.length_decoded] at hlen
    have hjlt : j < is.length := by omega
    refine ⟨by omega, by omega, is[j], List.getElem?_eq_getElem hjlt, ?_⟩
    rw [hpc j _ (List.getElem?_eq_getElem hjlt), hstart]
  · intro i hi
    obtain ⟨r, hr, hri⟩ := hmap _ i hi
    rw [Written.getElem?_decoded_length] at hr
    cases hr
    exact List.map_eq_nil_iff.mp (Instruction.mapTargets?_eq_some hri).2.symm

/-- A single target that is beside the instructions spoils the body. -/
theorem retargeted?_eq_none_iff (hlength : a.bytes.length ≤ maxLength) (hspell : Written.Spell ws a.bytes) :
    a.retargeted? (Written.decoded ws a.bytes) = none ↔
      ∃ (k : Nat) (w : Written) (t : Int),
        ws[k]? = some w ∧ t ∈ w.targets (Written.start ws k) ∧ Written.Misses ws t := by
  simp only [retargeted?, List.mapM_eq_none_iff, Instruction.mapTargets?_eq_none_iff]
  constructor
  · intro ⟨r, hr, t, ht, hnone⟩
    obtain ⟨k, hk⟩ := List.mem_iff_getElem?.mp hr
    obtain ⟨hlt, -⟩ := List.getElem?_eq_some_iff.mp hk
    rw [Written.length_decoded] at hlt
    rcases Nat.lt_succ_iff_lt_or_eq.mp hlt with hlt | rfl
    · have hw := List.getElem?_eq_getElem hlt
      rw [Written.getElem?_decoded hw] at hk
      cases hk
      rw [targets_eq hlength hspell hw] at ht
      obtain ⟨written, hwritten, rfl⟩ := List.mem_map.mp ht
      rw [targetPosition?_clamp hlength, Written.targetPosition?_eq_none_iff hspell] at hnone
      exact ⟨k, _, written, hw, hwritten, hnone⟩
    · rw [Written.getElem?_decoded_length] at hk
      cases hk
      cases ht
  · intro ⟨k, w, t, hw, ht, hmiss⟩
    refine ⟨_, List.mem_of_getElem? (Written.getElem?_decoded hw), clampInt32 t, ?_, ?_⟩
    · rw [targets_eq hlength hspell hw]
      exact List.mem_map_of_mem ht
    · rw [targetPosition?_clamp hlength]
      exact (Written.targetPosition?_eq_none_iff hspell).mpr hmiss

theorem body_eq_decoded {decoded : DecodedBody} {constants : List Index}
    (h : a.body = .ok (.decoded decoded, constants)) :
    ∃ ws, Written.Spell ws a.bytes ∧ a.retargeted? (Written.decoded ws a.bytes) = some decoded.instructions := by
  by_cases hspelled : ∃ ws, Written.Spell ws a.bytes
  · obtain ⟨ws, hspell⟩ := hspelled
    obtain ⟨-, hb⟩ | ⟨is, his, ⟨fault, -, hb⟩ | ⟨handlers, -, hb⟩⟩ := body_cases hspell
    · cases hb.symm.trans h
    · cases hb.symm.trans h
    · cases hb.symm.trans h
      exact ⟨ws, hspell, his⟩
  · obtain ⟨fault, -, hb⟩ := body_of_not_spelled hspelled
    cases hb.symm.trans h

theorem body_eq_badTarget_iff (hspell : Written.Spell ws a.bytes) :
    a.body = .error .badTarget ↔ a.retargeted? (Written.decoded ws a.bytes) = none := by
  obtain ⟨hnone, hb⟩ | ⟨is, his, ⟨fault, -, hb⟩ | ⟨handlers, -, hb⟩⟩ := body_cases hspell
  · exact iff_of_true hb hnone
  · rw [hb, his]
    exact iff_of_false (fun h => nomatch h) fun h => nomatch h
  · rw [hb, his]
    exact iff_of_false (fun h => nomatch h) fun h => nomatch h

/-- The constants that are asked for are those of the instructions in the bytes, even if a handler
    makes the body invalid. -/
theorem constants_body {body : Body} {constants : List Index} (h : a.body = .ok (body, constants)) :
    constants = bodyConstants a.bytes := by
  unfold bodyConstants
  by_cases hspelled : ∃ ws, Written.Spell ws a.bytes
  · obtain ⟨ws, hspell⟩ := hspelled
    rw [decodeInstructions_eq_ok.mpr ⟨ws, hspell, rfl⟩]
    obtain ⟨-, hb⟩ | ⟨is, his, ⟨fault, -, hb⟩ | ⟨handlers, -, hb⟩⟩ := body_cases hspell
    · cases hb.symm.trans h
    · cases hb.symm.trans h
      exact Instruction.filterMap_constant?_of_mapM his
    · cases hb.symm.trans h
      exact Instruction.filterMap_constant?_of_mapM his
  · obtain ⟨fault, hraw, hb⟩ := body_of_not_spelled hspelled
    rw [hraw]
    cases hb.symm.trans h
    rfl

end CodeAttribute

section Decode

variable {T F M : Type} {pool : Pool T F M} {options : Options} {name descriptor : String} {isStatic : Bool}
  {info : List UInt8} {a : CodeAttribute} {slots : List Nat}

/-- A payload that is in order up to its body is refused for a target exactly if the body is. -/
theorem Code.decode_eq_badTarget_iff (ha : Read.run (CodeAttribute.read pool options (name, descriptor)) info = .ok a)
    (hslots : slotsOfArguments descriptor (!isStatic) a.maxLocals = .ok slots) :
    Code.decode pool options name descriptor isStatic info = .error .badTarget ↔ a.body = .error .badTarget := by
  constructor
  · intro h
    simp only [Code.decode, Except.bind_eq_error] at h
    rcases h with h | ⟨a', ha', h | ⟨slots', hslots', h | ⟨result, -, h⟩⟩⟩
    · rw [ha] at h
      cases h
    · cases ha.symm.trans ha'
      rw [hslots] at h
      cases h
    · cases ha.symm.trans ha'
      exact h
    · cases h
  · intro h
    rw [Code.decode, Except.bind_eq_error]
    refine .inr ⟨a, ha, ?_⟩
    rw [Except.bind_eq_error]
    refine .inr ⟨slots, hslots, ?_⟩
    rw [Except.bind_eq_error]
    exact .inl h

theorem Code.decoded?_eq_some_iff {code : Code} {body : DecodedBody} :
    code.decoded? = some body ↔ code.body = .decoded body := by
  unfold Code.decoded?
  cases code.body <;> simp

theorem Code.decode_eq_decoded {code : Code} {constants : List Index} {decoded : DecodedBody}
    (h : Code.decode pool options name descriptor isStatic info = .ok (code, constants))
    (hbody : code.body = .decoded decoded) :
    ∃ a bodyConstants, Read.run (CodeAttribute.read pool options (name, descriptor)) info = .ok a ∧
      a.body = .ok (.decoded decoded, bodyConstants) := by
  simp only [Code.decode, Except.bind_eq_ok, Except.pure_eq_ok] at h
  obtain ⟨a, ha, slots, -, ⟨body, bodyConstants⟩, hb, h⟩ := h
  cases h
  cases hbody
  exact ⟨a, bodyConstants, ha, hb⟩

end Decode

/-- The jumps of a decoded body go by position to where they are written to go, and nothing else of
    its instructions changes. A payload that is in order up to its jumps is refused for them exactly
    if one misses all instructions. -/
theorem decode_targets_exact {T F M : Type} (pool : Pool T F M) (options : Options) (name descriptor : String)
    (isStatic : Bool) (info : List UInt8) :
    (∀ code constants decoded, Code.decode pool options name descriptor isStatic info = .ok (code, constants) →
      code.body = .decoded decoded →
      ∃ a raw, Read.run (CodeAttribute.read pool options (name, descriptor)) info = .ok a ∧
        decodeInstructions a.bytes = .ok raw ∧ (∃ ws, Written.Spell ws a.bytes) ∧
        ∀ ws, Written.Spell ws a.bytes → Retargeted ws raw decoded.instructions) ∧
      ∀ a slots ws, Read.run (CodeAttribute.read pool options (name, descriptor)) info = .ok a →
        slotsOfArguments descriptor (!isStatic) a.maxLocals = .ok slots → Written.Spell ws a.bytes →
        (Code.decode pool options name descriptor isStatic info = .error .badTarget ↔
          ∃ (k : Nat) (w : Written) (t : Int),
            ws[k]? = some w ∧ t ∈ w.targets (Written.start ws k) ∧ Written.Misses ws t) := by
  constructor
  · intro code constants decoded h hbody
    obtain ⟨a, bodyConstants, ha, hb⟩ := Code.decode_eq_decoded h hbody
    obtain ⟨ws, hspell, hmap⟩ := CodeAttribute.body_eq_decoded hb
    have hraw := decodeInstructions_eq_ok.mpr ⟨ws, hspell, rfl⟩
    refine ⟨a, _, ha, hraw, ⟨ws, hspell⟩, ?_⟩
    intro ws' hspell'
    -- Another way to write the body decodes alike.
    have hraw' := decodeInstructions_eq_ok.mpr ⟨ws', hspell', rfl⟩
    rw [Except.ok.inj (hraw.symm.trans hraw')] at hmap ⊢
    exact CodeAttribute.retargeted_of_eq_some (CodeAttribute.length_read ha).2 hspell' hmap
  · intro a slots ws ha hslots hspell
    rw [Code.decode_eq_badTarget_iff ha hslots, CodeAttribute.body_eq_badTarget_iff hspell]
    exact CodeAttribute.retargeted?_eq_none_iff (CodeAttribute.length_read ha).2 hspell

theorem decode_targets_exact_goto :
    ∃ ws raw, Retargeted ws raw
      [{ pc := 0, opcode := .goto, operand := 1 }, { pc := 3, opcode := .returnVoid }, Instruction.final 4] := by
  have h : Code.decode (⟨#[]⟩ : Pool Unit Unit Unit) {} "f" "()V" true
      [0, 0, 0, 0, 0, 0, 0, 4, 0xA7, 0, 3, 0xB1, 0, 0, 0, 0] =
        .ok (⟨0, 0, .decoded ⟨[{ pc := 0, opcode := .goto, operand := 1 }, { pc := 3, opcode := .returnVoid },
          Instruction.final 4], []⟩, [], {}⟩, []) := by decide +kernel
  obtain ⟨a, raw, -, -, ⟨ws, hspell⟩, hretargeted⟩ := (decode_targets_exact _ _ _ _ _ _).1 _ _ _ h rfl
  exact ⟨ws, raw, hretargeted ws hspell⟩

/-- A jump from the second byte as far as four bytes reach is cut off, and refused. -/
example :
    Code.decode (⟨#[]⟩ : Pool Unit Unit Unit) {} "f" "()V" true
      [0, 0, 0, 0, 0, 0, 0, 6, 0x00, 0xC8, 0x7F, 0xFF, 0xFF, 0xFF, 0, 0, 0, 0] = .error .badTarget := by
  decide +kernel

end JvmClass
