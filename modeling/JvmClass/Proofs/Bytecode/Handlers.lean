/-
  JvmClass.Proofs.Bytecode.Handlers — handlers cover the instructions that they are written to cover.

  An exception handler is written as a range of bytes that ends before its stop, and kept as the positions
  of the first and of the last instruction in it. A stop at the end of the body is where the final
  instruction is, so the last instruction covered is always the one before the instruction at the stop.
  Starts increase with positions (`Written.start_lt_start_iff`), and so an instruction lies between the two
  positions exactly if it starts in the range (`ExceptionHandler.standsFor_of_toHandler`).
-/

import JvmClass.Proofs.Bytecode.CodeLayout
import JvmClass.Proofs.Trapping.Bytecode

namespace JvmClass

variable {T F M : Type}

theorem Written.start_lt_start_iff {ws : List Written} {j k : Nat} (hj : j ≤ ws.length) (hk : k ≤ ws.length) :
    start ws j < start ws k ↔ j < k := by
  refine ⟨fun h => ?_, fun h => start_lt_start h hk⟩
  by_contra hle
  exact absurd (start_le_start (Nat.le_of_not_lt hle) hj) (Nat.not_le.mpr h)

/-! ## One handler -/

/-- Among the instructions `is`, of which the last is the final one, the handler is at the instruction that
    the entry names, and covers just those that start in the entry's range. -/
structure ExceptionHandler.StandsFor (is : List Instruction) (e : HandlerEntry) (h : ExceptionHandler) : Prop where
  catchType : h.catchType = if e.catchType = 0 then none else some e.catchType
  first_le_last : h.first ≤ h.last
  last_lt : h.last < is.length - 1
  handler_lt : h.handler < is.length - 1
  handler_pc : ∃ i, is[h.handler]? = some i ∧ i.pc = e.handler.toNat
  covers : ∀ k, h.first ≤ k ∧ k ≤ h.last ↔
    k < is.length - 1 ∧ ∃ i, is[k]? = some i ∧ e.start.toNat ≤ i.pc ∧ i.pc < e.stop.toNat

theorem HandlerRange.toHandler_eq_ok {offsets : Array (Option Nat)} {r : HandlerRange} {h : ExceptionHandler} :
    r.toHandler offsets = .ok h ↔ ∃ stop, (offsets[r.start.toNat]?).join = some h.first ∧
      (offsets[r.stop.toNat]?).join = some stop ∧ (offsets[r.handler.toNat]?).join = some h.handler ∧
      h.last = stop - 1 ∧ h.catchType = r.catchType := by
  obtain ⟨first, last, handler, catchType⟩ := h
  simp only [toHandler]
  constructor
  · intro hr
    split at hr
    · rename_i first stop handler hstart hstop hhandler
      cases hr
      exact ⟨stop, hstart, hstop, hhandler, rfl, rfl⟩
    · cases hr
  · rintro ⟨stop, hstart, hstop, hhandler, rfl, rfl⟩
    simp only [hstart, hstop, hhandler]

/-- A range that is not empty and ends with the body at the latest begins and ends at real instructions. -/
theorem ExceptionHandler.standsFor_of_toHandler {p : Pool T F M} {ws : List Written} {body : List UInt8}
    (hspell : Written.Spell ws body) {is : List Instruction} (his : Retargeted ws (Written.decoded ws body) is)
    {e : HandlerEntry} (he : e.IsLegal p body.length) {h : ExceptionHandler}
    (hplaced : e.range.toHandler (offsetMap body.length (Written.decoded ws body)) = .ok h) :
    h.StandsFor is e := by
  simp only [HandlerRange.toHandler_eq_ok, Written.getElem?_offsetMap_decoded hspell, HandlerEntry.range] at hplaced
  obtain ⟨stop, ⟨hfirst, hstart⟩, ⟨hstop, hend⟩, ⟨hhandler, hpc⟩, hlast, hcatch⟩ := hplaced
  have hlength : is.length = ws.length + 1 := his.length.trans Written.length_decoded
  have hbody : Written.start ws ws.length = body.length := by rw [Written.start_length, hspell.bytes]
  have hget {k : Nat} (hk : k < ws.length) : ∃ i, is[k]? = some i ∧ i.pc = Written.start ws k := by
    have hi := List.getElem?_eq_getElem (l := is) (i := k) (by omega)
    exact ⟨_, hi, his.pc k _ hi⟩
  have hnonempty : h.first < stop := by
    rw [← Written.start_lt_start_iff hfirst hstop, hstart, hend]
    exact he.start_lt
  have hreal : h.handler < ws.length := by
    rw [← Written.start_lt_start_iff hhandler (Nat.le_refl _), hpc, hbody]
    exact he.handler_lt
  refine ⟨hcatch, by omega, by omega, by omega, ?_, fun k => ?_⟩
  · obtain ⟨i, hi, hipc⟩ := hget hreal
    exact ⟨i, hi, hipc.trans hpc⟩
  · rw [hlength, Nat.add_sub_cancel]
    constructor
    · rintro ⟨hle, hle'⟩
      have hk : k < ws.length := by omega
      obtain ⟨i, hi, hipc⟩ := hget hk
      refine ⟨hk, i, hi, ?_, ?_⟩
      · rw [hipc, ← hstart]
        exact Written.start_le_start hle (Nat.le_of_lt hk)
      · rw [hipc, ← hend]
        exact Written.start_lt_start (by omega) hstop
    · rintro ⟨hk, i, hi, hle, hlt⟩
      rw [his.pc k i hi, ← hend, Written.start_lt_start_iff (Nat.le_of_lt hk) hstop] at hlt
      rw [his.pc k i hi, ← hstart] at hle
      have hfrom := mt (Written.start_lt_start_iff (Nat.le_of_lt hk) hfirst).mpr (Nat.not_lt.mpr hle)
      exact ⟨Nat.le_of_not_lt hfrom, by omega⟩

/-! ## All handlers -/

namespace CodeAttribute

variable {a : CodeAttribute} {ws : List Written}

/-- The handlers of a decoded body are those of the attribute by position. -/
theorem placed_of_body (hspell : Written.Spell ws a.bytes) {decoded : DecodedBody} {constants : List Index}
    (h : a.body = .ok (.decoded decoded, constants)) :
    a.placed (Written.decoded ws a.bytes) = .ok decoded.handlers := by
  obtain ⟨-, hb⟩ | ⟨is, -, ⟨fault, -, hb⟩ | ⟨handlers, hplaced, hb⟩⟩ := body_cases hspell
  · cases hb.symm.trans h
  · cases hb.symm.trans h
  · cases hb.symm.trans h
    exact hplaced

end CodeAttribute

namespace CodeLayout

variable {p : Pool T F M} {options : Options} {l : CodeLayout} {a : CodeAttribute}

/-- One handler for each entry, in the order of the entries. -/
theorem IsLegal.standsFor_of_body (hl : l.IsLegal p options) (ha : l.Yields p options a) {decoded : DecodedBody}
    {constants : List Index} (h : a.body = .ok (.decoded decoded, constants)) :
    List.Forall₂ (ExceptionHandler.StandsFor decoded.instructions) l.handlers decoded.handlers := by
  obtain ⟨ws, hspell, hmap⟩ := CodeAttribute.body_eq_decoded h
  have hlength : a.bytes.length ≤ CodeAttribute.maxLength := ha.bytes ▸ hl.length_le
  have his := CodeAttribute.retargeted_of_eq_some hlength hspell hmap
  have hplaced := List.mapM_eq_ok_iff.mp (CodeAttribute.placed_of_body hspell h)
  rw [ha.handlers, List.map_map] at hplaced
  have heach : List.Forall₂ Eq _ _ := List.forall₂_eq_eq_eq ▸ hplaced
  rw [List.forall₂_map_left_iff, List.forall₂_map_right_iff] at heach
  refine ((List.forall₂_and_left _ _).mpr ⟨hl.handlers.2, heach⟩).imp ?_
  rintro e handler ⟨he, hhandler⟩
  exact ExceptionHandler.standsFor_of_toHandler hspell his (ha.bytes ▸ he) hhandler

/-- Every entry is looked up within the map, and no instruction is the first at a stop. -/
theorem IsLegal.lookups_in_range (hl : l.IsLegal p options) {raw : List Instruction}
    (hraw : decodeInstructions l.bytes = .ok raw) {e : HandlerEntry} (he : e ∈ l.handlers) :
    (∀ pc ∈ [e.start, e.stop, e.handler], pc.toNat < (offsetMap l.bytes.length raw).size) ∧
      ((offsetMap l.bytes.length raw)[e.stop.toNat]?).join ≠ some 0 := by
  have hlegal := hl.handlers.2 e he
  have hstart := hlegal.start_lt
  have hstop := hlegal.stop_le
  have hhandler := hlegal.handler_lt
  constructor
  · simp only [List.forall_mem_cons, List.not_mem_nil, false_implies, implies_true, and_true,
      Trapping.size_offsetMap]
    omega
  · intro hzero
    exact absurd (Trapping.position_pos hraw (Nat.zero_lt_of_lt hstart) hzero) (Nat.lt_irrefl 0)

end CodeLayout

/-- However a payload is made up, if its body decodes there is one handler for each entry, in order, and it
    covers the instructions that start in the entry's range. To find this out no lookup goes beyond the
    map, and none finds the first instruction at a stop, whether the handlers have their places or not. -/
theorem handlers_cover_their_ranges (p : Pool T F M) (options : Options) (name descriptor : String)
    (isStatic : Bool) (info : List UInt8) :
    (∀ l : CodeLayout, l.IsLegal p options → l.written = info → ∀ raw, decodeInstructions l.bytes = .ok raw →
      ∀ e ∈ l.handlers, (∀ pc ∈ [e.start, e.stop, e.handler], pc.toNat < (offsetMap l.bytes.length raw).size) ∧
        ((offsetMap l.bytes.length raw)[e.stop.toNat]?).join ≠ some 0) ∧
    ∀ code marks decoded, Code.decode p options name descriptor isStatic info = .ok (code, marks) →
      code.body = .decoded decoded →
      (∃ l : CodeLayout, l.IsLegal p options ∧ l.written = info) ∧
        ∀ l : CodeLayout, l.IsLegal p options → l.written = info →
          List.Forall₂ (ExceptionHandler.StandsFor decoded.instructions) l.handlers decoded.handlers := by
  refine ⟨fun l hl _ raw hraw e he => hl.lookups_in_range hraw he, fun code marks decoded h hbody => ?_⟩
  obtain ⟨a, constants, hread, hdecoded⟩ := Code.decode_eq_decoded h hbody
  obtain ⟨l, hl, hwritten, -⟩ := CodeAttribute.run_read_eq_ok.mp hread
  refine ⟨⟨l, hl, hwritten⟩, fun l' hl' hwritten' => ?_⟩
  obtain ⟨a', ha'⟩ := hl'.exists_yields
  have hread' : Read.run (CodeAttribute.read p options (name, descriptor)) info = .ok a' :=
    CodeAttribute.run_read_eq_ok.mpr ⟨l', hl', hwritten', ha'⟩
  obtain rfl : a' = a := Except.ok.inj (hread'.symm.trans hread)
  exact hl'.standsFor_of_body ha' hdecoded

/-- A push with its value, a removal and a return, of which all from the push on is covered up to the end, and
    the return is what handles it. -/
def coveredLayout : CodeLayout := ⟨1, 0, [0x00, 0x10, 5, 0x57, 0xB1], [⟨1, 5, 4, 0⟩], []⟩

theorem handlers_cover_their_ranges_to_end :
    ∃ code marks decoded, Code.decode (⟨#[]⟩ : Pool Unit Unit Unit) {} "f" "()V" true coveredLayout.written =
        .ok (code, marks) ∧ code.body = .decoded decoded ∧
      coveredLayout.IsLegal (⟨#[]⟩ : Pool Unit Unit Unit) {} ∧ decoded.handlers = [⟨1, 3, 3, none⟩] ∧
      List.Forall₂ (ExceptionHandler.StandsFor decoded.instructions) coveredLayout.handlers decoded.handlers := by
  have hl : coveredLayout.IsLegal (⟨#[]⟩ : Pool Unit Unit Unit) {} :=
    { length_pos := by decide
      length_le := by decide
      handlers := ⟨by decide, List.forall_mem_singleton.mpr ⟨by decide, by decide, by decide, .inl rfl⟩⟩
      attributes := ⟨by decide, List.forall_mem_nil _⟩ }
  have h : Code.decode (⟨#[]⟩ : Pool Unit Unit Unit) {} "f" "()V" true coveredLayout.written =
      .ok (⟨1, 0, .decoded ⟨[{ pc := 0, opcode := .nop }, { pc := 1, opcode := .iconst, operand := 5 },
        { pc := 3, opcode := .pop }, { pc := 4, opcode := .returnVoid }, Instruction.final 5],
        [⟨1, 3, 3, none⟩]⟩, [], {}⟩, []) := by decide +kernel
  obtain ⟨-, hdecoded⟩ := handlers_cover_their_ranges (⟨#[]⟩ : Pool Unit Unit Unit) {} "f" "()V" true
    coveredLayout.written
  obtain ⟨-, hall⟩ := hdecoded _ _ _ h rfl
  exact ⟨_, _, _, h, rfl, hl, rfl, hall coveredLayout hl rfl⟩

end JvmClass
