/-
  JvmClass.Proofs.Bytecode.Acceptance — which payloads are refused, and which bodies are invalid.

  A payload is refused if it is not written from parts that are acceptable
  (`CodeLayout.IsAcceptable`), or if a jump of its body goes astray (`Written.JumpsAstray`). Bytes
  that are no instructions and handlers that split one (`CodeLayout.CatchesAstray`) only make the
  body invalid. Whether parts are acceptable, and what is kept of them beside the body, does not
  depend on the bytes of the body but on their number.
-/

import JvmClass.Proofs.Bytecode.CodeLayout

namespace JvmClass

/-! ## Places in a body -/

namespace Written

/-- The bytes are instructions, and one jumps to where none of them starts. -/
def JumpsAstray (bytes : List UInt8) : Prop :=
  ∃ ws, Spell ws bytes ∧ ∃ (k : Nat) (w : Written) (t : Int),
    ws[k]? = some w ∧ t ∈ w.targets (start ws k) ∧ ∀ j < ws.length, (start ws j : Int) ≠ t

/-- The bytes are instructions, and byte `pc` is neither the start of one nor the end of all. -/
def Splits (bytes : List UInt8) (pc : Nat) : Prop :=
  ∃ ws, Spell ws bytes ∧ ∀ k ≤ ws.length, start ws k ≠ pc

variable {ws ws' : List Written} {bytes : List UInt8}

/-- Bytes can be cut into instructions in one way only. -/
theorem start_unique (h : Spell ws bytes) (h' : Spell ws' bytes) :
    ws.length = ws'.length ∧ ∀ k, start ws k = start ws' k := by
  have hbytes := split_unique h.fit h'.fit (h.bytes.trans h'.bytes.symm)
  refine ⟨by simpa using congrArg List.length hbytes, fun k => ?_⟩
  simp only [start, List.flatMap_def, List.map_take, hbytes]

theorem splits_iff (h : Spell ws bytes) {pc : Nat} : Splits bytes pc ↔ ∀ k ≤ ws.length, start ws k ≠ pc := by
  constructor
  · rintro ⟨ws', h', hsplits⟩ k hk
    obtain ⟨hlength, hstart⟩ := start_unique h h'
    rw [hstart]
    exact hsplits k (hlength ▸ hk)
  · intro hsplits
    exact ⟨ws, h, hsplits⟩

end Written

theorem HandlerRange.exists_toHandler_eq_ok {offsets : Array (Option Nat)} {r : HandlerRange} :
    (∃ handler, r.toHandler offsets = .ok handler) ↔
      ∀ pc ∈ [r.start, r.stop, r.handler], ∃ k, (offsets[pc.toNat]?).join = some k := by
  simp only [List.forall_mem_cons, List.not_mem_nil, false_implies, implies_true, and_true]
  constructor
  · rintro ⟨handler, h⟩
    simp only [toHandler] at h
    split at h
    · rename_i first stop handler' hstart hstop hhandler
      exact ⟨⟨first, hstart⟩, ⟨stop, hstop⟩, ⟨handler', hhandler⟩⟩
    · cases h
  · rintro ⟨⟨first, hstart⟩, ⟨stop, hstop⟩, ⟨handler, hhandler⟩⟩
    exact ⟨⟨first, stop - 1, handler, r.catchType⟩, by simp only [toHandler, hstart, hstop, hhandler]⟩

namespace CodeAttribute

variable {a : CodeAttribute} {body : Body} {constants : List Index}

/-- Only a jump makes the body a fault of the whole payload. -/
theorem exists_body_eq_error_iff (hlength : a.bytes.length ≤ maxLength) :
    (∃ fault, a.body = .error fault) ↔ Written.JumpsAstray a.bytes := by
  simp only [Written.JumpsAstray, ← Written.misses_iff]
  constructor
  · rintro ⟨fault, h⟩
    by_cases hspelled : ∃ ws, Written.Spell ws a.bytes
    · obtain ⟨ws, hspell⟩ := hspelled
      obtain ⟨hnone, -⟩ | ⟨is, -, ⟨fault', -, hb⟩ | ⟨handlers, -, hb⟩⟩ := body_cases hspell
      · exact ⟨ws, hspell, (retargeted?_eq_none_iff hlength hspell).mp hnone⟩
      · cases hb.symm.trans h
      · cases hb.symm.trans h
    · obtain ⟨fault', -, hb⟩ := body_of_not_spelled hspelled
      cases hb.symm.trans h
  · rintro ⟨ws, hspell, hmisses⟩
    exact ⟨_, (body_eq_badTarget_iff hspell).mpr ((retargeted?_eq_none_iff hlength hspell).mpr hmisses)⟩

theorem exists_placed_eq_ok {ws : List Written} (hspell : Written.Spell ws a.bytes) :
    (∃ handlers, a.placed (Written.decoded ws a.bytes) = .ok handlers) ↔
      ∀ r ∈ a.handlers, ∀ pc ∈ [r.start, r.stop, r.handler], ∃ k ≤ ws.length, Written.start ws k = pc.toNat := by
  simp only [placed, List.exists_mapM_eq_ok_iff, HandlerRange.exists_toHandler_eq_ok,
    Written.getElem?_offsetMap_decoded hspell]

/-- Bytes that are no instructions and handlers that split one are what makes a body invalid. -/
theorem invalid_iff (h : a.body = .ok (body, constants)) : (∃ fault, body = .invalid fault) ↔
    (¬∃ ws, Written.Spell ws a.bytes) ∨
      ∃ r ∈ a.handlers, ∃ pc ∈ [r.start, r.stop, r.handler], Written.Splits a.bytes pc.toNat := by
  by_cases hspelled : ∃ ws, Written.Spell ws a.bytes
  · obtain ⟨ws, hspell⟩ := hspelled
    have hplaced : (∃ handlers, a.placed (Written.decoded ws a.bytes) = .ok handlers) ↔
        ¬∃ r ∈ a.handlers, ∃ pc ∈ [r.start, r.stop, r.handler], Written.Splits a.bytes pc.toNat := by
      simp only [exists_placed_eq_ok hspell, Written.splits_iff hspell]
      push Not
      rfl
    rw [or_iff_right (not_not_intro ⟨ws, hspell⟩)]
    obtain ⟨-, hb⟩ | ⟨is, -, ⟨fault, hfails, hb⟩ | ⟨handlers, hok, hb⟩⟩ := body_cases hspell
    · cases hb.symm.trans h
    · cases hb.symm.trans h
      refine iff_of_true ⟨fault, rfl⟩ (not_not.mp (mt hplaced.mpr ?_))
      rw [hfails]
      exact fun ⟨_, h⟩ => nomatch h
    · cases hb.symm.trans h
      exact iff_of_false (fun ⟨_, h⟩ => nomatch h) (hplaced.mp ⟨handlers, hok⟩)
  · obtain ⟨fault, -, hb⟩ := body_of_not_spelled hspelled
    cases hb.symm.trans h
    exact iff_of_true ⟨fault, rfl⟩ (.inl hspelled)

end CodeAttribute

/-! ## Parts that are acceptable -/

theorem slotsOfArguments_eq_ok {descriptor : String} {receiver : Bool} {maxLocals : UInt16} {slots : List Nat} :
    slotsOfArguments descriptor receiver maxLocals = .ok slots ↔ ∃ d, MethodDescriptor.parse descriptor = .ok d ∧
      d.slots receiver ≤ maxLocals.toNat ∧ slotsFrom 0 (argumentWidths d receiver) = slots := by
  unfold slotsOfArguments
  cases MethodDescriptor.parse descriptor with
  | error e => exact iff_of_false (fun h => nomatch h) fun ⟨_, h, _⟩ => nomatch h
  | ok d =>
    simp only [Except.ok.injEq, exists_eq_left']
    by_cases hroom : maxLocals.toNat < d.slots receiver
    · rw [if_pos hroom]
      exact iff_of_false (fun h => nomatch h) fun h => absurd h.1 (Nat.not_le.mpr hroom)
    · rw [if_neg hroom, Except.ok.injEq]
      exact (and_iff_right (Nat.not_lt.mp hroom)).symm

variable {T F M : Type}

namespace CodeLayout

/-- The parts are in order, and the arguments of the method have room among the local variables. -/
structure IsAcceptable (p : Pool T F M) (options : Options) (descriptor : String) (isStatic : Bool)
    (l : CodeLayout) : Prop extends l.IsLegal p options where
  arguments : ∃ d, MethodDescriptor.parse descriptor = .ok d ∧ d.slots (!isStatic) ≤ l.maxLocals.toNat

/-- The classes that are caught in particular. -/
def catchTypes (l : CodeLayout) : List Index := (l.handlers.map (·.catchType)).filter (· ≠ 0)

/-- A handler's range starts or ends, or the handler starts, neither at an instruction nor at the end. -/
def CatchesAstray (l : CodeLayout) : Prop :=
  ∃ h ∈ l.handlers, ∃ pc ∈ [h.start, h.stop, h.handler], Written.Splits l.bytes pc.toNat

variable {p : Pool T F M} {options : Options} {name descriptor : String} {isStatic : Bool} {l : CodeLayout}
  {a : CodeAttribute}

theorem IsAcceptable.of_bytes (h : l.IsAcceptable p options descriptor isStatic) {bytes : List UInt8}
    (hbytes : bytes.length = l.bytes.length) : { l with bytes }.IsAcceptable p options descriptor isStatic where
  length_pos := hbytes ▸ h.length_pos
  length_le := hbytes ▸ h.length_le
  handlers := hbytes ▸ h.handlers
  attributes := hbytes ▸ h.attributes
  arguments := h.arguments

theorem Yields.of_bytes (h : l.Yields p options a) {bytes : List UInt8} (hbytes : bytes.length = l.bytes.length) :
    { l with bytes }.Yields p options { a with bytes } where
  maxStack := h.maxStack
  maxLocals := h.maxLocals
  bytes := rfl
  handlers := h.handlers
  debug := hbytes ▸ h.debug

theorem Yields.catchTypes_eq (h : l.Yields p options a) : a.handlers.filterMap (·.catchType) = l.catchTypes := by
  rw [h.handlers, catchTypes]
  induction l.handlers with
  | nil => rfl
  | cons entry handlers ih =>
    rw [List.map_cons, List.map_cons, List.filterMap_cons, List.filter_cons, ih]
    by_cases hany : entry.catchType = 0
    · simp [HandlerEntry.range, hany]
    · simp [HandlerEntry.range, hany]

theorem Yields.catchesAstray_iff (h : l.Yields p options a) : l.CatchesAstray ↔
    ∃ r ∈ a.handlers, ∃ pc ∈ [r.start, r.stop, r.handler], Written.Splits a.bytes pc.toNat := by
  simp only [CatchesAstray, h.handlers, h.bytes, List.mem_map, exists_exists_and_eq_and]
  rfl

/-- With parts that are in order only the body is left to be decoded. -/
theorem decode_written (hl : l.IsLegal p options) (ha : l.Yields p options a) {slots : List Nat}
    (hslots : slotsOfArguments descriptor (!isStatic) l.maxLocals = .ok slots) :
    Code.decode p options name descriptor isStatic l.written = a.body.map fun (body, constants) =>
      (⟨l.maxStack, l.maxLocals, body, slots, a.debug⟩, l.catchTypes ++ constants) := by
  have hread : Read.run (CodeAttribute.read p options (name, descriptor)) l.written = .ok a :=
    CodeAttribute.run_read_eq_ok.mpr ⟨l, hl, rfl, ha⟩
  rw [← ha.maxLocals] at hslots
  rw [Code.decode, hread, ← ha.maxStack, ← ha.maxLocals, ← ha.catchTypes_eq]
  show (slotsOfArguments descriptor (!isStatic) a.maxLocals >>= fun slots => a.body >>= fun (body, constants) => _) = _
  rw [hslots]
  cases a.body with
  | error fault => rfl
  | ok result => rfl

/-- A payload that is not refused is written from acceptable parts. -/
theorem exists_acceptable_of_decode {info : List UInt8} {result : Code × List Index}
    (h : Code.decode p options name descriptor isStatic info = .ok result) :
    ∃ l : CodeLayout, l.IsAcceptable p options descriptor isStatic ∧ l.written = info := by
  simp only [Code.decode, Except.bind_eq_ok] at h
  obtain ⟨a, hread, slots, hslots, -⟩ := h
  obtain ⟨l, hlegal, hwritten, hyields⟩ := CodeAttribute.run_read_eq_ok.mp hread
  obtain ⟨d, hparse, hroom, -⟩ := slotsOfArguments_eq_ok.mp hslots
  exact ⟨l, ⟨hlegal, d, hparse, hyields.maxLocals ▸ hroom⟩, hwritten⟩

/-- Acceptable parts have a reading beside the body, whatever its bytes. -/
theorem IsAcceptable.exists_decode (h : l.IsAcceptable p options descriptor isStatic) :
    ∃ a slots, l.Yields p options a ∧ slotsOfArguments descriptor (!isStatic) l.maxLocals = .ok slots := by
  obtain ⟨a, ha⟩ := h.toIsLegal.exists_yields
  obtain ⟨d, hparse, hroom⟩ := h.arguments
  exact ⟨a, _, ha, slotsOfArguments_eq_ok.mpr ⟨d, hparse, hroom, rfl⟩⟩

/-- Of acceptable parts it is the jumps alone that can spoil the payload. -/
theorem IsAcceptable.exists_decode_eq_error_iff (h : l.IsAcceptable p options descriptor isStatic) :
    (∃ fault, Code.decode p options name descriptor isStatic l.written = .error fault) ↔
      Written.JumpsAstray l.bytes := by
  obtain ⟨a, slots, ha, hslots⟩ := h.exists_decode
  simp only [decode_written h.toIsLegal ha hslots, Except.map_eq_error]
  rw [CodeAttribute.exists_body_eq_error_iff (ha.bytes ▸ h.length_le), ha.bytes]

end CodeLayout

/-- Decoding refuses a payload exactly if it is not written from acceptable parts, or a jump of its
    body goes astray. The body of the others is invalid exactly if its bytes are no instructions or a
    handler goes astray. What is kept of the other parts does not depend on the bytes of the body, but
    on their number; of the constants that are asked for just those of the instructions do. -/
theorem decode_failures_exact {T F M : Type} (p : Pool T F M) (options : Options) (name descriptor : String)
    (isStatic : Bool) :
    (∀ info, (∃ fault, Code.decode p options name descriptor isStatic info = .error fault) ↔
      (¬∃ l : CodeLayout, l.IsAcceptable p options descriptor isStatic ∧ l.written = info) ∨
        ∃ l : CodeLayout, l.IsAcceptable p options descriptor isStatic ∧ l.written = info ∧
          Written.JumpsAstray l.bytes) ∧
    ∀ l : CodeLayout, l.IsAcceptable p options descriptor isStatic →
      (∀ code marks, Code.decode p options name descriptor isStatic l.written = .ok (code, marks) →
        ((∃ fault, code.body = .invalid fault) ↔ (¬∃ ws, Written.Spell ws l.bytes) ∨ l.CatchesAstray)) ∧
      ∃ slots debug, ∀ bytes code marks, bytes.length = l.bytes.length →
        Code.decode p options name descriptor isStatic { l with bytes }.written = .ok (code, marks) →
        code = ⟨l.maxStack, l.maxLocals, code.body, slots, debug⟩ ∧ marks = l.catchTypes ++ bodyConstants bytes := by
  refine ⟨fun info => ⟨fun hrefused => ?_, ?_⟩, fun l hl => ⟨fun code marks h => ?_, ?_⟩⟩
  · by_cases hacceptable : ∃ l : CodeLayout, l.IsAcceptable p options descriptor isStatic ∧ l.written = info
    · obtain ⟨l, hl, rfl⟩ := hacceptable
      exact .inr ⟨l, hl, rfl, hl.exists_decode_eq_error_iff.mp hrefused⟩
    · exact .inl hacceptable
  · rintro (hnone | ⟨l, hl, rfl, hastray⟩)
    · rw [Except.exists_eq_error_iff]
      rintro ⟨result, h⟩
      exact hnone (CodeLayout.exists_acceptable_of_decode h)
    · exact hl.exists_decode_eq_error_iff.mpr hastray
  · obtain ⟨a, slots, ha, hslots⟩ := hl.exists_decode
    rw [CodeLayout.decode_written hl.toIsLegal ha hslots, Except.map_eq_ok] at h
    obtain ⟨⟨body, constants⟩, hbody, h⟩ := h
    cases h
    rw [ha.catchesAstray_iff, ← ha.bytes]
    exact CodeAttribute.invalid_iff hbody
  · obtain ⟨a, slots, ha, hslots⟩ := hl.exists_decode
    refine ⟨slots, a.debug, fun bytes code marks hbytes h => ?_⟩
    rw [CodeLayout.decode_written (hl.of_bytes hbytes).toIsLegal (ha.of_bytes hbytes) hslots, Except.map_eq_ok] at h
    obtain ⟨⟨body, constants⟩, hbody, h⟩ := h
    cases h
    exact ⟨rfl, congrArg (l.catchTypes ++ ·) (CodeAttribute.constants_body hbody)⟩

/-- A jump to the return behind it, with a handler in the midst of the jump. -/
def splitLayout : CodeLayout := ⟨0, 0, [0xA7, 0, 3, 0xB1], [⟨0, 3, 1, 0⟩], []⟩

theorem decode_failures_exact_split :
    splitLayout.IsAcceptable (⟨#[]⟩ : Pool Unit Unit Unit) {} "()V" true ∧ ¬Written.JumpsAstray splitLayout.bytes ∧
      splitLayout.CatchesAstray := by
  have hl : splitLayout.IsAcceptable (⟨#[]⟩ : Pool Unit Unit Unit) {} "()V" true :=
    { length_pos := by decide
      length_le := by decide
      handlers := ⟨by decide, List.forall_mem_singleton.mpr ⟨by decide, by decide, by decide, .inl rfl⟩⟩
      attributes := ⟨by decide, List.forall_mem_nil _⟩
      arguments := ⟨⟨[], none⟩, by decide +kernel, by decide⟩ }
  have h : Code.decode (⟨#[]⟩ : Pool Unit Unit Unit) {} "f" "()V" true splitLayout.written =
      .ok (⟨0, 0, .invalid (.badHandler 0 3 1), [], {}⟩, []) := by decide +kernel
  have hraw : decodeInstructions splitLayout.bytes =
      .ok [{ pc := 0, opcode := .goto, operand := 3 }, { pc := 3, opcode := .returnVoid }, Instruction.final 4] := by
    decide +kernel
  obtain ⟨ws, hspell, -⟩ := decodeInstructions_eq_ok.mp hraw
  obtain ⟨hrefused, hparts⟩ := decode_failures_exact (⟨#[]⟩ : Pool Unit Unit Unit) {} "f" "()V" true
  refine ⟨hl, fun hastray => ?_, ?_⟩
  · obtain ⟨fault, hfault⟩ := (hrefused _).mpr (.inr ⟨_, hl, rfl, hastray⟩)
    cases h.symm.trans hfault
  · exact (((hparts _ hl).1 _ _ h).mp ⟨_, rfl⟩).resolve_left (not_not_intro ⟨ws, hspell⟩)

end JvmClass
