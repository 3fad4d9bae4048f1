/-
  JvmClass.Proofs.Trapping.Bytecode — method bodies, position by position.

  Bytes are taken from a payload by their position, instructions are laid over a map from bytes to
  positions, and handlers are looked up in it; a handler ends at the instruction before the one where its
  range stops. What keeps all this from trapping is checked elsewhere: instructions start within the body
  since they are read from it (`pc_le_of_decode`), and handlers are legal when they are read
  (`CodeAttribute.legal_of_read`), so that what stops a range is not the first instruction
  (`toHandler_eq`). The decoder comes to the end of the body, as each instruction takes a byte at least
  (`instructionsInto_eq`).
-/

import JvmClass.Proofs.Bytecode.AssertionRemoval
import JvmClass.Proofs.Bytecode.Targets
import JvmClass.Proofs.Class.Ensuring
import JvmClass.Proofs.Trapping.Basic

namespace JvmClass

/-- What is left is what stands in the payload behind the position. -/
structure Cursor.IsIn (info : List UInt8) (c : Cursor) : Prop where
  position_le : c.position ≤ info.length
  rest : c.rest = info.drop c.position

namespace Trapping

variable {T F M ε α : Type}

/-! ## Payloads -/

/-- The next `n` bytes of the payload; the cursor stays if there are fewer. -/
def readSlice (info : List UInt8) (e : ε) (n : Nat) : Trapping ε Cursor (List UInt8) := ExceptT.mk fun c =>
  let stop := c.position + n
  if info.length < stop then some (.error e, c)
  else (slice info c.position stop).map fun bytes => (.ok bytes, ⟨stop, info.drop stop⟩)

/-- What a payload holds. -/
def runRead (x : Trapping ε Cursor α) (info : List UInt8) : ExceptT ε Option α :=
  ExceptT.mk ((x.run (Cursor.ofBytes info)).map (·.1))

def readBytes (info : List UInt8) : Trapping FormatFault Cursor (List UInt8) := do
  let length ← (Read.word .truncated : FormatRead UInt32)
  if length.toNat = 0 ∨ CodeAttribute.maxLength < length.toNat then throw (.badCodeLength length.toNat)
  readSlice info .truncated length.toNat

def readCode (pool : Pool T F M) (options : Options) (method : String × String) (info : List UInt8) :
    Trapping FormatFault Cursor CodeAttribute := do
  let maxStack ← CodeAttribute.short
  let maxLocals ← CodeAttribute.short
  let bytes ← readBytes info
  let length := bytes.length
  let handlers ← Read.counted .truncated
    (CodeAttribute.readHandler pool length (.badExceptionTable method.1 method.2))
  let debug ← CodeAttribute.readTables pool options length {} (← CodeAttribute.short).toNat
  (Read.expectEnd (.leftoverBytes "Code") : FormatRead Unit)
  return { maxStack, maxLocals, bytes, handlers, debug }

/-! ## Bodies -/

/-- Instructions up to the end, however many there are. -/
def instructionsInto (length : Nat) : List Instruction × Cursor → Option (Except VerifyFault (List Instruction)) :=
  Loop.run fun (acc, c) =>
    if c.isAtEnd then return .inr (.ok acc.reverse)
    else
      match CodeRead.instruction length c with
      | .ok i c' => return .inl (i :: acc, c')
      | .error e _ => return .inr (.error e)

def decodeInstructions (bytes : List UInt8) : ExceptT VerifyFault Option (List Instruction) := do
  let instructions ← ExceptT.mk (instructionsInto bytes.length ([], Cursor.ofBytes bytes))
  return instructions ++ [Instruction.final bytes.length]

def offsetMap (length : Nat) (instructions : List Instruction) : Option (Array (Option Nat)) :=
  instructions.zipIdx.foldlM (fun map (i, position) => setAt map i.pc (some position))
    (Array.replicate (length + 1) none)

/-- What the map says of the start, the stop and the handler of a range; it must have an entry for each. -/
def positions (offsets : Array (Option Nat)) (r : HandlerRange) : Option (Option Nat × Option Nat × Option Nat) := do
  return (← offsets[r.start.toNat]?, ← offsets[r.stop.toNat]?, ← offsets[r.handler.toNat]?)

/-- There must be an instruction before the one where the range stops. -/
def toHandler (offsets : Array (Option Nat)) (r : HandlerRange) : ExceptT VerifyFault Option ExceptionHandler := do
  match ← positions offsets r with
  | (some first, some stop, some handler) => return ⟨first, ← stop.ppred, handler, r.catchType⟩
  | _ => throw (.badHandler r.start.toNat r.stop.toNat r.handler.toNat)

def bodyOf (a : CodeAttribute) : ExceptT FormatFault Option (Body × List Index) := do
  match ← (decodeInstructions a.bytes).run with
  | .error fault => return (.invalid fault, [])
  | .ok raw =>
    let length := a.bytes.length
    let offsets ← offsetMap length raw
    match raw.mapM (·.mapTargets? (targetPosition? length offsets)) with
    | none => throw .badTarget
    | some instructions =>
      let constants := instructions.filterMap (·.constant?)
      match ← (a.handlers.mapM (toHandler offsets)).run with
      | .ok handlers => return (.decoded ⟨instructions, handlers⟩, constants)
      | .error fault => return (.invalid fault, constants)

def decodeCode (pool : Pool T F M) (options : Options) (name descriptor : String) (isStatic : Bool)
    (info : List UInt8) : ExceptT FormatFault Option (Code × List Index) := do
  let a ← runRead (readCode pool options (name, descriptor) info) info
  let argumentSlots ← slotsOfArguments descriptor (!isStatic) a.maxLocals
  let (body, constants) ← bodyOf a
  return (⟨a.maxStack, a.maxLocals, body, argumentSlots, a.debug⟩, a.handlers.filterMap (·.catchType) ++ constants)

/-! ## Assertions -/

section Assertions

variable (pool : Pool T F M)

/-- The instruction at a position has this opcode and operand. -/
def isOfAt (is : List Instruction) (position : Nat) (opcode : Opcode) (operand : Int) : Option Bool := do
  return (← is[position]?).isOf opcode operand

/-- The instructions that ask are looked at by their position, if there are enough. -/
def prologueField (thisClass : String) (is : List Instruction) : Option (Option MemberRef) :=
  if is.length ≤ prologueLength then some none
  else do
    let load ← is[0]?
    if !(load.opcode == .ldc && (load.constant?.map pool.isClass).getD false) then return none
    let call ← is[1]?
    if !((calledMethod? pool call).map isStatusQuery |>.getD false) then return none
    if !((← isOfAt is 2 .ifne 5) && (← isOfAt is 3 .iconst 1) && (← isOfAt is 4 .goto 6) &&
        (← isOfAt is 5 .iconst 0)) then return none
    let store ← is[6]?
    return (storedField? pool store).filter fun field => field.className == thisClass && field.descriptor == "Z"

def removeAssertions (thisClass : String) (isStaticFinal : String → Bool) (body : DecodedBody) :
    Option (Option (MemberRef × DecodedBody)) := do
  match ← prologueField pool thisClass body.instructions with
  | none => return none
  | some field =>
    if !isStaticFinal field.name then return none
    let others ← slice body.instructions prologueLength body.instructions.length
    if others.any (disturbs pool field) || body.handlers.any (·.touchesPrologue) then return none
    let first ← body.instructions[0]?
    let skip : Instruction := { pc := first.pc, opcode := .goto, operand := prologueLength }
    return some (field, { body with instructions := body.instructions.set 0 skip })

end Assertions

/-! ## Reading agrees -/

theorem runRead_eq {info : List UInt8} {J : Cursor → Prop} {x : Trapping ε Cursor α} {y : Read ε α}
    (h : Agrees (Cursor.IsIn info) J x y) : runRead x info = liftM (Read.run y info) := by
  have hrun := h.runs (Cursor.ofBytes info) ⟨Nat.zero_le _, rfl⟩
  unfold runRead
  rw [hrun]
  unfold Read.run EStateM.run
  cases y (Cursor.ofBytes info) <;> rfl

theorem length_rest {info : List UInt8} {c : Cursor} (hc : c.IsIn info) :
    c.rest.length = info.length - c.position := by
  rw [hc.rest, List.length_drop]

theorem isIn_of_takes {info bytes : List UInt8} {c c' : Cursor} (hc : c.IsIn info) (h : c.Takes bytes c') :
    c'.IsIn info := by
  have hrest := h.rest
  rw [hc.rest] at hrest
  have hlength := congrArg List.length hrest
  rw [List.length_drop, List.length_append] at hlength
  have hle := hc.position_le
  refine ⟨by rw [h.position]; omega, ?_⟩
  rw [h.position, ← List.drop_drop, hrest, List.drop_left]

theorem agrees_short {info : List UInt8} :
    Agrees (Cursor.IsIn info) (Cursor.IsIn info) (sure CodeAttribute.short) CodeAttribute.short :=
  .sure fun c n c' hc h => by
    obtain ⟨_, -, ht⟩ := (Read.short_decodes _).eq_ok.mp h
    exact isIn_of_takes hc ht

theorem agrees_word {info : List UInt8} (e : ε) :
    Agrees (Cursor.IsIn info) (Cursor.IsIn info) (sure (Read.word e)) (Read.word e) :=
  .sure fun c n c' hc h => by
    obtain ⟨_, -, ht⟩ := (Read.word_decodes _).eq_ok.mp h
    exact isIn_of_takes hc ht

/-- A cursor whose position goes with what is left takes the bytes that stand there. -/
theorem agrees_readSlice {info : List UInt8} (e : ε) (n : Nat) :
    Agrees (Cursor.IsIn info) (Cursor.IsIn info) (readSlice info e n) (Read.slice e n) := by
  constructor
  · intro c hc
    have hle := hc.position_le
    have hrest := length_rest hc
    have hrun : (readSlice info e n).run c = if info.length < c.position + n then some (.error e, c)
      else (slice info c.position (c.position + n)).map fun bytes =>
        (.ok bytes, ⟨c.position + n, info.drop (c.position + n)⟩) := rfl
    rw [hrun, Read.slice_apply]
    by_cases hend : info.length < c.position + n
    · rw [if_pos hend, if_pos (by omega)]
      rfl
    · rw [if_neg hend, if_neg (by omega), slice_of_le (by omega) (by omega), List.extract_eq_take_drop,
        Nat.add_sub_cancel_left, Cursor.advance, hc.rest, List.drop_drop]
      rfl
  · intro c bytes c' hc h
    exact isIn_of_takes hc (Read.slice_eq_ok.mp h).2

theorem agrees_readBytes (info : List UInt8) :
    Agrees (Cursor.IsIn info) (Cursor.IsIn info) (readBytes info) CodeAttribute.readBytes :=
  (agrees_word _).bind fun _ => .check fun _ => agrees_readSlice _ _

theorem agrees_readCode (pool : Pool T F M) (options : Options) (method : String × String) (info : List UInt8) :
    Agrees (Cursor.IsIn info) (fun _ => True) (readCode pool options method info)
      (CodeAttribute.read pool options method) := by
  refine agrees_short.bind fun maxStack => agrees_short.bind fun maxLocals => ?_
  refine (agrees_readBytes info).bind fun bytes => ?_
  have hrest {β : Type} (y : FormatRead β) : Agrees (Cursor.IsIn info) (fun _ => True) (sure y) y :=
    .sure fun _ _ _ _ _ => trivial
  have hlast {β : Type} (y : FormatRead β) : Agrees (fun _ => True) (fun _ => True) (sure y) y :=
    .sure fun _ _ _ _ _ => trivial
  exact (hrest _).bind fun _ => (hlast _).bind fun _ => (hlast _).bind fun _ => (hlast _).bind fun _ => .pure _

/-! ## Decoding agrees -/

theorem instructionsInto_apply (length : Nat) (acc : List Instruction) (most : Nat) (c : Cursor) :
    CodeRead.instructionsInto length acc (most + 1) c =
      if c.isAtEnd then .ok acc.reverse c
      else
        match CodeRead.instruction length c with
        | .ok i c' => CodeRead.instructionsInto length (i :: acc) most c'
        | .error e c' => .error e c' := by
  have hend : (Read.isAtEnd : CodeRead Bool) c = .ok c.isAtEnd c := rfl
  rw [CodeRead.instructionsInto, Read.bind_apply, hend]
  by_cases hc : c.isAtEnd = true
  · simp only [hc, if_true]
    rfl
  · simp only [hc, Bool.false_eq_true, if_false]
    rw [Read.bind_apply]
    cases CodeRead.instruction length c <;> rfl

/-- The measure is the number of bytes left, of which each instruction takes one at least. -/
theorem instructionsInto_eq {length : Nat} {acc : List Instruction} {most : Nat} {c : Cursor}
    (hmost : c.rest.length ≤ most) :
    instructionsInto length (acc, c) = some (outcome (CodeRead.instructionsInto length acc most c)).1 := by
  induction most generalizing acc c with
  | zero =>
    have hend : c.isAtEnd = true := Cursor.isAtEnd_iff.mpr (List.eq_nil_of_length_eq_zero (by omega))
    exact Loop.run_of_done (if_pos hend)
  | succ most ih =>
    rw [instructionsInto_apply]
    by_cases hend : c.isAtEnd = true
    · rw [if_pos hend]
      exact Loop.run_of_done (if_pos hend)
    · rw [if_neg hend]
      cases hi : CodeRead.instruction length c with
      | ok i c' =>
        obtain ⟨w, -, -, ht⟩ := CodeRead.instruction_eq_ok.mp hi
        have htaken := ht.length_rest
        have hpos := w.length_bytes_pos
        exact (Loop.run_of_next (by simp [hend, hi])).trans (ih (by omega))
      | error e c' => exact Loop.run_of_done (by simp [hend, hi, outcome])

theorem decodeInstructions_eq (bytes : List UInt8) :
    decodeInstructions bytes = liftM (JvmClass.decodeInstructions bytes) := by
  have hall : instructionsInto bytes.length ([], Cursor.ofBytes bytes) =
      some (outcome (CodeRead.instructionsInto bytes.length [] bytes.length (Cursor.ofBytes bytes))).1 :=
    instructionsInto_eq (Nat.le_refl _)
  unfold decodeInstructions JvmClass.decodeInstructions Read.run EStateM.run
  rw [hall]
  cases h : CodeRead.instructionsInto bytes.length [] bytes.length (Cursor.ofBytes bytes) <;>
  · simp only [h]
    rfl

/-! ## Positions agree -/

theorem offsetMap_eq {length : Nat} {instructions : List Instruction} (h : ∀ i ∈ instructions, i.pc ≤ length) :
    offsetMap length instructions = some (JvmClass.offsetMap length instructions) := by
  have hfold (is : List Instruction) (n : Nat) (map : Array (Option Nat)) (his : ∀ i ∈ is, i.pc < map.size) :
      (is.zipIdx n).foldlM (fun map (i, position) => setAt map i.pc (some position)) map =
        some ((is.zipIdx n).foldl (fun map (i, position) => map.setIfInBounds i.pc (some position)) map) := by
    induction is generalizing n map with
    | nil => rfl
    | cons i is ih =>
      rw [List.forall_mem_cons] at his
      rw [List.zipIdx_cons, List.foldlM_cons, List.foldl_cons]
      show (setAt map i.pc (some n)).bind _ = _
      rw [setAt_of_lt his.1]
      exact ih (n + 1) _ (by simpa using his.2)
  exact hfold instructions 0 _ (by simpa [Nat.lt_succ_iff] using h)

theorem size_offsetMap (length : Nat) (instructions : List Instruction) :
    (JvmClass.offsetMap length instructions).size = length + 1 := by
  have hfold (is : List (Instruction × Nat)) (map : Array (Option Nat)) :
      (is.foldl (fun map (i, position) => map.setIfInBounds i.pc (some position)) map).size = map.size := by
    induction is generalizing map with
    | nil => rfl
    | cons i is ih => rw [List.foldl_cons, ih, Array.size_setIfInBounds]
  rw [JvmClass.offsetMap, hfold, Array.size_replicate]

section Decoded

variable {bytes : List UInt8} {is : List Instruction}

theorem pc_le_of_decode (h : JvmClass.decodeInstructions bytes = .ok is) : ∀ i ∈ is, i.pc ≤ bytes.length := by
  obtain ⟨ws, hspell, rfl⟩ := decodeInstructions_eq_ok.mp h
  intro i hi
  obtain ⟨k, hk⟩ := List.mem_iff_getElem?.mp hi
  obtain ⟨hlt, -⟩ := List.getElem?_eq_some_iff.mp hk
  rw [Written.length_decoded] at hlt
  rw [Written.pc_decoded hspell hk, ← hspell.bytes, ← Written.start_length]
  exact Written.start_le_start (by omega) (Nat.le_refl _)

/-- Only the first instruction starts at the first byte, so what starts behind it has one before it. -/
theorem position_pos (h : JvmClass.decodeInstructions bytes = .ok is) {pc position : Nat} (hpc : 0 < pc)
    (hposition : ((JvmClass.offsetMap bytes.length is)[pc]?).join = some position) : 0 < position := by
  obtain ⟨ws, hspell, hdecoded⟩ := decodeInstructions_eq_ok.mp h
  subst hdecoded
  obtain ⟨i, hi, hstart⟩ := (getElem?_offsetMap (Written.pairwise_pc_decoded hspell) (pc_le_of_decode h)).mp hposition
  rw [Written.pc_decoded hspell hi] at hstart
  refine Nat.pos_of_ne_zero fun hzero => ?_
  rw [hzero, Written.start_zero] at hstart
  omega

theorem toHandler_eq (h : JvmClass.decodeInstructions bytes = .ok is) {pool : Pool T F M} {r : HandlerRange}
    (hr : r.IsLegal pool bytes.length) :
    toHandler (JvmClass.offsetMap bytes.length is) r = liftM (r.toHandler (JvmClass.offsetMap bytes.length is)) := by
  have hstart := hr.start_lt
  have hstop := hr.stop_le
  have hhandler := hr.handler_lt
  have hget (pc : UInt16) (hpc : pc.toNat ≤ bytes.length) :
      ∃ o, (JvmClass.offsetMap bytes.length is)[pc.toNat]? = some o :=
    ⟨_, Array.getElem?_eq_getElem (by rw [size_offsetMap]; omega)⟩
  obtain ⟨first, hfirst⟩ := hget r.start (by omega)
  obtain ⟨stop, hlast⟩ := hget r.stop hstop
  obtain ⟨handler, hposition⟩ := hget r.handler (Nat.le_of_lt hhandler)
  unfold toHandler positions HandlerRange.toHandler
  simp only [hfirst, hlast, hposition, Option.join_some]
  cases first <;> cases stop <;> cases handler <;> try rfl
  rename_i first stop handler
  have hpos : 0 < stop := position_pos h (Nat.zero_lt_of_lt hstart) (by rw [hlast]; rfl)
  obtain ⟨last, rfl⟩ := Nat.exists_eq_succ_of_ne_zero (Nat.ne_of_gt hpos)
  rfl

end Decoded

theorem bodyOf_eq {pool : Pool T F M} {a : CodeAttribute} (h : ∀ r ∈ a.handlers, r.IsLegal pool a.bytes.length) :
    bodyOf a = liftM a.body := by
  unfold bodyOf CodeAttribute.body
  rw [decodeInstructions_eq, run_liftM, liftM_some, pure_bind]
  cases hraw : JvmClass.decodeInstructions a.bytes with
  | error fault => rfl
  | ok raw =>
    have hhandlers := mapM_eq_liftM fun r hr => toHandler_eq hraw (h r hr)
    simp only [offsetMap_eq (pc_le_of_decode hraw), liftM_some, pure_bind]
    cases raw.mapM (·.mapTargets? (targetPosition? a.bytes.length (JvmClass.offsetMap a.bytes.length raw))) with
    | none => rfl
    | some instructions =>
      simp only [hhandlers, run_liftM, liftM_some, pure_bind]
      cases a.handlers.mapM (·.toHandler (JvmClass.offsetMap a.bytes.length raw)) <;> rfl

theorem decodeCode_eq (pool : Pool T F M) (options : Options) (name descriptor : String) (isStatic : Bool)
    (info : List UInt8) :
    decodeCode pool options name descriptor isStatic info =
      liftM (Code.decode pool options name descriptor isStatic info) := by
  unfold decodeCode Code.decode
  rw [runRead_eq (agrees_readCode pool options (name, descriptor) info)]
  refine bind_eq_liftM fun a ha => bind_eq_liftM fun argumentSlots _ => ?_
  rw [bodyOf_eq (CodeAttribute.legal_of_read ha)]
  exact bind_eq_liftM fun _ _ => rfl

/-! ## Assertions agree -/

section Assertions

variable (pool : Pool T F M)

/-- The prologue ends before the last instruction, so all of it is there to look at. -/
theorem prologueField_eq (thisClass : String) (is : List Instruction) :
    prologueField pool thisClass is = some (prologueField? pool thisClass is) := by
  unfold prologueField
  by_cases hshort : is.length ≤ prologueLength
  · rw [if_pos hshort, prologueField?.eq_2]
    intro i₀ i₁ i₂ i₃ i₄ i₅ i₆ i₇ rest his
    rw [his] at hshort
    exact absurd hshort (by simp [prologueLength])
  · rw [if_neg hshort]
    match is, hshort with
    | load :: call :: i₂ :: i₃ :: i₄ :: i₅ :: store :: i₇ :: rest, _ =>
      unfold prologueField? isOfAt
      simp only [List.getElem?_cons_zero, List.getElem?_cons_succ, Option.bind_eq_bind, Option.bind_some,
        Option.pure_def]
      generalize (load.opcode == .ldc && (load.constant?.map pool.isClass).getD false) = loads
      generalize ((calledMethod? pool call).map isStatusQuery).getD false = asks
      generalize (i₂.isOf .ifne 5 && i₃.isOf .iconst 1 && i₄.isOf .goto 6 && i₅.isOf .iconst 0) = chooses
      cases loads <;> cases asks <;> cases chooses <;> try rfl
      cases storedField? pool store with
      | none => rfl
      | some field =>
        simp only [Option.filter_some, Option.bind_some]
        generalize (field.className == thisClass && field.descriptor == "Z") = isOwn
        cases isOwn <;> rfl
    | [], h | [_], h | [_, _], h | [_, _, _], h | [_, _, _, _], h | [_, _, _, _, _], h | [_, _, _, _, _, _], h
    | [_, _, _, _, _, _, _], h => exact absurd (by simp [prologueLength]) h

theorem removeAssertions_eq (thisClass : String) (isStaticFinal : String → Bool) (body : DecodedBody) :
    removeAssertions pool thisClass isStaticFinal body =
      some (JvmClass.removeAssertions pool thisClass isStaticFinal body) := by
  unfold removeAssertions JvmClass.removeAssertions
  rw [prologueField_eq]
  cases hfield : prologueField? pool thisClass body.instructions with
  | none => rfl
  | some field =>
    obtain ⟨load, call, i₂, i₃, i₄, i₅, store, rest, m, his, -⟩ := prologueField?_eq_some hfield
    have hslice : slice body.instructions prologueLength body.instructions.length =
        some (body.instructions.drop prologueLength) := slice_length (by simp [his, prologueLength])
    have hfirst : body.instructions[0]? = some load := by rw [his]; rfl
    have hset (i : Instruction) : body.instructions.set 0 i = i :: body.instructions.tail := by rw [his]; rfl
    have hskip : skipPrologue body.instructions =
        { pc := load.pc, opcode := .goto, operand := prologueLength } :: body.instructions.tail := by rw [his]; rfl
    simp only [hslice, hfirst, hset, hskip, Option.bind_eq_bind, Option.bind_some, Option.pure_def]
    generalize isStaticFinal field.name = isOwn
    generalize (body.instructions.drop prologueLength).any (disturbs pool field) = isDisturbed
    generalize body.handlers.any (·.touchesPrologue) = isTouched
    cases isOwn <;> cases isDisturbed <;> cases isTouched <;> rfl

end Assertions

end Trapping

end JvmClass
