/-
  JvmClass.Proofs.Bytecode.Question — which bodies ask for assertions.

  The question is seven instructions with certain operands (`DecodedBody.Asks`). It is taken out of a
  body if it stands apart: the rest of the body neither comes back into it nor stores to the field that
  the answer goes to (`DecodedBody.AsksApart`). That is all that is checked of a decoded body
  (`removeAssertions_eq_some_iff`); that something follows the question needs no check, as the
  instruction that stands for the end does.
-/

import JvmClass.Proofs.Bytecode.Closed

namespace JvmClass

variable {T F M : Type}

/-- The instruction at the position has this opcode and operand. -/
def DecodedBody.Has (body : DecodedBody) (p : Nat) (opcode : Opcode) (operand : Int) : Prop :=
  ∃ i, body.instructions[p]? = some i ∧ i.opcode = opcode ∧ i.operand = operand

/-- The body begins by asking for the assertions of a class and stores the answer to a field of this
    class. -/
structure DecodedBody.Asks (pool : Pool T F M) (thisClass : String) (field : MemberRef) (body : DecodedBody) :
    Prop where
  load : ∃ i slot, body.instructions[0]? = some i ∧ i.opcode = .ldc ∧ i.constant? = some slot ∧
    pool.isClass slot = true
  ask : ∃ i m, body.instructions[1]? = some i ∧ calledMethod? pool i = some m ∧ m.className = "java.lang.Class" ∧
    m.name = "desiredAssertionStatus" ∧ m.descriptor = "()Z"
  test : body.Has 2 .ifne 5
  yes : body.Has 3 .iconst 1
  skip : body.Has 4 .goto 6
  no : body.Has 5 .iconst 0
  store : ∃ i, body.instructions[6]? = some i ∧ storedField? pool i = some field
  own : field.className = thisClass
  truth : field.descriptor = "Z"

/-- The body asks, and nothing behind the question leads into it, is caught in it, covers it or stores
    to the field. -/
structure DecodedBody.AsksApart (pool : Pool T F M) (thisClass : String) (field : MemberRef) (body : DecodedBody) :
    Prop where
  asks : body.Asks pool thisClass field
  targets : ∀ (p : Nat) (i : Instruction), 7 ≤ p → body.instructions[p]? = some i → ∀ t ∈ i.targets, ¬(1 ≤ t ∧ t ≤ 6)
  stores : ∀ (p : Nat) (i : Instruction), 7 ≤ p → body.instructions[p]? = some i → ∀ m, storedField? pool i = some m →
    ¬(m.className = field.className ∧ m.name = field.name ∧ m.descriptor = field.descriptor)
  handlers : ∀ h ∈ body.handlers, 7 ≤ h.first ∧ ¬(1 ≤ h.handler ∧ h.handler ≤ 6)

/-! ## What is checked -/

theorem getD_map_eq_true_iff {α : Type} {o : Option α} {f : α → Bool} :
    (o.map f).getD false = true ↔ ∃ a, o = some a ∧ f a = true := by
  cases o <;> simp

theorem forall_mem_drop_iff {α : Type} {l : List α} {n : Nat} {P : α → Prop} :
    (∀ a ∈ l.drop n, P a) ↔ ∀ (p : Nat) (a : α), n ≤ p → l[p]? = some a → P a := by
  constructor
  · intro h p a hp ha
    rw [← Nat.add_sub_cancel' hp, ← List.getElem?_drop] at ha
    exact h a (List.mem_of_getElem? ha)
  · intro h a ha
    obtain ⟨p, hp⟩ := List.mem_iff_getElem?.mp ha
    rw [List.getElem?_drop] at hp
    exact h (n + p) a (Nat.le_add_right n p) hp

section Checks

variable {pool : Pool T F M} {thisClass : String} {field : MemberRef} {body rewritten : DecodedBody}

theorem isInPrologue_iff {t : Int} : isInPrologue t = true ↔ 1 ≤ t ∧ t ≤ 6 := by
  simp only [isInPrologue, Bool.and_eq_true, decide_eq_true_eq]
  unfold prologueLength
  omega

theorem isStatusQuery_iff {m : MemberRef} : isStatusQuery m = true ↔
    m.className = "java.lang.Class" ∧ m.name = "desiredAssertionStatus" ∧ m.descriptor = "()Z" := by
  simp [isStatusQuery, classClassName, and_assoc]

theorem isSameMember_iff {m : MemberRef} : field.isSameMember m = true ↔
    m.className = field.className ∧ m.name = field.name ∧ m.descriptor = field.descriptor := by
  simp only [MemberRef.isSameMember, Bool.and_eq_true, beq_iff_eq, and_assoc, @eq_comm _ m.className,
    @eq_comm _ m.name, @eq_comm _ m.descriptor]

theorem disturbs_eq_false_iff {i : Instruction} : disturbs pool field i = false ↔
    (∀ t ∈ i.targets, ¬(1 ≤ t ∧ t ≤ 6)) ∧ ∀ m, storedField? pool i = some m →
      ¬(m.className = field.className ∧ m.name = field.name ∧ m.descriptor = field.descriptor) := by
  simp only [← isInPrologue_iff, ← isSameMember_iff, ← Bool.not_eq_true, disturbs, Bool.or_eq_true, List.any_eq_true,
    getD_map_eq_true_iff, not_or, not_exists, not_and]

theorem touchesPrologue_eq_false_iff {h : ExceptionHandler} :
    h.touchesPrologue = false ↔ 7 ≤ h.first ∧ ¬(1 ≤ h.handler ∧ h.handler ≤ 6) := by
  simp only [← Bool.not_eq_true, ExceptionHandler.touchesPrologue, Bool.or_eq_true, decide_eq_true_eq, isInPrologue_iff,
    not_or, Nat.not_lt]
  unfold prologueLength
  omega

/-- In a body that is long enough the question is found exactly if it is there. -/
theorem prologueField?_eq_some_iff (hlong : prologueLength < body.instructions.length) :
    prologueField? pool thisClass body.instructions = some field ↔ body.Asks pool thisClass field := by
  obtain ⟨is, handlers⟩ := body
  obtain ⟨load, call, i₂, i₃, i₄, i₅, store, next, rest, rfl⟩ :
      ∃ load call i₂ i₃ i₄ i₅ store next rest, is = load :: call :: i₂ :: i₃ :: i₄ :: i₅ :: store :: next :: rest := by
    unfold prologueLength at hlong
    match is, hlong with
    | _ :: _ :: _ :: _ :: _ :: _ :: _ :: _ :: _, _ => exact ⟨_, _, _, _, _, _, _, _, _, rfl⟩
  simp only [prologueField?, Option.bind_eq_bind, Option.bind_eq_some_iff, Option.pure_def, Option.some.injEq,
    Option.guard_eq_some', Bool.and_eq_true, beq_iff_eq, Instruction.isOf_iff, getD_map_eq_true_iff, isStatusQuery_iff]
  constructor
  · rintro ⟨_, ⟨hload, slot, hslot, hclass⟩, _, ⟨m, hm, hquery⟩, _, ⟨⟨⟨h₂, h₃⟩, h₄⟩, h₅⟩, _, hstore, _,
      ⟨hown, htruth⟩, rfl⟩
    exact ⟨⟨load, slot, rfl, hload, hslot, hclass⟩, ⟨call, m, rfl, hm, hquery⟩, ⟨i₂, rfl, h₂⟩, ⟨i₃, rfl, h₃⟩,
      ⟨i₄, rfl, h₄⟩, ⟨i₅, rfl, h₅⟩, ⟨store, rfl, hstore⟩, hown, htruth⟩
  · intro h
    obtain ⟨_, slot, hi₀, hload, hslot, hclass⟩ := h.load
    obtain ⟨_, m, hi₁, hm, hquery⟩ := h.ask
    obtain ⟨_, hi₂, h₂⟩ := h.test
    obtain ⟨_, hi₃, h₃⟩ := h.yes
    obtain ⟨_, hi₄, h₄⟩ := h.skip
    obtain ⟨_, hi₅, h₅⟩ := h.no
    obtain ⟨_, hi₆, hstore⟩ := h.store
    cases hi₀
    cases hi₁
    cases hi₂
    cases hi₃
    cases hi₄
    cases hi₅
    cases hi₆
    exact ⟨(), ⟨hload, slot, hslot, hclass⟩, (), ⟨m, hm, hquery⟩, (), ⟨⟨⟨h₂, h₃⟩, h₄⟩, h₅⟩, field, hstore, (),
      ⟨h.own, h.truth⟩, rfl⟩

/-- The question is removed exactly if it stands apart and its field may be a constant. -/
theorem removeAssertions_eq_some_iff {isStaticFinal : String → Bool} (hclosed : body.IsClosed) :
    removeAssertions pool thisClass isStaticFinal body = some (field, rewritten) ↔
      body.AsksApart pool thisClass field ∧ isStaticFinal field.name = true ∧ rewritten = body.skipQuestion := by
  have hopen : removeAssertions pool thisClass isStaticFinal body = some (field, rewritten) ↔
      prologueField? pool thisClass body.instructions = some field ∧ isStaticFinal field.name = true ∧
        (∀ i ∈ body.instructions.drop prologueLength, disturbs pool field i = false) ∧
        (∀ h ∈ body.handlers, h.touchesPrologue = false) ∧ body.skipQuestion = rewritten := by
    simp only [removeAssertions, Option.bind_eq_bind, Option.bind_eq_some_iff, Option.pure_def, Option.some.injEq,
      Option.guard_eq_some', Prod.mk.injEq, Bool.not_eq_true', List.any_eq_false, Bool.not_eq_true,
      body.skipQuestion_eq]
    constructor
    · rintro ⟨_, hasks, _, hfield, _, hrest, _, hhandlers, rfl, hskip⟩
      exact ⟨hasks, hfield, hrest, hhandlers, hskip⟩
    · rintro ⟨hasks, hfield, hrest, hhandlers, hskip⟩
      exact ⟨field, hasks, (), hfield, (), hrest, (), hhandlers, rfl, hskip⟩
  rw [hopen]
  simp only [disturbs_eq_false_iff, forall_mem_drop_iff, touchesPrologue_eq_false_iff]
  constructor
  · rintro ⟨hfound, hfield, hrest, hhandlers, hskip⟩
    obtain ⟨_, _, _, _, _, _, store, _, _, his, -, -, -, -, -, hstore⟩ := prologueField?_eq_some hfound
    have hlong := hclosed.prologueLength_lt ⟨store, by rw [his]; rfl, hstore⟩
    exact ⟨⟨(prologueField?_eq_some_iff hlong).mp hfound, fun p i hp hi => (hrest p i hp hi).1,
      fun p i hp hi => (hrest p i hp hi).2, hhandlers⟩, hfield, hskip.symm⟩
  · rintro ⟨hapart, hfield, rfl⟩
    have hlong := hclosed.prologueLength_lt hapart.asks.store
    exact ⟨(prologueField?_eq_some_iff hlong).mpr hapart.asks, hfield,
      fun p i hp hi => ⟨hapart.targets p i hp hi, hapart.stores p i hp hi⟩, hapart.handlers, rfl⟩

end Checks

end JvmClass
