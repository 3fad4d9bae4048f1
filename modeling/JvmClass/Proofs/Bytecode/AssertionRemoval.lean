/-
  JvmClass.Proofs.Bytecode.AssertionRemoval — skipping the question for assertions changes nothing.

  The body with its question and the one without it are run side by side, in any semantics. While
  the first is within its question (`Asking`), the second waits at its start, with the field true
  already; from there on both are at the same position with the same frame (`Matches`). What
  removal checks is what keeps it so: nothing behind the question leads into it, other than to its
  start, and nothing there stores to the field (`after_step`).
-/

import JvmClass.Proofs.Bytecode.Execution
import Mathlib.Data.Option.Basic

namespace JvmClass

variable {T F M : Type} {pool : Pool T F M} {field : MemberRef} {body rewritten : DecodedBody}

/-! ## What is checked -/

theorem isInPrologue_eq_false_iff {p : Nat} : isInPrologue p = false ↔ p = 0 ∨ prologueLength ≤ p := by
  simp only [isInPrologue, Bool.and_eq_false_iff, decide_eq_false_iff_not]
  omega

theorem MemberRef.isSameMember_self (m : MemberRef) : m.isSameMember m = true := by
  simp [isSameMember]

/-- The body asks for assertions first and never comes back to that, other than to its start. -/
structure Removable (pool : Pool T F M) (field : MemberRef) (body : DecodedBody) : Prop where
  load : ∃ i, body.instructions[0]? = some i ∧ i.opcode = .ldc
  ask : ∃ i m, body.instructions[1]? = some i ∧ calledMethod? pool i = some m ∧ isStatusQuery m = true
  test : ∃ i, body.instructions[2]? = some i ∧ i.opcode = .ifne
  number : ∃ i, body.instructions[3]? = some i ∧ i.opcode = .iconst ∧ i.operand = 1
  goto : ∃ i, body.instructions[4]? = some i ∧ i.opcode = .goto ∧ i.operand = 6
  store : ∃ i, body.instructions[6]? = some i ∧ storedField? pool i = some field
  targets : ∀ (p : Nat) (i : Instruction), prologueLength ≤ p → body.instructions[p]? = some i →
    ∀ t ∈ i.targets, isInPrologue t = false
  stores : ∀ (p : Nat) (i : Instruction), prologueLength ≤ p → body.instructions[p]? = some i →
    ∀ m, storedField? pool i = some m → field.isSameMember m = false
  handlers : ∀ h ∈ body.handlers, prologueLength ≤ h.first ∧ isInPrologue h.handler = false

theorem Instruction.isOf_iff {i : Instruction} {opcode : Opcode} {operand : Int} :
    i.isOf opcode operand = true ↔ i.opcode = opcode ∧ i.operand = operand := by
  simp [isOf]

theorem disturbs_eq_false {i : Instruction} (h : disturbs pool field i = false) :
    (∀ t ∈ i.targets, isInPrologue t = false) ∧ ∀ m, storedField? pool i = some m → field.isSameMember m = false := by
  obtain ⟨htargets, hstore⟩ := Bool.or_eq_false_iff.mp h
  refine ⟨by simpa using htargets, ?_⟩
  intro m hm
  rw [hm] at hstore
  exact hstore

/-- The body with a jump over the question in the place of its first instruction. -/
def DecodedBody.skipQuestion (body : DecodedBody) : DecodedBody :=
  { body with
    instructions := body.instructions.modify 0 fun first => { pc := first.pc, opcode := .goto, operand := 7 } }

/-- The second body is the first one, but for its instruction 0, which goes on to instruction 7 and starts
    where the other one did. -/
structure DecodedBody.JumpsOver (body body' : DecodedBody) : Prop where
  first : ∀ i, body.instructions[0]? = some i →
    body'.instructions[0]? = some { pc := i.pc, opcode := .goto, operand := 7 }
  others : ∀ p, 0 < p → body'.instructions[p]? = body.instructions[p]?
  handlers : body'.handlers = body.handlers

theorem DecodedBody.jumpsOver_skipQuestion (body : DecodedBody) : body.JumpsOver body.skipQuestion where
  first i hi := by simp [skipQuestion, hi]
  others p hp := by simp [skipQuestion, Nat.ne_of_lt hp]
  handlers := rfl

theorem DecodedBody.skipQuestion_eq (body : DecodedBody) :
    body.skipQuestion = { body with instructions := skipPrologue body.instructions } := by
  obtain ⟨is, handlers⟩ := body
  cases is <;> rfl

/-- The first instructions are the question, up to where it is decided. -/
theorem prologueField?_eq_some {thisClass : String} {is : List Instruction}
    (h : prologueField? pool thisClass is = some field) :
    ∃ load call i₂ i₃ i₄ i₅ store rest m, is = load :: call :: i₂ :: i₃ :: i₄ :: i₅ :: store :: rest ∧
      load.opcode = .ldc ∧ (calledMethod? pool call = some m ∧ isStatusQuery m = true) ∧ i₂.opcode = .ifne ∧
      (i₃.opcode = .iconst ∧ i₃.operand = 1) ∧ (i₄.opcode = .goto ∧ i₄.operand = 6) ∧
      storedField? pool store = some field := by
  unfold prologueField? at h
  split at h
  · rename_i load call i₂ i₃ i₄ i₅ store next rest
    simp only [Option.bind_eq_bind, Option.bind_eq_some_iff, Option.pure_def, Option.some.injEq,
      Option.guard_eq_some', Bool.and_eq_true, beq_iff_eq, Instruction.isOf_iff] at h
    obtain ⟨_, ⟨hload, -⟩, _, hcall, _, ⟨⟨⟨h₂, h₃⟩, h₄⟩, -⟩, stored, hstore, _, -, rfl⟩ := h
    cases hm : calledMethod? pool call with
    | none =>
      rw [hm] at hcall
      cases hcall
    | some m =>
      rw [hm] at hcall
      exact ⟨load, call, i₂, i₃, i₄, i₅, store, next :: rest, m, rfl, hload, ⟨hm, hcall⟩, h₂.1, h₃, h₄, hstore⟩
  · cases h

theorem removeAssertions_eq_some {thisClass : String} {isStaticFinal : String → Bool}
    (h : removeAssertions pool thisClass isStaticFinal body = some (field, rewritten)) :
    Removable pool field body ∧ rewritten = body.skipQuestion := by
  obtain ⟨is, handlers⟩ := body
  simp only [removeAssertions, Option.bind_eq_bind, Option.bind_eq_some_iff, Option.pure_def, Option.some.injEq,
    Option.guard_eq_some', Prod.mk.injEq, Bool.not_eq_true'] at h
  obtain ⟨found, hfound, _, -, _, hrest, _, hhandlers, rfl, rfl⟩ := h
  obtain ⟨load, call, i₂, i₃, i₄, i₅, store, rest, m, his, hload, hcall, h₂, h₃, h₄, hstore⟩ :=
    prologueField?_eq_some hfound
  have hafter : ∀ (p : Nat) (i : Instruction), prologueLength ≤ p → is[p]? = some i →
      disturbs pool found i = false := by
    intro p i hp hi
    rw [← Nat.add_sub_cancel' hp, ← List.getElem?_drop] at hi
    exact Bool.eq_false_iff.mpr (List.any_eq_false.mp hrest i (List.mem_of_getElem? hi))
  refine ⟨?_, (DecodedBody.skipQuestion_eq ⟨is, handlers⟩).symm⟩
  subst his
  constructor
  · exact ⟨load, rfl, hload⟩
  · exact ⟨call, m, rfl, hcall⟩
  · exact ⟨i₂, rfl, h₂⟩
  · exact ⟨i₃, rfl, h₃⟩
  · exact ⟨i₄, rfl, h₄⟩
  · exact ⟨store, rfl, hstore⟩
  · intro p i hp hi
    exact (disturbs_eq_false (hafter p i hp hi)).1
  · intro p i hp hi
    exact (disturbs_eq_false (hafter p i hp hi)).2
  · intro h hmem
    have htouch := Bool.eq_false_iff.mpr (List.any_eq_false.mp hhandlers h hmem)
    obtain ⟨hfirst, hhandler⟩ := Bool.or_eq_false_iff.mp htouch
    exact ⟨by simpa using hfirst, hhandler⟩

/-! ## The question -/

/-- No address leads into the question. -/
def Frame.Clear {V R : Type} (σ : Frame V R) : Prop := ∀ q, σ.Holds q → isInPrologue q = false

namespace Semantics

variable {V R : Type} {S : Semantics pool field V R}

theorem Step.of_control {p : Nat} {σ : Frame V R} {d : Config V R} {i : Instruction}
    (h : S.Step body (.running p σ) d) (hi : body.instructions[p]? = some i) :
    ∃ control τ, S.act body.handlers p i σ control τ ∧ control.LeadsTo p τ d := by
  obtain ⟨j, control, τ, hj, hact, hleads⟩ := h
  rw [hi] at hj
  cases hj
  exact ⟨control, τ, hact, hleads⟩

/-- An instruction that acts in one way makes one step. -/
theorem step_iff_eq {p : Nat} {σ σ' : Frame V R} {i : Instruction} {control : Control} {d' : Config V R}
    (hi : body.instructions[p]? = some i)
    (hact : ∀ c τ, S.act body.handlers p i σ c τ ↔ c = control ∧ τ = σ')
    (hleads : ∀ d, control.LeadsTo p σ' d ↔ d = d') {d : Config V R} :
    S.Step body (.running p σ) d ↔ d = d' := by
  constructor
  · intro h
    obtain ⟨c, τ, hc, hd⟩ := h.of_control hi
    obtain ⟨rfl, rfl⟩ := (hact c τ).mp hc
    exact (hleads d).mp hd
  · intro h
    exact ⟨i, control, σ', hi, (hact _ _).mpr ⟨rfl, rfl⟩, (hleads d).mpr h⟩

theorem leadsTo_jump_iff {p q : Nat} {target : Int} (h : target = q) {τ : Frame V R} (d : Config V R) :
    (Control.jump target).LeadsTo p τ d ↔ d = .running q τ := by
  subst h
  constructor
  · intro ⟨q', hq, hd⟩
    rw [hd, Int.ofNat_inj.mp hq]
  · intro hd
    exact ⟨q, rfl, hd⟩

section Question

variable (hr : Removable pool field body) {σ : Frame V R} {d : Config V R}
include hr

theorem step_load :
    (∃ v, S.Step body (.running 0 σ) (.running 1 (σ.push v))) ∧
      ∀ d, S.Step body (.running 0 σ) d → ∃ v, d = .running 1 (σ.push v) := by
  obtain ⟨i, hi, hop⟩ := hr.load
  obtain ⟨⟨v, hv⟩, honly⟩ := S.load (show 0 < prologueLength by decide) hop
  refine ⟨⟨v, i, .next, _, hi, hv, rfl⟩, ?_⟩
  intro d h
  obtain ⟨c, τ, hc, hd⟩ := h.of_control hi
  obtain ⟨rfl, w, rfl⟩ := honly c τ hc
  exact ⟨w, hd⟩

theorem step_ask {v : Value V} :
    S.Step body (.running 1 (σ.push v)) d ↔ d = .running 2 (σ.push (.int 0)) := by
  obtain ⟨i, m, hi, hcall, hm⟩ := hr.ask
  exact step_iff_eq hi (fun c τ => S.ask (by decide) hcall hm) (fun d => Iff.rfl)

/-- Assertions are off, so the jump is not taken. -/
theorem step_test : S.Step body (.running 2 (σ.push (.int 0))) d ↔ d = .running 3 σ := by
  obtain ⟨i, hi, hop⟩ := hr.test
  exact step_iff_eq hi (fun c τ => S.test (by decide) hop) (fun d => Iff.rfl)

theorem step_number : S.Step body (.running 3 σ) d ↔ d = .running 4 (σ.push (.int 1)) := by
  obtain ⟨i, hi, hop, hone⟩ := hr.number
  rw [← hone]
  exact step_iff_eq hi (fun c τ => S.number (by decide) hop) (fun d => Iff.rfl)

theorem step_goto : S.Step body (.running 4 σ) d ↔ d = .running 6 σ := by
  obtain ⟨i, hi, hop, hsix⟩ := hr.goto
  exact step_iff_eq hi (fun c τ => S.goto (by decide) hop) (leadsTo_jump_iff hsix)

theorem step_store :
    S.Step body (.running 6 (σ.push (.int 1))) d ↔ d = .running prologueLength (σ.setField 1) := by
  obtain ⟨i, hi, hstore⟩ := hr.store
  exact step_iff_eq hi (fun c τ => S.store (by decide) hstore field.isSameMember_self (.inr rfl)) (fun d => Iff.rfl)

end Question

/-- Where a body is that began with its question in the frame `σ` and has not got through. -/
inductive Asking (σ : Frame V R) : Config V R → Prop
  | start : Asking σ (.running 0 σ)
  | loaded (v : Value V) : Asking σ (.running 1 (σ.push v))
  | asked : Asking σ (.running 2 (σ.push (.int 0)))
  | off : Asking σ (.running 3 σ)
  | chosen : Asking σ (.running 4 (σ.push (.int 1)))
  | storing : Asking σ (.running 6 (σ.push (.int 1)))

theorem asking_step (hr : Removable pool field body) {σ : Frame V R} {c d : Config V R} (hc : Asking σ c)
    (h : S.Step body c d) : Asking σ d ∨ d = .running prologueLength (σ.setField 1) := by
  cases hc with
  | start =>
    obtain ⟨v, rfl⟩ := (step_load hr).2 d h
    exact .inl (.loaded v)
  | loaded v =>
    obtain rfl := (step_ask hr).mp h
    exact .inl .asked
  | asked =>
    obtain rfl := (step_test hr).mp h
    exact .inl .off
  | off =>
    obtain rfl := (step_number hr).mp h
    exact .inl .chosen
  | chosen =>
    obtain rfl := (step_goto hr).mp h
    exact .inl .storing
  | storing => exact .inr ((step_store hr).mp h)

/-- From everywhere in the question the body gets through it. -/
theorem asking_run (hr : Removable pool field body) {σ : Frame V R} {c : Config V R} (hc : Asking σ c) :
    S.RunBefore prologueLength body c (.running prologueLength (σ.setField 1)) := by
  have storing : S.RunBefore prologueLength body (.running 6 (σ.push (.int 1))) _ :=
    .single ⟨(step_store hr).mpr rfl, _, _, rfl, by decide⟩
  have chosen : S.RunBefore prologueLength body (.running 4 (σ.push (.int 1))) _ :=
    .head ⟨(step_goto hr).mpr rfl, _, _, rfl, by decide⟩ storing
  have off : S.RunBefore prologueLength body (.running 3 σ) _ :=
    .head ⟨(step_number hr).mpr rfl, _, _, rfl, by decide⟩ chosen
  have asked : S.RunBefore prologueLength body (.running 2 (σ.push (.int 0))) _ :=
    .head ⟨(step_test hr).mpr rfl, _, _, rfl, by decide⟩ off
  have loaded (v : Value V) : S.RunBefore prologueLength body (.running 1 (σ.push v)) _ :=
    .head ⟨(step_ask hr).mpr rfl, _, _, rfl, by decide⟩ asked
  cases hc with
  | start =>
    obtain ⟨v, hv⟩ := (step_load hr).1
    exact .head ⟨hv, _, _, rfl, by decide⟩ (loaded v)
  | loaded v => exact loaded v
  | asked => exact asked
  | off => exact off
  | chosen => exact chosen
  | storing => exact storing

/-- The question does nothing to a frame but set the field. -/
theorem question_iff (hr : Removable pool field body) {σ τ : Frame V R} :
    S.RunBefore prologueLength body (.running 0 σ) (.running prologueLength τ) ↔ τ = σ.setField 1 := by
  constructor
  · intro h
    have hinv : ∀ d, S.RunBefore prologueLength body (.running 0 σ) d →
        Asking σ d ∨ d = .running prologueLength (σ.setField 1) := by
      intro d hd
      induction hd with
      | refl => exact .inl .start
      | tail _ hstep ih =>
        obtain ⟨hstep, p, ρ, rfl, hp⟩ := hstep
        rcases ih with ih | ih
        · exact asking_step hr ih hstep
        · cases ih
          exact absurd hp (Nat.lt_irrefl _)
    rcases hinv _ h with h | h
    · cases h
    · cases h
      rfl
  · intro h
    rw [h]
    exact asking_run hr .start

/-! ## The body without it -/

theorem step_skip (hr : Removable pool field body) {σ : Frame V R} {d : Config V R} :
    S.Step body.skipQuestion (.running 0 σ) d ↔ d = .running prologueLength σ := by
  obtain ⟨first, hfirst, -⟩ := hr.load
  have hi := body.jumpsOver_skipQuestion.first first hfirst
  exact step_iff_eq hi (fun c τ => S.goto (by decide) rfl) (leadsTo_jump_iff rfl)

theorem step_skipQuestion_iff {p : Nat} (hp : 0 < p) {σ : Frame V R} {d : Config V R} :
    S.Step body.skipQuestion (.running p σ) d ↔ S.Step body (.running p σ) d := by
  have hi : body.skipQuestion.instructions[p]? = body.instructions[p]? :=
    body.jumpsOver_skipQuestion.others p hp
  simp only [Step, hi]
  rfl

/-- Where the body with its question and the one without it are at the same time. -/
inductive Matches : Config V R → Config V R → Prop
  | asking {σ : Frame V R} {c : Config V R} : σ.Clear → Asking σ c → Matches c (.running 0 (σ.setField 1))
  | after {p : Nat} {σ : Frame V R} : σ.Clear → σ.field = 1 → prologueLength ≤ p →
      Matches (.running p σ) (.running p σ)
  | left {σ : Frame V R} : Matches (.left σ) (.left σ)

theorem matches_self {p : Nat} {σ : Frame V R} (hclear : σ.Clear) (hfield : σ.field = 1)
    (hp : isInPrologue p = false) : Matches (.running p σ) (.running p σ) := by
  rcases isInPrologue_eq_false_iff.mp hp with rfl | hp
  · have h := Matches.asking hclear Asking.start
    rw [σ.setField_of_eq hfield] at h
    exact h
  · exact .after hclear hfield hp

/-- Nothing behind the question leads into it or changes the field. -/
theorem after_step (hr : Removable pool field body) {p : Nat} {σ : Frame V R} {d : Config V R} (hclear : σ.Clear)
    (hfield : σ.field = 1) (hp : prologueLength ≤ p) (h : S.Step body (.running p σ) d) : Matches d d := by
  obtain ⟨i, control, τ, hi, hact, hleads⟩ := h
  have hfield' : τ.field = 1 := (S.stores hact (hr.stores p i hp hi)).trans hfield
  have hclear' : τ.Clear := by
    intro q hq
    rcases S.addresses hact hq with hq | ⟨-, rfl⟩
    · exact hclear q hq
    · exact isInPrologue_eq_false_iff.mpr (.inr (Nat.le_succ_of_le hp))
  cases control with
  | next =>
    cases hleads
    exact .after hclear' hfield' (Nat.le_succ_of_le hp)
  | jump target =>
    obtain ⟨q, rfl, rfl⟩ := hleads
    exact matches_self hclear' hfield' (hr.targets p i hp hi q (S.control hact))
  | back address =>
    cases hleads
    exact matches_self hclear' hfield' (hclear address (S.control hact))
  | caught handler =>
    cases hleads
    exact matches_self hclear' hfield' (hr.handlers handler (S.control hact).1).2
  | leave =>
    cases hleads
    exact .left

theorem forward_step (hr : Removable pool field body) {c c' d : Config V R} (hm : Matches c c') (h : S.Step body c d) :
    ∃ d', S.Run body.skipQuestion c' d' ∧ Matches d d' := by
  cases hm with
  | @asking σ c hclear hc =>
    rcases asking_step hr hc h with hd | rfl
    · exact ⟨_, .refl, .asking hclear hd⟩
    · exact ⟨_, .single ((step_skip hr).mpr rfl), .after hclear rfl (Nat.le_refl _)⟩
  | after hclear hfield hp =>
    have hpos : 0 < _ := Nat.lt_of_lt_of_le (by decide) hp
    exact ⟨d, .single ((step_skipQuestion_iff hpos).mpr h), after_step hr hclear hfield hp h⟩
  | left => cases h

theorem backward_step (hr : Removable pool field body) {c c' d' : Config V R} (hm : Matches c c')
    (h : S.Step body.skipQuestion c' d') : ∃ d, S.Run body c d ∧ Matches d d' := by
  cases hm with
  | @asking σ c hclear hc =>
    obtain rfl := (step_skip hr).mp h
    exact ⟨_, (asking_run hr hc).run, .after hclear rfl (Nat.le_refl _)⟩
  | after hclear hfield hp =>
    have hpos : 0 < _ := Nat.lt_of_lt_of_le (by decide) hp
    have hstep := (step_skipQuestion_iff hpos).mp h
    exact ⟨d', .single hstep, after_step hr hclear hfield hp hstep⟩
  | left => cases h

/-! ## Runs -/

theorem forward_run (hr : Removable pool field body) {c c' d : Config V R} (hm : Matches c c') (h : S.Run body c d) :
    ∃ d', S.Run body.skipQuestion c' d' ∧ Matches d d' := by
  induction h with
  | refl => exact ⟨c', .refl, hm⟩
  | tail _ hstep ih =>
    obtain ⟨d', hrun, hm'⟩ := ih
    obtain ⟨e', hrun', hm''⟩ := forward_step hr hm' hstep
    exact ⟨e', hrun.trans hrun', hm''⟩

theorem backward_run (hr : Removable pool field body) {c c' d' : Config V R} (hm : Matches c c')
    (h : S.Run body.skipQuestion c' d') : ∃ d, S.Run body c d ∧ Matches d d' := by
  induction h with
  | refl => exact ⟨c, .refl, hm⟩
  | tail _ hstep ih =>
    obtain ⟨d, hrun, hm'⟩ := ih
    obtain ⟨e, hrun', hm''⟩ := backward_step hr hm' hstep
    exact ⟨e, hrun.trans hrun', hm''⟩

theorem matches_position {c : Config V R} {p : Nat} {σ : Frame V R} (h : Matches c (.running p σ)) :
    p = 0 ∨ prologueLength ≤ p := by
  cases h with
  | asking => exact .inl rfl
  | after _ _ hp => exact .inr hp

/-- The bodies run alike, but for the question of the first. -/
structure Simulates (S : Semantics pool field V R) (body rewritten : DecodedBody) : Prop where
  /-- The question changes nothing but the field. -/
  question : ∀ σ τ, S.RunBefore prologueLength body (.running 0 σ) (.running prologueLength τ) ↔ τ = σ.setField 1
  skip : ∀ σ d, S.Step rewritten (.running 0 σ) d ↔ d = .running prologueLength σ
  lockstep : ∀ p σ d, prologueLength ≤ p → (S.Step body (.running p σ) d ↔ S.Step rewritten (.running p σ) d)
  forward : ∀ σ : Frame V R, σ.Clear → ∀ c, S.Run body (.running 0 σ) c →
    ∃ c', S.Run rewritten (.running 0 (σ.setField 1)) c' ∧ Matches c c'
  backward : ∀ σ : Frame V R, σ.Clear → ∀ c', S.Run rewritten (.running 0 (σ.setField 1)) c' →
    ∃ c, S.Run body (.running 0 σ) c ∧ Matches c c'
  avoids : ∀ σ : Frame V R, σ.Clear → ∀ p τ, S.Run rewritten (.running 0 (σ.setField 1)) (.running p τ) →
    p = 0 ∨ prologueLength ≤ p

end Semantics

/-- A body from which the question is removed does the same with the field true from the start. -/
theorem removeAssertions_simulates {V R : Type} {thisClass : String} {isStaticFinal : String → Bool}
    (h : removeAssertions pool thisClass isStaticFinal body = some (field, rewritten))
    (S : Semantics pool field V R) : Semantics.Simulates S body rewritten := by
  obtain ⟨hr, rfl⟩ := removeAssertions_eq_some h
  have hstart : ∀ σ : Frame V R, σ.Clear → Semantics.Matches (.running 0 σ) (.running 0 (σ.setField 1)) :=
    fun σ hclear => .asking hclear .start
  constructor
  · intro σ τ
    exact Semantics.question_iff hr
  · intro σ d
    exact Semantics.step_skip hr
  · intro p σ d hp
    exact (Semantics.step_skipQuestion_iff (Nat.lt_of_lt_of_le (by decide) hp)).symm
  · intro σ hclear c hrun
    exact Semantics.forward_run hr (hstart σ hclear) hrun
  · intro σ hclear c' hrun
    exact Semantics.backward_run hr (hstart σ hclear) hrun
  · intro σ hclear p τ hrun
    obtain ⟨c, -, hm⟩ := Semantics.backward_run hr (hstart σ hclear) hrun
    exact Semantics.matches_position hm

/-! ## A semantics -/

/-- What the instructions of the question do, together with subroutines, exceptions that are thrown on
    purpose and the way out; no other instruction does anything. -/
def plainAct? (pool : Pool T F M) (field : MemberRef) (handlers : List ExceptionHandler) (p : Nat) (i : Instruction)
    (σ : Frame Unit Unit) : Option (Control × Frame Unit Unit) :=
  match i.opcode, σ.stack with
  | .ldc, _ => some (.next, σ.push (.other ()))
  | .invokevirtual, _ :: stack =>
    if (calledMethod? pool i).any isStatusQuery then some (.next, { σ with stack := .int 0 :: stack }) else none
  | .ifne, .int n :: stack => some (if n = 0 then .next else .jump i.operand, { σ with stack })
  | .iconst, _ => some (.next, σ.push (.int i.operand))
  | .goto, _ => some (.jump i.operand, σ)
  | .putstatic, .int n :: stack =>
    if (storedField? pool i).any field.isSameMember then some (.next, { σ with stack, field := n }) else none
  | .jsr, _ => some (.jump i.operand, σ.push (.address (p + 1)))
  | .ret, _ =>
    match σ.locals[i.operand.toNat]? with
    | some (.address q) => some (.back q, σ)
    | _ => none
  | .athrow, v :: _ =>
    match handlers.find? fun h => h.first ≤ p && p ≤ h.last with
    | some h => some (.caught h, { σ with stack := [v] })
    | none => some (.leave, σ)
  | .returnVoid, _ => some (.leave, σ)
  | _, _ => none

theorem opcode_of_calledMethod? {i : Instruction} {m : MemberRef} (h : calledMethod? pool i = some m) :
    i.opcode = .invokevirtual :=
  beq_iff_eq.mp (Option.ite_none_right_eq_some.mp h).1

theorem opcode_of_storedField? {i : Instruction} {m : MemberRef} (h : storedField? pool i = some m) :
    i.opcode = .putstatic :=
  beq_iff_eq.mp (Option.ite_none_right_eq_some.mp h).1

section Plain

variable {hs : List ExceptionHandler} {p : Nat} {i : Instruction} {σ τ : Frame Unit Unit} {c : Control}

theorem plainAct?_control (h : plainAct? pool field hs p i σ = some (c, τ)) : c.Allowed hs p i σ := by
  unfold plainAct? at h
  split at h
  case h_3 hop _ =>
    cases h
    split
    · trivial
    · simp [Control.Allowed, Instruction.targets, hop, Opcode.isBranch]
  case h_5 hop =>
    cases h
    simp [Control.Allowed, Instruction.targets, hop, Opcode.isBranch]
  case h_7 hop =>
    cases h
    simp [Control.Allowed, Instruction.targets, hop, Opcode.isBranch]
  case h_8 =>
    split at h <;> cases h
    rename_i hlocal
    exact .inr (List.mem_of_getElem? hlocal)
  case h_9 =>
    split at h <;> cases h
    · rename_i hfind
      have hcovers := List.find?_some hfind
      exact ⟨List.mem_of_find?_eq_some hfind, by simpa using hcovers⟩
    · trivial
  all_goals (try split at h) <;> cases h <;> trivial

/-- Values are moved, or new and no addresses, but for that of a subroutine's caller. -/
theorem plainAct?_values (h : plainAct? pool field hs p i σ = some (c, τ)) :
    τ.locals = σ.locals ∧
      ∀ v ∈ τ.stack, v ∈ σ.stack ∨ (∀ q, v ≠ .address q) ∨ i.opcode = .jsr ∧ v = .address (p + 1) := by
  unfold plainAct? at h
  split at h <;> (try split at h) <;> cases h <;> refine ⟨rfl, ?_⟩ <;> simp_all [Frame.push]

theorem plainAct?_field (h : plainAct? pool field hs p i σ = some (c, τ)) :
    τ.field = σ.field ∨ (storedField? pool i).any field.isSameMember = true := by
  unfold plainAct? at h
  split at h <;> (try split at h) <;> cases h <;> first | exact .inl rfl | exact .inr ‹_›

end Plain

def plainSemantics (pool : Pool T F M) (field : MemberRef) : Semantics pool field Unit Unit where
  act hs p i σ c τ := plainAct? pool field hs p i σ = some (c, τ)
  control := plainAct?_control
  addresses := by
    intro hs p i c q σ τ h hq
    obtain ⟨hlocals, hstack⟩ := plainAct?_values h
    rcases hq with hq | hq
    · rcases hstack _ hq with hq | hq | ⟨hop, hq⟩
      · exact .inl (.inl hq)
      · exact absurd rfl (hq q)
      · cases hq
        exact .inr ⟨hop, rfl⟩
    · rw [hlocals] at hq
      exact .inl (.inr hq)
  stores := by
    intro hs p i c σ τ h hno
    rcases plainAct?_field h with h | h
    · exact h
    · obtain ⟨m, hm, hsame⟩ := (Option.any_eq_true _ _).mp h
      rw [hno m hm] at hsame
      cases hsame
  load := by
    intro hs p i σ _ hop
    refine ⟨⟨.other (), by simp [plainAct?, hop]⟩, ?_⟩
    intro c τ h
    simp only [plainAct?, hop, Option.some.injEq, Prod.mk.injEq] at h
    exact ⟨h.1.symm, _, h.2.symm⟩
  ask := by
    intro hs p i m v c σ τ _ hcall hm
    simp [plainAct?, opcode_of_calledMethod? hcall, hcall, hm, Frame.push, eq_comm]
  test := by
    intro hs p i n c σ τ _ hop
    simp only [plainAct?, hop, Frame.push, Option.some.injEq, Prod.mk.injEq]
    exact and_congr eq_comm eq_comm
  number := by
    intro hs p i c σ τ _ hop
    simp [plainAct?, hop, eq_comm]
  goto := by
    intro hs p i c σ τ _ hop
    simp [plainAct?, hop, eq_comm]
  store := by
    intro hs p i m n c σ τ _ hstore hm _
    simp [plainAct?, opcode_of_storedField? hstore, hstore, hm, Frame.push, Frame.setField, eq_comm]

/-- A class `A` whose initializer asks for assertions over and over. -/
def askingPool : Pool Unit Unit Unit :=
  ⟨#[.vacant, .cls ⟨"A", false, .empty⟩,
    .method ⟨⟨1, classClassName, "desiredAssertionStatus", "()Z"⟩, .empty, .empty⟩,
    .field ⟨1, "A", "$assertionsDisabled", "Z"⟩ .empty]⟩

def askingBody : DecodedBody :=
  ⟨[{ pc := 0, opcode := .ldc, operand := 1 }, { pc := 2, opcode := .invokevirtual, operand := 2 },
    { pc := 5, opcode := .ifne, operand := 5 }, { pc := 8, opcode := .iconst, operand := 1 },
    { pc := 9, opcode := .goto, operand := 6 }, { pc := 12, opcode := .iconst },
    { pc := 13, opcode := .putstatic, operand := 3 }, { pc := 16, opcode := .goto }, Instruction.final 19], []⟩

theorem removeAssertions_simulates_asking :
    Semantics.Simulates (plainSemantics askingPool ⟨1, "A", "$assertionsDisabled", "Z"⟩) askingBody
      askingBody.skipQuestion := by
  have h : removeAssertions askingPool "A" (fun _ => true) askingBody =
      some (⟨1, "A", "$assertionsDisabled", "Z"⟩, askingBody.skipQuestion) := by decide +kernel
  exact removeAssertions_simulates h _

end JvmClass
