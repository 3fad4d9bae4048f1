/-
  JvmClass.Proofs.Class.Jumps — no jump goes to the end, but for one.

  In the bodies of a class that is built, jumps go to instructions (`Code.isClosed_of_decode`). A jump
  over a question for assertions goes to what follows the question. Only in a static initializer that
  is its question and nothing else does that jump go to the end (`bare_question_jumps_to_the_end`), and
  no other jump of any class does (`jumps_avoid_the_end`).
-/

import JvmClass.Proofs.Class.AssertionSkipping

namespace JvmClass

variable {T F M : Type}

/-- The jumps of the method go to its instructions. The last one, which stands for the end, is reached
    from the first one only, in a method that skips a question with nothing behind it. -/
def Method.JumpsInside (m : Method) : Prop :=
  ∀ code body, m.code = some code → code.body = .decoded body →
    ∀ (k : Nat) (i : Instruction), body.instructions[k]? = some i → ∀ t ∈ i.targets,
      0 ≤ t ∧ t ≤ body.instructions.length - 1 ∧
        (t = body.instructions.length - 1 ↔
          m.markers.hasAssertions = true ∧ k = 0 ∧ body.instructions.length = prologueLength + 1)

theorem Method.IsFresh.jumpsInside {m : Method} (h : m.IsFresh Code.IsClosed) : m.JumpsInside := by
  intro code body hcode hbody k i hi t ht
  obtain ⟨hlow, hhigh⟩ := (h.code code hcode body (Code.decoded?_eq_some_iff.mpr hbody)).jumps k i hi t ht
  refine ⟨hlow, Int.le_of_lt hhigh, iff_of_false (Int.ne_of_lt hhigh) fun hmarked => ?_⟩
  rw [h.unmarked] at hmarked
  cases hmarked.1

theorem Method.jumpsInside_skipQuestion {m : Method} {code : Code} {body : DecodedBody} {pool : Pool T F M}
    {thisClass : String} {field : MemberRef} (h : m.IsFresh Code.IsClosed) (hcode : m.code = some code)
    (hbody : code.body = .decoded body) (hasks : body.AsksApart pool thisClass field) : m.skipQuestion.JumpsInside := by
  have hclosed := h.code code hcode body (Code.decoded?_eq_some_iff.mpr hbody)
  intro code' body' hcode' hbody' k i hi t ht
  rw [skipQuestion, hcode] at hcode'
  cases hcode'
  rw [show (_ : Code).body = code.body.skipQuestion from rfl, hbody] at hbody'
  cases hbody'
  obtain ⟨hlow, hhigh, hend⟩ := targets_skipQuestion hclosed hasks.asks.store hi ht
  rw [DecodedBody.length_skipQuestion]
  exact ⟨hlow, hhigh, hend.trans (and_iff_right rfl).symm⟩

/-- Of the methods of the class without its question only the static initializer is marked. -/
theorem Class.IsFresh.methods_skipQuestion {c : Class T F M} {k j : Nat} {field : MemberRef} (hc : c.IsFresh)
    (hasked : c.AskedFor k j field) {m : Method} (hm : m ∈ (c.skipQuestion k j).methods) :
    (m.markers.hasAssertions = true → m.isClassInitializer = true) ∧ m.JumpsInside := by
  obtain ⟨m₀, code, body, hm₀, hname, hdescriptor, hcode, hbody, hasks⟩ := hasked.initializer
  obtain ⟨n, hn⟩ := List.mem_iff_getElem?.mp hm
  simp only [skipQuestion, List.getElem?_modify] at hn
  by_cases hk : k = n
  · subst hk
    simp only [hm₀, if_pos, Option.map_eq_map, Option.map_some, Option.some.injEq] at hn
    subst hn
    exact ⟨fun _ => Member.isNamed_iff.mpr ⟨hname, hdescriptor⟩,
      Method.jumpsInside_skipQuestion (hc.methods m₀ (List.mem_of_getElem? hm₀)) hcode hbody hasks⟩
  · simp only [if_neg hk, Option.map_eq_map, Option.map_id'] at hn
    have hfresh := hc.methods m (List.mem_of_getElem? hn)
    exact ⟨fun hmarked => absurd (hfresh.unmarked.symm.trans hmarked) Bool.false_ne_true, hfresh.jumpsInside⟩

/-- Whatever the file, the options and the patches: the jumps of a class that is made of them go to
    instructions before the last one. The exception is the jump over a question for assertions with
    nothing behind it, which only a static initializer of a class without assertions can have. -/
theorem jumps_avoid_the_end [ToString T] {file : ClassFile} {input : String} {options : Options}
    {patches : List (Option (Patch T))} {c : Class T F M} (h : (Class.ofFile file input options patches).1 = .ok c) :
    ∀ m ∈ c.methods,
      (m.markers.hasAssertions = true → options.removeAssertions = true ∧ m.isClassInitializer = true) ∧
      ∀ code body, m.code = some code → code.body = .decoded body →
        ∀ (k : Nat) (i : Instruction), body.instructions[k]? = some i → ∀ t ∈ i.targets,
          0 ≤ t ∧ t ≤ body.instructions.length - 1 ∧
            (t = body.instructions.length - 1 ↔
              m.markers.hasAssertions = true ∧ k = 0 ∧ body.instructions.length = 8) := by
  intro m hm
  by_cases hremove : options.removeAssertions = true
  · let keeping : Options := { options with removeAssertions := false }
    have hoptions : options = { keeping with removeAssertions := true } := by
      rw [← hremove]
    rw [hoptions, Class.ofFile_removing rfl, Prod.map_fst, Except.map_eq_ok] at h
    obtain ⟨kept, hkept, rfl⟩ := h
    have hfresh := Class.isFresh_of_ofFile rfl hkept
    by_cases hasked : ∃ k j field, kept.AskedFor k j field
    · obtain ⟨k, j, field, hasked⟩ := hasked
      rw [Class.withoutQuestion_of_askedFor hfresh hasked] at hm
      obtain ⟨hmarked, hjumps⟩ := hfresh.methods_skipQuestion hasked hm
      exact ⟨fun h => ⟨hremove, hmarked h⟩, hjumps⟩
    · rw [Class.withoutQuestion_of_not_askedFor hfresh hasked] at hm
      have hm' := hfresh.methods m hm
      exact ⟨fun hmarked => absurd (hm'.unmarked.symm.trans hmarked) Bool.false_ne_true, hm'.jumpsInside⟩
  · have hfresh := Class.isFresh_of_ofFile (by simpa using hremove) h
    have hm' := hfresh.methods m hm
    exact ⟨fun hmarked => absurd (hm'.unmarked.symm.trans hmarked) Bool.false_ne_true, hm'.jumpsInside⟩

/-- A class whose static initializer is its question for assertions and nothing else. -/
def bareQuestionFile : ClassFile :=
  { askingFile with
    methods := [⟨0x8, 5, 6, [⟨7, [0, 1, 0, 0, 0, 0, 0, 16, 0x12, 1, 0xB6, 0, 8, 0x9A, 0, 7, 0x04, 0xA7, 0, 4, 0x03,
      0xB3, 0, 14, 0, 0, 0, 0]⟩]⟩] }

/-- For each decoded body of the class, whether its method skips a question, where its first instruction
    jumps to, and how many instructions it has. -/
def Class.firstJumps (c : Class T F M) : List (Bool × Option (List Int) × Nat) :=
  c.methods.filterMap fun m => (m.code.bind (·.decoded?)).map fun body =>
    (m.markers.hasAssertions, body.instructions.head?.map (·.targets), body.instructions.length)

/-- Its first instruction jumps over the question, to the last of eight instructions. -/
theorem ofFile_bareQuestionFile :
    ∃ c : Class Nat Nat Nat, (Class.ofFile bareQuestionFile "A" { removeAssertions := true } []).1 = .ok c ∧
      c.firstJumps = [(true, some [7], 8)] := by
  have hjumps : (Class.ofFile bareQuestionFile "A" { removeAssertions := true } [] :
      Except Error (Class Nat Nat Nat) × _).1.map Class.firstJumps = .ok [(true, some [7], 8)] := by decide +kernel
  exact Except.map_eq_ok.mp hjumps

theorem jumps_avoid_the_end_bare :
    ∃ c : Class Nat Nat Nat, (Class.ofFile bareQuestionFile "A" { removeAssertions := true } []).1 = .ok c ∧
      c.firstJumps = [(true, some [7], 8)] ∧ ∀ m ∈ c.methods, m.JumpsInside := by
  obtain ⟨c, hc, hjumps⟩ := ofFile_bareQuestionFile
  exact ⟨c, hc, hjumps, fun m hm => (jumps_avoid_the_end hc m hm).2⟩

/-- Where nothing is behind the question, the jump over it goes to the end. -/
theorem bare_question_jumps_to_the_end :
    ∃ c : Class Nat Nat Nat, (Class.ofFile bareQuestionFile "A" { removeAssertions := true } []).1 = .ok c ∧
      ∃ m ∈ c.methods, ∃ code body, m.code = some code ∧ code.body = .decoded body ∧
        ∃ i ∈ body.instructions, ∃ t ∈ i.targets, ¬t < body.instructions.length - 1 := by
  obtain ⟨c, hc, houtline⟩ := ofFile_bareQuestionFile
  have hjumps : (true, some [7], 8) ∈ c.firstJumps := houtline ▸ List.mem_singleton_self _
  obtain ⟨m, hm, hfirst⟩ := List.mem_filterMap.mp hjumps
  obtain ⟨body, hdecoded, hfirst⟩ := Option.map_eq_some_iff.mp hfirst
  obtain ⟨code, hcode, hdecoded⟩ := Option.bind_eq_some_iff.mp hdecoded
  obtain ⟨-, ⟨i, hi, htargets⟩, hlength⟩ : _ ∧ (∃ i, body.instructions.head? = some i ∧ i.targets = [7]) ∧
      body.instructions.length = 8 := by simpa using hfirst
  have hbody := Code.decoded?_eq_some_iff.mp hdecoded
  refine ⟨c, hc, m, hm, code, body, hcode, hbody, i, List.mem_of_mem_head? hi, 7, ?_, ?_⟩
  · rw [htargets]
    exact List.mem_singleton_self _
  · omega

end JvmClass
