/-
  JvmClass.Proofs.Interner — one copy of each text.

  Several interners are used side by side, and texts are made beside them (`Interners`). Each copy has a
  number of its own, whoever makes it. What the tables know of the copies handed out so far is one invariant
  (`Interners.Knows`): the copies of an interner are those in its table, one for each text, and no others
  share.
  - `interning_is_canonical`: copies share just if they are of one interner and one text. So equality, which
    looks at the copies first, is equality of the texts, and the size of an interner is the number of different
    texts that it was asked for.
  Equality and hashing by text therefore go together, as sets need it (`Copy`), and a list of copies has a
  repetition just if their texts have one (`Copy.hasDuplicates_texts`).
-/

import JvmClass.Interner
import JvmClass.Proofs.Duplicate
import Mathlib.Data.Finset.Card
import Mathlib.Data.Finset.Dedup
import Mathlib.Data.List.Induction
import Mathlib.Data.List.Nodup
import Mathlib.Data.List.Pairwise
import Mathlib.Logic.Function.Basic

namespace JvmClass

variable {κ : Type}

/-! ## Interners side by side -/

/-- Interners, and the number of texts made in them and beside them. -/
structure Interners (κ : Type) where
  made : Nat
  tables : κ → List Interned

inductive Request (κ : Type)
  | intern (k : κ) (written : String)
  | internDotted (k : κ) (written : String)
  /-- A text beside the interners. -/
  | make (written : String)

namespace Request

/-- The interner that is asked, if any. -/
def interner? : Request κ → Option κ
  | intern k _ => some k
  | internDotted k _ => some k
  | make _ => none

/-- The text that is asked for. -/
def text : Request κ → String
  | intern _ written => written
  | internDotted _ written => written.map fun c => if c = '/' then '.' else c
  | make written => written

/-- Both ask one interner for one text. -/
def Agrees (r r' : Request κ) : Prop := ∃ k, r.interner? = some k ∧ r'.interner? = some k ∧ r.text = r'.text

theorem Agrees.symm {r r' : Request κ} (h : r.Agrees r') : r'.Agrees r := by
  obtain ⟨k, hr, hr', htext⟩ := h
  exact ⟨k, hr', hr, htext.symm⟩

end Request

namespace Interners

variable [DecidableEq κ]

def empty : Interners κ := ⟨0, fun _ => []⟩

def interner (w : Interners κ) (k : κ) : Interner := ⟨w.made, w.tables k⟩

/-- The answer of an interner, which is left like `answered.2`. -/
def resume (w : Interners κ) (k : κ) (answered : Interned × Interner) : Interned × Interners κ :=
  (answered.1, ⟨answered.2.made, Function.update w.tables k answered.2.table⟩)

def answer (w : Interners κ) : Request κ → Interned × Interners κ
  | .intern k written => w.resume k ((w.interner k).intern written)
  | .internDotted k written => w.resume k ((w.interner k).internDotted written)
  | .make written =>
    let (copy, beside) := Interner.make ⟨w.made, []⟩ written
    (copy, { w with made := beside.made })

/-- Answers the request, after those that were answered before. -/
def step (s : Interners κ × List (Request κ × Interned)) (r : Request κ) :
    Interners κ × List (Request κ × Interned) :=
  let (copy, w) := s.1.answer r
  (w, s.2 ++ [(r, copy)])

/-- The interners after the requests, and each request with its answer. -/
def run (rs : List (Request κ)) : Interners κ × List (Request κ × Interned) := rs.foldl step (empty, [])

end Interners

/-! ## One answer -/

/-- An interner hands out what is in its table, or makes what is not. -/
theorem Interner.intern_cases (i : Interner) (text : String) :
    (∃ copy ∈ i.table, copy.text = text ∧ i.intern text = (copy, i)) ∨
      ((∀ copy ∈ i.table, copy.text ≠ text) ∧
        i.intern text = (⟨i.made, text⟩, ⟨i.made + 1, ⟨i.made, text⟩ :: i.table⟩)) := by
  unfold intern find?
  cases hfind : i.table.find? (·.text == text) with
  | some copy =>
    have htext : copy.text = text := by simpa using List.find?_some hfind
    exact .inl ⟨copy, List.mem_of_find?_eq_some hfind, htext, rfl⟩
  | none =>
    have hmissing := List.find?_eq_none.mp hfind
    exact .inr ⟨fun copy hcopy heq => hmissing copy hcopy (beq_iff_eq.mpr heq), rfl⟩

namespace Interners

variable [DecidableEq κ]

/-- What an answer does to the interners. Only a request of an interner changes a table, its own. -/
inductive Answers (w : Interners κ) (r : Request κ) : Interned → Interners κ → Prop
  | found {k : κ} {copy : Interned} (asked : r.interner? = some k) (known : copy ∈ w.tables k)
      (text : copy.text = r.text) : Answers w r copy w
  | interned {k : κ} (asked : r.interner? = some k) (unknown : ∀ copy ∈ w.tables k, copy.text ≠ r.text) :
      Answers w r ⟨w.made, r.text⟩ ⟨w.made + 1, Function.update w.tables k (⟨w.made, r.text⟩ :: w.tables k)⟩
  | made (asked : r.interner? = none) : Answers w r ⟨w.made, r.text⟩ { w with made := w.made + 1 }

theorem answers_intern (w : Interners κ) {r : Request κ} {k : κ} (asked : r.interner? = some k) :
    w.Answers r (w.resume k ((w.interner k).intern r.text)).1 (w.resume k ((w.interner k).intern r.text)).2 := by
  rcases (w.interner k).intern_cases r.text with ⟨copy, hknown, htext, heq⟩ | ⟨hunknown, heq⟩
  · have hsame : w.resume k (copy, w.interner k) = (copy, w) := by
      simp only [resume, interner, Function.update_eq_self]
    rw [heq, hsame]
    exact .found asked hknown htext
  · rw [heq]
    exact .interned asked hunknown

theorem answers_answer (w : Interners κ) (r : Request κ) : w.Answers r (w.answer r).1 (w.answer r).2 := by
  cases r with
  | intern k written => exact w.answers_intern (r := .intern k written) rfl
  | internDotted k written => exact w.answers_intern (r := .internDotted k written) rfl
  | make written => exact .made (r := .make written) rfl

/-! ## All answers -/

section Knows

omit [DecidableEq κ]

/-- The answers share just if the requests agree. -/
def SharesRightly (x y : Request κ × Interned) : Prop := x.2.cell = y.2.cell ↔ x.1.Agrees y.1

instance : Std.Symm (SharesRightly (κ := κ)) where
  symm _ _ h := ⟨fun heq => (h.mp heq.symm).symm, fun ha => (h.mpr ha.symm).symm⟩

/-- These are the answers that the interners have given so far. -/
structure Knows (w : Interners κ) (answers : List (Request κ × Interned)) : Prop where
  below : ∀ r copy, (r, copy) ∈ answers → copy.cell < w.made
  texts : ∀ r copy, (r, copy) ∈ answers → copy.text = r.text
  tables : ∀ k copy, copy ∈ w.tables k ↔ ∃ r, (r, copy) ∈ answers ∧ r.interner? = some k
  distinct : ∀ k, ((w.tables k).map Interned.text).Nodup
  shared : answers.Pairwise SharesRightly

variable {w w' : Interners κ} {answers : List (Request κ × Interned)} {r r' : Request κ} {copy copy' : Interned} {k : κ}

theorem Knows.empty : (empty : Interners κ).Knows [] where
  below := fun _ _ h => nomatch h
  texts := fun _ _ h => nomatch h
  tables := fun _ _ => iff_of_false (fun h => nomatch h) fun ⟨_, h, _⟩ => nomatch h
  distinct := fun _ => List.nodup_nil
  shared := List.Pairwise.nil

/-- A copy of this text that the interner knows shares with all answers to requests of the interner for the text. -/
theorem Knows.sharesRightly_known (h : w.Knows answers) (asked : r.interner? = some k) (known : copy ∈ w.tables k)
    (text : copy.text = r.text) (hr' : (r', copy') ∈ answers) : SharesRightly (r', copy') (r, copy) := by
  constructor
  · intro hcell
    obtain ⟨r₀, hr₀, hk₀⟩ := (h.tables k copy).mp known
    have htext₀ : r₀.text = r.text := (h.texts r₀ copy hr₀).symm.trans text
    by_cases heq : (r', copy') = (r₀, copy)
    · cases heq
      exact ⟨k, hk₀, asked, htext₀⟩
    · obtain ⟨k', hk', hk₀', htext⟩ := (h.shared.forall hr' hr₀ heq).mp hcell
      cases hk₀.symm.trans hk₀'
      exact ⟨k, hk', asked, htext.trans htext₀⟩
  · rintro ⟨k', hk', hk, htext⟩
    cases asked.symm.trans hk
    have hknown : copy' ∈ w.tables k := (h.tables k copy').mpr ⟨r', hr', hk'⟩
    have hsame : copy'.text = copy.text := (h.texts r' copy' hr').trans (htext.trans text.symm)
    exact congrArg Interned.cell (List.inj_on_of_nodup_map (h.distinct k) hknown known hsame)

/-- A copy that is made now shares with none, if no interner that is asked knows the text. -/
theorem Knows.sharesRightly_new (h : w.Knows answers)
    (unknown : ∀ k, r.interner? = some k → ∀ copy ∈ w.tables k, copy.text ≠ r.text) (hr' : (r', copy') ∈ answers) :
    SharesRightly (r', copy') (r, ⟨w.made, r.text⟩) := by
  refine iff_of_false (Nat.ne_of_lt (h.below r' copy' hr')) fun ⟨k, hk', hk, htext⟩ => ?_
  exact unknown k hk copy' ((h.tables k copy').mpr ⟨r', hr', hk'⟩) ((h.texts r' copy' hr').trans htext)

/-- One more answer, if the tables have it where it was asked for. -/
theorem Knows.concat (h : w.Knows answers) (made : w.made ≤ w'.made) (below : copy.cell < w'.made)
    (text : copy.text = r.text)
    (tables : ∀ k c, c ∈ w'.tables k ↔ c ∈ w.tables k ∨ r.interner? = some k ∧ c = copy)
    (distinct : ∀ k, ((w'.tables k).map Interned.text).Nodup)
    (shared : ∀ r' c, (r', c) ∈ answers → SharesRightly (r', c) (r, copy)) : w'.Knows (answers ++ [(r, copy)]) := by
  have hmem {r' : Request κ} {c : Interned} : (r', c) ∈ answers ++ [(r, copy)] ↔
      (r', c) ∈ answers ∨ r' = r ∧ c = copy := by
    rw [List.mem_append, List.mem_singleton, Prod.mk.injEq]
  refine ⟨fun r' c h' => ?_, fun r' c h' => ?_, fun k c => ?_, distinct, ?_⟩
  · rcases hmem.mp h' with h' | ⟨-, rfl⟩
    · exact Nat.lt_of_lt_of_le (h.below r' c h') made
    · exact below
  · rcases hmem.mp h' with h' | ⟨rfl, rfl⟩
    · exact h.texts r' c h'
    · exact text
  · rw [tables, h.tables]
    constructor
    · rintro (⟨r', h', hk⟩ | ⟨hk, rfl⟩)
      · exact ⟨r', hmem.mpr (.inl h'), hk⟩
      · exact ⟨r, hmem.mpr (.inr ⟨rfl, rfl⟩), hk⟩
    · rintro ⟨r', h', hk⟩
      rcases hmem.mp h' with h' | ⟨rfl, rfl⟩
      · exact .inl ⟨r', h', hk⟩
      · exact .inr ⟨hk, rfl⟩
  · refine List.pairwise_append.mpr ⟨h.shared, List.pairwise_singleton _ _, fun x hx y hy => ?_⟩
    rw [List.mem_singleton.mp hy]
    exact shared x.1 x.2 hx

/-- One copy has one text. -/
theorem Knows.equals_iff (h : w.Knows answers) (hr : (r, copy) ∈ answers) (hr' : (r', copy') ∈ answers) :
    copy.equals copy' = true ↔ copy.text = copy'.text := by
  have hcell (heq : copy.cell = copy'.cell) : copy.text = copy'.text := by
    by_cases hsame : (r, copy) = (r', copy')
    · cases hsame
      rfl
    · obtain ⟨_, -, -, htext⟩ := (h.shared.forall hr hr' hsame).mp heq
      rw [h.texts r copy hr, h.texts r' copy' hr', htext]
  simp only [Interned.equals, Interned.shares, Bool.or_eq_true, beq_iff_eq]
  exact ⟨fun heq => heq.elim hcell id, .inr⟩

/-- Answers share if they are one, or the requests agree. -/
theorem Knows.shares_iff (h : w.Knows answers) {i j : Nat} (hi : answers[i]? = some (r, copy))
    (hj : answers[j]? = some (r', copy')) : copy.shares copy' = true ↔ i = j ∨ r.Agrees r' := by
  have hshared := List.pairwise_iff_getElem.mp h.shared
  obtain ⟨hi', hri⟩ := List.getElem?_eq_some_iff.mp hi
  obtain ⟨hj', hrj⟩ := List.getElem?_eq_some_iff.mp hj
  rw [Interned.shares, beq_iff_eq]
  rcases Nat.lt_trichotomy i j with hlt | rfl | hgt
  · have hright := hshared i j hi' hj' hlt
    rw [hri, hrj] at hright
    exact hright.trans (or_iff_right (Nat.ne_of_lt hlt)).symm
  · cases hi.symm.trans hj
    exact iff_of_true rfl (.inl rfl)
  · have hright := hshared j i hj' hi' hgt
    rw [hri, hrj] at hright
    exact (symm hright : SharesRightly (r, copy) (r', copy')).trans (or_iff_right (Nat.ne_of_gt hgt)).symm

end Knows

theorem Knows.step {w w' : Interners κ} {answers : List (Request κ × Interned)} {r : Request κ} {copy : Interned}
    (h : w.Knows answers) (ha : w.Answers r copy w') : w'.Knows (answers ++ [(r, copy)]) := by
  cases ha with
  | @found k _ asked known text =>
    obtain ⟨r₀, hr₀, -⟩ := (h.tables k copy).mp known
    refine h.concat (Nat.le_refl _) (h.below r₀ copy hr₀) text (fun k' c => ?_) h.distinct
      fun _ _ => h.sharesRightly_known asked known text
    refine ⟨.inl, ?_⟩
    rintro (hc | ⟨hk', rfl⟩)
    · exact hc
    · cases asked.symm.trans hk'
      exact known
  | @interned k asked unknown =>
    refine h.concat (Nat.le_succ _) (Nat.lt_succ_self _) rfl (fun k' c => ?_) (fun k' => ?_)
      fun _ _ => h.sharesRightly_new fun k' hk' => ?_
    · by_cases hk : k' = k
      · subst hk
        simp only [Function.update_self, List.mem_cons, asked, true_and]
        exact or_comm
      · have hother : r.interner? ≠ some k' := fun hk' => hk (Option.some.inj (hk'.symm.trans asked))
        simp only [Function.update_of_ne hk, hother, false_and, or_false]
    · by_cases hk : k' = k
      · subst hk
        simp only [Function.update_self, List.map_cons, List.nodup_cons]
        refine ⟨fun hmem => ?_, h.distinct k'⟩
        obtain ⟨c, hc, htext⟩ := List.mem_map.mp hmem
        exact unknown c hc htext
      · simp only [Function.update_of_ne hk]
        exact h.distinct k'
    · cases asked.symm.trans hk'
      exact unknown
  | made asked =>
    refine h.concat (Nat.le_succ _) (Nat.lt_succ_self _) rfl (fun k c => ?_) h.distinct
      fun _ _ => h.sharesRightly_new fun k hk => ?_
    · simp only [asked, reduceCtorEq, false_and, or_false]
    · cases asked.symm.trans hk

theorem run_concat (rs : List (Request κ)) (r : Request κ) : run (rs ++ [r]) =
    (((run rs).1.answer r).2, (run rs).2 ++ [(r, ((run rs).1.answer r).1)]) :=
  List.foldl_concat ..

theorem knows_run (rs : List (Request κ)) : (run rs).1.Knows (run rs).2 := by
  induction rs using List.reverseRecOn with
  | nil => exact Knows.empty
  | append_singleton rs r ih =>
    rw [run_concat]
    exact ih.step ((run rs).1.answers_answer r)

theorem requests_run (rs : List (Request κ)) : (run rs).2.map Prod.fst = rs := by
  induction rs using List.reverseRecOn with
  | nil => rfl
  | append_singleton rs r ih =>
    rw [run_concat, List.map_append, ih]
    rfl

/-- The texts that the interner was asked for. -/
def textsOf (k : κ) (rs : List (Request κ)) : List String := (rs.filter (·.interner? = some k)).map Request.text

/-- The table has each text once that was asked for. -/
theorem size_run (rs : List (Request κ)) (k : κ) : ((run rs).1.interner k).size = (textsOf k rs).toFinset.card := by
  have h := knows_run rs
  have htexts : (((run rs).1.tables k).map Interned.text).toFinset = (textsOf k rs).toFinset := by
    ext text
    simp only [List.mem_toFinset, List.mem_map, textsOf, List.mem_filter, decide_eq_true_eq]
    constructor
    · rintro ⟨copy, hcopy, rfl⟩
      obtain ⟨r, hr, hk⟩ := (h.tables k copy).mp hcopy
      have hasked := List.mem_map_of_mem (f := Prod.fst) hr
      rw [requests_run] at hasked
      exact ⟨r, ⟨hasked, hk⟩, (h.texts r copy hr).symm⟩
    · rintro ⟨r, ⟨hasked, hk⟩, rfl⟩
      rw [← requests_run rs] at hasked
      obtain ⟨⟨_, copy⟩, hr, rfl⟩ := List.mem_map.mp hasked
      exact ⟨copy, (h.tables k copy).mpr ⟨_, hr, hk⟩, h.texts _ copy hr⟩
  rw [← htexts, List.toFinset_card_of_nodup (h.distinct k), List.length_map]
  rfl

end Interners

/-- Whatever is asked for, of several interners and beside them: each answer is a copy of the text that was asked
    for, with `.` for `/` where that was asked for too. Two answers share just if one interner was asked for one
    text; an answer from beside the interners shares with no other. They are equal just if they have the same
    text, wherever they come from. The size of each interner is the number of different texts it was asked for. -/
theorem interning_is_canonical [DecidableEq κ] (rs : List (Request κ)) :
    (Interners.run rs).2.map Prod.fst = rs ∧
    (∀ r copy, (r, copy) ∈ (Interners.run rs).2 → copy.text = r.text) ∧
    (∀ (i j : Nat) r r' copy copy', (Interners.run rs).2[i]? = some (r, copy) →
      (Interners.run rs).2[j]? = some (r', copy') →
        (copy.shares copy' = true ↔ i = j ∨ r.Agrees r') ∧ (copy.equals copy' = true ↔ r.text = r'.text)) ∧
    ∀ k, ((Interners.run rs).1.interner k).size = (Interners.textsOf k rs).toFinset.card := by
  have h := Interners.knows_run rs
  refine ⟨Interners.requests_run rs, h.texts, fun i j r r' copy copy' hi hj => ⟨h.shares_iff hi hj, ?_⟩,
    Interners.size_run rs⟩
  have hr := List.mem_of_getElem? hi
  have hr' := List.mem_of_getElem? hj
  rw [h.equals_iff hr hr', h.texts r copy hr, h.texts r' copy' hr']

/-- One text by two routes, of two interners, and beside them. -/
def fourRequests : List (Request Bool) :=
  [.internDotted true "a/b", .intern true "a.b", .intern false "a.b", .make "a.b"]

/-- Only the first two share, and all four are equal. -/
theorem interning_is_canonical_four : ∃ a b c d, (Interners.run fourRequests).2.map Prod.snd = [a, b, c, d] ∧
    a.shares b = true ∧ ¬b.shares c = true ∧ ¬c.shares d = true ∧ a.equals d = true := by
  obtain ⟨hrequests, -, hpairs, -⟩ := interning_is_canonical fourRequests
  match hrun : (Interners.run fourRequests).2, hrequests with
  | [(_, a), (_, b), (_, c), (_, d)], rfl =>
    rw [hrun] at hpairs
    refine ⟨a, b, c, d, rfl, ?_, ?_, ?_, ?_⟩
    · exact (hpairs 0 1 _ _ _ _ rfl rfl).1.mpr (.inr ⟨true, rfl, rfl, by decide +kernel⟩)
    · rw [(hpairs 1 2 _ _ _ _ rfl rfl).1]
      rintro (heq | ⟨k, hasked, hasked', -⟩)
      · cases heq
      · cases Option.some.inj hasked
        cases Option.some.inj hasked'
    · rw [(hpairs 2 3 _ _ _ _ rfl rfl).1]
      rintro (heq | ⟨k, -, hbeside, -⟩)
      · cases heq
      · cases hbeside
    · exact (hpairs 0 3 _ _ _ _ rfl rfl).2.mpr (by decide +kernel)

/-! ## Copies as keys -/

/-- A copy that is the answer to one of the requests. -/
def Copy [DecidableEq κ] (rs : List (Request κ)) : Type := { copy : Interned // ∃ r, (r, copy) ∈ (Interners.run rs).2 }

namespace Copy

variable [DecidableEq κ] {rs : List (Request κ)}

instance : BEq (Copy rs) := ⟨fun a b => a.1.equals b.1⟩

/-- Copies are hashed by their texts. -/
instance : Hashable (Copy rs) := ⟨fun a => hash a.1.text⟩

theorem beq_iff (a b : Copy rs) : (a == b) = true ↔ a.1.text = b.1.text := by
  obtain ⟨_, _, ha⟩ := a
  obtain ⟨_, _, hb⟩ := b
  exact (Interners.knows_run rs).equals_iff ha hb

instance : EquivBEq (Copy rs) where
  rfl {a} := (beq_iff a a).mpr rfl
  symm {a b} h := (beq_iff b a).mpr ((beq_iff a b).mp h).symm
  trans {a b c} h h' := (beq_iff a c).mpr (((beq_iff a b).mp h).trans ((beq_iff b c).mp h'))

instance : LawfulHashable (Copy rs) where
  hash_eq a b h := congrArg (hash : String → UInt64) ((beq_iff a b).mp h)

/-- Names can be compared by their texts, whoever interned them. -/
theorem hasDuplicates_texts (l : List (Copy rs)) : hasDuplicates (l.map fun copy => copy.1.text) = hasDuplicates l := by
  have hdiffer (a b : Copy rs) : (a.1.text == b.1.text) = false ↔ (a == b) = false := by
    rw [beq_eq_false_iff_ne, ← Bool.not_eq_true, beq_iff]
  rw [Bool.eq_iff_iff, hasDuplicates_eq_true_iff, hasDuplicates_eq_true_iff, ← not_iff_not, not_repeats_iff_pairwise,
    not_repeats_iff_pairwise, List.pairwise_map]
  simp only [hdiffer]

end Copy

end JvmClass
