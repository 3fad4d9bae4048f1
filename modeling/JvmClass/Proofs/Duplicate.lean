/-
  JvmClass.Proofs.Duplicate — repetitions are found at every length.

  Equality need not be identity here: it is an equivalence that the hash does not see through. A list has a
  repetition if two of its positions hold equal elements (`Repeats`). Going through what follows each element
  finds one exactly if there is one (`hasDuplicatesPairwise_eq_true_iff`), and so does going through what was
  seen before it (`hasDuplicatesHashed_eq_true_iff`); hence it does not matter which of the two is taken
  (`hasDuplicates_eq_true_iff`).
-/

import JvmClass.Duplicate
import Mathlib.Logic.Basic

namespace JvmClass

variable {α : Type} [BEq α]

/-- Two different positions hold equal elements. -/
def Repeats (l : List α) : Prop :=
  ∃ (i j : Nat) (a b : α), i ≠ j ∧ l[i]? = some a ∧ l[j]? = some b ∧ (a == b) = true

/-- Each element differs from all that follow it. -/
theorem not_repeats_iff_pairwise [EquivBEq α] {l : List α} : ¬Repeats l ↔ l.Pairwise fun a b => (a == b) = false := by
  rw [List.pairwise_iff_getElem]
  constructor
  · intro h i j hi hj hlt
    rw [← Bool.not_eq_true]
    exact fun heq => h ⟨i, j, _, _, Nat.ne_of_lt hlt, List.getElem?_eq_getElem hi, List.getElem?_eq_getElem hj, heq⟩
  · rintro h ⟨i, j, a, b, hne, ha, hb, heq⟩
    obtain ⟨hi, rfl⟩ := List.getElem?_eq_some_iff.mp ha
    obtain ⟨hj, rfl⟩ := List.getElem?_eq_some_iff.mp hb
    rcases Nat.lt_or_gt_of_ne hne with hlt | hgt
    · cases heq.symm.trans (h i j hi hj hlt)
    · cases (BEq.symm heq).symm.trans (h j i hj hi hgt)

theorem hasDuplicatesPairwise_eq_false_iff_pairwise {l : List α} :
    hasDuplicatesPairwise l = false ↔ l.Pairwise fun a b => (a == b) = false := by
  induction l with
  | nil => simp [hasDuplicatesPairwise]
  | cons a l ih => simp [hasDuplicatesPairwise, ih, List.contains_eq_any_beq]

theorem hasDuplicatesPairwise_eq_true_iff [EquivBEq α] {l : List α} : hasDuplicatesPairwise l = true ↔ Repeats l := by
  rw [← not_iff_not, not_repeats_iff_pairwise, Bool.not_eq_true, hasDuplicatesPairwise_eq_false_iff_pairwise]

variable [EquivBEq α] [Hashable α] [LawfulHashable α]

/-- Nothing in the list was seen before it, or twice in it. -/
theorem repeatsAfter_eq_false_iff {seen : Std.HashSet α} {l : List α} : repeatsAfter seen l = false ↔
    (∀ a ∈ l, seen.contains a = false) ∧ l.Pairwise fun a b => (a == b) = false := by
  induction l generalizing seen with
  | nil => simp [repeatsAfter]
  | cons a l ih =>
    simp only [repeatsAfter, Bool.or_eq_false_iff, ih, Std.HashSet.contains_insert, List.forall_mem_cons,
      List.pairwise_cons]
    constructor
    · rintro ⟨ha, hrest, hpairwise⟩
      exact ⟨⟨ha, fun b hb => (hrest b hb).2⟩, fun b hb => (hrest b hb).1, hpairwise⟩
    · rintro ⟨⟨ha, hrest⟩, hfirst, hpairwise⟩
      exact ⟨ha, fun b hb => ⟨hfirst b hb, hrest b hb⟩, hpairwise⟩

theorem hasDuplicatesHashed_eq_true_iff {l : List α} : hasDuplicatesHashed l = true ↔ Repeats l := by
  rw [← not_iff_not, not_repeats_iff_pairwise, Bool.not_eq_true, hasDuplicatesHashed, repeatsAfter_eq_false_iff]
  exact and_iff_right fun _ _ => Std.HashSet.contains_empty

theorem hasDuplicates_eq_true_iff {l : List α} : hasDuplicates l = true ↔ Repeats l := by
  unfold hasDuplicates
  split
  · exact hasDuplicatesPairwise_eq_true_iff
  · exact hasDuplicatesHashed_eq_true_iff

omit [EquivBEq α] [LawfulHashable α]

/-- Where equal elements are the same. -/
theorem hasDuplicates_eq_false_iff [LawfulBEq α] {l : List α} : hasDuplicates l = false ↔ l.Nodup := by
  rw [← Bool.not_eq_true, hasDuplicates_eq_true_iff, not_repeats_iff_pairwise]
  simp only [beq_eq_false_iff_ne, List.Nodup]

end JvmClass
