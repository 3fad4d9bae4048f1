/-
  JvmClass.Proofs.BufferPool — a buffer holds what its holder put there.

  Buffers are taken, filled and dropped in any order, with any number of them out at once (`BufferPool.run`).
  What a use does to the buffers that are out is said once, by their contents (`contents?_take` and those after
  it); which buffers are out (`live`) follows. A buffer is empty when it is taken, because the pool keeps none
  but empty ones (`IsClear`).
  - `buffers_are_kept_apart`: in a buffer that is out is what was pushed to it since it was taken, and the pool
    has made as many buffers as were ever out together.
-/

import JvmClass.BufferPool
import Mathlib.Data.Finset.Card
import Mathlib.Data.List.Induction
import Mathlib.Order.Bounds.Basic

namespace JvmClass

namespace BufferPool

variable {α : Type}

/-! ## Uses -/

inductive Use (α : Type)
  | take
  | push (buffer : Nat) (a : α)
  | drop (buffer : Nat)

namespace Use

def isTake : Use α → Bool
  | take => true
  | push .. | drop _ => false

def pushed? (buffer : Nat) : Use α → Option α
  | push buffer' a => if buffer' = buffer then some a else none
  | take | drop _ => none

/-- How many buffers are taken. -/
def takes (uses : List (Use α)) : Nat := uses.countP isTake

/-- What is pushed to the buffer, oldest first. -/
def pushes (buffer : Nat) (uses : List (Use α)) : List α := uses.filterMap (pushed? buffer)

/-- The buffer was taken and not dropped, and this was pushed to it in the meantime. -/
def Holds (uses : List (Use α)) (buffer : Nat) (held : List α) : Prop :=
  ∃ before after, uses = before ++ take :: after ∧ takes before = buffer ∧ drop buffer ∉ after ∧
    pushes buffer after = held

/-- Buffers are numbered as they are taken. -/
theorem exists_of_lt_takes {uses : List (Use α)} {buffer : Nat} (h : buffer < takes uses) :
    ∃ before after, uses = before ++ take :: after ∧ takes before = buffer := by
  induction uses using List.reverseRecOn with
  | nil => cases h
  | append_singleton uses use ih =>
    by_cases hlt : buffer < takes uses
    · obtain ⟨before, after, rfl, hbefore⟩ := ih hlt
      exact ⟨before, after ++ [use], by rw [List.append_assoc, List.cons_append], hbefore⟩
    rw [takes, List.countP_append, ← takes] at h
    cases use with
    | take => exact ⟨uses, [], rfl, Nat.le_antisymm (Nat.le_of_not_lt hlt) (Nat.le_of_lt_succ h)⟩
    | push _ _ => exact absurd h hlt
    | drop _ => exact absurd h hlt

end Use

def step (pool : BufferPool α) : Use α → BufferPool α
  | .take => pool.take
  | .push buffer a => pool.push buffer a
  | .drop buffer => pool.drop buffer

def run (uses : List (Use α)) : BufferPool α := uses.foldl step empty

theorem run_concat (uses : List (Use α)) (use : Use α) : run (uses ++ [use]) = (run uses).step use :=
  List.foldl_concat ..

/-- The buffers that are out. -/
def live (pool : BufferPool α) : Finset Nat := {buffer ∈ Finset.range pool.lent.size | (pool.contents? buffer).isSome}

/-- The number of buffers there are, idle and out. -/
def total (pool : BufferPool α) : Nat := pool.idleCount + pool.live.card

/-- How many buffers were out together, at one time or another. -/
def liveCounts (uses : List (Use α)) : Set Nat := {n | ∃ before, before <+: uses ∧ (run before).live.card = n}

/-! ## One use -/

variable {pool : BufferPool α} {buffer buffer' : Nat} {a : α} {use : Use α}

theorem contents?_eq_none (h : pool.lent.size ≤ buffer) : pool.contents? buffer = none := by
  rw [contents?, Array.getElem?_eq_none h]
  rfl

/-- The new buffer comes from the idle ones, if there are any. -/
theorem take_eq (pool : BufferPool α) :
    pool.take = ⟨pool.idle.tail, pool.lent.push (some (pool.idle.head?.getD []))⟩ := by
  obtain ⟨idle, lent⟩ := pool
  cases idle with
  | nil => rfl
  | cons buffer rest => rfl

theorem drop_eq (pool : BufferPool α) (buffer : Nat) : pool.drop buffer =
    if (pool.contents? buffer).isSome then ⟨[] :: pool.idle, pool.lent.modify buffer fun _ => none⟩ else pool := by
  unfold drop
  cases pool.contents? buffer with
  | none => rfl
  | some held => rfl

theorem contents?_take : pool.take.contents? buffer =
    if buffer = pool.lent.size then some (pool.idle.head?.getD []) else pool.contents? buffer := by
  rw [take_eq, contents?, Array.getElem?_push]
  exact apply_ite Option.join ..

theorem contents?_push : (pool.push buffer a).contents? buffer' =
    if buffer = buffer' then (pool.contents? buffer').map (· ++ [a]) else pool.contents? buffer' := by
  simp only [push, contents?, Array.getElem?_modify, apply_ite Option.join, Option.join_map_eq_map_join]

theorem contents?_drop : (pool.drop buffer).contents? buffer' =
    if buffer = buffer' then none else pool.contents? buffer' := by
  rw [drop_eq]
  by_cases hout : (pool.contents? buffer).isSome
  · have hback : (pool.lent[buffer']?.map fun _ => (none : Option (List α))).join = none := by
      cases pool.lent[buffer']? <;> rfl
    rw [if_pos hout]
    simp only [contents?, Array.getElem?_modify, apply_ite Option.join, hback]
  · rw [if_neg hout]
    split
    · rename_i heq
      rw [← heq]
      exact Option.not_isSome_iff_eq_none.mp hout
    · rfl

/-- A buffer that was taken before keeps what it holds, but for what is pushed to it. -/
theorem contents?_step (hbuffer : buffer < pool.lent.size) (huse : use ≠ .drop buffer) :
    (pool.step use).contents? buffer = (pool.contents? buffer).map (· ++ Use.pushes buffer [use]) := by
  have hsame : (pool.contents? buffer).map (· ++ []) = pool.contents? buffer := by
    simp only [List.append_nil, Option.map_id']
  cases use with
  | take => exact (contents?_take.trans (if_neg (Nat.ne_of_lt hbuffer))).trans hsame.symm
  | push buffer' a =>
    refine contents?_push.trans ?_
    by_cases heq : buffer' = buffer
    · simp only [Use.pushes, List.filterMap_cons, Use.pushed?, heq, if_true, List.filterMap_nil]
    · simp only [Use.pushes, List.filterMap_cons, Use.pushed?, heq, if_false, List.filterMap_nil, hsame]
  | drop buffer' =>
    have hother : buffer' ≠ buffer := fun heq => huse (congrArg Use.drop heq)
    exact (contents?_drop.trans (if_neg hother)).trans hsame.symm

theorem size_step : (pool.step use).lent.size = pool.lent.size + Use.takes [use] := by
  cases use with
  | take => rw [step, take_eq]; exact Array.size_push _
  | push buffer a => exact Array.size_modify
  | drop buffer =>
    rw [step, drop_eq]
    split
    · exact Array.size_modify
    · rfl

/-- The pool keeps no contents. -/
def IsClear (pool : BufferPool α) : Prop := ∀ buffer ∈ pool.idle, buffer = []

theorem IsClear.step (h : pool.IsClear) : (pool.step use).IsClear := by
  cases use with
  | take =>
    rw [BufferPool.step, take_eq]
    exact fun buffer hbuffer => h buffer (List.mem_of_mem_tail hbuffer)
  | push buffer a => exact h
  | drop buffer =>
    rw [BufferPool.step, drop_eq]
    split
    · exact List.forall_mem_cons.mpr ⟨rfl, h⟩
    · exact h

theorem IsClear.contents?_take (h : pool.IsClear) : pool.take.contents? pool.lent.size = some [] := by
  rw [BufferPool.contents?_take, if_pos rfl]
  cases hidle : pool.idle.head? with
  | none => rfl
  | some buffer => exact congrArg some (h buffer (List.mem_of_head? hidle))

/-! ## Counts -/

theorem mem_live : buffer ∈ pool.live ↔ (pool.contents? buffer).isSome = true := by
  rw [live, Finset.mem_filter, Finset.mem_range]
  refine and_iff_right_of_imp fun hsome => Nat.lt_of_not_le fun hle => ?_
  rw [contents?_eq_none hle] at hsome
  cases hsome

theorem live_take : pool.take.live = insert pool.lent.size pool.live := by
  ext buffer
  rw [Finset.mem_insert, mem_live, mem_live, contents?_take]
  split
  · rename_i heq
    exact iff_of_true rfl (.inl heq)
  · rename_i hne
    exact (or_iff_right hne).symm

theorem live_push : (pool.push buffer a).live = pool.live := by
  ext buffer'
  rw [mem_live, mem_live, contents?_push]
  split
  · rw [Option.isSome_map]
  · rfl

theorem live_drop : (pool.drop buffer).live = pool.live.erase buffer := by
  ext buffer'
  rw [Finset.mem_erase, mem_live, mem_live, contents?_drop]
  split
  · rename_i heq
    exact iff_of_false Bool.false_ne_true fun h => h.1 heq.symm
  · rename_i hne
    exact (and_iff_right (Ne.symm hne)).symm

/-- A buffer is made only when all are out. -/
theorem total_step : (pool.step use).total = max (pool.step use).live.card pool.total := by
  cases use with
  | take =>
    have hnew : pool.lent.size ∉ pool.live := by
      rw [mem_live, contents?_eq_none (Nat.le_refl _)]
      exact Bool.false_ne_true
    have hcard : pool.take.live.card = pool.live.card + 1 := by rw [live_take, Finset.card_insert_of_notMem hnew]
    have hidle : pool.take.idleCount = pool.idleCount - 1 := by
      rw [take_eq]
      exact List.length_tail
    simp only [step, total, hcard, hidle]
    omega
  | push buffer a =>
    have hsame : (pool.push buffer a).total = pool.total := by
      rw [total, live_push]
      rfl
    have hlive : (pool.push buffer a).live.card ≤ pool.total := by
      rw [live_push]
      exact Nat.le_add_left _ _
    exact hsame.trans (Nat.max_eq_right hlive).symm
  | drop buffer =>
    have hsame : (pool.drop buffer).total = pool.total := by
      rw [total, live_drop, drop_eq]
      split
      · rename_i hlive
        have hcard := Finset.card_erase_add_one (mem_live.mpr hlive)
        simp only [idleCount, List.length_cons, total]
        omega
      · rename_i hback
        rw [Finset.erase_eq_of_notMem (mt mem_live.mp hback)]
        rfl
    have hlive : (pool.drop buffer).live.card ≤ (pool.drop buffer).total := Nat.le_add_left _ _
    exact hsame.trans (Nat.max_eq_right (hsame ▸ hlive)).symm

theorem liveCounts_concat (uses : List (Use α)) (use : Use α) :
    liveCounts (uses ++ [use]) = insert ((run uses).step use).live.card (liveCounts uses) := by
  ext n
  rw [Set.mem_insert_iff, ← run_concat]
  constructor
  · rintro ⟨before, hbefore, rfl⟩
    rcases List.prefix_concat_iff.mp hbefore with rfl | hbefore
    · exact .inl rfl
    · exact .inr ⟨before, hbefore, rfl⟩
  · rintro (rfl | ⟨before, hbefore, rfl⟩)
    · exact ⟨uses ++ [use], List.prefix_rfl, rfl⟩
    · exact ⟨before, hbefore.trans (List.prefix_append uses [use]), rfl⟩

theorem isGreatest_total_run (uses : List (Use α)) : IsGreatest (liveCounts uses) (run uses).total := by
  induction uses using List.reverseRecOn with
  | nil =>
    refine ⟨⟨[], List.prefix_rfl, rfl⟩, ?_⟩
    rintro n ⟨before, hbefore, rfl⟩
    rw [List.prefix_nil.mp hbefore]
    exact Nat.le_refl _
  | append_singleton uses use ih =>
    rw [liveCounts_concat, run_concat, total_step]
    exact ih.insert _

theorem total_run_le (uses more : List (Use α)) : (run uses).total ≤ (run (uses ++ more)).total := by
  refine (isGreatest_total_run uses).mono (isGreatest_total_run (uses ++ more)) ?_
  rintro n ⟨before, hbefore, hn⟩
  exact ⟨before, hbefore.trans (List.prefix_append uses more), hn⟩

/-! ## Contents -/

theorem size_run (uses : List (Use α)) : (run uses).lent.size = Use.takes uses := by
  induction uses using List.reverseRecOn with
  | nil => rfl
  | append_singleton uses use ih => rw [run_concat, size_step, ih, Use.takes, Use.takes, Use.takes, List.countP_append]

theorem isClear_run (uses : List (Use α)) : (run uses).IsClear := by
  induction uses using List.reverseRecOn with
  | nil => exact fun _ h => nomatch h
  | append_singleton uses use ih =>
    rw [run_concat]
    exact ih.step

theorem contents?_run_take (uses : List (Use α)) : (run (uses ++ [.take])).contents? (Use.takes uses) = some [] := by
  rw [run_concat, ← size_run]
  exact (isClear_run uses).contents?_take

/-- The induction is on what happens since the buffer was taken. -/
theorem contents?_run_eq_some_iff {before after : List (Use α)} {held : List α} :
    (run (before ++ .take :: after)).contents? (Use.takes before) = some held ↔
      .drop (Use.takes before) ∉ after ∧ Use.pushes (Use.takes before) after = held := by
  induction after using List.reverseRecOn generalizing held with
  | nil =>
    rw [contents?_run_take, Option.some.injEq]
    exact (and_iff_right List.not_mem_nil).symm
  | append_singleton after use ih =>
    have hsplit : before ++ .take :: (after ++ [use]) = (before ++ .take :: after) ++ [use] := by
      rw [List.append_assoc, List.cons_append]
    have htaken : Use.takes before < (run (before ++ .take :: after)).lent.size := by
      rw [size_run]
      simp only [Use.takes, List.countP_append, List.countP_cons, Use.isTake, if_true]
      omega
    rw [hsplit, run_concat]
    by_cases hdrop : use = .drop (Use.takes before)
    · subst hdrop
      rw [step, contents?_drop, if_pos rfl]
      exact iff_of_false nofun fun h => h.1 (List.mem_append_right _ (List.mem_singleton_self _))
    · rw [contents?_step htaken hdrop]
      simp only [Option.map_eq_some_iff, ih, List.mem_append, List.mem_singleton, Ne.symm hdrop, or_false, Use.pushes,
        List.filterMap_append, and_assoc, exists_and_left, exists_eq_left']

theorem contents?_run_eq_some_iff_holds {uses : List (Use α)} {buffer : Nat} {held : List α} :
    (run uses).contents? buffer = some held ↔ Use.Holds uses buffer held := by
  constructor
  · intro h
    have htaken : buffer < Use.takes uses := by
      rw [← size_run]
      refine Nat.lt_of_not_le fun hle => ?_
      cases h.symm.trans (contents?_eq_none hle)
    obtain ⟨before, after, rfl, rfl⟩ := Use.exists_of_lt_takes htaken
    exact ⟨before, after, rfl, rfl, contents?_run_eq_some_iff.mp h⟩
  · rintro ⟨before, after, rfl, rfl, h⟩
    exact contents?_run_eq_some_iff.mpr h

/-- Whatever was done with the buffers: the next to be taken is empty. A buffer is out just if it was taken and
    not dropped, and then it holds what was pushed to it since it was taken, in order. There are never fewer
    buffers than before, and always as many as were out together when most were. -/
theorem buffers_are_kept_apart (uses : List (Use α)) :
    (run (uses ++ [.take])).contents? (Use.takes uses) = some [] ∧
    (∀ buffer held, (run uses).contents? buffer = some held ↔ Use.Holds uses buffer held) ∧
    (∀ more, (run uses).total ≤ (run (uses ++ more)).total) ∧ IsGreatest (liveCounts uses) (run uses).total :=
  ⟨contents?_run_take uses, fun _ _ => contents?_run_eq_some_iff_holds, total_run_le uses, isGreatest_total_run uses⟩

/-- The third buffer is the first one again. -/
example : let pool := run [.take, .take, .push 0 'a', .push 1 'b', .drop 0, .take, .push 2 'c']
    pool.contents? 2 = some ['c'] ∧ pool.contents? 0 = none ∧ pool.total = 2 := by
  decide +kernel

end BufferPool

end JvmClass
