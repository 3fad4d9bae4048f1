/-
  JvmClass.Proofs.Trapping.Basic — computations that may trap.

  A computation traps if it takes an element outside a range, subtracts below zero or never ends: then
  it has no outcome at all, not even a fault. What may trap is an `Option`, what may fail as well an
  `ExceptT` over it, and what has a state besides is `Trapping`. A loop counts no steps, and has an
  outcome only if it comes to an end (`Loop.run_eq_some`). A computation that may trap agrees with one
  that cannot if it has the same outcome from every state of a kind (`Trapping.Agrees`), and so do those
  that are put together from such ones (`bind`, `foldlM`, `mapM`).
-/

import JvmClass.Proofs.Class.Building
import Mathlib.Data.Nat.PSub

namespace JvmClass

/-- A computation that may trap, with a state that outlives its faults. -/
abbrev Trapping (ε σ : Type) := ExceptT ε (StateT σ Option)

namespace Trapping

variable {ε σ α β : Type}

/-! ## Lists -/

/-- The elements from `start` to before `stop`; a range that does not lie in the list traps. -/
def slice (l : List α) (start stop : Nat) : Option (List α) :=
  if start ≤ stop ∧ stop ≤ l.length then some (l.extract start stop) else none

theorem slice_of_le {l : List α} {start stop : Nat} (h : start ≤ stop) (hstop : stop ≤ l.length) :
    slice l start stop = some (l.extract start stop) := if_pos ⟨h, hstop⟩

theorem slice_length {l : List α} {start : Nat} (h : start ≤ l.length) :
    slice l start l.length = some (l.drop start) := by
  rw [slice_of_le h (Nat.le_refl _), List.extract_eq_take_drop, List.take_of_length_le (by rw [List.length_drop])]

theorem idxOf?_append_cons [BEq α] [LawfulBEq α] {v : List α} {d : α} (w : List α) (h : d ∉ v) :
    (v ++ d :: w).idxOf? d = some v.length := by
  rw [List.idxOf?, List.findIdx?_append, List.findIdx?_eq_none_iff.mpr]
  · simp [List.findIdx?_cons]
  · intro c hc
    simpa using fun heq : c = d => h (heq ▸ hc)

theorem idxOf?_of_not_mem [BEq α] [LawfulBEq α] {v : List α} {d : α} (h : d ∉ v) : v.idxOf? d = none :=
  List.idxOf?_eq_none_iff.mpr h

/-- The array with another element at `k`; there must be one. -/
def setAt (a : Array α) (k : Nat) (x : α) : Option (Array α) :=
  if k < a.size then some (a.setIfInBounds k x) else none

theorem setAt_of_lt {a : Array α} {k : Nat} {x : α} (h : k < a.size) : setAt a k x = some (a.setIfInBounds k x) :=
  if_pos h

/-! ## Loops -/

/-- A step of a loop leads to what the next one starts with, or to the result. -/
abbrev Loop (α β : Type) := α → Option (α ⊕ β)

namespace Loop

variable {l : Loop α β} {a a' : α} {b : β}

/-- Step after step, as many as it takes. -/
def run (l : Loop α β) (a : α) : Option β := do
  match ← l a with
  | .inl a => l |>.run a
  | .inr b => return b
partial_fixpoint

theorem run_of_next (h : l a = some (.inl a')) : l.run a = l.run a' := by
  rw [run, h]
  rfl

theorem run_of_done (h : l a = some (.inr b)) : l.run a = some b := by
  rw [run, h]
  rfl

/-- The steps from `a` on lead to `b`. -/
inductive Ends (l : Loop α β) : α → β → Prop
  | done {a : α} {b : β} (h : l a = some (.inr b)) : Ends l a b
  | next {a a' : α} {b : β} (h : l a = some (.inl a')) (ends : Ends l a' b) : Ends l a b

/-- A loop that never ends has no outcome. -/
theorem run_eq_some : l.run a = some b ↔ l.Ends a b := by
  constructor
  -- the loop is approached by those that stop after finitely many steps
  · refine run.partial_correctness l (fun a b => l.Ends a b) (fun run ih a b h => ?_) a b
    obtain ⟨r, hr, h⟩ := Option.bind_eq_some_iff.mp h
    cases r with
    | inl a' => exact .next hr (ih a' b h)
    | inr b' =>
      cases h
      exact .done hr
  · intro h
    induction h with
    | done h => exact run_of_done h
    | next h _ ih => exact (run_of_next h).trans ih

end Loop

/-! ## Computations that cannot trap -/

section Lift

@[simp] theorem liftM_ok (a : α) : (liftM (Except.ok a : Except ε α) : ExceptT ε Option α) = pure a := rfl

@[simp] theorem liftM_some (a : α) : (liftM (some a) : ExceptT ε Option α) = pure a := rfl

@[simp] theorem run_liftM (x : Except ε α) : (liftM x : ExceptT ε Option α).run = some x := by cases x <;> rfl

/-- What goes on without a trap wherever the first part succeeds does not trap. -/
theorem bind_eq_liftM {x : Except ε α} {f : α → ExceptT ε Option β} {g : α → Except ε β}
    (h : ∀ a, x = .ok a → f a = liftM (g a)) : (liftM x >>= f) = (liftM (x >>= g) : ExceptT ε Option β) := by
  cases x with
  | ok a => exact h a rfl
  | error e => rfl

/-- A computation after a check. -/
theorem check_eq_liftM {c : Prop} [Decidable c] {e : ε} {f : β → ExceptT ε Option α} {g : β → Except ε α}
    {x : ExceptT ε Option α} {y : Except ε α} (h : x = liftM y) :
    (if c then throw e >>= f else x) = liftM (if c then throw e >>= g else y) := by
  by_cases hc : c
  · rw [if_pos hc, if_pos hc]
    rfl
  · rw [if_neg hc, if_neg hc, h]

theorem mapM_eq_liftM {f : α → ExceptT ε Option β} {g : α → Except ε β} {l : List α}
    (h : ∀ a ∈ l, f a = liftM (g a)) : l.mapM f = liftM (l.mapM g) := by
  induction l with
  | nil => rfl
  | cons a l ih =>
    rw [List.forall_mem_cons] at h
    rw [List.mapM_cons, List.mapM_cons, h.1, ih h.2]
    exact bind_eq_liftM fun b _ => bind_eq_liftM fun bs _ => rfl

end Lift

def outcome : EStateM.Result ε σ α → Except ε α × σ
  | .ok a s => (.ok a, s)
  | .error e s => (.error e, s)

theorem bind_apply (y : EStateM ε σ α) (g : α → EStateM ε σ β) (s : σ) : (y >>= g) s = match y s with
    | .ok a s' => g a s'
    | .error e s' => .error e s' := by
  show EStateM.bind y g s = _
  unfold EStateM.bind
  cases y s <;> rfl

def sure (y : EStateM ε σ α) : Trapping ε σ α := ExceptT.mk fun s => some (outcome (y s))

instance : MonadLift (EStateM ε σ) (Trapping ε σ) := ⟨sure⟩

instance : MonadLift (ExceptT ε Option) (Trapping ε σ) := ⟨fun x => ExceptT.mk fun s => x.run.map (·, s)⟩

/-! ## Agreement -/

/-- From the states of the first kind on both have the same outcome, so the first one does not trap; if they
    succeed they leave a state of the second kind. -/
structure Agrees (I J : σ → Prop) (x : Trapping ε σ α) (y : EStateM ε σ α) : Prop where
  runs : ∀ s, I s → x.run s = some (outcome (y s))
  keeps : ∀ s a s', I s → y s = .ok a s' → J s'

namespace Agrees

variable {I J K : σ → Prop} {x : Trapping ε σ α} {y : EStateM ε σ α}

theorem sure (h : ∀ s a s', I s → y s = .ok a s' → J s') : Agrees I J (Trapping.sure y) y := ⟨fun _ _ => rfl, h⟩

theorem pure (a : α) : Agrees I I (Pure.pure a : Trapping ε σ α) (Pure.pure a) where
  runs _ _ := rfl
  keeps := by
    intro s b s' hs h
    cases h
    exact hs

theorem throw (e : ε) : Agrees I J (MonadExcept.throw e : Trapping ε σ α) (MonadExcept.throw e) :=
  ⟨fun _ _ => rfl, fun _ _ _ _ h => nomatch h⟩

theorem bind {f : α → Trapping ε σ β} {g : α → EStateM ε σ β} (hx : Agrees I J x y)
    (hf : ∀ a, Agrees J K (f a) (g a)) : Agrees I K (x >>= f) (y >>= g) := by
  constructor
  · intro s hs
    have hrun : (x >>= f).run s = (x.run s).bind fun r => ExceptT.bindCont f r.1 r.2 := rfl
    rw [hrun, hx.runs s hs, bind_apply]
    cases h : y s with
    | ok a s' => exact (hf a).runs s' (hx.keeps s a s' hs h)
    | error e s' => rfl
  · intro s b s' hs h
    rw [bind_apply] at h
    cases ha : y s with
    | ok a m =>
      rw [ha] at h
      exact (hf a).keeps m b s' (hx.keeps s a m hs ha) h
    | error e m =>
      rw [ha] at h
      cases h

theorem ite {c : Prop} [Decidable c] {x' : Trapping ε σ α} {y' : EStateM ε σ α} (h : c → Agrees I J x y)
    (h' : ¬c → Agrees I J x' y') : Agrees I J (if c then x else x') (if c then y else y') := by
  by_cases hc : c
  · rw [if_pos hc, if_pos hc]
    exact h hc
  · rw [if_neg hc, if_neg hc]
    exact h' hc

/-- A computation after a check. -/
theorem check {c : Prop} [Decidable c] {e : ε} {f : β → Trapping ε σ α} {g : β → EStateM ε σ α}
    (h : ¬c → Agrees I J x y) :
    Agrees I J (if c then MonadExcept.throw e >>= f else x) (if c then MonadExcept.throw e >>= g else y) :=
  have hnone (a : β) : Agrees (fun _ => False) J (f a) (g a) := ⟨fun _ hs => hs.elim, fun _ _ _ hs => hs.elim⟩
  ite (fun _ => (throw e).bind hnone) h

theorem foldlM {f : β → α → Trapping ε σ β} {g : β → α → EStateM ε σ β} (h : ∀ b a, Agrees I I (f b a) (g b a))
    (l : List α) (b : β) : Agrees I I (l.foldlM f b) (l.foldlM g b) := by
  induction l generalizing b with
  | nil => exact pure b
  | cons a l ih =>
    rw [List.foldlM_cons, List.foldlM_cons]
    exact (h b a).bind ih

theorem mapM {f : α → Trapping ε σ β} {g : α → EStateM ε σ β} (h : ∀ a, Agrees I I (f a) (g a)) (l : List α) :
    Agrees I I (l.mapM f) (l.mapM g) := by
  induction l with
  | nil => exact pure []
  | cons a l ih =>
    rw [List.mapM_cons, List.mapM_cons]
    exact (h a).bind fun b => ih.bind fun bs => pure (b :: bs)

/-- What cannot trap agrees with what may fail only. -/
theorem ofExcept {x : ExceptT ε Option α} {y : Except ε α} (h : x = liftM y) :
    Agrees I I (liftM x : Trapping ε σ α) (MonadExcept.ofExcept y) := by
  subst h
  constructor
  · intro s _
    cases y <;> rfl
  · intro s a s' hs h
    cases y with
    | ok b =>
      cases h
      exact hs
    | error e => cases h

end Agrees

end Trapping

end JvmClass
