/-
  JvmClass.Proofs.SetOnce — callers that share a cell agree on its value.

  A caller looks at the cell, commits to it, or asks for its value with a computation at hand, which may
  itself do all of this (`Task`). Each access to the cell is one step (`Task.step?`), and the steps of any
  number of callers follow each other in any order (`Shared.Runs`). A computation goes on while others make
  their steps, so the cell that was empty when it began may be full when its result is to be committed.

  What a step can do to the cell and tell of it is said once (`Event.Follows`, `Task.follows_of_step?`).
  - `callers_agree_on_the_value`: a value that is in the cell stays, each step after that tells it, and no
    computation begins any more; what a commit or a `getOrLink` answers is in the cell from then on. At any
    time a caller that is let alone comes to its end, as `Task.run` has it: there the calls of `getOrLink`
    are those for a cell of one's own.
-/

import JvmClass.SetOnce
import Mathlib.Logic.Function.Basic
import Mathlib.Logic.Relation

namespace JvmClass

namespace SetOnce

variable {α ρ ι : Type}

/-! ## Callers -/

/-- What a caller has still to do with the cell until it has its result. What its code finds elsewhere is not
    spelled out: a task is one course that the code can take. -/
inductive Task (α : Type) : Type → Type 1
  | done {ρ : Type} (result : ρ) : Task α ρ
  | get {ρ : Type} (next : Option α → Task α ρ) : Task α ρ
  | commit {ρ : Type} (candidate : α) (next : α → Task α ρ) : Task α ρ
  | getOrLink {ρ : Type} (compute : Task α α) (next : α → Task α ρ) : Task α ρ
  /-- The rest of a `getOrLink` that found the cell empty. -/
  | linking {ρ : Type} (compute : Task α α) (next : α → Task α ρ) : Task α ρ

/-- What comes of a step. -/
inductive Event (α : Type)
  | got (seen : Option α)
  | committed (value : α)
  /-- A `getOrLink` sets out to compute. -/
  | computing
  | linked (value : α)

namespace Task

/-- A call is over: `answered` is its answer, with the cell that it leaves. -/
def resume (event : α → Event α) (next : α → Task α ρ) (answered : α × SetOnce α) : Event α × Task α ρ × SetOnce α :=
  (event answered.1, next answered.1, answered.2)

/-- The next access to the cell: what comes of it, what is then left to do, and the cell. -/
def step? : {ρ : Type} → Task α ρ → SetOnce α → Option (Event α × Task α ρ × SetOnce α)
  | _, done _, _ => none
  | _, get next, cell => some (.got cell.value?, next cell.value?, cell)
  | _, commit candidate next, cell => some (resume .committed next (cell.commit candidate))
  | _, getOrLink compute next, cell =>
    match cell.value? with
    | some value => some (resume .linked next (value, cell))
    | none => some (.computing, linking compute next, cell)
  | _, linking (done candidate) next, cell => some (resume .linked next (cell.commit candidate))
  | _, linking compute next, cell =>
    (compute.step? cell).map fun (e, compute', cell') => (e, linking compute' next, cell')

/-- The outcome for a caller that has the cell to itself. -/
def run : {ρ : Type} → Task α ρ → SetOnce α → ρ × SetOnce α
  | _, done result, cell => (result, cell)
  | _, get next, cell => (next cell.value?).run cell
  | _, commit candidate next, cell =>
    let (value, cell') := cell.commit candidate
    (next value).run cell'
  | _, getOrLink compute next, cell =>
    let (value, cell') := cell.getOrLink fun c => compute.run c
    (next value).run cell'
  | _, linking compute next, cell =>
    let (candidate, cell') := compute.run cell
    let (value, cell'') := cell'.commit candidate
    (next value).run cell''

end Task

/-! ## One step -/

namespace Event

/-- What a commit or a `getOrLink` answers. -/
def answer? : Event α → Option α
  | got _ => none
  | committed value => some value
  | computing => none
  | linked value => some value

/-- The value that is told is `a`. Where a computation begins, none is. -/
def Tells (a : α) : Event α → Prop
  | got seen => seen = some a
  | committed value => value = a
  | computing => False
  | linked value => value = a

/-- This may come of a step that finds `before` in the cell and leaves `after`. -/
structure Follows (before : Option α) (e : Event α) (after : Option α) : Prop where
  stays : ∀ a, before = some a → after = some a
  tells : ∀ a, before = some a → e.Tells a
  holds : ∀ a, e.answer? = some a → after = some a

theorem follows_got (o : Option α) : (Event.got o).Follows o o := ⟨fun _ h => h, fun _ h => h, fun _ h => nomatch h⟩

theorem follows_computing : (Event.computing : Event α).Follows none none :=
  ⟨fun _ h => h, fun _ h => (nomatch h), fun _ h => nomatch h⟩

theorem follows_found (a : α) : (Event.linked a).Follows (some a) (some a) :=
  ⟨fun _ h => h, fun _ => Option.some.inj, fun _ h => h⟩

theorem follows_committed (cell : SetOnce α) (a : α) :
    (Event.committed (cell.commit a).1).Follows cell.value? (cell.commit a).2.value? := by
  rw [commit_fst, commit_snd]
  refine ⟨fun b h => ?_, fun b h => ?_, fun _ h => h⟩
  · rw [h]
    rfl
  · rw [h]
    rfl

/-- A computation ends with a commit. -/
theorem follows_linked (cell : SetOnce α) (a : α) :
    (Event.linked (cell.commit a).1).Follows cell.value? (cell.commit a).2.value? :=
  ⟨(follows_committed cell a).stays, (follows_committed cell a).tells, (follows_committed cell a).holds⟩

end Event

namespace Task

/-- All that a step can do. A step of a computation is one of the caller that waits for it. -/
theorem follows_of_step? {t t' : Task α ρ} {cell cell' : SetOnce α} {e : Event α}
    (h : t.step? cell = some (e, t', cell')) : e.Follows cell.value? cell'.value? := by
  fun_induction step? t cell with
  | case1 => cases h
  | case2 =>
    cases h
    exact Event.follows_got _
  | case3 =>
    cases h
    exact Event.follows_committed _ _
  | case4 _ _ _ _ value hvalue =>
    cases h
    rw [hvalue]
    exact Event.follows_found value
  | case5 _ _ _ _ hempty =>
    cases h
    rw [hempty]
    exact Event.follows_computing
  | case6 =>
    cases h
    exact Event.follows_linked _ _
  | case7 _ _ _ _ _ ih =>
    obtain ⟨⟨e', compute', cell''⟩, hstep, heq⟩ := Option.map_eq_some_iff.mp h
    cases heq
    exact ih hstep

/-! ## A caller that is let alone -/

theorem step?_linking {compute compute' : Task α α} {cell cell' : SetOnce α} {e : Event α} (next : α → Task α ρ)
    (h : compute.step? cell = some (e, compute', cell')) :
    (linking compute next).step? cell = some (e, linking compute' next, cell') := by
  have hunfinished (a : α) (ha : compute = done a) : False := by
    rw [ha] at h
    cases h
  rw [step?, h]
  · rfl
  · exact hunfinished

/-- One more step, if nobody else makes one. -/
def Goes (x y : Task α ρ × SetOnce α) : Prop := ∃ e, x.1.step? x.2 = some (e, y)

/-- The computation comes to its end, and its result is committed. -/
theorem goes_linking {compute : Task α α} {next : α → Task α ρ} {cell : SetOnce α} {a : α} {cell' : SetOnce α}
    (h : Relation.ReflTransGen Goes (compute, cell) (done a, cell')) :
    Relation.ReflTransGen Goes (linking compute next, cell) (next (cell'.commit a).1, (cell'.commit a).2) := by
  have hcomputed : Relation.ReflTransGen Goes (linking compute next, cell) (linking (done a) next, cell') :=
    h.lift (fun x => (linking x.1 next, x.2)) fun x y ⟨e, hstep⟩ => ⟨e, step?_linking next hstep⟩
  exact hcomputed.tail ⟨_, rfl⟩

/-- A caller that is let alone comes to its end, with the outcome that it has on a cell of its own. -/
theorem goes_to_run (t : Task α ρ) (cell : SetOnce α) :
    Relation.ReflTransGen Goes (t, cell) (done (t.run cell).1, (t.run cell).2) := by
  induction t generalizing cell with
  | done result => exact .refl
  | get next ih => exact .head ⟨_, rfl⟩ (ih _ cell)
  | commit candidate next ih => exact .head ⟨_, rfl⟩ (ih _ _)
  | getOrLink compute next ihCompute ih =>
    cases hcell : cell.value? with
    | some value =>
      have hfound : (getOrLink compute next).step? cell = some (resume .linked next (value, cell)) := by
        rw [step?, hcell]
      have hrun : (getOrLink compute next).run cell = (next value).run cell := by
        simp only [run, SetOnce.getOrLink, hcell]
      rw [hrun]
      exact .head ⟨_, hfound⟩ (ih value cell)
    | none =>
      have hempty : (getOrLink compute next).step? cell = some (.computing, linking compute next, cell) := by
        rw [step?, hcell]
      have hrun : (getOrLink compute next).run cell = (linking compute next).run cell := by
        simp only [run, SetOnce.getOrLink, hcell]
      rw [hrun]
      exact .head ⟨_, hempty⟩ ((goes_linking (ihCompute cell)).trans (ih _ _))
  | linking compute next ihCompute ih => exact (goes_linking (ihCompute cell)).trans (ih _ _)

end Task

/-! ## Any number of callers -/

/-- A cell and those who share it. -/
structure Shared (ι α ρ : Type) where
  cell : SetOnce α
  callers : ι → Task α ρ

namespace Shared

variable [DecidableEq ι]

/-- What has become of the caller and of the cell. -/
def resumed (s : Shared ι α ρ) (i : ι) (left : Task α ρ × SetOnce α) : Shared ι α ρ :=
  ⟨left.2, Function.update s.callers i left.1⟩

/-- The callers make their steps in some order. -/
inductive Runs : Shared ι α ρ → List (Event α) → Shared ι α ρ → Prop
  | refl (s : Shared ι α ρ) : Runs s [] s
  | step {s t : Shared ι α ρ} {e : Event α} {es : List (Event α)} {left : Task α ρ × SetOnce α} (i : ι)
      (head : (s.callers i).step? s.cell = some (e, left)) (tail : Runs (s.resumed i left) es t) : Runs s (e :: es) t

/-- A value that is in the cell stays, and all that comes of any step tells it. -/
theorem Runs.of_full {s t : Shared ι α ρ} {es : List (Event α)} (h : Runs s es t) {a : α}
    (ha : s.cell.value? = some a) : t.cell.value? = some a ∧ ∀ e ∈ es, e.Tells a := by
  induction h with
  | refl => exact ⟨ha, List.forall_mem_nil _⟩
  | step i head _ ih =>
    have hfollows := Task.follows_of_step? head
    obtain ⟨hcell, htells⟩ := ih (hfollows.stays a ha)
    exact ⟨hcell, List.forall_mem_cons.mpr ⟨hfollows.tells a ha, htells⟩⟩

/-- The moment after an event. -/
theorem Runs.exists_after {s t : Shared ι α ρ} {before after : List (Event α)} {e : Event α}
    (h : Runs s (before ++ e :: after) t) : ∃ m, Runs s (before ++ [e]) m ∧
      (∀ a, e.answer? = some a → m.cell.value? = some a) ∧ Runs m after t := by
  generalize hes : before ++ e :: after = es at h
  induction h generalizing before with
  | refl => cases before <;> cases hes
  | @step s t e' es left i head tail ih =>
    cases before with
    | nil =>
      cases hes
      exact ⟨_, .step i head (.refl _), (Task.follows_of_step? head).holds, tail⟩
    | cons b before =>
      cases hes
      obtain ⟨m, hbefore, hholds, hafter⟩ := ih rfl
      exact ⟨m, .step i head hbefore, hholds, hafter⟩

/-- While one caller is let alone, nothing becomes of the others. -/
theorem exists_runs_of_goes (s : Shared ι α ρ) (i : ι) {x y : Task α ρ × SetOnce α}
    (h : Relation.ReflTransGen Task.Goes x y) : ∃ es, Runs (s.resumed i x) es (s.resumed i y) := by
  induction h using Relation.ReflTransGen.head_induction_on with
  | refl => exact ⟨[], .refl _⟩
  | @head x z hstep _ ih =>
    obtain ⟨e, hstep⟩ := hstep
    obtain ⟨es, hruns⟩ := ih
    have hhead : ((s.resumed i x).callers i).step? (s.resumed i x).cell = some (e, z) := by
      simp only [resumed, Function.update_self]
      exact hstep
    have hsame : (s.resumed i x).resumed i z = s.resumed i z := by
      simp only [resumed, Function.update_idem]
    exact ⟨e :: es, .step i hhead (hsame ▸ hruns)⟩

end Shared

/-- In any run, of whatever callers in whatever order: if there is a value in the cell, it stays there, each
    event tells it, and no computation begins. What a commit or a `getOrLink` answers is the value in the cell
    at that moment and ever after. Any caller can go on to its end from where the run stands. -/
theorem callers_agree_on_the_value [DecidableEq ι] {s t : Shared ι α ρ} {es : List (Event α)} (h : s.Runs es t) :
    (∀ a, s.cell.value? = some a →
      t.cell.value? = some a ∧ (∀ e ∈ es, e.Tells a) ∧ Event.computing ∉ es) ∧
    (∀ before e after a, es = before ++ e :: after → e.answer? = some a →
      ∃ m, s.Runs (before ++ [e]) m ∧ m.cell.value? = some a ∧ m.Runs after t ∧
        t.cell.value? = some a ∧ (∀ e' ∈ after, e'.Tells a) ∧ Event.computing ∉ after) ∧
    ∀ i, ∃ more, t.Runs more (t.resumed i (.done ((t.callers i).run t.cell).1, ((t.callers i).run t.cell).2)) := by
  have hfull {u : Shared ι α ρ} {us : List (Event α)} (hu : u.Runs us t) {a : α} (ha : u.cell.value? = some a) :
      t.cell.value? = some a ∧ (∀ e ∈ us, e.Tells a) ∧ Event.computing ∉ us :=
    ⟨(hu.of_full ha).1, (hu.of_full ha).2, fun hmem => (hu.of_full ha).2 _ hmem⟩
  refine ⟨fun a => hfull h, fun before e after a hes hanswer => ?_, fun i => ?_⟩
  · rw [hes] at h
    obtain ⟨m, hbefore, hholds, hafter⟩ := h.exists_after
    exact ⟨m, hbefore, hholds a hanswer, hafter, hfull hafter (hholds a hanswer)⟩
  · obtain ⟨more, hruns⟩ := t.exists_runs_of_goes i (Task.goes_to_run (t.callers i) t.cell)
    have hnow : t.resumed i (t.callers i, t.cell) = t := by
      rw [Shared.resumed, Function.update_eq_self]
    rw [hnow] at hruns
    exact ⟨more, hruns⟩

/-- Two callers ask for the value of an empty cell. The computation of the first commits a value of its own
    accord before it has its result. -/
def race : Shared Bool Nat Nat where
  cell := .empty
  callers
    | true => .getOrLink (.commit 1 fun _ => .done 2) .done
    | false => .getOrLink (.done 3) .done

/-- Both set out to compute. The value that the first one commits on the way is the answer to both. -/
theorem callers_agree_on_the_value_race : ∃ t,
    race.Runs [.computing, .computing, .committed 1, .linked 1, .linked 1] t ∧ t.cell.value? = some 1 ∧
      ∀ e ∈ [Event.linked 1, .linked 1], e.Tells 1 := by
  have hruns : ∃ t, race.Runs [.computing, .computing, .committed 1, .linked 1, .linked 1] t :=
    ⟨_, .step true rfl (.step false rfl (.step true rfl (.step false rfl (.step true rfl (.refl _)))))⟩
  obtain ⟨t, hruns⟩ := hruns
  obtain ⟨_, -, -, -, hcell, htells, -⟩ :=
    (callers_agree_on_the_value hruns).2.1 [.computing, .computing] (.committed 1) _ 1 rfl rfl
  exact ⟨t, hruns, hcell, htells⟩

end SetOnce

end JvmClass
