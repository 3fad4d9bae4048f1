/-
  JvmClass.Proofs.Class.Reporting — what building a class warns of.

  A computation that succeeds only adds to the warnings that are there. Most add nothing
  (`Build.Silent`); what is returned and what is added can be told together (`Build.Reports`). A list
  is mapped with the warnings of its items one after the other (`Build.Reports.mapM`), and a fold is a
  step for each item (`Build.Steps`, `Build.Reports.foldlM`).
-/

import JvmClass.Proofs.Class.Ensuring
import Mathlib.Data.List.Forall2

namespace JvmClass

variable {T F M α β : Type}

namespace Build

/-- If the computation succeeds, it has warned of nothing. -/
def Silent (x : Build T F M α) : Prop := ∀ s a s', x s = .ok a s' → s'.warnings = s.warnings

/-- If the pool has what never changes in common with `p`, then so it has afterwards, and what is returned
    is related to the warnings that are added. -/
def Reports (p : Pool T F M) (x : Build T F M α) (R : α → List Warning → Prop) : Prop :=
  ∀ s a s', s.pool.frozen = p.frozen → x s = .ok a s' →
    s'.pool.frozen = p.frozen ∧ ∃ ws, s'.warnings.toList = s.warnings.toList ++ ws ∧ R a ws

/-- A step for each item of the list leads from the first to the second, with these warnings on the way. -/
inductive Steps (Step : β → α → β → List Warning → Prop) : β → List α → β → List Warning → Prop
  | nil (b : β) : Steps Step b [] b []
  | cons {b m b' : β} {a : α} {l : List α} {ws ws' : List Warning} (head : Step b a m ws)
      (tail : Steps Step m l b' ws') : Steps Step b (a :: l) b' (ws ++ ws')

/-- What the items of a list are warned of, one after the other, given what each makes of the start. -/
def warningsOf (next : β → α → β) (warns : β → α → List Warning) (b : β) : List α → List Warning
  | [] => []
  | a :: l => warns b a ++ warningsOf next warns (next b a) l

theorem warningsOf_append {next : β → α → β} {warns : β → α → List Warning} (b : β) (l l' : List α) :
    warningsOf next warns b (l ++ l') = warningsOf next warns b l ++ warningsOf next warns (l.foldl next b) l' := by
  induction l generalizing b with
  | nil => rfl
  | cons a l ih => rw [List.cons_append, warningsOf, warningsOf, ih, List.append_assoc, List.foldl_cons]

/-- A fold whose steps cannot fail cannot fail. -/
theorem foldlM_apply {f : β → α → Build T F M β} {next : β → α → β} {warns : β → α → List Warning}
    (hf : ∀ b a s, f b a s = .ok (next b a) { s with warnings := s.warnings ++ (warns b a).toArray }) (l : List α)
    (b : β) (s : BuildState T F M) : l.foldlM f b s =
      .ok (l.foldl next b) { s with warnings := s.warnings ++ (warningsOf next warns b l).toArray } := by
  induction l generalizing b s with
  | nil => exact congrArg (EStateM.Result.ok b) (by simp [warningsOf])
  | cons a l ih =>
    show EStateM.bind (f b a) _ s = _
    rw [EStateM.bind, hf]
    show l.foldlM f (next b a) _ = _
    rw [ih, List.foldl_cons, warningsOf, ← List.append_toArray, Array.append_assoc]

/-! ## Computations that warn of nothing -/

namespace Silent

theorem pure (a : α) : (Pure.pure a : Build T F M α).Silent := by
  intro s b s' h
  rw [(pure_eq_ok.mp h).2]

theorem throw (fault : FormatFault) : (MonadExcept.throw fault : Build T F M α).Silent :=
  fun _ _ _ h => (throw_eq_ok.mp h).elim

theorem ofExcept (x : Except FormatFault α) : (MonadExcept.ofExcept x : Build T F M α).Silent := by
  intro s b s' h
  rw [(ofExcept_eq_ok.mp h).2]

theorem pool : (Build.pool : Build T F M _).Silent := by
  intro s q s' h
  rw [(pool_eq_ok.mp h).2]

theorem require (indices : List Index) : (Build.require indices : Build T F M Unit).Silent := by
  intro s a s' h
  cases h
  rfl

theorem exposeTexts : (Build.exposeTexts : Build T F M Unit).Silent := by
  intro s a s' h
  cases h
  rfl

theorem bind {x : Build T F M α} {f : α → Build T F M β} (hx : x.Silent) (hf : ∀ a, (f a).Silent) :
    (x >>= f).Silent := by
  intro s b s' h
  obtain ⟨a, m, ha, hb⟩ := bind_eq_ok.mp h
  exact (hf a m b s' hb).trans (hx s a m ha)

theorem check {c : Prop} [Decidable c] {fault : FormatFault} {f : α → Build T F M β} {next : Build T F M β}
    (hnext : next.Silent) : (if c then MonadExcept.throw fault >>= f else next).Silent :=
  fun s b s' h => hnext s b s' (ite_throw_eq_ok.mp h).2

theorem foldlM {f : β → α → Build T F M β} (hf : ∀ b a, (f b a).Silent) (l : List α) (b : β) :
    (l.foldlM f b).Silent := by
  induction l generalizing b with
  | nil => exact pure b
  | cons a l ih => exact (hf b a).bind ih

theorem mapM {f : α → Build T F M β} (hf : ∀ a, (f a).Silent) (l : List α) : (l.mapM f).Silent := by
  induction l with
  | nil => exact pure []
  | cons a l ih =>
    rw [List.mapM_cons]
    exact (hf a).bind fun b => ih.bind fun bs => pure (b :: bs)

theorem text (i : Index) : (Build.text i : Build T F M _).Silent := pool.bind fun _ => ofExcept _

theorem className (i : Index) : (Build.className i : Build T F M _).Silent := pool.bind fun _ => ofExcept _

theorem read (r : Read FormatFault α) (info : List UInt8) : (Build.read r info : Build T F M α).Silent := ofExcept _

theorem kindOf (version : Version) (a : Attribute) : (Build.kindOf version a : Build T F M _).Silent :=
  (text a.name).bind fun _ => pure _

theorem singleIndex (fault : FormatFault) (info : List UInt8) :
    (Build.singleIndex fault info : Build T F M _).Silent := by
  unfold Build.singleIndex
  split
  · exact read _ _
  · exact throw fault

theorem singleText (kind : String) (info : List UInt8) : (Build.singleText kind info : Build T F M _).Silent :=
  (singleIndex _ info).bind text

theorem annotations (info : List UInt8) : (Build.annotations info : Build T F M _).Silent :=
  pool.bind fun _ => read _ _

end Silent

/-! ## Warnings one after the other -/

variable {p : Pool T F M} {R : α → List Warning → Prop} {S : β → List Warning → Prop}

theorem Silent.reports {x : Build T F M α} {P : α → Prop} (hx : x.Silent) (hP : Ensures p x P) :
    Reports p x fun a ws => P a ∧ ws = [] := by
  intro s a s' hs h
  obtain ⟨ha, hs'⟩ := hP s a s' hs h
  exact ⟨hs', [], by rw [hx s a s' h, List.append_nil], ha, rfl⟩

namespace Reports

theorem mono {R' : α → List Warning → Prop} {x : Build T F M α} (hx : Reports p x R)
    (h : ∀ a ws, R a ws → R' a ws) : Reports p x R' := by
  intro s a s' hs hok
  obtain ⟨hs', ws, hws, hR⟩ := hx s a s' hs hok
  exact ⟨hs', ws, hws, h a ws hR⟩

theorem bind {x : Build T F M α} {f : α → Build T F M β} (hx : Reports p x R)
    (hf : ∀ a ws, R a ws → Reports p (f a) fun b ws' => S b (ws ++ ws')) : Reports p (x >>= f) S := by
  intro s b s' hs h
  obtain ⟨a, m, ha, hb⟩ := bind_eq_ok.mp h
  obtain ⟨hm, ws, hws, hR⟩ := hx s a m hs ha
  obtain ⟨hs', ws', hws', hS⟩ := hf a ws hR m b s' hm hb
  exact ⟨hs', ws ++ ws', by rw [hws', hws, List.append_assoc], hS⟩

/-- What comes after a computation that warns of nothing. -/
theorem after_silent {x : Build T F M α} {P : α → Prop} {f : α → Build T F M β} (hx : x.Silent) (hP : Ensures p x P)
    (hf : ∀ a, P a → Reports p (f a) S) : Reports p (x >>= f) S := by
  refine (hx.reports hP).bind fun a ws h => ?_
  obtain ⟨ha, rfl⟩ := h
  exact hf a ha

/-- What comes before a computation that warns of nothing. -/
theorem bind_silent {x : Build T F M α} {f : α → Build T F M β} {Q : α → β → Prop} (hx : Reports p x R)
    (hf : ∀ a, (f a).Silent) (hQ : ∀ a, Ensures p (f a) (Q a)) :
    Reports p (x >>= f) fun b ws => ∃ a, R a ws ∧ Q a b := by
  refine hx.bind fun a ws h => ((hf a).reports (hQ a)).mono fun b ws' h' => ?_
  obtain ⟨hb, rfl⟩ := h'
  exact ⟨a, by rwa [List.append_nil], hb⟩

theorem check {c : Prop} [Decidable c] {fault : FormatFault} {f : α → Build T F M β} {next : Build T F M β}
    (hnext : Reports p next S) : Reports p (if c then MonadExcept.throw fault >>= f else next) S :=
  fun s b s' hs h => hnext s b s' hs (ite_throw_eq_ok.mp h).2

theorem foldlM {Step : β → α → β → List Warning → Prop} {f : β → α → Build T F M β}
    (hf : ∀ b a, Reports p (f b a) (Step b a)) (l : List α) (b : β) : Reports p (l.foldlM f b) (Steps Step b l) := by
  induction l generalizing b with
  | nil =>
    refine ((Silent.pure b).reports (.pure (P := (b = ·)) rfl)).mono fun b' ws h => ?_
    obtain ⟨rfl, rfl⟩ := h
    exact .nil b
  | cons a l ih => exact (hf b a).bind fun m ws hstep => (ih m).mono fun b' ws' htail => .cons hstep htail

/-- Each item with the warnings that it gave rise to. -/
theorem mapM {R : α → β → List Warning → Prop} {f : α → Build T F M β} (hf : ∀ a, Reports p (f a) (R a))
    (l : List α) : Reports p (l.mapM f) fun bs ws => ∃ ts : List (α × List Warning),
      ts.map Prod.fst = l ∧ List.Forall₂ (fun t b => R t.1 b t.2) ts bs ∧ ts.flatMap Prod.snd = ws := by
  induction l with
  | nil =>
    refine ((Silent.pure []).reports (.pure (P := ([] = ·)) rfl)).mono fun bs ws h => ?_
    obtain ⟨rfl, rfl⟩ := h
    exact ⟨[], rfl, .nil, rfl⟩
  | cons a l ih =>
    rw [List.mapM_cons]
    refine (hf a).bind fun b ws hb => ?_
    refine (ih.bind_silent (fun bs => .pure (b :: bs)) fun bs => .pure (P := (b :: bs = ·)) rfl).mono fun bs' ws' h => ?_
    obtain ⟨bs, ⟨ts, rfl, hts, rfl⟩, rfl⟩ := h
    exact ⟨(a, ws) :: ts, rfl, .cons hb hts, rfl⟩

end Reports

end Build

end JvmClass
