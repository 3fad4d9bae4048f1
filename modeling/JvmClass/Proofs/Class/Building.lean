/-
  JvmClass.Proofs.Class.Building — what building a class does to the pool.

  While a class is built its pool is only prepared: constants are marked and texts are exposed
  (`BuildState.Marked`). Most computations mark nothing (`Build.Quiet`), and those put together from
  such ones do not either; a computation that goes through a list marks what its items do
  (`Build.Marks.foldlM`, `Build.Marks.mapM`).
-/

import JvmClass.Class.Build
import JvmClass.Proofs.Cursor
import JvmClass.Proofs.Pool.Preparation

namespace JvmClass

variable {T F M α β : Type}

/-! ## From one state to the next -/

/-- The pool of the second state is that of the first one with these constants marked, and perhaps
    with its texts exposed. -/
def BuildState.Marked (needs : Index → Prop) (s s' : BuildState T F M) : Prop :=
  ∃ us : List (Upkeep T F M), (∀ u ∈ us, u.IsPreparation) ∧ s'.pool = us.foldl Upkeep.apply s.pool ∧
    ∀ i, .require i ∈ us ↔ needs i

namespace BuildState.Marked

variable {s s' s'' : BuildState T F M} {needs needs' : Index → Prop}

theorem of_eq (h : s'.pool = s.pool) : Marked (fun _ => False) s s' := ⟨[], by simp, h, by simp⟩

theorem congr (h : Marked needs s s') (hneeds : ∀ i, needs i ↔ needs' i) : Marked needs' s s' := by
  obtain ⟨us, hus, hpool, hrequire⟩ := h
  exact ⟨us, hus, hpool, fun i => (hrequire i).trans (hneeds i)⟩

theorem trans (h : Marked needs s s') (h' : Marked needs' s' s'') : Marked (fun i => needs i ∨ needs' i) s s'' := by
  obtain ⟨us, hus, hpool, hrequire⟩ := h
  obtain ⟨us', hus', hpool', hrequire'⟩ := h'
  refine ⟨us ++ us', ?_, ?_, ?_⟩
  · intro u hu
    rcases List.mem_append.mp hu with hu | hu
    · exact hus u hu
    · exact hus' u hu
  · rw [hpool', hpool, List.foldl_append]
  · intro i
    rw [List.mem_append, hrequire, hrequire']

theorem frozen (h : Marked needs s s') : s'.pool.frozen = s.pool.frozen := by
  obtain ⟨us, -, hpool, -⟩ := h
  rw [hpool, Upkeep.frozen_foldl]

end BuildState.Marked

namespace Build

/-! ## Opening computations -/

variable {s s' : BuildState T F M} {a : α}

theorem pure_eq_ok {b : α} : (pure b : Build T F M α) s = .ok a s' ↔ b = a ∧ s = s' := by
  show EStateM.Result.ok b s = .ok a s' ↔ _
  rw [EStateM.Result.ok.injEq]

theorem bind_eq_ok {x : Build T F M α} {f : α → Build T F M β} {b : β} :
    (x >>= f) s = .ok b s' ↔ ∃ a m, x s = .ok a m ∧ f a m = .ok b s' := by
  show EStateM.bind x f s = .ok b s' ↔ _
  unfold EStateM.bind
  cases h : x s with
  | ok a m =>
    constructor
    · intro hf
      exact ⟨a, m, rfl, hf⟩
    · intro ⟨_, _, he, hf⟩
      cases he
      exact hf
  | error e m => exact iff_of_false (fun h => nomatch h) fun ⟨_, _, he, _⟩ => nomatch he

theorem bind_eq_error {x : Build T F M α} {f : α → Build T F M β} {fault : FormatFault} :
    (x >>= f) s = .error fault s' ↔ x s = .error fault s' ∨ ∃ a m, x s = .ok a m ∧ f a m = .error fault s' := by
  show EStateM.bind x f s = .error fault s' ↔ _
  unfold EStateM.bind
  cases h : x s with
  | ok a m =>
    constructor
    · intro hf
      exact .inr ⟨a, m, rfl, hf⟩
    · rintro (he | ⟨_, _, he, hf⟩)
      · cases he
      · cases he
        exact hf
  | error e m =>
    constructor
    · intro hf
      cases hf
      exact .inl rfl
    · rintro (he | ⟨_, _, he, -⟩)
      · cases he
        rfl
      · cases he

theorem throw_eq_ok {fault : FormatFault} : (throw fault : Build T F M α) s = .ok a s' ↔ False :=
  iff_of_false (fun h => nomatch h) not_false

/-- A computation after a check. -/
theorem ite_throw_eq_ok {p : Prop} [Decidable p] {fault : FormatFault} {f : β → Build T F M α} {next : Build T F M α} :
    (if p then throw fault >>= f else next) s = .ok a s' ↔ ¬p ∧ next s = .ok a s' := by
  by_cases hp : p
  · rw [if_pos hp, bind_eq_ok]
    exact iff_of_false (fun ⟨_, _, h, _⟩ => throw_eq_ok.mp h) fun h => h.1 hp
  · rw [if_neg hp]
    exact (and_iff_right hp).symm

theorem ofExcept_eq_ok {x : Except FormatFault α} :
    (MonadExcept.ofExcept x : Build T F M α) s = .ok a s' ↔ x = .ok a ∧ s = s' := by
  cases x with
  | ok b => exact pure_eq_ok.trans (and_congr_left fun _ => Except.ok.injEq b a ▸ Iff.rfl)
  | error fault => exact iff_of_false (fun h => nomatch h) fun h => nomatch h.1

theorem pool_eq_ok {p : Pool T F M} : (pool : Build T F M _) s = .ok p s' ↔ s.pool = p ∧ s = s' := pure_eq_ok

theorem read_eq_ok {r : Read FormatFault α} {info : List UInt8} :
    (read r info : Build T F M α) s = .ok a s' ↔ Read.run r info = .ok a ∧ s = s' := ofExcept_eq_ok

theorem kindOf_eq_ok {version : Version} {x : Attribute} {kind : AttributeKind} :
    (kindOf version x : Build T F M _) s = .ok kind s' ↔
      (∃ name, s.pool.text x.name = .ok name ∧ .classify name version = kind) ∧ s = s' := by
  unfold kindOf text
  simp only [bind_eq_ok, pool_eq_ok, ofExcept_eq_ok, pure_eq_ok]
  constructor
  · rintro ⟨name, _, ⟨_, _, ⟨rfl, rfl⟩, hname, rfl⟩, hkind, rfl⟩
    exact ⟨⟨name, hname, hkind⟩, rfl⟩
  · rintro ⟨⟨name, hname, hkind⟩, rfl⟩
    exact ⟨name, s, ⟨s.pool, s, ⟨rfl, rfl⟩, hname, rfl⟩, hkind, rfl⟩

theorem annotations_eq_ok {info : List UInt8} {as : List Annotation} :
    (annotations info : Build T F M _) s = .ok as s' ↔
      Read.run s.pool.elementConstants.readAnnotations info = .ok as ∧ s = s' := by
  unfold annotations
  simp only [bind_eq_ok, pool_eq_ok, read_eq_ok]
  constructor
  · rintro ⟨_, _, ⟨rfl, rfl⟩, hread, rfl⟩
    exact ⟨hread, rfl⟩
  · rintro ⟨hread, rfl⟩
    exact ⟨s.pool, s, ⟨rfl, rfl⟩, hread, rfl⟩

/-! ## Computations that mark -/

/-- If the computation succeeds, it has marked just these constants. -/
def Marks (x : Build T F M α) (needs : Pool T F M → Index → Prop) : Prop :=
  ∀ s a s', x s = .ok a s' → BuildState.Marked (needs s.pool) s s'

/-- Nothing is marked. -/
def Quiet (x : Build T F M α) : Prop := x.Marks fun _ _ => False

theorem marks_require (indices : List Index) : (require indices : Build T F M Unit).Marks fun _ i => i ∈ indices := by
  intro s a s' h
  cases h
  refine ⟨indices.map .require, ?_, ?_, ?_⟩
  · simp [Upkeep.IsPreparation]
  · rw [List.foldl_map]
    rfl
  · simp

namespace Quiet

theorem of_pool_eq {x : Build T F M α} (h : ∀ s a s', x s = .ok a s' → s'.pool = s.pool) : x.Quiet :=
  fun s a s' hx => .of_eq (h s a s' hx)

theorem pure (a : α) : (Pure.pure a : Build T F M α).Quiet :=
  of_pool_eq fun s b s' h => by
    rw [(pure_eq_ok.mp h).2]

theorem throw (fault : FormatFault) : (MonadExcept.throw fault : Build T F M α).Quiet :=
  fun _ _ _ h => (throw_eq_ok.mp h).elim

theorem ofExcept (x : Except FormatFault α) : (MonadExcept.ofExcept x : Build T F M α).Quiet :=
  of_pool_eq fun s a s' h => by
    rw [(ofExcept_eq_ok.mp h).2]

theorem pool : (Build.pool : Build T F M _).Quiet :=
  of_pool_eq fun s p s' h => by
    rw [(pool_eq_ok.mp h).2]

theorem warn (w : Warning) : (Build.warn w : Build T F M Unit).Quiet :=
  of_pool_eq fun s a s' h => by
    cases h
    rfl

theorem exposeTexts : (Build.exposeTexts : Build T F M Unit).Quiet := by
  intro s a s' h
  cases h
  exact ⟨[.exposeTexts], by simp [Upkeep.IsPreparation], rfl, by simp⟩

theorem bind {x : Build T F M α} {f : α → Build T F M β} (hx : x.Quiet) (hf : ∀ a, (f a).Quiet) : (x >>= f).Quiet := by
  intro s b s' h
  obtain ⟨a, m, ha, hb⟩ := bind_eq_ok.mp h
  exact ((hx s a m ha).trans (hf a m b s' hb)).congr fun i => or_self_iff

theorem foldlM {f : β → α → Build T F M β} (hf : ∀ b a, (f b a).Quiet) (l : List α) (b : β) :
    (l.foldlM f b).Quiet := by
  induction l generalizing b with
  | nil => exact pure b
  | cons a l ih => exact (hf b a).bind ih

theorem mapM {f : α → Build T F M β} (hf : ∀ a, (f a).Quiet) (l : List α) : (l.mapM f).Quiet := by
  induction l with
  | nil => exact pure []
  | cons a l ih =>
    rw [List.mapM_cons]
    exact (hf a).bind fun b => ih.bind fun bs => pure (b :: bs)

theorem check {p : Prop} [Decidable p] {fault : FormatFault} {f : α → Build T F M β} {next : Build T F M β}
    (hnext : next.Quiet) : (if p then MonadExcept.throw fault >>= f else next).Quiet :=
  fun s b s' h => hnext s b s' (ite_throw_eq_ok.mp h).2

theorem text (i : Index) : (Build.text i : Build T F M _).Quiet := pool.bind fun _ => ofExcept _

theorem className (i : Index) : (Build.className i : Build T F M _).Quiet := pool.bind fun _ => ofExcept _

theorem read (r : Read FormatFault α) (info : List UInt8) : (Build.read r info : Build T F M α).Quiet := ofExcept _

theorem kindOf (version : Version) (a : Attribute) : (Build.kindOf version a : Build T F M _).Quiet :=
  (text a.name).bind fun _ => pure _

theorem singleIndex (fault : FormatFault) (info : List UInt8) :
    (Build.singleIndex fault info : Build T F M _).Quiet := by
  unfold Build.singleIndex
  split
  · exact read _ _
  · exact throw fault

theorem singleText (kind : String) (info : List UInt8) : (Build.singleText kind info : Build T F M _).Quiet :=
  (singleIndex _ info).bind text

theorem annotations (info : List UInt8) : (Build.annotations info : Build T F M _).Quiet :=
  pool.bind fun _ => read _ _

end Quiet

/-- What is needed can be told from any later pool as well. -/
def Lasting (needs : Pool T F M → Index → Prop) : Prop :=
  ∀ {p q : Pool T F M}, q.frozen = p.frozen → ∀ i, needs q i ↔ needs p i

namespace Marks

theorem bind {x : Build T F M α} {f : α → Build T F M β} {needs needs' : Pool T F M → Index → Prop}
    (hx : x.Marks needs) (hf : ∀ a, (f a).Marks needs') (hneeds : Lasting needs') :
    (x >>= f).Marks fun p i => needs p i ∨ needs' p i := by
  intro s b s' h
  obtain ⟨a, m, ha, hb⟩ := bind_eq_ok.mp h
  have hfirst := hx s a m ha
  exact (hfirst.trans (hf a m b s' hb)).congr fun i => or_congr_right (hneeds hfirst.frozen i)

theorem bind_quiet {x : Build T F M α} {f : α → Build T F M β} {needs : Pool T F M → Index → Prop}
    (hx : x.Marks needs) (hf : ∀ a, (f a).Quiet) : (x >>= f).Marks needs :=
  fun s b s' h => ((hx.bind hf fun _ _ => Iff.rfl) s b s' h).congr fun _ => or_iff_left not_false

theorem after_quiet {x : Build T F M α} {f : α → Build T F M β} {needs : Pool T F M → Index → Prop}
    (hx : x.Quiet) (hf : ∀ a, (f a).Marks needs) (hneeds : Lasting needs) : (x >>= f).Marks needs :=
  fun s b s' h => ((Marks.bind hx hf hneeds) s b s' h).congr fun _ => or_iff_right not_false

variable {needs : α → Pool T F M → Index → Prop}

theorem foldlM {f : β → α → Build T F M β} (hf : ∀ b a, (f b a).Marks (needs a)) (hneeds : ∀ a, Lasting (needs a))
    (l : List α) (b : β) : (l.foldlM f b).Marks fun p i => ∃ a ∈ l, needs a p i := by
  induction l generalizing b with
  | nil => exact fun s c s' h => (Quiet.pure b s c s' h).congr fun i => by simp
  | cons a l ih =>
    have hrest : Lasting fun p i => ∃ a ∈ l, needs a p i := fun h i => by simp only [hneeds _ h i]
    exact fun s c s' h => (((hf b a).bind ih hrest) s c s' h).congr fun i => by simp

theorem mapM {f : α → Build T F M β} (hf : ∀ a, (f a).Marks (needs a)) (hneeds : ∀ a, Lasting (needs a))
    (l : List α) : (l.mapM f).Marks fun p i => ∃ a ∈ l, needs a p i := by
  induction l with
  | nil => exact fun s c s' h => (Quiet.pure [] s c s' h).congr fun i => by simp
  | cons a l ih =>
    have hrest : Lasting fun p i => ∃ a ∈ l, needs a p i := fun h i => by simp only [hneeds _ h i]
    rw [List.mapM_cons]
    intro s c s' h
    refine (((hf a).bind (fun b => ih.bind_quiet fun bs => .pure (b :: bs)) hrest) s c s' h).congr ?_
    intro i
    simp

end Marks

end Build

end JvmClass
