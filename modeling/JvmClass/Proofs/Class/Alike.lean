/-
  JvmClass.Proofs.Class.Alike — computations that come to the same.

  On all pools that have in common what never changes, a computation that builds part of a class
  either fails or has one answer and one way to prepare the pool (`Build.Fails`, `Build.Answers`). Two
  computations are alike if both fail, or both succeed with related answers and preparations that come
  to the same (`Build.Alike`). Computations put together are alike if their parts are.

  Attributes may be read in another order if each kind of attribute has a slot of its own in what is
  built, and reads and fills only that (`Slots.KeptApart.foldlM_perm`). Those of one kind may be left out
  where reading them cannot fail: that changes nothing but the slot of the kind
  (`Slots.KeptApart.foldlM_filter`).
-/

import JvmClass.Proofs.Class.Lasting

namespace JvmClass

variable {T F M α β γ δ : Type}

namespace Build

/-! ## Outcomes -/

/-- On no pool like `p` there is an answer. -/
def Fails (p : Pool T F M) (x : Build T F M α) : Prop :=
  ∀ s, s.pool.frozen = p.frozen → ∃ fault s', x s = .error fault s'

/-- On all pools like `p` this is the answer, and these are the preparations. -/
structure Answers (p : Pool T F M) (x : Build T F M α) (a : α) (us : List (Upkeep T F M)) : Prop where
  preparations : ∀ u ∈ us, u.IsPreparation
  eq_ok : ∀ s, s.pool.frozen = p.frozen → ∃ s', x s = .ok a s' ∧ s'.pool = us.foldl Upkeep.apply s.pool

/-- The preparations come to the same on pools like `p`. -/
def SameEffect (p : Pool T F M) (us vs : List (Upkeep T F M)) : Prop :=
  ∀ q : Pool T F M, q.frozen = p.frozen → us.foldl Upkeep.apply q = vs.foldl Upkeep.apply q

/-- Both fail, or the answers are related and the preparations come to the same. -/
inductive Alike (p : Pool T F M) (R : α → β → Prop) (x : Build T F M α) (y : Build T F M β) : Prop
  | fail (left : Fails p x) (right : Fails p y)
  | ok {a : α} {b : β} {us vs : List (Upkeep T F M)} (left : Answers p x a us) (right : Answers p y b vs)
      (related : R a b) (effect : SameEffect p us vs)

variable {p : Pool T F M}

theorem SameEffect.append {us us' vs vs' : List (Upkeep T F M)} (h : SameEffect p us vs) (h' : SameEffect p us' vs') :
    SameEffect p (us ++ us') (vs ++ vs') := by
  intro q hq
  rw [List.foldl_append, List.foldl_append, h q hq]
  exact h' _ ((Upkeep.frozen_foldl q vs).trans hq)

theorem SameEffect.append_comm {us vs : List (Upkeep T F M)} (hus : ∀ u ∈ us, u.IsPreparation)
    (hvs : ∀ v ∈ vs, v.IsPreparation) : SameEffect p (us ++ vs) (vs ++ us) :=
  fun q _ => Upkeep.foldl_perm (List.forall_mem_append.mpr ⟨hus, hvs⟩) List.perm_append_comm q

theorem Answers.not_fails {x : Build T F M α} {a : α} {us : List (Upkeep T F M)} (h : Answers p x a us) :
    ¬Fails p x := by
  intro hfails
  obtain ⟨s', hok, -⟩ := h.eq_ok ⟨p, #[]⟩ rfl
  obtain ⟨fault, s'', herror⟩ := hfails ⟨p, #[]⟩ rfl
  rw [hok] at herror
  cases herror

/-- There is only one answer, and one effect. -/
theorem Answers.unique {x : Build T F M α} {a b : α} {us vs : List (Upkeep T F M)} (h : Answers p x a us)
    (h' : Answers p x b vs) : a = b ∧ SameEffect p us vs := by
  have hsame (s : BuildState T F M) (hs : s.pool.frozen = p.frozen) :
      a = b ∧ us.foldl Upkeep.apply s.pool = vs.foldl Upkeep.apply s.pool := by
    obtain ⟨s', hok, hpool⟩ := h.eq_ok s hs
    obtain ⟨s'', hok', hpool'⟩ := h'.eq_ok s hs
    rw [hok] at hok'
    cases hok'
    exact ⟨rfl, hpool ▸ hpool'⟩
  exact ⟨(hsame ⟨p, #[]⟩ rfl).1, fun q hq => (hsame ⟨q, #[]⟩ hq).2⟩

theorem Fails.throw (fault : FormatFault) : Fails p (MonadExcept.throw fault : Build T F M α) :=
  fun s _ => ⟨fault, s, rfl⟩

/-! ### One after the other -/

theorem Fails.bind {x : Build T F M α} (h : Fails p x) (f : α → Build T F M β) : Fails p (x >>= f) := by
  intro s hs
  obtain ⟨fault, s', herror⟩ := h s hs
  refine ⟨fault, s', ?_⟩
  show EStateM.bind x f s = _
  rw [EStateM.bind, herror]

theorem Answers.bind_apply {x : Build T F M α} {a : α} {us : List (Upkeep T F M)} (h : Answers p x a us)
    (f : α → Build T F M β) {s : BuildState T F M} (hs : s.pool.frozen = p.frozen) :
    ∃ s', s'.pool = us.foldl Upkeep.apply s.pool ∧ s'.pool.frozen = p.frozen ∧ (x >>= f) s = f a s' := by
  obtain ⟨s', hok, hpool⟩ := h.eq_ok s hs
  refine ⟨s', hpool, ?_, ?_⟩
  · rw [hpool, Upkeep.frozen_foldl, hs]
  · show EStateM.bind x f s = _
    rw [EStateM.bind, hok]

theorem Answers.bind_fails {x : Build T F M α} {a : α} {us : List (Upkeep T F M)} (h : Answers p x a us)
    {f : α → Build T F M β} (hf : Fails p (f a)) : Fails p (x >>= f) := by
  intro s hs
  obtain ⟨s', -, hs', heq⟩ := h.bind_apply f hs
  rw [heq]
  exact hf s' hs'

theorem Answers.bind {x : Build T F M α} {a : α} {us vs : List (Upkeep T F M)} (h : Answers p x a us)
    {f : α → Build T F M β} {b : β} (hf : Answers p (f a) b vs) : Answers p (x >>= f) b (us ++ vs) := by
  refine ⟨List.forall_mem_append.mpr ⟨h.preparations, hf.preparations⟩, fun s hs => ?_⟩
  obtain ⟨s', hpool, hs', heq⟩ := h.bind_apply f hs
  obtain ⟨s'', hok, hpool'⟩ := hf.eq_ok s' hs'
  exact ⟨s'', heq.trans hok, by rw [hpool', hpool, List.foldl_append]⟩

/-! ## Alike -/

namespace Alike

variable {R : α → β → Prop} {S : γ → δ → Prop}

theorem pure {a : α} {b : β} (h : R a b) : Alike p R (Pure.pure a) (Pure.pure b) :=
  have hanswers {α : Type} (a : α) : Answers p (Pure.pure a) a [] := ⟨fun _ h => (nomatch h), fun s _ => ⟨s, rfl, rfl⟩⟩
  .ok (hanswers a) (hanswers b) h fun _ _ => rfl

theorem throw (e e' : FormatFault) : Alike p R (MonadExcept.throw e) (MonadExcept.throw e') :=
  .fail (.throw e) (.throw e')

/-- The answer is that of the computation that may fail. -/
theorem ofExcept_ok (x : Except FormatFault α) :
    Alike p (fun a b => x = .ok a ∧ a = b) (MonadExcept.ofExcept x) (MonadExcept.ofExcept x) := by
  cases x with
  | ok a => exact pure ⟨rfl, rfl⟩
  | error e => exact throw e e

/-- A computation that does the same with every pool like `p` may as well be given `p`. -/
theorem pool_bind {f : Pool T F M → Build T F M α} {g : Pool T F M → Build T F M β}
    (hf : ∀ q, q.frozen = p.frozen → f q = f p) (hg : ∀ q, q.frozen = p.frozen → g q = g p)
    (h : Alike p R (f p) (g p)) : Alike p R (Build.pool >>= f) (Build.pool >>= g) := by
  have happly {α : Type} {f : Pool T F M → Build T F M α} (hf : ∀ q, q.frozen = p.frozen → f q = f p)
      (s : BuildState T F M) (hs : s.pool.frozen = p.frozen) : (Build.pool >>= f) s = f p s := by
    show f s.pool s = f p s
    rw [hf s.pool hs]
  cases h with
  | fail left right =>
    refine .fail (fun s hs => ?_) fun s hs => ?_
    · rw [happly hf s hs]
      exact left s hs
    · rw [happly hg s hs]
      exact right s hs
  | ok left right related effect =>
    refine .ok ⟨left.preparations, fun s hs => ?_⟩ ⟨right.preparations, fun s hs => ?_⟩ related effect
    · rw [happly hf s hs]
      exact left.eq_ok s hs
    · rw [happly hg s hs]
      exact right.eq_ok s hs

theorem warn (w w' : Warning) : Alike p Eq (Build.warn w) (Build.warn w') :=
  have hanswers (w : Warning) : Answers p (Build.warn w) () [] :=
    ⟨fun _ h => (nomatch h), fun s _ => ⟨{ s with warnings := s.warnings.push w }, rfl, rfl⟩⟩
  .ok (hanswers w) (hanswers w') rfl fun _ _ => rfl

theorem require (is : List Index) : Alike p Eq (Build.require is) (Build.require is) := by
  have hanswers : Answers p (Build.require is) () (is.map .require) := by
    refine ⟨fun u hu => ?_, fun s _ => ⟨{ s with pool := s.pool.requireAll is }, rfl, ?_⟩⟩
    · obtain ⟨i, -, rfl⟩ := List.mem_map.mp hu
      exact trivial
    · rw [List.foldl_map]
      rfl
  exact .ok hanswers hanswers rfl fun _ _ => rfl

theorem exposeTexts : Alike p Eq Build.exposeTexts Build.exposeTexts := by
  have hanswers : Answers p Build.exposeTexts () [.exposeTexts] := by
    refine ⟨fun u hu => ?_, fun s _ => ⟨{ s with pool := s.pool.exposeTexts }, rfl, rfl⟩⟩
    cases List.mem_singleton.mp hu
    exact trivial
  exact .ok hanswers hanswers rfl fun _ _ => rfl

theorem bind {x : Build T F M α} {y : Build T F M β} {f : α → Build T F M γ} {g : β → Build T F M δ}
    (hx : Alike p R x y) (hf : ∀ a b, R a b → Alike p S (f a) (g b)) : Alike p S (x >>= f) (y >>= g) := by
  cases hx with
  | fail left right => exact .fail (left.bind f) (right.bind g)
  | ok left right related effect =>
    cases hf _ _ related with
    | fail left' right' => exact .fail (left.bind_fails left') (right.bind_fails right')
    | ok left' right' related' effect' =>
      exact .ok (left.bind left') (right.bind right') related' (effect.append effect')

theorem mono {R' : α → β → Prop} {x : Build T F M α} {y : Build T F M β} (hx : Alike p R x y)
    (h : ∀ a b, R a b → R' a b) : Alike p R' x y := by
  cases hx with
  | fail left right => exact .fail left right
  | ok left right related effect => exact .ok left right (h _ _ related) effect

theorem ofExcept (x : Except FormatFault α) : Alike p Eq (MonadExcept.ofExcept x) (MonadExcept.ofExcept x) :=
  (ofExcept_ok x).mono fun _ _ h => h.2

theorem trans {x y z : Build T F M α} (hx : Alike p Eq x y) (hy : Alike p Eq y z) : Alike p Eq x z := by
  cases hx with
  | fail left right =>
    cases hy with
    | fail left' right' => exact .fail left right'
    | ok left' right' related' effect' => exact absurd right left'.not_fails
  | ok left right related effect =>
    cases hy with
    | fail left' right' => exact absurd left' right.not_fails
    | ok left' right' related' effect' =>
      obtain ⟨hanswer, hsame⟩ := right.unique left'
      refine .ok left right' (related.trans (hanswer.trans related')) fun q hq => ?_
      rw [effect q hq, hsame q hq, effect' q hq]

/-- Started in one state, both come to the same answer and the same pool, or neither comes to any. -/
theorem eq_ok_iff {x y : Build T F M α} (h : Alike p Eq x y) {s : BuildState T F M} (hs : s.pool.frozen = p.frozen)
    {a : α} {q : Pool T F M} : (∃ s', x s = .ok a s' ∧ s'.pool = q) ↔ ∃ s', y s = .ok a s' ∧ s'.pool = q := by
  cases h with
  | fail left right =>
    obtain ⟨_, _, hleft⟩ := left s hs
    obtain ⟨_, _, hright⟩ := right s hs
    simp [hleft, hright]
  | ok left right related effect =>
    obtain ⟨s₁, hleft, hpool⟩ := left.eq_ok s hs
    obtain ⟨s₂, hright, hpool'⟩ := right.eq_ok s hs
    have hsame : s₁.pool = s₂.pool := by rw [hpool, hpool', effect s.pool hs]
    simp [hleft, hright, related, hsame]

theorem succeeds_iff {x : Build T F M α} {y : Build T F M β} (h : Alike p R x y) {s : BuildState T F M}
    (hs : s.pool.frozen = p.frozen) : (∃ a s', x s = .ok a s') ↔ ∃ b s', y s = .ok b s' := by
  cases h with
  | fail left right =>
    obtain ⟨_, _, hleft⟩ := left s hs
    obtain ⟨_, _, hright⟩ := right s hs
    simp [hleft, hright]
  | ok left right related effect =>
    obtain ⟨s₁, hleft, -⟩ := left.eq_ok s hs
    obtain ⟨s₂, hright, -⟩ := right.eq_ok s hs
    exact iff_of_true ⟨_, s₁, hleft⟩ ⟨_, s₂, hright⟩

/-- What is done first on one side only cannot fail and prepares nothing. -/
theorem bind_left {x : Build T F M α} {a : α} {f : α → Build T F M β} {y : Build T F M γ} {R : β → γ → Prop}
    (hx : Answers p x a []) (hf : Alike p R (f a) y) : Alike p R (x >>= f) y := by
  cases hf with
  | fail left right => exact .fail (hx.bind_fails left) right
  | ok left right related effect => exact .ok (hx.bind left) right related effect

theorem check {c : Prop} [Decidable c] {e : FormatFault} {f : γ → Build T F M α} {g : δ → Build T F M β}
    {x : Build T F M α} {y : Build T F M β} {e' : FormatFault} (h : ¬c → Alike p R x y) :
    Alike p R (if c then MonadExcept.throw e >>= f else x) (if c then MonadExcept.throw e' >>= g else y) := by
  by_cases hc : c
  · rw [if_pos hc, if_pos hc]
    exact .fail ((Fails.throw e).bind f) ((Fails.throw e').bind g)
  · rw [if_neg hc, if_neg hc]
    exact h hc

theorem foldlM {Q : γ → δ → Prop} {f : γ → α → Build T F M γ} {g : δ → α → Build T F M δ}
    (hf : ∀ b c a, Q b c → Alike p Q (f b a) (g c a)) (l : List α) {b : γ} {c : δ} (hb : Q b c) :
    Alike p Q (l.foldlM f b) (l.foldlM g c) := by
  induction l generalizing b c with
  | nil => exact pure hb
  | cons a l ih =>
    rw [List.foldlM_cons, List.foldlM_cons]
    exact (hf b c a hb).bind fun b' c' hb' => ih hb'

theorem mapM {Q : α → β → Prop} {f : α → Build T F M γ} {g : β → Build T F M γ}
    (hf : ∀ a b, Q a b → Alike p Eq (f a) (g b)) {l : List α} {l' : List β} (h : List.Forall₂ Q l l') :
    Alike p Eq (l.mapM f) (l'.mapM g) := by
  induction h with
  | nil => exact pure rfl
  | cons hab _ ih =>
    rw [List.mapM_cons, List.mapM_cons]
    refine (hf _ _ hab).bind fun c c' hc => ih.bind fun cs cs' hcs => pure ?_
    rw [hc, hcs]

/-! ### Readers -/

theorem text_ok (i : Index) :
    Alike p (fun s s' => p.text i = .ok s ∧ s = s') (Build.text i) (Build.text i) :=
  have htext (q : Pool T F M) (hq : q.frozen = p.frozen) :
      (MonadExcept.ofExcept (q.text i) : Build T F M _) = MonadExcept.ofExcept (p.text i) := by
    rw [Pool.text_of_frozen hq]
  pool_bind htext htext (ofExcept_ok _)

theorem text (i : Index) : Alike p Eq (Build.text i) (Build.text i) := (text_ok i).mono fun _ _ h => h.2

/-- Computations that go on from the kind of an attribute. -/
theorem kindOf_bind {version : Version} {a : Attribute} {f : AttributeKind → Build T F M α}
    {g : AttributeKind → Build T F M β} (h : ∀ kind, a.IsKind p version kind → Alike p R (f kind) (g kind)) :
    Alike p R (Build.kindOf version a >>= f) (Build.kindOf version a >>= g) := by
  have hkind : Alike p (fun kind kind' => a.IsKind p version kind ∧ kind = kind') (Build.kindOf version a)
      (Build.kindOf version a) :=
    (text_ok a.name).bind fun name _ hname => pure ⟨⟨name, hname.1, rfl⟩, hname.2 ▸ rfl⟩
  exact hkind.bind fun kind _ hof => hof.2 ▸ h kind hof.1

theorem className (i : Index) : Alike p Eq (Build.className i) (Build.className i) :=
  have hname (q : Pool T F M) (hq : q.frozen = p.frozen) :
      (MonadExcept.ofExcept (q.className i) : Build T F M _) = MonadExcept.ofExcept (p.className i) := by
    rw [Pool.className_of_frozen hq]
  pool_bind hname hname (ofExcept _)

theorem read (r : Read FormatFault α) (info : List UInt8) : Alike p Eq (Build.read r info) (Build.read r info) :=
  ofExcept _

theorem singleIndex (fault : FormatFault) (info : List UInt8) :
    Alike p Eq (Build.singleIndex fault info) (Build.singleIndex fault info) := by
  unfold Build.singleIndex
  split
  · exact read _ _
  · exact throw _ _

theorem singleText (kind : String) (info : List UInt8) :
    Alike p Eq (Build.singleText kind info) (Build.singleText kind info) :=
  (singleIndex _ info).bind fun i _ hij => hij ▸ text i

theorem annotations (info : List UInt8) : Alike p Eq (Build.annotations info) (Build.annotations info) :=
  have hread (q : Pool T F M) (hq : q.frozen = p.frozen) :
      (Build.read q.elementConstants.readAnnotations info : Build T F M _) =
        Build.read p.elementConstants.readAnnotations info := by
    rw [Pool.elementConstants_of_frozen hq]
  pool_bind hread hread (read _ _)

end Alike

end Build

/-! ## Attributes in any order -/

/-- What is built has a part for each kind of attribute, and for no known kind the part that no
    attribute tells of; all parts together are the whole. -/
structure Slots (β : Type) where
  part : AttributeKind → β → β
  ext : ∀ b c, (∀ kind, part kind b = part kind c) → b = c

namespace Slots

open Build (Alike Answers Fails SameEffect)

variable {p : Pool T F M} {version : Version} (S : Slots β)

/-- At most the part of this kind changes from the first to the second. -/
structure Fills (kind : AttributeKind) (b b' : β) : Prop where
  other : ∀ k, k ≠ kind → S.part k b' = S.part k b
  unknown : kind = .unknown → b' = b

variable {S}

theorem Fills.refl (kind : AttributeKind) (b : β) : S.Fills kind b b := ⟨fun _ _ => rfl, fun _ => rfl⟩

theorem Fills.trans {kind : AttributeKind} {b c d : β} (h : S.Fills kind b c) (h' : S.Fills kind c d) :
    S.Fills kind b d where
  other k hk := (h'.other k hk).trans (h.other k hk)
  unknown hkind := (h'.unknown hkind).trans (h.unknown hkind)

theorem Fills.part_unknown {kind : AttributeKind} {b b' : β} (h : S.Fills kind b b') :
    S.part .unknown b' = S.part .unknown b := by
  by_cases hkind : kind = .unknown
  · rw [h.unknown hkind]
  · exact h.other _ (Ne.symm hkind)

/-- The part of another kind is as before, or nothing has changed at all. -/
theorem Fills.part_eq {kind k : AttributeKind} {b b' : β} (h : S.Fills kind b b') (hk : k = kind → kind = .unknown) :
    S.part k b' = S.part k b := by
  by_cases hkind : k = kind
  · rw [h.unknown (hk hkind)]
  · exact h.other k hkind

variable (S) in
/-- From `b` and `c` on, the part of this kind has been filled alike. -/
structure FilledAlike (kind : AttributeKind) (b c b' c' : β) : Prop where
  part : S.part kind b' = S.part kind c'
  left : S.Fills kind b b'
  right : S.Fills kind c c'

theorem FilledAlike.of_part {kind : AttributeKind} {b c : β} (h : S.part kind b = S.part kind c) :
    S.FilledAlike kind b c b c := ⟨h, .refl kind b, .refl kind c⟩

theorem FilledAlike.trans {kind : AttributeKind} {b c b' c' b'' c'' : β} (h : S.FilledAlike kind b c b' c')
    (h' : S.FilledAlike kind b' c' b'' c'') : S.FilledAlike kind b c b'' c'' :=
  ⟨h'.part, h.left.trans h'.left, h.right.trans h'.right⟩

variable (S) in
/-- The same update on both sides fills the part alike. -/
theorem filledAlike_update (kind : AttributeKind) (update : β → β) {b c : β} (hkind : kind ≠ .unknown)
    (hother : ∀ k d, k ≠ kind → S.part k (update d) = S.part k d)
    (hpart : S.part kind (update b) = S.part kind (update c)) : S.FilledAlike kind b c (update b) (update c) :=
  ⟨hpart, ⟨fun k hk => hother k b hk, fun h => absurd h hkind⟩, ⟨fun k hk => hother k c hk, fun h => absurd h hkind⟩⟩

variable (S) in
/-- Attributes are read into parts of their own: a step depends on what no attribute tells of and on the
    part of its kind, and fills only that. -/
def KeptApart (p : Pool T F M) (version : Version) (f : β → Attribute → Build T F M β) : Prop :=
  ∀ a b c, S.part .unknown b = S.part .unknown c →
    (∀ kind, a.IsKind p version kind → S.part kind b = S.part kind c) →
    Alike p (fun b' c' => ∃ kind, a.IsKind p version kind ∧ S.FilledAlike kind b c b' c') (f b a) (f c a)

variable {f : β → Attribute → Build T F M β}

/-- After an attribute of another kind a step is what it was before it. -/
theorem KeptApart.after (hf : S.KeptApart p version f) {a a' : Attribute} {kind : AttributeKind} {b b' : β}
    (hkind : a'.IsKind p version kind) (hfills : S.Fills kind b b')
    (hapart : ∀ k, a.IsKind p version k → a'.IsKind p version k → k = .unknown) :
    Alike p (fun c c' => ∃ k, a.IsKind p version k ∧ S.FilledAlike k b b' c c') (f b a) (f b' a) := by
  refine hf a b b' hfills.part_unknown.symm fun k hk => (hfills.part_eq ?_).symm
  rintro rfl
  exact hapart k hk hkind

theorem KeptApart.alike_self (hf : S.KeptApart p version f) (a : Attribute) (b : β) : Alike p Eq (f b a) (f b a) := by
  refine (hf a b b rfl fun _ _ => rfl).mono fun c c' ⟨kind, _, h⟩ => S.ext c c' fun k => ?_
  by_cases hk : k = kind
  · rw [hk, h.part]
  · rw [h.left.other k hk, h.right.other k hk]

/-- Two attributes that are not of one known kind may be read the other way round. -/
theorem KeptApart.alike_swap (hf : S.KeptApart p version f) {x y : Attribute}
    (hapart : ∀ kind, x.IsKind p version kind → y.IsKind p version kind → kind = .unknown) (b : β) :
    Alike p Eq (f b x >>= fun c => f c y) (f b y >>= fun c => f c x) := by
  have hapart' : ∀ kind, y.IsKind p version kind → x.IsKind p version kind → kind = .unknown :=
    fun kind hy hx => hapart kind hx hy
  cases hf y b b rfl fun _ _ => rfl with
  | fail hy _ =>
    cases hf x b b rfl fun _ _ => rfl with
    | fail hx _ => exact .fail (hx.bind _) (hy.bind _)
    | ok hx _ related _ =>
      obtain ⟨kindX, hkindX, hfilled⟩ := related
      cases hf.after hkindX hfilled.left hapart' with
      | fail _ hyAfter => exact .fail (hx.bind_fails hyAfter) (hy.bind _)
      | ok hy' _ _ _ => exact absurd hy hy'.not_fails
  | ok hy _ related _ =>
    obtain ⟨kindY, hkindY, hfilledY⟩ := related
    cases hf.after hkindY hfilledY.left hapart with
    | fail hx hxAfter => exact .fail (hx.bind _) (hy.bind_fails hxAfter)
    | ok hx hxAfter related effectX =>
      obtain ⟨kindX, hkindX, hpartX, hfillsX, hfillsXAfter⟩ := related
      cases hf.after hkindX hfillsX hapart' with
      | fail hy' _ => exact absurd hy' hy.not_fails
      | ok hy' hyAfter related' effectY =>
        obtain ⟨kindY', hkindY', hpartY, -, hfillsYAfter⟩ := related'
        obtain rfl := hkindY'.eq hkindY
        obtain ⟨rfl, hsame⟩ := hy.unique hy'
        refine .ok (hx.bind hyAfter) (hy.bind hxAfter) (S.ext _ _ fun k => ?_) fun q hq => ?_
        · -- The part of each kind was filled by the attribute of the kind, if by any.
          by_cases hkX : k = kindX
          · subst hkX
            rw [← hpartX, hfillsYAfter.part_eq fun h => h ▸ hapart k hkindX (h ▸ hkindY)]
          · rw [hfillsXAfter.other k hkX]
            by_cases hkY : k = kindY'
            · rw [hkY, hpartY]
            · rw [hfillsYAfter.other k hkY, hfillsX.other k hkX, hfilledY.left.other k hkY]
        · have heffect : SameEffect p _ _ := effectX.append fun q hq => (effectY q hq).symm.trans (hsame q hq).symm
          rw [heffect q hq]
          exact SameEffect.append_comm hxAfter.preparations hy.preparations q hq

/-- Attributes of different kinds may be read in any order. -/
theorem KeptApart.foldlM_perm (hf : S.KeptApart p version f) {l l' : List Attribute} (h : l.Perm l')
    (hkinds : l.Pairwise fun x y => ∀ kind, x.IsKind p version kind → y.IsKind p version kind → kind = .unknown)
    (b : β) : Alike p Eq (l.foldlM f b) (l'.foldlM f b) := by
  have hself (l : List Attribute) (c c' : β) (hc : c = c') : Alike p Eq (l.foldlM f c) (l.foldlM f c') :=
    .foldlM (fun c _ a hc => hc ▸ hf.alike_self a c) l hc
  induction h generalizing b with
  | nil => exact .pure rfl
  | cons x _ ih =>
    rw [List.foldlM_cons, List.foldlM_cons]
    refine (hf.alike_self x b).bind fun c _ hc => hc ▸ ih (List.pairwise_cons.mp hkinds).2 c
  | swap x y l =>
    have hapart := (List.pairwise_cons.mp hkinds).1 x List.mem_cons_self
    simp only [List.foldlM_cons, ← bind_assoc]
    exact (hf.alike_swap hapart b).bind (hself l)
  | trans h _ ih ih' =>
    have hsymm : ∀ {x y : Attribute},
        (∀ kind, x.IsKind p version kind → y.IsKind p version kind → kind = .unknown) →
          ∀ kind, y.IsKind p version kind → x.IsKind p version kind → kind = .unknown :=
      fun hxy kind hy hx => hxy kind hx hy
    exact (ih hkinds b).trans (ih' ((h.pairwise_iff hsymm).mp hkinds) b)

variable (S) in
/-- All parts but the one of this kind are the same. -/
def SameBut (kind : AttributeKind) (b c : β) : Prop := ∀ k, k ≠ kind → S.part k b = S.part k c

/-- Attributes of one kind that are read without fail may as well be left out: all other parts are the same. -/
theorem KeptApart.foldlM_filter (hf : S.KeptApart p version f) {kind : AttributeKind} (hkind : kind ≠ .unknown)
    {test : Attribute → Bool} (htest : ∀ a, test a = false ↔ a.IsKind p version kind) {l : List Attribute}
    (hreads : ∀ a ∈ l, a.IsKind p version kind → ∀ b, ∃ b', Answers p (f b a) b' []) {b c : β}
    (h : S.SameBut kind b c) : Alike p (S.SameBut kind) (l.foldlM f b) ((l.filter test).foldlM f c) := by
  induction l generalizing b c with
  | nil => exact .pure h
  | cons a l ih =>
    obtain ⟨hread, hreads⟩ := List.forall_mem_cons.mp hreads
    by_cases ha : a.IsKind p version kind
    · obtain ⟨b', hanswers⟩ := hread ha b
      have hfills : S.Fills kind b b' := by
        cases hf a b b rfl fun _ _ => rfl with
        | fail hfails _ => exact absurd hfails hanswers.not_fails
        | ok hanswers' _ related _ =>
          obtain ⟨kind', hkind', hfilled⟩ := related
          obtain rfl := hkind'.eq ha
          exact (hanswers.unique hanswers').1 ▸ hfilled.left
      rw [List.filter_cons_of_neg (by simpa using (htest a).mpr ha), List.foldlM_cons]
      exact .bind_left hanswers (ih hreads fun k hk => (hfills.other k hk).trans (h k hk))
    · have hpart (k : AttributeKind) (hk : a.IsKind p version k) : S.part k b = S.part k c :=
        h k fun heq => ha (heq ▸ hk)
      have hkept : test a = true := by simpa using fun htrue => ha ((htest a).mp htrue)
      rw [List.filter_cons_of_pos hkept, List.foldlM_cons, List.foldlM_cons]
      refine (hf a b c (h .unknown hkind.symm) hpart).bind fun b' c' ⟨k', _, hfilled⟩ => ih hreads fun k hk => ?_
      by_cases hk' : k = k'
      · rw [hk', hfilled.part]
      · rw [hfilled.left.other k hk', hfilled.right.other k hk', h k hk]

end Slots

end JvmClass
