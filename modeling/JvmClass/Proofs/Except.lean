/-
  JvmClass.Proofs.Except — opening computations that may fail.

  A chain of steps succeeds exactly if each step does; `bind_eq_ok` peels off the first one. A
  list is mapped exactly if each of its items is (`mapM_eq_some_iff`, `mapM_eq_ok_iff`), and folded
  if each of its items can be, where that does not depend on the state (`exists_foldlM_eq_ok_iff`);
  what a fold fails with is what one of its steps fails with (`exists_of_foldlM_eq_error`).
-/

namespace Except

variable {ε α β : Type}

theorem pure_eq_ok {a b : α} : (pure a : Except ε α) = .ok b ↔ a = b := Except.ok.injEq a b ▸ Iff.rfl

theorem throw_ne_ok {e : ε} {a : α} : (throw e : Except ε α) ≠ .ok a := fun h => nomatch h

theorem bind_eq_ok {x : Except ε α} {f : α → Except ε β} {b : β} :
    x >>= f = .ok b ↔ ∃ a, x = .ok a ∧ f a = .ok b := by
  cases x with
  | ok a =>
    constructor
    · intro h
      exact ⟨a, rfl, h⟩
    · intro ⟨_, ha, h⟩
      cases ha
      exact h
  | error e => exact iff_of_false (fun h => nomatch h) fun ⟨_, ha, _⟩ => nomatch ha

theorem bind_eq_error {x : Except ε α} {f : α → Except ε β} {e : ε} :
    x >>= f = .error e ↔ x = .error e ∨ ∃ a, x = .ok a ∧ f a = .error e := by
  cases x with
  | ok a =>
    constructor
    · intro h
      exact .inr ⟨a, rfl, h⟩
    · intro h
      rcases h with h | ⟨_, ha, h⟩
      · cases h
      · cases ha
        exact h
  | error e' =>
    constructor
    · intro h
      cases h
      exact .inl rfl
    · intro h
      rcases h with h | ⟨_, ha, _⟩
      · cases h
        rfl
      · cases ha

/-- A computation after a check. -/
theorem ite_throw_eq_ok {p : Prop} [Decidable p] {e : ε} {f : α → Except ε β} {next : Except ε β} {b : β} :
    (if p then throw e >>= f else next) = .ok b ↔ ¬p ∧ next = .ok b := by
  by_cases hp : p
  · rw [if_pos hp, bind_eq_ok]
    exact iff_of_false (fun ⟨_, h, _⟩ => throw_ne_ok h) fun h => h.1 hp
  · rw [if_neg hp]
    exact (and_iff_right hp).symm

theorem map_eq_ok {x : Except ε α} {f : α → β} {b : β} : x.map f = .ok b ↔ ∃ a, x = .ok a ∧ f a = b := by
  cases x with
  | ok a =>
    constructor
    · intro h
      cases h
      exact ⟨a, rfl, rfl⟩
    · intro ⟨_, ha, h⟩
      cases ha
      exact congrArg Except.ok h
  | error e => exact iff_of_false (fun h => nomatch h) fun ⟨_, ha, _⟩ => nomatch ha

theorem map_eq_error {x : Except ε α} {f : α → β} {e : ε} : x.map f = .error e ↔ x = .error e := by
  cases x with
  | ok a => exact iff_of_false (fun h => nomatch h) fun h => nomatch h
  | error e' =>
    constructor
    · intro h
      cases h
      rfl
    · intro h
      cases h
      rfl

theorem exists_eq_error_iff {x : Except ε α} : (∃ e, x = .error e) ↔ ¬∃ a, x = .ok a := by
  cases x with
  | ok a => exact iff_of_false (fun ⟨_, h⟩ => nomatch h) (not_not_intro ⟨a, rfl⟩)
  | error e => exact iff_of_true ⟨e, rfl⟩ fun ⟨_, h⟩ => nomatch h

theorem toOption_eq_some_iff {x : Except ε α} {a : α} : x.toOption = some a ↔ x = .ok a := by
  cases x with
  | ok b =>
    constructor
    · intro h
      cases h
      rfl
    · intro h
      cases h
      rfl
  | error e => exact iff_of_false (fun h => nomatch h) fun h => nomatch h

theorem toOption_eq_none_iff {x : Except ε α} : x.toOption = none ↔ ∃ e, x = .error e := by
  cases x with
  | ok a => exact iff_of_false (fun h => nomatch h) fun ⟨_, h⟩ => nomatch h
  | error e => exact iff_of_true rfl ⟨e, rfl⟩

theorem mapError_eq_ok {ε' : Type} {x : Except ε α} {f : ε → ε'} {a : α} : x.mapError f = .ok a ↔ x = .ok a := by
  cases x with
  | ok b =>
    constructor
    · intro h
      cases h
      rfl
    · intro h
      cases h
      rfl
  | error e => exact iff_of_false (fun h => nomatch h) fun h => nomatch h

end Except

namespace List

variable {ε α β : Type}

theorem mapM_eq_some_iff {f : α → Option β} {l : List α} {l' : List β} :
    l.mapM f = some l' ↔ l.map f = l'.map some := by
  induction l generalizing l' with
  | nil => cases l' <;> simp
  | cons a l ih =>
    simp only [mapM_cons, Option.bind_eq_bind, Option.bind_eq_some_iff, Option.pure_def, Option.some.injEq, ih,
      map_cons]
    constructor
    · intro ⟨b, hb, bs, hbs, h⟩
      rw [← h, hb, hbs, map_cons]
    · intro h
      cases l' with
      | nil => cases h
      | cons b bs =>
        injection h with hb hbs
        exact ⟨b, hb, bs, hbs, rfl⟩

theorem mapM_eq_none_iff {f : α → Option β} {l : List α} : l.mapM f = none ↔ ∃ a ∈ l, f a = none := by
  induction l with
  | nil => simp
  | cons a l ih =>
    rw [mapM_cons]
    cases ha : f a with
    | none => simp [ha]
    | some b =>
      have hmem : (∃ a' ∈ a :: l, f a' = none) ↔ ∃ a' ∈ l, f a' = none := by simp [ha]
      rw [hmem, ← ih]
      cases l.mapM f with
      | none => exact iff_of_true rfl rfl
      | some bs => exact iff_of_false (fun h => nomatch h) (fun h => nomatch h)

theorem mapM_eq_ok_iff {f : α → Except ε β} {l : List α} {l' : List β} :
    l.mapM f = .ok l' ↔ l.map f = l'.map .ok := by
  induction l generalizing l' with
  | nil => cases l' <;> simp [Except.pure_eq_ok]
  | cons a l ih =>
    simp only [mapM_cons, Except.bind_eq_ok, Except.pure_eq_ok, ih, map_cons]
    constructor
    · intro ⟨b, hb, bs, hbs, h⟩
      rw [← h, hb, hbs, map_cons]
    · intro h
      cases l' with
      | nil => cases h
      | cons b bs =>
        injection h with hb hbs
        exact ⟨b, hb, bs, hbs, rfl⟩

theorem exists_mapM_eq_ok_iff {f : α → Except ε β} {l : List α} :
    (∃ l', l.mapM f = .ok l') ↔ ∀ a ∈ l, ∃ b, f a = .ok b := by
  induction l with
  | nil => exact iff_of_true ⟨[], rfl⟩ fun a h => nomatch h
  | cons a l ih =>
    rw [forall_mem_cons, ← ih]
    simp only [mapM_cons, Except.bind_eq_ok, Except.pure_eq_ok]
    constructor
    · intro ⟨_, b, hb, bs, hbs, _⟩
      exact ⟨⟨b, hb⟩, ⟨bs, hbs⟩⟩
    · intro ⟨⟨b, hb⟩, ⟨bs, hbs⟩⟩
      exact ⟨b :: bs, b, hb, bs, hbs, rfl⟩

theorem mapM_filter_cons_eq_ok {f : α → Except ε β} {test : α → Bool} {a : α} {b : β} {l : List α} {l' : List β}
    (htest : test a = true) (hb : f a = .ok b) (hl : (l.filter test).mapM f = .ok l') :
    ((a :: l).filter test).mapM f = .ok (b :: l') := by
  rw [filter_cons_of_pos htest, mapM_cons, Except.bind_eq_ok]
  exact ⟨b, hb, by rw [hl]; rfl⟩

/-- A fold of steps that succeed or fail whatever came before them. -/
theorem exists_foldlM_eq_ok_iff {f : β → α → Except ε β} {P : α → Prop} (hf : ∀ b a, (∃ b', f b a = .ok b') ↔ P a)
    {l : List α} {b : β} : (∃ b', l.foldlM f b = .ok b') ↔ ∀ a ∈ l, P a := by
  induction l generalizing b with
  | nil => exact iff_of_true ⟨b, rfl⟩ fun a h => nomatch h
  | cons a l ih =>
    simp only [foldlM_cons, Except.bind_eq_ok, forall_mem_cons]
    constructor
    · intro ⟨b', m, hm, hrest⟩
      exact ⟨(hf b a).mp ⟨m, hm⟩, ih.mp ⟨b', hrest⟩⟩
    · intro ⟨ha, hl⟩
      obtain ⟨m, hm⟩ := (hf b a).mpr ha
      obtain ⟨b', hrest⟩ := ih.mpr hl
      exact ⟨b', m, hm, hrest⟩

/-- What a fold fails with is what one of its steps fails with. -/
theorem exists_of_foldlM_eq_error {f : β → α → Except ε β} {l : List α} {b : β} {e : ε} (h : l.foldlM f b = .error e) :
    ∃ a ∈ l, ∃ b', f b' a = .error e := by
  induction l generalizing b with
  | nil => cases h
  | cons a l ih =>
    rw [foldlM_cons, Except.bind_eq_error] at h
    rcases h with h | ⟨b', -, h⟩
    · exact ⟨a, mem_cons_self, b, h⟩
    · obtain ⟨a', ha', hfails⟩ := ih h
      exact ⟨a', mem_cons_of_mem a ha', hfails⟩

end List
