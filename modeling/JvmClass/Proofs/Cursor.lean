/-
  JvmClass.Proofs.Cursor — which bytes a successful read has taken.

  `c.Takes bytes c'` says that `bytes` lie between the cursors. A read is described by one
  equivalence, `read c = .ok a c' ↔ …`: from left to right it says that the read invents nothing,
  from right to left that it misses nothing, whatever follows. Where the bytes are how some `x` is
  written, that is `Read.Decodes`; reads that do so can be put together (`map`, `map₂`, `many`, and
  `counted_checked` where not every `x` will do). A read that undoes a writing of its own values, as
  far as they fit, `Read.Inverts` it (`counted`). Where a read fails (`Read.Fails`), so does the first of its
  parts that cannot go on (`bind_fails`, `Decodes.counted_fails`).
-/

import JvmClass.Cursor

namespace JvmClass

/-! ## Big-endian bytes -/

def shortBytes (n : UInt16) : List UInt8 := [(n.toNat / 0x100).toUInt8, n.toNat.toUInt8]

theorem length_shortBytes (n : UInt16) : (shortBytes n).length = 2 := rfl

def wordBytes (n : UInt32) : List UInt8 :=
  [(n.toNat / 0x1000000).toUInt8, (n.toNat / 0x10000).toUInt8, (n.toNat / 0x100).toUInt8,
    n.toNat.toUInt8]

def longBytes (n : UInt64) : List UInt8 :=
  wordBytes (n.toNat / 0x100000000).toUInt32 ++ wordBytes n.toNat.toUInt32

/-- The items' number, then the items. -/
def listBytes {α : Type} (bytes : α → List UInt8) (items : List α) : List UInt8 :=
  shortBytes items.length.toUInt16 ++ items.flatMap bytes

/-- There are few enough items for their number, and each fits. -/
def ListFits {α : Type} (Fits : α → Prop) (items : List α) : Prop :=
  items.length < 0x10000 ∧ ∀ item ∈ items, Fits item

theorem toNat_short_eq_iff {n : UInt16} {k : Nat} : n.toNat = k ↔ k < 0x10000 ∧ n = k.toUInt16 := by
  have hn := n.toNat_lt
  rw [← UInt16.toNat_inj, Nat.toUInt16_eq, UInt16.toNat_ofNat']
  omega

theorem toNat_word_eq_iff {n : UInt32} {k : Nat} : n.toNat = k ↔ k < 0x100000000 ∧ n = k.toUInt32 := by
  have hn := n.toNat_lt
  rw [← UInt32.toNat_inj, Nat.toUInt32_eq, UInt32.toNat_ofNat']
  omega

theorem shortBytes_eq_iff {n : UInt16} {a b : UInt8} :
    shortBytes n = [a, b] ↔ n = (a.toNat * 0x100 + b.toNat).toUInt16 := by
  have ha := a.toNat_lt
  have hb := b.toNat_lt
  have hn := n.toNat_lt
  simp only [shortBytes, List.cons.injEq, and_true, ← UInt8.toNat_inj, ← UInt16.toNat_inj,
    Nat.toUInt8_eq, Nat.toUInt16_eq, UInt8.toNat_ofNat', UInt16.toNat_ofNat']
  omega

theorem wordBytes_eq_iff {n : UInt32} {a b x y : UInt8} :
    wordBytes n = [a, b, x, y] ↔
      n = (a.toNat * 0x1000000 + b.toNat * 0x10000 + x.toNat * 0x100 + y.toNat).toUInt32 := by
  have ha := a.toNat_lt
  have hb := b.toNat_lt
  have hx := x.toNat_lt
  have hy := y.toNat_lt
  have hn := n.toNat_lt
  simp only [wordBytes, List.cons.injEq, and_true, ← UInt8.toNat_inj, ← UInt32.toNat_inj,
    Nat.toUInt8_eq, Nat.toUInt32_eq, UInt8.toNat_ofNat', UInt32.toNat_ofNat']
  omega

/-! ## What the bytes leave no choice about -/

theorem shortBytes_append_inj {m n : UInt16} {rest rest' : List UInt8}
    (h : shortBytes m ++ rest = shortBytes n ++ rest') : m = n ∧ rest = rest' := by
  obtain ⟨hbytes, hrest⟩ := List.append_inj h rfl
  exact ⟨(shortBytes_eq_iff.mp hbytes).trans (shortBytes_eq_iff.mp rfl).symm, hrest⟩

theorem wordBytes_append_inj {m n : UInt32} {rest rest' : List UInt8}
    (h : wordBytes m ++ rest = wordBytes n ++ rest') : m = n ∧ rest = rest' := by
  obtain ⟨hbytes, hrest⟩ := List.append_inj h rfl
  exact ⟨(wordBytes_eq_iff.mp hbytes).trans (wordBytes_eq_iff.mp rfl).symm, hrest⟩

section Lists

variable {α : Type} {bytes : α → List UInt8} {Fits : α → Prop} {rest rest' : List UInt8}
  (hitem : ∀ {a b rest rest'}, Fits a → Fits b → bytes a ++ rest = bytes b ++ rest' → a = b ∧ rest = rest')
include hitem

theorem flatMap_append_inj {as bs : List α} (has : ∀ a ∈ as, Fits a) (hbs : ∀ b ∈ bs, Fits b)
    (hlength : as.length = bs.length) (h : as.flatMap bytes ++ rest = bs.flatMap bytes ++ rest') :
    as = bs ∧ rest = rest' := by
  induction as generalizing bs with
  | nil =>
    obtain rfl := List.eq_nil_of_length_eq_zero hlength.symm
    exact ⟨rfl, h⟩
  | cons a as ih =>
    cases bs with
    | nil => cases hlength
    | cons b bs =>
      rw [List.forall_mem_cons] at has hbs
      simp only [List.flatMap_cons, List.append_assoc] at h
      obtain ⟨rfl, htail⟩ := hitem has.1 hbs.1 h
      obtain ⟨rfl, hrest⟩ := ih has.2 hbs.2 (Nat.succ.inj hlength) htail
      exact ⟨rfl, hrest⟩

/-- If each item tells where it ends, so do items with their number before them. -/
theorem listBytes_append_inj {as bs : List α} (has : ListFits Fits as) (hbs : ListFits Fits bs)
    (h : listBytes bytes as ++ rest = listBytes bytes bs ++ rest') : as = bs ∧ rest = rest' := by
  simp only [listBytes, List.append_assoc] at h
  obtain ⟨hcount, h⟩ := shortBytes_append_inj h
  have hlength := (toNat_short_eq_iff.mpr ⟨has.1, rfl⟩).symm.trans (toNat_short_eq_iff.mpr ⟨hbs.1, hcount⟩)
  exact flatMap_append_inj hitem has.2 hbs.2 hlength h

end Lists

/-! ## Between two cursors -/

namespace Cursor

structure Takes (c : Cursor) (bytes : List UInt8) (c' : Cursor) : Prop where
  rest : c.rest = bytes ++ c'.rest
  position : c'.position = c.position + bytes.length

theorem takes_nil {c c' : Cursor} : c.Takes [] c' ↔ c = c' := by
  obtain ⟨p, r⟩ := c
  obtain ⟨p', r'⟩ := c'
  constructor
  · intro ⟨hr, hp⟩
    simp at hr hp
    rw [hr, hp]
  · intro h
    cases h
    exact ⟨rfl, rfl⟩

/-- Bytes in two parts are taken one part after the other. -/
theorem takes_append {c c' : Cursor} {xs ys : List UInt8} :
    c.Takes (xs ++ ys) c' ↔ ∃ m, c.Takes xs m ∧ m.Takes ys c' := by
  constructor
  · intro ⟨hr, hp⟩
    refine ⟨⟨c.position + xs.length, ys ++ c'.rest⟩, ⟨by simpa using hr, rfl⟩, ⟨rfl, ?_⟩⟩
    simp only [List.length_append] at hp ⊢
    omega
  · intro ⟨m, ⟨hr, hp⟩, ⟨hr', hp'⟩⟩
    refine ⟨by rw [hr, hr', List.append_assoc], ?_⟩
    simp only [List.length_append]
    omega

theorem Takes.trans {c m c' : Cursor} {xs ys : List UInt8} (h : c.Takes xs m) (h' : m.Takes ys c') :
    c.Takes (xs ++ ys) c' :=
  takes_append.mpr ⟨m, h, h'⟩

theorem Takes.length_rest {c c' : Cursor} {bytes : List UInt8} (h : c.Takes bytes c') :
    c.rest.length = bytes.length + c'.rest.length := by
  rw [h.rest, List.length_append]

theorem takes_cons {p : Nat} {t : UInt8} {rest bytes : List UInt8} {c' : Cursor} :
    (⟨p, t :: rest⟩ : Cursor).Takes (t :: bytes) c' ↔ (⟨p + 1, rest⟩ : Cursor).Takes bytes c' := by
  constructor
  · intro ⟨hrest, hposition⟩
    simp only [List.length_cons] at hposition
    exact ⟨(List.cons.inj hrest).2, by simp only [hposition]; omega⟩
  · intro ⟨hrest, hposition⟩
    simp only at hposition
    exact ⟨congrArg (List.cons t) hrest, by simp only [hposition, List.length_cons]; omega⟩

theorem exists_takes {c : Cursor} {bytes after : List UInt8} (h : c.rest = bytes ++ after) :
    ∃ m, c.Takes bytes m ∧ m.rest = after :=
  ⟨⟨c.position + bytes.length, after⟩, ⟨h, rfl⟩, rfl⟩

theorem takes_all (bytes : List UInt8) : (Cursor.ofBytes bytes).Takes bytes ⟨bytes.length, []⟩ :=
  ⟨(List.append_nil _).symm, (Nat.zero_add _).symm⟩

/-- What was taken from the start on is the payload up to the position. -/
theorem Takes.eq_take {payload passed : List UInt8} {c : Cursor} (h : (ofBytes payload).Takes passed c) :
    passed = payload.take c.position := by
  have hrest : payload = passed ++ c.rest := h.rest
  have hposition : c.position = 0 + passed.length := h.position
  rw [hrest, hposition, Nat.zero_add, List.take_left]

theorem takes_toEnd (c : Cursor) : c.Takes c.rest c.toEnd := ⟨(List.append_nil _).symm, rfl⟩

/-- The cursor after the next `n` bytes. -/
def advance (c : Cursor) (n : Nat) : Cursor := ⟨c.position + n, c.rest.drop n⟩

theorem takes_advance {c : Cursor} {n : Nat} (h : n ≤ c.rest.length) : c.Takes (c.rest.take n) (c.advance n) :=
  ⟨(List.take_append_drop n c.rest).symm, by rw [List.length_take_of_le h]; rfl⟩

theorem advance_advance (c : Cursor) (n k : Nat) : (c.advance n).advance k = c.advance (n + k) := by
  simp only [advance, List.drop_drop, Nat.add_assoc]

theorem toEnd_advance {c : Cursor} {n : Nat} (h : n ≤ c.rest.length) : (c.advance n).toEnd = c.toEnd := by
  simp only [toEnd, advance, List.length_drop, mk.injEq, and_true]
  omega

theorem isAtEnd_iff {c : Cursor} : c.isAtEnd = true ↔ c.rest = [] := List.isEmpty_iff

theorem split?_eq (c : Cursor) (n : Nat) :
    c.split? n = if c.rest.length < n then none else some (c.rest.take n, c.advance n) := by
  simp only [split?, List.splitAt_eq, List.length_take]
  by_cases h : c.rest.length < n
  · rw [if_pos h, if_neg (by omega)]
  · rw [if_neg h, if_pos (by omega)]
    rfl

theorem split?_eq_some_iff {c c' : Cursor} {n : Nat} {bytes : List UInt8} :
    c.split? n = some (bytes, c') ↔ bytes.length = n ∧ c.Takes bytes c' := by
  simp only [split?, List.splitAt_eq]
  constructor
  · intro h
    split at h
    · rename_i hn
      obtain ⟨rfl, rfl⟩ := Prod.mk.inj (Option.some.inj h)
      exact ⟨hn, (List.take_append_drop n c.rest).symm, by rw [hn]⟩
    · cases h
  · intro ⟨hn, hr, hp⟩
    have htake : c.rest.take n = bytes := by rw [hr, ← hn, List.take_left]
    have hdrop : c.rest.drop n = c'.rest := by rw [hr, ← hn, List.drop_left]
    rw [htake, hdrop, if_pos hn, ← hn, ← hp]

end Cursor

/-! ## Single reads -/

namespace Read

variable {ε α β : Type} {c c' : Cursor}

theorem pure_eq_ok {a b : α} : (pure a : Read ε α) c = .ok b c' ↔ a = b ∧ c = c' := by
  show EStateM.Result.ok a c = .ok b c' ↔ _
  rw [EStateM.Result.ok.injEq]

theorem bind_apply (read : Read ε α) (f : α → Read ε β) (c : Cursor) : (read >>= f) c =
    match read c with
    | .ok a m => f a m
    | .error e m => .error e m := by
  show EStateM.bind read f c = _
  unfold EStateM.bind
  cases read c <;> rfl

theorem bind_eq_ok {read : Read ε α} {f : α → Read ε β} {b : β} :
    (read >>= f) c = .ok b c' ↔ ∃ a m, read c = .ok a m ∧ f a m = .ok b c' := by
  rw [bind_apply]
  cases h : read c with
  | ok a m =>
    constructor
    · intro hf
      exact ⟨a, m, rfl, hf⟩
    · intro ⟨_, _, he, hf⟩
      cases he
      exact hf
  | error e m =>
    constructor
    · intro hf
      cases hf
    · intro ⟨_, _, he, _⟩
      cases he

theorem bind_eq_error {read : Read ε α} {f : α → Read ε β} {e : ε} :
    (read >>= f) c = .error e c' ↔ read c = .error e c' ∨ ∃ a m, read c = .ok a m ∧ f a m = .error e c' := by
  rw [bind_apply]
  cases read c with
  | ok a m =>
    constructor
    · intro h
      exact .inr ⟨a, m, rfl, h⟩
    · rintro (h | ⟨_, _, h, h'⟩)
      · cases h
      · cases h
        exact h'
  | error f m =>
    constructor
    · intro h
      cases h
      exact .inl rfl
    · rintro (h | ⟨_, _, h, -⟩)
      · cases h
        rfl
      · cases h

theorem throw_eq_ok {e : ε} {a : α} : (throw e : Read ε α) c = .ok a c' ↔ False :=
  iff_of_false (fun h => nomatch h) not_false

theorem ofExcept_eq_ok {x : Except ε α} {a : α} :
    (MonadExcept.ofExcept x : Read ε α) c = .ok a c' ↔ x = .ok a ∧ c = c' := by
  cases x with
  | ok b =>
    rw [Except.ok.injEq]
    exact pure_eq_ok
  | error e => exact iff_of_false (fun h => nomatch h) fun h => nomatch h.1

/-- A read after a check. -/
theorem ite_throw_eq_ok {p : Prop} [Decidable p] {e : ε} {f : β → Read ε α} {next : Read ε α} {a : α} :
    (if p then throw e >>= f else next) c = .ok a c' ↔ ¬p ∧ next c = .ok a c' := by
  by_cases hp : p
  · rw [if_pos hp, bind_eq_ok]
    exact iff_of_false (fun ⟨_, _, h, _⟩ => throw_eq_ok.mp h) fun h => h.1 hp
  · rw [if_neg hp]
    exact (and_iff_right hp).symm

theorem position_eq_ok {n : Nat} : (position : Read ε Nat) c = .ok n c' ↔ c.position = n ∧ c = c' := by
  show EStateM.Result.ok c.position c = .ok n c' ↔ _
  rw [EStateM.Result.ok.injEq]

theorem isAtEnd_eq_ok {b : Bool} : (isAtEnd : Read ε Bool) c = .ok b c' ↔ c.isAtEnd = b ∧ c = c' := by
  show EStateM.Result.ok c.isAtEnd c = .ok b c' ↔ _
  rw [EStateM.Result.ok.injEq]

theorem run_eq_ok {read : Read ε α} {bytes : List UInt8} {a : α} :
    run read bytes = .ok a ↔ ∃ c', read (Cursor.ofBytes bytes) = .ok a c' := by
  unfold run EStateM.run
  cases read (Cursor.ofBytes bytes) with
  | ok b m =>
    constructor
    · intro h
      cases h
      exact ⟨m, rfl⟩
    · intro ⟨_, h⟩
      cases h
      rfl
  | error e m => exact iff_of_false (fun h => nomatch h) fun ⟨_, h⟩ => nomatch h

theorem exact_apply (e : ε) (n : Nat) (c : Cursor) :
    exact e n c = if c.rest.length < n then .error e c.toEnd else .ok (c.rest.take n) (c.advance n) := by
  rw [exact, c.split?_eq]
  by_cases h : c.rest.length < n
  · rw [if_pos h, if_pos h]
    rfl
  · rw [if_neg h, if_neg h]

theorem slice_apply (e : ε) (n : Nat) (c : Cursor) :
    slice e n c = if c.rest.length < n then .error e c else .ok (c.rest.take n) (c.advance n) := by
  rw [slice, c.split?_eq]
  by_cases h : c.rest.length < n
  · rw [if_pos h, if_pos h]
  · rw [if_neg h, if_neg h]

theorem exact_eq_ok {e : ε} {n : Nat} {bytes : List UInt8} :
    exact e n c = .ok bytes c' ↔ bytes.length = n ∧ c.Takes bytes c' := by
  rw [← Cursor.split?_eq_some_iff]
  unfold exact
  constructor
  · intro h
    split at h
    · rename_i hs
      cases h
      exact hs
    · cases h
  · intro h
    rw [h]

theorem slice_eq_ok {e : ε} {n : Nat} {bytes : List UInt8} :
    slice e n c = .ok bytes c' ↔ bytes.length = n ∧ c.Takes bytes c' := by
  rw [← Cursor.split?_eq_some_iff]
  unfold slice
  constructor
  · intro h
    split at h
    · rename_i hs
      cases h
      exact hs
    · cases h
  · intro h
    rw [h]

theorem expectEnd_eq_ok {e : ε} {u : Unit} : expectEnd e c = .ok u c' ↔ c.rest = [] ∧ c = c' := by
  unfold expectEnd
  by_cases h : c.isAtEnd = true
  · rw [if_pos h, EStateM.Result.ok.injEq, ← Cursor.isAtEnd_iff]
    exact ⟨fun ⟨_, hc⟩ => ⟨h, hc⟩, fun ⟨_, hc⟩ => ⟨rfl, hc⟩⟩
  · rw [if_neg h]
    exact iff_of_false (fun h => nomatch h) fun h' => h (Cursor.isAtEnd_iff.mpr h'.1)

/-! ## Reads of what is written -/

/-- The read takes the bytes of some `x` and answers its value; it succeeds whenever the bytes of
    an `x` are next. -/
structure Decodes {X : Type} (read : Read ε α) (value : X → α) (bytes : X → List UInt8) : Prop where
  eq_ok : ∀ {c a c'}, read c = .ok a c' ↔ ∃ x, value x = a ∧ c.Takes (bytes x) c'

theorem byte_decodes (e : ε) : Decodes (byte e) id fun n => [n] := by
  refine ⟨fun {c a c'} => ?_⟩
  obtain ⟨p, r⟩ := c
  obtain ⟨p', r'⟩ := c'
  constructor
  · intro h
    cases r with
    | nil => cases h
    | cons b r =>
      cases h
      exact ⟨a, rfl, rfl, rfl⟩
  · intro ⟨x, hx, hr, hp⟩
    simp only [List.cons_append, List.nil_append] at hr
    subst hx hr hp
    rfl

theorem short_decodes (e : ε) : Decodes (short e) id shortBytes := by
  refine ⟨fun {c n c'} => ?_⟩
  obtain ⟨p, r⟩ := c
  obtain ⟨p', r'⟩ := c'
  constructor
  · intro h
    match r, h with
    | [], h => cases h
    | [_], h => cases h
    | a :: b :: r, h =>
      have hn : shortBytes _ = [a, b] := shortBytes_eq_iff.mpr rfl
      cases h
      exact ⟨_, rfl, congrArg (· ++ r') hn.symm, rfl⟩
  · intro ⟨x, hx, hr, hp⟩
    have hn : x = _ := shortBytes_eq_iff.mp rfl
    simp only [shortBytes, List.cons_append, List.nil_append] at hr
    subst hx hr hp
    simp only [short, ← hn]
    rfl

theorem word_decodes (e : ε) : Decodes (word e) id wordBytes := by
  refine ⟨fun {c n c'} => ?_⟩
  obtain ⟨p, r⟩ := c
  obtain ⟨p', r'⟩ := c'
  constructor
  · intro h
    match r, h with
    | [], h => cases h
    | [_], h => cases h
    | [_, _], h => cases h
    | [_, _, _], h => cases h
    | a :: b :: x :: y :: r, h =>
      have hn : wordBytes _ = [a, b, x, y] := wordBytes_eq_iff.mpr rfl
      cases h
      exact ⟨_, rfl, congrArg (· ++ r') hn.symm, rfl⟩
  · intro ⟨x, hx, hr, hp⟩
    have hn : x = _ := wordBytes_eq_iff.mp rfl
    simp only [wordBytes, List.cons_append, List.nil_append] at hr
    subst hx hr hp
    simp only [word, ← hn]
    rfl

namespace Decodes

variable {X Y : Type} {read : Read ε α} {value : X → α} {bytes : X → List UInt8}

theorem map (h : Decodes read value bytes) (f : α → β) :
    Decodes (do return f (← read)) (fun x => f (value x)) bytes := by
  refine ⟨fun {c b c'} => ?_⟩
  simp only [bind_eq_ok, pure_eq_ok, h.eq_ok]
  constructor
  · intro ⟨_, _, ⟨x, hx, ht⟩, hb, hm⟩
    subst hx hm
    exact ⟨x, hb, ht⟩
  · intro ⟨x, hb, ht⟩
    exact ⟨_, c', ⟨x, rfl, ht⟩, hb, rfl⟩

/-- Two reads, one after the other. -/
theorem map₂ {γ : Type} {read' : Read ε β} {value' : Y → β} {bytes' : Y → List UInt8}
    (h : Decodes read value bytes) (h' : Decodes read' value' bytes') (f : α → β → γ) :
    Decodes (do let a ← read; let b ← read'; return f a b) (fun p : X × Y => f (value p.1) (value' p.2))
      (fun p => bytes p.1 ++ bytes' p.2) := by
  refine ⟨fun {c b c'} => ?_⟩
  simp only [bind_eq_ok, pure_eq_ok, h.eq_ok, h'.eq_ok, Cursor.takes_append]
  constructor
  · intro ⟨_, m, ⟨x, hx, ht⟩, _, _, ⟨y, hy, ht'⟩, hb, hm⟩
    subst hx hy hm
    exact ⟨(x, y), hb, m, ht, ht'⟩
  · intro ⟨(x, y), hb, m, ht, ht'⟩
    exact ⟨_, m, ⟨x, rfl, ht⟩, _, c', ⟨y, rfl, ht'⟩, hb, rfl⟩

/-- What is written may be described in other terms. -/
theorem comap (h : Decodes read value bytes) (f : Y → X) (hf : ∀ x, ∃ y, f y = x) :
    Decodes read (fun y => value (f y)) fun y => bytes (f y) := by
  refine ⟨fun {c a c'} => ?_⟩
  rw [h.eq_ok]
  constructor
  · intro ⟨x, hx, ht⟩
    obtain ⟨y, rfl⟩ := hf x
    exact ⟨y, hx, ht⟩
  · intro ⟨y, hy, ht⟩
    exact ⟨f y, hy, ht⟩

theorem manyInto (h : Decodes read value bytes) (acc : List α) (n : Nat) {c c' : Cursor} {as : List α} :
    manyInto read acc n c = .ok as c' ↔
      ∃ xs : List X, xs.length = n ∧ acc.reverse ++ xs.map value = as ∧ c.Takes (xs.flatMap bytes) c' := by
  induction n generalizing acc c with
  | zero =>
    simp only [Read.manyInto, pure_eq_ok]
    constructor
    · intro ⟨ha, hc⟩
      exact ⟨[], rfl, by simpa using ha, Cursor.takes_nil.mpr hc⟩
    · intro ⟨xs, hn, ha, hc⟩
      obtain rfl := List.eq_nil_of_length_eq_zero hn
      exact ⟨by simpa using ha, Cursor.takes_nil.mp hc⟩
  | succ n ih =>
    simp only [Read.manyInto, bind_eq_ok, h.eq_ok, ih]
    constructor
    · intro ⟨_, m, ⟨x, hx, ht⟩, xs, hn, ha, hm⟩
      subst hx
      exact ⟨x :: xs, by simp [hn], by simpa using ha, Cursor.takes_append.mpr ⟨m, ht, hm⟩⟩
    · intro ⟨xs, hn, ha, hc⟩
      cases xs with
      | nil => cases hn
      | cons x xs =>
        obtain ⟨m, ht, hm⟩ := Cursor.takes_append.mp hc
        exact ⟨_, m, ⟨x, rfl, ht⟩, xs, Nat.succ.inj hn, by simpa using ha, hm⟩

theorem many (h : Decodes read value bytes) (n : Nat) {c c' : Cursor} {as : List α} :
    many read n c = .ok as c' ↔
      ∃ xs : List X, xs.length = n ∧ xs.map value = as ∧ c.Takes (xs.flatMap bytes) c' := by
  simpa [Read.many] using h.manyInto [] n

section Checked

variable {P : X → Prop} (h : Decodes read (fun x : { x // P x } => value x.val) fun x => bytes x.val)
include h

/-- Items that are checked one by one. -/
theorem many_checked (n : Nat) {as : List α} : Read.many read n c = .ok as c' ↔
    ∃ xs : List X, xs.length = n ∧ (∀ x ∈ xs, P x) ∧ xs.map value = as ∧ c.Takes (xs.flatMap bytes) c' := by
  rw [h.many]
  constructor
  · intro ⟨xs, hn, has, ht⟩
    refine ⟨xs.map Subtype.val, by rw [List.length_map, hn], fun x hx => ?_, by rw [List.map_map, ← has]; rfl, ?_⟩
    · obtain ⟨y, -, rfl⟩ := List.mem_map.mp hx
      exact y.property
    · rwa [List.flatMap_map]
  · intro ⟨xs, hn, hxs, has, ht⟩
    refine ⟨xs.attachWith P hxs, by rw [List.length_attachWith, hn], ?_, ?_⟩
    · have hvalues := congrArg (List.map value) (List.attachWith_map_subtype_val hxs)
      rw [List.map_map] at hvalues
      exact hvalues.trans has
    · rwa [← List.flatMap_map, List.attachWith_map_subtype_val]

theorem counted_checked (e : ε) {as : List α} : Read.counted e read c = .ok as c' ↔
    ∃ xs : List X, ListFits P xs ∧ xs.map value = as ∧ c.Takes (listBytes bytes xs) c' := by
  simp only [Read.counted, bind_eq_ok, (short_decodes e).eq_ok, h.many_checked, listBytes, Cursor.takes_append]
  constructor
  · intro ⟨n, m, ⟨_, hn, hm⟩, xs, hlength, hxs, has, ht⟩
    obtain ⟨hlt, rfl⟩ := toNat_short_eq_iff.mp hlength.symm
    subst hn
    exact ⟨xs, ⟨hlt, hxs⟩, has, m, hm, ht⟩
  · intro ⟨xs, ⟨hlt, hxs⟩, has, m, hm, ht⟩
    exact ⟨_, m, ⟨_, rfl, hm⟩, xs, (toNat_short_eq_iff.mpr ⟨hlt, rfl⟩).symm, hxs, has, ht⟩

end Checked

end Decodes

theorem long_decodes (e : ε) : Decodes (long e) id longBytes := by
  have hwords (high low : UInt32) :
      ∃ n : UInt64, ((n.toNat / 0x100000000).toUInt32, n.toNat.toUInt32) = (high, low) := by
    have hhigh := high.toNat_lt
    have hlow := low.toNat_lt
    refine ⟨(high.toNat * 0x100000000 + low.toNat).toUInt64, ?_⟩
    simp only [Prod.mk.injEq, ← UInt32.toNat_inj, Nat.toUInt32_eq, Nat.toUInt64_eq, UInt32.toNat_ofNat',
      UInt64.toNat_ofNat']
    omega
  have hvalue (n : UInt64) :
      ((n.toNat / 0x100000000).toUInt32.toNat * 0x100000000 + n.toNat.toUInt32.toNat).toUInt64 = n := by
    have hn := n.toNat_lt
    simp only [← UInt64.toNat_inj, Nat.toUInt32_eq, Nat.toUInt64_eq, UInt32.toNat_ofNat', UInt64.toNat_ofNat']
    omega
  have h := ((word_decodes e).map₂ (word_decodes e)
    fun high low => (high.toNat * 0x100000000 + low.toNat).toUInt64).comap
      (fun n : UInt64 => ((n.toNat / 0x100000000).toUInt32, n.toNat.toUInt32)) fun (high, low) => hwords high low
  simp only [id_eq, hvalue] at h
  exact h

/-! ## Reads that undo a writing -/

/-- The read takes just the bytes of a value that fits, and answers the value. -/
structure Inverts (read : Read ε α) (Fits : α → Prop) (bytes : α → List UInt8) : Prop where
  eq_ok : ∀ {c a c'}, read c = .ok a c' ↔ Fits a ∧ c.Takes (bytes a) c'

theorem Decodes.inverts {read : Read ε α} {bytes : α → List UInt8} (h : Decodes read id bytes) :
    Inverts read (fun _ => True) bytes := by
  refine ⟨fun {c a c'} => h.eq_ok.trans ?_⟩
  constructor
  · intro ⟨_, rfl, ht⟩
    exact ⟨trivial, ht⟩
  · intro ⟨_, ht⟩
    exact ⟨a, rfl, ht⟩

namespace Inverts

variable {read : Read ε α} {Fits : α → Prop} {bytes : α → List UInt8}

theorem decodes (h : Inverts read Fits bytes) : Decodes read Subtype.val fun x : { a // Fits a } => bytes x.val := by
  refine ⟨fun {c a c'} => h.eq_ok.trans ?_⟩
  constructor
  · intro ⟨ha, ht⟩
    exact ⟨⟨a, ha⟩, rfl, ht⟩
  · intro ⟨⟨_, ha⟩, rfl, ht⟩
    exact ⟨ha, ht⟩

theorem many (h : Inverts read Fits bytes) {n : Nat} {as : List α} : Read.many read n c = .ok as c' ↔
    as.length = n ∧ (∀ a ∈ as, Fits a) ∧ c.Takes (as.flatMap bytes) c' := by
  have hread : Decodes read (fun x : { a // Fits a } => id x.val) fun x => bytes x.val := h.decodes
  simp only [hread.many_checked, List.map_id]
  constructor
  · rintro ⟨as, hn, has, rfl, ht⟩
    exact ⟨hn, has, ht⟩
  · rintro ⟨hn, has, ht⟩
    exact ⟨as, hn, has, rfl, ht⟩

theorem counted (h : Inverts read Fits bytes) (e : ε) :
    Inverts (Read.counted e read) (ListFits Fits) (listBytes bytes) := by
  refine ⟨fun {c as c'} => ?_⟩
  have hread : Decodes read (fun x : { a // Fits a } => id x.val) fun x => bytes x.val := h.decodes
  rw [hread.counted_checked]
  constructor
  · rintro ⟨_, hxs, rfl, ht⟩
    rw [List.map_id]
    exact ⟨hxs, ht⟩
  · intro ⟨has, ht⟩
    exact ⟨as, has, List.map_id _, ht⟩

end Inverts

/-! ## Failing reads -/

/-- The read fails with `e` here, wherever that leaves the cursor. -/
def Fails (read : Read ε α) (c : Cursor) (e : ε) : Prop := ∃ c', read c = .error e c'

theorem bind_fails {read : Read ε α} {f : α → Read ε β} {e : ε} :
    (read >>= f).Fails c e ↔ read.Fails c e ∨ ∃ a m, read c = .ok a m ∧ (f a).Fails m e := by
  simp only [Fails, bind_eq_error]
  constructor
  · rintro ⟨c', h | ⟨a, m, hread, h⟩⟩
    · exact .inl ⟨c', h⟩
    · exact .inr ⟨a, m, hread, c', h⟩
  · rintro (⟨c', h⟩ | ⟨a, m, hread, c', h⟩)
    · exact ⟨c', .inl h⟩
    · exact ⟨c', .inr ⟨a, m, hread, h⟩⟩

theorem fails_congr {read read' : Read ε α} {c c' : Cursor} (h : read c = read' c') {e : ε} :
    read.Fails c e ↔ read'.Fails c' e := by
  unfold Fails
  rw [h]

theorem pure_fails {a : α} {e : ε} : (pure a : Read ε α).Fails c e ↔ False :=
  iff_of_false (fun ⟨_, h⟩ => nomatch h) not_false

theorem throw_fails {e e' : ε} : (throw e : Read ε α).Fails c e' ↔ e' = e := by
  constructor
  · intro ⟨_, h⟩
    cases h
    rfl
  · intro h
    exact ⟨c, h ▸ rfl⟩

theorem overrun_fails {e e' : ε} : (overrun e : Read ε α).Fails c e' ↔ e' = e := by
  constructor
  · intro ⟨_, h⟩
    cases h
    rfl
  · intro h
    exact ⟨c.toEnd, h ▸ rfl⟩

theorem byte_fails {e e' : ε} : (byte e).Fails c e' ↔ c.rest = [] ∧ e' = e := by
  obtain ⟨p, r⟩ := c
  cases r with
  | nil => exact overrun_fails.trans (and_iff_right rfl).symm
  | cons b r => exact iff_of_false (fun ⟨_, h⟩ => nomatch h) fun h => nomatch h.1

theorem short_fails {e e' : ε} : (short e).Fails c e' ↔ c.rest.length < 2 ∧ e' = e := by
  obtain ⟨p, r⟩ := c
  match r with
  | [] => exact overrun_fails.trans (and_iff_right (Nat.succ_pos 1)).symm
  | [b] => exact overrun_fails.trans (and_iff_right (Nat.lt_succ_self 1)).symm
  | a :: b :: r =>
    have hlong : ¬(a :: b :: r).length < 2 := by
      simp only [List.length_cons]
      omega
    exact iff_of_false (fun ⟨_, h⟩ => nomatch h) fun h => hlong h.1

namespace Decodes

variable {X : Type} {read : Read ε α} {value : X → α} {bytes : X → List UInt8} {P : X → Prop}
  (h : Decodes read (fun x : { x // P x } => value x.val) fun x => bytes x.val)
include h

/-- Of items in a row, one fails that comes after some of the others. -/
theorem manyInto_fails (acc : List α) (n : Nat) {e : ε} : (Read.manyInto read acc n).Fails c e ↔
    ∃ (xs : List X) (m : Cursor), xs.length < n ∧ (∀ x ∈ xs, P x) ∧ c.Takes (xs.flatMap bytes) m ∧ read.Fails m e := by
  induction n generalizing acc c with
  | zero => exact iff_of_false (fun ⟨_, h⟩ => nomatch h) fun ⟨_, _, h, _⟩ => nomatch h
  | succ n ih =>
    simp only [Read.manyInto, bind_fails, h.eq_ok, ih]
    constructor
    · rintro (hfails | ⟨_, m, ⟨⟨x, hx⟩, -, ht⟩, xs, m', hn, hxs, ht', hfails⟩)
      · exact ⟨[], c, Nat.succ_pos n, List.forall_mem_nil _, Cursor.takes_nil.mpr rfl, hfails⟩
      · exact ⟨x :: xs, m', Nat.succ_lt_succ hn, List.forall_mem_cons.mpr ⟨hx, hxs⟩, ht.trans ht', hfails⟩
    · rintro ⟨xs, m', hn, hxs, ht, hfails⟩
      cases xs with
      | nil =>
        obtain rfl := Cursor.takes_nil.mp ht
        exact .inl hfails
      | cons x xs =>
        obtain ⟨hx, hxs⟩ := List.forall_mem_cons.mp hxs
        obtain ⟨m, ht, ht'⟩ := Cursor.takes_append.mp ht
        exact .inr ⟨_, m, ⟨⟨x, hx⟩, rfl, ht⟩, xs, m', Nat.lt_of_succ_lt_succ hn, hxs, ht', hfails⟩

/-- Items with their number before them: it may end within the number, or one of them fails. -/
theorem counted_fails (e : ε) {e' : ε} : (Read.counted e read).Fails c e' ↔ (c.rest.length < 2 ∧ e' = e) ∨
    ∃ (n : UInt16) (xs : List X) (m : Cursor), xs.length < n.toNat ∧ (∀ x ∈ xs, P x) ∧
      c.Takes (shortBytes n ++ xs.flatMap bytes) m ∧ read.Fails m e' := by
  simp only [Read.counted, Read.many, bind_fails, short_fails, (short_decodes e).eq_ok, h.manyInto_fails,
    Cursor.takes_append]
  refine or_congr_right ?_
  constructor
  · intro ⟨n, m, ⟨_, hn, hm⟩, xs, m', hlength, hxs, ht, hfails⟩
    subst hn
    exact ⟨_, xs, m', hlength, hxs, ⟨m, hm, ht⟩, hfails⟩
  · intro ⟨n, xs, m', hlength, hxs, ⟨m, hm, ht⟩, hfails⟩
    exact ⟨n, m, ⟨n, rfl, hm⟩, xs, m', hlength, hxs, ht, hfails⟩

end Decodes

end Read

end JvmClass
