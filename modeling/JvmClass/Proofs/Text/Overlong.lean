/-
  JvmClass.Proofs.Text.Overlong — texts that can be read from more than one spelling.

  Two groups of one size with one unit are the same (`ByteGroup.eq_of_unit`), so the spellings of a text
  differ in the sizes of their groups only, and the encoding is the one with the shortest. The decoder does
  not ask for those: it reads C1 81 as the `A` that is spelled 41 (`overlong_letter_is_read`). What it takes
  beyond encodings are the overlong groups, which the first two bytes of a group give away
  (`ByteGroup.IsOverlong`):
  - bytes are the encoding of the text that they are read as unless one of their groups is overlong
    (`eq_encode_iff`);
  - a text has such a spelling if it has a unit below 0x800, as every name in ASCII has
    (`exists_spelling_iff`).
-/

import JvmClass.Proofs.Text.ModifiedUtf8

namespace JvmClass.Text.ModifiedUtf8

/-! ## Groups that are longer than they need be -/

section Size

variable {u : Nat}

theorem unitSize_pos (u : Nat) : 0 < unitSize u := by
  unfold unitSize
  split
  · omega
  split <;> omega

theorem unitSize_lt_two_iff : unitSize u < 2 ↔ 0 < u ∧ u < 0x80 := by
  unfold unitSize
  split
  · omega
  split <;> omega

theorem unitSize_lt_three_iff : unitSize u < 3 ↔ u < 0x800 := by
  unfold unitSize
  split
  · omega
  split <;> omega

end Size

namespace ByteGroup

/-- Two bytes for a unit that fits into one, or three for one that fits into two. A zero unit needs two. -/
def IsOverlong : ByteGroup → Prop
  | one _ => False
  | two a b => a = 0xC1 ∨ a = 0xC0 ∧ b ≠ 0x80
  | three a b _ => a = 0xE0 ∧ b < 0xA0

theorem toNat_of_one {a : UInt8} (h : (one a).IsWellFormed) : 0 < a.toNat ∧ a.toNat < 0x80 :=
  one_range_iff.mp (one_iff.mpr h)

theorem toNat_of_two {a b : UInt8} (h : (two a b).IsWellFormed) :
    (0xC0 ≤ a.toNat ∧ a.toNat < 0xE0) ∧ 0x80 ≤ b.toNat ∧ b.toNat < 0xC0 :=
  ⟨two_range_iff.mp (two_iff.mpr h.1), isContinuation_iff.mp (continuation_iff.mpr h.2)⟩

theorem toNat_of_three {a b c : UInt8} (h : (three a b c).IsWellFormed) :
    (0xE0 ≤ a.toNat ∧ a.toNat < 0xF0) ∧ (0x80 ≤ b.toNat ∧ b.toNat < 0xC0) ∧ 0x80 ≤ c.toNat ∧ c.toNat < 0xC0 :=
  ⟨three_range_iff.mp (three_iff.mpr h.1), isContinuation_iff.mp (continuation_iff.mpr h.2.1),
    isContinuation_iff.mp (continuation_iff.mpr h.2.2)⟩

/-- Of each size there is one group for a unit. -/
theorem eq_of_unit {g g' : ByteGroup} (h : g.IsWellFormed) (h' : g'.IsWellFormed)
    (hsize : g.bytes.length = g'.bytes.length) (hunit : g.unit = g'.unit) : g = g' := by
  cases g with
  | one a =>
    cases g' with
    | one a' =>
      simp only [unit] at hunit
      have hr := toNat_of_one h
      have hr' := toNat_of_one h'
      rw [UInt8.toNat_inj.mp (show a.toNat = a'.toNat by omega)]
    | _ => cases hsize
  | two a b =>
    cases g' with
    | two a' b' =>
      simp only [unit] at hunit
      have hr := toNat_of_two h
      have hr' := toNat_of_two h'
      rw [UInt8.toNat_inj.mp (show a.toNat = a'.toNat by omega), UInt8.toNat_inj.mp (show b.toNat = b'.toNat by omega)]
    | _ => cases hsize
  | three a b c =>
    cases g' with
    | three a' b' c' =>
      simp only [unit] at hunit
      have hr := toNat_of_three h
      have hr' := toNat_of_three h'
      rw [UInt8.toNat_inj.mp (show a.toNat = a'.toNat by omega), UInt8.toNat_inj.mp (show b.toNat = b'.toNat by omega),
        UInt8.toNat_inj.mp (show c.toNat = c'.toNat by omega)]
    | _ => cases hsize

/-- The first two bytes tell whether the unit needs fewer. -/
theorem isOverlong_iff {g : ByteGroup} (h : g.IsWellFormed) : g.IsOverlong ↔ unitSize g.unit < g.bytes.length := by
  cases g with
  | one a => exact iff_of_false id (Nat.not_lt.mpr (unitSize_pos _))
  | two a b =>
    have hr := toNat_of_two h
    have hbytes : IsOverlong (two a b) ↔ a.toNat = 0xC1 ∨ a.toNat = 0xC0 ∧ b.toNat ≠ 0x80 := by
      simp [IsOverlong, ← UInt8.toNat_inj]
    rw [hbytes]
    refine Iff.trans ?_ unitSize_lt_two_iff.symm
    simp only [unit]
    omega
  | three a b c =>
    have hr := toNat_of_three h
    have hbytes : IsOverlong (three a b c) ↔ a.toNat = 0xE0 ∧ b.toNat < 0xA0 := by
      simp [IsOverlong, ← UInt8.toNat_inj, UInt8.lt_iff_toNat_lt]
    rw [hbytes]
    refine Iff.trans ?_ unitSize_lt_three_iff.symm
    simp only [unit]
    omega

theorem bytes_eq_encodeUnit_iff {g : ByteGroup} (h : g.IsWellFormed) : g.bytes = encodeUnit g.unit ↔ ¬g.IsOverlong := by
  rw [isOverlong_iff h, Nat.not_lt]
  constructor
  · intro hbytes
    rw [hbytes, length_encodeUnit]
  · intro hsize
    obtain ⟨shortest, hshortest, hbytes, hunit⟩ := exists_group_encodeUnit g.unit_lt
    have hlength : g.bytes.length = shortest.bytes.length := by
      rw [hbytes, length_encodeUnit]
      exact Nat.le_antisymm hsize (unitSize_le h)
    rw [eq_of_unit h hshortest hlength hunit.symm, hbytes, hunit]

end ByteGroup

/-! ## Spellings -/

/-- The bytes fall into groups one of which is overlong. -/
def HasOverlong (bytes : List UInt8) : Prop := ∃ groups, Splits bytes groups ∧ ∃ g ∈ groups, g.IsOverlong

section Spellings

variable {bytes : List UInt8} {groups : List ByteGroup} {s : String}

theorem Splits.append {bytes' : List UInt8} {groups' : List ByteGroup} (h : Splits bytes groups)
    (h' : Splits bytes' groups') : Splits (bytes ++ bytes') (groups ++ groups') :=
  ⟨by rw [h.bytes_eq, h'.bytes_eq, List.flatMap_append],
    fun g hg => (List.mem_append.mp hg).elim (h.wellFormed g) (h'.wellFormed g)⟩

/-- No group is shorter than its unit needs, so none can make up for the length of another. -/
theorem flatMap_bytes_eq_iff (h : ∀ g ∈ groups, g.IsWellFormed) :
    groups.flatMap ByteGroup.bytes = (groups.map ByteGroup.unit).flatMap encodeUnit ↔
      ∀ g ∈ groups, g.bytes = encodeUnit g.unit := by
  induction groups with
  | nil => simp
  | cons g groups ih =>
    rw [List.forall_mem_cons] at h
    rw [List.map_cons, List.flatMap_cons, List.flatMap_cons, List.forall_mem_cons, ← ih h.2]
    constructor
    · intro heq
      have hgroup := ByteGroup.unitSize_le h.1
      have hrest := length_flatMap_encodeUnit_le h.2
      have hlength := congrArg List.length heq
      rw [List.length_append, List.length_append, length_encodeUnit] at hlength
      exact List.append_inj heq (by rw [length_encodeUnit]; omega)
    · intro ⟨hgroup, hrest⟩
      rw [hgroup, hrest]

theorem Splits.units_eq (h : Splits bytes groups) (hs : decode bytes = some s) :
    groups.map ByteGroup.unit = s.toList.flatMap unitsOf := by
  obtain ⟨groups', h', hunits⟩ := decode_eq_some_iff.mp hs
  have hread := unitsOfBytes_eq_some_iff.mpr ⟨groups', h', hunits⟩
  rw [unitsOfBytes_eq_some_iff.mpr ⟨groups, h, rfl⟩] at hread
  exact Option.some.inj hread

theorem Splits.eq_encode_iff (h : Splits bytes groups) (hs : decode bytes = some s) :
    bytes = encode s ↔ ∀ g ∈ groups, ¬g.IsOverlong := by
  rw [encode, ← h.units_eq hs, h.bytes_eq, flatMap_bytes_eq_iff h.wellFormed]
  exact forall₂_congr fun g hg => ByteGroup.bytes_eq_encodeUnit_iff (h.wellFormed g hg)

/-- Bytes that are read as a text are its encoding unless there is an overlong group among them. -/
theorem eq_encode_iff (hs : decode bytes = some s) : bytes = encode s ↔ ¬HasOverlong bytes := by
  constructor
  · intro heq ⟨groups, hsplits, g, hg, hoverlong⟩
    exact (hsplits.eq_encode_iff hs).mp heq g hg hoverlong
  · intro hnone
    obtain ⟨groups, hsplits, -⟩ := decode_eq_some_iff.mp hs
    exact (hsplits.eq_encode_iff hs).mpr fun g hg hoverlong => hnone ⟨groups, hsplits, g, hg, hoverlong⟩

/-- The three bytes for a unit, whether it needs them or not. -/
theorem exists_group_three {u : Nat} (h : u < 0x800) :
    ∃ g : ByteGroup, g.IsWellFormed ∧ g.IsOverlong ∧ g.unit = u := by
  have hmiddle := toNat_toUInt8 (show 0x80 + u / 0x40 < 0x100 by omega)
  have hlast := toNat_toUInt8 (show 0x80 + u % 0x40 < 0x100 by omega)
  have hmiddleCont : isContinuation (0x80 + u / 0x40).toUInt8 = true := isContinuation_iff.mpr (by omega)
  have hlastCont : isContinuation (0x80 + u % 0x40).toUInt8 = true := isContinuation_iff.mpr (by omega)
  refine ⟨.three 0xE0 (0x80 + u / 0x40).toUInt8 (0x80 + u % 0x40).toUInt8,
    ⟨rfl, continuation_iff.mp hmiddleCont, continuation_iff.mp hlastCont⟩, ⟨rfl, ?_⟩, ?_⟩
  · rw [UInt8.lt_iff_toNat_lt, hmiddle]
    show _ < 0xA0
    omega
  · rw [unit_three rfl hmiddleCont hlastCont, hmiddle, hlast]
    show (0xE0 - 0xE0) * 0x1000 + _ + _ = u
    omega

theorem ByteGroup.unit_lt_of_isOverlong {g : ByteGroup} (h : g.IsWellFormed) (hoverlong : g.IsOverlong) :
    g.unit < 0x800 := by
  have hsize : g.bytes.length ≤ 3 := by cases g <;> simp [bytes]
  exact unitSize_lt_three_iff.mp (Nat.lt_of_lt_of_le ((isOverlong_iff h).mp hoverlong) hsize)

/-- There is another spelling as soon as one unit of the text can be spelled in more bytes than it needs. -/
theorem exists_spelling_iff : (∃ bytes, decode bytes = some s ∧ bytes ≠ encode s) ↔
    ∃ u ∈ s.toList.flatMap unitsOf, u < 0x800 := by
  constructor
  · intro ⟨bytes, hs, hne⟩
    obtain ⟨groups, hsplits, g, hg, hoverlong⟩ : HasOverlong bytes :=
      Classical.byContradiction fun hnone => hne ((eq_encode_iff hs).mpr hnone)
    rw [← hsplits.units_eq hs]
    exact ⟨g.unit, List.mem_map_of_mem hg, ByteGroup.unit_lt_of_isOverlong (hsplits.wellFormed g hg) hoverlong⟩
  · intro ⟨u, hu, hless⟩
    obtain ⟨before, after, hunits⟩ := List.append_of_mem hu
    have hall := flatMap_unitsOf_lt s.toList
    rw [hunits, List.forall_mem_append, List.forall_mem_cons] at hall
    obtain ⟨groups, hsplits, hbefore, -⟩ := exists_groups_flatMap hall.1
    obtain ⟨groups', hsplits', hafter, -⟩ := exists_groups_flatMap hall.2.2
    obtain ⟨g, hg, hoverlong, hunit⟩ := exists_group_three hless
    have hspelling := hsplits.append (hsplits'.cons hg)
    have hs := decode_eq_some_iff.mpr ⟨_, hspelling, by
      rw [List.map_append, List.map_cons, hbefore, hunit, hafter, ← hunits]⟩
    refine ⟨_, hs, fun heq => ?_⟩
    exact (hspelling.eq_encode_iff hs).mp heq g (List.mem_append_right _ List.mem_cons_self) hoverlong

end Spellings

/-- Besides encodings, the decoder reads spellings with overlong groups, and no others. Bytes are rejected
    if they do not fall into groups or leave a surrogate without its partner. Those that are read are the
    encoding of the text unless one of their groups is overlong, so other bytes are read as the same text
    only if there is an overlong group on one side. There are such bytes if the text has a unit below 0x800. -/
theorem spellings_differ_by_overlong_groups (bytes : List UInt8) :
    (decode bytes = none ↔ ¬∃ groups, Splits bytes groups ∧ IsPaired (groups.map ByteGroup.unit)) ∧
      ∀ s, decode bytes = some s → (bytes = encode s ↔ ¬HasOverlong bytes) ∧
        (∀ bytes', decode bytes' = some s → bytes ≠ bytes' → HasOverlong bytes ∨ HasOverlong bytes') ∧
        ((∃ bytes', decode bytes' = some s ∧ bytes' ≠ encode s) ↔ ∃ u ∈ s.toList.flatMap unitsOf, u < 0x800) := by
  refine ⟨?_, fun s hs => ⟨eq_encode_iff hs, fun bytes' hs' hne => ?_, exists_spelling_iff⟩⟩
  · rw [← isSome_decode_iff, ← Option.not_isSome_iff_eq_none]
  · by_contra hnone
    rw [not_or] at hnone
    exact hne (((eq_encode_iff hs).mpr hnone.1).trans ((eq_encode_iff hs').mpr hnone.2).symm)

/-- The solidus in two bytes and in three. -/
theorem spellings_differ_by_overlong_groups_solidus : decode [0xC0, 0xAF] = some "/" ∧
    decode [0xE0, 0x80, 0xAF] = some "/" ∧ (HasOverlong [0xC0, 0xAF] ∨ HasOverlong [0xE0, 0x80, 0xAF]) := by
  have htwo : decode [0xC0, 0xAF] = some "/" := by decide
  have hthree : decode [0xE0, 0x80, 0xAF] = some "/" := by decide
  obtain ⟨-, hread⟩ := spellings_differ_by_overlong_groups [0xC0, 0xAF]
  obtain ⟨-, hdiffer, -⟩ := hread _ htwo
  exact ⟨htwo, hthree, hdiffer _ hthree (by decide)⟩

/-- A letter is read from two bytes, though its encoding has one. -/
theorem overlong_letter_is_read :
    decode [0xC1, 0x81] = some "A" ∧ encode "A" = [0x41] ∧ decode [0x41] = some "A" := by decide

end JvmClass.Text.ModifiedUtf8
