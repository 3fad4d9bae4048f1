/-
  JvmClass.Proofs.Text.ModifiedUtf8 — texts come back from their encoding.

  Decoding undoes what encoding does step by step: a group of bytes is read as the code unit that it
  was made of, and the units of a character as that character (`decode_encode`). The other way round
  a group may be longer than its unit needs, so a text is encoded in no more bytes than it can be
  read from (`length_encode_le`). Units are those of some text if no surrogate is without its partner
  (`isSome_charsInto_iff`).
-/

import JvmClass.Proofs.Text.ByteGroups
import Mathlib.Data.List.Chain

namespace JvmClass.Text.ModifiedUtf8

/-! ## Shortest groups -/

theorem toNat_toUInt8 {n : Nat} (h : n < 0x100) : n.toUInt8.toNat = n := by
  rw [Nat.toUInt8_eq, UInt8.toNat_ofNat', Nat.mod_eq_of_lt h]

theorem exists_group_encodeUnit {u : Nat} (h : u < 0x10000) :
    ∃ g : ByteGroup, g.IsWellFormed ∧ g.bytes = encodeUnit u ∧ g.unit = u := by
  have hlast := toNat_toUInt8 (show 0x80 + u % 0x40 < 0x100 by omega)
  have hlastCont : isContinuation (0x80 + u % 0x40).toUInt8 = true := isContinuation_iff.mpr (by omega)
  unfold encodeUnit
  split
  · rename_i hu
    have hfirst := toNat_toUInt8 (show u < 0x100 by omega)
    have hone : (0 < u.toUInt8 && u.toUInt8 < 0x80) = true := one_range_iff.mpr (by rw [hfirst]; exact hu)
    exact ⟨.one u.toUInt8, one_iff.mp hone, rfl, by rw [unit_one hone, hfirst]⟩
  split
  · have hfirst := toNat_toUInt8 (show 0xC0 + u / 0x40 < 0x100 by omega)
    have htwo : (0xC0 ≤ (0xC0 + u / 0x40).toUInt8 && (0xC0 + u / 0x40).toUInt8 < 0xE0) = true :=
      two_range_iff.mpr (by omega)
    refine ⟨.two _ _, ⟨two_iff.mp htwo, continuation_iff.mp hlastCont⟩, rfl, ?_⟩
    rw [unit_two htwo hlastCont]
    omega
  · have hfirst := toNat_toUInt8 (show 0xE0 + u / 0x1000 < 0x100 by omega)
    have hmiddle := toNat_toUInt8 (show 0x80 + u / 0x40 % 0x40 < 0x100 by omega)
    have hmiddleCont : isContinuation (0x80 + u / 0x40 % 0x40).toUInt8 = true := isContinuation_iff.mpr (by omega)
    have hthree : (0xE0 ≤ (0xE0 + u / 0x1000).toUInt8 && (0xE0 + u / 0x1000).toUInt8 < 0xF0) = true :=
      three_range_iff.mpr (by omega)
    have hbits := And.intro (continuation_iff.mp hmiddleCont) (continuation_iff.mp hlastCont)
    refine ⟨.three _ _ _, ⟨three_iff.mp hthree, hbits⟩, rfl, ?_⟩
    rw [unit_three hthree hmiddleCont hlastCont]
    omega

/-- The number of bytes that a unit needs. -/
def unitSize (u : Nat) : Nat := if 0 < u ∧ u < 0x80 then 1 else if u < 0x800 then 2 else 3

theorem length_encodeUnit (u : Nat) : (encodeUnit u).length = unitSize u := by
  unfold encodeUnit unitSize
  split
  · rfl
  split
  · rfl
  · rfl

/-- Units are encoded in groups of the sizes that they need. -/
theorem exists_groups_flatMap {units : List Nat} (h : ∀ u ∈ units, u < 0x10000) :
    ∃ groups, Splits (units.flatMap encodeUnit) groups ∧ groups.map ByteGroup.unit = units ∧
      groups.map (·.bytes.length) = units.map unitSize := by
  induction units with
  | nil => exact ⟨[], ⟨rfl, by simp⟩, rfl, rfl⟩
  | cons u units ih =>
    rw [List.forall_mem_cons] at h
    obtain ⟨groups, hsplits, hunits, hsizes⟩ := ih h.2
    obtain ⟨g, hg, hbytes, hunit⟩ := exists_group_encodeUnit h.1
    refine ⟨g :: groups, ?_, by rw [List.map_cons, hunit, hunits], ?_⟩
    · rw [List.flatMap_cons, ← hbytes]
      exact hsplits.cons hg
    · rw [List.map_cons, List.map_cons, hsizes, hbytes, length_encodeUnit]

theorem unitsOfBytes_flatMap {units : List Nat} (h : ∀ u ∈ units, u < 0x10000) :
    unitsOfBytes (units.flatMap encodeUnit) = some units := by
  obtain ⟨groups, hsplits, hunits, -⟩ := exists_groups_flatMap h
  exact unitsOfBytes_eq_some_iff.mpr ⟨groups, hsplits, hunits⟩

/-- A group is no shorter than its unit needs. -/
theorem ByteGroup.unitSize_le {g : ByteGroup} (h : g.IsWellFormed) : unitSize g.unit ≤ g.bytes.length := by
  unfold unitSize
  cases g with
  | one a =>
    have ha := one_iff.mpr h
    have hrange : 0 < (one a).unit ∧ (one a).unit < 0x80 := (unit_one ha).symm ▸ one_range_iff.mp ha
    rw [if_pos hrange]
    exact Nat.le_refl 1
  | two a b =>
    have hunit : (two a b).unit < 0x800 := by
      simp only [unit]
      omega
    rw [if_pos hunit]
    show _ ≤ 2
    split <;> omega
  | three a b c =>
    show _ ≤ 3
    split
    · omega
    split <;> omega

theorem length_flatMap_encodeUnit_le {groups : List ByteGroup} (h : ∀ g ∈ groups, g.IsWellFormed) :
    ((groups.map ByteGroup.unit).flatMap encodeUnit).length ≤ (groups.flatMap ByteGroup.bytes).length := by
  induction groups with
  | nil => exact Nat.le_refl _
  | cons g groups ih =>
    rw [List.forall_mem_cons] at h
    rw [List.map_cons, List.flatMap_cons, List.flatMap_cons, List.length_append, List.length_append, length_encodeUnit]
    exact Nat.add_le_add (ByteGroup.unitSize_le h.1) (ih h.2)

/-! ## Characters -/

theorem toNat_cases (c : Char) : c.toNat < 0xD800 ∨ 0xDFFF < c.toNat ∧ c.toNat < 0x110000 := c.valid

theorem isHighSurrogate_iff {u : Nat} : isHighSurrogate u = true ↔ 0xD800 ≤ u ∧ u < 0xDC00 := by
  simp only [isHighSurrogate, Bool.and_eq_true, decide_eq_true_eq]

theorem isLowSurrogate_iff {u : Nat} : isLowSurrogate u = true ↔ 0xDC00 ≤ u ∧ u < 0xE000 := by
  simp only [isLowSurrogate, Bool.and_eq_true, decide_eq_true_eq]

theorem unitsOf_lt (c : Char) : ∀ u ∈ unitsOf c, u < 0x10000 := by
  have hc := toNat_cases c
  unfold unitsOf
  split
  · simpa
  · simp only [List.mem_cons, List.not_mem_nil, or_false, forall_eq_or_imp, forall_eq]
    omega

theorem flatMap_unitsOf_lt (chars : List Char) : ∀ u ∈ chars.flatMap unitsOf, u < 0x10000 := by
  intro u hu
  obtain ⟨c, -, hc⟩ := List.mem_flatMap.mp hu
  exact unitsOf_lt c u hc

/-- The units of a character are read as the character. -/
theorem charsInto_unitsOf (c : Char) (acc : List Char) (rest : List Nat) :
    charsInto acc (unitsOf c ++ rest) = charsInto (c :: acc) rest := by
  have hc := toNat_cases c
  unfold unitsOf
  split
  · have hhigh : ¬isHighSurrogate c.toNat = true := by
      rw [isHighSurrogate_iff]
      omega
    have hlow : ¬isLowSurrogate c.toNat = true := by
      rw [isLowSurrogate_iff]
      omega
    rw [List.cons_append, List.nil_append, charsInto.eq_def]
    exact (if_neg hhigh).trans ((if_neg hlow).trans (by rw [Char.ofNat_toNat]))
  · have hhigh : isHighSurrogate (0xD800 + (c.toNat - 0x10000) / 0x400) = true := isHighSurrogate_iff.mpr (by omega)
    have hlow : isLowSurrogate (0xDC00 + (c.toNat - 0x10000) % 0x400) = true := isLowSurrogate_iff.mpr (by omega)
    have hunit : 0x10000 + (0xD800 + (c.toNat - 0x10000) / 0x400 - 0xD800) * 0x400 +
        (0xDC00 + (c.toNat - 0x10000) % 0x400 - 0xDC00) = c.toNat := by omega
    rw [List.cons_append, List.cons_append, List.nil_append, charsInto.eq_def]
    exact (if_pos hhigh).trans ((if_pos hlow).trans (by rw [hunit, Char.ofNat_toNat]))

theorem toNat_ofNat {n : Nat} (h : n.isValidChar) : (Char.ofNat n).toNat = n := by
  unfold Char.ofNat
  rw [dif_pos h]
  rfl

/-- The characters that units are read as have just these units. -/
theorem charsInto_eq_some {acc chars : List Char} {units : List Nat} (hunits : ∀ u ∈ units, u < 0x10000)
    (h : charsInto acc units = some chars) :
    ∃ read : List Char, chars = acc.reverse ++ read ∧ read.flatMap unitsOf = units := by
  fun_induction charsInto acc units with
  | case1 acc =>
    cases h
    exact ⟨[], (List.append_nil _).symm, rfl⟩
  | case2 acc u hhigh v rest hlow ih =>
    rw [List.forall_mem_cons, List.forall_mem_cons] at hunits
    rw [isHighSurrogate_iff] at hhigh
    rw [isLowSurrogate_iff] at hlow
    obtain ⟨read, rfl, hread⟩ := ih hunits.2.2 h
    refine ⟨_ :: read, by rw [List.reverse_cons, List.append_assoc]; rfl, ?_⟩
    have hchar : (Char.ofNat (0x10000 + (u - 0xD800) * 0x400 + (v - 0xDC00))).toNat =
        0x10000 + (u - 0xD800) * 0x400 + (v - 0xDC00) := toNat_ofNat (.inr (by omega))
    have hu : 0xD800 + (0x10000 + (u - 0xD800) * 0x400 + (v - 0xDC00) - 0x10000) / 0x400 = u := by omega
    have hv : 0xDC00 + (0x10000 + (u - 0xD800) * 0x400 + (v - 0xDC00) - 0x10000) % 0x400 = v := by omega
    rw [List.flatMap_cons, hread, unitsOf, hchar, if_neg (by omega), hu, hv]
    rfl
  | case3 => cases h
  | case4 => cases h
  | case5 => cases h
  | case6 acc u rest hhigh hlow ih =>
    rw [List.forall_mem_cons] at hunits
    rw [isHighSurrogate_iff] at hhigh
    rw [isLowSurrogate_iff] at hlow
    obtain ⟨read, rfl, hread⟩ := ih hunits.2 h
    refine ⟨_ :: read, by rw [List.reverse_cons, List.append_assoc]; rfl, ?_⟩
    have hchar : (Char.ofNat u).toNat = u := toNat_ofNat (by unfold Nat.isValidChar; omega)
    rw [List.flatMap_cons, hread, unitsOf, hchar, if_pos hunits.1]
    rfl

theorem charsOfUnits_flatMap (chars : List Char) : charsOfUnits (chars.flatMap unitsOf) = some chars := by
  have hinto (acc : List Char) : charsInto acc (chars.flatMap unitsOf) = some (acc.reverse ++ chars) := by
    induction chars generalizing acc with
    | nil => rw [List.flatMap_nil, charsInto, List.append_nil]
    | cons c chars ih =>
      rw [List.flatMap_cons, charsInto_unitsOf, ih, List.reverse_cons, List.append_assoc]
      rfl
  exact hinto []

theorem charsOfUnits_eq_some_iff {units : List Nat} {chars : List Char} (h : ∀ u ∈ units, u < 0x10000) :
    charsOfUnits units = some chars ↔ chars.flatMap unitsOf = units := by
  constructor
  · intro hchars
    obtain ⟨read, rfl, hread⟩ := charsInto_eq_some h hchars
    exact hread
  · intro hunits
    rw [← hunits, charsOfUnits_flatMap]

/-! ## Surrogates -/

/-- Behind a high surrogate there must be a low one, and behind any other unit there must not. -/
def CanPrecede (u v : Nat) : Prop := isHighSurrogate u = isLowSurrogate v

/-- No surrogate is without its partner. -/
structure IsPaired (units : List Nat) : Prop where
  adjacent : units.IsChain CanPrecede
  first : ∀ u ∈ units.head?, ¬isLowSurrogate u = true
  last : ∀ u ∈ units.getLast?, ¬isHighSurrogate u = true

section Surrogates

variable {u v : Nat} {rest : List Nat}

theorem not_low_of_high (h : isHighSurrogate u = true) : ¬isLowSurrogate u = true := by
  rw [isLowSurrogate_iff]
  have hu := isHighSurrogate_iff.mp h
  omega

/-- Units are paired behind one that is no high surrogate if they are on their own. -/
theorem isPaired_iff_of_not_high (hu : ¬isHighSurrogate u = true) :
    IsPaired rest ↔ (u :: rest).IsChain CanPrecede ∧ ∀ v ∈ (u :: rest).getLast?, ¬isHighSurrogate v = true := by
  rw [Bool.not_eq_true] at hu
  cases rest with
  | nil => exact iff_of_true ⟨.nil, by simp, by simp⟩ ⟨.singleton u, by simpa using hu⟩
  | cons v rest =>
    have hfirst : CanPrecede u v ↔ ¬isLowSurrogate v = true := by
      rw [CanPrecede, hu, Bool.not_eq_true, eq_comm]
    rw [List.isChain_cons_cons, hfirst, List.getLast?_cons_cons]
    constructor
    · intro h
      exact ⟨⟨h.first v rfl, h.adjacent⟩, h.last⟩
    · intro ⟨⟨hv, hchain⟩, hlast⟩
      exact ⟨hchain, by simpa using hv, hlast⟩

theorem isPaired_cons_iff (hhigh : ¬isHighSurrogate u = true) (hlow : ¬isLowSurrogate u = true) :
    IsPaired (u :: rest) ↔ IsPaired rest := by
  refine Iff.trans ?_ (isPaired_iff_of_not_high hhigh).symm
  constructor
  · intro h
    exact ⟨h.adjacent, h.last⟩
  · intro ⟨hchain, hlast⟩
    exact ⟨hchain, by simpa using hlow, hlast⟩

theorem isPaired_cons_cons_iff (hhigh : isHighSurrogate u = true) (hlow : isLowSurrogate v = true) :
    IsPaired (u :: v :: rest) ↔ IsPaired rest := by
  have hfirst := not_low_of_high hhigh
  have hadjacent : CanPrecede u v := hhigh.trans hlow.symm
  refine Iff.trans ?_ (isPaired_iff_of_not_high fun hv => not_low_of_high hv hlow).symm
  constructor
  · intro h
    exact ⟨h.adjacent.tail, by simpa using h.last⟩
  · intro ⟨hchain, hlast⟩
    exact ⟨.cons_cons hadjacent hchain, by simpa using hfirst, by simpa using hlast⟩

end Surrogates

/-- Units are those of characters if each surrogate has its partner; the induction takes a pair at once. -/
theorem isSome_charsInto_iff {acc : List Char} {units : List Nat} :
    (charsInto acc units).isSome = true ↔ IsPaired units := by
  fun_induction charsInto acc units with
  | case1 acc => exact iff_of_true rfl ⟨.nil, by simp, by simp⟩
  | case2 acc u hhigh v rest hlow ih => exact ih.trans (isPaired_cons_cons_iff hhigh hlow).symm
  | case3 acc u hhigh v rest hlow =>
    refine iff_of_false (by simp) fun h => ?_
    have hadjacent := (List.isChain_cons_cons.mp h.adjacent).1
    exact hlow (hadjacent ▸ hhigh)
  | case4 acc u hhigh => exact iff_of_false (by simp) fun h => h.last u rfl hhigh
  | case5 acc u rest hhigh hlow => exact iff_of_false (by simp) fun h => h.first u rfl hlow
  | case6 acc u rest hhigh hlow ih => exact ih.trans (isPaired_cons_iff hhigh hlow).symm

/-! ## Texts -/

theorem decode_encode (s : String) : decode (encode s) = some s := by
  rw [decode, encode, unitsOfBytes_flatMap (flatMap_unitsOf_lt _), Option.bind_some, charsOfUnits_flatMap,
    Option.map_some, String.ofList_toList]

theorem units_lt {groups : List ByteGroup} : ∀ u ∈ groups.map ByteGroup.unit, u < 0x10000 :=
  List.forall_mem_map.mpr fun g _ => g.unit_lt

/-- The units of a decoded text are those of the groups, whatever groups the bytes fall into. -/
theorem decode_eq_some_iff {bytes : List UInt8} {s : String} : decode bytes = some s ↔
    ∃ groups, Splits bytes groups ∧ groups.map ByteGroup.unit = s.toList.flatMap unitsOf := by
  have hdecode : decode bytes = some s ↔
      ∃ units, unitsOfBytes bytes = some units ∧ charsOfUnits units = some s.toList := by
    simp only [decode, Option.map_eq_some_iff, Option.bind_eq_some_iff]
    constructor
    · intro ⟨chars, ⟨units, hunits, hchars⟩, hs⟩
      exact ⟨units, hunits, by rw [hchars, ← hs, String.toList_ofList]⟩
    · intro ⟨units, hunits, hchars⟩
      exact ⟨s.toList, ⟨units, hunits, hchars⟩, String.ofList_toList⟩
  rw [hdecode]
  constructor
  · intro ⟨units, hunits, hchars⟩
    obtain ⟨groups, hsplits, rfl⟩ := unitsOfBytes_eq_some_iff.mp hunits
    exact ⟨groups, hsplits, ((charsOfUnits_eq_some_iff units_lt).mp hchars).symm⟩
  · intro ⟨groups, hsplits, hunits⟩
    have hchars := (charsOfUnits_eq_some_iff units_lt).mpr hunits.symm
    exact ⟨_, unitsOfBytes_eq_some_iff.mpr ⟨groups, hsplits, rfl⟩, hchars⟩

theorem isSome_decode_iff {bytes : List UInt8} :
    (decode bytes).isSome = true ↔ ∃ groups, Splits bytes groups ∧ IsPaired (groups.map ByteGroup.unit) := by
  rw [decode, Option.isSome_map, Option.isSome_bind, Option.any_eq_true]
  constructor
  · intro ⟨units, hunits, hchars⟩
    obtain ⟨groups, hsplits, rfl⟩ := unitsOfBytes_eq_some_iff.mp hunits
    exact ⟨groups, hsplits, isSome_charsInto_iff.mp hchars⟩
  · intro ⟨groups, hsplits, hpaired⟩
    exact ⟨_, unitsOfBytes_eq_some_iff.mpr ⟨groups, hsplits, rfl⟩, isSome_charsInto_iff.mpr hpaired⟩

theorem length_encode_le {bytes : List UInt8} {s : String} (h : decode bytes = some s) :
    (encode s).length ≤ bytes.length := by
  obtain ⟨groups, ⟨rfl, hgroups⟩, hunits⟩ := decode_eq_some_iff.mp h
  rw [encode, ← hunits]
  exact length_flatMap_encodeUnit_le hgroups

end JvmClass.Text.ModifiedUtf8
