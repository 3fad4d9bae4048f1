/-
  JvmClass.Proofs.Text.ByteGroups — how bytes fall into groups.

  A group has one to three bytes. Its first bits say how many, every byte after the first one starts with
  `10`, and the other bits are those of a 16-bit unit (`ByteGroup`); it need not be the shortest one for this
  unit. Bytes are read as units if they fall into such groups, and then as the units in them
  (`unitsOfBytes_eq_some_iff`).
-/

import JvmClass.Text.ModifiedUtf8

namespace JvmClass.Text.ModifiedUtf8

/-! ## Groups -/

inductive ByteGroup
  | one (a : UInt8)
  | two (a b : UInt8)
  | three (a b c : UInt8)

namespace ByteGroup

def bytes : ByteGroup → List UInt8
  | one a => [a]
  | two a b => [a, b]
  | three a b c => [a, b, c]

/-- The first byte starts with `0`, `110` or `1110`, and the others with `10`. A zero byte is no group. -/
def IsWellFormed : ByteGroup → Prop
  | one a => a >>> 7 = 0 ∧ a ≠ 0
  | two a b => a >>> 5 = 0b110 ∧ b >>> 6 = 0b10
  | three a b c => a >>> 4 = 0b1110 ∧ b >>> 6 = 0b10 ∧ c >>> 6 = 0b10

/-- The other bits, in their order: 7, 11 or 16 of them. -/
def unit : ByteGroup → Nat
  | one a => a.toNat % 0x80
  | two a b => a.toNat % 0x20 * 0x40 + b.toNat % 0x40
  | three a b c => a.toNat % 0x10 * 0x1000 + b.toNat % 0x40 * 0x40 + c.toNat % 0x40

theorem unit_lt (g : ByteGroup) : g.unit < 0x10000 := by
  cases g <;> simp only [unit] <;> omega

end ByteGroup

/-- The bytes are those of the groups, one after another. -/
structure Splits (bytes : List UInt8) (groups : List ByteGroup) : Prop where
  bytes_eq : bytes = groups.flatMap ByteGroup.bytes
  wellFormed : ∀ g ∈ groups, g.IsWellFormed

theorem Splits.cons {rest : List UInt8} {groups : List ByteGroup} {g : ByteGroup} (h : Splits rest groups)
    (hg : g.IsWellFormed) : Splits (g.bytes ++ rest) (g :: groups) :=
  ⟨by rw [h.bytes_eq, List.flatMap_cons], List.forall_mem_cons.mpr ⟨hg, h.wellFormed⟩⟩

/-! ## First and further bytes -/

section Bits

variable {a b c : UInt8}

theorem toNat_shiftRight {n : Nat} (hn : n < 8) : (a >>> UInt8.ofNat n).toNat = a.toNat >>> n := by
  have hcount : (UInt8.ofNat n).toNat % 8 = n := by
    rw [UInt8.toNat_ofNat', Nat.mod_eq_of_lt (Nat.lt_trans hn (by decide)), Nat.mod_eq_of_lt hn]
  rw [UInt8.toNat_shiftRight, hcount]

/-- The first bits of a byte, as a number. -/
theorem shiftRight_eq_iff {n : Nat} (hn : n < 8) : a >>> UInt8.ofNat n = b ↔ a.toNat >>> n = b.toNat := by
  rw [← UInt8.toNat_inj, toNat_shiftRight hn]

theorem one_range_iff : (0 < a && a < 0x80) = true ↔ 0 < a.toNat ∧ a.toNat < 0x80 := by
  simp [UInt8.lt_iff_toNat_lt]

theorem two_range_iff : (0xC0 ≤ a && a < 0xE0) = true ↔ 0xC0 ≤ a.toNat ∧ a.toNat < 0xE0 := by
  simp [UInt8.le_iff_toNat_le, UInt8.lt_iff_toNat_lt]

theorem three_range_iff : (0xE0 ≤ a && a < 0xF0) = true ↔ 0xE0 ≤ a.toNat ∧ a.toNat < 0xF0 := by
  simp [UInt8.le_iff_toNat_le, UInt8.lt_iff_toNat_lt]

theorem isContinuation_iff : isContinuation b = true ↔ 0x80 ≤ b.toNat ∧ b.toNat < 0xC0 := by
  simp [isContinuation, UInt8.le_iff_toNat_le, UInt8.lt_iff_toNat_lt]

theorem one_iff : (0 < a && a < 0x80) = true ↔ a >>> 7 = 0 ∧ a ≠ 0 := by
  have hbits : a >>> 7 = 0 ↔ a.toNat >>> 7 = 0 := shiftRight_eq_iff (n := 7) (by decide)
  have hzero : a ≠ 0 ↔ a.toNat ≠ 0 := not_congr UInt8.toNat_inj.symm
  rw [one_range_iff, hbits, hzero]
  omega

theorem two_iff : (0xC0 ≤ a && a < 0xE0) = true ↔ a >>> 5 = 0b110 := by
  have hbits : a >>> 5 = 0b110 ↔ a.toNat >>> 5 = 6 := shiftRight_eq_iff (n := 5) (by decide)
  rw [two_range_iff, hbits]
  omega

theorem three_iff : (0xE0 ≤ a && a < 0xF0) = true ↔ a >>> 4 = 0b1110 := by
  have hbits : a >>> 4 = 0b1110 ↔ a.toNat >>> 4 = 14 := shiftRight_eq_iff (n := 4) (by decide)
  rw [three_range_iff, hbits]
  omega

theorem continuation_iff : isContinuation b = true ↔ b >>> 6 = 0b10 := by
  have hbits : b >>> 6 = 0b10 ↔ b.toNat >>> 6 = 2 := shiftRight_eq_iff (n := 6) (by decide)
  rw [isContinuation_iff, hbits]
  omega

theorem not_one_of_two (h : (0xC0 ≤ a && a < 0xE0) = true) : ¬(0 < a && a < 0x80) = true := by
  rw [one_range_iff]
  have ha := two_range_iff.mp h
  omega

theorem not_one_of_three (h : (0xE0 ≤ a && a < 0xF0) = true) :
    ¬(0 < a && a < 0x80) = true ∧ ¬(0xC0 ≤ a && a < 0xE0) = true := by
  rw [one_range_iff, two_range_iff]
  have ha := three_range_iff.mp h
  omega

theorem unit_one (h : (0 < a && a < 0x80) = true) : (ByteGroup.one a).unit = a.toNat :=
  Nat.mod_eq_of_lt (one_range_iff.mp h).2

theorem unit_two (ha : (0xC0 ≤ a && a < 0xE0) = true) (hb : isContinuation b = true) :
    (ByteGroup.two a b).unit = (a.toNat - 0xC0) * 0x40 + (b.toNat - 0x80) := by
  have ha := two_range_iff.mp ha
  have hb := isContinuation_iff.mp hb
  simp only [ByteGroup.unit]
  omega

theorem unit_three (ha : (0xE0 ≤ a && a < 0xF0) = true) (hb : isContinuation b = true)
    (hc : isContinuation c = true) :
    (ByteGroup.three a b c).unit = (a.toNat - 0xE0) * 0x1000 + (b.toNat - 0x80) * 0x40 + (c.toNat - 0x80) := by
  have ha := three_range_iff.mp ha
  have hb := isContinuation_iff.mp hb
  have hc := isContinuation_iff.mp hc
  simp only [ByteGroup.unit]
  omega

end Bits

/-! ## Reading -/

/-- A group is read as its unit. -/
theorem unitsInto_group {g : ByteGroup} (h : g.IsWellFormed) (acc : List Nat) (rest : List UInt8) :
    unitsInto acc (g.bytes ++ rest) = unitsInto (g.unit :: acc) rest := by
  cases g with
  | one a =>
    have hone := one_iff.mpr h
    rw [unit_one hone, unitsInto.eq_def]
    exact if_pos hone
  | two a b =>
    have htwo := two_iff.mpr h.1
    have hb := continuation_iff.mpr h.2
    rw [unit_two htwo hb, unitsInto.eq_def]
    exact (if_neg (not_one_of_two htwo)).trans ((if_pos htwo).trans (if_pos hb))
  | three a b c =>
    have hthree := three_iff.mpr h.1
    have hb := continuation_iff.mpr h.2.1
    have hc := continuation_iff.mpr h.2.2
    have hrest : (isContinuation b && isContinuation c) = true := by rw [hb, hc, Bool.and_self]
    obtain ⟨hone, htwo⟩ := not_one_of_three hthree
    rw [unit_three hthree hb hc, unitsInto.eq_def]
    exact (if_neg hone).trans ((if_neg htwo).trans ((if_pos hthree).trans (if_pos hrest)))

theorem unitsInto_of_splits {bytes : List UInt8} {groups : List ByteGroup} (h : Splits bytes groups) (acc : List Nat) :
    unitsInto acc bytes = some (acc.reverse ++ groups.map ByteGroup.unit) := by
  obtain ⟨rfl, hgroups⟩ := h
  induction groups generalizing acc with
  | nil => rw [List.flatMap_nil, unitsInto, List.map_nil, List.append_nil]
  | cons g groups ih =>
    rw [List.forall_mem_cons] at hgroups
    rw [List.flatMap_cons, unitsInto_group hgroups.1, ih _ hgroups.2, List.reverse_cons, List.append_assoc]
    rfl

/-- The units that follow those of `acc` are in groups that the bytes fall into. -/
def ReadInto (acc units : List Nat) (bytes : List UInt8) : Prop :=
  ∃ groups, Splits bytes groups ∧ units = acc.reverse ++ groups.map ByteGroup.unit

theorem ReadInto.group {acc units : List Nat} {rest : List UInt8} {g : ByteGroup}
    (h : ReadInto (g.unit :: acc) units rest) (hg : g.IsWellFormed) : ReadInto acc units (g.bytes ++ rest) := by
  obtain ⟨groups, hsplits, rfl⟩ := h
  exact ⟨g :: groups, hsplits.cons hg, by simp⟩

/-- What is read as units falls into groups; the induction takes one group after another. -/
theorem readInto_of_unitsInto {acc units : List Nat} {bytes : List UInt8} (h : unitsInto acc bytes = some units) :
    ReadInto acc units bytes := by
  fun_induction unitsInto acc bytes with
  | case1 acc =>
    cases h
    exact ⟨[], ⟨rfl, by simp⟩, (List.append_nil _).symm⟩
  | case2 acc a rest hone ih =>
    rw [← unit_one hone] at h ih
    exact (ih h).group (one_iff.mp hone)
  | case3 acc a hone htwo b rest hb ih =>
    rw [← unit_two htwo hb] at h ih
    exact (ih h).group ⟨two_iff.mp htwo, continuation_iff.mp hb⟩
  | case4 => cases h
  | case5 => cases h
  | case6 acc a hone htwo hthree b c rest hrest unit ih =>
    obtain ⟨hb, hc⟩ := Bool.and_eq_true_iff.mp hrest
    have hunit : unit = (ByteGroup.three a b c).unit := (unit_three hthree hb hc).symm
    rw [hunit] at h ih
    exact (ih h).group ⟨three_iff.mp hthree, continuation_iff.mp hb, continuation_iff.mp hc⟩
  | case7 => cases h
  | case8 => cases h
  | case9 => cases h

theorem unitsOfBytes_eq_some_iff {bytes : List UInt8} {units : List Nat} :
    unitsOfBytes bytes = some units ↔ ∃ groups, Splits bytes groups ∧ groups.map ByteGroup.unit = units := by
  constructor
  · intro h
    obtain ⟨groups, hsplits, hunits⟩ := readInto_of_unitsInto h
    exact ⟨groups, hsplits, hunits.symm⟩
  · intro ⟨groups, hsplits, hunits⟩
    rw [unitsOfBytes, unitsInto_of_splits hsplits, List.reverse_nil, List.nil_append, hunits]

end JvmClass.Text.ModifiedUtf8
