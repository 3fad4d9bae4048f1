/-
  JvmClass.Proofs.Trapping.Bytes — texts, byte by byte.

  Some checks look at the bytes of a text and not at its characters. In UTF-8 a character below U+0080 is
  one byte, and the bytes of all others are above (`utf8EncodeChar_of_ascii`, `high_of_mem_utf8EncodeChar`),
  so the check of a field descriptor finds its letters among the bytes where they are among the characters
  (`isFieldDescriptor_eq`). The bytes of modified UTF-8 are taken apart by shifts and masks, from a position
  that moves by one group at a time; the scan ends on all bytes, and with the units of the groups
  (`decodeModifiedUtf8_eq`). So what it finds is the text that has these units, if there is one
  (`decoding_undoes_encoding`).
-/

import JvmClass.Proofs.Descriptor.Spelling
import JvmClass.Proofs.Text.ModifiedUtf8
import JvmClass.Proofs.Trapping.Basic

namespace JvmClass

namespace Trapping

namespace Bytes

/-! ## Characters as bytes -/

/-- The bytes of a text in UTF-8. -/
def utf8 (s : List Char) : List UInt8 := s.flatMap String.utf8EncodeChar

theorem toList_toUTF8 (s : String) : s.toUTF8.data.toList = utf8 s.toList := by
  rw [String.toUTF8, ← String.utf8Encode_toList, List.utf8Encode, List.data_toByteArray, List.toList_toArray, utf8]

theorem utf8_cons (c : Char) (s : List Char) : utf8 (c :: s) = String.utf8EncodeChar c ++ utf8 s := List.flatMap_cons

theorem utf8_append (s t : List Char) : utf8 (s ++ t) = utf8 s ++ utf8 t := List.flatMap_append

@[simp] theorem utf8_eq_nil_iff {s : List Char} : utf8 s = [] ↔ s = [] := by
  cases s <;> simp [utf8]

section Ascii

variable {c d : Char} {s : List Char}

theorem toNat_toUInt8 (h : c.toNat < 0x80) : c.toUInt8.toNat = c.toNat := by
  show c.val.toUInt8.toNat = c.toNat
  rw [UInt32.toNat_toUInt8]
  exact Nat.mod_eq_of_lt (Nat.lt_trans h (by decide))

theorem utf8EncodeChar_of_ascii (h : c.toNat < 0x80) : String.utf8EncodeChar c = [c.toUInt8] := by
  refine String.utf8EncodeChar_eq_singleton (Char.utf8Size_eq_one_iff.mpr ?_)
  rw [UInt32.le_iff_toNat_le]
  exact Nat.le_of_lt_succ h

theorem le_or (x y : UInt8) : y ≤ x ||| y := by
  rw [UInt8.le_iff_toNat_le, UInt8.toNat_or]
  exact Nat.right_le_or

/-- No byte of a longer character is one of a character below U+0080. -/
theorem high_of_mem_utf8EncodeChar (h : 0x80 ≤ c.toNat) : ∀ b ∈ String.utf8EncodeChar c, 0x80 ≤ b := by
  have htwo (x : UInt8) : 0x80 ≤ x ||| 192 := UInt8.le_trans (by decide) (le_or x 192)
  have hthree (x : UInt8) : 0x80 ≤ x ||| 224 := UInt8.le_trans (by decide) (le_or x 224)
  have hfour (x : UInt8) : 0x80 ≤ x ||| 240 := UInt8.le_trans (by decide) (le_or x 240)
  have hrest (x : UInt8) : 0x80 ≤ x ||| 128 := le_or x 128
  rcases c.utf8Size_eq with hsize | hsize | hsize | hsize
  · have hlow : c.toNat ≤ 127 := UInt32.le_iff_toNat_le.mp (Char.utf8Size_eq_one_iff.mp hsize)
    omega
  · rw [String.utf8EncodeChar_eq_cons_cons hsize]
    simp [htwo, hrest]
  · rw [String.utf8EncodeChar_eq_cons_cons_cons hsize]
    simp [hthree, hrest]
  · rw [String.utf8EncodeChar_eq_cons_cons_cons_cons hsize]
    simp [hfour, hrest]

theorem mem_utf8EncodeChar_iff (hd : d.toNat < 0x80) : d.toUInt8 ∈ String.utf8EncodeChar c ↔ c = d := by
  by_cases hc : c.toNat < 0x80
  · rw [utf8EncodeChar_of_ascii hc, List.mem_singleton, ← UInt8.toNat_inj, toNat_toUInt8 hd, toNat_toUInt8 hc,
      Char.toNat_inj, eq_comm]
  · constructor
    · intro hmem
      have hhigh := UInt8.le_iff_toNat_le.mp (high_of_mem_utf8EncodeChar (Nat.le_of_not_lt hc) _ hmem)
      rw [toNat_toUInt8 hd] at hhigh
      exact absurd hd (Nat.not_lt.mpr hhigh)
    · intro heq
      exact absurd (heq ▸ hd) hc

theorem mem_utf8_iff (hd : d.toNat < 0x80) : d.toUInt8 ∈ utf8 s ↔ d ∈ s := by
  simp [utf8, List.mem_flatMap, mem_utf8EncodeChar_iff hd]

theorem head?_utf8_iff (hd : d.toNat < 0x80) : (utf8 s).head? = some d.toUInt8 ↔ s.head? = some d := by
  cases s with
  | nil => simp [utf8]
  | cons c s =>
    rw [utf8_cons, List.head?_cons, Option.some_inj]
    constructor
    · intro h
      obtain ⟨b, rest, hchar⟩ := List.exists_cons_of_ne_nil (String.utf8EncodeChar_ne_nil (c := c))
      rw [hchar, List.cons_append, List.head?_cons, Option.some_inj] at h
      exact (mem_utf8EncodeChar_iff hd).mp (by rw [hchar, h]; exact List.mem_cons_self)
    · intro h
      rw [h, utf8EncodeChar_of_ascii hd]
      rfl

end Ascii

/-! ## Field descriptors -/

/-- The letters of base types. -/
def isBaseByte (b : UInt8) : Bool := "BCDFIJSZ".toList.any (·.toUInt8 == b)

/-- A class name ends with the first `;`, which is the last byte; the element of an array is a descriptor of
    its own. -/
def isFieldDescriptor : List UInt8 → Option Bool := Loop.run fun bytes =>
  if bytes.head? = some 'L'.toUInt8 then
    return .inr (((bytes.drop 1).idxOf? ';'.toUInt8).any fun k => k + 2 == bytes.length)
  else if bytes.head? = some '['.toUInt8 then
    match bytes.findIdx? (· != '['.toUInt8) with
    | some start => do return .inl (← slice bytes start bytes.length)
    | none => return .inr false
  else return .inr (bytes.head?.any isBaseByte && bytes.length == 1)

theorem isBaseLetter_iff_mem {c : Char} : isBaseLetter c = true ↔ c ∈ "BCDFIJSZ".toList := by
  constructor
  · intro h
    obtain ⟨b, rfl⟩ := isBaseLetter_iff.mp h
    cases b <;> decide
  · have hletters : "BCDFIJSZ".toList.all isBaseLetter = true := by decide
    exact List.all_eq_true.mp hletters c

theorem ascii_of_isBaseLetter {c : Char} (h : isBaseLetter c = true) : c.toNat < 0x80 := by
  obtain ⟨b, rfl⟩ := isBaseLetter_iff.mp h
  cases b <;> decide

theorem any_isBaseByte_head (c : Char) (s : List Char) : (utf8 (c :: s)).head?.any isBaseByte = isBaseLetter c := by
  have hascii (d : Char) (hd : d ∈ "BCDFIJSZ".toList) : d.toNat < 0x80 :=
    ascii_of_isBaseLetter (isBaseLetter_iff_mem.mpr hd)
  rw [Bool.eq_iff_iff, isBaseLetter_iff_mem, Option.any_eq_true]
  constructor
  · intro ⟨b, hhead, hb⟩
    obtain ⟨d, hd, hbyte⟩ := List.any_eq_true.mp hb
    rw [← beq_iff_eq.mp hbyte, head?_utf8_iff (hascii d hd)] at hhead
    rw [Option.some_inj.mp hhead]
    exact hd
  · intro hc
    exact ⟨c.toUInt8, (head?_utf8_iff (hascii c hc)).mpr rfl, List.any_eq_true.mpr ⟨c, hc, beq_self_eq_true _⟩⟩

/-- A base type is one byte long. -/
theorem isFieldDescriptor_of_letter {c : Char} {s : List Char} (hclass : c ≠ 'L') (hbracket : c ≠ '[') :
    ((utf8 (c :: s)).head?.any isBaseByte && (utf8 (c :: s)).length == 1) = JvmClass.isFieldDescriptor (c :: s) := by
  rw [any_isBaseByte_head, JvmClass.isFieldDescriptor]
  · cases hc : isBaseLetter c with
    | false => rfl
    | true =>
      rw [utf8_cons, utf8EncodeChar_of_ascii (ascii_of_isBaseLetter hc), Bool.eq_iff_iff]
      simp
  · exact hbracket
  · exact hclass

theorem isFieldDescriptor_of_head {s : List Char} (h : s.head? ≠ some '[') :
    isFieldDescriptor (utf8 s) = some (JvmClass.isFieldDescriptor s) := by
  refine Loop.run_of_done ?_
  cases s with
  | nil => rfl
  | cons c s =>
    have hsemicolon : (';' : Char).toNat < 0x80 := by decide
    by_cases hL : c = 'L'
    · subst hL
      have hbytes : utf8 ('L' :: s) = 'L'.toUInt8 :: utf8 s := rfl
      rw [hbytes, List.head?_cons, if_pos rfl, List.drop_one, List.tail_cons, JvmClass.isFieldDescriptor]
      by_cases hs : ';' ∈ s
      · obtain ⟨v, w, rfl, hv⟩ := List.eq_append_cons_of_mem hs
        have hsplit : utf8 (v ++ ';' :: w) = utf8 v ++ ';'.toUInt8 :: utf8 w := utf8_append v _
        have hend : ((utf8 v).length + 2 == ('L'.toUInt8 :: (utf8 v ++ ';'.toUInt8 :: utf8 w)).length) =
            (';' :: w == [';']) := by
          have hlength : utf8 w = [] ↔ (utf8 w).length = 0 := List.length_eq_zero_iff.symm
          rw [Bool.eq_iff_iff, beq_iff_eq, beq_iff_eq, List.cons.injEq, and_iff_right rfl, ← utf8_eq_nil_iff, hlength]
          simp only [List.length_cons, List.length_append]
          omega
        rw [dropWhile_bne_append w hv, hsplit, idxOf?_append_cons _ (mt (mem_utf8_iff hsemicolon).mp hv)]
        exact congrArg (fun b => some (Sum.inr b)) hend
      · rw [dropWhile_bne_of_not_mem hs, idxOf?_of_not_mem (mt (mem_utf8_iff hsemicolon).mp hs)]
        rfl
    · have hclass := mt (head?_utf8_iff (s := c :: s) (d := 'L') (by decide)).mp (by simpa using hL)
      have hbracket := mt (head?_utf8_iff (d := '[') (by decide)).mp h
      rw [if_neg hclass, if_neg hbracket, isFieldDescriptor_of_letter hL (by simpa using h)]
      rfl

section Brackets

variable {b : UInt8} {n : Nat} {bytes : List UInt8}

theorem utf8_brackets (n : Nat) (s : List Char) :
    utf8 (List.replicate n '[' ++ s) = List.replicate n '['.toUInt8 ++ utf8 s := by
  rw [utf8_append, utf8, List.flatMap_replicate]
  simp [utf8EncodeChar_of_ascii]

theorem isFieldDescriptor_of_brackets_only : isFieldDescriptor (List.replicate (n + 1) '['.toUInt8) = some false := by
  have hhead : (List.replicate (n + 1) '['.toUInt8).head? = some '['.toUInt8 := rfl
  have hstart : (List.replicate (n + 1) '['.toUInt8).findIdx? (· != '['.toUInt8) = none := by simp
  refine Loop.run_of_done ?_
  rw [hhead, if_neg (by decide), if_pos rfl, hstart]
  rfl

/-- Behind the brackets of an array the check goes on with the element. -/
theorem isFieldDescriptor_of_brackets (hb : b ≠ '['.toUInt8) :
    isFieldDescriptor (List.replicate (n + 1) '['.toUInt8 ++ b :: bytes) = isFieldDescriptor (b :: bytes) := by
  have hhead : (List.replicate (n + 1) '['.toUInt8 ++ b :: bytes).head? = some '['.toUInt8 := by
    simp [List.replicate_succ]
  have hstart : (List.replicate (n + 1) '['.toUInt8 ++ b :: bytes).findIdx? (· != '['.toUInt8) = some (n + 1) := by
    rw [List.findIdx?_append, List.findIdx?_replicate]
    simp [List.findIdx?_cons, hb]
  have hslice : slice (List.replicate (n + 1) '['.toUInt8 ++ b :: bytes) (n + 1)
      (List.replicate (n + 1) '['.toUInt8 ++ b :: bytes).length = some (b :: bytes) := by
    rw [slice_length (by simp)]
    simp
  refine Loop.run_of_next ?_
  rw [hhead, if_neg (by decide), if_pos rfl, hstart]
  simp only [hslice]
  rfl

end Brackets

/-- The check of the bytes of a text ends, takes no byte that is not there, and says what the check of its
    characters says. -/
theorem isFieldDescriptor_eq (s : List Char) : isFieldDescriptor (utf8 s) = some (JvmClass.isFieldDescriptor s) := by
  obtain ⟨n, u, rfl, hu, -, -⟩ := exists_brackets s
  cases n with
  | zero => exact isFieldDescriptor_of_head hu
  | succ n =>
    rw [isFieldDescriptor_replicate, utf8_brackets]
    cases hbytes : utf8 u with
    | nil =>
      rw [utf8_eq_nil_iff.mp hbytes, List.append_nil, isFieldDescriptor_of_brackets_only]
      rfl
    | cons b rest =>
      have hb : b ≠ '['.toUInt8 := by
        intro heq
        exact hu ((head?_utf8_iff (by decide)).mp (by rw [hbytes, heq]; rfl))
      rw [isFieldDescriptor_of_brackets hb, ← hbytes, isFieldDescriptor_of_head hu]

/-! ## Modified UTF-8 -/

open Text.ModifiedUtf8

/-- Takes the group at a position, after the code units that are there. -/
def scanGroup (bytes : List UInt8) : Loop (Nat × List UInt16) (Option (List UInt16)) := fun (i, units) =>
  if i < bytes.length then do
    let a ← bytes[i]?
    if a >>> 4 ≤ 7 ∧ a ≠ 0 then return .inl (i + 1, units ++ [a.toUInt16])
    else if a >>> 4 = 0xC ∨ a >>> 4 = 0xD then
      match bytes[i + 1]? with
      | some b =>
        if b.toUInt16 &&& 0xC0 ≠ 0x80 then return .inr none
        else return .inl (i + 2, units ++ [(a.toUInt16 &&& 0x1F) <<< 6 ||| (b.toUInt16 &&& 0x3F)])
      | none => return .inr none
    else if a >>> 4 = 0xE then
      match bytes[i + 1]?, bytes[i + 2]? with
      | some b, some c =>
        if b.toUInt16 &&& 0xC0 ≠ 0x80 ∨ c.toUInt16 &&& 0xC0 ≠ 0x80 then return .inr none
        else
          let unit := (a.toUInt16 &&& 0x0F) <<< 12 ||| (b.toUInt16 &&& 0x3F) <<< 6 ||| (c.toUInt16 &&& 0x3F)
          return .inl (i + 3, units ++ [unit])
      | _, _ => return .inr none
    else return .inr none
  else return .inr (some units)

def scanUnits (bytes : List UInt8) : Option (Option (List UInt16)) := (scanGroup bytes).run (0, [])

def decodeModifiedUtf8 (bytes : List UInt8) : Option (Option String) := do
  return (← scanUnits bytes).bind fun units => (charsOfUnits (units.map UInt16.toNat)).map String.ofList

section Groups

variable {a b c : UInt8}

theorem toNat_first_four (a : UInt8) : (a >>> 4).toNat = a.toNat >>> 4 := toNat_shiftRight (n := 4) (by decide)

theorem lead_one_iff : (a >>> 4 ≤ 7 ∧ a ≠ 0) ↔ (0 < a && a < 0x80) = true := by
  have hbits : a >>> 4 ≤ 7 ↔ a.toNat >>> 4 ≤ 7 := by
    rw [UInt8.le_iff_toNat_le, toNat_first_four]
    rfl
  have hzero : a ≠ 0 ↔ a.toNat ≠ 0 := not_congr UInt8.toNat_inj.symm
  rw [one_range_iff, hbits, hzero]
  omega

theorem lead_two_iff : (a >>> 4 = 0xC ∨ a >>> 4 = 0xD) ↔ (0xC0 ≤ a && a < 0xE0) = true := by
  have hbits (k : UInt8) : a >>> 4 = k ↔ a.toNat >>> 4 = k.toNat := shiftRight_eq_iff (n := 4) (by decide)
  rw [two_range_iff, hbits, hbits]
  show a.toNat >>> 4 = 0xC ∨ a.toNat >>> 4 = 0xD ↔ _
  omega

theorem lead_three_iff : a >>> 4 = 0xE ↔ (0xE0 ≤ a && a < 0xF0) = true := three_iff.symm

theorem not_continuation_iff : b.toUInt16 &&& 0xC0 ≠ 0x80 ↔ ¬isContinuation b = true := by
  have hbits : ∀ n < 0x100, n &&& 0xC0 = 0x80 ↔ 0x80 ≤ n ∧ n < 0xC0 := by decide +kernel
  rw [isContinuation_iff, ← hbits _ b.toNat_lt, ne_eq, ← UInt16.toNat_inj, UInt16.toNat_and, UInt8.toNat_toUInt16]
  exact Iff.rfl

/-- The last bits of a byte, as a number. -/
theorem toNat_low_bits {m : UInt16} {n : Nat} (hm : m.toNat = 2 ^ n - 1) (a : UInt8) :
    (a.toUInt16 &&& m).toNat = a.toNat % 2 ^ n := by
  rw [UInt16.toNat_and, UInt8.toNat_toUInt16, hm, Nat.and_two_pow_sub_one_eq_mod]

/-- Two fields that do not overlap. -/
theorem toNat_shiftLeft_or {x y : UInt16} {n : Nat} (hn : n < 16) (hx : x.toNat * 2 ^ n < 0x10000)
    (hy : y.toNat < 2 ^ n) : (x <<< UInt16.ofNat n ||| y).toNat = x.toNat * 2 ^ n + y.toNat := by
  have hcount : (UInt16.ofNat n).toNat % 16 = n := by
    rw [UInt16.toNat_ofNat', Nat.mod_eq_of_lt (Nat.lt_trans hn (by decide)), Nat.mod_eq_of_lt hn]
  rw [UInt16.toNat_or, UInt16.toNat_shiftLeft, hcount, Nat.shiftLeft_eq, Nat.mod_eq_of_lt hx, ← Nat.shiftLeft_eq,
    Nat.shiftLeft_add_eq_or_of_lt hy]

theorem toNat_two (a b : UInt8) :
    ((a.toUInt16 &&& 0x1F) <<< 6 ||| (b.toUInt16 &&& 0x3F)).toNat = (ByteGroup.two a b).unit := by
  have hlead : (a.toUInt16 &&& 0x1F).toNat = a.toNat % 0x20 := toNat_low_bits (n := 5) rfl a
  have hlast : (b.toUInt16 &&& 0x3F).toNat = b.toNat % 0x40 := toNat_low_bits (n := 6) rfl b
  have hunit := toNat_shiftLeft_or (n := 6) (x := a.toUInt16 &&& 0x1F) (y := b.toUInt16 &&& 0x3F)
    (by decide) (by omega) (by omega)
  rw [hlead, hlast] at hunit
  exact hunit

theorem toNat_three (a b c : UInt8) :
    ((a.toUInt16 &&& 0x0F) <<< 12 ||| (b.toUInt16 &&& 0x3F) <<< 6 ||| (c.toUInt16 &&& 0x3F)).toNat =
      (ByteGroup.three a b c).unit := by
  have hlead : (a.toUInt16 &&& 0x0F).toNat = a.toNat % 0x10 := toNat_low_bits (n := 4) rfl a
  have hmiddle : (b.toUInt16 &&& 0x3F).toNat = b.toNat % 0x40 := toNat_low_bits (n := 6) rfl b
  have hlast : (c.toUInt16 &&& 0x3F).toNat = c.toNat % 0x40 := toNat_low_bits (n := 6) rfl c
  have hrest : ((b.toUInt16 &&& 0x3F) <<< 6 ||| (c.toUInt16 &&& 0x3F)).toNat =
      (b.toUInt16 &&& 0x3F).toNat * 0x40 + (c.toUInt16 &&& 0x3F).toNat :=
    toNat_shiftLeft_or (n := 6) (by decide) (by omega) (by omega)
  have hunit := toNat_shiftLeft_or (n := 12) (x := a.toUInt16 &&& 0x0F) (by decide) (by omega)
    (show ((b.toUInt16 &&& 0x3F) <<< 6 ||| (c.toUInt16 &&& 0x3F)).toNat < 2 ^ 12 by omega)
  rw [hrest, hlead, hmiddle, hlast, ← Nat.add_assoc, ← UInt16.or_assoc] at hunit
  exact hunit

end Groups

section Scan

variable {bytes rest : List UInt8} {i : Nat} {units : List UInt16}

theorem getElem?_of_drop (h : bytes.drop i = rest) (k : Nat) : bytes[i + k]? = rest[k]? := by
  rw [← h, List.getElem?_drop]

theorem drop_of_drop (group : List UInt8) (h : bytes.drop i = group ++ rest) :
    bytes.drop (i + group.length) = rest := by
  rw [← List.drop_drop, h, List.drop_left]

/-- What the scan reads is what is left at the position. -/
theorem scanGroup_cons {a : UInt8} (h : bytes.drop i = a :: rest) : scanGroup bytes (i, units) =
    if (0 < a && a < 0x80) = true then some (.inl (i + 1, units ++ [a.toUInt16]))
    else if (0xC0 ≤ a && a < 0xE0) = true then
      match rest with
      | b :: _ =>
        if isContinuation b = true then
          some (.inl (i + 2, units ++ [(a.toUInt16 &&& 0x1F) <<< 6 ||| (b.toUInt16 &&& 0x3F)]))
        else some (.inr none)
      | [] => some (.inr none)
    else if (0xE0 ≤ a && a < 0xF0) = true then
      match rest with
      | b :: c :: _ =>
        if (isContinuation b && isContinuation c) = true then
          let unit := (a.toUInt16 &&& 0x0F) <<< 12 ||| (b.toUInt16 &&& 0x3F) <<< 6 ||| (c.toUInt16 &&& 0x3F)
          some (.inl (i + 3, units ++ [unit]))
        else some (.inr none)
      | _ => some (.inr none)
    else some (.inr none) := by
  have hlt : i < bytes.length := by
    rw [← Nat.sub_pos_iff_lt, ← List.length_drop, h]
    exact Nat.succ_pos _
  have hfirst : bytes[i]? = some a := getElem?_of_drop h 0
  have hsecond : bytes[i + 1]? = rest[0]? := getElem?_of_drop h 1
  have hthird : bytes[i + 2]? = rest[1]? := getElem?_of_drop h 2
  rw [scanGroup, if_pos hlt, hfirst, hsecond, hthird]
  simp only [lead_one_iff, lead_two_iff, lead_three_iff, not_continuation_iff, Option.bind_eq_bind, Option.bind_some]
  refine if_congr Iff.rfl rfl (if_congr Iff.rfl ?_ (if_congr Iff.rfl ?_ rfl))
  · cases rest with
    | nil => rfl
    | cons b rest => exact ite_not _ _ _
  · rcases rest with _ | ⟨b, _ | ⟨c, rest⟩⟩
    · rfl
    · rfl
    · simp only [← not_and_or, ← Bool.and_eq_true]
      exact ite_not _ _ _

/-- The units that are there, last first, after one more. -/
theorem reverse_map_concat {acc : List Nat} {u : UInt16} {n : Nat} (h : acc = (units.map UInt16.toNat).reverse)
    (hu : u.toNat = n) : n :: acc = ((units ++ [u]).map UInt16.toNat).reverse := by
  rw [List.map_append, List.reverse_append, ← h, ← hu]
  rfl

/-- The scan goes from group to group; the induction is on the groups that are still to come. -/
theorem run_scanGroup {acc : List Nat} (h : bytes.drop i = rest) (hacc : acc = (units.map UInt16.toNat).reverse) :
    ((scanGroup bytes).run (i, units)).map (Option.map (List.map UInt16.toNat)) = some (unitsInto acc rest) := by
  have hfault {i : Nat} {units : List UInt16} (h : scanGroup bytes (i, units) = some (.inr none)) :
      ((scanGroup bytes).run (i, units)).map (Option.map (List.map UInt16.toNat)) = some none := by
    rw [Loop.run_of_done h]
    rfl
  fun_induction unitsInto acc rest generalizing units i with
  | case1 acc =>
    have hstep : scanGroup bytes (i, units) = some (.inr (some units)) :=
      if_neg (Nat.not_lt.mpr (List.drop_eq_nil_iff.mp h))
    rw [Loop.run_of_done hstep, hacc, List.reverse_reverse]
    rfl
  | case2 acc a rest hone ih =>
    rw [Loop.run_of_next ((scanGroup_cons h).trans (if_pos hone))]
    exact ih (drop_of_drop [a] h) (reverse_map_concat hacc (UInt8.toNat_toUInt16 a))
  | case3 acc a hone htwo b rest hb ih =>
    rw [Loop.run_of_next ((scanGroup_cons h).trans ((if_neg hone).trans ((if_pos htwo).trans (if_pos hb))))]
    exact ih (drop_of_drop [a, b] h) (reverse_map_concat hacc ((toNat_two a b).trans (unit_two htwo hb)))
  | case4 acc a hone htwo b rest hb =>
    exact hfault ((scanGroup_cons h).trans ((if_neg hone).trans ((if_pos htwo).trans (if_neg hb))))
  | case5 acc a hone htwo => exact hfault ((scanGroup_cons h).trans ((if_neg hone).trans (if_pos htwo)))
  | case6 acc a hone htwo hthree b c rest hrest unit =>
    rename_i ih
    obtain ⟨hb, hc⟩ := Bool.and_eq_true_iff.mp hrest
    rw [Loop.run_of_next ((scanGroup_cons h).trans
      ((if_neg hone).trans ((if_neg htwo).trans ((if_pos hthree).trans (if_pos hrest)))))]
    exact ih (drop_of_drop [a, b, c] h)
      (reverse_map_concat hacc ((toNat_three a b c).trans (unit_three hthree hb hc)))
  | case7 acc a hone htwo hthree b c rest hrest =>
    exact hfault ((scanGroup_cons h).trans
      ((if_neg hone).trans ((if_neg htwo).trans ((if_pos hthree).trans (if_neg hrest)))))
  | case8 acc a rest hone htwo hthree hshort =>
    refine hfault ((scanGroup_cons h).trans ((if_neg hone).trans ((if_neg htwo).trans ((if_pos hthree).trans ?_))))
    rcases rest with _ | ⟨b, _ | ⟨c, rest⟩⟩
    · rfl
    · rfl
    · exact absurd rfl (hshort b c rest)
  | case9 acc a rest hone htwo hthree =>
    exact hfault ((scanGroup_cons h).trans ((if_neg hone).trans ((if_neg htwo).trans (if_neg hthree))))

/-- The scan ends, takes no byte that is not there, and finds the text of the bytes. -/
theorem decodeModifiedUtf8_eq (bytes : List UInt8) : decodeModifiedUtf8 bytes = some (decode bytes) := by
  have hscan : (scanUnits bytes).map (Option.map (List.map UInt16.toNat)) = some (unitsOfBytes bytes) :=
    run_scanGroup rfl rfl
  obtain ⟨units?, hunits, heq⟩ := Option.map_eq_some_iff.mp hscan
  rw [decodeModifiedUtf8, hunits, decode, ← heq]
  cases units? <;> rfl

end Scan

/-- What has been encoded is read back; it is made of groups, none of them longer than its unit needs. Bytes are
    a text if they fall into groups, with the right bits in front and no zero byte, whose units leave no
    surrogate without its partner, and then the text with these units. The scan ends on all bytes. -/
theorem decoding_undoes_encoding :
    (∀ s : String, decode (encode s) = some s ∧
      ∃ groups, Splits (encode s) groups ∧ groups.map ByteGroup.unit = s.toList.flatMap unitsOf ∧
        groups.map (·.bytes.length) = (s.toList.flatMap unitsOf).map unitSize) ∧
      ∀ bytes : List UInt8,
        ((decode bytes).isSome = true ↔ ∃ groups, Splits bytes groups ∧ IsPaired (groups.map ByteGroup.unit)) ∧
        (∀ s : String, decode bytes = some s ↔
          ∃ groups, Splits bytes groups ∧ groups.map ByteGroup.unit = s.toList.flatMap unitsOf) ∧
        decodeModifiedUtf8 bytes = some (decode bytes) := by
  constructor
  · intro s
    exact ⟨decode_encode s, exists_groups_flatMap (flatMap_unitsOf_lt s.toList)⟩
  · intro bytes
    exact ⟨isSome_decode_iff, fun s => decode_eq_some_iff, decodeModifiedUtf8_eq bytes⟩

/-- The overlong zero of `00` is read from its two bytes, and no surrogate is read alone. -/
example : decode [0xC0, 0x80] = some "\x00" ∧ decode [0xED, 0xA0, 0x80] = none := by decide

end Bytes

end Trapping

end JvmClass
