/-
  JvmClass.Proofs.File.Pieces — the constant pool as it is written.

  A `Piece` is a constant with bytes that spell it: the bytes are read as the constant, and nothing
  else is (`Constant.read_decodes`). A pool is pieces in a row, each taking its slots
  (`readConstants_eq_ok`), so the empty slots are those after a long or double and no others
  (`isAligned_slots`); slots of which that holds are those of pieces in a row (`exists_pieces`).
-/

import JvmClass.File.Reader
import JvmClass.Proofs.Cursor
import JvmClass.Proofs.Text.ModifiedUtf8

namespace JvmClass

open Text

/-! ## Constants -/

/-- A long or double takes the slot after its own too, which stays empty. -/
def Constant.slots (k : Constant) : List (Option Constant) := if k.isWide then [some k, none] else [some k]

def Constant.width (k : Constant) : Nat := if k.isWide then 2 else 1

def MemberKind.tag : MemberKind → UInt8
  | .field => 9
  | .method => 10
  | .interfaceMethod => 11

namespace Constant

/-- The byte before the constant, which says its kind. -/
def tag : Constant → UInt8
  | utf8 _ => 1
  | literal (.int _) => 3
  | literal (.float _) => 4
  | literal (.long _) => 5
  | literal (.double _) => 6
  | cls _ => 7
  | string _ => 8
  | member kind _ _ => kind.tag
  | nameAndType _ _ => 12
  | methodHandle _ _ => 15
  | methodType _ => 16
  | invokeDynamic _ _ => 18
  | unsupported tag => tag

/-- What is written after the tag. The model keeps no payload of the unsupported constants: theirs
    is as much of `unread` as their tag asks for. -/
def payload (unread : UInt32) : Constant → List UInt8
  | utf8 text => shortBytes (ModifiedUtf8.encode text).length.toUInt16 ++ ModifiedUtf8.encode text
  | literal (.int value) => wordBytes value.toUInt32
  | literal (.float bits) => wordBytes bits
  | literal (.long value) => longBytes value.toUInt64
  | literal (.double bits) => longBytes bits
  | cls name => shortBytes name
  | string text => shortBytes text
  | member _ holder signature => shortBytes holder ++ shortBytes signature
  | nameAndType name descriptor => shortBytes name ++ shortBytes descriptor
  | methodHandle kind reference => kind :: shortBytes reference
  | methodType descriptor => shortBytes descriptor
  | invokeDynamic bootstrap signature => shortBytes bootstrap ++ shortBytes signature
  | unsupported tag => if tag = 17 then wordBytes unread else shortBytes unread.toUInt16

def bytes (unread : UInt32) (k : Constant) : List UInt8 := k.tag :: k.payload unread

def Fits : Constant → Prop
  | utf8 text => (ModifiedUtf8.encode text).length < 0x10000
  | unsupported tag => tag = 17 ∨ tag = 19 ∨ tag = 20
  | _ => True

/-- The ways to write a constant: a text has one for every payload that is read as the text, an
    unsupported constant one for every payload of its size. -/
inductive Spelled : Constant → List UInt8 → Prop
  | text {payload : List UInt8} {text : String} (length : payload.length < 0x10000)
      (decoded : ModifiedUtf8.decode payload = some text) :
      Spelled (.utf8 text) (1 :: (shortBytes payload.length.toUInt16 ++ payload))
  | plain {k : Constant} (fits : k.Fits) (unread : UInt32) : Spelled k (k.bytes unread)

theorem Spelled.fits {k : Constant} {bytes : List UInt8} (h : k.Spelled bytes) : k.Fits := by
  cases h with
  | text length decoded => exact Nat.lt_of_le_of_lt (ModifiedUtf8.length_encode_le decoded) length
  | plain fits => exact fits

open Read FileRead

variable {k : Constant} {c c' : Cursor}

theorem readText_eq_ok : readText c = .ok k c' ↔ ∃ payload text, payload.length < 0x10000 ∧
    ModifiedUtf8.decode payload = some text ∧ .utf8 text = k ∧
      c.Takes (shortBytes payload.length.toUInt16 ++ payload) c' := by
  simp only [readText, bind_eq_ok, FileRead.short, (short_decodes _).eq_ok, exact_eq_ok, Cursor.takes_append]
  constructor
  · intro ⟨n, m, ⟨_, hn, hm⟩, payload, m', ⟨hlength, ht⟩, h⟩
    subst hn
    obtain ⟨hlt, rfl⟩ := toNat_short_eq_iff.mp hlength.symm
    cases hdecode : ModifiedUtf8.decode payload with
    | none =>
      rw [hdecode] at h
      exact (throw_eq_ok.mp h).elim
    | some text =>
      rw [hdecode] at h
      obtain ⟨hk, rfl⟩ := pure_eq_ok.mp h
      exact ⟨payload, text, hlt, hdecode, hk, m, hm, ht⟩
  · intro ⟨payload, text, hlt, hdecode, hk, m, hm, ht⟩
    refine ⟨_, m, ⟨_, rfl, hm⟩, payload, c', ⟨(toNat_short_eq_iff.mpr ⟨hlt, rfl⟩).symm, ht⟩, ?_⟩
    rw [hdecode]
    exact pure_eq_ok.mpr ⟨hk, rfl⟩

/-- What is read as a constant is a way to write it: one case for each tag. -/
theorem exists_spelled_of_read (h : Constant.read c = .ok k c') : ∃ bytes, k.Spelled bytes ∧ c.Takes bytes c' := by
  obtain ⟨tag, m, htag, h⟩ := bind_eq_ok.mp h
  obtain ⟨-, hm⟩ := (byte_decodes _).inverts.eq_ok.mp htag
  have append {payload : List UInt8} (hp : m.Takes payload c') : c.Takes (tag :: payload) c' := hm.trans hp
  have plain {k : Constant} (unread : UInt32) {payload : List UInt8} (fits : k.Fits)
      (hbytes : k.bytes unread = tag :: payload) (hp : m.Takes payload c') :
      ∃ bytes, k.Spelled bytes ∧ c.Takes bytes c' :=
    ⟨_, .plain fits unread, hbytes ▸ append hp⟩
  revert h
  split <;> intro h
  · obtain ⟨payload, text, hlt, hdecode, rfl, ht⟩ := readText_eq_ok.mp h
    exact ⟨_, .text hlt hdecode, append ht⟩
  · obtain ⟨n, rfl, ht⟩ := ((word_decodes _).map fun n => literal (.int n.toInt32)).eq_ok.mp h
    exact plain 0 trivial rfl ht
  · obtain ⟨n, rfl, ht⟩ := ((word_decodes _).map fun n => literal (.float n)).eq_ok.mp h
    exact plain 0 trivial rfl ht
  · obtain ⟨n, rfl, ht⟩ := ((long_decodes _).map fun n => literal (.long n.toInt64)).eq_ok.mp h
    exact plain 0 trivial rfl ht
  · obtain ⟨n, rfl, ht⟩ := ((long_decodes _).map fun n => literal (.double n)).eq_ok.mp h
    exact plain 0 trivial rfl ht
  · obtain ⟨n, rfl, ht⟩ := ((short_decodes _).map cls).eq_ok.mp h
    exact plain 0 trivial rfl ht
  · obtain ⟨n, rfl, ht⟩ := ((short_decodes _).map string).eq_ok.mp h
    exact plain 0 trivial rfl ht
  · obtain ⟨n, rfl, ht⟩ := ((short_decodes _).map₂ (short_decodes _) (member .field)).eq_ok.mp h
    exact plain 0 trivial rfl ht
  · obtain ⟨n, rfl, ht⟩ := ((short_decodes _).map₂ (short_decodes _) (member .method)).eq_ok.mp h
    exact plain 0 trivial rfl ht
  · obtain ⟨n, rfl, ht⟩ := ((short_decodes _).map₂ (short_decodes _) (member .interfaceMethod)).eq_ok.mp h
    exact plain 0 trivial rfl ht
  · obtain ⟨n, rfl, ht⟩ := ((short_decodes _).map₂ (short_decodes _) nameAndType).eq_ok.mp h
    exact plain 0 trivial rfl ht
  · obtain ⟨n, rfl, ht⟩ := ((byte_decodes _).map₂ (short_decodes _) methodHandle).eq_ok.mp h
    exact plain 0 trivial rfl ht
  · obtain ⟨n, rfl, ht⟩ := ((short_decodes _).map methodType).eq_ok.mp h
    exact plain 0 trivial rfl ht
  · obtain ⟨n, rfl, ht⟩ := ((word_decodes _).map fun _ => unsupported 17).eq_ok.mp h
    exact plain n (.inl rfl) rfl ht
  · obtain ⟨n, rfl, ht⟩ := ((short_decodes _).map₂ (short_decodes _) invokeDynamic).eq_ok.mp h
    exact plain 0 trivial rfl ht
  · obtain ⟨n, rfl, ht⟩ := ((short_decodes _).map fun _ => unsupported 19).eq_ok.mp h
    have hbytes : (unsupported 19).bytes n.toUInt32 = 19 :: shortBytes n :=
      congrArg (fun n => 19 :: shortBytes n) (UInt16.toUInt16_toUInt32 n)
    exact plain n.toUInt32 (.inr (.inl rfl)) hbytes ht
  · obtain ⟨n, rfl, ht⟩ := ((short_decodes _).map fun _ => unsupported 20).eq_ok.mp h
    have hbytes : (unsupported 20).bytes n.toUInt32 = 20 :: shortBytes n :=
      congrArg (fun n => 20 :: shortBytes n) (UInt16.toUInt16_toUInt32 n)
    exact plain n.toUInt32 (.inr (.inr rfl)) hbytes ht
  · exact (throw_eq_ok.mp h).elim

/-- Each way to write a constant is read as the constant: one case for each kind. -/
theorem read_of_spelled {bytes : List UInt8} (hspelled : k.Spelled bytes) (h : c.Takes bytes c') :
    Constant.read c = .ok k c' := by
  rw [Constant.read, bind_eq_ok]
  have tagged {tag : UInt8} {payload : List UInt8} (h : c.Takes (tag :: payload) c') :
      ∃ m, FileRead.byte c = .ok tag m ∧ m.Takes payload c' := by
    obtain ⟨m, hm, hp⟩ := Cursor.takes_append.mp (show c.Takes ([tag] ++ payload) c' from h)
    exact ⟨m, (byte_decodes _).inverts.eq_ok.mpr ⟨trivial, hm⟩, hp⟩
  cases hspelled with
  | text hlt hdecode =>
    obtain ⟨m, hm, hp⟩ := tagged h
    exact ⟨1, m, hm, readText_eq_ok.mpr ⟨_, _, hlt, hdecode, rfl, hp⟩⟩
  | plain fits unread =>
    obtain ⟨m, hm, hp⟩ := tagged h
    refine ⟨k.tag, m, hm, ?_⟩
    cases k with
    | utf8 text => exact readText_eq_ok.mpr ⟨_, _, fits, ModifiedUtf8.decode_encode text, rfl, hp⟩
    | literal value =>
      cases value with
      | int value => exact ((word_decodes _).map fun n => literal (.int n.toInt32)).eq_ok.mpr ⟨_, rfl, hp⟩
      | float bits => exact ((word_decodes _).map fun n => literal (.float n)).eq_ok.mpr ⟨_, rfl, hp⟩
      | long value => exact ((long_decodes _).map fun n => literal (.long n.toInt64)).eq_ok.mpr ⟨_, rfl, hp⟩
      | double bits => exact ((long_decodes _).map fun n => literal (.double n)).eq_ok.mpr ⟨_, rfl, hp⟩
    | cls name => exact ((short_decodes _).map cls).eq_ok.mpr ⟨_, rfl, hp⟩
    | string text => exact ((short_decodes _).map string).eq_ok.mpr ⟨_, rfl, hp⟩
    | member kind holder signature =>
      cases kind with
      | field => exact ((short_decodes _).map₂ (short_decodes _) (member .field)).eq_ok.mpr ⟨(_, _), rfl, hp⟩
      | method => exact ((short_decodes _).map₂ (short_decodes _) (member .method)).eq_ok.mpr ⟨(_, _), rfl, hp⟩
      | interfaceMethod =>
        exact ((short_decodes _).map₂ (short_decodes _) (member .interfaceMethod)).eq_ok.mpr ⟨(_, _), rfl, hp⟩
    | nameAndType name descriptor =>
      exact ((short_decodes _).map₂ (short_decodes _) nameAndType).eq_ok.mpr ⟨(_, _), rfl, hp⟩
    | methodHandle kind reference =>
      exact ((byte_decodes _).map₂ (short_decodes _) methodHandle).eq_ok.mpr ⟨(_, _), rfl, hp⟩
    | methodType descriptor => exact ((short_decodes _).map methodType).eq_ok.mpr ⟨_, rfl, hp⟩
    | invokeDynamic bootstrap signature =>
      exact ((short_decodes _).map₂ (short_decodes _) invokeDynamic).eq_ok.mpr ⟨(_, _), rfl, hp⟩
    | unsupported tag =>
      rcases fits with rfl | rfl | rfl
      · exact ((word_decodes _).map fun _ => unsupported 17).eq_ok.mpr ⟨_, rfl, hp⟩
      · exact ((short_decodes _).map fun _ => unsupported 19).eq_ok.mpr ⟨_, rfl, hp⟩
      · exact ((short_decodes _).map fun _ => unsupported 20).eq_ok.mpr ⟨_, rfl, hp⟩

end Constant

/-! ## The pool -/

/-- A constant as it is written in a file. -/
structure Piece where
  constant : Constant
  bytes : List UInt8
  spelled : constant.Spelled bytes

namespace Piece

def slots (piece : Piece) : List (Option Constant) := piece.constant.slots

variable {piece : Piece} (pieces : List Piece)

theorem slots_cons_wide (h : piece.constant.isWide = true) :
    (piece :: pieces).flatMap slots = some piece.constant :: none :: pieces.flatMap slots := by
  rw [List.flatMap_cons, slots, Constant.slots, if_pos h]
  rfl

theorem slots_cons_narrow (h : ¬piece.constant.isWide = true) :
    (piece :: pieces).flatMap slots = some piece.constant :: pieces.flatMap slots := by
  rw [List.flatMap_cons, slots, Constant.slots, if_neg h]
  rfl

theorem eq_of_mem_slots {k : Constant} (piece : Piece) (h : some k ∈ piece.slots) : k = piece.constant := by
  unfold slots Constant.slots at h
  split at h <;> simpa using h

theorem eq_nil_of_slots_eq_nil {pieces : List Piece} (h : pieces.flatMap slots = []) : pieces = [] := by
  cases pieces with
  | nil => rfl
  | cons piece pieces =>
    by_cases hk : piece.constant.isWide = true
    · rw [slots_cons_wide pieces hk] at h
      cases h
    · rw [slots_cons_narrow pieces hk] at h
      cases h

end Piece

open Read FileRead

theorem Constant.read_decodes : Decodes Constant.read Piece.constant Piece.bytes := by
  refine ⟨fun {c k c'} => ⟨fun h => ?_, ?_⟩⟩
  · obtain ⟨bytes, hspelled, ht⟩ := exists_spelled_of_read h
    exact ⟨⟨k, bytes, hspelled⟩, rfl, ht⟩
  · rintro ⟨piece, rfl, ht⟩
    exact read_of_spelled piece.spelled ht

/-- Constants are read until they have taken all of the slots. -/
theorem readSlots_eq_ok {acc slots : List (Option Constant)} {n : Nat} {c c' : Cursor} :
    readSlots acc n c = .ok slots c' ↔ ∃ pieces : List Piece, (pieces.flatMap Piece.slots).length = n ∧
      acc.reverse ++ pieces.flatMap Piece.slots = slots ∧ c.Takes (pieces.flatMap Piece.bytes) c' := by
  fun_induction readSlots acc n generalizing c with
  | case1 acc =>
    rw [pure_eq_ok]
    constructor
    · rintro ⟨rfl, rfl⟩
      exact ⟨[], rfl, List.append_nil _, Cursor.takes_nil.mpr rfl⟩
    · intro ⟨pieces, hlength, hslots, ht⟩
      obtain rfl := Piece.eq_nil_of_slots_eq_nil (List.eq_nil_of_length_eq_zero hlength)
      exact ⟨(List.append_nil _).symm.trans hslots, Cursor.takes_nil.mp ht⟩
  | case2 acc =>
    simp only [bind_eq_ok, Constant.read_decodes.eq_ok, ite_throw_eq_ok, pure_eq_ok]
    constructor
    · rintro ⟨_, m, ⟨piece, rfl, ht⟩, hk, rfl, rfl⟩
      have hslots := Piece.slots_cons_narrow [] hk
      exact ⟨[piece], by rw [hslots]; rfl, by rw [hslots, List.reverse_cons]; rfl, by rwa [List.flatMap_singleton]⟩
    · intro ⟨pieces, hlength, hslots, ht⟩
      cases pieces with
      | nil => cases hlength
      | cons piece pieces =>
        by_cases hk : piece.constant.isWide = true
        · rw [Piece.slots_cons_wide pieces hk] at hlength
          cases hlength
        · rw [Piece.slots_cons_narrow pieces hk] at hlength hslots
          obtain rfl := Piece.eq_nil_of_slots_eq_nil (List.eq_nil_of_length_eq_zero (Nat.succ.inj hlength))
          rw [List.flatMap_singleton] at ht
          exact ⟨_, c', ⟨piece, rfl, ht⟩, hk, by rw [List.reverse_cons, ← hslots]; rfl, rfl⟩
  | case3 acc n ih ih' =>
    simp only [bind_eq_ok, Constant.read_decodes.eq_ok]
    constructor
    · rintro ⟨_, m, ⟨piece, rfl, ht⟩, h⟩
      by_cases hk : piece.constant.isWide = true
      · rw [if_pos hk] at h
        obtain ⟨pieces, hlength, hslots, ht'⟩ := (ih _).mp h
        refine ⟨piece :: pieces, ?_, ?_, ht.trans ht'⟩
        · rw [Piece.slots_cons_wide pieces hk, List.length_cons, List.length_cons, hlength]
        · rw [Piece.slots_cons_wide pieces hk, ← hslots]
          simp
      · rw [if_neg hk] at h
        obtain ⟨pieces, hlength, hslots, ht'⟩ := (ih' _).mp h
        refine ⟨piece :: pieces, ?_, ?_, ht.trans ht'⟩
        · rw [Piece.slots_cons_narrow pieces hk, List.length_cons, hlength]
        · rw [Piece.slots_cons_narrow pieces hk, ← hslots]
          simp
    · intro ⟨pieces, hlength, hslots, ht⟩
      cases pieces with
      | nil => cases hlength
      | cons piece pieces =>
        obtain ⟨m, hm, ht⟩ := Cursor.takes_append.mp ht
        refine ⟨_, m, ⟨piece, rfl, hm⟩, ?_⟩
        by_cases hk : piece.constant.isWide = true
        · rw [Piece.slots_cons_wide pieces hk] at hlength hslots
          rw [if_pos hk, ih]
          exact ⟨pieces, by simpa using hlength, by simpa using hslots, ht⟩
        · rw [Piece.slots_cons_narrow pieces hk] at hlength hslots
          rw [if_neg hk, ih']
          exact ⟨pieces, by simpa using hlength, by simpa using hslots, ht⟩

theorem readConstants_eq_ok {slots : List (Option Constant)} {c c' : Cursor} :
    readConstants c = .ok slots c' ↔ ∃ (count : UInt16) (pieces : List Piece),
      (pieces.flatMap Piece.slots).length = count.toNat - 1 ∧ none :: pieces.flatMap Piece.slots = slots ∧
        c.Takes (shortBytes count ++ pieces.flatMap Piece.bytes) c' := by
  simp only [readConstants, bind_eq_ok, FileRead.short, (short_decodes _).inverts.eq_ok, true_and, readSlots_eq_ok,
    Cursor.takes_append]
  constructor
  · intro ⟨count, m, hm, pieces, hlength, hslots, ht⟩
    exact ⟨count, pieces, hlength, hslots, m, hm, ht⟩
  · intro ⟨count, pieces, hlength, hslots, m, hm, ht⟩
    exact ⟨count, m, hm, pieces, hlength, hslots, ht⟩

/-! ## Which slots are empty -/

/-- A slot is empty just when it follows that of a long or double. -/
def IsAligned (slots : List (Option Constant)) : Prop :=
  ∀ i, (h : i < slots.length) → (slots[i + 1]? = some none ↔ slots[i].any Constant.isWide = true)

instance (slots : List (Option Constant)) : Decidable (IsAligned slots) :=
  inferInstanceAs (Decidable (∀ i, (h : i < slots.length) →
    (slots[i + 1]? = some none ↔ slots[i].any Constant.isWide = true)))

theorem not_isWide_none : ¬(none : Option Constant).any Constant.isWide = true := nofun

theorem isAligned_singleton {slot : Option Constant} : IsAligned [slot] ↔ ¬slot.any Constant.isWide = true := by
  simp [IsAligned]

theorem isAligned_cons_cons {first second : Option Constant} {slots : List (Option Constant)} :
    IsAligned (first :: second :: slots) ↔
      (second = none ↔ first.any Constant.isWide = true) ∧ IsAligned (second :: slots) := by
  constructor
  · intro h
    exact ⟨Option.some_inj.symm.trans (h 0 (Nat.zero_lt_succ _)), fun i hi => h (i + 1) (Nat.succ_lt_succ hi)⟩
  · intro ⟨hfirst, h⟩ i hi
    cases i with
    | zero => exact Option.some_inj.trans hfirst
    | succ i => exact h i (Nat.lt_of_succ_lt_succ hi)

/-- The slots of constants in a row are aligned, whatever narrow or empty slot is before them. -/
theorem isAligned_slots {first : Option Constant} (hfirst : ¬first.any Constant.isWide = true) (pieces : List Piece) :
    IsAligned (first :: pieces.flatMap Piece.slots) := by
  induction pieces generalizing first with
  | nil => exact isAligned_singleton.mpr hfirst
  | cons piece pieces ih =>
    by_cases hk : piece.constant.isWide = true
    · rw [Piece.slots_cons_wide pieces hk, isAligned_cons_cons, isAligned_cons_cons]
      exact ⟨iff_of_false nofun hfirst, iff_of_true rfl hk, ih not_isWide_none⟩
    · rw [Piece.slots_cons_narrow pieces hk, isAligned_cons_cons]
      exact ⟨iff_of_false nofun hfirst, ih hk⟩

/-- What is written for the slots, the first of them with the number `start`: nothing for those
    that are empty. -/
def slotBytes (unread : Nat → UInt32) (start : Nat) (slots : List (Option Constant)) : List UInt8 :=
  (slots.zipIdx start).flatMap fun (slot, i) =>
    match slot with
    | some k => k.bytes (unread i)
    | none => []

/-- Aligned slots are those of constants in a row. -/
theorem exists_pieces (unread : Nat → UInt32) (start : Nat) {first : Option Constant}
    {slots : List (Option Constant)} (hfirst : ¬first.any Constant.isWide = true) (h : IsAligned (first :: slots))
    (hfits : ∀ k, some k ∈ slots → k.Fits) : ∃ pieces : List Piece,
      pieces.flatMap Piece.slots = slots ∧ pieces.flatMap Piece.bytes = slotBytes unread start slots := by
  match slots with
  | [] => exact ⟨[], rfl, rfl⟩
  | none :: _ => exact absurd ((isAligned_cons_cons.mp h).1.mp rfl) hfirst
  | some k :: slots =>
    obtain ⟨-, h⟩ := isAligned_cons_cons.mp h
    let piece : Piece := ⟨k, k.bytes (unread start), .plain (hfits k (List.mem_cons_self ..)) _⟩
    by_cases hk : k.isWide = true
    · match slots with
      | [] => exact absurd hk (isAligned_singleton.mp h)
      | some _ :: _ => cases (isAligned_cons_cons.mp h).1.mpr hk
      | none :: slots =>
        obtain ⟨pieces, hslots, hbytes⟩ := exists_pieces unread (start + 2) not_isWide_none (isAligned_cons_cons.mp h).2
          fun k hk => hfits k (List.mem_cons_of_mem _ (List.mem_cons_of_mem _ hk))
        exact ⟨piece :: pieces, by rw [Piece.slots_cons_wide pieces hk, hslots], by
          rw [List.flatMap_cons, hbytes]; rfl⟩
    · obtain ⟨pieces, hslots, hbytes⟩ := exists_pieces unread (start + 1)
        (show ¬(some k).any Constant.isWide = true from hk) h fun k hk => hfits k (List.mem_cons_of_mem _ hk)
      exact ⟨piece :: pieces, by rw [Piece.slots_cons_narrow pieces hk, hslots], by
        rw [List.flatMap_cons, hbytes]; rfl⟩

/-- The slot of the `n`th constant in a row: the first is in slot 1, each other in the first slot
    that those before it have not taken. -/
def slotOf (pieces : List Piece) (n : Nat) : Nat :=
  1 + (pieces.take n).foldr (fun piece taken => piece.constant.width + taken) 0

theorem getElem?_slotOf {pieces : List Piece} {n : Nat} {piece : Piece} (h : pieces[n]? = some piece) :
    (none :: pieces.flatMap Piece.slots)[slotOf pieces n]? = some (some piece.constant) := by
  rw [slotOf, Nat.add_comm, List.getElem?_cons_succ]
  induction pieces generalizing n with
  | nil => cases h
  | cons head pieces ih =>
    cases n with
    | zero =>
      obtain rfl : head = piece := Option.some.inj h
      by_cases hk : head.constant.isWide = true
      · rw [Piece.slots_cons_wide pieces hk]
        rfl
      · rw [Piece.slots_cons_narrow pieces hk]
        rfl
    | succ n =>
      have hpiece := ih (n := n) h
      rw [List.take_succ_cons, List.foldr_cons, Nat.add_comm]
      by_cases hk : head.constant.isWide = true
      · rw [Piece.slots_cons_wide pieces hk, Constant.width, if_pos hk]
        exact hpiece
      · rw [Piece.slots_cons_narrow pieces hk, Constant.width, if_neg hk]
        exact hpiece

end JvmClass
