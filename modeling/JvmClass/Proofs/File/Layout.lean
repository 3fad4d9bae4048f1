/-
  JvmClass.Proofs.File.Layout — the reader against the binary layout.

  `ClassFile.bytes` writes a class file field by field. The bytes that are read as a class file are
  those it is written as (`ClassFile.parse_eq_ok`), where only the constants leave a choice: a text
  may be spelled longer than need be, and the payload of an unsupported constant is free. So a file
  that fits comes back from its bytes, and each that is read fits and has its constants in the
  slots that the bytes say (`parse_inverts_layout`).
-/

import JvmClass.Proofs.File.Pieces

namespace JvmClass

open Text Read FileRead

/-! ## Attributes and members -/

namespace Attribute

def bytes (a : Attribute) : List UInt8 := shortBytes a.name ++ wordBytes a.info.length.toUInt32 ++ a.info

def Fits (a : Attribute) : Prop := a.info.length < 0x100000000

theorem read_inverts {ε : Type} (e : ε) : Inverts (Attribute.read e) Fits bytes := by
  refine ⟨fun {c a c'} => ?_⟩
  simp only [Attribute.read, bind_eq_ok, (short_decodes e).inverts.eq_ok, (word_decodes e).inverts.eq_ok, true_and,
    exact_eq_ok, pure_eq_ok, bytes, Cursor.takes_append]
  constructor
  · rintro ⟨name, m, hm, n, m', hm', info, _, ⟨hlength, ht⟩, rfl, rfl⟩
    obtain ⟨hlt, rfl⟩ := toNat_word_eq_iff.mp hlength.symm
    exact ⟨hlt, m', ⟨m, hm, hm'⟩, ht⟩
  · rintro ⟨hlt, m', ⟨m, hm, hm'⟩, ht⟩
    exact ⟨a.name, m, hm, _, m', hm', a.info, c', ⟨(toNat_word_eq_iff.mpr ⟨hlt, rfl⟩).symm, ht⟩, rfl, rfl⟩

end Attribute

namespace MemberInfo

def bytes (info : MemberInfo) : List UInt8 :=
  shortBytes info.access ++ shortBytes info.name ++ shortBytes info.descriptor ++
    listBytes Attribute.bytes info.attributes

def Fits (info : MemberInfo) : Prop := ListFits Attribute.Fits info.attributes

theorem read_inverts : Inverts MemberInfo.read Fits bytes := by
  refine ⟨fun {c info c'} => ?_⟩
  simp only [MemberInfo.read, bind_eq_ok, FileRead.short, (short_decodes _).inverts.eq_ok, true_and, FileRead.counted,
    ((Attribute.read_inverts _).counted _).eq_ok, pure_eq_ok, bytes, Cursor.takes_append]
  constructor
  · rintro ⟨access, m, hm, name, m', hm', descriptor, m'', hm'', attributes, _, ⟨hfits, ht⟩, rfl, rfl⟩
    exact ⟨hfits, m'', ⟨m', ⟨m, hm, hm'⟩, hm''⟩, ht⟩
  · rintro ⟨hfits, m'', ⟨m', ⟨m, hm, hm'⟩, hm''⟩, ht⟩
    exact ⟨info.access, m, hm, info.name, m', hm', info.descriptor, m'', hm'', info.attributes, c', ⟨hfits, ht⟩,
      rfl, rfl⟩

end MemberInfo

/-! ## Class files -/

namespace ClassFile

/-- What is before the pool. -/
def headBytes (file : ClassFile) : List UInt8 :=
  wordBytes fileMagic ++ shortBytes file.version.minor ++ shortBytes file.version.major

/-- What is after the pool. -/
def restBytes (file : ClassFile) : List UInt8 :=
  shortBytes file.access ++ shortBytes file.thisClass ++ shortBytes file.superClass ++
    listBytes shortBytes file.interfaces ++ listBytes MemberInfo.bytes file.fields ++
    listBytes MemberInfo.bytes file.methods ++ listBytes Attribute.bytes file.attributes

structure RestFits (file : ClassFile) : Prop where
  interfaces : ListFits (fun _ => True) file.interfaces
  fields : ListFits MemberInfo.Fits file.fields
  methods : ListFits MemberInfo.Fits file.methods
  attributes : ListFits Attribute.Fits file.attributes

/-- The bytes are the file written out, its constants in these pieces. Their count is that of the
    slots, the empty slot 0 included; a pool of that slot alone may also have the count zero. -/
structure IsWritten (file : ClassFile) (count : UInt16) (pieces : List Piece) (bytes : List UInt8) : Prop where
  constants_eq : file.constants = none :: pieces.flatMap Piece.slots
  length_slots : (pieces.flatMap Piece.slots).length = count.toNat - 1
  rest : file.RestFits
  bytes_eq : bytes = file.headBytes ++ (shortBytes count ++ pieces.flatMap Piece.bytes) ++ file.restBytes

variable {file : ClassFile}

theorem read_eq_ok {c c' : Cursor} : ClassFile.read c = .ok file c' ↔
    ∃ bytes count pieces, file.IsWritten count pieces bytes ∧ c.Takes bytes c' := by
  simp only [ClassFile.read, bind_eq_ok, FileRead.word, FileRead.short, (word_decodes _).inverts.eq_ok,
    (short_decodes _).inverts.eq_ok, ite_throw_eq_ok, readConstants_eq_ok, FileRead.counted,
    ((short_decodes _).inverts.counted _).eq_ok, (MemberInfo.read_inverts.counted _).eq_ok,
    ((Attribute.read_inverts _).counted _).eq_ok, pure_eq_ok, true_and]
  constructor
  · rintro ⟨_, _, hmagic, hvalid, minor, _, hminor, major, _, hmajor, _, _, ⟨count, pieces, hlength, rfl, hpool⟩,
      access, _, haccess, thisClass, _, hthis, superClass, _, hsuper, interfaces, _, ⟨hinterfaces, hinterfaces'⟩,
      fields, _, ⟨hfields, hfields'⟩, methods, _, ⟨hmethods, hmethods'⟩, attributes, _, ⟨hattributes, hattributes'⟩,
      rfl, rfl⟩
    obtain rfl := Decidable.not_not.mp hvalid
    have hhead := (hmagic.trans hminor).trans hmajor
    have hrest := (((((haccess.trans hthis).trans hsuper).trans hinterfaces').trans hfields').trans hmethods').trans
      hattributes'
    exact ⟨_, count, pieces, ⟨rfl, hlength, ⟨hinterfaces, hfields, hmethods, hattributes⟩, rfl⟩,
      (hhead.trans hpool).trans hrest⟩
  · rintro ⟨_, count, pieces, ⟨hconstants, hlength, hrest, rfl⟩, ht⟩
    simp only [headBytes, restBytes, Cursor.takes_append] at ht
    obtain ⟨_, ⟨_, ⟨_, ⟨_, hmagic, hminor⟩, hmajor⟩, ⟨_, hcount, hpieces⟩⟩,
      _, ⟨_, ⟨_, ⟨_, ⟨_, ⟨_, haccess, hthis⟩, hsuper⟩, hinterfaces⟩, hfields⟩, hmethods⟩, hattributes⟩ := ht
    exact ⟨_, _, hmagic, fun h => h rfl, _, _, hminor, _, _, hmajor, _, _, ⟨count, pieces, hlength, hconstants.symm,
      hcount.trans hpieces⟩, _, _, haccess, _, _, hthis, _, _, hsuper, _, _, ⟨hrest.interfaces, hinterfaces⟩,
      _, _, ⟨hrest.fields, hfields⟩, _, _, ⟨hrest.methods, hmethods⟩, _, _, ⟨hrest.attributes, hattributes⟩, rfl, rfl⟩

/-- A file is what has been read, or what went wrong, unless bytes are left over. -/
theorem parse_eq (bytes : List UInt8) : parse bytes =
    match ClassFile.read (.ofBytes bytes) with
    | .ok file c => if c.rest.length ≠ 0 then .error (.trailingBytes c.rest.length) else .ok file
    | .error e _ => .error e := by
  simp only [parse, Read.run, EStateM.run, bind_apply]
  cases ClassFile.read (.ofBytes bytes) with
  | error e c => rfl
  | ok file c =>
    simp only [show (get : FileRead Cursor) c = .ok c c from rfl]
    by_cases h : c.rest.length ≠ 0
    · rw [if_pos h, if_pos h]
      rfl
    · rw [if_neg h, if_neg h]
      rfl

theorem parse_eq_ok_iff_read {bytes : List UInt8} :
    parse bytes = .ok file ↔ ∃ c, ClassFile.read (.ofBytes bytes) = .ok file c ∧ c.rest = [] := by
  rw [parse_eq]
  cases ClassFile.read (.ofBytes bytes) with
  | error e c => exact iff_of_false (fun h => nomatch h) fun ⟨_, h, _⟩ => nomatch h
  | ok file' c =>
    by_cases hrest : c.rest = []
    · simp only [hrest, List.length_nil, ne_eq, not_true_eq_false, if_false, Except.ok.injEq, EStateM.Result.ok.injEq]
      exact ⟨fun h => ⟨c, ⟨h, rfl⟩, hrest⟩, fun ⟨_, ⟨h, _⟩, _⟩ => h⟩
    · have hlength : c.rest.length ≠ 0 := mt List.eq_nil_of_length_eq_zero hrest
      simp only [if_pos hlength]
      exact iff_of_false (fun h => nomatch h) fun ⟨c', h, h'⟩ => by
        cases h
        exact hrest h'

/-- The bytes that are read as the file are those that it is written as. -/
theorem parse_eq_ok {bytes : List UInt8} :
    parse bytes = .ok file ↔ ∃ count pieces, file.IsWritten count pieces bytes := by
  rw [parse_eq_ok_iff_read]
  constructor
  · intro ⟨c, hread, hrest⟩
    obtain ⟨bytes', count, pieces, hwritten, ht⟩ := read_eq_ok.mp hread
    obtain rfl : bytes' = bytes := by simpa [Cursor.ofBytes, hrest] using ht.rest.symm
    exact ⟨count, pieces, hwritten⟩
  · intro ⟨count, pieces, hwritten⟩
    exact ⟨⟨bytes.length, []⟩, read_eq_ok.mpr ⟨bytes, count, pieces, hwritten, (List.append_nil _).symm,
      (Nat.zero_add _).symm⟩, rfl⟩

/-! ## Files that can be written -/

/-- The file can be written: its slots are those of constants in a row after the empty slot 0, and
    every text, list and payload is as short as the number before it can say. -/
structure Fits (file : ClassFile) : Prop where
  head : file.constants.head? = some none
  aligned : IsAligned file.constants
  size : file.constants.length < 0x10000
  constants : ∀ k, some k ∈ file.constants → k.Fits
  rest : file.RestFits

/-- The file written out, with texts as short as can be and `unread i` for the payload of an
    unsupported constant in slot `i`. -/
def bytes (unread : Nat → UInt32) (file : ClassFile) : List UInt8 :=
  file.headBytes ++ (shortBytes file.constants.length.toUInt16 ++ slotBytes unread 0 file.constants) ++ file.restBytes

theorem Fits.isWritten (h : file.Fits) (unread : Nat → UInt32) :
    ∃ count pieces, file.IsWritten count pieces (file.bytes unread) := by
  obtain ⟨slots, hslots⟩ := List.head?_eq_some_iff.mp h.head
  have hsize := h.size
  obtain ⟨pieces, hpieces, hbytes⟩ := exists_pieces unread 1 not_isWide_none (hslots ▸ h.aligned)
    fun k hk => h.constants k (hslots ▸ List.mem_cons_of_mem _ hk)
  refine ⟨file.constants.length.toUInt16, pieces, by rw [hslots, hpieces], ?_, h.rest, ?_⟩
  · rw [(toNat_short_eq_iff (k := file.constants.length)).mpr ⟨hsize, rfl⟩, hpieces, hslots]
    rfl
  · rw [bytes, hbytes, hslots]
    rfl

/-- A file that has been written fits: the spelling of a text that was read may be longer than need
    be, never shorter. -/
theorem IsWritten.fits {count : UInt16} {pieces : List Piece} {bytes : List UInt8}
    (h : file.IsWritten count pieces bytes) : file.Fits where
  head := by rw [h.constants_eq, List.head?_cons]
  aligned := by
    rw [h.constants_eq]
    exact isAligned_slots not_isWide_none pieces
  size := by
    have hcount := count.toNat_lt
    rw [h.constants_eq, List.length_cons, h.length_slots]
    omega
  constants k hk := by
    rw [h.constants_eq, List.mem_cons, List.mem_flatMap] at hk
    obtain hk | ⟨piece, -, hk⟩ := hk
    · cases hk
    · rw [piece.eq_of_mem_slots hk]
      exact piece.spelled.fits
  rest := h.rest

end ClassFile

/-- A file that fits is read from its bytes. Each that is read fits, and has the constants of the
    bytes in the slots that the widths of those before give them. -/
theorem parse_inverts_layout (file : ClassFile) :
    (file.Fits → ∀ unread, ClassFile.parse (file.bytes unread) = .ok file) ∧
      ∀ bytes, ClassFile.parse bytes = .ok file → file.Fits ∧ ∃ count pieces, file.IsWritten count pieces bytes ∧
        ∀ (n : Nat) piece, pieces[n]? = some piece → file.constants[slotOf pieces n]? = some (some piece.constant) := by
  refine ⟨fun hfits unread => ClassFile.parse_eq_ok.mpr (hfits.isWritten unread), fun bytes h => ?_⟩
  obtain ⟨count, pieces, hwritten⟩ := ClassFile.parse_eq_ok.mp h
  exact ⟨hwritten.fits, count, pieces, hwritten, fun n piece hn => hwritten.constants_eq ▸ getElem?_slotOf hn⟩

/-- A class with a long before a constant that is not supported. -/
def wideFile : ClassFile where
  version := .java8
  constants := [none, some (.utf8 "Foo"), some (.cls 1), some (.literal (.long (-2))), none, some (.unsupported 17)]
  access := 0x21
  thisClass := 2
  superClass := 0
  interfaces := []
  fields := []
  methods := []
  attributes := [⟨1, [0xCA, 0xFE]⟩]

theorem parse_inverts_layout_wide :
    wideFile.Fits ∧ ClassFile.parse (wideFile.bytes fun _ => 0x00010002) = .ok wideFile ∧
      ∃ count pieces, wideFile.IsWritten count pieces (wideFile.bytes fun _ => 0x00010002) := by
  have hfits : wideFile.Fits := {
    head := rfl
    aligned := by decide
    size := by decide
    constants := by
      intro k hk
      simp only [wideFile, List.mem_cons, Option.some.injEq, reduceCtorEq, List.not_mem_nil, false_or, or_false] at hk
      rcases hk with rfl | rfl | rfl | rfl
      · show (ModifiedUtf8.encode "Foo").length < 0x10000
        decide +kernel
      · trivial
      · trivial
      · exact .inl rfl
    rest := ⟨⟨by decide, by simp [wideFile]⟩, ⟨by decide, by simp [wideFile]⟩, ⟨by decide, by simp [wideFile]⟩,
      ⟨by decide, by simp [wideFile, Attribute.Fits]⟩⟩ }
  have hparse := (parse_inverts_layout wideFile).1 hfits fun _ => 0x00010002
  obtain ⟨-, count, pieces, hwritten, -⟩ := (parse_inverts_layout wideFile).2 _ hparse
  exact ⟨hfits, hparse, count, pieces, hwritten⟩

end JvmClass
