/-
  JvmClass.Proofs.File.Truncation — class files that are cut short or go on.

  A read is `Stable` if nothing but its running out of bytes depends on where they end: with more
  bytes after them it answers the same and leaves those bytes, and any other failure stays as it
  is. Reads put together from such reads are such reads, up to that of a whole file
  (`ClassFile.stable_read`). So a file that is cut anywhere is truncated, and whatever else was
  found to be wrong with the bytes is wrong with any that go on (`parse_is_exact_on_extension`).
-/

import JvmClass.Proofs.File.Layout

namespace JvmClass

/-! ## More bytes after the last -/

/-- The cursor with more bytes after the last. -/
def Cursor.append (c : Cursor) (t : List UInt8) : Cursor := ⟨c.position, c.rest ++ t⟩

theorem Cursor.Takes.append {c c' : Cursor} {bytes : List UInt8} (h : c.Takes bytes c') (t : List UInt8) :
    (c.append t).Takes bytes (c'.append t) :=
  ⟨by simp only [Cursor.append, h.rest, List.append_assoc], h.position⟩

namespace Read

variable {ε α β : Type}

/-- What the read does is the same with more bytes after the last, unless it fails with `e`. -/
structure Stable (e : ε) (read : Read ε α) : Prop where
  ok : ∀ {c a c'} t, read c = .ok a c' → read (c.append t) = .ok a (c'.append t)
  error : ∀ {c f c'} t, read c = .error f c' → f ≠ e → ∃ m, read (c.append t) = .error f m

namespace Stable

variable {e : ε} {read : Read ε α}

theorem pure (a : α) : Stable e (Pure.pure a : Read ε α) where
  ok t h := by
    obtain ⟨rfl, rfl⟩ := pure_eq_ok.mp h
    rfl
  error _ h := nomatch h

theorem throw (f : ε) : Stable e (MonadExcept.throw f : Read ε α) where
  ok _ h := nomatch h
  error t h _ := by
    cases h
    exact ⟨_, rfl⟩

theorem bind {f : α → Read ε β} (h : Stable e read) (hf : ∀ a, Stable e (f a)) : Stable e (read >>= f) where
  ok t hok := by
    obtain ⟨a, m, hread, hnext⟩ := bind_eq_ok.mp hok
    exact bind_eq_ok.mpr ⟨a, m.append t, h.ok t hread, (hf a).ok t hnext⟩
  error t herror hne := by
    rcases bind_eq_error.mp herror with hread | ⟨a, m, hread, hnext⟩
    · obtain ⟨m, hm⟩ := h.error t hread hne
      exact ⟨m, bind_eq_error.mpr (.inl hm)⟩
    · obtain ⟨m', hm⟩ := (hf a).error t hnext hne
      exact ⟨m', bind_eq_error.mpr (.inr ⟨a, m.append t, h.ok t hread, hm⟩)⟩

theorem ite {p : Prop} [Decidable p] {other : Read ε α} (h : Stable e read) (h' : Stable e other) :
    Stable e (if p then read else other) := by
  split
  · exact h
  · exact h'

/-- A read of what is written that fails only at the end of the bytes. -/
theorem of_decodes {X : Type} {value : X → α} {bytes : X → List UInt8} (h : Decodes read value bytes)
    (hfails : ∀ {c f c'}, read c = .error f c' → f = e) : Stable e read where
  ok t hok := by
    obtain ⟨x, hx, ht⟩ := h.eq_ok.mp hok
    exact h.eq_ok.mpr ⟨x, hx, ht.append t⟩
  error _ herror hne := absurd (hfails herror) hne

theorem many (h : Stable e read) (n : Nat) : Stable e (Read.many read n) := by
  have hinto (acc : List α) : Stable e (manyInto read acc n) := by
    induction n generalizing acc with
    | zero => exact pure _
    | succ n ih => exact h.bind fun a => ih (a :: acc)
  exact hinto []

end Stable

variable (e : ε)

theorem stable_byte : Stable e (byte e) := .of_decodes (byte_decodes e) fun {c f c'} h => by
  unfold byte at h
  split at h
  · cases h
  · cases h
    rfl

theorem stable_short : Stable e (short e) := .of_decodes (short_decodes e) fun {c f c'} h => by
  unfold short at h
  split at h
  · cases h
  · cases h
    rfl

theorem stable_word : Stable e (word e) := .of_decodes (word_decodes e) fun {c f c'} h => by
  unfold word at h
  split at h
  · cases h
  · cases h
    rfl

theorem stable_long : Stable e (long e) :=
  (stable_word e).bind fun _ => (stable_word e).bind fun _ => .pure _

theorem stable_exact (n : Nat) : Stable e (exact e n) where
  ok t h := by
    obtain ⟨hlength, ht⟩ := exact_eq_ok.mp h
    exact exact_eq_ok.mpr ⟨hlength, ht.append t⟩
  error t h hne := by
    unfold exact at h
    split at h
    · cases h
    · cases h
      exact absurd rfl hne

theorem Stable.counted {e : ε} {read : Read ε α} (h : Stable e read) : Stable e (Read.counted e read) :=
  (stable_short e).bind fun n => h.many n.toNat

end Read

/-! ## Parts of a class file -/

open Read

theorem Constant.stable_readText : Stable .truncated readText := by
  refine (stable_short _).bind fun length => (stable_exact _ length.toNat).bind fun bytes => ?_
  split
  · exact .pure _
  · exact .throw _

theorem Constant.stable_read : Stable .truncated Constant.read := by
  refine (stable_byte _).bind fun tag => ?_
  split
  -- One line for each shape of payload.
  any_goals exact stable_readText
  any_goals exact (stable_word _).bind fun _ => .pure _
  any_goals exact (stable_long _).bind fun _ => .pure _
  any_goals exact (stable_short _).bind fun _ => .pure _
  any_goals exact (stable_short _).bind fun _ => (stable_short _).bind fun _ => .pure _
  · exact (stable_byte _).bind fun _ => (stable_short _).bind fun _ => .pure _
  · exact .throw _

theorem stable_readSlots (acc : List (Option Constant)) (n : Nat) : Stable .truncated (readSlots acc n) := by
  fun_induction readSlots acc n with
  | case1 acc => exact .pure _
  | case2 acc =>
    exact Constant.stable_read.bind fun k => .ite ((Stable.throw _).bind fun _ => .pure _) (.pure _)
  | case3 acc n ih ih' => exact Constant.stable_read.bind fun k => .ite (ih k) (ih' k)

theorem stable_readConstants : Stable .truncated readConstants :=
  (stable_short _).bind fun count => stable_readSlots [none] (count.toNat - 1)

theorem Attribute.stable_read {ε : Type} (e : ε) : Stable e (Attribute.read e) :=
  (stable_short e).bind fun _ => (stable_word e).bind fun length => (stable_exact e length.toNat).bind fun _ => .pure _

theorem MemberInfo.stable_read : Stable .truncated MemberInfo.read :=
  (stable_short _).bind fun _ => (stable_short _).bind fun _ => (stable_short _).bind fun _ =>
    (Attribute.stable_read _).counted.bind fun _ => .pure _

namespace ClassFile

theorem stable_read : Stable .truncated ClassFile.read := by
  refine (stable_word _).bind fun magic => .ite ((Stable.throw _).bind fun _ => ?_) ?_
  -- The rest of the file is the same read in both branches.
  all_goals
    refine (stable_short _).bind fun minor => (stable_short _).bind fun major => ?_
    refine stable_readConstants.bind fun constants => (stable_short _).bind fun access => ?_
    refine (stable_short _).bind fun thisClass => (stable_short _).bind fun superClass => ?_
    refine (stable_short _).counted.bind fun interfaces => MemberInfo.stable_read.counted.bind fun fields => ?_
    refine MemberInfo.stable_read.counted.bind fun methods => ?_
    exact (Attribute.stable_read _).counted.bind fun attributes => .pure _

/-! ## Whole files -/

variable {bytes : List UInt8} (t : List UInt8)

theorem parse_append_of_read {file : ClassFile} {c : Cursor} (h : ClassFile.read (.ofBytes bytes) = .ok file c)
    (ht : t ≠ []) : parse (bytes ++ t) = .error (.trailingBytes (c.rest.length + t.length)) := by
  have hread : ClassFile.read (.ofBytes (bytes ++ t)) = .ok file (c.append t) := stable_read.ok t h
  have hlength : c.rest.length + t.length ≠ 0 := by
    have := List.length_pos_iff.mpr ht
    omega
  rw [parse_eq, hread]
  simp only [Cursor.append, List.length_append, if_pos hlength]

theorem parse_append_of_read_error {e : ReadFault} {c : Cursor} (h : ClassFile.read (.ofBytes bytes) = .error e c)
    (he : e ≠ .truncated) : parse (bytes ++ t) = .error e := by
  obtain ⟨m, hread⟩ : ∃ m, ClassFile.read (.ofBytes (bytes ++ t)) = .error e m := stable_read.error t h he
  rw [parse_eq, hread]

/-- A fault in the bytes is not mended by more of them. -/
theorem parse_append_of_error {e : ReadFault} (h : parse bytes = .error e) (htruncated : e ≠ .truncated)
    (htrailing : ∀ n, e ≠ .trailingBytes n) : parse (bytes ++ t) = .error e := by
  rw [parse_eq] at h
  cases hread : ClassFile.read (.ofBytes bytes) with
  | error f c =>
    rw [hread] at h
    cases h
    exact parse_append_of_read_error t hread htruncated
  | ok file c =>
    rw [hread] at h
    by_cases hlength : c.rest.length ≠ 0
    · cases (if_pos hlength).symm.trans h
      exact absurd rfl (htrailing _)
    · cases (if_neg hlength).symm.trans h

/-- Bytes are cut short, or those that go on are no file and not cut short either. -/
theorem truncated_or_exists_error (start : List UInt8) {t : List UInt8} (ht : t ≠ []) :
    parse start = .error .truncated ∨ ∃ e, parse (start ++ t) = .error e ∧ e ≠ .truncated := by
  cases hread : ClassFile.read (.ofBytes start) with
  | ok file c => exact .inr ⟨_, parse_append_of_read t hread ht, nofun⟩
  | error e c =>
    by_cases he : e = .truncated
    · exact .inl (by rw [parse_eq, hread, he])
    · exact .inr ⟨e, parse_append_of_read_error t hread he, he⟩

end ClassFile

/-- Where bytes end matters only to a file that is cut short and to one that goes on. -/
theorem parse_is_exact_on_extension (bytes : List UInt8) :
    (∀ file, ClassFile.parse bytes = .ok file →
      (∀ start, start <+: bytes → start ≠ bytes → ClassFile.parse start = .error .truncated) ∧
        ∀ t, t ≠ [] → ClassFile.parse (bytes ++ t) = .error (.trailingBytes t.length)) ∧
    (∀ magic, ClassFile.parse bytes = .error (.badMagic magic) →
      ∀ t, ClassFile.parse (bytes ++ t) = .error (.badMagic magic)) ∧
    (∀ what, ClassFile.parse bytes = .error (.malformed what) →
      ∀ t, ClassFile.parse (bytes ++ t) = .error (.malformed what)) ∧
    (ClassFile.parse bytes = .error .truncated →
      ∀ start, start <+: bytes → ClassFile.parse start = .error .truncated) := by
  refine ⟨fun file h => ⟨?_, fun t ht => ?_⟩, fun magic h t => ?_, fun what h t => ?_, ?_⟩
  · rintro start ⟨t, rfl⟩ hne
    have ht : t ≠ [] := fun ht => hne (by rw [ht, List.append_nil])
    rcases ClassFile.truncated_or_exists_error start ht with htruncated | ⟨e, he, -⟩
    · exact htruncated
    · cases he.symm.trans h
  · obtain ⟨c, hread, hrest⟩ := ClassFile.parse_eq_ok_iff_read.mp h
    rw [ClassFile.parse_append_of_read t hread ht, hrest, List.length_nil, Nat.zero_add]
  · exact ClassFile.parse_append_of_error t h nofun nofun
  · exact ClassFile.parse_append_of_error t h nofun nofun
  · rintro h start ⟨t, rfl⟩
    by_cases ht : t = []
    · rwa [ht, List.append_nil] at h
    · rcases ClassFile.truncated_or_exists_error start ht with htruncated | ⟨e, he, hne⟩
      · exact htruncated
      · cases he.symm.trans h
        exact absurd rfl hne

/-- A class of version 52 with nothing in it, the pool included. -/
def emptyBytes : List UInt8 :=
  [0xCA, 0xFE, 0xBA, 0xBE, 0, 0, 0, 52, 0, 1, 0, 0x21, 0, 0, 0, 0, 0, 0, 0, 0, 0, 0, 0, 0]

theorem parse_is_exact_on_extension_empty :
    ClassFile.parse (emptyBytes.take 9) = .error .truncated ∧
      ClassFile.parse (emptyBytes.take 4) = .error .truncated ∧
      ClassFile.parse (emptyBytes ++ [1]) = .error (.trailingBytes 1) ∧
      ClassFile.parse ([0, 0xFE, 0xBA, 0xBE] ++ emptyBytes) = .error (.badMagic 0x00FEBABE) ∧
      ClassFile.parse ([0xCA, 0xFE, 0xBA, 0xBE, 0, 0, 0, 52, 0, 2, 99] ++ emptyBytes) =
        .error (.malformed (.unknownConstant 99)) := by
  have hempty : ClassFile.parse emptyBytes = .ok ⟨.java8, [none], 0x21, 0, 0, [], [], [], []⟩ := rfl
  have hmagic : ClassFile.parse [0, 0xFE, 0xBA, 0xBE] = .error (.badMagic 0x00FEBABE) := rfl
  have htag : ClassFile.parse [0xCA, 0xFE, 0xBA, 0xBE, 0, 0, 0, 52, 0, 2, 99] =
      .error (.malformed (.unknownConstant 99)) := rfl
  obtain ⟨hcut, hlonger⟩ := (parse_is_exact_on_extension emptyBytes).1 _ hempty
  have hnine := hcut (emptyBytes.take 9) (List.take_prefix _ _) (by decide)
  have hfour := (parse_is_exact_on_extension (emptyBytes.take 9)).2.2.2 hnine (emptyBytes.take 4) (by decide)
  exact ⟨hnine, hfour, hlonger [1] (by decide), (parse_is_exact_on_extension _).2.1 _ hmagic _,
    (parse_is_exact_on_extension _).2.2.1 _ htag _⟩

end JvmClass
