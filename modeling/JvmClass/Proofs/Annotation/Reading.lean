/-
  JvmClass.Proofs.Annotation.Reading — which annotations are read, and where reading them fails.

  What is read is a written tree (`ElementConstants.readAnnotation_eq_ok`), and which bytes that takes does
  not depend on the constants. The reader counts down from the number of bytes that are left, which bounds
  the depth of every tree among them, so it never runs out of depth before it runs out of bytes. -/

import JvmClass.Proofs.Annotation.Written
import JvmClass.Proofs.Text.ModifiedUtf8

namespace JvmClass

open Read

namespace ElementConstants

variable (constants : ElementConstants) {depth : Nat} {p : Nat} {rest : List UInt8}

/-! ## One value, by its tag -/

/-- A name and a value. -/
def readElementWith (value : Read FormatFault ElementValue) : Read FormatFault (String × ElementValue) := do
  let name ← constants.readName
  let v ← value
  return (name, v)

def readLeaf (tag : LeafTag) : Read FormatFault ElementValue := do
  let index ← Read.short .truncated
  return (constants.leaf? index tag).getD .unreadable

def readNestedWith (value : Read FormatFault ElementValue) : Read FormatFault ElementValue := do
  let a ← constants.readWith value
  return .nested a.type a.elements

def readArrayWith (value : Read FormatFault ElementValue) : Read FormatFault ElementValue := do
  return .array (← Read.counted .truncated value)

theorem readLiteral_eq {tag : LeafTag} {letter : Char}
    (h : ∀ i, (constants.literal? i).bind (ofLiteral? letter) = constants.leaf? i tag) :
    constants.readLiteral letter = constants.readLeaf tag := by
  unfold readLiteral readLeaf
  simp only [h]

theorem readValueWithin_leaf (tag : LeafTag) :
    constants.readValueWithin (depth + 1) ⟨p, tagByte tag.letter :: rest⟩ = constants.readLeaf tag ⟨p + 1, rest⟩ := by
  cases tag with
  | string => rfl
  | cls => rfl
  | _ =>
    refine congrFun (constants.readLiteral_eq fun i => ?_) _
    cases hi : constants.literal? i with
    | none => simp only [leaf?, int?, float?, long?, double?, hi]; rfl
    | some literal => cases literal <;> simp only [leaf?, int?, float?, long?, double?, hi] <;> rfl

theorem readValueWithin_enum :
    constants.readValueWithin (depth + 1) ⟨p, tagByte 'e' :: rest⟩ = constants.readEnum ⟨p + 1, rest⟩ := rfl

theorem readValueWithin_nested : constants.readValueWithin (depth + 1) ⟨p, tagByte '@' :: rest⟩ =
    constants.readNestedWith (constants.readValueWithin depth) ⟨p + 1, rest⟩ := rfl

theorem readValueWithin_array : constants.readValueWithin (depth + 1) ⟨p, tagByte '[' :: rest⟩ =
    readArrayWith (constants.readValueWithin depth) ⟨p + 1, rest⟩ := rfl

theorem eq_tagByte {t : UInt8} {letter : Char} (h : Char.ofNat t.toNat = letter) : t = tagByte letter := by
  have hvalid : t.toNat.isValidChar := .inl (Nat.lt_of_lt_of_le t.toNat_lt (by decide))
  rw [tagByte, ← h, Text.ModifiedUtf8.toNat_ofNat hvalid]
  exact UInt8.toNat_inj.mp (by simp)

/-- The first letter that no case takes is refused. -/
theorem readValueWithin_unknown {t : UInt8} (h : ¬IsTag t) {e : FormatFault} :
    (constants.readValueWithin (depth + 1)).Fails ⟨p, t :: rest⟩ e ↔ e = .badElementTag t := by
  have hletter (letter : Char) (htag : IsTag (tagByte letter)) : Char.ofNat t.toNat ≠ letter :=
    fun heq => h (eq_tagByte heq ▸ htag)
  have hleaf (tag : LeafTag) : Char.ofNat t.toNat ≠ tag.letter := hletter tag.letter (.inl ⟨tag, rfl⟩)
  have hothers : Char.ofNat t.toNat ∉ ['B', 'C', 'S', 'Z', 'I', 'J', 'F', 'D'] := by
    intro hmem
    simp only [List.mem_cons, List.not_mem_nil, or_false] at hmem
    rcases hmem with heq | heq | heq | heq | heq | heq | heq | heq
    · exact hleaf .byte heq
    · exact hleaf .char heq
    · exact hleaf .short heq
    · exact hleaf .boolean heq
    · exact hleaf .int heq
    · exact hleaf .long heq
    · exact hleaf .float heq
    · exact hleaf .double heq
  have hread : constants.readValueWithin (depth + 1) ⟨p, t :: rest⟩ =
      (throw (.badElementTag t) : Read FormatFault ElementValue) ⟨p + 1, rest⟩ := by
    rw [readValueWithin, bind_apply]
    simp only [Read.byte]
    apply congrFun
    split
    · exact absurd ‹_› (hleaf .string)
    · exact absurd ‹_› (hleaf .cls)
    · exact absurd ‹_› (hletter 'e' (.inr (.inl rfl)))
    · exact absurd ‹_› (hletter '@' (.inr (.inr (.inl rfl))))
    · exact absurd ‹_› (hletter '[' (.inr (.inr (.inr rfl))))
    · rw [if_neg hothers]
  show (∃ c', _) ↔ _
  rw [hread]
  exact throw_fails

theorem readWith_eq (value : Read FormatFault ElementValue) : constants.readWith value = (do
    let type ← constants.readName
    let elements ← Read.counted .truncated (constants.readElementWith value)
    return ⟨type, elements⟩) := rfl

/-! ## What is read -/

theorem readName_decodes : Decodes constants.readName
    (fun i : { i // constants.IsReadable i } => constants.nameAt i.val) fun i => shortBytes i.val := by
  refine ⟨fun {c name c'} => ?_⟩
  simp only [readName, bind_eq_ok, (short_decodes _).eq_ok]
  constructor
  · intro ⟨_, m, ⟨i, hi, ht⟩, h⟩
    subst hi
    cases htext : constants.text? i with
    | none =>
      rw [id_eq, htext] at h
      exact (throw_eq_ok.mp h).elim
    | some text =>
      rw [id_eq, htext] at h
      obtain ⟨rfl, rfl⟩ := pure_eq_ok.mp h
      refine ⟨⟨i, ?_⟩, ?_, ht⟩
      · rw [IsReadable, htext, Option.isSome_some]
      · rw [nameAt, htext, Option.getD_some]
  · intro ⟨⟨i, hi⟩, hname, ht⟩
    obtain ⟨text, htext⟩ := Option.isSome_iff_exists.mp hi
    refine ⟨_, c', ⟨i, rfl, ht⟩, ?_⟩
    rw [nameAt, htext, Option.getD_some] at hname
    rw [id_eq, htext]
    exact pure_eq_ok.mpr ⟨hname, rfl⟩

section

variable {value : Read FormatFault ElementValue} {P : WrittenValue → Prop}
  (hvalue : Decodes value (fun w : { w // P w } => w.val.valueIn constants) fun w => w.val.bytes)
include hvalue

theorem readElementWith_decodes : Decodes (constants.readElementWith value)
    (fun e : { e : Index × WrittenValue // constants.IsReadable e.1 ∧ P e.2 } => WrittenValue.elementIn constants e.val)
    fun e => WrittenValue.elementBytes e.val :=
  (constants.readName_decodes.map₂ hvalue Prod.mk).comap
    (fun e : { e : Index × WrittenValue // constants.IsReadable e.1 ∧ P e.2 } =>
      (⟨e.val.1, e.property.1⟩, ⟨e.val.2, e.property.2⟩))
    fun (name, w) => ⟨⟨(name.val, w.val), name.property, w.property⟩, rfl⟩

theorem readWith_eq_ok {c c' : Cursor} {a : Annotation} : constants.readWith value c = .ok a c' ↔
    ∃ w : WrittenAnnotation, w.Consists constants.IsReadable P ∧ w.valueIn constants = a ∧ c.Takes w.bytes c' := by
  simp only [readWith_eq, bind_eq_ok, pure_eq_ok, constants.readName_decodes.eq_ok,
    (constants.readElementWith_decodes hvalue).counted_checked]
  constructor
  · intro ⟨_, m, ⟨type, htype, ht⟩, _, _, ⟨elements, hfits, hvalues, ht'⟩, ha, hm⟩
    subst htype hvalues ha hm
    exact ⟨⟨type.val, elements⟩, ⟨type.property, hfits⟩, rfl, ht.trans ht'⟩
  · intro ⟨w, ⟨htype, hfits⟩, ha, ht⟩
    obtain ⟨m, ht, ht'⟩ := Cursor.takes_append.mp ht
    exact ⟨_, m, ⟨⟨w.type, htype⟩, rfl, ht⟩, _, c', ⟨w.elements, hfits, rfl, ht'⟩, ha, rfl⟩

end

theorem readEnum_eq : constants.readEnum = (do
    let type ← Read.short .truncated
    let const ← Read.short .truncated
    return (constants.enum? type const).getD .unreadable) := by
  unfold readEnum
  refine congrArg _ (funext fun type => congrArg _ (funext fun const => ?_))
  cases htype : constants.text? type <;> cases hconst : constants.text? const <;>
    simp only [enum?, htype, hconst] <;> rfl

theorem readEnum_decodes :
    Decodes constants.readEnum (fun i : Index × Index => (constants.enum? i.1 i.2).getD .unreadable)
      fun i => shortBytes i.1 ++ shortBytes i.2 := by
  rw [readEnum_eq]
  exact (short_decodes _).map₂ (short_decodes _) fun type const => (constants.enum? type const).getD .unreadable

theorem readLeaf_decodes (tag : LeafTag) :
    Decodes (constants.readLeaf tag) (fun i : Index => (constants.leaf? i tag).getD .unreadable) shortBytes :=
  (short_decodes _).map fun i => (constants.leaf? i tag).getD .unreadable

/-- Values that fit so many levels are read as what stands for them. -/
def DecodesWithin (depth : Nat) : Prop :=
  Decodes (constants.readValueWithin depth)
    (fun w : { w : WrittenValue // w.FitsWithin constants.IsReadable depth } => w.val.valueIn constants)
    fun w => w.val.bytes

variable {constants}

/-- What is read with one more level has been written: one case for each kind of tag. -/
theorem DecodesWithin.exists_written (h : constants.DecodesWithin depth) {p : Nat} {r : List UInt8} {v : ElementValue}
    {c' : Cursor} (hread : constants.readValueWithin (depth + 1) ⟨p, r⟩ = .ok v c') :
    ∃ w : WrittenValue, w.FitsWithin constants.IsReadable (depth + 1) ∧ w.valueIn constants = v ∧
      (⟨p, r⟩ : Cursor).Takes w.bytes c' := by
  cases r with
  | nil => cases hread
  | cons t rest =>
    by_cases htag : IsTag t
    · rcases htag with ⟨tag, rfl⟩ | rfl | rfl | rfl
      · rw [readValueWithin_leaf] at hread
        obtain ⟨i, rfl, ht⟩ := (constants.readLeaf_decodes tag).eq_ok.mp hread
        exact ⟨.leaf tag i, trivial, rfl, Cursor.takes_cons.mpr ht⟩
      · rw [readValueWithin_enum] at hread
        obtain ⟨i, rfl, ht⟩ := constants.readEnum_decodes.eq_ok.mp hread
        exact ⟨.enum i.1 i.2, trivial, rfl, Cursor.takes_cons.mpr ht⟩
      · rw [readValueWithin_nested] at hread
        obtain ⟨_, _, hread, hv⟩ := bind_eq_ok.mp hread
        obtain ⟨a, ha, rfl, ht⟩ := (constants.readWith_eq_ok h).mp hread
        obtain ⟨rfl, rfl⟩ := pure_eq_ok.mp hv
        refine ⟨.nested a.type a.elements, ha, WrittenValue.valueIn_nested _ _ _, ?_⟩
        exact WrittenValue.bytes_nested a.type a.elements ▸ Cursor.takes_cons.mpr ht
      · rw [readValueWithin_array] at hread
        obtain ⟨_, _, hread, hv⟩ := bind_eq_ok.mp hread
        obtain ⟨ws, hws, rfl, ht⟩ := (h.counted_checked _).mp hread
        obtain ⟨rfl, rfl⟩ := pure_eq_ok.mp hv
        refine ⟨.array ws, hws, WrittenValue.valueIn_array _ _, ?_⟩
        exact WrittenValue.bytes_array ws ▸ Cursor.takes_cons.mpr ht
    · obtain ⟨_, herror⟩ : (constants.readValueWithin (depth + 1)).Fails ⟨p, t :: rest⟩ (.badElementTag t) :=
        (constants.readValueWithin_unknown htag).mpr rfl
      cases hread.symm.trans herror

/-- What has been written is read with one more level: one case for each kind of value. -/
theorem DecodesWithin.read_written (h : constants.DecodesWithin depth) {p : Nat} {r : List UInt8} {c' : Cursor}
    {w : WrittenValue} (hw : w.FitsWithin constants.IsReadable (depth + 1))
    (ht : (⟨p, r⟩ : Cursor).Takes w.bytes c') :
    constants.readValueWithin (depth + 1) ⟨p, r⟩ = .ok (w.valueIn constants) c' := by
  cases w with
  | leaf tag i =>
    obtain rfl : r = tagByte tag.letter :: (shortBytes i ++ c'.rest) := ht.rest
    rw [readValueWithin_leaf]
    exact (constants.readLeaf_decodes tag).eq_ok.mpr ⟨i, rfl, Cursor.takes_cons.mp ht⟩
  | enum type const =>
    obtain rfl : r = tagByte 'e' :: (shortBytes type ++ shortBytes const ++ c'.rest) := ht.rest
    rw [readValueWithin_enum]
    exact constants.readEnum_decodes.eq_ok.mpr ⟨(type, const), rfl, Cursor.takes_cons.mp ht⟩
  | nested type elements =>
    simp only [WrittenValue.bytes_nested] at ht
    obtain rfl : r = tagByte '@' :: ((⟨type, elements⟩ : WrittenAnnotation).bytes ++ c'.rest) := ht.rest
    rw [readValueWithin_nested, WrittenValue.valueIn_nested]
    have hread := (constants.readWith_eq_ok h).mpr ⟨⟨type, elements⟩, hw, rfl, Cursor.takes_cons.mp ht⟩
    exact bind_eq_ok.mpr ⟨_, _, hread, rfl⟩
  | array values =>
    simp only [WrittenValue.bytes_array] at ht
    obtain rfl : r = tagByte '[' :: (listBytes WrittenValue.bytes values ++ c'.rest) := ht.rest
    rw [readValueWithin_array, WrittenValue.valueIn_array]
    have hread := (h.counted_checked .truncated).mpr ⟨values, hw, rfl, Cursor.takes_cons.mp ht⟩
    exact bind_eq_ok.mpr ⟨_, _, hread, rfl⟩

variable (constants)

theorem readValueWithin_decodes (depth : Nat) : constants.DecodesWithin depth := by
  induction depth with
  | zero => exact ⟨iff_of_false (fun h => nomatch h) fun ⟨w, _⟩ => w.property⟩
  | succ depth ih =>
    refine ⟨fun {c v c'} => ⟨fun h => ?_, fun ⟨⟨w, hw⟩, hv, ht⟩ => ?_⟩⟩
    · obtain ⟨w, hw, hv, ht⟩ := ih.exists_written h
      exact ⟨⟨w, hw⟩, hv, ht⟩
    · rw [← hv]
      exact ih.read_written hw ht

/-- What is read is a tree that fits, and its bytes are taken. -/
theorem readAnnotation_eq_ok {c c' : Cursor} {a : Annotation} : constants.readAnnotation c = .ok a c' ↔
    ∃ w : WrittenAnnotation, w.Fits constants.IsReadable ∧ w.valueIn constants = a ∧ c.Takes w.bytes c' := by
  show constants.readWith (constants.readValueWithin c.rest.length) c = _ ↔ _
  rw [constants.readWith_eq_ok (constants.readValueWithin_decodes c.rest.length)]
  refine exists_congr fun w => and_congr_left fun ⟨_, ht⟩ => ?_
  constructor
  · intro h
    exact h.mono (fun _ => id) fun _ _ => WrittenValue.FitsWithin.fits
  · intro h
    refine h.within ?_
    rw [ht.length_rest]
    exact Nat.le_add_right _ _

/-- Constants with which every name can be read, and no value. -/
def lenient : ElementConstants := ⟨fun _ => some "", fun _ => none⟩

theorem fits_lenient {w : WrittenAnnotation} {Readable : Index → Prop} (h : w.Fits Readable) :
    w.Fits lenient.IsReadable :=
  h.mono (fun _ _ => rfl) fun _ _ hvalue => hvalue.mono fun _ _ => rfl

/-- The bytes that are taken do not depend on the constants. -/
theorem eq_of_readAnnotation {others : ElementConstants} {c c₁ c₂ : Cursor} {a b : Annotation}
    (h₁ : constants.readAnnotation c = .ok a c₁) (h₂ : others.readAnnotation c = .ok b c₂) : c₁ = c₂ := by
  obtain ⟨w₁, hw₁, -, ht₁⟩ := constants.readAnnotation_eq_ok.mp h₁
  obtain ⟨w₂, hw₂, -, ht₂⟩ := others.readAnnotation_eq_ok.mp h₂
  have hread₁ := lenient.readAnnotation_eq_ok.mpr ⟨w₁, fits_lenient hw₁, rfl, ht₁⟩
  have hread₂ := lenient.readAnnotation_eq_ok.mpr ⟨w₂, fits_lenient hw₂, rfl, ht₂⟩
  exact (EStateM.Result.ok.inj (hread₁.symm.trans hread₂)).2

end ElementConstants

end JvmClass
