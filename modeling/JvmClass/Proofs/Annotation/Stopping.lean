/-
  JvmClass.Proofs.Annotation.Stopping — where reading an annotation stops.

  On its way through a tree the reader waits for a tag, for the index of a name, or for another number
  (`AnnotationPart.Awaits`). It stops there if the bytes end, if the tag is unknown, or if the name cannot be read
  (`Awaited.Breaks`), and at no other place (`ElementConstants.readAnnotation_fails_iff`). All this holds of any
  constants; those of a pool are what its slots hold (`pool_annotations_are_read_exactly`).
-/

import JvmClass.Pool.Basic
import JvmClass.Proofs.Annotation.Reading

namespace JvmClass

open Read

/-! ## On the way through a tree -/

/-- What the reader waits for. -/
inductive Awaited
  | tag
  | name
  | number

def Awaited.size : Awaited → Nat
  | tag => 1
  | name => 2
  | number => 2

/-- What the reader is in the middle of. -/
inductive AnnotationPart
  | whole
  | element
  | value

/-- The reader has taken these bytes of the part, which are read in full, and waits for more. -/
inductive AnnotationPart.Awaits (Readable : Index → Prop) : AnnotationPart → List UInt8 → Awaited → Prop
  | type : Awaits Readable .whole [] .name
  | count {type : Index} (readable : Readable type) : Awaits Readable .whole (shortBytes type) .number
  | element {type : Index} {n : UInt16} {done : List (Index × WrittenValue)} {before : List UInt8} {x : Awaited}
      (readable : Readable type) (length : done.length < n.toNat)
      (read : ∀ e ∈ done, Readable e.1 ∧ e.2.Fits Readable) (next : Awaits Readable .element before x) :
      Awaits Readable .whole
        (shortBytes type ++ (shortBytes n ++ done.flatMap WrittenValue.elementBytes ++ before)) x
  | name : Awaits Readable .element [] .name
  | named {name : Index} {before : List UInt8} {x : Awaited} (readable : Readable name)
      (next : Awaits Readable .value before x) : Awaits Readable .element (shortBytes name ++ before) x
  | tag : Awaits Readable .value [] .tag
  | leaf (tag : LeafTag) : Awaits Readable .value [tagByte tag.letter] .number
  | enumType : Awaits Readable .value [tagByte 'e'] .number
  | enumConst (type : Index) : Awaits Readable .value (tagByte 'e' :: shortBytes type) .number
  | nested {before : List UInt8} {x : Awaited} (next : Awaits Readable .whole before x) :
      Awaits Readable .value (tagByte '@' :: before) x
  | length : Awaits Readable .value [tagByte '['] .number
  | item {n : UInt16} {done : List WrittenValue} {before : List UInt8} {x : Awaited} (length : done.length < n.toNat)
      (read : ∀ v ∈ done, v.Fits Readable) (next : Awaits Readable .value before x) :
      Awaits Readable .value (tagByte '[' :: (shortBytes n ++ done.flatMap WrittenValue.bytes ++ before)) x

/-- What is waited for cannot be read from these bytes. -/
inductive Awaited.Breaks (constants : ElementConstants) : Awaited → List UInt8 → FormatFault → Prop
  | ended {x : Awaited} {after : List UInt8} (length : after.length < x.size) : Breaks constants x after .truncated
  | unknownTag {t : UInt8} {after : List UInt8} (unknown : ¬IsTag t) :
      Breaks constants .tag (t :: after) (.badElementTag t)
  | unreadableName {i : Index} {after : List UInt8} (unreadable : constants.text? i = none) :
      Breaks constants .name (shortBytes i ++ after) (.badPoolIndex i.toNat)

/-- Somewhere in the bytes, which begin like the part, what is waited for cannot be read. -/
def AnnotationPart.Breaks (constants : ElementConstants) (part : AnnotationPart) (bytes : List UInt8)
    (e : FormatFault) : Prop :=
  ∃ before after x, bytes = before ++ after ∧ part.Awaits constants.IsReadable before x ∧ x.Breaks constants after e

theorem Awaited.breaks_number_iff {constants : ElementConstants} {after : List UInt8} {e : FormatFault} :
    Awaited.Breaks constants .number after e ↔ after.length < 2 ∧ e = .truncated := by
  constructor
  · intro h
    cases h with
    | ended length => exact ⟨length, rfl⟩
  · intro ⟨hlength, he⟩
    exact he ▸ .ended hlength

namespace ElementConstants

variable (constants : ElementConstants) {depth : Nat} {c : Cursor} {e : FormatFault}

theorem readName_fails : constants.readName.Fails c e ↔ Awaited.Breaks constants .name c.rest e := by
  simp only [readName, bind_fails, short_fails, (short_decodes _).eq_ok]
  constructor
  · rintro (⟨hlength, rfl⟩ | ⟨_, m, ⟨i, rfl, ht⟩, h⟩)
    · exact .ended hlength
    · rw [ht.rest]
      cases htext : constants.text? i with
      | none =>
        rw [id_eq, htext] at h
        obtain rfl := throw_fails.mp h
        exact .unreadableName htext
      | some text =>
        rw [id_eq, htext] at h
        exact (pure_fails.mp h).elim
  · intro h
    generalize hrest : c.rest = rest at h
    cases h with
    | ended length => exact .inl ⟨length, rfl⟩
    | @unreadableName i after unreadable =>
      obtain ⟨m, ht, -⟩ := Cursor.exists_takes hrest
      refine .inr ⟨i, m, ⟨i, rfl, ht⟩, ?_⟩
      rw [unreadable]
      exact throw_fails.mpr rfl

/-! ## Whatever breaks is met -/

/-- The reader of a part. -/
def PartFails (depth : Nat) (c : Cursor) (e : FormatFault) : AnnotationPart → Prop
  | .whole => (constants.readWith (constants.readValueWithin depth)).Fails c e
  | .element => (constants.readElementWith (constants.readValueWithin depth)).Fails c e
  | .value => (constants.readValueWithin depth).Fails c e

/-- A name is read where it is. -/
theorem exists_readName {i : Index} (hi : constants.IsReadable i) {after : List UInt8}
    (hc : c.rest = shortBytes i ++ after) :
    ∃ m, constants.readName c = .ok (constants.nameAt i) m ∧ m.rest = after ∧ m.rest.length + 2 = c.rest.length := by
  obtain ⟨m, ht, hm⟩ := Cursor.exists_takes hc
  refine ⟨m, constants.readName_decodes.eq_ok.mpr ⟨⟨i, hi⟩, rfl, ht⟩, hm, ?_⟩
  rw [ht.length_rest, length_shortBytes, Nat.add_comm]

/-- Items that are read come before one that fails. -/
theorem exists_counted {X : Type} (bytes : X → List UInt8) {n : UInt16} {done : List X} {before after : List UInt8}
    (hc : c.rest = shortBytes n ++ done.flatMap bytes ++ before ++ after) :
    ∃ m, c.Takes (shortBytes n ++ done.flatMap bytes) m ∧ m.rest = before ++ after ∧
      m.rest.length ≤ c.rest.length ∧ ∀ x ∈ done, (bytes x).length ≤ c.rest.length := by
  obtain ⟨m, ht, hm⟩ := Cursor.exists_takes (hc.trans (List.append_assoc _ _ _))
  have hlength := ht.length_rest
  rw [List.length_append] at hlength
  refine ⟨m, ht, hm, by omega, fun x hx => ?_⟩
  have hone := WrittenValue.length_le_of_mem bytes hx
  omega

/-- Where a value begins, there is a level left. -/
theorem exists_tagged {t : UInt8} {rest : List UInt8} (hc : c.rest = t :: rest) (hdepth : c.rest.length ≤ depth) :
    ∃ p d, c = ⟨p, t :: rest⟩ ∧ depth = d + 1 ∧ rest.length ≤ d := by
  rw [hc, List.length_cons] at hdepth
  refine ⟨c.position, depth - 1, ?_, by omega, by omega⟩
  rw [← hc]

/-- One case for each place. -/
theorem partFails_of_awaits {part : AnnotationPart} {before : List UInt8} {x : Awaited}
    (h : part.Awaits constants.IsReadable before x) {after : List UInt8} (hc : c.rest = before ++ after)
    (hdepth : c.rest.length ≤ depth) (hbreaks : x.Breaks constants after e) : constants.PartFails depth c e part := by
  induction h generalizing depth c with
  | type =>
    rw [PartFails, readWith_eq]
    exact bind_fails.mpr (.inl (constants.readName_fails.mpr (hc ▸ hbreaks)))
  | count readable =>
    obtain ⟨m, hname, rfl, -⟩ := constants.exists_readName readable hc
    rw [PartFails, readWith_eq]
    refine bind_fails.mpr (.inr ⟨_, m, hname, bind_fails.mpr (.inl ?_)⟩)
    have hvalue := constants.readElementWith_decodes (constants.readValueWithin_decodes depth)
    exact (hvalue.counted_fails _).mpr (.inl (Awaited.breaks_number_iff.mp hbreaks))
  | @element type n done before x readable length read next ih =>
    obtain ⟨m, hname, hm, hlength⟩ := constants.exists_readName readable (hc.trans (List.append_assoc _ _ _))
    obtain ⟨m', ht, hm', hle, hdone⟩ := exists_counted WrittenValue.elementBytes hm
    rw [PartFails, readWith_eq]
    refine bind_fails.mpr (.inr ⟨_, m, hname, bind_fails.mpr (.inl ?_)⟩)
    have hvalue := constants.readElementWith_decodes (constants.readValueWithin_decodes depth)
    refine (hvalue.counted_fails _).mpr (.inr ⟨n, done, m', length, fun e he => ?_, ht, ih hm' (by omega) hbreaks⟩)
    have hone := hdone e he
    rw [WrittenValue.length_elementBytes] at hone
    exact ⟨(read e he).1, (read e he).2.within (by omega)⟩
  | name =>
    rw [PartFails, readElementWith]
    exact bind_fails.mpr (.inl (constants.readName_fails.mpr (hc ▸ hbreaks)))
  | named readable next ih =>
    obtain ⟨m, hname, hm, hlength⟩ := constants.exists_readName readable (hc.trans (List.append_assoc _ _ _))
    rw [PartFails, readElementWith]
    exact bind_fails.mpr (.inr ⟨_, m, hname, bind_fails.mpr (.inl (ih hm (by omega) hbreaks))⟩)
  | tag =>
    generalize hrest : c.rest = rest at hc
    rw [List.nil_append] at hc
    subst hc
    cases hbreaks with
    | ended length =>
      have hempty : rest = [] := List.eq_nil_of_length_eq_zero (Nat.lt_one_iff.mp length)
      cases depth with
      | zero => exact overrun_fails.mpr rfl
      | succ depth => exact bind_fails.mpr (.inl (byte_fails.mpr ⟨hrest.trans hempty, rfl⟩))
    | unknownTag unknown =>
      obtain ⟨p, depth, rfl, rfl, -⟩ := exists_tagged hrest hdepth
      exact (constants.readValueWithin_unknown unknown).mpr rfl
  | leaf tag =>
    obtain ⟨p, depth, rfl, rfl, -⟩ := exists_tagged hc hdepth
    refine (fails_congr (constants.readValueWithin_leaf tag)).mpr (bind_fails.mpr (.inl ?_))
    exact short_fails.mpr (Awaited.breaks_number_iff.mp hbreaks)
  | enumType =>
    obtain ⟨p, depth, rfl, rfl, -⟩ := exists_tagged hc hdepth
    refine (fails_congr constants.readValueWithin_enum).mpr (bind_fails.mpr (.inl ?_))
    exact short_fails.mpr (Awaited.breaks_number_iff.mp hbreaks)
  | enumConst type =>
    obtain ⟨p, depth, rfl, rfl, -⟩ := exists_tagged hc hdepth
    refine (fails_congr constants.readValueWithin_enum).mpr (bind_fails.mpr (.inr ?_))
    obtain ⟨m, ht, rfl⟩ := Cursor.exists_takes (c := ⟨p + 1, shortBytes type ++ after⟩) rfl
    refine ⟨type, m, (short_decodes _).eq_ok.mpr ⟨type, rfl, ht⟩, bind_fails.mpr (.inl ?_)⟩
    exact short_fails.mpr (Awaited.breaks_number_iff.mp hbreaks)
  | nested next ih =>
    obtain ⟨p, depth, rfl, rfl, hle⟩ := exists_tagged hc hdepth
    refine (fails_congr constants.readValueWithin_nested).mpr (bind_fails.mpr (.inl ?_))
    exact ih (c := ⟨p + 1, _⟩) rfl hle hbreaks
  | length =>
    obtain ⟨p, depth, rfl, rfl, -⟩ := exists_tagged hc hdepth
    refine (fails_congr constants.readValueWithin_array).mpr (bind_fails.mpr (.inl ?_))
    exact ((constants.readValueWithin_decodes depth).counted_fails _).mpr (.inl (Awaited.breaks_number_iff.mp hbreaks))
  | @item n done before x length read next ih =>
    obtain ⟨p, depth, rfl, rfl, hle⟩ := exists_tagged hc hdepth
    refine (fails_congr constants.readValueWithin_array).mpr (bind_fails.mpr (.inl ?_))
    obtain ⟨m, ht, hm, hless, hdone⟩ := exists_counted (c := ⟨p + 1, _⟩) WrittenValue.bytes rfl
    refine ((constants.readValueWithin_decodes depth).counted_fails _).mpr (.inr ⟨n, done, m, length,
      fun v hv => ?_, ht, ih hm (Nat.le_trans hless hle) hbreaks⟩)
    exact (read v hv).within (Nat.le_trans (hdone v hv) hle)

/-! ## Whatever fails breaks -/

variable {constants}

theorem breaks_element (hvalue : ∀ {c : Cursor} {e : FormatFault}, c.rest.length ≤ depth →
      (constants.readValueWithin depth).Fails c e → AnnotationPart.value.Breaks constants c.rest e)
    (hdepth : c.rest.length ≤ depth) (h : (constants.readElementWith (constants.readValueWithin depth)).Fails c e) :
    AnnotationPart.element.Breaks constants c.rest e := by
  simp only [readElementWith, bind_fails, pure_fails, constants.readName_decodes.eq_ok, constants.readName_fails] at h
  rcases h with hname | ⟨_, m, ⟨⟨name, hreadable⟩, -, ht⟩, hnext | ⟨_, _, -, hfalse⟩⟩
  · exact ⟨[], c.rest, .name, rfl, .name, hname⟩
  · rw [ht.length_rest] at hdepth
    obtain ⟨before, after, x, hrest, hawaits, hbreaks⟩ := hvalue (by omega) hnext
    refine ⟨_, after, x, ?_, .named hreadable hawaits, hbreaks⟩
    rw [ht.rest, hrest, List.append_assoc]
  · exact hfalse.elim

theorem breaks_annotation (hvalue : ∀ {c : Cursor} {e : FormatFault}, c.rest.length ≤ depth →
      (constants.readValueWithin depth).Fails c e → AnnotationPart.value.Breaks constants c.rest e)
    (hdepth : c.rest.length ≤ depth) (h : (constants.readWith (constants.readValueWithin depth)).Fails c e) :
    AnnotationPart.whole.Breaks constants c.rest e := by
  have helement := constants.readElementWith_decodes (constants.readValueWithin_decodes depth)
  simp only [readWith_eq, bind_fails, pure_fails, constants.readName_decodes.eq_ok, constants.readName_fails,
    helement.counted_fails] at h
  rcases h with hname | ⟨_, m, ⟨⟨type, hreadable⟩, -, ht⟩,
    (⟨hlength, he⟩ | ⟨n, done, m', hlength, hdone, ht', hnext⟩) | ⟨_, _, -, hfalse⟩⟩
  · exact ⟨[], c.rest, .name, rfl, .type, hname⟩
  · exact ⟨_, m.rest, .number, ht.rest, .count hreadable, Awaited.breaks_number_iff.mpr ⟨hlength, he⟩⟩
  · have htakes := ht.length_rest
    have htakes' := ht'.length_rest
    obtain ⟨before, after, x, hrest, hawaits, hbreaks⟩ := breaks_element hvalue (by omega) hnext
    refine ⟨_, after, x, ?_, .element hreadable hlength (fun e he => ⟨(hdone e he).1, (hdone e he).2.fits⟩) hawaits,
      hbreaks⟩
    rw [ht.rest, ht'.rest, hrest]
    simp only [List.append_assoc]
  · exact hfalse.elim

theorem breaks_value (hdepth : c.rest.length ≤ depth) (h : (constants.readValueWithin depth).Fails c e) :
    AnnotationPart.value.Breaks constants c.rest e := by
  induction depth generalizing c e with
  | zero =>
    have hrest : c.rest = [] := List.eq_nil_of_length_eq_zero (Nat.le_zero.mp hdepth)
    obtain rfl := overrun_fails.mp h
    exact ⟨[], c.rest, .tag, rfl, .tag, .ended (by rw [hrest]; exact Nat.one_pos)⟩
  | succ depth ih =>
    obtain ⟨p, r⟩ := c
    cases r with
    | nil =>
      rcases bind_fails.mp h with hbyte | ⟨_, _, hread, -⟩
      · obtain ⟨-, rfl⟩ := byte_fails.mp hbyte
        exact ⟨[], [], .tag, rfl, .tag, .ended Nat.one_pos⟩
      · cases hread
    | cons t rest =>
      have hless : rest.length ≤ depth := Nat.le_of_succ_le_succ hdepth
      by_cases htag : IsTag t
      · rcases htag with ⟨tag, rfl⟩ | rfl | rfl | rfl
        · rw [fails_congr (constants.readValueWithin_leaf tag), readLeaf] at h
          simp only [bind_fails, short_fails, pure_fails] at h
          rcases h with hlength | ⟨_, _, -, hfalse⟩
          · exact ⟨_, rest, .number, rfl, .leaf tag, Awaited.breaks_number_iff.mpr hlength⟩
          · exact hfalse.elim
        · rw [fails_congr constants.readValueWithin_enum, readEnum_eq] at h
          simp only [bind_fails, short_fails, pure_fails, (short_decodes _).eq_ok] at h
          rcases h with hlength | ⟨_, m, ⟨type, -, ht⟩, hlength | ⟨_, _, -, hfalse⟩⟩
          · exact ⟨_, rest, .number, rfl, .enumType, Awaited.breaks_number_iff.mpr hlength⟩
          · exact ⟨_, m.rest, .number, congrArg (List.cons _) ht.rest, .enumConst type,
              Awaited.breaks_number_iff.mpr hlength⟩
          · exact hfalse.elim
        · rw [fails_congr constants.readValueWithin_nested, readNestedWith] at h
          simp only [bind_fails, pure_fails] at h
          rcases h with hread | ⟨_, _, -, hfalse⟩
          · obtain ⟨before, after, x, hrest, hawaits, hbreaks⟩ := breaks_annotation ih hless hread
            exact ⟨_, after, x, congrArg (List.cons _) hrest, .nested hawaits, hbreaks⟩
          · exact hfalse.elim
        · rw [fails_congr constants.readValueWithin_array, readArrayWith] at h
          simp only [bind_fails, pure_fails, (constants.readValueWithin_decodes depth).counted_fails] at h
          rcases h with (hlength | ⟨n, done, m, hlength, hdone, ht, hnext⟩) | ⟨_, _, -, hfalse⟩
          · exact ⟨_, rest, .number, rfl, .length, Awaited.breaks_number_iff.mpr hlength⟩
          · have htakes : rest.length = _ := ht.length_rest
            obtain ⟨before, after, x, hrest, hawaits, hbreaks⟩ := ih (by omega) hnext
            refine ⟨_, after, x, ?_, .item hlength (fun v hv => (hdone v hv).fits) hawaits, hbreaks⟩
            have hsplit : rest = shortBytes n ++ done.flatMap WrittenValue.bytes ++ m.rest := ht.rest
            simp only [hsplit, hrest, List.cons_append, List.append_assoc]
          · exact hfalse.elim
      · obtain rfl := (constants.readValueWithin_unknown htag).mp h
        exact ⟨[], t :: rest, .tag, rfl, .tag, .unknownTag htag⟩

/-- Reading fails exactly where the bytes end within a tree, go on with an unknown tag, or name what cannot be
    read. -/
theorem readAnnotation_fails_iff :
    constants.readAnnotation.Fails c e ↔ AnnotationPart.whole.Breaks constants c.rest e := by
  show (constants.readWith (constants.readValueWithin c.rest.length)).Fails c e ↔ _
  constructor
  · intro h
    exact breaks_annotation breaks_value (Nat.le_refl _) h
  · intro ⟨before, after, x, hrest, hawaits, hbreaks⟩
    exact constants.partFails_of_awaits hawaits hrest (Nat.le_refl _) hbreaks

end ElementConstants

/-- Reading an annotation takes just the bytes of a tree that fits and whose names are readable, whatever
    follows, and answers the tree with the constants put in; a value that lacks a constant is replaced, and no
    other. It fails just where the bytes end within a tree, go on with an unknown tag, or name what cannot be
    read. Where it succeeds, it takes the same bytes with any constants. -/
theorem annotation_trees_are_read_exactly (constants : ElementConstants) (c : Cursor) :
    (∀ a c', constants.readAnnotation c = .ok a c' ↔ ∃ w : WrittenAnnotation,
      w.Fits constants.IsReadable ∧ w.valueIn constants = a ∧ c.Takes w.bytes c') ∧
    (∀ w : WrittenValue, w.valueIn constants = .unreadable ↔ w.Lacks constants) ∧
    (∀ e, (∃ c', constants.readAnnotation c = .error e c') ↔ ∃ before after x, c.rest = before ++ after ∧
      AnnotationPart.whole.Awaits constants.IsReadable before x ∧ x.Breaks constants after e) ∧
    ∀ (others : ElementConstants) (a b : Annotation) (c₁ c₂ : Cursor),
      constants.readAnnotation c = .ok a c₁ → others.readAnnotation c = .ok b c₂ → c₁ = c₂ :=
  ⟨fun _ _ => constants.readAnnotation_eq_ok, fun _ => WrittenValue.valueIn_eq_unreadable_iff,
    fun _ => ElementConstants.readAnnotation_fails_iff, fun _ _ _ _ _ => constants.eq_of_readAnnotation⟩

namespace Sighting

/-- An annotation with an array: a byte whose constant is an integer, and a long that has none. -/
def written : WrittenAnnotation := ⟨1, [(2, .array [.leaf .byte 3, .leaf .long 3])]⟩

def constants : ElementConstants where
  text? i := if i = 1 then some "Lp/Seen;" else if i = 2 then some "at" else none
  literal? i := if i = 3 then some (.int 300) else none

/-- All that differs is that the long has its constant, and the byte none. -/
def others : ElementConstants := { constants with literal? := fun i => if i = 3 then some (.long 300) else none }

theorem fits (constants : ElementConstants) (h : ∀ i, i = 1 ∨ i = 2 → constants.IsReadable i) :
    written.Fits constants.IsReadable := by
  refine ⟨h 1 (.inl rfl), by decide, List.forall_mem_singleton.mpr ⟨h 2 (.inr rfl), .array (by decide) ?_⟩⟩
  exact List.forall_mem_cons.mpr ⟨.leaf _ _, List.forall_mem_singleton.mpr (.leaf _ _)⟩

end Sighting

open Sighting in
/-- A byte follows the annotation; without it and the byte before it, the last index ends too early. -/
theorem annotation_trees_are_read_exactly_sighting :
    constants.readAnnotation ⟨0, written.bytes ++ [7]⟩ =
      .ok ⟨"Lp/Seen;", [("at", .array [.byte 44, .unreadable])]⟩ ⟨written.bytes.length, [7]⟩ ∧
    others.readAnnotation ⟨0, written.bytes ++ [7]⟩ =
      .ok ⟨"Lp/Seen;", [("at", .array [.unreadable, .long 300])]⟩ ⟨written.bytes.length, [7]⟩ ∧
    ∃ c', constants.readAnnotation ⟨0, written.bytes.dropLast⟩ = .error .truncated c' := by
  have htexts (i : Index) (hi : i = 1 ∨ i = 2) : constants.IsReadable i := by
    rcases hi with rfl | rfl <;> rfl
  have htakes : (⟨0, written.bytes ++ [7]⟩ : Cursor).Takes written.bytes ⟨written.bytes.length, [7]⟩ :=
    ⟨rfl, (Nat.zero_add _).symm⟩
  obtain ⟨hread, -, -, -⟩ := annotation_trees_are_read_exactly constants ⟨0, written.bytes ++ [7]⟩
  obtain ⟨hothers, -, -, -⟩ := annotation_trees_are_read_exactly others ⟨0, written.bytes ++ [7]⟩
  obtain ⟨-, -, hfails, -⟩ := annotation_trees_are_read_exactly constants ⟨0, written.bytes.dropLast⟩
  have hnone : ([] : List (Index × WrittenValue)).length < (1 : UInt16).toNat := by decide
  have hone : [WrittenValue.leaf .byte 3].length < (2 : UInt16).toNat := by decide
  have hawaits : AnnotationPart.whole.Awaits constants.IsReadable _ .number :=
    .element (htexts 1 (.inl rfl)) hnone (List.forall_mem_nil _) (.named (htexts 2 (.inr rfl))
      (.item hone (List.forall_mem_singleton.mpr (.leaf _ _)) (.leaf .long)))
  exact ⟨(hread _ _).mpr ⟨written, fits constants htexts, rfl, htakes⟩,
    (hothers _ _).mpr ⟨written, fits others htexts, rfl, htakes⟩,
    (hfails _).mpr ⟨_, [0], .number, rfl, hawaits, .ended (by decide)⟩⟩

/-! ## The constants of a pool -/

variable {T F M : Type}

/-- The value that the constant is for the tag; integers are narrowed. -/
def Entry.leaf? : Entry T F M → LeafTag → Option ElementValue
  | .literal (.int value), .boolean => some (.boolean (value != 0))
  | .literal (.int value), .byte => some (.byte value.toInt8)
  | .literal (.int value), .char => some (.char value.toUInt32.toUInt16)
  | .literal (.int value), .short => some (.short value.toInt16)
  | .literal (.int value), .int => some (.int value)
  | .literal (.float bits), .float => some (.float bits)
  | .literal (.long value), .long => some (.long value)
  | .literal (.double bits), .double => some (.double bits)
  | .text value _, .string => some (.string value)
  | .text value _, .cls => some (.cls value)
  | _, _ => none

theorem ElementConstants.valueIn_enum_eq_iff {constants : ElementConstants} {i j : Index} {type const : String} :
    (WrittenValue.enum i j).valueIn constants = .enum type const ↔
      constants.text? i = some type ∧ constants.text? j = some const := by
  rw [WrittenValue.valueIn, enum?]
  cases constants.text? i with
  | none => simp
  | some t => cases constants.text? j <;> simp

namespace Pool

variable (p : Pool T F M)

def IsText (i : Index) : Prop := ∃ text exposed, p.entry i = .text text exposed

theorem text?_eq_some_iff {i : Index} {text : String} :
    p.text? i = some text ↔ ∃ exposed, p.entry i = .text text exposed := by
  unfold text?
  cases p.entry i <;> simp

theorem isReadable_elementConstants : p.elementConstants.IsReadable = p.IsText := by
  funext i
  refine propext (Option.isSome_iff_exists.trans (exists_congr fun text => ?_))
  exact p.text?_eq_some_iff

theorem leaf?_elementConstants (i : Index) (tag : LeafTag) :
    p.elementConstants.leaf? i tag = (p.entry i).leaf? tag := by
  have hliteral : p.elementConstants.literal? i = p.literal? i := rfl
  have htext : p.elementConstants.text? i = p.text? i := rfl
  cases hentry : p.entry i with
  | literal value =>
    cases value <;> cases tag <;> simp [ElementConstants.leaf?, ElementConstants.int?, ElementConstants.float?,
      ElementConstants.long?, ElementConstants.double?, hliteral, htext, literal?, text?, hentry, Entry.leaf?]
  | _ =>
    cases tag <;> simp [ElementConstants.leaf?, ElementConstants.int?, ElementConstants.float?, ElementConstants.long?,
      ElementConstants.double?, hliteral, htext, literal?, text?, hentry, Entry.leaf?]

end Pool

/-- With the constants of a pool, the names have to be texts of the pool; a leaf is the constant at its slot, as
    far as it is one for the tag, and an enum constant two texts, as far as there are two. -/
theorem pool_annotations_are_read_exactly (p : Pool T F M) (c : Cursor) :
    (∀ a c', p.elementConstants.readAnnotation c = .ok a c' ↔ ∃ w : WrittenAnnotation,
      w.Fits p.IsText ∧ w.valueIn p.elementConstants = a ∧ c.Takes w.bytes c') ∧
    (∀ tag i, (WrittenValue.leaf tag i).valueIn p.elementConstants = ((p.entry i).leaf? tag).getD .unreadable) ∧
    (∀ i j type const, (WrittenValue.enum i j).valueIn p.elementConstants = .enum type const ↔
      (∃ exposed, p.entry i = .text type exposed) ∧ ∃ exposed, p.entry j = .text const exposed) ∧
    (∀ i j, (WrittenValue.enum i j).valueIn p.elementConstants = .unreadable ↔ ¬(p.IsText i ∧ p.IsText j)) ∧
    ∀ e, (∃ c', p.elementConstants.readAnnotation c = .error e c') ↔ ∃ before after x, c.rest = before ++ after ∧
      AnnotationPart.whole.Awaits p.IsText before x ∧ x.Breaks p.elementConstants after e := by
  rw [← p.isReadable_elementConstants]
  refine ⟨fun _ _ => p.elementConstants.readAnnotation_eq_ok, fun tag i => ?_, fun i j type const => ?_, fun i j => ?_,
    fun _ => ElementConstants.readAnnotation_fails_iff⟩
  · rw [WrittenValue.valueIn, p.leaf?_elementConstants]
  · rw [← p.text?_eq_some_iff, ← p.text?_eq_some_iff]
    exact ElementConstants.valueIn_enum_eq_iff
  · rw [WrittenValue.valueIn_eq_unreadable_iff, WrittenValue.Lacks, ElementConstants.IsReadable,
      ElementConstants.IsReadable, not_and_or, Option.not_isSome_iff_eq_none, Option.not_isSome_iff_eq_none]

end JvmClass
