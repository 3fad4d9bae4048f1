/-
  JvmClass.Proofs.Descriptor.ClassName — class names before version 49.

  A class name is a sequence of identifiers with `/` between them (`IsQualifiedName`), or an array type
  whose class has such a name. The scan of a name goes from character to character and knows only the one
  before: it sees that every character is one of an identifier or a separator, and that no separator
  follows another (`isClassNameTail_strict_iff`). It does not look at segments, so it does not see with
  what a segment begins, or that the first or the last one is empty. Where each segment begins as an
  identifier does, that makes no difference (`isQualifiedName_iff`).
-/

import JvmClass.Name
import JvmClass.Proofs.Descriptor.Spelling
import Mathlib.Data.List.Chain

namespace JvmClass

/-! ## Characters -/

theorem isIdentifierPart_of_start {c : Char} (h : isIdentifierStart c = true) : isIdentifierPart c = true := by
  simp only [isIdentifierStart, isIdentifierPart, Text.isLetterOrNumber, Bool.or_eq_true] at h ⊢
  exact h.imp_left (Or.imp_left Or.inl)

/-- Below U+0080 the tables of letters and numbers are not asked. -/
theorem isIdentifierPart_of_ascii {c : Char} (h : c.toNat < 0x80) :
    isIdentifierPart c = (c.isAlpha || c.isDigit || c == '$' || c == '_') := by
  simp only [isIdentifierPart, Text.isLetterOrNumber, Text.isLetter, Text.isNumber, if_pos h]

/-- None of the characters that a name may not hold is a letter, a number, `$` or `_`. -/
theorem isIdentifierPart_reserved {c : Char} (hc : c ∈ methodReserved) : isIdentifierPart c = false := by
  have hall : methodReserved.all fun c => c.toNat < 0x80 && !(c.isAlpha || c.isDigit || c == '$' || c == '_') := by
    decide
  have hone := List.all_eq_true.mp hall c hc
  simp only [Bool.and_eq_true, decide_eq_true_eq, Bool.not_eq_true'] at hone
  rw [isIdentifierPart_of_ascii hone.1]
  exact hone.2

theorem isIdentifierPart_letter (b : BaseType) : isIdentifierPart b.letter = true := by
  cases b <;> rfl

/-! ## Segments -/

/-- The pieces of a name between its separators. -/
def segments (name : List Char) : List (List Char) := name.splitOn '/'

theorem segments_separator (name : List Char) : segments ('/' :: name) = [] :: segments name := by
  rw [segments, List.splitOn_cons_eq_if_modifyHead, if_pos (beq_self_eq_true _), segments]

/-- Any other character belongs to the first segment of what follows it. -/
theorem segments_cons {c : Char} (hc : c ≠ '/') (name : List Char) :
    ∃ first rest, segments name = first :: rest ∧ segments (c :: name) = (c :: first) :: rest := by
  obtain ⟨first, rest, hname⟩ := List.exists_cons_of_ne_nil (List.splitOn_ne_nil '/' name)
  refine ⟨first, rest, hname, ?_⟩
  rw [segments, List.splitOn_cons_eq_if_modifyHead, if_neg (by simpa using hc), hname, List.modifyHead_cons]

theorem head_segments {c : Char} (hc : c ≠ '/') (name : List Char) :
    ∃ s ∈ segments (c :: name), s.head? = some c := by
  obtain ⟨first, rest, -, hcons⟩ := segments_cons hc name
  rw [hcons]
  exact ⟨c :: first, List.mem_cons_self, rfl⟩

/-- Whatever holds of every character but the separators holds of every character of a segment. -/
theorem forall_segments_iff {p : Char → Prop} {name : List Char} :
    (∀ segment ∈ segments name, ∀ c ∈ segment, p c) ↔ ∀ c ∈ name, p c ∨ c = '/' := by
  induction name with
  | nil => simp [segments]
  | cons c name ih =>
    by_cases hc : c = '/'
    · subst hc
      rw [segments_separator, List.forall_mem_cons, List.forall_mem_cons, ih]
      simp
    · obtain ⟨first, rest, hname, hcons⟩ := segments_cons hc name
      rw [hname, List.forall_mem_cons] at ih
      rw [hcons, List.forall_mem_cons, List.forall_mem_cons, List.forall_mem_cons, ← ih, and_assoc,
        or_iff_left hc]

/-! ## Names -/

/-- A sequence of identifiers with `/` between them. -/
def IsQualifiedName (name : List Char) : Prop := ∀ segment ∈ segments name, isIdentifier segment = true

/-- Every segment has a first character, and an identifier may begin with it. -/
def BeginsSegments (name : List Char) : Prop :=
  ∀ segment ∈ segments name, ∃ c ∈ segment.head?, isIdentifierStart c = true

/-- What the scan sees of a name. -/
structure IsScannedName (name : List Char) : Prop where
  characters : ∀ c ∈ name, isIdentifierPart c = true ∨ c = '/'
  /-- No separator follows another. -/
  separated : name.IsChain fun c d => c = '/' → d ≠ '/'

theorem isIdentifier_iff {s : List Char} :
    isIdentifier s = true ↔ (∃ c ∈ s.head?, isIdentifierStart c = true) ∧ ∀ c ∈ s, isIdentifierPart c = true := by
  cases s with
  | nil => simp [isIdentifier]
  | cons c s =>
    simp only [isIdentifier, Bool.and_eq_true, List.all_eq_true, List.forall_mem_cons, List.head?_cons,
      Option.mem_some_iff, exists_eq_left']
    constructor
    · intro h
      exact ⟨h.1, isIdentifierPart_of_start h.1, h.2⟩
    · intro h
      exact ⟨h.1, h.2.2⟩

/-- Separators in a row would have an empty segment between them; the first segment may be empty. -/
theorem isChain_of_segments {name : List Char} (h : ∀ segment ∈ (segments name).tail, segment ≠ []) :
    name.IsChain fun c d => c = '/' → d ≠ '/' := by
  induction name with
  | nil => exact .nil
  | cons c name ih =>
    rw [List.isChain_cons]
    by_cases hc : c = '/'
    · subst hc
      rw [segments_separator, List.tail_cons] at h
      refine ⟨fun d hd _ hslash => ?_, ih fun segment hsegment => h segment (List.mem_of_mem_tail hsegment)⟩
      subst hslash
      obtain ⟨rest, rfl⟩ := List.head?_eq_some_iff.mp hd
      rw [segments_separator] at h
      exact h [] List.mem_cons_self rfl
    · obtain ⟨first, rest, hname, hcons⟩ := segments_cons hc name
      rw [hcons, List.tail_cons] at h
      rw [hname, List.tail_cons] at ih
      exact ⟨fun _ _ hslash => absurd hslash hc, ih h⟩

theorem BeginsSegments.separated {name : List Char} (h : BeginsSegments name) :
    name.IsChain fun c d => c = '/' → d ≠ '/' := by
  refine isChain_of_segments fun segment hsegment hempty => ?_
  obtain ⟨c, hc, -⟩ := h segment (List.mem_of_mem_tail hsegment)
  rw [hempty] at hc
  cases hc

/-- Sequences of identifiers are the names that the scan lets pass and whose segments begin as identifiers. -/
theorem isQualifiedName_iff {name : List Char} : IsQualifiedName name ↔ IsScannedName name ∧ BeginsSegments name := by
  have hparts : IsQualifiedName name ↔ BeginsSegments name ∧ ∀ c ∈ name, isIdentifierPart c = true ∨ c = '/' := by
    simp only [IsQualifiedName, BeginsSegments, isIdentifier_iff, forall_and, ← forall_segments_iff]
  rw [hparts]
  constructor
  · intro h
    exact ⟨⟨h.2, h.1.separated⟩, h.1⟩
  · intro h
    exact ⟨h.2, h.1.characters⟩

/-! ## The scan -/

theorem mayFollow_strict_iff {prev c : Char} :
    mayFollow true prev c = true ↔ (isIdentifierPart c = true ∨ c = '/') ∧ (prev = '/' → c ≠ '/') := by
  have hslash : isIdentifierPart '/' = false := isIdentifierPart_reserved (by decide)
  by_cases hc : c = '/'
  · subst hc
    simp [mayFollow, hslash]
  · simp [mayFollow, hc]

theorem isClassNameTail_strict_iff {prev : Char} {s : List Char} : isClassNameTail true prev s = true ↔
    (∀ c ∈ s, isIdentifierPart c = true ∨ c = '/') ∧ (prev :: s).IsChain fun c d => c = '/' → d ≠ '/' := by
  induction s generalizing prev with
  | nil => simp [isClassNameTail]
  | cons c s ih =>
    rw [isClassNameTail, Bool.and_eq_true, ih, mayFollow_strict_iff, List.forall_mem_cons, List.isChain_cons_cons]
    constructor
    · intro ⟨⟨hc, hprev⟩, hs, hchain⟩
      exact ⟨⟨hc, hs⟩, hprev, hchain⟩
    · intro ⟨⟨hc, hs⟩, hprev, hchain⟩
      exact ⟨⟨hc, hprev⟩, hs, hchain⟩

/-- After a character that is no separator the scan sees a name. -/
theorem isClassNameTail_iff_scanned {prev : Char} {s : List Char} (hprev : prev ≠ '/') :
    isClassNameTail true prev s = true ↔ IsScannedName s := by
  rw [isClassNameTail_strict_iff, List.isChain_cons]
  constructor
  · intro h
    exact ⟨h.1, h.2.2⟩
  · intro h
    exact ⟨h.characters, fun _ _ hslash => absurd hslash hprev, h.separated⟩

/-- The name begins with a character that an identifier may begin with, or with a separator. -/
def MayBegin (name : List Char) : Prop := ∃ c ∈ name.head?, isIdentifierStart c = true ∨ c = '/'

/-- The first character is what the scan of the others starts with. -/
theorem isClassNameTail_first_iff {first : Char} {rest : List Char} :
    ((isIdentifierStart first || first == '/') && isClassNameTail true first rest) = true ↔
      MayBegin (first :: rest) ∧ IsScannedName (first :: rest) := by
  have hbegin : MayBegin (first :: rest) ↔ isIdentifierStart first = true ∨ first = '/' := by simp [MayBegin]
  rw [Bool.and_eq_true, Bool.or_eq_true, beq_iff_eq, isClassNameTail_strict_iff, hbegin]
  constructor
  · intro ⟨hfirst, hrest, hchain⟩
    exact ⟨hfirst, List.forall_mem_cons.mpr ⟨hfirst.imp_left isIdentifierPart_of_start, hrest⟩, hchain⟩
  · intro ⟨hfirst, hname⟩
    exact ⟨hfirst, (List.forall_mem_cons.mp hname.characters).2, hname.separated⟩

/-! ## Arrays -/

theorem arrayElementName_of_letter {s : List Char} {c : Char} (h : s.dropWhile (· == '[') = [c]) (hc : c ≠ 'L') :
    arrayElementName s = ('[', [c]) := by
  unfold arrayElementName
  rw [h]
  split
  · rename_i heq
    exact absurd (List.cons.inj heq).1 hc
  · rfl

theorem arrayElementName_of_class {s u : List Char} (h : s.dropWhile (· == '[') = 'L' :: (u ++ [';'])) :
    arrayElementName s = ('L', u) := by
  unfold arrayElementName
  rw [h]
  simp

/-- An array of values of a base type, or of a class with such a name. -/
def RefType.IsArrayOf (named : List Char → Prop) : RefType String → Prop
  | .object _ => False
  | .objectArray _ name => named name.toList
  | .primitiveArray .. => True

/-- What a class constant may hold: a name of the first kind, or an array type as its field descriptor, with
    a class name of the second kind. -/
def IsClassConstant (named namedInArray : List Char → Prop) (s : String) : Prop :=
  named s.toList ∨ ∃ r : RefType String, FieldType.parse s = .ok (.ref r) ∧ r.IsArrayOf namedInArray

section

variable {named named' namedInArray namedInArray' : List Char → Prop}

theorem RefType.IsArrayOf.mono (h : ∀ name, named name → named' name) {r : RefType String}
    (hr : r.IsArrayOf named) : r.IsArrayOf named' := by
  cases r with
  | object name => exact hr
  | objectArray extra name => exact h _ hr
  | primitiveArray extra b => trivial

theorem RefType.isArrayOf_and_iff {r : RefType String} :
    r.IsArrayOf (fun name => named name ∧ named' name) ↔ r.IsArrayOf named ∧ r.IsArrayOf named' := by
  cases r <;> simp [IsArrayOf]

/-- An array is spelled with a bracket in front. -/
theorem RefType.IsArrayOf.head_chars {r : RefType String} (hr : r.IsArrayOf named) : r.chars.head? = some '[' := by
  cases r with
  | object name => exact hr.elim
  | objectArray extra name => simp [chars, List.replicate_succ]
  | primitiveArray extra b => simp [chars, List.replicate_succ]

end

theorem dropWhile_brackets (n : Nat) {c : Char} (hc : c ≠ '[') (s : List Char) :
    (List.replicate n '[' ++ c :: s).dropWhile (· == '[') = c :: s := by
  rw [List.dropWhile_append_of_pos (by simp)]
  simp [hc]

/-- The scan of an array type goes over the name of its class; the letter of a base type lets itself pass. -/
theorem isClassNameTail_array_iff {r : RefType String} {rest : List Char} (h : '[' :: rest = r.chars) :
    isClassNameTail true (arrayElementName rest).1 (arrayElementName rest).2 = true ↔ r.IsArrayOf IsScannedName := by
  cases r with
  | object name => exact absurd (List.cons.inj h).1 (by decide)
  | objectArray extra name =>
    have hrest : rest = List.replicate extra '[' ++ classText name := (List.cons.inj h).2
    have hdrop := dropWhile_brackets extra (c := 'L') (by decide) (name.toList ++ [';'])
    rw [arrayElementName_of_class (hrest ▸ hdrop)]
    exact isClassNameTail_iff_scanned (show 'L' ≠ '/' by decide)
  | primitiveArray extra b =>
    have hrest : rest = List.replicate extra '[' ++ [b.letter] := (List.cons.inj h).2
    have hdrop := dropWhile_brackets extra b.letter_ne.2.1 []
    rw [arrayElementName_of_letter (hrest ▸ hdrop) b.letter_ne.1]
    simp [isClassNameTail, mayFollow, isIdentifierPart_letter, RefType.IsArrayOf]

/-! ## Strict names -/

/-- No name that the scan lets begin begins with a bracket. -/
theorem MayBegin.head_ne {name : List Char} (h : MayBegin name) : name.head? ≠ some '[' := by
  intro hname
  obtain ⟨c, hc, hbegin⟩ := h
  rw [hname, Option.mem_some_iff] at hc
  subst hc
  have hbracket : isIdentifierPart '[' = false := isIdentifierPart_reserved (by decide)
  rcases hbegin with hstart | hslash
  · rw [isIdentifierPart_of_start hstart] at hbracket
    cases hbracket
  · exact absurd hslash (by decide)

theorem BeginsSegments.mayBegin {name : List Char} (h : BeginsSegments name) : MayBegin name := by
  cases name with
  | nil =>
    obtain ⟨c, hc, -⟩ := h [] (by simp [segments])
    cases hc
  | cons c name =>
    by_cases hc : c = '/'
    · exact ⟨c, rfl, .inr hc⟩
    · obtain ⟨segment, hsegment, hhead⟩ := head_segments hc name
      obtain ⟨d, hd, hstart⟩ := h segment hsegment
      rw [hhead, Option.mem_some_iff] at hd
      subst hd
      exact ⟨c, rfl, .inl hstart⟩

/-- The first character tells names and array types apart. -/
theorem isClassConstant_of_bracket {named namedInArray : List Char → Prop} {s : String}
    (hnamed : ∀ name, named name → MayBegin name) (hs : s.toList.head? = some '[') :
    IsClassConstant named namedInArray s ↔
      ∃ r : RefType String, FieldType.parse s = .ok (.ref r) ∧ r.IsArrayOf namedInArray :=
  or_iff_right fun h => (hnamed _ h).head_ne hs

theorem isClassConstant_of_no_bracket {named namedInArray : List Char → Prop} {s : String}
    (hs : s.toList.head? ≠ some '[') : IsClassConstant named namedInArray s ↔ named s.toList := by
  refine or_iff_left fun ⟨r, hparse, hr⟩ => hs ?_
  rw [(FieldType.parse_eq_ok_iff.mp hparse).2]
  exact hr.head_chars

/-- The strict check lets a name pass that the scan lets begin and pass, and an array type if the scan lets
    the name of its class pass. -/
theorem isValidClassName_strict_iff {version : Version} {options : Options} (hversion : version.major < 49)
    (hrelaxed : options.relaxedClassNames = false) {s : String} : isValidClassName s version options = true ↔
      IsClassConstant (fun name => MayBegin name ∧ IsScannedName name) IsScannedName s := by
  have hstrict : (!version.hasJava5Features && !options.relaxedClassNames) = true := by
    have hjava5 : version.hasJava5Features = false := decide_eq_false (UInt16.not_le.mpr hversion)
    rw [hjava5, hrelaxed]
    rfl
  unfold isValidClassName
  rw [hstrict]
  dsimp only
  split
  · rename_i hs
    rw [isClassConstant_of_no_bracket (by rw [hs]; simp), hs]
    refine iff_of_false (by simp) fun h => ?_
    obtain ⟨c, hc, -⟩ := h.1
    cases hc
  · rename_i rest hs
    rw [isClassConstant_of_bracket (fun _ h => h.1) (by rw [hs]; rfl), Bool.and_eq_true, isFieldDescriptor_iff]
    constructor
    · intro ⟨⟨t, ht, hchars⟩, htail⟩
      cases t with
      | base b => exact absurd (List.cons.inj hchars).1.symm b.letter_ne.2.1
      | ref r =>
        refine ⟨r, FieldType.parse_eq_ok_iff.mpr ⟨ht, hs.trans hchars⟩, ?_⟩
        exact (isClassNameTail_array_iff hchars).mp htail
    · intro ⟨r, hparse, hr⟩
      obtain ⟨ht, hchars⟩ := FieldType.parse_eq_ok_iff.mp hparse
      have hrest : '[' :: rest = r.chars := hs.symm.trans hchars
      exact ⟨⟨.ref r, ht, hrest⟩, (isClassNameTail_array_iff hrest).mpr hr⟩
  · rename_i first rest hbracket hs
    have hfirst : first ≠ '[' := fun hfirst => hbracket hfirst
    rw [isClassConstant_of_no_bracket (by rw [hs]; simpa using hfirst), hs, if_pos rfl]
    exact isClassNameTail_first_iff

/-- Before version 49 the characters of an accepted name are those of identifiers and separators, no separator
    follows another, and a name that is not the one of the class of an array does not begin with a number. Of
    the accepted names those are sequences of identifiers in which each segment begins as an identifier. -/
theorem strict_class_names_exact {version : Version} {options : Options} (hversion : version.major < 49)
    (hrelaxed : options.relaxedClassNames = false) (s : String) :
    (isValidClassName s version options = true ↔
      IsClassConstant (fun name => MayBegin name ∧ IsScannedName name) IsScannedName s) ∧
      (IsClassConstant IsQualifiedName IsQualifiedName s ↔
        isValidClassName s version options = true ∧ IsClassConstant BeginsSegments BeginsSegments s) := by
  refine ⟨isValidClassName_strict_iff hversion hrelaxed, ?_⟩
  rw [isValidClassName_strict_iff hversion hrelaxed]
  by_cases hs : s.toList.head? = some '['
  · rw [isClassConstant_of_bracket (fun _ h => (isQualifiedName_iff.mp h).2.mayBegin) hs,
      isClassConstant_of_bracket (fun _ h => h.1) hs, isClassConstant_of_bracket (fun _ h => h.mayBegin) hs]
    constructor
    · intro ⟨r, hparse, hr⟩
      exact ⟨⟨r, hparse, hr.mono fun name h => (isQualifiedName_iff.mp h).1⟩,
        r, hparse, hr.mono fun name h => (isQualifiedName_iff.mp h).2⟩
    · intro ⟨⟨r, hparse, hr⟩, r', hparse', hr'⟩
      obtain rfl : r = r' := FieldType.ref.inj (Except.ok.inj (hparse.symm.trans hparse'))
      exact ⟨r, hparse, (RefType.isArrayOf_and_iff.mpr ⟨hr, hr'⟩).mono fun name h => isQualifiedName_iff.mpr h⟩
  · simp only [isClassConstant_of_no_bracket hs]
    rw [isQualifiedName_iff]
    constructor
    · intro h
      exact ⟨⟨h.2.mayBegin, h.1⟩, h.2⟩
    · intro h
      exact ⟨h.1.2, h.2⟩

theorem strict_class_names_exact_array :
    (48 : UInt16) < 49 ∧ ({} : Options).relaxedClassNames = false ∧ isValidClassName "[[La/1b;" ⟨48, 0⟩ {} = true ∧
      ¬IsClassConstant IsQualifiedName IsQualifiedName "[[La/1b;" := by
  obtain ⟨hscanned, hqualified⟩ := @strict_class_names_exact ⟨48, 0⟩ {} (by decide) rfl "[[La/1b;"
  have hparse : FieldType.parse "[[La/1b;" = .ok (.ref (.objectArray 1 "a/1b")) :=
    FieldType.parse_eq_ok_iff.mpr ⟨show ';' ∉ "a/1b".toList by decide, by decide⟩
  have hscan : isClassNameTail true 'L' "a/1b".toList = true := by decide
  have hname : IsScannedName "a/1b".toList := (isClassNameTail_iff_scanned (by decide)).mp hscan
  refine ⟨by decide, rfl, hscanned.mpr (.inr ⟨_, hparse, hname⟩), fun h => ?_⟩
  obtain ⟨-, hbegins⟩ := hqualified.mp h
  rw [isClassConstant_of_bracket (fun _ h => h.mayBegin) (by decide)] at hbegins
  obtain ⟨r, hparse', hr⟩ := hbegins
  obtain rfl : .objectArray 1 "a/1b" = r := FieldType.ref.inj (Except.ok.inj (hparse.symm.trans hparse'))
  obtain ⟨c, hc, hstart⟩ := hr ['1', 'b'] (by decide)
  cases hc
  exact absurd hstart (by decide)

/-- A number may begin any segment but the first one. -/
theorem number_begins_later_segment :
    isValidClassName "a/1b" ⟨48, 0⟩ {} = true ∧ ¬IsClassConstant IsQualifiedName IsQualifiedName "a/1b" := by
  refine ⟨by decide, ?_⟩
  rw [isClassConstant_of_no_bracket (by decide)]
  intro h
  have hsegment : isIdentifier ['1', 'b'] = true := h _ (by decide)
  exact absurd hsegment (by decide)

/-- A separator may begin a name and end it, and the class of an array may have no name at all. -/
example : ["/", "/a", "a/", "[L;", "[L1/;"].all (isValidClassName · ⟨48, 0⟩ {}) = true := by decide

end JvmClass
