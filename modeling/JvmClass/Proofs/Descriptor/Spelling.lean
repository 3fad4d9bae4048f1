/-
  JvmClass.Proofs.Descriptor.Spelling — what the readers of descriptors and the checks accept.

  A type is spelled in one way, and a reader finds it exactly where a text starts with that spelling
  (`FieldType.read_eq_ok_iff`, `MethodDescriptor.parse_eq_ok_iff`). The checks build nothing, and yet
  accept spellings only (`isFieldDescriptor_iff`, `areParameters_iff`). The check of a method
  descriptor ends the parameters at the first `)`, wherever it stands, so it accepts what the parser
  does but for parameters whose class names hold one (`isValidMethodDescriptor_iff_parse`).
-/

import JvmClass.Descriptor.Parser
import JvmClass.Descriptor.Valid
import JvmClass.Proofs.Except

namespace JvmClass

/-! ## Types that can be spelled -/

/-- A class name ends at the first `;`, so it holds none. -/
def RefType.IsSpellable : RefType String → Prop
  | .object name | .objectArray _ name => ';' ∉ name.toList
  | .primitiveArray .. => True

def FieldType.IsSpellable : FieldType String → Prop
  | .base _ => True
  | .ref r => r.IsSpellable

structure MethodDescriptor.IsSpellable (d : MethodDescriptor String) : Prop where
  parameters : ∀ t ∈ d.parameters, t.IsSpellable
  returns : ∀ t ∈ d.returns, t.IsSpellable

/-- One dimension more. -/
def FieldType.arrayOf {C : Type} : FieldType C → FieldType C
  | .base b => .ref (.primitiveArray 0 b)
  | .ref (.object c) => .ref (.objectArray 0 c)
  | .ref (.objectArray extra c) => .ref (.objectArray (extra + 1) c)
  | .ref (.primitiveArray extra b) => .ref (.primitiveArray (extra + 1) b)

@[simp] theorem FieldType.chars_arrayOf (t : FieldType String) : t.arrayOf.chars = '[' :: t.chars := by
  rcases t with b | (c | ⟨n, c⟩ | ⟨n, b⟩) <;> simp [arrayOf, chars, RefType.chars, List.replicate_succ]

@[simp] theorem FieldType.isSpellable_arrayOf (t : FieldType String) : t.arrayOf.IsSpellable ↔ t.IsSpellable := by
  rcases t with b | (c | ⟨n, c⟩ | ⟨n, b⟩) <;> rfl

/-! ## Where spellings start -/

theorem BaseType.letter_ne (b : BaseType) : b.letter ≠ 'L' ∧ b.letter ≠ '[' ∧ b.letter ≠ 'V' ∧ b.letter ≠ ')' := by
  cases b <;> decide

theorem BaseType.ofLetter?_eq_some_iff {c : Char} {b : BaseType} : ofLetter? c = some b ↔ c = b.letter := by
  constructor
  · intro h
    exact (letter_of_ofLetter? h).symm
  · intro h
    rw [h, ofLetter?_letter]

theorem isBaseLetter_iff {c : Char} : isBaseLetter c = true ↔ ∃ b : BaseType, c = b.letter := by
  simp only [isBaseLetter, Option.isSome_iff_exists, BaseType.ofLetter?_eq_some_iff]

@[simp] theorem isBaseLetter_letter (b : BaseType) : isBaseLetter b.letter = true := isBaseLetter_iff.mpr ⟨b, rfl⟩

/-- A spelling is a letter, a class name after `L`, or another spelling after `[`. -/
theorem FieldType.chars_cases (t : FieldType String) :
    (∃ b : BaseType, t = .base b ∧ t.chars = [b.letter]) ∨
      (∃ name, t = .ref (.object name) ∧ t.chars = 'L' :: (name.toList ++ [';'])) ∨
      ∃ u : FieldType String, t = u.arrayOf ∧ t.chars = '[' :: u.chars := by
  rcases t with b | (c | ⟨n, c⟩ | ⟨n, b⟩)
  · exact .inl ⟨b, rfl, rfl⟩
  · exact .inr (.inl ⟨c, rfl, rfl⟩)
  · cases n with
    | zero => exact .inr (.inr ⟨.ref (.object c), rfl, rfl⟩)
    | succ n => exact .inr (.inr ⟨.ref (.objectArray n c), rfl, rfl⟩)
  · cases n with
    | zero => exact .inr (.inr ⟨.base b, rfl, rfl⟩)
    | succ n => exact .inr (.inr ⟨.ref (.primitiveArray n b), rfl, rfl⟩)

theorem FieldType.chars_ne_nil (t : FieldType String) : t.chars ≠ [] := by
  rcases t.chars_cases with ⟨_, _, h⟩ | ⟨_, _, h⟩ | ⟨_, _, h⟩ <;> simp [h]

/-- No spelling starts with the letter of `void` or the end of the parameters. -/
theorem FieldType.head_chars_ne {t : FieldType String} {c : Char} {s rest : List Char}
    (h : t.chars ++ rest = c :: s) : c ≠ 'V' ∧ c ≠ ')' := by
  rcases t.chars_cases with ⟨b, _, ht⟩ | ⟨_, _, ht⟩ | ⟨_, _, ht⟩ <;> rw [ht, List.cons_append] at h <;>
    injection h with h
  · rw [← h]
    exact ⟨b.letter_ne.2.2.1, b.letter_ne.2.2.2⟩
  · subst h
    decide
  · subst h
    decide

/-! ## Up to a character -/

section

variable {d : Char} {s : List Char} (rest : List Char)

theorem bne_of_not_mem (h : d ∉ s) : ∀ c ∈ s, (c != d) = true := by
  intro c hc
  exact bne_iff_ne.mpr fun he => h (he ▸ hc)

theorem dropWhile_bne_append (h : d ∉ s) : (s ++ d :: rest).dropWhile (· != d) = d :: rest := by
  rw [List.dropWhile_append_of_pos (bne_of_not_mem h)]
  simp

theorem takeWhile_bne_append (h : d ∉ s) : (s ++ d :: rest).takeWhile (· != d) = s := by
  rw [List.takeWhile_append_of_pos (bne_of_not_mem h)]
  simp

theorem dropWhile_bne_of_not_mem (h : d ∉ s) : s.dropWhile (· != d) = [] := by
  rw [← List.append_nil s, List.dropWhile_append_of_pos (bne_of_not_mem h), List.dropWhile_nil]

/-- Two texts that end at the first `d` of one text are the same. -/
theorem append_cons_inj_of_not_mem {s' rest' : List Char} (h : d ∉ s) (h' : d ∉ s')
    (heq : s ++ d :: rest = s' ++ d :: rest') : s = s' ∧ rest = rest' := by
  have hdrop := congrArg (List.dropWhile (· != d)) heq
  rw [dropWhile_bne_append rest h, dropWhile_bne_append rest' h'] at hdrop
  have htake := congrArg (List.takeWhile (· != d)) heq
  rw [takeWhile_bne_append rest h, takeWhile_bne_append rest' h'] at htake
  exact ⟨htake, (List.cons.inj hdrop).2⟩

end

/-! ## Readers -/

theorem BaseType.read_eq_ok_iff {s rest : List Char} {b : BaseType} :
    BaseType.read s = .ok (b, rest) ↔ s = b.letter :: rest := by
  cases s with
  | nil => simp [read]
  | cons c s =>
    rw [List.cons.injEq, ← ofLetter?_eq_some_iff, read]
    cases ofLetter? c <;> simp

theorem readClassName_eq_ok_iff {s rest : List Char} {name : String} :
    readClassName s = .ok (name, rest) ↔ ';' ∉ name.toList ∧ s = classText name ++ rest := by
  have hclass : classText name ++ rest = 'L' :: (name.toList ++ ';' :: rest) := by simp [classText]
  rw [hclass]
  unfold readClassName
  split
  · rename_i u
    rw [List.cons.injEq, and_iff_right rfl]
    by_cases hu : ';' ∈ u
    · obtain ⟨v, w, rfl, hv⟩ := List.eq_append_cons_of_mem hu
      simp only [dropWhile_bne_append w hv, takeWhile_bne_append w hv, Except.ok.injEq, Prod.mk.injEq]
      constructor
      · rintro ⟨rfl, rfl⟩
        rw [String.toList_ofList]
        exact ⟨hv, rfl⟩
      · rintro ⟨hname, heq⟩
        obtain ⟨rfl, rfl⟩ := append_cons_inj_of_not_mem w hv hname heq
        exact ⟨String.ofList_toList, rfl⟩
    · simp only [dropWhile_bne_of_not_mem hu, reduceCtorEq, false_iff]
      rintro ⟨-, rfl⟩
      simp at hu
  · rename_i hs
    simp only [reduceCtorEq, false_iff]
    rintro ⟨-, rfl⟩
    exact hs _ rfl

/-! ### Arrays -/

/-- The brackets of an array, and what follows them. -/
theorem exists_brackets (s : List Char) :
    ∃ n u, s = List.replicate n '[' ++ u ∧ u.head? ≠ some '[' ∧
      (s.takeWhile (· == '[')).length = n ∧ s.dropWhile (· == '[') = u := by
  induction s with
  | nil => exact ⟨0, [], rfl, by simp, rfl, rfl⟩
  | cons c s ih =>
    by_cases hc : c = '['
    · obtain ⟨n, u, hs, hu, hn, hd⟩ := ih
      refine ⟨n + 1, u, ?_, hu, ?_, ?_⟩
      · rw [hc, hs, List.replicate_succ, List.cons_append]
      · simp [hc, hn]
      · simp [hc, hd]
    · exact ⟨0, c :: s, rfl, by simpa using hc, by simp [hc], by simp [hc]⟩

theorem replicate_append_inj {m n : Nat} {c : Char} {s t : List Char} (hs : s.head? ≠ some c)
    (ht : t.head? ≠ some c) (h : List.replicate m c ++ s = List.replicate n c ++ t) : m = n ∧ s = t := by
  induction m generalizing n with
  | zero =>
    cases n with
    | zero => exact ⟨rfl, h⟩
    | succ n => exact absurd (by rw [List.replicate_zero, List.nil_append] at h; simp [h, List.replicate_succ]) hs
  | succ m ih =>
    cases n with
    | zero => exact absurd (by rw [List.replicate_zero, List.nil_append] at h; simp [← h, List.replicate_succ]) ht
    | succ n =>
      obtain ⟨rfl, hst⟩ := ih (by simpa [List.replicate_succ] using h)
      exact ⟨rfl, hst⟩

theorem RefType.readElement_eq_ok_iff {n : Nat} {s rest : List Char} {r : RefType String} :
    readElement n s = .ok (r, rest) ↔
      (∃ name, r = .objectArray n name ∧ ';' ∉ name.toList ∧ s = classText name ++ rest) ∨
        ∃ b : BaseType, r = .primitiveArray n b ∧ s = b.letter :: rest := by
  unfold readElement
  split
  · rename_i u
    have hbase (b : BaseType) : 'L' :: u ≠ b.letter :: rest := fun h => b.letter_ne.1 (List.cons.inj h).1.symm
    simp only [Except.map_eq_ok, Prod.exists, readClassName_eq_ok_iff, Prod.mk.injEq]
    constructor
    · rintro ⟨name, rest', ⟨hname, hu⟩, rfl, rfl⟩
      exact .inl ⟨name, rfl, hname, hu⟩
    · rintro (⟨name, rfl, hname, hu⟩ | ⟨b, -, hb⟩)
      · exact ⟨name, rest, ⟨hname, hu⟩, rfl, rfl⟩
      · exact absurd hb (hbase b)
  · rename_i hs
    simp only [Except.map_eq_ok, Prod.exists, BaseType.read_eq_ok_iff, Prod.mk.injEq]
    constructor
    · rintro ⟨b, rest', hb, rfl, rfl⟩
      exact .inr ⟨b, rfl, hb⟩
    · rintro (⟨name, -, -, rfl⟩ | ⟨b, rfl, hb⟩)
      · exact absurd rfl (hs _)
      · exact ⟨b, rest, hb, rfl, rfl⟩

theorem RefType.read_eq_ok_iff {s rest : List Char} {r : RefType String} :
    RefType.read s = .ok (r, rest) ↔ r.IsSpellable ∧ s = r.chars ++ rest := by
  have hletter (b : BaseType) (u : List Char) : (b.letter :: u).head? ≠ some '[' := by simpa using b.letter_ne.2.1
  have hclass (c : String) (u : List Char) : (classText c ++ u).head? ≠ some '[' := by simp [classText]
  unfold read
  split
  · cases r <;> simp [chars, classText, List.replicate_succ]
  · rename_i u
    simp only [Except.map_eq_ok, Prod.exists, readClassName_eq_ok_iff, Prod.mk.injEq]
    constructor
    · rintro ⟨name, rest', ⟨hname, hu⟩, rfl, rfl⟩
      exact ⟨hname, hu⟩
    · rintro ⟨hr, hu⟩
      cases r with
      | object name => exact ⟨name, rest, ⟨hr, hu⟩, rfl, rfl⟩
      | objectArray n name => simp [chars, List.replicate_succ] at hu
      | primitiveArray n b => simp [chars, List.replicate_succ] at hu
  · rename_i u
    obtain ⟨n, v, hu, hv, htake, hdrop⟩ := exists_brackets u
    rw [htake, hdrop, readElement_eq_ok_iff, hu]
    constructor
    · rintro (⟨name, rfl, hname, rfl⟩ | ⟨b, rfl, rfl⟩)
      · exact ⟨hname, by simp [chars, List.replicate_succ]⟩
      · exact ⟨trivial, by simp [chars, List.replicate_succ]⟩
    · rintro ⟨hr, heq⟩
      cases r with
      | object name => simp [chars, classText] at heq
      | objectArray m name =>
        simp only [chars, List.replicate_succ, List.cons_append, List.append_assoc, List.cons.injEq, true_and] at heq
        obtain ⟨rfl, rfl⟩ := replicate_append_inj hv (hclass name rest) heq
        exact .inl ⟨name, rfl, hr, rfl⟩
      | primitiveArray m b =>
        simp only [chars, List.replicate_succ, List.cons_append, List.append_assoc, List.nil_append, List.cons.injEq,
          true_and] at heq
        obtain ⟨rfl, rfl⟩ := replicate_append_inj hv (hletter b rest) heq
        exact .inr ⟨b, rfl, rfl⟩
  · rename_i c u hL hbracket
    simp only [reduceCtorEq, false_iff]
    rintro ⟨-, hr⟩
    cases r with
    | object name => exact hL (List.cons.inj hr).1
    | objectArray m name => exact hbracket (List.cons.inj hr).1
    | primitiveArray m b => exact hbracket (List.cons.inj hr).1

/-! ### Types -/

theorem FieldType.read_eq_ok_iff {s rest : List Char} {t : FieldType String} :
    FieldType.read s = .ok (t, rest) ↔ t.IsSpellable ∧ s = t.chars ++ rest := by
  unfold read
  split
  · simp [t.chars_ne_nil]
  · rename_i c u
    split
    · rename_i hc
      obtain ⟨b, hb⟩ := Option.isSome_iff_exists.mp hc
      obtain rfl := BaseType.ofLetter?_eq_some_iff.mp hb
      simp only [Except.map_eq_ok, Prod.exists, BaseType.read_eq_ok_iff, List.cons.injEq, Prod.mk.injEq]
      constructor
      · rintro ⟨b', rest', ⟨hletter, rfl⟩, rfl, rfl⟩
        exact ⟨trivial, by rw [hletter]; rfl⟩
      · rintro ⟨-, heq⟩
        rcases t.chars_cases with ⟨b', rfl, ht⟩ | ⟨name, -, ht⟩ | ⟨t', -, ht⟩
        · exact ⟨b', rest, List.cons.inj heq, rfl, rfl⟩
        · rw [ht] at heq
          exact absurd (List.cons.inj heq).1 b.letter_ne.1
        · rw [ht] at heq
          exact absurd (List.cons.inj heq).1 b.letter_ne.2.1
    · rename_i hc
      have hbase (b : BaseType) : c ≠ b.letter := by
        rintro rfl
        exact hc (by rw [BaseType.ofLetter?_letter]; rfl)
      split
      · simp only [Except.map_eq_ok, Prod.exists, RefType.read_eq_ok_iff, Prod.mk.injEq]
        constructor
        · rintro ⟨r, rest', h, rfl, rfl⟩
          exact h
        · rintro ⟨ht, heq⟩
          cases t with
          | base b => exact absurd (List.cons.inj heq).1 (hbase b)
          | ref r => exact ⟨r, rest, ⟨ht, heq⟩, rfl, rfl⟩
      · rename_i href
        simp only [reduceCtorEq, false_iff]
        rintro ⟨-, heq⟩
        rcases t.chars_cases with ⟨b, -, ht⟩ | ⟨name, -, ht⟩ | ⟨t', -, ht⟩ <;> rw [ht] at heq
        · exact hbase b (List.cons.inj heq).1
        · exact href (.inl (List.cons.inj heq).1)
        · exact href (.inr (List.cons.inj heq).1)

/-! ### Methods -/

/-- The next parameter is read, and then the others. -/
theorem readParameters_of_ne {acc : List (FieldType String)} {s : List Char} (hs : ∀ rest, s ≠ ')' :: rest) :
    readParameters acc s = (FieldType.read s).bind fun (t, rest) => readParameters (t :: acc) rest := by
  rw [readParameters]
  · split
    · rename_i e he
      rw [he]
      rfl
    · rename_i t rest ht
      rw [ht]
      rfl
  · exact hs

theorem readParameters_eq_ok_iff {acc ts : List (FieldType String)} {s rest : List Char} :
    readParameters acc s = .ok (ts, rest) ↔
      ∃ us, ts = acc.reverse ++ us ∧ (∀ t ∈ us, t.IsSpellable) ∧ s = us.flatMap FieldType.chars ++ ')' :: rest := by
  induction acc, s using readParameters.induct with
  | case1 acc s =>
    rw [readParameters, Except.ok.injEq, Prod.mk.injEq]
    constructor
    · rintro ⟨rfl, rfl⟩
      exact ⟨[], (List.append_nil _).symm, by simp, rfl⟩
    · rintro ⟨us, hts, -, hs⟩
      cases us with
      | nil => exact ⟨by rw [hts, List.append_nil], (List.cons.inj hs).2⟩
      | cons t us =>
        rw [List.flatMap_cons, List.append_assoc] at hs
        exact absurd rfl (FieldType.head_chars_ne hs.symm).2
  | case2 acc s hs e he =>
    rw [readParameters_of_ne hs, he]
    constructor
    · intro h
      cases h
    · rintro ⟨us, -, hus, heq⟩
      cases us with
      | nil => exact absurd heq (hs rest)
      | cons t us =>
        rw [List.flatMap_cons, List.append_assoc] at heq
        rw [FieldType.read_eq_ok_iff.mpr ⟨hus t List.mem_cons_self, heq⟩] at he
        cases he
  | case3 acc s hs t rest' hread ih =>
    rw [readParameters_of_ne hs, hread]
    refine ih.trans ?_
    obtain ⟨ht, rfl⟩ := FieldType.read_eq_ok_iff.mp hread
    constructor
    · rintro ⟨us, rfl, hus, rfl⟩
      refine ⟨t :: us, by simp, ?_, by simp⟩
      intro u hu
      rcases List.mem_cons.mp hu with rfl | hu
      · exact ht
      · exact hus u hu
    · rintro ⟨us, rfl, hus, heq⟩
      cases us with
      | nil => exact absurd heq (hs rest)
      | cons u us =>
        rw [List.flatMap_cons, List.append_assoc] at heq
        rw [FieldType.read_eq_ok_iff.mpr ⟨hus u List.mem_cons_self, heq⟩] at hread
        cases hread
        exact ⟨us, by simp, fun v hv => hus v (List.mem_cons_of_mem _ hv), rfl⟩

/-- What stands after the parameters. -/
def returnChars (returns : Option (FieldType String)) : List Char := (returns.map FieldType.chars).getD ['V']

theorem readReturn_eq_ok_iff {s rest : List Char} {returns : Option (FieldType String)} :
    readReturn s = .ok (returns, rest) ↔ (∀ t ∈ returns, t.IsSpellable) ∧ s = returnChars returns ++ rest := by
  unfold readReturn
  split
  · rename_i u
    rw [Except.ok.injEq, Prod.mk.injEq]
    cases returns with
    | none => simp [returnChars]
    | some t =>
      simp only [reduceCtorEq, false_and, false_iff]
      rintro ⟨-, heq⟩
      have hchars : t.chars ++ rest = 'V' :: u := heq.symm
      exact absurd rfl (FieldType.head_chars_ne hchars).1
  · rename_i hs
    simp only [Except.map_eq_ok, Prod.exists, FieldType.read_eq_ok_iff, Prod.mk.injEq]
    cases returns with
    | none => simpa [returnChars] using hs rest
    | some t => simp [returnChars]

theorem MethodDescriptor.chars_append (d : MethodDescriptor String) (rest : List Char) :
    d.chars ++ rest = '(' :: (d.parameters.flatMap FieldType.chars ++ ')' :: (returnChars d.returns ++ rest)) := by
  simp [chars, returnChars]

theorem MethodDescriptor.read_eq_ok_iff {s rest : List Char} {d : MethodDescriptor String} :
    MethodDescriptor.read s = .ok (d, rest) ↔ d.IsSpellable ∧ s = d.chars ++ rest := by
  rw [d.chars_append]
  unfold read
  split
  · rename_i u
    rw [List.cons.injEq, and_iff_right rfl]
    constructor
    · intro h
      split at h
      · cases h
      · rename_i parameters u' hparameters
        obtain ⟨⟨returns, rest'⟩, hreturns, heq⟩ := Except.map_eq_ok.mp h
        cases heq
        obtain ⟨us, rfl, hus, rfl⟩ := readParameters_eq_ok_iff.mp hparameters
        obtain ⟨hspell, rfl⟩ := readReturn_eq_ok_iff.mp hreturns
        exact ⟨⟨hus, hspell⟩, rfl⟩
    · rintro ⟨hd, rfl⟩
      rw [readParameters_eq_ok_iff.mpr ⟨d.parameters, rfl, hd.parameters, rfl⟩]
      exact Except.map_eq_ok.mpr ⟨_, readReturn_eq_ok_iff.mpr ⟨hd.returns, rfl⟩, rfl⟩
  · rename_i hs
    simp only [reduceCtorEq, false_iff]
    rintro ⟨-, heq⟩
    exact hs _ heq

/-! ### Whole texts -/

theorem DescriptorReader.parse_eq_ok_iff {α : Type} {read : DescriptorReader α} {s : String} {a : α} :
    read.parse s = .ok a ↔ read s.toList = .ok (a, []) := by
  unfold parse
  rcases read s.toList with e | ⟨b, _ | ⟨c, rest⟩⟩ <;> simp

theorem FieldType.parse_eq_ok_iff {s : String} {t : FieldType String} :
    FieldType.parse s = .ok t ↔ t.IsSpellable ∧ s.toList = t.chars := by
  rw [parse, DescriptorReader.parse_eq_ok_iff, read_eq_ok_iff, List.append_nil]

theorem MethodDescriptor.parse_eq_ok_iff {s : String} {d : MethodDescriptor String} :
    MethodDescriptor.parse s = .ok d ↔ d.IsSpellable ∧ s.toList = d.chars := by
  rw [parse, DescriptorReader.parse_eq_ok_iff, read_eq_ok_iff, List.append_nil]

@[simp] theorem FieldType.toList_render (t : FieldType String) : t.render.toList = t.chars := String.toList_ofList

@[simp] theorem MethodDescriptor.toList_render (d : MethodDescriptor String) : d.render.toList = d.chars :=
  String.toList_ofList

/-- The text that a type is read from is the one that it is written as. -/
theorem FieldType.parse_eq_ok_iff_render {s : String} {t : FieldType String} :
    FieldType.parse s = .ok t ↔ t.IsSpellable ∧ t.render = s := by
  rw [parse_eq_ok_iff, ← t.toList_render, String.toList_inj, eq_comm (a := s)]

theorem MethodDescriptor.parse_eq_ok_iff_render {s : String} {d : MethodDescriptor String} :
    MethodDescriptor.parse s = .ok d ↔ d.IsSpellable ∧ d.render = s := by
  rw [parse_eq_ok_iff, ← d.toList_render, String.toList_inj, eq_comm (a := s)]

theorem FieldType.parse_render {t : FieldType String} (ht : t.IsSpellable) : parse t.render = .ok t :=
  parse_eq_ok_iff_render.mpr ⟨ht, rfl⟩

/-! ## Checks -/

theorem exists_className (s : List Char) : ∃ name : String, name.toList = s := ⟨String.ofList s, String.toList_ofList⟩

/-- The brackets of an array say nothing about its element. -/
theorem isFieldDescriptor_replicate (n : Nat) (u : List Char) :
    isFieldDescriptor (List.replicate n '[' ++ u) = isFieldDescriptor u := by
  induction n with
  | zero => rfl
  | succ n ih => rw [List.replicate_succ, List.cons_append, isFieldDescriptor, ih]

theorem isFieldDescriptor_iff {s : List Char} :
    isFieldDescriptor s = true ↔ ∃ t : FieldType String, t.IsSpellable ∧ s = t.chars := by
  fun_induction isFieldDescriptor s with
  | case1 =>
    simp only [Bool.false_eq_true, false_iff]
    rintro ⟨t, -, ht⟩
    exact t.chars_ne_nil ht.symm
  | case2 rest ih =>
    rw [ih]
    constructor
    · rintro ⟨t, ht, rfl⟩
      exact ⟨t.arrayOf, t.isSpellable_arrayOf.mpr ht, t.chars_arrayOf.symm⟩
    · rintro ⟨t, ht, heq⟩
      rcases t.chars_cases with ⟨b, -, hchars⟩ | ⟨name, -, hchars⟩ | ⟨u, rfl, hchars⟩ <;> rw [hchars] at heq
      · exact absurd (List.cons.inj heq).1.symm b.letter_ne.2.1
      · cases heq
      · exact ⟨u, u.isSpellable_arrayOf.mp ht, (List.cons.inj heq).2⟩
  | case3 rest =>
    rw [beq_iff_eq]
    constructor
    · intro h
      by_cases hmem : ';' ∈ rest
      · obtain ⟨v, w, rfl, hv⟩ := List.eq_append_cons_of_mem hmem
        rw [dropWhile_bne_append w hv] at h
        obtain ⟨name, rfl⟩ := exists_className v
        exact ⟨.ref (.object name), hv, by rw [(List.cons.inj h).2]; rfl⟩
      · rw [dropWhile_bne_of_not_mem hmem] at h
        cases h
    · rintro ⟨t, ht, heq⟩
      rcases t.chars_cases with ⟨b, -, hchars⟩ | ⟨name, rfl, hchars⟩ | ⟨u, -, hchars⟩ <;> rw [hchars] at heq
      · exact absurd (List.cons.inj heq).1.symm b.letter_ne.1
      · rw [(List.cons.inj heq).2, dropWhile_bne_append [] ht]
      · cases heq
  | case4 c rest hbracket hclass =>
    rw [Bool.and_eq_true, isBaseLetter_iff, List.isEmpty_iff]
    constructor
    · rintro ⟨⟨b, rfl⟩, rfl⟩
      exact ⟨.base b, trivial, rfl⟩
    · rintro ⟨t, -, heq⟩
      rcases t.chars_cases with ⟨b, -, hchars⟩ | ⟨name, -, hchars⟩ | ⟨u, -, hchars⟩ <;> rw [hchars] at heq
      · exact ⟨⟨b, (List.cons.inj heq).1⟩, (List.cons.inj heq).2⟩
      · exact absurd (List.cons.inj heq).1 hclass
      · exact absurd (List.cons.inj heq).1 hbracket

theorem isValidFieldDescriptor_iff_render {s : String} :
    isValidFieldDescriptor s = true ↔ ∃ t : FieldType String, t.IsSpellable ∧ s = t.render := by
  have hrender (t : FieldType String) : s = t.render ↔ s.toList = t.chars := by
    rw [← t.toList_render, String.toList_inj]
  simp only [isValidFieldDescriptor, isFieldDescriptor_iff, hrender]

/-- The first parameter of a spelling that is not empty. -/
theorem exists_first_of_flatMap {ts : List (FieldType String)} {c : Char} {s : List Char}
    (h : c :: s = ts.flatMap FieldType.chars) :
    ∃ t us, ts = t :: us ∧ c :: s = t.chars ++ us.flatMap FieldType.chars := by
  cases ts with
  | nil => cases h
  | cons t us => exact ⟨t, us, rfl, h.trans List.flatMap_cons⟩

theorem areParameters_iff {s : List Char} :
    areParameters s = true ↔
      ∃ ts : List (FieldType String), (∀ t ∈ ts, t.IsSpellable) ∧ s = ts.flatMap FieldType.chars := by
  fun_induction areParameters s with
  | case1 => exact iff_of_true rfl ⟨[], by simp, rfl⟩
  | case2 rest ih =>
    rw [Bool.and_eq_true, ih, Bool.not_eq_true', List.isEmpty_eq_false_iff]
    constructor
    · rintro ⟨hne, ts, hts, rfl⟩
      cases ts with
      | nil => exact absurd rfl hne
      | cons t us =>
        rw [List.forall_mem_cons] at hts
        exact ⟨t.arrayOf :: us, List.forall_mem_cons.mpr ⟨t.isSpellable_arrayOf.mpr hts.1, hts.2⟩, by simp⟩
    · rintro ⟨ts, hts, heq⟩
      obtain ⟨t, us, rfl, hfirst⟩ := exists_first_of_flatMap heq
      rw [List.forall_mem_cons] at hts
      rcases t.chars_cases with ⟨b, -, hchars⟩ | ⟨name, -, hchars⟩ | ⟨u, rfl, hchars⟩ <;> rw [hchars] at hfirst
      · exact absurd (List.cons.inj hfirst).1.symm b.letter_ne.2.1
      · cases hfirst
      · obtain rfl : rest = u.chars ++ us.flatMap FieldType.chars := (List.cons.inj hfirst).2
        refine ⟨by simp [u.chars_ne_nil], u :: us, ?_, rfl⟩
        exact List.forall_mem_cons.mpr ⟨u.isSpellable_arrayOf.mp hts.1, hts.2⟩
  | case3 rest ih =>
    rw [Bool.and_eq_true, ih, Bool.not_eq_true', List.isEmpty_eq_false_iff]
    constructor
    · rintro ⟨hne, ts, hts, heq⟩
      have hmem : ';' ∈ rest := Decidable.byContradiction fun hmem => hne (dropWhile_bne_of_not_mem hmem)
      obtain ⟨v, w, rfl, hv⟩ := List.eq_append_cons_of_mem hmem
      rw [dropWhile_bne_append w hv] at heq
      obtain ⟨name, rfl⟩ := exists_className v
      obtain rfl : w = ts.flatMap FieldType.chars := heq
      exact ⟨.ref (.object name) :: ts, List.forall_mem_cons.mpr ⟨hv, hts⟩,
        by simp [FieldType.chars, RefType.chars, classText]⟩
    · rintro ⟨ts, hts, heq⟩
      obtain ⟨t, us, rfl, hfirst⟩ := exists_first_of_flatMap heq
      rw [List.forall_mem_cons] at hts
      rcases t.chars_cases with ⟨b, -, hchars⟩ | ⟨name, rfl, hchars⟩ | ⟨u, -, hchars⟩ <;> rw [hchars] at hfirst
      · exact absurd (List.cons.inj hfirst).1.symm b.letter_ne.1
      · obtain rfl : rest = name.toList ++ ';' :: us.flatMap FieldType.chars := by simpa using hfirst
        rw [dropWhile_bne_append _ hts.1]
        exact ⟨List.cons_ne_nil _ _, us, hts.2, rfl⟩
      · cases hfirst
  | case4 c rest hbracket hclass ih =>
    rw [Bool.and_eq_true, isBaseLetter_iff, ih]
    constructor
    · rintro ⟨⟨b, rfl⟩, ts, hts, rfl⟩
      exact ⟨.base b :: ts, List.forall_mem_cons.mpr ⟨trivial, hts⟩, rfl⟩
    · rintro ⟨ts, hts, heq⟩
      obtain ⟨t, us, rfl, hfirst⟩ := exists_first_of_flatMap heq
      rw [List.forall_mem_cons] at hts
      rcases t.chars_cases with ⟨b, -, hchars⟩ | ⟨name, -, hchars⟩ | ⟨u, -, hchars⟩ <;> rw [hchars] at hfirst
      · exact ⟨⟨b, (List.cons.inj hfirst).1⟩, us, hts.2, (List.cons.inj hfirst).2⟩
      · exact absurd (List.cons.inj hfirst).1 hclass
      · exact absurd (List.cons.inj hfirst).1 hbracket

theorem isReturnDescriptor_iff {s : List Char} :
    isReturnDescriptor s = true ↔ ∃ returns, (∀ t ∈ returns, t.IsSpellable) ∧ s = returnChars returns := by
  rw [isReturnDescriptor, Bool.or_eq_true, beq_iff_eq, isFieldDescriptor_iff]
  constructor
  · rintro (rfl | ⟨t, ht, rfl⟩)
    · exact ⟨none, by simp, rfl⟩
    · exact ⟨some t, by simpa using ht, rfl⟩
  · rintro ⟨returns, hreturns, rfl⟩
    cases returns with
    | none => exact .inl rfl
    | some t => exact .inr ⟨t, hreturns t rfl, rfl⟩

theorem not_mem_flatMap_chars {c : Char} {ts : List (FieldType String)} :
    c ∉ ts.flatMap FieldType.chars ↔ ∀ t ∈ ts, c ∉ t.chars := by
  simp [List.mem_flatMap]

/-- The parameters that the check sees end at the first `)`, so none of them holds one. -/
theorem isMethodDescriptor_iff {s : List Char} :
    isMethodDescriptor s = true ↔
      ∃ d : MethodDescriptor String, d.IsSpellable ∧ (∀ t ∈ d.parameters, ')' ∉ t.chars) ∧ s = d.chars := by
  have hchars (d : MethodDescriptor String) :
      d.chars = '(' :: (d.parameters.flatMap FieldType.chars ++ ')' :: returnChars d.returns) := rfl
  constructor
  · intro h
    cases s with
    | nil => cases h
    | cons c rest =>
      by_cases hopen : c = '('
      · subst hopen
        by_cases hmem : ')' ∈ rest
        · obtain ⟨v, w, rfl, hv⟩ := List.eq_append_cons_of_mem hmem
          rw [isMethodDescriptor, dropWhile_bne_append w hv] at h
          simp only [takeWhile_bne_append w hv, Bool.and_eq_true, isReturnDescriptor_iff, areParameters_iff] at h
          obtain ⟨⟨returns, hreturns, rfl⟩, ts, hts, rfl⟩ := h
          exact ⟨⟨ts, returns⟩, ⟨hts, hreturns⟩, not_mem_flatMap_chars.mp hv, rfl⟩
        · rw [isMethodDescriptor, dropWhile_bne_of_not_mem hmem] at h
          cases h
      · rw [isMethodDescriptor] at h
        · cases h
        · rintro rest' heq
          exact hopen (List.cons.inj heq).1
  · rintro ⟨d, hd, hparameters, rfl⟩
    have hno := not_mem_flatMap_chars.mpr hparameters
    rw [hchars, isMethodDescriptor, dropWhile_bne_append _ hno]
    simp only [takeWhile_bne_append _ hno, Bool.and_eq_true, isReturnDescriptor_iff, areParameters_iff]
    exact ⟨⟨d.returns, hd.returns, rfl⟩, d.parameters, hd.parameters, rfl⟩

/-- What the check accepts can be parsed. -/
theorem MethodDescriptor.exists_parse_of_valid {s : String} (h : isValidMethodDescriptor s = true) :
    ∃ d, MethodDescriptor.parse s = .ok d := by
  obtain ⟨d, hd, -, hs⟩ := isMethodDescriptor_iff.mp h
  exact ⟨d, parse_eq_ok_iff.mpr ⟨hd, hs⟩⟩

/-- The check accepts what the parser does, unless a class name among the parameters holds a `)`. -/
theorem isValidMethodDescriptor_iff_parse {s : String} :
    isValidMethodDescriptor s = true ↔
      ∃ d, MethodDescriptor.parse s = .ok d ∧ ∀ t ∈ d.parameters, ')' ∉ t.chars := by
  rw [isValidMethodDescriptor, isMethodDescriptor_iff]
  constructor
  · rintro ⟨d, hd, hparameters, hs⟩
    exact ⟨d, MethodDescriptor.parse_eq_ok_iff.mpr ⟨hd, hs⟩, hparameters⟩
  · rintro ⟨d, hparse, hparameters⟩
    obtain ⟨hd, hs⟩ := MethodDescriptor.parse_eq_ok_iff.mp hparse
    exact ⟨d, hd, hparameters, hs⟩

/-- Such a class name makes a descriptor that parses and is refused. -/
theorem method_descriptor_with_parenthesis_refused :
    isValidMethodDescriptor "(La)b;)V" = false ∧
      MethodDescriptor.parse "(La)b;)V" = .ok ⟨[.ref (.object "a)b")], none⟩ := by
  refine ⟨by rfl, MethodDescriptor.parse_eq_ok_iff.mpr ⟨⟨?_, fun _ h => nomatch h⟩, by decide⟩⟩
  intro t ht
  rw [List.mem_singleton.mp ht]
  show ';' ∉ "a)b".toList
  decide

end JvmClass
