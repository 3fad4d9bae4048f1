/-
  JvmClass.Proofs.Descriptor.Dotted — descriptors stay descriptors with `.` in class names.

  The checks look at no character that dotting changes or makes, so they say the same of a text
  and of its dotted form (`isValidMethodDescriptor_dotted`). A dotted text parses to the type that
  the text itself parses to, with its class names dotted (`FieldType.parse_dotted`,
  `MethodDescriptor.parse_dotted`).
-/

import JvmClass.Name
import JvmClass.Proofs.Descriptor.Spelling

namespace JvmClass

/-! ## Characters -/

theorem dottedChar_beq {c d : Char} (hdot : d ≠ '.') (hslash : d ≠ '/') : (dottedChar c == d) = (c == d) := by
  unfold dottedChar
  split
  · rename_i hc
    subst hc
    rw [beq_eq_false_iff_ne.mpr hdot.symm, beq_eq_false_iff_ne.mpr hslash.symm]
  · rfl

theorem dottedChar_of_ne {c : Char} (h : c ≠ '/') : dottedChar c = c := if_neg h

theorem isBaseLetter_dottedChar (c : Char) : isBaseLetter (dottedChar c) = isBaseLetter c := by
  by_cases h : c = '/'
  · subst h
    rfl
  · rw [dottedChar_of_ne h]

theorem toList_dotted (s : String) : (dotted s).toList = s.toList.map dottedChar := by
  simp [dotted]

/-- A dotted text has no `/`. -/
theorem slash_not_mem_dotted (s : String) : '/' ∉ (dotted s).toList := by
  rw [toList_dotted, List.mem_map]
  intro ⟨c, _, hc⟩
  unfold dottedChar at hc
  split at hc
  · cases hc
  · rename_i h
    exact h hc

/-! ## Checks -/

section

variable {d : Char} (hdot : d ≠ '.') (hslash : d ≠ '/') (s : List Char)
include hdot hslash

theorem dropWhile_map_dottedChar :
    (s.map dottedChar).dropWhile (· != d) = (s.dropWhile (· != d)).map dottedChar := by
  rw [List.dropWhile_map]
  congr 2
  funext c
  simp only [Function.comp_apply, bne, dottedChar_beq hdot hslash]

theorem takeWhile_map_dottedChar :
    (s.map dottedChar).takeWhile (· != d) = (s.takeWhile (· != d)).map dottedChar := by
  rw [List.takeWhile_map]
  congr 2
  funext c
  simp only [Function.comp_apply, bne, dottedChar_beq hdot hslash]

theorem map_dottedChar_beq_singleton : (s.map dottedChar == [d]) = (s == [d]) := by
  match s with
  | [] => rfl
  | [c] =>
    show (dottedChar c == d && true) = (c == d && true)
    rw [dottedChar_beq hdot hslash]
  | c :: c' :: rest =>
    show (dottedChar c == d && false) = (c == d && false)
    rw [Bool.and_false, Bool.and_false]

end

theorem dottedChar_ne {c d : Char} (hdot : d ≠ '.') (hslash : d ≠ '/') (h : c ≠ d) : dottedChar c ≠ d := by
  have hbeq : (dottedChar c == d) = (c == d) := dottedChar_beq hdot hslash
  rw [beq_eq_false_iff_ne.mpr h] at hbeq
  exact beq_eq_false_iff_ne.mp hbeq

theorem isFieldDescriptor_map (s : List Char) : isFieldDescriptor (s.map dottedChar) = isFieldDescriptor s := by
  fun_induction isFieldDescriptor s with
  | case1 => rfl
  | case2 rest ih => exact ih
  | case3 rest =>
    show ((rest.map dottedChar).dropWhile (· != ';') == [';']) = _
    rw [dropWhile_map_dottedChar (by decide) (by decide), map_dottedChar_beq_singleton (by decide) (by decide)]
  | case4 c rest hbracket hclass =>
    rw [List.map_cons, isFieldDescriptor, isBaseLetter_dottedChar, List.isEmpty_map]
    · exact dottedChar_ne (by decide) (by decide) hbracket
    · exact dottedChar_ne (by decide) (by decide) hclass

theorem areParameters_map (s : List Char) : areParameters (s.map dottedChar) = areParameters s := by
  fun_induction areParameters s with
  | case1 => exact areParameters.eq_1
  | case2 rest ih =>
    rw [List.map_cons, show dottedChar '[' = '[' from rfl, areParameters, ih, List.isEmpty_map]
  | case3 rest ih =>
    rw [List.map_cons, show dottedChar 'L' = 'L' from rfl, areParameters,
      dropWhile_map_dottedChar (by decide) (by decide), ← List.map_drop, ih, List.isEmpty_map]
  | case4 c rest hbracket hclass ih =>
    rw [List.map_cons, areParameters, isBaseLetter_dottedChar, ih]
    · exact dottedChar_ne (by decide) (by decide) hbracket
    · exact dottedChar_ne (by decide) (by decide) hclass

theorem isReturnDescriptor_map (s : List Char) : isReturnDescriptor (s.map dottedChar) = isReturnDescriptor s := by
  rw [isReturnDescriptor, isReturnDescriptor, map_dottedChar_beq_singleton (by decide) (by decide),
    isFieldDescriptor_map]

theorem isMethodDescriptor_map (s : List Char) : isMethodDescriptor (s.map dottedChar) = isMethodDescriptor s := by
  fun_cases isMethodDescriptor s with
  | case1 rest c returns hsplit =>
    rw [List.map_cons, show dottedChar '(' = '(' from rfl, isMethodDescriptor,
      dropWhile_map_dottedChar (by decide) (by decide), hsplit, List.map_cons]
    simp only [takeWhile_map_dottedChar (show ')' ≠ '.' by decide) (show ')' ≠ '/' by decide), areParameters_map,
      isReturnDescriptor_map]
  | case2 rest hsplit =>
    rw [List.map_cons, show dottedChar '(' = '(' from rfl, isMethodDescriptor,
      dropWhile_map_dottedChar (by decide) (by decide), hsplit]
    rfl
  | case3 s hs =>
    cases s with
    | nil => rfl
    | cons c rest =>
      rw [List.map_cons, isMethodDescriptor]
      intro rest' h
      injection h with hc _
      refine dottedChar_ne (by decide) (by decide) ?_ hc
      intro hc'
      exact hs rest (by rw [hc'])

theorem isValidFieldDescriptor_dotted (s : String) : isValidFieldDescriptor (dotted s) = isValidFieldDescriptor s := by
  rw [isValidFieldDescriptor, toList_dotted, isFieldDescriptor_map, isValidFieldDescriptor]

theorem isValidMethodDescriptor_dotted (s : String) :
    isValidMethodDescriptor (dotted s) = isValidMethodDescriptor s := by
  rw [isValidMethodDescriptor, toList_dotted, isMethodDescriptor_map, isValidMethodDescriptor]

/-! ## Types -/

def MethodDescriptor.map {C D : Type} (f : C → D) (d : MethodDescriptor C) : MethodDescriptor D :=
  ⟨d.parameters.map (·.map f), d.returns.map (·.map f)⟩

theorem BaseType.dottedChar_letter (b : BaseType) : dottedChar b.letter = b.letter := by
  cases b <;> rfl

theorem classText_dotted (name : String) : classText (dotted name) = (classText name).map dottedChar := by
  simp only [classText, toList_dotted, List.map_cons, List.map_append, List.map_nil]
  rfl

theorem FieldType.chars_map_dotted (t : FieldType String) : (t.map dotted).chars = t.chars.map dottedChar := by
  have hbracket : dottedChar '[' = '[' := rfl
  rcases t with b | (c | ⟨n, c⟩ | ⟨n, b⟩)
  · simp only [map, chars, List.map_cons, List.map_nil, b.dottedChar_letter]
  · exact classText_dotted c
  · simp only [map, chars, RefType.map, RefType.chars, classText_dotted, List.map_append, List.map_replicate,
      hbracket]
  · simp only [map, chars, RefType.map, RefType.chars, List.map_append, List.map_replicate, hbracket,
      List.map_cons, List.map_nil, b.dottedChar_letter]

theorem semicolon_mem_dotted_iff {s : String} : ';' ∈ (dotted s).toList ↔ ';' ∈ s.toList := by
  rw [toList_dotted, List.mem_map]
  constructor
  · rintro ⟨c, hc, hsemicolon⟩
    by_cases hne : c = ';'
    · exact hne ▸ hc
    · exact absurd hsemicolon (dottedChar_ne (by decide) (by decide) hne)
  · intro h
    exact ⟨';', h, rfl⟩

theorem FieldType.isSpellable_map_dotted (t : FieldType String) : (t.map dotted).IsSpellable ↔ t.IsSpellable := by
  rcases t with b | (c | ⟨n, c⟩ | ⟨n, b⟩)
  · exact Iff.rfl
  · exact not_congr semicolon_mem_dotted_iff
  · exact not_congr semicolon_mem_dotted_iff
  · exact Iff.rfl

/-- A dotted descriptor has the same structure, with its class names dotted. -/
theorem FieldType.parse_dotted {s : String} {t : FieldType String} (h : parse s = .ok t) :
    parse (dotted s) = .ok (t.map dotted) := by
  obtain ⟨ht, hs⟩ := parse_eq_ok_iff.mp h
  exact parse_eq_ok_iff.mpr ⟨t.isSpellable_map_dotted.mpr ht, by rw [toList_dotted, hs, t.chars_map_dotted]⟩

theorem MethodDescriptor.parse_dotted {s : String} {d : MethodDescriptor String} (h : parse s = .ok d) :
    parse (dotted s) = .ok (d.map dotted) := by
  obtain ⟨hd, hs⟩ := parse_eq_ok_iff.mp h
  refine parse_eq_ok_iff.mpr ⟨⟨?_, ?_⟩, ?_⟩
  · exact List.forall_mem_map.mpr fun t ht => t.isSpellable_map_dotted.mpr (hd.parameters t ht)
  · intro t ht
    obtain ⟨u, hu, rfl⟩ := Option.map_eq_some_iff.mp (Option.mem_def.mp ht)
    exact u.isSpellable_map_dotted.mpr (hd.returns u hu)
  · have hreturns : (d.returns.map (·.map dotted)).map FieldType.chars =
        (d.returns.map FieldType.chars).map (List.map dottedChar) := by
      cases d.returns with
      | none => rfl
      | some t => exact congrArg some t.chars_map_dotted
    have hvoid : ['V'] = ['V'].map dottedChar := rfl
    rw [toList_dotted, hs, chars, chars, map, hreturns, hvoid, Option.getD_map]
    simp only [List.flatMap_map, FieldType.chars_map_dotted, List.map_cons, List.map_append, List.map_flatMap]
    rfl

/-! ## Void -/

theorem getLast?_isFieldDescriptor {s : List Char} (h : isFieldDescriptor s = true) : s.getLast? ≠ some 'V' := by
  fun_induction isFieldDescriptor s with
  | case1 => cases h
  | case2 rest ih =>
    cases rest with
    | nil => cases h
    | cons c rest =>
      rw [List.getLast?_cons_cons]
      exact ih h
  | case3 rest =>
    have hrest := List.takeWhile_append_dropWhile (p := (· != ';')) (l := rest)
    rw [beq_iff_eq.mp h] at hrest
    rw [← hrest, ← List.cons_append, List.getLast?_concat]
    decide
  | case4 c rest hbracket hclass =>
    obtain ⟨hletter, hempty⟩ := Bool.and_eq_true_iff.mp h
    rw [List.isEmpty_iff.mp hempty]
    intro hc
    cases hc
    exact absurd hletter (by decide)

theorem void_of_getLast? {s : List Char} (h : isMethodDescriptor s = true) (hlast : s.getLast? = some 'V') :
    ∃ parameters, s = parameters ++ [')', 'V'] := by
  fun_cases isMethodDescriptor s with
  | case1 rest c returns hsplit =>
    have hc : c = ')' := by
      have hstop := List.head?_dropWhile_not (· != ')') rest
      rw [hsplit] at hstop
      simpa using hstop
    have hrest := List.takeWhile_append_dropWhile (p := (· != ')')) (l := rest)
    rw [hsplit, hc] at hrest
    rw [isMethodDescriptor, hsplit] at h
    obtain ⟨hreturns, -⟩ := Bool.and_eq_true_iff.mp h
    rw [← hrest]
    rcases Bool.or_eq_true_iff.mp hreturns with hv | hfield
    · refine ⟨'(' :: rest.takeWhile (· != ')'), ?_⟩
      rw [beq_iff_eq.mp hv]
      rfl
    · cases returns with
      | nil => cases hfield
      | cons r returns =>
        rw [← hrest, ← List.cons_append, List.getLast?_append, List.getLast?_cons_cons, List.getLast?_cons,
          Option.some_or, ← List.getLast?_cons] at hlast
        exact absurd hlast (getLast?_isFieldDescriptor hfield)
  | case2 rest hsplit =>
    rw [isMethodDescriptor, hsplit] at h
    cases h
  | case3 s hs =>
    rw [isMethodDescriptor] at h
    · cases h
    · exact hs

/-- A descriptor that ends with the letter of `void` returns nothing. -/
theorem void_of_endsInVoid {s : String} (h : isValidMethodDescriptor s = true) (hvoid : endsInVoid s = true) :
    ∃ parameters, (dotted s).toList = parameters ++ [')', 'V'] := by
  obtain ⟨parameters, hs⟩ := void_of_getLast? h (beq_iff_eq.mp hvoid)
  refine ⟨parameters.map dottedChar, ?_⟩
  rw [toList_dotted, hs, List.map_append]
  rfl

end JvmClass
