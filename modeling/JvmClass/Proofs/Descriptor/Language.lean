/-
  JvmClass.Proofs.Descriptor.Language — descriptors are the texts of types.

  Reading and writing are inverse to each other: a type whose class names can be spelled is read back from
  its text, and a text that is read as a type is the text of that type (`parsing_inverts_rendering`). So two
  texts never are the same type. The check of a field descriptor looks for the first `;` among the bytes of
  a text and builds nothing, where the parser goes through its characters; still both accept the same texts,
  and with these their dotted forms (`field_descriptor_checks_agree`).
-/

import JvmClass.Proofs.Descriptor.Dotted
import JvmClass.Proofs.Trapping.Bytes

namespace JvmClass

/-! ## Parsing and rendering -/

/-- Types and their texts are one to one. What the parser does not read back are the types with a `;` in a
    class name. -/
theorem parsing_inverts_rendering :
    ((∀ t : FieldType String, FieldType.parse t.render = .ok t ↔ t.IsSpellable) ∧
      (∀ s t, FieldType.parse s = .ok t → t.render = s) ∧
      ∀ s s' t, FieldType.parse s = .ok t → FieldType.parse s' = .ok t → s = s') ∧
    (∀ d : MethodDescriptor String, MethodDescriptor.parse d.render = .ok d ↔ d.IsSpellable) ∧
      (∀ s d, MethodDescriptor.parse s = .ok d → d.render = s) ∧
      ∀ s s' d, MethodDescriptor.parse s = .ok d → MethodDescriptor.parse s' = .ok d → s = s' := by
  have hfield (s : String) (t : FieldType String) (h : FieldType.parse s = .ok t) : t.render = s :=
    (FieldType.parse_eq_ok_iff_render.mp h).2
  have hmethod (s : String) (d : MethodDescriptor String) (h : MethodDescriptor.parse s = .ok d) : d.render = s :=
    (MethodDescriptor.parse_eq_ok_iff_render.mp h).2
  refine ⟨⟨?_, hfield, ?_⟩, ?_, hmethod, ?_⟩
  · intro t
    rw [FieldType.parse_eq_ok_iff_render, and_iff_left rfl]
  · intro s s' t h h'
    rw [← hfield s t h, hfield s' t h']
  · intro d
    rw [MethodDescriptor.parse_eq_ok_iff_render, and_iff_left rfl]
  · intro s s' d h h'
    rw [← hmethod s d h, hmethod s' d h']

/-- The arguments of a program, in two dimensions as a field, and as the parameter of a method. -/
theorem parsing_inverts_rendering_of_arguments :
    let arguments : FieldType String := .ref (.objectArray 1 "java/lang/String")
    let main : MethodDescriptor String := ⟨[arguments, .base .long], none⟩
    (FieldType.parse "[[Ljava/lang/String;" = .ok arguments ∧ arguments.render = "[[Ljava/lang/String;") ∧
      MethodDescriptor.parse "([[Ljava/lang/String;J)V" = .ok main ∧
        main.render = "([[Ljava/lang/String;J)V" := by
  intro arguments main
  have hspellable : arguments.IsSpellable := by
    show ';' ∉ "java/lang/String".toList
    decide
  have hfield : FieldType.parse "[[Ljava/lang/String;" = .ok arguments :=
    (parsing_inverts_rendering.1.1 arguments).mpr hspellable
  have hmethod : MethodDescriptor.parse "([[Ljava/lang/String;J)V" = .ok main :=
    (parsing_inverts_rendering.2.1 main).mpr ⟨by simpa [main, FieldType.IsSpellable] using hspellable, by simp [main]⟩
  exact ⟨⟨hfield, parsing_inverts_rendering.1.2.1 _ _ hfield⟩, hmethod, parsing_inverts_rendering.2.2.1 _ _ hmethod⟩

/-! ## Parsing and the check -/

/-- The check and the parser accept the same texts, and with a text its dotted form, which is the same type
    but for the dots in its class name. The check of the bytes ends on every text, reads no byte that is not
    there, and says the same. -/
theorem field_descriptor_checks_agree (s : String) :
    (isValidFieldDescriptor s = true ↔ ∃ t, FieldType.parse s = .ok t) ∧
      isValidFieldDescriptor (dotted s) = isValidFieldDescriptor s ∧
      (∀ t, FieldType.parse s = .ok t →
        isValidFieldDescriptor (dotted s) = true ∧ FieldType.parse (dotted s) = .ok (t.map dotted)) ∧
      Trapping.Bytes.isFieldDescriptor s.toUTF8.data.toList = some (isValidFieldDescriptor s) := by
  have hvalid {s : String} : isValidFieldDescriptor s = true ↔ ∃ t, FieldType.parse s = .ok t := by
    simp only [isValidFieldDescriptor, isFieldDescriptor_iff, FieldType.parse_eq_ok_iff]
  refine ⟨hvalid, isValidFieldDescriptor_dotted s, ?_, ?_⟩
  · intro t ht
    have hdotted := FieldType.parse_dotted ht
    exact ⟨hvalid.mpr ⟨_, hdotted⟩, hdotted⟩
  · rw [Trapping.Bytes.toList_toUTF8, Trapping.Bytes.isFieldDescriptor_eq, isValidFieldDescriptor]

theorem field_descriptor_checks_agree_on_array :
    isValidFieldDescriptor "[[Lfoo/Bar;" = true ∧ isValidFieldDescriptor "[[Lfoo.Bar;" = true ∧
      FieldType.parse "[[Lfoo.Bar;" = .ok (.ref (.objectArray 1 "foo.Bar")) := by
  have hparse : FieldType.parse "[[Lfoo/Bar;" = .ok (.ref (.objectArray 1 "foo/Bar")) :=
    FieldType.parse_eq_ok_iff.mpr ⟨by show ';' ∉ "foo/Bar".toList; decide, rfl⟩
  obtain ⟨hvalid, -, hdotted, -⟩ := field_descriptor_checks_agree "[[Lfoo/Bar;"
  have htext : dotted "[[Lfoo/Bar;" = "[[Lfoo.Bar;" := String.toList_inj.mp (by rw [toList_dotted]; decide)
  have hname : dotted "foo/Bar" = "foo.Bar" := String.toList_inj.mp (by rw [toList_dotted]; decide)
  have htype := hdotted _ hparse
  rw [htext, FieldType.map, RefType.map, hname] at htype
  exact ⟨hvalid.mpr ⟨_, hparse⟩, htype⟩

end JvmClass
