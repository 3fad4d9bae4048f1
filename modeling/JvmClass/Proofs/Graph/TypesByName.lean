/-
  JvmClass.Proofs.Graph.TypesByName — classes by name and by descriptor.

  A class can be mentioned by its name, as class constants do, and by a descriptor. A graph has one type for
  both, since it looks up the class that the descriptor names (`ClassGraph.fieldType_descriptorOf`), and an
  array is mentioned by its descriptor anyway. A class that the graph does not have gets two: a placeholder
  keeps the text that it was asked for (`ClassGraph.typesMatch`).

  `class_types_agree_with_descriptors` says so of every class constant that linking gives a type.
-/

import JvmClass.Graph.ClassGraph
import JvmClass.Graph.StandardClasses
import JvmClass.Proofs.Descriptor.ClassName
import JvmClass.Proofs.Descriptor.Dotted
import JvmClass.Proofs.Pool.Growth

namespace JvmClass

/-! ## Names of types -/

/-- A class constant of this name denotes an array. -/
def IsArrayName (name : String) : Prop := name.toList.head? = some '['

instance (name : String) : Decidable (IsArrayName name) := inferInstanceAs (Decidable (_ = _))

/-- The field descriptor of what a class constant of this name denotes. -/
def descriptorOf (name : String) : String := if IsArrayName name then name else "L" ++ name ++ ";"

theorem descriptorOf_ne {name : String} (h : ¬IsArrayName name) : descriptorOf name ≠ name := by
  intro heq
  have hlength := congrArg (fun s : String => s.toList.length) heq
  rw [descriptorOf, if_neg h] at hlength
  simp at hlength
  omega

theorem isIdentifierPart_semicolon : isIdentifierPart ';' = false := isIdentifierPart_reserved (by decide)

theorem semicolon_not_mem_tail {strict : Bool} {prev : Char} {s : List Char}
    (h : isClassNameTail strict prev s = true) : ';' ∉ s := by
  induction s generalizing prev with
  | nil => exact List.not_mem_nil
  | cons c rest ih =>
    obtain ⟨hfollows, hrest⟩ := Bool.and_eq_true_iff.mp h
    have hc : c ≠ ';' := by
      intro hsemicolon
      subst hsemicolon
      cases strict with
      | false => simp [mayFollow] at hfollows
      | true => simp [mayFollow, isIdentifierPart_semicolon] at hfollows
    exact List.not_mem_cons_of_ne_of_not_mem hc.symm (ih hrest)

/-- No class name that is let pass can be mistaken for the end of its descriptor. -/
theorem semicolon_not_mem_of_isValidClassName {s : String} {version : Version} {options : Options}
    (h : isValidClassName s version options = true) (harray : ¬IsArrayName s) : ';' ∉ s.toList := by
  unfold isValidClassName at h
  dsimp only at h
  split at h
  · cases h
  · rename_i rest hs
    exact absurd (show s.toList.head? = some '[' by rw [hs]; rfl) harray
  · rename_i first rest hbracket hs
    rw [hs]
    split at h
    · obtain ⟨hfirst, hrest⟩ := Bool.and_eq_true_iff.mp h
      refine List.not_mem_cons_of_ne_of_not_mem ?_ (semicolon_not_mem_tail hrest)
      intro hsemicolon
      rw [← hsemicolon] at hfirst
      rcases Bool.or_eq_true_iff.mp hfirst with hstart | hslash
      · exact absurd (isIdentifierPart_of_start hstart) (by rw [isIdentifierPart_semicolon]; decide)
      · cases hslash
    · exact semicolon_not_mem_tail h

theorem isArrayName_dotted {s : String} : IsArrayName (dotted s) ↔ IsArrayName s := by
  unfold IsArrayName
  rw [toList_dotted]
  cases s.toList with
  | nil => exact Iff.rfl
  | cons c rest =>
    have hhead : (dottedChar c == '[') = (c == '[') := dottedChar_beq (by decide) (by decide)
    simp only [List.map_cons, List.head?_cons, Option.some.injEq]
    rw [← beq_iff_eq, hhead, beq_iff_eq]

/-! ## Types -/

namespace ClassGraph

variable (g : ClassGraph) (asking : Asking HostType) {name : String}

/-- The class of this name, or a placeholder for it. -/
def classOr (name placeholder : String) : HostType := (g.find? name).elim (.unloadable placeholder) .ofClass

theorem name_of_find? {c : ClassInfo} (h : g.find? name = some c) : c.name = name := by
  rw [find?] at h
  have hcalled := List.find?_some h
  exact beq_iff_eq.mp hcalled

theorem typeNamed_of_array (h : IsArrayName name) : g.host.typeNamed asking name = g.fieldType name := by
  have hload : g.host.loadClass asking.type name asking.mode = g.load name := rfl
  have hbracket : name.toList.head? = some '[' := h
  rw [Host.typeNamed, hload, load, if_pos hbracket, fieldType]
  cases FieldType.parse name with
  | error fault => rfl
  | ok t =>
    dsimp only
    unfold resolveOr
    cases g.resolve t <;> rfl

theorem typeNamed_of_class (h : ¬IsArrayName name) : g.host.typeNamed asking name = g.classOr name name := by
  have hload : g.host.loadClass asking.type name asking.mode = (g.findClass name).map .ofClass := if_neg h
  rw [Host.typeNamed, hload, findClass, classOr]
  cases g.find? name <;> rfl

theorem fieldType_descriptorOf (h : ¬IsArrayName name) (hname : ';' ∉ name.toList) :
    g.fieldType (descriptorOf name) = g.classOr name (descriptorOf name) := by
  have hparse : FieldType.parse (descriptorOf name) = .ok (.ref (.object name)) := by
    refine FieldType.parse_eq_ok_iff.mpr ⟨hname, ?_⟩
    rw [descriptorOf, if_neg h, String.toList_append, String.toList_append]
    rfl
  rw [fieldType, hparse]
  show g.resolveOr _ _ = _
  rw [resolveOr, resolve, findClass, classOr]
  cases g.find? name <;> rfl

/-- The types that the graph has for a class, or for an array, by its name and by its descriptor. They are one,
    and named as the class is, unless the class is missing. -/
structure TypesMatch (name : String) (byName byDescriptor : HostType) : Prop where
  isSame_iff : byName.isSame byDescriptor = true ↔ IsArrayName name ∨ (g.find? name).isSome = true
  array : IsArrayName name → byName = byDescriptor ∧ ∀ n, byName.className? = some n → n = name
  present : ¬IsArrayName name → ∀ c, g.find? name = some c →
    byName = .ofClass c ∧ byDescriptor = .ofClass c ∧ byName.className? = some name
  missing : ¬IsArrayName name → g.find? name = none →
    byName = .unloadable name ∧ byDescriptor = .unloadable (descriptorOf name)

/-- The type of an array has no name, but its placeholder has. -/
theorem className?_fieldType {descriptor n : String} (h : IsArrayName descriptor)
    (hn : (g.fieldType descriptor).className? = some n) : n = descriptor := by
  have hplaceholder : GraphType.className? (.unloadable descriptor : HostType) = some n → n = descriptor :=
    fun h => (Option.some.inj h).symm
  unfold fieldType at hn
  cases hparse : FieldType.parse descriptor with
  | error fault =>
    rw [hparse] at hn
    exact hplaceholder hn
  | ok t =>
    simp only [hparse, resolveOr] at hn
    cases hresolve : g.resolve t with
    | error message =>
      rw [hresolve] at hn
      exact hplaceholder hn
    | ok type =>
      rw [hresolve] at hn
      rcases t with b | (c | ⟨extra, c⟩ | ⟨extra, b⟩)
      · cases hresolve
        cases hn
      · obtain ⟨-, htext⟩ := FieldType.parse_eq_ok_iff.mp hparse
        rw [IsArrayName, htext] at h
        cases h
      · obtain ⟨_, -, rfl⟩ := Except.map_eq_ok.mp hresolve
        cases hn
      · cases hresolve
        cases hn

theorem typesMatch (hname : ¬IsArrayName name → ';' ∉ name.toList) :
    g.TypesMatch name (g.host.typeNamed asking name) (g.fieldType (descriptorOf name)) := by
  by_cases h : IsArrayName name
  · have hself : descriptorOf name = name := if_pos h
    rw [hself, g.typeNamed_of_array asking h]
    exact ⟨iff_of_true (beq_self_eq_true _) (.inl h), fun _ => ⟨rfl, fun n => g.className?_fieldType h⟩,
      fun hclass => absurd h hclass, fun hclass => absurd h hclass⟩
  · rw [g.typeNamed_of_class asking h, g.fieldType_descriptorOf h (hname h)]
    cases hfind : g.find? name with
    | none =>
      have htypes (placeholder : String) : g.classOr name placeholder = .unloadable placeholder := by
        rw [classOr, hfind, Option.elim_none]
      have hdiffer : (GraphType.unloadable name : HostType).isSame (.unloadable (descriptorOf name)) = false :=
        beq_eq_false_iff_ne.mpr fun heq => descriptorOf_ne h (GraphType.unloadable.inj heq).symm
      rw [htypes, htypes]
      refine ⟨?_, fun harray => absurd harray h, fun _ c hc => ?_, fun _ _ => ⟨rfl, rfl⟩⟩
      · rw [hdiffer, hfind]
        simp [h]
      · cases hfind.symm.trans hc
    | some c =>
      have htypes (placeholder : String) : g.classOr name placeholder = .ofClass c := by
        rw [classOr, hfind, Option.elim_some]
      rw [htypes, htypes]
      refine ⟨?_, fun harray => absurd harray h, fun _ c' hc => ?_, fun _ hnone => ?_⟩
      · exact iff_of_true (beq_self_eq_true _) (.inr (by rw [hfind, Option.isSome_some]))
      · cases hfind.symm.trans hc
        exact ⟨rfl, rfl, congrArg some (g.name_of_find? hfind)⟩
      · cases hfind.symm.trans hnone

end ClassGraph

/-! ## Class constants -/

/-- The type that linking gives to a class that it loads. -/
theorem Pool.type?_link_of_required {T F M : Type} {p : Pool T F M} (hp : p.Addressable) {host : Host T F M}
    {thisClass : Index} {asking : Asking T} {i : Index} {item : ClassEntry T} (hi : p.entry i = .cls item)
    (hrequired : item.linkRequired = true) (hbefore : item.type.value? = none) (hother : thisClass ≠ i) :
    ((p.link host thisClass asking).pool.entry i).type? = some (host.typeNamed asking item.name) := by
  rw [hp.entry_link, entry_bindSelf, if_neg hother, hi, Entry.linked, Entry.type?, ClassEntry.linked, if_pos hrequired,
    SetOnce.fill_value?, hbefore, Option.getD_none]

/-- Whatever has been done to a resolved pool before: the type that linking it against a graph gives to a class
    constant of a valid name is that which the graph has for the descriptor of the class or array, unless it is
    a class that the graph does not have. Then each of the two is a placeholder for the text that it was asked
    for, so they differ, and only that of the constant is named as the class is. -/
theorem class_types_agree_with_descriptors {constants : List (Option Constant)}
    {patchings : List (String × List (Option (Patch ClassGraph.HostType)))} {rules : Rules}
    {draft patched : Draft ClassGraph.HostType}
    {p : Pool ClassGraph.HostType (Declaration .ofField) (Declaration .ofMethod)}
    (hbuild : Draft.ofConstants constants = .ok draft) (hpatch : draft.patchAll patchings = .ok patched)
    (hresolve : patched.resolve _ _ rules = .ok p)
    (us : List (Upkeep ClassGraph.HostType (Declaration .ofField) (Declaration .ofMethod))) (g : ClassGraph)
    (thisClass : Index) (asking : Asking ClassGraph.HostType) (i : Index) (item : ClassEntry ClassGraph.HostType)
    (hitem : (us.foldl Upkeep.apply p).entry i = .cls item) (hrequired : item.linkRequired = true)
    (hbefore : item.type.value? = none) (hother : thisClass ≠ i) (text : String) (version : Version)
    (options : Options) (hvalid : isValidClassName text version options = true) (hname : item.name = dotted text) :
    ∃ t, (((us.foldl Upkeep.apply p).link g.host thisClass asking).pool.entry i).type? = some t ∧
      g.TypesMatch item.name t (g.fieldType (descriptorOf item.name)) := by
  have haddressable := Upkeep.addressable_foldl (Pool.addressable_of_resolve hbuild hpatch hresolve) us
  refine ⟨_, Pool.type?_link_of_required haddressable hitem hrequired hbefore hother, ?_⟩
  refine g.typesMatch asking fun hclass => ?_
  rw [hname, isArrayName_dotted] at hclass
  rw [hname, semicolon_mem_dotted_iff]
  exact semicolon_not_mem_of_isValidClassName hvalid hclass

namespace TwoMentions

/-- A class constant and a field of the type that it denotes. -/
def constants : List (Option Constant) :=
  [none, some (.cls 2), some (.utf8 "me/Missing"), some (.member .field 4 6), some (.cls 5), some (.utf8 "p/A"),
    some (.nameAndType 7 8), some (.utf8 "x"), some (.utf8 "Lme/Missing;")]

def draft : Draft ClassGraph.HostType :=
  ⟨[.vacant, .cls 2 none none, .text "me/Missing", .member .field 4 6, .cls 5 none none, .text "p/A",
    .nameAndType 7 8, .text "x", .text "Lme/Missing;"]⟩

def pool : Pool ClassGraph.HostType (Declaration .ofField) (Declaration .ofMethod) := draft.resolved

def linked (g : ClassGraph) : Pool ClassGraph.HostType (Declaration .ofField) (Declaration .ofMethod) :=
  (((pool.require 1).require 3).link g.host 0 ⟨.void, .link⟩).pool

def graph : ClassGraph := ⟨[StandardClasses.bare "me.Missing" none [] StandardClasses.plainClass]⟩

end TwoMentions

theorem GraphType.eq_unloadable {t : GraphType ClassInfo} {name : String}
    (h : (t.isUnloadable, t.className?) = (true, some name)) : t = .unloadable name := by
  obtain ⟨hplaceholder, hname⟩ := Prod.mk.inj h
  cases t with
  | unloadable n => exact congrArg unloadable (Option.some.inj hname)
  | _ => cases hplaceholder

open TwoMentions in
/-- Where the class is not there, the constant and the field have different types. -/
theorem missing_class_has_two_types : ∃ t b,
    Draft.ofConstants constants = .ok draft ∧ draft.resolve _ _ ⟨Version.java8, {}⟩ = .ok pool ∧
    ((linked .empty).entry 1).type? = some t ∧ t.className? = some "me.Missing" ∧
    ((linked .empty).entry 3).fieldBinding? = some b ∧ b.type.className? = some "Lme.Missing;" ∧
    b.type = ClassGraph.empty.fieldType (descriptorOf "me.Missing") ∧ t.isSame b.type = false := by
  have houtline :
      ((linked .empty).entry 1).type?.map (fun t => (t.isUnloadable, t.className?)) =
        some (true, some "me.Missing") ∧
      ((linked .empty).entry 3).fieldBinding?.map (fun b => (b.type.isUnloadable, b.type.className?)) =
        some (true, some "Lme.Missing;") := by decide +kernel
  obtain ⟨t, ht, hconstant⟩ := Option.map_eq_some_iff.mp houtline.1
  obtain ⟨b, hb, hfield⟩ := Option.map_eq_some_iff.mp houtline.2
  have hdescriptor : ClassGraph.empty.fieldType (descriptorOf "me.Missing") = .unloadable "Lme.Missing;" := by
    rw [ClassGraph.fieldType_descriptorOf _ (by decide) (by decide)]
    rfl
  rw [GraphType.eq_unloadable hconstant] at ht
  have hbound : b.type = .unloadable "Lme.Missing;" := GraphType.eq_unloadable hfield
  refine ⟨_, b, rfl, Draft.resolve_of_isSome (by decide +kernel), ht, rfl, hb, congrArg _ hbound,
    hbound.trans hdescriptor.symm, ?_⟩
  rw [hbound]
  decide +kernel

open TwoMentions in
theorem class_types_agree_with_descriptors_present : ∃ t,
    ((linked graph).entry 1).type? = some t ∧ t = graph.fieldType "Lme.Missing;" ∧ t.className? = some "me.Missing" := by
  have hbuild : Draft.ofConstants constants = .ok draft := rfl
  have hpatch : draft.patchAll [] = .ok draft := rfl
  have hresolve : draft.resolve (Declaration .ofField) (Declaration .ofMethod) ⟨Version.java8, {}⟩ =
      .ok pool := Draft.resolve_of_isSome (by decide +kernel)
  have hitem : ((pool.require 1).require 3).entry 1 = .cls ⟨"me.Missing", true, .empty⟩ := by cbv
  obtain ⟨t, ht, hmatch⟩ := class_types_agree_with_descriptors hbuild hpatch hresolve [.require 1, .require 3] graph
    0 ⟨.void, .link⟩ 1 _ hitem rfl rfl (by decide) "me/Missing" Version.java8 {} (by decide +kernel) (by decide +kernel)
  have hclass : ¬IsArrayName "me.Missing" := by decide
  obtain ⟨hname, hdescriptor, hcalled⟩ := hmatch.present hclass _ (by rfl)
  exact ⟨t, ht, hname.trans hdescriptor.symm, hcalled⟩

end JvmClass
