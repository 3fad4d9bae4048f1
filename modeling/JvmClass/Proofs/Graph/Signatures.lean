/-
  JvmClass.Proofs.Graph.Signatures — methods have the types that fields of their descriptors have.

  A method descriptor is a row of field descriptors (`MethodSpelling`), and a graph gives a method the
  types of just those (`ClassGraph.argumentTypes_of_parse`, `ClassGraph.returnType_of_parse`): it cuts the
  row by parsing it, and writes a parameter out again only to name it. Since a descriptor is checked before
  its class names are dotted, that it parses when the constant is linked follows from the soundness of the
  pool (`Entry.Sound.methodDescriptor`), whatever has been done to the pool since.
-/

import JvmClass.Graph.ClassGraph
import JvmClass.Graph.StandardClasses
import JvmClass.Proofs.Class.Provision
import JvmClass.Proofs.Descriptor.Spelling
import JvmClass.Proofs.Pool.Growth

namespace JvmClass

/-! ## Rows of field descriptors -/

/-- The method descriptor has these parameter descriptors and this return descriptor; none stands for
    `void`. -/
structure MethodSpelling (descriptor : String) (parameters : List String) (returns : Option String) : Prop where
  valid : ∀ p ∈ parameters, isValidFieldDescriptor p = true
  valid_returns : ∀ r, returns = some r → isValidFieldDescriptor r = true
  text : descriptor.toList =
    '(' :: (parameters.flatMap String.toList ++ ')' :: (returns.map String.toList).getD ['V'])

/-- Valid descriptors in a row are those of types in a row. -/
theorem exists_types_of_valid {ps : List String} (hps : ∀ p ∈ ps, isValidFieldDescriptor p = true) :
    ∃ ts : List (FieldType String), (∀ t ∈ ts, t.IsSpellable) ∧ ps = ts.map FieldType.render := by
  induction ps with
  | nil => exact ⟨[], List.forall_mem_nil _, rfl⟩
  | cons p ps ih =>
    obtain ⟨hp, hrest⟩ := List.forall_mem_cons.mp hps
    obtain ⟨t, ht, rfl⟩ := isValidFieldDescriptor_iff_render.mp hp
    obtain ⟨ts, hts, rfl⟩ := ih hrest
    exact ⟨t :: ts, List.forall_mem_cons.mpr ⟨ht, hts⟩, rfl⟩

/-- What the parser finds in a text is the only way to spell it. -/
theorem MethodSpelling.iff_parse {descriptor : String} {parameters : List String} {returns : Option String} :
    MethodSpelling descriptor parameters returns ↔ ∃ d : MethodDescriptor String,
      MethodDescriptor.parse descriptor = .ok d ∧ parameters = d.parameters.map FieldType.render ∧
        returns = d.returns.map FieldType.render := by
  have hchars (d : MethodDescriptor String) : d.chars = '(' :: ((d.parameters.map FieldType.render).flatMap
      String.toList ++ ')' :: ((d.returns.map FieldType.render).map String.toList).getD ['V']) := by
    simp only [MethodDescriptor.chars, List.flatMap_map, Option.map_map, Function.comp_def, FieldType.toList_render]
  constructor
  · rintro ⟨hparameters, hreturns, htext⟩
    obtain ⟨ts, hts, rfl⟩ := exists_types_of_valid hparameters
    obtain ⟨u, hu, rfl⟩ : ∃ u : Option (FieldType String), (∀ t ∈ u, t.IsSpellable) ∧
        returns = u.map FieldType.render := by
      cases returns with
      | none => exact ⟨none, (fun t ht => absurd ht (Option.not_mem_none t)), rfl⟩
      | some r =>
        obtain ⟨t, ht, rfl⟩ := isValidFieldDescriptor_iff_render.mp (hreturns r rfl)
        exact ⟨some t, fun _ h => Option.mem_some_iff.mp h ▸ ht, rfl⟩
    exact ⟨⟨ts, u⟩, MethodDescriptor.parse_eq_ok_iff.mpr ⟨⟨hts, hu⟩, htext.trans (hchars ⟨ts, u⟩).symm⟩, rfl, rfl⟩
  · rintro ⟨d, hparse, rfl, rfl⟩
    obtain ⟨hd, htext⟩ := MethodDescriptor.parse_eq_ok_iff.mp hparse
    refine ⟨List.forall_mem_map.mpr fun t ht => ?_, fun r hr => ?_, htext.trans (hchars d)⟩
    · exact isValidFieldDescriptor_iff_render.mpr ⟨t, hd.parameters t ht, rfl⟩
    · obtain ⟨t, ht, rfl⟩ := Option.map_eq_some_iff.mp hr
      exact isValidFieldDescriptor_iff_render.mpr ⟨t, hd.returns t ht, rfl⟩

/-! ## Types of a graph -/

namespace ClassGraph

variable (g : ClassGraph) {descriptor : String} {d : MethodDescriptor String}

theorem fieldType_render {t : FieldType String} (ht : t.IsSpellable) :
    g.fieldType t.render = g.resolveOr t t.render := by
  simp only [fieldType, FieldType.parse_render ht]

theorem argumentTypes_of_parse (h : MethodDescriptor.parse descriptor = .ok d) :
    g.argumentTypes descriptor = (d.parameters.map FieldType.render).map g.fieldType := by
  obtain ⟨hd, -⟩ := MethodDescriptor.parse_eq_ok_iff.mp h
  simp only [argumentTypes, h, List.map_map]
  exact List.map_congr_left fun t ht => (g.fieldType_render (hd.parameters t ht)).symm

theorem returnType_of_parse (h : MethodDescriptor.parse descriptor = .ok d) :
    g.returnType descriptor = ((d.returns.map FieldType.render).map g.fieldType).getD .void := by
  obtain ⟨hd, -⟩ := MethodDescriptor.parse_eq_ok_iff.mp h
  obtain ⟨parameters, returns⟩ := d
  cases returns with
  | none => simp only [returnType, h, Option.map_none, Option.getD_none]
  | some t =>
    simp only [returnType, h, Option.map_some, Option.getD_some]
    exact (g.fieldType_render (hd.returns t rfl)).symm

end ClassGraph

/-! ## Signatures of constants -/

namespace Entry

variable {T F M : Type}

/-- The descriptor that a signature is made from. -/
def methodDescriptor? : Entry T F M → Option String
  | .method item => some item.member.descriptor
  | .interfaceMethod item => some item.member.descriptor
  | .methodType descriptor _ => some descriptor
  | .invokeDynamic _ _ descriptor _ => some descriptor
  | _ => none

theorem Sound.methodDescriptor {rules : Rules} {p : Pool T F M} {e : Entry T F M} (h : e.Sound rules p)
    {descriptor : String} (hd : e.methodDescriptor? = some descriptor) : isValidMethodDescriptor descriptor = true := by
  cases e with
  | method item =>
    cases hd
    exact h.2.1
  | interfaceMethod item =>
    cases hd
    exact h.2.1
  | methodType _ _ =>
    cases hd
    exact h.1
  | invokeDynamic _ _ _ _ =>
    cases hd
    exact h.1
  | _ => cases hd

theorem signature?_bindType (e : Entry T F M) (t : T) : (e.bindType t).signature? = e.signature? := by
  cases e <;> rfl

theorem methodDescriptor?_bindType (e : Entry T F M) (t : T) :
    (e.bindType t).methodDescriptor? = e.methodDescriptor? := by
  cases e <;> rfl

/-- A visit makes a signature from nothing but the descriptor. -/
theorem signature?_linked {host : Host T F M} {asking : Asking T} {type? : Index → Option T} {e : Entry T F M}
    (hnone : e.signature? = none) {s : Signature T} (h : (e.linked host asking type?).signature? = some s) :
    ∃ descriptor, e.methodDescriptor? = some descriptor ∧ s = Signature.of host asking descriptor := by
  have hfilled {cell : SetOnce (Signature T)} {candidate : Unit → Signature T} (hcell : cell.value? = none)
      (hs : (cell.fill candidate).value? = some s) : s = candidate () := by
    rw [SetOnce.fill_value?, hcell, Option.getD_none] at hs
    exact (Option.some.inj hs).symm
  cases e with
  | method item =>
    rw [linked] at h
    cases htype : type? item.member.cls with
    | none =>
      rw [htype] at h
      cases hnone.symm.trans h
    | some holder =>
      rw [htype] at h
      have hsignature : (Linking.linkMethod host asking item holder).signature =
          (Linking.linkSignature host asking item).signature := by
        unfold Linking.linkMethod
        simp only
        split <;> rfl
      rw [signature?, hsignature] at h
      exact ⟨_, rfl, hfilled hnone h⟩
  | interfaceMethod item =>
    rw [linked] at h
    cases htype : type? item.member.cls with
    | none =>
      rw [htype] at h
      cases hnone.symm.trans h
    | some holder =>
      rw [htype] at h
      exact ⟨_, rfl, hfilled hnone h⟩
  | methodType descriptor signature => exact ⟨_, rfl, hfilled hnone h⟩
  | invokeDynamic bootstrap name descriptor signature => exact ⟨_, rfl, hfilled hnone h⟩
  | field m binding =>
    rw [linked] at h
    split at h <;> cases h
  | _ => cases h

end Entry

variable {T F M : Type}

/-- A signature that was not there before comes from the host. -/
theorem Pool.signature?_link {p : Pool T F M} (hp : p.Addressable) {host : Host T F M} {thisClass : Index}
    {asking : Asking T} {i : Index} (hnone : (p.entry i).signature? = none) {s : Signature T}
    (h : ((p.link host thisClass asking).pool.entry i).signature? = some s) :
    ∃ descriptor, (p.entry i).methodDescriptor? = some descriptor ∧ s = Signature.of host asking descriptor := by
  have hself : ((p.bindSelf thisClass asking.type).entry i).signature? = (p.entry i).signature? ∧
      ((p.bindSelf thisClass asking.type).entry i).methodDescriptor? = (p.entry i).methodDescriptor? := by
    rw [entry_bindSelf]
    split
    · exact ⟨Entry.signature?_bindType _ _, Entry.methodDescriptor?_bindType _ _⟩
    · exact ⟨rfl, rfl⟩
  rw [hp.entry_link] at h
  rw [← hself.2]
  exact Entry.signature?_linked (hself.1.trans hnone) h

/-- Whatever has been done to a resolved pool before: a signature that linking it against a graph adds
    belongs to a constant whose descriptor parses and can be spelled in one way only, and consists of the
    types that fields of the parameter descriptors would have, in order, and of the type for the return
    descriptor, or `void`. -/
theorem linked_signatures_are_field_types {constants : List (Option Constant)}
    {patchings : List (String × List (Option (Patch ClassGraph.HostType)))} {rules : Rules}
    {draft patched : Draft ClassGraph.HostType}
    {p : Pool ClassGraph.HostType (Declaration .ofField) (Declaration .ofMethod)}
    (hbuild : Draft.ofConstants constants = .ok draft) (hpatch : draft.patchAll patchings = .ok patched)
    (hresolve : patched.resolve _ _ rules = .ok p)
    (us : List (Upkeep ClassGraph.HostType (Declaration .ofField) (Declaration .ofMethod))) (g : ClassGraph)
    (thisClass : Index) (asking : Asking ClassGraph.HostType) (i : Index) (s : Signature ClassGraph.HostType)
    (hbefore : ((us.foldl Upkeep.apply p).entry i).signature? = none)
    (hafter : (((us.foldl Upkeep.apply p).link g.host thisClass asking).pool.entry i).signature? = some s) :
    ∃ descriptor, ((us.foldl Upkeep.apply p).entry i).methodDescriptor? = some descriptor ∧
      (∃ d, MethodDescriptor.parse descriptor = .ok d) ∧
      ∃ parameters returns, MethodSpelling descriptor parameters returns ∧
        (∀ parameters' returns', MethodSpelling descriptor parameters' returns' →
          parameters' = parameters ∧ returns' = returns) ∧
        s.arguments = parameters.map g.fieldType ∧ s.returns = (returns.map g.fieldType).getD .void := by
  have haddressable := Upkeep.addressable_foldl (Pool.addressable_of_resolve hbuild hpatch hresolve) us
  obtain ⟨descriptor, hdescriptor, rfl⟩ := Pool.signature?_link haddressable hbefore hafter
  have hvacant := Draft.startsVacant_patchAll (Draft.startsVacant_ofConstants hbuild) hpatch
  have hsound := (Draft.sound_resolve hvacant hresolve).of_frozen (Upkeep.frozen_foldl p us)
  have hvalid := (hsound.entry i).methodDescriptor hdescriptor
  obtain ⟨d, hparse⟩ := MethodDescriptor.exists_parse_of_valid hvalid
  refine ⟨descriptor, hdescriptor, ⟨d, hparse⟩, _, _, MethodSpelling.iff_parse.mpr ⟨d, hparse, rfl, rfl⟩, ?_,
    g.argumentTypes_of_parse hparse, g.returnType_of_parse hparse⟩
  intro parameters' returns' h
  obtain ⟨d', hparse', rfl, rfl⟩ := MethodSpelling.iff_parse.mp h
  obtain rfl : d' = d := Except.ok.inj (hparse'.symm.trans hparse)
  exact ⟨rfl, rfl⟩

namespace MissingClass

/-- A method type that takes an array of a class that is there, and a class that is not. -/
def constants : List (Option Constant) := [none, some (.methodType 2), some (.utf8 "(J[Lp/A;Lp/B;)[I")]

def draft : Draft ClassGraph.HostType := ⟨[.vacant, .methodType 2, .text "(J[Lp/A;Lp/B;)[I"]⟩

def graph : ClassGraph := ⟨[StandardClasses.bare "p.A" none [] StandardClasses.plainClass]⟩

def linked : Pool ClassGraph.HostType (Declaration .ofField) (Declaration .ofMethod) :=
  (Pool.link draft.resolved graph.host 0 ⟨.void, .link⟩).pool

end MissingClass

open MissingClass in
theorem linked_signatures_are_field_types_missing :
    ∃ s, (linked.entry 1).signature? = some s ∧ s.arguments = ["J", "[Lp.A;", "Lp.B;"].map graph.fieldType ∧
      s.returns = graph.fieldType "[I" := by
  have hbuild : Draft.ofConstants constants = .ok draft := rfl
  have hpatch : draft.patchAll [] = .ok draft := rfl
  have hresolve : draft.resolve (Declaration .ofField) (Declaration .ofMethod) ⟨Version.java8, {}⟩ =
      .ok draft.resolved := Draft.resolve_of_isSome (by decide +kernel)
  have hsome : (linked.entry 1).signature?.isSome = true := by decide +kernel
  obtain ⟨s, hs⟩ := Option.isSome_iff_exists.mp hsome
  obtain ⟨descriptor, hdescriptor, -, parameters, returns, -, hunique, harguments, hreturns⟩ :=
    linked_signatures_are_field_types hbuild hpatch hresolve [] graph 0 ⟨.void, .link⟩ 1 s
      (by rfl) hs
  have htext : descriptor = "(J[Lp.A;Lp.B;)[I" := by
    refine Option.some.inj (hdescriptor.symm.trans ?_)
    cbv
  subst htext
  have hspelling : MethodSpelling "(J[Lp.A;Lp.B;)[I" ["J", "[Lp.A;", "Lp.B;"] (some "[I") := by
    refine ⟨by decide +kernel, fun r hr => ?_, by decide⟩
    cases hr
    decide +kernel
  obtain ⟨rfl, rfl⟩ := hunique _ _ hspelling
  exact ⟨s, hs, harguments, hreturns⟩

end JvmClass
