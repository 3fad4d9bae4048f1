/-
  JvmClass.Proofs.Pool.Preparation — pools that are yet to be linked.

  Until it is linked a pool is only marked, in any order and any number of times, and its texts are
  exposed (`Upkeep.IsPreparation`). That binds nothing: classes have the types that patches gave
  them (`Upkeep.type?_prepared`), and nothing else has any (`Upkeep.isUnbound_prepared`). The classes
  to load are those that the marked constants depend on (`Upkeep.isRequired_prepared`). The steps of a
  preparation may be taken in any order (`Upkeep.foldl_perm`).
-/

import JvmClass.Proofs.Pool.Renumbering
import JvmClass.Proofs.Pool.Visiting

namespace JvmClass

variable {T F M : Type}

def Upkeep.IsPreparation : Upkeep T F M → Prop
  | exposeTexts | require _ => True
  | bindSelf .. | link .. => False

namespace Entry

/-- A class that linking is to load. -/
def isRequired : Entry T F M → Bool
  | .cls item => item.linkRequired
  | _ => false

/-- Only a class may have been bound yet. -/
def IsUnbound (e : Entry T F M) : Prop := e.isClass = true ∨ e.expose = e.frozen.expose

theorem type?_expose (e : Entry T F M) : e.expose.type? = e.type? := by cases e <;> rfl

theorem type?_requireLink (e : Entry T F M) : e.requireLink.type? = e.type? := by cases e <;> rfl

theorem IsUnbound.expose {e : Entry T F M} (h : e.IsUnbound) : e.expose.IsUnbound := by
  cases e <;> exact h

theorem IsUnbound.requireLink {e : Entry T F M} (h : e.IsUnbound) : e.requireLink.IsUnbound := by
  cases e with
  | cls item => exact .inl rfl
  | _ => exact h

theorem requireLink_expose (e : Entry T F M) : e.expose.requireLink = e.requireLink.expose := by cases e <;> rfl

theorem isRequired_expose (e : Entry T F M) : e.expose.isRequired = e.isRequired := by cases e <;> rfl

theorem isRequired_requireLink (e : Entry T F M) : e.requireLink.isRequired = (e.isClass || e.isRequired) := by
  cases e <;> rfl

theorem isClass_frozen (e : Entry T F M) : e.frozen.isClass = e.isClass := by cases e <;> rfl

theorem dependency?_frozen (e : Entry T F M) : e.frozen.dependency? = e.dependency? := by cases e <;> rfl

end Entry

/-! ## Resolved pools -/

namespace Draft

/-- The type that a patch gave to a class. -/
def patchedType? (d : Draft T) (i : Index) : Option T :=
  match d.entry i with
  | .cls _ _ bound => bound
  | _ => none

theorem type?_resolved (d : Draft T) (i : Index) : ((d.resolved : Pool T F M).entry i).type? = d.patchedType? i := by
  rw [entry_resolved, patchedType?]
  cases d.entry i with
  | member kind cls nameAndType => cases kind <;> rfl
  | methodHandle byte reference =>
    simp only [item]
    split <;> rfl
  | _ => rfl

theorem isUnbound_resolved (d : Draft T) (i : Index) : ((d.resolved : Pool T F M).entry i).IsUnbound := by
  rw [entry_resolved]
  cases d.entry i with
  | cls name renamed bound => exact .inl rfl
  | member kind cls nameAndType => cases kind <;> exact .inr rfl
  | methodHandle byte reference =>
    refine .inr ?_
    simp only [item]
    split <;> rfl
  | _ => exact .inr rfl

end Draft

/-! ## One step -/

namespace Pool

variable {p q : Pool T F M}

theorem entry_exposeTexts (i : Index) : p.exposeTexts.entry i = (p.entry i).expose := by
  unfold exposeTexts entry
  rw [Array.getElem?_map]
  cases p.entries[i.toNat]? <;> rfl

theorem entry_require (i j : Index) :
    (p.require i).entry j = if p.classOf? i = some j then (p.entry j).requireLink else p.entry j := by
  unfold require
  cases h : p.classOf? i with
  | none => simp
  | some k =>
    simp only [Option.some.injEq]
    exact entry_modify rfl

theorem isClass_of_classWithin {steps : Nat} {i j : Index} (h : p.classWithin steps i = some j) :
    p.isClass j = true := by
  induction steps generalizing i with
  | zero =>
    rw [classWithin] at h
    by_cases hi : p.isClass i = true
    · rw [if_pos hi] at h
      cases h
      exact hi
    · rw [if_neg hi] at h
      cases h
  | succ steps ih =>
    rw [classWithin] at h
    split at h
    · exact ih h
    · by_cases hi : p.isClass i = true
      · rw [if_pos hi] at h
        cases h
        exact hi
      · rw [if_neg hi] at h
        cases h

/-- What a constant depends on never changes. -/
theorem classOf?_of_frozen (h : q.frozen = p.frozen) (i : Index) : q.classOf? i = p.classOf? i := by
  have hclass (i : Index) : q.isClass i = p.isClass i := congr_of_frozen Entry.isClass Entry.isClass_frozen h i
  have hdependency (i : Index) : (q.entry i).dependency? = (p.entry i).dependency? :=
    congr_of_frozen Entry.dependency? Entry.dependency?_frozen h i
  have hwithin (steps : Nat) (i : Index) : q.classWithin steps i = p.classWithin steps i := by
    induction steps generalizing i with
    | zero => rw [classWithin, classWithin, hclass]
    | succ steps ih => simp only [classWithin, hdependency, hclass, ih]
  exact hwithin 2 i

section Order

variable (p)

theorem require_exposeTexts (i : Index) : p.exposeTexts.require i = (p.require i).exposeTexts := by
  unfold require
  rw [classOf?_of_frozen p.frozen_exposeTexts]
  cases p.classOf? i with
  | none => rfl
  | some j =>
    show Pool.mk _ = Pool.mk _
    congr 1
    apply Array.ext_getElem?
    intro k
    simp only [exposeTexts, modify, Array.getElem?_map, Array.getElem?_modify]
    split
    · cases p.entries[k]? with
      | none => rfl
      | some e => exact congrArg some e.requireLink_expose
    · rfl

theorem require_require (i j : Index) : (p.require i).require j = (p.require j).require i := by
  have hunfold (q : Pool T F M) (k : Index) :
      q.require k = ((q.classOf? k).map fun l => q.modify l Entry.requireLink).getD q := by
    unfold require
    cases q.classOf? k <;> rfl
  rw [hunfold (p.require i), hunfold (p.require j), classOf?_of_frozen (p.frozen_require i),
    classOf?_of_frozen (p.frozen_require j), hunfold p i, hunfold p j]
  cases p.classOf? i with
  | none => rfl
  | some k =>
    cases p.classOf? j with
    | none => rfl
    | some l =>
      show Pool.mk _ = Pool.mk _
      congr 1
      apply Array.ext_getElem?
      intro n
      simp only [modify, Option.map_some, Option.getD_some, Array.getElem?_modify]
      by_cases hk : k.toNat = n
      · by_cases hl : l.toNat = n <;> simp [hk, hl]
      · by_cases hl : l.toNat = n <;> simp [hk, hl]

end Order

end Pool

namespace Upkeep

variable {p : Pool T F M}

theorem entry_apply {u : Upkeep T F M} (hu : u.IsPreparation) (i : Index) :
    (u.apply p).entry i = p.entry i ∨ (u.apply p).entry i = (p.entry i).expose ∨
      (u.apply p).entry i = (p.entry i).requireLink := by
  cases u with
  | exposeTexts => exact .inr (.inl (Pool.entry_exposeTexts i))
  | require k =>
    rw [apply, Pool.entry_require]
    by_cases h : p.classOf? k = some i
    · exact .inr (.inr (if_pos h))
    · exact .inl (if_neg h)
  | bindSelf k t => cases hu
  | link host thisClass asking => cases hu

theorem apply_comm {u v : Upkeep T F M} (hu : u.IsPreparation) (hv : v.IsPreparation) (p : Pool T F M) :
    v.apply (u.apply p) = u.apply (v.apply p) := by
  cases u with
  | exposeTexts =>
    cases v with
    | exposeTexts => rfl
    | require j => exact p.require_exposeTexts j
    | bindSelf j t => cases hv
    | link host thisClass asking => cases hv
  | require i =>
    cases v with
    | exposeTexts => exact (p.require_exposeTexts i).symm
    | require j => exact p.require_require i j
    | bindSelf j t => cases hv
    | link host thisClass asking => cases hv
  | bindSelf i t => cases hu
  | link host thisClass asking => cases hu

/-- The order of the preparations does not matter. -/
theorem foldl_perm {us vs : List (Upkeep T F M)} (hus : ∀ u ∈ us, u.IsPreparation) (h : us.Perm vs) (p : Pool T F M) :
    us.foldl Upkeep.apply p = vs.foldl Upkeep.apply p :=
  h.foldl_eq' (fun u hu v hv q => (apply_comm (hus u hu) (hus v hv) q)) p

/-! ## All steps -/

variable {us : List (Upkeep T F M)} (hus : ∀ u ∈ us, u.IsPreparation)
include hus

/-- What exposing and requiring leave in place stays. -/
theorem entry_prepared {motive : Entry T F M → Prop} (hexpose : ∀ e, motive e → motive e.expose)
    (hrequire : ∀ e, motive e → motive e.requireLink) {i : Index} (h : motive (p.entry i)) :
    motive ((us.foldl Upkeep.apply p).entry i) := by
  induction us generalizing p with
  | nil => exact h
  | cons u us ih =>
    rw [List.forall_mem_cons] at hus
    rw [List.foldl_cons]
    refine ih hus.2 ?_
    rcases entry_apply (p := p) hus.1 i with hi | hi | hi
    · rwa [hi]
    · rw [hi]
      exact hexpose _ h
    · rw [hi]
      exact hrequire _ h

theorem type?_prepared (i : Index) : ((us.foldl Upkeep.apply p).entry i).type? = (p.entry i).type? := by
  refine entry_prepared (motive := fun e => e.type? = (p.entry i).type?) hus ?_ ?_ rfl
  · intro e he
    rw [Entry.type?_expose, he]
  · intro e he
    rw [Entry.type?_requireLink, he]

theorem isUnbound_prepared {i : Index} (h : (p.entry i).IsUnbound) : ((us.foldl Upkeep.apply p).entry i).IsUnbound :=
  entry_prepared (motive := Entry.IsUnbound) hus (fun _ => .expose) (fun _ => .requireLink) h

theorem isRequired_prepared (j : Index) : ((us.foldl Upkeep.apply p).entry j).isRequired = true ↔
    (p.entry j).isRequired = true ∨ ∃ i, .require i ∈ us ∧ p.classOf? i = some j := by
  induction us generalizing p with
  | nil => simp
  | cons u us ih =>
    rw [List.forall_mem_cons] at hus
    have hclassOf := fun i => Pool.classOf?_of_frozen (frozen_apply p u) i
    rw [List.foldl_cons, ih hus.2]
    simp only [hclassOf, List.mem_cons]
    cases u with
    | exposeTexts =>
      rw [apply, Pool.entry_exposeTexts, Entry.isRequired_expose]
      simp
    | require k =>
      rw [apply, Pool.entry_require]
      by_cases hk : p.classOf? k = some j
      · have hj : (p.entry j).isClass = true := Pool.isClass_of_classWithin hk
        rw [if_pos hk, Entry.isRequired_requireLink, hj]
        simp only [Bool.true_or, true_or, true_iff]
        exact .inr ⟨k, .inl rfl, hk⟩
      · rw [if_neg hk]
        constructor
        · rintro (h | ⟨i, hi, hij⟩)
          · exact .inl h
          · exact .inr ⟨i, .inr hi, hij⟩
        · rintro (h | ⟨i, hi | hi, hij⟩)
          · exact .inl h
          · cases hi
            exact absurd hij hk
          · exact .inr ⟨i, hi, hij⟩
    | bindSelf k t => cases hus.1
    | link host thisClass asking => cases hus.1

end Upkeep

/-- A pool in which nothing has been bound since the draft was resolved. -/
structure Pool.Fresh (d : Draft T) (p : Pool T F M) : Prop where
  addressable : p.Addressable
  type : ∀ i, (p.entry i).type? = d.patchedType? i
  unbound : ∀ i, (p.entry i).IsUnbound

section Resolved

variable [ToString T] {constants : List (Option Constant)} {patchings : List (String × List (Option (Patch T)))}
  {rules : Rules} {draft patched : Draft T} {p : Pool T F M} {us : List (Upkeep T F M)}

theorem Pool.addressable_of_resolve (hbuild : Draft.ofConstants constants = .ok draft)
    (hpatch : draft.patchAll patchings = .ok patched) (hresolve : patched.resolve F M rules = .ok p) :
    p.Addressable := by
  have hvacant := Draft.startsVacant_patchAll (Draft.startsVacant_ofConstants hbuild) hpatch
  have hsound := Draft.sound_resolve hvacant hresolve
  have hsize := Draft.size_patchAll_le hbuild hpatch
  have hmax := Draft.maxSize_lt
  exact ⟨by rw [hsound.size]; omega, hsound.vacant⟩

/-- Resolved pools are fresh, and preparation leaves them so. -/
theorem Pool.fresh_of_resolve (hbuild : Draft.ofConstants constants = .ok draft)
    (hpatch : draft.patchAll patchings = .ok patched) (hresolve : patched.resolve F M rules = .ok p)
    (hus : ∀ u ∈ us, u.IsPreparation) : (us.foldl Upkeep.apply p).Fresh patched := by
  have haddressable := addressable_of_resolve hbuild hpatch hresolve
  obtain ⟨-, rfl⟩ := Draft.resolve_eq_ok_iff.mp hresolve
  refine ⟨haddressable.of_frozen (Upkeep.frozen_foldl _ us), ?_, ?_⟩
  · intro i
    rw [Upkeep.type?_prepared hus, Draft.type?_resolved]
  · intro i
    exact Upkeep.isUnbound_prepared hus (Draft.isUnbound_resolved patched i)

end Resolved

theorem resolve_template :
    (templateDraft "name").resolve Nat Nat ⟨Version.java8, {}⟩ = .ok (templateDraft "name").resolved :=
  Draft.resolve_of_isSome (by decide +kernel)

end JvmClass
