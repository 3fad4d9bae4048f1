/-
  JvmClass.Proofs.Class.Requirement — the classes that linking is to load.

  A freshly resolved pool requires nothing, and building a class marks just what the class uses. A
  mark goes to the class that the constant leads to (`Pool.LeadsTo`): the constant itself, or the
  class of the member that it is, or that it is a handle of. In a sound pool no constant leads any
  further (`Pool.Sound.classOf?_eq_some_iff`).
  - `required_iff_used`: the classes that are required are those that something used leads to.
-/

import JvmClass.Proofs.Class.Provision

namespace JvmClass

variable {T F M : Type}

/-- The constant at the first slot stands for the class at the second. -/
inductive Pool.LeadsTo (p : Pool T F M) : Index → Index → Prop
  | itself {i : Index} (cls : p.isClass i = true) : p.LeadsTo i i
  | member {i : Index} {kind : MemberKind} {m : MemberRef} (entry : (p.entry i).member? = some (kind, m)) :
      p.LeadsTo i m.cls
  | handle {i reference : Index} {handleKind : HandleKind} {kind : MemberKind} {m : MemberRef}
      (entry : p.entry i = .methodHandle handleKind reference)
      (member : (p.entry reference).member? = some (kind, m)) : p.LeadsTo i m.cls

theorem Draft.isRequired_resolved (d : Draft T) (i : Index) :
    ((d.resolved : Pool T F M).entry i).isRequired = false := by
  rw [entry_resolved]
  cases d.entry i with
  | member kind cls nameAndType => cases kind <;> rfl
  | methodHandle byte reference =>
    simp only [item]
    split <;> rfl
  | _ => rfl

theorem Entry.isRequired_iff {e : Entry T F M} :
    e.isRequired = true ↔ ∃ item, e = .cls item ∧ item.linkRequired = true := by
  constructor
  · intro h
    cases e with
    | cls item => exact ⟨item, rfl, h⟩
    | _ => cases h
  · rintro ⟨item, rfl, h⟩
    exact h

namespace Pool

variable {p : Pool T F M} {rules : Rules} {d : Draft T} {i j : Index}

/-- Two steps are enough to find the class that a constant leads to. -/
theorem Sound.classOf?_eq_some_iff (hp : p.Sound rules d) : p.classOf? i = some j ↔ p.LeadsTo i j := by
  constructor
  · intro h
    have hself (hclass : p.isClass i = true) : p.LeadsTo i j := by
      rw [classOf?, classWithin_of_isClass hclass] at h
      cases h
      exact .itself hclass
    have hmember {kind : MemberKind} {m : MemberRef} (hm : (p.entry i).member? = some (kind, m)) : p.LeadsTo i j := by
      rw [classOf?, classWithin_of_member? hm (hp.isClass_of_member? hm)] at h
      cases h
      exact .member hm
    cases hi : p.entry i with
    | cls item => exact hself (by rw [isClass, hi]; rfl)
    | field m binding => exact hmember (by rw [hi]; rfl)
    | method item => exact hmember (by rw [hi]; rfl)
    | interfaceMethod item => exact hmember (by rw [hi]; rfl)
    | methodHandle handleKind reference =>
      obtain ⟨kind, m, hm, hof⟩ := hp.classOf?_of_handle hi
      rw [hof] at h
      cases h
      exact .handle hi hm
    | _ =>
      rw [classOf?, classWithin, hi] at h
      simp [Entry.dependency?, isClass, hi, Entry.isClass] at h
  · rintro (hclass | hm | ⟨hi, hm⟩)
    · exact classWithin_of_isClass hclass 2
    · exact classWithin_of_member? hm (hp.isClass_of_member? hm) 1
    · obtain ⟨_, _, hm', hof⟩ := hp.classOf?_of_handle hi
      rw [hm] at hm'
      cases hm'
      exact hof

end Pool

/-- When a class has been made of a file, the classes that are required are those that its code, the
    handlers of its code, its inner classes and its bootstrap methods lead to, and no others. -/
theorem required_iff_used [ToString T] {file : ClassFile} {input : String} {options : Options}
    {patches : List (Option (Patch T))} {c : Class T F M} (h : (Class.ofFile file input options patches).1 = .ok c)
    (j : Index) : (∃ item, c.pool.entry j = .cls item ∧ item.linkRequired = true) ↔
      ∃ i, file.Uses c.pool i ∧ c.pool.LeadsTo i j := by
  obtain ⟨draft, patched, p, us, hbuild, hpatch, hresolve, hus, hpool, hrequire⟩ := Class.prepared_of_ofFile h
  have hfrozen : c.pool.frozen = p.frozen := by rw [← hpool, Upkeep.frozen_foldl]
  have hvacant := Draft.startsVacant_patchAll (Draft.startsVacant_ofConstants hbuild) hpatch
  have hsound := (Draft.sound_resolve hvacant hresolve).of_frozen hfrozen
  have hfresh : (p.entry j).isRequired = false := by
    rw [(Draft.resolve_eq_ok_iff.mp hresolve).2, Draft.isRequired_resolved]
  have hmarked := Upkeep.isRequired_prepared (p := p) hus j
  rw [hpool, hfresh] at hmarked
  rw [← Entry.isRequired_iff, hmarked]
  simp only [Bool.false_eq_true, false_or, hrequire, ← Pool.classOf?_of_frozen hfrozen, hsound.classOf?_eq_some_iff]

/-- The class that is created and the one that is caught, the inner and the outer class, the class of the
    bootstrap method and its argument are required; the class itself and its superclass are not. -/
theorem required_iff_used_creating :
    ∃ c : Class Nat Nat Nat, (Class.ofFile creatingFile "A" {} []).1 = .ok c ∧
      (∀ j ∈ [8, 10, 13, 15, 20, 23], ∃ i, creatingFile.Uses c.pool i ∧ c.pool.LeadsTo i j) ∧
      ∀ j ∈ [1, 3], ¬∃ i, creatingFile.Uses c.pool i ∧ c.pool.LeadsTo i j := by
  have hrequired : ((Class.ofFile creatingFile "A" {} [] : Except Error (Class Nat Nat Nat) × _).1.toOption.map
      fun c => ([8, 10, 13, 15, 20, 23].all fun j => (c.pool.entry j).isRequired,
        [1, 3].any fun j => (c.pool.entry j).isRequired)) = some (true, false) := by decide +kernel
  cases h : (Class.ofFile creatingFile "A" {} [] : Except Error (Class Nat Nat Nat) × _).1 with
  | error e =>
    rw [h] at hrequired
    cases hrequired
  | ok c =>
    rw [h] at hrequired
    obtain ⟨hall, hnone⟩ := Prod.mk.inj (Option.some.inj hrequired)
    refine ⟨c, rfl, fun j hj => ?_, fun j hj hused => ?_⟩
    · exact (required_iff_used h j).mp (Entry.isRequired_iff.mp (List.all_eq_true.mp hall j hj))
    · exact List.any_eq_false.mp hnone j hj (Entry.isRequired_iff.mpr ((required_iff_used h j).mpr hused))

end JvmClass
