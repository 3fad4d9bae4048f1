/-
  JvmClass.Proofs.Pool.Renumbering — the numbers of the slots do not matter.

  When the slots of a draft other than slot 0 change places and every index that a constant stores
  changes with them, the same constants fit (`Draft.fits_renumber_iff`) and their items have the new
  indices (`Draft.item_renumber`). So the draft resolves exactly if it did before, to the pool with
  its slots in their new places (`resolves_slot_by_slot`): no constant has to stand before or after
  another one.
-/

import JvmClass.Proofs.Pool.Addressing
import JvmClass.Proofs.Pool.Locality
import JvmClass.Proofs.Pool.Upkeep
import Mathlib.Logic.Equiv.Basic

namespace JvmClass

variable {T F M : Type} {rules : Rules}

/-- Slots of a pool of this size change places. Slot 0 does not, and what is no slot stays none. -/
structure Renumbering (size : Nat) where
  perm : Equiv.Perm Index
  zero : perm 0 = 0
  lt_iff : ∀ i, (perm i).toNat < size ↔ i.toNat < size

/-- Two slots change places. -/
def Renumbering.swap {size : Nat} (i j : Index) (hi : i ≠ 0 ∧ i.toNat < size) (hj : j ≠ 0 ∧ j.toNat < size) :
    Renumbering size where
  perm := Equiv.swap i j
  zero := Equiv.swap_apply_of_ne_of_ne hi.1.symm hj.1.symm
  lt_iff := by
    intro k
    rw [Equiv.swap_apply_def]
    split
    · rename_i hk
      subst hk
      exact iff_of_true hj.2 hi.2
    split
    · rename_i hk
      subst hk
      exact iff_of_true hi.2 hj.2
    · exact Iff.rfl

/-! ## New indices -/

/-- The bootstrap method of a call site is no slot of the pool. -/
def DraftEntry.renumber (σ : Index → Index) : DraftEntry T → DraftEntry T
  | .cls a renamed bound => .cls (σ a) renamed bound
  | .string a => .string (σ a)
  | .nameAndType a b => .nameAndType (σ a) (σ b)
  | .member kind a b => .member kind (σ a) (σ b)
  | .methodHandle kind a => .methodHandle kind (σ a)
  | .methodType a => .methodType (σ a)
  | .invokeDynamic bootstrap a => .invokeDynamic bootstrap (σ a)
  | c => c

def MemberRef.renumber (σ : Index → Index) (m : MemberRef) : MemberRef := { m with cls := σ m.cls }

def Entry.renumber (σ : Index → Index) : Entry T F M → Entry T F M
  | .nameAndType a b => .nameAndType (σ a) (σ b)
  | .field m binding => .field (m.renumber σ) binding
  | .method item => .method { item with member := item.member.renumber σ }
  | .interfaceMethod item => .interfaceMethod { item with member := item.member.renumber σ }
  | .methodHandle kind a => .methodHandle kind (σ a)
  | e => e

/-- What a slot holds comes from the slot that has taken its number. -/
def Draft.renumber (d : Draft T) (σ : Equiv.Perm Index) : Draft T :=
  ⟨(List.range d.size).map fun k => (d.entry (σ.symm (UInt16.ofNat k))).renumber σ⟩

def Pool.renumber (p : Pool T F M) (σ : Equiv.Perm Index) : Pool T F M :=
  ⟨((List.range p.size).map fun k => (p.entry (σ.symm (UInt16.ofNat k))).renumber σ).toArray⟩

/-! ## Drafts with new indices -/

theorem DraftEntry.renumber_eq_member {σ : Index → Index} {c : DraftEntry T} {kind : MemberKind} {a b : Index}
    (h : c.renumber σ = .member kind a b) : ∃ a' b', c = .member kind a' b' ∧ σ a' = a ∧ σ b' = b := by
  cases c with
  | member kind' a' b' =>
    cases h
    exact ⟨a', b', rfl, rfl, rfl⟩
  | _ => cases h

namespace Draft

variable {d : Draft T}

@[simp] theorem size_renumber (σ : Equiv.Perm Index) : (d.renumber σ).size = d.size := by
  simp [renumber, size]

theorem entry_of_size_le {i : Index} (h : d.size ≤ i.toNat) : d.entry i = .vacant := by
  unfold entry
  rw [List.getElem?_eq_none h]
  rfl

variable (σ : Renumbering d.size) (i : Index)

theorem entry_renumber : (d.renumber σ.perm).entry (σ.perm i) = (d.entry i).renumber σ.perm := by
  by_cases hi : i.toNat < d.size
  · have hlt := (σ.lt_iff i).mpr hi
    rw [entry, renumber]
    simp [List.getElem?_range hlt]
  · have hge : ¬ (σ.perm i).toNat < d.size := fun h => hi ((σ.lt_iff i).mp h)
    rw [entry_of_size_le (by simpa using hge), entry_of_size_le (Nat.le_of_not_lt hi)]
    rfl

theorem text?_renumber : (d.renumber σ.perm).text? (σ.perm i) = d.text? i := by
  unfold text?
  rw [entry_renumber]
  cases d.entry i <;> rfl

theorem text_renumber : (d.renumber σ.perm).text (σ.perm i) = d.text i := by
  rw [text, text, text?_renumber]

theorem hasText_renumber_iff : (d.renumber σ.perm).HasText (σ.perm i) ↔ d.HasText i := by
  rw [HasText, HasText, text?_renumber]

theorem isClass_renumber_iff : (d.renumber σ.perm).IsClass (σ.perm i) ↔ d.IsClass i := by
  unfold IsClass
  rw [entry_renumber]
  cases d.entry i <;> simp [DraftEntry.renumber]

theorem className_renumber : (d.renumber σ.perm).className (σ.perm i) = d.className i := by
  unfold className
  rw [entry_renumber]
  cases d.entry i with
  | cls name renamed bound => simp only [DraftEntry.renumber, text_renumber]
  | _ => rfl

theorem isNameAndType_renumber_iff : (d.renumber σ.perm).IsNameAndType (σ.perm i) ↔ d.IsNameAndType i := by
  unfold IsNameAndType
  rw [entry_renumber]
  cases d.entry i with
  | nameAndType name descriptor =>
    constructor
    · rintro ⟨_, _, h, hname, hdescriptor⟩
      cases h
      exact ⟨name, descriptor, rfl, (hasText_renumber_iff σ _).mp hname, (hasText_renumber_iff σ _).mp hdescriptor⟩
    · rintro ⟨_, _, h, hname, hdescriptor⟩
      cases h
      exact ⟨_, _, rfl, (hasText_renumber_iff σ _).mpr hname, (hasText_renumber_iff σ _).mpr hdescriptor⟩
  | _ => simp [DraftEntry.renumber]

theorem memberName_renumber : (d.renumber σ.perm).memberName (σ.perm i) = d.memberName i := by
  unfold memberName
  rw [entry_renumber]
  cases d.entry i with
  | nameAndType name descriptor => simp only [DraftEntry.renumber, text_renumber]
  | _ => rfl

theorem memberDescriptor_renumber : (d.renumber σ.perm).memberDescriptor (σ.perm i) = d.memberDescriptor i := by
  unfold memberDescriptor
  rw [entry_renumber]
  cases d.entry i with
  | nameAndType name descriptor => simp only [DraftEntry.renumber, text_renumber]
  | _ => rfl

theorem fits_renumber_iff (c : DraftEntry T) :
    (d.renumber σ.perm).Fits rules (c.renumber σ.perm) ↔ d.Fits rules c := by
  cases c with
  | cls name renamed bound =>
    cases renamed with
    | some renamed => exact Iff.rfl
    | none => simp only [DraftEntry.renumber, Fits, hasText_renumber_iff, text_renumber]
  | string text => exact hasText_renumber_iff σ text
  | nameAndType name descriptor => simp only [DraftEntry.renumber, Fits, hasText_renumber_iff]
  | methodType descriptor => simp only [DraftEntry.renumber, Fits, hasText_renumber_iff, text_renumber]
  | member kind cls nameAndType =>
    simp only [DraftEntry.renumber, Fits, isClass_renumber_iff, isNameAndType_renumber_iff, memberName_renumber,
      memberDescriptor_renumber]
  | invokeDynamic bootstrap nameAndType =>
    simp only [DraftEntry.renumber, Fits, isNameAndType_renumber_iff, memberName_renumber, memberDescriptor_renumber]
  | methodHandle byte reference =>
    constructor
    · rintro ⟨kind, memberKind, cls, nameAndType, hkind, hreference, haccepts, hname⟩
      rw [entry_renumber] at hreference
      obtain ⟨cls, nameAndType, hmember, rfl, rfl⟩ := DraftEntry.renumber_eq_member hreference
      rw [memberName_renumber] at hname
      exact ⟨kind, memberKind, cls, nameAndType, hkind, hmember, haccepts, hname⟩
    · rintro ⟨kind, memberKind, cls, nameAndType, hkind, hreference, haccepts, hname⟩
      refine ⟨kind, memberKind, σ.perm cls, σ.perm nameAndType, hkind, ?_, haccepts, ?_⟩
      · rw [entry_renumber, hreference]
        rfl
      · rw [memberName_renumber]
        exact hname
  | _ => exact Iff.rfl

theorem item_renumber (c : DraftEntry T) :
    (d.renumber σ.perm).item (c.renumber σ.perm) = (d.item c : Entry T F M).renumber σ.perm := by
  cases c with
  | cls name renamed bound => simp only [DraftEntry.renumber, item, text_renumber, Entry.renumber]
  | string text => simp only [DraftEntry.renumber, item, text_renumber, Entry.renumber]
  | methodType descriptor => simp only [DraftEntry.renumber, item, text_renumber, Entry.renumber]
  | member kind cls nameAndType =>
    simp only [DraftEntry.renumber, item, className_renumber, memberName_renumber, memberDescriptor_renumber]
    cases kind <;> rfl
  | invokeDynamic bootstrap nameAndType =>
    simp only [DraftEntry.renumber, item, memberName_renumber, memberDescriptor_renumber, Entry.renumber]
  | methodHandle byte reference =>
    simp only [DraftEntry.renumber, item]
    cases HandleKind.ofByte? byte <;> rfl
  | _ => rfl

/-- The constants of a draft are what its indices find. -/
theorem forall_fits_iff (hsize : d.size ≤ maxSize) :
    (∀ c ∈ d.entries, d.Fits rules c) ↔ ∀ i, d.Fits rules (d.entry i) := by
  constructor
  · intro h i
    unfold entry
    cases hi : d.entries[i.toNat]? with
    | none => trivial
    | some c => exact h c (List.mem_of_getElem? hi)
  · intro h c hc
    obtain ⟨k, hk⟩ := List.mem_iff_getElem?.mp hc
    obtain ⟨i, rfl⟩ := exists_toNat_eq (Nat.lt_trans (Nat.lt_of_lt_of_le (lt_size hk) hsize) maxSize_lt)
    have hi := h i
    rwa [entry, hk] at hi

theorem forall_fits_renumber_iff (hsize : d.size ≤ maxSize) (σ : Renumbering d.size) :
    (∀ c ∈ (d.renumber σ.perm).entries, (d.renumber σ.perm).Fits rules c) ↔ ∀ c ∈ d.entries, d.Fits rules c := by
  rw [forall_fits_iff hsize, forall_fits_iff (by simpa using hsize), ← σ.perm.forall_congr_right]
  simp only [entry_renumber, fits_renumber_iff]

theorem entry_resolved (i : Index) : (d.resolved : Pool T F M).entry i = d.item (d.entry i) := by
  unfold Pool.entry entry resolved
  rw [List.getElem?_toArray, List.getElem?_map]
  cases d.entries[i.toNat]? <;> rfl

theorem resolved_renumber (σ : Renumbering d.size) :
    (d.renumber σ.perm).resolved = (d.resolved : Pool T F M).renumber σ.perm := by
  have hsize : (d.resolved : Pool T F M).size = d.size := by simp [resolved, Pool.size, size]
  have hitem (k : Nat) : (d.renumber σ.perm).item ((d.entry (σ.perm.symm (UInt16.ofNat k))).renumber σ.perm) =
      ((d.resolved : Pool T F M).entry (σ.perm.symm (UInt16.ofNat k))).renumber σ.perm := by
    rw [item_renumber, entry_resolved]
  have hentries : (d.renumber σ.perm).entries =
      (List.range d.size).map fun k => (d.entry (σ.perm.symm (UInt16.ofNat k))).renumber σ.perm := rfl
  rw [resolved, Pool.renumber, hsize, hentries, List.map_map]
  simp only [Function.comp_def, hitem]

theorem startsVacant_renumber (hd : d.StartsVacant) (σ : Renumbering d.size) : (d.renumber σ.perm).StartsVacant := by
  intro c hc
  have hzero : (d.renumber σ.perm).entry 0 = (d.entry 0).renumber σ.perm := by
    conv_lhs => rw [← σ.zero, entry_renumber]
  have hvacant : d.entry 0 = .vacant := by
    unfold entry
    cases h₀ : d.entries[(0 : Index).toNat]? with
    | none => rfl
    | some c => exact hd c h₀
  rw [hvacant, entry] at hzero
  rw [show (0 : Index).toNat = 0 from rfl, hc] at hzero
  exact hzero

end Draft

/-- However a draft is patched, it resolves exactly if each of its slots is as it should be, and each
    slot then holds what it and the slots that it refers to say. So the slots may stand in any order. -/
theorem resolves_slot_by_slot [ToString T] {constants : List (Option Constant)}
    {patchings : List (String × List (Option (Patch T)))} {draft d : Draft T}
    (hbuild : Draft.ofConstants constants = .ok draft) (hpatch : draft.patchAll patchings = .ok d) (rules : Rules) :
    (∀ p : Pool T F M, d.resolve F M rules = .ok p ↔ (∀ c ∈ d.entries, d.Fits rules c) ∧ p = d.resolved) ∧
      ∀ σ : Renumbering d.size, (d.renumber σ.perm).StartsVacant ∧
        ∀ q : Pool T F M, (d.renumber σ.perm).resolve F M rules = .ok q ↔
          ∃ p, d.resolve F M rules = .ok p ∧ q = p.renumber σ.perm := by
  have hsize := Draft.size_patchAll_le hbuild hpatch
  have hvacant := Draft.startsVacant_patchAll (Draft.startsVacant_ofConstants hbuild) hpatch
  refine ⟨fun p => Draft.resolve_eq_ok_iff, fun σ => ⟨Draft.startsVacant_renumber hvacant σ, fun q => ?_⟩⟩
  simp only [Draft.resolve_eq_ok_iff]
  rw [Draft.forall_fits_renumber_iff hsize σ, Draft.resolved_renumber σ]
  constructor
  · rintro ⟨hfits, rfl⟩
    exact ⟨_, ⟨hfits, rfl⟩, rfl⟩
  · rintro ⟨_, ⟨hfits, rfl⟩, rfl⟩
    exact ⟨hfits, rfl⟩

/-- A method handle, which refers to a member, and the text of a class name change places. -/
theorem resolves_slot_by_slot_swapped :
    ∃ p : Pool Nat Unit Unit, (templateDraft "name").resolve Unit Unit ⟨Version.java8, {}⟩ = .ok p ∧
      ((templateDraft "name").renumber (Equiv.swap 1 7)).resolve Unit Unit ⟨Version.java8, {}⟩ =
        .ok (p.renumber (Equiv.swap 1 7)) := by
  have hbuild : Draft.ofConstants templateConstants = .ok (templateDraft "template") := rfl
  have hpatch : (templateDraft "template").patchAll [("p/A", [none, none, none, none, none, some (.text "name")])] =
      .ok (templateDraft "name") := rfl
  have hsome : ((templateDraft "name").resolve Unit Unit ⟨Version.java8, {}⟩).toOption.isSome = true := by
    decide +kernel
  cases hresolve : (templateDraft "name").resolve Unit Unit ⟨Version.java8, {}⟩ with
  | error fault =>
    rw [hresolve] at hsome
    cases hsome
  | ok p =>
    obtain ⟨-, hrenumber⟩ := resolves_slot_by_slot (F := Unit) (M := Unit) hbuild hpatch ⟨Version.java8, {}⟩
    exact ⟨p, rfl, ((hrenumber (.swap 1 7 (by decide) (by decide))).2 _).mpr ⟨p, hresolve, rfl⟩⟩

end JvmClass
