/-
  JvmClass.Proofs.Pool.Addressing — every slot has an index.

  Slots are counted and indices are words, so an index can miss slots of a pool that is too large.
  No draft is (`Draft.size_patchAll_le`), so two pools of a size in which each index finds the same
  are one (`Pool.ext_entry`).
-/

import JvmClass.Proofs.Pool.Resolution

namespace JvmClass

variable {T F M : Type}

theorem Draft.maxSize_lt : Draft.maxSize < 0x10000 := by decide

/-- The index of a slot. -/
theorem exists_toNat_eq {k : Nat} (hk : k < 0x10000) : ∃ i : Index, i.toNat = k :=
  ⟨UInt16.ofNat k, UInt16.toNat_ofNat_of_lt' hk⟩

/-! ## Drafts -/

namespace Draft

variable {d d' : Draft T}

theorem size_ofConstants_le {constants : List (Option Constant)} (h : ofConstants constants = .ok d) :
    d.size ≤ maxSize := by
  unfold ofConstants at h
  split at h
  · cases h
  rename_i hsize
  split at h
  · cases h
  simp only [Except.bind_eq_ok, Except.pure_eq_ok] at h
  obtain ⟨entries, hentries, rfl⟩ := h
  have hlength := congrArg List.length (List.mapM_eq_ok_iff.mp hentries)
  simp only [List.length_map] at hlength
  simp only [size]
  omega

theorem size_patch [ToString T] {input : String} {patches : List (Option (Patch T))}
    (h : d.patch input patches = .ok d') : d'.size = d.size := by
  unfold patch at h
  split at h
  · cases h
  rename_i hsize
  simp only at h
  split at h
  · rename_i entries hentries
    cases h
    have hlength := congrArg List.length (List.mapM_eq_ok_iff.mp hentries)
    simp only [List.length_map, List.length_zipIdx, List.length_zip, List.length_append,
      List.length_replicate] at hlength
    simp only [size] at hsize hlength ⊢
    omega
  · cases h

theorem size_patchAll [ToString T] {patchings : List (String × List (Option (Patch T)))}
    (h : d.patchAll patchings = .ok d') : d'.size = d.size := by
  induction patchings generalizing d with
  | nil =>
    cases h
    rfl
  | cons patching patchings ih =>
    rw [patchAll, List.foldlM_cons, Except.bind_eq_ok] at h
    obtain ⟨d₁, h₁, h⟩ := h
    exact (ih h).trans (size_patch h₁)

/-- However it is patched, a draft is no larger than a class file can make it. -/
theorem size_patchAll_le [ToString T] {constants : List (Option Constant)}
    {patchings : List (String × List (Option (Patch T)))} (hbuild : ofConstants constants = .ok d)
    (hpatch : d.patchAll patchings = .ok d') : d'.size ≤ maxSize :=
  size_patchAll hpatch ▸ size_ofConstants_le hbuild

end Draft

/-! ## Pools -/

namespace Pool

variable {p q : Pool T F M}

theorem entry_of_size_le {i : Index} (h : p.size ≤ i.toNat) : p.entry i = .vacant := by
  unfold entry
  rw [Array.getElem?_eq_none h]
  rfl

theorem ext_entry (hsize : p.size ≤ 0x10000) (hq : q.size = p.size) (h : ∀ i, q.entry i = p.entry i) : q = p := by
  have hentries : q.entries = p.entries := by
    apply Array.ext hq
    intro k hkq hkp
    obtain ⟨i, rfl⟩ := exists_toNat_eq (Nat.lt_of_lt_of_le hkp hsize)
    have hi := h i
    simpa only [entry, Array.getElem?_eq_getElem hkq, Array.getElem?_eq_getElem hkp, Option.getD_some] using hi
  exact congrArg mk hentries

@[simp] theorem size_modify (i : Index) (f : Entry T F M → Entry T F M) : (p.modify i f).size = p.size :=
  Array.size_modify

/-- A slot that is not there may be changed too, as long as it stays empty. -/
theorem entry_modify {i j : Index} {f : Entry T F M → Entry T F M} (hf : f .vacant = .vacant) :
    (p.modify i f).entry j = if i = j then f (p.entry j) else p.entry j := by
  unfold modify entry
  by_cases hij : i = j
  · subst hij
    rw [Array.getElem?_modify, if_pos rfl, if_pos rfl]
    cases p.entries[i.toNat]? with
    | none => exact hf.symm
    | some e => rfl
  · have hne : i.toNat ≠ j.toNat := fun h => hij (UInt16.toNat_inj.mp h)
    rw [Array.getElem?_modify, if_neg hne, if_neg hij]

/-- A change depends on what the slot holds only. -/
theorem modify_congr {i : Index} {f g : Entry T F M → Entry T F M} (h : f (p.entry i) = g (p.entry i)) :
    p.modify i f = p.modify i g := by
  have hentries : (p.modify i f).entries = (p.modify i g).entries := by
    apply Array.ext_getElem?
    intro k
    unfold modify
    rw [Array.getElem?_modify, Array.getElem?_modify]
    by_cases hk : i.toNat = k
    · subst hk
      unfold entry at h
      cases hi : p.entries[i.toNat]? with
      | none => rfl
      | some e => simpa [hi] using h
    · rw [if_neg hk, if_neg hk]
  exact congrArg mk hentries

theorem modify_id (i : Index) : p.modify i id = p := by
  have hentries : (p.modify i id).entries = p.entries := by
    apply Array.ext_getElem?
    intro k
    simp [modify, Array.getElem?_modify]
  exact congrArg mk hentries

theorem modify_eq_self {i : Index} {f : Entry T F M → Entry T F M} (h : f (p.entry i) = p.entry i) :
    p.modify i f = p := (modify_congr (g := id) h).trans (modify_id i)

end Pool

end JvmClass
