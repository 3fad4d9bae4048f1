/-
  JvmClass.Proofs.Pool.Upkeep — resolved pools stay sound.

  Between its resolution and its end a pool is changed in four ways only (`Upkeep`). None of them
  touches what never changes (`Upkeep.frozen_apply`), whatever host, class or slot it is given, and
  soundness depends on nothing else.
-/

import JvmClass.Pool.Link
import JvmClass.Proofs.Pool.Resolution

namespace JvmClass

variable {T F M : Type}

namespace Entry

@[simp] theorem frozen_requireLink (e : Entry T F M) : e.requireLink.frozen = e.frozen := by cases e <;> rfl

@[simp] theorem frozen_bindType (e : Entry T F M) (t : T) : (e.bindType t).frozen = e.frozen := by cases e <;> rfl

@[simp] theorem frozen_expose (e : Entry T F M) : e.expose.frozen = e.frozen := by cases e <;> rfl

end Entry

namespace Pool

variable (p : Pool T F M)

theorem frozen_modify {p : Pool T F M} {i : Index} {f : Entry T F M → Entry T F M}
    (h : (f (p.entry i)).frozen = (p.entry i).frozen) : (p.modify i f).frozen = p.frozen := by
  unfold frozen modify
  congr 1
  apply Array.ext_getElem?
  intro k
  rw [Array.getElem?_map, Array.getElem?_map, Array.getElem?_modify]
  split
  · rename_i hk
    rw [← hk]
    unfold entry at h
    cases hi : p.entries[i.toNat]? with
    | none => rfl
    | some e =>
      rw [hi] at h
      exact congrArg some h
  · rfl

@[simp] theorem frozen_exposeTexts : p.exposeTexts.frozen = p.frozen := by
  simp [frozen, exposeTexts, Function.comp_def]

@[simp] theorem frozen_require (i : Index) : (p.require i).frozen = p.frozen := by
  unfold require
  split
  · exact frozen_modify (Entry.frozen_requireLink _)
  · rfl

@[simp] theorem frozen_bindSelf (i : Index) (t : T) : (p.bindSelf i t).frozen = p.frozen :=
  frozen_modify (Entry.frozen_bindType _ t)

end Pool

/-! ## Linking -/

namespace Linking

variable {host : Host T F M} {asking : Asking T} {l : Linking T F M} {i : Index}

theorem frozen_bind {e : Entry T F M} (h : e.frozen = (l.pool.entry i).frozen) :
    (l.bind i e).pool.frozen = l.pool.frozen := Pool.frozen_modify h

theorem pool_loadClass (name : String) : (l.loadClass host asking name).2.pool = l.pool := by
  unfold loadClass
  split <;> rfl

theorem frozen_linkClass : (l.linkClass host asking i).2.pool.frozen = l.pool.frozen := by
  unfold linkClass Pool.class?
  cases hi : l.pool.entry i with
  | cls item =>
    simp only
    cases item.type.value? with
    | some t => rfl
    | none =>
      simp only
      split
      · have hpool : (l.loadClass host asking item.name).2.pool = l.pool := pool_loadClass item.name
        rw [frozen_bind (by rw [hpool, hi]; rfl), hpool]
      · rfl
  | _ => rfl

theorem frozen_withHolder {member : MemberRef} {entry : T → Entry T F M}
    (h : ∀ t, (entry t).frozen = (l.pool.entry i).frozen) :
    (l.withHolder host asking i member entry).pool.frozen = l.pool.frozen := by
  have hclass : (l.linkClass host asking member.cls).2.pool.frozen = l.pool.frozen := frozen_linkClass
  unfold withHolder
  split
  · rename_i holder l' hl
    rw [hl] at hclass
    rw [frozen_bind, hclass]
    rw [h, ← Pool.frozen_entry, ← hclass, Pool.frozen_entry]
  · rename_i l' hl
    rw [hl] at hclass
    exact hclass

theorem member_linkMethod (item : MethodEntry T M) (holder : T) :
    (linkMethod host asking item holder).member = item.member := by
  unfold linkMethod
  simp only
  split <;> rfl

theorem frozen_linkDirect : (l.linkDirect host asking i).pool.frozen = l.pool.frozen := by
  unfold linkDirect
  split
  · exact frozen_linkClass
  · rename_i hi
    exact frozen_withHolder fun _ => by rw [hi]; rfl
  · rename_i hi
    refine frozen_withHolder fun holder => ?_
    rw [hi, Entry.frozen, member_linkMethod]
    rfl
  · rename_i hi
    exact frozen_withHolder fun _ => by rw [hi]; rfl
  · rename_i hi
    exact frozen_bind (by rw [hi]; rfl)
  · rename_i hi
    exact frozen_bind (by rw [hi]; rfl)
  · rfl

theorem frozen_linkSlot : (l.linkSlot host asking i).pool.frozen = l.pool.frozen := by
  unfold linkSlot
  split
  · exact frozen_linkDirect
  · exact frozen_linkDirect

theorem frozen_linkSlots (slots : List Index) :
    (slots.foldl (linkSlot host asking) l).pool.frozen = l.pool.frozen := by
  induction slots generalizing l with
  | nil => rfl
  | cons i slots ih => rw [List.foldl_cons, ih, frozen_linkSlot]

end Linking

@[simp] theorem Pool.frozen_link (p : Pool T F M) (host : Host T F M) (thisClass : Index) (asking : Asking T) :
    (p.link host thisClass asking).pool.frozen = p.frozen := by
  unfold link
  rw [Linking.frozen_linkSlots, Pool.frozen_bindSelf]

/-! ## All together -/

/-- What is done to resolved pools. -/
inductive Upkeep (T F M : Type)
  | exposeTexts
  | require (i : Index)
  | bindSelf (i : Index) (type : T)
  | link (host : Host T F M) (thisClass : Index) (asking : Asking T)

def Upkeep.apply (p : Pool T F M) : Upkeep T F M → Pool T F M
  | exposeTexts => p.exposeTexts
  | require i => p.require i
  | bindSelf i type => p.bindSelf i type
  | link host thisClass asking => (p.link host thisClass asking).pool

theorem Upkeep.frozen_apply (p : Pool T F M) (u : Upkeep T F M) : (u.apply p).frozen = p.frozen := by
  cases u <;> simp [apply]

theorem Upkeep.frozen_foldl (p : Pool T F M) (us : List (Upkeep T F M)) :
    (us.foldl Upkeep.apply p).frozen = p.frozen := by
  induction us generalizing p with
  | nil => rfl
  | cons u us ih => rw [List.foldl_cons, ih, frozen_apply]

/-- Whatever constants a class file has and however they are patched: if they resolve, the pool is
    sound, and it stays so, with the same constants, whatever is done to it. -/
theorem resolved_stays_sound [ToString T] {constants : List (Option Constant)}
    {patchings : List (String × List (Option (Patch T)))} {rules : Rules} {draft patched : Draft T} {p : Pool T F M}
    (hbuild : Draft.ofConstants constants = .ok draft) (hpatch : draft.patchAll patchings = .ok patched)
    (hresolve : patched.resolve F M rules = .ok p) :
    Pool.Sound rules patched p ∧ ∀ us : List (Upkeep T F M),
      Pool.Sound rules patched (us.foldl Upkeep.apply p) ∧ (us.foldl Upkeep.apply p).size = p.size ∧
        (us.foldl Upkeep.apply p).frozen = p.frozen := by
  have hvacant := Draft.startsVacant_patchAll (Draft.startsVacant_ofConstants hbuild) hpatch
  have hsound := Draft.sound_resolve hvacant hresolve
  refine ⟨hsound, ?_⟩
  intro us
  have hfrozen := Upkeep.frozen_foldl p us
  exact ⟨hsound.of_frozen hfrozen, Pool.size_of_frozen hfrozen, hfrozen⟩

/-- A method handle on a field of a class that comes later, with a name to be patched. -/
def templateConstants : List (Option Constant) :=
  [none, some (.methodHandle 1 2), some (.member .field 4 3), some (.nameAndType 5 6), some (.cls 7),
    some (.utf8 "template"), some (.utf8 "Lp/B;"), some (.utf8 "p/A")]

def templateDraft (name : String) : Draft Nat :=
  ⟨[.vacant, .methodHandle 1 2, .member .field 4 3, .nameAndType 5 6, .cls 7 none none, .text name, .text "Lp/B;",
    .text "p/A"]⟩

theorem resolved_stays_sound_template :
    ∃ p : Pool Nat Unit Unit, (templateDraft "name").resolve Unit Unit ⟨Version.java8, {}⟩ = .ok p ∧
      Pool.Sound ⟨Version.java8, {}⟩ (templateDraft "name") (p.exposeTexts.require 1) := by
  have hbuild : Draft.ofConstants templateConstants = .ok (templateDraft "template") := rfl
  have hpatch : (templateDraft "template").patchAll [("p/A", [none, none, none, none, none, some (.text "name")])] =
      .ok (templateDraft "name") := rfl
  have hsome : ((templateDraft "name").resolve Unit Unit ⟨Version.java8, {}⟩).toOption.isSome = true := by
    decide +kernel
  cases hresolve : (templateDraft "name").resolve Unit Unit ⟨Version.java8, {}⟩ with
  | error fault =>
    rw [hresolve] at hsome
    cases hsome
  | ok p =>
    obtain ⟨-, hstays⟩ := resolved_stays_sound hbuild hpatch hresolve
    exact ⟨p, rfl, (hstays [.exposeTexts, .require 1]).1⟩

end JvmClass
