/-
  JvmClass.Proofs.Pool.Visiting — what visiting slots does to a pool.

  A visit changes two slots at most: it loads the class of the slot if that is wanted, and then
  binds what the slot holds (`Linking.linkDirect_eq`). What a class is bound to does not depend on
  who has it loaded, and a slot that is bound stays as it is, so on the way each slot is either as
  it was or as it will be in the end (`Linking.Underway`). Once all slots have been visited the pool
  is `Pool.linked`, which knows of no order, and each class that was wanted has been loaded once
  (`Linking.visitAll`).
-/

import JvmClass.Proofs.Pool.Addressing
import JvmClass.Proofs.Pool.Upkeep

namespace JvmClass

variable {T F M : Type}

/-! ## Classes by name -/

namespace Host

variable (host : Host T F M) (asking : Asking T) (name : String)

/-- The type of a class that is loaded; a placeholder if that fails. -/
def typeNamed : T :=
  match host.loadClass asking.type name asking.mode with
  | .ok t => t
  | .error _ => host.unloadable name

def warning? : Option Warning :=
  match host.loadClass asking.type name asking.mode with
  | .ok _ => none
  | .error message => some (.classLoading message)

end Host

/-! ## What becomes of a slot -/

def ClassEntry.linked (host : Host T F M) (asking : Asking T) (item : ClassEntry T) : ClassEntry T :=
  if item.linkRequired then { item with type := item.type.fill fun _ => host.typeNamed asking item.name }
  else item

/-- The class is to be loaded and has not been yet. -/
def ClassEntry.isWanted (item : ClassEntry T) : Bool := item.linkRequired && item.type.value?.isNone

namespace Entry

def isWanted : Entry T F M → Bool
  | .cls item => item.isWanted
  | _ => false

/-- The type of a class. -/
def type? : Entry T F M → Option T
  | .cls item => item.type.value?
  | _ => none

variable (host : Host T F M) (asking : Asking T)

/-- What there is to say once the class is loaded. -/
def warning? : Entry T F M → Option Warning
  | .cls item => host.warning? asking item.name
  | _ => none

/-- The slot with its class loaded, if it is one. -/
def loaded : Entry T F M → Entry T F M
  | .cls item => .cls (item.linked host asking)
  | e => e

/-- The slot after a visit. The classes have these types then. -/
def linked (type? : Index → Option T) : Entry T F M → Entry T F M
  | .cls item => .cls (item.linked host asking)
  | .field m binding =>
    match type? m.cls with
    | some holder => .field m (binding.fill fun _ => FieldBinding.of host asking m holder)
    | none => .field m binding
  | .method item =>
    match type? item.member.cls with
    | some holder => .method (Linking.linkMethod host asking item holder)
    | none => .method item
  | .interfaceMethod item =>
    match type? item.member.cls with
    | some holder => .interfaceMethod (Linking.linkInterfaceMethod host asking item holder)
    | none => .interfaceMethod item
  | .methodType descriptor signature =>
    .methodType descriptor (signature.fill fun _ => Signature.of host asking descriptor)
  | .invokeDynamic bootstrap name descriptor signature =>
    .invokeDynamic bootstrap name descriptor (signature.fill fun _ => Signature.of host asking descriptor)
  | e => e

end Entry

namespace Pool

variable (host : Host T F M) (asking : Asking T) (p : Pool T F M)

/-- The type that a class has after a visit. -/
def typeVisited? (i : Index) : Option T := ((p.entry i).loaded host asking).type?

/-- The pool after all visits. -/
def linked : Pool T F M := ⟨p.entries.map (Entry.linked host asking (p.typeVisited? host asking))⟩

/-- The slot of the class of a member; any other slot stands for itself. -/
def holderOf (i : Index) : Index :=
  match (p.entry i).member? with
  | some (_, m) => m.cls
  | none => i

end Pool

/-! ## Once and for all -/

section Stable

variable {host : Host T F M} {asking : Asking T}

theorem SetOnce.fill_of_value?_eq_some {α : Type} {cell : SetOnce α} {a : α} {candidate : Unit → α}
    (h : cell.value? = some a) : cell.fill candidate = cell := by
  unfold fill
  rw [h]

theorem SetOnce.fill_fill {α : Type} (cell : SetOnce α) (candidate candidate' : Unit → α) :
    (cell.fill candidate).fill candidate' = cell.fill candidate :=
  fill_of_value?_eq_some (fill_value? cell candidate)

namespace ClassEntry

theorem isWanted_linked (item : ClassEntry T) : (item.linked host asking).isWanted = false := by
  unfold linked
  split
  · simp [isWanted, SetOnce.fill_value?]
  · simp_all [isWanted]

theorem linked_of_not_wanted {item : ClassEntry T} (h : item.isWanted = false) : item.linked host asking = item := by
  unfold linked
  split
  · rename_i hrequired
    cases htype : item.type.value? with
    | none => simp [isWanted, hrequired, htype] at h
    | some t => rw [SetOnce.fill_of_value?_eq_some htype]
  · rfl

/-- What has been loaded is not loaded again, whoever asks. -/
theorem linked_linked (item : ClassEntry T) {host' : Host T F M} {asking' : Asking T} :
    (item.linked host asking).linked host' asking' = item.linked host asking :=
  linked_of_not_wanted (isWanted_linked item)

theorem name_linked (item : ClassEntry T) : (item.linked host asking).name = item.name := by
  unfold linked
  split <;> rfl

end ClassEntry

namespace Entry

variable (type? : Index → Option T) (e : Entry T F M)

theorem loaded_eq_self_or : e.loaded host asking = e ∨ e.loaded host asking = e.linked host asking type? := by
  cases e with
  | cls item => exact .inr rfl
  | _ => exact .inl rfl

theorem linked_loaded : (e.loaded host asking).linked host asking type? = e.linked host asking type? := by
  cases e with
  | cls item => exact congrArg cls (ClassEntry.linked_linked item)
  | _ => rfl

theorem loaded_linked : (e.linked host asking type?).loaded host asking = e.linked host asking type? := by
  cases e with
  | cls item => exact congrArg cls (ClassEntry.linked_linked item)
  | field m binding => simp only [linked]; split <;> rfl
  | method item => simp only [linked]; split <;> rfl
  | interfaceMethod item => simp only [linked]; split <;> rfl
  | _ => rfl

/-- A second visit binds nothing more, even for another host and class, as long as both hosts tell
    the same types from placeholders. -/
theorem linked_linked {host' : Host T F M} {asking' : Asking T} (hhost : host'.isUnloadable = host.isUnloadable) :
    (e.linked host asking type?).linked host' asking' type? = e.linked host asking type? := by
  cases e with
  | cls item => exact congrArg cls (ClassEntry.linked_linked item)
  | field m binding => cases h : type? m.cls <;> simp [linked, h, SetOnce.fill_fill]
  | method item =>
    cases h : type? item.member.cls with
    | none => simp [linked, h]
    | some holder =>
      by_cases hholder : host.isUnloadable holder = true <;>
        simp [linked, Linking.linkMethod, Linking.linkSignature, h, hholder, hhost, SetOnce.fill_fill]
  | interfaceMethod item =>
    cases h : type? item.member.cls <;>
      simp [linked, Linking.linkInterfaceMethod, Linking.linkSignature, h, SetOnce.fill_fill]
  | methodType descriptor signature => simp [linked, SetOnce.fill_fill]
  | invokeDynamic bootstrap name descriptor signature => simp [linked, SetOnce.fill_fill]
  | _ => rfl

theorem isWanted_loaded : (e.loaded host asking).isWanted = false := by
  cases e with
  | cls item => exact ClassEntry.isWanted_linked item
  | _ => rfl

theorem isWanted_linked : (e.linked host asking type?).isWanted = false := by
  rw [← loaded_linked]
  exact isWanted_loaded _

theorem loaded_of_not_wanted {e : Entry T F M} (h : e.isWanted = false) : e.loaded host asking = e := by
  cases e with
  | cls item => exact congrArg cls (ClassEntry.linked_of_not_wanted h)
  | _ => rfl

theorem type?_linked : (e.linked host asking type?).type? = (e.loaded host asking).type? := by
  cases e with
  | field m binding => simp only [linked]; split <;> rfl
  | method item => simp only [linked]; split <;> rfl
  | interfaceMethod item => simp only [linked]; split <;> rfl
  | _ => rfl

theorem member?_linked : (e.linked host asking type?).member? = e.member? := by
  cases e with
  | field m binding => simp only [linked]; split <;> rfl
  | method item =>
    simp only [linked]
    split
    · rw [member?, Linking.member_linkMethod]
      rfl
    · rfl
  | interfaceMethod item => simp only [linked]; split <;> rfl
  | _ => rfl

end Entry

namespace Pool

variable {p : Pool T F M} {i : Index}

theorem entry_linked :
    (p.linked host asking).entry i = (p.entry i).linked host asking (p.typeVisited? host asking) := by
  unfold linked entry
  rw [Array.getElem?_map]
  cases p.entries[i.toNat]? <;> rfl

theorem size_linked : (p.linked host asking).size = p.size := Array.size_map

/-- Classes are no members. -/
theorem holderOf_of_wanted (h : (p.entry i).isWanted = true) : p.holderOf i = i := by
  unfold holderOf
  cases hi : p.entry i <;> first | rfl | (rw [hi] at h; cases h)

end Pool

end Stable

/-! ## One visit -/

namespace Linking

variable {host : Host T F M} {asking : Asking T} {l : Linking T F M} {i : Index}

theorem loadClass_eq (name : String) : l.loadClass host asking name =
    (host.typeNamed asking name, ⟨l.pool, l.warnings ++ (host.warning? asking name).toArray⟩) := by
  unfold loadClass Host.typeNamed Host.warning? warn
  cases host.loadClass asking.type name asking.mode <;> simp

/-- Nothing is loaded for a class that has a type, or need not have one. -/
theorem linkClass_of_not_wanted (h : (l.pool.entry i).isWanted = false) :
    l.linkClass host asking i = (l.pool.typeVisited? host asking i, l) := by
  unfold Pool.typeVisited?
  rw [Entry.loaded_of_not_wanted h]
  unfold linkClass Pool.class?
  cases hi : l.pool.entry i with
  | cls item =>
    rw [hi, Entry.isWanted, ClassEntry.isWanted] at h
    simp only [Entry.type?]
    cases htype : item.type.value? with
    | some t => rfl
    | none =>
      have hrequired : item.linkRequired = false := by simpa [htype] using h
      simp [hrequired]
  | _ => rfl

theorem linkClass_of_wanted (h : (l.pool.entry i).isWanted = true) :
    l.linkClass host asking i = (l.pool.typeVisited? host asking i,
      ⟨l.pool.modify i (Entry.loaded host asking),
        l.warnings ++ ((l.pool.entry i).warning? host asking).toArray⟩) := by
  unfold Pool.typeVisited? linkClass Pool.class?
  cases hi : l.pool.entry i with
  | cls item =>
    rw [hi, Entry.isWanted, ClassEntry.isWanted, Bool.and_eq_true, Option.isNone_iff_eq_none] at h
    obtain ⟨hrequired, htype⟩ := h
    have hlinked : item.linked host asking = { item with type := .full (host.typeNamed asking item.name) } := by
      simp [ClassEntry.linked, hrequired, SetOnce.fill, htype]
    have hmodify : l.pool.modify i (Entry.loaded host asking) =
        l.pool.modify i fun _ => .cls { item with type := .full (host.typeNamed asking item.name) } :=
      Pool.modify_congr (by rw [hi, Entry.loaded, hlinked])
    simp only [htype, hrequired, if_true, loadClass_eq, hmodify, bind, Entry.loaded, Entry.type?,
      Entry.warning?, hlinked, SetOnce.full]
  | _ =>
    rw [hi] at h
    cases h

variable (host asking l i) in
theorem linkClass_fst : (l.linkClass host asking i).1 = l.pool.typeVisited? host asking i := by
  by_cases h : (l.pool.entry i).isWanted = true
  · rw [linkClass_of_wanted h]
  · rw [linkClass_of_not_wanted (by simpa using h)]

variable (host asking l i) in
theorem pool_linkClass : (l.linkClass host asking i).2.pool = l.pool.modify i (Entry.loaded host asking) := by
  by_cases h : (l.pool.entry i).isWanted = true
  · rw [linkClass_of_wanted h]
  · have hwanted : (l.pool.entry i).isWanted = false := by simpa using h
    rw [linkClass_of_not_wanted hwanted]
    exact (Pool.modify_eq_self (Entry.loaded_of_not_wanted hwanted)).symm

/-- A member is bound to what its class is bound to, and not at all before that. -/
theorem withHolder_eq {m : MemberRef} {e : Entry T F M} {entry : T → Entry T F M} (hi : l.pool.entry i = e)
    (hloaded : e.loaded host asking = e)
    (hlinked : e.linked host asking (l.pool.typeVisited? host asking) =
      match l.pool.typeVisited? host asking m.cls with
      | some holder => entry holder
      | none => e) :
    (l.withHolder host asking i m entry).pool = (l.pool.modify m.cls (Entry.loaded host asking)).modify i
        (Entry.linked host asking (l.pool.typeVisited? host asking)) ∧
      (l.withHolder host asking i m entry).warnings = (l.linkClass host asking m.cls).2.warnings := by
  have hfst := linkClass_fst host asking l m.cls
  have hpool := pool_linkClass host asking l m.cls
  have hentry : (l.pool.modify m.cls (Entry.loaded host asking)).entry i = e := by
    rw [Pool.entry_modify rfl, hi, hloaded, ite_self]
  unfold withHolder
  split
  · rename_i holder l' hl
    rw [hl] at hfst hpool
    rw [← hfst] at hlinked
    refine ⟨?_, by rw [hl]; rfl⟩
    show l'.pool.modify i _ = _
    rw [show l'.pool = _ from hpool]
    refine Pool.modify_congr ?_
    rw [hentry, hlinked]
  · rename_i l' hl
    rw [hl] at hfst hpool
    rw [← hfst] at hlinked
    refine ⟨?_, by rw [hl]⟩
    rw [← hpool]
    refine (Pool.modify_eq_self ?_).symm
    rw [hpool, hentry, hlinked]

variable (host asking) in
/-- Where there is no class to load. -/
theorem linkClass_of_not_class {e : Entry T F M} (hi : l.pool.entry i = e) (he : e.isClass = false) :
    (l.linkClass host asking i).2 = l ∧ l.pool.modify i (Entry.loaded host asking) = l.pool := by
  have hwanted : (l.pool.entry i).isWanted = false := by
    rw [hi]
    cases e <;> first | rfl | cases he
  rw [linkClass_of_not_wanted hwanted]
  exact ⟨rfl, Pool.modify_eq_self (Entry.loaded_of_not_wanted hwanted)⟩

variable (host asking l i) in
/-- A visit to a slot that holds no method handle loads a class and binds what the slot holds. -/
theorem linkDirect_eq : (l.linkDirect host asking i).pool =
      (l.pool.modify (l.pool.holderOf i) (Entry.loaded host asking)).modify i
        (Entry.linked host asking (l.pool.typeVisited? host asking)) ∧
    (l.linkDirect host asking i).warnings = (l.linkClass host asking (l.pool.holderOf i)).2.warnings := by
  unfold linkDirect Pool.holderOf
  cases hi : l.pool.entry i with
  | cls item =>
    refine ⟨?_, rfl⟩
    simp only [Entry.member?]
    rw [pool_linkClass]
    refine (Pool.modify_eq_self ?_).symm
    rw [Pool.entry_modify rfl, if_pos rfl, hi, Entry.loaded, Entry.linked, ClassEntry.linked_linked]
  | field m binding => exact withHolder_eq hi rfl rfl
  | method item => exact withHolder_eq hi rfl rfl
  | interfaceMethod item => exact withHolder_eq hi rfl rfl
  | methodType descriptor signature =>
    obtain ⟨hclass, hloaded⟩ := linkClass_of_not_class host asking hi rfl
    refine ⟨?_, (congrArg warnings hclass).symm⟩
    simp only [Entry.member?, hloaded, bind]
    exact Pool.modify_congr (by rw [hi, Entry.linked])
  | invokeDynamic bootstrap name descriptor signature =>
    obtain ⟨hclass, hloaded⟩ := linkClass_of_not_class host asking hi rfl
    refine ⟨?_, (congrArg warnings hclass).symm⟩
    simp only [Entry.member?, hloaded, bind]
    exact Pool.modify_congr (by rw [hi, Entry.linked])
  | _ =>
    obtain ⟨hclass, hloaded⟩ := linkClass_of_not_class host asking hi rfl
    refine ⟨?_, (congrArg warnings hclass).symm⟩
    exact ((Pool.modify_eq_self (by rw [hloaded, hi]; rfl)).trans hloaded).symm

/-! ## All visits -/

/-- Between the visits: each slot of `p` is as it was or as it will be, and these classes have been
    loaded so far. -/
structure Underway (host : Host T F M) (asking : Asking T) (p : Pool T F M) (loaded : List Index)
    (l : Linking T F M) : Prop where
  size : l.pool.size = p.size
  entries : ∀ i, l.pool.entry i = p.entry i ∨ l.pool.entry i = (p.linked host asking).entry i
  nodup : loaded.Nodup
  mem_loaded : ∀ i, i ∈ loaded ↔ (p.entry i).isWanted = true ∧ (l.pool.entry i).isWanted = false
  warnings : l.warnings.toList = loaded.filterMap fun i => (p.entry i).warning? host asking

namespace Underway

variable {p : Pool T F M} {loaded : List Index} (h : Underway host asking p loaded l)
include h

theorem typeVisited? (j : Index) : l.pool.typeVisited? host asking j = p.typeVisited? host asking j := by
  unfold Pool.typeVisited?
  rcases h.entries j with hj | hj
  · rw [hj]
  · rw [hj, Pool.entry_linked, Entry.loaded_linked, Entry.type?_linked]

theorem holderOf (j : Index) : l.pool.holderOf j = p.holderOf j := by
  unfold Pool.holderOf
  rcases h.entries j with hj | hj
  · rw [hj]
  · rw [hj, Pool.entry_linked, Entry.member?_linked]

theorem linked_entry (j : Index) :
    (l.pool.entry j).linked host asking (p.typeVisited? host asking) = (p.linked host asking).entry j := by
  rcases h.entries j with hj | hj
  · rw [hj, Pool.entry_linked]
  · rw [hj, Pool.entry_linked, Entry.linked_linked _ _ rfl]

/-- A visit completes its slot and loads the class of it. -/
theorem entry_linkDirect (i j : Index) : (l.linkDirect host asking i).pool.entry j =
    if i = j then (p.linked host asking).entry j
    else if p.holderOf i = j then (l.pool.entry j).loaded host asking
    else l.pool.entry j := by
  have hpool := (linkDirect_eq host asking l i).1
  rw [show l.pool.typeVisited? host asking = p.typeVisited? host asking from funext h.typeVisited?,
    h.holderOf] at hpool
  rw [hpool, Pool.entry_modify rfl, Pool.entry_modify rfl]
  by_cases hi : i = j
  · rw [if_pos hi, if_pos hi, ← h.linked_entry]
    split
    · rw [Entry.linked_loaded]
    · rfl
  · rw [if_neg hi, if_neg hi]

theorem isWanted_linkDirect (i j : Index) : ((l.linkDirect host asking i).pool.entry j).isWanted =
    ((l.pool.entry j).isWanted && p.holderOf i != j) := by
  rw [h.entry_linkDirect]
  by_cases hi : i = j
  · subst hi
    rw [if_pos rfl, Pool.entry_linked, Entry.isWanted_linked]
    cases hwanted : (l.pool.entry i).isWanted with
    | false => rfl
    | true =>
      rw [← h.holderOf, Pool.holderOf_of_wanted hwanted]
      simp
  · rw [if_neg hi]
    by_cases hj : p.holderOf i = j
    · rw [if_pos hj, Entry.isWanted_loaded]
      simp [hj]
    · rw [if_neg hj]
      simp [hj]

theorem entries_linkDirect (i j : Index) : (l.linkDirect host asking i).pool.entry j = p.entry j ∨
    (l.linkDirect host asking i).pool.entry j = (p.linked host asking).entry j := by
  rw [h.entry_linkDirect]
  by_cases hi : i = j
  · exact .inr (if_pos hi)
  · rw [if_neg hi]
    split
    · rcases h.entries j with hj | hj
      · rw [hj, Pool.entry_linked]
        exact Entry.loaded_eq_self_or _ _
      · rw [hj, Pool.entry_linked, Entry.loaded_linked]
        exact .inr rfl
    · exact h.entries j

theorem entry_of_wanted {j : Index} (hwanted : (l.pool.entry j).isWanted = true) : l.pool.entry j = p.entry j := by
  rcases h.entries j with hj | hj
  · exact hj
  · rw [hj, Pool.entry_linked, Entry.isWanted_linked] at hwanted
    cases hwanted

/-- The class of the slot joins those loaded, if it is wanted. -/
theorem linkDirect (i : Index) : ∃ loaded', Underway host asking p loaded' (l.linkDirect host asking i) := by
  obtain ⟨hpool, hwarnings⟩ := linkDirect_eq host asking l i
  have hsize : (l.linkDirect host asking i).pool.size = p.size := by
    rw [hpool, Pool.size_modify, Pool.size_modify, h.size]
  rw [h.holderOf] at hwarnings
  by_cases hwanted : (l.pool.entry (p.holderOf i)).isWanted = true
  · have hentry := h.entry_of_wanted hwanted
    have hnew : p.holderOf i ∉ loaded := by
      intro hmem
      rw [((h.mem_loaded _).mp hmem).2] at hwanted
      cases hwanted
    refine ⟨loaded ++ [p.holderOf i], hsize, h.entries_linkDirect i, ?_, ?_, ?_⟩
    · refine List.nodup_append.mpr ⟨h.nodup, by simp, ?_⟩
      intro a ha b hb hab
      rw [hab, List.mem_singleton.mp hb] at ha
      exact hnew ha
    · intro j
      rw [List.mem_append, List.mem_singleton, h.mem_loaded, h.isWanted_linkDirect]
      by_cases hj : p.holderOf i = j
      · rw [hj] at hentry hwanted
        simp [hj, ← hentry, hwanted]
      · simp [hj, Ne.symm hj]
    · rw [hwarnings, linkClass_of_wanted hwanted, List.filterMap_append, ← h.warnings, hentry]
      cases hw : (p.entry (p.holderOf i)).warning? host asking <;> simp [hw]
  · have hnot : (l.pool.entry (p.holderOf i)).isWanted = false := by simpa using hwanted
    refine ⟨loaded, hsize, h.entries_linkDirect i, h.nodup, ?_, ?_⟩
    · intro j
      rw [h.mem_loaded, h.isWanted_linkDirect]
      by_cases hj : p.holderOf i = j
      · rw [hj] at hnot
        simp [hj, hnot]
      · simp [hj]
    · rw [hwarnings, linkClass_of_not_wanted hnot, h.warnings]

/-- A slot that is complete stays so. -/
theorem entry_linkDirect_of_complete (i : Index) {j : Index}
    (hj : l.pool.entry j = (p.linked host asking).entry j) :
    (l.linkDirect host asking i).pool.entry j = (p.linked host asking).entry j := by
  rw [h.entry_linkDirect]
  by_cases hi : i = j
  · rw [if_pos hi]
  · rw [if_neg hi]
    split
    · rw [hj, Pool.entry_linked, Entry.loaded_linked]
    · exact hj

/-- A visit completes its slot; with a method handle there is nothing to complete. -/
theorem linkSlot (i : Index) : ∃ loaded', Underway host asking p loaded' (l.linkSlot host asking i) ∧
    ∀ j, j = i ∨ l.pool.entry j = (p.linked host asking).entry j →
      (l.linkSlot host asking i).pool.entry j = (p.linked host asking).entry j := by
  unfold Linking.linkSlot
  cases hi : l.pool.entry i with
  | methodHandle kind reference =>
    have hcomplete : l.pool.entry i = (p.linked host asking).entry i := by
      rw [← h.linked_entry, hi]
      rfl
    obtain ⟨loaded', h'⟩ := h.linkDirect reference
    refine ⟨loaded', h', ?_⟩
    rintro j (rfl | hj)
    · exact h.entry_linkDirect_of_complete reference hcomplete
    · exact h.entry_linkDirect_of_complete reference hj
  | _ =>
    obtain ⟨loaded', h'⟩ := h.linkDirect i
    refine ⟨loaded', h', ?_⟩
    rintro j (rfl | hj)
    · simp only [h.entry_linkDirect, if_true]
    · exact h.entry_linkDirect_of_complete i hj

theorem linkSlots (order : List Index) :
    ∃ loaded', Underway host asking p loaded' (order.foldl (Linking.linkSlot host asking) l) ∧
      ∀ j, j ∈ order ∨ l.pool.entry j = (p.linked host asking).entry j →
        (order.foldl (Linking.linkSlot host asking) l).pool.entry j = (p.linked host asking).entry j := by
  induction order generalizing l loaded with
  | nil => exact ⟨loaded, h, by simp⟩
  | cons i order ih =>
    obtain ⟨loaded₁, h₁, hcomplete₁⟩ := h.linkSlot i
    obtain ⟨loaded', h', hcomplete⟩ := ih h₁
    refine ⟨loaded', h', ?_⟩
    intro j hj
    refine hcomplete j ?_
    rcases hj with hj | hj
    · rcases List.mem_cons.mp hj with hji | hj
      · exact .inr (hcomplete₁ j (.inl hji))
      · exact .inl hj
    · exact .inr (hcomplete₁ j (.inr hj))

end Underway

variable (host asking) in
theorem underway_start (p : Pool T F M) : Underway host asking p [] ⟨p, #[]⟩ := by
  refine ⟨rfl, fun i => .inl rfl, List.nodup_nil, ?_, rfl⟩
  intro i
  cases (p.entry i).isWanted <;> simp

/-- In any order, the visits bring about the one pool, and load each class that is wanted once. -/
theorem visitAll {p : Pool T F M} (hsize : p.size ≤ 0x10000) {order : List Index}
    (horder : ∀ i, p.entry i ≠ .vacant → i ∈ order) :
    ∃ loaded : List Index, loaded.Nodup ∧ (∀ i, i ∈ loaded ↔ (p.entry i).isWanted = true) ∧
      (order.foldl (linkSlot host asking) ⟨p, #[]⟩).pool = p.linked host asking ∧
      (order.foldl (linkSlot host asking) ⟨p, #[]⟩).warnings.toList =
        loaded.filterMap fun i => (p.entry i).warning? host asking := by
  obtain ⟨loaded, h, hcomplete⟩ := (underway_start host asking p).linkSlots order
  have hpool : (order.foldl (linkSlot host asking) ⟨p, #[]⟩).pool = p.linked host asking := by
    refine Pool.ext_entry (Nat.le_trans (Nat.le_of_eq Pool.size_linked) hsize) (h.size.trans Pool.size_linked.symm) ?_
    intro i
    refine hcomplete i ?_
    by_cases hi : p.entry i = .vacant
    · exact .inr (by rw [Pool.entry_linked, hi]; rfl)
    · exact .inl (horder i hi)
  refine ⟨loaded, h.nodup, ?_, hpool, h.warnings⟩
  intro i
  rw [h.mem_loaded, hpool, Pool.entry_linked, Entry.isWanted_linked]
  simp

end Linking

/-! ## The whole pool -/

namespace Pool

variable {p : Pool T F M}

theorem mem_slots (hsize : p.size ≤ 0x10000) (i : Index) : i ∈ p.slots ↔ 0 < i.toNat ∧ i.toNat < p.size := by
  unfold slots
  simp only [List.mem_map, List.mem_range]
  refine ⟨?_, ?_⟩
  · rintro ⟨k, hk, rfl⟩
    have hnat : (k + 1).toUInt16.toNat = k + 1 := UInt16.toNat_ofNat_of_lt' (show k + 1 < 0x10000 by omega)
    omega
  · rintro ⟨hpos, hlt⟩
    refine ⟨i.toNat - 1, by omega, ?_⟩
    rw [Nat.sub_add_cancel hpos]
    exact UInt16.ofNat_toNat

theorem entry_bindSelf (i j : Index) (t : T) :
    (p.bindSelf i t).entry j = if i = j then (p.entry j).bindType t else p.entry j := entry_modify rfl

theorem slots_bindSelf (i : Index) (t : T) : (p.bindSelf i t).slots = p.slots := by
  unfold slots
  rw [show (p.bindSelf i t).size = p.size from size_modify i _]

/-- Each constant has an index, which is not 0. -/
structure Addressable (p : Pool T F M) : Prop where
  size : p.size ≤ 0x10000
  vacant : p.entry 0 = .vacant

namespace Addressable

theorem of_frozen {q : Pool T F M} (hp : p.Addressable) (h : q.frozen = p.frozen) : q.Addressable where
  size := size_of_frozen h ▸ hp.size
  vacant := vacant_of_frozen h hp.vacant

/-- All constants are visited. -/
theorem mem_slots (hp : p.Addressable) {i : Index} (hi : p.entry i ≠ .vacant) : i ∈ p.slots := by
  refine (Pool.mem_slots hp.size i).mpr ⟨?_, ?_⟩
  · refine Nat.pos_of_ne_zero fun h => hi ?_
    rw [show i = 0 from UInt16.toNat_inj.mp h, hp.vacant]
  · exact Nat.lt_of_not_le fun h => hi (entry_of_size_le h)

/-- What linking comes to, whatever the order of the visits. -/
theorem linkSlots_eq (hp : p.Addressable) (host : Host T F M) (thisClass : Index) (asking : Asking T)
    {order : List Index} (horder : order.Perm p.slots) :
    ∃ loaded : List Index, loaded.Nodup ∧
      (∀ i, i ∈ loaded ↔ ((p.bindSelf thisClass asking.type).entry i).isWanted = true) ∧
      (order.foldl (Linking.linkSlot host asking) ⟨p.bindSelf thisClass asking.type, #[]⟩).pool =
        (p.bindSelf thisClass asking.type).linked host asking ∧
      (order.foldl (Linking.linkSlot host asking) ⟨p.bindSelf thisClass asking.type, #[]⟩).warnings.toList =
        loaded.filterMap fun i => ((p.bindSelf thisClass asking.type).entry i).warning? host asking := by
  have hself := hp.of_frozen (frozen_bindSelf p thisClass asking.type)
  refine Linking.visitAll hself.size ?_
  intro i hi
  rw [horder.mem_iff, ← slots_bindSelf]
  exact hself.mem_slots hi

theorem pool_link (hp : p.Addressable) (host : Host T F M) (thisClass : Index) (asking : Asking T) :
    (p.link host thisClass asking).pool = (p.bindSelf thisClass asking.type).linked host asking := by
  obtain ⟨_, -, -, hpool, -⟩ := hp.linkSlots_eq host thisClass asking (List.Perm.refl p.slots)
  exact hpool

/-- Each slot of the linked pool, by the types that the classes have then. -/
theorem entry_link (hp : p.Addressable) (host : Host T F M) (thisClass : Index) (asking : Asking T) (i : Index) :
    (p.link host thisClass asking).pool.entry i = ((p.bindSelf thisClass asking.type).entry i).linked host asking
      fun j => ((p.link host thisClass asking).pool.entry j).type? := by
  simp only [hp.pool_link, entry_linked, Entry.type?_linked]
  rfl

end Addressable

end Pool

end JvmClass
