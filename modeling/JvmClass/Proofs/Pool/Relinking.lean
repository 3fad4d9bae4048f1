/-
  JvmClass.Proofs.Pool.Relinking — linking once and again.

  A pool that has been linked leaves nothing to do to a second link as the same class, whatever host
  it asks (`Pool.Settled`), and texts may be exposed in between. A class that could not be loaded is
  bound to a placeholder, so no later link reports it again (`Upkeep.reports_eq`).
  - `linking_is_set_once`: what is known stays known, linking again changes nothing, and a class
    whose loading fails is reported once.
-/

import JvmClass.Proofs.Pool.Binding
import JvmClass.Proofs.Pool.Growth

namespace JvmClass

variable {T F M : Type}

/-! ## Nothing left to do -/

/-- To a link as the class at `thisClass` there is nothing left to do, whatever host is asked that tells
    these types from placeholders. -/
structure Pool.Settled (isUnloadable : T → Bool) (thisClass : Index) (p : Pool T F M) : Prop where
  self : ∀ t, (p.entry thisClass).bindType t = p.entry thisClass
  wanted : ∀ i, (p.entry i).isWanted = false
  linked : ∀ (host : Host T F M) (asking : Asking T) (i : Index), host.isUnloadable = isUnloadable →
    (p.entry i).linked host asking (fun j => (p.entry j).type?) = p.entry i

namespace Entry

theorem bindType_eq_self {e : Entry T F M} (h : e.isClass = true → e.type?.isSome = true) (t : T) :
    e.bindType t = e := by
  cases e with
  | cls item =>
    obtain ⟨u, hu⟩ := Option.isSome_iff_exists.mp (h rfl)
    rw [type?] at hu
    simp only [bindType, SetOnce.commit, hu]
  | _ => rfl

theorem isSome_type?_bindType {e : Entry T F M} (h : e.isClass = true) (t : T) :
    (e.bindType t).type?.isSome = true := by
  cases e with
  | cls item => rw [bindType, type?, SetOnce.commit_snd, Option.isSome_some]
  | _ => cases h

theorem isWanted_bindType (e : Entry T F M) (t : T) : (e.bindType t).isWanted = false := by
  cases e with
  | cls item =>
    simp only [bindType, isWanted, ClassEntry.isWanted, SetOnce.commit_snd, Option.isNone_some, Bool.and_false]
  | _ => rfl

theorem isWanted_expose (e : Entry T F M) : e.expose.isWanted = e.isWanted := by cases e <;> rfl

theorem bindType_expose (e : Entry T F M) (t : T) : e.expose.bindType t = (e.bindType t).expose := by cases e <;> rfl

theorem linked_expose (host : Host T F M) (asking : Asking T) (type? : Index → Option T) (e : Entry T F M) :
    e.expose.linked host asking type? = (e.linked host asking type?).expose := by
  cases e with
  | field m binding =>
    simp only [expose, linked]
    split <;> rfl
  | method item =>
    simp only [expose, linked]
    split <;> rfl
  | interfaceMethod item =>
    simp only [expose, linked]
    split <;> rfl
  | _ => rfl

theorem isClass_of_frozen {e e' : Entry T F M} (h : e'.frozen = e.frozen) : e'.isClass = e.isClass := by
  rw [← isClass_frozen, h, isClass_frozen]

end Entry

namespace Pool.Settled

variable {p : Pool T F M} {isUnloadable : T → Bool} {thisClass : Index}

theorem exposeTexts (h : p.Settled isUnloadable thisClass) : p.exposeTexts.Settled isUnloadable thisClass where
  self t := by rw [entry_exposeTexts, Entry.bindType_expose, h.self]
  wanted i := by rw [entry_exposeTexts, Entry.isWanted_expose, h.wanted]
  linked host asking i hhost := by
    simp only [entry_exposeTexts, Entry.type?_expose]
    rw [Entry.linked_expose, h.linked host asking i hhost]

theorem exposed (h : p.Settled isUnloadable thisClass) {us : List (Upkeep T F M)}
    (hus : ∀ u ∈ us, u = .exposeTexts) : (us.foldl Upkeep.apply p).Settled isUnloadable thisClass := by
  induction us generalizing p with
  | nil => exact h
  | cons u us ih =>
    rw [List.forall_mem_cons] at hus
    obtain ⟨rfl, hus⟩ := hus
    exact ih h.exposeTexts hus

/-- A link settles the pool. -/
theorem of_link (hp : p.Addressable) (host : Host T F M) (thisClass : Index) (asking : Asking T) :
    (p.link host thisClass asking).pool.Settled host.isUnloadable thisClass := by
  rw [hp.pool_link]
  refine ⟨?_, ?_, ?_⟩
  · intro t
    refine Entry.bindType_eq_self ?_ t
    intro hclass
    have hgrows := Entry.Grows.linked host asking ((p.bindSelf thisClass asking.type).typeVisited? host asking)
      ((p.bindSelf thisClass asking.type).entry thisClass)
    rw [← entry_linked, entry_bindSelf, if_pos rfl] at hgrows
    rw [Entry.isClass_of_frozen hgrows.frozen, Entry.isClass_bindType] at hclass
    obtain ⟨u, hu⟩ := Option.isSome_iff_exists.mp (Entry.isSome_type?_bindType hclass asking.type)
    rw [hgrows.type u hu, Option.isSome_some]
  · intro i
    rw [entry_linked, Entry.isWanted_linked]
  · intro host' asking' i hhost
    simp only [entry_linked, Entry.type?_linked]
    exact Entry.linked_linked _ _ hhost

/-- A link of a settled pool does nothing. -/
theorem link_eq (h : p.Settled isUnloadable thisClass) (hp : p.Addressable) {host : Host T F M}
    (hhost : host.isUnloadable = isUnloadable) (asking : Asking T) :
    p.link host thisClass asking = ⟨p, #[]⟩ := by
  have hself : p.bindSelf thisClass asking.type = p := modify_eq_self (h.self asking.type)
  obtain ⟨loaded, -, hmem, hpool, hwarnings⟩ := hp.linkSlots_eq host thisClass asking (List.Perm.refl p.slots)
  rw [hself] at hmem hpool hwarnings
  have hnone : loaded = [] := List.eq_nil_iff_forall_not_mem.mpr fun i hi => by
    rw [hmem, h.wanted] at hi
    cases hi
  have hlinked : p.linked host asking = p := by
    refine ext_entry hp.size size_linked ?_
    intro i
    have htypes : p.typeVisited? host asking = fun j => (p.entry j).type? := by
      funext j
      rw [typeVisited?, Entry.loaded_of_not_wanted (h.wanted j)]
    rw [entry_linked, htypes, h.linked host asking i hhost]
  rw [hnone, List.filterMap_nil, Array.toList_eq_nil_iff] at hwarnings
  rw [hlinked] at hpool
  rw [Pool.link, hself]
  exact congr (congrArg Linking.mk hpool) hwarnings

end Pool.Settled

/-! ## What is reported -/

theorem Host.warning?_eq_some_iff {host : Host T F M} {asking : Asking T} {name : String} {w : Warning} :
    host.warning? asking name = some w ↔
      ∃ message, host.loadClass asking.type name asking.mode = .error message ∧ w = .classLoading message := by
  unfold warning?
  cases host.loadClass asking.type name asking.mode with
  | ok t => simp
  | error message => simp [eq_comm]

/-- A link as the class at `thisClass` has to load the class at slot `i`, and cannot. -/
def Pool.FailsToLoad (p : Pool T F M) (host : Host T F M) (thisClass : Index) (asking : Asking T) (i : Index)
    (w : Warning) : Prop :=
  ∃ item message, p.entry i = .cls item ∧ item.linkRequired = true ∧ item.type.value? = none ∧ thisClass ≠ i ∧
    host.loadClass asking.type item.name asking.mode = .error message ∧ w = .classLoading message

namespace Upkeep

def reported (p : Pool T F M) : Upkeep T F M → List Warning
  | link host thisClass asking => (p.link host thisClass asking).warnings.toList
  | _ => []

/-- All that is reported in the course of a run. -/
def reports (p : Pool T F M) : List (Upkeep T F M) → List Warning
  | [] => []
  | u :: us => u.reported p ++ reports (u.apply p) us

/-- The class at the slot is made the class itself. -/
def BindsSelf (i : Index) : Upkeep T F M → Prop
  | bindSelf j _ | link _ j _ => j = i
  | exposeTexts | require _ => False

end Upkeep

namespace Pool

variable {p : Pool T F M} {host : Host T F M} {thisClass : Index} {asking : Asking T} {i : Index} {w : Warning}

theorem FailsToLoad.type?_eq_none (h : p.FailsToLoad host thisClass asking i w) : (p.entry i).type? = none := by
  obtain ⟨item, message, hi, -, htype, -⟩ := h
  rw [hi]
  exact htype

/-- The classes that are wanted are those without a type, the class itself apart. -/
theorem failsToLoad_of_wanted (h : ((p.bindSelf thisClass asking.type).entry i).isWanted = true)
    (hw : ((p.bindSelf thisClass asking.type).entry i).warning? host asking = some w) :
    p.FailsToLoad host thisClass asking i w := by
  rw [entry_bindSelf] at h hw
  by_cases hi : thisClass = i
  · rw [if_pos hi, Entry.isWanted_bindType] at h
    cases h
  · rw [if_neg hi] at h hw
    cases hentry : p.entry i with
    | cls item =>
      rw [hentry, Entry.isWanted, ClassEntry.isWanted, Bool.and_eq_true, Option.isNone_iff_eq_none] at h
      rw [hentry, Entry.warning?, Host.warning?_eq_some_iff] at hw
      obtain ⟨message, hload, rfl⟩ := hw
      exact ⟨item, message, hentry, h.1, h.2, hi, hload, rfl⟩
    | _ =>
      rw [hentry] at h
      cases h

/-- What a link reports is that classes cannot be loaded, each of them once. -/
theorem link_reports (hp : p.Addressable) (host : Host T F M) (thisClass : Index) (asking : Asking T) :
    ∃ failed : List (Index × Warning), (p.link host thisClass asking).warnings.toList = failed.map Prod.snd ∧
      (failed.map Prod.fst).Nodup ∧ ∀ f ∈ failed, p.FailsToLoad host thisClass asking f.1 f.2 := by
  obtain ⟨loaded, hnodup, hmem, -, hwarnings⟩ := hp.linkSlots_eq host thisClass asking (List.Perm.refl p.slots)
  refine ⟨loaded.filterMap fun i =>
    (((p.bindSelf thisClass asking.type).entry i).warning? host asking).map fun w => (i, w), ?_, ?_, ?_⟩
  · simp only [Pool.link, hwarnings, List.map_filterMap, Option.map_map, Function.comp_def, Option.map_id']
  · rw [List.map_filterMap]
    refine List.Pairwise.filterMap _ ?_ hnodup
    intro i j hij k hk k' hk'
    simp only [Option.map_map, Option.map_eq_some_iff, Function.comp_apply] at hk hk'
    obtain ⟨-, -, rfl⟩ := hk
    obtain ⟨-, -, rfl⟩ := hk'
    exact hij
  · intro f hf
    obtain ⟨i, hi, hpair⟩ := List.mem_filterMap.mp hf
    obtain ⟨w, hw, rfl⟩ := Option.map_eq_some_iff.mp hpair
    exact failsToLoad_of_wanted ((hmem i).mp hi) hw

/-- A class that could not be loaded has a type from then on. -/
theorem FailsToLoad.isSome_type?_link (h : p.FailsToLoad host thisClass asking i w) (hp : p.Addressable) :
    ((p.link host thisClass asking).pool.entry i).type?.isSome = true := by
  obtain ⟨item, message, hi, hrequired, -, hself, -⟩ := h
  rw [hp.entry_link, entry_bindSelf, if_neg hself, hi, Entry.linked, Entry.type?, ClassEntry.linked,
    if_pos hrequired, SetOnce.fill_value?, Option.isSome_some]

end Pool

namespace Upkeep

variable {p : Pool T F M}

theorem reported_eq (hp : p.Addressable) (u : Upkeep T F M) :
    ∃ failed : List (Index × Warning), u.reported p = failed.map Prod.snd ∧ (failed.map Prod.fst).Nodup ∧
      ∀ f ∈ failed, ∃ host thisClass asking, u = .link host thisClass asking ∧
        p.FailsToLoad host thisClass asking f.1 f.2 := by
  cases u with
  | link host thisClass asking =>
    obtain ⟨failed, hreported, hnodup, hfails⟩ := Pool.link_reports hp host thisClass asking
    exact ⟨failed, hreported, hnodup, fun f hf => ⟨host, thisClass, asking, rfl, hfails f hf⟩⟩
  | _ => exact ⟨[], rfl, List.nodup_nil, by simp⟩

/-- In the course of a run a slot is reported once at most: then it has a type, and keeps it. -/
theorem reports_eq (hp : p.Addressable) (us : List (Upkeep T F M)) :
    ∃ failed : List (Index × Warning), reports p us = failed.map Prod.snd ∧ (failed.map Prod.fst).Nodup ∧
      ∀ f ∈ failed, ∃ before host thisClass asking after, us = before ++ .link host thisClass asking :: after ∧
        (before.foldl apply p).FailsToLoad host thisClass asking f.1 f.2 := by
  induction us generalizing p with
  | nil => exact ⟨[], rfl, List.nodup_nil, by simp⟩
  | cons u us ih =>
    have hp' : (u.apply p).Addressable := hp.of_frozen (frozen_apply p u)
    obtain ⟨first, hfirst, hnodup, hfails⟩ := reported_eq hp u
    obtain ⟨later, hlater, hnodup', hfails'⟩ := ih hp'
    refine ⟨first ++ later, ?_, ?_, ?_⟩
    · rw [reports, hfirst, hlater, List.map_append]
    · rw [List.map_append]
      refine List.nodup_append.mpr ⟨hnodup, hnodup', ?_⟩
      intro i hi j hj hij
      obtain ⟨f, hf, rfl⟩ := List.mem_map.mp hi
      obtain ⟨f', hf', rfl⟩ := List.mem_map.mp hj
      obtain ⟨host, thisClass, asking, rfl, hfail⟩ := hfails f hf
      obtain ⟨before, host', thisClass', asking', after, -, hfail'⟩ := hfails' f' hf'
      obtain ⟨t, ht⟩ := Option.isSome_iff_exists.mp (hfail.isSome_type?_link hp)
      have hlost := ((grows_foldl hp' before).entries f.1).type t ht
      rw [hij, hfail'.type?_eq_none] at hlost
      cases hlost
    · intro f hf
      rcases List.mem_append.mp hf with hf | hf
      · obtain ⟨host, thisClass, asking, rfl, hfail⟩ := hfails f hf
        exact ⟨[], host, thisClass, asking, us, rfl, hfail⟩
      · obtain ⟨before, host, thisClass, asking, after, rfl, hfail⟩ := hfails' f hf
        exact ⟨u :: before, host, thisClass, asking, after, rfl, hfail⟩

theorem isSome_type?_apply (hp : p.Addressable) {u : Upkeep T F M} {i : Index} (hself : u.BindsSelf i)
    (hclass : (p.entry i).isClass = true) : ((u.apply p).entry i).type?.isSome = true := by
  have hbound (t : T) : ((p.bindSelf i t).entry i).type?.isSome = true := by
    rw [Pool.entry_bindSelf, if_pos rfl, Entry.isSome_type?_bindType hclass]
  cases u with
  | exposeTexts => cases hself
  | require k => cases hself
  | bindSelf j t =>
    obtain rfl := hself
    exact hbound t
  | link host j asking =>
    obtain rfl := hself
    obtain ⟨t, ht⟩ := Option.isSome_iff_exists.mp (hbound asking.type)
    rw [apply, hp.pool_link, Pool.entry_linked, (Entry.Grows.linked host asking _ _).type t ht, Option.isSome_some]

/-- What has been made the class itself has a type from then on. -/
theorem isSome_type?_of_bindsSelf (hp : p.Addressable) {us : List (Upkeep T F M)} {u : Upkeep T F M} (hu : u ∈ us)
    {i : Index} (hself : u.BindsSelf i) (hclass : (p.entry i).isClass = true) :
    ((us.foldl apply p).entry i).type?.isSome = true := by
  obtain ⟨before, after, rfl⟩ := List.append_of_mem hu
  have hq := addressable_foldl hp before
  have hclass' : ((before.foldl apply p).entry i).isClass = true := by
    rw [Entry.isClass_of_frozen ((grows_foldl hp before).entries i).frozen, hclass]
  obtain ⟨t, ht⟩ := Option.isSome_iff_exists.mp (isSome_type?_apply hq hself hclass')
  have hgrows := grows_foldl (hq.of_frozen (frozen_apply _ u)) after
  rw [List.foldl_append, List.foldl_cons, (hgrows.entries i).type t ht, Option.isSome_some]

end Upkeep

/-- Whatever is done to a resolved pool: what is known stays known; a link leaves nothing to do to the
    next one as the same class, whoever asks; and what is reported are classes that were required,
    had no type, neither from a patch nor as the class itself, and could not be loaded, each once. -/
theorem linking_is_set_once [ToString T] {constants : List (Option Constant)}
    {patchings : List (String × List (Option (Patch T)))} {rules : Rules} {draft patched : Draft T}
    {p : Pool T F M} (hbuild : Draft.ofConstants constants = .ok draft)
    (hpatch : draft.patchAll patchings = .ok patched) (hresolve : patched.resolve F M rules = .ok p) :
    (∀ before after : List (Upkeep T F M),
      (before.foldl Upkeep.apply p).Grows ((before ++ after).foldl Upkeep.apply p)) ∧
    (∀ (us between : List (Upkeep T F M)) (host host' : Host T F M) (thisClass : Index) (asking asking' : Asking T)
      (q : Pool T F M), (us ++ .link host thisClass asking :: between).foldl Upkeep.apply p = q →
      (∀ u ∈ between, u = .exposeTexts) → host'.isUnloadable = host.isUnloadable →
      q.link host' thisClass asking' = ⟨q, #[]⟩) ∧
    ∀ us : List (Upkeep T F M), ∃ failed : List (Index × Warning),
      Upkeep.reports p us = failed.map Prod.snd ∧ (failed.map Prod.fst).Nodup ∧
      ∀ i w, (i, w) ∈ failed → patched.patchedType? i = none ∧
        ∃ before host thisClass asking after, us = before ++ .link host thisClass asking :: after ∧
          (before.foldl Upkeep.apply p).FailsToLoad host thisClass asking i w ∧ ∀ u ∈ before, ¬ u.BindsSelf i := by
  have hp := Pool.addressable_of_resolve hbuild hpatch hresolve
  refine ⟨?_, ?_, ?_⟩
  · intro before after
    rw [List.foldl_append]
    exact Upkeep.grows_foldl (Upkeep.addressable_foldl hp before) after
  · rintro us between host host' thisClass asking asking' _ rfl hbetween hhost
    have hq := Upkeep.addressable_foldl hp us
    have hsettled := (Pool.Settled.of_link hq host thisClass asking).exposed hbetween
    have hrun := Upkeep.addressable_foldl hp (us ++ .link host thisClass asking :: between)
    rw [List.foldl_append, List.foldl_cons] at hrun ⊢
    exact hsettled.link_eq hrun hhost asking'
  · intro us
    obtain ⟨failed, hreports, hnodup, hfails⟩ := Upkeep.reports_eq hp us
    refine ⟨failed, hreports, hnodup, ?_⟩
    intro i w hf
    obtain ⟨before, host, thisClass, asking, after, hus, hfail⟩ := hfails (i, w) hf
    have htype := hfail.type?_eq_none
    have hgrows := (Upkeep.grows_foldl hp before).entries i
    refine ⟨?_, before, host, thisClass, asking, after, hus, hfail, ?_⟩
    · obtain ⟨-, rfl⟩ := Draft.resolve_eq_ok_iff.mp hresolve
      rw [← Draft.type?_resolved (F := F) (M := M)]
      cases hpatched : ((patched.resolved : Pool T F M).entry i).type? with
      | none => rfl
      | some t =>
        rw [hgrows.type t hpatched] at htype
        cases htype
    · intro u hu hself
      obtain ⟨item, -, hi, -⟩ := hfail
      have hclass : (p.entry i).isClass = true := by
        rw [← Entry.isClass_of_frozen hgrows.frozen, hi]
        rfl
      exact Option.isSome_iff_ne_none.mp (Upkeep.isSome_type?_of_bindsSelf hp hu hself hclass) htype

/-- The class of the field stays as it was loaded first, though another host does not know it. -/
theorem linking_is_set_once_template :
    ∃ q : Pool Nat Nat Nat,
      (((templateDraft "name").resolved.require 1).link numberedHost 0 ⟨3, .link⟩).pool.exposeTexts = q ∧
        q.link { numberedHost with loadClass := fun _ _ _ => .error "gone" } 0 ⟨5, .loadOrWarn⟩ = ⟨q, #[]⟩ := by
  have hbuild : Draft.ofConstants templateConstants = .ok (templateDraft "template") := rfl
  have hpatch : (templateDraft "template").patchAll [("p/A", [none, none, none, none, none, some (.text "name")])] =
      .ok (templateDraft "name") := rfl
  obtain ⟨-, hrelink, -⟩ := linking_is_set_once hbuild hpatch resolve_template
  exact ⟨_, rfl, hrelink [.require 1] [.exposeTexts] numberedHost _ 0 ⟨3, .link⟩ ⟨5, .loadOrWarn⟩ _ rfl (by simp) rfl⟩

end JvmClass
