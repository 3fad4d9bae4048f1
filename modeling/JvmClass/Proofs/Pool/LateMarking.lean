/-
  JvmClass.Proofs.Pool.LateMarking — constants marked after a first link.

  A first link leaves open what a mark could still change: a class that is not required keeps its
  place for a type, and its members wait. So a visit in between makes no difference to a later one
  that knows more (`Entry.linked_mark_linked`), and linking before marks come in and once more after
  them ends as marking first does (`Pool.linked_requireAll_linked`). A class is wanted by the first
  link or by the second, never by both, so what is reported is the same too.
  - `late_marking_is_confluent`: link, mark, link is mark, link; and only which constants are marked
    matters.
-/

import JvmClass.Proofs.Pool.Relinking

namespace JvmClass

variable {T F M : Type}

/-! ## Slots -/

theorem ClassEntry.linked_required (host : Host T F M) (asking : Asking T) (item : ClassEntry T) :
    { item.linked host asking with linkRequired := true }.linked host asking =
      { item with linkRequired := true }.linked host asking := by
  unfold linked
  by_cases h : item.linkRequired = true
  · simp [h, SetOnce.fill_fill]
  · simp [h]

namespace Entry

/-- The slot marked, or as it is. -/
def mark (marked : Bool) (e : Entry T F M) : Entry T F M := if marked then e.requireLink else e

theorem requireLink_of_not_class {e : Entry T F M} (h : e.isClass = false) : e.requireLink = e := by
  cases e with
  | cls item => cases h
  | _ => rfl

theorem mark_of_not_class {e : Entry T F M} (h : e.isClass = false) (marked : Bool) : e.mark marked = e := by
  cases marked with
  | true => exact requireLink_of_not_class h
  | false => rfl

theorem requireLink_mark (e : Entry T F M) (marked : Bool) : e.requireLink.mark marked = e.requireLink := by
  cases marked <;> cases e <;> rfl

theorem bindType_mark (e : Entry T F M) (marked : Bool) (t : T) :
    (e.mark marked).bindType t = (e.bindType t).mark marked := by
  cases marked <;> cases e <;> rfl

theorem Grows.mark (e : Entry T F M) (marked : Bool) : e.Grows (e.mark marked) := by
  cases marked with
  | true => exact .requireLink e
  | false => exact .refl e

theorem warning?_frozen (host : Host T F M) (asking : Asking T) (e : Entry T F M) :
    e.frozen.warning? host asking = e.warning? host asking := by cases e <;> rfl

section Linked

variable (host : Host T F M) (asking : Asking T) (type? : Index → Option T) {type?' : Index → Option T}
  (e : Entry T F M)

theorem isClass_linked : (e.linked host asking type?).isClass = e.isClass :=
  isClass_of_frozen (Grows.linked host asking type? e).frozen

/-- A visit makes no difference to a later one that knows all types that the first one knew. -/
theorem linked_linked_of_le (hle : ∀ j t, type? j = some t → type?' j = some t) :
    (e.linked host asking type?).linked host asking type?' = e.linked host asking type?' := by
  cases e with
  | cls item => exact congrArg cls (ClassEntry.linked_linked item)
  | field m binding =>
    cases h : type? m.cls with
    | none => simp only [linked, h]
    | some holder => simp only [linked, h, hle m.cls holder h, SetOnce.fill_fill]
  | method item =>
    cases h : type? item.member.cls with
    | none => simp only [linked, h]
    | some holder =>
      have h' := hle item.member.cls holder h
      by_cases hholder : host.isUnloadable holder = true <;>
        simp [linked, Linking.linkMethod, Linking.linkSignature, h, h', hholder, SetOnce.fill_fill]
  | interfaceMethod item =>
    cases h : type? item.member.cls with
    | none => simp only [linked, h]
    | some holder =>
      simp [linked, Linking.linkInterfaceMethod, Linking.linkSignature, h, hle item.member.cls holder h,
        SetOnce.fill_fill]
  | methodType descriptor signature => simp only [linked, SetOnce.fill_fill]
  | invokeDynamic bootstrap name descriptor signature => simp only [linked, SetOnce.fill_fill]
  | _ => rfl

/-- Nor does it if the slot is marked in between. -/
theorem linked_mark_linked (hle : ∀ j t, type? j = some t → type?' j = some t) (marked : Bool) :
    ((e.linked host asking type?).mark marked).linked host asking type?' =
      (e.mark marked).linked host asking type?' := by
  cases hclass : e.isClass with
  | false =>
    rw [mark_of_not_class hclass, mark_of_not_class ((isClass_linked host asking type? e).trans hclass),
      linked_linked_of_le host asking type? e hle]
  | true =>
    cases e with
    | cls item =>
      cases marked with
      | true => exact congrArg cls (item.linked_required host asking)
      | false => exact congrArg cls (ClassEntry.linked_linked item)
    | _ => cases hclass

/-- The type that a class has in the end does not depend on when it was marked. -/
theorem type?_loaded_mark_linked (marked : Bool) :
    (((e.linked host asking type?).mark marked).loaded host asking).type? =
      ((e.mark marked).loaded host asking).type? := by
  rw [← type?_linked type?, ← type?_linked type?, linked_mark_linked host asking type? e fun _ _ => id]

/-- A mark takes no type away. -/
theorem type?_loaded_mark {t : T} (h : (e.loaded host asking).type? = some t) (marked : Bool) :
    ((e.mark marked).loaded host asking).type? = some t := by
  rw [← type?_linked fun _ => none] at h
  rw [← type?_loaded_mark_linked host asking (fun _ => none) e marked, ← type?_linked fun _ => none]
  exact ((Grows.mark _ marked).trans (.linked host asking _ _)).type t h

/-- A class that is marked late is wanted by the second link just if it was not by the first. -/
theorem isWanted_mark (marked : Bool) : (e.mark marked).isWanted =
      (e.isWanted || ((e.linked host asking type?).mark marked).isWanted) ∧
    (e.isWanted && ((e.linked host asking type?).mark marked).isWanted) = false := by
  cases hclass : e.isClass with
  | false =>
    rw [mark_of_not_class hclass, mark_of_not_class ((isClass_linked host asking type? e).trans hclass), isWanted_linked]
    simp
  | true =>
    cases e with
    | cls item =>
      rw [linked]
      by_cases hrequired : item.linkRequired = true
      · cases marked <;>
          simp [mark, requireLink, isWanted, ClassEntry.isWanted, ClassEntry.linked, hrequired, SetOnce.fill_value?]
      · cases marked <;> simp [mark, requireLink, isWanted, ClassEntry.isWanted, ClassEntry.linked, hrequired]
    | _ => cases hclass

end Linked

end Entry

/-! ## Pools -/

namespace Pool

variable {p : Pool T F M}

/-- One of the constants depends on the class at the slot. -/
def isMarkedBy (p : Pool T F M) (constants : List Index) (j : Index) : Bool :=
  constants.any fun i => p.classOf? i == some j

theorem requireAll_eq_foldl (constants : List Index) :
    p.requireAll constants = (constants.map .require).foldl Upkeep.apply p := by
  rw [List.foldl_map]
  rfl

theorem frozen_requireAll (p : Pool T F M) (constants : List Index) : (p.requireAll constants).frozen = p.frozen := by
  rw [requireAll_eq_foldl, Upkeep.frozen_foldl]

theorem frozen_linked (host : Host T F M) (asking : Asking T) (p : Pool T F M) :
    (p.linked host asking).frozen = p.frozen := by
  unfold frozen linked
  rw [Array.map_map]
  refine congrArg mk (Array.map_congr_left ?_)
  intro e _
  exact (Entry.Grows.linked host asking _ e).frozen

theorem isMarkedBy_of_frozen {q : Pool T F M} (h : q.frozen = p.frozen) (constants : List Index) (j : Index) :
    q.isMarkedBy constants j = p.isMarkedBy constants j := by
  simp only [isMarkedBy, classOf?_of_frozen h]

theorem entry_requireAll (constants : List Index) (j : Index) :
    (p.requireAll constants).entry j = (p.entry j).mark (p.isMarkedBy constants j) := by
  induction constants generalizing p with
  | nil => rfl
  | cons i constants ih =>
    have hmarked : p.isMarkedBy (i :: constants) j = (p.classOf? i == some j || p.isMarkedBy constants j) := rfl
    rw [show p.requireAll (i :: constants) = (p.require i).requireAll constants from rfl, ih,
      isMarkedBy_of_frozen (frozen_require p i), entry_require, hmarked]
    by_cases h : p.classOf? i = some j
    · rw [if_pos h, Entry.requireLink_mark, beq_iff_eq.mpr h]
      rfl
    · rw [if_neg h, beq_eq_false_iff_ne.mpr h, Bool.false_or]

namespace Addressable

variable (hp : p.Addressable) (constants : List Index)
include hp

theorem requireAll : (p.requireAll constants).Addressable := hp.of_frozen (frozen_requireAll p constants)

/-- It does not matter in which order constants are marked, nor how often. -/
theorem requireAll_congr {constants' : List Index} (h : ∀ i, i ∈ constants' ↔ i ∈ constants) :
    p.requireAll constants' = p.requireAll constants := by
  have hsize := size_of_frozen (frozen_requireAll p constants)
  refine ext_entry (hsize ▸ hp.size) ((size_of_frozen (frozen_requireAll p constants')).trans hsize.symm) ?_
  intro j
  have hmarked : p.isMarkedBy constants' j = p.isMarkedBy constants j := by
    rw [Bool.eq_iff_iff, isMarkedBy, isMarkedBy, List.any_eq_true, List.any_eq_true]
    simp only [h]
  rw [entry_requireAll, entry_requireAll, hmarked]

theorem bindSelf_requireAll (thisClass : Index) (t : T) :
    (p.requireAll constants).bindSelf thisClass t = (p.bindSelf thisClass t).requireAll constants := by
  have hself := frozen_bindSelf p thisClass t
  have hleft := size_of_frozen ((frozen_bindSelf _ thisClass t).trans (frozen_requireAll p constants))
  have hright := size_of_frozen ((frozen_requireAll _ constants).trans hself)
  refine ext_entry (hright ▸ hp.size) (hleft.trans hright.symm) ?_
  intro j
  rw [entry_bindSelf, entry_requireAll, entry_requireAll, entry_bindSelf, isMarkedBy_of_frozen hself]
  split
  · exact Entry.bindType_mark _ _ t
  · rfl

variable (host : Host T F M) (asking : Asking T)

/-- Linking before marks come in makes no difference to linking after them. -/
theorem linked_requireAll_linked : ((p.linked host asking).requireAll constants).linked host asking =
    (p.requireAll constants).linked host asking := by
  have hfrozen := frozen_linked host asking p
  have htypes : ((p.linked host asking).requireAll constants).typeVisited? host asking =
      (p.requireAll constants).typeVisited? host asking := by
    funext j
    rw [typeVisited?, typeVisited?, entry_requireAll, entry_requireAll, entry_linked, isMarkedBy_of_frozen hfrozen,
      Entry.type?_loaded_mark_linked]
  have hle : ∀ j t, p.typeVisited? host asking j = some t →
      (p.requireAll constants).typeVisited? host asking j = some t := by
    intro j t h
    rw [typeVisited?, entry_requireAll]
    exact Entry.type?_loaded_mark host asking _ h _
  have hsize := size_of_frozen (frozen_requireAll p constants)
  refine ext_entry (size_linked.trans hsize ▸ hp.size) ?_ ?_
  · rw [size_linked, size_linked, hsize, size_of_frozen (frozen_requireAll _ constants), size_linked]
  · intro j
    rw [entry_linked, entry_linked, htypes, entry_requireAll, entry_requireAll, entry_linked,
      isMarkedBy_of_frozen hfrozen, Entry.linked_mark_linked host asking _ _ hle]

end Addressable

/-! ## Two links -/

section Links

variable (hp : p.Addressable) (host : Host T F M) (thisClass : Index) (asking : Asking T) (constants : List Index)
include hp

/-- The class itself has its type by the first link, and keeps it. -/
theorem bindSelf_requireAll_link :
    ((p.link host thisClass asking).pool.requireAll constants).bindSelf thisClass asking.type =
      ((p.bindSelf thisClass asking.type).linked host asking).requireAll constants := by
  have hlinked := hp.of_frozen (frozen_link p host thisClass asking)
  have hself := (Settled.of_link hp host thisClass asking).self asking.type
  rw [hlinked.bindSelf_requireAll, show (p.link host thisClass asking).pool.bindSelf thisClass asking.type = _ from
    modify_eq_self hself, hp.pool_link]

theorem pool_link_requireAll_link : (((p.link host thisClass asking).pool.requireAll constants).link host thisClass
    asking).pool = ((p.requireAll constants).link host thisClass asking).pool := by
  have hself := hp.of_frozen (frozen_bindSelf p thisClass asking.type)
  have hlinked := hp.of_frozen (frozen_link p host thisClass asking)
  rw [(hlinked.requireAll constants).pool_link, bindSelf_requireAll_link hp, hself.linked_requireAll_linked,
    (hp.requireAll constants).pool_link, hp.bindSelf_requireAll]

/-- What a link reports is of the classes that are wanted once the class itself has its type. -/
theorem warnings_link : ∃ loaded : List Index, loaded.Nodup ∧
    (∀ i, i ∈ loaded ↔ ((p.bindSelf thisClass asking.type).entry i).isWanted = true) ∧
    (p.link host thisClass asking).warnings.toList = loaded.filterMap fun i => (p.entry i).warning? host asking := by
  obtain ⟨loaded, hnodup, hmem, -, hwarnings⟩ := hp.linkSlots_eq host thisClass asking (List.Perm.refl p.slots)
  refine ⟨loaded, hnodup, hmem, hwarnings.trans ?_⟩
  congr 1
  funext i
  exact congr_of_frozen _ (Entry.warning?_frozen host asking) (frozen_bindSelf p thisClass asking.type) i

/-- A class is loaded by the link before the marks, or by the one after them, or by neither. -/
theorem warnings_link_requireAll_link : ((p.link host thisClass asking).warnings.toList ++
      (((p.link host thisClass asking).pool.requireAll constants).link host thisClass asking).warnings.toList).Perm
    ((p.requireAll constants).link host thisClass asking).warnings.toList := by
  have hfrozen := frozen_link p host thisClass asking
  obtain ⟨first, hfirst, hmem₁, hwarnings₁⟩ := warnings_link hp host thisClass asking
  obtain ⟨second, hsecond, hmem₂, hwarnings₂⟩ :=
    warnings_link ((hp.of_frozen hfrozen).requireAll constants) host thisClass asking
  obtain ⟨all, hall, hmem, hwarnings⟩ := warnings_link (hp.requireAll constants) host thisClass asking
  -- What there is to say of a class is the same in all three pools.
  have hsay {q : Pool T F M} (h : q.frozen = p.frozen) : (fun i => (q.entry i).warning? host asking) =
      fun i => (p.entry i).warning? host asking :=
    funext fun i => congr_of_frozen _ (Entry.warning?_frozen host asking) h i
  rw [hsay ((frozen_requireAll _ constants).trans hfrozen)] at hwarnings₂
  rw [hsay (frozen_requireAll p constants)] at hwarnings
  simp only [bindSelf_requireAll_link hp, hp.bindSelf_requireAll, entry_requireAll, entry_linked,
    isMarkedBy_of_frozen (frozen_linked host asking _)] at hmem₂ hmem
  have hwanted := fun i => Entry.isWanted_mark host asking
    ((p.bindSelf thisClass asking.type).typeVisited? host asking) ((p.bindSelf thisClass asking.type).entry i)
    ((p.bindSelf thisClass asking.type).isMarkedBy constants i)
  have hloaded : (first ++ second).Perm all := by
    refine (List.perm_ext_iff_of_nodup (List.nodup_append.mpr ⟨hfirst, hsecond, ?_⟩) hall).mpr ?_
    · rintro i hi _ hi' rfl
      have hboth := (hwanted i).2
      rw [(hmem₁ i).mp hi, (hmem₂ i).mp hi'] at hboth
      cases hboth
    · intro i
      rw [List.mem_append, hmem₁, hmem₂, hmem, (hwanted i).1, Bool.or_eq_true]
  rw [hwarnings₁, hwarnings₂, hwarnings, ← List.filterMap_append]
  exact hloaded.filterMap _

end Links

end Pool

/-- Whatever has become of a resolved pool: to link it, to mark constants and to link it again as the same
    class ends as marking them first and linking once does, and reports the same, in some order. Nor
    does it matter in which order constants are marked, or how often. -/
theorem late_marking_is_confluent [ToString T] {constants : List (Option Constant)}
    {patchings : List (String × List (Option (Patch T)))} {rules : Rules} {draft patched : Draft T}
    {resolved p : Pool T F M} {us : List (Upkeep T F M)} (hbuild : Draft.ofConstants constants = .ok draft)
    (hpatch : draft.patchAll patchings = .ok patched) (hresolve : patched.resolve F M rules = .ok resolved)
    (hrun : us.foldl Upkeep.apply resolved = p) (host : Host T F M) (thisClass : Index) (asking : Asking T)
    (marked : List Index) :
    (((p.link host thisClass asking).pool.requireAll marked).link host thisClass asking).pool =
        ((p.requireAll marked).link host thisClass asking).pool ∧
      ((p.link host thisClass asking).warnings.toList ++
          (((p.link host thisClass asking).pool.requireAll marked).link host thisClass asking).warnings.toList).Perm
        ((p.requireAll marked).link host thisClass asking).warnings.toList ∧
      ∀ marked' : List Index, (∀ i, i ∈ marked' ↔ i ∈ marked) → p.requireAll marked' = p.requireAll marked := by
  have hp : p.Addressable := by
    rw [← hrun]
    exact Upkeep.addressable_foldl (Pool.addressable_of_resolve hbuild hpatch hresolve) us
  refine ⟨?_, ?_, ?_⟩
  · exact Pool.pool_link_requireAll_link hp host thisClass asking marked
  · exact Pool.warnings_link_requireAll_link hp host thisClass asking marked
  · intro marked' h
    exact hp.requireAll_congr marked h

/-- The field of the template is unbound after a link that nothing was marked for; marks and another link
    bind it, as marks before the only link do. -/
theorem late_marking_is_confluent_template :
    ∃ p late : Pool Nat Nat Nat, (templateDraft "name").resolve Nat Nat ⟨Version.java8, {}⟩ = .ok p ∧
      (((p.link numberedHost 0 ⟨3, .link⟩).pool.requireAll [40, 1]).link numberedHost 0 ⟨3, .link⟩).pool = late ∧
      ((p.link numberedHost 0 ⟨3, .link⟩).pool.entry 2).fieldBinding? = none ∧
      (late.entry 2).fieldBinding? = some ⟨some 1, 0⟩ := by
  have hbuild : Draft.ofConstants templateConstants = .ok (templateDraft "template") := rfl
  have hpatch : (templateDraft "template").patchAll [("p/A", [none, none, none, none, none, some (.text "name")])] =
      .ok (templateDraft "name") := rfl
  have hrun : ([] : List (Upkeep Nat Nat Nat)).foldl Upkeep.apply (templateDraft "name").resolved =
      (templateDraft "name").resolved := rfl
  obtain ⟨hpool, -, -⟩ := late_marking_is_confluent hbuild hpatch resolve_template hrun numberedHost 0 ⟨3, .link⟩ [40, 1]
  refine ⟨(templateDraft "name").resolved, _, resolve_template, hpool, ?_, ?_⟩
  · rfl
  · have hbound : ((((templateDraft "name").resolved.requireAll [40, 1]).link numberedHost 0 ⟨3, .link⟩).pool.entry
        2).fieldBinding?.map (fun b => (b.field, b.type)) = some (some 1, 0) := by decide +kernel
    obtain ⟨⟨field, type⟩, hentry, hpair⟩ := Option.map_eq_some_iff.mp hbound
    cases hpair
    exact hentry

end JvmClass
