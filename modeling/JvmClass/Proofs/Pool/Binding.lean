/-
  JvmClass.Proofs.Pool.Binding — what constants are bound to when a pool is linked.

  A class has the type that a patch gave it; else the class itself has its own type, and of the
  others those that are required have been loaded (`Pool.typeAfter`). What else there is to bind is
  said by the host: which answers belong to a descriptor, a field or a method is written down apart
  from how linking asks for them (`Signature.IsAnswer`, `FieldBinding.IsAnswer`,
  `MethodBinding.IsClassAnswer`, `MethodBinding.IsInterfaceAnswer`), and each slot is to be bound to
  the answers for the type of its class (`Entry.BoundTo`). There is one such binding, the one that
  linking makes (`Entry.boundTo_iff`).
  - `link_binds_each_slot`: linking a pool for the first time binds each slot like that, and the
    slots may be visited in any order.
-/

import JvmClass.Proofs.Pool.Preparation

namespace JvmClass

variable {T F M : Type}

/-- The type of a class in the linked pool; a placeholder if it could not be loaded. Of a class
    that has none, none was asked for. -/
def Pool.typeAfter (p : Pool T F M) (patched : Draft T) (host : Host T F M) (thisClass : Index) (asking : Asking T)
    (i : Index) : Option T :=
  match p.entry i with
  | .cls item =>
    (patched.patchedType? i).or
      (if thisClass = i then some asking.type
       else if item.linkRequired then some (host.typeNamed asking item.name)
       else none)
  | _ => none

/-! ## What the host answers -/

section Answers

variable (host : Host T F M) (asking : Asking T)

/-- The parameter types and the return type that the host has for the descriptor. -/
structure Signature.IsAnswer (descriptor : String) (s : Signature T) : Prop where
  arguments : s.arguments = host.argumentTypes asking.type descriptor asking.mode
  returns : s.returns = host.returnType asking.type descriptor asking.mode

/-- The field that the host finds in the holder, if that is no placeholder, and the type of its descriptor. -/
structure FieldBinding.IsAnswer (m : MemberRef) (holder : T) (b : FieldBinding T F) : Prop where
  type : b.type = host.fieldType asking.type m.descriptor asking.mode
  found : host.isUnloadable holder = false → b.field = host.findField holder m.name m.descriptor
  placeholder : host.isUnloadable holder = true → b.field = none

/-- Code of a class, not an interface, names a method of another type above it that is no instance
    initializer. -/
structure Host.IsCallAbove (m : MemberRef) (holder : T) : Prop where
  name : m.name ≠ "<init>"
  code : host.isInterface asking.type = false
  other : host.isSame asking.type holder = false
  above : host.isSubtype asking.type holder = true

/-- The method that the host finds in the holder; instance initializers are not inherited. A call from
    below runs what the host finds in the superclass of the asking type, any other call the method itself. -/
structure MethodBinding.IsClassAnswer (m : MemberRef) (holder : T) (b : MethodBinding M) : Prop where
  initializer : m.name = "<init>" → b.method = host.findMethod holder m.name m.descriptor false
  method : m.name ≠ "<init>" → b.method = host.findMethod holder m.name m.descriptor true
  above : host.IsCallAbove asking m holder → ∀ super, host.superType asking.type = some super →
    b.special = host.findMethod super m.name m.descriptor true
  top : host.IsCallAbove asking m holder → host.superType asking.type = none → b.special = none
  itself : ¬host.IsCallAbove asking m holder → b.special = b.method

/-- The method that the host finds in the holder as an interface; if there is none or the holder is a
    placeholder, the method that the root of the class hierarchy itself has. -/
structure MethodBinding.IsInterfaceAnswer (m : MemberRef) (holder : T) (b : MethodBinding M) : Prop where
  own : host.isUnloadable holder = false → ∀ found, host.findInterfaceMethod holder m.name m.descriptor = some found →
    b.method = some found
  root : host.isUnloadable holder = true ∨ host.findInterfaceMethod holder m.name m.descriptor = none →
    b.method = host.findMethod host.objectType m.name m.descriptor false
  special : b.special = b.method

/-- What the slot `i` is to be linked to, with the classes of these types. A member is bound to answers of
    the host for the type of its class: to none if that has no type, and a method of a class has no binding
    either if the type is a placeholder. -/
def Entry.BoundTo (type? : Index → Option T) (i : Index) : Entry T F M → Entry T F M → Prop
  | .cls item, e => e = .cls { item with type := ⟨type? i⟩ }
  | .field m _, e => ∃ binding, e = .field m ⟨binding⟩ ∧
      Option.Rel (FieldBinding.IsAnswer host asking m) (type? m.cls) binding
  | .method ⟨m, _, _⟩, e => ∃ signature binding, e = .method ⟨m, ⟨signature⟩, ⟨binding⟩⟩ ∧
      Option.Rel (fun _ => Signature.IsAnswer host asking m.descriptor) (type? m.cls) signature ∧
      Option.Rel (MethodBinding.IsClassAnswer host asking m)
        ((type? m.cls).filter fun holder => !host.isUnloadable holder) binding
  | .interfaceMethod ⟨m, _, _⟩, e => ∃ signature binding, e = .interfaceMethod ⟨m, ⟨signature⟩, ⟨binding⟩⟩ ∧
      Option.Rel (fun _ => Signature.IsAnswer host asking m.descriptor) (type? m.cls) signature ∧
      Option.Rel (MethodBinding.IsInterfaceAnswer host m) (type? m.cls) binding
  | .methodType descriptor _, e => ∃ signature : Signature T, e = .methodType descriptor (.full signature) ∧
      signature.IsAnswer host asking descriptor
  | .invokeDynamic bootstrap name descriptor _, e => ∃ signature : Signature T,
      e = .invokeDynamic bootstrap name descriptor (.full signature) ∧ signature.IsAnswer host asking descriptor
  | e, e' => e' = e

end Answers

/-! ## One answer each -/

/-- Of each type there is one answer, so there is one for a type that may be missing. -/
theorem rel_iff_eq_map {α β : Type} {IsAnswer : α → β → Prop} {answer : α → β}
    (h : ∀ a b, IsAnswer a b ↔ b = answer a) {a? : Option α} {b? : Option β} :
    Option.Rel IsAnswer a? b? ↔ b? = a?.map answer := by
  cases a? with
  | none =>
    constructor
    · rintro ⟨⟩
      rfl
    · rintro rfl
      exact .none
  | some a =>
    constructor
    · rintro (hb | -)
      exact congrArg some ((h a _).mp hb)
    · rintro rfl
      exact .some ((h a _).mpr rfl)

section Unique

variable {host : Host T F M} {asking : Asking T} {m : MemberRef} {holder : T}

theorem Signature.isAnswer_iff {descriptor : String} {s : Signature T} :
    s.IsAnswer host asking descriptor ↔ s = .of host asking descriptor := by
  constructor
  · intro ⟨harguments, hreturns⟩
    obtain ⟨arguments, returns⟩ := s
    obtain rfl : arguments = _ := harguments
    obtain rfl : returns = _ := hreturns
    rfl
  · rintro rfl
    exact ⟨rfl, rfl⟩

theorem Signature.rel_isAnswer_iff {descriptor : String} {type? : Option T} {signature : Option (Signature T)} :
    Option.Rel (fun _ => IsAnswer host asking descriptor) type? signature ↔
      signature = type?.map fun _ => .of host asking descriptor :=
  rel_iff_eq_map fun _ _ => isAnswer_iff

theorem FieldBinding.isAnswer_iff {b : FieldBinding T F} :
    b.IsAnswer host asking m holder ↔ b = .of host asking m holder := by
  obtain ⟨field, type⟩ := b
  cases hholder : host.isUnloadable holder with
  | true =>
    simp only [of, hholder, if_true, FieldBinding.mk.injEq]
    exact ⟨fun h => ⟨h.placeholder hholder, h.type⟩,
      fun ⟨hfield, htype⟩ => ⟨htype, fun hloaded => (nomatch hholder.symm.trans hloaded), fun _ => hfield⟩⟩
  | false =>
    simp only [of, hholder, Bool.false_eq_true, if_false, FieldBinding.mk.injEq]
    exact ⟨fun h => ⟨h.found hholder, h.type⟩,
      fun ⟨hfield, htype⟩ => ⟨htype, fun _ => hfield, fun hfails => (nomatch hholder.symm.trans hfails)⟩⟩

theorem FieldBinding.rel_isAnswer_iff {type? : Option T} {binding : Option (FieldBinding T F)} :
    Option.Rel (IsAnswer host asking m) type? binding ↔ binding = type?.map (.of host asking m) :=
  rel_iff_eq_map fun _ _ => isAnswer_iff

theorem Host.isCallAbove_iff :
    host.IsCallAbove asking m holder ↔ isSuperCall host asking.type holder m.name = true := by
  simp only [isSuperCall, Bool.and_eq_true, bne_iff_ne, Bool.not_eq_true', and_assoc]
  constructor
  · intro h
    exact ⟨h.name, h.code, h.other, h.above⟩
  · intro h
    obtain ⟨hname, hcode, hother, habove⟩ := h
    exact ⟨hname, hcode, hother, habove⟩

theorem MethodBinding.isClassAnswer_iff {b : MethodBinding M} :
    b.IsClassAnswer host asking m holder ↔ b = .ofClass host asking m holder := by
  obtain ⟨method, special⟩ := b
  have hmethod : (m.name = "<init>" → method = host.findMethod holder m.name m.descriptor false) ∧
      (m.name ≠ "<init>" → method = host.findMethod holder m.name m.descriptor true) ↔
        method = host.findMethod holder m.name m.descriptor (m.name != initName) := by
    by_cases hname : m.name = "<init>"
    · simp [hname, initName]
    · simp [hname, bne_iff_ne.mpr (show m.name ≠ initName from hname)]
  have hspecial : (host.IsCallAbove asking m holder → ∀ super, host.superType asking.type = some super →
        special = host.findMethod super m.name m.descriptor true) ∧
      (host.IsCallAbove asking m holder → host.superType asking.type = none → special = none) ∧
      (¬host.IsCallAbove asking m holder → special = method) ↔
        special = if isSuperCall host asking.type holder m.name then
          (host.superType asking.type).bind fun super => host.findMethod super m.name m.descriptor true
        else method := by
    rw [Host.isCallAbove_iff]
    cases isSuperCall host asking.type holder m.name with
    | false => simp
    | true => cases host.superType asking.type <;> simp
  constructor
  · intro h
    obtain ⟨hinitializer, hother, habove, htop, hitself⟩ := h
    have hfound := hmethod.mp ⟨hinitializer, hother⟩
    rw [hspecial.mp ⟨habove, htop, hitself⟩, hfound]
    rfl
  · intro h
    have hfound : method = _ := congrArg MethodBinding.method h
    have hcalled : special = _ := congrArg MethodBinding.special h
    obtain ⟨hinitializer, hother⟩ := hmethod.mpr hfound
    obtain ⟨habove, htop, hitself⟩ := hspecial.mpr (hfound ▸ hcalled)
    exact ⟨hinitializer, hother, habove, htop, hitself⟩

theorem MethodBinding.rel_isClassAnswer_iff {type? : Option T} {binding : Option (MethodBinding M)} :
    Option.Rel (IsClassAnswer host asking m) type? binding ↔ binding = type?.map (.ofClass host asking m) :=
  rel_iff_eq_map fun _ _ => isClassAnswer_iff

theorem MethodBinding.isInterfaceAnswer_iff {b : MethodBinding M} :
    b.IsInterfaceAnswer host m holder ↔ b = .ofInterface host m holder := by
  obtain ⟨method, special⟩ := b
  have hmethod : (host.isUnloadable holder = false → ∀ found,
        host.findInterfaceMethod holder m.name m.descriptor = some found → method = some found) ∧
      (host.isUnloadable holder = true ∨ host.findInterfaceMethod holder m.name m.descriptor = none →
        method = host.findMethod host.objectType m.name m.descriptor false) ↔
      method = (ofInterface host m holder).method := by
    unfold ofInterface
    cases host.isUnloadable holder with
    | true => simp
    | false => cases host.findInterfaceMethod holder m.name m.descriptor <;> simp
  constructor
  · intro ⟨hown, hroot, hspecial⟩
    obtain rfl : special = method := hspecial
    rw [hmethod.mp ⟨hown, hroot⟩]
    rfl
  · intro h
    obtain ⟨hown, hroot⟩ := hmethod.mpr (congrArg MethodBinding.method h)
    refine ⟨hown, hroot, ?_⟩
    rw [h]
    rfl

theorem MethodBinding.rel_isInterfaceAnswer_iff {type? : Option T} {binding : Option (MethodBinding M)} :
    Option.Rel (IsInterfaceAnswer host m) type? binding ↔ binding = type?.map (.ofInterface host m) :=
  rel_iff_eq_map fun _ _ => isInterfaceAnswer_iff

end Unique

/-! ## Slot by slot -/

theorem SetOnce.fill_empty {α : Type} (candidate : Unit → α) : SetOnce.empty.fill candidate = full (candidate ()) :=
  rfl

/-- A slot that is not bound yet is bound to what it is to be linked to, and to nothing else. -/
theorem Entry.boundTo_iff {host : Host T F M} {asking : Asking T} {type? : Index → Option T} {e e' : Entry T F M}
    (i : Index) (hclass : e.isClass = false) (h : e.IsUnbound) :
    e.BoundTo host asking type? i e' ↔ e' = e.linked host asking type? := by
  have hcells : e.expose = e.frozen.expose := by
    rcases h with h | h
    · rw [hclass] at h
      cases h
    · exact h
  cases e with
  | cls item => cases hclass
  | field m binding =>
    injection hcells with _ hbinding
    simp only [BoundTo, FieldBinding.rel_isAnswer_iff, exists_eq_right, hbinding, linked]
    cases type? m.cls <;> rfl
  | method item =>
    injection hcells with hitem
    rw [hitem]
    simp only [BoundTo, Signature.rel_isAnswer_iff, MethodBinding.rel_isClassAnswer_iff, linked]
    cases type? item.member.cls with
    | none => simp [SetOnce.empty]
    | some holder =>
      cases hholder : host.isUnloadable holder with
      | true =>
        simp [Linking.linkMethod, Linking.linkSignature, SetOnce.fill_empty, Option.filter_some, hholder]
        rfl
      | false =>
        simp [Linking.linkMethod, Linking.linkSignature, SetOnce.fill_empty, Option.filter_some, hholder]
        rfl
  | interfaceMethod item =>
    injection hcells with hitem
    rw [hitem]
    simp only [BoundTo, Signature.rel_isAnswer_iff, MethodBinding.rel_isInterfaceAnswer_iff, linked]
    cases type? item.member.cls with
    | none => simp [SetOnce.empty]
    | some holder => simp [Linking.linkInterfaceMethod, Linking.linkSignature, SetOnce.fill_empty, SetOnce.full]
  | methodType descriptor signature =>
    injection hcells with _ hsignature
    simp only [BoundTo, Signature.isAnswer_iff, exists_eq_right, hsignature, linked, SetOnce.fill_empty]
  | invokeDynamic bootstrap name descriptor signature =>
    injection hcells with _ _ _ hsignature
    simp only [BoundTo, Signature.isAnswer_iff, exists_eq_right, hsignature, linked, SetOnce.fill_empty]
  | _ => rfl

theorem Entry.linked_of_isClass {host : Host T F M} {asking : Asking T} {type? : Index → Option T} {e : Entry T F M}
    (h : e.isClass = true) : e.linked host asking type? = e.loaded host asking := by
  cases e with
  | cls item => rfl
  | _ => cases h

theorem Entry.isClass_bindType (e : Entry T F M) (t : T) : (e.bindType t).isClass = e.isClass := by cases e <;> rfl

namespace Pool

variable {p : Pool T F M} {patched : Draft T} {host : Host T F M} {thisClass : Index} {asking : Asking T}

/-- A class first keeps what a patch gave it, then may be the class itself, then may be loaded. -/
theorem loaded_bindSelf (hpatched : ∀ i, (p.entry i).type? = patched.patchedType? i) {i : Index}
    {item : ClassEntry T} (hi : p.entry i = .cls item) :
    ((p.bindSelf thisClass asking.type).entry i).loaded host asking =
      .cls { item with type := ⟨p.typeAfter patched host thisClass asking i⟩ } := by
  have htype := hpatched i
  rw [hi, Entry.type?] at htype
  rw [entry_bindSelf, typeAfter, hi]
  simp only [← htype]
  obtain ⟨name, required, ⟨value?⟩⟩ := item
  cases value? with
  | some t =>
    split
    · cases required <;> rfl
    · cases required <;> rfl
  | none =>
    by_cases hthis : thisClass = i
    · rw [if_pos hthis, if_pos hthis]
      cases required <;> rfl
    · rw [if_neg hthis, if_neg hthis]
      cases required <;> rfl

theorem bindSelf_entry_of_not_class {t : T} {i : Index} (h : (p.entry i).isClass = false) :
    (p.bindSelf thisClass t).entry i = p.entry i := by
  rw [entry_bindSelf]
  split
  · cases hi : p.entry i with
    | cls item =>
      rw [hi] at h
      cases h
    | _ => rfl
  · rfl

theorem typeVisited?_bindSelf (hpatched : ∀ i, (p.entry i).type? = patched.patchedType? i) (i : Index) :
    (p.bindSelf thisClass asking.type).typeVisited? host asking i = p.typeAfter patched host thisClass asking i := by
  unfold typeVisited?
  cases hi : p.entry i with
  | cls item =>
    rw [loaded_bindSelf hpatched hi]
    rfl
  | _ =>
    rw [bindSelf_entry_of_not_class (by rw [hi]; rfl), typeAfter, hi]
    rfl

/-- Once all slots have been visited, each is bound to what it is to be linked to. -/
theorem boundTo_iff_linked (hpatched : ∀ i, (p.entry i).type? = patched.patchedType? i)
    (hunbound : ∀ i, (p.entry i).IsUnbound) (i : Index) {e : Entry T F M} :
    (p.entry i).BoundTo host asking (p.typeAfter patched host thisClass asking) i e ↔
      e = ((p.bindSelf thisClass asking.type).linked host asking).entry i := by
  rw [entry_linked, funext (typeVisited?_bindSelf hpatched)]
  cases hclass : (p.entry i).isClass with
  | true =>
    have hself : ((p.bindSelf thisClass asking.type).entry i).isClass = true := by
      rw [entry_bindSelf]
      split
      · rw [Entry.isClass_bindType, hclass]
      · exact hclass
    rw [Entry.linked_of_isClass hself]
    cases hi : p.entry i with
    | cls item => rw [loaded_bindSelf hpatched hi, Entry.BoundTo]
    | _ =>
      rw [hi] at hclass
      cases hclass
  | false => rw [bindSelf_entry_of_not_class hclass, Entry.boundTo_iff i hclass (hunbound i)]

end Pool

/-- Linking a prepared pool for the first time gives each class its type, and binds the other slots to what
    the host answers for those types and to nothing else. Visiting the slots in another order makes no
    difference but to the order of the warnings. -/
theorem link_binds_each_slot [ToString T] {constants : List (Option Constant)}
    {patchings : List (String × List (Option (Patch T)))} {rules : Rules} {draft patched : Draft T}
    {resolved p : Pool T F M} {us : List (Upkeep T F M)} (hbuild : Draft.ofConstants constants = .ok draft)
    (hpatch : draft.patchAll patchings = .ok patched) (hresolve : patched.resolve F M rules = .ok resolved)
    (hus : ∀ u ∈ us, u.IsPreparation) (hprepared : us.foldl Upkeep.apply resolved = p)
    (host : Host T F M) (thisClass : Index) (asking : Asking T) :
    (p.link host thisClass asking).pool.size = p.size ∧
      (∀ i e, (p.link host thisClass asking).pool.entry i = e ↔
        (p.entry i).BoundTo host asking (p.typeAfter patched host thisClass asking) i e) ∧
      ∀ order : List Index, order.Perm p.slots →
        (order.foldl (Linking.linkSlot host asking) ⟨p.bindSelf thisClass asking.type, #[]⟩).pool =
            (p.link host thisClass asking).pool ∧
          (order.foldl (Linking.linkSlot host asking) ⟨p.bindSelf thisClass asking.type, #[]⟩).warnings.toList.Perm
            (p.link host thisClass asking).warnings.toList := by
  have hfresh := Pool.fresh_of_resolve hbuild hpatch hresolve hus
  rw [hprepared] at hfresh
  obtain ⟨loaded, hnodup, hmem, hpool, hwarnings⟩ :=
    hfresh.addressable.linkSlots_eq host thisClass asking (List.Perm.refl p.slots)
  refine ⟨Pool.size_of_frozen (Pool.frozen_link p host thisClass asking), ?_, ?_⟩
  · intro i e
    rw [Pool.link, hpool, Pool.boundTo_iff_linked hfresh.type hfresh.unbound, eq_comm]
  · intro order horder
    obtain ⟨loaded', hnodup', hmem', hpool', hwarnings'⟩ :=
      hfresh.addressable.linkSlots_eq host thisClass asking horder
    have hloaded : loaded'.Perm loaded :=
      (List.perm_ext_iff_of_nodup hnodup' hnodup).mpr fun i => (hmem' i).trans (hmem i).symm
    refine ⟨?_, ?_⟩
    · rw [Pool.link, hpool', hpool]
    · rw [Pool.link, hwarnings', hwarnings]
      exact hloaded.filterMap _

/-- A host whose types are numbers, each above the next: `p.A` is 1, and 0 stands for whatever it does not
    know. Types have one method each, and the root of the hierarchy is 9. -/
def numberedHost : Host Nat Nat Nat where
  loadClass _ name _ := if name = "p.A" then .ok 1 else .error "not found"
  unloadable _ := 0
  isUnloadable t := t == 0
  isInterface _ := false
  isAbstract _ := false
  superType t := if 1 < t then some (t - 1) else none
  isSame t u := t == u
  isSubtype t u := u ≤ t
  findField t _ _ := some t
  findMethod t _ _ _ := some t
  findInterfaceMethod _ _ _ := none
  objectType := 9
  fieldType _ _ _ := 0
  argumentTypes _ _ _ := []
  returnType _ _ _ := 0
  isAccessibleFrom _ _ := true

/-- A field, a method and a method of an interface, all of the class `p.A`, and one of a class that is not
    there. -/
def callingConstants : List (Option Constant) :=
  [none, some (.cls 2), some (.utf8 "p/A"), some (.nameAndType 4 5), some (.utf8 "run"), some (.utf8 "()V"),
    some (.nameAndType 7 8), some (.utf8 "size"), some (.utf8 "I"), some (.member .field 1 6),
    some (.member .method 1 3), some (.member .interfaceMethod 1 3), some (.cls 13), some (.utf8 "p/B"),
    some (.member .method 12 3)]

def callingDraft : Draft Nat :=
  ⟨[.vacant, .cls 2 none none, .text "p/A", .nameAndType 4 5, .text "run", .text "()V", .nameAndType 7 8, .text "size",
    .text "I", .member .field 1 6, .member .method 1 3, .member .interfaceMethod 1 3, .cls 13 none none, .text "p/B",
    .member .method 12 3]⟩

/-- Both classes are to be loaded. -/
def callingPool : Pool Nat Nat Nat := callingDraft.resolved.requireAll [1, 12]

/-- Code two types below `p.A` calls its method as the type between has it. -/
theorem link_binds_each_slot_calling :
    let linked := (callingPool.link numberedHost 0 ⟨3, .link⟩).pool
    linked.entry 9 = .field ⟨1, "p.A", "size", "I"⟩ (.full ⟨some 1, 0⟩) ∧
      linked.entry 10 = .method ⟨⟨1, "p.A", "run", "()V"⟩, .full ⟨[], 0⟩, .full ⟨some 1, some 2⟩⟩ ∧
      linked.entry 11 = .interfaceMethod ⟨⟨1, "p.A", "run", "()V"⟩, .full ⟨[], 0⟩, .full ⟨some 9, some 9⟩⟩ ∧
      linked.entry 14 = .method ⟨⟨12, "p.B", "run", "()V"⟩, .full ⟨[], 0⟩, .empty⟩ := by
  have hbuild : Draft.ofConstants callingConstants = .ok callingDraft := rfl
  have hpatch : callingDraft.patchAll [] = .ok callingDraft := rfl
  have hresolve : callingDraft.resolve Nat Nat ⟨Version.java8, {}⟩ = .ok callingDraft.resolved :=
    Draft.resolve_of_isSome (by decide +kernel)
  have hus : ∀ u ∈ ([.require 1, .require 12] : List (Upkeep Nat Nat Nat)), u.IsPreparation := by
    simp [Upkeep.IsPreparation]
  have hprepared : [.require 1, .require 12].foldl Upkeep.apply callingDraft.resolved = callingPool := rfl
  obtain ⟨-, hentries, -⟩ := link_binds_each_slot hbuild hpatch hresolve hus hprepared numberedHost 0 ⟨3, .link⟩
  have hloaded : callingPool.typeAfter callingDraft numberedHost 0 ⟨3, .link⟩ 1 = some 1 := by cbv
  have hmissing : callingPool.typeAfter callingDraft numberedHost 0 ⟨3, .link⟩ 12 = some 0 := by cbv
  have hsignature : Signature.IsAnswer numberedHost ⟨3, .link⟩ "()V" ⟨[], 0⟩ := ⟨rfl, rfl⟩
  refine ⟨(hentries 9 _).mpr ?_, (hentries 10 _).mpr ?_, (hentries 11 _).mpr ?_, (hentries 14 _).mpr ?_⟩
  · have hentry : callingPool.entry 9 = .field ⟨1, "p.A", "size", "I"⟩ .empty := by cbv
    rw [hentry, Entry.BoundTo, hloaded]
    refine ⟨_, rfl, .some ⟨rfl, fun _ => rfl, ?_⟩⟩
    intro hplaceholder
    cases hplaceholder
  · have hentry : callingPool.entry 10 = .method ⟨⟨1, "p.A", "run", "()V"⟩, .empty, .empty⟩ := by cbv
    have habove : numberedHost.IsCallAbove ⟨3, .link⟩ ⟨1, "p.A", "run", "()V"⟩ 1 := ⟨by decide, rfl, rfl, rfl⟩
    rw [hentry, Entry.BoundTo, hloaded]
    refine ⟨_, _, rfl, .some hsignature, .some ⟨fun _ => rfl, fun _ => rfl, fun _ super hsuper => ?_, ?_, ?_⟩⟩
    · cases hsuper
      rfl
    · intro _ htop
      cases htop
    · exact fun hother => absurd habove hother
  · have hentry : callingPool.entry 11 = .interfaceMethod ⟨⟨1, "p.A", "run", "()V"⟩, .empty, .empty⟩ := by cbv
    rw [hentry, Entry.BoundTo, hloaded]
    refine ⟨_, _, rfl, .some hsignature, .some ⟨?_, fun _ => rfl, rfl⟩⟩
    intro _ _ hfound
    cases hfound
  · have hentry : callingPool.entry 14 = .method ⟨⟨12, "p.B", "run", "()V"⟩, .empty, .empty⟩ := by cbv
    rw [hentry, Entry.BoundTo, hmissing]
    exact ⟨_, _, rfl, .some hsignature, .none⟩

end JvmClass
