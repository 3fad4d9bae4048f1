/-
  JvmClass.Proofs.Class.Provision — linking provides for all that the class uses.

  A constant that is used has its class marked, and linking loads what is marked; so whatever is to
  be found out about the constant can be (`Entry.isBound_linked`). That the class is found from the
  constant in two steps is due to the pool being sound.
  - `link_provides_for_uses`: after one link everything that the class uses is bound.
-/

import JvmClass.Proofs.Class.Marking
import JvmClass.Proofs.Pool.Binding

namespace JvmClass

variable {T F M : Type}

/-! ## What is bound -/

/-- All that there is to find out about the constant is known. The classes have these types; no method
    is looked up in a placeholder. -/
def Entry.IsBound (isUnloadable : T → Bool) (type? : Index → Option T) : Entry T F M → Prop
  | .cls item => item.type.value?.isSome = true
  | .field _ binding => binding.value?.isSome = true
  | .method item => item.signature.value?.isSome = true ∧
      (item.binding.value?.isSome = true ∨ ∃ t, type? item.member.cls = some t ∧ isUnloadable t = true)
  | .interfaceMethod item => item.signature.value?.isSome = true ∧ item.binding.value?.isSome = true
  | .methodType _ signature => signature.value?.isSome = true
  | .invokeDynamic _ _ _ signature => signature.value?.isSome = true
  | _ => True

/-- The constant is bound, and if it is a method handle, its member is. -/
def Pool.IsLinked (isUnloadable : T → Bool) (p : Pool T F M) (i : Index) : Prop :=
  match p.entry i with
  | .methodHandle _ reference => (p.entry reference).member?.isSome = true ∧
      (p.entry reference).IsBound isUnloadable fun j => (p.entry j).type?
  | e => e.IsBound isUnloadable fun j => (p.entry j).type?

namespace Entry

variable {host : Host T F M} {asking : Asking T}

theorem isRequired_bindType (e : Entry T F M) (t : T) : (e.bindType t).isRequired = e.isRequired := by cases e <;> rfl

theorem isSome_type?_loaded {e : Entry T F M} (h : e.isRequired = true) :
    (e.loaded host asking).type?.isSome = true := by
  cases e with
  | cls item =>
    rw [isRequired] at h
    rw [loaded, type?, ClassEntry.linked, if_pos h, SetOnce.fill_value?, Option.isSome_some]
  | _ => cases h

/-- A class that is required and a member whose class has a type are bound when they are visited. -/
theorem isBound_linked {type? : Index → Option T} {e : Entry T F M} (hclass : e.isClass = true → e.isRequired = true)
    (hmember : ∀ kind m, e.member? = some (kind, m) → (type? m.cls).isSome = true) :
    (e.linked host asking type?).IsBound host.isUnloadable type? := by
  cases e with
  | cls item => exact isSome_type?_loaded (hclass rfl)
  | field m binding =>
    obtain ⟨holder, hholder⟩ := Option.isSome_iff_exists.mp (hmember .field m rfl)
    simp only [linked, hholder, IsBound, SetOnce.fill_value?, Option.isSome_some]
  | method item =>
    obtain ⟨holder, hholder⟩ := Option.isSome_iff_exists.mp (hmember .method item.member rfl)
    simp only [linked, hholder, Linking.linkMethod, Linking.linkSignature, IsBound]
    by_cases hunloadable : host.isUnloadable holder = true
    · rw [if_pos hunloadable]
      exact ⟨by rw [SetOnce.fill_value?, Option.isSome_some], .inr ⟨holder, hholder, hunloadable⟩⟩
    · rw [if_neg hunloadable]
      exact ⟨by rw [SetOnce.fill_value?, Option.isSome_some], .inl (by rw [SetOnce.fill_value?, Option.isSome_some])⟩
  | interfaceMethod item =>
    obtain ⟨holder, hholder⟩ := Option.isSome_iff_exists.mp (hmember .interfaceMethod item.member rfl)
    simp only [linked, hholder, Linking.linkInterfaceMethod, Linking.linkSignature, IsBound, SetOnce.fill_value?,
      Option.isSome_some, and_self]
  | methodType descriptor signature => simp only [linked, IsBound, SetOnce.fill_value?, Option.isSome_some]
  | invokeDynamic bootstrap name descriptor signature =>
    simp only [linked, IsBound, SetOnce.fill_value?, Option.isSome_some]
  | _ => exact trivial

theorem dependency?_of_member? {e : Entry T F M} {kind : MemberKind} {m : MemberRef}
    (h : e.member? = some (kind, m)) : e.dependency? = some m.cls := by
  cases e <;> first | (cases h; rfl) | cases h

theorem isClass_of_member? {e : Entry T F M} {member : MemberKind × MemberRef} (h : e.member? = some member) :
    e.isClass = false := by
  cases e <;> first | rfl | cases h

theorem eq_methodHandle_of_frozen {e : Entry T F M} {kind : HandleKind} {reference : Index}
    (h : e.frozen = .methodHandle kind reference) : e = .methodHandle kind reference := by
  cases e <;> first | exact h | cases h

theorem dependency?_of_isClass {e : Entry T F M} (h : e.isClass = true) : e.dependency? = none := by
  cases e <;> first | rfl | cases h

end Entry

/-! ## The classes of used constants -/

namespace Pool

variable {p : Pool T F M} {rules : Rules} {d : Draft T} {i : Index}

theorem classWithin_of_isClass (h : p.isClass i = true) (steps : Nat) : p.classWithin steps i = some i := by
  cases steps with
  | zero => rw [classWithin, if_pos h]
  | succ steps =>
    rw [classWithin, Entry.dependency?_of_isClass h]
    exact if_pos h

theorem classWithin_of_member? {kind : MemberKind} {m : MemberRef} (h : (p.entry i).member? = some (kind, m))
    (hclass : p.isClass m.cls = true) (steps : Nat) : p.classWithin (steps + 1) i = some m.cls := by
  rw [classWithin, Entry.dependency?_of_member? h]
  exact classWithin_of_isClass hclass steps

theorem Sound.entry (hp : p.Sound rules d) (i : Index) : (p.entry i).Sound rules p := by
  unfold Pool.entry
  cases hi : p.entries[i.toNat]? with
  | none => exact trivial
  | some e => exact hp.entries i.toNat e hi

theorem Sound.isClass_of_member? (hp : p.Sound rules d) {kind : MemberKind} {m : MemberRef}
    (h : (p.entry i).member? = some (kind, m)) : p.isClass m.cls = true := by
  have hsound := hp.entry i
  have hname : p.className m.cls = .ok m.className := by
    cases hi : p.entry i with
    | field m' binding =>
      rw [hi] at h hsound
      cases h
      exact hsound.1
    | method item =>
      rw [hi] at h hsound
      cases h
      exact hsound.1
    | interfaceMethod item =>
      rw [hi] at h hsound
      cases h
      exact hsound.1
    | _ =>
      rw [hi] at h
      cases h
  obtain ⟨item, hitem, -⟩ := className_eq_ok.mp hname
  rw [isClass, hitem]
  rfl

/-- A method handle is one of a member, and leads to the class of that. -/
theorem Sound.classOf?_of_handle (hp : p.Sound rules d) {kind : HandleKind} {reference : Index}
    (h : p.entry i = .methodHandle kind reference) :
    ∃ memberKind m, (p.entry reference).member? = some (memberKind, m) ∧ p.classOf? i = some m.cls := by
  have hsound := hp.entry i
  rw [h] at hsound
  obtain ⟨memberKind, m, hm, -⟩ := hsound
  refine ⟨memberKind, m, hm, ?_⟩
  rw [classOf?, classWithin, h]
  exact classWithin_of_member? hm (hp.isClass_of_member? hm) 0

section Linked

variable {host : Host T F M} {thisClass : Index} {asking : Asking T}

theorem isRequired_bindSelf (t : T) (j : Index) :
    ((p.bindSelf thisClass t).entry j).isRequired = (p.entry j).isRequired := by
  rw [entry_bindSelf]
  split
  · exact Entry.isRequired_bindType _ t
  · rfl

theorem isSome_typeVisited? {j : Index} (h : (p.entry j).isRequired = true) :
    ((p.bindSelf thisClass asking.type).typeVisited? host asking j).isSome = true :=
  Entry.isSome_type?_loaded ((isRequired_bindSelf asking.type j).trans h)

/-- A constant is bound if it is a required class, or a member of one, or neither. -/
theorem isBound_linked_bindSelf {j : Index} (hclass : p.isClass j = true → (p.entry j).isRequired = true)
    (hmember : ∀ kind m, (p.entry j).member? = some (kind, m) → (p.entry m.cls).isRequired = true) :
    (((p.bindSelf thisClass asking.type).linked host asking).entry j).IsBound host.isUnloadable
      fun k => (((p.bindSelf thisClass asking.type).linked host asking).entry k).type? := by
  have hfrozen := frozen_bindSelf p thisClass asking.type
  simp only [entry_linked, Entry.type?_linked]
  refine Entry.isBound_linked ?_ ?_
  · intro h
    rw [isRequired_bindSelf]
    exact hclass ((congr_of_frozen Entry.isClass Entry.isClass_frozen hfrozen j).symm.trans h)
  · intro kind m hm
    exact isSome_typeVisited? (hmember kind m
      ((congr_of_frozen Entry.member? Entry.member?_frozen hfrozen j).symm.trans hm))

/-- If the class that the constant depends on is required, linking binds the constant. -/
theorem isLinked_link (hp : p.Addressable) (hsound : p.Sound rules d)
    (hrequired : ∀ j, p.classOf? i = some j → (p.entry j).isRequired = true) :
    (p.link host thisClass asking).pool.IsLinked host.isUnloadable i := by
  have hfrozen := frozen_link p host thisClass asking
  rw [hp.pool_link] at hfrozen ⊢
  have hentry := entry_of_frozen hfrozen i
  unfold IsLinked
  split
  · rename_i kind reference hi
    rw [hi] at hentry
    have hhandle : p.entry i = .methodHandle kind reference := Entry.eq_methodHandle_of_frozen hentry.symm
    obtain ⟨memberKind, m, hm, hof⟩ := hsound.classOf?_of_handle hhandle
    refine ⟨?_, isBound_linked_bindSelf ?_ ?_⟩
    · rw [congr_of_frozen Entry.member? Entry.member?_frozen hfrozen, hm]
      rfl
    · intro hself
      rw [isClass, Entry.isClass_of_member? hm] at hself
      cases hself
    · intro memberKind' m' hm'
      rw [hm] at hm'
      cases hm'
      exact hrequired _ hof
  · refine isBound_linked_bindSelf ?_ ?_
    · intro hclass
      exact hrequired i (classWithin_of_isClass hclass 2)
    · intro kind m hm
      exact hrequired _ (classWithin_of_member? hm (hsound.isClass_of_member? hm) 1)

end Linked

end Pool

/-- Once a class has been linked, whatever it uses is bound, whichever host it was linked for: its code
    finds each class, field and method that it refers to, or a placeholder in its place. -/
theorem link_provides_for_uses [ToString T] {file : ClassFile} {input : String} {options : Options}
    {patches : List (Option (Patch T))} {c : Class T F M} (h : (Class.ofFile file input options patches).1 = .ok c)
    (host : Host T F M) (type : T) (mode : LoadMode) {i : Index} (hi : file.Uses c.pool i) :
    (c.link host type mode).1.pool.IsLinked host.isUnloadable i := by
  obtain ⟨draft, patched, p, us, hbuild, hpatch, hresolve, hus, hpool, hrequire⟩ := Class.prepared_of_ofFile h
  have hfrozen : c.pool.frozen = p.frozen := by rw [← hpool, Upkeep.frozen_foldl]
  have hvacant := Draft.startsVacant_patchAll (Draft.startsVacant_ofConstants hbuild) hpatch
  have hsound := (Draft.sound_resolve hvacant hresolve).of_frozen hfrozen
  have haddressable := (Pool.addressable_of_resolve hbuild hpatch hresolve).of_frozen hfrozen
  refine Pool.isLinked_link haddressable hsound ?_
  intro j hj
  rw [Pool.classOf?_of_frozen hfrozen] at hj
  rw [← hpool]
  exact (Upkeep.isRequired_prepared hus j).mpr (.inr ⟨i, (hrequire i).mpr hi, hj⟩)

/-- Code that creates an object of the class at slot 8 and catches the class at slot 10. -/
def creatingLayout : CodeLayout := ⟨1, 1, [0xBB, 0, 8, 0xB1], [⟨0, 3, 3, 10⟩], []⟩

/-- A class with that code, an inner class within another class, and a bootstrap method: the method `H.m` with
    the class `G` as its argument. -/
def creatingFile : ClassFile :=
  { version := Version.java8
    constants := [none, some (.cls 2), some (.utf8 "A"), some (.cls 4), some (.utf8 "java/lang/Object"),
      some (.utf8 "m"), some (.utf8 "()V"), some (.utf8 "Code"), some (.cls 9), some (.utf8 "B"), some (.cls 11),
      some (.utf8 "E"), some (.utf8 "InnerClasses"), some (.cls 14), some (.utf8 "O$I"), some (.cls 16),
      some (.utf8 "O"), some (.utf8 "BootstrapMethods"), some (.methodHandle 6 19), some (.member .method 20 21),
      some (.cls 22), some (.nameAndType 5 6), some (.utf8 "H"), some (.cls 24), some (.utf8 "G")]
    access := 0x21
    thisClass := 1
    superClass := 3
    interfaces := []
    fields := []
    methods := [⟨0x1, 5, 6, [⟨7, creatingLayout.written⟩]⟩]
    attributes := [⟨12, listBytes InnerClassInfo.bytes [⟨13, 15, 0, 0⟩]⟩,
      ⟨17, listBytes BootstrapMethod.bytes [⟨18, [23]⟩]⟩] }

theorem uses_creatingFile {p : Pool T F M} (hcode : p.text 7 = .ok "Code") (hinner : p.text 12 = .ok "InnerClasses")
    (hbootstrap : p.text 17 = .ok "BootstrapMethods") : ∀ i ∈ [8, 10, 13, 15, 18, 23], creatingFile.Uses p i := by
  have hfits : creatingLayout.Fits := ⟨by decide, by decide, by decide, List.forall_mem_nil _⟩
  have hspell : Written.Spell [⟨0xBB, .new, .constant, by decide +kernel, .constant 8⟩,
      ⟨0xB1, .returnVoid, .plain, by decide +kernel, .plain⟩] creatingLayout.bytes :=
    ⟨⟨trivial, trivial, trivial⟩, rfl⟩
  have hfew : [(⟨13, 15, 0, 0⟩ : InnerClassInfo)].length < 0x10000 := by decide
  have hmethods : ListFits BootstrapMethod.Fits [⟨18, [23]⟩] :=
    ⟨by decide, List.forall_mem_singleton.mpr (show 1 < 0x10000 by decide)⟩
  have hoperand : Attribute.CodeUses p ⟨7, creatingLayout.written⟩ 8 :=
    .operand (l := creatingLayout) hcode hfits rfl hspell List.mem_cons_self rfl
  have hcaught : Attribute.CodeUses p ⟨7, creatingLayout.written⟩ 10 :=
    .caught (l := creatingLayout) (h := ⟨0, 3, 3, 10⟩) hcode hfits rfl (List.mem_singleton_self _) (by decide)
  have hmethod (i : Index) (h : Attribute.CodeUses p ⟨7, creatingLayout.written⟩ i) : creatingFile.Uses p i :=
    .inl ⟨_, List.mem_singleton_self _, _, List.mem_singleton_self _, h⟩
  have hinside : Attribute.ClassUses p Version.java8 ⟨12, listBytes InnerClassInfo.bytes [⟨13, 15, 0, 0⟩]⟩ 13 :=
    .inner (e := ⟨13, 15, 0, 0⟩) hinner hfew rfl (List.mem_singleton_self _)
  have houtside : Attribute.ClassUses p Version.java8 ⟨12, listBytes InnerClassInfo.bytes [⟨13, 15, 0, 0⟩]⟩ 15 :=
    .outer (e := ⟨13, 15, 0, 0⟩) hinner hfew rfl (List.mem_singleton_self _) (by decide)
  have hpart (i : Index) (hi : i = 18 ∨ i ∈ [23]) :
      Attribute.ClassUses p Version.java8 ⟨17, listBytes BootstrapMethod.bytes [⟨18, [23]⟩]⟩ i :=
    .bootstrap (m := ⟨18, [23]⟩) hbootstrap (by decide) hmethods rfl (List.mem_singleton_self _) hi
  simp only [List.forall_mem_cons]
  exact ⟨hmethod 8 hoperand, hmethod 10 hcaught, .inr ⟨_, List.mem_cons_self, hinside⟩,
    .inr ⟨_, List.mem_cons_self, houtside⟩,
    .inr ⟨_, List.mem_cons_of_mem _ (List.mem_singleton_self _), hpart 18 (.inl rfl)⟩,
    .inr ⟨_, List.mem_cons_of_mem _ (List.mem_singleton_self _), hpart 23 (.inr (List.mem_singleton_self _))⟩,
    List.forall_mem_nil _⟩

/-- The class that is created and the one that is caught, the inner and the outer class, the handle of the
    bootstrap method and its argument are all bound. -/
theorem link_provides_for_uses_creating :
    ∃ c : Class Nat Nat Nat, (Class.ofFile creatingFile "A" {} []).1 = .ok c ∧
      ∀ i ∈ [8, 10, 13, 15, 18, 23], creatingFile.Uses c.pool i ∧
        (c.link numberedHost 3 .link).1.pool.IsLinked numberedHost.isUnloadable i := by
  have hnames : ((Class.ofFile creatingFile "A" {} [] : Except Error (Class Nat Nat Nat) × _).1.toOption.map
      fun c => (c.pool.text? 7, c.pool.text? 12, c.pool.text? 17)) =
        some (some "Code", some "InnerClasses", some "BootstrapMethods") := by decide +kernel
  cases h : (Class.ofFile creatingFile "A" {} [] : Except Error (Class Nat Nat Nat) × _).1 with
  | error e =>
    rw [h] at hnames
    cases hnames
  | ok c =>
    rw [h] at hnames
    have htexts := Option.some.inj hnames
    simp only [Prod.mk.injEq, ← Pool.text_eq_ok_iff] at htexts
    have huses := uses_creatingFile htexts.1 htexts.2.1 htexts.2.2
    exact ⟨c, rfl, fun i hi => ⟨huses i hi, link_provides_for_uses h numberedHost 3 .link (huses i hi)⟩⟩

end JvmClass
