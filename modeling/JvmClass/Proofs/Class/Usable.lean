/-
  JvmClass.Proofs.Class.Usable — whatever a built class refers to can be used as what it is.

  The parts of a class are checked at different moments, and what is built later still marks
  constants, exposes texts and takes assertions out of the members. Nothing of it undoes a check: the
  pool keeps what never changes, and without assertions the members have the names, descriptors and
  handlers that they had (`keys_withoutAssertions`, `hasOwnConstant_withoutAssertions`,
  `catchesClasses_withoutAssertions`).
  - `built_class_is_usable`: so all that was checked holds of the class in the end (`Class.IsUsable`).
-/

import JvmClass.Proofs.Class.Ensuring
import JvmClass.Proofs.Duplicate

namespace JvmClass

variable {T F M : Type}

/-- All that the class refers to is there and of the right kind, and its members are told apart. -/
structure Class.IsUsable (c : Class T F M) : Prop where
  thisClass : ∃ item, c.pool.entry c.thisClass = .cls item ∧ item.name = c.name
  noArray : c.name.toList.head? ≠ some '['
  root : c.superclass = none → c.name = objectName
  interface : c.isInterface = true → c.superclass = some objectName
  interfaces : c.interfaces.Nodup
  fieldKeys : (c.fields.map (·.member.key)).Nodup
  methodKeys : (c.methods.map (·.member.key)).Nodup
  constants : ∀ f ∈ c.fields, f.HasOwnConstant
  coded : ∀ m ∈ c.methods, m.IsCoded
  caught : ∀ m ∈ c.methods, m.CatchesClasses c.pool
  attributes : c.toClassAttributes.AreLegal c.pool
  callSites : ∀ e ∈ c.pool.entries, ∀ bootstrap name descriptor signature,
    e = .invokeDynamic bootstrap name descriptor signature → bootstrap.toNat < c.bootstrapMethods.length

/-! ## Without assertions -/

section ModifyFirst

variable {α β : Type} {test : α → Bool} {change : α → α} {l : List α}

theorem mem_modifyFirst {b : α} (h : b ∈ modifyFirst test change l) :
    b ∈ l ∨ ∃ a, l.find? test = some a ∧ b = change a := by
  induction l with
  | nil => exact .inl h
  | cons a l ih =>
    unfold modifyFirst at h
    by_cases ha : test a = true
    · rw [if_pos ha] at h
      rw [List.find?_cons_of_pos ha]
      rcases List.mem_cons.mp h with hb | hb
      · exact .inr ⟨a, rfl, hb⟩
      · exact .inl (List.mem_cons_of_mem a hb)
    · rw [if_neg ha] at h
      rw [List.find?_cons_of_neg ha]
      rcases List.mem_cons.mp h with hb | hb
      · exact .inl (hb ▸ List.mem_cons_self)
      · exact (ih hb).imp_left (List.mem_cons_of_mem a)

/-- What the change leaves as it is can be told of the changed list as before. -/
theorem map_modifyFirst {f : α → β} (h : ∀ a, l.find? test = some a → f (change a) = f a) :
    (modifyFirst test change l).map f = l.map f := by
  induction l with
  | nil => rfl
  | cons a l ih =>
    unfold modifyFirst
    by_cases ha : test a = true
    · rw [if_pos ha, List.map_cons, List.map_cons, h a (List.find?_cons_of_pos ha)]
    · rw [List.find?_cons_of_neg ha] at h
      rw [if_neg ha, List.map_cons, List.map_cons, ih h]

/-- The first element of a list that satisfies the test is taken to the first one of the list that it is
    mapped to. -/
theorem modifyFirst_map {f : α → β} {test' : β → Bool} (htest : ∀ a, test' (f a) = test a) (l : List α) (a : α) :
    modifyFirst test' (fun _ => f a) (l.map f) = (modifyFirst test (fun _ => a) l).map f := by
  induction l with
  | nil => rfl
  | cons b l ih =>
    simp only [List.map_cons, modifyFirst, htest]
    split
    · rfl
    · rw [ih, List.map_cons]

end ModifyFirst

/-- A method that is changed keeps all but the instructions of its body, and the markers. -/
theorem Method.of_withoutAssertions? {p : Pool T F M} {thisClass : String} {fields : List Field} {m m' : Method}
    {field : MemberRef} (h : m.withoutAssertions? p thisClass fields = some (field, m')) :
    m'.member = m.member ∧ ∃ code code' body body', m.code = some code ∧ code.decoded? = some body ∧
      m'.code = some code' ∧ code'.decoded? = some body' ∧ body'.handlers = body.handlers := by
  simp only [withoutAssertions?, removeAssertions, Option.bind_eq_bind, Option.bind_eq_some_iff, Option.pure_def,
    Option.some.injEq] at h
  obtain ⟨code, hcode, body, hbody, ⟨field', body'⟩, ⟨_, -, _, -, _, -, _, -, heq⟩, heq'⟩ := h
  cases heq
  cases heq'
  exact ⟨rfl, code, _, body, _, hcode, hbody, rfl, rfl, rfl⟩

/-- Either nothing is changed, or a field of descriptor `Z` and the first static initializer are. -/
theorem withoutAssertions_cases (p : Pool T F M) (thisClass : String) (fields : List Field) (methods : List Method) :
    withoutAssertions p thisClass fields methods = (fields, methods) ∨
      ∃ m field m', methods.find? (·.isClassInitializer) = some m ∧
        m.withoutAssertions? p thisClass fields = some (field, m') ∧
        withoutAssertions p thisClass fields methods =
          (modifyFirst (·.member.isNamed field.name "Z") (fun f => { f with constant := some (.boolean true) }) fields,
            modifyFirst (·.isClassInitializer) (fun _ => m') methods) := by
  unfold withoutAssertions
  split
  · exact .inl rfl
  · rename_i m hm
    split
    · exact .inl rfl
    · rename_i field m' hm'
      exact .inr ⟨m, field, m', hm, hm', rfl⟩

section WithoutAssertions

variable {p : Pool T F M} {thisClass : String} {fields fields' : List Field} {methods methods' : List Method}
  (h : withoutAssertions p thisClass fields methods = (fields', methods'))
include h

theorem keys_withoutAssertions : fields'.map (·.member.key) = fields.map (·.member.key) ∧
    methods'.map (·.member.key) = methods.map (·.member.key) := by
  rcases withoutAssertions_cases p thisClass fields methods with heq | ⟨m, field, m', hm, hm', heq⟩
  · cases heq.symm.trans h
    exact ⟨rfl, rfl⟩
  · cases heq.symm.trans h
    refine ⟨map_modifyFirst fun f _ => rfl, map_modifyFirst fun m₀ hm₀ => ?_⟩
    cases hm.symm.trans hm₀
    exact congrArg Member.key (Method.of_withoutAssertions? hm').1

theorem hasOwnConstant_withoutAssertions (hfields : ∀ f ∈ fields, f.HasOwnConstant) :
    ∀ f ∈ fields', f.HasOwnConstant := by
  rcases withoutAssertions_cases p thisClass fields methods with heq | ⟨m, field, m', hm, hm', heq⟩
  · cases heq.symm.trans h
    exact hfields
  · cases heq.symm.trans h
    intro f hf
    rcases mem_modifyFirst hf with hf | ⟨f₀, hfound, rfl⟩
    · exact hfields f hf
    · intro c hc
      cases hc
      have hnamed := List.find?_some hfound
      simp only [Member.isNamed, Bool.and_eq_true, beq_iff_eq] at hnamed
      exact hnamed.2.symm

theorem methods_withoutAssertions {q : Pool T F M}
    (hmethods : ∀ m ∈ methods, m.IsCoded ∧ m.CatchesClasses q) : ∀ m ∈ methods', m.IsCoded ∧ m.CatchesClasses q := by
  rcases withoutAssertions_cases p thisClass fields methods with heq | ⟨m, field, m', hm, hm', heq⟩
  · cases heq.symm.trans h
    exact hmethods
  · cases heq.symm.trans h
    intro m₀ hm₀
    rcases mem_modifyFirst hm₀ with hm₀ | ⟨_, hfound, rfl⟩
    · exact hmethods m₀ hm₀
    · obtain ⟨hmember, code, code', body, body', hcode, hbody, hcode', hbody', hhandlers⟩ :=
        Method.of_withoutAssertions? hm'
      obtain ⟨hcoded, hcatches⟩ := hmethods m (List.mem_of_find?_eq_some hm)
      constructor
      · rw [Method.IsCoded, hcode] at hcoded
        rw [Method.IsCoded, hcode', Method.isAbstract, Method.isNative, hmember]
        exact iff_of_false (fun heq => nomatch heq) fun hbodiless => nomatch hcoded.mpr hbodiless
      · intro code₀ hcode₀ body₀ hbody₀ handler hhandler
        cases hcode'.symm.trans hcode₀
        cases hbody'.symm.trans hbody₀
        exact hcatches code hcode body hbody handler (hhandlers ▸ hhandler)

end WithoutAssertions

/-! ## The header -/

theorem Access.has_erase {h : Holder} (a : Access h) {flags erased : UInt16} (hapart : flags &&& ~~~erased = flags) :
    (a.erase erased).has flags = a.has flags := by
  have hbits : a.bits &&& ~~~erased &&& flags = a.bits &&& flags := by
    rw [UInt16.and_assoc, UInt16.and_comm (~~~erased), hapart]
  rw [Access.has, Access.erase, hbits, Access.has]

namespace ClassHeader

variable {p : Pool T F M} {fault : FormatFault} {i : Index}

theorem nameAt_eq_ok {name : String} (h : nameAt p fault i = .ok name) :
    ∃ item, p.entry i = .cls item ∧ item.name = name := by
  unfold nameAt Pool.class? at h
  split at h
  · rename_i item hitem
    cases h
    split at hitem
    · rename_i item' hentry
      cases hitem
      exact ⟨item, hentry, rfl⟩
    · cases hitem
  · cases h

theorem name_of_superclassOf_eq_none {name : String} (h : superclassOf p name i = .ok none) : name = objectName := by
  unfold superclassOf at h
  split at h
  · split at h
    · assumption
    · cases h
  · obtain ⟨_, -, hnone⟩ := Except.map_eq_ok.mp h
    cases hnone

/-- What is checked of a class before its members. -/
structure IsLegal (p : Pool T F M) (header : ClassHeader) : Prop where
  thisClass : ∃ item, p.entry header.thisClass = .cls item ∧ item.name = header.name
  noArray : header.name.toList.head? ≠ some '['
  root : header.superclass = none → header.name = objectName
  interface : header.access.has accInterface = true → header.superclass = some objectName
  interfaces : header.interfaces.Nodup

theorem legal_of_ofFile {file : ClassFile} {header : ClassHeader} (h : ofFile p file = .ok header) :
    header.IsLegal p := by
  simp only [ofFile, Except.ite_throw_eq_ok, Except.bind_eq_ok, Except.pure_eq_ok] at h
  obtain ⟨-, name, hname, harray, superclass, hsuperclass, hinterface, interfaces, -, hinterfaces, rfl⟩ := h
  refine ⟨nameAt_eq_ok hname, harray, fun hnone => ?_, fun hflag => ?_, ?_⟩
  · exact name_of_superclassOf_eq_none (p := p) (i := file.superClass) (hsuperclass.trans (congrArg Except.ok hnone))
  · exact Classical.byContradiction fun hother => hinterface ⟨hflag, hother⟩
  · exact hasDuplicates_eq_false_iff.mp (Bool.not_eq_true _ ▸ hinterfaces)

end ClassHeader

/-! ## The whole class -/

/-- The checks of the header hold in every later pool. -/
theorem Pool.entry_cls_of_frozen {p q : Pool T F M} (h : q.frozen = p.frozen) {i : Index} {name : String}
    (hp : ∃ item, p.entry i = .cls item ∧ item.name = name) : ∃ item, q.entry i = .cls item ∧ item.name = name := by
  obtain ⟨item, hitem, rfl⟩ := hp
  have hentry := entry_of_frozen h i
  rw [hitem] at hentry
  cases hi : q.entry i with
  | cls item' =>
    rw [hi] at hentry
    simp only [Entry.frozen, Entry.cls.injEq, ClassEntry.mk.injEq] at hentry
    exact ⟨item', rfl, hentry.1⟩
  | _ =>
    rw [hi] at hentry
    cases hentry

namespace Class

open Build (Ensures)

variable {p : Pool T F M}

theorem ensures_buildFields (cls : DeclaringClass) (file : ClassFile) : Ensures p (buildFields cls file) fun fs =>
    (∀ f ∈ fs, f.HasOwnConstant) ∧ (fs.map (·.member.key)).Nodup :=
  (Ensures.mapM (Field.ensures_build cls) _).bind fun _ hfields => .check fun hkeys =>
    .pure ⟨hfields, hasDuplicates_eq_false_iff.mp (Bool.not_eq_true _ ▸ hkeys)⟩

theorem ensures_buildMethods {P : Code → Prop} (hdecodes : Code.Decodes p P) (hmissing : ∀ fault, P (.missing fault))
    (cls : DeclaringClass) (file : ClassFile) : Ensures p (buildMethods cls file) fun ms =>
      (∀ m ∈ ms, m.IsCoded ∧ m.IsFresh P) ∧ (ms.map (·.member.key)).Nodup :=
  (Ensures.mapM (Method.ensures_build hdecodes hmissing cls) _).bind fun _ hmethods => .check fun hkeys =>
    .pure ⟨hmethods, hasDuplicates_eq_false_iff.mp (Bool.not_eq_true _ ▸ hkeys)⟩

theorem callSites_of_areBootstrapped {count : Nat} (h : p.areBootstrapped count = true) : ∀ e ∈ p.entries,
    ∀ bootstrap name descriptor signature, e = .invokeDynamic bootstrap name descriptor signature →
      bootstrap.toNat < count := by
  rintro _ he bootstrap name descriptor signature rfl
  have hall := Array.all_eq_true_iff_forall_mem.mp h _ he
  simpa [Entry.bootstrap?] using hall

theorem ensures_build (file : ClassFile) (options : Options) : Ensures p (build file options) IsUsable := by
  refine Ensures.pool.bind fun q hq => ?_
  refine (Ensures.ofExcept fun header => ClassHeader.legal_of_ofFile).bind fun header hheader => ?_
  refine (ensures_buildFields _ file).bind fun fields hfields => ?_
  refine (ensures_buildMethods (Code.decodes_catchesClasses p) (Code.catchesClasses_missing p) _ file).bind
    fun methods hmethods => ?_
  refine Ensures.pool.bind fun resolved hresolved => ?_
  generalize hmembers : (if options.removeAssertions = true then _ else _) = members
  obtain ⟨fields', methods'⟩ := members
  have hfields' : (∀ f ∈ fields', f.HasOwnConstant) ∧ (fields'.map (·.member.key)).Nodup := by
    by_cases hremove : options.removeAssertions = true
    · rw [if_pos hremove] at hmembers
      exact ⟨hasOwnConstant_withoutAssertions hmembers hfields.1, (keys_withoutAssertions hmembers).1 ▸ hfields.2⟩
    · rw [if_neg hremove] at hmembers
      cases hmembers
      exact hfields
  have hcaught : ∀ m ∈ methods, m.IsCoded ∧ m.CatchesClasses p := fun m hm =>
    ⟨(hmethods.1 m hm).1, (hmethods.1 m hm).2.code⟩
  have hmethods' : (∀ m ∈ methods', m.IsCoded ∧ m.CatchesClasses p) ∧ (methods'.map (·.member.key)).Nodup := by
    by_cases hremove : options.removeAssertions = true
    · rw [if_pos hremove] at hmembers
      exact ⟨methods_withoutAssertions hmembers hcaught, (keys_withoutAssertions hmembers).2 ▸ hmethods.2⟩
    · rw [if_neg hremove] at hmembers
      cases hmembers
      exact ⟨hcaught, hmethods.2⟩
  refine (ClassAttributes.ensures_build _ _ _).bind fun attributes hattributes => ?_
  refine Ensures.pool.bind fun last hlast => .check fun hsites => .pure ?_
  exact
    { thisClass := Pool.entry_cls_of_frozen (hlast.trans hq.symm) hheader.thisClass
      noArray := hheader.noArray
      root := hheader.root
      interface := fun hflag => hheader.interface (by
        rw [← hflag, ClassHeader.isInterface]
        dsimp only
        split
        · exact (Access.has_erase header.access (by decide)).symm
        · rfl)
      interfaces := hheader.interfaces
      fieldKeys := hfields'.2
      methodKeys := hmethods'.2
      constants := hfields'.1
      coded := fun m hm => (hmethods'.1 m hm).1
      caught := fun m hm code hcode => Code.catchesClasses_of_frozen hlast.symm ((hmethods'.1 m hm).2 code hcode)
      attributes :=
        ⟨fun i hi => (hattributes.innerClasses i hi).of_frozen hlast.symm,
          fun m hm => (hattributes.bootstrapMethods m hm).of_frozen hlast.symm⟩
      callSites := callSites_of_areBootstrapped (by simpa using hsites) }

end Class

/-- Whatever the file, the options and the patches: if a class is made of them, it is usable. -/
theorem built_class_is_usable [ToString T] {file : ClassFile} {input : String} {options : Options}
    {patches : List (Option (Patch T))} {c : Class T F M} (h : (Class.ofFile file input options patches).1 = .ok c) :
    c.IsUsable := by
  unfold Class.ofFile at h
  split at h
  · cases h
  split at h
  · cases h
  rename_i p _
  split at h
  · rename_i c' s' hrun
    cases h
    exact (Class.ensures_build file options _ _ _ rfl hrun).1
  · cases h

/-- A class that asks for assertions, with a call site, an inner class and a handler. -/
def askingFile : ClassFile :=
  { version := Version.java8
    constants := [none, some (.cls 2), some (.utf8 "A"), some (.cls 4), some (.utf8 "java/lang/Object"),
      some (.utf8 "<clinit>"), some (.utf8 "()V"), some (.utf8 "Code"), some (.member .method 9 11), some (.cls 10),
      some (.utf8 "java/lang/Class"), some (.nameAndType 12 13), some (.utf8 "desiredAssertionStatus"),
      some (.utf8 "()Z"), some (.member .field 1 15), some (.nameAndType 16 17), some (.utf8 "$assertionsDisabled"),
      some (.utf8 "Z"), some (.invokeDynamic 0 19), some (.nameAndType 20 6), some (.utf8 "m"),
      some (.methodHandle 6 22), some (.member .method 1 19), some (.utf8 "BootstrapMethods"),
      some (.utf8 "InnerClasses")]
    access := 0x21
    thisClass := 1
    superClass := 3
    interfaces := []
    fields := [⟨0x18, 16, 17, []⟩]
    methods := [⟨0x8, 5, 6, [⟨7, [0, 1, 0, 0, 0, 0, 0, 17, 0x12, 1, 0xB6, 0, 8, 0x9A, 0, 7, 0x04, 0xA7, 0, 4, 0x03, 0xB3,
      0, 14, 0xB1, 0, 1, 0, 16, 0, 17, 0, 16, 0, 3, 0, 0]⟩]⟩]
    attributes := [⟨23, [0, 1, 0, 21, 0, 1, 0, 3]⟩, ⟨24, [0, 1, 0, 1, 0, 3, 0, 2, 0, 0]⟩] }

/-- The number of handlers of each method, its bootstrap methods and inner classes, and the constants of the fields. -/
def Class.outline (c : Class T F M) : List Nat × Nat × Nat × List (Option FieldConstant) :=
  (c.methods.map fun m => ((m.code.bind (·.decoded?)).map (·.handlers.length)).getD 0, c.bootstrapMethods.length,
    c.innerClasses.length, c.fields.map (·.constant))

theorem built_class_is_usable_asking :
    ∃ c : Class Nat Nat Nat, (Class.ofFile askingFile "A" { removeAssertions := true } []).1 = .ok c ∧
      c.outline = ([1], 1, 1, [some (.boolean true)]) ∧ c.IsUsable := by
  have houtline : ((Class.ofFile askingFile "A" { removeAssertions := true } [] :
      Except Error (Class Nat Nat Nat) × _).1.toOption.map Class.outline) =
        some ([1], 1, 1, [some (.boolean true)]) := by decide +kernel
  cases h : (Class.ofFile askingFile "A" { removeAssertions := true } [] : Except Error (Class Nat Nat Nat) × _).1 with
  | error e =>
    rw [h] at houtline
    cases houtline
  | ok c =>
    rw [h] at houtline
    exact ⟨c, rfl, Option.some.inj houtline, built_class_is_usable h⟩

end JvmClass
