/-
  JvmClass.Proofs.Class.Marking — building a class marks what the class uses.

  Of all that is read of a class only three things mark constants: code, inner classes and bootstrap
  methods. Each marks what it uses and no more (`Method.marks_withAttribute`,
  `ClassAttributes.marks_withAttribute`), the other parts are quiet, and so the class has all its
  uses marked, and nothing else (`Class.marked_of_ofFile`).
-/

import JvmClass.Class.OfFile
import JvmClass.Proofs.Class.Building
import JvmClass.Proofs.Class.Uses

namespace JvmClass

variable {T F M : Type}

open Build (Quiet)

/-- A computation that goes on from the kind of an attribute. -/
theorem Build.marks_kindOf {α : Type} {version : Version} {a : Attribute} {f : AttributeKind → Build T F M α}
    {needs : Pool T F M → Index → Prop}
    (hf : ∀ kind s b s', a.IsKind s.pool version kind → f kind s = .ok b s' → BuildState.Marked (needs s.pool) s s') :
    (kindOf version a >>= f).Marks needs := by
  intro s b s' h
  obtain ⟨kind, _, hread, hrest⟩ := bind_eq_ok.mp h
  obtain ⟨hkind, rfl⟩ := kindOf_eq_ok.mp hread
  exact hf kind s b s' hkind hrest

/-! ## Fields -/

theorem Member.quiet_withAttribute? {h : Holder} (m : Member h) (kind : AttributeKind) (info : List UInt8) :
    (m.withAttribute? kind info : Build T F M _).Quiet := by
  unfold withAttribute?
  split
  · split
    · exact .pure _
    · exact .throw _
  · exact (Quiet.singleText _ _).bind fun _ => .pure _
  · exact (Quiet.annotations _).bind fun _ => .pure _
  · exact Quiet.exposeTexts.bind fun _ => .pure _
  · exact .pure _

namespace Field

theorem quiet_withInvisible (cls : DeclaringClass) (f : Field) (a : Annotation) :
    (f.withInvisible cls a : Build T F M _).Quiet := by
  unfold withInvisible
  split
  · exact .pure _
  split
  · split
    · exact (Quiet.warn _).bind fun _ => .pure _
    split
    · exact .pure _
    · exact (Quiet.warn _).bind fun _ => .pure _
  · exact .pure _

theorem quiet_withAttribute (cls : DeclaringClass) (f : Field) (a : Attribute) :
    (f.withAttribute cls a : Build T F M _).Quiet := by
  refine (Quiet.kindOf _ _).bind fun kind => (Member.quiet_withAttribute? _ _ _).bind fun member => ?_
  split
  · exact .pure _
  split
  · exact (Quiet.singleIndex _ _).bind fun _ => Quiet.pool.bind fun _ => (Quiet.ofExcept _).bind fun _ => .pure _
  · exact (Quiet.annotations _).bind fun _ => .foldlM (quiet_withInvisible cls) _ _
  · exact .pure _

theorem quiet_build (cls : DeclaringClass) (info : MemberInfo) : (build cls info : Build T F M _).Quiet := by
  refine (Quiet.text _).bind fun name => (Quiet.text _).bind fun descriptor => ?_
  exact .check (.check (.check (.foldlM (quiet_withAttribute cls) _ _)))

end Field

/-! ## Methods -/

namespace Method

theorem quiet_readExceptions (info : List UInt8) : (readExceptions info : Build T F M _).Quiet :=
  (Quiet.read _ _).bind fun _ => .mapM Quiet.className _

theorem quiet_withInvisible (cls : DeclaringClass) (m : Method) (a : Annotation) :
    (m.withInvisible cls a : Build T F M _).Quiet := by
  unfold withInvisible
  split
  · split
    · exact (Quiet.warn _).bind fun _ => .pure _
    · exact .pure _
  split
  · split
    · exact .pure _
    · exact (Quiet.warn _).bind fun _ => .pure _
  split
  · split
    · exact .pure _
    · exact (Quiet.warn _).bind fun _ => .pure _
  · exact .pure _

theorem quiet_readWhole {α : Type} (kind : String) (r : Read FormatFault α) (info : List UInt8) :
    (readWhole kind r info : Build T F M α).Quiet := Quiet.read _ _

/-- An attribute marks what its code uses, if it has code. -/
theorem marks_withAttribute (cls : DeclaringClass) (m : Method) (a : Attribute) :
    (m.withAttribute cls a : Build T F M _).Marks fun p => a.CodeUses p := by
  refine Build.marks_kindOf fun kind s m' s' hkind h => ?_
  by_cases hcode : kind = .code
  · subst hcode
    obtain ⟨_, _, hmember, hrest⟩ := Build.bind_eq_ok.mp h
    obtain ⟨rfl, rfl⟩ := Build.pure_eq_ok.mp hmember
    obtain ⟨-, hrest⟩ := Build.ite_throw_eq_ok.mp hrest
    obtain ⟨_, _, hpool, hrest⟩ := Build.bind_eq_ok.mp hrest
    obtain ⟨rfl, rfl⟩ := Build.pool_eq_ok.mp hpool
    obtain ⟨⟨code, constants⟩, _, hdecode, hrest⟩ := Build.bind_eq_ok.mp hrest
    obtain ⟨hdecoded, rfl⟩ := Build.ofExcept_eq_ok.mp hdecode
    obtain ⟨_, _, hrequire, hrest⟩ := Build.bind_eq_ok.mp hrest
    obtain ⟨-, rfl⟩ := Build.pure_eq_ok.mp hrest
    exact (Build.marks_require constants _ _ _ hrequire).congr fun i =>
      Attribute.mem_constants_decode hdecoded (Attribute.isKind_code_iff.mp hkind)
  · have hquiet : BuildState.Marked (fun _ => False) s s' := by
      refine ((Member.quiet_withAttribute? _ _ _).bind fun member => ?_) s m' s' h
      split
      · split
        · exact .pure _
        · exact .pure _
      split
      · contradiction
      · exact .check ((quiet_readExceptions _).bind fun _ => .pure _)
      · exact Quiet.pool.bind fun _ => (quiet_readWhole _ _ _).bind fun _ => .pure _
      · exact Quiet.pool.bind fun _ => (quiet_readWhole _ _ _).bind fun _ => .pure _
      · exact .check (Quiet.pool.bind fun _ => .pure _)
      · exact (Quiet.annotations _).bind fun _ => .foldlM (quiet_withInvisible cls) _ _
      · exact .pure _
    refine hquiet.congr fun i => iff_of_false not_false ?_
    rintro (⟨hname, -⟩ | ⟨hname, -⟩)
    · exact hcode (hkind.eq (Attribute.isKind_code_iff.mpr hname))
    · exact hcode (hkind.eq (Attribute.isKind_code_iff.mpr hname))

theorem marks_build (cls : DeclaringClass) (info : MemberInfo) : (build cls info : Build T F M _).Marks
    fun p i => ∃ a ∈ info.attributes, a.CodeUses p i := by
  have hlasting : Build.Lasting fun (p : Pool T F M) i => ∃ a ∈ info.attributes, a.CodeUses p i :=
    fun h i => by simp only [Attribute.codeUses_of_frozen h]
  refine .after_quiet (.text _) (fun name => .after_quiet (.text _) (fun descriptor =>
    .after_quiet (.ofExcept _) (fun _ => ?_) hlasting) hlasting) hlasting
  dsimp only
  split
  · exact fun s m s' h => (Build.throw_eq_ok.mp h).elim
  · refine Build.Marks.bind_quiet (.foldlM (marks_withAttribute cls) ?_ _ _) fun m => .ofExcept _
    exact fun a p q h i => Attribute.codeUses_of_frozen h

end Method

/-! ## Classes -/

theorem InnerClassInfo.mem_classes_of_check {p : Pool T F M} {e : InnerClassInfo} {c : InnerClass}
    (h : e.check p = .ok c) {i : Index} : i ∈ c.classes ↔ i = e.inner ∨ e.outer ≠ 0 ∧ i = e.outer := by
  unfold check at h
  split at h
  · cases h
  split at h
  · cases h
  split at h
  · cases h
  split at h
  · cases h
  cases h
  by_cases houter : e.outer = 0 <;> simp [InnerClass.classes, houter]

theorem marks_readInnerClasses (info : List UInt8) : (readInnerClasses info : Build T F M _).Marks fun _ i =>
    ∃ entries : List InnerClassInfo, entries.length < 0x10000 ∧ listBytes InnerClassInfo.bytes entries = info ∧
      ∃ e ∈ entries, i = e.inner ∨ e.outer ≠ 0 ∧ i = e.outer := by
  intro s classes s' h
  obtain ⟨entries, _, hread, hrest⟩ := Build.bind_eq_ok.mp h
  obtain ⟨hentries, rfl⟩ := Build.read_eq_ok.mp hread
  obtain ⟨_, _, hpool, hrest⟩ := Build.bind_eq_ok.mp hrest
  obtain ⟨rfl, rfl⟩ := Build.pool_eq_ok.mp hpool
  obtain ⟨classes', _, hcheck, hrest⟩ := Build.bind_eq_ok.mp hrest
  obtain ⟨hclasses, rfl⟩ := Build.ofExcept_eq_ok.mp hcheck
  obtain ⟨_, _, hrequire, hrest⟩ := Build.bind_eq_ok.mp hrest
  obtain ⟨-, rfl⟩ := Build.pure_eq_ok.mp hrest
  rw [List.mapM_eq_ok_iff] at hclasses
  refine (Build.marks_require _ _ _ _ hrequire).congr ?_
  intro i
  simp only [List.mem_flatMap]
  constructor
  · rintro ⟨c, hc, hi⟩
    obtain ⟨e, he, hcheck⟩ := List.mem_map.mp (hclasses ▸ List.mem_map_of_mem hc)
    obtain ⟨hfew, hwritten⟩ := InnerClassInfo.run_readAll_eq_ok.mp hentries
    exact ⟨entries, hfew, hwritten, e, he, (InnerClassInfo.mem_classes_of_check hcheck).mp hi⟩
  · rintro ⟨entries', hfew, hwritten, e, he, hi⟩
    obtain rfl := Except.ok.inj (hentries.symm.trans (InnerClassInfo.run_readAll_eq_ok.mpr ⟨hfew, hwritten⟩))
    obtain ⟨c, hc, hcheck⟩ := List.mem_map.mp (hclasses ▸ List.mem_map_of_mem he)
    exact ⟨c, hc, (InnerClassInfo.mem_classes_of_check hcheck.symm).mpr hi⟩

theorem quiet_readEnclosingMethod (info : List UInt8) : (readEnclosingMethod info : Build T F M _).Quiet := by
  refine .check ((Quiet.read _ _).bind fun indices => ?_)
  exact (Quiet.className _).bind fun _ => Quiet.pool.bind fun _ => (Quiet.ofExcept _).bind fun _ => .pure _

theorem marks_readBootstrapMethods (info : List UInt8) : (readBootstrapMethods info : Build T F M _).Marks fun _ i =>
    ∃ methods, ListFits BootstrapMethod.Fits methods ∧ listBytes BootstrapMethod.bytes methods = info ∧
      ∃ m ∈ methods, i = m.handle ∨ i ∈ m.arguments := by
  intro s methods s' h
  obtain ⟨_, _, hpool, hrest⟩ := Build.bind_eq_ok.mp h
  obtain ⟨rfl, rfl⟩ := Build.pool_eq_ok.mp hpool
  obtain ⟨methods', _, hread, hrest⟩ := Build.bind_eq_ok.mp hrest
  obtain ⟨hmethods, rfl⟩ := Build.read_eq_ok.mp hread
  obtain ⟨_, _, hrequire, hrest⟩ := Build.bind_eq_ok.mp hrest
  obtain ⟨-, rfl⟩ := Build.pure_eq_ok.mp hrest
  obtain ⟨hlegal, hwritten⟩ := BootstrapMethod.run_readAll_eq_ok.mp hmethods
  have hfits : ListFits BootstrapMethod.Fits methods' := ⟨hlegal.1, fun m hm => (hlegal.2 m hm).1⟩
  refine (Build.marks_require _ _ _ _ hrequire).congr ?_
  intro i
  simp only [List.mem_flatMap, BootstrapMethod.constants, List.mem_cons]
  constructor
  · rintro ⟨m, hm, hi⟩
    exact ⟨methods', hfits, hwritten, m, hm, hi⟩
  · rintro ⟨methods'', hfits', hwritten', m, hm, hi⟩
    obtain rfl := BootstrapMethod.eq_of_listBytes hfits hfits' (hwritten.trans hwritten'.symm)
    exact ⟨m, hm, hi⟩

/-- An attribute marks the inner and outer classes or the parts of bootstrap methods that it names. -/
theorem ClassAttributes.marks_withAttribute (version : Version) (options : Options) (c : ClassAttributes)
    (a : Attribute) : (c.withAttribute version options a : Build T F M _).Marks fun p => a.ClassUses p version := by
  refine Build.marks_kindOf fun kind s c' s' hkind h => ?_
  by_cases hinner : kind = .innerClasses
  · subst hinner
    have hmarked := Build.Marks.bind_quiet (marks_readInnerClasses a.info) (fun _ => .pure _) s c' s' h
    have hname := Attribute.isKind_innerClasses_iff.mp hkind
    refine hmarked.congr ?_
    intro i
    constructor
    · rintro ⟨entries, hfew, hwritten, e, he, rfl | ⟨hparticular, rfl⟩⟩
      · exact .inner hname hfew hwritten he
      · exact .outer hname hfew hwritten he hparticular
    · rintro (⟨-, hfew, hwritten, he⟩ | ⟨-, hfew, hwritten, he, hparticular⟩ | ⟨hname', hsince, -⟩)
      · exact ⟨_, hfew, hwritten, _, he, .inl rfl⟩
      · exact ⟨_, hfew, hwritten, _, he, .inr ⟨hparticular, rfl⟩⟩
      · cases hkind.eq (Attribute.isKind_bootstrapMethods_iff.mpr ⟨hname', hsince⟩)
  by_cases hbootstrap : kind = .bootstrapMethods
  · subst hbootstrap
    have hmarked := Build.Marks.bind_quiet (marks_readBootstrapMethods a.info) (fun _ => .pure _) s c' s' h
    obtain ⟨hname, hsince⟩ := Attribute.isKind_bootstrapMethods_iff.mp hkind
    refine hmarked.congr ?_
    intro i
    constructor
    · rintro ⟨methods, hfits, hwritten, m, hm, hi⟩
      exact .bootstrap hname hsince hfits hwritten hm hi
    · rintro (⟨hname', -⟩ | ⟨hname', -⟩ | ⟨-, -, hfits, hwritten, hm, hi⟩)
      · cases hkind.eq (Attribute.isKind_innerClasses_iff.mpr hname')
      · cases hkind.eq (Attribute.isKind_innerClasses_iff.mpr hname')
      · exact ⟨_, hfits, hwritten, _, hm, hi⟩
  · have hquiet : BuildState.Marked (fun _ => False) s s' := by
      split at h
      · split at h
        · exact Quiet.pure _ s c' s' h
        · exact Quiet.throw _ s c' s' h
      · exact (Quiet.singleText _ _).bind (fun _ => .pure _) s c' s' h
      · contradiction
      · exact (Quiet.singleText _ _).bind (fun _ => .pure _) s c' s' h
      · exact (quiet_readEnclosingMethod _).bind (fun _ => .pure _) s c' s' h
      · exact (Quiet.annotations _).bind (fun _ => .pure _) s c' s' h
      · refine (Quiet.annotations _).bind (fun _ => ?_) s c' s' h
        dsimp only
        split
        · exact .pure _
        · exact .pure _
      · contradiction
      · exact Quiet.exposeTexts.bind (fun _ => .pure _) s c' s' h
      · exact (Quiet.singleText _ _).bind (fun _ => .pure _) s c' s' h
      · exact Quiet.pure _ s c' s' h
    refine hquiet.congr fun i => iff_of_false not_false ?_
    rintro (⟨hname, -⟩ | ⟨hname, -⟩ | ⟨hname, hsince, -⟩)
    · exact hinner (hkind.eq (Attribute.isKind_innerClasses_iff.mpr hname))
    · exact hinner (hkind.eq (Attribute.isKind_innerClasses_iff.mpr hname))
    · exact hbootstrap (hkind.eq (Attribute.isKind_bootstrapMethods_iff.mpr ⟨hname, hsince⟩))

theorem ClassAttributes.marks_build (version : Version) (options : Options) (attributes : List Attribute) :
    (build version options attributes : Build T F M _).Marks fun p i => ∃ a ∈ attributes, a.ClassUses p version i :=
  .foldlM (marks_withAttribute version options) (fun _ _ _ h _ => Attribute.classUses_of_frozen h) _ _

namespace Class

theorem quiet_buildFields (cls : DeclaringClass) (file : ClassFile) : (buildFields cls file : Build T F M _).Quiet :=
  (Quiet.mapM (Field.quiet_build cls) _).bind fun _ => .check (.pure _)

theorem marks_buildMethods (cls : DeclaringClass) (file : ClassFile) : (buildMethods cls file : Build T F M _).Marks
    fun p i => ∃ method ∈ file.methods, ∃ a ∈ method.attributes, a.CodeUses p i := by
  refine Build.Marks.bind_quiet (.mapM (Method.marks_build cls) ?_ _) fun methods => .check (.pure _)
  exact fun method p q h i => by simp only [Attribute.codeUses_of_frozen h]

theorem version_of_header {p : Pool T F M} {file : ClassFile} {header : ClassHeader}
    (h : ClassHeader.ofFile p file = .ok header) : header.version = file.version := by
  simp only [ClassHeader.ofFile, Except.ite_throw_eq_ok, Except.bind_eq_ok, Except.pure_eq_ok] at h
  obtain ⟨-, name, -, -, superclass, -, -, interfaces, -, -, rfl⟩ := h
  rfl

/-- All that the class uses has been marked, and nothing else. -/
theorem marked_of_build {file : ClassFile} {options : Options} {s s' : BuildState T F M} {c : Class T F M}
    (h : build file options s = .ok c s') :
    c.pool = s'.pool ∧ BuildState.Marked (file.Uses s.pool) s s' := by
  unfold build at h
  obtain ⟨_, _, hpool, hrest⟩ := Build.bind_eq_ok.mp h
  obtain ⟨rfl, rfl⟩ := Build.pool_eq_ok.mp hpool
  obtain ⟨header, _, hofExcept, hrest⟩ := Build.bind_eq_ok.mp hrest
  obtain ⟨hheader, rfl⟩ := Build.ofExcept_eq_ok.mp hofExcept
  have hversion := version_of_header hheader
  obtain ⟨fields, s₁, hfields, hrest⟩ := Build.bind_eq_ok.mp hrest
  obtain ⟨methods, s₂, hmethods, hrest⟩ := Build.bind_eq_ok.mp hrest
  obtain ⟨_, _, hpool, hrest⟩ := Build.bind_eq_ok.mp hrest
  obtain ⟨rfl, rfl⟩ := Build.pool_eq_ok.mp hpool
  -- With or without assertions, the members do not matter to what follows.
  generalize (if options.removeAssertions = true then _ else _) = members at hrest
  obtain ⟨fields', methods'⟩ := members
  obtain ⟨attributes, s₃, hattributes, hrest⟩ := Build.bind_eq_ok.mp hrest
  obtain ⟨_, _, hpool, hrest⟩ := Build.bind_eq_ok.mp hrest
  obtain ⟨rfl, rfl⟩ := Build.pool_eq_ok.mp hpool
  obtain ⟨-, hresult⟩ := Build.ite_throw_eq_ok.mp hrest
  obtain ⟨rfl, rfl⟩ := Build.pure_eq_ok.mp hresult
  refine ⟨rfl, ?_⟩
  have hfirst := quiet_buildFields _ file _ _ _ hfields
  have hsecond := hfirst.trans (marks_buildMethods _ file _ _ _ hmethods)
  have hthird := hsecond.trans (ClassAttributes.marks_build _ _ _ _ _ _ hattributes)
  refine hthird.congr ?_
  intro i
  simp only [hversion, false_or, ClassFile.Uses, Attribute.codeUses_of_frozen hfirst.frozen,
    Attribute.classUses_of_frozen hsecond.frozen]

/-- A class that is made of a file has a resolved pool, prepared by marking just what the class uses. -/
theorem prepared_of_ofFile [ToString T] {file : ClassFile} {input : String} {options : Options}
    {patches : List (Option (Patch T))} {c : Class T F M} (h : (ofFile file input options patches).1 = .ok c) :
    ∃ (draft patched : Draft T) (p : Pool T F M) (us : List (Upkeep T F M)),
      Draft.ofConstants file.constants = .ok draft ∧ draft.patchAll [(input, patches)] = .ok patched ∧
      patched.resolve F M ⟨file.version, options⟩ = .ok p ∧ (∀ u ∈ us, u.IsPreparation) ∧
      us.foldl Upkeep.apply p = c.pool ∧ ∀ i, .require i ∈ us ↔ file.Uses c.pool i := by
  unfold ofFile at h
  split at h
  · cases h
  split at h
  · cases h
  rename_i p hpool
  simp only [resolvePool, Except.bind_eq_ok, Except.mapError_eq_ok] at hpool
  obtain ⟨draft, hbuild, patched, hpatch, hresolve⟩ := hpool
  have hpatchAll : draft.patchAll [(input, patches)] = .ok patched := by
    simp only [Draft.patchAll, List.foldlM_cons, List.foldlM_nil, hpatch]
    rfl
  split at h
  · rename_i c' s' hrun
    cases h
    obtain ⟨hc, us, hus, hs', hrequire⟩ := marked_of_build hrun
    refine ⟨draft, patched, p, us, hbuild, hpatchAll, hresolve, hus, hc ▸ hs'.symm, ?_⟩
    intro i
    have hfrozen : c.pool.frozen = p.frozen := by rw [hc, hs', Upkeep.frozen_foldl]
    rw [hrequire, ClassFile.uses_of_frozen hfrozen]
  · cases h

end Class

end JvmClass
