/-
  JvmClass.Proofs.Class.Markers — which annotations the markers of a method stand for.

  A trusted marker is set by any list of visible annotations, but only the last list is kept. A method is
  marked for the start of its module by the flags that it has when the annotation is taken in, and an
  annotation that hides the method takes `private` from them.
  - `trusted_markers_remember_every_list`: a trusted marker stands for an annotation in one of the lists;
    it stands for one that is kept exactly if no earlier list alone has it.
  - `module_initializers_exact`: a method starts its module if it may by its declaration and is not
    private, or has been hidden before. Only for private methods with both annotations, where code is
    compiled ahead (`MemberInfo.IsInDoubt`), does their order matter, and the declaration does not decide.
-/

import JvmClass.Proofs.Class.Origin
import JvmClass.Proofs.Descriptor.Dotted
import Mathlib.Data.List.Induction

namespace JvmClass

variable {T F M : Type}

/-! ## Trusted markers -/

theorem Method.IsTakenFrom.exists_visible {p : Pool T F M} {cls : DeclaringClass} {info : MemberInfo} {m : Method}
    {ws : List Warning} (h : IsTakenFrom p cls info m ws) :
    ∃ lists, annotationLists p cls.version .visibleAnnotations info.attributes = .ok lists ∧
      m.member.annotations = lists.getLast?.getD [] ∧ ∀ t ∈ trustedMarkers,
        (t.2 m.markers = true ↔ cls.options.trustedAnnotations = true ∧ ∃ as ∈ lists, ∃ a ∈ as, a.type = t.1) := by
  obtain ⟨m₀, visible, invisible, htaken⟩ := h
  refine ⟨visible, htaken.visibleLists, htaken.annotations, fun t ht => ?_⟩
  rw [htaken.trusted t ht]
  simp

/-- One of the lists has it, and the last does unless an earlier one alone has it. -/
theorem exists_mem_getLast?_iff {α : Type} {lists : List (List α)} {P : α → Prop} :
    ((∀ as ∈ lists.dropLast, (∃ a ∈ as, P a) → ∃ a ∈ lists.getLast?.getD [], P a) ↔
      ((∃ as ∈ lists, ∃ a ∈ as, P a) ↔ ∃ a ∈ lists.getLast?.getD [], P a)) := by
  rcases List.eq_nil_or_concat lists with rfl | ⟨before, last, rfl⟩
  · simp
  · simp only [List.concat_eq_append, List.dropLast_concat, List.getLast?_concat, Option.getD_some, List.mem_append,
      List.mem_singleton]
    constructor
    · intro h
      constructor
      · rintro ⟨as, has | rfl, hP⟩
        · exact h as has hP
        · exact hP
      · exact fun hP => ⟨last, .inr rfl, hP⟩
    · exact fun h as has hP => h.mp ⟨as, .inl has, hP⟩

/-- For each method the annotations of the last list are kept. If annotations are trusted, a marker is set
    exactly if one of the lists has its annotation; the annotations that are kept tell as much exactly if
    no earlier list alone has it, so always where there is no second list. -/
theorem trusted_markers_remember_every_list [ToString T] {file : ClassFile} {input : String} {options : Options}
    {patches : List (Option (Patch T))} {c : Class T F M}
    (h : (Class.ofFile file input options patches).1 = .ok c) :
    List.Forall₂ (fun info m => ∃ lists,
      annotationLists c.pool c.version .visibleAnnotations info.attributes = .ok lists ∧
      m.member.annotations = lists.getLast?.getD [] ∧ ∀ t ∈ Method.trustedMarkers,
        (t.2 m.markers = true ↔ options.trustedAnnotations = true ∧ ∃ as ∈ lists, ∃ a ∈ as, a.type = t.1) ∧
        ((options.trustedAnnotations = true → ∀ as ∈ lists.dropLast, (∃ a ∈ as, a.type = t.1) →
            ∃ a ∈ m.member.annotations, a.type = t.1) ↔
          (t.2 m.markers = true ↔ options.trustedAnnotations = true ∧ ∃ a ∈ m.member.annotations, a.type = t.1)))
      file.methods c.methods := by
  obtain ⟨p, s, ts, -, hcomes⟩ := Class.comesFrom_of_ofFile (Prod.ext h rfl)
  rw [← hcomes.entries, List.forall₂_map_left_iff]
  refine hcomes.methods.imp fun t m htaken => ?_
  obtain ⟨lists, hlists, hannotations, hmarkers⟩ := htaken.exists_visible
  refine ⟨lists, hlists, hannotations, fun t ht => ⟨hmarkers t ht, ?_⟩⟩
  rw [hmarkers t ht, hannotations, exists_mem_getLast?_iff]
  exact and_congr_right_iff.symm

/-- A class with a method `start` that does nothing, with these flags and beside its code these attributes. -/
def startFile (flags : UInt16) (attributes : List Attribute) : ClassFile :=
  { version := Version.java8
    constants := [none, some (.cls 2), some (.utf8 "A"), some (.cls 4), some (.utf8 "java/lang/Object"),
      some (.utf8 "start"), some (.utf8 "()V"), some (.utf8 "Code"), some (.utf8 "RuntimeVisibleAnnotations"),
      some (.utf8 "Lsun/reflect/CallerSensitive;"), some (.utf8 "RuntimeInvisibleAnnotations"),
      some (.utf8 "Likvm/lang/Internal;"), some (.utf8 "Likvm/lang/ModuleInitializer;")]
    access := 0x21
    thisClass := 1
    superClass := 3
    interfaces := []
    fields := []
    methods := [⟨flags, 5, 6, ⟨7, [0, 0, 0, 1, 0, 0, 0, 1, 0xB1, 0, 0, 0, 0]⟩ :: attributes⟩]
    attributes := [] }

/-- Two lists of visible annotations, of which the last one is empty. -/
def emptiedLists : List Attribute := [⟨8, [0, 1, 0, 9, 0, 0]⟩, ⟨8, [0, 0]⟩]

theorem emptiedLists_outline : ∃ (c : Class Nat Nat Nat) (m : Method),
    (Class.ofFile (startFile 0x9 emptiedLists) "A" { trustedAnnotations := true } []).1 = .ok c ∧ c.methods = [m] ∧
      m.markers.callerSensitive = true ∧ m.member.annotations = [] := by
  have houtline : ((Class.ofFile (startFile 0x9 emptiedLists) "A" { trustedAnnotations := true } [] :
      Except Error (Class Nat Nat Nat) × _).1.toOption.map fun c => c.methods.map fun m =>
        (m.markers.callerSensitive, m.member.annotations.isEmpty)) = some [(true, true)] := by decide +kernel
  obtain ⟨c, hc, hmethods⟩ := Option.map_eq_some_iff.mp houtline
  obtain ⟨m, hm, hmarked⟩ := List.map_eq_singleton_iff.mp hmethods
  rw [Prod.mk.injEq, List.isEmpty_iff] at hmarked
  exact ⟨c, m, Except.toOption_eq_some_iff.mp hc, hm, hmarked⟩

/-- The marker is set, and no annotation that is kept tells of it. -/
theorem trusted_marker_without_annotation : ∃ (c : Class Nat Nat Nat) (m : Method),
    (Class.ofFile (startFile 0x9 emptiedLists) "A" { trustedAnnotations := true } []).1 = .ok c ∧ m ∈ c.methods ∧
      m.markers.callerSensitive = true ∧ ¬∃ a ∈ m.member.annotations, a.type = callerSensitiveMarker := by
  obtain ⟨c, m, hc, hm, hmarked, hnone⟩ := emptiedLists_outline
  refine ⟨c, m, hc, hm ▸ List.mem_singleton_self m, hmarked, ?_⟩
  rw [hnone]
  simp

/-- None of the annotations that are kept has set the marker, so one of an earlier list has. -/
theorem trusted_markers_remember_every_list_emptied : ∃ (c : Class Nat Nat Nat) (lists : List (List Annotation)),
    (Class.ofFile (startFile 0x9 emptiedLists) "A" { trustedAnnotations := true } []).1 = .ok c ∧
      annotationLists c.pool c.version .visibleAnnotations ((startFile 0x9 emptiedLists).methods.flatMap (·.attributes)) =
        .ok lists ∧ lists.getLast?.getD [] = [] ∧ ∃ as ∈ lists, ∃ a ∈ as, a.type = callerSensitiveMarker := by
  obtain ⟨c, m, hc, hm, hmarked, hnone⟩ := emptiedLists_outline
  have hmethods := trusted_markers_remember_every_list hc
  rw [hm] at hmethods
  obtain ⟨⟨lists, hlists, hkept, hmarkers⟩, -⟩ := List.forall₂_cons.mp hmethods
  have hcaller := hmarkers (callerSensitiveMarker, (·.callerSensitive)) (.head _)
  exact ⟨c, lists, hc, hlists, hkept.symm.trans hnone, (hcaller.1.mp hmarked).2⟩

/-! ## The start of a module -/

/-- By its declaration the method can be run when its module is loaded, if only it is not private. -/
structure MemberInfo.MayStart (p : Pool T F M) (inInterface : Bool) (info : MemberInfo) : Prop where
  outside : inInterface = false
  name : ∃ name, p.text? info.name = some name ∧ name ≠ "<init>" ∧ name ≠ "<clinit>"
  descriptor : p.text? info.descriptor = some "()V"
  isStatic : info.declares accStatic = true

/-- The method is private, and of its annotations one is for the start of its module and one hides it. -/
structure MemberInfo.IsInDoubt (p : Pool T F M) (options : Options) (inInterface : Bool) (info : MemberInfo)
    (as : List Annotation) : Prop where
  mayStart : info.MayStart p inInterface
  isPrivate : info.declares accPrivate = true
  staticCompiler : options.staticCompiler = true
  hidden : ∃ a ∈ as, a.type = internalMarker
  started : ∃ a ∈ as, a.type = moduleInitializerMarker

/-- An annotation starts the module. If the method is private, one before it has to hide the method, and
    code has to be compiled ahead. -/
def MemberInfo.IsStartedBy (options : Options) (info : MemberInfo) (as : List Annotation) : Prop :=
  ∃ before a after, as = before ++ a :: after ∧ a.type = moduleInitializerMarker ∧
    (info.declares accPrivate = true → options.staticCompiler = true ∧ ∃ b ∈ before, b.type = internalMarker)

/-- The same method with its invisible annotations in another order, which is not in doubt. -/
structure MemberInfo.Relisted (p : Pool T F M) (version : Version) (options : Options) (inInterface : Bool)
    (info info' : MemberInfo) : Prop where
  access : info'.access = info.access
  name : info'.name = info.name
  descriptor : info'.descriptor = info.descriptor
  lists : ∃ lists lists', annotationLists p version .invisibleAnnotations info.attributes = .ok lists ∧
    annotationLists p version .invisibleAnnotations info'.attributes = .ok lists' ∧
    lists.flatten.Perm lists'.flatten ∧ ¬info.IsInDoubt p options inInterface lists.flatten

theorem Access.has_erase_self {h : Holder} (a : Access h) {flags erased : UInt16} (hflags : flags ≠ 0)
    (herased : ~~~erased &&& flags = 0) : (a.erase erased).has flags = false := by
  rw [Access.has, Access.erase, UInt16.and_assoc, herased, UInt16.and_zero]
  exact beq_eq_false_iff_ne.mpr hflags.symm

theorem dotted_eq_self {s : String} (h : '/' ∉ s.toList) : dotted s = s := by
  have hchar : ∀ c ∈ s.toList, dottedChar c = c := fun c hc => dottedChar_of_ne fun heq => h (heq ▸ hc)
  rw [← String.toList_inj, toList_dotted, List.map_congr_left hchar, List.map_id']

/-- A text with neither `/` nor `.` in it is what its dotted form shows. -/
theorem dotted_eq_iff {s t : String} (hslash : '/' ∉ t.toList) (hdot : '.' ∉ t.toList) : dotted s = t ↔ s = t := by
  constructor
  · rintro rfl
    refine (dotted_eq_self fun hs => hdot ?_).symm
    rw [toList_dotted]
    exact List.mem_map.mpr ⟨'/', hs, rfl⟩
  · rintro rfl
    exact dotted_eq_self hslash

namespace Method

variable {cls : DeclaringClass}

/-- The method can be run when its module is loaded, if only it is not private. -/
def couldInitializeModule (cls : DeclaringClass) (m : Method) : Bool :=
  !cls.isInterface && !m.isConstructor && !m.isClassInitializer && m.isStatic && m.member.descriptor == "()V"

theorem mayInitializeModule_eq (m : Method) :
    m.mayInitializeModule cls = (m.couldInitializeModule cls && !m.member.access.has accPrivate) :=
  Bool.and_right_comm _ _ _

/-! ### What annotations change -/

theorem couldInitializeModule_foldl (as : List Annotation) (m : Method) :
    (as.foldl (annotated cls) m).couldInitializeModule cls = m.couldInitializeModule cls := by
  obtain ⟨hname, hdescriptor, hstatic⟩ := foldl_annotated_kept cls as m
  simp only [couldInitializeModule, isConstructor, isClassInitializer, Member.isNamed, hname, hdescriptor, hstatic]

/-- To hide a method takes `private` from its flags. -/
theorem has_accPrivate_annotated (m : Method) (a : Annotation) :
    (m.annotated cls a).member.access.has accPrivate = (m.member.access.has accPrivate && !hides cls a) := by
  by_cases hhides : hides cls a = true
  · have hmember : (m.annotated cls a).member = m.member.hide := if_pos hhides
    rw [hmember, hhides, Bool.not_true, Bool.and_false]
    exact Access.has_erase_self _ (by decide) (by decide)
  · have hmember : (m.annotated cls a).member = m.member := if_neg hhides
    rw [hmember, Bool.eq_false_iff.mpr hhides, Bool.not_false, Bool.and_true]

theorem has_accPrivate_foldl (as : List Annotation) (m : Method) :
    (as.foldl (annotated cls) m).member.access.has accPrivate =
      (m.member.access.has accPrivate && !as.any (hides cls)) := by
  induction as generalizing m with
  | nil => simp
  | cons a as ih =>
    rw [List.foldl_cons, ih, has_accPrivate_annotated, List.any_cons, Bool.not_or, Bool.and_assoc]

/-- The annotation for the start of a module counts if the method may start it as the annotations before
    have left it. -/
theorem moduleInitializer_foldl_iff (as : List Annotation) (m : Method) :
    (as.foldl (annotated cls) m).markers.moduleInitializer = true ↔ m.markers.moduleInitializer = true ∨
      ∃ before a after, as = before ++ a :: after ∧ a.type = moduleInitializerMarker ∧
        (before.foldl (annotated cls) m).mayInitializeModule cls = true := by
  induction as generalizing m with
  | nil => simp
  | cons b as ih =>
    have hfirst : (m.annotated cls b).markers.moduleInitializer = true ↔ m.markers.moduleInitializer = true ∨
        b.type = moduleInitializerMarker ∧ m.mayInitializeModule cls = true := by simp [annotated]
    rw [List.foldl_cons, ih, hfirst, or_assoc]
    refine or_congr_right ⟨?_, ?_⟩
    · rintro (⟨htype, hmay⟩ | ⟨before, a, after, rfl, htype, hmay⟩)
      · exact ⟨[], b, as, rfl, htype, hmay⟩
      · exact ⟨b :: before, a, after, rfl, htype, hmay⟩
    · rintro ⟨before, a, after, heq, htype, hmay⟩
      cases before with
      | nil =>
        cases heq
        exact .inl ⟨htype, hmay⟩
      | cons c before =>
        cases heq
        exact .inr ⟨before, a, after, rfl, htype, hmay⟩

/-- A method that is hidden may start its module if it could have but for being private. -/
theorem mayInitializeModule_foldl_iff (as : List Annotation) (m : Method) :
    (as.foldl (annotated cls) m).mayInitializeModule cls = true ↔ m.couldInitializeModule cls = true ∧
      (m.member.access.has accPrivate = true → ∃ a ∈ as, hides cls a = true) := by
  rw [mayInitializeModule_eq, couldInitializeModule_foldl, has_accPrivate_foldl, Bool.and_eq_true, Bool.not_eq_true',
    Bool.and_eq_false_imp, Bool.not_eq_false', List.any_eq_true]

/-! ### Where the order does not matter -/

/-- If the annotations both hide the method and start its module, it has not been private. -/
def IsSettled (cls : DeclaringClass) (m : Method) (as : List Annotation) : Prop :=
  (∃ a ∈ as, a.type = moduleInitializerMarker) → (∃ a ∈ as, hides cls a = true) → m.couldInitializeModule cls = true →
    m.member.access.has accPrivate = false

theorem IsSettled.perm {m : Method} {as bs : List Annotation} (h : m.IsSettled cls as) (hperm : as.Perm bs) :
    m.IsSettled cls bs := fun ⟨a, ha, hstarts⟩ ⟨b, hb, hhides⟩ =>
  h ⟨a, hperm.mem_iff.mpr ha, hstarts⟩ ⟨b, hperm.mem_iff.mpr hb, hhides⟩

theorem mayInitializeModule_of_isSettled {m : Method} {as bs : List Annotation} (h : m.IsSettled cls as)
    (hstarts : ∃ a ∈ as, a.type = moduleInitializerMarker) (hbs : ∀ b ∈ bs, b ∈ as) :
    (bs.foldl (annotated cls) m).mayInitializeModule cls = m.mayInitializeModule cls := by
  rw [Bool.eq_iff_iff, mayInitializeModule_foldl_iff, mayInitializeModule_eq, Bool.and_eq_true, Bool.not_eq_true']
  refine and_congr_right fun hcould => ⟨fun hhidden => ?_, fun hpublic hprivate => ?_⟩
  · by_contra hprivate
    obtain ⟨b, hb, hhides⟩ := hhidden (by simpa using hprivate)
    exact hprivate (h hstarts ⟨b, hbs b hb, hhides⟩ hcould)
  · rw [hpublic] at hprivate
    cases hprivate

theorem moduleInitializer_of_isSettled {m : Method} {as : List Annotation} (h : m.IsSettled cls as)
    (hm : m.markers.moduleInitializer = false) : (as.foldl (annotated cls) m).markers.moduleInitializer = true ↔
      (∃ a ∈ as, a.type = moduleInitializerMarker) ∧ m.mayInitializeModule cls = true := by
  rw [moduleInitializer_foldl_iff, hm]
  constructor
  · rintro (hfalse | ⟨before, a, after, rfl, htype, hmay⟩)
    · cases hfalse
    · have hstarts : ∃ a' ∈ before ++ a :: after, a'.type = moduleInitializerMarker := ⟨a, by simp, htype⟩
      rw [mayInitializeModule_of_isSettled h hstarts fun b hb => List.mem_append_left _ hb] at hmay
      exact ⟨hstarts, hmay⟩
  · rintro ⟨⟨a, ha, htype⟩, hmay⟩
    obtain ⟨before, after, rfl⟩ := List.append_of_mem ha
    refine .inr ⟨before, a, after, rfl, htype, ?_⟩
    rwa [mayInitializeModule_of_isSettled h ⟨a, ha, htype⟩ fun b hb => List.mem_append_left _ hb]

/-- Each annotation is then warned of by itself. -/
theorem complaints_of_isSettled {m : Method} {as : List Annotation} (h : m.IsSettled cls as) :
    m.complaints cls as = as.filterMap (m.complaint? cls) := by
  induction as using List.reverseRecOn with
  | nil => rfl
  | append_singleton as a ih =>
    have hsettled : m.IsSettled cls as := fun ⟨b, hb, hstarts⟩ ⟨b', hb', hhides⟩ =>
      h ⟨b, by simp [hb], hstarts⟩ ⟨b', by simp [hb'], hhides⟩
    have hcomplaint : (as.foldl (annotated cls) m).complaint? cls a = m.complaint? cls a := by
      obtain ⟨hname, -, hstatic⟩ := foldl_annotated_kept cls as m
      rw [complaint?, complaint?, hname, hstatic]
      by_cases hstarts : a.type = moduleInitializerMarker
      · rw [mayInitializeModule_of_isSettled h ⟨a, by simp, hstarts⟩ fun b hb => List.mem_append_left _ hb]
      · simp only [hstarts, if_false]
    rw [complaints_append, ih hsettled, List.filterMap_append, complaints, hcomplaint, complaints, List.append_nil]
    cases hm : m.complaint? cls a <;> simp [hm]

/-! ### Declarations -/

variable {p : Pool T F M} {info : MemberInfo} {m₀ : Method}

theorem moduleInitializer_of_declared? (h : declared? p cls info = some m₀) : m₀.markers.moduleInitializer = false := by
  obtain ⟨_, _, _, -, -, -, rfl⟩ := declared?_eq_some_iff.mp h
  rfl

theorem access_of_declared? (h : declared? p cls info = some m₀) (hm₀ : m₀.isClassInitializer = false) :
    m₀.member.access = Access.ofBits .ofMethod info.access := by
  obtain ⟨name, descriptor, access, -, -, haccess, rfl⟩ := declared?_eq_some_iff.mp h
  have hcases := access?_cases haccess
  rwa [if_neg] at hcases
  intro hinitializer
  simp only [isInitializer, Bool.and_eq_true] at hinitializer
  simp [isClassInitializer, Member.isNamed, hinitializer.1] at hm₀

theorem couldInitializeModule_iff (h : declared? p cls info = some m₀) :
    m₀.couldInitializeModule cls = true ↔ info.MayStart p cls.isInterface := by
  obtain ⟨name, descriptor, access, hname, hdescriptor, -, hm₀⟩ := declared?_eq_some_iff.mp h
  have hnamed : m₀.member.name = name := by rw [hm₀]
  have hwritten : m₀.member.descriptor = dotted descriptor := by rw [hm₀]
  have hvoid : dotted descriptor = "()V" ↔ descriptor = "()V" := dotted_eq_iff (by decide) (by decide)
  have hflags := access_of_declared? h
  simp only [couldInitializeModule, isConstructor, isClassInitializer, Member.isNamed, isStatic, Bool.and_eq_true,
    Bool.not_eq_true', beq_iff_eq, beq_eq_false_iff_ne, hnamed, hwritten, hvoid] at hflags ⊢
  constructor
  · rintro ⟨⟨⟨⟨houtside, hconstructor⟩, hinitializer⟩, hstatic⟩, rfl⟩
    rw [hflags hinitializer] at hstatic
    refine ⟨houtside, ⟨name, hname, hconstructor, ?_⟩, hdescriptor, hstatic⟩
    rintro rfl
    simp [clinitName, hvoid.mpr rfl] at hinitializer
  · intro hmay
    obtain ⟨name', hname', hconstructor, hinitializer⟩ := hmay.name
    cases hname.symm.trans hname'
    cases hdescriptor.symm.trans hmay.descriptor
    have hother : (name == clinitName && dotted "()V" == "()V") = false := by simp [clinitName, hinitializer]
    exact ⟨⟨⟨⟨hmay.outside, hconstructor⟩, hother⟩, hflags hother ▸ hmay.isStatic⟩, rfl⟩

theorem has_accPrivate_of_declared? (h : declared? p cls info = some m₀)
    (hcould : m₀.couldInitializeModule cls = true) :
    m₀.member.access.has accPrivate = info.declares accPrivate := by
  simp only [couldInitializeModule, Bool.and_eq_true, Bool.not_eq_true'] at hcould
  rw [access_of_declared? h hcould.1.1.2]
  rfl

theorem hides_iff {a : Annotation} : hides cls a = true ↔
    a.type = internalMarker ∧ cls.options.staticCompiler = true ∧ cls.isInterface = false := by
  simp only [hides, Bool.and_eq_true, beq_iff_eq, Bool.not_eq_true', and_assoc]

theorem isSettled_iff (h : declared? p cls info = some m₀) (as : List Annotation) :
    m₀.IsSettled cls as ↔ ¬info.IsInDoubt p cls.options cls.isInterface as := by
  constructor
  · intro hsettled hdoubt
    have hcould := (couldInitializeModule_iff h).mpr hdoubt.mayStart
    obtain ⟨a, ha, hinternal⟩ := hdoubt.hidden
    have hhides := hides_iff.mpr ⟨hinternal, hdoubt.staticCompiler, hdoubt.mayStart.outside⟩
    have hpublic := hsettled hdoubt.started ⟨a, ha, hhides⟩ hcould
    rw [has_accPrivate_of_declared? h hcould, hdoubt.isPrivate] at hpublic
    cases hpublic
  · intro hclear hstarts ⟨a, ha, hhides⟩ hcould
    obtain ⟨hinternal, hcompiler, -⟩ := hides_iff.mp hhides
    rw [has_accPrivate_of_declared? h hcould, ← Bool.not_eq_true]
    intro hprivate
    exact hclear ⟨(couldInitializeModule_iff h).mp hcould, hprivate, hcompiler, ⟨a, ha, hinternal⟩, hstarts⟩

theorem mayInitializeModule_of_declared? (h : declared? p cls info = some m₀) (before : List Annotation) :
    (before.foldl (annotated cls) m₀).mayInitializeModule cls = true ↔ info.MayStart p cls.isInterface ∧
      (info.declares accPrivate = true →
        cls.options.staticCompiler = true ∧ ∃ b ∈ before, b.type = internalMarker) := by
  rw [mayInitializeModule_foldl_iff, ← couldInitializeModule_iff h]
  refine and_congr_right fun hcould => ?_
  have houtside := ((couldInitializeModule_iff h).mp hcould).outside
  rw [has_accPrivate_of_declared? h hcould]
  refine imp_congr_right fun _ => ?_
  simp only [hides_iff, houtside, and_true]
  constructor
  · rintro ⟨b, hb, hinternal, hcompiler⟩
    exact ⟨hcompiler, b, hb, hinternal⟩
  · rintro ⟨hcompiler, b, hb, hinternal⟩
    exact ⟨b, hb, hinternal, hcompiler⟩

/-! ### Built methods -/

namespace TakenFrom

variable {visible lists : List (List Annotation)} {m : Method} {ws : List Warning}

theorem moduleInitializer_iff (h : TakenFrom p cls info m₀ visible lists m ws) : m.markers.moduleInitializer = true ↔
    info.MayStart p cls.isInterface ∧ info.IsStartedBy cls.options lists.flatten := by
  rw [h.agree.moduleInitializer, moduleInitializer_foldl_iff, moduleInitializer_of_declared? h.declared]
  simp only [mayInitializeModule_of_declared? h.declared, Bool.false_eq_true, false_or, MemberInfo.IsStartedBy]
  constructor
  · rintro ⟨before, a, after, heq, htype, hmay, hhidden⟩
    exact ⟨hmay, before, a, after, heq, htype, hhidden⟩
  · rintro ⟨hmay, before, a, after, heq, htype, hhidden⟩
    exact ⟨before, a, after, heq, htype, hmay, hhidden⟩

/-- Where there is no doubt, only the declaration decides. -/
theorem moduleInitializer_iff_of_clear (h : TakenFrom p cls info m₀ visible lists m ws)
    (hclear : ¬info.IsInDoubt p cls.options cls.isInterface lists.flatten) : m.markers.moduleInitializer = true ↔
      (∃ a ∈ lists.flatten, a.type = moduleInitializerMarker) ∧ info.MayStart p cls.isInterface ∧
        info.declares accPrivate = false := by
  rw [h.agree.moduleInitializer, moduleInitializer_of_isSettled ((isSettled_iff h.declared _).mpr hclear)
    (moduleInitializer_of_declared? h.declared), mayInitializeModule_eq, Bool.and_eq_true, Bool.not_eq_true',
    ← couldInitializeModule_iff h.declared]
  refine and_congr_right fun _ => and_congr_right fun hcould => ?_
  rw [has_accPrivate_of_declared? h.declared hcould]

end TakenFrom

/-- In another order the annotations come to the same, and the same is warned of. -/
theorem moduleInitializer_of_relisted {info' : MemberInfo} {m m' : Method} {ws ws' : List Warning}
    (h : IsTakenFrom p cls info m ws) (h' : IsTakenFrom p cls info' m' ws')
    (hrelisted : info.Relisted p cls.version cls.options cls.isInterface info') :
    m'.markers.moduleInitializer = m.markers.moduleInitializer ∧ ws'.Perm ws := by
  obtain ⟨m₀, visible, lists, htaken⟩ := h
  obtain ⟨m₀', visible', lists', htaken'⟩ := h'
  obtain ⟨_, _, hlists, hlists', hperm, hclear⟩ := hrelisted.lists
  cases htaken.invisibleLists.symm.trans hlists
  cases htaken'.invisibleLists.symm.trans hlists'
  have hdeclared : declared? p cls info' = declared? p cls info := by
    unfold declared?
    rw [hrelisted.name, hrelisted.descriptor, hrelisted.access]
  cases htaken'.declared.symm.trans (hdeclared.trans htaken.declared)
  have hsettled := (isSettled_iff htaken.declared _).mpr hclear
  have hsettled' := hsettled.perm hperm
  have hunmarked := moduleInitializer_of_declared? htaken.declared
  constructor
  · rw [Bool.eq_iff_iff, htaken.agree.moduleInitializer, htaken'.agree.moduleInitializer,
      moduleInitializer_of_isSettled hsettled hunmarked, moduleInitializer_of_isSettled hsettled' hunmarked]
    simp only [hperm.mem_iff]
  · rw [htaken.warnings, htaken'.warnings, complaints_of_isSettled hsettled, complaints_of_isSettled hsettled']
    exact (hperm.filterMap _).symm

theorem moduleInitializers_of_relisted {ts ts' : List (MemberInfo × List Warning)} {ms ms' : List Method}
    (hrelisted : List.Forall₂
      (fun t t' => t.1.Relisted p cls.version cls.options cls.isInterface t'.1) ts ts')
    (h : List.Forall₂ (fun t m => IsTakenFrom p cls t.1 m t.2) ts ms)
    (h' : List.Forall₂ (fun t m => IsTakenFrom p cls t.1 m t.2) ts' ms') :
    ms'.map (·.markers.moduleInitializer) = ms.map (·.markers.moduleInitializer) ∧
      (ts'.flatMap Prod.snd).Perm (ts.flatMap Prod.snd) := by
  induction hrelisted generalizing ms ms' with
  | nil =>
    cases h
    cases h'
    exact ⟨rfl, .nil⟩
  | cons hfirst _ ih =>
    cases h with
    | cons hm hms =>
      cases h' with
      | cons hm' hms' =>
        obtain ⟨hmarkers, hws⟩ := ih hms hms'
        obtain ⟨hmarker, hw⟩ := moduleInitializer_of_relisted hm hm' hfirst
        rw [List.map_cons, List.map_cons, hmarker, hmarkers]
        exact ⟨rfl, hw.append hws⟩

end Method

/-- A method starts its module if it may by its declaration and an annotation says so: anywhere if the method
    is not private, else behind one that hides it. So unless both kinds of annotations are there for a private
    method, the declaration alone decides, and in any order of the annotations the same methods are marked
    and the same is warned of. -/
theorem module_initializers_exact [ToString T] {file : ClassFile} {input : String} {options : Options}
    {patches : List (Option (Patch T))} {c : Class T F M} {ws : Array Warning}
    (h : Class.ofFile file input options patches = (.ok c, ws)) :
    List.Forall₂ (fun info m => ∃ lists,
        annotationLists c.pool c.version .invisibleAnnotations info.attributes = .ok lists ∧
        (m.markers.moduleInitializer = true ↔
          info.MayStart c.pool c.isInterface ∧ info.IsStartedBy options lists.flatten) ∧
        (¬info.IsInDoubt c.pool options c.isInterface lists.flatten →
          (m.markers.moduleInitializer = true ↔ (∃ a ∈ lists.flatten, a.type = moduleInitializerMarker) ∧
            info.MayStart c.pool c.isInterface ∧ info.declares accPrivate = false)))
      file.methods c.methods ∧
    ∀ (file' : ClassFile) (c' : Class T F M) (ws' : Array Warning),
      Class.ofFile file' input options patches = (.ok c', ws') → file.SameFrame file' → file'.fields = file.fields →
      List.Forall₂ (MemberInfo.Relisted c.pool c.version options c.isInterface) file.methods file'.methods →
      c'.methods.map (·.markers.moduleInitializer) = c.methods.map (·.markers.moduleInitializer) ∧
        ws'.toList.Perm ws.toList := by
  obtain ⟨p, s, ts, hp, hcomes⟩ := Class.comesFrom_of_ofFile h
  constructor
  · rw [← hcomes.entries, List.forall₂_map_left_iff]
    refine hcomes.methods.imp fun t m ⟨m₀, visible, lists, htaken⟩ => ?_
    exact ⟨lists, htaken.invisibleLists, htaken.moduleInitializer_iff, htaken.moduleInitializer_iff_of_clear⟩
  · intro file' c' ws' h' hframe hfields hrelisted
    obtain ⟨p', s', ts', hp', hcomes'⟩ := Class.comesFrom_of_ofFile h'
    cases hp.symm.trans ((Class.resolvePool_of_sameFrame hframe input options patches).symm.trans hp')
    obtain ⟨hdeclaring, rfl⟩ := hcomes.unique hcomes' hframe hfields
    have hpool := hcomes'.frozen.trans hcomes.frozen.symm
    rw [← hcomes.entries, ← hcomes'.entries, List.forall₂_map_left_iff, List.forall₂_map_right_iff] at hrelisted
    have hmethods' := hcomes'.methods.imp fun t m htaken => htaken.of_frozen hpool.symm
    rw [hdeclaring] at hmethods'
    obtain ⟨hmarkers, hws⟩ := Method.moduleInitializers_of_relisted hrelisted hcomes.methods hmethods'
    refine ⟨hmarkers, ?_⟩
    rw [hcomes.warnings, hcomes'.warnings]
    exact hws.append_left _

/-- A list of invisible annotations without elements, with their types at these slots. -/
def invisibleList (types : List UInt8) : Attribute :=
  ⟨10, 0 :: types.length.toUInt8 :: types.flatMap fun i => [0, i, 0, 0]⟩

/-- The class of a method with these flags and annotations, where code is compiled ahead. -/
def startClass (flags : UInt16) (types : List UInt8) : Except Error (Class Nat Nat Nat) × Array Warning :=
  Class.ofFile (startFile flags [invisibleList types]) "A" { staticCompiler := true } []

/-- A private method starts its module if it is hidden first; the other way round it does not, and this is
    warned of. -/
theorem order_decides_module_initializer : ∃ c c' : Class Nat Nat Nat,
    startClass (accPrivate ||| accStatic) [11, 12] = (.ok c, #[]) ∧
      c.methods.map (·.markers.moduleInitializer) = [true] ∧
      startClass (accPrivate ||| accStatic) [12, 11] = (.ok c', #[.malformedModuleInitializer "A" "start"]) ∧
      c'.methods.map (·.markers.moduleInitializer) = [false] := by
  have hhidden : (startClass (accPrivate ||| accStatic) [11, 12]).1.toOption.map
      (fun c => c.methods.map (·.markers.moduleInitializer)) = some [true] := by decide +kernel
  have hprivate : (startClass (accPrivate ||| accStatic) [12, 11]).1.toOption.map
      (fun c => c.methods.map (·.markers.moduleInitializer)) = some [false] := by decide +kernel
  have hsilent : (startClass (accPrivate ||| accStatic) [11, 12]).2 = #[] := by decide +kernel
  have hwarned : (startClass (accPrivate ||| accStatic) [12, 11]).2 = #[.malformedModuleInitializer "A" "start"] := by
    decide +kernel
  obtain ⟨c, hc, hmarkers⟩ := Option.map_eq_some_iff.mp hhidden
  obtain ⟨c', hc', hmarkers'⟩ := Option.map_eq_some_iff.mp hprivate
  exact ⟨c, c', Prod.ext (Except.toOption_eq_some_iff.mp hc) hsilent, hmarkers,
    Prod.ext (Except.toOption_eq_some_iff.mp hc') hwarned, hmarkers'⟩

/-- The types of the annotations in such a list, and that they have no elements. -/
def typesIn (c : Class Nat Nat Nat) (types : List UInt8) : Option (List (String × Bool)) :=
  (annotationLists c.pool c.version .invisibleAnnotations
    ((startFile (accPublic ||| accStatic) [invisibleList types]).methods.flatMap (·.attributes))).toOption.map
      fun lists => lists.flatten.map fun a => (a.type, a.elements.isEmpty)

theorem eq_of_types {as : List Annotation} {types : List String}
    (h : (as.map fun a => (a.type, a.elements.isEmpty)) = types.map (·, true)) : as = types.map (⟨·, []⟩) := by
  induction as generalizing types with
  | nil =>
    cases types with
    | nil => rfl
    | cons => cases h
  | cons a as ih =>
    cases types with
    | nil => cases h
    | cons type types =>
      obtain ⟨type', elements⟩ := a
      simp only [List.map_cons, List.cons.injEq, Prod.mk.injEq, List.isEmpty_iff] at h
      obtain ⟨⟨rfl, rfl⟩, hrest⟩ := h
      rw [ih hrest, List.map_cons]

/-- A public method starts its module wherever it is hidden. -/
theorem module_initializers_exact_hidden : ∃ c c' : Class Nat Nat Nat,
    startClass (accPublic ||| accStatic) [11, 12] = (.ok c, #[]) ∧
      startClass (accPublic ||| accStatic) [12, 11] = (.ok c', #[]) ∧
      c.methods.map (·.markers.moduleInitializer) = [true] ∧ c'.methods.map (·.markers.moduleInitializer) = [true] := by
  have houtline : (startClass (accPublic ||| accStatic) [11, 12]).1.toOption.map (fun c =>
      (c.methods.map (·.markers.moduleInitializer), typesIn c [11, 12], typesIn c [12, 11])) =
        some ([true], some ([internalMarker, moduleInitializerMarker].map (·, true)),
          some ([moduleInitializerMarker, internalMarker].map (·, true))) := by decide +kernel
  have hsilent : (startClass (accPublic ||| accStatic) [11, 12]).2 = #[] := by decide +kernel
  have hother : (startClass (accPublic ||| accStatic) [12, 11]).1.toOption.isSome = true := by decide +kernel
  obtain ⟨c, hc, hmarkers⟩ := Option.map_eq_some_iff.mp houtline
  obtain ⟨c', hc'⟩ := Option.isSome_iff_exists.mp hother
  rw [Except.toOption_eq_some_iff] at hc hc'
  simp only [Prod.mk.injEq, typesIn, Option.map_eq_some_iff, Except.toOption_eq_some_iff] at hmarkers
  obtain ⟨hstarts, ⟨lists, hlists, htypes⟩, lists', hlists', htypes'⟩ := hmarkers
  have hrelisted : List.Forall₂ (MemberInfo.Relisted c.pool c.version { staticCompiler := true } c.isInterface)
      (startFile (accPublic ||| accStatic) [invisibleList [11, 12]]).methods
      (startFile (accPublic ||| accStatic) [invisibleList [12, 11]]).methods := by
    refine .cons ⟨rfl, rfl, rfl, lists, lists', hlists, hlists', ?_, fun hdoubt => ?_⟩ .nil
    · rw [eq_of_types htypes, eq_of_types htypes']
      exact .swap _ _ _
    · cases hdoubt.isPrivate
  have hrun : startClass (accPublic ||| accStatic) [11, 12] = (.ok c, #[]) := Prod.ext hc hsilent
  obtain ⟨hsame, hws⟩ := (module_initializers_exact hrun).2 _ c' _ (Prod.ext hc' rfl) ⟨rfl, rfl, rfl, rfl, rfl, rfl⟩ rfl
    hrelisted
  have hsilent' : (startClass (accPublic ||| accStatic) [12, 11]).2 = #[] :=
    Array.toList_eq_nil_iff.mp (List.perm_nil.mp hws)
  exact ⟨c, c', hrun, Prod.ext hc' hsilent', hstarts, hsame.trans hstarts⟩

end JvmClass
