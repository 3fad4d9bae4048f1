/-
  JvmClass.Proofs.Class.Annotating — what the annotations of a method make of it.

  Of all attributes only annotations tell of the flags, the annotations and the markers of a method, and
  only invisible ones are warned of (`Method.reports_withAttribute`). So when all attributes are read:
  - `Method.visible_of_steps`: its annotations are those of the last list; its markers remember all lists.
  - `Method.invisible_of_steps`: the invisible lists have been taken in as one, one by one.
  - `Method.TakenFrom.kept`: its name, its descriptor and the flag `static` are as they were.
  `Method.reports_build` puts these together for the entry of a method in the class file.
-/

import JvmClass.Proofs.Class.AssertionSkipping
import JvmClass.Proofs.Class.Reporting

namespace JvmClass

variable {T F M : Type}

open Build (Ensures Reports Silent Steps)

/-! ## Lists of annotations -/

/-- The lists of annotations in the attributes of the kind, in order. -/
def annotationLists (p : Pool T F M) (version : Version) (kind : AttributeKind) (attributes : List Attribute) :
    Except FormatFault (List (List Annotation)) :=
  (attributes.filter fun a => (p.text? a.name).map (.classify · version) = some kind).mapM fun a =>
    Read.run p.elementConstants.readAnnotations a.info

theorem annotationLists_cons {p : Pool T F M} {version : Version} {kind : AttributeKind} {a : Attribute}
    {as : List Annotation} {attributes : List Attribute} {lists : List (List Annotation)}
    (hkind : a.IsKind p version kind) (hread : Read.run p.elementConstants.readAnnotations a.info = .ok as)
    (hlists : annotationLists p version kind attributes = .ok lists) :
    annotationLists p version kind (a :: attributes) = .ok (as :: lists) := by
  rw [Attribute.isKind_iff] at hkind
  exact List.mapM_filter_cons_eq_ok (decide_eq_true hkind) hread hlists

theorem annotationLists_cons_of_ne {p : Pool T F M} {version : Version} {kind kind' : AttributeKind} {a : Attribute}
    {attributes : List Attribute} (hkind : a.IsKind p version kind') (hne : kind' ≠ kind) :
    annotationLists p version kind (a :: attributes) = annotationLists p version kind attributes := by
  rw [Attribute.isKind_iff] at hkind
  rw [annotationLists, List.filter_cons_of_neg, annotationLists]
  simp [hkind, hne]

theorem read_of_annotationLists {p : Pool T F M} {version : Version} {kind : AttributeKind}
    {attributes : List Attribute} {lists : List (List Annotation)}
    (h : annotationLists p version kind attributes = .ok lists) {a : Attribute} (ha : a ∈ attributes)
    (hkind : a.IsKind p version kind) : ∃ as, Read.run p.elementConstants.readAnnotations a.info = .ok as :=
  List.exists_mapM_eq_ok_iff.mp ⟨lists, h⟩ a
    (List.mem_filter.mpr ⟨ha, decide_eq_true (Attribute.isKind_iff.mp hkind)⟩)

theorem annotationLists_of_frozen {p q : Pool T F M} (h : q.frozen = p.frozen) (version : Version)
    (kind : AttributeKind) (attributes : List Attribute) :
    annotationLists q version kind attributes = annotationLists p version kind attributes := by
  unfold annotationLists
  rw [Pool.elementConstants_of_frozen h]
  simp only [Pool.text?_of_frozen h]

theorem Build.ensures_text (p : Pool T F M) (i : Index) :
    Ensures p (Build.text i) fun value => p.text? i = some value := by
  refine Ensures.pool.bind fun q hq => Ensures.ofExcept fun value h => ?_
  rw [← Pool.text?_of_frozen hq]
  unfold Pool.text at h
  split at h
  · cases h
    assumption
  · cases h

namespace Method

/-! ## Invisible annotations -/

/-- The annotation hides the methods of such a class. -/
def hides (cls : DeclaringClass) (a : Annotation) : Bool :=
  a.type == internalMarker && cls.options.staticCompiler && !cls.isInterface

/-- The method with an invisible annotation. -/
def annotated (cls : DeclaringClass) (m : Method) (a : Annotation) : Method :=
  { m with
    member := if hides cls a then m.member.hide else m.member
    markers := { m.markers with
      moduleInitializer :=
        m.markers.moduleInitializer || a.type == moduleInitializerMarker && m.mayInitializeModule cls }
    compareAndSet :=
      if a.type = compareAndSetMarker ∧ m.isStatic = true then
        ((a.element? "value").bind ElementValue.text?).or m.compareAndSet
      else m.compareAndSet }

/-- What an invisible annotation is warned of. -/
def complaint? (cls : DeclaringClass) (m : Method) (a : Annotation) : Option Warning :=
  if a.type = internalMarker ∧ cls.options.staticCompiler = true then
    if cls.isInterface then some (.internalOnInterfaceMethod cls.name m.member.name) else none
  else if a.type = moduleInitializerMarker then
    if m.mayInitializeModule cls then none else some (.malformedModuleInitializer cls.name m.member.name)
  else if a.type = compareAndSetMarker then
    if m.isStatic = true ∧ ((a.element? "value").bind ElementValue.text?).isSome = true then none
    else some (.malformedCompareAndSet cls.name m.member.name)
  else none

/-- What a list of invisible annotations is warned of. -/
def complaints (cls : DeclaringClass) (m : Method) : List Annotation → List Warning
  | [] => []
  | a :: as => (m.complaint? cls a).toList ++ complaints cls (m.annotated cls a) as

/-- The three markers are told apart. -/
theorem markers_distinct : internalMarker ≠ moduleInitializerMarker ∧ internalMarker ≠ compareAndSetMarker ∧
    moduleInitializerMarker ≠ compareAndSetMarker := by decide

theorem withInvisible_apply (cls : DeclaringClass) (m : Method) (a : Annotation) (s : BuildState T F M) :
    m.withInvisible cls a s =
      .ok (m.annotated cls a) { s with warnings := s.warnings ++ (m.complaint? cls a).toList.toArray } := by
  obtain ⟨hmodule, hswap, hswap'⟩ := markers_distinct
  unfold withInvisible annotated complaint? hides
  by_cases hinternal : a.type = internalMarker
  · simp only [hinternal, true_and, beq_self_eq_true, Bool.true_and, beq_eq_false_iff_ne.mpr hmodule, Bool.false_and,
      Bool.or_false, hmodule, hswap, if_false, false_and]
    cases cls.options.staticCompiler <;> cases cls.isInterface <;> rfl
  · simp only [hinternal, false_and, if_false, beq_eq_false_iff_ne.mpr hinternal, Bool.false_and, Bool.false_eq_true]
    by_cases hstarts : a.type = moduleInitializerMarker
    · simp only [hstarts, if_true, beq_self_eq_true, Bool.true_and, hswap', false_and, if_false]
      cases m.mayInitializeModule cls
      · simp only [Bool.or_false]
        rfl
      · simp only [Bool.or_true]
        rfl
    · simp only [hstarts, if_false, beq_eq_false_iff_ne.mpr hstarts, Bool.false_and, Bool.or_false]
      by_cases hswaps : a.type = compareAndSetMarker
      · simp only [hswaps, if_true, true_and]
        cases m.isStatic <;> cases (a.element? "value").bind ElementValue.text? <;> rfl
      · simp only [hswaps, if_false, false_and]
        rfl

theorem complaints_eq (cls : DeclaringClass) (as : List Annotation) (m : Method) : m.complaints cls as =
    Build.warningsOf (annotated cls) (fun m a => (m.complaint? cls a).toList) m as := by
  induction as generalizing m with
  | nil => rfl
  | cons a as ih => rw [complaints, Build.warningsOf, ih]

theorem foldlM_withInvisible_apply (cls : DeclaringClass) (as : List Annotation) (m : Method) (s : BuildState T F M) :
    as.foldlM (withInvisible cls) m s =
      .ok (as.foldl (annotated cls) m) { s with warnings := s.warnings ++ (m.complaints cls as).toArray } := by
  rw [complaints_eq]
  exact Build.foldlM_apply (withInvisible_apply cls) as m s

/-! ## Attributes -/

/-- The method with a list of visible annotations; its markers remember earlier lists. -/
def withVisible (cls : DeclaringClass) (m : Method) (as : List Annotation) : Method :=
  { m with
    member := { m.member with annotations := as }
    markers := if cls.options.trustedAnnotations then as.foldl withTrusted m.markers else m.markers }

/-- What one more attribute makes of a method, and what it is warned of: attributes of all kinds keep to
    their parts. -/
inductive AttributeStep (p : Pool T F M) (cls : DeclaringClass) (m : Method) (a : Attribute) :
    Method → List Warning → Prop
  | visible {as : List Annotation} (kind : a.IsKind p cls.version .visibleAnnotations)
      (read : Read.run p.elementConstants.readAnnotations a.info = .ok as)
      (fills : slots.Fills .visibleAnnotations m (m.withVisible cls as)) :
      AttributeStep p cls m a (m.withVisible cls as) []
  | invisible {as : List Annotation} (kind : a.IsKind p cls.version .invisibleAnnotations)
      (read : Read.run p.elementConstants.readAnnotations a.info = .ok as)
      (fills : slots.Fills .invisibleAnnotations m (as.foldl (annotated cls) m)) :
      AttributeStep p cls m a (as.foldl (annotated cls) m) (m.complaints cls as)
  | other {k : AttributeKind} {m' : Method} (kind : a.IsKind p cls.version k) (hvisible : k ≠ .visibleAnnotations)
      (hinvisible : k ≠ .invisibleAnnotations) (fills : slots.Fills k m m') : AttributeStep p cls m a m' []

end Method

/-- What reading one attribute fills is the part of its kind. -/
theorem Slots.KeptApart.ensures_fills {β : Type} {S : Slots β} {p : Pool T F M} {version : Version}
    {f : β → Attribute → Build T F M β} (hf : S.KeptApart p version f) (b : β) (a : Attribute) :
    Ensures p (f b a) fun b' => ∃ kind, a.IsKind p version kind ∧ S.Fills kind b b' := by
  intro s b' s' hs h
  cases hf a b b rfl fun _ _ => rfl with
  | fail hfails _ =>
    obtain ⟨fault, s'', hfault⟩ := hfails s hs
    cases h.symm.trans hfault
  | ok hanswers _ related _ =>
    obtain ⟨s'', hok, hpool⟩ := hanswers.eq_ok s hs
    cases h.symm.trans hok
    obtain ⟨kind, hkind, hfilled⟩ := related
    exact ⟨⟨kind, hkind, hfilled.left⟩, by rw [hpool, Upkeep.frozen_foldl, hs]⟩

/-- What the reader of an attribute reports can be told from the kind on. -/
theorem Slots.KeptApart.reports {β : Type} {S : Slots β} {p : Pool T F M} {version : Version}
    {f : β → Attribute → Build T F M β} (hf : S.KeptApart p version f) {b : β} {a : Attribute}
    {rest : AttributeKind → Build T F M β} (hrest : f b a = (Build.kindOf version a >>= rest))
    {R : β → List Warning → Prop}
    (h : ∀ kind s b' s', s.pool.frozen = p.frozen → a.IsKind p version kind → S.Fills kind b b' →
      rest kind s = .ok b' s' → ∃ ws, s'.warnings.toList = s.warnings.toList ++ ws ∧ R b' ws) :
    Reports p (f b a) R := by
  intro s b' s' hs hok
  obtain ⟨⟨kind, hkind, hfills⟩, hs'⟩ := hf.ensures_fills b a s b' s' hs hok
  rw [hrest] at hok
  obtain ⟨kind', _, hkindOf, hok⟩ := Build.bind_eq_ok.mp hok
  obtain ⟨hkind', rfl⟩ := Build.kindOf_eq_ok.mp hkindOf
  obtain rfl := ((Attribute.isKind_of_frozen hs).mp hkind').eq hkind
  exact ⟨hs', h kind' s b' s' hs hkind hfills hok⟩

theorem Member.silent_withAttribute? {h : Holder} (m : Member h) (kind : AttributeKind) (info : List UInt8) :
    (m.withAttribute? kind info : Build T F M _).Silent := by
  unfold withAttribute?
  split
  · split
    · exact .pure _
    · exact .throw _
  · exact (Silent.singleText _ _).bind fun _ => .pure _
  · exact (Silent.annotations _).bind fun _ => .pure _
  · exact Silent.exposeTexts.bind fun _ => .pure _
  · exact .pure _

/-- The flags of a method as they are declared. -/
def MemberInfo.declares (info : MemberInfo) (flags : UInt16) : Bool := (Access.ofBits .ofMethod info.access).has flags

namespace Method

variable {p : Pool T F M} {cls : DeclaringClass}

theorem silent_readWhole {α : Type} (kind : String) (r : Read FormatFault α) (info : List UInt8) :
    (readWhole kind r info : Build T F M α).Silent := Silent.read _ _

/-- Each attribute is a step, and its warnings are those of the step. -/
theorem reports_withAttribute (cls : DeclaringClass) (m : Method) (a : Attribute) :
    Reports p (m.withAttribute cls a) (m.AttributeStep p cls a) := by
  refine (keptApart cls).reports rfl fun kind s m' s' hs hkind hfills hrest => ?_
  by_cases hvisible : kind = .visibleAnnotations
  · subst hvisible
    obtain ⟨_, _, hmember, hrest⟩ := Build.bind_eq_ok.mp hrest
    obtain ⟨as, _, hannotations, hmember⟩ := Build.bind_eq_ok.mp hmember
    obtain ⟨rfl, rfl⟩ := Build.pure_eq_ok.mp hmember
    obtain ⟨hread, rfl⟩ := Build.annotations_eq_ok.mp hannotations
    rw [Pool.elementConstants_of_frozen hs] at hread
    have hresult : m.withVisible cls as = m' ∧ s = s' := by
      unfold withVisible
      by_cases htrusted : cls.options.trustedAnnotations = true
      · simpa [htrusted, Build.pure_eq_ok] using hrest
      · simpa [htrusted, Build.pure_eq_ok] using hrest
    obtain ⟨rfl, rfl⟩ := hresult
    exact ⟨[], (List.append_nil _).symm, .visible hkind hread hfills⟩
  by_cases hinvisible : kind = .invisibleAnnotations
  · subst hinvisible
    obtain ⟨_, _, hmember, hrest⟩ := Build.bind_eq_ok.mp hrest
    obtain ⟨rfl, rfl⟩ := Build.pure_eq_ok.mp hmember
    obtain ⟨as, _, hannotations, hrest⟩ := Build.bind_eq_ok.mp hrest
    obtain ⟨hread, rfl⟩ := Build.annotations_eq_ok.mp hannotations
    rw [Pool.elementConstants_of_frozen hs] at hread
    rw [foldlM_withInvisible_apply] at hrest
    cases hrest
    exact ⟨m.complaints cls as, Array.toList_append, .invisible hkind hread hfills⟩
  · have hsilent : s'.warnings = s.warnings := by
      refine (Member.silent_withAttribute? m.member kind a.info).bind (fun member => ?_) _ _ _ hrest
      split
      · split
        · exact .pure _
        · exact .pure _
      split
      · refine .check (Silent.pool.bind fun _ => (Silent.ofExcept _).bind fun _ => ?_)
        exact (Silent.require _).bind fun _ => .pure _
      · refine .check (Silent.bind ?_ fun _ => .pure _)
        exact (Silent.read _ _).bind fun _ => .mapM Silent.className _
      · exact Silent.pool.bind fun _ => (silent_readWhole _ _ _).bind fun _ => .pure _
      · exact Silent.pool.bind fun _ => (silent_readWhole _ _ _).bind fun _ => .pure _
      · exact .check (Silent.pool.bind fun _ => .pure _)
      · contradiction
      · exact .pure _
    exact ⟨[], by rw [hsilent, List.append_nil], .other hkind hvisible hinvisible hfills⟩

/-! ## All attributes -/

/-- What invisible annotations are judged by, and what they say of the start of a module, is the same. -/
structure Agree (m n : Method) : Prop where
  name : m.member.name = n.member.name
  descriptor : m.member.descriptor = n.member.descriptor
  access : m.member.access = n.member.access
  moduleInitializer : m.markers.moduleInitializer = n.markers.moduleInitializer

theorem Agree.trans {m n o : Method} (h : m.Agree n) (h' : n.Agree o) : m.Agree o :=
  ⟨h.name.trans h'.name, h.descriptor.trans h'.descriptor, h.access.trans h'.access,
    h.moduleInitializer.trans h'.moduleInitializer⟩

theorem Agree.mayInitializeModule {m n : Method} (h : m.Agree n) :
    m.mayInitializeModule cls = n.mayInitializeModule cls := by
  simp only [Method.mayInitializeModule, isConstructor, isClassInitializer, isStatic, Member.isNamed, h.name,
    h.descriptor, h.access]

theorem Agree.annotated {m n : Method} (h : m.Agree n) (a : Annotation) :
    (m.annotated cls a).Agree (n.annotated cls a) := by
  by_cases hhides : hides cls a = true
  · constructor <;> simp [Method.annotated, hhides, Member.hide, h.name, h.descriptor, h.access, h.moduleInitializer,
      h.mayInitializeModule]
  · constructor <;> simp [Method.annotated, hhides, h.name, h.descriptor, h.access, h.moduleInitializer,
      h.mayInitializeModule]

theorem Agree.foldl_annotated {m n : Method} (h : m.Agree n) (as : List Annotation) :
    (as.foldl (Method.annotated cls) m).Agree (as.foldl (Method.annotated cls) n) := by
  induction as generalizing m n with
  | nil => exact h
  | cons a as ih => exact ih (h.annotated a)

theorem Agree.complaints {m n : Method} (h : m.Agree n) (as : List Annotation) :
    m.complaints cls as = n.complaints cls as := by
  induction as generalizing m n with
  | nil => rfl
  | cons a as ih =>
    have hcomplaint : m.complaint? cls a = n.complaint? cls a := by
      rw [complaint?, complaint?, isStatic, isStatic, h.name, h.access, h.mayInitializeModule]
    rw [Method.complaints, Method.complaints, hcomplaint, ih (h.annotated a)]

theorem complaints_append (m : Method) (as bs : List Annotation) :
    m.complaints cls (as ++ bs) = m.complaints cls as ++ (as.foldl (annotated cls) m).complaints cls bs := by
  simp only [complaints_eq, Build.warningsOf_append]

/-- Hiding a method touches neither its name nor its descriptor nor `static`. -/
theorem annotated_kept (cls : DeclaringClass) (m : Method) (a : Annotation) :
    (m.annotated cls a).member.name = m.member.name ∧ (m.annotated cls a).member.descriptor = m.member.descriptor ∧
      (m.annotated cls a).isStatic = m.isStatic := by
  by_cases hhides : hides cls a = true
  · have hmember : (m.annotated cls a).member = m.member.hide := if_pos hhides
    rw [isStatic, hmember]
    exact ⟨rfl, rfl, Access.has_erase _ (by decide)⟩
  · have hmember : (m.annotated cls a).member = m.member := if_neg hhides
    rw [isStatic, hmember]
    exact ⟨rfl, rfl, rfl⟩

theorem foldl_annotated_kept (cls : DeclaringClass) (as : List Annotation) (m : Method) :
    (as.foldl (annotated cls) m).member.name = m.member.name ∧
      (as.foldl (annotated cls) m).member.descriptor = m.member.descriptor ∧
      (as.foldl (annotated cls) m).isStatic = m.isStatic := by
  induction as generalizing m with
  | nil => exact ⟨rfl, rfl, rfl⟩
  | cons a as ih =>
    obtain ⟨hname, hdescriptor, hstatic⟩ := ih (m.annotated cls a)
    obtain ⟨hname', hdescriptor', hstatic'⟩ := annotated_kept cls m a
    exact ⟨hname.trans hname', hdescriptor.trans hdescriptor', hstatic.trans hstatic'⟩

/-- Only invisible annotations are told by the part of their kind. -/
theorem agree_of_fills {k : AttributeKind} {m m' : Method} (h : slots.Fills k m m') (hk : k ≠ .invisibleAnnotations) :
    m'.Agree m := by
  obtain ⟨hname, hdescriptor, -⟩ := Member.of_part_unknown (congrArg Method.member h.part_unknown)
  have hpart := h.other .invisibleAnnotations hk.symm
  exact ⟨hname, hdescriptor, by simpa [slots, part, Member.part] using congrArg (·.member.access) hpart,
    by simpa [slots, part, Markers.part] using congrArg (·.markers.moduleInitializer) hpart⟩

/-- All lists of invisible annotations are taken in as one. -/
theorem invisible_of_steps {m m' : Method} {l : List Attribute} {ws : List Warning}
    (h : Steps (AttributeStep p cls) m l m' ws) : ∃ lists,
      annotationLists p cls.version .invisibleAnnotations l = .ok lists ∧
      m'.Agree (lists.flatten.foldl (annotated cls) m) ∧ ws = m.complaints cls lists.flatten := by
  induction h with
  | nil m => exact ⟨[], rfl, ⟨rfl, rfl, rfl, rfl⟩, rfl⟩
  | cons head _ ih =>
    obtain ⟨lists, hlists, hagree, rfl⟩ := ih
    cases head with
    | visible kind read fills =>
      have hfirst := agree_of_fills fills (by decide)
      refine ⟨lists, (annotationLists_cons_of_ne kind (by decide)).trans hlists, ?_, hfirst.complaints _⟩
      exact hagree.trans (hfirst.foldl_annotated _)
    | invisible kind read fills =>
      refine ⟨_ :: lists, annotationLists_cons kind read hlists, ?_, ?_⟩
      · rwa [List.flatten_cons, List.foldl_append]
      · rw [List.flatten_cons, complaints_append]
    | other kind hvisible hinvisible fills =>
      have hfirst := agree_of_fills fills hinvisible
      refine ⟨lists, (annotationLists_cons_of_ne kind hinvisible).trans hlists, ?_, hfirst.complaints _⟩
      exact hagree.trans (hfirst.foldl_annotated _)

/-- The visible annotations that are trusted, each with the marker that remembers it. -/
def trustedMarkers : List (String × (Markers → Bool)) :=
  [(callerSensitiveMarker, (·.callerSensitive)), (lambdaFormCompiledMarker, (·.lambdaFormCompiled)),
    (lambdaFormHiddenMarker, (·.lambdaFormHidden)), (forceInlineMarker, (·.forceInline))]

theorem trustedMarkers_cases {t : String × (Markers → Bool)} (ht : t ∈ trustedMarkers) :
    t = (callerSensitiveMarker, (·.callerSensitive)) ∨ t = (lambdaFormCompiledMarker, (·.lambdaFormCompiled)) ∨
      t = (lambdaFormHiddenMarker, (·.lambdaFormHidden)) ∨ t = (forceInlineMarker, (·.forceInline)) := by
  simpa [trustedMarkers] using ht

/-- A trusted annotation sets its marker and no other. -/
theorem marker_withTrusted {t : String × (Markers → Bool)} (ht : t ∈ trustedMarkers) (m : Markers) (a : Annotation) :
    t.2 (withTrusted m a) = (t.2 m || a.type == t.1) := by
  unfold withTrusted
  rcases trustedMarkers_cases ht with rfl | rfl | rfl | rfl
  all_goals
    split_ifs <;> simp_all [callerSensitiveMarker, lambdaFormCompiledMarker, lambdaFormHiddenMarker, forceInlineMarker]

theorem marker_foldl_withTrusted {t : String × (Markers → Bool)} (ht : t ∈ trustedMarkers) (as : List Annotation)
    (m : Markers) : t.2 (as.foldl withTrusted m) = (t.2 m || as.any (·.type == t.1)) := by
  induction as generalizing m with
  | nil => simp
  | cons a as ih => rw [List.foldl_cons, ih, marker_withTrusted ht, List.any_cons, Bool.or_assoc]

/-- Only visible annotations are told by the part of their kind. -/
theorem visible_of_fills {k : AttributeKind} {m m' : Method} (h : slots.Fills k m m') (hk : k ≠ .visibleAnnotations) :
    m'.member.annotations = m.member.annotations ∧ ∀ t ∈ trustedMarkers, t.2 m'.markers = t.2 m.markers := by
  have hpart := h.other .visibleAnnotations hk.symm
  have hmarkers := congrArg Method.markers hpart
  simp only [slots, part, Markers.part, if_true, Markers.mk.injEq] at hmarkers
  refine ⟨by simpa [slots, part, Member.part] using congrArg (·.member.annotations) hpart, fun t ht => ?_⟩
  rcases trustedMarkers_cases ht with rfl | rfl | rfl | rfl
  · exact hmarkers.1
  · exact hmarkers.2.1
  · exact hmarkers.2.2.1
  · exact hmarkers.2.2.2.1

/-- The last list of visible annotations is kept, but the markers remember them all. -/
theorem visible_of_steps {m m' : Method} {l : List Attribute} {ws : List Warning}
    (h : Steps (AttributeStep p cls) m l m' ws) : ∃ lists,
      annotationLists p cls.version .visibleAnnotations l = .ok lists ∧
      m'.member.annotations = lists.getLast?.getD m.member.annotations ∧ ∀ t ∈ trustedMarkers,
        t.2 m'.markers = (t.2 m.markers || cls.options.trustedAnnotations && lists.any (·.any (·.type == t.1))) := by
  induction h with
  | nil m => exact ⟨[], rfl, rfl, fun t _ => by simp⟩
  | cons head _ ih =>
    obtain ⟨lists, hlists, hannotations, hmarkers⟩ := ih
    cases head with
    | @visible as kind read fills =>
      refine ⟨as :: lists, annotationLists_cons kind read hlists, ?_, fun t ht => ?_⟩
      · rw [hannotations, List.getLast?_cons]
        rfl
      · rw [hmarkers t ht, withVisible]
        cases cls.options.trustedAnnotations with
        | true => simp only [if_true, marker_foldl_withTrusted ht, Bool.true_and, List.any_cons, Bool.or_assoc]
        | false => rfl
    | invisible kind read fills =>
      obtain ⟨hsame, hsame'⟩ := visible_of_fills fills (by decide)
      refine ⟨lists, (annotationLists_cons_of_ne kind (by decide)).trans hlists, hannotations.trans (by rw [hsame]), ?_⟩
      exact fun t ht => by rw [hmarkers t ht, hsame' t ht]
    | other kind hvisible hinvisible fills =>
      obtain ⟨hsame, hsame'⟩ := visible_of_fills fills hvisible
      refine ⟨lists, (annotationLists_cons_of_ne kind hvisible).trans hlists, hannotations.trans (by rw [hsame]), ?_⟩
      exact fun t ht => by rw [hmarkers t ht, hsame' t ht]

/-! ## Methods -/

/-- The method as it is declared, before its attributes are read. -/
def declared? (p : Pool T F M) (cls : DeclaringClass) (info : MemberInfo) : Option Method := do
  let name ← p.text? info.name
  let descriptor ← p.text? info.descriptor
  let access ← access? name (dotted descriptor) info.access cls.version cls.isInterface
  return { member := { name, descriptor := dotted descriptor, access } }

/-- What a method owes to the annotations among the attributes of its entry in the class file, and what
    they are warned of. -/
structure TakenFrom (p : Pool T F M) (cls : DeclaringClass) (info : MemberInfo) (m₀ : Method)
    (visible invisible : List (List Annotation)) (m : Method) (ws : List Warning) : Prop where
  declared : declared? p cls info = some m₀
  visibleLists : annotationLists p cls.version .visibleAnnotations info.attributes = .ok visible
  invisibleLists : annotationLists p cls.version .invisibleAnnotations info.attributes = .ok invisible
  annotations : m.member.annotations = visible.getLast?.getD []
  trusted : ∀ t ∈ trustedMarkers,
    t.2 m.markers = (cls.options.trustedAnnotations && visible.any (·.any (·.type == t.1)))
  agree : m.Agree (invisible.flatten.foldl (annotated cls) m₀)
  warnings : ws = m₀.complaints cls invisible.flatten

/-- The method is as its entry in the class file and the annotations there make it. -/
def IsTakenFrom (p : Pool T F M) (cls : DeclaringClass) (info : MemberInfo) (m : Method) (ws : List Warning) : Prop :=
  ∃ m₀ visible invisible, TakenFrom p cls info m₀ visible invisible m ws

theorem declared?_eq_some_iff {info : MemberInfo} {m₀ : Method} : declared? p cls info = some m₀ ↔
    ∃ name descriptor access, p.text? info.name = some name ∧ p.text? info.descriptor = some descriptor ∧
      access? name (dotted descriptor) info.access cls.version cls.isInterface = some access ∧
      m₀ = { member := { name, descriptor := dotted descriptor, access } } := by
  simp only [declared?, Option.bind_eq_bind, Option.bind_eq_some_iff, Option.pure_def, Option.some.injEq]
  constructor
  · rintro ⟨name, hname, descriptor, hdescriptor, access, haccess, rfl⟩
    exact ⟨name, descriptor, access, hname, hdescriptor, haccess, rfl⟩
  · rintro ⟨name, descriptor, access, hname, hdescriptor, haccess, rfl⟩
    exact ⟨name, hname, descriptor, hdescriptor, access, haccess, rfl⟩

/-- Only static initializers do not have the flags that they declare. -/
theorem access?_cases {name descriptor : String} {bits : UInt16} {version : Version} {inInterface : Bool}
    {access : Access .ofMethod} (h : access? name descriptor bits version inInterface = some access) :
    if isInitializer name descriptor version (.ofBits .ofMethod bits) then
      access = initializerAccess (.ofBits .ofMethod bits)
    else access = .ofBits .ofMethod bits := by
  unfold access? at h
  dsimp only at h
  split at h
  · rename_i hinitializer
    rw [if_pos hinitializer]
    exact (Option.some.inj h).symm
  · rename_i hother
    rw [if_neg hother]
    split at h
    · exact (Option.some.inj h).symm
    · cases h

/-- No attribute changes the name, the descriptor or `static`. -/
theorem TakenFrom.kept {info : MemberInfo} {m₀ m : Method} {visible invisible : List (List Annotation)}
    {ws : List Warning} (h : TakenFrom p cls info m₀ visible invisible m ws) : m.member.name = m₀.member.name ∧
      m.member.descriptor = m₀.member.descriptor ∧ m.isStatic = m₀.isStatic := by
  obtain ⟨hname, hdescriptor, hstatic⟩ := foldl_annotated_kept cls invisible.flatten m₀
  exact ⟨h.agree.name.trans hname, h.agree.descriptor.trans hdescriptor,
    (congrArg (·.has accStatic) h.agree.access).trans hstatic⟩

theorem TakenFrom.of_steps {info : MemberInfo} {m₀ m : Method} {ws : List Warning}
    (hdeclared : declared? p cls info = some m₀) (h : Steps (AttributeStep p cls) m₀ info.attributes m ws) :
    IsTakenFrom p cls info m ws := by
  obtain ⟨visible, hvisible, hannotations, hmarkers⟩ := visible_of_steps h
  obtain ⟨invisible, hinvisible, hagree, hws⟩ := invisible_of_steps h
  obtain ⟨name, descriptor, access, -, -, -, rfl⟩ := declared?_eq_some_iff.mp hdeclared
  refine ⟨_, visible, invisible, hdeclared, hvisible, hinvisible, hannotations, fun t ht => ?_, hagree, hws⟩
  rw [hmarkers t ht, Bool.or_eq_right_iff_imp.mpr]
  rcases trustedMarkers_cases ht with rfl | rfl | rfl | rfl <;> exact fun h => nomatch h

/-- The code of a method is checked without a look at what annotations tell of. -/
theorem of_withCodeChecked {m m' : Method} (h : m.withCodeChecked cls = .ok m') :
    m'.member = m.member ∧ m'.markers = m.markers := by
  unfold withCodeChecked at h
  split at h
  · split at h
    · cases h
    · cases h
      exact ⟨rfl, rfl⟩
  split at h
  · cases h
    exact ⟨rfl, rfl⟩
  split at h
  · cases h
    exact ⟨rfl, rfl⟩
  · cases h

/-- Methods that differ in the rest only are taken from the same entries. -/
theorem IsTakenFrom.congr {info : MemberInfo} {m m' : Method} {ws : List Warning} (h : IsTakenFrom p cls info m ws)
    (hmember : m'.member = m.member) (hmarkers : ∃ asks, m'.markers = { m.markers with hasAssertions := asks }) :
    IsTakenFrom p cls info m' ws := by
  obtain ⟨m₀, visible, invisible, htaken⟩ := h
  obtain ⟨asks, hmarkers⟩ := hmarkers
  refine ⟨m₀, visible, invisible, htaken.declared, htaken.visibleLists, htaken.invisibleLists,
    hmember ▸ htaken.annotations, fun t ht => ?_, ?_, htaken.warnings⟩
  · rw [← htaken.trusted t ht, hmarkers]
    rcases trustedMarkers_cases ht with rfl | rfl | rfl | rfl <;> rfl
  · exact Agree.trans ⟨by rw [hmember], by rw [hmember], by rw [hmember], by rw [hmarkers]⟩ htaken.agree

theorem IsTakenFrom.of_frozen {q : Pool T F M} {info : MemberInfo} {m : Method} {ws : List Warning}
    (h : IsTakenFrom p cls info m ws) (hq : q.frozen = p.frozen) : IsTakenFrom q cls info m ws := by
  obtain ⟨m₀, visible, invisible, htaken⟩ := h
  have hdeclared : declared? q cls info = declared? p cls info := by
    unfold declared?
    simp only [Pool.text?_of_frozen hq]
  exact ⟨m₀, visible, invisible, hdeclared.trans htaken.declared,
    (annotationLists_of_frozen hq _ _ _).trans htaken.visibleLists,
    (annotationLists_of_frozen hq _ _ _).trans htaken.invisibleLists, htaken.annotations, htaken.trusted, htaken.agree,
    htaken.warnings⟩

theorem reports_build (cls : DeclaringClass) (info : MemberInfo) :
    Reports p (build cls info) (IsTakenFrom p cls info) := by
  unfold build
  refine .after_silent (Silent.text _) (Build.ensures_text p _) fun name hname => ?_
  refine .after_silent (Silent.text _) (Build.ensures_text p _) fun descriptor hdescriptor => ?_
  refine .after_silent (Silent.ofExcept _) (Ensures.ofExcept (P := fun _ => True) fun _ _ => trivial) fun _ _ => ?_
  dsimp only
  split
  · exact fun _ _ _ _ h => (Build.throw_eq_ok.mp h).elim
  rename_i access haccess
  have hdeclared : declared? p cls info = some { member := { name, descriptor := dotted descriptor, access } } :=
    declared?_eq_some_iff.mpr ⟨name, descriptor, access, hname, hdescriptor, haccess, rfl⟩
  have hchecked (m : Method) : Ensures p (MonadExcept.ofExcept (m.withCodeChecked cls))
      fun m' => m'.member = m.member ∧ m'.markers = m.markers := .ofExcept fun _ => of_withCodeChecked
  have hsteps := Reports.foldlM (p := p) (reports_withAttribute cls) info.attributes
    { member := { name, descriptor := dotted descriptor, access } }
  refine (hsteps.bind_silent (fun _ => .ofExcept _) hchecked).mono fun m' ws h => ?_
  obtain ⟨m, hsteps, hmember, hmarkers⟩ := h
  exact (TakenFrom.of_steps hdeclared hsteps).congr hmember ⟨_, hmarkers⟩

end Method
end JvmClass
