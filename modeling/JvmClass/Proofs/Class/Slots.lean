/-
  JvmClass.Proofs.Class.Slots — the attributes of a field, a method or a class keep apart.

  Each kind of attribute has a part of its own in what is built of it (`Member.slots`, `Field.slots`,
  `Method.slots`, `ClassAttributes.slots`). The flags that annotations clear are in the part of the
  invisible annotations; the name, the descriptor and all other flags, which code and constants are
  read by, are in the part that no attribute fills. So each attribute is read into its part only
  (`Field.keptApart`, `Method.keptApart`, `ClassAttributes.keptApart`).
-/

import JvmClass.Proofs.Class.Alike
import JvmClass.Proofs.Class.Usable

namespace JvmClass

variable {T F M : Type} {p : Pool T F M}

open Build (Alike)

/-! ## Members -/

namespace Member

variable {h : Holder}

def part (kind : AttributeKind) (m : Member h) : Member h where
  name := if kind = .unknown then m.name else ""
  descriptor := if kind = .unknown then m.descriptor else ""
  access :=
    if kind = .unknown then m.access.erase accVisibility
    else if kind = .invisibleAnnotations then m.access
    else ⟨0⟩
  signature := if kind = .signature then m.signature else none
  annotations := if kind = .visibleAnnotations then m.annotations else []
  typeAnnotations := if kind = .visibleTypeAnnotations then m.typeAnnotations else none
  isDeprecated := if kind = .deprecated then m.isDeprecated else false
  isInternal := if kind = .invisibleAnnotations then m.isInternal else false

theorem eq_of_parts {m n : Member h} (hparts : ∀ kind, m.part kind = n.part kind) : m = n := by
  have hunknown := hparts .unknown
  have hinvisible := hparts .invisibleAnnotations
  have hsignature := congrArg signature (hparts .signature)
  have hannotations := congrArg annotations (hparts .visibleAnnotations)
  have htypes := congrArg typeAnnotations (hparts .visibleTypeAnnotations)
  have hdeprecated := congrArg isDeprecated (hparts .deprecated)
  cases m
  cases n
  simp_all [part]

def slots (h : Holder) : Slots (Member h) where
  part := part
  ext _ _ hparts := eq_of_parts hparts

/-- What no attribute tells of is the same. -/
theorem of_part_unknown {m n : Member h} (heq : m.part .unknown = n.part .unknown) :
    m.name = n.name ∧ m.descriptor = n.descriptor ∧ m.access.has accStatic = n.access.has accStatic := by
  simp only [part, if_true, mk.injEq] at heq
  obtain ⟨hname, hdescriptor, haccess, -⟩ := heq
  have hstatic (a : Access h) : (a.erase accVisibility).has accStatic = a.has accStatic := a.has_erase (by decide)
  exact ⟨hname, hdescriptor, by rw [← hstatic, haccess, hstatic]⟩

theorem part_hide {k : AttributeKind} (hk : k ≠ .invisibleAnnotations) (m : Member h) : m.hide.part k = m.part k := by
  have herase : (m.access.erase accVisibility).erase accVisibility = m.access.erase accVisibility := by
    simp [Access.erase, UInt16.and_assoc]
  simp [part, hide, hk, herase]

theorem alike_withAttribute? (m n : Member h) (kind : AttributeKind) (info : List UInt8) :
    Alike p (Option.Rel ((slots h).FilledAlike kind m n)) (m.withAttribute? kind info) (n.withAttribute? kind info) := by
  cases kind with
  | deprecated =>
    unfold withAttribute?
    dsimp only
    split
    · exact .pure (.some ((slots h).filledAlike_update .deprecated (fun m => { m with isDeprecated := true }) (by decide)
        (fun k m hk => by simp [slots, part, hk]) (by simp [slots, part])))
    · exact .throw _ _
  | signature =>
    refine (Alike.singleText _ _).bind fun s _ hs => hs ▸ .pure (.some ?_)
    exact (slots h).filledAlike_update .signature (fun m => { m with signature := some s }) (by decide)
      (fun k m hk => by simp [slots, part, hk]) (by simp [slots, part])
  | visibleAnnotations =>
    refine (Alike.annotations _).bind fun as _ has => has ▸ .pure (.some ?_)
    exact (slots h).filledAlike_update .visibleAnnotations (fun m => { m with annotations := as }) (by decide)
      (fun k m hk => by simp [slots, part, hk]) (by simp [slots, part])
  | visibleTypeAnnotations =>
    refine Alike.exposeTexts.bind fun _ _ _ => .pure (.some ?_)
    exact (slots h).filledAlike_update .visibleTypeAnnotations (fun m => { m with typeAnnotations := some info }) (by decide)
      (fun k m hk => by simp [slots, part, hk]) (by simp [slots, part])
  | _ => exact .pure .none

end Member

/-! ## Fields -/

namespace Field

def part (kind : AttributeKind) (f : Field) : Field where
  member := f.member.part kind
  constant := if kind = .constantValue then f.constant else none
  property := if kind = .invisibleAnnotations then f.property else none

def slots : Slots Field where
  part := part
  ext f g hparts := by
    have hmember := Member.eq_of_parts fun kind => congrArg member (hparts kind)
    have hconstant := congrArg constant (hparts .constantValue)
    have hproperty := congrArg property (hparts .invisibleAnnotations)
    cases f
    cases g
    simp_all [part]

/-- What happens to the part of the member happens to the part of the field. -/
theorem filledAlike_member {kind : AttributeKind} {f g : Field} {m n : Member .ofField}
    (hpart : slots.part kind f = slots.part kind g) (h : (Member.slots _).FilledAlike kind f.member g.member m n) :
    slots.FilledAlike kind f g { f with member := m } { g with member := n } := by
  have hfills {f : Field} {m : Member .ofField} (h : (Member.slots _).Fills kind f.member m) :
      slots.Fills kind f { f with member := m } := by
    refine ⟨fun k hk => ?_, fun hkind => by rw [h.unknown hkind]⟩
    have hmember : m.part k = f.member.part k := h.other k hk
    simp only [slots, part, hmember]
  refine ⟨?_, hfills h.left, hfills h.right⟩
  simp only [slots, part, mk.injEq] at hpart ⊢
  exact ⟨h.part, hpart.2⟩

theorem alike_withInvisible (cls : DeclaringClass) (a : Annotation) {f g : Field}
    (h : slots.part .invisibleAnnotations f = slots.part .invisibleAnnotations g) :
    Alike p (slots.FilledAlike .invisibleAnnotations f g) (f.withInvisible cls a) (g.withInvisible cls a) := by
  have hpart := h
  simp only [slots, part, Member.part, mk.injEq, Member.mk.injEq, reduceCtorEq, if_false, if_true,
    true_and] at hpart
  obtain ⟨⟨haccess, hinternal⟩, hproperty⟩ := hpart
  unfold withInvisible
  split
  · refine .pure (slots.filledAlike_update .invisibleAnnotations (fun f => { f with member := f.member.hide })
      (by decide) (fun k f hk => ?_) ?_)
    · simp [slots, part, Member.part_hide hk]
    · simp [slots, part, Member.part, Member.hide, haccess, hproperty]
  split
  · rw [hproperty]
    split
    · exact (Alike.warn _ _).bind fun _ _ _ => .pure (.of_part h)
    split
    · rename_i property _
      refine .pure (slots.filledAlike_update .invisibleAnnotations (fun f => { f with property := some property })
        (by decide) (fun k f hk => ?_) ?_)
      · simp [slots, part, hk]
      · simp [slots, part, Member.part, haccess, hinternal]
    · exact (Alike.warn _ _).bind fun _ _ _ => .pure (.of_part h)
  · exact .pure (.of_part h)

theorem keptApart (cls : DeclaringClass) : slots.KeptApart p cls.version (withAttribute cls) := by
  intro a f g hbase hslot
  refine .kindOf_bind fun kind hkind => ?_
  have hpart := hslot kind hkind
  refine (Member.alike_withAttribute? f.member g.member kind a.info).bind fun m n hmember => ?_
  cases hmember with
  | some hmember => exact .pure ⟨kind, hkind, filledAlike_member hpart hmember⟩
  | none =>
    dsimp only
    cases kind with
    | constantValue =>
      have hdescriptor := (Member.of_part_unknown (congrArg member hbase)).2.1
      rw [hdescriptor]
      refine (Alike.singleIndex _ _).bind fun i _ hi => hi ▸ ?_
      have hread (q : Pool T F M) (hq : q.frozen = p.frozen) := readConstant_of_frozen hq g.member.descriptor i
      refine .pool_bind (fun q hq => by rw [hread q hq]) (fun q hq => by rw [hread q hq]) ?_
      refine (Alike.ofExcept _).bind fun c _ hc => hc ▸ .pure ⟨_, hkind, ?_⟩
      refine slots.filledAlike_update .constantValue (fun f => { f with constant := some c }) (by decide)
        (fun k f hk => ?_) ?_
      · simp [slots, part, hk]
      · simp [slots, part, Member.part]
    | invisibleAnnotations =>
      refine (Alike.annotations _).bind fun as _ has => has ▸ ?_
      refine (Alike.foldlM (Q := slots.FilledAlike .invisibleAnnotations f g) (fun f' g' a h => ?_) as
        (.of_part hpart)).mono fun f' g' h => ⟨_, hkind, h⟩
      exact (alike_withInvisible cls a h.part).mono fun f'' g'' h' => h.trans h'
    | _ => exact .pure ⟨_, hkind, .of_part hpart⟩

theorem alike_build (cls : DeclaringClass) {info info' : MemberInfo} (haccess : info'.access = info.access)
    (hname : info'.name = info.name) (hdescriptor : info'.descriptor = info.descriptor)
    (hattributes : info.attributes.Perm info'.attributes)
    (hkinds : info.attributes.Pairwise fun x y =>
      ∀ kind, x.IsKind p cls.version kind → y.IsKind p cls.version kind → kind = .unknown) :
    Alike p Eq (build cls info) (build cls info') := by
  unfold build
  rw [haccess, hname, hdescriptor]
  refine (Alike.text _).bind fun name _ h => h ▸ (Alike.text _).bind fun descriptor _ h => h ▸ ?_
  exact .check fun _ => .check fun _ => .check fun _ => (keptApart cls).foldlM_perm hattributes hkinds _

end Field

/-! ## Methods -/

def Markers.part (kind : AttributeKind) (m : Markers) : Markers where
  callerSensitive := if kind = .visibleAnnotations then m.callerSensitive else false
  lambdaFormCompiled := if kind = .visibleAnnotations then m.lambdaFormCompiled else false
  lambdaFormHidden := if kind = .visibleAnnotations then m.lambdaFormHidden else false
  forceInline := if kind = .visibleAnnotations then m.forceInline else false
  moduleInitializer := if kind = .invisibleAnnotations then m.moduleInitializer else false
  hasAssertions := if kind = .unknown then m.hasAssertions else false

theorem Markers.eq_of_parts {m n : Markers} (hparts : ∀ kind, m.part kind = n.part kind) : m = n := by
  have hvisible := hparts .visibleAnnotations
  have hinvisible := congrArg moduleInitializer (hparts .invisibleAnnotations)
  have hunknown := congrArg hasAssertions (hparts .unknown)
  cases m
  cases n
  simp_all [part]

namespace Method

def part (kind : AttributeKind) (m : Method) : Method where
  member := m.member.part kind
  code := if kind = .code then m.code else none
  declaredExceptions := if kind = .exceptions then m.declaredExceptions else none
  parameterAnnotations := if kind = .visibleParameterAnnotations then m.parameterAnnotations else none
  annotationDefault := if kind = .annotationDefault then m.annotationDefault else none
  parameters := if kind = .methodParameters then m.parameters else .absent
  compareAndSet := if kind = .invisibleAnnotations then m.compareAndSet else none
  markers := m.markers.part kind

def slots : Slots Method where
  part := part
  ext m n hparts := by
    have hmember := Member.eq_of_parts fun kind => congrArg member (hparts kind)
    have hcode := congrArg code (hparts .code)
    have hexceptions := congrArg declaredExceptions (hparts .exceptions)
    have hannotations := congrArg parameterAnnotations (hparts .visibleParameterAnnotations)
    have hdefault := congrArg annotationDefault (hparts .annotationDefault)
    have hparameters := congrArg parameters (hparts .methodParameters)
    have hswap := congrArg compareAndSet (hparts .invisibleAnnotations)
    have hmarkers := Markers.eq_of_parts fun kind => congrArg markers (hparts kind)
    cases m
    cases n
    simp_all [part]

/-- What happens to the part of the member happens to the part of the method. -/
theorem filledAlike_member {kind : AttributeKind} {m n : Method} {member member' : Member .ofMethod}
    (hpart : slots.part kind m = slots.part kind n)
    (h : (Member.slots _).FilledAlike kind m.member n.member member member') :
    slots.FilledAlike kind m n { m with member } { n with member := member' } := by
  have hfills {m : Method} {member : Member .ofMethod} (h : (Member.slots _).Fills kind m.member member) :
      slots.Fills kind m { m with member } := by
    refine ⟨fun k hk => ?_, fun hkind => by rw [h.unknown hkind]⟩
    have hmember : member.part k = m.member.part k := h.other k hk
    simp only [slots, part, hmember]
  refine ⟨?_, hfills h.left, hfills h.right⟩
  simp only [slots, part, mk.injEq] at hpart ⊢
  exact ⟨h.part, hpart.2⟩

/-- Trusted annotations matter to the markers of their part only. -/
theorem part_foldl_withTrusted {kind : AttributeKind} (hkind : kind ≠ .visibleAnnotations) (as : List Annotation)
    (m : Markers) : (as.foldl withTrusted m).part kind = m.part kind := by
  induction as generalizing m with
  | nil => rfl
  | cons a as ih =>
    rw [List.foldl_cons, ih]
    unfold withTrusted
    split
    · simp [Markers.part, hkind]
    split
    · simp [Markers.part, hkind]
    split
    · simp [Markers.part, hkind]
    split
    · simp [Markers.part, hkind]
    · rfl

theorem part_foldl_withTrusted_visible (as : List Annotation) (m : Markers) :
    (as.foldl withTrusted m).part .visibleAnnotations = as.foldl withTrusted (m.part .visibleAnnotations) := by
  refine (List.foldl_hom (Markers.part .visibleAnnotations) fun m a => ?_).symm
  unfold withTrusted
  split
  · rfl
  split
  · rfl
  split
  · rfl
  split
  · rfl
  · rfl

theorem filledAlike_trusted (as : List Annotation) {m n : Method}
    (h : slots.part .visibleAnnotations m = slots.part .visibleAnnotations n) :
    slots.FilledAlike .visibleAnnotations m n { m with markers := as.foldl withTrusted m.markers }
      { n with markers := as.foldl withTrusted n.markers } := by
  refine slots.filledAlike_update .visibleAnnotations (fun m => { m with markers := as.foldl withTrusted m.markers })
    (by decide) (fun k m hk => ?_) ?_
  · simp only [slots, part, part_foldl_withTrusted hk]
  · simp only [slots, part, mk.injEq, part_foldl_withTrusted_visible] at h ⊢
    simp only [h, and_self]

theorem alike_withInvisible (cls : DeclaringClass) (a : Annotation) {m n : Method}
    (hbase : slots.part .unknown m = slots.part .unknown n)
    (h : slots.part .invisibleAnnotations m = slots.part .invisibleAnnotations n) :
    Alike p (slots.FilledAlike .invisibleAnnotations m n) (m.withInvisible cls a) (n.withInvisible cls a) := by
  have hpart := h
  simp only [slots, part, Member.part, Markers.part, mk.injEq, Member.mk.injEq, Markers.mk.injEq, reduceCtorEq, if_false,
    if_true, true_and, and_true] at hpart
  obtain ⟨⟨haccess, hinternal⟩, hswap, hmodule⟩ := hpart
  obtain ⟨hname, hdescriptor, hstatic⟩ := Member.of_part_unknown (congrArg member hbase)
  have hmay : m.mayInitializeModule cls = n.mayInitializeModule cls := by
    simp only [mayInitializeModule, isConstructor, isClassInitializer, isStatic, Member.isNamed, hname, hdescriptor,
      haccess]
  unfold withInvisible
  split
  · split
    · exact (Alike.warn _ _).bind fun _ _ _ => .pure (.of_part h)
    · refine .pure (slots.filledAlike_update .invisibleAnnotations (fun m => { m with member := m.member.hide })
        (by decide) (fun k m hk => ?_) ?_)
      · simp [slots, part, Member.part_hide hk]
      · simp [slots, part, Member.part, Markers.part, Member.hide, haccess, hswap, hmodule]
  split
  · rw [hmay]
    split
    · refine .pure (slots.filledAlike_update .invisibleAnnotations
        (fun m => { m with markers := { m.markers with moduleInitializer := true } }) (by decide) (fun k m hk => ?_) ?_)
      · simp [slots, part, Markers.part, hk]
      · simp [slots, part, Member.part, Markers.part, haccess, hinternal, hswap]
    · exact (Alike.warn _ _).bind fun _ _ _ => .pure (.of_part h)
  split
  · rw [isStatic, isStatic, hstatic]
    split
    · rename_i field _ _
      refine .pure (slots.filledAlike_update .invisibleAnnotations (fun m => { m with compareAndSet := some field })
        (by decide) (fun k m hk => ?_) ?_)
      · simp [slots, part, hk]
      · simp [slots, part, Member.part, Markers.part, haccess, hinternal, hmodule]
    · exact (Alike.warn _ _).bind fun _ _ _ => .pure (.of_part h)
  · exact .pure (.of_part h)

theorem alike_readExceptions (info : List UInt8) : Alike p Eq (readExceptions info) (readExceptions info) := by
  refine (Alike.read _ _).bind fun is _ his => his ▸ ?_
  exact .mapM (Q := Eq) (fun i _ h => h ▸ .className i) (List.forall₂_same.mpr fun _ _ => rfl)

theorem alike_readWhole {α : Type} (kind : String) (r : ElementConstants → Read FormatFault α) (info : List UInt8)
    {f g : α → Build T F M Method} {R : Method → Method → Prop} (h : ∀ a, Alike p R (f a) (g a)) :
    Alike p R (Build.pool >>= fun q => readWhole kind (r q.elementConstants) info >>= f)
      (Build.pool >>= fun q => readWhole kind (r q.elementConstants) info >>= g) := by
  have hconstants (q : Pool T F M) (hq : q.frozen = p.frozen) := Pool.elementConstants_of_frozen hq
  refine .pool_bind (fun q hq => by rw [hconstants q hq]) (fun q hq => by rw [hconstants q hq]) ?_
  exact (Alike.read _ _).bind fun a _ ha => ha ▸ h a

theorem keptApart (cls : DeclaringClass) : slots.KeptApart p cls.version (withAttribute cls) := by
  intro a m n hbase hslot
  refine .kindOf_bind fun kind hkind => ?_
  have hpart := hslot kind hkind
  refine (Member.alike_withAttribute? m.member n.member kind a.info).bind fun o o' hmember => ?_
  cases hmember with
  | @some mem mem' hmember =>
    have hfilled := filledAlike_member hpart hmember
    dsimp only
    split
    · rename_i htrusted
      obtain ⟨rfl, -⟩ := htrusted
      have hannotations : mem.annotations = mem'.annotations := by
        simpa [Member.slots, Member.part] using congrArg Member.annotations hmember.part
      rw [hannotations]
      exact .pure ⟨_, hkind, hfilled.trans (filledAlike_trusted _ hfilled.part)⟩
    · exact .pure ⟨kind, hkind, hfilled⟩
  | none =>
    dsimp only
    cases kind with
    | code =>
      have hcode : m.code = n.code := by simpa [slots, part] using congrArg code hpart
      obtain ⟨hname, hdescriptor, hstatic⟩ := Member.of_part_unknown (congrArg member hbase)
      rw [hcode, hname, hdescriptor, isStatic, isStatic, hstatic]
      refine .check fun _ => ?_
      have hdecode (q : Pool T F M) (hq : q.frozen = p.frozen) := Code.decode_of_frozen hq cls.options n.member.name
        n.member.descriptor (n.member.access.has accStatic) a.info
      refine .pool_bind (fun q hq => by rw [hdecode q hq]) (fun q hq => by rw [hdecode q hq]) ?_
      refine (Alike.ofExcept _).bind fun decoded _ h => h ▸ (Alike.require _).bind fun _ _ _ => .pure ⟨_, hkind, ?_⟩
      refine slots.filledAlike_update .code (fun m => { m with code := some decoded.1 }) (by decide)
        (fun k m hk => ?_) ?_
      · simp [slots, part, hk]
      · simp [slots, part, Member.part, Markers.part]
    | exceptions =>
      have hexceptions : m.declaredExceptions = n.declaredExceptions := by
        simpa [slots, part] using congrArg declaredExceptions hpart
      rw [hexceptions]
      refine .check fun _ => (alike_readExceptions _).bind fun names _ h => h ▸ .pure ⟨_, hkind, ?_⟩
      refine slots.filledAlike_update .exceptions (fun m => { m with declaredExceptions := some names }) (by decide)
        (fun k m hk => ?_) ?_
      · simp [slots, part, hk]
      · simp [slots, part, Member.part, Markers.part]
    | visibleParameterAnnotations =>
      refine alike_readWhole _ ElementConstants.readParameterAnnotations _ fun lists => .pure ⟨_, hkind, ?_⟩
      refine slots.filledAlike_update .visibleParameterAnnotations
        (fun m => { m with parameterAnnotations := some lists }) (by decide) (fun k m hk => ?_) ?_
      · simp [slots, part, hk]
      · simp [slots, part, Member.part, Markers.part]
    | annotationDefault =>
      refine alike_readWhole _ ElementConstants.readValue _ fun value => .pure ⟨_, hkind, ?_⟩
      refine slots.filledAlike_update .annotationDefault (fun m => { m with annotationDefault := some value })
        (by decide) (fun k m hk => ?_) ?_
      · simp [slots, part, hk]
      · simp [slots, part, Member.part, Markers.part]
    | methodParameters =>
      have hparameters : m.parameters = n.parameters := by simpa [slots, part] using congrArg parameters hpart
      rw [hparameters]
      refine .check fun _ => ?_
      have hread (q : Pool T F M) (hq : q.frozen = p.frozen) := readParameters_of_frozen hq a.info
      refine .pool_bind (fun q hq => by rw [hread q hq]) (fun q hq => by rw [hread q hq]) (.pure ⟨_, hkind, ?_⟩)
      refine slots.filledAlike_update .methodParameters (fun m => { m with parameters := readParameters p a.info })
        (by decide) (fun k m hk => ?_) ?_
      · simp [slots, part, hk]
      · simp [slots, part, Member.part, Markers.part]
    | invisibleAnnotations =>
      refine (Alike.annotations _).bind fun as _ has => has ▸ ?_
      refine (Alike.foldlM (Q := slots.FilledAlike .invisibleAnnotations m n) (fun m' n' a h => ?_) as
        (.of_part hpart)).mono fun m' n' h => ⟨_, hkind, h⟩
      have hbase' : slots.part .unknown m' = slots.part .unknown n' := by
        rw [h.left.part_unknown, h.right.part_unknown, hbase]
      exact (alike_withInvisible cls a hbase' h.part).mono fun m'' n'' h' => h.trans h'
    | _ => exact .pure ⟨_, hkind, .of_part hpart⟩

theorem alike_build (cls : DeclaringClass) {info info' : MemberInfo} (haccess : info'.access = info.access)
    (hname : info'.name = info.name) (hdescriptor : info'.descriptor = info.descriptor)
    (hattributes : info.attributes.Perm info'.attributes)
    (hkinds : info.attributes.Pairwise fun x y =>
      ∀ kind, x.IsKind p cls.version kind → y.IsKind p cls.version kind → kind = .unknown) :
    Alike p Eq (build cls info) (build cls info') := by
  unfold build
  rw [haccess, hname, hdescriptor]
  refine (Alike.text _).bind fun name _ h => h ▸ (Alike.text _).bind fun descriptor _ h => h ▸ ?_
  refine (Alike.ofExcept _).bind fun _ _ _ => ?_
  dsimp only
  split
  · exact .throw _ _
  · exact ((keptApart cls).foldlM_perm hattributes hkinds _).bind fun m _ h => h ▸ .ofExcept _

end Method

/-! ## Classes -/

theorem alike_readInnerClasses (info : List UInt8) : Alike p Eq (readInnerClasses info) (readInnerClasses info) := by
  refine (Alike.read _ _).bind fun entries _ h => h ▸ ?_
  have hcheck (q : Pool T F M) (hq : q.frozen = p.frozen) := funext (InnerClassInfo.check_of_frozen hq)
  refine .pool_bind (fun q hq => by rw [hcheck q hq]) (fun q hq => by rw [hcheck q hq]) ?_
  exact (Alike.ofExcept _).bind fun classes _ h => h ▸ (Alike.require _).bind fun _ _ _ => .pure rfl

theorem alike_readEnclosingMethod (info : List UInt8) :
    Alike p Eq (readEnclosingMethod info) (readEnclosingMethod info) := by
  refine .check fun _ => (Alike.read _ _).bind fun indices _ h => h ▸ ?_
  refine (Alike.className _).bind fun cls _ h => h ▸ ?_
  have henclosing (q : Pool T F M) (hq : q.frozen = p.frozen) := enclosingOf_of_frozen hq indices.2
  refine .pool_bind (fun q hq => by rw [henclosing q hq]) (fun q hq => by rw [henclosing q hq]) ?_
  exact (Alike.ofExcept _).bind fun method _ h => h ▸ .pure rfl

theorem alike_readBootstrapMethods (info : List UInt8) :
    Alike p Eq (readBootstrapMethods info) (readBootstrapMethods info) := by
  have hread (q : Pool T F M) (hq : q.frozen = p.frozen) := BootstrapMethod.readAll_of_frozen hq
  refine .pool_bind (fun q hq => by rw [hread q hq]) (fun q hq => by rw [hread q hq]) ?_
  exact (Alike.read _ _).bind fun methods _ h => h ▸ (Alike.require _).bind fun _ _ _ => .pure rfl

namespace ClassAttributes

def part (kind : AttributeKind) (c : ClassAttributes) : ClassAttributes where
  sourceFile := if kind = .sourceFile then c.sourceFile else none
  signature := if kind = .signature then c.signature else none
  enclosingMethod := if kind = .enclosingMethod then c.enclosingMethod else none
  innerClasses := if kind = .innerClasses then c.innerClasses else []
  bootstrapMethods := if kind = .bootstrapMethods then c.bootstrapMethods else []
  annotations := if kind = .visibleAnnotations then c.annotations else []
  typeAnnotations := if kind = .visibleTypeAnnotations then c.typeAnnotations else none
  assembly := if kind = .assembly then c.assembly else none
  isDeprecated := if kind = .deprecated then c.isDeprecated else false
  isInternal := if kind = .invisibleAnnotations then c.isInternal else false

def slots : Slots ClassAttributes where
  part := part
  ext c d hparts := by
    have hsource := congrArg sourceFile (hparts .sourceFile)
    have hsignature := congrArg signature (hparts .signature)
    have henclosing := congrArg enclosingMethod (hparts .enclosingMethod)
    have hinner := congrArg innerClasses (hparts .innerClasses)
    have hbootstrap := congrArg bootstrapMethods (hparts .bootstrapMethods)
    have hannotations := congrArg annotations (hparts .visibleAnnotations)
    have htypes := congrArg typeAnnotations (hparts .visibleTypeAnnotations)
    have hassembly := congrArg assembly (hparts .assembly)
    have hdeprecated := congrArg isDeprecated (hparts .deprecated)
    have hinternal := congrArg isInternal (hparts .invisibleAnnotations)
    cases c
    cases d
    simp_all [part]

theorem keptApart (version : Version) (options : Options) :
    slots.KeptApart p version (withAttribute version options) := by
  intro a c d _ hslot
  refine .kindOf_bind fun kind hkind => ?_
  have hpart := hslot kind hkind
  cases kind with
  | deprecated =>
    dsimp only
    split
    · exact .pure ⟨_, hkind, slots.filledAlike_update .deprecated (fun c => { c with isDeprecated := true }) (by decide)
        (fun k c hk => by simp [slots, part, hk]) (by simp [slots, part])⟩
    · exact .throw _ _
  | sourceFile =>
    refine (Alike.singleText _ _).bind fun text _ h => h ▸ .pure ⟨_, hkind, ?_⟩
    exact slots.filledAlike_update .sourceFile (fun c => { c with sourceFile := some text }) (by decide)
      (fun k c hk => by simp [slots, part, hk]) (by simp [slots, part])
  | innerClasses =>
    refine (alike_readInnerClasses _).bind fun classes _ h => h ▸ .pure ⟨_, hkind, ?_⟩
    exact slots.filledAlike_update .innerClasses (fun c => { c with innerClasses := classes }) (by decide)
      (fun k c hk => by simp [slots, part, hk]) (by simp [slots, part])
  | signature =>
    refine (Alike.singleText _ _).bind fun text _ h => h ▸ .pure ⟨_, hkind, ?_⟩
    exact slots.filledAlike_update .signature (fun c => { c with signature := some text }) (by decide)
      (fun k c hk => by simp [slots, part, hk]) (by simp [slots, part])
  | enclosingMethod =>
    refine (alike_readEnclosingMethod _).bind fun method _ h => h ▸ .pure ⟨_, hkind, ?_⟩
    exact slots.filledAlike_update .enclosingMethod (fun c => { c with enclosingMethod := some method }) (by decide)
      (fun k c hk => by simp [slots, part, hk]) (by simp [slots, part])
  | visibleAnnotations =>
    refine (Alike.annotations _).bind fun as _ h => h ▸ .pure ⟨_, hkind, ?_⟩
    exact slots.filledAlike_update .visibleAnnotations (fun c => { c with annotations := as }) (by decide)
      (fun k c hk => by simp [slots, part, hk]) (by simp [slots, part])
  | invisibleAnnotations =>
    refine (Alike.annotations _).bind fun as _ h => h ▸ ?_
    dsimp only
    split
    · exact .pure ⟨_, hkind, slots.filledAlike_update .invisibleAnnotations (fun c => { c with isInternal := true })
        (by decide) (fun k c hk => by simp [slots, part, hk]) (by simp [slots, part])⟩
    · exact .pure ⟨_, hkind, .of_part hpart⟩
  | bootstrapMethods =>
    refine (alike_readBootstrapMethods _).bind fun methods _ h => h ▸ .pure ⟨_, hkind, ?_⟩
    exact slots.filledAlike_update .bootstrapMethods (fun c => { c with bootstrapMethods := methods }) (by decide)
      (fun k c hk => by simp [slots, part, hk]) (by simp [slots, part])
  | visibleTypeAnnotations =>
    refine Alike.exposeTexts.bind fun _ _ _ => .pure ⟨_, hkind, ?_⟩
    exact slots.filledAlike_update .visibleTypeAnnotations (fun c => { c with typeAnnotations := some a.info })
      (by decide) (fun k c hk => by simp [slots, part, hk]) (by simp [slots, part])
  | assembly =>
    refine (Alike.singleText _ _).bind fun text _ h => h ▸ .pure ⟨_, hkind, ?_⟩
    exact slots.filledAlike_update .assembly (fun c => { c with assembly := some text }) (by decide)
      (fun k c hk => by simp [slots, part, hk]) (by simp [slots, part])
  | _ => exact .pure ⟨_, hkind, .of_part hpart⟩

end ClassAttributes

end JvmClass
