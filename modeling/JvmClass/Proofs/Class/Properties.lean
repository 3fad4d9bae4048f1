/-
  JvmClass.Proofs.Class.Properties — which property a field has.

  A property annotation is usable if it has no elements but `get` and `set`, each at most once and each a
  text (`Annotation.IsUsable`). The program puts the property together as it goes through the elements, and
  gives it up half-way (`Property.ofAnnotation?_eq_some_iff`). Of the property annotations of a field, in all
  its attributes, the first usable one is taken; those before it are malformed, and those after it are
  duplicates, usable or not (`Property.IsChosen`, `Field.reports_build`). Whatever such annotations say, they
  do not make the field fail: without them it is built or not as it is with them
  (`Field.alike_build_without`).
  `property_is_first_usable` puts both together for the entry of a field in the class file.
-/

import JvmClass.Proofs.Class.Annotating

namespace JvmClass

variable {T F M : Type}

open Build (Alike Answers Ensures Reports Silent Steps)

/-! ## One annotation -/

namespace Annotation

/-- The text of the first element of the name. -/
def textAt (a : Annotation) (name : String) : Option String := (a.element? name).bind ElementValue.text?

theorem textAt_cons (type name : String) (value : ElementValue) (es : List (String × ElementValue)) (n : String) :
    textAt ⟨type, (name, value) :: es⟩ n = if n = name then value.text? else textAt ⟨type, es⟩ n := by
  unfold textAt element?
  by_cases hn : n = name
  · rw [if_pos hn, List.find?_cons_of_pos (by simpa using hn.symm)]
    rfl
  · rw [if_neg hn, List.find?_cons_of_neg (by simpa using Ne.symm hn)]

theorem textAt_eq_none (a : Annotation) {name : String} (h : ∀ e ∈ a.elements, e.1 ≠ name) : a.textAt name = none := by
  have hmissing : a.elements.find? (·.1 == name) = none :=
    List.find?_eq_none.mpr fun e he heq => h e he (beq_iff_eq.mp heq)
  unfold textAt element?
  rw [hmissing]
  rfl

/-- There are no elements but `get` and `set`, each at most once and each a text. -/
structure IsUsable (a : Annotation) : Prop where
  names : ∀ e ∈ a.elements, e.1 = "get" ∨ e.1 = "set"
  texts : ∀ e ∈ a.elements, e.2.text?.isSome = true
  nodup : (a.elements.map Prod.fst).Nodup

/-- The annotation is usable, and these are the texts of its elements. -/
structure Describes (a : Annotation) (p : Property) : Prop extends a.IsUsable where
  getter : p.getter = a.textAt "get"
  setter : p.setter = a.textAt "set"

theorem isUsable_iff {a : Annotation} : a.IsUsable ↔ ∃ p, a.Describes p :=
  ⟨fun h => ⟨⟨a.textAt "get", a.textAt "set"⟩, h, rfl, rfl⟩, fun ⟨_, h⟩ => h.toIsUsable⟩

end Annotation

namespace Property

/-- The accessor of this name. -/
def accessor? (p : Property) (name : String) : Option String :=
  if name = "get" then p.getter else if name = "set" then p.setter else none

theorem ext_accessor {p q : Property} (h : ∀ name, p.accessor? name = q.accessor? name) : p = q := by
  have hgetter : p.getter = q.getter := h "get"
  have hsetter : p.setter = q.setter := h "set"
  cases p
  cases q
  simp_all

theorem accessor?_getter (p : Property) (text n : String) : ({ p with getter := some text } : Property).accessor? n =
    if n = "get" then some text else p.accessor? n := by
  unfold accessor?
  split <;> rfl

theorem accessor?_setter (p : Property) (text n : String) : ({ p with setter := some text } : Property).accessor? n =
    if n = "set" then some text else p.accessor? n := by
  unfold accessor?
  by_cases hget : n = "get"
  · subst hget
    rfl
  · simp only [if_neg hget]
    split <;> rfl

/-- The property `q'` is `p` with an accessor of this name that was not there. -/
theorem withAccessor_eq_some_iff {p q q' : Property} {name text : String} {value : ElementValue}
    (hname : name = "get" ∨ name = "set") (htext : value.text? = some text)
    (hq' : ∀ n, q'.accessor? n = if n = name then some text else p.accessor? n) :
    (if (p.accessor? name).isNone = true then some q' else none) = some q ↔
      (name = "get" ∨ name = "set") ∧ p.accessor? name = none ∧
        ∃ text, value.text? = some text ∧ ∀ n, q.accessor? n = if n = name then some text else p.accessor? n := by
  rw [Option.ite_none_right_eq_some, Option.isNone_iff_eq_none]
  constructor
  · intro ⟨hnone, hq⟩
    exact ⟨hname, hnone, text, htext, fun n => Option.some.inj hq ▸ hq' n⟩
  · rintro ⟨-, hnone, text', htext', hq⟩
    obtain rfl := Option.some.inj (htext.symm.trans htext')
    exact ⟨hnone, congrArg some (ext_accessor fun n => (hq' n).trans (hq n).symm)⟩

/-- One more element is the accessor of its name, which was not there. -/
theorem withElement?_eq_some_iff {p q : Property} {name : String} {value : ElementValue} :
    p.withElement? name value = some q ↔ (name = "get" ∨ name = "set") ∧ p.accessor? name = none ∧
      ∃ text, value.text? = some text ∧ ∀ n, q.accessor? n = if n = name then some text else p.accessor? n := by
  unfold withElement?
  split
  · rename_i text htext
    exact withAccessor_eq_some_iff (.inl rfl) htext (p.accessor?_getter text)
  · rename_i text htext
    exact withAccessor_eq_some_iff (.inr rfl) htext (p.accessor?_setter text)
  · rename_i hget hset
    refine iff_of_false (fun h => nomatch h) fun ⟨hname, _, text, htext, _⟩ => ?_
    rcases hname with rfl | rfl
    · exact hget text rfl htext
    · exact hset text rfl htext

/-- The element of each name is found at the first place; from `p` on, it is not looked for where there is
    an accessor already. -/
theorem foldlM_withElement?_eq_some_iff (type : String) {es : List (String × ElementValue)} {p q : Property} :
    es.foldlM (fun p (name, value) => p.withElement? name value) p = some q ↔
      (∀ e ∈ es, (e.1 = "get" ∨ e.1 = "set") ∧ e.2.text?.isSome = true ∧ p.accessor? e.1 = none) ∧
      (es.map Prod.fst).Nodup ∧
      ∀ n, q.accessor? n = (p.accessor? n).or ((⟨type, es⟩ : Annotation).textAt n) := by
  induction es generalizing p with
  | nil =>
    have hnone (n : String) : Annotation.textAt ⟨type, []⟩ n = none := rfl
    simp only [List.foldlM_nil, hnone, Option.or_none]
    constructor
    · intro h
      cases h
      exact ⟨List.forall_mem_nil _, List.nodup_nil, fun _ => rfl⟩
    · rintro ⟨-, -, h⟩
      exact congrArg some (ext_accessor fun n => (h n).symm)
  | cons e es ih =>
    obtain ⟨name, value⟩ := e
    have hhead := Annotation.textAt_cons type name value es
    have hmerge {p' : Property} {text : String} (hnone : p.accessor? name = none) (htext : value.text? = some text)
        (hp' : ∀ n, p'.accessor? n = if n = name then some text else p.accessor? n) (n : String) :
        (p'.accessor? n).or ((⟨type, es⟩ : Annotation).textAt n) =
          (p.accessor? n).or (if n = name then value.text? else Annotation.textAt ⟨type, es⟩ n) := by
      rw [hp']
      split
      · rename_i heq
        rw [heq, hnone, htext]
        rfl
      · rfl
    simp only [List.foldlM_cons, Option.bind_eq_bind, Option.bind_eq_some_iff, withElement?_eq_some_iff, ih,
      List.forall_mem_cons, List.map_cons, List.nodup_cons, hhead]
    constructor
    · rintro ⟨p', ⟨hname, hnone, text, htext, hp'⟩, hes, hnodup, hq⟩
      have hother {n : String} (h : p'.accessor? n = none) : n ≠ name ∧ p.accessor? n = none := by
        rw [hp'] at h
        split at h
        · cases h
        · exact ⟨‹_›, h⟩
      refine ⟨⟨⟨hname, by rw [htext]; rfl, hnone⟩, fun e he => ?_⟩, ⟨fun hmem => ?_, hnodup⟩, fun n => ?_⟩
      · exact ⟨(hes e he).1, (hes e he).2.1, (hother (hes e he).2.2).2⟩
      · obtain ⟨e, he, heq⟩ := List.mem_map.mp hmem
        exact (hother (hes e he).2.2).1 heq
      · rw [hq, hmerge hnone htext hp']
    · rintro ⟨⟨⟨hname, htext, hnone⟩, hes⟩, ⟨hnew, hnodup⟩, hq⟩
      obtain ⟨text, htext⟩ := Option.isSome_iff_exists.mp htext
      obtain ⟨p', hp'⟩ : ∃ p' : Property, ∀ n, p'.accessor? n = if n = name then some text else p.accessor? n := by
        rcases hname with rfl | rfl
        · exact ⟨_, p.accessor?_getter text⟩
        · exact ⟨_, p.accessor?_setter text⟩
      refine ⟨p', ⟨hname, hnone, text, htext, hp'⟩, fun e he => ⟨(hes e he).1, (hes e he).2.1, ?_⟩, hnodup, fun n => ?_⟩
      · rw [hp', if_neg fun heq => hnew (List.mem_map.mpr ⟨e, he, heq⟩)]
        exact (hes e he).2.2
      · rw [hq, hmerge hnone htext hp']

/-- The property is put together exactly from a usable annotation. -/
theorem ofAnnotation?_eq_some_iff {a : Annotation} {p : Property} : ofAnnotation? a = some p ↔ a.Describes p := by
  have hnone (n : String) : (⟨none, none⟩ : Property).accessor? n = none := by
    unfold accessor?
    split
    · rfl
    · split <;> rfl
  unfold ofAnnotation?
  rw [foldlM_withElement?_eq_some_iff a.type]
  simp only [hnone, Option.none_or]
  constructor
  · intro ⟨helements, hnodup, haccessors⟩
    have husable : a.IsUsable :=
      ⟨fun e he => (helements e he).1, fun e he => (helements e he).2.1, hnodup⟩
    exact ⟨husable, haccessors "get", haccessors "set"⟩
  · intro ⟨⟨hnames, htexts, hnodup⟩, hgetter, hsetter⟩
    refine ⟨fun e he => ⟨hnames e he, htexts e he, trivial⟩, hnodup, fun n => ?_⟩
    unfold accessor?
    split
    · rename_i heq
      rw [heq, hgetter]
    · split
      · rename_i heq
        rw [heq, hsetter]
      · rename_i hget hset
        have hneither : ∀ e ∈ a.elements, e.1 ≠ n := by
          intro e he heq
          rcases hnames e he with hname | hname
          · exact hget (heq.symm.trans hname)
          · exact hset (heq.symm.trans hname)
        rw [a.textAt_eq_none hneither]

end Property

/-! ## One annotation after the other -/

/-- The property annotations among others, in order. -/
def propertyAnnotations (as : List Annotation) : List Annotation := as.filter (·.type = propertyMarker)

theorem propertyAnnotations_cons (a : Annotation) (as : List Annotation) : propertyAnnotations (a :: as) =
    if a.type = propertyMarker then a :: propertyAnnotations as else propertyAnnotations as := by
  simp only [propertyAnnotations, List.filter_cons, decide_eq_true_eq]

theorem propertyAnnotations_append (as bs : List Annotation) :
    propertyAnnotations (as ++ bs) = propertyAnnotations as ++ propertyAnnotations bs := List.filter_append as bs

namespace Property

/-- One more property annotation: a field keeps the property that it has. -/
def settled (o : Option Property) (a : Annotation) : Option Property := o.or (ofAnnotation? a)

/-- What one more property annotation is warned of. -/
def complaints (cls member : String) (o : Option Property) (a : Annotation) : List Warning :=
  if o.isSome then [.duplicateProperty cls member]
  else if (ofAnnotation? a).isSome then []
  else [.malformedProperty cls member]

/-- Of these property annotations the first usable one gives the property. Those before it, or all if there is
    none, are malformed, and those after it duplicates. -/
inductive IsChosen (cls member : String) : List Annotation → Option Property → List Warning → Prop
  | none {as : List Annotation} (malformed : ∀ a ∈ as, ¬a.IsUsable) :
      IsChosen cls member as none (as.map fun _ => .malformedProperty cls member)
  | some {before after : List Annotation} {a : Annotation} {p : Property} (malformed : ∀ b ∈ before, ¬b.IsUsable)
      (describes : a.Describes p) :
      IsChosen cls member (before ++ a :: after) (some p)
        (before.map (fun _ => .malformedProperty cls member) ++ after.map fun _ => .duplicateProperty cls member)

/-- Once there is a property, all further annotations are duplicates. -/
theorem settled_some (cls member : String) (p : Property) (as : List Annotation) :
    as.foldl settled (some p) = some p ∧ Build.warningsOf settled (complaints cls member) (some p) as =
      as.map fun _ => .duplicateProperty cls member := by
  induction as with
  | nil => exact ⟨rfl, rfl⟩
  | cons a as ih =>
    obtain ⟨hproperty, hwarnings⟩ := ih
    refine ⟨hproperty, ?_⟩
    rw [Build.warningsOf, List.map_cons]
    exact congrArg (_ :: ·) hwarnings

theorem isChosen_settled (cls member : String) (as : List Annotation) : IsChosen cls member as
    (as.foldl settled none) (Build.warningsOf settled (complaints cls member) none as) := by
  induction as with
  | nil => exact .none (List.forall_mem_nil _)
  | cons a as ih =>
    rw [List.foldl_cons, Build.warningsOf, settled, complaints, Option.none_or]
    cases hread : ofAnnotation? a with
    | some p =>
      obtain ⟨hproperty, hwarnings⟩ := settled_some cls member p as
      rw [hproperty, hwarnings]
      exact @IsChosen.some cls member [] as a p (List.forall_mem_nil _) (ofAnnotation?_eq_some_iff.mp hread)
    | none =>
      have hmalformed : ¬a.IsUsable := by
        intro husable
        obtain ⟨p, hp⟩ := Annotation.isUsable_iff.mp husable
        cases hread.symm.trans (ofAnnotation?_eq_some_iff.mpr hp)
      generalize as.foldl settled none = o at ih
      generalize Build.warningsOf settled (complaints cls member) none as = ws at ih
      cases ih with
      | none malformed => exact .none (List.forall_mem_cons.mpr ⟨hmalformed, malformed⟩)
      | @some before after a' p malformed describes =>
        have hbefore : ∀ b ∈ a :: before, ¬b.IsUsable := List.forall_mem_cons.mpr ⟨hmalformed, malformed⟩
        exact @IsChosen.some cls member (a :: before) after a' p hbefore describes

end Property

/-! ## Fields -/

namespace Field

variable {p : Pool T F M} {cls : DeclaringClass}

/-- The field with an invisible annotation. -/
def annotated (cls : DeclaringClass) (f : Field) (a : Annotation) : Field :=
  if a.type = internalMarker ∧ cls.options.staticCompiler = true then { f with member := f.member.hide }
  else if a.type = propertyMarker then { f with property := Property.settled f.property a }
  else f

/-- What an invisible annotation is warned of. -/
def complaints (cls : DeclaringClass) (f : Field) (a : Annotation) : List Warning :=
  if a.type = propertyMarker then Property.complaints cls.name f.member.name f.property a else []

theorem withInvisible_apply (cls : DeclaringClass) (f : Field) (a : Annotation) (s : BuildState T F M) :
    f.withInvisible cls a s =
      .ok (f.annotated cls a) { s with warnings := s.warnings ++ (f.complaints cls a).toArray } := by
  have hmarkers : internalMarker ≠ propertyMarker := by decide
  unfold withInvisible annotated complaints
  by_cases hhides : a.type = internalMarker ∧ cls.options.staticCompiler = true
  · have hother : a.type ≠ propertyMarker := fun h => hmarkers (hhides.1.symm.trans h)
    simp only [if_pos hhides, if_neg hother]
    rfl
  · simp only [if_neg hhides]
    by_cases hproperty : a.type = propertyMarker
    · simp only [if_pos hproperty, Property.settled, Property.complaints]
      obtain ⟨member, constant, property⟩ := f
      cases property with
      | some p => rfl
      | none => cases Property.ofAnnotation? a <;> rfl
    · simp only [if_neg hproperty]
      rfl

/-- Of all annotations only those for properties tell of the property, and are warned of. -/
theorem foldl_annotated (cls : DeclaringClass) (as : List Annotation) (f : Field) :
    (as.foldl (annotated cls) f).member.name = f.member.name ∧
      (as.foldl (annotated cls) f).property = (propertyAnnotations as).foldl Property.settled f.property ∧
      Build.warningsOf (annotated cls) (complaints cls) f as =
        Build.warningsOf Property.settled (Property.complaints cls.name f.member.name) f.property
          (propertyAnnotations as) := by
  induction as generalizing f with
  | nil => exact ⟨rfl, rfl, rfl⟩
  | cons a as ih =>
    obtain ⟨hname, hproperty, hwarnings⟩ := ih (f.annotated cls a)
    have hsame : (f.annotated cls a).member.name = f.member.name := by
      unfold annotated
      split_ifs <;> rfl
    rw [List.foldl_cons, Build.warningsOf, hname, hproperty, hwarnings, hsame]
    by_cases htells : a.type = propertyMarker
    · have hkept : ¬(a.type = internalMarker ∧ cls.options.staticCompiler = true) := by
        rw [htells]
        exact fun h => absurd h.1 (by decide)
      have hnow : (f.annotated cls a).property = Property.settled f.property a := by
        rw [annotated, if_neg hkept, if_pos htells]
      rw [propertyAnnotations_cons, if_pos htells, List.foldl_cons, Build.warningsOf, hnow, complaints, if_pos htells]
      exact ⟨rfl, rfl, rfl⟩
    · have hnow : (f.annotated cls a).property = f.property := by
        unfold annotated
        rw [if_neg htells]
        split <;> rfl
      rw [propertyAnnotations_cons, if_neg htells, hnow, complaints, if_neg htells]
      exact ⟨rfl, rfl, rfl⟩

/-- What one more attribute makes of a field, and what it is warned of. -/
inductive AttributeStep (p : Pool T F M) (cls : DeclaringClass) (f : Field) (a : Attribute) :
    Field → List Warning → Prop
  | invisible {as : List Annotation} (kind : a.IsKind p cls.version .invisibleAnnotations)
      (read : Read.run p.elementConstants.readAnnotations a.info = .ok as) :
      AttributeStep p cls f a (as.foldl (annotated cls) f) (Build.warningsOf (annotated cls) (complaints cls) f as)
  | other {k : AttributeKind} {f' : Field} (kind : a.IsKind p cls.version k) (hinvisible : k ≠ .invisibleAnnotations)
      (fills : slots.Fills k f f') : AttributeStep p cls f a f' []

theorem reports_withAttribute (cls : DeclaringClass) (f : Field) (a : Attribute) :
    Reports p (f.withAttribute cls a) (f.AttributeStep p cls a) := by
  refine (keptApart cls).reports rfl fun kind s f' s' hs hkind hfills hrest => ?_
  by_cases hinvisible : kind = .invisibleAnnotations
  · subst hinvisible
    obtain ⟨_, _, hmember, hrest⟩ := Build.bind_eq_ok.mp hrest
    obtain ⟨rfl, rfl⟩ := Build.pure_eq_ok.mp hmember
    obtain ⟨as, _, hannotations, hrest⟩ := Build.bind_eq_ok.mp hrest
    obtain ⟨hread, rfl⟩ := Build.annotations_eq_ok.mp hannotations
    rw [Pool.elementConstants_of_frozen hs] at hread
    rw [Build.foldlM_apply (withInvisible_apply cls)] at hrest
    cases hrest
    exact ⟨_, Array.toList_append, .invisible hkind hread⟩
  · have hsilent : s'.warnings = s.warnings := by
      refine (Member.silent_withAttribute? f.member kind a.info).bind (fun member => ?_) _ _ _ hrest
      split
      · exact .pure _
      split
      · refine (Silent.singleIndex _ _).bind fun _ => Silent.pool.bind fun _ => (Silent.ofExcept _).bind fun _ => ?_
        exact .pure _
      · contradiction
      · exact .pure _
    exact ⟨[], by rw [hsilent, List.append_nil], .other hkind hinvisible hfills⟩

/-- Only invisible annotations tell of the property, and nothing of the name. -/
theorem property_of_fills {k : AttributeKind} {f f' : Field} (h : slots.Fills k f f') (hk : k ≠ .invisibleAnnotations) :
    f'.member.name = f.member.name ∧ f'.property = f.property :=
  ⟨(Member.of_part_unknown (congrArg Field.member h.part_unknown)).1,
    by simpa [slots, part] using congrArg Field.property (h.other .invisibleAnnotations hk.symm)⟩

/-- All lists of invisible annotations are taken in as one. -/
theorem invisible_of_steps {f f' : Field} {l : List Attribute} {ws : List Warning}
    (h : Steps (AttributeStep p cls) f l f' ws) : ∃ lists,
      annotationLists p cls.version .invisibleAnnotations l = .ok lists ∧ f'.member.name = f.member.name ∧
      f'.property = (propertyAnnotations lists.flatten).foldl Property.settled f.property ∧
      ws = Build.warningsOf Property.settled (Property.complaints cls.name f.member.name) f.property
        (propertyAnnotations lists.flatten) := by
  induction h with
  | nil f => exact ⟨[], rfl, rfl, rfl, rfl⟩
  | @cons f m f' a l ws ws' head _ ih =>
    obtain ⟨lists, hlists, hname, hproperty, rfl⟩ := ih
    cases head with
    | @invisible as kind read =>
      obtain ⟨hname', hproperty', hwarnings⟩ := foldl_annotated cls as f
      refine ⟨as :: lists, annotationLists_cons kind read hlists, hname.trans hname', ?_, ?_⟩
      · rw [List.flatten_cons, propertyAnnotations_append, List.foldl_append, hproperty, hproperty']
      · rw [List.flatten_cons, propertyAnnotations_append, Build.warningsOf_append, hwarnings, hname', hproperty']
    | other kind hinvisible fills =>
      obtain ⟨hname', hproperty'⟩ := property_of_fills fills hinvisible
      refine ⟨lists, (annotationLists_cons_of_ne kind hinvisible).trans hlists, hname.trans hname', ?_, ?_⟩
      · rw [hproperty, hproperty']
      · rw [hname', hproperty', List.nil_append]

theorem reports_build (cls : DeclaringClass) (info : MemberInfo) : Reports p (build cls info) fun f ws => ∃ lists,
    annotationLists p cls.version .invisibleAnnotations info.attributes = .ok lists ∧
      Property.IsChosen cls.name f.member.name (propertyAnnotations lists.flatten) f.property ws := by
  unfold build
  refine .after_silent (Silent.text _) (Build.ensures_text p _) fun name _ => ?_
  refine .after_silent (Silent.text _) (Build.ensures_text p _) fun descriptor _ => ?_
  refine .check (.check (.check ?_))
  refine (Reports.foldlM (p := p) (reports_withAttribute cls) info.attributes _).mono fun f ws h => ?_
  obtain ⟨lists, hlists, hname, hproperty, rfl⟩ := invisible_of_steps h
  exact ⟨lists, hlists, by rw [hname, hproperty]; exact Property.isChosen_settled _ _ _⟩

/-! ## Fields without annotations -/

/-- A list of invisible annotations that can be read is taken in without fail. -/
theorem answers_withAttribute (cls : DeclaringClass) {a : Attribute} {as : List Annotation}
    (hkind : a.IsKind p cls.version .invisibleAnnotations)
    (hread : Read.run p.elementConstants.readAnnotations a.info = .ok as) (f : Field) :
    Answers p (f.withAttribute cls a) (as.foldl (annotated cls) f) [] := by
  refine ⟨fun _ h => (nomatch h), fun s hs => ?_⟩
  have hkind' := (Attribute.isKind_of_frozen hs).mpr hkind
  have hread' : Read.run s.pool.elementConstants.readAnnotations a.info = .ok as := by
    rwa [Pool.elementConstants_of_frozen hs]
  have hok : f.withAttribute cls a s = .ok (as.foldl (annotated cls) f)
      { s with warnings := s.warnings ++ (Build.warningsOf (annotated cls) (complaints cls) f as).toArray } := by
    refine Build.bind_eq_ok.mpr ⟨_, s, Build.kindOf_eq_ok.mpr ⟨hkind', rfl⟩, ?_⟩
    refine Build.bind_eq_ok.mpr ⟨none, s, rfl, ?_⟩
    refine Build.bind_eq_ok.mpr ⟨as, s, Build.annotations_eq_ok.mpr ⟨hread', rfl⟩, ?_⟩
    exact Build.foldlM_apply (withInvisible_apply cls) as f s
  exact ⟨_, hok, rfl⟩

end Field

/-- The entry of the member without its attributes of the kind. -/
def MemberInfo.without (p : Pool T F M) (version : Version) (kind : AttributeKind) (info : MemberInfo) : MemberInfo :=
  { info with
    attributes := info.attributes.filter fun a => (p.text? a.name).map (.classify · version) ≠ some kind }

theorem Field.alike_build_without (cls : DeclaringClass) {info : MemberInfo} {lists : List (List Annotation)}
    (hlists : annotationLists p cls.version .invisibleAnnotations info.attributes = .ok lists) :
    Alike p (slots.SameBut .invisibleAnnotations) (build cls info)
      (build cls (info.without p cls.version .invisibleAnnotations)) := by
  unfold build
  refine (Alike.text _).bind fun name _ h => h ▸ (Alike.text _).bind fun descriptor _ h => h ▸ ?_
  refine .check fun _ => .check fun _ => .check fun _ => ?_
  refine (keptApart cls).foldlM_filter (by decide) (fun a => ?_) (fun a ha hkind f => ?_) fun _ _ => rfl
  · simp [Attribute.isKind_iff]
  · obtain ⟨as, hread⟩ := read_of_annotationLists hlists ha hkind
    exact ⟨_, answers_withAttribute cls hkind hread f⟩

/-- A field has the property of the first usable annotation for one, in all its lists of invisible annotations
    together, and is warned of all such annotations before and after it. These lists do not make it fail: it is
    built if and only if it would be built without them. -/
theorem property_is_first_usable (cls : DeclaringClass) (info : MemberInfo) (s : BuildState T F M)
    {lists : List (List Annotation)}
    (hlists : annotationLists s.pool cls.version .invisibleAnnotations info.attributes = .ok lists) :
    (∀ f s', Field.build cls info s = .ok f s' → ∃ ws, s'.warnings.toList = s.warnings.toList ++ ws ∧
      Property.IsChosen cls.name f.member.name (propertyAnnotations lists.flatten) f.property ws) ∧
    ((∃ f s', Field.build cls info s = .ok f s') ↔
      ∃ f s', Field.build cls (info.without s.pool cls.version .invisibleAnnotations) s = .ok f s') := by
  refine ⟨fun f s' h => ?_, (Field.alike_build_without cls hlists).succeeds_iff rfl⟩
  obtain ⟨-, ws, hws, lists', hlists', hchosen⟩ := Field.reports_build cls info s f s' rfl h
  cases hlists.symm.trans hlists'
  exact ⟨ws, hws, hchosen⟩

namespace LateProperty

/-- The texts that the field and its annotations are written with. -/
def pool : Pool Nat Nat Nat :=
  ⟨#[.vacant, .text "x" false, .text "I" false, .text "RuntimeInvisibleAnnotations" false, .text propertyMarker false,
    .text "get" false, .text "getX" false]⟩

/-- Three annotations for a property in two lists: one that names its getter twice, one that names it once,
    and one without elements. -/
def info : MemberInfo where
  access := 2
  name := 1
  descriptor := 2
  attributes := [⟨3, [0, 1, 0, 4, 0, 2, 0, 5, 0x73, 0, 6, 0, 5, 0x73, 0, 6]⟩,
    ⟨3, [0, 2, 0, 4, 0, 1, 0, 5, 0x73, 0, 6, 0, 4, 0, 0]⟩]

def cls : DeclaringClass := ⟨"p/A", ⟨52, 0⟩, false, {}⟩

/-- The property of the field and the warnings, or nothing if it cannot be built. -/
def outcome : Option (Option Property × List Warning) :=
  match Field.build cls info ⟨pool, #[]⟩ with
  | .ok f s => some (f.property, s.warnings.toList)
  | .error _ _ => none

end LateProperty

open LateProperty in
/-- The second annotation is the first usable one, even if the first one has a getter already when it fails. -/
theorem property_is_first_usable_late : ∃ (lists : List (List Annotation)) (f : Field) (s : BuildState Nat Nat Nat),
    annotationLists pool ⟨52, 0⟩ .invisibleAnnotations info.attributes = .ok lists ∧ lists.map List.length = [1, 2] ∧
    Field.build cls info ⟨pool, #[]⟩ = .ok f s ∧ f.property = some ⟨some "getX", none⟩ ∧
    s.warnings.toList = [.malformedProperty "p/A" "x", .duplicateProperty "p/A" "x"] ∧
    Property.IsChosen "p/A" f.member.name (propertyAnnotations lists.flatten) f.property s.warnings.toList := by
  have hlists : ((annotationLists pool ⟨52, 0⟩ .invisibleAnnotations info.attributes).toOption.map
      (List.map List.length)) = some [1, 2] := by decide +kernel
  obtain ⟨lists, hlists, hlengths⟩ := Option.map_eq_some_iff.mp hlists
  rw [Except.toOption_eq_some_iff] at hlists
  obtain ⟨hchosen, hbuilt⟩ := property_is_first_usable cls info ⟨pool, #[]⟩ hlists
  have hbare : ∃ f s, Field.build cls (info.without pool ⟨52, 0⟩ .invisibleAnnotations) ⟨pool, #[]⟩ = .ok f s :=
    ⟨_, _, rfl⟩
  have houtcome : outcome =
      some (some ⟨some "getX", none⟩, [.malformedProperty "p/A" "x", .duplicateProperty "p/A" "x"]) := by decide +kernel
  obtain ⟨f, s, hok⟩ := hbuilt.mpr hbare
  obtain ⟨ws, hws, hchosen⟩ := hchosen f s hok
  rw [outcome, hok, Option.some.injEq, Prod.mk.injEq] at houtcome
  obtain ⟨hproperty, hwarnings⟩ := houtcome
  obtain rfl : s.warnings.toList = ws := hws
  exact ⟨lists, f, s, hlists, hlengths, hok, hproperty, hwarnings, hchosen⟩

end JvmClass
