/-
  JvmClass.Proofs.Class.NewerAttributes — attributes of newer versions are passed over.

  Some kinds of attributes exist from a certain version on (`AttributeKind.introduced`). In an older class
  file an attribute of such a kind (`Attribute.IsNewer`) is read no further than its name: each of the
  three readers, of classes, fields and methods, leaves the state and what it has built so far as they
  are (`ClassAttributes.withAttribute_of_isNewer` and its like), whatever the payload.
  So two files of which one has other payloads there, or lacks some of these attributes
  (`ClassFile.Altered`), run alike from each state on (`Build.Same`), and none of the steps changes what
  the names of attributes are.
  - `newer_attributes_are_inert`: they have the same outcome, warnings included.
-/

import JvmClass.Proofs.Bytecode.CodeLayout
import JvmClass.Proofs.Class.AttributeOrder

namespace JvmClass

variable {T F M α β : Type}

/-! ## Attributes of newer versions -/

namespace AttributeKind

/-- The names of the kinds that did not exist from the start, with the major versions that brought them. -/
def introduced : List (String × UInt16) :=
  [("AnnotationDefault", 49), ("EnclosingMethod", 49), ("RuntimeInvisibleAnnotations", 49),
    ("RuntimeVisibleAnnotations", 49), ("RuntimeVisibleParameterAnnotations", 49), ("Signature", 49),
    ("BootstrapMethods", 51), ("MethodParameters", 52), ("RuntimeVisibleTypeAnnotations", 52)]

/-- The kinds that a class file cannot have are those of newer versions. -/
theorem isDefinedIn_eq_false_iff {name : String} {version : Version} :
    (ofName name).isDefinedIn version = false ↔ ∃ since, (name, since) ∈ introduced ∧ version.major < since := by
  have hnamed : ∀ e ∈ named, e.2.isDefinedIn version = false →
      ∃ since, (e.1, since) ∈ introduced ∧ version.major < since := by
    simp [named, introduced, isDefinedIn, Version.hasJava5Features, Version.hasJava7Features,
      Version.hasJava8Features]
  have hintroduced : ∀ e ∈ introduced, version.major < e.2 → (ofName e.1).isDefinedIn version = false := by
    simp [named, introduced, ofName, List.lookup_cons, isDefinedIn, Version.hasJava5Features, Version.hasJava7Features,
      Version.hasJava8Features]
  constructor
  · intro h
    have hkind : ofName name ≠ .unknown := by
      intro hunknown
      rw [hunknown] at h
      cases h
    exact hnamed _ (mem_named rfl hkind) h
  · intro h
    obtain ⟨since, hsince, hversion⟩ := h
    exact hintroduced _ hsince hversion

end AttributeKind

/-- The pool names it for a kind that class files of the version cannot have. -/
def Attribute.IsNewer (p : Pool T F M) (version : Version) (a : Attribute) : Prop :=
  ∃ name since, p.text a.name = .ok name ∧ (name, since) ∈ AttributeKind.introduced ∧ version.major < since

theorem Attribute.IsNewer.of_frozen {p q : Pool T F M} {version : Version} {a : Attribute}
    (h : a.IsNewer p version) (hfrozen : q.frozen = p.frozen) : a.IsNewer q version := by
  obtain ⟨name, since, hname, hsince⟩ := h
  exact ⟨name, since, (Pool.text_of_frozen hfrozen _).trans hname, hsince⟩

/-! ## Altered files -/

/-- Some attributes of newer versions have other payloads, some are left out; all others are the same. -/
inductive AlteredAttributes (p : Pool T F M) (version : Version) : List Attribute → List Attribute → Prop
  | nil : AlteredAttributes p version [] []
  | keep {l l' : List Attribute} (a : Attribute) :
      AlteredAttributes p version l l' → AlteredAttributes p version (a :: l) (a :: l')
  | replace {l l' : List Attribute} {a : Attribute} (info : List UInt8) : a.IsNewer p version →
      AlteredAttributes p version l l' → AlteredAttributes p version (a :: l) ({ a with info } :: l')
  | remove {l l' : List Attribute} {a : Attribute} : a.IsNewer p version →
      AlteredAttributes p version l l' → AlteredAttributes p version (a :: l) l'

structure MemberInfo.Altered (p : Pool T F M) (version : Version) (m m' : MemberInfo) : Prop where
  access : m'.access = m.access
  name : m'.name = m.name
  descriptor : m'.descriptor = m.descriptor
  attributes : AlteredAttributes p version m.attributes m'.attributes

/-- The attributes of the class, its fields and its methods are altered, each among themselves. -/
structure ClassFile.Altered (p : Pool T F M) (file file' : ClassFile) : Prop where
  fields : List.Forall₂ (MemberInfo.Altered p file.version) file.fields file'.fields
  methods : List.Forall₂ (MemberInfo.Altered p file.version) file.methods file'.methods
  attributes : AlteredAttributes p file.version file.attributes file'.attributes

/-! ## Runs that are the same -/

namespace Build

/-- From each state whose pool is like `p` the runs are the same: answer, fault, pool and warnings. -/
def Same (p : Pool T F M) (x y : Build T F M α) : Prop := ∀ s, s.pool.frozen = p.frozen → x s = y s

/-- Nothing is done from a state whose pool is like `p`. -/
def Skips (p : Pool T F M) (x : Build T F M α) (a : α) : Prop := ∀ s, s.pool.frozen = p.frozen → x s = .ok a s

variable {p : Pool T F M}

theorem Skips.bind {x : Build T F M α} {a : α} (h : Skips p x a) (f : α → Build T F M β) : Same p (x >>= f) (f a) := by
  intro s hs
  show EStateM.bind x f s = f a s
  rw [EStateM.bind, h s hs]

namespace Same

theorem refl (x : Build T F M α) : Same p x x := fun _ _ => rfl

theorem symm {x y : Build T F M α} (h : Same p x y) : Same p y x := fun s hs => (h s hs).symm

theorem trans {x y z : Build T F M α} (h : Same p x y) (h' : Same p y z) : Same p x z :=
  fun s hs => (h s hs).trans (h' s hs)

theorem bind {x y : Build T F M α} {f g : α → Build T F M β} {P : α → Prop} (hx : Same p x y) (hkeeps : Ensures p x P)
    (hf : ∀ a, P a → Same p (f a) (g a)) : Same p (x >>= f) (y >>= g) := by
  intro s hs
  show EStateM.bind x f s = EStateM.bind y g s
  unfold EStateM.bind
  rw [← hx s hs]
  cases hrun : x s with
  | ok a s' =>
    obtain ⟨ha, hs'⟩ := hkeeps s a s' hs hrun
    exact hf a ha s' hs'
  | error fault s' => rfl

theorem check {c : Prop} [Decidable c] {fault : FormatFault} {f : α → Build T F M β} {x y : Build T F M β}
    (h : Same p x y) : Same p (if c then MonadExcept.throw fault >>= f else x)
      (if c then MonadExcept.throw fault >>= f else y) := by
  by_cases hc : c
  · rw [if_pos hc, if_pos hc]
    exact refl _
  · rw [if_neg hc, if_neg hc]
    exact h

theorem mapM {R : α → α → Prop} {f : α → Build T F M β} (hf : ∀ a a', R a a' → Same p (f a) (f a'))
    (hkeeps : ∀ a, Ensures p (f a) fun _ => True) {l l' : List α} (h : List.Forall₂ R l l') :
    Same p (l.mapM f) (l'.mapM f) := by
  induction h with
  | nil => exact refl _
  | cons ha _ ih =>
    rw [List.mapM_cons, List.mapM_cons]
    exact (hf _ _ ha).bind (hkeeps _) fun b _ => ih.bind (.mapM hkeeps _) fun bs _ => refl _

/-- A reader that passes over attributes of newer versions, on all attributes of one place. -/
theorem foldlM_altered {version : Version} {f : β → Attribute → Build T F M β}
    (hskips : ∀ b a, a.IsNewer p version → Skips p (f b a) b) (hkeeps : ∀ b a, Ensures p (f b a) fun _ => True)
    {l l' : List Attribute} (h : AlteredAttributes p version l l') (b : β) :
    Same p (l.foldlM f b) (l'.foldlM f b) := by
  induction h generalizing b with
  | nil => exact refl _
  | keep a _ ih => exact (refl (f b a)).bind (hkeeps b a) fun b' _ => ih b'
  | @replace l l' a info hnewer _ ih =>
    have hother : Skips p (f b { a with info }) b := hskips b { a with info } hnewer
    exact ((hskips b a hnewer).bind _).trans ((ih b).trans (hother.bind fun b' => l'.foldlM f b').symm)
  | remove hnewer _ ih => exact ((hskips b _ hnewer).bind _).trans (ih b)

end Same

end Build

/-! ## The three readers -/

open Build (Same Skips Quiet)

variable {p : Pool T F M}

theorem Build.kindOf_of_isNewer {version : Version} {a : Attribute} (h : a.IsNewer p version) :
    Skips p (kindOf version a) .unknown := by
  intro s hs
  obtain ⟨name, since, hname, hsince⟩ := h.of_frozen hs
  have hundefined := AttributeKind.isDefinedIn_eq_false_iff.mpr ⟨since, hsince⟩
  exact kindOf_eq_ok.mpr ⟨⟨name, hname, by simp [AttributeKind.classify, hundefined]⟩, rfl⟩

theorem Field.withAttribute_of_isNewer (cls : DeclaringClass) (f : Field) {a : Attribute}
    (h : a.IsNewer p cls.version) : Skips p (f.withAttribute cls a) f :=
  (Build.kindOf_of_isNewer h).bind _

theorem Method.withAttribute_of_isNewer (cls : DeclaringClass) (m : Method) {a : Attribute}
    (h : a.IsNewer p cls.version) : Skips p (m.withAttribute cls a) m :=
  (Build.kindOf_of_isNewer h).bind _

theorem ClassAttributes.withAttribute_of_isNewer {version : Version} (options : Options) (c : ClassAttributes)
    {a : Attribute} (h : a.IsNewer p version) : Skips p (c.withAttribute version options a) c :=
  (Build.kindOf_of_isNewer h).bind _

/-! ## Building -/

theorem Field.same_build {cls : DeclaringClass} {info info' : MemberInfo} (h : info.Altered p cls.version info') :
    Same p (build cls info) (build cls info') := by
  unfold build
  rw [h.access, h.name, h.descriptor]
  refine (Same.refl _).bind (Quiet.text _).ensures fun name _ => ?_
  refine (Same.refl _).bind (Quiet.text _).ensures fun descriptor _ => ?_
  refine .check (.check (.check ?_))
  exact .foldlM_altered (fun f _ => withAttribute_of_isNewer cls f) (fun f a => (quiet_withAttribute cls f a).ensures)
    h.attributes _

theorem Method.same_build {cls : DeclaringClass} {info info' : MemberInfo} (h : info.Altered p cls.version info') :
    Same p (build cls info) (build cls info') := by
  unfold build
  rw [h.access, h.name, h.descriptor]
  refine (Same.refl _).bind (Quiet.text _).ensures fun name _ => ?_
  refine (Same.refl _).bind (Quiet.text _).ensures fun written _ => ?_
  refine (Same.refl _).bind (Quiet.ofExcept _).ensures fun _ _ => ?_
  dsimp only
  split
  · exact .refl _
  · have hkeeps (m : Method) (a : Attribute) : Build.Ensures p (m.withAttribute cls a) fun _ => True :=
      (marks_withAttribute cls m a).ensures
    refine (Same.foldlM_altered (fun m _ => withAttribute_of_isNewer cls m) hkeeps h.attributes _).bind
      (.foldlM (fun m a _ => hkeeps m a) _ trivial) fun m _ => .refl _

theorem ClassAttributes.same_build {version : Version} (options : Options) {attributes attributes' : List Attribute}
    (h : AlteredAttributes p version attributes attributes') :
    Same p (build version options attributes) (build version options attributes') :=
  .foldlM_altered (fun c _ => withAttribute_of_isNewer options c)
    (fun c a => (marks_withAttribute version options c a).ensures) h {}

namespace Class

variable {file file' : ClassFile}

theorem same_buildFields (cls : DeclaringClass) (hversion : cls.version = file.version) (h : file.Altered p file') :
    Same p (buildFields cls file) (buildFields cls file') := by
  have hfields : List.Forall₂ (MemberInfo.Altered p cls.version) file.fields file'.fields := hversion ▸ h.fields
  have hone (info info' : MemberInfo) (h : info.Altered p cls.version info') :
      Same p (Field.build cls info) (Field.build cls info') := Field.same_build h
  have hkeeps (info : MemberInfo) : Build.Ensures p (Field.build cls info) fun _ => True :=
    (Field.quiet_build cls info).ensures
  exact (Same.mapM hone hkeeps hfields).bind (.mapM hkeeps _) fun fields _ => .refl _

theorem same_buildMethods (cls : DeclaringClass) (hversion : cls.version = file.version) (h : file.Altered p file') :
    Same p (buildMethods cls file) (buildMethods cls file') := by
  have hmethods : List.Forall₂ (MemberInfo.Altered p cls.version) file.methods file'.methods := hversion ▸ h.methods
  have hone (info info' : MemberInfo) (h : info.Altered p cls.version info') :
      Same p (Method.build cls info) (Method.build cls info') := Method.same_build h
  have hkeeps (info : MemberInfo) : Build.Ensures p (Method.build cls info) fun _ => True :=
    (Method.marks_build cls info).ensures
  exact (Same.mapM hone hkeeps hmethods).bind (.mapM hkeeps _) fun methods _ => .refl _

theorem same_build (hframe : file.SameFrame file') (h : file.Altered p file') (options : Options) :
    Same p (build file options) (build file' options) := by
  unfold build
  simp only [header_of_sameFrame hframe]
  refine (Same.refl _).bind .pool fun q _ => ?_
  refine (Same.refl _).bind (.ofExcept fun header hof => version_of_header hof) fun header hversion => ?_
  refine (same_buildFields _ hversion h).bind (quiet_buildFields _ file).ensures fun fields _ => ?_
  refine (same_buildMethods _ hversion h).bind (marks_buildMethods _ file).ensures fun methods _ => ?_
  refine (Same.refl _).bind .pool fun resolved _ => ?_
  have hattributes : AlteredAttributes p header.version file.attributes file'.attributes := hversion ▸ h.attributes
  exact (ClassAttributes.same_build options hattributes).bind
    (ClassAttributes.marks_build header.version options _).ensures fun attributes _ => .refl _

end Class

/-- An attribute of a newer version is inert: whatever its payload, and whether it is there at all, the
    same class is built, or the same fault arises, with the same warnings. -/
theorem newer_attributes_are_inert [ToString T] {file file' : ClassFile} (hframe : file.SameFrame file')
    (input : String) (options : Options) (patches : List (Option (Patch T)))
    (haltered : ∀ p : Pool T F M, Class.resolvePool file input options patches = .ok p → file.Altered p file') :
    (Class.ofFile file' input options patches : Except Error (Class T F M) × Array Warning) =
      Class.ofFile file input options patches := by
  unfold Class.ofFile
  rw [hframe.version, Class.resolvePool_of_sameFrame hframe]
  by_cases hsupported : (!file.version.isSupported) = true
  · rw [if_pos hsupported, if_pos hsupported]
  rw [if_neg hsupported, if_neg hsupported]
  cases hp : (Class.resolvePool file input options patches : Except Error (Pool T F M)) with
  | error e => rfl
  | ok pool =>
    have hrun := Class.same_build hframe (haltered pool hp) options ⟨pool, #[]⟩ rfl
    simp only [EStateM.run]
    rw [hrun]

/-- A class of version 48 with a field and a method, given the attributes of each. -/
def olderFile (ofClass ofField ofMethod : List Attribute) : ClassFile :=
  { version := ⟨48, 0⟩
    constants := [none, some (.cls 2), some (.utf8 "A"), some (.cls 4), some (.utf8 "java/lang/Object"),
      some (.utf8 "m"), some (.utf8 "()V"), some (.utf8 "f"), some (.utf8 "I"), some (.utf8 "Code"),
      some (.utf8 "Signature"), some (.utf8 "RuntimeVisibleAnnotations"), some (.utf8 "MethodParameters")]
    access := 0x21
    thisClass := 1
    superClass := 3
    interfaces := []
    fields := [⟨0, 7, 8, ofField⟩]
    methods := [⟨0x1, 5, 6, ofMethod⟩]
    attributes := ofClass }

/-- The code of the method, which returns at once. -/
def olderCode : Attribute := ⟨9, [0, 0, 0, 1, 0, 0, 0, 1, 0xB1, 0, 0, 0, 0]⟩

/-- None of the payloads could be read, and one attribute comes twice. -/
theorem newer_attributes_are_inert_malformed :
    ∃ c : Class Nat Nat Nat,
      (Class.ofFile (olderFile [⟨10, [1]⟩] [⟨11, []⟩] [⟨12, []⟩, olderCode, ⟨12, [7]⟩]) "A" {} []).1 = .ok c ∧
      (Class.ofFile (olderFile [] [⟨11, [0xFF]⟩] [olderCode, ⟨12, []⟩]) "A" {} []).1 = .ok c := by
  let file := olderFile [⟨10, [1]⟩] [⟨11, []⟩] [⟨12, []⟩, olderCode, ⟨12, [7]⟩]
  let file' := olderFile [] [⟨11, [0xFF]⟩] [olderCode, ⟨12, []⟩]
  have hframe : file.SameFrame file' := ⟨rfl, rfl, rfl, rfl, rfl, rfl⟩
  have htexts : ((Class.resolvePool file "A" {} [] : Except Error (Pool Nat Nat Nat)).toOption.map fun p =>
      (p.text? 10, p.text? 11, p.text? 12)) =
        some (some "Signature", some "RuntimeVisibleAnnotations", some "MethodParameters") := by decide +kernel
  have haltered (p : Pool Nat Nat Nat) (hp : Class.resolvePool file "A" {} [] = .ok p) : file.Altered p file' := by
    rw [hp] at htexts
    obtain ⟨hsignature, htexts⟩ := Prod.mk.inj (Option.some.inj htexts)
    obtain ⟨hannotations, hparameters⟩ := Prod.mk.inj htexts
    have hnewer {i : Index} {name : String} (hname : p.text? i = some name) (since : UInt16)
        (hsince : (name, since) ∈ AttributeKind.introduced) (hversion : 48 < since) (info : List UInt8) :
        Attribute.IsNewer p ⟨48, 0⟩ ⟨i, info⟩ :=
      ⟨name, since, Pool.text_eq_ok_iff.mpr hname, hsince, hversion⟩
    refine ⟨.cons ⟨rfl, rfl, rfl, ?_⟩ .nil, .cons ⟨rfl, rfl, rfl, ?_⟩ .nil, ?_⟩
    · exact .replace [0xFF] (hnewer hannotations 49 (by decide) (by decide) []) .nil
    · refine .remove (hnewer hparameters 52 (by decide) (by decide) []) (.keep olderCode ?_)
      exact .replace [] (hnewer hparameters 52 (by decide) (by decide) [7]) .nil
    · exact .remove (hnewer hsignature 49 (by decide) (by decide) [1]) .nil
  have hsome : (Class.ofFile file' "A" {} [] : Except Error (Class Nat Nat Nat) × _).1.toOption.isSome = true := by
    decide +kernel
  have heq := newer_attributes_are_inert hframe "A" {} [] haltered
  cases h : (Class.ofFile file' "A" {} [] : Except Error (Class Nat Nat Nat) × _).1 with
  | error e =>
    rw [h] at hsome
    cases hsome
  | ok c => exact ⟨c, (congrArg Prod.fst heq).symm.trans h, rfl⟩

end JvmClass
