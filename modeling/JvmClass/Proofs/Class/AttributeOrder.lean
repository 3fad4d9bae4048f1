/-
  JvmClass.Proofs.Class.AttributeOrder — the order of attributes does not matter.

  Attributes of different kinds are read into parts of their own, and what they do to the pool comes to
  the same in any order. A file whose attributes have been reordered, those of the class, of its fields
  and of its methods each among themselves (`ClassFile.Reordered`), therefore is built alike, as long as
  no known kind occurs twice in one place (`ClassFile.HasDistinctKinds`).
  - `attribute_order_is_irrelevant`: it becomes the same class, or none.
-/

import JvmClass.Proofs.Class.Slots

namespace JvmClass

variable {T F M : Type}

/-! ## Reordered files -/

/-- The files say the same beside their fields, their methods and their attributes. -/
structure ClassFile.SameFrame (file file' : ClassFile) : Prop where
  version : file'.version = file.version
  constants : file'.constants = file.constants
  access : file'.access = file.access
  thisClass : file'.thisClass = file.thisClass
  superClass : file'.superClass = file.superClass
  interfaces : file'.interfaces = file.interfaces

/-- The same member with its attributes in another order. -/
structure MemberInfo.Reordered (m m' : MemberInfo) : Prop where
  access : m'.access = m.access
  name : m'.name = m.name
  descriptor : m'.descriptor = m.descriptor
  attributes : m.attributes.Perm m'.attributes

/-- The same class file with the attributes of the class and of each member in another order. -/
structure ClassFile.Reordered (file file' : ClassFile) : Prop where
  version : file'.version = file.version
  constants : file'.constants = file.constants
  access : file'.access = file.access
  thisClass : file'.thisClass = file.thisClass
  superClass : file'.superClass = file.superClass
  interfaces : file'.interfaces = file.interfaces
  fields : List.Forall₂ MemberInfo.Reordered file.fields file'.fields
  methods : List.Forall₂ MemberInfo.Reordered file.methods file'.methods
  attributes : file.attributes.Perm file'.attributes

theorem ClassFile.Reordered.sameFrame {file file' : ClassFile} (h : file.Reordered file') : file.SameFrame file' :=
  ⟨h.version, h.constants, h.access, h.thisClass, h.superClass, h.interfaces⟩

/-- The known kinds among the attributes, as the texts of the pool name them. -/
def knownKinds (p : Pool T F M) (version : Version) (attributes : List Attribute) : List AttributeKind :=
  (attributes.filterMap fun a => (p.text? a.name).map (.classify · version)).filter (· ≠ .unknown)

/-- In no place does a known kind of attribute occur twice. -/
structure ClassFile.HasDistinctKinds (p : Pool T F M) (file : ClassFile) : Prop where
  fields : ∀ m ∈ file.fields, (knownKinds p file.version m.attributes).Nodup
  methods : ∀ m ∈ file.methods, (knownKinds p file.version m.attributes).Nodup
  attributes : (knownKinds p file.version file.attributes).Nodup

theorem Attribute.isKind_iff {p : Pool T F M} {version : Version} {a : Attribute} {kind : AttributeKind} :
    a.IsKind p version kind ↔ (p.text? a.name).map (.classify · version) = some kind := by
  unfold IsKind Pool.text
  cases p.text? a.name <;> simp

theorem pairwise_of_nodup_knownKinds {p : Pool T F M} {version : Version} {attributes : List Attribute}
    (h : (knownKinds p version attributes).Nodup) : attributes.Pairwise fun x y =>
      ∀ kind, x.IsKind p version kind → y.IsKind p version kind → kind = .unknown := by
  rw [knownKinds, List.Nodup, List.pairwise_filter, List.pairwise_filterMap] at h
  refine h.imp fun {x y} hxy kind hx hy => ?_
  by_contra hknown
  have hkind := hxy kind (Attribute.isKind_iff.mp hx) kind (Attribute.isKind_iff.mp hy)
  exact hkind (decide_eq_true hknown) (decide_eq_true hknown) rfl

/-! ## Building -/

namespace Class

open Build (Alike)

/-- All of a class but its pool: the header, what the attributes say, the fields and the methods. -/
structure Parts where
  header : ClassHeader
  attributes : ClassAttributes
  fields : List Field
  methods : List Method

/-- The class of these parts. -/
def Parts.withPool (parts : Parts) (pool : Pool T F M) : Class T F M :=
  { parts.header with
    toClassAttributes := parts.attributes
    access := if parts.attributes.isInternal then parts.header.access.erase accPublic else parts.header.access
    fields := parts.fields
    methods := parts.methods
    pool }

/-- The parts of the class of a file whose pool is resolved. -/
def buildParts (file : ClassFile) (options : Options) : Build T F M Parts := do
  let header ← MonadExcept.ofExcept (ClassHeader.ofFile (← Build.pool) file)
  let cls : DeclaringClass :=
    { name := header.name, version := header.version, isInterface := header.isInterface, options }
  let fields ← buildFields cls file
  let methods ← buildMethods cls file
  let resolved ← Build.pool
  let members :=
    if options.removeAssertions then withoutAssertions resolved header.name fields methods else (fields, methods)
  let attributes ← ClassAttributes.build header.version options file.attributes
  return { header, attributes, fields := members.1, methods := members.2 }

/-- The pool takes part in the class at the end, once all attributes have prepared it. -/
theorem build_eq (file : ClassFile) (options : Options) : (build file options : Build T F M _) = do
    let parts ← buildParts file options
    let pool ← Build.pool
    if !pool.areBootstrapped parts.attributes.bootstrapMethods.length then throw .missingBootstrapMethod
    return parts.withPool pool := by
  simp only [build, buildParts, bind_assoc, pure_bind]
  rfl

variable {p : Pool T F M} {file file' : ClassFile}

theorem alike_buildFields (cls : DeclaringClass) (h : file.Reordered file') (hversion : cls.version = file.version)
    (hkinds : file.HasDistinctKinds p) : Alike p Eq (buildFields cls file) (buildFields cls file') := by
  have hbuild : ∀ m m', m ∈ file.fields ∧ m.Reordered m' → Alike p Eq (Field.build cls m) (Field.build cls m') := by
    rintro m m' ⟨hm, hreordered⟩
    refine Field.alike_build cls hreordered.access hreordered.name hreordered.descriptor hreordered.attributes ?_
    rw [hversion]
    exact pairwise_of_nodup_knownKinds (hkinds.fields m hm)
  refine (Alike.mapM hbuild ((List.forall₂_and_left _ _).mpr ⟨fun _ hm => hm, h.fields⟩)).bind fun fields _ heq => ?_
  exact heq ▸ .check fun _ => .pure rfl

theorem alike_buildMethods (cls : DeclaringClass) (h : file.Reordered file') (hversion : cls.version = file.version)
    (hkinds : file.HasDistinctKinds p) : Alike p Eq (buildMethods cls file) (buildMethods cls file') := by
  have hbuild : ∀ m m', m ∈ file.methods ∧ m.Reordered m' → Alike p Eq (Method.build cls m) (Method.build cls m') := by
    rintro m m' ⟨hm, hreordered⟩
    refine Method.alike_build cls hreordered.access hreordered.name hreordered.descriptor hreordered.attributes ?_
    rw [hversion]
    exact pairwise_of_nodup_knownKinds (hkinds.methods m hm)
  refine (Alike.mapM hbuild ((List.forall₂_and_left _ _).mpr ⟨fun _ hm => hm, h.methods⟩)).bind fun methods _ heq => ?_
  exact heq ▸ .check fun _ => .pure rfl

theorem header_of_sameFrame (h : file.SameFrame file') : ClassHeader.ofFile p file' = ClassHeader.ofFile p file := by
  unfold ClassHeader.ofFile
  rw [h.access, h.version, h.thisClass, h.superClass, h.interfaces]

theorem alike_buildParts (h : file.Reordered file') (hkinds : file.HasDistinctKinds p) (options : Options) :
    Alike p Eq (buildParts file options) (buildParts file' options) := by
  have hheader (q : Pool T F M) (hq : q.frozen = p.frozen) := ClassHeader.ofFile_of_frozen hq
  refine .pool_bind (fun q hq => by rw [hheader q hq]) (fun q hq => by rw [hheader q hq]) ?_
  rw [header_of_sameFrame h.sameFrame]
  refine (Alike.ofExcept_ok _).bind fun header _ hof => hof.2 ▸ ?_
  have hversion := version_of_header hof.1
  refine (alike_buildFields _ h hversion hkinds).bind fun fields _ heq => heq ▸ ?_
  refine (alike_buildMethods _ h hversion hkinds).bind fun methods _ heq => heq ▸ ?_
  refine .pool_bind (fun q hq => by simp only [withoutAssertions_of_frozen hq])
    (fun q hq => by simp only [withoutAssertions_of_frozen hq]) ?_
  have hattributes := (ClassAttributes.keptApart header.version options).foldlM_perm h.attributes
    (hversion ▸ pairwise_of_nodup_knownKinds hkinds.attributes) {}
  exact hattributes.bind fun attributes _ heq => heq ▸ .pure rfl

theorem build_eq_ok {options : Options} {s s' : BuildState T F M} {c : Class T F M} :
    build file options s = .ok c s' ↔ ∃ parts, buildParts file options s = .ok parts s' ∧
      s'.pool.areBootstrapped parts.attributes.bootstrapMethods.length = true ∧ parts.withPool s'.pool = c := by
  simp only [build_eq, Build.bind_eq_ok, Build.pool_eq_ok, Build.ite_throw_eq_ok, Build.pure_eq_ok, Bool.not_eq_true',
    Bool.not_eq_false]
  constructor
  · rintro ⟨parts, _, hparts, _, _, ⟨rfl, rfl⟩, hbootstrapped, hc, rfl⟩
    exact ⟨parts, hparts, hbootstrapped, hc⟩
  · rintro ⟨parts, hparts, hbootstrapped, hc⟩
    exact ⟨parts, s', hparts, _, s', ⟨rfl, rfl⟩, hbootstrapped, hc, rfl⟩

/-- From one state on both files become the same class, or neither becomes one. -/
theorem build_reordered (h : file.Reordered file') (options : Options) {s : BuildState T F M}
    (hkinds : file.HasDistinctKinds s.pool) (c : Class T F M) :
    (∃ s', build file options s = .ok c s') ↔ ∃ s', build file' options s = .ok c s' := by
  have hparts (parts : Parts) (q : Pool T F M) := (alike_buildParts h hkinds options).eq_ok_iff (s := s) rfl
    (a := parts) (q := q)
  simp only [build_eq_ok]
  constructor
  · rintro ⟨s', parts, hrun, hbootstrapped, hc⟩
    obtain ⟨s'', hrun', hpool⟩ := (hparts parts s'.pool).mp ⟨s', hrun, rfl⟩
    exact ⟨s'', parts, hrun', hpool ▸ hbootstrapped, hpool ▸ hc⟩
  · rintro ⟨s', parts, hrun, hbootstrapped, hc⟩
    obtain ⟨s'', hrun', hpool⟩ := (hparts parts s'.pool).mpr ⟨s', hrun, rfl⟩
    exact ⟨s'', parts, hrun', hpool ▸ hbootstrapped, hpool ▸ hc⟩

theorem resolvePool_of_sameFrame [ToString T] (h : file.SameFrame file') (input : String) (options : Options)
    (patches : List (Option (Patch T))) :
    (resolvePool file' input options patches : Except Error (Pool T F M)) = resolvePool file input options patches := by
  unfold resolvePool
  rw [h.constants, h.version]

theorem resolvePool_reordered [ToString T] (h : file.Reordered file') (input : String) (options : Options)
    (patches : List (Option (Patch T))) :
    (resolvePool file' input options patches : Except Error (Pool T F M)) = resolvePool file input options patches :=
  resolvePool_of_sameFrame h.sameFrame input options patches

/-- A file becomes a class if it is of a supported version, its pool resolves, and the parts can be built. -/
theorem ofFile_eq_ok [ToString T] {input : String} {options : Options} {patches : List (Option (Patch T))}
    {c : Class T F M} : (ofFile file input options patches).1 = .ok c ↔
      file.version.isSupported = true ∧ ∃ p, resolvePool file input options patches = .ok p ∧
        ∃ s', build file options ⟨p, #[]⟩ = .ok c s' := by
  unfold ofFile
  by_cases hsupported : file.version.isSupported = true
  · rw [if_neg (by simpa using hsupported)]
    cases resolvePool file input options patches with
    | error e => simp
    | ok p =>
      simp only [EStateM.run, hsupported, Except.ok.injEq, exists_eq_left', true_and]
      cases build file options ⟨p, #[]⟩ <;> simp
  · rw [if_pos (by simpa using hsupported)]
    simp [hsupported]

end Class

/-- A file whose attributes are reordered becomes a class if the other does, and the same class: its pool
    with all marks and texts, its fields, its methods with their code, and all that its attributes say. -/
theorem attribute_order_is_irrelevant [ToString T] {file file' : ClassFile} (h : file.Reordered file') (input : String)
    (options : Options) (patches : List (Option (Patch T)))
    (hkinds : ∀ p : Pool T F M, Class.resolvePool file input options patches = .ok p → file.HasDistinctKinds p)
    (c : Class T F M) :
    (Class.ofFile file input options patches).1 = .ok c ↔ (Class.ofFile file' input options patches).1 = .ok c := by
  rw [Class.ofFile_eq_ok, Class.ofFile_eq_ok, h.version, Class.resolvePool_reordered h]
  refine and_congr_right fun _ => exists_congr fun p => and_congr_right fun hp => ?_
  exact Class.build_reordered h options (hkinds p hp) c

/-- A class with a method, given the attributes of either. -/
def attributedFile (ofClass ofMethod : List Attribute) : ClassFile :=
  { version := Version.java8
    constants := [none, some (.cls 2), some (.utf8 "A"), some (.cls 4), some (.utf8 "java/lang/Object"),
      some (.utf8 "m"), some (.utf8 "()V"), some (.utf8 "Code"), some (.utf8 "Exceptions"),
      some (.utf8 "RuntimeVisibleTypeAnnotations"), some (.utf8 "InnerClasses"), some (.utf8 "SourceFile")]
    access := 0x21
    thisClass := 1
    superClass := 3
    interfaces := []
    fields := []
    methods := [⟨0x1, 5, 6, ofMethod⟩]
    attributes := ofClass }

def someClassAttributes : List Attribute := [⟨10, [0, 1, 0, 1, 0, 3, 0, 2, 0, 0]⟩, ⟨11, [0, 5]⟩]

def someMethodAttributes : List Attribute :=
  [⟨7, [0, 1, 0, 1, 0, 0, 0, 4, 0xBB, 0, 1, 0xB1, 0, 0, 0, 0]⟩, ⟨8, [0, 1, 0, 3]⟩, ⟨9, [0, 0]⟩]

theorem attribute_order_is_irrelevant_reversed :
    ∃ c : Class Nat Nat Nat,
      (Class.ofFile (attributedFile someClassAttributes someMethodAttributes) "A" {} []).1 = .ok c ∧
      (Class.ofFile (attributedFile someClassAttributes.reverse someMethodAttributes.reverse) "A" {} []).1 = .ok c := by
  let file := attributedFile someClassAttributes someMethodAttributes
  have hreordered : file.Reordered (attributedFile someClassAttributes.reverse someMethodAttributes.reverse) :=
    ⟨rfl, rfl, rfl, rfl, rfl, rfl, .nil, .cons ⟨rfl, rfl, rfl, (List.reverse_perm _).symm⟩ .nil,
      (List.reverse_perm _).symm⟩
  have hkinds : ((Class.resolvePool file "A" {} [] : Except Error (Pool Nat Nat Nat)).toOption.map fun p =>
      (knownKinds p Version.java8 someClassAttributes, knownKinds p Version.java8 someMethodAttributes)) =
        some ([.innerClasses, .sourceFile], [.code, .exceptions, .visibleTypeAnnotations]) := by decide +kernel
  have hdistinct (p : Pool Nat Nat Nat) (hp : Class.resolvePool file "A" {} [] = .ok p) : file.HasDistinctKinds p := by
    rw [hp] at hkinds
    obtain ⟨hclass, hmethod⟩ := Prod.mk.inj (Option.some.inj hkinds)
    refine ⟨fun _ hm => (nomatch hm), fun m hm => ?_, ?_⟩
    · cases List.mem_singleton.mp hm
      exact hmethod ▸ by decide
    · exact hclass ▸ by decide
  have hsome : (Class.ofFile file "A" {} [] : Except Error (Class Nat Nat Nat) × _).1.toOption.isSome = true := by
    decide +kernel
  cases h : (Class.ofFile file "A" {} [] : Except Error (Class Nat Nat Nat) × _).1 with
  | error e =>
    rw [h] at hsome
    cases hsome
  | ok c => exact ⟨c, rfl, (attribute_order_is_irrelevant hreordered "A" {} [] hdistinct c).mp h⟩

end JvmClass
