/-
  JvmClass.Proofs.Class.AssertionSkipping — assertions are taken out of a class as a whole, or not.

  A class is built alike whether assertions are to be removed or not, up to the end of its methods;
  what is read afterwards does not look at them (`Class.build_removing`). So the class without
  assertions is made of the one with them, and the same warnings and faults arise.
  - `Class.AskedFor`: what has to be the case for assertions to be removed.
  - `assertions_are_removed_whole_or_not`: then the static initializer, its marker and the field are
    changed together, otherwise nothing is.
-/

import JvmClass.Proofs.Bytecode.Question
import JvmClass.Proofs.Class.AttributeOrder
import JvmClass.Proofs.Class.Lasting
import JvmClass.Proofs.Class.Usable

namespace JvmClass

variable {T F M : Type}

/-! ## Classes that ask -/

/-- The method at `k` is a static initializer that asks for assertions, and the field at `j` is a
    constant of the class that holds the answer. -/
structure Class.AskedFor (c : Class T F M) (k j : Nat) (field : MemberRef) : Prop where
  initializer : ∃ m code body, c.methods[k]? = some m ∧ m.member.name = "<clinit>" ∧ m.member.descriptor = "()V" ∧
    m.code = some code ∧ code.body = .decoded body ∧ body.AsksApart c.pool c.name field
  declared : ∃ f, c.fields[j]? = some f ∧ f.member.name = field.name ∧ f.member.descriptor = "Z" ∧
    f.isStatic = true ∧ f.isFinal = true

/-! ## Without the question -/

def Body.skipQuestion : Body → Body
  | .decoded body => .decoded body.skipQuestion
  | .invalid fault => .invalid fault

/-- The method with a jump over the question in its code, and marked for it. -/
def Method.skipQuestion (m : Method) : Method :=
  { m with
    code := m.code.map fun code => { code with body := code.body.skipQuestion }
    markers := { m.markers with hasAssertions := true } }

def Field.setTrue (f : Field) : Field := { f with constant := some (.boolean true) }

/-- The class with the question skipped in the method at `k`, and the field at `j` true. -/
def Class.skipQuestion (c : Class T F M) (k j : Nat) : Class T F M :=
  { c with methods := c.methods.modify k Method.skipQuestion, fields := c.fields.modify j Field.setTrue }

/-- The method at `k` has a body that was decoded. -/
def Class.HasBody (c : Class T F M) (k : Nat) (body : DecodedBody) : Prop :=
  ∃ m code, c.methods[k]? = some m ∧ m.code = some code ∧ code.body = .decoded body

/-! ## Members -/

section Keys

variable {α : Type} {holder : Holder} {member : α → Member holder} {l : List α} {name descriptor : String}

theorem Member.isNamed_iff {m : Member holder} :
    m.isNamed name descriptor = true ↔ m.name = name ∧ m.descriptor = descriptor := by
  simp [isNamed]

/-- Among members that are told apart one at most has a name and descriptor. -/
theorem eq_of_isNamed (hkeys : (l.map fun a => (member a).key).Nodup) {m n : Nat} {a b : α} (ha : l[m]? = some a)
    (hb : l[n]? = some b) (hname : (member a).isNamed name descriptor = true)
    (hname' : (member b).isNamed name descriptor = true) : m = n := by
  obtain ⟨rfl, rfl⟩ := Member.isNamed_iff.mp hname
  obtain ⟨hsame, hsame'⟩ := Member.isNamed_iff.mp hname'
  obtain ⟨hlt, -⟩ := List.getElem?_eq_some_iff.mp ha
  refine (List.getElem?_inj (by simpa using hlt) hkeys).mp ?_
  rw [List.getElem?_map, List.getElem?_map, ha, hb, Option.map_some, Option.map_some, Member.key, Member.key, hsame,
    hsame']

theorem find?_isNamed (hkeys : (l.map fun a => (member a).key).Nodup) {k : Nat} {a : α} (ha : l[k]? = some a)
    (hname : (member a).isNamed name descriptor = true) :
    l.find? (fun b => (member b).isNamed name descriptor) = some a := by
  rw [List.find?_eq_some_iff_getElem]
  obtain ⟨hlt, hget⟩ := List.getElem?_eq_some_iff.mp ha
  refine ⟨hname, k, hlt, hget, fun n hn => ?_⟩
  rw [Bool.not_eq_true', ← Bool.not_eq_true]
  intro hother
  exact absurd (eq_of_isNamed hkeys ha (List.getElem?_eq_getElem (Nat.lt_trans hn hlt)) hname hother) (Nat.ne_of_gt hn)

theorem modify_const {α : Type} {l : List α} {k : Nat} {a : α} (ha : l[k]? = some a) (change : α → α) :
    (l.modify k fun _ => change a) = l.modify k change := by
  refine List.ext_getElem? fun n => ?_
  rw [List.getElem?_modify, List.getElem?_modify]
  by_cases hn : k = n
  · simp [← hn, ha]
  · simp [hn]

theorem modifyFirst_isNamed (hkeys : (l.map fun a => (member a).key).Nodup) {k : Nat} {a : α} (ha : l[k]? = some a)
    (hname : (member a).isNamed name descriptor = true) (change : α → α) :
    modifyFirst (fun b => (member b).isNamed name descriptor) change l = l.modify k change := by
  induction l generalizing k with
  | nil => cases ha
  | cons b l ih =>
    unfold modifyFirst
    cases k with
    | zero =>
      cases ha
      rw [if_pos hname]
      rfl
    | succ k =>
      have hb : ¬(member b).isNamed name descriptor = true := fun hb =>
        absurd (eq_of_isNamed hkeys (m := k + 1) (n := 0) ha rfl hname hb) (Nat.succ_ne_zero k)
      rw [if_neg hb, ih (List.nodup_cons.mp hkeys).2 ha]
      rfl

end Keys

section Members

variable {pool : Pool T F M} {thisClass : String} {field : MemberRef}

theorem hasStaticFinal_iff {fields : List Field} {name : String} : hasStaticFinal fields name = true ↔
    ∃ (j : Nat) (f : Field), fields[j]? = some f ∧ f.member.isNamed name "Z" = true ∧ f.isStatic = true ∧
      f.isFinal = true := by
  simp only [hasStaticFinal, List.any_eq_true, Bool.and_eq_true, and_assoc]
  constructor
  · rintro ⟨f, hf, hlegal⟩
    obtain ⟨j, hj⟩ := List.mem_iff_getElem?.mp hf
    exact ⟨j, f, hj, hlegal⟩
  · rintro ⟨j, f, hj, hlegal⟩
    exact ⟨f, List.mem_of_getElem? hj, hlegal⟩

theorem Method.withoutAssertions?_eq_some_iff {fields : List Field} {m m' : Method} (hm : m.IsFresh Code.IsClosed) :
    m.withoutAssertions? pool thisClass fields = some (field, m') ↔ ∃ code body, m.code = some code ∧
      code.body = .decoded body ∧ body.AsksApart pool thisClass field ∧ hasStaticFinal fields field.name = true ∧
      m' = m.skipQuestion := by
  simp only [withoutAssertions?, Option.bind_eq_bind, Option.bind_eq_some_iff, Option.pure_def, Option.some.injEq]
  constructor
  · rintro ⟨code, hcode, body, hbody, ⟨_, rewritten⟩, hremove, heq⟩
    cases heq
    obtain ⟨hasks, hfield, rfl⟩ := (removeAssertions_eq_some_iff (hm.code code hcode body hbody)).mp hremove
    rw [Code.decoded?_eq_some_iff] at hbody
    refine ⟨code, body, hcode, hbody, hasks, hfield, ?_⟩
    rw [skipQuestion, hcode, Option.map_some, hbody]
    rfl
  · rintro ⟨code, body, hcode, hbody, hasks, hfield, rfl⟩
    have hdecoded := Code.decoded?_eq_some_iff.mpr hbody
    refine ⟨code, hcode, body, hdecoded, (field, body.skipQuestion), ?_, ?_⟩
    · exact (removeAssertions_eq_some_iff (hm.code code hcode body hdecoded)).mpr ⟨hasks, hfield, rfl⟩
    · rw [skipQuestion, hcode, Option.map_some, hbody]
      rfl

end Members

/-! ## Classes -/

namespace Class

/-- The class without its question for assertions, if it asks. -/
def withoutQuestion (c : Class T F M) : Class T F M :=
  let members := withoutAssertions c.pool c.name c.fields c.methods
  { c with fields := members.1, methods := members.2 }

/-- What is true of a class whose assertions have not been removed. -/
structure IsFresh (c : Class T F M) : Prop where
  fieldKeys : (c.fields.map (·.member.key)).Nodup
  methodKeys : (c.methods.map (·.member.key)).Nodup
  methods : ∀ m ∈ c.methods, m.IsFresh Code.IsClosed

variable {c : Class T F M} {k j : Nat} {field : MemberRef}

theorem withoutQuestion_of_askedFor (hc : c.IsFresh) (h : c.AskedFor k j field) :
    c.withoutQuestion = c.skipQuestion k j := by
  obtain ⟨m, code, body, hm, hname, hdescriptor, hcode, hbody, hasks⟩ := h.initializer
  obtain ⟨f, hf, hfield, htruth, hstatic, hfinal⟩ := h.declared
  have hinitializer : m.member.isNamed clinitName "()V" = true := Member.isNamed_iff.mpr ⟨hname, hdescriptor⟩
  have hnamed : f.member.isNamed field.name "Z" = true := Member.isNamed_iff.mpr ⟨hfield, htruth⟩
  have hskip : m.withoutAssertions? c.pool c.name c.fields = some (field, m.skipQuestion) :=
    (Method.withoutAssertions?_eq_some_iff (hc.methods m (List.mem_of_getElem? hm))).mpr
      ⟨code, body, hcode, hbody, hasks, hasStaticFinal_iff.mpr ⟨j, f, hf, hnamed, hstatic, hfinal⟩, rfl⟩
  have hfound : c.methods.find? (·.isClassInitializer) = some m := find?_isNamed hc.methodKeys hm hinitializer
  have hmembers : withoutAssertions c.pool c.name c.fields c.methods =
      (c.fields.modify j Field.setTrue, c.methods.modify k Method.skipQuestion) := by
    simp only [withoutAssertions, hfound, hskip]
    refine congrArg₂ Prod.mk (modifyFirst_isNamed hc.fieldKeys hf hnamed _) ?_
    exact (modifyFirst_isNamed hc.methodKeys hm hinitializer _).trans (modify_const hm Method.skipQuestion)
  rw [withoutQuestion, hmembers]
  rfl

/-- What has become of the static initializer. -/
theorem jumpsOver_of_askedFor (h : c.AskedFor k j field) :
    ∃ body body', c.HasBody k body ∧ (c.skipQuestion k j).HasBody k body' ∧ body.JumpsOver body' := by
  obtain ⟨m, code, body, hm, -, -, hcode, hbody, -⟩ := h.initializer
  have hm' : (c.skipQuestion k j).methods[k]? = some m.skipQuestion := by simp [skipQuestion, hm]
  have hcode' : m.skipQuestion.code = some { code with body := .decoded body.skipQuestion } := by
    rw [Method.skipQuestion, hcode, Option.map_some, hbody]
    rfl
  exact ⟨body, body.skipQuestion, ⟨m, code, hm, hcode, hbody⟩, ⟨m.skipQuestion, _, hm', hcode', rfl⟩,
    body.jumpsOver_skipQuestion⟩

theorem withoutQuestion_of_not_askedFor (hc : c.IsFresh) (h : ¬∃ k j field, c.AskedFor k j field) :
    c.withoutQuestion = c := by
  rcases withoutAssertions_cases c.pool c.name c.fields c.methods with heq | ⟨m, field, m', hfound, hskip, -⟩
  · rw [withoutQuestion, heq]
  · refine absurd ?_ h
    have hm := List.mem_of_find?_eq_some hfound
    obtain ⟨code, body, hcode, hbody, hasks, hfield, -⟩ :=
      (Method.withoutAssertions?_eq_some_iff (hc.methods m hm)).mp hskip
    obtain ⟨k, hk⟩ := List.mem_iff_getElem?.mp hm
    obtain ⟨j, f, hj, hnamed, hstatic, hfinal⟩ := hasStaticFinal_iff.mp hfield
    have hinitializer : m.isClassInitializer = true := List.find?_some hfound
    obtain ⟨hname, hdescriptor⟩ := Member.isNamed_iff.mp hinitializer
    obtain ⟨hfieldName, htruth⟩ := Member.isNamed_iff.mp hnamed
    exact ⟨k, j, field, ⟨m, code, body, hk, hname, hdescriptor, hcode, hbody, hasks⟩,
      ⟨f, hj, hfieldName, htruth, hstatic, hfinal⟩⟩

end Class

/-! ## Two builds -/

/-- Of the options a pool is resolved with, only the rule on class names matters. -/
theorem Pool.resolveRound_congr {options options' : Options}
    (h : options'.relaxedClassNames = options.relaxedClassNames) (version : Version) (round : Round) (slot : Nat)
    (p : Pool T F M) (entries : List (DraftEntry T)) :
    p.resolveRound ⟨version, options'⟩ round slot entries = p.resolveRound ⟨version, options⟩ round slot entries := by
  have hname (s : String) : isValidClassName s version options' = isValidClassName s version options := by
    unfold isValidClassName
    rw [h]
  induction entries generalizing slot p with
  | nil => rfl
  | cons e rest ih =>
    have hentry : p.resolveEntry ⟨version, options'⟩ slot e = p.resolveEntry ⟨version, options⟩ slot e := by
      unfold resolveEntry resolveClass
      simp only [hname]
      rfl
    simp only [resolveRound, hentry, ih]

theorem CodeAttribute.readTables_removing (pool : Pool T F M) (options : Options) (length : Nat) (tables : DebugTables)
    (n : Nat) : readTables pool { options with removeAssertions := true } length tables n =
      readTables pool options length tables n := by
  induction n generalizing tables with
  | zero => rfl
  | succ n ih => simp only [readTables, ih]; rfl

theorem Code.decode_removing (pool : Pool T F M) (options : Options) (name descriptor : String) (isStatic : Bool)
    (info : List UInt8) : decode pool { options with removeAssertions := true } name descriptor isStatic info =
      decode pool options name descriptor isStatic info := by
  unfold decode CodeAttribute.read
  simp only [CodeAttribute.readTables_removing]

theorem Method.build_removing (cls : DeclaringClass) (info : MemberInfo) :
    (build { cls with options := { cls.options with removeAssertions := true } } info : Build T F M Method) =
      build cls info := by
  unfold build withAttribute
  simp only [Code.decode_removing]
  rfl

namespace Class

variable {file : ClassFile} {options : Options}

theorem ensures_isFresh (hkept : options.removeAssertions = false) (p : Pool T F M) :
    Build.Ensures p (build file options) IsFresh := by
  have hdecodes : Code.Decodes p Code.IsClosed := fun _ _ _ _ _ _ _ _ _ h => Code.isClosed_of_decode h
  refine Build.Ensures.pool.bind fun q hq => ?_
  refine (Build.Quiet.ofExcept _).ensures.bind fun header _ => ?_
  refine (ensures_buildFields _ file).bind fun fields hfields => ?_
  refine (ensures_buildMethods hdecodes Code.isClosed_missing _ file).bind fun methods hmethods => ?_
  refine Build.Ensures.pool.bind fun resolved _ => ?_
  rw [if_neg (by simp [hkept])]
  refine (ClassAttributes.ensures_build _ _ _).bind fun attributes _ => ?_
  refine Build.Ensures.pool.bind fun last _ => .check fun _ => .pure ?_
  exact ⟨hfields.2, hmethods.2, fun m hm => (hmethods.1 m hm).2⟩

theorem buildFields_removing (cls : DeclaringClass) :
    (buildFields { cls with options := { cls.options with removeAssertions := true } } file : Build T F M _) =
      buildFields cls file := rfl

theorem buildMethods_removing (cls : DeclaringClass) :
    (buildMethods { cls with options := { cls.options with removeAssertions := true } } file : Build T F M _) =
      buildMethods cls file := by
  unfold buildMethods
  rw [funext (Method.build_removing cls)]

/-- What is left to do for a class when its members are settled. -/
def complete (file : ClassFile) (options : Options) (header : ClassHeader) (members : List Field × List Method) :
    Build T F M (Class T F M) := do
  let attributes ← ClassAttributes.build header.version options file.attributes
  let pool ← Build.pool
  if !pool.areBootstrapped attributes.bootstrapMethods.length then throw .missingBootstrapMethod
  let access := if attributes.isInternal then header.access.erase accPublic else header.access
  return { header with toClassAttributes := attributes, access, fields := members.1, methods := members.2, pool }

theorem build_eq_complete (file : ClassFile) (options : Options) : (build file options : Build T F M _) = (do
    let header ← MonadExcept.ofExcept (ClassHeader.ofFile (← Build.pool) file)
    let cls : DeclaringClass :=
      { name := header.name, version := header.version, isInterface := header.isInterface, options }
    let fields ← buildFields cls file
    let methods ← buildMethods cls file
    let resolved ← Build.pool
    let members :=
      if options.removeAssertions then withoutAssertions resolved header.name fields methods else (fields, methods)
    complete file options header members) := rfl

/-- The attributes of the class and the checks that follow do not look at the members. -/
theorem complete_withoutAssertions (header : ClassHeader) (fields : List Field) (methods : List Method)
    (s : BuildState T F M) :
    complete file options header (withoutAssertions s.pool header.name fields methods) s =
      (withoutQuestion <$> complete file options header (fields, methods)) s := by
  simp only [complete, map_bind]
  show EStateM.bind _ _ s = EStateM.bind _ _ s
  unfold EStateM.bind
  cases h : ClassAttributes.build header.version options file.attributes s with
  | error e s' => rfl
  | ok attributes s' =>
    have hfrozen := (ClassAttributes.ensures_build header.version options file.attributes s attributes s' rfl h).2
    rw [← withoutAssertions_of_frozen hfrozen]
    show (if _ then _ else _ : Build T F M _) s' = (withoutQuestion <$> if _ then _ else _ : Build T F M _) s'
    cases s'.pool.areBootstrapped attributes.bootstrapMethods.length with
    | false => rfl
    | true => rfl

/-- Without assertions the same is built, and the question is then taken out. -/
theorem build_removing (hkept : options.removeAssertions = false) :
    (build file { options with removeAssertions := true } : Build T F M (Class T F M)) =
      withoutQuestion <$> build file options := by
  simp only [build_eq_complete, map_bind, hkept, Bool.false_eq_true, if_false, if_true]
  refine bind_congr fun p => bind_congr fun header => ?_
  let cls : DeclaringClass :=
    { name := header.name, version := header.version, isInterface := header.isInterface, options }
  rw [buildFields_removing cls, buildMethods_removing cls]
  refine bind_congr fun fields => bind_congr fun methods => funext fun s => ?_
  exact complete_withoutAssertions header fields methods s

theorem resolvePool_congr [ToString T] {options' : Options} (h : options'.relaxedClassNames = options.relaxedClassNames)
    (file : ClassFile) (input : String) (patches : List (Option (Patch T))) :
    (resolvePool file input options' patches : Except Error (Pool T F M)) =
      resolvePool file input options patches := by
  unfold resolvePool Draft.resolve
  simp only [Pool.resolveRound_congr h]

/-- The class without assertions is what taking the question out of the other one leaves. -/
theorem ofFile_removing [ToString T] (hkept : options.removeAssertions = false) (input : String)
    (patches : List (Option (Patch T))) :
    (ofFile file input { options with removeAssertions := true } patches : Except Error (Class T F M) × Array Warning) =
      Prod.map (Except.map withoutQuestion) id (ofFile file input options patches) := by
  have hrelaxed : { options with removeAssertions := true }.relaxedClassNames = options.relaxedClassNames := rfl
  unfold ofFile
  rw [resolvePool_congr hrelaxed]
  by_cases hsupported : (!file.version.isSupported) = true
  · rw [if_pos hsupported, if_pos hsupported]
    rfl
  rw [if_neg hsupported, if_neg hsupported]
  cases (resolvePool file input options patches : Except Error (Pool T F M)) with
  | error e => rfl
  | ok pool =>
    simp only [build_removing hkept]
    have hrun : EStateM.run (withoutQuestion <$> build file options) (⟨pool, #[]⟩ : BuildState T F M) =
        EStateM.map withoutQuestion (build file options) ⟨pool, #[]⟩ := rfl
    rw [hrun, EStateM.map, EStateM.run]
    cases build file options (⟨pool, #[]⟩ : BuildState T F M) with
    | ok c s => rfl
    | error fault s => rfl

theorem isFresh_of_ofFile [ToString T] {input : String} {patches : List (Option (Patch T))} {c : Class T F M}
    (hkept : options.removeAssertions = false) (h : (ofFile file input options patches).1 = .ok c) : c.IsFresh := by
  obtain ⟨-, p, -, s', hrun⟩ := ofFile_eq_ok.mp h
  exact (ensures_isFresh hkept p _ _ _ rfl hrun).1

end Class

/-- Whether assertions are to be removed or not, the same warnings and faults arise. If the class asks
    for its assertions, then in its static initializer instruction 0 becomes a jump to instruction 7 that
    starts where it did, and the others and the handlers stay, that method is marked for it, and the field
    of the answer becomes true; if it does not, nothing is changed. -/
theorem assertions_are_removed_whole_or_not [ToString T] (file : ClassFile) (input : String) (options : Options)
    (patches : List (Option (Patch T))) (hkept : options.removeAssertions = false) :
    let kept : Except Error (Class T F M) × Array Warning := Class.ofFile file input options patches
    let removed := Class.ofFile file input { options with removeAssertions := true } patches
    removed.2 = kept.2 ∧ (∀ e, removed.1 = .error e ↔ kept.1 = .error e) ∧
      ∀ c, kept.1 = .ok c → (∀ m ∈ c.methods, m.markers.hasAssertions = false) ∧
        (∀ k j field, c.AskedFor k j field → removed.1 = .ok (c.skipQuestion k j) ∧
          ∃ body body', c.HasBody k body ∧ (c.skipQuestion k j).HasBody k body' ∧ body.JumpsOver body') ∧
        ((¬∃ k j field, c.AskedFor k j field) → removed.1 = .ok c) := by
  intro kept removed
  have hremoved : removed = Prod.map (Except.map Class.withoutQuestion) id kept :=
    Class.ofFile_removing hkept input patches
  rw [hremoved]
  refine ⟨rfl, fun e => ?_, fun c hc => ?_⟩
  · cases hkept' : kept.1 <;> simp [hkept', Except.map]
  · have hfresh : c.IsFresh := Class.isFresh_of_ofFile hkept hc
    rw [Prod.map_fst, hc]
    refine ⟨fun m hm => (hfresh.methods m hm).unmarked, fun k j field hasked => ?_, fun hnone => ?_⟩
    · have hskipped := Class.withoutQuestion_of_askedFor hfresh hasked
      exact ⟨congrArg Except.ok hskipped, Class.jumpsOver_of_askedFor hasked⟩
    · exact congrArg Except.ok (Class.withoutQuestion_of_not_askedFor hfresh hnone)

theorem assertions_are_removed_whole_or_not_asking :
    ∃ (c : Class Nat Nat Nat) (k j : Nat) (field : MemberRef),
      (Class.ofFile askingFile "A" {} []).1 = .ok c ∧ c.AskedFor k j field ∧
      (Class.ofFile askingFile "A" { removeAssertions := true } []).1 = .ok (c.skipQuestion k j) ∧
      ∃ body body', c.HasBody k body ∧ (c.skipQuestion k j).HasBody k body' ∧ body.JumpsOver body' := by
  obtain ⟨-, -, hclass⟩ := assertions_are_removed_whole_or_not (T := Nat) (F := Nat) (M := Nat) askingFile "A" {} [] rfl
  have hkept : ((Class.ofFile askingFile "A" {} [] : Except Error (Class Nat Nat Nat) × _).1.toOption.map fun c =>
      c.fields.map (·.constant)) = some [none] := by decide +kernel
  have hremoved : ((Class.ofFile askingFile "A" { removeAssertions := true } [] :
      Except Error (Class Nat Nat Nat) × _).1.toOption.map fun c => c.fields.map (·.constant)) =
        some [some (.boolean true)] := by decide +kernel
  cases h : (Class.ofFile askingFile "A" {} [] : Except Error (Class Nat Nat Nat) × _).1 with
  | error e =>
    rw [h] at hkept
    cases hkept
  | ok c =>
    obtain ⟨-, hskips, hkeeps⟩ := hclass c h
    by_cases hasked : ∃ k j field, c.AskedFor k j field
    · obtain ⟨k, j, field, hasked⟩ := hasked
      exact ⟨c, k, j, field, rfl, hasked, hskips k j field hasked⟩
    · rw [hkeeps hasked] at hremoved
      rw [h] at hkept
      cases hkept.symm.trans hremoved

end JvmClass
