/-
  JvmClass.Proofs.Trapping.Class — building a class never traps.

  Each part of the program that looks at something by its position, subtracts, or goes on for as long as
  it takes, is stated once more with nothing that stands in for what is not there. While a class is built
  its pool stays sound, as it only gets marks and exposed texts; that keeps every part from trapping
  (`agrees_build`), and so the whole of it has an outcome for every class file, and the same one
  (`ofFile_eq`). What goes wrong is a fault of the format, reported for the expected name
  (`ofFile_never_traps`).
-/

import JvmClass.Proofs.Class.Ensuring
import JvmClass.Proofs.Class.Marking
import JvmClass.Proofs.Trapping.Bytecode
import JvmClass.Proofs.Trapping.Pool

namespace JvmClass

namespace Trapping

variable {T F M α β : Type}

/-! ## Repetitions -/

/-- Each element is looked for behind its position. -/
def hasDuplicatesPairwise [BEq α] (l : List α) : Option Bool :=
  l.zipIdx.anyM fun (a, i) => do return (← slice l (i + 1) l.length).contains a

def hasDuplicates [BEq α] [Hashable α] (l : List α) : Option Bool :=
  if l.length < pairwiseLimit then hasDuplicatesPairwise l else some (hasDuplicatesHashed l)

/-! ## Headers -/

def headerOfFile (pool : Pool T F M) (file : ClassFile) : ExceptT FormatFault Option ClassHeader := do
  let access := ClassHeader.accessOf file.access file.version
  if !ClassHeader.areLegalFlags access file.version then throw (.classModifiers file.access)
  let name ← ClassHeader.nameAt pool .badThisClass file.thisClass
  if name.toList.head? = some '[' then throw .arrayAsThisClass
  let superclass ← ClassHeader.superclassOf pool name file.superClass
  if access.has accInterface ∧ superclass ≠ some objectName then throw .interfaceSuperClass
  let interfaces ← (file.interfaces.mapM (ClassHeader.nameAt pool .badInterface) : Except FormatFault (List String))
  if ← hasDuplicates interfaces then throw .repeatedInterface
  return { version := file.version, access, thisClass := file.thisClass, name, superclass, interfaces }

/-! ## Parameters of methods -/

/-- Pieces of four bytes; a shorter rest is passed over. -/
def pieces : List UInt8 → List (List UInt8)
  | a :: b :: c :: d :: rest => [a, b, c, d] :: pieces rest
  | _ => []

/-- A number of two bytes. -/
def shortOf (bytes : List UInt8) : Option UInt16 := do
  return ((← bytes[0]?).toNat * 0x100 + (← bytes[1]?).toNat).toUInt16

/-- The parameter, if its name and its flags are usable. -/
def parameterOf? (pool : Pool T F M) (index : Index) (flags : UInt16) : Option MethodParameter :=
  let name? := if index = 0 then some none else (pool.text? index).map some
  if flags &&& ~~~Method.parameterFlags = 0 then name?.map (⟨·, flags⟩) else none

def readParameter (pool : Pool T F M) (piece : List UInt8) : Option (Option MethodParameter) := do
  let index ← shortOf (← slice piece 0 2)
  let flags ← shortOf (← slice piece 2 4)
  return parameterOf? pool index flags

def readParametersFrom (pool : Pool T F M) : List (List UInt8) → Option (Option (List MethodParameter))
  | [] => some (some [])
  | piece :: rest => do
    match ← readParameter pool piece with
    | some parameter => return (← readParametersFrom pool rest).map (parameter :: ·)
    | none => return none

def readParameters (pool : Pool T F M) : List UInt8 → Option MethodParameters
  | count :: entries =>
    if entries.length = 4 * count.toNat then do
      return (← readParametersFrom pool (pieces entries)).elim .malformed .present
    else some .malformed
  | [] => some .malformed

/-! ## Assertions -/

def methodWithoutAssertions (pool : Pool T F M) (thisClass : String) (fields : List Field) (m : Method) :
    Option (Option (MemberRef × Method)) :=
  match m.code, m.code.bind (·.decoded?) with
  | some code, some body => do
    return (← removeAssertions pool thisClass (hasStaticFinal fields) body).map fun (field, body) =>
      let code := { code with body := .decoded body }
      (field, { m with code := some code, markers := { m.markers with hasAssertions := true } })
  | _, _ => some none

def withoutAssertions (pool : Pool T F M) (thisClass : String) (fields : List Field) (methods : List Method) :
    Option (List Field × List Method) :=
  match methods.find? (·.isClassInitializer) with
  | none => some (fields, methods)
  | some m => do
    match ← methodWithoutAssertions pool thisClass fields m with
    | none => return (fields, methods)
    | some (field, m) =>
      return (modifyFirst (·.member.isNamed field.name "Z")
          (fun f => { f with constant := some (.boolean true) }) fields,
        modifyFirst (·.isClassInitializer) (fun _ => m) methods)

/-- The members as the options ask for them. -/
def membersFor (options : Options) (pool : Pool T F M) (thisClass : String) (fields : List Field)
    (methods : List Method) : Option (List Field × List Method) :=
  if options.removeAssertions then withoutAssertions pool thisClass fields methods else some (fields, methods)

/-! ## Members and attributes -/

/-- Building a class where a computation may trap. -/
abbrev TrappingBuild (T F M : Type) := Trapping FormatFault (BuildState T F M)

def requireConstants (indices : List Index) : TrappingBuild T F M Unit := ExceptT.mk fun s =>
  (requireAll s.pool indices).map fun pool => (.ok (), { s with pool })

def buildField (cls : DeclaringClass) (info : MemberInfo) : TrappingBuild T F M Field := do
  let name ← (Build.text info.name : Build T F M String)
  let descriptor ← (Build.text info.descriptor : Build T F M String)
  if !(← isValidFieldDescriptor descriptor) then throw (.fieldDescriptor name descriptor)
  if !isValidFieldName name cls.version then throw (.fieldName name)
  if !Field.areLegalFlags info.access cls.isInterface then throw (.fieldModifiers info.access)
  let member := { name, descriptor := dotted descriptor, access := .ofBits .ofField info.access }
  (info.attributes.foldlM (Field.withAttribute cls) { member } : Build T F M Field)

def checkMethodName (cls : DeclaringClass) (name descriptor : String) : ExceptT FormatFault Option Unit := do
  if !(← isValidMethodDescriptor descriptor) then throw (.methodDescriptor cls.name name descriptor)
  else if isValidMethodName name cls.version then return
  else if name ≠ initName ∧ name ≠ clinitName then throw (.methodName name)
  else if !endsInVoid descriptor then throw (.initializerDescriptor name descriptor)
  else return

/-- Only code and the parameters are looked at by position. -/
def methodWithAttribute (cls : DeclaringClass) (m : Method) (a : Attribute) : TrappingBuild T F M Method := do
  match ← (Build.kindOf cls.version a : Build T F M AttributeKind) with
  | .code =>
    if m.code.isSome then throw (.repeatedAttribute "Code")
    let pool ← (Build.pool : Build T F M (Pool T F M))
    let (code, constants) ←
      decodeCode pool cls.options m.member.name m.member.descriptor m.isStatic a.info
    requireConstants constants
    return { m with code := some code }
  | .methodParameters =>
    if m.parameters ≠ .absent then throw (.repeatedAttribute "MethodParameters")
    let pool ← (Build.pool : Build T F M (Pool T F M))
    return { m with parameters := ← readParameters pool a.info }
  | _ => (m.withAttribute cls a : Build T F M Method)

def buildMethod (cls : DeclaringClass) (info : MemberInfo) : TrappingBuild T F M Method := do
  let name ← (Build.text info.name : Build T F M String)
  let written ← (Build.text info.descriptor : Build T F M String)
  checkMethodName cls name written
  let descriptor := dotted written
  match Method.access? name descriptor info.access cls.version cls.isInterface with
  | none => throw (.methodModifiers name cls.name info.access)
  | some access =>
    let m ← info.attributes.foldlM (methodWithAttribute cls) { member := { name, descriptor, access } }
    (MonadExcept.ofExcept (m.withCodeChecked cls) : Build T F M Method)

def buildInnerClasses (info : List UInt8) : TrappingBuild T F M (List InnerClass) := do
  let entries ← (Build.read (InnerClassInfo.readAll info) info : Build T F M (List InnerClassInfo))
  let pool ← (Build.pool : Build T F M (Pool T F M))
  let classes ← (MonadExcept.ofExcept (entries.mapM (InnerClassInfo.check pool)) : Build T F M (List InnerClass))
  requireConstants (classes.flatMap InnerClass.classes)
  return classes

def buildBootstrapMethods (info : List UInt8) : TrappingBuild T F M (List BootstrapMethod) := do
  let pool ← (Build.pool : Build T F M (Pool T F M))
  let methods ← (Build.read (BootstrapMethod.readAll pool) info : Build T F M (List BootstrapMethod))
  requireConstants (methods.flatMap BootstrapMethod.constants)
  return methods

/-- Only what marks constants goes from slot to slot. -/
def classWithAttribute (version : Version) (options : Options) (c : ClassAttributes) (a : Attribute) :
    TrappingBuild T F M ClassAttributes := do
  match ← (Build.kindOf version a : Build T F M AttributeKind) with
  | .innerClasses => return { c with innerClasses := ← buildInnerClasses a.info }
  | .bootstrapMethods => return { c with bootstrapMethods := ← buildBootstrapMethods a.info }
  | _ => (c.withAttribute version options a : Build T F M ClassAttributes)

/-! ## Classes -/

def buildFields (cls : DeclaringClass) (file : ClassFile) : TrappingBuild T F M (List Field) := do
  let fields ← file.fields.mapM (buildField cls)
  if ← hasDuplicates (fields.map (·.member.key)) then throw .repeatedField
  return fields

def buildMethods (cls : DeclaringClass) (file : ClassFile) : TrappingBuild T F M (List Method) := do
  let methods ← file.methods.mapM (buildMethod cls)
  if ← hasDuplicates (methods.map (·.member.key)) then throw .repeatedMethod
  return methods

def build (file : ClassFile) (options : Options) : TrappingBuild T F M (Class T F M) := do
  let start ← (Build.pool : Build T F M (Pool T F M))
  let header ← headerOfFile start file
  let cls : DeclaringClass :=
    { name := header.name, version := header.version, isInterface := header.isInterface, options }
  let fields ← buildFields cls file
  let methods ← buildMethods cls file
  let resolved ← (Build.pool : Build T F M (Pool T F M))
  let (fields, methods) ← membersFor options resolved header.name fields methods
  let attributes ← file.attributes.foldlM (classWithAttribute header.version options) {}
  let pool ← (Build.pool : Build T F M (Pool T F M))
  if !pool.areBootstrapped attributes.bootstrapMethods.length then throw .missingBootstrapMethod
  let access := if attributes.isInternal then header.access.erase accPublic else header.access
  return { header with toClassAttributes := attributes, access, fields, methods, pool }

/-- The class in a file, with the warnings; nothing if the program traps on the way. -/
def ofFile [ToString T] (file : ClassFile) (input : String) (options : Options) (patches : List (Option (Patch T))) :
    Option (Except Error (Class T F M) × Array Warning) :=
  if !file.version.isSupported then some (.error (.unsupportedVersion input file.version), #[])
  else do
    match ← (resolvePool file input options patches : ExceptT Error Option (Pool T F M)).run with
    | .error e => return (.error e, #[])
    | .ok pool =>
      let (result, s) ← (build file options).run ⟨pool, #[]⟩
      return (result.mapError (.format (some input)), s.warnings)

/-! ## Repetitions agree -/

/-- Behind each element is what follows it. -/
theorem hasDuplicatesPairwise_eq [BEq α] (l : List α) :
    hasDuplicatesPairwise l = some (JvmClass.hasDuplicatesPairwise l) := by
  have hfrom (before after : List α) (h : before ++ after = l) :
      (after.zipIdx before.length).anyM (fun (a, i) => do return (← slice l (i + 1) l.length).contains a) =
        some (JvmClass.hasDuplicatesPairwise after) := by
    induction after generalizing before with
    | nil => rfl
    | cons a after ih =>
      have hslice : slice l (before.length + 1) l.length = some after := by
        rw [slice_length (by simp [← h]), ← h]
        simp
      have hrest := ih (before ++ [a]) (by simp [h])
      rw [List.length_append, List.length_singleton] at hrest
      rw [List.zipIdx_cons, List.anyM_cons, hrest, JvmClass.hasDuplicatesPairwise]
      simp only [hslice, Option.bind_eq_bind, Option.bind_some, Option.pure_def]
      cases after.contains a <;> rfl
  exact hfrom [] l rfl

theorem hasDuplicates_eq [BEq α] [Hashable α] (l : List α) : hasDuplicates l = some (JvmClass.hasDuplicates l) := by
  unfold hasDuplicates JvmClass.hasDuplicates
  rw [hasDuplicatesPairwise_eq]
  split <;> rfl

theorem headerOfFile_eq (pool : Pool T F M) (file : ClassFile) :
    headerOfFile pool file = liftM (ClassHeader.ofFile pool file) := by
  refine check_eq_liftM (bind_eq_liftM fun name _ => check_eq_liftM (bind_eq_liftM fun superclass _ =>
    check_eq_liftM (bind_eq_liftM fun interfaces _ => ?_)))
  rw [hasDuplicates_eq, liftM_some, pure_bind]
  exact check_eq_liftM rfl

/-! ## Parameters agree -/

theorem readParameters?_cons (pool : Pool T F M) (n₁ n₂ f₁ f₂ : UInt8) (rest : List UInt8) :
    Method.readParameters? pool (n₁ :: n₂ :: f₁ :: f₂ :: rest) =
      (parameterOf? pool (n₁.toNat * 0x100 + n₂.toNat).toUInt16 (f₁.toNat * 0x100 + f₂.toNat).toUInt16).bind
        fun parameter => (Method.readParameters? pool rest).map (parameter :: ·) := by
  rw [Method.readParameters?, parameterOf?]
  by_cases hindex : (n₁.toNat * 0x100 + n₂.toNat).toUInt16 = 0 <;>
    by_cases hflags : (f₁.toNat * 0x100 + f₂.toNat).toUInt16 &&& ~~~Method.parameterFlags = 0 <;>
      simp only [hindex, hflags]
  · cases Method.readParameters? pool rest <;> rfl
  · rfl
  · cases pool.text? (n₁.toNat * 0x100 + n₂.toNat).toUInt16 <;> cases Method.readParameters? pool rest <;> rfl
  · cases pool.text? (n₁.toNat * 0x100 + n₂.toNat).toUInt16 <;> rfl

/-- All pieces have four bytes, if the bytes come to pieces at all. -/
theorem readParametersFrom_eq (pool : Pool T F M) {entries : List UInt8} (h : entries.length % 4 = 0) :
    readParametersFrom pool (pieces entries) = some (Method.readParameters? pool entries) := by
  induction entries using pieces.induct with
  | case1 n₁ n₂ f₁ f₂ rest ih =>
    have hrest := ih (by simp only [List.length_cons] at h; omega)
    have hpiece : readParameter pool [n₁, n₂, f₁, f₂] = some (parameterOf? pool
        (n₁.toNat * 0x100 + n₂.toNat).toUInt16 (f₁.toNat * 0x100 + f₂.toNat).toUInt16) := rfl
    rw [pieces, readParametersFrom, hpiece, hrest, readParameters?_cons]
    cases parameterOf? pool (n₁.toNat * 0x100 + n₂.toNat).toUInt16 (f₁.toNat * 0x100 + f₂.toNat).toUInt16 <;> rfl
  | case2 entries hshort =>
    match entries, hshort, h with
    | [], _, _ => rfl
    | n₁ :: n₂ :: f₁ :: f₂ :: rest, hshort, _ => exact (hshort n₁ n₂ f₁ f₂ rest rfl).elim

theorem readParameters_eq (pool : Pool T F M) (info : List UInt8) :
    readParameters pool info = some (Method.readParameters pool info) := by
  cases info with
  | nil => rfl
  | cons count entries =>
    rw [readParameters, Method.readParameters]
    by_cases hlength : entries.length = 4 * count.toNat
    · rw [if_pos hlength, if_pos hlength, readParametersFrom_eq pool (by omega)]
      cases Method.readParameters? pool entries <;> rfl
    · rw [if_neg hlength, if_neg hlength]

/-! ## Assertions agree -/

theorem methodWithoutAssertions_eq (pool : Pool T F M) (thisClass : String) (fields : List Field) (m : Method) :
    methodWithoutAssertions pool thisClass fields m = some (m.withoutAssertions? pool thisClass fields) := by
  unfold methodWithoutAssertions Method.withoutAssertions?
  cases m.code with
  | none => rfl
  | some code =>
    simp only [Option.bind_eq_bind, Option.bind_some]
    cases code.decoded? with
    | none => rfl
    | some body =>
      simp only [removeAssertions_eq, Option.bind_some]
      cases JvmClass.removeAssertions pool thisClass (hasStaticFinal fields) body <;> rfl

theorem withoutAssertions_eq (pool : Pool T F M) (thisClass : String) (fields : List Field) (methods : List Method) :
    withoutAssertions pool thisClass fields methods =
      some (JvmClass.withoutAssertions pool thisClass fields methods) := by
  unfold withoutAssertions JvmClass.withoutAssertions
  cases methods.find? (·.isClassInitializer) with
  | none => rfl
  | some m =>
    simp only [methodWithoutAssertions_eq, Option.bind_eq_bind, Option.bind_some]
    cases m.withoutAssertions? pool thisClass fields <;> rfl

theorem membersFor_eq (options : Options) (pool : Pool T F M) (thisClass : String) (fields : List Field)
    (methods : List Method) : membersFor options pool thisClass fields methods =
      some (if options.removeAssertions then JvmClass.withoutAssertions pool thisClass fields methods
        else (fields, methods)) := by
  unfold membersFor
  rw [withoutAssertions_eq]
  split <;> rfl

/-! ## Building agrees -/

open Build (Quiet)

/-- The pool but for marks and exposed texts. -/
def IsOfPool (p : Pool T F M) (s : BuildState T F M) : Prop := s.pool.frozen = p.frozen

section Agrees

variable {p : Pool T F M}

theorem agrees_of_marks {x : Build T F M α} {needs : Pool T F M → Index → Prop} (h : x.Marks needs) :
    Agrees (IsOfPool p) (IsOfPool p) (sure x) x :=
  .sure fun s a s' hs hx => (h s a s' hx).frozen.trans hs

theorem agrees_of_quiet {x : Build T F M α} (h : x.Quiet) : Agrees (IsOfPool p) (IsOfPool p) (sure x) x :=
  agrees_of_marks h

theorem agrees_pool : Agrees (IsOfPool p) (IsOfPool p) (sure Build.pool) Build.pool := agrees_of_quiet .pool

theorem agrees_text (i : Index) : Agrees (IsOfPool p) (IsOfPool p) (sure (Build.text i)) (Build.text i) :=
  agrees_of_quiet (.text i)

theorem agrees_ofExcept (x : Except FormatFault α) : Agrees (IsOfPool p) (IsOfPool p)
    (sure (MonadExcept.ofExcept x : Build T F M α)) (MonadExcept.ofExcept x) := agrees_of_quiet (.ofExcept x)

theorem agrees_read (r : Read FormatFault α) (info : List UInt8) :
    Agrees (IsOfPool p) (IsOfPool p) (sure (Build.read r info)) (Build.read r info) := agrees_of_quiet (.read r info)

/-- A computation that goes on from the kind of an attribute, for some kinds with parts that may trap. -/
theorem agrees_afterKind {version : Version} {a : Attribute} {x : AttributeKind → TrappingBuild T F M α}
    {f : AttributeKind → Build T F M α} {y : Build T F M α} {needs : Pool T F M → Index → Prop}
    (hy : y = Build.kindOf version a >>= f) (hmarks : y.Marks needs)
    (hx : ∀ kind, x kind = sure y ∨ Agrees (IsOfPool p) (IsOfPool p) (x kind) (f kind)) :
    Agrees (IsOfPool p) (IsOfPool p) (sure (Build.kindOf version a) >>= x) y := by
  refine ⟨fun s hs => ?_, fun s b s' hs h => (hmarks s b s' h).frozen.trans hs⟩
  have hrun : (sure (Build.kindOf version a) >>= x).run s =
      ExceptT.bindCont x (outcome (Build.kindOf version a s)).1 (outcome (Build.kindOf version a s)).2 := rfl
  have happly := bind_apply (Build.kindOf version a) f s
  rw [← hy] at happly
  rw [hrun]
  cases h : Build.kindOf version a s with
  | ok kind s' =>
    rw [h] at happly
    -- to look at the kind leaves the state, so the part for it starts from the same one
    obtain ⟨-, rfl⟩ := Build.kindOf_eq_ok.mp h
    rcases hx kind with hsure | hagrees
    · exact congrArg (fun y : TrappingBuild T F M α => y.run s) hsure
    · exact (hagrees.runs s hs).trans (congrArg (fun r => some (outcome r)) happly.symm)
  | error e s' =>
    rw [h] at happly
    rw [happly]
    rfl

theorem agrees_buildField (cls : DeclaringClass) (info : MemberInfo) :
    Agrees (IsOfPool p) (IsOfPool p) (buildField cls info) (Field.build cls info) := by
  refine (agrees_text _).bind fun name => (agrees_text _).bind fun descriptor => ?_
  rw [isValidFieldDescriptor_eq]
  exact .check fun _ => .check fun _ => .check fun _ =>
    agrees_of_quiet (.foldlM (Field.quiet_withAttribute cls) _ _)

theorem agrees_buildFields (cls : DeclaringClass) (file : ClassFile) :
    Agrees (IsOfPool p) (IsOfPool p) (buildFields cls file) (Class.buildFields cls file) := by
  refine (Agrees.mapM (agrees_buildField cls) _).bind fun fields => ?_
  rw [hasDuplicates_eq]
  exact .check fun _ => .pure fields

theorem checkMethodName_eq (cls : DeclaringClass) (name descriptor : String) :
    checkMethodName cls name descriptor = liftM (Method.checkName cls name descriptor) := by
  unfold checkMethodName Method.checkName
  rw [isValidMethodDescriptor_eq, liftM_some, pure_bind]
  split
  · rfl
  split
  · rfl
  split
  · rfl
  split <;> rfl

variable {rules : Rules} {d : Draft T} (hp : p.Sound rules d)
include hp

theorem agrees_requireConstants (indices : List Index) :
    Agrees (IsOfPool p) (IsOfPool p) (requireConstants indices) (Build.require indices) where
  runs := by
    intro s hs
    have hrun : (requireConstants indices).run s =
        (requireAll s.pool indices).map fun pool => (Except.ok (), { s with pool }) := rfl
    rw [hrun, requireAll_eq (hp.of_frozen hs)]
    rfl
  keeps s a s' hs h := (Build.marks_require indices s a s' h).frozen.trans hs

theorem agrees_methodWithAttribute (cls : DeclaringClass) (m : Method) (a : Attribute) :
    Agrees (IsOfPool p) (IsOfPool p) (methodWithAttribute cls m a) (m.withAttribute cls a) := by
  refine agrees_afterKind rfl (Method.marks_withAttribute cls m a) fun kind => ?_
  cases kind with
  | code =>
    refine .inr (.check fun _ => agrees_pool.bind fun pool => ?_)
    refine (Agrees.ofExcept (decodeCode_eq pool _ _ _ _ _)).bind fun (code, constants) => ?_
    exact (agrees_requireConstants hp constants).bind fun _ => .pure _
  | methodParameters =>
    refine .inr (.check fun _ => agrees_pool.bind fun pool => ?_)
    rw [readParameters_eq]
    exact .pure _
  | _ => exact .inl rfl

theorem agrees_buildMethod (cls : DeclaringClass) (info : MemberInfo) :
    Agrees (IsOfPool p) (IsOfPool p) (buildMethod cls info) (Method.build cls info) := by
  refine (agrees_text _).bind fun name => (agrees_text _).bind fun written => ?_
  refine (Agrees.ofExcept (checkMethodName_eq cls name written)).bind fun _ => ?_
  dsimp only
  cases Method.access? name (dotted written) info.access cls.version cls.isInterface with
  | none => exact .throw _
  | some access => exact (Agrees.foldlM (agrees_methodWithAttribute hp cls) _ _).bind fun m => agrees_ofExcept _

theorem agrees_buildInnerClasses (info : List UInt8) :
    Agrees (IsOfPool p) (IsOfPool p) (buildInnerClasses info) (readInnerClasses info) :=
  (agrees_read _ _).bind fun _ => agrees_pool.bind fun _ => (agrees_ofExcept _).bind fun classes =>
    (agrees_requireConstants hp _).bind fun _ => .pure classes

theorem agrees_buildBootstrapMethods (info : List UInt8) :
    Agrees (IsOfPool p) (IsOfPool p) (buildBootstrapMethods info) (readBootstrapMethods info) :=
  agrees_pool.bind fun _ => (agrees_read _ _).bind fun methods =>
    (agrees_requireConstants hp _).bind fun _ => .pure methods

theorem agrees_classWithAttribute (version : Version) (options : Options) (c : ClassAttributes) (a : Attribute) :
    Agrees (IsOfPool p) (IsOfPool p) (classWithAttribute version options c a) (c.withAttribute version options a) := by
  refine agrees_afterKind rfl (ClassAttributes.marks_withAttribute version options c a) fun kind => ?_
  cases kind with
  | innerClasses => exact .inr ((agrees_buildInnerClasses hp a.info).bind fun _ => .pure _)
  | bootstrapMethods => exact .inr ((agrees_buildBootstrapMethods hp a.info).bind fun _ => .pure _)
  | _ => exact .inl rfl

theorem agrees_buildMethods (cls : DeclaringClass) (file : ClassFile) :
    Agrees (IsOfPool p) (IsOfPool p) (buildMethods cls file) (Class.buildMethods cls file) := by
  refine (Agrees.mapM (agrees_buildMethod hp cls) _).bind fun methods => ?_
  rw [hasDuplicates_eq]
  exact .check fun _ => .pure methods

theorem agrees_build (file : ClassFile) (options : Options) :
    Agrees (IsOfPool p) (IsOfPool p) (build file options) (Class.build file options) := by
  refine agrees_pool.bind fun start => (Agrees.ofExcept (headerOfFile_eq start file)).bind fun header => ?_
  refine (agrees_buildFields _ file).bind fun fields => (agrees_buildMethods hp _ file).bind fun methods => ?_
  refine agrees_pool.bind fun resolved => ?_
  dsimp only
  rw [membersFor_eq]
  generalize (if options.removeAssertions = true then JvmClass.withoutAssertions resolved header.name fields methods
    else (fields, methods)) = members
  exact (Agrees.foldlM (agrees_classWithAttribute hp header.version options) _ _).bind fun attributes =>
    agrees_pool.bind fun _ => .check fun _ => .pure _

end Agrees

/-! ## The whole program -/

theorem ofFile_eq [ToString T] (file : ClassFile) (input : String) (options : Options)
    (patches : List (Option (Patch T))) :
    (ofFile file input options patches : Option (Except Error (Class T F M) × Array Warning)) =
      some (Class.ofFile file input options patches) := by
  unfold ofFile Class.ofFile
  split
  · rfl
  rw [resolvePool_eq, run_liftM]
  simp only [Option.bind_eq_bind, Option.bind_some]
  cases hpool : (Class.resolvePool file input options patches : Except Error (Pool T F M)) with
  | error e => rfl
  | ok p =>
    simp only [Class.resolvePool, Except.bind_eq_ok, Except.mapError_eq_ok] at hpool
    obtain ⟨draft, hbuild, patched, hpatch, hresolve⟩ := hpool
    have hvacant := Draft.startsVacant_patch (Draft.startsVacant_ofConstants hbuild) hpatch
    have hsound := Draft.sound_resolve hvacant hresolve
    have hrun := (agrees_build hsound file options).runs ⟨p, #[]⟩ rfl
    simp only [hrun, Option.bind_some, EStateM.run]
    cases Class.build file options ⟨p, #[]⟩ <;> rfl

end Trapping

/-! ## What goes wrong -/

namespace Version

/-- The version is before 45.0 or after 52.0. -/
def IsOutOfRange (v : Version) : Prop :=
  v.major.toNat < 45 ∨ 52 < v.major.toNat ∨ v.major.toNat = 52 ∧ 0 < v.minor.toNat

theorem isSupported_iff {v : Version} : v.isSupported = true ↔ ¬v.IsOutOfRange := by
  have hfirst : java1.major.toNat = 45 ∧ java1.minor.toNat = 0 := by decide
  have hlast : java8.major.toNat = 52 ∧ java8.minor.toNat = 0 := by decide
  rw [isSupported, Bool.and_eq_true, decide_eq_true_iff, decide_eq_true_iff, le_iff, le_iff, IsOutOfRange, hfirst.1,
    hfirst.2, hlast.1, hlast.2]
  omega

end Version

/-- An unsupported version is reported as such; whatever else is wrong is a fault of the format. All is reported for
    the expected name. -/
def IsReportedFor {α : Type} (input : String) (version : Version) : Except Error α → Prop
  | .ok _ => ¬version.IsOutOfRange
  | .error (.unsupportedVersion name v) => version.IsOutOfRange ∧ name = input ∧ v = version
  | .error (.format cls _) => ¬version.IsOutOfRange ∧ cls = some input
  | .error (.notImplemented _) => False

namespace Class

variable {T F M : Type} [ToString T] (file : ClassFile) (input : String) (options : Options)

/-- Without patches nothing but the constants can be wrong before the class is built. -/
theorem fault_of_resolvePool {e : Error}
    (h : (resolvePool file input options [] : Except Error (Pool T F M)) = .error e) :
    ∃ fault, e = .format (some input) fault := by
  have hformat {α : Type} {x : Except FormatFault α} (hx : x.mapError (Error.format (some input)) = .error e) :
      ∃ fault, e = .format (some input) fault := by
    cases x with
    | ok a => cases hx
    | error fault =>
      cases hx
      exact ⟨fault, rfl⟩
  obtain h | ⟨draft, -, h⟩ := Except.bind_eq_error.mp h
  · exact hformat h
  · rw [Draft.patch_nil] at h
    exact hformat h

theorem reported_of_ofFile :
    IsReportedFor input file.version (ofFile file input options [] : Except Error (Class T F M) × Array Warning).1 := by
  unfold ofFile
  by_cases hversion : file.version.isSupported = true
  · have hrange := Version.isSupported_iff.mp hversion
    rw [if_neg (by simp [hversion])]
    cases hpool : (resolvePool file input options [] : Except Error (Pool T F M)) with
    | error e =>
      obtain ⟨fault, rfl⟩ := fault_of_resolvePool file input options hpool
      exact ⟨hrange, rfl⟩
    | ok pool =>
      dsimp only
      cases EStateM.run (build file options) ⟨pool, #[]⟩ with
      | ok c s => exact hrange
      | error fault s => exact ⟨hrange, rfl⟩
  · rw [if_pos (by simpa using hversion)]
    exact ⟨Classical.not_not.mp fun hrange => hversion (Version.isSupported_iff.mpr hrange), rfl, rfl⟩

/-- No class file makes the program trap, whatever its patches; without them, what is wrong is reported for the
    expected name. -/
theorem ofFile_never_traps :
    (∀ patches, (Trapping.ofFile file input options patches : Option (Except Error (Class T F M) × Array Warning)) =
      some (ofFile file input options patches)) ∧
      IsReportedFor input file.version (ofFile file input options [] : Except Error (Class T F M) × Array Warning).1 :=
  ⟨Trapping.ofFile_eq file input options, reported_of_ofFile file input options⟩

end Class

end JvmClass
