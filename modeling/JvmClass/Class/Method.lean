/-
  JvmClass.Class.Method — methods.

  A method has code unless it is abstract or native. Marker annotations of the class library say
  more about it: the visible ones count if the caller trusts them, the invisible ones always. A
  marker that makes no sense where it stands is passed over with a warning.
-/

import JvmClass.Bytecode.Code
import JvmClass.Class.Member
import JvmClass.File.Record

namespace JvmClass

structure MethodParameter where
  name : Option String
  flags : UInt16
  deriving DecidableEq

/-- The names and flags of the parameters, if the class file gives them in a usable way. -/
inductive MethodParameters
  | absent
  | malformed
  | present (parameters : List MethodParameter)
  deriving DecidableEq

structure Markers where
  callerSensitive : Bool := false
  lambdaFormCompiled : Bool := false
  lambdaFormHidden : Bool := false
  forceInline : Bool := false
  moduleInitializer : Bool := false
  /-- The question for assertions was removed from the code. -/
  hasAssertions : Bool := false
  deriving DecidableEq

structure Method where
  member : Member .ofMethod
  code : Option Code := none
  /-- The exceptions that the method declares, if it has such an attribute. -/
  declaredExceptions : Option (List String) := none
  parameterAnnotations : Option (List (List Annotation)) := none
  /-- The default of an element of an annotation type. -/
  annotationDefault : Option ElementValue := none
  parameters : MethodParameters := .absent
  /-- The field that the method compares and sets. -/
  compareAndSet : Option String := none
  markers : Markers := {}

namespace Method

def isStatic (m : Method) : Bool := m.member.access.has accStatic

def isAbstract (m : Method) : Bool := m.member.access.has accAbstract

def isNative (m : Method) : Bool := m.member.access.has accNative

def isConstructor (m : Method) : Bool := m.member.name == initName

def isClassInitializer (m : Method) : Bool := m.member.isNamed clinitName "()V"

def exceptions (m : Method) : List String := m.declaredExceptions.getD []

/-! ## Flags -/

/-- A constructor is not static, and neither final, synchronized, native nor abstract; an abstract
    method is overridden by a method of another class. -/
def areConsistentFlags (name : String) (a : Access .ofMethod) : Bool :=
  !(name == initName &&
      a.hasAny (accStatic ||| accSynchronized ||| accFinal ||| accAbstract ||| accNative)) &&
    !(a.has accAbstract &&
      a.hasAny (accFinal ||| accNative ||| accPrivate ||| accStatic ||| accSynchronized))

/-- Methods of interfaces are public, and abstract before version 52; from then on they may be
    private instead. -/
def areInterfaceFlags (version : Version) (a : Access .ofMethod) : Bool :=
  (if version.hasJava8Features then a.hasAny (accPublic ||| accPrivate)
    else a.has (accPublic ||| accAbstract)) &&
    !a.hasAny (accFinal ||| accNative ||| accSynchronized)

/-- Code that is run when the class is initialized; before version 51 whatever its flags. -/
def isInitializer (name descriptor : String) (version : Version) (a : Access .ofMethod) : Bool :=
  name == clinitName && descriptor == "()V" && (!version.hasJava7Features || a.has accStatic)

/-- Of the flags of an initializer only `strictfp` counts. -/
def initializerAccess (a : Access .ofMethod) : Access .ofMethod :=
  (Access.ofBits .ofMethod (a.bits &&& accStrict)).insert (accStatic ||| accPrivate)

/-- The flags of a method, unless they are illegal. -/
def access? (name descriptor : String) (bits : UInt16) (version : Version)
    (inInterface : Bool) : Option (Access .ofMethod) :=
  let a := Access.ofBits .ofMethod bits
  if isInitializer name descriptor version a then some (initializerAccess a)
  else if areConsistentFlags name a && !hasConflictingVisibility bits &&
      (!inInterface || areInterfaceFlags version a) then some a
  else none

/-! ## Attributes -/

variable {T F M : Type}

/-- Each exception has two bytes, and nothing else follows their number. -/
def readExceptions (info : List UInt8) : Build T F M (List String) := do
  let indices ← Build.read (do
    let count ← Read.short .truncated
    if info.length ≠ 2 + 2 * count.toNat then throw (.badLength "Exceptions")
    Read.many (Read.short .truncated) count.toNat) info
  indices.mapM Build.className

/-- The flags that a parameter may have: final, synthetic and mandated. -/
def parameterFlags : UInt16 := 0x9010

/-- Parameters of four bytes each. -/
def readParameters? (pool : Pool T F M) : List UInt8 → Option (List MethodParameter)
  | [] => some []
  | n₁ :: n₂ :: f₁ :: f₂ :: rest => do
    let index : Index := (n₁.toNat * 0x100 + n₂.toNat).toUInt16
    let flags : UInt16 := (f₁.toNat * 0x100 + f₂.toNat).toUInt16
    let name ← if index = 0 then some none else (pool.text? index).map some
    guard (flags &&& ~~~parameterFlags = 0)
    let others ← readParameters? pool rest
    return ⟨name, flags⟩ :: others
  | _ => none

/-- A payload that cannot be used does no harm. -/
def readParameters (pool : Pool T F M) : List UInt8 → MethodParameters
  | count :: entries =>
    if entries.length = 4 * count.toNat then
      match readParameters? pool entries with
      | some parameters => .present parameters
      | none => .malformed
    else .malformed
  | [] => .malformed

/-- The markers with a visible annotation. -/
def withTrusted (m : Markers) (a : Annotation) : Markers :=
  if a.type = callerSensitiveMarker then { m with callerSensitive := true }
  else if a.type = lambdaFormCompiledMarker then { m with lambdaFormCompiled := true }
  else if a.type = lambdaFormHiddenMarker then { m with lambdaFormHidden := true }
  else if a.type = forceInlineMarker then { m with forceInline := true }
  else m

/-- A method that can be run when its module is loaded. -/
def mayInitializeModule (cls : DeclaringClass) (m : Method) : Bool :=
  !cls.isInterface && !m.isConstructor && !m.isClassInitializer && m.isStatic &&
    !m.member.access.has accPrivate && m.member.descriptor == "()V"

/-- The method with an invisible annotation. -/
def withInvisible (cls : DeclaringClass) (m : Method) (a : Annotation) :
    Build T F M Method := do
  if a.type = internalMarker ∧ cls.options.staticCompiler then
    if cls.isInterface then
      Build.warn (.internalOnInterfaceMethod cls.name m.member.name)
      return m
    return { m with member := m.member.hide }
  else if a.type = moduleInitializerMarker then
    if m.mayInitializeModule cls then
      return { m with markers := { m.markers with moduleInitializer := true } }
    Build.warn (.malformedModuleInitializer cls.name m.member.name)
    return m
  else if a.type = compareAndSetMarker then
    match m.isStatic, (a.element? "value").bind ElementValue.text? with
    | true, some field => return { m with compareAndSet := some field }
    | _, _ =>
      Build.warn (.malformedCompareAndSet cls.name m.member.name)
      return m
  else return m

/-- A payload that is read to its end. -/
def readWhole {α : Type} (kind : String) (r : Read FormatFault α) (info : List UInt8) :
    Build T F M α :=
  Build.read (do
    let a ← r
    Read.expectEnd (.leftoverBytes kind)
    return a) info

def withAttribute (cls : DeclaringClass) (m : Method) (a : Attribute) : Build T F M Method := do
  let kind ← Build.kindOf cls.version a
  match ← m.member.withAttribute? kind a.info with
  | some member =>
    if kind = .visibleAnnotations ∧ cls.options.trustedAnnotations then
      return { m with member, markers := member.annotations.foldl withTrusted m.markers }
    return { m with member }
  | none =>
    match kind with
    | .code =>
      if m.code.isSome then throw (.repeatedAttribute "Code")
      let (code, constants) ← MonadExcept.ofExcept
        (Code.decode (← Build.pool) cls.options m.member.name m.member.descriptor m.isStatic
          a.info)
      Build.require constants
      return { m with code := some code }
    | .exceptions =>
      if m.declaredExceptions.isSome then throw (.repeatedAttribute "Exceptions")
      return { m with declaredExceptions := some (← readExceptions a.info) }
    | .visibleParameterAnnotations =>
      let read := (← Build.pool).elementConstants.readParameterAnnotations
      let lists ← readWhole "RuntimeVisibleParameterAnnotations" read a.info
      return { m with parameterAnnotations := some lists }
    | .annotationDefault =>
      let read := (← Build.pool).elementConstants.readValue
      return { m with annotationDefault := some (← readWhole "AnnotationDefault" read a.info) }
    | .methodParameters =>
      if m.parameters ≠ .absent then throw (.repeatedAttribute "MethodParameters")
      return { m with parameters := readParameters (← Build.pool) a.info }
    | .invisibleAnnotations => (← Build.annotations a.info).foldlM (withInvisible cls) m
    | _ => return m

/-! ## The whole method -/

/-- The name and descriptor of a declared method; constructors and static initializers return
    nothing. -/
def checkName (cls : DeclaringClass) (name descriptor : String) : Except FormatFault Unit :=
  if !isValidMethodDescriptor descriptor then
    .error (.methodDescriptor cls.name name descriptor)
  else if isValidMethodName name cls.version then .ok ()
  else if name ≠ initName ∧ name ≠ clinitName then .error (.methodName name)
  else if !endsInVoid descriptor then .error (.initializerDescriptor name descriptor)
  else .ok ()

/-- Code is there exactly if it should be; a static initializer without it fails when it is run. -/
def withCodeChecked (cls : DeclaringClass) (m : Method) : Except FormatFault Method :=
  if m.isAbstract || m.isNative then
    if m.code.isSome then .error .needlessCode else .ok m
  else if m.code.isSome then .ok m
  else if m.member.name = clinitName then
    let fault := .noCode cls.name m.member.name m.member.descriptor
    .ok { m with code := some (.missing fault) }
  else .error .missingCode

def build (cls : DeclaringClass) (info : MemberInfo) : Build T F M Method := do
  let name ← Build.text info.name
  let written ← Build.text info.descriptor
  MonadExcept.ofExcept (checkName cls name written)
  let descriptor := dotted written
  match access? name descriptor info.access cls.version cls.isInterface with
  | none => throw (.methodModifiers name cls.name info.access)
  | some access =>
    let m ← info.attributes.foldlM (withAttribute cls) { member := { name, descriptor, access } }
    MonadExcept.ofExcept (m.withCodeChecked cls)

end Method

end JvmClass
