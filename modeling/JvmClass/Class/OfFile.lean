/-
  JvmClass.Class.OfFile — from class files to classes.

  The version is checked first, then the pool is built, patched and resolved, then the header,
  the fields, the methods and the attributes are read in this order; the first thing that is
  wrong is reported. Every call site must have a bootstrap method.
-/

import JvmClass.Bytecode.Assertion
import JvmClass.Class.Attributes
import JvmClass.Class.Header
import JvmClass.Pool.Resolve

namespace JvmClass

/-! ## Assertions -/

/-- A field of the name that is static, final and of descriptor `Z` is among them. -/
def hasStaticFinal (fields : List Field) (name : String) : Bool :=
  fields.any fun f => f.member.isNamed name "Z" && f.isStatic && f.isFinal

/-- The first element that satisfies the test, changed. -/
def modifyFirst {α : Type} (test : α → Bool) (change : α → α) : List α → List α
  | [] => []
  | a :: rest => if test a then change a :: rest else a :: modifyFirst test change rest

/-- The method with the question for assertions removed from its code, and the field that is true
    from now on. -/
def Method.withoutAssertions? {T F M : Type} (pool : Pool T F M) (thisClass : String)
    (fields : List Field) (m : Method) : Option (MemberRef × Method) := do
  let code ← m.code
  let body ← code.decoded?
  let (field, body) ← removeAssertions pool thisClass (hasStaticFinal fields) body
  let code := { code with body := .decoded body }
  return (field, { m with code := some code, markers := { m.markers with hasAssertions := true } })

/-- The members with assertions off, if the first static initializer asks for them. -/
def withoutAssertions {T F M : Type} (pool : Pool T F M) (thisClass : String)
    (fields : List Field) (methods : List Method) : List Field × List Method :=
  match methods.find? (·.isClassInitializer) with
  | none => (fields, methods)
  | some m =>
    match m.withoutAssertions? pool thisClass fields with
    | none => (fields, methods)
    | some (field, m) =>
      (modifyFirst (·.member.isNamed field.name "Z")
          (fun f => { f with constant := some (.boolean true) }) fields,
        modifyFirst (·.isClassInitializer) (fun _ => m) methods)

/-! ## Call sites -/

/-- The bootstrap method that a call site asks for. -/
def Entry.bootstrap? {T F M : Type} : Entry T F M → Option Index
  | .invokeDynamic bootstrap _ _ _ => some bootstrap
  | _ => none

/-- So many bootstrap methods are enough for all call sites. -/
def Pool.areBootstrapped {T F M : Type} (p : Pool T F M) (count : Nat) : Bool :=
  p.entries.all fun e => e.bootstrap?.all fun i => i.toNat < count

namespace Class

variable {T F M : Type}

/-! ## The class -/

def buildFields (cls : DeclaringClass) (file : ClassFile) : Build T F M (List Field) := do
  let fields ← file.fields.mapM (Field.build cls)
  if hasDuplicates (fields.map (·.member.key)) then throw .repeatedField
  return fields

def buildMethods (cls : DeclaringClass) (file : ClassFile) : Build T F M (List Method) := do
  let methods ← file.methods.mapM (Method.build cls)
  if hasDuplicates (methods.map (·.member.key)) then throw .repeatedMethod
  return methods

/-- The class of a file whose pool is resolved. -/
def build (file : ClassFile) (options : Options) : Build T F M (Class T F M) := do
  let header ← MonadExcept.ofExcept (ClassHeader.ofFile (← Build.pool) file)
  let cls : DeclaringClass :=
    { name := header.name, version := header.version, isInterface := header.isInterface, options }
  let fields ← buildFields cls file
  let methods ← buildMethods cls file
  let resolved ← Build.pool
  let (fields, methods) :=
    if options.removeAssertions then withoutAssertions resolved header.name fields methods
    else (fields, methods)
  let attributes ← ClassAttributes.build header.version options file.attributes
  let pool ← Build.pool
  if !pool.areBootstrapped attributes.bootstrapMethods.length then throw .missingBootstrapMethod
  let access :=
    if attributes.isInternal then header.access.erase accPublic else header.access
  return { header with toClassAttributes := attributes, access, fields, methods, pool }

/-- The resolved pool of a file with patches laid over it. -/
def resolvePool [ToString T] (file : ClassFile) (input : String) (options : Options)
    (patches : List (Option (Patch T))) : Except Error (Pool T F M) := do
  let draft ← (Draft.ofConstants file.constants).mapError (.format (some input))
  let draft ← draft.patch input patches
  (draft.resolve F M ⟨file.version, options⟩).mapError (.format (some input))

/-- The class in a file, with the warnings that arose on the way. `input` is the name that the
    class is expected to have; errors are reported for it. -/
def ofFile [ToString T] (file : ClassFile) (input : String) (options : Options)
    (patches : List (Option (Patch T))) : Except Error (Class T F M) × Array Warning :=
  if !file.version.isSupported then (.error (.unsupportedVersion input file.version), #[])
  else
    match resolvePool file input options patches with
    | .error e => (.error e, #[])
    | .ok pool =>
      match EStateM.run (build file options) ⟨pool, #[]⟩ with
      | .ok c s => (.ok c, s.warnings)
      | .error fault s => (.error (.format (some input) fault), s.warnings)

end Class

end JvmClass
