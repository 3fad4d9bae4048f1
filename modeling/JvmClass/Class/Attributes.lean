/-
  JvmClass.Class.Attributes — the attributes of a class.

  An attribute that occurs again takes the place of the earlier one. Inner and outer classes and
  all that bootstrap methods need are marked for linking.
-/

import JvmClass.Class.Basic

namespace JvmClass

variable {T F M : Type}

/-! ## Inner classes -/

/-- The four numbers of an entry. -/
structure InnerClassInfo where
  inner : Index
  outer : Index
  name : Index
  access : UInt16

namespace InnerClassInfo

def read : Read FormatFault InnerClassInfo := do
  let inner ← Read.short .truncated
  let outer ← Read.short .truncated
  let name ← Read.short .truncated
  let access ← Read.short .truncated
  return { inner, outer, name, access }

/-- Each entry has eight bytes, and nothing else follows their number. -/
def readAll (info : List UInt8) : Read FormatFault (List InnerClassInfo) := do
  let count ← Read.short .truncated
  if info.length ≠ 2 + 8 * count.toNat then throw (.badLength "InnerClasses")
  Read.many read count.toNat

/-- Slot 0 stands for no outer class and for no name. -/
def check (pool : Pool T F M) (e : InnerClassInfo) : Except FormatFault InnerClass :=
  if !pool.isClass e.inner then .error .badInnerClass
  else if e.outer ≠ 0 ∧ !pool.isClass e.outer then .error .badOuterClass
  else if e.name ≠ 0 ∧ (pool.text? e.name).isNone then .error .badInnerName
  else if e.inner = e.outer then .error .innerIsOuter
  else
    .ok
      { inner := e.inner
        outer := if e.outer = 0 then none else some e.outer
        name := if e.name = 0 then none else pool.text? e.name
        access := .ofBits .ofInnerClass e.access }

end InnerClassInfo

/-- The classes that an entry names. -/
def InnerClass.classes (c : InnerClass) : List Index := c.inner :: c.outer.toList

def readInnerClasses (info : List UInt8) : Build T F M (List InnerClass) := do
  let entries ← Build.read (InnerClassInfo.readAll info) info
  let pool ← Build.pool
  let classes ← MonadExcept.ofExcept (entries.mapM (InnerClassInfo.check pool))
  Build.require (classes.flatMap InnerClass.classes)
  return classes

/-! ## Enclosing methods -/

/-- Slot 0 stands for no method. -/
def enclosingOf (pool : Pool T F M) (i : Index) : Except FormatFault (Option (String × String)) :=
  if i = 0 then .ok none
  else
    match pool.entry i with
    | .nameAndType name descriptor => do
      let name ← pool.text name
      let descriptor ← pool.text descriptor
      return some (name, dotted descriptor)
    | _ => .error (.badPoolIndex i.toNat)

def readEnclosingMethod (info : List UInt8) : Build T F M EnclosingMethod := do
  if info.length ≠ 4 then throw .badEnclosingMethod
  let (cls, method) ← Build.read (do return (← Read.short .truncated, ← Read.short .truncated))
    info
  let cls ← Build.className cls
  let method ← MonadExcept.ofExcept (enclosingOf (← Build.pool) method)
  return { cls, method }

/-! ## Bootstrap methods -/

namespace BootstrapMethod

def readArgument (pool : Pool T F M) : Read FormatFault Index := do
  let argument ← Read.short .truncated
  if pool.isLoadable argument then return argument
  else throw (.badBootstrapArgument argument.toNat)

def isHandle : Entry T F M → Bool
  | .methodHandle .. => true
  | _ => false

def read (pool : Pool T F M) : Read FormatFault BootstrapMethod := do
  let handle ← Read.short .truncated
  if !isHandle (pool.entry handle) then throw (.badBootstrapHandle handle.toNat)
  let arguments ← Read.counted .truncated (readArgument pool)
  return { handle, arguments }

/-- All methods, with nothing after the last. -/
def readAll (pool : Pool T F M) : Read FormatFault (List BootstrapMethod) := do
  let methods ← Read.counted .truncated (read pool)
  Read.expectEnd .badBootstrapMethods
  return methods

/-- The constants that the method needs. -/
def constants (m : BootstrapMethod) : List Index := m.handle :: m.arguments

end BootstrapMethod

def readBootstrapMethods (info : List UInt8) : Build T F M (List BootstrapMethod) := do
  let methods ← Build.read (BootstrapMethod.readAll (← Build.pool)) info
  Build.require (methods.flatMap BootstrapMethod.constants)
  return methods

/-! ## All attributes -/

namespace ClassAttributes

/-- The attributes so far with one more. -/
def withAttribute (version : Version) (options : Options) (c : ClassAttributes)
    (a : Attribute) : Build T F M ClassAttributes := do
  match ← Build.kindOf version a with
  | .deprecated =>
    if a.info.isEmpty then return { c with isDeprecated := true } else throw .badDeprecated
  | .sourceFile => return { c with sourceFile := ← Build.singleText "SourceFile" a.info }
  | .innerClasses => return { c with innerClasses := ← readInnerClasses a.info }
  | .signature => return { c with signature := ← Build.singleText "Signature" a.info }
  | .enclosingMethod => return { c with enclosingMethod := ← readEnclosingMethod a.info }
  | .visibleAnnotations => return { c with annotations := ← Build.annotations a.info }
  | .invisibleAnnotations =>
    let isMarked := (← Build.annotations a.info).any (·.type == internalMarker)
    if isMarked && options.staticCompiler then return { c with isInternal := true } else return c
  | .bootstrapMethods => return { c with bootstrapMethods := ← readBootstrapMethods a.info }
  | .visibleTypeAnnotations =>
    Build.exposeTexts
    return { c with typeAnnotations := some a.info }
  | .assembly => return { c with assembly := ← Build.singleText "IKVM.NET.Assembly" a.info }
  | _ => return c

def build (version : Version) (options : Options) (attributes : List Attribute) :
    Build T F M ClassAttributes :=
  attributes.foldlM (withAttribute version options) {}

end ClassAttributes

end JvmClass
