/-
  JvmClass.Class.Header — what is checked of a class before its members are read.
-/

import JvmClass.Class.Basic
import JvmClass.Duplicate

namespace JvmClass

namespace ClassHeader

/-- Interfaces before version 49 need not be declared abstract. -/
def accessOf (bits : UInt16) (version : Version) : Access .ofClass :=
  let a := Access.ofBits .ofClass bits
  if a.has accInterface && !version.hasJava5Features then a.insert accAbstract else a

/-- From version 49 annotation types are interfaces, and interfaces are abstract and neither enums
    nor marked `super`. -/
def areModernFlags (a : Access .ofClass) : Bool :=
  (!a.has accAnnotation || a.has accInterface) &&
    (!a.has accInterface || a.has accAbstract && !a.hasAny (accSuper ||| accEnum))

def areLegalFlags (a : Access .ofClass) (version : Version) : Bool :=
  !(a.has accInterface && a.has accFinal) && !a.has (accAbstract ||| accFinal) &&
    (!version.hasJava5Features || areModernFlags a)

variable {T F M : Type} (pool : Pool T F M)

/-- The name of the class at a slot. -/
def nameAt (fault : FormatFault) (i : Index) : Except FormatFault String :=
  match pool.class? i with
  | some item => .ok item.name
  | none => .error fault

/-- Only the root of the class hierarchy has no superclass. -/
def superclassOf (name : String) (i : Index) : Except FormatFault (Option String) :=
  if i = 0 then if name = objectName then .ok none else .error .badSuperClass
  else (nameAt pool .badSuperClass i).map some

/-- The header of a class file, with the pool of its constants. -/
def ofFile (file : ClassFile) : Except FormatFault ClassHeader := do
  let access := accessOf file.access file.version
  if !areLegalFlags access file.version then throw (.classModifiers file.access)
  let name ← nameAt pool .badThisClass file.thisClass
  if name.toList.head? = some '[' then throw .arrayAsThisClass
  let superclass ← superclassOf pool name file.superClass
  if access.has accInterface ∧ superclass ≠ some objectName then throw .interfaceSuperClass
  let interfaces ← file.interfaces.mapM (nameAt pool .badInterface)
  if hasDuplicates interfaces then throw .repeatedInterface
  return { version := file.version, access, thisClass := file.thisClass, name, superclass,
           interfaces }

end ClassHeader

end JvmClass
