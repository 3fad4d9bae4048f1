/-
  JvmClass.Host — what linking asks of the types outside the class file.

  A host has types (`T`), fields (`F`) and methods (`M`) of its own and answers questions about
  them. Its answers do not change while a class is linked, so they are functions. Names and
  descriptors are given with `.` between the segments of class names. A type that could not be
  loaded is a placeholder that keeps the name.
-/

import JvmClass.Options

namespace JvmClass

structure Host (T F M : Type) where
  /-- The type of a class name or an array descriptor; the first type is the class that asks. A
      failure comes with its reason. -/
  loadClass : T → String → LoadMode → Except String T
  /-- The placeholder for a name. -/
  unloadable : String → T
  isUnloadable : T → Bool
  isInterface : T → Bool
  isAbstract : T → Bool
  /-- The direct superclass. -/
  superType : T → Option T
  /-- Both denote one type. -/
  isSame : T → T → Bool
  /-- The first type is the second or a subtype of it. -/
  isSubtype : T → T → Bool
  /-- A field by name and descriptor, declared or inherited. -/
  findField : T → String → String → Option F
  /-- A method by name and descriptor, declared, or inherited if that is asked for. -/
  findMethod : T → String → String → Bool → Option M
  /-- A method of an interface or of one that it extends. -/
  findInterfaceMethod : T → String → String → Option M
  /-- The type at the root of the class hierarchy. -/
  objectType : T
  /-- The type of a field descriptor. -/
  fieldType : T → String → LoadMode → T
  /-- The parameter types of a method descriptor. -/
  argumentTypes : T → String → LoadMode → List T
  /-- The return type of a method descriptor. -/
  returnType : T → String → LoadMode → T
  /-- Code in the second type may refer to the first. -/
  isAccessibleFrom : T → T → Bool

end JvmClass
