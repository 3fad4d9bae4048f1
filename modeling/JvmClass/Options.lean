/-
  JvmClass.Options — what a caller chooses: how much of a class file is read and which rules
  apply, and how eagerly a host loads the classes that linking asks for.
-/

namespace JvmClass

structure Options where
  /-- Read `LocalVariableTable` attributes of method bodies. -/
  localVariables : Bool := false
  /-- Read `LineNumberTable` attributes of method bodies. -/
  lineNumbers : Bool := false
  /-- Skip the `$assertionsDisabled` initialization of static initializers. -/
  removeAssertions : Bool := false
  /-- Honour the marker annotations of the class library (`CallerSensitive`, `ForceInline`, …). -/
  trustedAnnotations : Bool := false
  /-- Do not ask for identifiers in the class names of class files before version 49. -/
  relaxedClassNames : Bool := false
  /-- The class is read by an ahead-of-time compiler. -/
  staticCompiler : Bool := false
  deriving DecidableEq

inductive LoadMode
  /-- Load the class, with a placeholder where that fails. -/
  | link
  /-- Only classes that are loaded already. -/
  | returnUnloadable
  /-- Load the class and warn where that fails. -/
  | loadOrWarn
  deriving DecidableEq

end JvmClass
