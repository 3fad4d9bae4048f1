/-
  JvmClass.Warning — what is noticed and passed over while a class is built or linked.
-/

namespace JvmClass

inductive Warning
  /-- A second property annotation on a field. -/
  | duplicateProperty (cls member : String)
  /-- A property annotation without a usable pair of accessors. -/
  | malformedProperty (cls member : String)
  /-- A method of an interface cannot be hidden. -/
  | internalOnInterfaceMethod (cls member : String)
  | malformedModuleInitializer (cls member : String)
  | malformedCompareAndSet (cls member : String)
  /-- A class could not be loaded while linking; the host says why. -/
  | classLoading (message : String)
  deriving DecidableEq

def Warning.text : Warning → String
  | .duplicateProperty cls member =>
    s!"Ignoring duplicate ikvm.lang.Property annotation on {cls}.{member}"
  | .malformedProperty cls member =>
    s!"Ignoring malformed ikvm.lang.Property annotation on {cls}.{member}"
  | .internalOnInterfaceMethod cls member =>
    s!"ikvm.lang.Internal is not supported on interface method {cls}.{member}"
  | .malformedModuleInitializer cls member =>
    s!"Ignoring ikvm.lang.ModuleInitializer on {cls}.{member}"
  | .malformedCompareAndSet cls member =>
    s!"Ignoring InterlockedCompareAndSet annotation on {cls}.{member}"
  | .classLoading message => message

end JvmClass
