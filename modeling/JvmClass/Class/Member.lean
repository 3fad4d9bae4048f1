/-
  JvmClass.Class.Member — what fields and methods have in common.
-/

import JvmClass.Access
import JvmClass.Class.Build

namespace JvmClass

structure Member (h : Holder) where
  name : String
  /-- With `.` between the segments of class names. -/
  descriptor : String
  access : Access h
  /-- The signature with type variables. -/
  signature : Option String := none
  annotations : List Annotation := []
  /-- The payload of the annotations on types. -/
  typeAnnotations : Option (List UInt8) := none
  isDeprecated : Bool := false
  /-- Hidden from other assemblies: the visibility flags are cleared. -/
  isInternal : Bool := false

/-- What a member needs to know of its class. -/
structure DeclaringClass where
  name : String
  version : Version
  isInterface : Bool
  options : Options

namespace Member

variable {h : Holder}

/-- What tells the members of a class apart. -/
def key (m : Member h) : String × String := (m.name, m.descriptor)

def isNamed (m : Member h) (name descriptor : String) : Bool :=
  m.name == name && m.descriptor == descriptor

def hide (m : Member h) : Member h :=
  { m with isInternal := true, access := m.access.erase accVisibility }

variable {T F M : Type}

/-- The member with an attribute that fields and methods share; none if it is no such attribute.
    Annotations on types refer to texts as constants. -/
def withAttribute? (m : Member h) (kind : AttributeKind) (info : List UInt8) :
    Build T F M (Option (Member h)) := do
  match kind with
  | .deprecated =>
    if info.isEmpty then return some { m with isDeprecated := true }
    else throw .badDeprecated
  | .signature => return some { m with signature := ← Build.singleText "Signature" info }
  | .visibleAnnotations => return some { m with annotations := ← Build.annotations info }
  | .visibleTypeAnnotations =>
    Build.exposeTexts
    return some { m with typeAnnotations := some info }
  | _ => return none

end Member

end JvmClass
