/-
  JvmClass.Pool.Entry — what a slot of a resolved pool holds.

  Texts that others are made of are copied where they are used, so names and descriptors need no
  look-up; members still refer to their class by slot, and method handles to their member. What
  linking finds out is kept in cells that are set once.
-/

import JvmClass.Pool.Patch
import JvmClass.SetOnce

namespace JvmClass

structure ClassEntry (T : Type) where
  /-- With `.` between the segments; an array type as its descriptor. -/
  name : String
  /-- Linking loads the class. -/
  linkRequired : Bool
  type : SetOnce T

/-- A member of a class by name and descriptor (dotted). -/
structure MemberRef where
  cls : Index
  className : String
  name : String
  descriptor : String
  deriving DecidableEq

structure FieldBinding (T F : Type) where
  /-- None if it was not found. -/
  field : Option F
  type : T

structure MethodBinding (M : Type) where
  /-- None if it was not found. -/
  method : Option M
  /-- What a call that names the method without choosing it by the receiver runs. -/
  special : Option M

structure Signature (T : Type) where
  arguments : List T
  returns : T

structure MethodEntry (T M : Type) where
  member : MemberRef
  signature : SetOnce (Signature T)
  binding : SetOnce (MethodBinding M)

inductive Entry (T F M : Type)
  | vacant
  /-- A text is addressed as a constant only after `Pool.exposeTexts`. -/
  | text (value : String) (exposed : Bool)
  | cls (item : ClassEntry T)
  | literal (value : Literal)
  | string (value : String)
  | live (value : LiveObject)
  | nameAndType (name descriptor : Index)
  | field (member : MemberRef) (binding : SetOnce (FieldBinding T F))
  | method (item : MethodEntry T M)
  | interfaceMethod (item : MethodEntry T M)
  | methodHandle (kind : HandleKind) (reference : Index)
  | methodType (descriptor : String) (signature : SetOnce (Signature T))
  | invokeDynamic (bootstrap : Index) (name descriptor : String)
      (signature : SetOnce (Signature T))

namespace Entry

variable {T F M : Type}

instance : Inhabited (Entry T F M) := ⟨.vacant⟩

/-- There is a constant that a program could address. -/
def isConstant : Entry T F M → Bool
  | .vacant => false
  | .text _ exposed => exposed
  | _ => true

def isClass : Entry T F M → Bool
  | .cls _ => true
  | _ => false

/-- A program may load the constant, and a bootstrap method take it as an argument. -/
def isLoadable : Entry T F M → Bool
  | .cls _ | .literal _ | .string _ | .live _ | .methodHandle .. | .methodType .. => true
  | _ => false

/-- The member that the constant refers to. -/
def member? : Entry T F M → Option (MemberKind × MemberRef)
  | .field member _ => some (.field, member)
  | .method item => some (.method, item.member)
  | .interfaceMethod item => some (.interfaceMethod, item.member)
  | _ => none

/-- The slot that the constant depends on. -/
def dependency? : Entry T F M → Option Index
  | .field member _ => some member.cls
  | .method item => some item.member.cls
  | .interfaceMethod item => some item.member.cls
  | .methodHandle _ reference => some reference
  | _ => none

def requireLink : Entry T F M → Entry T F M
  | .cls item => .cls { item with linkRequired := true }
  | e => e

def bindType (t : T) : Entry T F M → Entry T F M
  | .cls item => .cls { item with type := (item.type.commit t).2 }
  | e => e

def expose : Entry T F M → Entry T F M
  | .text value _ => .text value true
  | e => e

end Entry

end JvmClass
