/-
  JvmClass.Graph.ClassGraph — a set of classes as a host.

  A graph finds classes by name. A class that is added takes the place of one of the same name;
  classes that refer to the old one keep it. Types are loaded by looking their class up: how
  eagerly the caller wants them and which class asks make no difference.
-/

import JvmClass.Descriptor.Parser
import JvmClass.Graph.GraphType
import JvmClass.Host

namespace JvmClass

structure ClassGraph where
  classes : List ClassInfo

namespace ClassGraph

abbrev HostType := GraphType ClassInfo

def empty : ClassGraph := ⟨[]⟩

def size (g : ClassGraph) : Nat := g.classes.length

def find? (g : ClassGraph) (name : String) : Option ClassInfo :=
  g.classes.find? (·.name == name)

def add (g : ClassGraph) (c : ClassInfo) : ClassGraph :=
  ⟨c :: g.classes.filter (·.name != c.name)⟩

/-! ## Types by name and by descriptor -/

def classNotFound (name : String) : String := s!"Class not found: {name}"

def findClass (g : ClassGraph) (name : String) : Except String ClassInfo :=
  match g.find? name with
  | some c => .ok c
  | none => .error (classNotFound name)

/-- The type with its class looked up. -/
def resolve (g : ClassGraph) : FieldType String → Except String HostType
  | .base b => .ok (.base b)
  | .ref (.object name) => (g.findClass name).map fun c => .ref (.object c)
  | .ref (.objectArray extra name) =>
    (g.findClass name).map fun c => .ref (.objectArray extra c)
  | .ref (.primitiveArray extra b) => .ok (.ref (.primitiveArray extra b))

/-- A type whose class is missing becomes a placeholder named by the descriptor. -/
def resolveOr (g : ClassGraph) (t : FieldType String) (descriptor : String) : HostType :=
  match g.resolve t with
  | .ok type => type
  | .error _ => .unloadable descriptor

/-- Names that start with `[` are array descriptors, all others are class names. -/
def load (g : ClassGraph) (name : String) : Except String HostType :=
  if name.toList.head? = some '[' then
    match FieldType.parse name with
    | .ok t => g.resolve t
    | .error fault => .error fault.message
  else (g.findClass name).map .ofClass

def fieldType (g : ClassGraph) (descriptor : String) : HostType :=
  match FieldType.parse descriptor with
  | .ok t => g.resolveOr t descriptor
  | .error _ => .unloadable descriptor

def argumentTypes (g : ClassGraph) (descriptor : String) : List HostType :=
  match MethodDescriptor.parse descriptor with
  | .ok d => d.parameters.map fun t => g.resolveOr t t.render
  | .error _ => []

def returnType (g : ClassGraph) (descriptor : String) : HostType :=
  match MethodDescriptor.parse descriptor with
  | .ok ⟨_, some t⟩ => g.resolveOr t t.render
  | .ok ⟨_, none⟩ => .void
  | .error _ => .unloadable descriptor

def objectType (g : ClassGraph) : HostType :=
  match g.find? objectName with
  | some c => .ofClass c
  | none => .unloadable objectName

/-! ## Members -/

/-- The class where the search for a member starts: the class itself, or the root for arrays. -/
def memberHolder? (g : ClassGraph) : HostType → Option ClassInfo
  | .ref (.object c) => some c
  | .ref _ => g.find? objectName
  | _ => none

def superType? (g : ClassGraph) : HostType → Option HostType
  | .ref (.object c) => c.superclass.map .ofClass
  | .ref _ => (g.find? objectName).map .ofClass
  | _ => none

def findField? (g : ClassGraph) (t : HostType) (name descriptor : String) :
    Option (Declaration .ofField) :=
  (g.memberHolder? t).bind (·.findField? name descriptor)

def findMethod? (g : ClassGraph) (t : HostType) (name descriptor : String) (inherited : Bool) :
    Option (Declaration .ofMethod) :=
  (g.memberHolder? t).bind (·.findMethod? name descriptor inherited)

def findInterfaceMethod? (g : ClassGraph) (t : HostType) (name descriptor : String) :
    Option (Declaration .ofMethod) :=
  (g.memberHolder? t).bind (·.findInterfaceMethod? name descriptor)

/-- The graph answers for its classes. -/
def host (g : ClassGraph) :
    Host HostType (Declaration .ofField) (Declaration .ofMethod) where
  loadClass _ name _ := g.load name
  unloadable name := .unloadable name
  isUnloadable := GraphType.isUnloadable
  isInterface := GraphType.isInterface
  isAbstract := GraphType.isAbstract
  superType := g.superType?
  isSame := GraphType.isSame
  isSubtype := GraphType.isSubtype
  findField := g.findField?
  findMethod := g.findMethod?
  findInterfaceMethod := g.findInterfaceMethod?
  objectType := g.objectType
  fieldType _ descriptor _ := g.fieldType descriptor
  argumentTypes _ descriptor _ := g.argumentTypes descriptor
  returnType _ descriptor _ := g.returnType descriptor
  isAccessibleFrom := GraphType.isAccessibleFrom

end ClassGraph

end JvmClass
