/-
  JvmClass.Pool.Link — binding constants to what a host knows.

  The class itself is bound first, so it can refer to itself before the host knows its name. Then
  the slots are visited in order. A class is loaded only if that is required and it has no type
  yet; a class that cannot be loaded is bound to a placeholder, with a warning. A member is bound
  once its class has a type, a method of a class only if that type is no placeholder. Types,
  signatures and bindings stay once they are there.
-/

import JvmClass.Host
import JvmClass.Name
import JvmClass.Pool.Basic
import JvmClass.Warning

namespace JvmClass

variable {T F M : Type}

/-- Who asks for types, and how eagerly. -/
structure Asking (T : Type) where
  type : T
  mode : LoadMode

/-! ## What members are bound to -/

def Signature.of (host : Host T F M) (asking : Asking T) (descriptor : String) : Signature T :=
  ⟨host.argumentTypes asking.type descriptor asking.mode,
    host.returnType asking.type descriptor asking.mode⟩

def FieldBinding.of (host : Host T F M) (asking : Asking T) (member : MemberRef)
    (holder : T) : FieldBinding T F :=
  { field :=
      if host.isUnloadable holder then none
      else host.findField holder member.name member.descriptor
    type := host.fieldType asking.type member.descriptor asking.mode }

/-- Code of the asking class calls a method of a proper supertype by that type's name: such a
    call runs the method as its superclass has it. -/
def isSuperCall (host : Host T F M) (asking holder : T) (name : String) : Bool :=
  name != initName && !host.isInterface asking && !host.isSame asking holder &&
    host.isSubtype asking holder

/-- Constructors are not inherited. -/
def MethodBinding.ofClass (host : Host T F M) (asking : Asking T) (member : MemberRef)
    (holder : T) : MethodBinding M :=
  let method := host.findMethod holder member.name member.descriptor (member.name != initName)
  { method
    special :=
      if isSuperCall host asking.type holder member.name then
        (host.superType asking.type).bind fun super =>
          host.findMethod super member.name member.descriptor true
      else method }

/-- A method that no interface has may be one that the root of the class hierarchy declares. -/
def MethodBinding.ofInterface (host : Host T F M) (member : MemberRef) (holder : T) :
    MethodBinding M :=
  let own :=
    if host.isUnloadable holder then none
    else host.findInterfaceMethod holder member.name member.descriptor
  let method :=
    own.or (host.findMethod host.objectType member.name member.descriptor false)
  ⟨method, method⟩

/-! ## One slot -/

/-- A pool on the way, with the warnings so far. -/
structure Linking (T F M : Type) where
  pool : Pool T F M
  warnings : Array Warning

namespace Linking

def bind (l : Linking T F M) (i : Index) (e : Entry T F M) : Linking T F M :=
  { l with pool := l.pool.modify i fun _ => e }

def warn (l : Linking T F M) (w : Warning) : Linking T F M :=
  { l with warnings := l.warnings.push w }

variable (host : Host T F M) (asking : Asking T)

/-- Loads a class, or makes a placeholder. -/
def loadClass (l : Linking T F M) (name : String) : T × Linking T F M :=
  match host.loadClass asking.type name asking.mode with
  | .ok t => (t, l)
  | .error message => (host.unloadable name, l.warn (.classLoading message))

/-- The type of a class, if it has one afterwards. -/
def linkClass (l : Linking T F M) (i : Index) : Option T × Linking T F M :=
  match l.pool.class? i with
  | none => (none, l)
  | some item =>
    match item.type.value? with
    | some t => (some t, l)
    | none =>
      if item.linkRequired then
        let (t, l) := l.loadClass host asking item.name
        (some t, l.bind i (.cls { item with type := .full t }))
      else (none, l)

def linkSignature (item : MethodEntry T M) : MethodEntry T M :=
  { item with
    signature := item.signature.fill fun _ =>
      Signature.of host asking item.member.descriptor }

def linkMethod (item : MethodEntry T M) (holder : T) : MethodEntry T M :=
  let item := linkSignature host asking item
  if host.isUnloadable holder then item
  else
    { item with
      binding := item.binding.fill fun _ =>
        MethodBinding.ofClass host asking item.member holder }

def linkInterfaceMethod (item : MethodEntry T M) (holder : T) : MethodEntry T M :=
  let item := linkSignature host asking item
  { item with
    binding := item.binding.fill fun _ => MethodBinding.ofInterface host item.member holder }

/-- The entry of a slot with its class linked. -/
def withHolder (l : Linking T F M) (i : Index) (member : MemberRef) (entry : T → Entry T F M) :
    Linking T F M :=
  match l.linkClass host asking member.cls with
  | (some holder, l) => l.bind i (entry holder)
  | (none, l) => l

/-- Links a slot that holds anything but a method handle. -/
def linkDirect (l : Linking T F M) (i : Index) : Linking T F M :=
  match l.pool.entry i with
  | .cls _ => (l.linkClass host asking i).2
  | .field member binding =>
    l.withHolder host asking i member fun holder =>
      .field member (binding.fill fun _ => FieldBinding.of host asking member holder)
  | .method item =>
    l.withHolder host asking i item.member fun holder =>
      .method (linkMethod host asking item holder)
  | .interfaceMethod item =>
    l.withHolder host asking i item.member fun holder =>
      .interfaceMethod (linkInterfaceMethod host asking item holder)
  | .methodType descriptor signature =>
    l.bind i (.methodType descriptor
      (signature.fill fun _ => Signature.of host asking descriptor))
  | .invokeDynamic bootstrap name descriptor signature =>
    l.bind i (.invokeDynamic bootstrap name descriptor
      (signature.fill fun _ => Signature.of host asking descriptor))
  | _ => l

/-- A method handle links its member. -/
def linkSlot (l : Linking T F M) (i : Index) : Linking T F M :=
  match l.pool.entry i with
  | .methodHandle _ reference => l.linkDirect host asking reference
  | _ => l.linkDirect host asking i

end Linking

/-! ## The whole pool -/

/-- All slots but slot 0. -/
def Pool.slots (p : Pool T F M) : List Index :=
  (List.range (p.size - 1)).map fun i => (i + 1).toUInt16

/-- Links the pool of the class at `thisClass`, whose type the asking one is; with the warnings
    in the order in which they arise. -/
def Pool.link (p : Pool T F M) (host : Host T F M) (thisClass : Index) (asking : Asking T) :
    Linking T F M :=
  p.slots.foldl (Linking.linkSlot host asking) ⟨p.bindSelf thisClass asking.type, #[]⟩

end JvmClass
