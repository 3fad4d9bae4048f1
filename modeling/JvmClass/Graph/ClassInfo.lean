/-
  JvmClass.Graph.ClassInfo — classes with their supertypes and members.

  A class holds its superclass and interfaces themselves, so no class is its own supertype and
  every walk towards the supertypes ends. Members are found by name and descriptor:
  - a field in the class, then in its interfaces in order, then in its superclass;
  - a method in the class, then in its superclasses, the nearest first (`chain`);
  - a method of an interface in the interface, then in the interfaces it extends, the last first.
-/

import JvmClass.Access

namespace JvmClass

/-- A field or a method of a class in the graph. -/
structure Declaration (h : Holder) where
  /-- The name of the class that declares it. -/
  declaring : String
  name : String
  descriptor : String
  access : Access h
  deriving DecidableEq

structure ClassInfo where
  name : String
  superclass : Option ClassInfo
  interfaces : List ClassInfo
  access : Access .ofClass
  fields : List (Declaration .ofField)
  methods : List (Declaration .ofMethod)

namespace ClassInfo

def isInterface (c : ClassInfo) : Bool := c.access.has accInterface

def isAbstract (c : ClassInfo) : Bool := c.access.has accAbstract

def isPublic (c : ClassInfo) : Bool := c.access.has accPublic

/-- The name without what follows its last `.`; empty if it has none. -/
def package (c : ClassInfo) : String :=
  String.ofList ((c.name.toList.reverse.dropWhile (· != '.')).drop 1).reverse

def withField (c : ClassInfo) (name descriptor : String) (access : UInt16) : ClassInfo :=
  { c with fields := c.fields ++ [⟨c.name, name, descriptor, .ofBits .ofField access⟩] }

def withMethod (c : ClassInfo) (name descriptor : String) (access : UInt16) : ClassInfo :=
  { c with methods := c.methods ++ [⟨c.name, name, descriptor, .ofBits .ofMethod access⟩] }

/-! ## Members -/

def declaredField? (c : ClassInfo) (name descriptor : String) :
    Option (Declaration .ofField) :=
  c.fields.find? fun f => f.name == name && f.descriptor == descriptor

def declaredMethod? (c : ClassInfo) (name descriptor : String) :
    Option (Declaration .ofMethod) :=
  c.methods.find? fun m => m.name == name && m.descriptor == descriptor

/-- The class and its superclasses, the nearest first. -/
def chain : ClassInfo → List ClassInfo
  | c@⟨_, some s, _, _, _, _⟩ => c :: s.chain
  | c => [c]

def findMethod? (c : ClassInfo) (name descriptor : String) (inherited : Bool) :
    Option (Declaration .ofMethod) :=
  (if inherited then c.chain else [c]).findSome? (·.declaredMethod? name descriptor)

/-- A field of the class, else of its interfaces, else of its superclass. -/
def findField? (name descriptor : String) : ClassInfo → Option (Declaration .ofField)
  | c@⟨_, superclass, interfaces, _, _, _⟩ =>
    match c.declaredField? name descriptor with
    | some f => some f
    | none =>
      match inInterfaces interfaces with
      | some f => some f
      | none => inSuperclass superclass
where
  /-- The first interface that has it. -/
  inInterfaces : List ClassInfo → Option (Declaration .ofField)
    | [] => none
    | i :: rest =>
      match i.findField? name descriptor with
      | some f => some f
      | none => inInterfaces rest
  inSuperclass : Option ClassInfo → Option (Declaration .ofField)
    | none => none
    | some s => s.findField? name descriptor

/-- A method of the class, else of its interfaces. -/
def findInterfaceMethod? (name descriptor : String) :
    ClassInfo → Option (Declaration .ofMethod)
  | c@⟨_, _, interfaces, _, _, _⟩ =>
    match c.declaredMethod? name descriptor with
    | some m => some m
    | none => inInterfaces interfaces
where
  /-- The last interface that has it. -/
  inInterfaces : List ClassInfo → Option (Declaration .ofMethod)
    | [] => none
    | i :: rest =>
      match inInterfaces rest with
      | some m => some m
      | none => i.findInterfaceMethod? name descriptor

/-! ## Supertypes -/

/-- The superclass, and the interfaces if they are asked for. -/
def parents (withInterfaces : Bool) (c : ClassInfo) : List ClassInfo :=
  c.superclass.toList ++ if withInterfaces then c.interfaces else []

/-- Number of classes on all ways to the supertypes, this one included. -/
def weight : ClassInfo → Nat
  | ⟨_, superclass, interfaces, _, _, _⟩ => 1 + weightOf? superclass + weightOfAll interfaces
where
  weightOf? : Option ClassInfo → Nat
    | none => 0
    | some s => s.weight
  weightOfAll : List ClassInfo → Nat
    | [] => 0
    | i :: rest => i.weight + weightOfAll rest

theorem weightOfAll_append (as bs : List ClassInfo) :
    weight.weightOfAll (as ++ bs) = weight.weightOfAll as + weight.weightOfAll bs := by
  induction as with
  | nil => simp [weight.weightOfAll]
  | cons a as ih =>
    simp only [List.cons_append, weight.weightOfAll, ih]
    omega

theorem weightOfAll_parents_lt (b : Bool) (c : ClassInfo) :
    weight.weightOfAll (c.parents b) < c.weight := by
  obtain ⟨_, s, is, _, _, _⟩ := c
  cases s <;> cases b <;> simp [parents, weight, weight.weightOf?, weight.weightOfAll]
  all_goals omega

end ClassInfo

end JvmClass
