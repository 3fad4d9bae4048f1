/-
  JvmClass.Graph.Subtype — when a type is a subtype of another.

  Classes are searched from the subtype towards its supertypes; a name that has been met is not
  looked at again. A search for a class leaves the interfaces out, since interfaces have no
  classes above them but the root, which is a supertype of everything anyway. Arrays follow their
  elements, and are subtypes of the root and of two interfaces besides.
-/

import JvmClass.Descriptor.Basic
import JvmClass.Graph.ClassInfo
import JvmClass.Name

namespace JvmClass

/-- Names that have been met, and classes that are still to be looked at (the last met first). -/
structure Frontier where
  met : List String
  pending : List ClassInfo

namespace Frontier

/-- A class whose name has not been met yet comes next. -/
def discover (f : Frontier) (c : ClassInfo) : Frontier :=
  if f.met.contains c.name then f else ⟨c.name :: f.met, c :: f.pending⟩

def discoverAll (f : Frontier) (cs : List ClassInfo) : Frontier := cs.foldl discover f

/-- Decreases as the search goes on. -/
def weight (f : Frontier) : Nat := ClassInfo.weight.weightOfAll f.pending

theorem weight_discover_le (f : Frontier) (c : ClassInfo) :
    (f.discover c).weight ≤ c.weight + f.weight := by
  unfold discover
  split
  · omega
  · simp [weight, ClassInfo.weight.weightOfAll]

theorem weight_discoverAll_le (f : Frontier) (cs : List ClassInfo) :
    (f.discoverAll cs).weight ≤ ClassInfo.weight.weightOfAll cs + f.weight := by
  induction cs generalizing f with
  | nil => simp [discoverAll]
  | cons c cs ih =>
    have h₁ := ih (f.discover c)
    have h₂ := weight_discover_le f c
    simp only [discoverAll, List.foldl_cons, ClassInfo.weight.weightOfAll] at *
    omega

/-- Some class with the name is pending or above a pending one. -/
def search (withInterfaces : Bool) (name : String) (f : Frontier) : Bool :=
  match _h : f.pending with
  | [] => false
  | c :: rest =>
    c.name == name ||
      search withInterfaces name (discoverAll ⟨f.met, rest⟩ (c.parents withInterfaces))
termination_by f.weight
decreasing_by
  have h₁ := weight_discoverAll_le ⟨f.met, rest⟩ (c.parents withInterfaces)
  have h₂ := ClassInfo.weightOfAll_parents_lt withInterfaces c
  simp only [weight, _h, ClassInfo.weight.weightOfAll] at *
  omega

end Frontier

/-- The class is the other one or below it, or the other is the root. -/
def ClassInfo.isSubclass (sub super : ClassInfo) : Bool :=
  Frontier.search super.isInterface super.name ⟨[sub.name], [sub]⟩ || super.name == objectName

/-- The names of the types that all arrays are subtypes of. -/
def isArraySupertype (name : String) : Bool :=
  name == objectName || name == cloneableName || name == serializableName

def RefType.isSubtype : RefType ClassInfo → RefType ClassInfo → Bool
  | .object c, .object d => c.isSubclass d
  | .object _, _ => false
  | .primitiveArray _ _, .object d => isArraySupertype d.name
  | .objectArray _ _, .object d => isArraySupertype d.name
  | .primitiveArray m a, .primitiveArray n b => m == n && a == b
  | .primitiveArray m _, .objectArray n d => n < m && isArraySupertype d.name
  | .objectArray _ _, .primitiveArray _ _ => false
  | .objectArray m c, .objectArray n d =>
    if m = n then c.isSubclass d else n < m && isArraySupertype d.name

end JvmClass
