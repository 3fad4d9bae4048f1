/-
  JvmClass.Duplicate — whether a list holds an element twice.

  Short lists are compared element by element, long ones through a hash set. Both ways find a
  repetition exactly if there is one.
-/

import Std.Data.HashSet

namespace JvmClass

variable {α : Type} [BEq α]

def hasDuplicatesPairwise : List α → Bool
  | [] => false
  | a :: rest => rest.contains a || hasDuplicatesPairwise rest

variable [Hashable α]

/-- Some element is in `seen` or occurs twice. -/
def repeatsAfter (seen : Std.HashSet α) : List α → Bool
  | [] => false
  | a :: rest => seen.contains a || repeatsAfter (seen.insert a) rest

def hasDuplicatesHashed (l : List α) : Bool := repeatsAfter ∅ l

/-- The length from which lists count as long. -/
def pairwiseLimit : Nat := 100

def hasDuplicates (l : List α) : Bool :=
  if l.length < pairwiseLimit then hasDuplicatesPairwise l else hasDuplicatesHashed l

end JvmClass
