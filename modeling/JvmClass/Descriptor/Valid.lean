/-
  JvmClass.Descriptor.Valid — which texts a class file may use as descriptors.

  The checks scan the text and build nothing. A class name ends at the first `;`. The parameters
  of a method end at the first `)` of the whole text, so a class name among them holds none.
-/

import JvmClass.Descriptor.Basic

namespace JvmClass

def isBaseLetter (c : Char) : Bool := (BaseType.ofLetter? c).isSome

/-- A complete field descriptor. -/
def isFieldDescriptor : List Char → Bool
  | [] => false
  | '[' :: rest => isFieldDescriptor rest
  | 'L' :: rest => rest.dropWhile (· != ';') == [';']
  | c :: rest => isBaseLetter c && rest.isEmpty

/-- A sequence of complete field descriptors. -/
def areParameters : List Char → Bool
  | [] => true
  | '[' :: rest => !rest.isEmpty && areParameters rest
  | 'L' :: rest =>
    !(rest.dropWhile (· != ';')).isEmpty && areParameters ((rest.dropWhile (· != ';')).drop 1)
  | c :: rest => isBaseLetter c && areParameters rest
termination_by s => s.length
decreasing_by
  · simp
  · have := (List.dropWhile_suffix (· != ';') (l := rest)).length_le
    simp
    omega
  · simp

def isReturnDescriptor (s : List Char) : Bool := s == ['V'] || isFieldDescriptor s

def isMethodDescriptor : List Char → Bool
  | '(' :: rest =>
    match rest.dropWhile (· != ')') with
    | _ :: returns => isReturnDescriptor returns && areParameters (rest.takeWhile (· != ')'))
    | [] => false
  | _ => false

def isValidFieldDescriptor (s : String) : Bool := isFieldDescriptor s.toList

def isValidMethodDescriptor (s : String) : Bool := isMethodDescriptor s.toList

/-- The descriptor ends with the letter of `void`. -/
def endsInVoid (s : String) : Bool := s.toList.getLast? == some 'V'

end JvmClass
