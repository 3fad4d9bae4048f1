/-
  JvmClass.Descriptor.Parser — descriptors read from text.

  Each reader takes the characters that are left and returns a type and the rest. A whole text is
  a descriptor if a reader leaves nothing. Class names are any text without `;`.
-/

import JvmClass.Descriptor.Basic

namespace JvmClass

/-- Why a text is no descriptor. -/
inductive DescriptorFault
  | missingBase
  | badBase (c : Char)
  | notObject
  | unterminated (name : String)
  | missingType
  | badRef (c : Char)
  | badField (c : Char)
  | notMethod
  | leftover (c : Char)
  deriving DecidableEq

namespace DescriptorFault

/-- The text ended where a type was to follow. -/
def isEarlyEnd : DescriptorFault → Bool
  | .missingBase | .unterminated _ | .missingType => true
  | _ => false

def message : DescriptorFault → String
  | .missingBase => "Missing base type character"
  | .badBase c => s!"Invalid base type character '{c}'"
  | .notObject => "Expected object type to start with `L`"
  | .unterminated name => s!"Missing terminator for 'L{name}'"
  | .missingType => "Missing field type"
  | .badRef c => s!"Invalid reference type character '{c}'"
  | .badField c => s!"Invalid field type character '{c}'"
  | .notMethod => "Expected '(' for method"
  | .leftover c => s!"Unexpected leftover input '{c}'"

end DescriptorFault

/-- A reader of one item at the start of a text. -/
abbrev DescriptorReader (α : Type) := List Char → Except DescriptorFault (α × List Char)

/-- The item that is the whole text. -/
def DescriptorReader.parse {α : Type} (read : DescriptorReader α) (s : String) :
    Except DescriptorFault α :=
  match read s.toList with
  | .ok (a, []) => .ok a
  | .ok (_, c :: _) => .error (.leftover c)
  | .error e => .error e

def BaseType.read : DescriptorReader BaseType
  | [] => .error .missingBase
  | c :: rest =>
    match BaseType.ofLetter? c with
    | some b => .ok (b, rest)
    | none => .error (.badBase c)

def readClassName : DescriptorReader String
  | 'L' :: rest =>
    match rest.dropWhile (· != ';') with
    | _ :: rest' => .ok (String.ofList (rest.takeWhile (· != ';')), rest')
    | [] => .error (.unterminated (String.ofList rest))
  | _ => .error .notObject

/-- The element type after the brackets of an array with `extra + 1` of them. -/
def RefType.readElement (extra : Nat) (s : List Char) :
    Except DescriptorFault (RefType String × List Char) :=
  match s with
  | 'L' :: _ => (readClassName s).map fun (name, rest) => (.objectArray extra name, rest)
  | _ => (BaseType.read s).map fun (b, rest) => (.primitiveArray extra b, rest)

def RefType.read : DescriptorReader (RefType String)
  | [] => .error .missingType
  | 'L' :: rest => (readClassName ('L' :: rest)).map fun (name, rest') => (.object name, rest')
  | '[' :: rest =>
    RefType.readElement (rest.takeWhile (· == '[')).length (rest.dropWhile (· == '['))
  | c :: _ => .error (.badRef c)

def FieldType.read (s : List Char) : Except DescriptorFault (FieldType String × List Char) :=
  match s with
  | [] => .error .missingType
  | c :: _ =>
    if (BaseType.ofLetter? c).isSome then (BaseType.read s).map fun (b, rest) => (.base b, rest)
    else if c = 'L' ∨ c = '[' then (RefType.read s).map fun (r, rest) => (.ref r, rest)
    else .error (.badField c)

/-! ## Readers consume -/

theorem BaseType.length_lt_of_read {s t : List Char} {b : BaseType}
    (h : BaseType.read s = .ok (b, t)) : t.length < s.length := by
  cases s with
  | nil => simp [BaseType.read] at h
  | cons c s =>
    simp only [BaseType.read] at h
    split at h <;> simp_all

theorem length_lt_of_readClassName {s t : List Char} {n : String}
    (h : readClassName s = .ok (n, t)) : t.length < s.length := by
  unfold readClassName at h
  split at h
  · rename_i r
    split at h
    · rename_i d u hd
      have hl := (List.dropWhile_suffix (· != ';') (l := r)).length_le
      simp_all
      omega
    · simp at h
  · simp at h

theorem RefType.length_lt_of_read {s t : List Char} {r : RefType String}
    (h : RefType.read s = .ok (r, t)) : t.length < s.length := by
  unfold RefType.read at h
  split at h
  · simp at h
  · rename_i u
    cases hc : readClassName ('L' :: u) with
    | error e => simp [hc, Except.map] at h
    | ok p =>
      have := length_lt_of_readClassName (s := 'L' :: u) (n := p.1) (t := p.2) hc
      simp [hc, Except.map] at h
      simp_all
  · rename_i u
    have hl := (List.dropWhile_suffix (· == '[') (l := u)).length_le
    unfold RefType.readElement at h
    split at h
    · rename_i v hv
      cases hc : readClassName (u.dropWhile (· == '[')) with
      | error e => simp [hc, Except.map] at h
      | ok p =>
        have := length_lt_of_readClassName (n := p.1) (t := p.2) hc
        simp [hc, Except.map] at h
        simp_all
        omega
    · cases hc : BaseType.read (u.dropWhile (· == '[')) with
      | error e => simp [hc, Except.map] at h
      | ok p =>
        have := BaseType.length_lt_of_read (b := p.1) (t := p.2) hc
        simp [hc, Except.map] at h
        simp_all
        omega
  · simp at h

theorem FieldType.length_lt_of_read {s t : List Char} {f : FieldType String}
    (h : FieldType.read s = .ok (f, t)) : t.length < s.length := by
  unfold FieldType.read at h
  split at h
  · simp at h
  · rename_i c u
    split at h
    · cases hc : BaseType.read (c :: u) with
      | error e => simp [hc, Except.map] at h
      | ok p =>
        have := BaseType.length_lt_of_read (b := p.1) (t := p.2) hc
        simp [hc, Except.map] at h
        simp_all
    · split at h
      · cases hc : RefType.read (c :: u) with
        | error e => simp [hc, Except.map] at h
        | ok p =>
          have := RefType.length_lt_of_read (r := p.1) (t := p.2) hc
          simp [hc, Except.map] at h
          simp_all
      · simp at h

/-! ## Methods -/

/-- The parameter types up to the closing parenthesis, after those of `acc` (last first). -/
def readParameters (acc : List (FieldType String)) (s : List Char) :
    Except DescriptorFault (List (FieldType String) × List Char) :=
  match s with
  | ')' :: rest => .ok (acc.reverse, rest)
  | s =>
    match _h : FieldType.read s with
    | .error e => .error e
    | .ok (t, rest) => readParameters (t :: acc) rest
termination_by s.length
decreasing_by exact FieldType.length_lt_of_read _h

def readReturn : DescriptorReader (Option (FieldType String))
  | 'V' :: rest => .ok (none, rest)
  | s => (FieldType.read s).map fun (t, rest) => (some t, rest)

def MethodDescriptor.read : DescriptorReader (MethodDescriptor String)
  | '(' :: s =>
    match readParameters [] s with
    | .error e => .error e
    | .ok (parameters, s') => (readReturn s').map fun (t, rest) => (⟨parameters, t⟩, rest)
  | _ => .error .notMethod

/-! ## Whole texts -/

def BaseType.parse (s : String) : Except DescriptorFault BaseType :=
  DescriptorReader.parse BaseType.read s

def parseClassName (s : String) : Except DescriptorFault String :=
  DescriptorReader.parse readClassName s

def RefType.parse (s : String) : Except DescriptorFault (RefType String) :=
  DescriptorReader.parse RefType.read s

def FieldType.parse (s : String) : Except DescriptorFault (FieldType String) :=
  DescriptorReader.parse FieldType.read s

def MethodDescriptor.parse (s : String) : Except DescriptorFault (MethodDescriptor String) :=
  DescriptorReader.parse MethodDescriptor.read s

end JvmClass
