/-
  JvmClass.Text.ModifiedUtf8 — the text encoding of class files.

  Text is a sequence of UTF-16 code units, and each unit is a group of one to three bytes: one
  for 1 to 0x7F, two for 0 and 0x80 to 0x7FF, three for the others. So no encoded text holds a
  zero byte, and a character beyond U+FFFF takes two groups of three bytes.

  `decode` asks for well-formed groups and paired surrogates; it does not ask that a group be the
  shortest one for its unit.
-/

namespace JvmClass.Text.ModifiedUtf8

/-! ## Code units and characters -/

/-- The UTF-16 code units of a character. -/
def unitsOf (c : Char) : List Nat :=
  if c.toNat < 0x10000 then [c.toNat]
  else [0xD800 + (c.toNat - 0x10000) / 0x400, 0xDC00 + (c.toNat - 0x10000) % 0x400]

def isHighSurrogate (u : Nat) : Bool := 0xD800 ≤ u && u < 0xDC00

def isLowSurrogate (u : Nat) : Bool := 0xDC00 ≤ u && u < 0xE000

/-- The characters that the units spell, after those of `acc` (last first); none if a surrogate
    has no partner. -/
def charsInto (acc : List Char) : List Nat → Option (List Char)
  | [] => some acc.reverse
  | u :: rest =>
    if isHighSurrogate u then
      match rest with
      | v :: rest' =>
        if isLowSurrogate v then
          charsInto (Char.ofNat (0x10000 + (u - 0xD800) * 0x400 + (v - 0xDC00)) :: acc) rest'
        else none
      | [] => none
    else if isLowSurrogate u then none
    else charsInto (Char.ofNat u :: acc) rest

def charsOfUnits (units : List Nat) : Option (List Char) := charsInto [] units

/-! ## Groups of bytes -/

/-- The shortest group of a code unit. -/
def encodeUnit (u : Nat) : List UInt8 :=
  if 0 < u ∧ u < 0x80 then [u.toUInt8]
  else if u < 0x800 then [(0xC0 + u / 0x40).toUInt8, (0x80 + u % 0x40).toUInt8]
  else [(0xE0 + u / 0x1000).toUInt8, (0x80 + u / 0x40 % 0x40).toUInt8, (0x80 + u % 0x40).toUInt8]

/-- A byte that continues a group. -/
def isContinuation (b : UInt8) : Bool := 0x80 ≤ b && b < 0xC0

/-- The code units of the groups, after those of `acc` (last first). -/
def unitsInto (acc : List Nat) : List UInt8 → Option (List Nat)
  | [] => some acc.reverse
  | a :: rest =>
    if 0 < a && a < 0x80 then unitsInto (a.toNat :: acc) rest
    else if 0xC0 ≤ a && a < 0xE0 then
      match rest with
      | b :: rest' =>
        if isContinuation b then
          unitsInto (((a.toNat - 0xC0) * 0x40 + (b.toNat - 0x80)) :: acc) rest'
        else none
      | [] => none
    else if 0xE0 ≤ a && a < 0xF0 then
      match rest with
      | b :: c :: rest' =>
        if isContinuation b && isContinuation c then
          let unit := (a.toNat - 0xE0) * 0x1000 + (b.toNat - 0x80) * 0x40 + (c.toNat - 0x80)
          unitsInto (unit :: acc) rest'
        else none
      | _ => none
    else none

def unitsOfBytes (bytes : List UInt8) : Option (List Nat) := unitsInto [] bytes

/-! ## Text -/

def encode (s : String) : List UInt8 := (s.toList.flatMap unitsOf).flatMap encodeUnit

def decode (bytes : List UInt8) : Option String :=
  (unitsOfBytes bytes).bind charsOfUnits |>.map String.ofList

end JvmClass.Text.ModifiedUtf8
