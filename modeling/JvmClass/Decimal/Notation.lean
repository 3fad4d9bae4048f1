/-
  JvmClass.Decimal.Notation — floating point numbers as text.

  A number is written with its shortest digits, positionally or with an exponent. Where positional
  writing ends and how many places follow the point at least is a choice of the format that is
  written (`Style`).
-/

import JvmClass.Decimal.Shortest

namespace JvmClass.Decimal

structure Style where
  /-- Least number of places after the point in positional writing. -/
  places : Nat
  /-- Which decimal exponents of the first digit are written positionally. -/
  positional : Int → Bool

/-- Always positional, a whole number without a point. -/
def plain : Style := ⟨0, fun _ => true⟩

/-- Positional from `0.0001` to below `10 ^ 16`, and a whole number keeps one place. -/
def marked : Style := ⟨1, fun e => -4 ≤ e && e < 16⟩

def zeros (n : Nat) : List Char := List.replicate n '0'

/-- `0.digits * 10 ^ point` with the point at its place. -/
def positionalText (style : Style) (digits : List Char) (point : Int) : List Char :=
  if point ≤ 0 then ['0', '.'] ++ zeros (-point).toNat ++ digits
  else if point < digits.length then
    digits.take point.toNat ++ ['.'] ++ digits.drop point.toNat
  else
    digits ++ zeros (point.toNat - digits.length) ++
      (if style.places = 0 then [] else '.' :: zeros style.places)

/-- The first digit, the others after a point, and the exponent of the first. -/
def exponentText (digits : List Char) (exponent : Int) : List Char :=
  let tail := digits.drop 1
  digits.take 1 ++ (if tail.isEmpty then [] else '.' :: tail) ++ ['e'] ++
    (toString exponent).toList

def Magnitude.text (style : Style) (x : Magnitude) : List Char :=
  if x.m = 0 then
    '0' :: (if style.places = 0 then [] else '.' :: zeros style.places)
  else
    let d := x.shortest
    let digits := (toString d.digits).toList
    let point := digits.length + d.exponent
    if style.positional (point - 1) then positionalText style digits point
    else exponentText digits (point - 1)

def Number.text (style : Style) : Number → String
  | .nan => "NaN"
  | .infinite negative => if negative then "-inf" else "inf"
  | .finite negative value =>
    String.ofList ((if negative then ['-'] else []) ++ value.text style)

def float32Text (style : Style) (bits : UInt32) : String :=
  (binary32.decode bits.toNat).text style

def float64Text (style : Style) (bits : UInt64) : String :=
  (binary64.decode bits.toNat).text style

end JvmClass.Decimal
