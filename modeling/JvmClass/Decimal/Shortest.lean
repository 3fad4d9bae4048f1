/-
  JvmClass.Decimal.Shortest — the fewest decimal digits that read back.

  A finite floating point number stands for the interval of reals that round to it. Its shortest
  decimal is the number of fewest digits in that interval, of those the nearest to the value; of
  two that are equally near, the greater. The search is exact arithmetic on naturals.
-/

namespace JvmClass.Decimal

/-- `2 ^ n`. -/
def twoTo (n : Nat) : Nat := Nat.pow 2 n

/-- `10 ^ n`. -/
def tenTo (n : Nat) : Nat := Nat.pow 10 n

/-- Widths of the exponent and fraction fields of a binary interchange format. -/
structure Format where
  exponentBits : Nat
  fractionBits : Nat

def binary32 : Format := ⟨8, 23⟩

def binary64 : Format := ⟨11, 52⟩

/-- The magnitude `m * 2 ^ q` of a finite number. -/
structure Magnitude where
  m : Nat
  q : Int
  /-- The gap to the number below is half the gap to the number above. -/
  narrowBelow : Bool

/-- A floating point word, taken apart. -/
inductive Number
  | nan
  | infinite (negative : Bool)
  | finite (negative : Bool) (value : Magnitude)

def Format.decode (f : Format) (word : Nat) : Number :=
  let fraction := word % twoTo f.fractionBits
  let exponent := word / twoTo f.fractionBits % twoTo f.exponentBits
  let negative := word / twoTo (f.fractionBits + f.exponentBits) % 2 == 1
  let least : Int := 2 - twoTo (f.exponentBits - 1) - f.fractionBits
  if exponent = twoTo f.exponentBits - 1 then
    if fraction = 0 then .infinite negative else .nan
  else if exponent = 0 then .finite negative ⟨fraction, least, false⟩
  else
    .finite negative
      ⟨twoTo f.fractionBits + fraction, least + (exponent - 1), fraction == 0 && 1 < exponent⟩

/-- The decimal number `digits * 10 ^ exponent`. -/
structure Digits where
  digits : Nat
  exponent : Int
  deriving DecidableEq

/-- The order of `a * 10 ^ i` and `n * 2 ^ j`. -/
def compareScaled (a : Nat) (i : Int) (n : Nat) (j : Int) : Ordering :=
  compare (a * tenTo i.toNat * twoTo (-j).toNat) (n * twoTo j.toNat * tenTo (-i).toNat)

/-- The decimal lies among the reals that round to the value, to nearest and ties to even. -/
def Magnitude.readsBack (x : Magnitude) (d : Digits) : Bool :=
  let low := if x.narrowBelow then 4 * x.m - 1 else 4 * x.m - 2
  let high := 4 * x.m + 2
  let closed := x.m % 2 == 0
  let below := compareScaled d.digits d.exponent low (x.q - 2)
  let above := compareScaled d.digits d.exponent high (x.q - 2)
  (below == .gt || closed && below == .eq) && (above == .lt || closed && above == .eq)

/-- The least `k` with `m * 2 ^ q < 10 ^ k`, for `m` not zero: close to the logarithm that the
    number of bits gives. -/
def Magnitude.scale (x : Magnitude) : Int :=
  let start := (x.m.log2 + x.q) * 30103 / 100000
  let candidates := (List.range 4).map fun (i : Nat) => start + i
  (candidates.find? fun k => compareScaled 1 k x.m x.q == .gt).getD (start + 4)

/-- The value's lower neighbour among the multiples of `10 ^ e`. -/
def Magnitude.floorAt (x : Magnitude) (e : Int) : Nat :=
  (x.m * twoTo x.q.toNat * tenTo (-e).toNat) / (tenTo e.toNat * twoTo (-x.q).toNat)

/-- Of the value's two neighbours among the multiples of `10 ^ e`, the one that reads back; the
    nearer if both do, the greater if they are equally near. -/
def Magnitude.onGrid? (x : Magnitude) (e : Int) : Option Digits :=
  let low : Digits := ⟨x.floorAt e, e⟩
  let high : Digits := ⟨x.floorAt e + 1, e⟩
  match x.readsBack low, x.readsBack high with
  | true, true =>
    if compareScaled (2 * x.floorAt e + 1) e (2 * x.m) x.q == .gt then some low else some high
  | true, false => some low
  | false, true => some high
  | false, false => none

/-- Moves trailing zeros of the digits to the exponent. -/
def Digits.strip (d : Digits) : Nat → Digits
  | 0 => d
  | n + 1 =>
    if d.digits % 10 = 0 then Digits.strip ⟨d.digits / 10, d.exponent + 1⟩ n else d

/-- The exact value as a decimal. -/
def Magnitude.exact (x : Magnitude) : Digits :=
  if 0 ≤ x.q then ⟨x.m * twoTo x.q.toNat, 0⟩ else ⟨x.m * Nat.pow 5 (-x.q).toNat, x.q⟩

/-- The shortest decimal of a value other than zero. Seventeen digits always suffice. -/
def Magnitude.shortest (x : Magnitude) : Digits :=
  let k := x.scale
  let found := (List.range 17).findSome? fun (n : Nat) => x.onGrid? (k - (n + 1))
  (found.getD x.exact).strip 18

end JvmClass.Decimal
