/-!
# Binary64 numbers

The values of the IEEE 754 binary64 format as exact integers, and the value nearest to a decimal
numeral. A tie goes to the even significand.
-/
namespace BundleGraph

/-- A binary64 value. A finite one is `significand * 2 ^ exponent`, with a significand below
`2 ^ 53` that is at least `2 ^ 52` unless the exponent is the least one, `-1074`. -/
inductive Binary64 where
  | nan
  | infinite (negative : Bool)
  | finite (negative : Bool) (significand : Nat) (exponent : Int)
deriving DecidableEq

/-- The quotient rounded to the nearest natural number, a half to the even neighbour. -/
def roundDiv (num den : Nat) : Nat :=
  let q := num / den
  let r := num % den
  if 2 * r < den then q else if den < 2 * r then q + 1 else q + q % 2

/-- The number of decimal digits of `n`, one for zero. -/
def decimalLength (n : Nat) : Nat := (Nat.toDigits 10 n).length

namespace Binary64

/-- The value nearest to the positive fraction `num / den`. -/
def ofFraction (negative : Bool) (num den : Nat) : Binary64 :=
  let scaled (e : Int) : Nat × Nat := (num * Nat.pow 2 (-e).toNat, den * Nat.pow 2 e.toNat)
  let guess : Int := (Nat.log2 num : Int) - Nat.log2 den - 52
  let below := (scaled guess).1 < (scaled guess).2 * Nat.pow 2 52
  let e := max (if below then guess - 1 else guess) (-1074)
  let m := roundDiv (scaled e).1 (scaled e).2
  let (m, e) := if m = Nat.pow 2 53 then (Nat.pow 2 52, e + 1) else (m, e)
  if 971 < e then infinite negative else finite negative m e

/-- The value nearest to `digits * 10 ^ exponent`. Beyond 310 digits before the point everything is
infinite, and below 330 zeros after it everything is zero. -/
def ofDecimal (negative : Bool) (digits : Nat) (exponent : Int) : Binary64 :=
  let magnitude : Int := decimalLength digits + exponent
  if digits = 0 ∨ magnitude < -330 then finite negative 0 (-1074)
  else if 310 < magnitude then infinite negative
  else ofFraction negative (digits * Nat.pow 10 exponent.toNat) (Nat.pow 10 (-exponent).toNat)

def fraction (significand : Nat) (exponent : Int) : Nat × Nat :=
  (significand * Nat.pow 2 exponent.toNat, Nat.pow 2 (-exponent).toNat)

def toInt? : Binary64 → Option Int
  | nan | infinite _ => none
  | finite negative m e =>
    let (num, den) := fraction m e
    if num % den = 0 then
      let n : Int := (num / den : Nat)
      some (if negative then -n else n)
    else none

end Binary64

end BundleGraph
