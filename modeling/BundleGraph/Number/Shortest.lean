import BundleGraph.Number.Binary64
import BundleGraph.Text.CodePoint

/-!
# Shortest decimals

The numeral of a binary64 value: the fewest digits that read back as the value, and of those the
nearest. It is positional from `10 ^ -4` up to `10 ^ 16` and scientific elsewhere.
-/
namespace BundleGraph.Binary64

/-- The power of ten of the leading digit of the positive fraction `num / den`. -/
def leadingPower (num den : Nat) : Int :=
  if den ≤ num then (decimalLength (num / den) : Int) - 1
  else
    let k := decimalLength (den / num)
    if den ≤ num * Nat.pow 10 (k - 1) then -((k - 1 : Nat) : Int) else -(k : Int)

/-- The neighbours of a magnitude on the grid of `10 ^ power`, the nearer one first. -/
def neighbours (num den : Nat) (power : Int) : List Nat :=
  let n := num * Nat.pow 10 (-power).toNat
  let d := den * Nat.pow 10 power.toNat
  let low := n / d
  if roundDiv n d = low then [low, low + 1] else [low + 1, low]

/-- The digits and the power of ten of the last of them, for a positive magnitude: the first grid
that holds a decimal reading back as `value`. Seventeen digits always do. -/
def shortestFrom (value : Binary64) (num den : Nat) (lead : Int) : (left digits : Nat) → Nat × Int
  | 0, digits => ((neighbours num den (lead - digits)).headD 0, lead - digits)
  | left + 1, digits =>
    let power := lead - digits
    match (neighbours num den power).find? fun d => ofDecimal false d power = value with
    | some d => (d, power)
    | none => shortestFrom value num den lead left (digits + 1)

/-- The shortest decimal of `m * 2 ^ e`. -/
def shortest (m : Nat) (e : Int) : Nat × Int :=
  let (num, den) := fraction m e
  shortestFrom (finite false m e) num den (leadingPower num den) 17 0

def significantDigits (n : Nat) : List Char :=
  ((Nat.toDigits 10 n).reverse.dropWhile (· = '0')).reverse

/-- Digits with the point after the leading `point` ones, at least one digit on either side. -/
def positional (digits : List Char) (point : Int) : List Char :=
  if point ≤ 0 then '0' :: '.' :: List.replicate (-point).toNat '0' ++ digits
  else
    let whole := point.toNat
    let padded := digits ++ List.replicate (whole - digits.length) '0'
    let rest := padded.drop whole
    padded.take whole ++ '.' :: (if rest.isEmpty then ['0'] else rest)

/-- Digits with the point after the first one and a signed exponent of two digits or more. -/
def scientific (digits : List Char) (lead : Int) : List Char :=
  let power := Nat.toDigits 10 lead.natAbs
  let fractionPart := match digits.drop 1 with
    | [] => []
    | rest => '.' :: rest
  digits.take 1 ++ fractionPart ++ 'e' :: (if lead < 0 then '-' else '+') :: power.leftpad 2 '0'

def toText : Binary64 → Text
  | nan => "nan"
  | infinite negative => if negative then "-inf" else "inf"
  | finite negative m e =>
    let body : List Char :=
      if m = 0 then ['0', '.', '0']
      else
        let (d, power) := shortest m e
        let lead : Int := power + decimalLength d - 1
        let digits := significantDigits d
        if -4 ≤ lead ∧ lead < 16 then positional digits (lead + 1) else scientific digits lead
    Text.ofString (String.ofList (if negative then '-' :: body else body))

end BundleGraph.Binary64
