import Switchboard.Json.Double

/-!
# The shortest decimal of a double

`shortest` finds the fewest digits that round to a given double; among equally short ones the
nearest to it, a tie to the even last digit. A point of the decimal grid `10^k` that rounds to the
double lies next to the double on that grid, so the grids are tried from coarse to fine and two
neighbours are looked at on each. `Layout` says how the digits are set in text.
-/

namespace Switchboard

/-- `digits * 10^exponent`. -/
structure Decimal where
  digits : Nat
  exponent : Int
  deriving DecidableEq, Repr

namespace Decimal

/-- The value as a quotient of natural numbers. -/
def ratio (d : Decimal) : Nat × Nat :=
  if 0 ≤ d.exponent then (d.digits * Nat.pow 10 d.exponent.toNat, 1)
  else (d.digits, Nat.pow 10 (-d.exponent).toNat)

end Decimal

namespace Double

/-- A quarter of the distance to the next double, as a count of `2^-1076`. -/
def quarter (x : Double) : Nat := Nat.pow 2 x.scale

/-- Half way to the next smaller double, in units of `2^-1076`. Below a power of two the spacing
halves. -/
def lowerEnd (x : Double) : Nat :=
  if x.significand = Nat.pow 2 52 ∧ 0 < x.scale then 4 * x.units - x.quarter
  else 4 * x.units - 2 * x.quarter

/-- Half way to the next larger double, in units of `2^-1076`. -/
def upperEnd (x : Double) : Nat := 4 * x.units + 2 * x.quarter

/-- Whether `d` rounds to `x`: the ends of the interval do so when the significand is even. -/
def roundsFrom (x : Double) (d : Decimal) : Bool :=
  let (num, den) := d.ratio
  let point := num * (4 * one)
  if x.significand % 2 = 0 then x.lowerEnd * den ≤ point && point ≤ x.upperEnd * den
  else x.lowerEnd * den < point && point < x.upperEnd * den

/-- The distance of `d` from `x`, as a count of `2^-1076` over the denominator of `d`. -/
def distance (x : Double) (d : Decimal) : Nat :=
  let (num, den) := d.ratio
  let point := num * (4 * one)
  let here := 4 * x.units * den
  point - here + (here - point)

/-- The grid point at or below `x` on the grid `10^k`. -/
def floorOn (x : Double) (k : Int) : Nat :=
  if 0 ≤ k then x.units / (one * Nat.pow 10 k.toNat) else x.units * Nat.pow 10 (-k).toNat / one

/-- The grid point next to `x` that rounds to it, if there is one. -/
def pointOn (x : Double) (k : Int) : Option Decimal :=
  let below : Decimal := ⟨x.floorOn k, k⟩
  let above : Decimal := ⟨x.floorOn k + 1, k⟩
  match x.roundsFrom below, x.roundsFrom above with
  | true, true =>
    if x.distance below < x.distance above then some below
    else if x.distance above < x.distance below then some above
    else if below.digits % 2 = 0 then some below else some above
  | true, false => some below
  | false, true => some above
  | false, false => none

/-- An exponent of ten above the magnitude. -/
def topExponent (x : Double) : Int :=
  ((x.units.log2 : Int) - 1074 + 1) * 30103 / 100000 + 1

/-- The first grid point found on `count` grids, from `10^k` to finer ones. -/
def firstPoint (x : Double) : Nat → Int → Option Decimal
  | 0, _ => none
  | count + 1, k =>
    match x.pointOn k with
    | some d => some d
    | none => firstPoint x count (k - 1)

/-- Seventeen digits tell any two doubles apart, and the first grids may lie above the value. -/
def shortest (x : Double) : Decimal :=
  if x.isZero then ⟨0, 0⟩ else (firstPoint x 20 x.topExponent).getD ⟨0, 0⟩

/-- How a number is set: positional notation for scientific exponents from `fixedFrom` to
`fixedTo`, with `fraction` after a whole number, and otherwise `mark`, a sign and the exponent. -/
structure Layout where
  fixedFrom : Int
  fixedTo : Int
  fraction : String
  mark : String
  plus : String

/-- The decimal digits of a natural number. -/
def digitChars (n : Nat) : List Char := Nat.toDigits 10 n

def Layout.text (l : Layout) (x : Double) : List Char :=
  let d := x.shortest
  let ds := digitChars d.digits
  let sci : Int := d.exponent + ds.length - 1
  let sign := if x.negative then ['-'] else []
  if x.isZero then sign ++ '0' :: l.fraction.toList
  else if l.fixedFrom ≤ sci ∧ sci ≤ l.fixedTo then
    if 0 ≤ d.exponent then
      sign ++ ds ++ List.replicate d.exponent.toNat '0' ++ l.fraction.toList
    else if 0 ≤ sci then
      sign ++ ds.take (sci.toNat + 1) ++ '.' :: ds.drop (sci.toNat + 1)
    else
      sign ++ '0' :: '.' :: List.replicate (-sci - 1).toNat '0' ++ ds
  else
    let exponent := if sci < 0 then '-' :: digitChars (-sci).toNat
      else l.plus.toList ++ digitChars sci.toNat
    let tail := match ds.drop 1 with
      | [] => []
      | rest => '.' :: rest
    sign ++ ds.take 1 ++ tail ++ l.mark.toList ++ exponent

end Double
end Switchboard
