/-!
# Finite binary floats

A double is `± significand * 2^(scale - 1074)` with a significand below `2^53`, normalized so
that the significand is at least `2^52` unless `scale` is 0. `ofRatio?` rounds a quotient of
natural numbers to the nearest double, a tie to the even significand, and refuses what is too
large. Products and quotients are the exact results rounded that way.
-/

namespace Switchboard

structure Double where
  negative : Bool
  significand : Nat
  scale : Nat
  deriving DecidableEq, Repr

namespace Double

def zero : Double := ⟨false, 0, 0⟩

/-- The magnitude in units of `2^-1074`. -/
def units (x : Double) : Nat := x.significand * Nat.pow 2 x.scale

/-- The unit count of 1. -/
def one : Nat := Nat.pow 2 1074

def isZero (x : Double) : Bool := x.significand == 0

/-- The quotient rounded to the nearest natural number, a tie to the even one. -/
def divRound (num den : Nat) : Nat :=
  let q := num / den
  let r := num % den
  if 2 * r < den then q
  else if den < 2 * r then q + 1
  else q + q % 2

/-- The largest scale of a finite double. -/
def maxScale : Nat := 2045

/-- `num / den` as a nonnegative double. -/
def ofRatio? (num den : Nat) : Option Double :=
  let whole := num * one / den
  let scale := if whole = 0 then 0 else whole.log2 + 1 - 53
  let m := divRound (num * one) (den * Nat.pow 2 scale)
  let x : Double := if m < Nat.pow 2 53 then ⟨false, m, scale⟩ else ⟨false, Nat.pow 2 52, scale + 1⟩
  if x.scale ≤ maxScale then some x else none

def mul? (x y : Double) : Option Double :=
  (ofRatio? (x.units * y.units) (one * one)).map
    fun z => { z with negative := x.negative != y.negative }

/-- `none` also for a zero divisor. -/
def div? (x y : Double) : Option Double :=
  if y.isZero then none
  else (ofRatio? x.units y.units).map fun z => { z with negative := x.negative != y.negative }

/-- The double nearest `10^n`. -/
def tenPow? (n : Nat) : Option Double := ofRatio? (Nat.pow 10 n) 1

end Double
end Switchboard
