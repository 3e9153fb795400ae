import Switchboard.Json.Double

/-!
# Number literals

`Numeral` holds the digits of a JSON number as written. Its value is an integer if it is written
without fraction and exponent and fits 64 bits, signed or unsigned; `-0` and all others are
doubles. The digits are gathered into a 64-bit significand: whole digits that no longer fit count
as powers of ten, fraction digits that no longer fit are dropped. The significand is rounded to a
double once and then multiplied or divided by a rounded power of ten, so a long literal may miss
the nearest double by a little. A literal past the largest double has no value.
-/

namespace Switchboard

inductive Number where
  | int (n : Int)
  | float (x : Double)
  deriving DecidableEq, Repr

/-- A number literal: `whole` and the digits of the other parts are decimal digits. -/
structure Numeral where
  negative : Bool
  whole : List Char
  fraction : List Char
  exponent : Option (Bool × List Char)
  /-- Whether there is a decimal point. -/
  pointed : Bool
  deriving DecidableEq, Repr

namespace Numeral

def isDigit (c : Char) : Bool := '0' ≤ c && c ≤ '9'

def digitValue (c : Char) : Nat := c.toNat - '0'.toNat

def natOf (digits : List Char) : Nat := digits.foldl (fun n c => 10 * n + digitValue c) 0

/-- The largest significand. -/
def maxSignificand : Nat := Nat.pow 2 64 - 1

/-- Appends digits to `n` while the result fits a significand; what is left over comes second. -/
def gather (n : Nat) : List Char → Nat × List Char
  | [] => (n, [])
  | c :: rest =>
    if 10 * n + digitValue c ≤ maxSignificand then gather (10 * n + digitValue c) rest
    else (n, c :: rest)

/-- The largest power of ten that is used as one factor. -/
def maxPower : Nat := 308

/-- `x` divided by the largest power, `count` times; zero stays zero. -/
def shrink (x : Double) : Nat → Option Double
  | 0 => some x
  | count + 1 =>
    if x.isZero then some x
    else
      match Double.tenPow? maxPower >>= x.div? with
      | some y => shrink y count
      | none => none

/-- `x / 10^n`, by powers of at most `10^308`. -/
def scaleDown (x : Double) (n : Nat) : Option Double := do
  let y ← shrink x ((n - 1) / maxPower)
  let power ← Double.tenPow? (n - (n - 1) / maxPower * maxPower)
  y.div? power

/-- `x * 10^n`, if that is finite. -/
def scaleUp (x : Double) (n : Nat) : Option Double :=
  if n ≤ maxPower then Double.tenPow? n >>= x.mul?
  else if x.isZero then some x
  else none

def scale (x : Double) (e : Int) : Option Double :=
  if 0 ≤ e then scaleUp x e.toNat else scaleDown x (-e).toNat

/-- The value as a double: significand and power of ten are rounded apart. -/
def float? (l : Numeral) : Option Double :=
  let (wholePart, spilled) := gather 0 l.whole
  let (significand, lost) := gather wholePart l.fraction
  let point : Int := spilled.length - (l.fraction.length - lost.length : Nat)
  let e : Int := match l.exponent with
    | none => 0
    | some (true, ds) => -(natOf ds : Int)
    | some (false, ds) => natOf ds
  (Double.ofRatio? significand 1 >>= fun x => scale x (point + e)).map
    fun x => { x with negative := l.negative }

def value? (l : Numeral) : Option Number :=
  let n := natOf l.whole
  if l.pointed || l.exponent.isSome then l.float?.map .float
  else if l.negative then
    if 0 < n ∧ n ≤ Nat.pow 2 63 then some (.int (-n)) else l.float?.map .float
  else if n ≤ maxSignificand then some (.int n)
  else l.float?.map .float

/-- Digits at the front, and the rest. -/
def takeDigits (cs : List Char) : List Char × List Char :=
  (cs.takeWhile isDigit, cs.dropWhile isDigit)

/-- The whole part: no leading zero before another digit. -/
def scanWhole (cs : List Char) : Option (List Char × List Char) :=
  match takeDigits cs with
  | ([], _) => none
  | (['0'], rest) => some (['0'], rest)
  | ('0' :: _, _) => none
  | (ds, rest) => some (ds, rest)

/-- A decimal point must be followed by a digit. -/
def scanFraction : List Char → Option (Bool × List Char × List Char)
  | '.' :: cs =>
    match takeDigits cs with
    | ([], _) => none
    | (ds, rest) => some (true, ds, rest)
  | cs => some (false, [], cs)

/-- The digits of an exponent, after its mark. -/
def scanPower (negative : Bool) (cs : List Char) :
    Option (Option (Bool × List Char) × List Char) :=
  match takeDigits cs with
  | ([], _) => none
  | (ds, rest) => some (some (negative, ds), rest)

def scanExponent : List Char → Option (Option (Bool × List Char) × List Char)
  | c :: cs =>
    if c == 'e' || c == 'E' then
      match cs with
      | '+' :: r => scanPower false r
      | '-' :: r => scanPower true r
      | r => scanPower false r
    else some (none, c :: cs)
  | [] => some (none, [])

/-- The literal at the front of a text. -/
def scan (cs : List Char) : Option (Numeral × List Char) := do
  let (negative, cs) := match cs with
    | '-' :: r => (true, r)
    | r => (false, r)
  let (whole, cs) ← scanWhole cs
  let (pointed, fraction, cs) ← scanFraction cs
  let (exponent, cs) ← scanExponent cs
  return (⟨negative, whole, fraction, exponent, pointed⟩, cs)

end Numeral
end Switchboard
