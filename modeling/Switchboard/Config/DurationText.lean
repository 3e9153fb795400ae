import Switchboard.Duration

/-!
# Durations as text

A duration is written as terms joined by `+`, `*` or nothing, which means `+`; after the first all
must be joined in one way. A term is a number and a unit in any letter case; a number without a unit
counts seconds and must be followed by an operator or the end. Blanks may stand around everything.
Every term, and every intermediate result, must fit 64 bits of nanoseconds. A product multiplies
seconds: all terms but the first are multiplied first, each step cut to whole nanoseconds.
-/

namespace Switchboard.Duration

inductive Token where
  | number (n : Nat)
  | word (w : List Char)
  | plus
  | times
  deriving DecidableEq, Repr

def isDigit (c : Char) : Bool := '0' ≤ c && c ≤ '9'

def isUnitChar (c : Char) : Bool := c.isAlpha || c == 'µ'

def isGap (c : Char) : Bool := c == ' ' || c == '\t' || c == '\r' || c == '\n'

/-- The tokens of a text of which the token `pending` is still being read. -/
def lexFrom (pending : List Token) : List Char → Option (List Token)
  | [] => some pending
  | c :: rest =>
    if isDigit c then
      let d := c.toNat - '0'.toNat
      match pending with
      | [.number n] => lexFrom [.number (10 * n + d)] rest
      | p => (lexFrom [.number d] rest).map (p ++ ·)
    else if isUnitChar c then
      match pending with
      | [.word w] => lexFrom [.word (w ++ [c.toLower])] rest
      | p => (lexFrom [.word [c.toLower]] rest).map (p ++ ·)
    else if isGap c then (lexFrom [] rest).map (pending ++ ·)
    else if c = '+' then (lexFrom [] rest).map (pending ++ .plus :: ·)
    else if c = '*' then (lexFrom [] rest).map (pending ++ .times :: ·)
    else none

def day : Nat := 86400 * second

/-- The names of the units in lower case, and their nanoseconds. -/
def units : List (List String × Nat) :=
  [(["y", "year", "years"], 365 * day), (["mon", "month", "months"], 30 * day),
    (["w", "week", "weeks"], 7 * day), (["d", "day", "days"], day),
    (["h", "hr", "hour", "hours"], 3600 * second),
    (["m", "min", "minute", "minutes"], 60 * second),
    (["s", "sec", "second", "seconds"], second),
    (["ms", "msec", "millisecond", "milliseconds"], 1000000),
    (["us", "usec", "µs", "µsec", "usecond", "µsecond", "microsecond", "microseconds"], 1000),
    (["ns", "nsec", "nanosecond", "nanoseconds"], 1)]

def unitOf? (w : List Char) : Option Nat :=
  (units.find? fun u => u.1.contains (String.ofList w)).map (·.2)

/-- One past the largest number of nanoseconds in a text. -/
def wordBound : Nat := Nat.pow 2 64

def fit (n : Nat) : Option Nat := if n < wordBound then some n else none

inductive Joint where
  | plus
  | times
  deriving DecidableEq, Repr

/-- Reads terms, of which the first is joined to what was before by `joint`. -/
def terms (joint : Joint) : List Token → Option (List (Joint × Nat))
  | .number n :: .word w :: rest =>
    match (unitOf? w).bind fun u => fit (n * u) with
    | none => none
    | some v =>
      match rest with
      | [] => some [(joint, v)]
      | .plus :: rest => (terms .plus rest).map ((joint, v) :: ·)
      | .times :: rest => (terms .times rest).map ((joint, v) :: ·)
      | rest => (terms .plus rest).map ((joint, v) :: ·)
  | .number n :: rest =>
    match fit (n * second) with
    | none => none
    | some v =>
      match rest with
      | [] => some [(joint, v)]
      | .plus :: rest => (terms .plus rest).map ((joint, v) :: ·)
      | .times :: rest => (terms .times rest).map ((joint, v) :: ·)
      | _ => none
  | _ => none

/-- The product of two spans, as seconds. -/
def product (a b : Nat) : Option Nat := fit (a * b / second)

def total : List (Joint × Nat) → Option Nat
  | [] => none
  | [(_, first)] => some first
  | (_, first) :: (.plus, second) :: rest =>
    if rest.all fun t => t.1 = .plus then
      fit (rest.foldl (fun acc t => acc + t.2) (first + second))
    else none
  | (_, first) :: (.times, second) :: rest =>
    if rest.all fun t => t.1 = .times then
      (rest.foldlM (fun acc t => product acc t.2) second).bind (product first)
    else none

def parse? (text : String) : Option Nat := (lexFrom [] text.toList >>= terms .plus) >>= total

end Switchboard.Duration
