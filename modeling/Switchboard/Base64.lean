/-!
# Base64

Three bytes are four symbols of `A-Z a-z 0-9 + /`, six bits each. The last group may hold one or
two bytes and is written with `=` up to four characters. Reading takes a last group with any part
of its padding, but no more than that, and refuses a last symbol whose unused bits are not zero.
-/

namespace Switchboard.Base64

def symbol (n : Nat) : Char :=
  if n < 26 then Char.ofNat ('A'.toNat + n)
  else if n < 52 then Char.ofNat ('a'.toNat + (n - 26))
  else if n < 62 then Char.ofNat ('0'.toNat + (n - 52))
  else if n = 62 then '+'
  else '/'

def sextet (c : Char) : Option Nat :=
  if 'A' ≤ c ∧ c ≤ 'Z' then some (c.toNat - 'A'.toNat)
  else if 'a' ≤ c ∧ c ≤ 'z' then some (c.toNat - 'a'.toNat + 26)
  else if '0' ≤ c ∧ c ≤ '9' then some (c.toNat - '0'.toNat + 52)
  else if c = '+' then some 62
  else if c = '/' then some 63
  else none

theorem sextet_symbol : ∀ n < 64, sextet (symbol n) = some n := by decide

def encode : List UInt8 → List Char
  | a :: b :: c :: rest =>
    let n := (a.toNat * 256 + b.toNat) * 256 + c.toNat
    symbol (n / 262144) :: symbol (n / 4096 % 64) :: symbol (n / 64 % 64) :: symbol (n % 64) ::
      encode rest
  | [a, b] =>
    let n := (a.toNat * 256 + b.toNat) * 4
    [symbol (n / 4096), symbol (n / 64 % 64), symbol (n % 64), '=']
  | [a] =>
    let n := a.toNat * 16
    [symbol (n / 64), symbol (n % 64), '=', '=']
  | [] => []

/-- Three bytes from four symbols. -/
def full (a b c d : Char) : Option (List UInt8) := do
  let n := (((← sextet a) * 64 + (← sextet b)) * 64 + (← sextet c)) * 64 + (← sextet d)
  return [UInt8.ofNat (n / 65536), UInt8.ofNat (n / 256 % 256), UInt8.ofNat (n % 256)]

/-- Two bytes from three symbols. -/
def two (a b c : Char) : Option (List UInt8) := do
  let n := ((← sextet a) * 64 + (← sextet b)) * 64 + (← sextet c)
  if n % 4 = 0 then some [UInt8.ofNat (n / 1024), UInt8.ofNat (n / 4 % 256)] else none

/-- One byte from two symbols. -/
def one (a b : Char) : Option (List UInt8) := do
  let n := (← sextet a) * 64 + (← sextet b)
  if n % 16 = 0 then some [UInt8.ofNat (n / 16)] else none

/-- The bytes of the last group, of at most four characters. -/
def last : List Char → Option (List UInt8)
  | [] => some []
  | [a, b, '=', '='] => one a b
  | [a, b, '='] => one a b
  | [a, b] => one a b
  | [a, b, c, '='] => two a b c
  | [a, b, c] => two a b c
  | [a, b, c, d] => full a b c d
  | _ => none

def decode? : List Char → Option (List UInt8)
  | a :: b :: c :: d :: e :: rest =>
    match full a b c d, decode? (e :: rest) with
    | some x, some y => some (x ++ y)
    | _, _ => none
  | cs => last cs

end Switchboard.Base64
