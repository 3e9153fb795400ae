import Switchboard.Text.Blank
import Switchboard.Text.Case
import Switchboard.Text.Quoted
import Switchboard.Text.Utf8
import Switchboard.Tools.Error

/-!
# Frames

A frame is a block of header lines, an empty line and a body. The header line `Content-Length`,
in any letter case, gives the number of bytes of the body; the first such line counts and all other
lines are ignored. A header takes at most `maxHeader` bytes with its empty line. `scan` looks at
the bytes that have arrived so far: they begin with a whole frame, can never become one, or need
more bytes. At the end of a stream the last case means that the connection was closed.

A reader makes room for a body before it reads any of it. `read` says what it comes to where there
is room for bodies of all lengths; there never is for more than `maxRoom` bytes, and a reader that
asks for more crashes, which is what `read?` and `readAll?` add.
-/

namespace Switchboard.Tools.Frame

open Text

/-- `\r\n\r\n` -/
def terminator : List UInt8 := [13, 10, 13, 10]

def maxHeader : Nat := 8192

/-- One past the largest length. -/
def lengthBound : Nat := Nat.pow 2 64

inductive Header where
  | complete (header : List UInt8) (rest : List UInt8)
  | tooLong
  | incomplete
  deriving DecidableEq, Repr

/-- The header of which `seen` was read, in reverse, with room for `room` more bytes. -/
def scanHeader (seen : List UInt8) (room : Nat) : List UInt8 → Header
  | [] =>
    match seen with
    | 10 :: 13 :: 10 :: 13 :: header => .complete header.reverse []
    | _ => if room = 0 then .tooLong else .incomplete
  | b :: rest =>
    match seen with
    | 10 :: 13 :: 10 :: 13 :: header => .complete header.reverse (b :: rest)
    | _ => if room = 0 then .tooLong else scanHeader (b :: seen) (room - 1) rest

/-- The lines of a header. -/
def splitLines : List Char → List (List Char)
  | '\r' :: '\n' :: rest => [] :: splitLines rest
  | c :: rest =>
    match splitLines rest with
    | [] => [[c]]
    | line :: lines => (c :: line) :: lines
  | [] => [[]]

def lengthKey : List Char := "content-length:".toList

/-- What a `Content-Length` line says. -/
def lengthValue? (line : List Char) : Option (List Char) :=
  if eqIgnoreCase (line.take lengthKey.length) lengthKey then
    some (trimChars (line.drop lengthKey.length))
  else none

def isDigit (c : Char) : Bool := '0' ≤ c && c ≤ '9'

def natOf (digits : List Char) : Nat :=
  digits.foldl (fun n c => 10 * n + (c.toNat - '0'.toNat)) 0

/-- A number below `lengthBound` in decimal digits, which one plus sign may precede. -/
def readLength (value : List Char) : Option Nat :=
  let digits := match value with
    | '+' :: rest => rest
    | cs => cs
  if !digits.isEmpty && digits.all isDigit && natOf digits < lengthBound then some (natOf digits)
  else none

def contentLength (header : List UInt8) : Except ToolError Nat :=
  match Utf8.decode? header with
  | none => .error (.framing "header is not valid ASCII")
  | some cs =>
    match (splitLines cs).findSome? lengthValue? with
    | none => .error (.framing "missing Content-Length header")
    | some value =>
      match readLength value with
      | some n => .ok n
      | none =>
        .error (.framing ("invalid Content-Length value: " ++ String.ofList (quoted value)))

inductive Scan where
  | frame (body : List UInt8) (rest : List UInt8)
  | broken (why : ToolError)
  | more
  deriving DecidableEq, Repr

def scan (bytes : List UInt8) : Scan :=
  match scanHeader [] maxHeader bytes with
  | .incomplete => .more
  | .tooLong => .broken (.framing ("header exceeds " ++ toString maxHeader ++ " bytes"))
  | .complete header rest =>
    match contentLength header with
    | .error e => .broken e
    | .ok n => if n ≤ rest.length then .frame (rest.take n) (rest.drop n) else .more

/-- Reads one frame from a stream that holds `bytes` and then ends. -/
def read (bytes : List UInt8) : Except ToolError (List UInt8 × List UInt8) :=
  match scan bytes with
  | .frame body rest => .ok (body, rest)
  | .broken e => .error e
  | .more => .error .connectionClosed

theorem length_of_complete {seen bytes header rest : List UInt8} {room : Nat}
    (h : scanHeader seen room bytes = .complete header rest) :
    header.length + rest.length + 4 = seen.length + bytes.length := by
  induction bytes generalizing seen room with
  | nil =>
    unfold scanHeader at h
    split at h
    · cases h; simp
    · split at h <;> cases h
  | cons b bytes ih =>
    unfold scanHeader at h
    split at h
    · cases h; simp; omega
    · split at h
      · cases h
      · have := ih h
        simp only [List.length_cons] at this ⊢
        omega

theorem length_of_scan {bytes body rest : List UInt8} (h : scan bytes = .frame body rest) :
    body.length + rest.length + 4 ≤ bytes.length := by
  unfold scan at h
  split at h <;> try cases h
  rename_i header tail hc
  have := length_of_complete hc
  split at h <;> try cases h
  split at h <;> cases h
  simp only [List.length_take, List.length_drop, List.length_nil] at *
  omega

/-- The bodies of all frames of a stream, and what ended it. -/
def readAll (bytes : List UInt8) : List (List UInt8) × ToolError :=
  match _h : scan bytes with
  | .frame body rest =>
    let (bodies, why) := readAll rest
    (body :: bodies, why)
  | .broken e => ([], e)
  | .more => ([], .connectionClosed)
  termination_by bytes.length
  decreasing_by have := length_of_scan _h; omega

/-! ## Room -/

/-- The most bytes for which room can be made. -/
def maxRoom : Nat := Nat.pow 2 63 - 1

/-- The length of the body that comes next, once its header is there. -/
def awaited? (bytes : List UInt8) : Option Nat :=
  match scanHeader [] maxHeader bytes with
  | .complete header _ => (contentLength header).toOption
  | .tooLong | .incomplete => none

/-- Whether a reader crashes over these bytes, however many follow. -/
def crashes (bytes : List UInt8) : Bool := (awaited? bytes).any (maxRoom < ·)

/-- Reads one frame, unless the reader crashes. -/
def read? (bytes : List UInt8) : Option (Except ToolError (List UInt8 × List UInt8)) :=
  if crashes bytes then none else some (read bytes)

/-- Reads all frames of a stream, unless the reader crashes over one of them. -/
def readAll? (bytes : List UInt8) : Option (List (List UInt8) × ToolError) :=
  if crashes bytes then none
  else
    match _h : scan bytes with
    | .frame body rest => (readAll? rest).map fun (bodies, why) => (body :: bodies, why)
    | .broken e => some ([], e)
    | .more => some ([], .connectionClosed)
  termination_by bytes.length
  decreasing_by have := length_of_scan _h; omega

/-- A body with its header. -/
def write (body : List UInt8) : List UInt8 :=
  Utf8.encode ("Content-Length: ".toList ++ Nat.toDigits 10 body.length ++ "\r\n\r\n".toList) ++
    body

end Switchboard.Tools.Frame
