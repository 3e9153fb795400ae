import Switchboard.Json.Basic
import Switchboard.Json.Number

/-!
# JSON text

A `Tree` is a JSON text as it is written: members in their order, repeated keys included. A
number too large for a double and a string with an unpaired surrogate escape are well formed but
have no value; they stand as `none`, because a reader that skips a member never looks at them.
`Tree.parse?` accepts exactly one value with blanks around it, `Tree.value?` is the value of a tree
that has one, and `Json.parse?` also refuses text nested deeper than `Tree.maxDepth`.
-/

namespace Switchboard

inductive Tree where
  | null
  | bool (b : Bool)
  | num (value : Option Number)
  | str (value : Option String)
  | arr (items : List Tree)
  | obj (members : List (Option String × Tree))
  deriving Repr, Inhabited

namespace Tree

/-- Blanks between the tokens. -/
def isSpace (c : Char) : Bool := c == ' ' || c == '\t' || c == '\n' || c == '\r'

def skipSpace (cs : List Char) : List Char := cs.dropWhile isSpace

def hexValue (c : Char) : Option Nat :=
  if '0' ≤ c ∧ c ≤ '9' then some (c.toNat - '0'.toNat)
  else if 'a' ≤ c ∧ c ≤ 'f' then some (c.toNat - 'a'.toNat + 10)
  else if 'A' ≤ c ∧ c ≤ 'F' then some (c.toNat - 'A'.toNat + 10)
  else none

def hex4 (a b c d : Char) : Option Nat := do
  return (((← hexValue a) * 16 + (← hexValue b)) * 16 + (← hexValue c)) * 16 + (← hexValue d)

/-- What a backslash and one character stand for. -/
def escapeChar : Char → Option Char
  | '"' => some '"'
  | '\\' => some '\\'
  | '/' => some '/'
  | 'b' => some '\x08'
  | 'f' => some '\x0c'
  | 'n' => some '\n'
  | 'r' => some '\r'
  | 't' => some '\t'
  | _ => none

def isHigh (n : Nat) : Bool := 0xD800 ≤ n && n ≤ 0xDBFF

def isLow (n : Nat) : Bool := 0xDC00 ≤ n && n ≤ 0xDFFF

/-- A string read so far: the characters in reverse, `none` once a surrogate has no partner, and a
high surrogate that waits for its partner. -/
structure Partial where
  chars : Option (List Char)
  high : Option Nat

namespace Partial

def start : Partial := ⟨some [], none⟩

def push (p : Partial) (c : Char) : Partial :=
  match p.high with
  | none => ⟨p.chars.map (c :: ·), none⟩
  | some _ => ⟨none, none⟩

def pushUnit (p : Partial) (n : Nat) : Partial :=
  match p.high with
  | some h =>
    if isLow n then
      ⟨p.chars.map (Char.ofNat (0x10000 + (h - 0xD800) * 0x400 + (n - 0xDC00)) :: ·),
        none⟩
    else ⟨none, none⟩
  | none =>
    if isHigh n then ⟨p.chars, some n⟩
    else if isLow n then ⟨none, none⟩
    else ⟨p.chars.map (Char.ofNat n :: ·), none⟩

def finish (p : Partial) : Option String :=
  match p.high with
  | none => p.chars.map fun cs => String.ofList cs.reverse
  | some _ => none

end Partial

/-- The rest of a string after its opening quote. -/
def scanString (p : Partial) : List Char → Option (Option String × List Char)
  | '"' :: rest => some (p.finish, rest)
  | '\\' :: 'u' :: a :: b :: c :: d :: rest =>
    match hex4 a b c d with
    | some n => scanString (p.pushUnit n) rest
    | none => none
  | '\\' :: e :: rest =>
    match escapeChar e with
    | some c => scanString (p.push c) rest
    | none => none
  | c :: rest => if c.toNat < 0x20 ∨ c = '\\' then none else scanString (p.push c) rest
  | [] => none

mutual

/-- The value at the front of a text, with `fuel` for the nesting and length of what it holds. -/
def scanValue : Nat → List Char → Option (Tree × List Char)
  | 0, _ => none
  | fuel + 1, cs =>
    match skipSpace cs with
    | '"' :: r => (scanString .start r).map fun (s, rest) => (.str s, rest)
    | '[' :: r =>
      match skipSpace r with
      | ']' :: rest => some (.arr [], rest)
      | r => (scanItems fuel r).map fun (items, rest) => (.arr items, rest)
    | '{' :: r =>
      match skipSpace r with
      | '}' :: rest => some (.obj [], rest)
      | r => (scanMembers fuel r).map fun (members, rest) => (.obj members, rest)
    | 'n' :: 'u' :: 'l' :: 'l' :: rest => some (.null, rest)
    | 't' :: 'r' :: 'u' :: 'e' :: rest => some (.bool true, rest)
    | 'f' :: 'a' :: 'l' :: 's' :: 'e' :: rest => some (.bool false, rest)
    | r => (Numeral.scan r).map fun (l, rest) => (.num l.value?, rest)

/-- Items up to the closing bracket. -/
def scanItems : Nat → List Char → Option (List Tree × List Char)
  | 0, _ => none
  | fuel + 1, cs =>
    match scanValue fuel cs with
    | none => none
    | some (v, r) =>
      match skipSpace r with
      | ',' :: r => (scanItems fuel r).map fun (items, rest) => (v :: items, rest)
      | ']' :: rest => some ([v], rest)
      | _ => none

/-- Members up to the closing brace. -/
def scanMembers : Nat → List Char → Option (List (Option String × Tree) × List Char)
  | 0, _ => none
  | fuel + 1, cs =>
    match skipSpace cs with
    | '"' :: r =>
      match scanString .start r with
      | none => none
      | some (k, r) =>
        match skipSpace r with
        | ':' :: r =>
          match scanValue fuel r with
          | none => none
          | some (v, r) =>
            match skipSpace r with
            | ',' :: r =>
              (scanMembers fuel r).map fun (members, rest) => ((k, v) :: members, rest)
            | '}' :: rest => some ([(k, v)], rest)
            | _ => none
        | _ => none
    | _ => none

end

/-- The tree of a whole text. Every call that takes fuel without reading is followed by one that
reads, so twice the length is enough. -/
def parse? (cs : List Char) : Option Tree :=
  match scanValue (2 * cs.length + 2) cs with
  | some (t, rest) => if (skipSpace rest).isEmpty then some t else none
  | none => none

mutual

/-- How many brackets and braces are open at the deepest place. -/
def depth : Tree → Nat
  | .arr items => depthItems items + 1
  | .obj members => depthMembers members + 1
  | _ => 0

def depthItems : List Tree → Nat
  | [] => 0
  | t :: rest => max t.depth (depthItems rest)

def depthMembers : List (Option String × Tree) → Nat
  | [] => 0
  | (_, t) :: rest => max t.depth (depthMembers rest)

end

/-- The deepest nesting that is read. -/
def maxDepth : Nat := 127

mutual

/-- The value, if every key, string and number in the tree has one. -/
def value? : Tree → Option Json
  | .null => some .null
  | .bool b => some (.bool b)
  | .num (some (.int n)) => some (.int n)
  | .num (some (.float x)) => some (.float x)
  | .num none => none
  | .str s => s.map .str
  | .arr items => (valueItems? items).map .arr
  | .obj members => (valueMembers? members).map Json.ofMembers

def valueItems? : List Tree → Option (List Json)
  | [] => some []
  | t :: rest =>
    match t.value?, valueItems? rest with
    | some v, some vs => some (v :: vs)
    | _, _ => none

def valueMembers? : List (Option String × Tree) → Option (List (String × Json))
  | [] => some []
  | (some k, t) :: rest =>
    match t.value?, valueMembers? rest with
    | some v, some vs => some ((k, v) :: vs)
    | _, _ => none
  | (none, _) :: _ => none

end

end Tree

namespace Json

def parse? (text : String) : Option Json :=
  match Tree.parse? text.toList with
  | some t => if t.depth ≤ Tree.maxDepth then t.value? else none
  | none => none

mutual

/-- A value as the tree that writes it. -/
def toTree : Json → Tree
  | .null => .null
  | .bool b => .bool b
  | .int n => .num (some (.int n))
  | .float x => .num (some (.float x))
  | .str s => .str (some s)
  | .arr items => .arr (toTreeItems items)
  | .obj members => .obj (toTreeMembers members)

def toTreeItems : List Json → List Tree
  | [] => []
  | v :: rest => v.toTree :: toTreeItems rest

def toTreeMembers : List (String × Json) → List (Option String × Tree)
  | [] => []
  | (k, v) :: rest => (some k, v.toTree) :: toTreeMembers rest

end

end Json
end Switchboard
