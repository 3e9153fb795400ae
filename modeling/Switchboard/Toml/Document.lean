import Switchboard.Toml.Table
import Switchboard.Toml.Text

/-!
# TOML documents

A document is a sequence of headers and `key = value` lines. Values are strings, whole numbers,
`true` and `false`, arrays and tables in braces; the last two may go over several lines, hold
comments and end with a comma. Floating-point numbers and dates are refused, as no setting takes
one. `Toml.parse?` gives the document as a tree.
-/

namespace Switchboard.Toml

/-! ## Whole numbers -/

/-- Digits in a base, with single underscores between them. -/
def digits? (base : Nat) (n : Nat) : List Char → Option Nat
  | [] => none
  | [c] => digit c n
  | c :: '_' :: rest => digit c n >>= fun n => digits? base n rest
  | c :: rest => digit c n >>= fun n => digits? base n rest
where
  /-- One digit more. -/
  digit (c : Char) (n : Nat) : Option Nat :=
    match Tree.hexValue c with
    | some d => if d < base then some (base * n + d) else none
    | none => none

/-- A decimal number does not begin with a zero unless it is zero. -/
def decimal? : List Char → Option Nat
  | ['0'] => some 0
  | '0' :: _ => none
  | cs => digits? 10 0 cs

def integer? : List Char → Option Int
  | '+' :: cs => (decimal? cs).map Int.ofNat
  | '-' :: cs => (decimal? cs).map fun n => -Int.ofNat n
  | '0' :: 'x' :: cs => (digits? 16 0 cs).map Int.ofNat
  | '0' :: 'o' :: cs => (digits? 8 0 cs).map Int.ofNat
  | '0' :: 'b' :: cs => (digits? 2 0 cs).map Int.ofNat
  | cs => (decimal? cs).map Int.ofNat

/-! ## Keys -/

def isKeyChar (c : Char) : Bool := c.isAlphanum || c == '_' || c == '-'

/-- A key without dots. -/
def key? : List Char → Option (String × List Char)
  | '"' :: rest => (quoted? rest).map fun (s, rest) => (String.ofList s, rest)
  | '\'' :: rest => (literal? rest).map fun (s, rest) => (String.ofList s, rest)
  | cs =>
    let name := cs.takeWhile isKeyChar
    if name.isEmpty then none else some (String.ofList name, cs.dropWhile isKeyChar)

/-- Keys joined by dots, and what follows them and the blanks after them. -/
def path? : Nat → List Char → Option (List String × List Char)
  | 0, _ => none
  | fuel + 1, cs =>
    match key? cs with
    | none => none
    | some (key, rest) =>
      match skipBlanks rest with
      | '.' :: more => (path? fuel (skipBlanks more)).map fun (keys, rest) => (key :: keys, rest)
      | rest => some ([key], rest)

/-! ## Values -/

def isAtomChar (c : Char) : Bool := c.isAlphanum || c == '+' || c == '-' || c == '_' || c == '.'

/-- A number or a truth value. -/
def atom? (cs : List Char) : Option Node :=
  if cs = "true".toList then some (.flag true)
  else if cs = "false".toList then some (.flag false)
  else (integer? cs).map .integer

def textNode (s : Option (List Char × List Char)) : Option (Node × List Char) :=
  s.map fun (s, rest) => (.text (String.ofList s), rest)

mutual

/-- The value at the front of a text, with `fuel` for its nesting and length. -/
def value? : Nat → List Char → Option (Node × List Char)
  | 0, _ => none
  | fuel + 1, cs =>
    match cs with
    | '"' :: '"' :: '"' :: rest => textNode (longQuoted? (dropLineEnd rest))
    | '\'' :: '\'' :: '\'' :: rest => textNode (longLiteral? (dropLineEnd rest))
    | '"' :: rest => textNode (quoted? rest)
    | '\'' :: rest => textNode (literal? rest)
    | '[' :: rest => (items? fuel rest).map fun (items, rest) => (.array items, rest)
    | '\x7b' :: rest =>
      (entries? fuel [] rest).map fun (members, rest) => (.table .braces members, rest)
    | cs => (atom? (cs.takeWhile isAtomChar)).map (·, cs.dropWhile isAtomChar)

/-- Items up to the closing bracket. -/
def items? : Nat → List Char → Option (List Node × List Char)
  | 0, _ => none
  | fuel + 1, cs =>
    match skipGap false cs with
    | none => none
    | some (']' :: rest) => some ([], rest)
    | some cs =>
      match value? fuel cs with
      | none => none
      | some (v, rest) =>
        match skipGap false rest with
        | some (',' :: rest) => (items? fuel rest).map fun (items, rest) => (v :: items, rest)
        | some (']' :: rest) => some ([v], rest)
        | _ => none

/-- The members of a table in braces, of which `members` came before. -/
def entries? : Nat → Members → List Char → Option (Members × List Char)
  | 0, _, _ => none
  | fuel + 1, members, cs =>
    match skipGap false cs with
    | none => none
    | some ('\x7d' :: rest) => some (members, rest)
    | some cs =>
      match assignment? fuel cs with
      | none => none
      | some (path, v, rest) =>
        match members.put v path, skipGap false rest with
        | some members, some (',' :: rest) => entries? fuel members rest
        | some members, some ('\x7d' :: rest) => some (members, rest)
        | _, _ => none

/-- `key = value` on one line, as far as the value does not go on. -/
def assignment? : Nat → List Char → Option (List String × Node × List Char)
  | 0, _ => none
  | fuel + 1, cs =>
    match path? fuel cs with
    | some (path, '=' :: rest) =>
      (value? fuel (skipBlanks rest)).map fun (v, rest) => (path, v, rest)
    | _ => none

end

/-! ## Documents -/

inductive Statement where
  | table (path : List String)
  | element (path : List String)
  | entry (path : List String) (v : Node)

def statement? (fuel : Nat) : List Char → Option (Statement × List Char)
  | '[' :: '[' :: cs =>
    match path? fuel (skipBlanks cs) with
    | some (path, ']' :: ']' :: rest) => some (.element path, rest)
    | _ => none
  | '[' :: cs =>
    match path? fuel (skipBlanks cs) with
    | some (path, ']' :: rest) => some (.table path, rest)
    | _ => none
  | cs => (assignment? fuel cs).map fun (path, v, rest) => (.entry path v, rest)

/-- All statements of a text, each alone on its lines. -/
def statements? : Nat → List Char → Option (List Statement)
  | 0, _ => none
  | fuel + 1, cs =>
    match skipGap false cs with
    | none => none
    | some [] => some []
    | some cs =>
      match statement? fuel cs with
      | none => none
      | some (s, rest) =>
        match skipLine false rest with
        | some rest => (statements? fuel rest).map (s :: ·)
        | none => none

/-- The members of the document after a statement, and the path of the table that is open. -/
def Statement.run : List String × Members → Statement → Option (List String × Members)
  | (_, members), .table path => (members.openTable path).map (path, ·)
  | (_, members), .element path => (members.openElement path).map (path, ·)
  | (opened, members), .entry path v => (members.descend (·.put v path) opened).map (opened, ·)

def dropByteOrderMark : List Char → List Char
  | '\uFEFF' :: cs => cs
  | cs => cs

/-- The document as a tree. Every call that takes fuel without reading is followed by one that
reads, so four times the length is enough. -/
def parse? (text : List Char) : Option Tree := do
  let cs := dropByteOrderMark text
  let statements ← statements? (4 * cs.length + 4) cs
  let (_, members) ← statements.foldlM Statement.run ([], [])
  return (Node.table .header members).toTree

end Switchboard.Toml
