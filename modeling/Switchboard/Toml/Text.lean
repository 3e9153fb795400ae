import Switchboard.Json.Tree

/-!
# Strings and gaps in TOML

A string stands in one pair of quotes on one line or in three pairs over several lines; double
quotes know escapes, single quotes do not. In a long string a line end counts as a line feed, the
one after the opening quotes is dropped, up to two quotes may stand before the closing three, and a
backslash at the end of a line removes all blanks and line ends that follow. Comments and strings
hold no control characters other than tabs.
-/

namespace Switchboard.Toml

def isBlank (c : Char) : Bool := c == ' ' || c == '\t'

/-- The characters that comments and strings may hold. -/
def isText (c : Char) : Bool := c == '\t' || (0x20 ≤ c.toNat && c.toNat != 0x7f)

def skipBlanks (cs : List Char) : List Char := cs.dropWhile isBlank

/-- Skips blanks, line ends and comments; `comment` tells whether a comment is open. -/
def skipGap (comment : Bool) : List Char → Option (List Char)
  | [] => some []
  | '\n' :: rest => skipGap false rest
  | '\r' :: '\n' :: rest => skipGap false rest
  | c :: rest =>
    if comment then if isText c then skipGap true rest else none
    else if isBlank c then skipGap false rest
    else if c = '#' then skipGap true rest
    else some (c :: rest)

/-- Skips the rest of a line that holds nothing more than a comment. -/
def skipLine (comment : Bool) : List Char → Option (List Char)
  | [] => some []
  | '\n' :: rest => some rest
  | '\r' :: '\n' :: rest => some rest
  | c :: rest =>
    if comment then if isText c then skipLine true rest else none
    else if isBlank c then skipLine false rest
    else if c = '#' then skipLine true rest
    else none

/-! ## Escapes -/

/-- What a backslash and one character stand for. -/
def escapeChar : Char → Option Char
  | '"' => some '"'
  | '\\' => some '\\'
  | 'b' => some '\x08'
  | 't' => some '\t'
  | 'n' => some '\n'
  | 'f' => some '\x0c'
  | 'r' => some '\r'
  | 'e' => some '\x1b'
  | _ => none

/-- The character whose number stands in hexadecimal digits. -/
def hexChar? (digits : List Char) : Option Char := do
  let n ← digits.foldlM (fun n c => (Tree.hexValue c).map (16 * n + ·)) 0
  if n.isValidChar then some (Char.ofNat n) else none

/-! ## Strings -/

/-- Puts a character in front of a string that was read, unless either is missing. -/
def push (c : Option Char) (s : Option (List Char × List Char)) :
    Option (List Char × List Char) :=
  match c, s with
  | some c, some (s, rest) => some (c :: s, rest)
  | _, _ => none

/-- The rest of a string in double quotes. -/
def quoted? : List Char → Option (List Char × List Char)
  | '"' :: rest => some ([], rest)
  | '\\' :: 'x' :: a :: b :: rest => push (hexChar? [a, b]) (quoted? rest)
  | '\\' :: 'u' :: a :: b :: c :: d :: rest => push (hexChar? [a, b, c, d]) (quoted? rest)
  | '\\' :: 'U' :: a :: b :: c :: d :: e :: f :: g :: h :: rest =>
    push (hexChar? [a, b, c, d, e, f, g, h]) (quoted? rest)
  | '\\' :: c :: rest => push (escapeChar c) (quoted? rest)
  | c :: rest => if isText c then push (some c) (quoted? rest) else none
  | [] => none

/-- The rest of a string in single quotes. -/
def literal? : List Char → Option (List Char × List Char)
  | '\'' :: rest => some ([], rest)
  | c :: rest => if isText c then push (some c) (literal? rest) else none
  | [] => none

/-- Blanks and line ends at the front dropped. -/
def trimLines : List Char → List Char
  | '\n' :: rest => trimLines rest
  | '\r' :: '\n' :: rest => trimLines rest
  | c :: rest => if isBlank c then trimLines rest else c :: rest
  | [] => []

theorem length_trimLines_le (cs : List Char) : (trimLines cs).length ≤ cs.length := by
  fun_induction trimLines cs <;> simp_all only [List.length_cons, Nat.le_refl] <;> omega

/-- What follows a backslash that ends a line, or nothing if the line goes on. -/
def continued? (cs : List Char) : Option (List Char) :=
  match skipBlanks cs with
  | '\n' :: rest => some (trimLines rest)
  | '\r' :: '\n' :: rest => some (trimLines rest)
  | _ => none

theorem length_lt_of_continued? {cs rest : List Char} (h : continued? cs = some rest) :
    rest.length < cs.length := by
  have hd := (List.dropWhile_suffix isBlank (l := cs)).length_le
  unfold continued? skipBlanks at h
  split at h <;> simp only [Option.some.injEq, reduceCtorEq] at h <;> subst h <;>
    rename_i tail heq <;> have ht := length_trimLines_le tail <;>
    simp only [heq, List.length_cons] at hd <;> omega

/-- The rest of a long string in double quotes. -/
def longQuoted? : List Char → Option (List Char × List Char)
  | '"' :: '"' :: '"' :: '"' :: '"' :: rest => some (['"', '"'], rest)
  | '"' :: '"' :: '"' :: '"' :: rest => some (['"'], rest)
  | '"' :: '"' :: '"' :: rest => some ([], rest)
  | '\n' :: rest => push (some '\n') (longQuoted? rest)
  | '\r' :: '\n' :: rest => push (some '\n') (longQuoted? rest)
  | '\\' :: 'x' :: a :: b :: rest => push (hexChar? [a, b]) (longQuoted? rest)
  | '\\' :: 'u' :: a :: b :: c :: d :: rest => push (hexChar? [a, b, c, d]) (longQuoted? rest)
  | '\\' :: 'U' :: a :: b :: c :: d :: e :: f :: g :: h :: rest =>
    push (hexChar? [a, b, c, d, e, f, g, h]) (longQuoted? rest)
  | '\\' :: c :: rest =>
    match h : continued? (c :: rest) with
    | some next =>
      have := length_lt_of_continued? h
      longQuoted? next
    | none => push (escapeChar c) (longQuoted? rest)
  | c :: rest => if isText c then push (some c) (longQuoted? rest) else none
  | [] => none
  termination_by cs => cs.length
  decreasing_by all_goals simp only [List.length_cons] at *; omega

/-- The rest of a long string in single quotes. -/
def longLiteral? : List Char → Option (List Char × List Char)
  | '\'' :: '\'' :: '\'' :: '\'' :: '\'' :: rest => some (['\'', '\''], rest)
  | '\'' :: '\'' :: '\'' :: '\'' :: rest => some (['\''], rest)
  | '\'' :: '\'' :: '\'' :: rest => some ([], rest)
  | '\n' :: rest => push (some '\n') (longLiteral? rest)
  | '\r' :: '\n' :: rest => push (some '\n') (longLiteral? rest)
  | c :: rest => if isText c then push (some c) (longLiteral? rest) else none
  | [] => none

/-- Drops the line end at the front. -/
def dropLineEnd : List Char → List Char
  | '\n' :: rest => rest
  | '\r' :: '\n' :: rest => rest
  | cs => cs

end Switchboard.Toml
