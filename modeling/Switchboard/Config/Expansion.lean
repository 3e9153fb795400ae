import Switchboard.Text.Blank

/-!
# Placeholders

A configuration text may name environment variables as `{{ env.NAME }}`, or with a fallback as
`{{ env.NAME | default("text") }}`. Each line is expanded on its own, from left to right; what is
inserted is not looked at again. A line whose first character that is not blank is `#` stays as it
is. Line ends become line feeds. The first placeholder that cannot be resolved is the error.
-/

namespace Switchboard.Config

open Text

/-- A variable is unset if it is missing or not text. -/
abbrev Environment := List (String × Option String)

def Environment.get? (env : Environment) (name : String) : Option String := (env.lookup name).join

inductive ExpansionError where
  | scope (key : String)
  | unset (name : String)
  deriving DecidableEq, Repr

def ExpansionError.message : ExpansionError → String
  | scope k => "only variables scoped with 'env.' are supported: `" ++ k ++ "`"
  | unset n => "environment variable not found: `" ++ n ++ "`"

/-- What stands between the braces, and what follows them. -/
structure Placeholder where
  key : List Char
  fallback : Option (List Char)
  rest : List Char
  deriving DecidableEq, Repr

def isKeyChar (c : Char) : Bool := c.isAlphanum || c == '_' || c == '.'

/-- What follows `word` at the front of a text. -/
def after (word : List Char) (cs : List Char) : Option (List Char) :=
  if word.isPrefixOf cs then some (cs.drop word.length) else none

/-- The fallback at the front of a text, with the bar before it. -/
def fallbackAt (cs : List Char) : Option (List Char × List Char) := do
  let cs ← after ['|'] cs
  let cs ← after "default(\"".toList (trimStart cs)
  let rest ← after "\")".toList (cs.dropWhile (· != '"'))
  return (cs.takeWhile (· != '"'), rest)

def placeholderAt (cs : List Char) : Option Placeholder := do
  let cs ← after ['\x7b', '\x7b'] cs
  let cs := trimStart cs
  let key := cs.takeWhile isKeyChar
  if key.isEmpty then none
  let cs := trimStart (cs.dropWhile isKeyChar)
  let (fallback, cs) := match fallbackAt cs with
    | some (text, rest) => (some text, trimStart rest)
    | none => (none, cs)
  let rest ← after ['\x7d', '\x7d'] cs
  return ⟨key, fallback, rest⟩

/-- The variable that a key names. -/
def variableOf? (key : List Char) : Option (List Char) := do
  let name ← after "env.".toList key
  if name.isEmpty || name.contains '.' then none else some name

def resolve (env : Environment) (p : Placeholder) : Except ExpansionError (List Char) :=
  match variableOf? p.key with
  | none => .error (.scope (String.ofList p.key))
  | some name =>
    match env.get? (String.ofList name), p.fallback with
    | some value, _ => .ok value.toList
    | none, some text => .ok text
    | none, none => .error (.unset (String.ofList name))

/-- Expands a line after `skip` characters that belong to a placeholder before. -/
def expandFrom (env : Environment) : Nat → List Char → Except ExpansionError (List Char)
  | _, [] => .ok []
  | skip + 1, _ :: cs => expandFrom env skip cs
  | 0, c :: cs =>
    match placeholderAt (c :: cs) with
    | none => (expandFrom env 0 cs).map (c :: ·)
    | some p =>
      match resolve env p with
      | .error e => .error e
      | .ok value => (expandFrom env (cs.length - p.rest.length) cs).map (value ++ ·)

def isComment (line : List Char) : Bool := (trimStart line).head? == some '#'

def expandLine (env : Environment) (line : List Char) : Except ExpansionError (List Char) :=
  if isComment line then .ok line else expandFrom env 0 line

/-- The lines of a text without their ends: a line feed, or a carriage return before it as well. A
line feed at the very end starts no further line. -/
def lines : List Char → List (List Char)
  | [] => []
  | ['\n'] => [[]]
  | ['\r', '\n'] => [[]]
  | '\n' :: rest => [] :: lines rest
  | '\r' :: '\n' :: rest => [] :: lines rest
  | c :: rest =>
    match lines rest with
    | [] => [[c]]
    | line :: more => (c :: line) :: more

def unlines : List (List Char) → List Char
  | [] => []
  | [line] => line
  | line :: rest => line ++ '\n' :: unlines rest

def expandChars (env : Environment) (cs : List Char) : Except ExpansionError (List Char) := do
  let expanded ← (lines cs).mapM (expandLine env)
  return unlines expanded ++ if cs.getLast? = some '\n' then ['\n'] else []

def expand (env : Environment) (text : String) : Except ExpansionError String :=
  (expandChars env text.toList).map String.ofList

end Switchboard.Config
