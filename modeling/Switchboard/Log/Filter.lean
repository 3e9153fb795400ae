import Switchboard.Text.Blank

/-!
# Log filters

A filter is a list of directives joined by commas: a level alone, a target with a level, or a target
alone, which admits everything. One directive is kept for each target, the last. They are shown
from the longest target to the shortest, and the bare level last. A text with a directive that
cannot be read is no filter.
-/

namespace Switchboard.Log

open Text

inductive Level where
  | off
  | error
  | warn
  | info
  | debug
  | trace
  deriving DecidableEq, Repr

/-- The form in which log lines are written. -/
inductive Format where
  | text
  | json
  deriving DecidableEq, Repr

def Format.name : Format → String
  | text => "text"
  | json => "json"

namespace Level

def all : List Level := [off, error, warn, info, debug, trace]

def name : Level → String
  | off => "off"
  | error => "error"
  | warn => "warn"
  | info => "info"
  | debug => "debug"
  | trace => "trace"

def isDigit (c : Char) : Bool := '0' ≤ c && c ≤ '9'

/-- The number in decimal digits, which one plus sign may precede. -/
def number? (cs : List Char) : Option Nat :=
  let digits := match cs with
    | '+' :: rest => rest
    | cs => cs
  if !digits.isEmpty && digits.all isDigit then
    some (digits.foldl (fun n c => 10 * n + (c.toNat - '0'.toNat)) 0)
  else none

/-- A level by its name in any letter case, or by its number. -/
def ofText? (cs : List Char) : Option Level :=
  match number? cs with
  | some n => all[n]?
  | none => all.find? fun l => l.name == String.ofList (cs.map Char.toLower)

end Level

structure Directive where
  target : Option String
  level : Level
  deriving DecidableEq, Repr

namespace Directive

/-- The characters that a directive may begin with. -/
def isStart (c : Char) : Bool :=
  c.isAlphanum || c == '-' || c == ':' || c == '_' || c == '=' || 0x80 ≤ c.toNat

def targetOf (cs : List Char) : Option String :=
  if cs.isEmpty then none else some (String.ofList cs)

/-- Reads a directive. The place of the equals sign is counted without the blanks in front. -/
def ofText? (cs : List Char) : Option Directive :=
  match trimChars cs with
  | [] => none
  | c :: trimmed =>
    if !isStart c then none
    else
      match (c :: trimmed).idxOf? '=' with
      | some i =>
        match cs.drop (i + 1) with
        | [] => some ⟨targetOf (cs.take i), .trace⟩
        | level => (Level.ofText? level).map (⟨targetOf (cs.take i), ·⟩)
      | none =>
        match Level.ofText? cs with
        | some level => some ⟨none, level⟩
        | none => some ⟨targetOf cs, .trace⟩

def size (d : Directive) : Nat :=
  match d.target with
  | some t => t.utf8ByteSize + 1
  | none => 0

/-- Whether `d` is shown before `e`. -/
def before (d e : Directive) : Bool :=
  e.size < d.size || (e.size == d.size && decide (e.target.getD "" < d.target.getD ""))

def text (d : Directive) : String :=
  match d.target with
  | some t => t ++ "=" ++ d.level.name
  | none => d.level.name

end Directive

/-- Directives in the order in which they are shown. -/
structure Filter where
  directives : List Directive
  deriving DecidableEq, Repr

namespace Filter

/-- Puts a directive at its place, over an earlier one for the same target. -/
def insert (d : Directive) : List Directive → List Directive
  | [] => [d]
  | e :: rest =>
    if d.target = e.target then d :: rest
    else if d.before e then d :: e :: rest
    else e :: insert d rest

def pieces (cs : List Char) : List (List Char) :=
  (cs.splitOn ',').filter fun piece => !piece.isEmpty

def parse? (text : String) : Option Filter := do
  let directives ← (pieces text.toList).mapM Directive.ofText?
  return ⟨directives.foldl (fun acc d => insert d acc) []⟩

def text (f : Filter) : String := String.intercalate "," (f.directives.map Directive.text)

/-- What is used in place of a text that is no filter. -/
def fallback : Filter := ⟨[⟨none, .info⟩]⟩

/-- The filter of the environment if it is not blank, else the configured one, else the usual
one. -/
def choose (environment configured : Option String) (usual : String) : Filter :=
  let chosen := match environment, configured with
    | some e, c => if allBlank e then c.getD usual else e
    | none, c => c.getD usual
  (parse? chosen).getD fallback

end Filter
end Switchboard.Log
