import Switchboard.Config.Expansion

/-!
# Command lines

A command line leads through commands, `tools` and then `list` or `call`, and gives each of them
options with values. A value is the next word, or is attached by an equals sign or, to a short
option, directly; a word with a dash in front, other than a lone dash, is never the next value. No
option is given twice, and there are no other words. `--help` and `help` ask for an explanation
wherever they stand, but only what was read before them has to be right; an option whose value is a
word of its own counts as read when the next option begins or the command is complete.
-/

namespace Switchboard.Cli

open Config (Environment)

/-- Why a command line leads to no run. -/
inductive Stop where
  | help
  | usage
  deriving DecidableEq, Repr

inductive Word where
  | plain (text : String)
  | long (name : String) (value : Option String)
  /-- One dash, a letter and what follows it. -/
  | short (letter : Char) (rest : List Char)
  /-- Two dashes: no options follow. -/
  | separator
  deriving DecidableEq, Repr

namespace Word

/-- What follows the equals sign, if there is one. -/
def attachedValue : List Char → Option String
  | [] => none
  | _ :: value => some (String.ofList value)

def ofChars : List Char → Word
  | ['-', '-'] => .separator
  | '-' :: '-' :: cs =>
    .long (String.ofList (cs.takeWhile (· != '='))) (attachedValue (cs.dropWhile (· != '=')))
  | '-' :: c :: cs => .short c cs
  | cs => .plain (String.ofList cs)

/-- The value that a short option has directly after its letter. -/
def shortValue : List Char → Option String
  | [] => none
  | '=' :: value => some (String.ofList value)
  | value => some (String.ofList value)

end Word

/-- A place in the tree of commands. -/
inductive Place where
  | program
  | tools
  | list
  | call
  | help
  deriving DecidableEq, Repr

namespace Place

/-- The commands at a place. -/
def commands : Place → List (String × Place)
  | program => [("tools", tools), ("help", help)]
  | tools => [("list", list), ("call", call), ("help", help)]
  | list | call | help => []

/-- The options at a place, all with a value. -/
def options : Place → List String
  | program => ["config"]
  | list => ["server"]
  | call => ["server", "tool", "arguments"]
  | tools | help => []

/-- The long name of a short option. -/
def shortOption? : Place → Char → Option String
  | program, 'c' => some "config"
  | _, _ => none

/-- Only the path of a configuration has to be given a text that is not empty. -/
def takes (option value : String) : Bool := option != "config" || !value.isEmpty

/-- The way along the commands that `help` is to explain. -/
def explain (p : Place) : List String → Stop
  | [] => .help
  | name :: rest =>
    match p.commands.lookup name with
    | some q => q.explain rest
    | none => .usage

end Place

/-- The options read at a place. -/
structure Given where
  values : List (String × String) := []
  /-- The last option, if its value is a word of its own: it may be still to come. -/
  last : Option (String × Option String) := none
  deriving DecidableEq, Repr

namespace Given

def get? (g : Given) (option : String) : Option String := g.values.lookup option

def put (g : Given) (option value : String) : Except Stop Given :=
  if (g.get? option).isSome || !Place.takes option value then .error .usage
  else .ok ⟨g.values ++ [(option, value)], none⟩

/-- Takes up the last option. -/
def settle (g : Given) : Except Stop Given :=
  match g.last with
  | none => .ok g
  | some (_, none) => .error .usage
  | some (option, some value) => g.put option value

/-- Begins an option, which may have its value attached. -/
def begin (g : Given) (option : String) (value : Option String) : Except Stop Given := do
  let g ← g.settle
  match value with
  | some value => g.put option value
  | none => return ⟨g.values, some (option, none)⟩

/-- Asks for an explanation. -/
def askHelp (g : Given) : Stop :=
  match g.settle with
  | .ok _ => .help
  | .error e => e

/-- Reads a word with a dash in front. -/
def option (p : Place) (g : Given) : Word → Except Stop Given
  | .long "help" none => .error g.askHelp
  | .long name value => if p.options.contains name then g.begin name value else .error .usage
  | .short 'h' _ => .error g.askHelp
  | .short letter rest =>
    match p.shortOption? letter with
    | some name => g.begin name (Word.shortValue rest)
    | none => .error .usage
  | .plain _ | .separator => .error .usage

end Given

/-- What was read at a place, and the command there with the words after it. -/
structure Reading where
  given : Given
  command : Option (Place × List String)

/-- Reads the words at a place up to a command. -/
def Place.read (p : Place) (g : Given) : List String → Except Stop Reading
  | [] => .ok ⟨g, none⟩
  | word :: rest =>
    match g.last, Word.ofChars word.toList with
    | some (option, none), .plain value => p.read ⟨g.values, some (option, some value)⟩ rest
    | some (_, none), _ => .error .usage
    | _, .plain name =>
      match p.commands.lookup name with
      | some q => .ok ⟨g, some (q, rest)⟩
      | none => .error .usage
    | _, .separator => if rest.isEmpty then .ok ⟨g, none⟩ else .error .usage
    | _, word =>
      match g.option p word with
      | .ok g => p.read g rest
      | .error e => .error e

/-! ## What is to be run -/

inductive Command where
  | list (server : String)
  | call (server tool arguments : String)
  deriving DecidableEq, Repr

def Command.server : Command → String
  | list server | call server _ _ => server

namespace Command

/-- The value that an option must have. -/
def require (g : Given) (option : String) : Except Stop String :=
  match g.get? option with
  | some value => .ok value
  | none => .error .usage

/-- Reads a command that has no commands below it. -/
def ofLeaf (p : Place) (words : List String) : Except Stop Command := do
  let g ← (← p.read {} words).given.settle
  match p with
  | .list => return .list (← require g "server")
  | .call =>
    return .call (← require g "server") (← require g "tool") ((g.get? "arguments").getD "\x7b\x7d")
  | .program | .tools | .help => throw .usage

/-- Reads the words after `tools`. -/
def ofWords (words : List String) : Except Stop Command := do
  match (← Place.tools.read {} words).command with
  | some (.help, path) => throw (Place.tools.explain path)
  | some (p, rest) => ofLeaf p rest
  | none => throw .usage

end Command

structure Invocation where
  /-- The path of the configuration. -/
  config : String
  command : Command
  deriving DecidableEq, Repr

namespace Invocation

/-- The variable that names the configuration if no option does. -/
def configVariable : String := "MULTILLM_CONFIG"

def usualConfig : String := "multillm.toml"

def configOf (env : Environment) (g : Given) : Except Stop String :=
  match g.get? "config", env.get? configVariable with
  | some path, _ => .ok path
  | none, some path => if Place.takes "config" path then .ok path else .error .usage
  | none, none => .ok usualConfig

def ofWords (env : Environment) (words : List String) : Except Stop Invocation := do
  let reading ← Place.program.read {} words
  match reading.command with
  | some (.tools, rest) =>
    let command ← Command.ofWords rest
    return ⟨← configOf env (← reading.given.settle), command⟩
  | some (.help, path) => throw (Place.program.explain path)
  | _ => throw .usage

end Invocation
end Switchboard.Cli
