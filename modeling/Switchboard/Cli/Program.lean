import Switchboard.Cli.Arguments
import Switchboard.Config.Load
import Switchboard.Tools.Session

/-!
# The command line program

The program reads its configuration, finds the server that the command names, asks it what the
command says and shows the answer as a JSON document. The first thing that goes wrong ends it: the
configuration, then the arguments of the tool, then the name of the server, then the server itself.
-/

namespace Switchboard.Cli

open Config Tools

/-- How the program ends. -/
inductive Outcome where
  | help
  | usage
  | failed (message : String)
  | shown (document : Json)

namespace Outcome

def ofStop : Stop → Outcome
  | .help => help
  | .usage => usage

/-- The exit status. -/
def status : Outcome → Nat
  | help | shown _ => 0
  | failed _ => 1
  | usage => 2

end Outcome

/-- What a command asks of which server. -/
structure Errand where
  server : Server
  ask : Ask

namespace Errand

def badArguments : String := "--arguments is not valid JSON"

def askOf : Command → Except String Ask
  | .list _ => .ok .list
  | .call _ tool arguments =>
    match Json.parse? arguments with
    | some v => .ok (.call tool v)
    | none => .error badArguments

def ofCommand (settings : Settings) (c : Command) : Except String Errand := do
  let registry ← settings.registry.mapError ConfigError.message
  let ask ← askOf c
  let server ← (registry.get c.server).mapError ToolError.message
  return ⟨server, ask⟩

end Errand

/-- The document that shows an answer. -/
def documentOf : Reply → Json
  | .tools tools =>
    .arr (tools.map fun t => .obj [("description", .str t.description),
      ("inputSchema", t.inputSchema), ("name", .str t.name)])
  | .result r => .obj [("isError", .bool r.isError), ("result", r.result), ("tool", .str r.tool)]
  | .stopped => .null

/-- What the program finds around it. -/
structure Surroundings (m : Type → Type) where
  env : Environment
  /-- The bytes of a file, or the system's reason why there are none. -/
  contents : String → m (Except String (List UInt8))
  /-- Starts a server, asks it once and stops it. -/
  consult : Server → Ask → m (Except ToolError Reply)

/-- Runs an errand. -/
def Errand.run {m : Type → Type} [Monad m] (e : Errand) (around : Surroundings m) : m Outcome := do
  match ← around.consult e.server e.ask with
  | .ok reply => return .shown (documentOf reply)
  | .error cause => return .failed cause.message

/-- Runs the program with the words of a command line. -/
def run {m : Type → Type} [Monad m] (around : Surroundings m) (words : List String) :
    m Outcome := do
  match Invocation.ofWords around.env words with
  | .error stop => return .ofStop stop
  | .ok i =>
    let contents ← around.contents i.config
    match (Settings.load around.env i.config contents).mapError ConfigError.message >>=
        (Errand.ofCommand · i.command) with
    | .error message => return .failed message
    | .ok errand => errand.run around

end Switchboard.Cli
