import Switchboard.Config.DurationText
import Switchboard.Config.Expansion
import Switchboard.Config.Settings
import Switchboard.Resilience.Options
import Switchboard.Text.Utf8
import Switchboard.Toml.Document
import Switchboard.Tools.Registry

/-!
# Loading a configuration

A configuration is read, its placeholders are expanded, the text is read as TOML, and what it says
is checked: first the resilience settings in a fixed order, then the servers in the order of their
names. Options and registry are made by the same checks, so they exist whenever a configuration was
accepted.
-/

namespace Switchboard.Config

open Resilience Tools

inductive ConfigError where
  | unreadable (path : String) (cause : String)
  | expansion (cause : ExpansionError)
  | malformed
  | duration (field : String) (value : String)
  | shortMaxBackoff
  | noConcurrency
  | emptyCommand
  | server (name : String) (cause : ConfigError)
  deriving DecidableEq, Repr

def ConfigError.message : ConfigError → String
  | unreadable path cause => "failed to read config file " ++ path ++ ": " ++ cause
  | expansion cause => "config variable expansion failed: " ++ cause.message
  | malformed => "failed to parse config"
  | duration field value => "invalid duration for " ++ field ++ " '" ++ value ++ "'"
  | shortMaxBackoff => "llm.resilience.max_backoff must not be shorter than initial_backoff"
  | noConcurrency => "llm.resilience.max_concurrent_requests must be greater than 0"
  | emptyCommand => "command must not be empty"
  | server name cause => "MCP server '" ++ name ++ "': " ++ cause.message

/-- The duration that the setting `field` gives. -/
def durationOf (field value : String) : Except ConfigError Nat :=
  match Duration.parse? value with
  | some d => .ok d
  | none => .error (.duration field value)

def optionalDuration (field : String) : Option String → Except ConfigError (Option Nat)
  | none => .ok none
  | some value => (durationOf field value).map some

namespace ResilienceSettings

def concurrency : Option Nat → Except ConfigError Nat
  | none => .ok unlimited
  | some 0 => .error .noConcurrency
  | some n => .ok n

def options (s : ResilienceSettings) : Except ConfigError Options := do
  let initial ← durationOf "initial_backoff" s.initialBackoff
  let longest ← durationOf "max_backoff" s.maxBackoff
  if longest < initial then throw .shortMaxBackoff
  let concurrent ← concurrency s.maxConcurrent
  let timeout ← optionalDuration "request_timeout" s.requestTimeout
  let delay ← optionalDuration "min_delay_between_requests" s.minDelay
  return ⟨s.maxRetries, initial, longest, s.jitter, timeout, concurrent, delay⟩

end ResilienceSettings

def ServerSettings.server (s : ServerSettings) : Except ConfigError Server := do
  if Text.allBlank s.command then throw .emptyCommand
  let timeout ← durationOf "request_timeout" s.requestTimeout
  return ⟨s.command, s.args, s.cwd, s.env, timeout, s.clientName, s.clientVersion,
    s.protocolVersion⟩

namespace Settings

/-- The server called `name`; an error names it. -/
def namedServer (name : String) (s : ServerSettings) : Except ConfigError Server :=
  s.server.mapError (.server name)

def validate (s : Settings) : Except ConfigError Unit := do
  let _ ← s.resilience.options
  s.servers.forM fun (name, server) => do
    let _ ← namedServer name server

def registry (s : Settings) : Except ConfigError Registry := do
  let servers ← s.servers.mapM fun (name, server) => do
    return (name, ← namedServer name server)
  return Registry.ofList servers

/-- Reads and checks the text of a configuration. -/
def parse (env : Environment) (text : String) : Except ConfigError Settings := do
  let expanded ← (expand env text).mapError .expansion
  match Toml.parse? expanded.toList >>= Settings.reader 0 with
  | none => throw .malformed
  | some s => s.validate; return s

/-- Loads the configuration at `path`, of which reading gave `contents` or the system's reason why
not. -/
def load (env : Environment) (path : String) (contents : Except String (List UInt8)) :
    Except ConfigError Settings :=
  match contents with
  | .error cause => .error (.unreadable path cause)
  | .ok bytes =>
    match Text.Utf8.text? bytes with
    | some text => parse env text
    | none => .error (.unreadable path "stream did not contain valid UTF-8")

end Settings
end Switchboard.Config
