import Switchboard.Json.Reader
import Switchboard.Log.Filter

/-!
# Settings

What a configuration says, with spans of time still as text. The records know no members but
their own.
-/

namespace Switchboard.Config

open Json (Reader)

structure ResilienceSettings where
  maxRetries : Nat := 2
  initialBackoff : String := "200ms"
  maxBackoff : String := "2s"
  jitter : Bool := true
  requestTimeout : Option String := none
  maxConcurrent : Option Nat := none
  minDelay : Option String := none
  deriving DecidableEq, Repr

structure ServerSettings where
  command : String
  args : List String := []
  cwd : Option String := none
  env : List (String × String) := []
  requestTimeout : String := "15s"
  clientName : String := "multillm-mcp-client"
  clientVersion : String := "0.1.0"
  protocolVersion : String := "2024-11-05"
  deriving DecidableEq, Repr

structure LogSettings where
  filter : Option String := none
  format : Log.Format := .text
  deriving DecidableEq, Repr

structure Settings where
  resilience : ResilienceSettings := {}
  servers : List (String × ServerSettings) := []
  log : LogSettings := {}
  deriving DecidableEq, Repr

/-- The fields of a record that has no others. -/
def exactFields (names : List String) : Reader (List (Option Tree)) := fun depth t =>
  match t with
  | .obj members =>
    if members.all fun m => m.1.any names.contains then Reader.fields names depth t else none
  | t => Reader.fields names depth t

/-- A table with values of one kind under any names. -/
def tableOf {α : Type} (read : Reader α) : Reader (List (String × α))
  | depth, .obj members => members.mapM fun (key, t) => return (← key, ← read (depth + 1) t)
  | _, _ => none

def ResilienceSettings.reader : Reader ResilienceSettings := fun depth t => do
  let [retries, initial, longest, jitter, timeout, concurrent, delay] ←
    exactFields ["max_retries", "initial_backoff", "max_backoff", "jitter", "request_timeout",
      "max_concurrent_requests", "min_delay_between_requests"] depth t | none
  let inner := depth + 1
  return ⟨← Reader.orElse (Reader.below (Nat.pow 2 32)) 2 inner retries,
    ← Reader.orElse Reader.text "200ms" inner initial,
    ← Reader.orElse Reader.text "2s" inner longest,
    ← Reader.orElse Reader.flag true inner jitter,
    ← Reader.maybe Reader.text inner timeout,
    ← Reader.maybe (Reader.below (Nat.pow 2 64)) inner concurrent,
    ← Reader.maybe Reader.text inner delay⟩

def ServerSettings.reader : Reader ServerSettings := fun depth t => do
  let [command, args, cwd, env, timeout, name, version, protocol] ←
    exactFields ["command", "args", "cwd", "env", "request_timeout", "client_name",
      "client_version", "protocol_version"] depth t | none
  let inner := depth + 1
  return ⟨← Reader.required Reader.text inner command,
    ← Reader.orElse (Reader.list Reader.text) [] inner args,
    ← Reader.maybe Reader.text inner cwd,
    ← Reader.orElse (tableOf Reader.text) [] inner env,
    ← Reader.orElse Reader.text "15s" inner timeout,
    ← Reader.orElse Reader.text "multillm-mcp-client" inner name,
    ← Reader.orElse Reader.text "0.1.0" inner version,
    ← Reader.orElse Reader.text "2024-11-05" inner protocol⟩

/-- A format by its name, which may also be the only key of a table and lead to nothing. -/
def formatReader : Reader Log.Format
  | _, .str (some name) => ofName name
  | _, .obj [(some name, .obj [])] => ofName name
  | _, .obj [(some name, .arr [])] => ofName name
  | _, _ => none
where
  /-- The format called `name`. -/
  ofName (name : String) : Option Log.Format :=
    [Log.Format.text, .json].find? fun f => f.name == name

def LogSettings.reader : Reader LogSettings := fun depth t => do
  let [filter, format] ← exactFields ["log_filter", "format"] depth t | none
  return ⟨← Reader.maybe Reader.text (depth + 1) filter,
    ← Reader.orElse formatReader .text (depth + 1) format⟩

def Settings.reader : Reader Settings := fun depth t => do
  let [llm, mcp, telemetry] ← exactFields ["llm", "mcp", "telemetry"] depth t | none
  let resilience : Reader ResilienceSettings := fun depth t => do
    let [resilience] ← exactFields ["resilience"] depth t | none
    Reader.orElse ResilienceSettings.reader {} (depth + 1) resilience
  let servers : Reader (List (String × ServerSettings)) := fun depth t => do
    let [servers] ← exactFields ["servers"] depth t | none
    Reader.orElse (tableOf ServerSettings.reader) [] (depth + 1) servers
  return ⟨← Reader.orElse resilience {} (depth + 1) llm,
    ← Reader.orElse servers [] (depth + 1) mcp,
    ← Reader.orElse LogSettings.reader {} (depth + 1) telemetry⟩

end Switchboard.Config
