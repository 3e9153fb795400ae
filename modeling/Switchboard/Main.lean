import Switchboard.Cli.Program
import Switchboard.Tools.Frame

/-!
# The entry of the program

A server is not started from here: whoever starts the program connects the server, its output as
descriptor 3 and its input as descriptor 4. Where these are not open, the server counts as not
started.
-/

namespace Switchboard.Cli

open Config Tools

/-- The environment as the system keeps it: `NAME=value` entries, each ended by a zero byte. -/
def environmentOf (bytes : List UInt8) : Environment :=
  (bytes.splitOn 0).filterMap fun entry =>
    match entry.span (· != '='.toUInt8) with
    | (name, _ :: value) => (Text.Utf8.text? name).map (·, Text.Utf8.text? value)
    | (_, []) => none

/-- The system's words and number for what went wrong. -/
def causeOf : IO.Error → String
  | .alreadyExists _ code text | .otherError code text | .resourceBusy code text
  | .resourceVanished code text | .unsupportedOperation code text | .hardwareFault code text
  | .unsatisfiedConstraints code text | .illegalOperation code text | .protocolError code text
  | .timeExpired code text | .interrupted _ code text | .noFileOrDirectory _ code text
  | .invalidArgument _ code text | .permissionDenied _ code text | .resourceExhausted _ code text
  | .inappropriateType _ code text | .noSuchThing _ code text =>
    text ++ " (os error " ++ toString code ++ ")"
  | .unexpectedEof => "unexpected end of file"
  | .userError text => text

def readBytes (path : String) : IO (Except String (List UInt8)) := do
  match ← (IO.FS.readBinFile path).toBaseIO with
  | .ok bytes => return .ok bytes.toList
  | .error e => return .error (causeOf e)

structure Connection where
  server : Server
  output : IO.FS.Handle
  input : IO.FS.Handle

namespace Connection

def ofDescriptors (server : Server) : IO Connection :=
  return ⟨server, ← IO.FS.Handle.mk "/dev/fd/3" .read, ← IO.FS.Handle.mk "/dev/fd/4" .write⟩

/-- Writes what a call has to send. -/
def send (c : Connection) : Option SessionCall → IO Pipe
  | some ⟨_, .sending _ rest _⟩ => do
    match ← (do c.input.write rest.toByteArray; c.input.flush).toBaseIO with
    | .ok _ => return .takes rest.length
    | .error _ => return .broken
  | _ => return .takes 0

/-- What is being read from the server, and what was read and makes no frame yet. -/
structure Reading where
  task : Option (Task (Except IO.Error ByteArray)) := none
  unread : List UInt8 := []

/-- What the session learns from the server, if there is something. -/
def listen (c : Connection) (r : Reading) : IO (Reading × Option SessionInput) := do
  if Frame.crashes r.unread then return (r, some (.fail .connectionClosed))
  match Frame.scan r.unread with
  | .frame body rest => return ({ r with unread := rest }, some (.deliver body))
  | .broken e => return (r, some (.fail e))
  | .more =>
    match r.task with
    | none => return ({ r with task := some (← IO.asTask (c.output.read 65536) .dedicated) }, none)
    | some task =>
      if ← IO.hasFinished task then
        match task.get with
        | .ok bytes =>
          if bytes.isEmpty then return (r, some (.fail .connectionClosed))
          else return (⟨none, r.unread ++ bytes.toList⟩, none)
        | .error e => return (r, some (.fail (.io (causeOf e))))
      else
        IO.sleep 1
        return (r, none)

/-- Moves the only call of a session until it has its answer. -/
partial def converse (c : Connection) (began : Nat) (r : Reading) (s : Session) :
    IO (Except ToolError Reply) := do
  let now ← IO.monoNanosNow
  let s : Session := (s.step? c.server (.tick (now - began))).getD s
  match s.calls.head? with
  | some ⟨_, .finished answer⟩ => return answer
  | call =>
    match s.step? c.server (.poll 0 (← c.send call)) with
    | some s => c.converse began r s
    | none =>
      let (r, input) ← c.listen r
      c.converse began r ((input.bind (s.step? c.server)).getD s)

end Connection

def consult (server : Server) (ask : Ask) : IO (Except ToolError Reply) := do
  match ← (Connection.ofDescriptors server).toBaseIO with
  | .error e => return .error (.spawn server.command (causeOf e))
  | .ok c =>
    let s := Session.start 1
    c.converse (← IO.monoNanosNow) {} ((s.step? server (.make 0 ask)).getD s)

def usageText : String :=
  "Usage: multillm [--config FILE] tools list --server NAME\n" ++
  "       multillm [--config FILE] tools call --server NAME --tool NAME [--arguments JSON]\n"

def report : Outcome → IO Unit
  | .help => IO.print usageText
  | .usage => IO.eprint usageText
  | .failed message => IO.eprintln ("Error: " ++ message)
  | .shown document => IO.println document.pretty

end Switchboard.Cli

open Switchboard Cli in
def main (words : List String) : IO UInt32 := do
  let env ← readBytes "/proc/self/environ"
  let outcome ← run ⟨environmentOf (env.toOption.getD []), readBytes, consult⟩ words
  report outcome
  return UInt32.ofNat outcome.status
