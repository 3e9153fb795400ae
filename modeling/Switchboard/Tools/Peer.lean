import Switchboard.Tools.Frame
import Switchboard.Tools.Session

/-!
# Scripted servers

A tool server that follows a script: to the n-th frame with an id it reacts with the n-th list of
actions, at once. A deaf server never reads, so its pipe fills up.
-/

namespace Switchboard.Tools

inductive Action where
  /-- Writes a text with a correct header. -/
  | frame (text : String)
  | raw (text : String)
  | closeOutput
  | closeInput
  | exit
  deriving DecidableEq, Repr

structure Peer where
  script : List (List Action)
  deaf : Bool := false
  /-- How many bytes went into its input. -/
  taken : Nat := 0
  /-- What it has not reacted to yet. -/
  input : List UInt8 := []
  /-- How many frames with an id it has reacted to. -/
  reactions : Nat := 0
  /-- What it wrote and nobody has read. -/
  output : List UInt8 := []
  inputOpen : Bool := true
  outputOpen : Bool := true

namespace Peer

/-- How many bytes a pipe holds. -/
def pipeSize : Nat := 65536

/-- How its input takes a message of `n` bytes. -/
def pipe (p : Peer) (n : Nat) : Pipe :=
  if !p.inputOpen then .broken
  else if p.deaf then .takes (pipeSize - p.taken)
  else .takes n

def take (bytes : List UInt8) (p : Peer) : Peer :=
  { p with taken := p.taken + bytes.length, input := p.input ++ bytes }

def kill (p : Peer) : Peer := { p with inputOpen := false, outputOpen := false }

def write (bytes : List UInt8) (p : Peer) : Peer :=
  if p.outputOpen then { p with output := p.output ++ bytes } else p

def perform : List Action → Peer → Peer
  | [], p => p
  | .frame text :: rest, p => perform rest (p.write (Frame.write (Text.Utf8.bytesOf text)))
  | .raw text :: rest, p => perform rest (p.write (Text.Utf8.bytesOf text))
  | .closeOutput :: rest, p => perform rest { p with outputOpen := false }
  | .closeInput :: rest, p => perform rest { p with inputOpen := false }
  | .exit :: _, p => p.kill

/-- Whether a message has an id. -/
def hasId (body : List UInt8) : Bool :=
  (((Text.Utf8.text? body).bind Json.parse?).bind (Json.get? "id")).isSome

/-- Reacts to the next frame, if there is one. -/
def react (p : Peer) : Option Peer :=
  if p.deaf || !p.inputOpen then none
  else
    match Frame.scan p.input with
    | .frame body rest =>
      let p := { p with input := rest }
      if hasId body then
        some (perform (p.script.getD p.reactions []) { p with reactions := p.reactions + 1 })
      else some p
    | .broken _ | .more => none

end Peer
end Switchboard.Tools
