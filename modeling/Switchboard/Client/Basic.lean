import Switchboard.Chat.Routing
import Switchboard.Redaction
import Switchboard.Resilience.Options

/-!
# Calls in flight

A client runs any number of calls. Each is admitted to one of a fixed number of slots, waits for its
turn where calls must keep a distance, and then makes attempts until one succeeds or none is left. A
call whose provider opened a stream keeps its slot while the stream is read. Hooks are told, one
after the other, when a call starts and when it ends or fails. This module holds what a client
knows about its calls; instants are nanoseconds since the start of its clock.
-/

namespace Switchboard.Client

open Chat

/-- Something under way: when it will be done, if ever, and what comes of it. -/
structure Work (α : Type) where
  done : Option Nat
  outcome : α
  deriving Repr

/-- Whether what is due at an instant, if ever, is due by now. -/
def reached (now : Nat) (due : Option Nat) : Bool := due.any (· ≤ now)

/-- What comes of an attempt: the first delta of a stream, if it has one, belongs to it. -/
inductive Outcome where
  | failure (e : ChatError)
  | response (r : Response)
  | stream (first : Option Delta)
  deriving Repr

/-- The next thing in a provider's stream; `none` is its end. -/
abbrev Pulled := Option (Except ChatError Delta)

/-- What a hook is told. -/
inductive Notice where
  | started
  | ended
  | failed (e : ChatError)
  deriving DecidableEq, Repr

/-- What a caller is handed. -/
inductive Handover where
  | response (r : Response)
  /-- A stream to pull from. -/
  | stream
  | failure (e : ChatError)
  | delta (d : Delta)
  /-- An error in a stream. -/
  | fault (e : ChatError)
  | close
  deriving DecidableEq, Repr

/-- The identity of the call is put on responses and deltas over what the provider wrote there. -/
def Handover.stamp (i : Identity) : Handover → Handover
  | response r => response (r.stamp i)
  | delta d => delta (d.stamp i)
  | h => h

/-- Why hooks are being told. -/
inductive Telling where
  | start
  | settle (notice : Notice) (give : Handover)
  /-- The caller dropped the call. -/
  | abandon
  deriving DecidableEq, Repr

def Telling.notice : Telling → Notice
  | start => .started
  | settle n _ => n
  | abandon => .failed .cancelled

inductive Phase where
  | unmade
  /-- The hook before `next` is busy until `due`. -/
  | telling (why : Telling) (next : Nat) (due : Nat)
  /-- Waits for a slot. -/
  | queued
  /-- Holds a slot and waits for its turn. -/
  | pacing
  | attempting (attempt : Nat) (deadline : Option Nat) (work : Work Outcome)
  | backingOff (attempt : Nat) (due : Nat)
  /-- The caller has the stream and is not pulling. -/
  | streaming (buffered : Option Delta)
  | pulling (work : Work Pulled)
  /-- The caller has a stream that holds nothing more. -/
  | drained
  | over
  deriving Repr

def Phase.holdsSlot : Phase → Bool
  | pacing | attempting .. | backingOff .. | streaming _ | pulling _ => true
  | _ => false

structure Call where
  identity : Identity
  /-- What every attempt sends. -/
  request : Request
  cancelled : Bool
  phase : Phase
  deriving Repr

def Call.blank : Call := ⟨.blank, ⟨"", [], none, none, none⟩, false, .unmade⟩

inductive Event where
  | told (hook : Nat) (identity : Identity) (notice : Notice)
  | attempted (attempt : Nat) (request : Request)
  | handed (h : Handover)
  | dropped
  deriving DecidableEq, Repr

structure Entry where
  time : Nat
  call : Nat
  event : Event
  deriving DecidableEq, Repr

/-- What a client is set up with. A hook is the time that it takes. -/
structure Setup where
  registry : Registry Unit
  options : Resilience.Options
  retryable : ChatError → Bool := ChatError.isTransient
  hooks : List Nat := []
  redact : ChatError → ChatError := fun e => (Redaction.redactError e).2

/-- The registry of a client, which has at least one provider. -/
def registryOf (ids : List String) : Except ChatError (Registry Unit) :=
  if ids.isEmpty then
    .error (.configuration "at least one provider must be configured before build()")
  else Registry.ofList (ids.map (·, ()))

structure State where
  now : Nat
  calls : List Call
  /-- Free slots. -/
  free : Nat
  /-- The calls that wait for a slot, the first to be served in front. -/
  waiting : List Nat
  /-- The calls that wait for their turn. -/
  turns : List Nat
  /-- The instant before which no further call has its turn. -/
  nextTurn : Option Nat
  /-- What happened, the latest in front. -/
  history : List Entry
  deriving Repr

/-- A client on which `n` calls can be made. -/
def State.start (S : Setup) (n : Nat) : State :=
  ⟨0, List.replicate n .blank, S.options.slots, [], [], none, []⟩

end Switchboard.Client
