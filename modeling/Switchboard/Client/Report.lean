import Switchboard.Client.Scenario

/-!
# Reports on scenarios

What a finished scenario shows: how every call went, what hooks and providers saw of each request
in order, and whether the pauses between attempts lay where jitter allows.
-/

namespace Switchboard.Client

open Chat

/-- How a caller that was given a stream parted with it. -/
inductive Parting where
  | ended
  | dropped
  | kept
  deriving DecidableEq, Repr

inductive CallResult where
  | unreadable
  | response (r : Response)
  | failure (e : ChatError)
  | dropped
  | stream (parting : Parting) (opened : Nat)
  | pending
  deriving Repr

structure CallReport where
  result : CallResult
  time : Nat
  items : List (Nat × Except ChatError Delta)

def Caller.result (c : Caller) (v : View) : CallResult × Nat :=
  if c.request.isNone then (.unreadable, c.startTime)
  else
    match v.response, v.failure, v.opened with
    | some (t, r), _, _ => (.response r, t)
    | _, some (t, e), _ => (.failure e, t)
    | _, _, opened =>
      match opened, v.closed, v.dropped with
      | some o, some t, _ => (.stream .ended o, t)
      | some o, _, some t =>
        if c.hasTaken v && c.turnTime v == some t then (.stream .dropped o, t) else (.dropped, t)
      | none, _, some t => (.dropped, t)
      | some o, none, none =>
        match c.keptTime v with
        | some t => (.stream .kept o, t)
        | none => (.pending, o)
      | none, _, none => (.pending, c.startTime)

namespace Scenario

def callReports (sc : Scenario) (s : State) : List CallReport :=
  sc.callers.zipIdx.map fun (c, i) =>
    let v := s.view i
    let (result, time) := c.result v
    ⟨result, time, v.items⟩

inductive Line where
  | hook (index : Nat) (identity : Identity) (notice : Notice)
  | attempt (provider : String) (step : Nat)
  deriving Repr

/-- The line of an entry of the history, given the entries before it. -/
def line? (sc : Scenario) (s : State) (before : List Entry) (e : Entry) : Option Line :=
  match e.event with
  | .told hook identity notice => some (.hook hook identity notice)
  | .attempted .. =>
    (sc.provider? s e.call).map fun p =>
      .attempt p.id (p.stepIndex (reaching { s with history := before } p.id).length)
  | .handed _ | .dropped => none

/-- All lines of a history, the latest in front, with their requests and times. -/
def linesOf (sc : Scenario) (s : State) : List Entry → List (String × Nat × Line)
  | [] => []
  | e :: before =>
    match sc.line? s before e with
    | some line =>
      (((s.calls[e.call]?.map fun c => c.identity.requestId).getD ""), e.time, line)
        :: linesOf sc s before
    | none => linesOf sc s before

/-- What belongs to each key, in order. -/
def group {α : Type} (pairs : List (String × α)) : List (String × List α) :=
  (pairs.map (·.1)).eraseDups.map fun key =>
    (key, pairs.filterMap fun p => if p.1 = key then some p.2 else none)

def log (sc : Scenario) (s : State) : List (String × List (Nat × Line)) :=
  group (sc.linesOf s s.history).reverse

/-- The last request that reached a provider, by request id. -/
def seen (s : State) : List (String × Request) :=
  let requests := s.history.filterMap fun e =>
    match e.event with
    | .attempted _ r => some (r.requestId.getD "", r)
    | _ => none
  (group requests).filterMap fun (id, rs) => rs.head?.map (id, ·)

/-- Whether the time between attempts `n` and `n + 1` is a pause that jitter allows, or up to a
millisecond more. -/
def inRange (o : Resilience.Options) (n gap : Nat) : Bool :=
  let base := o.baseBackoff n
  base * 875 ≤ gap * 1000 && (gap - 1000000) * 1000 ≤ base * 1125

def pausesInRange (sc : Scenario) (s : State) : List (String × List Bool) :=
  (sc.log s).filterMap fun (id, lines) =>
    let times := lines.filterMap fun (t, line) =>
      match line with
      | .attempt .. => some t
      | .hook .. => none
    if times.isEmpty then none
    else
      some (id, (times.zip times.tail).zipIdx.map fun ((t, u), n) =>
        inRange sc.setup.options n (u - t))

end Scenario
end Switchboard.Client
