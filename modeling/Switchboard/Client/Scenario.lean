import Switchboard.Client.Script
import Switchboard.Client.Step

/-!
# Scenarios

A scenario runs a client against scripted providers and scripted callers on a clock of its own,
which only moves when nothing else can happen. All that a caller or a provider does next follows
from what has happened so far, so a scenario has no state besides its client: `next?` finds the next
input. At one instant cancellations come first, then polls, then what callers do with their
streams, then drops, then new calls.
-/

namespace Switchboard.Client

open Chat Script

structure Caller where
  /-- Nothing if the request cannot be read. -/
  request : Option Request
  /-- When the call is made. -/
  start : Nat := 0
  stream : Bool := false
  cancelAfter : Option Nat := none
  dropAfter : Option Nat := none
  /-- After how many items of its stream it stops. -/
  take : Option Nat := none
  /-- How long it waits after every item. -/
  pullDelay : Nat := 0
  /-- Whether it keeps the stream when it stops. -/
  keep : Bool := false

structure Scenario where
  setup : Setup
  providers : List Provider
  callers : List Caller

/-! ## What a caller has seen -/

/-- What has become of one call. -/
structure View where
  made : Bool := false
  /-- When the stream was opened. -/
  opened : Option Nat := none
  response : Option (Nat × Response) := none
  failure : Option (Nat × ChatError) := none
  /-- The items of the stream. -/
  items : List (Nat × Except ChatError Delta) := []
  closed : Option Nat := none
  dropped : Option Nat := none

namespace View

def add (v : View) (time : Nat) : Event → View
  | .handed (.response r) => { v with response := some (time, r) }
  | .handed .stream => { v with opened := some time }
  | .handed (.failure e) => { v with failure := some (time, e) }
  | .handed (.delta d) => { v with items := v.items ++ [(time, .ok d)] }
  | .handed (.fault e) => { v with items := v.items ++ [(time, .error e)] }
  | .handed .close => { v with closed := some time }
  | .dropped => { v with dropped := some time }
  | .told .. | .attempted .. => v

end View

def State.view (s : State) (i : Nat) : View :=
  s.history.foldr (fun e v => if e.call = i then v.add e.time e.event else v)
    { made := match s.calls[i]? with
        | some c => match c.phase with
          | .unmade => false
          | _ => true
        | none => false }

namespace Caller

/-- When the call is made. -/
def startTime (c : Caller) : Nat := wait 0 c.start

def cancelTime (c : Caller) : Option Nat := c.cancelAfter.map (wait c.startTime)

def dropTime (c : Caller) : Option Nat := c.dropAfter.map (wait c.startTime)

/-- When the caller turns to its stream again after the last item. -/
def turnTime (c : Caller) (v : View) : Option Nat :=
  match v.opened, v.items.getLast? with
  | none, _ => none
  | some t, none => some t
  | _, some (t, _) => some (wait t c.pullDelay)

/-- Whether the caller has all the items that it takes. -/
def hasTaken (c : Caller) (v : View) : Bool := c.take == some v.items.length

/-- When the caller stopped and kept its stream. -/
def keptTime (c : Caller) (v : View) : Option Nat :=
  if c.keep && c.hasTaken v then c.turnTime v else none

/-- Whether the caller is done at `now`. -/
def isDone (c : Caller) (v : View) (now : Nat) : Bool :=
  v.response.isSome || v.failure.isSome || v.closed.isSome || v.dropped.isSome ||
    reached now (c.keptTime v)

end Caller

namespace Scenario

/-! ## Providers -/

def provider? (sc : Scenario) (s : State) (i : Nat) : Option Provider :=
  s.calls[i]?.bind fun c => sc.providers.find? fun p => p.id == c.identity.provider

def providerId (s : State) (i : Nat) : String :=
  (s.calls[i]?.map fun c => c.identity.provider).getD ""

/-- The attempts that have reached a provider, the latest in front. -/
def reaching (s : State) (provider : String) : List Entry :=
  s.history.filter fun e =>
    match e.event with
    | .attempted .. => providerId s e.call == provider
    | _ => false

def attemptWork (sc : Scenario) (s : State) (i : Nat) (c : Caller) : Work Outcome :=
  match sc.provider? s i, s.calls[i]? with
  | some p, some call =>
    let step := p.step (reaching s p.id).length
    if c.stream then step.open s.now else step.chat s.now call.request
  | _, _ => ⟨none, .stream none⟩

/-- The stream that is pulled belongs to the last attempt of the call. -/
def pullWork (sc : Scenario) (s : State) (i : Nat) : Work Pulled :=
  match sc.provider? s i with
  | some p =>
    let before := ((reaching s p.id).dropWhile fun e => e.call != i).length - 1
    (p.step before).pull s.now (s.view i).items.length
  | none => ⟨some s.now, none⟩

/-! ## The next input -/

/-- The thousandths above the least jitter that are drawn: half of them. -/
def spread : Nat := 125

def freshId : String := "GENERATED"

def cancel? (s : State) (i : Nat) (c : Caller) : Option Input :=
  match s.calls[i]? with
  | some call =>
    if !call.cancelled && reached s.now c.cancelTime then some (.cancel i) else none
  | none => none

def poll? (sc : Scenario) (s : State) (i : Nat) (c : Caller) : Option Input :=
  let input := Input.poll i (sc.attemptWork s i c) spread
  (step? sc.setup s input).map fun _ => input

def turn? (sc : Scenario) (s : State) (i : Nat) (c : Caller) : Option Input :=
  let v := s.view i
  if c.isDone v s.now || !reached s.now (c.turnTime v) then none
  else
    let input := if c.hasTaken v then Input.drop i else .pull i (sc.pullWork s i)
    (step? sc.setup s input).map fun _ => input

def drop? (sc : Scenario) (s : State) (i : Nat) (c : Caller) : Option Input :=
  if !c.isDone (s.view i) s.now && reached s.now c.dropTime then
    (step? sc.setup s (.drop i)).map fun _ => .drop i
  else none

def call? (sc : Scenario) (s : State) (i : Nat) (c : Caller) : Option Input :=
  match c.request with
  | some r =>
    if c.startTime ≤ s.now then
      let input := Input.call i freshId freshId r
      (step? sc.setup s input).map fun _ => input
    else none
  | none => none

/-- When a call can move by itself. -/
def dueOf (s : State) (i : Nat) (c : Call) : List Nat :=
  match c.phase with
  | .telling _ _ due | .backingOff _ due => [due]
  | .attempting _ deadline work => deadline.toList ++ work.done.toList
  | .pulling work => work.done.toList
  | .pacing => if s.turns.head? = some i then s.nextTurn.toList else []
  | .unmade | .queued | .streaming _ | .drained | .over => []

/-- When something happens on account of call `i` and its caller. -/
def wakes (s : State) (i : Nat) (c : Caller) : List Nat :=
  match s.calls[i]? with
  | none => []
  | some call =>
    let v := s.view i
    let own := dueOf s i call
    let theirs :=
      if c.request.isNone || c.isDone v s.now then []
      else c.startTime :: (c.cancelTime.toList ++ c.dropTime.toList ++ (c.turnTime v).toList)
    own ++ theirs

/-- The next instant at which something happens, at a whole millisecond. -/
def tick? (sc : Scenario) (s : State) : Option Input :=
  let times := (sc.callers.zipIdx.flatMap fun (c, i) => wakes s i c).map Duration.ceilMillis
  ((times.filter (s.now < ·)).min?).map .tick

def next? (sc : Scenario) (s : State) : Option Input :=
  let first := fun (f : Nat → Caller → Option Input) =>
    sc.callers.zipIdx.findSome? fun (c, i) => f i c
  first (cancel? s) <|> first (sc.poll? s) <|> first (sc.turn? s) <|> first (sc.drop? s) <|>
    first (sc.call? s) <|> sc.tick? s

/-- Runs a scenario until nothing more happens, for at most `fuel` inputs. -/
def runFrom (sc : Scenario) : Nat → State → State
  | 0, s => s
  | fuel + 1, s =>
    match (sc.next? s).bind (step? sc.setup s) with
    | some s => sc.runFrom fuel s
    | none => s

/-- More inputs than any scenario needs. -/
def maxInputs : Nat := 1000000

def run (sc : Scenario) : State :=
  sc.runFrom maxInputs (State.start sc.setup sc.callers.length)

end Scenario
end Switchboard.Client
