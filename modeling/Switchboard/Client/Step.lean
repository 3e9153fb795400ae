import Switchboard.Client.Basic

/-!
# Steps of a client

`step?` says what every input does to a client, if it is possible. Callers make, cancel, pull and
drop calls, time passes, and a call that can move is polled; a poll that starts an attempt is given
the work that the provider makes of it. A call notices that it was cancelled only when it is polled,
and then before anything else. Where a call settles, its slot is free at once and the first hook is
told in the same step; a hook that takes no time is followed by the next one in the same step too.
-/

namespace Switchboard.Client

open Chat

namespace State

def record (s : State) (i : Nat) (e : Event) : State :=
  { s with history := ⟨s.now, i, e⟩ :: s.history }

def setPhase (s : State) (i : Nat) (c : Call) (p : Phase) : State :=
  { s with calls := s.calls.set i { c with phase := p } }

/-- The slot of a call, if it holds one, is free again. -/
def release (s : State) (c : Call) : State :=
  if c.phase.holdsSlot then { s with free := s.free + 1 } else s

/-- The call stands in no queue. -/
def leave (s : State) (i : Nat) : State :=
  { s with waiting := s.waiting.erase i, turns := s.turns.erase i }

/-- Gives the caller something. -/
def hand (s : State) (i : Nat) (c : Call) (give : Handover) (p : Phase) : State :=
  (s.record i (.handed (give.stamp c.identity))).setPhase i c p

end State

/-- The phase after something was handed over at the end of a call. -/
def Handover.phaseAfter : Handover → Phase
  | response _ | failure _ | close => .over
  | stream | delta _ | fault _ => .drained

/-! ## Hooks -/

/-- The hooks that are told at `now` from number `next` on; one that takes time makes the others
wait. -/
def tellFrom (now next : Nat) : List Nat → List Nat × Option (Nat × Nat)
  | [] => ([], none)
  | 0 :: rest =>
    let (told, wait) := tellFrom now (next + 1) rest
    (next :: told, wait)
  | d :: _ => ([next], some (next + 1, Duration.later now d))

/-- What hooks see of a notice. -/
def Setup.shown (S : Setup) : Notice → Notice
  | .failed e => .failed (S.redact e)
  | n => n

namespace State

/-- What happens when all hooks have been told. -/
def conclude (s : State) (i : Nat) (c : Call) : Telling → State
  | .start => { s with waiting := s.waiting ++ [i] }.setPhase i c .queued
  | .settle _ give => s.hand i c give give.phaseAfter
  | .abandon => s.setPhase i c .over

def inform (S : Setup) (s : State) (i : Nat) (c : Call) (why : Telling) (next : Nat) : State :=
  let (told, wait) := tellFrom s.now next (S.hooks.drop next)
  let s := told.foldl (fun s k => s.record i (.told k c.identity (S.shown why.notice))) s
  match wait with
  | some (next, due) => s.setPhase i c (.telling why next due)
  | none => s.conclude i c why

/-! ## Settling -/

/-- The call is decided: its slot is released, the hooks are told, and then the caller is handed
what it is owed. -/
def settle (S : Setup) (s : State) (i : Nat) (c : Call) (notice : Notice) (give : Handover) :
    State :=
  inform S ((s.release c).leave i) i c (.settle notice give) 0

def succeed (S : Setup) (s : State) (i : Nat) (c : Call) (give : Handover) : State :=
  s.settle S i c .ended give

def fail (S : Setup) (s : State) (i : Nat) (c : Call) (e : ChatError) : State :=
  s.settle S i c (.failed e) (.failure e)

/-- The caller lets go of a call that is not decided yet. -/
def abandon (s : State) (i : Nat) (c : Call) : State :=
  ((s.release c).leave i).setPhase i c (.telling .abandon 0 s.now)

/-! ## Attempts -/

def attempt (S : Setup) (s : State) (i : Nat) (c : Call) (n : Nat) (work : Work Outcome) : State :=
  (s.record i (.attempted n c.request)).setPhase i c
    (.attempting n (S.options.requestTimeout.map (Duration.later s.now)) work)

/-- After attempt `n` failed. -/
def retry (S : Setup) (s : State) (i : Nat) (c : Call) (n spread : Nat) (e : ChatError) : State :=
  if n < S.options.maxRetries ∧ S.retryable e then
    s.setPhase i c (.backingOff n (Duration.later s.now (S.options.pause n spread)))
  else s.fail S i c e

/-- A call with a slot goes on to wait for its turn, if calls must keep a distance. -/
def enter (S : Setup) (s : State) (i : Nat) (c : Call) (work : Work Outcome) : State :=
  match S.options.minDelay with
  | none => s.attempt S i c 0 work
  | some _ => { s with turns := s.turns ++ [i] }.setPhase i c .pacing

def finishAttempt (S : Setup) (s : State) (i : Nat) (c : Call) (n spread : Nat) :
    Outcome → State
  | .failure e => s.retry S i c n spread e
  | .response r => s.succeed S i c (.response r)
  | .stream none => s.succeed S i c .stream
  | .stream (some d) => s.hand i c .stream (.streaming (some d))

/-! ## Streams -/

/-- A terminal delta settles the call before it is handed over. -/
def deliver (S : Setup) (s : State) (i : Nat) (c : Call) (d : Delta) : State :=
  if d.isFinal then s.succeed S i c (.delta d) else s.hand i c (.delta d) (.streaming none)

def finishPull (S : Setup) (s : State) (i : Nat) (c : Call) : Pulled → State
  | some (.ok d) => s.deliver S i c d
  | some (.error e) => s.settle S i c (.failed e) (.fault e)
  | none => s.succeed S i c .close

end State

/-! ## Inputs -/

inductive Input where
  /-- Time passes. -/
  | tick (later : Nat)
  /-- Call `i` is made; the fresh ids are used where the request has none. -/
  | call (i : Nat) (freshRequest freshCorrelation : String) (request : Request)
  | cancel (i : Nat)
  | poll (i : Nat) (work : Work Outcome) (spread : Nat)
  | pull (i : Nat) (work : Work Pulled)
  | drop (i : Nat)
  deriving Repr

namespace State

def make (S : Setup) (s : State) (i : Nat) (c : Call) (freshRequest freshCorrelation : String)
    (request : Request) : Option State :=
  match c.phase with
  | .unmade =>
    match S.registry.route freshRequest freshCorrelation request with
    | .error e => some (s.hand i c (.failure e) .over)
    | .ok ((provider, _), routed) =>
      some (s.inform S i
        { c with identity := routed.identity provider, request := routed } .start 0)
  | _ => none

def poll (S : Setup) (s : State) (i : Nat) (c : Call) (work : Work Outcome) (spread : Nat) :
    Option State :=
  match c.phase with
  | .telling why next due => if due ≤ s.now then some (s.inform S i c why next) else none
  | .queued =>
    if c.cancelled then some (s.fail S i c .cancelled)
    else if s.waiting.head? = some i ∧ 0 < s.free then
      some ({ s with waiting := s.waiting.tail, free := s.free - 1 }.enter S i c work)
    else none
  | .pacing =>
    if c.cancelled then some (s.fail S i c .cancelled)
    else if s.turns.head? = some i ∧ s.nextTurn.all (· ≤ s.now) then
      some ({ s with
        turns := s.turns.tail
        nextTurn := S.options.minDelay.map (Duration.later s.now) }.attempt S i c 0 work)
    else none
  | .attempting n deadline current =>
    if c.cancelled then some (s.fail S i c .cancelled)
    else if reached s.now current.done then
      some (s.finishAttempt S i c n spread current.outcome)
    else if reached s.now deadline then
      some (s.retry S i c n spread (.timeout (S.options.requestTimeout.getD 0)))
    else none
  | .backingOff n due =>
    if c.cancelled then some (s.fail S i c .cancelled)
    else if due ≤ s.now then some (s.attempt S i c (n + 1) work)
    else none
  | .pulling current =>
    if c.cancelled then some (s.settle S i c (.failed .cancelled) (.fault .cancelled))
    else if reached s.now current.done then some (s.finishPull S i c current.outcome)
    else none
  | .unmade | .streaming _ | .drained | .over => none

/-- A buffered delta is handed over even if the call was cancelled. -/
def pull (S : Setup) (s : State) (i : Nat) (c : Call) (work : Work Pulled) : Option State :=
  match c.phase with
  | .streaming (some d) => some (s.deliver S i c d)
  | .streaming none => some (s.setPhase i c (.pulling work))
  | .drained => some (s.hand i c .close .over)
  | _ => none

/-- A call that is being started or settled is dropped without a word; hooks that were not told yet
are not told. -/
def drop (s : State) (i : Nat) (c : Call) : Option State :=
  match c.phase with
  | .telling .start _ _ | .telling (.settle _ _) _ _ | .drained =>
    some ((s.record i .dropped).setPhase i c .over)
  | .queued | .pacing | .attempting .. | .backingOff .. | .streaming _ | .pulling _ =>
    some ((s.record i .dropped).abandon i c)
  | .unmade | .telling .abandon _ _ | .over => none

end State

/-- What an input does, if it is possible. -/
def step? (S : Setup) (s : State) : Input → Option State
  | .tick later => if s.now ≤ later then some { s with now := later } else none
  | .call i freshRequest freshCorrelation request =>
    s.calls[i]?.bind fun c => s.make S i c freshRequest freshCorrelation request
  | .cancel i =>
    s.calls[i]?.map fun c => { s with calls := s.calls.set i { c with cancelled := true } }
  | .poll i work spread => s.calls[i]?.bind fun c => s.poll S i c work spread
  | .pull i work => s.calls[i]?.bind fun c => s.pull S i c work
  | .drop i => s.calls[i]?.bind fun c => s.drop i c

/-- A sequence of inputs, each of which must be possible. -/
def run? (S : Setup) (s : State) (inputs : List Input) : Option State := inputs.foldlM (step? S) s

end Switchboard.Client
