import Switchboard.Tools.Peer

/-!
# Rehearsals with a tool server

A rehearsal makes calls on a session with a scripted server, group after group, the calls of a group
together. The clock only moves when nothing else can happen. At one instant calls move first, then
the next calls of the group are made, then calls are given up, and then the server and the reading
of what it wrote have their turn. A session that crashes takes the whole rehearsal with it.
-/

namespace Switchboard.Tools

structure Visit where
  ask : Ask
  /-- After what time the call is given up. -/
  dropAfter : Option Nat := none

structure Rehearsal where
  server : Server
  groups : List (List Visit)

structure Rehearsal.World where
  session : Session
  peer : Peer
  /-- When the first call of the group at work was made. -/
  started : Nat
  crashed : Bool := false

def Stage.isOver : Stage → Bool
  | finished _ | dropped => true
  | _ => false

def Stage.isMade : Stage → Bool
  | unmade => false
  | _ => true

namespace Rehearsal

/-- All calls with the numbers of their groups. -/
def visits (r : Rehearsal) : List (Nat × Visit) :=
  r.groups.zipIdx.flatMap fun (group, g) => group.map (g, ·)

def stageOf (w : World) (i : Nat) : Stage := (w.session.calls[i]?.map (·.stage)).getD .unmade

/-- Takes a step of the session and passes on what it wrote. -/
def step? (r : Rehearsal) (w : World) (input : SessionInput) : Option World :=
  if w.session.crashes r.server input then some { w with crashed := true }
  else
    (w.session.advance? r.server input).map fun s =>
      { w with session := s, peer := w.peer.take (s.wire.drop w.session.wire.length) }

def poll? (r : Rehearsal) (w : World) (i : Nat) : Option World :=
  let size := match stageOf w i with
    | .sending _ rest _ => rest.length
    | _ => 0
  r.step? w (.poll i (w.peer.pipe size))

/-- Makes a call whose group is at work or can begin. A shutdown kills the server at once. -/
def make? (r : Rehearsal) (w : World) (i : Nat) (group : Nat) (v : Visit) : Option World :=
  let before := (r.visits.zipIdx.filter fun ((g, _), _) => g < group).map (·.2)
  if (stageOf w i).isMade || !before.all fun j => (stageOf w j).isOver then none
  else
    let first := (r.visits.zipIdx.all fun ((g, _), j) => g != group || !(stageOf w j).isMade)
    let killed := match v.ask with
      | .shutdown => if w.session.stopping then w.peer else w.peer.kill
      | _ => w.peer
    r.step? { w with
      peer := killed
      started := if first then w.session.now else w.started } (.make i v.ask)

def dropTime (w : World) (i : Nat) (v : Visit) : Option Nat :=
  if (stageOf w i).isMade && !(stageOf w i).isOver then
    v.dropAfter.map fun d => Duration.ceilMillis (w.started + d)
  else none

def drop? (r : Rehearsal) (w : World) (i : Nat) (v : Visit) : Option World :=
  match dropTime w i v with
  | some t => if t ≤ w.session.now then r.step? w (.drop i) else none
  | none => none

/-- Reads a frame of what the server wrote, or finds out why there are no more. A reader that
crashes takes the connection with it. -/
def read? (r : Rehearsal) (w : World) : Option World :=
  if Frame.crashes w.peer.output then r.step? w (.fail .connectionClosed)
  else
    match Frame.scan w.peer.output with
    | .frame body rest => r.step? { w with peer := { w.peer with output := rest } } (.deliver body)
    | .broken e => r.step? w (.fail e)
    | .more => if w.peer.outputOpen then none else r.step? w (.fail .connectionClosed)

def react? (w : World) : Option World := w.peer.react.map fun p => { w with peer := p }

def tick? (r : Rehearsal) (w : World) : Option World :=
  let times := r.visits.zipIdx.flatMap fun ((_, v), i) =>
    (stageOf w i).deadline?.toList.map Duration.ceilMillis ++ (dropTime w i v).toList
  match (times.filter (w.session.now < ·)).min? with
  | some t => r.step? w (.tick t)
  | none => none

def next? (r : Rehearsal) (w : World) : Option World :=
  let visits := r.visits.zipIdx
  visits.findSome? (fun (_, i) => r.poll? w i) <|>
    visits.findSome? (fun ((g, v), i) => r.make? w i g v) <|>
    visits.findSome? (fun ((_, v), i) => r.drop? w i v) <|>
    r.read? w <|> react? w <|> r.tick? w

def runFrom (r : Rehearsal) : Nat → World → World
  | 0, w => w
  | fuel + 1, w =>
    if w.crashed then w
    else
      match r.next? w with
      | some w => r.runFrom fuel w
      | none => w

/-- More steps than any rehearsal needs. -/
def maxSteps : Nat := 1000000

/-- Runs all calls against a server. -/
def run (r : Rehearsal) (p : Peer) : World :=
  r.runFrom maxSteps { session := .start r.visits.length, peer := p, started := 0 }

/-- How the calls of each group ended. -/
def answers (r : Rehearsal) (w : World) : List (List Stage) :=
  r.groups.zipIdx.map fun (_, g) =>
    (r.visits.zipIdx.filter fun ((h, _), _) => h = g).map fun (_, i) => stageOf w i

/-- What one call comes to on a session that is stopped after it. -/
def consult (server : Server) (ask : Ask) (p : Peer) : Except ToolError Reply :=
  let r : Rehearsal := ⟨server, [[{ ask := ask }], [{ ask := .shutdown }]]⟩
  match stageOf (r.run p) 0 with
  | .finished answer => answer
  | _ => .error .closed

end Rehearsal
end Switchboard.Tools
