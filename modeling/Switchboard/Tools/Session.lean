import Switchboard.Tools.Frame
import Switchboard.Tools.Message
import Switchboard.Tools.Registry

/-!
# Sessions with a tool server

A session carries out calls on one server, one at a time in the order in which they came. The first
call makes the handshake; a handshake that timed out or was given up is made again by the next call
under a new id. Every request has an id of its own, counted from one, and waits for the first frame
that answers it; all other frames are skipped. An error that leaves the connection unusable closes
the session for good, and so does a frame that was not written to its end.

`step?` says what an input comes to where the clock shows all instants. It does not: to compute a
deadline past its last instant is a crash, which is what `crashes` and `advance?` add.
-/

namespace Switchboard.Tools

inductive SessionPhase where
  | fresh
  | handshaking
  | ready
  | closed
  deriving DecidableEq, Repr

/-- What a caller wants. -/
inductive Ask where
  | list
  | call (tool : String) (arguments : Json)
  | shutdown
  deriving DecidableEq, Repr

/-- The method of a call. -/
def Ask.method : Ask → Method
  | call _ _ => .toolsCall
  | list | shutdown => .toolsList

/-- What a caller gets. -/
inductive Reply where
  | tools (tools : List Tool)
  | result (r : CallResult)
  | stopped
  deriving DecidableEq, Repr

inductive Sending where
  | request (method : Method) (id : Nat)
  | initialized
  deriving DecidableEq, Repr

def Sending.name : Sending → String
  | request m _ => m.name
  | initialized => initializedName

inductive Stage where
  | unmade
  /-- Waits for the calls before it. -/
  | waiting
  | sending (what : Sending) (rest : List UInt8) (deadline : Nat)
  | receiving (method : Method) (id : Nat) (deadline : Nat)
  | finished (answer : Except ToolError Reply)
  | dropped

structure SessionCall where
  ask : Ask
  stage : Stage

/-- How the pipe to the server takes bytes. -/
inductive Pipe where
  | takes (n : Nat)
  | broken
  deriving DecidableEq, Repr

structure Session where
  now : Nat
  phase : SessionPhase
  nextId : Nat
  /-- Whether a frame was begun and not ended. -/
  writing : Bool
  /-- Whether a shutdown was asked for. -/
  stopping : Bool
  /-- All that was written to the server. -/
  wire : List UInt8
  /-- The frames that arrived and were not read. -/
  inbox : List (List UInt8)
  /-- Why no more frames arrive. -/
  broken : Option ToolError
  /-- The call whose turn it is. -/
  holder : Option Nat
  queue : List Nat
  calls : List SessionCall

namespace Session

/-- A session on which `n` calls can be made. -/
def start (n : Nat) : Session :=
  ⟨0, .fresh, 1, false, false, [], [], none, none, [], List.replicate n ⟨.list, .unmade⟩⟩

def setStage (s : Session) (i : Nat) (c : SessionCall) (stage : Stage) : Session :=
  { s with calls := s.calls.set i { c with stage := stage } }

/-- The call is over, and the turn is free. -/
def finish (s : Session) (i : Nat) (c : SessionCall) (answer : Except ToolError Reply) : Session :=
  { s with holder := none }.setStage i c (.finished answer)

/-- The instant until which a request may take. -/
def deadline (server : Server) (s : Session) : Nat := s.now + server.requestTimeout

/-! ## Messages -/

def handshakeParams (server : Server) : Json :=
  .obj [("capabilities", .obj []),
    ("clientInfo", .obj [("name", .str server.clientName), ("version", .str server.clientVersion)]),
    ("protocolVersion", .str server.protocolVersion)]

def paramsOf (server : Server) (ask : Ask) : Method → Json
  | .handshake => handshakeParams server
  | .toolsList => .obj []
  | .toolsCall =>
    match ask with
    | .call tool arguments => .obj [("arguments", arguments), ("name", .str tool)]
    | .list | .shutdown => .obj []

def frameOf (message : Json) : List UInt8 := Frame.write (Text.Utf8.bytesOf message.compact)

/-- What a caller makes of the result of its request. -/
def replyOf (ask : Ask) (result : Json) : Except ToolError Reply :=
  match ask with
  | .call tool _ => .ok (.result (.ofResult tool result))
  | .list | .shutdown =>
    match Tool.listOf? result with
    | some tools => .ok (.tools tools)
    | none => .error .json

/-! ## One exchange -/

def sendRequest (server : Server) (s : Session) (i : Nat) (c : SessionCall) (m : Method) :
    Session :=
  let message := requestJson s.nextId m.name (paramsOf server c.ask m)
  { s with nextId := s.nextId + 1, writing := true }.setStage i c
    (.sending (.request m s.nextId) (frameOf message) (s.deadline server))

def sendInitialized (server : Server) (s : Session) (i : Nat) (c : SessionCall) : Session :=
  { s with writing := true }.setStage i c
    (.sending .initialized (frameOf (notificationJson initializedName)) (s.deadline server))

/-- A request failed. A handshake that timed out may be made again unless the session is closed;
all its other failures close the session. -/
def fail (s : Session) (i : Nat) (c : SessionCall) (m : Method) (e : ToolError) : Session :=
  let phase := match m, e with
    | .handshake, .timeout _ _ => if s.phase = .handshaking then .fresh else s.phase
    | .handshake, _ => .closed
    | _, e => if e.isFatal then .closed else s.phase
  { s with phase := phase }.finish i c (.error e)

/-- A request was answered. -/
def succeed (server : Server) (s : Session) (i : Nat) (c : SessionCall) (m : Method)
    (result : Option Json) : Session :=
  match m, result with
  | .handshake, some _ => s.sendInitialized server i c
  | .handshake, none => s.fail i c m (.handshake "missing result payload")
  | _, result => s.finish i c (replyOf c.ask (result.getD .null))

/-- A whole message was written. -/
def sent (server : Server) (s : Session) (i : Nat) (c : SessionCall) (deadline : Nat) :
    Sending → Session
  | .request m id => s.setStage i c (.receiving m id deadline)
  | .initialized => { s with phase := .ready }.sendRequest server i c c.ask.method

/-- A message was not written to its end. -/
def unsent (s : Session) (i : Nat) (c : SessionCall) (e : ToolError) : Sending → Session
  | .request m _ => s.fail i c m e
  | .initialized => { s with phase := .closed }.finish i c (.error e)

def write (server : Server) (s : Session) (i : Nat) (c : SessionCall) (what : Sending)
    (rest : List UInt8) (deadline : Nat) : Pipe → Option Session
  | .broken =>
    some ({ s with writing := false }.unsent i c (.io "Broken pipe (os error 32)") what)
  | .takes n =>
    if rest.length ≤ n then
      some ({ s with wire := s.wire ++ rest, writing := false }.sent server i c deadline what)
    else
      let s' := { s with wire := s.wire ++ rest.take n }
      if deadline ≤ s.now then
        some ({ s' with phase := .closed }.unsent i c
          (.timeout what.name server.requestTimeout) what)
      else if n = 0 then none
      else some (s'.setStage i c (.sending what (rest.drop n) deadline))

/-- What a frame means to the request `id`: nothing, a failure or a result. -/
def read (m : Method) (id : Nat) (body : List UInt8) : Option (Except ToolError (Option Json)) :=
  match Answer.ofBody? body with
  | none => some (.error .json)
  | some a =>
    if a.answers id then
      match a.error with
      | some e => some (.error (.rpc m.name e))
      | none => some (.ok a.result)
    else none

def receive (server : Server) (s : Session) (i : Nat) (c : SessionCall) (m : Method)
    (id deadline : Nat) : Option Session :=
  match s.inbox, s.broken with
  | body :: inbox, _ =>
    let s := { s with inbox := inbox }
    match read m id body with
    | none => some s
    | some (.error e) => some (s.fail i c m e)
    | some (.ok result) => some (s.succeed server i c m result)
  | [], some e => some ({ s with broken := some .connectionClosed }.fail i c m e)
  | [], none =>
    if deadline ≤ s.now then some (s.fail i c m (.timeout m.name server.requestTimeout)) else none

/-! ## Turns -/

/-- The call takes its turn. -/
def acquire (server : Server) (s : Session) (i : Nat) (c : SessionCall) : Session :=
  let s := { s with holder := some i, queue := s.queue.tail }
  match c.ask with
  | .shutdown => { s with phase := .closed }.finish i c (.ok .stopped)
  | _ =>
    let s := if s.writing || s.stopping then { s with phase := .closed } else s
    match s.phase with
    | .closed => s.finish i c (.error .closed)
    | .ready => s.sendRequest server i c c.ask.method
    | .fresh | .handshaking => { s with phase := .handshaking }.sendRequest server i c .handshake

def poll (server : Server) (s : Session) (i : Nat) (c : SessionCall) (pipe : Pipe) :
    Option Session :=
  match c.stage with
  | .waiting =>
    if s.holder.isNone ∧ s.queue.head? = some i then some (s.acquire server i c) else none
  | .sending what rest deadline => s.write server i c what rest deadline pipe
  | .receiving m id deadline => s.receive server i c m id deadline
  | .unmade | .finished _ | .dropped => none

/-- The arguments of a tool are an object; `null` stands for an empty one. -/
def checkArguments : Ask → Except ToolError Ask
  | .call tool .null => .ok (.call tool (.obj []))
  | .call tool (.obj members) => .ok (.call tool (.obj members))
  | .call _ arguments =>
    .error (.invalidArguments ("expected a JSON object, got " ++ arguments.compact))
  | ask => .ok ask

def make (s : Session) (i : Nat) (c : SessionCall) (ask : Ask) : Option Session :=
  match c.stage with
  | .unmade =>
    match checkArguments ask with
    | .error e => some (s.setStage i ⟨ask, .unmade⟩ (.finished (.error e)))
    | .ok ask =>
      some ({ s with
        queue := s.queue ++ [i]
        stopping := s.stopping || ask == Ask.shutdown }.setStage i ⟨ask, .unmade⟩ .waiting)
  | _ => none

/-- A call that was given up leaves the session as it stands. -/
def drop (s : Session) (i : Nat) (c : SessionCall) : Option Session :=
  match c.stage with
  | .waiting => some ({ s with queue := s.queue.erase i }.setStage i c .dropped)
  | .sending .. | .receiving .. => some ({ s with holder := none }.setStage i c .dropped)
  | .unmade | .finished _ | .dropped => none

end Session

inductive SessionInput where
  | tick (later : Nat)
  | make (i : Nat) (ask : Ask)
  | poll (i : Nat) (pipe : Pipe)
  | drop (i : Nat)
  /-- A frame arrives. -/
  | deliver (body : List UInt8)
  /-- No more frames arrive. -/
  | fail (e : ToolError)

/-- What an input does, if it is possible. -/
def Session.step? (server : Server) (s : Session) : SessionInput → Option Session
  | .tick later => if s.now ≤ later then some { s with now := later } else none
  | .make i ask => s.calls[i]?.bind fun c => s.make i c ask
  | .poll i pipe => s.calls[i]?.bind fun c => s.poll server i c pipe
  | .drop i => s.calls[i]?.bind fun c => s.drop i c
  | .deliver body => if s.broken.isNone then some { s with inbox := s.inbox ++ [body] } else none
  | .fail e => if s.broken.isNone then some { s with broken := some e } else none

/-! ## Crashes -/

/-- The instant until which a call has its turn. -/
def Stage.deadline? : Stage → Option Nat
  | sending _ _ deadline | receiving _ _ deadline => some deadline
  | unmade | waiting | finished _ | dropped => none

namespace Session

/-- Whether a call has a deadline that the clock cannot show. -/
def overruns (s : Session) : Bool :=
  s.calls.any fun c => c.stage.deadline?.any (Duration.lastInstant < ·)

/-- Whether an input crashes the session, because it makes a call compute such a deadline. -/
def crashes (server : Server) (s : Session) (a : SessionInput) : Bool :=
  (s.step? server a).any overruns

/-- What an input does, if it is possible and does not crash the session. -/
def advance? (server : Server) (s : Session) (a : SessionInput) : Option Session :=
  if s.crashes server a then none else s.step? server a

end Session

end Switchboard.Tools
