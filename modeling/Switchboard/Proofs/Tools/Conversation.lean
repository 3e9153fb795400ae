import Switchboard.Proofs.Tools.Fields
import Switchboard.Proofs.Tools.Turn

/-!
# Conversations with a tool server

A session writes frame after frame: handshakes, one notification once a handshake was answered, and
from then on requests for tools, all with ids counted from one. `Sent.frame` spells the frames out.
`Talks`, `Writes` and `Waits` say what was written before by what is to be done next, `Line` relates
that to the bytes on the wire.
-/

namespace Switchboard.Tools

/-- A message to the server. -/
inductive Sent where
  | hello (id : Nat)
  /-- The notification that the handshake is over. -/
  | settled
  | tools (id : Nat) (ask : Ask)

/-- The text of a request. -/
def requestText (id : Nat) (method : String) (params : List Char) : List Char :=
  "\x7b\"jsonrpc\":\"2.0\",\"id\":".toList ++ Nat.toDigits 10 id ++ ",\"method\":\"".toList ++
    method.toList ++ "\",\"params\":".toList ++ params ++ "\x7d".toList

/-- The text of a message. -/
def Sent.text (server : Server) : Sent → List Char
  | hello id => requestText id "initialize"
      ("\x7b\"capabilities\":\x7b\x7d,\"clientInfo\":\x7b\"name\":".toList ++
        Json.quote server.clientName ++ ",\"version\":".toList ++
        Json.quote server.clientVersion ++ "\x7d,\"protocolVersion\":".toList ++
        Json.quote server.protocolVersion ++ "\x7d".toList)
  | settled => "\x7b\"jsonrpc\":\"2.0\",\"method\":\"notifications/initialized\"\x7d".toList
  | tools id (.call tool arguments) => requestText id "tools/call"
      ("\x7b\"arguments\":".toList ++ arguments.compactChars ++ ",\"name\":".toList ++
        Json.quote tool ++ "\x7d".toList)
  | tools id .list | tools id .shutdown => requestText id "tools/list" "\x7b\x7d".toList

/-- A text behind the number of its bytes. -/
def framed (text : List Char) : List UInt8 :=
  let body := Text.Utf8.encode text
  Text.Utf8.encode
    ("Content-Length: ".toList ++ Nat.toDigits 10 body.length ++ "\r\n\r\n".toList) ++ body

/-- The bytes of a message. -/
def Sent.frame (server : Server) (msg : Sent) : List UInt8 := framed (msg.text server)

def script (server : Server) (msgs : List Sent) : List UInt8 := msgs.flatMap (·.frame server)

/-- `k` handshakes. -/
def hellos (k : Nat) : List Sent := (List.range k).map fun j => .hello (j + 1)

/-- What is written after `k` handshakes of which the last one was answered. -/
def dialogue (k : Nat) (asks : List Ask) : List Sent :=
  hellos k ++ .settled :: asks.mapIdx fun j ask => .tools (k + 1 + j) ask

/-- What the messages to a server can be: handshakes, and if the last of them was answered, the
notification and requests for tools. -/
inductive Conversation (answered : Nat → Prop) : List Sent → Prop where
  | greeting (k : Nat) : Conversation answered (hellos k)
  | working {k : Nat} {asks : List Ask} : 0 < k → answered k → (∀ ask ∈ asks, ask ≠ .shutdown) →
      Conversation answered (dialogue k asks)

/-- A message arrived with the id of handshake `k`, no error, and a result that is not null. -/
def Answered (inputs : List SessionInput) (k : Nat) : Prop :=
  ∃ body msg result, .deliver body ∈ inputs ∧ message? body = some msg ∧
    content? (field? "id" 0 msg) = some (.int k) ∧ content? (field? "error" 2 msg) = none ∧
    content? (field? "result" 1 msg) = some result

theorem hellos_succ (k : Nat) : hellos (k + 1) = hellos k ++ [.hello (k + 1)] := by
  simp [hellos, List.range_succ]

theorem dialogue_nil (k : Nat) : dialogue k [] = hellos k ++ [.settled] := rfl

theorem dialogue_concat (k : Nat) (asks : List Ask) (ask : Ask) :
    dialogue k (asks ++ [ask]) = dialogue k asks ++ [.tools (k + 1 + asks.length) ask] := by
  simp [dialogue, List.mapIdx_append]

theorem script_concat (server : Server) (msgs : List Sent) (msg : Sent) :
    script server (msgs ++ [msg]) = script server msgs ++ msg.frame server := by
  simp [script]

/-! ## Frames -/

theorem closing_brace : "\x7d".toList = ['\x7d'] := by decide +kernel

theorem compactChars_request {id : Nat} {method : String} (params : Json)
    (h : Json.quote method = '"' :: method.toList ++ ['"']) :
    (requestJson id method params).compactChars = requestText id method params.compactChars := by
  have hid : "\x7b\"jsonrpc\":\"2.0\",\"id\":".toList = '\x7b' :: Json.quote "jsonrpc" ++
      ':' :: Json.quote "2.0" ++ ',' :: Json.quote "id" ++ [':'] := by decide +kernel
  have hmethod : ",\"method\":\"".toList = ',' :: Json.quote "method" ++ [':', '"'] := by
    decide +kernel
  have hparams : "\",\"params\":".toList = '"' :: ',' :: Json.quote "params" ++ [':'] := by
    decide +kernel
  unfold requestText
  rw [hid, hmethod, hparams, closing_brace]
  simp only [requestJson, Json.compactChars, Json.compactMembers, Json.intChars, h,
    List.append_assoc, List.cons_append, List.nil_append]

theorem compactChars_handshake (server : Server) :
    (Session.handshakeParams server).compactChars =
      "\x7b\"capabilities\":\x7b\x7d,\"clientInfo\":\x7b\"name\":".toList ++
        Json.quote server.clientName ++ ",\"version\":".toList ++
        Json.quote server.clientVersion ++ "\x7d,\"protocolVersion\":".toList ++
        Json.quote server.protocolVersion ++ "\x7d".toList := by
  have hname : "\x7b\"capabilities\":\x7b\x7d,\"clientInfo\":\x7b\"name\":".toList =
      '\x7b' :: Json.quote "capabilities" ++ ':' :: '\x7b' :: '\x7d' ::
        ',' :: Json.quote "clientInfo" ++ ':' :: '\x7b' :: Json.quote "name" ++ [':'] := by
    decide +kernel
  have hversion : ",\"version\":".toList = ',' :: Json.quote "version" ++ [':'] := by
    decide +kernel
  have hprotocol : "\x7d,\"protocolVersion\":".toList =
      '\x7d' :: ',' :: Json.quote "protocolVersion" ++ [':'] := by decide +kernel
  rw [hname, hversion, hprotocol, closing_brace]
  simp only [Session.handshakeParams, Json.compactChars, Json.compactMembers, List.append_assoc,
    List.cons_append, List.nil_append]

theorem compactChars_call (tool : String) (arguments : Json) :
    (Json.obj [("arguments", arguments), ("name", .str tool)]).compactChars =
      "\x7b\"arguments\":".toList ++ arguments.compactChars ++ ",\"name\":".toList ++
        Json.quote tool ++ "\x7d".toList := by
  have harguments : "\x7b\"arguments\":".toList = '\x7b' :: Json.quote "arguments" ++ [':'] := by
    decide +kernel
  have hname : ",\"name\":".toList = ',' :: Json.quote "name" ++ [':'] := by decide +kernel
  rw [harguments, hname, closing_brace]
  simp only [Json.compactChars, Json.compactMembers, List.append_assoc, List.cons_append,
    List.nil_append]

theorem frameOf_eq (message : Json) : Session.frameOf message = framed message.compactChars := by
  rw [Session.frameOf, Text.Utf8.bytesOf, Json.compact, String.toList_ofList]
  rfl

theorem quote_name (m : Method) : Json.quote m.name = '"' :: m.name.toList ++ ['"'] := by
  cases m <;> decide +kernel

theorem frameOf_request (id : Nat) (m : Method) (params : Json) :
    Session.frameOf (requestJson id m.name params) =
      framed (requestText id m.name params.compactChars) := by
  rw [frameOf_eq, compactChars_request _ (quote_name m)]

theorem frame_hello (server : Server) (id : Nat) :
    Session.frameOf (requestJson id Method.handshake.name (Session.handshakeParams server)) =
      (Sent.hello id).frame server := by
  rw [frameOf_request, compactChars_handshake]
  rfl

theorem frame_settled (server : Server) :
    Session.frameOf (notificationJson initializedName) = Sent.settled.frame server := by
  have htext : (notificationJson initializedName).compactChars =
      "\x7b\"jsonrpc\":\"2.0\",\"method\":\"notifications/initialized\"\x7d".toList := by
    decide +kernel
  rw [frameOf_eq, htext]
  rfl

theorem frame_tools (server : Server) (id : Nat) (ask : Ask) :
    Session.frameOf (requestJson id ask.method.name (Session.paramsOf server ask ask.method)) =
      (Sent.tools id ask).frame server := by
  have hempty : (Json.obj []).compactChars = "\x7b\x7d".toList := by decide +kernel
  rw [frameOf_request]
  cases ask with
  | list | shutdown =>
    rw [Ask.method, Session.paramsOf, hempty]
    rfl
  | call tool arguments =>
    rw [Ask.method, Session.paramsOf, compactChars_call]
    rfl

theorem framed_ne_nil (text : List Char) : framed text ≠ [] := by
  have head : Text.Utf8.encode "Content-Length: ".toList ≠ [] := by decide
  intro h
  simp only [framed, Text.Utf8.encode, List.flatMap_append, List.append_eq_nil_iff] at h
  exact head h.1.1.1

/-! ## The state of the line -/

section
variable (answered : Nat → Prop)

/-- What was written before the next message, by the phase of the session and the next id. -/
inductive Talks : SessionPhase → Nat → List Sent → Prop where
  | greeting {phase : SessionPhase} {k : Nat} : phase = .fresh ∨ phase = .handshaking →
      Talks phase (k + 1) (hellos k)
  | working {k : Nat} {asks : List Ask} : 0 < k → answered k → (∀ ask ∈ asks, ask ≠ .shutdown) →
      Talks .ready (k + 1 + asks.length) (dialogue k asks)

/-- A call that asks for `ask` writes the message `next` after `msgs`. -/
inductive Writes (ask : Ask) : SessionPhase → Nat → Sending → List Sent → Sent → Prop where
  | hello {k : Nat} : Writes ask .handshaking (k + 2) (.request .handshake (k + 1)) (hellos k)
      (.hello (k + 1))
  | settled {k : Nat} : 0 < k → answered k →
      Writes ask .handshaking (k + 1) .initialized (hellos k) .settled
  | tools {id : Nat} {msgs : List Sent} : Talks answered .ready id msgs →
      Writes ask .ready (id + 1) (.request ask.method id) msgs (.tools id ask)

/-- A call waits for the answer to its request, after `msgs` were written. -/
inductive Waits (ask : Ask) : SessionPhase → Nat → Method → Nat → List Sent → Prop where
  | hello {k : Nat} : 0 < k → Waits ask .handshaking (k + 1) .handshake k (hellos k)
  | tools {nextId id : Nat} {msgs : List Sent} : Talks answered .ready nextId msgs →
      Waits ask .ready nextId ask.method id msgs

/-- A beginning of a frame, but not all of it. -/
def Cut (server : Server) (msgs : List Sent) (cut : List UInt8) : Prop :=
  cut = [] ∨ ∃ next, Conversation answered (msgs ++ [next]) ∧ cut <+: next.frame server ∧
    cut ≠ next.frame server

/-- What is on the wire, by what the call with the turn does. -/
inductive Line (server : Server) (s : Session) : Prop where
  | idle {msgs : List Sent} : s.holder = none → s.writing = false →
      Talks answered s.phase s.nextId msgs → s.wire = script server msgs → Line server s
  | shut {msgs : List Sent} {cut : List UInt8} : s.holder = none →
      s.writing = true ∨ s.phase = .closed → Conversation answered msgs →
      Cut answered server msgs cut → s.wire = script server msgs ++ cut → Line server s
  | sending {i : Nat} {c : SessionCall} {what : Sending} {rest done : List UInt8} {deadline : Nat}
      {msgs : List Sent} {next : Sent} : s.holder = some i → s.calls[i]? = some c →
      c.stage = .sending what rest deadline → c.ask ≠ .shutdown → s.writing = true →
      Writes answered c.ask s.phase s.nextId what msgs next → done ++ rest = next.frame server →
      rest ≠ [] → s.wire = script server msgs ++ done → Line server s
  | receiving {i : Nat} {c : SessionCall} {m : Method} {id deadline : Nat} {msgs : List Sent} :
      s.holder = some i → s.calls[i]? = some c → c.stage = .receiving m id deadline →
      c.ask ≠ .shutdown → s.writing = false → Waits answered c.ask s.phase s.nextId m id msgs →
      s.wire = script server msgs → Line server s

end

section
variable {answered : Nat → Prop} {server : Server} {s t : Session} {i : Nat} {c : SessionCall}
  {phase : SessionPhase} {nextId id : Nat} {msgs : List Sent} {next : Sent} {what : Sending}
  {m : Method} {ask : Ask} {done rest : List UInt8}

theorem Talks.conversation (h : Talks answered phase nextId msgs) : Conversation answered msgs := by
  cases h with
  | greeting => exact .greeting _
  | working hk ha hs => exact .working hk ha hs

theorem Talks.hello (h : Talks answered phase nextId msgs) (hp : phase ≠ .ready) :
    ∃ k, nextId = k + 1 ∧ msgs = hellos k := by
  cases h with
  | greeting => exact ⟨_, rfl, rfl⟩
  | working => exact absurd rfl hp

/-- A request for tools goes on with the dialogue. -/
theorem Talks.tools (h : Talks answered .ready nextId msgs) (hask : ask ≠ .shutdown) :
    Talks answered .ready (nextId + 1) (msgs ++ [.tools nextId ask]) := by
  cases h with
  | greeting hp => rcases hp with hp | hp <;> cases hp
  | @working k asks hk ha hs =>
    have hs' : ∀ a ∈ asks ++ [ask], a ≠ .shutdown := fun a hm => by
      rcases List.mem_append.1 hm with hm | hm
      · exact hs a hm
      · rw [List.mem_singleton.1 hm]
        exact hask
    have h := Talks.working hk ha hs'
    rwa [dialogue_concat, List.length_append, List.length_singleton, ← Nat.add_assoc] at h

theorem Writes.conversation (h : Writes answered ask phase nextId what msgs next)
    (hask : ask ≠ .shutdown) :
    Conversation answered msgs ∧ Conversation answered (msgs ++ [next]) := by
  cases h with
  | hello =>
    refine ⟨.greeting _, ?_⟩
    rw [← hellos_succ]
    exact .greeting _
  | settled hk ha =>
    refine ⟨.greeting _, ?_⟩
    rw [← dialogue_nil]
    exact .working hk ha nofun
  | tools ht => exact ⟨ht.conversation, (ht.tools hask).conversation⟩

/-- A request that was written waits for its answer. -/
theorem Writes.waits (h : Writes answered ask phase nextId (.request m id) msgs next)
    (hask : ask ≠ .shutdown) : Waits answered ask phase nextId m id (msgs ++ [next]) := by
  cases h with
  | hello =>
    rw [← hellos_succ]
    exact .hello (Nat.succ_pos _)
  | tools ht => exact .tools (ht.tools hask)

theorem Waits.talks (h : Waits answered ask phase nextId m id msgs) :
    Talks answered phase nextId msgs := by
  cases h with
  | hello => exact .greeting (.inr rfl)
  | tools ht => exact ht

theorem Writes.settled_eq (h : Writes answered ask phase nextId .initialized msgs next) :
    ∃ k, 0 < k ∧ answered k ∧ nextId = k + 1 ∧ msgs = hellos k ∧ next = .settled := by
  cases h with
  | settled hk ha => exact ⟨_, hk, ha, rfl, rfl, rfl⟩

theorem Waits.hello_eq (h : Waits answered ask phase nextId m id msgs) (hm : m = .handshake) :
    0 < id ∧ phase = .handshaking ∧ nextId = id + 1 ∧ msgs = hellos id := by
  cases h with
  | hello hk => exact ⟨hk, rfl, rfl, rfl⟩
  | tools => cases ask <;> cases hm

theorem cut_of_rest (h : done ++ rest = next.frame server) (hr : rest ≠ [])
    (hc : Conversation answered (msgs ++ [next])) : Cut answered server msgs done := by
  refine .inr ⟨next, hc, ⟨rest, h⟩, ?_⟩
  intro he
  rw [← h] at he
  exact hr (List.self_eq_append_right.1 he)

theorem Talks.again (h : Talks answered .handshaking nextId msgs) :
    Talks answered .fresh nextId msgs := by
  obtain ⟨k, rfl, rfl⟩ := h.hello nofun
  exact .greeting (.inl rfl)

end

end Switchboard.Tools
