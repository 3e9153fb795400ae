import Switchboard.Tools.Session

/-!
# Turns of a call on a tool server

`Turn server s i c a t` lists all that an input `a` about call `i`, which is `c`, can make of a
session `s`, and `Begins s i c a what` those of them in which the call begins with a message. A step
of a session is such a turn or concerns no call (`step_turn`).
-/

namespace Switchboard.Tools

/-- The call that an input is about. -/
def SessionInput.target : SessionInput → Option Nat
  | tick _ | deliver _ | fail _ => none
  | make i _ | poll i _ | drop i => some i

/-- The call has its turn. -/
def Stage.isActive : Stage → Bool
  | sending .. | receiving .. => true
  | _ => false

namespace Session

/-- The call stands first in the queue and nobody has the turn. -/
structure Next (s : Session) (i : Nat) (c : SessionCall) : Prop where
  waits : c.stage = .waiting
  free : s.holder = none
  first : s.queue.head? = some i

/-- The call takes the turn. -/
def take (s : Session) (i : Nat) : Session := { s with holder := some i, queue := s.queue.tail }

/-- The request of a call has failed for want of an answer, or by the answer. -/
inductive Failing (server : Server) (s : Session) (m : Method) (id deadline : Nat) :
    ToolError → Session → Prop where
  | refused {body : List UInt8} {inbox : List (List UInt8)} {e : ToolError} :
      s.inbox = body :: inbox → read m id body = some (.error e) →
      Failing server s m id deadline e { s with inbox := inbox }
  | blank {body : List UInt8} {inbox : List (List UInt8)} : m = .handshake →
      s.inbox = body :: inbox → read m id body = some (.ok none) →
      Failing server s m id deadline (.handshake "missing result payload") { s with inbox := inbox }
  | lost {e : ToolError} : s.inbox = [] → s.broken = some e →
      Failing server s m id deadline e { s with broken := some .connectionClosed }
  | late : s.inbox = [] → s.broken = none → deadline ≤ s.now →
      Failing server s m id deadline (.timeout m.name server.requestTimeout) s

inductive Turn (server : Server) (s : Session) (i : Nat) (c : SessionCall) :
    SessionInput → Session → Prop where
  | refuse {ask : Ask} {e : ToolError} : c.stage = .unmade → checkArguments ask = .error e →
      Turn server s i c (.make i ask) (s.setStage i ⟨ask, .unmade⟩ (.finished (.error e)))
  | queue {ask ask' : Ask} : c.stage = .unmade → checkArguments ask = .ok ask' →
      Turn server s i c (.make i ask)
        ({ s with
          queue := s.queue ++ [i]
          stopping := s.stopping || ask' == Ask.shutdown }.setStage i ⟨ask', .unmade⟩ .waiting)
  | stop {pipe : Pipe} : s.Next i c → c.ask = .shutdown →
      Turn server s i c (.poll i pipe)
        ({ s.take i with phase := .closed }.finish i c (.ok .stopped))
  | bounce {pipe : Pipe} : s.Next i c → c.ask ≠ .shutdown →
      s.writing = true ∨ s.stopping = true ∨ s.phase = .closed →
      Turn server s i c (.poll i pipe)
        ({ s.take i with phase := .closed }.finish i c (.error .closed))
  | greet {pipe : Pipe} : s.Next i c → c.ask ≠ .shutdown → s.writing = false →
      s.stopping = false → s.phase = .fresh ∨ s.phase = .handshaking →
      Turn server s i c (.poll i pipe)
        ({ s.take i with phase := .handshaking }.sendRequest server i c .handshake)
  | request {pipe : Pipe} : s.Next i c → c.ask ≠ .shutdown → s.writing = false →
      s.stopping = false → s.phase = .ready →
      Turn server s i c (.poll i pipe) ((s.take i).sendRequest server i c c.ask.method)
  | part {what : Sending} {rest : List UInt8} {deadline n : Nat} :
      c.stage = .sending what rest deadline → 0 < n → n < rest.length → s.now < deadline →
      Turn server s i c (.poll i (.takes n))
        ({ s with wire := s.wire ++ rest.take n }.setStage i c
          (.sending what (rest.drop n) deadline))
  | whole {m : Method} {id : Nat} {rest : List UInt8} {deadline n : Nat} :
      c.stage = .sending (.request m id) rest deadline → rest.length ≤ n →
      Turn server s i c (.poll i (.takes n))
        ({ s with wire := s.wire ++ rest, writing := false }.setStage i c
          (.receiving m id deadline))
  | greeted {rest : List UInt8} {deadline n : Nat} : c.stage = .sending .initialized rest deadline →
      rest.length ≤ n →
      Turn server s i c (.poll i (.takes n))
        ({ s with wire := s.wire ++ rest, writing := false, phase := .ready }.sendRequest server i c
          c.ask.method)
  | stuck {what : Sending} {rest : List UInt8} {deadline n : Nat} :
      c.stage = .sending what rest deadline → n < rest.length → deadline ≤ s.now →
      Turn server s i c (.poll i (.takes n))
        ({ s with wire := s.wire ++ rest.take n, phase := .closed }.unsent i c
          (.timeout what.name server.requestTimeout) what)
  | broken {what : Sending} {rest : List UInt8} {deadline : Nat} :
      c.stage = .sending what rest deadline →
      Turn server s i c (.poll i .broken)
        ({ s with writing := false }.unsent i c (.io "Broken pipe (os error 32)") what)
  | skip {m : Method} {id deadline : Nat} {pipe : Pipe} {body : List UInt8}
      {inbox : List (List UInt8)} : c.stage = .receiving m id deadline → s.inbox = body :: inbox →
      read m id body = none → Turn server s i c (.poll i pipe) { s with inbox := inbox }
  | welcome {id deadline : Nat} {pipe : Pipe} {body : List UInt8} {inbox : List (List UInt8)}
      {result : Json} : c.stage = .receiving .handshake id deadline → s.inbox = body :: inbox →
      read .handshake id body = some (.ok (some result)) →
      Turn server s i c (.poll i pipe) ({ s with inbox := inbox }.sendInitialized server i c)
  | answer {m : Method} {id deadline : Nat} {pipe : Pipe} {body : List UInt8}
      {inbox : List (List UInt8)} {result : Option Json} : c.stage = .receiving m id deadline →
      m ≠ .handshake → s.inbox = body :: inbox → read m id body = some (.ok result) →
      Turn server s i c (.poll i pipe)
        ({ s with inbox := inbox }.finish i c (replyOf c.ask (result.getD .null)))
  | fail {m : Method} {id deadline : Nat} {pipe : Pipe} {e : ToolError} {s' : Session} :
      c.stage = .receiving m id deadline → Failing server s m id deadline e s' →
      Turn server s i c (.poll i pipe) (s'.fail i c m e)
  | leave : c.stage = .waiting →
      Turn server s i c (.drop i) ({ s with queue := s.queue.erase i }.setStage i c .dropped)
  | letGo : c.stage.isActive →
      Turn server s i c (.drop i) ({ s with holder := none }.setStage i c .dropped)

/-- The message that an input makes call `i`, which is `c`, begin to write. -/
inductive Begins (s : Session) (i : Nat) (c : SessionCall) : SessionInput → Sending → Prop where
  | greet {pipe : Pipe} : s.Next i c → c.ask ≠ .shutdown → s.writing = false →
      s.stopping = false → s.phase = .fresh ∨ s.phase = .handshaking →
      Begins s i c (.poll i pipe) (.request .handshake s.nextId)
  | welcome {id deadline : Nat} {pipe : Pipe} {body : List UInt8} {inbox : List (List UInt8)}
      {result : Json} : c.stage = .receiving .handshake id deadline → s.inbox = body :: inbox →
      read .handshake id body = some (.ok (some result)) →
      Begins s i c (.poll i pipe) .initialized
  | greeted {rest : List UInt8} {deadline n : Nat} : c.stage = .sending .initialized rest deadline →
      rest.length ≤ n → Begins s i c (.poll i (.takes n)) (.request c.ask.method s.nextId)
  | request {pipe : Pipe} : s.Next i c → c.ask ≠ .shutdown → s.writing = false →
      s.stopping = false → s.phase = .ready →
      Begins s i c (.poll i pipe) (.request c.ask.method s.nextId)

section
variable {server : Server} {s t : Session} {i : Nat} {c : SessionCall}

theorem turn_make {ask : Ask} (h : s.make i c ask = some t) :
    Turn server s i c (.make i ask) t := by
  unfold make at h
  split at h
  · next hc =>
    split at h
    · next e he => cases h; exact .refuse hc he
    · next ask' ha => cases h; exact .queue hc ha
  · cases h

theorem turn_drop (h : s.drop i c = some t) : Turn server s i c (.drop i) t := by
  unfold drop at h
  split at h
  · next hc => cases h; exact .leave hc
  · next hc => cases h; exact .letGo (by rw [hc]; rfl)
  · next hc => cases h; exact .letGo (by rw [hc]; rfl)
  all_goals cases h

theorem turn_acquire {pipe : Pipe} (hn : s.Next i c) :
    Turn server s i c (.poll i pipe) (s.acquire server i c) := by
  unfold acquire
  split
  · next ha => exact .stop hn ha
  · next ha =>
    have ha : c.ask ≠ .shutdown := ha
    cases hw : s.writing || s.stopping with
    | true =>
      simp only [hw, if_true]
      refine .bounce hn ha ?_
      rw [Bool.or_eq_true] at hw
      exact hw.elim .inl fun h => .inr (.inl h)
    | false =>
      obtain ⟨hw1, hw2⟩ := Bool.or_eq_false_iff.1 hw
      simp only [hw, Bool.false_eq_true, if_false]
      split
      · next hp =>
        have hs : s.take i = { s.take i with phase := .closed } := by rw [← hp]; rfl
        show Turn server s i c _ ((s.take i).finish i c (.error .closed))
        rw [hs]
        exact .bounce hn ha (.inr (.inr hp))
      · next hp => exact .request hn ha hw1 hw2 hp
      · next hp => exact .greet hn ha hw1 hw2 (.inl hp)
      · next hp => exact .greet hn ha hw1 hw2 (.inr hp)

theorem turn_write {what : Sending} {rest : List UInt8} {deadline : Nat} {pipe : Pipe}
    (hc : c.stage = .sending what rest deadline)
    (h : s.write server i c what rest deadline pipe = some t) :
    Turn server s i c (.poll i pipe) t := by
  unfold write at h
  split at h
  · cases h
    exact .broken hc
  · next n =>
    split at h
    · next hn =>
      cases h
      match what with
      | .request m id => exact .whole hc hn
      | .initialized => exact .greeted hc hn
    · next hn =>
      split at h
      · next hd => cases h; exact .stuck hc (by omega) hd
      · next hd =>
        split at h
        · cases h
        · next h0 => cases h; exact .part hc (by omega) (by omega) (by omega)

theorem turn_receive {m : Method} {id deadline : Nat} {pipe : Pipe}
    (hc : c.stage = .receiving m id deadline)
    (h : s.receive server i c m id deadline = some t) : Turn server s i c (.poll i pipe) t := by
  unfold receive at h
  split at h
  · next body inbox _ hi =>
    split at h
    · next hr => cases h; exact .skip hc hi hr
    · next e hr => cases h; exact .fail hc (.refused hi hr)
    · next result hr =>
      cases h
      unfold succeed
      split
      · exact .welcome hc hi hr
      · exact .fail hc (.blank rfl hi hr)
      · next hm => exact .answer hc (fun h => by cases result <;> simp_all) hi hr
  · next hi hb => cases h; exact .fail hc (.lost hi hb)
  · next hi hb =>
    split at h
    · next hd => cases h; exact .fail hc (.late hi hb hd)
    · cases h

theorem turn_poll {pipe : Pipe} (h : s.poll server i c pipe = some t) :
    Turn server s i c (.poll i pipe) t := by
  unfold poll at h
  split at h
  · next hc =>
    split at h
    · next hn =>
      cases h
      exact turn_acquire ⟨hc, Option.isNone_iff_eq_none.1 hn.1, hn.2⟩
    · cases h
  · next hc => exact turn_write hc h
  · next hc => exact turn_receive hc h
  all_goals cases h

/-- A step about a call is a turn of it. -/
theorem step_turn {a : SessionInput} (h : step? server s a = some t) (ha : a.target = some i) :
    ∃ c, s.calls[i]? = some c ∧ Turn server s i c a t := by
  cases a with
  | tick | deliver | fail => cases ha
  | make j ask =>
    cases ha
    obtain ⟨c, hc, h⟩ := Option.bind_eq_some_iff.1 h
    exact ⟨c, hc, turn_make h⟩
  | poll j pipe =>
    cases ha
    obtain ⟨c, hc, h⟩ := Option.bind_eq_some_iff.1 h
    exact ⟨c, hc, turn_poll h⟩
  | drop j =>
    cases ha
    obtain ⟨c, hc, h⟩ := Option.bind_eq_some_iff.1 h
    exact ⟨c, hc, turn_drop h⟩

/-- A step about no call concerns the clock and what arrives. -/
theorem step_outside {a : SessionInput} (h : step? server s a = some t) (ha : a.target = none) :
    ∃ now inbox broken, t = { s with now := now, inbox := inbox, broken := broken } ∧
      (inbox = s.inbox ∨ ∃ body, a = .deliver body ∧ inbox = s.inbox ++ [body]) := by
  cases a with
  | make | poll | drop => cases ha
  | tick later =>
    simp only [step?] at h
    split at h <;> cases h
    exact ⟨_, _, _, rfl, .inl rfl⟩
  | fail e =>
    simp only [step?] at h
    split at h <;> cases h
    exact ⟨_, _, _, rfl, .inl rfl⟩
  | deliver body =>
    simp only [step?] at h
    split at h <;> cases h
    exact ⟨_, _, _, rfl, .inr ⟨body, rfl, rfl⟩⟩

end

/-! ## Runs -/

/-- A sequence of inputs, each of which must be possible. -/
def run? (server : Server) (s : Session) (inputs : List SessionInput) : Option Session :=
  inputs.foldlM (step? server) s

section
variable {server : Server} {s t : Session}

theorem run_cons {a : SessionInput} {as : List SessionInput} :
    run? server s (a :: as) = some t ↔
      ∃ m, step? server s a = some m ∧ run? server m as = some t := by
  simp [run?, List.foldlM_cons, Option.bind_eq_some_iff]

/-- What every step that a run makes keeps, the run keeps. -/
theorem run_keeps {P : Session → Prop} : ∀ {as : List SessionInput} {s : Session},
    (∀ {s t : Session} {a : SessionInput}, a ∈ as → P s → step? server s a = some t → P t) →
    P s → run? server s as = some t → P t
  | [], _, _, hs, hr => by cases hr; exact hs
  | _ :: _, _, step, hs, hr => by
    obtain ⟨m, hm, hr⟩ := run_cons.1 hr
    exact run_keeps (fun ha => step (List.mem_cons_of_mem _ ha))
      (step (List.mem_cons_self ..) hs hm) hr

end

end Session

end Switchboard.Tools
