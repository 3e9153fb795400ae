import Switchboard.Proofs.Client.Instants
import Switchboard.Proofs.Tools.Refusal

/-!
# Deadlines that the clock cannot show

A call that begins with a message has the timeout of the server from then on
(`Session.Begins.step`), and no other input gives it a deadline (`Session.Turn.deadline`). The sum
of the instant and the timeout is not bounded, so a session crashes just when a message begins whose
deadline lies past the last instant (`crashes_iff`). `Session.live?` are the runs without a crash. A
timeout that is longer than the clock leaves only those in which nothing is ever written (`Mute`).
-/

namespace Switchboard.Tools

namespace Session

/-- A sequence of inputs, each of which must be possible and must not crash the session. -/
def live? (server : Server) (s : Session) (inputs : List SessionInput) : Option Session :=
  inputs.foldlM (advance? server) s

/-- Nothing was written to the server, and no call was let through. -/
structure Mute (s : Session) : Prop where
  wire : s.wire = []
  nextId : s.nextId = 1
  calls : ∀ (i : Nat) (c : SessionCall), s.calls[i]? = some c → c.stage.isActive = false ∧
    ∀ answer, c.stage = .finished answer → answer = c.ask.turnedAway

end Session

section
variable {server : Server} {s t : Session} {i n : Nat} {c d : SessionCall} {a : SessionInput}
  {what : Sending} {due : Nat}

/-! ## Deadlines -/

theorem overruns_eq_true_iff : s.overruns = true ↔
    ∃ (i : Nat) (c : SessionCall) (due : Nat), s.calls[i]? = some c ∧
      c.stage.deadline? = some due ∧ Duration.lastInstant < due := by
  simp only [Session.overruns, List.any_eq_true, Option.any_eq_true, decide_eq_true_eq,
    List.mem_iff_getElem?]
  exact ⟨fun ⟨c, ⟨i, hc⟩, due, hd, hlt⟩ => ⟨i, c, due, hc, hd, hlt⟩,
    fun ⟨i, c, due, hc, hd, hlt⟩ => ⟨c, ⟨i, hc⟩, due, hd, hlt⟩⟩

theorem overruns_eq_false_iff : s.overruns = false ↔
    ∀ (i : Nat) (c : SessionCall) (due : Nat), s.calls[i]? = some c →
      c.stage.deadline? = some due → due ≤ Duration.lastInstant := by
  rw [← Bool.not_eq_true, overruns_eq_true_iff]
  simp only [not_exists, not_and, Nat.not_lt]

/-- What begins can begin, and is due when the timeout has passed. -/
theorem Session.Begins.step (server : Server) (hb : s.Begins i c a what)
    (hc : s.calls[i]? = some c) :
    ∃ t rest, Session.step? server s a = some t ∧
      t.calls[i]? = some { c with stage := .sending what rest (s.deadline server) } := by
  have begun : ∀ {t : Session} {rest : List UInt8}, Session.step? server s a = some t →
      t.calls = s.calls.set i { c with stage := .sending what rest (s.deadline server) } →
      ∃ t rest, Session.step? server s a = some t ∧
        t.calls[i]? = some { c with stage := .sending what rest (s.deadline server) } := by
    intro t rest hs hcalls
    exact ⟨t, rest, hs, by rw [hcalls, List.getElem?_set_self (List.getElem?_eq_some_iff.1 hc).1]⟩
  cases hb with
  | greet hn hask hw hst hp =>
    refine begun (t := { s.take i with phase := .handshaking }.sendRequest server i c .handshake)
      ?_ rfl
    simp only [Session.step?, hc, Option.bind_some, Session.poll, hn.waits, hn.free, hn.first]
    rcases hp with hp | hp <;> simp [Session.acquire, hw, hst, hp, Session.take]
  | request hn hask hw hst hp =>
    refine begun (t := (s.take i).sendRequest server i c c.ask.method) ?_ rfl
    simp [Session.step?, hc, Session.poll, hn.waits, hn.free, hn.first, Session.acquire, hw, hst,
      hp, Session.take]
  | @welcome _ _ _ body inbox _ hs hin hr =>
    refine begun (t := { s with inbox := inbox }.sendInitialized server i c) ?_ rfl
    simp [Session.step?, hc, Session.poll, hs, Session.receive, hin, hr, Session.succeed]
  | @greeted rest deadline n hs hn =>
    refine begun (t := { s with
      wire := s.wire ++ rest, writing := false, phase := .ready }.sendRequest server i c
        c.ask.method) ?_ rfl
    simp [Session.step?, hc, Session.poll, hs, Session.write, hn, Session.sent]

/-- A deadline stays what it was unless the call begins with a message. -/
theorem Session.Turn.deadline (ht : Session.Turn server s i c a t) (hc : s.calls[i]? = some c)
    (hd : t.calls[i]? = some d) (hdue : d.stage.deadline? = some due) :
    c.stage.deadline? = some due ∨ (∃ what, s.Begins i c a what) ∧ due = s.deadline server := by
  cases ht with
  | refuse | queue | stop | bounce | answer | leave | letGo =>
    obtain rfl := eq_of_set hc hd
    cases hdue
  | greet hn hask hw hst hp =>
    obtain rfl := eq_of_set hc hd
    cases hdue
    exact .inr ⟨⟨_, .greet hn hask hw hst hp⟩, rfl⟩
  | request hn hask hw hst hp =>
    obtain rfl := eq_of_set hc hd
    cases hdue
    exact .inr ⟨⟨_, .request hn hask hw hst hp⟩, rfl⟩
  | welcome hs hin hr =>
    obtain rfl := eq_of_set hc hd
    cases hdue
    exact .inr ⟨⟨_, .welcome hs hin hr⟩, rfl⟩
  | greeted hs hn =>
    obtain rfl := eq_of_set hc hd
    cases hdue
    exact .inr ⟨⟨_, .greeted hs hn⟩, rfl⟩
  | part hs | whole hs =>
    obtain rfl := eq_of_set hc hd
    rw [hs]
    exact .inl hdue
  | @stuck what | @broken what =>
    cases what <;> (obtain rfl := eq_of_set hc hd; cases hdue)
  | skip =>
    obtain rfl := Option.some.inj (hc.symm.trans hd)
    exact .inl hdue
  | fail _ hf =>
    cases hf <;> (obtain rfl := eq_of_set hc hd; cases hdue)

/-- A session that shows all its deadlines crashes just at a message whose deadline it cannot. -/
theorem crashes_iff (hs : s.overruns = false) : s.crashes server a = true ↔
    (∃ i c what, s.calls[i]? = some c ∧ s.Begins i c a what) ∧
      Duration.lastInstant < s.deadline server := by
  constructor
  · intro h
    obtain ⟨t, ht, hover⟩ := (Option.any_eq_true _ _).1 h
    obtain ⟨j, d, due, hd, hdue, hlast⟩ := overruns_eq_true_iff.1 hover
    have old : ∀ c, s.calls[j]? = some c → c.stage.deadline? ≠ some due := fun c hc he =>
      Nat.not_le.2 hlast (overruns_eq_false_iff.1 hs j c due hc he)
    -- Only the call that the input is about can have come by another deadline.
    by_cases htgt : a.target = some j
    · obtain ⟨c, hc, hturn⟩ := Session.step_turn ht htgt
      rcases hturn.deadline hc hd hdue with hdue' | ⟨⟨what, hb⟩, rfl⟩
      · exact (old c hc hdue').elim
      · exact ⟨⟨j, c, what, hc, hb⟩, hlast⟩
    · exact (old d (by rw [← step_other ht htgt, hd]) hdue).elim
  · rintro ⟨⟨i, c, what, hc, hb⟩, hlast⟩
    obtain ⟨t, rest, ht, hd⟩ := hb.step server hc
    exact (Option.any_eq_true _ _).2 ⟨t, ht, overruns_eq_true_iff.2 ⟨i, _, _, hd, rfl, hlast⟩⟩

/-! ## Sessions in which nothing is written -/

theorem mute_start (n : Nat) : (Session.start n).Mute := by
  refine ⟨rfl, rfl, fun i c hc => ?_⟩
  obtain ⟨hi, rfl⟩ := List.getElem?_eq_some_iff.1 hc
  simp only [Session.start, List.getElem_replicate]
  refine ⟨rfl, fun answer ha => ?_⟩
  cases ha

theorem Session.Mute.overruns (h : s.Mute) : s.overruns = false := by
  refine overruns_eq_false_iff.2 fun i c due hc hdue => ?_
  have hidle := (h.calls i c hc).1
  match hst : c.stage with
  | .sending .. | .receiving .. => rw [hst] at hidle; cases hidle
  | .unmade | .waiting | .finished _ | .dropped => rw [hst] at hdue; cases hdue

/-- Where no call begins with a message, nothing is written. -/
theorem Session.Mute.step (h : s.Mute) (ho : Orderly s) (hs : Session.step? server s a = some t)
    (hno : ∀ (i : Nat) (c : SessionCall) (what : Sending), s.calls[i]? = some c →
      ¬ s.Begins i c a what) : t.Mute := by
  have hcalls : ∀ (j : Nat) (d : SessionCall), t.calls[j]? = some d → d.stage.isActive = false ∧
      ∀ answer, d.stage = .finished answer → answer = d.ask.turnedAway := by
    intro j d hd
    rcases step_passed_over hs ho (fun c hc => ⟨(h.calls j c hc).1, fun what => hno j c what hc⟩) hd
      with hold | hpassed
    · exact h.calls j d hold
    · exact hpassed
  match hi : a.target with
  | some i =>
    obtain ⟨c, hc, ht⟩ := Session.step_turn hs hi
    obtain ⟨hpasses, -⟩ := ht.passed_over ho hc (fun what => hno i c what hc) (h.calls i c hc).1
    exact ⟨hpasses.wire.trans h.wire, hpasses.nextId.trans h.nextId, hcalls⟩
  | none =>
    obtain ⟨now, inbox, broken, rfl, -⟩ := Session.step_outside hs hi
    exact ⟨h.wire, h.nextId, hcalls⟩

/-! ## Runs without a crash -/

theorem advance_eq_some_iff : s.advance? server a = some t ↔
    Session.step? server s a = some t ∧ t.overruns = false := by
  unfold Session.advance?
  split
  · next hcrash =>
    obtain ⟨u, hu, hover⟩ := (Option.any_eq_true _ _).1 hcrash
    refine ⟨nofun, fun ⟨hs, hno⟩ => ?_⟩
    rw [hu] at hs
    cases hs
    rw [hover] at hno
    cases hno
  · next hcrash =>
    exact ⟨fun hs => ⟨hs, by simpa [Session.crashes, hs] using hcrash⟩, And.left⟩

theorem live_cons {as : List SessionInput} : Session.live? server s (a :: as) = some t ↔
    ∃ m, s.advance? server a = some m ∧ Session.live? server m as = some t := by
  simp [Session.live?, List.foldlM_cons, Option.bind_eq_some_iff]

/-- What every step without a crash keeps, every run without one keeps. -/
theorem live_keeps {P : Session → Prop}
    (step : ∀ {s t : Session} {a : SessionInput}, P s → s.advance? server a = some t → P t) :
    ∀ {as : List SessionInput} {s : Session}, P s → Session.live? server s as = some t → P t
  | [], _, hs, hr => by cases hr; exact hs
  | _ :: _, _, hs, hr => by
    obtain ⟨m, hm, hr⟩ := live_cons.1 hr
    exact live_keeps step (step hs hm) hr

theorem overruns_of_live {as : List SessionInput}
    (h : Session.live? server (.start n) as = some s) : s.overruns = false :=
  live_keeps (P := fun s => s.overruns = false) (fun _ hs => (advance_eq_some_iff.1 hs).2)
    (mute_start n).overruns h

/-! ## The clock -/

theorem Session.Turn.now_eq (ht : Session.Turn server s i c a t) : t.now = s.now := by
  cases ht with
  | @stuck what | @broken what => cases what <;> rfl
  | fail _ hf => cases hf <;> rfl
  | _ => rfl

theorem step_now (hs : Session.step? server s a = some t) : s.now ≤ t.now := by
  match hi : a.target with
  | some i =>
    obtain ⟨c, -, ht⟩ := Session.step_turn hs hi
    exact Nat.le_of_eq ht.now_eq.symm
  | none =>
    cases a with
    | make | poll | drop => cases hi
    | tick later =>
      simp only [Session.step?] at hs
      split at hs
      · next hle => cases hs; exact hle
      · cases hs
    | deliver | fail =>
      simp only [Session.step?] at hs
      split at hs <;> cases hs
      exact Nat.le_refl _

theorem run_now {as : List SessionInput} (h : Session.run? server s as = some t) : s.now ≤ t.now :=
  Session.run_keeps (P := fun u => s.now ≤ u.now)
    (fun _ hu hs => Nat.le_trans hu (step_now hs)) (Nat.le_refl _) h

/-- A run that ends early enough for one more deadline crashes nowhere. -/
theorem live_of_run {as : List SessionInput} (hs : s.overruns = false)
    (h : Session.run? server s as = some t) (ht : t.deadline server ≤ Duration.lastInstant) :
    Session.live? server s as = some t := by
  induction as generalizing s with
  | nil => exact h
  | cons a as ih =>
    obtain ⟨m, hm, hr⟩ := Session.run_cons.1 h
    -- The clock does not go back, so a deadline that is set now lies before the last one possible.
    have hnow : s.now ≤ t.now := Nat.le_trans (step_now hm) (run_now hr)
    have hsafe : ¬ s.crashes server a = true := by
      rw [crashes_iff hs, not_and_or, Nat.not_lt]
      simp only [Session.deadline] at ht ⊢
      exact .inr (by omega)
    have hover : m.overruns = false := by
      simpa [Session.crashes, hm] using hsafe
    exact live_cons.2 ⟨m, advance_eq_some_iff.2 ⟨hm, hover⟩, ih hover hr⟩

/-! ## Timeouts longer than the clock -/

theorem mute_of_live {as : List SessionInput} (hlong : Duration.lastInstant < server.requestTimeout)
    (h : Session.live? server (.start n) as = some s) : s.Mute := by
  refine (live_keeps (P := fun s => Orderly s ∧ s.Mute) (fun {u v a} ⟨ho, hu⟩ hs => ?_)
    ⟨orderly_start n, mute_start n⟩ h).2
  obtain ⟨hstep, hover⟩ := advance_eq_some_iff.1 hs
  refine ⟨ho.step hstep, hu.step ho hstep fun i c what hc hb => ?_⟩
  have hcrash : u.crashes server a = true := by
    refine (crashes_iff hu.overruns).2 ⟨⟨i, c, what, hc, hb⟩, ?_⟩
    simp only [Session.deadline]
    omega
  simp [Session.crashes, hstep, hover] at hcrash

/-- A session crashes at a message whose deadline lies past the last instant, and at nothing else.
Each message that begins has the whole timeout, whatever it is, so a run that ends early enough for
another one goes through, and with a timeout longer than the clock nothing is ever written. A client
of providers bounds what it waits for. -/
theorem crashes_beyond_clock {inputs : List SessionInput}
    (h : Session.live? server (.start n) inputs = some s) :
    (∀ a, s.crashes server a = true ↔
      (∃ i c what, s.calls[i]? = some c ∧ s.Begins i c a what) ∧
        Duration.lastInstant < s.now + server.requestTimeout) ∧
    (∀ i c a what, s.calls[i]? = some c → s.Begins i c a what →
      ∃ t rest, Session.step? server s a = some t ∧ t.calls[i]? =
        some { c with stage := .sending what rest (s.now + server.requestTimeout) }) ∧
    (∀ later t, Session.run? server s later = some t →
      t.now + server.requestTimeout ≤ Duration.lastInstant →
        Session.live? server s later = some t) ∧
    (Duration.lastInstant < server.requestTimeout → s.Mute) ∧
    ∀ (S : Client.Setup) (m : Nat) (others : List Client.Input) (u : Client.State),
      Client.run? S (.start S m) others = some u →
      u.now + Duration.farFuture ≤ Duration.lastInstant → Client.Shown u := by
  have hover := overruns_of_live h
  refine ⟨fun a => crashes_iff hover, fun i c a what hc hb => hb.step server hc, ?_, ?_, ?_⟩
  · exact fun later t hr ht => live_of_run hover hr ht
  · exact fun hlong => mute_of_live hlong h
  · exact fun S m others u hr hu => Client.shown_of_run hr hu

end

/-! ## Long timeouts -/

def endless : Server := { command := "endless", requestTimeout := Duration.max }

/-- With the longest timeout there is, the first listing crashes the session at its handshake. -/
theorem endless_listing_crashes : ∃ s,
    Session.live? endless (.start 1) [.make 0 .list] = some s ∧
      s.crashes endless (.poll 0 (.takes 0)) = true ∧ s.Mute := by
  have hlive : (Session.live? endless (.start 1) [.make 0 .list]).any (fun s =>
      s.crashes endless (.poll 0 (.takes 0))) = true := by decide +kernel
  obtain ⟨s, hs, hcrash⟩ := (Option.any_eq_true _ _).1 hlive
  obtain ⟨-, -, -, hmute, -⟩ := crashes_beyond_clock hs
  exact ⟨s, hs, hcrash, hmute (by decide +kernel)⟩

def patient : Server := { command := "patient", requestTimeout := Duration.lastInstant }

/-- A handshake and the answer to it. -/
def greeting (ask : Ask) : List SessionInput :=
  [.make 0 ask, .poll 0 (.takes 0), .poll 0 (.takes 1000),
    .deliver (Text.Utf8.bytesOf "\x7b\"id\":1,\"result\":\x7b\x7d\x7d")]

/-- The name of the message that is being written. -/
def Stage.message? : Stage → Option String
  | sending what _ _ => some what.name
  | unmade | waiting | receiving .. | finished _ | dropped => none

/-- After `inputs`, which take a nanosecond, the only call crashes the session when it begins with
the message `name`. -/
def crashesWith (name : String) (inputs : List SessionInput) (pipe : Pipe) : Bool :=
  (Session.live? patient (.start 1) (inputs ++ [.tick 1])).any fun s =>
    (Session.step? patient s (.poll 0 pipe)).any fun t =>
      t.overruns && t.calls.all (·.stage.message? == some name)

/-- A session crashes when a call begins with the message `name`. -/
def Overflows (server : Server) (name : String) : Prop :=
  ∃ inputs s a, Session.live? server (.start 1) inputs = some s ∧ s.crashes server a = true ∧
    ∃ i c what, s.calls[i]? = some c ∧ s.Begins i c a what ∧ what.name = name

theorem overflows_of_crashesWith {name : String} (inputs : List SessionInput) (pipe : Pipe)
    (h : crashesWith name inputs pipe = true) : Overflows patient name := by
  simp only [crashesWith, Option.any_eq_true, Bool.and_eq_true] at h
  obtain ⟨s, hs, t, ht, hover, hall⟩ := h
  have hcrash : s.crashes patient (.poll 0 pipe) = true := (Option.any_eq_true _ _).2 ⟨t, ht, hover⟩
  obtain ⟨⟨i, c, what, hc, hb⟩, -⟩ := (crashes_iff (overruns_of_live hs)).1 hcrash
  obtain ⟨t', rest, ht', hd⟩ := hb.step patient hc
  rw [ht] at ht'
  cases ht'
  have hname := List.all_eq_true.1 hall _ (List.mem_of_getElem? hd)
  exact ⟨_, s, _, hs, hcrash, i, c, what, hc, hb, by simpa [Stage.message?] using hname⟩

/-- Every message can be the one whose deadline the clock cannot show. -/
theorem every_message_overflows : patient.requestTimeout ≤ Duration.max ∧
    Overflows patient "initialize" ∧ Overflows patient "notifications/initialized" ∧
      Overflows patient "tools/list" ∧ Overflows patient "tools/call" := by
  refine ⟨by decide +kernel, ?_, ?_, ?_, ?_⟩
  · exact overflows_of_crashesWith [.make 0 .list] (.takes 0) (by decide +kernel)
  · exact overflows_of_crashesWith (greeting .list) .broken (by decide +kernel)
  · exact overflows_of_crashesWith (greeting .list ++ [.poll 0 .broken]) (.takes 1000)
      (by decide +kernel)
  · exact overflows_of_crashesWith (greeting (.call "echo" (.obj [])) ++ [.poll 0 .broken])
      (.takes 1000) (by decide +kernel)

end Switchboard.Tools
