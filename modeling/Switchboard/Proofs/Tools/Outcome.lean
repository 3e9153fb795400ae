import Switchboard.Proofs.Tools.Refusal

/-!
# What a call leaves behind

How a call ends decides what becomes of the session. Once the handshake has succeeded (`Greeted`),
an answer, a refusal, a text that is no message and a request that is not answered in time leave the
connection as it was; all else closes the session. Before that everything closes it, except that a
handshake that is not answered in time may be made again (`Session.Turn.ends`).
`call_leaves_session` says so of all sessions that can be reached.
-/

namespace Switchboard.Tools

/-- The handshake has succeeded: at some step the notification that ends it was written to its
end. -/
def Greeted (server : Server) (n : Nat) (inputs : List SessionInput) : Prop :=
  ∃ before after i pipe s t c rest deadline, inputs = before ++ .poll i pipe :: after ∧
    Session.run? server (.start n) before = some s ∧
    Session.step? server s (.poll i pipe) = some t ∧ s.calls[i]? = some c ∧
    c.stage = .sending .initialized rest deadline ∧ t.wire = s.wire ++ rest

/-- A call was given up in the middle of writing a frame. -/
def CutShort (server : Server) (n : Nat) (inputs : List SessionInput) : Prop :=
  ∃ before after i s c what rest deadline, inputs = before ++ .drop i :: after ∧
    Session.run? server (.start n) before = some s ∧ s.calls[i]? = some c ∧
    c.stage = .sending what rest deadline

/-- A request that was written to its end is not answered in time. -/
def Stage.lapses : Stage → Except ToolError Reply → Bool
  | .receiving .., .error (.timeout _ _) => true
  | _, _ => false

/-- A request for tools in this stage that ends so does the connection no harm. -/
def Stage.spares (stage : Stage) : Except ToolError Reply → Bool
  | .ok _ | .error (.rpc _ _) | .error .json => true
  | answer => stage.lapses answer

section
variable {server : Server} {s t : Session} {i n : Nat} {c d : SessionCall} {a : SessionInput}
  {answered : Nat → Prop} {inputs : List SessionInput} {m : Method} {id deadline : Nat}

/-! ## Handshakes that succeed -/

/-- A frame that is not written to its end in time closes the session and fails its call. -/
theorem stuck_frame (server : Server) (s : Session) (i : Nat) (c : SessionCall) (what : Sending)
    (bytes : List UInt8) :
    (Session.unsent { s with wire := bytes, phase := .closed } i c
        (.timeout what.name server.requestTimeout) what).phase = .closed ∧
      (Session.unsent { s with wire := bytes, phase := .closed } i c
        (.timeout what.name server.requestTimeout) what).calls = s.calls.set i
          { c with stage := .finished (.error (.timeout what.name server.requestTimeout)) } := by
  obtain ⟨hp, -, -, -, hcalls⟩ := unsent_frame { s with wire := bytes, phase := .closed } i c
    (.timeout what.name server.requestTimeout) what (.inl rfl)
  exact ⟨hp, hcalls⟩

/-- So does a frame that cannot be written. -/
theorem broken_frame (s : Session) (i : Nat) (c : SessionCall) (what : Sending) :
    (Session.unsent { s with writing := false } i c (.io "Broken pipe (os error 32)")
        what).phase = .closed ∧
      (Session.unsent { s with writing := false } i c (.io "Broken pipe (os error 32)")
        what).calls = s.calls.set i
          { c with stage := .finished (.error (.io "Broken pipe (os error 32)")) } := by
  obtain ⟨hp, -, -, -, hcalls⟩ := unsent_frame { s with writing := false } i c
    (.io "Broken pipe (os error 32)") what (.inr ⟨_, rfl⟩)
  exact ⟨hp, hcalls⟩

theorem Writes.phase_eq {ask : Ask} {phase : SessionPhase} {nextId : Nat} {what : Sending}
    {msgs : List Sent} {next : Sent} (h : Writes answered ask phase nextId what msgs next) :
    phase = .handshaking ∨ phase = .ready := by
  cases h with
  | hello | settled => exact .inl rfl
  | tools => exact .inr rfl

theorem Waits.phase_eq {ask : Ask} {phase : SessionPhase} {nextId : Nat} {msgs : List Sent}
    (h : Waits answered ask phase nextId m id msgs) :
    m = .handshake ∧ phase = .handshaking ∨ m ≠ .handshake ∧ phase = .ready := by
  cases h with
  | hello => exact .inl ⟨rfl, rfl⟩
  | tools => exact .inr ⟨by cases ask <;> nofun, rfl⟩

theorem Kept.phase_of_active (h : Kept answered server s) (hc : s.calls[i]? = some c)
    (hact : c.stage.isActive = true) : s.phase = .handshaking ∨ s.phase = .ready := by
  match hs : c.stage with
  | .sending what rest deadline =>
    obtain ⟨-, -, -, _, _, _, hw, -⟩ := h.of_sending hc hs
    exact hw.phase_eq
  | .receiving m id deadline =>
    obtain ⟨-, -, -, _, hw, -⟩ := h.of_receiving hc hs
    exact hw.phase_eq.imp And.right And.right
  | .unmade | .waiting | .finished _ | .dropped => rw [hs] at hact; cases hact

/-- A session gets ready only where a handshake ends. -/
theorem Session.Turn.ready (ht : Session.Turn server s i c a t) (hp : t.phase = .ready) :
    s.phase = .ready ∨ ∃ pipe rest deadline, a = .poll i pipe ∧
      c.stage = .sending .initialized rest deadline ∧ t.wire = s.wire ++ rest := by
  cases ht with
  | stop | bounce | greet => cases hp
  | greeted hs => exact .inr ⟨_, _, _, rfl, hs, rfl⟩
  | stuck =>
    rw [(stuck_frame server s i c _ _).1] at hp
    cases hp
  | broken =>
    rw [(broken_frame s i c _).1] at hp
    cases hp
  | @fail m _ _ _ e s' _ hf =>
    have hs' : s'.phase = s.phase := by cases hf <;> rfl
    rcases fail_phase s' i c m e with hp' | hp' | ⟨-, hp'⟩ <;> rw [hp'] at hp
    · cases hp
    · exact .inl (hs' ▸ hp)
    · cases hp
  | _ => exact .inl hp

/-- A session that is ready stays so or is closed. -/
theorem Session.Turn.phase_of_ready (ht : Session.Turn server s i c a t) (hp : s.phase = .ready) :
    t.phase = .ready ∨ t.phase = .closed := by
  cases ht with
  | stop | bounce => exact .inr rfl
  | greet _ _ _ _ hp' => rw [hp] at hp'; rcases hp' with hp' | hp' <;> cases hp'
  | greeted => exact .inl rfl
  | stuck => exact .inr (stuck_frame server s i c _ _).1
  | broken => exact .inr (broken_frame s i c _).1
  | @fail m _ _ _ e s' _ hf =>
    have hs' : s'.phase = s.phase := by cases hf <;> rfl
    rcases fail_phase s' i c m e with hp' | hp' | ⟨hp', -⟩
    · exact .inr hp'
    · exact .inl (hp'.trans (hs'.trans hp))
    · rw [hs', hp] at hp'
      cases hp'
  | _ => exact .inl hp

/-- The notification was written to its end, so the session is ready. -/
theorem Session.Turn.ready_of_written {rest : List UInt8} {pipe : Pipe}
    (ht : Session.Turn server s i c (.poll i pipe) t)
    (hs : c.stage = .sending .initialized rest deadline) (hne : rest ≠ [])
    (hw : t.wire = s.wire ++ rest) : t.phase = .ready := by
  have cut : ∀ {k : Nat}, k < rest.length → s.wire ++ rest.take k ≠ s.wire ++ rest := by
    intro k hk he
    have hlen := congrArg List.length (List.append_cancel_left he)
    rw [List.length_take] at hlen
    omega
  cases ht with
  | greeted => rfl
  | part hs' _ hlt | stuck hs' hlt =>
    rw [hs] at hs'
    cases hs'
    exact absurd hw (cut hlt)
  | broken hs' =>
    rw [hs] at hs'
    cases hs'
    exact absurd (List.append_right_eq_self.1 hw.symm) hne
  | stop hn | bounce hn | greet hn | request hn => rw [hn.waits] at hs; cases hs
  | whole hs' | skip hs' | welcome hs' | answer hs' | fail hs' => rw [hs] at hs'; cases hs'

theorem greeted_of_ready (h : Session.run? server (.start n) inputs = some s)
    (hp : s.phase = .ready) : Greeted server n inputs := by
  suffices key : Session.run? server (.start n) inputs = some s ∧
      (s.phase = .ready → Greeted server n inputs) from key.2 hp
  refine run_history (P := fun as u => Session.run? server (.start n) as = some u ∧
    (u.phase = .ready → Greeted server n as)) ⟨rfl, nofun⟩ ?_ h
  rintro as a u v ⟨hu, hready⟩ hs
  refine ⟨run_concat.2 ⟨u, hu, hs⟩, fun hp => ?_⟩
  have earlier : u.phase = .ready → Greeted server n (as ++ [a]) := by
    intro hp
    obtain ⟨before, after, i, pipe, s, t, c, rest, deadline, rfl, hrest⟩ := hready hp
    exact ⟨before, after ++ [a], i, pipe, s, t, c, rest, deadline, by simp, hrest⟩
  match hi : a.target with
  | some i =>
    obtain ⟨c, hc, ht⟩ := Session.step_turn hs hi
    rcases ht.ready hp with hp | ⟨pipe, rest, deadline, rfl, hst, hw⟩
    · exact earlier hp
    · exact ⟨as, [], i, pipe, u, v, c, rest, deadline, rfl, hu, hs, hc, hst, hw⟩
  | none =>
    obtain ⟨now, inbox, broken, rfl, -⟩ := Session.step_outside hs hi
    exact earlier hp

theorem phase_of_greeted (hg : Greeted server n inputs)
    (h : Session.run? server (.start n) inputs = some s) :
    s.phase = .ready ∨ s.phase = .closed := by
  obtain ⟨before, after, i, pipe, u, v, c, rest, deadline, rfl, hu, hs, hc, hst, hw⟩ := hg
  obtain ⟨u', hu', hr⟩ := run_append.1 h
  obtain rfl := Option.some.inj (hu.symm.trans hu')
  obtain ⟨v', hs', hr⟩ := Session.run_cons.1 hr
  obtain rfl := Option.some.inj (hs.symm.trans hs')
  have hk := kept_of_run hu
  obtain ⟨-, -, -, _, _, _, -, -, hne, -⟩ := hk.of_sending hc hst
  obtain ⟨c', hc', ht⟩ := Session.step_turn hs rfl
  obtain rfl := Option.some.inj (hc.symm.trans hc')
  refine (Session.run_keeps (P := fun u => Kept (fun _ => True) server u ∧ Orderly u ∧
    (u.phase = .ready ∨ u.phase = .closed)) (fun {u v a} _ hu hs => ?_)
    ⟨hk.next hs, (orderly_of_run hu).step hs,
      .inl (ht.ready_of_written hst hne hw)⟩ hr).2.2
  obtain ⟨hk, ho, hp⟩ := hu
  refine ⟨hk.next hs, ho.step hs, ?_⟩
  rcases hp with hp | hp
  · match hi : a.target with
    | some i =>
      obtain ⟨c, hc, ht⟩ := Session.step_turn hs hi
      exact ht.phase_of_ready hp
    | none =>
      obtain ⟨now, inbox, broken, rfl, -⟩ := Session.step_outside hs hi
      exact .inl hp
  · exact .inr (((hk.spent_of_closed hp).outlasts_step ho hs).closed hp)

/-! ## Calls that end -/

theorem fail_tools (s : Session) (i : Nat) (c : SessionCall) (e : ToolError) (hm : m ≠ .handshake) :
    (s.fail i c m e).phase = if e.isFatal then .closed else s.phase := by
  cases m with
  | handshake => exact absurd rfl hm
  | toolsList | toolsCall => rfl

theorem fail_hello {stage : Stage} (s : Session) (i : Nat) (c : SessionCall) (e : ToolError)
    (hp : s.phase = .handshaking) (hs : stage = .receiving m id deadline) :
    (s.fail i c .handshake e).phase =
      if stage.lapses (.error e) = true then .fresh else .closed := by
  subst hs
  cases e with
  | timeout => exact if_pos hp
  | _ => rfl

theorem replyOf_spared (stage : Stage) (ask : Ask) (result : Json) :
    stage.spares (Session.replyOf ask result) = true := by
  unfold Session.replyOf
  split
  · rfl
  · split <;> rfl
  · split <;> rfl

theorem read_error {body : List UInt8} {e : ToolError}
    (h : Session.read m id body = some (.error e)) :
    e = .json ∨ ∃ payload, e = .rpc m.name payload := by
  unfold Session.read at h
  split at h
  · cases h
    exact .inl rfl
  · split at h
    · split at h <;> cases h
      exact .inr ⟨_, rfl⟩
    · cases h

/-- Where a call waits, no error but those that do no harm leave the connection open. -/
theorem spares_eq_not_isFatal {e : ToolError} {s' : Session}
    (hf : Session.Failing server s m id deadline e s') (hm : m ≠ .handshake)
    (hb : ∀ e, s.broken = some e → e.isFatal = true) :
    (Stage.receiving m id deadline).spares (.error e) = !e.isFatal := by
  cases hf with
  | refused _ hread => rcases read_error hread with rfl | ⟨payload, rfl⟩ <;> rfl
  | blank hm' => exact absurd hm' hm
  | lost _ hbroken =>
    have hfatal := hb _ hbroken
    cases e <;> first | rfl | cases hfatal
  | late => rfl

/-- What becomes of a session whose call ends while it has its turn. -/
theorem Session.Turn.ends {answer : Except ToolError Reply} (ht : Session.Turn server s i c a t)
    (hk : Kept answered server s) (hb : ∀ e, s.broken = some e → e.isFatal = true)
    (hc : s.calls[i]? = some c) (hact : c.stage.isActive = true) (hd : t.calls[i]? = some d)
    (hf : d.stage = .finished answer) :
    (s.phase = .ready ∧ t.phase = if c.stage.spares answer then .ready else .closed) ∨
      (s.phase = .handshaking ∧ (∃ e, answer = .error e) ∧
        t.phase = if c.stage.lapses answer then .fresh else .closed) := by
  have phase := hk.phase_of_active hc hact
  cases ht with
  | refuse hs | queue hs | leave hs => rw [hs] at hact; cases hact
  | stop hn | bounce hn | greet hn | request hn => rw [hn.waits] at hact; cases hact
  | part | whole | greeted | welcome | letGo =>
    obtain rfl := eq_of_set hc hd
    cases hf
  | skip hs =>
    rw [show d = c from Option.some.inj (hd.symm.trans hc), hs] at hf
    cases hf
  | stuck hs =>
    obtain ⟨hp, hcalls⟩ := stuck_frame server s i c _ _
    rw [hcalls] at hd
    obtain rfl := eq_of_set hc hd
    cases hf
    rw [hp, hs]
    exact phase.symm.imp (⟨·, rfl⟩) (⟨·, ⟨_, rfl⟩, rfl⟩)
  | broken hs =>
    obtain ⟨hp, hcalls⟩ := broken_frame s i c _
    rw [hcalls] at hd
    obtain rfl := eq_of_set hc hd
    cases hf
    rw [hp, hs]
    exact phase.symm.imp (⟨·, rfl⟩) (⟨·, ⟨_, rfl⟩, rfl⟩)
  | @answer m id _ _ _ _ _ hs hm =>
    obtain rfl := eq_of_set hc hd
    cases hf
    obtain ⟨-, -, -, _, hw, -⟩ := hk.of_receiving hc hs
    obtain ⟨hm', -⟩ | ⟨-, hp⟩ := hw.phase_eq
    · exact absurd hm' hm
    · refine .inl ⟨hp, ?_⟩
      rw [replyOf_spared]
      exact hp
  | @fail m id deadline _ e s' hs hfail =>
    have hcalls : s'.calls = s.calls := by cases hfail <;> rfl
    have hphase : s'.phase = s.phase := by cases hfail <;> rfl
    have hd' : (s.calls.set i { c with stage := .finished (.error e) })[i]? = some d := by
      rw [← hcalls]
      exact hd
    obtain rfl := eq_of_set hc hd'
    cases hf
    obtain ⟨-, -, -, _, hw, -⟩ := hk.of_receiving hc hs
    obtain ⟨rfl, hp⟩ | ⟨hm, hp⟩ := hw.phase_eq
    · exact .inr ⟨hp, ⟨e, rfl⟩, fail_hello s' i c e (hphase.trans hp) hs⟩
    · refine .inl ⟨hp, ?_⟩
      rw [fail_tools s' i c e hm, hs, spares_eq_not_isFatal hfail hm hb, hphase, hp]
      cases e.isFatal <;> rfl

/-! ## Handshakes that are made again -/

theorem Session.Turn.writing_of_fresh (ht : Session.Turn server s i c a t)
    (hk : Kept answered server s) (hc : s.calls[i]? = some c)
    (h : s.phase = .fresh → s.writing = false) (hp : t.phase = .fresh) : t.writing = false := by
  have active : c.stage.isActive = true → s.phase ≠ .fresh := by
    intro hact he
    rcases hk.phase_of_active hc hact with hp | hp <;> rw [he] at hp <;> cases hp
  cases ht with
  | refuse | queue | leave | skip => exact h hp
  | stop | bounce | greet | greeted => cases hp
  | request _ _ _ _ hp' =>
    rw [show s.phase = .fresh from hp] at hp'
    cases hp'
  | part hs => exact absurd hp (active (by rw [hs]; rfl))
  | whole => rfl
  | stuck =>
    rw [(stuck_frame server s i c _ _).1] at hp
    cases hp
  | @broken what => cases what <;> rfl
  | welcome hs => exact absurd hp (active (by rw [hs]; rfl))
  | answer hs => exact (hk.of_receiving hc hs).2.2.1
  | fail hs hf => cases hf <;> exact (hk.of_receiving hc hs).2.2.1
  | letGo hact => exact absurd hp (active hact)

/-- Nothing is begun in a session that is as good as new. -/
theorem writing_of_fresh (h : Session.run? server (.start n) inputs = some s)
    (hp : s.phase = .fresh) : s.writing = false := by
  refine (Session.run_keeps (P := fun u => Kept (fun _ => True) server u ∧
    (u.phase = .fresh → u.writing = false)) (fun {u v a} _ hu hs => ?_)
    ⟨kept_start _ server n, fun _ => rfl⟩ h).2 hp
  refine ⟨hu.1.next hs, ?_⟩
  match hi : a.target with
  | some i =>
    obtain ⟨c, hc, ht⟩ := Session.step_turn hs hi
    exact ht.writing_of_fresh hu.1 hc hu.2
  | none =>
    obtain ⟨now, inbox, broken, rfl, -⟩ := Session.step_outside hs hi
    exact hu.2

/-- Only the next call in line changes a session that is as good as new. -/
theorem step_of_fresh (hk : Kept answered server s) (hp : s.phase = .fresh)
    (hs : Session.step? server s a = some t) :
    (t.phase = .fresh ∧ t.nextId = s.nextId ∧ t.wire = s.wire) ∨
      ∃ i pipe c, a = .poll i pipe ∧ s.calls[i]? = some c ∧ s.Next i c := by
  match hi : a.target with
  | none =>
    obtain ⟨now, inbox, broken, rfl, -⟩ := Session.step_outside hs hi
    exact .inl ⟨hp, rfl, rfl⟩
  | some i =>
    obtain ⟨c, hc, ht⟩ := Session.step_turn hs hi
    have idle : c.stage.isActive ≠ true := by
      intro hact
      rcases hk.phase_of_active hc hact with hp' | hp' <;> rw [hp] at hp' <;> cases hp'
    cases ht with
    | refuse | queue | leave => exact .inl ⟨hp, rfl, rfl⟩
    | stop hn | bounce hn | greet hn | request hn => exact .inr ⟨_, _, _, rfl, hc, hn⟩
    | part hc' | whole hc' | greeted hc' | stuck hc' | broken hc' =>
      exact absurd (by rw [hc']; rfl) idle
    | skip hc' | welcome hc' | answer hc' | fail hc' => exact absurd (by rw [hc']; rfl) idle
    | letGo hact => exact absurd hact idle

/-- The next call in line makes the handshake where it was not made or has to be made again. -/
theorem poll_fresh (hc : s.calls[i]? = some c) (hn : s.Next i c) (hp : s.phase = .fresh)
    (hw : s.writing = false) (hst : s.stopping = false) (hask : c.ask ≠ .shutdown) (pipe : Pipe) :
    Session.step? server s (.poll i pipe) =
      some ({ s.take i with phase := .handshaking }.sendRequest server i c .handshake) := by
  have hstep : Session.step? server s (.poll i pipe) = some (s.acquire server i c) := by
    simp [Session.step?, hc, Session.poll, hn.waits, hn.free, hn.first]
  rw [hstep]
  have hturn : Session.Turn server s i c (.poll i pipe) (s.acquire server i c) :=
    Session.turn_acquire hn
  generalize s.acquire server i c = t at hturn
  cases hturn with
  | stop _ h => exact absurd h hask
  | bounce _ _ hb =>
    have hclosed := Session.Barred.closed hb hw hst
    rw [hp] at hclosed
    cases hclosed
  | greet => rfl
  | request _ _ _ _ h => rw [hp] at h; cases h
  | part hs | whole hs | greeted hs | stuck hs | broken hs => rw [hn.waits] at hs; cases hs
  | skip hs | welcome hs | answer hs | fail hs => rw [hn.waits] at hs; cases hs

/-- The id of every request that was made has been used up. -/
theorem Asks.lt_nextId {pending : List (List UInt8)} (ha : Asks server n inputs i m id pending)
    (h : Session.run? server (.start n) inputs = some s) : id < s.nextId := by
  obtain ⟨before, after, u, c, deadline, rfl, hu, hc, hst, rfl⟩ := ha
  obtain ⟨u', hu', hr⟩ := run_append.1 h
  obtain rfl := Option.some.inj (hu.symm.trans hu')
  exact (((kept_of_run hu).owned hc hst).run hr).used

/-! ## Calls that are given up -/

theorem spent_of_cutShort (hcut : CutShort server n inputs)
    (h : Session.run? server (.start n) inputs = some s) : Spent s := by
  obtain ⟨before, after, i, u, c, what, rest, deadline, rfl, hu, hc, hst⟩ := hcut
  obtain ⟨u', hu', hr⟩ := run_append.1 h
  obtain rfl := Option.some.inj (hu.symm.trans hu')
  obtain ⟨v, hs, hr⟩ := Session.run_cons.1 hr
  have hk := kept_of_run hu
  have hdrop : v = { u with holder := none }.setStage i c .dropped := by
    simpa [Session.step?, hc, Session.drop, hst] using hs.symm
  have hwriting : v.writing = true := by
    rw [hdrop]
    exact (hk.of_sending hc hst).2.2.1
  have hsealed : Sealed v :=
    (hk.next hs).sealed (hdrop ▸ rfl) (.inl hwriting)
  have hv : Spent v := ⟨.inl hwriting, hsealed.idle⟩
  exact (hv.outlasts ((orderly_of_run hu).step hs) hr).spent

/-! ## All sessions -/

theorem make_refused {tool : String} {arguments : Json} (hc : s.calls[i]? = some c)
    (hun : c.stage = .unmade) (hobj : ∀ members, arguments ≠ .obj members)
    (hnull : arguments ≠ .null) :
    Session.step? server s (.make i (.call tool arguments)) = some { s with
      calls := s.calls.set i ⟨.call tool arguments, .finished (.error (.invalidArguments
        ("expected a JSON object, got " ++ arguments.compact)))⟩ } := by
  have hargs : Session.checkArguments (.call tool arguments) = .error (.invalidArguments
      ("expected a JSON object, got " ++ arguments.compact)) := by
    cases arguments with
    | null => exact absurd rfl hnull
    | obj members => exact absurd rfl (hobj members)
    | _ => rfl
  simp [Session.step?, hc, Session.make, hun, hargs, Session.setStage]

theorem Kept.turns_all_away (hk : Kept answered server s) (ho : Orderly s) (hspent : Spent s)
    (hask : ∀ (i : Nat) (c : SessionCall), s.calls[i]? = some c → c.ask ≠ .shutdown)
    (pipe : Pipe) :
    ∃ t, Session.run? server s (s.queue.map fun i => .poll i pipe) = some t ∧
      ∀ (i : Nat) (c : SessionCall), s.calls[i]? = some c → c.stage = .waiting →
        t.calls[i]? = some { c with stage := .finished (.error .closed) } := by
  obtain ⟨t, ht, -, -, -, -, hended, -⟩ :=
    drain pipe ho hspent.barred (hk.free_of_idle hspent.idle)
  refine ⟨t, ht, fun i c hc hw => ?_⟩
  rw [hended i c ((ho.waits i).2 ⟨c, hc, hw⟩) hc,
    turnedAway_eq_closed (ho.checked i c hc hw) (hask i c hc)]

theorem phase_of_ended {answer : Except ToolError Reply} (hb : Breaks inputs)
    (h : Session.run? server (.start n) inputs = some s) (hs : Session.step? server s a = some t)
    (hc : s.calls[i]? = some c) (hact : c.stage.isActive = true) (hd : t.calls[i]? = some d)
    (hf : d.stage = .finished answer) :
    (Greeted server n inputs → t.phase = if c.stage.spares answer then .ready else .closed) ∧
      (¬ Greeted server n inputs → (∃ e, answer = .error e) ∧
        t.phase = if c.stage.lapses answer then .fresh else .closed) := by
  have htgt : a.target = some i := by
    by_contra hne
    rw [step_other hs hne, hc] at hd
    cases hd
    rw [hf] at hact
    cases hact
  obtain ⟨c', hc', ht⟩ := Session.step_turn hs htgt
  obtain rfl := Option.some.inj (hc.symm.trans hc')
  rcases ht.ends (kept_of_run h) (Fed.run hb h).broken hc hact hd hf with ⟨hp, ht⟩ | ⟨hp, he, ht⟩
  · exact ⟨fun _ => ht, fun hng => absurd (greeted_of_ready h hp) hng⟩
  · refine ⟨fun hg => ?_, fun _ => ⟨he, ht⟩⟩
    rcases phase_of_greeted hg h with hp' | hp' <;> rw [hp] at hp' <;> cases hp'

/-- In a session that was not asked to stop:
a call of a tool whose arguments are neither an object nor `null` is refused and changes nothing;
a session that is closed, or in which a frame was left unfinished, exchanges nothing with the server
any more, turns every call away and stays closed;
a call that ends in its turn leaves the session as `Stage.spares` and `Stage.lapses` say;
and one that is as good as new stays so until the next call makes the handshake, under an id that no
request had before. -/
theorem call_leaves_session (hb : Breaks inputs) (hno : ∀ i, .make i .shutdown ∉ inputs)
    (h : Session.run? server (.start n) inputs = some s) :
    (∀ (i : Nat) (c : SessionCall) tool arguments, s.calls[i]? = some c → c.stage = .unmade →
      (∀ members, arguments ≠ .obj members) → arguments ≠ .null →
      Session.step? server s (.make i (.call tool arguments)) = some { s with
        calls := s.calls.set i ⟨.call tool arguments, .finished (.error (.invalidArguments
          ("expected a JSON object, got " ++ arguments.compact)))⟩ }) ∧
    (s.phase = .closed ∨ CutShort server n inputs →
      (∀ later t, Session.run? server s later = some t →
        t.wire = s.wire ∧ t.nextId = s.nextId ∧ t.inbox = s.inbox ++ arrivals later ∧
        (s.phase = .closed → t.phase = .closed) ∧
        ∀ (i : Nat) (c d : SessionCall) answer, s.calls[i]? = some c → c.stage.answer? = none →
          t.calls[i]? = some d → d.stage = .finished answer → answer = d.ask.turnedAway) ∧
      ∀ pipe, ∃ t, Session.run? server s (s.queue.map fun i => .poll i pipe) = some t ∧
        ∀ (i : Nat) (c : SessionCall), s.calls[i]? = some c → c.stage = .waiting →
          t.calls[i]? = some { c with stage := .finished (.error .closed) }) ∧
    (∀ a t (i : Nat) (c d : SessionCall) answer, Session.step? server s a = some t →
      s.calls[i]? = some c → c.stage.isActive = true → t.calls[i]? = some d →
      d.stage = .finished answer →
      (Greeted server n inputs → t.phase = if c.stage.spares answer then .ready else .closed) ∧
      (¬ Greeted server n inputs → (∃ e, answer = .error e) ∧
        t.phase = if c.stage.lapses answer then .fresh else .closed)) ∧
    (s.phase = .fresh →
      (∀ i m id pending, Asks server n inputs i m id pending → id < s.nextId) ∧
      (∀ a t, Session.step? server s a = some t →
        (t.phase = .fresh ∧ t.nextId = s.nextId ∧ t.wire = s.wire) ∨
        ∃ (i : Nat) (pipe : Pipe) (c : SessionCall), a = .poll i pipe ∧ s.calls[i]? = some c ∧
          s.Next i c) ∧
      ∀ (i : Nat) (c : SessionCall) pipe, s.calls[i]? = some c → s.Next i c →
        ∃ t, Session.step? server s (.poll i pipe) = some t ∧ t.phase = .handshaking ∧
          t.nextId = s.nextId + 1 ∧ t.calls[i]? = some { c with
            stage := .sending (.request .handshake s.nextId)
              (Session.frameOf (requestJson s.nextId Method.handshake.name
                (Session.handshakeParams server))) (s.deadline server) }) := by
  have hk := kept_of_run h
  have ho := orderly_of_run h
  have hst : s.stopping = false := by
    rw [stopping_of_run h, List.any_eq_false]
    intro a ha hstop
    unfold SessionInput.stops at hstop
    split at hstop
    · exact hno _ ha
    · cases hstop
  have hask : ∀ (i : Nat) (c : SessionCall), s.calls[i]? = some c → c.ask ≠ .shutdown := by
    intro i c hc he
    have hstops := ho.stops i c hc he
    rw [hst] at hstops
    cases hstops
  refine ⟨fun i c tool arguments => make_refused, fun hend => ?_,
    fun a t i c d answer => phase_of_ended hb h, fun hp => ⟨fun i m id pending ha => ha.lt_nextId h,
    fun a t hs => step_of_fresh hk hp hs, fun i c pipe hc hn => ?_⟩⟩
  · have hspent : Spent s := hend.elim hk.spent_of_closed (spent_of_cutShort · h)
    refine ⟨fun later t hr => ?_, hk.turns_all_away ho hspent hask⟩
    have hout := hspent.outlasts ho hr
    exact ⟨hout.wire, hout.nextId, hout.inbox, hout.closed, fun i c d answer =>
      hout.turned_away hspent⟩
  · refine ⟨_, poll_fresh hc hn hp (writing_of_fresh h hp) hst (hask i c hc) pipe, rfl, rfl, ?_⟩
    exact List.getElem?_set_self (List.getElem?_eq_some_iff.1 hc).1

end

/-- The handshake is not answered in time, while a second call waits. -/
def lateHandshake : List SessionInput :=
  [.make 0 .list, .make 1 .list, .poll 0 (.takes 0), .poll 0 (.takes 1000),
    .tick (Duration.ofSecs 15), .poll 0 .broken]

theorem next_call_greets_again : ∃ s t d,
    Session.run? clerk (.start 2) lateHandshake = some s ∧ s.phase = .fresh ∧
      Session.step? clerk s (.poll 1 (.takes 0)) = some t ∧ t.calls[1]? = some d ∧
      (∃ rest deadline, d.stage = .sending (.request .handshake 2) rest deadline) ∧
      ∀ i m id pending, Asks clerk 2 lateHandshake i m id pending → id < 2 := by
  have check : ((Session.run? clerk (.start 2) lateHandshake).any fun s =>
      s.phase == .fresh && s.nextId == 2 && s.holder.isNone && s.queue.head? == some 1 &&
        s.calls[1]?.any fun c => c.stage matches .waiting) = true := by decide +kernel
  simp only [Option.any_eq_true, Bool.and_eq_true, beq_iff_eq] at check
  obtain ⟨s, hs, ⟨⟨⟨hp, hid⟩, hfree⟩, hfirst⟩, c, hc, hw⟩ := check
  have hn : s.Next 1 c := by
    refine ⟨?_, Option.isNone_iff_eq_none.1 hfree, hfirst⟩
    cases hst : c.stage <;> first | rfl | (rw [hst] at hw; cases hw)
  have hb : Breaks lateHandshake := by
    intro e he
    simp [lateHandshake] at he
  have hno : ∀ i, .make i .shutdown ∉ lateHandshake := by
    intro i hm
    simp [lateHandshake] at hm
  obtain ⟨hused, -, hgreet⟩ := (call_leaves_session hb hno hs).2.2.2 hp
  obtain ⟨t, ht, -, -, hd⟩ := hgreet 1 c (.takes 0) hc hn
  rw [hid] at hd hused
  exact ⟨s, t, _, hs, hp, ht, hd, ⟨_, _, rfl⟩, hused⟩

end Switchboard.Tools
