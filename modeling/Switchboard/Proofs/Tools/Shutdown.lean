import Switchboard.Proofs.Tools.Refusal

/-!
# Shutdowns

Who asks for a shutdown sets a flag at once and then waits for the turn like any other call. From
the flag on no call is let through, whatever becomes of the one that has its turn, even if that one
leaves the session ready. A shutdown that has returned has closed the session for good
(`closed_of_stopped`). With the server gone the call that has its turn ends, and then everybody gets
an answer (`winds_up`). `shutdown_is_final` says so of all sessions that can be reached.
-/

namespace Switchboard.Tools

section
variable {server : Server} {s t : Session} {i n : Nat} {c d : SessionCall} {a : SessionInput}
  {answered : Nat → Prop} {inputs : List SessionInput}

/-! ## Shutdowns that have returned -/

theorem Kept.ask_of_active (h : Kept answered server s) (hc : s.calls[i]? = some c)
    (hact : c.stage.isActive = true) : c.ask ≠ .shutdown := by
  match hs : c.stage with
  | .sending what rest deadline => exact (h.of_sending hc hs).1
  | .receiving m id deadline => exact (h.of_receiving hc hs).1
  | .unmade | .waiting | .finished _ | .dropped => rw [hs] at hact; cases hact

/-- A call goes on asking for what it was made for. -/
theorem Session.Turn.ask_eq (ht : Session.Turn server s i c a t) (hc : s.calls[i]? = some c)
    (hmade : c.stage ≠ .unmade) (hd : t.calls[i]? = some d) : d.ask = c.ask := by
  have kept : ∀ {stage : Stage}, (s.calls.set i { c with stage := stage })[i]? = some d →
      d.ask = c.ask := by
    intro stage hd
    rw [eq_of_set hc hd]
  cases ht with
  | refuse hun | queue hun => exact absurd hun hmade
  | skip => rw [Option.some.inj (hd.symm.trans hc)]
  | @stuck what | @broken what => cases what <;> exact kept hd
  | fail _ hf => cases hf <;> exact kept hd
  | _ => exact kept hd

theorem Session.Turn.stopped {answer : Except ToolError Reply}
    (ht : Session.Turn server s i c a t) (hk : Kept answered server s)
    (hc : s.calls[i]? = some c) (hd : t.calls[i]? = some d) (hask : d.ask = .shutdown)
    (hf : d.stage = .finished answer) : answer = .ok .stopped ∧ t.phase = .closed := by
  by_cases hact : c.stage.isActive = true
  · have hmade : c.stage ≠ .unmade := by
      intro hun
      rw [hun] at hact
      cases hact
    exact absurd ((ht.ask_eq hc hmade hd).symm.trans hask) (hk.ask_of_active hc hact)
  · cases ht with
    | refuse _ hargs =>
      obtain rfl := eq_of_set hc hd
      cases hask
      cases hargs
    | stop =>
      obtain rfl := eq_of_set hc hd
      cases hf
      exact ⟨rfl, rfl⟩
    | bounce _ hne =>
      obtain rfl := eq_of_set hc hd
      exact absurd hask hne
    | queue | greet | request | leave | letGo =>
      obtain rfl := eq_of_set hc hd
      cases hf
    | part hs | whole hs | greeted hs | stuck hs | broken hs => exact absurd (by rw [hs]; rfl) hact
    | skip hs | welcome hs | answer hs | fail hs => exact absurd (by rw [hs]; rfl) hact

/-- A shutdown that has returned has closed the session. -/
theorem closed_of_stopped {answer : Except ToolError Reply}
    (h : Session.run? server (.start n) inputs = some s) (hc : s.calls[i]? = some c)
    (hask : c.ask = .shutdown) (hf : c.stage = .finished answer) :
    answer = .ok .stopped ∧ s.phase = .closed := by
  refine (Session.run_keeps (P := fun u => Kept (fun _ => True) server u ∧ Orderly u ∧
    ∀ (j : Nat) (d : SessionCall) answer, u.calls[j]? = some d → d.ask = .shutdown →
      d.stage = .finished answer → answer = .ok .stopped ∧ u.phase = .closed)
    (fun {u v a} _ hu hs => ?_) ⟨kept_start _ server n, orderly_start n, ?_⟩ h).2.2
    i c answer hc hask hf
  · obtain ⟨hk, ho, hstopped⟩ := hu
    refine ⟨hk.next hs, ho.step hs, fun j d answer hd hask hf => ?_⟩
    by_cases htgt : a.target = some j
    · obtain ⟨x, hx, ht⟩ := Session.step_turn hs htgt
      exact ht.stopped hk hx hd hask hf
    · rw [step_other hs htgt] at hd
      obtain ⟨hans, hp⟩ := hstopped j d answer hd hask hf
      exact ⟨hans, ((hk.spent_of_closed hp).outlasts_step ho hs).closed hp⟩
  · intro j d answer hd hask
    obtain ⟨hj, rfl⟩ := List.getElem?_eq_some_iff.1 hd
    simp [Session.start] at hask

/-! ## Shutdowns that were asked for -/

/-- Once a shutdown was asked for, a call is let through no more, and the one that had its turn is
the last. -/
theorem withheld_of_stopping {later : List SessionInput} (ho : Orderly s)
    (hst : s.stopping = true) (hr : Session.run? server s later = some t) :
    t.stopping = true ∧ Session.Withheld s t := by
  refine (Session.run_keeps (P := fun u => Orderly u ∧ u.stopping = true ∧ Session.Withheld s u)
    (fun {u v a} _ hu hs => ?_) ⟨ho, hst, .refl s⟩ hr).2
  obtain ⟨ho, hst, hw⟩ := hu
  exact ⟨ho.step hs, by rw [step_stopping hs, hst, Bool.true_or], hw.step ho (.inr (.inl hst)) hs⟩

theorem run_length {later : List SessionInput} (hr : Session.run? server s later = some t) :
    t.calls.length = s.calls.length := by
  refine Session.run_keeps (P := fun u => u.calls.length = s.calls.length)
    (fun {u v a} _ hu hs => ?_) rfl hr
  rw [← hu]
  match hi : a.target with
  | some i =>
    obtain ⟨c, -, ht⟩ := Session.step_turn hs hi
    rcases ht.calls_eq with hcalls | ⟨x, hcalls⟩
    · rw [hcalls]
    · rw [hcalls, List.length_set]
  | none => rw [(step_arrivals hs hi).1]

/-- Where the call that had its turn is over, the session is spent. -/
theorem spent_of_over {later : List SessionInput} (hk : Kept answered server s) (ho : Orderly s)
    (hst : s.stopping = true) (hc : s.calls[i]? = some c) (hact : c.stage.isActive = true)
    (hr : Session.run? server s later = some t) (hd : t.calls[i]? = some d)
    (hover : d.stage.isActive = false) : Spent t := by
  obtain ⟨hst', hw⟩ := withheld_of_stopping ho hst hr
  refine ⟨.inr (.inl hst'), fun j x hx => ?_⟩
  by_cases hij : j = i
  · subst hij
    rw [hd] at hx
    cases hx
    exact hover
  · obtain ⟨y, hy⟩ : ∃ y, s.calls[j]? = some y :=
      ⟨_, List.getElem?_eq_getElem (run_length hr ▸ (List.getElem?_eq_some_iff.1 hx).1)⟩
    refine (hw j y x hy ?_ hx).1
    rw [← Bool.not_eq_true]
    intro hyact
    have hhold := hk.solo j y hy hyact
    rw [hk.solo i c hc hact] at hhold
    exact hij (Option.some.inj hhold).symm

/-! ## Servers that are gone -/

/-- Call `i` has ended, and the turn is free. -/
def Session.Ended (s : Session) (i : Nat) : Prop :=
  s.holder = none ∧ ∃ (c : SessionCall) (answer : Except ToolError Reply),
    s.calls[i]? = some c ∧ c.stage = .finished answer

theorem Session.Ended.of_set {answer : Except ToolError Reply} (hc : s.calls[i]? = some c)
    (holder : t.holder = none)
    (calls : t.calls = s.calls.set i { c with stage := .finished answer }) : t.Ended i := by
  refine ⟨holder, { c with stage := .finished answer }, answer, ?_, rfl⟩
  rw [calls, List.getElem?_set_self (List.getElem?_eq_some_iff.1 hc).1]

/-- A frame cannot be written any more. -/
theorem sending_ends {what : Sending} {rest : List UInt8} {deadline : Nat}
    (hc : s.calls[i]? = some c) (hs : c.stage = .sending what rest deadline) :
    ∃ t, Session.step? server s (.poll i .broken) = some t ∧ t.Ended i := by
  have hstep : Session.step? server s (.poll i .broken) = some (Session.unsent
      { s with writing := false } i c (.io "Broken pipe (os error 32)") what) := by
    simp [Session.step?, hc, Session.poll, hs, Session.write]
  obtain ⟨-, hh, -, -, hcalls⟩ := unsent_frame { s with writing := false } i c
    (.io "Broken pipe (os error 32)") what (.inr ⟨_, rfl⟩)
  exact ⟨_, hstep, .of_set hc hh hcalls⟩

/-- A call that waits for an answer gets on where no more frames arrive. -/
theorem receiving_goes_on {m : Method} {id deadline : Nat} {e : ToolError} (pipe : Pipe)
    (hc : s.calls[i]? = some c) (hs : c.stage = .receiving m id deadline)
    (hb : s.broken = some e) : ∃ t, Session.step? server s (.poll i pipe) = some t := by
  simp only [Session.step?, hc, Option.bind_some, Session.poll, hs, Session.receive, hb]
  cases s.inbox with
  | nil => exact ⟨_, rfl⟩
  | cons body inbox =>
    simp only
    split <;> exact ⟨_, rfl⟩

/-- The call that has its turn ends where no more frames arrive and none can be written: at the
latest when it has read what is there, and begun with the notification if that was an answer to the
handshake. -/
theorem active_ends {e : ToolError} (hc : s.calls[i]? = some c) (hact : c.stage.isActive = true)
    (hb : s.broken = some e) :
    ∃ k t, k ≤ s.inbox.length + 2 ∧
      Session.run? server s (List.replicate k (.poll i .broken)) = some t ∧ t.Ended i := by
  induction hn : s.inbox.length using Nat.strongRecOn generalizing s with
  | ind len ih =>
    have one : ∀ {u : Session}, Session.step? server s (.poll i .broken) = some u → u.Ended i →
        ∃ k t, k ≤ len + 2 ∧
          Session.run? server s (List.replicate k (.poll i .broken)) = some t ∧ t.Ended i :=
      fun hu hend => ⟨1, _, by omega, Session.run_cons.2 ⟨_, hu, rfl⟩, hend⟩
    match hs : c.stage with
    | .unmade | .waiting | .finished _ | .dropped => rw [hs] at hact; cases hact
    | .sending what rest deadline =>
      obtain ⟨t, ht, hend⟩ := sending_ends hc hs
      exact one ht hend
    | .receiving m id deadline =>
      obtain ⟨t, ht⟩ : ∃ t, Session.step? server s (.poll i .broken) = some t :=
        receiving_goes_on .broken hc hs hb
      obtain ⟨c', hc', hturn⟩ := Session.step_turn ht rfl
      obtain rfl := Option.some.inj (hc.symm.trans hc')
      have other : ∀ {stage : Stage}, c.stage = stage → stage = .receiving m id deadline :=
        fun h => h.symm.trans hs
      cases hturn with
      | stop hn | bounce hn | greet hn | request hn => cases other hn.waits
      | broken hs' => cases other hs'
      | @skip _ _ _ _ body inbox _ hin =>
        have hshort : inbox.length + 1 = len := by rw [← hn, hin, List.length_cons]
        obtain ⟨k, u, hk, hu, hend⟩ :=
          ih inbox.length (by omega) (s := { s with inbox := inbox }) hc hb rfl
        exact ⟨k + 1, u, by omega, Session.run_cons.2 ⟨_, ht, hu⟩, hend⟩
      | welcome =>
        have hc'' : ∀ {stage : Stage}, (s.calls.set i { c with stage := stage })[i]? =
            some { c with stage := stage } :=
          List.getElem?_set_self (List.getElem?_eq_some_iff.1 hc).1
        obtain ⟨u, (hu : Session.step? server _ (.poll i .broken) = some u), hend⟩ :=
          sending_ends (s := Session.sendInitialized server { s with inbox := _ } i c) hc'' rfl
        exact ⟨2, u, by omega, Session.run_cons.2 ⟨_, ht, Session.run_cons.2 ⟨u, hu, rfl⟩⟩, hend⟩
      | answer => exact one ht (.of_set hc rfl rfl)
      | fail _ hf => exact one ht (by cases hf <;> exact .of_set hc rfl rfl)

theorem run_other {later : List SessionInput} (hr : Session.run? server s later = some t)
    (hi : ∀ a ∈ later, a.target ≠ some i) : t.calls[i]? = s.calls[i]? := by
  refine Session.run_keeps (P := fun u => u.calls[i]? = s.calls[i]?)
    (fun {u v a} ha hu hs => ?_) rfl hr
  rw [step_other hs (hi a ha), hu]

/-- With the server gone, the call that has its turn ends, and all that wait are turned away. -/
theorem winds_up {e : ToolError} (hk : Kept (fun _ => True) server s) (ho : Orderly s)
    (hst : s.stopping = true) (hb : s.broken = some e) :
    ∃ later t, (∀ a ∈ later, ∃ i, a = .poll i .broken) ∧ Session.run? server s later = some t ∧
      t.holder = none ∧ t.queue = [] ∧
      ∀ (i : Nat) (c : SessionCall), s.calls[i]? = some c →
        (c.stage.isActive = true → t.Ended i) ∧
        (c.stage = .waiting →
          t.calls[i]? = some { c with stage := .finished c.ask.turnedAway }) := by
  have polls : ∀ (queue : List Nat) (a : SessionInput),
      a ∈ queue.map (fun j => .poll j .broken) → ∃ i, a = .poll i .broken := by
    intro queue a ha
    obtain ⟨j, -, rfl⟩ := List.mem_map.1 ha
    exact ⟨j, rfl⟩
  by_cases hact : ∃ (i : Nat) (c : SessionCall), s.calls[i]? = some c ∧ c.stage.isActive = true
  · obtain ⟨i, c, hc, hact⟩ := hact
    obtain ⟨k, u, -, (hu : Session.run? server s _ = some u), hfree, d, answer, hd, hf⟩ :=
      active_ends hc hact hb
    have hou : Orderly u := Session.run_keeps (fun _ ho hs => ho.step hs) ho hu
    have hstu := (withheld_of_stopping ho hst hu).1
    obtain ⟨t, (ht : Session.run? server u _ = some t), -, hh, hq, -, hended, hothers⟩ :=
      drain .broken hou (.inr (.inl hstu)) hfree
    refine ⟨_, t, fun a ha => ?_, run_append.2 ⟨u, hu, ht⟩, hh, hq, fun j x hx => ⟨?_, ?_⟩⟩
    · rcases List.mem_append.1 ha with ha | ha
      · exact ⟨i, List.eq_of_mem_replicate ha⟩
      · exact polls _ a ha
    · intro hxact
      have hhold := hk.solo j x hx hxact
      rw [hk.solo i c hc hact] at hhold
      obtain rfl := Option.some.inj hhold
      refine ⟨hh, d, answer, ?_, hf⟩
      rw [hothers i fun hm => ?_, hd]
      obtain ⟨y, hy, hw⟩ := (hou.waits i).1 hm
      rw [hd] at hy
      cases hy
      rw [hf] at hw
      cases hw
    · intro hw
      have hij : j ≠ i := by
        rintro rfl
        rw [hc] at hx
        cases hx
        rw [hw] at hact
        cases hact
      have hux : u.calls[j]? = some x := by
        rw [run_other hu fun a ha => ?_, hx]
        rw [List.eq_of_mem_replicate ha]
        exact fun he => hij (Option.some.inj he).symm
      exact hended j x ((hou.waits j).2 ⟨x, hux, hw⟩) hux
  · have idle : ∀ (j : Nat) (d : SessionCall), s.calls[j]? = some d → d.stage.isActive = false :=
      fun j d hd => Bool.eq_false_iff.2 fun ha => hact ⟨j, d, hd, ha⟩
    obtain ⟨t, (ht : Session.run? server s _ = some t), -, hh, hq, -, hended, -⟩ :=
      drain .broken ho (.inr (.inl hst)) (hk.free_of_idle idle)
    refine ⟨_, t, polls _, ht, hh, hq, fun i c hc => ⟨fun ha => ?_, fun hw => ?_⟩⟩
    · rw [idle i c hc] at ha
      cases ha
    · exact hended i c ((ho.waits i).2 ⟨c, hc, hw⟩) hc

/-! ## All sessions -/

/-- A session was asked to stop just if a shutdown was called. From then on
a call that takes its turn is turned away at once, with nothing written, numbered or read, and the
session is closed;
no call that had not its turn gets through to the server at any later time;
the call that had its turn may end as it will, but after that nothing is written or numbered any
more;
and if the server is gone, everybody gets an answer. A shutdown that has returned has closed the
session for good. -/
theorem shutdown_is_final (h : Session.run? server (.start n) inputs = some s) :
    (s.stopping = true ↔ ∃ i, .make i .shutdown ∈ inputs) ∧
    (s.stopping = true →
      (∀ (i : Nat) (c : SessionCall) pipe, s.calls[i]? = some c → s.Next i c →
        ∃ t, Session.step? server s (.poll i pipe) = some t ∧ s.Passes t ∧ t.phase = .closed ∧
          t.calls[i]? = some { c with
            stage := .finished (if c.ask = .shutdown then .ok .stopped else .error .closed) }) ∧
      (∀ later t, Session.run? server s later = some t → s.Withheld t) ∧
      (∀ (i : Nat) (c d : SessionCall) later t, s.calls[i]? = some c → c.stage.isActive = true →
        Session.run? server s later = some t → t.calls[i]? = some d → d.stage.isActive = false →
        ∀ after u, Session.run? server t after = some u →
          u.wire = t.wire ∧ u.nextId = t.nextId ∧ t.Withheld u) ∧
      (∀ e, s.broken = some e → ∃ later t, (∀ a ∈ later, ∃ i, a = .poll i .broken) ∧
        Session.run? server s later = some t ∧ t.holder = none ∧ t.queue = [] ∧
        ∀ (i : Nat) (c : SessionCall), s.calls[i]? = some c →
          (c.stage.isActive = true → t.Ended i) ∧
          (c.stage = .waiting →
            t.calls[i]? = some { c with stage := .finished c.ask.turnedAway }))) ∧
    ∀ (i : Nat) (c : SessionCall) answer, s.calls[i]? = some c → c.ask = .shutdown →
      c.stage = .finished answer → answer = .ok .stopped ∧ s.phase = .closed ∧
        ∀ later t, Session.run? server s later = some t →
          t.phase = .closed ∧ t.wire = s.wire ∧ t.nextId = s.nextId ∧ s.Withheld t := by
  have hk := kept_of_run h
  have ho := orderly_of_run h
  refine ⟨?_, fun hst => ⟨fun i c pipe hc hn => ?_,
    fun later t hr => (withheld_of_stopping ho hst hr).2, ?_,
    fun e hb => winds_up hk ho hst hb⟩, fun i c answer hc hask hf => ?_⟩
  · rw [stopping_of_run h, List.any_eq_true]
    constructor
    · rintro ⟨a, ha, hstop⟩
      unfold SessionInput.stops at hstop
      split at hstop
      · exact ⟨_, ha⟩
      · cases hstop
    · rintro ⟨i, hi⟩
      exact ⟨_, hi, rfl⟩
  · obtain ⟨t, (ht : Session.step? server s _ = some t), hpasses, hp, -, -, -, hcalls⟩ :=
      poll_barred ho hc hn (.inr (.inl hst)) pipe
    refine ⟨t, ht, hpasses, hp, ?_⟩
    rw [hcalls, List.getElem?_set_self (List.getElem?_eq_some_iff.1 hc).1,
      turnedAway_eq (ho.checked i c hc hn.waits)]
  · intro i c d later t hc hact hr hd hover after u hu
    have hot : Orderly t := Session.run_keeps (fun _ ho hs => ho.step hs) ho hr
    have hout := (spent_of_over hk ho hst hc hact hr hd hover).outlasts hot hu
    exact ⟨hout.wire, hout.nextId, hout.withheld⟩
  · obtain ⟨hans, hp⟩ := closed_of_stopped h hc hask hf
    refine ⟨hans, hp, fun later t hr => ?_⟩
    have hout := (hk.spent_of_closed hp).outlasts ho hr
    exact ⟨hout.closed hp, hout.wire, hout.nextId, hout.withheld⟩

end

/-- A shutdown is asked for during the handshake. The call that makes it still gets its listing, and
the shutdown is given up before its turn. -/
def stoppedHandshake : List SessionInput :=
  [.make 0 .list, .poll 0 (.takes 0), .poll 0 (.takes 1000), .make 1 .shutdown, .make 2 .list,
    .deliver (Text.Utf8.bytesOf "\x7b\"id\":1,\"result\":\x7b\x7d\x7d"), .poll 0 .broken,
    .poll 0 (.takes 1000), .poll 0 (.takes 1000),
    .deliver (Text.Utf8.bytesOf "\x7b\"id\":2,\"result\":null\x7d"), .poll 0 .broken, .drop 1]

theorem ready_session_turns_away : ∃ s t c,
    Session.run? clerk (.start 3) stoppedHandshake = some s ∧ s.phase = .ready ∧
      Session.step? clerk s (.poll 2 (.takes 1000)) = some t ∧ s.Passes t ∧ t.phase = .closed ∧
      t.calls[2]? = some c ∧ c.stage = .finished (.error .closed) := by
  have check : ((Session.run? clerk (.start 3) stoppedHandshake).any fun s =>
      s.phase == .ready && s.stopping && s.holder.isNone && s.queue.head? == some 2 &&
        s.calls[2]?.any fun c => c.ask == .list && c.stage matches .waiting) = true := by
    decide +kernel
  simp only [Option.any_eq_true, Bool.and_eq_true, beq_iff_eq] at check
  obtain ⟨s, hs, ⟨⟨⟨hp, hst⟩, hfree⟩, hfirst⟩, c, hc, hask, hw⟩ := check
  have hn : s.Next 2 c := by
    refine ⟨?_, Option.isNone_iff_eq_none.1 hfree, hfirst⟩
    cases hst : c.stage <;> first | rfl | (rw [hst] at hw; cases hw)
  obtain ⟨t, ht, hpasses, hclosed, hd⟩ :=
    ((shutdown_is_final hs).2.1 hst).1 2 c (.takes 1000) hc hn
  rw [if_neg (by rw [hask]; nofun)] at hd
  exact ⟨s, t, _, hs, hp, ht, hpasses, hclosed, hd, rfl⟩

end Switchboard.Tools
