import Switchboard.Proofs.Chat.Routed
import Switchboard.Proofs.Client.Slots
import Switchboard.Proofs.Client.Unsigned

/-!
# The identity of a call

Routing decides once what a call sends and under which identity it goes; from then on nothing that
happens to the call shows another (`Move.shows`), be it told to hooks, sent to the provider or
handed to the caller. A call that is not routed is over with the error.
-/

namespace Switchboard.Client

open Chat

/-- Whatever an event shows of the identity of its call and of what is sent, it is this. -/
def Event.Shows (who : Identity) (sent : Request) : Event → Prop
  | told _ identity _ => identity = who
  | attempted _ request => request = sent
  | handed (.response r) => r.identity = who
  | handed (.delta d) => d.identity = who
  | handed .stream | handed (.failure _) | handed (.fault _) | handed .close | dropped => True

section
variable {S : Setup} {s t : State} {i now : Nat} {c c' : Call} {a : Input} {es : List Event}
  {who : Identity} {sent : Request}

theorem shows_handed (sent : Request) (who : Identity) (give : Handover) :
    (Event.handed (give.stamp who)).Shows who sent := by
  cases give <;> trivial

theorem shows_tell (sent : Request) (S : Setup) (now : Nat) (who : Identity) (why : Telling)
    (next : Nat) : ∀ e ∈ (S.tell now who why next).1, e.Shows who sent := by
  unfold Setup.tell
  obtain ⟨told, wait⟩ := tellFrom now next (S.hooks.drop next)
  have htold : ∀ e ∈ told.map fun k => Event.told k who (S.shown why.notice),
      e.Shows who sent := by
    intro e he
    obtain ⟨k, -, rfl⟩ := List.mem_map.1 he
    rfl
  cases wait with
  | some w => exact htold
  | none =>
    intro e he
    rcases List.mem_append.1 he with he | he
    · exact htold e he
    · cases why with
      | settle notice give =>
        rw [List.mem_singleton.1 he]
        exact shows_handed sent who give
      | start | abandon => cases he

/-- A call that was made keeps its identity and its request, and shows no other. -/
theorem Move.shows (hm : Move S now a c es c') (hp : c.phase ≠ .unmade) :
    (c'.identity = c.identity ∧ c'.request = c.request ∧ c'.phase ≠ .unmade) ∧
      ∀ e ∈ es, e.Shows c.identity c.request := by
  have hp' : c'.phase ≠ .unmade := fun h => hp (hm.eq_nil_of_unmade h).1
  cases hm with
  | refuse h | make h => exact absurd h hp
  | cancel | pace | backOff | pull => exact ⟨⟨rfl, rfl, hp'⟩, List.forall_mem_nil _⟩
  | tell | decide => exact ⟨⟨rfl, rfl, hp'⟩, shows_tell _ _ _ _ _ _⟩
  | attempt | commit | replay | deliver | close | forsake | letGo =>
    exact ⟨⟨rfl, rfl, hp'⟩, List.forall_mem_singleton.2 (by trivial)⟩

/-- Call `i` was made under this identity, and all that happened to it shows it. -/
def Signed (who : Identity) (sent : Request) (i : Nat) (s : State) : Prop :=
  ∃ c, s.calls[i]? = some c ∧ (c.identity = who ∧ c.request = sent ∧ c.phase ≠ .unmade) ∧
    ∀ e ∈ s.events i, e.Shows who sent

theorem Signed.step (h : Signed who sent i s) (hs : step? S s a = some t) :
    Signed who sent i t := by
  obtain ⟨c, hc, ⟨rfl, rfl, hp⟩, hes⟩ := h
  obtain ⟨es, c', hc', ht, hm⟩ := step_call hs hc
  rw [Signed, events_append ht]
  rcases hm with ⟨rfl, rfl⟩ | ⟨-, hm⟩
  · exact ⟨c', hc', ⟨rfl, rfl, hp⟩, by simpa using hes⟩
  · obtain ⟨hkeeps, hnew⟩ := hm.shows hp
    refine ⟨c', hc', hkeeps, fun e he => ?_⟩
    exact (List.mem_append.1 he).elim (hes e) (hnew e)

/-- Call `i` is over, and this is all that happened to it. -/
def Finished (es : List Event) (i : Nat) (s : State) : Prop :=
  ∃ c, s.calls[i]? = some c ∧ c.phase = .over ∧ s.events i = es

theorem Finished.step (h : Finished es i s) (hs : step? S s a = some t) : Finished es i t := by
  obtain ⟨c, hc, hp, hes⟩ := h
  obtain ⟨new, c', hc', ht, hm⟩ := step_call hs hc
  have hquiet : c'.phase = .over ∧ new = [] := by
    rcases hm with ⟨rfl, rfl⟩ | ⟨-, hm⟩
    · exact ⟨hp, rfl⟩
    · exact hm.of_over hp
  exact ⟨c', hc', hquiet.1, by rw [events_append ht, hquiet.2, List.append_nil, hes]⟩

/-- A step of a call that holds no slot before and after it does nothing to the free slots. -/
theorem slotNote_eq_nil (hs : step? S s a = some t) (hc : s.calls[i]? = some c)
    (hc' : t.calls[i]? = some c') (hp : c.phase.holdsSlot = false)
    (hp' : c'.phase.holdsSlot = false) : slotNote i s a t = [] := by
  by_cases ha : a.target = some i
  · obtain ⟨d, d', hd, hd', hshift⟩ := step_shift_call hs ha
    obtain rfl : d = c := Option.some.inj (hd.symm.trans hc)
    obtain rfl : d' = c' := Option.some.inj (hd'.symm.trans hc')
    have hfree := hshift.conserves
    rw [Phase.slots_eq, Phase.slots_eq, hp, hp'] at hfree
    exact slotNote_same hfree
  · exact slotNote_other ha

end

/-! ## Runs -/

section
variable {S : Setup} {n i : Nat} {inputs : List Input} {s : State} {fr fc : String} {q : Request}

/-- The step that makes a call, in the run that it is a part of. -/
structure Making (S : Setup) (n i : Nat) (fr fc : String) (q : Request) (s : State)
    (before after : List Input) (m t : State) (c c' : Call) : Prop where
  run : run? S (.start S n) before = some m
  step : step? S m (.call i fr fc q) = some t
  rest : run? S t after = some s
  old : m.calls[i]? = some c
  new : t.calls[i]? = some c'
  unmade : c.phase = .unmade
  move : Move S m.now (.call i fr fc q) c (t.events i) c'

theorem exists_making (h : run? S (.start S n) inputs = some s)
    (hcall : .call i fr fc q ∈ inputs) : ∃ before after m t c c',
      inputs = before ++ .call i fr fc q :: after ∧
        Making S n i fr fc q s before after m t c c' := by
  obtain ⟨before, after, rfl⟩ := List.append_of_mem hcall
  obtain ⟨m, hm, hrest⟩ := run_append.1 h
  obtain ⟨t, ht, hafter⟩ := run_cons.1 hrest
  obtain ⟨c, es, c', hc, hc', hmove, htrace⟩ := step_move ht rfl
  have hp : c.phase = .unmade := by
    cases hmove with
    | refuse hp | make hp => exact hp
    | decide hd => cases hd
  have hfresh : Fresh m i :=
    run_keeps (P := (Fresh · i)) (fun hf hs => hf.step hs) (fresh_start S n i) hm
  have hes : t.events i = es := by
    rw [events_append htrace, State.events, hfresh c hc hp]
    rfl
  exact ⟨before, after, m, t, c, c', rfl, hm, ht, hafter, hc, hc', hp, hes ▸ hmove⟩

theorem signed_of_routed (h : run? S (.start S n) inputs = some s)
    (hcall : .call i fr fc q ∈ inputs) {p : String × Unit} {r : Request}
    (hroute : S.registry.route fr fc q = .ok (p, r)) : Signed (r.identity p.1) r i s := by
  obtain ⟨before, after, m, t, c, c', rfl, hmk⟩ := exists_making h hcall
  refine run_keeps (P := Signed (r.identity p.1) r i) (fun hsig hs => hsig.step hs) ?_ hmk.rest
  have hmove := hmk.move
  generalize hes : t.events i = es at hmove
  cases hmove with
  | refuse _ hr => rw [hroute] at hr; cases hr
  | make _ hr =>
    rw [hroute] at hr
    cases hr
    refine ⟨_, hmk.new, ⟨rfl, rfl, tell_ne_unmade _ _ _ _ _⟩, ?_⟩
    rw [hes]
    exact shows_tell _ _ _ _ _ _
  | decide hd => cases hd

theorem finished_of_refused (h : run? S (.start S n) inputs = some s)
    (hcall : .call i fr fc q ∈ inputs) {e : ChatError}
    (hroute : S.registry.route fr fc q = .error e) :
    Finished [.handed (.failure e)] i s ∧ slotLedger S i (.start S n) inputs = [] := by
  obtain ⟨before, after, m, t, c, c', rfl, hmk⟩ := exists_making h hcall
  have hover : Finished [.handed (.failure e)] i t := by
    have hmove := hmk.move
    generalize hes : t.events i = es at hmove
    cases hmove with
    | refuse _ hr =>
      rw [hroute] at hr
      cases hr
      exact ⟨_, hmk.new, rfl, hes⟩
    | make _ hr => rw [hroute] at hr; cases hr
    | decide hd => cases hd
  have idle : ∀ {u v : State} {a : Input} {d : Call}, u.calls[i]? = some d →
      d.phase.holdsSlot = false → Finished [.handed (.failure e)] i v →
      step? S u a = some v → slotNote i u a v = [] := by
    intro u v a d hd hp hfin hs
    obtain ⟨d', hd', hp', -⟩ := hfin
    exact slotNote_eq_nil hs hd hd' hp (by rw [hp']; rfl)
  have hbefore : slotLedger S i (.start S n) before = [] := by
    have := books_of_run hmk.run hmk.old
    rwa [hmk.unmade] at this
  have hrest : Finished [.handed (.failure e)] i s ∧ slotLedger S i t after = [] := by
    refine run_induction (P := fun as u => Finished _ i u ∧ slotLedger S i t as = [])
      ⟨hover, rfl⟩ ?_ hmk.rest
    rintro as u v a hu ⟨hfin, hledger⟩ hs
    have hfin' := hfin.step hs
    obtain ⟨d, hd, hp, -⟩ := hfin
    refine ⟨hfin', ?_⟩
    rw [slotLedger, along_concat hu hs, idle hd (by rw [hp]; rfl) hfin' hs, List.append_nil]
    exact hledger
  refine ⟨hrest.1, ?_⟩
  rw [slotLedger, along_append hmk.run, List.append_eq_nil_iff]
  refine ⟨hbefore, ?_⟩
  simp only [along, hmk.step, List.append_eq_nil_iff]
  exact ⟨idle hmk.old (by rw [hmk.unmade]; rfl) hover hmk.step, hrest.2⟩

end

/-- A call that is routed sends one request at every attempt, and that is the routed one. Whatever
shows an identity, at the hooks or at the caller, shows that of the routed request and its provider,
whatever the provider writes there: with other identities in its responses and deltas, just the same
happens. A call that is not routed is handed the error, and nothing else happens to it; it takes no
slot. The fresh ids are not blank. -/
theorem call_keeps_identity {S : Setup} {n i : Nat} {inputs : List Input} {s : State}
    {fr fc : String} {q : Request} (h : run? S (.start S n) inputs = some s)
    (hcall : .call i fr fc q ∈ inputs) (hfr : Text.allBlank fr = false)
    (hfc : Text.allBlank fc = false) :
    (∀ id p r, S.registry.route fr fc q = .ok ((id, p), r) →
      Routed S.registry q id r ∧ ∀ e ∈ s.events i, e.Shows (r.identity id) r) ∧
    (∀ e, S.registry.route fr fc q = .error e →
      s.events i = [.handed (.failure e)] ∧ slotLedger S i (.start S n) inputs = []) ∧
    ∀ inputs', inputs'.map Input.unsigned = inputs.map Input.unsigned →
      ∃ t, run? S (.start S n) inputs' = some t ∧ t.history = s.history := by
  refine ⟨fun id p r hroute => ?_, fun e hroute => ?_, fun inputs' hsame => ?_⟩
  · obtain ⟨-, -, -, hes⟩ := signed_of_routed h hcall hroute
    exact ⟨routed_of_route hroute hfr hfc, hes⟩
  · obtain ⟨⟨-, -, -, hes⟩, hledger⟩ := finished_of_refused h hcall hroute
    exact ⟨hes, hledger⟩
  · exact run_resigned h hsame

/-- A client of one provider, called Echo, and one hook. -/
def echoing : Setup :=
  { registry := ⟨[("Echo", ())]⟩
    options := { jitter := false, initialBackoff := 10 }
    hooks := [0] }

/-- A call with a blank id and one layer, whose second attempt is answered under the name `who`, and
one that asks for an unknown provider. -/
def answeredAs (who : Identity) : List Input :=
  let ask : Request := ⟨"echo/m/1", [], some { system := some " s " }, some " ", some "c"⟩
  let answer : Response := ⟨who, .ofText .assistant "hi", none⟩
  [.call 0 "r" "f" ask, .call 1 "r" "f" { ask with model := "other/m" },
    .poll 0 ⟨some 3, .failure (.transport "reset")⟩ 0, .tick 3,
    .poll 0 ⟨none, .failure .cancelled⟩ 0, .tick 13, .poll 0 ⟨some 13, .response answer⟩ 0,
    .poll 0 ⟨none, .failure .cancelled⟩ 0]

/-- What a provider signs is not what its caller sees. -/
theorem forged_identity_replaced :
    let who : Identity := ⟨"r", "c", "Echo", "m/1"⟩
    let sent : Request := ⟨"m/1", [.ofText .system "[system]\ns"], some { system := some "s" },
      some "r", some "c"⟩
    ∃ s t, run? echoing (.start echoing 2) (answeredAs ⟨"x", "y", "z", "w"⟩) = some s ∧
      s.events 0 = [.told 0 who .started, .attempted 0 sent, .attempted 1 sent,
        .told 0 who .ended, .handed (.response ⟨who, .ofText .assistant "hi", none⟩)] ∧
      (∀ e ∈ s.events 0, e.Shows who sent) ∧
      s.events 1 = [.handed (.failure (.unknownProvider "other"))] ∧
      run? echoing (.start echoing 2) (answeredAs .blank) = some t ∧ t.history = s.history := by
  have hs : ∃ s, run? echoing (.start echoing 2) (answeredAs ⟨"x", "y", "z", "w"⟩) = some s :=
    ⟨_, rfl⟩
  obtain ⟨s, hs⟩ := hs
  obtain ⟨hmade, -, hsame⟩ := call_keeps_identity hs List.mem_cons_self rfl rfl
  obtain ⟨-, hrefused, -⟩ := call_keeps_identity (i := 1) hs
    (List.mem_cons_of_mem _ List.mem_cons_self) rfl rfl
  obtain ⟨t, ht, hhistory⟩ := hsame (answeredAs .blank) rfl
  refine ⟨s, t, hs, ?_, (hmade _ _ _ rfl).2, (hrefused _ rfl).1, ht, hhistory⟩
  obtain rfl := Option.some.inj hs
  rfl

end Switchboard.Client
