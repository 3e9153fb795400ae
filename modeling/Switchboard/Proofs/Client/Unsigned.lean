import Switchboard.Proofs.Client.Steps

/-!
# What providers sign

Responses and deltas have room for the identity of the call, and a provider may write there what it
likes. `unsigned` removes that from all that a client holds. What a client does is the same without
it (`step_unsigned`), so two runs that differ in nothing else have one history (`run_resigned`).
-/

namespace Switchboard.Client

open Chat

/-! ## Without signatures -/

def Outcome.unsigned : Outcome → Outcome
  | failure e => failure e
  | response r => response (r.stamp .blank)
  | stream first => stream (first.map (Delta.stamp .blank))

/-- The next thing in a stream, unsigned. -/
def unsignedPull (p : Pulled) : Pulled := p.map (Except.map (Delta.stamp .blank))

def Work.unsigned (w : Work Outcome) : Work Outcome := ⟨w.done, w.outcome.unsigned⟩

def Work.unsignedPull (w : Work Pulled) : Work Pulled := ⟨w.done, Client.unsignedPull w.outcome⟩

def Telling.unsigned : Telling → Telling
  | settle notice give => settle notice (give.stamp .blank)
  | why => why

def Phase.unsigned : Phase → Phase
  | telling why next due => telling why.unsigned next due
  | attempting n deadline w => attempting n deadline w.unsigned
  | streaming buffered => streaming (buffered.map (Delta.stamp .blank))
  | pulling w => pulling w.unsignedPull
  | p => p

def Call.unsigned (c : Call) : Call := { c with phase := c.phase.unsigned }

def State.unsigned (s : State) : State := { s with calls := s.calls.map Call.unsigned }

def Input.unsigned : Input → Input
  | poll i w spread => poll i w.unsigned spread
  | pull i w => pull i w.unsignedPull
  | a => a

/-! ## Steps -/

section
variable {S : Setup}

theorem Handover.stamp_stamp (who other : Identity) (h : Handover) :
    (h.stamp other).stamp who = h.stamp who := by
  cases h <;> rfl

theorem phaseAfter_unsigned (h : Handover) :
    (h.stamp .blank).phaseAfter = h.phaseAfter.unsigned := by
  cases h <;> rfl

theorem notice_unsigned (why : Telling) : why.unsigned.notice = why.notice := by
  cases why <;> rfl

theorem holdsSlot_unsigned (p : Phase) : p.unsigned.holdsSlot = p.holdsSlot := by
  cases p <;> rfl

namespace State

theorem setPhase_unsigned (s : State) (i : Nat) (c : Call) (p : Phase) :
    s.unsigned.setPhase i c.unsigned p.unsigned = (s.setPhase i c p).unsigned := by
  simp [setPhase, unsigned, List.map_set, Call.unsigned]

theorem release_unsigned (s : State) (c : Call) :
    s.unsigned.release c.unsigned = (s.release c).unsigned := by
  unfold release
  rw [show c.unsigned.phase.holdsSlot = c.phase.holdsSlot from holdsSlot_unsigned _]
  split <;> rfl

theorem hand_unsigned (s : State) (i : Nat) (c : Call) (give : Handover) (p : Phase) :
    s.unsigned.hand i c.unsigned (give.stamp .blank) p.unsigned =
      (s.hand i c give p).unsigned := by
  unfold hand
  rw [show c.unsigned.identity = c.identity from rfl, Handover.stamp_stamp]
  exact setPhase_unsigned (s.record i _) i c p

theorem conclude_unsigned (s : State) (i : Nat) (c : Call) (why : Telling) :
    s.unsigned.conclude i c.unsigned why.unsigned = (s.conclude i c why).unsigned := by
  cases why with
  | start => exact setPhase_unsigned { s with waiting := s.waiting ++ [i] } i c .queued
  | settle notice give =>
    simp only [Telling.unsigned, conclude, phaseAfter_unsigned]
    exact hand_unsigned s i c give _
  | abandon => exact setPhase_unsigned s i c .over

theorem records_unsigned (i : Nat) (e : Nat → Event) : ∀ (ks : List Nat) (s : State),
    ks.foldl (fun s k => s.record i (e k)) s.unsigned =
      (ks.foldl (fun s k => s.record i (e k)) s).unsigned
  | [], _ => rfl
  | k :: ks, s => records_unsigned i e ks (s.record i (e k))

theorem inform_unsigned (s : State) (i : Nat) (c : Call) (why : Telling) (next : Nat) :
    s.unsigned.inform S i c.unsigned why.unsigned next = (s.inform S i c why next).unsigned := by
  unfold inform
  rw [show s.unsigned.now = s.now from rfl, show c.unsigned.identity = c.identity from rfl]
  obtain ⟨told, wait⟩ := tellFrom s.now next (S.hooks.drop next)
  simp only [notice_unsigned, records_unsigned i fun k => .told k c.identity (S.shown why.notice)]
  cases wait with
  | some w => exact setPhase_unsigned _ i c (.telling why w.1 w.2)
  | none => exact conclude_unsigned _ i c why

theorem settle_unsigned (s : State) (i : Nat) (c : Call) (notice : Notice) (give : Handover) :
    s.unsigned.settle S i c.unsigned notice (give.stamp .blank) =
      (s.settle S i c notice give).unsigned := by
  unfold settle
  rw [release_unsigned]
  exact inform_unsigned ((s.release c).leave i) i c (.settle notice give) 0

theorem fail_unsigned (s : State) (i : Nat) (c : Call) (e : ChatError) :
    s.unsigned.fail S i c.unsigned e = (s.fail S i c e).unsigned :=
  settle_unsigned s i c (.failed e) (.failure e)

theorem attempt_unsigned (s : State) (i : Nat) (c : Call) (n : Nat) (w : Work Outcome) :
    s.unsigned.attempt S i c.unsigned n w.unsigned = (s.attempt S i c n w).unsigned :=
  setPhase_unsigned (s.record i (.attempted n c.request)) i c (.attempting n _ w)

theorem retry_unsigned (s : State) (i : Nat) (c : Call) (n spread : Nat) (e : ChatError) :
    s.unsigned.retry S i c.unsigned n spread e = (s.retry S i c n spread e).unsigned := by
  unfold retry
  split
  · exact setPhase_unsigned s i c (.backingOff n _)
  · exact fail_unsigned s i c e

theorem enter_unsigned (s : State) (i : Nat) (c : Call) (w : Work Outcome) :
    s.unsigned.enter S i c.unsigned w.unsigned = (s.enter S i c w).unsigned := by
  unfold enter
  split
  · exact attempt_unsigned s i c 0 w
  · exact setPhase_unsigned { s with turns := s.turns ++ [i] } i c .pacing

theorem finishAttempt_unsigned (s : State) (i : Nat) (c : Call) (n spread : Nat) :
    ∀ o : Outcome, s.unsigned.finishAttempt S i c.unsigned n spread o.unsigned =
      (s.finishAttempt S i c n spread o).unsigned
  | .failure e => retry_unsigned s i c n spread e
  | .response r => settle_unsigned s i c .ended (.response r)
  | .stream none => settle_unsigned s i c .ended .stream
  | .stream (some d) => hand_unsigned s i c .stream (.streaming (some d))

theorem deliver_unsigned (s : State) (i : Nat) (c : Call) (d : Delta) :
    s.unsigned.deliver S i c.unsigned (d.stamp .blank) = (s.deliver S i c d).unsigned := by
  unfold deliver
  rw [show (d.stamp .blank).isFinal = d.isFinal from rfl]
  split
  · exact settle_unsigned s i c .ended (.delta d)
  · exact hand_unsigned s i c (.delta d) (.streaming none)

theorem finishPull_unsigned (s : State) (i : Nat) (c : Call) : ∀ p : Pulled,
    s.unsigned.finishPull S i c.unsigned (unsignedPull p) = (s.finishPull S i c p).unsigned
  | some (.ok d) => deliver_unsigned s i c d
  | some (.error e) => settle_unsigned s i c (.failed e) (.fault e)
  | none => settle_unsigned s i c .ended .close

theorem unless_unsigned {p : Prop} [Decidable p] {u v : State} {x y : Option State}
    (hu : u = v.unsigned) (hx : x = y.map unsigned) :
    (if p then some u else x) = (if p then some v else y).map unsigned := by
  split
  · rw [hu]
    rfl
  · exact hx

theorem make_unsigned (s : State) (i : Nat) (c : Call) (freshRequest freshCorrelation : String)
    (q : Request) : s.unsigned.make S i c.unsigned freshRequest freshCorrelation q =
      (s.make S i c freshRequest freshCorrelation q).map unsigned := by
  have hphase : c.unsigned.phase = c.phase.unsigned := rfl
  unfold make
  rw [hphase]
  cases c.phase with
  | unmade =>
    simp only [Phase.unsigned]
    cases S.registry.route freshRequest freshCorrelation q with
    | error e => exact congrArg some (hand_unsigned s i c (.failure e) .over)
    | ok routed =>
      let made : Call := { c with identity := routed.2.identity routed.1.1, request := routed.2 }
      exact congrArg some (inform_unsigned s i made .start 0)
  | _ => rfl

theorem poll_unsigned (s : State) (i : Nat) (c : Call) (w : Work Outcome) (spread : Nat) :
    s.unsigned.poll S i c.unsigned w.unsigned spread = (s.poll S i c w spread).map unsigned := by
  have hphase : c.unsigned.phase = c.phase.unsigned := rfl
  have hfail := fail_unsigned (S := S) s i c .cancelled
  unfold poll
  rw [hphase]
  cases c.phase with
  | telling why next due => exact unless_unsigned (inform_unsigned s i c why next) rfl
  | queued =>
    refine unless_unsigned hfail (unless_unsigned ?_ rfl)
    exact enter_unsigned { s with waiting := s.waiting.tail, free := s.free - 1 } i c w
  | pacing =>
    refine unless_unsigned hfail (unless_unsigned ?_ rfl)
    exact attempt_unsigned { s with
      turns := s.turns.tail
      nextTurn := S.options.minDelay.map (Duration.later s.now) } i c 0 w
  | attempting n deadline current =>
    refine unless_unsigned hfail (unless_unsigned ?_ (unless_unsigned ?_ rfl))
    · exact finishAttempt_unsigned s i c n spread current.outcome
    · exact retry_unsigned s i c n spread _
  | backingOff n due =>
    exact unless_unsigned hfail (unless_unsigned (attempt_unsigned s i c (n + 1) w) rfl)
  | pulling current =>
    refine unless_unsigned (settle_unsigned s i c (.failed .cancelled) (.fault .cancelled))
      (unless_unsigned ?_ rfl)
    exact finishPull_unsigned s i c current.outcome
  | _ => rfl

theorem pull_unsigned (s : State) (i : Nat) (c : Call) (w : Work Pulled) :
    s.unsigned.pull S i c.unsigned w.unsignedPull = (s.pull S i c w).map unsigned := by
  have hphase : c.unsigned.phase = c.phase.unsigned := rfl
  unfold pull
  rw [hphase]
  cases c.phase with
  | streaming buffered =>
    cases buffered with
    | some d => exact congrArg some (deliver_unsigned s i c d)
    | none => exact congrArg some (setPhase_unsigned s i c (.pulling w))
  | drained => exact congrArg some (hand_unsigned s i c .close .over)
  | _ => rfl

theorem abandon_unsigned (s : State) (i : Nat) (c : Call) :
    s.unsigned.abandon i c.unsigned = (s.abandon i c).unsigned := by
  unfold abandon
  rw [release_unsigned]
  exact setPhase_unsigned ((s.release c).leave i) i c (.telling .abandon 0 s.now)

theorem drop_unsigned (s : State) (i : Nat) (c : Call) :
    s.unsigned.drop i c.unsigned = (s.drop i c).map unsigned := by
  have hphase : c.unsigned.phase = c.phase.unsigned := rfl
  have hforsake := setPhase_unsigned (s.record i .dropped) i c .over
  have hletGo := abandon_unsigned (s.record i .dropped) i c
  unfold drop
  rw [hphase]
  cases c.phase with
  | telling why =>
    cases why with
    | start | settle => exact congrArg some hforsake
    | abandon => rfl
  | drained => exact congrArg some hforsake
  | queued | pacing | attempting | backingOff | streaming | pulling => exact congrArg some hletGo
  | unmade | «over» => rfl

end State

/-- A step does the same without what providers sign. -/
theorem step_unsigned (s : State) (a : Input) :
    step? S s.unsigned a.unsigned = (step? S s a).map State.unsigned := by
  -- The call that an input is about is looked up first.
  have found : ∀ (i : Nat) (f f' : Call → Option State),
      (∀ c, f' c.unsigned = (f c).map State.unsigned) →
      s.unsigned.calls[i]?.bind f' = (s.calls[i]?.bind f).map State.unsigned := by
    intro i f f' hf
    rw [show s.unsigned.calls = s.calls.map Call.unsigned from rfl, List.getElem?_map]
    cases s.calls[i]? with
    | none => rfl
    | some c => exact hf c
  cases a with
  | tick later =>
    simp only [Input.unsigned, step?, show s.unsigned.now = s.now from rfl]
    split <;> rfl
  | call i fr fc q => exact found i _ _ fun c => s.make_unsigned i c fr fc q
  | cancel i =>
    simp only [Input.unsigned, step?, show s.unsigned.calls = s.calls.map Call.unsigned from rfl,
      List.getElem?_map, Option.map_map]
    cases s.calls[i]? with
    | none => rfl
    | some c => simp [State.unsigned, List.map_set, Call.unsigned]
  | poll i w spread => exact found i _ _ fun c => s.poll_unsigned i c w spread
  | pull i w => exact found i _ _ fun c => s.pull_unsigned i c w
  | drop i => exact found i _ _ fun c => s.drop_unsigned i c

theorem run_unsigned (s : State) (inputs : List Input) :
    run? S s.unsigned (inputs.map Input.unsigned) = (run? S s inputs).map State.unsigned := by
  induction inputs generalizing s with
  | nil => rfl
  | cons a as ih =>
    have hcons : ∀ (s : State) (a : Input) (as : List Input),
        run? S s (a :: as) = (step? S s a).bind (run? S · as) := fun _ _ _ => rfl
    rw [List.map_cons, hcons, hcons, step_unsigned]
    cases step? S s a with
    | none => rfl
    | some t => exact ih t

/-- Whatever providers sign, the same happens. -/
theorem run_resigned {n : Nat} {inputs inputs' : List Input} {s : State}
    (h : run? S (.start S n) inputs = some s)
    (hsame : inputs'.map Input.unsigned = inputs.map Input.unsigned) :
    ∃ t, run? S (.start S n) inputs' = some t ∧ t.history = s.history := by
  have hrun := run_unsigned (S := S) (.start S n) inputs
  rw [← hsame, run_unsigned, h] at hrun
  obtain ⟨t, ht, hts⟩ := Option.map_eq_some_iff.1 hrun
  refine ⟨t, ht, ?_⟩
  change t.unsigned.history = s.unsigned.history
  rw [hts]

end

end Switchboard.Client
