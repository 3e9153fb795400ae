import Mathlib.Data.List.Induction
import Switchboard.Proofs.Client.Steps

/-!
# What a step does to slots and turns

A call is outside, holds a slot, or is settled, in this order (`Stage`). `Gate` is what all calls of
a client share: the free slots, the queue for turns, and the instant of the next turn. `Shift` lists
what the step of a call does to the gate, by what it does to the phase of the call (`step_shift`);
time does nothing to it (`step_tick`).
-/

namespace Switchboard.Client

open Chat

/-! ## Stages -/

/-- Where a call stands with regard to its slot. -/
inductive Stage where
  | outside
  | inside
  /-- Decided or dropped; hooks may still have to be told. -/
  | settled
  deriving DecidableEq, Repr

def Phase.stage : Phase → Stage
  | unmade | telling .start _ _ | queued => .outside
  | pacing | attempting .. | backingOff .. | streaming _ | pulling _ => .inside
  | telling (.settle _ _) _ _ | telling .abandon _ _ | drained | .over => .settled

/-- The slots that a call holds. -/
def Stage.slots : Stage → Nat
  | inside => 1
  | outside | settled => 0

theorem Phase.holdsSlot_eq (p : Phase) : p.holdsSlot = (p.stage == .inside) := by
  cases p with
  | telling why => cases why <;> rfl
  | _ => rfl

theorem Phase.slots_eq (p : Phase) : p.stage.slots = if p.holdsSlot then 1 else 0 := by
  cases p with
  | telling why => cases why <;> rfl
  | _ => rfl

theorem stage_phaseAfter (give : Handover) : give.phaseAfter.stage = .settled := by
  cases give <;> rfl

/-- While hooks are told why, and after that, a call stays where it is. -/
def Telling.stage : Telling → Stage
  | start => .outside
  | settle .. | abandon => .settled

theorem stage_tell (S : Setup) (now : Nat) (who : Identity) (why : Telling) (next : Nat) :
    (S.tell now who why next).2.stage = why.stage := by
  apply tell_elim (P := fun _ p => p.stage = why.stage)
  · intro told n due _
    cases why <;> rfl
  · intro told _
    cases why with
    | settle notice give => exact stage_phaseAfter give
    | _ => rfl

theorem stage_telling (why : Telling) (next due : Nat) :
    (Phase.telling why next due).stage = why.stage := by
  cases why <;> rfl

theorem tell_ne_pacing (S : Setup) (now : Nat) (who : Identity) (why : Telling) (next : Nat) :
    (S.tell now who why next).2 ≠ .pacing := by
  intro h
  have := stage_tell S now who why next
  rw [h] at this
  cases why <;> cases this

/-! ## The gate -/

/-- What the calls of a client share. -/
structure Gate where
  free : Nat
  turns : List Nat
  nextTurn : Option Nat

def State.gate (s : State) : Gate := ⟨s.free, s.turns, s.nextTurn⟩

/-- What the step of call `i` does to the gate. -/
inductive Shift (S : Setup) (now i : Nat) (p : Phase) (g : Gate) : Phase → Gate → Prop where
  | stay {p' : Phase} : p'.stage = p.stage → (p' = .pacing ↔ p = .pacing) → Shift S now i p g p' g
  /-- The call takes a free slot and makes its first attempt. -/
  | letIn {deadline : Option Nat} {w : Work Outcome} : p = .queued → S.options.minDelay = none →
      0 < g.free → Shift S now i p g (.attempting 0 deadline w) { g with free := g.free - 1 }
  /-- The call takes a free slot and waits for its turn. -/
  | lineUp : p = .queued → S.options.minDelay.isSome → 0 < g.free →
      Shift S now i p g .pacing { g with free := g.free - 1, turns := g.turns ++ [i] }
  /-- It is the turn of the call. -/
  | pass {deadline : Option Nat} {w : Work Outcome} : p = .pacing → g.turns.head? = some i →
      g.nextTurn.all (· ≤ now) → Shift S now i p g (.attempting 0 deadline w)
        { g with
          turns := g.turns.tail
          nextTurn := S.options.minDelay.map (Duration.later now) }
  /-- The call cannot be routed, or is dropped while its start is told. -/
  | refuse {p' : Phase} : p.stage = .outside → p'.stage = .settled → Shift S now i p g p' g
  | settle {p' : Phase} : p.stage ≠ .settled → p'.stage = .settled →
      Shift S now i p g p'
        { g with free := g.free + p.stage.slots, turns := g.turns.erase i }

namespace State

variable (S : Setup) (s : State) (i : Nat) (c : Call)

theorem gate_records (e : Nat → Event) (ks : List Nat) :
    (ks.foldl (fun s k => s.record i (e k)) s).gate = s.gate := by
  induction ks generalizing s with
  | nil => rfl
  | cons k ks ih => exact ih (s.record i (e k))

theorem gate_inform (why : Telling) (next : Nat) : (s.inform S i c why next).gate = s.gate := by
  unfold inform
  obtain ⟨told, wait⟩ := tellFrom s.now next (S.hooks.drop next)
  have hr := gate_records s i (fun k => .told k c.identity (S.shown why.notice)) told
  cases wait with
  | some w => exact hr
  | none => cases why <;> exact hr

/-- A call that leaves gives back its slot and its place in the queue. -/
theorem gate_leave : ((s.release c).leave i).gate =
    { s.gate with free := s.free + c.phase.stage.slots, turns := s.turns.erase i } := by
  unfold release
  rw [Phase.slots_eq]
  split <;> rfl

theorem gate_settle (notice : Notice) (give : Handover) :
    (s.settle S i c notice give).gate =
      { s.gate with free := s.free + c.phase.stage.slots, turns := s.turns.erase i } :=
  (gate_inform ..).trans (gate_leave s i c)

end State

/-! ## Steps -/

section
variable {S : Setup} {s t : State} {i : Nat} {c : Call}

/-- `t` is what a step of call `i` makes of `s`. -/
def Shifted (S : Setup) (s : State) (i : Nat) (c : Call) (t : State) : Prop :=
  ∃ c', t.calls = s.calls.set i c' ∧ Shift S s.now i c.phase s.gate c'.phase t.gate

theorem shifted_settle (h : Did s i [] c s) (hp : c.phase.stage ≠ .settled) (notice : Notice)
    (give : Handover) : Shifted S s i c (s.settle S i c notice give) := by
  refine ⟨_, (h.settle c notice give).calls, ?_⟩
  rw [State.gate_settle]
  exact .settle hp (stage_tell ..)

/-- A call that goes on with its slot. -/
theorem shifted_stay {es : List Event} {c' : Call} (h : Did s i es c' t) (hg : t.gate = s.gate)
    (hp : c'.phase.stage = c.phase.stage) (hpace : c'.phase = .pacing ↔ c.phase = .pacing) :
    Shifted S s i c t :=
  ⟨c', h.calls, hg ▸ .stay hp hpace⟩

theorem shifted_retry (h : Did s i [] c s) {n : Nat} {deadline : Option Nat} {w : Work Outcome}
    (hp : c.phase = .attempting n deadline w) (spread : Nat) (e : ChatError) :
    Shifted S s i c (s.retry S i c n spread e) := by
  unfold State.retry
  split
  · exact shifted_stay (h.setPhase c _) rfl (by rw [hp]; rfl) (by simp [hp])
  · exact shifted_settle h (by rw [hp]; nofun) _ _

theorem shifted_finishAttempt (h : Did s i [] c s) {n : Nat} {deadline : Option Nat}
    {w : Work Outcome} (hp : c.phase = .attempting n deadline w) (spread : Nat) (o : Outcome) :
    Shifted S s i c (s.finishAttempt S i c n spread o) := by
  have hstage : c.phase.stage ≠ .settled := by rw [hp]; nofun
  match o with
  | .failure e => exact shifted_retry h hp spread e
  | .response r => exact shifted_settle h hstage _ _
  | .stream none => exact shifted_settle h hstage _ _
  | .stream (some d) =>
    exact shifted_stay (h.hand c .stream _) rfl (by rw [hp]; rfl) (by simp [hp])

theorem shifted_deliver (h : Did s i [] c s) (hp : c.phase.stage = .inside)
    (hpace : c.phase ≠ .pacing) (d : Delta) : Shifted S s i c (s.deliver S i c d) := by
  unfold State.deliver
  split
  · exact shifted_settle h (by rw [hp]; nofun) _ _
  · exact shifted_stay (h.hand c (.delta d) _) rfl hp.symm (by simp [hpace])

theorem shifted_finishPull (h : Did s i [] c s) {w : Work Pulled} (hp : c.phase = .pulling w)
    (o : Pulled) : Shifted S s i c (s.finishPull S i c o) := by
  have hstage : c.phase.stage ≠ .settled := by rw [hp]; nofun
  match o with
  | some (.ok d) => exact shifted_deliver h (by rw [hp]; rfl) (by rw [hp]; nofun) d
  | some (.error e) => exact shifted_settle h hstage _ _
  | none => exact shifted_settle h hstage _ _

theorem shifted_make (h : Did s i [] c s) {freshRequest freshCorrelation : String} {q : Request}
    (hs : s.make S i c freshRequest freshCorrelation q = some t) : Shifted S s i c t := by
  unfold State.make at hs
  split at hs
  · next hp =>
    split at hs
    · next e _ =>
      cases hs
      exact ⟨_, (h.hand c (.failure e) .over).calls, .refuse (by rw [hp]; rfl) rfl⟩
    · next p u r _ =>
      cases hs
      refine shifted_stay (h.inform _ .start 0) (State.gate_inform ..) ?_ ?_
      · rw [hp]
        exact stage_tell ..
      · simp [hp, tell_ne_pacing]
  · cases hs

theorem shifted_enter (h : Did s i [] c s) (hp : c.phase = .queued) (hfree : 0 < s.free)
    (w : Work Outcome) :
    Shifted S s i c
      ({ s with waiting := s.waiting.tail, free := s.free - 1 }.enter S i c w) := by
  have hd : Did s i [] c { s with waiting := s.waiting.tail, free := s.free - 1 } :=
    ⟨rfl, h.calls, h.history⟩
  unfold State.enter
  split
  · next hm => exact ⟨_, (hd.attempt c 0 w).calls, .letIn hp hm hfree⟩
  · next d hm =>
    have hd' : Did s i [] c { s with
        waiting := s.waiting.tail, free := s.free - 1, turns := s.turns ++ [i] } :=
      ⟨rfl, h.calls, h.history⟩
    exact ⟨_, (hd'.setPhase c .pacing).calls, .lineUp hp (by simp [hm]) hfree⟩

theorem shifted_unless {f : Option State} (h : Did s i [] c s) (hp : c.phase.stage ≠ .settled)
    {notice : Notice} {give : Handover}
    (hs : (if c.cancelled then some (s.settle S i c notice give) else f) = some t)
    (go : f = some t → Shifted S s i c t) : Shifted S s i c t := by
  split at hs
  · cases hs
    exact shifted_settle h hp _ _
  · exact go hs

theorem shifted_poll (h : Did s i [] c s) {w : Work Outcome} {spread : Nat}
    (hs : s.poll S i c w spread = some t) : Shifted S s i c t := by
  unfold State.poll at hs
  split at hs
  · next why next due hp =>
    split at hs
    · cases hs
      refine shifted_stay (h.inform c why next) (State.gate_inform ..) ?_ ?_
      · rw [hp, stage_telling]
        exact stage_tell ..
      · simp [hp, tell_ne_pacing]
    · cases hs
  · next hp =>
    refine shifted_unless h (by rw [hp]; nofun) hs fun hs => ?_
    split at hs
    · next hfree =>
      cases hs
      exact shifted_enter h hp hfree.2 w
    · cases hs
  · next hp =>
    refine shifted_unless h (by rw [hp]; nofun) hs fun hs => ?_
    split at hs
    · next hturn =>
      cases hs
      have hd : Did s i [] c { s with
          turns := s.turns.tail
          nextTurn := S.options.minDelay.map (Duration.later s.now) } :=
        ⟨rfl, h.calls, h.history⟩
      exact ⟨_, (hd.attempt c 0 w).calls, .pass hp hturn.1 hturn.2⟩
    · cases hs
  · next n deadline current hp =>
    refine shifted_unless h (by rw [hp]; nofun) hs fun hs => ?_
    split at hs
    · cases hs
      exact shifted_finishAttempt h hp spread _
    · split at hs
      · cases hs
        exact shifted_retry h hp spread _
      · cases hs
  · next n due hp =>
    refine shifted_unless h (by rw [hp]; nofun) hs fun hs => ?_
    split at hs
    · cases hs
      exact shifted_stay (h.attempt c (n + 1) w) rfl (by rw [hp]; rfl) (by simp [hp])
    · cases hs
  · next current hp =>
    refine shifted_unless h (by rw [hp]; nofun) hs fun hs => ?_
    split at hs
    · cases hs
      exact shifted_finishPull h hp _
    · cases hs
  all_goals cases hs

theorem shifted_pull (h : Did s i [] c s) {w : Work Pulled} (hs : s.pull S i c w = some t) :
    Shifted S s i c t := by
  unfold State.pull at hs
  split at hs
  · next d hp =>
    cases hs
    exact shifted_deliver h (by rw [hp]; rfl) (by rw [hp]; nofun) d
  · next hp =>
    cases hs
    exact shifted_stay (h.setPhase c _) rfl (by rw [hp]; rfl) (by simp [hp])
  · next hp =>
    cases hs
    exact shifted_stay (h.hand c .close .over) rfl (by rw [hp]; rfl) (by simp [hp])
  · cases hs

theorem shifted_drop (h : Did s i [] c s) (hs : s.drop i c = some t) : Shifted S s i c t := by
  have letGo : c.phase.stage ≠ .settled → Shifted S s i c ((s.record i .dropped).abandon i c) := by
    intro hp
    refine ⟨_, (((h.record .dropped).release c).leave.setPhase c (.telling .abandon 0 s.now)).calls,
      ?_⟩
    have hg : ((s.record i .dropped).abandon i c).gate =
        { s.gate with free := s.free + c.phase.stage.slots, turns := s.turns.erase i } :=
      State.gate_leave (s.record i .dropped) i c
    rw [hg]
    exact .settle hp rfl
  unfold State.drop at hs
  split at hs
  case h_1 =>
    next hp =>
    cases hs
    exact ⟨_, ((h.record .dropped).setPhase c .over).calls, .refuse (by rw [hp]; rfl) rfl⟩
  case h_2 | h_3 =>
    next hp =>
    cases hs
    exact shifted_stay ((h.record .dropped).setPhase c .over) rfl (by rw [hp]; rfl) (by simp [hp])
  case h_10 | h_11 | h_12 => cases hs
  all_goals
    next hp =>
    cases hs
    exact letGo (by rw [hp]; nofun)

/-- What a step of a call does to the gate. -/
theorem step_shift {a : Input} (h : step? S s a = some t) (ha : a.target = some i) :
    ∃ c c', s.calls[i]? = some c ∧ t.calls = s.calls.set i c' ∧
      Shift S s.now i c.phase s.gate c'.phase t.gate := by
  have of_shifted : ∀ {c : Call}, s.calls[i]? = some c → Shifted S s i c t →
      ∃ c c', s.calls[i]? = some c ∧ t.calls = s.calls.set i c' ∧
        Shift S s.now i c.phase s.gate c'.phase t.gate :=
    fun hc ⟨c', hcalls, hshift⟩ => ⟨_, c', hc, hcalls, hshift⟩
  cases a with
  | tick => cases ha
  | call j fr fc q =>
    cases ha
    obtain ⟨c, hc, h⟩ := Option.bind_eq_some_iff.1 h
    exact of_shifted hc (shifted_make (.refl hc) h)
  | cancel j =>
    cases ha
    obtain ⟨c, hc, rfl⟩ := Option.map_eq_some_iff.1 h
    exact ⟨c, _, hc, rfl, .stay rfl Iff.rfl⟩
  | poll j w spread =>
    cases ha
    obtain ⟨c, hc, h⟩ := Option.bind_eq_some_iff.1 h
    exact of_shifted hc (shifted_poll (.refl hc) h)
  | pull j w =>
    cases ha
    obtain ⟨c, hc, h⟩ := Option.bind_eq_some_iff.1 h
    exact of_shifted hc (shifted_pull (.refl hc) h)
  | drop j =>
    cases ha
    obtain ⟨c, hc, h⟩ := Option.bind_eq_some_iff.1 h
    exact of_shifted hc (shifted_drop (.refl hc) h)

theorem step_shift_call {a : Input} (h : step? S s a = some t) (ha : a.target = some i) :
    ∃ c c', s.calls[i]? = some c ∧ t.calls[i]? = some c' ∧
      Shift S s.now i c.phase s.gate c'.phase t.gate := by
  obtain ⟨c, c', hc, hcalls, hshift⟩ := step_shift h ha
  obtain ⟨hi, -⟩ := List.getElem?_eq_some_iff.1 hc
  exact ⟨c, c', hc, by rw [hcalls, List.getElem?_set_self hi], hshift⟩

/-- Time does nothing to calls or the gate. -/
theorem step_tick {a : Input} (h : step? S s a = some t) (ha : a.target = none) :
    t.calls = s.calls ∧ t.gate = s.gate := by
  cases a with
  | tick later =>
    simp only [step?] at h
    split at h <;> cases h
    exact ⟨rfl, rfl⟩
  | _ => cases ha

end

/-! ## Notes of a run -/

/-- What `note` says of the steps of a run, in order. -/
def along {α : Type} (S : Setup) (note : State → Input → State → List α) (s : State) :
    List Input → List α
  | [] => []
  | a :: as =>
    match step? S s a with
    | some t => note s a t ++ along S note t as
    | none => []

section
variable {α : Type} {S : Setup} {note : State → Input → State → List α} {s m t : State}

theorem along_append {as bs : List Input} (h : run? S s as = some m) :
    along S note s (as ++ bs) = along S note s as ++ along S note m bs := by
  induction as generalizing s with
  | nil => cases h; rfl
  | cons a as ih =>
    obtain ⟨u, hu, hr⟩ := run_cons.1 h
    simp only [List.cons_append, along, hu, ih hr, List.append_assoc]

theorem along_concat {as : List Input} {a : Input} (h : run? S s as = some m)
    (hs : step? S m a = some t) :
    along S note s (as ++ [a]) = along S note s as ++ note m a t := by
  rw [along_append h]
  simp only [along, hs, List.append_nil]

/-- What holds at first and is kept by a last step holds of every run. -/
theorem run_induction {P : List Input → State → Prop} (start : P [] s)
    (step : ∀ {as : List Input} {m t : State} {a : Input}, run? S s as = some m → P as m →
      step? S m a = some t → P (as ++ [a]) t) :
    ∀ {as : List Input} {t : State}, run? S s as = some t → P as t := by
  intro as
  induction as using List.reverseRecOn with
  | nil =>
    intro t h
    cases h
    exact start
  | append_singleton as a ih =>
    intro t h
    obtain ⟨m, hm, ht⟩ := run_append.1 h
    obtain ⟨u, hu, hr⟩ := run_cons.1 ht
    cases hr
    exact step hm (ih hm) hu

end

end Switchboard.Client
