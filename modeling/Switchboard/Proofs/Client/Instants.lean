import Switchboard.Proofs.Client.Admission
import Switchboard.Proofs.Client.Reach

/-!
# Instants that a client waits for

A call waits for an instant while a hook is busy, while an attempt may take its time and in a pause,
and a client that keeps calls apart knows the instant of the next turn. A clock that is thirty years
before its end shows all of them (`shown_of_run`), however long timeouts and pauses are.
-/

namespace Switchboard.Client

open Chat

/-- The instant that a call waits for, if it waits for one. -/
def Phase.instant? : Phase → Option Nat
  | .telling _ _ due | .backingOff _ due => some due
  | .attempting _ deadline _ => deadline
  | .unmade | .queued | .pacing | .streaming _ | .pulling _ | .drained | .over => none

/-- The clock can show the instant, if there is one. -/
def OnClock (instant : Option Nat) : Prop := ∀ t ∈ instant, t ≤ Duration.lastInstant

/-- The clock can show all instants that a client waits for. -/
structure Shown (s : State) : Prop where
  calls : ∀ (i : Nat) (c : Call), s.calls[i]? = some c → OnClock c.phase.instant?
  turn : OnClock s.nextTurn

section
variable {S : Setup} {s t : State} {a : Input} {c c' : Call} {es : List Event} {now : Nat}

theorem onClock_none : OnClock none := nofun

theorem onClock_later (hnow : now + Duration.farFuture ≤ Duration.lastInstant) (d : Nat) :
    OnClock (some (Duration.later now d)) := by
  rintro t ⟨⟩
  exact Duration.later_le_lastInstant hnow d

theorem onClock_map_later (hnow : now + Duration.farFuture ≤ Duration.lastInstant)
    (d : Option Nat) : OnClock (d.map (Duration.later now)) := by
  cases d with
  | none => exact onClock_none
  | some d => exact onClock_later hnow d

/-! ## Hooks -/

theorem tellFrom_due {hooks : List Nat} : ∀ {next n due : Nat} {told : List Nat},
    tellFrom now next hooks = (told, some (n, due)) → ∃ d, due = Duration.later now d := by
  induction hooks with
  | nil =>
    intro next n due told h
    cases h
  | cons d hooks ih =>
    intro next n due told h
    cases d with
    | zero =>
      rw [tellFrom] at h
      cases ht : tellFrom now (next + 1) hooks with
      | mk later wait =>
        rw [ht] at h
        cases h
        exact ih ht
    | succ d =>
      cases h
      exact ⟨d + 1, rfl⟩

theorem instant_phaseAfter (why : Telling) : why.phaseAfter.instant? = none := by
  cases why with
  | settle _ give => cases give <;> rfl
  | start | abandon => rfl

theorem onClock_tell (hnow : now + Duration.farFuture ≤ Duration.lastInstant) (who : Identity)
    (why : Telling) (next : Nat) : OnClock (S.tell now who why next).2.instant? := by
  unfold Setup.tell
  match ht : tellFrom now next (S.hooks.drop next) with
  | (_, none) =>
    show OnClock why.phaseAfter.instant?
    rw [instant_phaseAfter]
    exact onClock_none
  | (_, some (n, due)) =>
    obtain ⟨d, rfl⟩ := tellFrom_due ht
    exact onClock_later hnow d

/-! ## Steps -/

/-- A call comes to wait only for instants that the clock can show. -/
theorem Move.onClock (hm : Move S now a c es c')
    (hnow : now + Duration.farFuture ≤ Duration.lastInstant) (hc : OnClock c.phase.instant?) :
    OnClock c'.phase.instant? := by
  cases hm with
  | cancel => exact hc
  | make | tell | decide => exact onClock_tell hnow _ _ _
  | attempt => exact onClock_map_later hnow _
  | backOff => exact onClock_later hnow _
  | letGo =>
    rintro t ⟨⟩
    omega
  | refuse | pace | commit | replay | pull | deliver | close | forsake => exact onClock_none

theorem Shift.onClock {i : Nat} {p p' : Phase} {g g' : Gate} (hs : Shift S now i p g p' g')
    (hnow : now + Duration.farFuture ≤ Duration.lastInstant) (hg : OnClock g.nextTurn) :
    OnClock g'.nextTurn := by
  cases hs with
  | pass => exact onClock_map_later hnow _
  | stay | letIn | lineUp | refuse | settle => exact hg

theorem Shown.step (h : Shown s) (hs : step? S s a = some t)
    (hnow : s.now + Duration.farFuture ≤ Duration.lastInstant) : Shown t := by
  constructor
  · intro i c' hc'
    obtain ⟨es, c, hc, -, ⟨rfl, -⟩ | ⟨-, hm⟩⟩ := step_call_before hs hc'
    · exact h.calls i c' hc
    · exact hm.onClock hnow (h.calls i c hc)
  · show OnClock t.gate.nextTurn
    match ha : a.target with
    | none =>
      rw [(step_tick hs ha).2]
      exact h.turn
    | some i =>
      obtain ⟨c, c', -, -, hshift⟩ := step_shift hs ha
      exact hshift.onClock hnow h.turn

/-! ## Runs -/

theorem shown_start (S : Setup) (n : Nat) : Shown (.start S n) := by
  refine ⟨fun i c hc => ?_, onClock_none⟩
  obtain ⟨hi, rfl⟩ := List.getElem?_eq_some_iff.1 hc
  simp only [State.start, List.getElem_replicate]
  exact onClock_none

theorem shown_of_run {n : Nat} {inputs : List Input} (h : run? S (.start S n) inputs = some s)
    (hnow : s.now + Duration.farFuture ≤ Duration.lastInstant) : Shown s := by
  -- The clock does not go back, so it was before this instant in all earlier states.
  refine run_keeps (P := fun s => s.now + Duration.farFuture ≤ Duration.lastInstant → Shown s)
    (fun {u v a} hu hs hv => ?_) (fun _ => shown_start S n) h hnow
  have hle : u.now ≤ v.now := by
    rcases step_now hs with heq | ⟨-, hle⟩
    · exact Nat.le_of_eq heq.symm
    · exact hle
  exact (hu (by omega)).step hs (by omega)

end

end Switchboard.Client
