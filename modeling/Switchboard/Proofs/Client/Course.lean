import Switchboard.Proofs.Client.Reach

/-!
# The course of a call

A call for a single response makes attempt after attempt. Where the clock stops at every instant at
which something of the call is due (`Exactly`), the instants of all attempts and the result of each
follow from when the first one started (`startOf`, `resultOf`).
-/

namespace Switchboard.Client

open Chat

/-- What attempts take, with all the waits there really are in them, and come to if no deadline cuts
them off, by number. -/
structure Course where
  duration : Nat → Nat
  result : Nat → Except ChatError Response

def Outcome.ofResult : Except ChatError Response → Outcome
  | .ok r => response r
  | .error e => failure e

def Handover.ofResult : Except ChatError Response → Handover
  | .ok r => response r
  | .error e => failure e

/-- The work of attempt `k` if it starts at `t`. -/
def Course.work (course : Course) (t k : Nat) : Work Outcome :=
  ⟨some (t + course.duration k), .ofResult (course.result k)⟩

/-- The deadline of an attempt that starts at `t`. -/
def Setup.deadline (S : Setup) (t : Nat) : Option Nat :=
  S.options.requestTimeout.map (Duration.later t)

section
variable (S : Setup) (course : Course)

/-- When attempt `k` ends if it starts at `t`. -/
def endOf (t k : Nat) : Nat :=
  match S.deadline t with
  | some due => min (t + course.duration k) due
  | none => t + course.duration k

/-- What attempt `k` comes to if it starts at `t`. -/
def resultOf (t k : Nat) : Except ChatError Response :=
  match S.deadline t with
  | some due =>
    if t + course.duration k ≤ due then course.result k
    else .error (.timeout (S.options.requestTimeout.getD 0))
  | none => course.result k

/-- When attempt `k` starts if the first one does at `t0`. -/
def startOf (t0 : Nat) : Nat → Nat
  | 0 => t0
  | k + 1 => Duration.later (endOf S course (startOf t0 k) k) (S.options.baseBackoff k)

def resultAt (t0 k : Nat) : Except ChatError Response := resultOf S course (startOf S course t0 k) k

/-- Attempt `k` is the last one if it is made. -/
def Stops (t0 k : Nat) : Prop :=
  match resultAt S course t0 k with
  | .ok _ => True
  | .error e => S.retryable e = false ∨ k = S.options.maxRetries

/-- The first `m` attempts with their instants. -/
def schedule (t0 m : Nat) : List (Nat × Nat) :=
  (List.range m).map fun k => (startOf S course t0 k, k)

end

/-- The attempts that were made, with their instants. -/
def attemptTimes (trace : List (Nat × Event)) : List (Nat × Nat) :=
  trace.filterMap fun
    | (t, .attempted n _) => some (t, n)
    | _ => none

/-! ## An exact clock -/

/-- Something of the call is due at `due`. -/
def Phase.Awaits : Phase → Nat → Prop
  | attempting _ deadline w, due => deadline = some due ∨ w.done = some due
  | backingOff _ d, due => d = due
  | _, _ => False

/-- The attempts of call `i` follow `course`, the call is not cancelled, and the clock does not go
past an instant at which something of it is due. -/
def Exactly (S : Setup) (course : Course) (i : Nat) (s : State) : Input → Prop
  | .tick later => ∀ c due, s.calls[i]? = some c → c.phase.Awaits due → later ≤ due
  | .poll j w _ => j = i → ∀ c n, s.calls[i]? = some c → Starts S s.now c n →
      w = course.work s.now n
  | .cancel j => j ≠ i
  | _ => True

section
variable {S : Setup} {course : Course} {t k now : Nat}

theorem le_endOf (S : Setup) (course : Course) (t k : Nat) : t ≤ endOf S course t k := by
  unfold endOf
  cases h : S.deadline t with
  | none => exact Nat.le_add_right ..
  | some due =>
    obtain ⟨T, -, rfl⟩ := Option.map_eq_some_iff.1 h
    exact Nat.le_min.2 ⟨Nat.le_add_right .., Duration.le_later t T⟩

/-- An attempt ends no later than it is done or its deadline passes. -/
theorem endOf_le {due : Nat} (h : S.deadline t = some due ∨ (course.work t k).done = some due) :
    endOf S course t k ≤ due := by
  unfold endOf
  rcases h with h | h
  · rw [h]
    exact Nat.min_le_right ..
  · cases h
    cases S.deadline t with
    | none => exact Nat.le_refl _
    | some due => exact Nat.min_le_left ..

theorem le_endOf_of_awaits (h : ∀ due, S.deadline t = some due ∨
    (course.work t k).done = some due → now ≤ due) : now ≤ endOf S course t k := by
  unfold endOf
  cases hd : S.deadline t with
  | none => exact h _ (.inr rfl)
  | some due => exact Nat.le_min.2 ⟨h _ (.inr rfl), h _ (.inl hd)⟩

/-- When an attempt has ended, it has come to its result. -/
theorem outcomeBy_endOf (S : Setup) (course : Course) (t k : Nat) :
    S.outcomeBy (endOf S course t k) (S.deadline t) (course.work t k) =
      some (.ofResult (resultOf S course t k)) := by
  unfold Setup.outcomeBy endOf resultOf
  cases hd : S.deadline t with
  | none => simp [Course.work, reached]
  | some due =>
    by_cases h : t + course.duration k ≤ due
    · simp [Course.work, reached, h]
    · have hmin : min (t + course.duration k) due = due := by omega
      simp [Course.work, reached, h, hmin, Outcome.ofResult]

/-- An attempt does not end early. -/
theorem outcomeBy_eq {o : Outcome} (hle : now ≤ endOf S course t k)
    (ho : S.outcomeBy now (S.deadline t) (course.work t k) = some o) :
    now = endOf S course t k ∧ o = .ofResult (resultOf S course t k) := by
  have hnow : now = endOf S course t k := by
    refine Nat.le_antisymm hle ?_
    unfold Setup.outcomeBy at ho
    split at ho
    · next h => exact Nat.le_trans (endOf_le (.inr rfl)) (by simpa [Course.work, reached] using h)
    · split at ho
      · next h =>
        cases hd : S.deadline t with
        | none => rw [hd] at h; cases h
        | some due => exact Nat.le_trans (endOf_le (.inl hd)) (by simpa [hd, reached] using h)
      · cases ho
  subst hnow
  rw [outcomeBy_endOf] at ho
  exact ⟨rfl, (Option.some.inj ho).symm⟩

/-- An attempt ends after what it takes or at its deadline, whichever comes first, and it succeeds
or fails on its own just if it does not take longer than that. -/
theorem endOf_resultOf_eq {T limit : Nat} (hT : S.options.requestTimeout = some T)
    (hdue : Duration.later t T = t + limit) :
    endOf S course t k = t + min (course.duration k) limit ∧
      resultOf S course t k =
        if course.duration k ≤ limit then course.result k else .error (.timeout T) := by
  have hd : S.deadline t = some (t + limit) := by
    rw [Setup.deadline, hT, Option.map_some, hdue]
  unfold endOf resultOf
  simp only [hd, hT, Option.getD_some, Nat.add_le_add_iff_left, and_true]
  omega

end

section
variable {S : Setup} {course : Course} {i : Nat} {s : State} {c : Call}

/-- The clock may go as far as the next instant at which something of the call is due. -/
theorem exactly_tick {later : Nat} (hc : s.calls[i]? = some c)
    (h : ∀ due, c.phase.Awaits due → later ≤ due) : Exactly S course i s (.tick later) := by
  intro d due hd haw
  rw [hc] at hd
  cases hd
  exact h due haw

theorem exactly_poll (hc : s.calls[i]? = some c) (hp : c.phase.nextAttempt = none)
    (w : Work Outcome) (spread : Nat) : Exactly S course i s (.poll i w spread) := by
  intro _ d n hd hs
  exact absurd hs (not_starts hc hp hd)

/-- The next attempt of a call is given its work. -/
theorem exactly_start {n : Nat} (hc : s.calls[i]? = some c)
    (hp : c.phase.nextAttempt = some n) (spread : Nat) :
    Exactly S course i s (.poll i (course.work s.now n) spread) := by
  intro _ d k hd hs
  rw [hc] at hd
  cases hd
  rw [hs.nextAttempt] at hp
  rw [Option.some.inj hp]

end

end Switchboard.Client
