import Switchboard.Resilience.Options

/-!
# How long pauses grow

The pause before a retry is twice the one before, up to the longest pause there is, but only as long
as the factor fits a word: after attempt 32 it is one part in `2^32` short of the doubled one, and
it grows no more. `baseBackoff_eq_doubled_iff` tells which options come to see that, and
`baseBackoff_law` puts the exact value and its bounds together.
-/

namespace Switchboard.Resilience.Options

/-! ## The factor -/

theorem maxFactor_eq : maxFactor = Nat.pow 2 32 - 1 := by decide

theorem factor_eq_min (attempt : Nat) : factor attempt = min (Nat.pow 2 attempt) maxFactor := by
  unfold factor
  split
  · next h =>
    have hle : Nat.pow 2 attempt ≤ Nat.pow 2 31 := Nat.pow_le_pow_right (by decide) (by omega)
    exact (Nat.min_eq_left (Nat.le_trans hle (by decide))).symm
  · next h =>
    have hle : Nat.pow 2 32 ≤ Nat.pow 2 attempt := Nat.pow_le_pow_right (by decide) (by omega)
    exact (Nat.min_eq_right (Nat.le_trans (by decide) hle)).symm

theorem factor_eq_pow {attempt : Nat} (h : attempt < 32) : factor attempt = Nat.pow 2 attempt :=
  if_pos h

/-! ## The pause -/

section
variable {o : Options}

/-- The largest duration makes no difference to a pause, because no longest pause is above it. -/
theorem baseBackoff_eq (h : o.maxBackoff ≤ Duration.max) (attempt : Nat) :
    o.baseBackoff attempt = min (o.initialBackoff * factor attempt) o.maxBackoff := by
  unfold baseBackoff Duration.saturatingMul
  omega

/-- A pause is the doubled one unless the word is full, nothing has cut the pause short by then, and
there is something to double. -/
theorem baseBackoff_eq_doubled_iff (h : o.maxBackoff ≤ Duration.max) (attempt : Nat) :
    o.baseBackoff attempt = min (o.initialBackoff * Nat.pow 2 attempt) o.maxBackoff ↔
      attempt < 32 ∨ o.initialBackoff = 0 ∨
        o.maxBackoff ≤ o.initialBackoff * (Nat.pow 2 32 - 1) := by
  rw [baseBackoff_eq h, ← maxFactor_eq]
  by_cases hlt : attempt < 32
  · simp [hlt, factor_eq_pow hlt]
  · have hfull : factor attempt = maxFactor := if_neg hlt
    have hpow : maxFactor < Nat.pow 2 attempt :=
      Nat.lt_of_lt_of_le (by decide : maxFactor < Nat.pow 2 32)
        (Nat.pow_le_pow_right (by decide) (by omega))
    rw [hfull]
    rcases Nat.eq_zero_or_pos o.initialBackoff with hzero | hpos
    · simp [hzero]
    · have hless := Nat.mul_lt_mul_of_pos_left hpow hpos
      generalize o.initialBackoff * maxFactor = most at hless ⊢
      omega

end

/-- The pause after attempt number `attempt` is the first one times the power of two that a word
holds, cut to the longest, and so never more than a duration can be. It is the first one doubled
`attempt` times, cut to the longest, if and only if that takes fewer than 32 doublings, the first
one is zero, or the longest is reached with the largest word. -/
theorem baseBackoff_law {o : Options} (h : o.maxBackoff ≤ Duration.max) (attempt : Nat) :
    o.baseBackoff attempt =
        min (o.initialBackoff * min (Nat.pow 2 attempt) (Nat.pow 2 32 - 1)) o.maxBackoff ∧
      o.baseBackoff attempt ≤ Duration.max ∧
      (o.baseBackoff attempt = min (o.initialBackoff * Nat.pow 2 attempt) o.maxBackoff ↔
        attempt < 32 ∨ o.initialBackoff = 0 ∨
          o.maxBackoff ≤ o.initialBackoff * (Nat.pow 2 32 - 1)) := by
  refine ⟨?_, Nat.le_trans (o.baseBackoff_le attempt) h, baseBackoff_eq_doubled_iff h attempt⟩
  exact (baseBackoff_eq h attempt).trans (by rw [factor_eq_min, maxFactor_eq])

/-- A nanosecond at first, and ten seconds at most. -/
def patientFromNothing : Options := { initialBackoff := 1, maxBackoff := Duration.ofSecs 10 }

/-- After more than four seconds the pause grows no more, although it may be ten. -/
theorem long_pause_law :
    patientFromNothing.maxBackoff ≤ Duration.max ∧
      patientFromNothing.baseBackoff 40 = 4294967295 ∧
      patientFromNothing.baseBackoff 31 = min (1 * Nat.pow 2 31) (Duration.ofSecs 10) := by
  have h : patientFromNothing.maxBackoff ≤ Duration.max := by decide
  obtain ⟨hword, -, -⟩ := baseBackoff_law h 40
  obtain ⟨-, -, hdoubled⟩ := baseBackoff_law h 31
  exact ⟨h, hword.trans (by decide +kernel), hdoubled.2 (.inl (by decide))⟩

/-- The pause after attempt 32 is a nanosecond short of the doubled one, which is not too long. -/
theorem doubling_stops_short :
    patientFromNothing.baseBackoff 32 = Nat.pow 2 32 - 1 ∧
      min (patientFromNothing.initialBackoff * Nat.pow 2 32) patientFromNothing.maxBackoff =
        Nat.pow 2 32 := by
  decide +kernel

end Switchboard.Resilience.Options
