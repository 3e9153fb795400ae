/-!
# Spans of time

A duration is a natural number of nanoseconds up to `Duration.max`, just below `2^64` seconds. An
instant is the duration since the start of the clock.
-/

namespace Switchboard.Duration

def second : Nat := 1000000000

def ofMillis (ms : Nat) : Nat := ms * 1000000

def ofSecs (s : Nat) : Nat := s * second

def max : Nat := (Nat.pow 2 64 - 1) * second + 999999999

/-- Whole milliseconds, rounded down. -/
def millis (d : Nat) : Nat := d / 1000000

/-- `d * n`, or the largest duration where that does not fit. -/
def saturatingMul (d n : Nat) : Nat := min (d * n) max

/-- The first whole millisecond at or after `t`: timers fire there. -/
def ceilMillis (t : Nat) : Nat := (t + 999999) / 1000000 * 1000000

/-- The last instant that the clock can show. -/
def lastInstant : Nat := (Nat.pow 2 63 - 1) * second + 999999999

/-- Thirty years: how long a wait lasts that would go past the last instant. -/
def farFuture : Nat := 30 * 365 * 86400 * second

/-- The instant `d` after `t`. -/
def later (t d : Nat) : Nat := if t + d ≤ lastInstant then t + d else t + farFuture

def pad (width : Nat) (cs : List Char) : List Char :=
  List.replicate (width - cs.length) '0' ++ cs

/-- Seconds with nine decimal places. -/
def decimal (d : Nat) : String :=
  String.ofList (Nat.toDigits 10 (d / second) ++ '.' :: pad 9 (Nat.toDigits 10 (d % second)))

theorem le_later (t d : Nat) : t ≤ later t d := by
  unfold later; split <;> omega

theorem later_of_le {t d : Nat} (h : t + d ≤ lastInstant) : later t d = t + d := if_pos h

theorem later_of_lt {t d : Nat} (h : lastInstant < t + d) : later t d = t + farFuture :=
  if_neg (Nat.not_le_of_lt h)

theorem later_le_lastInstant {t : Nat} (h : t + farFuture ≤ lastInstant) (d : Nat) :
    later t d ≤ lastInstant := by
  unfold later; split <;> assumption

theorem ceilMillis_add {t : Nat} (h : ceilMillis t = t) (d : Nat) :
    ceilMillis (t + d) = t + ceilMillis d := by
  unfold ceilMillis at *
  generalize (t + 999999) / 1000000 = q at h
  subst h
  rw [Nat.add_assoc, Nat.mul_comm q, Nat.mul_add_div (by decide), Nat.add_mul, Nat.mul_comm q]

theorem ceilMillis_ofMillis (ms : Nat) : ceilMillis (ofMillis ms) = ofMillis ms := by
  simp only [ceilMillis, ofMillis]; omega

theorem ceilMillis_mono {t u : Nat} (h : t ≤ u) : ceilMillis t ≤ ceilMillis u := by
  simp only [ceilMillis]; omega

theorem ceilMillis_farFuture : ceilMillis farFuture = farFuture := ceilMillis_ofMillis 946080000000

end Switchboard.Duration
