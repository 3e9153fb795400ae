import Switchboard.Chat.Error

/-!
# Resilience options

How often a failed attempt is repeated and after which pause, how long one attempt may take, how
many calls run at once and how far apart they start. The pause doubles with every retry up to
`maxBackoff`; the factor is a 32-bit word and stays at its largest value from the 32nd retry on.
-/

namespace Switchboard.Resilience

open Chat

/-- The largest 32-bit factor. -/
def maxFactor : Nat := Nat.pow 2 32 - 1

/-- The most calls that can be admitted at once. -/
def maxSlots : Nat := Nat.pow 2 61 - 1

/-- The limit of an executor that has none. -/
def unlimited : Nat := Nat.pow 2 64 - 1

structure Options where
  maxRetries : Nat := 2
  initialBackoff : Nat := Duration.ofMillis 200
  maxBackoff : Nat := Duration.ofSecs 2
  jitter : Bool := true
  requestTimeout : Option Nat := none
  maxConcurrent : Nat := unlimited
  minDelay : Option Nat := none

namespace Options

/-- `2^attempt`, at most `maxFactor`. -/
def factor (attempt : Nat) : Nat := if attempt < 32 then Nat.pow 2 attempt else maxFactor

/-- The pause before retry number `attempt + 1`. -/
def baseBackoff (o : Options) (attempt : Nat) : Nat :=
  min (Duration.saturatingMul o.initialBackoff (factor attempt)) o.maxBackoff

/-- The pause that is made: with jitter it is drawn from an eighth below the base to an eighth
above it, `spread` being the thousandths above the least, up to 250. -/
def pause (o : Options) (attempt spread : Nat) : Nat :=
  if o.jitter then min (o.baseBackoff attempt * (875 + min spread 250) / 1000) Duration.max
  else o.baseBackoff attempt

/-- The number of calls that may run at once: at least one. -/
def slots (o : Options) : Nat := max 1 (min o.maxConcurrent maxSlots)

theorem baseBackoff_le (o : Options) (attempt : Nat) : o.baseBackoff attempt ≤ o.maxBackoff :=
  Nat.min_le_right _ _

theorem slots_pos (o : Options) : 0 < o.slots := by
  simp only [slots]; omega

end Options
end Switchboard.Resilience
