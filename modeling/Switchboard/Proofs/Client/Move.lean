import Switchboard.Client.Step

/-!
# Moves of a call

`Move S now a c es c'` lists all that an input `a` can do to a call: at the instant `now` the call
`c` becomes `c'`, and the events `es` happen on its account, in this order. `State.trace` is what
has happened to one call. Where hooks are told, all that can come of it is in `tell_cases`.
-/

namespace Switchboard.Client

open Chat

/-- The call that an input is about. -/
def Input.target : Input → Option Nat
  | tick _ => none
  | call i .. | cancel i | poll i .. | pull i _ | drop i => some i

/-! ## What has happened -/

/-- The events of call `i` with their instants, the first in front. -/
def State.trace (s : State) (i : Nat) : List (Nat × Event) :=
  (s.history.filter (·.call == i)).reverse.map fun e => (e.time, e.event)

def State.events (s : State) (i : Nat) : List Event := (s.trace i).map (·.2)

/-- Something that hooks were told. -/
def Event.isTold : Event → Bool
  | told .. => true
  | _ => false

def attempts (es : List Event) : List Nat :=
  es.filterMap fun
    | .attempted n _ => some n
    | _ => none

def handed (es : List Event) : List Handover :=
  es.filterMap fun
    | .handed h => some h
    | _ => none

@[simp]
theorem attempts_append (es es' : List Event) :
    attempts (es ++ es') = attempts es ++ attempts es' := List.filterMap_append

@[simp]
theorem handed_append (es es' : List Event) : handed (es ++ es') = handed es ++ handed es' :=
  List.filterMap_append

@[simp]
theorem attempts_handed (h : Handover) (es : List Event) :
    attempts (.handed h :: es) = attempts es := rfl

@[simp]
theorem handed_handed (h : Handover) (es : List Event) :
    handed (.handed h :: es) = h :: handed es := rfl

@[simp]
theorem handed_nil : handed [] = [] := rfl

theorem attempts_told {es : List Event} (h : ∀ e ∈ es, e.isTold) : attempts es = [] := by
  apply List.filterMap_eq_nil_iff.2
  intro e he
  have := h e he
  cases e <;> first | rfl | cases this

theorem handed_told {es : List Event} (h : ∀ e ∈ es, e.isTold) : handed es = [] := by
  apply List.filterMap_eq_nil_iff.2
  intro e he
  have := h e he
  cases e <;> first | rfl | cases this

/-! ## Phases -/

/-- The call is under way and its caller has been handed nothing. -/
def Phase.isAwaiting : Phase → Bool
  | queued | pacing | attempting .. | backingOff .. => true
  | _ => false

/-- The number of the attempt that the call is waiting to make. -/
def Phase.nextAttempt : Phase → Option Nat
  | queued | pacing => some 0
  | backingOff n _ => some (n + 1)
  | _ => none

/-- The call has been started and is not decided. -/
def Phase.isOpen : Phase → Bool
  | streaming _ | pulling _ => true
  | p => p.isAwaiting

/-- The call is being started or is decided, and its caller can still let go of it. -/
def Phase.isClosing : Phase → Bool
  | telling .start _ _ | telling (.settle _ _) _ _ | drained => true
  | _ => false

/-! ## Telling hooks -/

/-- What the caller is handed when all hooks have been told. -/
def Telling.parting (who : Identity) : Telling → List Event
  | settle _ give => [.handed (give.stamp who)]
  | start | abandon => []

/-- The phase when all hooks have been told. -/
def Telling.phaseAfter : Telling → Phase
  | start => .queued
  | settle _ give => give.phaseAfter
  | abandon => .over

/-- Hooks are told from number `next` on: what happens at once, and the phase after it. -/
def Setup.tell (S : Setup) (now : Nat) (who : Identity) (why : Telling) (next : Nat) :
    List Event × Phase :=
  let (told, wait) := tellFrom now next (S.hooks.drop next)
  let events := told.map fun k => Event.told k who (S.shown why.notice)
  match wait with
  | some (next, due) => (events, .telling why next due)
  | none => (events ++ why.parting who, why.phaseAfter)

/-! ## Moves -/

/-- What an attempt has come to by `now`, if it has ended. -/
def Setup.outcomeBy (S : Setup) (now : Nat) (deadline : Option Nat) (work : Work Outcome) :
    Option Outcome :=
  if reached now work.done then some work.outcome
  else if reached now deadline then
    some (.failure (.timeout (S.options.requestTimeout.getD 0)))
  else none

/-- The call goes on to attempt number `n`. -/
inductive Starts (S : Setup) (now : Nat) : Call → Nat → Prop where
  | admitted {c : Call} : c.phase = .queued → S.options.minDelay = none → Starts S now c 0
  | paced {c : Call} : c.phase = .pacing → Starts S now c 0
  | again {c : Call} {n due : Nat} : c.phase = .backingOff n due → due ≤ now →
      Starts S now c (n + 1)

/-- An input decides the call: what hooks are told, and what its caller is handed after that. -/
inductive Decides (S : Setup) (now : Nat) : Input → Call → Notice → Handover → Prop where
  | quit {i : Nat} {w : Work Outcome} {spread : Nat} {c : Call} : c.phase.isAwaiting →
      c.cancelled = true →
      Decides S now (.poll i w spread) c (.failed .cancelled) (.failure .cancelled)
  | interrupt {i : Nat} {w : Work Outcome} {spread : Nat} {c : Call} {w' : Work Pulled} :
      c.phase = .pulling w' → c.cancelled = true →
      Decides S now (.poll i w spread) c (.failed .cancelled) (.fault .cancelled)
  | giveUp {i : Nat} {w w' : Work Outcome} {spread : Nat} {c : Call} {n : Nat}
      {deadline : Option Nat} {e : ChatError} : c.phase = .attempting n deadline w' →
      c.cancelled = false → S.outcomeBy now deadline w' = some (.failure e) →
      ¬ (n < S.options.maxRetries ∧ S.retryable e) →
      Decides S now (.poll i w spread) c (.failed e) (.failure e)
  | respond {i : Nat} {w w' : Work Outcome} {spread : Nat} {c : Call} {n : Nat}
      {deadline : Option Nat} {r : Response} : c.phase = .attempting n deadline w' →
      c.cancelled = false → S.outcomeBy now deadline w' = some (.response r) →
      Decides S now (.poll i w spread) c .ended (.response r)
  | openEmpty {i : Nat} {w w' : Work Outcome} {spread : Nat} {c : Call} {n : Nat}
      {deadline : Option Nat} : c.phase = .attempting n deadline w' → c.cancelled = false →
      S.outcomeBy now deadline w' = some (.stream none) →
      Decides S now (.poll i w spread) c .ended .stream
  | replay {i : Nat} {w : Work Pulled} {c : Call} {d : Delta} : c.phase = .streaming (some d) →
      d.isFinal = true → Decides S now (.pull i w) c .ended (.delta d)
  | finish {i : Nat} {w : Work Outcome} {spread : Nat} {c : Call} {w' : Work Pulled} {d : Delta} :
      c.phase = .pulling w' → c.cancelled = false → reached now w'.done = true →
      w'.outcome = some (.ok d) → d.isFinal = true →
      Decides S now (.poll i w spread) c .ended (.delta d)
  | fault {i : Nat} {w : Work Outcome} {spread : Nat} {c : Call} {w' : Work Pulled}
      {e : ChatError} : c.phase = .pulling w' → c.cancelled = false →
      reached now w'.done = true → w'.outcome = some (.error e) →
      Decides S now (.poll i w spread) c (.failed e) (.fault e)
  | close {i : Nat} {w : Work Outcome} {spread : Nat} {c : Call} {w' : Work Pulled} :
      c.phase = .pulling w' → c.cancelled = false → reached now w'.done = true →
      w'.outcome = none → Decides S now (.poll i w spread) c .ended .close

inductive Move (S : Setup) (now : Nat) : Input → Call → List Event → Call → Prop where
  | cancel {i : Nat} {c : Call} : Move S now (.cancel i) c [] { c with cancelled := true }
  | refuse {i : Nat} {c : Call} {freshRequest freshCorrelation : String} {q : Request}
      {e : ChatError} : c.phase = .unmade →
      S.registry.route freshRequest freshCorrelation q = .error e →
      Move S now (.call i freshRequest freshCorrelation q) c [.handed (.failure e)]
        { c with phase := .over }
  | make {i : Nat} {c : Call} {freshRequest freshCorrelation : String} {q r : Request}
      {p : String × Unit} : c.phase = .unmade →
      S.registry.route freshRequest freshCorrelation q = .ok (p, r) →
      Move S now (.call i freshRequest freshCorrelation q) c
        (S.tell now (r.identity p.1) .start 0).1
        { c with
          identity := r.identity p.1
          request := r
          phase := (S.tell now (r.identity p.1) .start 0).2 }
  | tell {i : Nat} {c : Call} {w : Work Outcome} {spread : Nat} {why : Telling} {next due : Nat} :
      c.phase = .telling why next due → due ≤ now →
      Move S now (.poll i w spread) c (S.tell now c.identity why next).1
        { c with phase := (S.tell now c.identity why next).2 }
  | pace {i : Nat} {c : Call} {w : Work Outcome} {spread : Nat} : c.phase = .queued →
      c.cancelled = false → S.options.minDelay.isSome →
      Move S now (.poll i w spread) c [] { c with phase := .pacing }
  | attempt {i : Nat} {c : Call} {w : Work Outcome} {spread n : Nat} : Starts S now c n →
      c.cancelled = false →
      Move S now (.poll i w spread) c [.attempted n c.request]
        { c with phase := .attempting n (S.options.requestTimeout.map (Duration.later now)) w }
  | backOff {i : Nat} {c : Call} {w w' : Work Outcome} {spread n : Nat} {deadline : Option Nat}
      {e : ChatError} : c.phase = .attempting n deadline w' → c.cancelled = false →
      S.outcomeBy now deadline w' = some (.failure e) → n < S.options.maxRetries →
      S.retryable e = true →
      Move S now (.poll i w spread) c []
        { c with phase := .backingOff n (Duration.later now (S.options.pause n spread)) }
  | commit {i : Nat} {c : Call} {w w' : Work Outcome} {spread n : Nat} {deadline : Option Nat}
      {d : Delta} : c.phase = .attempting n deadline w' → c.cancelled = false →
      S.outcomeBy now deadline w' = some (.stream (some d)) →
      Move S now (.poll i w spread) c [.handed .stream] { c with phase := .streaming (some d) }
  | replay {i : Nat} {c : Call} {w : Work Pulled} {d : Delta} : c.phase = .streaming (some d) →
      d.isFinal = false →
      Move S now (.pull i w) c [.handed (.delta (d.stamp c.identity))]
        { c with phase := .streaming none }
  | pull {i : Nat} {c : Call} {w : Work Pulled} : c.phase = .streaming none →
      Move S now (.pull i w) c [] { c with phase := .pulling w }
  | deliver {i : Nat} {c : Call} {w : Work Outcome} {w' : Work Pulled} {spread : Nat} {d : Delta} :
      c.phase = .pulling w' → c.cancelled = false → reached now w'.done = true →
      w'.outcome = some (.ok d) → d.isFinal = false →
      Move S now (.poll i w spread) c [.handed (.delta (d.stamp c.identity))]
        { c with phase := .streaming none }
  | decide {a : Input} {c : Call} {notice : Notice} {give : Handover} :
      Decides S now a c notice give →
      Move S now a c (S.tell now c.identity (.settle notice give) 0).1
        { c with phase := (S.tell now c.identity (.settle notice give) 0).2 }
  | close {i : Nat} {c : Call} {w : Work Pulled} : c.phase = .drained →
      Move S now (.pull i w) c [.handed .close] { c with phase := .over }
  | forsake {i : Nat} {c : Call} : c.phase.isClosing →
      Move S now (.drop i) c [.dropped] { c with phase := .over }
  | letGo {i : Nat} {c : Call} : c.phase.isOpen →
      Move S now (.drop i) c [.dropped] { c with phase := .telling .abandon 0 now }

theorem Starts.nextAttempt {S : Setup} {now n : Nat} {c : Call} (h : Starts S now c n) :
    c.phase.nextAttempt = some n := by
  cases h with
  | admitted hp | paced hp | again hp => rw [hp]; rfl

/-- Telling either stops at a hook that takes time or comes to its end. -/
theorem tell_cases (S : Setup) (now : Nat) (who : Identity) (why : Telling) (next : Nat) :
    ∃ es : List Event, (∀ e ∈ es, e.isTold) ∧
      ((∃ n due, S.tell now who why next = (es, .telling why n due)) ∨
        S.tell now who why next = (es ++ why.parting who, why.phaseAfter)) := by
  unfold Setup.tell
  obtain ⟨told, wait⟩ := tellFrom now next (S.hooks.drop next)
  have htold : ∀ e ∈ told.map fun k => Event.told k who (S.shown why.notice), e.isTold := by
    intro e he
    obtain ⟨k, -, rfl⟩ := List.mem_map.1 he
    rfl
  cases wait with
  | none => exact ⟨_, htold, .inr rfl⟩
  | some w => exact ⟨_, htold, .inl ⟨w.1, w.2, rfl⟩⟩

/-- What holds while hooks are told, and what when all have been, holds of what telling comes to. -/
theorem tell_elim {P : List Event → Phase → Prop} (S : Setup) (now : Nat) (who : Identity)
    (why : Telling) (next : Nat)
    (waits : ∀ told n due, (∀ e ∈ told, e.isTold) → P told (.telling why n due))
    (ends : ∀ told, (∀ e ∈ told, e.isTold) → P (told ++ why.parting who) why.phaseAfter) :
    P (S.tell now who why next).1 (S.tell now who why next).2 := by
  obtain ⟨told, hq, ⟨n, due, ht⟩ | ht⟩ := tell_cases S now who why next
  · rw [ht]
    exact waits told n due hq
  · rw [ht]
    exact ends told hq

/-- Telling makes no attempt. -/
theorem attempts_tell (S : Setup) (now : Nat) (who : Identity) (why : Telling) (next : Nat) :
    attempts (S.tell now who why next).1 = [] := by
  apply tell_elim (P := fun es _ => attempts es = [])
  · intro told n due hq
    exact attempts_told hq
  · intro told hq
    rw [attempts_append, attempts_told hq]
    cases why <;> rfl

theorem phaseAfter_ne_telling (why why' : Telling) (next due : Nat) :
    why.phaseAfter ≠ .telling why' next due := by
  cases why with
  | settle _ give => cases give <;> nofun
  | _ => nofun

theorem phaseAfter_ne_unmade (give : Handover) : give.phaseAfter ≠ .unmade := by
  cases give <;> nofun

theorem tell_ne_unmade (S : Setup) (now : Nat) (who : Identity) (why : Telling) (next : Nat) :
    (S.tell now who why next).2 ≠ .unmade := by
  apply tell_elim (P := fun _ p => p ≠ .unmade)
  · intro told n due _ h
    cases h
  · intro told _
    cases why with
    | settle notice give => exact phaseAfter_ne_unmade give
    | _ => nofun

/-- A call that was made stays made, and nothing happens to a call before it is made. -/
theorem Move.eq_nil_of_unmade {S : Setup} {now : Nat} {a : Input} {c c' : Call} {es : List Event}
    (h : Move S now a c es c') (hp : c'.phase = .unmade) : c.phase = .unmade ∧ es = [] := by
  cases h with
  | cancel => exact ⟨hp, rfl⟩
  | make | tell | decide => exact absurd hp (tell_ne_unmade _ _ _ _ _)
  | _ => cases hp

/-- A call that is over can only be cancelled. -/
theorem Move.of_over {S : Setup} {now : Nat} {a : Input} {c c' : Call} {es : List Event}
    (hm : Move S now a c es c') (hp : c.phase = .over) : c'.phase = .over ∧ es = [] := by
  cases hm with
  | cancel => exact ⟨hp, rfl⟩
  | attempt hs => cases hs with
    | admitted h | paced h | again h => rw [hp] at h; cases h
  | decide hd => cases hd with
    | quit h | interrupt h | giveUp h | respond h | openEmpty h => rw [hp] at h; cases h
    | replay h | finish h | fault h | close h => rw [hp] at h; cases h
  | refuse h | make h | tell h | pace h | backOff h | commit h => rw [hp] at h; cases h
  | replay h | pull h | deliver h | close h | forsake h | letGo h => rw [hp] at h; cases h

end Switchboard.Client
