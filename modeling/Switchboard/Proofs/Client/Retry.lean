import Switchboard.Client.Script
import Switchboard.Proofs.Client.Schedule

/-!
# How a call is retried

A call for a single response makes attempt after attempt. An attempt ends when its work is done or
its deadline passes, whichever is first; a pause follows that doubles with every retry. It is the
last one if it succeeds, if its error is not to be retried, or if no retry is left. Where the clock
stops at every instant at which something of the call is due, the instants of all attempts and the
result of each follow from when the first one started (`startOf`, `resultOf`), and so does what the
caller is handed (`attempts_follow_course`). Where a timeout or a pause goes past the last instant
of the clock, thirty years stand in for it (`Timed`).
-/

namespace Switchboard.Client

open Chat

/-! ## Coming to an end -/

section
variable {S : Setup} {course : Course} {i m : Nat} {s : State} {c : Call}

theorem freeHooks_exactly (S : Setup) (course : Course) (i : Nat) :
    FreeHooks (Exactly S course i) i where
  tick later hc hp := by
    apply exactly_tick hc
    intro due haw
    rw [hp] at haw
    exact haw.elim
  poll w hc hp := exactly_poll hc (by rw [hp]; rfl) w 0

/-- Attempts are made and the caller of `i` is handed something in the end. -/
def Returns (S : Setup) (course : Course) (i : Nat) (s : State) : Prop :=
  ∃ t, Reaches S (Exactly S course i) s t ∧ attemptTimes (t.trace i) ≠ [] ∧
    handed (t.events i) ≠ []

theorem Returns.of_reaches {t : State} (h : Reaches S (Exactly S course i) s t)
    (ht : Returns S course i t) : Returns S course i s := by
  obtain ⟨u, hu, hh⟩ := ht
  exact ⟨u, h.trans hu, hh⟩

theorem attempted_of_prefix {tr tr' : List (Nat × Event)} (h : tr <+: tr')
    (ha : attemptTimes tr ≠ []) : attemptTimes tr' ≠ [] := by
  obtain ⟨more, rfl⟩ := h
  rw [attemptTimes_append]
  simp [ha]

theorem returns_settle (notice : Notice) (h : Handover) (hc : s.calls[i]? = some c)
    (ha : attemptTimes (s.trace i) ≠ []) : Returns S course i (s.settle S i c notice h) := by
  have hd := (Did.refl hc).settle (S := S) c notice h
  obtain ⟨u, hu, hh⟩ := reaches_settled (freeHooks_exactly S course i) hc hd
  have hp : s.trace i <+: (s.settle S i c notice h).trace i := ⟨_, hd.trace.symm⟩
  have hp := hp.trans hu.trace_prefix
  exact ⟨u, hu, attempted_of_prefix hp ha, by rw [hh]; simp⟩

/-- After its pause a call makes the next attempt. -/
theorem reaches_next (S : Setup) (course : Course) {n due : Nat} (hc : s.calls[i]? = some c)
    (hcan : c.cancelled = false) (hp : c.phase = .backingOff n due) (hle : s.now ≤ due) :
    ∃ t d deadline w, Reaches S (Exactly S course i) s t ∧ t.calls[i]? = some d ∧
      d.phase = .attempting (n + 1) deadline w := by
  let s' : State := { s with now := due }
  have hc' : s'.calls[i]? = some c := hc
  have htick : Exactly S course i s (.tick due) := by
    apply exactly_tick hc
    intro due' haw
    rw [hp] at haw
    exact Nat.le_of_eq haw
  have hpoll : Exactly S course i s' (.poll i (course.work due (n + 1)) 0) :=
    exactly_start hc' (by rw [hp]; rfl) 0
  have hstep : step? S s' (.poll i (course.work due (n + 1)) 0) =
      some (s'.attempt S i c (n + 1) (course.work due (n + 1))) := by
    simp [step?, hc', State.poll, hp, hcan, s']
  have hr : Reaches S (Exactly S course i) s s' := .single htick (by simp [step?, hle, s'])
  exact ⟨_, _, _, _, .step hr hpoll hstep, ((Did.refl hc').attempt c (n + 1) _).call hc', rfl⟩

/-- An attempt ends. -/
theorem reaches_finish (hj : S.options.jitter = false)
    (h : Reaches S (Exactly S course i) (.start S m) s) (hc : s.calls[i]? = some c) {n : Nat}
    {deadline : Option Nat} {w : Work Outcome} (hp : c.phase = .attempting n deadline w) :
    ∃ (s' : State) (r : Except ChatError Response), s'.calls[i]? = some c ∧
      attemptTimes (s'.trace i) ≠ [] ∧
      Reaches S (Exactly S course i) s (s'.finishAttempt S i c n 0 (.ofResult r)) := by
  obtain ⟨hcan, hr⟩ := Retrying.run hj h hc
  rw [hp] at hr
  obtain ⟨t0, hmade, rfl, rfl, hle⟩ := hr
  let t := startOf S course t0 n
  let s' : State := { s with now := endOf S course t n }
  have hc' : s'.calls[i]? = some c := hc
  have htick : Exactly S course i s (.tick (endOf S course t n)) := by
    apply exactly_tick hc
    intro due haw
    rw [hp] at haw
    exact endOf_le haw
  have hpoll : Exactly S course i s' (.poll i (course.work t n) 0) :=
    exactly_poll hc' (by rw [hp]; rfl) _ 0
  have hstep : step? S s' (.poll i (course.work t n) 0) =
      some (s'.finishAttempt S i c n 0 (.ofResult (resultOf S course t n))) := by
    have ho := outcomeBy_endOf S course t n
    unfold Setup.outcomeBy at ho
    simp only [step?, hc', Option.bind_some, State.poll, hp, hcan, Bool.false_eq_true, if_false]
    split at ho
    · next hd => rw [if_pos hd, Option.some.inj ho]
    · next hd =>
      rw [if_neg hd]
      split at ho
      · next hl => rw [if_pos hl, ← Option.some.inj ho]; rfl
      · cases ho
  have hr : Reaches S (Exactly S course i) s s' := .single htick (by simp [step?, hle, s', t])
  exact ⟨s', _, hc', hmade.attempted, .step hr hpoll hstep⟩

/-- A call that makes an attempt comes to its end: each attempt ends, and retries run out. -/
theorem returns_attempting (hj : S.options.jitter = false)
    (h : Reaches S (Exactly S course i) (.start S m) s) (hc : s.calls[i]? = some c) {n : Nat}
    {deadline : Option Nat} {w : Work Outcome} (hp : c.phase = .attempting n deadline w) :
    Returns S course i s := by
  induction hk : S.options.maxRetries - n using Nat.strongRecOn generalizing s c n deadline w with
  | _ k ih =>
    obtain ⟨hcan, -⟩ := Retrying.run hj h hc
    obtain ⟨s', r, hc', ha, hr⟩ := reaches_finish hj h hc hp
    refine .of_reaches hr ?_
    match r with
    | .ok r => exact returns_settle _ _ hc' ha
    | .error e =>
      show Returns S course i (s'.retry S i c n 0 e)
      by_cases hret : n < S.options.maxRetries ∧ S.retryable e
      · let due := Duration.later s'.now (S.options.pause n 0)
        have hs' : s'.retry S i c n 0 e = s'.setPhase i c (.backingOff n due) := if_pos hret
        have hr : Reaches S (Exactly S course i) s (s'.retry S i c n 0 e) := hr
        rw [hs'] at hr ⊢
        have hd' := ((Did.refl hc').setPhase c (.backingOff n due)).call hc'
        obtain ⟨t, d, dl, w', ht, hd, hpd⟩ := reaches_next S course hd' hcan rfl
          (Duration.le_later _ _)
        exact .of_reaches ht (ih (S.options.maxRetries - (n + 1)) (by omega)
          ((h.trans hr).trans ht) hd hpd rfl)
      · have hs' : s'.retry S i c n 0 e = s'.fail S i c e := if_neg hret
        rw [hs']
        exact returns_settle _ _ hc' ha

/-- The call can come to its end: it is being settled, it makes attempts, or it has been or can be
made and nothing keeps it from its first attempt. -/
def Ready (S : Setup) (s : State) (i : Nat) (c : Call) : Prop :=
  match c.phase with
  | .unmade => S.options.minDelay = none ∧ 0 < s.free ∧ s.waiting = [] ∧
      ∃ freshRequest freshCorrelation q e,
        S.registry.route freshRequest freshCorrelation q = .ok e
  | .telling .start _ _ => S.options.minDelay = none ∧ 0 < s.free ∧ s.waiting = []
  | .queued => S.options.minDelay = none ∧ 0 < s.free ∧ s.waiting.head? = some i
  | .attempting .. | .backingOff .. | .telling (.settle ..) _ _ => True
  | _ => False

theorem returns_queued (hj : S.options.jitter = false) (hm : S.options.minDelay = none)
    (h : Reaches S (Exactly S course i) (.start S m) s) (hc : s.calls[i]? = some c)
    (hp : c.phase = .queued) (hfree : 0 < s.free) (hhead : s.waiting.head? = some i) :
    Returns S course i s := by
  obtain ⟨hcan, -⟩ := Retrying.run hj h hc
  let s' : State := { s with waiting := s.waiting.tail, free := s.free - 1 }
  have hpoll : Exactly S course i s (.poll i (course.work s.now 0) 0) :=
    exactly_start hc (by rw [hp]; rfl) 0
  have hstep : step? S s (.poll i (course.work s.now 0) 0) =
      some (s'.attempt S i c 0 (course.work s.now 0)) := by
    simp [step?, hc, State.poll, hp, hcan, hfree, hhead, State.enter, hm, s']
  have hr := Reaches.single hpoll hstep
  have hd := ((Did.refl (s := s') hc).attempt (S := S) c 0 (course.work s.now 0)).call hc
  exact .of_reaches hr (returns_attempting hj (h.trans hr) hd rfl)

theorem returns_starting (hj : S.options.jitter = false) (hm : S.options.minDelay = none)
    (h : Reaches S (Exactly S course i) (.start S m) s) (hc : s.calls[i]? = some c)
    {next due : Nat} (hp : c.phase = .telling .start next due) (hfree : 0 < s.free)
    (hwait : s.waiting = []) : Returns S course i s := by
  obtain ⟨t, es, hr, hd, -, -, hf, hw⟩ := reaches_told (freeHooks_exactly S course i) hc hp
  refine .of_reaches hr (returns_queued hj hm (h.trans hr) hd rfl (hf ▸ hfree) ?_)
  rw [hw, hwait]
  rfl

theorem returns_unmade (hj : S.options.jitter = false) (hm : S.options.minDelay = none)
    (h : Reaches S (Exactly S course i) (.start S m) s) (hc : s.calls[i]? = some c)
    (hp : c.phase = .unmade) (hfree : 0 < s.free) (hwait : s.waiting = [])
    {freshRequest freshCorrelation : String} {q r : Request} {p : String × Unit}
    (hq : S.registry.route freshRequest freshCorrelation q = .ok (p, r)) :
    Returns S course i s := by
  let d : Call := { c with identity := r.identity p.1, request := r }
  let t : State := s.inform S i d .start 0
  have hstep : step? S s (.call i freshRequest freshCorrelation q) = some t := by
    simp [step?, hc, State.make, hp, hq, t, d]
  have hcall : Exactly S course i s (.call i freshRequest freshCorrelation q) := trivial
  have hr := Reaches.single hcall hstep
  have hd := ((Did.refl hc).inform (S := S) d .start 0).call hc
  obtain ⟨hf, hw⟩ := inform_frame S s i d .start 0
  refine .of_reaches hr ?_
  rcases hw with ⟨hw, next, due, htell⟩ | ⟨hw, htell⟩
  · rw [htell] at hd
    exact returns_starting hj hm (h.trans hr) hd rfl (hf ▸ hfree) (hw.trans hwait)
  · rw [htell] at hd
    refine returns_queued hj hm (h.trans hr) hd rfl (hf ▸ hfree) ?_
    rw [hw, hwait]
    rfl

theorem Ready.returns (hj : S.options.jitter = false)
    (h : Reaches S (Exactly S course i) (.start S m) s) (hc : s.calls[i]? = some c)
    (hready : Ready S s i c) : Returns S course i s := by
  obtain ⟨hcan, hr⟩ := Retrying.run hj h hc
  unfold Ready at hready
  match hp : c.phase with
  | .unmade =>
    rw [hp] at hready
    obtain ⟨hm, hf, hw, _, _, _, _, hq⟩ := hready
    exact returns_unmade hj hm h hc hp hf hw hq
  | .telling .start _ _ =>
    rw [hp] at hready
    exact returns_starting hj hready.1 h hc hp hready.2.1 hready.2.2
  | .queued =>
    rw [hp] at hready
    exact returns_queued hj hready.1 h hc hp hready.2.1 hready.2.2
  | .attempting .. => exact returns_attempting hj h hc hp
  | .backingOff n due =>
    rw [hp] at hr
    obtain ⟨t0, -, -, rfl, hle⟩ := hr
    obtain ⟨t, d, dl, w, ht, hd, hpd⟩ := reaches_next S course hc hcan hp hle
    exact .of_reaches ht (returns_attempting hj (h.trans ht) hd hpd)
  | .telling (.settle ..) _ _ =>
    rw [hp] at hr
    obtain ⟨t0, n, hmade, -⟩ := hr
    obtain ⟨u, hu, hh⟩ := reaches_paid (freeHooks_exactly S course i) hc hp
    exact ⟨u, hu, attempted_of_prefix hu.trace_prefix hmade.attempted, by rw [hh]; simp⟩
  | .pacing | .telling .abandon _ _ | .streaming _ | .pulling _ | .drained | .over =>
    rw [hp] at hready
    exact hready.elim

end

/-- A call that can come to its end makes its attempts up to the last one. -/
theorem Ready.completes {S : Setup} {course : Course} {m i : Nat} {s : State} {c : Call}
    (hready : Ready S s i c) (hj : S.options.jitter = false)
    (h : Reaches S (Exactly S course i) (.start S m) s) (hc : s.calls[i]? = some c) :
    ∃ t d, Reaches S (Exactly S course i) s t ∧ t.calls[i]? = some d ∧
      Completes S course d.identity (t.trace i) := by
  obtain ⟨t, ht, ha, hh⟩ := hready.returns hj h hc
  obtain ⟨d, hd⟩ := ht.call hc
  refine ⟨t, d, ht, hd, ?_⟩
  cases (Retrying.run hj (h.trans ht) hd).2.follows with
  | underway hm => exact absurd hm.handed hh
  | complete hcom => exact hcom
  | refused _ hnil => exact absurd hnil ha

/-! ## Deadlines and pauses -/

/-- When an attempt that starts at `t` ends and what it comes to, and when the next one starts. A
timeout or a pause that goes past the last instant of the clock lasts for thirty years. -/
structure Timed (S : Setup) (course : Course) : Prop where
  free : ∀ t k, S.options.requestTimeout = none →
    endOf S course t k = t + course.duration k ∧ resultOf S course t k = course.result k
  limited : ∀ T t k, S.options.requestTimeout = some T → t + T ≤ Duration.lastInstant →
    endOf S course t k = t + min (course.duration k) T ∧
      resultOf S course t k =
        if course.duration k ≤ T then course.result k else .error (.timeout T)
  far : ∀ T t k, S.options.requestTimeout = some T → Duration.lastInstant < t + T →
    endOf S course t k = t + min (course.duration k) Duration.farFuture ∧
      resultOf S course t k =
        if course.duration k ≤ Duration.farFuture then course.result k else .error (.timeout T)
  paused : ∀ t0 k ended, ended = endOf S course (startOf S course t0 k) k →
    startOf S course t0 (k + 1) =
      if ended + S.options.baseBackoff k ≤ Duration.lastInstant then
        ended + S.options.baseBackoff k
      else ended + Duration.farFuture

theorem timed (S : Setup) (course : Course) : Timed S course where
  free t k hT := by
    have hd : S.deadline t = none := by rw [Setup.deadline, hT, Option.map_none]
    unfold endOf resultOf
    rw [hd]
    exact ⟨rfl, rfl⟩
  limited _ _ _ hT hle := endOf_resultOf_eq hT (Duration.later_of_le hle)
  far _ _ _ hT hlt := endOf_resultOf_eq hT (Duration.later_of_lt hlt)
  paused _ _ ended hended := by rw [hended]; rfl

/-! ## Scripted attempts -/

section
variable {S : Setup} {step : Script.Step} {q : Request} {t now T : Nat}

/-- How long a step takes from a whole millisecond on if it does not hang. -/
def Script.Step.takes (step : Script.Step) : Nat :=
  Duration.ceilMillis (min step.delay Duration.farFuture)

theorem Script.Step.takes_le (step : Script.Step) : step.takes ≤ Duration.farFuture := by
  rw [← Duration.ceilMillis_farFuture]
  exact Duration.ceilMillis_mono (Nat.min_le_right step.delay Duration.farFuture)

theorem Script.Step.takes_of_le (h : step.delay ≤ Duration.farFuture) :
    step.takes = Duration.ceilMillis step.delay := by
  rw [takes, Nat.min_eq_left h]

theorem Script.Step.chat_done (hh : step.hangs = false) (ht : Duration.ceilMillis t = t) :
    (step.chat t q).done = some (t + step.takes) := by
  rw [takes, ← Duration.ceilMillis_add ht]
  simp [chat, hh, wait]

theorem reached_some {due : Nat} : reached now (some due) = true ↔ due ≤ now := by
  simp [reached]

/-- A timeout that goes past the last instant does not cut a scripted attempt off, for no wait of it
takes more than thirty years. -/
theorem Script.Step.outcomeBy_far (hT : S.options.requestTimeout = some T)
    (hlt : Duration.lastInstant < t + T) (hh : step.hangs = false)
    (ht : Duration.ceilMillis t = t) :
    S.outcomeBy now (S.deadline t) (step.chat t q) =
      if t + step.takes ≤ now then some (step.chat t q).outcome else none := by
  have hd : S.deadline t = some (t + Duration.farFuture) := by
    rw [Setup.deadline, hT, Option.map_some, Duration.later_of_lt hlt]
  unfold Setup.outcomeBy
  rw [chat_done hh ht, hd]
  by_cases hdone : t + step.takes ≤ now
  · rw [if_pos hdone, if_pos (reached_some.2 hdone)]
  · have hdue : ¬ t + Duration.farFuture ≤ now := fun h =>
      hdone (Nat.le_trans (Nat.add_le_add_left step.takes_le t) h)
    rw [if_neg hdone, if_neg (mt reached_some.1 hdone), if_neg (mt reached_some.1 hdue)]

end

/-! ## Retries of a run -/

/-- Where the clock is exact, attempts are made at the instants of their schedule, up to the first
one that is the last, and its result is what the caller is handed. A call that nothing keeps from
its slot comes to that. An attempt ends after what it takes or after its timeout, whichever is less,
or after thirty years where the clock cannot show the end of its timeout; a scripted one is never
cut off then. -/
theorem attempts_follow_course {S : Setup} {course : Course} {m i : Nat} {s : State} {c : Call}
    (hj : S.options.jitter = false) (h : Reaches S (Exactly S course i) (.start S m) s)
    (hc : s.calls[i]? = some c) :
    Follows S course c.identity (s.trace i) ∧
      (Ready S s i c → ∃ t d, Reaches S (Exactly S course i) s t ∧ t.calls[i]? = some d ∧
        Completes S course d.identity (t.trace i)) ∧
      Timed S course ∧
      ∀ T t (step : Script.Step) q, S.options.requestTimeout = some T →
        Duration.lastInstant < t + T → step.hangs = false → Duration.ceilMillis t = t →
        ∃ d, d ≤ Duration.farFuture ∧
          (step.delay ≤ Duration.farFuture → d = Duration.ceilMillis step.delay) ∧
          (step.chat t q).done = some (t + d) ∧
          ∀ now, S.outcomeBy now (S.deadline t) (step.chat t q) =
            if t + d ≤ now then some (step.chat t q).outcome else none := by
  refine ⟨(Retrying.run hj h hc).2.follows, fun hready => hready.completes hj h hc,
    timed S course, ?_⟩
  intro T t step q hT hlt hh ht
  exact ⟨step.takes, step.takes_le, Script.Step.takes_of_le, Script.Step.chat_done hh ht,
    fun _ => Script.Step.outcomeBy_far hT hlt hh ht⟩

/-- Every attempt gets this answer after this time. -/
def Course.steady (duration : Nat) (result : Except ChatError Response) : Course :=
  ⟨fun _ => duration, fun _ => result⟩

/-- A client that repeats an attempt twice. -/
def stubborn : Setup :=
  { registry := ⟨[("p", ())]⟩, options := { jitter := false }, hooks := [] }

/-- A call whose first attempt is under way comes to its end although every attempt fails. -/
theorem failing_call_completes : ∃ s c t d,
    Reaches stubborn (Exactly stubborn (.steady 5 (.error (.transport "reset"))) 0)
      (.start stubborn 1) s ∧
      s.calls[0]? = some c ∧ attempts (s.events 0) = [0] ∧
      Reaches stubborn (Exactly stubborn (.steady 5 (.error (.transport "reset"))) 0) s t ∧
      t.calls[0]? = some d ∧
      Completes stubborn (.steady 5 (.error (.transport "reset"))) d.identity (t.trace 0) := by
  let course : Course := .steady 5 (.error (.transport "reset"))
  have hmade : Reaches stubborn (Exactly stubborn course 0) (.start stubborn 1) _ :=
    .single (a := .call 0 "r" "c" ⟨"p/m", [], none, none, none⟩) trivial rfl
  have h : Reaches stubborn (Exactly stubborn course 0) (.start stubborn 1) _ :=
    hmade.step (a := .poll 0 (course.work 0 0) 0) (fun _ _ _ _ _ => rfl) rfl
  obtain ⟨-, hcom, -⟩ := attempts_follow_course rfl h rfl
  obtain ⟨t, d, ht, hd, hc⟩ := hcom trivial
  exact ⟨_, _, t, d, h, rfl, rfl, ht, hd, hc⟩

/-- A client that repeats an attempt once, after the longest pause there is. -/
def patient : Setup :=
  { registry := ⟨[("p", ())]⟩
    options :=
      { maxRetries := 1, initialBackoff := Duration.max, maxBackoff := Duration.max,
        jitter := false }
    hooks := [] }

/-- The first attempt fails at once, and every later one succeeds at once. -/
def Course.second : Course where
  duration _ := 0
  result
    | 0 => .error (.transport "reset")
    | _ + 1 => .ok ⟨.blank, .ofText .assistant "hi", none⟩

theorem second_stops (t0 n : Nat) : Stops patient .second t0 n ↔ n ≠ 0 := by
  have hresult : resultAt patient .second t0 n = Course.second.result n :=
    ((timed patient .second).free _ n rfl).2
  unfold Stops
  rw [hresult]
  cases n with
  | zero => simp [Course.second, patient, ChatError.isTransient]
  | succ n => simp [Course.second]

/-- A pause of more than five hundred billion years is over after thirty. -/
theorem far_pause_ends_early : ∃ s t0,
    Reaches patient (Exactly patient .second 0) (.start patient 1) s ∧
      attemptTimes (s.trace 0) = [(t0, 0), (t0 + Duration.farFuture, 1)] ∧
      endOf patient .second t0 0 = t0 ∧ patient.options.baseBackoff 0 = Duration.max ∧
      Duration.farFuture < Duration.max := by
  have hready : Ready patient (.start patient 1) 0 Call.blank :=
    ⟨rfl, Resilience.Options.slots_pos _, rfl, "r", "c", ⟨"p/m", [], none, none, none⟩, _, rfl⟩
  have hstart : Reaches patient (Exactly patient .second 0) (.start patient 1) _ := .refl
  obtain ⟨s, c, hs, -, t0, n, htimes, hbefore, hlast, -⟩ := hready.completes rfl hstart rfl
  obtain rfl : n = 1 := by
    have hpos : n ≠ 0 := (second_stops t0 n).1 hlast
    have hone : ¬ 1 < n := fun hlt => hbefore 1 hlt ((second_stops t0 1).2 nofun)
    omega
  have hend : endOf patient .second t0 0 = t0 := ((timed patient .second).free t0 0 rfl).1
  have hbackoff : patient.options.baseBackoff 0 = Duration.max := by decide +kernel
  have hpast : Duration.lastInstant < t0 + Duration.max :=
    Nat.lt_of_lt_of_le (by decide +kernel) (Nat.le_add_left ..)
  have hnext : startOf patient .second t0 1 = t0 + Duration.farFuture := by
    rw [startOf, startOf, hend, hbackoff, Duration.later_of_lt hpast]
  refine ⟨s, t0, hs, htimes.trans ?_, hend, hbackoff, by decide +kernel⟩
  rw [← hnext]
  rfl

end Switchboard.Client
