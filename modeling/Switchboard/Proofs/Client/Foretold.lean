import Switchboard.Proofs.Client.Cancellation
import Switchboard.Proofs.Client.Forecast
import Switchboard.Proofs.Client.Success

/-!
# Calls that go as foretold

What has happened to a call and what is still to come of it make up its forecast as long as it has
not succeeded (`Ahead`). Every move keeps that where inputs come when they are due, until the call
has failed or succeeded (`Foretold.move`).
-/

namespace Switchboard.Client

open Chat

/-! ## What has happened and what is to come -/

/-- By its phase, what the caller of a call that has not succeeded was handed: nothing, and an error
at the end. -/
def Unanswered (tr : List (Nat × Event)) : Phase → Prop
  | .unmade | .telling .start _ _ | .telling (.settle _ (.failure _)) _ _ | .queued | .pacing
  | .attempting .. | .backingOff .. => handed (tr.map (·.2)) = []
  | .over => ∃ e, handed (tr.map (·.2)) = [.failure e]
  | .telling .. | .streaming _ | .pulling _ | .drained => False

def Phase.isUndecided : Phase → Bool
  | .unmade | .telling .start _ _ => true
  | p => p.isAwaiting

/-- The call has not succeeded, and goes on as foretold. -/
structure Ahead (S : Setup) (T : Trial) (answer : Nat → Outcome) (now : Nat)
    (tr : List (Nat × Event)) (c : Call) : Prop where
  sum : tr ++ T.rest S c.identity c.request now c.phase = T.forecast S
  unanswered : Unanswered tr c.phase
  due : ∀ due, T.due now c.phase = some due → now ≤ due
  before : c.cancelled = false → ∀ instant, T.cancelled = some instant → now ≤ instant
  /-- A call was cancelled before it could go on by itself. -/
  after : c.cancelled = true → c.phase.isUndecided = true → ∃ instant,
    T.cancelled = some instant ∧ instant ≤ now ∧
      ∀ due, T.due now c.phase = some due → instant < due
  answers : ∀ n deadline w, c.phase = .attempting n deadline w → w.outcome = answer n

/-- What has happened to a call is as foretold, up to its success. -/
inductive Foretold (S : Setup) (T : Trial) (answer : Nat → Outcome) (now : Nat)
    (tr : List (Nat × Event)) (c : Call) : Prop where
  | ahead : Ahead S T answer now tr c → Foretold S T answer now tr c
  | won {past : List (Nat × Event)} : tr = T.forecast S ++ past →
      handed ((T.forecast S).map (·.2)) = [] → Won (past.map (·.2)) c.phase →
      Foretold S T answer now tr c

section
variable {S : Setup} {T : Trial} {answer : Nat → Outcome} {s : State} {i now n : Nat}
  {tr : List (Nat × Event)} {c c' : Call} {es : List Event} {a : Input}

theorem isUndecided_of_isAwaiting {p : Phase} (h : p.isAwaiting = true) :
    p.isUndecided = true := by
  cases p <;> first | exact h | cases h

theorem unanswered_of_isAwaiting {p : Phase} (h : p.isAwaiting = true) :
    Unanswered tr p ↔ handed (tr.map (·.2)) = [] := by
  cases p <;> first | exact Iff.rfl | cases h

theorem handed_quiet (now : Nat) (h : handed (tr.map (·.2)) = []) (hq : ∀ e ∈ es, e.isTold) :
    handed ((tr ++ es.map (now, ·)).map (·.2)) = [] := by
  rw [map_snd_append, handed_append, h, handed_told hq]
  rfl

/-- Hooks are told that the call starts. -/
theorem Ahead.start (next : Nat) (hsum : tr ++ (S.hearing now c.identity .start next ++
      T.enter S c.identity c.request (S.toldAt now next)) = T.forecast S)
    (hnone : handed (tr.map (·.2)) = [])
    (before : c.cancelled = false → ∀ instant, T.cancelled = some instant → now ≤ instant)
    (after : c.cancelled = true → ∃ instant, T.cancelled = some instant ∧ instant < now) :
    Ahead S T answer now (tr ++ (S.tell now c.identity .start next).1.map (now, ·))
      { c with phase := (S.tell now c.identity .start next).2 } := by
  -- whatever the call waits for next, it was cancelled before that
  have later : ∀ {p : Phase} {d : Nat}, T.due now p = some d → now ≤ d → c.cancelled = true →
      ∃ instant, T.cancelled = some instant ∧ instant ≤ now ∧
        ∀ due, T.due now p = some due → instant < due := by
    intro p d hd hle hcan
    obtain ⟨instant, hi, hlt⟩ := after hcan
    refine ⟨instant, hi, Nat.le_of_lt hlt, fun _ h => ?_⟩
    rw [hd] at h
    cases h
    exact Nat.lt_of_lt_of_le hlt hle
  obtain ⟨es, hes, ⟨n, due, ht, hle, hhear, hat⟩ | ⟨ht, hhear, hat⟩⟩ :=
    tell_hearing S now c.identity .start next
  · have hquiet := handed_quiet now hnone hes
    rw [ht]
    refine ⟨?_, hquiet, fun _ h => ?_, before, fun hcan _ => later rfl hle hcan,
      fun _ _ _ h => ?_⟩
    · rw [← hsum, ← hhear, ← hat]
      simp only [Trial.rest, List.append_assoc]
    · cases h
      exact hle
    · cases h
  · have hquiet := handed_quiet now hnone hes
    have hle : now ≤ max now T.gate := Nat.le_max_left ..
    rw [ht, Telling.parting, List.append_nil]
    refine ⟨?_, hquiet, fun _ h => ?_, before, fun hcan _ => later rfl hle hcan,
      fun _ _ _ h => ?_⟩
    · rw [← hsum, ← hhear, hat]
      simp only [Trial.rest, Telling.phaseAfter, List.append_assoc]
    · cases h
      exact hle
    · cases h

/-- Hooks are told that the call failed. -/
theorem Ahead.settle (notice : Notice) (e : ChatError) (next : Nat)
    (hsum : tr ++ S.settling c.identity now notice (.failure e) next = T.forecast S)
    (hnone : handed (tr.map (·.2)) = [])
    (before : c.cancelled = false → ∀ instant, T.cancelled = some instant → now ≤ instant) :
    Ahead S T answer now
      (tr ++ (S.tell now c.identity (.settle notice (.failure e)) next).1.map (now, ·))
      { c with phase := (S.tell now c.identity (.settle notice (.failure e)) next).2 } := by
  obtain ⟨es, hes, ⟨n, due, ht, hle, hhear, hat⟩ | ⟨ht, hhear, hat⟩⟩ :=
    tell_hearing S now c.identity (.settle notice (.failure e)) next
  · rw [ht]
    refine ⟨?_, handed_quiet now hnone hes, fun _ h => ?_, before, fun _ h => ?_, nofun⟩
    · rw [← hsum, Setup.settling, ← hhear, ← hat]
      simp only [Trial.rest, Setup.settling, List.append_assoc]
    · cases h
      exact hle
    · cases h
  · rw [ht]
    refine ⟨?_, ⟨e, ?_⟩, nofun, before, fun _ h => ?_, nofun⟩
    · rw [← hsum, Setup.settling, ← hhear, hat]
      simp [Trial.rest, Telling.phaseAfter, Handover.phaseAfter, Telling.parting]
    · rw [map_snd_append, handed_append, handed_append, hnone, handed_told hes]
      rfl
    · cases h

/-- A call that was cancelled while it waits fails now. -/
theorem Ahead.rest_of_cancelled (h : Ahead S T answer now tr c) (hp : c.phase.isAwaiting = true)
    (hcan : c.cancelled = true) :
    T.rest S c.identity c.request now c.phase = S.failing c.identity .cancelled now := by
  obtain ⟨instant, hi, hle, hdue⟩ := h.after hcan (isUndecided_of_isAwaiting hp)
  cases hph : c.phase with
  | queued | pacing | attempting | backingOff =>
    rw [hph] at hdue
    exact await_quit hi hle hdue
  | _ => rw [hph] at hp; cases hp

/-- An attempt that is made now is foretold for now. -/
theorem Ahead.rest_of_starts (h : Ahead S T answer now tr c) (hcan : c.cancelled = false)
    (hs : Starts S now c n) (hgate : n = 0 → T.gate ≤ now) :
    T.rest S c.identity c.request now c.phase =
      T.attempt S c.identity c.request (T.retry S c.identity c.request n) n now := by
  cases hs with
  | admitted hp | paced hp =>
    rw [hp, Trial.rest, Trial.enter, Nat.max_eq_left (hgate rfl)]
    exact await_go (h.before hcan)
  | again hp hdue =>
    have hnow := h.due _ (by rw [hp]; rfl)
    rw [hp, Trial.rest, Nat.le_antisymm hdue hnow]
    exact await_go (h.before hcan)

/-- What is still to come when an attempt has ended. -/
theorem Ahead.rest_of_ended {deadline : Option Nat} {w : Work Outcome} {o : Outcome}
    (hfit : ∀ n, (answer n).error? = T.failure n) (h : Ahead S T answer now tr c)
    (hcan : c.cancelled = false)
    (hp : c.phase = .attempting n deadline w) (ho : S.outcomeBy now deadline w = some o) :
    T.rest S c.identity c.request now c.phase =
      o.error?.elim [] (T.retry S c.identity c.request n · now) := by
  obtain ⟨hdue, hv⟩ := verdict_of_outcomeBy ((h.answers n deadline w hp).symm ▸ hfit n)
    (fun due hd => h.due due (by rw [hp]; exact hd)) ho
  rw [hp, Trial.rest, hdue, await_go (h.before hcan), Trial.ending, hv]

theorem Ahead.quiet (h : Ahead S T answer now tr c) (hp : c.phase.isAwaiting = true) :
    handed (tr.map (·.2)) = [] :=
  (unanswered_of_isAwaiting hp).1 h.unanswered

/-! ## Along a run -/

theorem le_ending (S : Setup) (T : Trial) (now n : Nat) : ∀ due,
    ((T.duration n).map (now + ·)).merge min (S.deadline now) = some due → now ≤ due := by
  intro due h
  have hlater := Duration.le_later now
  unfold Setup.deadline at h
  revert h
  cases T.duration n <;> cases S.options.requestTimeout <;> rintro ⟨⟩
  · exact hlater _
  · exact Nat.le_add_right ..
  · exact Nat.le_min.2 ⟨Nat.le_add_right .., hlater _⟩

theorem Ahead.attempt (h : Ahead S T answer now tr c) (hcan : c.cancelled = false)
    (hs : Starts S now c n) (hgate : n = 0 → T.gate ≤ now) :
    Ahead S T answer now (tr ++ [(now, .attempted n c.request)])
      { c with phase := .attempting n (S.deadline now) (T.work answer now n) } := by
  refine ⟨?_, ?_, le_ending S T now n, h.before, fun h => ?_, fun _ _ _ h => ?_⟩
  · rw [← h.sum, h.rest_of_starts hcan hs hgate, List.append_assoc]
    rfl
  · show handed _ = []
    rw [List.map_append, handed_append, h.quiet hs.isAwaiting]
    rfl
  · rw [hcan] at h
    cases h
  · cases h
    rfl

/-- A failed attempt is repeated after a pause. -/
theorem Ahead.retry {deadline : Option Nat} {w : Work Outcome} {e : ChatError}
    (hfit : ∀ n, (answer n).error? = T.failure n) (h : Ahead S T answer now tr c)
    (hcan : c.cancelled = false)
    (hp : c.phase = .attempting n deadline w) (ho : S.outcomeBy now deadline w = some (.failure e))
    (hlt : n < S.options.maxRetries) (hret : S.retryable e = true) :
    Ahead S T answer now tr
      { c with phase := .backingOff n (Duration.later now (S.options.baseBackoff n)) } := by
  refine ⟨?_, h.quiet (by rw [hp]; rfl), fun _ h => ?_, h.before, fun h => ?_, nofun⟩
  · rw [← h.sum, h.rest_of_ended hfit hcan hp ho]
    obtain ⟨left, hleft⟩ : ∃ left, S.options.maxRetries - n = left + 1 :=
      ⟨S.options.maxRetries - (n + 1), by omega⟩
    have hnext : S.options.maxRetries - (n + 1) = left := by omega
    simp only [Outcome.error?, Option.elim_some, Trial.retry, Trial.rest, hleft, hnext,
      Trial.failed, if_pos hret]
  · cases h
    exact Duration.le_later ..
  · rw [hcan] at h
    cases h

/-- A failed attempt that is not repeated fails the call. -/
theorem retry_of_last {who : Identity} {q : Request} {e : ChatError}
    (h : ¬ (n < S.options.maxRetries ∧ S.retryable e = true)) :
    T.retry S who q n e now = S.failing who e now := by
  unfold Trial.retry
  match hleft : S.options.maxRetries - n with
  | 0 => rfl
  | left + 1 => exact if_neg fun hret => h ⟨by omega, hret⟩

/-- Nothing more is foretold of a call of which an attempt has succeeded. -/
theorem Ahead.done {deadline : Option Nat} {w : Work Outcome} {o : Outcome}
    (hfit : ∀ n, (answer n).error? = T.failure n) (h : Ahead S T answer now tr c)
    (hcan : c.cancelled = false)
    (hp : c.phase = .attempting n deadline w) (ho : S.outcomeBy now deadline w = some o)
    (hsucc : o.error? = none) :
    tr = T.forecast S ∧ handed ((T.forecast S).map (·.2)) = [] := by
  have hsum := h.sum
  rw [h.rest_of_ended hfit hcan hp ho, hsucc, Option.elim_none, List.append_nil] at hsum
  exact ⟨hsum, hsum ▸ h.quiet (by rw [hp]; rfl)⟩

theorem Foretold.succeed {now : Nat}
    (h : tr = T.forecast S ∧ handed ((T.forecast S).map (·.2)) = []) (c : Call) {give : Handover}
    (ha : give.isAnswer) :
    Foretold S T answer now
      (tr ++ (S.tell now c.identity (.settle .ended give) 0).1.map (now, ·))
      { c with phase := (S.tell now c.identity (.settle .ended give) 0).2 } := by
  refine .won (congrArg (· ++ _) h.1) h.2 ?_
  rw [List.map_map]
  simp only [Function.comp_def, List.map_id']
  exact Won.settle now c.identity ha

theorem Ahead.decide {notice : Notice} {give : Handover}
    (hfit : ∀ n, (answer n).error? = T.failure n) (h : Ahead S T answer now tr c)
    (hd : Decides S now a c notice give) :
    Foretold S T answer now (tr ++ (S.tell now c.identity (.settle notice give) 0).1.map (now, ·))
      { c with phase := (S.tell now c.identity (.settle notice give) 0).2 } := by
  cases hd with
  | quit hp hcan =>
    refine .ahead (Ahead.settle _ _ 0 ?_ (h.quiet hp) h.before)
    rw [← h.sum, h.rest_of_cancelled hp hcan]
    rfl
  | giveUp hp hcan ho hlast =>
    refine .ahead (Ahead.settle _ _ 0 ?_ (h.quiet (by rw [hp]; rfl)) h.before)
    rw [← h.sum, h.rest_of_ended hfit hcan hp ho]
    rw [Outcome.error?, Option.elim_some, retry_of_last hlast]
    rfl
  | respond hp hcan ho => exact .succeed (h.done hfit hcan hp ho rfl) c rfl
  | openEmpty hp hcan ho => exact .succeed (h.done hfit hcan hp ho rfl) c rfl
  | interrupt hp | replay hp | finish hp | fault hp | close hp =>
    have := h.unanswered
    rw [hp] at this
    exact this.elim

/-- The first thing that happens to a call is that it is made. -/
theorem Ahead.nothing (h : Ahead S T answer now tr c) (hp : c.phase = .unmade) : tr = [] := by
  have hsum := h.sum
  rw [hp] at hsum
  exact List.append_left_eq_self.1 hsum

theorem Ahead.make {p : String × Unit} {r : Request} (h : Ahead S T answer now tr c)
    (hp : c.phase = .unmade) (hnow : now = T.made)
    (hroute : S.registry.route T.freshRequest T.freshCorrelation T.request = .ok (p, r)) :
    Ahead S T answer now (tr ++ (S.tell now (r.identity p.1) .start 0).1.map (now, ·))
      { c with
        identity := r.identity p.1
        request := r
        phase := (S.tell now (r.identity p.1) .start 0).2 } := by
  obtain rfl := h.nothing hp
  refine Ahead.start (c := { c with identity := r.identity p.1, request := r }) 0 ?_ rfl h.before
    fun hcan => ?_
  · rw [Trial.forecast, hroute, hnow]
    rfl
  · obtain ⟨instant, hi, -, hdue⟩ := h.after hcan (by rw [hp]; rfl)
    exact ⟨instant, hi, hnow ▸ hdue T.made (by rw [hp]; rfl)⟩

/-- Hooks go on being told. -/
theorem Ahead.tell {why : Telling} {next due : Nat} (h : Ahead S T answer now tr c)
    (hp : c.phase = .telling why next due) (hdue : due ≤ now) :
    Ahead S T answer now (tr ++ (S.tell now c.identity why next).1.map (now, ·))
      { c with phase := (S.tell now c.identity why next).2 } := by
  obtain rfl := Nat.le_antisymm hdue (h.due due (by rw [hp]; rfl))
  have hsum := h.sum
  have hun := h.unanswered
  rw [hp] at hsum hun
  match why with
  | .start =>
    refine Ahead.start next hsum hun h.before fun hcan => ?_
    obtain ⟨instant, hi, -, hlt⟩ := h.after hcan (by rw [hp]; rfl)
    exact ⟨instant, hi, hlt due (by rw [hp]; rfl)⟩
  | .settle notice (.failure e) => exact Ahead.settle notice e next hsum hun h.before
  | .settle _ (.response _) | .settle _ .stream | .settle _ (.delta _) | .settle _ (.fault _)
  | .settle _ .close | .abandon => exact hun.elim

theorem Ahead.move (hj : S.options.jitter = false) (hfit : ∀ n, (answer n).error? = T.failure n)
    (hc : s.calls[i]? = some c) (ha : a.target = some i) (hok : Meets S T answer i s a)
    (h : Ahead S T answer s.now tr c) (hm : Move S s.now a c es c') :
    Foretold S T answer s.now (tr ++ es.map (s.now, ·)) c' := by
  cases hm with
  | cancel =>
    cases ha
    obtain ⟨hi, hlt⟩ := hok rfl
    rw [List.map_nil, List.append_nil]
    refine .ahead ⟨h.sum, h.unanswered, h.due, nofun, fun _ _ => ?_, h.answers⟩
    exact ⟨s.now, hi, Nat.le_refl _, fun due hd => hlt c due hc hd⟩
  | refuse hp hroute =>
    cases ha
    obtain ⟨hnow, rfl, rfl, rfl⟩ := hok rfl
    obtain rfl := h.nothing hp
    refine .ahead ⟨?_, ⟨_, rfl⟩, nofun, h.before, fun _ h => ?_, nofun⟩
    · simp [Trial.rest, Trial.forecast, hroute, hnow]
    · cases h
  | make hp hroute =>
    cases ha
    obtain ⟨hnow, rfl, rfl, rfl⟩ := hok rfl
    exact .ahead (h.make hp hnow hroute)
  | tell hp hdue => exact .ahead (h.tell hp hdue)
  | pace hp hcan =>
    have hsum := h.sum
    have hdue := h.due
    rw [hp] at hsum hdue
    rw [List.map_nil, List.append_nil]
    refine .ahead ⟨hsum, h.quiet (by rw [hp]; rfl), hdue, h.before, fun hc => ?_, nofun⟩
    rw [hcan] at hc
    cases hc
  | attempt hs hcan =>
    cases ha
    obtain ⟨rfl, hgate⟩ := hok rfl c _ hc hs
    exact .ahead (h.attempt hcan hs hgate)
  | @backOff _ _ _ _ spread n _ _ hp hcan ho hlt hret =>
    have hpause : S.options.pause n spread = S.options.baseBackoff n := by
      simp [Resilience.Options.pause, hj]
    rw [List.map_nil, List.append_nil, hpause]
    exact .ahead (h.retry hfit hcan hp ho hlt hret)
  | commit hp hcan ho =>
    obtain ⟨htr, hnone⟩ := h.done hfit hcan hp ho rfl
    refine .won (congrArg (· ++ _) htr) hnone ⟨rfl, rfl, fun _ hmem => ?_, .inl ?_⟩
    · simp at hmem
    · exact ⟨.stream, List.mem_singleton_self _, rfl⟩
  | decide hd => exact h.decide hfit hd
  | replay hp | pull hp | deliver hp | close hp =>
    have hun := h.unanswered
    rw [hp] at hun
    exact hun.elim
  | forsake | letGo =>
    cases ha
    exact absurd rfl hok

theorem Foretold.move (hj : S.options.jitter = false)
    (hfit : ∀ n, (answer n).error? = T.failure n) (hc : s.calls[i]? = some c)
    (ha : a.target = some i) (hok : Meets S T answer i s a) (h : Foretold S T answer s.now tr c)
    (hm : Move S s.now a c es c') : Foretold S T answer s.now (tr ++ es.map (s.now, ·)) c' := by
  cases h with
  | ahead h => exact h.move hj hfit hc ha hok hm
  | @won past htr hnone hwon =>
    have hsum : tr ++ es.map (s.now, ·) = T.forecast S ++ (past ++ es.map (s.now, ·)) := by
      rw [htr, List.append_assoc]
    refine .won hsum hnone ?_
    rw [map_snd_append]
    refine hwon.move hm fun j hj => ?_
    subst hj
    cases ha
    exact hok rfl

/-- It makes no difference to what is due how much of the wait has passed. -/
theorem due_later {p : Phase} {later : Nat} (hle : now ≤ later)
    (hdue : ∀ due, T.due now p = some due → later ≤ due) : T.due later p = T.due now p := by
  cases p with
  | queued | pacing =>
    have := hdue _ rfl
    exact congrArg some (by omega)
  | _ => rfl

theorem rest_later {p : Phase} {later : Nat} {who : Identity} {q : Request} (hle : now ≤ later)
    (hdue : ∀ due, T.due now p = some due → later ≤ due)
    (hx : p.isAwaiting = true → ∀ instant, T.cancelled = some instant → later ≤ instant) :
    T.rest S who q later p = T.rest S who q now p := by
  cases p with
  | queued | pacing =>
    have hmax : max later T.gate = max now T.gate := by
      have := hdue _ rfl
      omega
    simp only [Trial.rest, Trial.enter, hmax]
    exact await_later hle (hx rfl)
  | attempting | backingOff => exact await_later hle (hx rfl)
  | telling why => cases why <;> rfl
  | _ => rfl

theorem Foretold.tick {later : Nat} (hle : s.now ≤ later) (hc : s.calls[i]? = some c)
    (hok : Meets S T answer i s (.tick later)) (h : Foretold S T answer s.now tr c) :
    Foretold S T answer later tr c := by
  cases h with
  | won htr hnone hwon => exact .won htr hnone hwon
  | ahead h =>
    obtain ⟨hdue, hbefore, hstill⟩ := hok c hc
    have hsame := due_later hle hdue
    refine .ahead ⟨?_, h.unanswered, fun due hd => hdue due (hsame ▸ hd), hbefore, ?_, h.answers⟩
    · rw [← h.sum]
      congr 1
      cases hcan : c.cancelled with
      | false => exact rest_later hle hdue fun _ => hbefore hcan
      | true =>
        by_cases hp : c.phase.isAwaiting = true
        · rw [Nat.le_antisymm (hstill hcan hp) hle]
        · exact rest_later hle hdue fun h => absurd h hp
    · intro hcan hp
      obtain ⟨instant, hi, hpast, hlt⟩ := h.after hcan hp
      exact ⟨instant, hi, Nat.le_trans hpast hle, fun due hd => hlt due (hsame ▸ hd)⟩

theorem Reaches.foretold {m : Nat} (hj : S.options.jitter = false)
    (hfit : ∀ n, (answer n).error? = T.failure n)
    (h : Reaches S (Meets S T answer i) (.start S m) s) (hc : s.calls[i]? = some c) :
    Foretold S T answer s.now (s.trace i) c := by
  induction h generalizing c with
  | refl =>
    obtain rfl := call_of_start hc
    refine .ahead ⟨rfl, rfl, fun _ _ => Nat.zero_le _, fun _ _ _ => Nat.zero_le _, nofun, nofun⟩
  | @step t u a _ hok hs ih =>
    obtain ⟨es, d, hd, htr, ⟨rfl, rfl⟩ | ⟨ha, hm⟩⟩ := step_call_before hs hc
    · rw [htr, List.map_nil, List.append_nil]
      rcases step_now hs with hnow | ⟨rfl, hle⟩
      · rw [hnow]
        exact ih hd
      · exact (ih hd).tick hle hd hok
    · rw [htr, step_now_of_target hs ha]
      exact (ih hd).move hj hfit hd ha hok hm

end

end Switchboard.Client
