import Switchboard.Proofs.Client.Course

/-!
# Attempts on schedule

`Retrying` says for each phase of a call that its attempts were made in time and that none but the
latest can be the last one. Every move keeps it where the clock is exact (`Retrying.run`).
-/

namespace Switchboard.Client

open Chat

/-! ## What has been attempted -/

section
variable (S : Setup) (course : Course)

/-- The first `m` attempts were made in time, no earlier one was the last, and nothing was handed
over. -/
structure Made (t0 m : Nat) (trace : List (Nat × Event)) : Prop where
  times : attemptTimes trace = schedule S course t0 m
  handed : handed (trace.map (·.2)) = []
  runs : ∀ k, k + 1 < m → ¬ Stops S course t0 k

/-- The call made its attempts up to the first one that is the last, all of them in time, and its
caller was handed the result of that one. -/
def Completes (who : Identity) (trace : List (Nat × Event)) : Prop :=
  ∃ t0 n, attemptTimes trace = schedule S course t0 (n + 1) ∧ (∀ k < n, ¬ Stops S course t0 k) ∧
    Stops S course t0 n ∧ handed (trace.map (·.2)) =
      [(Handover.ofResult (resultAt S course t0 n)).stamp who]

/-- What a call can have come to. -/
inductive Follows (who : Identity) (trace : List (Nat × Event)) : Prop where
  | underway {t0 m : Nat} : Made S course t0 m trace → Follows who trace
  | complete : Completes S course who trace → Follows who trace
  /-- The call could not be routed. -/
  | refused {freshRequest freshCorrelation : String} {q : Request} {e : ChatError} :
      S.registry.route freshRequest freshCorrelation q = .error e → attemptTimes trace = [] →
      handed (trace.map (·.2)) = [.failure e] → Follows who trace

/-- What has happened to a call, by its phase. -/
def Retrying (who : Identity) (now : Nat) (trace : List (Nat × Event)) : Phase → Prop
  | .unmade | .telling .start _ _ | .queued | .pacing => ∀ t0, Made S course t0 0 trace
  | .attempting n deadline w => ∃ t0, Made S course t0 (n + 1) trace ∧
      deadline = S.deadline (startOf S course t0 n) ∧ w = course.work (startOf S course t0 n) n ∧
      now ≤ endOf S course (startOf S course t0 n) n
  | .backingOff n due => ∃ t0, Made S course t0 (n + 1) trace ∧ ¬ Stops S course t0 n ∧
      due = startOf S course t0 (n + 1) ∧ now ≤ due
  | .telling (.settle _ h) _ _ => ∃ t0 n, Made S course t0 (n + 1) trace ∧ Stops S course t0 n ∧
      h = .ofResult (resultAt S course t0 n)
  | .telling .abandon _ _ | .over => Follows S course who trace
  | .streaming _ | .pulling _ | .drained => False

end

section
variable {S : Setup} {course : Course} {who : Identity} {now t0 m n : Nat}
  {tr : List (Nat × Event)} {es : List Event}

theorem attemptTimes_append (tr tr' : List (Nat × Event)) :
    attemptTimes (tr ++ tr') = attemptTimes tr ++ attemptTimes tr' := List.filterMap_append

theorem attemptTimes_at (now : Nat) (es : List Event) :
    attemptTimes (es.map (now, ·)) = (attempts es).map (now, ·) := by
  induction es with
  | nil => rfl
  | cons e es ih => cases e <;> simp_all [attemptTimes, attempts]

theorem map_snd_append (tr : List (Nat × Event)) (now : Nat) (es : List Event) :
    (tr ++ es.map (now, ·)).map (·.2) = tr.map (·.2) ++ es := by
  simp [Function.comp_def]

theorem stops_maxRetries (S : Setup) (course : Course) (t0 : Nat) :
    Stops S course t0 S.options.maxRetries := by
  unfold Stops
  split
  · trivial
  · exact .inr rfl

theorem Made.quiet (h : Made S course t0 m tr) (now : Nat) (ha : attempts es = [])
    (hh : Client.handed es = []) : Made S course t0 m (tr ++ es.map (now, ·)) :=
  ⟨by rw [attemptTimes_append, attemptTimes_at, ha, h.times]; simp,
    by rw [map_snd_append, handed_append, h.handed, hh]; rfl, h.runs⟩

theorem Made.attempted (h : Made S course t0 (n + 1) tr) : attemptTimes tr ≠ [] := by
  rw [h.times, schedule, List.range_succ, List.map_append]
  exact List.append_ne_nil_of_right_ne_nil _ (List.cons_ne_nil _ _)

/-- No attempt is made after the last retry. -/
theorem Made.le_maxRetries (h : Made S course t0 (n + 1) tr) : n ≤ S.options.maxRetries := by
  apply Nat.le_of_not_lt
  intro hn
  exact h.runs _ (by omega) (stops_maxRetries S course t0)

theorem Follows.quiet (h : Follows S course who tr) (now : Nat) (ha : attempts es = [])
    (hh : handed es = []) : Follows S course who (tr ++ es.map (now, ·)) := by
  have htimes : attemptTimes (tr ++ es.map (now, ·)) = attemptTimes tr := by
    rw [attemptTimes_append, attemptTimes_at, ha, List.map_nil, List.append_nil]
  have hhand : Client.handed ((tr ++ es.map (now, ·)).map (·.2)) =
      Client.handed (tr.map (·.2)) := by
    rw [map_snd_append, handed_append, hh, List.append_nil]
  cases h with
  | underway hm => exact .underway (hm.quiet now ha hh)
  | complete hc =>
    rw [Completes, ← htimes, ← hhand] at hc
    exact .complete hc
  | refused hr ht hd => exact .refused hr (htimes.trans ht) (hhand.trans hd)

/-- The next attempt is made. -/
theorem Made.attempt (h : Made S course t0 m tr) (hr : m = 0 ∨ ∃ k, m = k + 1 ∧
    ¬ Stops S course t0 k) (q : Request) : Made S course t0 (m + 1)
      (tr ++ [Event.attempted m q].map (startOf S course t0 m, ·)) := by
  refine ⟨?_, ?_, fun k hk => ?_⟩
  · rw [attemptTimes_append, attemptTimes_at, h.times, schedule, schedule, List.range_succ,
      List.map_append]
    rfl
  · rw [map_snd_append, handed_append, h.handed]
    rfl
  · rcases hr with rfl | ⟨j, rfl, hj⟩
    · omega
    · rcases Nat.lt_succ_iff_lt_or_eq.1 hk with hk | hk
      · exact h.runs k (by omega)
      · obtain rfl : k = j := by omega
        exact hj

end

/-! ## Along a run -/

section
variable {S : Setup} {course : Course} {who : Identity} {now t0 n : Nat}
  {tr : List (Nat × Event)} {es : List Event} {c c' : Call} {a : Input} {i : Nat} {s : State}

theorem phaseAfter_ofResult (r : Except ChatError Response) :
    (Handover.ofResult r).phaseAfter = .over := by
  cases r <;> rfl

/-- Where hooks are told of the end, the caller is handed the result when they all have been. -/
theorem Made.settle (h : Made S course t0 (n + 1) tr) (hs : Stops S course t0 n) (now : Nat)
    (notice : Notice) (next : Nat) :
    let r := S.tell now who (.settle notice (.ofResult (resultAt S course t0 n))) next
    Retrying S course who now (tr ++ r.1.map (now, ·)) r.2 := by
  have wait : ∀ told : List Event, (∀ e ∈ told, e.isTold) →
      Made S course t0 (n + 1) (tr ++ told.map (now, ·)) :=
    fun told hq => h.quiet now (attempts_told hq) (handed_told hq)
  apply tell_elim (P := fun es p => Retrying S course who now (tr ++ es.map (now, ·)) p)
  · intro told next due hq
    exact ⟨t0, n, wait told hq, hs, rfl⟩
  · intro told hq
    rw [Telling.phaseAfter, phaseAfter_ofResult]
    refine .complete ⟨t0, n, ?_, fun k hk => h.runs k (by omega), hs, ?_⟩
    · rw [List.map_append, ← List.append_assoc, attemptTimes_append, (wait told hq).times]
      exact List.append_nil _
    · rw [map_snd_append, handed_append, handed_append, h.handed, handed_told hq]
      rfl

theorem Made.start (h : ∀ t0, Made S course t0 0 tr) (now next : Nat) :
    Retrying S course who now (tr ++ (S.tell now who .start next).1.map (now, ·))
      (S.tell now who .start next).2 := by
  have wait : ∀ told : List Event, (∀ e ∈ told, e.isTold) → ∀ t0,
      Made S course t0 0 (tr ++ told.map (now, ·)) :=
    fun told hq t0 => (h t0).quiet now (attempts_told hq) (handed_told hq)
  apply tell_elim (P := fun es p => Retrying S course who now (tr ++ es.map (now, ·)) p)
  · intro told n due hq
    exact wait told hq
  · intro told hq
    rw [Telling.parting, List.append_nil]
    exact wait told hq

theorem Follows.abandon (h : Follows S course who tr) (now next : Nat) :
    Retrying S course who now (tr ++ (S.tell now who .abandon next).1.map (now, ·))
      (S.tell now who .abandon next).2 := by
  have wait : ∀ told : List Event, (∀ e ∈ told, e.isTold) →
      Follows S course who (tr ++ told.map (now, ·)) :=
    fun told hq => h.quiet now (attempts_told hq) (handed_told hq)
  apply tell_elim (P := fun es p => Retrying S course who now (tr ++ es.map (now, ·)) p)
  · intro told n due hq
    exact wait told hq
  · intro told hq
    rw [Telling.parting, List.append_nil]
    exact wait told hq

theorem Retrying.follows : ∀ {p : Phase}, Retrying S course who now tr p → Follows S course who tr
  | .unmade, h | .telling .start _ _, h | .queued, h | .pacing, h => .underway (h 0)
  | .attempting .., ⟨_, h, _⟩ | .backingOff .., ⟨_, h, _⟩ => .underway h
  | .telling (.settle ..) _ _, ⟨_, _, h, _⟩ => .underway h
  | .telling .abandon _ _, h | .over, h => h
  | .streaming _, h | .pulling _, h | .drained, h => h.elim

theorem eq_error_of_ofResult {e : ChatError} : ∀ {r : Except ChatError Response},
    Outcome.failure e = .ofResult r → r = .error e
  | .error _, h => by cases h; rfl

theorem eq_ok_of_ofResult {r' : Response} : ∀ {r : Except ChatError Response},
    Outcome.response r' = .ofResult r → r = .ok r'
  | .ok _, h => by cases h; rfl

/-- A failed attempt is the last one just where it is not repeated. -/
theorem stops_of_error {e : ChatError} (h : resultAt S course t0 n = .error e)
    (hn : n ≤ S.options.maxRetries) :
    Stops S course t0 n ↔ ¬ (n < S.options.maxRetries ∧ S.retryable e = true) := by
  simp only [Stops, h, not_and, Bool.not_eq_true]
  constructor
  · rintro (hr | rfl) hlt
    · exact hr
    · exact absurd hlt (Nat.lt_irrefl _)
  · intro hr
    rcases Nat.lt_or_eq_of_le hn with hlt | heq
    · exact .inl (hr hlt)
    · exact .inr heq

/-- What an attempt has come to is handed over if it is the last one. -/
theorem Decides.result {notice : Notice} {h : Handover}
    (hr : Retrying S course who now tr c.phase) (hcan : c.cancelled = false)
    (hd : Decides S now a c notice h) :
    ∃ t0 n, Made S course t0 (n + 1) tr ∧ Stops S course t0 n ∧
      h = .ofResult (resultAt S course t0 n) := by
  cases hd with
  | quit _ hc | interrupt _ hc => rw [hcan] at hc; cases hc
  | giveUp hp _ ho hstop =>
    rw [hp] at hr
    obtain ⟨t0, hm, rfl, rfl, hle⟩ := hr
    obtain ⟨-, hres⟩ := outcomeBy_eq hle ho
    have hres : resultAt S course t0 _ = .error _ := eq_error_of_ofResult hres
    refine ⟨t0, _, hm, (stops_of_error hres hm.le_maxRetries).2 hstop, ?_⟩
    rw [hres]
    rfl
  | respond hp _ ho =>
    rw [hp] at hr
    obtain ⟨t0, hm, rfl, rfl, hle⟩ := hr
    obtain ⟨-, hres⟩ := outcomeBy_eq hle ho
    have hres : resultAt S course t0 _ = .ok _ := eq_ok_of_ofResult hres
    refine ⟨t0, _, hm, ?_, ?_⟩
    · simp [Stops, hres]
    · rw [hres]
      rfl
  | openEmpty hp _ ho =>
    rw [hp] at hr
    obtain ⟨t0, hm, rfl, rfl, hle⟩ := hr
    obtain ⟨-, hres⟩ := outcomeBy_eq hle ho
    revert hres
    cases resultOf S course _ _ <;> nofun
  | replay hp | finish hp | fault hp | close hp =>
    rw [hp] at hr
    exact hr.elim

theorem Retrying.move (hj : S.options.jitter = false) (hc : s.calls[i]? = some c)
    (hcan : c.cancelled = false) (ha : a.target = some i) (hok : Exactly S course i s a)
    (hr : Retrying S course c.identity s.now tr c.phase) (hm : Move S s.now a c es c') :
    c'.cancelled = false ∧
      Retrying S course c'.identity s.now (tr ++ es.map (s.now, ·)) c'.phase := by
  cases hm with
  | cancel =>
    cases ha
    exact absurd rfl hok
  | refuse hp hroute =>
    rw [hp] at hr
    refine ⟨hcan, .refused hroute ?_ ?_⟩
    · rw [attemptTimes_append, (hr 0).times]
      rfl
    · rw [map_snd_append, handed_append, (hr 0).handed]
      rfl
  | make hp =>
    rw [hp] at hr
    exact ⟨hcan, Made.start hr _ _⟩
  | @tell _ _ _ _ why _ _ hp =>
    rw [hp] at hr
    refine ⟨hcan, ?_⟩
    cases why with
    | start => exact Made.start hr _ _
    | settle =>
      obtain ⟨t0, n, hmade, hs, rfl⟩ := hr
      exact hmade.settle hs _ _ _
    | abandon => exact Follows.abandon hr _ _
  | pace hp =>
    rw [hp] at hr
    rw [List.map_nil, List.append_nil]
    exact ⟨hcan, hr⟩
  | @attempt _ _ w _ n hs =>
    cases ha
    have hw := hok rfl c n hc hs
    subst hw
    refine ⟨hcan, ?_⟩
    cases hs with
    | admitted hp | paced hp =>
      rw [hp] at hr
      exact ⟨s.now, (hr s.now).attempt (.inl rfl) _, rfl, rfl, le_endOf S course s.now 0⟩
    | @again n due hp hdue =>
      rw [hp] at hr
      obtain ⟨t0, hmade, hns, rfl, hle⟩ := hr
      have hnow : s.now = startOf S course t0 (n + 1) := Nat.le_antisymm hle hdue
      rw [hnow]
      exact ⟨t0, hmade.attempt (.inr ⟨n, rfl, hns⟩) _, rfl, rfl, le_endOf S course _ (n + 1)⟩
  | @backOff _ _ _ _ spread n _ e hp _ ho hlt hret =>
    rw [hp] at hr
    obtain ⟨t0, hmade, rfl, rfl, hle⟩ := hr
    obtain ⟨hnow, hres⟩ := outcomeBy_eq hle ho
    have hres : resultAt S course t0 _ = .error _ := eq_error_of_ofResult hres
    have hpause : S.options.pause n spread = S.options.baseBackoff n := by
      simp [Resilience.Options.pause, hj]
    refine ⟨hcan, t0, hmade.quiet _ rfl rfl, ?_, ?_, Duration.le_later _ _⟩
    · rw [stops_of_error hres hmade.le_maxRetries]
      exact fun h => h ⟨hlt, hret⟩
    · rw [hpause, hnow]
      rfl
  | commit hp _ ho =>
    rw [hp] at hr
    obtain ⟨t0, -, rfl, rfl, hle⟩ := hr
    obtain ⟨-, hres⟩ := outcomeBy_eq hle ho
    revert hres
    cases resultOf S course _ _ <;> nofun
  | replay hp | pull hp | deliver hp | close hp =>
    rw [hp] at hr
    exact hr.elim
  | decide hd =>
    obtain ⟨t0, n, hmade, hs, rfl⟩ := hd.result hr hcan
    exact ⟨hcan, hmade.settle hs _ _ _⟩
  | forsake | letGo => exact ⟨hcan, hr.follows.quiet _ rfl rfl⟩

/-- Time that passes does not pass an instant at which something is due. -/
theorem Retrying.tick {later : Nat} (hc : s.calls[i]? = some c)
    (hok : Exactly S course i s (.tick later))
    (hr : Retrying S course who s.now tr c.phase) : Retrying S course who later tr c.phase := by
  have hdue := hok c
  revert hr hdue
  cases c.phase with
  | attempting n deadline w =>
    rintro ⟨t0, hm, rfl, rfl, -⟩ hdue
    exact ⟨t0, hm, rfl, rfl, le_endOf_of_awaits fun due h => hdue due hc h⟩
  | backingOff n due =>
    rintro ⟨t0, hm, hns, rfl, -⟩ hdue
    exact ⟨t0, hm, hns, rfl, hdue _ hc rfl⟩
  | telling why => cases why <;> exact fun hr _ => hr
  | _ => exact fun hr _ => hr

theorem Retrying.run {m : Nat} (hj : S.options.jitter = false)
    (h : Reaches S (Exactly S course i) (.start S m) s) (hc : s.calls[i]? = some c) :
    c.cancelled = false ∧ Retrying S course c.identity s.now (s.trace i) c.phase := by
  induction h generalizing c with
  | refl =>
    obtain ⟨hi, rfl⟩ := List.getElem?_eq_some_iff.1 hc
    simp only [State.start, List.getElem_replicate]
    exact ⟨rfl, fun t0 => ⟨rfl, rfl, fun k hk => absurd hk (by omega)⟩⟩
  | @step t u a _ ha hs ih =>
    obtain ⟨es, d, hd, ht, hm⟩ := step_call_before hs hc
    obtain ⟨hcan, hr⟩ := ih hd
    rw [ht]
    rcases hm with ⟨rfl, rfl⟩ | ⟨hi, hm⟩
    · rw [List.map_nil, List.append_nil]
      refine ⟨hcan, ?_⟩
      rcases step_now hs with hnow | ⟨rfl, -⟩
      · rwa [hnow]
      · exact hr.tick hd ha
    · have hnow : u.now = t.now := by
        rcases step_now hs with hnow | ⟨rfl, -⟩
        · exact hnow
        · cases hi
      rw [hnow]
      exact hr.move hj hd hcan hi ha hm

end

end Switchboard.Client
