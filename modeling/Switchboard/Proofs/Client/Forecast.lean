import Switchboard.Proofs.Client.Return

/-!
# What will have happened to a call

Let it be known when a call is made, let through and cancelled, how long its attempts take and with
what they fail (`Trial`). Then all that happens to it until it succeeds is known beforehand
(`Trial.forecast`), and so is what is still to come of it, by its phase (`Trial.rest`). `Meets` says
that inputs come when they are due.
-/

namespace Switchboard.Client

open Chat

/-- What a call meets with. -/
structure Trial where
  /-- When it is made. -/
  made : Nat
  freshRequest : String
  freshCorrelation : String
  request : Request
  /-- It has no slot and no turn before this instant, and waits for neither after it. -/
  gate : Nat
  /-- When it is cancelled, if it is. -/
  cancelled : Option Nat
  /-- How long an attempt takes if nothing ends it, by number. -/
  duration : Nat → Option Nat
  /-- With what an attempt fails that nothing ends, if it does. -/
  failure : Nat → Option ChatError

def Outcome.error? : Outcome → Option ChatError
  | failure e => some e
  | response _ | stream _ => none

/-- When the call goes on by itself. -/
def Trial.due (T : Trial) (now : Nat) : Phase → Option Nat
  | .unmade => some T.made
  | .telling _ _ due => some due
  | .queued | .pacing => some (max now T.gate)
  | .attempting _ deadline w => w.done.merge min deadline
  | .backingOff _ due => some due
  | .streaming _ | .pulling _ | .drained | .over => none

/-- The work of attempt `n` if it starts at `now` and comes to `answer`. -/
def Trial.work (T : Trial) (answer : Nat → Outcome) (now n : Nat) : Work Outcome :=
  ⟨(T.duration n).map (now + ·), answer n⟩

/-- Call `i` meets with the trial, and its attempts come to `answer` if nothing ends them. The clock
goes past no instant at which the call goes on or is cancelled, and not on at all while it could
return because it was cancelled. What is due at the instant of its cancellation comes before that.
Its caller does not drop it. -/
def Meets (S : Setup) (T : Trial) (answer : Nat → Outcome) (i : Nat) (s : State) : Input → Prop
  | .tick later => ∀ c, s.calls[i]? = some c →
      (∀ due, T.due s.now c.phase = some due → later ≤ due) ∧
      (c.cancelled = false → ∀ instant, T.cancelled = some instant → later ≤ instant) ∧
      (c.cancelled = true → c.phase.isAwaiting = true → later ≤ s.now)
  | .call j freshRequest freshCorrelation q => j = i → s.now = T.made ∧
      freshRequest = T.freshRequest ∧ freshCorrelation = T.freshCorrelation ∧ q = T.request
  | .cancel j => j = i → T.cancelled = some s.now ∧
      ∀ c due, s.calls[i]? = some c → T.due s.now c.phase = some due → s.now < due
  | .poll j w _ => j = i → ∀ c n, s.calls[i]? = some c → Starts S s.now c n →
      w = T.work answer s.now n ∧ (n = 0 → T.gate ≤ s.now)
  | .pull .. => True
  | .drop j => j ≠ i

/-! ## Hearings -/

/-- Hooks are told one after the other, the first one at `now` with number `next`. -/
def hearings (who : Identity) (notice : Notice) (now next : Nat) : List Nat → List (Nat × Event)
  | [] => []
  | 0 :: hooks => (now, .told next who notice) :: hearings who notice now (next + 1) hooks
  | d :: hooks =>
    (now, .told next who notice) :: hearings who notice (Duration.later now d) (next + 1) hooks

/-- The hooks from number `next` on are told why, beginning at `now`. -/
def Setup.hearing (S : Setup) (now : Nat) (who : Identity) (why : Telling) (next : Nat) :
    List (Nat × Event) :=
  hearings who (S.shown why.notice) now next (S.hooks.drop next)

theorem tellFrom_hearings {who : Identity} {notice : Notice} {now n due : Nat} :
    ∀ {next : Nat} {hooks told : List Nat}, tellFrom now next hooks = (told, some (n, due)) →
      ∃ k, n = next + k ∧ told.map (fun j => (now, Event.told j who notice)) ++
        hearings who notice due n (hooks.drop k) = hearings who notice now next hooks
  | _, [], _, h => by cases h
  | next, 0 :: hooks, told, h => by
    rw [tellFrom] at h
    rcases ht : tellFrom now (next + 1) hooks with ⟨told', _ | ⟨n', due'⟩⟩
    · rw [ht] at h
      cases h
    · rw [ht] at h
      cases h
      obtain ⟨k, hk, hh⟩ := @tellFrom_hearings who notice _ _ _ _ _ _ ht
      refine ⟨k + 1, by omega, ?_⟩
      rw [hearings, ← hh]
      rfl
  | next, (d + 1) :: hooks, _, h => by
    cases h
    exact ⟨1, rfl, rfl⟩

theorem tellFrom_hearings_now {who : Identity} {notice : Notice} {now : Nat} :
    ∀ {next : Nat} {hooks told : List Nat}, tellFrom now next hooks = (told, none) →
      told.map (fun j => (now, Event.told j who notice)) = hearings who notice now next hooks
  | _, [], _, h => by cases h; rfl
  | next, 0 :: hooks, told, h => by
    rw [tellFrom] at h
    rcases ht : tellFrom now (next + 1) hooks with ⟨told', _ | w⟩
    · rw [ht] at h
      cases h
      rw [hearings, ← tellFrom_hearings_now ht]
      rfl
    · rw [ht] at h
      cases h
  | next, (d + 1) :: hooks, _, h => by cases h

/-- Where telling stops at a hook, the hooks after it are told as they would have been. -/
theorem tell_hearing (S : Setup) (now : Nat) (who : Identity) (why : Telling) (next : Nat) :
    ∃ es : List Event, (∀ e ∈ es, e.isTold) ∧
      ((∃ n due, S.tell now who why next = (es, .telling why n due) ∧ now ≤ due ∧
          es.map (now, ·) ++ S.hearing due who why n = S.hearing now who why next ∧
          S.toldAt due n = S.toldAt now next) ∨
        S.tell now who why next = (es ++ why.parting who, why.phaseAfter) ∧
          es.map (now, ·) = S.hearing now who why next ∧ S.toldAt now next = now) := by
  unfold Setup.tell
  match ht : tellFrom now next (S.hooks.drop next) with
  | (told, wait) =>
    have htold : ∀ e ∈ told.map fun k => Event.told k who (S.shown why.notice), e.isTold := by
      intro e he
      obtain ⟨k, -, rfl⟩ := List.mem_map.1 he
      rfl
    refine ⟨_, htold, ?_⟩
    rw [List.map_map]
    cases wait with
    | none => exact .inr ⟨rfl, tellFrom_hearings_now ht, tellFrom_toldBy_now ht⟩
    | some w =>
      obtain ⟨hle, k, hk, hby⟩ := tellFrom_toldBy ht
      obtain ⟨k', hk', hhear⟩ := @tellFrom_hearings who (S.shown why.notice) _ _ _ _ _ _ ht
      obtain rfl : k' = k := by omega
      rw [List.drop_drop, ← hk] at hby hhear
      exact .inl ⟨w.1, w.2, rfl, hle, hhear, hby⟩

/-! ## The forecast -/

section
variable (S : Setup) (T : Trial) (who : Identity) (q : Request)

/-- The call is decided: hooks are told from number `next` on, beginning at `now`, and then the
caller is handed what it is owed. -/
def Setup.settling (now : Nat) (notice : Notice) (give : Handover) (next : Nat) :
    List (Nat × Event) :=
  S.hearing now who (.settle notice give) next ++ [(S.toldAt now next, .handed (give.stamp who))]

def Setup.failing (e : ChatError) (now : Nat) : List (Nat × Event) :=
  S.settling who now (.failed e) (.failure e) 0

/-- The call waits from `now` on until it goes on by itself, unless it is cancelled before. -/
def Trial.await (go : Nat → List (Nat × Event)) (now : Nat) (due : Option Nat) :
    List (Nat × Event) :=
  match T.cancelled.filter fun instant => due.all (instant < ·) with
  | some instant => S.failing who .cancelled (max now instant)
  | none => due.elim [] go

/-- With what attempt `n` has failed when it ends at `due`, if it has. -/
def Trial.verdict (n : Nat) (done : Option Nat) (due : Nat) : Option ChatError :=
  if reached due done then T.failure n else some (.timeout (S.options.requestTimeout.getD 0))

/-- Attempt `n` ends at `due`. Nothing is foretold of a call that succeeds. -/
def Trial.ending (failed : ChatError → Nat → List (Nat × Event)) (n : Nat) (done : Option Nat)
    (due : Nat) : List (Nat × Event) :=
  (T.verdict S n done due).elim [] (failed · due)

/-- Attempt `n` is made at `now`. -/
def Trial.attempt (failed : ChatError → Nat → List (Nat × Event)) (n now : Nat) :
    List (Nat × Event) :=
  let done := (T.duration n).map (now + ·)
  (now, .attempted n q) ::
    T.await S who (T.ending S failed n done) now (done.merge min (S.deadline now))

/-- Attempt `n` has failed at `now` and `left` retries are left. -/
def Trial.failed : (left n : Nat) → ChatError → (now : Nat) → List (Nat × Event)
  | 0, _, e, now => S.failing who e now
  | left + 1, n, e, now =>
    if S.retryable e then
      T.await S who (T.attempt S who q (Trial.failed left (n + 1)) (n + 1)) now
        (some (Duration.later now (S.options.baseBackoff n)))
    else S.failing who e now

/-- What follows when attempt `n` has failed. -/
def Trial.retry (n : Nat) : ChatError → Nat → List (Nat × Event) :=
  T.failed S who q (S.options.maxRetries - n) n

/-- Hooks have been told at `now` that the call starts. -/
def Trial.enter (now : Nat) : List (Nat × Event) :=
  T.await S who (T.attempt S who q (T.retry S who q 0) 0) now (some (max now T.gate))

/-- All that happens to the call until it succeeds. -/
def Trial.forecast : List (Nat × Event) :=
  match S.registry.route T.freshRequest T.freshCorrelation T.request with
  | .error e => [(T.made, .handed (.failure e))]
  | .ok (p, q) =>
    let who := q.identity p.1
    S.hearing T.made who .start 0 ++ T.enter S who q (S.toldAt T.made 0)

/-- What is still to come of it, by its phase. -/
def Trial.rest (now : Nat) : Phase → List (Nat × Event)
  | .unmade => T.forecast S
  | .telling .start next due =>
    S.hearing due who .start next ++ T.enter S who q (S.toldAt due next)
  | .telling (.settle notice give) next due => S.settling who due notice give next
  | .queued | .pacing => T.enter S who q now
  | .attempting n deadline w =>
    T.await S who (T.ending S (T.retry S who q n) n w.done) now (w.done.merge min deadline)
  | .backingOff n due =>
    T.await S who (T.attempt S who q (T.retry S who q (n + 1)) (n + 1)) now (some due)
  | .telling .abandon _ _ | .streaming _ | .pulling _ | .drained | .over => []

end

/-! ## Waiting -/

section
variable {S : Setup} {T : Trial} {who : Identity} {go : Nat → List (Nat × Event)} {now later : Nat}
  {due : Option Nat}

theorem await_quit {instant : Nat} (hx : T.cancelled = some instant) (hle : instant ≤ now)
    (hdue : ∀ d, due = some d → instant < d) :
    T.await S who go now due = S.failing who .cancelled now := by
  have hall : due.all (instant < ·) = true := by
    cases due with
    | none => rfl
    | some d => simpa using hdue d rfl
  have hfilter : T.cancelled.filter (fun instant => due.all (instant < ·)) = some instant := by
    rw [hx, Option.filter_some, if_pos hall]
  simp only [Trial.await, hfilter, Nat.max_eq_left hle]

theorem await_go (hx : ∀ instant, T.cancelled = some instant → now ≤ instant) :
    T.await S who go now (some now) = go now := by
  have hnone : T.cancelled.filter (fun instant => (some now).all (instant < ·)) = none := by
    apply Option.filter_eq_none_iff.2
    intro instant hi
    simpa using hx instant hi
  rw [Trial.await, hnone, Option.elim_some]

/-- It makes no difference how much of the wait has passed. -/
theorem await_later (hle : now ≤ later)
    (hx : ∀ instant, T.cancelled = some instant → later ≤ instant) :
    T.await S who go later due = T.await S who go now due := by
  unfold Trial.await
  split
  · next instant h =>
    have hlater := hx instant (Option.eq_some_of_filter_eq_some h)
    rw [Nat.max_eq_right hlater, Nat.max_eq_right (Nat.le_trans hle hlater)]
  · rfl

/-- An attempt that is due has come to its verdict. -/
theorem verdict_of_outcomeBy {n : Nat} {deadline : Option Nat} {w : Work Outcome} {o : Outcome}
    (hw : w.outcome.error? = T.failure n)
    (hle : ∀ due, w.done.merge min deadline = some due → now ≤ due)
    (ho : S.outcomeBy now deadline w = some o) :
    w.done.merge min deadline = some now ∧ T.verdict S n w.done now = o.error? := by
  unfold Setup.outcomeBy at ho
  unfold Trial.verdict
  split at ho
  · next hr =>
    cases ho
    refine ⟨?_, by rw [if_pos hr, hw]⟩
    cases hd : w.done with
    | none => rw [hd] at hr; cases hr
    | some d =>
      have hdn : d ≤ now := by simpa [hd, reached] using hr
      rw [hd] at hle
      cases deadline with
      | none =>
        have := hle d rfl
        exact congrArg some (Nat.le_antisymm hdn this)
      | some d' =>
        have := hle (min d d') rfl
        exact congrArg some (by omega)
  · next hr =>
    split at ho
    · next hr' =>
      cases ho
      refine ⟨?_, by rw [if_neg hr]; rfl⟩
      cases deadline with
      | none => cases hr'
      | some d =>
        have hdn : d ≤ now := by simpa [reached] using hr'
        cases hw' : w.done with
        | none =>
          rw [hw'] at hle
          have := hle d rfl
          exact congrArg some (Nat.le_antisymm hdn this)
        | some d' =>
          rw [hw'] at hle
          have := hle (min d' d) rfl
          exact congrArg some (by omega)
    · cases ho

end

end Switchboard.Client
