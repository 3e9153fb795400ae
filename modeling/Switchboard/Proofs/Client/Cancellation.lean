import Switchboard.Proofs.Client.Return
import Switchboard.Proofs.Client.Settlement

/-!
# Cancelled calls

A call that is cancelled while it waits, for its slot, its turn, an attempt or the end of a pause,
fails as soon as it is polled, and hooks are told of that first. `Setup.pledge` is when it returns
and what, by its phase. Every move that a cancelled call can make keeps the pledge (`Keeps.move`),
none is an attempt (`Move.quiet_of_cancelled`), and each brings the call nearer to its return
(`Pledged.progress`).
-/

namespace Switchboard.Client

open Chat

/-! ## What a cancelled call returns -/

/-- When a call in this phase returns if it is cancelled at `now`, and what. A call that was not
made yet is taken to be made at that instant. -/
def Setup.pledge (S : Setup) (now : Nat) (who : Identity) : Phase → Option (Nat × Handover)
  | .unmade => some (S.toldAt (S.toldAt now 0) 0, .failure .cancelled)
  | .telling .start next due =>
    some (S.toldAt (S.toldAt (max now due) next) 0, .failure .cancelled)
  | .queued | .pacing | .attempting .. | .backingOff .. =>
    some (S.toldAt now 0, .failure .cancelled)
  | .telling (.settle _ give) next due => some (S.toldAt (max now due) next, give.stamp who)
  | .telling .abandon _ _ | .streaming _ | .pulling _ | .drained | .over => none

/-- If call `i` is made, it is routed, and its caller does not drop it. The clock does not go past
the end of a wait for a hook, nor on at all while the call could return because it was cancelled. -/
def Prompt (S : Setup) (i : Nat) (s : State) : Input → Prop
  | .tick later => ∀ c, s.calls[i]? = some c →
      (∀ why next due, c.phase = .telling why next due → later ≤ max s.now due) ∧
      (c.cancelled = true → c.phase.isAwaiting = true → later ≤ s.now)
  | .call j freshRequest freshCorrelation q =>
    j = i → ∃ e, S.registry.route freshRequest freshCorrelation q = .ok e
  | .drop j => j ≠ i
  | _ => True

/-- Hooks are being told how the call ended, or it was made and is cancelled. -/
def Call.isBound (c : Call) : Bool :=
  match c.phase with
  | .telling (.settle ..) _ _ => true
  | .unmade => false
  | _ => c.cancelled

/-- The call has returned `r`, or nothing keeps it from returning it. -/
def Keeps (S : Setup) (r : Nat × Handover) (now : Nat) (tr : List (Nat × Event)) (c : Call) :
    Prop :=
  returned? tr = some r ∨
    returned? tr = none ∧ c.isBound = true ∧ S.pledge now c.identity c.phase = some r

section
variable {S : Setup} {r : Nat × Handover} {s : State} {i now : Nat} {c c' : Call} {a : Input}
  {tr : List (Nat × Event)} {es : List Event}

theorem Starts.isAwaiting {n : Nat} (h : Starts S now c n) : c.phase.isAwaiting = true := by
  cases h with
  | admitted hp | paced hp | again hp => rw [hp]; rfl

/-- A call that waits is bound only by being cancelled. -/
theorem isBound_of_isAwaiting (h : c.phase.isAwaiting = true) : c.isBound = c.cancelled := by
  unfold Call.isBound
  cases hp : c.phase with
  | unmade | telling => rw [hp] at h; cases h
  | _ => rfl

theorem Keeps.more (h : returned? tr = some r) (tr' : List (Nat × Event)) (c : Call) :
    Keeps S r now (tr ++ tr') c :=
  .inl (by rw [returned?_append, h, Option.some_or])

/-- The caller is handed what it is owed when all hooks have been told. -/
theorem Keeps.settle (h : returned? tr = none) (c : Call) (now next : Nat) (notice : Notice)
    (give : Handover) :
    let told := S.tell now c.identity (.settle notice give) next
    Keeps S (S.toldAt now next, give.stamp c.identity) now (tr ++ told.1.map (now, ·))
      { c with phase := told.2 } := by
  obtain ⟨es, hes, ⟨n, due, ht, -, -, hle, hat⟩ | ⟨ht, hat⟩⟩ :=
    tell_told S now c.identity (.settle notice give) next
  · simp only [ht]
    refine .inr ⟨by rw [returned?_append, h, returned?_told hes, Option.none_or], rfl, ?_⟩
    show some (S.toldAt (max now due) n, give.stamp c.identity) = _
    rw [Nat.max_eq_right hle, hat]
  · simp only [ht]
    refine .inl ?_
    rw [List.map_append, returned?_append, returned?_append, h, returned?_told hes, hat]
    rfl

/-- A call that is being started fails when all hooks have been told of its start. -/
theorem Keeps.start (h : returned? tr = none) (hcan : c.cancelled = true) (now next : Nat) :
    let told := S.tell now c.identity .start next
    Keeps S (S.toldAt (S.toldAt now next) 0, .failure .cancelled) now
      (tr ++ told.1.map (now, ·)) { c with phase := told.2 } := by
  obtain ⟨es, hes, ⟨n, due, ht, -, -, hle, hat⟩ | ⟨ht, hat⟩⟩ :=
    tell_told S now c.identity .start next
  · simp only [ht]
    refine .inr ⟨by rw [returned?_append, h, returned?_told hes, Option.none_or], hcan, ?_⟩
    show some (S.toldAt (S.toldAt (max now due) n) 0, Handover.failure .cancelled) = _
    rw [Nat.max_eq_right hle, hat]
  · simp only [ht, Telling.parting, List.append_nil]
    refine .inr ⟨by rw [returned?_append, h, returned?_told hes, Option.none_or], hcan, ?_⟩
    rw [hat]
    rfl

/-- A call that waits fails at once. -/
theorem pledge_of_isAwaiting {p : Phase} (h : p.isAwaiting = true) (who : Identity) :
    S.pledge now who p = some (S.toldAt now 0, .failure .cancelled) := by
  cases p with
  | queued | pacing | attempting | backingOff => rfl
  | _ => cases h

theorem Keeps.move (h : Keeps S r s.now tr c) (ha : a.target = some i) (hok : Prompt S i s a)
    (hm : Move S s.now a c es c') : Keeps S r s.now (tr ++ es.map (s.now, ·)) c' := by
  obtain h | ⟨hnone, hbound, hr⟩ := h
  · exact .more h _ _
  -- a bound call does not wait undisturbed
  have notFree : c.phase.isAwaiting = true → c.cancelled ≠ false := by
    intro hp hc
    rw [isBound_of_isAwaiting hp, hc] at hbound
    cases hbound
  cases hm with
  | cancel =>
    rw [List.map_nil, List.append_nil]
    refine .inr ⟨hnone, ?_, hr⟩
    revert hbound
    unfold Call.isBound
    cases c.phase with
    | telling why => cases why <;> simp
    | _ => simp
  | refuse hp | make hp =>
    rw [Call.isBound, hp] at hbound
    cases hbound
  | @tell _ _ _ _ why next due hp hdue =>
    rw [hp] at hr
    cases why with
    | start =>
      cases hr
      rw [Nat.max_eq_left hdue]
      rw [Call.isBound, hp] at hbound
      exact .start hnone hbound s.now next
    | settle notice give =>
      cases hr
      rw [Nat.max_eq_left hdue]
      exact .settle hnone c s.now next notice give
    | abandon => cases hr
  | pace hp hc | backOff hp hc | commit hp hc => exact absurd hc (notFree (by rw [hp]; rfl))
  | attempt hs hc => exact absurd hc (notFree hs.isAwaiting)
  | deliver hp | replay hp | pull hp | close hp =>
    rw [hp] at hr
    cases hr
  | decide hd =>
    cases hd with
    | quit hp =>
      rw [pledge_of_isAwaiting hp] at hr
      cases hr
      exact .settle hnone c s.now 0 _ _
    | giveUp hp hc | respond hp hc | openEmpty hp hc =>
      exact absurd hc (notFree (by rw [hp]; rfl))
    | interrupt hp | replay hp | finish hp | fault hp | close hp =>
      rw [hp] at hr
      cases hr
  | forsake | letGo =>
    cases ha
    exact absurd rfl hok

theorem Keeps.tick {later : Nat} (h : Keeps S r s.now tr c) (hc : s.calls[i]? = some c)
    (hle : s.now ≤ later) (hok : Prompt S i s (.tick later)) : Keeps S r later tr c := by
  refine h.imp_right fun ⟨hnone, hbound, hr⟩ => ⟨hnone, hbound, ?_⟩
  obtain ⟨hwait, hstill⟩ := hok c hc
  rw [← hr]
  match hp : c.phase with
  | .unmade =>
    rw [Call.isBound, hp] at hbound
    cases hbound
  | .queued | .pacing | .attempting .. | .backingOff .. =>
    have hwaits : c.phase.isAwaiting = true := by rw [hp]; rfl
    rw [isBound_of_isAwaiting hwaits] at hbound
    rw [Nat.le_antisymm (hstill hbound hwaits) hle]
  | .telling why next due =>
    have hmax : max later due = max s.now due := by
      have := hwait _ _ _ hp
      omega
    cases why <;> simp only [Setup.pledge, hmax]
  | .streaming _ | .pulling _ | .drained | .over => rfl

end

/-- Call `i` has returned `r`, or nothing keeps it from returning it. -/
def Pledged (S : Setup) (i : Nat) (r : Nat × Handover) (s : State) : Prop :=
  ∃ c, s.calls[i]? = some c ∧ Keeps S r s.now (s.trace i) c

section
variable {S : Setup} {ok : State → Input → Prop} {r : Nat × Handover} {s t : State} {i now : Nat}
  {c c' : Call} {a : Input} {es : List Event}

/-- A cancelled call makes no attempt, and stays cancelled. -/
theorem Move.quiet_of_cancelled (hm : Move S now a c es c') (hcan : c.cancelled = true) :
    attempts es = [] ∧ c'.cancelled = true := by
  cases hm with
  | cancel => exact ⟨rfl, rfl⟩
  | make | tell | decide => exact ⟨attempts_tell .., hcan⟩
  | pace _ hc | attempt _ hc | backOff _ hc | commit _ hc | deliver _ hc =>
    rw [hcan] at hc
    cases hc
  | refuse | replay | pull | close | forsake | letGo => exact ⟨rfl, hcan⟩

theorem Reaches.quiet_of_cancelled (h : Reaches S ok s t) (hc : s.calls[i]? = some c)
    (hcan : c.cancelled = true) :
    attemptTimes (t.trace i) = attemptTimes (s.trace i) ∧
      ∃ d, t.calls[i]? = some d ∧ d.cancelled = true := by
  induction h with
  | refl => exact ⟨rfl, c, hc, hcan⟩
  | @step t u a _ _ hs ih =>
    obtain ⟨htimes, d, hd, hdcan⟩ := ih
    obtain ⟨es, d', hd', htr, ⟨rfl, rfl⟩ | ⟨-, hm⟩⟩ := step_call hs hd
    · rw [htr, List.map_nil, List.append_nil]
      exact ⟨htimes, _, hd', hdcan⟩
    · obtain ⟨hes, hcan'⟩ := hm.quiet_of_cancelled hdcan
      rw [htr, attemptTimes_append, attemptTimes_at, hes, List.map_nil, List.append_nil]
      exact ⟨htimes, d', hd', hcan'⟩

theorem Pledged.step (h : Pledged S i r s) (hok : Prompt S i s a) (hs : step? S s a = some t) :
    Pledged S i r t := by
  obtain ⟨c, hc, hk⟩ := h
  obtain ⟨es, c', hc', htr, ⟨rfl, rfl⟩ | ⟨ha, hm⟩⟩ := step_call hs hc
  · refine ⟨c', hc', ?_⟩
    rw [htr, List.map_nil, List.append_nil]
    rcases step_now hs with hnow | ⟨rfl, hle⟩
    · rwa [hnow]
    · exact hk.tick hc hle hok
  · refine ⟨c', hc', ?_⟩
    rw [htr, step_now_of_target hs ha]
    exact hk.move ha hok hm

theorem Pledged.run (h : Pledged S i r s) (hr : Reaches S (Prompt S i) s t) : Pledged S i r t :=
  hr.keeps h fun ho hok hs => ho.step hok hs

end

/-! ## Coming to return -/

/-- How many hooks are left to be told of a cancelled call, with the waits in between. -/
def Phase.hooksLeft (hooks : Nat) : Phase → Nat
  | .telling .start next _ => hooks - next + hooks + 2
  | .telling _ next _ => hooks - next
  | _ => hooks + 1

section
variable {S : Setup} {r : Nat × Handover} {s t : State} {i now : Nat} {c : Call}

/-- A hook has been told, and the next one is told after it. -/
theorem reaches_after_hook {why : Telling} {next due : Nat} (hc : s.calls[i]? = some c)
    (hp : c.phase = .telling why next due) :
    ∃ u, Reaches S (Prompt S i) s u ∧ Did { s with now := max s.now due } i
      (S.tell (max s.now due) c.identity why next).1
      { c with phase := (S.tell (max s.now due) c.identity why next).2 } u := by
  let w : Work Outcome := ⟨none, .failure .cancelled⟩
  let s' : State := { s with now := max s.now due }
  have hok : Prompt S i s (.tick (max s.now due)) := by
    intro d hd
    rw [hc] at hd
    cases hd
    rw [hp]
    exact ⟨fun _ _ _ h => by cases h; exact Nat.le_refl _, fun _ h => by cases h⟩
  have hpoll : step? S s' (.poll i w 0) = some (s'.inform S i c why next) :=
    poll_told (s := s') hc hp (Nat.le_max_right ..) w
  exact ⟨_, .step (a := .poll i w 0) (.single hok (tick_to S s due)) trivial hpoll,
    (Did.refl (s := s') hc).inform c why next⟩

/-- A cancelled call that waits is failed by a poll. -/
theorem reaches_failed (hc : s.calls[i]? = some c) (hcan : c.cancelled = true)
    (hp : c.phase.isAwaiting = true) :
    ∃ u, Reaches S (Prompt S i) s u ∧ Did s i
      (S.tell s.now c.identity (.settle (.failed .cancelled) (.failure .cancelled)) 0).1
      { c with phase := (S.tell s.now c.identity
          (.settle (.failed .cancelled) (.failure .cancelled)) 0).2 } u := by
  let w : Work Outcome := ⟨none, .failure .cancelled⟩
  have hpoll : step? S s (.poll i w 0) = some (s.fail S i c .cancelled) := by
    simp only [step?, hc, Option.bind_some, State.poll]
    cases hph : c.phase with
    | queued | pacing | attempting | backingOff => simp [hcan]
    | _ => rw [hph] at hp; cases hp
  exact ⟨_, .single (a := .poll i w 0) trivial hpoll, (Did.refl hc).settle c _ _⟩

/-- Telling hooks goes on to a later one, unless it ends with the return of the call. -/
theorem hooksLeft_told {why : Telling} {next : Nat} (hwhy : why ≠ .abandon)
    (hc : s.calls[i]? = some c)
    (hd : Did s i (S.tell s.now c.identity why next).1
      { c with phase := (S.tell s.now c.identity why next).2 } t) :
    ∃ d, t.calls[i]? = some d ∧ (returned? (t.trace i) = none → ∀ due,
      d.phase.hooksLeft S.hooks.length <
        (Phase.telling why next due).hooksLeft S.hooks.length) := by
  refine ⟨_, hd.call hc, fun hn due => ?_⟩
  have htr := hd.trace
  obtain ⟨es, -, ⟨n, due', ht, hlt, hle, -⟩ | ⟨ht, -⟩⟩ := tell_told S s.now c.identity why next
  · rw [ht]
    cases why with
    | abandon => exact absurd rfl hwhy
    | start | settle => simp only [Phase.hooksLeft]; omega
  · rw [ht] at htr ⊢
    cases why with
    | abandon => exact absurd rfl hwhy
    | start => simp only [Telling.phaseAfter, Phase.hooksLeft]; omega
    | settle notice give =>
      rw [htr, List.map_append, returned?_append, returned?_append, Option.or_eq_none_iff,
        Option.or_eq_none_iff] at hn
      cases hn.2.2

/-- A cancelled call that has not returned goes on to tell a later hook, if it does not return. -/
theorem Pledged.progress (h : Pledged S i r s) (hc : s.calls[i]? = some c)
    (hn : returned? (s.trace i) = none) :
    ∃ u d, Reaches S (Prompt S i) s u ∧ u.calls[i]? = some d ∧ (returned? (u.trace i) = none →
      d.phase.hooksLeft S.hooks.length < c.phase.hooksLeft S.hooks.length) := by
  obtain ⟨c', hc', hk⟩ := h
  obtain rfl : c' = c := Option.some.inj (hc'.symm.trans hc)
  obtain ⟨-, hbound, hr⟩ := hk.resolve_left (by rw [hn]; nofun)
  match hp : c'.phase with
  | .unmade =>
    rw [Call.isBound, hp] at hbound
    cases hbound
  | .telling why next due =>
    have hwhy : why ≠ .abandon := by
      rintro rfl
      rw [hp] at hr
      cases hr
    obtain ⟨u, hu, hd⟩ := reaches_after_hook (S := S) hc hp
    obtain ⟨d, hdc, hleft⟩ := hooksLeft_told (s := { s with now := max s.now due }) hwhy hc hd
    exact ⟨u, d, hu, hdc, fun hnu => hleft hnu due⟩
  | .queued | .pacing | .attempting .. | .backingOff .. =>
    have hwaits : c'.phase.isAwaiting = true := by rw [hp]; rfl
    rw [isBound_of_isAwaiting hwaits] at hbound
    obtain ⟨u, hu, hd⟩ := reaches_failed (S := S) hc hbound hwaits
    obtain ⟨d, hdc, hleft⟩ := hooksLeft_told (by nofun) hc hd
    exact ⟨u, d, hu, hdc, fun hnu => Nat.lt_succ_of_lt (hleft hnu 0)⟩
  | .streaming _ | .pulling _ | .drained | .over =>
    rw [hp] at hr
    cases hr

/-- Call `i` returns `r`: it has, or its instant is not past and the call can come to it. -/
def Yields (S : Setup) (i : Nat) (r : Nat × Handover) (s : State) : Prop :=
  returned? (s.trace i) = some r ∨ returned? (s.trace i) = none ∧ s.now ≤ r.1 ∧
    ∃ t, Reaches S (Prompt S i) s t ∧ returned? (t.trace i) = some r

theorem le_pledge {p : Phase} {who : Identity} (h : S.pledge now who p = some r) : now ≤ r.1 := by
  unfold Setup.pledge at h
  split at h <;> cases h
  · exact Nat.le_trans (le_toldBy ..) (le_toldBy ..)
  · exact Nat.le_trans (Nat.le_max_left ..) (Nat.le_trans (le_toldBy ..) (le_toldBy ..))
  · exact le_toldBy ..
  · exact le_toldBy ..
  · exact le_toldBy ..
  · exact le_toldBy ..
  · exact Nat.le_trans (Nat.le_max_left ..) (le_toldBy ..)

theorem Pledged.reaches_return (h : Pledged S i r s) :
    ∃ t, Reaches S (Prompt S i) s t ∧ returned? (t.trace i) = some r := by
  obtain ⟨c, hc, -⟩ := id h
  -- by the number of hooks that are left
  induction hm : c.phase.hooksLeft S.hooks.length using Nat.strongRecOn generalizing s c with
  | _ m ih =>
    by_cases hn : returned? (s.trace i) = none
    · obtain ⟨u, d, hu, hd, hleft⟩ := h.progress hc hn
      by_cases hnu : returned? (u.trace i) = none
      · obtain ⟨t, ht, hret⟩ := ih _ (hm ▸ hleft hnu) (h.run hu) d hd rfl
        exact ⟨t, hu.trans ht, hret⟩
      · obtain ⟨_, -, hk⟩ := h.run hu
        exact ⟨u, hu, hk.resolve_right fun hk => hnu hk.1⟩
    · obtain ⟨_, -, hk⟩ := h
      exact ⟨s, .refl, hk.resolve_right fun hk => hn hk.1⟩

theorem Pledged.yields (h : Pledged S i r s) : Yields S i r s := by
  obtain ⟨_, -, hk⟩ := id h
  exact hk.imp_right fun ⟨hn, _, hr⟩ => ⟨hn, le_pledge hr, h.reaches_return⟩

end

/-! ## Before the cancellation -/

/-- Call `i` is neither cancelled nor dropped. -/
def Spares (i : Nat) (_ : State) (a : Input) : Prop := a ≠ .cancel i ∧ a ≠ .drop i

section
variable {S : Setup} {ok : State → Input → Prop} {s t : State} {i m : Nat} {c : Call}

theorem pledges_told {why : Telling} {who : Identity} {now next : Nat}
    (hn : returned? ((S.tell now who why next).1.map (now, ·)) = none) (hwhy : why ≠ .abandon)
    (who' : Identity) (now' : Nat) :
    ∃ r, S.pledge now' who' (S.tell now who why next).2 = some r := by
  obtain ⟨es, -, ⟨n, due, ht⟩ | ht⟩ := tell_cases S now who why next
  · rw [ht]
    cases why with
    | abandon => exact absurd rfl hwhy
    | start | settle => exact ⟨_, rfl⟩
  · rw [ht] at hn ⊢
    cases why with
    | abandon => exact absurd rfl hwhy
    | start => exact ⟨_, rfl⟩
    | settle notice give =>
      rw [List.map_append, returned?_append, Option.or_eq_none_iff] at hn
      cases hn.2

/-- A call that has not returned would return if it were cancelled. -/
theorem Reaches.pledges (h : Reaches S (Spares i) (.start S m) s) (hc : s.calls[i]? = some c)
    (hn : returned? (s.trace i) = none) (now : Nat) :
    ∃ r, S.pledge now c.identity c.phase = some r := by
  induction h generalizing c with
  | refl =>
    obtain rfl := call_of_start hc
    exact ⟨_, rfl⟩
  | @step t u a _ hok hs ih =>
    obtain ⟨es, d, hd, htr, hm⟩ := step_call_before hs hc
    rw [htr, returned?_append, Option.or_eq_none_iff] at hn
    obtain ⟨hnt, hes⟩ := hn
    obtain ⟨r, hr⟩ := ih hd hnt
    obtain ⟨rfl, rfl⟩ | ⟨ha, hm⟩ := hm
    · exact ⟨r, hr⟩
    cases hm with
    | cancel => exact ⟨r, hr⟩
    | refuse => cases hes
    | commit => cases hes
    | make | decide =>
      refine pledges_told hes ?_ _ _
      rintro ⟨⟩
    | pace | attempt | backOff => exact ⟨_, rfl⟩
    | replay hp | pull hp | close hp =>
      rw [hp] at hr
      cases hr
    | deliver hp =>
      rw [hp] at hr
      cases hr
    | forsake | letGo =>
      cases ha
      exact absurd rfl hok.2
    | tell hp =>
      refine pledges_told hes ?_ _ _
      rintro rfl
      rw [hp] at hr
      cases hr

/-- Where no hook takes time, a call is seen while hooks are told only after it was dropped. -/
theorem Reaches.not_telling (quick : ∀ d ∈ S.hooks, d = 0) (h : Reaches S ok (.start S m) s)
    (hc : s.calls[i]? = some c) {why : Telling} {next due : Nat}
    (hp : c.phase = .telling why next due) : why = .abandon := by
  induction h generalizing c with
  | refl =>
    obtain rfl := call_of_start hc
    cases hp
  | @step t u a _ _ hs ih =>
    have told : ∀ who why' next', (S.tell t.now who why' next').2 ≠ .telling why next due := by
      intro who why' next'
      rw [tell_quick quick]
      exact phaseAfter_ne_telling _ _ _ _
    obtain ⟨es, d, hd, -, ⟨rfl, -⟩ | ⟨-, hm⟩⟩ := step_call_before hs hc
    · exact ih hd hp
    cases hm with
    | cancel => exact ih hd hp
    | make | tell | decide => exact absurd hp (told _ _ _)
    | letGo => cases hp; rfl
    | _ => cases hp

theorem Reaches.pledge_quick {r : Nat × Handover} {now : Nat} (quick : ∀ d ∈ S.hooks, d = 0)
    (h : Reaches S ok (.start S m) s) (hc : s.calls[i]? = some c) (hmade : c.phase ≠ .unmade)
    (hr : S.pledge now c.identity c.phase = some r) : r = (now, .failure .cancelled) := by
  match hp : c.phase with
  | .unmade => exact absurd hp hmade
  | .queued | .pacing | .attempting .. | .backingOff .. =>
    rw [pledge_of_isAwaiting (by rw [hp]; rfl), toldAt_quick quick] at hr
    exact (Option.some.inj hr).symm
  | .telling why next due =>
    rw [hp, h.not_telling quick hc hp] at hr
    cases hr
  | .streaming _ | .pulling _ | .drained | .over =>
    rw [hp] at hr
    cases hr

end

/-! ## Cancellations of a run -/

section
variable {S : Setup} {s s' t u : State} {i m : Nat} {c : Call} {r : Nat × Handover}

theorem step_cancel (hc : s.calls[i]? = some c) (hs : step? S s (.cancel i) = some s') :
    s'.now = s.now ∧ s'.trace i = s.trace i ∧ s'.calls[i]? = some { c with cancelled := true } := by
  obtain ⟨hi, -⟩ := List.getElem?_eq_some_iff.1 hc
  simp only [step?, hc, Option.map_some, Option.some.injEq] at hs
  subst hs
  exact ⟨rfl, rfl, List.getElem?_set_self hi⟩

theorem isBound_of_cancelled (hmade : c.phase ≠ .unmade) :
    ({ c with cancelled := true } : Call).isBound = true := by
  unfold Call.isBound
  cases hp : c.phase with
  | unmade => exact absurd hp hmade
  | telling why => cases why <;> rfl
  | _ => rfl

/-- A call that was made and is cancelled is held to its pledge. -/
theorem pledged_of_cancel (hc : s.calls[i]? = some c) (hmade : c.phase ≠ .unmade)
    (hn : returned? (s.trace i) = none) (hr : S.pledge s.now c.identity c.phase = some r)
    (hs : step? S s (.cancel i) = some s') : Pledged S i r s' := by
  obtain ⟨hnow, htr, hc'⟩ := step_cancel hc hs
  refine ⟨_, hc', .inr ⟨htr ▸ hn, isBound_of_cancelled hmade, ?_⟩⟩
  rw [hnow]
  exact hr

/-- A cancelled call that is made fails when hooks have been told of its start and of its end. -/
theorem pledged_of_make {freshRequest freshCorrelation : String} {q : Request}
    (hc : s.calls[i]? = some c) (hcan : c.cancelled = true) (hn : returned? (s.trace i) = none)
    (hok : Prompt S i s (.call i freshRequest freshCorrelation q))
    (hs : step? S s (.call i freshRequest freshCorrelation q) = some s') :
    Pledged S i (S.toldAt (S.toldAt s.now 0) 0, .failure .cancelled) s' := by
  obtain ⟨d, es, d', hd, hd', hm, htr⟩ := step_move hs rfl
  obtain rfl : d = c := Option.some.inj (hd.symm.trans hc)
  refine ⟨d', hd', ?_⟩
  rw [htr, step_now_of_target hs rfl]
  cases hm with
  | refuse _ hroute =>
    obtain ⟨e, he⟩ := hok rfl
    rw [hroute] at he
    cases he
  | @make _ _ _ _ _ r p _ _ =>
    exact Keeps.start (c := { d with identity := r.identity p.1, request := r }) hn hcan s.now 0
  | decide hd => cases hd

/-- Let a call be cancelled at an instant at which nothing else happens to it. From then on it makes
no attempt. If it had returned, it has returned the same. If not, it fails as soon as it is polled
and hooks have been told of that; only if hooks were already being told how it ended, it returns
that as if it had not been cancelled. Hooks that were being told of its start come first. A call
that is made after it was cancelled fails when hooks have been told of both. Where hooks take no
time, all this is at the instant of the cancellation, or when the call is made. -/
theorem cancelled_call_returns (h : Reaches S (Spares i) (.start S m) s)
    (hc : s.calls[i]? = some c) (hu : Reaches S (Spares i) s u)
    (apart : ∀ x ∈ u.trace i, x.1 ≠ s.now) (hs : step? S s (.cancel i) = some s')
    (ht : Reaches S (Prompt S i) s' t) :
    attemptTimes (t.trace i) = (attemptTimes (u.trace i)).filter (·.1 < s.now) ∧
    (∀ r, returned? (u.trace i) = some r → r.1 < s.now → returned? (t.trace i) = some r) ∧
    ((∀ r, returned? (u.trace i) = some r → s.now < r.1) →
      (c.phase ≠ .unmade → ∃ r, S.pledge s.now c.identity c.phase = some r ∧ Yields S i r t ∧
        ((∀ d ∈ S.hooks, d = 0) → r = (s.now, .failure .cancelled)) ∧
        ∀ notice give next due, c.phase = .telling (.settle notice give) next due →
          ∀ w, Reaches S (Prompt S i) s w → Yields S i r w) ∧
      (c.phase = .unmade → ∀ v v' d freshRequest freshCorrelation q,
        Reaches S (Prompt S i) s' v → v.calls[i]? = some d → d.phase = .unmade →
        Prompt S i v (.call i freshRequest freshCorrelation q) →
        step? S v (.call i freshRequest freshCorrelation q) = some v' →
        Reaches S (Prompt S i) v' t →
          Yields S i (S.toldAt (S.toldAt v.now 0) 0, .failure .cancelled) t ∧
            ((∀ d ∈ S.hooks, d = 0) → S.toldAt (S.toldAt v.now 0) 0 = v.now))) := by
  obtain ⟨-, htr', hc'⟩ := step_cancel hc hs
  have hbefore : ∀ x ∈ s.trace i, x.1 < s.now := fun x hx =>
    Nat.lt_of_le_of_ne (h.trace_le i x hx) (apart x (hu.trace_prefix.subset hx))
  refine ⟨?_, ?_, fun hafter => ?_⟩
  · obtain ⟨htimes, -⟩ := ht.quiet_of_cancelled hc' rfl
    rw [htimes, htr', hu.attemptTimes_before hbefore]
  · intro r hr hlt
    exact ht.returned?_later (htr' ▸ hu.returned?_before hr hlt)
  · have hn : returned? (s.trace i) = none := by
      apply Option.eq_none_iff_forall_ne_some.2
      intro r hr
      exact absurd (hafter r (hu.returned?_later hr))
        (Nat.lt_asymm (hbefore _ (mem_of_returned? hr)))
    constructor
    · intro hmade
      obtain ⟨r, hr⟩ := h.pledges hc hn s.now
      refine ⟨r, hr, ((pledged_of_cancel hc hmade hn hr hs).run ht).yields, ?_, ?_⟩
      · intro quick
        exact h.pledge_quick quick hc hmade hr
      · intro notice give next due hp w hw
        have hpledged : Pledged S i r s := ⟨c, hc, .inr ⟨hn, by rw [Call.isBound, hp], hr⟩⟩
        exact (hpledged.run hw).yields
    · intro hp v v' d freshRequest freshCorrelation q hv hd hpd hok hcall htv
      obtain ⟨-, d', hd', hcan⟩ := hv.quiet_of_cancelled hc' rfl
      obtain rfl : d' = d := Option.some.inj (hd'.symm.trans hd)
      have hfresh : Fresh v i :=
        hv.keeps (P := (Fresh · i)) ((h.fresh (i := i)).step hs) fun hf _ hs => hf.step hs
      have hnv : returned? (v.trace i) = none := by
        rw [hfresh d' hd hpd]
        rfl
      refine ⟨((pledged_of_make hd hcan hnv hok hcall).run htv).yields, ?_⟩
      intro quick
      rw [toldAt_quick quick, toldAt_quick quick]

end

/-- A client that repeats an attempt after a short pause whatever went wrong. -/
def eager : Setup :=
  { registry := ⟨[("p", ())]⟩
    options := { jitter := false, initialBackoff := 10 }
    retryable := fun _ => true
    hooks := [] }

/-- A call whose first attempt failed is cancelled in the pause after it. It fails at once, although
there would have been another attempt. -/
theorem call_cancelled_in_pause : ∃ s s' t u,
    Reaches eager (Spares 0) (.start eager 1) s ∧ step? eager s (.cancel 0) = some s' ∧
      Reaches eager (Prompt eager 0) s' t ∧ Reaches eager (Spares 0) s u ∧ s.now = 5 ∧
      attemptTimes (u.trace 0) = [(0, 0), (13, 1)] ∧
      attemptTimes (t.trace 0) = (attemptTimes (u.trace 0)).filter (·.1 < s.now) ∧
      Yields eager 0 (5, .failure .cancelled) t := by
  let failing : Work Outcome := ⟨some 3, .failure (.transport "reset")⟩
  have hmade : Reaches eager (Spares 0) (.start eager 1) _ :=
    .single (a := .call 0 "r" "c" ⟨"p/m", [], none, none, none⟩) ⟨nofun, nofun⟩ rfl
  have htried : Reaches eager (Spares 0) (.start eager 1) _ :=
    hmade.step (a := .poll 0 failing 0) ⟨nofun, nofun⟩ rfl
  have hdone : Reaches eager (Spares 0) (.start eager 1) _ :=
    htried.step (a := .tick 3) ⟨nofun, nofun⟩ rfl
  have hfailed : Reaches eager (Spares 0) (.start eager 1) _ :=
    hdone.step (a := .poll 0 failing 0) ⟨nofun, nofun⟩ rfl
  have h : Reaches eager (Spares 0) (.start eager 1) _ :=
    hfailed.step (a := .tick 5) ⟨nofun, nofun⟩ rfl
  obtain ⟨s, s', t, u, c, h, hs, ht, hu, hc, hmade, hnow, htimes, apart, hret⟩ :
      ∃ s s' t u c, Reaches eager (Spares 0) (.start eager 1) s ∧
        step? eager s (.cancel 0) = some s' ∧ Reaches eager (Prompt eager 0) s' t ∧
        Reaches eager (Spares 0) s u ∧ s.calls[0]? = some c ∧ c.phase ≠ .unmade ∧ s.now = 5 ∧
        attemptTimes (u.trace 0) = [(0, 0), (13, 1)] ∧ (∀ x ∈ u.trace 0, x.1 ≠ 5) ∧
        returned? (u.trace 0) = none :=
    ⟨_, _, _, _, _, h, rfl, .single (a := .poll 0 failing 0) trivial rfl,
      .step (a := .poll 0 failing 0) (.single (a := .tick 13) ⟨nofun, nofun⟩ rfl)
        ⟨nofun, nofun⟩ rfl, rfl, nofun, rfl, rfl, by decide, rfl⟩
  obtain ⟨hattempts, -, hyields⟩ := cancelled_call_returns h hc hu (hnow ▸ apart) hs ht
  obtain ⟨r, -, hr, hquick, -⟩ := (hyields (by rw [hret]; nofun)).1 hmade
  rw [hquick (by simp [eager]), hnow] at hr
  exact ⟨s, s', t, u, h, hs, ht, hu, hnow, htimes, hattempts, hr⟩

/-- A client with a hook that takes a while. -/
def audited : Setup :=
  { registry := ⟨[("p", ())]⟩, options := { jitter := false }, hooks := [100] }

/-- A cancelled call returns only when the hook has been told, and a call whose end the hook is
being told of returns its response. -/
theorem cancelled_call_waits_for_hooks :
    (∃ s s' t, Reaches audited (Spares 0) (.start audited 1) s ∧ (∀ x ∈ s.trace 0, x.1 ≠ s.now) ∧
      returned? (s.trace 0) = none ∧ step? audited s (.cancel 0) = some s' ∧
      Reaches audited (Prompt audited 0) s' t ∧ s.now = 250 ∧
      returned? (t.trace 0) = some (350, .failure .cancelled)) ∧
    ∃ s s' t r, Reaches audited (Spares 0) (.start audited 1) s ∧
      (∀ x ∈ s.trace 0, x.1 ≠ s.now) ∧ returned? (s.trace 0) = none ∧
      step? audited s (.cancel 0) = some s' ∧ Reaches audited (Prompt audited 0) s' t ∧
      s.now = 150 ∧ returned? (t.trace 0) = some (200, .response r) := by
  let hanging : Work Outcome := ⟨none, .failure .cancelled⟩
  let replying : Work Outcome := ⟨some 100, .response ⟨.blank, .ofText .assistant "hi", none⟩⟩
  have hmade : Reaches audited (Spares 0) (.start audited 1) _ :=
    .single (a := .call 0 "r" "c" ⟨"p/m", [], none, none, none⟩) ⟨nofun, nofun⟩ rfl
  have htold : Reaches audited (Spares 0) (.start audited 1) _ :=
    hmade.step (a := .tick 100) ⟨nofun, nofun⟩ rfl
  have hqueued : Reaches audited (Spares 0) (.start audited 1) _ :=
    htold.step (a := .poll 0 hanging 0) ⟨nofun, nofun⟩ rfl
  constructor
  · have htried : Reaches audited (Spares 0) (.start audited 1) _ :=
      hqueued.step (a := .poll 0 hanging 0) ⟨nofun, nofun⟩ rfl
    have h : Reaches audited (Spares 0) (.start audited 1) _ :=
      htried.step (a := .tick 250) ⟨nofun, nofun⟩ rfl
    refine ⟨_, _, _, h, by decide, rfl, rfl, .step (a := .poll 0 hanging 0) (.step (a := .tick 350)
      (.single (a := .poll 0 hanging 0) trivial rfl) ?_ rfl) trivial rfl, rfl, rfl⟩
    intro c hc
    cases hc
    exact ⟨fun _ _ _ h => by cases h; decide, nofun⟩
  · have htried : Reaches audited (Spares 0) (.start audited 1) _ :=
      hqueued.step (a := .poll 0 replying 0) ⟨nofun, nofun⟩ rfl
    have hended : Reaches audited (Spares 0) (.start audited 1) _ :=
      htried.step (a := .poll 0 replying 0) ⟨nofun, nofun⟩ rfl
    have h : Reaches audited (Spares 0) (.start audited 1) _ :=
      hended.step (a := .tick 150) ⟨nofun, nofun⟩ rfl
    refine ⟨_, _, _, _, h, by decide, rfl, rfl, .step (a := .poll 0 hanging 0)
      (.single (a := .tick 200) ?_ rfl) trivial rfl, rfl, rfl⟩
    intro c hc
    cases hc
    exact ⟨fun _ _ _ h => by cases h; decide, nofun⟩

end Switchboard.Client
