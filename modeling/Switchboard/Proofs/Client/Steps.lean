import Switchboard.Proofs.Client.Move

/-!
# Steps are moves

A step of a client is a move of the call that its input names (`step_move`) and leaves every other
call alone (`step_other`), so what holds of a call along a run is proved over the moves.
-/

namespace Switchboard.Client

open Chat

/-! ## What a step does to its call -/

/-- Since `s` the events `es` happened to call `i`, which is `c` now. -/
structure Did (s : State) (i : Nat) (es : List Event) (c : Call) (t : State) : Prop where
  now : t.now = s.now
  calls : t.calls = s.calls.set i c
  history : t.history = (es.map (Entry.mk s.now i)).reverse ++ s.history

namespace Did

variable {S : Setup} {s t : State} {i : Nat} {es : List Event} {c : Call}

theorem refl (h : s.calls[i]? = some c) : Did s i [] c s := by
  obtain ⟨hi, rfl⟩ := List.getElem?_eq_some_iff.1 h
  exact ⟨rfl, by simp, rfl⟩

theorem record (h : Did s i es c t) (e : Event) : Did s i (es ++ [e]) c (t.record i e) :=
  ⟨h.now, h.calls, by simp [State.record, h.history, h.now]⟩

theorem records (e : Nat → Event) :
    ∀ {es : List Event} {t : State} (ks : List Nat), Did s i es c t →
      Did s i (es ++ ks.map e) c (ks.foldl (fun t k => t.record i (e k)) t)
  | es, t, [], h => by simpa using h
  | es, t, k :: ks, h => by
    have := records e ks (h.record (e k))
    simpa using this

theorem setPhase (h : Did s i es c t) (d : Call) (p : Phase) :
    Did s i es { d with phase := p } (t.setPhase i d p) :=
  ⟨h.now, by simp [State.setPhase, h.calls], h.history⟩

theorem hand (h : Did s i es c t) (d : Call) (give : Handover) (p : Phase) :
    Did s i (es ++ [.handed (give.stamp d.identity)]) { d with phase := p } (t.hand i d give p) :=
  (h.record _).setPhase d p

theorem release (h : Did s i es c t) (d : Call) : Did s i es c (t.release d) := by
  unfold State.release
  split
  · exact ⟨h.now, h.calls, h.history⟩
  · exact h

theorem leave (h : Did s i es c t) : Did s i es c (t.leave i) := ⟨h.now, h.calls, h.history⟩

theorem conclude (h : Did s i es c t) (d : Call) (why : Telling) :
    Did s i (es ++ why.parting d.identity) { d with phase := why.phaseAfter }
      (t.conclude i d why) := by
  cases why with
  | start =>
    rw [Telling.parting, List.append_nil]
    have hw : Did s i es c { t with waiting := t.waiting ++ [i] } := ⟨h.now, h.calls, h.history⟩
    exact hw.setPhase d .queued
  | settle notice give => exact h.hand d give give.phaseAfter
  | abandon =>
    rw [Telling.parting, List.append_nil]
    exact h.setPhase d .over

theorem inform (h : Did s i es c t) (d : Call) (why : Telling) (next : Nat) :
    Did s i (es ++ (S.tell s.now d.identity why next).1)
      { d with phase := (S.tell s.now d.identity why next).2 } (t.inform S i d why next) := by
  have hn := h.now
  unfold State.inform Setup.tell
  rw [hn]
  obtain ⟨told, wait⟩ := tellFrom s.now next (S.hooks.drop next)
  have hr := h.records (fun k => .told k d.identity (S.shown why.notice)) told
  cases wait with
  | none => simpa using hr.conclude d why
  | some w => exact hr.setPhase d _

theorem settle (h : Did s i es c t) (d : Call) (notice : Notice) (give : Handover) :
    Did s i (es ++ (S.tell s.now d.identity (.settle notice give) 0).1)
      { d with phase := (S.tell s.now d.identity (.settle notice give) 0).2 }
      (t.settle S i d notice give) :=
  ((h.release d).leave).inform d _ 0

theorem attempt (h : Did s i es c t) (d : Call) (n : Nat) (w : Work Outcome) :
    Did s i (es ++ [.attempted n d.request])
      { d with phase := .attempting n (S.options.requestTimeout.map (Duration.later s.now)) w }
      (t.attempt S i d n w) := by
  rw [← h.now]
  exact (h.record _).setPhase d _

theorem trace (h : Did s i es c t) : t.trace i = s.trace i ++ es.map (s.now, ·) := by
  have hf : es.filter (fun _ => true) = es := List.filter_eq_self.2 fun _ _ => rfl
  simp [State.trace, h.history, List.filter_map, Function.comp_def, hf]

theorem trace_of_ne (h : Did s i es c t) {j : Nat} (hj : j ≠ i) : t.trace j = s.trace j := by
  have hb : (i == j) = false := by simpa using Ne.symm hj
  simp [State.trace, h.history, List.filter_map, Function.comp_def, hb]

theorem call (h : Did s i es c t) {d : Call} (hd : s.calls[i]? = some d) :
    t.calls[i]? = some c := by
  obtain ⟨hi, -⟩ := List.getElem?_eq_some_iff.1 hd
  rw [h.calls, List.getElem?_set_self hi]

theorem call_of_ne (h : Did s i es c t) {j : Nat} (hj : j ≠ i) : t.calls[j]? = s.calls[j]? := by
  rw [h.calls, List.getElem?_set_ne (Ne.symm hj)]

end Did

section
variable {S : Setup} {s t : State} {i : Nat} {c : Call}

/-- `t` is what a move of call `i` makes of `s`. -/
def Moved (S : Setup) (s : State) (a : Input) (i : Nat) (c : Call) (t : State) : Prop :=
  ∃ es c', Did s i es c' t ∧ Move S s.now a c es c'

theorem moved_settle {s' : State} {a : Input} {notice : Notice} {give : Handover}
    (h : Did s i [] c s') (hd : Decides S s.now a c notice give) :
    Moved S s a i c (s'.settle S i c notice give) :=
  ⟨_, _, h.settle c notice give, .decide hd⟩

theorem moved_attempt {s' : State} {w : Work Outcome} {spread n : Nat} (h : Did s i [] c s')
    (hs : Starts S s.now c n) (hc : c.cancelled = false) :
    Moved S s (.poll i w spread) i c (s'.attempt S i c n w) :=
  ⟨_, _, h.attempt c n w, .attempt hs hc⟩

theorem moved_retry {w w' : Work Outcome} {spread n : Nat} {deadline : Option Nat} {e : ChatError}
    (h : Did s i [] c s) (hp : c.phase = .attempting n deadline w') (hc : c.cancelled = false)
    (ho : S.outcomeBy s.now deadline w' = some (.failure e)) :
    Moved S s (.poll i w spread) i c (s.retry S i c n spread e) := by
  unfold State.retry
  split
  · next hr => exact ⟨_, _, h.setPhase c _, .backOff hp hc ho hr.1 hr.2⟩
  · next hr => exact moved_settle h (.giveUp hp hc ho hr)

theorem moved_finishAttempt {w w' : Work Outcome} {spread n : Nat} {deadline : Option Nat}
    {o : Outcome} (h : Did s i [] c s) (hp : c.phase = .attempting n deadline w')
    (hc : c.cancelled = false) (ho : S.outcomeBy s.now deadline w' = some o) :
    Moved S s (.poll i w spread) i c (s.finishAttempt S i c n spread o) := by
  match o with
  | .failure e => exact moved_retry h hp hc ho
  | .response r => exact moved_settle h (.respond hp hc ho)
  | .stream none => exact moved_settle h (.openEmpty hp hc ho)
  | .stream (some d) => exact ⟨_, _, h.hand c .stream _, .commit hp hc ho⟩

theorem moved_make {freshRequest freshCorrelation : String} {q : Request} (h : Did s i [] c s)
    (hs : s.make S i c freshRequest freshCorrelation q = some t) :
    Moved S s (.call i freshRequest freshCorrelation q) i c t := by
  unfold State.make at hs
  split at hs
  · next hp =>
    split at hs
    · next e hr =>
      cases hs
      exact ⟨_, _, h.hand c (.failure e) .over, .refuse hp hr⟩
    · next p u r hr =>
      cases hs
      exact ⟨_, _, h.inform _ .start 0, .make hp hr⟩
  · cases hs

theorem moved_pull {w : Work Pulled} (h : Did s i [] c s) (hs : s.pull S i c w = some t) :
    Moved S s (.pull i w) i c t := by
  unfold State.pull at hs
  split at hs
  · next d hp =>
    cases hs
    unfold State.deliver
    split
    · next hf => exact moved_settle h (.replay hp hf)
    · next hf => exact ⟨_, _, h.hand c (.delta d) _, .replay hp (by simpa using hf)⟩
  · next hp =>
    cases hs
    exact ⟨_, _, h.setPhase c _, .pull hp⟩
  · next hp =>
    cases hs
    exact ⟨_, _, h.hand c .close .over, .close hp⟩
  · cases hs

theorem moved_finishPull {w : Work Outcome} {w' : Work Pulled} {spread : Nat} (h : Did s i [] c s)
    (hp : c.phase = .pulling w') (hc : c.cancelled = false)
    (hr : reached s.now w'.done = true) :
    Moved S s (.poll i w spread) i c (s.finishPull S i c w'.outcome) := by
  match ho : w'.outcome with
  | some (.ok d) =>
    show Moved S s _ i c (s.deliver S i c d)
    unfold State.deliver
    split
    · next hf => exact moved_settle h (.finish hp hc hr ho hf)
    · next hf =>
      exact ⟨_, _, h.hand c (.delta d) _, .deliver hp hc hr ho (by simpa using hf)⟩
  | some (.error e) => exact moved_settle h (.fault hp hc hr ho)
  | none => exact moved_settle h (.close hp hc hr ho)

/-- A poll of a call that is under way gives it up if it was cancelled. -/
theorem moved_unless {f : Option State} {w : Work Outcome} {spread : Nat} (h : Did s i [] c s)
    (hp : c.phase.isAwaiting = true)
    (hs : (if c.cancelled then some (s.fail S i c .cancelled) else f) = some t)
    (go : c.cancelled = false → f = some t → Moved S s (.poll i w spread) i c t) :
    Moved S s (.poll i w spread) i c t := by
  split at hs
  · next hc =>
    cases hs
    exact moved_settle h (.quit hp hc)
  · next hc => exact go (by simpa using hc) hs

theorem moved_poll {w : Work Outcome} {spread : Nat} (h : Did s i [] c s)
    (hs : s.poll S i c w spread = some t) : Moved S s (.poll i w spread) i c t := by
  have frame : ∀ s' : State, s'.now = s.now → s'.calls = s.calls → s'.history = s.history →
      Did s i [] c s' := fun s' h1 h2 h3 => ⟨h1, h2.trans h.calls, h3⟩
  unfold State.poll at hs
  split at hs
  · next why next due hp =>
    split at hs
    · next hdue =>
      cases hs
      exact ⟨_, _, h.inform c why next, .tell hp hdue⟩
    · cases hs
  · next hp =>
    apply moved_unless h (by rw [hp]; rfl) hs
    intro hc hs
    split at hs
    · cases hs
      unfold State.enter
      split
      · next hm => exact moved_attempt (frame _ rfl rfl rfl) (.admitted hp hm) hc
      · next d hm =>
        refine ⟨_, _, Did.setPhase (c := c) ?_ c .pacing, .pace hp hc (by simp [hm])⟩
        exact frame _ rfl rfl rfl
    · cases hs
  · next hp =>
    apply moved_unless h (by rw [hp]; rfl) hs
    intro hc hs
    split at hs
    · cases hs
      exact moved_attempt (frame _ rfl rfl rfl) (.paced hp) hc
    · cases hs
  · next n deadline current hp =>
    apply moved_unless h (by rw [hp]; rfl) hs
    intro hc hs
    split at hs
    · next hr =>
      cases hs
      exact moved_finishAttempt h hp hc (by simp [Setup.outcomeBy, hr])
    · next hr =>
      split at hs
      · next hd =>
        cases hs
        exact moved_retry h hp hc (by simp [Setup.outcomeBy, hr, hd])
      · cases hs
  · next n due hp =>
    apply moved_unless h (by rw [hp]; rfl) hs
    intro hc hs
    split at hs
    · next hdue =>
      cases hs
      exact moved_attempt h (.again hp hdue) hc
    · cases hs
  · next current hp =>
    split at hs
    · next hc =>
      cases hs
      exact moved_settle h (.interrupt hp hc)
    · next hc =>
      split at hs
      · next hr =>
        cases hs
        exact moved_finishPull h hp (by simpa using hc) hr
      · cases hs
  all_goals cases hs

theorem moved_drop (h : Did s i [] c s) (hs : s.drop i c = some t) : Moved S s (.drop i) i c t := by
  unfold State.drop at hs
  split at hs
  case h_1 | h_2 | h_3 =>
    next hp =>
    cases hs
    exact ⟨_, _, (h.record _).setPhase c .over, .forsake (by rw [hp]; rfl)⟩
  case h_10 | h_11 | h_12 => cases hs
  all_goals
    next hp =>
    cases hs
    exact ⟨_, _, (((h.record _).release c).leave).setPhase c _, .letGo (by rw [hp]; rfl)⟩

theorem events_append {es : List Event} (h : t.trace i = s.trace i ++ es.map (s.now, ·)) :
    t.events i = s.events i ++ es := by
  simp [State.events, h, Function.comp_def]

/-- A step is a move of the call that its input names. -/
theorem step_moved {a : Input} (h : step? S s a = some t) (ha : a.target = some i) :
    ∃ c, s.calls[i]? = some c ∧ Moved S s a i c t := by
  cases a with
  | tick => cases ha
  | call j fr fc q =>
    cases ha
    obtain ⟨c, hc, h⟩ := Option.bind_eq_some_iff.1 h
    exact ⟨c, hc, moved_make (.refl hc) h⟩
  | cancel j =>
    cases ha
    obtain ⟨c, hc, rfl⟩ := Option.map_eq_some_iff.1 h
    exact ⟨c, hc, [], _, ⟨rfl, rfl, rfl⟩, .cancel⟩
  | poll j w spread =>
    cases ha
    obtain ⟨c, hc, h⟩ := Option.bind_eq_some_iff.1 h
    exact ⟨c, hc, moved_poll (.refl hc) h⟩
  | pull j w =>
    cases ha
    obtain ⟨c, hc, h⟩ := Option.bind_eq_some_iff.1 h
    exact ⟨c, hc, moved_pull (.refl hc) h⟩
  | drop j =>
    cases ha
    obtain ⟨c, hc, h⟩ := Option.bind_eq_some_iff.1 h
    exact ⟨c, hc, moved_drop (.refl hc) h⟩

/-- A step moves the call that its input names. -/
theorem step_move {a : Input} (h : step? S s a = some t) (ha : a.target = some i) :
    ∃ c es c', s.calls[i]? = some c ∧ t.calls[i]? = some c' ∧ Move S s.now a c es c' ∧
      t.trace i = s.trace i ++ es.map (s.now, ·) := by
  obtain ⟨c, hc, es, c', hd, hm⟩ := step_moved h ha
  exact ⟨c, es, c', hc, hd.call hc, hm, hd.trace⟩

/-- A step leaves a call alone that its input does not name. -/
theorem step_other {a : Input} (h : step? S s a = some t) (ha : a.target ≠ some i) :
    t.calls[i]? = s.calls[i]? ∧ t.trace i = s.trace i := by
  match hj : a.target with
  | none =>
    cases a with
    | tick later =>
      simp only [step?] at h
      split at h <;> cases h
      exact ⟨rfl, rfl⟩
    | _ => cases hj
  | some j =>
    obtain ⟨c, -, es, c', hd, -⟩ := step_moved h hj
    have hij : i ≠ j := fun e => ha (by rw [hj, e])
    exact ⟨hd.call_of_ne hij, hd.trace_of_ne hij⟩

/-- Only a tick moves the clock. -/
theorem step_now {a : Input} (h : step? S s a = some t) :
    t.now = s.now ∨ a = .tick t.now ∧ s.now ≤ t.now := by
  match hj : a.target with
  | none =>
    cases a with
    | tick later =>
      simp only [step?] at h
      split at h
      · next hle => cases h; exact .inr ⟨rfl, hle⟩
      · cases h
    | _ => cases hj
  | some j =>
    obtain ⟨-, -, es, c', hd, -⟩ := step_moved h hj
    exact .inl hd.now

/-- What a step does to a call, whichever call its input names. -/
theorem step_call {a : Input} {c : Call} (h : step? S s a = some t) (hc : s.calls[i]? = some c) :
    ∃ es c', t.calls[i]? = some c' ∧ t.trace i = s.trace i ++ es.map (s.now, ·) ∧
      (c' = c ∧ es = [] ∨ a.target = some i ∧ Move S s.now a c es c') := by
  by_cases ha : a.target = some i
  · obtain ⟨d, es, c', hd, hc', hm, ht⟩ := step_move h ha
    rw [hc] at hd
    cases hd
    exact ⟨es, c', hc', ht, .inr ⟨ha, hm⟩⟩
  · obtain ⟨h1, h2⟩ := step_other h ha
    exact ⟨[], c, h1.trans hc, by simpa using h2, .inl ⟨rfl, rfl⟩⟩

theorem step_call_before {a : Input} {c' : Call} (h : step? S s a = some t)
    (hc : t.calls[i]? = some c') :
    ∃ es c, s.calls[i]? = some c ∧ t.trace i = s.trace i ++ es.map (s.now, ·) ∧
      (c' = c ∧ es = [] ∨ a.target = some i ∧ Move S s.now a c es c') := by
  by_cases ha : a.target = some i
  · obtain ⟨c, es, d, hd, hc', hm, ht⟩ := step_move h ha
    rw [hc] at hc'
    cases hc'
    exact ⟨es, c, hd, ht, .inr ⟨ha, hm⟩⟩
  · obtain ⟨h1, h2⟩ := step_other h ha
    exact ⟨[], c', h1.symm.trans hc, by simpa using h2, .inl ⟨rfl, rfl⟩⟩

end

/-! ## Runs -/

section
variable {S : Setup} {s t : State}

theorem run_append {as bs : List Input} :
    run? S s (as ++ bs) = some t ↔ ∃ m, run? S s as = some m ∧ run? S m bs = some t := by
  simp [run?, List.foldlM_append, Option.bind_eq_some_iff]

theorem run_cons {a : Input} {as : List Input} :
    run? S s (a :: as) = some t ↔ ∃ m, step? S s a = some m ∧ run? S m as = some t := by
  simp [run?, List.foldlM_cons, Option.bind_eq_some_iff]

/-- What every step keeps, every run keeps. -/
theorem run_keeps {P : State → Prop}
    (step : ∀ {s t : State} {a : Input}, P s → step? S s a = some t → P t) :
    ∀ {as : List Input} {s t : State}, P s → run? S s as = some t → P t
  | [], s, t, h, hr => by cases hr; exact h
  | a :: as, s, t, h, hr => by
    obtain ⟨m, hm, hr⟩ := run_cons.1 hr
    exact run_keeps step (step h hm) hr

/-- Nothing has happened to a call that was not made. -/
def Fresh (s : State) (i : Nat) : Prop :=
  ∀ c, s.calls[i]? = some c → c.phase = .unmade → s.trace i = []

theorem fresh_start (S : Setup) (n i : Nat) : Fresh (.start S n) i := fun _ _ _ => rfl

theorem Fresh.step {i : Nat} {a : Input} (h : Fresh s i) (hs : step? S s a = some t) :
    Fresh t i := by
  intro c' hc' hp
  obtain ⟨es, c, hc, ht, ⟨rfl, rfl⟩ | ⟨-, hm⟩⟩ := step_call_before hs hc'
  · simpa [h c' hc hp] using ht
  · obtain ⟨hcp, rfl⟩ := hm.eq_nil_of_unmade hp
    simpa [h c hc hcp] using ht

end

end Switchboard.Client
