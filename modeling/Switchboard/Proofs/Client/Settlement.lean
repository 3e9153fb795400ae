import Switchboard.Proofs.Client.Steps

/-!
# What hooks hear of a call

Where no hook takes time, every hook hears of a call at most twice: that it started, before anything
else of the call, and how it was decided. A call is decided by what its caller is handed, or by its
caller letting go of it, of which hooks hear from a task of its own. `Story` is the grammar of what
can have happened to a call in each phase, `Story.move` carries it over a move, and
`hooks_hear_start_then_verdict` reads off it what every hook has heard along a run.
-/

namespace Switchboard.Client

open Chat

/-- Every hook is told in turn. -/
def Setup.announce (S : Setup) (who : Identity) (notice : Notice) : List Event :=
  (List.range S.hooks.length).map fun k => .told k who (S.shown notice)

/-- What hook `k` heard, in order. -/
def heard (k : Nat) (es : List Event) : List Notice :=
  es.filterMap fun
    | .told j _ notice => if j = k then some notice else none
    | _ => none

/-! ## Verdicts -/

/-- What decides a call. -/
inductive Verdict where
  | given (give : Handover)
  /-- The caller dropped the call, or the stream that it was handed. -/
  | letGo
  deriving DecidableEq, Repr

/-- A failure is told as the error that the caller is handed, a dropped call as a cancelled one. -/
def Verdict.notice : Verdict → Notice
  | given (.failure e) | given (.fault e) => .failed e
  | given _ => .ended
  | letGo => .failed .cancelled

/-- A call can be decided by handing this over: a delta only if it is the terminal one, a stream
only if it holds nothing. -/
def Handover.isDeciding : Handover → Bool
  | delta d => d.isFinal
  | _ => true

/-- Something that happens to a call before it is decided. -/
def Event.isProgress : Event → Bool
  | attempted .. | handed .stream => true
  | handed (.delta d) => !d.isFinal
  | _ => false

/-- Something after which the call is over: the caller got its response, its error, the terminal
delta or the end of its stream, or it dropped the call. -/
def Event.isLast : Event → Bool
  | handed .stream => false
  | handed (.delta d) => d.isFinal
  | handed _ | dropped => true
  | told .. | attempted .. => false

/-- How far a call has come. -/
inductive Standing where
  | running
  /-- Dropped before it was decided; the task that tells the hooks has not run. -/
  | dropped
  | decided (v : Verdict)
  deriving DecidableEq, Repr

def Standing.notices : Standing → List Notice
  | running | dropped => []
  | decided v => [v.notice]

/-- What can have happened to a call in a phase. -/
inductive Story (S : Setup) (who : Identity) : Standing → Phase → List Event → Prop where
  | running {p : Phase} {progress : List Event} : p.isOpen → (∀ e ∈ progress, e.isProgress) →
      Story S who .running p (S.announce who .started ++ progress)
  | dropped {due : Nat} {progress : List Event} : (∀ e ∈ progress, e.isProgress) →
      Story S who .dropped (.telling .abandon 0 due)
        (S.announce who .started ++ progress ++ [.dropped])
  | letGo {progress : List Event} : (∀ e ∈ progress, e.isProgress) →
      Story S who (.decided .letGo) .over
        (S.announce who .started ++ progress ++ [.dropped] ++ S.announce who Verdict.letGo.notice)
  | given {p : Phase} {progress : List Event} {give : Handover} :
      (∀ e ∈ progress, e.isProgress) → give.isDeciding → p = give.phaseAfter →
      Story S who (.decided (.given give)) p
        (S.announce who .started ++ progress ++ S.announce who (Verdict.given give).notice ++
          [.handed (give.stamp who)])
  /-- After the last item, the caller found the end of its stream or dropped it. -/
  | parted {progress : List Event} {give : Handover} {e : Event} :
      (∀ e ∈ progress, e.isProgress) → give.isDeciding → give.phaseAfter = .drained →
      e = .handed .close ∨ e = .dropped →
      Story S who (.decided (.given give)) .over
        (S.announce who .started ++ progress ++ S.announce who (Verdict.given give).notice ++
          [.handed (give.stamp who)] ++ [e])

/-! ## Hooks that take no time -/

theorem tellFrom_quick (now : Nat) : ∀ (next : Nat) (hooks : List Nat), (∀ d ∈ hooks, d = 0) →
    tellFrom now next hooks = (List.range' next hooks.length, none)
  | next, [], _ => rfl
  | next, d :: hooks, h => by
    obtain ⟨rfl, hs⟩ := List.forall_mem_cons.1 h
    rw [tellFrom, tellFrom_quick now (next + 1) hooks hs]
    rfl

/-- Hooks that take no time are all told in one step. -/
theorem tell_quick {S : Setup} (quick : ∀ d ∈ S.hooks, d = 0) (now : Nat) (who : Identity)
    (why : Telling) (next : Nat) :
    S.tell now who why next =
      ((List.range' next (S.hooks.length - next)).map
          (fun k => .told k who (S.shown why.notice)) ++ why.parting who, why.phaseAfter) := by
  unfold Setup.tell
  rw [tellFrom_quick now next _ fun d hd => quick d (List.mem_of_mem_drop hd), List.length_drop]

theorem tell_all {S : Setup} (quick : ∀ d ∈ S.hooks, d = 0) (now : Nat) (who : Identity)
    (why : Telling) :
    S.tell now who why 0 = (S.announce who why.notice ++ why.parting who, why.phaseAfter) := by
  rw [tell_quick quick, Setup.announce, List.range_eq_range', Nat.sub_zero]

/-! ## The story along a run -/

section
variable {S : Setup} {who : Identity} {now : Nat} {p : Phase} {es es' : List Event}
  {st : Standing} {c c' : Call} {a : Input}

theorem phaseAfter_not_open (give : Handover) : give.phaseAfter.isOpen = false := by
  cases give <;> rfl

theorem Starts.isOpen {n : Nat} (h : Starts S now c n) : c.phase.isOpen = true := by
  cases h <;> simp_all [Phase.isOpen, Phase.isAwaiting]

theorem Decides.isOpen {notice : Notice} {give : Handover} (h : Decides S now a c notice give) :
    c.phase.isOpen = true := by
  cases h with
  | quit hp =>
    revert hp
    cases c.phase <;> simp [Phase.isOpen, Phase.isAwaiting]
  | _ => simp_all [Phase.isOpen, Phase.isAwaiting]

/-- Hooks are told of the error that the caller is handed. -/
theorem Decides.notice_eq {notice : Notice} {give : Handover} (h : Decides S now a c notice give) :
    notice = (Verdict.given give).notice ∧ give.isDeciding = true := by
  cases h <;> simp_all [Verdict.notice, Handover.isDeciding]

theorem Story.progress_of_open (h : Story S who st p es) (hp : p.isOpen = true) :
    ∃ progress, es = S.announce who .started ++ progress ∧ ∀ e ∈ progress, e.isProgress := by
  cases h with
  | running _ hprog => exact ⟨_, rfl, hprog⟩
  | given _ _ hp' => rw [hp', phaseAfter_not_open] at hp; cases hp
  | _ => cases hp

/-- A call that goes on undecided. -/
theorem Story.goOn (h : Story S who st p es) (hp : p.isOpen = true) {p' : Phase}
    (hp' : p'.isOpen = true) (hes : ∀ e ∈ es', e.isProgress) :
    Story S who .running p' (es ++ es') := by
  obtain ⟨progress, rfl, hprog⟩ := h.progress_of_open hp
  rw [List.append_assoc]
  apply Story.running hp'
  intro e he
  rcases List.mem_append.1 he with he | he
  · exact hprog e he
  · exact hes e he

theorem Story.part (h : Story S who st .drained es) {e : Event}
    (he : e = .handed .close ∨ e = .dropped) : ∃ st, Story S who st .over (es ++ [e]) := by
  cases h with
  | running hp => cases hp
  | given hprog hg hp => exact ⟨_, .parted hprog hg hp.symm he⟩

theorem Story.move (quick : ∀ d ∈ S.hooks, d = 0) (h : Story S c.identity st c.phase es)
    (hm : Move S now a c es' c') :
    c'.identity = c.identity ∧ ∃ st, Story S c'.identity st c'.phase (es ++ es') := by
  cases hm with
  | cancel => exact ⟨rfl, st, by simpa using h⟩
  | refuse hp | make hp =>
    rw [hp] at h
    cases h with
    | running hp => cases hp
    | @given _ _ give _ _ hp => cases give <;> cases hp
  | tell hp hdue =>
    rw [hp] at h
    cases h with
    | running hp => cases hp
    | @given _ _ give _ _ hp => cases give <;> cases hp
    | dropped hprog =>
      refine ⟨rfl, .decided .letGo, ?_⟩
      simp only [tell_all quick, Telling.parting, List.append_nil]
      exact .letGo hprog
  | pace hp hc =>
    exact ⟨rfl, _, h.goOn (by rw [hp]; rfl) rfl (by simp)⟩
  | attempt hs hc => exact ⟨rfl, _, h.goOn hs.isOpen rfl (by simp [Event.isProgress])⟩
  | backOff hp => exact ⟨rfl, _, h.goOn (by rw [hp]; rfl) rfl (by simp)⟩
  | commit hp => exact ⟨rfl, _, h.goOn (by rw [hp]; rfl) rfl (by simp [Event.isProgress])⟩
  | replay hp hf =>
    exact ⟨rfl, _, h.goOn (by rw [hp]; rfl) rfl (by simp [Event.isProgress, Delta.stamp, hf])⟩
  | pull hp => exact ⟨rfl, _, h.goOn (by rw [hp]; rfl) rfl (by simp)⟩
  | deliver hp _ _ _ hf =>
    exact ⟨rfl, _, h.goOn (by rw [hp]; rfl) rfl (by simp [Event.isProgress, Delta.stamp, hf])⟩
  | @decide _ _ notice give hd =>
    obtain ⟨progress, rfl, hprog⟩ := h.progress_of_open hd.isOpen
    obtain ⟨rfl, hg⟩ := hd.notice_eq
    refine ⟨rfl, .decided (.given give), ?_⟩
    simp only [tell_all quick, Telling.parting, Telling.notice, Telling.phaseAfter]
    rw [← List.append_assoc]
    exact .given hprog hg rfl
  | close hp =>
    rw [hp] at h
    exact ⟨rfl, h.part (.inl rfl)⟩
  | forsake hp =>
    refine ⟨rfl, ?_⟩
    cases hph : c.phase with
    | drained => exact (hph ▸ h).part (.inr rfl)
    | telling why next due =>
      rw [hph] at h hp
      cases h with
      | running hp => cases hp
      | dropped => cases hp
      | @given _ _ give _ _ hp => cases give <;> cases hp
    | _ => rw [hph] at hp; cases hp
  | letGo hp =>
    obtain ⟨progress, rfl, hprog⟩ := h.progress_of_open hp
    exact ⟨rfl, _, .dropped hprog⟩

/-- The task that tells hooks of a dropped call is there when the call is dropped. -/
theorem Move.abandon_due (quick : ∀ d ∈ S.hooks, d = 0) (hm : Move S now a c es' c')
    {next due : Nat} (hp : c'.phase = .telling .abandon next due) :
    c.phase = .telling .abandon next due ∨ due = now := by
  cases hm with
  | cancel => exact .inl hp
  | make | tell | decide =>
    simp only [tell_quick quick] at hp
    exact (phaseAfter_ne_telling _ _ _ _ hp).elim
  | letGo => cases hp; exact .inr rfl
  | _ => cases hp

end

/-! ## What hooks have heard -/

@[simp]
theorem heard_append (k : Nat) (es es' : List Event) :
    heard k (es ++ es') = heard k es ++ heard k es' := List.filterMap_append

@[simp]
theorem heard_handed (k : Nat) (h : Handover) (es : List Event) :
    heard k (.handed h :: es) = heard k es := rfl

@[simp]
theorem heard_dropped (k : Nat) (es : List Event) : heard k (.dropped :: es) = heard k es := rfl

@[simp]
theorem heard_nil (k : Nat) : heard k [] = [] := rfl

theorem heard_announce (S : Setup) (who : Identity) (notice : Notice) {k : Nat}
    (hk : k < S.hooks.length) : heard k (S.announce who notice) = [S.shown notice] := by
  have key : ∀ m, (List.range m).filterMap
      (fun j => if j = k then some (S.shown notice) else none) =
      if k < m then [S.shown notice] else [] := by
    intro m
    induction m with
    | zero => rfl
    | succ m ih =>
      rw [List.range_succ, List.filterMap_append, ih]
      by_cases h : k < m
      · simp [h, show k < m + 1 by omega, show m ≠ k by omega]
      · by_cases h' : m = k
        · subst h'; simp
        · simp [h, h', show ¬ k < m + 1 by omega]
  simpa [heard, Setup.announce, List.filterMap_map, Function.comp_def, hk] using key S.hooks.length

theorem heard_progress (k : Nat) {es : List Event} (h : ∀ e ∈ es, e.isProgress) :
    heard k es = [] := by
  apply List.filterMap_eq_nil_iff.2
  intro e he
  cases e with
  | told => exact absurd (h _ he) (by simp [Event.isProgress])
  | _ => rfl

section
variable {S : Setup} {who : Identity} {p : Phase} {es : List Event} {st : Standing}

theorem Story.heard_eq (h : Story S who st p es) {k : Nat} (hk : k < S.hooks.length) :
    heard k es = .started :: st.notices.map S.shown := by
  cases h with
  | running _ hprog | dropped hprog | letGo hprog | given hprog =>
    simp [heard_announce S who _ hk, heard_progress k hprog, Standing.notices, Setup.shown]
  | parted hprog _ _ he =>
    rcases he with rfl | rfl <;>
      simp [heard_announce S who _ hk, heard_progress k hprog, Standing.notices, Setup.shown]

/-- What hook `k` has heard of a call by how far the call has come: of a failure it hears the error
that the caller was handed, with what is confidential taken out. -/
structure Told (S : Setup) (k : Nat) (st : Standing) (es : List Event) : Prop where
  waiting : st = .running ∨ st = .dropped → heard k es = [.started]
  ended : ∀ give, st = .decided (.given give) → (∀ e, give ≠ .failure e ∧ give ≠ .fault e) →
    heard k es = [.started, .ended]
  failed : ∀ e, st = .decided (.given (.failure e)) ∨ st = .decided (.given (.fault e)) →
    heard k es = [.started, .failed (S.redact e)]
  letGo : st = .decided .letGo → heard k es = [.started, .failed (S.redact .cancelled)]

theorem Story.told (h : Story S who st p es) {k : Nat} (hk : k < S.hooks.length) :
    Told S k st es where
  waiting hst := by rcases hst with rfl | rfl <;> exact h.heard_eq hk
  ended give hst hne := by
    subst hst
    rw [h.heard_eq hk]
    cases give with
    | failure e => exact absurd rfl (hne e).1
    | fault e => exact absurd rfl (hne e).2
    | _ => rfl
  failed e hst := by rcases hst with rfl | rfl <;> exact h.heard_eq hk
  letGo hst := by subst hst; exact h.heard_eq hk

theorem not_isLast_of_progress {e : Event} (h : e.isProgress) : e.isLast = false := by
  cases e with
  | handed give => cases give <;> simp_all [Event.isProgress, Event.isLast]
  | _ => simp_all [Event.isProgress, Event.isLast]

/-- A call that is over is decided or was dropped. -/
theorem Story.ne_running (h : Story S who st p es) (hl : ∃ e ∈ es, e.isLast) : st ≠ .running := by
  rintro rfl
  obtain ⟨e, he, hl⟩ := hl
  cases h with
  | running _ hprog =>
    rcases List.mem_append.1 he with he | he
    · obtain ⟨k, -, rfl⟩ := List.mem_map.1 he
      cases hl
    · rw [not_isLast_of_progress (hprog e he)] at hl
      cases hl

end

/-! ## Calls of a run -/

/-- Call `i` was made under this identity and `st` is how far it has come. -/
structure Tracked (S : Setup) (who : Identity) (i : Nat) (s : State) (c : Call) (st : Standing) :
    Prop where
  call : s.calls[i]? = some c
  identity : c.identity = who
  story : Story S who st c.phase (s.events i)
  /-- The task that tells hooks of a dropped call can run at once. -/
  due : ∀ next due, c.phase = .telling .abandon next due → due ≤ s.now

section
variable {S : Setup} {who : Identity} {i : Nat} {s t : State} {c : Call} {st : Standing}

theorem Tracked.step (quick : ∀ d ∈ S.hooks, d = 0) (h : Tracked S who i s c st) {a : Input}
    (hs : step? S s a = some t) : ∃ c st, Tracked S who i t c st := by
  obtain ⟨es, c', hc', ht, hm⟩ := step_call hs h.call
  have he := events_append ht
  have hnow : s.now ≤ t.now := by
    rcases step_now hs with h | ⟨-, h⟩
    · exact Nat.le_of_eq h.symm
    · exact h
  rcases hm with ⟨rfl, rfl⟩ | ⟨-, hm⟩
  · refine ⟨c', st, hc', h.identity, ?_, fun n d hp => Nat.le_trans (h.due n d hp) hnow⟩
    simpa [he] using h.story
  · obtain ⟨hid, st', hst⟩ := Story.move quick (h.identity ▸ h.story) hm
    rw [h.identity] at hid
    refine ⟨c', st', hc', hid, by simpa [he, hid] using hst, fun n d hp => ?_⟩
    rcases hm.abandon_due quick hp with hp | rfl
    · exact Nat.le_trans (h.due n d hp) hnow
    · exact hnow

theorem Tracked.run (quick : ∀ d ∈ S.hooks, d = 0) (h : Tracked S who i s c st)
    {as : List Input} (hr : run? S s as = some t) : ∃ c st, Tracked S who i t c st :=
  run_keeps (P := fun s => ∃ c st, Tracked S who i s c st)
    (fun ⟨_, _, h⟩ hs => h.step quick hs) ⟨c, st, h⟩ hr

/-- A call that is made is one whose hooks have heard that it started. -/
theorem tracked_of_made (quick : ∀ d ∈ S.hooks, d = 0) (h : Fresh s i)
    {freshRequest freshCorrelation : String} {q r : Request} {p : String × Unit}
    (hs : step? S s (.call i freshRequest freshCorrelation q) = some t)
    (hq : S.registry.route freshRequest freshCorrelation q = .ok (p, r)) :
    ∃ c st, Tracked S (r.identity p.1) i t c st := by
  obtain ⟨c, es, c', hc, hc', hm, ht⟩ := step_move hs rfl
  have he := events_append ht
  cases hm with
  | refuse _ hr => rw [hq] at hr; cases hr
  | make hp hr =>
    rw [hq] at hr
    cases hr
    have hnil : s.events i = [] := by rw [State.events, h c hc hp]; rfl
    refine ⟨_, .running, hc', rfl, ?_, fun n d hp => ?_⟩
    · rw [he, hnil, tell_all quick]
      exact .running rfl (by simp [Telling.parting])
    · rw [tell_quick quick] at hp
      cases hp
  | decide hd => cases hd

/-- The task that tells hooks of a dropped call tells them all that it was cancelled. -/
theorem Tracked.abandon (quick : ∀ d ∈ S.hooks, d = 0) (h : Tracked S who i s c .dropped)
    (w : Work Outcome) (spread : Nat) :
    ∃ t, step? S s (.poll i w spread) = some t ∧
      t.events i = s.events i ++ S.announce who (.failed .cancelled) := by
  obtain ⟨next, due, hp, rfl⟩ : ∃ next due, c.phase = .telling .abandon next due ∧ next = 0 := by
    have hs := h.story
    generalize c.phase = p, s.events i = es at hs
    cases hs
    exact ⟨_, _, rfl, rfl⟩
  have hs : step? S s (.poll i w spread) = some (s.inform S i c .abandon 0) := by
    simp [step?, State.poll, h.call, hp, h.due _ _ hp]
  refine ⟨_, hs, ?_⟩
  obtain ⟨d, es, c', hd, -, hm, ht⟩ := step_move hs rfl
  rw [h.call] at hd
  cases hd
  rw [events_append ht]
  cases hm with
  | tell hp' =>
    rw [hp] at hp'
    cases hp'
    rw [tell_all quick, h.identity, Telling.parting, List.append_nil]
    rfl
  | decide hd => exact absurd hd.isOpen (by simp [hp, Phase.isOpen, Phase.isAwaiting])
  | attempt hs => exact absurd hs.isOpen (by simp [hp, Phase.isOpen, Phase.isAwaiting])
  | _ => simp_all

/-- Where no hook takes time, every hook has heard of a call that was made that it started, and then
nothing else or one verdict. When the call is over the verdict is there, or the call was dropped and
the task that tells the hooks, which can run at once, has not run. A call fails for its hooks with
the error that its caller was handed, but for what is confidential, and one that was dropped with
that it was cancelled. -/
theorem hooks_hear_start_then_verdict {n : Nat} {inputs : List Input}
    {freshRequest freshCorrelation : String} {q r : Request} {p : String × Unit}
    (quick : ∀ d ∈ S.hooks, d = 0) (hr : run? S (.start S n) inputs = some s)
    (hc : .call i freshRequest freshCorrelation q ∈ inputs)
    (hq : S.registry.route freshRequest freshCorrelation q = .ok (p, r)) :
    ∃ c st, s.calls[i]? = some c ∧ Story S (r.identity p.1) st c.phase (s.events i) ∧
      (∀ k < S.hooks.length, heard k (s.events i) = .started :: st.notices.map S.shown) ∧
      ((∃ e ∈ s.events i, e.isLast) → st ≠ .running) ∧
      (st = .dropped → ∀ w spread, ∃ t, step? S s (.poll i w spread) = some t ∧
        t.events i = s.events i ++ S.announce (r.identity p.1) (.failed .cancelled) ∧
        ∀ k < S.hooks.length,
          heard k (t.events i) = [.started, .failed (S.redact .cancelled)]) ∧
      ∀ k < S.hooks.length, Told S k st (s.events i) := by
  obtain ⟨before, after, rfl⟩ := List.append_of_mem hc
  obtain ⟨m, hbefore, hr⟩ := run_append.1 hr
  obtain ⟨m', hmade, hafter⟩ := run_cons.1 hr
  have hf : Fresh m i := run_keeps (P := (Fresh · i)) Fresh.step (fresh_start S n i) hbefore
  obtain ⟨c, st, h⟩ := tracked_of_made quick hf hmade hq
  obtain ⟨c, st, h⟩ := h.run quick hafter
  refine ⟨c, st, h.call, h.story, fun k hk => h.story.heard_eq hk, h.story.ne_running, ?_,
    fun k hk => h.story.told hk⟩
  rintro rfl w spread
  obtain ⟨t, ht, hevents⟩ := h.abandon quick w spread
  refine ⟨t, ht, hevents, fun k hk => ?_⟩
  rw [hevents, heard_append, h.story.heard_eq hk, heard_announce S _ _ hk]
  rfl

end

/-! ## A dropped stream -/

/-- A client of one provider and two hooks that take no time. -/
def pair : Setup :=
  { registry := ⟨[("p", ())]⟩, options := { jitter := false }, hooks := [0, 0] }

/-- A stream is opened at once and dropped before it is pulled; then the hooks are told. -/
def droppedStream : List Input :=
  [.call 0 "r" "c" ⟨"p/m", [], none, none, none⟩,
    .poll 0 ⟨some 0, .stream (some (.fragment "a"))⟩ 0,
    .poll 0 ⟨none, .failure .cancelled⟩ 0, .drop 0, .poll 0 ⟨none, .failure .cancelled⟩ 0]

theorem hooks_hear_dropped_stream : ∃ s c st,
    run? pair (.start pair 1) droppedStream = some s ∧ s.calls[0]? = some c ∧
      Story pair ⟨"r", "c", "p", "m"⟩ st c.phase (s.events 0) ∧
      (∀ k < 2, heard k (s.events 0) = .started :: st.notices.map pair.shown) ∧ st ≠ .running := by
  have hr : ∃ s, run? pair (.start pair 1) droppedStream = some s := ⟨_, rfl⟩
  obtain ⟨s, hr⟩ := hr
  obtain ⟨c, st, hc, hst, hk, hl, -⟩ := hooks_hear_start_then_verdict (by decide) hr
    (List.mem_cons_self ..) (p := ("p", ())) (r := ⟨"m", [], none, some "r", some "c"⟩) rfl
  refine ⟨s, c, st, hr, hc, hst, hk, hl ⟨.dropped, ?_, rfl⟩⟩
  obtain rfl := Option.some.inj hr
  decide

end Switchboard.Client
