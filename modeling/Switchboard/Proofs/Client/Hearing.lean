import Switchboard.Proofs.Client.Admission
import Switchboard.Proofs.Client.Settlement

/-!
# Verdicts that hooks miss

Hooks are told one after the other, and one that takes time makes the others wait. A caller can drop
its call in the meantime. While the start is being told nobody answers for the call yet, and while
the verdict is being told the call counts as decided, so in both cases the hooks that were not told
never are. `Hears` is what a hook has heard in each phase of a call that was not dropped like that,
`Hears.move` carries it over a move, and `hooks_hear_verdict_unless_cut_off` says which hooks hear a
verdict along a run: all but those whose telling was cut off.
-/

namespace Switchboard.Client

open Chat

/-- The notice says how a call was decided. -/
def Notice.isVerdict : Notice → Bool
  | started => false
  | ended | failed _ => true

/-- Hooks are being told, and if the others are left out then hook `k` hears no verdict. -/
def Phase.owes (k : Nat) : Phase → Bool
  | telling .start _ _ => true
  | telling _ next _ => next ≤ k
  | _ => false

/-- The phase of call `i` where its caller drops it. -/
def dropNote (i : Nat) (s : State) (a : Input) (_ : State) : List Phase :=
  match a with
  | .drop j => if j = i then (s.calls[i]?.map (·.phase)).toList else []
  | _ => []

/-- The phases in which call `i` is dropped along a run. -/
def droppedIn (S : Setup) (i : Nat) (s : State) (inputs : List Input) : List Phase :=
  along S (dropNote i) s inputs

/-- Call `i` is dropped while hook `k` is owed a verdict that nobody will tell it. -/
def CutOff (S : Setup) (s : State) (inputs : List Input) (i k : Nat) : Prop :=
  ∃ p ∈ droppedIn S i s inputs, p.owes k

/-! ## What one hook is told -/

/-- What hook `k` has heard of a notice when hook `next` is the next to be told. -/
def toldBefore (next k : Nat) (notice : Notice) : List Notice := if k < next then [notice] else []

section
variable {S : Setup} {now next k n due : Nat} {who : Identity} {why : Telling} {notice : Notice}

theorem toldBefore_of_lt (h : k < next) : toldBefore next k notice = [notice] := if_pos h

theorem toldBefore_of_le (h : next ≤ k) : toldBefore next k notice = [] :=
  if_neg (Nat.not_lt.2 h)

/-- Hooks are told in order, without a gap. -/
theorem tellFrom_told (now : Nat) : ∀ (next : Nat) (hooks : List Nat),
    (tellFrom now next hooks).1 = List.range' next (tellFrom now next hooks).1.length ∧
      match (tellFrom now next hooks).2 with
      | some (n, _) => n = next + (tellFrom now next hooks).1.length
      | none => (tellFrom now next hooks).1.length = hooks.length
  | next, [] => ⟨rfl, rfl⟩
  | next, 0 :: hooks => by
    obtain ⟨htold, hwait⟩ := tellFrom_told now (next + 1) hooks
    rw [tellFrom]
    generalize tellFrom now (next + 1) hooks = r at htold hwait
    obtain ⟨told, wait⟩ := r
    refine ⟨?_, ?_⟩
    · rw [List.length_cons, List.range'_succ, ← htold]
    · cases wait with
      | none => exact congrArg (· + 1) hwait
      | some w =>
        simp only [List.length_cons] at hwait ⊢
        omega
  | next, (d + 1) :: hooks => ⟨rfl, rfl⟩

theorem heard_range (who : Identity) (notice : Notice) (len : Nat) :
    toldBefore next k notice ++
        heard k ((List.range' next len).map fun j => .told j who notice) =
      toldBefore (next + len) k notice := by
  induction len generalizing next with
  | zero => simp
  | succ len ih =>
    have hfirst : toldBefore next k notice ++ heard k [.told next who notice] =
        toldBefore (next + 1) k notice := by
      rcases Nat.lt_trichotomy k next with hlt | rfl | hgt
      · simp [toldBefore_of_lt hlt, toldBefore_of_lt (Nat.lt_succ_of_lt hlt), heard,
          Nat.ne_of_gt hlt]
      · simp [toldBefore, heard]
      · simp [toldBefore_of_le (Nat.le_of_lt hgt), toldBefore_of_le hgt, heard, Nat.ne_of_lt hgt]
    rw [List.range'_succ, List.map_cons, ← List.singleton_append, heard_append,
      ← List.append_assoc, hfirst, ih, Nat.add_assoc, Nat.add_comm 1]

theorem heard_parting (k : Nat) (who : Identity) (why : Telling) :
    heard k (why.parting who) = [] := by
  cases why <;> rfl

/-- A hook is told when it is its turn: what holds of the hooks before a later one while that one is
busy, and of all hooks when all have been told, holds of what telling comes to. -/
theorem tell_heard {P : List Notice → Phase → Prop} (hk : k < S.hooks.length)
    (waits : ∀ n due, P (toldBefore n k (S.shown why.notice)) (.telling why n due))
    (ends : P [S.shown why.notice] why.phaseAfter) :
    P (toldBefore next k (S.shown why.notice) ++ heard k (S.tell now who why next).1)
      (S.tell now who why next).2 := by
  unfold Setup.tell
  obtain ⟨htold, hwait⟩ := tellFrom_told now next (S.hooks.drop next)
  generalize tellFrom now next (S.hooks.drop next) = r at htold hwait
  obtain ⟨told, wait⟩ := r
  dsimp only at htold hwait ⊢
  have hheard : toldBefore next k (S.shown why.notice) ++
      heard k (told.map fun j => .told j who (S.shown why.notice)) =
        toldBefore (next + told.length) k (S.shown why.notice) := by
    rw [htold, List.length_range', heard_range]
  cases wait with
  | some w =>
    dsimp only at hwait ⊢
    rw [hheard, ← hwait]
    exact waits ..
  | none =>
    dsimp only at hwait ⊢
    rw [List.length_drop] at hwait
    rw [heard_append, heard_parting, List.append_nil, hheard, toldBefore_of_lt (by omega)]
    exact ends

end

/-! ## What hooks have heard in a phase -/

/-- What hook `k` has heard in a phase of a call that was not cut off. -/
inductive Hears (S : Setup) (k : Nat) : Phase → List Notice → Prop where
  | unmade : Hears S k .unmade []
  | refused : Hears S k .over []
  | starting {next due : Nat} : Hears S k (.telling .start next due) (toldBefore next k .started)
  | undecided {p : Phase} : p.isOpen → Hears S k p [.started]
  | deciding {why : Telling} {next due : Nat} : why.notice.isVerdict →
      Hears S k (.telling why next due) (.started :: toldBefore next k (S.shown why.notice))
  | decided {p : Phase} {verdict : Notice} : p = .drained ∨ p = .over → verdict.isVerdict →
      Hears S k p [.started, verdict]

/-- What hook `k` has heard in a phase, be the call cut off or not. -/
def HeardBy (S : Setup) (k : Nat) (cut : Prop) (p : Phase) (hs : List Notice) : Prop :=
  cut ∧ p = .over ∧ (hs = [] ∨ hs = [.started]) ∨ ¬ cut ∧ Hears S k p hs

section
variable {S : Setup} {now k : Nat} {c c' : Call} {es : List Event} {a : Input}
  {hs : List Notice} {p : Phase}

theorem isVerdict_shown {notice : Notice} (h : notice.isVerdict = true) :
    (S.shown notice).isVerdict = true := by
  cases notice <;> first | rfl | cases h

theorem Verdict.isVerdict_notice (v : Verdict) : v.notice.isVerdict = true := by
  cases v with
  | given give => cases give <;> rfl
  | letGo => rfl

theorem phaseAfter_decided {why : Telling} (h : why.notice.isVerdict = true) :
    why.phaseAfter = .drained ∨ why.phaseAfter = .over := by
  cases why with
  | start => cases h
  | settle _ give => cases give <;> first | exact .inl rfl | exact .inr rfl
  | abandon => exact .inr rfl

theorem owes_deciding {why : Telling} {next due : Nat} (h : why.notice.isVerdict = true) :
    (Phase.telling why next due).owes k = decide (next ≤ k) := by
  cases why with
  | start => cases h
  | settle | abandon => rfl

theorem Phase.not_owes_of_isOpen (h : p.isOpen = true) : p.owes k = false := by
  cases p <;> first | rfl | cases h

theorem Phase.not_isClosing_of_isOpen (h : p.isOpen = true) : p.isClosing = false := by
  cases p <;> first | rfl | cases h

theorem Hears.of_open (h : Hears S k p hs) (hp : p.isOpen = true) : hs = [.started] := by
  cases h with
  | undecided => rfl
  | decided hp' =>
    rcases hp' with rfl | rfl <;> cases hp
  | _ => cases hp

theorem Hears.of_unmade (h : Hears S k .unmade hs) : hs = [] := by
  cases h with
  | unmade => rfl
  | undecided hp => cases hp
  | decided hp => rcases hp with hp | hp <;> cases hp

theorem Hears.goOn (h : Hears S k c.phase hs) (hopen : c.phase.isOpen = true)
    (hp : p.isOpen = true) (hes : heard k es = []) : Hears S k p (hs ++ heard k es) := by
  rw [h.of_open hopen, hes, List.append_nil]
  exact .undecided hp

/-- The verdict is told from number `next` on. -/
theorem hears_told {why : Telling} (hk : k < S.hooks.length) (h : why.notice.isVerdict = true)
    (who : Identity) (next : Nat) :
    Hears S k (S.tell now who why next).2
      (.started :: toldBefore next k (S.shown why.notice) ++
        heard k (S.tell now who why next).1) :=
  tell_heard (P := fun hs p => Hears S k p (.started :: hs)) hk (fun _ _ => .deciding h)
    (.decided (phaseAfter_decided h) (isVerdict_shown h))

theorem hears_started (hk : k < S.hooks.length) (who : Identity) (next : Nat) :
    Hears S k (S.tell now who .start next).2
      (toldBefore next k .started ++ heard k (S.tell now who .start next).1) :=
  tell_heard (P := fun hs p => Hears S k p hs) hk (fun _ _ => .starting) (.undecided rfl)

/-- A call that is not dropped while a hook is owed its verdict goes on as it should. -/
theorem Hears.move (hk : k < S.hooks.length) (h : Hears S k c.phase hs)
    (hm : Move S now a c es c') (hcut : ∀ i, a = .drop i → c.phase.owes k = false) :
    Hears S k c'.phase (hs ++ heard k es) := by
  cases hm with
  | cancel => simpa using h
  | refuse hp =>
    rw [hp] at h
    rw [h.of_unmade]
    exact .refused
  | make hp =>
    rw [hp] at h
    rw [h.of_unmade]
    exact hears_started hk _ 0
  | tell hp =>
    rw [hp] at h
    cases h with
    | starting => exact hears_started hk _ _
    | deciding hv => exact hears_told hk hv _ _
    | undecided hp => cases hp
    | decided hp => rcases hp with hp | hp <;> cases hp
  | pace hp | backOff hp | pull hp => exact h.goOn (by rw [hp]; rfl) rfl rfl
  | attempt hst => exact h.goOn hst.isOpen rfl rfl
  | commit hp | replay hp | deliver hp => exact h.goOn (by rw [hp]; rfl) rfl rfl
  | @decide _ _ notice give hd =>
    rw [h.of_open hd.isOpen]
    have hv : (Telling.settle notice give).notice.isVerdict = true := by
      rw [Telling.notice, hd.notice_eq.1]
      exact Verdict.isVerdict_notice _
    exact hears_told hk hv _ 0
  | close hp =>
    rw [hp] at h
    cases h with
    | undecided hp => cases hp
    | decided _ hv => exact .decided (.inr rfl) hv
  | @forsake i _ hp =>
    have howed := hcut i rfl
    generalize c.phase = p at h hp howed
    cases h with
    | unmade | refused => cases hp
    | starting => cases howed
    | undecided hopen =>
      rw [Phase.not_isClosing_of_isOpen hopen] at hp
      cases hp
    | deciding hv =>
      -- The hook was told before the caller let go.
      rw [owes_deciding hv] at howed
      rw [toldBefore_of_lt (Nat.lt_of_not_le (of_decide_eq_false howed))]
      exact .decided (.inr rfl) (isVerdict_shown hv)
    | decided _ hv => exact .decided (.inr rfl) hv
  | letGo hp =>
    rw [h.of_open hp]
    exact .deciding rfl

/-- A call that is dropped while a hook is owed its verdict is over. -/
theorem Hears.cut {i : Nat} (h : Hears S k c.phase hs) (hm : Move S now (.drop i) c es c')
    (howed : c.phase.owes k = true) :
    c'.phase = .over ∧ heard k es = [] ∧ (hs = [] ∨ hs = [.started]) := by
  cases hm with
  | letGo hp =>
    rw [Phase.not_owes_of_isOpen hp] at howed
    cases howed
  | forsake =>
    refine ⟨rfl, rfl, ?_⟩
    generalize c.phase = p at h howed
    cases h with
    | unmade | refused => cases howed
    | @starting next =>
      unfold toldBefore
      split
      · exact .inr rfl
      · exact .inl rfl
    | undecided => exact .inr rfl
    | deciding hv =>
      rw [owes_deciding hv] at howed
      rw [toldBefore_of_le (of_decide_eq_true howed)]
      exact .inr rfl
    | decided hp => rcases hp with rfl | rfl <;> cases howed
  | decide hd => cases hd

theorem HeardBy.move {cut : Prop} (hk : k < S.hooks.length) (h : HeardBy S k cut c.phase hs)
    (hm : Move S now a c es c') :
    HeardBy S k (cut ∨ (∃ i, a = .drop i) ∧ c.phase.owes k) c'.phase (hs ++ heard k es) := by
  rcases h with ⟨hcut, hover, hhs⟩ | ⟨hcut, hears⟩
  · obtain ⟨hover', rfl⟩ := hm.of_over hover
    exact .inl ⟨.inl hcut, hover', by simpa using hhs⟩
  · by_cases howed : (∃ i, a = .drop i) ∧ c.phase.owes k
    · obtain ⟨⟨i, rfl⟩, howed⟩ := howed
      obtain ⟨hover, hes, hhs⟩ := hears.cut hm howed
      exact .inl ⟨.inr ⟨⟨i, rfl⟩, howed⟩, hover, by simpa [hes] using hhs⟩
    · refine .inr ⟨not_or.2 ⟨hcut, howed⟩, hears.move hk hm fun i ha => ?_⟩
      simpa using fun h => howed ⟨⟨i, ha⟩, h⟩

end

/-! ## Runs -/

section
variable {S : Setup} {s t m : State} {i k n : Nat} {c : Call} {inputs : List Input} {a : Input}

theorem cutOff_concat (hr : run? S s inputs = some m) (hs : step? S m a = some t) :
    CutOff S s (inputs ++ [a]) i k ↔
      CutOff S s inputs i k ∨ ∃ p ∈ dropNote i m a t, p.owes k := by
  simp only [CutOff, droppedIn, along_concat hr hs, List.mem_append, or_and_right, exists_or]

theorem dropNote_other (h : a.target ≠ some i) : dropNote i m a t = [] := by
  cases a with
  | drop j => exact if_neg fun hj => h (congrArg some hj)
  | _ => rfl

theorem dropNote_same (h : a.target = some i) (hc : m.calls[i]? = some c) :
    (∃ p ∈ dropNote i m a t, p.owes k) ↔ (∃ j, a = .drop j) ∧ c.phase.owes k := by
  cases a with
  | drop j =>
    cases h
    simp [dropNote, hc]
  | _ => simp [dropNote]

theorem heardBy_of_run (hk : k < S.hooks.length) (h : run? S (.start S n) inputs = some s) :
    ∀ c, s.calls[i]? = some c →
      HeardBy S k (CutOff S (.start S n) inputs i k) c.phase (heard k (s.events i)) := by
  refine run_induction (S := S) (s := .start S n)
    (P := fun inputs s => ∀ c, s.calls[i]? = some c →
      HeardBy S k (CutOff S (.start S n) inputs i k) c.phase (heard k (s.events i))) ?_ ?_ h
  · intro c hc
    obtain ⟨-, rfl⟩ := List.mem_replicate.1 (List.mem_of_getElem? hc)
    exact .inr ⟨by simp [CutOff, droppedIn, along], .unmade⟩
  · intro inputs m t a hr ih hs c' hc'
    rw [cutOff_concat hr hs]
    by_cases ha : a.target = some i
    · obtain ⟨c, es, d, hc, hd, hm, ht⟩ := step_move hs ha
      obtain rfl := Option.some.inj (hd.symm.trans hc')
      rw [dropNote_same ha hc, events_append ht, heard_append]
      exact (ih c hc).move hk hm
    · obtain ⟨hcalls, ht⟩ := step_other hs ha
      have he : t.events i = m.events i := by simp only [State.events, ht]
      rw [dropNote_other ha, he]
      simpa using ih c' (hcalls.symm.trans hc')

/-- A hook that was told of the start of a call has heard just one verdict when the call is over,
and the tasks that the call left behind are too, unless the caller dropped the call while hooks were
told of its start, or while they were told of its verdict and it was not yet the turn of this one;
such a hook never hears how the call was decided. -/
theorem hooks_hear_verdict_unless_cut_off (hr : run? S (.start S n) inputs = some s)
    (hc : s.calls[i]? = some c) (hover : c.phase = .over) (hk : k < S.hooks.length)
    (hstart : .started ∈ heard k (s.events i)) :
    (CutOff S (.start S n) inputs i k → heard k (s.events i) = [.started]) ∧
      (¬ CutOff S (.start S n) inputs i k →
        ∃ verdict, verdict.isVerdict ∧ heard k (s.events i) = [.started, verdict]) := by
  have hheard := heardBy_of_run hk hr c hc
  rw [hover] at hheard
  generalize heard k (s.events i) = hs at hstart hheard
  rcases hheard with ⟨hcut, -, rfl | rfl⟩ | ⟨hcut, hears⟩
  · cases hstart
  · exact ⟨fun _ => rfl, fun h => absurd hcut h⟩
  · refine ⟨fun h => absurd h hcut, fun _ => ?_⟩
    cases hears with
    | refused => cases hstart
    | undecided hopen => cases hopen
    | decided _ hv => exact ⟨_, hv, rfl⟩

end

/-! ## Calls that are dropped -/

/-- A client of one provider and two hooks that take time. -/
def slowPair : Setup :=
  { registry := ⟨[("p", ())]⟩, options := { jitter := false }, hooks := [100, 50] }

/-- The call that is dropped. -/
def slowCall : Input := .call 0 "r" "c" ⟨"p/m", [], none, none, none⟩

/-- A poll that starts no attempt. -/
def slowPoll : Input := .poll 0 ⟨none, .failure .cancelled⟩ 0

/-- A call is dropped in its first attempt. -/
def droppedAttempt : List Input :=
  [slowCall, .tick 100, slowPoll, .tick 150, slowPoll, slowPoll, .drop 0, slowPoll, .tick 250,
    slowPoll, .tick 300, slowPoll]

theorem hooks_hear_dropped_attempt : ∃ s c verdict,
    run? slowPair (.start slowPair 1) droppedAttempt = some s ∧ s.calls[0]? = some c ∧
      c.phase = .over ∧ .started ∈ heard 1 (s.events 0) ∧ verdict.isVerdict ∧
      heard 1 (s.events 0) = [.started, verdict] := by
  have hr : ∃ s, run? slowPair (.start slowPair 1) droppedAttempt = some s := ⟨_, rfl⟩
  obtain ⟨s, hr⟩ := hr
  have hc : ∃ c, s.calls[0]? = some c ∧ c.phase = .over := by
    obtain rfl := Option.some.inj hr
    exact ⟨_, rfl, rfl⟩
  have hstart : .started ∈ heard 1 (s.events 0) := by
    obtain rfl := Option.some.inj hr
    decide
  have hcut : ¬ CutOff slowPair (.start slowPair 1) droppedAttempt 0 1 := by
    have hnone : (droppedIn slowPair 0 (.start slowPair 1) droppedAttempt).any (·.owes 1) = false :=
      by decide
    rintro ⟨p, hp, howed⟩
    exact List.any_eq_false.1 hnone p hp howed
  obtain ⟨c, hc, hover⟩ := hc
  obtain ⟨verdict, hv, hheard⟩ :=
    (hooks_hear_verdict_unless_cut_off hr hc hover (by decide) hstart).2 hcut
  exact ⟨s, c, verdict, hr, hc, hover, hstart, hv, hheard⟩

/-- A call is dropped when its provider has answered and the first hook is busy with that. -/
def droppedAtEnd : List Input :=
  [slowCall, .tick 100, slowPoll, .tick 150, slowPoll,
    .poll 0 ⟨some 150, .response ⟨.blank, .ofText .assistant "a", none⟩⟩ 0, slowPoll, .drop 0]

/-- Neither a call that is dropped while the first hook is told of its start nor one that is dropped
while the first hook is told of its end tells a verdict to all hooks that it was started for. -/
theorem dropped_call_leaves_hooks_waiting :
    (∃ s c, run? slowPair (.start slowPair 1) [slowCall, .drop 0] = some s ∧
      s.calls[0]? = some c ∧ c.phase = .over ∧ heard 0 (s.events 0) = [.started]) ∧
    ∃ s c, run? slowPair (.start slowPair 1) droppedAtEnd = some s ∧
      s.calls[0]? = some c ∧ c.phase = .over ∧ heard 0 (s.events 0) = [.started, .ended] ∧
      heard 1 (s.events 0) = [.started] :=
  ⟨⟨_, _, rfl, rfl, rfl, rfl⟩, _, _, rfl, rfl, rfl, rfl, rfl⟩

end Switchboard.Client
