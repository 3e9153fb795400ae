import Switchboard.Proofs.Client.Steps

/-!
# Runs of which something is assumed

`Reaches S ok s t`: inputs that are `ok` in the states that they meet lead from `s` to `t`. What a
provider answers, and how the clock goes, is assumed in this way. Hooks that take time do not keep a
call from going on: where its hooks are being told, all of them can be (`reaches_told`).
-/

namespace Switchboard.Client

open Chat

inductive Reaches (S : Setup) (ok : State → Input → Prop) (s : State) : State → Prop where
  | refl : Reaches S ok s s
  | step {t u : State} {a : Input} : Reaches S ok s t → ok t a → step? S t a = some u →
      Reaches S ok s u

namespace Reaches

variable {S : Setup} {ok : State → Input → Prop} {s t u : State}

theorem single {a : Input} (ha : ok s a) (h : step? S s a = some t) : Reaches S ok s t :=
  .step .refl ha h

theorem trans (h : Reaches S ok s t) (h' : Reaches S ok t u) : Reaches S ok s u := by
  induction h' with
  | refl => exact h
  | step _ ha hs ih => exact .step ih ha hs

theorem keeps {P : State → Prop} (h : Reaches S ok s t) (hs : P s)
    (step : ∀ {t u : State} {a : Input}, P t → ok t a → step? S t a = some u → P u) : P t := by
  induction h with
  | refl => exact hs
  | step _ ha hu ih => exact step ih ha hu

theorem fresh {n i : Nat} (h : Reaches S ok (.start S n) s) : Fresh s i :=
  h.keeps (P := (Fresh · i)) (fresh_start S n i) fun hf _ hs => hf.step hs

theorem call {i : Nat} {c : Call} (h : Reaches S ok s t) (hc : s.calls[i]? = some c) :
    ∃ d, t.calls[i]? = some d :=
  h.keeps (P := fun s => ∃ d, s.calls[i]? = some d) ⟨c, hc⟩ fun ⟨_, hd⟩ _ hs =>
    have ⟨_, d', hd', _⟩ := step_call hs hd
    ⟨d', hd'⟩

/-- What has happened stays. -/
theorem trace_prefix {i : Nat} (h : Reaches S ok s t) : s.trace i <+: t.trace i := by
  induction h with
  | refl => exact List.prefix_rfl
  | @step t u a _ _ hs ih =>
    refine ih.trans ?_
    by_cases ha : a.target = some i
    · obtain ⟨-, es, -, -, -, -, ht⟩ := step_move hs ha
      rw [ht]
      exact List.prefix_append ..
    · exact ⟨[], by rw [List.append_nil, (step_other hs ha).2]⟩

end Reaches

/-! ## Hooks that take time -/

theorem tellFrom_next {now : Nat} : ∀ {next : Nat} {hooks told : List Nat} {n due : Nat},
    tellFrom now next hooks = (told, some (n, due)) → next < n ∧ n ≤ next + hooks.length
  | next, [], _, _, _, h => by cases h
  | next, 0 :: hooks, told, n, due, h => by
    rw [tellFrom] at h
    match ht : tellFrom now (next + 1) hooks with
    | (told', none) => rw [ht] at h; cases h
    | (told', some (n', due')) =>
      rw [ht] at h
      cases h
      have := tellFrom_next ht
      simp only [List.length_cons]
      omega
  | next, (d + 1) :: hooks, _, _, _, h => by
    cases h
    simp only [List.length_cons]
    omega

/-- Every wait for a hook is a wait for a later one. -/
theorem tell_next {S : Setup} {now next n due : Nat} {who : Identity} {why why' : Telling}
    (h : (S.tell now who why next).2 = .telling why' n due) : next < n ∧ n ≤ S.hooks.length := by
  unfold Setup.tell at h
  match ht : tellFrom now next (S.hooks.drop next) with
  | (told, none) =>
    rw [ht] at h
    exact (phaseAfter_ne_telling _ _ _ _ h).elim
  | (told, some (n', due')) =>
    rw [ht] at h
    cases h
    have := tellFrom_next ht
    rw [List.length_drop] at this
    omega

theorem not_starts {S : Setup} {s : State} {i now n : Nat} {c d : Call}
    (hc : s.calls[i]? = some c) (hp : c.phase.nextAttempt = none) (hd : s.calls[i]? = some d) :
    ¬ Starts S now d n := by
  intro hs
  rw [hc] at hd
  cases hd
  rw [hs.nextAttempt] at hp
  cases hp

/-- Whom a telling puts into the queue for slots when it is over. -/
def Telling.queues (i : Nat) : Telling → List Nat
  | start => [i]
  | _ => []

section
variable {S : Setup} {s : State} {i : Nat} {c : Call} {why : Telling}

theorem record_frame (e : Nat → Event) (ks : List Nat) :
    (ks.foldl (fun s k => s.record i (e k)) s).free = s.free ∧
      (ks.foldl (fun s k => s.record i (e k)) s).waiting = s.waiting := by
  induction ks generalizing s with
  | nil => exact ⟨rfl, rfl⟩
  | cons k ks ih => exact ih

theorem conclude_frame (s : State) (i : Nat) (c : Call) (why : Telling) :
    (s.conclude i c why).free = s.free ∧
      (s.conclude i c why).waiting = s.waiting ++ why.queues i := by
  cases why with
  | start => exact ⟨rfl, rfl⟩
  | settle | abandon => exact ⟨rfl, (List.append_nil _).symm⟩

/-- Telling takes no slot, and only a call that is being started is queued by it. -/
theorem inform_frame (S : Setup) (s : State) (i : Nat) (c : Call) (why : Telling) (next : Nat) :
    (s.inform S i c why next).free = s.free ∧
      ((s.inform S i c why next).waiting = s.waiting ∧
          (∃ n due, (S.tell s.now c.identity why next).2 = .telling why n due) ∨
        (s.inform S i c why next).waiting = s.waiting ++ why.queues i ∧
          (S.tell s.now c.identity why next).2 = why.phaseAfter) := by
  unfold State.inform Setup.tell
  obtain ⟨told, wait⟩ := tellFrom s.now next (S.hooks.drop next)
  obtain ⟨hf, hw⟩ := record_frame (s := s) (i := i)
    (fun k => .told k c.identity (S.shown why.notice)) told
  cases wait with
  | some w => exact ⟨hf, .inl ⟨hw, w.1, w.2, rfl⟩⟩
  | none =>
    obtain ⟨hf', hw'⟩ := conclude_frame _ i c why
    exact ⟨hf'.trans hf, .inr ⟨by rw [← hw]; exact hw', rfl⟩⟩

/-- Nothing is assumed of the time that hooks take. -/
structure FreeHooks (ok : State → Input → Prop) (i : Nat) : Prop where
  tick : ∀ {s : State} {c : Call} {why : Telling} {next due : Nat} (later : Nat),
    s.calls[i]? = some c → c.phase = .telling why next due → ok s (.tick later)
  poll : ∀ {s : State} {c : Call} {why : Telling} {next due : Nat} (w : Work Outcome),
    s.calls[i]? = some c → c.phase = .telling why next due → ok s (.poll i w 0)

theorem tick_to (S : Setup) (s : State) (due : Nat) :
    step? S s (.tick (max s.now due)) = some { s with now := max s.now due } :=
  if_pos (Nat.le_max_left ..)

theorem poll_told {next due : Nat} (hc : s.calls[i]? = some c)
    (hp : c.phase = .telling why next due) (hle : due ≤ s.now) (w : Work Outcome) :
    step? S s (.poll i w 0) = some (s.inform S i c why next) := by
  simp [step?, State.poll, hc, hp, hle]

theorem reaches_told {ok : State → Input → Prop} (hok : FreeHooks ok i)
    {next due : Nat} (hc : s.calls[i]? = some c) (hp : c.phase = .telling why next due) :
    ∃ t es, Reaches S ok s t ∧ t.calls[i]? = some { c with phase := why.phaseAfter } ∧
      t.events i = s.events i ++ es ++ why.parting c.identity ∧ (∀ e ∈ es, e.isTold) ∧
      t.free = s.free ∧ t.waiting = s.waiting ++ why.queues i := by
  -- Each wait ends with a poll, after which a later hook is waited for or none.
  induction hm : S.hooks.length - next using Nat.strongRecOn generalizing s c next due with
  | _ m ih =>
    let w : Work Outcome := ⟨none, .failure .cancelled⟩
    let s' : State := { s with now := max s.now due }
    have hpoll : step? S s' (.poll i w 0) = some (s'.inform S i c why next) :=
      poll_told (s := s') hc hp (Nat.le_max_right ..) w
    have hr : Reaches S ok s (s'.inform S i c why next) :=
      .step (.single (hok.tick _ hc hp) (tick_to S s due)) (hok.poll w hc hp) hpoll
    obtain ⟨hfree, hwait⟩ := inform_frame S s' i c why next
    have hdid := (Did.refl (s := s') hc).inform (S := S) c why next
    have he := events_append hdid.trace
    obtain ⟨es, hes, ⟨n, due', htell⟩ | htell⟩ := tell_cases S s'.now c.identity why next
    · obtain ⟨hlt, hle⟩ := tell_next (congrArg Prod.snd htell)
      have hw : (s'.inform S i c why next).waiting = s'.waiting := by
        rcases hwait with ⟨hw, -⟩ | ⟨-, h⟩
        · exact hw
        · rw [htell] at h
          exact (phaseAfter_ne_telling _ _ _ _ h.symm).elim
      rw [htell] at hdid he
      obtain ⟨t, es', ht, hct, het, hes', hft, hwt⟩ := ih (S.hooks.length - n) (by omega)
        (hdid.call hc) rfl rfl
      refine ⟨t, es ++ es', hr.trans ht, hct, ?_, ?_, hft.trans hfree, by rw [hwt, hw]⟩
      · rw [het, he]
        simp [State.events, State.trace, s']
      · intro e he
        rcases List.mem_append.1 he with he | he
        · exact hes e he
        · exact hes' e he
    · have hw : (s'.inform S i c why next).waiting = s'.waiting ++ why.queues i := by
        rcases hwait with ⟨-, n, due', h⟩ | ⟨hw, -⟩
        · rw [htell] at h
          exact (phaseAfter_ne_telling _ _ _ _ h).elim
        · exact hw
      rw [htell] at hdid he
      refine ⟨_, es, hr, hdid.call hc, ?_, hes, hfree, hw⟩
      rw [he]
      simp [State.events, State.trace, s']

/-- A call that is being settled comes to hand over what its caller is owed. -/
theorem reaches_paid {ok : State → Input → Prop} (hok : FreeHooks ok i) {notice : Notice}
    {h : Handover} {next due : Nat} (hc : s.calls[i]? = some c)
    (hp : c.phase = .telling (.settle notice h) next due) :
    ∃ t, Reaches S ok s t ∧ handed (t.events i) = handed (s.events i) ++ [h.stamp c.identity] := by
  obtain ⟨t, es, hr, -, het, hq, -, -⟩ := reaches_told (S := S) hok hc hp
  refine ⟨t, hr, ?_⟩
  rw [het]
  simp [handed_told hq, Telling.parting]

theorem reaches_settled {ok : State → Input → Prop} (hok : FreeHooks ok i) {notice : Notice}
    {h : Handover} {t : State} (hc : s.calls[i]? = some c)
    (hd : Did s i (S.tell s.now c.identity (.settle notice h) 0).1
      { c with phase := (S.tell s.now c.identity (.settle notice h) 0).2 } t) :
    ∃ u, Reaches S ok t u ∧ handed (u.events i) = handed (s.events i) ++ [h.stamp c.identity] := by
  have he := events_append hd.trace
  obtain ⟨told, hq, ⟨n, due, ht⟩ | ht⟩ := tell_cases S s.now c.identity (.settle notice h) 0
  · rw [ht] at hd he
    obtain ⟨u, hr, hu⟩ := reaches_paid (S := S) hok (hd.call hc) rfl
    refine ⟨u, hr, ?_⟩
    rw [hu, he]
    simp [handed_told hq]
  · rw [ht] at he
    refine ⟨t, .refl, ?_⟩
    rw [he]
    simp [handed_told hq, Telling.parting]

end

end Switchboard.Client
