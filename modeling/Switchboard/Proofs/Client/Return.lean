import Switchboard.Proofs.Client.Schedule

/-!
# When a call returns

A call returns when its caller is handed something first (`returned?`). If hooks are told before
that, it takes the time that they do (`Setup.toldAt`). What has happened before an instant can be
read off at any later one (`Reaches.attemptTimes_before`, `Reaches.returned?_before`).
-/

namespace Switchboard.Client

open Chat

/-! ## Returns -/

/-- When a call returned, and what: the first thing that its caller was handed. -/
def returned? (trace : List (Nat × Event)) : Option (Nat × Handover) :=
  trace.findSome? fun
    | (t, .handed h) => some (t, h)
    | _ => none

section
variable {tr tr' : List (Nat × Event)} {r : Nat × Handover} {now : Nat} {es : List Event}

theorem returned?_append : returned? (tr ++ tr') = (returned? tr).or (returned? tr') :=
  List.findSome?_append

theorem returned?_told (h : ∀ e ∈ es, e.isTold) : returned? (es.map (now, ·)) = none := by
  apply List.findSome?_eq_none_iff.2
  intro x hx
  obtain ⟨e, he, rfl⟩ := List.mem_map.1 hx
  have := h e he
  cases e <;> first | rfl | cases this

theorem mem_of_returned? (h : returned? tr = some r) : (r.1, Event.handed r.2) ∈ tr := by
  obtain ⟨⟨t, e⟩, hx, he⟩ := List.exists_of_findSome?_eq_some h
  cases e with
  | handed => cases he; exact hx
  | _ => cases he

end

/-! ## Telling takes time -/

/-- When all of these hooks have been told if the first one is told at `now`. -/
def toldBy (now : Nat) : List Nat → Nat
  | [] => now
  | 0 :: rest => toldBy now rest
  | d :: rest => toldBy (Duration.later now d) rest

/-- When the hooks from number `next` on have been told, beginning at `now`. -/
def Setup.toldAt (S : Setup) (now next : Nat) : Nat := toldBy now (S.hooks.drop next)

theorem le_toldBy : ∀ (now : Nat) (hooks : List Nat), now ≤ toldBy now hooks
  | _, [] => Nat.le_refl _
  | now, 0 :: hooks => le_toldBy now hooks
  | now, (_ + 1) :: hooks => Nat.le_trans (Duration.le_later now _) (le_toldBy _ hooks)

theorem toldBy_quick : ∀ (now : Nat) (hooks : List Nat), (∀ d ∈ hooks, d = 0) →
    toldBy now hooks = now
  | _, [], _ => rfl
  | now, d :: hooks, h => by
    obtain ⟨rfl, hs⟩ := List.forall_mem_cons.1 h
    exact toldBy_quick now hooks hs

theorem toldAt_quick {S : Setup} (quick : ∀ d ∈ S.hooks, d = 0) (now next : Nat) :
    S.toldAt now next = now :=
  toldBy_quick now _ fun d hd => quick d (List.mem_of_mem_drop hd)

/-- Where telling stops at a hook, the rest of the time is that of the hooks after it. -/
theorem tellFrom_toldBy {now n due : Nat} : ∀ {next : Nat} {hooks told : List Nat},
    tellFrom now next hooks = (told, some (n, due)) →
      now ≤ due ∧ ∃ k, n = next + k ∧ toldBy due (hooks.drop k) = toldBy now hooks
  | _, [], _, h => by cases h
  | next, 0 :: hooks, told, h => by
    rw [tellFrom] at h
    rcases ht : tellFrom now (next + 1) hooks with ⟨told', _ | ⟨n', due'⟩⟩
    · rw [ht] at h
      cases h
    · rw [ht] at h
      cases h
      obtain ⟨hle, k, hk, htold⟩ := tellFrom_toldBy ht
      exact ⟨hle, k + 1, by omega, htold⟩
  | next, (d + 1) :: hooks, _, h => by
    cases h
    exact ⟨Duration.le_later now _, 1, rfl, rfl⟩

theorem tellFrom_toldBy_now {now : Nat} : ∀ {next : Nat} {hooks told : List Nat},
    tellFrom now next hooks = (told, none) → toldBy now hooks = now
  | _, [], _, _ => rfl
  | next, 0 :: hooks, told, h => by
    rw [tellFrom] at h
    rcases ht : tellFrom now (next + 1) hooks with ⟨told', _ | w⟩
    · rw [toldBy]
      exact tellFrom_toldBy_now ht
    · rw [ht] at h
      cases h
  | next, (d + 1) :: hooks, _, h => by cases h

/-- Telling stops at a hook that takes time, from which on it takes as long as it would have, or it
comes to its end at once. -/
theorem tell_told (S : Setup) (now : Nat) (who : Identity) (why : Telling) (next : Nat) :
    ∃ es : List Event, (∀ e ∈ es, e.isTold) ∧
      ((∃ n due, S.tell now who why next = (es, .telling why n due) ∧ next < n ∧
          n ≤ S.hooks.length ∧ now ≤ due ∧ S.toldAt due n = S.toldAt now next) ∨
        S.tell now who why next = (es ++ why.parting who, why.phaseAfter) ∧
          S.toldAt now next = now) := by
  have hnext : ∀ n due, (S.tell now who why next).2 = .telling why n due →
      next < n ∧ n ≤ S.hooks.length := fun n due h => tell_next h
  unfold Setup.tell at hnext ⊢
  match ht : tellFrom now next (S.hooks.drop next) with
  | (told, wait) =>
    rw [ht] at hnext
    have htold : ∀ e ∈ told.map fun k => Event.told k who (S.shown why.notice), e.isTold := by
      intro e he
      obtain ⟨k, -, rfl⟩ := List.mem_map.1 he
      rfl
    cases wait with
    | none => exact ⟨_, htold, .inr ⟨rfl, tellFrom_toldBy_now ht⟩⟩
    | some w =>
      obtain ⟨hlt, hlen⟩ := hnext w.1 w.2 rfl
      obtain ⟨hle, k, hk, hby⟩ := tellFrom_toldBy ht
      refine ⟨_, htold, .inl ⟨w.1, w.2, rfl, hlt, hlen, hle, ?_⟩⟩
      rw [List.drop_drop, ← hk] at hby
      exact hby

/-! ## Before an instant -/

section
variable {S : Setup} {ok : State → Input → Prop} {s t : State} {i m : Nat}

theorem mem_of_attemptTimes {tr : List (Nat × Event)} {x : Nat × Nat} (h : x ∈ attemptTimes tr) :
    ∃ e, (x.1, e) ∈ tr := by
  obtain ⟨⟨now, e⟩, hm, he⟩ := List.mem_filterMap.1 h
  cases e with
  | attempted => cases he; exact ⟨_, hm⟩
  | _ => cases he

/-- A step about a call takes no time. -/
theorem step_now_of_target {a : Input} (h : step? S s a = some t) (ha : a.target = some i) :
    t.now = s.now := by
  rcases step_now h with hnow | ⟨rfl, -⟩
  · exact hnow
  · cases ha

theorem call_of_start {c : Call} (hc : (State.start S m).calls[i]? = some c) : c = .blank := by
  obtain ⟨hi, rfl⟩ := List.getElem?_eq_some_iff.1 hc
  simp only [State.start, List.getElem_replicate]

/-- What a step makes happen happens now. -/
theorem step_trace {a : Input} (i : Nat) (h : step? S s a = some t) :
    s.now ≤ t.now ∧ ∃ es : List Event, t.trace i = s.trace i ++ es.map (s.now, ·) := by
  constructor
  · rcases step_now h with hnow | ⟨-, hnow⟩
    · exact Nat.le_of_eq hnow.symm
    · exact hnow
  · by_cases ha : a.target = some i
    · obtain ⟨-, es, -, -, -, -, htr⟩ := step_move h ha
      exact ⟨es, htr⟩
    · exact ⟨[], by rw [(step_other h ha).2, List.map_nil, List.append_nil]⟩

/-- What happens after a state happens no earlier. -/
theorem Reaches.trace_later (i : Nat) (h : Reaches S ok s t) :
    s.now ≤ t.now ∧ ∃ later, t.trace i = s.trace i ++ later ∧ ∀ x ∈ later, s.now ≤ x.1 := by
  induction h with
  | refl => exact ⟨Nat.le_refl _, [], (List.append_nil _).symm, nofun⟩
  | @step t u a _ _ hs ih =>
    obtain ⟨hle, later, htr, hlater⟩ := ih
    obtain ⟨hnow, es, htr'⟩ := step_trace i hs
    refine ⟨Nat.le_trans hle hnow, later ++ es.map (t.now, ·), ?_, ?_⟩
    · rw [htr', htr, List.append_assoc]
    intro x hx
    rcases List.mem_append.1 hx with hx | hx
    · exact hlater x hx
    · obtain ⟨e, -, rfl⟩ := List.mem_map.1 hx
      exact hle

/-- The attempts before an instant are those that had been made by then. -/
theorem Reaches.attemptTimes_before (h : Reaches S ok s t)
    (hbefore : ∀ x ∈ s.trace i, x.1 < s.now) :
    (attemptTimes (t.trace i)).filter (·.1 < s.now) = attemptTimes (s.trace i) := by
  obtain ⟨-, later, htr, hlater⟩ := h.trace_later i
  have hkept : (attemptTimes (s.trace i)).filter (·.1 < s.now) = attemptTimes (s.trace i) := by
    apply List.filter_eq_self.2
    intro x hx
    obtain ⟨e, he⟩ := mem_of_attemptTimes hx
    simpa using hbefore _ he
  have hgone : (attemptTimes later).filter (·.1 < s.now) = [] := by
    apply List.filter_eq_nil_iff.2
    intro x hx
    obtain ⟨e, he⟩ := mem_of_attemptTimes hx
    simpa using hlater _ he
  rw [htr, attemptTimes_append, List.filter_append, hkept, hgone, List.append_nil]

theorem Reaches.returned?_later {r : Nat × Handover} (h : Reaches S ok s t)
    (hr : returned? (s.trace i) = some r) : returned? (t.trace i) = some r := by
  obtain ⟨later, htr⟩ := h.trace_prefix (i := i)
  rw [← htr, returned?_append, hr, Option.some_or]

/-- A call that returned before an instant had returned by then. -/
theorem Reaches.returned?_before {r : Nat × Handover} (h : Reaches S ok s t)
    (hr : returned? (t.trace i) = some r) (hlt : r.1 < s.now) :
    returned? (s.trace i) = some r := by
  obtain ⟨-, later, htr, hlater⟩ := h.trace_later i
  rw [htr, returned?_append, Option.or_eq_some_iff] at hr
  rcases hr with hr | ⟨-, hr⟩
  · exact hr
  · exact absurd hlt (Nat.not_lt.2 (hlater _ (mem_of_returned? hr)))

/-- What has happened did so by now. -/
theorem Reaches.trace_le (i : Nat) (h : Reaches S ok (.start S m) s) :
    ∀ x ∈ s.trace i, x.1 ≤ s.now := by
  induction h with
  | refl => nofun
  | @step t u a _ _ hs ih =>
    obtain ⟨hnow, es, htr⟩ := step_trace i hs
    intro x hx
    rw [htr] at hx
    rcases List.mem_append.1 hx with hx | hx
    · exact Nat.le_trans (ih x hx) hnow
    · obtain ⟨e, -, rfl⟩ := List.mem_map.1 hx
      exact hnow

end

end Switchboard.Client
