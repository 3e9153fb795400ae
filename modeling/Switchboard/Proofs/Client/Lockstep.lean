import Switchboard.Proofs.Client.Foretold

/-!
# Calls with other answers

Two clients go through the same, but that the attempts of one call come to other answers, of which
those that are errors are the same. They stay alike, the work of a current attempt apart, until an
attempt succeeds in both (`Abreast`). A client notices of a call only what a step does to it, so the
steps of all other calls go on as they did (`step_put`).
-/

namespace Switchboard.Client

open Chat

/-! ## Another call in the place of one -/

/-- Call `i` is `c` instead. -/
def State.put (s : State) (i : Nat) (c : Call) : State := { s with calls := s.calls.set i c }

section
variable {S : Setup} {s s' : State} {i j : Nat} {d : Call}

theorem calls_put (hij : j ≠ i) : (s.put i d).calls[j]? = s.calls[j]? :=
  List.getElem?_set_ne (Ne.symm hij)

theorem calls_put_self {c : Call} (hc : s.calls[i]? = some c) :
    (s.put i d).calls[i]? = some d := by
  obtain ⟨hi, -⟩ := List.getElem?_eq_some_iff.1 hc
  exact List.getElem?_set_self hi

theorem setPhase_put (hij : j ≠ i) (c : Call) (p : Phase) :
    (s.put i d).setPhase j c p = (s.setPhase j c p).put i d := by
  simp [State.setPhase, State.put, List.set_comm _ _ hij]

theorem release_put (c : Call) : (s.put i d).release c = (s.release c).put i d := by
  unfold State.release
  split <;> rfl

theorem hand_put (hij : j ≠ i) (c : Call) (give : Handover) (p : Phase) :
    (s.put i d).hand j c give p = (s.hand j c give p).put i d :=
  @setPhase_put (s.record j _) i j d hij c p

theorem records_put (e : Nat → Event) : ∀ (ks : List Nat) (s : State),
    ks.foldl (fun s k => s.record j (e k)) (s.put i d) =
      (ks.foldl (fun s k => s.record j (e k)) s).put i d
  | [], _ => rfl
  | _ :: ks, s => records_put e ks (s.record j _)

theorem conclude_put (hij : j ≠ i) (c : Call) (why : Telling) :
    (s.put i d).conclude j c why = (s.conclude j c why).put i d := by
  cases why with
  | start => exact setPhase_put (s := { s with waiting := s.waiting ++ [j] }) hij c .queued
  | settle _ give => exact hand_put hij c give _
  | abandon => exact setPhase_put hij c .over

theorem inform_put (hij : j ≠ i) (c : Call) (why : Telling) (next : Nat) :
    (s.put i d).inform S j c why next = (s.inform S j c why next).put i d := by
  have hnow : (s.put i d).now = s.now := rfl
  unfold State.inform
  rw [hnow]
  obtain ⟨told, wait⟩ := tellFrom s.now next (S.hooks.drop next)
  simp only [records_put fun k => .told k c.identity (S.shown why.notice)]
  cases wait with
  | some w => exact setPhase_put hij c _
  | none => exact conclude_put hij c why

theorem settle_put (hij : j ≠ i) (c : Call) (notice : Notice) (give : Handover) :
    (s.put i d).settle S j c notice give = (s.settle S j c notice give).put i d := by
  unfold State.settle
  rw [release_put]
  exact @inform_put S ((s.release c).leave j) i j d hij c _ 0

theorem attempt_put (hij : j ≠ i) (c : Call) (n : Nat) (w : Work Outcome) :
    (s.put i d).attempt S j c n w = (s.attempt S j c n w).put i d :=
  @setPhase_put (s.record j _) i j d hij c _

theorem retry_put (hij : j ≠ i) (c : Call) (n spread : Nat) (e : ChatError) :
    (s.put i d).retry S j c n spread e = (s.retry S j c n spread e).put i d := by
  unfold State.retry
  split
  · exact setPhase_put hij c _
  · exact settle_put hij c _ _

theorem enter_put (hij : j ≠ i) (c : Call) (w : Work Outcome) :
    (s.put i d).enter S j c w = (s.enter S j c w).put i d := by
  unfold State.enter
  split
  · exact attempt_put hij c 0 w
  · exact @setPhase_put { s with turns := s.turns ++ [j] } i j d hij c .pacing

theorem finishAttempt_put (hij : j ≠ i) (c : Call) (n spread : Nat) : ∀ o : Outcome,
    (s.put i d).finishAttempt S j c n spread o = (s.finishAttempt S j c n spread o).put i d
  | .failure e => retry_put hij c n spread e
  | .response _ | .stream none => settle_put hij c _ _
  | .stream (some _) => hand_put hij c _ _

theorem deliver_put (hij : j ≠ i) (c : Call) (x : Delta) :
    (s.put i d).deliver S j c x = (s.deliver S j c x).put i d := by
  unfold State.deliver
  split
  · exact settle_put hij c _ _
  · exact hand_put hij c _ _

theorem finishPull_put (hij : j ≠ i) (c : Call) : ∀ p : Pulled,
    (s.put i d).finishPull S j c p = (s.finishPull S j c p).put i d
  | some (.ok x) => deliver_put hij c x
  | some (.error _) | none => settle_put hij c _ _

theorem map_put_if {p : Prop} [Decidable p] {x y : Option State} {u v : State}
    (hx : u = v.put i d) (hy : x = y.map (·.put i d)) :
    (if p then some u else x) = (if p then some v else y).map (·.put i d) := by
  split
  · rw [hx]
    rfl
  · exact hy

theorem poll_put (hij : j ≠ i) (c : Call) (w : Work Outcome) (spread : Nat) :
    (s.put i d).poll S j c w spread = (s.poll S j c w spread).map (·.put i d) := by
  have hfail : (s.put i d).fail S j c .cancelled = (s.fail S j c .cancelled).put i d :=
    settle_put hij c _ _
  unfold State.poll
  cases c.phase with
  | telling why next due => exact map_put_if (inform_put hij c why next) rfl
  | queued =>
    refine map_put_if hfail (map_put_if ?_ rfl)
    exact @enter_put S { s with waiting := s.waiting.tail, free := s.free - 1 } i j d hij c w
  | pacing =>
    refine map_put_if hfail (map_put_if ?_ rfl)
    exact @attempt_put S { s with
      turns := s.turns.tail
      nextTurn := S.options.minDelay.map (Duration.later s.now) } i j d hij c 0 w
  | attempting n deadline current =>
    refine map_put_if hfail (map_put_if ?_ (map_put_if ?_ rfl))
    · exact finishAttempt_put hij c n spread _
    · exact retry_put hij c n spread _
  | backingOff n due => exact map_put_if hfail (map_put_if (attempt_put hij c _ w) rfl)
  | pulling current =>
    exact map_put_if (settle_put hij c _ _) (map_put_if (finishPull_put hij c _) rfl)
  | _ => rfl

theorem make_put (hij : j ≠ i) (c : Call) (freshRequest freshCorrelation : String) (q : Request) :
    (s.put i d).make S j c freshRequest freshCorrelation q =
      (s.make S j c freshRequest freshCorrelation q).map (·.put i d) := by
  unfold State.make
  cases c.phase with
  | unmade =>
    cases S.registry.route freshRequest freshCorrelation q with
    | error e => exact congrArg some (hand_put hij c _ _)
    | ok r => exact congrArg some (inform_put hij _ _ 0)
  | _ => rfl

theorem pull_put (hij : j ≠ i) (c : Call) (w : Work Pulled) :
    (s.put i d).pull S j c w = (s.pull S j c w).map (·.put i d) := by
  unfold State.pull
  cases c.phase with
  | streaming buffered =>
    cases buffered with
    | some x => exact congrArg some (deliver_put hij c x)
    | none => exact congrArg some (setPhase_put hij c _)
  | drained => exact congrArg some (hand_put hij c _ _)
  | _ => rfl

theorem abandon_put (hij : j ≠ i) (c : Call) :
    (s.put i d).abandon j c = (s.abandon j c).put i d := by
  unfold State.abandon
  rw [release_put]
  exact @setPhase_put ((s.release c).leave j) i j d hij c _

theorem drop_put (hij : j ≠ i) (c : Call) :
    (s.put i d).drop j c = (s.drop j c).map (·.put i d) := by
  have hforsake : ((s.put i d).record j .dropped).setPhase j c .over =
      ((s.record j .dropped).setPhase j c .over).put i d :=
    @setPhase_put (s.record j _) i j d hij c _
  have hletGo : ((s.put i d).record j .dropped).abandon j c =
      ((s.record j .dropped).abandon j c).put i d :=
    @abandon_put (s.record j _) i j d hij c
  unfold State.drop
  cases c.phase with
  | telling why =>
    cases why with
    | start | settle => exact congrArg some hforsake
    | abandon => rfl
  | drained => exact congrArg some hforsake
  | queued | pacing | attempting | backingOff | streaming | pulling => exact congrArg some hletGo
  | _ => rfl

/-- A step that is not about call `i` goes on as it did if `i` is another call. -/
theorem step_put {a : Input} (ha : a.target ≠ some i) (hs : step? S s a = some s') :
    step? S (s.put i d) a = some (s'.put i d) := by
  have other : ∀ (j : Nat) (f f' : Call → Option State), j ≠ i →
      (∀ c, f' c = (f c).map (·.put i d)) → s.calls[j]?.bind f = some s' →
      (s.put i d).calls[j]?.bind f' = some (s'.put i d) := by
    intro j f f' hij hf h
    obtain ⟨c, hc, h⟩ := Option.bind_eq_some_iff.1 h
    rw [calls_put hij, hc, Option.bind_some, hf, h]
    rfl
  cases a with
  | tick later =>
    simp only [step?] at hs ⊢
    split at hs
    · next hle =>
      cases hs
      exact if_pos hle
    · cases hs
  | call j fr fc q =>
    have hij : j ≠ i := fun h => ha (congrArg some h)
    exact other j _ _ hij (fun c => make_put hij c fr fc q) hs
  | cancel j =>
    have hij : j ≠ i := fun h => ha (congrArg some h)
    obtain ⟨c, hc, rfl⟩ := Option.map_eq_some_iff.1 hs
    simp only [step?]
    rw [calls_put hij, hc, Option.map_some]
    simp [State.put, List.set_comm _ _ hij]
  | poll j w spread =>
    have hij : j ≠ i := fun h => ha (congrArg some h)
    exact other j _ _ hij (fun c => poll_put hij c w spread) hs
  | pull j w =>
    have hij : j ≠ i := fun h => ha (congrArg some h)
    exact other j _ _ hij (fun c => pull_put hij c w) hs
  | drop j =>
    have hij : j ≠ i := fun h => ha (congrArg some h)
    exact other j _ _ hij (fun c => drop_put hij c) hs

end

/-! ## The steps of the call -/

section
variable {S : Setup} {s s' : State} {i n : Nat} {c d : Call} {p : Phase}

theorem step_cancel_eq (hc : s.calls[i]? = some c) :
    step? S s (.cancel i) = some (s.put i { c with cancelled := true }) := by
  simp only [step?, hc, Option.map_some, State.put]

theorem setPhase_put_self (p' : Phase) :
    (s.put i d).setPhase i { c with phase := p } p' = s.setPhase i c p' := by
  simp [State.setPhase, State.put]

theorem inform_put_self (why : Telling) (next : Nat) :
    (s.put i d).inform S i { c with phase := p } why next = s.inform S i c why next := by
  have hnow : (s.put i d).now = s.now := rfl
  unfold State.inform
  rw [hnow]
  obtain ⟨told, wait⟩ := tellFrom s.now next (S.hooks.drop next)
  simp only [records_put fun k => .told k c.identity (S.shown why.notice)]
  cases wait with
  | some w => exact setPhase_put_self _
  | none =>
    cases why with
    | start => simp [State.conclude, State.setPhase, State.put]
    | settle _ give => simp [State.conclude, State.hand, State.record, State.setPhase, State.put]
    | abandon => exact setPhase_put_self _

theorem settle_put_self (hp : p.holdsSlot = c.phase.holdsSlot) (notice : Notice)
    (give : Handover) :
    (s.put i d).settle S i { c with phase := p } notice give = s.settle S i c notice give := by
  have hrelease : (s.put i d).release { c with phase := p } = (s.release c).put i d := by
    rw [release_put]
    simp only [State.release, hp]
  unfold State.settle
  rw [hrelease]
  exact @inform_put_self S ((s.release c).leave i) i c d p _ 0

theorem retry_put_self (hp : p.holdsSlot = c.phase.holdsSlot) (spread : Nat) (e : ChatError) :
    (s.put i d).retry S i { c with phase := p } n spread e = s.retry S i c n spread e := by
  unfold State.retry
  split
  · exact setPhase_put_self _
  · exact settle_put_self hp _ _

theorem attempt_put_self (w w' : Work Outcome) :
    (s.attempt S i c n w).put i { c with phase := .attempting n (S.deadline s.now) w' } =
      s.attempt S i c n w' := by
  simp [State.attempt, State.setPhase, State.put, State.record, Setup.deadline]

theorem call_attempt (hc : s.calls[i]? = some c) (w : Work Outcome) :
    (s.attempt S i c n w).calls[i]? =
      some { c with phase := .attempting n (S.deadline s.now) w } :=
  calls_put_self hc

/-- The work that a poll is given matters only for the attempt that it starts. -/
theorem poll_other_work (hc : s.calls[i]? = some c) (hstart : Starts S s.now c n) (spread : Nat) :
    (∃ x, ∀ w, step? S s (.poll i w spread) = x) ∨ ∃ u : State, u.calls = s.calls ∧ u.now = s.now ∧
      ∀ w, step? S s (.poll i w spread) = some (u.attempt S i c n w) := by
  simp only [step?, hc, Option.bind_some, State.poll]
  by_cases hcan : c.cancelled = true
  · left
    cases hstart with
    | admitted hp | paced hp | again hp =>
      exact ⟨some (s.fail S i c .cancelled), fun w => by simp only [hp, if_pos hcan]⟩
  · cases hstart with
    | admitted hp hmin =>
      simp only [hp, if_neg hcan, State.enter, hmin]
      split
      · exact .inr
          ⟨{ s with waiting := s.waiting.tail, free := s.free - 1 }, rfl, rfl, fun _ => rfl⟩
      · exact .inl ⟨none, fun _ => rfl⟩
    | paced hp =>
      simp only [hp, if_neg hcan]
      split
      · exact .inr ⟨{ s with
          turns := s.turns.tail
          nextTurn := S.options.minDelay.map (Duration.later s.now) }, rfl, rfl, fun _ => rfl⟩
      · exact .inl ⟨none, fun _ => rfl⟩
    | again hp hdue =>
      simp only [hp, if_neg hcan, if_pos hdue]
      exact .inr ⟨s, rfl, rfl, fun _ => rfl⟩

end

/-! ## Abreast -/

/-- Calls `i` of two clients have succeeded, after the same had happened to them. -/
def Parted (i : Nat) (s t : State) : Prop :=
  ∃ tr past past' c c', s.calls[i]? = some c ∧ t.calls[i]? = some c' ∧ s.trace i = tr ++ past ∧
    t.trace i = tr ++ past' ∧ Won (past.map (·.2)) c.phase ∧ Won (past'.map (·.2)) c'.phase

/-- Two clients are the same, but that calls `i` may have succeeded or come to do so. -/
inductive Abreast (i : Nat) (s t : State) : Prop where
  | same : s = t → Abreast i s t
  /-- An attempt is under way that does not fail by itself. -/
  | trying {c : Call} {n : Nat} {deadline done : Option Nat} {o o' : Outcome} :
      s.calls[i]? = some c → c.phase = .attempting n deadline ⟨done, o⟩ → o.error? = none →
      o'.error? = none → t = s.put i { c with phase := .attempting n deadline ⟨done, o'⟩ } →
      Abreast i s t
  | parted : Parted i s t → Abreast i s t

section
variable {S : Setup} {T : Trial} {answer answer' : Nat → Outcome} {s s' t : State} {i m n : Nat}
  {c : Call} {a : Input}

theorem eq_failure {o : Outcome} {e : ChatError} (h : o.error? = some e) : o = .failure e := by
  cases o with
  | failure => cases h; rfl
  | _ => cases h

/-- Answers matter only for a poll that starts an attempt. -/
theorem Meets.other_answers (hok : Meets S T answer i s a)
    (h : ∀ w spread, a = .poll i w spread → ∀ c n, s.calls[i]? = some c → ¬ Starts S s.now c n) :
    Meets S T answer' i s a := by
  cases a with
  | poll j w spread =>
    rintro rfl c n hc hst
    exact absurd hst (h w spread rfl c n hc)
  | _ => exact hok

/-- An attempt of both calls begins. Its answers are the same or do not fail. -/
theorem Abreast.poll {w : Work Outcome} {spread : Nat}
    (hfit : ∀ n, (answer n).error? = (answer' n).error?) (hc : s.calls[i]? = some c)
    (hst : Starts S s.now c n) (hok : Meets S T answer i s (.poll i w spread))
    (hs : step? S s (.poll i w spread) = some s') :
    ∃ u, Reaches S (Meets S T answer' i) s u ∧ Abreast i s' u := by
  obtain ⟨rfl, hgate⟩ := hok rfl c n hc hst
  have hok' : Meets S T answer' i s (.poll i (T.work answer' s.now n) spread) := by
    intro _ c' n' hc' hst'
    obtain rfl : c' = c := Option.some.inj (hc'.symm.trans hc)
    obtain rfl : n' = n := Option.some.inj (hst'.nextAttempt.symm.trans hst.nextAttempt)
    exact ⟨rfl, hgate⟩
  obtain ⟨x, hx⟩ | ⟨u, hcalls, hnow, hx⟩ := poll_other_work hc hst spread
  · exact ⟨s', .single hok' ((hx _).trans ((hx _).symm.trans hs)), .same rfl⟩
  rw [hx] at hs
  cases hs
  refine ⟨_, .single hok' (hx _), ?_⟩
  have hfitn := hfit n
  cases he : (answer n).error? with
  | some e =>
    rw [he] at hfitn
    rw [Trial.work, eq_failure he, Trial.work, eq_failure hfitn.symm]
    exact .same rfl
  | none =>
    rw [he] at hfitn
    refine .trying (call_attempt (hcalls ▸ hc) _) rfl he hfitn.symm ?_
    exact (attempt_put_self _ _).symm

/-- An attempt succeeds. -/
theorem won_finishAttempt (spread : Nat) (hc : s.calls[i]? = some c) {o : Outcome}
    (ho : o.error? = none) : ∃ es d, (s.finishAttempt S i c n spread o).calls[i]? = some d ∧
      (s.finishAttempt S i c n spread o).trace i = s.trace i ++ es.map (s.now, ·) ∧
      Won es d.phase := by
  match o with
  | .failure _ => cases ho
  | .response r =>
    have hd := (Did.refl hc).settle (S := S) c .ended (.response r)
    exact ⟨_, _, hd.call hc, hd.trace, Won.settle _ _ rfl⟩
  | .stream none =>
    have hd := (Did.refl hc).settle (S := S) c .ended .stream
    exact ⟨_, _, hd.call hc, hd.trace, Won.settle _ _ rfl⟩
  | .stream (some x) =>
    have hd := (Did.refl hc).hand c .stream (.streaming (some x))
    refine ⟨_, _, hd.call hc, hd.trace, rfl, rfl, fun _ hmem => ?_, .inl ⟨.stream, ?_, rfl⟩⟩
    · cases List.mem_singleton.1 hmem
    · exact List.mem_singleton_self _

theorem parted_finishAttempt {d : Call} (spread : Nat) (hc : s.calls[i]? = some c)
    (hd : t.calls[i]? = some d) (htr : t.trace i = s.trace i) {o o' : Outcome}
    (ho : o.error? = none) (ho' : o'.error? = none) :
    Parted i (s.finishAttempt S i c n spread o) (t.finishAttempt S i d n spread o') := by
  obtain ⟨es, c', hc', hes, hwon⟩ := won_finishAttempt (S := S) (n := n) spread hc ho
  obtain ⟨es', d', hd', hes', hwon'⟩ := won_finishAttempt (S := S) (n := n) spread hd ho'
  refine ⟨s.trace i, _, _, c', d', hc', hd', hes, htr ▸ hes', ?_, ?_⟩
  · simpa [Function.comp_def] using hwon
  · simpa [Function.comp_def] using hwon'

/-- A poll of a call of which an attempt is under way that does not fail by itself. -/
theorem poll_trying {deadline done : Option Nat} {o o' : Outcome} {w : Work Outcome} {spread : Nat}
    (hc : s.calls[i]? = some c) (hp : c.phase = .attempting n deadline ⟨done, o⟩)
    (ho : o.error? = none) (ho' : o'.error? = none)
    (hs : step? S s (.poll i w spread) = some s') :
    ∃ u, step? S (s.put i { c with phase := .attempting n deadline ⟨done, o'⟩ })
      (.poll i w spread) = some u ∧ (s' = u ∨ Parted i s' u) := by
  have hput : (s.put i { c with phase := .attempting n deadline ⟨done, o'⟩ }).calls[i]? = some _ :=
    calls_put_self hc
  have hslot : (Phase.attempting n deadline ⟨done, o'⟩).holdsSlot = c.phase.holdsSlot := by
    rw [hp]
    rfl
  simp only [step?, hc, hput, Option.bind_some, State.poll, hp] at hs ⊢
  split at hs
  · next hcan =>
    cases hs
    rw [if_pos hcan]
    exact ⟨_, rfl, .inl (settle_put_self hslot _ _).symm⟩
  · next hcan =>
    rw [if_neg hcan]
    show ∃ u, (if reached s.now done = true then _ else _) = some u ∧ _
    split at hs
    · next hdone =>
      cases hs
      rw [if_pos hdone]
      exact ⟨_, rfl, .inr (parted_finishAttempt spread hc hput rfl ho ho')⟩
    · next hdone =>
      rw [if_neg hdone]
      show ∃ u, (if reached s.now deadline = true then _ else _) = some u ∧ _
      split at hs
      · next hdue =>
        cases hs
        rw [if_pos hdue]
        exact ⟨_, rfl, .inl (retry_put_self hslot _ _).symm⟩
      · cases hs

/-- The other call is due when this one is. -/
theorem meets_put {d : Call} (hc : s.calls[i]? = some c) (hcan : d.cancelled = c.cancelled)
    (hdue : T.due s.now d.phase = T.due s.now c.phase)
    (hwait : d.phase.isAwaiting = c.phase.isAwaiting) (hnext : d.phase.nextAttempt = none)
    (hok : Meets S T answer i s a) : Meets S T answer' i (s.put i d) a := by
  have hd : (s.put i d).calls[i]? = some d := calls_put_self hc
  cases a with
  | tick later =>
    intro e he
    obtain rfl := Option.some.inj (hd.symm.trans he)
    have := hok c hc
    rwa [← hcan, ← hdue, ← hwait] at this
  | call | pull | drop => exact hok
  | cancel j =>
    rintro rfl
    obtain ⟨hi, hlt⟩ := hok rfl
    refine ⟨hi, fun e due he h => ?_⟩
    obtain rfl := Option.some.inj (hd.symm.trans he)
    exact hlt c due hc (hdue ▸ h)
  | poll j w spread =>
    rintro rfl e n he hst
    obtain rfl := Option.some.inj (hd.symm.trans he)
    rw [hst.nextAttempt] at hnext
    cases hnext

/-- The clients stay abreast while an attempt is under way that does not fail by itself. -/
theorem Abreast.trying_step {deadline done : Option Nat} {o o' : Outcome}
    (hc : s.calls[i]? = some c) (hp : c.phase = .attempting n deadline ⟨done, o⟩)
    (ho : o.error? = none) (ho' : o'.error? = none) (hok : Meets S T answer i s a)
    (hs : step? S s a = some s') :
    ∃ u, Reaches S (Meets S T answer' i)
      (s.put i { c with phase := .attempting n deadline ⟨done, o'⟩ }) u ∧ Abreast i s' u := by
  have hok' : Meets S T answer' i
      (s.put i { c with phase := .attempting n deadline ⟨done, o'⟩ }) a :=
    meets_put hc rfl (by rw [hp]; rfl) (by rw [hp]; rfl) rfl hok
  by_cases ha : a.target = some i
  · cases a with
    | tick => cases ha
    | poll j w spread =>
      cases ha
      obtain ⟨u, hu, h⟩ := poll_trying hc hp ho ho' hs
      exact ⟨u, .single hok' hu, h.elim .same .parted⟩
    | cancel j =>
      cases ha
      rw [step_cancel_eq hc] at hs
      cases hs
      refine ⟨_, .single hok' (step_cancel_eq (calls_put_self hc)), ?_⟩
      refine .trying (calls_put_self (d := { c with cancelled := true }) hc) hp ho ho' ?_
      simp [State.put]
    | call j | pull j =>
      cases ha
      simp [step?, hc, State.make, State.pull, hp] at hs
    | drop j =>
      cases ha
      exact absurd rfl hok
  · exact ⟨_, .single hok' (step_put ha hs), .trying ((step_other hs ha).1.trans hc) hp ho ho' rfl⟩

/-- What happens to a call after it has succeeded does not bring it back. -/
theorem Parted.step (h : Parted i s t) (ha : a ≠ .drop i) (hs : step? S s a = some s') :
    Parted i s' t := by
  obtain ⟨tr, past, past', c, d, hc, hd, htr, htr', hwon, hwon'⟩ := h
  obtain ⟨es, c', hc', hes, ⟨rfl, rfl⟩ | ⟨hi, hm⟩⟩ := step_call hs hc
  · rw [List.map_nil, List.append_nil] at hes
    exact ⟨tr, past, past', c', d, hc', hd, hes.trans htr, htr', hwon, hwon'⟩
  · refine ⟨tr, past ++ es.map (s.now, ·), past', c', d, hc', hd, ?_, htr', ?_, hwon'⟩
    · rw [hes, htr, List.append_assoc]
    · rw [map_snd_append]
      refine hwon.move hm fun j hj => ?_
      subst hj
      cases hi
      exact ha rfl

theorem Abreast.step (hfit : ∀ n, (answer n).error? = (answer' n).error?) (h : Abreast i s t)
    (hok : Meets S T answer i s a) (hs : step? S s a = some s') :
    ∃ u, Reaches S (Meets S T answer' i) t u ∧ Abreast i s' u := by
  cases h with
  | same h =>
    subst h
    by_cases hst : ∃ w spread c n, a = .poll i w spread ∧ s.calls[i]? = some c ∧ Starts S s.now c n
    · obtain ⟨w, spread, c, n, rfl, hc, hst⟩ := hst
      exact Abreast.poll hfit hc hst hok hs
    · refine ⟨s', .single (hok.other_answers ?_) hs, .same rfl⟩
      exact fun w spread ha c n hc h => hst ⟨w, spread, c, n, ha, hc, h⟩
  | trying hc hp ho ho' h =>
    subst h
    exact Abreast.trying_step hc hp ho ho' hok hs
  | parted h =>
    refine ⟨t, .refl, .parted (h.step ?_ hs)⟩
    rintro rfl
    exact hok rfl

/-- However far a client has come, it comes as far with the other answers. -/
theorem Reaches.abreast (hfit : ∀ n, (answer n).error? = (answer' n).error?)
    (h : Reaches S (Meets S T answer i) (.start S m) s) :
    ∃ t, Reaches S (Meets S T answer' i) (.start S m) t ∧ Abreast i s t := by
  induction h with
  | refl => exact ⟨_, .refl, .same rfl⟩
  | step _ hok hs ih =>
    obtain ⟨t, ht, hab⟩ := ih
    obtain ⟨u, hu, hab'⟩ := hab.step hfit hok hs
    exact ⟨u, ht.trans hu, hab'⟩

end

end Switchboard.Client
