import Switchboard.Proofs.Client.Source

/-!
# What was handed over of a stream

`Reading` says for each phase of a call what its caller has been handed: the items of the attempt
with the first delta, from the first one on, and at most what can follow them. Every move keeps it
(`Reading.move`), and in no phase is anything out of order (`Reading.delivered`).
-/

namespace Switchboard.Client

open Chat

section
variable {source : Nat → Source} {who : Identity} {cancelled : Bool} {item : Nat → Pulled}
  {es es' : List Event} {k m : Nat} {rest : List Handover} {h : Handover}

theorem delivered_of_handed (hh : handed es = []) : Delivered source who cancelled es :=
  .inl (by rw [hh]; nofun)

theorem Dry.after (hd : Dry cancelled item k rest) : Rest cancelled item k rest := by
  cases hd with
  | empty => exact .none fun j hj => absurd hj (by omega)
  | ended hg _ _ => exact .none fun j hj => hg j (by omega)
  | cut hc hk hg => exact .cut hc hk hg ⟨[.close], rfl⟩

theorem Owes.delivered (ho : Owes source who cancelled es h) :
    Delivered source who cancelled es := by
  have go : (∃ item k, Committed source who item k [] es ∧ (∀ j < k, goesOn (item j)) ∧
      (give (item k) = h ∧ goesOn (item k) = false ∨
        h = .fault .cancelled ∧ cancelled = true ∧ 0 < k)) →
      Delivered source who cancelled es := by
    rintro ⟨item, k, hc, hg, -⟩
    exact .inr ⟨item, k, [], hc, .none fun j hj => hg j (by omega)⟩
  cases h with
  | response | failure => exact delivered_of_handed ho
  | stream =>
    obtain ⟨n, item, hs, -⟩ := ho
    exact delivered_of_handed hs.handed
  | delta | fault | close => exact go ho

/-- In no phase has anything been handed over out of order. -/
theorem Reading.delivered : ∀ {p : Phase}, Reading source who cancelled es p →
    Delivered source who cancelled es
  | .unmade, h | .telling .start _ _, h | .queued, h | .pacing, h | .backingOff .., h =>
    delivered_of_handed h.handed
  | .attempting .., h => delivered_of_handed h.1.handed
  | .streaming (some _), h => by
    obtain ⟨item, hc, -⟩ := h
    exact .inr ⟨item, 0, [], hc, .none fun j hj => absurd hj (by omega)⟩
  | .streaming none, h | .pulling _, h => by
    obtain ⟨item, k, hc, -, hg⟩ := h
    exact .inr ⟨item, k, [], hc, .none fun j hj => by
      first | exact hg j (by omega) | exact hg.1 j (by omega)⟩
  | .telling (.settle ..) _ _, h => Owes.delivered h
  | .drained, h => by
    obtain ⟨item, k, rest, hc, hd⟩ := h
    exact .inr ⟨item, k, rest, hc, hd.after⟩
  | .telling .abandon _ _, h | .over, h => h

theorem Delivered.quiet (hd : Delivered source who cancelled es) (ha : attempts es' = [])
    (hh : handed es' = []) : Delivered source who cancelled (es ++ es') := by
  rcases hd with hd | ⟨item, k, rest, hc, hr⟩
  · exact .inl (by rwa [handed_append, hh, List.append_nil])
  · exact .inr ⟨item, k, rest, hc.quiet ha hh, hr⟩

theorem Owes.quiet (ho : Owes source who cancelled es h) (ha : attempts es' = [])
    (hh : handed es' = []) : Owes source who cancelled (es ++ es') h := by
  have hnil : handed es = [] → handed (es ++ es') = [] := fun h => by simp [h, hh]
  cases h with
  | response | failure => exact hnil ho
  | stream =>
    obtain ⟨n, item, hs, hi⟩ := ho
    exact ⟨n, item, hs.append ha hh, hi⟩
  | delta | fault | close =>
    obtain ⟨item, k, hc, hg⟩ := ho
    exact ⟨item, k, hc.quiet ha hh, hg⟩

/-- The caller is handed what it is owed. -/
theorem Owes.pay (ho : Owes source who cancelled es h) :
    Reading source who cancelled (es ++ [.handed (h.stamp who)]) h.phaseAfter := by
  cases h with
  | response | failure =>
    exact .inl (by simp [show handed es = [] from ho, Handover.stamp, Handover.isOfStream])
  | stream =>
    obtain ⟨n, item, hs, hsrc, hi⟩ := ho
    exact ⟨item, 0, [], hs.commit hsrc, .empty hi⟩
  | close =>
    obtain ⟨item, k, hc, hg, ⟨hi, -⟩ | ⟨he, -⟩⟩ := ho
    · refine .inr ⟨item, k + 1, [], ?_, .none fun j hj => hg j (by omega)⟩
      rw [← hi]
      exact hc.next
    · cases he
  | delta d =>
    obtain ⟨item, k, hc, hg, ⟨hi, hf⟩ | ⟨he, -⟩⟩ := ho
    · refine ⟨item, k + 1, [], ?_, .ended hg hf (by intro h; rw [h] at hi; cases hi)⟩
      rw [← hi]
      exact hc.next
    · cases he
  | fault e =>
    obtain ⟨item, k, hc, hg, ⟨hi, hf⟩ | ⟨he, hcan, hk⟩⟩ := ho
    · refine ⟨item, k + 1, [], ?_, .ended hg hf (by intro h; rw [h] at hi; cases hi)⟩
      rw [← hi]
      exact hc.next
    · cases he
      exact ⟨item, k, _, hc.more _, .cut hcan hk hg⟩

end

section
variable {S : Setup} {source : Nat → Source} {s : State} {i : Nat} {c c' : Call}
  {es : List Event} {a : Input} {who : Identity} {cancelled : Bool}

/-- Cancelling takes back nothing. -/
theorem Reading.cancel : ∀ {p : Phase}, Reading source who cancelled es p →
    Reading source who true es p
  | .telling (.settle _ h) _ _, hr => by
    cases h with
    | response | failure | stream => exact hr
    | delta | fault | close =>
      obtain ⟨item, k, hc, hg, hi | ⟨he, -, hk⟩⟩ := hr
      · exact ⟨item, k, hc, hg, .inl hi⟩
      · exact ⟨item, k, hc, hg, .inr ⟨he, rfl, hk⟩⟩
  | .drained, hr => by
    obtain ⟨item, k, rest, hc, hd⟩ := hr
    refine ⟨item, k, rest, hc, ?_⟩
    cases hd with
    | empty hi => exact .empty hi
    | ended hg hf hi => exact .ended hg hf hi
    | cut _ hk hg => exact .cut rfl hk hg
  | .telling .abandon _ _, hr | .over, hr => by
    rcases hr with h | ⟨item, k, rest, hc, hd⟩
    · exact .inl h
    · refine .inr ⟨item, k, rest, hc, ?_⟩
      cases hd with
      | none hg => exact .none hg
      | close hg hf hi => exact .close hg hf hi
      | cut _ hk hg hp => exact .cut rfl hk hg hp
  | .unmade, hr | .telling .start _ _, hr | .queued, hr | .pacing, hr | .attempting .., hr
  | .backingOff .., hr | .streaming (some _), hr | .streaming none, hr | .pulling _, hr => hr

/-- Where hooks are told, the caller is handed what it is owed when they all have been. -/
theorem Owes.tell {h : Handover} (ho : Owes source who cancelled es h) (now : Nat)
    (notice : Notice) (next : Nat) :
    Reading source who cancelled (es ++ (S.tell now who (.settle notice h) next).1)
      (S.tell now who (.settle notice h) next).2 := by
  have wait : ∀ told, (∀ e ∈ told, e.isTold) → Owes source who cancelled (es ++ told) h :=
    fun told hq => ho.quiet (attempts_told hq) (handed_told hq)
  apply tell_elim (P := fun told p => Reading source who cancelled (es ++ told) p)
  · intro told n due hq
    exact wait told hq
  · intro told hq
    rw [← List.append_assoc]
    exact (wait told hq).pay

theorem Seeking.tell (hs : Seeking 0 es) (now next : Nat) :
    Reading source who cancelled (es ++ (S.tell now who .start next).1)
      (S.tell now who .start next).2 := by
  have wait : ∀ told, (∀ e ∈ told, e.isTold) → Seeking 0 (es ++ told) :=
    fun told hq => hs.append (attempts_told hq) (handed_told hq)
  apply tell_elim (P := fun told p => Reading source who cancelled (es ++ told) p)
  · intro told n due hq
    exact wait told hq
  · intro told hq
    rw [Telling.parting, List.append_nil]
    exact wait told hq

theorem Delivered.tell (hd : Delivered source who cancelled es) (now next : Nat) :
    Reading source who cancelled (es ++ (S.tell now who .abandon next).1)
      (S.tell now who .abandon next).2 := by
  have wait : ∀ told, (∀ e ∈ told, e.isTold) → Delivered source who cancelled (es ++ told) :=
    fun told hq => hd.quiet (attempts_told hq) (handed_told hq)
  apply tell_elim (P := fun told p => Reading source who cancelled (es ++ told) p)
  · intro told n due hq
    exact wait told hq
  · intro told hq
    rw [Telling.parting, List.append_nil]
    exact wait told hq

/-- An attempt that has come to a stream got it from its provider. -/
theorem opens_of_outcomeBy {now : Nat} {deadline : Option Nat} {w : Work Outcome} {src : Source}
    {first : Option Delta} (hw : w.outcome = src.opening)
    (ho : S.outcomeBy now deadline w = some (.stream first)) :
    ∃ item, src = .opens item ∧ item 0 = first.map .ok := by
  have hopen : src.opening = .stream first := by
    unfold Setup.outcomeBy at ho
    split at ho
    · rw [← hw]; exact Option.some.inj ho
    · split at ho <;> cases ho
  cases src with
  | refuses => cases hopen
  | opens item =>
    refine ⟨item, rfl, ?_⟩
    have hopen : Script.opened (item 0) = .stream first := hopen
    revert hopen
    rcases item 0 with _ | _ | d <;> intro h <;> cases h <;> rfl

/-- A decision owes the caller what the provider answered, or an error that was not in a stream. -/
theorem Reading.decide {now : Nat} {notice : Notice} {h : Handover}
    (hr : Reading source who c.cancelled es c.phase) (hd : Decides S now a c notice h) :
    Owes source who c.cancelled es h := by
  cases hd with
  | quit hp =>
    revert hr hp
    cases c.phase with
    | queued | pacing | backingOff => exact fun hr _ => hr.handed
    | attempting => exact fun hr _ => hr.1.handed
    | _ => nofun
  | giveUp hp | respond hp =>
    rw [hp] at hr
    exact hr.1.handed
  | openEmpty hp _ ho =>
    rw [hp] at hr
    obtain ⟨item, hsrc, hi⟩ := opens_of_outcomeBy hr.2 ho
    exact ⟨_, item, hr.1, hsrc, hi⟩
  | interrupt hp hcan =>
    rw [hp] at hr
    obtain ⟨item, k, hc, hk, hg, -⟩ := hr
    exact ⟨item, k, hc, hg, .inr ⟨rfl, hcan, hk⟩⟩
  | replay hp hf =>
    rw [hp] at hr
    obtain ⟨item, hc, hi⟩ := hr
    refine ⟨item, 0, hc, fun j hj => absurd hj (by omega), .inl ⟨?_, ?_⟩⟩
    · rw [hi]; rfl
    · simp [hi, goesOn, hf]
  | finish hp _ _ hw hf =>
    rw [hp] at hr
    obtain ⟨item, k, hc, -, hg, hi⟩ := hr
    rw [hw] at hi
    exact ⟨item, k, hc, hg, .inl ⟨by rw [← hi]; rfl, by simp [← hi, goesOn, hf]⟩⟩
  | fault hp _ _ hw | close hp _ _ hw =>
    rw [hp] at hr
    obtain ⟨item, k, hc, -, hg, hi⟩ := hr
    rw [hw] at hi
    exact ⟨item, k, hc, hg, .inl ⟨by rw [← hi]; rfl, by rw [← hi]; rfl⟩⟩

theorem Reading.move (hc : s.calls[i]? = some c) (ha : a.target = some i)
    (hf : Feeds S source i s a)
    (hr : Reading source c.identity c.cancelled (s.events i) c.phase)
    (hm : Move S s.now a c es c') :
    Reading source c'.identity c'.cancelled (s.events i ++ es) c'.phase := by
  cases hm with
  | cancel => simpa using hr.cancel
  | refuse hp =>
    rw [hp] at hr
    exact .inl (by simp [hr.handed, Handover.isOfStream])
  | make hp =>
    rw [hp] at hr
    exact Seeking.tell hr _ _
  | @tell _ _ _ _ why _ _ hp =>
    rw [hp] at hr
    cases why with
    | start => exact Seeking.tell hr _ _
    | settle => exact Owes.tell hr _ _ _
    | abandon => exact Delivered.tell hr _ _
  | pace hp =>
    rw [hp] at hr
    rw [List.append_nil]
    exact hr
  | @attempt _ _ w _ n hs =>
    cases ha
    refine ⟨?_, hf rfl c n hc hs⟩
    cases hs with
    | admitted hp | paced hp | again hp =>
      rw [hp] at hr
      exact hr.attempt _
  | backOff hp =>
    rw [hp] at hr
    rw [List.append_nil]
    exact hr.1
  | commit hp _ ho =>
    rw [hp] at hr
    obtain ⟨item, hsrc, hi⟩ := opens_of_outcomeBy hr.2 ho
    exact ⟨item, hr.1.commit hsrc, hi⟩
  | replay hp hfin =>
    rw [hp] at hr
    obtain ⟨item, hcom, hi⟩ := hr
    refine ⟨item, 1, ?_, by omega, fun j hj => ?_⟩
    · have := hcom.next
      rwa [hi] at this
    · obtain rfl : j = 0 := by omega
      simp [hi, goesOn, hfin]
  | pull hp =>
    cases ha
    rw [hp] at hr
    obtain ⟨item, k, hcom, hk, hg⟩ := hr
    obtain ⟨n, hn, hsrc⟩ := hcom.last_attempt
    refine ⟨item, k, by simpa using hcom, hk, hg, ?_⟩
    rw [hf rfl n item hn hsrc, hcom.handed_eq]
    simp [handovers]
  | deliver hp _ _ hw hfin =>
    rw [hp] at hr
    obtain ⟨item, k, hcom, hk, hg, hi⟩ := hr
    rw [hw] at hi
    refine ⟨item, k + 1, ?_, by omega, fun j hj => ?_⟩
    · have := hcom.next
      rwa [← hi] at this
    · rcases Nat.lt_succ_iff_lt_or_eq.1 hj with hj | rfl
      · exact hg j hj
      · simp [← hi, goesOn, hfin]
  | decide hd => exact (hr.decide hd).tell _ _ _
  | close hp =>
    rw [hp] at hr
    obtain ⟨item, k, rest, hcom, hd⟩ := hr
    cases hd with
    | empty hi =>
      refine .inr ⟨item, 1, [], ?_, .none fun j hj => absurd hj (by omega)⟩
      have := hcom.next
      rwa [hi] at this
    | ended hg hfin hi => exact .inr ⟨item, _, _, hcom.more _, .close hg hfin hi⟩
    | cut hcan hk hg => exact .inr ⟨item, k, _, hcom.more _, .cut hcan hk hg ⟨[], rfl⟩⟩
  | forsake | letGo => exact hr.delivered.quiet rfl rfl

theorem Reading.run {n : Nat} (h : Reaches S (Feeds S source i) (.start S n) s)
    (hc : s.calls[i]? = some c) :
    Reading source c.identity c.cancelled (s.events i) c.phase := by
  induction h generalizing c with
  | refl =>
    obtain ⟨hi, rfl⟩ := List.getElem?_eq_some_iff.1 hc
    simp only [State.start, List.getElem_replicate]
    exact ⟨rfl, rfl⟩
  | @step t u a _ ha hs ih =>
    obtain ⟨es, d, hd, ht, hm⟩ := step_call_before hs hc
    rw [events_append ht]
    rcases hm with ⟨rfl, rfl⟩ | ⟨hi, hm⟩
    · rw [List.append_nil]
      exact ih hd
    · exact (ih hd).move hd hi ha hm

end

end Switchboard.Client
