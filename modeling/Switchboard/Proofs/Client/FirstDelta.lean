import Switchboard.Proofs.Client.Lockstep
import Switchboard.Proofs.Client.Source

/-!
# Up to the first delta

A call for a stream goes as a call for a response does until its stream has its first delta, or
turns out to be empty: it makes the same attempts at the same instants, hooks are told the same if
it fails, and its caller is handed the same error (`streams_retry_like_responses`). Both are
instances of one fact on two ways to answer a call of which the errors are the same (`samePolicy`):
what happens is the forecast of either call, and each client can come as far as the other.
-/

namespace Switchboard.Client

open Chat

/-- What a call has come to by now. -/
inductive Fate (S : Setup) (T : Trial) (s : State) (i : Nat) : Prop where
  | underway : s.trace i <+: T.forecast S → handed (s.events i) = [] → ¬ Succeeded s i →
      Fate S T s i
  | failed {e : ChatError} : s.trace i = T.forecast S → handed (s.events i) = [.failure e] →
      ¬ Succeeded s i → Fate S T s i
  | succeeded {past : List (Nat × Event)} : s.trace i = T.forecast S ++ past →
      handed ((T.forecast S).map (·.2)) = [] → attempts (past.map (·.2)) = [] →
      (∀ e, .failure e ∉ handed (past.map (·.2))) → Succeeded s i → Fate S T s i

/-- Calls answered by `answer'` are attempted as often and at the same instants as calls answered by
`answer`, and fail alike. -/
structure SamePolicy (S : Setup) (T : Trial) (answer answer' : Nat → Outcome) (i m : Nat) : Prop
    where
  /-- However far a call comes, it comes as far with the other answers; if it failed, so that
  nothing tells the two apart. -/
  keeps_up : ∀ {s}, Reaches S (Meets S T answer i) (.start S m) s →
    ∃ t, Reaches S (Meets S T answer' i) (.start S m) t ∧
      attemptTimes (t.trace i) = attemptTimes (s.trace i) ∧ (Succeeded s i → Succeeded t i) ∧
      ∀ x e, returned? (s.trace i) = some (x, .failure e) → t = s
  /-- It makes no other attempts with the other answers, and none at another instant. -/
  attempts_alike : ∀ {s t}, Reaches S (Meets S T answer i) (.start S m) s →
    Reaches S (Meets S T answer' i) (.start S m) t →
      attemptTimes (t.trace i) <+: attemptTimes (s.trace i) ∨
        attemptTimes (s.trace i) <+: attemptTimes (t.trace i)
  /-- Where a call failed, it comes to nothing else with the other answers. -/
  fails_alike : ∀ {s t x e}, Reaches S (Meets S T answer i) (.start S m) s →
    Reaches S (Meets S T answer' i) (.start S m) t →
    returned? (s.trace i) = some (x, .failure e) →
      t.trace i <+: s.trace i ∧ (returned? (t.trace i) ≠ none → t.trace i = s.trace i)
  /-- Where a call succeeded, it does so with the other answers, after the same attempts. -/
  succeeds_alike : ∀ {s t}, Reaches S (Meets S T answer i) (.start S m) s →
    Reaches S (Meets S T answer' i) (.start S m) t → Succeeded s i →
    Succeeded t i ∨ returned? (t.trace i) ≠ none →
      Succeeded t i ∧ attemptTimes (t.trace i) = attemptTimes (s.trace i)

section
variable {S : Setup} {T : Trial} {answer answer' : Nat → Outcome} {s t : State} {i m : Nat}
  {c : Call} {tr : List (Nat × Event)}

theorem returned?_map (tr : List (Nat × Event)) :
    (returned? tr).map (·.2) = (handed (tr.map (·.2))).head? := by
  induction tr with
  | nil => rfl
  | cons x tr ih =>
    obtain ⟨t, e⟩ := x
    cases e with
    | handed => rfl
    | _ => exact ih

theorem attemptTimes_map (tr : List (Nat × Event)) :
    (attemptTimes tr).map (·.2) = attempts (tr.map (·.2)) := by
  induction tr with
  | nil => rfl
  | cons x tr ih =>
    obtain ⟨t, e⟩ := x
    cases e with
    | attempted n => exact congrArg (n :: ·) ih
    | _ => exact ih

theorem events_suffix {past : List (Nat × Event)} (h : s.trace i = tr ++ past) :
    past.map (·.2) <:+ s.events i := by
  rw [State.events, h, List.map_append]
  exact List.suffix_append ..

theorem Unanswered.cases {p : Phase} (h : Unanswered tr p) :
    handed (tr.map (·.2)) = [] ∨ p = .over ∧ ∃ e, handed (tr.map (·.2)) = [.failure e] := by
  match p with
  | .unmade | .telling .start _ _ | .telling (.settle _ (.failure _)) _ _ | .queued | .pacing
  | .attempting .. | .backingOff .. => exact .inl h
  | .over => exact .inr ⟨rfl, h⟩

theorem Unanswered.not_succeeded (h : Unanswered (s.trace i) c.phase)
    (hc : s.calls[i]? = some c) : ¬ Succeeded s i := by
  rintro (⟨x, hx, hans⟩ | ⟨d, x, next, due, hd, hp, hans⟩)
  · obtain hh | ⟨-, e, hh⟩ := h.cases
    · rw [State.events, hh] at hx
      cases hx
    · rw [State.events, hh, List.mem_singleton] at hx
      subst hx
      cases hans
  · obtain rfl := Option.some.inj (hc.symm.trans hd)
    rw [hp] at h
    cases x with
    | failure => cases hans
    | _ => exact h

theorem Reaches.fate (hj : S.options.jitter = false) (hi : i < m)
    (hfit : ∀ n, (answer n).error? = T.failure n)
    (h : Reaches S (Meets S T answer i) (.start S m) s) : Fate S T s i := by
  have hblank : (State.start S m).calls[i]? = some .blank := by
    simp [State.start, hi]
  obtain ⟨c, hc⟩ := h.call hblank
  cases h.foretold hj hfit hc with
  | ahead ha =>
    have hnot := ha.unanswered.not_succeeded hc
    obtain hh | ⟨hp, e, hh⟩ := ha.unanswered.cases
    · exact .underway ⟨_, ha.sum⟩ hh hnot
    · have hsum := ha.sum
      rw [hp, Trial.rest, List.append_nil] at hsum
      exact .failed hsum hh hnot
  | won htr hnone hwon =>
    exact .succeeded htr hnone hwon.attempts hwon.errors
      (hwon.succeeded hc (events_suffix htr))

theorem handed_of_returned {x : Nat} {h : Handover} (hr : returned? tr = some (x, h)) :
    (handed (tr.map (·.2))).head? = some h := by
  rw [← returned?_map, hr]
  rfl

theorem returned?_eq_none (h : handed (tr.map (·.2)) = []) : returned? tr = none := by
  have hmap := returned?_map tr
  rw [h] at hmap
  exact Option.map_eq_none_iff.1 hmap

/-- A call that returned an error has done all that is foretold. -/
theorem Fate.of_failure {x : Nat} {e : ChatError} (h : Fate S T s i)
    (hr : returned? (s.trace i) = some (x, .failure e)) :
    s.trace i = T.forecast S ∧ handed (s.events i) = [.failure e] ∧ ¬ Succeeded s i := by
  have hhead := handed_of_returned hr
  cases h with
  | underway _ hh =>
    rw [show handed ((s.trace i).map (·.2)) = [] from hh] at hhead
    cases hhead
  | failed htr hh hnot =>
    rw [show handed ((s.trace i).map (·.2)) = _ from hh] at hhead
    cases hhead
    exact ⟨htr, hh, hnot⟩
  | succeeded htr hnone _ herr =>
    rw [htr, List.map_append, handed_append, hnone, List.nil_append] at hhead
    exact absurd (List.mem_of_mem_head? hhead) (herr e)

theorem Fate.of_succeeded (h : Fate S T s i) (hs : Succeeded s i) :
    handed ((T.forecast S).map (·.2)) = [] ∧
      attemptTimes (s.trace i) = attemptTimes (T.forecast S) := by
  cases h with
  | underway _ _ hnot | failed _ _ hnot => exact absurd hs hnot
  | succeeded htr hnone hatt =>
    rw [← attemptTimes_map, List.map_eq_nil_iff] at hatt
    rw [htr, attemptTimes_append, hatt, List.append_nil]
    exact ⟨hnone, rfl⟩

theorem Fate.attempts (h : Fate S T s i) :
    attemptTimes (s.trace i) <+: attemptTimes (T.forecast S) := by
  cases h with
  | underway hpre => exact hpre.filterMap _
  | failed htr => exact htr ▸ List.prefix_rfl
  | succeeded htr hnone hatt herr hs =>
    exact ((Fate.succeeded htr hnone hatt herr hs).of_succeeded hs).2 ▸ List.prefix_rfl

theorem Abreast.attemptTimes_eq (h : Abreast i s t) :
    attemptTimes (t.trace i) = attemptTimes (s.trace i) := by
  cases h with
  | same h => rw [h]
  | trying _ _ _ _ h => rw [h]; rfl
  | parted h =>
    obtain ⟨tr, past, past', c, d, -, -, htr, htr', hwon, hwon'⟩ := h
    have hatt := hwon.attempts
    have hatt' := hwon'.attempts
    rw [← attemptTimes_map, List.map_eq_nil_iff] at hatt hatt'
    rw [htr, htr', attemptTimes_append, attemptTimes_append, hatt, hatt']

theorem Abreast.succeeded (h : Abreast i s t) (hs : Succeeded s i) : Succeeded t i := by
  cases h with
  | same h => exact h ▸ hs
  | trying hc hp _ _ h =>
    subst h
    obtain hh | ⟨d, x, next, due, hd, hp', -⟩ := hs
    · exact .inl hh
    · obtain rfl := Option.some.inj (hc.symm.trans hd)
      rw [hp] at hp'
      cases hp'
  | parted h =>
    obtain ⟨tr, past, past', c, d, -, hd, -, htr', -, hwon'⟩ := h
    exact hwon'.succeeded hd (events_suffix htr')

/-- Only calls that did not fail are told apart. -/
theorem Abreast.eq_of_failed (h : Abreast i s t) (hnot : ¬ Succeeded s i)
    (hover : ∀ c, s.calls[i]? = some c → c.phase.isAwaiting = false) : t = s := by
  cases h with
  | same h => exact h.symm
  | trying hc hp =>
    have := hover _ hc
    rw [hp] at this
    cases this
  | parted h =>
    obtain ⟨tr, past, past', c, d, hc, -, htr, -, hwon, -⟩ := h
    exact absurd (hwon.succeeded hc (events_suffix htr)) hnot

/-- A call that waits has returned nothing. -/
theorem Reaches.returned?_of_isAwaiting (hj : S.options.jitter = false)
    (hfit : ∀ n, (answer n).error? = T.failure n)
    (h : Reaches S (Meets S T answer i) (.start S m) s) (hc : s.calls[i]? = some c)
    (hp : c.phase.isAwaiting = true) : returned? (s.trace i) = none := by
  cases h.foretold hj hfit hc with
  | ahead ha => exact returned?_eq_none (ha.quiet hp)
  | won _ _ hwon =>
    have hwonp := hwon.phase
    revert hp hwonp
    cases c.phase <;> nofun

theorem samePolicy (hj : S.options.jitter = false) (hi : i < m)
    (hfit : ∀ n, (answer n).error? = T.failure n)
    (hfit' : ∀ n, (answer' n).error? = T.failure n) : SamePolicy S T answer answer' i m where
  keeps_up := by
    intro s hs
    obtain ⟨t, ht, hab⟩ := hs.abreast fun n => (hfit n).trans (hfit' n).symm
    refine ⟨t, ht, hab.attemptTimes_eq, hab.succeeded, fun x e hr => ?_⟩
    obtain ⟨-, -, hnot⟩ := (hs.fate hj hi hfit).of_failure hr
    refine hab.eq_of_failed hnot fun c hc => ?_
    apply Bool.eq_false_iff.2
    intro hp
    rw [hs.returned?_of_isAwaiting hj hfit hc hp] at hr
    cases hr
  attempts_alike := by
    intro s t hs ht
    exact List.prefix_or_prefix_of_prefix (ht.fate hj hi hfit').attempts
      (hs.fate hj hi hfit).attempts
  fails_alike := by
    intro s t x e hs ht hr
    obtain ⟨htr, hh, -⟩ := (hs.fate hj hi hfit).of_failure hr
    rw [State.events, htr] at hh
    rw [htr]
    cases ht.fate hj hi hfit' with
    | underway hpre hnone =>
      exact ⟨hpre, fun hr' => absurd (returned?_eq_none hnone) hr'⟩
    | failed htr' => exact ⟨htr' ▸ List.prefix_rfl, fun _ => htr'⟩
    | succeeded _ hnone =>
      rw [hnone] at hh
      cases hh
  succeeds_alike := by
    intro s t hs ht hsucc hend
    obtain ⟨hnone, htimes⟩ := (hs.fate hj hi hfit).of_succeeded hsucc
    have hfate := ht.fate hj hi hfit'
    have hsucc' : Succeeded t i := by
      cases hfate with
      | underway _ hh =>
        exact hend.resolve_right fun hr => hr (returned?_eq_none hh)
      | failed htr hh =>
        rw [State.events, htr, hnone] at hh
        cases hh
      | succeeded _ _ _ _ h => exact h
    exact ⟨hsucc', (hfate.of_succeeded hsucc').2.trans htimes.symm⟩

/-- The work of an attempt that is under way is the one it was given. -/
theorem Reaches.outcome_eq {n : Nat} {deadline : Option Nat} {w : Work Outcome}
    (hj : S.options.jitter = false) (hfit : ∀ n, (answer n).error? = T.failure n)
    (h : Reaches S (Meets S T answer i) (.start S m) s) (hc : s.calls[i]? = some c)
    (hp : c.phase = .attempting n deadline w) : w.outcome = answer n := by
  cases h.foretold hj hfit hc with
  | ahead ha => exact ha.answers n deadline w hp
  | won _ _ hwon =>
    have hwonp := hwon.phase
    rw [hp] at hwonp
    cases hwonp

/-- The clock may go as far as the next instant at which the call goes on or is cancelled. -/
theorem meets_tick {later : Nat} (hc : s.calls[i]? = some c)
    (hdue : ∀ due, T.due s.now c.phase = some due → later ≤ due) (hcan : c.cancelled = false)
    (hx : ∀ instant, T.cancelled = some instant → later ≤ instant) :
    Meets S T answer i s (.tick later) := by
  intro d hd
  obtain rfl := Option.some.inj (hc.symm.trans hd)
  exact ⟨hdue, fun _ => hx, fun h => by rw [hcan] at h; cases h⟩

theorem meets_poll (hc : s.calls[i]? = some c) (hp : c.phase.nextAttempt = none)
    (w : Work Outcome) (spread : Nat) : Meets S T answer i s (.poll i w spread) := by
  intro _ d n hd hs
  exact absurd hs (not_starts hc hp hd)

/-- The next attempt of a call is given its work. -/
theorem meets_start {n : Nat} (hc : s.calls[i]? = some c) (hp : c.phase.nextAttempt = some n)
    (hgate : T.gate ≤ s.now) (spread : Nat) :
    Meets S T answer i s (.poll i (T.work answer s.now n) spread) := by
  intro _ d k hd hs
  obtain rfl := Option.some.inj (hc.symm.trans hd)
  obtain rfl : k = n := Option.some.inj (hs.nextAttempt.symm.trans hp)
  exact ⟨rfl, fun _ => hgate⟩

/-- An empty stream settles its call: the slot is free, hooks are told of the end, and there is no
further attempt. -/
theorem poll_empty {n : Nat} {deadline done : Option Nat} (hc : s.calls[i]? = some c)
    (hp : c.phase = .attempting n deadline ⟨done, .stream none⟩) (hcan : c.cancelled = false)
    (hdone : reached s.now done = true) (work : Work Outcome) (spread : Nat) :
    ∃ u, step? S s (.poll i work spread) = some u ∧ u.free = s.free + 1 ∧
      Did s i (S.tell s.now c.identity (.settle .ended .stream) 0).1
        { c with phase := (S.tell s.now c.identity (.settle .ended .stream) 0).2 } u ∧
      Succeeded u i ∧ ∀ ok v, Reaches S ok u v →
        attemptTimes (v.trace i) = attemptTimes (s.trace i) := by
  have hstep : step? S s (.poll i work spread) = some (s.settle S i c .ended .stream) := by
    simp [step?, hc, State.poll, hp, hcan, hdone, State.finishAttempt, State.succeed]
  have hd := (Did.refl hc).settle (S := S) c .ended .stream
  have hwon : Won (S.tell s.now c.identity (.settle .ended .stream) 0).1
      (S.tell s.now c.identity (.settle .ended .stream) 0).2 := Won.settle _ _ rfl
  refine ⟨_, hstep, ?_, hd, hwon.succeeded (hd.call hc) ⟨_, (events_append hd.trace).symm⟩, ?_⟩
  · rw [State.settle, (inform_frame ..).1]
    simp [State.leave, State.release, hp, Phase.holdsSlot]
  · intro ok v hv
    rw [hv.quiet_of_won (hd.call hc) hwon.phase, hd.trace, List.nil_append, attemptTimes_append,
      attemptTimes_at, hwon.attempts, List.map_nil, List.append_nil]

end

/-- Let a provider take as long to open a stream and to send its first item as it takes to respond,
and fail with the same errors, be it that it refuses the stream or that its first item is an error.
Then a call for a stream and one for a response are attempted as often and at the same instants,
wherever they are cancelled, and if one fails so does the other, after hooks were told the same. A
stream that turns out to be empty is a success: its call gives its slot back and is not attempted
again. -/
theorem streams_retry_like_responses {S : Setup} {T : Trial}
    {reply : Nat → Except ChatError Response} {source : Nat → Source} {i m : Nat}
    (hj : S.options.jitter = false) (hi : i < m)
    (hreply : ∀ n, (Outcome.ofResult (reply n)).error? = T.failure n)
    (hsource : ∀ n, (source n).opening.error? = T.failure n) :
    SamePolicy S T (fun n => .ofResult (reply n)) (fun n => (source n).opening) i m ∧
    SamePolicy S T (fun n => (source n).opening) (fun n => .ofResult (reply n)) i m ∧
    ∀ s c n deadline w item,
      Reaches S (Meets S T (fun n => (source n).opening) i) (.start S m) s →
      s.calls[i]? = some c → c.phase = .attempting n deadline w → c.cancelled = false →
      source n = .opens item → item 0 = none → reached s.now w.done = true →
      ∀ work spread, ∃ u, step? S s (.poll i work spread) = some u ∧ u.free = s.free + 1 ∧
        Did s i (S.tell s.now c.identity (.settle .ended .stream) 0).1
          { c with phase := (S.tell s.now c.identity (.settle .ended .stream) 0).2 } u ∧
        Succeeded u i ∧ ∀ ok v, Reaches S ok u v →
          attemptTimes (v.trace i) = attemptTimes (s.trace i) := by
  refine ⟨samePolicy hj hi hreply hsource, samePolicy hj hi hsource hreply, ?_⟩
  intro s c n deadline w item hs hc hp hcan hopens hempty hdone work spread
  have hw : w.outcome = (source n).opening := hs.outcome_eq hj hsource hc hp
  rw [hopens, Source.opening, hempty] at hw
  obtain ⟨done, o⟩ := w
  obtain rfl : o = .stream none := hw
  exact poll_empty hc hp hcan hdone work spread

/-- A client with a hook that tries again after a short pause whatever went wrong. -/
def insistent : Setup :=
  { registry := ⟨[("p", ())]⟩
    options := { jitter := false, initialBackoff := 10 }
    retryable := fun _ => true
    hooks := [0] }

/-- A call whose attempts all fail is cancelled in the pause after the second one. -/
def Trial.resets : Trial :=
  { made := 2
    freshRequest := "r"
    freshCorrelation := "c"
    request := ⟨"p/m", [], none, none, none⟩
    gate := 0
    cancelled := some 20
    duration := fun _ => some 3
    failure := fun _ => some (.transport "reset") }

/-- The first stream is refused, and the others begin with an error. -/
def resettingStreams (n : Nat) : Source :=
  if n = 0 then .refuses (.transport "reset")
  else .opens fun _ => some (.error (.transport "reset"))

/-- A call for a response fails because it was cancelled, and whenever a call for a stream returns
that meets with the same, the same has happened to it. -/
theorem resetting_streams_fail_like_responses :
    let reply : Nat → Except ChatError Response := fun _ => .error (.transport "reset")
    ∃ s, Reaches insistent (Meets insistent .resets (fun n => .ofResult (reply n)) 0)
        (.start insistent 1) s ∧
      attemptTimes (s.trace 0) = [(2, 0), (15, 1)] ∧
      returned? (s.trace 0) = some (20, .failure .cancelled) ∧
      Reaches insistent (Meets insistent .resets (fun n => (resettingStreams n).opening) 0)
        (.start insistent 1) s ∧
      ∀ t, Reaches insistent (Meets insistent .resets (fun n => (resettingStreams n).opening) 0)
        (.start insistent 1) t → returned? (t.trace 0) ≠ none → t.trace 0 = s.trace 0 := by
  intro reply
  let answer : Nat → Outcome := fun n => .ofResult (reply n)
  let ok := Meets insistent .resets answer 0
  let idle : Work Outcome := ⟨none, .failure .cancelled⟩
  have hwoke : Reaches insistent ok (.start insistent 1) _ :=
    .single (a := .tick 2) (meets_tick rfl (by rintro _ ⟨⟩; decide) rfl (by rintro _ ⟨⟩; decide))
      rfl
  have hmade : Reaches insistent ok (.start insistent 1) _ :=
    hwoke.step (a := .call 0 "r" "c" ⟨"p/m", [], none, none, none⟩)
      (fun _ => ⟨rfl, rfl, rfl, rfl⟩) rfl
  have htried : Reaches insistent ok (.start insistent 1) _ :=
    hmade.step (a := .poll 0 (Trial.resets.work answer 2 0) 0) (meets_start rfl rfl (by decide) 0)
      rfl
  have hended : Reaches insistent ok (.start insistent 1) _ :=
    htried.step (a := .tick 5)
      (meets_tick rfl (by rintro _ ⟨⟩; decide) rfl (by rintro _ ⟨⟩; decide)) rfl
  have hfailed : Reaches insistent ok (.start insistent 1) _ :=
    hended.step (a := .poll 0 idle 0) (meets_poll rfl rfl _ _) rfl
  have hpaused : Reaches insistent ok (.start insistent 1) _ :=
    hfailed.step (a := .tick 15)
      (meets_tick rfl (by rintro _ ⟨⟩; decide) rfl (by rintro _ ⟨⟩; decide)) rfl
  have hagain : Reaches insistent ok (.start insistent 1) _ :=
    hpaused.step (a := .poll 0 (Trial.resets.work answer 15 1) 0)
      (meets_start rfl rfl (by decide) 0) rfl
  have hended' : Reaches insistent ok (.start insistent 1) _ :=
    hagain.step (a := .tick 18)
      (meets_tick rfl (by rintro _ ⟨⟩; decide) rfl (by rintro _ ⟨⟩; decide)) rfl
  have hfailed' : Reaches insistent ok (.start insistent 1) _ :=
    hended'.step (a := .poll 0 idle 0) (meets_poll rfl rfl _ _) rfl
  have hpaused' : Reaches insistent ok (.start insistent 1) _ :=
    hfailed'.step (a := .tick 20)
      (meets_tick rfl (by rintro _ ⟨⟩; decide) rfl (by rintro _ ⟨⟩; decide)) rfl
  have hcancelled : Reaches insistent ok (.start insistent 1) _ :=
    hpaused'.step (a := .cancel 0) (fun _ => ⟨rfl, by rintro _ _ ⟨⟩ ⟨⟩; decide⟩) rfl
  have h : Reaches insistent ok (.start insistent 1) _ :=
    hcancelled.step (a := .poll 0 (Trial.resets.work answer 20 2) 0)
      (meets_start rfl rfl (by decide) 0) rfl
  have hsource : ∀ n, (resettingStreams n).opening.error? = Trial.resets.failure n := by
    intro n
    unfold resettingStreams
    split <;> rfl
  have hreply : ∀ n, (Outcome.ofResult (reply n)).error? = Trial.resets.failure n := fun _ => rfl
  obtain ⟨hsame, -, -⟩ := streams_retry_like_responses (S := insistent) (i := 0) (m := 1) rfl
    (by decide) hreply hsource
  obtain ⟨t, ht, -, -, hlast⟩ := hsame.keeps_up h
  obtain rfl := hlast 20 .cancelled rfl
  exact ⟨_, h, rfl, rfl, ht, fun t ht => (hsame.fails_alike h ht rfl).2⟩

end Switchboard.Client
