import Switchboard.Proofs.Client.Farewell
import Switchboard.Proofs.Client.Reading

/-!
# What a stream delivers

A provider answers every attempt of a call with a refusal or with a stream. The attempt whose first
item is a delta is the last one: its items are handed on as they are, first to last, up to a
terminal delta, an error or the end. Cancelling cuts this short, but only where the item that ends
the stream was not taken from the provider yet, and never before the first delta is handed over.
`Reading` says what has been handed over in each phase, and `stream_delivers_items` what this comes
to in a run.
-/

namespace Switchboard.Client

open Chat

section
variable {S : Setup} {source : Nat → Source} {s : State} {i : Nat} {c : Call} {a : Input}
  {es : List Event} {who : Identity}

/-- The caller has a stream, and if it is pulling, what it waits for comes at some time. -/
def Call.isReadable (c : Call) : Bool :=
  match c.phase with
  | .streaming _ | .drained | .telling (.settle ..) .. => true
  | .pulling w => c.cancelled || w.done.isSome
  | _ => false

/-- What a pull gets that asks for the next item. -/
def nextItem (source : Nat → Source) (es : List Event) : Pulled :=
  match (attempts es).getLast?.map source with
  | some (.opens item) => item ((handed es).length - 1)
  | _ => none

/-- What the caller of a stream is handed next. -/
def upcoming (source : Nat → Source) (c : Call) (es : List Event) : Handover :=
  match c.phase with
  | .streaming (some d) => .delta (d.stamp c.identity)
  | .telling (.settle _ h) _ _ => h.stamp c.identity
  | .drained => .close
  | _ => if c.cancelled then .fault .cancelled else (give (nextItem source es)).stamp c.identity

/-- The caller of `i` can go on from `s` to be handed `h` after what it was in `es`. -/
def Answers (S : Setup) (source : Nat → Source) (i : Nat) (es : List Event) (h : Handover)
    (s : State) : Prop :=
  ∃ t, Reaches S (Feeds S source i) s t ∧ handed (t.events i) = handed es ++ [h]

theorem Committed.nextItem_eq {item : Nat → Pulled} {k : Nat}
    (hc : Committed source who item k [] es) : nextItem source es = item k := by
  obtain ⟨n, hn, hsrc⟩ := hc.last_attempt
  simp [nextItem, hn, hsrc, hc.handed_eq, handovers]

theorem Answers.of_step {t : State} {h : Handover} (ha : Feeds S source i s a)
    (hs : step? S s a = some t) (ht : Answers S source i es h t) : Answers S source i es h s := by
  obtain ⟨u, hr, hh⟩ := ht
  exact ⟨u, (Reaches.single ha hs).trans hr, hh⟩

theorem Answers.of_handed {t : State} {h : Handover} {d : Call} (hd : Did s i [.handed h] d t) :
    Answers S source i (s.events i) h t :=
  ⟨t, .refl, by rw [events_append hd.trace]; simp⟩

/-- A poll of a call that starts nothing may come with any answer. -/
theorem feeds_poll (hc : s.calls[i]? = some c) (hp : c.phase.nextAttempt = none)
    (w : Work Outcome) (spread : Nat) : Feeds S source i s (.poll i w spread) := by
  intro _ d n hd hs
  exact absurd hs (not_starts hc hp hd)

theorem freeHooks_feeds (S : Setup) (source : Nat → Source) (i : Nat) :
    FreeHooks (Feeds S source i) i where
  tick _ _ _ := trivial
  poll w hc hp := feeds_poll hc (by rw [hp]; rfl) w 0

theorem answers_settled {notice : Notice} {h : Handover} {t : State} (hc : s.calls[i]? = some c)
    (hd : Did s i (S.tell s.now c.identity (.settle notice h) 0).1
      { c with phase := (S.tell s.now c.identity (.settle notice h) 0).2 } t) :
    Answers S source i (s.events i) (h.stamp c.identity) t :=
  reaches_settled (freeHooks_feeds S source i) hc hd

theorem answers_deliver {d : Delta} (hc : s.calls[i]? = some c) :
    Answers S source i (s.events i) (.delta (d.stamp c.identity)) (s.deliver S i c d) := by
  unfold State.deliver
  split
  · exact answers_settled (h := .delta d) hc ((Did.refl hc).settle c _ _)
  · exact .of_handed ((Did.refl hc).hand c (.delta d) _)

theorem answers_finishPull (o : Pulled) (hc : s.calls[i]? = some c) :
    Answers S source i (s.events i) ((give o).stamp c.identity) (s.finishPull S i c o) := by
  match o with
  | some (.ok d) => exact answers_deliver hc
  | some (.error e) => exact answers_settled (h := .fault e) hc ((Did.refl hc).settle c _ _)
  | none => exact answers_settled (h := .close) hc ((Did.refl hc).settle c _ _)

theorem poll_pulled {w : Work Pulled} (hc : s.calls[i]? = some c) (hp : c.phase = .pulling w)
    (hcan : ¬c.cancelled) (hdone : reached s.now w.done = true) (work : Work Outcome) :
    step? S s (.poll i work 0) = some (s.finishPull S i c w.outcome) := by
  simp [step?, State.poll, hc, hp, hcan, hdone]

/-- A pull is answered if the call was cancelled or the item comes. -/
theorem answers_pulling (S : Setup) (source : Nat → Source) {w : Work Pulled}
    (hc : s.calls[i]? = some c) (hp : c.phase = .pulling w)
    (hw : (c.cancelled || w.done.isSome) = true) :
    Answers S source i (s.events i)
      (if c.cancelled then .fault .cancelled else (give w.outcome).stamp c.identity) s := by
  have hnext : c.phase.nextAttempt = none := by rw [hp]; rfl
  split
  · next hcan =>
    refine .of_step (t := s.settle S i c (.failed .cancelled) (.fault .cancelled))
      (feeds_poll hc hnext ⟨none, .failure .cancelled⟩ 0) ?_
      (answers_settled (h := .fault .cancelled) hc ((Did.refl hc).settle c _ _))
    simp [step?, hc, State.poll, hp, hcan]
  · next hcan =>
    obtain ⟨due, hdue⟩ : ∃ due, w.done = some due := by
      simpa [hcan, Option.isSome_iff_exists] using hw
    let s' : State := { s with now := max s.now due }
    have hc' : s'.calls[i]? = some c := hc
    have hfeed : Feeds S source i s (.tick (max s.now due)) := trivial
    have hdone : reached s'.now w.done = true := by
      rw [hdue]
      exact decide_eq_true (Nat.le_max_right ..)
    exact .of_step hfeed (tick_to S s due) (.of_step
      (feeds_poll hc' hnext ⟨none, .failure .cancelled⟩ 0)
      (poll_pulled hc' hp hcan hdone _) (answers_finishPull _ hc'))

/-- Whoever reads a stream is handed what comes next. -/
theorem Reading.answers (hr : Reading source c.identity c.cancelled (s.events i) c.phase)
    (hc : s.calls[i]? = some c) (hp : c.isReadable = true) :
    Answers S source i (s.events i) (upcoming source c (s.events i)) s := by
  let w : Work Pulled := ⟨some s.now, nextItem source (s.events i)⟩
  have hfeed : Feeds S source i s (.pull i w) := by
    intro _ n item hn hsrc
    simp [w, nextItem, hn, hsrc]
  unfold upcoming
  unfold Call.isReadable at hp
  match hph : c.phase with
  | .telling (.settle ..) _ _ => exact reaches_paid (freeHooks_feeds S source i) hc hph
  | .pulling w =>
    rw [hph] at hr hp
    obtain ⟨item, k, hcom, -, -, hw⟩ := hr
    have := answers_pulling S source hc hph hp
    rwa [hw, ← hcom.nextItem_eq] at this
  | .drained =>
    exact .of_step (t := s.hand i c .close .over) hfeed (by simp [step?, hc, State.pull, hph])
      (.of_handed ((Did.refl hc).hand c .close .over))
  | .streaming (some d) =>
    exact .of_step (t := s.deliver S i c d) hfeed (by simp [step?, hc, State.pull, hph])
      (answers_deliver hc)
  | .streaming none =>
    have hd := (Did.refl hc).setPhase c (.pulling w)
    refine .of_step (t := s.setPhase i c (.pulling w)) hfeed
      (by simp [step?, hc, State.pull, hph]) ?_
    have he := events_append hd.trace
    rw [List.append_nil] at he
    have := answers_pulling S source (hd.call hc) rfl (by simp [w])
    rwa [he] at this
  | .unmade | .telling .start _ _ | .telling .abandon _ _ | .queued | .pacing | .attempting ..
  | .backingOff .. | .over => rw [hph] at hp; cases hp

end

/-! ## Deliveries of a run -/

/-- Where a provider answers attempts and pulls out of `source`, what the caller is handed are the
items of the last attempt's stream, the first of them in front and none left out, up to the one that
ends it. If the call is cancelled before that one was taken from the provider, the caller is handed
a first delta that it has not got yet, and then, unless that is terminal, the error. Whoever reads a
stream is handed what comes next, if the provider answers. -/
theorem stream_delivers_items {S : Setup} {source : Nat → Source} {n i : Nat} {s : State} {c : Call}
    (h : Reaches S (Feeds S source i) (.start S n) s) (hc : s.calls[i]? = some c) :
    Delivered source c.identity c.cancelled (s.events i) ∧
      (c.cancelled = true → (∃ b, c.phase = .streaming b) ∨ (∃ w, c.phase = .pulling w) →
        ∀ ok t, Reaches S ok s t → handed (s.events i) <+: handed (t.events i) ∧
          handed (t.events i) <+: handed (s.events i) ++ farewell c.identity c.phase) ∧
      (c.isReadable = true →
        Answers S source i (s.events i) (upcoming source c (s.events i)) s) := by
  have hread := Reading.run h hc
  refine ⟨hread.delivered, fun hcan hp ok t hr => ?_, hread.answers hc⟩
  refine Fading.run hc ⟨hcan, ?_, List.prefix_rfl⟩ hr
  rcases hp with ⟨b, hp⟩ | ⟨w, hp⟩ <;> rw [hp] <;> rfl

/-! ## A cancelled stream -/

/-- A client of one provider and one hook. -/
def watched (hook : Nat) : Setup :=
  { registry := ⟨[("p", ())]⟩, options := { jitter := false }, hooks := [hook] }

/-- A stream of two items, the second of which ends it. -/
def short : Nat → Pulled
  | 0 => some (.ok (.fragment "a"))
  | _ => some (.ok .terminal)

def asker : Identity := ⟨"r", "c", "p", "m"⟩

/-- A stream is read that was cancelled before its first item was handed over. -/
theorem cancelled_stream_delivers_first : ∃ s c,
    Reaches (watched 0) (Feeds (watched 0) (fun _ => .opens short) 0) (.start (watched 0) 1) s ∧
      s.calls[0]? = some c ∧ c.cancelled = true ∧
      farewell c.identity c.phase =
        [.delta ((Delta.fragment "a").stamp asker), .fault .cancelled, .close] ∧
      Delivered (fun _ => .opens short) asker true (s.events 0) ∧
      Answers (watched 0) (fun _ => .opens short) 0 (s.events 0)
        (.delta ((Delta.fragment "a").stamp asker)) s := by
  let feeds := Feeds (watched 0) (fun _ => .opens short) 0
  have hmade : Reaches (watched 0) feeds (.start (watched 0) 1) _ :=
    .single (a := .call 0 "r" "c" ⟨"p/m", [], none, none, none⟩) trivial rfl
  have htried : Reaches (watched 0) feeds (.start (watched 0) 1) _ :=
    hmade.step (a := .poll 0 ⟨some 0, Script.opened (short 0)⟩ 0) (fun _ _ _ _ _ => rfl) rfl
  have hopened : Reaches (watched 0) feeds (.start (watched 0) 1) _ :=
    htried.step (a := .poll 0 ⟨none, Script.opened (short 0)⟩ 0) (fun _ _ _ _ _ => rfl) rfl
  have h : Reaches (watched 0) feeds (.start (watched 0) 1) _ :=
    hopened.step (a := .cancel 0) trivial rfl
  obtain ⟨hd, -, ha⟩ := stream_delivers_items h rfl
  exact ⟨_, _, h, rfl, rfl, rfl, hd, ha rfl⟩

/-- The terminal delta is handed over although the call was cancelled before, while a hook was being
told that the stream ended. -/
theorem cancelled_while_hooks_are_told : ∃ s t,
    run? (watched 100) (.start (watched 100) 1)
      [.call 0 "r" "c" ⟨"p/m", [], none, none, none⟩, .tick 100,
        .poll 0 ⟨none, .failure .cancelled⟩ 0, .poll 0 ⟨some 100, Script.opened (short 0)⟩ 0,
        .poll 0 ⟨none, .failure .cancelled⟩ 0, .pull 0 ⟨some 100, short 0⟩,
        .pull 0 ⟨some 100, short 1⟩, .poll 0 ⟨none, .failure .cancelled⟩ 0, .tick 150,
        .cancel 0] = some s ∧
      s.calls.map (·.cancelled) = [true] ∧
      handed (s.events 0) = [.stream, .delta ((Delta.fragment "a").stamp asker)] ∧
      run? (watched 100) s [.tick 200, .poll 0 ⟨none, .failure .cancelled⟩ 0,
        .pull 0 ⟨none, none⟩] = some t ∧
      handed (t.events 0) = [.stream, .delta ((Delta.fragment "a").stamp asker),
        .delta (Delta.terminal.stamp asker), .close] :=
  ⟨_, _, rfl, rfl, rfl, rfl, rfl⟩

end Switchboard.Client
