import Switchboard.Client.Script
import Switchboard.Proofs.Client.Reach

/-!
# Streams of a provider

A provider answers every attempt of a call with a refusal or with a stream (`Source`). `Feeds` says
that the inputs are its answers. What a call has come to is said by what its caller was handed:
nothing while it is `Seeking` a stream, and the first items of one once it is `Committed` to it.
-/

namespace Switchboard.Client

open Chat

/-! ## Sources -/

/-- What an attempt gets from a provider: no stream, or a stream, by the numbers of its items.
Nothing counts that comes after its end. -/
inductive Source where
  | refuses (e : ChatError)
  | opens (item : Nat → Pulled)

/-- An attempt takes the first item of the stream, which must not be an error. -/
def Source.opening : Source → Outcome
  | refuses e => .failure e
  | opens item => Script.opened (item 0)

/-- What the caller is handed for an item. -/
def give : Pulled → Handover
  | some (.ok d) => .delta d
  | some (.error e) => .fault e
  | none => .close

/-- There is more to come after this item. -/
def goesOn : Pulled → Bool
  | some (.ok d) => !d.isFinal
  | _ => false

/-- The first `k` items, under the identity of the call. -/
def handovers (who : Identity) (item : Nat → Pulled) (k : Nat) : List Handover :=
  (List.range k).map fun j => (give (item j)).stamp who

theorem handovers_succ (who : Identity) (item : Nat → Pulled) (k : Nat) :
    handovers who item (k + 1) = handovers who item k ++ [(give (item k)).stamp who] := by
  simp [handovers, List.range_succ]

/-- The provider of call `i` is `source`: attempt number `n` gets the answer of `source n`, and a
pull gets the next item of the stream that was opened last. When an answer comes is left open. -/
def Feeds (S : Setup) (source : Nat → Source) (i : Nat) (s : State) : Input → Prop
  | .poll j w _ => j = i → ∀ c n, s.calls[i]? = some c → Starts S s.now c n →
      w.outcome = (source n).opening
  | .pull j w => j = i → ∀ n item, (attempts (s.events i)).getLast? = some n →
      source n = .opens item → w.outcome = item ((handed (s.events i)).length - 1)
  | _ => True

/-! ## What has been handed over -/

/-- Attempts were made, `m` of them, and nothing was handed over. -/
structure Seeking (m : Nat) (es : List Event) : Prop where
  attempts : attempts es = List.range m
  handed : handed es = []

/-- The caller was handed the stream of the last attempt, the first `k` items of it, which are
those of `item`, and then `rest`. -/
def Committed (source : Nat → Source) (who : Identity) (item : Nat → Pulled) (k : Nat)
    (rest : List Handover) (es : List Event) : Prop :=
  ∃ before after n, es = before ++ .handed .stream :: after ∧ Seeking (n + 1) before ∧
    source n = .opens item ∧ attempts after = [] ∧ handed after = handovers who item k ++ rest

/-- What can follow the first `k` items of a stream. -/
inductive Rest (cancelled : Bool) (item : Nat → Pulled) : Nat → List Handover → Prop where
  /-- Only the last of the items may end the stream. -/
  | none {k : Nat} : (∀ j, j + 1 < k → goesOn (item j)) → Rest cancelled item k []
  /-- The caller found that nothing comes after a terminal delta or an error. -/
  | close {k : Nat} : (∀ j < k, goesOn (item j)) → goesOn (item k) = false → item k ≠ none →
      Rest cancelled item (k + 1) [.close]
  | cut {k : Nat} {rest : List Handover} : cancelled = true → 0 < k → (∀ j < k, goesOn (item j)) →
      rest <+: [.fault .cancelled, .close] → Rest cancelled item k rest

/-- A stream, or something out of it. -/
def Handover.isOfStream : Handover → Bool
  | response _ | failure _ => false
  | stream | delta _ | fault _ | close => true

/-- Whatever has become of a call, nothing of a stream was handed over, or what was is in order. -/
def Delivered (source : Nat → Source) (who : Identity) (cancelled : Bool) (es : List Event) :
    Prop :=
  (∀ h ∈ handed es, h.isOfStream = false) ∨
    ∃ item k rest, Committed source who item k rest es ∧ Rest cancelled item k rest

/-- The call is decided and its caller is still owed `h`. -/
def Owes (source : Nat → Source) (who : Identity) (cancelled : Bool) (es : List Event) :
    Handover → Prop
  | .response _ | .failure _ => handed es = []
  | .stream => ∃ n item, Seeking (n + 1) es ∧ source n = .opens item ∧ item 0 = none
  | h => ∃ item k, Committed source who item k [] es ∧ (∀ j < k, goesOn (item j)) ∧
      (give (item k) = h ∧ goesOn (item k) = false ∨
        h = .fault .cancelled ∧ cancelled = true ∧ 0 < k)

/-- The next pull finds that nothing more comes. -/
inductive Dry (cancelled : Bool) (item : Nat → Pulled) : Nat → List Handover → Prop where
  | empty : item 0 = none → Dry cancelled item 0 []
  | ended {k : Nat} : (∀ j < k, goesOn (item j)) → goesOn (item k) = false → item k ≠ none →
      Dry cancelled item (k + 1) []
  | cut {k : Nat} : cancelled = true → 0 < k → (∀ j < k, goesOn (item j)) →
      Dry cancelled item k [.fault .cancelled]

/-- What has happened to a call, by its phase. -/
def Reading (source : Nat → Source) (who : Identity) (cancelled : Bool) (es : List Event) :
    Phase → Prop
  | .unmade | .telling .start _ _ | .queued | .pacing => Seeking 0 es
  | .attempting n _ w => Seeking (n + 1) es ∧ w.outcome = (source n).opening
  | .backingOff n _ => Seeking (n + 1) es
  | .streaming (some d) => ∃ item, Committed source who item 0 [] es ∧ item 0 = some (.ok d)
  | .streaming none => ∃ item k, Committed source who item k [] es ∧ 0 < k ∧
      ∀ j < k, goesOn (item j)
  | .pulling w => ∃ item k, Committed source who item k [] es ∧ 0 < k ∧
      (∀ j < k, goesOn (item j)) ∧ w.outcome = item k
  | .telling (.settle _ h) _ _ => Owes source who cancelled es h
  | .drained => ∃ item k rest, Committed source who item k rest es ∧ Dry cancelled item k rest
  | .telling .abandon _ _ | .over => Delivered source who cancelled es

section
variable {source : Nat → Source} {who : Identity} {cancelled : Bool} {item : Nat → Pulled}
  {es es' : List Event} {k m : Nat} {rest : List Handover} {h : Handover}

theorem Seeking.append (hs : Seeking m es) (ha : Client.attempts es' = [])
    (hh : Client.handed es' = []) : Seeking m (es ++ es') :=
  ⟨by rw [attempts_append, hs.attempts, ha, List.append_nil],
    by rw [handed_append, hs.handed, hh]; rfl⟩

theorem Seeking.attempt (hs : Seeking m es) (q : Request) :
    Seeking (m + 1) (es ++ [.attempted m q]) :=
  ⟨by rw [attempts_append, hs.attempts, List.range_succ]; rfl,
    by rw [handed_append, hs.handed]; rfl⟩

theorem Seeking.commit {n : Nat} (hs : Seeking (n + 1) es) (hsrc : source n = .opens item) :
    Committed source who item 0 [] (es ++ [.handed .stream]) :=
  ⟨es, [], n, rfl, hs, hsrc, rfl, rfl⟩

theorem Committed.append (hc : Committed source who item k rest es) {k' : Nat}
    {rest' : List Handover} (ha : attempts es' = [])
    (hh : handovers who item k ++ rest ++ handed es' = handovers who item k' ++ rest') :
    Committed source who item k' rest' (es ++ es') := by
  obtain ⟨before, after, n, rfl, hb, hsrc, haft, hhand⟩ := hc
  refine ⟨before, after ++ es', n, by simp, hb, hsrc, ?_, ?_⟩
  · rw [attempts_append, haft, ha]; rfl
  · rw [handed_append, hhand, hh]

theorem Committed.quiet (hc : Committed source who item k rest es) (ha : attempts es' = [])
    (hh : handed es' = []) : Committed source who item k rest (es ++ es') :=
  hc.append ha (by rw [hh, List.append_nil])

/-- The caller is handed the next item. -/
theorem Committed.next (hc : Committed source who item k [] es) :
    Committed source who item (k + 1) [] (es ++ [.handed ((give (item k)).stamp who)]) :=
  hc.append rfl (by simp [handovers_succ])

theorem Committed.more (hc : Committed source who item k rest es) (h : Handover) :
    Committed source who item k (rest ++ [h]) (es ++ [.handed h]) :=
  hc.append rfl (by simp)

theorem Committed.handed_eq (hc : Committed source who item k rest es) :
    handed es = .stream :: handovers who item k ++ rest := by
  obtain ⟨before, after, n, rfl, hb, -, -, hh⟩ := hc
  rw [handed_append, hb.handed, handed_handed, hh]
  rfl

theorem Committed.last_attempt (hc : Committed source who item k rest es) :
    ∃ n, (attempts es).getLast? = some n ∧ source n = .opens item := by
  obtain ⟨before, after, n, rfl, hb, hsrc, ha, -⟩ := hc
  refine ⟨n, ?_, hsrc⟩
  rw [attempts_append, hb.attempts, attempts_handed, ha, List.append_nil, List.range_succ]
  simp

end

end Switchboard.Client
