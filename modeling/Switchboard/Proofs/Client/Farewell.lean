import Switchboard.Proofs.Client.Reach

/-!
# Cancelled streams

A call that was cancelled hands over little more: `farewell` is what its caller is handed at most if
it reads on, and no move adds to it (`Fading.move`).
-/

namespace Switchboard.Client

open Chat

section
variable {S : Setup} {s : State} {i : Nat} {c c' : Call} {es : List Event} {a : Input}

/-- What comes after this in a stream that is over. -/
def Handover.followers : Handover → List Handover
  | stream | delta _ | fault _ => [.close]
  | response _ | failure _ | close => []

/-- What the caller of a cancelled stream is still handed if it reads on. -/
def farewell (who : Identity) : Phase → List Handover
  | .streaming (some d) =>
    .delta (d.stamp who) :: if d.isFinal then [.close] else [.fault .cancelled, .close]
  | .streaming none | .pulling _ => [.fault .cancelled, .close]
  | .telling (.settle _ h) _ _ => h.stamp who :: h.followers
  | .drained => [.close]
  | _ => []

/-- The call has a stream or is over. -/
def Phase.isLate : Phase → Bool
  | .streaming _ | .pulling _ | .telling (.settle ..) .. | .telling .abandon .. | .drained
  | .over => true
  | _ => false

theorem Phase.isLate_of_isAwaiting {p : Phase} (h : p.isAwaiting = true) : p.isLate = false := by
  cases p <;> first | rfl | cases h

/-- A cancelled call of which the caller is handed `all` at most. -/
structure Fading (all : List Handover) (c : Call) (es : List Event) : Prop where
  cancelled : c.cancelled = true
  late : c.phase.isLate = true
  bound : handed es ++ farewell c.identity c.phase <+: all

theorem farewell_phaseAfter (who : Identity) (h : Handover) :
    farewell who h.phaseAfter = h.followers := by
  cases h <;> rfl

theorem isLate_phaseAfter (h : Handover) : h.phaseAfter.isLate = true := by
  cases h <;> rfl

theorem farewell_tell (now : Nat) (who : Identity) (notice : Notice) (h : Handover) (next : Nat) :
    let r := S.tell now who (.settle notice h) next
    handed r.1 ++ farewell who r.2 = h.stamp who :: h.followers ∧ r.2.isLate = true := by
  apply tell_elim (P := fun told p =>
    handed told ++ farewell who p = h.stamp who :: h.followers ∧ p.isLate = true)
  · intro told n due hq
    exact ⟨by rw [handed_told hq]; rfl, rfl⟩
  · intro told hq
    refine ⟨?_, isLate_phaseAfter h⟩
    simp [handed_told hq, Telling.parting, Telling.phaseAfter, farewell_phaseAfter]

theorem farewell_abandon (now : Nat) (who : Identity) (next : Nat) :
    let r := S.tell now who .abandon next
    handed r.1 ++ farewell who r.2 = [] ∧ r.2.isLate = true := by
  apply tell_elim (P := fun told p => handed told ++ farewell who p = [] ∧ p.isLate = true)
  · intro told n due hq
    exact ⟨by rw [handed_told hq]; rfl, rfl⟩
  · intro told hq
    rw [Telling.parting, List.append_nil]
    exact ⟨by rw [handed_told hq]; rfl, rfl⟩

theorem Fading.settle {all : List Handover} {now : Nat} {notice : Notice} {h : Handover}
    (hf : Fading all c es)
    (hw : farewell c.identity c.phase = h.stamp c.identity :: h.followers) :
    Fading all { c with phase := (S.tell now c.identity (.settle notice h) 0).2 }
      (es ++ (S.tell now c.identity (.settle notice h) 0).1) := by
  obtain ⟨he, hl⟩ := farewell_tell (S := S) now c.identity notice h 0
  refine ⟨hf.cancelled, hl, ?_⟩
  have := hf.bound
  rwa [hw, ← he, ← List.append_assoc, ← handed_append] at this

theorem Fading.move {all : List Handover} {es' : List Event} {now : Nat} (h : Fading all c es)
    (hm : Move S now a c es' c') : Fading all c' (es ++ es') := by
  obtain ⟨hcan, hlate, hall⟩ := h
  cases hm with
  | cancel => exact ⟨rfl, hlate, by simpa using hall⟩
  | refuse hp | make hp | pace hp | backOff hp | commit hp => rw [hp] at hlate; cases hlate
  | attempt hs => cases hs with
    | admitted hp | paced hp | again hp => rw [hp] at hlate; cases hlate
  | @tell _ _ _ _ why next _ hp =>
    rw [hp] at hlate hall
    cases why with
    | start => cases hlate
    | settle notice give =>
      obtain ⟨he, hl⟩ := farewell_tell (S := S) now c.identity notice give next
      exact ⟨hcan, hl, by rw [handed_append, List.append_assoc, he]; exact hall⟩
    | abandon =>
      obtain ⟨he, hl⟩ := farewell_abandon (S := S) now c.identity next
      exact ⟨hcan, hl, by rw [handed_append, List.append_assoc, he]; exact hall⟩
  | replay hp hf =>
    rw [hp] at hall
    exact ⟨hcan, rfl, by simpa [farewell, hf, Handover.stamp] using hall⟩
  | pull hp =>
    rw [hp] at hall
    exact ⟨hcan, rfl, by simpa [farewell] using hall⟩
  | deliver _ hcan' => rw [hcan] at hcan'; cases hcan'
  | decide hd =>
    cases hd with
    | quit hp => exact absurd hlate (by rw [Phase.isLate_of_isAwaiting hp]; simp)
    | interrupt hp => exact Fading.settle ⟨hcan, hlate, hall⟩ (by rw [hp]; rfl)
    | replay hp hf =>
      exact Fading.settle ⟨hcan, hlate, hall⟩
        (by simp [hp, farewell, hf, Handover.stamp, Handover.followers])
    | giveUp _ hcan' | respond _ hcan' | openEmpty _ hcan' =>
      rw [hcan] at hcan'
      cases hcan'
    | finish _ hcan' | fault _ hcan' | close _ hcan' =>
      rw [hcan] at hcan'
      cases hcan'
  | close hp =>
    rw [hp] at hall
    exact ⟨hcan, rfl, by simpa [farewell, Handover.stamp] using hall⟩
  | forsake | letGo =>
    refine ⟨hcan, rfl, ?_⟩
    rw [handed_append]
    simpa [farewell, handed] using (List.prefix_append (handed es) _).trans hall

theorem Fading.run {all : List Handover} {ok : State → Input → Prop} {t : State}
    (hc : s.calls[i]? = some c) (hf : Fading all c (s.events i)) (hr : Reaches S ok s t) :
    handed (s.events i) <+: handed (t.events i) ∧ handed (t.events i) <+: all := by
  have key : ∃ c, t.calls[i]? = some c ∧ Fading all c (t.events i) ∧
      handed (s.events i) <+: handed (t.events i) := by
    induction hr with
    | refl => exact ⟨c, hc, hf, List.prefix_rfl⟩
    | step _ _ hs ih =>
      obtain ⟨d, hd, hfd, hp⟩ := ih
      obtain ⟨es, c', hc', ht, hm⟩ := step_call hs hd
      refine ⟨c', hc', ?_, ?_⟩
      · rw [events_append ht]
        rcases hm with ⟨rfl, rfl⟩ | ⟨-, hm⟩
        · rwa [List.append_nil]
        · exact hfd.move hm
      · rw [events_append ht, handed_append]
        exact hp.trans (List.prefix_append ..)
  obtain ⟨c, -, hf, hp⟩ := key
  exact ⟨hp, (List.prefix_append ..).trans hf.bound⟩

end

end Switchboard.Client
