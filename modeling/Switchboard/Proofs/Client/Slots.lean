import Switchboard.Proofs.Client.Admission
import Switchboard.Proofs.Client.Settlement

/-!
# Slots

A client has a fixed number of slots. `slotLedger` is what one call took of them and gave back along
a run, read off the free slots alone. `Stage.Books` says what can be in it by where the call stands:
a call takes one slot at most, once, keeps it from before its first attempt until it is settled, and
then gives it back. With the free slots the calls that hold one make up the whole number
(`slots_conserved`).
-/

namespace Switchboard.Client

open Chat

/-- A provider works for the call: an attempt is under way, or the stream that the caller was handed
has neither ended nor been dropped. -/
def Phase.usesProvider : Phase → Bool
  | attempting .. | streaming _ | pulling _ => true
  | _ => false

/-- What a step of call `i` takes of the free slots. -/
def slotNote (i : Nat) (s : State) (a : Input) (t : State) : List Int :=
  if a.target = some i ∧ t.free ≠ s.free then [(s.free : Int) - t.free] else []

/-- What call `i` took of the free slots along a run, in order; less than nothing is given back. -/
def slotLedger (S : Setup) (i : Nat) (s : State) (inputs : List Input) : List Int :=
  along S (slotNote i) s inputs

/-- What the ledger of a call can hold. -/
def Stage.Books (ledger : List Int) : Stage → Prop
  | outside => ledger = []
  | inside => ledger = [1]
  | settled => ledger = [] ∨ ledger = [1, -1]

/-! ## Steps -/

section
variable {S : Setup} {s t : State} {i now : Nat} {c c' : Call} {a : Input} {es : List Event}
  {ledger : List Int}

theorem usesProvider_stage {p : Phase} (h : p.usesProvider = true) : p.stage = .inside := by
  cases p with
  | attempting | streaming | pulling => rfl
  | _ => cases h

theorem slotNote_other (h : a.target ≠ some i) : slotNote i s a t = [] :=
  if_neg fun hi => h hi.1

theorem slotNote_same (h : t.free = s.free) : slotNote i s a t = [] := if_neg fun hi => hi.2 h

theorem slotNote_taken (ha : a.target = some i) (h : t.free + 1 = s.free) :
    slotNote i s a t = [1] := by
  rw [slotNote, if_pos ⟨ha, by omega⟩]
  congr 1
  omega

theorem slotNote_given (ha : a.target = some i) (h : t.free = s.free + 1) :
    slotNote i s a t = [-1] := by
  rw [slotNote, if_pos ⟨ha, by omega⟩]
  congr 1
  omega

/-- The books of the call that a step is about. -/
theorem Stage.Books.shift {p p' : Phase} (h : p.stage.Books ledger) (ha : a.target = some i)
    (hs : Shift S now i p s.gate p' t.gate) : p'.stage.Books (ledger ++ slotNote i s a t) := by
  have unchanged : t.gate.free = s.gate.free → ledger ++ slotNote i s a t = ledger := by
    intro hfree
    rw [slotNote_same hfree, List.append_nil]
  generalize hg : t.gate = g at hs unchanged
  have hfree : t.free = g.free := congrArg Gate.free hg
  cases hs with
  | stay hp =>
    rw [unchanged rfl, hp]
    exact h
  | letIn hp _ hpos | lineUp hp _ hpos =>
    rw [hp] at h
    have htaken : t.free + 1 = s.free := by
      rw [hfree]
      exact Nat.sub_add_cancel hpos
    rw [slotNote_taken ha htaken, show ledger = [] from h]
    rfl
  | pass hp =>
    rw [hp] at h
    rw [unchanged rfl]
    exact h
  | refuse hp hp' =>
    rw [hp] at h
    rw [unchanged rfl, hp']
    exact .inl h
  | settle hp hp' =>
    rw [hp']
    cases hst : p.stage with
    | settled => exact absurd hst hp
    | outside =>
      rw [hst] at h hfree
      rw [slotNote_same hfree, List.append_nil]
      exact .inl h
    | inside =>
      rw [hst] at h hfree
      rw [slotNote_given ha hfree, show ledger = [1] from h]
      exact .inr rfl

/-- The slots that calls hold, and the change of one call. -/
theorem countP_holdsSlot_set {calls : List Call} (hc : calls[i]? = some c) (c' : Call) :
    (calls.set i c').countP (·.phase.holdsSlot) + c.phase.stage.slots =
      calls.countP (·.phase.holdsSlot) + c'.phase.stage.slots := by
  obtain ⟨hi, rfl⟩ := List.getElem?_eq_some_iff.1 hc
  rw [List.countP_set hi, Phase.slots_eq, Phase.slots_eq]
  have hle : (if calls[i].phase.holdsSlot = true then 1 else 0) ≤
      calls.countP (·.phase.holdsSlot) := by
    split
    · next h => exact List.countP_pos_iff.2 ⟨_, List.getElem_mem hi, h⟩
    · exact Nat.zero_le _
  omega

/-- A slot that is not free any more is held by the call that took it. -/
theorem Shift.conserves {p p' : Phase} {g g' : Gate} (h : Shift S now i p g p' g') :
    g'.free + p'.stage.slots = g.free + p.stage.slots := by
  cases h with
  | stay hp => rw [hp]
  | letIn hp _ hpos | lineUp hp _ hpos =>
    rw [hp]
    exact Nat.sub_add_cancel hpos
  | pass hp =>
    rw [hp]
    rfl
  | refuse hp hp' =>
    rw [hp, hp']
    rfl
  | settle _ hp' =>
    rw [hp']
    rfl

theorem step_conserves (h : step? S s a = some t) :
    t.free + t.calls.countP (·.phase.holdsSlot) = s.free + s.calls.countP (·.phase.holdsSlot) := by
  match ha : a.target with
  | none =>
    obtain ⟨hcalls, hgate⟩ := step_tick h ha
    rw [hcalls, show t.free = s.free from congrArg Gate.free hgate]
  | some i =>
    obtain ⟨c, c', hc, hcalls, hshift⟩ := step_shift h ha
    have hcount := countP_holdsSlot_set hc c'
    have hfree : t.free + c'.phase.stage.slots = s.free + c.phase.stage.slots := hshift.conserves
    rw [hcalls]
    omega

theorem not_isLast_of_isTold {e : Event} (h : e.isTold = true) : e.isLast = false := by
  cases e <;> first | rfl | cases h

theorem not_isLast_tell {why : Telling} (h : why.stage ≠ .settled) (who : Identity) (next : Nat) :
    ∀ e ∈ (S.tell now who why next).1, e.isLast = false := by
  apply tell_elim (P := fun es _ => ∀ e ∈ es, e.isLast = false)
  · intro told n due hq e he
    exact not_isLast_of_isTold (hq e he)
  · intro told hq e he
    cases why with
    | start =>
      rw [Telling.parting, List.append_nil] at he
      exact not_isLast_of_isTold (hq e he)
    | settle | abandon => exact absurd rfl h

/-- What comes last to a call settles it. -/
theorem Move.not_isLast (hm : Move S now a c es c') (hp : c'.phase.stage ≠ .settled) :
    c.phase.stage ≠ .settled ∧ ∀ e ∈ es, e.isLast = false := by
  cases hm with
  | cancel => exact ⟨hp, List.forall_mem_nil _⟩
  | make hunmade =>
    exact ⟨by simp [hunmade, Phase.stage], not_isLast_tell (by simp [Telling.stage]) _ _⟩
  | tell hwhy =>
    rw [stage_tell] at hp
    exact ⟨by rw [hwhy, stage_telling]; exact hp, not_isLast_tell hp _ _⟩
  | pace hc | backOff hc | pull hc =>
    exact ⟨by simp [hc, Phase.stage], List.forall_mem_nil _⟩
  | attempt hs =>
    have hstage : c.phase.stage ≠ .settled := by
      cases hs with
      | admitted hc | paced hc | again hc => simp [hc, Phase.stage]
    exact ⟨hstage, by simp [Event.isLast]⟩
  | commit hc => exact ⟨by simp [hc, Phase.stage], by simp [Event.isLast]⟩
  | replay hc hf => exact ⟨by simp [hc, Phase.stage], by simp [Event.isLast, Delta.stamp, hf]⟩
  | deliver hc _ _ _ hf =>
    exact ⟨by simp [hc, Phase.stage], by simp [Event.isLast, Delta.stamp, hf]⟩
  | decide => exact absurd (stage_tell ..) hp
  | refuse | close | forsake | letGo => exact absurd rfl hp

end

/-! ## Runs -/

section
variable {S : Setup} {n i : Nat} {inputs : List Input} {s : State} {c : Call}

theorem books_of_run (h : run? S (.start S n) inputs = some s) :
    ∀ {i : Nat} {c : Call}, s.calls[i]? = some c →
      c.phase.stage.Books (slotLedger S i (.start S n) inputs) := by
  refine run_induction (S := S) (s := .start S n)
    (P := fun as s => ∀ {i : Nat} {c : Call}, s.calls[i]? = some c →
      c.phase.stage.Books (slotLedger S i (.start S n) as)) ?_ ?_ h
  · intro i c hc
    obtain ⟨hi, rfl⟩ := List.getElem?_eq_some_iff.1 hc
    simp only [State.start, List.getElem_replicate]
    rfl
  · intro as m t a hm ih hs i c hc
    rw [slotLedger, along_concat hm hs]
    by_cases ha : a.target = some i
    · obtain ⟨d, d', hd, hd', hshift⟩ := step_shift_call hs ha
      obtain rfl : d' = c := Option.some.inj (hd'.symm.trans hc)
      exact (ih hd).shift ha hshift
    · rw [slotNote_other ha, List.append_nil]
      exact ih ((step_other hs ha).1.symm.trans hc)

theorem free_add_holders (h : run? S (.start S n) inputs = some s) :
    s.free + s.calls.countP (·.phase.holdsSlot) = S.options.slots := by
  refine run_keeps (P := fun s => s.free + s.calls.countP (·.phase.holdsSlot) = S.options.slots)
    (fun hs hstep => (step_conserves hstep).trans hs) ?_ h
  have hnone : (State.start S n).calls.countP (·.phase.holdsSlot) = 0 := by
    apply List.countP_eq_zero.2
    intro c hc
    rw [List.eq_of_mem_replicate hc]
    nofun
  rw [hnone]
  rfl

/-- A call with something that comes last is settled. -/
theorem settled_of_isLast (h : run? S (.start S n) inputs = some s) (hc : s.calls[i]? = some c)
    (hlast : ∃ e ∈ s.events i, e.isLast) : c.phase.stage = .settled := by
  have key : ∀ c, s.calls[i]? = some c → c.phase.stage ≠ .settled →
      ∀ e ∈ s.events i, e.isLast = false := by
    refine run_keeps (P := fun s => ∀ c, s.calls[i]? = some c → c.phase.stage ≠ .settled →
      ∀ e ∈ s.events i, e.isLast = false) ?_ ?start h
    case start => simp [State.events, State.trace, State.start]
    intro s t a ih hs d hd hp
    obtain ⟨es, c, hc, ht, ⟨rfl, rfl⟩ | ⟨-, hm⟩⟩ := step_call_before hs hd
    · rw [events_append ht, List.append_nil]
      exact ih d hc hp
    · obtain ⟨hcp, hes⟩ := hm.not_isLast hp
      rw [events_append ht]
      intro e he
      rcases List.mem_append.1 he with he | he
      · exact ih c hc hcp e he
      · exact hes e he
  by_contra hp
  obtain ⟨e, he, hl⟩ := hlast
  rw [key c hc hp e he] at hl
  cases hl

/-- The free slots and the calls that hold one are always as many as the client has, so no more
attempts and open streams than that are under way. A call that holds a slot took it and did nothing
else to the slots, at whatever attempt it is; one that holds none took none, or took one and gave
it back. A call that is settled, or whose caller got something that comes last, holds none. -/
theorem slots_conserved (h : run? S (.start S n) inputs = some s) :
    s.free + s.calls.countP (·.phase.holdsSlot) =
        max 1 (min S.options.maxConcurrent Resilience.maxSlots) ∧
      s.calls.countP (·.phase.usesProvider) ≤
        max 1 (min S.options.maxConcurrent Resilience.maxSlots) ∧
      ∀ i c, s.calls[i]? = some c →
        (c.phase.usesProvider = true → c.phase.holdsSlot = true) ∧
        (c.phase.stage = .settled ∨ (∃ e ∈ s.events i, e.isLast) → c.phase.holdsSlot = false) ∧
        (c.phase.holdsSlot = true → slotLedger S i (.start S n) inputs = [1]) ∧
        (c.phase.holdsSlot = false → slotLedger S i (.start S n) inputs = [] ∨
          slotLedger S i (.start S n) inputs = [1, -1]) ∧
        ∀ more t d, run? S s more = some t → t.calls[i]? = some d → c.phase.holdsSlot = true →
          d.phase.holdsSlot = true → slotLedger S i s more = [] := by
  have hfree := free_add_holders h
  rw [Resilience.Options.slots] at hfree
  have inside : ∀ {inputs : List Input} {s : State} {i : Nat} {c : Call},
      run? S (.start S n) inputs = some s → s.calls[i]? = some c → c.phase.holdsSlot = true →
      slotLedger S i (.start S n) inputs = [1] := by
    intro inputs s i c h hc hp
    have hbooks := books_of_run h hc
    rw [Phase.holdsSlot_eq, beq_iff_eq] at hp
    rw [hp] at hbooks
    exact hbooks
  refine ⟨hfree, ?_, fun i c hc => ⟨?_, ?_, inside h hc, ?_, ?_⟩⟩
  · have hmono : s.calls.countP (·.phase.usesProvider) ≤ s.calls.countP (·.phase.holdsSlot) :=
      List.countP_mono_left fun c _ hu => by rw [Phase.holdsSlot_eq, usesProvider_stage hu]; rfl
    omega
  · intro hu
    rw [Phase.holdsSlot_eq, usesProvider_stage hu]
    rfl
  · intro hp
    rw [Phase.holdsSlot_eq, hp.elim id (settled_of_isLast h hc)]
    rfl
  · intro hp
    have hbooks := books_of_run h hc
    rw [Phase.holdsSlot_eq] at hp
    cases hst : c.phase.stage with
    | outside => rw [hst] at hbooks; exact .inl hbooks
    | inside => rw [hst] at hp; cases hp
    | settled => rw [hst] at hbooks; exact hbooks
  · intro more t d hr hd hp hq
    have hall := inside (run_append.2 ⟨s, h, hr⟩) hd hq
    rw [slotLedger, along_append h, show along S (slotNote i) (.start S n) inputs = [1] from
      inside h hc hp] at hall
    exact List.append_cancel_left (hall.trans (List.append_nil [1]).symm)

end

/-- A client with one slot that repeats an attempt. -/
def narrow : Setup :=
  { registry := ⟨[("p", ())]⟩
    options := { jitter := false, initialBackoff := 10, maxConcurrent := 0 }
    hooks := [] }

/-- Two calls are made, and the first attempt of the one that got the slot fails. -/
def failedOnce : List Input :=
  let ask : Request := ⟨"p/m", [], none, none, none⟩
  let failing : Work Outcome := ⟨some 3, .failure (.transport "reset")⟩
  [.call 0 "r" "c" ask, .call 1 "r" "c" ask, .poll 0 failing 0, .tick 3, .poll 0 failing 0]

/-- The slot is held in the pause before a retry and while it is made, and no other call gets it. -/
theorem slot_kept_for_retry : ∃ s t,
    run? narrow (.start narrow 2) failedOnce = some s ∧
      run? narrow s [.tick 13, .poll 0 ⟨none, .failure .cancelled⟩ 0] = some t ∧
      attempts (t.events 0) = [0, 1] ∧ s.free + s.calls.countP (·.phase.holdsSlot) = 1 ∧
      s.calls.countP (·.phase.holdsSlot) = 1 ∧
      slotLedger narrow 0 (.start narrow 2) failedOnce = [1] ∧
      slotLedger narrow 0 s [.tick 13, .poll 0 ⟨none, .failure .cancelled⟩ 0] = [] := by
  have hs : ∃ s, run? narrow (.start narrow 2) failedOnce = some s := ⟨_, rfl⟩
  obtain ⟨s, hs⟩ := hs
  obtain ⟨hfree, -, hcalls⟩ := slots_conserved hs
  obtain rfl := Option.some.inj hs
  obtain ⟨-, -, hledger, -, hkept⟩ := hcalls 0 _ rfl
  exact ⟨_, _, hs, rfl, rfl, hfree, rfl, hledger rfl, hkept _ _ _ rfl rfl rfl rfl⟩

end Switchboard.Client
