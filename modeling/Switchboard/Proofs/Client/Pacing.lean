import Mathlib.Data.List.Chain
import Mathlib.Data.List.Nodup
import Switchboard.Proofs.Client.Admission
import Switchboard.Proofs.Client.Schedule

/-!
# Calls at a distance

Where calls must keep a distance, `passes` are the calls whose turn came along a run, with the
instants. The instant of the next turn follows from the last of them alone (`Paced`), so a call that
leaves the queue without having had its turn delays nobody, and the queue is exactly the calls that
wait for their turn (`Lined`). Both are kept by every step; `turns_keep_distance` is what they say
of a run.
-/

namespace Switchboard.Client

open Chat

def Phase.isPacing : Phase → Bool
  | pacing => true
  | _ => false

def Phase.isAttempting : Phase → Bool
  | attempting .. => true
  | _ => false

/-- The call that a step lets through from waiting for its turn to its first attempt, and when. -/
def passNote (s : State) (a : Input) (t : State) : List (Nat × Nat) :=
  match a.target with
  | some i =>
    if s.calls[i]?.any (·.phase.isPacing) && t.calls[i]?.any (·.phase.isAttempting) then
      [(s.now, i)]
    else []
  | none => []

/-- The instants at which calls were let through along a run, and which. -/
def passes (S : Setup) (s : State) (inputs : List Input) : List (Nat × Nat) :=
  along S passNote s inputs

/-- The calls that wait for their turn are queued, each once. -/
structure Lined (calls : List Call) (turns : List Nat) : Prop where
  nodup : turns.Nodup
  mem_iff : ∀ i, i ∈ turns ↔ ∃ c, calls[i]? = some c ∧ c.phase = .pacing

/-- These calls were let through where calls must start `D` apart. -/
structure Paced (D : Nat) (log : List (Nat × Nat)) (s : State) : Prop where
  next : s.nextTurn = log.getLast?.map fun p => Duration.later p.1 D
  past : ∀ p ∈ log, p.1 ≤ s.now
  apart : log.IsChain fun p q => Duration.later p.1 D ≤ q.1
  /-- A call that holds a slot waits for its turn or had it. -/
  through : ∀ i c, s.calls[i]? = some c → c.phase.stage = .inside → c.phase ≠ .pacing →
    ∃ p ∈ log, p.2 = i
  attempts : ∀ i, ∀ x ∈ attemptTimes (s.trace i), ∃ p ∈ log, p.2 = i ∧ p.1 ≤ x.1

/-! ## The queue -/

section
variable {S : Setup} {s t : State} {i now : Nat} {c c' : Call} {a : Input}

/-- Only the place of the call that a step is about can change. -/
theorem Lined.set {calls : List Call} {turns turns' : List Nat} (h : Lined calls turns)
    (hi : i < calls.length) (hnodup : turns'.Nodup)
    (hothers : ∀ j, j ≠ i → (j ∈ turns' ↔ j ∈ turns))
    (hself : i ∈ turns' ↔ c'.phase = .pacing) : Lined (calls.set i c') turns' := by
  refine ⟨hnodup, fun j => ?_⟩
  by_cases hj : j = i
  · subst hj
    rw [hself, List.getElem?_set_self hi]
    simp
  · rw [hothers j hj, h.mem_iff, List.getElem?_set_ne (Ne.symm hj)]

theorem Lined.shift {calls : List Call} {g g' : Gate} (h : Lined calls g.turns)
    (hc : calls[i]? = some c) (hs : Shift S now i c.phase g c'.phase g') :
    Lined (calls.set i c') g'.turns := by
  obtain ⟨hi, -⟩ := List.getElem?_eq_some_iff.1 hc
  have hself : i ∈ g.turns ↔ c.phase = .pacing := by
    rw [h.mem_iff, hc]
    simp
  generalize hq : c'.phase = q at hs
  cases hs with
  | stay _ hpace =>
    exact h.set hi h.nodup (fun _ _ => Iff.rfl) (by rw [hself, hq]; exact hpace.symm)
  | letIn hp => exact h.set hi h.nodup (fun _ _ => Iff.rfl) (by simp [hself, hp, hq])
  | lineUp hp =>
    have hnot : i ∉ g.turns := by
      rw [hself, hp]
      nofun
    refine h.set hi ?_ (fun j hj => by simp [hj]) (by simp [hq])
    exact h.nodup.append (List.nodup_singleton i) (by simpa using hnot)
  | pass hp hfirst =>
    obtain ⟨rest, hrest⟩ := List.head?_eq_some_iff.1 hfirst
    have hnodup := h.nodup
    rw [hrest, List.nodup_cons] at hnodup
    refine h.set hi ?_ (fun j hj => ?_) ?_
    · simpa [hrest] using hnodup.2
    · simp [hrest, hj]
    · simp [hrest, hq, hnodup.1]
  | refuse hp hp' =>
    refine h.set hi h.nodup (fun _ _ => Iff.rfl) (hself.trans ?_)
    constructor <;> intro hpace
    · rw [hpace] at hp
      cases hp
    · rw [← hq, hpace] at hp'
      cases hp'
  | settle _ hp' =>
    refine h.set hi (h.nodup.erase i) (fun j hj => List.mem_erase_of_ne hj) ?_
    have hpace : c'.phase ≠ .pacing := by
      intro hpace
      rw [← hq, hpace] at hp'
      cases hp'
    simp [h.nodup.not_mem_erase, hpace]

theorem Lined.step (h : Lined s.calls s.turns) (hs : step? S s a = some t) :
    Lined t.calls t.turns := by
  match ha : a.target with
  | none =>
    obtain ⟨hcalls, hgate⟩ := step_tick hs ha
    rwa [hcalls, show t.turns = s.turns from congrArg Gate.turns hgate]
  | some i =>
    obtain ⟨c, c', hc, hcalls, hshift⟩ := step_shift hs ha
    rw [hcalls]
    exact Lined.shift (g := s.gate) h hc hshift

theorem lined_start (S : Setup) (n : Nat) :
    Lined (State.start S n).calls (State.start S n).turns := by
  refine ⟨List.nodup_nil, fun i => ?_⟩
  constructor
  · nofun
  · rintro ⟨c, hc, hp⟩
    obtain ⟨hi, rfl⟩ := List.getElem?_eq_some_iff.1 hc
    simp only [State.start, List.getElem_replicate] at hp
    cases hp

end

/-! ## Turns -/

section
variable {S : Setup} {s t : State} {i now : Nat} {c c' : Call} {a : Input} {es : List Event}

theorem isPacing_iff {p : Phase} : p.isPacing = true ↔ p = .pacing := by
  cases p <;> simp [Phase.isPacing]

theorem passNote_eq (ha : a.target = some i) (hc : s.calls[i]? = some c)
    (hc' : t.calls[i]? = some c') :
    passNote s a t =
      if c.phase.isPacing && c'.phase.isAttempting then [(s.now, i)] else [] := by
  simp [passNote, ha, hc, hc']

theorem passNote_eq_nil (ha : a.target = some i) (hc : s.calls[i]? = some c)
    (hc' : t.calls[i]? = some c') (h : c.phase = .pacing → c'.phase.isAttempting = false) :
    passNote s a t = [] := by
  rw [passNote_eq ha hc hc', if_neg]
  intro hboth
  obtain ⟨hp, hq⟩ := Bool.and_eq_true_iff.1 hboth
  rw [h (isPacing_iff.1 hp)] at hq
  cases hq

/-- Call `i` was first in line, its turn had come, and it is let through. -/
structure Lets (S : Setup) (s t : State) (i : Nat) : Prop where
  first : s.turns.head? = some i
  due : s.nextTurn.all (· ≤ s.now) = true
  turns : t.turns = s.turns.tail
  next : t.nextTurn = S.options.minDelay.map (Duration.later s.now)

/-- A step lets its call through or leaves the next turn where it is. -/
theorem Shift.lets (h : Shift S s.now i c.phase s.gate c'.phase t.gate)
    (ha : a.target = some i) (hc : s.calls[i]? = some c) (hc' : t.calls[i]? = some c') :
    (c.phase = .pacing ∧ passNote s a t = [(s.now, i)] ∧ Lets S s t i) ∨
      passNote s a t = [] ∧ t.nextTurn = s.nextTurn := by
  have hnote := passNote_eq ha hc hc'
  have hnil := passNote_eq_nil ha hc hc'
  generalize hg : t.gate = g at h
  generalize hq : c'.phase = q at h hnote hnil
  cases h with
  | stay hstage hpace =>
    refine .inr ⟨hnil fun hp => ?_, congrArg Gate.nextTurn hg⟩
    rw [hpace.2 hp]
    rfl
  | letIn hp | lineUp hp =>
    refine .inr ⟨hnil fun hp' => ?_, congrArg Gate.nextTurn hg⟩
    rw [hp] at hp'
    cases hp'
  | pass hp hfirst hdue =>
    rw [hp] at hnote
    exact .inl ⟨hp, hnote, hfirst, hdue, congrArg Gate.turns hg, congrArg Gate.nextTurn hg⟩
  | refuse _ hstage | settle _ hstage =>
    refine .inr ⟨hnil fun _ => ?_, congrArg Gate.nextTurn hg⟩
    cases q <;> first | rfl | cases hstage

/-- A move that makes an attempt goes on to it. -/
theorem Move.attempts_eq (hm : Move S now a c es c') :
    attempts es = [] ∨ ∃ n, attempts es = [n] ∧ Starts S now c n ∧
      c'.phase.isAttempting = true := by
  cases hm with
  | attempt hs => exact .inr ⟨_, rfl, hs, rfl⟩
  | make | tell | decide => exact .inl (attempts_tell ..)
  | _ => exact .inl rfl

/-- A call that waits is let through if it is first in line and the next turn has come. -/
theorem poll_pacing (hc : s.calls[i]? = some c) (hp : c.phase = .pacing)
    (hcan : c.cancelled = false) (hfirst : s.turns.head? = some i) (w : Work Outcome)
    (spread : Nat) :
    s.nextTurn.all (· ≤ s.now) = true ↔
      ∃ t, step? S s (.poll i w spread) = some t ∧
        passNote s (.poll i w spread) t = [(s.now, i)] := by
  have hstep : step? S s (.poll i w spread) = if s.nextTurn.all (· ≤ s.now) = true then
      some ({ s with
        turns := s.turns.tail
        nextTurn := S.options.minDelay.map (Duration.later s.now) }.attempt S i c 0 w)
      else none := by
    simp [step?, State.poll, hc, hp, hcan, hfirst]
  rw [hstep]
  constructor
  · intro hdue
    obtain ⟨hi, -⟩ := List.getElem?_eq_some_iff.1 hc
    rw [if_pos hdue]
    refine ⟨_, rfl, ?_⟩
    rw [passNote_eq (a := .poll i w spread) rfl hc (List.getElem?_set_self hi), hp]
    rfl
  · rintro ⟨t, ht, -⟩
    split at ht
    · next hdue => exact hdue
    · cases ht

/-- A call that waits for its turn leaves the queue when it is dropped, or polled after it was
cancelled. -/
theorem step_leave (hc : s.calls[i]? = some c) (hp : c.phase = .pacing)
    (ha : a = .drop i ∨ c.cancelled = true ∧ ∃ w spread, a = .poll i w spread) :
    ∃ t, step? S s a = some t ∧ passNote s a t = [] ∧ t.nextTurn = s.nextTurn ∧
      t.turns = s.turns.erase i := by
  have leaves : ∀ t c', step? S s a = some t → a.target = some i → t.calls[i]? = some c' →
      c'.phase.stage = .settled → t.gate =
        { s.gate with free := s.free + c.phase.stage.slots, turns := s.turns.erase i } →
      ∃ t, step? S s a = some t ∧ passNote s a t = [] ∧ t.nextTurn = s.nextTurn ∧
        t.turns = s.turns.erase i := by
    intro t c' hs ht hc' hstage hgate
    refine ⟨t, hs, passNote_eq_nil ht hc hc' fun _ => ?_, congrArg Gate.nextTurn hgate,
      congrArg Gate.turns hgate⟩
    revert hstage
    cases c'.phase with
    | attempting => nofun
    | _ => exact fun _ => rfl
  rcases ha with rfl | ⟨hcan, w, spread, rfl⟩
  · have hd := ((((Did.refl hc).record .dropped).release c).leave).setPhase c
      (.telling .abandon 0 s.now)
    refine leaves ((s.record i .dropped).abandon i c) _ ?_ rfl (hd.call hc) rfl
      (State.gate_leave (s.record i .dropped) i c)
    simp [step?, State.drop, hc, hp]
  · have hd := (Did.refl hc).settle (S := S) c (.failed .cancelled) (.failure .cancelled)
    refine leaves (s.fail S i c .cancelled) _ ?_ rfl (hd.call hc) (stage_tell ..)
      (State.gate_settle S s i c _ _)
    simp [step?, State.poll, hc, hp, hcan]

end

/-! ## Runs -/

section
variable {S : Setup} {D n : Nat} {s t : State} {log : List (Nat × Nat)} {a : Input}

theorem paced_start (S : Setup) (D n : Nat) : Paced D [] (State.start S n) where
  next := rfl
  past := nofun
  apart := .nil
  through i c hc hp := by
    obtain ⟨hi, rfl⟩ := List.getElem?_eq_some_iff.1 hc
    simp only [State.start, List.getElem_replicate] at hp
    cases hp
  attempts := nofun

/-- The log of a step that lets a call through. -/
theorem Paced.pass (h : Paced D log s) (hD : S.options.minDelay = some D) {i : Nat}
    (hl : Lets S s t i) :
    t.nextTurn = (log ++ [(s.now, i)]).getLast?.map (fun p => Duration.later p.1 D) ∧
      (log ++ [(s.now, i)]).IsChain fun p q => Duration.later p.1 D ≤ q.1 := by
  constructor
  · simp [hl.next, hD]
  · refine List.isChain_append.2 ⟨h.apart, .singleton _, ?_⟩
    intro p hp q hq
    cases hq
    have hdue := hl.due
    rw [h.next, hp] at hdue
    simpa using hdue

/-- A call that comes to hold a slot without waiting for its turn had it before, or is let
through. -/
theorem Shift.through {i : Nat} {c c' : Call} (h : Shift S s.now i c.phase s.gate c'.phase t.gate)
    (hD : S.options.minDelay = some D) (hin : c'.phase.stage = .inside)
    (hpace : c'.phase ≠ .pacing) :
    c.phase.stage = .inside ∧ (c.phase = .pacing → c'.phase.isAttempting = true) := by
  generalize t.gate = g at h
  generalize c'.phase = q at h hin hpace
  cases h with
  | stay hstage hiff => exact ⟨hstage.symm.trans hin, fun hp => absurd (hiff.2 hp) hpace⟩
  | letIn _ hm =>
    rw [hD] at hm
    cases hm
  | lineUp => exact absurd rfl hpace
  | pass hp => exact ⟨by rw [hp]; rfl, fun _ => rfl⟩
  | refuse _ hstage | settle _ hstage =>
    rw [hstage] at hin
    cases hin

/-- What a step does to the calls that were let through, apart from when the next one is. -/
theorem Paced.step_calls (h : Paced D log s) (hD : S.options.minDelay = some D) {i : Nat}
    (hs : step? S s a = some t) (ha : a.target = some i) :
    (∀ j d, t.calls[j]? = some d → d.phase.stage = .inside → d.phase ≠ .pacing →
        ∃ p ∈ log ++ passNote s a t, p.2 = j) ∧
      ∀ j, ∀ x ∈ attemptTimes (t.trace j), ∃ p ∈ log ++ passNote s a t, p.2 = j ∧ p.1 ≤ x.1 := by
  obtain ⟨c, es, c', hc, hc', hm, htr⟩ := step_move hs ha
  obtain ⟨c₂, c₂', hc₂, hc₂', hshift⟩ := step_shift_call hs ha
  obtain rfl : c₂ = c := Option.some.inj (hc₂.symm.trans hc)
  obtain rfl : c₂' = c' := Option.some.inj (hc₂'.symm.trans hc')
  have before : ∀ {j : Nat}, (∃ p ∈ log, p.2 = j) → ∃ p ∈ log ++ passNote s a t, p.2 = j :=
    fun ⟨p, hp, hj⟩ => ⟨p, List.mem_append_left _ hp, hj⟩
  have passed : c₂.phase = .pacing → c₂'.phase.isAttempting = true →
      (s.now, i) ∈ log ++ passNote s a t := by
    intro hp hq
    rw [passNote_eq ha hc hc', hp, hq]
    exact List.mem_append_right _ (List.mem_singleton_self _)
  constructor
  · intro j d hd hin hpace
    by_cases hj : j = i
    · subst hj
      obtain rfl : d = c₂' := Option.some.inj (hd.symm.trans hc')
      obtain ⟨hin', hlet⟩ := hshift.through hD hin hpace
      by_cases hp : c₂.phase = .pacing
      · exact ⟨_, passed hp (hlet hp), rfl⟩
      · exact before (h.through j c₂ hc hin' hp)
    · rw [(step_other hs (by rw [ha]; exact fun e => hj (Option.some.inj e).symm)).1] at hd
      exact before (h.through j d hd hin hpace)
  · intro j x hx
    by_cases hj : j = i
    · subst hj
      rw [htr, attemptTimes_append, attemptTimes_at] at hx
      rcases List.mem_append.1 hx with hx | hx
      · obtain ⟨p, hp, hpj⟩ := h.attempts j x hx
        exact ⟨p, List.mem_append_left _ hp, hpj⟩
      · obtain hes | ⟨k, hes, hstarts, hq⟩ := hm.attempts_eq
        · rw [hes] at hx
          cases hx
        · rw [hes, List.map_singleton, List.mem_singleton] at hx
          subst hx
          cases hstarts with
          | admitted _ hmin =>
            rw [hD] at hmin
            cases hmin
          | paced hp => exact ⟨_, passed hp hq, rfl, Nat.le_refl _⟩
          | again hp =>
            obtain ⟨p, hp, hpj⟩ := h.through j c₂ hc (by rw [hp]; rfl) (by rw [hp]; nofun)
            exact ⟨p, List.mem_append_left _ hp, hpj, h.past p hp⟩
    · rw [(step_other hs (by rw [ha]; exact fun e => hj (Option.some.inj e).symm)).2] at hx
      obtain ⟨p, hp, hpj⟩ := h.attempts j x hx
      exact ⟨p, List.mem_append_left _ hp, hpj⟩

theorem Paced.step (h : Paced D log s) (hD : S.options.minDelay = some D)
    (hs : step? S s a = some t) : Paced D (log ++ passNote s a t) t := by
  have hnow : s.now ≤ t.now := by
    rcases step_now hs with hnow | ⟨-, hle⟩
    · exact Nat.le_of_eq hnow.symm
    · exact hle
  match ha : a.target with
  | none =>
    obtain ⟨hcalls, hgate⟩ := step_tick hs ha
    have hnote : passNote s a t = [] := by rw [passNote, ha]
    rw [hnote, List.append_nil]
    refine ⟨(congrArg Gate.nextTurn hgate).trans h.next,
      fun p hp => Nat.le_trans (h.past p hp) hnow, h.apart,
      fun i c hc => h.through i c (hcalls ▸ hc), fun i x hx => h.attempts i x ?_⟩
    rwa [(step_other (i := i) hs (by rw [ha]; nofun)).2] at hx
  | some i =>
    obtain ⟨c, c', hc, hc', hshift⟩ := step_shift_call hs ha
    obtain ⟨hthrough, hattempts⟩ := h.step_calls hD hs ha
    obtain ⟨-, hnote, hlets⟩ | ⟨hnote, hnext⟩ := hshift.lets ha hc hc'
    · rw [hnote] at hthrough hattempts ⊢
      obtain ⟨hnext, hchain⟩ := h.pass hD hlets
      refine ⟨hnext, fun p hp => ?_, hchain, hthrough, hattempts⟩
      rcases List.mem_append.1 hp with hp | hp
      · exact Nat.le_trans (h.past p hp) hnow
      · rw [List.mem_singleton.1 hp]
        exact hnow
    · rw [hnote, List.append_nil] at hthrough hattempts ⊢
      exact ⟨hnext.trans h.next, fun p hp => Nat.le_trans (h.past p hp) hnow, h.apart, hthrough,
        hattempts⟩

theorem paced_of_run {inputs : List Input} (hD : S.options.minDelay = some D)
    (h : run? S (.start S n) inputs = some s) :
    Paced D (passes S (.start S n) inputs) s := by
  refine run_induction (S := S) (s := .start S n)
    (P := fun as s => Paced D (passes S (.start S n) as) s) (paced_start S D n) ?_ h
  intro as m t a hm ih hs
  rw [passes, along_concat hm hs]
  exact ih.step hD hs

/-- Where calls must start `D` apart, two consecutive calls are let through at least that far apart,
or thirty years where the clock cannot show an instant so late, and no call makes an attempt before
it is let through. When the next turn comes depends on the last call that was let through and on
nothing else. The calls that wait for their turn are in line, and the first of them is let through
when it is polled, at once if none was before it and else from `D` after the last one that was. A
call that is dropped or gives up in line makes way for the next one and does not move the next
turn. -/
theorem turns_keep_distance {inputs : List Input} (hD : S.options.minDelay = some D)
    (h : run? S (.start S n) inputs = some s) :
    ((passes S (.start S n) inputs).IsChain fun p q => Duration.later p.1 D ≤ q.1) ∧
      ((passes S (.start S n) inputs).IsChain fun p q =>
        (p.1 + D ≤ Duration.lastInstant → p.1 + D ≤ q.1) ∧
          (Duration.lastInstant < p.1 + D → p.1 + Duration.farFuture ≤ q.1)) ∧
      s.nextTurn = (passes S (.start S n) inputs).getLast?.map (fun p => Duration.later p.1 D) ∧
      (∀ i, ∀ x ∈ attemptTimes (s.trace i),
        ∃ p ∈ passes S (.start S n) inputs, p.2 = i ∧ p.1 ≤ x.1) ∧
      Lined s.calls s.turns ∧
      (∀ i c, s.calls[i]? = some c → c.cancelled = false → s.turns.head? = some i →
        ∀ w spread, (∃ t, step? S s (.poll i w spread) = some t ∧
            passNote s (.poll i w spread) t = [(s.now, i)]) ↔
          ∀ p, (passes S (.start S n) inputs).getLast? = some p →
            Duration.later p.1 D ≤ s.now) ∧
      ∀ i c a, s.calls[i]? = some c → c.phase = .pacing →
        (a = .drop i ∨ c.cancelled = true ∧ ∃ w spread, a = .poll i w spread) →
        ∃ t, step? S s a = some t ∧ passNote s a t = [] ∧ t.nextTurn = s.nextTurn ∧
          t.turns = s.turns.erase i := by
  have hpaced := paced_of_run hD h
  have hlined : Lined s.calls s.turns :=
    run_keeps (P := fun s => Lined s.calls s.turns) Lined.step (lined_start S n) h
  have hfar : ∀ p q : Nat × Nat, Duration.later p.1 D ≤ q.1 →
      (p.1 + D ≤ Duration.lastInstant → p.1 + D ≤ q.1) ∧
        (Duration.lastInstant < p.1 + D → p.1 + Duration.farFuture ≤ q.1) := by
    intro p q hle
    exact ⟨fun h => Duration.later_of_le h ▸ hle, fun h => Duration.later_of_lt h ▸ hle⟩
  refine ⟨hpaced.apart, hpaced.apart.imp hfar, hpaced.next, hpaced.attempts, hlined,
    fun i c hc hcan hfirst w spread => ?_, fun i c a hc hp ha => step_leave hc hp ha⟩
  obtain ⟨d, hd, hp⟩ := (hlined.mem_iff i).1 (List.mem_of_mem_head? hfirst)
  obtain rfl : d = c := Option.some.inj (hd.symm.trans hc)
  rw [← poll_pacing hc hp hcan hfirst, hpaced.next]
  cases (passes S (.start S n) inputs).getLast? <;> simp

end

/-- A client whose calls start a hundred nanoseconds apart. -/
def measured : Setup :=
  { registry := ⟨[("p", ())]⟩
    options := { jitter := false, minDelay := some 100 }
    hooks := [] }

/-- Three calls are made and wait for their turn. The first is let through, the second is cancelled
while it waits, and the third is let through when the time has come. -/
def cancelledInLine : List Input :=
  let ask : Request := ⟨"p/m", [], none, none, none⟩
  let hanging : Work Outcome := ⟨none, .failure .cancelled⟩
  [.call 0 "r" "c" ask, .poll 0 hanging 0, .poll 0 hanging 0, .call 1 "r" "c" ask,
    .poll 1 hanging 0, .call 2 "r" "c" ask, .poll 2 hanging 0, .tick 50, .cancel 1,
    .poll 1 hanging 0, .tick 100, .poll 2 hanging 0]

theorem next_in_line_not_delayed : ∃ s,
    run? measured (.start measured 3) cancelledInLine = some s ∧
      passes measured (.start measured 3) cancelledInLine = [(0, 0), (100, 2)] ∧
      ((passes measured (.start measured 3) cancelledInLine).IsChain
        fun p q => Duration.later p.1 100 ≤ q.1) ∧
      ∃ p ∈ passes measured (.start measured 3) cancelledInLine, p.2 = 2 ∧ p.1 ≤ 100 := by
  have hs : ∃ s, run? measured (.start measured 3) cancelledInLine = some s := ⟨_, rfl⟩
  obtain ⟨s, hs⟩ := hs
  obtain ⟨hchain, -, -, hattempts, -⟩ := turns_keep_distance rfl hs
  obtain rfl := Option.some.inj hs
  exact ⟨_, hs, rfl, hchain, hattempts 2 (100, 0) (by decide)⟩

end Switchboard.Client
