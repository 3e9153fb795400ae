import Switchboard.Proofs.Client.Schedule

/-!
# Calls that have succeeded

A call has succeeded when its caller is handed a response or a stream, or when hooks begin to be
told of that. From then on it makes no attempt and its caller is handed no failure (`Move.won`).
-/

namespace Switchboard.Client

open Chat

/-- What a call is made for. -/
def Handover.isAnswer : Handover → Bool
  | response _ | stream => true
  | failure _ | delta _ | fault _ | close => false

def Handover.isFailure : Handover → Bool
  | failure _ => true
  | _ => false

/-- The call is over or is coming to its end, and its caller is not owed an error; or the caller has
a stream. -/
def Phase.isWon : Phase → Bool
  | .streaming _ | .pulling _ | .drained | .over | .telling .abandon _ _ => true
  | .telling (.settle _ give) _ _ => !give.isFailure
  | _ => false

/-- Since a call succeeded, `es` has happened to it. -/
structure Won (es : List Event) (p : Phase) : Prop where
  phase : p.isWon = true
  attempts : attempts es = []
  errors : ∀ e, .failure e ∉ handed es
  success : (∃ h ∈ handed es, h.isAnswer) ∨
    ∃ h next due, p = .telling (.settle .ended h) next due ∧ h.isAnswer

section
variable {S : Setup} {now : Nat} {a : Input} {c c' : Call} {es es' : List Event} {i : Nat}

@[simp]
theorem isAnswer_stamp (h : Handover) (who : Identity) : (h.stamp who).isAnswer = h.isAnswer := by
  cases h <;> rfl

theorem stamp_ne_failure {h : Handover} (hf : h.isFailure = false) (who : Identity)
    (e : ChatError) : h.stamp who ≠ .failure e := by
  cases h with
  | failure => cases hf
  | _ => nofun

theorem isFailure_of_isAnswer {h : Handover} (ha : h.isAnswer) : h.isFailure = false := by
  cases h <;> first | rfl | cases ha

theorem isWon_phaseAfter {give : Handover} : give.phaseAfter.isWon = true := by
  cases give <;> rfl

theorem not_mem_told {told : List Event} (hq : ∀ e ∈ told, e.isTold) (e : ChatError) :
    .failure e ∉ handed told := by
  rw [handed_told hq]
  exact List.not_mem_nil

theorem won_tell {why : Telling} {k d : Nat} (h : (Phase.telling why k d).isWon = true) (now : Nat)
    (who : Identity) (next : Nat) :
    (S.tell now who why next).2.isWon = true ∧ attempts (S.tell now who why next).1 = [] ∧
      ∀ e, .failure e ∉ handed (S.tell now who why next).1 := by
  refine ⟨?_, attempts_tell .., ?_⟩
  · apply tell_elim (P := fun _ p => p.isWon = true)
    · intro told n due _
      cases why <;> exact h
    · intro told _
      cases why with
      | start => cases h
      | settle => exact isWon_phaseAfter
      | abandon => rfl
  · apply tell_elim (P := fun es _ => ∀ e, .failure e ∉ handed es)
    · intro told n due hq
      exact not_mem_told hq
    · intro told hq e
      rw [handed_append, handed_told hq]
      cases why with
      | start => cases h
      | settle notice give =>
        have hf : give.isFailure = false := by simpa [Phase.isWon] using h
        intro hmem
        exact stamp_ne_failure hf who e (List.mem_singleton.1 hmem).symm
      | abandon => exact List.not_mem_nil

/-- A call that has succeeded makes no further attempt, and its caller is handed no failure. -/
theorem Move.won (hm : Move S now a c es c') (h : c.phase.isWon = true) :
    c'.phase.isWon = true ∧ attempts es = [] ∧ ∀ e, .failure e ∉ handed es := by
  cases hm with
  | cancel => exact ⟨h, rfl, fun _ => List.not_mem_nil⟩
  | refuse hp | make hp | pace hp | backOff hp | commit hp => rw [hp] at h; cases h
  | attempt hs => cases hs with
    | admitted hp | paced hp | again hp => rw [hp] at h; cases h
  | tell hp =>
    rw [hp] at h
    exact won_tell h _ _ _
  | replay | deliver | close => exact ⟨rfl, rfl, fun _ hmem => by simp at hmem⟩
  | pull | forsake | letGo => exact ⟨rfl, rfl, fun _ => List.not_mem_nil⟩
  | decide hd =>
    cases hd with
    | quit hp =>
      revert h hp
      cases c.phase <;> nofun
    | giveUp hp | respond hp | openEmpty hp => rw [hp] at h; cases h
    | interrupt | replay | finish | fault | close => exact won_tell (k := 0) (d := 0) rfl _ _ _

/-- Hooks are told of a success before the answer is handed over. -/
theorem success_tell (now : Nat) (who : Identity) {h : Handover} (ha : h.isAnswer) (next : Nat) :
    let r := S.tell now who (.settle .ended h) next
    (∃ h ∈ handed r.1, h.isAnswer) ∨
      ∃ h next due, r.2 = .telling (.settle .ended h) next due ∧ h.isAnswer := by
  apply tell_elim (P := fun es p => (∃ h ∈ handed es, h.isAnswer) ∨
    ∃ h next due, p = .telling (.settle .ended h) next due ∧ h.isAnswer)
  · intro told n due _
    exact .inr ⟨h, n, due, rfl, ha⟩
  · intro told hq
    refine .inl ⟨h.stamp who, ?_, by rwa [isAnswer_stamp]⟩
    simp [handed_told hq, Telling.parting]

theorem Won.settle (now : Nat) (who : Identity) {h : Handover} (ha : h.isAnswer) :
    Won (S.tell now who (.settle .ended h) 0).1 (S.tell now who (.settle .ended h) 0).2 := by
  have hwon : (Phase.telling (.settle .ended h) 0 0).isWon = true := by
    simp [Phase.isWon, isFailure_of_isAnswer ha]
  obtain ⟨hp, hatt, herr⟩ := won_tell (S := S) hwon now who 0
  exact ⟨hp, hatt, herr, success_tell now who ha 0⟩

/-- While hooks are told, a call goes on with that, or it is cancelled or dropped. -/
theorem Move.of_telling {why : Telling} {next due : Nat} (hm : Move S now a c es c')
    (hp : c.phase = .telling why next due) :
    c'.phase = c.phase ∧ es = [] ∨
      c'.phase = (S.tell now c.identity why next).2 ∧ es = (S.tell now c.identity why next).1 ∨
      ∃ j, a = .drop j := by
  cases hm with
  | cancel => exact .inl ⟨rfl, rfl⟩
  | tell hp' =>
    rw [hp] at hp'
    cases hp'
    exact .inr (.inl ⟨rfl, rfl⟩)
  | forsake | letGo => exact .inr (.inr ⟨_, rfl⟩)
  | attempt hs => cases hs with
    | admitted hp' | paced hp' | again hp' => rw [hp] at hp'; cases hp'
  | decide hd =>
    cases hd with
    | quit hp' => rw [hp] at hp'; cases hp'
    | interrupt hp' | giveUp hp' | respond hp' | openEmpty hp' => rw [hp] at hp'; cases hp'
    | replay hp' | finish hp' | fault hp' | close hp' => rw [hp] at hp'; cases hp'
  | refuse hp' | make hp' | pace hp' | backOff hp' | commit hp' => rw [hp] at hp'; cases hp'
  | replay hp' | pull hp' | deliver hp' | close hp' => rw [hp] at hp'; cases hp'

theorem Won.move (h : Won es c.phase) (hm : Move S now a c es' c') (ha : ∀ j, a ≠ .drop j) :
    Won (es ++ es') c'.phase := by
  obtain ⟨hp, hatt, herr⟩ := hm.won h.phase
  refine ⟨hp, by rw [attempts_append, h.attempts, hatt]; rfl, fun e hmem => ?_, ?_⟩
  · rw [handed_append, List.mem_append] at hmem
    exact hmem.elim (h.errors e) (herr e)
  rcases h.success with ⟨x, hx, hans⟩ | ⟨x, next, due, hpx, hans⟩
  · exact .inl ⟨x, by rw [handed_append]; exact List.mem_append_left _ hx, hans⟩
  obtain ⟨hp', rfl⟩ | ⟨hp', rfl⟩ | ⟨j, hj⟩ := hm.of_telling hpx
  · exact .inr ⟨x, next, due, hp'.trans hpx, hans⟩
  · rw [hp', handed_append]
    refine (success_tell now c.identity hans next).imp_left ?_
    exact fun ⟨y, hy, hy'⟩ => ⟨y, List.mem_append_right _ hy, hy'⟩
  · exact absurd hj (ha j)

end

/-- The call has succeeded: its caller was handed what it was made for, or will be when hooks have
been told. -/
def Succeeded (s : State) (i : Nat) : Prop :=
  (∃ h ∈ handed (s.events i), h.isAnswer) ∨ ∃ c h next due, s.calls[i]? = some c ∧
    c.phase = .telling (.settle .ended h) next due ∧ h.isAnswer

section
variable {S : Setup} {ok : State → Input → Prop} {s t : State} {i : Nat} {c : Call}

theorem Won.succeeded {es : List Event} (h : Won es c.phase) (hc : s.calls[i]? = some c)
    (he : es <:+ s.events i) : Succeeded s i := by
  obtain ⟨es', he⟩ := he
  refine h.success.imp ?_ ?_
  · rintro ⟨x, hx, hans⟩
    exact ⟨x, by rw [← he, handed_append]; exact List.mem_append_right _ hx, hans⟩
  · rintro ⟨x, next, due, hp, hans⟩
    exact ⟨c, x, next, due, hc, hp, hans⟩

/-- A call that has succeeded makes no further attempt. -/
theorem Reaches.quiet_of_won (h : Reaches S ok s t) (hc : s.calls[i]? = some c)
    (hp : c.phase.isWon = true) : attemptTimes (t.trace i) = attemptTimes (s.trace i) := by
  have key : ∃ d, t.calls[i]? = some d ∧ d.phase.isWon = true ∧
      attemptTimes (t.trace i) = attemptTimes (s.trace i) := by
    induction h with
    | refl => exact ⟨c, hc, hp, rfl⟩
    | step _ _ hs ih =>
      obtain ⟨d, hd, hpd, htimes⟩ := ih
      obtain ⟨es, d', hd', htr, ⟨rfl, rfl⟩ | ⟨-, hm⟩⟩ := step_call hs hd
      · rw [htr, List.map_nil, List.append_nil]
        exact ⟨d', hd', hpd, htimes⟩
      · obtain ⟨hpd', hes, -⟩ := hm.won hpd
        rw [htr, attemptTimes_append, attemptTimes_at, hes, List.map_nil, List.append_nil]
        exact ⟨d', hd', hpd', htimes⟩
  obtain ⟨_, -, -, htimes⟩ := key
  exact htimes

end

end Switchboard.Client
