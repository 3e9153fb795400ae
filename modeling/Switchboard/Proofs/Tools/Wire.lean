import Switchboard.Proofs.Tools.Line

/-!
# What is written to a tool server

A frame that the call with the turn leaves unfinished, or one that could not be written, is the end
of what the server gets: the session is `Sealed`. All that was written before it is a conversation
(`wire_is_conversation`).
-/

namespace Switchboard.Tools

section
variable {answered : Nat → Prop} {server : Server} {s t : Session} {i : Nat} {c : SessionCall}
  {what : Sending} {rest : List UInt8}

/-- Nothing is being written and nothing will be. -/
structure Sealed (s : Session) : Prop where
  shut : s.writing = true ∨ s.phase = .closed
  idle : ∀ (j : Nat) (d : SessionCall), s.calls[j]? = some d → d.stage.isActive = false

theorem Sealed.set {x : SessionCall} (h : Sealed s) (calls : t.calls = s.calls.set i x)
    (hx : x.stage.isActive = false) (shut : t.writing = true ∨ t.phase = .closed) : Sealed t := by
  refine ⟨shut, ?_⟩
  intro j d hd
  rw [calls, List.getElem?_set] at hd
  split at hd
  · split at hd
    · cases hd
      exact hx
    · cases hd
  · exact h.idle j d hd

theorem Sealed.turn {a : SessionInput} (h : Sealed s) (hc : s.calls[i]? = some c)
    (ht : Session.Turn server s i c a t) : Sealed t ∧ t.wire = s.wire := by
  have hidle := h.idle i c hc
  cases ht with
  | refuse | queue | leave => exact ⟨h.set rfl rfl h.shut, rfl⟩
  | stop | bounce => exact ⟨h.set rfl rfl (.inr rfl), rfl⟩
  | greet _ _ hw _ hp =>
    rcases h.shut with hs | hs
    · rw [hw] at hs; cases hs
    · rw [hs] at hp; rcases hp with hp | hp <;> cases hp
  | request _ _ hw _ hp =>
    rcases h.shut with hs | hs
    · rw [hw] at hs; cases hs
    · rw [hs] at hp; cases hp
  | part hs | whole hs | greeted hs | stuck hs | broken hs => rw [hs] at hidle; cases hidle
  | skip hs | welcome hs | answer hs | fail hs => rw [hs] at hidle; cases hidle
  | letGo hs => rw [hs] at hidle; cases hidle

theorem Sealed.step {a : SessionInput} (h : Sealed s) (hs : Session.step? server s a = some t) :
    Sealed t ∧ t.wire = s.wire := by
  match hi : a.target with
  | some i =>
    obtain ⟨c, hc, ht⟩ := Session.step_turn hs hi
    exact h.turn hc ht
  | none =>
    obtain ⟨now, inbox, broken, rfl, -⟩ := Session.step_outside hs hi
    exact ⟨⟨h.shut, h.idle⟩, rfl⟩

theorem Sealed.run {later : List SessionInput} (h : Sealed s)
    (hr : Session.run? server s later = some t) : t.wire = s.wire :=
  (Session.run_keeps (P := fun u => Sealed u ∧ u.wire = s.wire)
    (fun _ hu hs => ⟨(hu.1.step hs).1, (hu.1.step hs).2.trans hu.2⟩) ⟨h, rfl⟩ hr).2

theorem Kept.sealed (h : Kept answered server s) (hh : s.holder = none)
    (hs : s.writing = true ∨ s.phase = .closed) : Sealed s := by
  refine ⟨hs, ?_⟩
  intro j d hd
  apply Bool.eq_false_iff.2
  intro ha
  have := h.solo j d hd ha
  rw [hh] at this
  cases this

/-- Nothing is written after a message that could not be. -/
theorem Kept.sealed_broken {deadline : Nat} (h : Kept answered server s)
    (hc : s.calls[i]? = some c) (hs : c.stage = .sending what rest deadline)
    (ht : Session.step? server s (.poll i .broken) = some t) : Sealed t ∧ t.wire = s.wire := by
  have hstep : Session.step? server s (.poll i .broken) = some (Session.unsent
      { s with writing := false } i c (.io "Broken pipe (os error 32)") what) := by
    simp [Session.step?, hc, Session.poll, hs, Session.write]
  rw [hstep] at ht
  cases ht
  obtain ⟨hcl, hh, hw, -, -⟩ := unsent_frame { s with writing := false } i c
    (.io "Broken pipe (os error 32)") what (.inr ⟨_, rfl⟩)
  exact ⟨(h.turn hc (.broken hs)).sealed hh (.inr hcl), hw⟩

/-- What was written stays written. -/
theorem wire_extends_turn {a : SessionInput} (ht : Session.Turn server s i c a t) :
    s.wire <+: t.wire := by
  cases ht with
  | part | whole | greeted => exact List.prefix_append ..
  | @stuck what _ _ _ _ =>
    cases what <;> exact List.prefix_append ..
  | @broken what => cases what <;> exact List.prefix_rfl
  | fail _ hf => cases hf <;> exact List.prefix_rfl
  | _ => exact List.prefix_rfl

theorem wire_extends {later : List SessionInput} (hr : Session.run? server s later = some t) :
    s.wire <+: t.wire := by
  refine Session.run_keeps (P := fun u => s.wire <+: u.wire) (fun {u v a} _ hu hs => ?_)
    List.prefix_rfl hr
  refine hu.trans ?_
  match hi : a.target with
  | some i =>
    obtain ⟨c, -, ht⟩ := Session.step_turn hs hi
    exact wire_extends_turn ht
  | none =>
    obtain ⟨now, inbox, broken, rfl, -⟩ := Session.step_outside hs hi
    exact List.prefix_rfl

end

/-! ## Conversations of a run -/

/-- No call is writing. -/
def Quiet (s : Session) : Prop :=
  ∀ (j : Nat) (d : SessionCall) (what : Sending) (rest : List UInt8) (deadline : Nat),
    s.calls[j]? = some d → d.stage ≠ .sending what rest deadline

/-- All that was written to the server is a conversation and the beginning of the message that would
go on with it. If that one is incomplete and nobody writes it any more, or if it could not be
written, nothing is ever written again. -/
theorem wire_is_conversation {server : Server} {n : Nat} {inputs : List SessionInput} {s : Session}
    (h : Session.run? server (.start n) inputs = some s) :
    ∃ msgs cut, s.wire = script server msgs ++ cut ∧ Conversation (Answered inputs) msgs ∧
      Cut (Answered inputs) server msgs cut ∧
      (∀ later t, Session.run? server s later = some t →
        s.wire <+: t.wire ∧ (cut ≠ [] → Quiet s → t.wire = s.wire)) ∧
      ∀ i c what rest deadline, s.calls[i]? = some c → c.stage = .sending what rest deadline →
        ∀ s', Session.step? server s (.poll i .broken) = some s' →
          ∀ later t, Session.run? server s' later = some t → t.wire = s.wire := by
  have hk : Kept (Answered inputs) server s := by
    refine Session.run_keeps (fun ha hk hs => hk.step ?_ hs) (kept_start _ server n) h
    rintro body rfl k result hread
    obtain ⟨msg, hmsg, hid, herror, hresult⟩ := read_fields hread
    exact ⟨body, msg, result, ha, hmsg, hid, herror, hresult⟩
  obtain ⟨msgs, cut, hw, hconv, hcut, hseal⟩ : ∃ msgs cut, s.wire = script server msgs ++ cut ∧
      Conversation (Answered inputs) msgs ∧ Cut (Answered inputs) server msgs cut ∧
      (cut ≠ [] → Quiet s → Sealed s) := by
    cases hk.line with
    | @idle msgs h1 h2 h3 h4 =>
      exact ⟨msgs, [], by rw [h4, List.append_nil], h3.conversation, .inl rfl, absurd rfl⟩
    | @shut msgs cut h1 h2 h3 h4 h5 =>
      exact ⟨msgs, cut, h5, h3, h4, fun _ _ => hk.sealed h1 h2⟩
    | @sending i c what rest done deadline msgs next h1 h2 h3 h4 h5 h6 h7 h8 h9 =>
      obtain ⟨hconv, hconv'⟩ := h6.conversation h4
      exact ⟨msgs, done, h9, hconv, cut_of_rest h7 h8 hconv', fun _ hq => (hq _ _ _ _ _ h2 h3).elim⟩
    | @receiving i c m id deadline msgs h1 h2 h3 h4 h5 h6 h7 =>
      exact ⟨msgs, [], by rw [h7, List.append_nil], h6.talks.conversation, .inl rfl, absurd rfl⟩
  refine ⟨msgs, cut, hw, hconv, hcut, fun later t hr => ⟨wire_extends hr, fun hne hq => ?_⟩, ?_⟩
  · exact (hseal hne hq).run hr
  · intro i c what rest deadline hc hs s' hstep later t hr
    obtain ⟨hs', hw'⟩ := hk.sealed_broken hc hs hstep
    exact (hs'.run hr).trans hw'

/-! ## An abandoned request -/

def courier : Server := { command := "courier" }

/-- A handshake is answered, and the request for tools after it is given up in its fifth byte. -/
def abandoned : List SessionInput :=
  [.make 0 .list, .poll 0 (.takes 0), .poll 0 (.takes 1000),
    .deliver (Text.Utf8.bytesOf "\x7b\"id\":1,\"result\":\x7b\x7d\x7d"), .poll 0 .broken,
    .poll 0 (.takes 1000), .poll 0 (.takes 5), .drop 0]

theorem wire_of_abandoned : ∃ s msgs cut,
    Session.run? courier (.start 1) abandoned = some s ∧ s.wire = script courier msgs ++ cut ∧
      Conversation (Answered abandoned) msgs ∧ Cut (Answered abandoned) courier msgs cut ∧
      ∀ later t, Session.run? courier s later = some t → s.wire <+: t.wire := by
  have hrun : (Session.run? courier (.start 1) abandoned).isSome = true := by decide +kernel
  obtain ⟨s, hs⟩ := Option.isSome_iff_exists.1 hrun
  obtain ⟨msgs, cut, hw, hconv, hcut, hlater, -⟩ := wire_is_conversation hs
  exact ⟨s, msgs, cut, hs, hw, hconv, hcut, fun later t ht => (hlater later t ht).1⟩

end Switchboard.Tools
