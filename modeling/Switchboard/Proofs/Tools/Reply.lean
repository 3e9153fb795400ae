import Switchboard.Proofs.Tools.Framing
import Switchboard.Proofs.Tools.Line

/-!
# Messages that decide a request

A request for tools that is not answered yet can only be decided by a message with its id that
arrived before (`decided_under_own_id`); whether that message is an answer in other respects is not
looked at (`decided_without_response`).
-/

namespace Switchboard.Tools

/-! ## Verdicts -/

/-- The server has answered the call, or refused it. -/
def isVerdict : Except ToolError Reply → Bool
  | .ok _ | .error (.rpc _ _) => true
  | .error _ => false

/-- What a message makes of a call whose request it decides. -/
def verdict (m : Method) (ask : Ask) (a : Answer) : Except ToolError Reply :=
  match a.error with
  | some payload => .error (.rpc m.name payload)
  | none => Session.replyOf ask (a.result.getD .null)

section
variable {m : Method} {id : Nat} {body : List UInt8}

theorem read_eq_error {e : ToolError} (h : Session.read m id body = some (.error e))
    (he : isVerdict (.error e) = true) :
    ∃ a payload, Answer.ofBody? body = some a ∧ a.answers id = true ∧ a.error = some payload ∧
      e = .rpc m.name payload := by
  unfold Session.read at h
  split at h
  · cases h; cases he
  · next a ha =>
    split at h
    · next hid =>
      split at h
      · next payload hp => cases h; exact ⟨a, payload, ha, hid, hp, rfl⟩
      · cases h
    · cases h

end

section
variable {server : Server} {s t : Session} {i : Nat} {c d x : SessionCall} {a : SessionInput}

theorem eq_of_set (hc : s.calls[i]? = some c) (hd : (s.calls.set i x)[i]? = some d) : d = x := by
  rw [List.getElem?_set_self (List.getElem?_eq_some_iff.1 hc).1] at hd
  exact (Option.some.inj hd).symm

theorem isVerdict_of_isFatal {e : ToolError} (h : e.isFatal = true) :
    isVerdict (.error e) = false := by
  cases e <;> first | rfl | cases h

/-- A call is decided by the frame in front of those that arrived, and only while it waits. -/
theorem Session.Turn.decides {answer : Except ToolError Reply} (ht : Session.Turn server s i c a t)
    (hc : s.calls[i]? = some c) (hd : t.calls[i]? = some d) (hf : d.stage = .finished answer)
    (hv : isVerdict answer = true) (hask : c.stage = .waiting → d.ask ≠ .shutdown)
    (hb : ∀ e, s.broken = some e → e.isFatal = true) :
    ∃ m id deadline body msg, c.stage = .receiving m id deadline ∧ c.ask = d.ask ∧
      s.inbox = body :: t.inbox ∧ Answer.ofBody? body = some msg ∧ msg.answers id = true ∧
      answer = verdict m d.ask msg ∧ (m = .handshake → msg.error ≠ none) := by
  cases ht with
  | refuse _ hargs =>
    obtain rfl := eq_of_set hc hd
    cases hf
    unfold Session.checkArguments at hargs
    split at hargs <;> cases hargs
    cases hv
  | stop hn hs =>
    obtain rfl := eq_of_set hc hd
    exact absurd hs (hask hn.waits)
  | bounce =>
    obtain rfl := eq_of_set hc hd
    cases hf
    cases hv
  | queue | greet | request | part | whole | greeted | welcome | leave | letGo =>
    obtain rfl := eq_of_set hc hd
    cases hf
  | @stuck what _ _ n _ _ =>
    obtain ⟨-, -, -, -, hcalls⟩ := unsent_frame { s with wire := _, phase := .closed } i c
      (.timeout what.name server.requestTimeout) what (.inl rfl)
    rw [hcalls] at hd
    obtain rfl := eq_of_set hc hd
    cases hf
    cases hv
  | @broken what =>
    obtain ⟨-, -, -, -, hcalls⟩ := unsent_frame { s with writing := false } i c
      (.io "Broken pipe (os error 32)") what (.inr ⟨_, rfl⟩)
    rw [hcalls] at hd
    obtain rfl := eq_of_set hc hd
    cases hf
    cases hv
  | skip hs =>
    rw [show d = c from (Option.some.inj (hc.symm.trans hd)).symm, hs] at hf
    cases hf
  | answer hs hm hi hread =>
    obtain rfl := eq_of_set hc hd
    cases hf
    obtain ⟨msg, hmsg, hid, he, rfl⟩ := read_eq_ok hread
    exact ⟨_, _, _, _, msg, hs, rfl, hi, hmsg, hid, by rw [verdict, he], fun h => absurd h hm⟩
  | fail hs hfail =>
    cases hfail with
    | refused hi hread =>
      obtain rfl := eq_of_set hc hd
      cases hf
      obtain ⟨msg, payload, hmsg, hid, he, rfl⟩ := read_eq_error hread hv
      exact ⟨_, _, _, _, msg, hs, rfl, hi, hmsg, hid, by rw [verdict, he],
        fun _ => by rw [he]; nofun⟩
    | blank | late =>
      obtain rfl := eq_of_set hc hd
      cases hf
      cases hv
    | lost _ hbroken =>
      obtain rfl := eq_of_set hc hd
      cases hf
      rw [isVerdict_of_isFatal (hb _ hbroken)] at hv
      cases hv

/-- A frame is consumed only by a call that waits. -/
theorem Session.Turn.inbox_eq (ht : Session.Turn server s i c a t) :
    t.inbox = s.inbox ∨
      ∃ m id deadline body, c.stage = .receiving m id deadline ∧ s.inbox = body :: t.inbox := by
  cases ht with
  | skip hs hi | welcome hs hi | answer hs _ hi => exact .inr ⟨_, _, _, _, hs, hi⟩
  | fail hs hf =>
    cases hf with
    | refused hi | blank _ hi => exact .inr ⟨_, _, _, _, hs, hi⟩
    | lost | late => exact .inl rfl
  | @stuck what | @broken what => cases what <;> exact .inl rfl
  | _ => exact .inl rfl

theorem Session.Turn.calls_eq (ht : Session.Turn server s i c a t) :
    t.calls = s.calls ∨ ∃ x, t.calls = s.calls.set i x := by
  cases ht with
  | skip => exact .inl rfl
  | fail _ hf => cases hf <;> exact .inr ⟨_, rfl⟩
  | @stuck what | @broken what => cases what <;> exact .inr ⟨_, rfl⟩
  | _ => exact .inr ⟨_, rfl⟩

theorem Session.Turn.broken_eq (ht : Session.Turn server s i c a t) :
    t.broken = s.broken ∨ t.broken = some .connectionClosed := by
  cases ht with
  | fail _ hf =>
    cases hf with
    | lost => exact .inr rfl
    | _ => exact .inl rfl
  | @stuck what | @broken what => cases what <;> exact .inl rfl
  | _ => exact .inl rfl

end

/-! ## What arrives -/

/-- The frames that arrive, in order. -/
def arrivals (inputs : List SessionInput) : List (List UInt8) :=
  inputs.filterMap fun
    | .deliver body => some body
    | _ => none

/-- Frames stop arriving only for a reason after which none can, as they do where a stream ends or
breaks (`breaks_of_readAll`). -/
def Breaks (inputs : List SessionInput) : Prop := ∀ e, .fail e ∈ inputs → e.isFatal = true

theorem breaks_of_readAll {inputs : List SessionInput}
    (h : ∀ e, .fail e ∈ inputs → ∃ bytes, (Frame.readAll bytes).2 = e) : Breaks inputs := by
  intro e he
  obtain ⟨bytes, rfl⟩ := h e he
  exact Frame.isFatal_of_readAll bytes

theorem arrivals_append (as bs : List SessionInput) :
    arrivals (as ++ bs) = arrivals as ++ arrivals bs := List.filterMap_append

theorem mem_arrivals {inputs : List SessionInput} {body : List UInt8} :
    body ∈ arrivals inputs ↔ .deliver body ∈ inputs := by
  constructor
  · intro h
    obtain ⟨a, ha, he⟩ := List.mem_filterMap.1 h
    cases a with
    | deliver => cases he; exact ha
    | _ => cases he
  · exact fun h => List.mem_filterMap.2 ⟨_, h, rfl⟩

section
variable {server : Server} {s t : Session} {a : SessionInput} {i : Nat} {c d : SessionCall}

theorem arrivals_of_target (h : a.target = some i) : arrivals [a] = [] := by
  cases a with
  | tick | deliver | fail => cases h
  | _ => rfl

/-- A step about no call leaves all calls alone and appends what arrives. -/
theorem step_arrivals (h : Session.step? server s a = some t) (ha : a.target = none) :
    t.calls = s.calls ∧ t.inbox = s.inbox ++ arrivals [a] := by
  cases a with
  | make | poll | drop => cases ha
  | tick | fail =>
    simp only [Session.step?] at h
    split at h <;> cases h
    exact ⟨rfl, (List.append_nil _).symm⟩
  | deliver =>
    simp only [Session.step?] at h
    split at h <;> cases h
    exact ⟨rfl, rfl⟩

/-- A step leaves a call alone that its input does not name. -/
theorem step_other (h : Session.step? server s a = some t) (ha : a.target ≠ some i) :
    t.calls[i]? = s.calls[i]? := by
  match hj : a.target with
  | none => rw [(step_arrivals h hj).1]
  | some j =>
    have hij : j ≠ i := fun e => ha (by rw [hj, e])
    obtain ⟨c, -, ht⟩ := Session.step_turn h hj
    rcases ht.calls_eq with hc | ⟨x, hc⟩
    · rw [hc]
    · rw [hc, List.getElem?_set_ne hij]

theorem step_broken (h : Session.step? server s a = some t) :
    t.broken = s.broken ∨ t.broken = some .connectionClosed ∨
      ∃ e, a = .fail e ∧ t.broken = some e := by
  match hi : a.target with
  | some i =>
    obtain ⟨c, -, ht⟩ := Session.step_turn h hi
    exact ht.broken_eq.imp_right .inl
  | none =>
    cases a with
    | make | poll | drop => cases hi
    | tick | deliver =>
      simp only [Session.step?] at h
      split at h <;> cases h
      exact .inl rfl
    | fail e =>
      simp only [Session.step?] at h
      split at h <;> cases h
      exact .inr (.inr ⟨e, rfl, rfl⟩)

/-- What has not been read has arrived. -/
structure Fed (inputs : List SessionInput) (s : Session) : Prop where
  inbox : ∀ body ∈ s.inbox, body ∈ arrivals inputs
  broken : ∀ e, s.broken = some e → e.isFatal = true

theorem Fed.step {inputs : List SessionInput} (h : Fed inputs s) (hb : Breaks inputs)
    (ha : a ∈ inputs) (hs : Session.step? server s a = some t) : Fed inputs t := by
  refine ⟨fun body hm => ?_, fun e he => ?_⟩
  · match hi : a.target with
    | some i =>
      obtain ⟨c, -, ht⟩ := Session.step_turn hs hi
      rcases ht.inbox_eq with hin | ⟨-, -, -, first, -, hin⟩
      · exact h.inbox body (hin ▸ hm)
      · exact h.inbox body (by rw [hin]; exact List.mem_cons_of_mem _ hm)
    | none =>
      rw [(step_arrivals hs hi).2] at hm
      rcases List.mem_append.1 hm with hm | hm
      · exact h.inbox body hm
      · exact mem_arrivals.2 (List.mem_singleton.1 (mem_arrivals.1 hm) ▸ ha)
  · rcases step_broken hs with hbr | hbr | ⟨e', rfl, hbr⟩
    · exact h.broken e (hbr.symm.trans he)
    · rw [hbr] at he
      cases he
      rfl
    · rw [hbr] at he
      cases he
      exact hb _ ha

theorem Fed.run {n : Nat} {inputs : List SessionInput} (hb : Breaks inputs)
    (h : Session.run? server (.start n) inputs = some s) : Fed inputs s :=
  Session.run_keeps (fun ha hf hs => hf.step hb ha hs)
    ⟨by simp [Session.start], by simp [Session.start]⟩ h

/-! ## Requests for tools -/

/-- The request `id` of a call is being written or waits for an answer. -/
def Stage.isPending (m : Method) (id : Nat) : Stage → Bool
  | .sending what _ _ => what == .request m id
  | .receiving m' id' _ => m' == m && id' == id
  | _ => false

/-- A message with another id is taken off by the call that waits, and changes nothing else. -/
theorem step_skip {m : Method} {id deadline : Nat} {body : List UInt8} {rest : List (List UInt8)}
    {msg : Answer} {pipe : Pipe} (hc : s.calls[i]? = some c)
    (hs : c.stage = .receiving m id deadline) (hin : s.inbox = body :: rest)
    (hmsg : Answer.ofBody? body = some msg) (hid : msg.id ≠ some (.int id)) :
    Session.step? server s (.poll i pipe) = some { s with inbox := rest } := by
  have hread : Session.read m id body = none := read_of_other hmsg hid
  simp [Session.step?, hc, Session.poll, hs, Session.receive, hin, hread]

/-- How a call ended. -/
def Stage.answer? : Stage → Option (Except ToolError Reply)
  | .finished answer => some answer
  | _ => none

theorem Stage.answer?_eq_some {stage : Stage} {answer : Except ToolError Reply} :
    stage.answer? = some answer ↔ stage = .finished answer := by
  cases stage <;> simp [Stage.answer?]

/-- While a request is pending, a step that decides its call reads a message that arrived with the
integer `id` as its id. The call is refused with the message's error, if that is there, and answered
with its result otherwise, of which `null` stands for none. A message with any other id or with
none, as notifications are, is taken off and changes nothing else. -/
theorem decided_under_own_id {n id : Nat} {inputs : List SessionInput} {m : Method}
    (hb : Breaks inputs) (h : Session.run? server (.start n) inputs = some s)
    (hc : s.calls[i]? = some c) (hp : c.stage.isPending m id = true) :
    (∀ a t d answer, Session.step? server s a = some t → t.calls[i]? = some d →
      d.stage = .finished answer → isVerdict answer = true →
      ∃ body msg, body ∈ arrivals inputs ∧ s.inbox = body :: t.inbox ∧ message? body = some msg ∧
        content? (field? "id" 0 msg) = some (.int id) ∧
        answer = match content? (field? "error" 2 msg) with
          | some payload => .error (.rpc m.name payload)
          | none => Session.replyOf c.ask ((content? (field? "result" 1 msg)).getD .null)) ∧
    ∀ deadline body rest msg pipe, c.stage = .receiving m id deadline → s.inbox = body :: rest →
      message? body = some msg → (Answer.ofBody? body).isSome = true →
      content? (field? "id" 0 msg) ≠ some (.int id) →
      Session.step? server s (.poll i pipe) = some { s with inbox := rest } := by
  have hfed := Fed.run hb h
  constructor
  · intro a t d answer hs hd hf hv
    by_cases ha : a.target = some i
    · obtain ⟨c', hc', ht⟩ := Session.step_turn hs ha
      obtain rfl : c' = c := Option.some.inj (hc'.symm.trans hc)
      have hwait : c'.stage = .waiting → d.ask ≠ .shutdown := by
        intro hw
        rw [hw] at hp
        cases hp
      obtain ⟨_, _, _, body, msg, hst, hask, hin, hmsg, hid, rfl, -⟩ :=
        ht.decides hc hd hf hv hwait hfed.broken
      rw [hst, Stage.isPending, Bool.and_eq_true, beq_iff_eq, beq_iff_eq] at hp
      obtain ⟨rfl, rfl⟩ := hp
      obtain ⟨tree, htree, hfid, hfres, hferr⟩ := ofBody?_fields hmsg
      refine ⟨body, tree, hfed.inbox body (hin ▸ List.mem_cons_self), hin, htree, ?_, ?_⟩
      · rw [← hfid, Answer.answers_iff.1 hid]
      · rw [verdict, hferr, hfres, hask]
    · rw [step_other hs ha, hc] at hd
      cases hd
      rw [hf] at hp
      cases hp
  · intro deadline body rest msg pipe hst hin hmsg hread hid
    obtain ⟨a, ha⟩ := Option.isSome_iff_exists.1 hread
    obtain ⟨msg', hmsg', hfid, -⟩ := ofBody?_fields ha
    obtain rfl := Option.some.inj (hmsg.symm.trans hmsg')
    exact step_skip hc hst hin ha (by rwa [hfid])

end

/-! ## A listing -/

def clerk : Server := { command := "clerk" }

/-- A handshake is answered, and the request for tools after it, which has the id 2, is written. -/
def listing : List SessionInput :=
  [.make 0 .list, .poll 0 (.takes 0), .poll 0 (.takes 1000),
    .deliver (Text.Utf8.bytesOf "\x7b\"id\":1,\"result\":\x7b\x7d\x7d"), .poll 0 .broken,
    .poll 0 (.takes 1000), .poll 0 (.takes 1000)]

/-- The listing is pending after `inputs`, and the next poll makes `p` of it. -/
def listingEnds (inputs : List SessionInput) (p : Except ToolError Reply → Bool) : Bool :=
  (Session.run? clerk (.start 1) inputs).any fun s =>
    (s.calls[0]?.any fun c => c.stage.isPending .toolsList 2) &&
      (Session.step? clerk s (.poll 0 .broken)).any fun t =>
        t.calls[0]?.any fun d => d.stage.answer?.any p

theorem listingEnds_iff {inputs : List SessionInput} {p : Except ToolError Reply → Bool} :
    listingEnds inputs p = true ↔ ∃ s c t d answer,
      Session.run? clerk (.start 1) inputs = some s ∧ s.calls[0]? = some c ∧
        c.stage.isPending .toolsList 2 = true ∧ Session.step? clerk s (.poll 0 .broken) = some t ∧
        t.calls[0]? = some d ∧ d.stage = .finished answer ∧ p answer = true := by
  simp only [listingEnds, Option.any_eq_true, Bool.and_eq_true, Stage.answer?_eq_some]
  constructor
  · rintro ⟨s, hs, ⟨c, hc, hp⟩, t, ht, d, hd, answer, hf, ha⟩
    exact ⟨s, c, t, d, answer, hs, hc, hp, ht, hd, hf, ha⟩
  · rintro ⟨s, c, t, d, answer, hs, hc, hp, ht, hd, hf, ha⟩
    exact ⟨s, hs, ⟨c, hc, hp⟩, t, ht, d, hd, answer, hf, ha⟩

/-- An answer to the listing, after one to a request that nobody made. -/
def answeredListing : List SessionInput :=
  listing ++ [.deliver (Text.Utf8.bytesOf "\x7b\"id\":7,\"result\":null\x7d"), .poll 0 .broken,
    .deliver (Text.Utf8.bytesOf "\x7b\"id\":2,\"error\":\"busy\"\x7d")]

theorem listing_decided_under_own_id : ∃ s c t d answer body msg,
    Session.run? clerk (.start 1) answeredListing = some s ∧ s.calls[0]? = some c ∧
      c.stage.isPending .toolsList 2 = true ∧
      Session.step? clerk s (.poll 0 .broken) = some t ∧ t.calls[0]? = some d ∧
      d.stage = .finished answer ∧ body ∈ arrivals answeredListing ∧ message? body = some msg ∧
      content? (field? "id" 0 msg) = some (.int 2) := by
  have hends : listingEnds answeredListing isVerdict = true := by decide +kernel
  obtain ⟨s, c, t, d, answer, hs, hc, hp, ht, hd, hf, hv⟩ := listingEnds_iff.1 hends
  have hb : Breaks answeredListing := by
    intro e he
    simp [answeredListing, listing] at he
  obtain ⟨body, msg, hm, -, hmsg, hid, -⟩ :=
    (decided_under_own_id hb hs hc hp).1 _ t d answer ht hd hf hv
  exact ⟨s, c, t, d, answer, body, msg, hs, hc, hp, ht, hd, hf, hm, hmsg, hid⟩

/-! ## Messages that are no responses -/

/-- A response to the request `id` names no method and carries a result or an error. -/
def isResponse (id : Nat) : Tree → Bool
  | .obj members =>
    content? (field? "id" 0 (.obj members)) == some (.int id) &&
      (field? "method" 0 (.obj members)).isNone &&
      ((field? "result" 0 (.obj members)).isSome || (field? "error" 0 (.obj members)).isSome)
  | _ => false

/-- After `inputs` the listing is pending and no response to it has arrived, and yet the next poll
decides it. -/
def DecidedUnasked (inputs : List SessionInput) : Prop :=
  ∃ s c t d answer, Session.run? clerk (.start 1) inputs = some s ∧ s.calls[0]? = some c ∧
    c.stage.isPending .toolsList 2 = true ∧ Session.step? clerk s (.poll 0 .broken) = some t ∧
    t.calls[0]? = some d ∧ d.stage = .finished answer ∧ isVerdict answer = true ∧
    ∀ body ∈ arrivals inputs, ∀ msg, message? body = some msg → isResponse 2 msg = false

theorem decidedUnasked_of_check {inputs : List SessionInput}
    (hends : listingEnds inputs isVerdict = true)
    (hstray : (arrivals inputs).all (fun body => (message? body).all fun msg =>
      !isResponse 2 msg) = true) : DecidedUnasked inputs := by
  obtain ⟨s, c, t, d, answer, hs, hc, hp, ht, hd, hf, hv⟩ := listingEnds_iff.1 hends
  refine ⟨s, c, t, d, answer, hs, hc, hp, ht, hd, hf, hv, ?_⟩
  intro body hbody msg hmsg
  have hmsgs := List.all_eq_true.1 hstray body hbody
  rw [hmsg] at hmsgs
  simpa using hmsgs

/-- What decides a request need not be a response to it: an id alone is enough, and so is a request
of the server that happens to have the same id. -/
theorem decided_without_response :
    DecidedUnasked (listing ++ [.deliver (Text.Utf8.bytesOf "\x7b\"id\":2\x7d")]) ∧
      DecidedUnasked
        (listing ++ [.deliver (Text.Utf8.bytesOf "\x7b\"id\":2,\"method\":\"ping\"\x7d")]) :=
  ⟨decidedUnasked_of_check (by decide +kernel) (by decide +kernel),
    decidedUnasked_of_check (by decide +kernel) (by decide +kernel)⟩

end Switchboard.Tools
