import Mathlib.Data.List.Induction
import Switchboard.Proofs.Tools.Listing
import Switchboard.Proofs.Tools.Reply

/-!
# Answers and their requests

Every request has an id of its own (`Asks.unique`). A call that was answered or refused got the
first message with the id of its request that was not read when the request began (`Accounted`),
however many late answers to other requests lay in front of it.
-/

namespace Switchboard.Tools

section
variable {server : Server} {s t : Session} {a : SessionInput}

theorem run_append {as bs : List SessionInput} :
    Session.run? server s (as ++ bs) = some t ↔
      ∃ m, Session.run? server s as = some m ∧ Session.run? server m bs = some t := by
  simp [Session.run?, List.foldlM_append, Option.bind_eq_some_iff]

theorem run_concat {as : List SessionInput} :
    Session.run? server s (as ++ [a]) = some t ↔
      ∃ m, Session.run? server s as = some m ∧ Session.step? server m a = some t := by
  simp only [run_append, Session.run_cons]
  simp [Session.run?]

/-- What holds of the inputs so far and the state after them, if each step keeps it. -/
theorem run_history {P : List SessionInput → Session → Prop} (start : P [] s)
    (step : ∀ {as a u v}, P as u → Session.step? server u a = some v → P (as ++ [a]) v) :
    ∀ {as : List SessionInput} {t : Session}, Session.run? server s as = some t → P as t := by
  intro as
  induction as using List.reverseRecOn with
  | nil =>
    intro t h
    cases h
    exact start
  | append_singleton as a ih =>
    intro t h
    obtain ⟨m, hm, hs⟩ := run_concat.1 h
    exact step (ih hm) hs

/-- Whether a frame can be read as an answer and holds a message with the integer `id` as its
id. -/
def carries (id : Nat) (body : List UInt8) : Bool :=
  (Answer.ofBody? body).isSome &&
    (message? body).any fun msg => content? (field? "id" 0 msg) == some (.int id)

theorem carries_eq {id : Nat} {body : List UInt8} {msg : Answer}
    (h : Answer.ofBody? body = some msg) : carries id body = msg.answers id := by
  obtain ⟨message, hmessage, hid, -⟩ := ofBody?_fields h
  rw [carries, h, hmessage, Bool.eq_iff_iff, Answer.answers_iff, hid]
  simp

/-- At some point of the run call `i` was about to write its request `m` with the id `id`. What had
arrived then and not been read, with all that has arrived since, is `pending`. -/
def Asks (server : Server) (n : Nat) (inputs : List SessionInput) (i : Nat) (m : Method) (id : Nat)
    (pending : List (List UInt8)) : Prop :=
  ∃ before after s c deadline, inputs = before ++ after ∧
    Session.run? server (.start n) before = some s ∧ s.calls[i]? = some c ∧
    c.stage = .sending (.request m id)
      (framed (requestText id m.name (Session.paramsOf server c.ask m).compactChars)) deadline ∧
    pending = s.inbox ++ arrivals after

end

/-! ## Turns -/

section
variable {server : Server} {s t : Session} {i : Nat} {c d : SessionCall} {a : SessionInput}
  {m : Method} {id deadline : Nat} {rest : List UInt8}

/-- A request that is being written was begun before, or begins with the next id. -/
theorem Session.Turn.writes (ht : Session.Turn server s i c a t) (hc : s.calls[i]? = some c)
    (hd : t.calls[i]? = some d) (hs : d.stage = .sending (.request m id) rest deadline) :
    t.inbox = s.inbox ∧ d.ask = c.ask ∧
      ((∃ rest', c.stage = .sending (.request m id) rest' deadline) ∨
        id = s.nextId ∧ (m = .handshake ∨ m = d.ask.method) ∧ rest =
          framed (requestText id m.name (Session.paramsOf server d.ask m).compactChars)) := by
  cases ht with
  | refuse | queue | stop | bounce | whole | answer | leave | letGo | welcome =>
    obtain rfl := eq_of_set hc hd
    cases hs
  | greet =>
    obtain rfl := eq_of_set hc hd
    cases hs
    exact ⟨rfl, rfl, .inr ⟨rfl, .inl rfl, frameOf_request ..⟩⟩
  | request | greeted =>
    obtain rfl := eq_of_set hc hd
    cases hs
    exact ⟨rfl, rfl, .inr ⟨rfl, .inr rfl, frameOf_request ..⟩⟩
  | part hst =>
    obtain rfl := eq_of_set hc hd
    cases hs
    exact ⟨rfl, rfl, .inl ⟨_, hst⟩⟩
  | @stuck what | @broken what =>
    cases what <;> (obtain rfl := eq_of_set hc hd; cases hs)
  | skip hst =>
    rw [show d = c from Option.some.inj (hd.symm.trans hc), hst] at hs
    cases hs
  | fail _ hf =>
    cases hf <;> (obtain rfl := eq_of_set hc hd; cases hs)

/-- A call that waits for an answer has just written its request, or has skipped a message. -/
theorem Session.Turn.waits (ht : Session.Turn server s i c a t) (hc : s.calls[i]? = some c)
    (hd : t.calls[i]? = some d) (hs : d.stage = .receiving m id deadline) :
    d.ask = c.ask ∧
      ((∃ rest, c.stage = .sending (.request m id) rest deadline) ∧ t.inbox = s.inbox ∨
        c.stage = .receiving m id deadline ∧
          ∃ body, s.inbox = body :: t.inbox ∧ carries id body = false) := by
  cases ht with
  | refuse | queue | stop | bounce | greet | request | part | greeted | answer | leave | letGo
  | welcome =>
    obtain rfl := eq_of_set hc hd
    cases hs
  | whole hst =>
    obtain rfl := eq_of_set hc hd
    cases hs
    exact ⟨rfl, .inl ⟨⟨_, hst⟩, rfl⟩⟩
  | @stuck what | @broken what =>
    cases what <;> (obtain rfl := eq_of_set hc hd; cases hs)
  | skip hst hin hread =>
    obtain rfl : d = c := Option.some.inj (hd.symm.trans hc)
    rw [hst] at hs
    cases hs
    obtain ⟨msg, hmsg, hid⟩ := read_eq_none hread
    exact ⟨rfl, .inr ⟨hst, _, hin, (carries_eq hmsg).trans hid⟩⟩
  | fail _ hf =>
    cases hf <;> (obtain rfl := eq_of_set hc hd; cases hs)

/-- Ids are counted up. -/
theorem Session.Turn.nextId_le (ht : Session.Turn server s i c a t) : s.nextId ≤ t.nextId := by
  cases ht with
  | greet | request | greeted => exact Nat.le_succ _
  | fail _ hf => cases hf <;> exact Nat.le_refl _
  | @stuck what | @broken what => cases what <;> exact Nat.le_refl _
  | _ => exact Nat.le_refl _

end

/-! ## Calls and what arrived -/

/-- Request `id` of call `i` was decided by the first message with its id that was not read when the
request began. -/
def DecidedBy (server : Server) (n : Nat) (inputs : List SessionInput) (i : Nat) (m : Method)
    (id : Nat) (body : List UInt8) (msg : Answer) : Prop :=
  ∃ pending, Asks server n inputs i m id pending ∧ pending.find? (carries id) = some body ∧
    Answer.ofBody? body = some msg

/-- What became of the messages that arrived, by what call `i` does. -/
structure Accounted (server : Server) (n : Nat) (inputs : List SessionInput) (s : Session)
    (i : Nat) (c : SessionCall) : Prop where
  writes : ∀ m id rest deadline, c.stage = .sending (.request m id) rest deadline →
    (m = .handshake ∨ m = c.ask.method) ∧ Asks server n inputs i m id s.inbox
  waits : ∀ m id deadline, c.stage = .receiving m id deadline →
    (m = .handshake ∨ m = c.ask.method) ∧ ∃ skipped,
      Asks server n inputs i m id (skipped ++ s.inbox) ∧ ∀ body ∈ skipped, carries id body = false
  ended : ∀ answer, c.stage = .finished answer → c.ask ≠ .shutdown → isVerdict answer = true →
    ∃ m id body msg, (m = .handshake ∨ m = c.ask.method) ∧
      DecidedBy server n inputs i m id body msg ∧ answer = verdict m c.ask msg ∧
      (m = .handshake → msg.error ≠ none)

section
variable {server : Server} {n : Nat} {inputs : List SessionInput} {s t : Session} {i j : Nat}
  {c d : SessionCall} {a : SessionInput} {m m' : Method} {id deadline : Nat}
  {rest body : List UInt8} {msg : Answer} {pending pending' : List (List UInt8)}

theorem kept_of_run (h : Session.run? server (.start n) inputs = some s) :
    Kept (fun _ => True) server s :=
  Session.run_keeps (fun _ hk hs => hk.step (fun _ _ _ _ _ => trivial) hs)
    (kept_start _ server n) h

/-- Only the call with the turn reads: what has arrived stays there for it while others go on. -/
theorem Kept.inbox_of_active {answered : Nat → Prop} (h : Kept answered server s)
    (hs : Session.step? server s a = some t) (hc : s.calls[i]? = some c)
    (hact : c.stage.isActive = true) (ha : a.target ≠ some i) :
    t.inbox = s.inbox ++ arrivals [a] := by
  match htgt : a.target with
  | none => exact (step_arrivals hs htgt).2
  | some j =>
    obtain ⟨x, hx, ht⟩ := Session.step_turn hs htgt
    rw [arrivals_of_target htgt, List.append_nil]
    rcases ht.inbox_eq with hin | ⟨_, _, _, _, hrec, -⟩
    · exact hin
    · have hi := h.solo i c hc hact
      rw [h.solo j x hx (by rw [hrec]; rfl)] at hi
      exact absurd (htgt.trans hi) ha

theorem Asks.later (h : Asks server n inputs i m id pending) (a : SessionInput) :
    Asks server n (inputs ++ [a]) i m id (pending ++ arrivals [a]) := by
  obtain ⟨before, after, s, c, deadline, rfl, hs, hc, hst, rfl⟩ := h
  refine ⟨before, after ++ [a], s, c, deadline, by rw [List.append_assoc], hs, hc, hst, ?_⟩
  rw [arrivals_append, List.append_assoc]

theorem Asks.silent (h : Asks server n inputs i m id pending) (ha : arrivals [a] = []) :
    Asks server n (inputs ++ [a]) i m id pending := by
  have hlater := h.later a
  rwa [ha, List.append_nil] at hlater

theorem DecidedBy.later (h : DecidedBy server n inputs i m id body msg) (a : SessionInput) :
    DecidedBy server n (inputs ++ [a]) i m id body msg := by
  obtain ⟨pending, hasks, hfind, hmsg⟩ := h
  exact ⟨_, hasks.later a, by rw [List.find?_append, hfind, Option.some_or], hmsg⟩

/-- A call goes on as it is, and no message is taken off that it could be about to read. -/
theorem Accounted.stay (h : Accounted server n inputs s i c)
    (hin : c.stage.isActive = true → t.inbox = s.inbox ++ arrivals [a]) :
    Accounted server n (inputs ++ [a]) t i c where
  writes := by
    intro m id rest deadline hs
    obtain ⟨hm, hasks⟩ := h.writes m id rest deadline hs
    rw [hin (by rw [hs]; rfl)]
    exact ⟨hm, hasks.later a⟩
  waits := by
    intro m id deadline hs
    obtain ⟨hm, skipped, hasks, hskip⟩ := h.waits m id deadline hs
    rw [hin (by rw [hs]; rfl)]
    exact ⟨hm, skipped, by rw [← List.append_assoc]; exact hasks.later a, hskip⟩
  ended := by
    intro answer hs hask hv
    obtain ⟨m, id, body, msg, hm, hdec, hans⟩ := h.ended answer hs hask hv
    exact ⟨m, id, body, msg, hm, hdec.later a, hans⟩

theorem Accounted.turn (h : Accounted server n inputs s i c) (ht : Session.Turn server s i c a t)
    (hrun : Session.run? server (.start n) (inputs ++ [a]) = some t) (hc : s.calls[i]? = some c)
    (hd : t.calls[i]? = some d) (ha : arrivals [a] = [])
    (hb : ∀ e, s.broken = some e → e.isFatal = true) :
    Accounted server n (inputs ++ [a]) t i d where
  writes := by
    intro m id rest deadline hs
    obtain ⟨hin, hask, ⟨rest', hst⟩ | ⟨rfl, hm, rfl⟩⟩ := ht.writes hc hd hs
    · obtain ⟨hm, hasks⟩ := h.writes m id rest' deadline hst
      rw [hask, hin]
      exact ⟨hm, hasks.silent ha⟩
    · exact ⟨hm, _, [], t, d, deadline, (List.append_nil _).symm, hrun, hd, hs,
        (List.append_nil _).symm⟩
  waits := by
    intro m id deadline hs
    obtain ⟨hask, ⟨⟨rest, hst⟩, hin⟩ | ⟨hst, body, hin, hother⟩⟩ := ht.waits hc hd hs
    · obtain ⟨hm, hasks⟩ := h.writes m id rest deadline hst
      rw [hask, hin]
      exact ⟨hm, [], hasks.silent ha, nofun⟩
    · obtain ⟨hm, skipped, hasks, hskip⟩ := h.waits m id deadline hst
      rw [hin, List.append_cons] at hasks
      rw [hask]
      refine ⟨hm, skipped ++ [body], hasks.silent ha, ?_⟩
      intro b hbm
      rcases List.mem_append.1 hbm with hbm | hbm
      · exact hskip b hbm
      · rw [List.mem_singleton.1 hbm]
        exact hother
  ended := by
    intro answer hs hask hv
    obtain ⟨m, id, deadline, body, msg, hst, hceq, hin, hmsg, hid, hans, herr⟩ :=
      ht.decides hc hd hs hv (fun _ => hask) hb
    obtain ⟨hm, skipped, hasks, hskip⟩ := h.waits m id deadline hst
    rw [hin] at hasks
    have hfirst : (skipped ++ body :: t.inbox).find? (carries id) = some body := by
      rw [List.find?_append, List.find?_eq_none.2 (fun b hbm => by simp [hskip b hbm]),
        Option.none_or, List.find?_cons_of_pos ((carries_eq hmsg).trans hid)]
    exact ⟨m, id, body, msg, hceq ▸ hm, ⟨_, hasks.silent ha, hfirst, hmsg⟩, hans, herr⟩

theorem accounted_unmade (hs : c.stage = .unmade) : Accounted server n inputs s i c where
  writes := by
    intro _ _ _ _ h
    rw [hs] at h
    cases h
  waits := by
    intro _ _ _ h
    rw [hs] at h
    cases h
  ended := by
    intro _ h
    rw [hs] at h
    cases h

theorem accounted_of_run (hb : Breaks inputs)
    (h : Session.run? server (.start n) inputs = some s) (hc : s.calls[i]? = some c) :
    Accounted server n inputs s i c := by
  suffices key : Session.run? server (.start n) inputs = some s ∧ (Breaks inputs →
      ∀ j d, s.calls[j]? = some d → Accounted server n inputs s j d) from key.2 hb i c hc
  refine run_history (P := fun as u => Session.run? server (.start n) as = some u ∧ (Breaks as →
    ∀ j d, u.calls[j]? = some d → Accounted server n as u j d)) ⟨rfl, ?_⟩ ?_ h
  · intro _ j d hd
    obtain ⟨hj, rfl⟩ := List.getElem?_eq_some_iff.1 hd
    exact accounted_unmade (by simp [Session.start])
  · rintro as a u v ⟨hu, hacc⟩ hs
    have hv : Session.run? server (.start n) (as ++ [a]) = some v := run_concat.2 ⟨u, hu, hs⟩
    refine ⟨hv, fun hbr j d hd => ?_⟩
    have hbr' : Breaks as := fun e he => hbr e (List.mem_append_left _ he)
    by_cases htgt : a.target = some j
    · obtain ⟨x, hx, ht⟩ := Session.step_turn hs htgt
      exact (hacc hbr' j x hx).turn ht hv hx hd (arrivals_of_target htgt) (Fed.run hbr' hu).broken
    · rw [step_other hs htgt] at hd
      exact (hacc hbr' j d hd).stay fun hact => (kept_of_run hu).inbox_of_active hs hd hact htgt

/-! ## Ids -/

theorem Writes.nextId_eq {answered : Nat → Prop} {ask : Ask} {phase : SessionPhase} {next : Sent}
    {nextId : Nat} {msgs : List Sent}
    (h : Writes answered ask phase nextId (.request m id) msgs next) : nextId = id + 1 := by
  cases h <;> rfl

theorem step_nextId_le (h : Session.step? server s a = some t) : s.nextId ≤ t.nextId := by
  match hi : a.target with
  | some i =>
    obtain ⟨c, -, ht⟩ := Session.step_turn h hi
    exact ht.nextId_le
  | none =>
    obtain ⟨_, _, _, rfl, -⟩ := Session.step_outside h hi
    exact Nat.le_refl _

/-- Where a request with the id `id` is being written, it is request `m` of call `i`, and nothing
that arrived was read since the inbox was `pending`. -/
structure Owned (server : Server) (i : Nat) (m : Method) (id : Nat) (pending : List (List UInt8))
    (s : Session) : Prop where
  kept : Kept (fun _ => True) server s
  used : id < s.nextId
  owner : ∀ j d m' rest deadline, s.calls[j]? = some d →
    d.stage = .sending (.request m' id) rest deadline → j = i ∧ m' = m ∧ s.inbox = pending

theorem Owned.step (h : Owned server i m id pending s) (hs : Session.step? server s a = some t) :
    Owned server i m id (pending ++ arrivals [a]) t where
  kept := h.kept.step (fun _ _ _ _ _ => trivial) hs
  used := Nat.lt_of_lt_of_le h.used (step_nextId_le hs)
  owner := by
    intro j d m' rest deadline hd hst
    by_cases htgt : a.target = some j
    · obtain ⟨x, hx, ht⟩ := Session.step_turn hs htgt
      obtain ⟨hin, -, ⟨rest', hst'⟩ | ⟨hid, -⟩⟩ := ht.writes hx hd hst
      · rw [arrivals_of_target htgt, List.append_nil, hin]
        exact h.owner j x m' rest' deadline hx hst'
      · exact absurd h.used (by rw [hid]; exact Nat.lt_irrefl _)
    · rw [step_other hs htgt] at hd
      obtain ⟨hj, hm, hp⟩ := h.owner j d m' rest deadline hd hst
      rw [h.kept.inbox_of_active hs hd (by rw [hst]; rfl) htgt, hp]
      exact ⟨hj, hm, rfl⟩

theorem Owned.run {later : List SessionInput} (h : Owned server i m id pending s)
    (hr : Session.run? server s later = some t) :
    Owned server i m id (pending ++ arrivals later) t := by
  refine run_history (P := fun as u => Owned server i m id (pending ++ arrivals as) u) ?_ ?_ hr
  · rwa [show arrivals [] = [] from rfl, List.append_nil]
  · intro as a u v hu hs
    rw [arrivals_append, ← List.append_assoc]
    exact hu.step hs

/-- The call that writes a request owns its id. -/
theorem Kept.owned (h : Kept (fun _ => True) server s) (hc : s.calls[i]? = some c)
    (hs : c.stage = .sending (.request m id) rest deadline) :
    Owned server i m id s.inbox s where
  kept := h
  used := by
    obtain ⟨-, -, -, msgs, next, done, hw, -⟩ := h.of_sending hc hs
    exact Nat.lt_of_lt_of_eq (Nat.lt_succ_self id) hw.nextId_eq.symm
  owner := by
    intro j d m' rest' deadline' hd hst
    have hi := h.solo i c hc (by rw [hs]; rfl)
    rw [h.solo j d hd (by rw [hst]; rfl)] at hi
    obtain rfl := Option.some.inj hi
    rw [hc] at hd
    cases hd
    rw [hs] at hst
    cases hst
    exact ⟨rfl, rfl, rfl⟩

/-- No two requests have the same id. -/
theorem Asks.unique (h : Asks server n inputs i m id pending)
    (h' : Asks server n inputs j m' id pending') : i = j ∧ m = m' ∧ pending = pending' := by
  obtain ⟨as, bs, s, c, deadline, rfl, hs, hc, hst, rfl⟩ := h
  obtain ⟨as', bs', s', c', deadline', heq, hs', hc', hst', rfl⟩ := h'
  -- one of the two requests was begun first, and its call owns the id from then on
  rcases List.append_eq_append_iff.1 heq with ⟨mid, rfl, rfl⟩ | ⟨mid, rfl, rfl⟩
  · obtain ⟨m, hm, hr⟩ := run_append.1 hs'
    cases hs.symm.trans hm
    obtain ⟨rfl, rfl, hin⟩ :=
      (((kept_of_run hs).owned hc hst).run hr).owner j c' _ _ _ hc' hst'
    rw [hin, arrivals_append, List.append_assoc]
    exact ⟨rfl, rfl, rfl⟩
  · obtain ⟨m, hm, hr⟩ := run_append.1 hs
    cases hs'.symm.trans hm
    obtain ⟨rfl, rfl, hin⟩ :=
      (((kept_of_run hs').owned hc' hst').run hr).owner i c _ _ _ hc hst
    rw [hin, arrivals_append, List.append_assoc]
    exact ⟨rfl, rfl, rfl⟩

theorem replyOf_ne_rpc (ask : Ask) (result : Json) (method : String) (payload : Json) :
    Session.replyOf ask result ≠ .error (.rpc method payload) := by
  unfold Session.replyOf
  split
  · nofun
  · split <;> nofun
  · split <;> nofun

/-! ## Answers of a run -/

/-- A call is answered or refused by the first message with the integer id of its request among
those that were not read when the request began: it gets the result of that message, or its error
as it is. No other request of the run has this id. A message with any other id or without one
changes nothing but that it is taken off, and only a call that waits for an answer takes messages
off. -/
theorem answered_by_first_under_own_id (hb : Breaks inputs)
    (h : Session.run? server (.start n) inputs = some s) :
    (∀ i c answer, s.calls[i]? = some c → c.stage = .finished answer → c.ask ≠ .shutdown →
      isVerdict answer = true →
      ∃ m id pending body msg, Asks server n inputs i m id pending ∧
        pending.find? (carries id) = some body ∧ message? body = some msg ∧
        content? (field? "id" 0 msg) = some (.int id) ∧
        (∀ reply, answer = .ok reply → m = c.ask.method ∧
          content? (field? "error" 2 msg) = none ∧
          c.ask.Gets ((content? (field? "result" 1 msg)).getD .null) reply) ∧
        (∀ method payload, answer = .error (.rpc method payload) →
          method = m.name ∧ content? (field? "error" 2 msg) = some payload) ∧
        ∀ j m' id' pending', Asks server n inputs j m' id' pending' → carries id' body = true →
          j = i ∧ m' = m ∧ id' = id) ∧
    (∀ i c m id deadline body rest pipe, s.calls[i]? = some c →
      c.stage = .receiving m id deadline → s.inbox = body :: rest →
      (Answer.ofBody? body).isSome = true → carries id body = false →
      Session.step? server s (.poll i pipe) = some { s with inbox := rest }) ∧
    ∀ a t, Session.step? server s a = some t → t.inbox = s.inbox ++ arrivals [a] ∨
      ∃ i c m id deadline body, a.target = some i ∧ s.calls[i]? = some c ∧
        c.stage = .receiving m id deadline ∧ s.inbox = body :: t.inbox := by
  refine ⟨?_, ?_, ?_⟩
  · intro i c answer hc hs hask hv
    obtain ⟨m, id, body, msg, hm, ⟨pending, hasks, hfind, hmsg⟩, rfl, herr⟩ :=
      (accounted_of_run hb h hc).ended answer hs hask hv
    obtain ⟨message, hmessage, hfid, hfres, hferr⟩ := ofBody?_fields hmsg
    have hcarries : carries id body = true := List.find?_some hfind
    have hid : msg.id = some (.int id) :=
      Answer.answers_iff.1 ((carries_eq hmsg).symm.trans hcarries)
    refine ⟨m, id, pending, body, message, hasks, hfind, hmessage, hfid ▸ hid, ?_, ?_, ?_⟩
    · intro reply hok
      rw [← hferr, ← hfres]
      cases he : msg.error with
      | some payload =>
        rw [verdict, he] at hok
        cases hok
      | none =>
        rw [verdict, he] at hok
        refine ⟨hm.resolve_left fun hm => herr hm he, rfl, gets_of_replyOf ?_ hok⟩
        rw [hfres]
        exact sorted_of_content? _
    · intro method payload hrpc
      rw [← hferr]
      cases he : msg.error with
      | some payload' =>
        rw [verdict, he] at hrpc
        cases hrpc
        exact ⟨rfl, rfl⟩
      | none =>
        rw [verdict, he] at hrpc
        exact absurd hrpc (replyOf_ne_rpc _ _ _ _)
    · intro j m' id' pending' hasks' hcarries'
      have hid' := Answer.answers_iff.1 ((carries_eq hmsg).symm.trans hcarries')
      rw [hid, Option.some.injEq, Json.int.injEq, Int.ofNat_inj] at hid'
      subst hid'
      obtain ⟨rfl, rfl, -⟩ := hasks.unique hasks'
      exact ⟨rfl, rfl, rfl⟩
  · intro i c m id deadline body rest pipe hc hs hin hread hid
    obtain ⟨msg, hmsg⟩ := Option.isSome_iff_exists.1 hread
    refine step_skip hc hs hin hmsg fun heq => ?_
    rw [carries_eq hmsg, Answer.answers_iff.2 heq] at hid
    cases hid
  · intro a t hs
    rcases htgt : a.target with _ | i
    · exact .inl (step_arrivals hs htgt).2
    · obtain ⟨c, hc, ht⟩ := Session.step_turn hs htgt
      rw [arrivals_of_target htgt, List.append_nil]
      rcases ht.inbox_eq with hin | ⟨m, id, deadline, body, hst, hin⟩
      · exact .inl hin
      · exact .inr ⟨i, c, m, id, deadline, body, rfl, hc, hst, hin⟩

end

/-- A listing is not answered in time. The next one gets the late answer first and then its own,
after which the output of the server ends. -/
def lateAnswer : List SessionInput :=
  listing ++ [.tick (Duration.ofSecs 15), .poll 0 .broken, .make 1 .list, .poll 1 (.takes 0),
    .deliver (Text.Utf8.bytesOf
      "\x7b\"id\":2,\"result\":\x7b\"tools\":[\x7b\"name\":\"late\"\x7d]\x7d\x7d"),
    .poll 1 (.takes 1000),
    .deliver (Text.Utf8.bytesOf
      "\x7b\"id\":3,\"result\":\x7b\"tools\":[\x7b\"name\":\"own\"\x7d]\x7d\x7d"),
    .fail .connectionClosed, .poll 1 .broken, .poll 1 .broken]

theorem next_listing_ignores_late_answer : ∃ s c id pending body msg result,
    Session.run? clerk (.start 2) lateAnswer = some s ∧ s.calls[1]? = some c ∧
      c.stage = .finished (.ok (.tools [⟨"own", "", .obj []⟩])) ∧
      Asks clerk 2 lateAnswer 1 .toolsList id pending ∧
      pending.find? (carries id) = some body ∧ message? body = some msg ∧
      content? (field? "id" 0 msg) = some (.int id) ∧
      content? (field? "result" 1 msg) = some result ∧
      Lists result [⟨"own", "", .obj []⟩] := by
  have check : ((Session.run? clerk (.start 2) lateAnswer).any fun s => s.calls[1]?.any fun c =>
      c.ask == .list && c.stage.answer?.any fun answer =>
        answer.toOption == some (.tools [⟨"own", "", .obj []⟩])) = true := by
    decide +kernel
  simp only [Option.any_eq_true, Bool.and_eq_true, beq_iff_eq, Stage.answer?_eq_some] at check
  obtain ⟨s, hs, c, hc, hask, answer, hst, hans⟩ := check
  obtain rfl : answer = .ok (.tools [⟨"own", "", .obj []⟩]) := by
    cases answer with
    | error => cases hans
    | ok => cases hans; rfl
  have hb : Breaks lateAnswer := by
    refine breaks_of_readAll fun e he => ⟨[], ?_⟩
    rw [Frame.readAll_more rfl]
    simpa [lateAnswer, listing, eq_comm] using he
  have hlist : c.ask ≠ .shutdown := by
    rw [hask]
    rintro ⟨⟩
  obtain ⟨m, id, pending, body, msg, hasks, hfind, hmsg, hid, hok, -⟩ :=
    (answered_by_first_under_own_id hb hs).1 1 c _ hc hst hlist rfl
  obtain ⟨rfl, -, hgets⟩ := hok _ rfl
  rw [hask] at hasks hgets
  obtain ⟨tools, htools, hlists⟩ := hgets
  cases htools
  cases hr : content? (field? "result" 1 msg) with
  | none =>
    rw [hr] at hlists
    cases hlists
  | some result =>
    rw [hr] at hlists
    exact ⟨s, c, id, pending, body, msg, result, hs, hc, hst, hasks, hfind, hmsg, hid, hr, hlists⟩

end Switchboard.Tools
