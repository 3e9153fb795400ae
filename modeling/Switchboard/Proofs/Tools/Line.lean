import Switchboard.Proofs.Tools.Conversation

/-!
# The line to a tool server

Only the call that has the turn writes. What is on the wire and what that call is about to write are
a conversation (`Kept`), whichever way the turn goes on: there is one lemma for each, and
`Kept.turn` puts them together.
-/

namespace Switchboard.Tools

section
variable {answered : Nat → Prop} {server : Server} {s t : Session} {i : Nat} {c : SessionCall}
  {id : Nat} {msgs : List Sent} {next : Sent} {what : Sending} {m : Method} {rest : List UInt8}

theorem fail_phase (s : Session) (i : Nat) (c : SessionCall) (m : Method) (e : ToolError) :
    (s.fail i c m e).phase = .closed ∨ (s.fail i c m e).phase = s.phase ∨
      s.phase = .handshaking ∧ (s.fail i c m e).phase = .fresh := by
  unfold Session.fail Session.finish Session.setStage
  split
  · dsimp only
    split
    · next h => exact .inr (.inr ⟨h, rfl⟩)
    · exact .inr (.inl rfl)
  · exact .inl rfl
  · dsimp only
    split
    · exact .inl rfl
    · exact .inr (.inl rfl)

/-- A message that was not written to its end closes the session. -/
theorem unsent_frame (s : Session) (i : Nat) (c : SessionCall) (e : ToolError) (what : Sending)
    (h : s.phase = .closed ∨ ∃ cause, e = .io cause) :
    (s.unsent i c e what).phase = .closed ∧ (s.unsent i c e what).holder = none ∧
      (s.unsent i c e what).wire = s.wire ∧ (s.unsent i c e what).inbox = s.inbox ∧
      (s.unsent i c e what).calls = s.calls.set i { c with stage := .finished (.error e) } := by
  cases what with
  | initialized => exact ⟨rfl, rfl, rfl, rfl, rfl⟩
  | request m id =>
    refine ⟨?_, rfl, rfl, rfl, rfl⟩
    rcases h with h | ⟨cause, rfl⟩
    · rcases fail_phase s i c m e with hp | hp | ⟨hp, -⟩
      · exact hp
      · exact hp.trans h
      · rw [h] at hp
        cases hp
    · cases m <;> rfl

/-- What a session keeps. -/
structure Kept (answered : Nat → Prop) (server : Server) (s : Session) : Prop where
  solo : ∀ j d, s.calls[j]? = some d → d.stage.isActive = true → s.holder = some j
  line : Line answered server s
  inbox : ∀ body ∈ s.inbox, ∀ k result,
    Session.read .handshake k body = some (.ok (some result)) → answered k

theorem Line.congr (h : Line answered server s) (holder : t.holder = s.holder)
    (writing : t.writing = s.writing) (phase : t.phase = s.phase) (nextId : t.nextId = s.nextId)
    (wire : t.wire = s.wire)
    (calls : ∀ j, s.holder = some j → t.calls[j]? = s.calls[j]?) : Line answered server t := by
  cases h with
  | idle h1 h2 h3 h4 =>
    exact .idle (holder.trans h1) (writing.trans h2) (phase ▸ nextId ▸ h3) (wire.trans h4)
  | shut h1 h2 h3 h4 h5 =>
    exact .shut (holder.trans h1) (by rwa [writing, phase]) h3 h4 (wire.trans h5)
  | sending h1 h2 h3 h4 h5 h6 h7 h8 h9 =>
    exact .sending (holder.trans h1) ((calls _ h1).trans h2) h3 h4 (writing.trans h5)
      (by rwa [phase, nextId]) h7 h8 (wire.trans h9)
  | receiving h1 h2 h3 h4 h5 h6 h7 =>
    exact .receiving (holder.trans h1) ((calls _ h1).trans h2) h3 h4 (writing.trans h5)
      (by rwa [phase, nextId]) (wire.trans h7)

/-- Nobody has the turn. -/
theorem Line.of_free (h : Line answered server s) (hh : s.holder = none) :
    (s.writing = false ∧ ∃ msgs, Talks answered s.phase s.nextId msgs ∧
        s.wire = script server msgs) ∨
      (s.writing = true ∨ s.phase = .closed) ∧ ∃ msgs cut, Conversation answered msgs ∧
        Cut answered server msgs cut ∧ s.wire = script server msgs ++ cut := by
  cases h with
  | idle _ h2 h3 h4 => exact .inl ⟨h2, _, h3, h4⟩
  | shut _ h2 h3 h4 h5 => exact .inr ⟨h2, _, _, h3, h4, h5⟩
  | sending h1 | receiving h1 => rw [hh] at h1; cases h1

/-- The call with the turn writes a message or waits for an answer. -/
theorem Line.of_holder (h : Line answered server s) (hi : s.holder = some i)
    (hc : s.calls[i]? = some c) :
    (∃ what rest deadline msgs next done, c.stage = .sending what rest deadline ∧
        c.ask ≠ .shutdown ∧ s.writing = true ∧
        Writes answered c.ask s.phase s.nextId what msgs next ∧ done ++ rest = next.frame server ∧
        rest ≠ [] ∧ s.wire = script server msgs ++ done) ∨
      ∃ m id deadline msgs, c.stage = .receiving m id deadline ∧ c.ask ≠ .shutdown ∧
        s.writing = false ∧ Waits answered c.ask s.phase s.nextId m id msgs ∧
        s.wire = script server msgs := by
  cases h with
  | idle h1 | shut h1 => rw [hi] at h1; cases h1
  | sending h1 h2 h3 h4 h5 h6 h7 h8 h9 =>
    rw [hi] at h1
    cases h1
    rw [hc] at h2
    cases h2
    exact .inl ⟨_, _, _, _, _, _, h3, h4, h5, h6, h7, h8, h9⟩
  | receiving h1 h2 h3 h4 h5 h6 h7 =>
    rw [hi] at h1
    cases h1
    rw [hc] at h2
    cases h2
    exact .inr ⟨_, _, _, _, h3, h4, h5, h6, h7⟩

theorem Kept.of_sending {deadline : Nat} (h : Kept answered server s) (hc : s.calls[i]? = some c)
    (hs : c.stage = .sending what rest deadline) :
    c.ask ≠ .shutdown ∧ s.holder = some i ∧ s.writing = true ∧
      ∃ msgs next done, Writes answered c.ask s.phase s.nextId what msgs next ∧
        done ++ rest = next.frame server ∧ rest ≠ [] ∧ s.wire = script server msgs ++ done := by
  have hi := h.solo i c hc (by rw [hs]; rfl)
  rcases h.line.of_holder hi hc with
    ⟨_, _, _, msgs, next, done, hs', hask, hwr, hrest⟩ | ⟨_, _, _, _, hs', -⟩
  · rw [hs] at hs'
    cases hs'
    exact ⟨hask, hi, hwr, msgs, next, done, hrest⟩
  · rw [hs] at hs'
    cases hs'

theorem Kept.of_receiving {deadline : Nat} (h : Kept answered server s)
    (hc : s.calls[i]? = some c) (hs : c.stage = .receiving m id deadline) :
    c.ask ≠ .shutdown ∧ s.holder = some i ∧ s.writing = false ∧
      ∃ msgs, Waits answered c.ask s.phase s.nextId m id msgs ∧ s.wire = script server msgs := by
  have hi := h.solo i c hc (by rw [hs]; rfl)
  rcases h.line.of_holder hi hc with
    ⟨_, _, _, _, _, _, hs', -⟩ | ⟨_, _, _, msgs, hs', hask, hwr, hrest⟩
  · rw [hs] at hs'
    cases hs'
  · rw [hs] at hs'
    cases hs'
    exact ⟨hask, hi, hwr, msgs, hrest⟩

/-- No other call has the turn where `i` changes. -/
theorem Kept.solo_set {x : SessionCall} (h : Kept answered server s)
    (hc : t.calls = s.calls.set i x) (hi : s.holder = none ∨ s.holder = some i)
    (hx : x.stage.isActive = true → t.holder = some i) :
    ∀ j d, t.calls[j]? = some d → d.stage.isActive = true → t.holder = some j := by
  intro j d hd ha
  rw [hc, List.getElem?_set] at hd
  split at hd
  · next hij =>
    subst hij
    split at hd
    · cases hd
      exact hx ha
    · cases hd
  · next hij =>
    have := h.solo j d hd ha
    rcases hi with hi | hi <;> rw [hi] at this <;> cases this
    exact absurd rfl hij

/-- A call that has not its turn changes nothing on the line. -/
theorem Kept.aside {x : SessionCall} (h : Kept answered server s) (hc : s.calls[i]? = some c)
    (hs : c.stage.isActive = false) (hx : x.stage.isActive = false)
    (calls : t.calls = s.calls.set i x) (holder : t.holder = s.holder)
    (writing : t.writing = s.writing) (phase : t.phase = s.phase) (nextId : t.nextId = s.nextId)
    (wire : t.wire = s.wire) (inbox : t.inbox = s.inbox) : Kept answered server t := by
  refine ⟨fun j d hd ha => ?_, h.line.congr holder writing phase nextId wire fun j hj => ?_,
    inbox ▸ h.inbox⟩
  · rw [calls, List.getElem?_set] at hd
    split at hd
    · split at hd
      · cases hd
        rw [hx] at ha
        cases ha
      · cases hd
    · exact holder.trans (h.solo j d hd ha)
  · rw [calls, List.getElem?_set_ne]
    rintro rfl
    have : ∃ d, s.calls[i]? = some d ∧ d.stage.isActive = true := by
      cases h.line with
      | idle h1 | shut h1 => rw [hj] at h1; cases h1
      | sending h1 h2 h3 | receiving h1 h2 h3 =>
        rw [hj] at h1
        cases h1
        exact ⟨_, h2, by rw [h3]; rfl⟩
    obtain ⟨d, hd, ha⟩ := this
    rw [hc] at hd
    cases hd
    rw [hs] at ha
    cases ha

/-- The session is shut by the call that had the turn, or could have had it. -/
theorem Kept.shut {x : SessionCall} {cut : List UInt8} (h : Kept answered server s)
    (hi : s.holder = none ∨ s.holder = some i) (calls : t.calls = s.calls.set i x)
    (hx : x.stage.isActive = false) (holder : t.holder = none)
    (hshut : t.writing = true ∨ t.phase = .closed) (hmsgs : Conversation answered msgs)
    (hcut : Cut answered server msgs cut) (wire : t.wire = script server msgs ++ cut)
    (inbox : ∀ body ∈ t.inbox, body ∈ s.inbox) : Kept answered server t :=
  ⟨h.solo_set calls hi fun ha => absurd ha (by rw [hx]; nofun),
    .shut holder hshut hmsgs hcut wire, fun body hb => h.inbox body (inbox body hb)⟩

/-- The call that could have the turn begins to write a message. -/
theorem Kept.begin {deadline : Nat} (h : Kept answered server s)
    (hc : s.calls[i]? = some c) (hi : s.holder = none ∨ s.holder = some i)
    (hask : c.ask ≠ .shutdown)
    (calls : t.calls = s.calls.set i
      { c with stage := .sending what rest deadline })
    (hrest : rest = next.frame server) (holder : t.holder = some i) (writing : t.writing = true)
    (hw : Writes answered c.ask t.phase t.nextId what msgs next)
    (wire : t.wire = script server msgs) (inbox : ∀ body ∈ t.inbox, body ∈ s.inbox) :
    Kept answered server t := by
  obtain ⟨hlt, -⟩ := List.getElem?_eq_some_iff.1 hc
  refine ⟨h.solo_set calls hi fun _ => holder, ?_, fun body hb => h.inbox body (inbox body hb)⟩
  have hc' := (congrArg (·[i]?) calls).trans (List.getElem?_set_self hlt)
  subst hrest
  exact .sending holder hc' rfl hask writing hw (List.nil_append _) (framed_ne_nil _)
    (by rw [wire, List.append_nil])

/-- The turn is over, and the session can go on. -/
theorem Kept.finish {x : SessionCall} (h : Kept answered server s)
    (hi : s.holder = some i) (calls : t.calls = s.calls.set i x) (hx : x.stage.isActive = false)
    (holder : t.holder = none) (writing : t.writing = false)
    (ht : Talks answered t.phase t.nextId msgs) (wire : t.wire = script server msgs)
    (inbox : ∀ body ∈ t.inbox, body ∈ s.inbox) : Kept answered server t :=
  ⟨h.solo_set calls (.inr hi) fun ha => absurd ha (by rw [hx]; nofun),
    .idle holder writing ht wire, fun body hb => h.inbox body (inbox body hb)⟩

/-- The request of a call fails while it waits for the answer. -/
theorem Kept.failing {deadline : Nat} {e : ToolError} {s' : Session}
    (h : Kept answered server s) (hc : s.calls[i]? = some c)
    (hs : c.stage = .receiving m id deadline)
    (hf : Session.Failing server s m id deadline e s') :
    Kept answered server (s'.fail i c m e) := by
  obtain ⟨-, hi, hwr, msgs, hw, hwire⟩ := h.of_receiving hc hs
  obtain ⟨hph, hid, hwire', hwr', hcalls, hinbox⟩ : s'.phase = s.phase ∧ s'.nextId = s.nextId ∧
      s'.wire = s.wire ∧ s'.writing = s.writing ∧ s'.calls = s.calls ∧
      ∀ body ∈ s'.inbox, body ∈ s.inbox := by
    cases hf with
    | refused hi | blank _ hi =>
      exact ⟨rfl, rfl, rfl, rfl, rfl, fun b hb => by rw [hi]; exact List.mem_cons_of_mem _ hb⟩
    | lost | late => exact ⟨rfl, rfl, rfl, rfl, rfl, fun b hb => hb⟩
  have calls : (s'.fail i c m e).calls =
      s.calls.set i { c with stage := .finished (.error e) } := by rw [← hcalls]; rfl
  have wire : (s'.fail i c m e).wire = script server msgs := hwire'.trans hwire
  have writing : (s'.fail i c m e).writing = false := hwr'.trans hwr
  have talks : (s'.fail i c m e).phase ≠ .closed →
      Talks answered (s'.fail i c m e).phase (s'.fail i c m e).nextId msgs := by
    intro hne
    have hn : (s'.fail i c m e).nextId = s.nextId := hid
    rw [hn]
    rcases fail_phase s' i c m e with hp | hp | ⟨hp, hp'⟩
    · exact absurd hp hne
    · rw [hp, hph]
      exact hw.talks
    · rw [hp']
      have := hw.talks
      rw [← hph, hp] at this
      exact this.again
  by_cases hcl : (s'.fail i c m e).phase = .closed
  · exact h.shut (.inr hi) calls rfl rfl (.inr hcl) hw.talks.conversation (.inl rfl)
      (wire.trans (List.append_nil _).symm) hinbox
  · exact h.finish hi calls rfl rfl writing (talks hcl) wire hinbox

/-- A call that is let through begins with a handshake unless there was one. -/
theorem Kept.greet (h : Kept answered server s) (hc : s.calls[i]? = some c) (hn : s.Next i c)
    (hask : c.ask ≠ .shutdown) (hwr : s.writing = false)
    (hp : s.phase = .fresh ∨ s.phase = .handshaking) :
    Kept answered server
      ({ s.take i with phase := .handshaking }.sendRequest server i c .handshake) := by
  rcases h.line.of_free hn.free with ⟨-, msgs, hm, hw⟩ | ⟨hsh, -⟩
  · obtain ⟨k, hk, rfl⟩ := hm.hello (by rcases hp with hp | hp <;> rw [hp] <;> nofun)
    have hwrites : Writes answered c.ask .handshaking (s.nextId + 1)
        (.request .handshake s.nextId) (hellos k) (.hello s.nextId) := by
      rw [hk]
      exact .hello
    exact h.begin hc (.inl hn.free) hask rfl (frame_hello ..) rfl rfl hwrites hw fun _ hb => hb
  · rcases hsh with hsh | hsh
    · rw [hwr] at hsh; cases hsh
    · rcases hp with hp | hp <;> rw [hp] at hsh <;> cases hsh

theorem Kept.request (h : Kept answered server s) (hc : s.calls[i]? = some c) (hn : s.Next i c)
    (hask : c.ask ≠ .shutdown) (hwr : s.writing = false) (hp : s.phase = .ready) :
    Kept answered server ((s.take i).sendRequest server i c c.ask.method) := by
  rcases h.line.of_free hn.free with ⟨-, msgs, hm, hw⟩ | ⟨hsh, -⟩
  · have hwrites : Writes answered c.ask s.phase (s.nextId + 1)
        (.request c.ask.method s.nextId) msgs (.tools s.nextId c.ask) := by
      rw [hp] at hm ⊢
      exact .tools hm
    exact h.begin hc (.inl hn.free) hask rfl (frame_tools ..) rfl rfl hwrites hw fun _ hb => hb
  · rcases hsh with hsh | hsh
    · rw [hwr] at hsh; cases hsh
    · rw [hp] at hsh; cases hsh

/-- Some bytes of a message are written, but not the last one. -/
theorem Kept.part {deadline n : Nat} (h : Kept answered server s) (hc : s.calls[i]? = some c)
    (hs : c.stage = .sending what rest deadline) (hlt : n < rest.length) :
    Kept answered server ({ s with wire := s.wire ++ rest.take n }.setStage i c
      (.sending what (rest.drop n) deadline)) := by
  obtain ⟨hask, hi, hwr, msgs, next, done, hw, hd, -, hwire⟩ := h.of_sending hc hs
  refine ⟨h.solo_set rfl (.inr hi) fun _ => hi, ?_, h.inbox⟩
  have hc' := List.getElem?_set_self (a := ({ c with
    stage := .sending what (rest.drop n) deadline } : SessionCall))
    (List.getElem?_eq_some_iff.1 hc).1
  have hd' : (done ++ rest.take n) ++ rest.drop n = next.frame server := by
    rw [List.append_assoc, List.take_append_drop, hd]
  refine .sending hi hc' rfl hask hwr hw hd' (by simpa using hlt) ?_
  show s.wire ++ _ = _
  rw [hwire, List.append_assoc]

/-- The rest of a request is written. -/
theorem Kept.whole {deadline : Nat} (h : Kept answered server s) (hc : s.calls[i]? = some c)
    (hs : c.stage = .sending (.request m id) rest deadline) :
    Kept answered server ({ s with wire := s.wire ++ rest, writing := false }.setStage i c
      (.receiving m id deadline)) := by
  obtain ⟨hask, hi, hwr, msgs, next, done, hw, hd, -, hwire⟩ := h.of_sending hc hs
  refine ⟨h.solo_set rfl (.inr hi) fun _ => hi, ?_, h.inbox⟩
  have hc' := List.getElem?_set_self (a := ({ c with
    stage := .receiving m id deadline } : SessionCall)) (List.getElem?_eq_some_iff.1 hc).1
  refine .receiving hi hc' rfl hask rfl (hw.waits hask) ?_
  show s.wire ++ _ = _
  rw [script_concat, hwire, List.append_assoc, hd]

/-- The rest of the notification is written, and the request of the call follows. -/
theorem Kept.greeted {deadline : Nat} (h : Kept answered server s) (hc : s.calls[i]? = some c)
    (hs : c.stage = .sending .initialized rest deadline) :
    Kept answered server
      ({ s with wire := s.wire ++ rest, writing := false, phase := .ready }.sendRequest server i c
        c.ask.method) := by
  obtain ⟨hask, hi, hwr, msgs, next, done, hw, hd, -, hwire⟩ := h.of_sending hc hs
  have hwire' : s.wire ++ rest = script server (msgs ++ [next]) := by
    rw [script_concat, hwire, List.append_assoc, hd]
  obtain ⟨k, hk, ha, hid, rfl, rfl⟩ := hw.settled_eq
  have none : ∀ ask ∈ ([] : List Ask), ask ≠ .shutdown := fun _ hm => nomatch hm
  have ht : Talks answered .ready s.nextId (hellos k ++ [.settled]) := by
    rw [hid, ← dialogue_nil]
    exact .working hk ha none
  exact h.begin hc (.inr hi) hask rfl (frame_tools ..) hi rfl (.tools ht) hwire' fun _ hb => hb

/-- The deadline passes while a message is being written. -/
theorem Kept.stuck {deadline n : Nat} (h : Kept answered server s) (hc : s.calls[i]? = some c)
    (hs : c.stage = .sending what rest deadline) (hlt : n < rest.length) (e : ToolError) :
    Kept answered server
      ({ s with wire := s.wire ++ rest.take n, phase := .closed }.unsent i c e what) := by
  obtain ⟨hask, hi, -, msgs, next, done, hw, hd, -, hwire⟩ := h.of_sending hc hs
  obtain ⟨hcl, hh, hwi, hin, hca⟩ := unsent_frame
    { s with wire := s.wire ++ rest.take n, phase := .closed } i c e what (.inl rfl)
  obtain ⟨hconv, hconv'⟩ := hw.conversation hask
  have hd' : (done ++ rest.take n) ++ rest.drop n = next.frame server := by
    rw [List.append_assoc, List.take_append_drop, hd]
  have hcut := cut_of_rest hd' (by simpa using hlt) hconv'
  refine h.shut (.inr hi) hca rfl hh (.inr hcl) hconv hcut ?_ fun b hb => by rwa [hin] at hb
  rw [hwi]
  show s.wire ++ _ = _
  rw [hwire, List.append_assoc]

/-- A message cannot be written. -/
theorem Kept.broken {deadline : Nat} {cause : String} (h : Kept answered server s)
    (hc : s.calls[i]? = some c) (hs : c.stage = .sending what rest deadline) :
    Kept answered server ({ s with writing := false }.unsent i c (.io cause) what) := by
  obtain ⟨hask, hi, -, msgs, next, done, hw, hd, hr, hwire⟩ := h.of_sending hc hs
  obtain ⟨hcl, hh, hwi, hin, hca⟩ :=
    unsent_frame { s with writing := false } i c (.io cause) what (.inr ⟨_, rfl⟩)
  obtain ⟨hconv, hconv'⟩ := hw.conversation hask
  exact h.shut (.inr hi) hca rfl hh (.inr hcl) hconv (cut_of_rest hd hr hconv')
    (hwi.trans hwire) fun b hb => by rwa [hin] at hb

/-- The handshake is answered, and the notification follows. -/
theorem Kept.welcome {deadline : Nat} {body : List UInt8} {inbox : List (List UInt8)}
    {result : Json} (h : Kept answered server s) (hc : s.calls[i]? = some c)
    (hs : c.stage = .receiving .handshake id deadline) (hin : s.inbox = body :: inbox)
    (hread : Session.read .handshake id body = some (.ok (some result))) :
    Kept answered server ({ s with inbox := inbox }.sendInitialized server i c) := by
  obtain ⟨hask, hi, -, msgs, hw, hwire⟩ := h.of_receiving hc hs
  obtain ⟨hk, hp, hid, rfl⟩ := hw.hello_eq rfl
  have ha : answered id := h.inbox body (by rw [hin]; exact List.mem_cons_self) id result hread
  have hwrites : Writes answered c.ask s.phase s.nextId .initialized (hellos id) .settled := by
    rw [hp, hid]
    exact .settled hk ha
  have hsub : ∀ b ∈ inbox, b ∈ s.inbox := fun b hb => by
    rw [hin]
    exact List.mem_cons_of_mem _ hb
  exact h.begin hc (.inr hi) hask rfl (frame_settled _) hi rfl hwrites hwire hsub

/-- The caller gives up while its call has the turn. -/
theorem Kept.letGo (h : Kept answered server s) (hc : s.calls[i]? = some c)
    (hact : c.stage.isActive = true) :
    Kept answered server ({ s with holder := none }.setStage i c .dropped) := by
  match hs : c.stage with
  | .sending what rest deadline =>
    obtain ⟨hask, hi, hwr, msgs, next, done, hw, hd, hr, hwire⟩ := h.of_sending hc hs
    obtain ⟨hconv, hconv'⟩ := hw.conversation hask
    exact h.shut (.inr hi) rfl rfl rfl (.inl hwr) hconv (cut_of_rest hd hr hconv') hwire
      fun _ hb => hb
  | .receiving m id deadline =>
    obtain ⟨-, hi, hwr, msgs, hw, hwire⟩ := h.of_receiving hc hs
    exact h.finish hi rfl rfl rfl hwr hw.talks hwire fun _ hb => hb
  | .unmade | .waiting | .finished _ | .dropped => rw [hs] at hact; cases hact

theorem Kept.turn {a : SessionInput} (h : Kept answered server s) (hc : s.calls[i]? = some c)
    (ht : Session.Turn server s i c a t) : Kept answered server t := by
  cases ht with
  | refuse hs | queue hs | leave hs =>
    exact h.aside hc (by rw [hs]; rfl) rfl rfl rfl rfl rfl rfl rfl rfl
  | stop hn | bounce hn =>
    rcases h.line.of_free hn.free with ⟨-, msgs, hm, hw⟩ | ⟨-, msgs, cut, hm, hcut, hw⟩
    · exact h.shut (.inl hn.free) rfl rfl rfl (.inr rfl) hm.conversation (.inl rfl)
        (hw.trans (List.append_nil _).symm) fun _ hb => hb
    · exact h.shut (.inl hn.free) rfl rfl rfl (.inr rfl) hm hcut hw fun _ hb => hb
  | greet hn hask hwr _ hp => exact h.greet hc hn hask hwr hp
  | request hn hask hwr _ hp => exact h.request hc hn hask hwr hp
  | part hs _ hlt _ => exact h.part hc hs hlt
  | whole hs _ => exact h.whole hc hs
  | greeted hs _ => exact h.greeted hc hs
  | stuck hs hlt _ => exact h.stuck hc hs hlt _
  | broken hs => exact h.broken hc hs
  | skip hs hi =>
    refine ⟨h.solo, h.line.congr rfl rfl rfl rfl rfl fun _ _ => rfl, fun body hb => ?_⟩
    exact h.inbox body (by rw [hi]; exact List.mem_cons_of_mem _ hb)
  | welcome hs hin hread => exact h.welcome hc hs hin hread
  | answer hs _ hin =>
    obtain ⟨-, hi, hwr, msgs, hw, hwire⟩ := h.of_receiving hc hs
    refine h.finish hi rfl rfl rfl hwr hw.talks hwire ?_
    intro b hb
    rw [hin]
    exact List.mem_cons_of_mem _ hb
  | fail hs hf => exact h.failing hc hs hf
  | letGo hact => exact h.letGo hc hact

theorem Kept.step {a : SessionInput} (h : Kept answered server s)
    (ha : ∀ body, a = .deliver body → ∀ k result,
      Session.read .handshake k body = some (.ok (some result)) → answered k)
    (hs : Session.step? server s a = some t) : Kept answered server t := by
  match hi : a.target with
  | some i =>
    obtain ⟨c, hc, ht⟩ := Session.step_turn hs hi
    exact h.turn hc ht
  | none =>
    obtain ⟨now, inbox, broken, rfl, hin⟩ := Session.step_outside hs hi
    refine ⟨h.solo, h.line.congr rfl rfl rfl rfl rfl fun _ _ => rfl, fun b hb => ?_⟩
    rcases hin with rfl | ⟨body, rfl, rfl⟩
    · exact h.inbox b hb
    · rcases List.mem_append.1 hb with hb | hb
      · exact h.inbox b hb
      · rw [List.mem_singleton.1 hb]
        exact ha body rfl

theorem kept_start (answered : Nat → Prop) (server : Server) (n : Nat) :
    Kept answered server (.start n) := by
  have hello : Talks answered .fresh 1 (hellos 0) := .greeting (.inl rfl)
  refine ⟨fun j d hd ha => ?_, .idle rfl rfl hello rfl, fun _ hb => nomatch hb⟩
  obtain ⟨hj, rfl⟩ := List.getElem?_eq_some_iff.1 hd
  simp only [Session.start, List.getElem_replicate] at ha
  cases ha

end

end Switchboard.Tools
