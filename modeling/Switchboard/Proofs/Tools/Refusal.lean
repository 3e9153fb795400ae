import Switchboard.Proofs.Tools.Correlation
import Switchboard.Proofs.Tools.Wire

/-!
# Calls that are turned away

A session that is closed, was asked to stop or has begun a frame that nobody ends lets no call
through (`Session.Barred`). A call whose turn comes then is turned away, and nothing is written,
numbered or read for it (`Session.Turn.turned_away`). What it gets depends only on what it asks for
(`Ask.turnedAway`). The calls that wait are those in the queue (`Orderly`), so polling them in order
turns all of them away (`drain`). If no call has its turn either, the session is `Spent`, and stays
so whatever comes (`Spent.outlasts`).
-/

namespace Switchboard.Tools

/-- What a call gets that is not let through. -/
def Ask.turnedAway (ask : Ask) : Except ToolError Reply :=
  match Session.checkArguments ask with
  | .error e => .error e
  | .ok .shutdown => .ok .stopped
  | .ok _ => .error .closed

namespace Session

def Barred (s : Session) : Prop := s.writing = true ∨ s.stopping = true ∨ s.phase = .closed

theorem Barred.closed {s : Session} (h : s.Barred) (hw : s.writing = false)
    (hs : s.stopping = false) : s.phase = .closed := by
  rcases h with h | h | h
  · rw [hw] at h
    cases h
  · rw [hs] at h
    cases h
  · exact h

/-- No call is let through, so one that has not the turn begins with no message. -/
theorem Barred.not_begins {s : Session} {i : Nat} {c : SessionCall} {a : SessionInput}
    {what : Sending} (h : s.Barred) (hidle : c.stage.isActive = false) :
    ¬ s.Begins i c a what := by
  intro hb
  cases hb with
  | greet _ _ hw hst hp => rw [h.closed hw hst] at hp; rcases hp with hp | hp <;> cases hp
  | request _ _ hw hst hp => rw [h.closed hw hst] at hp; cases hp
  | welcome hs | greeted hs => rw [hs] at hidle; cases hidle

/-- Nothing was exchanged with the server. -/
structure Passes (s t : Session) : Prop where
  wire : t.wire = s.wire
  nextId : t.nextId = s.nextId
  inbox : t.inbox = s.inbox
  writing : t.writing = s.writing
  phase : t.phase = s.phase ∨ t.phase = .closed

theorem Passes.trans {s t u : Session} (h : s.Passes t) (h' : t.Passes u) : s.Passes u where
  wire := h'.wire.trans h.wire
  nextId := h'.nextId.trans h.nextId
  inbox := h'.inbox.trans h.inbox
  writing := h'.writing.trans h.writing
  phase := by
    rcases h'.phase with hp | hp
    · exact h.phase.imp (hp.trans ·) (hp.trans ·)
    · exact .inr hp

/-- No call that was not let through in `s` has been let through since: it waits, was given up or
was turned away. -/
def Withheld (s t : Session) : Prop :=
  ∀ (j : Nat) (c d : SessionCall), s.calls[j]? = some c → c.stage.isActive = false →
    t.calls[j]? = some d →
    d.stage.isActive = false ∧
      ∀ answer, d.stage = .finished answer → c.stage = .finished answer ∨ answer = d.ask.turnedAway

end Session

/-- The calls in the queue are those that wait, each of them once. Arguments were checked before,
and who asks for a shutdown has said so. -/
structure Orderly (s : Session) : Prop where
  nodup : s.queue.Nodup
  waits : ∀ j, j ∈ s.queue ↔ ∃ c : SessionCall, s.calls[j]? = some c ∧ c.stage = .waiting
  checked : ∀ (j : Nat) (c : SessionCall), s.calls[j]? = some c → c.stage = .waiting →
    Session.checkArguments c.ask = .ok c.ask
  stops : ∀ (j : Nat) (c : SessionCall), s.calls[j]? = some c → c.ask = .shutdown →
    s.stopping = true

section
variable {server : Server} {s t u : Session} {i : Nat} {c x : SessionCall} {a : SessionInput}
  {ask ask' : Ask}

theorem checkArguments_ok (h : Session.checkArguments ask = .ok ask') :
    Session.checkArguments ask' = .ok ask' ∧ (ask' = .shutdown ↔ ask = .shutdown) := by
  unfold Session.checkArguments at h
  split at h <;> cases h
  · exact ⟨rfl, by simp⟩
  · exact ⟨rfl, by simp⟩
  · next h1 h2 h3 =>
    refine ⟨?_, Iff.rfl⟩
    cases ask with
    | list | shutdown => rfl
    | call tool arguments => exact absurd rfl (h3 tool arguments)

/-- A call that waits gets told that the session is closed, unless it closes the session itself. -/
theorem turnedAway_eq (h : Session.checkArguments ask = .ok ask) :
    ask.turnedAway = if ask = .shutdown then .ok .stopped else .error .closed := by
  rw [Ask.turnedAway, h]
  cases ask with
  | shutdown => rfl
  | list | call => rfl

theorem turnedAway_eq_closed (h : Session.checkArguments ask = .ok ask) (hask : ask ≠ .shutdown) :
    ask.turnedAway = .error .closed := by
  rw [turnedAway_eq h, if_neg hask]

/-! ## The queue -/

theorem orderly_start (n : Nat) : Orderly (.start n) := by
  have unmade : ∀ {j : Nat} {c : SessionCall}, (Session.start n).calls[j]? = some c →
      c = ⟨.list, .unmade⟩ := by
    intro j c hc
    obtain ⟨hj, rfl⟩ := List.getElem?_eq_some_iff.1 hc
    simp [Session.start]
  refine ⟨List.nodup_nil, fun j => ⟨fun h => absurd h List.not_mem_nil, ?_⟩,
    fun j c hc hw => ?_, fun j c hc hask => ?_⟩
  · rintro ⟨c, hc, hw⟩
    rw [unmade hc] at hw
    cases hw
  · rw [unmade hc] at hw
    cases hw
  · rw [unmade hc] at hask
    cases hask

theorem getElem?_set_of_some {j : Nat} (hc : s.calls[i]? = some c) :
    (s.calls.set i x)[j]? = if j = i then some x else s.calls[j]? := by
  by_cases hij : j = i
  · subst hij
    rw [if_pos rfl, List.getElem?_set_self (List.getElem?_eq_some_iff.1 hc).1]
  · rw [if_neg hij, List.getElem?_set_ne (Ne.symm hij)]

/-- One call changes, and the queue with it. -/
theorem Orderly.set (h : Orderly s) (hc : s.calls[i]? = some c) (calls : t.calls = s.calls.set i x)
    (nodup : t.queue.Nodup)
    (queue : ∀ j, j ∈ t.queue ↔ if j = i then x.stage = .waiting else j ∈ s.queue)
    (checked : x.stage = .waiting → Session.checkArguments x.ask = .ok x.ask)
    (stops : x.ask = .shutdown → t.stopping = true)
    (stopping : s.stopping = true → t.stopping = true) : Orderly t := by
  have hget : ∀ j, t.calls[j]? = if j = i then some x else s.calls[j]? := by
    intro j
    rw [calls, getElem?_set_of_some hc]
  refine ⟨nodup, fun j => ?_, fun j d hd hw => ?_, fun j d hd hask => ?_⟩
  · rw [queue, hget]
    split
    · simp
    · exact h.waits j
  · rw [hget] at hd
    split at hd
    · cases hd
      exact checked hw
    · exact h.checked j d hd hw
  · rw [hget] at hd
    split at hd
    · cases hd
      exact stops hask
    · exact stopping (h.stops j d hd hask)

/-- A call that does not wait goes on, ends or is given up. -/
theorem Orderly.go (h : Orderly s) (hc : s.calls[i]? = some c) (hs : c.stage ≠ .waiting)
    (calls : t.calls = s.calls.set i x) (hx : x.stage ≠ .waiting) (hask : x.ask = c.ask)
    (queue : t.queue = s.queue) (stopping : t.stopping = s.stopping) : Orderly t := by
  refine h.set hc calls (queue ▸ h.nodup) (fun j => ?_) (fun hw => absurd hw hx)
    (fun he => stopping ▸ h.stops i c hc (hask ▸ he)) fun he => stopping ▸ he
  rw [queue]
  split
  · next hij =>
    subst hij
    rw [h.waits]
    refine ⟨?_, fun hw => absurd hw hx⟩
    rintro ⟨d, hd, hw⟩
    rw [hc] at hd
    cases hd
    exact absurd hw hs
  · exact Iff.rfl

/-- The first call in the queue takes its turn. -/
theorem Orderly.tail (h : Orderly s) (hc : s.calls[i]? = some c) (hn : s.Next i c)
    (calls : t.calls = s.calls.set i x) (hx : x.stage ≠ .waiting) (hask : x.ask = c.ask)
    (queue : t.queue = s.queue.tail) (stopping : t.stopping = s.stopping) : Orderly t := by
  obtain ⟨rest, hq⟩ : ∃ rest, s.queue = i :: rest := by
    have hfirst := hn.first
    cases hq : s.queue with
    | nil => rw [hq] at hfirst; cases hfirst
    | cons j rest => rw [hq] at hfirst; cases hfirst; exact ⟨rest, rfl⟩
  have hnodup := h.nodup
  rw [hq] at queue hnodup
  obtain ⟨hnot, hnodup⟩ := List.nodup_cons.1 hnodup
  refine h.set hc calls (queue ▸ hnodup) (fun j => ?_) (fun hw => absurd hw hx)
    (fun he => stopping ▸ h.stops i c hc (hask ▸ he)) fun he => stopping ▸ he
  rw [queue, hq]
  split
  · next hij => exact ⟨fun hm => absurd (hij ▸ hm) hnot, fun hw => absurd hw hx⟩
  · next hij => simp [hij]

theorem Orderly.turn (h : Orderly s) (hc : s.calls[i]? = some c)
    (ht : Session.Turn server s i c a t) : Orderly t := by
  have idle : ∀ {stage : Stage}, c.stage = stage → stage ≠ .waiting → c.stage ≠ .waiting :=
    fun hs hne => hs ▸ hne
  cases ht with
  | refuse hs hargs =>
    refine h.set hc rfl h.nodup (fun j => ?_) nofun (fun hask => ?_) id
    · split
      · next hij =>
        subst hij
        refine ⟨fun hm => ?_, nofun⟩
        obtain ⟨d, hd, hw⟩ := (h.waits j).1 hm
        rw [hc] at hd
        cases hd
        rw [hs] at hw
        cases hw
      · exact Iff.rfl
    · cases hask
      cases hargs
  | @queue ask ask' hs hargs =>
    have hnot : i ∉ s.queue := by
      intro hm
      obtain ⟨d, hd, hw⟩ := (h.waits i).1 hm
      rw [hc] at hd
      cases hd
      rw [hs] at hw
      cases hw
    refine h.set hc rfl ?_ (fun j => ?_) (fun _ => (checkArguments_ok hargs).1) (fun hask => ?_)
      fun hst => ?_
    · exact List.nodup_append.2 ⟨h.nodup, by simp, fun x hx y hy => by
        rw [List.mem_singleton.1 hy]
        rintro rfl
        exact hnot hx⟩
    · show j ∈ s.queue ++ [i] ↔ _
      split
      · next hij => simp [hij]
      · next hij => simp [hij]
    · show (s.stopping || ask' == Ask.shutdown) = true
      simp [show ask' = Ask.shutdown from hask]
    · show (s.stopping || ask' == Ask.shutdown) = true
      simp [hst]
  | stop hn | bounce hn | greet hn | request hn => exact h.tail hc hn rfl nofun rfl rfl rfl
  | part hs | whole hs | greeted hs => exact h.go hc (idle hs nofun) rfl nofun rfl rfl rfl
  | @stuck what _ _ _ hs | @broken what _ _ hs =>
    cases what <;> exact h.go hc (idle hs nofun) rfl nofun rfl rfl rfl
  | skip => exact ⟨h.nodup, h.waits, h.checked, h.stops⟩
  | welcome hs | answer hs => exact h.go hc (idle hs nofun) rfl nofun rfl rfl rfl
  | fail hs hf => cases hf <;> exact h.go hc (idle hs nofun) rfl nofun rfl rfl rfl
  | leave hs =>
    refine h.set hc rfl (h.nodup.erase i) (fun j => ?_) nofun (h.stops i c hc) id
    show j ∈ s.queue.erase i ↔ _
    rw [h.nodup.mem_erase_iff]
    split
    · next hij => simp [hij]
    · next hij => simp [hij]
  | letGo hact =>
    refine h.go hc (fun hw => ?_) rfl nofun rfl rfl rfl
    rw [hw] at hact
    cases hact

theorem Orderly.step (h : Orderly s) (hs : Session.step? server s a = some t) : Orderly t := by
  match hi : a.target with
  | some i =>
    obtain ⟨c, hc, ht⟩ := Session.step_turn hs hi
    exact h.turn hc ht
  | none =>
    obtain ⟨now, inbox, broken, rfl, -⟩ := Session.step_outside hs hi
    exact ⟨h.nodup, h.waits, h.checked, h.stops⟩

theorem orderly_of_run {n : Nat} {inputs : List SessionInput}
    (h : Session.run? server (.start n) inputs = some s) : Orderly s :=
  Session.run_keeps (fun _ ho hs => ho.step hs) (orderly_start n) h

/-! ## Shutdowns that were asked for -/

/-- The input asks for a shutdown. -/
def SessionInput.stops : SessionInput → Bool
  | .make _ .shutdown => true
  | _ => false

theorem Session.Turn.stopping_eq (ht : Session.Turn server s i c a t) :
    t.stopping = (s.stopping || a.stops) := by
  have keep : ∀ {b : Bool}, b = (b || false) := fun {b} => (Bool.or_false b).symm
  cases ht with
  | @refuse ask _ _ hargs =>
    cases ask with
    | shutdown => cases hargs
    | _ => exact keep
  | @queue ask ask' _ hargs =>
    show (s.stopping || ask' == Ask.shutdown) = _
    have hiff := (checkArguments_ok hargs).2
    cases ask with
    | shutdown =>
      rw [hiff.2 rfl]
      rfl
    | list | call =>
      rw [beq_eq_false_iff_ne.2 fun he => nomatch hiff.1 he]
      rfl
  | @stuck what | @broken what => cases what <;> exact keep
  | fail _ hf => cases hf <;> exact keep
  | _ => exact keep

theorem step_stopping (hs : Session.step? server s a = some t) :
    t.stopping = (s.stopping || a.stops) := by
  match hi : a.target with
  | some i =>
    obtain ⟨c, -, ht⟩ := Session.step_turn hs hi
    exact ht.stopping_eq
  | none =>
    obtain ⟨now, inbox, broken, rfl, -⟩ := Session.step_outside hs hi
    cases a with
    | make | poll | drop => cases hi
    | _ => exact (Bool.or_false _).symm

/-- Who has asked for a shutdown has said so, and nobody else does. -/
theorem stopping_of_run {n : Nat} {inputs : List SessionInput}
    (h : Session.run? server (.start n) inputs = some s) :
    s.stopping = inputs.any SessionInput.stops := by
  refine run_history (P := fun as u => u.stopping = as.any SessionInput.stops) rfl ?_ h
  intro as a u v hu hs
  rw [step_stopping hs, hu, List.any_append, List.any_cons, List.any_nil, Bool.or_false]

/-! ## Turning a call away -/

/-- Nothing is exchanged for a call that has not the turn and begins with no message, and if it is
over then, it was turned away. -/
theorem Session.Turn.passed_over (ht : Session.Turn server s i c a t) (ho : Orderly s)
    (hc : s.calls[i]? = some c) (hno : ∀ what, ¬ s.Begins i c a what)
    (hidle : c.stage.isActive = false) :
    Session.Passes s t ∧ ∃ x, t.calls = s.calls.set i x ∧ x.stage.isActive = false ∧
      ∀ answer, x.stage = .finished answer → answer = x.ask.turnedAway := by
  have active : ∀ {stage : Stage}, c.stage = stage → stage.isActive = false := fun hs => hs ▸ hidle
  have hchecked := ho.checked i c hc
  cases ht with
  | @refuse ask e _ hargs =>
    refine ⟨⟨rfl, rfl, rfl, rfl, .inl rfl⟩, _, rfl, rfl, fun answer ha => ?_⟩
    cases ha
    rw [Ask.turnedAway, hargs]
  | queue => exact ⟨⟨rfl, rfl, rfl, rfl, .inl rfl⟩, _, rfl, rfl, fun _ ha => nomatch ha⟩
  | stop hn hask =>
    refine ⟨⟨rfl, rfl, rfl, rfl, .inr rfl⟩, _, rfl, rfl, fun answer ha => ?_⟩
    cases ha
    rw [hask]
    rfl
  | bounce hn hask =>
    refine ⟨⟨rfl, rfl, rfl, rfl, .inr rfl⟩, _, rfl, rfl, fun answer ha => ?_⟩
    cases ha
    exact (turnedAway_eq_closed (hchecked hn.waits) hask).symm
  | greet hn hask hw hst hp => exact absurd (.greet hn hask hw hst hp) (hno _)
  | request hn hask hw hst hp => exact absurd (.request hn hask hw hst hp) (hno _)
  | part hs | whole hs | greeted hs | stuck hs | broken hs => cases active hs
  | skip hs | welcome hs | answer hs | fail hs => cases active hs
  | leave => exact ⟨⟨rfl, rfl, rfl, rfl, .inl rfl⟩, _, rfl, rfl, fun _ ha => nomatch ha⟩
  | letGo hact => rw [hidle] at hact; cases hact

theorem Session.Turn.turned_away (ht : Session.Turn server s i c a t) (ho : Orderly s)
    (hc : s.calls[i]? = some c) (hbar : s.Barred) (hidle : c.stage.isActive = false) :
    Session.Passes s t ∧ ∃ x, t.calls = s.calls.set i x ∧ x.stage.isActive = false ∧
      ∀ answer, x.stage = .finished answer → answer = x.ask.turnedAway :=
  ht.passed_over ho hc (fun _ => hbar.not_begins hidle) hidle

/-- A call that has not the turn and begins with no message stays as it is or is passed over. -/
theorem step_passed_over {j : Nat} (hs : Session.step? server s a = some t) (ho : Orderly s)
    (hno : ∀ c, s.calls[j]? = some c → c.stage.isActive = false ∧ ∀ what, ¬ s.Begins j c a what)
    (hx : t.calls[j]? = some x) :
    s.calls[j]? = some x ∨ x.stage.isActive = false ∧
      ∀ answer, x.stage = .finished answer → answer = x.ask.turnedAway := by
  by_cases htgt : a.target = some j
  · obtain ⟨c, hc, ht⟩ := Session.step_turn hs htgt
    obtain ⟨hidle, hno⟩ := hno c hc
    obtain ⟨-, y, hcalls, hy, hans⟩ := ht.passed_over ho hc hno hidle
    rw [hcalls] at hx
    obtain rfl := eq_of_set hc hx
    exact .inr ⟨hy, hans⟩
  · exact .inl (by rw [← step_other hs htgt, hx])

/-- The next call in line is turned away when it is polled, and the turn is free again. -/
theorem poll_barred (ho : Orderly s) (hc : s.calls[i]? = some c) (hn : s.Next i c)
    (hbar : s.Barred) (pipe : Pipe) :
    ∃ t, Session.step? server s (.poll i pipe) = some t ∧ Session.Passes s t ∧
      t.phase = .closed ∧ t.holder = none ∧ t.queue = s.queue.tail ∧ t.stopping = s.stopping ∧
      t.calls = s.calls.set i { c with stage := .finished c.ask.turnedAway } := by
  have hstep : Session.step? server s (.poll i pipe) = some (s.acquire server i c) := by
    simp [Session.step?, hc, Session.poll, hn.waits, hn.free, hn.first]
  refine ⟨_, hstep, ?_⟩
  have hturn : Session.Turn server s i c (.poll i pipe) (s.acquire server i c) :=
    Session.turn_acquire hn
  have hidle : c.stage.isActive = false := by rw [hn.waits]; rfl
  have hno : ∀ what, ¬ s.Begins i c (.poll i pipe) what := fun _ => hbar.not_begins hidle
  have hpasses := (hturn.passed_over ho hc hno hidle).1
  refine ⟨hpasses, ?_⟩
  generalize s.acquire server i c = t at hturn
  cases hturn with
  | stop _ hask =>
    refine ⟨rfl, rfl, rfl, rfl, ?_⟩
    rw [show c.ask.turnedAway = .ok .stopped by rw [hask]; rfl]
    rfl
  | bounce _ hask =>
    refine ⟨rfl, rfl, rfl, rfl, ?_⟩
    rw [turnedAway_eq_closed (ho.checked i c hc hn.waits) hask]
    rfl
  | greet hn hask hw hst hp => exact (hno _ (.greet hn hask hw hst hp)).elim
  | request hn hask hw hst hp => exact (hno _ (.request hn hask hw hst hp)).elim
  | part hs | whole hs | greeted hs | stuck hs | broken hs => rw [hn.waits] at hs; cases hs
  | skip hs | welcome hs | answer hs | fail hs => rw [hn.waits] at hs; cases hs

/-- Polling the calls that wait in their order turns all of them away. -/
theorem drain (pipe : Pipe) (ho : Orderly s) (hbar : s.Barred) (hfree : s.holder = none) :
    ∃ t, Session.run? server s (s.queue.map fun j => .poll j pipe) = some t ∧
      Session.Passes s t ∧ t.holder = none ∧ t.queue = [] ∧ (s.queue ≠ [] → t.phase = .closed) ∧
      (∀ j c, j ∈ s.queue → s.calls[j]? = some c →
        t.calls[j]? = some { c with stage := .finished c.ask.turnedAway }) ∧
      ∀ j, j ∉ s.queue → t.calls[j]? = s.calls[j]? := by
  induction hq : s.queue generalizing s with
  | nil =>
    exact ⟨s, rfl, ⟨rfl, rfl, rfl, rfl, .inl rfl⟩, hfree, hq, fun h => absurd rfl h,
      fun _ _ hj => absurd hj List.not_mem_nil, fun _ _ => rfl⟩
  | cons i rest ih =>
    obtain ⟨c, hc, hw⟩ := (ho.waits i).1 (hq ▸ List.mem_cons_self)
    have hn : s.Next i c := ⟨hw, hfree, by rw [hq]; rfl⟩
    obtain ⟨u, (hu : Session.step? server s (.poll i pipe) = some u), hpasses, hphase, hholder,
      hqueue, -, hcalls⟩ := poll_barred ho hc hn hbar pipe
    have hnot : i ∉ rest := (List.nodup_cons.1 (hq ▸ ho.nodup)).1
    have hget : ∀ j, u.calls[j]? = if j = i then some _ else s.calls[j]? := fun j => by
      rw [hcalls, getElem?_set_of_some hc]
    obtain ⟨t, ht, hpasses', hholder', hqueue', hphase', hended, hothers⟩ :=
      ih (ho.step hu) (.inr (.inr hphase)) hholder (hqueue.trans (by rw [hq]; rfl))
    refine ⟨t, Session.run_cons.2 ⟨u, hu, ht⟩, hpasses.trans hpasses', hholder', hqueue',
      ?_, ?_, ?_⟩
    · intro _
      rcases hpasses'.phase with hp | hp
      · exact hp.trans hphase
      · exact hp
    · intro j d hj hd
      by_cases hij : j = i
      · subst hij
        rw [hc] at hd
        cases hd
        rw [hothers j hnot, hget, if_pos rfl]
      · refine hended j d ((List.mem_cons.1 hj).resolve_left hij) ?_
        rw [hget, if_neg hij, hd]
    · intro j hj
      obtain ⟨hij, hj⟩ := not_or.1 (fun h => hj (List.mem_cons.2 h))
      rw [hothers j hj, hget, if_neg hij]

/-! ## Runs -/

theorem Session.Withheld.refl (s : Session) : Session.Withheld s s := by
  intro j c d hc hidle hd
  rw [hc] at hd
  cases hd
  exact ⟨hidle, fun _ ha => .inl ha⟩

theorem Session.Withheld.step (h : Session.Withheld s u) (ho : Orderly u) (hbar : u.Barred)
    (hs : Session.step? server u a = some t) : Session.Withheld s t := by
  intro j c d hc hidle hd
  have hno : ∀ x, u.calls[j]? = some x → x.stage.isActive = false ∧ ∀ what, ¬ u.Begins j x a what :=
    fun x hx => have hx := (h j c x hc hidle hx).1
      ⟨hx, fun _ => hbar.not_begins hx⟩
  rcases step_passed_over hs ho hno hd with hold | ⟨hidle', hans⟩
  · exact h j c d hc hidle hold
  · exact ⟨hidle', fun answer ha => .inr (hans answer ha)⟩

/-- Where nothing is asked of what arrives, every step keeps what is known of a session. -/
theorem Kept.next (h : Kept (fun _ => True) server s) (hs : Session.step? server s a = some t) :
    Kept (fun _ => True) server t :=
  h.step (fun _ _ _ _ _ => trivial) hs

/-- No call has its turn, and none is let through. -/
structure Spent (s : Session) : Prop where
  barred : s.Barred
  idle : ∀ (j : Nat) (d : SessionCall), s.calls[j]? = some d → d.stage.isActive = false

/-- Since `s` nothing was exchanged with the server, and all calls that were to come were turned
away. -/
structure Outlasts (s : Session) (later : List SessionInput) (t : Session) : Prop where
  spent : Spent t
  orderly : Orderly t
  wire : t.wire = s.wire
  nextId : t.nextId = s.nextId
  inbox : t.inbox = s.inbox ++ arrivals later
  closed : s.phase = .closed → t.phase = .closed
  withheld : Session.Withheld s t

theorem Spent.outlasts_step (h : Spent s) (ho : Orderly s)
    (hs : Session.step? server s a = some t) : Outlasts s [a] t := by
  have hwithheld := (Session.Withheld.refl s).step ho h.barred hs
  match hi : a.target with
  | some i =>
    obtain ⟨c, hc, ht⟩ := Session.step_turn hs hi
    obtain ⟨hpasses, x, hcalls, hx, -⟩ := ht.turned_away ho hc h.barred (h.idle i c hc)
    have hclosed : s.phase = .closed → t.phase = .closed :=
      fun hp => hpasses.phase.elim (·.trans hp) id
    have hbarred : t.Barred :=
      h.barred.imp (hpasses.writing.trans ·)
        (.imp (fun hst => by rw [step_stopping hs, hst, Bool.true_or]) hclosed)
    refine ⟨⟨hbarred, fun j d hd => ?_⟩, ho.step hs, hpasses.wire, hpasses.nextId, ?_, hclosed,
      hwithheld⟩
    · rw [hcalls, getElem?_set_of_some hc] at hd
      split at hd
      · cases hd
        exact hx
      · exact h.idle j d hd
    · rw [hpasses.inbox, arrivals_of_target hi, List.append_nil]
  | none =>
    have hinbox := (step_arrivals hs hi).2
    obtain ⟨now, inbox, broken, rfl, -⟩ := Session.step_outside hs hi
    exact ⟨⟨h.barred, h.idle⟩, ho.step hs, rfl, rfl, hinbox, id, hwithheld⟩

theorem Spent.outlasts {later : List SessionInput} (h : Spent s) (ho : Orderly s)
    (hr : Session.run? server s later = some t) : Outlasts s later t := by
  refine run_history (P := fun later t => Outlasts s later t) ?_ ?_ hr
  · exact ⟨h, ho, rfl, rfl, (List.append_nil _).symm, id, .refl s⟩
  · intro as a u v hu hs
    have hv := hu.spent.outlasts_step hu.orderly hs
    refine ⟨hv.spent, hv.orderly, hv.wire.trans hu.wire, hv.nextId.trans hu.nextId, ?_,
      fun hp => hv.closed (hu.closed hp), hu.withheld.step hu.orderly hu.spent.barred hs⟩
    rw [hv.inbox, hu.inbox, arrivals_append, List.append_assoc]

/-- A call that was not over when the session was spent is turned away. -/
theorem Outlasts.turned_away {later : List SessionInput} {d : SessionCall}
    {answer : Except ToolError Reply} (h : Outlasts s later t) (hs : Spent s)
    (hc : s.calls[i]? = some c) (hun : c.stage.answer? = none) (hd : t.calls[i]? = some d)
    (hf : d.stage = .finished answer) : answer = d.ask.turnedAway := by
  rcases (h.withheld i c d hc (hs.idle i c hc) hd).2 answer hf with hf' | hans
  · rw [hf'] at hun
    cases hun
  · exact hans

/-- Only a call that has the turn holds it. -/
theorem Kept.free_of_idle {answered : Nat → Prop} (h : Kept answered server s)
    (hidle : ∀ (j : Nat) (d : SessionCall), s.calls[j]? = some d → d.stage.isActive = false) :
    s.holder = none := by
  cases h.line with
  | idle hh | shut hh => exact hh
  | sending _ hc hs | receiving _ hc hs =>
    have hact := hidle _ _ hc
    rw [hs] at hact
    cases hact

/-- A closed session carries out no call. -/
theorem Kept.spent_of_closed {answered : Nat → Prop} (h : Kept answered server s)
    (hp : s.phase = .closed) : Spent s := by
  have hfree : s.holder = none := by
    cases h.line with
    | idle hh | shut hh => exact hh
    | sending _ _ _ _ _ hw => rw [hp] at hw; cases hw
    | receiving _ _ _ _ _ hw => rw [hp] at hw; cases hw
  exact ⟨.inr (.inr hp), (h.sealed hfree (.inr hp)).idle⟩

end
end Switchboard.Tools
