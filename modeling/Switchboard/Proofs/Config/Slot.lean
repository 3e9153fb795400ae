import Switchboard.Config.Load
import Switchboard.Proofs.Json.Record
import Switchboard.Proofs.Toml.Exchange

/-!
# The texts of a server's settings

Reading settings from a tree is followed into one string of the tree: a reader that `Follows` a
path finds the string at one place of what it reads, and finds the other string there in a tree that
differs in it. `slotOf?` tells which setting of which server stands at a path of the document.
-/

namespace Switchboard.Config

open Json (Reader)
open Toml (Step TreeSwap)

/-- Changes the value of the first member called `key`. -/
def modifyMember {α : Type} (key : String) (f : α → α) : List (String × α) → List (String × α)
  | [] => []
  | (k, v) :: rest => if k = key then (k, f v) :: rest else (k, v) :: modifyMember key f rest

/-- A text in the settings of a server that nothing checks. -/
inductive Slot where
  | argument (i : Nat)
  | environment (name : String)
  | clientName
  | clientVersion
  | protocolVersion
  deriving DecidableEq, Repr

namespace Slot

def get? : Slot → ServerSettings → Option String
  | argument i, s => s.args[i]?
  | environment name, s => s.env.lookup name
  | clientName, s => some s.clientName
  | clientVersion, s => some s.clientVersion
  | protocolVersion, s => some s.protocolVersion

def set (value : String) : Slot → ServerSettings → ServerSettings
  | argument i, s => { s with args := s.args.set i value }
  | environment name, s => { s with env := modifyMember name (fun _ => value) s.env }
  | clientName, s => { s with clientName := value }
  | clientVersion, s => { s with clientVersion := value }
  | protocolVersion, s => { s with protocolVersion := value }

end Slot

namespace Settings

def textAt? (s : Settings) (server : String) (slot : Slot) : Option String :=
  s.servers.lookup server >>= slot.get?

def withText (s : Settings) (server : String) (slot : Slot) (value : String) : Settings :=
  { s with servers := modifyMember server (slot.set value) s.servers }

end Settings

/-- The field that a step into a record leads to, by its name or by its number. -/
def fieldOf? (names : List String) : Step → Option String
  | .key k => if k ∈ names then some k else none
  | .index i => names[i]?

def documentFields : List String := ["llm", "mcp", "telemetry"]

def serverFields : List String :=
  ["command", "args", "cwd", "env", "request_timeout", "client_name", "client_version",
    "protocol_version"]

/-- The setting at a path into the settings of a server. -/
def serverSlot? : List Step → Option Slot
  | [field] =>
    match fieldOf? serverFields field with
    | some "client_name" => some .clientName
    | some "client_version" => some .clientVersion
    | some "protocol_version" => some .protocolVersion
    | _ => none
  | [field, .index i] =>
    if fieldOf? serverFields field = some "args" then some (.argument i) else none
  | [field, .key name] =>
    if fieldOf? serverFields field = some "env" then some (.environment name) else none
  | _ => none

/-- The server and the setting at a path into a document. -/
def slotOf? : List Step → Option (String × Slot)
  | top :: inner :: .key server :: path =>
    if fieldOf? documentFields top = some "mcp" ∧
        fieldOf? ["servers"] inner = some "servers" then
      (serverSlot? path).map (server, ·)
    else none
  | _ => none

/-- What is read holds the string at `get`, and with the other string in the tree it is `set`. -/
def Follows {α : Type} (s s' : String) (read : Reader α) (π : List Step) (get : α → Option String)
    (set : α → α) : Prop :=
  ∀ ⦃depth t t' a⦄, TreeSwap s s' π t t' → read depth t = some a →
    get a = some s ∧ read depth t' = some (set a)

section
variable {α β : Type} {s s' : String} {π : List Step}

theorem text_follows : Follows s s' Reader.text [] some fun _ => s' := by
  intro depth t t' a h ha
  cases h
  cases ha
  exact ⟨rfl, rfl⟩

/-- Reading one after the other. -/
theorem mapM_split {f : β → Option α} {u : β} : ∀ {front back : List β} {as : List α},
    (front ++ u :: back).mapM f = some as →
      ∃ as₁ a as₂, as = as₁ ++ a :: as₂ ∧ front.mapM f = some as₁ ∧ f u = some a ∧
        back.mapM f = some as₂
  | [], back, as, h => by
    simp only [List.nil_append, List.mapM_cons, Option.bind_eq_bind, Option.bind_eq_some_iff] at h
    obtain ⟨a, ha, as₂, has, heq⟩ := h
    cases heq
    exact ⟨[], a, as₂, rfl, rfl, ha, has⟩
  | b :: front, back, as, h => by
    simp only [List.cons_append, List.mapM_cons, Option.bind_eq_bind, Option.bind_eq_some_iff] at h
    obtain ⟨c, hc, as', has', heq⟩ := h
    cases heq
    obtain ⟨as₁, a, as₂, rfl, hfront, ha, hback⟩ := mapM_split has'
    exact ⟨c :: as₁, a, as₂, rfl, by rw [List.mapM_cons, hc, hfront]; rfl, ha, hback⟩

theorem mapM_join {f : β → Option α} {u : β} {front back : List β} {as₁ as₂ : List α} {a : α}
    (hfront : front.mapM f = some as₁) (ha : f u = some a) (hback : back.mapM f = some as₂) :
    (front ++ u :: back).mapM f = some (as₁ ++ a :: as₂) := by
  rw [List.mapM_append, hfront, List.mapM_cons, ha, hback]
  rfl

theorem texts_follow (i : Nat) :
    Follows s s' (Reader.list Reader.text) [.index i] (·[i]?) fun as => as.set i s' := by
  intro depth t t' as h has
  cases h with
  | item front back h =>
    simp only [Reader.list] at has ⊢
    split at has
    · next hdepth =>
      obtain ⟨as₁, a, as₂, rfl, hfront, ha, hback⟩ := mapM_split has
      obtain ⟨hget, hset⟩ := text_follows h ha
      rw [if_pos hdepth, (Json.forall₂_of_mapM hfront).length_eq, mapM_join hfront hset hback]
      simpa using hget
    · cases has

theorem lookup_split {k : String} {a : α} {back : List (String × α)} :
    ∀ {front : List (String × α)}, k ∉ front.map Prod.fst →
      (front ++ (k, a) :: back).lookup k = some a
  | [], _ => List.lookup_cons_self
  | (j, b) :: front, hk => by
    have hne : (k == j) = false := beq_eq_false_iff_ne.2 fun h => hk (h ▸ List.mem_cons_self)
    rw [List.cons_append, List.lookup_cons, hne]
    exact lookup_split fun h => hk (List.mem_cons_of_mem _ h)

theorem modifyMember_split {k : String} {a : α} {back : List (String × α)} (f : α → α) :
    ∀ {front : List (String × α)}, k ∉ front.map Prod.fst →
      modifyMember k f (front ++ (k, a) :: back) = front ++ (k, f a) :: back
  | [], _ => by rw [List.nil_append, modifyMember, if_pos rfl]; rfl
  | (j, b) :: front, hk => by
    have hne : j ≠ k := fun h => hk (h ▸ List.mem_cons_self)
    rw [List.cons_append, modifyMember, if_neg hne,
      modifyMember_split f fun h => hk (List.mem_cons_of_mem _ h)]
    rfl

/-- The members that a table is read as have its keys. -/
theorem keys_of_mapM {read : Tree → Option α} {ms : List (Option String × Tree)}
    {as : List (String × α)} (h : ms.mapM (fun (key, t) => return (← key, ← read t)) = some as) :
    ms.map Prod.fst = as.map (some ·.1) := by
  have hread := Json.forall₂_of_mapM h
  clear h
  induction hread with
  | nil => rfl
  | cons hmember _ ih =>
    simp only [Option.bind_eq_bind, Option.bind_eq_some_iff] at hmember
    obtain ⟨k, hk, _, _, heq⟩ := hmember
    cases heq
    rw [List.map_cons, List.map_cons, hk, ih]

theorem tableOf_follows {read : Reader α} {get : α → Option String} {set : α → α}
    (hread : Follows s s' read π get set) (k : String) :
    Follows s s' (tableOf read) (.key k :: π) (fun ms => ms.lookup k >>= get)
      (modifyMember k set) := by
  intro depth t t' as h has
  cases h with
  | member back hk h =>
    simp only [tableOf] at has ⊢
    obtain ⟨as₁, ka, as₂, rfl, hfront, ha, hback⟩ := mapM_split has
    simp only [Option.bind_eq_bind, Option.bind_some, Option.bind_eq_some_iff] at ha
    obtain ⟨a, ha, heq⟩ := ha
    cases heq
    obtain ⟨hget, hset⟩ := hread h ha
    have hkeys : k ∉ as₁.map Prod.fst := by
      rw [keys_of_mapM hfront] at hk
      simpa using hk
    refine ⟨by rw [lookup_split hkeys]; exact hget, ?_⟩
    rw [modifyMember_split set hkeys]
    exact mapM_join hfront (by rw [hset]; rfl) hback

end

/-! ## Records -/

section
variable {s s' : String} {π : List Step} {t t' : Tree} {names : List String} {k name : String}
  {u : Tree} {front back : List (Option String × Tree)} {o : Option Tree}
  {fs : List (Option Tree)}

theorem member_self (h : Reader.member k (front ++ (some k, u) :: back) = some o) :
    o = some u ∧ ∀ u', Reader.member k (front ++ (some k, u') :: back) = some (some u') := by
  have hkeep (t : Tree) : ((some k, t) :: back).filter (fun m => m.1 == some k) =
      (some k, t) :: back.filter fun m => m.1 == some k := by
    rw [List.filter_cons_of_pos]
    exact beq_self_eq_true (some k)
  simp only [Reader.member, List.filter_append, hkeep] at h ⊢
  cases hfront : front.filter (fun m => m.1 == some k) with
  | nil =>
    cases hback : back.filter (fun m => m.1 == some k) with
    | nil =>
      rw [hfront, hback] at h
      cases h
      exact ⟨rfl, fun _ => rfl⟩
    | cons => rw [hfront, hback] at h; cases h
  | cons m rest =>
    rw [hfront] at h
    cases rest <;> cases h

theorem member_of_ne (hne : name ≠ k) (u u' : Tree) :
    Reader.member name (front ++ (some k, u) :: back) =
      Reader.member name (front ++ (some k, u') :: back) := by
  have hskip (t : Tree) : ((some k, t) :: back).filter (fun m => m.1 == some name) =
      back.filter fun m => m.1 == some name := by
    rw [List.filter_cons_of_neg]
    exact fun h => hne (Option.some.inj (eq_of_beq h)).symm
  simp only [Reader.member, List.filter_append, hskip]

theorem members_of_notMem (u u' : Tree) : ∀ {names : List String}, k ∉ names →
    names.mapM (Reader.member · (front ++ (some k, u) :: back)) =
      names.mapM (Reader.member · (front ++ (some k, u') :: back))
  | [], _ => rfl
  | name :: names, hk => by
    have hne : name ≠ k := fun h => hk (h ▸ List.mem_cons_self)
    rw [List.mapM_cons, List.mapM_cons, member_of_ne hne u u',
      members_of_notMem u u' fun h => hk (List.mem_cons_of_mem _ h)]

/-- The fields of a record that is written as an object. -/
theorem members_split : ∀ {names : List String} {fs : List (Option Tree)}, names.Nodup → k ∈ names →
    names.mapM (Reader.member · (front ++ (some k, u) :: back)) = some fs →
    ∃ i, names[i]? = some k ∧ fs[i]? = some (some u) ∧ ∀ u',
      names.mapM (Reader.member · (front ++ (some k, u') :: back)) = some (fs.set i (some u'))
  | [], _, _, hk, _ => nomatch hk
  | name :: names, _, hn, hk, h => by
    obtain ⟨hname, hn⟩ := List.nodup_cons.1 hn
    simp only [List.mapM_cons, Option.bind_eq_bind, Option.bind_eq_some_iff] at h ⊢
    obtain ⟨o, ho, fs, hfs, heq⟩ := h
    cases heq
    by_cases hne : name = k
    · subst hne
      obtain ⟨rfl, hself⟩ := member_self ho
      exact ⟨0, rfl, rfl, fun u' =>
        ⟨some u', hself u', fs, members_of_notMem u u' hname ▸ hfs, rfl⟩⟩
    · have hmem : k ∈ names := (List.mem_cons.1 hk).resolve_left fun h => hne h.symm
      obtain ⟨i, hi, hu, hset⟩ := members_split hn hmem hfs
      exact ⟨i + 1, hi, hu, fun u' => ⟨o, member_of_ne hne u u' ▸ ho, _, hset u', rfl⟩⟩

/-- A record is written as an object that has no other members, or as an array of its first
fields. -/
theorem exactFields_eq_some {depth : Nat} : exactFields names depth t = some fs ↔
    depth < Tree.maxDepth ∧
      ((∃ ms, t = .obj ms ∧ (∀ m ∈ ms, ∃ name ∈ names, m.1 = some name) ∧
          names.mapM (Reader.member · ms) = some fs) ∨
        ∃ items, t = .arr items ∧ items.length ≤ names.length ∧
          fs = items.map some ++ List.replicate (names.length - items.length) none) := by
  cases t with
  | obj ms =>
    have hknown : (ms.all fun m => m.1.any names.contains) = true ↔
        ∀ m ∈ ms, ∃ name ∈ names, m.1 = some name := by
      simp only [List.all_eq_true, Option.any_eq_true, List.contains_iff_mem]
      exact forall₂_congr fun m _ => exists_congr fun name => and_comm
    have hkeys (h : ∀ m ∈ ms, ∃ name ∈ names, m.1 = some name) :
        (ms.all fun m => m.1.isSome) = true :=
      List.all_eq_true.2 fun m hm => by
        obtain ⟨name, _, hname⟩ := h m hm
        rw [hname]
        rfl
    simp only [exactFields, Reader.fields, Reader.fieldsOf, Tree.obj.injEq, reduceCtorEq, false_and,
      exists_false, or_false, exists_eq_left', hknown]
    constructor
    · intro h
      split at h
      · next hnames =>
        split at h
        · next hdepth =>
          rw [if_pos (hkeys hnames)] at h
          exact ⟨hdepth, hnames, h⟩
        · cases h
      · cases h
    · rintro ⟨hdepth, hnames, h⟩
      rw [if_pos hnames, if_pos hdepth, if_pos (hkeys hnames)]
      exact h
  | arr items =>
    simp only [exactFields, Reader.fields, Reader.fieldsOf, Tree.arr.injEq, reduceCtorEq, false_and,
      exists_false, false_or, exists_eq_left']
    constructor
    · intro h
      split at h
      · next hdepth =>
        split at h
        · next hlen => exact ⟨hdepth, hlen, (Option.some.inj h).symm⟩
        · cases h
      · cases h
    · rintro ⟨hdepth, hlen, rfl⟩
      rw [if_pos hdepth, if_pos hlen]
  | null | bool | num | str =>
    simp [exactFields, Reader.fields, Reader.fieldsOf]

/-- A record has its string in one field. -/
theorem exactFields_swap {depth : Nat} (hn : names.Nodup) (h : TreeSwap s s' π t t')
    (hfs : exactFields names depth t = some fs) :
    ∃ step σ i u u', π = step :: σ ∧ names[i]? = fieldOf? names step ∧ fs[i]? = some (some u) ∧
      TreeSwap s s' σ u u' ∧ exactFields names depth t' = some (fs.set i (some u')) := by
  obtain ⟨hdepth, hwritten⟩ := exactFields_eq_some.1 hfs
  cases h with
  | here => rcases hwritten with ⟨_, heq, _⟩ | ⟨_, heq, _⟩ <;> cases heq
  | @item π u u' front back h =>
    obtain ⟨_, heq, _⟩ | ⟨_, heq, hlen, rfl⟩ := hwritten
    · cases heq
    · cases heq
      refine ⟨_, π, front.length, u, u', rfl, rfl, by simp, h, exactFields_eq_some.2 ?_⟩
      exact ⟨hdepth, .inr ⟨_, rfl, by simpa using hlen, by simp⟩⟩
  | @member π u u' k front back hk h =>
    obtain ⟨_, heq, hknown, hmembers⟩ | ⟨_, heq, _⟩ := hwritten
    · cases heq
      have hmem : k ∈ names := by
        obtain ⟨_, hname, heq⟩ := hknown (some k, u) (by simp)
        cases heq
        exact hname
      obtain ⟨i, hi, hu, hset⟩ := members_split hn hmem hmembers
      refine ⟨_, π, i, u, u', rfl, ?_, hu, h, exactFields_eq_some.2 ⟨hdepth, .inl ?_⟩⟩
      · rw [hi, fieldOf?, if_pos hmem]
      · exact ⟨_, rfl, by simpa only [List.forall_mem_append, List.forall_mem_cons] using hknown,
          hset u'⟩
    · cases heq

end

/-! ## Servers -/

/-- The settings of a server from its fields. -/
def serverOf (inner : Nat) : List (Option Tree) → Option ServerSettings
  | [command, args, cwd, env, timeout, name, version, protocol] => do
    return ⟨← Reader.required Reader.text inner command,
      ← Reader.orElse (Reader.list Reader.text) [] inner args,
      ← Reader.maybe Reader.text inner cwd,
      ← Reader.orElse (tableOf Reader.text) [] inner env,
      ← Reader.orElse Reader.text "15s" inner timeout,
      ← Reader.orElse Reader.text "multillm-mcp-client" inner name,
      ← Reader.orElse Reader.text "0.1.0" inner version,
      ← Reader.orElse Reader.text "2024-11-05" inner protocol⟩
  | _ => none

section
variable {s s' : String} {π : List Step} {inner : Nat} {a : ServerSettings} {slot : Slot}

theorem serverReader_eq (depth : Nat) (t : Tree) :
    ServerSettings.reader depth t =
      exactFields serverFields depth t >>= serverOf (depth + 1) := by
  unfold ServerSettings.reader serverOf
  rfl

theorem serverOf_eq_some {command args cwd env timeout name version protocol : Option Tree} :
    serverOf inner [command, args, cwd, env, timeout, name, version, protocol] = some a ↔
      Reader.required Reader.text inner command = some a.command ∧
      Reader.orElse (Reader.list Reader.text) [] inner args = some a.args ∧
      Reader.maybe Reader.text inner cwd = some a.cwd ∧
      Reader.orElse (tableOf Reader.text) [] inner env = some a.env ∧
      Reader.orElse Reader.text "15s" inner timeout = some a.requestTimeout ∧
      Reader.orElse Reader.text "multillm-mcp-client" inner name = some a.clientName ∧
      Reader.orElse Reader.text "0.1.0" inner version = some a.clientVersion ∧
      Reader.orElse Reader.text "2024-11-05" inner protocol = some a.protocolVersion := by
  simp only [serverOf, Option.bind_eq_bind, Option.bind_eq_some_iff, Option.pure_def]
  constructor
  · rintro ⟨_, h₁, _, h₂, _, h₃, _, h₄, _, h₅, _, h₆, _, h₇, _, h₈, heq⟩
    cases heq
    exact ⟨h₁, h₂, h₃, h₄, h₅, h₆, h₇, h₈⟩
  · rintro ⟨h₁, h₂, h₃, h₄, h₅, h₆, h₇, h₈⟩
    exact ⟨_, h₁, _, h₂, _, h₃, _, h₄, _, h₅, _, h₆, _, h₇, _, h₈, rfl⟩

/-- A name stands at one place of a list of names. -/
theorem place_of_name {names : List String} {name : String} {i j : Nat} (hn : names.Nodup)
    (hi : names[i]? = some name) (hj : names[j]? = some name) : i = j :=
  (List.getElem?_inj (List.getElem?_eq_some_iff.1 hi).1 hn).1 (hi.trans hj.symm)

theorem serverFields_nodup : serverFields.Nodup := by decide

theorem server_follows (hslot : serverSlot? π = some slot) :
    Follows s s' ServerSettings.reader π slot.get? (slot.set s') := by
  intro depth t t' a h ha
  rw [serverReader_eq] at ha ⊢
  obtain ⟨fs, hfs, ha⟩ := Option.bind_eq_some_iff.1 ha
  obtain ⟨step, σ, i, u, u', rfl, hi, hu, hσ, hfs'⟩ := exactFields_swap serverFields_nodup h hfs
  rw [hfs']
  have hplace {name : String} {j : Nat} (hname : fieldOf? serverFields step = some name)
      (hj : serverFields[j]? = some name) : i = j :=
    place_of_name serverFields_nodup (hi.trans hname) hj
  show slot.get? a = some s ∧ serverOf (depth + 1) (fs.set i (some u')) = some (slot.set s' a)
  match fs, ha with
  | [command, args, cwd, env, timeout, name, version, protocol], ha =>
    obtain ⟨h₁, h₂, h₃, h₄, h₅, h₆, h₇, h₈⟩ := serverOf_eq_some.1 ha
    unfold serverSlot? at hslot
    split at hslot
    · next hpath =>
      cases hpath
      split at hslot
      · next hname =>
        cases hslot
        obtain rfl := hplace (j := 5) hname rfl
        cases hu
        obtain ⟨hget, hset⟩ := text_follows hσ h₆
        exact ⟨hget, serverOf_eq_some.2 ⟨h₁, h₂, h₃, h₄, h₅, hset, h₇, h₈⟩⟩
      · next hname =>
        cases hslot
        obtain rfl := hplace (j := 6) hname rfl
        cases hu
        obtain ⟨hget, hset⟩ := text_follows hσ h₇
        exact ⟨hget, serverOf_eq_some.2 ⟨h₁, h₂, h₃, h₄, h₅, h₆, hset, h₈⟩⟩
      · next hname =>
        cases hslot
        obtain rfl := hplace (j := 7) hname rfl
        cases hu
        obtain ⟨hget, hset⟩ := text_follows hσ h₈
        exact ⟨hget, serverOf_eq_some.2 ⟨h₁, h₂, h₃, h₄, h₅, h₆, h₇, hset⟩⟩
      · cases hslot
    · next k hpath =>
      cases hpath
      split at hslot
      · next hname =>
        cases hslot
        obtain rfl := hplace (j := 1) hname rfl
        cases hu
        obtain ⟨hget, hset⟩ := texts_follow k hσ h₂
        exact ⟨hget, serverOf_eq_some.2 ⟨h₁, hset, h₃, h₄, h₅, h₆, h₇, h₈⟩⟩
      · cases hslot
    · next key hpath =>
      cases hpath
      split at hslot
      · next hname =>
        cases hslot
        obtain rfl := hplace (j := 3) hname rfl
        cases hu
        obtain ⟨hget, hset⟩ := tableOf_follows text_follows key hσ h₄
        refine ⟨?_, serverOf_eq_some.2 ⟨h₁, h₂, h₃, hset, h₅, h₆, h₇, h₈⟩⟩
        rw [Slot.get?]
        simpa using hget
      · cases hslot
    · cases hslot

/-! ## Whole settings -/

def resilienceReader : Reader ResilienceSettings := fun depth t => do
  let [resilience] ← exactFields ["resilience"] depth t | none
  Reader.orElse ResilienceSettings.reader {} (depth + 1) resilience

def serversReader : Reader (List (String × ServerSettings)) := fun depth t => do
  let [servers] ← exactFields ["servers"] depth t | none
  Reader.orElse (tableOf ServerSettings.reader) [] (depth + 1) servers

/-- The settings from the fields of the document. -/
def settingsOf (inner : Nat) : List (Option Tree) → Option Settings
  | [llm, mcp, telemetry] => do
    return ⟨← Reader.orElse resilienceReader {} inner llm,
      ← Reader.orElse serversReader [] inner mcp,
      ← Reader.orElse LogSettings.reader {} inner telemetry⟩
  | _ => none

theorem settingsReader_eq (depth : Nat) (t : Tree) :
    Settings.reader depth t =
      exactFields documentFields depth t >>= settingsOf (depth + 1) := by
  unfold Settings.reader settingsOf
  rfl

theorem settingsOf_eq_some {a : Settings} {llm mcp telemetry : Option Tree} :
    settingsOf inner [llm, mcp, telemetry] = some a ↔
      Reader.orElse resilienceReader {} inner llm = some a.resilience ∧
      Reader.orElse serversReader [] inner mcp = some a.servers ∧
      Reader.orElse LogSettings.reader {} inner telemetry = some a.log := by
  simp only [settingsOf, Option.bind_eq_bind, Option.bind_eq_some_iff, Option.pure_def]
  constructor
  · rintro ⟨_, h₁, _, h₂, _, h₃, heq⟩
    cases heq
    exact ⟨h₁, h₂, h₃⟩
  · rintro ⟨h₁, h₂, h₃⟩
    exact ⟨_, h₁, _, h₂, _, h₃, rfl⟩

theorem servers_follow {step : Step} {server : String}
    (hstep : fieldOf? ["servers"] step = some "servers") (hslot : serverSlot? π = some slot) :
    Follows s s' serversReader (step :: .key server :: π)
      (fun servers => servers.lookup server >>= slot.get?) (modifyMember server (slot.set s')) := by
  intro depth t t' a h ha
  obtain ⟨fs, hfs, ha⟩ := Option.bind_eq_some_iff.1 ha
  obtain ⟨_, _, i, u, u', hpath, hi, hu, hσ, hfs'⟩ := exactFields_swap (by decide) h hfs
  cases hpath
  obtain rfl : i = 0 := place_of_name (by decide) (hi.trans hstep) rfl
  match fs, ha with
  | [servers], ha =>
    cases hu
    obtain ⟨hget, hset⟩ := tableOf_follows (server_follows hslot) server hσ ha
    exact ⟨hget, Option.bind_eq_some_iff.2 ⟨_, hfs', hset⟩⟩

/-- Settings read from a document follow every path that leads to a setting of a server. -/
theorem settings_follow {server : String} (hslot : slotOf? π = some (server, slot)) :
    Follows s s' Settings.reader π (·.textAt? server slot) (·.withText server slot s') := by
  intro depth t t' a h ha
  rw [settingsReader_eq] at ha ⊢
  obtain ⟨fs, hfs, ha⟩ := Option.bind_eq_some_iff.1 ha
  obtain ⟨step, σ, i, u, u', rfl, hi, hu, hσ, hfs'⟩ := exactFields_swap (by decide) h hfs
  unfold slotOf? at hslot
  split at hslot
  · next top inner server' path hpath =>
    cases hpath
    split at hslot
    · next hnames =>
      obtain ⟨slot', hslot', heq⟩ := Option.map_eq_some_iff.1 hslot
      cases heq
      obtain rfl : i = 1 := place_of_name (by decide) (hi.trans hnames.1) rfl
      match fs, ha with
      | [llm, mcp, telemetry], ha =>
        obtain ⟨h₁, h₂, h₃⟩ := settingsOf_eq_some.1 ha
        cases hu
        obtain ⟨hget, hset⟩ := servers_follow hnames.2 hslot' hσ h₂
        exact ⟨hget, Option.bind_eq_some_iff.2 ⟨_, hfs', settingsOf_eq_some.2 ⟨h₁, hset, h₃⟩⟩⟩
    · cases hslot
  · cases hslot

/-! ## Checks -/

/-- No check looks at the texts of a server. -/
theorem namedServer_set (name value : String) (slot : Slot) (server : ServerSettings) :
    (Settings.namedServer name (slot.set value server) >>= fun _ => pure ()) =
      (Settings.namedServer name server >>= fun _ => pure () : Except ConfigError Unit) := by
  have hserver : (slot.set value server).server.map (fun _ => ()) =
      server.server.map fun _ => () := by
    cases slot <;>
    · unfold ServerSettings.server Slot.set
      dsimp only
      split
      · rfl
      · cases durationOf "request_timeout" server.requestTimeout <;> rfl
  unfold Settings.namedServer
  revert hserver
  cases (slot.set value server).server <;> cases server.server <;> intro h <;> cases h <;> rfl

theorem forM_modifyMember {α : Type} {key : String} {f : α → α}
    {check : String × α → Except ConfigError Unit} (hf : ∀ k v, check (k, f v) = check (k, v)) :
    ∀ l, (modifyMember key f l).forM check = l.forM check
  | [] => rfl
  | (k, v) :: l => by
    by_cases hk : k = key
    · rw [modifyMember, if_pos hk, List.forM, hf, List.forM]
    · rw [modifyMember, if_neg hk, List.forM, forM_modifyMember hf l, List.forM]

theorem validate_withText (a : Settings) (server : String) (slot : Slot) (value : String) :
    (a.withText server slot value).validate = a.validate := by
  unfold Settings.validate Settings.withText
  dsimp only
  rw [forM_modifyMember fun k v => namedServer_set k value slot v]

end

end Switchboard.Config
