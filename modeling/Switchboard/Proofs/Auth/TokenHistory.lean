import Switchboard.Auth.TokenStore
import Mathlib.Data.List.Induction

/-!
# What a token store remembers

A store is used from one place, on a clock that is set forwards and backwards. Reading a key changes
the store, so what it gives depends on all that happened since the key was last written. `Kept` says
which token that leaves under a key, from the history alone; the store holds just that token
(`lookup_run`), and `reading_follows_history` is what this means for readings.
-/

namespace Switchboard.Auth

/-- What is done to a store. -/
inductive Op where
  | set (key : String) (t : Token)
  | inject (key : String) (t : Token)
  | get (key : String)
  /-- The clock is set. -/
  | clock (now : Int)
  deriving DecidableEq, Repr

namespace Op

/-- The token that is put under `key`. -/
def written? (key : String) : Op → Option Token
  | set k t | inject k t => if k = key then some t else none
  | get _ | clock _ => none

/-- Whether it is done to `key` or to the clock. -/
def concerns (key : String) : Op → Bool
  | set k _ | inject k _ | get k => k == key
  | clock _ => true

/-- What the clock shows then. -/
def clockAfter (now : Int) : Op → Int
  | clock later => later
  | set .. | inject .. | get _ => now

end Op

/-- A store and what its clock shows. -/
structure Keeper where
  store : TokenStore
  now : Int
  deriving DecidableEq, Repr

namespace Keeper

def start (seed : List (String × Token)) (now : Int) : Keeper := ⟨.ofList seed, now⟩

def step (k : Keeper) : Op → Keeper
  | .set key t | .inject key t => { k with store := k.store.set key t }
  | .get key => { k with store := (k.store.get key k.now).2 }
  | .clock later => { k with now := later }

def run (k : Keeper) (ops : List Op) : Keeper := ops.foldl step k

/-- What a reading of `key` gives. -/
def read (k : Keeper) (key : String) : Option Token := (k.store.get key k.now).1

end Keeper

/-! ## History -/

/-- The entries of a seed are the first that is written. -/
def seeding (seed : List (String × Token)) : List Op := seed.map fun e => .set e.1 e.2

/-- What a clock shows after `ops` that showed `now` before. -/
def clockAt (now : Int) (ops : List Op) : Int := ops.foldl Op.clockAfter now

/-- One of the readings of `key` in `ops` found `t` expired. -/
def FoundExpired (key : String) (t : Token) (now : Int) (ops : List Op) : Prop :=
  ∃ before after, ops = before ++ .get key :: after ∧ t.isExpiredAt (clockAt now before) = true

/-- `t` was the last to be put under `key` in `history`, and no reading has found it expired since.
The clock showed `now` at first. -/
def Kept (key : String) (t : Token) (now : Int) (history : List Op) : Prop :=
  ∃ before write since, history = before ++ write :: since ∧ write.written? key = some t ∧
    (∀ op ∈ since, op.written? key = none) ∧
    ¬ FoundExpired key t (clockAt now (before ++ [write])) since

section
variable {key other : String} {t u : Token} {now : Int} {op : Op} {ops history : List Op}

@[simp]
theorem clockAt_append (now : Int) (ops ops' : List Op) :
    clockAt now (ops ++ ops') = clockAt (clockAt now ops) ops' := List.foldl_append

/-- Where something stands in a list that ends in `x`. -/
theorem concat_eq_append_cons {α : Type} {xs before after : List α} {x y : α} :
    xs ++ [x] = before ++ y :: after ↔
      (xs = before ∧ x = y ∧ after = []) ∨ ∃ mid, after = mid ++ [x] ∧ xs = before ++ y :: mid := by
  constructor
  · intro h
    rcases after.eq_nil_or_concat with rfl | ⟨mid, z, rfl⟩
    · obtain ⟨hxs, hx⟩ := List.append_inj' h rfl
      exact .inl ⟨hxs, List.head_eq_of_cons_eq hx, rfl⟩
    · rw [List.concat_eq_append, ← List.cons_append, ← List.append_assoc] at h
      obtain ⟨hxs, hx⟩ := List.append_inj' h rfl
      exact .inr ⟨mid, by rw [List.head_eq_of_cons_eq hx, List.concat_eq_append], hxs⟩
  · rintro (⟨rfl, rfl, rfl⟩ | ⟨mid, rfl, rfl⟩)
    · rfl
    · simp

theorem foundExpired_nil : ¬ FoundExpired key t now [] := by
  rintro ⟨before, after, h, -⟩
  cases before <;> cases h

theorem foundExpired_concat :
    FoundExpired key t now (ops ++ [op]) ↔
      FoundExpired key t now ops ∨ op = .get key ∧ t.isExpiredAt (clockAt now ops) = true := by
  constructor
  · rintro ⟨before, after, h, hx⟩
    obtain ⟨rfl, rfl, rfl⟩ | ⟨mid, rfl, rfl⟩ := concat_eq_append_cons.1 h
    · exact .inr ⟨rfl, hx⟩
    · exact .inl ⟨before, mid, rfl, hx⟩
  · rintro (⟨before, after, rfl, hx⟩ | ⟨rfl, hx⟩)
    · exact ⟨before, after ++ [op], by simp, hx⟩
    · exact ⟨ops, [], rfl, hx⟩

theorem not_kept_nil : ¬ Kept key t now [] := by
  rintro ⟨before, write, since, h, -⟩
  cases before <;> cases h

theorem kept_write (h : op.written? key = some u) : Kept key t now (history ++ [op]) ↔ t = u := by
  constructor
  · rintro ⟨before, write, since, he, hw, hnone, -⟩
    obtain ⟨rfl, rfl, rfl⟩ | ⟨mid, rfl, rfl⟩ := concat_eq_append_cons.1 he
    · exact Option.some.inj (hw.symm.trans h)
    · rw [hnone op (by simp)] at h
      cases h
  · rintro rfl
    exact ⟨history, op, [], rfl, h, by simp, foundExpired_nil⟩

/-- Anything but a write keeps a token, unless it is a reading that finds it expired. -/
theorem kept_concat (h : op.written? key = none) :
    Kept key t now (history ++ [op]) ↔
      Kept key t now history ∧
        ¬ (op = .get key ∧ t.isExpiredAt (clockAt now history) = true) := by
  constructor
  · rintro ⟨before, write, since, he, hw, hnone, hfound⟩
    obtain ⟨rfl, rfl, rfl⟩ | ⟨mid, rfl, rfl⟩ := concat_eq_append_cons.1 he
    · rw [h] at hw
      cases hw
    · rw [foundExpired_concat, not_or, ← clockAt_append, ← List.append_cons] at hfound
      exact ⟨⟨before, write, mid, rfl, hw, fun o ho => hnone o (by simp [ho]), hfound.1⟩, hfound.2⟩
  · rintro ⟨⟨before, write, since, rfl, hw, hnone, hfound⟩, hlast⟩
    refine ⟨before, write, since ++ [op], by simp, hw, ?_, ?_⟩
    · intro o ho
      rcases List.mem_append.1 ho with ho | ho
      · exact hnone o ho
      · rw [List.mem_singleton.1 ho, h]
    · rw [foundExpired_concat, not_or, ← clockAt_append, ← List.append_cons]
      exact ⟨hfound, hlast⟩

end

/-! ## Runs -/

/-- What an operation at `now` leaves of the token under `key`. -/
def Op.leaves (key : String) (now : Int) (op : Op) (held : Option Token) : Option Token :=
  match op.written? key with
  | some t => some t
  | none => if op = .get key then held.filter (!·.isExpiredAt now) else held

section
variable {k : Keeper} {key : String} {t : Token} {now : Int} {op : Op} {ops history : List Op}
  {seed : List (String × Token)}

theorem Op.leaves_of_written? {held : Option Token} (h : op.written? key = some t) :
    op.leaves key now held = some t := by
  simp [leaves, h]

theorem Op.leaves_of_not_concerns {held : Option Token} (h : op.concerns key = false) :
    op.leaves key now held = held := by
  cases op <;> simp_all [leaves, written?, concerns]

namespace TokenStore

theorem lookup_set (s : TokenStore) (key other : String) (t : Token) :
    (s.set key t).lookup other = if key = other then some t else s.lookup other := by
  split
  · next h => rw [← h, lookup_set_self]
  · next h => exact lookup_set_of_ne s t (Ne.symm h)

theorem get_eq (s : TokenStore) (key : String) (now : Int) :
    s.get key now =
      if (s.lookup key).any (·.isExpiredAt now) then (none, s.erase key)
      else (s.lookup key, s) := by
  unfold get dropExpired
  cases hl : s.lookup key with
  | none => simp [hl]
  | some t => cases hx : t.isExpiredAt now <;> simp [hl, hx]

/-- A reading gives the token that it leaves. -/
theorem get_fst (s : TokenStore) (key : String) (now : Int) :
    (s.get key now).1 = (s.lookup key).filter (!·.isExpiredAt now) := by
  rw [get_eq]
  cases s.lookup key with
  | none => rfl
  | some t => cases h : t.isExpiredAt now <;> simp [h, Option.filter]

theorem lookup_get (s : TokenStore) (key other : String) (now : Int) :
    (s.get key now).2.lookup other =
      if key = other then (s.get key now).1 else s.lookup other := by
  rw [get_eq]
  by_cases hk : key = other
  · subst hk
    split <;> simp [lookup_erase_self]
  · rw [if_neg hk]
    split
    · exact lookup_erase_of_ne s (Ne.symm hk)
    · rfl

end TokenStore

namespace Keeper

theorem lookup_step (k : Keeper) (op : Op) (key : String) :
    (k.step op).store.lookup key = op.leaves key k.now (k.store.lookup key) := by
  cases op with
  | set key' t | inject key' t =>
    simp only [step, TokenStore.lookup_set, Op.leaves, Op.written?]
    split <;> simp
  | get key' =>
    simp only [step, TokenStore.lookup_get, TokenStore.get_fst, Op.leaves, Op.written?,
      Op.get.injEq]
    split
    · next h => rw [h]
    · rfl
  | clock later => simp [step, Op.leaves, Op.written?]

theorem step_now (k : Keeper) (op : Op) : (k.step op).now = op.clockAfter k.now := by
  cases op <;> rfl

theorem run_now (k : Keeper) (ops : List Op) : (k.run ops).now = clockAt k.now ops := by
  induction ops generalizing k with
  | nil => rfl
  | cons op rest ih => exact (ih (k.step op)).trans (by rw [step_now]; rfl)

@[simp]
theorem run_append (k : Keeper) (ops ops' : List Op) : k.run (ops ++ ops') = (k.run ops).run ops' :=
  List.foldl_append

theorem read_eq (k : Keeper) (key : String) :
    k.read key = (k.store.lookup key).filter (!·.isExpiredAt k.now) :=
  TokenStore.get_fst ..

theorem start_eq (seed : List (String × Token)) (now : Int) :
    start seed now = run ⟨.empty, now⟩ (seeding seed) := by
  have seeded : ∀ s : TokenStore, run ⟨s, now⟩ (seeding seed) =
      ⟨seed.foldl (fun s e => s.set e.1 e.2) s, now⟩ := by
    induction seed with
    | nil => exact fun _ => rfl
    | cons e rest ih => exact fun s => ih (s.set e.1 e.2)
  exact (seeded .empty).symm

/-- A store that was empty at first holds what its history leaves under each key. -/
theorem lookup_run (now : Int) (history : List Op) (key : String) (t : Token) :
    (run ⟨.empty, now⟩ history).store.lookup key = some t ↔ Kept key t now history := by
  induction history using List.reverseRecOn with
  | nil => exact iff_of_false (by simp [run, TokenStore.empty, TokenStore.lookup]) not_kept_nil
  | append_singleton history op ih =>
    have hlast := lookup_step (run ⟨.empty, now⟩ history) op key
    rw [run_now] at hlast
    rw [run_append, show ∀ k : Keeper, k.run [op] = k.step op from fun _ => rfl, hlast]
    cases hw : op.written? key with
    | some u =>
      rw [Op.leaves_of_written? hw, kept_write hw, Option.some.injEq, eq_comm]
    | none =>
      rw [kept_concat hw, ← ih]
      simp only [Op.leaves, hw]
      split
      · next hget => simp [Option.filter_eq_some_iff, hget]
      · next hget => simp [hget]

/-- What is not done to a key leaves what is held under it. -/
theorem run_concerns (k : Keeper) (ops : List Op) (key : String) :
    (k.run ops).read key = (k.run (ops.filter (·.concerns key))).read key := by
  have alike : ∀ (ops : List Op) (k k' : Keeper), k.now = k'.now →
      k.store.lookup key = k'.store.lookup key →
      (k.run ops).read key = (k'.run (ops.filter (·.concerns key))).read key := by
    intro ops
    induction ops with
    | nil =>
      intro k k' hnow hl
      change k.read key = k'.read key
      rw [read_eq, read_eq, hnow, hl]
    | cons op rest ih =>
      intro k k' hnow hl
      cases hc : op.concerns key with
      | true =>
        rw [List.filter_cons_of_pos hc]
        exact ih _ _ (by rw [step_now, step_now, hnow]) (by rw [lookup_step, lookup_step, hnow, hl])
      | false =>
        rw [List.filter_cons_of_neg (by simp [hc])]
        refine ih _ _ ?_ ?_
        · rw [step_now, ← hnow]
          cases op <;> first | rfl | cases hc
        · rw [lookup_step, Op.leaves_of_not_concerns hc, hl]
  exact alike ops k k rfl rfl

/-- A key under which a reading found nothing stays empty until it is written. -/
theorem read_run_of_none {k : Keeper} (h : k.read key = none)
    (hops : ∀ op ∈ ops, op.written? key = none) :
    ((k.step (.get key)).run ops).read key = none := by
  have empty : ∀ (ops : List Op) (k : Keeper), (∀ op ∈ ops, op.written? key = none) →
      k.store.lookup key = none → (k.run ops).read key = none := by
    intro ops
    induction ops with
    | nil =>
      intro k _ hl
      change k.read key = none
      rw [read_eq, hl]
      rfl
    | cons op rest ih =>
      intro k hw hl
      refine ih (k.step op) (fun o ho => hw o (List.mem_cons_of_mem _ ho)) ?_
      rw [lookup_step, Op.leaves, hw op List.mem_cons_self, hl]
      simp
  refine empty ops _ hops ?_
  rw [lookup_step, Op.leaves, ← h, read_eq]
  simp [Op.written?]

end Keeper

end

/-- A reading of `key` gives `t` if and only if `t` is what was last put under `key`, be it by the
seed, no reading since has found it expired, and it is not expired now; so it gives nothing in all
other cases. Once a reading gave nothing, so do all that follow until the next write to the key,
wherever the clock goes. What is done to other keys makes no difference. -/
theorem reading_follows_history (seed : List (String × Token)) (now : Int) (ops : List Op)
    (key : String) :
    (∀ t, ((Keeper.start seed now).run ops).read key = some t ↔
      Kept key t now (seeding seed ++ ops) ∧ t.isExpiredAt (clockAt now ops) = false) ∧
    (((Keeper.start seed now).run ops).read key = none →
      ∀ later, (∀ op ∈ later, op.written? key = none) →
        ((Keeper.start seed now).run (ops ++ .get key :: later)).read key = none) ∧
    ((Keeper.start seed now).run ops).read key =
      ((Keeper.start seed now).run (ops.filter (·.concerns key))).read key := by
  refine ⟨fun t => ?_, fun h later hlater => ?_, Keeper.run_concerns ..⟩
  · have hnow : (Keeper.start seed now).now = now := rfl
    rw [Keeper.read_eq, Option.filter_eq_some_iff, Keeper.run_now, hnow, Keeper.start_eq,
      ← Keeper.run_append, Keeper.lookup_run, Bool.not_eq_true']
  · rw [Keeper.run_append]
    exact Keeper.read_run_of_none h hlater

/-- A token that a reading found expired is not given again after the clock was set back, but one
that nobody read while it was expired is. -/
theorem expired_token_forgotten :
    let keeper := Keeper.start [("k", ⟨"old", none, none⟩), ("k", ⟨"a", some 10, none⟩)] 0
    (keeper.run [.clock 10, .get "j", .clock 9]).read "k" = some ⟨"a", some 10, none⟩ ∧
      (keeper.run [.clock 10]).read "k" = none ∧
      (keeper.run ([.clock 10] ++ .get "k" :: [.clock 9, .set "j" ⟨"b", none, none⟩])).read "k" =
        none := by
  refine ⟨rfl, rfl, ?_⟩
  obtain ⟨-, hnone, -⟩ := reading_follows_history
    [("k", ⟨"old", none, none⟩), ("k", ⟨"a", some 10, none⟩)] 0 [.clock 10] "k"
  exact hnone rfl _ (by decide)

end Switchboard.Auth
