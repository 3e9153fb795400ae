import Switchboard.Proofs.Auth.TokenHistory

/-!
# Readings that others overtake

A store is used from many places at once. Writes are atomic, and a reading is three atomic steps: it
takes the clock, removes the token under its key if that is dead, and looks the key up. Others can
come in between. `Shared.act?` is one atomic step of anybody; a reading that nobody interrupts is
`TokenStore.get` (`run?_alone`). A token that comes in after the check is not checked, so a reading
can give a token that is dead (`run?_overtaken`), but only one that was dead when it was written,
which was between the check and the lookup (`reading_live_or_overtaken`).
-/

namespace Switchboard.Auth

/-- How far a reading has come. -/
inductive Progress where
  | begun
  /-- It has taken the clock. -/
  | dated (taken : Int)
  /-- It has found nothing dead under its key. -/
  | checked (taken : Int)
  | done (taken : Int) (result : Option Token)
  deriving DecidableEq, Repr

structure Reading where
  key : String
  progress : Progress
  deriving DecidableEq, Repr

/-- A store, what its clock shows, and all readings that were begun. -/
structure Shared where
  store : TokenStore
  now : Int
  readings : List Reading
  deriving DecidableEq, Repr

inductive Act where
  /-- A token is set or injected. -/
  | write (key : String) (t : Token)
  | tick (later : Int)
  | get (key : String)
  /-- Reading `i` takes its next step. -/
  | advance (i : Nat)
  deriving DecidableEq, Repr

/-- The next step of a reading, and what it leaves of the store. -/
def Reading.next (r : Reading) (now : Int) (store : TokenStore) : Option (Reading × TokenStore) :=
  match r.progress with
  | .begun => some (⟨r.key, .dated now⟩, store)
  | .dated taken =>
    match store.dropExpired r.key taken with
    | (true, store) => some (⟨r.key, .done taken none⟩, store)
    | (false, store) => some (⟨r.key, .checked taken⟩, store)
  | .checked taken => some (⟨r.key, .done taken (store.lookup r.key)⟩, store)
  | .done .. => none

namespace Shared

def start (store : TokenStore) (now : Int) : Shared := ⟨store, now, []⟩

/-- What one step of anybody does, if it is possible. The clock never goes back. -/
def act? (s : Shared) : Act → Option Shared
  | .write key t => some { s with store := s.store.set key t }
  | .tick later => if s.now ≤ later then some { s with now := later } else none
  | .get key => some { s with readings := s.readings ++ [⟨key, .begun⟩] }
  | .advance i =>
    s.readings[i]?.bind fun r => (r.next s.now s.store).map fun (r, store) =>
      { s with store, readings := s.readings.set i r }

def run? (s : Shared) (acts : List Act) : Option Shared := acts.foldlM act? s

end Shared

/-! ## Single steps -/

section
variable {s s' start m : Shared} {store store' : TokenStore} {acts : List Act} {a : Act} {i : Nat}
  {r r' : Reading} {key other : String} {now taken : Int} {t : Token}

theorem TokenStore.dropExpired_eq (store : TokenStore) (key : String) (now : Int) :
    store.dropExpired key now =
      if (store.lookup key).any (·.isExpiredAt now) then (true, store.erase key)
      else (false, store) := by
  unfold dropExpired
  cases store.lookup key with
  | none => rfl
  | some t => cases h : t.isExpiredAt now <;> simp [h]

/-- Removing dead tokens puts nothing into a store. -/
theorem TokenStore.lookup_of_dropExpired
    (h : (store.dropExpired key now).2.lookup other = some t) : store.lookup other = some t := by
  rw [dropExpired_eq] at h
  split at h
  · by_cases hk : other = key
    · rw [hk, lookup_erase_self] at h
      cases h
    · rwa [lookup_erase_of_ne store hk] at h
  · exact h

theorem Reading.next_of_dead (h : (store.lookup key).any (·.isExpiredAt taken) = true) :
    next ⟨key, .dated taken⟩ now store = some (⟨key, .done taken none⟩, store.erase key) := by
  simp [next, TokenStore.dropExpired_eq, h]

theorem Reading.next_of_alive (h : (store.lookup key).any (·.isExpiredAt taken) = false) :
    next ⟨key, .dated taken⟩ now store = some (⟨key, .checked taken⟩, store) := by
  simp [next, TokenStore.dropExpired_eq, h]

/-- A reading puts nothing into the store. -/
theorem Reading.lookup_of_next (h : r.next now store = some (r', store'))
    (ht : store'.lookup other = some t) : store.lookup other = some t := by
  unfold next at h
  split at h
  · cases h
    exact ht
  · split at h
    · next hdrop =>
      cases h
      exact TokenStore.lookup_of_dropExpired (by rw [hdrop]; exact ht)
    · next hdrop =>
      cases h
      exact TokenStore.lookup_of_dropExpired (by rw [hdrop]; exact ht)
  · cases h
    exact ht
  · cases h

namespace Shared

theorem run?_concat :
    start.run? (acts ++ [a]) = some s ↔ ∃ m, start.run? acts = some m ∧ m.act? a = some s := by
  simp [run?, List.foldlM_append, Option.bind_eq_some_iff]

theorem act?_advance (h : s.readings[i]? = some r) (hn : r.next s.now s.store = some (r', store)) :
    s.act? (.advance i) = some ⟨store, s.now, s.readings.set i r'⟩ := by
  simp [act?, h, hn]

/-- A reading that nobody interrupts reads the store in one go. -/
theorem run?_alone (s : Shared) (h : s.readings[i]? = some ⟨key, .begun⟩) :
    ∃ steps, s.run? (List.replicate steps (.advance i)) =
      some ⟨(s.store.get key s.now).2, s.now,
        s.readings.set i ⟨key, .done s.now (s.store.get key s.now).1⟩⟩ := by
  obtain ⟨hi, -⟩ := List.getElem?_eq_some_iff.1 h
  have after : ∀ store r, (⟨store, s.now, s.readings.set i r⟩ : Shared).readings[i]? = some r :=
    fun _ _ => List.getElem?_set_self hi
  have hdated : s.act? (.advance i) =
      some ⟨s.store, s.now, s.readings.set i ⟨key, .dated s.now⟩⟩ := act?_advance h rfl
  rw [TokenStore.get_eq]
  cases hdead : (s.store.lookup key).any (·.isExpiredAt s.now) with
  | true =>
    have hdone := act?_advance (after s.store ⟨key, .dated s.now⟩) (Reading.next_of_dead hdead)
    exact ⟨2, by simp [run?, List.replicate, hdated, hdone]⟩
  | false =>
    have hchecked := act?_advance (after s.store ⟨key, .dated s.now⟩)
      (Reading.next_of_alive hdead)
    rw [List.set_set] at hchecked
    have hdone := act?_advance (after s.store ⟨key, .checked s.now⟩) rfl
    exact ⟨3, by simp [run?, List.replicate, hdated, hchecked, hdone]⟩

/-- A reading gives what is written between its check and its lookup, dead or alive. -/
theorem run?_overtaken (s : Shared) (t : Token)
    (h : s.readings[i]? = some ⟨key, .checked taken⟩) :
    s.run? [.write key t, .advance i] = some ⟨s.store.set key t, s.now,
      s.readings.set i ⟨key, .done taken (some t)⟩⟩ := by
  have hwritten : s.act? (.write key t) = some { s with store := s.store.set key t } := rfl
  have hdone : { s with store := s.store.set key t }.act? (.advance i) = some
      ⟨s.store.set key t, s.now, s.readings.set i ⟨key, .done taken (some t)⟩⟩ :=
    act?_advance h (by simp [Reading.next, TokenStore.lookup_set_self])
  simp [run?, hwritten, hdone]

/-- What a step does to one reading: it advances it, or leaves it alone and at most writes its key;
or the reading is a new one. -/
theorem act?_reading (ha : s.act? a = some s') (hi : s'.readings[i]? = some r') :
    (a = .advance i ∧ ∃ r, s.readings[i]? = some r ∧
        r.next s.now s.store = some (r', s'.store) ∧ s'.now = s.now) ∨
      (a ≠ .advance i ∧ s.readings[i]? = some r' ∧ s.now ≤ s'.now ∧
        ∀ t, s'.store.lookup r'.key = some t →
          s.store.lookup r'.key = some t ∨ a = .write r'.key t) ∨
      r'.progress = .begun := by
  cases a with
  | write key t =>
    cases ha
    refine .inr (.inl ⟨nofun, hi, Int.le_refl _, fun u hu => ?_⟩)
    dsimp only at hu
    rw [TokenStore.lookup_set] at hu
    split at hu
    · next hk => exact .inr (by rw [hk, Option.some.inj hu])
    · exact .inl hu
  | tick later =>
    simp only [act?] at ha
    split at ha
    · next hle =>
      cases ha
      exact .inr (.inl ⟨nofun, hi, hle, fun _ hu => .inl hu⟩)
    · cases ha
  | get key =>
    cases ha
    rcases Nat.lt_or_ge i s.readings.length with hlt | hge
    · rw [List.getElem?_append_left hlt] at hi
      exact .inr (.inl ⟨nofun, hi, Int.le_refl _, fun _ hu => .inl hu⟩)
    · rw [List.getElem?_append_right hge] at hi
      obtain rfl := List.mem_singleton.1 (List.mem_of_getElem? hi)
      exact .inr (.inr rfl)
  | advance j =>
    obtain ⟨r, hr, ha⟩ := Option.bind_eq_some_iff.1 ha
    obtain ⟨⟨r₁, store⟩, hnext, rfl⟩ := Option.map_eq_some_iff.1 ha
    by_cases hij : j = i
    · subst hij
      obtain ⟨hj, -⟩ := List.getElem?_eq_some_iff.1 hr
      obtain rfl := Option.some.inj ((List.getElem?_set_self hj).symm.trans hi)
      exact .inl ⟨rfl, r, hr, hnext, rfl⟩
    · rw [List.getElem?_set_ne hij] at hi
      refine .inr (.inl ⟨fun h => hij (Act.advance.inj h), hi, Int.le_refl _, fun u hu => ?_⟩)
      exact .inl (Reading.lookup_of_next hnext hu)

end Shared
end

/-! ## What a reading can give -/

/-- The last step of reading `i` was its check of `key` at the clock reading `taken`. -/
def CheckedSince (start : Shared) (acts : List Act) (i : Nat) (key : String) (taken : Int) : Prop :=
  ∃ before since m, acts = before ++ .advance i :: since ∧ .advance i ∉ since ∧
    start.run? before = some m ∧ m.readings[i]? = some ⟨key, .dated taken⟩

/-- Since reading `i` checked `key` at the clock reading `taken`, `t` was written there, and it was
dead when it was. -/
def WrittenSince (start : Shared) (acts : List Act) (i : Nat) (key : String) (taken : Int)
    (t : Token) : Prop :=
  ∃ before since m, acts = before ++ .write key t :: since ∧ .advance i ∉ since ∧
    CheckedSince start before i key taken ∧ start.run? before = some m ∧
    t.isExpiredAt m.now = true

/-- A dead `t` was written to `key` between the check and the lookup of reading `i`. -/
def Overtaken (start : Shared) (acts : List Act) (i : Nat) (key : String) (taken : Int)
    (t : Token) : Prop :=
  ∃ before after, acts = before ++ .advance i :: after ∧ WrittenSince start before i key taken t

/-- What is known of a reading at each of its steps. -/
inductive Accounted (start : Shared) (acts : List Act) (i : Nat) (s : Shared) : Reading → Prop where
  | begun {key : String} : Accounted start acts i s ⟨key, .begun⟩
  | dated {key : String} {taken : Int} : taken ≤ s.now →
      Accounted start acts i s ⟨key, .dated taken⟩
  | checked {key : String} {taken : Int} : taken ≤ s.now → CheckedSince start acts i key taken →
      (∀ t, s.store.lookup key = some t →
        t.isExpiredAt taken = false ∨ WrittenSince start acts i key taken t) →
      Accounted start acts i s ⟨key, .checked taken⟩
  | done {key : String} {taken : Int} {result : Option Token} :
      (∀ t, result = some t →
        t.isExpiredAt taken = false ∨ Overtaken start acts i key taken t) →
      Accounted start acts i s ⟨key, .done taken result⟩

section
variable {s s' start : Shared} {store' : TokenStore} {acts : List Act} {a : Act} {i : Nat}
  {r r' : Reading} {key : String} {now taken : Int} {t : Token}

/-- A dead token stays dead. -/
theorem Token.isExpiredAt_mono (h : t.isExpiredAt taken = true) (hle : taken ≤ now) :
    t.isExpiredAt now = true := by
  unfold isExpiredAt at h ⊢
  split
  · next at_ hat =>
    rw [hat] at h
    exact decide_eq_true (Int.le_trans (of_decide_eq_true h) hle)
  · next hat => rw [hat] at h; exact h

theorem CheckedSince.concat (h : CheckedSince start acts i key taken) (ha : a ≠ .advance i) :
    CheckedSince start (acts ++ [a]) i key taken := by
  obtain ⟨before, since, m, rfl, hsince, hm⟩ := h
  exact ⟨before, since ++ [a], m, by simp, by simp [hsince, ha.symm], hm⟩

theorem WrittenSince.concat (h : WrittenSince start acts i key taken t) (ha : a ≠ .advance i) :
    WrittenSince start (acts ++ [a]) i key taken t := by
  obtain ⟨before, since, m, rfl, hsince, hm⟩ := h
  exact ⟨before, since ++ [a], m, by simp, by simp [hsince, ha.symm], hm⟩

theorem Overtaken.concat (h : Overtaken start acts i key taken t) (a : Act) :
    Overtaken start (acts ++ [a]) i key taken t := by
  obtain ⟨before, after, rfl, h⟩ := h
  exact ⟨before, after ++ [a], by simp, h⟩

/-- A reading waits while others act. -/
theorem Accounted.wait (h : Accounted start acts i s r) (hr : start.run? acts = some s)
    (ha : a ≠ .advance i) (hnow : s.now ≤ s'.now)
    (hstore : ∀ t, s'.store.lookup r.key = some t →
      s.store.lookup r.key = some t ∨ a = .write r.key t) :
    Accounted start (acts ++ [a]) i s' r := by
  cases h with
  | begun => exact .begun
  | dated hle => exact .dated (Int.le_trans hle hnow)
  | @checked key taken hle hchecked hheld =>
    refine .checked (Int.le_trans hle hnow) (hchecked.concat ha) fun t ht => ?_
    rcases hstore t ht with ht | rfl
    · exact (hheld t ht).imp_right fun h => h.concat ha
    · -- What is written now is looked up later, and nothing checks it before.
      cases hdead : t.isExpiredAt taken with
      | false => exact .inl rfl
      | true =>
        exact .inr ⟨acts, [], s, rfl, nofun, hchecked, hr, Token.isExpiredAt_mono hdead hle⟩
  | done hresult => exact .done fun t ht => (hresult t ht).imp_right fun h => h.concat a

theorem Accounted.advance (h : Accounted start acts i s r) (hr : start.run? acts = some s)
    (hi : s.readings[i]? = some r) (hnext : r.next s.now s.store = some (r', store'))
    (hstore : s'.store = store') (hnow : s'.now = s.now) :
    Accounted start (acts ++ [.advance i]) i s' r' := by
  cases h with
  | begun =>
    cases hnext
    exact .dated (Int.le_of_eq hnow.symm)
  | @dated key taken hle =>
    cases hdead : (s.store.lookup key).any (·.isExpiredAt taken) with
    | true =>
      cases (Reading.next_of_dead hdead).symm.trans hnext
      exact .done nofun
    | false =>
      cases (Reading.next_of_alive hdead).symm.trans hnext
      refine .checked (hnow ▸ hle) ⟨acts, [], s, rfl, nofun, hr, hi⟩ fun t ht => .inl ?_
      rw [hstore] at ht
      simpa [ht] using hdead
  | checked _ _ hheld =>
    cases hnext
    exact .done fun t ht => (hheld t ht).imp_right fun h => ⟨acts, [], rfl, h⟩
  | done => cases hnext

theorem accounted_of_run (hstart : start.readings = []) (hr : start.run? acts = some s) :
    ∀ r, s.readings[i]? = some r → Accounted start acts i s r := by
  induction acts using List.reverseRecOn generalizing s with
  | nil =>
    cases hr
    intro r hi
    rw [hstart] at hi
    cases hi
  | append_singleton acts a ih =>
    obtain ⟨m, hm, ha⟩ := Shared.run?_concat.1 hr
    intro r hi
    rcases Shared.act?_reading ha hi with
      ⟨rfl, r, hr, hnext, hnow⟩ | ⟨hne, hr, hnow, hstore⟩ | hnew
    · exact (ih hm r hr).advance hm hr hnext rfl hnow
    · exact (ih hm r hr).wait hm hne hnow hstore
    · obtain ⟨key, progress⟩ := r
      cases hnew
      exact .begun

/-- A reading gives a token that was not expired at the clock reading that it took, or else one that
was written to its key between its check and its lookup and was expired when it was written. -/
theorem reading_live_or_overtaken (store : TokenStore) (now : Int) {acts : List Act} {s : Shared}
    {i : Nat} {key : String} {taken : Int} {t : Token}
    (hr : (Shared.start store now).run? acts = some s)
    (hi : s.readings[i]? = some ⟨key, .done taken (some t)⟩) :
    t.isExpiredAt taken = false ∨ Overtaken (.start store now) acts i key taken t := by
  cases accounted_of_run rfl hr _ hi with
  | done hresult => exact hresult t rfl

end

/-- A reading takes the clock at 0 and looks up at 5 what was written after its check: a token that
dies in between. -/
def lateLookup : List Act :=
  [.get "k", .advance 0, .tick 5, .get "k", .advance 0, .write "k" ⟨"a", some 3, none⟩, .advance 1,
    .advance 0]

theorem token_alive_at_reading : ∃ s t, (Shared.start .empty 0).run? lateLookup = some s ∧
    s.readings[0]? = some ⟨"k", .done 0 (some t)⟩ ∧
    (t.isExpiredAt 0 = false ∨ Overtaken (.start .empty 0) lateLookup 0 "k" 0 t) := by
  have hr : ∃ s t, (Shared.start .empty 0).run? lateLookup = some s ∧
      s.readings[0]? = some ⟨"k", .done 0 (some t)⟩ := ⟨_, _, rfl, rfl⟩
  obtain ⟨s, t, hr, hi⟩ := hr
  exact ⟨s, t, hr, hi, reading_live_or_overtaken .empty 0 hr hi⟩

/-- A dead token is written between the check of a reading and its lookup. -/
def overtakingWrite : List Act :=
  [.get "k", .advance 0, .advance 0, .write "k" ⟨"a", some 0, none⟩, .advance 0]

/-- A reading that is overtaken gives a token that is expired at the clock reading that it took. -/
theorem overtaken_reading_gives_expired_token :
    ∃ s t, (Shared.start .empty 0).run? overtakingWrite = some s ∧
      s.readings[0]? = some ⟨"k", .done 0 (some t)⟩ ∧ t.isExpiredAt 0 = true :=
  ⟨_, _, rfl, rfl, rfl⟩

end Switchboard.Auth
