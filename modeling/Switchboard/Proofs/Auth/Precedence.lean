import Switchboard.Auth.Strategy
import Mathlib.Data.List.Nodup

/-!
# Whose credentials a request carries

Strategies are made and applied in any order, and those that cannot be made leave no trace.
`Credentials.Sets` says from the input alone which value a strategy gives a name; the fields of a
strategy that was made are just these, one for each name (`fields_of_strategy`). So each application
is remembered until a later one sets the same name: after any sequence a name has the value of the
`Latest` that set it, or what it had at the beginning (`headers_carry_latest`).
-/

namespace Switchboard.Auth

open Chat

/-- What a strategy is made from. -/
inductive Credentials where
  | none
  | apiKey (header key : String)
  | bearer (token : String)
  | custom (pairs : List (String × String))
  deriving DecidableEq, Repr

/-- A name without regard to blanks around it and to letter case. -/
def keptName (name : String) : String := (Text.trim name).toLower

/-- The value in the last pair that has the name. -/
inductive LastPair (name : String) : List (String × String) → String → Prop where
  | here {n value : String} {rest : List (String × String)} (h : keptName n = keptName name)
    (hlast : ∀ p ∈ rest, keptName p.1 ≠ keptName name) : LastPair name ((n, value) :: rest) value
  | later {p : String × String} {value : String} {rest : List (String × String)}
    (h : LastPair name rest value) : LastPair name (p :: rest) value

namespace Credentials

def strategy : Credentials → Except ChatError Strategy
  | none => .ok .none
  | apiKey header key => Strategy.ofApiKey header key
  | bearer token => Strategy.ofBearer token
  | custom pairs => Strategy.ofPairs pairs

/-- What the credentials give a name; keys and tokens are sensitive. -/
inductive Sets (name : String) : Credentials → HeaderValue → Prop where
  | apiKey {header key : String} (h : keptName header = keptName name) :
    (apiKey header key).Sets name ⟨key, true⟩
  | bearer {token : String} (h : keptName bearerHeader = keptName name) :
    (bearer token).Sets name ⟨"Bearer " ++ token, true⟩
  | custom {pairs : List (String × String)} {value : String} (h : LastPair name pairs value) :
    (custom pairs).Sets name ⟨value, false⟩

end Credentials

/-! ## Fields -/

section
variable {name n value : String} {v : HeaderValue} {f g : Field} {h : Headers}
  {fs gs : List Field} {pairs : List (String × String)} {s : Strategy} {c : Credentials}

theorem toList_keptName (name : String) :
    (keptName name).toList = (Text.trimChars name.toList).map Char.toLower := by
  have hlower : (keptName name).toList = (Text.trim name).toList.map Char.toLower :=
    String.toList_map
  rw [hlower, Text.trim, String.toList_ofList]

theorem keptName_bearerHeader : keptName bearerHeader = bearerHeader := by
  rw [← String.toList_inj, toList_keptName]
  decide

theorem fieldName_eq_ok (h : fieldName name = .ok n) : n = keptName name := by
  unfold fieldName at h
  split at h
  · cases h
  · split at h
    · cases h
      rfl
    · cases h

/-- The names of the fields, none of them twice. -/
def Distinct (fs : List Field) : Prop := (fs.map (·.name)).Nodup

theorem names_putField (f : Field) (fs : List Field) : (Strategy.putField f fs).map (·.name) =
    if f.name ∈ fs.map (·.name) then fs.map (·.name) else fs.map (·.name) ++ [f.name] := by
  induction fs with
  | nil => rfl
  | cons g fs ih =>
    rw [Strategy.putField]
    by_cases hg : g.name = f.name
    · rw [if_pos hg]
      simp [hg]
    · rw [if_neg hg, List.map_cons, ih]
      by_cases hf : f.name ∈ fs.map (·.name)
      · simp [hf]
      · simp [hf, Ne.symm hg]

theorem Distinct.putField (hfs : Distinct fs) (f : Field) : Distinct (Strategy.putField f fs) := by
  unfold Distinct
  rw [names_putField]
  split
  · exact hfs
  · next hf => exact List.nodup_append.2 ⟨hfs, List.nodup_singleton _, by simpa using hf⟩

theorem mem_putField (hfs : Distinct fs) :
    g ∈ Strategy.putField f fs ↔ g = f ∨ g ∈ fs ∧ g.name ≠ f.name := by
  induction fs with
  | nil => simp [Strategy.putField]
  | cons k fs ih =>
    obtain ⟨hk, hfs⟩ := List.nodup_cons.1 hfs
    rw [Strategy.putField]
    by_cases hkf : k.name = f.name
    · rw [if_pos hkf, List.mem_cons, List.mem_cons]
      refine or_congr_right ⟨fun hg => ⟨.inr hg, fun hgf => ?_⟩, fun ⟨hg, hgf⟩ => ?_⟩
      · exact hk (List.mem_map.2 ⟨g, hg, hgf.trans hkf.symm⟩)
      · exact hg.resolve_left fun heq => hgf (heq ▸ hkf)
    · rw [if_neg hkf, List.mem_cons, ih hfs, List.mem_cons]
      constructor
      · rintro (rfl | rfl | ⟨hg, hgf⟩)
        · exact .inr ⟨.inl rfl, hkf⟩
        · exact .inl rfl
        · exact .inr ⟨.inr hg, hgf⟩
      · rintro (rfl | ⟨rfl | hg, hgf⟩)
        · exact .inr (.inl rfl)
        · exact .inl rfl
        · exact .inr (.inr ⟨hg, hgf⟩)

theorem distinct_nil : Distinct [] := List.nodup_nil

theorem distinct_singleton (f : Field) : Distinct [f] := List.nodup_singleton f.name

/-- A list of pairs gives each name that occurs in it its last value, and keeps the fields of other
names. -/
theorem gather_eq_ok (hfs : Distinct fs) (h : Strategy.gather fs pairs = .ok gs) :
    Distinct gs ∧ ∀ name v, ⟨keptName name, v⟩ ∈ gs ↔
      (∃ value, LastPair name pairs value ∧ v = ⟨value, false⟩) ∨
        ⟨keptName name, v⟩ ∈ fs ∧ ∀ p ∈ pairs, keptName p.1 ≠ keptName name := by
  -- every pair changes the fields gathered so far, so these vary along the induction
  induction pairs generalizing fs with
  | nil =>
    cases h
    refine ⟨hfs, fun name v => ⟨fun hv => .inr ⟨hv, nofun⟩, ?_⟩⟩
    rintro (⟨_, hlast, _⟩ | ⟨hv, _⟩)
    · cases hlast
    · exact hv
  | cons p rest ih =>
    obtain ⟨n, value⟩ := p
    rw [Strategy.gather] at h
    split at h
    · split at h
      · next k hk =>
        obtain rfl := fieldName_eq_ok hk
        obtain ⟨hgs, hmem⟩ := ih (hfs.putField _) h
        refine ⟨hgs, fun name v => ?_⟩
        rw [hmem, mem_putField hfs, List.forall_mem_cons]
        constructor
        · rintro (⟨w, hw, rfl⟩ | ⟨heq | ⟨hv, hne⟩, hrest⟩)
          · exact .inl ⟨w, .later hw, rfl⟩
          · obtain ⟨hname, rfl⟩ := Field.mk.inj heq
            exact .inl ⟨value, .here hname.symm hrest, rfl⟩
          · exact .inr ⟨hv, Ne.symm hne, hrest⟩
        · rintro (⟨w, hw, rfl⟩ | ⟨hv, hne, hrest⟩)
          · cases hw with
            | here hname hrest => exact .inr ⟨.inl (by rw [hname]), hrest⟩
            | later hw => exact .inl ⟨w, hw, rfl⟩
          · exact .inr ⟨.inr ⟨hv, Ne.symm hne⟩, hrest⟩
      · cases h
    · cases h

theorem secretValue_eq_ok {secret what : String} (h : secretValue secret what = .ok v) :
    v = ⟨secret, true⟩ := by
  unfold secretValue at h
  split at h
  · cases h
  · split at h
    · cases h
      rfl
    · cases h

theorem ofApiKey_eq_ok {header key : String} (h : Strategy.ofApiKey header key = .ok s) :
    s = .apiKey ⟨keptName header, ⟨key, true⟩⟩ := by
  unfold Strategy.ofApiKey at h
  cases hname : fieldName header with
  | error e =>
    rw [hname] at h
    cases h
  | ok n =>
    cases hvalue : secretValue key "API key" with
    | error e =>
      rw [hname, hvalue] at h
      cases h
    | ok v =>
      rw [hname, hvalue] at h
      cases h
      rw [fieldName_eq_ok hname, secretValue_eq_ok hvalue]

theorem ofBearer_eq_ok {token : String} (h : Strategy.ofBearer token = .ok s) :
    s = .bearer ⟨"Bearer " ++ token, true⟩ := by
  unfold Strategy.ofBearer at h
  split at h
  · cases h
  · cases hvalue : secretValue ("Bearer " ++ token) "bearer token" with
    | error e =>
      rw [hvalue] at h
      cases h
    | ok v =>
      rw [hvalue] at h
      cases h
      rw [secretValue_eq_ok hvalue]

/-- A strategy sets just what its credentials say, and no name twice. -/
theorem fields_of_strategy (h : c.strategy = .ok s) :
    Distinct s.fields ∧ ∀ name v, ⟨keptName name, v⟩ ∈ s.fields ↔ c.Sets name v := by
  cases c with
  | none =>
    cases h
    exact ⟨distinct_nil, fun name v => ⟨nofun, nofun⟩⟩
  | apiKey header key =>
    obtain rfl := ofApiKey_eq_ok h
    refine ⟨distinct_singleton _, fun name v => List.mem_singleton.trans ⟨?_, ?_⟩⟩
    · intro heq
      obtain ⟨hname, rfl⟩ := Field.mk.inj heq
      exact .apiKey hname.symm
    · intro hset
      cases hset with
      | apiKey hname => rw [hname]
  | bearer token =>
    obtain rfl := ofBearer_eq_ok h
    refine ⟨distinct_singleton _, fun name v => List.mem_singleton.trans ⟨?_, ?_⟩⟩
    · intro heq
      obtain ⟨hname, rfl⟩ := Field.mk.inj heq
      exact .bearer (keptName_bearerHeader.trans hname.symm)
    · intro hset
      cases hset with
      | bearer hname => rw [← hname, keptName_bearerHeader]
  | custom pairs =>
    rw [Credentials.strategy, Strategy.ofPairs] at h
    split at h
    · cases h
    · next gs _ hgs =>
      cases h
      obtain ⟨hdistinct, hmem⟩ := gather_eq_ok distinct_nil hgs
      refine ⟨hdistinct, fun name v => (hmem name v).trans ⟨?_, ?_⟩⟩
      · rintro (⟨w, hw, rfl⟩ | ⟨hv, _⟩)
        · exact .custom hw
        · cases hv
      · intro hset
        cases hset with
        | custom hw => exact .inl ⟨_, hw, rfl⟩
    · cases h

/-! ## Headers -/

theorem valuesOf_setAll_of_notMem (hname : name ∉ fs.map (·.name)) :
    (h.setAll fs).valuesOf name = h.valuesOf name := by
  induction fs generalizing h with
  | nil => rfl
  | cons f fs ih =>
    obtain ⟨hne, hrest⟩ := not_or.1 (List.mem_cons.not.1 hname)
    exact (ih hrest).trans (Headers.valuesOf_set_of_ne h (Ne.symm hne))

theorem valuesOf_setAll_of_mem (hfs : Distinct fs) (hf : f ∈ fs) :
    (h.setAll fs).valuesOf f.name = [f.value] := by
  induction fs generalizing h with
  | nil => cases hf
  | cons g fs ih =>
    obtain ⟨hg, hfs⟩ := List.nodup_cons.1 hfs
    rcases List.mem_cons.1 hf with rfl | hf
    · exact (valuesOf_setAll_of_notMem hg).trans (Headers.valuesOf_set_self h f)
    · exact ih hfs hf

/-- Distinct fields take the places of all that had their names. -/
theorem setAll_eq (hfs : Distinct fs) :
    h.setAll fs = h.filter (fun g => g.name ∉ fs.map (·.name)) ++ fs := by
  induction fs generalizing h with
  | nil => simp [Headers.setAll]
  | cons f fs ih =>
    obtain ⟨hf, hfs⟩ := List.nodup_cons.1 hfs
    -- the later fields leave `f` alone, and its filter and theirs make one
    have hstays : [f].filter (fun g => g.name ∉ fs.map (·.name)) = [f] :=
      List.filter_cons_of_pos (by simpa using hf)
    have hgo : (h.filter (·.name != f.name)).filter (fun g => g.name ∉ fs.map (·.name)) =
        h.filter (fun g => g.name ∉ (f :: fs).map (·.name)) := by
      rw [List.filter_filter]
      refine List.filter_congr fun g _ => Bool.eq_iff_iff.2 ?_
      simp only [List.map_cons, List.mem_cons, not_or, Bool.and_eq_true, decide_eq_true_eq,
        bne_iff_ne]
      exact and_comm
    calc
      h.setAll (f :: fs) = (h.set f).setAll fs := rfl
      _ = (h.set f).filter (fun g => g.name ∉ fs.map (·.name)) ++ fs := ih hfs
      _ = h.filter (fun g => g.name ∉ (f :: fs).map (·.name)) ++ f :: fs := by
        rw [Headers.set, List.filter_append, hgo, hstays, List.append_assoc, List.singleton_append]

theorem setAll_setAll (hfs : Distinct fs) : (h.setAll fs).setAll fs = h.setAll fs := by
  have hnone : fs.filter (fun g => g.name ∉ fs.map (·.name)) = [] :=
    List.filter_eq_nil_iff.2 fun g hg => by simpa using ⟨g, hg, rfl⟩
  rw [setAll_eq hfs, setAll_eq hfs, List.filter_append, hnone, List.filter_filter]
  simp

/-! ## One application -/

theorem valuesOf_apply_of_sets (h : Headers) (hs : c.strategy = .ok s) (hv : c.Sets name v) :
    (s.apply h).valuesOf (keptName name) = [v] := by
  obtain ⟨hdistinct, hmem⟩ := fields_of_strategy hs
  exact valuesOf_setAll_of_mem hdistinct ((hmem name v).2 hv)

theorem valuesOf_apply_of_not_sets (h : Headers) (hs : c.strategy = .ok s)
    (hv : ∀ v, ¬ c.Sets name v) : (s.apply h).valuesOf (keptName name) =
      h.valuesOf (keptName name) := by
  refine valuesOf_setAll_of_notMem fun hname => ?_
  obtain ⟨⟨n, v⟩, hf, hn⟩ := List.mem_map.1 hname
  obtain rfl : n = keptName name := hn
  exact hv v (((fields_of_strategy hs).2 name v).1 hf)

theorem apply_apply (h : Headers) (hs : c.strategy = .ok s) :
    s.apply (s.apply h) = s.apply h :=
  setAll_setAll (fields_of_strategy hs).1

end

/-! ## Sequences -/

/-- A strategy with what it was made from. -/
structure Made where
  credentials : Credentials
  strategy : Strategy
  made : credentials.strategy = .ok strategy

/-- What is done with credentials and strategies. -/
inductive Action where
  | make (c : Credentials)
  /-- The strategy that was made as number `i` is applied. -/
  | apply (i : Nat)
  deriving DecidableEq, Repr

/-- Headers, the strategies that were made, and those that were applied, the latest first. -/
structure Desk where
  headers : Headers
  made : List Made := []
  applied : List Made := []

namespace Desk

def step (d : Desk) : Action → Desk
  | .make c =>
    match h : c.strategy with
    | .ok s => { d with made := d.made ++ [⟨c, s, h⟩] }
    | .error _ => d
  | .apply i =>
    match d.made[i]? with
    | some m =>
      { d with headers := m.strategy.apply d.headers, applied := m :: d.applied }
    | none => d

def run (d : Desk) (acts : List Action) : Desk := acts.foldl step d

end Desk

/-- The value from the latest of the strategies that sets the name. -/
inductive Latest (name : String) : List Made → HeaderValue → Prop where
  | now {m : Made} {ms : List Made} {v : HeaderValue} (h : m.credentials.Sets name v) :
    Latest name (m :: ms) v
  | earlier {m : Made} {ms : List Made} {v : HeaderValue}
    (hnot : ∀ w, ¬ m.credentials.Sets name w) (h : Latest name ms v) : Latest name (m :: ms) v

/-- Every name has the value from the latest strategy that set it, or what it had at first. -/
structure Desk.Carries (initial : Headers) (d : Desk) : Prop where
  latest : ∀ name v, Latest name d.applied v → d.headers.valuesOf (keptName name) = [v]
  unset : ∀ name, (∀ m ∈ d.applied, ∀ v, ¬ m.credentials.Sets name v) →
    d.headers.valuesOf (keptName name) = initial.valuesOf (keptName name)

section
variable {initial : Headers} {d : Desk}

theorem Desk.step_make_of_error {c : Credentials} {e : ChatError} (h : c.strategy = .error e) :
    d.step (.make c) = d := by
  rw [Desk.step]
  split
  · next hs =>
    rw [h] at hs
    cases hs
  · rfl

theorem Desk.Carries.step (h : d.Carries initial) (a : Action) : (d.step a).Carries initial := by
  cases a with
  | make c =>
    rw [Desk.step]
    split
    · exact ⟨h.latest, h.unset⟩
    · exact h
  | apply i =>
    rw [Desk.step]
    split
    · next m hm =>
      constructor
      · intro name v hlatest
        cases hlatest with
        | now hset => exact valuesOf_apply_of_sets _ m.made hset
        | earlier hnot hlatest =>
          exact (valuesOf_apply_of_not_sets _ m.made hnot).trans (h.latest name v hlatest)
      · intro name hunset
        obtain ⟨hm, hrest⟩ := List.forall_mem_cons.1 hunset
        exact (valuesOf_apply_of_not_sets _ m.made hm).trans (h.unset name hrest)
    · exact h

theorem Desk.Carries.run (h : d.Carries initial) (acts : List Action) :
    (d.run acts).Carries initial := by
  induction acts generalizing d with
  | nil => exact h
  | cons a acts ih => exact ih (h.step a)

theorem Desk.step_apply_twice (d : Desk) (i : Nat) :
    ((d.step (.apply i)).step (.apply i)).headers = (d.step (.apply i)).headers := by
  cases hm : d.made[i]? with
  | none => simp only [Desk.step, hm]
  | some m =>
    simp only [Desk.step, hm]
    exact apply_apply d.headers m.made

/-- Whatever headers there are at first and whatever is made and applied then: a name that some
applied strategy sets has one value, from the latest of these, and any other name has the values it
had. Credentials of which no strategy can be made change nothing, and applying a strategy twice in a
row is applying it once. -/
theorem headers_carry_latest (initial : Headers) (acts : List Action) :
    (Desk.run ⟨initial, [], []⟩ acts).Carries initial ∧
      (∀ c e, c.strategy = .error e →
        (Desk.run ⟨initial, [], []⟩ (acts ++ [.make c])) = Desk.run ⟨initial, [], []⟩ acts) ∧
      ∀ i, (Desk.run ⟨initial, [], []⟩ (acts ++ [.apply i, .apply i])).headers =
        (Desk.run ⟨initial, [], []⟩ (acts ++ [.apply i])).headers := by
  have hstart : Desk.Carries initial ⟨initial, [], []⟩ := by
    refine ⟨fun name v h => ?_, fun name _ => rfl⟩
    cases h
  refine ⟨hstart.run acts, fun c e h => ?_, fun i => ?_⟩
  · rw [Desk.run, List.foldl_append]
    exact Desk.step_make_of_error h
  · rw [Desk.run, Desk.run, List.foldl_append, List.foldl_append]
    exact Desk.step_apply_twice _ i

end

end Switchboard.Auth
