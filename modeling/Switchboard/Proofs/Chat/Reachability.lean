import Switchboard.Client.Basic
import Switchboard.Proofs.Chat.Providers

/-!
# Which providers can be reached

Any id can be registered, but a request names its provider before a slash and not with an empty
name. Lower case neither makes nor loses a slash (`slash_mem_lower_iff`) nor empties a text
(`lower_eq_empty_iff`), so a provider whose id is empty or has a slash is never found, and all
others are found under their own id (`reached_under_own_id`).
-/

namespace Switchboard.Text

/-- Beyond ASCII, no letter has a lower case that is as low as a slash. -/
theorem slash_lt_lowerRuns :
    CaseTable.lowerRuns.all (fun (lo, _, _, d) => decide (47 < (lo : Int) + d)) = true := by
  decide +kernel

theorem slash_lt_lowerCode {n m : Nat} (h : lowerCode n = some m) : 47 < m := by
  obtain ⟨⟨lo, hi, step, d⟩, hfind, rfl⟩ := Option.map_eq_some_iff.1 h
  have hrun := Array.all_eq_true_iff_forall_mem.1 slash_lt_lowerRuns _
    (Array.mem_of_find?_eq_some hfind)
  have hlo := Array.find?_some hfind
  simp only [decide_eq_true_eq, Bool.and_eq_true, beq_iff_eq] at hrun hlo
  change 47 < ((n : Int) + d).toNat
  omega

theorem ofNat_ne_slash {n : Nat} (h : 47 < n) : '/' ≠ Char.ofNat n := by
  intro he
  have hcode : 47 = (Char.ofNat n).toNat := congrArg Char.toNat he
  by_cases hvalid : n.isValidChar
  · rw [Char.ofNat, dif_pos hvalid] at hcode
    exact absurd hcode (Nat.ne_of_lt h)
  · rw [Char.ofNat, dif_neg hvalid] at hcode
    exact absurd hcode (by decide)

theorem slash_eq_toLower_iff {c : Char} (h : c.toNat < 0x80) : '/' = c.toLower ↔ c = '/' := by
  have hall : ∀ n < 0x80, '/' = (Char.ofNat n).toLower ↔ Char.ofNat n = '/' := by decide
  have hc := hall c.toNat h
  rwa [Char.ofNat_toNat] at hc

theorem slash_mem_lowerChar_iff {c : Char} : '/' ∈ lowerChar c ↔ c = '/' := by
  have hslash : ¬ c.toNat < 0x80 → c ≠ '/' := by
    rintro hc rfl
    exact hc (by decide)
  unfold lowerChar
  split
  · next hc => rw [List.mem_singleton, slash_eq_toLower_iff hc]
  · next hc =>
    simp only [hslash hc, iff_false]
    split
    · decide
    · split
      · next hcode => simpa using ofNat_ne_slash (slash_lt_lowerCode hcode)
      · simpa using (hslash hc).symm

theorem lowerChar_ne_nil (c : Char) : lowerChar c ≠ [] := by
  unfold lowerChar
  split
  · simp
  · split
    · simp
    · split <;> simp

theorem slash_mem_lowerAfter_iff {before cs : List Char} :
    '/' ∈ lowerAfter before cs ↔ '/' ∈ cs := by
  induction cs generalizing before with
  | nil => simp [lowerAfter]
  | cons c cs ih =>
    rw [lowerAfter, List.mem_append, ih, List.mem_cons]
    refine or_congr ?_ Iff.rfl
    split
    · next h => subst h; split <;> decide
    · rw [slash_mem_lowerChar_iff, eq_comm]

theorem slash_mem_lower_iff {s : String} : '/' ∈ (lower s).toList ↔ '/' ∈ s.toList := by
  rw [lower, String.toList_ofList, slash_mem_lowerAfter_iff]

theorem lower_eq_empty_iff {s : String} : lower s = "" ↔ s = "" := by
  rw [lower, String.ofList_eq_empty_iff, ← String.toList_eq_nil_iff]
  cases s.toList with
  | nil => simp [lowerAfter]
  | cons c cs =>
    have hne : lowerAfter [] (c :: cs) ≠ [] := by
      rw [lowerAfter]
      split
      · split <;> simp
      · simp [lowerChar_ne_nil]
    simp [hne]

end Switchboard.Text

namespace Switchboard.Chat

/-- The id can stand before a slash: it is not empty and has none itself. -/
def Nameable (id : String) : Prop := id ≠ "" ∧ '/' ∉ id.toList

section
variable {P : Type} {r : Registry P} {providers : List (String × P)} {entry : String × P}
  {fr fc id name model : String} {q : Request}

theorem Nameable.splits (h : Nameable id) (hm : model ≠ "") :
    Splits (id ++ "/" ++ model) id model := ⟨rfl, h.2, h.1, hm⟩

/-- Only such an id can be equal in lower case to what stands before the first slash of a name. -/
theorem Splits.nameable (h : Splits q.model name model) (hid : Text.lower id = Text.lower name) :
    Nameable id := by
  constructor
  · rintro rfl
    exact h.provider_ne (Text.lower_eq_empty_iff.1 (hid ▸ Text.lower_eq_empty_iff.2 rfl))
  · intro hslash
    exact h.first (Text.slash_mem_lower_iff.1 (hid ▸ Text.slash_mem_lower_iff.2 hslash))

theorem Registry.route_own_id (h : ofList providers = .ok r) (hmem : entry ∈ providers)
    (hid : Nameable entry.1) (hm : model ≠ "") (hq : q.model = entry.1 ++ "/" ++ model) :
    r.route fr fc q = .ok (entry, q.sent model fr fc) := by
  obtain ⟨-, hnodup, rfl⟩ := ofList_eq_ok_iff.1 h
  have hsplit : Splits q.model entry.1 model := hq ▸ hid.splits hm
  exact (route_eq_ok_iff hnodup).2 ⟨entry.1, model, hsplit, hmem, rfl, rfl⟩

theorem Registry.nameable_of_route {s : Request} (h : ofList providers = .ok r)
    (hroute : r.route fr fc q = .ok (entry, s)) : Nameable entry.1 := by
  obtain ⟨-, hnodup, rfl⟩ := ofList_eq_ok_iff.1 h
  obtain ⟨name, model, hsplit, -, hkey, -⟩ := (route_eq_ok_iff hnodup).1 hroute
  exact hsplit.nameable hkey

end

/-- The providers of a client are registered like any others. -/
theorem ofList_of_registryOf {ids : List String} {r : Registry Unit}
    (h : Client.registryOf ids = .ok r) : Registry.ofList (ids.map (·, ())) = .ok r := by
  unfold Client.registryOf at h
  split at h
  · cases h
  · exact h

/-- A provider is reached under its own id, with any model, if the id is not empty and has no slash;
a provider with another id is registered, but no request ever reaches it. The same holds of the
registry of a client. -/
theorem reached_under_own_id :
    (∀ (P : Type) (providers : List (String × P)) (r : Registry P),
      Registry.ofList providers = .ok r → ∀ entry ∈ providers, ∀ fr fc q,
        (Nameable entry.1 → ∀ m, m ≠ "" → q.model = entry.1 ++ "/" ++ m →
          ∃ s, r.route fr fc q = .ok (entry, s) ∧ s.model = m) ∧
        (¬ Nameable entry.1 → ∀ s, r.route fr fc q ≠ .ok (entry, s))) ∧
    ∀ ids r, Client.registryOf ids = .ok r → Registry.ofList (ids.map (·, ())) = .ok r := by
  refine ⟨fun P providers r h entry hmem fr fc q => ⟨fun hid m hm hq => ?_, fun hid s hroute => ?_⟩,
    fun ids r h => ofList_of_registryOf h⟩
  · exact ⟨_, Registry.route_own_id h hmem hid hm hq, Request.normalize_model _⟩
  · exact hid (Registry.nameable_of_route h hroute)

/-- Two ids of which one is the beginning of the other, and an empty one. -/
def nested : List (String × Nat) := [("a", 1), ("a/b", 2), ("", 3)]

theorem ofList_nested : Registry.ofList nested = .ok ⟨nested⟩ :=
  Registry.ofList_eq_ok_iff.2 ⟨List.cons_ne_nil _ _, by decide +kernel, rfl⟩

theorem nested_reached : ("a", 1) ∈ nested ∧ ("a/b", 2) ∈ nested ∧
    (∃ s, Registry.route ⟨nested⟩ "f" "g" ⟨"a/b/m", [], none, none, none⟩ = .ok (("a", 1), s) ∧
      s.model = "b/m") ∧
    ∀ fr fc q s, Registry.route ⟨nested⟩ fr fc q ≠ .ok (("a/b", 2), s) := by
  obtain ⟨hreach, -⟩ := reached_under_own_id
  have hfirst : ("a", 1) ∈ nested := List.mem_cons_self
  have hsecond : ("a/b", 2) ∈ nested := List.mem_cons_of_mem _ List.mem_cons_self
  have hnameable : Nameable "a" := ⟨by decide, by decide⟩
  have hnot : ¬ Nameable "a/b" := fun h => h.2 (by decide)
  refine ⟨hfirst, hsecond, ?_, fun fr fc q => ?_⟩
  · exact (hreach _ _ _ ofList_nested _ hfirst _ _ _).1 hnameable "b/m" (by decide)
      (by decide +kernel)
  · exact (hreach _ _ _ ofList_nested _ hsecond fr fc q).2 hnot

/-- Not every provider that is registered is reached under its own id: `a/b/m` goes to `a`. -/
theorem nested_diverted :
    ¬ ∀ (P : Type) (providers : List (String × P)) (r : Registry P),
      Registry.ofList providers = .ok r → ∀ entry ∈ providers, ∀ fr fc q m, m ≠ "" →
        q.model = entry.1 ++ "/" ++ m → ∃ s, r.route fr fc q = .ok (entry, s) ∧ s.model = m := by
  intro h
  have hsecond : ("a/b", 2) ∈ nested := List.mem_cons_of_mem _ List.mem_cons_self
  have hroute : Registry.route ⟨nested⟩ "f" "g" ⟨"a/b/m", [], none, none, none⟩ =
      .ok (("a", 1), ⟨"b/m", [], none, some "f", some "g"⟩) := by decide +kernel
  obtain ⟨s, hs, -⟩ := h _ _ _ ofList_nested _ hsecond "f" "g" ⟨"a/b/m", [], none, none, none⟩ "m"
    (by decide) (by decide +kernel)
  rw [hroute] at hs
  simp at hs

end Switchboard.Chat
