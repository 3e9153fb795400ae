import Mathlib.Data.List.DropRight
import Switchboard.Chat.Routing

/-!
# Routed requests

What is sent for a request (`Routed`): the provider is one of those registered, under its own id,
the model is what follows the first slash, both ids are there and not blank, and the messages of the
instruction layers stand in front of the others, once. Merging them in again changes nothing,
because trimmed layers are left as they are by trimming.
-/

namespace Switchboard.Text

theorem trimEnd_prefix (cs : List Char) : trimEnd cs <+: cs := List.rdropWhile_prefix isBlank cs

theorem trimChars_trimChars (cs : List Char) : trimChars (trimChars cs) = trimChars cs := by
  have hstart : trimStart (trimChars cs) = trimChars cs := by
    refine trimStart_eq_self fun c hc => ?_
    obtain ⟨rest, hrest⟩ := trimEnd_prefix (trimStart cs)
    obtain ⟨tail, htail⟩ := List.head?_eq_some_iff.1 hc
    have hhead : (trimStart cs).head? = some c := by
      rw [← hrest, show trimEnd (trimStart cs) = c :: tail from htail]
      rfl
    exact trimStart_head hhead
  rw [trimChars, hstart]
  exact trimEnd_trimEnd _

theorem all_trimStart (cs : List Char) : (trimStart cs).all isBlank = cs.all isBlank := by
  induction cs with
  | nil => rfl
  | cons c rest ih =>
    cases h : isBlank c with
    | false => simp [trimStart, h]
    | true => simpa [trimStart, h] using ih

theorem all_trimChars (cs : List Char) : (trimChars cs).all isBlank = cs.all isBlank := by
  have hend : ∀ cs, (trimEnd cs).all isBlank = cs.all isBlank := fun cs => by
    rw [trimEnd, List.all_reverse, ← List.all_reverse (l := cs)]
    exact all_trimStart cs.reverse
  rw [trimChars, hend, all_trimStart]

theorem trim_trim (s : String) : trim (trim s) = trim s := by
  simp [trim, trimChars_trimChars]

theorem allBlank_trim (s : String) : allBlank (trim s) = allBlank s := by
  simp [trim, allBlank, all_trimChars]

end Switchboard.Text

namespace Switchboard.Chat

/-! ## Merging -/

theorem Layers.clean_clean (text : Option String) : clean (clean text) = clean text := by
  cases text with
  | none => rfl
  | some s =>
    cases h : Text.allBlank s <;> simp [clean, h, Text.allBlank_trim, Text.trim_trim]

theorem Layers.normalize_normalize (l : Layers) : l.normalize.normalize = l.normalize := by
  simp [normalize, clean_clean]

namespace Request

/-- The messages that a request's layers stand for. -/
def added (q : Request) : List Message := (q.instructions.map fun l => l.normalize.messages).getD []

/-- The messages of `r` are those that the layers of `q` stand for and then those of `q`, or just
those of `q` if they began with the others already. -/
def MergedOnce (q r : Request) : Prop :=
  if q.added <+: q.messages then r.messages = q.messages else r.messages = q.added ++ q.messages

theorem added_normalize (q : Request) : q.normalize.added = q.added := by
  unfold normalize
  split
  · rfl
  · next layers h => simp [added, h, Layers.normalize_normalize]

theorem mergedOnce_normalize (q : Request) : q.MergedOnce q.normalize := by
  unfold MergedOnce normalize added
  split <;> split <;> simp_all

theorem added_prefix_normalize (q : Request) : q.added <+: q.normalize.messages := by
  have h := q.mergedOnce_normalize
  unfold MergedOnce at h
  split at h
  · next hp => rwa [h]
  · rw [h]
    exact List.prefix_append ..

/-- Layers that are trimmed and already merged in are left as they are. -/
theorem normalize_eq_self {q : Request}
    (hl : ∀ l, q.instructions = some l → l.normalize = l) (h : q.added <+: q.messages) :
    q.normalize = q := by
  unfold normalize
  split
  · rfl
  · next layers hlayers =>
    simp only [added, hlayers, Option.map_some, Option.getD_some] at h
    simp [hl layers hlayers, ← hlayers, List.isPrefixOf_iff_prefix.2 (hl layers hlayers ▸ h)]

theorem normalize_normalize (q : Request) : q.normalize.normalize = q.normalize := by
  apply normalize_eq_self
  · intro l hl
    unfold normalize at hl
    split at hl
    · next h => rw [h] at hl; cases hl
    · cases hl
      exact Layers.normalize_normalize _
  · rw [added_normalize]
    exact q.added_prefix_normalize

end Request

/-! ## Routes -/

/-- A model name that was split has one slash more than its parts, and none before it. -/
theorem splitModel_eq_ok {name p m : String} (h : splitModel name = .ok (p, m)) :
    name = p ++ "/" ++ m ∧ '/' ∉ p.toList := by
  have happend := List.takeWhile_append_dropWhile (p := (· != '/')) (l := name.toList)
  have hno : ∀ c ∈ name.toList.takeWhile (· != '/'), c ≠ '/' := fun c hc => by
    simpa using List.mem_takeWhile_imp hc
  have hslash : ∀ c rest, name.toList.dropWhile (· != '/') = c :: rest → c = '/' := by
    intro c rest hc
    have := List.head?_dropWhile_not (· != '/') name.toList
    simpa [hc] using this
  simp only [splitModel] at h
  split at h
  · next p' ps s m' ms htake hdrop =>
    cases h
    rw [htake, hdrop, hslash s _ hdrop] at happend
    refine ⟨?_, ?_⟩
    · apply String.toList_inj.1
      rw [← happend]
      simp
    · intro hmem
      rw [htake] at hno
      exact hno '/' (by simpa using hmem) rfl
  · cases h

/-- `r` is what is sent for `q` to the provider that is registered as `id`. -/
structure Routed {P : Type} (registry : Registry P) (q : Request) (id : String) (r : Request) :
    Prop where
  registered : ∃ p, (id, p) ∈ registry.entries
  /-- The provider is named before the first slash, in any letter case; the rest is the model. -/
  target : ∃ name, q.model = name ++ "/" ++ r.model ∧ '/' ∉ name.toList ∧
    Text.lower id = Text.lower name
  requestId : ∃ x, r.requestId = some x ∧ Text.allBlank x = false
  correlationId : ∃ x, r.correlationId = some x ∧ Text.allBlank x = false
  merged : q.MergedOnce r
  /-- Merging again changes nothing. -/
  settled : r.normalize = r

theorem keepOr_not_blank {fresh : String} (h : Text.allBlank fresh = false) (id : Option String) :
    Text.allBlank (Registry.keepOr fresh id) = false := by
  unfold Registry.keepOr
  split
  · split
    · exact h
    · next hb => simpa using hb
  · exact h

theorem routed_of_route {P : Type} {registry : Registry P} {fr fc id : String} {q r : Request}
    {p : P} (h : registry.route fr fc q = .ok ((id, p), r)) (hfr : Text.allBlank fr = false)
    (hfc : Text.allBlank fc = false) : Routed registry q id r := by
  unfold Registry.route at h
  split at h
  · cases h
  · next name model hsplit =>
    split at h
    · cases h
    · next entry hfind =>
      cases h
      obtain ⟨hname, hslash⟩ := splitModel_eq_ok hsplit
      refine ⟨⟨p, List.mem_of_find?_eq_some hfind⟩, ⟨name, ?_, hslash, ?_⟩,
        ⟨_, Request.normalize_requestId _, keepOr_not_blank hfr _⟩,
        ⟨_, Request.normalize_correlationId _, keepOr_not_blank hfc _⟩, ?_,
        Request.normalize_normalize _⟩
      · rw [Request.normalize_model]
        exact hname
      · simpa using List.find?_some hfind
      · exact Request.mergedOnce_normalize { q with
          model := model
          requestId := some (Registry.keepOr fr q.requestId)
          correlationId := some (Registry.keepOr fc q.correlationId) }

end Switchboard.Chat
