import Switchboard.Json.Basic

/-!
# Members in the order of their keys

A member that is put at its place leaves the others in the order of their keys, and no key stands
there twice.
-/

namespace Switchboard.Json

section
variable {α : Type} {k : String} {v : α} {m : String × α} {ms : List (String × α)}

/-- The members stand in the order of their keys, none of them twice. -/
def InKeyOrder (ms : List (String × α)) : Prop := ms.Pairwise fun m l => m.1 < l.1

theorem mem_insertMember (h : m ∈ insertMember k v ms) : m = (k, v) ∨ m ∈ ms := by
  induction ms with
  | nil => exact .inl (List.mem_singleton.1 h)
  | cons l ms ih =>
    rw [insertMember] at h
    split at h
    · exact List.mem_cons.1 h
    · split at h
      · rcases List.mem_cons.1 h with rfl | h
        · exact .inr List.mem_cons_self
        · exact (ih h).imp_right (List.mem_cons_of_mem _)
      · exact (List.mem_cons.1 h).imp_right (List.mem_cons_of_mem _)

theorem InKeyOrder.insertMember (h : InKeyOrder ms) (k : String) (v : α) :
    InKeyOrder (Json.insertMember k v ms) := by
  induction ms with
  | nil => exact List.pairwise_singleton _ _
  | cons l ms ih =>
    obtain ⟨j, w⟩ := l
    obtain ⟨hfirst, hrest⟩ := List.pairwise_cons.1 h
    rw [Json.insertMember]
    split
    · next hkj =>
      refine List.pairwise_cons.2 ⟨fun m hm => ?_, h⟩
      rcases List.mem_cons.1 hm with rfl | hm
      · exact hkj
      · exact String.lt_trans hkj (hfirst m hm)
    · next hkj =>
      split
      · next hjk =>
        refine List.pairwise_cons.2 ⟨fun m hm => ?_, ih hrest⟩
        rcases mem_insertMember hm with rfl | hm
        · exact hjk
        · exact hfirst m hm
      · next hjk =>
        obtain rfl := String.le_antisymm (String.not_lt.1 hjk) (String.not_lt.1 hkj)
        exact List.pairwise_cons.2 ⟨hfirst, hrest⟩

theorem InKeyOrder.nodup (h : InKeyOrder ms) : (ms.map Prod.fst).Nodup := by
  refine List.pairwise_map.2 (h.imp fun hlt heq => ?_)
  rw [heq] at hlt
  exact String.lt_irrefl _ hlt

theorem inKeyOrder_foldl (members : List (String × α)) :
    ∀ {acc : List (String × α)}, InKeyOrder acc →
      InKeyOrder (members.foldl (fun acc m => insertMember m.1 m.2 acc) acc) := by
  induction members with
  | nil => exact id
  | cons m members ih => exact fun h => ih (h.insertMember m.1 m.2)

theorem mem_foldl_insertMember {members : List (String × α)} :
    ∀ {acc : List (String × α)}, m ∈ members.foldl (fun acc m => insertMember m.1 m.2 acc) acc →
      m ∈ acc ∨ m ∈ members := by
  induction members with
  | nil => exact .inl
  | cons l members ih =>
    intro acc h
    rcases ih h with h | h
    · rcases mem_insertMember h with rfl | h
      · exact .inr List.mem_cons_self
      · exact .inl h
    · exact .inr (List.mem_cons_of_mem _ h)

end

theorem sortMembers_inKeyOrder (members : List (String × Json)) :
    InKeyOrder (sortMembers members) := inKeyOrder_foldl members List.Pairwise.nil

theorem mem_sortMembers {members : List (String × Json)} {m : String × Json}
    (h : m ∈ sortMembers members) : m ∈ members :=
  (mem_foldl_insertMember h).resolve_left List.not_mem_nil

end Switchboard.Json
