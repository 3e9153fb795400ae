import Switchboard.Proofs.Json.Order
import Switchboard.Toml.Document
import Mathlib.Data.List.Nodup

/-!
# Keys of a document

Whatever headers and dotted keys a document has, the tree that it is read as names no member of a
table twice: the members of every table stand in the order of their keys.
-/

namespace Switchboard

/-- No object in the tree has a key twice. -/
inductive Tree.KeysOnce : Tree → Prop where
  | null : KeysOnce .null
  | bool (b : Bool) : KeysOnce (.bool b)
  | num (value : Option Number) : KeysOnce (.num value)
  | str (value : Option String) : KeysOnce (.str value)
  | arr {items : List Tree} (h : ∀ t ∈ items, t.KeysOnce) : KeysOnce (.arr items)
  | obj {members : List (Option String × Tree)} (hkeys : (members.map Prod.fst).Nodup)
    (h : ∀ m ∈ members, m.2.KeysOnce) : KeysOnce (.obj members)

namespace Toml

open Json (InKeyOrder mem_insertMember)

theorem memberTrees_inKeyOrder : ∀ ms : Members, InKeyOrder (memberTrees ms)
  | [] => List.Pairwise.nil
  | (k, v) :: ms => (memberTrees_inKeyOrder ms).insertMember k v.toTree

theorem objectOf_keysOnce {ms : List (String × Tree)} (horder : InKeyOrder ms)
    (h : ∀ m ∈ ms, m.2.KeysOnce) : (objectOf ms).KeysOnce := by
  refine .obj ?_ fun m hm => ?_
  · have hkeys : (ms.map fun m => (some m.1, m.2)).map Prod.fst = (ms.map Prod.fst).map some := by
      rw [List.map_map, List.map_map]
      rfl
    rw [hkeys]
    exact horder.nodup.map fun _ _ heq => Option.some.inj heq
  · obtain ⟨l, hl, rfl⟩ := List.mem_map.1 hm
    exact h l hl

mutual

theorem Node.toTree_keysOnce : ∀ v : Node, v.toTree.KeysOnce
  | .text _ => .str _
  | .integer _ => .num _
  | .flag _ => .bool _
  | .array items => .arr (treesOf_keysOnce items)
  | .table _ members =>
    objectOf_keysOnce (memberTrees_inKeyOrder members) (memberTrees_keysOnce members)
  | .elements earlier last => by
    refine .arr fun t ht => ?_
    rcases List.mem_append.1 ht with ht | ht
    · exact elementTrees_keysOnce earlier t ht
    · obtain rfl := List.mem_singleton.1 ht
      exact objectOf_keysOnce (memberTrees_inKeyOrder last) (memberTrees_keysOnce last)

theorem treesOf_keysOnce : ∀ (items : List Node), ∀ t ∈ treesOf items, t.KeysOnce
  | [], _, h => nomatch h
  | v :: items, t, h => by
    rcases List.mem_cons.1 h with rfl | h
    · exact v.toTree_keysOnce
    · exact treesOf_keysOnce items t h

theorem elementTrees_keysOnce : ∀ (es : List (List (String × Node))), ∀ t ∈ elementTrees es,
    t.KeysOnce
  | [], _, h => nomatch h
  | ms :: es, t, h => by
    rcases List.mem_cons.1 h with rfl | h
    · exact objectOf_keysOnce (memberTrees_inKeyOrder ms) (memberTrees_keysOnce ms)
    · exact elementTrees_keysOnce es t h

theorem memberTrees_keysOnce : ∀ (ms : List (String × Node)), ∀ m ∈ memberTrees ms, m.2.KeysOnce
  | [], _, h => nomatch h
  | (k, v) :: ms, m, h => by
    rcases mem_insertMember h with rfl | h
    · exact v.toTree_keysOnce
    · exact memberTrees_keysOnce ms m h

end

end Toml
end Switchboard
