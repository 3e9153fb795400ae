import Switchboard.Proofs.Json.Record
import Switchboard.Proofs.Tools.Fields

/-!
# What a caller gets

The result of a tool call is handed over as it is, and of the result of a listing the tools that its
items describe (`Ask.Gets`). An item is a record: its parts are found by their names, or by their
places where it is a list. The description of a tool may be missing, and so may its schema.
-/

namespace Switchboard

namespace Json

/-- A part of a record: the member of that name, or what stands at its place in a list. -/
def part? (name : String) (place : Nat) : Json → Option Json
  | .arr items => items[place]?
  | v => v.get? name

section
variable {v w : Json} {name : String} {place : Nat}

theorem Sorted.get? (h : v.Sorted) (hw : v.get? name = some w) : w.Sorted := by
  cases v with
  | obj members =>
    obtain ⟨m, hm, rfl⟩ := Option.map_eq_some_iff.1 hw
    exact sortedMembers_iff.1 h.2 m (List.mem_of_find?_eq_some hm)
  | _ => cases hw

theorem Sorted.part? (h : v.Sorted) (hw : v.part? name place = some w) : w.Sorted := by
  cases v with
  | arr items => exact sortedItems_iff.1 h w (List.mem_of_getElem? hw)
  | obj members => exact h.get? hw
  | _ => cases hw

end

end Json

namespace Tools

open Json (Reader)

/-- What a tool is read from: an item of a listing. -/
structure Describes (item : Json) (tool : Tool) : Prop where
  name : item.part? "name" 0 = some (.str tool.name)
  description : (item.part? "description" 1).getD (.str "") = .str tool.description
  schema : (item.part? "inputSchema" 2).getD (.obj []) = tool.inputSchema

/-- The tools that a result lists: one for each item, in order, and none without the member. -/
def Lists (result : Json) (tools : List Tool) : Prop :=
  match result.get? "tools" with
  | none => tools = []
  | some listing => ∃ items, listing = .arr items ∧ List.Forall₂ Describes items tools

/-- What a call gets if `result` answers its request. -/
def Ask.Gets (result : Json) (reply : Reply) : Ask → Prop
  | .call tool _ => ∃ failed, reply = .result ⟨tool, result, failed⟩ ∧
      (failed = true ↔ result.get? "isError" = some (.bool true))
  | .list | .shutdown => ∃ tools, reply = .tools tools ∧ Lists result tools

section
variable {v : Json} {name : String} {place depth : Nat} {s : String} {item : Json} {tool : Tool}

/-- A field of the tree of a value is the tree of a part of the value. -/
theorem field?_toTree : field? name place v.toTree = (v.part? name place).map Json.toTree := by
  cases v with
  | arr items => simp [Json.toTree, field?, Json.part?, Json.toTreeItems_eq_map]
  | obj members =>
    simp [Json.toTree, field?, Json.part?, Json.get?, Json.toTreeMembers_eq_map, List.find?_map,
      Function.comp_def]
  | _ => rfl

/-- What a field holds is in key order, and so is `null`. -/
theorem sorted_of_content? (field : Option Tree) : ((content? field).getD .null).Sorted := by
  cases h : content? field with
  | none => trivial
  | some v =>
    unfold content? at h
    split at h
    · cases h
    · cases h
    · next t _ => exact Json.sorted_of_value? t h

theorem text_toTree (h : Reader.text depth v.toTree = some s) : v = .str s := by
  cases v with
  | str => cases h; rfl
  | _ => cases h

theorem value_toTree {w : Json} (h : Reader.value depth v.toTree = some w) (hv : v.Sorted) :
    v = w := by
  unfold Reader.value at h
  split at h
  · rw [Json.value?_toTree v hv] at h
    exact Option.some.inj h
  · cases h

theorem describes_of_read (hs : item.Sorted) (h : Tool.reader depth item.toTree = some tool) :
    Describes item tool := by
  obtain ⟨fields, hf, hread⟩ := Option.bind_eq_some_iff.1 h
  split at hread
  · next x y z =>
    obtain ⟨rfl, rfl, rfl⟩ := fields_eq hf
    obtain ⟨name, hname, hread⟩ := Option.bind_eq_some_iff.1 hread
    obtain ⟨description, hdescription, hread⟩ := Option.bind_eq_some_iff.1 hread
    obtain ⟨schema, hschema, hread⟩ := Option.bind_eq_some_iff.1 hread
    cases hread
    rw [field?_toTree] at hname hdescription hschema
    refine ⟨?_, ?_, ?_⟩
    · cases hp : item.part? "name" 0 with
      | none => rw [hp] at hname; cases hname
      | some v =>
        rw [hp] at hname
        rw [text_toTree hname]
    · cases hp : item.part? "description" 1 with
      | none => rw [hp] at hdescription; cases hdescription; rfl
      | some v =>
        rw [hp] at hdescription
        exact text_toTree hdescription
    · cases hp : item.part? "inputSchema" 2 with
      | none => rw [hp] at hschema; cases hschema; rfl
      | some v =>
        rw [hp] at hschema
        exact value_toTree hschema (hs.part? hp)
  · cases hread

theorem describes_of_mapM {items : List Json} {tools : List Tool} (hs : ∀ item ∈ items, item.Sorted)
    (h : (items.map Json.toTree).mapM (Tool.reader depth) = some tools) :
    List.Forall₂ Describes items tools := by
  have hread := List.forall₂_map_left_iff.1 (Json.forall₂_of_mapM h)
  exact ((List.forall₂_and_left _ _).2 ⟨hs, hread⟩).imp fun _ _ hr => describes_of_read hr.1 hr.2

theorem lists_of_listOf? {result : Json} {tools : List Tool} (hs : result.Sorted)
    (h : Tool.listOf? result = some tools) : Lists result tools := by
  unfold Tool.listOf? at h
  unfold Lists
  cases hl : result.get? "tools" with
  | none =>
    rw [hl] at h
    exact (Option.some.inj h).symm
  | some listing =>
    rw [hl] at h
    cases listing with
    | arr items =>
      have hread : (items.map Json.toTree).mapM (Tool.reader 1) = some tools := by
        rw [← Json.toTreeItems_eq_map]
        exact h
      exact ⟨items, rfl, describes_of_mapM (Json.sortedItems_iff.1 (hs.get? hl)) hread⟩
    | _ => cases h

/-- What a call makes of its result is what it gets. -/
theorem gets_of_replyOf {ask : Ask} {result : Json} {reply : Reply} (hs : result.Sorted)
    (h : Session.replyOf ask result = .ok reply) : ask.Gets result reply := by
  unfold Session.replyOf at h
  cases ask with
  | call tool arguments =>
    cases h
    refine ⟨_, rfl, ?_⟩
    cases result.get? "isError" with
    | none => simp
    | some v => cases v <;> simp [Json.bool?]
  | list | shutdown =>
    cases hl : Tool.listOf? result with
    | none => rw [hl] at h; cases h
    | some tools =>
      rw [hl] at h
      cases h
      exact ⟨tools, rfl, lists_of_listOf? hs hl⟩

end

end Tools
end Switchboard
