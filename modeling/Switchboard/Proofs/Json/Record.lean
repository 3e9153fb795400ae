import Mathlib.Data.List.Forall2
import Switchboard.Chat.Codec
import Switchboard.Proofs.Json.Order
import Switchboard.Proofs.Json.Text

/-!
# Values and records that are read back

`Reads read v a` says that `v` has a text and that the reader finds `a` in the tree of `v`, wherever
there is room for the brackets of `v`; then `a` is read back from the text (`Reads.readsBack`). A
free-form value is read back if it is kept in key order (`reads_value`): what it holds does not
matter otherwise, for it is never looked at. The fields of a record are found by their names, the
absent ones as absent (`reads_record`).
-/

namespace Switchboard.Json

mutual

/-- Every object in the value lists its members in the order of their keys, one for each. -/
def Sorted : Json → Prop
  | .arr items => SortedItems items
  | .obj members => members.Pairwise (fun m l => m.1 < l.1) ∧ SortedMembers members
  | _ => True

def SortedItems : List Json → Prop
  | [] => True
  | v :: rest => v.Sorted ∧ SortedItems rest

def SortedMembers : List (String × Json) → Prop
  | [] => True
  | (_, v) :: rest => v.Sorted ∧ SortedMembers rest

end

/-! ## Free-form values -/

theorem insertMember_of_last {k : String} {v : Json} :
    ∀ {members : List (String × Json)}, (∀ m ∈ members, m.1 < k) →
      insertMember k v members = members ++ [(k, v)]
  | [], _ => rfl
  | (l, w) :: members, h => by
    obtain ⟨hl, hrest⟩ := List.forall_mem_cons.1 h
    rw [insertMember, if_neg (String.lt_asymm hl), if_pos hl, insertMember_of_last hrest,
      List.cons_append]

theorem foldl_insertMember {acc members : List (String × Json)}
    (h : (acc ++ members).Pairwise fun m l => m.1 < l.1) :
    members.foldl (fun acc m => insertMember m.1 m.2 acc) acc = acc ++ members := by
  induction members generalizing acc with
  | nil => rw [List.foldl_nil, List.append_nil]
  | cons m members ih =>
    have hlast : ∀ l ∈ acc, l.1 < m.1 := fun l hl =>
      (List.pairwise_append.1 h).2.2 l hl m List.mem_cons_self
    rw [List.foldl_cons, insertMember_of_last hlast, ih (by rwa [List.append_assoc]),
      List.append_assoc]
    rfl

theorem sortMembers_of_sorted {members : List (String × Json)}
    (h : members.Pairwise fun m l => m.1 < l.1) : sortMembers members = members :=
  @foldl_insertMember [] members h

mutual

theorem isSome_value? : ∀ v : Json, v.toTree.value?.isSome = true
  | .null | .bool _ | .int _ | .float _ | .str _ => rfl
  | .arr items => by
    rw [toTree, Tree.value?, Option.isSome_map]
    exact isSome_valueItems? items
  | .obj members => by
    rw [toTree, Tree.value?, Option.isSome_map]
    exact isSome_valueMembers? members

theorem isSome_valueItems? : ∀ items, (Tree.valueItems? (toTreeItems items)).isSome = true
  | [] => rfl
  | v :: items => by
    obtain ⟨w, hw⟩ := Option.isSome_iff_exists.1 (isSome_value? v)
    obtain ⟨ws, hws⟩ := Option.isSome_iff_exists.1 (isSome_valueItems? items)
    rw [toTreeItems, Tree.valueItems?, hw, hws]
    rfl

theorem isSome_valueMembers? : ∀ members,
    (Tree.valueMembers? (toTreeMembers members)).isSome = true
  | [] => rfl
  | (k, v) :: members => by
    obtain ⟨w, hw⟩ := Option.isSome_iff_exists.1 (isSome_value? v)
    obtain ⟨ws, hws⟩ := Option.isSome_iff_exists.1 (isSome_valueMembers? members)
    rw [toTreeMembers, Tree.valueMembers?, hw, hws]
    rfl

end

mutual

/-- What a tree is the text of is its value. -/
theorem value?_toTree : ∀ v : Json, v.Sorted → v.toTree.value? = some v
  | .null, _ | .bool _, _ | .int _, _ | .float _, _ | .str _, _ => rfl
  | .arr items, h => by
    rw [toTree, Tree.value?, valueItems?_toTree items h]
    rfl
  | .obj members, h => by
    rw [toTree, Tree.value?, valueMembers?_toTree members h.2, Option.map_some, ofMembers,
      sortMembers_of_sorted h.1]

theorem valueItems?_toTree : ∀ items, SortedItems items →
    Tree.valueItems? (toTreeItems items) = some items
  | [], _ => rfl
  | v :: items, h => by
    rw [toTreeItems, Tree.valueItems?, value?_toTree v h.1, valueItems?_toTree items h.2]

theorem valueMembers?_toTree : ∀ members, SortedMembers members →
    Tree.valueMembers? (toTreeMembers members) = some members
  | [], _ => rfl
  | (k, v) :: members, h => by
    rw [toTreeMembers, Tree.valueMembers?, value?_toTree v h.1, valueMembers?_toTree members h.2]

end

theorem sortedItems_iff {items : List Json} : SortedItems items ↔ ∀ v ∈ items, v.Sorted := by
  induction items with
  | nil => simp [SortedItems]
  | cons v items ih => simp [SortedItems, ih]

theorem sortedMembers_iff {members : List (String × Json)} :
    SortedMembers members ↔ ∀ m ∈ members, m.2.Sorted := by
  induction members with
  | nil => simp [SortedMembers]
  | cons m members ih => simp [SortedMembers, ih]

mutual

/-- What is read from a text is in key order. -/
theorem sorted_of_value? : ∀ (t : Tree) {v : Json}, t.value? = some v → v.Sorted
  | .null, _, h | .bool _, _, h | .num (some (.int _)), _, h | .num (some (.float _)), _, h => by
    cases h
    trivial
  | .num none, _, h => nomatch h
  | .str s, _, h => by
    obtain ⟨_, -, rfl⟩ := Option.map_eq_some_iff.1 h
    trivial
  | .arr items, _, h => by
    rw [Tree.value?] at h
    obtain ⟨vs, hvs, rfl⟩ := Option.map_eq_some_iff.1 h
    exact sortedItems_of_valueItems? items hvs
  | .obj members, _, h => by
    rw [Tree.value?] at h
    obtain ⟨ms, hms, rfl⟩ := Option.map_eq_some_iff.1 h
    have hsorted := sortedMembers_iff.1 (sortedMembers_of_valueMembers? members hms)
    exact ⟨sortMembers_inKeyOrder ms,
      sortedMembers_iff.2 fun m hm => hsorted m (mem_sortMembers hm)⟩

theorem sortedItems_of_valueItems? : ∀ (items : List Tree) {vs : List Json},
    Tree.valueItems? items = some vs → SortedItems vs
  | [], _, h => by
    cases h
    trivial
  | t :: items, _, h => by
    rw [Tree.valueItems?] at h
    split at h
    · next hv hvs =>
      cases h
      exact ⟨sorted_of_value? t hv, sortedItems_of_valueItems? items hvs⟩
    · cases h

theorem sortedMembers_of_valueMembers? : ∀ (members : List (Option String × Tree))
    {ms : List (String × Json)}, Tree.valueMembers? members = some ms → SortedMembers ms
  | [], _, h => by
    cases h
    trivial
  | (none, _) :: _, _, h => nomatch h
  | (some k, t) :: members, _, h => by
    rw [Tree.valueMembers?] at h
    split at h
    · next hv hms =>
      cases h
      exact ⟨sorted_of_value? t hv, sortedMembers_of_valueMembers? members hms⟩
    · cases h

end

/-! ## Readers -/

/-- The value has a text, and the reader finds `a` in the tree of the value, where there is room for
its nesting. -/
structure Reads {α : Type} (read : Reader α) (v : Json) (a : α) : Prop where
  integral : v.Integral
  found : ∀ depth, depth + v.toTree.depth ≤ Tree.maxDepth → read depth v.toTree = some a

/-- A value of a type is read back from its text, if that is not nested too deep. -/
def ReadsBack {α : Type} (write : α → Json) (read : Reader α) (a : α) : Prop :=
  (write a).toTree.depth ≤ Tree.maxDepth → read.ofText? (write a).compact = some a

/-- A free-form value that can be kept: its numbers are integers of 64 bits, and its objects list
their members by key. -/
structure Storable (v : Json) : Prop where
  integral : v.Integral
  sorted : v.Sorted

section
variable {α : Type} {read : Reader α} {write : α → Json} {v : Json} {a : α} {depth : Nat}

theorem Reads.readsBack (h : Reads read (write a) a) : ReadsBack write read a := by
  intro hd
  have hroom : 0 + (write a).toTree.depth ≤ Tree.maxDepth := by omega
  rw [Reader.ofText?, Tree.parse?_compact h.integral]
  exact h.found 0 hroom

theorem reads_text (s : String) : Reads Reader.text (.str s) s := ⟨trivial, fun _ _ => rfl⟩

theorem reads_below {n bound : Nat} (h : n < bound) (hb : bound ≤ Nat.pow 2 64) :
    Reads (Reader.below bound) (.int n) n := by
  refine ⟨⟨by omega, by omega⟩, fun depth _ => ?_⟩
  rw [toTree, Reader.below, if_pos ⟨Int.natCast_nonneg n, by rwa [Int.toNat_natCast]⟩,
    Int.toNat_natCast]

theorem reads_value (h : v.Storable) : Reads Reader.value v v :=
  ⟨h.integral, fun depth hd => by rw [Reader.value, if_pos hd, value?_toTree v h.sorted]⟩

@[simp]
theorem toTree_str (s : String) : (Json.str s).toTree = .str (some s) := by rw [toTree]

@[simp]
theorem toTree_bool (b : Bool) : (Json.bool b).toTree = .bool b := by rw [toTree]

theorem toTreeItems_eq_map (items : List Json) : toTreeItems items = items.map toTree := by
  induction items with
  | nil => rfl
  | cons v items ih => rw [toTreeItems, ih, List.map_cons]

theorem toTreeMembers_eq_map (members : List (String × Json)) :
    toTreeMembers members = members.map fun m => (some m.1, m.2.toTree) := by
  induction members with
  | nil => rfl
  | cons m members ih => rw [toTreeMembers, ih, List.map_cons]

theorem depth_le_depthItems {t : Tree} : ∀ {items : List Tree}, t ∈ items →
    t.depth ≤ Tree.depthItems items
  | u :: items, h => by
    rw [Tree.depthItems]
    rcases List.mem_cons.1 h with rfl | h
    · exact Nat.le_max_left ..
    · exact Nat.le_trans (depth_le_depthItems h) (Nat.le_max_right ..)

theorem depth_le_depthMembers {k : Option String} {t : Tree} :
    ∀ {members : List (Option String × Tree)}, (k, t) ∈ members →
      t.depth ≤ Tree.depthMembers members
  | (l, u) :: members, h => by
    rw [Tree.depthMembers]
    rcases List.mem_cons.1 h with h | h
    · cases h
      exact Nat.le_max_left ..
    · exact Nat.le_trans (depth_le_depthMembers h) (Nat.le_max_right ..)

theorem mapM_map_eq {β γ δ : Type} {read : γ → Option δ} {write : β → γ} {g : β → δ} :
    ∀ {l : List β}, (∀ b ∈ l, read (write b) = some (g b)) →
      (l.map write).mapM read = some (l.map g)
  | [], _ => rfl
  | b :: l, h => by
    obtain ⟨hb, hl⟩ := List.forall_mem_cons.1 h
    rw [List.map_cons, List.mapM_cons, hb, mapM_map_eq hl]
    rfl

/-- What is read one after the other is related to what it is read from. -/
theorem forall₂_of_mapM {β γ : Type} {read : β → Option γ} : ∀ {l : List β} {cs : List γ},
    l.mapM read = some cs → List.Forall₂ (fun b c => read b = some c) l cs
  | [], _, h => by
    cases h
    exact .nil
  | b :: l, _, h => by
    rw [List.mapM_cons] at h
    obtain ⟨c, hc, h⟩ := Option.bind_eq_some_iff.1 h
    obtain ⟨cs, hcs, h⟩ := Option.bind_eq_some_iff.1 h
    cases h
    exact .cons hc (forall₂_of_mapM hcs)

theorem integralItems_map {l : List α} (h : ∀ a ∈ l, (write a).Integral) :
    IntegralItems (l.map write) := by
  induction l with
  | nil => trivial
  | cons a l ih => exact ⟨h a List.mem_cons_self, ih fun b hb => h b (List.mem_cons_of_mem _ hb)⟩

theorem reads_list {l : List α} (h : ∀ a ∈ l, Reads read (write a) a) :
    Reads (Reader.list read) (.arr (l.map write)) l := by
  refine ⟨integralItems_map fun a ha => (h a ha).integral, fun depth hd => ?_⟩
  rw [toTree, toTreeItems_eq_map, List.map_map, Tree.depth] at hd
  have hitem : ∀ a ∈ l, read (depth + 1) (write a).toTree = some (id a) := by
    intro a ha
    refine (h a ha).found _ ?_
    have := depth_le_depthItems (List.mem_map_of_mem (f := toTree ∘ write) ha)
    rw [Function.comp_apply] at this
    omega
  rw [toTree, toTreeItems_eq_map, List.map_map, Reader.list, if_pos (by omega)]
  exact (mapM_map_eq hitem).trans (congrArg some (List.map_id l))

/-! ## Records -/

open Chat (present)

/-- An object of fields, of which the absent ones are left out. -/
def record (fields : List (String × Option Json)) : Json :=
  .obj (fields.flatMap fun f => present f.1 f.2)

variable {fs : List (String × Option Json)} {f : String × Option Json}

/-- The trees of the fields that are there. -/
def memberTrees (fs : List (String × Option Json)) : List (Option String × Tree) :=
  fs.flatMap fun f => (f.2.map fun v => (some f.1, v.toTree)).toList

theorem toTree_record (fs : List (String × Option Json)) :
    (record fs).toTree = .obj (memberTrees fs) := by
  rw [record, toTree, toTreeMembers_eq_map, List.map_flatMap, memberTrees]
  congr 2
  funext f
  cases f.2 <;> rfl

theorem mem_memberTrees {m : Option String × Tree} :
    m ∈ memberTrees fs ↔ ∃ f ∈ fs, ∃ v, f.2 = some v ∧ m = (some f.1, v.toTree) := by
  simp only [memberTrees, List.mem_flatMap, Option.mem_toList, Option.map_eq_some_iff,
    eq_comm (b := m)]

theorem filter_memberTrees {name : String} (h : name ∉ fs.map (·.1)) :
    ((memberTrees fs).filter fun m => m.1 == some name) = [] := by
  refine List.filter_eq_nil_iff.2 fun m hm he => h ?_
  obtain ⟨f, hf, v, -, rfl⟩ := mem_memberTrees.1 hm
  rw [← Option.some.inj (beq_iff_eq.1 he)]
  exact List.mem_map_of_mem hf

theorem memberTrees_cons (f : String × Option Json) (fs : List (String × Option Json)) :
    memberTrees (f :: fs) =
      (f.2.map fun v => (some f.1, v.toTree)).toList ++ memberTrees fs := List.flatMap_cons

/-- A field is found under its name, and an absent one is found to be absent. -/
theorem member_memberTrees (hn : (fs.map (·.1)).Nodup) (hf : f ∈ fs) :
    Reader.member f.1 (memberTrees fs) = some (f.2.map toTree) := by
  have hfilter : ((memberTrees fs).filter fun m => m.1 == some f.1) =
      (f.2.map fun v => (some f.1, v.toTree)).toList := by
    induction fs with
    | nil => cases hf
    | cons g fs ih =>
      obtain ⟨hg, hn⟩ := List.nodup_cons.1 hn
      rw [memberTrees_cons, List.filter_append]
      rcases List.mem_cons.1 hf with rfl | hf
      · rw [filter_memberTrees hg]
        cases f.2 <;> simp
      · have hne : g.1 ≠ f.1 := fun he => hg (List.mem_map.2 ⟨f, hf, he.symm⟩)
        rw [ih hn hf]
        cases g.2 <;> simp [hne]
  rw [Reader.member, hfilter]
  cases f.2 <;> rfl

theorem fieldsOf_record (fs : List (String × Option Json)) (hn : (fs.map (·.1)).Nodup) :
    Reader.fieldsOf (fs.map (·.1)) (record fs).toTree = some (fs.map fun f => f.2.map toTree) := by
  have hkeys : ((memberTrees fs).all fun m => m.1.isSome) = true := by
    refine List.all_eq_true.2 fun m hm => ?_
    obtain ⟨f, -, v, -, rfl⟩ := mem_memberTrees.1 hm
    rfl
  rw [toTree_record, Reader.fieldsOf, if_pos hkeys]
  exact mapM_map_eq fun f hf => member_memberTrees hn hf

theorem integralMembers_append {members more : List (String × Json)} :
    IntegralMembers (members ++ more) ↔ IntegralMembers members ∧ IntegralMembers more := by
  induction members with
  | nil => exact ⟨fun h => ⟨trivial, h⟩, fun h => h.2⟩
  | cons m members ih => rw [List.cons_append, IntegralMembers, IntegralMembers, ih, and_assoc]

theorem integral_record (h : ∀ f ∈ fs, ∀ v, f.2 = some v → v.Integral) : (record fs).Integral := by
  rw [record, Integral]
  induction fs with
  | nil => trivial
  | cons f fs ih =>
    rw [List.flatMap_cons, integralMembers_append]
    refine ⟨?_, ih fun g hg => h g (List.mem_cons_of_mem _ hg)⟩
    obtain ⟨name, o⟩ := f
    cases o with
    | none => trivial
    | some v => exact ⟨h _ List.mem_cons_self v rfl, trivial⟩

/-- There is room for the brackets of every field. -/
theorem room_of_record (hd : depth + (record fs).toTree.depth ≤ Tree.maxDepth) :
    ∀ f ∈ fs, ∀ v, f.2 = some v → depth + 1 + v.toTree.depth ≤ Tree.maxDepth := by
  intro f hf v hv
  rw [toTree_record, Tree.depth] at hd
  have := depth_le_depthMembers (mem_memberTrees.2 ⟨f, hf, v, hv, rfl⟩)
  omega

/-- A record is read back if that is so once its fields are found. -/
theorem reads_record (fs : List (String × Option Json)) (hn : (fs.map (·.1)).Nodup)
    (hi : ∀ f ∈ fs, ∀ v, f.2 = some v → v.Integral)
    (h : ∀ depth, (∀ f ∈ fs, ∀ v, f.2 = some v → depth + 1 + v.toTree.depth ≤ Tree.maxDepth) →
      Reader.fields (fs.map (·.1)) depth (record fs).toTree =
        some (fs.map fun f => f.2.map toTree) →
      read depth (record fs).toTree = some a) :
    Reads read (record fs) a := by
  refine ⟨integral_record hi, fun depth hd => h depth (room_of_record hd) ?_⟩
  have hlt : depth < Tree.maxDepth := by
    rw [toTree_record, Tree.depth] at hd
    omega
  rw [Reader.fields, if_pos hlt, fieldsOf_record fs hn]

/-- What is left of a tagged value without the tag are its other fields. -/
theorem filter_tagged {tag : String} (fs : List (String × Option Json)) (hn : tag ∉ fs.map (·.1))
    (v : Json) :
    ((memberTrees ((tag, some v) :: fs)).filter fun m => m.1 != some tag) = memberTrees fs := by
  have hrest : ((memberTrees fs).filter fun m => m.1 != some tag) = memberTrees fs := by
    refine List.filter_eq_self.2 fun m hm => ?_
    obtain ⟨f, hf, w, -, rfl⟩ := mem_memberTrees.1 hm
    have hne : f.1 ≠ tag := fun he => hn (he ▸ List.mem_map_of_mem hf)
    simpa using hne
  rw [memberTrees_cons, List.filter_append, hrest]
  simp

/-- Of an optional field, the reader finds what is there. -/
theorem maybe_eq {o : Option α} (h : ∀ a ∈ o, Reads read (write a) a ∧ (write a).toTree ≠ .null)
    (hd : ∀ v, o.map write = some v → depth + v.toTree.depth ≤ Tree.maxDepth) :
    Reader.maybe read depth ((o.map write).map toTree) = some o := by
  cases o with
  | none => rfl
  | some a =>
    obtain ⟨hread, hnull⟩ := h a rfl
    rw [Option.map_some, Option.map_some, Reader.maybe, Reader.orElse, Reader.optional]
    · rw [hread.found depth (hd _ rfl)]
      rfl
    · exact hnull

end

end Switchboard.Json
