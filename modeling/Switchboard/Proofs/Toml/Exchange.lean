import Switchboard.Toml.Document

/-!
# Exchanging one string of a document

Building tables never looks into a string. So documents that differ in one string (`Node.Swap`)
stay so whatever is added to them, and a value that is added stands where `locate` says, in its
table or, in an array of tables, in the last one.
-/

namespace Switchboard.Toml

/-- One step into a value. -/
inductive Step where
  | key (k : String)
  | index (i : Nat)
  deriving DecidableEq, Repr

/-- The values are the same but for the string at a path, `s` in one and `s'` in the other. -/
inductive Node.Swap (s s' : String) : List Step → Node → Node → Prop where
  | here : Node.Swap s s' [] (.text s) (.text s')
  | item {π v w} (front back : List Node) (h : Node.Swap s s' π v w) :
    Node.Swap s s' (.index front.length :: π) (.array (front ++ v :: back))
      (.array (front ++ w :: back))
  | member {π v w} {k : String} (o : Origin) (front back : Members)
    (hk : k ∉ front.map Prod.fst) (h : Node.Swap s s' π v w) :
    Node.Swap s s' (.key k :: π) (.table o (front ++ (k, v) :: back))
      (.table o (front ++ (k, w) :: back))
  | earlier {π ms ns} (front back : List Members) (last : Members)
    (h : Node.Swap s s' π (.table .header ms) (.table .header ns)) :
    Node.Swap s s' (.index front.length :: π) (.elements (front ++ ms :: back) last)
      (.elements (front ++ ns :: back) last)
  | last {π ms ns} (earlier : List Members)
    (h : Node.Swap s s' π (.table .header ms) (.table .header ns)) :
    Node.Swap s s' (.index earlier.length :: π) (.elements earlier ms) (.elements earlier ns)

/-- The same of the members of a table. -/
def Members.Swap (s s' : String) (π : List Step) (ms ns : Members) : Prop :=
  Node.Swap s s' π (.table .header ms) (.table .header ns)

/-- The same of trees. -/
inductive TreeSwap (s s' : String) : List Step → Tree → Tree → Prop where
  | here : TreeSwap s s' [] (.str (some s)) (.str (some s'))
  | item {π t u} (front back : List Tree) (h : TreeSwap s s' π t u) :
    TreeSwap s s' (.index front.length :: π) (.arr (front ++ t :: back)) (.arr (front ++ u :: back))
  | member {π t u} {k : String} {front : List (Option String × Tree)}
    (back : List (Option String × Tree)) (hk : some k ∉ front.map Prod.fst)
    (h : TreeSwap s s' π t u) :
    TreeSwap s s' (.key k :: π) (.obj (front ++ (some k, t) :: back))
      (.obj (front ++ (some k, u) :: back))

/-- Where a value is found that is put at a path of keys. -/
def locate : List String → Members → List Step
  | [], _ => []
  | key :: path, members =>
    .key key :: match members.lookup key with
      | some (.table _ inner) => locate path inner
      | some (.elements earlier last) => .index earlier.length :: locate path last
      | _ => locate path []

/-- Changing the members goes the same way with either string. -/
def Blind (s s' : String) (f : Members → Option Members) : Prop :=
  ∀ ⦃π ms ns r⦄, Members.Swap s s' π ms ns → f ms = some r →
    ∃ r', f ns = some r' ∧ Members.Swap s s' π r r'

section
variable {s s' k : String} {π σ : List Step} {v w : Node} {ms ns r : Members} {o o' : Origin}

/-! ## Members -/

/-- How a table came about does not matter. -/
theorem Node.Swap.table (h : Node.Swap s s' π (.table o ms) (.table o' ns)) (o : Origin) :
    Node.Swap s s' π (.table o ms) (.table o ns) := by
  cases h with
  | member _ front back hk h => exact .member o front back hk h

theorem Members.Swap.head (h : Node.Swap s s' π v w) (k : String) (ms : Members) :
    Members.Swap s s' (.key k :: π) ((k, v) :: ms) ((k, w) :: ms) :=
  .member .header [] ms nofun h

theorem Members.Swap.cons (h : Members.Swap s s' (.key k :: π) ms ns) {j : String} (hj : j ≠ k)
    (u : Node) : Members.Swap s s' (.key k :: π) ((j, u) :: ms) ((j, u) :: ns) := by
  generalize hσ : Step.key k :: π = σ at h
  cases h with
  | @member π v w k' _ front back hk h =>
    cases hσ
    refine .member .header ((j, u) :: front) back ?_ h
    simpa [hj.symm] using hk

/-- Altering a member of tables that differ in one string. -/
theorem alter_swap {key : String} {f : Option Node → Option Node}
    (hf : ∀ ⦃π v w u⦄, Node.Swap s s' π v w → f (some v) = some u →
      ∃ u', f (some w) = some u' ∧ Node.Swap s s' π u u') : Blind s s' (·.alter key f) := by
  intro π ms ns r h hr
  cases h with
  | @member π v w k _ front back hk h =>
    induction front generalizing r with
    | nil =>
      simp only [List.nil_append, Members.alter] at hr ⊢
      by_cases hkey : k = key
      · rw [if_pos hkey, Option.map_eq_some_iff] at hr
        obtain ⟨u, hu, rfl⟩ := hr
        obtain ⟨u', hu', hswap⟩ := hf h hu
        exact ⟨_, by rw [if_pos hkey, hu']; rfl, .head hswap k back⟩
      · rw [if_neg hkey, Option.map_eq_some_iff] at hr
        obtain ⟨more, hmore, rfl⟩ := hr
        exact ⟨_, by rw [if_neg hkey, hmore]; rfl, .head h k more⟩
    | cons m front ih =>
      obtain ⟨j, u⟩ := m
      have hjk : j ≠ k := fun hj => hk (hj ▸ List.mem_cons_self)
      simp only [List.cons_append, Members.alter] at hr ⊢
      by_cases hkey : j = key
      · rw [if_pos hkey, Option.map_eq_some_iff] at hr
        obtain ⟨u', hu', rfl⟩ := hr
        refine ⟨_, by rw [if_pos hkey, hu']; rfl, ?_⟩
        refine .member .header ((j, u') :: front) back ?_ h
        simpa using hk
      · rw [if_neg hkey, Option.map_eq_some_iff] at hr
        obtain ⟨more, hmore, rfl⟩ := hr
        obtain ⟨more', hmore', hswap⟩ := ih (fun hmem => hk (List.mem_cons_of_mem _ hmem)) hmore
        exact ⟨_, by rw [if_neg hkey]; exact congrArg _ hmore', hswap.cons hjk u⟩

/-- Altering a member in two ways that differ in one string. -/
theorem alter_exchange {key : String} {f g : Option Node → Option Node}
    (hfg : ∀ u, f (ms.lookup key) = some u →
      ∃ u', g (ms.lookup key) = some u' ∧ Node.Swap s s' π u u') (hr : ms.alter key f = some r) :
    ∃ r', ms.alter key g = some r' ∧ Members.Swap s s' (.key key :: π) r r' := by
  induction ms generalizing r with
  | nil =>
    rw [Members.alter, Option.map_eq_some_iff] at hr
    obtain ⟨u, hu, rfl⟩ := hr
    obtain ⟨u', hu', hswap⟩ := hfg u hu
    exact ⟨[(key, u')], by rw [Members.alter, ← List.lookup_nil (a := key), hu']; rfl,
      .head hswap key []⟩
  | cons m ms ih =>
    obtain ⟨j, v⟩ := m
    simp only [Members.alter] at hr ⊢
    by_cases hkey : j = key
    · subst hkey
      rw [List.lookup_cons_self] at hfg
      rw [if_pos rfl, Option.map_eq_some_iff] at hr
      obtain ⟨u, hu, rfl⟩ := hr
      obtain ⟨u', hu', hswap⟩ := hfg u hu
      exact ⟨_, by rw [if_pos rfl, hu']; rfl, .head hswap j ms⟩
    · have hne : (key == j) = false := beq_eq_false_iff_ne.2 (Ne.symm hkey)
      simp only [List.lookup_cons, hne] at hfg
      rw [if_neg hkey, Option.map_eq_some_iff] at hr
      obtain ⟨more, hmore, rfl⟩ := hr
      obtain ⟨more', hmore', hswap⟩ := ih hfg hmore
      exact ⟨_, by rw [if_neg hkey, hmore']; rfl, hswap.cons hkey v⟩

/-! ## Dotted keys and headers -/

theorem Node.Swap.of_table (h : Node.Swap s s' π (.table o ms) w) : ∃ ns, w = .table o ns := by
  cases h with
  | member => exact ⟨_, rfl⟩

theorem Node.Swap.of_elements {es : List Members} (h : Node.Swap s s' π (.elements es ms) w) :
    ∃ es' ns, w = .elements es' ns := by
  cases h with
  | earlier | last => exact ⟨_, _, rfl⟩

theorem Blind.table {f : Members → Option Members} (hf : Blind s s' f)
    (h : Node.Swap s s' π (.table o ms) (.table o ns)) (hr : (f ms).map (.table o') = some v) :
    ∃ w, (f ns).map (.table o') = some w ∧ Node.Swap s s' π v w := by
  obtain ⟨r, hms, rfl⟩ := Option.map_eq_some_iff.1 hr
  obtain ⟨r', hns, hswap⟩ := hf (h.table .header) hms
  exact ⟨_, Option.map_eq_some_iff.2 ⟨r', hns, rfl⟩, hswap.table o'⟩

theorem Blind.elements {f : Members → Option Members} (hf : Blind s s' f) {es es' : List Members}
    (h : Node.Swap s s' π (.elements es ms) (.elements es' ns))
    (hr : (f ms).map (.elements es) = some v) :
    ∃ w, (f ns).map (.elements es') = some w ∧ Node.Swap s s' π v w := by
  obtain ⟨r, hms, rfl⟩ := Option.map_eq_some_iff.1 hr
  cases h with
  | earlier front back _ h =>
    exact ⟨_, Option.map_eq_some_iff.2 ⟨r, hms, rfl⟩, .earlier front back r h⟩
  | last _ h =>
    obtain ⟨r', hns, hswap⟩ := hf h hms
    exact ⟨_, Option.map_eq_some_iff.2 ⟨r', hns, rfl⟩, .last es hswap⟩

theorem put_blind (v : Node) : ∀ path, Blind s s' (Members.put v path)
  | [], _, _, _, _, _, hr => nomatch hr
  | [_], _, _, _, _, h, hr => by
    refine alter_swap (fun _ _ _ _ _ hu => ?_) h hr
    cases hu
  | key :: next :: path, _, _, _, _, h, hr => by
    have ih := put_blind v (next :: path)
    refine alter_swap (fun π v w u h hu => ?_) h hr
    cases v with
    | text | integer | flag | array => cases hu
    | table o ms =>
      obtain ⟨ns, rfl⟩ := h.of_table
      cases o with
      | braces | header => cases hu
      | onKeyPath => exact ih.table h hu
      | onHeaderPath =>
        dsimp only at hu ⊢
        split at hu
        · cases hu
        · next hlen =>
          rw [if_neg hlen]
          exact ih.table h hu
    | elements es ms =>
      obtain ⟨es', ns, rfl⟩ := h.of_elements
      dsimp only at hu ⊢
      split at hu
      · cases hu
      · next hlen =>
        rw [if_neg hlen]
        exact ih.elements h hu

theorem descend_blind {f : Members → Option Members} (hf : Blind s s' f) :
    ∀ path, Blind s s' (Members.descend f path)
  | [] => hf
  | key :: path => by
    have ih := descend_blind hf path
    refine alter_swap fun π v w u h hu => ?_
    cases v with
    | text | integer | flag | array => cases hu
    | table o ms =>
      obtain ⟨ns, rfl⟩ := h.of_table
      cases o with
      | braces => cases hu
      | header | onHeaderPath | onKeyPath => exact ih.table h hu
    | elements es ms =>
      obtain ⟨es', ns, rfl⟩ := h.of_elements
      exact ih.elements h hu

theorem openTable_blind (path : List String) : Blind s s' (Members.openTable path) := by
  intro π ms ns r h hr
  unfold Members.openTable at hr ⊢
  split at hr
  · cases hr
  · refine descend_blind (alter_swap fun π v w u h hu => ?_) _ h hr
    cases v with
    | text | integer | flag | array | elements => cases hu
    | table o ms =>
      obtain ⟨ns, rfl⟩ := h.of_table
      cases o with
      | braces | header | onKeyPath => cases hu
      | onHeaderPath =>
        cases hu
        exact ⟨_, rfl, h.table .header⟩

theorem openElement_blind (path : List String) : Blind s s' (Members.openElement path) := by
  intro π ms ns r h hr
  unfold Members.openElement at hr ⊢
  split at hr
  · cases hr
  · refine descend_blind (alter_swap fun π v w u h hu => ?_) _ h hr
    cases v with
    | text | integer | flag | array | table => cases hu
    | elements es ms =>
      cases hu
      cases h with
      | earlier front back _ h =>
        refine ⟨_, rfl, ?_⟩
        simp only [List.append_assoc, List.cons_append]
        exact .earlier front (back ++ [ms]) [] h
      | last _ h => exact ⟨_, rfl, .earlier es [] [] h⟩

/-- A statement goes the same way whichever of the strings the document holds. -/
theorem run_swap {opened o : List String} {st : Statement} (h : Members.Swap s s' π ms ns)
    (hr : st.run (opened, ms) = some (o, r)) :
    ∃ r', st.run (opened, ns) = some (o, r') ∧ Members.Swap s s' π r r' := by
  have hrun {f : Members → Option Members} {o' : List String} (hf : Blind s s' f)
      (hr : (f ms).map (o', ·) = some (o, r)) :
      ∃ r', (f ns).map (o', ·) = some (o, r') ∧ Members.Swap s s' π r r' := by
    obtain ⟨r, hms, ho⟩ := Option.map_eq_some_iff.1 hr
    cases ho
    obtain ⟨r', hns, hswap⟩ := hf h hms
    exact ⟨r', Option.map_eq_some_iff.2 ⟨r', hns, rfl⟩, hswap⟩
  cases st with
  | table path => exact hrun (openTable_blind path) hr
  | element path => exact hrun (openElement_blind path) hr
  | entry path v => exact hrun (descend_blind (put_blind v path) opened) hr

theorem foldlM_run_swap {opened o : List String} {sts : List Statement}
    (h : Members.Swap s s' π ms ns) (hr : sts.foldlM Statement.run (opened, ms) = some (o, r)) :
    ∃ r', sts.foldlM Statement.run (opened, ns) = some (o, r') ∧ Members.Swap s s' π r r' := by
  induction sts generalizing opened ms ns with
  | nil =>
    cases hr
    exact ⟨ns, rfl, h⟩
  | cons st sts ih =>
    rw [List.foldlM_cons, Option.bind_eq_bind, Option.bind_eq_some_iff] at hr
    obtain ⟨⟨opened₁, ms₁⟩, hst, hr⟩ := hr
    obtain ⟨ns₁, hst', h₁⟩ := run_swap h hst
    obtain ⟨r', hr', hswap⟩ := ih h₁ hr
    exact ⟨r', by rw [List.foldlM_cons, hst']; exact hr', hswap⟩

/-! ## The string that is added -/

/-- Two ways to change the members differ in one string. -/
def Exchanged (s s' : String) (π : List Step) (f g : Option Members) : Prop :=
  ∀ r, f = some r → ∃ r', g = some r' ∧ Members.Swap s s' π r r'

theorem Exchanged.table {f g : Option Members} (h : Exchanged s s' π f g)
    (hf : f.map (.table o) = some v) : ∃ w, g.map (.table o) = some w ∧ Node.Swap s s' π v w := by
  obtain ⟨r, hr, rfl⟩ := Option.map_eq_some_iff.1 hf
  obtain ⟨r', hr', hswap⟩ := h r hr
  exact ⟨_, Option.map_eq_some_iff.2 ⟨r', hr', rfl⟩, Node.Swap.table hswap o⟩

theorem Exchanged.elements {f g : Option Members} (h : Exchanged s s' π f g) {es : List Members}
    (hf : f.map (.elements es) = some v) :
    ∃ w, g.map (.elements es) = some w ∧ Node.Swap s s' (.index es.length :: π) v w := by
  obtain ⟨r, hr, rfl⟩ := Option.map_eq_some_iff.1 hf
  obtain ⟨r', hr', hswap⟩ := h r hr
  exact ⟨_, Option.map_eq_some_iff.2 ⟨r', hr', rfl⟩, .last es hswap⟩

theorem put_exchanged (h : Node.Swap s s' σ v w) : ∀ (path : List String) (ms : Members),
    Exchanged s s' (locate path ms ++ σ) (ms.put v path) (ms.put w path)
  | [], _ => nofun
  | [key], ms => fun r hr => by
    rw [locate]
    refine alter_exchange (fun u hu => ?_) hr
    cases hfound : ms.lookup key with
    | none =>
      rw [hfound] at hu
      cases hu
      exact ⟨w, rfl, h⟩
    | some found =>
      rw [hfound] at hu
      cases hu
  | key :: next :: path, ms => fun r hr => by
    have ih := put_exchanged h (next :: path)
    rw [locate]
    refine alter_exchange (fun u hu => ?_) hr
    cases hfound : ms.lookup key with
    | none =>
      rw [hfound] at hu
      exact (ih []).table hu
    | some found =>
      rw [hfound] at hu
      cases found with
      | text | integer | flag | array => cases hu
      | table o inner =>
        cases o with
        | braces | header => cases hu
        | onKeyPath => exact (ih inner).table hu
        | onHeaderPath =>
          dsimp only at hu ⊢
          split at hu
          · cases hu
          · next hlen =>
            rw [if_neg hlen]
            exact (ih inner).table hu
      | elements es last =>
        dsimp only at hu ⊢
        split at hu
        · cases hu
        · next hlen =>
          rw [if_neg hlen]
          exact (ih last).elements hu

theorem descend_exchanged {f g : Members → Option Members} {path : List String}
    (hfg : ∀ ms, Exchanged s s' (locate path ms ++ σ) (f ms) (g ms)) :
    ∀ (opened : List String) (ms : Members),
      Exchanged s s' (locate (opened ++ path) ms ++ σ) (ms.descend f opened) (ms.descend g opened)
  | [], ms => hfg ms
  | key :: opened, ms => fun r hr => by
    have ih := descend_exchanged hfg opened
    rw [List.cons_append, locate]
    refine alter_exchange (fun u hu => ?_) hr
    cases hfound : ms.lookup key with
    | none =>
      rw [hfound] at hu
      exact (ih []).table hu
    | some found =>
      rw [hfound] at hu
      cases found with
      | text | integer | flag | array => cases hu
      | table o inner =>
        cases o with
        | braces => cases hu
        | header | onHeaderPath | onKeyPath => exact (ih inner).table hu
      | elements es last => exact (ih last).elements hu

/-- A line that gives a value which differs in one string. -/
theorem run_exchange {opened o path : List String} (h : Node.Swap s s' σ v w)
    (hr : Statement.run (opened, ms) (.entry path v) = some (o, r)) :
    ∃ r', Statement.run (opened, ms) (.entry path w) = some (o, r') ∧
      Members.Swap s s' (locate (opened ++ path) ms ++ σ) r r' := by
  obtain ⟨r, hms, ho⟩ := Option.map_eq_some_iff.1 hr
  cases ho
  obtain ⟨r', hr', hswap⟩ := descend_exchanged (put_exchanged h path) opened ms r hms
  exact ⟨r', Option.map_eq_some_iff.2 ⟨r', hr', rfl⟩, hswap⟩

/-! ## As trees -/

theorem insertMember_split {α : Type} (k : String) (ms : List (String × α)) :
    ∃ front back, k ∉ front.map Prod.fst ∧
      ∀ v, Json.insertMember k v ms = front ++ (k, v) :: back := by
  induction ms with
  | nil => exact ⟨[], [], nofun, fun _ => rfl⟩
  | cons m ms ih =>
    obtain ⟨l, w⟩ := m
    by_cases hkl : k < l
    · exact ⟨[], (l, w) :: ms, nofun, fun v => by rw [Json.insertMember, if_pos hkl]; rfl⟩
    · by_cases hlk : l < k
      · obtain ⟨front, back, hfront, heq⟩ := ih
        refine ⟨(l, w) :: front, back, ?_, fun v => ?_⟩
        · have hne : k ≠ l := fun h => String.lt_irrefl l (h ▸ hlk)
          simpa [hne] using hfront
        · rw [Json.insertMember, if_neg hkl, if_pos hlk, heq]
          rfl
      · exact ⟨[], ms, nofun, fun v => by rw [Json.insertMember, if_neg hkl, if_neg hlk]; rfl⟩

theorem insertMember_of_ne {α : Type} {j k : String} (hjk : j ≠ k) (u : α)
    (back : List (String × α)) :
    ∀ front : List (String × α), k ∉ front.map Prod.fst →
      ∃ front' back', k ∉ front'.map Prod.fst ∧
        ∀ v, Json.insertMember j u (front ++ (k, v) :: back) = front' ++ (k, v) :: back'
  | [], _ => by
    by_cases hlt : j < k
    · exact ⟨[(j, u)], back, by simpa using hjk.symm, fun v => by
        rw [List.nil_append, Json.insertMember, if_pos hlt]; rfl⟩
    · have hgt : k < j := Decidable.byContradiction fun hgt =>
        hjk (String.le_antisymm (String.not_lt.1 hgt) (String.not_lt.1 hlt))
      exact ⟨[], Json.insertMember j u back, nofun, fun v => by
        rw [List.nil_append, Json.insertMember, if_neg hlt, if_pos hgt]; rfl⟩
  | (l, w) :: front, hk => by
    by_cases hjl : j < l
    · refine ⟨(j, u) :: (l, w) :: front, back, ?_, fun v => ?_⟩
      · simpa [hjk.symm] using hk
      · rw [List.cons_append, Json.insertMember, if_pos hjl]
        rfl
    · by_cases hlj : l < j
      · obtain ⟨front', back', hfront, heq⟩ :=
          insertMember_of_ne hjk u back front fun h => hk (List.mem_cons_of_mem _ h)
        refine ⟨(l, w) :: front', back', ?_, fun v => ?_⟩
        · have hkl : k ≠ l := fun h => hk (h ▸ List.mem_cons_self)
          simpa [hkl] using hfront
        · rw [List.cons_append, Json.insertMember, if_neg hjl, if_pos hlj, heq]
          rfl
      · refine ⟨(j, u) :: front, back, ?_, fun v => ?_⟩
        · have := fun h => hk (List.mem_cons_of_mem _ h)
          simpa [hjk.symm] using this
        · rw [List.cons_append, Json.insertMember, if_neg hjl, if_neg hlj]
          rfl

theorem memberTrees_split (k : String) (back : Members) : ∀ front : Members,
    k ∉ front.map Prod.fst → ∃ front' back', k ∉ front'.map Prod.fst ∧
      ∀ v : Node, memberTrees (front ++ (k, v) :: back) = front' ++ (k, v.toTree) :: back'
  | [], _ => by
    obtain ⟨front, rest, hfront, heq⟩ := insertMember_split k (memberTrees back)
    exact ⟨front, rest, hfront, fun v => heq v.toTree⟩
  | (j, u) :: front, hk => by
    have hjk : j ≠ k := fun h => hk (h ▸ List.mem_cons_self)
    obtain ⟨front₁, back₁, hfront₁, heq₁⟩ :=
      memberTrees_split k back front fun h => hk (List.mem_cons_of_mem _ h)
    obtain ⟨front₂, back₂, hfront₂, heq₂⟩ := insertMember_of_ne hjk u.toTree back₁ front₁ hfront₁
    exact ⟨front₂, back₂, hfront₂, fun v => by
      rw [List.cons_append, memberTrees, heq₁, heq₂]⟩

theorem treesOf_eq_map : ∀ items, treesOf items = items.map Node.toTree
  | [] => rfl
  | v :: items => by rw [treesOf, treesOf_eq_map items]; rfl

theorem elementTrees_eq_map : ∀ es, elementTrees es = es.map fun ms => objectOf (memberTrees ms)
  | [] => rfl
  | ms :: es => by rw [elementTrees, elementTrees_eq_map es]; rfl

/-- Values that differ in one string are trees that differ in it. -/
theorem Node.Swap.toTree (h : Node.Swap s s' π v w) : TreeSwap s s' π v.toTree w.toTree := by
  induction h with
  | here => exact .here
  | item front back h ih =>
    rw [Node.toTree, Node.toTree, treesOf_eq_map, treesOf_eq_map, List.map_append, List.map_append,
      ← List.length_map Node.toTree]
    exact .item _ _ ih
  | member o front back hk h ih =>
    obtain ⟨front', back', hfront, heq⟩ := memberTrees_split _ back _ hk
    rw [Node.toTree, Node.toTree, heq, heq, objectOf, objectOf, List.map_append, List.map_append]
    refine .member _ ?_ ih
    simpa using hfront
  | earlier front back last h ih =>
    rw [Node.toTree, Node.toTree, elementTrees_eq_map, elementTrees_eq_map, List.map_append,
      List.map_append, List.append_assoc, List.append_assoc,
      ← List.length_map fun ms => objectOf (memberTrees ms)]
    exact .item _ _ ih
  | last earlier h ih =>
    rw [Node.toTree, Node.toTree, elementTrees_eq_map,
      ← List.length_map fun ms => objectOf (memberTrees ms)]
    exact .item _ _ ih

end

end Switchboard.Toml
