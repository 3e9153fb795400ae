import Switchboard.Proofs.Toml.Exchange
import Switchboard.Proofs.Toml.Value

/-!
# The place of a value in a document

`LeadsTo` follows the rules of the parser from the front of a document to one value and tells the
path at which the value stands. If the text from there on is exchanged for one that starts with
another string and goes on alike, the document is read as before with the other string at this
path (`LeadsTo.exchange`, one lemma for each rule).
-/

namespace Switchboard.Toml

/-- What a text is read as. The members are those that came before. -/
inductive Mode where
  | value
  | items
  | entries (members : Members)
  | statements (opened : List String) (members : Members)

/-- Reading `cs` comes to a value at the front of `t`, which then stands at a path. -/
inductive LeadsTo (t : List Char) : Mode → List Char → List Step → Prop where
  | here : LeadsTo t .value t []
  | array {cs π} (h : LeadsTo t .items cs π) : LeadsTo t .value ('[' :: cs) π
  | item {cs next π} (hg : skipGap false cs = some next) (h : LeadsTo t .value next π) :
    LeadsTo t .items cs (.index 0 :: π)
  | laterItem {cs next v mid more i π} (fuel : Nat) (hg : skipGap false cs = some next)
    (hv : value? fuel next = some (v, mid)) (hc : skipGap false mid = some (',' :: more))
    (h : LeadsTo t .items more (.index i :: π)) : LeadsTo t .items cs (.index (i + 1) :: π)
  | braces {cs π} (h : LeadsTo t (.entries []) cs π) : LeadsTo t .value ('\x7b' :: cs) π
  | entry {members cs next path more π} (fuel : Nat) (hg : skipGap false cs = some next)
    (hp : path? fuel next = some (path, '=' :: more)) (h : LeadsTo t .value (skipBlanks more) π) :
    LeadsTo t (.entries members) cs (locate path members ++ π)
  | laterEntry {members members' cs next path v mid more π} (fuel : Nat)
    (hg : skipGap false cs = some next) (ha : assignment? fuel next = some (path, v, mid))
    (hput : members.put v path = some members') (hc : skipGap false mid = some (',' :: more))
    (h : LeadsTo t (.entries members') more π) : LeadsTo t (.entries members) cs π
  | line {opened members cs next path more π} (fuel : Nat) (hg : skipGap false cs = some next)
    (hp : path? fuel next = some (path, '=' :: more)) (h : LeadsTo t .value (skipBlanks more) π) :
    LeadsTo t (.statements opened members) cs (locate (opened ++ path) members ++ π)
  | laterLine {opened opened' members members' cs next st mid more π} (fuel : Nat)
    (hg : skipGap false cs = some next) (hs : statement? fuel next = some (st, mid))
    (hl : skipLine false mid = some more)
    (hr : st.run (opened, members) = some (opened', members'))
    (h : LeadsTo t (.statements opened' members') more π) :
    LeadsTo t (.statements opened members) cs π

/-- With enough fuel the text is read as the statements. -/
def Lists (cs : List Char) (sts : List Statement) : Prop :=
  ∀ fuel, 2 * cs.length + 1 < fuel → statements? fuel cs = some sts

section
variable {cs r s t u rest next mid more : List Char} {fuel : Nat} {v w : Node} {vs : List Node}
  {path : List String} {st : Statement} {sts : List Statement}

/-! ## Statements -/

theorem statement?_entry (hb : cs.head? ≠ some '[') :
    statement? fuel cs =
      (assignment? fuel cs).map fun (path, v, rest) => (.entry path v, rest) := by
  rw [statement?]
  · rintro cs rfl
    exact hb rfl
  · rintro cs rfl
    exact hb rfl

theorem statement?_table (hb : cs.head? ≠ some '[')
    (hp : path? fuel (skipBlanks cs) = some (path, ']' :: rest)) :
    statement? fuel ('[' :: cs) = some (.table path, rest) := by
  rw [statement?]
  · simp only [hp]
  · rintro cs rfl
    exact hb rfl

theorem parses_entry (hb : cs.head? ≠ some '[') (ha : Assigns cs path v rest) :
    Parses statement? cs (.entry path v) rest := by
  obtain ⟨u, rfl, hu⟩ := ha
  refine ⟨u, rfl, fun r fuel hr hfuel => ?_⟩
  rw [statement?_entry ((hr.append u).1 ▸ hb), hu r fuel hr hfuel]
  rfl

theorem statement?_parses (h : statement? fuel cs = some (st, rest)) :
    Parses statement? cs st rest := by
  unfold statement? at h
  split at h
  · next cs =>
    split at h
    · next path rest hp =>
      cases h
      obtain ⟨b, hb, hblank⟩ := skipBlanks_reads cs
      obtain ⟨u, hu, hpath⟩ := path?_parses hp
      refine ⟨'[' :: '[' :: (b ++ (u ++ [']', ']'])), by rw [hb, hu]; simp,
        fun r fuel hr hfuel => ?_⟩
      simp only [List.length_append, List.length_cons] at hfuel
      have hclose := (hr.cons ']').cons ']'
      simp only [List.append_assoc, List.cons_append, List.nil_append, statement?]
      rw [hblank _ (hu ▸ (hclose.append u).1), hpath _ fuel hclose (by omega)]
      rfl
    · cases h
  · next cs hne =>
    split at h
    · next path rest hp =>
      cases h
      obtain ⟨b, hb, hblank⟩ := skipBlanks_reads cs
      obtain ⟨u, hu, hpath⟩ := path?_parses hp
      refine ⟨'[' :: (b ++ (u ++ [']'])), by rw [hb, hu]; simp, fun r fuel hr hfuel => ?_⟩
      simp only [List.length_append, List.length_cons] at hfuel
      have hclose := hr.cons ']'
      have hfront := (hclose.append u).append b
      rw [← hu, ← hb] at hfront
      simp only [List.append_assoc, List.cons_append, List.nil_append]
      refine statement?_table (fun hhead => ?_) ?_
      · obtain ⟨more, rfl⟩ := List.head?_eq_some_iff.1 (hfront.1.trans hhead)
        exact hne more rfl
      · rw [hblank _ (hu ▸ (hclose.append u).1), hpath _ fuel hclose (by omega)]
    · cases h
  · next hne htwo =>
    obtain ⟨⟨path, v, rest'⟩, ha, heq⟩ := Option.map_eq_some_iff.1 h
    cases heq
    refine parses_entry (fun hhead => ?_) (assignment?_assigns ha)
    obtain ⟨more, rfl⟩ := List.head?_eq_some_iff.1 hhead
    exact htwo more rfl

/-- A line is left only for a shorter text. -/
theorem skipLine_length {comment : Bool} (h : skipLine comment cs = some rest) :
    rest = [] ∨ rest.length < cs.length := by
  fun_induction skipLine comment cs with
  | case1 => cases h; exact .inl rfl
  | case2 => cases h; exact .inr (Nat.lt_succ_self _)
  | case3 => cases h; exact .inr (by simp only [List.length_cons]; omega)
  | case4 _ _ _ _ _ ih | case6 _ _ _ _ _ _ _ ih | case7 _ _ _ _ _ _ ih =>
    exact (ih h).imp_right fun h => Nat.lt_succ_of_lt h
  | case5 => cases h
  | case8 => cases h

theorem lists_nil (hg : skipGap false cs = some []) : Lists cs [] := by
  intro fuel hfuel
  obtain ⟨fuel, rfl⟩ := Nat.exists_eq_add_one_of_ne_zero (Nat.ne_zero_of_lt hfuel)
  rw [statements?, hg]

theorem statements?_cons (hg : skipGap false cs = some next) (hne : next ≠ []) :
    statements? (fuel + 1) cs =
      match statement? fuel next with
      | none => none
      | some (s, rest) =>
        match skipLine false rest with
        | some rest => (statements? fuel rest).map (s :: ·)
        | none => none := by
  rw [statements?, hg]
  split
  · next h => cases h
  · next h => cases h; exact absurd rfl hne
  · next h => cases h; rfl

theorem lists_cons (hg : Skips (skipGap false) cs next) (hne : next ≠ [])
    (hs : Parses statement? next st mid) (hl : skipLine false mid = some more)
    (hmore : Lists more sts) : Lists cs (st :: sts) := by
  intro fuel hfuel
  obtain ⟨fuel, rfl⟩ := Nat.exists_eq_add_one_of_ne_zero (Nat.ne_zero_of_lt hfuel)
  obtain ⟨g, rfl, hg⟩ := hg
  obtain ⟨u, rfl, hu⟩ := hs
  have hlen := skipLine_length hl
  have hpos := List.length_pos_iff.2 hne
  simp only [List.length_append] at hfuel hpos
  have hfew : 2 * more.length + 1 < fuel := by
    obtain rfl | hlen := hlen
    · rw [List.length_nil]; omega
    · omega
  rw [statements?_cons (hg _ (.refl _)) hne, hu mid fuel (.refl _) (by omega)]
  simp only [hl, hmore fuel hfew]
  rfl

theorem statements?_cases (h : statements? (fuel + 1) cs = some sts) :
    (sts = [] ∧ skipGap false cs = some []) ∨
    ∃ next st mid more sts', skipGap false cs = some next ∧ next ≠ [] ∧
      statement? fuel next = some (st, mid) ∧ skipLine false mid = some more ∧
      sts = st :: sts' ∧ statements? fuel more = some sts' := by
  cases hg : skipGap false cs with
  | none => rw [statements?, hg] at h; cases h
  | some next =>
    by_cases hne : next = []
    · subst hne
      rw [statements?, hg] at h
      cases h
      exact .inl ⟨rfl, rfl⟩
    · rw [statements?_cons hg hne] at h
      split at h
      · cases h
      · next st mid hs =>
        split at h
        · next more hl =>
          obtain ⟨sts', hsts, rfl⟩ := Option.map_eq_some_iff.1 h
          exact .inr ⟨next, st, mid, more, sts', rfl, hne, hs, hl, rfl, hsts⟩
        · cases h

theorem statements?_lists : ∀ {fuel : Nat} {cs : List Char} {sts : List Statement},
    statements? fuel cs = some sts → Lists cs sts
  | 0, _, _, h => by cases h
  | fuel + 1, cs, sts, h => by
    obtain ⟨rfl, hg⟩ | ⟨next, st, mid, more, sts', hg, hne, hs, hl, rfl, hsts⟩ :=
      statements?_cases h
    · exact lists_nil hg
    · exact lists_cons (skipGap_skips hg) hne (statement?_parses hs) hl (statements?_lists hsts)

end

/-! ## Exchanging what follows -/

/-- A text that leads to `t` is read as before when `t'` stands there, but for one string. No value
is followed by a quotation mark. -/
def Exchanges (s s' : String) (t t' : List Char) : Mode → List Char → List Step → Prop
  | .value, cs, π => ∀ fuel v rest, value? fuel cs = some (v, rest) → rest.head? ≠ some '"' →
    ∃ u w, cs = u ++ t ∧ Parses value? (u ++ t') w rest ∧ Node.Swap s s' π v w
  | .items, cs, π => ∀ fuel vs rest, items? fuel cs = some (vs, rest) →
    ∃ u ws, cs = u ++ t ∧ Parses items? (u ++ t') ws rest ∧ Node.Swap s s' π (.array vs) (.array ws)
  | .entries members, cs, π => ∀ fuel r rest, entries? fuel members cs = some (r, rest) →
    ∃ u r', cs = u ++ t ∧ Parses (entries? · members) (u ++ t') r' rest ∧ Members.Swap s s' π r r'
  | .statements opened members, cs, π => ∀ fuel sts o r, statements? fuel cs = some sts →
    sts.foldlM Statement.run (opened, members) = some (o, r) →
    ∃ u sts' r', cs = u ++ t ∧ Lists (u ++ t') sts' ∧
      sts'.foldlM Statement.run (opened, members) = some (o, r') ∧ Members.Swap s s' π r r'

section
variable {s s' : String} {c : Char} {t t' cs rest next mid more : List Char} {π : List Step}
  {fuel f : Nat} {v w : Node} {vs : List Node} {k : String × List Char}
  {k' : Statement × List Char} {path : List String} {ms ms' r : Members}

theorem Alike.ne_nil (h : Alike t t') (hne : t ≠ []) : t' ≠ [] := by
  rintro rfl
  exact hne (List.head?_eq_none_iff.1 h.1)

theorem Parses.unique {α : Type} {parse : Nat → List Char → Option (α × List Char)} {a b : α}
    {rest' : List Char} (h : Parses parse cs a rest) (h' : Parses parse cs b rest') :
    a = b ∧ rest = rest' := by
  obtain ⟨u, rfl, hu⟩ := h
  obtain ⟨u', hcs, hu'⟩ := h'
  have h₁ := hu rest (2 * u.length + 2 * u'.length + 1) (.refl _) (by omega)
  have h₂ := hu' rest' (2 * u.length + 2 * u'.length + 1) (.refl _) (by omega)
  rw [← hcs, h₁] at h₂
  exact Prod.mk.inj (Option.some.inj h₂)

/-- A gap is also there before everything that is like what follows it. -/
theorem gap_exchange {next' : List Char} (hg : skipGap false cs = some next)
    (hlike : Alike next next') :
    ∃ g, cs = g ++ next ∧ Skips (skipGap false) (g ++ next') next' := by
  obtain ⟨g, rfl, hlocal⟩ := skipGap_skips hg
  exact ⟨g, rfl, g, rfl, fun r hr => hlocal r (hlike.trans hr)⟩

theorem gap_no_quote (h : skipGap false cs = some (c :: rest)) (hc : c ≠ '"') :
    cs.head? ≠ some '"' := by
  intro hhead
  obtain ⟨more, rfl⟩ := List.head?_eq_some_iff.1 hhead
  cases h
  exact hc rfl

theorem line_no_quote (h : skipLine false cs = some rest) : cs.head? ≠ some '"' := by
  intro hhead
  obtain ⟨more, rfl⟩ := List.head?_eq_some_iff.1 hhead
  cases h

theorem value?_head (h : value? fuel cs = some (v, rest)) : cs.head? ≠ some ']' := by
  intro hhead
  obtain ⟨more, rfl⟩ := List.head?_eq_some_iff.1 hhead
  cases fuel <;> cases h

theorem key?_head (h : key? cs = some k) :
    cs ≠ [] ∧ cs.head? ≠ some '[' ∧ cs.head? ≠ some '\x7d' := by
  refine ⟨?_, ?_, ?_⟩
  · rintro rfl
    cases h
  all_goals
    intro hhead
    obtain ⟨rest, rfl⟩ := List.head?_eq_some_iff.1 hhead
    cases h

theorem path?_head (h : path? fuel cs = some (path, rest)) :
    cs ≠ [] ∧ cs.head? ≠ some '[' ∧ cs.head? ≠ some '\x7d' := by
  cases fuel with
  | zero => cases h
  | succ fuel =>
    cases hk : key? cs with
    | none => rw [path?, hk] at h; cases h
    | some k => exact key?_head hk

theorem assignment?_head (h : assignment? fuel cs = some (path, v, rest)) :
    cs ≠ [] ∧ cs.head? ≠ some '\x7d' := by
  cases fuel with
  | zero => cases h
  | succ fuel =>
    obtain ⟨more, hp, -⟩ := assignment?_cases h
    exact ⟨(path?_head hp).1, (path?_head hp).2.2⟩

theorem statement?_ne_nil (h : statement? fuel cs = some k') : cs ≠ [] := by
  rintro rfl
  rw [statement?_entry (by simp), Option.map_eq_some_iff] at h
  obtain ⟨⟨path, v, rest⟩, ha, -⟩ := h
  exact (assignment?_head ha).1 rfl

theorem exchanges_array (h : Exchanges s s' t t' .items cs π) :
    Exchanges s s' t t' .value ('[' :: cs) π := by
  intro fuel v rest hv _
  cases fuel with
  | zero => cases hv
  | succ fuel =>
    obtain ⟨⟨vs, _⟩, hvs, heq⟩ := Option.map_eq_some_iff.1 hv
    cases heq
    obtain ⟨u, ws, rfl, hws, hswap⟩ := h fuel vs rest hvs
    exact ⟨'[' :: u, .array ws, rfl, parses_array hws, hswap⟩

theorem exchanges_item (hlike : Alike t t') (hg : skipGap false cs = some next)
    (hb : next.head? ≠ some ']') (h : Exchanges s s' t t' .value next π) :
    Exchanges s s' t t' .items cs (.index 0 :: π) := by
  intro fuel vs rest hvs
  cases fuel with
  | zero => cases hvs
  | succ fuel =>
    obtain ⟨rfl, hclose⟩ | ⟨next', v, mid, hg', -, hv, hmore⟩ := items?_cases hvs
    · rw [hg] at hclose
      cases hclose
      exact absurd rfl hb
    · rw [hg] at hg'
      cases hg'
      have hquote : mid.head? ≠ some '"' := by
        obtain ⟨_, hc⟩ | ⟨_, _, _, hc, _⟩ := hmore <;> exact gap_no_quote hc (by decide)
      obtain ⟨u, w, rfl, hw, hswap⟩ := h fuel v mid hv hquote
      obtain ⟨g, rfl, hskip⟩ := gap_exchange hg (hlike.append u)
      have hb' : (u ++ t').head? ≠ some ']' := (hlike.append u).1 ▸ hb
      refine ⟨g ++ u, ?_⟩
      rw [List.append_assoc, List.append_assoc]
      obtain ⟨rfl, hc⟩ | ⟨more, vs', rfl, hc, hi⟩ := hmore
      · exact ⟨[w], rfl, items_last hskip hb' hw (skipGap_skips hc), .item [] [] hswap⟩
      · exact ⟨w :: vs', rfl, items_next hskip hb' hw (skipGap_skips hc) (items?_parses hi),
          .item [] vs' hswap⟩

theorem Node.Swap.array_cons {i : Nat} {ws : List Node}
    (h : Node.Swap s s' (.index i :: π) (.array vs) (.array ws)) (v : Node) :
    Node.Swap s s' (.index (i + 1) :: π) (.array (v :: vs)) (.array (v :: ws)) := by
  cases h with
  | item front back h => exact .item (v :: front) back h

theorem exchanges_laterItem {i : Nat} (hlike : Alike t t') (hg : skipGap false cs = some next)
    (hv : value? f next = some (v, mid)) (hc : skipGap false mid = some (',' :: more))
    (h : Exchanges s s' t t' .items more (.index i :: π)) :
    Exchanges s s' t t' .items cs (.index (i + 1) :: π) := by
  intro fuel vs rest hvs
  cases fuel with
  | zero => cases hvs
  | succ fuel =>
    obtain ⟨rfl, hclose⟩ | ⟨next', v', mid', hg', hb, hv', hmore⟩ := items?_cases hvs
    · rw [hg] at hclose
      cases hclose
      exact absurd rfl (value?_head hv)
    · rw [hg] at hg'
      cases hg'
      have hfirst := value?_parses hv
      -- fuel does not matter, so the item is the one that is passed over
      obtain ⟨rfl, rfl⟩ := hfirst.unique (value?_parses hv')
      obtain ⟨rfl, hc'⟩ | ⟨more', vs', rfl, hc', hi⟩ := hmore
      · rw [hc] at hc'
        cases hc'
      · rw [hc] at hc'
        cases hc'
        obtain ⟨u, ws, rfl, hws, hswap⟩ := h fuel vs' rest hi
        have hcomma : Alike (',' :: (u ++ t)) (',' :: (u ++ t')) := (hlike.append u).cons ','
        obtain ⟨c, rfl, hskip⟩ := gap_exchange hc hcomma
        have hmid := hcomma.append c
        obtain ⟨n, rfl, -⟩ := id hfirst
        obtain ⟨g, rfl, hgap⟩ := gap_exchange hg (hmid.append n)
        refine ⟨g ++ (n ++ (c ++ ',' :: u)), v :: ws, by simp, ?_, hswap.array_cons v⟩
        simp only [List.append_assoc, List.cons_append]
        exact items_next hgap ((hmid.append n).1 ▸ hb) (hfirst.exchange hmid) hskip hws

theorem exchanges_braces (h : Exchanges s s' t t' (.entries []) cs π) :
    Exchanges s s' t t' .value ('\x7b' :: cs) π := by
  intro fuel v rest hv _
  cases fuel with
  | zero => cases hv
  | succ fuel =>
    obtain ⟨⟨r, _⟩, hr, heq⟩ := Option.map_eq_some_iff.1 hv
    cases heq
    obtain ⟨u, r', rfl, hr', hswap⟩ := h fuel r rest hr
    exact ⟨'\x7b' :: u, .table .braces r', rfl, parses_braces hr', Node.Swap.table hswap .braces⟩

/-- An assignment of a value that leads to `t`. -/
theorem assignment_exchange {path' : List String} (hlike : Alike t t')
    (hp : path? f next = some (path, '=' :: more))
    (h : Exchanges s s' t t' .value (skipBlanks more) π)
    (ha : assignment? fuel next = some (path', v, mid)) (hquote : mid.head? ≠ some '"') :
    path' = path ∧ ∃ u w, next = u ++ t ∧ Assigns (u ++ t') path w mid ∧ Node.Swap s s' π v w := by
  cases fuel with
  | zero => cases ha
  | succ fuel =>
    obtain ⟨more', hp', hv⟩ := assignment?_cases ha
    have hpath := path?_parses hp
    obtain ⟨rfl, heq⟩ := hpath.unique (path?_parses hp')
    cases heq
    obtain ⟨u, w, hu, hw, hswap⟩ := h fuel v mid hv hquote
    obtain ⟨b, hb, hblank⟩ := skipBlanks_reads more
    have hafter := hlike.append u
    have hequals : Alike ('=' :: more) ('=' :: (b ++ (u ++ t'))) := by
      rw [hb, hu]
      exact (hafter.append b).cons '='
    obtain ⟨n, rfl, -⟩ := id hpath
    refine ⟨rfl, n ++ '=' :: (b ++ u), w, by rw [hb, hu]; simp, ?_, hswap⟩
    simp only [List.append_assoc, List.cons_append]
    refine assigns_of (hpath.exchange hequals) ?_
    rw [hblank _ (hu ▸ hafter.1)]
    exact hw

/-- The rest of a table in braces, with members before it that differ in one string. -/
theorem entries_swap : ∀ {fuel : Nat} {cs : List Char} {ms ns r : Members} {rest : List Char},
    Members.Swap s s' π ms ns → entries? fuel ms cs = some (r, rest) →
      ∃ r', Parses (entries? · ns) cs r' rest ∧ Members.Swap s s' π r r'
  | 0, _, _, _, _, _, _, h => by cases h
  | fuel + 1, cs, ms, ns, r, rest, hswap, h => by
    obtain ⟨rfl, hg⟩ | ⟨next, path, v, mid, ms', hg, hb, ha, hput, hmore⟩ := entries?_cases h
    · exact ⟨ns, entries_close (skipGap_skips hg), hswap⟩
    · have ha := assignment?_assigns ha
      obtain ⟨ns', hput', hswap'⟩ := put_blind v path hswap hput
      obtain ⟨rfl, hc⟩ | ⟨more, hc, he⟩ := hmore
      · exact ⟨ns', entries_last (skipGap_skips hg) hb ha hput' (skipGap_skips hc), hswap'⟩
      · obtain ⟨r', hr', hswap'⟩ := entries_swap hswap' he
        exact ⟨r', entries_next (skipGap_skips hg) hb ha hput' (skipGap_skips hc) hr', hswap'⟩

theorem exchanges_entry (hlike : Alike t t') (hg : skipGap false cs = some next)
    (hp : path? f next = some (path, '=' :: more))
    (h : Exchanges s s' t t' .value (skipBlanks more) π) :
    Exchanges s s' t t' (.entries ms) cs (locate path ms ++ π) := by
  intro fuel r rest hr
  cases fuel with
  | zero => cases hr
  | succ fuel =>
    obtain ⟨rfl, hclose⟩ | ⟨next', path', v, mid, ms', hg', hb, ha, hput, hmore⟩ :=
      entries?_cases hr
    · rw [hg] at hclose
      cases hclose
      exact absurd rfl (path?_head hp).2.2
    · rw [hg] at hg'
      cases hg'
      have hquote : mid.head? ≠ some '"' := by
        obtain ⟨_, hc⟩ | ⟨_, hc, _⟩ := hmore <;> exact gap_no_quote hc (by decide)
      obtain ⟨rfl, u, w, rfl, ha', hswap⟩ := assignment_exchange hlike hp h ha hquote
      -- from here on both tables have the member, with one string or the other in it
      obtain ⟨ms'', hput', hswap'⟩ := put_exchanged hswap path' ms ms' hput
      obtain ⟨g, rfl, hgap⟩ := gap_exchange hg (hlike.append u)
      have hb' := (hlike.append u).1 ▸ hb
      refine ⟨g ++ u, ?_⟩
      rw [List.append_assoc, List.append_assoc]
      obtain ⟨rfl, hc⟩ | ⟨more', hc, he⟩ := hmore
      · exact ⟨ms'', rfl, entries_last hgap hb' ha' hput' (skipGap_skips hc), hswap'⟩
      · obtain ⟨r', hr', hswap''⟩ := entries_swap hswap' he
        exact ⟨r', rfl, entries_next hgap hb' ha' hput' (skipGap_skips hc) hr', hswap''⟩

theorem Assigns.unique {path' : List String} {rest' : List Char} (h : Assigns cs path v rest)
    (h' : Assigns cs path' w rest') : path = path' ∧ v = w ∧ rest = rest' := by
  obtain ⟨u, rfl, hu⟩ := h
  obtain ⟨u', hcs, hu'⟩ := h'
  have h₁ := hu rest (2 * u.length + 2 * u'.length + 1) (.refl _) (by omega)
  have h₂ := hu' rest' (2 * u.length + 2 * u'.length + 1) (.refl _) (by omega)
  rw [← hcs, h₁] at h₂
  cases h₂
  exact ⟨rfl, rfl, rfl⟩

theorem exchanges_laterEntry (hlike : Alike t t') (hg : skipGap false cs = some next)
    (ha : assignment? f next = some (path, v, mid)) (hput : ms.put v path = some ms')
    (hc : skipGap false mid = some (',' :: more))
    (h : Exchanges s s' t t' (.entries ms') more π) : Exchanges s s' t t' (.entries ms) cs π := by
  intro fuel r rest hr
  cases fuel with
  | zero => cases hr
  | succ fuel =>
    have hfirst := assignment?_assigns ha
    obtain ⟨rfl, hclose⟩ | ⟨next', path', v', mid', ms'', hg', hb, ha', hput', hmore⟩ :=
      entries?_cases hr
    · rw [hg] at hclose
      cases hclose
      exact absurd rfl (assignment?_head ha).2
    · rw [hg] at hg'
      cases hg'
      obtain ⟨rfl, rfl, rfl⟩ := hfirst.unique (assignment?_assigns ha')
      rw [hput] at hput'
      cases hput'
      obtain ⟨rfl, hc'⟩ | ⟨more', hc', he⟩ := hmore
      · rw [hc] at hc'
        cases hc'
      · rw [hc] at hc'
        cases hc'
        obtain ⟨u, r', rfl, hr', hswap⟩ := h fuel r rest he
        have hcomma : Alike (',' :: (u ++ t)) (',' :: (u ++ t')) := (hlike.append u).cons ','
        obtain ⟨c, rfl, hskip⟩ := gap_exchange hc hcomma
        have hmid := hcomma.append c
        obtain ⟨n, rfl, -⟩ := id hfirst
        obtain ⟨g, rfl, hgap⟩ := gap_exchange hg (hmid.append n)
        refine ⟨g ++ (n ++ (c ++ ',' :: u)), r', by simp, ?_, hswap⟩
        simp only [List.append_assoc, List.cons_append]
        exact entries_next hgap ((hmid.append n).1 ▸ hb) (hfirst.exchange hmid) hput hskip hr'

theorem exchanges_line {opened : List String} (hlike : Alike t t')
    (hg : skipGap false cs = some next) (hp : path? f next = some (path, '=' :: more))
    (h : Exchanges s s' t t' .value (skipBlanks more) π) :
    Exchanges s s' t t' (.statements opened ms) cs (locate (opened ++ path) ms ++ π) := by
  intro fuel sts o r hsts hr
  obtain ⟨hne, hb, -⟩ := path?_head hp
  cases fuel with
  | zero => cases hsts
  | succ fuel =>
    obtain ⟨rfl, hnil⟩ | ⟨next', st, mid, more', sts', hg', -, hst, hl, rfl, hmore⟩ :=
      statements?_cases hsts
    · rw [hg] at hnil
      cases hnil
      exact absurd rfl hne
    · rw [hg] at hg'
      cases hg'
      rw [statement?_entry hb, Option.map_eq_some_iff] at hst
      obtain ⟨⟨path', v, mid'⟩, ha, heq⟩ := hst
      cases heq
      obtain ⟨rfl, u, w, rfl, ha', hswap⟩ := assignment_exchange hlike hp h ha (line_no_quote hl)
      rw [List.foldlM_cons, Option.bind_eq_bind, Option.bind_eq_some_iff] at hr
      obtain ⟨⟨opened', ms'⟩, hrun, hr⟩ := hr
      obtain ⟨ms'', hrun', hswap'⟩ := run_exchange hswap hrun
      obtain ⟨r', hr', hswap''⟩ := foldlM_run_swap hswap' hr
      have hnext := hlike.append u
      obtain ⟨g, rfl, hgap⟩ := gap_exchange hg hnext
      refine ⟨g ++ u, .entry path' w :: sts', r', by simp, ?_, ?_, hswap''⟩
      · rw [List.append_assoc]
        exact lists_cons hgap (hnext.ne_nil hne) (parses_entry (hnext.1 ▸ hb) ha') hl
          (statements?_lists hmore)
      · rw [List.foldlM_cons, hrun']
        exact hr'

/-- The line that ends a statement is left for the same text, whatever stands further behind. -/
theorem skipLine_exchange {u : List Char} (hl : skipLine false mid = some (u ++ t))
    (hlike : Alike t t') :
    ∃ l, mid = l ++ (u ++ t) ∧ skipLine false (l ++ (u ++ t')) = some (u ++ t') := by
  obtain ⟨l, rfl, hlocal⟩ := skipLine_skips hl
  exact ⟨l, rfl, hlocal _ (hlike.append u)⟩

theorem exchanges_laterLine {opened opened' : List String} {st : Statement} (hlike : Alike t t')
    (hg : skipGap false cs = some next) (hs : statement? f next = some (st, mid))
    (hl : skipLine false mid = some more) (hrun : st.run (opened, ms) = some (opened', ms'))
    (h : Exchanges s s' t t' (.statements opened' ms') more π) :
    Exchanges s s' t t' (.statements opened ms) cs π := by
  intro fuel sts o r hsts hr
  have hfirst := statement?_parses hs
  cases fuel with
  | zero => cases hsts
  | succ fuel =>
    obtain ⟨rfl, hnil⟩ | ⟨next', st', mid', more', sts', hg', hne, hst, hl', rfl, hmore⟩ :=
      statements?_cases hsts
    · rw [hg] at hnil
      cases hnil
      exact absurd rfl (statement?_ne_nil hs)
    · rw [hg] at hg'
      cases hg'
      obtain ⟨rfl, rfl⟩ := hfirst.unique (statement?_parses hst)
      rw [hl] at hl'
      cases hl'
      rw [List.foldlM_cons, hrun] at hr
      obtain ⟨u, sts'', r', rfl, hlists, hr', hswap⟩ := h fuel sts' o r hmore hr
      have hafter := hlike.append u
      obtain ⟨l, rfl, hline⟩ := skipLine_exchange hl hlike
      have hmid := hafter.append l
      obtain ⟨n, rfl, -⟩ := id hfirst
      have hnext := hmid.append n
      obtain ⟨g, rfl, hgap⟩ := gap_exchange hg hnext
      refine ⟨g ++ (n ++ (l ++ u)), st :: sts'', r', by simp, ?_, ?_, hswap⟩
      · simp only [List.append_assoc]
        exact lists_cons hgap (hnext.ne_nil hne) (hfirst.exchange hmid) hline hlists
      · rw [List.foldlM_cons, hrun]
        exact hr'

/-! ## The whole document -/

theorem LeadsTo.head (h : LeadsTo t .value cs π) (ht : t.head? = some '"') :
    cs.head? ≠ some ']' := by
  cases h with
  | here => rw [ht]; decide
  | array | braces => exact nofun

/-- Where `t` and `t'` are read as strings, all that leads to them is exchanged. -/
theorem LeadsTo.exchange {mode : Mode} (hlike : Alike t t') (ht : t.head? = some '"')
    (hhere : Exchanges s s' t t' .value t []) (h : LeadsTo t mode cs π) :
    Exchanges s s' t t' mode cs π := by
  induction h with
  | here => exact hhere
  | array _ ih => exact exchanges_array ih
  | item hg h ih => exact exchanges_item hlike hg (h.head ht) ih
  | laterItem _ hg hv hc _ ih => exact exchanges_laterItem hlike hg hv hc ih
  | braces _ ih => exact exchanges_braces ih
  | entry _ hg hp _ ih => exact exchanges_entry hlike hg hp ih
  | laterEntry _ hg ha hput hc _ ih => exact exchanges_laterEntry hlike hg ha hput hc ih
  | line _ hg hp _ ih => exact exchanges_line hlike hg hp ih
  | laterLine _ hg hs hl hr _ ih => exact exchanges_laterLine hlike hg hs hl hr ih

theorem byteOrderMark_exchange {next' : List Char} (hd : dropByteOrderMark cs = next)
    (hlike : Alike next next') :
    ∃ b, cs = b ++ next ∧ dropByteOrderMark (b ++ next') = next' := by
  unfold dropByteOrderMark at hd
  split at hd
  · next more =>
    subst hd
    exact ⟨['\uFEFF'], rfl, rfl⟩
  · next hne =>
    subst hd
    refine ⟨[], rfl, dropByteOrderMark.eq_2 next' ?_⟩
    rintro rest rfl
    obtain ⟨more, rfl⟩ := List.head?_eq_some_iff.1 hlike.1
    exact hne more rfl

theorem parse?_exchange {text : List Char} {tree : Tree} (hlike : Alike t t')
    (ht : t.head? = some '"') (hhere : Exchanges s s' t t' .value t [])
    (h : LeadsTo t (.statements [] []) (dropByteOrderMark text) π) (hp : parse? text = some tree) :
    ∃ u tree', text = u ++ t ∧ parse? (u ++ t') = some tree' ∧ TreeSwap s s' π tree tree' := by
  simp only [parse?, Option.bind_eq_bind, Option.bind_eq_some_iff] at hp
  obtain ⟨sts, hsts, ⟨o, r⟩, hr, heq⟩ := hp
  cases heq
  obtain ⟨u, sts', r', hu, hlists, hr', hswap⟩ := h.exchange hlike ht hhere _ sts o r hsts hr
  obtain ⟨b, hb, hdrop⟩ := byteOrderMark_exchange hu (hlike.append u)
  refine ⟨b ++ u, _, by rw [hb, List.append_assoc], ?_, Node.Swap.toTree hswap⟩
  simp only [parse?, Option.bind_eq_bind, Option.bind_eq_some_iff]
  rw [List.append_assoc, hdrop]
  exact ⟨sts', hlists _ (by omega), (o, r'), hr', rfl⟩

end

end Switchboard.Toml
