import Switchboard.Proofs.Toml.Scan

/-!
# Values, rule by rule

A parser that is given fuel for twice what it reads takes the same from every text that goes on
alike (`Parses`). One lemma for each rule puts a value together from its parts; going through the
rules backwards, every value that is read with any fuel is read so.
-/

namespace Switchboard.Toml

/-- With fuel for twice its length, `a` is taken from the front of a text, down to `rest`, and would
be before anything that is like `rest`. -/
def Parses {α : Type} (parse : Nat → List Char → Option (α × List Char)) (cs : List Char) (a : α)
    (rest : List Char) : Prop :=
  ∃ u, cs = u ++ rest ∧
    ∀ r fuel, Alike rest r → 2 * u.length < fuel → parse fuel (u ++ r) = some (a, r)

/-- The same of an assignment. -/
def Assigns (cs : List Char) (path : List String) (v : Node) (rest : List Char) : Prop :=
  ∃ u, cs = u ++ rest ∧ ∀ r fuel, Alike rest r → 2 * u.length < fuel →
    assignment? fuel (u ++ r) = some (path, v, r)

section
variable {c : Char} {cs r s t u rest next mid more : List Char} {fuel : Nat} {v : Node}
  {vs : List Node} {key : String} {path : List String} {ms ms' ms'' : Members}

/-! ## Texts that go on alike -/

theorem Parses.exchange {α : Type} {parse : Nat → List Char → Option (α × List Char)} {a : α}
    (h : Parses parse (u ++ rest) a rest) (hr : Alike rest r) : Parses parse (u ++ r) a r := by
  obtain ⟨w, hw, hlocal⟩ := h
  obtain rfl := List.append_cancel_right hw
  exact ⟨u, rfl, fun r' fuel hr' hfuel => hlocal r' fuel (hr.trans hr') hfuel⟩

theorem Assigns.exchange (h : Assigns (u ++ rest) path v rest) (hr : Alike rest r) :
    Assigns (u ++ r) path v r := by
  obtain ⟨w, hw, hlocal⟩ := h
  obtain rfl := List.append_cancel_right hw
  exact ⟨u, rfl, fun r' fuel hr' hfuel => hlocal r' fuel (hr.trans hr') hfuel⟩

theorem head_of_takeWhile {p : Char → Bool} (hne : cs.takeWhile p ≠ []) (c : Char)
    (hc : (cs.takeWhile p ++ r).head? = some c) : p c = true := by
  obtain ⟨d, front, hfront⟩ := List.exists_cons_of_ne_nil hne
  rw [hfront] at hc
  cases hc
  exact List.mem_takeWhile_imp (hfront ▸ List.mem_cons_self)

/-! ## Keys -/

theorem key?_bare (h : ∀ c, cs.head? = some c → isKeyChar c = true) :
    key? cs = if (cs.takeWhile isKeyChar).isEmpty then none
      else some (String.ofList (cs.takeWhile isKeyChar), cs.dropWhile isKeyChar) := by
  rw [key?]
  · rintro rest rfl
    exact absurd (h _ rfl) (by decide)
  · rintro rest rfl
    exact absurd (h _ rfl) (by decide)

theorem key?_reads (h : key? cs = some (key, rest)) : Reads key? cs key rest := by
  unfold key? at h
  split at h
  · next more =>
    obtain ⟨⟨s, rest'⟩, hs, heq⟩ := Option.map_eq_some_iff.1 h
    cases heq
    obtain ⟨u, rfl, hu⟩ := quoted?_reads hs
    exact ⟨'"' :: u, rfl, fun r hr => by rw [List.cons_append, key?, hu r hr]; rfl⟩
  · next more =>
    obtain ⟨⟨s, rest'⟩, hs, heq⟩ := Option.map_eq_some_iff.1 h
    cases heq
    obtain ⟨u, rfl, hu⟩ := literal?_reads hs
    exact ⟨'\'' :: u, rfl, fun r hr => by rw [List.cons_append, key?, hu r hr]; rfl⟩
  · dsimp only at h
    split at h
    · cases h
    · next hne =>
      cases h
      refine ⟨cs.takeWhile isKeyChar, (List.takeWhile_append_dropWhile).symm, fun r hr => ?_⟩
      obtain ⟨htake, hdrop⟩ := takeWhile_local isKeyChar hr.1
      rw [key?_bare (head_of_takeWhile fun hnil => hne (by rw [hnil]; rfl)), htake, hdrop,
        if_neg hne]

theorem path?_dot (hk : key? cs = some (key, mid)) (hd : skipBlanks mid = '.' :: more) :
    path? (fuel + 1) cs =
      (path? fuel (skipBlanks more)).map fun (keys, rest) => (key :: keys, rest) := by
  rw [path?, hk]
  simp only [hd]

theorem path?_last (hk : key? cs = some (key, mid)) (hd : (skipBlanks mid).head? ≠ some '.') :
    path? (fuel + 1) cs = some ([key], skipBlanks mid) := by
  rw [path?, hk]
  dsimp only
  split
  · next hdot => exact absurd (by rw [hdot]; rfl) hd
  · rfl

theorem path?_parses (h : path? fuel cs = some (path, rest)) : Parses path? cs path rest := by
  induction fuel generalizing cs path with
  | zero => cases h
  | succ fuel ih =>
    cases hkey : key? cs with
    | none => rw [path?, hkey] at h; cases h
    | some k =>
      obtain ⟨key, mid⟩ := k
      obtain ⟨u, rfl, hu⟩ := key?_reads hkey
      obtain ⟨b, hmid, hb⟩ := skipBlanks_reads mid
      by_cases hdot : (skipBlanks mid).head? = some '.'
      · obtain ⟨more, hmore⟩ := List.head?_eq_some_iff.1 hdot
        rw [path?_dot hkey hmore, Option.map_eq_some_iff] at h
        obtain ⟨⟨keys, rest'⟩, hkeys, heq⟩ := h
        cases heq
        obtain ⟨w, hw, hlocal⟩ := ih hkeys
        obtain ⟨b', hb', hblank⟩ := skipBlanks_reads more
        rw [hmore, hb', hw] at hmid
        refine ⟨u ++ (b ++ '.' :: (b' ++ w)), by rw [hmid]; simp, fun r fuel hr hfuel => ?_⟩
        simp only [List.length_append, List.length_cons] at hfuel
        obtain ⟨fuel, rfl⟩ := Nat.exists_eq_add_one_of_ne_zero (Nat.ne_zero_of_lt hfuel)
        have hkey := hu (b ++ '.' :: (b' ++ (w ++ r))) (by
          rw [hmid]; exact alike_append (by decide) ..)
        have hdot := hb ('.' :: (b' ++ (w ++ r))) (by rw [hmore]; rfl)
        have hafter := hblank (w ++ r) (by rw [hw]; exact (hr.append w).1)
        simp only [List.append_assoc, List.cons_append]
        rw [path?_dot hkey hdot, hafter, hlocal r fuel hr (by omega)]
        rfl
      · rw [path?_last hkey hdot] at h
        cases h
        refine ⟨u ++ b, by rw [List.append_assoc, ← hmid], fun r fuel hr hfuel => ?_⟩
        obtain ⟨fuel, rfl⟩ := Nat.exists_eq_add_one_of_ne_zero (Nat.ne_zero_of_lt hfuel)
        have hkey := hu (b ++ r) (by rw [hmid]; exact hr.append b)
        have hblank := hb r hr.1
        rw [List.append_assoc, path?_last hkey (by rw [hblank, ← hr.1]; exact hdot), hblank]

/-! ## Strings and atoms -/

theorem value?_quoted (h : ¬ ['"', '"'] <+: cs) :
    value? (fuel + 1) ('"' :: cs) = textNode (quoted? cs) := by
  rw [value?]
  rintro rest rfl
  exact h ⟨rest, rfl⟩

theorem value?_literal (h : ¬ ['\'', '\''] <+: cs) :
    value? (fuel + 1) ('\'' :: cs) = textNode (literal? cs) := by
  rw [value?]
  rintro rest rfl
  exact h ⟨rest, rfl⟩

theorem value?_atom (h : ∀ c, cs.head? = some c → isAtomChar c = true) :
    value? (fuel + 1) cs =
      (atom? (cs.takeWhile isAtomChar)).map (·, cs.dropWhile isAtomChar) := by
  rw [value?]
  all_goals
    rintro rest rfl
    exact absurd (h _ rfl) (by decide)

theorem dropLineEnd_skips (cs : List Char) :
    Skips (fun cs => some (dropLineEnd cs)) cs (dropLineEnd cs) := by
  unfold dropLineEnd
  split
  · next rest => exact ⟨['\n'], rfl, fun _ _ => rfl⟩
  · next rest => exact ⟨['\r', '\n'], rfl, fun _ _ => rfl⟩
  · next hn hr =>
    refine ⟨[], rfl, fun r hlike => congrArg some (dropLineEnd.eq_3 r (hlike.no_quote hn) ?_)⟩
    rintro rest rfl
    obtain ⟨more, rfl⟩ := List.head?_eq_some_iff.1 hlike.1
    obtain ⟨rest, hrest⟩ := List.head?_eq_some_iff.1 (hlike.2 rfl)
    exact hr rest (congrArg _ hrest)

theorem textNode_eq_some {q : Option (List Char × List Char)} :
    textNode q = some (v, rest) ↔ ∃ s, q = some (s, rest) ∧ v = .text (String.ofList s) := by
  unfold textNode
  constructor
  · intro h
    obtain ⟨⟨s, _⟩, hq, heq⟩ := Option.map_eq_some_iff.1 h
    cases heq
    exact ⟨s, hq, rfl⟩
  · rintro ⟨s, rfl, rfl⟩
    rfl

theorem length_of_quoted? (h : quoted? cs = some (s, rest)) : rest.length < cs.length := by
  fun_induction quoted? cs generalizing s with
  | case1 => cases h; exact Nat.lt_succ_self _
  | case2 _ _ _ ih | case3 _ _ _ _ _ ih | case4 _ _ _ _ _ _ _ _ _ ih | case5 _ _ _ _ _ ih
  | case6 _ _ _ _ _ _ _ _ ih =>
    obtain ⟨_, _, _, ht, _⟩ := push_eq_some.1 h
    have := ih ht
    simp only [List.length_cons]
    omega
  | case7 => cases h
  | case8 => cases h

theorem length_of_literal? (h : literal? cs = some (s, rest)) : rest.length < cs.length := by
  fun_induction literal? cs generalizing s with
  | case1 => cases h; exact Nat.lt_succ_self _
  | case2 _ _ _ _ ih =>
    obtain ⟨_, _, _, ht, _⟩ := push_eq_some.1 h
    exact Nat.lt_succ_of_lt (ih ht)
  | case3 => cases h
  | case4 => cases h

/-- Two quotes at the front are there before everything that is alike. -/
theorem Alike.pair {a b : Char} (h : Alike rest r) (hu : rest.length < (u ++ rest).length)
    (hp : [a, b] <+: u ++ r) : [a, b] <+: u ++ rest := by
  match u with
  | [] => exact absurd hu (Nat.lt_irrefl _)
  | [c] =>
    obtain ⟨more, hmore⟩ := hp
    obtain ⟨rfl, rfl⟩ := List.cons.inj hmore
    obtain ⟨rest, rfl⟩ := List.head?_eq_some_iff.1 h.1
    exact ⟨rest, rfl⟩
  | c :: d :: u =>
    exact (prefix_of_append hp (by simp)).trans (List.prefix_append ..)

/-- A string in one pair of either kind of quotes. -/
theorem parses_short {q : Char} {scan : List Char → Option (List Char × List Char)}
    (hvalue : ∀ fuel cs, ¬ [q, q] <+: cs → value? (fuel + 1) (q :: cs) = textNode (scan cs))
    (hne : ¬ [q, q] <+: cs) (hlen : rest.length < cs.length) (h : Reads scan cs s rest) :
    Parses value? (q :: cs) (.text (String.ofList s)) rest := by
  obtain ⟨u, rfl, hu⟩ := h
  refine ⟨q :: u, rfl, fun r fuel hr hfuel => ?_⟩
  obtain ⟨fuel, rfl⟩ := Nat.exists_eq_add_one_of_ne_zero (Nat.ne_zero_of_lt hfuel)
  rw [List.cons_append, hvalue fuel _ fun hp => hne (hr.pair hlen hp), hu r hr]
  rfl

theorem parses_quoted (hne : ¬ ['"', '"'] <+: cs) (h : quoted? cs = some (s, rest)) :
    Parses value? ('"' :: cs) (.text (String.ofList s)) rest :=
  parses_short (fun _ _ => value?_quoted) hne (length_of_quoted? h) (quoted?_reads h)

theorem parses_literal (hne : ¬ ['\'', '\''] <+: cs) (h : literal? cs = some (s, rest)) :
    Parses value? ('\'' :: cs) (.text (String.ofList s)) rest :=
  parses_short (fun _ _ => value?_literal) hne (length_of_literal? h) (literal?_reads h)

/-- A string over several lines in either kind of quotes. -/
theorem parses_long {scan : List Char → Option (List Char × List Char)} {w : List Char}
    (hvalue : ∀ fuel cs, value? (fuel + 1) (w ++ cs) = textNode (scan (dropLineEnd cs)))
    (h : Reads scan (dropLineEnd cs) s rest) :
    Parses value? (w ++ cs) (.text (String.ofList s)) rest := by
  obtain ⟨e, hcs, he⟩ := dropLineEnd_skips cs
  obtain ⟨u, hu, hlocal⟩ := h
  refine ⟨w ++ (e ++ u), by rw [List.append_assoc, List.append_assoc, ← hu, ← hcs],
    fun r fuel hr hfuel => ?_⟩
  obtain ⟨fuel, rfl⟩ := Nat.exists_eq_add_one_of_ne_zero (Nat.ne_zero_of_lt hfuel)
  have hdrop := he (u ++ r) (by rw [hu]; exact hr.append u)
  rw [List.append_assoc, List.append_assoc, hvalue, Option.some.inj hdrop, hlocal r hr]
  rfl

theorem atom?_nil : atom? [] = none := by decide

theorem parses_atom (h : atom? (cs.takeWhile isAtomChar) = some v) :
    Parses value? cs v (cs.dropWhile isAtomChar) := by
  refine ⟨cs.takeWhile isAtomChar, (List.takeWhile_append_dropWhile).symm,
    fun r fuel hr hfuel => ?_⟩
  obtain ⟨fuel, rfl⟩ := Nat.exists_eq_add_one_of_ne_zero (Nat.ne_zero_of_lt hfuel)
  obtain ⟨htake, hdrop⟩ := takeWhile_local isAtomChar hr.1
  have hne : cs.takeWhile isAtomChar ≠ [] := fun hnil => by
    rw [hnil, atom?_nil] at h
    cases h
  rw [value?_atom (head_of_takeWhile hne), htake, hdrop, h]
  rfl

/-! ## Arrays -/

theorem parses_array (h : Parses items? cs vs rest) :
    Parses value? ('[' :: cs) (.array vs) rest := by
  obtain ⟨u, rfl, hu⟩ := h
  refine ⟨'[' :: u, rfl, fun r fuel hr hfuel => ?_⟩
  rw [List.length_cons] at hfuel
  obtain ⟨fuel, rfl⟩ := Nat.exists_eq_add_one_of_ne_zero (Nat.ne_zero_of_lt hfuel)
  rw [List.cons_append, value?, hu r fuel hr (by omega)]
  rfl

theorem items_close (hg : Skips (skipGap false) cs (']' :: rest)) : Parses items? cs [] rest := by
  obtain ⟨g, rfl, hg⟩ := hg
  refine ⟨g ++ [']'], by simp, fun r fuel hr hfuel => ?_⟩
  obtain ⟨fuel, rfl⟩ := Nat.exists_eq_add_one_of_ne_zero (Nat.ne_zero_of_lt hfuel)
  rw [List.append_assoc, items?, List.singleton_append, hg _ (hr.cons _)]
  rfl

theorem items?_value (hg : skipGap false cs = some next) (hb : next.head? ≠ some ']') :
    items? (fuel + 1) cs =
      match value? fuel next with
      | none => none
      | some (v, rest) =>
        match skipGap false rest with
        | some (',' :: rest) => (items? fuel rest).map fun (items, rest) => (v :: items, rest)
        | some (']' :: rest) => some ([v], rest)
        | _ => none := by
  rw [items?, hg]
  split
  · next h => cases h
  · next h => cases h; exact absurd rfl hb
  · next h => cases h; rfl

theorem items_last (hg : Skips (skipGap false) cs next) (hb : next.head? ≠ some ']')
    (hv : Parses value? next v mid) (hc : Skips (skipGap false) mid (']' :: rest)) :
    Parses items? cs [v] rest := by
  obtain ⟨g, rfl, hg⟩ := hg
  obtain ⟨u, rfl, hu⟩ := hv
  obtain ⟨c, rfl, hc⟩ := hc
  refine ⟨g ++ (u ++ (c ++ [']'])), by simp, fun r fuel hr hfuel => ?_⟩
  simp only [List.length_append, List.length_cons] at hfuel
  obtain ⟨fuel, rfl⟩ := Nat.exists_eq_add_one_of_ne_zero (Nat.ne_zero_of_lt hfuel)
  have hmid := (hr.cons ']').append c
  have hnext := hmid.append u
  simp only [List.append_assoc, List.singleton_append]
  rw [items?_value (hg _ hnext) (hnext.1 ▸ hb), hu _ fuel hmid (by omega)]
  simp only [hc _ (hr.cons ']')]

theorem items_next (hg : Skips (skipGap false) cs next) (hb : next.head? ≠ some ']')
    (hv : Parses value? next v mid) (hc : Skips (skipGap false) mid (',' :: more))
    (hi : Parses items? more vs rest) : Parses items? cs (v :: vs) rest := by
  obtain ⟨g, rfl, hg⟩ := hg
  obtain ⟨u, rfl, hu⟩ := hv
  obtain ⟨c, rfl, hc⟩ := hc
  obtain ⟨w, rfl, hi⟩ := hi
  refine ⟨g ++ (u ++ (c ++ ',' :: w)), by simp, fun r fuel hr hfuel => ?_⟩
  simp only [List.length_append, List.length_cons] at hfuel
  obtain ⟨fuel, rfl⟩ := Nat.exists_eq_add_one_of_ne_zero (Nat.ne_zero_of_lt hfuel)
  have hcomma := (hr.append w).cons ','
  have hmid := hcomma.append c
  have hnext := hmid.append u
  simp only [List.append_assoc, List.cons_append]
  rw [items?_value (hg _ hnext) (hnext.1 ▸ hb), hu _ fuel hmid (by omega)]
  simp only [hc _ hcomma, hi r fuel hr (by omega)]
  rfl

/-- The three ways in which the items of an array go on. -/
theorem items?_cases (h : items? (fuel + 1) cs = some (vs, rest)) :
    (vs = [] ∧ skipGap false cs = some (']' :: rest)) ∨
    ∃ next v mid, skipGap false cs = some next ∧ next.head? ≠ some ']' ∧
      value? fuel next = some (v, mid) ∧
      ((vs = [v] ∧ skipGap false mid = some (']' :: rest)) ∨
        ∃ more vs', vs = v :: vs' ∧ skipGap false mid = some (',' :: more) ∧
          items? fuel more = some (vs', rest)) := by
  cases hg : skipGap false cs with
  | none => rw [items?, hg] at h; cases h
  | some next =>
    by_cases hb : next.head? = some ']'
    · obtain ⟨after, rfl⟩ := List.head?_eq_some_iff.1 hb
      rw [items?, hg] at h
      cases h
      exact .inl ⟨rfl, rfl⟩
    · rw [items?_value hg hb] at h
      refine .inr ⟨next, ?_⟩
      split at h
      · cases h
      · next v mid hv =>
        refine ⟨v, mid, rfl, hb, hv, ?_⟩
        split at h
        · next more hc =>
          obtain ⟨⟨vs', rest'⟩, hi, heq⟩ := Option.map_eq_some_iff.1 h
          cases heq
          exact .inr ⟨more, vs', rfl, hc, hi⟩
        · next hc =>
          cases h
          exact .inl ⟨rfl, hc⟩
        · cases h

/-! ## Tables in braces -/

theorem assigns_of (hp : Parses path? cs path ('=' :: more))
    (hv : Parses value? (skipBlanks more) v rest) : Assigns cs path v rest := by
  obtain ⟨u, rfl, hu⟩ := hp
  obtain ⟨b, hb, hblank⟩ := skipBlanks_reads more
  obtain ⟨w, hw, hvalue⟩ := hv
  refine ⟨u ++ '=' :: (b ++ w), by rw [hb, hw]; simp, fun r fuel hr hfuel => ?_⟩
  simp only [List.length_append, List.length_cons] at hfuel
  obtain ⟨fuel, rfl⟩ := Nat.exists_eq_add_one_of_ne_zero (Nat.ne_zero_of_lt hfuel)
  have hafter := hr.append w
  have hpath := hu ('=' :: (b ++ (w ++ r))) fuel
    (by rw [hb, hw]; exact (hafter.append b).cons '=') (by omega)
  simp only [List.append_assoc, List.cons_append]
  rw [assignment?, hpath]
  simp only [hblank _ (hw ▸ hafter.1), hvalue r fuel hr (by omega)]
  rfl

theorem assignment?_cases (h : assignment? (fuel + 1) cs = some (path, v, rest)) :
    ∃ more, path? fuel cs = some (path, '=' :: more) ∧
      value? fuel (skipBlanks more) = some (v, rest) := by
  rw [assignment?] at h
  split at h
  · next path' more hp =>
    obtain ⟨⟨v', rest'⟩, hv, heq⟩ := Option.map_eq_some_iff.1 h
    cases heq
    exact ⟨more, hp, hv⟩
  · cases h

theorem parses_braces (h : Parses (entries? · []) cs ms rest) :
    Parses value? ('\x7b' :: cs) (.table .braces ms) rest := by
  obtain ⟨u, rfl, hu⟩ := h
  refine ⟨'\x7b' :: u, rfl, fun r fuel hr hfuel => ?_⟩
  rw [List.length_cons] at hfuel
  obtain ⟨fuel, rfl⟩ := Nat.exists_eq_add_one_of_ne_zero (Nat.ne_zero_of_lt hfuel)
  have hmembers : entries? fuel [] (u ++ r) = some (ms, r) := hu r fuel hr (by omega)
  rw [List.cons_append, value?, hmembers]
  rfl

theorem entries_close (hg : Skips (skipGap false) cs ('\x7d' :: rest)) :
    Parses (entries? · ms) cs ms rest := by
  obtain ⟨g, rfl, hg⟩ := hg
  refine ⟨g ++ ['\x7d'], by simp, fun r fuel hr hfuel => ?_⟩
  obtain ⟨fuel, rfl⟩ := Nat.exists_eq_add_one_of_ne_zero (Nat.ne_zero_of_lt hfuel)
  show entries? (fuel + 1) ms _ = _
  rw [List.append_assoc, entries?, List.singleton_append, hg _ (hr.cons _)]
  rfl

theorem entries?_assignment (hg : skipGap false cs = some next) (hb : next.head? ≠ some '\x7d') :
    entries? (fuel + 1) ms cs =
      match assignment? fuel next with
      | none => none
      | some (path, v, rest) =>
        match ms.put v path, skipGap false rest with
        | some ms, some (',' :: rest) => entries? fuel ms rest
        | some ms, some ('\x7d' :: rest) => some (ms, rest)
        | _, _ => none := by
  rw [entries?, hg]
  split
  · next h => cases h
  · next h => cases h; exact absurd rfl hb
  · next h => cases h; rfl

theorem entries_last (hg : Skips (skipGap false) cs next) (hb : next.head? ≠ some '\x7d')
    (ha : Assigns next path v mid) (hput : ms.put v path = some ms')
    (hc : Skips (skipGap false) mid ('\x7d' :: rest)) : Parses (entries? · ms) cs ms' rest := by
  obtain ⟨g, rfl, hg⟩ := hg
  obtain ⟨u, rfl, hu⟩ := ha
  obtain ⟨c, rfl, hc⟩ := hc
  refine ⟨g ++ (u ++ (c ++ ['\x7d'])), by simp, fun r fuel hr hfuel => ?_⟩
  simp only [List.length_append, List.length_cons] at hfuel
  obtain ⟨fuel, rfl⟩ := Nat.exists_eq_add_one_of_ne_zero (Nat.ne_zero_of_lt hfuel)
  have hmid := (hr.cons '\x7d').append c
  have hnext := hmid.append u
  simp only [List.append_assoc, List.singleton_append]
  rw [entries?_assignment (hg _ hnext) (hnext.1 ▸ hb), hu _ fuel hmid (by omega)]
  simp only [hput, hc _ (hr.cons '\x7d')]

theorem entries_next (hg : Skips (skipGap false) cs next) (hb : next.head? ≠ some '\x7d')
    (ha : Assigns next path v mid) (hput : ms.put v path = some ms')
    (hc : Skips (skipGap false) mid (',' :: more)) (he : Parses (entries? · ms') more ms'' rest) :
    Parses (entries? · ms) cs ms'' rest := by
  obtain ⟨g, rfl, hg⟩ := hg
  obtain ⟨u, rfl, hu⟩ := ha
  obtain ⟨c, rfl, hc⟩ := hc
  obtain ⟨w, rfl, he⟩ := he
  refine ⟨g ++ (u ++ (c ++ ',' :: w)), by simp, fun r fuel hr hfuel => ?_⟩
  simp only [List.length_append, List.length_cons] at hfuel
  obtain ⟨fuel, rfl⟩ := Nat.exists_eq_add_one_of_ne_zero (Nat.ne_zero_of_lt hfuel)
  have hcomma := (hr.append w).cons ','
  have hmid := hcomma.append c
  have hnext := hmid.append u
  simp only [List.append_assoc, List.cons_append]
  rw [entries?_assignment (hg _ hnext) (hnext.1 ▸ hb), hu _ fuel hmid (by omega)]
  simp only [hput, hc _ hcomma]
  exact he r fuel hr (by omega)

/-- The three ways in which the members of a table in braces go on. -/
theorem entries?_cases (h : entries? (fuel + 1) ms cs = some (ms'', rest)) :
    (ms'' = ms ∧ skipGap false cs = some ('\x7d' :: rest)) ∨
    ∃ next path v mid ms', skipGap false cs = some next ∧ next.head? ≠ some '\x7d' ∧
      assignment? fuel next = some (path, v, mid) ∧ ms.put v path = some ms' ∧
      ((ms'' = ms' ∧ skipGap false mid = some ('\x7d' :: rest)) ∨
        ∃ more, skipGap false mid = some (',' :: more) ∧
          entries? fuel ms' more = some (ms'', rest)) := by
  cases hg : skipGap false cs with
  | none => rw [entries?, hg] at h; cases h
  | some next =>
    by_cases hb : next.head? = some '\x7d'
    · obtain ⟨after, rfl⟩ := List.head?_eq_some_iff.1 hb
      rw [entries?, hg] at h
      cases h
      exact .inl ⟨rfl, rfl⟩
    · rw [entries?_assignment hg hb] at h
      refine .inr ⟨next, ?_⟩
      split at h
      · cases h
      · next path v mid ha =>
        split at h
        · next ms' more hput hc => exact ⟨path, v, mid, ms', rfl, hb, ha, hput, .inr ⟨more, hc, h⟩⟩
        · next hput hc =>
          cases h
          exact ⟨path, v, mid, ms'', rfl, hb, ha, hput, .inl ⟨rfl, hc⟩⟩
        · cases h

/-! ## Any fuel -/

mutual

theorem value?_parses : ∀ {fuel : Nat} {cs : List Char} {v : Node} {rest : List Char},
    value? fuel cs = some (v, rest) → Parses value? cs v rest
  | 0, _, _, _, h => by cases h
  | fuel + 1, cs, v, rest, h => by
    rw [value?.eq_def] at h
    dsimp only at h
    split at h
    · next more =>
      obtain ⟨s, hs, rfl⟩ := textNode_eq_some.1 h
      exact parses_long (w := ['"', '"', '"']) (fun _ _ => rfl) (longQuoted?_reads hs)
    · next more =>
      obtain ⟨s, hs, rfl⟩ := textNode_eq_some.1 h
      exact parses_long (w := ['\'', '\'', '\'']) (fun _ _ => rfl) (longLiteral?_reads hs)
    · next more hne =>
      obtain ⟨s, hs, rfl⟩ := textNode_eq_some.1 h
      exact parses_quoted (fun ⟨w, hw⟩ => hne w (by rw [← hw]; rfl)) hs
    · next more hne =>
      obtain ⟨s, hs, rfl⟩ := textNode_eq_some.1 h
      exact parses_literal (fun ⟨w, hw⟩ => hne w (by rw [← hw]; rfl)) hs
    · next more =>
      obtain ⟨⟨vs, _⟩, hvs, heq⟩ := Option.map_eq_some_iff.1 h
      cases heq
      exact parses_array (items?_parses hvs)
    · next more =>
      obtain ⟨⟨ms, _⟩, hms, heq⟩ := Option.map_eq_some_iff.1 h
      cases heq
      exact parses_braces (entries?_parses hms)
    · obtain ⟨v', hv, heq⟩ := Option.map_eq_some_iff.1 h
      cases heq
      exact parses_atom hv

theorem items?_parses : ∀ {fuel : Nat} {cs : List Char} {vs : List Node} {rest : List Char},
    items? fuel cs = some (vs, rest) → Parses items? cs vs rest
  | 0, _, _, _, h => by cases h
  | fuel + 1, cs, vs, rest, h => by
    obtain ⟨rfl, hg⟩ | ⟨next, v, mid, hg, hb, hv, hmore⟩ := items?_cases h
    · exact items_close (skipGap_skips hg)
    · have hv := value?_parses hv
      obtain ⟨rfl, hc⟩ | ⟨more, vs', rfl, hc, hi⟩ := hmore
      · exact items_last (skipGap_skips hg) hb hv (skipGap_skips hc)
      · exact items_next (skipGap_skips hg) hb hv (skipGap_skips hc) (items?_parses hi)

theorem entries?_parses : ∀ {fuel : Nat} {ms : Members} {cs : List Char} {r : Members}
    {rest : List Char}, entries? fuel ms cs = some (r, rest) → Parses (entries? · ms) cs r rest
  | 0, _, _, _, _, h => by cases h
  | fuel + 1, ms, cs, r, rest, h => by
    obtain ⟨rfl, hg⟩ | ⟨next, path, v, mid, ms', hg, hb, ha, hput, hmore⟩ := entries?_cases h
    · exact entries_close (skipGap_skips hg)
    · have ha := assignment?_assigns ha
      obtain ⟨rfl, hc⟩ | ⟨more, hc, he⟩ := hmore
      · exact entries_last (skipGap_skips hg) hb ha hput (skipGap_skips hc)
      · exact entries_next (skipGap_skips hg) hb ha hput (skipGap_skips hc) (entries?_parses he)

theorem assignment?_assigns : ∀ {fuel : Nat} {cs : List Char} {path : List String} {v : Node}
    {rest : List Char}, assignment? fuel cs = some (path, v, rest) → Assigns cs path v rest
  | 0, _, _, _, _, h => by cases h
  | fuel + 1, cs, path, v, rest, h => by
    obtain ⟨more, hp, hv⟩ := assignment?_cases h
    exact assigns_of (path?_parses hp) (value?_parses hv)

end

end

end Switchboard.Toml
