import Switchboard.Proofs.Toml.Place

/-!
# Inside a string

Characters that are no quotation mark, backslash or control character stand for themselves between
any two parts of a string in double quotes (`quoted?_between`). So a string of a document may have
other such characters in it, and the document says the same with this string changed
(`parse?_inside`).
-/

namespace Switchboard.Toml

/-- The characters stand for themselves in a string. -/
def Plain (cs : List Char) : Prop := ∀ c ∈ cs, isText c = true ∧ c ≠ '"' ∧ c ≠ '\\'

instance (cs : List Char) : Decidable (Plain cs) :=
  List.decidableBAll (fun c => isText c = true ∧ c ≠ '"' ∧ c ≠ '\\') cs

/-- The characters are, up to the closing quotation mark, a string that reads `p`. -/
def Spells (cs p : List Char) : Prop := quoted? (cs ++ ['"']) = some (p, [])

instance (cs p : List Char) : Decidable (Spells cs p) :=
  inferInstanceAs (Decidable (quoted? (cs ++ ['"']) = some (p, [])))

section
variable {a b p q u v x cs : List Char} {c : Char}

theorem split_last (h : u ++ cs = a ++ [c]) (hne : cs ≠ []) :
    ∃ b, a = u ++ b ∧ cs = b ++ [c] := by
  obtain ⟨b, d, rfl⟩ := (List.eq_nil_or_concat cs).resolve_left hne
  rw [List.concat_eq_append, ← List.append_assoc] at h
  obtain ⟨rfl, hd⟩ := List.append_inj' h rfl
  exact ⟨b, rfl, by rw [List.concat_eq_append, hd]⟩

/-- One character more, which `w` stands for. -/
theorem append_step {w r : List Char} {d : Option Char} (hcs : a ++ ['"'] = w ++ cs)
    (h : push d (quoted? cs) = some (p, [])) (hw : ∀ r, quoted? (w ++ r) = push d (quoted? r))
    (ih : ∀ {b q}, b ++ ['"'] = cs → quoted? cs = some (q, []) →
      quoted? (b ++ r) = (quoted? r).map fun (s, rest) => (q ++ s, rest)) :
    quoted? (a ++ r) = (quoted? r).map fun (s, rest) => (p ++ s, rest) := by
  obtain ⟨e, q, rfl, hq, rfl⟩ := push_eq_some.1 h
  obtain ⟨b, rfl, hb⟩ := split_last hcs.symm fun hnil => by rw [hnil] at hq; cases hq
  rw [List.append_assoc, hw, ih hb.symm hq]
  cases quoted? r <;> rfl

/-- What a string begins with is read so before anything. -/
theorem Spells.append (h : Spells a p) (r : List Char) :
    quoted? (a ++ r) = (quoted? r).map fun (s, rest) => (p ++ s, rest) := by
  unfold Spells at h
  generalize hcs : a ++ ['"'] = cs at h
  fun_induction quoted? cs generalizing a p with
  | case1 cs =>
    cases h
    cases a with
    | nil => rw [List.nil_append]; cases quoted? r <;> rfl
    | cons => simp at hcs
  | case2 e f cs ih => exact append_step (w := ['\\', 'x', e, f]) hcs h (fun _ => rfl) ih
  | case3 e f g k cs ih =>
    exact append_step (w := ['\\', 'u', e, f, g, k]) hcs h (fun _ => rfl) ih
  | case4 e f g k l m n o cs ih =>
    exact append_step (w := ['\\', 'U', e, f, g, k, l, m, n, o]) hcs h (fun _ => rfl) ih
  | case5 c cs _ _ _ ih =>
    obtain ⟨d, t, hd, _, _⟩ := push_eq_some.1 h
    exact append_step (w := ['\\', c]) hcs h (fun _ => quoted?_escape hd) ih
  | case6 c cs hq _ _ _ hb ht ih =>
    have hback : c ≠ '\\' := by
      rintro rfl
      cases cs with
      | nil => cases h
      | cons e cs => exact hb e cs rfl rfl
    refine append_step (w := [c]) hcs h (fun r => ?_) ih
    rw [List.singleton_append, quoted?_char hq hback, if_pos ht]
  | case7 => cases h
  | case8 => cases h

theorem Plain.append (h : Plain v) (r : List Char) :
    quoted? (v ++ r) = (quoted? r).map fun (s, rest) => (v ++ s, rest) := by
  induction v with
  | nil => rw [List.nil_append]; cases quoted? r <;> rfl
  | cons c v ih =>
    obtain ⟨ht, hq, hb⟩ := h c List.mem_cons_self
    rw [List.cons_append, quoted?_char hq hb, if_pos ht,
      ih fun d hd => h d (List.mem_cons_of_mem _ hd)]
    cases quoted? r <;> rfl

/-- Plain characters stand for themselves between two parts of a string. -/
theorem quoted?_between (ha : Spells a p) (hb : Spells b q) (hv : Plain v) (rest : List Char) :
    quoted? (a ++ (v ++ (b ++ '"' :: rest))) = some (p ++ (v ++ q), rest) := by
  rw [ha.append, hv.append, hb.append, quoted?]
  simp

theorem Spells.cons_ne (h : Spells (c :: a) p) : c ≠ '"' := by
  rintro rfl
  cases a <;> cases h

/-- The string as a value. Only an empty one before a quotation mark would be a long string. -/
theorem parses_between (ha : Spells a p) (hb : Spells b q) (hv : Plain v) {rest : List Char}
    (hrest : v = [] → rest.head? ≠ some '"') :
    Parses value? ('"' :: (a ++ (v ++ (b ++ '"' :: rest)))) (.text (String.ofList (p ++ (v ++ q))))
      rest := by
  refine parses_quoted ?_ (quoted?_between ha hb hv rest)
  rintro ⟨w, hw⟩
  match a, v, b with
  | c :: a, v, b => exact ha.cons_ne (List.cons.inj hw).1.symm
  | [], c :: v, b => exact (hv c List.mem_cons_self).2.1 (List.cons.inj hw).1.symm
  | [], [], c :: b => exact hb.cons_ne (List.cons.inj hw).1.symm
  | [], [], [] => exact hrest rfl (by rw [← (List.cons.inj hw).2]; rfl)

/-- Some plain characters of a string are exchanged for others. -/
theorem exchanges_between (ha : Spells a p) (hb : Spells b q) (hx : Plain x) (hne : x ≠ [])
    (hv : Plain v) (rest : List Char) :
    Exchanges (String.ofList (p ++ (x ++ q))) (String.ofList (p ++ (v ++ q)))
      ('"' :: (a ++ (x ++ (b ++ '"' :: rest)))) ('"' :: (a ++ (v ++ (b ++ '"' :: rest)))) .value
      ('"' :: (a ++ (x ++ (b ++ '"' :: rest)))) [] := by
  intro fuel s after hs hafter
  have hold : Parses value? _ _ rest := parses_between ha hb hx fun h => absurd h hne
  obtain ⟨rfl, rfl⟩ := hold.unique (value?_parses hs)
  exact ⟨[], _, rfl, parses_between ha hb hv fun _ => hafter, .here⟩

/-- A document that leads to a string is read as before when plain characters in the string are
exchanged, except for that string. -/
theorem parse?_inside {rest : List Char} {tree : Tree} {π : List Step} (ha : Spells a p)
    (hb : Spells b q) (hx : Plain x) (hne : x ≠ [])
    (h : LeadsTo ('"' :: (a ++ (x ++ (b ++ '"' :: rest)))) (.statements [] [])
      (dropByteOrderMark (u ++ '"' :: (a ++ (x ++ (b ++ '"' :: rest))))) π)
    (hp : parse? (u ++ '"' :: (a ++ (x ++ (b ++ '"' :: rest)))) = some tree) (hv : Plain v) :
    ∃ tree', parse? (u ++ '"' :: (a ++ (v ++ (b ++ '"' :: rest)))) = some tree' ∧
      TreeSwap (String.ofList (p ++ (x ++ q))) (String.ofList (p ++ (v ++ q))) π tree tree' := by
  obtain ⟨u', tree', hu, htree, hswap⟩ := parse?_exchange
    (alike_append (by decide) [] _ (a ++ (v ++ (b ++ '"' :: rest)))) rfl
    (exchanges_between ha hb hx hne hv rest) h hp
  obtain rfl := List.append_cancel_right hu
  exact ⟨tree', htree, hswap⟩

end

end Switchboard.Toml
