import Switchboard.Proofs.Json.Leaf

/-!
# Texts that are read back as their tree

`parse?_compact` is the result: the compact text of a value without doubles is read as the tree that
the value is written from. It goes by recursion over the value, for each value in front of what may
follow it inside brackets, and with the fuel that the length of the text gives.
-/

namespace Switchboard

namespace Json

mutual

/-- All numbers in the value are integers of 64 bits, signed or unsigned. -/
def Integral : Json → Prop
  | .int n => -(Nat.pow 2 63) ≤ n ∧ n < Nat.pow 2 64
  | .float _ => False
  | .arr items => IntegralItems items
  | .obj members => IntegralMembers members
  | _ => True

def IntegralItems : List Json → Prop
  | [] => True
  | v :: rest => v.Integral ∧ IntegralItems rest

def IntegralMembers : List (String × Json) → Prop
  | [] => True
  | (_, v) :: rest => v.Integral ∧ IntegralMembers rest

end

end Json

namespace Tree

open Json (compactChars compactItems compactMembers quote intChars Integral IntegralItems
  IntegralMembers toTreeItems toTreeMembers)

section
variable {c : Char} {cs rest r : List Char} {fuel : Nat}

/-! ## One token in front -/

theorem skipSpace_cons (h : isSpace c = false) : skipSpace (c :: cs) = c :: cs := by
  rw [skipSpace, List.dropWhile_cons, if_neg (by rw [h]; decide)]

theorem scanValue_quote (s : String) :
    scanValue (fuel + 1) (quote s ++ rest) = some (.str (some s), rest) := by
  rw [scanValue, quote, List.append_assoc, List.cons_append, skipSpace_cons (by decide)]
  simp [scanString_quote]

/-- What may stand first in an integer. -/
def Opens (c : Char) : Prop := Numeral.isDigit c = true ∨ c = '-'

theorem toNat_of_opens (h : Opens c) : 45 ≤ c.toNat ∧ c.toNat ≤ 57 := by
  rcases h with h | rfl
  · simp [Numeral.isDigit, Char.le_def, UInt32.le_iff_toNat_le] at h
    omega
  · decide

theorem intChars_eq_cons (n : Int) : ∃ c cs, intChars n = c :: cs ∧ Opens c := by
  cases n with
  | ofNat n =>
    obtain ⟨c, ds, hds, hc⟩ := Numeral.toDigits_eq_cons n
    exact ⟨c, ds, hds, .inl hc⟩
  | negSucc n => exact ⟨'-', _, rfl, .inr rfl⟩

theorem not_isSpace_of_opens (h : Opens c) : isSpace c = false := by
  have hn := toNat_of_opens h
  rw [Bool.eq_false_iff]
  intro hs
  simp only [isSpace, Bool.or_eq_true, beq_iff_eq] at hs
  rcases hs with ((rfl | rfl) | rfl) | rfl <;> revert hn <;> decide

theorem scanValue_numeral (h : Opens c) :
    scanValue (fuel + 1) (c :: cs) =
      (Numeral.scan (c :: cs)).map fun (l, rest) => (.num l.value?, rest) := by
  have hn := toNat_of_opens h
  rw [scanValue, skipSpace_cons (not_isSpace_of_opens h)]
  split
  all_goals first
    | next he => exact absurd hn (by rw [(List.cons.inj he).1]; decide)
    | rfl

theorem scanValue_int {n : Int} (h : Json.Integral (.int n)) (hr : Closes rest) :
    scanValue (fuel + 1) (intChars n ++ rest) = some (.num (some (.int n)), rest) := by
  obtain ⟨c, cs, hcs, hc⟩ := intChars_eq_cons n
  have hscan := Numeral.scan_intChars n hr
  have hv := Numeral.value?_ofInt h.1 h.2
  rw [hcs, List.cons_append] at hscan
  rw [hcs, List.cons_append, scanValue_numeral hc, hscan, Option.map_some]
  dsimp only
  rw [hv]

/-- A value starts with a character that no reader of brackets takes for its own. -/
theorem compactChars_eq_cons (v : Json) :
    v.Integral → ∃ c cs, compactChars v = c :: cs ∧ isSpace c = false ∧ c ≠ ']' := by
  intro h
  cases v with
  | null => exact ⟨'n', _, by rw [compactChars], by decide, by decide⟩
  | bool b => cases b <;> exact ⟨_, _, by rw [compactChars], by decide, by decide⟩
  | int n =>
    obtain ⟨c, cs, hcs, hc⟩ := intChars_eq_cons n
    refine ⟨c, cs, by rw [compactChars, hcs], not_isSpace_of_opens hc, ?_⟩
    have := toNat_of_opens hc
    rintro rfl
    revert this
    decide
  | float x => exact h.elim
  | str s => exact ⟨'"', _, by rw [compactChars, quote, List.cons_append], by decide, by decide⟩
  | arr items => cases items <;> exact ⟨'[', _, by simp [compactChars]; rfl, by decide, by decide⟩
  | obj members =>
    cases members <;> exact ⟨'\x7b', _, by simp [compactChars]; rfl, by decide, by decide⟩

/-! ## Whole values -/

theorem closes_nil : Closes [] := nofun

theorem closes_items (items : List Json) (rest : List Char) :
    Closes (compactItems items ++ rest) := by
  intro c hc
  cases items <;> rw [compactItems] at hc <;> cases hc <;> simp

theorem closes_members (members : List (String × Json)) (rest : List Char) :
    Closes (compactMembers members ++ rest) := by
  intro c hc
  cases members <;> rw [compactMembers] at hc <;> cases hc <;> simp

theorem scanValue_bracket (hs : isSpace c = false) (hc : c ≠ ']') :
    scanValue (fuel + 1) ('[' :: c :: cs) =
      (scanItems fuel (c :: cs)).map fun (items, rest) => (.arr items, rest) := by
  simp [scanValue, skipSpace_cons (c := '[') rfl, skipSpace_cons hs, hc]

theorem scanValue_brace (k : String) :
    scanValue (fuel + 1) ('\x7b' :: (quote k ++ cs)) =
      (scanMembers fuel (quote k ++ cs)).map fun (members, rest) => (.obj members, rest) := by
  simp [scanValue, quote, skipSpace_cons (c := '\x7b') rfl, skipSpace_cons (c := '"') rfl]

theorem scanItems_last {t : Tree} (h : scanValue fuel cs = some (t, ']' :: rest)) :
    scanItems (fuel + 1) cs = some ([t], rest) := by
  simp [scanItems, h, skipSpace_cons (c := ']') rfl]

theorem scanItems_next {t : Tree} (h : scanValue fuel cs = some (t, ',' :: r)) :
    scanItems (fuel + 1) cs = (scanItems fuel r).map fun (items, rest) => (t :: items, rest) := by
  simp [scanItems, h, skipSpace_cons (c := ',') rfl]

theorem scanMembers_last {k : String} {t : Tree}
    (h : scanValue fuel cs = some (t, '\x7d' :: rest)) :
    scanMembers (fuel + 1) (quote k ++ ':' :: cs) = some ([(some k, t)], rest) := by
  simp [scanMembers, quote, scanString_quote, h, skipSpace_cons (c := '"') rfl,
    skipSpace_cons (c := ':') rfl, skipSpace_cons (c := '\x7d') rfl]

theorem scanMembers_next {k : String} {t : Tree} (h : scanValue fuel cs = some (t, ',' :: r)) :
    scanMembers (fuel + 1) (quote k ++ ':' :: cs) =
      (scanMembers fuel r).map fun (members, rest) => ((some k, t) :: members, rest) := by
  simp [scanMembers, quote, scanString_quote, h, skipSpace_cons (c := '"') rfl,
    skipSpace_cons (c := ':') rfl, skipSpace_cons (c := ',') rfl]

mutual

theorem scanValue_compactChars : ∀ (v : Json) (fuel : Nat) {rest : List Char}, v.Integral →
    2 * (compactChars v).length ≤ fuel → Closes rest →
    scanValue (fuel + 1) (compactChars v ++ rest) = some (v.toTree, rest)
  | .null, _, _, _, _, _ => by simp [compactChars, scanValue, skipSpace_cons, isSpace, Json.toTree]
  | .bool true, _, _, _, _, _ => by
    simp [compactChars, scanValue, skipSpace_cons, isSpace, Json.toTree]
  | .bool false, _, _, _, _, _ => by
    simp [compactChars, scanValue, skipSpace_cons, isSpace, Json.toTree]
  | .int n, _, _, h, _, hr => by rw [compactChars, scanValue_int h hr, Json.toTree]
  | .float _, _, _, h, _, _ => h.elim
  | .str s, _, _, _, _, _ => by rw [compactChars, scanValue_quote, Json.toTree]
  | .arr [], _, _, _, _, _ => by
    simp [compactChars, scanValue, skipSpace_cons, isSpace, Json.toTree, toTreeItems]
  | .arr (v :: items), fuel, rest, h, hf, _ => by
    obtain ⟨c, cs, hcs, hs, hc⟩ := compactChars_eq_cons v h.1
    rw [compactChars, List.length_append, List.length_cons] at hf
    obtain ⟨room, rfl⟩ : ∃ room, fuel = room + 2 := ⟨fuel - 2, by omega⟩
    have hv := scanValue_compactChars v room h.1 (by omega) (closes_items items rest)
    have hitems := scanItems_compactItems items h.2 (by omega) hv
    rw [hcs, List.cons_append] at hitems
    rw [compactChars, List.append_assoc, List.cons_append, hcs, List.cons_append,
      scanValue_bracket hs hc, hitems, Json.toTree]
    rfl
  | .obj [], _, _, _, _, _ => by
    simp [compactChars, scanValue, skipSpace_cons, isSpace, Json.toTree, toTreeMembers]
  | .obj ((k, v) :: members), fuel, rest, h, hf, _ => by
    simp only [compactChars, List.length_append, List.length_cons] at hf
    obtain ⟨room, rfl⟩ : ∃ room, fuel = room + 2 := ⟨fuel - 2, by omega⟩
    have hv := scanValue_compactChars v room h.1 (by omega) (closes_members members rest)
    have hmembers := scanMembers_compactMembers members k h.2 (by omega) hv
    simp only [compactChars, List.append_assoc, List.cons_append]
    rw [scanValue_brace, hmembers, Json.toTree]
    rfl

theorem scanItems_compactItems : ∀ (items : List Json) {fuel : Nat} {t : Tree}
    {cs rest : List Char}, IntegralItems items → 2 * (compactItems items).length ≤ fuel →
    scanValue fuel cs = some (t, compactItems items ++ rest) →
    scanItems (fuel + 1) cs = some (t :: toTreeItems items, rest)
  | [], _, _, _, _, _, _, ht => scanItems_last ht
  | v :: items, fuel, t, cs, rest, h, hf, ht => by
    rw [compactItems, List.length_append, List.length_cons] at hf
    obtain ⟨room, rfl⟩ : ∃ room, fuel = room + 2 := ⟨fuel - 2, by omega⟩
    have hv := scanValue_compactChars v room h.1 (by omega) (closes_items items rest)
    have hitems := scanItems_compactItems items h.2 (by omega) hv
    rw [compactItems, List.append_assoc, List.cons_append] at ht
    rw [scanItems_next ht, hitems]
    rfl

theorem scanMembers_compactMembers : ∀ (members : List (String × Json)) (k : String) {fuel : Nat}
    {t : Tree} {cs rest : List Char}, IntegralMembers members →
    2 * (compactMembers members).length ≤ fuel →
    scanValue fuel cs = some (t, compactMembers members ++ rest) →
    scanMembers (fuel + 1) (quote k ++ ':' :: cs) =
      some ((some k, t) :: toTreeMembers members, rest)
  | [], _, _, _, _, _, _, _, ht => scanMembers_last ht
  | (l, v) :: members, k, fuel, t, cs, rest, h, hf, ht => by
    simp only [compactMembers, List.length_append, List.length_cons] at hf
    obtain ⟨room, rfl⟩ : ∃ room, fuel = room + 2 := ⟨fuel - 2, by omega⟩
    have hv := scanValue_compactChars v room h.1 (by omega) (closes_members members rest)
    have hmembers := scanMembers_compactMembers members l h.2 (by omega) hv
    simp only [compactMembers, List.append_assoc, List.cons_append] at ht
    rw [scanMembers_next ht, hmembers]
    rfl

end

/-- The text of a value is read as the tree that writes it. -/
theorem parse?_compact {v : Json} (h : v.Integral) : parse? v.compact.toList = some v.toTree := by
  have hscan := scanValue_compactChars v (2 * (compactChars v).length + 1) h (by omega) closes_nil
  rw [List.append_nil] at hscan
  rw [Json.compact, String.toList_ofList, parse?, hscan]
  rfl

end

end Tree

end Switchboard
