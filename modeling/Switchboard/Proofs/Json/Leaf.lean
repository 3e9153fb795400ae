import Mathlib.Data.Char
import Mathlib.Data.List.TakeWhile
import Switchboard.Base64
import Switchboard.Json.Printer
import Switchboard.Json.Tree

/-!
# Bytes, strings and integers that are read back

Whatever follows in the text, a quoted string is read up to its closing quote (`scanString_quote`).
An integer has no end of its own, so it is read back only where the text ends or goes on with what
may follow a value inside brackets (`scan_intChars`).
-/

namespace Switchboard

/-! ## Base64 -/

namespace Base64

section
variable {a b c d : Nat}

theorem full_symbol (ha : a < 64) (hb : b < 64) (hc : c < 64) (hd : d < 64) :
    full (symbol a) (symbol b) (symbol c) (symbol d) =
      let n := ((a * 64 + b) * 64 + c) * 64 + d
      some [UInt8.ofNat (n / 65536), UInt8.ofNat (n / 256 % 256), UInt8.ofNat (n % 256)] := by
  simp [full, sextet_symbol, ha, hb, hc, hd]

theorem two_symbol (ha : a < 64) (hb : b < 64) (hc : c < 64) :
    two (symbol a) (symbol b) (symbol c) =
      let n := (a * 64 + b) * 64 + c
      if n % 4 = 0 then some [UInt8.ofNat (n / 1024), UInt8.ofNat (n / 4 % 256)] else none := by
  simp [two, sextet_symbol, ha, hb, hc]

theorem one_symbol (ha : a < 64) (hb : b < 64) :
    one (symbol a) (symbol b) =
      let n := a * 64 + b
      if n % 16 = 0 then some [UInt8.ofNat (n / 16)] else none := by
  simp [one, sextet_symbol, ha, hb]

end

theorem symbol_ne_pad : ∀ n < 64, symbol n ≠ '=' := by decide

theorem last_two {x y z : Char} (h : z ≠ '=') : last [x, y, z, '='] = two x y z := by
  rw [last]
  intro hz
  exact absurd hz h

theorem last_full {x y z w : Char} (h : w ≠ '=') : last [x, y, z, w] = full x y z w := by
  rw [last]
  all_goals
    intros
    exact absurd ‹w = '='› h

theorem decode?_group (x y z w : Char) : decode? [x, y, z, w] = last [x, y, z, w] := by
  rw [decode?]
  nofun

theorem encode_eq_nil : ∀ {bytes}, encode bytes = [] → bytes = []
  | [], _ => rfl
  | [_], h => by cases h
  | [_, _], h => by cases h
  | _ :: _ :: _ :: _, h => by cases h

theorem ofNat_eq {n : Nat} {b : UInt8} (h : n = b.toNat) : UInt8.ofNat n = b := by
  rw [h, UInt8.ofNat_toNat]

/-- A whole group of symbols gives back its bytes. -/
theorem full_group (a b c : UInt8) :
    let n := (a.toNat * 256 + b.toNat) * 256 + c.toNat
    full (symbol (n / 262144)) (symbol (n / 4096 % 64)) (symbol (n / 64 % 64)) (symbol (n % 64)) =
      some [a, b, c] := by
  have ha := a.toNat_lt
  have hb := b.toNat_lt
  have hc := c.toNat_lt
  intro n
  rw [full_symbol (by omega) (by omega) (by omega) (by omega)]
  dsimp only
  rw [ofNat_eq (b := a) (by omega), ofNat_eq (b := b) (by omega), ofNat_eq (b := c) (by omega)]

/-- Bytes of any number are read back from their text. -/
theorem decode?_encode : ∀ bytes, decode? (encode bytes) = some bytes
  | [] => rfl
  | [a] => by
    have ha := a.toNat_lt
    rw [encode, decode?_group, last, one_symbol (by omega) (by omega)]
    dsimp only
    rw [if_pos (by omega), ofNat_eq (b := a) (by omega)]
  | [a, b] => by
    have ha := a.toNat_lt
    have hb := b.toNat_lt
    rw [encode, decode?_group, last_two (symbol_ne_pad _ (by omega)),
      two_symbol (by omega) (by omega) (by omega)]
    dsimp only
    rw [if_pos (by omega), ofNat_eq (b := a) (by omega), ofNat_eq (b := b) (by omega)]
  | a :: b :: c :: rest => by
    rw [encode]
    cases he : encode rest with
    | nil =>
      rw [decode?_group, last_full (symbol_ne_pad _ (by omega)), full_group, encode_eq_nil he]
    | cons e symbols => rw [decode?, full_group, ← he, decode?_encode rest]; rfl

end Base64

/-! ## Strings -/

namespace Tree

open Json (escape quote hexDigit)

theorem hexValue_hexDigit : ∀ n < 16, hexValue (hexDigit n) = some n := by decide

theorem hex4_hexDigit {n : Nat} (h : n < 0x20) :
    hex4 '0' '0' (hexDigit (n / 16)) (hexDigit (n % 16)) = some n := by
  have hzero : hexValue '0' = some 0 := by decide
  simp only [hex4, hzero, hexValue_hexDigit _ (show n / 16 < 16 by omega),
    hexValue_hexDigit _ (show n % 16 < 16 by omega), Option.bind_eq_bind, Option.bind_some,
    Option.pure_def]
  congr 1
  omega

theorem scanString_escape (acc : List Char) (c : Char) (rest : List Char) :
    scanString ⟨some acc, none⟩ (escape c ++ rest) = scanString ⟨some (c :: acc), none⟩ rest := by
  unfold escape
  split_ifs with hquote hback h1 h2 h3 h4 h5 hlow
  · subst hquote; rfl
  · subst hback; rfl
  · subst h1; rfl
  · subst h2; rfl
  · subst h3; rfl
  · subst h4; rfl
  · subst h5; rfl
  · have hhigh : isHigh c.toNat = false := by simp [isHigh]; omega
    have hlow' : isLow c.toNat = false := by simp [isLow]; omega
    simp [scanString, hex4_hexDigit hlow, Partial.pushUnit, hhigh, hlow']
  · rw [List.singleton_append, scanString.eq_def]
    split
    · next h => cases h; exact absurd rfl hquote
    · next h => cases h; exact absurd rfl hback
    · next h => cases h; exact absurd rfl hback
    · next h =>
      cases h
      rw [if_neg (not_or.2 ⟨hlow, hback⟩)]
      rfl
    · next h => cases h

theorem scanString_escaped (acc cs rest : List Char) :
    scanString ⟨some acc, none⟩ (cs.flatMap escape ++ '"' :: rest) =
      some (some (String.ofList (acc.reverse ++ cs)), rest) := by
  induction cs generalizing acc with
  | nil => simp [scanString, Partial.finish]
  | cons c cs ih =>
    rw [List.flatMap_cons, List.append_assoc, scanString_escape, ih, List.reverse_cons,
      List.append_assoc, List.singleton_append]

/-- A quoted string is read back, whatever comes after it. -/
theorem scanString_quote (s : String) (rest : List Char) :
    scanString .start (s.toList.flatMap escape ++ '"' :: rest) = some (some s, rest) := by
  rw [Partial.start, scanString_escaped, List.reverse_nil, List.nil_append, String.ofList_toList]

/-! ## Integers -/

/-- The text ends here, or goes on with what stands after a value inside brackets. -/
def Closes (cs : List Char) : Prop := ∀ c, cs.head? = some c → c = ',' ∨ c = ']' ∨ c = '\x7d'

end Tree

namespace Numeral

open Json (intChars)

section
variable {n : Nat} {c : Char} {cs ds rest : List Char}

theorem isDigit_of_mem (h : c ∈ Nat.toDigits 10 n) : isDigit c = true := by
  have := Nat.isDigit_of_mem_toDigits (by decide) (by decide) h
  simpa [isDigit, Char.isDigit, Char.le_def] using this

theorem natOf_toDigits (n : Nat) : natOf (Nat.toDigits 10 n) = n :=
  Nat.ofDigitChars_toDigits (by decide) (by decide)

theorem takeDigits_append (hd : ∀ c ∈ ds, isDigit c = true)
    (hr : ∀ c, rest.head? = some c → isDigit c = false) :
    takeDigits (ds ++ rest) = (ds, rest) := by
  have hstop : rest.takeWhile isDigit = [] ∧ rest.dropWhile isDigit = rest := by
    cases rest with
    | nil => exact ⟨rfl, rfl⟩
    | cons c rest => simp [hr c rfl]
  rw [takeDigits, List.takeWhile_append_of_pos hd, List.dropWhile_append_of_pos hd, hstop.1,
    hstop.2, List.append_nil]

theorem eq_zero_of_digitChar : ∀ n < 10, n.digitChar = '0' → n = 0 := by decide

theorem toDigits_eq_cons (n : Nat) : ∃ c ds, Nat.toDigits 10 n = c :: ds ∧ isDigit c = true := by
  obtain ⟨c, ds, h⟩ := List.exists_cons_of_ne_nil (Nat.toDigits_ne_nil (b := 10) (n := n))
  exact ⟨c, ds, h, isDigit_of_mem (h ▸ List.mem_cons_self)⟩

/-- Only zero is written with a zero in front. -/
theorem eq_zero_of_head (h : Nat.toDigits 10 n = '0' :: ds) : n = 0 := by
  induction n using Nat.strongRecOn generalizing ds with
  | ind n ih =>
    rcases Nat.lt_or_ge n 10 with hn | hn
    · rw [Nat.toDigits_of_lt_base hn] at h
      exact eq_zero_of_digitChar n hn (List.cons.inj h).1
    · obtain ⟨c, front, hfront, -⟩ := toDigits_eq_cons (n / 10)
      rw [Nat.toDigits_of_base_le (by decide) hn, hfront] at h
      rw [(List.cons.inj h).1] at hfront
      have := ih (n / 10) (by omega) hfront
      omega

theorem scanWhole_toDigits (n : Nat) (hr : ∀ c, rest.head? = some c → isDigit c = false) :
    scanWhole (Nat.toDigits 10 n ++ rest) = some (Nat.toDigits 10 n, rest) := by
  rw [scanWhole, takeDigits_append (fun _ => isDigit_of_mem) hr]
  split
  · next h => exact absurd (Prod.mk.inj h).1 Nat.toDigits_ne_nil
  · next h => rw [← (Prod.mk.inj h).1, ← (Prod.mk.inj h).2]
  · next ds _ hne h =>
    have hz : n = 0 := eq_zero_of_head (Prod.mk.inj h).1
    subst hz
    cases h
    exact absurd rfl hne
  · next h => rw [(Prod.mk.inj h).1, (Prod.mk.inj h).2]

theorem not_digit_of_closes (h : Tree.Closes rest) (c : Char) (hc : rest.head? = some c) :
    isDigit c = false := by
  rcases h c hc with rfl | rfl | rfl <;> decide

theorem scanFraction_of_closes (h : Tree.Closes rest) :
    scanFraction rest = some (false, [], rest) := by
  unfold scanFraction
  split
  · next cs => exact absurd (h '.' rfl) (by decide)
  · rfl

theorem scanExponent_of_closes (h : Tree.Closes rest) : scanExponent rest = some (none, rest) := by
  cases rest with
  | nil => rfl
  | cons c cs =>
    have hmark : (c == 'e' || c == 'E') = false := by rcases h c rfl with rfl | rfl | rfl <;> decide
    simp [scanExponent, hmark]

/-- The literal that an integer is written as. -/
def ofInt (n : Int) : Numeral := ⟨decide (n < 0), Nat.toDigits 10 n.natAbs, [], none, false⟩

/-- An integer is read back where a closing text follows. -/
theorem scan_intChars (n : Int) (h : Tree.Closes rest) :
    scan (intChars n ++ rest) = some (ofInt n, rest) := by
  cases n with
  | ofNat n =>
    obtain ⟨c, ds, hds, hc⟩ := toDigits_eq_cons n
    have hsign : c ≠ '-' := by
      rintro rfl
      revert hc
      decide
    have hw := scanWhole_toDigits n (not_digit_of_closes h)
    rw [hds, List.cons_append] at hw
    simp [scan, intChars, hds, hsign, hw, scanFraction_of_closes h, scanExponent_of_closes h, ofInt]
  | negSucc n =>
    have hw := scanWhole_toDigits (n + 1) (not_digit_of_closes h)
    simp [scan, intChars, hw, scanFraction_of_closes h, scanExponent_of_closes h, ofInt]

theorem value?_ofInt {n : Int} (hlow : -(Nat.pow 2 63) ≤ n) (hhigh : n < Nat.pow 2 64) :
    (ofInt n).value? = some (.int n) := by
  have hl : Nat.pow 2 63 = 9223372036854775808 := by decide
  have hh : Nat.pow 2 64 = 18446744073709551616 := by decide
  simp only [ofInt, value?, natOf_toDigits, Bool.false_or, Option.isSome_none, maxSignificand,
    Bool.false_eq_true, if_false, hl, hh, decide_eq_true_eq] at hlow hhigh ⊢
  split_ifs with h1 h2 h3
  · congr 2; omega
  · omega
  · congr 2; omega
  · omega

end

end Numeral

end Switchboard
