import Mathlib.Data.List.TakeWhile
import Switchboard.Toml.Document

/-!
# Scanners that look ahead by one character

What a scanner takes from the front of a text depends on what it takes and on the first character
after it, and not on the rest (`Alike`). So a text may be exchanged behind what was read. Gaps,
keys, atoms and the four kinds of strings are gone through one by one; the strings in one pair of
quotes do not even look at the next character.
-/

namespace Switchboard.Toml

/-- The texts start with the same character, and a carriage return is followed by the same. -/
def Alike (r s : List Char) : Prop :=
  r.head? = s.head? ∧ (r.head? = some '\r' → r.tail.head? = s.tail.head?)

section
variable {c d : Char} {cs r s t u rest : List Char}

theorem Alike.refl (r : List Char) : Alike r r := ⟨rfl, fun _ => rfl⟩

theorem Alike.append (h : Alike r s) : ∀ u, Alike (u ++ r) (u ++ s)
  | [] => h
  | [_] => ⟨rfl, fun _ => h.1⟩
  | _ :: _ :: _ => ⟨rfl, fun _ => rfl⟩

theorem Alike.cons (h : Alike r s) (c : Char) : Alike (c :: r) (c :: s) := h.append [c]

theorem Alike.trans (h : Alike r s) (h' : Alike s t) : Alike r t :=
  ⟨h.1.trans h'.1, fun hr => (h.2 hr).trans (h'.2 (h.1 ▸ hr))⟩

/-- Texts that agree up to some character that is not a carriage return are alike. -/
theorem alike_append (hc : c ≠ '\r') (u r s : List Char) : Alike (u ++ c :: r) (u ++ c :: s) := by
  have hlike : Alike (c :: r) (c :: s) := ⟨rfl, fun h => absurd (Option.some.inj h) hc⟩
  exact hlike.append u

/-- Texts with the same two characters in front are alike. -/
theorem alike_of_le (h : 2 ≤ u.length) (r s : List Char) : Alike (u ++ r) (u ++ s) := by
  match u, h with
  | _ :: _ :: _, _ => exact ⟨rfl, fun _ => rfl⟩

/-- The scanner takes `a` from the front of a text, down to `rest`, and would so before anything
that is like `rest`. -/
def Reads {α : Type} (scan : List Char → Option (α × List Char)) (cs : List Char) (a : α)
    (rest : List Char) : Prop :=
  ∃ u, cs = u ++ rest ∧ ∀ r, Alike rest r → scan (u ++ r) = some (a, r)

/-- The same of a scanner that only skips. -/
def Skips (skip : List Char → Option (List Char)) (cs rest : List Char) : Prop :=
  ∃ u, cs = u ++ rest ∧ ∀ r, Alike rest r → skip (u ++ r) = some r

theorem Skips.step {skip next : List Char → Option (List Char)} {w : List Char}
    (h : Skips next cs rest) (hw : ∀ r, skip (w ++ r) = next r) : Skips skip (w ++ cs) rest := by
  obtain ⟨u, rfl, hu⟩ := h
  exact ⟨w ++ u, (List.append_assoc ..).symm, fun r hr => by rw [List.append_assoc, hw, hu r hr]⟩

/-! ## Gaps -/

/-- What the characters of one kind at the front are does not depend on what follows them. -/
theorem takeWhile_local (p : Char → Bool) (h : (cs.dropWhile p).head? = r.head?) :
    (cs.takeWhile p ++ r).takeWhile p = cs.takeWhile p ∧
      (cs.takeWhile p ++ r).dropWhile p = r := by
  have hfront : ∀ c ∈ cs.takeWhile p, p c = true := fun c hc => List.mem_takeWhile_imp hc
  rw [List.takeWhile_append_of_pos hfront, List.dropWhile_append_of_pos hfront]
  cases r with
  | nil => simp
  | cons c r =>
    have hc : p c = false := by
      have := List.head?_dropWhile_not p cs
      rw [h] at this
      simpa using this
    rw [List.takeWhile_cons_of_neg (by simp [hc]), List.dropWhile_cons_of_neg (by simp [hc])]
    simp

theorem skipBlanks_reads (cs : List Char) : ∃ u, cs = u ++ skipBlanks cs ∧
    ∀ r, (skipBlanks cs).head? = r.head? → skipBlanks (u ++ r) = r :=
  ⟨cs.takeWhile isBlank, (List.takeWhile_append_dropWhile).symm, fun _ hr =>
    (takeWhile_local isBlank hr).2⟩

theorem isText_ne (h : isText c = true) : c ≠ '\n' ∧ c ≠ '\r' := by
  constructor <;> rintro rfl <;> revert h <;> decide

theorem isBlank_ne (h : isBlank c = true) : c ≠ '\n' ∧ c ≠ '\r' := by
  constructor <;> rintro rfl <;> revert h <;> decide

theorem hash_ne : '#' ≠ '\r' := by decide

theorem skipGap_cons {comment : Bool} (hn : c ≠ '\n') (hr : c = '\r' → cs.head? ≠ some '\n') :
    skipGap comment (c :: cs) =
      if comment then if isText c then skipGap true cs else none
      else if isBlank c then skipGap false cs
      else if c = '#' then skipGap true cs
      else some (c :: cs) := by
  rw [skipGap]
  · exact fun h => absurd h hn
  · rintro rest h rfl
    exact hr h rfl

theorem skipGap_skips {comment : Bool} (h : skipGap comment cs = some rest) :
    Skips (skipGap comment) cs rest := by
  fun_induction skipGap comment cs with
  | case1 comment =>
    cases h
    refine ⟨[], rfl, fun r hr => ?_⟩
    rw [List.head?_eq_none_iff.1 hr.1.symm]
    rfl
  | case2 comment cs ih => exact (ih h).step (w := ['\n']) fun r => rfl
  | case3 comment cs ih => exact (ih h).step (w := ['\r', '\n']) fun r => rfl
  | case4 c cs hn hr ht ih =>
    refine (ih h).step (w := [c]) fun r => ?_
    rw [List.singleton_append,
      skipGap_cons (isText_ne ht).1 fun hc => absurd hc (isText_ne ht).2, if_pos rfl, if_pos ht]
  | case5 => cases h
  | case6 comment c cs hn hr hc hb ih =>
    refine (ih h).step (w := [c]) fun r => ?_
    rw [List.singleton_append,
      skipGap_cons (isBlank_ne hb).1 fun hc => absurd hc (isBlank_ne hb).2, if_neg hc, if_pos hb]
  | case7 comment cs hc hn hr hb ih =>
    refine (ih h).step (w := ['#']) fun r => ?_
    rw [List.singleton_append, skipGap_cons (by decide) fun h => absurd h hash_ne, if_neg hc,
      if_neg hb, if_pos rfl]
  | case8 comment c cs hn hr hc hb hhash =>
    cases h
    refine ⟨[], rfl, fun r hlike => ?_⟩
    obtain ⟨r, rfl⟩ := List.head?_eq_some_iff.1 hlike.1.symm
    rw [List.nil_append, skipGap_cons hn, if_neg hc, if_neg hb, if_neg hhash]
    rintro rfl hnl
    obtain ⟨rest, hrest⟩ := List.head?_eq_some_iff.1 ((hlike.2 rfl).trans hnl)
    exact hr rest rfl hrest

theorem skipLine_cons {comment : Bool} (hn : c ≠ '\n') (hr : c = '\r' → cs.head? ≠ some '\n') :
    skipLine comment (c :: cs) =
      if comment then if isText c then skipLine true cs else none
      else if isBlank c then skipLine false cs
      else if c = '#' then skipLine true cs
      else none := by
  rw [skipLine]
  · exact fun h => absurd h hn
  · rintro rest h rfl
    exact hr h rfl

theorem skipLine_skips {comment : Bool} (h : skipLine comment cs = some rest) :
    Skips (skipLine comment) cs rest := by
  fun_induction skipLine comment cs with
  | case1 comment =>
    cases h
    refine ⟨[], rfl, fun r hr => ?_⟩
    rw [List.head?_eq_none_iff.1 hr.1.symm]
    rfl
  | case2 comment cs =>
    cases h
    exact ⟨['\n'], rfl, fun r _ => rfl⟩
  | case3 comment cs =>
    cases h
    exact ⟨['\r', '\n'], rfl, fun r _ => rfl⟩
  | case4 c cs hn hr ht ih =>
    refine (ih h).step (w := [c]) fun r => ?_
    rw [List.singleton_append,
      skipLine_cons (isText_ne ht).1 fun hc => absurd hc (isText_ne ht).2, if_pos rfl, if_pos ht]
  | case5 => cases h
  | case6 comment c cs hn hr hc hb ih =>
    refine (ih h).step (w := [c]) fun r => ?_
    rw [List.singleton_append,
      skipLine_cons (isBlank_ne hb).1 fun hc => absurd hc (isBlank_ne hb).2, if_neg hc, if_pos hb]
  | case7 comment cs hc hn hr hb ih =>
    refine (ih h).step (w := ['#']) fun r => ?_
    rw [List.singleton_append, skipLine_cons (by decide) fun h => absurd h hash_ne, if_neg hc,
      if_neg hb, if_pos rfl]
  | case8 => cases h

/-! ## Strings in one pair of quotes -/

theorem push_eq_some {a : Option Char} {q : Option (List Char × List Char)} :
    push a q = some (s, rest) ↔ ∃ d t, a = some d ∧ q = some (t, rest) ∧ s = d :: t := by
  cases a with
  | none => simp [push]
  | some c =>
    cases q with
    | none => simp [push]
    | some q =>
      obtain ⟨t, r⟩ := q
      simp only [push, Option.some.injEq, Prod.mk.injEq]
      constructor
      · rintro ⟨rfl, rfl⟩
        exact ⟨c, t, rfl, ⟨rfl, rfl⟩, rfl⟩
      · rintro ⟨_, _, rfl, ⟨rfl, rfl⟩, rfl⟩
        exact ⟨rfl, rfl⟩

/-- One more character in front of a string. -/
theorem Reads.push {scan : List Char → Option (List Char × List Char)} {w : List Char}
    (h : Reads scan cs s rest) (hw : ∀ r, scan (w ++ r) = Toml.push (some c) (scan r)) :
    Reads scan (w ++ cs) (c :: s) rest := by
  obtain ⟨u, rfl, hu⟩ := h
  refine ⟨w ++ u, (List.append_assoc ..).symm, fun r hr => ?_⟩
  rw [List.append_assoc, hw, hu r hr]
  rfl

theorem escapeChar_ne (h : escapeChar c = some d) : c ≠ 'x' ∧ c ≠ 'u' ∧ c ≠ 'U' := by
  refine ⟨?_, ?_, ?_⟩ <;> rintro rfl <;> cases h

theorem quoted?_escape (h : escapeChar c = some d) :
    quoted? ('\\' :: c :: cs) = push (escapeChar c) (quoted? cs) := by
  obtain ⟨hx, hu, hU⟩ := escapeChar_ne h
  rw [quoted?]
  · exact fun _ _ _ hc => absurd hc hx
  · exact fun _ _ _ _ _ hc => absurd hc hu
  · exact fun _ _ _ _ _ _ _ _ _ hc => absurd hc hU

theorem quoted?_char (hq : c ≠ '"') (hb : c ≠ '\\') :
    quoted? (c :: cs) = if isText c then push (some c) (quoted? cs) else none := by
  rw [quoted?]
  · exact hq
  all_goals
    intros
    exact absurd ‹c = '\\'› hb

theorem quoted?_reads (h : quoted? cs = some (s, rest)) : Reads quoted? cs s rest := by
  fun_induction quoted? cs generalizing s with
  | case1 cs =>
    cases h
    exact ⟨['"'], rfl, fun r _ => rfl⟩
  | case2 a b cs ih =>
    obtain ⟨d, t, hd, ht, rfl⟩ := push_eq_some.1 h
    exact (ih ht).push (w := ['\\', 'x', a, b]) fun r => by rw [← hd]; rfl
  | case3 a b c d cs ih =>
    obtain ⟨e, t, he, ht, rfl⟩ := push_eq_some.1 h
    exact (ih ht).push (w := ['\\', 'u', a, b, c, d]) fun r => by rw [← he]; rfl
  | case4 a b c d e f g k cs ih =>
    obtain ⟨x, t, hx, ht, rfl⟩ := push_eq_some.1 h
    exact (ih ht).push (w := ['\\', 'U', a, b, c, d, e, f, g, k]) fun r => by rw [← hx]; rfl
  | case5 c cs _ _ _ ih =>
    obtain ⟨d, t, hd, ht, rfl⟩ := push_eq_some.1 h
    exact (ih ht).push (w := ['\\', c]) fun r => by rw [← hd]; exact quoted?_escape hd
  | case6 c cs hq _ _ _ hb ht ih =>
    obtain ⟨d, t, hd, ht', rfl⟩ := push_eq_some.1 h
    have hback : c ≠ '\\' := by
      rintro rfl
      cases cs with
      | nil => cases ht'
      | cons e cs => exact hb e cs rfl rfl
    refine (ih ht').push (w := [c]) fun r => ?_
    rw [List.singleton_append, quoted?_char hq hback, if_pos ht, hd]
  | case7 => cases h
  | case8 => cases h

theorem literal?_reads (h : literal? cs = some (s, rest)) : Reads literal? cs s rest := by
  fun_induction literal? cs generalizing s with
  | case1 cs =>
    cases h
    exact ⟨['\''], rfl, fun r _ => rfl⟩
  | case2 c cs hq ht ih =>
    obtain ⟨d, t, hd, ht', rfl⟩ := push_eq_some.1 h
    refine (ih ht').push (w := [c]) fun r => ?_
    rw [List.singleton_append, literal?, if_pos ht, hd]
    exact hq
  | case3 => cases h
  | case4 => cases h

/-! ## Strings over several lines -/

theorem trimLines_cons (hn : c ≠ '\n') (hr : c = '\r' → cs.head? ≠ some '\n') :
    trimLines (c :: cs) = if isBlank c then trimLines cs else c :: cs := by
  rw [trimLines]
  · exact fun h => absurd h hn
  · rintro rest h rfl
    exact hr h rfl

theorem trimLines_skips (cs : List Char) :
    Skips (fun cs => some (trimLines cs)) cs (trimLines cs) := by
  fun_induction trimLines cs with
  | case1 cs ih => exact ih.step (w := ['\n']) fun r => rfl
  | case2 cs ih => exact ih.step (w := ['\r', '\n']) fun r => rfl
  | case3 c cs hn hr hb ih =>
    refine ih.step (w := [c]) fun r => ?_
    rw [List.singleton_append,
      trimLines_cons (isBlank_ne hb).1 fun hc => absurd hc (isBlank_ne hb).2, if_pos hb]
  | case4 c cs hn hr hb =>
    refine ⟨[], rfl, fun r hlike => ?_⟩
    obtain ⟨r, rfl⟩ := List.head?_eq_some_iff.1 hlike.1.symm
    show some (trimLines (c :: r)) = some (c :: r)
    rw [trimLines_cons hn, if_neg hb]
    rintro rfl hnl
    obtain ⟨rest, hrest⟩ := List.head?_eq_some_iff.1 ((hlike.2 rfl).trans hnl)
    exact hr rest rfl hrest
  | case5 =>
    refine ⟨[], rfl, fun r hr => ?_⟩
    rw [List.head?_eq_none_iff.1 hr.1.symm]
    rfl

theorem continued?_skips (h : continued? cs = some rest) : Skips continued? cs rest := by
  obtain ⟨u, hcs, hu⟩ := skipBlanks_reads cs
  unfold continued? at h
  split at h
  · next more hmore =>
    cases h
    obtain ⟨v, hv, hlocal⟩ := trimLines_skips more
    refine ⟨u ++ '\n' :: v, ?_, fun r hr => ?_⟩
    · rw [List.append_assoc, List.cons_append, ← hv, ← hmore, ← hcs]
    · have := hu ('\n' :: (v ++ r)) (by rw [hmore]; rfl)
      rw [List.append_assoc, List.cons_append, continued?, this]
      exact hlocal r hr
  · next more hmore =>
    cases h
    obtain ⟨v, hv, hlocal⟩ := trimLines_skips more
    refine ⟨u ++ '\r' :: '\n' :: v, ?_, fun r hr => ?_⟩
    · rw [List.append_assoc, List.cons_append, List.cons_append, ← hv, ← hmore, ← hcs]
    · have := hu ('\r' :: '\n' :: (v ++ r)) (by rw [hmore]; rfl)
      rw [List.append_assoc, List.cons_append, List.cons_append, continued?, this]
      exact hlocal r hr
  · cases h

/-- A backslash before a letter does not continue a line. -/
theorem continued?_of_escape (h : escapeChar c = some d) (cs : List Char) :
    continued? (c :: cs) = none := by
  unfold escapeChar at h
  split at h <;> first | rfl | cases h

theorem continued?_ne (h : continued? (c :: cs) = some rest) : c ≠ 'x' ∧ c ≠ 'u' ∧ c ≠ 'U' := by
  refine ⟨?_, ?_, ?_⟩ <;> rintro rfl <;> cases h

theorem longQuoted?_backslash (hx : c ≠ 'x') (hu : c ≠ 'u') (hU : c ≠ 'U') :
    longQuoted? ('\\' :: c :: cs) =
      match continued? (c :: cs) with
      | some next => longQuoted? next
      | none => push (escapeChar c) (longQuoted? cs) := by
  rw [longQuoted?]
  · split
    · next h => simp only [h]
    · next h => simp only [h]
  · exact fun _ _ _ hc => absurd hc hx
  · exact fun _ _ _ _ _ hc => absurd hc hu
  · exact fun _ _ _ _ _ _ _ _ _ hc => absurd hc hU

theorem longQuoted?_char (hn : c ≠ '\n') (hr : c ≠ '\r') (hb : c ≠ '\\')
    (hq : c = '"' → ¬ ['"', '"'] <+: cs) :
    longQuoted? (c :: cs) = if isText c then push (some c) (longQuoted? cs) else none := by
  have hquotes : ∀ more, c = '"' → cs = '"' :: '"' :: more → False :=
    fun more hc hcs => hq hc ⟨more, hcs.symm⟩
  rw [longQuoted?]
  · exact fun _ hc hcs => hquotes _ hc hcs
  · exact fun _ hc hcs => hquotes _ hc hcs
  · exact fun _ hc hcs => hquotes _ hc hcs
  · exact hn
  · exact fun _ hc => absurd hc hr
  all_goals
    intros
    exact absurd ‹c = '\\'› hb

/-- A quotation mark that a text does not start with is not brought in behind it. -/
theorem Alike.no_quote (h : Alike r s) {q : Char} (hq : ∀ rest, r = q :: rest → False) :
    ∀ rest, s = q :: rest → False := by
  rintro rest rfl
  obtain ⟨more, hmore⟩ := List.head?_eq_some_iff.1 h.1
  exact hq more hmore

theorem prefix_of_append {w : List Char} (h : w <+: u ++ r) (hle : w.length ≤ u.length) : w <+: u :=
  List.prefix_of_prefix_length_le h (List.prefix_append u r) hle

/-- The closing quotes are read. -/
theorem length_of_longQuoted? (h : longQuoted? cs = some (s, rest)) :
    rest.length + 3 ≤ cs.length := by
  fun_induction longQuoted? cs generalizing s with
  | case1 | case2 | case3 => cases h; simp only [List.length_cons]; omega
  | case4 _ ih | case5 _ ih | case6 _ _ _ ih | case7 _ _ _ _ _ ih | case8 _ _ _ _ _ _ _ _ _ ih
  | case10 _ _ _ _ _ _ ih | case11 _ _ _ _ _ _ _ _ _ _ _ _ ih =>
    obtain ⟨_, _, _, ht, _⟩ := push_eq_some.1 h
    have := ih ht
    simp only [List.length_cons]
    omega
  | case9 c cs _ _ _ next hnext hlt ih =>
    have := ih h
    simp only [List.length_cons] at hlt ⊢
    omega
  | case12 => cases h
  | case13 => cases h

theorem longQuoted?_reads (h : longQuoted? cs = some (s, rest)) :
    Reads longQuoted? cs s rest := by
  fun_induction longQuoted? cs generalizing s with
  | case1 cs =>
    cases h
    exact ⟨['"', '"', '"', '"', '"'], rfl, fun r _ => by simp [longQuoted?]⟩
  | case2 cs hone =>
    cases h
    refine ⟨['"', '"', '"', '"'], rfl, fun r hr => ?_⟩
    simp only [List.cons_append, List.nil_append]
    rw [longQuoted?]
    exact hr.no_quote hone
  | case3 cs htwo hone =>
    cases h
    refine ⟨['"', '"', '"'], rfl, fun r hr => ?_⟩
    have hq := hr.no_quote hone
    simp only [List.cons_append, List.nil_append]
    rw [longQuoted?]
    · exact fun _ h => hq _ h
    · exact hq
  | case4 cs ih =>
    obtain ⟨d, t, hd, ht, rfl⟩ := push_eq_some.1 h
    exact (ih ht).push (w := ['\n']) fun r => by rw [← hd, List.singleton_append, longQuoted?]
  | case5 cs ih =>
    obtain ⟨d, t, hd, ht, rfl⟩ := push_eq_some.1 h
    exact (ih ht).push (w := ['\r', '\n']) fun r => by simp [← hd, longQuoted?]
  | case6 a b cs ih =>
    obtain ⟨d, t, hd, ht, rfl⟩ := push_eq_some.1 h
    exact (ih ht).push (w := ['\\', 'x', a, b]) fun r => by simp [← hd, longQuoted?]
  | case7 a b c d cs ih =>
    obtain ⟨e, t, he, ht, rfl⟩ := push_eq_some.1 h
    exact (ih ht).push (w := ['\\', 'u', a, b, c, d]) fun r => by simp [← he, longQuoted?]
  | case8 a b c d e f g k cs ih =>
    obtain ⟨x, t, hx, ht, rfl⟩ := push_eq_some.1 h
    exact (ih ht).push (w := ['\\', 'U', a, b, c, d, e, f, g, k]) fun r => by
      simp [← hx, longQuoted?]
  | case9 c cs _ _ _ next hnext hlt ih =>
    obtain ⟨hx, hu, hU⟩ := continued?_ne hnext
    have hlen := length_of_longQuoted? h
    obtain ⟨v, rfl, hv⟩ := ih h
    obtain ⟨w, hw, hlocal⟩ := continued?_skips hnext
    cases w with
    | nil =>
      rw [List.nil_append] at hw
      rw [hw] at hlt
      exact absurd hlt (Nat.lt_irrefl _)
    | cons e w =>
      obtain ⟨rfl, rfl⟩ := List.cons.inj hw
      refine ⟨'\\' :: c :: (w ++ v), by simp [List.append_assoc], fun r hr => ?_⟩
      rw [List.length_append] at hlen
      have hnext := hlocal (v ++ r) (alike_of_le (by omega) _ _)
      rw [List.cons_append] at hnext
      rw [List.cons_append, List.cons_append, longQuoted?_backslash hx hu hU, List.append_assoc,
        hnext]
      exact hv r hr
  | case10 c cs _ _ _ hnone ih =>
    obtain ⟨d, t, hd, ht, rfl⟩ := push_eq_some.1 h
    obtain ⟨hx, hu, hU⟩ := escapeChar_ne hd
    refine (ih ht).push (w := ['\\', c]) fun r => ?_
    rw [List.cons_append, List.singleton_append, longQuoted?_backslash hx hu hU,
      continued?_of_escape hd, hd]
  | case11 c cs _ _ hq hn hr _ _ _ hb ht ih =>
    obtain ⟨d, t, hd, ht', rfl⟩ := push_eq_some.1 h
    have hback : c ≠ '\\' := by
      rintro rfl
      cases cs with
      | nil => simp [longQuoted?] at ht'
      | cons e cs => exact hb e cs rfl rfl
    have hlen := length_of_longQuoted? ht'
    obtain ⟨u, rfl, hu⟩ := ih ht'
    rw [List.length_append] at hlen
    refine ⟨c :: u, rfl, fun r hr => ?_⟩
    have hquote : c = '"' → ¬ ['"', '"'] <+: u ++ r := by
      intro hc hpre
      obtain ⟨v, rfl⟩ := prefix_of_append hpre
        (by simp only [List.length_cons, List.length_nil]; omega)
      exact hq _ hc rfl
    rw [List.cons_append, longQuoted?_char hn (isText_ne ht).2 hback hquote, if_pos ht, hu r hr, hd]
    rfl
  | case12 => cases h
  | case13 => cases h

theorem longLiteral?_char (hn : c ≠ '\n') (hr : c ≠ '\r')
    (hq : c = '\'' → ¬ ['\'', '\''] <+: cs) :
    longLiteral? (c :: cs) = if isText c then push (some c) (longLiteral? cs) else none := by
  have hquotes : ∀ more, c = '\'' → cs = '\'' :: '\'' :: more → False :=
    fun more hc hcs => hq hc ⟨more, hcs.symm⟩
  rw [longLiteral?]
  · exact fun _ hc hcs => hquotes _ hc hcs
  · exact fun _ hc hcs => hquotes _ hc hcs
  · exact fun _ hc hcs => hquotes _ hc hcs
  · exact hn
  · exact fun _ hc => absurd hc hr

theorem length_of_longLiteral? (h : longLiteral? cs = some (s, rest)) :
    rest.length + 3 ≤ cs.length := by
  fun_induction longLiteral? cs generalizing s with
  | case1 | case2 | case3 => cases h; simp only [List.length_cons]; omega
  | case4 _ ih | case5 _ ih | case6 _ _ _ _ _ _ _ _ ih =>
    obtain ⟨_, _, _, ht, _⟩ := push_eq_some.1 h
    have := ih ht
    simp only [List.length_cons]
    omega
  | case7 => cases h
  | case8 => cases h

theorem longLiteral?_reads (h : longLiteral? cs = some (s, rest)) :
    Reads longLiteral? cs s rest := by
  fun_induction longLiteral? cs generalizing s with
  | case1 cs =>
    cases h
    exact ⟨['\'', '\'', '\'', '\'', '\''], rfl, fun r _ => by simp [longLiteral?]⟩
  | case2 cs hone =>
    cases h
    refine ⟨['\'', '\'', '\'', '\''], rfl, fun r hr => ?_⟩
    simp only [List.cons_append, List.nil_append]
    rw [longLiteral?]
    exact hr.no_quote hone
  | case3 cs htwo hone =>
    cases h
    refine ⟨['\'', '\'', '\''], rfl, fun r hr => ?_⟩
    have hq := hr.no_quote hone
    simp only [List.cons_append, List.nil_append]
    rw [longLiteral?]
    · exact fun _ h => hq _ h
    · exact hq
  | case4 cs ih =>
    obtain ⟨d, t, hd, ht, rfl⟩ := push_eq_some.1 h
    exact (ih ht).push (w := ['\n']) fun r => by rw [← hd, List.singleton_append, longLiteral?]
  | case5 cs ih =>
    obtain ⟨d, t, hd, ht, rfl⟩ := push_eq_some.1 h
    exact (ih ht).push (w := ['\r', '\n']) fun r => by simp [← hd, longLiteral?]
  | case6 c cs _ _ hq hn hr ht ih =>
    obtain ⟨d, t, hd, ht', rfl⟩ := push_eq_some.1 h
    have hlen := length_of_longLiteral? ht'
    obtain ⟨u, rfl, hu⟩ := ih ht'
    rw [List.length_append] at hlen
    refine ⟨c :: u, rfl, fun r hr => ?_⟩
    have hquote : c = '\'' → ¬ ['\'', '\''] <+: u ++ r := by
      intro hc hpre
      obtain ⟨v, rfl⟩ := prefix_of_append hpre
        (by simp only [List.length_cons, List.length_nil]; omega)
      exact hq _ hc rfl
    rw [List.cons_append, longLiteral?_char hn (isText_ne ht).2 hquote, if_pos ht, hu r hr, hd]
    rfl
  | case7 => cases h
  | case8 => cases h

end

end Switchboard.Toml
