import Switchboard.Proofs.Config.Segments
import Mathlib.Data.List.Forall2
import Mathlib.Data.List.TakeWhile

/-!
# What a text consists of

`Placeholder.Begins` is the grammar of placeholders and mentions nothing that reads them; a
placeholder is found just where one is written (`placeholderAt_eq_some_iff`). A line is scanned from
left to right (`Scanned`), but a comment is text whatever it holds. `Layout` is what a text consists
of, line by line, and `segments` is the only layout of a text whose line ends are line feeds
(`layout_iff`). Any other text loses the carriage returns before its line feeds (`segments_eq`).
-/

namespace Switchboard.Config

open Text

/-! ## Runs of characters -/

/-- The text does not go on with a character of the kind. -/
def Stops (kind : Char → Bool) (cs : List Char) : Prop := ∀ c, cs.head? = some c → kind c = false

theorem stops_cons {kind : Char → Bool} {c : Char} {cs : List Char} :
    Stops kind (c :: cs) ↔ kind c = false := by
  simp [Stops]

section
variable {kind : Char → Bool} {run cs : List Char}

theorem takeWhile_run (h : ∀ c ∈ run, kind c = true) (hcs : Stops kind cs) :
    (run ++ cs).takeWhile kind = run := by
  rw [List.takeWhile_append_of_pos h]
  cases cs with
  | nil => simp
  | cons c cs => simp [stops_cons.1 hcs]

theorem dropWhile_run (h : ∀ c ∈ run, kind c = true) (hcs : Stops kind cs) :
    (run ++ cs).dropWhile kind = cs := by
  rw [List.dropWhile_append_of_pos h]
  cases cs with
  | nil => rfl
  | cons c cs => simp [stops_cons.1 hcs]

theorem trimStart_run (h : ∀ c ∈ run, isBlank c = true) (hcs : Stops isBlank cs) :
    trimStart (run ++ cs) = cs :=
  dropWhile_run h hcs

theorem exists_run (kind : Char → Bool) (cs : List Char) :
    ∃ run, (∀ c ∈ run, kind c = true) ∧ cs = run ++ cs.dropWhile kind :=
  ⟨cs.takeWhile kind, fun _ h => List.mem_takeWhile_imp h, List.takeWhile_append_dropWhile.symm⟩

end

theorem after_eq_some_iff {word cs rest : List Char} :
    after word cs = some rest ↔ cs = word ++ rest := by
  unfold after
  split
  · next h =>
    obtain ⟨t, rfl⟩ := List.isPrefixOf_iff_prefix.1 h
    simp
  · next h =>
    refine ⟨nofun, ?_⟩
    rintro rfl
    exact absurd (List.isPrefixOf_iff_prefix.2 (List.prefix_append word rest)) h

/-- Letters and digits are between `0` and `z`. -/
theorem range_of_isAlphanum {c : Char} (h : c.isAlphanum = true) : '0' ≤ c ∧ c ≤ 'z' := by
  have hcases : (c.isUpper || c.isLower || c.isDigit) = true := h
  simp only [Bool.or_eq_true] at hcases
  rcases hcases with (hupper | hlower) | hdigit
  · obtain ⟨hA, hZ⟩ := of_decide_eq_true hupper
    exact ⟨Char.le_trans (by decide : '0' ≤ 'A') hA, Char.le_trans hZ (by decide)⟩
  · obtain ⟨ha, hz⟩ := Bool.and_eq_true_iff.1 hlower
    exact ⟨Char.le_trans (by decide : '0' ≤ 'a') (of_decide_eq_true ha), of_decide_eq_true hz⟩
  · obtain ⟨h0, h9⟩ := Bool.and_eq_true_iff.1 hdigit
    exact ⟨of_decide_eq_true h0, Char.le_trans (of_decide_eq_true h9 : c ≤ '9') (by decide)⟩

theorem isKeyChar_of_isBlank {c : Char} (h : isBlank c = true) : isKeyChar c = false := by
  cases hc : isKeyChar c with
  | false => rfl
  | true =>
    simp only [isKeyChar, Bool.or_eq_true, beq_iff_eq] at hc
    rcases hc with (hc | rfl) | rfl
    · obtain ⟨hlow, hhigh⟩ := range_of_isAlphanum hc
      have hlow : 48 ≤ c.toNat := hlow
      have hhigh : c.toNat ≤ 122 := hhigh
      simp [isBlank] at h
      omega
    · exact absurd h (by decide)
    · exact absurd h (by decide)

/-! ## Placeholders -/

/-- How a fallback is written, with the bar before it and the blanks after it. -/
inductive WritesFallback : Option (List Char) → List Char → Prop where
  | absent : WritesFallback none []
  | given {blanks text more : List Char} (hblanks : ∀ c ∈ blanks, isBlank c = true)
    (htext : '"' ∉ text) (hmore : ∀ c ∈ more, isBlank c = true) :
    WritesFallback (some text)
      ('|' :: (blanks ++ ("default(\"".toList ++ (text ++ ("\")".toList ++ more)))))

/-- The text begins with the placeholder, and `p.rest` is what follows it. -/
inductive Placeholder.Begins (p : Placeholder) : List Char → Prop where
  | written {left right fallback : List Char} (hleft : ∀ c ∈ left, isBlank c = true)
    (hne : p.key ≠ []) (hkey : ∀ c ∈ p.key, isKeyChar c = true)
    (hright : ∀ c ∈ right, isBlank c = true) (hfallback : WritesFallback p.fallback fallback) :
    p.Begins (['\x7b', '\x7b'] ++ (left ++ (p.key ++ (right ++ (fallback ++
      (['\x7d', '\x7d'] ++ p.rest))))))

theorem fallbackAt_eq_some_iff {cs text rest : List Char} :
    fallbackAt cs = some (text, rest) ↔
      ∃ blanks, (∀ c ∈ blanks, isBlank c = true) ∧ '"' ∉ text ∧
        cs = '|' :: (blanks ++ ("default(\"".toList ++ (text ++ ("\")".toList ++ rest)))) := by
  unfold fallbackAt
  simp only [Option.bind_eq_bind, Option.bind_eq_some_iff, after_eq_some_iff, Option.pure_def,
    Option.some.injEq, Prod.mk.injEq]
  constructor
  · rintro ⟨cs, rfl, quoted, hquoted, rest, hrest, rfl, rfl⟩
    obtain ⟨blanks, hblanks, hcs⟩ := exists_run isBlank cs
    refine ⟨blanks, hblanks, ?_, ?_⟩
    · intro h
      simpa using List.mem_takeWhile_imp h
    · rw [← hrest, List.takeWhile_append_dropWhile, ← hquoted, trimStart, ← hcs]
      rfl
  · rintro ⟨blanks, hblanks, htext, rfl⟩
    have hword : Stops isBlank ("default(\"".toList ++ (text ++ ("\")".toList ++ rest))) :=
      stops_cons.2 (by decide)
    have hrun : ∀ c ∈ text, (c != '"') = true := fun c hc =>
      bne_iff_ne.2 fun h => htext (h ▸ hc)
    have hquote : Stops (· != '"') ("\")".toList ++ rest) := stops_cons.2 (by decide)
    refine ⟨_, rfl, text ++ ("\")".toList ++ rest), trimStart_run hblanks hword, rest, ?_, ?_, rfl⟩
    · exact dropWhile_run hrun hquote
    · exact takeWhile_run hrun hquote

/-- The placeholder with this key, read on from behind the key and its blanks. -/
def closeAt (key cs : List Char) : Option Placeholder :=
  match fallbackAt cs with
  | some (text, behind) =>
    (after ['\x7d', '\x7d'] (trimStart behind)).map fun rest => ⟨key, some text, rest⟩
  | none => (after ['\x7d', '\x7d'] cs).map fun rest => ⟨key, none, rest⟩

theorem placeholderAt_eq (cs : List Char) :
    placeholderAt cs = after ['\x7b', '\x7b'] cs >>= fun inner =>
      if (trimStart inner).takeWhile isKeyChar = [] then none
      else closeAt ((trimStart inner).takeWhile isKeyChar)
        (trimStart ((trimStart inner).dropWhile isKeyChar)) := by
  unfold placeholderAt
  congr 1
  funext inner
  simp only [List.isEmpty_iff, Option.bind_eq_bind, Option.bind_none]
  split
  · rfl
  · unfold closeAt
    cases fallbackAt (trimStart ((trimStart inner).dropWhile isKeyChar)) <;>
      exact Option.map_eq_bind.symm

theorem closeAt_eq_some_iff {key cs : List Char} {p : Placeholder} :
    closeAt key cs = some p ↔ p.key = key ∧ ∃ fallback, WritesFallback p.fallback fallback ∧
      cs = fallback ++ (['\x7d', '\x7d'] ++ p.rest) := by
  constructor
  · intro h
    unfold closeAt at h
    split at h
    · next text behind hf =>
      obtain ⟨rest, hrest, rfl⟩ := Option.map_eq_some_iff.1 h
      obtain ⟨blanks, hblanks, htext, rfl⟩ := fallbackAt_eq_some_iff.1 hf
      obtain ⟨more, hmore, hbehind⟩ := exists_run isBlank behind
      rw [← trimStart, after_eq_some_iff.1 hrest] at hbehind
      exact ⟨rfl, _, .given hblanks htext hmore, by simp [hbehind]⟩
    · obtain ⟨rest, hrest, rfl⟩ := Option.map_eq_some_iff.1 h
      rw [after_eq_some_iff] at hrest
      exact ⟨rfl, [], .absent, hrest⟩
  · obtain ⟨key', fallback, rest⟩ := p
    rintro ⟨rfl, written, hwritten, rfl⟩
    have hclose : after ['\x7d', '\x7d'] (['\x7d', '\x7d'] ++ rest) = some rest :=
      after_eq_some_iff.2 rfl
    cases hwritten with
    | absent =>
      have hf : fallbackAt (['\x7d', '\x7d'] ++ rest) = none := rfl
      rw [closeAt, List.nil_append, hf, hclose]
      rfl
    | @given blanks text more hblanks htext hmore =>
      have hf : fallbackAt ('|' :: (blanks ++ ("default(\"".toList ++ (text ++ ("\")".toList ++
          more)))) ++ (['\x7d', '\x7d'] ++ rest)) =
            some (text, more ++ (['\x7d', '\x7d'] ++ rest)) :=
        fallbackAt_eq_some_iff.2 ⟨blanks, hblanks, htext, by simp⟩
      have hmore : trimStart (more ++ (['\x7d', '\x7d'] ++ rest)) = ['\x7d', '\x7d'] ++ rest :=
        trimStart_run hmore (stops_cons.2 (by decide))
      rw [closeAt, hf]
      simp only [hmore, hclose, Option.map_some]

/-- Neither a key nor the blanks behind it go on into what closes the placeholder. -/
theorem WritesFallback.stops {fallback : Option (List Char)} {f : List Char}
    (h : WritesFallback fallback f) (rest : List Char) :
    Stops isBlank (f ++ (['\x7d', '\x7d'] ++ rest)) ∧
      Stops isKeyChar (f ++ (['\x7d', '\x7d'] ++ rest)) := by
  cases h with
  | absent | given => exact ⟨stops_cons.2 (by decide), stops_cons.2 (by decide)⟩

theorem stops_isKeyChar_append {blanks cs : List Char} (h : ∀ c ∈ blanks, isBlank c = true)
    (hcs : Stops isKeyChar cs) : Stops isKeyChar (blanks ++ cs) := by
  cases blanks with
  | nil => exact hcs
  | cons c blanks => exact stops_cons.2 (isKeyChar_of_isBlank (h c List.mem_cons_self))

theorem stops_isBlank_key {key : List Char} (hne : key ≠ [])
    (h : ∀ c ∈ key, isKeyChar c = true) (cs : List Char) : Stops isBlank (key ++ cs) := by
  cases key with
  | nil => exact absurd rfl hne
  | cons c key =>
    refine stops_cons.2 (Bool.eq_false_iff.2 fun hblank => ?_)
    have hc := h c List.mem_cons_self
    rw [isKeyChar_of_isBlank hblank] at hc
    cases hc

/-- A placeholder is found just where one is written, and as it is written. -/
theorem placeholderAt_eq_some_iff {cs : List Char} {p : Placeholder} :
    placeholderAt cs = some p ↔ p.Begins cs := by
  rw [placeholderAt_eq]
  constructor
  · intro h
    obtain ⟨inner, hopen, h⟩ := Option.bind_eq_some_iff.1 h
    split at h
    · cases h
    · next hne =>
      obtain ⟨hkey, fallback, hfallback, hclose⟩ := closeAt_eq_some_iff.1 h
      obtain ⟨left, hleft, hinner⟩ := exists_run isBlank inner
      obtain ⟨right, hright, hmore⟩ := exists_run isBlank ((trimStart inner).dropWhile isKeyChar)
      have hnamed := List.takeWhile_append_dropWhile (p := isKeyChar) (l := trimStart inner)
      rw [← trimStart, hclose] at hmore
      rw [hmore, ← hkey] at hnamed
      rw [← trimStart, ← hnamed] at hinner
      rw [after_eq_some_iff.1 hopen, hinner]
      rw [← hkey] at hne
      refine .written hleft hne ?_ hright hfallback
      rw [hkey]
      exact fun _ hc => List.mem_takeWhile_imp hc
  · rintro ⟨hleft, hne, hkey, hright, hfallback⟩
    obtain ⟨hblank, hstop⟩ := hfallback.stops p.rest
    have hname := stops_isKeyChar_append hright hstop
    refine Option.bind_eq_some_iff.2 ⟨_, after_eq_some_iff.2 rfl, ?_⟩
    rw [trimStart_run hleft (stops_isBlank_key hne hkey _), takeWhile_run hkey hname,
      dropWhile_run hkey hname, if_neg hne, trimStart_run hright hblank]
    exact closeAt_eq_some_iff.2 ⟨rfl, _, hfallback, rfl⟩

theorem placeholderAt_eq_none_iff {cs : List Char} :
    placeholderAt cs = none ↔ ∀ p : Placeholder, ¬ p.Begins cs := by
  rw [Option.eq_none_iff_forall_ne_some]
  exact forall_congr' fun p => not_congr placeholderAt_eq_some_iff

namespace Placeholder.Begins

variable {p : Placeholder} {c : Char} {cs : List Char}

theorem ne_nil (h : p.Begins cs) : cs ≠ [] := by
  cases h
  simp

theorem rest_suffix (h : p.Begins (c :: cs)) : p.rest <:+ cs := by
  generalize hcs : c :: cs = cs' at h
  cases h with
  | @written left right fallback =>
    cases hcs
    exact ⟨'\x7b' :: (left ++ (p.key ++ (right ++ (fallback ++ ['\x7d', '\x7d'])))), by simp⟩

theorem append (h : p.Begins cs) (more : List Char) :
    Placeholder.Begins ⟨p.key, p.fallback, p.rest ++ more⟩ (cs ++ more) := by
  cases h with
  | @written left right fallback hleft hne hkey hright hfallback =>
    simp only [List.append_assoc]
    exact .written hleft hne hkey hright hfallback

end Placeholder.Begins

/-! ## Lines -/

/-- Placeholders are found from left to right, and none begins inside another. -/
inductive Scanned : List Char → List Segment → Prop where
  | nil : Scanned [] []
  | char {c : Char} {cs : List Char} {segs : List Segment}
    (hnone : ∀ p : Placeholder, ¬ p.Begins (c :: cs)) (h : Scanned cs segs) :
    Scanned (c :: cs) (.char c :: segs)
  | hole {p : Placeholder} {cs : List Char} {segs : List Segment} (hp : p.Begins cs)
    (h : Scanned p.rest segs) : Scanned cs (.hole p :: segs)

/-- The first character that is not blank is a number sign. -/
inductive Comment : List Char → Prop where
  | sign {blanks rest : List Char} (hblanks : ∀ c ∈ blanks, isBlank c = true) :
    Comment (blanks ++ '#' :: rest)

/-- What a line consists of; a comment is text whatever it holds. -/
inductive LineLayout : List Char → List Segment → Prop where
  | comment {line : List Char} (h : Comment line) : LineLayout line (line.map .char)
  | scanned {line : List Char} {segs : List Segment} (hline : ¬ Comment line)
    (h : Scanned line segs) : LineLayout line segs

/-- What a text consists of, line by line. -/
def Layout (cs : List Char) (segs : List Segment) : Prop :=
  ∃ parts, List.Forall₂ LineLayout (cs.splitOn '\n') parts ∧
    segs = [.char '\n'].intercalate parts

theorem segmentsFrom_eq (n : Nat) (cs : List Char) :
    segmentsFrom n cs = segmentsFrom 0 (cs.drop n) := by
  induction n generalizing cs with
  | zero => rfl
  | succ n ih =>
    cases cs with
    | nil => rfl
    | cons c cs => exact ih cs

theorem segmentsFrom_of_begins {p : Placeholder} {cs : List Char} (h : p.Begins cs) :
    segmentsFrom 0 cs = .hole p :: segmentsFrom 0 p.rest := by
  cases cs with
  | nil => exact absurd rfl h.ne_nil
  | cons c cs =>
    rw [segmentsFrom, placeholderAt_eq_some_iff.2 h]
    dsimp only
    rw [segmentsFrom_eq, ← List.suffix_iff_eq_drop.1 h.rest_suffix]

theorem segmentsFrom_of_none {c : Char} {cs : List Char}
    (h : ∀ p : Placeholder, ¬ p.Begins (c :: cs)) :
    segmentsFrom 0 (c :: cs) = .char c :: segmentsFrom 0 cs := by
  rw [segmentsFrom, placeholderAt_eq_none_iff.2 h]

theorem scanned_segmentsFrom (n : Nat) (cs : List Char) :
    Scanned (cs.drop n) (segmentsFrom n cs) := by
  fun_induction segmentsFrom n cs with
  | case1 n =>
    rw [List.drop_nil]
    exact .nil
  | case2 n c cs ih => exact ih
  | case3 c cs hp ih => exact .char (placeholderAt_eq_none_iff.1 hp) ih
  | case4 c cs p hp ih =>
    have hbegins := placeholderAt_eq_some_iff.1 hp
    rw [← List.suffix_iff_eq_drop.1 hbegins.rest_suffix] at ih
    exact .hole hbegins ih

/-- A line is scanned in one way. -/
theorem scanned_iff {cs : List Char} {segs : List Segment} :
    Scanned cs segs ↔ segs = segmentsFrom 0 cs := by
  constructor
  · intro h
    induction h with
    | nil => rfl
    | char hnone h ih => rw [segmentsFrom_of_none hnone, ih]
    | hole hp h ih => rw [segmentsFrom_of_begins hp, ih]
  · rintro rfl
    exact scanned_segmentsFrom 0 cs

theorem isComment_iff {line : List Char} : isComment line = true ↔ Comment line := by
  rw [isComment, beq_iff_eq]
  constructor
  · intro h
    obtain ⟨blanks, hblanks, hline⟩ := exists_run isBlank line
    obtain ⟨rest, hrest⟩ := List.head?_eq_some_iff.1 h
    rw [← trimStart, hrest] at hline
    rw [hline]
    exact .sign hblanks
  · rintro ⟨hblanks⟩
    rw [trimStart_run hblanks (stops_cons.2 (by decide))]
    rfl

instance (line : List Char) : Decidable (Comment line) := decidable_of_iff _ isComment_iff

theorem lineSegments_of_comment {line : List Char} (h : Comment line) :
    lineSegments line = line.map .char := by
  rw [lineSegments, if_pos (isComment_iff.2 h)]

theorem lineSegments_of_not_comment {line : List Char} (h : ¬ Comment line) :
    lineSegments line = segmentsFrom 0 line := by
  rw [lineSegments, if_neg (isComment_iff.not.2 h)]

theorem lineLayout_iff {line : List Char} {segs : List Segment} :
    LineLayout line segs ↔ segs = lineSegments line := by
  constructor
  · intro h
    cases h with
    | comment h => rw [lineSegments_of_comment h]
    | scanned hline h => rw [lineSegments_of_not_comment hline, scanned_iff.1 h]
  · rintro rfl
    by_cases h : Comment line
    · rw [lineSegments_of_comment h]
      exact .comment h
    · rw [lineSegments_of_not_comment h]
      exact .scanned h (scanned_iff.2 rfl)

theorem layout_iff_lines {cs : List Char} {segs : List Segment} : Layout cs segs ↔
    segs = [.char '\n'].intercalate ((cs.splitOn '\n').map lineSegments) := by
  constructor
  · rintro ⟨parts, hparts, rfl⟩
    have hmap : (cs.splitOn '\n').map lineSegments = parts := by
      refine List.forall₂_eq_eq_eq ▸ List.forall₂_map_left_iff.2 (hparts.imp fun _ _ h => ?_)
      exact (lineLayout_iff.1 h).symm
    rw [hmap]
  · rintro rfl
    refine ⟨_, ?_, rfl⟩
    exact List.forall₂_map_right_iff.2 (List.forall₂_same.2 fun line _ => lineLayout_iff.2 rfl)

/-! ## Line ends -/

/-- The text with a line feed for every line end. -/
def dropReturns : List Char → List Char
  | [] => []
  | '\r' :: '\n' :: rest => '\n' :: dropReturns rest
  | c :: rest => c :: dropReturns rest

theorem dropReturns_feed (cs : List Char) : dropReturns ('\n' :: cs) = '\n' :: dropReturns cs := by
  rw [dropReturns]
  exact fun _ h => absurd h (by decide)

/-- Only texts without such a line end stay as they are. -/
theorem dropReturns_eq_self_iff {cs : List Char} :
    dropReturns cs = cs ↔ ¬ ['\r', '\n'] <:+: cs := by
  fun_induction dropReturns cs with
  | case1 => simp
  | case2 rest ih =>
    constructor
    · nofun
    · intro h
      exact absurd (List.prefix_append ['\r', '\n'] rest).isInfix h
  | case3 c rest hend ih =>
    have hfront : ¬ ['\r', '\n'] <+: c :: rest := by
      rintro ⟨more, hmore⟩
      cases hmore
      exact hend more rfl rfl
    rw [List.infix_cons_iff, not_or, ← ih]
    simp [hfront]

theorem splitOn_feed (cs : List Char) : ('\n' :: cs).splitOn '\n' = [] :: cs.splitOn '\n' := by
  rw [List.splitOn_cons_eq_if_modifyHead]
  rfl

theorem splitOn_cons_of_ne {c : Char} (hc : c ≠ '\n') (cs : List Char) :
    (c :: cs).splitOn '\n' = (cs.splitOn '\n').modifyHead (c :: ·) := by
  rw [List.splitOn_cons_eq_if_modifyHead, if_neg (by simpa using hc)]

theorem lines_ne_nil {cs : List Char} (h : cs ≠ []) : lines cs ≠ [] := by
  fun_cases lines cs with
  | case1 => exact absurd rfl h
  | case2 | case3 | case4 | case5 | case6 | case7 => exact List.cons_ne_nil _ _

/-- The lines of a text, and an empty one behind the last line feed. -/
theorem splitOn_dropReturns (cs : List Char) : (dropReturns cs).splitOn '\n' =
    lines cs ++ if cs = [] ∨ cs.getLast? = some '\n' then [[]] else [] := by
  fun_induction lines cs with
  | case1 | case2 | case3 => rfl
  | case4 rest hne ih =>
    obtain ⟨c, rest, rfl⟩ := List.exists_cons_of_ne_nil hne
    rw [dropReturns_feed, splitOn_feed, ih]
    simp
  | case5 rest hne ih =>
    obtain ⟨c, rest, rfl⟩ := List.exists_cons_of_ne_nil hne
    rw [dropReturns, splitOn_feed, ih]
    simp
  | case6 c rest _ _ hc hend hrest ih =>
    obtain rfl : rest = [] := by_contra fun hne => lines_ne_nil hne hrest
    rw [dropReturns, splitOn_cons_of_ne hc, ih]
    · simp [hrest, show c ≠ '\n' from hc]
    · exact hend
  | case7 c rest _ _ hc hend line more hrest ih =>
    obtain ⟨d, rest, rfl⟩ : ∃ d more, rest = d :: more := by
      refine List.exists_cons_of_ne_nil ?_
      rintro rfl
      cases hrest
    rw [dropReturns, splitOn_cons_of_ne hc, ih, hrest]
    · simp
    · exact hend

theorem joinSegments_eq : ∀ ls, joinSegments ls = [.char '\n'].intercalate (ls.map lineSegments)
  | [] => rfl
  | [line] => by rw [joinSegments, List.map_singleton, List.intercalate_singleton]
  | line :: next :: rest => by
    rw [joinSegments, joinSegments_eq (next :: rest)]
    · simp only [List.map_cons, List.intercalate_cons_cons, List.append_assoc]
      rfl
    · exact List.cons_ne_nil _ _

theorem intercalate_concat_nil {α : Type} (sep : List α) : ∀ {ls : List (List α)}, ls ≠ [] →
    sep.intercalate (ls ++ [[]]) = sep.intercalate ls ++ sep
  | [], h => absurd rfl h
  | [l], _ => by simp
  | l :: m :: ls, _ => by
    have ih := intercalate_concat_nil sep (List.cons_ne_nil m ls)
    rw [List.cons_append, List.cons_append, List.intercalate_cons_cons, ← List.cons_append, ih,
      List.intercalate_cons_cons]
    simp only [List.append_assoc]

/-- The segments of a text are those of its lines. -/
theorem segments_eq (cs : List Char) : segments cs =
    [.char '\n'].intercalate (((dropReturns cs).splitOn '\n').map lineSegments) := by
  rw [splitOn_dropReturns, segments, joinSegments_eq, List.map_append]
  by_cases hnil : cs = []
  · subst hnil
    rfl
  · by_cases hend : cs.getLast? = some '\n'
    · rw [if_pos hend, if_pos (.inr hend)]
      exact (intercalate_concat_nil _ fun h => lines_ne_nil hnil (List.map_eq_nil_iff.1 h)).symm
    · rw [if_neg hend, if_neg (by simp [hnil, hend])]
      simp

/-- A text whose line ends are line feeds has one layout. -/
theorem layout_iff {cs : List Char} {segs : List Segment} (h : '\r' ∉ cs) :
    Layout cs segs ↔ segs = segments cs := by
  have hself : dropReturns cs = cs :=
    dropReturns_eq_self_iff.2 fun hend => h (hend.subset List.mem_cons_self)
  rw [layout_iff_lines, segments_eq, hself]

end Switchboard.Config
