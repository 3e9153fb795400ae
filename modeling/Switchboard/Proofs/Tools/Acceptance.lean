import Switchboard.Proofs.Tools.Framing
import Mathlib.Data.List.Infix
import Mathlib.Data.Nat.Find

/-!
# Which streams begin with a frame

What a reader makes of a stream follows from the bytes alone. `Headed` says where the header ends,
`Announces` what length it gives, and neither mentions a reader. A stream is headed, or it has
`maxHeader` bytes without an empty line, or it ends before both; the reader tells these apart
(`scanHeader_of_headed`, `scanHeader_of_long`, `scanHeader_of_short`), and of a header it finds the
length that is announced (`contentLength_eq_ok_iff`). `frames_read_exactly` puts this together.
-/

namespace Switchboard.Tools.Frame

open Text

/-! ## Where a header ends -/

/-- The stream begins with this header, which its first empty line ends within `maxHeader` bytes,
and goes on with `rest`. -/
structure Headed (header rest bytes : List UInt8) : Prop where
  split : bytes = header ++ terminator ++ rest
  first : ¬ terminator <:+: header ++ terminator.dropLast
  fits : header.length + terminator.length ≤ maxHeader

/-- A stream that holds a sublist holds a first one. -/
theorem exists_first_infix {α : Type} {word bytes : List α} (hne : word ≠ [])
    (h : word <:+: bytes) :
    ∃ before after, bytes = before ++ word ++ after ∧ ¬ word <:+: before ++ word.dropLast := by
  classical
  have hfound : ∃ n before after, before.length = n ∧ bytes = before ++ word ++ after := by
    obtain ⟨before, after, he⟩ := h
    exact ⟨_, before, after, rfl, he.symm⟩
  obtain ⟨before, after, hlen, he⟩ := Nat.find_spec hfound
  refine ⟨before, after, he, ?_⟩
  rintro ⟨u, v, hearlier⟩
  -- An occurrence before the last character of the first one would begin earlier.
  have hshort : u.length < before.length := by
    have hcount := congrArg List.length hearlier
    have hpos := List.length_pos_of_ne_nil hne
    simp only [List.length_append, List.length_dropLast] at hcount
    omega
  have hsplit : bytes = u ++ word ++ (v ++ ([word.getLast hne] ++ after)) := by
    rw [← List.append_assoc (u ++ word), hearlier, ← List.append_assoc,
      List.append_assoc before, List.dropLast_append_getLast hne, he]
  exact Nat.find_min hfound (hlen ▸ hshort) ⟨u, _, rfl, hsplit⟩

section
variable {seen p header rest bytes : List UInt8} {room : Nat}

theorem terminated_reverse_iff : Terminated p.reverse ↔ terminator <:+ p := by
  constructor
  · rintro ⟨header, h⟩
    refine ⟨header.reverse, ?_⟩
    rw [← List.reverse_reverse p, h]
    simp [terminator]
  · rintro ⟨header, rfl⟩
    exact ⟨header.reverse, by simp [terminator]⟩

/-- Bytes among which no header ends are all taken. -/
theorem scanHeader_pass (hp : ∀ q, q <+: p → q ≠ p → ¬ Terminated (q.reverse ++ seen))
    (hroom : p.length ≤ room) (rest : List UInt8) :
    scanHeader seen room (p ++ rest) = scanHeader (p.reverse ++ seen) (room - p.length) rest := by
  induction p generalizing seen room with
  | nil => rfl
  | cons b p ih =>
    rw [List.length_cons] at hroom
    have hnow : ¬ Terminated seen := hp [] List.nil_prefix (by simp)
    have hlater : ∀ q, q <+: p → q ≠ p → ¬ Terminated (q.reverse ++ b :: seen) := by
      intro q hq hne
      have := hp (b :: q) (List.prefix_cons_inj b |>.2 hq) (by simpa using hne)
      rwa [List.reverse_cons, List.append_assoc] at this
    rw [List.cons_append, scanHeader_cons hnow, if_neg (by omega), ih hlater (by omega),
      List.reverse_cons, List.append_assoc, List.length_cons, Nat.sub_sub, Nat.add_comm 1]
    rfl

theorem scanHeader_unterminated (hp : ¬ terminator <:+: p) (hroom : p.length ≤ maxHeader)
    (rest : List UInt8) :
    scanHeader [] maxHeader (p ++ rest) = scanHeader p.reverse (maxHeader - p.length) rest := by
  rw [scanHeader_pass _ hroom, List.append_nil]
  intro q hq _ ht
  rw [List.append_nil, terminated_reverse_iff] at ht
  exact hp (List.infix_iff_suffix_prefix.2 ⟨q, ht, hq⟩)

theorem not_terminated_of_unterminated (hp : ¬ terminator <:+: p) : ¬ Terminated p.reverse :=
  fun ht => hp (terminated_reverse_iff.1 ht).isInfix

theorem scanHeader_of_headed (h : Headed header rest bytes) :
    scanHeader [] maxHeader bytes = .complete header rest := by
  obtain ⟨rfl, hfirst, hfits⟩ := h
  have hlen : (header ++ terminator.dropLast).length + 1 ≤ maxHeader := by
    have hlast : terminator.dropLast.length + 1 = terminator.length := rfl
    rw [List.length_append]
    omega
  have hsplit : header ++ terminator ++ rest = header ++ terminator.dropLast ++ 10 :: rest := by
    simp [terminator]
  have hseen : 10 :: (header ++ terminator.dropLast).reverse =
      10 :: 13 :: 10 :: 13 :: header.reverse := by
    simp [terminator]
  rw [hsplit, scanHeader_unterminated hfirst (by omega),
    scanHeader_cons (not_terminated_of_unterminated hfirst), if_neg (by omega), hseen,
    scanHeader_terminated, List.reverse_reverse]

theorem scanHeader_of_long (hlen : maxHeader ≤ bytes.length)
    (h : ¬ terminator <:+: bytes.take maxHeader) : scanHeader [] maxHeader bytes = .tooLong := by
  have hfull : (bytes.take maxHeader).length = maxHeader := List.length_take_of_le hlen
  have hnot := not_terminated_of_unterminated h
  rw [← List.take_append_drop maxHeader bytes, scanHeader_unterminated h (by omega), hfull,
    Nat.sub_self]
  cases bytes.drop maxHeader with
  | nil => rw [scanHeader_nil hnot, if_pos rfl]
  | cons b rest => rw [scanHeader_cons hnot, if_pos rfl]

theorem scanHeader_of_short (hlen : bytes.length < maxHeader) (h : ¬ terminator <:+: bytes) :
    scanHeader [] maxHeader bytes = .incomplete := by
  have hpass := scanHeader_unterminated h (Nat.le_of_lt hlen) []
  rw [List.append_nil] at hpass
  rw [hpass, scanHeader_nil (not_terminated_of_unterminated h), if_neg (by omega)]

/-- A stream has a header, has none within the bytes that it may take, or ends before. -/
theorem headed_or (bytes : List UInt8) :
    (∃ header rest, Headed header rest bytes) ∨
      (maxHeader ≤ bytes.length ∧ ¬ terminator <:+: bytes.take maxHeader) ∨
      (bytes.length < maxHeader ∧ ¬ terminator <:+: bytes) := by
  by_cases h : terminator <:+: bytes.take maxHeader
  · obtain ⟨header, after, he, hfirst⟩ := exists_first_infix (by simp [terminator]) h
    refine .inl ⟨header, after ++ bytes.drop maxHeader, ?_, hfirst, ?_⟩
    · rw [← List.append_assoc, ← he, List.take_append_drop]
    · have hlen := congrArg List.length he
      simp only [List.length_append, List.length_take] at hlen
      omega
  · rcases Nat.lt_or_ge bytes.length maxHeader with hlt | hge
    · rw [List.take_of_length_le (Nat.le_of_lt hlt)] at h
      exact .inr (.inr ⟨hlt, h⟩)
    · exact .inr (.inl ⟨hge, h⟩)

theorem Headed.append (h : Headed header rest bytes) (more : List UInt8) :
    Headed header (rest ++ more) (bytes ++ more) :=
  ⟨by rw [h.split, List.append_assoc], h.first, h.fits⟩

end

/-! ## The lines of a header -/

def lineEnd : List Char := ['\r', '\n']

/-- What stands in one line. -/
def IsLine (line : List Char) : Prop := ¬ lineEnd <:+: line

/-- The text of these lines. -/
def joinLines (lines : List (List Char)) : List Char := lineEnd.intercalate lines

section
variable {line rest cs : List Char} {lines : List (List Char)} {c : Char}

theorem IsLine.tail (h : IsLine (c :: line)) : IsLine line :=
  fun hword => h (hword.trans (List.suffix_cons c line).isInfix)

theorem splitLines_ne_nil (cs : List Char) : splitLines cs ≠ [] := by
  fun_cases splitLines cs <;> simp

theorem splitLines_cons (h : ¬ lineEnd <+: c :: cs) :
    splitLines (c :: cs) =
      match splitLines cs with
      | [] => [[c]]
      | line :: lines => (c :: line) :: lines := by
  rw [splitLines.eq_def (c :: cs)]
  split
  · next more he => exact absurd ⟨more, he.symm⟩ h
  · next he =>
    cases he
    rfl
  · next he => cases he

/-- A line ends at its end and not before. -/
theorem splitLines_append (h : IsLine line) (rest : List Char) :
    splitLines (line ++ (lineEnd ++ rest)) = line :: splitLines rest := by
  induction line with
  | nil =>
    rw [lineEnd, List.nil_append, List.cons_append, List.cons_append, splitLines, List.nil_append]
  | cons c line ih =>
    have hstart : ¬ lineEnd <+: c :: (line ++ (lineEnd ++ rest)) := by
      intro hp
      cases line with
      | nil =>
        simp [lineEnd] at hp
      | cons d line =>
        refine h ?_
        simp only [lineEnd, List.cons_append, List.cons_prefix_cons] at hp
        obtain ⟨rfl, rfl, -⟩ := hp
        exact ⟨[], line, rfl⟩
    rw [List.cons_append, splitLines_cons hstart, ih h.tail]

theorem splitLines_line (h : IsLine line) : splitLines line = [line] := by
  induction line with
  | nil => rfl
  | cons c line ih =>
    rw [splitLines_cons fun hp => h hp.isInfix, ih h.tail]

theorem splitLines_joinLines (hne : lines ≠ []) (h : ∀ line ∈ lines, IsLine line) :
    splitLines (joinLines lines) = lines := by
  induction lines with
  | nil => exact absurd rfl hne
  | cons line lines ih =>
    obtain ⟨hline, hlines⟩ := List.forall_mem_cons.1 h
    cases lines with
    | nil => simpa [joinLines] using splitLines_line hline
    | cons next lines =>
      rw [joinLines, List.intercalate_cons_cons, List.append_assoc, splitLines_append hline]
      exact congrArg _ (ih (by simp) hlines)

theorem joinLines_splitLines (cs : List Char) : joinLines (splitLines cs) = cs := by
  fun_induction splitLines cs with
  | case1 rest ih =>
    obtain ⟨line, lines, he⟩ := List.exists_cons_of_ne_nil (splitLines_ne_nil rest)
    rw [he] at ih ⊢
    rw [joinLines, List.intercalate_cons_cons, ← joinLines, ih]
    rfl
  | case2 c rest _ h ih => exact absurd h (splitLines_ne_nil rest)
  | case3 c rest _ line lines h ih =>
    rw [h] at ih
    cases lines with
    | nil => simpa [joinLines] using ih
    | cons next lines =>
      rw [joinLines, List.intercalate_cons_cons] at ih ⊢
      rw [← ih]
      rfl
  | case4 => rfl

theorem prefix_joinLines (line : List Char) (lines : List (List Char)) :
    line <+: joinLines (line :: lines) := by
  cases lines with
  | nil => simp [joinLines]
  | cons next lines =>
    rw [joinLines, List.intercalate_cons_cons, List.append_assoc]
    exact List.prefix_append _ _

theorem isLine_of_mem_splitLines (cs : List Char) : ∀ line ∈ splitLines cs, IsLine line := by
  fun_induction splitLines cs with
  | case1 rest ih => exact List.forall_mem_cons.2 ⟨by simp [IsLine, lineEnd], ih⟩
  | case2 c rest _ h ih => exact absurd h (splitLines_ne_nil rest)
  | case3 c rest hstart line lines h ih =>
    rw [h] at ih
    obtain ⟨hline, hlines⟩ := List.forall_mem_cons.1 ih
    refine List.forall_mem_cons.2 ⟨fun hword => ?_, hlines⟩
    rcases List.infix_cons_iff.1 hword with hp | hword
    · simp only [lineEnd, List.cons_prefix_cons] at hp
      obtain ⟨rfl, more, rfl⟩ := hp
      obtain ⟨after, hrest⟩ := prefix_joinLines (['\n'] ++ more) lines
      rw [← h, joinLines_splitLines] at hrest
      exact hstart (more ++ after) rfl hrest.symm
    · exact hline hword
  | case4 => simp [IsLine, lineEnd]

theorem splitLines_eq_iff :
    splitLines cs = lines ↔
      lines ≠ [] ∧ (∀ line ∈ lines, IsLine line) ∧ cs = joinLines lines := by
  constructor
  · rintro rfl
    exact ⟨splitLines_ne_nil cs, isLine_of_mem_splitLines cs, (joinLines_splitLines cs).symm⟩
  · rintro ⟨hne, hlines, rfl⟩
    exact splitLines_joinLines hne hlines

end

/-! ## The length that a header gives -/

/-- The line begins with `content-length:` in any case of the letters. -/
def IsLengthLine (line : List Char) : Prop :=
  ∃ key value, line = key ++ value ∧ key.map Char.toLower = lengthKey

/-- The line gives the length `n`: a number below `2^64` in decimal digits, which one plus sign may
precede, with blanks around it. -/
inductive Gives : List Char → Nat → Prop where
  | intro {key left sign digits right : List Char} : key.map Char.toLower = lengthKey →
      (∀ c ∈ left, isBlank c) → sign = [] ∨ sign = ['+'] → digits ≠ [] →
      (∀ c ∈ digits, isDigit c) → (∀ c ∈ right, isBlank c) →
      Nat.ofDigitChars 10 digits 0 < Nat.pow 2 64 →
      Gives (key ++ (left ++ (sign ++ digits) ++ right)) (Nat.ofDigitChars 10 digits 0)

/-- The header is text, and the first of its lines that begins like a length line gives `n`. -/
def Announces (header : List UInt8) (n : Nat) : Prop :=
  ∃ before line after, header = Utf8.encode (joinLines (before ++ line :: after)) ∧
    (∀ l ∈ before ++ line :: after, IsLine l) ∧ (∀ l ∈ before, ¬ IsLengthLine l) ∧ Gives line n

section
variable {line value digits : List Char} {header : List UInt8} {n : Nat}

theorem lengthValue?_eq_some_iff : lengthValue? line = some value ↔
    ∃ key rest, line = key ++ rest ∧ key.map Char.toLower = lengthKey ∧ value = trimChars rest := by
  have hlower : lengthKey.map Char.toLower = lengthKey := by decide
  unfold lengthValue? eqIgnoreCase
  rw [hlower]
  constructor
  · intro h
    split at h
    · next hkey =>
      exact ⟨_, _, (List.take_append_drop lengthKey.length line).symm, by simpa using hkey,
        (Option.some.inj h).symm⟩
    · cases h
  · rintro ⟨key, rest, rfl, hkey, rfl⟩
    have hlen : lengthKey.length = key.length := by rw [← hkey, List.length_map]
    rw [hlen, List.take_left, List.drop_left, if_pos (by simpa using hkey)]

theorem isLengthLine_iff : IsLengthLine line ↔ (lengthValue? line).isSome := by
  rw [Option.isSome_iff_exists]
  constructor
  · rintro ⟨key, rest, rfl, hkey⟩
    exact ⟨_, lengthValue?_eq_some_iff.2 ⟨key, rest, rfl, hkey, rfl⟩⟩
  · rintro ⟨value, h⟩
    obtain ⟨key, rest, rfl, hkey, -⟩ := lengthValue?_eq_some_iff.1 h
    exact ⟨key, rest, rfl, hkey⟩

theorem readLength_eq_some_iff : readLength value = some n ↔
    ∃ sign digits, value = sign ++ digits ∧ (sign = [] ∨ sign = ['+']) ∧ digits ≠ [] ∧
      (∀ c ∈ digits, isDigit c) ∧ Nat.ofDigitChars 10 digits 0 < Nat.pow 2 64 ∧
      Nat.ofDigitChars 10 digits 0 = n := by
  have unsigned : ∀ digits : List Char,
      (if !digits.isEmpty && digits.all isDigit && natOf digits < lengthBound then
          some (natOf digits) else none) = some n ↔
        digits ≠ [] ∧ (∀ c ∈ digits, isDigit c) ∧ Nat.ofDigitChars 10 digits 0 < Nat.pow 2 64 ∧
          Nat.ofDigitChars 10 digits 0 = n := by
    intro digits
    have hvalue : natOf digits = Nat.ofDigitChars 10 digits 0 := rfl
    have hbound : lengthBound = Nat.pow 2 64 := rfl
    simp [hvalue, hbound, and_assoc]
  unfold readLength
  split
  · next rest =>
    rw [unsigned]
    constructor
    · exact fun h => ⟨['+'], rest, rfl, .inr rfl, h⟩
    · rintro ⟨sign, digits, he, rfl | rfl, hne, hdigits, h⟩
      · have hplus : isDigit '+' = true :=
          hdigits '+' (by rw [← List.nil_append digits, ← he]; simp)
        exact absurd hplus (by decide)
      · obtain rfl : rest = digits := by simpa using he
        exact ⟨hne, hdigits, h⟩
  · next hplus =>
    rw [unsigned]
    constructor
    · exact fun h => ⟨[], value, rfl, .inl rfl, h⟩
    · rintro ⟨sign, digits, rfl, rfl | rfl, h⟩
      · exact h
      · exact absurd rfl (hplus digits)

theorem gives_iff :
    Gives line n ↔ ∃ value, lengthValue? line = some value ∧ readLength value = some n := by
  constructor
  · rintro ⟨hkey, hleft, hsign, hne, hdigits, hright, hbound⟩
    next key left sign digits right =>
    have hblank : ∀ c ∈ sign ++ digits, isBlank c = false := by
      intro c hc
      rcases List.mem_append.1 hc with hc | hc
      · rcases hsign with rfl | rfl
        · cases hc
        · rw [List.mem_singleton.1 hc]
          decide
      · exact isBlank_of_digit (hdigits c hc)
    exact ⟨sign ++ digits, lengthValue?_eq_some_iff.2
      ⟨key, _, rfl, hkey, (trimChars_around hleft hblank hright).symm⟩,
      readLength_eq_some_iff.2 ⟨sign, digits, rfl, hsign, hne, hdigits, hbound, rfl⟩⟩
  · rintro ⟨value, hvalue, hread⟩
    obtain ⟨key, rest, rfl, hkey, rfl⟩ := lengthValue?_eq_some_iff.1 hvalue
    obtain ⟨sign, digits, htrim, hsign, hne, hdigits, hbound, rfl⟩ :=
      readLength_eq_some_iff.1 hread
    obtain ⟨left, right, hleft, hright, he⟩ := exists_around_trimChars rest
    rw [he, htrim]
    exact .intro hkey hleft hsign hne hdigits hright hbound

theorem lengthValue?_eq_none (h : ¬ IsLengthLine line) : lengthValue? line = none := by
  simpa [isLengthLine_iff] using h

/-- The first length line counts, whatever the other lines are. -/
theorem findSome?_lengthValue? {before after : List (List Char)}
    (hbefore : ∀ l ∈ before, ¬ IsLengthLine l) (h : lengthValue? line = some value) :
    (before ++ line :: after).findSome? lengthValue? = some value :=
  List.findSome?_eq_some_iff.2
    ⟨before, line, after, rfl, h, fun l hl => lengthValue?_eq_none (hbefore l hl)⟩

theorem contentLength_joinLines {before after : List (List Char)}
    (hlines : ∀ l ∈ before ++ line :: after, IsLine l) (hbefore : ∀ l ∈ before, ¬ IsLengthLine l)
    (h : lengthValue? line = some value) :
    contentLength (Utf8.encode (joinLines (before ++ line :: after))) =
      (readLength value).elim
        (.error (.framing ("invalid Content-Length value: " ++ String.ofList (quoted value))))
        .ok := by
  have hsplit := splitLines_joinLines (by simp) hlines
  have hfind : (before ++ line :: after).findSome? lengthValue? = some value :=
    findSome?_lengthValue? hbefore h
  simp only [contentLength, Utf8.decode?_encode, hsplit, hfind]
  cases readLength value <;> rfl

/-- The length that is found in a header is the one that it announces. -/
theorem contentLength_eq_ok_iff : contentLength header = .ok n ↔ Announces header n := by
  constructor
  · intro h
    unfold contentLength at h
    split at h
    · cases h
    · next cs hdecode =>
      split at h
      · cases h
      · next value hfind =>
        obtain ⟨before, line, after, hsplit, hvalue, hbefore⟩ := List.findSome?_eq_some_iff.1 hfind
        obtain ⟨-, hlines, rfl⟩ := splitLines_eq_iff.1 hsplit
        split at h
        · next m hread =>
          cases h
          refine ⟨before, line, after, Utf8.decode?_eq_some_iff.1 hdecode, hlines, ?_,
            gives_iff.2 ⟨value, hvalue, hread⟩⟩
          intro l hl
          rw [isLengthLine_iff, hbefore l hl]
          nofun
        · cases h
  · rintro ⟨before, line, after, rfl, hlines, hbefore, hgives⟩
    obtain ⟨value, hvalue, hread⟩ := gives_iff.1 hgives
    simp only [contentLength_joinLines hlines hbefore hvalue, hread, Option.elim_some]

/-- A header without a length breaks the stream. -/
theorem contentLength_error {e : ToolError} (h : contentLength header = .error e) :
    ∃ text, e = .framing text := by
  unfold contentLength at h
  split at h
  · cases h
    exact ⟨_, rfl⟩
  · split at h
    · cases h
      exact ⟨_, rfl⟩
    · split at h
      · cases h
      · cases h
        exact ⟨_, rfl⟩

theorem exists_framing_of_not_announces (h : ∀ n, ¬ Announces header n) :
    ∃ text, contentLength header = .error (.framing text) := by
  cases hc : contentLength header with
  | ok n => exact absurd (contentLength_eq_ok_iff.1 hc) (h n)
  | error e =>
    obtain ⟨text, rfl⟩ := contentLength_error hc
    exact ⟨text, rfl⟩

end

/-! ## What is read -/

section
variable {bytes header body rest : List UInt8}

theorem read_of_headed (h : Headed header rest bytes) :
    read bytes =
      match contentLength header with
      | .error e => .error e
      | .ok n => if n ≤ rest.length then .ok (rest.take n, rest.drop n)
          else .error .connectionClosed := by
  simp only [read, scan, scanHeader_of_headed h]
  cases contentLength header with
  | error e => rfl
  | ok n => by_cases hn : n ≤ rest.length <;> simp [hn]

theorem read_of_announced {n : Nat} (h : Headed header rest bytes) (hn : Announces header n) :
    read bytes =
      if n ≤ rest.length then .ok (rest.take n, rest.drop n) else .error .connectionClosed := by
  rw [read_of_headed h, contentLength_eq_ok_iff.2 hn]

theorem read_of_long (hlen : maxHeader ≤ bytes.length)
    (h : ¬ terminator <:+: bytes.take maxHeader) :
    read bytes = .error (.framing ("header exceeds " ++ toString maxHeader ++ " bytes")) := by
  simp [read, scan, scanHeader_of_long hlen h]

theorem read_of_short (hlen : bytes.length < maxHeader) (h : ¬ terminator <:+: bytes) :
    read bytes = .error .connectionClosed := by
  simp [read, scan, scanHeader_of_short hlen h]

theorem read_of_frame (h : Headed header (body ++ rest) bytes)
    (hn : Announces header body.length) : read bytes = .ok (body, rest) := by
  rw [read_of_announced h hn, if_pos (by simp), List.take_left, List.drop_left]

theorem read_of_cutShort {n : Nat} (h : Headed header rest bytes) (hn : Announces header n)
    (hlt : rest.length < n) : read bytes = .error .connectionClosed := by
  rw [read_of_announced h hn, if_neg (by omega)]

theorem read_of_lengthless (h : Headed header rest bytes) (hn : ∀ n, ¬ Announces header n) :
    ∃ text, read bytes = .error (.framing text) := by
  obtain ⟨text, htext⟩ := exists_framing_of_not_announces hn
  exact ⟨text, by rw [read_of_headed h, htext]⟩

/-- What a stream begins with, and what is then read: a frame, a header whose body is cut short, a
header without a length, too many bytes without a header, or too few. -/
inductive Opening (bytes : List UInt8) : Except ToolError (List UInt8 × List UInt8) → Prop where
  | frame {header body rest : List UInt8} : Headed header (body ++ rest) bytes →
      Announces header body.length → Opening bytes (.ok (body, rest))
  | cutShort {header rest : List UInt8} {n : Nat} : Headed header rest bytes →
      Announces header n → rest.length < n → Opening bytes (.error .connectionClosed)
  | lengthless {header rest : List UInt8} {text : String} : Headed header rest bytes →
      (∀ n, ¬ Announces header n) → Opening bytes (.error (.framing text))
  | long {text : String} : maxHeader ≤ bytes.length → ¬ terminator <:+: bytes.take maxHeader →
      Opening bytes (.error (.framing text))
  | ended : bytes.length < maxHeader → ¬ terminator <:+: bytes →
      Opening bytes (.error .connectionClosed)

/-- Every stream begins with one of them. -/
theorem opening (bytes : List UInt8) : Opening bytes (read bytes) := by
  obtain ⟨header, rest, h⟩ | ⟨hlen, h⟩ | ⟨hlen, h⟩ := headed_or bytes
  · by_cases hannounced : ∃ n, Announces header n
    · obtain ⟨n, hn⟩ := hannounced
      rcases Nat.lt_or_ge rest.length n with hlt | hge
      · rw [read_of_cutShort h hn hlt]
        exact .cutShort h hn hlt
      · rw [← List.take_append_drop n rest] at h
        have hbody : Announces header (rest.take n).length := by rwa [List.length_take_of_le hge]
        rw [read_of_frame h hbody]
        exact .frame h hbody
    · have hn : ∀ n, ¬ Announces header n := fun n hn => hannounced ⟨n, hn⟩
      obtain ⟨text, hread⟩ := read_of_lengthless h hn
      rw [hread]
      exact .lengthless h hn
  · rw [read_of_long hlen h]
    exact .long hlen h
  · rw [read_of_short hlen h]
    exact .ended hlen h

theorem opening_of_read {result : Except ToolError (List UInt8 × List UInt8)}
    (h : read bytes = result) : Opening bytes result := h ▸ opening bytes

/-- A frame is read where there is one. -/
theorem read_eq_ok_iff : read bytes = .ok (body, rest) ↔
    ∃ header, Headed header (body ++ rest) bytes ∧ Announces header body.length := by
  refine ⟨fun hread => ?_, fun ⟨header, h, hn⟩ => read_of_frame h hn⟩
  cases opening_of_read hread with
  | frame h hn => exact ⟨_, h, hn⟩

theorem exists_read_eq_framing_iff : (∃ text, read bytes = .error (.framing text)) ↔
    (maxHeader ≤ bytes.length ∧ ¬ terminator <:+: bytes.take maxHeader) ∨
      ∃ header rest, Headed header rest bytes ∧ ∀ n, ¬ Announces header n := by
  constructor
  · rintro ⟨text, hread⟩
    cases opening_of_read hread with
    | lengthless h hn => exact .inr ⟨_, _, h, hn⟩
    | long hlen h => exact .inl ⟨hlen, h⟩
  · rintro (⟨hlen, h⟩ | ⟨header, rest, h, hn⟩)
    · exact ⟨_, read_of_long hlen h⟩
    · exact read_of_lengthless h hn

theorem read_eq_connectionClosed_iff : read bytes = .error .connectionClosed ↔
    (bytes.length < maxHeader ∧ ¬ terminator <:+: bytes) ∨
      ∃ header rest n, Headed header rest bytes ∧ Announces header n ∧ rest.length < n := by
  constructor
  · intro hread
    cases opening_of_read hread with
    | cutShort h hn hlt => exact .inr ⟨_, _, _, h, hn, hlt⟩
    | ended hlen h => exact .inl ⟨hlen, h⟩
  · rintro (⟨hlen, h⟩ | ⟨header, rest, n, h, hn, hlt⟩)
    · exact read_of_short hlen h
    · exact read_of_cutShort h hn hlt

/-- A stream that does not begin with a frame is broken or too short. -/
theorem error_of_read {e : ToolError} (hread : read bytes = .error e) :
    (∃ text, e = .framing text) ∨ e = .connectionClosed := by
  cases opening_of_read hread with
  | lengthless | long => exact .inl ⟨_, rfl⟩
  | cutShort | ended => exact .inr rfl

theorem read_append_of_ok (h : read bytes = .ok (body, rest)) (more : List UInt8) :
    read (bytes ++ more) = .ok (body, rest ++ more) := by
  obtain ⟨header, hheaded, hn⟩ := read_eq_ok_iff.1 h
  have hmore := hheaded.append more
  rw [List.append_assoc] at hmore
  exact read_of_frame hmore hn

/-- What follows a broken header makes no difference. -/
theorem read_append_of_framing {text : String} (h : read bytes = .error (.framing text))
    (more : List UInt8) : read (bytes ++ more) = .error (.framing text) := by
  obtain ⟨hlen, hnot⟩ | ⟨header, rest, hheaded, hn⟩ := exists_read_eq_framing_iff.1 ⟨text, h⟩
  · rw [← h, read_of_long hlen hnot]
    refine read_of_long (by simp; omega) ?_
    rwa [List.take_append_of_le_length hlen]
  · rw [← h, read_of_headed hheaded, read_of_headed (hheaded.append more)]
    obtain ⟨text, htext⟩ := exists_framing_of_not_announces hn
    rw [htext]

/-- Of the lines of a header, only the first length line counts. -/
theorem read_of_lines {bytes' : List UInt8} {line : List Char}
    {before after before' after' : List (List Char)} (hline : IsLengthLine line)
    (hlines : ∀ l ∈ before ++ line :: after, IsLine l)
    (hlines' : ∀ l ∈ before' ++ line :: after', IsLine l)
    (hbefore : ∀ l ∈ before, ¬ IsLengthLine l) (hbefore' : ∀ l ∈ before', ¬ IsLengthLine l)
    (h : Headed (Utf8.encode (joinLines (before ++ line :: after))) rest bytes)
    (h' : Headed (Utf8.encode (joinLines (before' ++ line :: after'))) rest bytes') :
    read bytes = read bytes' := by
  obtain ⟨value, hvalue⟩ := Option.isSome_iff_exists.1 (isLengthLine_iff.1 hline)
  rw [read_of_headed h, read_of_headed h', contentLength_joinLines hlines hbefore hvalue,
    contentLength_joinLines hlines' hbefore' hvalue]

end

/-- A frame is read from a stream if and only if the stream begins with a header that announces the
length of a body and this body follows; the frame takes those bytes and no others. Any other stream
is broken or ends too soon. It is broken when `maxHeader` bytes hold no empty line, or when it has a
header that announces no length, and then whatever follows; it ends too soon when it has less than
`maxHeader` bytes and no empty line, or less than the body that its header announces. Bytes behind a
frame do not change it, and of the lines of a header all but the first length line are ignored. -/
theorem frames_read_exactly (bytes : List UInt8) :
    (∀ body rest, read bytes = .ok (body, rest) ↔
      ∃ header, Headed header (body ++ rest) bytes ∧ Announces header body.length) ∧
    ((∃ text, read bytes = .error (.framing text)) ↔
      (maxHeader ≤ bytes.length ∧ ¬ terminator <:+: bytes.take maxHeader) ∨
        ∃ header rest, Headed header rest bytes ∧ ∀ n, ¬ Announces header n) ∧
    (read bytes = .error .connectionClosed ↔
      (bytes.length < maxHeader ∧ ¬ terminator <:+: bytes) ∨
        ∃ header rest n, Headed header rest bytes ∧ Announces header n ∧ rest.length < n) ∧
    (∀ e, read bytes = .error e → (∃ text, e = .framing text) ∨ e = .connectionClosed) ∧
    (∀ body rest more, read bytes = .ok (body, rest) →
      read (bytes ++ more) = .ok (body, rest ++ more)) ∧
    (∀ text more, read bytes = .error (.framing text) →
      read (bytes ++ more) = .error (.framing text)) ∧
    ∀ before after before' after' line rest bytes', IsLengthLine line →
      (∀ l ∈ before ++ line :: after, IsLine l) → (∀ l ∈ before' ++ line :: after', IsLine l) →
      (∀ l ∈ before, ¬ IsLengthLine l) → (∀ l ∈ before', ¬ IsLengthLine l) →
      Headed (Utf8.encode (joinLines (before ++ line :: after))) rest bytes →
      Headed (Utf8.encode (joinLines (before' ++ line :: after'))) rest bytes' →
      read bytes = read bytes' :=
  ⟨fun _ _ => read_eq_ok_iff, exists_read_eq_framing_iff, read_eq_connectionClosed_iff,
    fun _ => error_of_read, fun _ _ more h => read_append_of_ok h more,
    fun _ more h => read_append_of_framing h more,
    fun _ _ _ _ _ _ _ hline hlines hlines' hbefore hbefore' h h' =>
      read_of_lines hline hlines hlines' hbefore hbefore' h h'⟩

example : read (Utf8.encode "a\r\ncontent-LENGTH: +3 \r\nContent-Length: 1\r\n\r\nbcde".toList) =
    .ok ([98, 99, 100], [101]) := by decide +kernel

end Switchboard.Tools.Frame
