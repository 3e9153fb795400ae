/-!
# Blank characters

A character is blank when Unicode gives it the property White_Space: the ASCII controls from tab
to carriage return, the space, U+0085, U+00A0 and the wider spaces up to U+3000. U+200B, U+180E
and U+FEFF are not blank. Trimming drops blanks from both ends and nothing else.
-/

namespace Switchboard.Text

def isBlank (c : Char) : Bool :=
  let n := c.toNat
  (9 ≤ n && n ≤ 13) || n == 0x20 || n == 0x85 || n == 0xA0 || n == 0x1680 ||
    (0x2000 ≤ n && n ≤ 0x200A) || n == 0x2028 || n == 0x2029 || n == 0x202F || n == 0x205F ||
    n == 0x3000

def trimStart (cs : List Char) : List Char := cs.dropWhile isBlank

def trimEnd (cs : List Char) : List Char := (cs.reverse.dropWhile isBlank).reverse

def trimChars (cs : List Char) : List Char := trimEnd (trimStart cs)

/-- `s` without the blanks at its ends. -/
def trim (s : String) : String := String.ofList (trimChars s.toList)

/-- Every character is blank; the empty text is. -/
def allBlank (s : String) : Bool := s.toList.all isBlank

theorem isBlank_space : isBlank ' ' = true := by decide

theorem trimStart_eq_self {cs : List Char} (h : ∀ c, cs.head? = some c → isBlank c = false) :
    trimStart cs = cs := by
  cases cs with
  | nil => rfl
  | cons c r => simp [trimStart, h c rfl]

theorem trimStart_head {cs : List Char} {c : Char} (h : (trimStart cs).head? = some c) :
    isBlank c = false := by
  induction cs with
  | nil => simp [trimStart] at h
  | cons d r ih =>
    simp only [trimStart, List.dropWhile_cons] at h
    split at h
    · exact ih h
    · simp_all

theorem trimStart_trimStart (cs : List Char) : trimStart (trimStart cs) = trimStart cs :=
  trimStart_eq_self fun _ => trimStart_head

theorem trimEnd_trimEnd (cs : List Char) : trimEnd (trimEnd cs) = trimEnd cs := by
  simp only [trimEnd, List.reverse_reverse]
  exact congrArg List.reverse (trimStart_trimStart cs.reverse)

/-- Trimming drops blanks from both ends. -/
theorem exists_around_trimChars (cs : List Char) : ∃ left right, (∀ c ∈ left, isBlank c) ∧
    (∀ c ∈ right, isBlank c) ∧ cs = left ++ trimChars cs ++ right := by
  refine ⟨cs.takeWhile isBlank, ((trimStart cs).reverse.takeWhile isBlank).reverse, ?_, ?_, ?_⟩
  · exact List.all_eq_true.1 List.all_takeWhile
  · intro c hc
    exact List.all_eq_true.1 List.all_takeWhile c (List.mem_reverse.1 hc)
  · have hend : trimStart cs =
        trimChars cs ++ ((trimStart cs).reverse.takeWhile isBlank).reverse := by
      rw [trimChars, trimEnd, ← List.reverse_append, List.takeWhile_append_dropWhile,
        List.reverse_reverse]
    rw [List.append_assoc, ← hend]
    exact List.takeWhile_append_dropWhile.symm

/-- Trimming finds what has no blank between the blanks around it. -/
theorem trimChars_around {left cs right : List Char} (hleft : ∀ c ∈ left, isBlank c)
    (hcs : ∀ c ∈ cs, isBlank c = false) (hright : ∀ c ∈ right, isBlank c) :
    trimChars (left ++ cs ++ right) = cs := by
  have hstart : trimStart (left ++ cs ++ right) = trimStart (cs ++ right) := by
    rw [List.append_assoc, trimStart, List.dropWhile_append_of_pos hleft, trimStart]
  rw [trimChars, hstart]
  cases cs with
  | nil =>
    have hnil : trimStart (right ++ []) = [] := List.dropWhile_append_of_pos hright
    rw [List.append_nil] at hnil
    rw [List.nil_append, hnil]
    rfl
  | cons c cs =>
    have hself : trimStart (c :: cs ++ right) = c :: cs ++ right :=
      trimStart_eq_self fun d hd => hcs d (by cases hd; exact List.mem_cons_self)
    have hlast : trimStart (c :: cs).reverse = (c :: cs).reverse :=
      trimStart_eq_self fun d hd => hcs d (List.mem_reverse.1 (List.mem_of_head? hd))
    rw [hself, trimEnd, List.reverse_append, List.dropWhile_append_of_pos fun d hd =>
      hright d (List.mem_reverse.1 hd), ← trimStart, hlast, List.reverse_reverse]

end Switchboard.Text
