import Switchboard.Redaction
import Mathlib.Data.List.TakeWhile

/-!
# Credentials in a text

`Rule.Opens` is the grammar of what stands before a value: a key and a separator. A rule finds a
credential at the front of a text just if the text is an opening, a value and something that does
not go on with the value (`matchAt_of_opens`, `opens_of_matchAt`), and the credential ends with the
value. This holds of rules whose names are spelled in key characters, none of them the beginning of
another (`Rule.Plain`), as those of the redactor are.
-/

namespace Switchboard.Redaction

open Text

/-! ## Spelling -/

/-- The lower-case letter that a character stands for; other characters stand for themselves. -/
def fold (c : Char) : Char :=
  if c = '\u212a' then 'k' else if c = 'ſ' then 's' else c.toLower

/-- The characters of keys in their lower case. -/
def isKeyChar (a : Char) : Bool := a.isLower || a == '-' || a == '_'

/-- A word that keys are made of, in lower case. -/
def Word (w : List Char) : Prop := w ≠ [] ∧ ∀ a ∈ w, isKeyChar a = true

instance (w : List Char) : Decidable (Word w) :=
  decidable_of_iff (w ≠ [] ∧ w.all isKeyChar = true) (and_congr_right' List.all_eq_true)

/-- `k` is the word `w` in some letter case. -/
def Spells (w k : List Char) : Prop := k.map fold = w

instance (w k : List Char) : Decidable (Spells w k) :=
  inferInstanceAs (Decidable (k.map fold = w))

def Blank (b : List Char) : Prop := ∀ c ∈ b, isBlank c = true

instance (b : List Char) : Decidable (Blank b) :=
  decidable_of_iff (b.all isBlank = true) List.all_eq_true

/-- Neither blank nor part of a separator. -/
def isWordChar (c : Char) : Bool := !isBlank c && c != '=' && c != ':'

theorem foldsTo_iff {a c : Char} (ha : isKeyChar a = true) : foldsTo a c = true ↔ fold c = a := by
  have hne : ∀ d : Char, isKeyChar d.toLower = false → (d.toLower == a) = false := by
    intro d hd
    apply beq_eq_false_iff_ne.2
    rintro rfl
    rw [hd] at ha
    cases ha
  unfold foldsTo fold
  by_cases hk : c = '\u212a'
  · subst hk
    have hs : ('\u212a' == 'ſ') = false := by decide
    rw [hne _ (by decide), if_pos rfl, hs]
    simp only [Bool.false_or, beq_self_eq_true, Bool.and_true, Bool.and_false, Bool.or_false,
      beq_iff_eq]
    exact eq_comm
  · by_cases hs : c = 'ſ'
    · subst hs
      rw [hne _ (by decide), if_neg hk, if_pos rfl]
      simp only [Bool.false_or, beq_self_eq_true, Bool.and_true, Bool.or_eq_true, beq_iff_eq,
        Bool.and_eq_true, hk, and_false, false_or]
      exact eq_comm
    · simp [hk, hs]

theorem toLower_of_isBlank {c : Char} (h : isBlank c = true) : c.toLower = c := by
  unfold Char.toLower
  split
  · rename_i hc
    simp [isBlank, UInt32.le_iff_toNat_le] at h hc
    omega
  · rfl

theorem isKeyChar_fold_of_isBlank {c : Char} (h : isBlank c = true) :
    isKeyChar (fold c) = false := by
  have hk : c ≠ '\u212a' := by rintro rfl; exact absurd h (by decide)
  have hs : c ≠ 'ſ' := by rintro rfl; exact absurd h (by decide)
  rw [fold, if_neg hk, if_neg hs, toLower_of_isBlank h]
  cases hc : isKeyChar c with
  | false => rfl
  | true =>
    simp only [isKeyChar, Bool.or_eq_true, beq_iff_eq] at hc
    rcases hc with (hc | rfl) | rfl
    · have hrange : (decide (c.val ≥ 'a'.val) && decide (c.val ≤ 'z'.val)) = true := hc
      simp [UInt32.le_iff_toNat_le, isBlank] at hrange h
      omega
    · exact absurd h (by decide)
    · exact absurd h (by decide)

theorem isWordChar_of_isKeyChar {c : Char} (h : isKeyChar (fold c) = true) :
    isWordChar c = true ∧ isValueChar c = true := by
  have hb : isBlank c = false := by
    cases hb : isBlank c with
    | false => rfl
    | true => rw [isKeyChar_fold_of_isBlank hb] at h; cases h
  have hne : ∀ d : Char, isKeyChar (fold d) = false → (c != d) = true := by
    intro d hd
    apply bne_iff_ne.2
    rintro rfl
    rw [hd] at h
    cases h
  simp [isWordChar, isValueChar, hb, hne '=' (by decide), hne ':' (by decide),
    hne ',' (by decide), hne ';' (by decide)]

namespace Spells

theorem length {w k : List Char} (h : Spells w k) : k.length = w.length := by
  rw [← h, List.length_map]

theorem ne_nil {w k : List Char} (h : Spells w k) (hw : Word w) : k ≠ [] := by
  rintro rfl
  exact hw.1 h.symm

theorem isKeyChar {w k : List Char} (h : Spells w k) (hw : Word w) :
    ∀ c ∈ k, isKeyChar (fold c) = true := by
  intro c hc
  refine hw.2 _ ?_
  rw [← h]
  exact List.mem_map_of_mem hc

theorem isWordChar {w k : List Char} (h : Spells w k) (hw : Word w) :
    ∀ c ∈ k, isWordChar c = true :=
  fun c hc => (isWordChar_of_isKeyChar (h.isKeyChar hw c hc)).1

end Spells

theorem afterWord_eq_some_iff {w cs rest : List Char} (hw : ∀ a ∈ w, isKeyChar a = true) :
    afterWord w cs = some rest ↔ ∃ k, Spells w k ∧ cs = k ++ rest := by
  induction w generalizing cs with
  | nil => simp [afterWord, Spells, eq_comm]
  | cons a w ih =>
    have ha := hw a List.mem_cons_self
    have hw' : ∀ b ∈ w, isKeyChar b = true := fun b hb => hw b (List.mem_cons_of_mem _ hb)
    cases cs with
    | nil =>
      refine ⟨nofun, ?_⟩
      rintro ⟨k, hk, he⟩
      rw [(List.append_eq_nil_iff.1 he.symm).1] at hk
      cases hk
    | cons c cs =>
      simp only [afterWord, foldsTo_iff ha]
      split
      · rename_i hc
        rw [ih hw']
        constructor
        · rintro ⟨k, hk, rfl⟩
          exact ⟨c :: k, by simp [Spells, hc, show k.map fold = w from hk], rfl⟩
        · rintro ⟨_ | ⟨d, k⟩, hk, he⟩
          · cases hk
          · cases he
            exact ⟨k, (List.cons.inj hk).2, rfl⟩
      · rename_i hc
        refine ⟨nofun, ?_⟩
        rintro ⟨_ | ⟨d, k⟩, hk, he⟩
        · cases hk
        · cases he
          exact absurd (List.cons.inj hk).1 hc

theorem afterChar_eq_some_iff {a : Char} {cs rest : List Char} :
    afterChar a cs = some rest ↔ cs = a :: rest := by
  cases cs with
  | nil => simp [afterChar]
  | cons c cs =>
    simp only [afterChar]
    split
    · rename_i h; simp [h]
    · rename_i h; simp [h]

/-! ## Blanks -/

theorem trimStart_append_of_blank {b : List Char} (hb : Blank b) (cs : List Char) :
    trimStart (b ++ cs) = trimStart cs := by
  rw [trimStart, trimStart, List.dropWhile_append_of_pos hb]

/-- What trimming takes away is blank. -/
theorem exists_blank_append (cs : List Char) : ∃ b, Blank b ∧ cs = b ++ trimStart cs :=
  ⟨cs.takeWhile isBlank, fun _ h => List.mem_takeWhile_imp h, List.takeWhile_append_dropWhile.symm⟩

theorem trimStart_of_not_isBlank {c : Char} {cs : List Char} (h : isBlank c = false) :
    trimStart (c :: cs) = c :: cs :=
  trimStart_eq_self fun _ hd => by cases hd; exact h

theorem trimStart_eq_cons {a : Char} {cs rest : List Char} (h : trimStart cs = a :: rest) :
    ∃ b, Blank b ∧ cs = b ++ a :: rest :=
  h ▸ exists_blank_append cs

/-- Words do not begin with a blank. -/
theorem trimStart_spelled {w k : List Char} (h : Spells w k) (hw : Word w) (rest : List Char) :
    trimStart (k ++ rest) = k ++ rest := by
  cases k with
  | nil => exact absurd rfl (h.ne_nil hw)
  | cons c k =>
    have := h.isWordChar hw c List.mem_cons_self
    exact trimStart_of_not_isBlank (by simp_all [isWordChar])

/-! ## Openings -/

/-- A key and the separator after it, as a rule reads them before a value. -/
inductive Rule.Opens : Rule → List Char → List Char → Prop
  | bearer {k b c k' d : List Char} : Spells "authorization".toList k → Blank b → Blank c →
      Spells "bearer".toList k' → Blank d → d ≠ [] →
      bearer.Opens (k ++ (b ++ ':' :: (c ++ k'))) d
  | assignment {names : List String} {name : String} {k b c : List Char} : name ∈ names →
      Spells name.toList k → Blank b → Blank c → (assignment names).Opens k (b ++ '=' :: c)

/-- The names are words, and at most one of them stands at the front of a text. -/
def Rule.Plain : Rule → Prop
  | bearer => True
  | assignment names => (∀ n ∈ names, Word n.toList) ∧
      ∀ n ∈ names, ∀ m ∈ names, n.toList <+: m.toList → n = m

theorem plain_of_mem_rules {r : Rule} (h : r ∈ rules) : r.Plain := by
  simp only [rules, List.mem_cons, List.not_mem_nil, or_false] at h
  rcases h with rfl | rfl | rfl
  · trivial
  · exact ⟨by decide, by decide⟩
  · exact ⟨by decide, by decide⟩

/-- A plain rule reads a name just if the text begins with it in some letter case. -/
theorem findSome?_afterWord_eq_some_iff {names : List String} {cs rest : List Char}
    (h : (Rule.assignment names).Plain) :
    names.findSome? (fun name => afterWord name.toList cs) = some rest ↔
      ∃ name ∈ names, ∃ k, Spells name.toList k ∧ cs = k ++ rest := by
  have sound : ∀ {rest'}, names.findSome? (fun name => afterWord name.toList cs) = some rest' →
      ∃ name ∈ names, ∃ k, Spells name.toList k ∧ cs = k ++ rest' := by
    intro rest' hf
    obtain ⟨name, hm, ha⟩ := List.exists_of_findSome?_eq_some hf
    exact ⟨name, hm, (afterWord_eq_some_iff (h.1 name hm).2).1 ha⟩
  refine ⟨sound, ?_⟩
  rintro ⟨name, hm, k, hk, he⟩
  have ha : afterWord name.toList cs = some rest :=
    (afterWord_eq_some_iff (h.1 name hm).2).2 ⟨k, hk, he⟩
  have hsome : (names.findSome? fun name => afterWord name.toList cs).isSome = true :=
    List.findSome?_isSome_iff.2 ⟨name, hm, by rw [ha]; rfl⟩
  obtain ⟨rest', hf⟩ := Option.isSome_iff_exists.1 hsome
  obtain ⟨name', hm', k', hk', he'⟩ := sound hf
  -- two names at the front of one text are one name, because neither goes on from the other
  have hn : name = name' := by
    have hp : k <+: k' ∨ k' <+: k :=
      List.prefix_or_prefix_of_prefix ⟨rest, he.symm⟩ ⟨rest', he'.symm⟩
    rcases hp with hp | hp
    · exact h.2 _ hm _ hm' (hk ▸ hk' ▸ hp.map fold)
    · exact (h.2 _ hm' _ hm (hk ▸ hk' ▸ hp.map fold)).symm
  subst hn
  obtain ⟨rfl, rfl⟩ := List.append_inj (he.symm.trans he') (by rw [hk.length, hk'.length])
  exact hf

/-- A rule reads a key and a separator just if they are an opening and all blanks are in it. -/
def Rule.ReadsOpening (r : Rule) : Prop :=
  ∀ {cs cs' value : List Char}, r.afterKey cs = some cs' ∧ r.afterSeparator cs' = some value ↔
    ∃ key sep, r.Opens key sep ∧ cs = key ++ cs' ∧ cs' = sep ++ value ∧ trimStart value = value

theorem readsOpening_bearer : Rule.bearer.ReadsOpening := by
  intro cs cs' value
  have hA : Word "authorization".toList := by decide
  have hB : Word "bearer".toList := by decide
  simp only [Rule.afterKey, Option.bind_eq_bind, Option.bind_eq_some_iff,
    afterWord_eq_some_iff hA.2, afterWord_eq_some_iff hB.2, afterChar_eq_some_iff]
  constructor
  · rintro ⟨⟨x, ⟨k, hk, rfl⟩, y, hx, k', hk', hy⟩, hs⟩
    obtain ⟨b, hb, rfl⟩ := trimStart_eq_cons hx
    obtain ⟨c, hc, he⟩ := exists_blank_append y
    rw [hy] at he
    subst he
    cases cs' with
    | nil => cases hs
    | cons d cs' =>
      simp only [Rule.afterSeparator] at hs
      split at hs
      · rename_i hd
        cases hs
        obtain ⟨e, he, hcs⟩ := exists_blank_append cs'
        have hsep : Blank (d :: e) := List.forall_mem_cons.2 ⟨hd, he⟩
        exact ⟨_, d :: e, .bearer hk hb hc hk' hsep (by simp), by simp, congrArg (d :: ·) hcs,
          trimStart_trimStart _⟩
      · cases hs
  · rintro ⟨key, sep, ho, rfl, rfl, ht⟩
    cases ho with
    | @bearer k b c k' d hk hb hc hk' hd hne =>
      refine ⟨⟨_, ⟨k, hk, by simp; rfl⟩, c ++ (k' ++ (sep ++ value)), ?_, k', hk', ?_⟩, ?_⟩
      · rw [trimStart_append_of_blank hb, trimStart_of_not_isBlank (by decide)]
      · rw [trimStart_append_of_blank hc, trimStart_spelled hk' hB]
      · cases sep with
        | nil => exact absurd rfl hne
        | cons x sep =>
          obtain ⟨hx, hsep⟩ := List.forall_mem_cons.1 hd
          simp [Rule.afterSeparator, hx, trimStart_append_of_blank hsep, ht]

theorem readsOpening_assignment {names : List String} (h : (Rule.assignment names).Plain) :
    (Rule.assignment names).ReadsOpening := by
  intro cs cs' value
  simp only [Rule.afterKey, findSome?_afterWord_eq_some_iff h, Rule.afterSeparator,
    Option.map_eq_some_iff, afterChar_eq_some_iff]
  constructor
  · rintro ⟨⟨name, hm, k, hk, rfl⟩, y, hx, rfl⟩
    obtain ⟨b, hb, rfl⟩ := trimStart_eq_cons hx
    obtain ⟨c, hc, hy⟩ := exists_blank_append y
    refine ⟨k, b ++ '=' :: c, .assignment hm hk hb hc, rfl, ?_, trimStart_trimStart _⟩
    rw [List.append_assoc, List.cons_append, ← hy]
  · rintro ⟨key, sep, ho, rfl, rfl, ht⟩
    cases ho with
    | @assignment _ name _ b c hm hk hb hc =>
      refine ⟨⟨name, hm, key, hk, rfl⟩, c ++ value, ?_, ?_⟩
      · rw [List.append_assoc, trimStart_append_of_blank hb, List.cons_append,
          trimStart_of_not_isBlank (by decide)]
      · rw [trimStart_append_of_blank hc, ht]

theorem Rule.Plain.readsOpening {r : Rule} (h : r.Plain) : r.ReadsOpening :=
  match r with
  | bearer => readsOpening_bearer
  | assignment _ => readsOpening_assignment h

/-! ## Values -/

structure Value (v : List Char) : Prop where
  ne_nil : v ≠ []
  chars : ∀ c ∈ v, isValueChar c = true

instance (v : List Char) : Decidable (Value v) :=
  decidable_of_iff (v ≠ [] ∧ v.all isValueChar = true)
    ⟨fun h => ⟨h.1, List.all_eq_true.1 h.2⟩, fun h => ⟨h.ne_nil, List.all_eq_true.2 h.chars⟩⟩

/-- No value goes on with it: it is empty or begins with a blank, a comma or a semicolon. -/
def Ends (rest : List Char) : Prop := ∀ c ∈ rest.head?, isValueChar c = false

instance : (rest : List Char) → Decidable (Ends rest)
  | [] => .isTrue nofun
  | c :: _ => decidable_of_iff (isValueChar c = false)
      ⟨fun h _ hd => Option.some.inj hd ▸ h, fun h => h c rfl⟩

theorem dropWhile_append_ends {v rest : List Char} (hv : ∀ c ∈ v, isValueChar c = true)
    (hr : Ends rest) : (v ++ rest).dropWhile isValueChar = rest := by
  rw [List.dropWhile_append_of_pos hv]
  cases rest with
  | nil => rfl
  | cons c rest => rw [List.dropWhile_cons, if_neg (by simp [hr c rfl])]

theorem ends_dropWhile (cs : List Char) : Ends (cs.dropWhile isValueChar) := by
  intro c hc
  have := List.head?_dropWhile_not isValueChar cs
  rw [hc] at this
  simpa using this

theorem trimStart_value {v : List Char} (hv : Value v) (rest : List Char) :
    trimStart (v ++ rest) = v ++ rest := by
  cases v with
  | nil => exact absurd rfl hv.ne_nil
  | cons c v =>
    have := hv.chars c List.mem_cons_self
    exact trimStart_of_not_isBlank (by simp_all [isValueChar])

/-! ## Credentials -/

theorem matchAt_of_opens {r : Rule} (h : r.Plain) {key sep v rest : List Char}
    (ho : r.Opens key sep) (hv : Value v) (hr : Ends rest) :
    r.matchAt (key ++ (sep ++ (v ++ rest))) =
      some ⟨key, key.length + sep.length + v.length⟩ := by
  obtain ⟨hk, hs⟩ := h.readsOpening.2 ⟨key, sep, ho, rfl, rfl, trimStart_value hv rest⟩
  have hlen : 0 < v.length := List.length_pos_iff.2 hv.ne_nil
  simp only [Rule.matchAt, hk, hs, Option.bind_eq_bind, Option.bind_some,
    dropWhile_append_ends hv.chars hr]
  rw [if_pos (by simp; omega)]
  congr 2
  · simp
  · simp; omega

theorem opens_of_matchAt {r : Rule} (h : r.Plain) {cs : List Char} {m : Match}
    (hm : r.matchAt cs = some m) :
    ∃ sep v rest, cs = m.key ++ (sep ++ (v ++ rest)) ∧ r.Opens m.key sep ∧ Value v ∧ Ends rest ∧
      m.length = m.key.length + sep.length + v.length := by
  simp only [Rule.matchAt, Option.bind_eq_bind, Option.bind_eq_some_iff] at hm
  obtain ⟨cs', hk, value, hs, hm⟩ := hm
  split at hm
  · rename_i hlen
    obtain ⟨key, sep, ho, rfl, rfl, -⟩ := h.readsOpening.1 ⟨hk, hs⟩
    have hv : Value (value.takeWhile isValueChar) := by
      refine ⟨fun hnil => ?_, fun _ => List.mem_takeWhile_imp⟩
      have := List.takeWhile_append_dropWhile (p := isValueChar) (l := value)
      rw [hnil, List.nil_append] at this
      rw [this] at hlen
      exact Nat.lt_irrefl _ hlen
    cases hm
    have hkey : (key ++ (sep ++ value)).take
        ((key ++ (sep ++ value)).length - (sep ++ value).length) = key := by simp
    rw [hkey]
    refine ⟨sep, _, value.dropWhile isValueChar, ?_, ho, hv, ends_dropWhile value, ?_⟩
    · rw [List.takeWhile_append_dropWhile]
    · have hsum :
          (value.takeWhile isValueChar).length + (value.dropWhile isValueChar).length =
            value.length := by
        rw [← List.length_append, List.takeWhile_append_dropWhile]
      simp only [List.length_append]
      omega
  · cases hm

end Switchboard.Redaction
