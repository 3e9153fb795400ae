import Switchboard.Proofs.Redaction.Credential

/-!
# Scanning a text with a rule

What a rule makes of a text that is cut where a key begins: a credential that begins before the cut
either ends before it or has a value that goes on into the key, because no key and no separator of a
rule lie across the beginning of another key (`Rule.Opens.ends_before`). `Rule.reach` tells how far
such a value goes. So the part before the cut is redacted as if nothing followed, or what follows
counts from the end of that value on (`Rule.replace_before`).
-/

namespace Switchboard.Redaction

open Text

/-! ## Words at the front of a text -/

/-- Characters that end a word. -/
structure Break (s : List Char) : Prop where
  ne_nil : s ≠ []
  chars : ∀ c ∈ s, isWordChar c = false

theorem isWordChar_of_isBlank {c : Char} (h : isBlank c = true) : isWordChar c = false := by
  simp [isWordChar, h]

theorem Break.of_blank {b : List Char} (hb : Blank b) (hne : b ≠ []) : Break b :=
  ⟨hne, fun c hc => isWordChar_of_isBlank (hb c hc)⟩

/-- A sign between blanks, as in a separator. -/
theorem Break.around {b c : List Char} {d : Char} (hb : Blank b) (hd : isWordChar d = false)
    (hc : Blank c) : Break (b ++ d :: c) := by
  refine ⟨by simp, fun x hx => ?_⟩
  rcases List.mem_append.1 hx with hx | hx
  · exact isWordChar_of_isBlank (hb x hx)
  · rcases List.mem_cons.1 hx with rfl | hx
    · exact hd
    · exact isWordChar_of_isBlank (hc x hx)

/-- Two words at the front of one text are the same. -/
theorem word_unique {k k' s s' r r' : List Char} (hk : ∀ c ∈ k, isWordChar c = true)
    (hk' : ∀ c ∈ k', isWordChar c = true) (hs : Break s) (hs' : Break s')
    (h : k ++ (s ++ r) = k' ++ (s' ++ r')) : k = k' := by
  have front : ∀ {k s r : List Char}, (∀ c ∈ k, isWordChar c = true) → Break s →
      (k ++ (s ++ r)).takeWhile isWordChar = k := by
    intro k s r hk hs
    cases s with
    | nil => exact absurd rfl hs.ne_nil
    | cons d s =>
      rw [List.takeWhile_append_of_pos hk, List.cons_append, List.takeWhile_cons,
        if_neg (by simp [hs.chars d List.mem_cons_self]), List.append_nil]
  rw [← front hk hs, h, front hk' hs']

/-- Where a text is cut at the beginning of the word `x`, a word and a break at its front end before
the cut, unless `x` is the end of that word. -/
theorem word_break_before {k s r u x y t : List Char} (hk : ∀ c ∈ k, isWordChar c = true)
    (hs : Break s) (hx : ∀ c ∈ x, isWordChar c = true) (hne : x ≠ []) (hy : Break y)
    (h : k ++ (s ++ r) = u ++ (x ++ (y ++ t))) :
    (∃ u', u = k ++ (s ++ u') ∧ r = u' ++ (x ++ (y ++ t))) ∨ k = u ++ x := by
  rcases List.append_eq_append_iff.1 h with ⟨a, rfl, ha⟩ | ⟨k', rfl, ha⟩
  · rcases List.append_eq_append_iff.1 ha with ⟨u', rfl, hr⟩ | ⟨s', rfl, hr⟩
    · exact .inl ⟨u', rfl, hr⟩
    · cases s' with
      | nil => exact .inl ⟨[], by simp, hr.symm⟩
      | cons e s' =>
        cases x with
        | nil => exact absurd rfl hne
        | cons e' x =>
          obtain ⟨rfl, -⟩ := List.cons.inj hr
          have h1 := hx e' List.mem_cons_self
          have h2 := hs.chars e' (by simp)
          rw [h1] at h2
          cases h2
  · right
    rw [word_unique hx (fun c hc => hk c (List.mem_append_right _ hc)) hy hs ha]

/-- The words that a key of the rule begins with. -/
def Rule.heads : Rule → List (List Char)
  | bearer => ["authorization".toList]
  | assignment names => names.map String.toList

theorem Rule.Plain.heads {r : Rule} (h : r.Plain) {w : List Char} (hw : w ∈ r.heads) : Word w := by
  cases r with
  | bearer =>
    rw [List.mem_singleton.1 hw]
    decide
  | assignment names =>
    obtain ⟨n, hn, rfl⟩ := List.mem_map.1 hw
    exact h.1 n hn

/-- No word of a key of the rule ends in `w`, unless `w` is what the key begins with. -/
def Rule.Avoids : Rule → List Char → Prop
  | bearer, w => (w <:+ "authorization".toList → w = "authorization".toList) ∧
      ¬ w <:+ "bearer".toList
  | assignment names, w => ∀ n ∈ names, w <:+ n.toList → w = n.toList

/-- The text begins with the word `w`. -/
def Leads (w a : List Char) : Prop := ∃ k s rest, Spells w k ∧ Break s ∧ a = k ++ (s ++ rest)

theorem Leads.append {w a : List Char} (h : Leads w a) (t : List Char) : Leads w (a ++ t) := by
  obtain ⟨k, s, rest, hk, hs, rfl⟩ := h
  exact ⟨k, s, rest ++ t, hk, hs, by simp⟩

/-- A value can begin with a word. -/
theorem Leads.takeWhile_ne_nil {w a : List Char} (h : Leads w a) (hw : Word w) :
    a.takeWhile isValueChar ≠ [] := by
  obtain ⟨k, s, rest, hk, -, rfl⟩ := h
  cases k with
  | nil => exact absurd rfl (hk.ne_nil hw)
  | cons c k =>
    have hc := (isWordChar_of_isKeyChar (hk.isKeyChar hw c List.mem_cons_self)).2
    simp [hc]

namespace Rule.Opens

theorem leads {r : Rule} {key sep : List Char} (h : r.Opens key sep) (rest : List Char) :
    ∃ w ∈ r.heads, Leads w (key ++ (sep ++ rest)) := by
  cases h with
  | @bearer k b c k' d hk hb hc hk' hd hne =>
    exact ⟨_, List.mem_singleton_self _, k, b ++ ':' :: c, k' ++ (sep ++ rest), hk,
      .around hb (by decide) hc, by simp⟩
  | @assignment names name _ b c hm hk hb hc =>
    exact ⟨_, List.mem_map_of_mem hm, key, b ++ '=' :: c, rest, hk,
      .around hb (by decide) hc, rfl⟩

/-- A key of a rule that begins before another key ends before it, and so does the separator. -/
theorem ends_before {r : Rule} {w a key sep u rest : List Char} (h : r.Opens key sep)
    (hr : r.Plain) (hw : Word w) (ha : Leads w a) (hav : r.Avoids w) (hu : u ≠ [])
    (he : key ++ (sep ++ rest) = u ++ a) : ∃ u', u = key ++ (sep ++ u') ∧ rest = u' ++ a := by
  obtain ⟨x, y, t, hx, hy, rfl⟩ := ha
  have hxw := hx.isWordChar hw
  have hxne := hx.ne_nil hw
  -- a word that is cut ends in `w`, and the front of it has no place before the cut
  have ends : ∀ {v k u : List Char}, Spells v k → k = u ++ x → w <:+ v := by
    rintro v k u hv rfl
    exact ⟨u.map fold, by rw [← hx, ← List.map_append, hv]⟩
  have whole : ∀ {v k : List Char}, Spells v k → k = u ++ x → w ≠ v := by
    rintro v k hv rfl rfl
    have hlen := hv.length
    rw [List.length_append, hx.length] at hlen
    exact hu (List.length_eq_zero_iff.1 (by omega))
  cases h with
  | @bearer k b c k' d hk hb hc hk' hd hne =>
    have hA : Word "authorization".toList := by decide
    have hB : Word "bearer".toList := by decide
    have he' : k ++ ((b ++ ':' :: c) ++ (k' ++ (sep ++ rest))) = u ++ (x ++ (y ++ t)) := by
      rw [← he]
      simp
    rcases word_break_before (hk.isWordChar hA) (.around hb (by decide) hc) hxw hxne hy he' with
      ⟨u', rfl, htail⟩ | hcut
    · rcases word_break_before (hk'.isWordChar hB) (.of_blank hd hne) hxw hxne hy htail with
        ⟨u'', rfl, hrest⟩ | hcut
      · exact ⟨u'', by simp, hrest⟩
      · exact absurd (ends hk' hcut) hav.2
    · exact absurd (hav.1 (ends hk hcut)) (whole hk hcut)
  | @assignment names name _ b c hm hk hb hc =>
    rcases word_break_before (hk.isWordChar (hr.1 name hm)) (.around hb (by decide) hc) hxw hxne hy
      he with hbefore | hcut
    · exact hbefore
    · exact absurd (hav name hm (ends hk hcut)) (whole hk hcut)

end Rule.Opens

/-- A rule that finds a credential where a word stands finds the word. -/
theorem mem_heads_of_matchAt {r : Rule} (hr : r.Plain) {k s rest : List Char}
    (hk : ∀ c ∈ k, isWordChar c = true) (hs : Break s)
    {m : Match} (hm : r.matchAt (k ++ (s ++ rest)) = some m) : k.map fold ∈ r.heads := by
  obtain ⟨sep, v, rest', he, ho, -⟩ := opens_of_matchAt hr hm
  obtain ⟨w, hw, k', s', rest'', hk', hs', he'⟩ := ho.leads (v ++ rest')
  rw [word_unique hk (hk'.isWordChar (hr.heads hw)) hs hs' (he.trans he'), hk']
  exact hw

/-! ## Scanning -/

theorem drop_takeWhile (cs : List Char) :
    cs.drop (cs.takeWhile isValueChar).length = cs.dropWhile isValueChar := by
  have h := @List.drop_left _ (cs.takeWhile isValueChar) (cs.dropWhile isValueChar)
  rwa [List.takeWhile_append_dropWhile] at h

namespace Rule

theorem replaceFrom_eq (r : Rule) (n : Nat) (cs : List Char) :
    r.replaceFrom n cs = r.replace (cs.drop n) := by
  induction n generalizing cs with
  | zero => rfl
  | succ n ih =>
    cases cs with
    | nil => rfl
    | cons c cs => exact ih cs

theorem replace_of_matchAt {r : Rule} {cs : List Char} {m : Match} (h : r.matchAt cs = some m)
    (hne : cs ≠ []) (hpos : 0 < m.length) :
    r.replace cs = m.key ++ r.shown ++ r.replace (cs.drop m.length) := by
  cases cs with
  | nil => exact absurd rfl hne
  | cons c cs =>
    rw [replace, replaceFrom, h]
    simp only
    rw [replaceFrom_eq, ← List.drop_succ_cons (a := c), Nat.sub_add_cancel hpos]

theorem replace_of_not_matchAt {r : Rule} {c : Char} {cs : List Char}
    (h : r.matchAt (c :: cs) = none) : r.replace (c :: cs) = c :: r.replace cs := by
  rw [replace, replaceFrom, h]
  rfl

/-- Where no credential begins, everything stays. -/
theorem replace_append_of_not_matchAt {r : Rule} {a t : List Char}
    (h : ∀ s, s <:+ a → s ≠ [] → r.matchAt (s ++ t) = none) :
    r.replace (a ++ t) = a ++ r.replace t := by
  induction a with
  | nil => rfl
  | cons c a ih =>
    have hc : r.matchAt (c :: (a ++ t)) = none := h (c :: a) (List.suffix_refl _) (by simp)
    rw [List.cons_append, replace_of_not_matchAt hc,
      ih fun s hs => h s (hs.trans (List.suffix_cons c a)), List.cons_append]

theorem occursIn_of_matchAt {r : Rule} {cs : List Char} {m : Match} (h : r.matchAt cs = some m)
    (hne : cs ≠ []) : r.occursIn cs = true := by
  cases cs with
  | nil => exact absurd rfl hne
  | cons c cs => rw [occursIn, h, Option.isSome_some, Bool.true_or]

theorem occursIn_append {r : Rule} {t : List Char} (u : List Char) (h : r.occursIn t = true) :
    r.occursIn (u ++ t) = true := by
  induction u with
  | nil => exact h
  | cons c u ih => rw [List.cons_append, occursIn, ih, Bool.or_true]

/-- How many characters of `rest` belong to a credential that begins before it, in `pre` after the
first `skip` characters. -/
def reach (r : Rule) : Nat → List Char → List Char → Nat
  | skip, [], _ => skip
  | skip + 1, _ :: pre, rest => r.reach skip pre rest
  | 0, c :: pre, rest =>
    match r.matchAt (c :: (pre ++ rest)) with
    | some m => r.reach (m.length - 1) pre rest
    | none => r.reach 0 pre rest

theorem reach_eq (r : Rule) (n : Nat) (pre rest : List Char) :
    r.reach n pre rest =
      if n ≤ pre.length then r.reach 0 (pre.drop n) rest else n - pre.length := by
  induction pre generalizing n with
  | nil => cases n <;> simp [reach]
  | cons c pre ih =>
    cases n with
    | zero => simp
    | succ n => simpa [reach] using ih n

theorem reach_of_matchAt {r : Rule} {u rest : List Char} {m : Match}
    (h : r.matchAt (u ++ rest) = some m) (hne : u ≠ []) (hpos : 0 < m.length) :
    r.reach 0 u rest =
      if m.length ≤ u.length then r.reach 0 (u.drop m.length) rest else m.length - u.length := by
  cases u with
  | nil => exact absurd rfl hne
  | cons c u =>
    rw [List.cons_append] at h
    simp only [reach, h]
    rw [reach_eq, ← List.drop_succ_cons (a := c), Nat.sub_add_cancel hpos, List.length_cons]
    split <;> split <;> first | rfl | omega

theorem reach_of_not_matchAt {r : Rule} {c : Char} {u rest : List Char}
    (h : r.matchAt (c :: (u ++ rest)) = none) : r.reach 0 (c :: u) rest = r.reach 0 u rest := by
  simp only [reach, h]

theorem matchAt_pos {r : Rule} (hr : r.Plain) {cs : List Char} {m : Match}
    (h : r.matchAt cs = some m) : 0 < m.length := by
  obtain ⟨sep, v, rest, -, -, hv, -, hlen⟩ := opens_of_matchAt hr h
  have := List.length_pos_iff.2 hv.ne_nil
  omega

theorem ne_nil_of_matchAt {r : Rule} (hr : r.Plain) {cs : List Char} {m : Match}
    (h : r.matchAt cs = some m) : cs ≠ [] := by
  rintro rfl
  obtain ⟨sep, v, rest, he, -, hv, -⟩ := opens_of_matchAt hr h
  simp only [List.nil_eq, List.append_eq_nil_iff] at he
  exact hv.ne_nil he.2.2.1

/-- Whatever follows `a` after `u`, the scan puts out `out` and goes on with what of `u` is left. -/
structure Scans (r : Rule) (a u out left : List Char) : Prop where
  suffix : left <:+ u
  shorter : left.length < u.length
  reach : r.reach 0 u a = r.reach 0 left a
  alone : r.replace u = out ++ r.replace left
  before : ∀ t, r.replace (u ++ (a ++ t)) = out ++ r.replace (left ++ (a ++ t))

/-- Whatever follows `a` after `pre`, the value of a credential that begins in `pre` goes on with
`a`, and the scan goes on after it. -/
structure Takes (r : Rule) (a pre : List Char) : Prop where
  reach : r.reach 0 pre a ≠ 0
  occurs : ∀ t, r.occursIn (pre ++ (a ++ t)) = true
  after : ∃ out, ∀ t, r.replace (pre ++ (a ++ t)) =
    out ++ r.replace ((a ++ t).dropWhile isValueChar)

theorem Scans.takes {r : Rule} {a u out left : List Char} (h : r.Scans a u out left)
    (hl : r.Takes a left) : r.Takes a u := by
  obtain ⟨out', hout⟩ := hl.after
  refine ⟨h.reach ▸ hl.reach, fun t => ?_, out ++ out', fun t => ?_⟩
  · obtain ⟨front, rfl⟩ := h.suffix
    rw [List.append_assoc]
    exact occursIn_append front (hl.occurs t)
  · rw [h.before, hout, List.append_assoc]

/-- A value that is not over where `cs` begins goes on with the value characters in front of it. -/
theorem matchAt_of_open_value {r : Rule} (hr : r.Plain) {key sep v cs : List Char}
    (ho : r.Opens key sep) (hv : ∀ c ∈ v, isValueChar c = true)
    (hcs : cs.takeWhile isValueChar ≠ []) :
    r.matchAt ((key ++ (sep ++ v)) ++ cs) =
      some ⟨key, (key ++ (sep ++ v)).length + (cs.takeWhile isValueChar).length⟩ := by
  have hval : Value (v ++ cs.takeWhile isValueChar) := by
    refine ⟨List.append_ne_nil_of_right_ne_nil v hcs, fun c hc => ?_⟩
    rcases List.mem_append.1 hc with hc | hc
    · exact hv c hc
    · exact List.mem_takeWhile_imp hc
  have hm := matchAt_of_opens hr ho hval (ends_dropWhile cs)
  rw [List.append_assoc, List.takeWhile_append_dropWhile] at hm
  simp only [List.append_assoc, hm, List.length_append, Nat.add_assoc]

section Cut

variable {r : Rule} (hr : r.Plain) {w a : List Char} (hw : Word w) (ha : Leads w a)
  (hav : r.Avoids w)

include hr hw ha hav

/-- What a rule finds at the front of a text that is cut where a key begins, whatever follows the
key: nothing, a credential before the cut, or one whose value goes on until a value ends that begins
with the key. -/
theorem matchAt_before {u : List Char} (hu : u ≠ []) :
    (r.matchAt u = none ∧ ∀ t, r.matchAt (u ++ (a ++ t)) = none) ∨
    (∃ m, m.length ≤ u.length ∧ r.matchAt u = some m ∧ ∀ t, r.matchAt (u ++ (a ++ t)) = some m) ∨
    ∃ key, ∀ t, r.matchAt (u ++ (a ++ t)) =
      some ⟨key, u.length + ((a ++ t).takeWhile isValueChar).length⟩ := by
  by_cases hopen : ∃ key sep v, u = key ++ (sep ++ v) ∧ r.Opens key sep ∧
      ∀ c ∈ v, isValueChar c = true
  · obtain ⟨key, sep, v, rfl, ho, hv⟩ := hopen
    exact .inr (.inr ⟨key, fun t =>
      matchAt_of_open_value hr ho hv ((ha.append t).takeWhile_ne_nil hw)⟩)
  by_cases hover : ∃ key sep v rest, u = key ++ (sep ++ (v ++ rest)) ∧ r.Opens key sep ∧ Value v ∧
      Ends rest ∧ rest ≠ []
  · obtain ⟨key, sep, v, rest, rfl, ho, hv, hrest, hne⟩ := hover
    refine .inr (.inl ⟨⟨key, key.length + sep.length + v.length⟩, by simp; omega,
      matchAt_of_opens hr ho hv hrest, fun t => ?_⟩)
    have hends : Ends (rest ++ (a ++ t)) := by
      cases rest with
      | nil => exact absurd rfl hne
      | cons c rest => exact hrest
    have hm := matchAt_of_opens hr ho hv hends
    simpa only [List.append_assoc] using hm
  -- a credential at the front opens before the cut, so it would be one of these two
  refine .inl ⟨Option.eq_none_iff_forall_ne_some.2 fun m hm => ?_,
    fun t => Option.eq_none_iff_forall_ne_some.2 fun m hm => ?_⟩
  · obtain ⟨sep, v, rest, he, ho, hv, hrest, -⟩ := opens_of_matchAt hr hm
    by_cases hnil : rest = []
    · subst hnil
      exact hopen ⟨m.key, sep, v, by simpa using he, ho, hv.chars⟩
    · exact hover ⟨m.key, sep, v, rest, he, ho, hv, hrest, hnil⟩
  · obtain ⟨sep, v, rest, he, ho, hv, hrest, -⟩ := opens_of_matchAt hr hm
    obtain ⟨u', rfl, he'⟩ := ho.ends_before hr hw (ha.append t) hav hu he.symm
    rcases List.append_eq_append_iff.1 he' with ⟨z, rfl, rfl⟩ | ⟨z, rfl, -⟩
    · cases z with
      | nil => exact hopen ⟨m.key, sep, v, by simp, ho, hv.chars⟩
      | cons c z => exact hover ⟨m.key, sep, v, c :: z, rfl, ho, hv, hrest, by simp⟩
    · exact hopen ⟨m.key, sep, u', rfl, ho, fun c hc => hv.chars c (List.mem_append_left _ hc)⟩

/-- The scan gets over a character or a credential before the cut, or it comes to a value that takes
in the key. -/
theorem scan_step {u : List Char} (hu : u ≠ []) :
    (∃ out left, r.Scans a u out left) ∨ r.Takes a u := by
  have hne : ∀ t, u ++ t ≠ [] := fun t => List.append_ne_nil_of_left_ne_nil hu t
  rcases matchAt_before hr hw ha hav hu with ⟨hnone, ht⟩ | ⟨m, hlen, hm, ht⟩ | ⟨key, ht⟩
  · cases u with
    | nil => exact absurd rfl hu
    | cons c u =>
      have h0 : r.matchAt (c :: (u ++ a)) = none := by simpa using ht []
      exact .inl ⟨[c], u, List.suffix_cons c u, by simp, reach_of_not_matchAt h0,
        replace_of_not_matchAt hnone, fun t => replace_of_not_matchAt (ht t)⟩
  · have h0 : r.matchAt (u ++ a) = some m := by simpa using ht []
    have hpos := matchAt_pos hr hm
    have hupos := List.length_pos_iff.2 hu
    refine .inl ⟨m.key ++ r.shown, u.drop m.length, List.drop_suffix _ _,
      by rw [List.length_drop]; omega, ?_, replace_of_matchAt hm hu hpos, fun t => ?_⟩
    · rw [reach_of_matchAt h0 hu hpos, if_pos hlen]
    · rw [replace_of_matchAt (ht t) (hne _) hpos, List.drop_append_of_le_length hlen]
  · have h0 : r.matchAt (u ++ a) = some ⟨key, u.length + (a.takeWhile isValueChar).length⟩ := by
      simpa using ht []
    have hrun := List.length_pos_iff.2 (ha.takeWhile_ne_nil hw)
    refine .inr ⟨?_, fun t => ?_, key ++ r.shown, fun t => ?_⟩
    · rw [reach_of_matchAt h0 hu (matchAt_pos hr h0), if_neg (by simp only; omega)]
      simp only
      omega
    · exact occursIn_of_matchAt (ht t) (hne _)
    · rw [replace_of_matchAt (ht t) (hne _) (matchAt_pos hr (ht t)), List.drop_append,
        List.drop_of_length_le (Nat.le_add_right _ _), Nat.add_sub_cancel_left, List.nil_append,
        drop_takeWhile]

/-- What a rule makes of a text that is cut where a key begins: if no value before the cut takes in
the key, the part before it is redacted by itself. -/
theorem replace_before (pre : List Char) :
    (r.reach 0 pre a = 0 ∧
      ∀ t, r.replace (pre ++ (a ++ t)) = r.replace pre ++ r.replace (a ++ t)) ∨
    r.Takes a pre := by
  by_cases hpre : pre = []
  · subst hpre
    exact .inl ⟨rfl, fun t => rfl⟩
  · rcases scan_step hr hw ha hav hpre with ⟨out, left, hs⟩ | ht
    · have hshort := hs.shorter
      rcases replace_before left with ⟨hreach, hleft⟩ | ht
      · refine .inl ⟨hs.reach.trans hreach, fun t => ?_⟩
        rw [hs.before, hleft, hs.alone, List.append_assoc]
      · exact .inr (hs.takes ht)
    · exact .inr ht
termination_by pre.length

end Cut

end Rule

end Switchboard.Redaction
