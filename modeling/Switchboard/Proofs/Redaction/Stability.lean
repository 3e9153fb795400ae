import Switchboard.Proofs.Redaction.Concealment
import Mathlib.Data.List.Infix

/-!
# What redaction leaves behind

Redacting a text that was redacted changes nothing, and every credential that any rule finds in it,
from whatever character on, has the placeholder for its value (`redact_settled`). A rule leaves its
own credentials hidden because none of them begins where a value was (`Rule.settled_replace`). The
second rule uncovers no header, since a header that begins before a key ends before it
(`Rule.matchAt_swap`), and what the third rule looks for the second one has hidden
(`tokens_settled`).
-/

namespace Switchboard.Redaction

open Text Chat

/-! ## Hidden credentials -/

namespace Rule

/-- The sign that a rule puts between the key and the placeholder. -/
def mark : Rule → Char
  | bearer => ' '
  | assignment _ => '='

theorem shown_eq (r : Rule) : r.shown = [r.mark] ++ placeholder := by
  cases r <;> rfl

/-- Every credential of the rule that begins in `cs`, before `post`, is hidden the way the rule
hides it. -/
def Settled (r : Rule) (cs post : List Char) : Prop :=
  ∀ s m, s <:+ cs → s ≠ [] → r.matchAt (s ++ post) = some m →
    (s ++ post).take m.length = m.key ++ r.shown

/-- A credential of the rule with the value `v` begins somewhere in the text. -/
def Finds (r : Rule) (cs v : List Char) : Prop :=
  ∃ pre key sep rest, cs = pre ++ (key ++ (sep ++ (v ++ rest))) ∧ r.Opens key sep ∧ Value v ∧
    Ends rest

theorem Silent.settled {r : Rule} {cs post : List Char} (h : r.Silent cs post) :
    r.Settled cs post := by
  intro s m hs hne hm
  rw [h s hs hne] at hm
  cases hm

theorem Settled.append {r : Rule} {a b post : List Char} (ha : r.Settled a (b ++ post))
    (hb : r.Settled b post) : r.Settled (a ++ b) post := by
  rintro s m ⟨p, hp⟩ hne hm
  rcases List.append_eq_append_iff.1 hp with ⟨a', rfl, rfl⟩ | ⟨x, -, rfl⟩
  · by_cases ha' : a' = []
    · subst ha'
      exact hb b m (List.suffix_refl b) hne hm
    · rw [List.append_assoc] at hm ⊢
      exact ha a' m (List.suffix_append _ _) ha' hm
  · exact hb s m (List.suffix_append _ _) hne hm

theorem Settled.suffix {r : Rule} {a b post : List Char} (h : r.Settled (a ++ b) post) :
    r.Settled b post :=
  fun s m hs => h s m (hs.trans (List.suffix_append _ _))

theorem Settled.front {r : Rule} {a b post : List Char} (h : r.Settled (a ++ b) post) :
    r.Settled a (b ++ post) := by
  rintro s m ⟨p, rfl⟩ hne hm
  rw [← List.append_assoc] at hm ⊢
  exact h (s ++ b) m ⟨p, by simp⟩ (List.append_ne_nil_of_left_ne_nil hne b) hm

theorem silent_of_not_occursIn {r : Rule} {cs : List Char} (h : r.occursIn cs = false) :
    r.Silent cs [] := by
  rintro s ⟨p, rfl⟩ hne
  rw [List.append_nil]
  cases hm : r.matchAt s with
  | none => rfl
  | some m =>
    rw [occursIn_append p (occursIn_of_matchAt hm hne)] at h
    cases h

/-- A rule that finds anything finds something first. -/
theorem exists_first_of_occursIn {r : Rule} {cs : List Char} (h : r.occursIn cs = true) :
    ∃ a u m, cs = a ++ u ∧ r.Silent a u ∧ r.matchAt u = some m := by
  induction cs with
  | nil => cases h
  | cons c cs ih =>
    cases hm : r.matchAt (c :: cs) with
    | some m => exact ⟨[], c :: cs, m, rfl, fun s hs hne => absurd (List.suffix_nil.1 hs) hne, hm⟩
    | none =>
      rw [occursIn, hm, Option.isSome_none, Bool.false_or] at h
      obtain ⟨a, u, m, rfl, hsilent, hu⟩ := ih h
      refine ⟨c :: a, u, m, rfl, fun s hs hne => ?_, hu⟩
      rcases List.suffix_cons_iff.1 hs with rfl | hs
      · exact hm
      · exact hsilent s hs hne

/-- A rule has nothing to replace, or it replaces the first credential and goes on after it. -/
theorem replace_cases {r : Rule} (hr : r.Plain) (cs : List Char) :
    (r.occursIn cs = false ∧ r.replace cs = cs) ∨
    ∃ a key sep v rest, cs = a ++ (key ++ (sep ++ (v ++ rest))) ∧
      r.Silent a (key ++ (sep ++ (v ++ rest))) ∧ r.Opens key sep ∧ Value v ∧ Ends rest ∧
      r.replace cs = a ++ (key ++ (r.shown ++ r.replace rest)) := by
  cases hocc : r.occursIn cs with
  | false => exact .inl ⟨rfl, replaceFrom_of_not_occursIn hocc⟩
  | true =>
    obtain ⟨a, u, m, rfl, hsilent, hm⟩ := exists_first_of_occursIn hocc
    obtain ⟨sep, v, rest, rfl, ho, hv, hrest, -⟩ := opens_of_matchAt hr hm
    refine .inr ⟨a, m.key, sep, v, rest, rfl, hsilent, ho, hv, hrest, ?_⟩
    rw [replace_append_of_not_matchAt hsilent, replace_credential hr ho hv hrest,
      List.append_assoc]

/-- Where all that the rule finds is hidden, the rule changes nothing. -/
theorem Settled.replace_eq {r : Rule} (hr : r.Plain) {cs : List Char} (h : r.Settled cs []) :
    r.replace cs = cs := by
  induction hn : cs.length using Nat.strong_induction_on generalizing cs with
  | _ n ih =>
    cases cs with
    | nil => rfl
    | cons c cs =>
      cases hm : r.matchAt (c :: cs) with
      | none =>
        rw [replace_of_not_matchAt hm]
        exact congrArg (c :: ·) (ih cs.length (by simp [← hn]) (Settled.suffix (a := [c]) h) rfl)
      | some m =>
        have hpos := matchAt_pos hr hm
        have htake : (c :: cs).take m.length = m.key ++ r.shown := by
          simpa using h (c :: cs) m (List.suffix_refl _) (by simp) (by simpa using hm)
        have hdrop : r.Settled ((c :: cs).drop m.length) [] := by
          refine Settled.suffix (a := (c :: cs).take m.length) ?_
          rwa [List.take_append_drop]
        rw [replace_of_matchAt hm (by simp) hpos, ih _ (by simp [← hn]; omega) hdrop rfl, ← htake,
          List.take_append_drop]

/-! ## Keys and placeholders -/

theorem Opens.marked {r : Rule} {key sep : List Char} (h : r.Opens key sep) :
    r.Opens key [r.mark] := by
  cases h with
  | bearer hk hb hc hk' _ _ => exact .bearer hk hb hc hk' (by decide) (by simp)
  | assignment hm hk _ _ => exact .assignment (b := []) (c := []) hm hk nofun nofun

theorem Opens.break {r : Rule} {key sep : List Char} (h : r.Opens key sep) : Break sep := by
  cases h with
  | bearer _ _ _ _ hd hne => exact .of_blank hd hne
  | assignment _ _ hb hc => exact .around hb (by decide) hc

theorem value_placeholder : Value placeholder := by decide

theorem isWordChar_placeholder : ∀ c ∈ placeholder, isWordChar c = true := by
  have h : placeholder.all isWordChar = true := by decide
  exact List.all_eq_true.1 h

theorem bracket_mem : ∀ s ∈ placeholder.tails, s ≠ [] → ']' ∈ s := by decide

/-- No key begins in what a rule puts in the place of a value: the placeholder goes on to a bracket,
which is in no key. -/
theorem not_leads_shown {r : Rule} {w s : List Char} (hw : Word w) (hs : s <:+ r.shown)
    (hne : s ≠ []) (post : List Char) : ¬ Leads w (s ++ post) := by
  rintro ⟨k, brk, rest, hk, hbrk, he⟩
  rw [shown_eq] at hs
  rcases List.suffix_cons_iff.1 hs with rfl | hs
  · cases k with
    | nil => exact hk.ne_nil hw rfl
    | cons c k =>
      have hmark : isWordChar r.mark = false := by cases r <;> rfl
      have hc := hk.isWordChar hw c List.mem_cons_self
      rw [← (List.cons.inj he).1, hmark] at hc
      cases hc
  · have hword : ∀ c ∈ s, isWordChar c = true := fun c hc => isWordChar_placeholder c (hs.subset hc)
    have hlast : ']' ∈ s := bracket_mem s ((List.mem_tails _ _).2 hs) hne
    -- the word that a key begins with goes on to the end of the placeholder
    have hpre : s <+: k := by
      rcases List.append_eq_append_iff.1 he with ⟨x, rfl, -⟩ | ⟨x, rfl, hx⟩
      · exact List.prefix_append _ _
      · cases x with
        | nil => simp
        | cons d x =>
          cases brk with
          | nil => exact absurd rfl hbrk.ne_nil
          | cons e brk =>
            have hd := hword d (by simp)
            rw [← (List.cons.inj hx).1, hbrk.chars e List.mem_cons_self] at hd
            cases hd
    have hkey := hk.isKeyChar hw ']' (hpre.subset hlast)
    exact absurd hkey (by decide)

/-- What a rule finds before a key depends only on the key being there: the credential ends before
the key, or its value goes on into it. -/
theorem matchAt_swap {r : Rule} (hr : r.Plain) {w s x y : List Char} (hw : Word w)
    (hx : Leads w x) (hy : Leads w y) (hav : r.Avoids w) (hs : s ≠ []) {m : Match}
    (hm : r.matchAt (s ++ x) = some m) :
    m.key <+: s ∧ ((m.length ≤ s.length ∧ r.matchAt (s ++ y) = some m) ∨
      ∃ m', r.matchAt (s ++ y) = some m' ∧ s.length < m.length ∧ s.length < m'.length) := by
  obtain ⟨sep, v, rest, he, ho, hv, hrest, hlen⟩ := opens_of_matchAt hr hm
  obtain ⟨u, rfl, htail⟩ := ho.ends_before hr hw hx hav hs he.symm
  refine ⟨List.prefix_append _ _, ?_⟩
  -- a value that is not over before the key takes in the beginning of the key
  have into : (∀ c ∈ u, isValueChar c = true) →
      ∃ m', r.matchAt ((m.key ++ (sep ++ u)) ++ y) = some m' ∧
        (m.key ++ (sep ++ u)).length < m.length ∧ (m.key ++ (sep ++ u)).length < m'.length := by
    intro hu
    have hmx := matchAt_of_open_value hr ho hu (hx.takeWhile_ne_nil hw)
    have hposx := List.length_pos_iff.2 (hx.takeWhile_ne_nil hw)
    have hposy := List.length_pos_iff.2 (hy.takeWhile_ne_nil hw)
    have hmlen : m.length = (m.key ++ (sep ++ u)).length + (x.takeWhile isValueChar).length :=
      congrArg Match.length (Option.some.inj (hm.symm.trans hmx))
    refine ⟨_, matchAt_of_open_value hr ho hu (hy.takeWhile_ne_nil hw), by omega, ?_⟩
    simp only
    omega
  rcases List.append_eq_append_iff.1 htail with ⟨z, rfl, rfl⟩ | ⟨z, rfl, -⟩
  · cases z with
    | nil => exact .inr (into fun c hc => hv.chars c (by simpa using hc))
    | cons c z =>
      have hends : Ends (c :: z ++ y) := hrest
      refine .inl ⟨by simp; omega, ?_⟩
      have hmatch := matchAt_of_opens hr ho hv hends
      rw [← hlen] at hmatch
      simpa only [List.append_assoc] using hmatch
  · exact .inr (into fun c hc => hv.chars c (List.mem_append_left _ hc))

/-- A hidden credential that begins before a key ends before it. -/
theorem not_lt_length_of_shown {r : Rule} {w s x : List Char} (hw : Word w) (hx : Leads w x)
    {m : Match} (hkey : m.key <+: s) (hm : (s ++ x).take m.length = m.key ++ r.shown) :
    ¬ s.length < m.length := by
  intro hlong
  obtain ⟨front, rfl⟩ := hkey
  rw [List.take_append, List.take_of_length_le hlong.le, List.append_assoc] at hm
  have hshown := List.append_cancel_left hm
  refine not_leads_shown hw ⟨front, hshown⟩ ?_ (x.drop (m.length - (m.key ++ front).length)) ?_
  · have hxne : x ≠ [] := by
      rintro rfl
      exact hx.takeWhile_ne_nil hw rfl
    simp only [ne_eq, List.take_eq_nil_iff, hxne, or_false]
    omega
  · rwa [List.take_append_drop]

/-- Hidden credentials that begin before a key stay when something else follows the key. -/
theorem Settled.swap {r : Rule} (hr : r.Plain) {w a x y : List Char} (hw : Word w)
    (hx : Leads w x) (hy : Leads w y) (hav : r.Avoids w) (h : r.Settled a x) : r.Settled a y := by
  intro s m hs hne hm
  obtain ⟨-, ⟨hlen, hmx⟩ | ⟨m', hmx, -, hlong⟩⟩ := matchAt_swap hr hw hy hx hav hne hm
  · have htake := h s m hs hne hmx
    rw [List.take_append_of_le_length hlen] at htake ⊢
    exact htake
  · obtain ⟨hkey, -⟩ := matchAt_swap hr hw hx hy hav hne hmx
    exact absurd hlong (not_lt_length_of_shown hw hx hkey (h s m' hs hne hmx))

/-! ## After a replacement -/

theorem Opens.leads_of_break {r : Rule} {key sep : List Char} (h : r.Opens key sep) :
    ∃ w ∈ r.heads, ∀ {brk : List Char}, Break brk → ∀ rest, Leads w (key ++ (brk ++ rest)) := by
  cases h with
  | @bearer k b c k' d hk hb hc hk' hd hne =>
    exact ⟨_, List.mem_singleton_self _, fun {brk} _ rest => ⟨k, b ++ ':' :: c, k' ++ (brk ++ rest),
      hk, .around hb (by decide) hc, by simp⟩⟩
  | @assignment names name _ b c hm hk hb hc =>
    exact ⟨_, List.mem_map_of_mem hm, fun {brk} hbrk rest => ⟨key, brk, rest, hk, hbrk, rfl⟩⟩

theorem silent_shown {r : Rule} (hr : r.Plain) (q : Rule) (post : List Char) :
    r.Silent q.shown post := by
  intro s hs hne
  cases hm : r.matchAt (s ++ post) with
  | none => rfl
  | some m =>
    obtain ⟨sep, v, rest, he, ho, -⟩ := opens_of_matchAt hr hm
    obtain ⟨w, hw, hlead⟩ := ho.leads (v ++ rest)
    rw [← he] at hlead
    exact absurd hlead (not_leads_shown (hr.heads hw) hs hne post)

theorem matchAt_shown {r : Rule} (hr : r.Plain) {key post : List Char} (ho : r.Opens key [r.mark])
    (hpost : Ends post) :
    r.matchAt (key ++ (r.shown ++ post)) = some ⟨key, (key ++ r.shown).length⟩ := by
  have hm := matchAt_of_opens hr ho value_placeholder hpost
  rw [shown_eq, List.append_assoc, hm]
  congr 2
  simp
  omega

/-- In a key with its placeholder, only the hidden credential begins. -/
theorem Opens.settled {r : Rule} (hr : r.Plain) (hself : ∀ w ∈ r.heads, r.Avoids w)
    {key post : List Char} (ho : r.Opens key [r.mark]) (hpost : Ends post) :
    r.Settled key (r.shown ++ post) := by
  rintro s m ⟨p, rfl⟩ hne hm
  by_cases hp : p = []
  · subst hp
    have hfound := (matchAt_shown hr ho hpost).symm.trans hm
    rw [← Option.some.inj hfound, ← List.append_assoc]
    exact List.take_left
  · obtain ⟨sep, v, rest, he, ho', -⟩ := opens_of_matchAt hr hm
    obtain ⟨w, hw, hlead⟩ := ho'.leads (v ++ rest)
    rw [← he] at hlead
    have hsplit : (p ++ s) ++ ([r.mark] ++ (placeholder ++ post)) =
        p ++ (s ++ (r.shown ++ post)) := by
      simp [shown_eq]
    obtain ⟨u, hu, -⟩ := ho.ends_before hr (hr.heads hw) hlead (hself w hw) hp hsplit
    have hlen := congrArg List.length hu
    simp only [List.length_append, List.length_singleton] at hlen
    omega

/-- A replacement by the rule `q` leaves what the rule `r` finds hidden, if no key of `q` lies
across the beginning of a key of `r` and `r` finds nothing in the keys of `q`. -/
theorem settled_replace {r q : Rule} (hr : r.Plain) (hq : q.Plain)
    (hav : ∀ w ∈ q.heads, r.Avoids w)
    (hkey : ∀ {key post : List Char}, q.Opens key [q.mark] → Ends post →
      r.Settled key (q.shown ++ post))
    {cs : List Char} (hcs : ∀ a x, a ++ x <:+ cs → q.Silent a x → r.Settled a x) :
    r.Settled (q.replace cs) [] := by
  induction hn : cs.length using Nat.strong_induction_on generalizing cs with
  | _ n ih =>
    rcases replace_cases hq cs with
      ⟨hocc, heq⟩ | ⟨a, key, sep, v, rest, rfl, hsilent, ho, hv, hrest, heq⟩
    · rw [heq]
      exact hcs cs [] (by simp) (silent_of_not_occursIn hocc)
    · obtain ⟨w, hw, hlead⟩ := ho.leads_of_break
      have hbefore : r.Settled a (key ++ (q.shown ++ q.replace rest)) := by
        refine Settled.swap hr (hq.heads hw) (hlead ho.break (v ++ rest)) ?_ (hav w hw)
          (hcs a _ (List.suffix_refl _) hsilent)
        have := hlead ho.marked.break (placeholder ++ q.replace rest)
        rwa [← List.append_assoc [q.mark], ← shown_eq] at this
      have hsuf : rest <:+ a ++ (key ++ (sep ++ (v ++ rest))) :=
        ⟨a ++ (key ++ (sep ++ v)), by simp⟩
      have hafter : r.Settled (q.replace rest) [] := by
        have hvpos := List.length_pos_iff.2 hv.ne_nil
        exact ih rest.length (by simp [← hn]; omega) (fun b x hbx => hcs b x (hbx.trans hsuf)) rfl
      have hshown : r.Settled (q.shown ++ q.replace rest) [] :=
        Settled.append (by simpa using (silent_shown hr q (q.replace rest)).settled) hafter
      rw [heq]
      refine Settled.append (by simpa using hbefore) (Settled.append ?_ hshown)
      simpa using hkey ho.marked (ends_replace hq hrest)

/-- A rule leaves its own credentials hidden. -/
theorem settled_replace_self {r : Rule} (hr : r.Plain) (hself : ∀ w ∈ r.heads, r.Avoids w)
    (cs : List Char) : r.Settled (r.replace cs) [] :=
  settled_replace hr hr hself (fun ho hpost => ho.settled hr hself hpost)
    fun _ _ _ hsilent => hsilent.settled

/-- A rule that found something finds it again. -/
theorem occursIn_replace {r : Rule} (hr : r.Plain) {cs : List Char} (h : r.occursIn cs = true) :
    r.occursIn (r.replace cs) = true := by
  rcases replace_cases hr cs with ⟨hocc, -⟩ | ⟨a, key, sep, v, rest, -, -, ho, -, hrest, heq⟩
  · rw [h] at hocc
    cases hocc
  · rw [heq]
    refine occursIn_append a (occursIn_of_matchAt
      (matchAt_shown hr ho.marked (ends_replace hr hrest)) ?_)
    simp [shown_eq]

theorem take_credential {key sep v rest : List Char} :
    (key ++ (sep ++ (v ++ rest)) ++ []).take (key.length + sep.length + v.length) =
      key ++ (sep ++ v) := by
  have hcred : key ++ (sep ++ (v ++ rest)) ++ [] = (key ++ (sep ++ v)) ++ rest := by simp
  have hlen : key.length + sep.length + v.length = (key ++ (sep ++ v)).length := by simp; omega
  rw [hcred, hlen, List.take_left]

/-- What a rule finds in a settled text is what it would put there. -/
theorem Settled.shown_eq {r : Rule} (hr : r.Plain) {cs key sep v rest : List Char}
    (h : r.Settled cs []) (hsuf : key ++ (sep ++ (v ++ rest)) <:+ cs) (ho : r.Opens key sep)
    (hv : Value v) (hrest : Ends rest) : sep ++ v = r.shown := by
  have hm := matchAt_of_opens hr ho hv hrest
  have htake := h _ _ hsuf (by simp [hv.ne_nil]) (by simpa using hm)
  rw [take_credential] at htake
  exact List.append_cancel_left htake

/-- A hidden credential has the placeholder for its value. -/
theorem Settled.value_eq {r : Rule} (hr : r.Plain) {cs v : List Char} (h : r.Settled cs [])
    (hv : r.Finds cs v) : v = placeholder := by
  obtain ⟨pre, key, sep, rest, rfl, ho, hv, hrest⟩ := hv
  have hsv := h.shown_eq hr (List.suffix_append _ _) ho hv hrest
  rw [Rule.shown_eq] at hsv
  have hsep := ho.break
  -- the separator is a single sign, since the placeholder begins with none
  rcases sep with - | ⟨c, - | ⟨d, sep⟩⟩
  · exact absurd rfl hsep.ne_nil
  · exact (List.cons.inj hsv).2
  · have hp : (d :: sep) ++ v = placeholder := (List.cons.inj hsv).2
    have hd := isWordChar_placeholder d (hp ▸ by simp)
    rw [hsep.chars d (by simp)] at hd
    cases hd

end Rule

/-! ## The rules of the redactor in turn -/

theorem plain_tokens : tokens.Plain := plain_of_mem_rules (by decide)

theorem keyNames_of_secrets : ∀ n ∈ secrets.names, n ∈ keyNames := by decide

theorem keyNames_of_tokens : ∀ n ∈ tokens.names, n ∈ keyNames := by decide

theorem named_of_secrets {key sep : List Char} (h : secrets.Opens key sep) :
    (Rule.assignment keyNames).Opens key sep := by
  cases h with
  | assignment hm hk hb hc => exact .assignment (keyNames_of_secrets _ hm) hk hb hc

theorem settled_bearer (cs : List Char) : Rule.bearer.Settled (Rule.bearer.replace cs) [] :=
  Rule.settled_replace_self plain_bearer
    (fun _ hw => List.mem_singleton.1 hw ▸ bearer_avoids_authorization) cs

theorem settled_secrets (cs : List Char) : secrets.Settled (secrets.replace cs) [] := by
  refine Rule.settled_replace_self plain_secrets (fun w hw => ?_) cs
  obtain ⟨n, hn, rfl⟩ := List.mem_map.1 hw
  exact secrets_avoid_keyNames n (keyNames_of_secrets n hn)

/-- The second rule uncovers no header. -/
theorem bearer_settled_replace_secrets {cs : List Char} (h : Rule.bearer.Settled cs []) :
    Rule.bearer.Settled (secrets.replace cs) [] := by
  refine Rule.settled_replace plain_bearer plain_secrets (fun w hw => ?_)
    (fun {key post} ho _ => ?_)
    fun a x ⟨p, hp⟩ _ => ?_
  · obtain ⟨n, hn, rfl⟩ := List.mem_map.1 hw
    exact bearer_avoids_keyNames n (keyNames_of_secrets n hn)
  · rw [Rule.shown_eq, List.append_assoc]
    exact Rule.Settled.front (bearer_silent_in_key (named_of_secrets ho) _).settled
  · subst hp
    simpa using Rule.Settled.front (Rule.Settled.suffix h)

/-- What the third rule finds ends in what the second one finds. -/
theorem exists_secret_of_tokens {cs : List Char} {m : Match} (h : tokens.matchAt cs = some m) :
    ∃ front u m', cs = front ++ u ∧ secrets.matchAt u = some m' ∧ m.key = front ++ m'.key ∧
      m.length = front.length + m'.length := by
  obtain ⟨sep, v, rest, rfl, ho, hv, hrest, hlen⟩ := opens_of_matchAt plain_tokens h
  rw [hlen]
  generalize m.key = key at ho
  cases ho with
  | @assignment _ name _ b c hname hk hb hc =>
    obtain ⟨n, hn, ⟨x, hx⟩, -⟩ := secret_of_mem_keyNames name (keyNames_of_tokens name hname)
    obtain ⟨front, k, rfl, -, hkn⟩ := List.map_eq_append_iff.1 (hk.trans hx.symm)
    have hm := matchAt_of_opens plain_secrets (.assignment hn hkn hb hc) hv hrest
    exact ⟨front, _, _, by rw [List.append_assoc], hm, rfl,
      by simp only [List.length_append]; omega⟩

/-- Where the second rule has hidden all that it finds, so has the third. -/
theorem tokens_settled {cs : List Char} (h : secrets.Settled cs []) : tokens.Settled cs [] := by
  intro s m hs hne hm
  rw [List.append_nil] at hm ⊢
  obtain ⟨front, u, m', rfl, hm', hkey, hlen⟩ := exists_secret_of_tokens hm
  have htake : u.take m'.length = m'.key ++ secrets.shown := by
    simpa using h u m' ((List.suffix_append _ _).trans hs)
      (Rule.ne_nil_of_matchAt plain_secrets hm') (by simpa using hm')
  rw [hlen, hkey, List.take_length_add_append, htake, List.append_assoc]
  rfl

/-- The third rule has nothing left to do, and no rule has anything to do again. -/
theorem redactChars_snd (cs : List Char) :
    (redactChars cs).2 = secrets.replace (Rule.bearer.replace cs) := by
  rw [redactChars_eq]
  exact (tokens_settled (settled_secrets _)).replace_eq plain_tokens

theorem redactChars_settled (cs : List Char) :
    ∀ r ∈ rules, r.Plain ∧ r.Settled (redactChars cs).2 [] := by
  rw [redactChars_snd]
  intro r hr
  refine ⟨plain_of_mem_rules hr, ?_⟩
  simp only [rules, List.mem_cons, List.not_mem_nil, or_false] at hr
  rcases hr with rfl | rfl | rfl
  · exact bearer_settled_replace_secrets (settled_bearer cs)
  · exact settled_secrets _
  · exact tokens_settled (settled_secrets _)

theorem redactChars_fst {cs : List Char} :
    (redactChars cs).1 = false ↔ ∀ r ∈ rules, r.occursIn cs = false := by
  have hrules : (∀ r ∈ rules, r.occursIn cs = false) ↔
      Rule.bearer.occursIn cs = false ∧ secrets.occursIn cs = false ∧
        tokens.occursIn cs = false := by
    simp only [rules, List.forall_mem_cons, List.not_mem_nil, false_imp_iff, implies_true, and_true]
    rfl
  rw [hrules, redactChars_eq, Bool.or_eq_false_iff, Bool.or_eq_false_iff, and_assoc]
  -- what finds nothing changes nothing, so the next rule sees the text itself
  refine and_congr_right fun hb => ?_
  rw [show Rule.bearer.replace cs = cs from Rule.replaceFrom_of_not_occursIn hb]
  refine and_congr_right fun hs => ?_
  rw [show secrets.replace cs = cs from Rule.replaceFrom_of_not_occursIn hs]

/-- A text in which something was found keeps a credential with its value hidden. -/
theorem exists_occursIn_of_found {cs : List Char} (h : (redactChars cs).1 = true) :
    ∃ r ∈ rules, r.occursIn (redactChars cs).2 = true := by
  rw [redactChars_snd]
  simp only [redactChars_eq, Bool.or_eq_true] at h
  rcases h with (hb | hs) | ht
  · cases hs : secrets.occursIn (Rule.bearer.replace cs) with
    | true => exact ⟨secrets, by decide, Rule.occursIn_replace plain_secrets hs⟩
    | false =>
      refine ⟨.bearer, by decide, ?_⟩
      rw [show secrets.replace _ = _ from Rule.replaceFrom_of_not_occursIn hs]
      exact Rule.occursIn_replace plain_bearer hb
  · exact ⟨secrets, by decide, Rule.occursIn_replace plain_secrets hs⟩
  · exact ⟨tokens, by decide, ht⟩

/-- Redacting again finds something if redacting did, and changes nothing. -/
theorem redactChars_redactChars (cs : List Char) :
    redactChars (redactChars cs).2 = redactChars cs := by
  have hsettled := redactChars_settled cs
  have keep : ∀ r ∈ rules, r.replace (redactChars cs).2 = (redactChars cs).2 :=
    fun r hr => (hsettled r hr).2.replace_eq (hsettled r hr).1
  refine Prod.ext ?_ ?_
  · cases hfound : (redactChars cs).1 with
    | true =>
      obtain ⟨r, hr, hocc⟩ := exists_occursIn_of_found hfound
      refine eq_true_of_ne_false fun hnone => ?_
      rw [redactChars_fst.1 hnone r hr] at hocc
      cases hocc
    | false =>
      have hnone := redactChars_fst.1 hfound
      rw [redactChars_snd, show Rule.bearer.replace cs = cs from
          Rule.replaceFrom_of_not_occursIn (hnone .bearer (by decide)),
        show secrets.replace cs = cs from
          Rule.replaceFrom_of_not_occursIn (hnone secrets (by decide)), hfound]
  · rw [redactChars_snd (redactChars cs).2, keep .bearer (by decide), keep secrets (by decide)]

theorem redact_redact (t : String) : redact (redact t).2 = redact t := by
  simp only [redact, String.toList_ofList, redactChars_redactChars]

/-- Redacting an error again finds something if redacting it did, and changes nothing. -/
theorem redactError_redactError (e : ChatError) :
    redactError (redactError e).2 = redactError e := by
  cases hd : e.detail with
  | none =>
    have he : redactError e = (false, e) := by rw [redactError, hd]
    rw [he, he]
  | some s =>
    cases hs : redact s with
    | mk found clean =>
      cases found with
      | false =>
        have he : redactError e = (false, e) := by rw [redactError, hd]; simp only [hs]
        rw [he, he]
      | true =>
        have hclean : redact clean = (true, clean) := by
          rw [← hs, ← redact_redact s, hs]
        have he : redactError e = (true, e.withDetail clean) := by
          rw [redactError, hd]; simp only [hs]
        rw [he, redactError, ChatError.detail_withDetail, hd]
        simp only [Option.map_some, hclean, ChatError.withDetail_withDetail]

/-- Redaction touches nothing but the detail of an error. -/
theorem redactError_eq_withDetail (e : ChatError) :
    (redactError e).2 = e ∨ ∃ s, (redactError e).2 = e.withDetail s := by
  unfold redactError
  split
  · exact .inl rfl
  · split
    · exact .inr ⟨_, rfl⟩
    · exact .inl rfl

/-- In a redacted text, whatever any rule finds, from any character on, is what the rule puts there:
the value is the placeholder. Redacting it again changes nothing, and redacting a text in which no
rule finds anything neither. So redacting an error twice is redacting it once, and it stays the same
kind of error. -/
theorem redact_settled (t : String) :
    (∀ r ∈ rules, (∀ u m, u <:+ (redact t).2.toList → r.matchAt u = some m →
        u.take m.length = m.key ++ r.shown) ∧
      ∀ v, r.Finds (redact t).2.toList v → v = placeholder) ∧
    redact (redact t).2 = redact t ∧
    ((∀ r ∈ rules, ∀ u m, u <:+ t.toList → r.matchAt u ≠ some m) → redact t = (false, t)) ∧
    ∀ e : ChatError, redactError (redactError e).2 = redactError e ∧
      (redactError e).2.kind = e.kind ∧ (redactError e).2.isTransient = e.isTransient ∧
      (∀ cause text, e = .io cause text → ∃ text', (redactError e).2 = .io cause text') ∧
      ∀ limit, e = .timeout limit → (redactError e).2 = .timeout limit := by
  refine ⟨fun r hr => ?_, redact_redact t, fun hnone => ?_, fun e => ⟨redactError_redactError e,
    kind_redactError e, ?_, ?_, ?_⟩⟩
  · obtain ⟨hplain, hsettled⟩ := redactChars_settled t.toList r hr
    rw [redact, String.toList_ofList]
    refine ⟨fun u m hu hm => ?_, fun v => hsettled.value_eq hplain⟩
    simpa using hsettled u m hu (Rule.ne_nil_of_matchAt hplain hm) (by simpa using hm)
  · refine redact_of_not_found (redactChars_fst.2 fun r hr => eq_false_of_ne_true fun hocc => ?_)
    obtain ⟨a, u, m, he, -, hm⟩ := Rule.exists_first_of_occursIn hocc
    exact hnone r hr u m ⟨a, he.symm⟩ hm
  · rcases redactError_eq_withDetail e with he | ⟨s, he⟩
    · rw [he]
    · rw [he, ChatError.isTransient_withDetail]
  · rintro cause text rfl
    rcases redactError_eq_withDetail (.io cause text) with he | ⟨s, he⟩
    · exact ⟨text, he⟩
    · exact ⟨s, he⟩
  · rintro limit rfl
    rfl

example : redact "x-token =  authorization: bearer a" =
    (true, "x-token=[REDACTED] bearer [REDACTED]") := by decide

end Switchboard.Redaction
