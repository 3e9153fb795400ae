import Switchboard.Client.Step
import Switchboard.Proofs.Redaction.Scan

/-!
# What redaction conceals

Two texts that differ in the value of one credential are redacted to the same text. A value that
follows `=` at once is always concealed: if an earlier value takes in the key, it takes in the value
too (`assigned_value_concealed`). With a blank between key and value it may take in the key alone,
and the value stays; apart from that, the value is concealed (`spaced_value_concealed`).
-/

namespace Switchboard.Redaction

open Text Chat

/-! ## The rules of the redactor -/

/-- The second rule of the redactor. -/
def secrets : Rule := .assignment ["apikey", "api_key", "api-key", "token", "secret", "password"]

/-- The third rule of the redactor. -/
def tokens : Rule := .assignment ["x-api-key", "access_token", "refresh_token"]

def Rule.names : Rule → List String
  | bearer => []
  | assignment names => names

/-- All names that are redacted before `=`. -/
def keyNames : List String := rules.flatMap Rule.names

theorem plain_bearer : Rule.bearer.Plain := plain_of_mem_rules (by decide)

theorem plain_secrets : secrets.Plain := plain_of_mem_rules (by decide)

theorem word_of_mem_keyNames : ∀ n ∈ keyNames, Word n.toList := by decide

theorem bearer_avoids_keyNames : ∀ n ∈ keyNames, Rule.bearer.Avoids n.toList := by
  have h : ∀ n ∈ keyNames, ¬ n.toList <:+ "authorization".toList ∧
      ¬ n.toList <:+ "bearer".toList := by decide
  exact fun n hn => ⟨fun ha => absurd ha (h n hn).1, (h n hn).2⟩

theorem bearer_avoids_authorization : Rule.bearer.Avoids "authorization".toList :=
  ⟨fun _ => rfl, by decide⟩

theorem secrets_avoid_keyNames : ∀ n ∈ keyNames, secrets.Avoids n.toList := by
  have h : ∀ n ∈ keyNames, ∀ m ∈ secrets.names, n.toList <:+ m.toList → n.toList = m.toList := by
    decide
  exact h

/-- Every name ends in just one of those that are replaced first. -/
theorem secret_of_mem_keyNames : ∀ n ∈ keyNames, ∃ m ∈ secrets.names, m.toList <:+ n.toList ∧
    ∀ m' ∈ secrets.names, m'.toList <:+ n.toList → m' = m := by decide

theorem authorization_not_suffix : ∀ n ∈ keyNames, ¬ "authorization".toList <:+ n.toList := by
  decide

/-! ## One credential -/

namespace Rule

theorem replace_credential {r : Rule} (hr : r.Plain) {key sep v post : List Char}
    (ho : r.Opens key sep) (hv : Value v) (hpost : Ends post) :
    r.replace (key ++ (sep ++ (v ++ post))) = key ++ r.shown ++ r.replace post := by
  have hm := matchAt_of_opens hr ho hv hpost
  have hne : v ++ post ≠ [] := List.append_ne_nil_of_left_ne_nil hv.ne_nil post
  rw [replace_of_matchAt hm (by simp [hv.ne_nil]) (matchAt_pos hr hm)]
  congr 2
  simp only [← List.append_assoc]
  rw [← List.length_append, ← List.length_append, List.drop_left]

theorem isValueChar_of_matchAt {r : Rule} (hr : r.Plain) {c : Char} {cs : List Char} {m : Match}
    (hm : r.matchAt (c :: cs) = some m) : isValueChar c = true := by
  obtain ⟨sep, v, rest, he, ho, -⟩ := opens_of_matchAt hr hm
  obtain ⟨w, hw, k, s, rest', hk, -, he'⟩ := ho.leads (v ++ rest)
  rw [he'] at he
  cases k with
  | nil => exact absurd rfl (hk.ne_nil (hr.heads hw))
  | cons d k =>
    cases he
    exact (isWordChar_of_isKeyChar (hk.isKeyChar (hr.heads hw) c List.mem_cons_self)).2

theorem ends_replace {r : Rule} (hr : r.Plain) {post : List Char} (h : Ends post) :
    Ends (r.replace post) := by
  cases post with
  | nil => exact h
  | cons c post =>
    have hc : r.matchAt (c :: post) = none := by
      cases hm : r.matchAt (c :: post) with
      | none => rfl
      | some m =>
        have hv := isValueChar_of_matchAt hr hm
        rw [h c rfl] at hv
        cases hv
    rw [replace_of_not_matchAt hc]
    exact h

/-- Where an earlier value takes in a key and the `=` after it, it takes in the whole value. -/
theorem Takes.replace_eq {r : Rule} {pre key v w post : List Char}
    (h : r.Takes (key ++ ['=']) pre) (hkey : ∀ c ∈ key, isValueChar c = true) (hv : Value v)
    (hw : Value w) (hpost : Ends post) :
    r.replace (pre ++ ((key ++ ['=']) ++ (v ++ post))) =
      r.replace (pre ++ ((key ++ ['=']) ++ (w ++ post))) := by
  obtain ⟨out, hout⟩ := h.after
  have drop : ∀ {v : List Char}, Value v →
      ((key ++ ['=']) ++ (v ++ post)).dropWhile isValueChar = post := by
    intro v hv
    rw [← List.append_assoc]
    refine dropWhile_append_ends (fun c hc => ?_) hpost
    simp only [List.mem_append, List.mem_singleton] at hc
    rcases hc with (hc | rfl) | hc
    · exact hkey c hc
    · decide
    · exact hv.chars c hc
  rw [hout, hout, drop hv, drop hw]

/-- No credential of the rule begins in `v`. -/
def Silent (r : Rule) (v post : List Char) : Prop :=
  ∀ s, s <:+ v → s ≠ [] → r.matchAt (s ++ post) = none

end Rule

section Named

variable {key sep : List Char} (ho : (Rule.assignment keyNames).Opens key sep)

include ho

theorem leads_of_named : ∃ name ∈ keyNames, Leads name.toList (key ++ sep) := by
  cases ho with
  | @assignment _ name _ b c hm hk hb hc =>
    exact ⟨name, hm, key, b ++ '=' :: c, [], hk, .around hb (by decide) hc, by simp⟩

theorem isValueChar_of_named : ∀ c ∈ key, isValueChar c = true := by
  cases ho with
  | @assignment _ name _ _ _ hm hk _ _ =>
    exact fun c hc => (isWordChar_of_isKeyChar (hk.isKeyChar (word_of_mem_keyNames name hm) c hc)).2

/-- A bearer header neither begins in a name nor in the separator after it. -/
theorem bearer_silent_in_key (t : List Char) : Rule.bearer.Silent (key ++ sep) t := by
  cases ho with
  | @assignment _ name _ b c hm hk hb hc =>
    have hbreak := Break.around hb (by decide : isWordChar '=' = false) hc
    have hkey := hk.isWordChar (word_of_mem_keyNames name hm)
    rintro s ⟨p, hp⟩ hne
    -- what begins in the credential is an end of the key and the separator, or an end of that
    have part : ∃ k s', k <:+ key ∧ Break s' ∧ s = k ++ s' := by
      rcases List.append_eq_append_iff.1 hp with ⟨k, rfl, rfl⟩ | ⟨x, rfl, hs⟩
      · exact ⟨k, b ++ '=' :: c, List.suffix_append _ _, hbreak, rfl⟩
      · refine ⟨[], s, List.nil_suffix, ⟨hne, fun d hd => ?_⟩, rfl⟩
        refine hbreak.chars d ?_
        rw [hs]
        exact List.mem_append_right _ hd
    obtain ⟨k, s', hsuf, hs', rfl⟩ := part
    cases hmatch : Rule.bearer.matchAt ((k ++ s') ++ t) with
    | none => rfl
    | some m =>
      rw [List.append_assoc] at hmatch
      have hhead := mem_heads_of_matchAt plain_bearer (fun d hd => hkey d (hsuf.subset hd)) hs'
        hmatch
      have hend : k.map fold <:+ key.map fold := hsuf.map fold
      rw [List.mem_singleton.1 hhead, show key.map fold = name.toList from hk] at hend
      exact absurd hend (authorization_not_suffix name hm)

/-- The names that are replaced last are seen to by the others, which they end in. -/
theorem secrets_replace_named : ∃ out, ∀ {v post : List Char}, Value v → Ends post →
    secrets.occursIn ((key ++ sep) ++ (v ++ post)) = true ∧
      secrets.replace ((key ++ sep) ++ (v ++ post)) = out ++ secrets.replace post := by
  cases ho with
  | @assignment _ name _ b c hm hk hb hc =>
    obtain ⟨m, hmem, ⟨x, hx⟩, huniq⟩ := secret_of_mem_keyNames name hm
    obtain ⟨front, k, rfl, hfront, hkm⟩ := List.map_eq_append_iff.1 (hk.trans hx.symm)
    have hopens : secrets.Opens k (b ++ '=' :: c) := .assignment hmem hkm hb hc
    have hkey := hk.isWordChar (word_of_mem_keyNames name hm)
    have hbreak := Break.around hb (by decide : isWordChar '=' = false) hc
    refine ⟨front ++ (k ++ secrets.shown), fun {v post} hv hpost => ?_⟩
    have hmatch := matchAt_of_opens plain_secrets hopens hv hpost
    have hsilent : secrets.Silent front (k ++ ((b ++ '=' :: c) ++ (v ++ post))) := by
      intro s hs hne
      cases hsm : secrets.matchAt (s ++ (k ++ ((b ++ '=' :: c) ++ (v ++ post)))) with
      | none => rfl
      | some m' =>
        rw [← List.append_assoc] at hsm
        have hsub : ∀ d ∈ s ++ k, isWordChar d = true := by
          intro d hd
          refine hkey d ?_
          rcases List.mem_append.1 hd with hd | hd
          · exact List.mem_append_left _ (hs.subset hd)
          · exact List.mem_append_right _ hd
        have hhead := mem_heads_of_matchAt plain_secrets hsub hbreak hsm
        obtain ⟨n, hn, hsk⟩ := List.mem_map.1 hhead
        have hsuf : n.toList <:+ name.toList := by
          rw [hsk, ← show (front ++ k).map fold = name.toList from hk]
          obtain ⟨p, rfl⟩ := hs
          exact ⟨p.map fold, by simp⟩
        -- the end of the name that is read is the one name that it ends in, so nothing is before it
        have hlen := congrArg List.length hsk
        rw [huniq n hn hsuf, ← hkm] at hlen
        simp only [List.length_map, List.length_append] at hlen
        exact absurd (List.length_eq_zero_iff.1 (by omega)) hne
    have hassoc : ((front ++ k) ++ (b ++ '=' :: c)) ++ (v ++ post) =
        front ++ (k ++ ((b ++ '=' :: c) ++ (v ++ post))) := by simp
    rw [hassoc]
    constructor
    · exact Rule.occursIn_append front (Rule.occursIn_of_matchAt hmatch (by simp))
    · rw [Rule.replace_append_of_not_matchAt hsilent,
        Rule.replace_credential plain_secrets hopens hv hpost, List.append_assoc, List.append_assoc,
        List.append_assoc]

/-- Bearer headers leave a credential of another kind as it is. -/
theorem bearer_replace_named {v post : List Char} (hs : Rule.bearer.Silent v post) :
    Rule.bearer.replace ((key ++ sep) ++ (v ++ post)) =
      (key ++ sep) ++ (v ++ Rule.bearer.replace post) := by
  rw [Rule.replace_append_of_not_matchAt (bearer_silent_in_key ho _),
    Rule.replace_append_of_not_matchAt hs]

end Named

/-! ## The three rules in turn -/

theorem redactChars_eq (cs : List Char) :
    redactChars cs =
      (Rule.bearer.occursIn cs || secrets.occursIn (Rule.bearer.replace cs) ||
          tokens.occursIn (secrets.replace (Rule.bearer.replace cs)),
        tokens.replace (secrets.replace (Rule.bearer.replace cs))) := rfl

theorem redactChars_eq_of_bearer {x y : List Char} (hx : Rule.bearer.occursIn x = true)
    (hy : Rule.bearer.occursIn y = true) (h : Rule.bearer.replace x = Rule.bearer.replace y) :
    redactChars x = redactChars y := by
  rw [redactChars_eq, redactChars_eq, hx, hy, h]

theorem redactChars_eq_of_secrets {x y : List Char}
    (hx : secrets.occursIn (Rule.bearer.replace x) = true)
    (hy : secrets.occursIn (Rule.bearer.replace y) = true)
    (h : secrets.replace (Rule.bearer.replace x) = secrets.replace (Rule.bearer.replace y)) :
    redactChars x = redactChars y := by
  rw [redactChars_eq, redactChars_eq, hx, hy, h]
  simp only [Bool.or_true, Bool.true_or]

/-- The value after a name is concealed where no bearer header begins in it, if no earlier value
takes in the name or there is no blank that ends it before the value. -/
theorem named_concealed {key sep pre v w post : List Char}
    (ho : (Rule.assignment keyNames).Opens key sep) (hv : Value v) (hw : Value w)
    (hpost : Ends post) (hsv : Rule.bearer.Silent v post) (hsw : Rule.bearer.Silent w post)
    (hb : sep = ['='] ∨ Rule.bearer.reach 0 pre (key ++ sep) = 0)
    (hs : sep = ['='] ∨ secrets.reach 0 (Rule.bearer.replace pre) (key ++ sep) = 0) :
    redactChars (pre ++ ((key ++ sep) ++ (v ++ post))) =
      redactChars (pre ++ ((key ++ sep) ++ (w ++ post))) := by
  obtain ⟨name, hname, hlead⟩ := leads_of_named ho
  have hword := word_of_mem_keyNames name hname
  have hkey := isValueChar_of_named ho
  rcases Rule.replace_before plain_bearer hword hlead (bearer_avoids_keyNames name hname) pre with
    ⟨-, hpre⟩ | htakes
  · have hbearer : ∀ {v : List Char}, Rule.bearer.Silent v post →
        Rule.bearer.replace (pre ++ ((key ++ sep) ++ (v ++ post))) =
          Rule.bearer.replace pre ++ ((key ++ sep) ++ (v ++ Rule.bearer.replace post)) :=
      fun hsv => by rw [hpre, bearer_replace_named ho hsv]
    have hpost' := Rule.ends_replace plain_bearer hpost
    obtain ⟨out, hout⟩ := secrets_replace_named ho
    refine redactChars_eq_of_secrets ?_ ?_ ?_
    · rw [hbearer hsv]
      exact Rule.occursIn_append _ (hout hv hpost').1
    · rw [hbearer hsw]
      exact Rule.occursIn_append _ (hout hw hpost').1
    · rw [hbearer hsv, hbearer hsw]
      rcases Rule.replace_before plain_secrets hword hlead (secrets_avoid_keyNames name hname)
        (Rule.bearer.replace pre) with ⟨-, hpre'⟩ | htakes
      · rw [hpre', hpre', (hout hv hpost').2, (hout hw hpost').2]
      · obtain rfl := hs.resolve_right htakes.reach
        exact htakes.replace_eq hkey hv hw hpost'
  · obtain rfl := hb.resolve_right htakes.reach
    exact redactChars_eq_of_bearer (htakes.occurs _) (htakes.occurs _)
      (htakes.replace_eq hkey hv hw hpost)

/-- The value after a bearer header is concealed if no earlier value takes in the header. -/
theorem bearer_concealed {key sep pre v w post : List Char} (ho : Rule.bearer.Opens key sep)
    (hv : Value v) (hw : Value w) (hpost : Ends post)
    (hb : Rule.bearer.reach 0 pre (key ++ sep) = 0) :
    redactChars (pre ++ ((key ++ sep) ++ (v ++ post))) =
      redactChars (pre ++ ((key ++ sep) ++ (w ++ post))) := by
  have hlead : Leads "authorization".toList (key ++ sep) := by
    obtain ⟨w, hw, hl⟩ := ho.leads []
    rw [← List.mem_singleton.1 hw]
    simpa using hl
  have occurs : ∀ {v : List Char}, Value v →
      Rule.bearer.occursIn (pre ++ ((key ++ sep) ++ (v ++ post))) = true := by
    intro v hv
    rw [List.append_assoc key]
    exact Rule.occursIn_append pre
      (Rule.occursIn_of_matchAt (matchAt_of_opens plain_bearer ho hv hpost) (by simp [hv.ne_nil]))
  refine redactChars_eq_of_bearer (occurs hv) (occurs hw) ?_
  rcases Rule.replace_before plain_bearer (by decide) hlead bearer_avoids_authorization pre with
    ⟨-, hpre⟩ | htakes
  · rw [hpre, hpre, List.append_assoc key, List.append_assoc key,
      Rule.replace_credential plain_bearer ho hv hpost,
      Rule.replace_credential plain_bearer ho hw hpost]
  · exact absurd hb htakes.reach

/-! ## Texts and errors -/

theorem redact_eq_of_redactChars {x y : String} (h : redactChars x.toList = redactChars y.toList) :
    redact x = redact y := by
  simp only [redact, h]

/-- Where nothing is found, nothing is changed. -/
theorem redact_of_not_found {x : String} (h : (redact x).1 = false) : redact x = (false, x) := by
  have hf : (redactChars x.toList).1 = false := h
  simp only [redactChars_eq, Bool.or_eq_false_iff] at hf
  obtain ⟨⟨h1, h2⟩, h3⟩ := hf
  have e1 : Rule.bearer.replace x.toList = x.toList := Rule.replaceFrom_of_not_occursIn h1
  rw [e1] at h2 h3
  have e2 : secrets.replace x.toList = x.toList := Rule.replaceFrom_of_not_occursIn h2
  rw [e2] at h3
  have e3 : tokens.replace x.toList = x.toList := Rule.replaceFrom_of_not_occursIn h3
  rw [redact, redactChars_eq, e1, h1, e2, h2, e3, h3]
  simp

theorem withDetail_of_no_detail {e : ChatError} (h : e.detail = none) (s : String) :
    e.withDetail s = e := by
  cases e <;> first | rfl | cases h

/-- Errors whose details are redacted to one text are redacted to one error. -/
theorem redactError_withDetail_eq {x y : String} (h : redact x = redact y) (e : ChatError) :
    redactError (e.withDetail x) = redactError (e.withDetail y) := by
  simp only [redactError, ChatError.detail_withDetail]
  cases hd : e.detail with
  | none =>
    rw [withDetail_of_no_detail hd x, withDetail_of_no_detail hd y]
    rfl
  | some d =>
    simp only [Option.map_some]
    cases hx : redact x with
    | mk found clean =>
      rw [← h, hx]
      cases found with
      | true => simp only [ChatError.withDetail_withDetail]
      | false =>
        have hxy : x = y := by
          have h1 := redact_of_not_found (x := x) (by rw [hx])
          have h2 := redact_of_not_found (x := y) (by rw [← h, hx])
          rw [h, h2] at h1
          exact (Prod.mk.inj h1).2.symm
        rw [hxy]

/-! ## Values that follow at once -/

/-- A bearer header does not begin in a value that does not contain its first word. -/
theorem bearer_silent_of_not_mentioned {v post : List Char} (hpost : Ends post)
    (h : ¬ "authorization".toList <:+: v.map fold) : Rule.bearer.Silent v post := by
  intro s hs hne
  cases hm : Rule.bearer.matchAt (s ++ post) with
  | none => rfl
  | some m =>
    obtain ⟨sep, u, rest, he, ho, -⟩ := opens_of_matchAt plain_bearer hm
    obtain ⟨w, hw, k, s', rest', hk, -, he'⟩ := ho.leads (u ++ rest)
    rw [List.mem_singleton.1 hw] at hk
    rcases List.append_eq_append_iff.1 (he.trans he') with ⟨k', rfl, hpre⟩ | ⟨s'', rfl, -⟩
    · -- the word goes on after the value, which is over
      cases k' with
      | nil =>
        rw [List.append_nil] at hk
        exact absurd (hk ▸ (hs.map fold).isInfix) h
      | cons c k' =>
        have hc := (isWordChar_of_isKeyChar
          (hk.isKeyChar (by decide) c (List.mem_append_right _ List.mem_cons_self))).2
        rw [hpost c (by rw [hpre]; rfl)] at hc
        cases hc
    · refine absurd ?_ h
      have hin : k ++ s'' <:+: v := hs.isInfix
      have hfold := (List.infix_append' [] k s'').trans hin
      exact hk ▸ (by simpa using hfold.map fold)

/-- The value that follows a name and `=` at once is concealed, whatever is around it, unless a
bearer header may begin in it. Observers of a call that fails see the same error for any two such
values. -/
theorem assigned_value_concealed {pre name key v w post : String} (hname : name ∈ keyNames)
    (hkey : Spells name.toList key.toList) (hv : Value v.toList) (hw : Value w.toList)
    (hva : ¬ "authorization".toList <:+: v.toList.map fold)
    (hwa : ¬ "authorization".toList <:+: w.toList.map fold) (hpost : Ends post.toList) :
    redact (pre ++ key ++ "=" ++ v ++ post) = redact (pre ++ key ++ "=" ++ w ++ post) ∧
    (∀ e : ChatError, redactError (e.withDetail (pre ++ key ++ "=" ++ v ++ post)) =
      redactError (e.withDetail (pre ++ key ++ "=" ++ w ++ post))) ∧
    ∀ S : Client.Setup, S.redact = (fun e => (redactError e).2) → ∀ e : ChatError,
      S.shown (.failed (e.withDetail (pre ++ key ++ "=" ++ v ++ post))) =
        S.shown (.failed (e.withDetail (pre ++ key ++ "=" ++ w ++ post))) := by
  have hopens : (Rule.assignment keyNames).Opens key.toList ['='] :=
    .assignment (b := []) (c := []) hname hkey nofun nofun
  have hchars := @named_concealed _ _ pre.toList _ _ _ hopens hv hw hpost
    (bearer_silent_of_not_mentioned hpost hva) (bearer_silent_of_not_mentioned hpost hwa)
    (.inl rfl) (.inl rfl)
  have heq : redact (pre ++ key ++ "=" ++ v ++ post) = redact (pre ++ key ++ "=" ++ w ++ post) :=
    redact_eq_of_redactChars (by simpa using hchars)
  refine ⟨heq, redactError_withDetail_eq heq, fun S hS e => ?_⟩
  simp only [Client.Setup.shown, hS, redactError_withDetail_eq heq e]

/-- The password's value takes in the name and the value after it. -/
theorem value_in_value_concealed :
    redact ("password=x" ++ "TOKEN" ++ "=" ++ "a" ++ ", c") =
      redact ("password=x" ++ "TOKEN" ++ "=" ++ "bb" ++ ", c") :=
  (assigned_value_concealed (by decide : "token" ∈ keyNames) (by decide) (by decide) (by decide)
    (by decide) (by decide) (by decide)).1

/-! ## Values after a blank -/

/-- A key and a separator with a blank between the key and the value. -/
inductive Spaced : List Char → Prop
  | header {key sep : List Char} : Rule.bearer.Opens key sep → Spaced (key ++ sep)
  | assignment {key sep : List Char} : (Rule.assignment keyNames).Opens key sep → sep ≠ ['='] →
      Spaced (key ++ sep)

/-- No value before the credential takes in its key, and no bearer header begins in its own value.
Headers are replaced first, in the whole text, so the other rules find what is made of `pre` before
the key. -/
def StandsAlone (pre cred v post : List Char) : Prop :=
  Rule.bearer.reach 0 pre cred = 0 ∧
    ('=' ∈ cred →
      secrets.reach 0 (Rule.bearer.replace pre) cred = 0 ∧ Rule.bearer.reach 0 v post = 0)

theorem Rule.Opens.exists_blank {key sep : List Char} (h : Rule.bearer.Opens key sep) :
    ∃ d ∈ sep, isBlank d = true := by
  cases h with
  | bearer _ _ _ _ hd hne =>
    obtain ⟨d, hmem⟩ := List.exists_mem_of_ne_nil sep hne
    exact ⟨d, hmem, hd d hmem⟩

/-- A header has a blank in it, so one that begins in a value ends after it. -/
theorem lt_length_of_bearer {v post : List Char} {m : Match}
    (hv : ∀ c ∈ v, isValueChar c = true) (hm : Rule.bearer.matchAt (v ++ post) = some m) :
    v.length < m.length := by
  obtain ⟨sep, u, rest, he, ho, hu, -, hlen⟩ := opens_of_matchAt plain_bearer hm
  have hupos := List.length_pos_iff.2 hu.ne_nil
  rw [← List.append_assoc] at he
  rcases List.append_eq_append_iff.1 he with ⟨x, hx, -⟩ | ⟨x, rfl, -⟩
  · have hsum := congrArg List.length hx
    simp only [List.length_append] at hsum
    omega
  · obtain ⟨d, hd, hblank⟩ := ho.exists_blank
    have hval := hv d (by simp [hd])
    rw [isValueChar, hblank] at hval
    cases hval

theorem bearer_silent_of_reach {v post : List Char} (hv : ∀ c ∈ v, isValueChar c = true)
    (h : Rule.bearer.reach 0 v post = 0) : Rule.bearer.Silent v post := by
  induction v with
  | nil =>
    intro s hs hne
    exact absurd (List.suffix_nil.1 hs) hne
  | cons c v ih =>
    have hnone : Rule.bearer.matchAt (c :: (v ++ post)) = none := by
      cases hm : Rule.bearer.matchAt (c :: (v ++ post)) with
      | none => rfl
      | some m =>
        have hlong : (c :: v).length < m.length := lt_length_of_bearer hv hm
        have hreach := Rule.reach_of_matchAt (u := c :: v) hm (by simp)
          (Rule.matchAt_pos plain_bearer hm)
        rw [if_neg (by omega), h] at hreach
        omega
    rw [Rule.reach_of_not_matchAt hnone] at h
    intro s hs hne
    rcases List.suffix_cons_iff.1 hs with rfl | hs
    · exact hnone
    · exact ih (fun d hd => hv d (List.mem_cons_of_mem c hd)) h s hs hne

/-- The value of a credential with a blank before it is concealed where the credential stands
alone. -/
theorem spaced_value_concealed {pre cred v w post : String} (hc : Spaced cred.toList)
    (hv : Value v.toList) (hw : Value w.toList) (hpost : Ends post.toList)
    (hav : StandsAlone pre.toList cred.toList v.toList post.toList)
    (haw : StandsAlone pre.toList cred.toList w.toList post.toList) :
    redact (pre ++ cred ++ v ++ post) = redact (pre ++ cred ++ w ++ post) := by
  apply redact_eq_of_redactChars
  simp only [String.toList_append, List.append_assoc]
  generalize cred.toList = cs at *
  cases hc with
  | @header key sep ho =>
    exact bearer_concealed ho hv hw hpost hav.1
  | @assignment key sep ho _ =>
    have heq : '=' ∈ key ++ sep := by
      cases ho
      simp
    exact named_concealed ho hv hw hpost (bearer_silent_of_reach hv.chars (hav.2 heq).2)
      (bearer_silent_of_reach hw.chars (haw.2 heq).2) (.inr hav.1) (.inr (hav.2 heq).1)

theorem spaced_token : Spaced "token = ".toList :=
  .assignment (@Rule.Opens.assignment keyNames "token" "token".toList " ".toList " ".toList
    (by decide) (by decide) (by decide) (by decide)) (by decide)

/-- The key stands after a header's value, and the value names a header's key. -/
theorem value_after_blank_concealed :
    redact ("authorization: bearer x, " ++ "token = " ++ "api_key=a" ++ ", c") =
      redact ("authorization: bearer x, " ++ "token = " ++ "authorization:b" ++ ", c") :=
  spaced_value_concealed spaced_token (by decide) (by decide) (by decide)
    ⟨by decide, fun _ => ⟨by decide, by decide⟩⟩ ⟨by decide, fun _ => ⟨by decide, by decide⟩⟩

/-- Redaction lets see which of the two values of a credential with a blank it was. -/
def TellsApart (pre cred v w post : String) : Prop :=
  Spaced cred.toList ∧ Value v.toList ∧ Value w.toList ∧ Ends post.toList ∧
    redact (pre ++ cred ++ v ++ post) ≠ redact (pre ++ cred ++ w ++ post)

theorem spaced_bearer : Spaced "Authorization: Bearer ".toList :=
  .header (@Rule.Opens.bearer "Authorization".toList [] " ".toList "Bearer".toList " ".toList
    (by decide) nofun (by decide) (by decide) (by decide) (by decide))

/-- An earlier value that takes in a key ends at the blank after it, so that the key is not found
and its value stays. A header that begins in the value takes in what follows the value. -/
theorem spaced_value_shown :
    TellsApart "password=" "token = " "a" "b" "" ∧
    TellsApart "Authorization: Bearer " "token = " "a" "b" "" ∧
    TellsApart "Authorization: Bearer " "Authorization: Bearer " "a" "b" "" ∧
    TellsApart "" "token = " "a" "authorization:bearer" " c" :=
  ⟨⟨spaced_token, by decide, by decide, by decide, by decide⟩,
    ⟨spaced_token, by decide, by decide, by decide, by decide⟩,
    ⟨spaced_bearer, by decide, by decide, by decide, by decide⟩,
    ⟨spaced_token, by decide, by decide, by decide, by decide⟩⟩

example : redact "password=token = a" = (true, "password=[REDACTED] = a") := by decide

end Switchboard.Redaction
