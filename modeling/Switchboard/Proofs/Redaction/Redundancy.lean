import Switchboard.Proofs.Redaction.Stability

/-!
# A rule that is not needed

Every name of the third rule ends in a name of the second one. So whatever the third rule finds in a
text ends in something that the second one finds there (`exists_secret_of_tokens`): where the second
rule finds nothing, neither does the third (`secrets_occursIn_of_tokens`), and where the second one
has hidden what it finds, the third has nothing left to hide (`tokens_settled`). The redactor would
do the same without its third rule (`last_rule_idle`).
-/

namespace Switchboard.Redaction

/-- Where the third rule finds something, so does the second. -/
theorem secrets_occursIn_of_tokens {cs : List Char} (h : tokens.occursIn cs = true) :
    secrets.occursIn cs = true := by
  obtain ⟨a, u, m, rfl, -, hm⟩ := Rule.exists_first_of_occursIn h
  obtain ⟨front, u, m', rfl, hm', -⟩ := exists_secret_of_tokens hm
  exact Rule.occursIn_append a (Rule.occursIn_append front
    (Rule.occursIn_of_matchAt hm' (Rule.ne_nil_of_matchAt plain_secrets hm')))

/-- The second rule leaves nothing for the third to find unless it found something itself. -/
theorem secrets_occursIn_of_tokens_replace {cs : List Char}
    (h : tokens.occursIn (secrets.replace cs) = true) : secrets.occursIn cs = true := by
  cases hocc : secrets.occursIn cs with
  | true => rfl
  | false =>
    rw [show secrets.replace cs = cs from Rule.replaceFrom_of_not_occursIn hocc] at h
    rw [← hocc, secrets_occursIn_of_tokens h]

theorem redactWith_two (cs : List Char) :
    redactWith [.bearer, secrets] cs =
      (Rule.bearer.occursIn cs || secrets.occursIn (Rule.bearer.replace cs),
        secrets.replace (Rule.bearer.replace cs)) := rfl

/-- The third rule changes neither the text nor what is said of it. -/
theorem redactChars_eq_two (cs : List Char) :
    redactChars cs = redactWith [.bearer, secrets] cs := by
  refine Prod.ext ?_ (redactChars_snd cs)
  rw [redactChars_eq, redactWith_two, Bool.or_eq_left_iff_imp]
  intro h
  rw [secrets_occursIn_of_tokens_replace h, Bool.or_true]

/-- The redactor gives the same text, and says the same of whether it found anything, as it would
with its first two rules only. Whatever the third rule finds in any text ends in what the second
finds there, down to the last character of the value. In what the second rule leaves, whatever the
third finds, from any character on, is what it would put there, so that it changes nothing; and it
finds nothing there unless the second rule did. -/
theorem last_rule_idle (t : String) (cs : List Char) :
    rules = [.bearer, secrets, tokens] ∧
    redact t =
      ((redactWith [.bearer, secrets] t.toList).1,
        String.ofList (redactWith [.bearer, secrets] t.toList).2) ∧
    (∀ u m, u <:+ cs → tokens.matchAt u = some m →
      ∃ front u' m', u = front ++ u' ∧ secrets.matchAt u' = some m' ∧ m.key = front ++ m'.key ∧
        m.length = front.length + m'.length) ∧
    (∀ u m, u <:+ secrets.replace cs → tokens.matchAt u = some m →
      u.take m.length = m.key ++ tokens.shown) ∧
    tokens.replace (secrets.replace cs) = secrets.replace cs ∧
    (tokens.occursIn cs = true → secrets.occursIn cs = true) ∧
    (tokens.occursIn (secrets.replace cs) = true → secrets.occursIn cs = true) := by
  have hsettled := tokens_settled (settled_secrets cs)
  refine ⟨rfl, ?_, fun u m _ hm => exists_secret_of_tokens hm, fun u m hu hm => ?_,
    hsettled.replace_eq plain_tokens, secrets_occursIn_of_tokens,
    secrets_occursIn_of_tokens_replace⟩
  · rw [redact, redactChars_eq_two]
  · simpa using hsettled u m hu (Rule.ne_nil_of_matchAt plain_tokens hm) (by simpa using hm)

/-- A key of the third rule, in letters that fold to its own, whose value the second rule has
hidden. -/
theorem hidden_before_last_rule :
    secrets.replace "Acceſſ_to\u212aen = a".toList = "Acceſſ_to\u212aen=[REDACTED]".toList ∧
    tokens.matchAt "Acceſſ_to\u212aen=[REDACTED]".toList =
      some ⟨"Acceſſ_to\u212aen".toList, 23⟩ ∧
    "Acceſſ_to\u212aen=[REDACTED]".toList.take 23 = "Acceſſ_to\u212aen".toList ++ tokens.shown ∧
    secrets.occursIn "Acceſſ_to\u212aen = a".toList = true := by
  have hleft : secrets.replace "Acceſſ_to\u212aen = a".toList =
      "Acceſſ_to\u212aen=[REDACTED]".toList := by decide
  have hm : tokens.matchAt "Acceſſ_to\u212aen=[REDACTED]".toList =
      some ⟨"Acceſſ_to\u212aen".toList, 23⟩ := by decide
  obtain ⟨-, -, -, hself, -, -, hfound⟩ := last_rule_idle "" "Acceſſ_to\u212aen = a".toList
  rw [hleft] at hself hfound
  exact ⟨hleft, hm, hself _ _ (List.suffix_refl _) hm,
    hfound (Rule.occursIn_of_matchAt hm (by decide))⟩

end Switchboard.Redaction
