/-
  DockerProxy.Proxy.Labels — rule names in the text of the metrics endpoint.

  A rule name stands between quotes as the value of a label, so `escape_label` puts a
  backslash before what would end the value or the line.  Reading the value back gives the
  name:

    • `readLabel_escapeChars` — the reader stops at the closing quote, with the name,
    • `ruleSeries_injective` — different names are different series,
    • `escapeLabel_lossless` — both, for every rule name.
-/
import DockerProxy.Proxy.Metrics

namespace DockerProxy.Proxy

open DockerProxy.Lib

/-! ## §1. Reading a label value. -/

/-- What a character after a backslash stands for, if the two are an escape. -/
def unescape : Char → Option Char
  | '\\' => some '\\'
  | '"' => some '"'
  | 'n' => some '\n'
  | _ => none

/-- **A label value, read up to its closing quote**: the value, and what follows the
quote. -/
def readLabel : List Char → Option (List Char × List Char)
  | [] => none
  | '"' :: rest => some ([], rest)
  | '\\' :: [] => none
  | '\\' :: c :: rest =>
      match unescape c with
      | some e => (readLabel rest).map fun r => (e :: r.1, r.2)
      -- not an escape: the backslash stands for itself
      | none => (readLabel (c :: rest)).map fun r => ('\\' :: r.1, r.2)
  | c :: rest => (readLabel rest).map fun r => (c :: r.1, r.2)

/-- A quote in the text that no backslash escapes. -/
def hasBareQuote : List Char → Bool
  | [] => false
  | '\\' :: _ :: rest => hasBareQuote rest
  | c :: rest => c == '"' || hasBareQuote rest

/-! ## §2. Reading what was escaped. -/

/-- What `escape_label` writes for a character. -/
def escapeChar (c : Char) : List Char :=
  match c with
  | '\\' => ['\\', '\\']
  | '"' => ['\\', '"']
  | '\n' => ['\\', 'n']
  | c => [c]

theorem toList_escapeLabel (s : String) :
    (escapeLabel s).toList = s.toList.flatMap escapeChar :=
  String.toList_ofList

/-- **A character that is written as it stands**: no backslash, no quote, no newline. -/
theorem escapeChar_plain {c : Char} (hslash : c ≠ '\\') (hquote : c ≠ '"') (hline : c ≠ '\n') :
    escapeChar c = [c] := by
  unfold escapeChar
  split
  next => exact absurd rfl hslash
  next => exact absurd rfl hquote
  next => exact absurd rfl hline
  next => rfl

theorem readLabel_plain {c : Char} (hslash : c ≠ '\\') (hquote : c ≠ '"') (rest : List Char) :
    readLabel (c :: rest) = (readLabel rest).map fun r => (c :: r.1, r.2) := by
  rw [readLabel.eq_def]
  split
  next heq => exact absurd heq (by simp)
  next heq => exact absurd (List.cons.inj heq).1 hquote
  next heq => exact absurd (List.cons.inj heq).1 hslash
  next heq => exact absurd (List.cons.inj heq).1 hslash
  next heq =>
    obtain ⟨rfl, rfl⟩ := List.cons.inj heq
    rfl

/-- One character, escaped and read. -/
theorem readLabel_escapeChar (c : Char) (rest : List Char) :
    readLabel (escapeChar c ++ rest) = (readLabel rest).map fun r => (c :: r.1, r.2) := by
  by_cases hslash : c = '\\'
  · subst hslash
    rfl
  by_cases hquote : c = '"'
  · subst hquote
    rfl
  by_cases hline : c = '\n'
  · subst hline
    rfl
  rw [escapeChar_plain hslash hquote hline]
  exact readLabel_plain hslash hquote rest

/-- **The reader stops at the closing quote**, with what was escaped. -/
theorem readLabel_escapeChars (cs rest : List Char) :
    readLabel (cs.flatMap escapeChar ++ '"' :: rest) = some (cs, rest) := by
  induction cs with
  | nil => rfl
  | cons c cs ih =>
      rw [List.flatMap_cons, List.append_assoc, readLabel_escapeChar, ih]
      rfl

/-- No newline is written. -/
theorem newline_not_mem_escapeChars (cs : List Char) : '\n' ∉ cs.flatMap escapeChar := by
  intro h
  obtain ⟨c, -, hc⟩ := List.mem_flatMap.mp h
  unfold escapeChar at hc
  split at hc
  next => exact absurd hc (by decide)
  next => exact absurd hc (by decide)
  next => exact absurd hc (by decide)
  next hline => exact hline (List.mem_singleton.mp hc).symm

theorem hasBareQuote_plain {c : Char} (hslash : c ≠ '\\') (hquote : c ≠ '"') (rest : List Char) :
    hasBareQuote (c :: rest) = hasBareQuote rest := by
  rw [hasBareQuote.eq_def]
  split
  next heq => exact absurd heq (by simp)
  next heq => exact absurd (List.cons.inj heq).1 hslash
  next heq =>
    obtain ⟨rfl, rfl⟩ := List.cons.inj heq
    rw [beq_eq_false_iff_ne.mpr hquote, Bool.false_or]

/-- No quote is written without its backslash. -/
theorem hasBareQuote_escapeChars (cs : List Char) :
    hasBareQuote (cs.flatMap escapeChar) = false := by
  induction cs with
  | nil => rfl
  | cons c cs ih =>
      rw [List.flatMap_cons, ← ih]
      by_cases hslash : c = '\\'
      · subst hslash
        rfl
      by_cases hquote : c = '"'
      · subst hquote
        rfl
      by_cases hline : c = '\n'
      · subst hline
        rfl
      rw [escapeChar_plain hslash hquote hline]
      exact hasBareQuote_plain hslash hquote _

/-! ## §3. Series. -/

/-- The series of a rule and a mode. -/
def ruleSeries (rule mode : String) : String :=
  "docker_proxy_rule_decisions_total\x7brule=\"" ++ escapeLabel rule ++ "\",mode=\"" ++ mode ++
    "\"\x7d"

/-- The lines of a rule are its two series, with their counters. -/
theorem renderRule_eq (rule : String) (c : RuleCounters) :
    renderRule rule c =
      ruleSeries rule "enforced" ++ " " ++ toString c.denied.toNat ++ "\n" ++
        (ruleSeries rule "dry_run" ++ " " ++ toString c.dryRun.toNat ++ "\n") := by
  have henforced : "\",mode=\"enforced\"\x7d " =
      "\",mode=\"" ++ ("enforced" ++ ("\"\x7d" ++ " ")) := by decide
  have hdry : "\",mode=\"dry_run\"\x7d " =
      "\",mode=\"" ++ ("dry_run" ++ ("\"\x7d" ++ " ")) := by decide
  unfold renderRule ruleSeries
  rw [henforced, hdry]
  simp only [String.append_assoc]

/-- What a reader of the series sees after the opening quote. -/
theorem toList_ruleSeries (rule mode : String) :
    (ruleSeries rule mode).toList =
      "docker_proxy_rule_decisions_total\x7brule=\"".toList ++
        (rule.toList.flatMap escapeChar ++ '"' :: (",mode=\"" ++ mode ++ "\"\x7d").toList) := by
  unfold ruleSeries
  simp only [String.toList_append, toList_escapeLabel, List.append_assoc]
  rfl

/-- **Different names are different series**, in any modes. -/
theorem ruleSeries_injective {rule rule' mode mode' : String}
    (h : ruleSeries rule mode = ruleSeries rule' mode') : rule = rule' := by
  have hchars := congrArg String.toList h
  rw [toList_ruleSeries, toList_ruleSeries] at hchars
  -- what both begin with is dropped, and the rest is read as a label value
  have hread := congrArg readLabel (List.append_cancel_left hchars)
  rw [readLabel_escapeChars, readLabel_escapeChars] at hread
  exact String.toList_inj.mp (congrArg Prod.fst (Option.some.inj hread))

/-- **Metric labels are lossless.**  Read by the rules of label values, an escaped name
stops exactly at its closing quote and gives the name; it has no newline and no quote
without a backslash; and the series of its lines are those of no other name. -/
theorem escapeLabel_lossless (rule : String) :
    (∀ rest, readLabel ((escapeLabel rule).toList ++ '"' :: rest) = some (rule.toList, rest)) ∧
      '\n' ∉ (escapeLabel rule).toList ∧ hasBareQuote (escapeLabel rule).toList = false ∧
      (∀ c, renderRule rule c =
        ruleSeries rule "enforced" ++ " " ++ toString c.denied.toNat ++ "\n" ++
          (ruleSeries rule "dry_run" ++ " " ++ toString c.dryRun.toNat ++ "\n")) ∧
      ∀ rule', rule ≠ rule' → ∀ mode mode', ruleSeries rule mode ≠ ruleSeries rule' mode' := by
  rw [toList_escapeLabel]
  refine ⟨fun rest => readLabel_escapeChars rule.toList rest,
    newline_not_mem_escapeChars rule.toList, hasBareQuote_escapeChars rule.toList,
    renderRule_eq rule, fun rule' hne mode mode' h => hne (ruleSeries_injective h)⟩

/-- Quotes and backslashes in a name. -/
example : escapeLabel "hello \"world\"\\foo" = "hello \\\"world\\\"\\\\foo" := by decide

end DockerProxy.Proxy
