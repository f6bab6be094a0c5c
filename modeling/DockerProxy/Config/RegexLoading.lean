/-
  DockerProxy.Config.RegexLoading — regexes and the values they are compiled from.

  `load_from_path` walks the condition trees twice: `expand_node_env` replaces the
  values of the leaves, and `compile_regexes_in_node` compiles the values that it then
  finds.  Both walks visit every leaf, so

    • `compiledFrom_of_steps` — a leaf ends up with the regex of its expanded value,
    • `loadFromPath_regexes` — all leaves do, and one value that is no regex makes
      loading fail.
-/
import DockerProxy.Config.Load

namespace DockerProxy.Config

open DockerProxy.Lib

/-! ## §1. One leaf. -/

/-- The text that the regex of a leaf is compiled from: the value of a regex operator, if
it is a scalar. -/
def regexText (condition : Condition) : Option String :=
  if isRegexOperator condition.operator then condition.value.bind yamlValueToString else none

/-- **A loaded leaf is compiled from its expanded value.** -/
structure CompiledFrom (env : LoadEnv) (c c' : Condition) : Prop where
  field_eq : c'.field = c.field
  operator_eq : c'.operator = c.operator
  /-- The value is the expanded one. -/
  value_eq : c.value.mapM (expandValueEnv env false) = .ok c'.value
  /-- The regex is that of the expanded value. -/
  compiled : ∀ s, regexText c' = some s →
    ∃ regex, env.compileRegex s = .ok regex ∧ c'.compiledRegex = some regex
  /-- There is none without a text. -/
  plain : regexText c' = none → c'.compiledRegex = none

section

variable {env : LoadEnv}

/-- Expansion changes the value of a leaf, and nothing else. -/
theorem expandConditionEnv_value {required : Bool} {c c' : Condition}
    (h : expandConditionEnv env required c = .ok c') :
    c.value.mapM (expandValueEnv env required) = .ok c'.value ∧
      c' = { c with value := c'.value } := by
  unfold expandConditionEnv at h
  cases hv : c.value with
  | none =>
      rw [hv] at h
      injection h with h
      rw [← h, hv]
      exact ⟨rfl, by rw [← hv]⟩
  | some value =>
      rw [hv] at h
      obtain ⟨value', hvalue, h⟩ := bind_eq_ok.mp h
      rw [← pure_eq_ok.mp h]
      refine ⟨?_, rfl⟩
      show (do return some (← expandValueEnv env required value)) = _
      rw [hvalue]
      rfl

/-- **What compilation does to a leaf**: nothing without a text; with one, the regex of the
text is kept, or the text is no regex and compilation fails. -/
theorem compileRegexInCondition_cases (c : Condition) :
    (regexText c = none ∧ compileRegexInCondition env c = .ok c) ∨
    ∃ s, regexText c = some s ∧
      ((∃ regex, env.compileRegex s = .ok regex ∧
          compileRegexInCondition env c = .ok { c with compiledRegex := some regex }) ∨
        ∃ e message, env.compileRegex s = .error e ∧
          compileRegexInCondition env c = .error message) := by
  unfold regexText compileRegexInCondition
  cases hop : isRegexOperator c.operator with
  | false => exact Or.inl ⟨rfl, rfl⟩
  | true =>
      rw [if_pos rfl, if_pos rfl]
      cases hs : c.value.bind yamlValueToString with
      | none => exact Or.inl ⟨rfl, rfl⟩
      | some s =>
          refine Or.inr ⟨s, rfl, ?_⟩
          cases hregex : env.compileRegex s with
          | ok regex => exact Or.inl ⟨regex, rfl, by simp only [hregex]⟩
          | error e =>
              -- the text of the error names the field
              exact Or.inr ⟨e, "invalid regex for field '" ++ c.field ++ "': " ++ e, rfl,
                by simp only [hregex]⟩

/-- **Expanded, then compiled.** -/
theorem compiledFrom_of_steps {c c₂ : Condition} (h : LeafSteps env c c₂) :
    CompiledFrom env c c₂ := by
  obtain ⟨c₁, hexpand, hcompile⟩ := h
  obtain ⟨hvalue, hc₁⟩ := expandConditionEnv_value hexpand
  have hregex : c₁.compiledRegex = none := by rw [hc₁]; rfl
  have hfield : c₁.field = c.field := by rw [hc₁]; rfl
  have hoperator : c₁.operator = c.operator := by rw [hc₁]; rfl
  obtain ⟨htext, hnone⟩ | ⟨s, htext, ⟨regex, hs, hsome⟩ | ⟨e, message, -, herror⟩⟩ :=
    @compileRegexInCondition_cases env c₁
  · -- no text: the leaf stays as it was expanded
    rw [hnone] at hcompile
    injection hcompile with hcompile
    subst hcompile
    exact ⟨hfield, hoperator, hvalue, fun s hs => absurd (htext.symm.trans hs) (by simp),
      fun _ => hregex⟩
  · rw [hsome] at hcompile
    injection hcompile with hcompile
    subst hcompile
    have htext' : regexText { c₁ with compiledRegex := some regex } = some s := htext
    refine ⟨hfield, hoperator, hvalue, fun t ht => ?_, fun hnone => ?_⟩
    · rw [htext'] at ht
      injection ht with ht
      exact ⟨regex, by rw [← ht]; exact hs, rfl⟩
    · exact absurd (htext'.symm.trans hnone) (by simp)
  · rw [herror] at hcompile
    exact absurd hcompile (by simp)

/-! ## §2. The whole configuration. -/

/-- **A loaded rule**: every leaf, at any depth of its groups, is compiled from its
expanded value. -/
def RuleCompiledFrom (env : LoadEnv) (rule rule' : Rule) : Prop :=
  rule'.name = rule.name ∧
    List.Forall₂ (CompiledFrom env) (leavesAll rule.conditions) (leavesAll rule'.conditions)

/-- The sorted rules of an accepted configuration come from the rules of the file. -/
theorem ruleCompiledFrom_of_load {path content : String} {parsed cfg : ProxyConfig}
    (hread : env.readFile path = .ok content) (hparse : env.parse content = .ok parsed)
    (hload : loadFromPath env path = .ok cfg) :
    ∃ loaded, List.Forall₂ (RuleCompiledFrom env) (parsed.rules.getD []) loaded ∧
      cfg.rules.getD [] = loaded.insertionSort precedes := by
  obtain ⟨loaded, hrules, -, hcfg⟩ := loadFromPath_steps hread hparse hload
  refine ⟨loaded.rules.getD [], hrules.imp fun rule rule' hrule => ?_, ?_⟩
  · obtain ⟨hname, -, hleaves⟩ := leaves_of_ruleSteps hrule
    exact ⟨hname, hleaves.imp fun _ _ => compiledFrom_of_steps⟩
  · rw [hcfg]
    unfold sortRulesByPriority
    cases loaded.rules <;> rfl

/-- **Regexes are compiled from final values.**  In an accepted configuration every leaf
with a regex operator and a scalar value has the regex of that value, which is the
expanded one; and a file with an expanded value that is no regex is not accepted. -/
theorem loadFromPath_regexes {path content : String} {parsed : ProxyConfig}
    (hread : env.readFile path = .ok content) (hparse : env.parse content = .ok parsed) :
    (∀ cfg, loadFromPath env path = .ok cfg →
      (∃ loaded, List.Forall₂ (RuleCompiledFrom env) (parsed.rules.getD []) loaded ∧
        cfg.rules.getD [] = loaded.insertionSort precedes) ∧
      ∀ rule ∈ cfg.rules.getD [], ∀ leaf ∈ leavesAll rule.conditions, ∀ s,
        regexText leaf = some s →
          ∃ regex, env.compileRegex s = .ok regex ∧ leaf.compiledRegex = some regex) ∧
    ∀ rule ∈ parsed.rules.getD [], ∀ leaf ∈ leavesAll rule.conditions, ∀ leaf' s e,
      expandConditionEnv env false leaf = .ok leaf' → regexText leaf' = some s →
        env.compileRegex s = .error e → ∃ message, loadFromPath env path = .error message := by
  constructor
  · intro cfg hload
    obtain ⟨loaded, hrules, hcfg⟩ := ruleCompiledFrom_of_load hread hparse hload
    refine ⟨⟨loaded, hrules, hcfg⟩, fun rule hrule leaf hleaf s hs => ?_⟩
    rw [hcfg, List.mem_insertionSort] at hrule
    obtain ⟨_, -, -, hleaves⟩ := exists_of_forall₂ hrules.flip hrule
    obtain ⟨_, -, hcompiled⟩ := exists_of_forall₂ hleaves.flip hleaf
    exact hcompiled.compiled s hs
  · intro rule hrule leaf hleaf leaf' s e hexpand hs herror
    cases hload : loadFromPath env path with
    | error message => exact ⟨message, rfl⟩
    | ok cfg =>
        -- the leaf would be there, with the regex of this text
        exfalso
        obtain ⟨loaded, hrules, -⟩ := ruleCompiledFrom_of_load hread hparse hload
        obtain ⟨rule₂, -, -, hleaves⟩ := exists_of_forall₂ hrules hrule
        obtain ⟨leaf₂, -, hcompiled⟩ := exists_of_forall₂ hleaves hleaf
        obtain ⟨hvalue, hleaf'⟩ := expandConditionEnv_value hexpand
        -- expansion has one result
        have hsame : leaf₂.value = leaf'.value := by
          have heq := hcompiled.value_eq.symm.trans hvalue
          injection heq
        have htext : regexText leaf₂ = some s := by
          rw [← hs]
          unfold regexText
          rw [hcompiled.operator_eq, hsame, hleaf']
        obtain ⟨regex, hregex, -⟩ := hcompiled.compiled s htext
        exact absurd (herror.symm.trans hregex) (by simp)

end

/-- One rule that allows the paths of a team, in a nested group. -/
def teamPaths (pattern : String) : ProxyConfig where
  rules := some
    [{ name := "team-paths", action := "allow"
       conditions := [.or
         [.and [.leaf { field := "path", operator := "matches", value := some (.string pattern) }],
          .leaf { field := "path", operator := "equals", value := some (.string "/_ping") }]] }]

/-- An environment with one variable, one file and one regex. -/
def teamEnv (pattern : String) : LoadEnv where
  var n := if n = "TEAM" then some "dev" else none
  pathExists _ := false
  readFile _ := .ok ""
  parse _ := .ok (teamPaths pattern)
  isWordChar c := c.isAlphanum || c == '_'
  compileRegex s :=
    if s = "^/dev/" then .ok ⟨s, fun t => startsWith t "/dev/"⟩ else .error "unknown"

/-- A value that names a variable: it is compiled after the variable is put in. -/
theorem loadFromPath_regexes_team :
    let env := teamEnv "^/${TEAM}/"
    ∃ cfg, loadFromPath env "config.yaml" = .ok cfg ∧
      ∀ rule ∈ cfg.rules.getD [], ∀ leaf ∈ leavesAll rule.conditions, ∀ s,
        regexText leaf = some s →
          ∃ regex, env.compileRegex s = .ok regex ∧ leaf.compiledRegex = some regex := by
  intro env
  have hload : (loadFromPath env "config.yaml").isOk = true := by decide +kernel
  cases hcfg : loadFromPath env "config.yaml" with
  | error message => rw [hcfg] at hload; exact absurd hload (by simp [Except.isOk, Except.toBool])
  | ok cfg => exact ⟨cfg, rfl, ((@loadFromPath_regexes env _ _ _ rfl rfl).1 cfg hcfg).2⟩

end DockerProxy.Config
