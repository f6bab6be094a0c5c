/-
  DockerProxy.Config.Load — `ProxyConfig::load_from_path` of `config.rs`.

  A file is read and parsed, environment variables are expanded into it and laid
  over it, regexes are compiled, the result is validated, and its rules are
  sorted.  What changes a rule on the way changes its leaves one by one, without
  touching their fields and operators, nor its action (`loadFromPath_rules`).

  The environment is a parameter: variables, files, and the crates that parse
  YAML and compile regexes.
-/
import DockerProxy.Config
import DockerProxy.Lib.Fallible
import DockerProxy.Lib.Text
import Mathlib.Data.List.Sort

namespace DockerProxy.Config

open DockerProxy.Lib

/-! ## §1. The environment. -/

/-- What loading reads, and the third-party functions it calls. -/
structure LoadEnv where
  /-- `env::var`. -/
  var : String → Option String
  /-- `Path::exists`. -/
  pathExists : String → Bool
  /-- `fs::read_to_string`, with the text of its error. -/
  readFile : String → Except String String
  /-- `serde_yaml::from_str`, with the text of its error. -/
  parse : String → Except String ProxyConfig
  /-- `\w`; no brace is one. -/
  isWordChar : Char → Bool
  /-- `Regex::new`, with the text of its error. -/
  compileRegex : String → Except String Regex

/-! ## §2. Walking the leaves of a condition tree. -/

mutual

/-- The leaves, from left to right. -/
def leaves : ConditionNode → List Condition
  | .leaf condition => [condition]
  | .and nodes => leavesAll nodes
  | .or nodes => leavesAll nodes

def leavesAll : List ConditionNode → List Condition
  | [] => []
  | node :: nodes => leaves node ++ leavesAll nodes

end

mutual

/-- Change every leaf in place, up to the first error. -/
def traverseNode (f : Condition → Except String Condition) :
    ConditionNode → Except String ConditionNode
  | .leaf condition => do return .leaf (← f condition)
  | .and nodes => do return .and (← traverseNodes f nodes)
  | .or nodes => do return .or (← traverseNodes f nodes)

def traverseNodes (f : Condition → Except String Condition) :
    List ConditionNode → Except String (List ConditionNode)
  | [] => .ok []
  | node :: nodes => do
      let node ← traverseNode f node
      let nodes ← traverseNodes f nodes
      return node :: nodes

end

/-! ## §3. Environment variables. -/

section

variable (env : LoadEnv)

/-- The variable that a reference `${name}` at the head names, and what follows it. -/
def matchReference : List Char → Option (List Char × List Char)
  | '$' :: '\x7b' :: rest =>
      match rest.takeWhile env.isWordChar, rest.dropWhile env.isWordChar with
      | name@(_ :: _), '\x7d' :: rest => some (name, rest)
      | _, _ => none
  | _ => none

/-- Replace the references from left to right: the text, and the names of the
variables that are missing.  `fuel` is the length of the text. -/
def replaceReferences : Nat → List Char → List Char × List String
  | 0, _ => ([], [])
  | _ + 1, [] => ([], [])
  | fuel + 1, c :: cs =>
      match matchReference env (c :: cs) with
      | some (name, rest) =>
          let (text, missing) := replaceReferences fuel rest
          match env.var (String.ofList name) with
          | some v => (v.toList ++ text, missing)
          | none => (text, String.ofList name :: missing)
      | none =>
          let (text, missing) := replaceReferences fuel cs
          (c :: text, missing)

/-- `expand_env`. -/
def expandEnv (s : String) (required : Bool) : Except String String :=
  let (text, missing) := replaceReferences env s.toList.length s.toList
  if required && !missing.isEmpty then
    .error ("required environment variables missing: " ++ joinStr missing ", ")
  else .ok (String.ofList text)

mutual

/-- `expand_value_env`. -/
def expandValueEnv (required : Bool) : YamlValue → Except String YamlValue
  | .string s => do return .string (← expandEnv env s required)
  | .sequence seq => do return .sequence (← expandValuesEnv required seq)
  | value => .ok value

def expandValuesEnv (required : Bool) : List YamlValue → Except String (List YamlValue)
  | [] => .ok []
  | v :: vs => do
      let v ← expandValueEnv required v
      let vs ← expandValuesEnv required vs
      return v :: vs

end

/-- What `expand_node_env` does to a leaf. -/
def expandConditionEnv (required : Bool) (condition : Condition) : Except String Condition :=
  match condition.value with
  | some value => do return { condition with value := some (← expandValueEnv env required value) }
  | none => .ok condition

/-- `expand_node_env`. -/
def expandNodeEnv (required : Bool) : ConditionNode → Except String ConditionNode :=
  traverseNode (expandConditionEnv env required)

/-- What `resolve_env_vars` does to a rule. -/
def resolveRule (rule : Rule) : Except String Rule := do
  let message ← rule.message.mapM fun msg => expandEnv env msg false
  let conditions ← rule.conditions.mapM (expandNodeEnv env false)
  let methods ← rule.methods.mapM fun methods => methods.mapM fun m => expandEnv env m false
  return { rule with message, conditions, methods }

/-- What `resolve_env_vars` does to a token. -/
def resolveToken (t : TokenEntry) : Except String TokenEntry := do
  return { t with token := ← expandEnv env t.token true }

/-- What `resolve_env_vars` does to the authentication settings. -/
def resolveAuth (auth : AuthConfig) : Except String AuthConfig := do
  let secret ← auth.secret.mapM fun secret => expandEnv env secret true
  let tokens ← auth.tokens.mapM fun tokens => tokens.mapM (resolveToken env)
  return { auth with secret, tokens }

/-- `resolve_env_vars`. -/
def resolveEnvVars (config : ProxyConfig) : Except String ProxyConfig := do
  let auth ← config.auth.mapM (resolveAuth env)
  let rules ← config.rules.mapM fun rules => rules.mapM (resolveRule env)
  return { config with auth, rules }

/-- `parse::<u16>()`. -/
def parseU16 (s : String) : Option UInt16 :=
  ((parseUsize s).filter fun n => decide (n < 65536)).map UInt16.ofNat

/-- `apply_env_overrides`. -/
def applyEnvOverrides (config : ProxyConfig) : ProxyConfig :=
  let config := match (env.var "DOCKER_PROXY_PORT").bind parseU16 with
    | some p => { config with global := some { config.global.getD {} with port := some p } }
    | none => config
  let config := match (env.var "DOCKER_SOCKET").filter env.pathExists with
    | some socket =>
        { config with global := some { config.global.getD {} with socket := some socket } }
    | none => config
  match (env.var "DOCKER_PROXY_SECRET").filter fun s => !s.isEmpty with
  | some secret =>
      let auth := config.auth.getD { authType := some "bearer" }
      { config with
        auth := some
          { auth with secret := some secret, authType := some (auth.authType.getD "bearer") } }
  | none => config

/-! ## §4. Regexes. -/

/-- The operators that compare with a regex. -/
def isRegexOperator (operator : String) : Bool :=
  operator == "matches" || operator == "not_matches"

/-- `compile_regex_in_condition`. -/
def compileRegexInCondition (condition : Condition) : Except String Condition :=
  if isRegexOperator condition.operator then
    match condition.value.bind yamlValueToString with
    | some s =>
        match env.compileRegex s with
        | .ok regex => .ok { condition with compiledRegex := some regex }
        | .error e => .error ("invalid regex for field '" ++ condition.field ++ "': " ++ e)
    | none => .ok condition
  else .ok condition

/-- `compile_regexes_in_node`. -/
def compileRegexesInNode : ConditionNode → Except String ConditionNode :=
  traverseNode (compileRegexInCondition env)

/-- What `compile_regexes` does to a rule. -/
def compileRule (rule : Rule) : Except String Rule := do
  return { rule with conditions := ← rule.conditions.mapM (compileRegexesInNode env) }

/-- `compile_regexes`. -/
def compileRegexes (config : ProxyConfig) : Except String ProxyConfig := do
  let rules ← config.rules.mapM fun rules => rules.mapM (compileRule env)
  return { config with rules }

end

/-! ## §5. Validation. -/

/-- What `validate` asks of a rule. -/
def validateRule (rule : Rule) : Except String Unit :=
  if rule.name.isEmpty then .error "rule name cannot be empty"
  else if rule.action.isEmpty then .error ("rule '" ++ rule.name ++ "' has no action")
  else if rule.conditions.isEmpty then .error ("rule '" ++ rule.name ++ "' has no conditions")
  else if rule.action == "require_role" && rule.role.isNone then
    .error ("rule '" ++ rule.name ++ "' uses require_role but has no role specified")
  else if rule.action == "rate_limit" && rule.rateLimit.isNone then
    .error ("rule '" ++ rule.name ++ "' uses rate_limit but has no rate_limit config")
  else if rule.action == "response_filter" && rule.responseFilter.isNone then
    .error ("rule '" ++ rule.name ++ "' uses response_filter but has no response_filter entries")
  else .ok ()

/-- What `validate` asks of the metrics settings. -/
def validateMetrics (metrics : MetricsConfig) : Except String Unit :=
  if metrics.enabled == some true then
    let path := metrics.path.getD "/metrics"
    if path == "/" || path.isEmpty then .error "metrics path cannot be '/' or empty"
    else if startsWith path "/v" then
      .error ("metrics path '" ++ path ++ "' looks like a Docker API versioned path")
    else .ok ()
  else .ok ()

/-- What `validate` asks of `auth.type`. -/
def validateAuthType (authType : String) : Except String Unit :=
  match authType with
  | "none" | "bearer" | "mtls" => .ok ()
  | other => .error ("invalid auth.type: " ++ other)

/-- `validate`. -/
def validate (config : ProxyConfig) : Except String Unit := do
  (config.auth.bind AuthConfig.authType).forM validateAuthType
  (config.rules.getD []).forM validateRule
  (config.global.bind GlobalConfig.metrics).forM validateMetrics

/-! ## §6. Loading. -/

/-- The order of `sort_rules_by_priority`: descending, 0 by default. -/
def precedes (r s : Rule) : Prop := s.priority.getD 0 ≤ r.priority.getD 0

instance : DecidableRel precedes := fun r s =>
  inferInstanceAs (Decidable (s.priority.getD 0 ≤ r.priority.getD 0))

/-- `sort_rules_by_priority`, a stable sort. -/
def sortRulesByPriority (config : ProxyConfig) : ProxyConfig :=
  { config with rules := config.rules.map (List.insertionSort precedes) }

/-- `#[serde(skip)]`: a parsed leaf has no regex. -/
def skipCompiledRegex (condition : Condition) : Condition :=
  { condition with compiledRegex := none }

mutual

/-- The node as it is parsed. -/
def parsedNode : ConditionNode → ConditionNode
  | .leaf condition => .leaf (skipCompiledRegex condition)
  | .and nodes => .and (parsedNodes nodes)
  | .or nodes => .or (parsedNodes nodes)

def parsedNodes : List ConditionNode → List ConditionNode
  | [] => []
  | node :: nodes => parsedNode node :: parsedNodes nodes

end

/-- The configuration as it is parsed. -/
def parsedConfig (config : ProxyConfig) : ProxyConfig :=
  { config with
    rules := config.rules.map fun rules =>
      rules.map fun rule => { rule with conditions := parsedNodes rule.conditions } }

/-- `load_from_path`. -/
def loadFromPath (env : LoadEnv) (path : String) : Except String ProxyConfig := do
  let content ← (env.readFile path).mapError fun e => "read failed: " ++ e
  let cfg ← (env.parse content).mapError fun e => "parse failed: " ++ e
  let cfg ← resolveEnvVars env (parsedConfig cfg)
  let cfg := applyEnvOverrides env cfg
  let cfg ← compileRegexes env cfg
  validate cfg
  return sortRulesByPriority cfg

/-! ## §7. What loading does to the leaves. -/

section

variable {env : LoadEnv}

theorem traverseNodes_eq (f : Condition → Except String Condition) (nodes : List ConditionNode) :
    traverseNodes f nodes = nodes.mapM (traverseNode f) := by
  induction nodes with
  | nil => rfl
  | cons node nodes ih => rw [traverseNodes, List.mapM_cons, ih]

mutual

/-- A walk that succeeds has changed every leaf. -/
theorem traverseNode_leaves {f : Condition → Except String Condition} :
    ∀ {node node' : ConditionNode}, traverseNode f node = .ok node' →
      List.Forall₂ (fun c c' => f c = .ok c') (leaves node) (leaves node')
  | .leaf c, node', h => by
      rw [traverseNode, bind_eq_ok] at h
      obtain ⟨c', hc, h⟩ := h
      rw [← pure_eq_ok.mp h]
      exact List.Forall₂.cons hc List.Forall₂.nil
  | .and nodes, node', h => by
      rw [traverseNode, bind_eq_ok] at h
      obtain ⟨nodes', hnodes, h⟩ := h
      rw [← pure_eq_ok.mp h]
      exact traverseNodes_leaves hnodes
  | .or nodes, node', h => by
      rw [traverseNode, bind_eq_ok] at h
      obtain ⟨nodes', hnodes, h⟩ := h
      rw [← pure_eq_ok.mp h]
      exact traverseNodes_leaves hnodes

theorem traverseNodes_leaves {f : Condition → Except String Condition} :
    ∀ {nodes nodes' : List ConditionNode}, traverseNodes f nodes = .ok nodes' →
      List.Forall₂ (fun c c' => f c = .ok c') (leavesAll nodes) (leavesAll nodes')
  | [], nodes', h => by
      rw [traverseNodes] at h
      injection h with h
      rw [← h]
      exact List.Forall₂.nil
  | node :: nodes, nodes', h => by
      rw [traverseNodes, bind_eq_ok] at h
      obtain ⟨node', hnode, h⟩ := h
      rw [bind_eq_ok] at h
      obtain ⟨rest', hrest, h⟩ := h
      rw [← pure_eq_ok.mp h]
      exact List.rel_append (traverseNode_leaves hnode) (traverseNodes_leaves hrest)

end

mutual

/-- The leaves as they are parsed. -/
theorem leaves_parsedNode : ∀ node, leaves (parsedNode node) = (leaves node).map skipCompiledRegex
  | .leaf _ => rfl
  | .and nodes => leavesAll_parsedNodes nodes
  | .or nodes => leavesAll_parsedNodes nodes

theorem leavesAll_parsedNodes :
    ∀ nodes, leavesAll (parsedNodes nodes) = (leavesAll nodes).map skipCompiledRegex
  | [] => rfl
  | node :: nodes => by
      rw [parsedNodes, leavesAll, leavesAll, List.map_append, leaves_parsedNode node,
        leavesAll_parsedNodes nodes]

end

/-- The condition has a value that is a text. -/
def hasText (condition : Condition) : Bool := (condition.value.bind yamlValueToString).isSome

/-- An expanded value is a text exactly when the value was one. -/
theorem isSome_expandValueEnv {required : Bool} {value value' : YamlValue}
    (h : expandValueEnv env required value = .ok value') :
    (yamlValueToString value').isSome = (yamlValueToString value).isSome := by
  cases value with
  | string s =>
      rw [expandValueEnv, bind_eq_ok] at h
      obtain ⟨s', -, h⟩ := h
      rw [← pure_eq_ok.mp h]
      rfl
  | sequence seq =>
      rw [expandValueEnv, bind_eq_ok] at h
      obtain ⟨seq', -, h⟩ := h
      rw [← pure_eq_ok.mp h]
      rfl
  | null => simp only [expandValueEnv, Except.ok.injEq] at h; rw [← h]
  | bool b => simp only [expandValueEnv, Except.ok.injEq] at h; rw [← h]
  | number n => simp only [expandValueEnv, Except.ok.injEq] at h; rw [← h]
  | mapping entries => simp only [expandValueEnv, Except.ok.injEq] at h; rw [← h]
  | tagged tag value => simp only [expandValueEnv, Except.ok.injEq] at h; rw [← h]

/-- Expansion keeps what a leaf compares, and with what kind of value. -/
theorem expandConditionEnv_eq {required : Bool} {c c' : Condition}
    (h : expandConditionEnv env required c = .ok c') :
    c'.field = c.field ∧ c'.operator = c.operator ∧ hasText c' = hasText c ∧
      c'.compiledRegex = c.compiledRegex := by
  unfold expandConditionEnv at h
  unfold hasText
  cases hv : c.value with
  | none =>
      rw [hv] at h
      injection h with h
      rw [← h, hv]
      exact ⟨rfl, rfl, rfl, rfl⟩
  | some value =>
      rw [hv] at h
      obtain ⟨value', hvalue, h⟩ := bind_eq_ok.mp h
      rw [← pure_eq_ok.mp h]
      exact ⟨rfl, rfl, isSome_expandValueEnv hvalue, rfl⟩

/-- A regex is compiled exactly for a regex operator with a text. -/
theorem compileRegexInCondition_eq {c c' : Condition}
    (h : compileRegexInCondition env c = .ok c') (hnone : c.compiledRegex = none) :
    c'.field = c.field ∧ c'.operator = c.operator ∧
      c'.compiledRegex.isSome = (isRegexOperator c.operator && hasText c) := by
  unfold compileRegexInCondition at h
  unfold hasText
  cases hop : isRegexOperator c.operator with
  | false =>
      rw [hop] at h
      injection h with h
      rw [← h, hnone]
      exact ⟨rfl, rfl, rfl⟩
  | true =>
      rw [hop, if_pos rfl] at h
      cases hv : c.value.bind yamlValueToString with
      | none =>
          rw [hv] at h
          injection h with h
          rw [← h, hnone]
          exact ⟨rfl, rfl, rfl⟩
      | some s =>
          rw [hv] at h
          simp only at h
          split at h
          next regex _ =>
            injection h with h
            rw [← h]
            exact ⟨rfl, rfl, rfl⟩
          next => exact absurd h (by simp)

/-- **A loaded leaf compares what the parsed one did**; it has a regex exactly for a
regex operator with a text. -/
def LoadedFrom (c c' : Condition) : Prop :=
  c'.field = c.field ∧ c'.operator = c.operator ∧
    c'.compiledRegex.isSome = (isRegexOperator c.operator && hasText c)

/-- **A loaded rule acts as the parsed one did**, on loaded leaves. -/
def RuleLoadedFrom (rule rule' : Rule) : Prop :=
  rule'.name = rule.name ∧ rule'.action = rule.action ∧
    List.Forall₂ LoadedFrom (leavesAll rule.conditions) (leavesAll rule'.conditions)

/-- A leaf on its way: parsed without a regex, expanded, compiled. -/
def LeafSteps (env : LoadEnv) (c c₂ : Condition) : Prop :=
  ∃ c₁, expandConditionEnv env false (skipCompiledRegex c) = .ok c₁ ∧
    compileRegexInCondition env c₁ = .ok c₂

/-- A rule on its way: parsed, expanded, compiled. -/
def RuleSteps (env : LoadEnv) (rule rule₂ : Rule) : Prop :=
  ∃ rule₁, resolveRule env { rule with conditions := parsedNodes rule.conditions } = .ok rule₁ ∧
    compileRule env rule₁ = .ok rule₂

/-- The steps of a rule are those of its leaves. -/
theorem leaves_of_ruleSteps {rule rule₂ : Rule} (h : RuleSteps env rule rule₂) :
    rule₂.name = rule.name ∧ rule₂.action = rule.action ∧
      List.Forall₂ (LeafSteps env) (leavesAll rule.conditions) (leavesAll rule₂.conditions) := by
  obtain ⟨rule₁, hresolve, hcompile⟩ := h
  obtain ⟨message, -, hresolve⟩ := bind_eq_ok.mp hresolve
  obtain ⟨conditions, hexpand, hresolve⟩ := bind_eq_ok.mp hresolve
  obtain ⟨methods, -, hresolve⟩ := bind_eq_ok.mp hresolve
  have hrule₁ := pure_eq_ok.mp hresolve
  obtain ⟨conditions', hcompile, hrule₂⟩ := bind_eq_ok.mp hcompile
  have hrule₂ := pure_eq_ok.mp hrule₂
  have hexpand : List.Forall₂ (fun c c' => expandConditionEnv env false c = .ok c')
      (leavesAll (parsedNodes rule.conditions)) (leavesAll conditions) :=
    traverseNodes_leaves ((traverseNodes_eq _ _).trans hexpand)
  have hcompile := traverseNodes_leaves ((traverseNodes_eq _ _).trans hcompile)
  rw [leavesAll_parsedNodes, List.forall₂_map_left_iff] at hexpand
  rw [← hrule₁] at hcompile hrule₂
  rw [← hrule₂]
  exact ⟨rfl, rfl, forall₂_trans (fun c c₁ c₂ hc₁ hc₂ => ⟨c₁, hc₁, hc₂⟩) hexpand hcompile⟩

/-- Expansion and compilation, rule by rule. -/
theorem ruleLoadedFrom_of_steps {rule rule₂ : Rule} (h : RuleSteps env rule rule₂) :
    RuleLoadedFrom rule rule₂ := by
  obtain ⟨hname, haction, hleaves⟩ := leaves_of_ruleSteps h
  refine ⟨hname, haction, hleaves.imp fun c c₂ hc => ?_⟩
  obtain ⟨c₁, hc₁, hc₂⟩ := hc
  obtain ⟨hfield₁, hop₁, htext₁, hregex₁⟩ := expandConditionEnv_eq hc₁
  obtain ⟨hfield₂, hop₂, hregex₂⟩ := compileRegexInCondition_eq hc₂ hregex₁
  rw [hop₁, htext₁] at hregex₂
  exact ⟨hfield₂.trans hfield₁, hop₂.trans hop₁, hregex₂⟩

/-- The overrides leave the rules alone. -/
theorem rules_applyEnvOverrides (config : ProxyConfig) :
    (applyEnvOverrides env config).rules = config.rules := by
  unfold applyEnvOverrides
  simp only
  split <;> split <;> split <;> rfl

/-- Sorting keeps the rules. -/
theorem mem_sortRulesByPriority {config : ProxyConfig} {rule : Rule} :
    rule ∈ (sortRulesByPriority config).rules.getD [] ↔ rule ∈ config.rules.getD [] := by
  unfold sortRulesByPriority
  cases config.rules with
  | none => exact Iff.rfl
  | some rules => exact List.mem_insertionSort _

/-- **The steps of loading**: every rule is expanded and compiled, all are validated, and
they are sorted. -/
theorem loadFromPath_steps {path content : String} {parsed cfg : ProxyConfig}
    (hread : env.readFile path = .ok content) (hparse : env.parse content = .ok parsed)
    (hload : loadFromPath env path = .ok cfg) :
    ∃ loaded, List.Forall₂ (RuleSteps env) (parsed.rules.getD []) (loaded.rules.getD []) ∧
      validate loaded = .ok () ∧ cfg = sortRulesByPriority loaded := by
  unfold loadFromPath at hload
  rw [hread] at hload
  obtain ⟨content', hcontent, hload⟩ := bind_eq_ok.mp hload
  have hcontent := mapError_eq_ok.mp hcontent
  injection hcontent with hcontent
  rw [← hcontent, hparse] at hload
  obtain ⟨parsed', hparsed, hload⟩ := bind_eq_ok.mp hload
  have hparsed := mapError_eq_ok.mp hparsed
  injection hparsed with hparsed
  rw [← hparsed] at hload
  obtain ⟨resolved, hresolve, hload⟩ := bind_eq_ok.mp hload
  obtain ⟨loaded, hcompile, hload⟩ := bind_eq_ok.mp hload
  obtain ⟨_, hvalidate, hload⟩ := bind_eq_ok.mp hload
  refine ⟨loaded, ?_, hvalidate, (pure_eq_ok.mp hload).symm⟩
  obtain ⟨auth, -, hresolve⟩ := bind_eq_ok.mp hresolve
  obtain ⟨rules, hrules, hresolve⟩ := bind_eq_ok.mp hresolve
  obtain ⟨rules', hrules', hcompile⟩ := bind_eq_ok.mp hcompile
  rw [← pure_eq_ok.mp hcompile]
  rw [rules_applyEnvOverrides, ← pure_eq_ok.mp hresolve] at hrules'
  have hrules := forall₂_of_optionMapM hrules
  have hrules' := forall₂_of_optionMapM hrules'
  have hparsed : (parsedConfig parsed).rules.getD [] = (parsed.rules.getD []).map fun rule =>
      { rule with conditions := parsedNodes rule.conditions } := by
    unfold parsedConfig
    cases parsed.rules <;> rfl
  rw [hparsed, List.forall₂_map_left_iff] at hrules
  exact forall₂_trans (fun rule rule₁ rule₂ hresolve hcompile => ⟨rule₁, hresolve, hcompile⟩)
    hrules hrules'

/-- **What an accepted configuration consists of**: its rules are those of the parsed
file, loaded one by one, validated and sorted. -/
theorem loadFromPath_rules {path content : String} {parsed cfg : ProxyConfig}
    (hread : env.readFile path = .ok content) (hparse : env.parse content = .ok parsed)
    (hload : loadFromPath env path = .ok cfg) :
    ∃ loaded, List.Forall₂ RuleLoadedFrom (parsed.rules.getD []) (loaded.rules.getD []) ∧
      validate loaded = .ok () ∧ cfg = sortRulesByPriority loaded := by
  obtain ⟨loaded, hrules, hvalidate, hcfg⟩ := loadFromPath_steps hread hparse hload
  exact ⟨loaded, hrules.imp fun _ _ => ruleLoadedFrom_of_steps, hvalidate, hcfg⟩

end

end DockerProxy.Config
