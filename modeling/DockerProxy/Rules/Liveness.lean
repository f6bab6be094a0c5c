/-
  DockerProxy.Rules.Liveness — which rules of an accepted configuration can have
  an effect.

  `validate` asks for an action that is not empty; it does not look at fields and
  operators.  The evaluator passes a rule whose action it does not know, and a
  leaf whose operator it does not know for the field is false for good.  So a
  configuration that is accepted is live exactly when its file names actions, and
  operators for the kind of field, that are in the evaluator's tables, and gives
  every regex operator a text (`loadFromPath_live_iff`).
-/
import DockerProxy.Config.Load
import DockerProxy.Rules.Decision

namespace DockerProxy.Rules

open DockerProxy.Lib DockerProxy.Limiter DockerProxy.Config

/-! ## §1. Live actions and live leaves. -/

inductive FieldKind where
  | method
  | path
  | clientIp
  | header
  | body
  deriving DecidableEq

/-- The dispatch of `evaluate_condition` on the field. -/
def fieldKind (field : String) : Option FieldKind :=
  match field with
  | "method" => some .method
  | "path" => some .path
  | "client_ip" => some .clientIp
  | field =>
      if (stripPrefix field "header.").isSome then some .header
      else if (stripPrefix field "body.").isSome then some .body
      else none

/-- **The evaluation acts on the action**: a rule with it can end the evaluation or
charge the limiter; `response_filter` acts after it. -/
def ActsOn (action : String) : Prop :=
  action = "response_filter" ∨
    ∃ (deps : Externals) (rule : Rule) (ctx : EvaluationContext) (rc : RateClock),
      rule.action = action ∧
        ((evaluateRule deps ctx rule rc).1.isSome = true ∨ (charged deps ctx rule).isSome = true)

/-- **The operator compares fields of this kind**: some leaf with it holds, of
whatever value, in whatever context. -/
def Compares (kind : FieldKind) (operator : String) : Prop :=
  ∃ (deps : Externals) (condition : Condition) (ctx : EvaluationContext),
    fieldKind condition.field = some kind ∧ condition.operator = operator ∧
      evaluateCondition deps condition ctx = true

/-- The leaf is dispatched to a comparison, and has the regex that it needs. -/
def LiveLeaf (condition : Condition) : Prop :=
  (∃ kind, fieldKind condition.field = some kind ∧ Compares kind condition.operator) ∧
    (isRegexOperator condition.operator = true → condition.compiledRegex.isSome = true)

/-- **Every rule is live.** -/
def Live (config : ProxyConfig) : Prop :=
  ∀ rule ∈ config.rules.getD [], ActsOn rule.action ∧
    ∀ condition ∈ leavesAll rule.conditions, LiveLeaf condition

/-! ## §2. The evaluator's tables. -/

/-- The actions that `evaluate_request_detailed` knows. -/
def actions : List String := ["deny", "allow", "require_role", "response_filter", "rate_limit"]

/-- The operators that are known for a kind of field. -/
def operators : FieldKind → List String
  | .method => ["equals", "not_equals", "in", "not_in"]
  | .path =>
      ["equals", "not_equals", "contains", "not_contains", "starts_with", "ends_with", "matches",
        "not_matches", "in", "not_in"]
  | .clientIp => ["equals", "not_equals", "in", "not_in"]
  | .header =>
      ["equals", "not_equals", "contains", "not_contains", "starts_with", "ends_with", "matches",
        "exists", "not_exists", "in", "not_in"]
  | .body =>
      ["exists", "not_exists", "equals", "not_equals", "contains", "not_contains", "in", "not_in",
        "starts_with", "matches"]

variable (deps : Externals)

/-- An unknown action ends nothing and charges nothing. -/
theorem evaluateRule_of_unknown {rule : Rule} (h : rule.action ∉ actions) (ctx : EvaluationContext)
    (rc : RateClock) : evaluateRule deps ctx rule rc = (none, rc) ∧ charged deps ctx rule = none := by
  simp only [actions, List.mem_cons, List.not_mem_nil, or_false, not_or] at h
  obtain ⟨hdeny, hallow, hrole, -, hlimit⟩ := h
  have hcharged : charged deps ctx rule = none := by
    unfold charged
    rw [beq_eq_false_iff_ne.mpr hlimit]
    exact if_neg (by simp)
  refine ⟨?_, hcharged⟩
  rw [evaluateRule_eq]
  simp [decides, refuses, charge, hcharged, hdeny, hallow, hrole]

section

variable {condition : Condition}

theorem matchMethodCondition_of_unknown (h : condition.operator ∉ operators .method)
    (method : String) : matchMethodCondition condition method = false := by
  unfold matchMethodCondition
  simp only
  split <;> first | rfl | (next hop => rw [hop] at h; exact absurd (by decide) h)

theorem matchPathCondition_of_unknown (h : condition.operator ∉ operators .path) (path : String) :
    matchPathCondition condition path = false := by
  unfold matchPathCondition
  simp only
  split <;> first | rfl | (next hop => rw [hop] at h; exact absurd (by decide) h)

theorem matchIpCondition_of_unknown (h : condition.operator ∉ operators .clientIp)
    (clientIp : String) : matchIpCondition deps condition clientIp = false := by
  unfold matchIpCondition
  simp only
  split <;> first | rfl | (next hop => rw [hop] at h; exact absurd (by decide) h)

theorem matchHeaderCondition_of_unknown (h : condition.operator ∉ operators .header)
    (headers : List (String × String)) (name : String) :
    matchHeaderCondition condition headers name = false := by
  unfold matchHeaderCondition
  simp only
  split <;> first | rfl | (next hop => rw [hop] at h; exact absurd (by decide) h)

theorem matchBodyCondition_of_unknown (h : condition.operator ∉ operators .body)
    (bodyJson : Option JsonValue) (fieldPath : String) :
    matchBodyCondition deps condition bodyJson fieldPath = false := by
  unfold matchBodyCondition
  simp only
  split
  next hop => rw [hop] at h; exact absurd (by decide) h
  next hop => rw [hop] at h; exact absurd (by decide) h
  next =>
    cases bodyJson.bind fun b => jsonGet b fieldPath with
    | none => rfl
    | some jsonVal =>
        simp only
        split <;> first | rfl | (next hop => rw [hop] at h; exact absurd (by decide) h)

/-- **An unknown operator is false for good**, and so is every operator on an unknown
field. -/
theorem evaluateCondition_of_unknown
    (h : ∀ kind, fieldKind condition.field = some kind → condition.operator ∉ operators kind)
    (ctx : EvaluationContext) : evaluateCondition deps condition ctx = false := by
  unfold fieldKind at h
  unfold evaluateCondition
  split
  next hf =>
    rw [hf] at h
    exact matchMethodCondition_of_unknown (h .method rfl) _
  next hf =>
    rw [hf] at h
    exact matchPathCondition_of_unknown (h .path rfl) _
  next hf =>
    rw [hf] at h
    exact matchIpCondition_of_unknown deps (h .clientIp rfl) _
  next =>
    simp only at h
    cases hheader : stripPrefix condition.field "header." with
    | some name =>
        rw [hheader] at h
        exact matchHeaderCondition_of_unknown (h .header rfl) _ _
    | none =>
        rw [hheader] at h
        cases hbody : stripPrefix condition.field "body." with
        | some path =>
            rw [hbody] at h
            exact matchBodyCondition_of_unknown deps (h .body rfl) _ _
        | none => rfl

end

/-! ## §3. The tables are those of what is live. -/

/-- A rule with an action, on every request for `/`. -/
def sampleRule (action : String) : Rule where
  name := "sample"
  action := action
  conditions := [pathEquals "/"]
  rateLimit := some {}

/-- A request for `/`, with a header and a body. -/
def sampleRequest : EvaluationContext where
  path := "/"
  method := "/"
  headers := [("x", "/")]
  clientIp := "127.0.0.1"
  bodyJson := some (.object [("x", .string "/")])

/-- **An action is acted on exactly if it is in the table.** -/
theorem actsOn_iff (action : String) : ActsOn action ↔ action ∈ actions := by
  refine Iff.intro (fun h => ?_) (fun h => ?_)
  · by_contra hunknown
    cases h with
    | inl hfilter => exact hunknown (by rw [hfilter]; decide)
    | inr h =>
        obtain ⟨deps, rule, ctx, rc, haction, heffect⟩ := h
        rw [← haction] at hunknown
        obtain ⟨hrule, hcharged⟩ := evaluateRule_of_unknown deps hunknown ctx rc
        rw [hrule, hcharged] at heffect
        exact absurd heffect (by simp)
  · simp only [actions, List.mem_cons, List.not_mem_nil, or_false] at h
    have hsample : ∀ action, (evaluateRule Externals.uncalled sampleRequest (sampleRule action)
          ⟨RateLimiter.new, fun _ => 0⟩).1.isSome = true ∨
        (charged Externals.uncalled sampleRequest (sampleRule action)).isSome = true →
        ActsOn action := fun action heffect =>
      Or.inr ⟨Externals.uncalled, sampleRule action, sampleRequest, _, rfl, heffect⟩
    obtain rfl | rfl | rfl | rfl | rfl := h
    · exact hsample _ (Or.inl (by decide))
    · exact hsample _ (Or.inl (by decide))
    · exact hsample _ (Or.inl (by decide))
    · exact Or.inl rfl
    · exact hsample _ (Or.inr (by decide))

/-- A leaf that holds of the sample request, for a known operator. -/
def sampleLeaf (kind : FieldKind) (operator : String) : Condition where
  field :=
    match kind with
    | .method => "method"
    | .path => "path"
    | .clientIp => "client_ip"
    | .header => if operator = "not_exists" then "header.y" else "header.x"
    | .body => if operator = "not_exists" then "body.y" else "body.x"
  operator := operator
  value :=
    let text := YamlValue.string (if kind = .clientIp then "127.0.0.1" else "/")
    if operator = "in" then some (.sequence [text])
    else if operator ∈ ["not_equals", "not_contains", "not_in"] then none
    else some text
  compiledRegex := if operator = "matches" then some ⟨"/", fun _ => true⟩ else none

/-- Every known operator has a leaf that holds. -/
theorem sampleLeaf_holds (kind : FieldKind) : ∀ operator ∈ operators kind,
    fieldKind (sampleLeaf kind operator).field = some kind ∧
      evaluateCondition Externals.sample (sampleLeaf kind operator) sampleRequest = true := by
  cases kind <;> decide +kernel

/-- **An operator compares exactly if it is in the table of the field's kind.** -/
theorem compares_iff (kind : FieldKind) (operator : String) :
    Compares kind operator ↔ operator ∈ operators kind := by
  refine Iff.intro (fun h => ?_) (fun h => ?_)
  · obtain ⟨deps, condition, ctx, hkind, hop, hholds⟩ := h
    by_contra hunknown
    have hfalse := evaluateCondition_of_unknown deps (fun kind' hkind' => by
      have hsame : kind' = kind := Option.some.inj (hkind'.symm.trans hkind)
      rw [hsame, hop]
      exact hunknown) ctx
    rw [hfalse] at hholds
    exact absurd hholds (by simp)
  · obtain ⟨hkind, hholds⟩ := sampleLeaf_holds kind operator h
    exact ⟨Externals.sample, sampleLeaf kind operator, sampleRequest, hkind, rfl, hholds⟩

/-! ## §4. Live configurations. -/

/-- The leaf of a file is in the tables, and has a text if it needs a regex. -/
def SupportedLeaf (condition : Condition) : Prop :=
  (∃ kind, fieldKind condition.field = some kind ∧ condition.operator ∈ operators kind) ∧
    (isRegexOperator condition.operator = true → hasText condition = true)

/-- The rule of a file is in the tables, with all its leaves. -/
def SupportedRule (rule : Rule) : Prop :=
  rule.action ∈ actions ∧ ∀ condition ∈ leavesAll rule.conditions, SupportedLeaf condition

/-- **The file is in the tables.** -/
def Supported (parsed : ProxyConfig) : Prop := ∀ rule ∈ parsed.rules.getD [], SupportedRule rule

theorem liveLeaf_iff {c c' : Condition} (h : LoadedFrom c c') : SupportedLeaf c ↔ LiveLeaf c' := by
  obtain ⟨hfield, hop, hregex⟩ := h
  unfold SupportedLeaf LiveLeaf
  simp only [hfield, hop, hregex, compares_iff]
  cases isRegexOperator c.operator <;> simp

/-- Loaded rules are live exactly if the rules of the file are in the tables. -/
theorem liveRules_iff {rules rules' : List Rule} (h : List.Forall₂ RuleLoadedFrom rules rules') :
    (∀ rule ∈ rules, SupportedRule rule) ↔ ∀ rule ∈ rules', ActsOn rule.action ∧
      ∀ condition ∈ leavesAll rule.conditions, LiveLeaf condition := by
  refine forall_mem_iff_of_forall₂ (fun rule rule' hrule => ?_) h
  obtain ⟨-, haction, hleaves⟩ := hrule
  have hleaves : (∀ c ∈ leavesAll rule.conditions, SupportedLeaf c) ↔
      ∀ c' ∈ leavesAll rule'.conditions, LiveLeaf c' :=
    forall_mem_iff_of_forall₂ (fun _ _ hc => liveLeaf_iff hc) hleaves
  unfold SupportedRule
  rw [haction, actsOn_iff, hleaves]

/-- Sorting does not matter to what is live. -/
theorem live_sortRulesByPriority (config : ProxyConfig) :
    Live (sortRulesByPriority config) ↔ Live config := by
  unfold Live
  simp only [mem_sortRulesByPriority]

/-- **Which accepted configurations are live, exactly**: those whose file is in the
evaluator's tables, at every depth, and gives every regex operator a text. -/
theorem loadFromPath_live_iff {env : LoadEnv} {path content : String} {parsed cfg : ProxyConfig}
    (hread : env.readFile path = .ok content) (hparse : env.parse content = .ok parsed)
    (hload : loadFromPath env path = .ok cfg) : Live cfg ↔ Supported parsed := by
  obtain ⟨loaded, hrules, -, rfl⟩ := loadFromPath_rules hread hparse hload
  rw [live_sortRulesByPriority]
  exact (liveRules_iff hrules).symm

/-! ## §5. A denial that never denies. -/

/-- An environment without variables, with one file, in which one regex is used. -/
def envOf (parsed : ProxyConfig) : LoadEnv where
  var _ := none
  pathExists _ := false
  readFile _ := .ok ""
  parse _ := .ok parsed
  isWordChar c := c.isAlphanum || c == '_'
  compileRegex s := if s = "^dev$" then .ok ⟨s, fun t => t == "dev"⟩ else .error "unknown"

/-- One rule about the header of a team. -/
def teamRule (action operator : String) : ProxyConfig where
  rules := some
    [{ name := "dev-only", action := action
       conditions := [.leaf
         { field := "header.x-team", operator := operator, value := some (.string "^dev$") }] }]

/-- Load the configuration, and evaluate a request of the team `ops`. -/
def loadAndEvaluate (parsed : ProxyConfig) : Option RuleResult :=
  match loadFromPath (envOf parsed) "config.yaml" with
  | .ok cfg =>
      some (evaluateRequestDetailed Externals.uncalled (cfg.rules.getD [])
        { path := "/images/json", method := "GET", headers := [("x-team", "ops")]
          clientIp := "10.0.0.7" } ⟨RateLimiter.new, fun _ => 0⟩).1.result
  | .error _ => none

/-- The file is accepted, and its configuration is not live. -/
def AcceptedDead (parsed : ProxyConfig) : Prop :=
  ∃ cfg, loadFromPath (envOf parsed) "config.yaml" = .ok cfg ∧ ¬ Live cfg

theorem acceptedDead_of_unsupported {parsed : ProxyConfig}
    (hload : (loadAndEvaluate parsed).isSome = true) (hdead : ¬ Supported parsed) :
    AcceptedDead parsed := by
  unfold loadAndEvaluate at hload
  cases hcfg : loadFromPath (envOf parsed) "config.yaml" with
  | error e => rw [hcfg] at hload; exact absurd hload (by simp)
  | ok cfg =>
      refine ⟨cfg, hcfg, fun hlive => hdead ?_⟩
      obtain ⟨loaded, hrules, -, rfl⟩ := loadFromPath_rules rfl rfl hcfg
      rw [live_sortRulesByPriority] at hlive
      exact (liveRules_iff hrules).mpr hlive

/-- **An accepted denial that denies nothing**: `not_matches` on a header, and a
misspelt action.  A request that the rule should deny is allowed. -/
theorem loadFromPath_dead :
    AcceptedDead (teamRule "deny" "not_matches") ∧
      loadAndEvaluate (teamRule "deny" "not_matches") = some .allow ∧
    AcceptedDead (teamRule "denny" "not_equals") ∧
      loadAndEvaluate (teamRule "denny" "not_equals") = some .allow ∧
    loadAndEvaluate (teamRule "deny" "not_equals") = some (.deny 403 "Forbidden by rule") := by
  have hmatches : loadAndEvaluate (teamRule "deny" "not_matches") = some .allow := by
    decide +kernel
  have hdenny : loadAndEvaluate (teamRule "denny" "not_equals") = some .allow := by
    decide +kernel
  refine ⟨acceptedDead_of_unsupported (by rw [hmatches]; rfl) (fun h => ?_), hmatches,
    acceptedDead_of_unsupported (by rw [hdenny]; rfl) (fun h => ?_), hdenny, by decide +kernel⟩
  · obtain ⟨-, hleaves⟩ := h _ List.mem_cons_self
    obtain ⟨⟨kind, hkind, hop⟩, -⟩ := hleaves _ List.mem_cons_self
    have hheader : kind = .header := Option.some.inj (hkind.symm.trans (by decide +kernel))
    rw [hheader] at hop
    exact absurd hop (by decide)
  · exact absurd (h _ List.mem_cons_self).1 (by decide)

/-- A supported configuration, loaded. -/
theorem loadFromPath_live_deny :
    ∃ cfg, loadFromPath (envOf (teamRule "deny" "not_equals")) "config.yaml" = .ok cfg ∧
      (Live cfg ↔ Supported (teamRule "deny" "not_equals")) := by
  have hsome : (loadAndEvaluate (teamRule "deny" "not_equals")).isSome = true := by
    decide +kernel
  unfold loadAndEvaluate at hsome
  cases hcfg : loadFromPath (envOf (teamRule "deny" "not_equals")) "config.yaml" with
  | error e => rw [hcfg] at hsome; exact absurd hsome (by simp)
  | ok cfg => exact ⟨cfg, rfl, loadFromPath_live_iff rfl rfl hcfg⟩

end DockerProxy.Rules
