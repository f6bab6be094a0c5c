/-
  DockerProxy.Rules.Evaluate — `evaluate_request_detailed` of `rules.rs`.

  The `for` loop over the rules is `firstStop` with `evaluateRule` as its body:
  a rule returns a decision or is passed, and a rate limit charges the limiter
  on the way.  `evaluateRule_eq` says at once what a rule does: whether it
  decides (`decides`), with which decision (`decision`), and what it charges
  (`charge`).
-/
import DockerProxy.Lib.FirstStop
import DockerProxy.Limiter.Rate
import DockerProxy.Rules.Conditions

namespace DockerProxy.Rules

open DockerProxy.Lib DockerProxy.Limiter

/-! ## §1. Decisions. -/

inductive RuleResult where
  | allow
  | deny (status : UInt16) (message : String)
  deriving DecidableEq

structure RuleDecision where
  result : RuleResult
  ruleName : Option String
  action : Option String
  dryRun : Bool
  deriving DecidableEq

/-- `RuleDecision::allow`: no rule decided. -/
def RuleDecision.allow : RuleDecision := ⟨.allow, none, none, false⟩

/-- The shared rate limiter, and the clock readings its checks are going to take,
the next one at 0. -/
structure RateClock where
  limiter : RateLimiter
  readings : Nat → Nat

/-- `rate_limiter.check`, which reads the clock unless it allows no request at
all. -/
def RateClock.check (rc : RateClock) (key : String) (config : RateLimitConfig) :
    Bool × RateClock :=
  if config.requests.toNat = 0 then (false, rc)
  else
    let (allowed, limiter) := rc.limiter.check (rc.readings 0) key config.requests.toNat
      config.period.toNat config.penalty.toNat
    (allowed, ⟨limiter, fun n => rc.readings (n + 1)⟩)

variable (deps : Externals)

/-! ## §2. The loop. -/

/-- One turn of the loop: a decision to return, or `none` to go on. -/
def evaluateRule (ctx : EvaluationContext) (rule : Rule) (rc : RateClock) :
    Option RuleDecision × RateClock :=
  if rule.conditions.isEmpty then (none, rc)
  else if !(rule.conditions.all fun c => evaluateNode deps ctx c) then (none, rc)
  else
    let isDry := rule.dryRun.getD false
    match rule.action with
    | "deny" =>
        let status := rule.status.getD 403
        let message := rule.message.getD "Forbidden by rule"
        if isDry then (some ⟨.allow, some rule.name, some "deny", true⟩, rc)
        else (some ⟨.deny status message, some rule.name, some "deny", false⟩, rc)
    | "allow" => (some ⟨.allow, some rule.name, some "allow", false⟩, rc)
    | "require_role" =>
        let required := rule.role.getD "admin"
        let userRole := ctx.userRole.getD ""
        if userRole != "admin" && userRole != required then
          let status := rule.status.getD 403
          let message := rule.message.getD ("Role '" ++ required ++ "' required")
          if isDry then (some ⟨.allow, some rule.name, some "require_role", true⟩, rc)
          else (some ⟨.deny status message, some rule.name, some "require_role", false⟩, rc)
        else (none, rc)
    | "response_filter" => (none, rc)
    | "rate_limit" =>
        if isDry then (none, rc)
        else
          match rule.rateLimit with
          | some rlConfig =>
              let (allowed, rc) := rc.check (rule.name ++ ":" ++ ctx.clientIp) rlConfig
              if !allowed then
                let status := rule.status.getD 429
                let message := rule.message.getD "Rate limit exceeded"
                -- never taken: a dry run has gone on above
                if isDry then (some ⟨.allow, some rule.name, some "rate_limit", true⟩, rc)
                else (some ⟨.deny status message, some rule.name, some "rate_limit", false⟩, rc)
              else (none, rc)
          | none => (none, rc)
    | _ => (none, rc)

/-- `evaluate_request_detailed`. -/
def evaluateRequestDetailed (rules : List Rule) (ctx : EvaluationContext) (rc : RateClock) :
    RuleDecision × RateClock :=
  let (decision, rc) := firstStop (evaluateRule deps ctx) rules rc
  (decision.getD RuleDecision.allow, rc)

/-! ## §3. What one rule does. -/

/-- The rule's conditions are there and all hold. -/
def ruleMatches (ctx : EvaluationContext) (rule : Rule) : Bool :=
  !rule.conditions.isEmpty && rule.conditions.all fun c => evaluateNode deps ctx c

/-- The rule only observes. -/
def isDryRun (rule : Rule) : Bool := rule.dryRun.getD false

/-- The caller is an admin or has the required role. -/
def roleSuffices (ctx : EvaluationContext) (rule : Rule) : Bool :=
  ctx.userRole.getD "" == "admin" || ctx.userRole.getD "" == rule.role.getD "admin"

/-- The limiter key of a rule for the caller. -/
def rateKey (ctx : EvaluationContext) (rule : Rule) : String := rule.name ++ ":" ++ ctx.clientIp

/-- **What the rule charges**: a matching, enforced rate limit that has a config. -/
def charged (ctx : EvaluationContext) (rule : Rule) : Option (String × RateLimitConfig) :=
  if ruleMatches deps ctx rule && rule.action == "rate_limit" && !isDryRun rule then
    rule.rateLimit.map fun config => (rateKey ctx rule, config)
  else none

/-- The limiter after the rule. -/
def charge (ctx : EvaluationContext) (rule : Rule) (rc : RateClock) : RateClock :=
  match charged deps ctx rule with
  | some (key, config) => (rc.check key config).2
  | none => rc

/-- The rule would refuse the request: a denial, a role the caller does not have,
a limit that is exceeded. -/
def refuses (ctx : EvaluationContext) (rule : Rule) (rc : RateClock) : Bool :=
  rule.action == "deny" || (rule.action == "require_role" && !roleSuffices ctx rule) ||
    ((charged deps ctx rule).any fun c => !(rc.check c.1 c.2).1)

/-- **The rule ends the evaluation.** -/
def decides (ctx : EvaluationContext) (rule : Rule) (rc : RateClock) : Bool :=
  ruleMatches deps ctx rule && (rule.action == "allow" || refuses deps ctx rule rc)

/-- Status and message of a refusal, with the action's defaults. -/
def denial (rule : Rule) : UInt16 × String :=
  if rule.action = "require_role" then
    (rule.status.getD 403,
      rule.message.getD ("Role '" ++ rule.role.getD "admin" ++ "' required"))
  else if rule.action = "rate_limit" then
    (rule.status.getD 429, rule.message.getD "Rate limit exceeded")
  else (rule.status.getD 403, rule.message.getD "Forbidden by rule")

/-- The decision of a rule that ends the evaluation. -/
def decision (rule : Rule) : RuleDecision where
  result :=
    if rule.action = "allow" ∨ isDryRun rule = true then .allow
    else .deny (denial rule).1 (denial rule).2
  ruleName := some rule.name
  action := some rule.action
  dryRun := decide (rule.action ≠ "allow") && isDryRun rule

theorem evaluateRule_of_not_matches {ctx : EvaluationContext} {rule : Rule} (rc : RateClock)
    (h : ruleMatches deps ctx rule = false) : evaluateRule deps ctx rule rc = (none, rc) := by
  unfold ruleMatches at h
  unfold evaluateRule
  by_cases hc : rule.conditions.isEmpty = true
  · rw [if_pos hc]
  · rw [if_neg hc]
    simp only [hc, Bool.not_false, Bool.true_and] at h
    rw [h]
    rfl

/-- **What a rule does**: it decides or is passed, and it charges what it charges. -/
theorem evaluateRule_eq (ctx : EvaluationContext) (rule : Rule) (rc : RateClock) :
    evaluateRule deps ctx rule rc =
      (if decides deps ctx rule rc then some (decision rule) else none, charge deps ctx rule rc) := by
  cases hm : ruleMatches deps ctx rule with
  | false =>
      have hcharged : charged deps ctx rule = none := by
        unfold charged
        rw [hm]
        rfl
      rw [evaluateRule_of_not_matches deps rc hm]
      simp [decides, hm, charge, hcharged]
  | true =>
      obtain ⟨hne, hall⟩ := (Bool.and_eq_true _ _).mp hm
      have hne : rule.conditions.isEmpty = false := by simpa using hne
      unfold evaluateRule
      rw [hne, hall]
      simp only [Bool.false_eq_true, if_false, Bool.not_true]
      -- one case for every action of the source, with the dry-run flag where it is read
      split
      next ha =>
        cases hd : rule.dryRun.getD false <;>
          simp [decides, hm, refuses, charge, charged, decision, denial, isDryRun, ha, hd]
      next ha => simp [decides, hm, charge, charged, decision, ha]
      next ha =>
        have hguard : (ctx.userRole.getD "" != "admin" &&
            ctx.userRole.getD "" != rule.role.getD "admin") = !roleSuffices ctx rule := by
          unfold roleSuffices
          rw [Bool.not_or]
          rfl
        simp only [hguard]
        cases hr : roleSuffices ctx rule <;> cases hd : rule.dryRun.getD false <;>
          simp [decides, hm, refuses, charge, charged, decision, denial, isDryRun, ha, hr, hd]
      next ha => simp [decides, hm, refuses, charge, charged, ha]
      next ha =>
        cases hd : rule.dryRun.getD false with
        | true => simp [decides, hm, refuses, charge, charged, isDryRun, ha, hd]
        | false =>
            cases hrl : rule.rateLimit with
            | none => simp [decides, hm, refuses, charge, charged, isDryRun, ha, hd, hrl]
            | some config =>
                have hkey : rule.name ++ ":" ++ ctx.clientIp = rateKey ctx rule := rfl
                simp only [hkey]
                cases hc : (rc.check (rateKey ctx rule) config).1 <;>
                  simp [decides, hm, refuses, charge, charged, decision, denial, isDryRun, ha, hd,
                    hrl, hc]
      next h1 h2 h3 h4 h5 =>
        have ha : (rule.action == "deny") = false := beq_eq_false_iff_ne.mpr h1
        have hb : (rule.action == "allow") = false := beq_eq_false_iff_ne.mpr h2
        have hr : (rule.action == "require_role") = false := beq_eq_false_iff_ne.mpr h3
        have hl : (rule.action == "rate_limit") = false := beq_eq_false_iff_ne.mpr h5
        simp [decides, hm, refuses, charge, charged, ha, hb, hr, hl]

/-! ## §4. What a rule list does. -/

/-- The charges of the rules, in list order. -/
def charges (ctx : EvaluationContext) (rules : List Rule) : List (String × RateLimitConfig) :=
  rules.filterMap (charged deps ctx)

/-- **The limiter after the rules**: one check for each charge. -/
def limiterAfter (ctx : EvaluationContext) (rules : List Rule) (rc : RateClock) : RateClock :=
  (charges deps ctx rules).foldl (fun rc c => (rc.check c.1 c.2).2) rc

/-- The limiter that the rule at position `k` is evaluated with. -/
def limiterAt (ctx : EvaluationContext) (rules : List Rule) (rc : RateClock) (k : Nat) : RateClock :=
  limiterAfter deps ctx (rules.take k) rc

theorem limiterAfter_cons (ctx : EvaluationContext) (rule : Rule) (rules : List Rule)
    (rc : RateClock) :
    limiterAfter deps ctx (rule :: rules) rc =
      limiterAfter deps ctx rules (charge deps ctx rule rc) := by
  unfold limiterAfter charges charge
  cases hc : charged deps ctx rule with
  | none => rw [List.filterMap_cons_none hc]
  | some c => rw [List.filterMap_cons_some hc]; rfl

/-- The next position's limiter is charged by the rule at this one. -/
theorem limiterAt_succ {ctx : EvaluationContext} {rules : List Rule} (rc : RateClock) {k : Nat}
    {rule : Rule} (h : rules[k]? = some rule) :
    limiterAt deps ctx rules rc (k + 1) =
      charge deps ctx rule (limiterAt deps ctx rules rc k) := by
  unfold limiterAt limiterAfter charges charge
  rw [List.take_add_one, h, List.filterMap_append, List.foldl_append]
  cases hc : charged deps ctx rule with
  | none => simp [hc]
  | some c => simp [hc]

/-- Passing rules charges the limiter, in list order. -/
theorem passState_eq (ctx : EvaluationContext) (rules : List Rule) :
    ∀ rc, passState (evaluateRule deps ctx) rules rc = limiterAfter deps ctx rules rc := by
  induction rules with
  | nil => intro rc; rfl
  | cons rule rules ih =>
      intro rc
      rw [limiterAfter_cons, ← ih]
      show passState _ rules (evaluateRule deps ctx rule rc).2 = _
      rw [evaluateRule_eq]

/-- The rule at position `k` decides, with the limiter it is evaluated with. -/
def DecidesAt (ctx : EvaluationContext) (rules : List Rule) (rc : RateClock) (k : Nat)
    (rule : Rule) : Prop :=
  rules[k]? = some rule ∧ decides deps ctx rule (limiterAt deps ctx rules rc k) = true

/-- The rule at position `k` decides, and no rule before it does. -/
def FirstDecidesAt (ctx : EvaluationContext) (rules : List Rule) (rc : RateClock) (k : Nat)
    (rule : Rule) : Prop :=
  DecidesAt deps ctx rules rc k rule ∧ ∀ j < k, ∀ r, ¬ DecidesAt deps ctx rules rc j r

theorem stopsAt_iff {ctx : EvaluationContext} {rules : List Rule} {rc : RateClock} {k : Nat}
    {d : RuleDecision} :
    StopsAt (evaluateRule deps ctx) rules rc k d ↔
      ∃ rule, DecidesAt deps ctx rules rc k rule ∧ decision rule = d := by
  unfold StopsAt DecidesAt limiterAt
  simp only [passState_eq, evaluateRule_eq]
  constructor
  · intro ⟨rule, hrule, hd⟩
    split at hd
    next hdec =>
      injection hd with hd
      exact ⟨rule, ⟨hrule, hdec⟩, hd⟩
    next => exact absurd hd (by simp)
  · intro ⟨rule, ⟨hrule, hdec⟩, hd⟩
    refine ⟨rule, hrule, ?_⟩
    rw [if_pos hdec, hd]

theorem firstStopAt_of_firstDecidesAt {ctx : EvaluationContext} {rules : List Rule}
    {rc : RateClock} {k : Nat} {rule : Rule} (h : FirstDecidesAt deps ctx rules rc k rule) :
    FirstStopAt (evaluateRule deps ctx) rules rc k (decision rule) := by
  refine ⟨(stopsAt_iff deps).mpr ⟨rule, h.1, rfl⟩, fun j hj e hstop => ?_⟩
  obtain ⟨r, hr, -⟩ := (stopsAt_iff deps).mp hstop
  exact h.2 j hj r hr

theorem firstDecidesAt_of_firstStopAt {ctx : EvaluationContext} {rules : List Rule}
    {rc : RateClock} {k : Nat} {d : RuleDecision}
    (h : FirstStopAt (evaluateRule deps ctx) rules rc k d) :
    ∃ rule, FirstDecidesAt deps ctx rules rc k rule ∧ decision rule = d := by
  obtain ⟨rule, hrule, hd⟩ := (stopsAt_iff deps).mp h.1
  exact ⟨rule, ⟨hrule, fun j hj r hr =>
    h.2 j hj (decision r) ((stopsAt_iff deps).mpr ⟨r, hr, rfl⟩)⟩, hd⟩

/-- **The evaluation ends at the first rule that decides**: with its decision, and
with the limiter charged up to it. -/
theorem evaluateRequestDetailed_of_first {ctx : EvaluationContext} {rules : List Rule}
    {rc : RateClock} {k : Nat} {rule : Rule} (h : FirstDecidesAt deps ctx rules rc k rule) :
    evaluateRequestDetailed deps rules ctx rc =
      (decision rule, limiterAt deps ctx rules rc (k + 1)) := by
  have hfirst := firstStopAt_of_firstDecidesAt deps h
  unfold evaluateRequestDetailed
  obtain ⟨j, d, hj, heq⟩ | ⟨hnone, -⟩ := firstStop_eq (evaluateRule deps ctx) rules rc
  · obtain ⟨hjk, hd⟩ := firstStopAt_unique _ hj hfirst
    rw [heq, hd, hjk, passState_eq]
    rfl
  · exact absurd hfirst.1 (hnone k _)

/-- **Without such a rule the request is allowed**, and all charges are made. -/
theorem evaluateRequestDetailed_of_none {ctx : EvaluationContext} {rules : List Rule}
    {rc : RateClock} (h : ∀ k rule, ¬ DecidesAt deps ctx rules rc k rule) :
    evaluateRequestDetailed deps rules ctx rc =
      (RuleDecision.allow, limiterAfter deps ctx rules rc) := by
  unfold evaluateRequestDetailed
  obtain ⟨k, d, hk, -⟩ | ⟨-, heq⟩ := firstStop_eq (evaluateRule deps ctx) rules rc
  · obtain ⟨rule, hrule, -⟩ := firstDecidesAt_of_firstStopAt deps hk
    exact absurd hrule.1 (h k rule)
  · rw [heq, passState_eq]
    rfl

/-- **Rules that do not decide are passed**: the evaluation is that of the rules
after them. -/
theorem evaluateRequestDetailed_drop {ctx : EvaluationContext} {rules : List Rule}
    {rc : RateClock} {n : Nat} (h : ∀ j < n, ∀ rule, ¬ DecidesAt deps ctx rules rc j rule) :
    evaluateRequestDetailed deps rules ctx rc =
      evaluateRequestDetailed deps (rules.drop n) ctx (limiterAt deps ctx rules rc n) := by
  have hpass : ∀ j < n, ∀ d, ¬ StopsAt (evaluateRule deps ctx) rules rc j d := by
    intro j hj d hstop
    obtain ⟨rule, hdec, -⟩ := (stopsAt_iff deps).mp hstop
    exact h j hj rule hdec
  unfold evaluateRequestDetailed limiterAt
  rw [firstStop_drop _ rules n rc hpass, passState_eq]

/-- There is a first rule that decides, or none at all. -/
theorem firstDecidesAt_or_none (ctx : EvaluationContext) (rules : List Rule) (rc : RateClock) :
    (∃ k rule, FirstDecidesAt deps ctx rules rc k rule) ∨
      ∀ k rule, ¬ DecidesAt deps ctx rules rc k rule := by
  obtain ⟨k, d, hk, -⟩ | ⟨hnone, -⟩ := firstStop_eq (evaluateRule deps ctx) rules rc
  · obtain ⟨rule, hrule, -⟩ := firstDecidesAt_of_firstStopAt deps hk
    exact Or.inl ⟨k, rule, hrule⟩
  · exact Or.inr fun k rule hdec => hnone k _ ((stopsAt_iff deps).mpr ⟨rule, hdec, rfl⟩)

end DockerProxy.Rules
