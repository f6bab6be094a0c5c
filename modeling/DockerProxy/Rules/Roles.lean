/-
  DockerProxy.Rules.Roles — one request, for a caller with some role and for an
  admin.

  Conditions do not read the role, so the two evaluations match the same rules
  and charge the same limits.  They part only at a `require_role` rule whose role
  the caller lacks.  An enforced one denies the caller.  A dry-run one lets the
  caller through, while the admin goes on to the rules after it
  (`evaluateRequestDetailed_asAdmin`).
-/
import DockerProxy.Rules.DryRun

namespace DockerProxy.Rules

open DockerProxy.Lib DockerProxy.Limiter

/-- The same request, made by an admin. -/
def EvaluationContext.asAdmin (ctx : EvaluationContext) : EvaluationContext :=
  { ctx with userRole := some "admin" }

variable (deps : Externals)

/-! ## §1. What does not depend on the role. -/

mutual

/-- Conditions do not read the role. -/
theorem evaluateNode_asAdmin (ctx : EvaluationContext) :
    ∀ node, evaluateNode deps ctx.asAdmin node = evaluateNode deps ctx node
  | .leaf _ => rfl
  | .and nodes => evaluateAll_asAdmin ctx nodes
  | .or nodes => evaluateAny_asAdmin ctx nodes

theorem evaluateAll_asAdmin (ctx : EvaluationContext) :
    ∀ nodes, evaluateAll deps ctx.asAdmin nodes = evaluateAll deps ctx nodes
  | [] => rfl
  | node :: nodes => by
      rw [evaluateAll, evaluateAll, evaluateNode_asAdmin ctx node, evaluateAll_asAdmin ctx nodes]

theorem evaluateAny_asAdmin (ctx : EvaluationContext) :
    ∀ nodes, evaluateAny deps ctx.asAdmin nodes = evaluateAny deps ctx nodes
  | [] => rfl
  | node :: nodes => by
      rw [evaluateAny, evaluateAny, evaluateNode_asAdmin ctx node, evaluateAny_asAdmin ctx nodes]

end

theorem ruleMatches_asAdmin (ctx : EvaluationContext) (rule : Rule) :
    ruleMatches deps ctx.asAdmin rule = ruleMatches deps ctx rule := by
  unfold ruleMatches
  simp only [evaluateNode_asAdmin]

theorem charged_asAdmin (ctx : EvaluationContext) (rule : Rule) :
    charged deps ctx.asAdmin rule = charged deps ctx rule := by
  unfold charged
  rw [ruleMatches_asAdmin]
  rfl

theorem limiterAt_asAdmin (ctx : EvaluationContext) (rules : List Rule) (rc : RateClock) (k : Nat) :
    limiterAt deps ctx.asAdmin rules rc k = limiterAt deps ctx rules rc k := by
  unfold limiterAt limiterAfter charges
  simp only [charged_asAdmin]

/-- An admin has every role. -/
theorem roleSuffices_asAdmin (ctx : EvaluationContext) (rule : Rule) :
    roleSuffices ctx.asAdmin rule = true := by
  unfold roleSuffices
  rw [Bool.or_eq_true]
  exact Or.inl rfl

/-- **Where the evaluations part**: the rule decides for the caller exactly when it
decides for the admin, or when it requires a role that the caller lacks. -/
theorem decides_iff_asAdmin (ctx : EvaluationContext) (rule : Rule) (rc : RateClock) :
    decides deps ctx rule rc = true ↔
      decides deps ctx.asAdmin rule rc = true ∨
        (ruleMatches deps ctx rule = true ∧ rule.action = "require_role" ∧
          roleSuffices ctx rule = false) := by
  unfold decides refuses
  rw [ruleMatches_asAdmin, charged_asAdmin, roleSuffices_asAdmin]
  by_cases hrole : rule.action = "require_role" ∧ roleSuffices ctx rule = false
  · obtain ⟨ha, hr⟩ := hrole
    simp only [ha, hr, Bool.not_false, Bool.and_true, beq_self_eq_true, Bool.or_true, Bool.true_or]
    refine Iff.intro (fun hm => Or.inr ⟨hm, trivial, trivial⟩) ?_
    rintro (hadmin | ⟨hm, -⟩)
    · exact ((Bool.and_eq_true _ _).mp hadmin).1
    · exact hm
  · have hpass : (rule.action == "require_role" && !roleSuffices ctx rule) = false := by
      rw [Bool.eq_false_iff]
      intro h
      simp only [Bool.and_eq_true, beq_iff_eq, Bool.not_eq_true'] at h
      exact hrole h
    simp only [hpass, Bool.not_true, Bool.and_false, hrole, and_false, or_false]

/-! ## §2. The two evaluations. -/

/-- **The caller is let through by the dry-run role requirement at `k`**, for lack
of the role. -/
def ObservedRoleAt (ctx : EvaluationContext) (rules : List Rule) (rc : RateClock) (k : Nat)
    (rule : Rule) : Prop :=
  LetThroughAt deps ctx rules rc k rule ∧ rule.action = "require_role"

section

variable {ctx : EvaluationContext} {rules : List Rule} {rc : RateClock}

/-- What does not decide for the caller does not decide for the admin. -/
theorem not_decidesAt_asAdmin {k : Nat} {rule : Rule} (h : ¬ DecidesAt deps ctx rules rc k rule) :
    ¬ DecidesAt deps ctx.asAdmin rules rc k rule := by
  intro ⟨hrule, hdec⟩
  rw [limiterAt_asAdmin] at hdec
  exact h ⟨hrule, (decides_iff_asAdmin deps ctx rule _).mpr (Or.inl hdec)⟩

/-- Behind a dry-run role requirement that let the caller through, the admin gets
what the rules after it decide. -/
theorem evaluateRequestDetailed_of_observedRole {k : Nat} {rule : Rule}
    (h : ObservedRoleAt deps ctx rules rc k rule) :
    evaluateRequestDetailed deps rules ctx.asAdmin rc =
      evaluateRequestDetailed deps (rules.drop (k + 1)) ctx.asAdmin
        (limiterAt deps ctx rules rc k) := by
  obtain ⟨⟨hrule, hdry, -, -, hleast⟩, hrole⟩ := h
  have hpass : ∀ j < k + 1, ∀ r, ¬ DecidesAt deps ctx.asAdmin rules rc j r := by
    intro j hj r hdec
    by_cases hjk : j < k
    · exact not_decidesAt_asAdmin deps (hleast j hjk r) hdec
    · -- the admin meets the requirement itself
      have hjk : j = k := by omega
      rw [hjk] at hdec
      have hsame : some rule = some r := hrule.symm.trans hdec.1
      injection hsame with hsame
      rw [← hsame] at hdec
      have ho : isObserver rule = true := by
        unfold isObserver
        rw [hdry, hrole]
        decide
      obtain ⟨-, hdeny | ⟨-, hlacks⟩⟩ := (decides_of_observer deps ho _).mp hdec.2
      · rw [hrole] at hdeny
        exact absurd hdeny (by decide)
      · rw [roleSuffices_asAdmin] at hlacks
        exact absurd hlacks (by simp)
  rw [evaluateRequestDetailed_drop deps hpass, limiterAt_asAdmin, limiterAt_succ deps rc hrule,
    charge_of_dryRun deps hdry]

/-- **The admin role is at least as powerful as any other, but for dry runs.**
Whatever the limiter's state, a request that is allowed for some role or for none
is allowed for an admin, unless a dry-run role requirement let the caller through.
If one did, the admin gets what the rules after it decide. -/
theorem evaluateRequestDetailed_asAdmin
    (hallow : (evaluateRequestDetailed deps rules ctx rc).1.result = .allow) :
    ((∀ k rule, ¬ ObservedRoleAt deps ctx rules rc k rule) →
      (evaluateRequestDetailed deps rules ctx.asAdmin rc).1.result = .allow) ∧
    (∀ k rule, ObservedRoleAt deps ctx rules rc k rule →
      evaluateRequestDetailed deps rules ctx.asAdmin rc =
        evaluateRequestDetailed deps (rules.drop (k + 1)) ctx.asAdmin
          (limiterAt deps ctx rules rc k)) := by
  refine ⟨fun hnone => ?_, fun k rule h => evaluateRequestDetailed_of_observedRole deps h⟩
  cases firstDecidesAt_or_none deps ctx rules rc with
  | inr hpass =>
      rw [evaluateRequestDetailed_of_none deps fun k rule =>
        not_decidesAt_asAdmin deps (hpass k rule)]
      rfl
  | inl hfirst =>
      obtain ⟨k, rule, hfirst⟩ := hfirst
      obtain ⟨⟨hrule, hdec⟩, hleast⟩ := hfirst
      rw [evaluateRequestDetailed_of_first deps ⟨⟨hrule, hdec⟩, hleast⟩] at hallow
      cases (decides_iff_asAdmin deps ctx rule _).mp hdec with
      | inl hadmin =>
          -- the same rule decides for the admin, and it decides the same
          have hfirst' : FirstDecidesAt deps ctx.asAdmin rules rc k rule := by
            refine ⟨⟨hrule, ?_⟩, fun j hj r => not_decidesAt_asAdmin deps (hleast j hj r)⟩
            rw [limiterAt_asAdmin]
            exact hadmin
          rw [evaluateRequestDetailed_of_first deps hfirst']
          exact hallow
      | inr hlacks =>
          obtain ⟨hm, hrole, hlacks⟩ := hlacks
          -- an enforced requirement would have denied the caller
          cases hdry : isDryRun rule with
          | true =>
              exact absurd ⟨⟨hrule, hdry, hm, Or.inr ⟨hrole, hlacks⟩, hleast⟩, hrole⟩
                (hnone k rule)
          | false =>
              have hdeny : (decision rule).result = .deny (denial rule).1 (denial rule).2 := by
                have hne : ¬ (rule.action = "allow" ∨ isDryRun rule = true) := by
                  rw [hrole, hdry]
                  decide
                exact if_neg hne
              have hallow : (decision rule).result = .allow := hallow
              rw [hdeny] at hallow
              exact absurd hallow (by simp)

end

/-! ## §3. An admin who is denied what anyone may do. -/

/-- A dry-run role requirement in front of an enforced denial. -/
def observedRoleRules : List Rule :=
  [{ name := "observe-admins", action := "require_role", role := some "admin", dryRun := some true,
     conditions := [pathEquals "/images/json"] },
   { name := "closed", action := "deny", conditions := [pathEquals "/images/json"] }]

/-- A request for the image list. -/
def imagesRequest (userRole : Option String) : EvaluationContext where
  path := "/images/json"
  method := "GET"
  clientIp := "10.0.0.7"
  userRole := userRole

/-- **The admin is denied, everyone else is let through**; no limit is checked. -/
theorem evaluateRequestDetailed_asAdmin_denied :
    charges Externals.uncalled (imagesRequest none) observedRoleRules = [] ∧
    (evaluateRequestDetailed Externals.uncalled observedRoleRules (imagesRequest none)
        ⟨RateLimiter.new, fun _ => 0⟩).1.result = .allow ∧
      (evaluateRequestDetailed Externals.uncalled observedRoleRules (imagesRequest none).asAdmin
        ⟨RateLimiter.new, fun _ => 0⟩).1.result = .deny 403 "Forbidden by rule" := by
  decide

/-- For a caller without a role, at these rules. -/
theorem evaluateRequestDetailed_asAdmin_images :
    ((∀ k rule, ¬ ObservedRoleAt Externals.uncalled (imagesRequest none) observedRoleRules
          ⟨RateLimiter.new, fun _ => 0⟩ k rule) →
      (evaluateRequestDetailed Externals.uncalled observedRoleRules (imagesRequest none).asAdmin
        ⟨RateLimiter.new, fun _ => 0⟩).1.result = .allow) ∧
    (∀ k rule, ObservedRoleAt Externals.uncalled (imagesRequest none) observedRoleRules
          ⟨RateLimiter.new, fun _ => 0⟩ k rule →
      evaluateRequestDetailed Externals.uncalled observedRoleRules (imagesRequest none).asAdmin
          ⟨RateLimiter.new, fun _ => 0⟩ =
        evaluateRequestDetailed Externals.uncalled (observedRoleRules.drop (k + 1))
          (imagesRequest none).asAdmin
          (limiterAt Externals.uncalled (imagesRequest none) observedRoleRules
            ⟨RateLimiter.new, fun _ => 0⟩ k)) :=
  evaluateRequestDetailed_asAdmin Externals.uncalled (by decide)

end DockerProxy.Rules
