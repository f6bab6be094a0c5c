/-
  DockerProxy.Rules.DryRun — what a rule with `dry_run: true` does to the rules
  after it.

  A dry-run rate limit, a dry-run role requirement that is met and a dry-run
  rule that does not match are passed like rules that are not there.  A dry-run
  denial, or a dry-run role requirement that is not met, lets the request
  through: it ends the evaluation with `Allow`, and the rules after it are not
  evaluated.
-/
import DockerProxy.Rules.Decision

namespace DockerProxy.Rules

open DockerProxy.Lib DockerProxy.Limiter

variable (deps : Externals)

/-! ## §1. Observing rules. -/

/-- A dry-run denial, role requirement or rate limit. -/
def isObserver (rule : Rule) : Bool :=
  isDryRun rule &&
    (rule.action == "deny" || rule.action == "require_role" || rule.action == "rate_limit")

/-- **The evaluation is let through by the dry-run rule at `k`**: a matching
denial, or a role requirement the caller does not meet, that no deciding rule
precedes. -/
def LetThroughAt (ctx : EvaluationContext) (rules : List Rule) (rc : RateClock) (k : Nat)
    (rule : Rule) : Prop :=
  rules[k]? = some rule ∧ isDryRun rule = true ∧ ruleMatches deps ctx rule = true ∧
    (rule.action = "deny" ∨ (rule.action = "require_role" ∧ roleSuffices ctx rule = false)) ∧
    ∀ j < k, ∀ r, ¬ DecidesAt deps ctx rules rc j r

/-- A dry-run rule charges nothing. -/
theorem charge_of_dryRun {ctx : EvaluationContext} {rule : Rule} (hd : isDryRun rule = true)
    (rc : RateClock) : charge deps ctx rule rc = rc := by
  have hcharged : charged deps ctx rule = none := by
    unfold charged
    rw [hd]
    exact if_neg (by simp)
  unfold charge
  rw [hcharged]

/-- An observer decides exactly when it matches and would deny, or would find
the caller's role insufficient. -/
theorem decides_of_observer {ctx : EvaluationContext} {rule : Rule} (ho : isObserver rule = true)
    (rc : RateClock) :
    decides deps ctx rule rc = true ↔ ruleMatches deps ctx rule = true ∧
      (rule.action = "deny" ∨ (rule.action = "require_role" ∧ roleSuffices ctx rule = false)) := by
  obtain ⟨hd, hor⟩ := (Bool.and_eq_true _ _).mp ho
  have hcharged : charged deps ctx rule = none := by
    unfold charged
    rw [hd]
    exact if_neg (by simp)
  have hallow : (rule.action == "allow") = false := by
    rw [beq_eq_false_iff_ne]
    intro ha
    rw [ha] at hor
    exact absurd hor (by decide)
  unfold decides refuses
  rw [hcharged, hallow]
  simp

theorem letThroughAt_iff {ctx : EvaluationContext} {rules : List Rule} {rc : RateClock} {k : Nat}
    {rule : Rule} :
    LetThroughAt deps ctx rules rc k rule ↔
      FirstDecidesAt deps ctx rules rc k rule ∧ isObserver rule = true := by
  constructor
  · intro ⟨hrule, hd, hm, hor, hleast⟩
    have ho : isObserver rule = true := by
      unfold isObserver
      rw [hd]
      obtain ha | ⟨ha, -⟩ := hor <;> rw [ha] <;> decide
    exact ⟨⟨⟨hrule, (decides_of_observer deps ho _).mpr ⟨hm, hor⟩⟩, hleast⟩, ho⟩
  · intro ⟨⟨⟨hrule, hdec⟩, hleast⟩, ho⟩
    obtain ⟨hm, hor⟩ := (decides_of_observer deps ho _).mp hdec
    exact ⟨hrule, ((Bool.and_eq_true _ _).mp ho).1, hm, hor, hleast⟩

/-! ## §2. Deleting the observers. -/

/-- **Dry-run rules, exactly.**  Unless a dry-run rule lets the evaluation
through, deleting all observers changes neither the decision nor the limiter.  If
one does, the evaluation ends there: the request is allowed, the decision names
that rule, and only the rules before it have charged the limiter. -/
theorem evaluateRequestDetailed_observers (rules : List Rule) (ctx : EvaluationContext)
    (rc : RateClock) :
    ((∀ k rule, ¬ LetThroughAt deps ctx rules rc k rule) →
      evaluateRequestDetailed deps (rules.filter fun r => !isObserver r) ctx rc =
        evaluateRequestDetailed deps rules ctx rc) ∧
    (∀ k rule, LetThroughAt deps ctx rules rc k rule →
      evaluateRequestDetailed deps rules ctx rc =
        (⟨.allow, some rule.name, some rule.action, true⟩, limiterAt deps ctx rules rc k)) := by
  refine ⟨fun hnone => ?_, fun k rule hlet => ?_⟩
  · have hframe : ∀ (r : Rule) (s : RateClock), (!isObserver r) = false →
        (evaluateRule deps ctx r s).2 = s := by
      intro r s hr
      have ho : isObserver r = true := by simpa using hr
      rw [evaluateRule_eq]
      exact charge_of_dryRun deps ((Bool.and_eq_true _ _).mp ho).1 s
    have hkept : ∀ k d r, FirstStopAt (evaluateRule deps ctx) rules rc k d → rules[k]? = some r →
        (!isObserver r) = true := by
      intro k d r hstop hr
      obtain ⟨rule, hdec, -⟩ := firstDecidesAt_of_firstStopAt deps hstop
      have hsame : some rule = some r := hdec.1.1.symm.trans hr
      injection hsame with hsame
      cases ho : isObserver r with
      | false => rfl
      | true =>
          rw [← hsame] at ho
          exact absurd ((letThroughAt_iff deps).mpr ⟨hdec, ho⟩) (hnone k rule)
    unfold evaluateRequestDetailed
    rw [firstStop_filter _ hframe rules rc hkept]
  · obtain ⟨hdec, ho⟩ := (letThroughAt_iff deps).mp hlet
    obtain ⟨hrule, hd, -, hor, -⟩ := hlet
    have hne : rule.action ≠ "allow" := by
      obtain ha | ⟨ha, -⟩ := hor <;> rw [ha] <;> decide
    have hdecision : decision rule = ⟨.allow, some rule.name, some rule.action, true⟩ := by
      unfold decision
      rw [hd, if_pos (Or.inr rfl), decide_eq_true hne]
      rfl
    rw [evaluateRequestDetailed_of_first deps hdec, hdecision, limiterAt_succ deps rc hrule,
      charge_of_dryRun deps hd]

/-- A dry-run denial in front of an enforced one. -/
def observedRules : List Rule :=
  [{ name := "observe", action := "deny", dryRun := some true,
     conditions := [pathEquals "/images/json"] },
   { name := "closed", action := "deny", conditions := [pathEquals "/images/json"] }]

/-- **A dry-run denial hides the enforced denial behind it.** -/
theorem evaluateRequestDetailed_observed :
    (evaluateRequestDetailed Externals.uncalled observedRules
        { path := "/images/json", method := "GET", clientIp := "10.0.0.7" }
        ⟨RateLimiter.new, fun _ => 0⟩).1.result = .allow ∧
      (evaluateRequestDetailed Externals.uncalled (observedRules.filter fun r => !isObserver r)
        { path := "/images/json", method := "GET", clientIp := "10.0.0.7" }
        ⟨RateLimiter.new, fun _ => 0⟩).1.result = .deny 403 "Forbidden by rule" := by
  decide

end DockerProxy.Rules
