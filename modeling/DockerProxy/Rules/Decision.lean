/-
  DockerProxy.Rules.Decision — what a list of enforced rules decides.

  Stated in the words of the rule language: a rule `Blocks` when it denies, when
  the caller lacks the role it requires, or when the limiter refuses.  The
  request is denied exactly when some matching rule blocks and no matching allow
  rule comes first (`evaluateRequestDetailed_enforced`).
-/
import DockerProxy.Rules.Evaluate

namespace DockerProxy.Rules

open DockerProxy.Lib DockerProxy.Limiter

variable (deps : Externals)

/-! ## §1. Blocking and allowing. -/

/-- **A rule that blocks**, when the limiter stands at `rc`. -/
def Blocks (ctx : EvaluationContext) (rule : Rule) (rc : RateClock) : Prop :=
  rule.action = "deny" ∨
  (rule.action = "require_role" ∧
    ctx.userRole.getD "" ≠ "admin" ∧ ctx.userRole.getD "" ≠ rule.role.getD "admin") ∨
  (rule.action = "rate_limit" ∧
    ∃ config, rule.rateLimit = some config ∧ (rc.check (rateKey ctx rule) config).1 = false)

/-- At position `k` there is a matching rule that blocks, when the limiter was
charged by all the rules before it. -/
def BlocksAt (ctx : EvaluationContext) (rules : List Rule) (rc : RateClock) (k : Nat) : Prop :=
  ∃ rule, rules[k]? = some rule ∧ ruleMatches deps ctx rule = true ∧
    Blocks ctx rule (limiterAt deps ctx rules rc k)

/-- At position `k` there is a matching allow rule. -/
def AllowsAt (ctx : EvaluationContext) (rules : List Rule) (k : Nat) : Prop :=
  ∃ rule, rules[k]? = some rule ∧ ruleMatches deps ctx rule = true ∧ rule.action = "allow"

/-- A matching, enforced rule refuses exactly when it blocks. -/
theorem refuses_iff {ctx : EvaluationContext} {rule : Rule} (hm : ruleMatches deps ctx rule = true)
    (hd : isDryRun rule = false) (rc : RateClock) :
    refuses deps ctx rule rc = true ↔ Blocks ctx rule rc := by
  have hcharged : ((charged deps ctx rule).any fun c => !(rc.check c.1 c.2).1) = true ↔
      rule.action = "rate_limit" ∧
        ∃ config, rule.rateLimit = some config ∧ (rc.check (rateKey ctx rule) config).1 = false := by
    unfold charged
    by_cases hr : rule.action = "rate_limit"
    · have hcond : (ruleMatches deps ctx rule && rule.action == "rate_limit" && !isDryRun rule) =
          true := by simp [hm, hr, hd]
      rw [if_pos hcond, Option.any_map]
      cases rule.rateLimit with
      | none => simp
      | some config => simp [hr]
    · have hcond : ¬ (ruleMatches deps ctx rule && rule.action == "rate_limit" && !isDryRun rule) =
          true := by simp [hr]
      rw [if_neg hcond]
      simp [hr]
  unfold refuses Blocks
  rw [Bool.or_eq_true, Bool.or_eq_true, hcharged, Bool.and_eq_true, beq_iff_eq, beq_iff_eq,
    or_assoc]
  simp [roleSuffices]

/-- A blocking rule is no allow rule. -/
theorem not_allow_of_blocks {ctx : EvaluationContext} {rule : Rule} {rc : RateClock}
    (h : Blocks ctx rule rc) : rule.action ≠ "allow" := by
  obtain h | ⟨h, -⟩ | ⟨h, -⟩ := h <;> rw [h] <;> decide

/-- An enforced rule that blocks denies, with its status and message. -/
theorem decision_of_blocks {ctx : EvaluationContext} {rule : Rule} {rc : RateClock}
    (hd : isDryRun rule = false) (h : Blocks ctx rule rc) :
    (decision rule).result = .deny (denial rule).1 (denial rule).2 := by
  have hne := not_allow_of_blocks h
  refine if_neg (fun hor => ?_)
  cases hor with
  | inl ha => exact hne ha
  | inr hdry =>
      rw [hd] at hdry
      exact absurd hdry (by simp)

/-! ## §2. The decision of enforced rules. -/

section

variable {ctx : EvaluationContext} {rules : List Rule} {rc : RateClock}

/-- Deciding is blocking or allowing. -/
theorem exists_decidesAt_iff (henforced : ∀ rule ∈ rules, isDryRun rule = false) (k : Nat) :
    (∃ rule, DecidesAt deps ctx rules rc k rule) ↔
      BlocksAt deps ctx rules rc k ∨ AllowsAt deps ctx rules k := by
  constructor
  · intro ⟨rule, hrule, hdec⟩
    have hd := henforced rule (List.mem_of_getElem? hrule)
    obtain ⟨hm, hor⟩ := (Bool.and_eq_true _ _).mp hdec
    cases (Bool.or_eq_true _ _).mp hor with
    | inl ha => exact Or.inr ⟨rule, hrule, hm, beq_iff_eq.mp ha⟩
    | inr hr => exact Or.inl ⟨rule, hrule, hm, (refuses_iff deps hm hd _).mp hr⟩
  · intro h
    cases h with
    | inl hblocks =>
        obtain ⟨rule, hrule, hm, hb⟩ := hblocks
        have hd := henforced rule (List.mem_of_getElem? hrule)
        refine ⟨rule, hrule, ?_⟩
        unfold decides
        rw [hm, (refuses_iff deps hm hd _).mpr hb]
        simp
    | inr hallows =>
        obtain ⟨rule, hrule, hm, ha⟩ := hallows
        refine ⟨rule, hrule, ?_⟩
        unfold decides
        rw [hm, ha]
        simp

/-- The first position that blocks or allows is that of the first deciding rule. -/
theorem firstDecidesAt_iff (henforced : ∀ rule ∈ rules, isDryRun rule = false) (k : Nat) :
    (∃ rule, FirstDecidesAt deps ctx rules rc k rule) ↔
      (BlocksAt deps ctx rules rc k ∨ AllowsAt deps ctx rules k) ∧
        ∀ j < k, ¬ BlocksAt deps ctx rules rc j ∧ ¬ AllowsAt deps ctx rules j := by
  have hiff : ∀ k, (∃ rule, DecidesAt deps ctx rules rc k rule) ↔
      BlocksAt deps ctx rules rc k ∨ AllowsAt deps ctx rules k :=
    fun k => exists_decidesAt_iff deps henforced k
  constructor
  · intro ⟨rule, hdec, hleast⟩
    refine ⟨(hiff k).mp ⟨rule, hdec⟩, fun j hj => not_or.mp (fun hor => ?_)⟩
    obtain ⟨r, hr⟩ := (hiff j).mpr hor
    exact hleast j hj r hr
  · intro ⟨hor, hleast⟩
    obtain ⟨rule, hdec⟩ := (hiff k).mpr hor
    refine ⟨rule, hdec, fun j hj r hr => ?_⟩
    exact not_or.mpr (hleast j hj) ((hiff j).mp ⟨r, hr⟩)

/-- The rule that blocks at `k` is the rule at `k`. -/
theorem blocks_of_blocksAt {k : Nat} {rule : Rule} (h : BlocksAt deps ctx rules rc k)
    (hrule : rules[k]? = some rule) : Blocks ctx rule (limiterAt deps ctx rules rc k) := by
  obtain ⟨r, hr, -, hb⟩ := h
  rw [hrule] at hr
  injection hr with hr
  rw [hr]
  exact hb

/-- A first deciding rule that denies is the one that blocks. -/
theorem blocksAt_of_deny (henforced : ∀ rule ∈ rules, isDryRun rule = false) {k : Nat} {rule : Rule}
    (hdec : DecidesAt deps ctx rules rc k rule) {status : UInt16} {message : String}
    (hdeny : (decision rule).result = .deny status message) : BlocksAt deps ctx rules rc k := by
  refine ((exists_decidesAt_iff deps henforced k).mp ⟨rule, hdec⟩).resolve_right (fun hallows => ?_)
  obtain ⟨r, hr, -, ha⟩ := hallows
  rw [hdec.1] at hr
  injection hr with hr
  have hallow : (decision rule).result = .allow := if_pos (Or.inl (by rw [hr]; exact ha))
  rw [hallow] at hdeny
  exact absurd hdeny (by simp)

/-- The request is denied exactly by the least rule that blocks, with no allow
rule before it. -/
theorem deny_iff (henforced : ∀ rule ∈ rules, isDryRun rule = false) (status : UInt16)
    (message : String) :
    (evaluateRequestDetailed deps rules ctx rc).1.result = .deny status message ↔
      ∃ k rule, rules[k]? = some rule ∧ BlocksAt deps ctx rules rc k ∧
        (∀ j < k, ¬ BlocksAt deps ctx rules rc j) ∧ (∀ j < k, ¬ AllowsAt deps ctx rules j) ∧
        denial rule = (status, message) := by
  constructor
  · intro hdeny
    obtain ⟨k, rule, hdec⟩ | hnone := firstDecidesAt_or_none deps ctx rules rc
    · rw [evaluateRequestDetailed_of_first deps hdec] at hdeny
      have hdeny : (decision rule).result = .deny status message := hdeny
      have hrule := hdec.1.1
      have hblocks := blocksAt_of_deny deps henforced hdec.1 hdeny
      have hleast := ((firstDecidesAt_iff deps henforced k).mp ⟨rule, hdec⟩).2
      refine ⟨k, rule, hrule, hblocks, fun j hj => (hleast j hj).1, fun j hj => (hleast j hj).2, ?_⟩
      rw [decision_of_blocks (henforced rule (List.mem_of_getElem? hrule))
        (blocks_of_blocksAt deps hblocks hrule)] at hdeny
      injection hdeny with hstatus hmessage
      exact Prod.ext hstatus hmessage
    · rw [evaluateRequestDetailed_of_none deps hnone] at hdeny
      exact absurd hdeny (by simp [RuleDecision.allow])
  · intro ⟨k, rule, hrule, hblocks, hnoblock, hnoallow, hdenial⟩
    obtain ⟨r, hdec⟩ := (firstDecidesAt_iff deps henforced k).mpr
      ⟨Or.inl hblocks, fun j hj => ⟨hnoblock j hj, hnoallow j hj⟩⟩
    have hr : some rule = some r := hrule.symm.trans hdec.1.1
    injection hr with hr
    rw [evaluateRequestDetailed_of_first deps hdec, ← hr]
    show (decision rule).result = _
    rw [decision_of_blocks (henforced rule (List.mem_of_getElem? hrule))
      (blocks_of_blocksAt deps hblocks hrule), hdenial]

/-- **The decision of a list of enforced rules.**  It denies with status and
message exactly when they are those of the least matching rule that blocks, with
no matching allow rule before it; and the limiter is charged once for each
matching rate limit up to and including the rule that decides, in list order. -/
theorem evaluateRequestDetailed_enforced (henforced : ∀ rule ∈ rules, isDryRun rule = false) :
    (∀ status message,
      (evaluateRequestDetailed deps rules ctx rc).1.result = .deny status message ↔
        ∃ k rule, rules[k]? = some rule ∧ BlocksAt deps ctx rules rc k ∧
          (∀ j < k, ¬ BlocksAt deps ctx rules rc j) ∧ (∀ j < k, ¬ AllowsAt deps ctx rules j) ∧
          denial rule = (status, message)) ∧
    (∀ k, BlocksAt deps ctx rules rc k ∨ AllowsAt deps ctx rules k →
      (∀ j < k, ¬ BlocksAt deps ctx rules rc j ∧ ¬ AllowsAt deps ctx rules j) →
      (evaluateRequestDetailed deps rules ctx rc).2 = limiterAfter deps ctx (rules.take (k + 1)) rc) ∧
    ((∀ k, ¬ BlocksAt deps ctx rules rc k ∧ ¬ AllowsAt deps ctx rules k) →
      (evaluateRequestDetailed deps rules ctx rc).2 = limiterAfter deps ctx rules rc) := by
  refine ⟨deny_iff deps henforced, fun k hk hleast => ?_, fun hnone => ?_⟩
  · obtain ⟨rule, hdec⟩ := (firstDecidesAt_iff deps henforced k).mpr ⟨hk, hleast⟩
    rw [evaluateRequestDetailed_of_first deps hdec]
    rfl
  · have hno : ∀ k rule, ¬ DecidesAt deps ctx rules rc k rule := fun k rule hdec =>
      not_or.mpr (hnone k) ((exists_decidesAt_iff deps henforced k).mp ⟨rule, hdec⟩)
    rw [evaluateRequestDetailed_of_none deps hno]

end

/-! ## §3. An example. -/

/-- The condition `path equals p`. -/
def pathEquals (p : String) : ConditionNode :=
  .leaf { field := "path", operator := "equals", value := some (.string p) }

/-- A role requirement that is met, then a denial. -/
def guardedRules : List Rule :=
  [{ name := "team", action := "require_role", role := some "dev",
     conditions := [pathEquals "/images/json"] },
   { name := "closed", action := "deny", status := some 451,
     conditions := [pathEquals "/images/json"] }]

theorem evaluateRequestDetailed_guarded :
    (evaluateRequestDetailed Externals.uncalled guardedRules
      { path := "/images/json", method := "GET", clientIp := "10.0.0.7", userRole := some "dev" }
      ⟨RateLimiter.new, fun _ => 0⟩).1.result = .deny 451 "Forbidden by rule" := by
  refine ((evaluateRequestDetailed_enforced Externals.uncalled (by decide)).1 _ _).mpr
    ⟨1, guardedRules[1], rfl, ⟨_, rfl, by decide, Or.inl rfl⟩, ?_, ?_, rfl⟩
  · intro j hj hblocks
    have hj : j = 0 := by omega
    rw [hj] at hblocks
    obtain ⟨rule, hrule, -, hb⟩ := hblocks
    have hrule : some guardedRules[0] = some rule := hrule
    injection hrule with hrule
    rw [← hrule] at hb
    obtain h | ⟨-, -, h⟩ | ⟨h, -⟩ := hb
    · exact absurd h (by decide)
    · exact absurd rfl h
    · exact absurd h (by decide)
  · intro j hj hallows
    have hj : j = 0 := by omega
    rw [hj] at hallows
    obtain ⟨rule, hrule, -, ha⟩ := hallows
    have hrule : some guardedRules[0] = some rule := hrule
    injection hrule with hrule
    rw [← hrule] at ha
    exact absurd ha (by decide)

end DockerProxy.Rules
