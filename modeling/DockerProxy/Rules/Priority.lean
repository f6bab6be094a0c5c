/-
  DockerProxy.Rules.Priority — what the order of the rules in a file means.

  `sort_rules_by_priority` is a stable sort, so two files whose rules differ in order,
  but not among rules of one priority, are loaded to the same rule list
  (`rules_sortRulesByPriority_eq`).  Evaluation takes that list from the front:
  decisions, limiter charges and filters are then the same as well.
-/
import DockerProxy.Config.Load
import DockerProxy.Lib.StableSort
import DockerProxy.Rules.ResponseFilters

namespace DockerProxy.Rules

open DockerProxy.Config DockerProxy.Lib

/-- The priority a rule is sorted by: 0 if it has none. -/
def priorityOf (rule : Rule) : Nat := (rule.priority.getD 0).toNat

theorem precedes_iff (r s : Rule) : precedes r s ↔ priorityOf s ≤ priorityOf r :=
  UInt32.le_iff_toNat_le

/-- The rules of a configuration, after `sort_rules_by_priority`. -/
def sortedRules (config : ProxyConfig) : List Rule := (sortRulesByPriority config).rules.getD []

/-- Without a rule list there is nothing to sort. -/
theorem sortedRules_eq (config : ProxyConfig) :
    sortedRules config = (config.rules.getD []).insertionSort precedes := by
  unfold sortedRules sortRulesByPriority
  cases config.rules with
  | none => rfl
  | some rules => rfl

/-- **The sorted rules**: higher priorities first, and those of one priority in the order
of the file. -/
theorem sortedRules_spec (config : ProxyConfig) :
    (sortedRules config).Pairwise (fun r s => priorityOf s ≤ priorityOf r) ∧
      ∀ p, ofKey priorityOf p (sortedRules config) = ofKey priorityOf p (config.rules.getD []) := by
  rw [sortedRules_eq]
  exact ⟨descending_insertionSort (precedes_iff) _,
    fun p => ofKey_insertionSort (precedes_iff) p _⟩

/-- **The order of the file matters only within a priority.** -/
theorem rules_sortRulesByPriority_eq {config config' : ProxyConfig}
    (h : Reordered priorityOf (config.rules.getD []) (config'.rules.getD [])) :
    sortedRules config = sortedRules config' := by
  rw [sortedRules_eq, sortedRules_eq]
  exact h.sort_eq precedes_iff

/-- **Reordering rules of different priorities changes nothing**: neither the decision,
nor the limiter that is left, nor the filters of the response. -/
theorem evaluateRequestDetailed_reordered (deps : Externals) (config config' : ProxyConfig)
    (h : Reordered priorityOf (config.rules.getD []) (config'.rules.getD []))
    (ctx : EvaluationContext) (rc : RateClock) :
    (evaluateRequestDetailed deps (sortedRules config) ctx rc).1 =
        (evaluateRequestDetailed deps (sortedRules config') ctx rc).1 ∧
      (evaluateRequestDetailed deps (sortedRules config) ctx rc).2 =
        (evaluateRequestDetailed deps (sortedRules config') ctx rc).2 ∧
      collectResponseFilters deps (sortedRules config) ctx =
        collectResponseFilters deps (sortedRules config') ctx := by
  rw [rules_sortRulesByPriority_eq h]
  exact ⟨rfl, rfl, rfl⟩

/-- A rule that denies every path. -/
def denyAll (name : String) (priority : Option UInt32) : Rule where
  name
  action := "deny"
  priority
  conditions := [.leaf { field := "path", operator := "starts_with", value := some (.string "/") }]

/-- Two denials of different priorities, in either order. -/
theorem reordered_denials :
    Reordered priorityOf [denyAll "a" none, denyAll "b" (some 100)]
      [denyAll "b" (some 100), denyAll "a" none] := by
  refine ⟨Equiv.swap (0 : Fin 2) 1, ?_, ?_⟩
  · exact Fin.forall_fin_two.mpr ⟨rfl, rfl⟩
  · decide

/-- The rule of the higher priority decides, wherever it stands in the file. -/
theorem evaluateRequestDetailed_reordered_denials :
    let config : ProxyConfig := { rules := some [denyAll "a" none, denyAll "b" (some 100)] }
    let config' : ProxyConfig := { rules := some [denyAll "b" (some 100), denyAll "a" none] }
    let ctx : EvaluationContext :=
      { path := "/containers/json", method := "GET", clientIp := "10.0.0.7" }
    let rc : RateClock := ⟨.new, id⟩
    (evaluateRequestDetailed Externals.uncalled (sortedRules config) ctx rc).1 =
      (evaluateRequestDetailed Externals.uncalled (sortedRules config') ctx rc).1 := by
  intro config config' ctx rc
  exact (evaluateRequestDetailed_reordered Externals.uncalled config config' reordered_denials
    ctx rc).1

end DockerProxy.Rules
