/-
  DockerProxy.Rules.ResponseFilters — what the rules make of a response body.

  `collectResponseFilters` gathers the filter entries of all matching rules, in
  list order; `applyResponseFilters` applies them one after another to a body
  that is a JSON document and leaves any other body alone.
-/
import DockerProxy.Rules.Evaluate

namespace DockerProxy.Rules

open DockerProxy.Lib

variable (deps : Externals)

/-- `collect_response_filters`. -/
def collectResponseFilters (rules : List Rule) (ctx : EvaluationContext) :
    List ResponseFilterEntry :=
  rules.flatMap fun rule =>
    if rule.conditions.isEmpty || !(rule.conditions.all fun c => evaluateNode deps ctx c) then []
    else rule.responseFilter.getD []

/-- One turn of the loop of `apply_response_filters`. -/
def applyFilter (json : JsonValue) (filter : ResponseFilterEntry) : JsonValue :=
  match filter.action with
  | "redact" =>
      match jsonGetMut json filter.field with
      | some (_, put) => put (.string "***REDACTED***")
      | none => json
  | "remove" =>
      if (splitStr filter.field '.').length = 1 then
        match json with
        | .object map => .object (objectRemove map filter.field)
        | other => other
      else (jsonRemove json filter.field).2
  | "replace" =>
      match jsonGetMut json filter.field with
      | some (_, put) => put (.string (filter.replacement.getD ""))
      | none => json
  | _ => json

/-- `apply_response_filters`. -/
def applyResponseFilters (filters : List ResponseFilterEntry) (body : List UInt8) : List UInt8 :=
  if filters.isEmpty then body
  else
    match deps.jsonFromSlice body with
    | .ok json => (deps.jsonToVec (filters.foldl applyFilter json)).getD body
    | .error _ => body

/-- The filters of the matching rules, in list order. -/
def matchingFilters (rules : List Rule) (ctx : EvaluationContext) : List ResponseFilterEntry :=
  (rules.filter (ruleMatches deps ctx)).flatMap fun rule => rule.responseFilter.getD []

/-- **The rules rewrite the body**: a matching rule has a filter, the body is a
JSON document, and what the filters make of it prints to other bytes. -/
def Rewrites (rules : List Rule) (ctx : EvaluationContext) (body : List UInt8) : Prop :=
  matchingFilters deps rules ctx ≠ [] ∧ ∃ json bytes, deps.jsonFromSlice body = .ok json ∧
    deps.jsonToVec ((matchingFilters deps rules ctx).foldl applyFilter json) = some bytes ∧
    bytes ≠ body

/-- Only matching rules contribute filters. -/
theorem collectResponseFilters_eq (rules : List Rule) (ctx : EvaluationContext) :
    collectResponseFilters deps rules ctx = matchingFilters deps rules ctx := by
  induction rules with
  | nil => rfl
  | cons rule rules ih =>
      have hcond : (rule.conditions.isEmpty ||
          !(rule.conditions.all fun c => evaluateNode deps ctx c)) =
            !ruleMatches deps ctx rule := by
        unfold ruleMatches
        rw [Bool.not_and, Bool.not_not]
      unfold collectResponseFilters matchingFilters at ih ⊢
      rw [List.flatMap_cons, ih, hcond]
      cases hm : ruleMatches deps ctx rule with
      | true => rw [List.filter_cons_of_pos hm]; rfl
      | false => rw [List.filter_cons_of_neg (by simp [hm])]; rfl

/-- Without filters the body stays as it is. -/
theorem applyResponseFilters_nil (body : List UInt8) : applyResponseFilters deps [] body = body :=
  rfl

/-- A body that is a JSON document: what the filters make of it, printed. -/
theorem applyResponseFilters_of_json {filters : List ResponseFilterEntry} (hne : filters ≠ [])
    {body : List UInt8} {json : JsonValue} (hbody : deps.jsonFromSlice body = .ok json) :
    applyResponseFilters deps filters body =
      (deps.jsonToVec (filters.foldl applyFilter json)).getD body := by
  unfold applyResponseFilters
  rw [List.isEmpty_eq_false_iff.mpr hne, hbody]
  rfl

/-- **Filtering changes a body exactly when the rules rewrite it.** -/
theorem applyResponseFilters_ne_iff (rules : List Rule) (ctx : EvaluationContext)
    (body : List UInt8) :
    applyResponseFilters deps (collectResponseFilters deps rules ctx) body ≠ body ↔
      Rewrites deps rules ctx body := by
  rw [collectResponseFilters_eq]
  unfold Rewrites applyResponseFilters
  by_cases hf : matchingFilters deps rules ctx = []
  · rw [hf]
    simp
  · have hsome : (matchingFilters deps rules ctx).isEmpty = false := by simpa using hf
    rw [hsome]
    simp only [Bool.false_eq_true, if_false, ne_eq, hf, not_false_eq_true, true_and]
    -- a body that is not JSON, or does not print again, is left alone
    cases hj : deps.jsonFromSlice body with
    | error e => simp
    | ok json =>
        cases hv : deps.jsonToVec ((matchingFilters deps rules ctx).foldl applyFilter json) with
        | none => simp [hv]
        | some bytes => simp [hv]

end DockerProxy.Rules
