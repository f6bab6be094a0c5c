/-
  DockerProxy.Rules.Conditions — when a condition of a rule holds.

  One function per field kind, as in `rules.rs`: each looks at the operator
  first and falls back to `false` for an operator it does not know.
-/
import DockerProxy.Externals

namespace DockerProxy.Rules

open DockerProxy.Lib

/-- What the rules are evaluated on; `headers` in the map's iteration order. -/
structure EvaluationContext where
  path : String
  method : String
  headers : List (String × String) := []
  clientIp : String
  bodyJson : Option JsonValue := none
  userRole : Option String := none

/-- `o.is_some_and(p)`. -/
def isSomeAnd {α : Type*} (o : Option α) (p : α → Bool) : Bool := o.any p

/-- `o.is_none_or(p)`. -/
def isNoneOr {α : Type*} (o : Option α) (p : α → Bool) : Bool := o.all p

/-- The compiled regex matches; `false` without one. -/
def regexMatches (condition : Condition) (s : String) : Bool :=
  (condition.compiledRegex.map fun r => r.isMatch s).getD false

/-! ## §1. Request metadata. -/

/-- `match_path_condition`. -/
def matchPathCondition (condition : Condition) (path : String) : Bool :=
  let val := condition.value.bind yamlValueToString
  match condition.operator with
  | "equals" => isSomeAnd val fun v => path == v
  | "not_equals" => isNoneOr val fun v => path != v
  | "contains" => isSomeAnd val fun v => containsStr path v
  | "not_contains" => isNoneOr val fun v => !containsStr path v
  | "starts_with" => isSomeAnd val fun v => startsWith path v
  | "ends_with" => isSomeAnd val fun v => endsWith path v
  | "matches" => regexMatches condition path
  | "not_matches" => (condition.compiledRegex.map fun r => !r.isMatch path).getD true
  | "in" =>
      match condition.value with
      | some (.sequence seq) => seq.any fun v => isSomeAnd (yamlValueToString v) fun s => s == path
      | _ => false
  | "not_in" =>
      match condition.value with
      | some (.sequence seq) => seq.all fun v => isNoneOr (yamlValueToString v) fun s => s != path
      | _ => true
  | _ => false

/-- `match_method_condition`. -/
def matchMethodCondition (condition : Condition) (method : String) : Bool :=
  let val := condition.value.bind yamlValueToString
  match condition.operator with
  | "equals" => isSomeAnd val fun v => eqIgnoreAsciiCase method v
  | "not_equals" => isNoneOr val fun v => !eqIgnoreAsciiCase method v
  | "in" =>
      match condition.value with
      | some (.sequence seq) =>
          seq.any fun v => isSomeAnd (yamlValueToString v) fun s => eqIgnoreAsciiCase method s
      | _ => false
  | "not_in" =>
      match condition.value with
      | some (.sequence seq) =>
          seq.all fun v => isNoneOr (yamlValueToString v) fun s => !eqIgnoreAsciiCase method s
      | _ => true
  | _ => false

/-- `match_header_condition`. -/
def matchHeaderCondition (condition : Condition) (headers : List (String × String))
    (headerName : String) : Bool :=
  let headerVal := (headers.find? fun h => eqIgnoreAsciiCase h.1 headerName).map Prod.snd
  let condVal := condition.value.bind yamlValueToString
  match condition.operator with
  | "equals" => isSomeAnd headerVal fun v => condVal == some v
  | "not_equals" => isNoneOr headerVal fun v => condVal != some v
  | "contains" => isSomeAnd headerVal fun v => isSomeAnd condVal fun cv => containsStr v cv
  | "not_contains" => isNoneOr headerVal fun v => isNoneOr condVal fun cv => !containsStr v cv
  | "starts_with" => isSomeAnd headerVal fun v => isSomeAnd condVal fun cv => startsWith v cv
  | "ends_with" => isSomeAnd headerVal fun v => isSomeAnd condVal fun cv => endsWith v cv
  | "matches" => isSomeAnd headerVal fun v => regexMatches condition v
  | "exists" => headerVal.isSome
  | "not_exists" => headerVal.isNone
  | "in" =>
      match condition.value with
      | some (.sequence seq) =>
          isSomeAnd headerVal fun hv =>
            seq.any fun v => isSomeAnd (yamlValueToString v) fun s => s == hv
      | _ => false
  | "not_in" =>
      match condition.value with
      | some (.sequence seq) =>
          isNoneOr headerVal fun hv =>
            seq.all fun v => isNoneOr (yamlValueToString v) fun s => s != hv
      | _ => true
  | _ => false

variable (deps : Externals)

/-- The entries of an `in` or `not_in` value on `client_ip`. -/
def ipEntries (condition : Condition) : List String :=
  match condition.value with
  | some (.sequence seq) => seq.filterMap yamlValueToString
  | some v => (yamlValueToString v).toList
  | none => []

/-- `match_ip_condition`. -/
def matchIpCondition (condition : Condition) (clientIpStr : String) : Bool :=
  let clientIp := deps.parseIp clientIpStr
  match condition.operator with
  | "equals" =>
      isSomeAnd (condition.value.bind yamlValueToString) fun v =>
        isSomeAnd clientIp fun ip => deps.ipToString ip == v
  | "not_equals" =>
      isNoneOr (condition.value.bind yamlValueToString) fun v =>
        isNoneOr clientIp fun ip => deps.ipToString ip != v
  | "in" =>
      let cidrs := ipEntries condition
      let ipnets := cidrs.filterMap deps.parseNet
      if ipnets.isEmpty then
        isSomeAnd clientIp fun ip => cidrs.any fun s => s == deps.ipToString ip
      else isSomeAnd clientIp fun ip => ipnets.any fun net => deps.netContains net ip
  | "not_in" =>
      let cidrs := ipEntries condition
      let ipnets := cidrs.filterMap deps.parseNet
      if ipnets.isEmpty then
        isNoneOr clientIp fun ip => cidrs.all fun s => s != deps.ipToString ip
      else isNoneOr clientIp fun ip => !(ipnets.any fun net => deps.netContains net ip)
  | _ => false

/-! ## §2. The request body. -/

/-- `value_equal`. -/
def valueEqual (yamlVal : YamlValue) (jsonVal : JsonValue) : Bool :=
  match yamlVal with
  | .string s => jsonVal.asStr == some s
  | .bool b => jsonVal.asBool == some b
  | .number n =>
      match jsonVal.asI64 with
      | some jsonN => n.asI64 == some jsonN
      | none =>
          match jsonVal.asU64 with
          | some jsonN => n.asU64 == some jsonN
          | none =>
              match jsonVal.asF64 with
              | some jsonN => n.asF64 == some jsonN
              | none => false
  | .null =>
      match jsonVal with
      | .null => true
      | _ => false
  | _ => false

/-- The text a string operator sees: a string itself, anything else printed. -/
def jsonText (jsonVal : JsonValue) : String :=
  match jsonVal with
  | .string s => s
  | other => deps.jsonToString other

/-- `match_body_condition`. -/
def matchBodyCondition (condition : Condition) (bodyJson : Option JsonValue)
    (fieldPath : String) : Bool :=
  let found := bodyJson.bind fun b => jsonGet b fieldPath
  match condition.operator with
  | "exists" => found.isSome
  | "not_exists" => found.isNone
  | operator =>
      let condVal := condition.value
      match found with
      | none => false
      | some jsonVal =>
          match operator with
          | "equals" => isSomeAnd condVal fun cv => valueEqual cv jsonVal
          | "not_equals" => isNoneOr condVal fun cv => !valueEqual cv jsonVal
          | "contains" =>
              match condVal.bind yamlValueToString with
              | none => false
              | some condStr =>
                  match jsonVal with
                  | .string s => containsStr s condStr
                  | .array arr => arr.any fun item => isSomeAnd item.asStr fun s => s == condStr
                  | other => containsStr (deps.jsonToString other) condStr
          | "not_contains" =>
              match condVal.bind yamlValueToString with
              | none => true
              | some condStr =>
                  match jsonVal with
                  | .string s => !containsStr s condStr
                  | .array arr => arr.all fun item => isNoneOr item.asStr fun s => s != condStr
                  | other => !containsStr (deps.jsonToString other) condStr
          | "in" =>
              match condVal with
              | some (.sequence seq) => seq.any fun v => valueEqual v jsonVal
              | _ => false
          | "not_in" =>
              match condVal with
              | some (.sequence seq) => seq.all fun v => !valueEqual v jsonVal
              | _ => true
          | "starts_with" =>
              isSomeAnd (condVal.bind yamlValueToString) fun cv =>
                startsWith (jsonText deps jsonVal) cv
          | "matches" => regexMatches condition (jsonText deps jsonVal)
          | _ => false

/-! ## §3. Conditions and groups. -/

/-- `evaluate_condition`. -/
def evaluateCondition (condition : Condition) (ctx : EvaluationContext) : Bool :=
  match condition.field with
  | "method" => matchMethodCondition condition ctx.method
  | "path" => matchPathCondition condition ctx.path
  | "client_ip" => matchIpCondition deps condition ctx.clientIp
  | field =>
      match stripPrefix field "header." with
      | some headerName => matchHeaderCondition condition ctx.headers headerName
      | none =>
          match stripPrefix field "body." with
          | some fieldPath => matchBodyCondition deps condition ctx.bodyJson fieldPath
          | none => false

mutual

/-- `evaluate_node`. -/
def evaluateNode (ctx : EvaluationContext) : ConditionNode → Bool
  | .leaf condition => evaluateCondition deps condition ctx
  | .and nodes => evaluateAll ctx nodes
  | .or nodes => evaluateAny ctx nodes

/-- All nodes of a group hold. -/
def evaluateAll (ctx : EvaluationContext) : List ConditionNode → Bool
  | [] => true
  | node :: nodes => evaluateNode ctx node && evaluateAll ctx nodes

/-- Some node of a group holds. -/
def evaluateAny (ctx : EvaluationContext) : List ConditionNode → Bool
  | [] => false
  | node :: nodes => evaluateNode ctx node || evaluateAny ctx nodes

end

end DockerProxy.Rules
