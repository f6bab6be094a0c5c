/-
  DockerProxy.Rules.Negation — which operators are the negations of each other.

  The documentation gives five pairs of an operator and its negation, each for
  some kinds of field.  Every pair is one pair of `is_some_and` and `is_none_or`,
  or of `any` and `all`, so the proofs compose two rules.  Two places break the
  pattern:

    * `match_header_condition` has no arm for `not_matches`, which is then false;
    * `match_body_condition` leaves with `false` when the field is not there,
      before it looks at which of the two operators it has.

  Main results:
    * `evaluateCondition_metadata_negated_iff` — on path, method, address and
      headers, every pair but the regex pair on headers;
    * `evaluateCondition_body_negated_iff` — on the body, when the field is there
      or the pair is the one about presence.
-/
import DockerProxy.Rules.Liveness

namespace DockerProxy.Rules

open DockerProxy.Lib

/-! ## §1. The documented pairs. -/

/-- An operator with its negation. -/
inductive OperatorPair where
  | equality
  | substring
  | regex
  | membership
  | presence
  deriving DecidableEq

namespace OperatorPair

def plain : OperatorPair → String
  | .equality => "equals"
  | .substring => "contains"
  | .regex => "matches"
  | .membership => "in"
  | .presence => "exists"

def negated : OperatorPair → String
  | .equality => "not_equals"
  | .substring => "not_contains"
  | .regex => "not_matches"
  | .membership => "not_in"
  | .presence => "not_exists"

end OperatorPair

/-- The column "Applies To" of the documented operators. -/
def documentedPairs : FieldKind → List OperatorPair
  | .path => [.equality, .substring, .regex, .membership]
  | .method | .clientIp => [.equality, .membership]
  | .header => [.equality, .substring, .regex, .membership, .presence]
  | .body => [.equality, .substring, .membership, .presence]

/-- **The pair is an operator and its negation on this condition and request.** -/
def NegatesOn (deps : Externals) (pair : OperatorPair) (condition : Condition)
    (ctx : EvaluationContext) : Prop :=
  evaluateCondition deps { condition with operator := pair.negated } ctx =
    !evaluateCondition deps { condition with operator := pair.plain } ctx

instance (deps : Externals) (pair : OperatorPair) (condition : Condition)
    (ctx : EvaluationContext) : Decidable (NegatesOn deps pair condition ctx) :=
  inferInstanceAs (Decidable (_ = _))

/-! ## §2. The rules of negation. -/

section

variable {α : Type*} {p q : α → Bool}

theorem isNoneOr_of_not (h : ∀ a, q a = !p a) (o : Option α) : isNoneOr o q = !isSomeAnd o p := by
  cases o with
  | none => rfl
  | some a => exact h a

theorem all_of_not (h : ∀ a, q a = !p a) (l : List α) : l.all q = !l.any p := by
  induction l with
  | nil => rfl
  | cons a l ih => rw [List.all_cons, List.any_cons, h a, ih, Bool.not_or]

end

/-- A pair of membership operators: `any` and `all` over a sequence, and the
defaults `false` and `true` over every other value. -/
theorem membership_negates {p q : List YamlValue → Bool} (h : ∀ seq, q seq = !p seq)
    (value : Option YamlValue) :
    (match value with
      | some (.sequence seq) => q seq
      | _ => true) =
    !(match value with
      | some (.sequence seq) => p seq
      | _ => false) := by
  split
  next seq => exact h seq
  next => rfl

/-! ## §3. One kind of field at a time. -/

variable (condition : Condition)

theorem matchPathCondition_negated {pair : OperatorPair} (hpair : pair ∈ documentedPairs .path)
    (path : String) : matchPathCondition { condition with operator := pair.negated } path =
      !matchPathCondition { condition with operator := pair.plain } path := by
  cases pair with
  | equality => exact isNoneOr_of_not (fun _ => rfl) _
  | substring => exact isNoneOr_of_not (fun _ => rfl) _
  | regex =>
      show (condition.compiledRegex.map fun r => !r.isMatch path).getD true =
        !(condition.compiledRegex.map fun r => r.isMatch path).getD false
      cases condition.compiledRegex with
      | none => rfl
      | some r => rfl
  | membership =>
      exact membership_negates (fun _ => all_of_not (fun v => isNoneOr_of_not (fun _ => rfl) _) _) _
  | presence => exact absurd hpair (by decide)

theorem matchMethodCondition_negated {pair : OperatorPair} (hpair : pair ∈ documentedPairs .method)
    (method : String) : matchMethodCondition { condition with operator := pair.negated } method =
      !matchMethodCondition { condition with operator := pair.plain } method := by
  cases pair with
  | equality => exact isNoneOr_of_not (fun _ => rfl) _
  | membership =>
      exact membership_negates (fun _ => all_of_not (fun v => isNoneOr_of_not (fun _ => rfl) _) _) _
  | substring | regex | presence => exact absurd hpair (by decide)

theorem matchIpCondition_negated (deps : Externals) {pair : OperatorPair}
    (hpair : pair ∈ documentedPairs .clientIp) (clientIp : String) :
    matchIpCondition deps { condition with operator := pair.negated } clientIp =
      !matchIpCondition deps { condition with operator := pair.plain } clientIp := by
  cases pair with
  | equality => exact isNoneOr_of_not (fun v => isNoneOr_of_not (fun _ => rfl) _) _
  | membership =>
      -- both operators pick the mode by the same test
      show (if ((ipEntries condition).filterMap deps.parseNet).isEmpty then _ else _) =
        !(if ((ipEntries condition).filterMap deps.parseNet).isEmpty then _ else _)
      by_cases hmode : ((ipEntries condition).filterMap deps.parseNet).isEmpty = true
      · rw [if_pos hmode, if_pos hmode]
        exact isNoneOr_of_not (fun ip => all_of_not (fun _ => rfl) _) _
      · rw [if_neg hmode, if_neg hmode]
        exact isNoneOr_of_not (fun _ => rfl) _
  | substring | regex | presence => exact absurd hpair (by decide)

/-- `headers.iter().find(..)`, the value of the header that a condition names. -/
def headerValue (headers : List (String × String)) (name : String) : Option String :=
  (headers.find? fun h => eqIgnoreAsciiCase h.1 name).map Prod.snd

/-- **On a header, every pair but the regex pair.** -/
theorem matchHeaderCondition_negated {pair : OperatorPair}
    (hpair : pair ∈ documentedPairs .header) (hregex : pair ≠ .regex)
    (headers : List (String × String)) (name : String) :
    matchHeaderCondition { condition with operator := pair.negated } headers name =
      !matchHeaderCondition { condition with operator := pair.plain } headers name := by
  cases pair with
  | equality => exact isNoneOr_of_not (fun _ => rfl) _
  | substring => exact isNoneOr_of_not (fun v => isNoneOr_of_not (fun _ => rfl) _) _
  | regex => exact absurd rfl hregex
  | membership =>
      exact membership_negates (fun _ => isNoneOr_of_not (fun hv =>
        all_of_not (fun v => isNoneOr_of_not (fun _ => rfl) _) _) _) _
  | presence =>
      show (headerValue headers name).isNone = !(headerValue headers name).isSome
      exact (Option.not_isSome _).symm

/-- The missing arm: `not_matches` on a header is false, and the plain operator is a
match of the header that is there. -/
theorem matchHeaderCondition_regex (headers : List (String × String)) (name : String) :
    matchHeaderCondition { condition with operator := OperatorPair.regex.negated } headers name
        = false ∧
      matchHeaderCondition { condition with operator := OperatorPair.regex.plain } headers name
        = isSomeAnd (headerValue headers name) (regexMatches condition) :=
  ⟨rfl, rfl⟩

/-- **On a body field that is there, every documented pair.** -/
theorem matchBodyCondition_negated_of_found (deps : Externals) {pair : OperatorPair}
    (hpair : pair ∈ documentedPairs .body) {bodyJson : Option JsonValue} {fieldPath : String}
    {jsonVal : JsonValue} (hfound : (bodyJson.bind fun b => jsonGet b fieldPath) = some jsonVal) :
    matchBodyCondition deps { condition with operator := pair.negated } bodyJson fieldPath =
      !matchBodyCondition deps { condition with operator := pair.plain } bodyJson fieldPath := by
  unfold matchBodyCondition
  rw [hfound]
  cases pair with
  | equality => exact isNoneOr_of_not (fun _ => rfl) _
  | substring =>
      simp only [OperatorPair.negated, OperatorPair.plain]
      cases condition.value.bind yamlValueToString with
      | none => rfl
      | some condStr =>
          -- an array is searched item by item, other values as one text
          cases jsonVal with
          | array arr => exact all_of_not (fun item => isNoneOr_of_not (fun _ => rfl) _) _
          | null | bool b | number n | string s | object entries => rfl
  | membership => exact membership_negates (fun _ => all_of_not (fun _ => rfl) _) _
  | presence => rfl
  | regex => exact absurd hpair (by decide)

/-- The early return: without the field both operators are false. -/
theorem matchBodyCondition_of_not_found (deps : Externals) {pair : OperatorPair}
    (hpresence : pair ≠ .presence) {bodyJson : Option JsonValue} {fieldPath : String}
    (hfound : (bodyJson.bind fun b => jsonGet b fieldPath) = none) :
    matchBodyCondition deps { condition with operator := pair.negated } bodyJson fieldPath = false ∧
      matchBodyCondition deps { condition with operator := pair.plain } bodyJson fieldPath
        = false := by
  unfold matchBodyCondition
  rw [hfound]
  cases pair with
  | presence => exact absurd rfl hpresence
  | equality | substring | regex | membership => exact ⟨rfl, rfl⟩

/-- Presence itself, found or not. -/
theorem matchBodyCondition_presence (deps : Externals) (bodyJson : Option JsonValue)
    (fieldPath : String) :
    matchBodyCondition deps { condition with operator := OperatorPair.presence.negated } bodyJson
        fieldPath =
      !matchBodyCondition deps { condition with operator := OperatorPair.presence.plain } bodyJson
        fieldPath := by
  show (bodyJson.bind fun b => jsonGet b fieldPath).isNone =
    !(bodyJson.bind fun b => jsonGet b fieldPath).isSome
  exact (Option.not_isSome _).symm

/-! ## §4. Conditions. -/

/-- The name in a field `header.<name>`. -/
def headerName (field : String) : String := (stripPrefix field "header.").getD ""

/-- The path in a field `body.<path>`. -/
def bodyPath (field : String) : String := (stripPrefix field "body.").getD ""

/-- The comparison that a kind of field is dispatched to. -/
def matchKind (deps : Externals) (kind : FieldKind) (ctx : EvaluationContext) : Bool :=
  match kind with
  | .method => matchMethodCondition condition ctx.method
  | .path => matchPathCondition condition ctx.path
  | .clientIp => matchIpCondition deps condition ctx.clientIp
  | .header => matchHeaderCondition condition ctx.headers (headerName condition.field)
  | .body => matchBodyCondition deps condition ctx.bodyJson (bodyPath condition.field)

theorem matchKind_header (deps : Externals) (ctx : EvaluationContext) :
    matchKind condition deps .header ctx =
      matchHeaderCondition condition ctx.headers (headerName condition.field) :=
  rfl

theorem matchKind_body (deps : Externals) (ctx : EvaluationContext) :
    matchKind condition deps .body ctx =
      matchBodyCondition deps condition ctx.bodyJson (bodyPath condition.field) :=
  rfl

/-- The dispatch of `evaluate_condition` is by the field alone. -/
theorem evaluateCondition_of_kind (deps : Externals) {kind : FieldKind}
    (hkind : fieldKind condition.field = some kind) (ctx : EvaluationContext) :
    evaluateCondition deps condition ctx = matchKind condition deps kind ctx := by
  unfold fieldKind at hkind
  unfold evaluateCondition
  split
  next hf => rw [hf] at hkind; cases hkind; rfl
  next hf => rw [hf] at hkind; cases hkind; rfl
  next hf => rw [hf] at hkind; cases hkind; rfl
  next =>
    -- no fixed name: the two prefixes are tried in order
    simp only at hkind
    cases hheader : stripPrefix condition.field "header." with
    | some name =>
        rw [hheader] at hkind
        cases hkind
        show _ = matchHeaderCondition condition ctx.headers (headerName condition.field)
        rw [headerName, hheader, Option.getD_some]
    | none =>
        rw [hheader] at hkind
        cases hbody : stripPrefix condition.field "body." with
        | some path =>
            rw [hbody] at hkind
            cases hkind
            show _ = matchBodyCondition deps condition ctx.bodyJson (bodyPath condition.field)
            rw [bodyPath, hbody, Option.getD_some]
        | none =>
            rw [hbody] at hkind
            exact absurd hkind (by simp)

theorem negatesOn_iff_of_kind (deps : Externals) {kind : FieldKind}
    (hkind : fieldKind condition.field = some kind) (pair : OperatorPair)
    (ctx : EvaluationContext) :
    NegatesOn deps pair condition ctx ↔
      matchKind { condition with operator := pair.negated } deps kind ctx =
        !matchKind { condition with operator := pair.plain } deps kind ctx := by
  unfold NegatesOn
  rw [evaluateCondition_of_kind { condition with operator := pair.negated } deps hkind,
    evaluateCondition_of_kind { condition with operator := pair.plain } deps hkind]

/-- **Negation on request metadata, exactly**: every documented pair on every field,
except that the regex pair on a header needs the header, and a match of it. -/
theorem evaluateCondition_metadata_negated_iff (deps : Externals) {kind : FieldKind}
    (hkind : fieldKind condition.field = some kind) (hmetadata : kind ≠ .body)
    {pair : OperatorPair} (hpair : pair ∈ documentedPairs kind) (ctx : EvaluationContext) :
    NegatesOn deps pair condition ctx ↔
      (kind = .header → pair = .regex →
        isSomeAnd (headerValue ctx.headers (headerName condition.field))
          (regexMatches condition) = true) := by
  rw [negatesOn_iff_of_kind condition deps hkind]
  cases kind with
  | body => exact absurd rfl hmetadata
  | method =>
      exact iff_of_true (matchMethodCondition_negated condition hpair _) (fun h => by cases h)
  | path => exact iff_of_true (matchPathCondition_negated condition hpair _) (fun h => by cases h)
  | clientIp =>
      exact iff_of_true (matchIpCondition_negated condition deps hpair _) (fun h => by cases h)
  | header =>
      by_cases hregex : pair = .regex
      · obtain ⟨hnegated, hplain⟩ := matchHeaderCondition_regex condition ctx.headers
          (headerName condition.field)
        rw [hregex]
        rw [matchKind_header, matchKind_header, hnegated, hplain, eq_comm, Bool.not_eq_false']
        exact Iff.intro (fun h _ _ => h) (fun h => h rfl rfl)
      · exact iff_of_true (matchHeaderCondition_negated condition hpair hregex _ _)
          (fun _ h => absurd h hregex)

/-- A leaf about the header of a team. -/
def teamLeaf : Condition where
  field := "header.x-team"
  compiledRegex := some ⟨"^dev$", fun t => t == "dev"⟩

/-- A request of a team. -/
def teamRequest (team : String) : EvaluationContext where
  path := "/images/json"
  method := "GET"
  headers := [("x-team", team)]
  clientIp := "10.0.0.7"

/-- A request of the matching team, on which the regex pair is a negation. -/
theorem evaluateCondition_metadata_negated_dev :
    NegatesOn Externals.uncalled .regex teamLeaf (teamRequest "dev") :=
  (@evaluateCondition_metadata_negated_iff teamLeaf Externals.uncalled .header (by decide +kernel)
    (by decide) .regex (by decide) (teamRequest "dev")).mpr (by decide +kernel)

/-- **A negation that is never true**: the header of another team neither matches nor
does not match. -/
theorem evaluateCondition_header_not_matches :
    fieldKind teamLeaf.field = some .header ∧ OperatorPair.regex ∈ documentedPairs .header ∧
      evaluateCondition Externals.uncalled { teamLeaf with operator := "matches" }
        (teamRequest "ops") = false ∧
      evaluateCondition Externals.uncalled { teamLeaf with operator := "not_matches" }
        (teamRequest "ops") = false ∧
      ¬ NegatesOn Externals.uncalled .regex teamLeaf (teamRequest "ops") := by
  decide +kernel

/-- A field `body.<path>` is a field of the body, with that path. -/
theorem fieldKind_body (path : String) :
    fieldKind ("body." ++ path) = some .body ∧ bodyPath ("body." ++ path) = path := by
  have hbody : stripPrefix ("body." ++ path) "body." = some path := stripPrefix_eq_some.mpr rfl
  have hheader : stripPrefix ("body." ++ path) "header." = none := by
    cases h : stripPrefix ("body." ++ path) "header." with
    | none => rfl
    | some name =>
        have hchars := congrArg String.toList (stripPrefix_eq_some.mp h)
        simp at hchars
  -- none of the names that are compared first begins like a path into the body
  have hother : ∀ field, stripPrefix field "body." = none → "body." ++ path ≠ field := by
    intro field hnone heq
    rw [heq, hnone] at hbody
    exact absurd hbody (by simp)
  refine ⟨?_, by rw [bodyPath, hbody, Option.getD_some]⟩
  unfold fieldKind
  split
  next hf => exact absurd hf (hother "method" (by decide))
  next hf => exact absurd hf (hother "path" (by decide))
  next hf => exact absurd hf (hother "client_ip" (by decide))
  next => rw [hheader, hbody]; rfl

/-- **Negation on the body, exactly**: every documented pair on a field that is there,
and only the presence pair on one that is not. -/
theorem evaluateCondition_body_negated_iff (deps : Externals) {fieldPath : String}
    (hfield : condition.field = "body." ++ fieldPath)
    {pair : OperatorPair} (hpair : pair ∈ documentedPairs .body) (ctx : EvaluationContext) :
    NegatesOn deps pair condition ctx ↔
      (pair = .presence ∨ (ctx.bodyJson.bind fun b => jsonGet b fieldPath).isSome = true) := by
  obtain ⟨hkind, hpath⟩ := fieldKind_body fieldPath
  rw [← hfield] at hkind hpath
  rw [negatesOn_iff_of_kind condition deps hkind, ← hpath]
  by_cases hpresence : pair = .presence
  · rw [hpresence]
    exact iff_of_true (matchBodyCondition_presence condition deps _ _) (Or.inl rfl)
  · cases hfound : ctx.bodyJson.bind fun b => jsonGet b (bodyPath condition.field) with
    | some jsonVal =>
        exact iff_of_true (matchBodyCondition_negated_of_found condition deps hpair hfound)
          (Or.inr rfl)
    | none =>
        obtain ⟨hnegated, hplain⟩ :=
          matchBodyCondition_of_not_found condition deps hpresence hfound
        rw [matchKind_body, matchKind_body, hnegated, hplain]
        simp [hpresence]

/-- A leaf about privileged containers. -/
def privilegedLeaf : Condition where
  field := "body.HostConfig.Privileged"
  value := some (.bool true)

/-- A request with a body. -/
def createRequest (body : Option JsonValue) : EvaluationContext where
  path := "/containers/create"
  method := "POST"
  clientIp := "10.0.0.7"
  bodyJson := body

/-- A body that has the field. -/
theorem evaluateCondition_body_negated_privileged :
    NegatesOn Externals.uncalled .equality privilegedLeaf
      (createRequest (some (.object [("HostConfig", .object [("Privileged", .bool false)])]))) :=
  (@evaluateCondition_body_negated_iff privilegedLeaf Externals.uncalled "HostConfig.Privileged" rfl
    .equality (by decide) (createRequest _)).mpr (by decide +kernel)

/-- **A field that is neither equal nor not equal**: it is not in the body, or there is
no body. -/
theorem evaluateCondition_body_absent :
    OperatorPair.equality ∈ documentedPairs .body ∧
      (∀ body ∈ [none, some (JsonValue.object [("HostConfig", .object [])])],
        evaluateCondition Externals.uncalled { privilegedLeaf with operator := "equals" }
          (createRequest body) = false ∧
        evaluateCondition Externals.uncalled { privilegedLeaf with operator := "not_equals" }
          (createRequest body) = false ∧
        ¬ NegatesOn Externals.uncalled .equality privilegedLeaf (createRequest body)) := by
  refine ⟨by decide, fun body hbody => ?_⟩
  simp only [List.mem_cons, List.not_mem_nil, or_false] at hbody
  obtain rfl | rfl := hbody
  · decide +kernel
  · decide +kernel

end DockerProxy.Rules
