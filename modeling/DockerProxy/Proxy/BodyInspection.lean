/-
  DockerProxy.Proxy.BodyInspection — a body that is no JSON document, and rules
  about the body.

  Two endpoints insist on a JSON document: there a body that cannot be parsed is
  answered with `400` before any rule is asked.  On every other path such a body is
  forwarded as it is, and the rules are evaluated as for a request without a body:
  `body.*` conditions are false, but for `not_exists`.  So a denial that depends on
  the body rejects the request only if it also holds without one
  (`handle_unparsable_body`).
-/
import DockerProxy.Proxy.Filtering
import DockerProxy.Rules.Negation

namespace DockerProxy.Proxy

open DockerProxy.Lib DockerProxy.Config DockerProxy.Rules DockerProxy.Limiter

variable (deps : Externals)

/-! ## §1. Rules without a body. -/

/-- **A body condition without a body** is true for `not_exists` only. -/
theorem evaluateCondition_without_body {condition : Condition}
    (hkind : fieldKind condition.field = some .body) {ctx : EvaluationContext}
    (hbody : ctx.bodyJson = none) :
    evaluateCondition deps condition ctx = (condition.operator == "not_exists") := by
  rw [evaluateCondition_of_kind condition deps hkind, matchKind_body, hbody]
  unfold matchBodyCondition
  simp only [Option.bind_none]
  split
  next hop => rw [hop]; rfl
  next hop => rw [hop]; rfl
  next _ hop => exact (beq_eq_false_iff_ne.mpr hop).symm

/-- **A denial on the body that applies but for the body**: an enforced denial with a
body condition, whose other conditions hold, and no matching allow rule before it. -/
structure GuardsBody (ctx : EvaluationContext) (rules : List Rule) (k : Nat) (rule : Rule) :
    Prop where
  found : rules[k]? = some rule
  denies : rule.action = "deny"
  enforced : isDryRun rule = false
  onBody : ∃ c ∈ leavesAll rule.conditions, fieldKind c.field = some .body
  others : ∀ c ∈ leavesAll rule.conditions, fieldKind c.field ≠ some .body →
    evaluateCondition deps c ctx = true
  noAllow : ∀ j < k, ∀ r, rules[j]? = some r → r.action = "allow" → ruleMatches deps ctx r = false

variable {deps}

/-- An enforced denial that matches decides. -/
theorem decides_of_deny {ctx : EvaluationContext} {rule : Rule} (rc : RateClock)
    (hdeny : rule.action = "deny") (hmatches : ruleMatches deps ctx rule = true) :
    decides deps ctx rule rc = true := by
  unfold decides refuses
  rw [hmatches, hdeny]
  rfl

/-- The evaluation is a denial if a denial matches, and what decides before it, if
anything, is neither an allow rule nor a dry run. -/
theorem denied_of_guardsBody {ctx : EvaluationContext} {rules : List Rule} {k : Nat} {rule : Rule}
    (h : GuardsBody deps ctx rules k rule) (hmatches : ruleMatches deps ctx rule = true)
    {rc : RateClock}
    (hobserved : ∀ j < k, ∀ r, DecidesAt deps ctx rules rc j r → isDryRun r = false) :
    (evaluateRequestDetailed deps rules ctx rc).1.result ≠ .allow := by
  have hk : DecidesAt deps ctx rules rc k rule :=
    ⟨h.found, decides_of_deny _ h.denies hmatches⟩
  obtain ⟨j, r, hfirst⟩ | hnone := firstDecidesAt_or_none deps ctx rules rc
  · rw [evaluateRequestDetailed_of_first deps hfirst]
    -- the first rule that decides is the denial, or one before it
    have hjk : j ≤ k := by
      by_contra hlt
      exact hfirst.2 k (by omega) rule hk
    have henforced : isDryRun r = false ∧ r.action ≠ "allow" := by
      rcases Nat.lt_or_eq_of_le hjk with hlt | heq
      · refine ⟨hobserved j hlt r hfirst.1, fun hallow => ?_⟩
        have hno := h.noAllow j hlt r hfirst.1.1 hallow
        have hdecides := hfirst.1.2
        unfold decides at hdecides
        rw [hno] at hdecides
        exact absurd hdecides (by simp)
      · have hr : some r = some rule := by rw [← hfirst.1.1, heq, h.found]
        rw [Option.some.inj hr, h.denies]
        exact ⟨h.enforced, by decide⟩
    show (decision r).result ≠ .allow
    unfold decision
    simp [henforced.1, henforced.2]
  · exact absurd hk (hnone k rule)

/-! ## §2. A body that is no JSON document. -/

section

variable {st st₁ : ProxyState} {req : Request} {peer : deps.Ip} {cert : Option CertIdentity}
  {m : Moment} {call : Call} {bodyBytes : List UInt8} {e : String}

/-- What becomes of a body that cannot be parsed. -/
theorem readBody_unparsable (hread : req.body.read maxReqBodyBytes = .bytes bodyBytes)
    (hbody : bodyBytes ≠ []) (hjson : deps.jsonFromSlice bodyBytes = .error e) :
    readBody deps st₁ call req.body =
      if requiresJsonBody call.canonicalPath then
        (.error (makeResponse 400 ("Request body must be valid JSON for this endpoint: " ++ e)),
          st₁.badRequest)
      else (.ok (bodyBytes, none), st₁) := by
  unfold readBody
  rw [hread]
  simp only [List.isEmpty_iff, hbody, if_false, hjson]

/-- A Docker that takes every request and never answers. -/
def silentDocker : Docker where
  connect := .ok ()
  handshake := true
  respond _ := .failed

/-- Docker gets nothing, whatever it does, only if the request has no target. -/
theorem exchange_not_sent_iff {headers : HeaderMap} {body : List UInt8} :
    (∀ docker, (exchange deps st₁ docker call headers body).sent = none) ↔
      deps.uriTarget call.canonicalPathAndQuery = none := by
  refine Iff.intro (fun h => ?_) (fun htarget docker => ?_)
  · -- a Docker that takes the request shows whether there was one
    have hsent := h silentDocker
    unfold exchange silentDocker at hsent
    simp only [Bool.not_true, Bool.false_eq_true, if_false] at hsent
    split at hsent
    next htarget => exact htarget
    next => exact absurd hsent (by simp)
  · cases hsent : (exchange deps st₁ docker call headers body).sent with
    | none => rfl
    | some out =>
        rw [(exchange_request deps hsent).1] at htarget
        exact absurd htarget (by simp)

/-- The decision on the call without a body. -/
def bodylessDecision (deps : Externals) (st : ProxyState) (call : Call) (m : Moment) :
    RuleDecision :=
  (evaluateRequestDetailed deps call.rules (call.evalCtx none) ⟨st.rateLimiter, m.readings⟩).1

/-- On a path that does not insist on a document, the rules see no body, and what they
allow is sent as it is. -/
theorem servePlain_unparsable (hread : req.body.read maxReqBodyBytes = .bytes bodyBytes)
    (hbody : bodyBytes ≠ []) (hjson : deps.jsonFromSlice bodyBytes = .error e)
    (hany : requiresJsonBody call.canonicalPath = false) :
    (∀ docker, (servePlain deps st₁ docker call req.body m).evaluated =
      some (call.evalCtx none, bodylessDecision deps st₁ call m)) ∧
    ((∀ docker, (servePlain deps st₁ docker call req.body m).sent = none) ↔
      (bodylessDecision deps st₁ call m).result ≠ .allow ∨
        deps.uriTarget call.canonicalPathAndQuery = none) := by
  have hreadBody : readBody deps st₁ call req.body = (.ok (bodyBytes, none), st₁) := by
    rw [readBody_unparsable hread hbody hjson, hany]
    rfl
  have hdecision : (evaluate deps st₁ call (call.evalCtx none) m).1 =
      bodylessDecision deps st₁ call m := rfl
  unfold servePlain
  rw [hreadBody]
  simp only [hdecision]
  cases hresult : (bodylessDecision deps st₁ call m).result with
  | deny status message => simp
  | allow =>
      simp only [forwardPlain_sent, ne_eq, not_true_eq_false, false_or]
      exact ⟨fun _ => trivial, exchange_not_sent_iff⟩

/-- **A body that is no JSON document, exactly.**  On the two endpoints that insist on
one the request is rejected before any rule is asked.  On any other path the rules see
no body, so a body condition is true for `not_exists` only.  Docker then gets nothing
if and only if the rules deny such a request (or it has no target), and an enforced
denial with a body condition does so if it matches without a body and no dry run ends
the evaluation before it. -/
theorem handle_unparsable_body (hreceive : receive deps st req peer cert m = (.ok call, st₁))
    (hplain : isUpgradeRequest req.headers = false)
    (hread : req.body.read maxReqBodyBytes = .bytes bodyBytes) (hbody : bodyBytes ≠ [])
    (hjson : deps.jsonFromSlice bodyBytes = .error e) :
    (requiresJsonBody call.canonicalPath = true → ∀ docker,
      (handle deps st req peer cert docker m).response.status = 400 ∧
      (handle deps st req peer cert docker m).evaluated = none ∧
      (handle deps st req peer cert docker m).sent = none) ∧
    (requiresJsonBody call.canonicalPath = false →
      (∀ docker, (handle deps st req peer cert docker m).evaluated =
        some (call.evalCtx none, bodylessDecision deps st₁ call m)) ∧
      (∀ c : Condition, fieldKind c.field = some .body →
        evaluateCondition deps c (call.evalCtx none) = (c.operator == "not_exists")) ∧
      ((∀ docker, (handle deps st req peer cert docker m).sent = none) ↔
        (bodylessDecision deps st₁ call m).result ≠ .allow ∨
          deps.uriTarget call.canonicalPathAndQuery = none) ∧
      ∀ k rule, GuardsBody deps (call.evalCtx none) call.rules k rule →
        ruleMatches deps (call.evalCtx none) rule = true →
        (∀ j < k, ∀ r, DecidesAt deps (call.evalCtx none) call.rules
          ⟨st₁.rateLimiter, m.readings⟩ j r → isDryRun r = false) →
        ∀ docker, (handle deps st req peer cert docker m).sent = none) := by
  simp only [handle_of_received deps hreceive, hplain, Bool.false_eq_true, if_false]
  refine ⟨fun hinsists docker => ?_, fun hany => ?_⟩
  · have hreject : readBody deps st₁ call req.body = _ := readBody_unparsable hread hbody hjson
    rw [hinsists, if_pos rfl] at hreject
    unfold servePlain
    rw [hreject]
    exact ⟨rfl, rfl, rfl⟩
  · obtain ⟨hevaluated, hsent⟩ := servePlain_unparsable hread hbody hjson hany
    refine ⟨hevaluated, fun c hkind => evaluateCondition_without_body deps hkind rfl, hsent,
      fun k rule hguards hmatches hobserved => ?_⟩
    exact hsent.mpr (Or.inl (denied_of_guardsBody hguards hmatches hobserved))

end

/-! ## §3. A denial that a broken body gets around. -/

/-- A condition on the path. -/
def containersLeaf : Condition where
  field := "path"
  operator := "starts_with"
  value := some (.string "/containers/")

/-- A condition on the body. -/
def privilegedExecLeaf : Condition where
  field := "body.Privileged"
  operator := "equals"
  value := some (.bool true)

/-- A rule against privileged commands in containers. -/
def privilegedExecRule : Rule where
  name := "no-privileged-exec"
  action := "deny"
  conditions := [.leaf containersLeaf, .leaf privilegedExecLeaf]

/-- A proxy without authentication, with that rule. -/
def unprivilegedState : ProxyState where
  config := { auth := some { authType := some "none" }, rules := some [privilegedExecRule] }
  envSecret := ""
  rateLimiter := RateLimiter.new
  authLimiter := AuthLimiter.new
  metrics := {}
  audit := none
  metricsPath := none

/-- An object that is not closed. -/
def brokenBody : List UInt8 := asBytes "\x7b\"Privileged\":true"

/-- A request whose body is broken. -/
def brokenRequest (path : String) : Request where
  method := "POST"
  path := path
  query := none
  headers := []
  body := ⟨brokenBody, .complete⟩

/-- What serving this request comes to. -/
def serveBroken (path : String) (docker : Docker) : Outcome :=
  handle Externals.sample unprivilegedState (brokenRequest path) () none docker momentZero

/-- The body is read in full, and is no JSON document. -/
theorem brokenBody_unparsable (path : String) :
    (brokenRequest path).body.read maxReqBodyBytes = .bytes brokenBody ∧ brokenBody ≠ [] ∧
      Externals.sample.jsonFromSlice brokenBody = .error "expected value at line 1 column 1" := by
  have hshort : ¬ maxReqBodyBytes < brokenBody.length := by decide +kernel
  have hother : brokenBody ≠ asBytes (oneField "Env" "hunter2") := by decide +kernel
  refine ⟨?_, by decide +kernel, ?_⟩
  · show (if maxReqBodyBytes < brokenBody.length then BodyRead.tooLarge else .bytes brokenBody) = _
    exact if_neg hshort
  · show (if brokenBody = asBytes (oneField "Env" "hunter2") then
        Except.ok (JsonValue.object [("Env", .string "hunter2")])
      else .error "expected value at line 1 column 1") = _
    exact if_neg hother

/-- On an endpoint that insists on a document the broken body is rejected. -/
theorem handle_unparsable_body_create :
    (serveBroken "/containers/create" inspectDocker).sent = none := by
  have hinsists : (receive Externals.sample unprivilegedState
      (brokenRequest "/containers/create") () none momentZero).1.toOption.map
        (fun call => requiresJsonBody call.canonicalPath) = some true := by decide +kernel
  obtain ⟨hread, hbody, hjson⟩ := brokenBody_unparsable "/containers/create"
  cases hreceive : receive Externals.sample unprivilegedState
      (brokenRequest "/containers/create") () none momentZero with
  | mk received st₁ =>
      rw [hreceive] at hinsists
      cases received with
      | error response => exact absurd hinsists (by simp [Except.toOption])
      | ok call =>
          have hinsists : requiresJsonBody call.canonicalPath = true := Option.some.inj hinsists
          exact ((handle_unparsable_body hreceive rfl hread hbody hjson).1 hinsists
            inspectDocker).2.2

/-- **A denial that a broken body gets around**: the rule about privileged commands
applies but for the body, and the request is sent to Docker with its body as it is. -/
theorem handle_unparsable_body_forwarded :
    isUpgradeRequest (brokenRequest "/containers/web/exec").headers = false ∧
    (brokenRequest "/containers/web/exec").body.read maxReqBodyBytes = .bytes brokenBody ∧
    brokenBody ≠ [] ∧
    Externals.sample.jsonFromSlice brokenBody = .error "expected value at line 1 column 1" ∧
    (∃ ctx decision, (serveBroken "/containers/web/exec" inspectDocker).evaluated =
        some (ctx, decision) ∧
      GuardsBody Externals.sample ctx [privilegedExecRule] 0 privilegedExecRule) ∧
    (serveBroken "/containers/web/exec" inspectDocker).sent.map ProxiedRequest.body =
      some brokenBody := by
  obtain ⟨hread, hbody, hjson⟩ := brokenBody_unparsable "/containers/web/exec"
  refine ⟨rfl, hread, hbody, hjson, ?_, by decide +kernel⟩
  have hleaf : (serveBroken "/containers/web/exec" inspectDocker).evaluated.map
      (fun e => evaluateCondition Externals.sample containersLeaf e.1) = some true := by
    decide +kernel
  cases hevaluated : (serveBroken "/containers/web/exec" inspectDocker).evaluated with
  | none => rw [hevaluated] at hleaf; exact absurd hleaf (by simp)
  | some evaluated =>
      rw [hevaluated] at hleaf
      obtain ⟨ctx, decision⟩ := evaluated
      have hkind : fieldKind privilegedExecLeaf.field = some .body := by decide +kernel
      refine ⟨ctx, decision, rfl, rfl, rfl, rfl,
        ⟨privilegedExecLeaf, List.mem_cons_of_mem _ List.mem_cons_self, hkind⟩,
        fun c hc hother => ?_, fun j hj => absurd hj (Nat.not_lt_zero j)⟩
      have hc : c ∈ [containersLeaf, privilegedExecLeaf] := hc
      rcases List.mem_cons.mp hc with rfl | hc
      · exact Option.some.inj hleaf
      · rw [List.mem_singleton.mp hc] at hother
        exact absurd hkind hother

end DockerProxy.Proxy
