/-
  DockerProxy.Proxy.Handle — `handle` and `handle_upgrade` of `main.rs`.

  A request is received (`receive`: path, query, authentication, the metrics
  endpoint), and then served on one of two paths: `servePlain`, or
  `serveUpgrade`, which client headers select.  Both evaluate the rules and
  send the request to Docker (`exchange`); only the first one reads the
  request's body, and only the first one filters the response.

  Log lines are left out, and so is the copying of bytes that a `101` starts.
-/
import DockerProxy.Path.Canonicalize
import DockerProxy.Proxy.Authenticate
import DockerProxy.Proxy.ClientIp
import DockerProxy.Rules.ResponseFilters

namespace DockerProxy.Proxy

open DockerProxy.Lib DockerProxy.Path DockerProxy.Limiter DockerProxy.Rules

/-! ## §1. Receiving a request. -/

/-- `requires_json_body`: `/containers/create`, or `^/containers/[^/]+/update$`. -/
def requiresJsonBody (path : String) : Bool :=
  if path == "/containers/create" then true
  else
    match splitStr path '/' with
    | ["", "containers", id, "update"] => !id.isEmpty
    | _ => false

/-- What `handle` has made of a request by the time it picks a path. -/
structure Call where
  method : String
  canonicalPath : String
  canonicalPathAndQuery : String
  userAgent : String
  userRole : Option String
  identity : Option String
  peerIp : String
  clientIp : String
  headerMap : List (String × String)
  forwardHeaders : HeaderMap
  upgradeValue : Option String
  rules : List Rule
  timestamp : String

/-- The rule context, `eval_ctx`. -/
def Call.evalCtx (call : Call) (bodyJson : Option JsonValue) : EvaluationContext where
  path := call.canonicalPath
  method := call.method
  headers := call.headerMap
  clientIp := call.clientIp
  bodyJson := bodyJson
  userRole := call.userRole

/-- What a request comes to: the client's response, the request that Docker got,
the context its rules were evaluated in with their decision, and the shared
state. -/
structure Outcome where
  response : Response
  sent : Option ProxiedRequest := none
  evaluated : Option (EvaluationContext × RuleDecision) := none
  state : ProxyState

/-- Counted as malformed. -/
def ProxyState.badRequest (st : ProxyState) : ProxyState :=
  st.count fun c => { c with badRequestTotal := c.badRequestTotal + 1 }

/-- Counted as denied. -/
def ProxyState.denied (st : ProxyState) : ProxyState :=
  st.count fun c => { c with requestsDenied := c.requestsDenied + 1 }

/-- Counted as allowed. -/
def ProxyState.allowed (st : ProxyState) : ProxyState :=
  st.count fun c => { c with requestsAllowed := c.requestsAllowed + 1 }

/-- Counted as an error of Docker's. -/
def ProxyState.upstreamError (st : ProxyState) : ProxyState :=
  st.count fun c => { c with upstreamErrorsTotal := c.upstreamErrorsTotal + 1 }

/-- Counted as a timeout of Docker's. -/
def ProxyState.upstreamTimeout (st : ProxyState) : ProxyState :=
  st.count fun c => { c with upstreamTimeoutsTotal := c.upstreamTimeoutsTotal + 1 }

variable (deps : Externals)

/-- The first part of `handle`: a response at once, or a call to serve. -/
def receive (st : ProxyState) (req : Request) (peer : deps.Ip) (cert : Option CertIdentity)
    (m : Moment) : Except Response Call × ProxyState :=
  let st := st.count fun c => { c with requestsTotal := c.requestsTotal + 1 }
  let userAgent := (req.headers.getStr "user-agent").getD "-"
  match canonicalizePath req.path with
  | none => (.error (makeResponse 400 "Malformed request path"), st.badRequest)
  | some canonicalPath =>
      if !queryAccepted req.query then
        (.error (makeResponse 400 "Malformed query string"), st.badRequest)
      else
        -- the snapshot that the whole request works with
        let config := st.config
        match authenticate deps st config req.headers peer cert m with
        | (.denied status msg, st) =>
            (.error (makeResponse status msg), st.denied.sendAudit
              { timestamp := m.timestamp, event := "auth_denied", peerIp := deps.ipToString peer,
                method := req.method, path := canonicalPath, userAgent := userAgent,
                status := status, message := some msg })
        | (.allowed userRole identity, st) =>
            -- whoever is authenticated may read the counters; no rule is asked
            if st.metricsPath == some canonicalPath && req.method == "GET" then
              (.error (makeResponseBytes 200 "text/plain; version=0.0.4; charset=utf-8"
                (asBytes st.metrics.renderPrometheus)), st)
            else
              let trustedProxies :=
                ((config.global.bind fun g => g.trustedProxies).map (parseTrustedProxies deps)).getD []
              (.ok
                { method := req.method
                  canonicalPath := canonicalPath
                  canonicalPathAndQuery := canonicalPathAndQuery canonicalPath req.query
                  userAgent := userAgent
                  userRole := userRole
                  identity := identity
                  peerIp := deps.ipToString peer
                  clientIp := deps.ipToString (computeClientIp deps peer req.headers trustedProxies)
                  headerMap := ruleHeaders req.headers
                  forwardHeaders := forwardHeaders req.headers
                  upgradeValue := req.headers.getStr "upgrade"
                  rules := config.rules.getD []
                  timestamp := m.timestamp }, st)

/-! ## §2. Evaluating the rules, and the books kept of it. -/

/-- `evaluate_request_detailed` on the shared limiter. -/
def evaluate (st : ProxyState) (call : Call) (ctx : EvaluationContext) (m : Moment) :
    RuleDecision × ProxyState :=
  let (decision, rc) := evaluateRequestDetailed deps call.rules ctx ⟨st.rateLimiter, m.readings⟩
  (decision, { st with rateLimiter := rc.limiter })

/-- A dry run is counted and recorded under its rule. -/
def bookDryRun (st : ProxyState) (call : Call) (decision : RuleDecision) : ProxyState :=
  match decision.dryRun, decision.ruleName with
  | true, some rn =>
      let st := st.count fun c => { c with requestsDryRun := c.requestsDryRun + 1 }
      let st := st.count fun c => c.recordRuleDeny rn true
      st.sendAudit
        { timestamp := call.timestamp, event := "dry_run", peerIp := call.peerIp,
          method := call.method, path := call.canonicalPath, userAgent := call.userAgent,
          userRole := call.userRole, identity := call.identity, ruleName := some rn,
          ruleAction := decision.action, dryRun := true }
  | _, _ => st

/-- A denial is counted under its rule and recorded. -/
def bookDeny (st : ProxyState) (call : Call) (decision : RuleDecision) (status : UInt16)
    (message : String) : ProxyState :=
  let st := match decision.ruleName with
    | some rn => st.count fun c => c.recordRuleDeny rn false
    | none => st
  st.sendAudit
    { timestamp := call.timestamp, event := "deny", peerIp := call.peerIp, method := call.method,
      path := call.canonicalPath, userAgent := call.userAgent, userRole := call.userRole,
      identity := call.identity, ruleName := decision.ruleName, ruleAction := decision.action,
      status := statusCodeOr403 status, message := some message }

/-! ## §3. The exchange with Docker. -/

/-- What came of sending a request to Docker: its answer, or a response for the
client in its place. -/
structure Exchange where
  answer : Except Response UpstreamResponse
  sent : Option ProxiedRequest := none
  state : ProxyState

/-- Connect, shake hands, build the request and send it.  The two paths do the
same but for the headers and the body of the request. -/
def exchange (st : ProxyState) (docker : Docker) (call : Call) (headers : HeaderMap)
    (body : List UInt8) : Exchange :=
  match docker.connect with
  | .failed =>
      { answer := .error (makeResponse 502 "docker socket unavailable"), state := st.upstreamError }
  | .timedOut =>
      { answer := .error (makeResponse 504 "docker socket connect timeout")
        state := st.upstreamTimeout }
  | .ok () =>
      if !docker.handshake then
        { answer := .error (makeResponse 502 "docker handshake failed"), state := st.upstreamError }
      else
        match deps.uriTarget call.canonicalPathAndQuery with
        | none =>
            -- the one failure that no counter sees
            { answer := .error (makeResponse 502 "failed to build upstream request"), state := st }
        | some target =>
            let proxiedReq : ProxiedRequest :=
              { method := call.method, target := target, headers := headers, body := body }
            match docker.respond proxiedReq with
            | .failed =>
                { answer := .error (makeResponse 502 "docker request failed")
                  sent := some proxiedReq
                  state := st.upstreamError }
            | .timedOut =>
                { answer := .error (makeResponse 504 "docker upstream timeout")
                  sent := some proxiedReq
                  state := st.upstreamTimeout }
            | .ok res => { answer := .ok res, sent := some proxiedReq, state := st }

/-! ## §4. The upgrade path. -/

/-- The headers of the request to Docker. -/
def Call.upgradeHeaders (call : Call) : HeaderMap :=
  [("host", .ofStr "docker.proxy"), ("connection", .ofStr "upgrade")] ++
    (call.upgradeValue.map fun u => ("upgrade", HeaderValue.ofStr u)).toList ++ call.forwardHeaders

/-- `handle_upgrade`. -/
def handleUpgrade (st : ProxyState) (docker : Docker) (call : Call) : Outcome :=
  let ex := exchange deps st docker call call.upgradeHeaders []
  match ex.answer with
  | .error response => { response := response, sent := ex.sent, state := ex.state }
  | .ok res =>
      if res.status ≠ 101 then
        -- a body that cannot be read is an empty body here
        let bytes := match res.body.read maxRespBodyBytes with
          | .bytes b => b
          | _ => []
        { response := { status := res.status, headers := responseHeaders res.headers, body := bytes }
          sent := ex.sent
          state := ex.state }
      else
        { response :=
            { status := res.status, headers := upgradeResponseHeaders res.headers, body := [] }
          sent := ex.sent
          state := ex.state }

/-- The branch of `handle` for a request with upgrade headers.  Its rules see no
body, and a denial by a rate limit is not counted as one. -/
def serveUpgrade (st : ProxyState) (docker : Docker) (call : Call) (m : Moment) : Outcome :=
  let st := st.count fun c => { c with upgradeTotal := c.upgradeTotal + 1 }
  -- the request's body is neither read nor forwarded
  let ctx := call.evalCtx none
  let (decision, st) := evaluate deps st call ctx m
  let st := bookDryRun st call decision
  match decision.result with
  | .deny status message =>
      { response := makeResponse (statusCodeOr403 status) message
        evaluated := some (ctx, decision)
        state := bookDeny st.denied call decision status message }
  | .allow =>
      { handleUpgrade deps st.allowed docker call with evaluated := some (ctx, decision) }

/-! ## §5. The plain path. -/

/-- Read the request's body, and what it is as a JSON document. -/
def readBody (st : ProxyState) (call : Call) (body : BodyStream) :
    Except Response (List UInt8 × Option JsonValue) × ProxyState :=
  match body.read maxReqBodyBytes with
  | .tooLarge =>
      (.error (makeResponse 413 "Request body too large"),
        st.count fun c => { c with bodyTooLargeTotal := c.bodyTooLargeTotal + 1 })
  | .failed => (.error (makeResponse 400 "Request body invalid"), st.badRequest)
  | .timedOut =>
      (.error (makeResponse 408 "Request body read timeout"),
        st.count fun c => { c with requestTimeoutsTotal := c.requestTimeoutsTotal + 1 })
  | .bytes bodyBytes =>
      if bodyBytes.isEmpty then (.ok (bodyBytes, none), st)
      else
        match deps.jsonFromSlice bodyBytes with
        | .ok v => (.ok (bodyBytes, some v), st)
        | .error e =>
            if requiresJsonBody call.canonicalPath then
              (.error (makeResponse 400
                ("Request body must be valid JSON for this endpoint: " ++ e)), st.badRequest)
            -- elsewhere a body that is no JSON document is one the rules do not see
            else (.ok (bodyBytes, none), st)

/-- The content type of a response, as the filters look at it. -/
def contentType (headers : HeaderMap) : String :=
  (headers.getStr "content-type").getD "application/octet-stream"

/-- The headers of the request to Docker. -/
def Call.plainHeaders (call : Call) : HeaderMap :=
  [("host", .ofStr "docker.proxy"), ("connection", .ofStr "close")] ++ call.forwardHeaders

/-- Send an allowed request to Docker and give the client the filtered answer. -/
def forwardPlain (st : ProxyState) (docker : Docker) (call : Call) (bodyBytes : List UInt8)
    (responseFilters : List ResponseFilterEntry) (m : Moment) : Outcome :=
  let ex := exchange deps st docker call call.plainHeaders bodyBytes
  match ex.answer with
  | .error response => { response := response, sent := ex.sent, state := ex.state }
  | .ok res =>
      match res.body.read maxRespBodyBytes with
      | .failed | .tooLarge =>
          { response := makeResponse 502 "failed to read docker response"
            sent := ex.sent
            state := ex.state.upstreamError }
      | .timedOut =>
          { response := makeResponse 504 "docker response timeout"
            sent := ex.sent
            state := ex.state.upstreamTimeout }
      | .bytes responseBytes =>
          let elapsedMs := UInt64.ofNat (min m.upstreamElapsedMs (2 ^ 64 - 1))
          let st := ex.state.count fun c => c.observeUpstreamLatencyMs elapsedMs
          let finalBytes :=
            if !responseFilters.isEmpty &&
                containsStr (contentType res.headers) "application/json" then
              applyResponseFilters deps responseFilters responseBytes
            else responseBytes
          -- the filtered body is sent under Docker's own headers
          let emitted := responseHeaders res.headers
          let emittedContentType := emitted.any fun h => h.1 == "content-type"
          { response :=
              { status := res.status
                headers := if emittedContentType then emitted
                  else emitted ++ [("content-type", .ofStr (contentType res.headers))]
                body := finalBytes }
            sent := ex.sent
            state := st.allowed }

/-- The rest of `handle` for any other request. -/
def servePlain (st : ProxyState) (docker : Docker) (call : Call) (body : BodyStream) (m : Moment) :
    Outcome :=
  match readBody deps st call body with
  | (.error response, st) => { response := response, state := st }
  | (.ok (bodyBytes, bodyJson), st) =>
      let ctx := call.evalCtx bodyJson
      let (decision, st) := evaluate deps st call ctx m
      let st := bookDryRun st call decision
      match decision.result with
      | .deny status message =>
          let st := st.denied
          let st := if decision.action == some "rate_limit" then
              st.count fun c => { c with rateLimitedTotal := c.rateLimitedTotal + 1 }
            else st
          { response := makeResponse (statusCodeOr403 status) message
            evaluated := some (ctx, decision)
            state := bookDeny st call decision status message }
      | .allow =>
          let responseFilters := collectResponseFilters deps call.rules ctx
          { forwardPlain deps st docker call bodyBytes responseFilters m with
            evaluated := some (ctx, decision) }

/-- `handle`. -/
def handle (st : ProxyState) (req : Request) (peer : deps.Ip) (cert : Option CertIdentity)
    (docker : Docker) (m : Moment) : Outcome :=
  match receive deps st req peer cert m with
  | (.error response, st) => { response := response, state := st }
  | (.ok call, st) =>
      if isUpgradeRequest req.headers then serveUpgrade deps st docker call m
      else servePlain deps st docker call req.body m

/-! ## §6. What becomes of a request that is sent to Docker. -/

/-- Docker's answer to the request that was sent comes back. -/
theorem exchange_answer {st : ProxyState} {docker : Docker} {call : Call} {headers : HeaderMap}
    {body : List UInt8} {out : ProxiedRequest} {res : UpstreamResponse}
    (hsent : (exchange deps st docker call headers body).sent = some out)
    (hres : docker.respond out = .ok res) :
    (exchange deps st docker call headers body).answer = .ok res := by
  unfold exchange at hsent ⊢
  cases hconnect : docker.connect with
  | failed => rw [hconnect] at hsent; exact absurd hsent (by simp)
  | timedOut => rw [hconnect] at hsent; exact absurd hsent (by simp)
  | ok _ =>
      rw [hconnect] at hsent
      cases hshake : docker.handshake with
      | false => rw [hshake] at hsent; exact absurd hsent (by simp)
      | true =>
          rw [hshake] at hsent
          cases htarget : deps.uriTarget call.canonicalPathAndQuery with
          | none => rw [htarget] at hsent; exact absurd hsent (by simp)
          | some target =>
              rw [htarget] at hsent
              simp only [Bool.not_true, Bool.false_eq_true, if_false] at hsent ⊢
              -- whatever came back, it is the answer to the request recorded as sent
              split at hsent
              next => injection hsent with hsent; simp_all
              next => injection hsent with hsent; simp_all
              next => injection hsent with hsent; simp_all

/-- The upgrade path sends the request without its body. -/
theorem handleUpgrade_sent (st : ProxyState) (docker : Docker) (call : Call) :
    (handleUpgrade deps st docker call).sent =
      (exchange deps st docker call call.upgradeHeaders []).sent := by
  unfold handleUpgrade
  simp only
  split
  · rfl
  · split <;> rfl

/-- The plain path sends the request with its body. -/
theorem forwardPlain_sent (st : ProxyState) (docker : Docker) (call : Call)
    (bodyBytes : List UInt8) (responseFilters : List ResponseFilterEntry) (m : Moment) :
    (forwardPlain deps st docker call bodyBytes responseFilters m).sent =
      (exchange deps st docker call call.plainHeaders bodyBytes).sent := by
  unfold forwardPlain
  simp only
  split
  · rfl
  · split <;> rfl

/-- What a call keeps of its request. -/
theorem receive_ok {st st' : ProxyState} {req : Request} {peer : deps.Ip}
    {cert : Option CertIdentity} {m : Moment} {call : Call}
    (h : receive deps st req peer cert m = (.ok call, st')) :
    ∃ canonicalPath, canonicalizePath req.path = some canonicalPath ∧
      call.canonicalPathAndQuery = canonicalPathAndQuery canonicalPath req.query ∧
      call.method = req.method ∧ call.headerMap = ruleHeaders req.headers ∧
      call.forwardHeaders = forwardHeaders req.headers ∧
      call.rules = st.config.rules.getD [] := by
  unfold receive at h
  simp only at h
  split at h
  next => exact absurd h (by simp)
  next canonicalPath hpath =>
    refine ⟨canonicalPath, hpath, ?_⟩
    split at h
    · exact absurd h (by simp)
    · split at h
      next => exact absurd h (by simp)
      next =>
        split at h
        · exact absurd h (by simp)
        · simp only [Prod.mk.injEq, Except.ok.injEq] at h
          rw [← h.1]
          exact ⟨rfl, rfl, rfl, rfl, rfl⟩

/-- A request that is answered when it is received. -/
theorem handle_of_answered {st st₁ : ProxyState} {req : Request} {peer : deps.Ip}
    {cert : Option CertIdentity} {m : Moment} {response : Response}
    (h : receive deps st req peer cert m = (.error response, st₁)) (docker : Docker) :
    handle deps st req peer cert docker m = { response := response, state := st₁ } := by
  unfold handle
  rw [h]

/-- A received request is served on the path that its headers select. -/
theorem handle_of_received {st st₁ : ProxyState} {req : Request} {peer : deps.Ip}
    {cert : Option CertIdentity} {m : Moment} {call : Call}
    (h : receive deps st req peer cert m = (.ok call, st₁)) (docker : Docker) :
    handle deps st req peer cert docker m =
      if isUpgradeRequest req.headers then serveUpgrade deps st₁ docker call m
      else servePlain deps st₁ docker call req.body m := by
  unfold handle
  rw [h]

/-- The request recorded as sent is the one that was built. -/
theorem exchange_request {st : ProxyState} {docker : Docker} {call : Call} {headers : HeaderMap}
    {body : List UInt8} {out : ProxiedRequest}
    (hsent : (exchange deps st docker call headers body).sent = some out) :
    deps.uriTarget call.canonicalPathAndQuery = some out.target ∧ out.method = call.method ∧
      out.headers = headers ∧ out.body = body := by
  unfold exchange at hsent
  split at hsent
  · exact absurd hsent (by simp)
  · exact absurd hsent (by simp)
  · split at hsent
    · exact absurd hsent (by simp)
    · split at hsent
      · exact absurd hsent (by simp)
      · next target htarget =>
          simp only at hsent
          split at hsent <;>
            (simp only [Option.some.injEq] at hsent; rw [← hsent]; exact ⟨htarget, rfl, rfl, rfl⟩)

/-- **A request with upgrade headers that is sent to Docker** was allowed by rules
that saw no body. -/
theorem serveUpgrade_of_sent {st : ProxyState} {docker : Docker} {call : Call} {m : Moment}
    {out : ProxiedRequest} (h : (serveUpgrade deps st docker call m).sent = some out) :
    ∃ st' decision, decision.result = .allow ∧ serveUpgrade deps st docker call m =
      { handleUpgrade deps st' docker call with
        evaluated := some (call.evalCtx none, decision) } := by
  unfold serveUpgrade at h ⊢
  simp only at h ⊢
  split at h
  next => exact absurd h (by simp)
  next hallow => exact ⟨_, _, hallow, rfl⟩

/-- The context of a request with upgrade headers. -/
theorem serveUpgrade_evaluated {st : ProxyState} {docker : Docker} {call : Call} {m : Moment}
    {ctx : EvaluationContext} {decision : RuleDecision}
    (h : (serveUpgrade deps st docker call m).evaluated = some (ctx, decision)) :
    ctx = call.evalCtx none := by
  unfold serveUpgrade at h
  simp only at h
  split at h <;> (simp only [Option.some.injEq, Prod.mk.injEq] at h; exact h.1.symm)

/-- The context of any other request. -/
theorem servePlain_evaluated {st : ProxyState} {docker : Docker} {call : Call} {body : BodyStream}
    {m : Moment} {ctx : EvaluationContext} {decision : RuleDecision}
    (h : (servePlain deps st docker call body m).evaluated = some (ctx, decision)) :
    ∃ bodyJson, ctx = call.evalCtx bodyJson := by
  unfold servePlain at h
  split at h
  · exact absurd h (by simp)
  · next bodyBytes bodyJson _ _ =>
      simp only at h
      split at h <;>
        (simp only [Option.some.injEq, Prod.mk.injEq] at h; exact ⟨bodyJson, h.1.symm⟩)

/-- A body that goes on to the rules was read in full. -/
theorem readBody_ok {st st' : ProxyState} {call : Call} {body : BodyStream}
    {bj : List UInt8 × Option JsonValue} (h : readBody deps st call body = (.ok bj, st')) :
    body.read maxReqBodyBytes = .bytes bj.1 := by
  unfold readBody at h
  split at h
  · exact absurd h (by simp)
  · exact absurd h (by simp)
  · exact absurd h (by simp)
  · next bodyBytes hread =>
      rw [hread]
      split at h
      · simp only [Prod.mk.injEq, Except.ok.injEq] at h
        rw [← h.1]
      · split at h
        · simp only [Prod.mk.injEq, Except.ok.injEq] at h
          rw [← h.1]
        · split at h
          · exact absurd h (by simp)
          · simp only [Prod.mk.injEq, Except.ok.injEq] at h
            rw [← h.1]

/-- **Any other request that is sent to Docker** was read in full and allowed by
rules that saw the document its body is. -/
theorem servePlain_of_sent {st : ProxyState} {docker : Docker} {call : Call} {body : BodyStream}
    {m : Moment} {out : ProxiedRequest}
    (h : (servePlain deps st docker call body m).sent = some out) :
    ∃ st' decision bodyBytes bodyJson, body.read maxReqBodyBytes = .bytes bodyBytes ∧
      decision.result = .allow ∧
      servePlain deps st docker call body m =
        { forwardPlain deps st' docker call bodyBytes
            (collectResponseFilters deps call.rules (call.evalCtx bodyJson)) m with
          evaluated := some (call.evalCtx bodyJson, decision) } := by
  unfold servePlain at h ⊢
  cases hread : readBody deps st call body with
  | mk read st₁ =>
      rw [hread] at h
      cases read with
      | error response => exact absurd h (by simp)
      | ok bj =>
          simp only at h ⊢
          split at h
          next => exact absurd h (by simp)
          next hallow => exact ⟨_, _, bj.1, bj.2, readBody_ok deps hread, hallow, rfl⟩

/-- **What `handle` did with a request that was sent to Docker**: it was received,
and then served on the path that its headers select. -/
theorem handle_of_sent {st : ProxyState} {req : Request} {peer : deps.Ip}
    {cert : Option CertIdentity} {docker : Docker} {m : Moment} {out : ProxiedRequest}
    (h : (handle deps st req peer cert docker m).sent = some out) :
    ∃ call st₁ st' decision, receive deps st req peer cert m = (.ok call, st₁) ∧
      decision.result = .allow ∧
      ((isUpgradeRequest req.headers = true ∧ handle deps st req peer cert docker m =
          { handleUpgrade deps st' docker call with
            evaluated := some (call.evalCtx none, decision) }) ∨
       (isUpgradeRequest req.headers = false ∧ ∃ bodyBytes bodyJson,
          req.body.read maxReqBodyBytes = .bytes bodyBytes ∧
          handle deps st req peer cert docker m =
            { forwardPlain deps st' docker call bodyBytes
                (collectResponseFilters deps call.rules (call.evalCtx bodyJson)) m with
              evaluated := some (call.evalCtx bodyJson, decision) })) := by
  unfold handle at h ⊢
  cases hreceive : receive deps st req peer cert m with
  | mk received st₁ =>
      rw [hreceive] at h
      cases received with
      | error response => exact absurd h (by simp)
      | ok call =>
          cases hup : isUpgradeRequest req.headers with
          | true =>
              simp only [hup, if_true] at h ⊢
              obtain ⟨st', decision, hallow, hserve⟩ := serveUpgrade_of_sent deps h
              exact ⟨call, st₁, st', decision, rfl, hallow, Or.inl ⟨trivial, hserve⟩⟩
          | false =>
              simp only [hup, Bool.false_eq_true, if_false] at h ⊢
              obtain ⟨st', decision, bodyBytes, bodyJson, hread, hallow, hserve⟩ :=
                servePlain_of_sent deps h
              exact ⟨call, st₁, st', decision, rfl, hallow,
                Or.inr ⟨trivial, bodyBytes, bodyJson, hread, hserve⟩⟩

end DockerProxy.Proxy
