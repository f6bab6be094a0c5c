/-
  DockerProxy.Proxy.Atomic — `handle`, one access to the shared state at a time.

  Requests are tasks of their own.  What they share is behind locks and atomic counters,
  which each of them takes for one access and gives back, and between two accesses of one
  request those of others come in.  Here `handle` and what it calls are programs whose
  steps are these accesses; a request to Docker is a step, too, on the wire.

    • `handleSteps` — the program of a request,
    • `alone_handleSteps` — alone it does what `handle` does.
-/
import DockerProxy.Lib.Atomic
import DockerProxy.Proxy.Outcomes

namespace DockerProxy.Proxy

open DockerProxy.Lib DockerProxy.Path DockerProxy.Limiter DockerProxy.Rules

/-! ## §1. What the tasks share. -/

/-- The state of the proxy, and the requests that Docker was sent. -/
structure Shared where
  proxy : ProxyState
  wire : List ProxiedRequest

namespace Shared

/-- Change the proxy's state. -/
def on (s : Shared) (f : ProxyState → ProxyState) : Shared := { s with proxy := f s.proxy }

/-- Send a request to Docker. -/
def send (s : Shared) (out : ProxiedRequest) : Shared := { s with wire := s.wire ++ [out] }

end Shared

/-- What a request comes to for others than the proxy. -/
structure Reply where
  response : Response
  sent : Option ProxiedRequest := none
  evaluated : Option (EvaluationContext × RuleDecision) := none

def Outcome.reply (outcome : Outcome) : Reply where
  response := outcome.response
  sent := outcome.sent
  evaluated := outcome.evaluated

/-- The reply, with what the request leaves to the others. -/
def Outcome.left (outcome : Outcome) (wire : List ProxiedRequest) : Reply × Shared :=
  (outcome.reply, ⟨outcome.state, wire ++ outcome.sent.toList⟩)

/-- A `fetch_add`, or the lock of the rules' counters. -/
def counting (f : Metrics → Metrics) : Prog Shared Unit :=
  Prog.update fun s => s.on fun st => st.count f

/-- `audit.send`. -/
def recording (ev : AuditEvent) : Prog Shared Unit :=
  Prog.update fun s => s.on fun st => st.sendAudit ev

@[simp] theorem alone_counting (f : Metrics → Metrics) (s : Shared) :
    (counting f).alone s = ((), s.on fun st => st.count f) := rfl

@[simp] theorem alone_recording (ev : AuditEvent) (s : Shared) :
    (recording ev).alone s = ((), s.on fun st => st.sendAudit ev) := rfl

/-! ## §2. The counters, one after the other. -/

/-- A `load`. -/
def load {α : Type} (f : Metrics → α) : Prog Shared α := Prog.look fun s => f s.proxy.metrics

@[simp] theorem alone_load {α : Type} (f : Metrics → α) (s : Shared) :
    (load f).alone s = (f s.proxy.metrics, s) := by
  unfold load
  rw [Prog.alone_look]

/-- The buckets of the histogram. -/
def loadBuckets : List Nat → Prog Shared (List UInt64)
  | [] => pure []
  | k :: ks => do
      let b ← load fun c => c.latency.buckets.getD k 0
      let bs ← loadBuckets ks
      pure (b :: bs)

/-- The loads of `render_prometheus`, in its order. -/
def loadMetrics : Prog Shared Metrics := do
  let requestsTotal ← load fun c => c.requestsTotal
  let requestsAllowed ← load fun c => c.requestsAllowed
  let requestsDenied ← load fun c => c.requestsDenied
  let requestsDryRun ← load fun c => c.requestsDryRun
  let authFailuresTotal ← load fun c => c.authFailuresTotal
  let authLockoutsTotal ← load fun c => c.authLockoutsTotal
  let rateLimitedTotal ← load fun c => c.rateLimitedTotal
  let upstreamErrorsTotal ← load fun c => c.upstreamErrorsTotal
  let upstreamTimeoutsTotal ← load fun c => c.upstreamTimeoutsTotal
  let bodyTooLargeTotal ← load fun c => c.bodyTooLargeTotal
  let badRequestTotal ← load fun c => c.badRequestTotal
  let requestTimeoutsTotal ← load fun c => c.requestTimeoutsTotal
  let upgradeTotal ← load fun c => c.upgradeTotal
  let byRule ← load fun c => c.byRule
  let bucketCount ← load fun c => c.latency.buckets.length
  let buckets ← loadBuckets (List.range bucketCount)
  let sumMs ← load fun c => c.latency.sumMs
  let count ← load fun c => c.latency.count
  pure
    { requestsTotal, requestsAllowed, requestsDenied, requestsDryRun, authFailuresTotal,
      authLockoutsTotal, rateLimitedTotal, upstreamErrorsTotal, upstreamTimeoutsTotal,
      bodyTooLargeTotal, badRequestTotal, requestTimeoutsTotal, upgradeTotal, byRule,
      latency := { buckets, sumMs, count } }

theorem alone_loadBuckets (ks : List Nat) (s : Shared) :
    (loadBuckets ks).alone s = (ks.map fun k => s.proxy.metrics.latency.buckets.getD k 0, s) := by
  induction ks with
  | nil => rfl
  | cons k ks ih =>
      unfold loadBuckets
      simp only [Prog.alone_bind, alone_load, ih, Prog.alone_pure, List.map_cons]

@[simp] theorem alone_loadMetrics (s : Shared) : loadMetrics.alone s = (s.proxy.metrics, s) := by
  have hbuckets : (List.range s.proxy.metrics.latency.buckets.length).map
      (fun k => s.proxy.metrics.latency.buckets.getD k 0) = s.proxy.metrics.latency.buckets := by
    refine List.ext_getElem (by simp) fun k hk _ => ?_
    rw [List.getElem_map, List.getElem_range, List.getD_eq_getElem]
  unfold loadMetrics
  simp only [Prog.alone_bind, alone_load, alone_loadBuckets, hbuckets, Prog.alone_pure]

/-- `observe_upstream_latency_ms`, three additions. -/
def observeSteps (ms : UInt64) : Prog Shared Unit := do
  counting fun c => { c with latency := { c.latency with sumMs := c.latency.sumMs + ms } }
  counting fun c => { c with latency := { c.latency with count := c.latency.count + 1 } }
  counting fun c =>
    { c with
      latency :=
        { c.latency with
          buckets := c.latency.buckets.modify
            (latencyBucketsMs.findIdx fun bound => decide (ms.toNat ≤ bound)) (· + 1) } }

@[simp] theorem alone_observeSteps (ms : UInt64) (s : Shared) :
    (observeSteps ms).alone s =
      ((), s.on fun st => st.count fun c => c.observeUpstreamLatencyMs ms) := rfl

/-! ## §3. Authentication. -/

/-- A failed authentication is counted, then recorded, and a lockout that it started is
counted. -/
def recordAuthFailureSteps (authKey : String) (m : Moment) : Prog Shared Unit := do
  counting fun c => { c with authFailuresTotal := c.authFailuresTotal + 1 }
  let started ← Prog.atomically fun s =>
    let (started, al) := s.proxy.authLimiter.recordFailure m.recordedAt authKey authFailMax
      authFailWindow authFailLockout
    (started, s.on fun st => { st with authLimiter := al })
  match started with
  | true => counting fun c => { c with authLockoutsTotal := c.authLockoutsTotal + 1 }
  | false => pure ()

/-- `record_success`. -/
def recordAuthSuccessSteps (authKey : String) : Prog Shared Unit :=
  Prog.update fun s => s.on fun st => recordAuthSuccess st authKey

@[simp] theorem alone_recordAuthFailureSteps (authKey : String) (m : Moment) (s : Shared) :
    (recordAuthFailureSteps authKey m).alone s =
      ((), s.on fun st => recordAuthFailure st authKey m) := by
  unfold recordAuthFailureSteps recordAuthFailure
  rw [Prog.alone_bind, alone_counting, Prog.alone_bind, Prog.alone_atomically]
  cases h : s.proxy.authLimiter.recordFailure m.recordedAt authKey authFailMax authFailWindow
    authFailLockout with
  | mk started al =>
      cases started with
      | true => simp only [Shared.on, ProxyState.count, h, alone_counting, if_true]
      | false =>
          simp only [Shared.on, ProxyState.count, h, Prog.alone_pure, Bool.false_eq_true, if_false]

@[simp] theorem alone_recordAuthSuccessSteps (authKey : String) (s : Shared) :
    (recordAuthSuccessSteps authKey).alone s =
      ((), s.on fun st => recordAuthSuccess st authKey) := rfl

variable (deps : Externals)

/-- `authenticate`. -/
def authenticateSteps (config : ProxyConfig) (headers : HeaderMap) (peer : deps.Ip)
    (cert : Option CertIdentity) (m : Moment) : Prog Shared AuthOutcome := do
  let authKey := deps.ipToString peer
  let blocked ← Prog.look fun s => s.proxy.authLimiter.isBlocked m.checkedAt authKey
  if blocked then pure (.denied 429 "Too many authentication failures")
  else if authType config == some "none" then pure (.allowed none none)
  else if authType config == some "mtls" then
    match cert with
    | none => pure (.denied 401 "mTLS required but no client certificate presented")
    | some id =>
        match resolveMtlsRole id (config.auth.bind fun a => a.mtls) with
        | some role => do
            recordAuthSuccessSteps authKey
            pure (.allowed (some role) (id.commonName.or id.sans.head?))
        | none => do
            recordAuthFailureSteps authKey m
            pure (.denied 401 "Client certificate not authorized")
  else do
    let envSecret ← Prog.look fun s => s.proxy.envSecret
    if !isAuthStrictlyConfigured config envSecret then
      pure (.denied 401 "Authentication is not configured")
    else
      match extractBearerToken headers with
      | .ok (some token) =>
          match resolveTokenRole config envSecret token with
          | some role => do
              recordAuthSuccessSteps authKey
              pure (.allowed (some role) none)
          | none => do
              recordAuthFailureSteps authKey m
              pure (.denied 401 "Invalid token")
      | .ok none => do
          recordAuthFailureSteps authKey m
          pure (.denied 401 "Missing authorization")
      | .error () => do
          recordAuthFailureSteps authKey m
          pure (.denied 401 "Malformed authorization")

/-- **Authentication alone.** -/
theorem alone_authenticateSteps (config : ProxyConfig) (headers : HeaderMap) (peer : deps.Ip)
    (cert : Option CertIdentity) (m : Moment) (s : Shared) :
    (authenticateSteps deps config headers peer cert m).alone s =
      ((authenticate deps s.proxy config headers peer cert m).1,
        s.on fun st => (authenticate deps st config headers peer cert m).2) := by
  unfold authenticateSteps authenticate
  simp only [Prog.alone_bind, Prog.alone_look, Prog.alone_ite, Shared.on]
  split
  · rfl
  split
  · rfl
  split
  · cases cert with
    | none => rfl
    | some id =>
        dsimp only
        cases resolveMtlsRole id (config.auth.bind fun a => a.mtls) with
        | none =>
            simp only [Prog.alone_bind, alone_recordAuthFailureSteps, Prog.alone_pure, Shared.on]
        | some role => rfl
  split
  · rfl
  cases extractBearerToken headers with
  | error e => simp only [Prog.alone_bind, alone_recordAuthFailureSteps, Prog.alone_pure, Shared.on]
  | ok token =>
      cases token with
      | none =>
          simp only [Prog.alone_bind, alone_recordAuthFailureSteps, Prog.alone_pure, Shared.on]
      | some token =>
          dsimp only
          cases resolveTokenRole config s.proxy.envSecret token with
          | none =>
              simp only [Prog.alone_bind, alone_recordAuthFailureSteps, Prog.alone_pure, Shared.on]
          | some role => rfl

/-! ## §4. The rules. -/

/-- `evaluate_request_detailed`: a rule takes the limiter's lock at most once. -/
def evaluateSteps (ctx : EvaluationContext) : List Rule → (Nat → Nat) → Prog Shared RuleDecision
  | [], _ => pure RuleDecision.allow
  | rule :: rules, readings => do
      let (decision, readings) ← Prog.atomically fun s =>
        let (decision, rc) := evaluateRule deps ctx rule ⟨s.proxy.rateLimiter, readings⟩
        ((decision, rc.readings), s.on fun st => { st with rateLimiter := rc.limiter })
      match decision with
      | some decision => pure decision
      | none => evaluateSteps ctx rules readings

/-- A dry run is counted, counted under its rule, and recorded. -/
def bookDryRunSteps (call : Call) (decision : RuleDecision) : Prog Shared Unit :=
  match decision.dryRun, decision.ruleName with
  | true, some rn => do
      counting fun c => { c with requestsDryRun := c.requestsDryRun + 1 }
      counting fun c => c.recordRuleDeny rn true
      recording
        { timestamp := call.timestamp, event := "dry_run", peerIp := call.peerIp,
          method := call.method, path := call.canonicalPath, userAgent := call.userAgent,
          userRole := call.userRole, identity := call.identity, ruleName := some rn,
          ruleAction := decision.action, dryRun := true }
  | _, _ => pure ()

/-- A denial is counted under its rule and recorded. -/
def bookDenySteps (call : Call) (decision : RuleDecision) (status : UInt16) (message : String) :
    Prog Shared Unit := do
  match decision.ruleName with
  | some rn => counting fun c => c.recordRuleDeny rn false
  | none => pure ()
  recording
    { timestamp := call.timestamp, event := "deny", peerIp := call.peerIp, method := call.method,
      path := call.canonicalPath, userAgent := call.userAgent, userRole := call.userRole,
      identity := call.identity, ruleName := decision.ruleName, ruleAction := decision.action,
      status := statusCodeOr403 status, message := some message }

/-- The rules, step by step and alone, decide as they do at once. -/
theorem alone_evaluateSteps (ctx : EvaluationContext) (rules : List Rule) :
    ∀ (readings : Nat → Nat) (s : Shared), (evaluateSteps deps ctx rules readings).alone s =
      ((evaluateRequestDetailed deps rules ctx ⟨s.proxy.rateLimiter, readings⟩).1,
        s.on fun st => { st with
          rateLimiter :=
            (evaluateRequestDetailed deps rules ctx ⟨st.rateLimiter, readings⟩).2.limiter }) := by
  induction rules with
  | nil => intro readings s; rfl
  | cons rule rules ih =>
      intro readings s
      unfold evaluateSteps evaluateRequestDetailed firstStop
      rw [Prog.alone_bind, Prog.alone_atomically]
      cases h : evaluateRule deps ctx rule ⟨s.proxy.rateLimiter, readings⟩ with
      | mk decision rc =>
          cases decision with
          | some decision => simp only [h, Shared.on, Prog.alone_pure, Option.getD_some]
          | none => simp only [h, Shared.on, ih, evaluateRequestDetailed]

@[simp] theorem alone_bookDryRunSteps (call : Call) (decision : RuleDecision) (s : Shared) :
    (bookDryRunSteps call decision).alone s =
      ((), s.on fun st => bookDryRun st call decision) := by
  unfold bookDryRunSteps bookDryRun
  cases decision.dryRun with
  | false => rfl
  | true =>
      cases decision.ruleName with
      | none => rfl
      | some rn => rfl

@[simp] theorem alone_bookDenySteps (call : Call) (decision : RuleDecision) (status : UInt16)
    (message : String) (s : Shared) :
    (bookDenySteps call decision status message).alone s =
      ((), s.on fun st => bookDeny st call decision status message) := by
  unfold bookDenySteps bookDeny
  cases decision.ruleName with
  | none => rfl
  | some rn => rfl

/-! ## §5. Docker. -/

/-- Connect, shake hands, build the request and send it: the answer, or the response in
its place, and the request that was sent. -/
def exchangeSteps (docker : Docker) (call : Call) (headers : HeaderMap) (body : List UInt8) :
    Prog Shared (Except Response UpstreamResponse × Option ProxiedRequest) :=
  match docker.connect with
  | .failed => do
      counting fun c => { c with upstreamErrorsTotal := c.upstreamErrorsTotal + 1 }
      pure (.error (makeResponse 502 "docker socket unavailable"), none)
  | .timedOut => do
      counting fun c => { c with upstreamTimeoutsTotal := c.upstreamTimeoutsTotal + 1 }
      pure (.error (makeResponse 504 "docker socket connect timeout"), none)
  | .ok () =>
      if !docker.handshake then do
        counting fun c => { c with upstreamErrorsTotal := c.upstreamErrorsTotal + 1 }
        pure (.error (makeResponse 502 "docker handshake failed"), none)
      else
        match deps.uriTarget call.canonicalPathAndQuery with
        | none => pure (.error (makeResponse 502 "failed to build upstream request"), none)
        | some target => do
            let proxiedReq : ProxiedRequest :=
              { method := call.method, target := target, headers := headers, body := body }
            Prog.update fun s => s.send proxiedReq
            match docker.respond proxiedReq with
            | .failed => do
                counting fun c => { c with upstreamErrorsTotal := c.upstreamErrorsTotal + 1 }
                pure (.error (makeResponse 502 "docker request failed"), some proxiedReq)
            | .timedOut => do
                counting fun c => { c with upstreamTimeoutsTotal := c.upstreamTimeoutsTotal + 1 }
                pure (.error (makeResponse 504 "docker upstream timeout"), some proxiedReq)
            | .ok res => pure (.ok res, some proxiedReq)

/-- An exchange, step by step and alone, is the exchange at once. -/
theorem alone_exchangeSteps (docker : Docker) (call : Call) (headers : HeaderMap)
    (body : List UInt8) (s : Shared) :
    (exchangeSteps deps docker call headers body).alone s =
      (((exchange deps s.proxy docker call headers body).answer,
          (exchange deps s.proxy docker call headers body).sent),
        ⟨(exchange deps s.proxy docker call headers body).state,
          s.wire ++ (exchange deps s.proxy docker call headers body).sent.toList⟩) := by
  have hnone : s.wire ++ (none : Option ProxiedRequest).toList = s.wire := List.append_nil _
  unfold exchangeSteps exchange
  cases docker.connect with
  | failed => simp only [hnone]; rfl
  | timedOut => simp only [hnone]; rfl
  | ok _ =>
      cases docker.handshake with
      | false => simp only [Bool.not_false, if_true, hnone]; rfl
      | true =>
          simp only [Bool.not_true, Bool.false_eq_true, if_false]
          cases deps.uriTarget call.canonicalPathAndQuery with
          | none => simp only [hnone]; rfl
          | some target =>
              simp only [Prog.alone_bind, Prog.alone_update]
              cases docker.respond _ with
              | failed => rfl
              | timedOut => rfl
              | ok res => rfl

/-- `handle_upgrade`. -/
def handleUpgradeSteps (docker : Docker) (call : Call) : Prog Shared Reply := do
  let (answer, sent) ← exchangeSteps deps docker call call.upgradeHeaders []
  match answer with
  | .error response => pure { response := response, sent := sent }
  | .ok res =>
      if res.status ≠ 101 then
        let bytes := match res.body.read maxRespBodyBytes with
          | .bytes b => b
          | _ => []
        pure
          { response :=
              { status := res.status, headers := responseHeaders res.headers, body := bytes }
            sent := sent }
      else
        pure
          { response :=
              { status := res.status, headers := upgradeResponseHeaders res.headers, body := [] }
            sent := sent }

theorem alone_handleUpgradeSteps (docker : Docker) (call : Call) (s : Shared) :
    (handleUpgradeSteps deps docker call).alone s =
      (handleUpgrade deps s.proxy docker call).left s.wire := by
  unfold handleUpgradeSteps handleUpgrade
  rw [Prog.alone_bind, alone_exchangeSteps]
  dsimp only
  cases (exchange deps s.proxy docker call call.upgradeHeaders []).answer with
  | error response => rfl
  | ok res =>
      simp only [Prog.alone_ite, Prog.alone_pure]
      split
      · rfl
      · rfl

/-- Send an allowed request to Docker and filter the answer. -/
def forwardPlainSteps (docker : Docker) (call : Call) (bodyBytes : List UInt8)
    (responseFilters : List ResponseFilterEntry) (m : Moment) : Prog Shared Reply := do
  let (answer, sent) ← exchangeSteps deps docker call call.plainHeaders bodyBytes
  match answer with
  | .error response => pure { response := response, sent := sent }
  | .ok res =>
      match res.body.read maxRespBodyBytes with
      | .failed | .tooLarge => do
          counting fun c => { c with upstreamErrorsTotal := c.upstreamErrorsTotal + 1 }
          pure { response := makeResponse 502 "failed to read docker response", sent := sent }
      | .timedOut => do
          counting fun c => { c with upstreamTimeoutsTotal := c.upstreamTimeoutsTotal + 1 }
          pure { response := makeResponse 504 "docker response timeout", sent := sent }
      | .bytes responseBytes => do
          observeSteps (UInt64.ofNat (min m.upstreamElapsedMs (2 ^ 64 - 1)))
          let finalBytes :=
            if !responseFilters.isEmpty &&
                containsStr (contentType res.headers) "application/json" then
              applyResponseFilters deps responseFilters responseBytes
            else responseBytes
          counting fun c => { c with requestsAllowed := c.requestsAllowed + 1 }
          let emitted := responseHeaders res.headers
          let emittedContentType := emitted.any fun h => h.1 == "content-type"
          pure
            { response :=
                { status := res.status
                  headers := if emittedContentType then emitted
                    else emitted ++ [("content-type", .ofStr (contentType res.headers))]
                  body := finalBytes }
              sent := sent }

theorem alone_forwardPlainSteps (docker : Docker) (call : Call) (bodyBytes : List UInt8)
    (responseFilters : List ResponseFilterEntry) (m : Moment) (s : Shared) :
    (forwardPlainSteps deps docker call bodyBytes responseFilters m).alone s =
      (forwardPlain deps s.proxy docker call bodyBytes responseFilters m).left s.wire := by
  unfold forwardPlainSteps forwardPlain
  rw [Prog.alone_bind, alone_exchangeSteps]
  dsimp only
  cases (exchange deps s.proxy docker call call.plainHeaders bodyBytes).answer with
  | error response => rfl
  | ok res =>
      dsimp only
      cases res.body.read maxRespBodyBytes with
      | tooLarge => rfl
      | failed => rfl
      | timedOut => rfl
      | bytes responseBytes => rfl

/-! ## §6. The two paths. -/

/-- The branch of `handle` for a request with upgrade headers. -/
def serveUpgradeSteps (docker : Docker) (call : Call) (m : Moment) : Prog Shared Reply := do
  counting fun c => { c with upgradeTotal := c.upgradeTotal + 1 }
  let ctx := call.evalCtx none
  let decision ← evaluateSteps deps ctx call.rules m.readings
  bookDryRunSteps call decision
  match decision.result with
  | .deny status message => do
      counting fun c => { c with requestsDenied := c.requestsDenied + 1 }
      bookDenySteps call decision status message
      pure
        { response := makeResponse (statusCodeOr403 status) message
          evaluated := some (ctx, decision) }
  | .allow => do
      counting fun c => { c with requestsAllowed := c.requestsAllowed + 1 }
      let reply ← handleUpgradeSteps deps docker call
      pure { reply with evaluated := some (ctx, decision) }

theorem alone_serveUpgradeSteps (docker : Docker) (call : Call) (m : Moment) (s : Shared) :
    (serveUpgradeSteps deps docker call m).alone s =
      (serveUpgrade deps s.proxy docker call m).left s.wire := by
  have hnone : s.wire ++ (none : Option ProxiedRequest).toList = s.wire := List.append_nil _
  unfold serveUpgradeSteps serveUpgrade evaluate
  simp only [Prog.alone_bind, alone_counting, alone_evaluateSteps, alone_bookDryRunSteps]
  dsimp only [Shared.on, ProxyState.count]
  generalize evaluateRequestDetailed deps call.rules _ _ = decided
  obtain ⟨⟨result, ruleName, action, dryRun⟩, rc⟩ := decided
  cases result with
  | deny status message =>
      simp only [Prog.alone_bind, alone_counting, alone_bookDenySteps, Prog.alone_pure,
        Outcome.left, hnone]
      rfl
  | allow =>
      simp only [Prog.alone_bind, alone_counting, alone_handleUpgradeSteps, Prog.alone_pure]
      rfl

/-- Read the request's body. -/
def readBodySteps (call : Call) (body : BodyStream) :
    Prog Shared (Except Response (List UInt8 × Option JsonValue)) :=
  match body.read maxReqBodyBytes with
  | .tooLarge => do
      counting fun c => { c with bodyTooLargeTotal := c.bodyTooLargeTotal + 1 }
      pure (.error (makeResponse 413 "Request body too large"))
  | .failed => do
      counting fun c => { c with badRequestTotal := c.badRequestTotal + 1 }
      pure (.error (makeResponse 400 "Request body invalid"))
  | .timedOut => do
      counting fun c => { c with requestTimeoutsTotal := c.requestTimeoutsTotal + 1 }
      pure (.error (makeResponse 408 "Request body read timeout"))
  | .bytes bodyBytes =>
      if bodyBytes.isEmpty then pure (.ok (bodyBytes, none))
      else
        match deps.jsonFromSlice bodyBytes with
        | .ok v => pure (.ok (bodyBytes, some v))
        | .error e =>
            if requiresJsonBody call.canonicalPath then do
              counting fun c => { c with badRequestTotal := c.badRequestTotal + 1 }
              pure (.error (makeResponse 400
                ("Request body must be valid JSON for this endpoint: " ++ e)))
            else pure (.ok (bodyBytes, none))

theorem alone_readBodySteps (call : Call) (body : BodyStream) (s : Shared) :
    (readBodySteps deps call body).alone s =
      ((readBody deps s.proxy call body).1, s.on fun st => (readBody deps st call body).2) := by
  unfold readBodySteps readBody
  cases body.read maxReqBodyBytes with
  | tooLarge => rfl
  | failed => rfl
  | timedOut => rfl
  | bytes bodyBytes =>
      dsimp only
      cases bodyBytes.isEmpty with
      | true => rfl
      | false =>
          simp only [Bool.false_eq_true, if_false]
          cases deps.jsonFromSlice bodyBytes with
          | ok v => rfl
          | error e =>
              dsimp only
              cases requiresJsonBody call.canonicalPath with
              | true => rfl
              | false => rfl

/-- The rest of `handle` for any other request. -/
def servePlainSteps (docker : Docker) (call : Call) (body : BodyStream) (m : Moment) :
    Prog Shared Reply := do
  let read ← readBodySteps deps call body
  match read with
  | .error response => pure { response := response }
  | .ok (bodyBytes, bodyJson) => do
      let ctx := call.evalCtx bodyJson
      let decision ← evaluateSteps deps ctx call.rules m.readings
      bookDryRunSteps call decision
      match decision.result with
      | .deny status message => do
          counting fun c => { c with requestsDenied := c.requestsDenied + 1 }
          if decision.action == some "rate_limit" then
            counting fun c => { c with rateLimitedTotal := c.rateLimitedTotal + 1 }
          else pure ()
          bookDenySteps call decision status message
          pure
            { response := makeResponse (statusCodeOr403 status) message
              evaluated := some (ctx, decision) }
      | .allow => do
          let responseFilters := collectResponseFilters deps call.rules ctx
          let reply ← forwardPlainSteps deps docker call bodyBytes responseFilters m
          pure { reply with evaluated := some (ctx, decision) }

theorem alone_servePlainSteps (docker : Docker) (call : Call) (body : BodyStream) (m : Moment)
    (s : Shared) :
    (servePlainSteps deps docker call body m).alone s =
      (servePlain deps s.proxy docker call body m).left s.wire := by
  have hnone : s.wire ++ (none : Option ProxiedRequest).toList = s.wire := List.append_nil _
  have htaken := readBody_bodyTaken deps s.proxy call body
  unfold servePlainSteps servePlain
  rw [Prog.alone_bind, alone_readBodySteps]
  dsimp only [Shared.on]
  generalize readBody deps s.proxy call body = taken at htaken
  obtain ⟨read, st⟩ := taken
  cases read with
  | error response => simp only [Prog.alone_pure, Outcome.left, hnone]; rfl
  | ok read =>
      obtain ⟨bodyBytes, bodyJson⟩ := read
      unfold evaluate
      simp only [Prog.alone_bind, alone_evaluateSteps, alone_bookDryRunSteps]
      dsimp only [Shared.on]
      generalize evaluateRequestDetailed deps call.rules _ _ = decided
      obtain ⟨⟨result, ruleName, action, dryRun⟩, rc⟩ := decided
      cases result with
      | deny status message =>
          simp only [Prog.alone_bind, alone_counting, Prog.alone_ite, alone_bookDenySteps,
            Prog.alone_pure, Outcome.left, hnone]
          split
          · rfl
          · rfl
      | allow =>
          simp only [Prog.alone_bind, alone_forwardPlainSteps, Prog.alone_pure]
          rfl

/-! ## §7. A request. -/

/-- The first part of `handle`. -/
def receiveSteps (req : Request) (peer : deps.Ip) (cert : Option CertIdentity) (m : Moment) :
    Prog Shared (Except Response Call) := do
  counting fun c => { c with requestsTotal := c.requestsTotal + 1 }
  match canonicalizePath req.path with
  | none => do
      counting fun c => { c with badRequestTotal := c.badRequestTotal + 1 }
      pure (.error (makeResponse 400 "Malformed request path"))
  | some canonicalPath =>
      if !queryAccepted req.query then do
        counting fun c => { c with badRequestTotal := c.badRequestTotal + 1 }
        pure (.error (makeResponse 400 "Malformed query string"))
      else do
        -- the lock of the configuration is taken once; a reload comes before it or after it
        let config ← Prog.look fun s => s.proxy.config
        let outcome ← authenticateSteps deps config req.headers peer cert m
        match outcome with
        | .denied status msg => do
            counting fun c => { c with requestsDenied := c.requestsDenied + 1 }
            recording (authDeniedEvent deps req peer m canonicalPath status msg)
            pure (.error (makeResponse status msg))
        | .allowed userRole identity => do
            let metricsPath ← Prog.look fun s => s.proxy.metricsPath
            if metricsPath == some canonicalPath && req.method == "GET" then do
              let metrics ← loadMetrics
              pure (.error (makeResponseBytes 200 "text/plain; version=0.0.4; charset=utf-8"
                (asBytes metrics.renderPrometheus)))
            else pure (.ok (callFor deps req peer m config canonicalPath userRole identity))

theorem alone_receiveSteps (req : Request) (peer : deps.Ip) (cert : Option CertIdentity)
    (m : Moment) (s : Shared) :
    (receiveSteps deps req peer cert m).alone s =
      ((receive deps s.proxy req peer cert m).1,
        s.on fun st => (receive deps st req peer cert m).2) := by
  unfold receiveSteps receive
  rw [Prog.alone_bind, alone_counting]
  cases canonicalizePath req.path with
  | none => rfl
  | some canonicalPath =>
      dsimp only
      cases queryAccepted req.query with
      | false => rfl
      | true =>
          simp only [Bool.not_true, Bool.false_eq_true, if_false, Prog.alone_bind, Prog.alone_look,
            alone_authenticateSteps]
          dsimp only [Shared.on, ProxyState.count]
          generalize authenticate deps _ s.proxy.config req.headers peer cert m = authenticated
          obtain ⟨outcome, st⟩ := authenticated
          cases outcome with
          | denied status msg => rfl
          | allowed userRole identity =>
              simp only [Prog.alone_bind, Prog.alone_look, Prog.alone_ite, alone_loadMetrics,
                Prog.alone_pure]
              split
              · rfl
              · rfl

/-- **`handle`, step by step.** -/
def handleSteps (req : Request) (peer : deps.Ip) (cert : Option CertIdentity) (docker : Docker)
    (m : Moment) : Prog Shared Reply := do
  let received ← receiveSteps deps req peer cert m
  match received with
  | .error response => pure { response := response }
  | .ok call =>
      if isUpgradeRequest req.headers then serveUpgradeSteps deps docker call m
      else servePlainSteps deps docker call req.body m

/-- **Alone, the steps of a request are `handle`**: the same reply, the same state of the
proxy, and on the wire what `handle` sends. -/
theorem alone_handleSteps (req : Request) (peer : deps.Ip) (cert : Option CertIdentity)
    (docker : Docker) (m : Moment) (s : Shared) :
    (handleSteps deps req peer cert docker m).alone s =
      (handle deps s.proxy req peer cert docker m).left s.wire := by
  have hnone : s.wire ++ (none : Option ProxiedRequest).toList = s.wire := List.append_nil _
  unfold handleSteps handle
  rw [Prog.alone_bind, alone_receiveSteps]
  dsimp only [Shared.on]
  generalize receive deps s.proxy req peer cert m = received
  obtain ⟨received, st⟩ := received
  cases received with
  | error response => simp only [Prog.alone_pure, Outcome.left, hnone]; rfl
  | ok call =>
      simp only [Prog.alone_ite, alone_serveUpgradeSteps, alone_servePlainSteps]
      split
      · rfl
      · rfl

end DockerProxy.Proxy
