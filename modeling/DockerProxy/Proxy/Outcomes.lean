/-
  DockerProxy.Proxy.Outcomes — all that can become of a request.

  `handle` returns from many places.  Each of its parts gets one relation that lists
  the ways it can end, with what was found to be so on the way and the state that is left
  behind, and one lemma that says the list is complete:

    • `receive_received` — `handle` up to the choice of a path,
    • `exchange_exchanged` — talking to Docker,
    • `readBody_bodyTaken` — reading the request's body,
    • `serveUpgrade_served`, `servePlain_served` — the two paths.

  What holds of every request is then shown by cases on these.
-/
import DockerProxy.Proxy.Handle

namespace DockerProxy.Proxy

open DockerProxy.Lib DockerProxy.Path DockerProxy.Limiter DockerProxy.Rules

/-- The counter of all requests. -/
def ProxyState.counted (st : ProxyState) : ProxyState :=
  st.count fun c => { c with requestsTotal := c.requestsTotal + 1 }

/-- Counted as too large a body. -/
def ProxyState.bodyTooLarge (st : ProxyState) : ProxyState :=
  st.count fun c => { c with bodyTooLargeTotal := c.bodyTooLargeTotal + 1 }

/-- Counted as a body that did not arrive. -/
def ProxyState.requestTimeout (st : ProxyState) : ProxyState :=
  st.count fun c => { c with requestTimeoutsTotal := c.requestTimeoutsTotal + 1 }

/-- Counted as an upgrade. -/
def ProxyState.upgraded (st : ProxyState) : ProxyState :=
  st.count fun c => { c with upgradeTotal := c.upgradeTotal + 1 }

/-- Counted as refused by a rate limit, if it was. -/
def ProxyState.limitedBy (st : ProxyState) (decision : RuleDecision) : ProxyState :=
  if decision.action == some "rate_limit" then
    st.count fun c => { c with rateLimitedTotal := c.rateLimitedTotal + 1 }
  else st

variable (deps : Externals)

/-- The trusted networks of a configuration. -/
def trustedProxiesOf (config : ProxyConfig) : List deps.Net :=
  ((config.global.bind fun g => g.trustedProxies).map (parseTrustedProxies deps)).getD []

/-! ## §1. Receiving. -/

/-- The call of a received request. -/
def callFor (req : Request) (peer : deps.Ip) (m : Moment) (config : ProxyConfig)
    (canonicalPath : String) (userRole identity : Option String) : Call where
  method := req.method
  canonicalPath := canonicalPath
  canonicalPathAndQuery := canonicalPathAndQuery canonicalPath req.query
  userAgent := (req.headers.getStr "user-agent").getD "-"
  userRole := userRole
  identity := identity
  peerIp := deps.ipToString peer
  clientIp := deps.ipToString (computeClientIp deps peer req.headers (trustedProxiesOf deps config))
  headerMap := ruleHeaders req.headers
  forwardHeaders := forwardHeaders req.headers
  upgradeValue := req.headers.getStr "upgrade"
  rules := config.rules.getD []
  timestamp := m.timestamp

/-- The record of a request that is not authenticated. -/
def authDeniedEvent (req : Request) (peer : deps.Ip) (m : Moment) (canonicalPath : String)
    (status : UInt16) (message : String) : AuditEvent where
  timestamp := m.timestamp
  event := "auth_denied"
  peerIp := deps.ipToString peer
  method := req.method
  path := canonicalPath
  userAgent := (req.headers.getStr "user-agent").getD "-"
  status := status
  message := some message

section

variable (st : ProxyState) (req : Request) (peer : deps.Ip) (cert : Option CertIdentity)
variable (m : Moment)

/-- The authentication of a request, by the configuration that is current. -/
def authenticated : AuthOutcome × ProxyState :=
  authenticate deps st.counted st.config req.headers peer cert m

/-- **All that receiving can come to.** -/
inductive Received : Except Response Call × ProxyState → Prop where
  /-- The path or the query is malformed. -/
  | badRequest (text : String)
      (h : canonicalizePath req.path = none ∨ queryAccepted req.query = false) :
      Received (.error (makeResponse 400 text), st.counted.badRequest)
  /-- The caller is not authenticated. -/
  | denied {p : String} {status : UInt16} {message : String} {st' : ProxyState}
      (hpath : canonicalizePath req.path = some p) (hquery : queryAccepted req.query = true)
      (hauth : authenticated deps st req peer cert m = (.denied status message, st')) :
      Received (.error (makeResponse status message),
        st'.denied.sendAudit (authDeniedEvent deps req peer m p status message))
  /-- The metrics are asked for. -/
  | metrics {p : String} {role identity : Option String} {st' : ProxyState}
      (hpath : canonicalizePath req.path = some p) (hquery : queryAccepted req.query = true)
      (hauth : authenticated deps st req peer cert m = (.allowed role identity, st'))
      (hmetrics : st'.metricsPath = some p ∧ req.method = "GET") :
      Received (.error (makeResponseBytes 200 "text/plain; version=0.0.4; charset=utf-8"
        (asBytes st'.metrics.renderPrometheus)), st')
  /-- The request is to be served. -/
  | call {p : String} {role identity : Option String} {st' : ProxyState}
      (hpath : canonicalizePath req.path = some p) (hquery : queryAccepted req.query = true)
      (hauth : authenticated deps st req peer cert m = (.allowed role identity, st'))
      (hmetrics : ¬ (st'.metricsPath = some p ∧ req.method = "GET")) :
      Received (.ok (callFor deps req peer m st.config p role identity), st')

theorem receive_received :
    Received deps st req peer cert m (receive deps st req peer cert m) := by
  unfold receive
  dsimp only
  split
  next hpath => exact .badRequest _ (Or.inl hpath)
  next p hpath =>
    split
    next hquery =>
      rw [Bool.not_eq_true'] at hquery
      exact .badRequest _ (Or.inr hquery)
    next hquery =>
      rw [Bool.not_eq_true', Bool.not_eq_false] at hquery
      split
      next hauth => exact .denied hpath hquery hauth
      next hauth =>
        simp only [Bool.and_eq_true, beq_iff_eq]
        split
        next hmetrics => exact .metrics hpath hquery hauth hmetrics
        next hmetrics => exact .call hpath hquery hauth hmetrics

end

/-! ## §2. Talking to Docker. -/

section

variable (st : ProxyState) (docker : Docker) (call : Call)

/-- **All that an exchange can come to.** -/
inductive Exchanged : Exchange → Prop where
  /-- Docker is not there, or breaks off. -/
  | failed (response : Response) (sent : Option ProxiedRequest) :
      Exchanged { answer := .error response, sent := sent, state := st.upstreamError }
  /-- Docker takes too long. -/
  | timedOut (response : Response) (sent : Option ProxiedRequest) :
      Exchanged { answer := .error response, sent := sent, state := st.upstreamTimeout }
  /-- The request cannot be built; nothing is counted. -/
  | unbuilt (response : Response) (h : deps.uriTarget call.canonicalPathAndQuery = none) :
      Exchanged { answer := .error response, state := st }
  | answered (res : UpstreamResponse) (out : ProxiedRequest) :
      Exchanged { answer := .ok res, sent := some out, state := st }

theorem exchange_exchanged (headers : HeaderMap) (body : List UInt8) :
    Exchanged deps st call (exchange deps st docker call headers body) := by
  unfold exchange
  cases docker.connect with
  | failed => exact .failed _ _
  | timedOut => exact .timedOut _ _
  | ok _ =>
      cases docker.handshake with
      | false => exact .failed _ _
      | true =>
          simp only [Bool.not_true, Bool.false_eq_true, if_false]
          cases htarget : deps.uriTarget call.canonicalPathAndQuery with
          | none => exact .unbuilt _ htarget
          | some target =>
              dsimp only
              split
              · exact .failed _ _
              · exact .timedOut _ _
              · exact .answered _ _

/-- On the upgrade path nothing is counted after the exchange. -/
theorem handleUpgrade_exchanged :
    ∃ ex, Exchanged deps st call ex ∧ (handleUpgrade deps st docker call).state = ex.state ∧
      (handleUpgrade deps st docker call).sent = ex.sent := by
  refine ⟨_, exchange_exchanged deps st docker call call.upgradeHeaders [], ?_, ?_⟩
  · unfold handleUpgrade
    dsimp only
    split
    · rfl
    · split <;> rfl
  · exact handleUpgrade_sent deps st docker call

/-- **All that an allowed request on the plain path can leave behind.** -/
inductive Forwarded : ProxyState → Prop where
  | failed : Forwarded st.upstreamError
  | timedOut : Forwarded st.upstreamTimeout
  | unbuilt (h : deps.uriTarget call.canonicalPathAndQuery = none) : Forwarded st
  /-- The answer was read in full. -/
  | answered (ms : UInt64) :
      Forwarded (st.count fun c => c.observeUpstreamLatencyMs ms).allowed

theorem forwardPlain_forwarded (bodyBytes : List UInt8) (filters : List ResponseFilterEntry)
    (m : Moment) :
    Forwarded deps st call (forwardPlain deps st docker call bodyBytes filters m).state := by
  have hexchanged := exchange_exchanged deps st docker call call.plainHeaders bodyBytes
  unfold forwardPlain
  dsimp only
  generalize exchange deps st docker call call.plainHeaders bodyBytes = ex at hexchanged ⊢
  cases hexchanged with
  | failed response sent => exact .failed
  | timedOut response sent => exact .timedOut
  | unbuilt response h => exact .unbuilt h
  | answered res out =>
      dsimp only
      split
      · exact .failed
      · exact .failed
      · exact .timedOut
      · exact .answered _

end

/-! ## §3. The two paths. -/

/-- The document that a body is, if it is one. -/
def documentOf (bytes : List UInt8) : Option JsonValue :=
  if bytes.isEmpty then none else (deps.jsonFromSlice bytes).toOption

section

variable (st : ProxyState) (docker : Docker) (call : Call) (body : BodyStream) (m : Moment)

/-- The body may not go on: it cannot be read, or must be a document and is none. -/
def BodyRefused : Prop :=
  ∀ bytes, body.read maxReqBodyBytes = .bytes bytes →
    requiresJsonBody call.canonicalPath = true ∧ bytes ≠ [] ∧ documentOf deps bytes = none

/-- **All that reading the body can come to.** -/
inductive BodyTaken : Except Response (List UInt8 × Option JsonValue) × ProxyState → Prop where
  | tooLarge (response : Response) (h : BodyRefused deps call body) :
      BodyTaken (.error response, st.bodyTooLarge)
  | bad (response : Response) (h : BodyRefused deps call body) :
      BodyTaken (.error response, st.badRequest)
  | timedOut (response : Response) (h : BodyRefused deps call body) :
      BodyTaken (.error response, st.requestTimeout)
  | taken (bytes : List UInt8) (hread : body.read maxReqBodyBytes = .bytes bytes)
      (hrequired : requiresJsonBody call.canonicalPath = true → bytes ≠ [] →
        (documentOf deps bytes).isSome = true) :
      BodyTaken (.ok (bytes, documentOf deps bytes), st)

theorem readBody_bodyTaken : BodyTaken deps st call body (readBody deps st call body) := by
  unfold readBody
  cases hread : body.read maxReqBodyBytes with
  | tooLarge => exact .tooLarge _ fun bytes h => absurd (hread.symm.trans h) (by simp)
  | failed => exact .bad _ fun bytes h => absurd (hread.symm.trans h) (by simp)
  | timedOut => exact .timedOut _ fun bytes h => absurd (hread.symm.trans h) (by simp)
  | bytes bytes =>
      dsimp only
      cases hempty : bytes.isEmpty with
      | true =>
          have hdocument : documentOf deps bytes = none := if_pos hempty
          rw [if_pos rfl, ← hdocument]
          exact .taken bytes hread fun _ hne => absurd (List.isEmpty_iff.mp hempty) hne
      | false =>
          have hdocument : documentOf deps bytes = (deps.jsonFromSlice bytes).toOption :=
            if_neg (by rw [hempty]; exact Bool.false_ne_true)
          have hne : bytes ≠ [] := by
            rintro rfl
            exact absurd hempty (by decide)
          rw [if_neg Bool.false_ne_true]
          cases hjson : deps.jsonFromSlice bytes with
          | ok v =>
              have hsome : documentOf deps bytes = some v := by rw [hdocument, hjson]; rfl
              dsimp only
              rw [← hsome]
              exact .taken bytes hread fun _ _ => by rw [hsome]; rfl
          | error e =>
              have hnone : documentOf deps bytes = none := by rw [hdocument, hjson]; rfl
              dsimp only
              cases hrequires : requiresJsonBody call.canonicalPath with
              | true =>
                  rw [if_pos rfl]
                  refine .bad _ fun bytes' h => ?_
                  obtain rfl := BodyRead.bytes.inj (hread.symm.trans h)
                  exact ⟨hrequires, hne, hnone⟩
              | false =>
                  rw [if_neg Bool.false_ne_true, ← hnone]
                  refine .taken bytes hread fun h => ?_
                  rw [hrequires] at h
                  exact absurd h Bool.false_ne_true

/-- The decision of a call's rules on a context, and the limiter that they leave. -/
def decided (ctx : EvaluationContext) : RuleDecision × RateClock :=
  evaluateRequestDetailed deps call.rules ctx ⟨st.rateLimiter, m.readings⟩

/-- The state after the rules, with a dry run on the books. -/
def afterRules (ctx : EvaluationContext) : ProxyState :=
  let (decision, rc) := decided deps st call m ctx
  bookDryRun { st with rateLimiter := rc.limiter } call decision

/-- **All that the upgrade path can come to.** -/
inductive UpgradeServed : Outcome → Prop where
  | denied {decision : RuleDecision} {status : UInt16} {message : String}
      (hdecision : (decided deps st.upgraded call m (call.evalCtx none)).1 = decision)
      (hdeny : decision.result = .deny status message) :
      UpgradeServed
        { response := makeResponse (statusCodeOr403 status) message
          evaluated := some (call.evalCtx none, decision)
          state := bookDeny (afterRules deps st.upgraded call m (call.evalCtx none)).denied call
            decision status message }
  | allowed {decision : RuleDecision}
      (hdecision : (decided deps st.upgraded call m (call.evalCtx none)).1 = decision)
      (hallow : decision.result = .allow) :
      UpgradeServed
        { handleUpgrade deps (afterRules deps st.upgraded call m (call.evalCtx none)).allowed
            docker call with
          evaluated := some (call.evalCtx none, decision) }

theorem serveUpgrade_served :
    UpgradeServed deps st docker call m (serveUpgrade deps st docker call m) := by
  unfold serveUpgrade
  dsimp only
  split
  next hdeny => exact .denied rfl hdeny
  next hallow => exact .allowed rfl hallow

/-- **All that the plain path can come to.** -/
inductive PlainServed : Outcome → Prop where
  /-- The body is rejected. -/
  | rejected {response : Response} {st' : ProxyState}
      (hbody : readBody deps st call body = (.error response, st')) :
      PlainServed { response := response, state := st' }
  | denied {bytes : List UInt8} {json : Option JsonValue} {decision : RuleDecision}
      {status : UInt16} {message : String}
      (hbody : readBody deps st call body = (.ok (bytes, json), st))
      (hdecision : (decided deps st call m (call.evalCtx json)).1 = decision)
      (hdeny : decision.result = .deny status message) :
      PlainServed
        { response := makeResponse (statusCodeOr403 status) message
          evaluated := some (call.evalCtx json, decision)
          state := bookDeny
            ((afterRules deps st call m (call.evalCtx json)).denied.limitedBy decision) call
            decision status message }
  | allowed {bytes : List UInt8} {json : Option JsonValue} {decision : RuleDecision}
      (hbody : readBody deps st call body = (.ok (bytes, json), st))
      (hdecision : (decided deps st call m (call.evalCtx json)).1 = decision)
      (hallow : decision.result = .allow) :
      PlainServed
        { forwardPlain deps (afterRules deps st call m (call.evalCtx json)) docker call bytes
            (collectResponseFilters deps call.rules (call.evalCtx json)) m with
          evaluated := some (call.evalCtx json, decision) }

theorem servePlain_served :
    PlainServed deps st docker call body m (servePlain deps st docker call body m) := by
  have htaken := readBody_bodyTaken deps st call body
  unfold servePlain
  split
  next response st' hbody => exact .rejected hbody
  next bytes json st' hbody =>
    rw [hbody] at htaken
    -- reading the body leaves the state as it is
    have hst : st' = st := by cases htaken; rfl
    subst hst
    dsimp only
    split
    next hdeny => exact .denied hbody rfl hdeny
    next hallow => exact .allowed hbody rfl hallow

end

end DockerProxy.Proxy
