/-
  DockerProxy.Proxy.Filtering — which responses reach the client filtered.

  The plain path applies the filters of the matching rules to every JSON
  response.  The upgrade path hands the response of a Docker that does not
  switch protocols through as it is, so a client that adds upgrade headers to
  its request gets what the filters were to hide
  (`handle_filters_iff`, `handle_filters_bypassed`).
-/
import DockerProxy.Proxy.Handle

namespace DockerProxy.Proxy

open DockerProxy.Lib DockerProxy.Limiter DockerProxy.Rules

variable (deps : Externals)

/-! ## §1. The body on each path. -/

/-- The upgrade path hands the body through. -/
theorem handleUpgrade_body {st : ProxyState} {docker : Docker} {call : Call} {out : ProxiedRequest}
    {res : UpstreamResponse} {body : List UInt8}
    (hsent : (handleUpgrade deps st docker call).sent = some out)
    (hres : docker.respond out = .ok res) (hstatus : res.status ≠ 101)
    (hbody : res.body.read maxRespBodyBytes = .bytes body) :
    (handleUpgrade deps st docker call).response.body = body := by
  rw [handleUpgrade_sent] at hsent
  have hanswer := exchange_answer deps hsent hres
  unfold handleUpgrade
  simp only [hanswer, if_pos hstatus, hbody]

/-- The plain path filters a JSON body. -/
theorem forwardPlain_body {st : ProxyState} {docker : Docker} {call : Call}
    {bodyBytes : List UInt8} {filters : List ResponseFilterEntry} {m : Moment}
    {out : ProxiedRequest} {res : UpstreamResponse} {body : List UInt8}
    (hsent : (forwardPlain deps st docker call bodyBytes filters m).sent = some out)
    (hres : docker.respond out = .ok res)
    (hjson : containsStr (contentType res.headers) "application/json" = true)
    (hbody : res.body.read maxRespBodyBytes = .bytes body) :
    (forwardPlain deps st docker call bodyBytes filters m).response.body =
      applyResponseFilters deps filters body := by
  rw [forwardPlain_sent] at hsent
  have hanswer := exchange_answer deps hsent hres
  unfold forwardPlain
  simp only [hanswer, hbody, hjson, Bool.and_true]
  cases filters with
  | nil => exact (applyResponseFilters_nil deps body).symm
  | cons f fs => rfl

/-! ## §2. The body on both. -/

/-- **Which responses are filtered, exactly.**  For an allowed request that Docker
answers with a JSON document, without switching protocols, the client gets the
filtered body if and only if the request carries no upgrade headers or the rules
do not rewrite the body. -/
theorem handle_filters_iff {st : ProxyState} {req : Request} {peer : deps.Ip}
    {cert : Option CertIdentity} {docker : Docker} {m : Moment} {ctx : EvaluationContext}
    {decision : RuleDecision} {out : ProxiedRequest} {res : UpstreamResponse} {body : List UInt8}
    (hctx : (handle deps st req peer cert docker m).evaluated = some (ctx, decision))
    (hsent : (handle deps st req peer cert docker m).sent = some out)
    (hres : docker.respond out = .ok res) (hstatus : res.status ≠ 101)
    (hjson : containsStr (contentType res.headers) "application/json" = true)
    (hbody : res.body.read maxRespBodyBytes = .bytes body) :
    (handle deps st req peer cert docker m).response.body =
        applyResponseFilters deps
          (collectResponseFilters deps (st.config.rules.getD []) ctx) body ↔
      isUpgradeRequest req.headers = false ∨
        ¬ Rewrites deps (st.config.rules.getD []) ctx body := by
  obtain ⟨call, st₁, st', d, hreceive, -, hpath⟩ := handle_of_sent deps hsent
  obtain ⟨-, -, -, -, -, -, hrules⟩ := receive_ok deps hreceive
  rw [← hrules]
  obtain ⟨hup, hserve⟩ | ⟨hup, bodyBytes, bodyJson, -, hserve⟩ := hpath
  · rw [hserve] at hctx hsent ⊢
    simp only [Option.some.injEq, Prod.mk.injEq] at hctx
    rw [hup, ← hctx.1]
    -- the body is handed through, so it has to be its own filtered version
    have hthrough := handleUpgrade_body deps hsent hres hstatus hbody
    show (handleUpgrade deps st' docker call).response.body = _ ↔ _
    rw [hthrough, ← applyResponseFilters_ne_iff, not_not, eq_comm]
    simp
  · -- the plain path filters with the rules and the context it evaluated
    rw [hserve] at hctx hsent ⊢
    simp only [Option.some.injEq, Prod.mk.injEq] at hctx
    rw [hup, ← hctx.1]
    simp only [true_or, iff_true]
    exact forwardPlain_body deps hsent hres hjson hbody

/-! ## §3. A field that upgrade headers bring back. -/

/-- A proxy without authentication whose one rule redacts `Env` in the inspection
of a container. -/
def redactingState : ProxyState where
  config :=
    { auth := some { authType := some "none" }
      rules := some
        [{ name := "hide-env", action := "response_filter"
           conditions := [.leaf
             { field := "path", operator := "starts_with", value := some (.string "/containers/") }]
           responseFilter := some [{ field := "Env", action := "redact" }] }] }
  envSecret := ""
  rateLimiter := RateLimiter.new
  authLimiter := AuthLimiter.new
  metrics := {}
  audit := none
  metricsPath := none

/-- The inspection of a container, with some headers. -/
def inspectRequest (headers : HeaderMap) : Request where
  method := "GET"
  path := "/containers/web/json"
  query := none
  headers := headers
  body := ⟨[], .complete⟩

/-- The headers that ask for a switch of protocols. -/
def upgradeHeaders : HeaderMap :=
  [("connection", .ofStr "Upgrade"), ("upgrade", .ofStr "tcp")]

/-- Docker's answer to the inspection. -/
def inspectResponse : UpstreamResponse where
  status := 200
  headers := [("content-type", .ofStr "application/json")]
  body := ⟨asBytes (oneField "Env" "hunter2"), .complete⟩

/-- A Docker that answers every request so. -/
def inspectDocker : Docker where
  connect := .ok ()
  handshake := true
  respond _ := .ok inspectResponse

/-- The inspection of the container, served. -/
def inspect (headers : HeaderMap) : Outcome :=
  handle Externals.sample redactingState (inspectRequest headers) () none inspectDocker momentZero

/-- **Upgrade headers bring the redacted field back.**  The rules allow the request
and their filters redact `Env`; the client gets it all the same. -/
theorem handle_filters_bypassed :
    (inspectResponse.status ≠ 101 ∧
      containsStr (contentType inspectResponse.headers) "application/json" = true) ∧
    ((inspect upgradeHeaders).evaluated.map fun e => (e.2.result,
        applyResponseFilters Externals.sample
          (collectResponseFilters Externals.sample (redactingState.config.rules.getD []) e.1)
          inspectResponse.body.bytes)) =
        some (.allow, asBytes (oneField "Env" "***REDACTED***")) ∧
      (inspect upgradeHeaders).sent.isSome = true ∧
      (inspect upgradeHeaders).response.body = asBytes (oneField "Env" "hunter2") ∧
      (inspect []).response.body = asBytes (oneField "Env" "***REDACTED***") := by
  decide +kernel

/-- Without them the client gets the filtered body. -/
theorem handle_filters_inspect :
    ∃ ctx decision, (inspect []).evaluated = some (ctx, decision) ∧
      ((inspect []).response.body =
          applyResponseFilters Externals.sample
            (collectResponseFilters Externals.sample (redactingState.config.rules.getD []) ctx)
            (asBytes (oneField "Env" "hunter2")) ↔
        isUpgradeRequest (inspectRequest []).headers = false ∨
          ¬ Rewrites Externals.sample (redactingState.config.rules.getD []) ctx
            (asBytes (oneField "Env" "hunter2"))) := by
  have hsome : (inspect []).evaluated.isSome = true := by decide +kernel
  obtain ⟨⟨ctx, decision⟩, hctx⟩ := Option.isSome_iff_exists.mp hsome
  have hsent : (inspect []).sent = some
      { method := "GET", target := "/containers/web/json"
        headers := [("host", .ofStr "docker.proxy"), ("connection", .ofStr "close")]
        body := [] } := by decide +kernel
  have hjson : containsStr (contentType inspectResponse.headers) "application/json" = true := by
    decide +kernel
  have hbody : inspectResponse.body.read maxRespBodyBytes =
      .bytes (asBytes (oneField "Env" "hunter2")) := by
    decide +kernel
  unfold inspect at hctx hsent ⊢
  exact ⟨ctx, decision, hctx,
    @handle_filters_iff Externals.sample redactingState (inspectRequest []) () none inspectDocker
      momentZero ctx decision _ inspectResponse _ hctx hsent rfl (by decide) hjson hbody⟩

end DockerProxy.Proxy
