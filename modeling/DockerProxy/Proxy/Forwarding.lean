/-
  DockerProxy.Proxy.Forwarding — what Docker gets of a request, and what the
  client gets when Docker's answer breaks off.

  The two paths of `handle` build the request to Docker and read its response
  each on its own.  They agree on the method and on the target.  They differ in

    • the request's body: the upgrade path sends an empty one
      (`handle_forwards_iff`);
    • a response whose body cannot be read: the upgrade path sends Docker's
      status with an empty body (`handle_reports_iff`).
-/
import DockerProxy.Proxy.Filtering

namespace DockerProxy.Proxy

open DockerProxy.Lib DockerProxy.Path DockerProxy.Limiter DockerProxy.Rules

variable (deps : Externals)

/-! ## §1. The request that Docker gets. -/

/-- Docker gets the client's request: its method, its canonical target and the
bytes of its body. -/
def ForwardsFaithfully (req : Request) (out : ProxiedRequest) : Prop :=
  out.method = req.method ∧
    (∃ canonicalPath, canonicalizePath req.path = some canonicalPath ∧
      deps.uriTarget (canonicalPathAndQuery canonicalPath req.query) = some out.target) ∧
    out.body = req.body.bytes

/-- A body that was read is the body that arrived. -/
theorem BodyStream.read_bytes {body : BodyStream} {limit : Nat} {bs : List UInt8}
    (h : body.read limit = .bytes bs) : bs = body.bytes := by
  unfold BodyStream.read at h
  split at h
  · exact absurd h (by simp)
  · split at h
    · injection h with h
      exact h.symm
    · exact absurd h (by simp)
    · exact absurd h (by simp)

/-- What is sent, on either path: the request line of the client, its forwarded
headers among the others, and on the plain path its body. -/
theorem handle_sent_request {st : ProxyState} {req : Request} {peer : deps.Ip}
    {cert : Option CertIdentity} {docker : Docker} {m : Moment} {out : ProxiedRequest}
    (hsent : (handle deps st req peer cert docker m).sent = some out) :
    out.method = req.method ∧
      (∃ canonicalPath, canonicalizePath req.path = some canonicalPath ∧
        deps.uriTarget (canonicalPathAndQuery canonicalPath req.query) = some out.target) ∧
      forwardHeaders req.headers <:+ out.headers ∧
      out.body = if isUpgradeRequest req.headers then [] else req.body.bytes := by
  obtain ⟨call, st₁, st', d, hreceive, -, hpath⟩ := handle_of_sent deps hsent
  obtain ⟨canonicalPath, hcanonical, htarget, hmethod, -, hforward, -⟩ := receive_ok deps hreceive
  have htargets : ∀ target, deps.uriTarget call.canonicalPathAndQuery = some target →
      ∃ canonicalPath, canonicalizePath req.path = some canonicalPath ∧
        deps.uriTarget (canonicalPathAndQuery canonicalPath req.query) = some target :=
    fun target h => ⟨canonicalPath, hcanonical, htarget ▸ h⟩
  rw [← hmethod, ← hforward]
  obtain ⟨hup, hserve⟩ | ⟨hup, bodyBytes, bodyJson, hread, hserve⟩ := hpath
  · rw [hserve] at hsent
    have hsent : (exchange deps st' docker call call.upgradeHeaders []).sent = some out := by
      rw [← handleUpgrade_sent]
      exact hsent
    obtain ⟨htarget, hmethod, hheaders, hbody⟩ := exchange_request deps hsent
    rw [hup, hheaders, hbody]
    exact ⟨hmethod, htargets _ htarget, List.suffix_append _ _, rfl⟩
  · rw [hserve] at hsent
    have hsent : (exchange deps st' docker call call.plainHeaders bodyBytes).sent = some out := by
      rw [← forwardPlain_sent]
      exact hsent
    obtain ⟨htarget, hmethod, hheaders, hbody⟩ := exchange_request deps hsent
    rw [hup, hheaders, hbody]
    exact ⟨hmethod, htargets _ htarget, List.suffix_append _ _,
      BodyStream.read_bytes hread⟩

/-- **Which requests reach Docker whole, exactly**: those without upgrade headers,
and those without a body.  A request of the plain path that is sent was read in
full, so its body is within the limit. -/
theorem handle_forwards_iff {st : ProxyState} {req : Request} {peer : deps.Ip}
    {cert : Option CertIdentity} {docker : Docker} {m : Moment} {out : ProxiedRequest}
    (hsent : (handle deps st req peer cert docker m).sent = some out) :
    ForwardsFaithfully deps req out ↔
      isUpgradeRequest req.headers = false ∨ req.body.bytes = [] := by
  obtain ⟨hmethod, htarget, -, hbody⟩ := handle_sent_request deps hsent
  have hfaithful : ForwardsFaithfully deps req out ↔ out.body = req.body.bytes := by
    show _ ∧ _ ∧ _ ↔ _
    simp only [hmethod, htarget, true_and]
  rw [hfaithful, hbody]
  cases hup : isUpgradeRequest req.headers with
  | false => simp
  | true => simp [eq_comm]

/-! ## §2. A command whose body is lost. -/

/-- A proxy without authentication and without rules. -/
def openState : ProxyState where
  config := { auth := some { authType := some "none" } }
  envSecret := ""
  rateLimiter := RateLimiter.new
  authLimiter := AuthLimiter.new
  metrics := {}
  audit := none
  metricsPath := none

/-- Start a command in a container; its body is an empty JSON object. -/
def execRequest (headers : HeaderMap) : Request where
  method := "POST"
  path := "/exec/1/start"
  query := none
  headers := headers
  body := ⟨asBytes "\x7b\x7d", .complete⟩

/-- The command, served. -/
def execStart (headers : HeaderMap) : Outcome :=
  handle Externals.sample openState (execRequest headers) () none inspectDocker momentZero

/-- **The upgrade path drops the body** of an allowed request within the limit. -/
theorem handle_forwards_dropped :
    (execRequest upgradeHeaders).body.read maxReqBodyBytes = .bytes (asBytes "\x7b\x7d") ∧
    ((execStart upgradeHeaders).evaluated.map fun e => e.2.result) = some .allow ∧
    (execStart upgradeHeaders).sent.map ProxiedRequest.body = some [] ∧
    (execStart []).sent.map ProxiedRequest.body = some (asBytes "\x7b\x7d") := by
  decide +kernel

/-- Without the upgrade headers the body arrives. -/
theorem handle_forwards_exec :
    ∃ out, (execStart []).sent = some out ∧
      (ForwardsFaithfully Externals.sample (execRequest []) out ↔
        isUpgradeRequest (execRequest []).headers = false ∨ (execRequest []).body.bytes = []) := by
  have hsome : (execStart []).sent.isSome = true := by decide +kernel
  obtain ⟨out, hsent⟩ := Option.isSome_iff_exists.mp hsome
  unfold execStart at hsent ⊢
  exact ⟨out, hsent, handle_forwards_iff Externals.sample hsent⟩

/-! ## §3. A response of Docker's that cannot be read. -/

/-- The proxy's own answer in place of a response it could not read. -/
def ReportsBodyFailure (response : Response) : Prop :=
  response = makeResponse 502 "failed to read docker response" ∨
    response = makeResponse 504 "docker response timeout"

/-- The upgrade path hands on the status and the headers alone. -/
theorem handleUpgrade_unreadable {st : ProxyState} {docker : Docker} {call : Call}
    {out : ProxiedRequest} {res : UpstreamResponse}
    (hsent : (handleUpgrade deps st docker call).sent = some out)
    (hres : docker.respond out = .ok res) (hstatus : res.status ≠ 101)
    (hfail : ∀ bs, res.body.read maxRespBodyBytes ≠ .bytes bs) :
    (handleUpgrade deps st docker call).response =
      { status := res.status, headers := responseHeaders res.headers, body := [] } := by
  rw [handleUpgrade_sent] at hsent
  have hanswer := exchange_answer deps hsent hres
  unfold handleUpgrade
  -- by `hfail` the match on the body takes its catch-all arm
  simp only [hanswer, if_pos hstatus]

/-- The plain path reports the failure. -/
theorem forwardPlain_unreadable {st : ProxyState} {docker : Docker} {call : Call}
    {bodyBytes : List UInt8} {filters : List ResponseFilterEntry} {m : Moment}
    {out : ProxiedRequest} {res : UpstreamResponse}
    (hsent : (forwardPlain deps st docker call bodyBytes filters m).sent = some out)
    (hres : docker.respond out = .ok res)
    (hfail : ∀ bs, res.body.read maxRespBodyBytes ≠ .bytes bs) :
    ReportsBodyFailure (forwardPlain deps st docker call bodyBytes filters m).response := by
  rw [forwardPlain_sent] at hsent
  have hanswer := exchange_answer deps hsent hres
  unfold forwardPlain
  simp only [hanswer]
  cases hread : res.body.read maxRespBodyBytes with
  | bytes bs => exact absurd hread (hfail bs)
  | tooLarge => exact Or.inl rfl
  | failed => exact Or.inl rfl
  | timedOut => exact Or.inr rfl

/-- Docker's status over an empty body is no report of a failure. -/
theorem not_reportsBodyFailure_of_empty {response : Response} (h : response.body = []) :
    ¬ ReportsBodyFailure response := by
  intro hreport
  have h502 : (makeResponse 502 "failed to read docker response").body ≠ [] := by decide +kernel
  have h504 : (makeResponse 504 "docker response timeout").body ≠ [] := by decide +kernel
  cases hreport with
  | inl heq => rw [heq] at h; exact h502 h
  | inr heq => rw [heq] at h; exact h504 h

/-- **Which unreadable responses are reported, exactly.**  When Docker answers
without switching protocols and its body breaks off, stalls or is too large, the
client learns of it if and only if the request carries no upgrade headers; with
them it gets Docker's status over an empty body. -/
theorem handle_reports_iff {st : ProxyState} {req : Request} {peer : deps.Ip}
    {cert : Option CertIdentity} {docker : Docker} {m : Moment} {out : ProxiedRequest}
    {res : UpstreamResponse}
    (hsent : (handle deps st req peer cert docker m).sent = some out)
    (hres : docker.respond out = .ok res) (hstatus : res.status ≠ 101)
    (hfail : ∀ bs, res.body.read maxRespBodyBytes ≠ .bytes bs) :
    (ReportsBodyFailure (handle deps st req peer cert docker m).response ↔
        isUpgradeRequest req.headers = false) ∧
      (isUpgradeRequest req.headers = true →
        (handle deps st req peer cert docker m).response.status = res.status ∧
          (handle deps st req peer cert docker m).response.body = []) := by
  obtain ⟨call, st₁, st', d, -, -, hpath⟩ := handle_of_sent deps hsent
  obtain ⟨hup, hserve⟩ | ⟨hup, bodyBytes, bodyJson, -, hserve⟩ := hpath
  · rw [hserve] at hsent ⊢
    have hresponse := handleUpgrade_unreadable deps hsent hres hstatus hfail
    show (ReportsBodyFailure (handleUpgrade deps st' docker call).response ↔ _) ∧
      (_ → (handleUpgrade deps st' docker call).response.status = _ ∧
        (handleUpgrade deps st' docker call).response.body = [])
    rw [hup, hresponse]
    refine ⟨?_, fun _ => ⟨rfl, rfl⟩⟩
    simp only [Bool.true_eq_false, iff_false]
    exact not_reportsBodyFailure_of_empty rfl
  · rw [hserve] at hsent ⊢
    have hreport := forwardPlain_unreadable deps hsent hres hfail
    refine ⟨iff_of_true hreport hup, fun htrue => ?_⟩
    rw [hup] at htrue
    exact absurd htrue (by simp)

/-! ## §4. A broken answer that looks like a whole one. -/

/-- The inspection of a container, whose body breaks off after its first bytes. -/
def brokenResponse : UpstreamResponse where
  status := 200
  headers := [("content-type", .ofStr "application/json")]
  body := ⟨asBytes "\x7b", .failed⟩

/-- A Docker that answers every request so. -/
def brokenDocker : Docker where
  connect := .ok ()
  handshake := true
  respond _ := .ok brokenResponse

/-- The inspection of the container at this Docker, served. -/
def inspectBroken (headers : HeaderMap) : Outcome :=
  handle Externals.sample openState (inspectRequest headers) () none brokenDocker momentZero

/-- **A transport error looks like an empty document**: the client gets Docker's
200, where the plain path answers 502. -/
theorem handle_reports_hidden :
    (inspectBroken upgradeHeaders).sent.isSome = true ∧ brokenResponse.status ≠ 101 ∧
    brokenResponse.body.read maxRespBodyBytes = .failed ∧
    (inspectBroken upgradeHeaders).response.status = 200 ∧
    (inspectBroken upgradeHeaders).response.body = [] ∧
    (inspectBroken []).response = makeResponse 502 "failed to read docker response" := by
  decide +kernel

/-- Without upgrade headers the failure is reported. -/
theorem handle_reports_inspect :
    (ReportsBodyFailure (inspectBroken []).response ↔
        isUpgradeRequest (inspectRequest []).headers = false) ∧
      (isUpgradeRequest (inspectRequest []).headers = true →
        (inspectBroken []).response.status = brokenResponse.status ∧
          (inspectBroken []).response.body = []) := by
  have hsome : (inspectBroken []).sent.isSome = true := by decide +kernel
  obtain ⟨out, hsent⟩ := Option.isSome_iff_exists.mp hsome
  have hread : brokenResponse.body.read maxRespBodyBytes = .failed := by decide +kernel
  unfold inspectBroken at hsent ⊢
  exact handle_reports_iff Externals.sample hsent
    (rfl : brokenDocker.respond out = .ok brokenResponse) (by decide) (fun bs => by rw [hread]; simp)

end DockerProxy.Proxy
