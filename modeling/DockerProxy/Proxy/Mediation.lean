/-
  DockerProxy.Proxy.Mediation — what it takes for a request to reach Docker.

  `Admitted` says it without the code's branches: a canonical path, an authenticated
  caller, a body that may be read, and rules that allow the request in the state they
  meet.  Nothing else reaches Docker, and nothing more is asked for:

    • `receive_ok_iff` — what `handle` makes of a request that it goes on with,
    • `handle_sent_iff` — one request,
    • `mem_sentToDocker_iff` — every run of requests, reloads and cleanups,
    • `opensTunnel_iff` — which requests go on as a tunnel of bytes.
-/
import DockerProxy.Proxy.System

namespace DockerProxy.Proxy

open DockerProxy.Lib DockerProxy.Path DockerProxy.Limiter DockerProxy.Rules

/-! ## §1. Requests that are admitted. -/

/-- The headers that Docker is sent. -/
def upstreamHeaders (headers : HeaderMap) : HeaderMap :=
  if isUpgradeRequest headers then
    [("host", .ofStr "docker.proxy"), ("connection", .ofStr "upgrade")] ++
      ((headers.getStr "upgrade").map fun u => ("upgrade", HeaderValue.ofStr u)).toList ++
        forwardHeaders headers
  else [("host", .ofStr "docker.proxy"), ("connection", .ofStr "close")] ++ forwardHeaders headers

variable (deps : Externals)

/-- **The body may go on**: these bytes are sent, and this is what the rules see of them.
With upgrade headers nothing is read, and nothing is sent. -/
def BodyAdmitted (req : Request) (path : String) (bytes : List UInt8) (json : Option JsonValue) :
    Prop :=
  if isUpgradeRequest req.headers then bytes = [] ∧ json = none
  else
    req.body.read maxReqBodyBytes = .bytes bytes ∧ json = documentOf deps bytes ∧
      (requiresJsonBody path = true → bytes ≠ [] → json.isSome = true)

/-- **The request is admitted**: this is what its rules are asked, and they allow it; these
bytes are its body. -/
structure Admitted (st : ProxyState) (req : Request) (peer : deps.Ip) (cert : Option CertIdentity)
    (m : Moment) (ctx : EvaluationContext) (bytes : List UInt8) : Prop where
  path : canonicalizePath req.path = some ctx.path
  query : queryAccepted req.query = true
  /-- The caller is authenticated, and has the role that the rules see. -/
  caller : ∃ identity,
    (authenticate deps st st.config req.headers peer cert m).1 = .allowed ctx.userRole identity
  /-- It is not the metrics that are asked for. -/
  notMetrics : ¬ (st.metricsPath = some ctx.path ∧ req.method = "GET")
  method : ctx.method = req.method
  headers : ctx.headers = ruleHeaders req.headers
  clientIp : ctx.clientIp =
    deps.ipToString (computeClientIp deps peer req.headers (trustedProxiesOf deps st.config))
  body : BodyAdmitted deps req ctx.path bytes ctx.bodyJson
  /-- The current rules allow it. -/
  allowed : (evaluateRequestDetailed deps (st.config.rules.getD []) ctx
    ⟨st.rateLimiter, m.readings⟩).1.result = .allow

/-- **Docker is sent this request**: it can be reached, and there is a target to ask for. -/
structure Sends (req : Request) (docker : Docker) (path : String) (bytes : List UInt8)
    (out : ProxiedRequest) : Prop where
  connects : docker.connect = .ok ()
  shakes : docker.handshake = true
  target : deps.uriTarget (canonicalPathAndQuery path req.query) = some out.target
  method : out.method = req.method
  headers : out.headers = upstreamHeaders req.headers
  body : out.body = bytes

/-! ## §2. One request. -/

section

variable {deps} {st : ProxyState} {req : Request} {peer : deps.Ip} {cert : Option CertIdentity}
variable {docker : Docker} {m : Moment}

/-- **What `handle` goes on with**: a canonical path, an accepted query, an authenticated
caller, and not the metrics. -/
theorem receive_ok_iff {call : Call} :
    (receive deps st req peer cert m).1 = .ok call ↔
      ∃ p role identity, canonicalizePath req.path = some p ∧ queryAccepted req.query = true ∧
        (authenticate deps st st.config req.headers peer cert m).1 = .allowed role identity ∧
        ¬ (st.metricsPath = some p ∧ req.method = "GET") ∧
        call = callFor deps req peer m st.config p role identity := by
  have hcount : (authenticated deps st req peer cert m).1 =
      (authenticate deps st st.config req.headers peer cert m).1 :=
    authenticate_count deps st _ st.config req.headers peer cert m
  have hreceived := receive_received deps st req peer cert m
  generalize receive deps st req peer cert m = received at hreceived ⊢
  rw [← hcount]
  constructor
  · intro h
    cases hreceived with
    | badRequest => exact absurd h (by simp)
    | denied => exact absurd h (by simp)
    | metrics => exact absurd h (by simp)
    | call hpath hquery hauth hmetrics =>
        obtain ⟨_, _, _, hst⟩ := authenticated_frame deps hauth
        rw [hst] at hmetrics
        exact ⟨_, _, _, hpath, hquery, congrArg Prod.fst hauth, hmetrics, (Except.ok.inj h).symm⟩
  · rintro ⟨p, role, identity, hpath, hquery, hallowed, hmetrics, rfl⟩
    cases hreceived with
    | badRequest text h =>
        obtain h | h := h
        · exact absurd (h.symm.trans hpath) (by simp)
        · exact absurd (h.symm.trans hquery) (by simp)
    | denied _ _ hauth => exact absurd ((congrArg Prod.fst hauth).symm.trans hallowed) (by simp)
    | metrics hpath' _ hauth hmetrics' =>
        obtain ⟨_, _, _, hst⟩ := authenticated_frame deps hauth
        rw [hst] at hmetrics'
        obtain rfl := Option.some.inj (hpath'.symm.trans hpath)
        exact absurd hmetrics' hmetrics
    | call hpath' _ hauth _ =>
        obtain rfl := Option.some.inj (hpath'.symm.trans hpath)
        obtain ⟨rfl, rfl⟩ := AuthOutcome.allowed.inj
          ((congrArg Prod.fst hauth).symm.trans hallowed)
        rfl

/-- Receiving leaves the limiter of the rules alone. -/
theorem rateLimiter_receive :
    (receive deps st req peer cert m).2.rateLimiter = st.rateLimiter := by
  have hauth : ∀ {outcome st'}, authenticated deps st req peer cert m = (outcome, st') →
      st'.rateLimiter = st.rateLimiter := by
    intro outcome st' h
    obtain ⟨_, _, _, hst⟩ := authenticated_frame deps h
    rw [hst]
  have hreceived := receive_received deps st req peer cert m
  generalize receive deps st req peer cert m = received at hreceived ⊢
  cases hreceived with
  | badRequest => rfl
  | denied _ _ h =>
      -- counting the denial and recording it leave the limiter alone
      have hkept := hauth h
      exact hkept
  | metrics _ _ h => exact hauth h
  | call _ _ h => exact hauth h

/-- **What an exchange sends.** -/
theorem exchange_sent_iff {call : Call} {headers : HeaderMap} {body : List UInt8}
    {out : ProxiedRequest} :
    (exchange deps st docker call headers body).sent = some out ↔
      docker.connect = .ok () ∧ docker.handshake = true ∧
        deps.uriTarget call.canonicalPathAndQuery = some out.target ∧ out.method = call.method ∧
        out.headers = headers ∧ out.body = body := by
  constructor
  · intro hsent
    obtain ⟨htarget, hmethod, hheaders, hbody⟩ := exchange_request deps hsent
    refine ⟨?_, ?_, htarget, hmethod, hheaders, hbody⟩
    all_goals unfold exchange at hsent
    · cases hconnect : docker.connect with
      | failed => rw [hconnect] at hsent; exact absurd hsent (by simp)
      | timedOut => rw [hconnect] at hsent; exact absurd hsent (by simp)
      | ok _ => rfl
    · cases hconnect : docker.connect with
      | failed => rw [hconnect] at hsent; exact absurd hsent (by simp)
      | timedOut => rw [hconnect] at hsent; exact absurd hsent (by simp)
      | ok _ =>
          rw [hconnect] at hsent
          by_contra hshake
          rw [Bool.not_eq_true] at hshake
          simp [hshake] at hsent
  · rintro ⟨hconnect, hshake, htarget, hmethod, hheaders, hbody⟩
    have hout : out = { method := call.method, target := out.target, headers, body } := by
      rw [← hmethod, ← hheaders, ← hbody]
    unfold exchange
    rw [hconnect, hshake, htarget]
    simp only [Bool.not_true, Bool.false_eq_true, if_false]
    rw [← hout]
    split <;> rfl

/-- **What reading the body lets through.** -/
theorem readBody_ok_iff {call : Call} {body : BodyStream} {bytes : List UInt8}
    {json : Option JsonValue} :
    readBody deps st call body = (.ok (bytes, json), st) ↔
      body.read maxReqBodyBytes = .bytes bytes ∧ json = documentOf deps bytes ∧
        (requiresJsonBody call.canonicalPath = true → bytes ≠ [] → json.isSome = true) := by
  have htaken := readBody_bodyTaken deps st call body
  generalize readBody deps st call body = taken at htaken ⊢
  constructor
  · intro h
    cases htaken with
    | tooLarge => exact absurd (congrArg Prod.fst h) (by simp)
    | bad => exact absurd (congrArg Prod.fst h) (by simp)
    | timedOut => exact absurd (congrArg Prod.fst h) (by simp)
    | taken bytes' hread hrequired =>
        obtain ⟨rfl, rfl⟩ := Prod.mk.inj (Except.ok.inj (congrArg Prod.fst h))
        exact ⟨hread, rfl, hrequired⟩
  · rintro ⟨hread, rfl, hrequired⟩
    -- a body that is refused must be a document, and is none
    have hrefused : ¬ BodyRefused deps call body := by
      intro h
      obtain ⟨hrequires, hne, hnone⟩ := h bytes hread
      have hsome := hrequired hrequires hne
      rw [hnone] at hsome
      exact absurd hsome (by decide)
    cases htaken with
    | tooLarge _ h => exact absurd h hrefused
    | bad _ h => exact absurd h hrefused
    | timedOut _ h => exact absurd h hrefused
    | taken bytes' hread' _ =>
        obtain rfl := BodyRead.bytes.inj (hread'.symm.trans hread)
        rfl

theorem serveUpgrade_sent_iff {call : Call} {out : ProxiedRequest} :
    (serveUpgrade deps st docker call m).sent = some out ↔
      (decided deps st call m (call.evalCtx none)).1.result = .allow ∧
        (exchange deps st docker call call.upgradeHeaders []).sent = some out := by
  have hdecided : decided deps st.upgraded call m (call.evalCtx none) =
      decided deps st call m (call.evalCtx none) := rfl
  have hserved := serveUpgrade_served deps st docker call m
  generalize serveUpgrade deps st docker call m = outcome at hserved ⊢
  cases hserved with
  | denied hdecision hdeny =>
      rw [← hdecided, hdecision, hdeny]
      simp
  | allowed hdecision hallow =>
      rw [← hdecided, hdecision, hallow]
      dsimp only
      rw [handleUpgrade_sent, exchange_sent_iff, exchange_sent_iff]
      simp

theorem servePlain_sent_iff {call : Call} {body : BodyStream} {out : ProxiedRequest} :
    (servePlain deps st docker call body m).sent = some out ↔
      ∃ bytes json, readBody deps st call body = (.ok (bytes, json), st) ∧
        (decided deps st call m (call.evalCtx json)).1.result = .allow ∧
          (exchange deps st docker call call.plainHeaders bytes).sent = some out := by
  have hserved := servePlain_served deps st docker call body m
  generalize servePlain deps st docker call body m = outcome at hserved ⊢
  cases hserved with
  | rejected hbody =>
      rw [hbody]
      simp
  | denied hbody hdecision hdeny =>
      rw [hbody]
      constructor
      · intro h
        exact absurd h (by simp)
      · rintro ⟨bytes, json, hbytes, hallow, -⟩
        obtain ⟨rfl, rfl⟩ := Prod.mk.inj (Except.ok.inj (congrArg Prod.fst hbytes))
        rw [hdecision, hdeny] at hallow
        exact absurd hallow (by simp)
  | allowed hbody hdecision hallow =>
      rw [hbody]
      dsimp only
      rw [forwardPlain_sent, exchange_sent_iff]
      constructor
      · intro h
        exact ⟨_, _, rfl, by rw [hdecision, hallow], exchange_sent_iff.mpr h⟩
      · rintro ⟨bytes, json, hbytes, -, hsent⟩
        obtain ⟨rfl, rfl⟩ := Prod.mk.inj (Except.ok.inj (congrArg Prod.fst hbytes))
        exact exchange_sent_iff.mp hsent

/-- **What reaches Docker**: a request is sent exactly if it is admitted and Docker can be
asked, and what is sent is made of what was admitted. -/
theorem handle_sent_iff {out : ProxiedRequest} :
    (handle deps st req peer cert docker m).sent = some out ↔
      ∃ ctx bytes, Admitted deps st req peer cert m ctx bytes ∧
        Sends deps req docker ctx.path bytes out := by
  have hlimiter := @rateLimiter_receive deps st req peer cert m
  cases hreceive : receive deps st req peer cert m with
  | mk received st₁ =>
      rw [hreceive] at hlimiter
      cases received with
      | error response =>
          rw [handle_of_answered deps hreceive]
          constructor
          · intro h
            exact absurd h (by simp)
          · rintro ⟨ctx, bytes, hadmitted, -⟩
            obtain ⟨identity, hcaller⟩ := hadmitted.caller
            have hok := receive_ok_iff.mpr ⟨_, _, identity, hadmitted.path, hadmitted.query,
              hcaller, hadmitted.notMetrics, rfl⟩
            rw [hreceive] at hok
            exact absurd hok (by simp)
      | ok call =>
          obtain ⟨p, role, identity, hpath, hquery, hcaller, hmetrics, hcall⟩ :=
            receive_ok_iff.mp (congrArg Prod.fst hreceive)
          have hdecided : ∀ ctx, decided deps st₁ call m ctx =
              evaluateRequestDetailed deps (st.config.rules.getD []) ctx
                ⟨st.rateLimiter, m.readings⟩ := by
            intro ctx
            unfold decided
            rw [hlimiter, hcall]
            rfl
          -- the context of an admitted request is that of the call
          have hctx : ∀ ctx bytes, Admitted deps st req peer cert m ctx bytes →
              ctx = call.evalCtx ctx.bodyJson := by
            intro ctx bytes hadmitted
            obtain ⟨identity', hcaller'⟩ := hadmitted.caller
            obtain ⟨hrole, -⟩ := AuthOutcome.allowed.inj (hcaller'.symm.trans hcaller)
            have hpath' := Option.some.inj (hadmitted.path.symm.trans hpath)
            have hmethod := hadmitted.method
            have hheaders := hadmitted.headers
            have hclientIp := hadmitted.clientIp
            rw [hcall]
            obtain ⟨path, method, headers, clientIp, bodyJson, userRole⟩ := ctx
            dsimp only at hrole hpath' hmethod hheaders hclientIp
            rw [hrole, hpath', hmethod, hheaders, hclientIp]
            rfl
          have hadmits : ∀ bytes json, BodyAdmitted deps req p bytes json →
              (decided deps st₁ call m (call.evalCtx json)).1.result = .allow →
                Admitted deps st req peer cert m (call.evalCtx json) bytes := by
            intro bytes json hbody hallow
            rw [hdecided] at hallow
            rw [hcall] at hallow ⊢
            exact ⟨hpath, hquery, ⟨identity, hcaller⟩, hmetrics, rfl, rfl, rfl, hbody, hallow⟩
          have htarget : call.canonicalPathAndQuery = canonicalPathAndQuery p req.query := by
            rw [hcall]; rfl
          have hmethod : call.method = req.method := by rw [hcall]; rfl
          rw [handle_of_received deps hreceive]
          cases hup : isUpgradeRequest req.headers with
          | true =>
              have hheaders : call.upgradeHeaders = upstreamHeaders req.headers := by
                unfold upstreamHeaders
                rw [if_pos hup, hcall]
                rfl
              have hbody : ∀ path bytes json, BodyAdmitted deps req path bytes json ↔
                  bytes = [] ∧ json = none := by
                intro path bytes json
                unfold BodyAdmitted
                rw [if_pos hup]
              rw [if_pos rfl, serveUpgrade_sent_iff, exchange_sent_iff, htarget, hmethod, hheaders]
              constructor
              · rintro ⟨hallow, hconnect, hshake, hout, houtMethod, houtHeaders, houtBody⟩
                refine ⟨_, [], hadmits [] none ((hbody p _ _).mpr ⟨rfl, rfl⟩) hallow,
                  hconnect, hshake, ?_, houtMethod, houtHeaders, houtBody⟩
                rw [hcall]
                exact hout
              · rintro ⟨ctx, bytes, hadmitted, hsends⟩
                obtain ⟨rfl, hjson⟩ := (hbody _ _ _).mp hadmitted.body
                have hctx := hctx ctx [] hadmitted
                rw [hjson] at hctx
                have hpath' := Option.some.inj (hadmitted.path.symm.trans hpath)
                refine ⟨?_, hsends.connects, hsends.shakes, ?_, hsends.method, hsends.headers,
                  hsends.body⟩
                · rw [hdecided, ← hctx]
                  exact hadmitted.allowed
                · rw [← hpath']
                  exact hsends.target
          | false =>
              have hheaders : call.plainHeaders = upstreamHeaders req.headers := by
                unfold upstreamHeaders
                rw [if_neg (by rw [hup]; exact Bool.false_ne_true), hcall]
                rfl
              have hcanonical : call.canonicalPath = p := by rw [hcall]; rfl
              have hbody : ∀ bytes json, BodyAdmitted deps req p bytes json ↔
                  readBody deps st₁ call req.body = (.ok (bytes, json), st₁) := by
                intro bytes json
                unfold BodyAdmitted
                rw [if_neg (by rw [hup]; exact Bool.false_ne_true), readBody_ok_iff, hcanonical]
              rw [if_neg Bool.false_ne_true, servePlain_sent_iff]
              constructor
              · rintro ⟨bytes, json, hread, hallow, hsent⟩
                rw [exchange_sent_iff, htarget, hmethod, hheaders] at hsent
                obtain ⟨hconnect, hshake, hout, houtMethod, houtHeaders, houtBody⟩ := hsent
                refine ⟨_, bytes, hadmits bytes json ((hbody _ _).mpr hread) hallow,
                  hconnect, hshake, ?_, houtMethod, houtHeaders, houtBody⟩
                rw [hcall]
                exact hout
              · rintro ⟨ctx, bytes, hadmitted, hsends⟩
                have hctx := hctx ctx bytes hadmitted
                have hpath' := Option.some.inj (hadmitted.path.symm.trans hpath)
                have hread := hadmitted.body
                rw [hpath', hbody] at hread
                refine ⟨bytes, ctx.bodyJson, hread, ?_, ?_⟩
                · rw [hdecided, ← hctx]
                  exact hadmitted.allowed
                · rw [exchange_sent_iff, htarget, hmethod, hheaders, ← hpath']
                  exact ⟨hsends.connects, hsends.shakes, hsends.target, hsends.method,
                    hsends.headers, hsends.body⟩

end

/-! ## §3. Runs. -/

/-- The request that Docker is sent in this step. -/
def SystemEvent.sent (st : ProxyState) : SystemEvent deps → Option ProxiedRequest
  | .happens (.request req peer cert docker m) => (handle deps st req peer cert docker m).sent
  | .happens (.reload _) | .cleanup _ _ | .tunnel _ _ => none

/-- All that Docker is sent in a run. -/
def sentToDocker (st : ProxyState) (events : List (SystemEvent deps)) : List ProxiedRequest :=
  outputs SystemEvent.step (SystemEvent.sent deps) st events

/-- **Complete mediation**: in every run of requests, each of whose handlers runs to its end,
reloads and cleanups, Docker is sent a request exactly if some client's request was admitted
in the state it met, by the configuration and the rules then in force, and the request sent
is made of what the rules were asked. -/
theorem mem_sentToDocker_iff {st : ProxyState} {events : List (SystemEvent deps)}
    {out : ProxiedRequest} :
    out ∈ sentToDocker deps st events ↔
      ∃ past req peer cert docker m rest,
        events = past ++ .happens (.request req peer cert docker m) :: rest ∧
        ∃ ctx bytes, Admitted deps (run SystemEvent.step st past) req peer cert m ctx bytes ∧
          Sends deps req docker ctx.path bytes out := by
  unfold sentToDocker
  rw [mem_outputs]
  constructor
  · rintro ⟨past, e, rest, hevents, hsent⟩
    cases e with
    | happens h =>
        cases h with
        | request req peer cert docker m =>
            exact ⟨past, req, peer, cert, docker, m, rest, hevents, handle_sent_iff.mp hsent⟩
        | reload config => exact absurd hsent (by simp [SystemEvent.sent])
    | cleanup rateNow authNow => exact absurd hsent (by simp [SystemEvent.sent])
    | tunnel client docker => exact absurd hsent (by simp [SystemEvent.sent])
  · rintro ⟨past, req, peer, cert, docker, m, rest, hevents, hadmitted⟩
    exact ⟨past, _, rest, hevents, handle_sent_iff.mpr hadmitted⟩

/-! ## §4. Switched connections. -/

/-- The request starts the task that copies bytes both ways. -/
def opensTunnel (st : ProxyState) (req : Request) (peer : deps.Ip) (cert : Option CertIdentity)
    (docker : Docker) (m : Moment) : Bool :=
  match receive deps st req peer cert m with
  | (.ok call, st₁) =>
      isUpgradeRequest req.headers &&
        ((serveUpgrade deps st₁ docker call m).evaluated.map Prod.snd).any passes &&
          switches deps st₁ docker call
  | (.error _, _) => false

/-- Docker switches exactly if it answers what it is sent with a `101`. -/
theorem switches_iff {st : ProxyState} {docker : Docker} {call : Call} :
    switches deps st docker call = true ↔
      ∃ out res, (exchange deps st docker call call.upgradeHeaders []).sent = some out ∧
        docker.respond out = .ok res ∧ res.status = 101 := by
  unfold switches
  constructor
  · intro h
    unfold exchange at h ⊢
    cases hconnect : docker.connect with
    | failed => rw [hconnect] at h; exact absurd h (by simp)
    | timedOut => rw [hconnect] at h; exact absurd h (by simp)
    | ok _ =>
        rw [hconnect] at h
        cases hshake : docker.handshake with
        | false => rw [hshake] at h; exact absurd h (by simp)
        | true =>
            rw [hshake] at h
            cases htarget : deps.uriTarget call.canonicalPathAndQuery with
            | none => rw [htarget] at h; exact absurd h (by simp)
            | some target =>
                rw [htarget] at h
                simp only [Bool.not_true, Bool.false_eq_true, if_false] at h ⊢
                cases hrespond : docker.respond _ with
                | failed => rw [hrespond] at h; exact absurd h (by simp)
                | timedOut => rw [hrespond] at h; exact absurd h (by simp)
                | ok res =>
                    rw [hrespond] at h
                    exact ⟨_, res, rfl, hrespond, by simpa using h⟩
  · rintro ⟨out, res, hsent, hrespond, hstatus⟩
    rw [exchange_answer deps hsent hrespond]
    simpa using hstatus

/-- **Who gets a tunnel**: a request with upgrade headers that is admitted, by rules that
see no body, and whose request to Docker is answered with a `101`. -/
theorem opensTunnel_iff {st : ProxyState} {req : Request} {peer : deps.Ip}
    {cert : Option CertIdentity} {docker : Docker} {m : Moment} :
    opensTunnel deps st req peer cert docker m = true ↔
      isUpgradeRequest req.headers = true ∧
        ∃ ctx out res, ctx.bodyJson = none ∧ Admitted deps st req peer cert m ctx [] ∧
          Sends deps req docker ctx.path [] out ∧ docker.respond out = .ok res ∧
            res.status = 101 := by
  have hallowed : ∀ (decision : RuleDecision), passes decision = true ↔ decision.result = .allow :=
    fun decision => beq_iff_eq
  unfold opensTunnel
  constructor
  · intro h
    cases hreceive : receive deps st req peer cert m with
    | mk received st₁ =>
        rw [hreceive] at h
        cases received with
        | error response => exact absurd h (by simp)
        | ok call =>
            simp only [Bool.and_eq_true] at h
            obtain ⟨⟨hup, hpasses⟩, hswitches⟩ := h
            obtain ⟨out, res, hsent, hrespond, hstatus⟩ := (switches_iff deps).mp hswitches
            have hserved : (serveUpgrade deps st₁ docker call m).sent = some out := by
              refine serveUpgrade_sent_iff.mpr ⟨?_, hsent⟩
              have hdecided : decided deps st₁.upgraded call m (call.evalCtx none) =
                  decided deps st₁ call m (call.evalCtx none) := rfl
              have hserved := serveUpgrade_served deps st₁ docker call m
              generalize serveUpgrade deps st₁ docker call m = outcome at hserved hpasses
              cases hserved with
              | denied hdecision hdeny =>
                  have hpasses := (hallowed _).mp hpasses
                  rw [hdeny] at hpasses
                  exact absurd hpasses (by simp)
              | allowed hdecision hallow => rw [← hdecided, hdecision, hallow]
            have hhandled : (handle deps st req peer cert docker m).sent = some out := by
              rw [handle_of_received deps hreceive, if_pos hup]
              exact hserved
            obtain ⟨ctx, bytes, hadmitted, hsends⟩ := handle_sent_iff.mp hhandled
            have hbody := hadmitted.body
            unfold BodyAdmitted at hbody
            rw [if_pos hup] at hbody
            obtain ⟨rfl, hjson⟩ := hbody
            exact ⟨hup, ctx, out, res, hjson, hadmitted, hsends, hrespond, hstatus⟩
  · rintro ⟨hup, ctx, out, res, hjson, hadmitted, hsends, hrespond, hstatus⟩
    have hhandled : (handle deps st req peer cert docker m).sent = some out :=
      handle_sent_iff.mpr ⟨ctx, [], hadmitted, hsends⟩
    cases hreceive : receive deps st req peer cert m with
    | mk received st₁ =>
        cases received with
        | error response =>
            rw [handle_of_answered deps hreceive] at hhandled
            exact absurd hhandled (by simp)
        | ok call =>
            rw [handle_of_received deps hreceive, if_pos hup] at hhandled
            obtain ⟨hallow, hsent⟩ := serveUpgrade_sent_iff.mp hhandled
            have hswitches := (switches_iff deps).mpr ⟨out, res, hsent, hrespond, hstatus⟩
            have hdecided : decided deps st₁.upgraded call m (call.evalCtx none) =
                decided deps st₁ call m (call.evalCtx none) := rfl
            simp only [hup, hswitches, Bool.true_and, Bool.and_true]
            have hserved := serveUpgrade_served deps st₁ docker call m
            generalize serveUpgrade deps st₁ docker call m = outcome at hserved ⊢
            cases hserved with
            | denied hdecision hdeny =>
                rw [← hdecided, hdecision, hdeny] at hallow
                exact absurd hallow (by simp)
            | allowed hdecision hallow' => exact (hallowed _).mpr hallow'

end DockerProxy.Proxy
