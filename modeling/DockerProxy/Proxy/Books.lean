/-
  DockerProxy.Proxy.Books — the counters about rule decisions, on both paths.

  `book` is what a decision calls for: one more request allowed or denied, one more
  dry run, one more refusal by a rate limit, and the counters of the deciding rule.
  The upgrade path books all of it but refusals by a rate limit; the plain path
  books all of it but passed requests whose answer could not be read in full.  So
  the two agree exactly on the other requests (`bookUpgrade_eq_bookPlain_iff`), and
  over a run the totals miss exactly those (`Happening.totals_run`).
-/
import DockerProxy.Proxy.Forwarding
import DockerProxy.Lib.Exec

namespace DockerProxy.Proxy

open DockerProxy.Lib DockerProxy.Limiter DockerProxy.Rules

/-! ## §1. What a decision calls for. -/

/-- The counters about decisions. -/
structure DecisionCounters where
  requestsAllowed : UInt64
  requestsDenied : UInt64
  requestsDryRun : UInt64
  rateLimitedTotal : UInt64
  byRule : List (String × RuleCounters)
  deriving DecidableEq

def Metrics.decisionCounters (m : Metrics) : DecisionCounters where
  requestsAllowed := m.requestsAllowed
  requestsDenied := m.requestsDenied
  requestsDryRun := m.requestsDryRun
  rateLimitedTotal := m.rateLimitedTotal
  byRule := m.byRule

@[simp] theorem rateLimitedTotal_decisionCounters (m : Metrics) :
    m.decisionCounters.rateLimitedTotal = m.rateLimitedTotal := rfl

@[simp] theorem requestsAllowed_decisionCounters (m : Metrics) :
    m.decisionCounters.requestsAllowed = m.requestsAllowed := rfl

/-- The decision refuses the request, by a rate limit. -/
def limits (decision : RuleDecision) : Bool :=
  decision.result != .allow && decision.action == some "rate_limit"

/-- The decision lets the request pass. -/
def passes (decision : RuleDecision) : Bool := decision.result == .allow

namespace DecisionCounters

/-- One more denial or dry run of a rule, as `record_rule_deny` counts it. -/
def record (c : DecisionCounters) (ruleName : String) (dryRun : Bool) : DecisionCounters :=
  { c with byRule := (({ byRule := c.byRule } : Metrics).recordRuleDeny ruleName dryRun).byRule }

/-- A dry run is counted, and counted under its rule. -/
def bookDryRun (c : DecisionCounters) (decision : RuleDecision) : DecisionCounters :=
  match decision.dryRun, decision.ruleName with
  | true, some rn => { c with requestsDryRun := c.requestsDryRun + 1 }.record rn true
  | _, _ => c

/-- A denial is counted under its rule. -/
def bookRule (c : DecisionCounters) (decision : RuleDecision) : DecisionCounters :=
  match decision.ruleName with
  | some rn => c.record rn false
  | none => c

/-- One more allowed request. -/
def allowed (c : DecisionCounters) : DecisionCounters :=
  { c with requestsAllowed := c.requestsAllowed + 1 }

/-- One more denied request. -/
def denied (c : DecisionCounters) : DecisionCounters :=
  { c with requestsDenied := c.requestsDenied + 1 }

/-- One more refusal by a rate limit. -/
def limited (c : DecisionCounters) : DecisionCounters :=
  { c with rateLimitedTotal := c.rateLimitedTotal + 1 }

/-- **The books that a decision calls for.** -/
def book (c : DecisionCounters) (decision : RuleDecision) : DecisionCounters :=
  match decision.result with
  | .allow => (c.bookDryRun decision).allowed
  | .deny _ _ =>
      let c := (c.bookDryRun decision).denied
      (if limits decision then c.limited else c).bookRule decision

/-- The books without the refusals by a rate limit. -/
def bookUpgrade (c : DecisionCounters) (decision : RuleDecision) : DecisionCounters :=
  { c.book decision with rateLimitedTotal := c.rateLimitedTotal }

/-- The books without the passed requests that were not answered in full. -/
def bookPlain (c : DecisionCounters) (decision : RuleDecision) (answered : Bool) :
    DecisionCounters :=
  if decision.result = .allow ∧ answered = false then
    { c.book decision with requestsAllowed := c.requestsAllowed }
  else c.book decision

section

variable (c : DecisionCounters) {decision : RuleDecision}

/-- A dry run changes neither total. -/
theorem totals_bookDryRun :
    (c.bookDryRun decision).rateLimitedTotal = c.rateLimitedTotal ∧
      (c.bookDryRun decision).requestsAllowed = c.requestsAllowed := by
  unfold bookDryRun
  split
  · exact ⟨rfl, rfl⟩
  · exact ⟨rfl, rfl⟩

/-- Neither do the counters of a rule. -/
theorem totals_bookRule :
    (c.bookRule decision).rateLimitedTotal = c.rateLimitedTotal ∧
      (c.bookRule decision).requestsAllowed = c.requestsAllowed := by
  unfold bookRule
  split
  · exact ⟨rfl, rfl⟩
  · exact ⟨rfl, rfl⟩

theorem bookUpgrade_of_allow (h : decision.result = .allow) :
    c.bookUpgrade decision = (c.bookDryRun decision).allowed := by
  unfold bookUpgrade book
  rw [h, ← (@totals_bookDryRun c decision).1]
  rfl

theorem bookUpgrade_of_deny {status : UInt16} {message : String}
    (h : decision.result = .deny status message) :
    c.bookUpgrade decision = (c.bookDryRun decision).denied.bookRule decision := by
  unfold bookUpgrade book
  rw [h, ← (@totals_bookDryRun c decision).1]
  simp only
  generalize c.bookDryRun decision = c
  unfold bookRule
  cases limits decision <;> cases decision.ruleName <;> rfl

theorem bookPlain_of_allow (h : decision.result = .allow) (answered : Bool) :
    c.bookPlain decision answered =
      if answered then (c.bookDryRun decision).allowed else c.bookDryRun decision := by
  unfold bookPlain book
  rw [h, ← (@totals_bookDryRun c decision).2]
  cases answered <;> simp [allowed]

theorem bookPlain_of_deny {status : UInt16} {message : String}
    (h : decision.result = .deny status message) (answered : Bool) :
    c.bookPlain decision answered =
      ((if decision.action == some "rate_limit" then (c.bookDryRun decision).denied.limited
        else (c.bookDryRun decision).denied).bookRule decision) := by
  unfold bookPlain book limits
  rw [h]
  simp

/-- **The two paths book alike** exactly the decisions that are not refusals by a rate
limit, and not passed without an answer in full. -/
theorem bookUpgrade_eq_bookPlain_iff (answered : Bool) :
    c.bookUpgrade decision = c.bookPlain decision answered ↔
      limits decision = false ∧ (decision.result = .allow → answered = true) := by
  have hne : ∀ n : UInt64, n + 1 ≠ n := fun n => by grind
  cases hresult : decision.result with
  | allow =>
      rw [bookUpgrade_of_allow c hresult, bookPlain_of_allow c hresult]
      have hlimits : limits decision = false := by unfold limits; rw [hresult]; rfl
      cases answered with
      | true => simp [hlimits]
      | false =>
          -- the plain path misses the passed request
          simp only [hlimits, Bool.false_eq_true, if_false, forall_const, and_false, iff_false]
          intro h
          exact hne _ (congrArg requestsAllowed h)
  | deny status message =>
      have hlimits : limits decision = (decision.action == some "rate_limit") := by
        unfold limits
        rw [hresult]
        rfl
      rw [bookUpgrade_of_deny c hresult, bookPlain_of_deny c hresult, ← hlimits]
      cases limits decision with
      | false => simp
      | true =>
          -- the upgrade path misses the refusal
          simp only [if_true, Bool.true_eq_false, false_and, iff_false]
          intro h
          have h := congrArg rateLimitedTotal h
          rw [(totals_bookRule _).1, (totals_bookRule _).1] at h
          exact hne _ h.symm

/-- The totals on the upgrade path. -/
theorem totals_bookUpgrade :
    (c.bookUpgrade decision).rateLimitedTotal = c.rateLimitedTotal ∧
      (c.bookUpgrade decision).requestsAllowed =
        c.requestsAllowed + UInt64.ofNat (passes decision).toNat := by
  refine ⟨rfl, ?_⟩
  obtain ⟨-, hallowed⟩ := @totals_bookDryRun c decision
  unfold passes
  cases hresult : decision.result with
  | allow =>
      rw [bookUpgrade_of_allow c hresult, ← hallowed]
      rfl
  | deny status message =>
      rw [bookUpgrade_of_deny c hresult, (totals_bookRule _).2, ← hallowed]
      exact (UInt64.add_zero _).symm

/-- The totals on the plain path. -/
theorem totals_bookPlain (answered : Bool) :
    (c.bookPlain decision answered).rateLimitedTotal =
        c.rateLimitedTotal + UInt64.ofNat (limits decision).toNat ∧
      (c.bookPlain decision answered).requestsAllowed =
        c.requestsAllowed + UInt64.ofNat (passes decision && answered).toNat := by
  obtain ⟨hlimited, hallowed⟩ := @totals_bookDryRun c decision
  unfold limits passes
  cases hresult : decision.result with
  | allow =>
      rw [bookPlain_of_allow c hresult, ← hlimited, ← hallowed]
      cases answered with
      | true => exact ⟨(UInt64.add_zero _).symm, rfl⟩
      | false => exact ⟨(UInt64.add_zero _).symm, (UInt64.add_zero _).symm⟩
  | deny status message =>
      rw [bookPlain_of_deny c hresult, (totals_bookRule _).1, (totals_bookRule _).2, ← hlimited,
        ← hallowed]
      cases decision.action == some "rate_limit" with
      | true => exact ⟨rfl, (UInt64.add_zero _).symm⟩
      | false => exact ⟨(UInt64.add_zero _).symm, (UInt64.add_zero _).symm⟩

end

end DecisionCounters

/-! ## §2. What is booked. -/

theorem decisionCounters_recordRuleDeny (m : Metrics) (rn : String) (dryRun : Bool) :
    (m.recordRuleDeny rn dryRun).decisionCounters = m.decisionCounters.record rn dryRun := by
  unfold DecisionCounters.record Metrics.recordRuleDeny Metrics.decisionCounters
  cases m.byRule.any fun e => e.1 == rn <;> simp only [if_true, Bool.false_eq_true, if_false]

theorem decisionCounters_bookDryRun (st : ProxyState) (call : Call) (decision : RuleDecision) :
    (bookDryRun st call decision).metrics.decisionCounters =
      st.metrics.decisionCounters.bookDryRun decision := by
  unfold bookDryRun DecisionCounters.bookDryRun
  cases decision.dryRun with
  | false => rfl
  | true =>
      cases decision.ruleName with
      | none => rfl
      | some rn => exact decisionCounters_recordRuleDeny _ rn true

theorem decisionCounters_bookDeny (st : ProxyState) (call : Call) (decision : RuleDecision)
    (status : UInt16) (message : String) :
    (bookDeny st call decision status message).metrics.decisionCounters =
      st.metrics.decisionCounters.bookRule decision := by
  unfold bookDeny DecisionCounters.bookRule
  cases decision.ruleName with
  | none => rfl
  | some rn => exact decisionCounters_recordRuleDeny _ rn false

variable (deps : Externals)

/-- Talking to Docker books nothing about the decision. -/
theorem decisionCounters_exchange (st : ProxyState) (docker : Docker) (call : Call)
    (headers : HeaderMap) (body : List UInt8) :
    (exchange deps st docker call headers body).state.metrics.decisionCounters =
      st.metrics.decisionCounters := by
  unfold exchange
  cases docker.connect with
  | failed => rfl
  | timedOut => rfl
  | ok _ =>
      cases docker.handshake with
      | false => rfl
      | true =>
          cases deps.uriTarget call.canonicalPathAndQuery with
          | none => rfl
          | some target =>
              simp only [Bool.not_true, Bool.false_eq_true, if_false]
              split <;> rfl

theorem decisionCounters_handleUpgrade (st : ProxyState) (docker : Docker) (call : Call) :
    (handleUpgrade deps st docker call).state.metrics.decisionCounters =
      st.metrics.decisionCounters := by
  rw [← decisionCounters_exchange deps st docker call call.upgradeHeaders []]
  unfold handleUpgrade
  simp only
  split
  · rfl
  · split <;> rfl

/-- The body was read in full. -/
def BodyRead.isBytes : BodyRead → Bool
  | .bytes _ => true
  | .tooLarge | .failed | .timedOut => false

/-- **Docker answers the request on the plain path, and the answer can be read in
full.** -/
def answeredInFull (docker : Docker) (call : Call) (bodyBytes : List UInt8) : Bool :=
  match docker.connect, docker.handshake, deps.uriTarget call.canonicalPathAndQuery with
  | .ok (), true, some target =>
      match docker.respond
        { method := call.method, target := target, headers := call.plainHeaders,
          body := bodyBytes } with
      | .ok res => (res.body.read maxRespBodyBytes).isBytes
      | .failed | .timedOut => false
  | _, _, _ => false

/-- A request that passed is booked when its answer has been read. -/
theorem decisionCounters_forwardPlain (st : ProxyState) (docker : Docker) (call : Call)
    (bodyBytes : List UInt8) (responseFilters : List ResponseFilterEntry) (m : Moment) :
    (forwardPlain deps st docker call bodyBytes responseFilters m).state.metrics.decisionCounters =
      if answeredInFull deps docker call bodyBytes then
        { st.metrics.decisionCounters with
          requestsAllowed := st.metrics.decisionCounters.requestsAllowed + 1 }
      else st.metrics.decisionCounters := by
  unfold forwardPlain exchange answeredInFull
  cases docker.connect with
  | failed => rfl
  | timedOut => rfl
  | ok _ =>
      cases docker.handshake with
      | false => rfl
      | true =>
          cases deps.uriTarget call.canonicalPathAndQuery with
          | none => rfl
          | some target =>
              simp only [Bool.not_true, Bool.false_eq_true, if_false]
              cases docker.respond _ with
              | failed => rfl
              | timedOut => rfl
              | ok res =>
                  simp only
                  split <;> (next hread => simp only [hread]; rfl)

/-! ## §3. One request. -/

/-- Evaluating the rules books nothing. -/
theorem metrics_evaluate (st : ProxyState) (call : Call) (ctx : EvaluationContext) (m : Moment) :
    (evaluate deps st call ctx m).2.metrics = st.metrics := rfl

/-- **The upgrade path books a decision** without the refusals by a rate limit. -/
theorem decisionCounters_serveUpgrade {st : ProxyState} {docker : Docker} {call : Call} {m : Moment}
    {ctx : EvaluationContext} {decision : RuleDecision}
    (h : (serveUpgrade deps st docker call m).evaluated = some (ctx, decision)) :
    (serveUpgrade deps st docker call m).state.metrics.decisionCounters =
      st.metrics.decisionCounters.bookUpgrade decision := by
  unfold serveUpgrade at h ⊢
  simp only at h ⊢
  -- the counter of upgrades is not one of the books
  generalize hst : st.count (fun c => { c with upgradeTotal := c.upgradeTotal + 1 }) = st' at h ⊢
  have hcounters : (evaluate deps st' call (call.evalCtx none) m).2.metrics.decisionCounters =
      st.metrics.decisionCounters := by
    rw [metrics_evaluate, ← hst]
    rfl
  generalize evaluate deps st' call (call.evalCtx none) m = evaluated at h hcounters ⊢
  obtain ⟨d, st₂⟩ := evaluated
  simp only at h hcounters ⊢
  cases hresult : d.result with
  | deny status message =>
      rw [hresult] at h
      obtain ⟨-, rfl⟩ := Prod.mk.inj (Option.some.inj h)
      simp only
      rw [decisionCounters_bookDeny]
      show ((bookDryRun st₂ call d).metrics.decisionCounters.denied).bookRule d = _
      rw [decisionCounters_bookDryRun, hcounters, DecisionCounters.bookUpgrade_of_deny _ hresult]
  | allow =>
      rw [hresult] at h
      obtain ⟨-, rfl⟩ := Prod.mk.inj (Option.some.inj h)
      simp only
      rw [decisionCounters_handleUpgrade]
      show (bookDryRun st₂ call d).metrics.decisionCounters.allowed = _
      rw [decisionCounters_bookDryRun, hcounters, DecisionCounters.bookUpgrade_of_allow _ hresult]

/-- Reading the body books nothing about the decision. -/
theorem decisionCounters_readBody (st : ProxyState) (call : Call) (body : BodyStream) :
    (readBody deps st call body).2.metrics.decisionCounters = st.metrics.decisionCounters := by
  unfold readBody
  split
  · rfl
  · rfl
  · rfl
  · split
    · rfl
    · split
      · rfl
      · split <;> rfl

/-- **The plain path books a decision** without the passed requests that were not
answered in full. -/
theorem decisionCounters_servePlain {st : ProxyState} {docker : Docker} {call : Call}
    {body : BodyStream} {m : Moment} {ctx : EvaluationContext} {decision : RuleDecision}
    (h : (servePlain deps st docker call body m).evaluated = some (ctx, decision)) :
    (servePlain deps st docker call body m).state.metrics.decisionCounters =
      st.metrics.decisionCounters.bookPlain decision
        (answeredInFull deps docker call body.bytes) := by
  have hbody := decisionCounters_readBody deps st call body
  unfold servePlain at h ⊢
  cases hread : readBody deps st call body with
  | mk read st₁ =>
      rw [hread] at h hbody
      cases read with
      | error response => exact absurd h (by simp)
      | ok bj =>
          obtain ⟨bodyBytes, bodyJson⟩ := bj
          -- the bytes that are read are those that Docker is to be sent
          have hbytes : body.bytes = bodyBytes :=
            (BodyStream.read_bytes (readBody_ok deps hread)).symm
          simp only at h hbody ⊢
          have hcounters :
              (evaluate deps st₁ call (call.evalCtx bodyJson) m).2.metrics.decisionCounters =
                st.metrics.decisionCounters := hbody
          generalize evaluate deps st₁ call (call.evalCtx bodyJson) m = evaluated at h hcounters ⊢
          obtain ⟨d, st₂⟩ := evaluated
          simp only at h hcounters ⊢
          cases hresult : d.result with
          | deny status message =>
              rw [hresult] at h
              obtain ⟨-, rfl⟩ := Prod.mk.inj (Option.some.inj h)
              simp only
              rw [decisionCounters_bookDeny, DecisionCounters.bookPlain_of_deny _ hresult,
                ← hcounters, ← decisionCounters_bookDryRun st₂ call]
              split <;> rfl
          | allow =>
              rw [hresult] at h
              obtain ⟨-, rfl⟩ := Prod.mk.inj (Option.some.inj h)
              simp only
              rw [decisionCounters_forwardPlain, DecisionCounters.bookPlain_of_allow _ hresult,
                ← hcounters, ← decisionCounters_bookDryRun st₂ call, hbytes]
              rfl

/-- The upgrade path always asks the rules. -/
theorem serveUpgrade_evaluates (st : ProxyState) (docker : Docker) (call : Call) (m : Moment) :
    ∃ decision, (serveUpgrade deps st docker call m).evaluated =
      some (call.evalCtx none, decision) := by
  unfold serveUpgrade
  simp only
  split <;> exact ⟨_, rfl⟩

/-- A request on the plain path that never got to the rules books no decision. -/
theorem decisionCounters_servePlain_of_none {st : ProxyState} {docker : Docker} {call : Call}
    {body : BodyStream} {m : Moment}
    (h : (servePlain deps st docker call body m).evaluated = none) :
    (servePlain deps st docker call body m).state.metrics.decisionCounters =
      st.metrics.decisionCounters := by
  have hbody := decisionCounters_readBody deps st call body
  unfold servePlain at h ⊢
  cases hread : readBody deps st call body with
  | mk read st₁ =>
      rw [hread] at h hbody
      cases read with
      | error response => exact hbody
      | ok bj =>
          simp only at h
          split at h <;> exact absurd h (by simp)

/-! ## §4. Runs. -/

/-- **The totals after a request on the upgrade path.** -/
theorem totals_serveUpgrade (st : ProxyState) (docker : Docker) (call : Call) (m : Moment) :
    (serveUpgrade deps st docker call m).state.metrics.rateLimitedTotal =
        st.metrics.rateLimitedTotal ∧
      (serveUpgrade deps st docker call m).state.metrics.requestsAllowed =
        st.metrics.requestsAllowed + UInt64.ofNat
          (((serveUpgrade deps st docker call m).evaluated.map Prod.snd).any passes).toNat := by
  obtain ⟨decision, hevaluated⟩ := serveUpgrade_evaluates deps st docker call m
  have hbooked := decisionCounters_serveUpgrade deps hevaluated
  obtain ⟨hrefused, hpassed⟩ :=
    @DecisionCounters.totals_bookUpgrade st.metrics.decisionCounters decision
  rw [← hbooked] at hrefused hpassed
  rw [hevaluated]
  exact ⟨hrefused, hpassed⟩

/-- **The totals after a request on the plain path.** -/
theorem totals_servePlain (st : ProxyState) (docker : Docker) (call : Call) (body : BodyStream)
    (m : Moment) :
    (servePlain deps st docker call body m).state.metrics.rateLimitedTotal =
        st.metrics.rateLimitedTotal + UInt64.ofNat
          (((servePlain deps st docker call body m).evaluated.map Prod.snd).any limits).toNat ∧
      (servePlain deps st docker call body m).state.metrics.requestsAllowed =
        st.metrics.requestsAllowed + UInt64.ofNat
          (((servePlain deps st docker call body m).evaluated.map Prod.snd).any passes &&
            answeredInFull deps docker call body.bytes).toNat := by
  cases hevaluated : (servePlain deps st docker call body m).evaluated with
  | none =>
      -- the body was rejected before the rules
      have hbooked := decisionCounters_servePlain_of_none deps hevaluated
      have hrefused := congrArg DecisionCounters.rateLimitedTotal hbooked
      have hpassed := congrArg DecisionCounters.requestsAllowed hbooked
      exact ⟨by simpa using hrefused, by simpa using hpassed⟩
  | some evaluated =>
      obtain ⟨ctx, decision⟩ := evaluated
      have hbooked := decisionCounters_servePlain deps hevaluated
      obtain ⟨hrefused, hpassed⟩ :=
        @DecisionCounters.totals_bookPlain st.metrics.decisionCounters decision
          (answeredInFull deps docker call body.bytes)
      rw [← hbooked] at hrefused hpassed
      exact ⟨hrefused, hpassed⟩

/-- The two totals. -/
def ProxyState.totals (st : ProxyState) : UInt64 × UInt64 :=
  (st.metrics.rateLimitedTotal, st.metrics.requestsAllowed)

/-- Authenticating changes neither total. -/
theorem totals_authenticate (st : ProxyState) (config : ProxyConfig) (headers : HeaderMap)
    (peer : deps.Ip) (cert : Option CertIdentity) (m : Moment) :
    (authenticate deps st config headers peer cert m).2.totals = st.totals := by
  have hfailure : ∀ authKey, (recordAuthFailure st authKey m).totals = st.totals := by
    intro authKey
    unfold recordAuthFailure
    simp only
    split <;> rfl
  unfold authenticate
  simp only
  split
  · rfl
  · split
    · rfl
    · split
      · split
        · rfl
        · split
          · rfl
          · exact hfailure _
      · split
        · rfl
        · split
          · split
            · rfl
            · exact hfailure _
          · exact hfailure _
          · exact hfailure _

/-- Receiving changes neither total. -/
theorem totals_receive (st : ProxyState) (req : Request) (peer : deps.Ip)
    (cert : Option CertIdentity) (m : Moment) :
    (receive deps st req peer cert m).2.totals = st.totals := by
  unfold receive
  simp only
  -- the count of all requests is neither of the two
  generalize hcount : st.count (fun c => { c with requestsTotal := c.requestsTotal + 1 }) = st'
  have htotals : st'.totals = st.totals := by rw [← hcount]; rfl
  have hauth := totals_authenticate deps st' st'.config req.headers peer cert m
  split
  · exact htotals
  · split
    · exact htotals
    · split
      next hdenied =>
        rw [hdenied] at hauth
        exact hauth.trans htotals
      next hallowed =>
        rw [hallowed] at hauth
        split <;> exact hauth.trans htotals

/-- One event: a request, which is served to its end, or a configuration that is swapped in.
A handler that is dropped, with its connection or by a timeout, is none. -/
inductive Happening where
  | request (req : Request) (peer : deps.Ip) (cert : Option CertIdentity) (docker : Docker)
      (m : Moment)
  | reload (config : ProxyConfig)

namespace Happening

open DecisionCounters

variable {deps}

/-- The state after the event. -/
def step (st : ProxyState) : Happening deps → ProxyState
  | .request req peer cert docker m => (handle deps st req peer cert docker m).state
  | .reload config => { st with config := config }

/-- The decision on the request, if its rules were evaluated. -/
def decided (st : ProxyState) : Happening deps → Option RuleDecision
  | .request req peer cert docker m =>
      (handle deps st req peer cert docker m).evaluated.map Prod.snd
  | .reload _ => none

/-- The request has upgrade headers. -/
def isUpgrade : Happening deps → Bool
  | .request req _ _ _ _ => isUpgradeRequest req.headers
  | .reload _ => false

/-- Docker would answer the request on the plain path in full. -/
def isAnswered (st : ProxyState) : Happening deps → Bool
  | .request req peer cert docker m =>
      match (receive deps st req peer cert m).1 with
      | .ok call => answeredInFull deps docker call req.body.bytes
      | .error _ => false
  | .reload _ => false

/-- A request refused by a rate limit. -/
def refusals (st : ProxyState) (h : Happening deps) : Nat := ((h.decided st).any limits).toNat

/-- A request that is not booked: it has upgrade headers. -/
def lostRefusals (st : ProxyState) (h : Happening deps) : Nat :=
  ((h.decided st).any limits && h.isUpgrade).toNat

/-- A request that passed the rules. -/
def passed (st : ProxyState) (h : Happening deps) : Nat := ((h.decided st).any passes).toNat

/-- One that is not booked: it has no upgrade headers, and no answer in full. -/
def lostPasses (st : ProxyState) (h : Happening deps) : Nat :=
  ((h.decided st).any passes && !h.isUpgrade && !h.isAnswered st).toNat

/-- **The books are kept in this step**: the request is not refused by a rate limit on
the upgrade path, and does not pass on the plain path without an answer in full. -/
def KeepsBooks (st : ProxyState) (h : Happening deps) : Prop :=
  ∀ decision, h.decided st = some decision →
    (h.isUpgrade = true → limits decision = false) ∧
    (h.isUpgrade = false → decision.result = .allow → h.isAnswered st = true)

/-- A passed request is booked or lost. -/
theorem booked_or_lost (n : UInt64) (passed answered : Bool) :
    n + UInt64.ofNat (passed && answered).toNat + UInt64.ofNat (passed && !answered).toNat =
      n + UInt64.ofNat passed.toNat := by
  cases passed <;> cases answered <;> simp

/-- **What one event adds to the totals**, but for what is lost. -/
theorem totals_step (st : ProxyState) (h : Happening deps) :
    (h.step st).metrics.rateLimitedTotal + UInt64.ofNat (h.lostRefusals st) =
        st.metrics.rateLimitedTotal + UInt64.ofNat (h.refusals st) ∧
      (h.step st).metrics.requestsAllowed + UInt64.ofNat (h.lostPasses st) =
        st.metrics.requestsAllowed + UInt64.ofNat (h.passed st) := by
  cases h with
  | reload config => exact ⟨rfl, rfl⟩
  | request req peer cert docker m =>
      have hreceived := totals_receive deps st req peer cert m
      have hdecided : (request req peer cert docker m).decided st =
          (handle deps st req peer cert docker m).evaluated.map Prod.snd := rfl
      have hstep : (request req peer cert docker m).step st =
          (handle deps st req peer cert docker m).state := rfl
      have hisUpgrade : (request req peer cert docker m : Happening deps).isUpgrade =
          isUpgradeRequest req.headers := rfl
      unfold lostRefusals refusals lostPasses passed
      cases hreceive : receive deps st req peer cert m with
      | mk received st₁ =>
          rw [hreceive] at hreceived
          obtain ⟨hlimited, hallowed⟩ := Prod.mk.inj hreceived
          rw [← hlimited, ← hallowed, hstep, hdecided, hisUpgrade]
          cases received with
          | error response =>
              rw [handle_of_answered deps hreceive]
              exact ⟨rfl, rfl⟩
          | ok call =>
              have hanswered : (request req peer cert docker m).isAnswered st =
                  answeredInFull deps docker call req.body.bytes := by
                unfold isAnswered
                simp only [hreceive]
              rw [handle_of_received deps hreceive, hanswered]
              cases hup : isUpgradeRequest req.headers with
              | true =>
                  obtain ⟨hrefused, hpassed⟩ := totals_serveUpgrade deps st₁ docker call m
                  rw [if_pos rfl, hrefused, hpassed]
                  -- passes are all booked here, refusals by a rate limit are all lost
                  simp
              | false =>
                  obtain ⟨hrefused, hpassed⟩ := totals_servePlain deps st₁ docker call req.body m
                  rw [if_neg (by decide), hrefused, hpassed]
                  -- refusals are all booked here, passes if they are answered in full
                  simp only [Bool.not_false, Bool.and_true, Bool.and_false]
                  exact ⟨UInt64.add_zero _, booked_or_lost _ _ _⟩

/-- **The totals over a run**, but for what is lost. -/
theorem totals_run (events : List (Happening deps)) (st : ProxyState) :
    (run step st events).metrics.rateLimitedTotal +
          UInt64.ofNat (tally step lostRefusals st events) =
        st.metrics.rateLimitedTotal + UInt64.ofNat (tally step refusals st events) ∧
      (run step st events).metrics.requestsAllowed +
          UInt64.ofNat (tally step lostPasses st events) =
        st.metrics.requestsAllowed + UInt64.ofNat (tally step passed st events) := by
  constructor
  · refine @run_tally _ _ step
      (fun s s' m n => s'.metrics.rateLimitedTotal + UInt64.ofNat n =
        s.metrics.rateLimitedTotal + UInt64.ofNat m) refusals lostRefusals (fun s => rfl)
      (fun s h s' m n hrest => ?_) events st
    have hstep := (totals_step s h).1
    simp only [UInt64.ofNat_add]
    grind
  · refine @run_tally _ _ step
      (fun s s' m n => s'.metrics.requestsAllowed + UInt64.ofNat n =
        s.metrics.requestsAllowed + UInt64.ofNat m) passed lostPasses (fun s => rfl)
      (fun s h s' m n hrest => ?_) events st
    have hstep := (totals_step s h).2
    simp only [UInt64.ofNat_add]
    grind

/-- Nothing is lost in a step that keeps the books. -/
theorem lost_eq_zero_of_keepsBooks {st : ProxyState} {h : Happening deps}
    (hkeeps : h.KeepsBooks st) : h.lostRefusals st = 0 ∧ h.lostPasses st = 0 := by
  unfold lostRefusals lostPasses
  unfold KeepsBooks at hkeeps
  cases hdecided : h.decided st with
  | none => exact ⟨rfl, rfl⟩
  | some decision =>
      obtain ⟨hup, hplain⟩ := hkeeps decision hdecided
      simp only [Option.any_some]
      cases hupgrade : h.isUpgrade with
      | true =>
          rw [hup hupgrade]
          simp
      | false =>
          by_cases hresult : decision.result = .allow
          · rw [hplain hupgrade hresult]
            simp
          · have hpasses : passes decision = false := beq_eq_false_iff_ne.mpr hresult
            rw [hpasses]
            simp

end Happening

open Happening

/-- **The books of the two paths, exactly.**  For one decision both paths change the
counters alike if and only if it is no refusal by a rate limit, and, if it lets the
request pass, Docker's answer on the plain path can be read in full.  And in every run
in which no request is refused by a rate limit on the upgrade path, or passes on the
plain path without an answer in full, the totals are the numbers of requests refused by
a rate limit and of requests that passed. -/
theorem books_iff :
    (∀ (st : ProxyState) (docker docker' : Docker) (call call' : Call) (body : BodyStream)
        (m m' : Moment) (ctx ctx' : EvaluationContext) (decision : RuleDecision),
      (serveUpgrade deps st docker call m).evaluated = some (ctx, decision) →
      (servePlain deps st docker' call' body m').evaluated = some (ctx', decision) →
      ((serveUpgrade deps st docker call m).state.metrics.decisionCounters =
          (servePlain deps st docker' call' body m').state.metrics.decisionCounters ↔
        limits decision = false ∧
          (decision.result = .allow → answeredInFull deps docker' call' body.bytes = true))) ∧
    (∀ (st : ProxyState) (events : List (Happening deps)),
      Along step (fun st h => h.KeepsBooks st) st events →
      (run step st events).metrics.rateLimitedTotal =
          st.metrics.rateLimitedTotal + UInt64.ofNat (tally step refusals st events) ∧
        (run step st events).metrics.requestsAllowed =
          st.metrics.requestsAllowed + UInt64.ofNat (tally step passed st events)) := by
  constructor
  · intro st docker docker' call call' body m m' ctx ctx' decision hup hplain
    rw [decisionCounters_serveUpgrade deps hup, decisionCounters_servePlain deps hplain]
    exact DecisionCounters.bookUpgrade_eq_bookPlain_iff _ _
  · intro st events hkeeps
    have hlost : ∀ s (h : Happening deps), h.KeepsBooks s →
        h.lostRefusals s = 0 ∧ h.lostPasses s = 0 := fun s h => lost_eq_zero_of_keepsBooks
    obtain ⟨hrefused, hpassed⟩ := totals_run events st
    have hnorefusal := tally_eq_zero step events st
      (along_mono step hkeeps fun s h hk => (hlost s h hk).1)
    have hnopass := tally_eq_zero step events st
      (along_mono step hkeeps fun s h hk => (hlost s h hk).2)
    rw [hnorefusal] at hrefused
    rw [hnopass] at hpassed
    exact ⟨(UInt64.add_zero _).symm.trans hrefused, (UInt64.add_zero _).symm.trans hpassed⟩

/-! ## §5. Books that differ. -/

/-- A proxy without authentication that allows one inspection in a minute. -/
def limitedState : ProxyState where
  config :=
    { auth := some { authType := some "none" }
      rules := some
        [{ name := "one-a-minute", action := "rate_limit"
           conditions := [.leaf
             { field := "path", operator := "starts_with", value := some (.string "/containers/") }]
           rateLimit := some { requests := 1, period := 60, penalty := 60 } }] }
  envSecret := ""
  rateLimiter := RateLimiter.new
  authLimiter := AuthLimiter.new
  metrics := {}
  audit := none
  metricsPath := none

/-- Two inspections, with some headers. -/
def inspections (headers : HeaderMap) (docker : Docker) : List (Happening Externals.sample) :=
  List.replicate 2 (.request (inspectRequest headers) () none docker momentZero)

/-- **Books that differ**: the second of two inspections is refused by the limit, and
with upgrade headers not counted as such; the first one passes, and if its answer
breaks off is counted as allowed with upgrade headers only. -/
theorem books_differ :
    (tally step refusals limitedState (inspections upgradeHeaders inspectDocker) = 1 ∧
      (run step limitedState (inspections upgradeHeaders inspectDocker)).metrics.rateLimitedTotal
        = 0 ∧
      (run step limitedState (inspections [] inspectDocker)).metrics.rateLimitedTotal = 1) ∧
    (tally step passed limitedState (inspections [] brokenDocker) = 1 ∧
      (run step limitedState (inspections [] brokenDocker)).metrics.requestsAllowed = 0 ∧
      (run step limitedState (inspections upgradeHeaders brokenDocker)).metrics.requestsAllowed
        = 1) := by
  decide +kernel

/-- A run that keeps the books. -/
theorem books_kept :
    (run step limitedState (inspections [] inspectDocker)).metrics.rateLimitedTotal =
        limitedState.metrics.rateLimitedTotal +
          UInt64.ofNat (tally step refusals limitedState (inspections [] inspectDocker)) ∧
      (run step limitedState (inspections [] inspectDocker)).metrics.requestsAllowed =
        limitedState.metrics.requestsAllowed +
          UInt64.ofNat (tally step passed limitedState (inspections [] inspectDocker)) := by
  refine (books_iff Externals.sample).2 limitedState (inspections [] inspectDocker)
    ⟨fun decision hdecided => ?_, fun decision hdecided => ?_, trivial⟩
  · exact ⟨fun hup => absurd hup (by decide +kernel), fun _ _ => by decide +kernel⟩
  · exact ⟨fun hup => absurd hup (by decide +kernel), fun _ _ => by decide +kernel⟩

end DockerProxy.Proxy
