/-
  DockerProxy.Proxy.AuditTrail — what the audit log says of a run.

  `auditRecord` is the record that a request calls for: one if it is refused by
  authentication or by a rule, one if a dry-run rule let it through, none else.

    • `handle_audited` — one request appends its record, and moves the counters of
      denials and dry runs as the record says,
    • `auditRecord_tells` — the record says what became of the request, and a request
      without one was not refused,
    • `audit_run` — both over every run: the counters can be replayed from the log.
-/
import DockerProxy.Proxy.System

namespace DockerProxy.Proxy

open DockerProxy.Lib DockerProxy.Path DockerProxy.Limiter DockerProxy.Rules

/-! ## §1. Records, and the counters that they account for. -/

/-- The counters that the audit log accounts for. -/
structure DenialCounters where
  requestsDenied : UInt64
  requestsDryRun : UInt64
  byRule : List (String × RuleCounters)
  deriving DecidableEq

def Metrics.denialCounters (m : Metrics) : DenialCounters where
  requestsDenied := m.requestsDenied
  requestsDryRun := m.requestsDryRun
  byRule := m.byRule

namespace DenialCounters

/-- Counted under its rule, if there is one. -/
def under (c : DenialCounters) (ruleName : Option String) (dryRun : Bool) : DenialCounters :=
  match ruleName with
  | some rn => { c with byRule := (({ byRule := c.byRule } : Metrics).recordRuleDeny rn dryRun).byRule }
  | none => c

/-- **What a record says was counted.** -/
def replay (c : DenialCounters) (ev : AuditEvent) : DenialCounters :=
  match ev.event with
  | "auth_denied" => { c with requestsDenied := c.requestsDenied + 1 }
  | "deny" => { c with requestsDenied := c.requestsDenied + 1 }.under ev.ruleName false
  | "dry_run" => { c with requestsDryRun := c.requestsDryRun + 1 }.under ev.ruleName true
  | _ => c

end DenialCounters

theorem denialCounters_recordRuleDeny (m : Metrics) (rn : String) (dryRun : Bool) :
    (m.recordRuleDeny rn dryRun).denialCounters = m.denialCounters.under (some rn) dryRun := by
  unfold DenialCounters.under Metrics.recordRuleDeny Metrics.denialCounters
  cases hany : m.byRule.any fun e => e.1 == rn <;>
    simp only [hany, if_true, Bool.false_eq_true, if_false]

/-- The record of a request that a rule denies. -/
def denyEvent (call : Call) (decision : RuleDecision) (status : UInt16) (message : String) :
    AuditEvent where
  timestamp := call.timestamp
  event := "deny"
  peerIp := call.peerIp
  method := call.method
  path := call.canonicalPath
  userAgent := call.userAgent
  userRole := call.userRole
  identity := call.identity
  ruleName := decision.ruleName
  ruleAction := decision.action
  status := statusCodeOr403 status
  message := some message

/-- The record of a request that a dry-run rule lets through. -/
def dryRunEvent (call : Call) (decision : RuleDecision) (ruleName : String) : AuditEvent where
  timestamp := call.timestamp
  event := "dry_run"
  peerIp := call.peerIp
  method := call.method
  path := call.canonicalPath
  userAgent := call.userAgent
  userRole := call.userRole
  identity := call.identity
  ruleName := some ruleName
  ruleAction := decision.action
  dryRun := true

/-- The record that a decision calls for. -/
def decisionRecord (call : Call) (decision : RuleDecision) : Option AuditEvent :=
  match decision.result with
  | .deny status message => some (denyEvent call decision status message)
  | .allow =>
      if decision.dryRun then decision.ruleName.map (dryRunEvent call decision) else none

section

variable (deps : Externals) (st : ProxyState)

/-- The record of a request that is answered when it is received. -/
def refusalRecord (req : Request) (peer : deps.Ip) (cert : Option CertIdentity) (m : Moment) :
    Option AuditEvent :=
  if malformed req then none
  else
    match (authenticated deps st req peer cert m).1, canonicalizePath req.path with
    | .denied status message, some p => some (authDeniedEvent deps req peer m p status message)
    | _, _ => none

/-- The record of an outcome of a call. -/
def outcomeRecord (call : Call) (outcome : Outcome) : Option AuditEvent :=
  (outcome.evaluated.map Prod.snd).bind (decisionRecord call)

/-- **The record that a request calls for.** -/
def auditRecord (req : Request) (peer : deps.Ip) (cert : Option CertIdentity) (docker : Docker)
    (m : Moment) : Option AuditEvent :=
  match (receive deps st req peer cert m).1 with
  | .ok call => outcomeRecord call (handle deps st req peer cert docker m)
  | .error _ => refusalRecord deps st req peer cert m

variable {deps st} {req : Request} {peer : deps.Ip} {cert : Option CertIdentity} {m : Moment}
variable {st₁ : ProxyState}

theorem auditRecord_of_received {call : Call}
    (h : receive deps st req peer cert m = (.ok call, st₁)) (docker : Docker) :
    auditRecord deps st req peer cert docker m =
      outcomeRecord call (handle deps st req peer cert docker m) := by
  unfold auditRecord
  rw [h]

theorem auditRecord_of_answered {response : Response}
    (h : receive deps st req peer cert m = (.error response, st₁)) (docker : Docker) :
    auditRecord deps st req peer cert docker m = refusalRecord deps st req peer cert m := by
  unfold auditRecord
  rw [h]

end

/-! ## §2. What each part of `handle` records. -/

/-- **These records are what the step appends to the log and what it counts.** -/
structure Records (st st' : ProxyState) (records : List AuditEvent) : Prop where
  audit : st'.audit = st.audit.map fun events => events ++ records
  counters : st'.metrics.denialCounters = records.foldl DenialCounters.replay st.metrics.denialCounters

namespace Records

theorem refl (st : ProxyState) : Records st st [] where
  audit := by simp
  counters := rfl

theorem trans {st st' st'' : ProxyState} {records records' : List AuditEvent}
    (h : Records st st' records) (h' : Records st' st'' records') :
    Records st st'' (records ++ records') where
  audit := by
    rw [h'.audit, h.audit, Option.map_map]
    congr 1
    funext events
    exact List.append_assoc events records records'
  counters := by rw [h'.counters, h.counters, List.foldl_append]

/-- Nothing is recorded, nor counted as denied. -/
theorem of_eq {st st' : ProxyState} (haudit : st'.audit = st.audit)
    (hcounters : st'.metrics.denialCounters = st.metrics.denialCounters) : Records st st' [] where
  audit := by simp [haudit]
  counters := hcounters

/-- What comes before and records nothing. -/
theorem after {st st' st'' : ProxyState} {records : List AuditEvent} (h : Records st st' [])
    (h' : Records st' st'' records) : Records st st'' records := h.trans h'

/-- What comes after and records nothing. -/
theorem andThen {st st' st'' : ProxyState} {records : List AuditEvent} (h : Records st st' records)
    (h' : Records st' st'' []) : Records st st'' records := by
  have := h.trans h'
  rwa [List.append_nil] at this

end Records

variable (deps : Externals)

/-- A decision that is a dry run names its rule, and lets the request pass. -/
theorem evaluateRequestDetailed_dryRun {rules : List Rule} {ctx : EvaluationContext}
    {rc : RateClock} (h : (evaluateRequestDetailed deps rules ctx rc).1.dryRun = true) :
    (evaluateRequestDetailed deps rules ctx rc).1.result = .allow ∧
      (evaluateRequestDetailed deps rules ctx rc).1.ruleName.isSome = true := by
  obtain ⟨k, rule, hfirst⟩ | hnone := firstDecidesAt_or_none deps ctx rules rc
  · rw [evaluateRequestDetailed_of_first deps hfirst] at h ⊢
    have hdry : isDryRun rule = true := by
      unfold decision at h
      simp only [Bool.and_eq_true] at h
      exact h.2
    exact ⟨if_pos (Or.inr hdry), rfl⟩
  · rw [evaluateRequestDetailed_of_none deps hnone] at h
    exact absurd h Bool.false_ne_true

section

variable (st : ProxyState) (call : Call) (m : Moment)

theorem records_bookDryRun (decision : RuleDecision) :
    Records st (bookDryRun st call decision)
      (if decision.dryRun then (decision.ruleName.map (dryRunEvent call decision)).toList else []) := by
  unfold bookDryRun
  cases hdry : decision.dryRun with
  | false => exact .refl st
  | true =>
      cases hname : decision.ruleName with
      | none => exact .refl st
      | some rn =>
          refine ⟨rfl, ?_⟩
          exact denialCounters_recordRuleDeny _ rn true

/-- A denial is counted, counted under its rule, and recorded. -/
theorem records_bookDeny (decision : RuleDecision) (status : UInt16) (message : String)
    {st' : ProxyState} (haudit : st'.audit = st.audit)
    (hcounters : st'.metrics.denialCounters = st.denied.metrics.denialCounters) :
    Records st (bookDeny st' call decision status message)
      [denyEvent call decision status message] := by
  unfold bookDeny
  cases hname : decision.ruleName with
  | none =>
      refine ⟨?_, ?_⟩
      · rw [← haudit]
        simp only [ProxyState.sendAudit, denyEvent, hname]
      · show st'.metrics.denialCounters = _
        rw [hcounters]
        simp only [List.foldl_cons, List.foldl_nil, DenialCounters.replay, denyEvent, hname]
        rfl
  | some rn =>
      refine ⟨?_, ?_⟩
      · rw [← haudit]
        simp only [ProxyState.sendAudit, ProxyState.count, denyEvent, hname]
      · show (st'.metrics.recordRuleDeny rn false).denialCounters = _
        rw [denialCounters_recordRuleDeny, hcounters]
        simp only [List.foldl_cons, List.foldl_nil, DenialCounters.replay, denyEvent, hname]
        rfl

/-- The rules record a dry run. -/
theorem records_afterRules (ctx : EvaluationContext) :
    Records st (afterRules deps st call m ctx)
      (if (decided deps st call m ctx).1.dryRun then
        ((decided deps st call m ctx).1.ruleName.map
          (dryRunEvent call (decided deps st call m ctx).1)).toList
      else []) := by
  have hbooked := records_bookDryRun
    { st with rateLimiter := (decided deps st call m ctx).2.limiter } call
    (decided deps st call m ctx).1
  exact ⟨hbooked.audit, hbooked.counters⟩

/-- The rules, and the denial that they call for. -/
theorem records_denied {ctx : EvaluationContext} {status : UInt16} {message : String}
    (hdeny : (decided deps st call m ctx).1.result = .deny status message) {st' : ProxyState}
    (haudit : st'.audit = (afterRules deps st call m ctx).audit)
    (hcounters : st'.metrics.denialCounters =
      (afterRules deps st call m ctx).denied.metrics.denialCounters) :
    Records st (bookDeny st' call (decided deps st call m ctx).1 status message)
      (decisionRecord call (decided deps st call m ctx).1).toList := by
  have hdry : (decided deps st call m ctx).1.dryRun = false := by
    by_contra h
    rw [Bool.not_eq_false] at h
    have hallow := (evaluateRequestDetailed_dryRun deps h).1
    exact absurd (hdeny.symm.trans hallow) (by simp)
  have hrules := records_afterRules deps st call m ctx
  rw [hdry] at hrules
  have hrecord : decisionRecord call (decided deps st call m ctx).1 =
      some (denyEvent call (decided deps st call m ctx).1 status message) := by
    unfold decisionRecord
    rw [hdeny]
  rw [hrecord]
  exact hrules.after (records_bookDeny _ call _ status message haudit hcounters)

/-- The rules, when they let the request pass. -/
theorem records_allowed {ctx : EvaluationContext}
    (hallow : (decided deps st call m ctx).1.result = .allow) :
    Records st (afterRules deps st call m ctx)
      (decisionRecord call (decided deps st call m ctx).1).toList := by
  have hrules := records_afterRules deps st call m ctx
  have hrecord : (decisionRecord call (decided deps st call m ctx).1).toList =
      if (decided deps st call m ctx).1.dryRun then
        ((decided deps st call m ctx).1.ruleName.map
          (dryRunEvent call (decided deps st call m ctx).1)).toList
      else [] := by
    unfold decisionRecord
    rw [hallow]
    dsimp only
    split <;> rfl
  rw [hrecord]
  exact hrules

variable {deps st call} in
theorem Exchanged.records {ex : Exchange} (h : Exchanged deps st call ex) :
    Records st ex.state [] := by
  cases h with
  | failed => exact .of_eq rfl rfl
  | timedOut => exact .of_eq rfl rfl
  | unbuilt => exact .refl st
  | answered => exact .refl st

variable {deps st call} in
theorem Forwarded.records {st' : ProxyState} (h : Forwarded deps st call st') :
    Records st st' [] := by
  cases h with
  | failed => exact .of_eq rfl rfl
  | timedOut => exact .of_eq rfl rfl
  | unbuilt => exact .refl st
  | answered => exact .of_eq rfl rfl

theorem records_readBody (body : BodyStream) : Records st (readBody deps st call body).2 [] := by
  have htaken := readBody_bodyTaken deps st call body
  generalize readBody deps st call body = taken at htaken ⊢
  cases htaken with
  | tooLarge => exact .of_eq rfl rfl
  | bad => exact .of_eq rfl rfl
  | timedOut => exact .of_eq rfl rfl
  | taken => exact .refl st

theorem records_serveUpgrade (docker : Docker) :
    Records st (serveUpgrade deps st docker call m).state
      (outcomeRecord call (serveUpgrade deps st docker call m)).toList := by
  have hserved := serveUpgrade_served deps st docker call m
  have hupgraded : Records st st.upgraded [] := .of_eq rfl rfl
  generalize serveUpgrade deps st docker call m = outcome at hserved ⊢
  cases hserved with
  | denied hdecision hdeny =>
      subst hdecision
      exact hupgraded.after (records_denied deps _ call m hdeny rfl rfl)
  | allowed hdecision hallow =>
      subst hdecision
      obtain ⟨ex, hex, hstate, -⟩ := handleUpgrade_exchanged deps
        (afterRules deps st.upgraded call m (call.evalCtx none)).allowed docker call
      show Records st (handleUpgrade deps _ docker call).state _
      rw [hstate]
      have hallowed : Records (afterRules deps st.upgraded call m (call.evalCtx none))
        (afterRules deps st.upgraded call m (call.evalCtx none)).allowed [] := .of_eq rfl rfl
      exact (hupgraded.after (records_allowed deps _ call m hallow)).andThen
        (hallowed.after hex.records)

theorem records_servePlain (docker : Docker) (body : BodyStream) :
    Records st (servePlain deps st docker call body m).state
      (outcomeRecord call (servePlain deps st docker call body m)).toList := by
  have hbody := records_readBody deps st call body
  have hserved := servePlain_served deps st docker call body m
  generalize servePlain deps st docker call body m = outcome at hserved ⊢
  cases hserved with
  | rejected hread =>
      rw [hread] at hbody
      exact hbody
  | denied _ hdecision hdeny =>
      subst hdecision
      refine records_denied deps st call m hdeny ?_ ?_
      · unfold ProxyState.limitedBy
        split <;> rfl
      · unfold ProxyState.limitedBy
        split <;> rfl
  | allowed _ hdecision hallow =>
      subst hdecision
      exact (records_allowed deps st call m hallow).andThen
        (forwardPlain_forwarded deps _ docker call _ _ m).records

variable {st} {req : Request} {peer : deps.Ip} {cert : Option CertIdentity} {docker : Docker}
variable {m : Moment}

/-- **A request appends its record**, and moves the counters as the record says. -/
theorem handle_audited :
    Records st (handle deps st req peer cert docker m).state
      (auditRecord deps st req peer cert docker m).toList := by
  have hauth : ∀ {outcome st'}, authenticated deps st req peer cert m = (outcome, st') →
      Records st st' [] := by
    intro outcome st' h
    obtain ⟨_, _, _, rfl⟩ := authenticated_frame deps h
    exact .of_eq rfl rfl
  have hreceived := receive_received deps st req peer cert m
  cases hreceive : receive deps st req peer cert m with
  | mk received st₁ =>
      rw [hreceive] at hreceived
      cases hreceived with
      | badRequest text h =>
          rw [handle_of_answered deps hreceive, auditRecord_of_answered hreceive]
          unfold refusalRecord
          rw [if_pos (malformed_iff.mpr h)]
          exact .of_eq rfl rfl
      | denied hpath hquery h =>
          rw [handle_of_answered deps hreceive, auditRecord_of_answered hreceive]
          unfold refusalRecord
          rw [wellformed hpath hquery, if_neg Bool.false_ne_true, h, hpath]
          exact (hauth h).after ⟨rfl, rfl⟩
      | metrics hpath hquery h =>
          rw [handle_of_answered deps hreceive, auditRecord_of_answered hreceive]
          unfold refusalRecord
          rw [wellformed hpath hquery, if_neg Bool.false_ne_true, h]
          exact hauth h
      | call hpath hquery h =>
          rw [auditRecord_of_received hreceive, handle_of_received deps hreceive]
          split
          · exact (hauth h).after (records_serveUpgrade deps _ _ m docker)
          · exact (hauth h).after (records_servePlain deps _ _ m docker req.body)

end

/-! ## §3. What a record says. -/

/-- **A decision that is no refusal is known from its flags, and a refusal is answered at
once.** -/
def Outcome.Decided (outcome : Outcome) : Prop :=
  ∀ ctx decision, outcome.evaluated = some (ctx, decision) →
    (decision.dryRun = true → decision.result = .allow ∧ decision.ruleName.isSome = true) ∧
    ∀ status message, decision.result = .deny status message →
      outcome.response = makeResponse (statusCodeOr403 status) message ∧ outcome.sent = none

theorem decided_serveUpgrade (st : ProxyState) (docker : Docker) (call : Call) (m : Moment) :
    (serveUpgrade deps st docker call m).Decided := by
  have hserved := serveUpgrade_served deps st docker call m
  generalize serveUpgrade deps st docker call m = outcome at hserved ⊢
  intro ctx decision hevaluated
  cases hserved with
  | denied hdecision hdeny =>
      obtain ⟨-, rfl⟩ := Prod.mk.inj (Option.some.inj hevaluated)
      subst hdecision
      refine ⟨evaluateRequestDetailed_dryRun deps, fun status message h => ?_⟩
      obtain ⟨rfl, rfl⟩ := RuleResult.deny.inj (hdeny.symm.trans h)
      exact ⟨rfl, rfl⟩
  | allowed hdecision hallow =>
      obtain ⟨-, rfl⟩ := Prod.mk.inj (Option.some.inj hevaluated)
      subst hdecision
      exact ⟨evaluateRequestDetailed_dryRun deps, fun status message h =>
        absurd (hallow.symm.trans h) (by simp)⟩

theorem decided_servePlain (st : ProxyState) (docker : Docker) (call : Call) (body : BodyStream)
    (m : Moment) : (servePlain deps st docker call body m).Decided := by
  have hserved := servePlain_served deps st docker call body m
  generalize servePlain deps st docker call body m = outcome at hserved ⊢
  intro ctx decision hevaluated
  cases hserved with
  | rejected => exact absurd hevaluated (by simp)
  | denied _ hdecision hdeny =>
      obtain ⟨-, rfl⟩ := Prod.mk.inj (Option.some.inj hevaluated)
      subst hdecision
      refine ⟨evaluateRequestDetailed_dryRun deps, fun status message h => ?_⟩
      obtain ⟨rfl, rfl⟩ := RuleResult.deny.inj (hdeny.symm.trans h)
      exact ⟨rfl, rfl⟩
  | allowed _ hdecision hallow =>
      obtain ⟨-, rfl⟩ := Prod.mk.inj (Option.some.inj hevaluated)
      subst hdecision
      exact ⟨evaluateRequestDetailed_dryRun deps, fun status message h =>
        absurd (hallow.symm.trans h) (by simp)⟩

/-- **What a record says of its request**, and what the absence of one does. -/
structure Tells (st : ProxyState) (req : Request) (peer : deps.Ip) (cert : Option CertIdentity)
    (m : Moment) (outcome : Outcome) (record : Option AuditEvent) : Prop where
  /-- Whose request it was, and when. -/
  about : ∀ ev, record = some ev → ev.timestamp = m.timestamp ∧ ev.peerIp = deps.ipToString peer ∧
    ev.method = req.method ∧ canonicalizePath req.path = some ev.path
  /-- A refusal has the status and the text that the client got, and Docker got nothing. -/
  refused : ∀ ev, record = some ev → ev.event ≠ "dry_run" →
    outcome.response = makeResponse ev.status (ev.message.getD "") ∧ outcome.sent = none
  /-- A dry run let the request pass. -/
  observed : ∀ ev, record = some ev → ev.event = "dry_run" →
    ∃ ctx decision, outcome.evaluated = some (ctx, decision) ∧ decision.result = .allow ∧
      decision.dryRun = true ∧ decision.ruleName = ev.ruleName
  /-- Without a record nothing refused the request, and no dry run saw it. -/
  unrecorded : record = none → malformed req = false →
    (∃ role identity,
        (authenticate deps st st.config req.headers peer cert m).1 = .allowed role identity) ∧
      ∀ ctx decision, outcome.evaluated = some (ctx, decision) →
        decision.result = .allow ∧ decision.dryRun = false

section

variable {deps} {st st₁ : ProxyState} {req : Request} {peer : deps.Ip} {cert : Option CertIdentity}
variable {docker : Docker} {m : Moment}

/-- The record of a call that was served. -/
theorem tells_of_decided {p : String} {role identity : Option String} {outcome : Outcome}
    (hpath : canonicalizePath req.path = some p)
    (hallowed : (authenticate deps st st.config req.headers peer cert m).1 =
      .allowed role identity) (hdecided : outcome.Decided) :
    Tells deps st req peer cert m outcome
      (outcomeRecord (callFor deps req peer m st.config p role identity) outcome) := by
  unfold outcomeRecord
  cases hevaluated : outcome.evaluated with
  | none =>
      exact
        { about := fun ev h => absurd h (by simp)
          refused := fun ev h => absurd h (by simp)
          observed := fun ev h => absurd h (by simp)
          unrecorded := fun _ _ => ⟨⟨_, _, hallowed⟩, fun ctx decision h =>
            absurd (hevaluated.symm.trans h) (by simp)⟩ }
  | some evaluated =>
      obtain ⟨ctx, decision⟩ := evaluated
      obtain ⟨hdry, hdeny⟩ := hdecided ctx decision hevaluated
      simp only [Option.map_some, Option.bind_some]
      unfold decisionRecord
      cases hresult : decision.result with
      | deny status message =>
          obtain ⟨hresponse, hsent⟩ := hdeny status message hresult
          refine ⟨fun ev h => ?_, fun ev h _ => ?_, fun ev h hkind => ?_, fun h => ?_⟩
          · rw [← Option.some.inj h]
            exact ⟨rfl, rfl, rfl, hpath⟩
          · rw [← Option.some.inj h]
            exact ⟨hresponse, hsent⟩
          · rw [← Option.some.inj h] at hkind
            exact absurd hkind (by decide : "deny" ≠ "dry_run")
          · exact absurd h (by simp)
      | allow =>
          dsimp only
          cases hflag : decision.dryRun with
          | false =>
              rw [if_neg Bool.false_ne_true]
              refine ⟨fun ev h => absurd h (by simp), fun ev h => absurd h (by simp),
                fun ev h => absurd h (by simp), fun _ _ => ⟨⟨_, _, hallowed⟩, fun ctx' d h => ?_⟩⟩
              obtain ⟨-, rfl⟩ := Prod.mk.inj (Option.some.inj (hevaluated.symm.trans h))
              exact ⟨hresult, hflag⟩
          | true =>
              obtain ⟨-, hnamed⟩ := hdry hflag
              obtain ⟨rn, hrn⟩ := Option.isSome_iff_exists.mp hnamed
              rw [if_pos rfl, hrn, Option.map_some]
              refine ⟨fun ev h => ?_, fun ev h hkind => ?_, fun ev h _ => ?_, fun h => ?_⟩
              · rw [← Option.some.inj h]
                exact ⟨rfl, rfl, rfl, hpath⟩
              · rw [← Option.some.inj h] at hkind
                exact absurd rfl hkind
              · rw [← Option.some.inj h]
                exact ⟨ctx, decision, hevaluated, hresult, hflag, hrn⟩
              · exact absurd h (by simp)

/-- **A record says what became of its request**, and a request without one was refused
by nothing but its own form. -/
theorem auditRecord_tells :
    Tells deps st req peer cert m (handle deps st req peer cert docker m)
      (auditRecord deps st req peer cert docker m) := by
  have hauth : ∀ {outcome st'}, authenticated deps st req peer cert m = (outcome, st') →
      (authenticate deps st st.config req.headers peer cert m).1 = outcome := by
    intro outcome st' h
    exact (authenticate_count deps st _ st.config req.headers peer cert m).symm.trans
      (congrArg Prod.fst h)
  have hreceived := receive_received deps st req peer cert m
  cases hreceive : receive deps st req peer cert m with
  | mk received st₁ =>
      rw [hreceive] at hreceived
      cases hreceived with
      | badRequest text h =>
          rw [auditRecord_of_answered hreceive]
          have hmalformed := malformed_iff.mpr h
          have hrecord : refusalRecord deps st req peer cert m = none := if_pos hmalformed
          rw [hrecord]
          exact ⟨fun ev h => absurd h (by simp), fun ev h => absurd h (by simp),
            fun ev h => absurd h (by simp), fun _ h => absurd (hmalformed.symm.trans h) (by simp)⟩
      | denied hpath hquery h =>
          rw [handle_of_answered deps hreceive, auditRecord_of_answered hreceive]
          unfold refusalRecord
          rw [wellformed hpath hquery, if_neg Bool.false_ne_true, h, hpath]
          refine ⟨fun ev hev => ?_, fun ev hev _ => ?_, fun ev hev hkind => ?_, fun hev => ?_⟩
          · rw [← Option.some.inj hev]
            exact ⟨rfl, rfl, rfl, hpath⟩
          · rw [← Option.some.inj hev]
            exact ⟨rfl, rfl⟩
          · rw [← Option.some.inj hev] at hkind
            exact absurd hkind (by decide : "auth_denied" ≠ "dry_run")
          · exact absurd hev (by simp)
      | metrics hpath hquery h =>
          rw [handle_of_answered deps hreceive, auditRecord_of_answered hreceive]
          unfold refusalRecord
          rw [wellformed hpath hquery, if_neg Bool.false_ne_true, h]
          exact ⟨fun ev hev => absurd hev (by simp), fun ev hev => absurd hev (by simp),
            fun ev hev => absurd hev (by simp),
            fun _ _ => ⟨⟨_, _, hauth h⟩, fun ctx d hev => absurd hev (by simp)⟩⟩
      | call hpath hquery h =>
          rw [auditRecord_of_received hreceive]
          refine tells_of_decided hpath (hauth h) ?_
          rw [handle_of_received deps hreceive]
          split
          · exact decided_serveUpgrade deps _ docker _ m
          · exact decided_servePlain deps _ docker _ req.body m

end

/-! ## §4. Runs. -/

/-- The record that an event calls for. -/
def SystemEvent.record (st : ProxyState) : SystemEvent deps → Option AuditEvent
  | .happens (.request req peer cert docker m) => auditRecord deps st req peer cert docker m
  | .happens (.reload _) | .cleanup _ _ | .tunnel _ _ => none

/-- The record of a request says what became of it. -/
def SystemEvent.Tells (st : ProxyState) : SystemEvent deps → Prop
  | .happens (.request req peer cert docker m) =>
      Proxy.Tells deps st req peer cert m (handle deps st req peer cert docker m)
        (auditRecord deps st req peer cert docker m)
  | .happens (.reload _) | .cleanup _ _ | .tunnel _ _ => True

theorem records_step (st : ProxyState) (e : SystemEvent deps) :
    Records st (e.step st) (e.record deps st).toList := by
  cases e with
  | happens h =>
      cases h with
      | request req peer cert docker m => exact handle_audited deps
      | reload config => exact .of_eq rfl rfl
  | cleanup rateNow authNow => exact .of_eq rfl rfl
  | tunnel client docker =>
      show Records st (st.countResolve _) []
      cases resolveUpgrades client docker with
      | ok _ => exact .refl st
      | failed => exact .of_eq rfl rfl
      | timedOut => exact .of_eq rfl rfl

theorem records_run (events : List (SystemEvent deps)) :
    ∀ st, Records st (run SystemEvent.step st events)
      (outputs SystemEvent.step (SystemEvent.record deps) st events) := by
  induction events with
  | nil => intro st; exact .refl st
  | cons e events ih => intro st; exact (records_step deps st e).trans (ih (e.step st))

/-- **The audit trail of a run**, as it is handed to the audit sink.  The log grows by the
records of the requests, in their order, and by nothing else; each says what became of its
request, and a request without one was not refused; and the counters of denials, dry runs
and rules are those that the records give when they are replayed. -/
theorem audit_run (st : ProxyState) (events : List (SystemEvent deps)) :
    (run SystemEvent.step st events).audit = (st.audit.map fun log =>
        log ++ outputs SystemEvent.step (SystemEvent.record deps) st events) ∧
      Along SystemEvent.step (SystemEvent.Tells deps) st events ∧
      (run SystemEvent.step st events).metrics.denialCounters =
        (outputs SystemEvent.step (SystemEvent.record deps) st events).foldl
          DenialCounters.replay st.metrics.denialCounters := by
  obtain ⟨haudit, hcounters⟩ := records_run deps events st
  refine ⟨haudit, ?_, hcounters⟩
  refine along_along SystemEvent.step (I := fun _ => True) (P := fun _ _ => True)
    (fun s e _ _ => ⟨?_, trivial⟩) events st trivial
    (along_of_forall SystemEvent.step events st fun _ _ => trivial)
  cases e with
  | happens h =>
      cases h with
      | request req peer cert docker m => exact auditRecord_tells
      | reload config => exact trivial
  | cleanup rateNow authNow => exact trivial
  | tunnel client docker => exact trivial

end DockerProxy.Proxy
