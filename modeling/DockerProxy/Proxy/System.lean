/-
  DockerProxy.Proxy.System — the running proxy: requests, reloads, cleanups and tunnels.

  `Kept` lists all that serving a request does to the shared state, `Touched` adds what
  its authentication does.  From these, over every run:

    • `tables_bounded` — the tables of both limiters never outgrow their limits,
    • `locked_out_run` — an address that is locked out is refused until the lockout ends,
      whatever everybody does, and its requests reach neither the rules nor Docker,
    • `closed_run` — nor do those of anybody, where nobody can be authenticated.
-/
import DockerProxy.Limiter.AuthHistory
import DockerProxy.Proxy.Books
import DockerProxy.Proxy.Tunnel
import DockerProxy.Rules.Isolation

namespace DockerProxy.Proxy

open DockerProxy.Lib DockerProxy.Path DockerProxy.Limiter DockerProxy.Rules

/-! ## §1. Events. -/

/-- A request, which is served to its end, a reload, the task that cleans up both limiters,
or that of a switched connection, which waits for its two ends. -/
inductive SystemEvent (deps : Externals) where
  | happens (h : Happening deps)
  | cleanup (rateNow authNow : Nat)
  | tunnel (client docker : Attempt Unit)

/-- The state after the event. -/
def SystemEvent.step {deps : Externals} (st : ProxyState) : SystemEvent deps → ProxyState
  | .happens h => h.step st
  | .cleanup rateNow authNow =>
      { st with
        rateLimiter := st.rateLimiter.cleanup rateNow
        authLimiter := st.authLimiter.cleanup authNow }
  | .tunnel client docker => st.countResolve (resolveUpgrades client docker)

/-! ## §2. What a request does to the shared state. -/

/-- **All that serving a request does**: it appends to the audit log, counts, and checks
the limiter of the rules. -/
structure Kept (st st' : ProxyState) : Prop where
  config : st'.config = st.config
  envSecret : st'.envSecret = st.envSecret
  metricsPath : st'.metricsPath = st.metricsPath
  authLimiter : st'.authLimiter = st.authLimiter
  audit : ∃ records, st'.audit = st.audit.map fun events => events ++ records
  rateLimiter : ∃ checks : List LimitCheck, st'.rateLimiter = run afterCheck st.rateLimiter checks

namespace Kept

theorem refl (st : ProxyState) : Kept st st where
  config := rfl
  envSecret := rfl
  metricsPath := rfl
  authLimiter := rfl
  audit := ⟨[], by simp⟩
  rateLimiter := ⟨[], rfl⟩

theorem trans {st st' st'' : ProxyState} (h : Kept st st') (h' : Kept st' st'') : Kept st st'' where
  config := h'.config.trans h.config
  envSecret := h'.envSecret.trans h.envSecret
  metricsPath := h'.metricsPath.trans h.metricsPath
  authLimiter := h'.authLimiter.trans h.authLimiter
  audit := by
    obtain ⟨records, hrecords⟩ := h.audit
    obtain ⟨records', hrecords'⟩ := h'.audit
    refine ⟨records ++ records', ?_⟩
    rw [hrecords', hrecords, Option.map_map]
    congr 1
    funext events
    exact List.append_assoc events records records'
  rateLimiter := by
    obtain ⟨checks, hchecks⟩ := h.rateLimiter
    obtain ⟨checks', hchecks'⟩ := h'.rateLimiter
    exact ⟨checks ++ checks', by rw [hchecks', hchecks, run_append]⟩

/-- Counting changes the counters only. -/
theorem of_metrics {st st' : ProxyState} (h : st' = { st with metrics := st'.metrics }) :
    Kept st st' := by
  rw [h]
  exact { refl st with config := rfl }

theorem count (st : ProxyState) (f : Metrics → Metrics) : Kept st (st.count f) := .of_metrics rfl

/-- Recording adds to the audit log only. -/
theorem sendAudit (st : ProxyState) (ev : AuditEvent) : Kept st (st.sendAudit ev) :=
  { refl st with config := rfl, audit := ⟨[ev], rfl⟩ }

end Kept

section

variable (deps : Externals) (st : ProxyState) (call : Call) (m : Moment)

/-- The task of a switched connection keeps them, too. -/
theorem kept_countResolve (resolved : Attempt Unit) : Kept st (st.countResolve resolved) := by
  cases resolved with
  | ok _ => exact .refl st
  | failed => exact .of_metrics rfl
  | timedOut => exact .of_metrics rfl

theorem kept_bookDryRun (decision : RuleDecision) : Kept st (bookDryRun st call decision) := by
  unfold bookDryRun
  split
  · exact ((Kept.count _ _).trans (Kept.count _ _)).trans (Kept.sendAudit _ _)
  · exact .refl st

theorem kept_bookDeny (decision : RuleDecision) (status : UInt16) (message : String) :
    Kept st (bookDeny st call decision status message) := by
  unfold bookDeny
  split
  · exact (Kept.count _ _).trans (Kept.sendAudit _ _)
  · exact Kept.sendAudit _ _

/-- Deciding checks the limiter, and a dry run is recorded. -/
theorem kept_afterRules (ctx : EvaluationContext) : Kept st (afterRules deps st call m ctx) := by
  have hchecks := (run_evaluationChecks deps ctx call.rules 0 ⟨st.rateLimiter, m.readings⟩).2
  have hdecided : Kept st { st with rateLimiter := (decided deps st call m ctx).2.limiter } :=
    { Kept.refl st with config := rfl, rateLimiter := ⟨_, hchecks.symm⟩ }
  exact hdecided.trans (kept_bookDryRun _ call _)

theorem kept_limitedBy (decision : RuleDecision) : Kept st (st.limitedBy decision) := by
  unfold ProxyState.limitedBy
  split
  · exact .count _ _
  · exact .refl st

variable {deps st call} in
theorem Exchanged.kept {ex : Exchange} (h : Exchanged deps st call ex) : Kept st ex.state := by
  cases h with
  | failed => exact .of_metrics rfl
  | timedOut => exact .of_metrics rfl
  | unbuilt => exact .refl st
  | answered => exact .refl st

variable {deps st call} in
theorem Forwarded.kept {st' : ProxyState} (h : Forwarded deps st call st') : Kept st st' := by
  cases h with
  | failed => exact .of_metrics rfl
  | timedOut => exact .of_metrics rfl
  | unbuilt => exact .refl st
  | answered => exact .of_metrics rfl

theorem kept_readBody (body : BodyStream) : Kept st (readBody deps st call body).2 := by
  have htaken := readBody_bodyTaken deps st call body
  generalize readBody deps st call body = taken at htaken ⊢
  cases htaken with
  | tooLarge => exact .of_metrics rfl
  | bad => exact .of_metrics rfl
  | timedOut => exact .of_metrics rfl
  | taken => exact .refl st

theorem kept_serveUpgrade (docker : Docker) :
    Kept st (serveUpgrade deps st docker call m).state := by
  have hserved := serveUpgrade_served deps st docker call m
  generalize serveUpgrade deps st docker call m = outcome at hserved ⊢
  have hrules : Kept st (afterRules deps st.upgraded call m (call.evalCtx none)) :=
    (Kept.count st _).trans (kept_afterRules deps _ call m _)
  cases hserved with
  | denied => exact hrules.trans ((Kept.count _ _).trans (kept_bookDeny _ call _ _ _))
  | allowed =>
      obtain ⟨ex, hex, hstate, -⟩ := handleUpgrade_exchanged deps
        (afterRules deps st.upgraded call m (call.evalCtx none)).allowed docker call
      show Kept st (handleUpgrade deps _ docker call).state
      rw [hstate]
      exact hrules.trans ((Kept.count _ _).trans hex.kept)

theorem kept_servePlain (docker : Docker) (body : BodyStream) :
    Kept st (servePlain deps st docker call body m).state := by
  have hbody := kept_readBody deps st call body
  have hserved := servePlain_served deps st docker call body m
  generalize servePlain deps st docker call body m = outcome at hserved ⊢
  cases hserved with
  | rejected hread =>
      rw [hread] at hbody
      exact hbody
  | denied _ _ _ =>
      exact (kept_afterRules deps st call m _).trans
        ((Kept.count _ _).trans ((kept_limitedBy _ _).trans (kept_bookDeny _ call _ _ _)))
  | allowed _ _ _ =>
      exact (kept_afterRules deps st call m _).trans
        (forwardPlain_forwarded deps _ docker call _ _ m).kept

end

/-- **All that authentication does to its limiter**: nothing while the address is locked
out, else a failure or a success of it may be recorded. -/
inductive AuthMoved (key : String) (m : Moment) (al : AuthLimiter) : AuthLimiter → Prop where
  | same : AuthMoved key m al al
  | failure (hfree : al.isBlocked m.checkedAt key = false) :
      AuthMoved key m al
        (al.recordFailure m.recordedAt key authFailMax authFailWindow authFailLockout).2
  | success (hfree : al.isBlocked m.checkedAt key = false) :
      AuthMoved key m al (al.recordSuccess key)

/-- **All that a request does to the shared state.** -/
structure Touched (key : String) (m : Moment) (st st' : ProxyState) : Prop where
  auth : AuthMoved key m st.authLimiter st'.authLimiter
  rest : Kept { st with authLimiter := st'.authLimiter } st'

theorem Touched.of_kept {key : String} {m : Moment} {st st' : ProxyState} (h : Kept st st') :
    Touched key m st st' where
  auth := by rw [h.authLimiter]; exact .same
  rest := { h with authLimiter := rfl }

theorem Touched.kept {key : String} {m : Moment} {st st' st'' : ProxyState}
    (h : Touched key m st st') (h' : Kept st' st'') : Touched key m st st'' where
  auth := by rw [h'.authLimiter]; exact h.auth
  rest := by
    rw [h'.authLimiter]
    exact h.rest.trans h'

variable (deps : Externals)

/-- **What authentication leaves alone**: all but its limiter and its two counters. -/
theorem authenticate_frame (st : ProxyState) (config : ProxyConfig) (headers : HeaderMap)
    (peer : deps.Ip) (cert : Option CertIdentity) (m : Moment) :
    ∃ failures lockouts authLimiter, (authenticate deps st config headers peer cert m).2 =
      { st with
        metrics := { st.metrics with authFailuresTotal := failures, authLockoutsTotal := lockouts }
        authLimiter := authLimiter } := by
  have hfailure : ∀ authKey, ∃ failures lockouts authLimiter, recordAuthFailure st authKey m =
      { st with
        metrics := { st.metrics with authFailuresTotal := failures, authLockoutsTotal := lockouts }
        authLimiter := authLimiter } := by
    intro authKey
    unfold recordAuthFailure
    dsimp only
    split <;> exact ⟨_, _, _, rfl⟩
  unfold authenticate
  dsimp only
  split
  · exact ⟨_, _, _, rfl⟩
  split
  · exact ⟨_, _, _, rfl⟩
  split
  · split
    · exact ⟨_, _, _, rfl⟩
    · split
      · exact ⟨_, _, _, rfl⟩
      · exact hfailure _
  split
  · exact ⟨_, _, _, rfl⟩
  split
  · split
    · exact ⟨_, _, _, rfl⟩
    · exact hfailure _
  · exact hfailure _
  · exact hfailure _

/-- The state after authentication, seen from the one before. -/
theorem authenticated_frame {st st' : ProxyState} {req : Request} {peer : deps.Ip}
    {cert : Option CertIdentity} {m : Moment} {outcome : AuthOutcome}
    (h : authenticated deps st req peer cert m = (outcome, st')) :
    ∃ failures lockouts authLimiter, st' =
      { st with
        metrics :=
          { st.counted.metrics with authFailuresTotal := failures, authLockoutsTotal := lockouts }
        authLimiter := authLimiter } := by
  obtain ⟨failures, lockouts, authLimiter, hframe⟩ :=
    authenticate_frame deps st.counted st.config req.headers peer cert m
  exact ⟨failures, lockouts, authLimiter, (congrArg Prod.snd h).symm.trans hframe⟩

theorem touched_authenticate (st : ProxyState) (config : ProxyConfig) (headers : HeaderMap)
    (peer : deps.Ip) (cert : Option CertIdentity) (m : Moment) :
    Touched (deps.ipToString peer) m st (authenticate deps st config headers peer cert m).2 := by
  have hsame : Touched (deps.ipToString peer) m st st := .of_kept (.refl st)
  have hfailure : st.authLimiter.isBlocked m.checkedAt (deps.ipToString peer) = false →
      Touched (deps.ipToString peer) m st (recordAuthFailure st (deps.ipToString peer) m) := by
    intro hfree
    unfold recordAuthFailure
    dsimp only
    split
    · exact ⟨.failure hfree, { Kept.refl _ with config := rfl }⟩
    · exact ⟨.failure hfree, { Kept.refl _ with config := rfl }⟩
  have hsuccess : st.authLimiter.isBlocked m.checkedAt (deps.ipToString peer) = false →
      Touched (deps.ipToString peer) m st (recordAuthSuccess st (deps.ipToString peer)) :=
    fun hfree => ⟨.success hfree, .refl _⟩
  unfold authenticate
  dsimp only
  cases hblocked : st.authLimiter.isBlocked m.checkedAt (deps.ipToString peer) with
  | true => exact hsame
  | false =>
      simp only [Bool.false_eq_true, if_false]
      split
      · exact hsame
      split
      · split
        · exact hsame
        · split
          · exact hsuccess hblocked
          · exact hfailure hblocked
      split
      · exact hsame
      split
      · split
        · exact hsuccess hblocked
        · exact hfailure hblocked
      · exact hfailure hblocked
      · exact hfailure hblocked

theorem touched_receive (st : ProxyState) (req : Request) (peer : deps.Ip)
    (cert : Option CertIdentity) (m : Moment) :
    Touched (deps.ipToString peer) m st (receive deps st req peer cert m).2 := by
  have hauth : Touched (deps.ipToString peer) m st (authenticated deps st req peer cert m).2 := by
    have h := touched_authenticate deps st.counted st.config req.headers peer cert m
    have hcounted : ∀ authLimiter, Kept { st with authLimiter } { st.counted with authLimiter } :=
      fun _ => .of_metrics rfl
    exact ⟨h.auth, (hcounted _).trans h.rest⟩
  have hreceived := receive_received deps st req peer cert m
  generalize receive deps st req peer cert m = received at hreceived ⊢
  cases hreceived with
  | badRequest => exact .of_kept (.of_metrics rfl)
  | denied _ _ h =>
      rw [h] at hauth
      exact hauth.kept ((Kept.count _ _).trans (Kept.sendAudit _ _))
  | metrics _ _ h =>
      rw [h] at hauth
      exact hauth
  | call _ _ h =>
      rw [h] at hauth
      exact hauth

/-- **What a request does to the shared state.** -/
theorem touched_handle (st : ProxyState) (req : Request) (peer : deps.Ip)
    (cert : Option CertIdentity) (docker : Docker) (m : Moment) :
    Touched (deps.ipToString peer) m st (handle deps st req peer cert docker m).state := by
  have hreceived := touched_receive deps st req peer cert m
  cases hreceive : receive deps st req peer cert m with
  | mk received st₁ =>
      rw [hreceive] at hreceived
      cases received with
      | error response =>
          rw [handle_of_answered deps hreceive]
          exact hreceived
      | ok call =>
          rw [handle_of_received deps hreceive]
          split
          · exact hreceived.kept (kept_serveUpgrade deps st₁ call m docker)
          · exact hreceived.kept (kept_servePlain deps st₁ call m docker req.body)

/-! ## §3. The tables of the limiters. -/

theorem size_check {rl : RateLimiter} (h : rl.buckets.size ≤ maxRateLimitBuckets) (now : Nat)
    (key : String) (maxRequests periodSecs penaltySecs : Nat) :
    (rl.check now key maxRequests periodSecs penaltySecs).2.buckets.size ≤ maxRateLimitBuckets := by
  unfold RateLimiter.check
  split
  · exact h
  split
  · exact h
  next hroom =>
    simp only [Bool.and_eq_true, Bool.not_eq_true', decide_eq_true_iff, not_and] at hroom
    show (rl.buckets.insert key _).size ≤ _
    rw [Std.ExtTreeMap.size_insert]
    split
    · exact h
    next hnew =>
      rw [Bool.not_eq_true] at hnew
      have hsize := hroom hnew
      omega

theorem size_recordFailure {al : AuthLimiter} (h : al.state.size ≤ maxAuthLimiterKeys) (now : Nat)
    (key : String) (max : UInt32) (window lockout : Nat) :
    (al.recordFailure now key max window lockout).2.state.size ≤ maxAuthLimiterKeys := by
  unfold AuthLimiter.recordFailure
  split
  · exact h
  next hroom =>
    show (al.state.insert key _).size ≤ _
    rw [Std.ExtTreeMap.size_insert]
    split
    · exact h
    next hnew =>
      have hsize : ¬ maxAuthLimiterKeys ≤ al.state.size := fun hfull => hroom ⟨hfull, hnew⟩
      omega

/-- **Both tables are within their limits.** -/
structure TablesBounded (st : ProxyState) : Prop where
  rate : st.rateLimiter.buckets.size ≤ maxRateLimitBuckets
  auth : st.authLimiter.state.size ≤ maxAuthLimiterKeys

/-- A request leaves the tables within their limits. -/
theorem Touched.tablesBounded {key : String} {m : Moment} {st st' : ProxyState}
    (h : Touched key m st st') (hbounded : TablesBounded st) : TablesBounded st' where
  rate := by
    obtain ⟨checks, hchecks⟩ := h.rest.rateLimiter
    rw [hchecks]
    exact run_invariant afterCheck (I := fun rl => rl.buckets.size ≤ maxRateLimitBuckets)
      (fun rl c hrl => size_check hrl _ _ _ _ _) checks _ hbounded.rate
  auth := by
    obtain ⟨hauth, -⟩ := h
    generalize st'.authLimiter = al at hauth ⊢
    cases hauth with
    | same => exact hbounded.auth
    | failure => exact size_recordFailure hbounded.auth _ _ _ _ _
    | success => exact Nat.le_trans Std.ExtTreeMap.size_erase_le hbounded.auth

/-- **The tables never outgrow their limits**, whatever requests, reloads and cleanups
come. -/
theorem tables_bounded (events : List (SystemEvent deps)) :
    ∀ st, TablesBounded st → TablesBounded (run SystemEvent.step st events) := by
  refine run_invariant _ (fun st e h => ?_) events
  cases e with
  | happens h' =>
      cases h' with
      | request req peer cert docker m =>
          exact (touched_handle deps st req peer cert docker m).tablesBounded h
      | reload config => exact ⟨h.rate, h.auth⟩
  | cleanup rateNow authNow =>
      exact ⟨Nat.le_trans Std.ExtTreeMap.size_filter_le_size h.rate,
        Nat.le_trans Std.ExtTreeMap.size_filter_le_size h.auth⟩
  | tunnel client docker =>
      have htouched : Touched "" momentZero st (st.countResolve _) :=
        .of_kept (kept_countResolve st (resolveUpgrades client docker))
      exact htouched.tablesBounded h

/-- A fresh proxy stays within the limits. -/
theorem tables_bounded_fresh :
    TablesBounded (run SystemEvent.step limitedState
      (.cleanup 1 1 :: (inspections [] inspectDocker).map .happens)) := by
  refine tables_bounded Externals.sample _ limitedState ⟨?_, ?_⟩
  · exact Nat.zero_le _
  · exact Nat.zero_le _

/-! ## §4. Requests that are refused at the door. -/

/-- Authentication does not look at the counters. -/
theorem authenticate_count (st : ProxyState) (f : Metrics → Metrics) (config : ProxyConfig)
    (headers : HeaderMap) (peer : deps.Ip) (cert : Option CertIdentity) (m : Moment) :
    (authenticate deps (st.count f) config headers peer cert m).1 =
      (authenticate deps st config headers peer cert m).1 := by
  have hblocked : (st.count f).authLimiter = st.authLimiter := rfl
  have hsecret : (st.count f).envSecret = st.envSecret := rfl
  unfold authenticate
  rw [hblocked, hsecret]
  dsimp only
  split
  · rfl
  split
  · rfl
  split
  · split
    · rfl
    · split <;> rfl
  split
  · rfl
  split
  · split <;> rfl
  · rfl
  · rfl

/-- The path or the query is malformed. -/
def malformed (req : Request) : Bool :=
  (canonicalizePath req.path).isNone || !queryAccepted req.query

theorem malformed_iff {req : Request} :
    malformed req = true ↔ canonicalizePath req.path = none ∨ queryAccepted req.query = false := by
  unfold malformed
  rw [Bool.or_eq_true, Option.isNone_iff_eq_none, Bool.not_eq_true']

theorem wellformed {req : Request} {p : String} (hpath : canonicalizePath req.path = some p)
    (hquery : queryAccepted req.query = true) : malformed req = false := by
  unfold malformed
  rw [hpath, hquery]
  rfl

/-- **The request is refused before any rule is asked**, and Docker never sees it. -/
structure Refused (req : Request) (statuses : List UInt16) (outcome : Outcome) : Prop where
  sent : outcome.sent = none
  evaluated : outcome.evaluated = none
  status : outcome.response.status ∈ if malformed req then [400] else statuses

/-- Who is not authenticated is refused. -/
theorem handle_refused {st : ProxyState} {req : Request} {peer : deps.Ip}
    {cert : Option CertIdentity} {m : Moment} {status : UInt16} {message : String}
    (hdenied : (authenticate deps st st.config req.headers peer cert m).1 = .denied status message)
    {statuses : List UInt16} (hstatus : status ∈ statuses) (docker : Docker) :
    Refused req statuses (handle deps st req peer cert docker m) := by
  have hauth : (authenticated deps st req peer cert m).1 = .denied status message :=
    (authenticate_count deps st _ st.config req.headers peer cert m).trans hdenied
  have hreceived := receive_received deps st req peer cert m
  cases hreceive : receive deps st req peer cert m with
  | mk received st₁ =>
      rw [hreceive] at hreceived
      cases hreceived with
      | badRequest text h =>
          rw [handle_of_answered deps hreceive]
          refine ⟨rfl, rfl, ?_⟩
          rw [malformed_iff.mpr h]
          exact List.mem_singleton.mpr rfl
      | denied hpath hquery h =>
          rw [handle_of_answered deps hreceive]
          refine ⟨rfl, rfl, ?_⟩
          rw [h] at hauth
          obtain ⟨rfl, rfl⟩ := AuthOutcome.denied.inj hauth
          rw [wellformed hpath hquery]
          exact hstatus
      | metrics _ _ h =>
          rw [h] at hauth
          exact absurd hauth (by simp)
      | call _ _ h =>
          rw [h] at hauth
          exact absurd hauth (by simp)

/-- The requests from these addresses are refused. -/
def SystemEvent.Refuses (whose : deps.Ip → Prop) (statuses : List UInt16) (st : ProxyState) :
    SystemEvent deps → Prop
  | .happens (.request req peer cert docker m) =>
      whose peer → Refused req statuses (handle deps st req peer cert docker m)
  | .happens (.reload _) | .cleanup _ _ | .tunnel _ _ => True

/-! ## §5. Addresses that are locked out. -/

section

variable {deps} {key : String} {until_ : Nat}

/-- **The clock of the event reads less than `until_`**, where the lockout of this address
is looked at. -/
def SystemEvent.Before (key : String) (until_ : Nat) : SystemEvent deps → Prop
  | .happens (.request _ peer _ _ m) => deps.ipToString peer = key → m.checkedAt < until_
  | .happens (.reload _) => True
  | .cleanup _ authNow => authNow < until_
  | .tunnel _ _ => True

theorem isBlocked_of_blockedUntil {al : AuthLimiter} {now : Nat}
    (h : al.BlockedUntil key until_) (hnow : now < until_) : al.isBlocked now key = true := by
  obtain ⟨s, hs, hu⟩ := h
  rw [AuthLimiter.isBlocked_eq, hs, Option.any_some, hu]
  exact decide_eq_true hnow

/-- No other address can end the lockout, and the address itself cannot. -/
theorem AuthMoved.blocked {key' : String} {m : Moment} {al al' : AuthLimiter}
    (h : AuthMoved key' m al al') (hblocked : al.BlockedUntil key until_)
    (hbefore : key' = key → m.checkedAt < until_) : al'.BlockedUntil key until_ := by
  have hother : al.isBlocked m.checkedAt key' = false → key' ≠ key := by
    rintro hfree rfl
    rw [isBlocked_of_blockedUntil hblocked (hbefore rfl)] at hfree
    exact absurd hfree (by decide)
  cases h with
  | same => exact hblocked
  | failure hfree =>
      obtain ⟨s, hs, hu⟩ := hblocked
      refine ⟨s, ?_, hu⟩
      rw [AuthLimiter.entry_recordFailure_of_ne (hother hfree)]
      exact hs
  | success hfree => exact AuthSystem.blocked_recordSuccess hblocked (hother hfree)

theorem blocked_step {st : ProxyState} {e : SystemEvent deps}
    (hblocked : st.authLimiter.BlockedUntil key until_) (hbefore : e.Before key until_) :
    (e.step st).authLimiter.BlockedUntil key until_ := by
  cases e with
  | happens h =>
      cases h with
      | request req peer cert docker m =>
          exact (touched_handle deps st req peer cert docker m).auth.blocked hblocked hbefore
      | reload config => exact hblocked
  | cleanup rateNow authNow => exact AuthSystem.blocked_cleanup hblocked hbefore
  | tunnel client docker =>
      rw [← (kept_countResolve st (resolveUpgrades client docker)).authLimiter] at hblocked
      exact hblocked

/-- **A lockout holds for the whole proxy**: until its end every request from the address
is refused with a `429`, no rule and no Docker sees it, and the lockout stays, in every run
of requests of any address, reloads and cleanups. -/
theorem locked_out_run {st : ProxyState} (hblocked : st.authLimiter.BlockedUntil key until_)
    {events : List (SystemEvent deps)} (hbefore : ∀ e ∈ events, e.Before key until_) :
    Along SystemEvent.step
        (fun st e => e.Refuses deps (fun peer => deps.ipToString peer = key) [429] st) st events ∧
      (run SystemEvent.step st events).authLimiter.BlockedUntil key until_ := by
  have halong := along_of_forall SystemEvent.step events st hbefore
  refine ⟨along_along SystemEvent.step (I := fun st => st.authLimiter.BlockedUntil key until_)
    (fun st e h he => ⟨?_, blocked_step h he⟩) events st hblocked halong,
    along_invariant SystemEvent.step (I := fun st => st.authLimiter.BlockedUntil key until_)
      (fun st e => blocked_step) events st hblocked halong⟩
  cases e with
  | happens h' =>
      cases h' with
      | request req peer cert docker m =>
          rintro rfl
          have hdenied : (authenticate deps st st.config req.headers peer cert m).1 =
              .denied 429 "Too many authentication failures" := by
            unfold authenticate
            dsimp only
            rw [isBlocked_of_blockedUntil h (he rfl)]
            rfl
          exact handle_refused deps hdenied (List.mem_singleton.mpr rfl) docker
      | reload config => exact trivial
  | cleanup rateNow authNow => exact trivial
  | tunnel client docker => exact trivial

end

/-- The proxy with one token, its only client locked out. -/
def lockedOutState : ProxyState :=
  { oneTokenState with
    authLimiter := ⟨AuthLimiter.new.state.insert "127.0.0.1" ⟨10, 0, some (fromSecs 300)⟩⟩ }

/-- An inspection with the token. -/
def inspectWithToken : Happening Externals.sample :=
  .request (inspectRequest [("authorization", .ofStr "Bearer s3cret")]) () none inspectDocker
    momentZero

/-- The token does not help who is locked out. -/
theorem locked_out_run_token :
    Along SystemEvent.step
        (fun st e => e.Refuses Externals.sample
          (fun peer => Externals.sample.ipToString peer = "127.0.0.1") [429] st)
        lockedOutState [.happens inspectWithToken, .cleanup 1 1, .happens inspectWithToken] ∧
      (run SystemEvent.step lockedOutState
        [.happens inspectWithToken, .cleanup 1 1, .happens inspectWithToken]).authLimiter.BlockedUntil
          "127.0.0.1" (fromSecs 300) := by
  refine locked_out_run ⟨_, Std.ExtTreeMap.getElem?_insert_self, rfl⟩ fun e he => ?_
  simp only [List.mem_cons, List.not_mem_nil, or_false] at he
  obtain rfl | rfl | rfl := he
  · exact fun _ => by decide
  · exact (by decide : 1 < fromSecs 300)
  · exact fun _ => by decide

/-! ## §6. A proxy that nobody can authenticate to. -/

section

variable {deps} {secret : String}

/-- A configuration that is swapped in has an `auth` section of a type other than `none` and
`mtls` with no token or secret that is not empty, or no such section where the secret of
the environment is empty, too. -/
def SystemEvent.Unconfigured (secret : String) : SystemEvent deps → Prop
  | .happens (.reload config) => isAuthStrictlyConfigured config secret = false
  | .happens (.request _ _ _ _ _) | .cleanup _ _ | .tunnel _ _ => True

/-- Nor does the configuration in force let anybody be authenticated. -/
structure ClosedState (secret : String) (st : ProxyState) : Prop where
  envSecret : st.envSecret = secret
  config : isAuthStrictlyConfigured st.config secret = false

theorem closed_step {st : ProxyState} {e : SystemEvent deps} (h : ClosedState secret st)
    (he : e.Unconfigured secret) : ClosedState secret (e.step st) := by
  cases e with
  | happens h' =>
      cases h' with
      | request req peer cert docker m =>
          obtain ⟨-, hrest⟩ := touched_handle deps st req peer cert docker m
          exact ⟨hrest.envSecret.trans h.envSecret, by
            show isAuthStrictlyConfigured (handle deps st req peer cert docker m).state.config _ = _
            rw [hrest.config]
            exact h.config⟩
      | reload config => exact ⟨h.envSecret, he⟩
  | cleanup rateNow authNow => exact ⟨h.envSecret, h.config⟩
  | tunnel client docker =>
      have hkept := kept_countResolve st (resolveUpgrades client docker)
      exact ⟨hkept.envSecret.trans h.envSecret, by
        show isAuthStrictlyConfigured (st.countResolve _).config _ = _
        rw [hkept.config]
        exact h.config⟩

/-- Nobody is authenticated. -/
theorem authenticate_closed {st : ProxyState} (h : ClosedState secret st) (headers : HeaderMap)
    (peer : deps.Ip) (cert : Option CertIdentity) (m : Moment) :
    ∃ status message, (authenticate deps st st.config headers peer cert m).1 =
      .denied status message ∧ status ∈ [401, 429] := by
  have hunset : isAuthStrictlyConfigured st.config st.envSecret = false := by
    rw [h.envSecret]
    exact h.config
  have htype : ∀ t ∈ ["none", "mtls"], authType st.config ≠ some t := by
    intro t ht htype
    unfold isAuthStrictlyConfigured at hunset
    unfold authType at htype
    cases hauth : st.config.auth with
    | none =>
        rw [hauth] at htype
        exact absurd htype (by simp)
    | some auth =>
        rw [hauth] at htype hunset
        have htype : auth.authType = some t := htype
        simp only [List.mem_cons, List.not_mem_nil, or_false] at ht
        obtain rfl | rfl := ht
        · simp [htype] at hunset
        · simp [htype] at hunset
  cases hblocked : st.authLimiter.isBlocked m.checkedAt (deps.ipToString peer) with
  | true =>
      refine ⟨429, "Too many authentication failures", ?_, by decide⟩
      unfold authenticate
      dsimp only
      rw [hblocked]
      rfl
  | false =>
      refine ⟨401, "Authentication is not configured", ?_, by decide⟩
      rw [authenticate_bearer deps headers cert (htype _ (by simp)) (htype _ (by simp)) hblocked,
        hunset]
      rfl

/-- **Such a proxy is closed**: in every run in which every configuration is one of these,
every request is refused, no rule is asked, and Docker is sent nothing. -/
theorem closed_run {st : ProxyState} (hclosed : ClosedState secret st)
    {events : List (SystemEvent deps)} (hunconfigured : ∀ e ∈ events, e.Unconfigured secret) :
    Along SystemEvent.step (fun st e => e.Refuses deps (fun _ => True) [401, 429] st) st events := by
  refine along_along _ (fun st e h he => ⟨?_, closed_step h he⟩) events st hclosed
    (along_of_forall SystemEvent.step events st hunconfigured)
  cases e with
  | happens h' =>
      cases h' with
      | request req peer cert docker m =>
          intro _
          obtain ⟨status, message, hdenied, hstatus⟩ :=
            authenticate_closed h req.headers peer cert m
          exact handle_refused deps hdenied hstatus docker
      | reload config => exact trivial
  | cleanup rateNow authNow => exact trivial
  | tunnel client docker => exact trivial

end

/-- The proxy without its token. -/
theorem closed_run_inspections :
    Along SystemEvent.step (fun st e => e.Refuses Externals.sample (fun _ => True) [401, 429] st)
      { oneTokenState with config := {} }
      [.happens inspectWithToken, .happens (.reload {}), .happens inspectWithToken] := by
  refine @closed_run Externals.sample "" _ ⟨rfl, by decide⟩ _ fun e he => ?_
  simp only [List.mem_cons, List.not_mem_nil, or_false] at he
  obtain rfl | rfl | rfl := he
  · exact trivial
  · exact (by decide : isAuthStrictlyConfigured {} "" = false)
  · exact trivial

end DockerProxy.Proxy
