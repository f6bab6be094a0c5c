/-
  DockerProxy.Proxy.Metrics — the counters of `metrics.rs`.

  Every counter is an `AtomicU64`, so an addition wraps; the per-rule counters
  saturate.  `byRule` lists the entries in the map's iteration order.
-/
import DockerProxy.Lib.Text

namespace DockerProxy.Proxy

open DockerProxy.Lib

/-! ## §1. The counters. -/

/-- `LATENCY_BUCKETS_MS`. -/
def latencyBucketsMs : List Nat := [5, 10, 25, 50, 100, 250, 500, 1000, 2500, 5000, 10000]

structure RuleCounters where
  denied : UInt64 := 0
  dryRun : UInt64 := 0
  deriving DecidableEq

/-- Twelve buckets: one for each bound and one for what exceeds them all. -/
structure LatencyHistogram where
  buckets : List UInt64 := List.replicate 12 0
  sumMs : UInt64 := 0
  count : UInt64 := 0
  deriving DecidableEq

structure Metrics where
  requestsTotal : UInt64 := 0
  requestsAllowed : UInt64 := 0
  requestsDenied : UInt64 := 0
  requestsDryRun : UInt64 := 0
  authFailuresTotal : UInt64 := 0
  authLockoutsTotal : UInt64 := 0
  rateLimitedTotal : UInt64 := 0
  upstreamErrorsTotal : UInt64 := 0
  upstreamTimeoutsTotal : UInt64 := 0
  bodyTooLargeTotal : UInt64 := 0
  badRequestTotal : UInt64 := 0
  requestTimeoutsTotal : UInt64 := 0
  upgradeTotal : UInt64 := 0
  byRule : List (String × RuleCounters) := []
  latency : LatencyHistogram := {}
  deriving DecidableEq

/-- `saturating_add(1)` on a `u64`. -/
def saturatingAddOne (n : UInt64) : UInt64 := if n = 0xffffffffffffffff then n else n + 1

/-- One more denial or dry run. -/
def RuleCounters.record (c : RuleCounters) (dryRun : Bool) : RuleCounters :=
  if dryRun then { c with dryRun := saturatingAddOne c.dryRun }
  else { c with denied := saturatingAddOne c.denied }

/-- `record_rule_deny`. -/
def Metrics.recordRuleDeny (m : Metrics) (ruleName : String) (dryRun : Bool) : Metrics :=
  if m.byRule.any fun e => e.1 == ruleName then
    { m with
      byRule := m.byRule.map fun e => if e.1 = ruleName then (e.1, e.2.record dryRun) else e }
  else { m with byRule := m.byRule ++ [(ruleName, ({} : RuleCounters).record dryRun)] }

/-- `LatencyHistogram::observe`. -/
def LatencyHistogram.observe (h : LatencyHistogram) (ms : UInt64) : LatencyHistogram where
  sumMs := h.sumMs + ms
  count := h.count + 1
  buckets :=
    let placedIdx := latencyBucketsMs.findIdx fun bound => decide (ms.toNat ≤ bound)
    h.buckets.modify placedIdx (· + 1)

/-- `observe_upstream_latency_ms`. -/
def Metrics.observeUpstreamLatencyMs (m : Metrics) (ms : UInt64) : Metrics :=
  { m with latency := m.latency.observe ms }

/-! ## §2. The text of the metrics endpoint. -/

/-- `escape_label`. -/
def escapeLabel (s : String) : String :=
  String.ofList (s.toList.flatMap fun c =>
    match c with
    | '\\' => ['\\', '\\']
    | '"' => ['\\', '"']
    | '\n' => ['\\', 'n']
    | c => [c])

/-- The three lines of one counter. -/
def renderCounter (name help : String) (value : UInt64) : String :=
  "# HELP " ++ name ++ " " ++ help ++ "\n" ++ "# TYPE " ++ name ++ " counter\n" ++
    name ++ " " ++ toString value.toNat ++ "\n"

/-- The two lines of one rule. -/
def renderRule (rule : String) (c : RuleCounters) : String :=
  "docker_proxy_rule_decisions_total\x7brule=\"" ++ escapeLabel rule ++
      "\",mode=\"enforced\"\x7d " ++ toString c.denied.toNat ++ "\n" ++
    "docker_proxy_rule_decisions_total\x7brule=\"" ++ escapeLabel rule ++
      "\",mode=\"dry_run\"\x7d " ++ toString c.dryRun.toNat ++ "\n"

/-- A bucket line of the histogram. -/
def renderBucket (bound : String) (cumulative : UInt64) : String :=
  "docker_proxy_upstream_latency_ms_bucket\x7ble=\"" ++ bound ++ "\"\x7d " ++
    toString cumulative.toNat ++ "\n"

/-- `saturating_add` on `u64`s. -/
def saturatingAdd (a b : UInt64) : UInt64 :=
  if a.toNat + b.toNat < 2 ^ 64 then a + b else 0xffffffffffffffff

/-- The bucket lines of the bounds, and the running total after them. -/
def renderBuckets : List Nat → List UInt64 → UInt64 → String × UInt64
  | bound :: bounds, b :: buckets, cumulative =>
      let cumulative := saturatingAdd cumulative b
      let (rest, total) := renderBuckets bounds buckets cumulative
      (renderBucket (toString bound) cumulative ++ rest, total)
  | _, _, cumulative => ("", cumulative)

/-- `render_prometheus`. -/
def Metrics.renderPrometheus (m : Metrics) : String :=
  let (bucketLines, cumulative) := renderBuckets latencyBucketsMs m.latency.buckets 0
  renderCounter "docker_proxy_requests_total" "Total HTTP requests received" m.requestsTotal ++
  renderCounter "docker_proxy_requests_allowed_total" "Requests with outcome 'allowed'"
    m.requestsAllowed ++
  renderCounter "docker_proxy_requests_denied_total" "Requests with outcome 'denied'"
    m.requestsDenied ++
  renderCounter "docker_proxy_requests_dry_run_total" "Requests with outcome 'dry_run'"
    m.requestsDryRun ++
  renderCounter "docker_proxy_auth_failures_total" "Failed auth attempts" m.authFailuresTotal ++
  renderCounter "docker_proxy_auth_lockouts_total" "IP auth lockouts triggered"
    m.authLockoutsTotal ++
  renderCounter "docker_proxy_rate_limited_total" "Requests blocked by rate limit"
    m.rateLimitedTotal ++
  renderCounter "docker_proxy_upstream_errors_total" "Upstream docker errors"
    m.upstreamErrorsTotal ++
  renderCounter "docker_proxy_upstream_timeouts_total" "Upstream docker timeouts"
    m.upstreamTimeoutsTotal ++
  renderCounter "docker_proxy_body_too_large_total" "Requests rejected for body size"
    m.bodyTooLargeTotal ++
  renderCounter "docker_proxy_bad_request_total" "Requests rejected as malformed"
    m.badRequestTotal ++
  renderCounter "docker_proxy_request_timeouts_total" "Client request read timeouts"
    m.requestTimeoutsTotal ++
  renderCounter "docker_proxy_upgrade_total" "HTTP upgrade (exec/attach) requests proxied"
    m.upgradeTotal ++
  "# HELP docker_proxy_rule_decisions_total Decisions per rule\n" ++
  "# TYPE docker_proxy_rule_decisions_total counter\n" ++
  String.join (m.byRule.map fun e => renderRule e.1 e.2) ++
  "# HELP docker_proxy_upstream_latency_ms Latency to docker upstream in milliseconds\n" ++
  "# TYPE docker_proxy_upstream_latency_ms histogram\n" ++
  bucketLines ++
  renderBucket "+Inf" (saturatingAdd cumulative (m.latency.buckets.getLastD 0)) ++
  "docker_proxy_upstream_latency_ms_sum " ++ toString m.latency.sumMs.toNat ++ "\n" ++
  "docker_proxy_upstream_latency_ms_count " ++ toString m.latency.count.toNat ++ "\n"

end DockerProxy.Proxy
