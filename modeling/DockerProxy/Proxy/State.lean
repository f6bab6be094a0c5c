/-
  DockerProxy.Proxy.State — the shared state of the proxy, and its environment.

  `ProxyState` is what all requests share.  `Moment` is what one request reads
  from its surroundings: clock readings, and the time stamp of its audit events.
  The order in which requests interleave is the order in which their states are
  threaded.
-/
import DockerProxy.Limiter.Auth
import DockerProxy.Proxy.Http
import DockerProxy.Proxy.Metrics
import DockerProxy.Rules.Evaluate

namespace DockerProxy.Proxy

open DockerProxy.Limiter DockerProxy.Rules

/-- One record of the audit log. -/
structure AuditEvent where
  timestamp : String
  event : String
  peerIp : String
  method : String
  path : String
  userAgent : String
  userRole : Option String := none
  identity : Option String := none
  ruleName : Option String := none
  ruleAction : Option String := none
  status : UInt16 := 0
  dryRun : Bool := false
  message : Option String := none
  deriving DecidableEq

/-- What the requests share; `audit` is `none` when the audit log is disabled,
else the events handed to its channel so far. -/
structure ProxyState where
  config : ProxyConfig
  envSecret : String
  rateLimiter : RateLimiter
  authLimiter : AuthLimiter
  metrics : Metrics
  audit : Option (List AuditEvent)
  metricsPath : Option String

/-- What one request reads from its surroundings. -/
structure Moment where
  /-- The clock when `is_blocked` is asked. -/
  checkedAt : Nat
  /-- The clock when the outcome of the authentication is recorded. -/
  recordedAt : Nat
  /-- The clock readings of the rate limiter's checks. -/
  readings : Nat → Nat
  /-- The time stamp of the audit events. -/
  timestamp : String
  /-- How long Docker took to answer. -/
  upstreamElapsedMs : Nat

/-- A moment at which all clocks read zero. -/
def momentZero : Moment where
  checkedAt := 0
  recordedAt := 0
  readings _ := 0
  timestamp := "1970-01-01T00:00:00+00:00"
  upstreamElapsedMs := 0

namespace ProxyState

/-- Change the counters. -/
def count (st : ProxyState) (f : Metrics → Metrics) : ProxyState :=
  { st with metrics := f st.metrics }

/-- `audit.send`, when the audit log is enabled. -/
def sendAudit (st : ProxyState) (ev : AuditEvent) : ProxyState :=
  { st with audit := st.audit.map fun events => events ++ [ev] }

end ProxyState

end DockerProxy.Proxy
