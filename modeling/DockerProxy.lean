import DockerProxy.Path.Target
import DockerProxy.Lib.Exec
import DockerProxy.Limiter.Rate
import DockerProxy.Limiter.Auth
import DockerProxy.Limiter.RateCleanup
import DockerProxy.Limiter.AuthLockout
import DockerProxy.Limiter.AuthBurst
import DockerProxy.Config
import DockerProxy.Externals
import DockerProxy.Lib.FirstStop
import DockerProxy.Rules.Conditions
import DockerProxy.Rules.Evaluate
import DockerProxy.Rules.Decision
import DockerProxy.Rules.DryRun
import DockerProxy.Proxy.Metrics
import DockerProxy.Rules.ResponseFilters
import DockerProxy.Proxy.Authenticate
import DockerProxy.Proxy.ClientIp
import DockerProxy.Proxy.Handle
import DockerProxy.Proxy.Filtering
import DockerProxy.Proxy.Forwarding
import DockerProxy.Proxy.HeaderView
import DockerProxy.Proxy.Connections
import DockerProxy.Rules.Roles
import DockerProxy.Lib.Budget
import DockerProxy.Limiter.RateBound
import DockerProxy.Limiter.RateRaces
import DockerProxy.Config.Load
import DockerProxy.Rules.Liveness
import DockerProxy.Json.Locations
import DockerProxy.Rules.Isolation
import DockerProxy.Rules.Redaction
import DockerProxy.Rules.ClientIpRanges
import DockerProxy.Proxy.BodyInspection
import DockerProxy.Proxy.ForwardedFor
import DockerProxy.Proxy.Books
import DockerProxy.Lib.Eviction
import DockerProxy.Lib.Silent
import DockerProxy.Limiter.RateSilent
import DockerProxy.Limiter.AuthSilent
import DockerProxy.Limiter.AuthHistory
import DockerProxy.Proxy.Reload
import DockerProxy.Proxy.HopLists
import DockerProxy.Proxy.CertRoles
import DockerProxy.Json.Paths
import DockerProxy.Rules.Removal
import DockerProxy.Lib.Pruning
import DockerProxy.Rules.FilterTargets
import DockerProxy.Rules.ListRecords
import DockerProxy.Path.Accepted
import DockerProxy.Lib.TokenBucket
import DockerProxy.Limiter.FirstRefusal
import DockerProxy.Limiter.Penalty
import DockerProxy.Config.Interpolation
import DockerProxy.Lib.StableSort
import DockerProxy.Rules.Priority
import DockerProxy.Config.RegexLoading
import DockerProxy.Rules.KeyCase
import DockerProxy.Lib.Histogram
import DockerProxy.Lib.Interleaving
import DockerProxy.Limiter.Overflow
import DockerProxy.Proxy.Histogram
import DockerProxy.Path.PercentDecode
import DockerProxy.Rules.PathWalkers
import DockerProxy.Proxy.Labels
import DockerProxy.Proxy.Mediation
import DockerProxy.Proxy.AuditTrail
import DockerProxy.Proxy.Ledger
import DockerProxy.Lib.LineLog
import DockerProxy.Proxy.AuditWriter
import DockerProxy.Config.Effective
import DockerProxy.Proxy.Credentials
import DockerProxy.Proxy.Unread
import DockerProxy.Lib.Atomic
import DockerProxy.Proxy.Atomic
import DockerProxy.Proxy.Interleaved
import DockerProxy.Proxy.Snapshots
