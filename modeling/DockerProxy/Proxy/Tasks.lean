/-
  DockerProxy.Proxy.Tasks — the tasks of requests, and what they keep and book.

  A `Visit` is a request with all that it meets outside the proxy; its task runs
  `handleSteps`.  `interleave` runs any number of tasks in any order of steps, with
  reloads, cleanups and the ends of tunnels between them.

    • `Visit.entries` — what a request has on the books in the end, read off its reply;
    • `keeps_visit` — a task keeps whatever its single accesses keep, sends only what was
      cleared, and has exactly these entries on the books.
-/
import DockerProxy.Proxy.AuditTrail
import DockerProxy.Proxy.Atomic
import DockerProxy.Proxy.Mediation
import Mathlib.Algebra.Group.Pi.Basic
import Mathlib.Algebra.Group.Prod
import Mathlib.Algebra.Order.Group.Multiset
import Mathlib.Data.UInt

namespace DockerProxy.Proxy

open DockerProxy.Lib DockerProxy.Path DockerProxy.Limiter DockerProxy.Rules

/-! ## §1. Tasks. -/

/-- A request, who sends it, and what it meets outside the proxy. -/
structure Visit (deps : Externals) where
  req : Request
  peer : deps.Ip
  cert : Option CertIdentity
  docker : Docker
  m : Moment

variable {deps : Externals}

/-- The program of the request's task. -/
def Visit.steps (v : Visit deps) : Prog Shared Reply :=
  handleSteps deps v.req v.peer v.cert v.docker v.m

/-- The address, as the authentication limiter knows it. -/
def Visit.key (v : Visit deps) : String := deps.ipToString v.peer

/-- The record is one of this request: its time, address, method, path and client. -/
structure Visit.Makes (v : Visit deps) (ev : AuditEvent) : Prop where
  timestamp : ev.timestamp = v.m.timestamp
  peerIp : ev.peerIp = v.key
  method : ev.method = v.req.method
  path : canonicalizePath v.req.path = some ev.path
  userAgent : ev.userAgent = (v.req.headers.getStr "user-agent").getD "-"

/-- What other tasks do: the reloader, the two cleanups, and the end of a tunnel's
resolution. -/
inductive Outside where
  | reload (config : ProxyConfig)
  | rateCleanup (now : Nat)
  | authCleanup (now : Nat)
  | tunnel (client docker : Attempt Unit)

/-- The shared state after it. -/
def Outside.effect (s : Shared) : Outside → Shared
  | .reload config => s.on fun st => { st with config := config }
  | .rateCleanup now => s.on fun st => { st with rateLimiter := st.rateLimiter.cleanup now }
  | .authCleanup now => s.on fun st => { st with authLimiter := st.authLimiter.cleanup now }
  | .tunnel client docker => s.on fun st => st.countResolve (resolveUpgrades client docker)

/-- **The tasks of requests in any order of steps.** -/
def interleave (s : Shared) (events : List (PoolEvent (Visit deps) Outside)) :
    Pool Shared (Visit deps) Reply :=
  run (Pool.step Visit.steps Outside.effect) ⟨s, []⟩ events

/-! ## §2. The books. -/

/-- What is counted of a request: that it came, what became of it (`settled`), whether it
was denied, allowed or let through by a dry run, its latency, and its records. -/
inductive Entry where
  | received
  | settled
  | denied
  | allowed
  | observed
  | dryRun
  | refusalRecord
  | dryRunRecord
  deriving DecidableEq

/-- What became of the requests, by the counters. -/
def Metrics.outcomes (m : Metrics) : UInt64 :=
  m.requestsAllowed + m.requestsDenied + m.badRequestTotal + m.bodyTooLargeTotal +
    m.requestTimeoutsTotal + m.upstreamErrorsTotal + m.upstreamTimeoutsTotal

/-- The books as they stand. -/
def Shared.entry (s : Shared) : Entry → UInt64
  | .received => s.proxy.metrics.requestsTotal
  | .settled => s.proxy.metrics.outcomes
  | .denied => s.proxy.metrics.requestsDenied
  | .allowed => s.proxy.metrics.requestsAllowed
  | .observed => s.proxy.metrics.latency.count
  | .dryRun => s.proxy.metrics.requestsDryRun
  | .refusalRecord =>
      UInt64.ofNat ((s.proxy.audit.getD []).countP fun ev => ev.event != "dry_run")
  | .dryRunRecord =>
      UInt64.ofNat ((s.proxy.audit.getD []).countP fun ev => ev.event == "dry_run")

/-- The books, and what went over the wire, in no order. -/
def Shared.account (s : Shared) : Multiset ProxiedRequest × (Entry → UInt64) :=
  (s.wire, s.entry)

/-- At most one request on the wire, and these entries. -/
def tallied (sent : Option ProxiedRequest) (es : List Entry) :
    Multiset ProxiedRequest × (Entry → UInt64) :=
  (sent.toList, fun e => UInt64.ofNat (es.count e))

@[simp] theorem tallied_none_nil : tallied none [] = 0 := rfl

theorem tallied_add_entries (sent : Option ProxiedRequest) (es es' : List Entry) :
    tallied sent es + tallied none es' = tallied sent (es ++ es') := by
  refine Prod.ext (add_zero _) (funext fun e => ?_)
  show UInt64.ofNat (es.count e) + UInt64.ofNat (es'.count e) = UInt64.ofNat ((es ++ es').count e)
  rw [List.count_append, UInt64.ofNat_add]

theorem entries_add_tallied (sent : Option ProxiedRequest) (es es' : List Entry) :
    tallied none es + tallied sent es' = tallied sent (es ++ es') := by
  refine Prod.ext (zero_add _) (funext fun e => ?_)
  show UInt64.ofNat (es.count e) + UInt64.ofNat (es'.count e) = UInt64.ofNat ((es ++ es').count e)
  rw [List.count_append, UInt64.ofNat_add]

/-- A change of the counters makes these entries. -/
def Enters (f : Metrics → Metrics) (es : List Entry) : Prop :=
  ∀ (s : Shared) e, (s.on fun st => st.count f).entry e = s.entry e + UInt64.ofNat (es.count e)

/-- The counters that are on the books; the records are not counters. -/
def Metrics.entry (c : Metrics) : Entry → UInt64
  | .received => c.requestsTotal
  | .settled => c.outcomes
  | .denied => c.requestsDenied
  | .allowed => c.requestsAllowed
  | .observed => c.latency.count
  | .dryRun => c.requestsDryRun
  | .refusalRecord | .dryRunRecord => 0

/-- **Counter by counter.** -/
theorem enters_of_entry {f : Metrics → Metrics} {es : List Entry}
    (h : ∀ c e, (f c).entry e = c.entry e + UInt64.ofNat (es.count e)) : Enters f es := by
  -- a change of counters enters no record
  have hrecord : ∀ {e : Entry} (x : UInt64), (∀ c : Metrics, c.entry e = 0) →
      x = x + UInt64.ofNat (es.count e) := by
    intro e x he
    have hnone := h {} e
    rw [he, he, UInt64.zero_add] at hnone
    rw [← hnone, UInt64.add_zero]
  intro s e
  have hcounter := h s.proxy.metrics e
  cases e with
  | refusalRecord => exact hrecord _ fun _ => rfl
  | dryRunRecord => exact hrecord _ fun _ => rfl
  | _ => exact hcounter

/-- Counters that are not on the books. -/
theorem enters_nothing {f : Metrics → Metrics} (h : ∀ c, (f c).entry = c.entry) :
    Enters f [] := by
  refine enters_of_entry fun c e => ?_
  rw [h]
  exact (UInt64.add_zero _).symm

/-- The counters that stand for entries, each by itself. -/
inductive Counter where
  | received
  | denied
  | allowed
  | badRequest
  | bodyTooLarge
  | requestTimeout
  | upstreamError
  | upstreamTimeout
  | observed
  | dryRun

/-- The counter is one more. -/
def Counter.add : Counter → Metrics → Metrics
  | .received, c => { c with requestsTotal := c.requestsTotal + 1 }
  | .denied, c => { c with requestsDenied := c.requestsDenied + 1 }
  | .allowed, c => { c with requestsAllowed := c.requestsAllowed + 1 }
  | .badRequest, c => { c with badRequestTotal := c.badRequestTotal + 1 }
  | .bodyTooLarge, c => { c with bodyTooLargeTotal := c.bodyTooLargeTotal + 1 }
  | .requestTimeout, c => { c with requestTimeoutsTotal := c.requestTimeoutsTotal + 1 }
  | .upstreamError, c => { c with upstreamErrorsTotal := c.upstreamErrorsTotal + 1 }
  | .upstreamTimeout, c => { c with upstreamTimeoutsTotal := c.upstreamTimeoutsTotal + 1 }
  | .observed, c => { c with latency := { c.latency with count := c.latency.count + 1 } }
  | .dryRun, c => { c with requestsDryRun := c.requestsDryRun + 1 }

/-- The entries that one more of the counter stands for. -/
def Counter.entries : Counter → List Entry
  | .received => [.received]
  | .denied => [.settled, .denied]
  | .allowed => [.settled, .allowed]
  | .badRequest | .bodyTooLarge | .requestTimeout | .upstreamError | .upstreamTimeout =>
      [.settled]
  | .observed => [.observed]
  | .dryRun => [.dryRun]

theorem enters_counter (counter : Counter) : Enters counter.add counter.entries := by
  refine enters_of_entry fun c e => ?_
  cases e with
  | settled =>
      -- the outcomes are a sum, and at most one of its terms is one more
      cases counter with
      | _ =>
          simp only [Metrics.entry, Metrics.outcomes, Counter.add, Counter.entries,
            List.count_cons, List.count_nil]
          grind
  | _ =>
      cases counter with
      | _ =>
          first
            | rfl
            | exact (UInt64.add_zero _).symm

theorem enters_recordRuleDeny (rn : String) (dryRun : Bool) :
    Enters (fun c => c.recordRuleDeny rn dryRun) [] := by
  refine enters_nothing fun c => ?_
  unfold Metrics.recordRuleDeny
  split
  · rfl
  · rfl

/-! ## §3. What the accesses keep. -/

/-- What nobody changes. -/
structure Fixed (st₀ st : ProxyState) : Prop where
  envSecret : st.envSecret = st₀.envSecret
  metricsPath : st.metricsPath = st₀.metricsPath
  audit : st.audit.isSome = st₀.audit.isSome

/-- **An invariant of the accesses** to the counters, the audit log and the limiter of the
rules, under which the configurations are among `C`, with the records among `E`. -/
structure Stable (st₀ : ProxyState) (C : ProxyConfig → Prop) (E : AuditEvent → Prop)
    (I : Shared → Prop) : Prop where
  fixed : ∀ s, I s → Fixed st₀ s.proxy
  config : ∀ s, I s → C s.proxy.config
  count : ∀ s f, I s → I (s.on fun st => st.count f)
  record : ∀ s ev, E ev → I s → I (s.on fun st => st.sendAudit ev)
  check : ∀ s (checks : List LimitCheck), I s →
    I (s.on fun st => { st with rateLimiter := run afterCheck st.rateLimiter checks })

/-- What a request from this address leaves alone: the configuration, and what the
authentication limiter says of others. -/
def LeavesAlone (key : String) (s s' : Shared) : Prop :=
  s'.proxy.config = s.proxy.config ∧
    ∀ other, other ≠ key → s'.proxy.authLimiter.entry other = s.proxy.authLimiter.entry other

theorem LeavesAlone.refl (key : String) (s : Shared) : LeavesAlone key s s := ⟨rfl, fun _ _ => rfl⟩

/-- **A program, as far as the books go**: with this on the wire and these entries made so
far, it keeps the invariant and leaves the others alone, and in the end `X` holds of its
result, of what is on the wire and of the entries. -/
def Goes {α : Type} (I : Shared → Prop) (key : String) (p : Prog Shared α)
    (sent : Option ProxiedRequest) (es : List Entry)
    (X : α → Option ProxiedRequest → List Entry → Prop) : Prop :=
  p.Keeps I (LeavesAlone key) Shared.account
    (fun a g => ∃ sent es, X a sent es ∧ g = tallied sent es) (tallied sent es)

section

variable {st₀ : ProxyState} {C : ProxyConfig → Prop} {E : AuditEvent → Prop}
variable {I : Shared → Prop} {α β : Type}
variable {X : α → Option ProxiedRequest → List Entry → Prop}
variable {Y : β → Option ProxiedRequest → List Entry → Prop}
variable {sent : Option ProxiedRequest} {es : List Entry} {key : String}

theorem goes_pure {a : α} (h : X a sent es) : Goes I key (pure a) sent es X :=
  Prog.keeps_pure ⟨sent, es, h, rfl⟩

theorem goes_look {f : Shared → β} {k : β → Prog Shared α}
    (hk : ∀ s, I s → Goes I key (k (f s)) sent es X) : Goes I key (Prog.look f >>= k) sent es X :=
  Prog.keeps_bind (Prog.keeps_atomically fun s hs => ⟨hs, .refl key s, rfl, hk s hs⟩)

/-- An access that is not on the books. -/
theorem goes_atomically {f : Shared → β × Shared} {k : β → Prog Shared α}
    (hI : ∀ s, I s → I (f s).2) (hR : ∀ s, LeavesAlone key s (f s).2)
    (hf : ∀ s, (f s).2.account = s.account)
    (hk : ∀ s, Goes I key (k (f s).1) sent es X) : Goes I key (Prog.atomically f >>= k) sent es X :=
  Prog.keeps_bind (Prog.keeps_atomically fun s hs => ⟨hI s hs, hR s, hf s, hk s⟩)

theorem goes_count (h : Stable st₀ C E I) {f : Metrics → Metrics} {es' : List Entry}
    {k : Unit → Prog Shared α} (hf : Enters f es') (hk : Goes I key (k ()) sent (es ++ es') X) :
    Goes I key (counting f >>= k) sent es X := by
  have hadd : ∀ s : Shared, (s.on fun st => st.count f).account = s.account + tallied none es' :=
    fun s => Prod.ext (add_zero _).symm (funext fun e => hf s e)
  refine Prog.keeps_bind (Prog.keeps_update (fun s hs => ⟨h.count s f hs, .refl key s, hadd s⟩) ?_)
  rw [tallied_add_entries]
  exact hk

/-- What a record has on the books, if the audit log is enabled. -/
def recordEntries (enabled : Bool) (entry : Entry) : List Entry := if enabled then [entry] else []

theorem ofNat_countP_append (p : AuditEvent → Bool) (events : List AuditEvent) (ev : AuditEvent) :
    UInt64.ofNat ((events ++ [ev]).countP p) =
      UInt64.ofNat (events.countP p) + if p ev then 1 else 0 := by
  rw [List.countP_append, UInt64.ofNat_add, List.countP_singleton]
  cases p ev with
  | true => rfl
  | false => rfl

theorem account_sendAudit (s : Shared) (ev : AuditEvent) :
    (s.on fun st => st.sendAudit ev).account = s.account +
      tallied none (recordEntries s.proxy.audit.isSome
        (if ev.event == "dry_run" then .dryRunRecord else .refusalRecord)) := by
  refine Prod.ext (add_zero _).symm (funext fun e => ?_)
  obtain ⟨⟨config, envSecret, rateLimiter, authLimiter, metrics, audit, metricsPath⟩, wire⟩ := s
  cases audit with
  | none =>
      cases e with
      | _ => exact (UInt64.add_zero _).symm
  | some events =>
      show _ = _ + UInt64.ofNat (List.count e [if ev.event == "dry_run" then _ else _])
      cases e with
      | dryRunRecord =>
          refine (ofNat_countP_append _ events ev).trans ?_
          cases ev.event == "dry_run" with
          | true => rfl
          | false => rfl
      | refusalRecord =>
          refine (ofNat_countP_append _ events ev).trans ?_
          unfold bne
          cases ev.event == "dry_run" with
          | true => rfl
          | false => rfl
      | _ =>
          cases ev.event == "dry_run" with
          | _ => exact (UInt64.add_zero _).symm

theorem goes_record (h : Stable st₀ C E I) {ev : AuditEvent} {entry : Entry}
    (hentry : entry = if ev.event == "dry_run" then .dryRunRecord else .refusalRecord) (hev : E ev)
    {k : Unit → Prog Shared α}
    (hk : Goes I key (k ()) sent (es ++ recordEntries st₀.audit.isSome entry) X) :
    Goes I key (recording ev >>= k) sent es X := by
  have hadd : ∀ s : Shared, s.proxy.audit.isSome = st₀.audit.isSome →
      (s.on fun st => st.sendAudit ev).account =
        s.account + tallied none (recordEntries st₀.audit.isSome entry) := by
    intro s hs
    rw [← hs, hentry]
    exact account_sendAudit s ev
  refine Prog.keeps_bind (Prog.keeps_update
    (fun s hs => ⟨h.record s ev hev hs, .refl key s, hadd s (h.fixed s hs).audit⟩) ?_)
  rw [tallied_add_entries]
  exact hk

/-- A request goes over the wire. -/
theorem goes_send {out : ProxiedRequest} (hI : ∀ s, I s → I (s.send out))
    {k : Unit → Prog Shared α} (hk : Goes I key (k ()) (some out) es X) :
    Goes I key (Prog.update (fun s => s.send out) >>= k) none es X := by
  have hadd : ∀ s : Shared, (s.send out).account = s.account + tallied (some out) [] := by
    intro s
    refine Prod.ext ?_ (funext fun e => (UInt64.add_zero _).symm)
    show ((s.wire ++ [out] : List ProxiedRequest) : Multiset ProxiedRequest) = _
    rw [← Multiset.coe_add]
    rfl
  refine Prog.keeps_bind (Prog.keeps_update (fun s hs => ⟨hI s hs, .refl key s, hadd s⟩) ?_)
  rw [entries_add_tallied, List.append_nil]
  exact hk

/-- A part that starts with nothing on the books. -/
theorem goes_part {p : Prog Shared β} {k : β → Prog Shared α} (hp : Goes I key p none [] Y)
    (hk : ∀ b sent es', Y b sent es' → Goes I key (k b) sent (es ++ es') X) :
    Goes I key (p >>= k) none es X := by
  refine Prog.keeps_part hp fun b g hb => ?_
  obtain ⟨sent, es', hY, rfl⟩ := hb
  rw [entries_add_tallied]
  exact hk b sent es' hY

/-- A part that sends nothing. -/
theorem goes_after {p : Prog Shared β} {k : β → Prog Shared α} (hp : Goes I key p none [] Y)
    (hk : ∀ b sent' es', Y b sent' es' → sent' = none ∧ Goes I key (k b) sent (es ++ es') X) :
    Goes I key (p >>= k) sent es X := by
  refine Prog.keeps_part hp fun b g hb => ?_
  obtain ⟨sent', es', hY, rfl⟩ := hb
  obtain ⟨rfl, hgoes⟩ := hk b sent' es' hY
  rw [tallied_add_entries]
  exact hgoes

/-- A program that starts with nothing on the books, after these entries. -/
theorem goes_frame {p : Prog Shared β} (hp : Goes I key p none [] Y) :
    Goes I key p none es fun b sent es'' => ∃ es', Y b sent es' ∧ es'' = es ++ es' := by
  have hadd := Prog.keeps_add (tallied none es) hp
  rw [tallied_none_nil, add_zero] at hadd
  refine Prog.keeps_mono hadd fun b g hb => ?_
  obtain ⟨d, ⟨sent, es', hY, rfl⟩, rfl⟩ := hb
  exact ⟨sent, es ++ es', ⟨es', hY, rfl⟩, entries_add_tallied sent es es'⟩

theorem goes_mono {p : Prog Shared α} {X' : α → Option ProxiedRequest → List Entry → Prop}
    (hp : Goes I key p sent es X) (hX : ∀ a sent es, X a sent es → X' a sent es) :
    Goes I key p sent es X' := by
  refine Prog.keeps_mono hp fun a g ha => ?_
  obtain ⟨sent, es, h, rfl⟩ := ha
  exact ⟨sent, es, hX a sent es h, rfl⟩

end

/-! ## §4. The rules in between others. -/

/-- **A decision that the rules can come to**, with the limiter in any state where a rule
asks it. -/
inductive CanDecide (deps : Externals) (ctx : EvaluationContext) :
    List Rule → RuleDecision → Prop where
  | allow : CanDecide deps ctx [] RuleDecision.allow
  | stop {rule : Rule} {rules : List Rule} {rc : RateClock} {decision : RuleDecision}
      (h : (evaluateRule deps ctx rule rc).1 = some decision) :
      CanDecide deps ctx (rule :: rules) decision
  | pass {rule : Rule} {rules : List Rule} {rc : RateClock} {decision : RuleDecision}
      (h : (evaluateRule deps ctx rule rc).1 = none) (hrest : CanDecide deps ctx rules decision) :
      CanDecide deps ctx (rule :: rules) decision

/-- The entries of a dry run. -/
def dryRunEntries (enabled : Bool) (decision : RuleDecision) : List Entry :=
  if decision.dryRun && decision.ruleName.isSome then
    .dryRun :: recordEntries enabled .dryRunRecord
  else []

/-- The entries of a refusal. -/
def refusalEntries (enabled : Bool) : List Entry :=
  [.settled, .denied] ++ recordEntries enabled .refusalRecord

section

variable {st₀ : ProxyState} {C : ProxyConfig → Prop} {E : AuditEvent → Prop}
variable {I : Shared → Prop} {key : String}

theorem goes_evaluateSteps (h : Stable st₀ C E I) (ctx : EvaluationContext) (rules : List Rule) :
    ∀ readings, Goes I key (evaluateSteps deps ctx rules readings) none [] fun decision sent es =>
      CanDecide deps ctx rules decision ∧ sent = none ∧ es = [] := by
  induction rules with
  | nil => intro readings; exact goes_pure ⟨.allow, rfl, rfl⟩
  | cons rule rules ih =>
      intro readings
      unfold evaluateSteps
      refine goes_atomically (fun s hs => ?_) (fun s => .refl key s) (fun s => rfl) (fun s => ?_)
      · -- the rule makes at most one check
        have hchecks := (run_ruleCheck deps ctx 0 rule ⟨s.proxy.rateLimiter, readings⟩).2
        have hI := h.check s (ruleCheck deps ctx 0 rule ⟨s.proxy.rateLimiter, readings⟩).toList hs
        simp only [evaluateRule_eq]
        rw [← hchecks]
        exact hI
      · dsimp only
        cases hrule : evaluateRule deps ctx rule ⟨s.proxy.rateLimiter, readings⟩ with
        | mk decision rc =>
            have hfirst := congrArg Prod.fst hrule
            cases decision with
            | some decision => exact goes_pure ⟨.stop hfirst, rfl, rfl⟩
            | none =>
                refine goes_mono (ih rc.readings) fun decision sent es hX => ?_
                exact ⟨.pass hfirst hX.1, hX.2⟩

/-- The record is one of this call. -/
structure Call.Makes (call : Call) (ev : AuditEvent) : Prop where
  timestamp : ev.timestamp = call.timestamp
  peerIp : ev.peerIp = call.peerIp
  method : ev.method = call.method
  path : ev.path = call.canonicalPath
  userAgent : ev.userAgent = call.userAgent

theorem goes_bookDryRunSteps (h : Stable st₀ C E I) {call : Call}
    (hmakes : ∀ ev, call.Makes ev → E ev) (decision : RuleDecision) :
    Goes I key (bookDryRunSteps call decision) none [] fun _ sent es =>
      sent = none ∧ es = dryRunEntries st₀.audit.isSome decision := by
  unfold bookDryRunSteps dryRunEntries
  cases decision.dryRun with
  | false => exact goes_pure ⟨rfl, rfl⟩
  | true =>
      cases decision.ruleName with
      | none => exact goes_pure ⟨rfl, rfl⟩
      | some rn =>
          refine goes_count h (enters_counter .dryRun) ?_
          refine goes_count h (enters_recordRuleDeny rn true) ?_
          exact goes_record (k := fun _ => pure ()) h rfl (hmakes _ ⟨rfl, rfl, rfl, rfl, rfl⟩)
            (goes_pure ⟨rfl, rfl⟩)

theorem goes_bookDenySteps (h : Stable st₀ C E I) {call : Call}
    (hmakes : ∀ ev, call.Makes ev → E ev) (decision : RuleDecision)
    (status : UInt16) (message : String) :
    Goes I key (bookDenySteps call decision status message) none [] fun _ sent es =>
      sent = none ∧ es = recordEntries st₀.audit.isSome .refusalRecord := by
  unfold bookDenySteps
  cases decision.ruleName with
  | none =>
      exact goes_record (k := fun _ => pure ()) h rfl (hmakes _ ⟨rfl, rfl, rfl, rfl, rfl⟩)
        (goes_pure ⟨rfl, rfl⟩)
  | some rn =>
      refine goes_count h (enters_recordRuleDeny rn false) ?_
      exact goes_record (k := fun _ => pure ()) h rfl (hmakes _ ⟨rfl, rfl, rfl, rfl, rfl⟩)
        (goes_pure ⟨rfl, rfl⟩)

/-! ## §5. Docker in between others. -/

/-- What became of an allowed request at Docker's. -/
inductive Fate where
  | unbuilt
  | failed
  | answered (res : UpstreamResponse)

/-- What became of the request, read off what was sent. -/
def Docker.fate (docker : Docker) : Option ProxiedRequest → Fate
  | none => if docker.connect == .ok () && docker.handshake then .unbuilt else .failed
  | some out =>
      match docker.respond out with
      | .ok res => .answered res
      | .failed | .timedOut => .failed

/-- The entries of an allowed request on the plain path. -/
def plainEntries : Fate → List Entry
  | .unbuilt => []
  | .failed => [.settled]
  | .answered res =>
      if (res.body.read maxRespBodyBytes).isBytes then [.observed, .settled, .allowed]
      else [.settled]

/-- The entries of an allowed request with upgrade headers. -/
def upgradeEntries : Fate → List Entry
  | .failed => [.settled, .allowed, .settled]
  | .unbuilt | .answered _ => [.settled, .allowed]

/-- All that an exchange can come to. -/
inductive ExchangeGoes (docker : Docker) :
    Except Response UpstreamResponse × Option ProxiedRequest → Option ProxiedRequest →
      List Entry → Prop where
  | failed (response : Response) {sent : Option ProxiedRequest} (h : docker.fate sent = .failed) :
      ExchangeGoes docker (.error response, sent) sent [.settled]
  | unbuilt (response : Response) (h : docker.fate none = .unbuilt) :
      ExchangeGoes docker (.error response, none) none []
  | answered {res : UpstreamResponse} {out : ProxiedRequest}
      (h : docker.fate (some out) = .answered res) :
      ExchangeGoes docker (.ok res, some out) (some out) []

/-- The invariant survives what the call may send. -/
def MaySend (deps : Externals) (I : Shared → Prop) (docker : Docker) (call : Call)
    (headers : HeaderMap) (body : List UInt8) : Prop :=
  ∀ target, docker.connect = .ok () → docker.handshake = true →
    deps.uriTarget call.canonicalPathAndQuery = some target →
    ∀ s, I s → I (s.send { method := call.method, target, headers, body })

theorem goes_observeSteps (h : Stable st₀ C E I) (ms : UInt64) :
    Goes I key (observeSteps ms) none [] fun _ sent es => sent = none ∧ es = [.observed] := by
  unfold observeSteps
  refine goes_count h (enters_nothing fun _ => rfl) ?_
  refine goes_count h (enters_counter .observed) ?_
  refine goes_count (k := fun _ => pure ()) h
    (enters_nothing fun _ => rfl) ?_
  exact goes_pure ⟨rfl, rfl⟩

theorem goes_exchangeSteps (h : Stable st₀ C E I) {docker : Docker} {call : Call}
    {headers : HeaderMap} {body : List UInt8} (hsend : MaySend deps I docker call headers body) :
    Goes I key (exchangeSteps deps docker call headers body) none [] (ExchangeGoes docker) := by
  unfold MaySend at hsend
  unfold exchangeSteps
  cases hconnect : docker.connect with
  | failed =>
      refine goes_count h (enters_counter .upstreamError) (goes_pure (.failed _ ?_))
      simp [Docker.fate, hconnect]
  | timedOut =>
      refine goes_count h (enters_counter .upstreamTimeout) (goes_pure (.failed _ ?_))
      simp [Docker.fate, hconnect]
  | ok _ =>
      cases hshake : docker.handshake with
      | false =>
          refine goes_count h (enters_counter .upstreamError) (goes_pure (.failed _ ?_))
          simp [Docker.fate, hshake]
      | true =>
          simp only [Bool.not_true, Bool.false_eq_true, if_false]
          cases htarget : deps.uriTarget call.canonicalPathAndQuery with
          | none =>
              refine goes_pure (.unbuilt _ ?_)
              simp [Docker.fate, hconnect, hshake]
          | some target =>
              refine goes_send (hsend target hconnect hshake htarget) ?_
              cases hrespond : docker.respond _ with
              | failed =>
                  refine goes_count h (enters_counter .upstreamError) (goes_pure (.failed _ ?_))
                  simp [Docker.fate, hrespond]
              | timedOut =>
                  refine goes_count h (enters_counter .upstreamTimeout) (goes_pure (.failed _ ?_))
                  simp [Docker.fate, hrespond]
              | ok res =>
                  refine goes_pure (.answered ?_)
                  simp [Docker.fate, hrespond]

theorem goes_handleUpgradeSteps (h : Stable st₀ C E I) {docker : Docker} {call : Call}
    (hsend : MaySend deps I docker call call.upgradeHeaders []) :
    Goes I key (handleUpgradeSteps deps docker call) none [] fun reply sent es =>
      reply.sent = sent ∧ [.settled, .allowed] ++ es = upgradeEntries (docker.fate sent) := by
  unfold handleUpgradeSteps
  refine goes_part (goes_exchangeSteps h hsend) fun exchanged sent es hX => ?_
  rw [List.nil_append]
  cases hX with
  | failed response hfate => exact goes_pure ⟨rfl, by rw [hfate]; rfl⟩
  | unbuilt response hfate => exact goes_pure ⟨rfl, by rw [hfate]; rfl⟩
  | answered hfate =>
      dsimp only
      split
      · exact goes_pure ⟨rfl, by rw [hfate]; rfl⟩
      · exact goes_pure ⟨rfl, by rw [hfate]; rfl⟩

theorem goes_forwardPlainSteps (h : Stable st₀ C E I) {docker : Docker} {call : Call}
    {bodyBytes : List UInt8} (hsend : MaySend deps I docker call call.plainHeaders bodyBytes)
    (filters : List ResponseFilterEntry) (m : Moment) :
    Goes I key (forwardPlainSteps deps docker call bodyBytes filters m) none [] fun reply sent es =>
      reply.sent = sent ∧ es = plainEntries (docker.fate sent) := by
  unfold forwardPlainSteps
  refine goes_part (goes_exchangeSteps h hsend) fun exchanged sent es hX => ?_
  rw [List.nil_append]
  cases hX with
  | failed response hfate => exact goes_pure ⟨rfl, by rw [hfate]; rfl⟩
  | unbuilt response hfate => exact goes_pure ⟨rfl, by rw [hfate]; rfl⟩
  | answered hfate =>
      rename_i res out
      have hentries : plainEntries (docker.fate (some out)) =
          if (res.body.read maxRespBodyBytes).isBytes then [.observed, .settled, .allowed]
          else [.settled] := by rw [hfate]; rfl
      dsimp only
      cases hread : res.body.read maxRespBodyBytes with
      | tooLarge =>
          exact goes_count h (enters_counter .upstreamError) (goes_pure ⟨rfl, by rw [hentries, hread]; rfl⟩)
      | failed =>
          exact goes_count h (enters_counter .upstreamError) (goes_pure ⟨rfl, by rw [hentries, hread]; rfl⟩)
      | timedOut =>
          exact goes_count h (enters_counter .upstreamTimeout) (goes_pure ⟨rfl, by rw [hentries, hread]; rfl⟩)
      | bytes responseBytes =>
          refine goes_after (goes_observeSteps h _) fun _ sent' es' hX => ⟨hX.1, ?_⟩
          refine goes_count h (enters_counter .allowed) (goes_pure ⟨rfl, ?_⟩)
          rw [hX.2, hentries, hread]
          rfl

/-! ## §6. The two paths in between others. -/

/-- The entries of a request that was answered before any rule was asked, by the status of
the answer: the metrics, a refusal, or anything else. -/
def doorEntries (enabled : Bool) (status : UInt16) : List Entry :=
  if status = 200 then []
  else if status = 401 ∨ status = 429 then refusalEntries enabled
  else [.settled]

/-- The entries of a request that was served. -/
def servedEntries (enabled upgrade : Bool) (docker : Docker) (reply : Reply) : List Entry :=
  match reply.evaluated with
  | none => doorEntries enabled reply.response.status
  | some (_, decision) =>
      dryRunEntries enabled decision ++
        if passes decision then
          if upgrade then upgradeEntries (docker.fate reply.sent)
          else plainEntries (docker.fate reply.sent)
        else refusalEntries enabled

/-- **The verdict of the rules on this question**: one that they can come to; and what it
denies is not sent, and answered with its own status and message. -/
structure Verdict (deps : Externals) (rules : List Rule) (ctx : EvaluationContext)
    (decision : RuleDecision) (reply : Reply) : Prop where
  evaluated : reply.evaluated = some (ctx, decision)
  decided : CanDecide deps ctx rules decision
  denied : ∀ status message, decision.result = .deny status message →
    reply.sent = none ∧ reply.response = makeResponse (statusCodeOr403 status) message

theorem verdict_denied {rules : List Rule} {ctx : EvaluationContext} {decision : RuleDecision}
    (hdecided : CanDecide deps ctx rules decision) {status : UInt16} {message : String}
    (hdeny : decision.result = .deny status message) :
    Verdict deps rules ctx decision
      { response := makeResponse (statusCodeOr403 status) message
        evaluated := some (ctx, decision) } where
  evaluated := rfl
  decided := hdecided
  denied := by
    intro status' message' hdeny'
    obtain ⟨rfl, rfl⟩ := RuleResult.deny.inj (hdeny.symm.trans hdeny')
    exact ⟨rfl, rfl⟩

theorem verdict_allowed {rules : List Rule} {ctx : EvaluationContext} {decision : RuleDecision}
    (hdecided : CanDecide deps ctx rules decision) (hallow : decision.result = .allow)
    (reply : Reply) :
    Verdict deps rules ctx decision { reply with evaluated := some (ctx, decision) } where
  evaluated := rfl
  decided := hdecided
  denied := by
    intro status message hdeny
    rw [hallow] at hdeny
    exact absurd hdeny (by simp)

theorem passes_of_allow {decision : RuleDecision} (hallow : decision.result = .allow) :
    passes decision = true := by
  unfold passes
  rw [hallow]
  rfl

theorem passes_of_deny {decision : RuleDecision} {status : UInt16} {message : String}
    (hdeny : decision.result = .deny status message) : passes decision = false := by
  unfold passes
  rw [hdeny]
  rfl

theorem servedEntries_denied {enabled upgrade : Bool} {docker : Docker} {response : Response}
    {ctx : EvaluationContext} {decision : RuleDecision} {status : UInt16} {message : String}
    (hdeny : decision.result = .deny status message) :
    servedEntries enabled upgrade docker
        { response := response, evaluated := some (ctx, decision) } =
      dryRunEntries enabled decision ++ refusalEntries enabled := by
  unfold servedEntries
  dsimp only
  rw [passes_of_deny hdeny]
  rfl

theorem goes_serveUpgradeSteps (h : Stable st₀ C E I) {docker : Docker} {call : Call} {m : Moment}
    (hmakes : ∀ ev, call.Makes ev → E ev)
    (hsend : ∀ decision, CanDecide deps (call.evalCtx none) call.rules decision →
      decision.result = .allow → MaySend deps I docker call call.upgradeHeaders []) :
    Goes I key (serveUpgradeSteps deps docker call m) none [] fun reply sent es =>
      reply.sent = sent ∧ es = servedEntries st₀.audit.isSome true docker reply ∧
        ∃ decision, Verdict deps call.rules (call.evalCtx none) decision reply := by
  unfold serveUpgradeSteps
  refine goes_count h (enters_nothing fun _ => rfl) ?_
  refine goes_after (goes_evaluateSteps h _ _ _) fun decision _ _ hX => ⟨hX.2.1, ?_⟩
  obtain ⟨hdecision, -, rfl⟩ := hX
  refine goes_after (goes_bookDryRunSteps h hmakes decision) fun _ _ _ hX => ⟨hX.1, ?_⟩
  obtain ⟨-, rfl⟩ := hX
  cases hresult : decision.result with
  | deny status message =>
      dsimp only
      refine goes_count h (enters_counter .denied) ?_
      refine goes_after (goes_bookDenySteps h hmakes decision status message)
        fun _ _ _ hX => ⟨hX.1, ?_⟩
      obtain ⟨-, rfl⟩ := hX
      refine goes_pure ⟨rfl, ?_, decision, verdict_denied hdecision hresult⟩
      rw [servedEntries_denied hresult, List.append_assoc]
      rfl
  | allow =>
      dsimp only
      refine goes_count h (enters_counter .allowed) ?_
      refine goes_part (goes_handleUpgradeSteps h (hsend decision hdecision hresult))
        fun reply sent es hX => ?_
      obtain ⟨hsent, hes⟩ := hX
      refine goes_pure ⟨hsent, ?_, decision, verdict_allowed hdecision hresult reply⟩
      unfold servedEntries
      dsimp only
      rw [passes_of_allow hresult, hsent, ← hes, List.append_assoc]
      rfl

theorem goes_readBodySteps (h : Stable st₀ C E I) (call : Call) (body : BodyStream) :
    Goes I key (readBodySteps deps call body) none [] fun read sent es =>
      sent = none ∧ read = (readBody deps st₀ call body).1 ∧
        ((∃ x, read = .ok x) ∧ es = [] ∨
          ∃ response, read = .error response ∧
            es = doorEntries st₀.audit.isSome response.status) := by
  unfold readBodySteps readBody
  cases body.read maxReqBodyBytes with
  | tooLarge =>
      exact goes_count h (enters_counter .bodyTooLarge) (goes_pure ⟨rfl, rfl, Or.inr ⟨_, rfl, rfl⟩⟩)
  | failed => exact goes_count h (enters_counter .badRequest) (goes_pure ⟨rfl, rfl, Or.inr ⟨_, rfl, rfl⟩⟩)
  | timedOut =>
      exact goes_count h (enters_counter .requestTimeout) (goes_pure ⟨rfl, rfl, Or.inr ⟨_, rfl, rfl⟩⟩)
  | bytes bodyBytes =>
      dsimp only
      cases bodyBytes.isEmpty with
      | true => exact goes_pure ⟨rfl, rfl, Or.inl ⟨⟨_, rfl⟩, rfl⟩⟩
      | false =>
          simp only [Bool.false_eq_true, if_false]
          cases deps.jsonFromSlice bodyBytes with
          | ok v => exact goes_pure ⟨rfl, rfl, Or.inl ⟨⟨_, rfl⟩, rfl⟩⟩
          | error e =>
              dsimp only
              cases requiresJsonBody call.canonicalPath with
              | true =>
                  exact goes_count h (enters_counter .badRequest)
                    (goes_pure ⟨rfl, rfl, Or.inr ⟨_, rfl, rfl⟩⟩)
              | false => exact goes_pure ⟨rfl, rfl, Or.inl ⟨⟨_, rfl⟩, rfl⟩⟩

theorem goes_servePlainSteps (h : Stable st₀ C E I) {docker : Docker} {call : Call}
    {body : BodyStream} {m : Moment} (hmakes : ∀ ev, call.Makes ev → E ev)
    (hsend : ∀ bytes json decision, (readBody deps st₀ call body).1 = .ok (bytes, json) →
      CanDecide deps (call.evalCtx json) call.rules decision → decision.result = .allow →
      MaySend deps I docker call call.plainHeaders bytes) :
    Goes I key (servePlainSteps deps docker call body m) none [] fun reply sent es =>
      reply.sent = sent ∧ es = servedEntries st₀.audit.isSome false docker reply ∧
        (reply.evaluated = none ∨ ∃ bytes json decision,
          (readBody deps st₀ call body).1 = .ok (bytes, json) ∧
            Verdict deps call.rules (call.evalCtx json) decision reply) := by
  unfold servePlainSteps
  refine goes_after (goes_readBodySteps h call body) fun read _ _ hX => ⟨hX.1, ?_⟩
  obtain ⟨-, hread, ⟨⟨⟨bytes, json⟩, rfl⟩, rfl⟩ | ⟨response, rfl, rfl⟩⟩ := hX
  · dsimp only
    refine goes_after (goes_evaluateSteps h _ _ _) fun decision _ _ hX => ⟨hX.2.1, ?_⟩
    obtain ⟨hdecision, -, rfl⟩ := hX
    refine goes_after (goes_bookDryRunSteps h hmakes decision) fun _ _ _ hX => ⟨hX.1, ?_⟩
    obtain ⟨-, rfl⟩ := hX
    cases hresult : decision.result with
    | deny status message =>
        have hend : ∀ es, es = dryRunEntries st₀.audit.isSome decision ++ [.settled, .denied] →
            Goes I key (bookDenySteps call decision status message >>= fun _ => pure
              { response := makeResponse (statusCodeOr403 status) message
                evaluated := some (call.evalCtx json, decision) }) none es fun reply sent es =>
              reply.sent = sent ∧ es = servedEntries st₀.audit.isSome false docker reply ∧
                (reply.evaluated = none ∨ ∃ bytes json decision,
                  (readBody deps st₀ call body).1 = .ok (bytes, json) ∧
                    Verdict deps call.rules (call.evalCtx json) decision reply) := by
          intro es hes
          rw [hes]
          refine goes_after (goes_bookDenySteps h hmakes decision status message)
            fun _ _ _ hX => ⟨hX.1, ?_⟩
          obtain ⟨-, rfl⟩ := hX
          refine goes_pure ⟨rfl, ?_, Or.inr ⟨bytes, json, decision, hread.symm,
            verdict_denied hdecision hresult⟩⟩
          rw [servedEntries_denied hresult, List.append_assoc]
          rfl
        dsimp only
        refine goes_count h (enters_counter .denied) ?_
        cases decision.action == some "rate_limit" with
        | true =>
            refine goes_count h (enters_nothing fun _ => rfl) ?_
            exact hend _ (List.append_nil _)
        | false => exact hend _ rfl
    | allow =>
        dsimp only
        refine goes_part (goes_forwardPlainSteps h
          (hsend bytes json decision hread.symm hdecision hresult) _ m) fun reply sent es hX => ?_
        obtain ⟨hsent, rfl⟩ := hX
        refine goes_pure ⟨hsent, ?_, Or.inr ⟨bytes, json, decision, hread.symm,
          verdict_allowed hdecision hresult reply⟩⟩
        unfold servedEntries
        dsimp only
        rw [passes_of_allow hresult, hsent]
        rfl
  · exact goes_pure ⟨rfl, rfl, Or.inl rfl⟩

/-! ## §7. A request in between others. -/

/-- The proxy under this configuration, with nobody locked out. -/
def ProxyState.under (st : ProxyState) (config : ProxyConfig) : ProxyState :=
  { st with config := config, authLimiter := AuthLimiter.new }

/-- **What a configuration's rules are asked of the request**: it lets the caller in, in the
role that the rules see; these bytes are the body. -/
structure Asked (st₀ : ProxyState) (config : ProxyConfig) (v : Visit deps)
    (ctx : EvaluationContext) (bytes : List UInt8) : Prop where
  path : canonicalizePath v.req.path = some ctx.path
  query : queryAccepted v.req.query = true
  caller : ∃ identity,
    (authenticate deps (st₀.under config) config v.req.headers v.peer v.cert v.m).1 =
      .allowed ctx.userRole identity
  /-- It is not the metrics that are asked for. -/
  notMetrics : ¬ (st₀.metricsPath = some ctx.path ∧ v.req.method = "GET")
  method : ctx.method = v.req.method
  headers : ctx.headers = ruleHeaders v.req.headers
  clientIp : ctx.clientIp =
    deps.ipToString (computeClientIp deps v.peer v.req.headers (trustedProxiesOf deps config))
  body : BodyAdmitted deps v.req ctx.path bytes ctx.bodyJson

/-- **The request is cleared by a configuration**: its rules, asked this, can come to allow
it. -/
structure Cleared (st₀ : ProxyState) (config : ProxyConfig) (v : Visit deps)
    (ctx : EvaluationContext) (bytes : List UInt8) : Prop extends
    Asked st₀ config v ctx bytes where
  rules : ∃ decision, CanDecide deps ctx (config.rules.getD []) decision ∧
    decision.result = .allow

/-- **The door, in between others**: what authentication by a configuration comes to. -/
structure Door (st₀ : ProxyState) (C : ProxyConfig → Prop) (I : Shared → Prop) (v : Visit deps)
    (A : ProxyConfig → AuthOutcome → Prop) (statuses : List UInt16) : Prop where
  goes : ∀ config, C config →
    Goes I v.key (authenticateSteps deps config v.req.headers v.peer v.cert v.m) none []
      fun outcome sent es => A config outcome ∧ sent = none ∧ es = []
  denied : ∀ config status message, A config (.denied status message) → status ∈ statuses
  known : ∀ status ∈ statuses, status = 401 ∨ status = 429
  allowed : ∀ config role identity, A config (.allowed role identity) →
    (authenticate deps (st₀.under config) config v.req.headers v.peer v.cert v.m).1 =
      .allowed role identity

/-- All that receiving can come to, and its entries. -/
inductive ReceiveGoes (st₀ : ProxyState) (C : ProxyConfig → Prop) (v : Visit deps)
    (A : ProxyConfig → AuthOutcome → Prop) : Except Response Call → List Entry → Prop where
  | malformed (text : String) (h : malformed v.req = true) :
      ReceiveGoes st₀ C v A (.error (makeResponse 400 text)) [.received, .settled]
  | denied {config : ProxyConfig} {status : UInt16} {message : String}
      (h : malformed v.req = false) (hdenied : A config (.denied status message)) :
      ReceiveGoes st₀ C v A (.error (makeResponse status message))
        (.received :: refusalEntries st₀.audit.isSome)
  | metrics {config : ProxyConfig} {role identity : Option String} (body : List UInt8)
      (hconfig : C config) (hallowed : A config (.allowed role identity)) :
      ReceiveGoes st₀ C v A
        (.error (makeResponseBytes 200 "text/plain; version=0.0.4; charset=utf-8" body))
        [.received]
  | call {config : ProxyConfig} {p : String} {role identity : Option String} (hconfig : C config)
      (hpath : canonicalizePath v.req.path = some p) (hquery : queryAccepted v.req.query = true)
      (hallowed : A config (.allowed role identity))
      (hmetrics : ¬ (st₀.metricsPath = some p ∧ v.req.method = "GET")) :
      ReceiveGoes st₀ C v A (.ok (callFor deps v.req v.peer v.m config p role identity))
        [.received]

theorem goes_loadBuckets (ks : List Nat) :
    Goes I key (loadBuckets ks) none [] fun _ sent es => sent = none ∧ es = [] := by
  induction ks with
  | nil => exact goes_pure ⟨rfl, rfl⟩
  | cons k ks ih =>
      unfold loadBuckets
      refine goes_look fun _ _ => ?_
      refine goes_after ih fun bs _ _ hX => ⟨hX.1, ?_⟩
      exact goes_pure ⟨rfl, hX.2⟩

theorem goes_loadMetrics :
    Goes I key loadMetrics none [] fun _ sent es => sent = none ∧ es = [] := by
  unfold loadMetrics
  iterate 15 refine goes_look fun _ _ => ?_
  refine goes_after (goes_loadBuckets _) fun buckets _ _ hX => ⟨hX.1, ?_⟩
  obtain ⟨-, rfl⟩ := hX
  iterate 2 refine goes_look fun _ _ => ?_
  exact goes_pure ⟨rfl, rfl⟩

variable {v : Visit deps} {A : ProxyConfig → AuthOutcome → Prop} {statuses : List UInt16}

theorem goes_receiveSteps (h : Stable st₀ C v.Makes I) (hdoor : Door st₀ C I v A statuses) :
    Goes I v.key (receiveSteps deps v.req v.peer v.cert v.m) none [] fun received sent es =>
      sent = none ∧ ReceiveGoes st₀ C v A received es := by
  unfold receiveSteps
  refine goes_count h (enters_counter .received) ?_
  cases hpath : canonicalizePath v.req.path with
  | none =>
      have hmalformed := malformed_iff.mpr (Or.inl hpath)
      exact goes_count h (enters_counter .badRequest) (goes_pure ⟨rfl, .malformed _ hmalformed⟩)
  | some p =>
      dsimp only
      cases hquery : queryAccepted v.req.query with
      | false =>
          have hmalformed := malformed_iff.mpr (Or.inr hquery)
          exact goes_count h (enters_counter .badRequest) (goes_pure ⟨rfl, .malformed _ hmalformed⟩)
      | true =>
          simp only [Bool.not_true, Bool.false_eq_true, if_false]
          refine goes_look fun s hs => ?_
          -- which of them it is, is decided here
          have hconfig := h.config s hs
          refine goes_after (hdoor.goes s.proxy.config hconfig) fun outcome _ _ hX => ⟨hX.2.1, ?_⟩
          obtain ⟨houtcome, -, rfl⟩ := hX
          cases outcome with
          | denied status message =>
              refine goes_count h (enters_counter .denied) ?_
              refine goes_record h rfl ⟨rfl, rfl, rfl, hpath, rfl⟩ (goes_pure ⟨rfl, ?_⟩)
              exact .denied (wellformed hpath hquery) houtcome
          | allowed role identity =>
              refine goes_look fun s' hs' => ?_
              rw [(h.fixed s' hs').metricsPath]
              cases hmetrics : st₀.metricsPath == some p && v.req.method == "GET" with
              | true =>
                  refine goes_after goes_loadMetrics fun c _ _ hX => ⟨hX.1, ?_⟩
                  obtain ⟨-, rfl⟩ := hX
                  exact goes_pure ⟨rfl, .metrics _ hconfig houtcome⟩
              | false =>
                  refine goes_pure ⟨rfl, .call hconfig hpath hquery houtcome fun hboth => ?_⟩
                  rw [hboth.1, hboth.2] at hmetrics
                  simp at hmetrics

/-- The entries of a request that has been replied to. -/
def Visit.entries (enabled : Bool) (v : Visit deps) (reply : Reply) : List Entry :=
  .received :: servedEntries enabled (isUpgradeRequest v.req.headers) v.docker reply

/-- The request is turned away at the door: Docker never sees it, and no rule is asked. -/
structure TurnedAway (v : Visit deps) (statuses : List UInt16) (reply : Reply) : Prop where
  sent : reply.sent = none
  evaluated : reply.evaluated = none
  status : reply.response.status ∈ if malformed v.req then [400] else statuses

/-- The body that a call sends is the body it read. -/
theorem bodyAdmitted_of_read {call : Call} {bytes : List UInt8} {json : Option JsonValue}
    (hplain : isUpgradeRequest v.req.headers = false)
    (hread : (readBody deps st₀ call v.req.body).1 = .ok (bytes, json)) :
    BodyAdmitted deps v.req call.canonicalPath bytes json := by
  have htaken := readBody_bodyTaken deps st₀ call v.req.body
  unfold BodyAdmitted
  rw [hplain, if_neg Bool.false_ne_true]
  generalize readBody deps st₀ call v.req.body = taken at htaken hread
  cases htaken with
  | tooLarge => exact absurd hread (by simp)
  | bad => exact absurd hread (by simp)
  | timedOut => exact absurd hread (by simp)
  | taken bytes' hread' hrequired =>
      obtain ⟨rfl, rfl⟩ := Prod.mk.inj (Except.ok.inj hread)
      exact ⟨hread', rfl, hrequired⟩

/-- **One configuration judges the request**, if rules are asked at all: it lets the caller
in, and the verdict is one of its rules. -/
def Judged (st₀ : ProxyState) (C : ProxyConfig → Prop) (v : Visit deps) (reply : Reply) : Prop :=
  reply.evaluated = none ∨ ∃ config, C config ∧ ∃ ctx bytes decision,
    Asked st₀ config v ctx bytes ∧ Verdict deps (config.rules.getD []) ctx decision reply

/-- **A task keeps what its accesses keep**, if it keeps what the cleared requests send; its
entries are those that its reply says; and it is let in, or turned away. -/
theorem keeps_visit (h : Stable st₀ C v.Makes I) (hdoor : Door st₀ C I v A statuses)
    (hsend : ∀ config ctx bytes out, C config → Cleared st₀ config v ctx bytes →
      Sends deps v.req v.docker ctx.path bytes out → ∀ s, I s → I (s.send out)) :
    Goes I v.key v.steps none [] fun reply sent es =>
      reply.sent = sent ∧ es = v.entries st₀.audit.isSome reply ∧
        (TurnedAway v statuses reply ∨
          ∃ config role identity, C config ∧ A config (.allowed role identity)) ∧
        Judged st₀ C v reply := by
  unfold Visit.steps handleSteps
  refine goes_after (goes_receiveSteps h hdoor) fun received _ es hX => ⟨hX.1, ?_⟩
  obtain ⟨-, hreceived⟩ := hX
  cases hreceived with
  | malformed text hmalformed =>
      refine goes_pure ⟨rfl, rfl, Or.inl ⟨rfl, rfl, ?_⟩, Or.inl rfl⟩
      rw [hmalformed]
      exact List.mem_singleton.mpr rfl
  | denied hwell hdenied =>
      rename_i config status message
      have hmem := hdoor.denied _ _ _ hdenied
      refine goes_pure ⟨rfl, ?_, Or.inl ⟨rfl, rfl, ?_⟩, Or.inl rfl⟩
      · unfold Visit.entries servedEntries doorEntries
        obtain rfl | rfl := hdoor.known _ hmem
        · rfl
        · rfl
      · rw [hwell]
        exact hmem
  | metrics body hconfig hallowed =>
      exact goes_pure ⟨rfl, rfl, Or.inr ⟨_, _, _, hconfig, hallowed⟩, Or.inl rfl⟩
  | call hconfig hpath hquery hallowed hmetrics =>
      rename_i config p role identity
      have hasked : ∀ json bytes, BodyAdmitted deps v.req p bytes json →
          Asked st₀ config v
            ((callFor deps v.req v.peer v.m config p role identity).evalCtx json) bytes :=
        fun json bytes hbody =>
          { path := hpath
            query := hquery
            caller := ⟨identity, hdoor.allowed _ _ _ hallowed⟩
            notMetrics := hmetrics
            method := rfl
            headers := rfl
            clientIp := rfl
            body := hbody }
      -- the configuration was read once: all that follows is by the same
      have hlet : ∃ config role identity, C config ∧ A config (.allowed role identity) :=
        ⟨config, role, identity, hconfig, hallowed⟩
      have hmakes : ∀ ev, (callFor deps v.req v.peer v.m config p role identity).Makes ev →
          v.Makes ev :=
        fun ev h => ⟨h.timestamp, h.peerIp, h.method, hpath.trans (congrArg some h.path.symm),
          h.userAgent⟩
      dsimp only
      cases hup : isUpgradeRequest v.req.headers with
      | true =>
          have hheaders : (callFor deps v.req v.peer v.m config p role identity).upgradeHeaders =
              upstreamHeaders v.req.headers := by
            unfold upstreamHeaders
            rw [if_pos hup]
            rfl
          have hbody : BodyAdmitted deps v.req p [] none := by
            unfold BodyAdmitted
            rw [if_pos hup]
            exact ⟨rfl, rfl⟩
          refine goes_mono (goes_frame (goes_serveUpgradeSteps h hmakes
            fun decision hdecision hallow target hconnect hshake htarget => ?_))
            fun reply sent es hX => ?_
          · exact hsend config _ [] _ hconfig ⟨hasked none [] hbody, decision, hdecision, hallow⟩
              ⟨hconnect, hshake, htarget, rfl, hheaders, rfl⟩
          obtain ⟨es', ⟨hsent, rfl, decision, hverdict⟩, rfl⟩ := hX
          refine ⟨hsent, ?_, Or.inr hlet,
            Or.inr ⟨config, hconfig, _, [], decision, hasked none [] hbody, hverdict⟩⟩
          unfold Visit.entries
          rw [hup]
          rfl
      | false =>
          have hheaders : (callFor deps v.req v.peer v.m config p role identity).plainHeaders =
              upstreamHeaders v.req.headers := by
            unfold upstreamHeaders
            rw [hup]
            rfl
          refine goes_mono (goes_frame (goes_servePlainSteps h hmakes
            fun bytes json decision hread hdecision hallow target hconnect hshake htarget => ?_))
            fun reply sent es hX => ?_
          · have hbody := bodyAdmitted_of_read hup hread
            exact hsend config _ bytes _ hconfig
              ⟨hasked json bytes hbody, decision, hdecision, hallow⟩
              ⟨hconnect, hshake, htarget, rfl, hheaders, rfl⟩
          obtain ⟨es', ⟨hsent, rfl, hverdict⟩, rfl⟩ := hX
          have hjudged : Judged st₀ C v reply := by
            obtain hnone | ⟨bytes, json, decision, hread, hverdict⟩ := hverdict
            · exact Or.inl hnone
            · exact Or.inr ⟨config, hconfig, _, bytes, decision,
                hasked json bytes (bodyAdmitted_of_read hup hread), hverdict⟩
          refine ⟨hsent, ?_, Or.inr hlet, hjudged⟩
          unfold Visit.entries
          rw [hup]
          rfl

end

end DockerProxy.Proxy
