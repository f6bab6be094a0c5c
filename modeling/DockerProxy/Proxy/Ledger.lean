/-
  DockerProxy.Proxy.Ledger — what the counters add up to.

  Every request is counted when it comes, and again under what became of it.  Not quite:
  two kinds of requests are counted under nothing (those for the metrics, and those that
  pass on the plain path and cannot be built), and one kind under two counters (those that
  pass with upgrade headers and that Docker then fails, or whose connection does not come).
  What a request enters on the books is known (`Visit.entries`); here it is balanced with
  what the request, the configuration and Docker are.

    • `entered_handle` — one request enters what its reply says,
    • `balances_handle` — which balances, with these corrections,
    • `balances_step`, `balances_run` — and so does a step, and a run,
    • `ledger_run` — so in every run of requests that are handled to their end the totals
      agree, and the latency histogram has one observation for each request allowed on the
      plain path.
-/
import DockerProxy.Proxy.Interleaved

namespace DockerProxy.Proxy

open DockerProxy.Lib DockerProxy.Path DockerProxy.Limiter DockerProxy.Rules

/-! ## §1. What is entered. -/

/-- **These entries were made** between the two states. -/
def Entered (st st' : ProxyState) (es : List Entry) : Prop :=
  ∀ e, Shared.entry ⟨st', []⟩ e = Shared.entry ⟨st, []⟩ e + UInt64.ofNat (es.count e)

theorem Entered.trans {st st' st'' : ProxyState} {es es' : List Entry} (h : Entered st st' es)
    (h' : Entered st' st'' es') : Entered st st'' (es ++ es') := by
  intro e
  rw [h' e, h e, List.count_append, UInt64.ofNat_add, UInt64.add_assoc]

/-- Nothing is entered. -/
theorem Entered.refl (st : ProxyState) : Entered st st [] := fun _ => (UInt64.add_zero _).symm

/-- **One request enters what its reply says**: its task does, in between others, and so it
does alone. -/
theorem entered_handle {deps : Externals} (st : ProxyState) (v : Visit deps) :
    Entered st (handle deps st v.req v.peer v.cert v.docker v.m).state
      (v.entries st.audit.isSome (handle deps st v.req v.peer v.cert v.docker v.m).reply) := by
  -- nothing is asked of the configuration, nor of what else is shared
  have hstable : Stable st (fun _ => True) v.Makes (Holds st (fun _ => True) fun _ => True) :=
    stable_holds (fun _ _ h => h) (fun _ _ _ h => h) (fun _ _ h => h)
  have hkeeps := keeps_visit hstable
    (door_open hstable (fun _ hs => hs.auth hs.kept) fun _ hs => hs.auth hs.kept)
    fun _ _ _ _ _ _ _ _ hs => hs.send hs.kept
  obtain ⟨d, hadded, sent, es, ⟨-, rfl, -⟩, hd⟩ :=
    Prog.keeps_alone hkeeps (s := ⟨st, []⟩) ⟨.refl _, trivial, trivial⟩
  -- without others the task is `handle`
  have halone : v.steps.alone ⟨st, []⟩ =
      (handle deps st v.req v.peer v.cert v.docker v.m).left [] :=
    alone_handleSteps deps v.req v.peer v.cert v.docker v.m ⟨st, []⟩
  rw [tallied_none_nil, zero_add] at hd
  rw [hd, halone] at hadded
  exact fun e => congrFun (congrArg Prod.snd hadded) e

/-! ## §2. What Docker makes of it. -/

variable (deps : Externals)

section

variable (docker : Docker) (call : Call)

/-- Docker is there, and the request to it cannot be built. -/
def unbuilt : Bool :=
  docker.connect == .ok () && docker.handshake && (deps.uriTarget call.canonicalPathAndQuery).isNone

/-- Docker is not there, fails the request, or takes too long. -/
def dockerFails (headers : HeaderMap) (body : List UInt8) : Bool :=
  match docker.connect, docker.handshake, deps.uriTarget call.canonicalPathAndQuery with
  | .ok (), true, some target =>
      match docker.respond { method := call.method, target := target, headers := headers, body := body } with
      | .ok _ => false
      | .failed | .timedOut => true
  | .ok (), true, none => false
  | _, _, _ => true


/-- **What became of an exchange**, as the books read it off what was sent. -/
theorem fate_exchange (st : ProxyState) (headers : HeaderMap) (body : List UInt8) :
    (docker.fate (exchange deps st docker call headers body).sent = .unbuilt ↔
      unbuilt deps docker call = true) ∧
    (docker.fate (exchange deps st docker call headers body).sent = .failed ↔
      dockerFails deps docker call headers body = true) := by
  unfold exchange unbuilt dockerFails
  cases hconnect : docker.connect with
  | failed => simp [Docker.fate, hconnect]
  | timedOut => simp [Docker.fate, hconnect]
  | ok _ =>
      cases hshake : docker.handshake with
      | false => simp [Docker.fate, hshake]
      | true =>
          simp only [Bool.not_true, Bool.false_eq_true, if_false]
          cases htarget : deps.uriTarget call.canonicalPathAndQuery with
          | none => simp [Docker.fate, hconnect, hshake]
          | some target =>
              dsimp only
              cases hrespond : docker.respond _ with
              | failed => simp [Docker.fate, hrespond]
              | timedOut => simp [Docker.fate, hrespond]
              | ok res => simp [Docker.fate, hrespond]

end

/-! ## §3. What the entries come to. -/

/-- **What the entries of a request come to**, but for the one that it came: outcomes,
outcomes that are allowed, and latencies. -/
structure Settles (es : List Entry) (settled allowed observed : Nat) : Prop where
  received : es.count .received = 0
  settled : es.count .settled = settled
  allowed : es.count .allowed = allowed
  observed : es.count .observed = observed

theorem Settles.append {es es' : List Entry} {s a o s' a' o' : Nat} (h : Settles es s a o)
    (h' : Settles es' s' a' o') : Settles (es ++ es') (s + s') (a + a') (o + o') := by
  obtain ⟨hr, rfl, rfl, rfl⟩ := h
  obtain ⟨hr', rfl, rfl, rfl⟩ := h'
  refine ⟨?_, List.count_append, List.count_append, List.count_append⟩
  rw [List.count_append, hr, hr']

section

variable (enabled : Bool) (decision : RuleDecision)

theorem settles_dryRunEntries : Settles (dryRunEntries enabled decision) 0 0 0 := by
  unfold dryRunEntries
  split
  · cases enabled with
    | _ => exact ⟨rfl, rfl, rfl, rfl⟩
  · exact ⟨rfl, rfl, rfl, rfl⟩

theorem settles_refusalEntries : Settles (refusalEntries enabled) 1 0 0 := by
  cases enabled with
  | _ => exact ⟨rfl, rfl, rfl, rfl⟩

end

section

variable (enabled : Bool) (st : ProxyState) (docker : Docker) (call : Call) (m : Moment)

/-- A body that is not taken is settled. -/
theorem settles_of_readBody {body : BodyStream} {response : Response} {st' : ProxyState}
    (h : readBody deps st call body = (.error response, st')) :
    Settles (doorEntries enabled response.status) 1 0 0 := by
  have hstatus : ∀ {status : UInt16} {text : String} {st'' : ProxyState},
      ((.error (makeResponse status text), st'') :
        Except Response (List UInt8 × Option JsonValue) × ProxyState) = (.error response, st') →
      Settles (doorEntries enabled status) 1 0 0 →
        Settles (doorEntries enabled response.status) 1 0 0 := by
    intro status text st'' heq hsettles
    obtain rfl := Except.error.inj (Prod.mk.inj heq).1
    exact hsettles
  unfold readBody at h
  split at h
  · exact hstatus h ⟨rfl, rfl, rfl, rfl⟩
  · exact hstatus h ⟨rfl, rfl, rfl, rfl⟩
  · exact hstatus h ⟨rfl, rfl, rfl, rfl⟩
  · split at h
    · exact absurd h (by simp)
    · split at h
      · exact absurd h (by simp)
      · split at h
        · exact hstatus h ⟨rfl, rfl, rfl, rfl⟩
        · exact absurd h (by simp)

/-- An exchange with upgrade headers is settled as allowed before it comes to pass. -/
theorem settles_upgradeEntries (headers : HeaderMap) (body : List UInt8) :
    Settles (upgradeEntries (docker.fate (exchange deps st docker call headers body).sent))
      (1 + (dockerFails deps docker call headers body).toNat) 1 0 := by
  have hfails := (fate_exchange deps docker call st headers body).2
  generalize docker.fate (exchange deps st docker call headers body).sent = fate at hfails ⊢
  cases fate with
  | failed =>
      rw [hfails.mp rfl]
      exact ⟨rfl, rfl, rfl, rfl⟩
  | unbuilt =>
      rw [Bool.eq_false_iff.mpr (hfails.not.mp (by simp))]
      exact ⟨rfl, rfl, rfl, rfl⟩
  | answered res =>
      rw [Bool.eq_false_iff.mpr (hfails.not.mp (by simp))]
      exact ⟨rfl, rfl, rfl, rfl⟩

/-- One on the plain path is not settled before, and is allowed if it is observed. -/
theorem settles_plainEntries (headers : HeaderMap) (body : List UInt8) :
    ∃ n, Settles (plainEntries (docker.fate (exchange deps st docker call headers body).sent))
      (!unbuilt deps docker call).toNat n n := by
  have hunbuilt := (fate_exchange deps docker call st headers body).1
  generalize docker.fate (exchange deps st docker call headers body).sent = fate at hunbuilt ⊢
  cases fate with
  | unbuilt =>
      rw [hunbuilt.mp rfl]
      exact ⟨0, rfl, rfl, rfl, rfl⟩
  | failed =>
      rw [Bool.eq_false_iff.mpr (hunbuilt.not.mp (by simp))]
      exact ⟨0, rfl, rfl, rfl, rfl⟩
  | answered res =>
      rw [Bool.eq_false_iff.mpr (hunbuilt.not.mp (by simp))]
      unfold plainEntries
      dsimp only
      split
      · exact ⟨1, rfl, rfl, rfl, rfl⟩
      · exact ⟨0, rfl, rfl, rfl, rfl⟩

/-- **The upgrade path.**  A request that passes is settled as allowed, and once more if
Docker fails it. -/
theorem settles_serveUpgrade :
    ∃ ctx decision, (serveUpgrade deps st docker call m).evaluated = some (ctx, decision) ∧
      Settles (servedEntries enabled true docker (serveUpgrade deps st docker call m).reply)
        (1 + (passes decision && dockerFails deps docker call call.upgradeHeaders []).toNat)
        (passes decision).toNat 0 := by
  have hserved := serveUpgrade_served deps st docker call m
  generalize serveUpgrade deps st docker call m = outcome at hserved ⊢
  cases hserved with
  | denied hdecision hdeny =>
      rename_i decision status message
      refine ⟨_, decision, rfl, ?_⟩
      show Settles (servedEntries enabled true docker
        { response := makeResponse (statusCodeOr403 status) message
          evaluated := some (call.evalCtx none, decision) }) _ _ _
      rw [servedEntries_denied hdeny, passes_of_deny hdeny]
      exact (settles_dryRunEntries enabled decision).append (settles_refusalEntries enabled)
  | allowed hdecision hallow =>
      rename_i decision
      refine ⟨_, decision, rfl, ?_⟩
      unfold servedEntries Outcome.reply
      dsimp only
      rw [passes_of_allow hallow, handleUpgrade_sent, if_pos rfl, if_pos rfl, Bool.true_and]
      have hsettles := (settles_dryRunEntries enabled decision).append
        (settles_upgradeEntries deps
          (afterRules deps st.upgraded call m (call.evalCtx none)).allowed docker call
          call.upgradeHeaders [])
      rw [Nat.zero_add] at hsettles
      exact hsettles

/-- **The plain path.**  A request is settled once, unless it passes and cannot be built,
and as many are allowed as are observed. -/
theorem settles_servePlain (body : BodyStream) :
    ∃ n, Settles (servedEntries enabled false docker (servePlain deps st docker call body m).reply)
      (1 - (((servePlain deps st docker call body m).evaluated.map Prod.snd).any passes &&
        unbuilt deps docker call).toNat) n n := by
  have hserved := servePlain_served deps st docker call body m
  generalize servePlain deps st docker call body m = outcome at hserved ⊢
  cases hserved with
  | rejected hread => exact ⟨0, settles_of_readBody deps enabled st call hread⟩
  | denied hread hdecision hdeny =>
      rename_i bytes json decision status message
      refine ⟨0, ?_⟩
      show Settles (servedEntries enabled false docker
        { response := makeResponse (statusCodeOr403 status) message
          evaluated := some (call.evalCtx json, decision) }) _ _ _
      simp only [Option.map_some, Option.any_some, passes_of_deny hdeny, Bool.false_and]
      rw [servedEntries_denied hdeny]
      exact (settles_dryRunEntries enabled decision).append (settles_refusalEntries enabled)
  | allowed hread hdecision hallow =>
      rename_i bytes json decision
      obtain ⟨n, hplain⟩ := settles_plainEntries deps
        (afterRules deps st call m (call.evalCtx json)) docker call call.plainHeaders bytes
      have hsettles := (settles_dryRunEntries enabled decision).append hplain
      have hbool : ∀ b : Bool, 1 - b.toNat = (!b).toNat := by decide
      refine ⟨n, ?_⟩
      unfold servedEntries Outcome.reply
      simp only [Option.map_some, Option.any_some, passes_of_allow hallow, Bool.true_and, hbool,
        forwardPlain_sent, if_true, Bool.false_eq_true, if_false]
      simpa only [Nat.zero_add] using hsettles

end

/-! ## §4. One request. -/

/-- The caller is let in. -/
def AuthOutcome.isAllowed : AuthOutcome → Bool
  | .allowed _ _ => true
  | .denied _ _ => false

section

variable {deps} (st : ProxyState) (req : Request) (peer : deps.Ip) (cert : Option CertIdentity)
variable (docker : Docker) (m : Moment)

/-- The metrics are asked for, by someone who is let in. -/
def metricsServed : Bool :=
  !malformed req && st.metricsPath == canonicalizePath req.path && req.method == "GET" &&
    (authenticate deps st st.config req.headers peer cert m).1.isAllowed

/-- The rules let the request pass. -/
def passesRules : Bool :=
  ((handle deps st req peer cert docker m).evaluated.map Prod.snd).any passes

/-- The request passes on the plain path, and cannot be built. -/
def lostUnbuilt : Bool :=
  match (receive deps st req peer cert m).1 with
  | .ok call => passesRules st req peer cert docker m && !isUpgradeRequest req.headers &&
      unbuilt deps docker call
  | .error _ => false

/-- The request passes with upgrade headers. -/
def passedUpgrade : Bool := passesRules st req peer cert docker m && isUpgradeRequest req.headers

/-- The request passes with upgrade headers, and Docker fails it. -/
def countedTwice : Bool :=
  match (receive deps st req peer cert m).1 with
  | .ok call => passedUpgrade st req peer cert docker m &&
      dockerFails deps docker call call.upgradeHeaders []
  | .error _ => false

/-- **Entries that balance**, but for the corrections: as many under an outcome as came,
and as many observations as are allowed. -/
structure Balances (es : List Entry) (requests metrics unbuilt twice upgrades : Nat) : Prop where
  received : es.count .received = requests
  settled : es.count .settled + metrics + unbuilt = requests + twice
  allowed : es.count .allowed = es.count .observed + upgrades

theorem Balances.append {es es' : List Entry} {r c u t p r' c' u' t' p' : Nat}
    (h : Balances es r c u t p) (h' : Balances es' r' c' u' t' p') :
    Balances (es ++ es') (r + r') (c + c') (u + u') (t + t') (p + p') := by
  obtain ⟨hr, hs, ha⟩ := h
  obtain ⟨hr', hs', ha'⟩ := h'
  refine ⟨?_, ?_, ?_⟩
  · rw [List.count_append, hr, hr']
  · rw [List.count_append]
    omega
  · rw [List.count_append, List.count_append]
    omega

/-- A request that comes, and what its entries come to. -/
theorem Settles.balances {es : List Entry} {settled allowed observed metrics unbuilt twice
    upgrades : Nat} (h : Settles es settled allowed observed)
    (hsettled : settled + metrics + unbuilt = 1 + twice)
    (hallowed : allowed = observed + upgrades) :
    Balances (.received :: es) 1 metrics unbuilt twice upgrades := by
  obtain ⟨hr, rfl, rfl, rfl⟩ := h
  refine ⟨?_, ?_, ?_⟩
  · rw [List.count_cons_self, hr]
  · rw [List.count_cons_of_ne (by simp)]
    exact hsettled
  · rw [List.count_cons_of_ne (by simp), List.count_cons_of_ne (by simp)]
    exact hallowed

/-- **One request balances.** -/
theorem balances_handle (enabled : Bool) :
    Balances ((⟨req, peer, cert, docker, m⟩ : Visit deps).entries enabled
        (handle deps st req peer cert docker m).reply) 1
      (metricsServed st req peer cert m).toNat (lostUnbuilt st req peer cert docker m).toNat
      (countedTwice st req peer cert docker m).toNat
      (passedUpgrade st req peer cert docker m).toNat := by
  have hauth : ∀ {outcome st'}, authenticated deps st req peer cert m = (outcome, st') →
      st'.metricsPath = st.metricsPath ∧
        (authenticate deps st st.config req.headers peer cert m).1 = outcome := by
    intro outcome st' h
    refine ⟨?_, ?_⟩
    · obtain ⟨_, _, _, rfl⟩ := authenticated_frame deps h
      rfl
    · exact (authenticate_count deps st _ st.config req.headers peer cert m).symm.trans
        (congrArg Prod.fst h)
  have hreceived := receive_received deps st req peer cert m
  unfold Visit.entries lostUnbuilt countedTwice passedUpgrade passesRules metricsServed
  cases hreceive : receive deps st req peer cert m with
  | mk received st₁ =>
      rw [hreceive] at hreceived
      cases hreceived with
      | badRequest text h =>
          -- nobody was asked for the metrics, and no rule was asked
          rw [handle_of_answered deps hreceive, malformed_iff.mpr h]
          have hsettles : Settles [.settled] 1 0 0 := ⟨rfl, rfl, rfl, rfl⟩
          exact hsettles.balances rfl rfl
      | denied hpath hquery h =>
          rename_i p status message st'
          obtain ⟨-, houtcome⟩ := hauth h
          -- the status says that it was a refusal
          have hentries : doorEntries enabled status = refusalEntries enabled := by
            have hstatus := status_of_denied houtcome
            simp only [List.mem_cons, List.not_mem_nil, or_false] at hstatus
            obtain rfl | rfl := hstatus
            · rfl
            · rfl
          rw [handle_of_answered deps hreceive, houtcome]
          have hsettles := settles_refusalEntries enabled
          rw [← hentries] at hsettles
          refine hsettles.balances ?_ rfl
          simp [AuthOutcome.isAllowed]
      | metrics hpath hquery h hmetrics =>
          obtain ⟨hsame, houtcome⟩ := hauth h
          rw [hsame] at hmetrics
          rw [handle_of_answered deps hreceive, houtcome, wellformed hpath hquery, hpath,
            hmetrics.1, hmetrics.2]
          have hsettles : Settles [] 0 0 0 := ⟨rfl, rfl, rfl, rfl⟩
          refine hsettles.balances ?_ rfl
          simp [AuthOutcome.isAllowed]
      | call hpath hquery h hmetrics =>
          rename_i p role identity
          obtain ⟨hsame, houtcome⟩ := hauth h
          rw [hsame] at hmetrics
          -- a call is no request for the metrics
          have hserved : (!malformed req && st.metricsPath == canonicalizePath req.path &&
              req.method == "GET" &&
                (authenticate deps st st.config req.headers peer cert m).1.isAllowed) = false := by
            rw [hpath]
            simp only [Bool.and_eq_false_iff, beq_eq_false_iff_ne, ne_eq]
            by_cases hp : st.metricsPath = some p
            · exact Or.inl (Or.inr fun hg => hmetrics ⟨hp, hg⟩)
            · exact Or.inl (Or.inl (Or.inr hp))
          rw [hserved, handle_of_received deps hreceive]
          cases hup : isUpgradeRequest req.headers with
          | true =>
              obtain ⟨ctx, decision, hevaluated, hsettles⟩ := settles_serveUpgrade deps enabled st₁
                docker (callFor deps req peer m st.config p role identity) m
              rw [if_pos rfl, hevaluated]
              refine hsettles.balances ?_ ?_
              · simp
              · simp
          | false =>
              obtain ⟨n, hsettles⟩ := settles_servePlain deps enabled st₁ docker
                (callFor deps req peer m st.config p role identity) m req.body
              rw [if_neg Bool.false_ne_true]
              refine hsettles.balances ?_ ?_
              · -- what is lost here is what the plain path does not settle
                simp only [Bool.not_false, Bool.and_true, Bool.and_false, Bool.false_and,
                  Bool.toNat_false]
                have hle := Bool.toNat_le
                  (((servePlain deps st₁ docker (callFor deps req peer m st.config p role identity) req.body
                    m).evaluated.map Prod.snd).any passes &&
                    unbuilt deps docker (callFor deps req peer m st.config p role identity))
                omega
              · simp

end

/-! ## §5. Runs. -/

/-- Something said of the requests, counted for an event. -/
def SystemEvent.counts {deps : Externals}
    (f : ProxyState → Request → (peer : deps.Ip) → Option CertIdentity → Docker → Moment → Bool)
    (st : ProxyState) : SystemEvent deps → Nat
  | .happens (.request req peer cert docker m) => (f st req peer cert docker m).toNat
  | .happens (.reload _) | .cleanup _ _ | .tunnel _ _ => 0

/-- What is counted under two outcomes: a request that passed with upgrade headers and that
Docker failed, at once or when the switched connection did not come. -/
def SystemEvent.bookedTwice {deps : Externals} (st : ProxyState) : SystemEvent deps → Nat
  | .happens (.request req peer cert docker m) => (countedTwice st req peer cert docker m).toNat
  | .tunnel client docker => (resolveUpgrades client docker != .ok ()).toNat
  | .happens (.reload _) | .cleanup _ _ => 0

/-- How often it was so in a run. -/
def countOf {deps : Externals}
    (f : ProxyState → Request → (peer : deps.Ip) → Option CertIdentity → Docker → Moment → Bool)
    (st : ProxyState) (events : List (SystemEvent deps)) : Nat :=
  tally SystemEvent.step (SystemEvent.counts f) st events

/-- The end of a tunnel is on the books if it failed. -/
theorem entered_countResolve (st : ProxyState) (client docker : Attempt Unit) :
    Entered st (st.countResolve (resolveUpgrades client docker))
      (Outside.entries (.tunnel client docker)) :=
  fun e => congrFun (congrArg Prod.snd (account_effect ⟨st, []⟩ (.tunnel client docker))) e

/-- **A step balances.** -/
theorem balances_step (st : ProxyState) (e : SystemEvent deps) :
    ∃ es, Entered st (e.step st) es ∧
      Balances es (SystemEvent.counts (fun _ _ _ _ _ _ => true) st e)
        (SystemEvent.counts (fun st req peer cert _ m => metricsServed st req peer cert m) st e)
        (SystemEvent.counts lostUnbuilt st e) (e.bookedTwice st)
        (SystemEvent.counts passedUpgrade st e) := by
  cases e with
  | happens h =>
      cases h with
      | request req peer cert docker m =>
          exact ⟨_, entered_handle st ⟨req, peer, cert, docker, m⟩,
            balances_handle st req peer cert docker m _⟩
      | reload config => exact ⟨[], .refl st, rfl, rfl, rfl⟩
  | cleanup rateNow authNow => exact ⟨[], .refl st, rfl, rfl, rfl⟩
  | tunnel client docker =>
      refine ⟨_, entered_countResolve st client docker, ?_⟩
      show Balances (if resolveUpgrades client docker = .ok () then [] else [.settled]) 0 0 0
        (resolveUpgrades client docker != .ok ()).toNat 0
      cases resolveUpgrades client docker with
      | _ => exact ⟨rfl, rfl, rfl⟩

/-- **A run balances.** -/
theorem balances_run (events : List (SystemEvent deps)) :
    ∀ st, ∃ es, Entered st (run SystemEvent.step st events) es ∧
      Balances es (countOf (fun _ _ _ _ _ _ => true) st events)
        (countOf (fun st req peer cert _ m => metricsServed st req peer cert m) st events)
        (countOf lostUnbuilt st events)
        (tally SystemEvent.step SystemEvent.bookedTwice st events)
        (countOf passedUpgrade st events) := by
  induction events with
  | nil => intro st; exact ⟨[], .refl st, rfl, rfl, rfl⟩
  | cons e events ih =>
      intro st
      obtain ⟨es, hentered, hbalances⟩ := balances_step deps st e
      obtain ⟨es', hentered', hbalances'⟩ := ih (e.step st)
      exact ⟨es ++ es', hentered.trans hentered', hbalances.append hbalances'⟩

/-- **The ledger of a run** of requests whose handlers run to their end.  The requests
received are those counted under an outcome, with the metrics endpoint's and the unbuilt
ones missing and the upgrades that failed counted twice; and the requests allowed are those
whose latency was observed, and the upgrades. -/
theorem ledger_run (st : ProxyState) (events : List (SystemEvent deps)) :
    let st' := run SystemEvent.step st events
    st'.metrics.requestsTotal =
        st.metrics.requestsTotal + .ofNat (countOf (fun _ _ _ _ _ _ => true) st events) ∧
      st'.metrics.outcomes + st.metrics.requestsTotal +
          .ofNat (countOf (fun st req peer cert _ m => metricsServed st req peer cert m) st events +
            countOf lostUnbuilt st events) =
        st.metrics.outcomes + st'.metrics.requestsTotal +
          .ofNat (tally SystemEvent.step SystemEvent.bookedTwice st events) ∧
      st'.metrics.requestsAllowed + st.metrics.latency.count =
        st.metrics.requestsAllowed + st'.metrics.latency.count +
          .ofNat (countOf passedUpgrade st events) := by
  intro st'
  obtain ⟨es, hentered, hreceived, hsettled, hallowed⟩ := balances_run deps events st
  -- the balance is one of numbers; the counters wrap around
  have hsum := congrArg UInt64.ofNat hsettled
  simp only [UInt64.ofNat_add] at hsum
  have hreceived' := hentered .received
  have hsettled' := hentered .settled
  have hallowed' := hentered .allowed
  have hobserved' := hentered .observed
  rw [hreceived] at hreceived'
  rw [hallowed, UInt64.ofNat_add] at hallowed'
  simp only [Shared.entry] at hreceived' hsettled' hallowed' hobserved'
  refine ⟨hreceived', ?_, ?_⟩
  · rw [hsettled', hreceived', UInt64.ofNat_add]
    grind
  · rw [hallowed', hobserved']
    grind

end DockerProxy.Proxy
