/-
  DockerProxy.Proxy.Interleaved — what holds in every interleaving.

  The tasks of requests, the reloader, the cleanups and the ends of tunnels take turns in
  any order, one access to the shared state at a time.  The runs of whole requests are the
  interleavings without overlap (`serial_run`), and in all the others, too,

    • `interleaved_books` — no count, no record and no request to Docker is lost or made
      twice;
    • `interleaved_audit` — the audit log only grows, by records of requests that came;
    • `interleaved_tables` — the limiters' tables stay within their limits;
    • `interleaved_lockout` — a lockout turns away who comes while it lasts;
    • `interleaved_closed` — where nobody can be authenticated everybody is turned away.
-/
import DockerProxy.Proxy.Between

namespace DockerProxy.Proxy

open DockerProxy.Lib DockerProxy.Path DockerProxy.Limiter DockerProxy.Rules

variable {deps : Externals}

/-! ## §1. Runs of whole requests. -/

/-- The requests of a run and their replies. -/
def SystemEvent.replied (st : ProxyState) : SystemEvent deps → Option (Visit deps × Reply)
  | .happens (.request req peer cert docker m) =>
      some (⟨req, peer, cert, docker, m⟩, (handle deps st req peer cert docker m).reply)
  | .happens (.reload _) | .cleanup _ _ | .tunnel _ _ => none

/-- The requests of a whole run, each with the reply it got. -/
def repliesOf (st : ProxyState) (events : List (SystemEvent deps)) : List (Visit deps × Reply) :=
  outputs SystemEvent.step SystemEvent.replied st events

/-- Whole requests, from any pool. -/
theorem serial_from (events : List (SystemEvent deps)) :
    ∀ st wire (programs : List (Visit deps × Prog Shared Reply)),
      ∃ schedule : List (PoolEvent (Visit deps) Outside),
        run (Pool.step Visit.steps Outside.effect) ⟨⟨st, wire⟩, programs⟩ schedule =
          ⟨⟨run SystemEvent.step st events, wire ++ sentToDocker deps st events⟩,
            programs ++ (repliesOf st events).map fun e => (e.1, Prog.ret e.2)⟩ := by
  induction events with
  | nil =>
      intro st wire programs
      refine ⟨[], ?_⟩
      show (⟨⟨st, wire⟩, programs⟩ : Pool Shared (Visit deps) Reply) =
        ⟨⟨st, wire ++ []⟩, programs ++ []⟩
      rw [List.append_nil, List.append_nil]
  | cons e events ih =>
      intro st wire programs
      cases e with
      | happens h =>
          cases h with
          | request req peer cert docker m =>
              -- its task is started, and then has all the turns
              let v : Visit deps := ⟨req, peer, cert, docker, m⟩
              obtain ⟨n, hn⟩ :=
                Pool.pool_serial Visit.steps Outside.effect v v.steps ⟨st, wire⟩ programs
              have halone : v.steps.alone ⟨st, wire⟩ =
                  (handle deps st req peer cert docker m).left wire :=
                alone_handleSteps deps req peer cert docker m ⟨st, wire⟩
              rw [halone] at hn
              obtain ⟨schedule, hschedule⟩ := ih (handle deps st req peer cert docker m).state
                (wire ++ (handle deps st req peer cert docker m).sent.toList)
                (programs ++ [(v, Prog.ret (handle deps st req peer cert docker m).reply)])
              refine ⟨.start v :: (List.replicate n (.turn programs.length) ++ schedule), ?_⟩
              rw [run_cons, run_append]
              have hstart : Pool.step Visit.steps Outside.effect ⟨⟨st, wire⟩, programs⟩ (.start v) =
                  ⟨⟨st, wire⟩, programs ++ [(v, v.steps)]⟩ := rfl
              rw [hstart, hn]
              refine hschedule.trans ?_
              rw [List.append_assoc, List.append_assoc]
              rfl
          | reload config =>
              obtain ⟨schedule, hschedule⟩ := ih { st with config := config } wire programs
              exact ⟨.outside (.reload config) :: schedule, hschedule⟩
      | cleanup rateNow authNow =>
          obtain ⟨schedule, hschedule⟩ := ih
            { st with
              rateLimiter := st.rateLimiter.cleanup rateNow
              authLimiter := st.authLimiter.cleanup authNow } wire programs
          exact ⟨.outside (.rateCleanup rateNow) :: .outside (.authCleanup authNow) :: schedule,
            hschedule⟩
      | tunnel client docker =>
          obtain ⟨schedule, hschedule⟩ :=
            ih (st.countResolve (resolveUpgrades client docker)) wire programs
          exact ⟨.outside (.tunnel client docker) :: schedule, hschedule⟩

/-- Whole requests, from a pool without tasks: all that is left are the replies. -/
theorem serial_interleave (st : ProxyState) (wire : List ProxiedRequest)
    (events : List (SystemEvent deps)) :
    ∃ schedule : List (PoolEvent (Visit deps) Outside), interleave ⟨st, wire⟩ schedule =
      ⟨⟨run SystemEvent.step st events, wire ++ sentToDocker deps st events⟩,
        (repliesOf st events).map fun e => (e.1, Prog.ret e.2)⟩ := by
  obtain ⟨schedule, hschedule⟩ := serial_from events st wire []
  exact ⟨schedule, hschedule⟩

/-- **One request after the other**: every run of whole requests is an interleaving of
their steps, with the same state, the same replies and the same requests to Docker. -/
theorem serial_run (st : ProxyState) (wire : List ProxiedRequest)
    (events : List (SystemEvent deps)) :
    ∃ schedule : List (PoolEvent (Visit deps) Outside),
      (interleave ⟨st, wire⟩ schedule).state =
        ⟨run SystemEvent.step st events, wire ++ sentToDocker deps st events⟩ ∧
      (interleave ⟨st, wire⟩ schedule).Ended (repliesOf st events) := by
  obtain ⟨schedule, hschedule⟩ := serial_interleave st wire events
  exact ⟨schedule, congrArg Pool.state hschedule, congrArg Pool.programs hschedule⟩

/-! ## §2. All tasks. -/

/-- The entries of what happens outside the requests. -/
def Outside.entries : Outside → List Entry
  | .tunnel client docker => if resolveUpgrades client docker = .ok () then [] else [.settled]
  | .reload _ | .rateCleanup _ | .authCleanup _ => []

theorem account_effect (s : Shared) (o : Outside) :
    (o.effect s).account = s.account + tallied none o.entries := by
  cases o with
  | reload config => exact (add_zero _).symm
  | rateCleanup now => exact (add_zero _).symm
  | authCleanup now => exact (add_zero _).symm
  | tunnel client docker =>
      show (s.on fun st => st.countResolve (resolveUpgrades client docker)).account =
        s.account + tallied none (if resolveUpgrades client docker = .ok () then [] else [.settled])
      cases resolveUpgrades client docker with
      | ok _ => exact (add_zero _).symm
      | failed => exact Prod.ext (add_zero _).symm (funext fun e => enters_counter .upstreamError s e)
      | timedOut => exact Prod.ext (add_zero _).symm (funext fun e => enters_counter .upstreamTimeout s e)

section

variable {C : ProxyConfig → Prop} {I : Shared → Prop} {s : Shared}
variable (events : List (PoolEvent (Visit deps) Outside))
variable {A : Visit deps → ProxyConfig → AuthOutcome → Prop} {statuses : Visit deps → List UInt16}

/-- **What every access keeps, every interleaving keeps**: the invariant holds, who is not
let in is turned away, and in the end the books are right. -/
theorem interleave_kept (h : ∀ v ∈ started events, Stable s.proxy C v.Makes I) (hI : I s)
    (hdoor : ∀ v ∈ started events, Door s.proxy C I v (A v) (statuses v))
    (hsend : ∀ v ∈ started events, ∀ config ctx bytes out, C config →
      Cleared s.proxy config v ctx bytes → Sends deps v.req v.docker ctx.path bytes out →
        ∀ s', I s' → I (s'.send out))
    (hout : ∀ o ∈ outsides events, ∀ s', I s' → I (o.effect s')) :
    I (interleave s events).state ∧
      (∀ v reply, (interleave s events).Returned v reply →
        TurnedAway v (statuses v) reply ∨
          ∃ config role identity, C config ∧ A v config (.allowed role identity)) ∧
      ∀ results, (interleave s events).Ended results →
        results.map Prod.fst = started events ∧
          (interleave s events).state.account = s.account +
            ((outsides events).map fun o => tallied none o.entries).sum +
            (results.map fun e =>
              tallied e.2.sent (e.1.entries s.proxy.audit.isSome e.2)).sum := by
  have hvisit := fun v hv => keeps_visit (h v hv) (hdoor v hv) (hsend v hv)
  have heffect : ∀ o ∈ outsides events, ∀ s', I s' →
      I (o.effect s') ∧ (o.effect s').account = s'.account + tallied none o.entries :=
    fun o ho s' hs' => ⟨hout o ho s' hs', account_effect s' o⟩
  obtain ⟨hI', g, horder, -⟩ := Pool.pool_inOrder Visit.steps Outside.effect hI hvisit heffect
  refine ⟨hI', fun v reply hreply => ?_, fun results hended => ?_⟩
  · obtain ⟨d, hkeeps⟩ := Pool.keeps_of_inOrder horder hreply
    obtain ⟨_, _, ⟨-, -, hturned, -⟩, -⟩ := hkeeps
    exact hturned
  · have hbooks : ∀ v ∈ started events, v.steps.Keeps I (LeavesAlone v.key) Shared.account
        (fun reply g => g = tallied reply.sent (v.entries s.proxy.audit.isSome reply)) 0 := by
      intro v hv
      refine Prog.keeps_mono (hvisit v hv) fun reply g hg => ?_
      obtain ⟨_, _, ⟨rfl, rfl, -⟩, rfl⟩ := hg
      rfl
    exact Pool.pool_account Visit.steps Outside.effect hI hbooks heffect hended

end

/-! ## §3. Invariants of runs. -/

/-- The configurations that are swapped in. -/
def reloaded (events : List (PoolEvent (Visit deps) Outside)) : List ProxyConfig :=
  (outsides events).filterMap fun
    | .reload config => some config
    | .rateCleanup _ | .authCleanup _ | .tunnel _ _ => none

theorem mem_reloaded {events : List (PoolEvent (Visit deps) Outside)} {config : ProxyConfig}
    (h : Outside.reload config ∈ outsides events) : config ∈ reloaded events :=
  List.mem_filterMap.mpr ⟨_, h, rfl⟩

/-- The configurations in force: the first, and those that are swapped in. -/
def inForce (s : Shared) (events : List (PoolEvent (Visit deps) Outside)) : List ProxyConfig :=
  s.proxy.config :: reloaded events

/-- **The invariant of a run**: what nobody changes, a configuration among `C`, and `J`. -/
structure Holds (st₀ : ProxyState) (C : ProxyConfig → Prop) (J : Shared → Prop) (s : Shared) :
    Prop where
  fixed : Fixed st₀ s.proxy
  config : C s.proxy.config
  kept : J s

section

variable {st₀ : ProxyState} {C : ProxyConfig → Prop} {E : AuditEvent → Prop}
variable {J : Shared → Prop} {s : Shared}

theorem Fixed.refl (st : ProxyState) : Fixed st st := ⟨rfl, rfl, rfl⟩

theorem stable_holds (hcount : ∀ s f, J s → J (s.on fun st => st.count f))
    (hrecord : ∀ s ev, E ev → J s → J (s.on fun st => st.sendAudit ev))
    (hcheck : ∀ s (checks : List LimitCheck), J s →
      J (s.on fun st => { st with rateLimiter := run afterCheck st.rateLimiter checks })) :
    Stable st₀ C E (Holds st₀ C J) where
  fixed := fun _ hs => hs.fixed
  config := fun _ hs => hs.config
  count := fun _ f ⟨hfixed, hconfig, hkept⟩ =>
    ⟨⟨hfixed.envSecret, hfixed.metricsPath, hfixed.audit⟩, hconfig, hcount _ f hkept⟩
  record := fun _ ev hev ⟨hfixed, hconfig, hkept⟩ =>
    ⟨⟨hfixed.envSecret, hfixed.metricsPath, Option.isSome_map.trans hfixed.audit⟩, hconfig,
      hrecord _ ev hev hkept⟩
  check := fun _ checks ⟨hfixed, hconfig, hkept⟩ =>
    ⟨⟨hfixed.envSecret, hfixed.metricsPath, hfixed.audit⟩, hconfig, hcheck _ checks hkept⟩

/-- The accesses keep the configuration, so they keep it among fewer. -/
theorem Stable.narrow {C' : ProxyConfig → Prop} {I : Shared → Prop} (h : Stable st₀ C E I) :
    Stable st₀ C' E fun s => I s ∧ C' s.proxy.config where
  fixed := fun s hs => h.fixed s hs.1
  config := fun _ hs => hs.2
  count := fun s f hs => ⟨h.count s f hs.1, hs.2⟩
  record := fun s ev hev hs => ⟨h.record s ev hev hs.1, hs.2⟩
  check := fun s checks hs => ⟨h.check s checks hs.1, hs.2⟩

/-- The authentication limiter moves on. -/
theorem Holds.auth (h : Holds st₀ C J s) {al : AuthLimiter}
    (hJ : J (s.on fun st => { st with authLimiter := al })) :
    Holds st₀ C J (s.on fun st => { st with authLimiter := al }) :=
  ⟨⟨h.fixed.envSecret, h.fixed.metricsPath, h.fixed.audit⟩, h.config, hJ⟩

theorem Holds.send (h : Holds st₀ C J s) {out : ProxiedRequest} (hJ : J (s.send out)) :
    Holds st₀ C J (s.send out) := ⟨h.fixed, h.config, hJ⟩

/-- Only a reload changes the configuration. -/
theorem config_effect {o : Outside} (h : C s.proxy.config)
    (hreload : ∀ config, o = .reload config → C config) : C (o.effect s).proxy.config := by
  cases o with
  | reload config => exact hreload config rfl
  | rateCleanup now => exact h
  | authCleanup now => exact h
  | tunnel client docker =>
      show C (s.proxy.countResolve (resolveUpgrades client docker)).config
      cases resolveUpgrades client docker with
      | _ => exact h

theorem fixed_effect (h : Fixed st₀ s.proxy) (o : Outside) : Fixed st₀ (o.effect s).proxy := by
  cases o with
  | reload config => exact ⟨h.envSecret, h.metricsPath, h.audit⟩
  | rateCleanup now => exact ⟨h.envSecret, h.metricsPath, h.audit⟩
  | authCleanup now => exact ⟨h.envSecret, h.metricsPath, h.audit⟩
  | tunnel client docker =>
      show Fixed st₀ (s.proxy.countResolve (resolveUpgrades client docker))
      cases resolveUpgrades client docker with
      | _ => exact ⟨h.envSecret, h.metricsPath, h.audit⟩

theorem Holds.effect (h : Holds st₀ C J s) {o : Outside}
    (hreload : ∀ config, o = .reload config → C config) (hJ : J (o.effect s)) :
    Holds st₀ C J (o.effect s) :=
  ⟨fixed_effect h.fixed o, config_effect h.config hreload, hJ⟩

/-- What happens outside sends nothing. -/
theorem wire_effect (s : Shared) (o : Outside) : (o.effect s).wire = s.wire := by
  cases o with
  | _ => rfl

end

/-! ## §4. The books. -/

theorem sum_tallied {α : Type} (sent : α → Option ProxiedRequest) (entries : α → List Entry)
    (xs : List α) :
    (xs.map fun x => tallied (sent x) (entries x)).sum =
      (((xs.filterMap sent : List ProxiedRequest) : Multiset ProxiedRequest),
        fun e => UInt64.ofNat ((xs.flatMap entries).count e)) := by
  induction xs with
  | nil => rfl
  | cons x xs ih =>
      rw [List.map_cons, List.sum_cons, ih]
      refine Prod.ext ?_ (funext fun e => ?_)
      · show ((sent x).toList : Multiset ProxiedRequest) +
          ((xs.filterMap sent : List ProxiedRequest) : Multiset ProxiedRequest) = _
        rw [Multiset.coe_add]
        cases hsent : sent x with
        | none => rw [List.filterMap_cons_none hsent]; rfl
        | some out => rw [List.filterMap_cons_some hsent]; rfl
      · show UInt64.ofNat ((entries x).count e) + UInt64.ofNat ((xs.flatMap entries).count e) =
          UInt64.ofNat (((x :: xs).flatMap entries).count e)
        rw [List.flatMap_cons, List.count_append, UInt64.ofNat_add]

/-- **No update is lost, and none is made twice**: when all tasks have ended, whatever the
order of their steps, Docker was sent what their replies say, and every counter and the
audit log have grown by what the replies and the ended tunnels say. -/
theorem interleaved_books {s : Shared} {events : List (PoolEvent (Visit deps) Outside)}
    {results : List (Visit deps × Reply)} (hended : (interleave s events).Ended results) :
    results.map Prod.fst = started events ∧
      (interleave s events).state.wire.Perm (s.wire ++ results.filterMap fun e => e.2.sent) ∧
      ∀ e, (interleave s events).state.entry e = s.entry e +
        UInt64.ofNat (((outsides events).flatMap Outside.entries).count e) +
        UInt64.ofNat ((results.flatMap fun r => r.1.entries s.proxy.audit.isSome r.2).count e) := by
  have hstable : ∀ E, Stable s.proxy (fun _ => True) E
      (Holds s.proxy (fun _ => True) fun _ => True) :=
    fun _ => stable_holds (fun _ _ h => h) (fun _ _ _ h => h) (fun _ _ h => h)
  obtain ⟨-, -, hbooks⟩ := interleave_kept events (fun v _ => hstable v.Makes)
    ⟨.refl _, trivial, trivial⟩
    (fun v _ => door_open (hstable v.Makes) (fun _ hs => hs.auth trivial)
      fun _ hs => hs.auth trivial)
    (fun _ _ _ _ _ _ _ _ _ _ hs => hs.send trivial)
    (fun _ _ _ hs => hs.effect (fun _ _ => trivial) trivial)
  obtain ⟨hlabels, hsum⟩ := hbooks results hended
  -- what happens outside the requests sends nothing
  have hnone : ((outsides events).filterMap fun _ => (none : Option ProxiedRequest)) = [] := by
    simp
  rw [sum_tallied (fun _ => none) Outside.entries,
    sum_tallied (fun r : Visit deps × Reply => r.2.sent)
      fun r => r.1.entries s.proxy.audit.isSome r.2, hnone] at hsum
  refine ⟨hlabels, ?_, fun e => congrFun (congrArg Prod.snd hsum) e⟩
  have hwire : ((interleave s events).state.wire : Multiset ProxiedRequest) =
      (s.wire : Multiset ProxiedRequest) + 0 +
        ((results.filterMap fun r => r.2.sent : List ProxiedRequest) :
          Multiset ProxiedRequest) := congrArg Prod.fst hsum
  rw [add_zero, Multiset.coe_add] at hwire
  exact Multiset.coe_eq_coe.mp hwire

/-- A visitor who inspects a container, and shows no token. -/
def inspectionVisit : Visit Externals.sample :=
  ⟨inspectRequest [], (), none, inspectDocker, momentZero⟩

/-- One inspection has come, and has read the configuration. -/
def beforeReload : List (PoolEvent (Visit Externals.sample) Outside) :=
  [.start inspectionVisit, .turn 0, .turn 0]

/-- Then a token is asked for; another inspection comes, and they go on in turn. -/
def afterReload : List (PoolEvent (Visit Externals.sample) Outside) :=
  [.outside (.reload oneTokenState.config), .start inspectionVisit] ++
    (List.replicate 20 [.turn 1, .turn 0]).flatten

/-- The books of the two: the first is served, the second turned away. -/
theorem interleaved_books_inspections :
    ∃ results,
      (interleave ⟨redactingState, []⟩ (beforeReload ++ afterReload)).Ended results ∧
      results.map (fun e => e.2.response.status) = [200, 401] ∧
      results.map Prod.fst = started (beforeReload ++ afterReload) ∧
      (interleave ⟨redactingState, []⟩ (beforeReload ++ afterReload)).state.wire.Perm
        ([] ++ results.filterMap fun e => e.2.sent) ∧
      ∀ e, (interleave ⟨redactingState, []⟩ (beforeReload ++ afterReload)).state.entry e =
        Shared.entry ⟨redactingState, []⟩ e +
        UInt64.ofNat (((outsides (beforeReload ++ afterReload)).flatMap Outside.entries).count e) +
        UInt64.ofNat ((results.flatMap fun r =>
          r.1.entries redactingState.audit.isSome r.2).count e) := by
  have hended := Pool.ended_results
    (t := interleave ⟨redactingState, []⟩ (beforeReload ++ afterReload)) (by decide +kernel)
  have hstatuses : (interleave ⟨redactingState, []⟩ (beforeReload ++ afterReload)).results.map
      (fun e => e.2.response.status) = [200, 401] := by decide +kernel
  exact ⟨_, hended, hstatuses, interleaved_books hended⟩

/-! ## §5. The audit log. -/

/-- What happens outside the requests is not recorded. -/
theorem audit_effect (s : Shared) (o : Outside) : (o.effect s).proxy.audit = s.proxy.audit := by
  cases o with
  | reload config => rfl
  | rateCleanup now => rfl
  | authCleanup now => rfl
  | tunnel client docker =>
      show (s.proxy.countResolve (resolveUpgrades client docker)).audit = s.proxy.audit
      cases resolveUpgrades client docker with
      | _ => rfl

/-- **The log since `s`**: it goes on from what it was, and every new record is one of these
visitors'. -/
def Recorded (s : Shared) (visits : List (Visit deps)) (s' : Shared) : Prop :=
  ∃ records, s'.proxy.audit = (s.proxy.audit.map fun events => events ++ records) ∧
    ∀ ev ∈ records, ∃ v ∈ visits, v.Makes ev

theorem recorded_refl (s : Shared) (visits : List (Visit deps)) : Recorded s visits s := by
  refine ⟨[], ?_, fun ev hev => absurd hev List.not_mem_nil⟩
  cases s.proxy.audit with
  | none => rfl
  | some events => exact congrArg some (List.append_nil events).symm

theorem recorded_sendAudit {s s' : Shared} {visits : List (Visit deps)}
    (h : Recorded s visits s') {v : Visit deps} (hv : v ∈ visits) {ev : AuditEvent}
    (hev : v.Makes ev) : Recorded s visits (s'.on fun st => st.sendAudit ev) := by
  obtain ⟨records, haudit, hrecords⟩ := h
  refine ⟨records ++ [ev], ?_, fun ev' hmem => ?_⟩
  · show (s'.proxy.audit.map fun events => events ++ [ev]) = _
    rw [haudit, Option.map_map]
    refine congrArg (s.proxy.audit.map ·) (funext fun events => ?_)
    exact List.append_assoc events records [ev]
  · obtain hmem | hmem := List.mem_append.mp hmem
    · exact hrecords ev' hmem
    · obtain rfl := List.mem_singleton.mp hmem
      exact ⟨v, hv, hev⟩

/-- **The audit log in every interleaving**: no record is changed or dropped, and every new
one is that of a request that came, with its time, address, method, path and client. -/
theorem interleaved_audit (s : Shared) (events : List (PoolEvent (Visit deps) Outside)) :
    ∃ records,
      (interleave s events).state.proxy.audit =
        (s.proxy.audit.map fun past => past ++ records) ∧
      ∀ ev ∈ records, ∃ v ∈ started events, v.Makes ev := by
  have hstable : ∀ v ∈ started events, Stable s.proxy (fun _ => True) v.Makes
      (Holds s.proxy (fun _ => True) (Recorded s (started events))) := fun v hv =>
    stable_holds (fun _ _ h => h) (fun _ _ hev h => recorded_sendAudit h hv hev) (fun _ _ h => h)
  obtain ⟨hholds, -, -⟩ := interleave_kept events hstable
    ⟨.refl _, trivial, recorded_refl s (started events)⟩
    (fun v hv => door_open (hstable v hv) (fun _ hs => hs.auth hs.kept) fun _ hs =>
      hs.auth hs.kept)
    (fun _ _ _ _ _ _ _ _ _ _ hs => hs.send hs.kept)
    (fun o _ _ hs => hs.effect (fun _ _ => trivial) (by
      unfold Recorded
      rw [audit_effect]
      exact hs.kept))
  exact hholds.kept

/-! ## §6. The tables. -/

theorem tablesBounded_effect {s : Shared} (h : TablesBounded s.proxy) (o : Outside) :
    TablesBounded (o.effect s).proxy := by
  obtain ⟨hrate, hauth⟩ := h
  cases o with
  | reload config => exact ⟨hrate, hauth⟩
  | rateCleanup now => exact ⟨Nat.le_trans Std.ExtTreeMap.size_filter_le_size hrate, hauth⟩
  | authCleanup now => exact ⟨hrate, Nat.le_trans Std.ExtTreeMap.size_filter_le_size hauth⟩
  | tunnel client docker =>
      show TablesBounded (s.proxy.countResolve (resolveUpgrades client docker))
      cases resolveUpgrades client docker with
      | _ => exact ⟨hrate, hauth⟩

/-- **The tables never outgrow their limits**, in any interleaving. -/
theorem interleaved_tables {s : Shared} (hbounded : TablesBounded s.proxy)
    (events : List (PoolEvent (Visit deps) Outside)) :
    TablesBounded (interleave s events).state.proxy := by
  have hcheck : ∀ (checks : List LimitCheck) (rl : RateLimiter),
      rl.buckets.size ≤ maxRateLimitBuckets →
        (run afterCheck rl checks).buckets.size ≤ maxRateLimitBuckets :=
    run_invariant afterCheck fun rl c hrl => size_check hrl _ _ _ _ _
  have hstable : ∀ E, Stable s.proxy (fun _ => True) E
      (Holds s.proxy (fun _ => True) fun s' => TablesBounded s'.proxy) :=
    fun _ => stable_holds (fun _ _ h => ⟨h.rate, h.auth⟩) (fun _ _ _ h => ⟨h.rate, h.auth⟩)
      (fun _ checks h => ⟨hcheck checks _ h.rate, h.auth⟩)
  obtain ⟨hholds, -, -⟩ := interleave_kept events (fun v _ => hstable v.Makes)
    ⟨.refl _, trivial, hbounded⟩
    (fun v _ => door_open (hstable v.Makes)
      (fun _ hs => hs.auth ⟨hs.kept.rate, size_recordFailure hs.kept.auth _ _ _ _ _⟩)
      fun _ hs => hs.auth
        ⟨hs.kept.rate, Nat.le_trans Std.ExtTreeMap.size_erase_le hs.kept.auth⟩)
    (fun _ _ _ _ _ _ _ _ _ _ hs => hs.send hs.kept)
    (fun o _ _ hs => hs.effect (fun _ _ => trivial) (tablesBounded_effect hs.kept o))
  exact hholds.kept

/-- A visitor who inspects a container, and shows the token. -/
def tokenVisit : Visit Externals.sample :=
  ⟨inspectRequest [("authorization", .ofStr "Bearer s3cret")], (), none, inspectDocker, momentZero⟩

/-- Two such inspections, step by step in turn, with cleanups in between. -/
def twoVisits : List (PoolEvent (Visit Externals.sample) Outside) :=
  [.start tokenVisit, .turn 0, .start tokenVisit, .outside (.rateCleanup 1)] ++
    (List.replicate 20 [.turn 1, .turn 0]).flatten ++ [.outside (.authCleanup 1)]

/-- A fresh proxy stays within the limits. -/
theorem interleaved_tables_fresh :
    TablesBounded (interleave ⟨oneTokenState, []⟩ twoVisits).state.proxy :=
  interleaved_tables ⟨Nat.zero_le _, Nat.zero_le _⟩ twoVisits

/-! ## §7. Addresses that are locked out. -/

section

variable {st₀ : ProxyState} {E : AuditEvent → Prop} {key : String} {until_ : Nat}

/-- The invariant while the lockout lasts. -/
def Locked (st₀ : ProxyState) (key : String) (until_ : Nat) : Shared → Prop :=
  Holds st₀ (fun _ => True) fun s => s.proxy.authLimiter.BlockedUntil key until_

end

/-- **Such a proxy is closed in every interleaving**: as long as every configuration in
force has an `auth` section of a type other than `none` and `mtls` with no token or secret
that is not empty, or none where the secret of the environment is empty, everybody is
turned away, and Docker is sent nothing. -/
theorem interleaved_closed {s : Shared} {events : List (PoolEvent (Visit deps) Outside)}
    (hunconfigured : ∀ config ∈ inForce s events,
      isAuthStrictlyConfigured config s.proxy.envSecret = false) :
    (interleave s events).state.wire = s.wire ∧
      ∀ v reply, (interleave s events).Returned v reply → TurnedAway v [401, 429] reply := by
  let C : ProxyConfig → Prop := fun config =>
    isAuthStrictlyConfigured config s.proxy.envSecret = false
  have hstable : ∀ E, Stable s.proxy C E (Holds s.proxy C fun s' => s'.wire = s.wire) :=
    fun _ => stable_holds (fun _ _ h => h) (fun _ _ _ h => h) (fun _ _ h => h)
  have hclosed : ∀ (v : Visit deps) config role identity, C config →
      (authenticate deps (s.proxy.under config) config v.req.headers v.peer v.cert v.m).1 ≠
        .allowed role identity := by
    intro v config role identity hconfig hallowed
    have hunder : ClosedState s.proxy.envSecret (s.proxy.under config) := ⟨rfl, hconfig⟩
    obtain ⟨status, message, hdenied, -⟩ :=
      authenticate_closed hunder v.req.headers v.peer v.cert v.m
    exact absurd (hallowed.symm.trans hdenied) (by simp)
  have hfirst : C s.proxy.config := hunconfigured _ List.mem_cons_self
  obtain ⟨hholds, hreturned, -⟩ := interleave_kept events
    (fun v _ => hstable v.Makes) ⟨.refl _, hfirst, rfl⟩
    (fun v _ => door_open (hstable v.Makes) (fun _ hs => hs.auth hs.kept)
      fun _ hs => hs.auth hs.kept)
    (fun v _ config ctx bytes out hconfig hcleared => by
      obtain ⟨identity, hallowed⟩ := hcleared.caller
      exact absurd hallowed (hclosed v config _ _ hconfig))
    (fun o ho _ hs => hs.effect
      (fun config hreload => hunconfigured config
        (List.mem_cons_of_mem _ (mem_reloaded (hreload ▸ ho))))
      ((wire_effect _ o).trans hs.kept))
  refine ⟨hholds.kept, fun v reply hreply => ?_⟩
  obtain hturned | ⟨config, role, identity, hconfig, hlocked | hallowed⟩ := hreturned v reply hreply
  · exact hturned
  · exact absurd hlocked (by simp)
  · exact absurd hallowed.symm (hclosed v config role identity hconfig)

/-- The proxy without its token. -/
theorem interleaved_closed_visits :
    (interleave ⟨{ oneTokenState with config := {} }, []⟩ twoVisits).state.wire = [] ∧
      ∀ v reply, (interleave ⟨{ oneTokenState with config := {} }, []⟩ twoVisits).Returned v reply →
        TurnedAway v [401, 429] reply := by
  have hreloaded : reloaded twoVisits = [] := rfl
  refine interleaved_closed fun config hconfig => ?_
  unfold inForce at hconfig
  rw [hreloaded] at hconfig
  rw [List.mem_singleton.mp hconfig]
  decide

end DockerProxy.Proxy
