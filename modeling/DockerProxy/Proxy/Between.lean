/-
  DockerProxy.Proxy.Between — authentication and rules, with others in between.

  The state may change between any two steps of a request.  What its door and its rules
  come to is then said without the state:

    • `door_open` — a lockout, or what the configuration says of the caller;
    • `door_locked` — nothing but the lockout, while it lasts;
    • `allow_of_canDecide` — what the rules let pass, the rules that are no rate limits let
      pass in any state of the limiter.
-/
import DockerProxy.Proxy.Tasks

namespace DockerProxy.Proxy

open DockerProxy.Lib DockerProxy.Path DockerProxy.Limiter DockerProxy.Rules

variable {deps : Externals}

/-! ## §1. The door. -/

/-- Authentication denies with these. -/
theorem status_of_denied {st : ProxyState} {config : ProxyConfig} {headers : HeaderMap}
    {peer : deps.Ip} {cert : Option CertIdentity} {m : Moment} {status : UInt16} {message : String}
    (h : (authenticate deps st config headers peer cert m).1 = .denied status message) :
    status ∈ [401, 429] := by
  have hcode : ∀ {code : UInt16} {text : String},
      AuthOutcome.denied code text = .denied status message → code ∈ [401, 429] →
        status ∈ [401, 429] := by
    intro code text hcode hmem
    obtain ⟨rfl, -⟩ := AuthOutcome.denied.inj hcode
    exact hmem
  unfold authenticate at h
  dsimp only at h
  split at h
  · exact hcode h (by decide)
  split at h
  · exact absurd h (by simp)
  split at h
  · split at h
    · exact hcode h (by decide)
    · split at h
      · exact absurd h (by simp)
      · exact hcode h (by decide)
  split at h
  · exact hcode h (by decide)
  split at h
  · split at h
    · exact absurd h (by simp)
    · exact hcode h (by decide)
  · exact hcode h (by decide)
  · exact hcode h (by decide)

section

variable {st₀ : ProxyState} {C : ProxyConfig → Prop} {E : AuditEvent → Prop}
variable {I : Shared → Prop} {v : Visit deps}

theorem goes_recordAuthFailureSteps (h : Stable st₀ C E I) {authKey : String} {m : Moment}
    (hfail : ∀ s, I s → I (s.on fun st => { st with authLimiter :=
      (st.authLimiter.recordFailure m.recordedAt authKey authFailMax authFailWindow
        authFailLockout).2 })) :
    Goes I authKey (recordAuthFailureSteps authKey m) none [] fun _ sent es =>
      sent = none ∧ es = [] := by
  unfold recordAuthFailureSteps
  refine goes_count h (enters_nothing fun _ => rfl) ?_
  refine goes_atomically (fun s hs => hfail s hs) (fun s => ?_) (fun s => rfl) (fun s => ?_)
  · exact ⟨rfl, fun other hother => AuthLimiter.entry_recordFailure_of_ne hother.symm _ _ _ _⟩
  dsimp only
  split
  · exact goes_count (k := fun _ => pure ()) h
      (enters_nothing fun _ => rfl) (goes_pure ⟨rfl, rfl⟩)
  · exact goes_pure ⟨rfl, rfl⟩

/-- **The door, where nothing else is known**: a lockout, or what the configuration says of
the caller. -/
theorem door_open (h : Stable st₀ C E I)
    (hfail : ∀ s, I s → I (s.on fun st => { st with authLimiter :=
      (st.authLimiter.recordFailure v.m.recordedAt v.key authFailMax authFailWindow
        authFailLockout).2 }))
    (hsuccess : ∀ s, I s → I (s.on fun st => recordAuthSuccess st v.key)) :
    Door st₀ C I v
      (fun config outcome => outcome = .denied 429 "Too many authentication failures" ∨
        outcome = (authenticate deps (st₀.under config) config v.req.headers v.peer v.cert v.m).1)
      [401, 429] where
  goes := by
    intro config _
    have hfailed : ∀ {k : Unit → Prog Shared AuthOutcome}
        {X : AuthOutcome → Option ProxiedRequest → List Entry → Prop},
          Goes I v.key (k ()) none [] X →
            Goes I v.key (recordAuthFailureSteps v.key v.m >>= k) none [] X := by
      intro k X hk
      refine goes_after (goes_recordAuthFailureSteps h hfail) fun _ _ _ hX => ⟨hX.1, ?_⟩
      obtain ⟨-, rfl⟩ := hX
      exact hk
    have hsucceeded : ∀ {k : Unit → Prog Shared AuthOutcome}
        {X : AuthOutcome → Option ProxiedRequest → List Entry → Prop},
          Goes I v.key (k ()) none [] X →
            Goes I v.key (recordAuthSuccessSteps v.key >>= k) none [] X := by
      intro k X hk
      refine goes_atomically hsuccess (fun s => ⟨rfl, fun other hother => ?_⟩) (fun s => rfl)
        fun _ => hk
      exact (AuthLimiter.entry_recordSuccess _ _ _).trans (if_neg hother.symm)
    have hsecret : (st₀.under config).envSecret = st₀.envSecret := rfl
    have hfree : (st₀.under config).authLimiter.isBlocked v.m.checkedAt v.key = false := by
      rw [AuthLimiter.isBlocked_eq]
      show (AuthLimiter.new.entry _).any _ = false
      rw [AuthLimiter.entry_new]
      rfl
    have hkey : deps.ipToString v.peer = v.key := rfl
    unfold authenticateSteps authenticate
    rw [hkey]
    refine goes_look fun s hs => ?_
    simp only [hfree, hsecret, Bool.false_eq_true, if_false]
    -- only the lockout depends on the state in between; all else is the configuration's
    cases s.proxy.authLimiter.isBlocked v.m.checkedAt v.key with
    | true => exact goes_pure ⟨Or.inl rfl, rfl, rfl⟩
    | false =>
        simp only [Bool.false_eq_true, if_false]
        cases authType config == some "none" with
        | true => exact goes_pure ⟨Or.inr rfl, rfl, rfl⟩
        | false =>
            simp only [Bool.false_eq_true, if_false]
            cases authType config == some "mtls" with
            | true =>
                simp only [if_true]
                cases v.cert with
                | none => exact goes_pure ⟨Or.inr rfl, rfl, rfl⟩
                | some id =>
                    dsimp only
                    cases resolveMtlsRole id (config.auth.bind fun a => a.mtls) with
                    | some role => exact hsucceeded (goes_pure ⟨Or.inr rfl, rfl, rfl⟩)
                    | none => exact hfailed (goes_pure ⟨Or.inr rfl, rfl, rfl⟩)
            | false =>
                simp only [Bool.false_eq_true, if_false]
                refine goes_look fun s' hs' => ?_
                rw [(h.fixed s' hs').envSecret]
                cases isAuthStrictlyConfigured config st₀.envSecret with
                | false => exact goes_pure ⟨Or.inr rfl, rfl, rfl⟩
                | true =>
                    simp only [Bool.not_true, Bool.false_eq_true, if_false]
                    cases extractBearerToken v.req.headers with
                    | error e => exact hfailed (goes_pure ⟨Or.inr rfl, rfl, rfl⟩)
                    | ok token =>
                        cases token with
                        | none => exact hfailed (goes_pure ⟨Or.inr rfl, rfl, rfl⟩)
                        | some token =>
                            dsimp only
                            cases resolveTokenRole config st₀.envSecret token with
                            | some role => exact hsucceeded (goes_pure ⟨Or.inr rfl, rfl, rfl⟩)
                            | none => exact hfailed (goes_pure ⟨Or.inr rfl, rfl, rfl⟩)
  denied := by
    intro config status message hdenied
    obtain hlocked | hverdict := hdenied
    · obtain ⟨rfl, -⟩ := AuthOutcome.denied.inj hlocked
      exact List.mem_cons_of_mem _ List.mem_cons_self
    · exact status_of_denied hverdict.symm
  known := by
    intro status hstatus
    simpa using hstatus
  allowed := by
    intro config role identity hallowed
    obtain hlocked | hverdict := hallowed
    · exact absurd hlocked (by simp)
    · exact hverdict.symm

end

/-! ## §2. The rules without the limits. -/

/-- The rules that are no rate limits. -/
def unlimited (rules : List Rule) : List Rule :=
  rules.filter fun rule => rule.action != "rate_limit"

/-- A rule that is no rate limit does the same in any state of the limiter. -/
theorem evaluateRule_unlimited {ctx : EvaluationContext} {rule : Rule}
    (h : rule.action ≠ "rate_limit") (rc rc' : RateClock) :
    evaluateRule deps ctx rule rc' = ((evaluateRule deps ctx rule rc).1, rc') := by
  have hcharged : charged deps ctx rule = none := by
    unfold charged
    rw [if_neg]
    simp [h]
  rw [evaluateRule_eq, evaluateRule_eq]
  unfold decides refuses charge
  rw [hcharged]
  rfl

/-- A rate limit only decides to deny. -/
theorem denies_of_rateLimit {ctx : EvaluationContext} {rule : Rule} {rc : RateClock}
    {d : RuleDecision} (haction : rule.action = "rate_limit")
    (h : (evaluateRule deps ctx rule rc).1 = some d) : d.result ≠ .allow := by
  rw [evaluateRule_eq] at h
  dsimp only at h
  cases hdecides : decides deps ctx rule rc with
  | false =>
      rw [hdecides] at h
      exact absurd h (by simp)
  | true =>
      rw [hdecides, if_pos rfl] at h
      obtain rfl := Option.some.inj h
      -- in a dry run a rate limit stops nothing
      have hdry : isDryRun rule = false := by
        by_contra hdry
        rw [Bool.not_eq_false] at hdry
        simp [decides, refuses, charged, haction, hdry] at hdecides
      unfold decision
      rw [if_neg]
      · simp
      · simp [haction, hdry]

/-- **What the rules let pass, they let pass without the limits**, in any state. -/
theorem allow_of_canDecide {ctx : EvaluationContext} {rules : List Rule} {decision : RuleDecision}
    (h : CanDecide deps ctx rules decision) (hallow : decision.result = .allow) (rc : RateClock) :
    (evaluateRequestDetailed deps (unlimited rules) ctx rc).1.result = .allow := by
  unfold evaluateRequestDetailed
  -- on how the rules came to it: a rate limit on the way was passed, and cannot have stopped
  induction h with
  | allow => rfl
  | stop hstop =>
      rename_i rule rules rc' decision
      by_cases haction : rule.action = "rate_limit"
      · exact absurd hallow (denies_of_rateLimit haction hstop)
      · unfold unlimited
        rw [List.filter_cons_of_pos (by simpa using haction)]
        have hsame : evaluateRule deps ctx rule rc = (some decision, rc) := by
          rw [evaluateRule_unlimited haction rc' rc, hstop]
        rw [firstStop_cons_of_stop _ (congrArg Prod.fst hsame)]
        exact hallow
  | pass hpass hrest ih =>
      rename_i rule rules rc' decision
      have ih := ih hallow
      by_cases haction : rule.action = "rate_limit"
      · unfold unlimited at ih ⊢
        rw [List.filter_cons_of_neg (by simpa using haction)]
        exact ih
      · unfold unlimited at ih ⊢
        rw [List.filter_cons_of_pos (by simpa using haction)]
        have hsame : evaluateRule deps ctx rule rc = (none, rc) := by
          rw [evaluateRule_unlimited haction rc' rc, hpass]
        rw [firstStop_cons_of_pass _ (congrArg Prod.fst hsame), hsame]
        exact ih

end DockerProxy.Proxy
