/-
  DockerProxy.Rules.Isolation — whose requests a rate limit counts.

  The limiter's key of a rule and a client is the rule's name, a colon and the
  client's address.  A check touches the bucket of its key only, so the checks of
  a rule for a client go as on a bucket of their own, as long as no other rule's
  key for some client is the same text (`checks_isolated`).  Two rules of one name
  share their keys; names with colons can, for IPv6 clients.
-/
import DockerProxy.Config.Load
import DockerProxy.Rules.Decision

namespace DockerProxy.Rules

open DockerProxy.Lib DockerProxy.Limiter DockerProxy.Config

/-! ## §1. The limiter's checks in a run. -/

/-- One check of the limiter, made for a rule and a client. -/
structure LimitCheck where
  /-- The rule's position in the list. -/
  rule : Nat
  clientIp : String
  key : String
  config : RateLimitConfig
  /-- The clock reading of the check. -/
  time : Nat
  allowed : Bool
  deriving DecidableEq

/-- The check, made on a limiter. -/
def LimitCheck.run (c : LimitCheck) (rl : RateLimiter) : Bool × RateLimiter :=
  rl.check c.time c.key c.config.requests.toNat c.config.period.toNat c.config.penalty.toNat

/-- The limiter after the check. -/
def afterCheck (rl : RateLimiter) (c : LimitCheck) : RateLimiter := (c.run rl).2

/-- The recorded result is that of the check. -/
def RightResult (rl : RateLimiter) (c : LimitCheck) : Prop := (c.run rl).1 = c.allowed

/-- There is room for a new bucket. -/
def Room (rl : RateLimiter) (_ : LimitCheck) : Prop := rl.buckets.size < maxRateLimitBuckets

instance (rl : RateLimiter) (c : LimitCheck) : Decidable (Room rl c) :=
  inferInstanceAs (Decidable (rl.buckets.size < maxRateLimitBuckets))

section

variable (deps : Externals)

/-- The check that a rule makes for the caller. -/
def ruleCheck (ctx : EvaluationContext) (k : Nat) (rule : Rule) (rc : RateClock) :
    Option LimitCheck :=
  (charged deps ctx rule).map fun c =>
    { rule := k, clientIp := ctx.clientIp, key := c.1, config := c.2, time := rc.readings 0
      allowed := (rc.check c.1 c.2).1 }

/-- The checks of one evaluation: those of the rules up to the one that decides.  `k`
is the position of the first rule. -/
def evaluationChecks (ctx : EvaluationContext) : Nat → List Rule → RateClock → List LimitCheck
  | _, [], _ => []
  | k, rule :: rules, rc =>
      (ruleCheck deps ctx k rule rc).toList ++
        if decides deps ctx rule rc then []
        else evaluationChecks ctx (k + 1) rules (charge deps ctx rule rc)

/-- **The checks of a run**: evaluations one after another, each with the clock
readings of its checks, on the limiter that the last one left. -/
def runChecks (rules : List Rule) :
    RateLimiter → List (EvaluationContext × (Nat → Nat)) → List LimitCheck
  | _, [] => []
  | rl, (ctx, readings) :: rest =>
      evaluationChecks deps ctx 0 rules ⟨rl, readings⟩ ++
        runChecks rules (evaluateRequestDetailed deps rules ctx ⟨rl, readings⟩).2.limiter rest

/-! ## §2. The checks are those of the evaluations. -/

/-- A charge is one check of the limiter. -/
theorem check_limiter (rc : RateClock) (key : String) (config : RateLimitConfig) :
    (rc.check key config).1 = (rc.limiter.check (rc.readings 0) key config.requests.toNat
        config.period.toNat config.penalty.toNat).1 ∧
      (rc.check key config).2.limiter = (rc.limiter.check (rc.readings 0) key
        config.requests.toNat config.period.toNat config.penalty.toNat).2 := by
  unfold RateClock.check
  by_cases hzero : config.requests.toNat = 0
  · rw [if_pos hzero, hzero]
    unfold RateLimiter.check
    rw [if_pos rfl]
    exact ⟨rfl, rfl⟩
  · rw [if_neg hzero]
    exact ⟨rfl, rfl⟩

/-- The checks of one rule lead to the limiter that it leaves. -/
theorem run_ruleCheck (ctx : EvaluationContext) (k : Nat) (rule : Rule) (rc : RateClock) :
    Along afterCheck RightResult rc.limiter (ruleCheck deps ctx k rule rc).toList ∧
      run afterCheck rc.limiter (ruleCheck deps ctx k rule rc).toList =
        (charge deps ctx rule rc).limiter := by
  unfold ruleCheck charge
  cases charged deps ctx rule with
  | none => exact ⟨trivial, rfl⟩
  | some c =>
      obtain ⟨hresult, hlimiter⟩ := check_limiter rc c.1 c.2
      exact ⟨⟨hresult.symm, trivial⟩, hlimiter.symm⟩

/-- **The checks of an evaluation** have the results they record, and lead to the
limiter that the evaluation leaves. -/
theorem run_evaluationChecks (ctx : EvaluationContext) (rules : List Rule) :
    ∀ (k : Nat) (rc : RateClock),
      Along afterCheck RightResult rc.limiter (evaluationChecks deps ctx k rules rc) ∧
        run afterCheck rc.limiter (evaluationChecks deps ctx k rules rc) =
          (evaluateRequestDetailed deps rules ctx rc).2.limiter := by
  induction rules with
  | nil => intro k rc; exact ⟨trivial, rfl⟩
  | cons rule rules ih =>
      intro k rc
      obtain ⟨hright, hrun⟩ := run_ruleCheck deps ctx k rule rc
      unfold evaluationChecks
      rw [along_append, run_append, hrun]
      have hstep := evaluateRule_eq deps ctx rule rc
      cases hdec : decides deps ctx rule rc with
      | true =>
          -- the rule ends the evaluation, with its own check the last
          rw [hdec, if_pos rfl] at hstep
          have hstop : (evaluateRule deps ctx rule rc).1 = some (decision rule) := by rw [hstep]
          refine ⟨⟨hright, trivial⟩, ?_⟩
          unfold evaluateRequestDetailed
          rw [firstStop_cons_of_stop _ hstop, hstep]
          rfl
      | false =>
          rw [hdec, if_neg Bool.false_ne_true] at hstep
          have hpass : (evaluateRule deps ctx rule rc).1 = none := by rw [hstep]
          obtain ⟨hrest, hrunrest⟩ := ih (k + 1) (charge deps ctx rule rc)
          refine ⟨⟨hright, hrest⟩, ?_⟩
          unfold evaluateRequestDetailed at hrunrest ⊢
          rw [firstStop_cons_of_pass _ hpass, hstep]
          exact hrunrest

/-- The checks of a run have the results they record. -/
theorem along_runChecks (rules : List Rule) (requests : List (EvaluationContext × (Nat → Nat))) :
    ∀ rl, Along afterCheck RightResult rl (runChecks deps rules rl requests) := by
  induction requests with
  | nil => intro rl; exact trivial
  | cons request requests ih =>
      intro rl
      obtain ⟨ctx, readings⟩ := request
      obtain ⟨hright, hrun⟩ := run_evaluationChecks deps ctx rules 0 ⟨rl, readings⟩
      unfold runChecks
      rw [along_append]
      refine ⟨hright, ?_⟩
      rw [hrun]
      exact ih _

/-- The check was made by a rule of the list, under its key for the client. -/
def MadeBy (rules : List Rule) (c : LimitCheck) : Prop :=
  ∃ rule, rules[c.rule]? = some rule ∧ c.key = rule.name ++ ":" ++ c.clientIp ∧
    rule.rateLimit = some c.config

/-- What a rule charges. -/
theorem charged_eq_some {ctx : EvaluationContext} {rule : Rule} {c : String × RateLimitConfig}
    (h : charged deps ctx rule = some c) :
    c.1 = rule.name ++ ":" ++ ctx.clientIp ∧ rule.rateLimit = some c.2 := by
  unfold charged at h
  split at h
  · obtain ⟨config, hconfig, hc⟩ := Option.map_eq_some_iff.mp h
    rw [← hc]
    exact ⟨rfl, hconfig⟩
  · exact absurd h (by simp)

/-- Every check of an evaluation was made by a rule; `k` counts the rules before. -/
theorem madeBy_of_mem_evaluationChecks {ctx : EvaluationContext} {c : LimitCheck}
    (rules : List Rule) :
    ∀ (before : List Rule) (rc : RateClock),
      c ∈ evaluationChecks deps ctx before.length rules rc → MadeBy (before ++ rules) c := by
  induction rules with
  | nil => intro before rc h; exact absurd h List.not_mem_nil
  | cons rule rules ih =>
      intro before rc h
      unfold evaluationChecks at h
      cases List.mem_append.mp h with
      | inl hhere =>
          obtain ⟨charge, hcharge, hc⟩ := Option.map_eq_some_iff.mp (Option.mem_toList.mp hhere)
          obtain ⟨hkey, hlimit⟩ := charged_eq_some deps hcharge
          rw [← hc]
          exact ⟨rule, by simp, hkey, hlimit⟩
      | inr hrest =>
          split at hrest
          · exact absurd hrest List.not_mem_nil
          · have hlength : before.length + 1 = (before ++ [rule]).length := by
              rw [List.length_append, List.length_singleton]
            rw [hlength] at hrest
            have hmade := ih (before ++ [rule]) _ hrest
            rw [List.append_assoc] at hmade
            exact hmade

/-- Every check of a run was made by a rule. -/
theorem madeBy_of_mem_runChecks {rules : List Rule} {c : LimitCheck}
    (requests : List (EvaluationContext × (Nat → Nat))) :
    ∀ rl, c ∈ runChecks deps rules rl requests → MadeBy rules c := by
  induction requests with
  | nil => intro rl h; exact absurd h List.not_mem_nil
  | cons request requests ih =>
      intro rl h
      obtain ⟨ctx, readings⟩ := request
      cases List.mem_append.mp h with
      | inl hhere => exact madeBy_of_mem_evaluationChecks deps rules [] _ hhere
      | inr hrest => exact ih _ hrest

end

/-! ## §3. A bucket of its own. -/

/-- `check` on the bucket of a key, or on none. -/
def checkAlone (config : RateLimitConfig) (bucket : Option RateBucket) (t : Nat) :
    Bool × Option RateBucket :=
  if config.requests.toNat = 0 then (false, bucket)
  else
    let (allowed, bucket) := (bucket.getD (RateBucket.fresh t config.requests.toNat)).check t
      config.requests.toNat config.period.toNat config.penalty.toNat
    (allowed, some bucket)

/-- The results of checks at these times, on a bucket of their own. -/
def aloneResults (config : RateLimitConfig) : Option RateBucket → List Nat → List Bool
  | _, [] => []
  | bucket, t :: times =>
      (checkAlone config bucket t).1 :: aloneResults config (checkAlone config bucket t).2 times

/-- While there is room, a check is one of the key's bucket alone. -/
theorem run_of_room {rl : RateLimiter} {c : LimitCheck} (hroom : Room rl c) :
    (c.run rl).1 = (checkAlone c.config rl.buckets[c.key]? c.time).1 ∧
      (afterCheck rl c).buckets[c.key]? = (checkAlone c.config rl.buckets[c.key]? c.time).2 := by
  have hroom : decide (maxRateLimitBuckets ≤ rl.buckets.size) = false :=
    decide_eq_false (Nat.not_le.mpr hroom)
  unfold afterCheck LimitCheck.run RateLimiter.check checkAlone
  by_cases hzero : c.config.requests.toNat = 0
  · simp only [if_pos hzero]
    exact ⟨trivial, trivial⟩
  · simp only [if_neg hzero, hroom, Bool.and_false, Bool.false_eq_true, if_false]
    exact ⟨trivial, Std.ExtTreeMap.getElem?_insert_self⟩

/-- **A check touches no other bucket.** -/
theorem getElem_afterCheck_of_ne {rl : RateLimiter} {c : LimitCheck} {key : String}
    (hne : c.key ≠ key) : (afterCheck rl c).buckets[key]? = rl.buckets[key]? := by
  unfold afterCheck LimitCheck.run
  obtain hsame | ⟨-, b, -, hcheck⟩ := rl.check_cases c.time c.key c.config.requests.toNat
    c.config.period.toNat c.config.penalty.toNat
  · rw [hsame]
  · rw [hcheck, Std.ExtTreeMap.getElem?_insert]
    have hcmp : ¬ compare c.key key = .eq := fun h => hne (Std.LawfulEqOrd.eq_of_compare h)
    rw [if_neg hcmp]

/-- **The checks of a key go as on a bucket of their own**, whatever the other keys'
checks between them. -/
theorem results_of_key {key : String} {config : RateLimitConfig} (checks : List LimitCheck) :
    ∀ rl, Along afterCheck RightResult rl checks → Along afterCheck Room rl checks →
      (∀ c ∈ checks, c.key = key → c.config = config) →
      (checks.filter fun c => c.key == key).map LimitCheck.allowed =
        aloneResults config rl.buckets[key]?
          ((checks.filter fun c => c.key == key).map LimitCheck.time) := by
  induction checks with
  | nil => intro rl _ _ _; rfl
  | cons c checks ih =>
      intro rl hright hroom hconfig
      obtain ⟨hresult, hright⟩ := hright
      obtain ⟨hhere, hroom⟩ := hroom
      have ih := ih (afterCheck rl c) hright hroom fun c' hc' =>
        hconfig c' (List.mem_cons_of_mem c hc')
      by_cases hkey : c.key = key
      · -- the check is the next one on the bucket of its own
        obtain ⟨hallowed, hbucket⟩ := run_of_room hhere
        rw [hkey, hconfig c List.mem_cons_self hkey] at hallowed hbucket
        have hfilter : (c :: checks).filter (fun c => c.key == key) =
            c :: checks.filter fun c => c.key == key :=
          List.filter_cons_of_pos (beq_iff_eq.mpr hkey)
        rw [hfilter, List.map_cons, List.map_cons, aloneResults, ← hallowed, ← hbucket, ih]
        exact congrArg (· :: _) hresult.symm
      · -- another key's check is left out, and leaves the bucket alone
        have hfilter : (c :: checks).filter (fun c => c.key == key) =
            checks.filter fun c => c.key == key :=
          List.filter_cons_of_neg fun h => hkey (beq_iff_eq.mp h)
        rw [hfilter, ih, getElem_afterCheck_of_ne hkey]

/-! ## §4. Isolation. -/

/-- The checks of the rule at position `k` for the client. -/
def checksOf (k : Nat) (clientIp : String) (checks : List LimitCheck) : List LimitCheck :=
  checks.filter fun c => c.rule == k && c.clientIp == clientIp

/-- The check is under the rule's key for the client only if it is one of theirs. -/
def OwnKey (k : Nat) (rule : Rule) (clientIp : String) (c : LimitCheck) : Prop :=
  c.key = rule.name ++ ":" ++ clientIp → c.rule = k ∧ c.clientIp = clientIp

variable (deps : Externals)

/-- **Rate limits are isolated while keys are not shared.**  In every run that never
fills the table and in which no other check is made under the key of the rule at `k`
for the client, the results of the rule's checks for the client are those that a
bucket of their own gives at their times. -/
theorem checks_isolated {rules : List Rule} {k : Nat} {rule : Rule} {config : RateLimitConfig}
    (hrule : rules[k]? = some rule) (hlimit : rule.rateLimit = some config) {clientIp : String}
    {rl : RateLimiter} (hnone : rl.buckets[rule.name ++ ":" ++ clientIp]? = none)
    {requests : List (EvaluationContext × (Nat → Nat))}
    (hroom : Along afterCheck Room rl (runChecks deps rules rl requests))
    (hown : ∀ c ∈ runChecks deps rules rl requests, OwnKey k rule clientIp c) :
    (checksOf k clientIp (runChecks deps rules rl requests)).map LimitCheck.allowed =
      aloneResults config none
        ((checksOf k clientIp (runChecks deps rules rl requests)).map LimitCheck.time) := by
  have hmade : ∀ c ∈ runChecks deps rules rl requests, c.rule = k → c.clientIp = clientIp →
      c.key = rule.name ++ ":" ++ clientIp ∧ c.config = config := by
    intro c hc hk hip
    obtain ⟨rule', hrule', hkey, hlimit'⟩ := madeBy_of_mem_runChecks deps requests rl hc
    rw [hk, hrule] at hrule'
    injection hrule' with hrule'
    rw [← hrule', hip] at hkey
    rw [← hrule', hlimit] at hlimit'
    injection hlimit' with hlimit'
    exact ⟨hkey, hlimit'.symm⟩
  -- the checks of the rule for the client are those under its key
  have hfilter : checksOf k clientIp (runChecks deps rules rl requests) =
      (runChecks deps rules rl requests).filter fun c => c.key == rule.name ++ ":" ++ clientIp := by
    refine List.filter_congr fun c hc => ?_
    rw [Bool.eq_iff_iff, Bool.and_eq_true, beq_iff_eq, beq_iff_eq, beq_iff_eq]
    exact Iff.intro (fun h => (hmade c hc h.1 h.2).1) (hown c hc)
  have hconfig : ∀ c ∈ runChecks deps rules rl requests,
      c.key = rule.name ++ ":" ++ clientIp → c.config = config := by
    intro c hc hkey
    obtain ⟨hk, hip⟩ := hown c hc hkey
    exact (hmade c hc hk hip).2
  have hresults := results_of_key _ rl (along_runChecks deps rules requests rl) hroom hconfig
  rw [hfilter, hresults, hnone]

/-- A text up to its first colon. -/
theorem append_colon_inj {name name' rest rest' : String} (hname : ':' ∉ name.toList)
    (hname' : ':' ∉ name'.toList) (h : name ++ ":" ++ rest = name' ++ ":" ++ rest') :
    name = name' ∧ rest = rest' := by
  have hlist : name.toList ++ ':' :: rest.toList = name'.toList ++ ':' :: rest'.toList := by
    simpa using congrArg String.toList h
  have htake : ∀ (l r : List Char), ':' ∉ l → (l ++ ':' :: r).takeWhile (· != ':') = l := by
    intro l r hl
    have hpos : ∀ c ∈ l, (c != ':') = true := by
      intro c hc
      refine bne_iff_ne.mpr fun h => hl ?_
      rw [← h]
      exact hc
    rw [List.takeWhile_append_of_pos hpos]
    simp
  have heq : name.toList = name'.toList := by
    rw [← htake _ rest.toList hname, hlist, htake _ _ hname']
  rw [heq] at hlist
  have hrest := List.append_cancel_left hlist
  injection hrest with _ hrest
  exact ⟨String.toList_injective heq, String.toList_injective hrest⟩

/-- The names of the rules are apart, and have no colon. -/
def NamesApart (rules : List Rule) : Prop :=
  (∀ rule ∈ rules, ':' ∉ rule.name.toList) ∧ (rules.map Rule.name).Nodup

/-- **Names that are apart share no keys**, whatever the clients. -/
theorem ownKey_of_namesApart {rules : List Rule} (hnames : NamesApart rules) {k : Nat} {rule : Rule}
    (hrule : rules[k]? = some rule) (clientIp : String) {rl : RateLimiter}
    {requests : List (EvaluationContext × (Nat → Nat))} :
    ∀ c ∈ runChecks deps rules rl requests, OwnKey k rule clientIp c := by
  intro c hc hkey
  obtain ⟨hcolon, hnodup⟩ := hnames
  obtain ⟨rule', hrule', hkey', -⟩ := madeBy_of_mem_runChecks deps requests rl hc
  rw [hkey'] at hkey
  obtain ⟨hname, hip⟩ := append_colon_inj (hcolon rule' (List.mem_of_getElem? hrule'))
    (hcolon rule (List.mem_of_getElem? hrule)) hkey
  refine ⟨?_, hip⟩
  have hlt : c.rule < (rules.map Rule.name).length := by
    rw [List.length_map]
    exact (List.getElem?_eq_some_iff.mp hrule').1
  refine (List.getElem?_inj hlt hnodup).mp ?_
  rw [List.getElem?_map, List.getElem?_map, hrule', hrule]
  exact congrArg some hname

/-! ## §5. Shared keys. -/

/-- A limit of so many requests for one path. -/
def pathLimit (name path : String) (requests : UInt64) : Rule where
  name := name
  action := "rate_limit"
  rateLimit := some { requests := requests }
  conditions := [.leaf { field := "path", operator := "equals", value := some (.string path) }]

/-- Two rate limits, of these names, on two paths. -/
def twoLimits (name name' : String) : ProxyConfig where
  rules := some [pathLimit name "/a" 1, pathLimit name' "/b" 2]

/-- A request for the path, whose checks read the clock at 0. -/
def requestFor (path clientIp : String) : EvaluationContext × (Nat → Nat) :=
  ({ path := path, method := "GET", clientIp := clientIp }, fun _ => 0)

/-- Two requests under the second limit, then one under the first. -/
def limitRun (other clientIp : String) : List (EvaluationContext × (Nat → Nat)) :=
  [requestFor "/b" other, requestFor "/b" other, requestFor "/a" clientIp]

/-- What the first rule gets from the limiter for the client, in the run and alone. -/
def firstRuleResults (config : ProxyConfig) (clientIp : String)
    (requests : List (EvaluationContext × (Nat → Nat))) : List Bool × List Bool :=
  let checks := checksOf 0 clientIp
    (runChecks Externals.uncalled (config.rules.getD []) RateLimiter.new requests)
  (checks.map LimitCheck.allowed, aloneResults { requests := 1 } none (checks.map LimitCheck.time))

/-- The run leaves room in the table. -/
def NeverFull (config : ProxyConfig) (requests : List (EvaluationContext × (Nat → Nat))) : Prop :=
  Along afterCheck Room RateLimiter.new
    (runChecks Externals.uncalled (config.rules.getD []) RateLimiter.new requests)

instance (config : ProxyConfig) (requests : List (EvaluationContext × (Nat → Nat))) :
    Decidable (NeverFull config requests) :=
  inferInstanceAs (Decidable (Along afterCheck Room RateLimiter.new _))

/-- **Two accepted configurations whose rules share a bucket**: of one name, the other
rule's requests use up the first rule's only token; of names `r` and `r:2001`, those
of another client do. -/
theorem checks_not_isolated :
    (validate (twoLimits "limit" "limit") = .ok () ∧
      NeverFull (twoLimits "limit" "limit") (limitRun "10.0.0.7" "10.0.0.7") ∧
      firstRuleResults (twoLimits "limit" "limit") "10.0.0.7" (limitRun "10.0.0.7" "10.0.0.7") =
        ([false], [true])) ∧
    (validate (twoLimits "r" "r:2001") = .ok () ∧
      NeverFull (twoLimits "r" "r:2001") (limitRun "db8::1" "2001:db8::1") ∧
      firstRuleResults (twoLimits "r" "r:2001") "2001:db8::1" (limitRun "db8::1" "2001:db8::1") =
        ([false], [true])) := by
  refine ⟨⟨rfl, ?_, ?_⟩, rfl, ?_, ?_⟩ <;> decide +kernel

/-- With two names the first rule is on its own. -/
theorem checks_isolated_two :
    (firstRuleResults (twoLimits "a" "b") "10.0.0.7" (limitRun "10.0.0.7" "10.0.0.7")).1 =
      (firstRuleResults (twoLimits "a" "b") "10.0.0.7" (limitRun "10.0.0.7" "10.0.0.7")).2 := by
  have hnames : NamesApart ((twoLimits "a" "b").rules.getD []) := by
    unfold NamesApart
    exact ⟨by decide +kernel, by decide +kernel⟩
  exact @checks_isolated Externals.uncalled ((twoLimits "a" "b").rules.getD []) 0 _ _ rfl rfl
    "10.0.0.7" RateLimiter.new rfl _ (by decide +kernel)
    (ownKey_of_namesApart Externals.uncalled hnames rfl "10.0.0.7")

end DockerProxy.Rules
