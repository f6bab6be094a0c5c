/-
  DockerProxy.Limiter.Overflow — where the arithmetic of `RateLimiter::check` panics.

  A penalty is added to the clock, and the sum may lie past the last `Instant`.  Only a
  call that starts a penalty adds it, and whether one does is decided by the tokens that
  the refill, as `f64`, leaves in the bucket.

    • `checkOrPanic_isSome_iff` — a call returns unless it starts a penalty that ends past
      the last `Instant`,
    • `along_answered_iff` — all calls of a run return exactly when all of them fit,
    • `checkOrPanic_of_fits` — without rounding, a call that fits is `check`.
-/
import DockerProxy.Config.Load
import DockerProxy.Limiter.RateF64

namespace DockerProxy.Limiter

open DockerProxy.Lib

-- the readings of an `Instant` are below `instantEnd`
variable (rounding : Rounding) (instantEnd : Nat)

/-! ## §1. Calls that fit. -/

namespace RateLimiter

/-- The event returns. -/
def Answered (rl : RateLimiter) : RateEvent → Prop
  | .check now key maxRequests periodSecs penaltySecs =>
      (rl.checkOrPanic rounding instantEnd now key maxRequests periodSecs penaltySecs).1.isSome =
        true
  | .cleanup _ => True

/-- **The call starts a penalty**: the key has a bucket without one, and the refill leaves
less than a token in it. -/
def StartsPenalty (rl : RateLimiter) (now : Nat) (key : String) (maxRequests periodSecs : Nat) :
    Prop :=
  1 ≤ maxRequests ∧ ∃ b, rl.buckets[key]? = some b ∧ b.blockedUntil = none ∧
    b.refilled rounding now (refillRateF64 rounding (rounding.ofNat maxRequests) periodSecs) < 1

/-- **The event fits**: a penalty that it starts ends at an `Instant`. -/
def Fits (rl : RateLimiter) : RateEvent → Prop
  | .check now key maxRequests periodSecs penaltySecs =>
      rl.StartsPenalty rounding now key maxRequests periodSecs →
        now + fromSecs penaltySecs < instantEnd
  | .cleanup _ => True

end RateLimiter

/-! ## §2. A call returns exactly when it fits. -/

section Bucket

variable {b : RateBucket} {now penaltySecs : Nat} {maxTokens rate : ℚ}

/-- **To spend from a bucket returns**, unless it is empty and the penalty does not end at
an `Instant`. -/
theorem RateBucket.spendOrPanic_isSome_iff (hmax : 1 ≤ maxTokens) :
    (b.spendOrPanic rounding instantEnd now maxTokens rate penaltySecs).1.isSome = true ↔
      (b.refilled rounding now rate < 1 → now + fromSecs penaltySecs < instantEnd) := by
  obtain ⟨htoken, hspend⟩ | ⟨hless, hspend⟩ :=
    b.spendOrPanic_cases rounding instantEnd now maxTokens rate penaltySecs
  · rw [hspend]
    refine iff_of_true rfl fun hempty => ?_
    exact absurd (le_trans htoken (min_le_left _ _)) (not_le.mpr hempty)
  · -- the cap is a token at least, so it is the refill that is less
    have hempty : b.refilled rounding now rate < 1 := (min_lt_iff.mp hless).resolve_right
      (not_lt.mpr hmax)
    rw [hspend]
    unfold instantAdd
    by_cases hfits : now + fromSecs penaltySecs < instantEnd
    · rw [if_pos hfits]
      exact iff_of_true rfl fun _ => hfits
    · rw [if_neg hfits]
      exact iff_of_false Bool.false_ne_true fun h => hfits (h hempty)

/-- A full bucket that was just written is not empty. -/
theorem RateBucket.one_le_refilled_of_full (hmax : 1 ≤ maxTokens)
    (hround : rounding.round maxTokens = maxTokens) (hlast : b.lastCheck = now)
    (htokens : b.tokens = maxTokens) : 1 ≤ b.refilled rounding now rate := by
  have helapsed : asSecsF64 rounding 0 = 0 := by
    unfold asSecsF64 Rounding.add Rounding.div Rounding.ofNat
    simp
  unfold RateBucket.refilled
  rw [hlast, htokens, Nat.sub_self, helapsed]
  unfold Rounding.add Rounding.mul
  dsimp only
  rw [zero_mul, Rounding.round_zero, add_zero, hround]
  exact hmax

/-- **A check of a bucket returns**, unless it has no penalty, is empty, and the penalty
does not end at an `Instant`. -/
theorem RateBucket.checkOrPanic_isSome_iff (hmax : 1 ≤ maxTokens)
    (hround : rounding.round maxTokens = maxTokens) :
    (b.checkOrPanic rounding instantEnd now maxTokens rate penaltySecs).1.isSome = true ↔
      (b.blockedUntil = none ∧ b.refilled rounding now rate < 1 →
        now + fromSecs penaltySecs < instantEnd) := by
  unfold RateBucket.checkOrPanic
  cases hblocked : b.blockedUntil with
  | none =>
      dsimp only
      rw [RateBucket.spendOrPanic_isSome_iff rounding instantEnd hmax]
      exact ⟨fun h hempty => h hempty.2, fun h hempty => h ⟨rfl, hempty⟩⟩
  | some blocked =>
      refine iff_of_true ?_ fun h => absurd h.1 (by simp)
      dsimp only
      by_cases hlt : now < blocked
      · rw [if_pos hlt]
        rfl
      · -- the penalty is over: the bucket is full again
        rw [if_neg hlt, RateBucket.spendOrPanic_isSome_iff rounding instantEnd hmax]
        intro hempty
        exact absurd hempty
          (not_lt.mpr (RateBucket.one_le_refilled_of_full rounding hmax hround rfl rfl))

end Bucket

namespace RateLimiter

variable (rl : RateLimiter)

/-- **One call of `check`** returns unless it starts a penalty that does not end at an
`Instant`. -/
theorem checkOrPanic_isSome_iff (now : Nat) (key : String)
    (maxRequests periodSecs penaltySecs : Nat) :
    (rl.checkOrPanic rounding instantEnd now key maxRequests periodSecs penaltySecs).1.isSome =
        true ↔
      (rl.StartsPenalty rounding now key maxRequests periodSecs →
        now + fromSecs penaltySecs < instantEnd) := by
  have hround : rounding.round (rounding.ofNat maxRequests) = rounding.ofNat maxRequests :=
    Rounding.round_of_mem (rounding.round_mem _)
  cases hb : rl.buckets[key]? with
  | some b =>
      by_cases hmax : 1 ≤ maxRequests
      · rw [checkOrPanic_of_some rounding instantEnd rl now key maxRequests periodSecs penaltySecs
          hb hmax, RateBucket.checkOrPanic_isSome_iff rounding instantEnd
            (one_le_ofNat rounding hmax) hround]
        unfold StartsPenalty
        rw [hb]
        simp [hmax]
      · have hzero : rl.checkOrPanic rounding instantEnd now key maxRequests periodSecs penaltySecs =
            (some false, rl) := if_pos (by omega)
        rw [hzero]
        exact iff_of_true rfl fun hstarts => absurd hstarts.1 hmax
  | none =>
      have hno : ¬ rl.StartsPenalty rounding now key maxRequests periodSecs := by
        rintro ⟨-, b, hget, -⟩
        rw [hb] at hget
        exact absurd hget (by simp)
      refine iff_of_true ?_ fun hstarts => absurd hstarts hno
      obtain hsame | ⟨hmax, b, hfound, hcheck⟩ := rl.checkOrPanic_cases rounding instantEnd now key
        maxRequests periodSecs penaltySecs
      · rw [hsame]
        rfl
      · -- the bucket of a new key is full
        rw [hcheck]
        obtain hget | ⟨-, rfl⟩ := hfound
        · rw [hb] at hget
          exact absurd hget (by simp)
        · refine (RateBucket.checkOrPanic_isSome_iff rounding instantEnd
            (one_le_ofNat rounding hmax) hround).mpr fun hempty => ?_
          exact absurd hempty.2 (not_lt.mpr (RateBucket.one_le_refilled_of_full rounding
            (one_le_ofNat rounding hmax) hround rfl rfl))

/-- An event returns exactly when it fits. -/
theorem answered_iff (e : RateEvent) :
    rl.Answered rounding instantEnd e ↔ rl.Fits rounding instantEnd e := by
  cases e with
  | check now key maxRequests periodSecs penaltySecs =>
      exact checkOrPanic_isSome_iff rounding instantEnd rl now key maxRequests periodSecs
        penaltySecs
  | cleanup now => exact Iff.rfl

/-- **No call of a run panics exactly when every call fits**, in the limiter that it
finds, with the arithmetic of `f64`. -/
theorem along_answered_iff (events : List RateEvent) :
    Along (stepOrPanic binary64 instantEnd) (Answered binary64 instantEnd) new events ↔
      Along (stepOrPanic binary64 instantEnd) (Fits binary64 instantEnd) new events :=
  ⟨fun h => along_mono _ h fun rl e => (answered_iff binary64 instantEnd rl e).mp,
    fun h => along_mono _ h fun rl e => (answered_iff binary64 instantEnd rl e).mpr⟩

end RateLimiter

/-! ## §3. Without rounding. -/

/-- Without rounding, `as_secs_f64` is the elapsed time in seconds. -/
theorem asSecsF64_exact (elapsed : Nat) : asSecsF64 .exact elapsed = asSecs elapsed := by
  show ((elapsed / 1000000000 : Nat) : ℚ) + ((elapsed % 1000000000 : Nat) : ℚ) /
    ((1000000000 : Nat) : ℚ) = elapsed / 1000000000
  have hsplit : ((1000000000 : Nat) : ℚ) * ((elapsed / 1000000000 : Nat) : ℚ) +
      ((elapsed % 1000000000 : Nat) : ℚ) = elapsed := by
    exact_mod_cast Nat.div_add_mod elapsed 1000000000
  rw [← hsplit]
  push_cast
  ring

theorem refilled_exact (b : RateBucket) (now : Nat) (rate : ℚ) :
    b.refilled .exact now rate = b.tokens + asSecs (now - b.lastCheck) * rate := by
  rw [← asSecsF64_exact]
  rfl

theorem refillRateF64_exact (maxRequests periodSecs : Nat) :
    refillRateF64 .exact (Rounding.exact.ofNat maxRequests) periodSecs =
      refillRate maxRequests periodSecs := rfl

/-- The answer and the state of a call that did not panic. -/
def returned {σ : Type} (r : Bool × σ) : Option Bool × σ := (some r.1, r.2)

/-- What is spent where a penalty that is started fits. -/
theorem RateBucket.spendOrPanic_of_fits (b : RateBucket) {now maxRequests penaltySecs : Nat}
    (periodSecs : Nat) (hmax : 1 ≤ maxRequests)
    (h : b.refilled .exact now (refillRate maxRequests periodSecs) < 1 →
      now + fromSecs penaltySecs < instantEnd) :
    b.spendOrPanic .exact instantEnd now maxRequests (refillRate maxRequests periodSecs)
      penaltySecs = returned (b.spend now maxRequests periodSecs penaltySecs) := by
  have hone : (1 : ℚ) ≤ maxRequests := by exact_mod_cast hmax
  rw [refilled_exact] at h
  obtain ⟨htoken, hspend⟩ | ⟨hless, hspend⟩ := b.spendOrPanic_cases .exact instantEnd now
    maxRequests (refillRate maxRequests periodSecs) penaltySecs
  · -- a token is taken, and nothing is added to `now`
    rw [hspend]
    rw [refilled_exact] at htoken ⊢
    have hspend : b.spend now maxRequests periodSecs penaltySecs = (true, _) := if_pos htoken
    rw [hspend]
    rfl
  · rw [hspend]
    rw [refilled_exact] at hless ⊢
    have hadd : instantAdd instantEnd now penaltySecs = some (now + fromSecs penaltySecs) :=
      if_pos (h ((min_lt_iff.mp hless).resolve_right (not_lt.mpr hone)))
    have hspend : b.spend now maxRequests periodSecs penaltySecs = (false, _) :=
      if_neg (not_le.mpr hless)
    rw [hspend, hadd]
    rfl

theorem RateBucket.checkOrPanic_of_fits (b : RateBucket) {now maxRequests penaltySecs : Nat}
    (periodSecs : Nat) (hmax : 1 ≤ maxRequests)
    (h : b.blockedUntil = none ∧ b.refilled .exact now (refillRate maxRequests periodSecs) < 1 →
      now + fromSecs penaltySecs < instantEnd) :
    b.checkOrPanic .exact instantEnd now maxRequests (refillRate maxRequests periodSecs)
      penaltySecs = returned (b.check now maxRequests periodSecs penaltySecs) := by
  have hone : (1 : ℚ) ≤ maxRequests := by exact_mod_cast hmax
  unfold RateBucket.checkOrPanic RateBucket.check
  cases hblocked : b.blockedUntil with
  | none =>
      exact RateBucket.spendOrPanic_of_fits instantEnd b periodSecs hmax fun hempty =>
        h ⟨hblocked, hempty⟩
  | some blocked =>
      by_cases hlt : now < blocked
      · simp only [if_pos hlt]
        rfl
      · -- the penalty is over: the bucket is full again
        simp only [if_neg hlt]
        refine RateBucket.spendOrPanic_of_fits instantEnd _ periodSecs hmax fun hempty => ?_
        exact absurd hempty
          (not_lt.mpr (RateBucket.one_le_refilled_of_full .exact hone rfl rfl rfl))

namespace RateLimiter

/-- **Without rounding, a call that fits is `check`.** -/
theorem checkOrPanic_of_fits (rl : RateLimiter) {now maxRequests periodSecs penaltySecs : Nat}
    {key : String}
    (h : rl.StartsPenalty .exact now key maxRequests periodSecs →
      now + fromSecs penaltySecs < instantEnd) :
    rl.checkOrPanic .exact instantEnd now key maxRequests periodSecs penaltySecs =
      returned (rl.check now key maxRequests periodSecs penaltySecs) := by
  by_cases hmax : maxRequests = 0
  · have hzero : rl.checkOrPanic .exact instantEnd now key maxRequests periodSecs penaltySecs =
        (some false, rl) := if_pos hmax
    have hzero' : rl.check now key maxRequests periodSecs penaltySecs = (false, rl) := if_pos hmax
    rw [hzero, hzero']
    rfl
  · have hpos : 1 ≤ maxRequests := by omega
    have hbucket : ((rl.buckets[key]?).getD (RateBucket.full now maxRequests)).checkOrPanic .exact
        instantEnd now maxRequests (refillRate maxRequests periodSecs) penaltySecs =
          returned (((rl.buckets[key]?).getD (RateBucket.fresh now maxRequests)).check now
            maxRequests periodSecs penaltySecs) := by
      refine RateBucket.checkOrPanic_of_fits instantEnd _ periodSecs hpos fun hempty => ?_
      cases hget : rl.buckets[key]? with
      | some b =>
          rw [hget] at hempty
          exact h ⟨hpos, b, hget, hempty⟩
      | none =>
          -- the bucket of a new key is full
          rw [hget] at hempty
          have hone : (1 : ℚ) ≤ maxRequests := by exact_mod_cast hpos
          exact absurd hempty.2
            (not_lt.mpr (RateBucket.one_le_refilled_of_full .exact hone rfl rfl rfl))
    rw [checkOrPanic_of_pos .exact instantEnd rl now key maxRequests periodSecs penaltySecs hpos]
    unfold check
    rw [if_neg hmax]
    split
    next => rfl
    next =>
      have hexact : (Rounding.exact.ofNat maxRequests) = maxRequests := rfl
      dsimp only
      rw [refillRateF64_exact, hexact, hbucket]
      rfl

/-- Without rounding, `cleanup` compares with a thousandth. -/
theorem cleanupF64_exact (rl : RateLimiter) (now : Nat) :
    rl.cleanupF64 .exact now = rl.cleanup now := rfl

/-- **A run of calls that fit**, without rounding, goes as `check` and `cleanup` say. -/
theorem run_of_fits (events : List RateEvent) : ∀ rl : RateLimiter,
    Along (stepOrPanic .exact instantEnd) (Fits .exact instantEnd) rl events →
      run (stepOrPanic .exact instantEnd) rl events = run step rl events := by
  induction events with
  | nil => intro rl _; rfl
  | cons e events ih =>
      intro rl h
      have hstep : rl.stepOrPanic .exact instantEnd e = rl.step e := by
        cases e with
        | check now key maxRequests periodSecs penaltySecs =>
            exact congrArg Prod.snd (checkOrPanic_of_fits instantEnd rl h.1)
        | cleanup now => exact cleanupF64_exact rl now
      rw [run_cons, run_cons, hstep]
      exact ih _ (hstep ▸ h.2)

end RateLimiter

/-! ## §4. A penalty past the last `Instant`. -/

/-- The seconds of an `Instant` are 64 bits, with a sign or without one. -/
def instantEnds : List Nat := [fromSecs (2 ^ 63), fromSecs (2 ^ 64)]

/-- One request in a second, and a penalty that never ends. -/
def foreverLimit : RateLimitConfig where
  requests := 1
  period := 1
  penalty := 0xffffffffffffffff

/-- The limit on every path. -/
def foreverConfig : ProxyConfig where
  rules := some
    [{ name := "one-only", action := "rate_limit", rateLimit := some foreverLimit
       conditions := [.leaf
         { field := "path", operator := "starts_with", value := some (.string "/") }] }]

/-- The limits of a file that is accepted. -/
def acceptedLimits (parsed : ProxyConfig) : List RateLimitConfig :=
  let env : Config.LoadEnv :=
    { var := fun _ => none, pathExists := fun _ => false, readFile := fun _ => .ok ""
      parse := fun _ => .ok parsed, isWordChar := fun c => c.isAlphanum || c == '_'
      compileRegex := fun _ => .error "unsupported" }
  match Config.loadFromPath env "config.yaml" with
  | .ok config => (config.rules.getD []).filterMap Rule.rateLimit
  | .error _ => []

/-- **The second request panics**: the file is accepted, the first request takes the only
token, and the penalty of the second one does not end at an `Instant`. -/
theorem checkOrPanic_forever :
    acceptedLimits foreverConfig = [foreverLimit] ∧
      ∀ instantEnd ∈ instantEnds,
        let call := fun rl : RateLimiter => rl.checkOrPanic binary64 instantEnd
          (fromSecs 1) "one-only:10.0.0.7" foreverLimit.requests.toNat foreverLimit.period.toNat
          foreverLimit.penalty.toNat
        (call RateLimiter.new).1 = some true ∧ (call (call RateLimiter.new).2).1 = none := by
  refine ⟨by decide +kernel, ?_⟩
  decide +kernel

-- five requests in 19 s, all at once: 3.8 s bring back one token, and less than one in `f64`
example :
    let sixth := fun rounding : Rounding =>
      ((List.replicate 5 (RateEvent.check 0 "k" 5 19 0xffffffffffffffff)).foldl
        (RateLimiter.stepOrPanic rounding (fromSecs (2 ^ 63))) RateLimiter.new).checkOrPanic
          rounding (fromSecs (2 ^ 63)) 3800000000 "k" 5 19 0xffffffffffffffff
    (sixth .exact).1 = some true ∧ (sixth binary64).1 = none := by
  decide +kernel

end DockerProxy.Limiter
