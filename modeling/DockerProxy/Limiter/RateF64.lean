/-
  DockerProxy.Limiter.RateF64 — `RateLimiter` with the arithmetic that `rules.rs` does.

  The tokens are `f64`: every operation on them is rounded.  And some operations need not
  return: the division by the period, and `now + Duration::from_secs(penalty)`, which
  panics past the last `Instant`.  The lock is taken poisoned or not, so the limiter is
  used on after a panic, with what was written before it.

  `rounding` is `binary64` where a result is about the code; with `exact` in its place
  the operations are those of `Limiter/Rate.lean` (`checkOrPanic_of_fits`).  No clock
  reading and no `u64` leads out of the range of doubles, so the bounds of their exponent
  do not matter.

    • `spendOrPanic_cases` — a token is taken, or a penalty is begun,
    • `checkOrPanic_cases` — a bucket is left alone, or spent from,
    • `RateLimiter.checkOrPanic_cases` — the table is left alone, or the key's bucket is
      checked.
-/
import DockerProxy.Lib.Rounding
import DockerProxy.Limiter.Rate

namespace DockerProxy.Limiter

open DockerProxy.Lib

-- the readings of an `Instant` are below `instantEnd`
variable (rounding : Rounding) (instantEnd : Nat)

/-! ## §1. Operations. -/

/-- `as_secs_f64` of an elapsed time. -/
def asSecsF64 (elapsed : Nat) : ℚ :=
  rounding.add (rounding.ofNat (elapsed / 1000000000))
    (rounding.div (rounding.ofNat (elapsed % 1000000000)) (rounding.ofNat 1000000000))

/-- `now + Duration::from_secs(secs)`; `none` is the panic. -/
def instantAdd (now secs : Nat) : Option Nat :=
  if now + fromSecs secs < instantEnd then some (now + fromSecs secs) else none

/-- `a / b`; `none` is a division by zero. -/
def divide (a b : ℚ) : Option ℚ := if b = 0 then none else some (rounding.div a b)

/-- The refill rate of `check`. -/
def refillRateOrPanic (maxTokens : ℚ) (periodSecs : Nat) : Option ℚ :=
  if periodSecs = 0 then some maxTokens else divide rounding maxTokens (rounding.ofNat periodSecs)

/-- The literal `0.001`. -/
def margin : ℚ := rounding.round (1 / 1000)

/-! ## §2. Buckets. -/

/-- The bucket of a key that has none. -/
def RateBucket.full (now : Nat) (maxTokens : ℚ) : RateBucket where
  lastCheck := now
  tokens := maxTokens
  maxTokens := maxTokens
  blockedUntil := none

/-- The last branch of `check`, with the end of the penalty: `none` for the answer is a
panic, and the bucket is as it was written before it. -/
def RateBucket.penalized (bucket : RateBucket) : Option Nat → Option Bool × RateBucket
  | some blocked => (some false, { bucket with blockedUntil := some blocked })
  | none => (none, bucket)

/-- The tokens with those that came in since the last check. -/
def RateBucket.refilled (bucket : RateBucket) (now : Nat) (refillRate : ℚ) : ℚ :=
  let elapsed := asSecsF64 rounding (now - bucket.lastCheck)
  rounding.add bucket.tokens (rounding.mul elapsed refillRate)

/-- The end of `check`: refill, then take a token or start the penalty. -/
def RateBucket.spendOrPanic (bucket : RateBucket) (now : Nat) (maxTokens refillRate : ℚ)
    (penaltySecs : Nat) : Option Bool × RateBucket :=
  let tokens := min (bucket.refilled rounding now refillRate) maxTokens
  let bucket := { bucket with lastCheck := now, maxTokens, tokens }
  if 1 ≤ tokens then (some true, { bucket with tokens := rounding.sub tokens 1 })
  else bucket.penalized (instantAdd instantEnd now penaltySecs)

/-- `check` on the bucket it found or made. -/
def RateBucket.checkOrPanic (bucket : RateBucket) (now : Nat) (maxTokens refillRate : ℚ)
    (penaltySecs : Nat) : Option Bool × RateBucket :=
  match bucket.blockedUntil with
  | some blocked =>
      if now < blocked then (some false, bucket)
      else
        { bucket with
          blockedUntil := none, tokens := maxTokens, lastCheck := now }.spendOrPanic
            rounding instantEnd now maxTokens refillRate penaltySecs
  | none => bucket.spendOrPanic rounding instantEnd now maxTokens refillRate penaltySecs

/-- What `cleanup` keeps. -/
def RateBucket.retainedF64 (bucket : RateBucket) (now : Nat) : Bool :=
  match bucket.blockedUntil with
  | some blocked =>
      decide (now < blocked) ||
        decide (bucket.tokens < rounding.sub bucket.maxTokens (margin rounding))
  | none => decide (bucket.tokens < rounding.sub bucket.maxTokens (margin rounding))

/-! ## §3. The limiter. -/

namespace RateLimiter

/-- `RateLimiter::check`, with the clock reading it takes; `none` for the answer is a
panic. -/
def checkOrPanic (rl : RateLimiter) (now : Nat) (key : String)
    (maxRequests periodSecs penaltySecs : Nat) : Option Bool × RateLimiter :=
  if maxRequests = 0 then (some false, rl)
  else
    let maxTokens := rounding.ofNat maxRequests
    match refillRateOrPanic rounding maxTokens periodSecs with
    | none => (none, rl)
    | some refillRate =>
        if !rl.buckets.contains key && decide (maxRateLimitBuckets ≤ rl.buckets.size) then
          (some false, rl)
        else
          let bucket := (rl.buckets[key]?).getD (RateBucket.full now maxTokens)
          let (answer, bucket) :=
            bucket.checkOrPanic rounding instantEnd now maxTokens refillRate penaltySecs
          (answer, ⟨rl.buckets.insert key bucket⟩)

/-- `RateLimiter::cleanup`, with the clock reading it takes. -/
def cleanupF64 (rl : RateLimiter) (now : Nat) : RateLimiter :=
  ⟨rl.buckets.filter fun _ b => b.retainedF64 rounding now⟩

/-- The limiter after an event, which may have been a call that panicked. -/
def stepOrPanic (rl : RateLimiter) : RateEvent → RateLimiter
  | .check now key maxRequests periodSecs penaltySecs =>
      (rl.checkOrPanic rounding instantEnd now key maxRequests periodSecs penaltySecs).2
  | .cleanup now => rl.cleanupF64 rounding now

end RateLimiter

/-! ## §4. What one call does. -/

/-- The refill rate of a bucket. -/
def refillRateF64 (maxTokens : ℚ) (periodSecs : Nat) : ℚ :=
  if periodSecs = 0 then maxTokens else rounding.div maxTokens (rounding.ofNat periodSecs)

/-- One or more is one or more when it is rounded. -/
theorem one_le_ofNat {n : Nat} (h : 1 ≤ n) : 1 ≤ rounding.ofNat n :=
  Rounding.le_round rounding.one_mem (by exact_mod_cast h)

/-- **The period is never divided by when it is zero.** -/
theorem refillRateOrPanic_eq (maxTokens : ℚ) (periodSecs : Nat) :
    refillRateOrPanic rounding maxTokens periodSecs =
      some (refillRateF64 rounding maxTokens periodSecs) := by
  unfold refillRateOrPanic refillRateF64 divide
  by_cases hperiod : periodSecs = 0
  · rw [if_pos hperiod, if_pos hperiod]
  · have hone : 1 ≤ rounding.ofNat periodSecs := one_le_ofNat rounding (by omega)
    rw [if_neg hperiod, if_neg hperiod, if_neg (by linarith)]

/-- **A token is taken, or a penalty is begun.** -/
theorem RateBucket.spendOrPanic_cases (b : RateBucket) (now : Nat) (maxTokens rate : ℚ)
    (penaltySecs : Nat) :
    let tokens := min (b.refilled rounding now rate) maxTokens
    let b' := { b with lastCheck := now, maxTokens, tokens }
    (1 ≤ tokens ∧ b.spendOrPanic rounding instantEnd now maxTokens rate penaltySecs =
      (some true, { b' with tokens := rounding.sub tokens 1 })) ∨
    (tokens < 1 ∧ b.spendOrPanic rounding instantEnd now maxTokens rate penaltySecs =
      b'.penalized (instantAdd instantEnd now penaltySecs)) := by
  intro tokens b'
  by_cases htoken : 1 ≤ tokens
  · exact Or.inl ⟨htoken, if_pos htoken⟩
  · exact Or.inr ⟨not_le.mp htoken, if_neg htoken⟩

/-- **A bucket is left alone, or spent from** with no penalty left. -/
theorem RateBucket.checkOrPanic_cases (b : RateBucket) (now : Nat) (maxTokens rate : ℚ)
    (penaltySecs : Nat) :
    b.checkOrPanic rounding instantEnd now maxTokens rate penaltySecs = (some false, b) ∨
    ∃ b' : RateBucket, b'.blockedUntil = none ∧
      b.checkOrPanic rounding instantEnd now maxTokens rate penaltySecs =
        b'.spendOrPanic rounding instantEnd now maxTokens rate penaltySecs := by
  unfold RateBucket.checkOrPanic
  cases hb : b.blockedUntil with
  | none => exact Or.inr ⟨b, hb, rfl⟩
  | some blocked =>
      by_cases hlt : now < blocked
      · exact Or.inl (if_pos hlt)
      · exact Or.inr ⟨_, rfl, if_neg hlt⟩

namespace RateLimiter

variable (rl : RateLimiter) (now : Nat) (key : String) (maxRequests periodSecs penaltySecs : Nat)

/-- A rule that allows requests: the division by the period returns. -/
theorem checkOrPanic_of_pos (hmax : 1 ≤ maxRequests) :
    rl.checkOrPanic rounding instantEnd now key maxRequests periodSecs penaltySecs =
      if !rl.buckets.contains key && decide (maxRateLimitBuckets ≤ rl.buckets.size) then
        (some false, rl)
      else
        let maxTokens := rounding.ofNat maxRequests
        let r := ((rl.buckets[key]?).getD (RateBucket.full now maxTokens)).checkOrPanic rounding
          instantEnd now maxTokens (refillRateF64 rounding maxTokens periodSecs) penaltySecs
        (r.1, ⟨rl.buckets.insert key r.2⟩) := by
  unfold checkOrPanic
  rw [if_neg (by omega)]
  dsimp only
  rw [refillRateOrPanic_eq]

/-- **The table is left alone, or the key's bucket is checked.** -/
theorem checkOrPanic_cases :
    rl.checkOrPanic rounding instantEnd now key maxRequests periodSecs penaltySecs =
        (some false, rl) ∨
    (1 ≤ maxRequests ∧ ∃ b : RateBucket,
      (rl.buckets[key]? = some b ∨
        rl.buckets[key]? = none ∧ b = RateBucket.full now (rounding.ofNat maxRequests)) ∧
      let r := b.checkOrPanic rounding instantEnd now (rounding.ofNat maxRequests)
        (refillRateF64 rounding (rounding.ofNat maxRequests) periodSecs) penaltySecs
      rl.checkOrPanic rounding instantEnd now key maxRequests periodSecs penaltySecs =
        (r.1, ⟨rl.buckets.insert key r.2⟩)) := by
  by_cases hmax : maxRequests = 0
  · exact Or.inl (if_pos hmax)
  · rw [checkOrPanic_of_pos rounding instantEnd rl now key maxRequests periodSecs penaltySecs
      (by omega)]
    split
    · exact Or.inl rfl
    · refine Or.inr ⟨by omega, _, ?_, rfl⟩
      cases hb : rl.buckets[key]? with
      | none => exact Or.inr ⟨rfl, rfl⟩
      | some b => exact Or.inl rfl

/-- A key that has a bucket is checked, whether the table is full or not. -/
theorem checkOrPanic_of_some {b : RateBucket} (hb : rl.buckets[key]? = some b)
    (hmax : 1 ≤ maxRequests) :
    (rl.checkOrPanic rounding instantEnd now key maxRequests periodSecs penaltySecs).1 =
      (b.checkOrPanic rounding instantEnd now (rounding.ofNat maxRequests)
        (refillRateF64 rounding (rounding.ofNat maxRequests) periodSecs) penaltySecs).1 := by
  have hcontains : rl.buckets.contains key = true := by
    rw [Std.ExtTreeMap.contains_eq_isSome_getElem?, hb]
    rfl
  rw [checkOrPanic_of_pos rounding instantEnd rl now key maxRequests periodSecs penaltySecs hmax,
    hcontains, Bool.not_true, Bool.false_and, if_neg Bool.false_ne_true, hb]
  rfl

@[simp] theorem getElem_cleanupF64 :
    (rl.cleanupF64 rounding now).buckets[key]? =
      (rl.buckets[key]?).filter fun b => b.retainedF64 rounding now := by
  show (rl.buckets.filter _)[key]? = _
  rw [Std.ExtTreeMap.getElem?_filter]
  cases rl.buckets[key]? <;> simp [Option.pfilter, Option.filter]

end RateLimiter

end DockerProxy.Limiter
