/-
  DockerProxy.Limiter.Rate — `RateLimiter` of `rules.rs`.

  A table of token buckets, one per key.  `check` refills a bucket lazily, from
  the time since its last check, and takes one token; `cleanup` drops the
  buckets it takes to be idle.

  Clock readings are nanoseconds in `Nat`, so `now - bucket.lastCheck` is zero
  for a clock that went back, as `Instant` subtraction is.  The `f64` tokens are
  exact rationals here; what depends on their rounding is about the operations of
  `Limiter/RateF64.lean`.
-/
import DockerProxy.Lib.Exec
import Std.Data.ExtTreeMap.Lemmas
import Mathlib.Data.Rat.Defs
import Mathlib.Algebra.Order.Ring.Rat
import Mathlib.Tactic.Linarith

namespace DockerProxy.Limiter

open DockerProxy.Lib

/-! ## §1. Buckets. -/

/-- `MAX_RATE_LIMIT_BUCKETS`. -/
def maxRateLimitBuckets : Nat := 16384

/-- Nanoseconds in a second: `Duration::from_secs` on clock readings. -/
def fromSecs (secs : Nat) : Nat := secs * 1000000000

/-- `as_secs_f64` of an elapsed time. -/
def asSecs (elapsed : Nat) : ℚ := elapsed / 1000000000

structure RateBucket where
  lastCheck : Nat
  tokens : ℚ
  maxTokens : ℚ
  blockedUntil : Option Nat
  deriving DecidableEq

/-- Tokens a bucket gains in a second. -/
def refillRate (maxTokens : ℚ) (periodSecs : Nat) : ℚ :=
  if periodSecs = 0 then maxTokens else maxTokens / periodSecs

/-- The bucket of a key that has none. -/
def RateBucket.fresh (now maxRequests : Nat) : RateBucket where
  lastCheck := now
  tokens := maxRequests
  maxTokens := maxRequests
  blockedUntil := none

/-- `check` after the penalty test: refill, then take a token or start the
penalty. -/
def RateBucket.spend (bucket : RateBucket) (now maxRequests periodSecs penaltySecs : Nat) :
    Bool × RateBucket :=
  let maxTokens : ℚ := maxRequests
  let elapsed := asSecs (now - bucket.lastCheck)
  let tokens := min (bucket.tokens + elapsed * refillRate maxTokens periodSecs) maxTokens
  if 1 ≤ tokens then
    (true, { bucket with lastCheck := now, maxTokens, tokens := tokens - 1 })
  else
    (false, { lastCheck := now, maxTokens, tokens,
              blockedUntil := some (now + fromSecs penaltySecs) })

/-- `check` on the bucket it found or made: a running penalty refuses and
changes nothing, an expired one leaves a full bucket. -/
def RateBucket.check (bucket : RateBucket) (now maxRequests periodSecs penaltySecs : Nat) :
    Bool × RateBucket :=
  match bucket.blockedUntil with
  | some blocked =>
      if now < blocked then (false, bucket)
      else
        { bucket with
          blockedUntil := none, tokens := maxRequests, lastCheck := now }.spend
            now maxRequests periodSecs penaltySecs
  | none => bucket.spend now maxRequests periodSecs penaltySecs

/-- What `cleanup` keeps. -/
def RateBucket.retained (bucket : RateBucket) (now : Nat) : Bool :=
  match bucket.blockedUntil with
  | some blocked => decide (now < blocked) || decide (bucket.tokens < bucket.maxTokens - 1 / 1000)
  | none => decide (bucket.tokens < bucket.maxTokens - 1 / 1000)

/-! ## §2. The limiter. -/

structure RateLimiter where
  buckets : Std.ExtTreeMap String RateBucket
  deriving DecidableEq

namespace RateLimiter

/-- `RateLimiter::new`. -/
def new : RateLimiter := ⟨∅⟩

/-- `RateLimiter::check`, with the clock reading it takes. -/
def check (rl : RateLimiter) (now : Nat) (key : String)
    (maxRequests periodSecs penaltySecs : Nat) : Bool × RateLimiter :=
  if maxRequests = 0 then (false, rl)
  else if !rl.buckets.contains key && decide (maxRateLimitBuckets ≤ rl.buckets.size) then
    (false, rl)
  else
    let bucket := (rl.buckets[key]?).getD (RateBucket.fresh now maxRequests)
    let (allowed, bucket) := bucket.check now maxRequests periodSecs penaltySecs
    (allowed, ⟨rl.buckets.insert key bucket⟩)

/-- `RateLimiter::cleanup`, with the clock reading it takes. -/
def cleanup (rl : RateLimiter) (now : Nat) : RateLimiter :=
  ⟨rl.buckets.filter fun _ b => b.retained now⟩

end RateLimiter

/-- One use of the limiter, with its clock reading. -/
inductive RateEvent where
  | check (now : Nat) (key : String) (maxRequests periodSecs penaltySecs : Nat)
  | cleanup (now : Nat)
  deriving DecidableEq

namespace RateLimiter

/-- The limiter after an event. -/
def step (rl : RateLimiter) : RateEvent → RateLimiter
  | .check now key maxRequests periodSecs penaltySecs =>
      (rl.check now key maxRequests periodSecs penaltySecs).2
  | .cleanup now => rl.cleanup now

/-- **The reachable limiters**: whatever the keys, the parameters and the clock
readings of the calls that were made. -/
def Reachable (rl : RateLimiter) : Prop := ∃ events, rl = run step new events

end RateLimiter

/-! ## §3. What one call does. -/

/-- A check of a bucket either leaves it alone, or spends from a bucket with no
penalty left. -/
theorem RateBucket.check_cases (b : RateBucket) (now maxRequests periodSecs penaltySecs : Nat) :
    b.check now maxRequests periodSecs penaltySecs = (false, b) ∨
    ∃ b' : RateBucket, b'.blockedUntil = none ∧
      b.check now maxRequests periodSecs penaltySecs =
        b'.spend now maxRequests periodSecs penaltySecs := by
  unfold RateBucket.check
  cases hb : b.blockedUntil with
  | none => exact Or.inr ⟨b, hb, rfl⟩
  | some blocked =>
      by_cases hlt : now < blocked
      · exact Or.inl (if_pos hlt)
      · exact Or.inr ⟨_, rfl, if_neg hlt⟩

/-- The penalty of the bucket is over. -/
def Expired (now : Nat) (b : RateBucket) : Prop := ∃ u, b.blockedUntil = some u ∧ u ≤ now

/-- **A bucket whose penalty is over is checked like none.** -/
theorem check_of_expired {b : RateBucket} {now : Nat} (h : Expired now b)
    (maxRequests periodSecs penaltySecs : Nat) :
    b.check now maxRequests periodSecs penaltySecs =
      (RateBucket.fresh now maxRequests).check now maxRequests periodSecs penaltySecs := by
  obtain ⟨u, hu, hle⟩ := h
  unfold RateBucket.check
  rw [hu]
  simp only
  rw [if_neg (by omega)]
  rfl

/-- A check of the limiter either leaves it alone, or checks the key's bucket. -/
theorem RateLimiter.check_cases (rl : RateLimiter) (now : Nat) (key : String)
    (maxRequests periodSecs penaltySecs : Nat) :
    rl.check now key maxRequests periodSecs penaltySecs = (false, rl) ∨
    (1 ≤ maxRequests ∧ ∃ b : RateBucket,
      (rl.buckets[key]? = some b ∨
        rl.buckets[key]? = none ∧ b = RateBucket.fresh now maxRequests) ∧
      rl.check now key maxRequests periodSecs penaltySecs =
        ((b.check now maxRequests periodSecs penaltySecs).1,
          ⟨rl.buckets.insert key (b.check now maxRequests periodSecs penaltySecs).2⟩)) := by
  unfold RateLimiter.check
  by_cases hmax : maxRequests = 0
  · exact Or.inl (if_pos hmax)
  · rw [if_neg hmax]
    split
    · exact Or.inl rfl
    · refine Or.inr ⟨by omega, _, ?_, rfl⟩
      cases hb : rl.buckets[key]? with
      | none => exact Or.inr ⟨rfl, rfl⟩
      | some b => exact Or.inl rfl

@[simp] theorem RateLimiter.getElem_cleanup (rl : RateLimiter) (now : Nat) (key : String) :
    (rl.cleanup now).buckets[key]? = (rl.buckets[key]?).filter fun b => b.retained now := by
  show (rl.buckets.filter _)[key]? = _
  rw [Std.ExtTreeMap.getElem?_filter]
  cases rl.buckets[key]? <;> simp [Option.pfilter, Option.filter]

end DockerProxy.Limiter
