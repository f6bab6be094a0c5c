/-
  DockerProxy.Limiter.RateBound — how many requests a rate limit lets through in
  a window of time.

  A bucket regains tokens in two ways: by refilling, and by the reset to full
  when a penalty expires.  `RateBucket.level` is a potential that pays for both:
  of a blocked bucket it grows over the penalty from nothing to a full bucket.
  So the reset costs nothing extra exactly when the penalty is no shorter than
  the period.

    • `allowed_le` — at most `requests + requests · T / min period penalty` in
      every window of length `T`;
    • `allowed_rounds` — bursts of `requests` requests, one penalty apart, are
      let through, so the penalty cannot be left out of the bound.
-/
import DockerProxy.Lib.Budget
import DockerProxy.Limiter.Rate
import Mathlib.Tactic.FieldSimp
import Mathlib.Tactic.Ring

namespace DockerProxy.Limiter

open DockerProxy.Lib

/-! ## §1. Seconds. -/

theorem asSecs_sub {t u : Nat} (h : u ≤ t) : asSecs (t - u) = asSecs t - asSecs u := by
  unfold asSecs
  rw [Nat.cast_sub h]
  ring

theorem asSecs_add (t u : Nat) : asSecs (t + u) = asSecs t + asSecs u := by
  unfold asSecs
  rw [Nat.cast_add]
  ring

theorem asSecs_fromSecs (secs : Nat) : asSecs (fromSecs secs) = secs := by
  unfold asSecs fromSecs
  rw [Nat.cast_mul]
  norm_num

theorem asSecs_le_iff {t u : Nat} : asSecs t ≤ asSecs u ↔ t ≤ u := by
  unfold asSecs
  rw [div_le_div_iff_of_pos_right (by norm_num), Nat.cast_le]

theorem asSecs_nonneg (t : Nat) : 0 ≤ asSecs t := by
  unfold asSecs
  positivity

theorem refillRate_nonneg (maxRequests periodSecs : Nat) :
    0 ≤ refillRate maxRequests periodSecs := by
  unfold refillRate
  split <;> positivity

/-- Capping what grew by at most `d`. -/
theorem min_le_min_add {x y c d : ℚ} (hgrowth : y ≤ x + d) (hd : 0 ≤ d) :
    min y c ≤ min x c + d := by
  cases le_total x c with
  | inl hx => rw [min_eq_left hx]; exact le_trans (min_le_left y c) hgrowth
  | inr hc => rw [min_eq_right hc]; exact le_trans (min_le_right y c) (by linarith)

/-! ## §2. The level of a bucket. -/

namespace RateBucket

variable (maxRequests periodSecs penaltySecs : Nat)

/-- **What a bucket can grant at a time**: its tokens with what they have refilled
by; of a blocked bucket, the part of the penalty that is over. -/
def level (b : RateBucket) (t : Nat) : ℚ :=
  match b.blockedUntil with
  | none =>
      min (b.tokens + (asSecs t - asSecs b.lastCheck) * refillRate maxRequests periodSecs)
        maxRequests
  | some blocked =>
      min (maxRequests * (1 - (asSecs blocked - asSecs t) / penaltySecs)) maxRequests

/-- The bucket can be found at this time. -/
structure FoundAt (b : RateBucket) (t : Nat) : Prop where
  tokens : 0 ≤ b.tokens
  lastCheck : b.lastCheck ≤ t
  blocked : ∀ blocked, b.blockedUntil = some blocked → blocked ≤ t + fromSecs penaltySecs

/-- The rate at which the level grows: that of the refill or that of the penalty,
whichever is higher. -/
def regainRate : ℚ := maxRequests / (min periodSecs penaltySecs : Nat)

theorem regainRate_nonneg : 0 ≤ regainRate maxRequests periodSecs penaltySecs := by
  unfold regainRate
  positivity

/-- Spread over the period, or over the penalty, the capacity is regained no
faster. -/
theorem div_le_regainRate {periodSecs penaltySecs secs : Nat} (hperiod : 1 ≤ periodSecs)
    (hpenalty : 1 ≤ penaltySecs) (hsecs : min periodSecs penaltySecs ≤ secs) :
    (maxRequests : ℚ) / secs ≤ regainRate maxRequests periodSecs penaltySecs := by
  have hmin : (0 : ℚ) < (min periodSecs penaltySecs : Nat) := by
    exact_mod_cast Nat.lt_min.mpr ⟨hperiod, hpenalty⟩
  have hle : ((min periodSecs penaltySecs : Nat) : ℚ) ≤ secs := by exact_mod_cast hsecs
  exact div_le_div_of_nonneg_left (by positivity) hmin hle

theorem level_le (b : RateBucket) (t : Nat) :
    b.level maxRequests periodSecs penaltySecs t ≤ maxRequests := by
  unfold level
  split <;> exact min_le_right _ _

theorem level_nonneg {penaltySecs : Nat} (hpenalty : 1 ≤ penaltySecs) {b : RateBucket} {t : Nat}
    (hb : b.FoundAt penaltySecs t) : 0 ≤ b.level maxRequests periodSecs penaltySecs t := by
  have hmax : (0 : ℚ) ≤ maxRequests := by positivity
  unfold level
  split
  · have helapsed : 0 ≤ asSecs t - asSecs b.lastCheck :=
      sub_nonneg.mpr (asSecs_le_iff.mpr hb.lastCheck)
    have hrefill := mul_nonneg helapsed (refillRate_nonneg maxRequests periodSecs)
    exact le_min (by linarith [hb.tokens]) hmax
  · next blocked hblocked =>
      -- no more of the penalty is left than all of it
      have hpos : (0 : ℚ) < penaltySecs := by exact_mod_cast hpenalty
      have hleft := asSecs_le_iff.mpr (hb.blocked blocked hblocked)
      rw [asSecs_add, asSecs_fromSecs] at hleft
      have hpart : (asSecs blocked - asSecs t) / penaltySecs ≤ 1 := by
        rw [div_le_one hpos]
        linarith
      exact le_min (mul_nonneg hmax (by linarith)) hmax

/-- **Time raises the level at the regain rate at most.** -/
theorem level_later {periodSecs penaltySecs : Nat} (hperiod : 1 ≤ periodSecs)
    (hpenalty : 1 ≤ penaltySecs) (b : RateBucket) {t t' : Nat} (h : asSecs t ≤ asSecs t') :
    b.level maxRequests periodSecs penaltySecs t' ≤
      b.level maxRequests periodSecs penaltySecs t +
        regainRate maxRequests periodSecs penaltySecs * (asSecs t' - asSecs t) := by
  have helapsed : 0 ≤ asSecs t' - asSecs t := sub_nonneg.mpr h
  have hnonneg := mul_nonneg (regainRate_nonneg maxRequests periodSecs penaltySecs) helapsed
  unfold level
  split
  · have hrefill : refillRate maxRequests periodSecs = maxRequests / periodSecs :=
      if_neg (by omega)
    have hrate := mul_le_mul_of_nonneg_right
      (div_le_regainRate maxRequests hperiod hpenalty (min_le_left periodSecs penaltySecs)) helapsed
    rw [hrefill]
    exact min_le_min_add (by linarith) hnonneg
  · next blocked _ =>
      have hrate := mul_le_mul_of_nonneg_right
        (div_le_regainRate maxRequests hperiod hpenalty (min_le_right periodSecs penaltySecs))
        helapsed
      have hgrowth : (maxRequests : ℚ) * (1 - (asSecs blocked - asSecs t') / penaltySecs) =
          maxRequests * (1 - (asSecs blocked - asSecs t) / penaltySecs) +
            maxRequests / penaltySecs * (asSecs t' - asSecs t) := by
        ring
      exact min_le_min_add (by linarith) hnonneg

/-! ## §3. What a check does to the level. -/

/-- Spending from an unblocked bucket: a grant lowers the level by one, a refusal
leaves nothing. -/
theorem spend_level {penaltySecs : Nat} (hpenalty : 1 ≤ penaltySecs) {b : RateBucket} {t : Nat}
    (hb : b.FoundAt penaltySecs t) (hnone : b.blockedUntil = none) :
    (b.spend t maxRequests periodSecs penaltySecs).2.FoundAt penaltySecs t ∧
      (if (b.spend t maxRequests periodSecs penaltySecs).1 then 1 else 0) +
          (b.spend t maxRequests periodSecs penaltySecs).2.level maxRequests periodSecs
            penaltySecs t ≤
        b.level maxRequests periodSecs penaltySecs t := by
  have hnonneg := level_nonneg maxRequests periodSecs hpenalty hb
  have htokens : min (b.tokens + asSecs (t - b.lastCheck) * refillRate maxRequests periodSecs)
      (maxRequests : ℚ) = b.level maxRequests periodSecs penaltySecs t := by
    unfold level
    rw [hnone, asSecs_sub hb.lastCheck]
  unfold spend
  simp only [htokens]
  by_cases hone : 1 ≤ b.level maxRequests periodSecs penaltySecs t
  · simp only [if_pos hone]
    refine ⟨⟨sub_nonneg.mpr hone, Nat.le_refl t, fun blocked h => ?_⟩, ?_⟩
    · rw [show _ = none from hnone] at h
      exact absurd h (by simp)
    · show 1 + level _ _ _ _ t ≤ _
      unfold level
      simp only [hnone, sub_self, zero_mul, add_zero]
      have hmin := min_le_left (level maxRequests periodSecs penaltySecs b t - 1)
        (maxRequests : ℚ)
      unfold level at hmin
      simp only [hnone] at hmin
      linarith
  · simp only [if_neg hone]
    refine ⟨⟨hnonneg, Nat.le_refl t, fun blocked h => ?_⟩, ?_⟩
    · injection h with h
      rw [← h]
    · have hzero : ((maxRequests : ℚ) * (1 - (asSecs (t + fromSecs penaltySecs) - asSecs t) /
          penaltySecs)) = 0 := by
        have hpos : (penaltySecs : ℚ) ≠ 0 := by
          have h : (0 : ℚ) < penaltySecs := by exact_mod_cast hpenalty
          exact h.ne'
        rw [asSecs_add, asSecs_fromSecs, add_sub_cancel_left, div_self hpos, sub_self, mul_zero]
      show (if false = true then 1 else 0) + min _ _ ≤ _
      rw [hzero]
      have hmin := min_le_left (0 : ℚ) maxRequests
      simp only [Bool.false_eq_true, if_false, zero_add]
      linarith

/-- **A check of a bucket is paid for by its level.** -/
theorem check_level {penaltySecs : Nat} (hpenalty : 1 ≤ penaltySecs) {b : RateBucket} {t : Nat}
    (hb : b.FoundAt penaltySecs t) :
    (b.check t maxRequests periodSecs penaltySecs).2.FoundAt penaltySecs t ∧
      (if (b.check t maxRequests periodSecs penaltySecs).1 then 1 else 0) +
          (b.check t maxRequests periodSecs penaltySecs).2.level maxRequests periodSecs
            penaltySecs t ≤
        b.level maxRequests periodSecs penaltySecs t := by
  unfold check
  cases hblocked : b.blockedUntil with
  | none => exact spend_level maxRequests periodSecs hpenalty hb hblocked
  | some blocked =>
      by_cases hlt : t < blocked
      · simp only [if_pos hlt]
        exact ⟨hb, by simp⟩
      · simp only [if_neg hlt]
        -- the reset bucket is full, and the level said so
        have hreset : ({ b with blockedUntil := none, tokens := maxRequests, lastCheck := t } :
            RateBucket).FoundAt penaltySecs t :=
          ⟨Nat.cast_nonneg _, Nat.le_refl t, fun blocked h => absurd h (by simp)⟩
        have hfull : b.level maxRequests periodSecs penaltySecs t = maxRequests := by
          unfold level
          simp only [hblocked]
          have hover : (asSecs blocked - asSecs t) / penaltySecs ≤ 0 :=
            div_nonpos_of_nonpos_of_nonneg
              (sub_nonpos.mpr (asSecs_le_iff.mpr (Nat.le_of_not_lt hlt))) (Nat.cast_nonneg _)
          have hmax : (0 : ℚ) ≤ maxRequests := Nat.cast_nonneg _
          exact min_eq_right (le_mul_of_one_le_right hmax (by linarith))
        rw [hfull]
        obtain ⟨hfound, hle⟩ := spend_level maxRequests periodSecs hpenalty hreset rfl
        exact ⟨hfound, le_trans hle (level_le _ _ _ _ _)⟩

end RateBucket

/-! ## §4. The bound. -/

namespace RateLimiter

variable (key : String) (maxRequests periodSecs penaltySecs : Nat)

/-- One call of `check` on the key. -/
def checkAt (rl : RateLimiter) (t : Nat) : Bool × RateLimiter :=
  rl.check t key maxRequests periodSecs penaltySecs

/-- The times of the allowed calls, of calls on the key one after another. -/
def allowedTimes (rl : RateLimiter) (times : List Nat) : List Nat :=
  grants (checkAt key maxRequests periodSecs penaltySecs) rl times

/-- What the key can be granted at a time. -/
def level (rl : RateLimiter) (t : Nat) : ℚ :=
  match rl.buckets[key]? with
  | some b => b.level maxRequests periodSecs penaltySecs t
  | none => maxRequests

/-- The key's bucket, if there is one, can be found at this time. -/
def FoundAt (rl : RateLimiter) (t : Nat) : Prop :=
  ∀ b : RateBucket, rl.buckets[key]? = some b → b.FoundAt penaltySecs t

/-- A new bucket can be found at its time, with a full level. -/
theorem fresh_found (t : Nat) : (RateBucket.fresh t maxRequests).FoundAt penaltySecs t :=
  ⟨Nat.cast_nonneg _, Nat.le_refl t, fun blocked h => absurd h (by simp [RateBucket.fresh])⟩

/-- **A check of the key is paid for by its level.** -/
theorem checkAt_level {penaltySecs : Nat} (hpenalty : 1 ≤ penaltySecs) {rl : RateLimiter} {t : Nat}
    (hrl : rl.FoundAt key penaltySecs t) :
    (rl.checkAt key maxRequests periodSecs penaltySecs t).2.FoundAt key penaltySecs t ∧
      (if (rl.checkAt key maxRequests periodSecs penaltySecs t).1 then 1 else 0) +
          (rl.checkAt key maxRequests periodSecs penaltySecs t).2.level key maxRequests periodSecs
            penaltySecs t ≤
        rl.level key maxRequests periodSecs penaltySecs t := by
  unfold checkAt
  obtain hsame | ⟨-, b, hfound, hcheck⟩ := rl.check_cases t key maxRequests periodSecs penaltySecs
  · rw [hsame]
    exact ⟨hrl, by simp⟩
  · rw [hcheck]
    have hb : b.FoundAt penaltySecs t ∧
        b.level maxRequests periodSecs penaltySecs t ≤
          rl.level key maxRequests periodSecs penaltySecs t := by
      unfold level
      cases hfound with
      | inl hsome => rw [hsome]; exact ⟨hrl b hsome, le_refl _⟩
      | inr hfresh =>
          rw [hfresh.1, hfresh.2]
          exact ⟨fresh_found maxRequests penaltySecs t, RateBucket.level_le _ _ _ _ _⟩
    obtain ⟨hfound', hle⟩ := RateBucket.check_level maxRequests periodSecs hpenalty hb.1
    refine ⟨fun b' hb' => ?_, ?_⟩
    · rw [Std.ExtTreeMap.getElem?_insert_self] at hb'
      injection hb' with hb'
      rw [← hb']
      exact hfound'
    · refine le_trans ?_ (le_trans hle hb.2)
      unfold level
      simp only [Std.ExtTreeMap.getElem?_insert_self]
      exact le_refl _

/-- The level of the key is a potential of its checks. -/
def levelPotential {periodSecs penaltySecs : Nat} (hperiod : 1 ≤ periodSecs)
    (hpenalty : 1 ≤ penaltySecs) :
    Potential (checkAt key maxRequests periodSecs penaltySecs) asSecs maxRequests
      (RateBucket.regainRate maxRequests periodSecs penaltySecs) where
  Valid rl t := rl.FoundAt key penaltySecs t
  level rl t := rl.level key maxRequests periodSecs penaltySecs t
  capacity_nonneg := Nat.cast_nonneg _
  rate_nonneg := RateBucket.regainRate_nonneg _ _ _
  level_nonneg := by
    intro rl t hrl
    unfold level
    split
    next b hb => exact RateBucket.level_nonneg maxRequests periodSecs hpenalty (hrl b hb)
    next => exact Nat.cast_nonneg _
  level_le := by
    intro rl t _
    unfold level
    split
    next b _ => exact b.level_le _ _ _ t
    next => exact le_refl _
  valid_later := by
    intro rl t t' hrl h b hb
    obtain ⟨htokens, hlast, hblocked⟩ := hrl b hb
    have h := asSecs_le_iff.mp h
    exact ⟨htokens, Nat.le_trans hlast h, fun blocked hu =>
      Nat.le_trans (hblocked blocked hu) (Nat.add_le_add_right h _)⟩
  level_later := by
    intro rl t t' _ h
    unfold level
    split
    next b _ => exact RateBucket.level_later maxRequests hperiod hpenalty b h
    next =>
      have hnonneg := mul_nonneg (RateBucket.regainRate_nonneg maxRequests periodSecs penaltySecs)
        (sub_nonneg.mpr h)
      linarith
  valid_call := fun hrl => (checkAt_level key maxRequests periodSecs hpenalty hrl).1
  level_call := fun hrl => (checkAt_level key maxRequests periodSecs hpenalty hrl).2

/-- **The rate limit in every window of every run.**  Of the calls on a key that has
no bucket yet, at nondecreasing times, at most `requests + requests · T / min period
penalty` are allowed in any window of length `T`; with a penalty no shorter than
the period that is `requests + requests · T / period`. -/
theorem allowed_le {periodSecs penaltySecs : Nat} (hperiod : 1 ≤ periodSecs)
    (hpenalty : 1 ≤ penaltySecs) {rl : RateLimiter} (hnone : rl.buckets[key]? = none)
    {times : List Nat} (htimes : times.Pairwise (· ≤ ·)) (a : ℚ) {T : ℚ} (hT : 0 ≤ T) :
    ((rl.allowedTimes key maxRequests periodSecs penaltySecs times).countP
        (inWindow asSecs a (a + T)) : ℚ) ≤
      maxRequests + maxRequests * T / (min periodSecs penaltySecs : Nat) := by
  have hvalid : ∀ t ∈ times, (levelPotential key maxRequests hperiod hpenalty).Valid rl t := by
    intro t _ b hb
    rw [hnone] at hb
    exact absurd hb (by simp)
  have hnondec : Nondecreasing asSecs times := htimes.imp fun h => asSecs_le_iff.mpr h
  have hab : a ≤ a + T := le_add_of_nonneg_right hT
  have hle := (levelPotential key maxRequests hperiod hpenalty).grants_le hab times rl hvalid
    hnondec
  have hrate : RateBucket.regainRate maxRequests periodSecs penaltySecs * (a + T - a) =
      maxRequests * T / (min periodSecs penaltySecs : Nat) := by
    unfold RateBucket.regainRate
    ring
  rw [hrate] at hle
  exact hle

/-- **A penalty shorter than the period** lets more through: with one request in
ten seconds and a penalty of one second, the second request within a second is
allowed, where `requests + requests · T / period` is 1.1. -/
theorem allowed_after_penalty :
    ¬ ((new.allowedTimes "r:10.0.0.7" 1 10 1 [0, 0, fromSecs 1]).countP
        (inWindow asSecs 0 (0 + 1)) : ℚ) ≤ 1 + 1 * 1 / 10 := by
  have htwo : (new.allowedTimes "r:10.0.0.7" 1 10 1 [0, 0, fromSecs 1]).countP
      (inWindow asSecs 0 (0 + 1)) = 2 := by
    decide +kernel
  rw [htwo]
  norm_num

/-- The bound at these calls. -/
theorem allowed_le_after_penalty :
    ((new.allowedTimes "r:10.0.0.7" 1 10 1 [0, 0, fromSecs 1]).countP
        (inWindow asSecs 0 (0 + 1)) : ℚ) ≤
      (1 : Nat) + (1 : Nat) * 1 / (min 10 1 : Nat) := by
  have hnone : new.buckets["r:10.0.0.7"]? = none := Std.ExtTreeMap.getElem?_empty
  exact allowed_le "r:10.0.0.7" 1 (by decide) (by decide) hnone (by decide) 0 zero_le_one

/-! ## §5. Bursts, one penalty apart. -/

/-- `k` rounds of one request more than the limit, one penalty apart, from time `t`
on. -/
def rounds (maxRequests penaltySecs : Nat) : Nat → Nat → List Nat
  | _, 0 => []
  | t, k + 1 =>
      List.replicate (maxRequests + 1) t ++ rounds maxRequests penaltySecs (t + fromSecs penaltySecs) k

/-- The key's bucket holds `n` tokens at time `t`. -/
def Holds (rl : RateLimiter) (t n : Nat) : Prop :=
  rl.buckets[key]? = some ⟨t, n, maxRequests, none⟩

/-- The key's next check at time `t` or later finds a full bucket. -/
def FullFrom (rl : RateLimiter) (t : Nat) : Prop :=
  (rl.buckets[key]? = none ∧ rl.buckets.size < maxRateLimitBuckets) ∨
    ∃ (b : RateBucket) (blocked : Nat),
      rl.buckets[key]? = some b ∧ b.blockedUntil = some blocked ∧ blocked ≤ t

/-- Spending at the time of the last check. -/
theorem spend_same_time {maxRequests : Nat} (t n : Nat) (hn : n ≤ maxRequests) :
    (⟨t, n, maxRequests, none⟩ : RateBucket).spend t maxRequests periodSecs penaltySecs =
      if 1 ≤ n then (true, ⟨t, (n - 1 : Nat), maxRequests, none⟩)
      else (false, ⟨t, n, maxRequests, some (t + fromSecs penaltySecs)⟩) := by
  have htokens : min ((n : ℚ) + asSecs (t - t) * refillRate maxRequests periodSecs)
      (maxRequests : ℚ) = n := by
    rw [Nat.sub_self]
    unfold asSecs
    rw [Nat.cast_zero, zero_div, zero_mul, add_zero]
    exact min_eq_left (by exact_mod_cast hn)
  unfold RateBucket.spend
  simp only [htokens]
  by_cases hone : 1 ≤ n
  · have hone' : (1 : ℚ) ≤ n := by exact_mod_cast hone
    rw [if_pos hone', if_pos hone, Nat.cast_sub hone, Nat.cast_one]
  · have hone' : ¬ (1 : ℚ) ≤ n := by exact_mod_cast hone
    rw [if_neg hone', if_neg hone]

/-- A fresh bucket lets its first call through. -/
theorem check_fresh {maxRequests : Nat} (hmax : 1 ≤ maxRequests) (t : Nat) :
    (RateBucket.fresh t maxRequests).check t maxRequests periodSecs penaltySecs =
      (true, ⟨t, (maxRequests - 1 : Nat), maxRequests, none⟩) := by
  have hspend := spend_same_time periodSecs penaltySecs t maxRequests (Nat.le_refl maxRequests)
  rw [if_pos hmax] at hspend
  exact hspend

/-- A check of a key that has a bucket. -/
theorem checkAt_of_some {maxRequests : Nat} (hmax : 1 ≤ maxRequests) {rl : RateLimiter}
    {b : RateBucket} (hb : rl.buckets[key]? = some b) (t : Nat) :
    rl.checkAt key maxRequests periodSecs penaltySecs t =
      ((b.check t maxRequests periodSecs penaltySecs).1,
        ⟨rl.buckets.insert key (b.check t maxRequests periodSecs penaltySecs).2⟩) := by
  have hkey : rl.buckets.contains key = true := by
    rw [Std.ExtTreeMap.contains_eq_isSome_getElem?, hb]
    rfl
  unfold checkAt check
  rw [if_neg (by omega), hkey]
  simp only [Bool.not_true, Bool.false_and, Bool.false_eq_true, if_false, hb, Option.getD_some]

/-- **A full bucket**: the check is allowed and takes the first token. -/
theorem checkAt_of_full {maxRequests : Nat} (hmax : 1 ≤ maxRequests) {rl : RateLimiter} {t : Nat}
    (hfull : rl.FullFrom key t) :
    (rl.checkAt key maxRequests periodSecs penaltySecs t).1 = true ∧
      (rl.checkAt key maxRequests periodSecs penaltySecs t).2.Holds key maxRequests t
        (maxRequests - 1) := by
  have hfresh := check_fresh periodSecs penaltySecs hmax t
  unfold Holds
  obtain ⟨hnone, hroom⟩ | ⟨b, blocked, hb, hblocked, hover⟩ := hfull
  · have hkey : rl.buckets.contains key = false := by
      rw [Std.ExtTreeMap.contains_eq_isSome_getElem?, hnone]
      rfl
    have hroom : decide (maxRateLimitBuckets ≤ rl.buckets.size) = false :=
      decide_eq_false (by omega)
    unfold checkAt check
    rw [if_neg (by omega), hkey, hroom]
    simp only [Bool.not_false, Bool.and_false, Bool.false_eq_true, if_false, hnone,
      Option.getD_none, hfresh]
    exact ⟨trivial, Std.ExtTreeMap.getElem?_insert_self⟩
  · -- the penalty is over, so the bucket is reset
    have hreset : b.check t maxRequests periodSecs penaltySecs =
        (true, ⟨t, (maxRequests - 1 : Nat), maxRequests, none⟩) :=
      (check_of_expired ⟨blocked, hblocked, hover⟩ _ _ _).trans hfresh
    rw [checkAt_of_some key periodSecs penaltySecs hmax hb, hreset]
    exact ⟨rfl, Std.ExtTreeMap.getElem?_insert_self⟩

/-- The tokens left are spent one by one; the check after them starts the penalty. -/
theorem allowed_spend_all {maxRequests : Nat} (hmax : 1 ≤ maxRequests) (t n : Nat) :
    ∀ rl : RateLimiter, n ≤ maxRequests → rl.Holds key maxRequests t n →
      ∃ rl' : RateLimiter, rl'.FullFrom key (t + fromSecs penaltySecs) ∧ ∀ rest : List Nat,
        (rl.allowedTimes key maxRequests periodSecs penaltySecs
            (List.replicate (n + 1) t ++ rest)).length =
          n + (rl'.allowedTimes key maxRequests periodSecs penaltySecs rest).length := by
  induction n with
  | zero =>
      intro rl _ hholds
      have hspend := spend_same_time periodSecs penaltySecs t 0 (Nat.zero_le maxRequests)
      rw [if_neg (by omega)] at hspend
      have hcheck := checkAt_of_some key periodSecs penaltySecs hmax hholds t
      simp only [RateBucket.check, hspend] at hcheck
      refine ⟨(rl.checkAt key maxRequests periodSecs penaltySecs t).2, ?_, fun rest => ?_⟩
      · refine Or.inr ⟨⟨t, (0 : Nat), maxRequests, some (t + fromSecs penaltySecs)⟩,
          t + fromSecs penaltySecs, ?_, rfl, Nat.le_refl _⟩
        rw [hcheck]
        exact Std.ExtTreeMap.getElem?_insert_self
      · show (if (rl.checkAt _ _ _ _ t).1 = true then _ else _ : List Nat).length = _
        rw [hcheck, if_neg Bool.false_ne_true, Nat.zero_add]
        rfl
  | succ n ih =>
      intro rl hn hholds
      have hspend := spend_same_time periodSecs penaltySecs t (n + 1) hn
      rw [if_pos (by omega), Nat.add_sub_cancel] at hspend
      have hcheck := checkAt_of_some key periodSecs penaltySecs hmax hholds t
      simp only [RateBucket.check, hspend] at hcheck
      obtain ⟨rl', hfull, hrest⟩ := ih (rl.checkAt key maxRequests periodSecs penaltySecs t).2
        (by omega) (by rw [hcheck]; exact Std.ExtTreeMap.getElem?_insert_self)
      refine ⟨rl', hfull, fun rest => ?_⟩
      have hone : (rl.checkAt key maxRequests periodSecs penaltySecs t).1 = true := by rw [hcheck]
      rw [List.replicate_succ, List.cons_append]
      show (if (rl.checkAt _ _ _ _ t).1 = true then _ else _ : List Nat).length = _
      rw [if_pos hone, List.length_cons]
      have hrest := hrest rest
      unfold allowedTimes at hrest ⊢
      omega

/-- **Every round is a full burst.**  `k` rounds span `k - 1` penalties and bring
`k · requests` allowed calls, whatever the period: with a penalty shorter than the
period that is more than `requests + requests · T / period`, and without one it is
no bound at all. -/
theorem allowed_rounds {maxRequests : Nat} (hmax : 1 ≤ maxRequests) (k : Nat) :
    ∀ (rl : RateLimiter) (t : Nat), rl.FullFrom key t →
      (rl.allowedTimes key maxRequests periodSecs penaltySecs
        (rounds maxRequests penaltySecs t k)).length = k * maxRequests := by
  induction k with
  | zero => intro rl t _; exact (Nat.zero_mul maxRequests).symm
  | succ k ih =>
      intro rl t hfull
      obtain ⟨hone, hholds⟩ := checkAt_of_full key periodSecs penaltySecs hmax hfull
      obtain ⟨rl', hfull', hrest⟩ := allowed_spend_all key periodSecs penaltySecs hmax t
        (maxRequests - 1) _ (Nat.sub_le _ _) hholds
      have hround : List.replicate (maxRequests + 1) t =
          t :: List.replicate (maxRequests - 1 + 1) t := by
        rw [Nat.sub_add_cancel hmax, List.replicate_succ]
      have hrest := hrest (rounds maxRequests penaltySecs (t + fromSecs penaltySecs) k)
      have ih := ih rl' (t + fromSecs penaltySecs) hfull'
      unfold rounds
      rw [hround, List.cons_append]
      show (if (rl.checkAt _ _ _ _ t).1 = true then _ else _ : List Nat).length = _
      rw [if_pos hone, List.length_cons, Nat.succ_mul]
      unfold allowedTimes at hrest ih
      omega

end RateLimiter

end DockerProxy.Limiter
