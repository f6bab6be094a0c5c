/-
  DockerProxy.Limiter.RateSilent — `cleanup` of the rate limiter is unobservable.

  A bucket that `cleanup` drops has a penalty that is over: it holds at most a
  thousandth less than its capacity, but a token was taken from it or it was refused
  one, so it is the second (`Spent`).  A later check of such a bucket first fills it
  up, and so does what a check of a key without a bucket does (`check_of_expired`).
  So the limiter without the cleanups simulates the one with them.
-/
import DockerProxy.Lib.Eviction
import DockerProxy.Lib.Silent
import DockerProxy.Limiter.Rate

namespace DockerProxy.Limiter

open DockerProxy.Lib

/-! ## §1. What every stored bucket has. -/

section

-- a property that every bucket has that was spent from
variable {P : RateBucket → Prop}
  (hspend : ∀ (b : RateBucket) (now maxRequests periodSecs penaltySecs : Nat), 1 ≤ maxRequests →
    P (b.spend now maxRequests periodSecs penaltySecs).2)

include hspend

/-- A checked bucket was spent from, or is the one that was there. -/
theorem check_of_spent {b : RateBucket} (now : Nat) {maxRequests : Nat}
    (periodSecs penaltySecs : Nat) (hmax : 1 ≤ maxRequests)
    (hb : P b ∨ b = RateBucket.fresh now maxRequests) :
    P (b.check now maxRequests periodSecs penaltySecs).2 := by
  cases hb with
  | inr hfresh =>
      have hcheck : b.check now maxRequests periodSecs penaltySecs =
          b.spend now maxRequests periodSecs penaltySecs := by
        rw [hfresh]
        rfl
      rw [hcheck]
      exact hspend b now maxRequests periodSecs penaltySecs hmax
  | inl hb =>
      obtain hsame | ⟨b', -, hcheck⟩ := b.check_cases now maxRequests periodSecs penaltySecs
      · rw [hsame]
        exact hb
      · rw [hcheck]
        exact hspend b' now maxRequests periodSecs penaltySecs hmax

/-- A step keeps it of all stored buckets. -/
theorem RateLimiter.step_of_spent (rl : RateLimiter) (e : RateEvent)
    (h : ∀ (key : String) (b : RateBucket), rl.buckets[key]? = some b → P b) :
    ∀ (key : String) (b : RateBucket), (rl.step e).buckets[key]? = some b → P b := by
  intro key' b' hb'
  cases e with
  | cleanup now =>
      have hb' : (rl.cleanup now).buckets[key']? = some b' := hb'
      rw [RateLimiter.getElem_cleanup, Option.filter_eq_some_iff] at hb'
      exact h key' b' hb'.1
  | check now key maxRequests periodSecs penaltySecs =>
      have hb' : (rl.check now key maxRequests periodSecs penaltySecs).2.buckets[key']? =
          some b' := hb'
      obtain hsame | ⟨hmax, b, hfound, hcheck⟩ :=
        rl.check_cases now key maxRequests periodSecs penaltySecs
      · rw [hsame] at hb'
        exact h key' b' hb'
      · rw [hcheck, Std.ExtTreeMap.getElem?_insert] at hb'
        split at hb'
        · injection hb' with hb'
          rw [← hb']
          exact check_of_spent hspend now periodSecs penaltySecs hmax
            (hfound.imp (h key b) And.right)
        · exact h key' b' hb'

/-- **What every bucket has that was spent from, every stored bucket has.** -/
theorem RateLimiter.stored_of_spent {rl : RateLimiter} (h : rl.Reachable) :
    ∀ (key : String) (b : RateBucket), rl.buckets[key]? = some b → P b := by
  obtain ⟨events, rfl⟩ := h
  refine @run_invariant _ _ RateLimiter.step
    (fun rl => ∀ (key : String) (b : RateBucket), rl.buckets[key]? = some b → P b)
    (RateLimiter.step_of_spent hspend) events RateLimiter.new ?_
  intro key b hb
  have hnone : RateLimiter.new.buckets[key]? = none := Std.ExtTreeMap.getElem?_empty
  rw [hnone] at hb
  exact absurd hb (by simp)

end

/-! ## §2. What `cleanup` drops. -/

/-- A bucket is dropped exactly when its penalty, if any, is over and it stored
at most a thousandth less than its capacity. -/
theorem retained_eq_false_iff (b : RateBucket) (now : Nat) :
    b.retained now = false ↔
      (∀ blocked, b.blockedUntil = some blocked → blocked ≤ now) ∧
        b.maxTokens - 1 / 1000 ≤ b.tokens := by
  unfold RateBucket.retained
  cases b.blockedUntil with
  | none => simp
  | some blocked => simp

/-- A token was taken from the bucket, or a penalty was started for want of one. -/
def Spent (b : RateBucket) : Prop :=
  ∃ n : Nat, b.maxTokens = n ∧ (b.tokens ≤ n - 1 ∨ b.blockedUntil.isSome = true)

theorem spend_spent (b : RateBucket) (now maxRequests periodSecs penaltySecs : Nat) :
    Spent (b.spend now maxRequests periodSecs penaltySecs).2 := by
  unfold RateBucket.spend
  have hle : min (b.tokens + asSecs (now - b.lastCheck) * refillRate maxRequests periodSecs)
      (maxRequests : ℚ) ≤ maxRequests := min_le_right _ _
  by_cases hone : 1 ≤ min (b.tokens + asSecs (now - b.lastCheck) *
      refillRate maxRequests periodSecs) (maxRequests : ℚ)
  · simp only [if_pos hone]
    refine ⟨maxRequests, rfl, Or.inl ?_⟩
    show _ - 1 ≤ (maxRequests : ℚ) - 1
    linarith
  · simp only [if_neg hone]
    exact ⟨maxRequests, rfl, Or.inr rfl⟩

theorem Expired.later {now now' : Nat} {b : RateBucket} (h : Expired now b) (hle : now ≤ now') :
    Expired now' b := by
  obtain ⟨u, hu, hnow⟩ := h
  exact ⟨u, hu, by omega⟩

/-- **What `cleanup` drops has a penalty that is over.** -/
theorem expired_of_not_retained {b : RateBucket} (hspent : Spent b) {now : Nat}
    (h : b.retained now = false) : Expired now b := by
  obtain ⟨hover, hfull⟩ := (retained_eq_false_iff b now).mp h
  obtain ⟨n, hmax, htokens⟩ := hspent
  rw [hmax] at hfull
  cases htokens with
  | inl htaken =>
      -- a whole token is more than the margin
      have hno : (n : ℚ) - 1 / 1000 ≤ n - 1 := le_trans hfull htaken
      linarith
  | inr hblocked =>
      obtain ⟨u, hu⟩ := Option.isSome_iff_exists.mp hblocked
      exact ⟨u, hu, hover u hu⟩

/-! ## §3. The limiter without the cleanups simulates the one with them. -/

namespace RateEvent

/-- The clock reading of an event. -/
def time : RateEvent → Nat
  | .check now _ _ _ _ | .cleanup now => now

def isCleanup : RateEvent → Bool
  | .check _ _ _ _ _ => false
  | .cleanup _ => true

end RateEvent

namespace RateLimiter

/-- What the caller of a check is told. -/
def answer (rl : RateLimiter) : RateEvent → Option Bool
  | .check now key maxRequests periodSecs penaltySecs =>
      some (rl.check now key maxRequests periodSecs penaltySecs).1
  | .cleanup _ => none

/-- There is room for another key. -/
def HasRoom (rl : RateLimiter) : Prop := rl.buckets.size < maxRateLimitBuckets

instance (rl : RateLimiter) : Decidable rl.HasRoom := inferInstanceAs (Decidable (_ < _))

/-- With room a check is the check of the key's bucket, or of a fresh one. -/
theorem check_of_hasRoom {rl : RateLimiter} (h : rl.HasRoom) (now : Nat) (key : String)
    {maxRequests : Nat} (hmax : maxRequests ≠ 0) (periodSecs penaltySecs : Nat) :
    rl.check now key maxRequests periodSecs penaltySecs =
      let r := ((rl.buckets[key]?).getD (.fresh now maxRequests)).check now maxRequests periodSecs
        penaltySecs
      (r.1, ⟨rl.buckets.insert key r.2⟩) := by
  unfold check
  have hroom : decide (maxRateLimitBuckets ≤ rl.buckets.size) = false := by
    unfold HasRoom at h
    exact decide_eq_false (by omega)
  rw [if_neg hmax, hroom, Bool.and_false]
  rfl

/-- **The simulation**: with the cleanups, some buckets are missing whose penalty is
over by now. -/
def Simulates (t : Nat) (rl rl' : RateLimiter) : Prop :=
  (∀ (key : String) (b : RateBucket), rl.buckets[key]? = some b → Spent b) ∧
    Evicted (Expired t) rl.buckets rl'.buckets

/-- A check answers alike, and keeps the simulation. -/
theorem simulates_check {t now : Nat} {rl rl' : RateLimiter} (h : Simulates t rl rl')
    (ht : t ≤ now) (hroom : rl.HasRoom) (key : String) (maxRequests periodSecs penaltySecs : Nat) :
    (rl.check now key maxRequests periodSecs penaltySecs).1 =
        (rl'.check now key maxRequests periodSecs penaltySecs).1 ∧
      Simulates now (rl.check now key maxRequests periodSecs penaltySecs).2
        (rl'.check now key maxRequests periodSecs penaltySecs).2 := by
  obtain ⟨hspent, hevicted⟩ := h
  have hspent' := step_of_spent (fun b now n periodSecs penaltySecs _ =>
    spend_spent b now n periodSecs penaltySecs) rl
      (.check now key maxRequests periodSecs penaltySecs) hspent
  have hevicted := hevicted.mono (fun b hb => hb.later ht)
  -- a rule that allows nothing refuses before it looks at the table
  by_cases hmax : maxRequests = 0
  · have hzero : ∀ rl : RateLimiter,
        rl.check now key maxRequests periodSecs penaltySecs = (false, rl) := fun rl => if_pos hmax
    rw [hzero, hzero]
    exact ⟨rfl, hspent, hevicted⟩
  · have hroom' : rl'.HasRoom := Nat.lt_of_le_of_lt hevicted.size_le hroom
    -- the bucket that is checked: the same, or a missing one in place of an expired one
    have hsame : ((rl.buckets[key]?).getD (.fresh now maxRequests)).check now maxRequests periodSecs
        penaltySecs = ((rl'.buckets[key]?).getD (.fresh now maxRequests)).check now maxRequests
          periodSecs penaltySecs := by
      obtain hsame | ⟨hnone, b, hb, hexpired⟩ := hevicted key
      · rw [hsame]
      · rw [hnone, hb]
        exact check_of_expired hexpired maxRequests periodSecs penaltySecs
    refine ⟨?_, hspent', ?_⟩
    · rw [check_of_hasRoom hroom now key hmax, check_of_hasRoom hroom' now key hmax]
      simp only [hsame]
    · rw [check_of_hasRoom hroom now key hmax, check_of_hasRoom hroom' now key hmax]
      simp only [hsame]
      exact hevicted.insert key _

/-- A cleanup keeps the simulation. -/
theorem simulates_cleanup {t now : Nat} {rl rl' : RateLimiter} (h : Simulates t rl rl')
    (ht : t ≤ now) : Simulates now rl (rl'.cleanup now) :=
  ⟨h.1, (h.2.mono fun _ hb => hb.later ht).filter fun key b hb hdropped =>
    expired_of_not_retained (h.1 key b hb) hdropped⟩

/-- **Cleanup is unobservable**: from every reachable limiter, cleanups at any points of
a run whose clock does not go back and which has room for its keys change the answer
of no check. -/
theorem cleanup_unobservable {rl : RateLimiter} (h : rl.Reachable) {events : List RateEvent}
    (hsorted : events.Pairwise fun e e' => e.time ≤ e'.time)
    (hroom : Along step (fun rl _ => rl.HasRoom) rl (events.filter fun e => !e.isCleanup)) :
    answers step answer rl events =
      answers step answer rl (events.filter fun e => !e.isCleanup) := by
  have hspent := stored_of_spent (fun b now n periodSecs penaltySecs _ =>
    spend_spent b now n periodSecs penaltySecs) h
  refine @answers_of_simulation _ _ _ step answer RateEvent.time RateEvent.isCleanup
    (fun rl _ => rl.HasRoom) Simulates ?_ ?_ events 0 rl rl ⟨hspent, Evicted.refl _ _⟩
    (fun e _ => Nat.zero_le _) hsorted hroom
  · intro t rl rl' e hsim ht hcall hroom
    cases e with
    | cleanup now => exact absurd hcall (by simp [RateEvent.isCleanup])
    | check now key maxRequests periodSecs penaltySecs =>
        obtain ⟨hanswer, hsim⟩ :=
          simulates_check hsim ht hroom key maxRequests periodSecs penaltySecs
        exact ⟨congrArg some hanswer, hsim⟩
  · intro t rl rl' e hsim ht hcleanup
    cases e with
    | check now key maxRequests periodSecs penaltySecs =>
        exact absurd hcleanup (by simp [RateEvent.isCleanup])
    | cleanup now => exact ⟨rfl, simulates_cleanup hsim ht⟩

/-- A key that is refused just before its token is back, and whose bucket is dropped
when the penalty is over. -/
theorem cleanup_unobservable_after_penalty :
    answers step answer new
        [.check 0 "k" 1 1 1, .check 999500000 "k" 1 1 1, .cleanup 2000000000,
          .check 2000000000 "k" 1 1 1] =
      answers step answer new
        [.check 0 "k" 1 1 1, .check 999500000 "k" 1 1 1, .check 2000000000 "k" 1 1 1] :=
  @cleanup_unobservable new ⟨[], rfl⟩
    [.check 0 "k" 1 1 1, .check 999500000 "k" 1 1 1, .cleanup 2000000000,
      .check 2000000000 "k" 1 1 1] (by decide) (by decide +kernel)

end RateLimiter

end DockerProxy.Limiter
