/-
  DockerProxy.Limiter.RateCleanup — which idle buckets `cleanup` reclaims.

  `check` stores what is left AFTER a request took its token, and refills only
  at the next check; `cleanup` compares the stored tokens, not the refilled
  ones.  So a stored bucket lacks a token (`Stored`), and `cleanup` can only drop
  one of capacity 1 whose last check was refused by a rounding margin, or one so
  large that a double does not tell it from itself less one token
  (`cleanup_reclaims_iff`).  Every other bucket stays for good, and once the
  table is full of them no new key is ever served (`check_refused_of_saturated`).
-/
import DockerProxy.Limiter.RateF64

namespace DockerProxy.Limiter

open DockerProxy.Lib

-- the readings of an `Instant` are below `instantEnd`
variable (instantEnd : Nat)

/-! ## §1. A stored bucket lacks a token. -/

/-- **What every stored bucket satisfies**: its capacity is a positive number of
requests, and a token was taken from it or there was none to take. -/
def Stored (b : RateBucket) : Prop :=
  ∃ n : Nat, 1 ≤ n ∧ b.maxTokens = binary64.ofNat n ∧
    (b.tokens ≤ binary64.sub b.maxTokens 1 ∨ b.tokens < 1)

/-- What was written before a panic is as stored. -/
theorem stored_penalized {b : RateBucket} (h : Stored b) (ends : Option Nat) :
    Stored (b.penalized ends).2 := by
  cases ends with
  | none => exact h
  | some blocked => exact h

theorem spendOrPanic_stored (b : RateBucket) (now : Nat) {maxRequests : Nat} (rate : ℚ)
    (penaltySecs : Nat) (hmax : 1 ≤ maxRequests) :
    Stored (b.spendOrPanic binary64 instantEnd now (binary64.ofNat maxRequests) rate
      penaltySecs).2 := by
  obtain ⟨-, hspend⟩ | ⟨hless, hspend⟩ := b.spendOrPanic_cases binary64 instantEnd now
    (binary64.ofNat maxRequests) rate penaltySecs
  · -- the refill left at most the capacity
    rw [hspend]
    refine ⟨maxRequests, hmax, rfl, Or.inl ?_⟩
    exact Rounding.round_mono (sub_le_sub_right (min_le_right _ _) 1)
  · rw [hspend]
    exact stored_penalized ⟨maxRequests, hmax, rfl, Or.inr hless⟩ _

/-- A checked bucket was spent from, or is the one that was there. -/
theorem checkOrPanic_stored {b : RateBucket} (now : Nat) {maxRequests : Nat} (rate : ℚ)
    (penaltySecs : Nat) (hmax : 1 ≤ maxRequests)
    (hb : Stored b ∨ b = RateBucket.full now (binary64.ofNat maxRequests)) :
    Stored (b.checkOrPanic binary64 instantEnd now (binary64.ofNat maxRequests) rate
      penaltySecs).2 := by
  obtain hsame | ⟨b', -, hcheck⟩ := b.checkOrPanic_cases binary64 instantEnd now
    (binary64.ofNat maxRequests) rate penaltySecs
  · cases hb with
    | inl hb =>
        rw [hsame]
        exact hb
    | inr hfull =>
        -- a fresh bucket has no penalty, so it is spent from
        rw [hfull]
        exact spendOrPanic_stored instantEnd _ now rate penaltySecs hmax
  · rw [hcheck]
    exact spendOrPanic_stored instantEnd b' now rate penaltySecs hmax

namespace RateLimiter

/-- **The reachable limiters**: whatever the keys, the parameters and the clock readings of
the calls that were made, some of which may have panicked. -/
def ReachableF64 (rl : RateLimiter) : Prop :=
  ∃ events, rl = run (stepOrPanic binary64 instantEnd) new events

/-- Every stored bucket satisfies the invariant. -/
def Inv (rl : RateLimiter) : Prop :=
  ∀ (key : String) (b : RateBucket), rl.buckets[key]? = some b → Stored b

/-- A step keeps the invariant. -/
theorem inv_step (rl : RateLimiter) (e : RateEvent) (h : rl.Inv) :
    (rl.stepOrPanic binary64 instantEnd e).Inv := by
  intro key' b' hb'
  cases e with
  | cleanup now =>
      have hb' : (rl.cleanupF64 binary64 now).buckets[key']? = some b' := hb'
      rw [getElem_cleanupF64, Option.filter_eq_some_iff] at hb'
      exact h key' b' hb'.1
  | check now key maxRequests periodSecs penaltySecs =>
      have hb' : (rl.checkOrPanic binary64 instantEnd now key maxRequests periodSecs
          penaltySecs).2.buckets[key']? = some b' := hb'
      obtain hsame | ⟨hmax, b, hfound, hcheck⟩ := rl.checkOrPanic_cases binary64 instantEnd now
        key maxRequests periodSecs penaltySecs
      · rw [hsame] at hb'
        exact h key' b' hb'
      · rw [hcheck, Std.ExtTreeMap.getElem?_insert] at hb'
        split at hb'
        · injection hb' with hb'
          rw [← hb']
          exact checkOrPanic_stored instantEnd now _ penaltySecs hmax
            (hfound.imp (h key b) And.right)
        · exact h key' b' hb'

/-- **Every reachable limiter satisfies the invariant.** -/
theorem inv_of_reachable {rl : RateLimiter} (h : rl.ReachableF64 instantEnd) : rl.Inv := by
  obtain ⟨events, rfl⟩ := h
  refine run_invariant (I := Inv) _ (inv_step instantEnd) events new ?_
  intro key b hb
  have hnone : new.buckets[key]? = none := Std.ExtTreeMap.getElem?_empty
  rw [hnone] at hb
  exact absurd hb (by simp)

end RateLimiter

/-! ## §2. What `cleanup` drops. -/

/-- A bucket is dropped exactly when its penalty, if any, is over and it stored its
capacity but for the margin. -/
theorem retainedF64_eq_false_iff (b : RateBucket) (now : Nat) :
    b.retainedF64 binary64 now = false ↔
      (∀ blocked, b.blockedUntil = some blocked → blocked ≤ now) ∧
        binary64.sub b.maxTokens (margin binary64) ≤ b.tokens := by
  unfold RateBucket.retainedF64
  cases b.blockedUntil with
  | none => simp
  | some blocked => simp

/-- The capacity of a stored bucket that is not large is an integer. -/
theorem Stored.eq_natCast {b : RateBucket} (h : Stored b) (hle : b.maxTokens ≤ 2 ^ 53) :
    ∃ n : Nat, 1 ≤ n ∧ n ≤ 2 ^ 53 ∧ b.maxTokens = n := by
  obtain ⟨n, hn, hmax, -⟩ := h
  by_cases hsmall : n ≤ 2 ^ 53
  · exact ⟨n, hn, hsmall, hmax.trans (Rounding.round_of_mem (binary64_natCast hsmall))⟩
  · -- a larger number is not rounded below 2 ^ 53
    have hlow : ((2 ^ 53 : Nat) : ℚ) ≤ binary64.ofNat n :=
      Rounding.le_round (binary64_natCast (le_refl _)) (by exact_mod_cast (not_le.mp hsmall).le)
    refine ⟨2 ^ 53, by norm_num, le_refl _, le_antisymm (by exact_mod_cast hle) ?_⟩
    rw [hmax]
    exact hlow

/-- The margin is less than a quarter of a token. -/
theorem margin_bounds : 0 ≤ margin binary64 ∧ margin binary64 ≤ 1 / 4 := by decide +kernel

/-- **The buckets that `cleanup` finds full**, by their capacity and what they stored: one
of a single token of which at least 0.999 is there, and one that is too large for a token
to be missed. -/
def FoundFull (b : RateBucket) : Prop :=
  b.maxTokens = 1 ∧ binary64.round (999 / 1000) ≤ b.tokens ∨
    2 ^ 53 < b.maxTokens ∧ b.tokens = b.maxTokens

/-- **What `cleanup` takes for full**, in closed form. -/
theorem Stored.foundFull_iff {b : RateBucket} (h : Stored b) :
    binary64.sub b.maxTokens (margin binary64) ≤ b.tokens ↔ FoundFull b := by
  obtain ⟨hzero, hquarter⟩ := margin_bounds
  unfold FoundFull
  by_cases hlarge : 2 ^ 53 < b.maxTokens
  · -- neither the margin nor a token makes a difference
    obtain ⟨n, hn, hmax, htokens⟩ := h
    have hmem : binary64.format b.maxTokens := hmax ▸ binary64.round_mem _
    have hle : b.tokens ≤ b.maxTokens := by
      cases htokens with
      | inl htaken => exact le_trans htaken (Rounding.round_le hmem (by linarith))
      | inr hless => linarith
    rw [binary64_sub_eq_self hmem hlarge hzero (by linarith)]
    constructor
    · exact fun hge => Or.inr ⟨hlarge, le_antisymm hle hge⟩
    · rintro (⟨hone, -⟩ | ⟨-, heq⟩)
      · rw [hone] at hlarge
        exact absurd hlarge (by norm_num)
      · exact heq.ge
  · obtain ⟨n, hn, hn53, hmax⟩ := h.eq_natCast (not_lt.mp hlarge)
    rw [hmax]
    by_cases hone : n = 1
    · have hlimit : binary64.sub ((1 : Nat) : ℚ) (margin binary64) =
          binary64.round (999 / 1000) := by decide +kernel
      rw [hone, hlimit]
      constructor
      · exact fun hge => Or.inl ⟨Nat.cast_one, hge⟩
      · rintro (⟨-, hge⟩ | ⟨hlt, -⟩)
        · exact hge
        · exact absurd hlt (by norm_num)
    · -- a token is missed, and the margin is less
      have htwo : (2 : ℚ) ≤ n := by exact_mod_cast (show 2 ≤ n by omega)
      have hlimit : 2 * ((n : ℚ) - margin binary64) - n ≤ binary64.sub n (margin binary64) :=
        Rounding.two_mul_sub_le_round (binary64_natCast hn53) (by linarith)
      have hpred : binary64.sub (n : ℚ) 1 = n - 1 := by
        have hcast : (n : ℚ) - 1 = ((n - 1 : Nat) : ℚ) := by rw [Nat.cast_sub hn, Nat.cast_one]
        show binary64.round ((n : ℚ) - 1) = n - 1
        rw [hcast]
        exact Rounding.round_of_mem (binary64_natCast (by omega))
      have hless : b.tokens ≤ n - 1 := by
        obtain ⟨-, -, -, htaken | hless⟩ := h
        · rwa [hmax, hpred] at htaken
        · linarith
      refine iff_of_false (by linarith) ?_
      rintro (⟨h1, -⟩ | ⟨hlt, -⟩)
      · linarith
      · exact absurd hlt (by rw [← hmax]; exact hlarge)

/-! ## §3. Idle buckets. -/

/-- **An idle bucket**: its penalty, if any, has expired, and by now it would
have refilled to its capacity, as computed with `rounding`. -/
def RateBucket.Idle (rounding : Rounding) (b : RateBucket) (now periodSecs : Nat) : Prop :=
  (∀ blocked, b.blockedUntil = some blocked → blocked ≤ now) ∧
    b.maxTokens ≤ b.refilled rounding now (refillRateF64 rounding b.maxTokens periodSecs)

namespace RateLimiter

/-- After `cleanup` at `now` no idle bucket remains.  `period` gives the period,
in seconds, that each key is checked with. -/
def Reclaimed (rounding : Rounding) (rl : RateLimiter) (period : String → Nat) (now : Nat) :
    Prop :=
  ∀ (key : String) (b : RateBucket), (rl.cleanupF64 binary64 now).buckets[key]? = some b →
    ¬ b.Idle rounding now (period key)

/-- **Reclaiming, exactly.**  In every reachable limiter, at every time, `cleanup` reclaims
all idle buckets if and only if each of them has capacity 1 and stored at least 0.999 of
its one token, or has a capacity above 2 ^ 53 and stored all of it.  Whether `f64` or exact
numbers say which buckets are idle makes no difference. -/
theorem cleanup_reclaims_iff {rl : RateLimiter} (h : rl.ReachableF64 instantEnd)
    (rounding : Rounding) (period : String → Nat) (now : Nat) :
    rl.Reclaimed rounding period now ↔
      ∀ (key : String) (b : RateBucket), rl.buckets[key]? = some b →
        b.Idle rounding now (period key) → FoundFull b := by
  have hinv := inv_of_reachable instantEnd h
  constructor
  · intro hreclaimed key b hb hidle
    cases hret : b.retainedF64 binary64 now with
    | true =>
        -- a retained idle bucket is what was excluded
        refine absurd hidle (hreclaimed key b ?_)
        rw [getElem_cleanupF64, hb, Option.filter_some, hret, if_pos rfl]
    | false =>
        exact (hinv key b hb).foundFull_iff.mp ((retainedF64_eq_false_iff b now).mp hret).2
  · intro hcond key b hb hidle
    rw [getElem_cleanupF64, Option.filter_eq_some_iff] at hb
    obtain ⟨hb, hret⟩ := hb
    have hfull := (hinv key b hb).foundFull_iff.mpr (hcond key b hb hidle)
    have hdrop := (retainedF64_eq_false_iff b now).mpr ⟨hidle.1, hfull⟩
    rw [hdrop] at hret
    exact absurd hret (by simp)

/-- One request at time 0 under the default rule, then nothing for an hour: the
bucket is idle, and `cleanup` keeps it. -/
theorem cleanup_keeps_idle :
    ¬ (run (stepOrPanic binary64 (fromSecs (2 ^ 63))) new
      [.check 0 "10.0.0.7" 50 30 30]).Reclaimed binary64 (fun _ => 30) (fromSecs 3600) := by
  intro hreclaimed
  have hkept : ((run (stepOrPanic binary64 (fromSecs (2 ^ 63))) new
      [.check 0 "10.0.0.7" 50 30 30]).cleanupF64 binary64
        (fromSecs 3600)).buckets["10.0.0.7"]? = some ⟨0, 49, 50, none⟩ := by decide +kernel
  refine hreclaimed "10.0.0.7" _ hkept ⟨by simp, ?_⟩
  decide +kernel

/-- The bucket of a capacity-1 rule, refused 999.5 ms after its one token was
taken, is dropped once its penalty is over. -/
theorem cleanup_reclaims_capacity_one :
    (run (stepOrPanic binary64 (fromSecs (2 ^ 63))) new [.check 0 "10.0.0.7" 1 1 5,
        .check 999500000 "10.0.0.7" 1 1 5]).Reclaimed binary64 (fun _ => 1) (fromSecs 60) ↔
      ∀ (key : String) (b : RateBucket), (run (stepOrPanic binary64 (fromSecs (2 ^ 63))) new
          [.check 0 "10.0.0.7" 1 1 5, .check 999500000 "10.0.0.7" 1 1 5]).buckets[key]? = some b →
        b.Idle binary64 (fromSecs 60) 1 → FoundFull b :=
  cleanup_reclaims_iff (fromSecs (2 ^ 63)) ⟨_, rfl⟩ binary64 (fun _ => 1) (fromSecs 60)

-- three requests in two seconds, refused 3 ms early: kept; 2 ^ 60 requests: dropped
example :
    ((run (stepOrPanic binary64 (fromSecs (2 ^ 63))) new
        [.check 0 "k" 1 3 2, .check 2997000000 "k" 1 3 2]).cleanupF64 binary64
          (fromSecs 60)).buckets.size = 1 ∧
      ((run (stepOrPanic binary64 (fromSecs (2 ^ 63))) new
        [.check 0 "k" (2 ^ 60) 1 0]).cleanupF64 binary64 0).buckets.size = 0 := by
  decide +kernel

/-! ## §4. A full table stays full. -/

/-- A number of requests of which a bucket is never found full. -/
def NeverFull (maxTokens : ℚ) : Prop := 2 ≤ maxTokens ∧ maxTokens ≤ 2 ^ 53

/-- The table is full of buckets that are never found full. -/
def Saturated (rl : RateLimiter) : Prop :=
  maxRateLimitBuckets ≤ rl.buckets.size ∧
    ∀ (key : String) (b : RateBucket), rl.buckets[key]? = some b →
      Stored b ∧ NeverFull b.maxTokens

/-- A bucket of such a capacity is retained. -/
theorem retainedF64_of_neverFull {b : RateBucket} (hstored : Stored b)
    (hcap : NeverFull b.maxTokens) (now : Nat) : b.retainedF64 binary64 now = true := by
  by_contra hdropped
  have hdropped : b.retainedF64 binary64 now = false := by simpa using hdropped
  obtain ⟨hone, -⟩ | ⟨hlarge, -⟩ :=
    hstored.foundFull_iff.mp ((retainedF64_eq_false_iff b now).mp hdropped).2
  · linarith [hcap.1]
  · linarith [hcap.2]

theorem cleanupF64_of_saturated {rl : RateLimiter} (h : rl.Saturated) (now : Nat) :
    rl.cleanupF64 binary64 now = rl := by
  have hmap : (rl.cleanupF64 binary64 now).buckets = rl.buckets := by
    refine Std.ExtTreeMap.ext_getElem? (fun key => ?_)
    rw [getElem_cleanupF64]
    cases hb : rl.buckets[key]? with
    | none => rfl
    | some b =>
        obtain ⟨hstored, hcap⟩ := h.2 key b hb
        rw [Option.filter_some, retainedF64_of_neverFull hstored hcap now, if_pos rfl]
  cases rl
  exact congrArg RateLimiter.mk hmap

/-- Every check is of a rule that allows two requests or more, and 2 ^ 53 at most. -/
def ChecksTwo : RateEvent → Prop
  | .check _ _ maxRequests _ _ => 2 ≤ maxRequests ∧ maxRequests ≤ 2 ^ 53
  | .cleanup _ => True

/-- The capacity that such a rule gives. -/
theorem neverFull_ofNat {n : Nat} (h : 2 ≤ n ∧ n ≤ 2 ^ 53) : NeverFull (binary64.ofNat n) := by
  have hround : binary64.ofNat n = n := Rounding.round_of_mem (binary64_natCast h.2)
  rw [hround]
  exact ⟨by exact_mod_cast h.1, by exact_mod_cast h.2⟩

/-- What is stored after a bucket was spent from has the capacity of the rule. -/
theorem maxTokens_spendOrPanic (b : RateBucket) (now : Nat) (maxTokens rate : ℚ)
    (penaltySecs : Nat) :
    (b.spendOrPanic binary64 instantEnd now maxTokens rate penaltySecs).2.maxTokens =
      maxTokens := by
  obtain ⟨-, hspend⟩ | ⟨-, hspend⟩ :=
    b.spendOrPanic_cases binary64 instantEnd now maxTokens rate penaltySecs
  · rw [hspend]
  · rw [hspend]
    cases instantAdd instantEnd now penaltySecs <;> rfl

/-- A checked bucket's capacity is its old one or that of the rule. -/
theorem neverFull_checkOrPanic {b : RateBucket} (now : Nat) {maxTokens : ℚ} (rate : ℚ)
    (penaltySecs : Nat) (hmax : NeverFull maxTokens) (hb : NeverFull b.maxTokens) :
    NeverFull (b.checkOrPanic binary64 instantEnd now maxTokens rate penaltySecs).2.maxTokens := by
  obtain hsame | ⟨b', -, hspend⟩ :=
    b.checkOrPanic_cases binary64 instantEnd now maxTokens rate penaltySecs
  · rw [hsame]
    exact hb
  · rw [hspend, maxTokens_spendOrPanic]
    exact hmax

/-- A key without a bucket finds the table full. -/
theorem checkOrPanic_of_full {rl : RateLimiter} (h : maxRateLimitBuckets ≤ rl.buckets.size)
    {key : String} (hkey : key ∉ rl.buckets) (now maxRequests periodSecs penaltySecs : Nat) :
    rl.checkOrPanic binary64 instantEnd now key maxRequests periodSecs penaltySecs =
      (some false, rl) := by
  by_cases hmax : maxRequests = 0
  · exact if_pos hmax
  · have hcontains : rl.buckets.contains key = false := by
      rw [← Bool.not_eq_true, Std.ExtTreeMap.contains_iff_mem]
      exact hkey
    rw [checkOrPanic_of_pos binary64 instantEnd rl now key maxRequests periodSecs penaltySecs
      (by omega), hcontains, if_pos (by simpa using h)]

/-- Storing such a bucket under a known key keeps a saturated table and its keys. -/
theorem saturated_insert {rl : RateLimiter} (h : rl.Saturated) {key : String}
    (hkey : key ∈ rl.buckets) {b : RateBucket} (hb : Stored b ∧ NeverFull b.maxTokens) :
    (⟨rl.buckets.insert key b⟩ : RateLimiter).Saturated ∧
      ∀ key', key' ∈ rl.buckets.insert key b ↔ key' ∈ rl.buckets := by
  refine ⟨⟨?_, fun key' b' hb' => ?_⟩, fun key' => ?_⟩
  · show maxRateLimitBuckets ≤ (rl.buckets.insert key b).size
    rw [Std.ExtTreeMap.size_insert, if_pos (Std.ExtTreeMap.contains_iff_mem.mpr hkey)]
    exact h.1
  · rw [Std.ExtTreeMap.getElem?_insert] at hb'
    split at hb'
    · injection hb' with hb'
      rw [← hb']
      exact hb
    · exact h.2 key' b' hb'
  · rw [Std.ExtTreeMap.mem_insert]
    constructor
    · intro hmem
      cases hmem with
      | inl heq =>
          have heq : key = key' := Std.LawfulEqCmp.eq_of_compare heq
          rw [← heq]
          exact hkey
      | inr hmem => exact hmem
    · exact Or.inr

/-- **A step keeps a saturated table and its keys.** -/
theorem saturated_step {rl : RateLimiter} (h : rl.Saturated) {e : RateEvent} (he : ChecksTwo e) :
    (rl.stepOrPanic binary64 instantEnd e).Saturated ∧
      ∀ key, key ∈ (rl.stepOrPanic binary64 instantEnd e).buckets ↔ key ∈ rl.buckets := by
  cases e with
  | cleanup now =>
      show (rl.cleanupF64 binary64 now).Saturated ∧
        ∀ key, key ∈ (rl.cleanupF64 binary64 now).buckets ↔ key ∈ rl.buckets
      rw [cleanupF64_of_saturated h]
      exact ⟨h, fun _ => Iff.rfl⟩
  | check now key maxRequests periodSecs penaltySecs =>
      have hcap := neverFull_ofNat he
      show (rl.checkOrPanic binary64 instantEnd _ _ _ _ _).2.Saturated ∧ ∀ key',
        key' ∈ (rl.checkOrPanic binary64 instantEnd _ _ _ _ _).2.buckets ↔ key' ∈ rl.buckets
      by_cases hkey : key ∈ rl.buckets
      · obtain hsame | ⟨hmax, b, hfound, hcheck⟩ := rl.checkOrPanic_cases binary64 instantEnd now
          key maxRequests periodSecs penaltySecs
        · rw [hsame]
          exact ⟨h, fun _ => Iff.rfl⟩
        · have hstored : Stored b ∨ b = RateBucket.full now (binary64.ofNat maxRequests) :=
            hfound.imp (fun hb => (h.2 key b hb).1) And.right
          have hold : NeverFull b.maxTokens := by
            cases hfound with
            | inl hb => exact (h.2 key b hb).2
            | inr hfull =>
                rw [hfull.2]
                exact hcap
          rw [hcheck]
          exact saturated_insert h hkey ⟨checkOrPanic_stored instantEnd now _ penaltySecs hmax
            hstored, neverFull_checkOrPanic instantEnd now _ penaltySecs hcap hold⟩
      · -- a new key is refused and changes nothing
        rw [checkOrPanic_of_full instantEnd h.1 hkey]
        exact ⟨h, fun _ => Iff.rfl⟩

/-- **New keys are locked out for good.**  From a saturated table, after any further checks
of rules that allow between two and 2 ^ 53 requests and any cleanups, a key that has no
bucket is refused. -/
theorem check_refused_of_saturated {rl : RateLimiter} (h : rl.Saturated) {key : String}
    (hkey : key ∉ rl.buckets) (events : List RateEvent) (hevents : ∀ e ∈ events, ChecksTwo e)
    (now maxRequests periodSecs penaltySecs : Nat) :
    ((run (stepOrPanic binary64 instantEnd) rl events).checkOrPanic binary64 instantEnd now key
      maxRequests periodSecs penaltySecs).1 = some false := by
  induction events generalizing rl with
  | nil =>
      show (rl.checkOrPanic binary64 instantEnd now key maxRequests periodSecs penaltySecs).1 =
        some false
      rw [checkOrPanic_of_full instantEnd h.1 hkey]
  | cons e events ih =>
      obtain ⟨hsat, hkeys⟩ := saturated_step instantEnd h (hevents e List.mem_cons_self)
      exact ih hsat (fun hmem => hkey ((hkeys key).mp hmem))
        (fun e' he' => hevents e' (List.mem_cons_of_mem e he'))

end RateLimiter

end DockerProxy.Limiter
