/-
  DockerProxy.Limiter.Penalty — how long a penalty of the rate limiter lasts.

  A call that finds no token blocks its key until `t + penalty`.  While the key is
  blocked `check` returns early: it neither refills the bucket nor touches the
  penalty.  The first call after that finds the bucket reset, and takes a token.

    • `blockedUntil_of_refused` — a refusal for lack of tokens starts the penalty,
    • `check_of_blocked` — a running penalty refuses and changes nothing,
    • `blockedUntil_run` — no run of checks before its end changes it,
    • `penalty_exact` — the penalty lasts until `t + penalty`, and no longer.
-/
import DockerProxy.Limiter.RateBound
import DockerProxy.Limiter.RateSilent

namespace DockerProxy.Limiter

open DockerProxy.Lib

/-! ## §1. The start of a penalty. -/

namespace RateBucket

/-- Spending is refused for lack of a token, and starts the penalty. -/
theorem blockedUntil_spend {b : RateBucket} {now maxRequests periodSecs penaltySecs : Nat}
    (h : (b.spend now maxRequests periodSecs penaltySecs).1 = false) :
    (b.spend now maxRequests periodSecs penaltySecs).2.blockedUntil =
      some (now + fromSecs penaltySecs) := by
  unfold spend at h ⊢
  by_cases hone : 1 ≤ min (b.tokens + asSecs (now - b.lastCheck) *
      refillRate maxRequests periodSecs) (maxRequests : ℚ)
  · simp only [if_pos hone] at h
    exact absurd h (by simp)
  · simp only [if_neg hone]

/-- A check of a bucket without a running penalty is refused for lack of a token only. -/
theorem blockedUntil_check {b : RateBucket} {now : Nat}
    (hfree : ∀ u ∈ b.blockedUntil, u ≤ now) {maxRequests periodSecs penaltySecs : Nat}
    (h : (b.check now maxRequests periodSecs penaltySecs).1 = false) :
    (b.check now maxRequests periodSecs penaltySecs).2.blockedUntil =
      some (now + fromSecs penaltySecs) := by
  unfold check at h ⊢
  cases hb : b.blockedUntil with
  | none =>
      rw [hb] at h
      exact blockedUntil_spend h
  | some u =>
      have hover : ¬ now < u := Nat.not_lt.mpr (hfree u hb)
      rw [hb] at h
      simp only [if_neg hover] at h ⊢
      exact blockedUntil_spend h

end RateBucket

namespace RateLimiter

/-- The end of the key's last penalty, running or over. -/
def blockedUntil (rl : RateLimiter) (key : String) : Option Nat :=
  (rl.buckets[key]?).bind RateBucket.blockedUntil

/-- **The call is refused for lack of tokens**: the limit is not zero, the table is not
full, and no penalty is running. -/
structure RefusedForTokens (rl : RateLimiter) (now : Nat) (key : String)
    (maxRequests periodSecs penaltySecs : Nat) : Prop where
  limited : 1 ≤ maxRequests
  tracked : rl.buckets.contains key = true ∨ rl.HasRoom
  free : ∀ u ∈ rl.blockedUntil key, u ≤ now
  refused : (rl.check now key maxRequests periodSecs penaltySecs).1 = false

variable {rl : RateLimiter} {key : String} {now maxRequests periodSecs penaltySecs : Nat}

/-- Such a key has a bucket: a fresh one has a token. -/
theorem RefusedForTokens.exists_bucket
    (h : rl.RefusedForTokens now key maxRequests periodSecs penaltySecs) :
    ∃ b, rl.buckets[key]? = some b := by
  cases hb : rl.buckets[key]? with
  | some b => exact ⟨b, rfl⟩
  | none =>
      have hroom : rl.HasRoom := by
        refine h.tracked.resolve_left fun hkey => ?_
        rw [Std.ExtTreeMap.contains_eq_isSome_getElem?, hb] at hkey
        exact absurd hkey (by simp)
      have hmax := h.limited
      have hallowed := (checkAt_of_full key periodSecs penaltySecs hmax
        (Or.inl ⟨hb, hroom⟩ : rl.FullFrom key now)).1
      exact absurd (h.refused.symm.trans hallowed) (by simp)

/-- **A refusal for lack of tokens starts the penalty.** -/
theorem blockedUntil_of_refused
    (h : rl.RefusedForTokens now key maxRequests periodSecs penaltySecs) :
    (rl.check now key maxRequests periodSecs penaltySecs).2.blockedUntil key =
      some (now + fromSecs penaltySecs) := by
  obtain ⟨b, hb⟩ := h.exists_bucket
  have hcheck := checkAt_of_some key periodSecs penaltySecs h.limited hb now
  unfold checkAt at hcheck
  have hrefused := h.refused
  have hfree := h.free
  unfold blockedUntil at hfree ⊢
  rw [hb, Option.bind_some] at hfree
  rw [hcheck] at hrefused ⊢
  rw [Std.ExtTreeMap.getElem?_insert_self, Option.bind_some]
  exact RateBucket.blockedUntil_check hfree hrefused

/-! ## §2. While it runs. -/

/-- **A running penalty refuses every call on the key, and changes nothing.** -/
theorem check_of_blocked {u : Nat} (hblocked : rl.blockedUntil key = some u) (hnow : now < u)
    (maxRequests periodSecs penaltySecs : Nat) :
    rl.check now key maxRequests periodSecs penaltySecs = (false, rl) := by
  obtain ⟨b, hb, hu⟩ := Option.bind_eq_some_iff.mp hblocked
  by_cases hmax : maxRequests = 0
  · exact if_pos hmax
  · have hcheck := checkAt_of_some key periodSecs penaltySecs (Nat.pos_of_ne_zero hmax) hb now
    have hsame : b.check now maxRequests periodSecs penaltySecs = (false, b) := by
      unfold RateBucket.check
      rw [hu]
      exact if_pos hnow
    -- the bucket is put back as it was
    have hinsert : rl.buckets.insert key b = rl.buckets := by
      refine Std.ExtTreeMap.ext_getElem? fun key' => ?_
      rw [Std.ExtTreeMap.getElem?_insert]
      split
      next heq => rw [← Std.LawfulEqCmp.eq_of_compare heq, hb]
      next => rfl
    rw [hsame, hinsert] at hcheck
    exact hcheck

/-- A call on another key leaves it. -/
theorem blockedUntil_check_of_ne {key' : String} (hne : key' ≠ key) :
    (rl.check now key' maxRequests periodSecs penaltySecs).2.blockedUntil key =
      rl.blockedUntil key := by
  unfold blockedUntil
  obtain hsame | ⟨-, b, -, hcheck⟩ := rl.check_cases now key' maxRequests periodSecs penaltySecs
  · rw [hsame]
  · rw [hcheck, Std.ExtTreeMap.getElem?_insert]
    rw [if_neg fun heq => hne (Std.LawfulEqCmp.eq_of_compare heq)]

end RateLimiter

/-- A call on the key, under a rule that allows any requests. -/
def RateEvent.CallsOn (key : String) : RateEvent → Prop
  | .check _ key' maxRequests _ _ => key' = key ∧ 1 ≤ maxRequests
  | .cleanup _ => False

namespace RateLimiter

variable {key : String}

/-- A check keeps the penalty, if it is no call on the key after its end. -/
theorem blockedUntil_step {u : Nat} (rl : RateLimiter) (e : RateEvent)
    (hblocked : rl.blockedUntil key = some u)
    (he : e.isCleanup = false ∧ (e.CallsOn key → e.time < u)) :
    (step rl e).blockedUntil key = some u := by
  obtain ⟨hcheck, hbefore⟩ := he
  cases e with
  | cleanup now => exact absurd hcheck (by simp [RateEvent.isCleanup])
  | check now key' maxRequests periodSecs penaltySecs =>
      show (rl.check now key' maxRequests periodSecs penaltySecs).2.blockedUntil key = some u
      by_cases hkey : key' = key
      · by_cases hmax : maxRequests = 0
        · have hsame : rl.check now key' maxRequests periodSecs penaltySecs = (false, rl) :=
            if_pos hmax
          rw [hsame]
          exact hblocked
        · have hnow : now < u := hbefore ⟨hkey, Nat.pos_of_ne_zero hmax⟩
          rw [hkey, check_of_blocked hblocked hnow]
          exact hblocked
      · rw [blockedUntil_check_of_ne hkey]
        exact hblocked

/-- **No run of checks before its end changes the penalty.** -/
theorem blockedUntil_run {rl : RateLimiter} {u : Nat} (hblocked : rl.blockedUntil key = some u)
    {events : List RateEvent} (hchecks : ∀ e ∈ events, e.isCleanup = false)
    (hbefore : ∀ e ∈ events, e.CallsOn key → e.time < u) :
    (run step rl events).blockedUntil key = some u := by
  refine along_invariant step blockedUntil_step events rl hblocked ?_
  exact along_of_forall step events rl fun e he => ⟨hchecks e he, hbefore e he⟩

/-! ## §3. How long it lasts. -/

/-- When the penalty is over the key's next call finds a full bucket. -/
theorem fullFrom_of_blockedUntil {rl : RateLimiter} {u now : Nat}
    (hblocked : rl.blockedUntil key = some u) (hover : u ≤ now) : rl.FullFrom key now := by
  obtain ⟨b, hb, hu⟩ := Option.bind_eq_some_iff.mp hblocked
  exact Or.inr ⟨b, u, hb, hu, hover⟩

/-- **The penalty lasts exactly as configured.**  A call on the key is refused for lack of
tokens at `t`; then come checks of any keys, and a call on the key at `now`.  Before
`t + penalty` that call is refused and leaves the limiter as it is, the penalty included;
if it is the first one from `t + penalty` on, it is allowed, and leaves the bucket as a
fresh one is left by its first call. -/
theorem penalty_exact {rl : RateLimiter} {t maxRequests periodSecs penaltySecs : Nat}
    (hrefused : rl.RefusedForTokens t key maxRequests periodSecs penaltySecs)
    {events : List RateEvent} (hchecks : ∀ e ∈ events, e.isCleanup = false) {now : Nat}
    (hsorted : (t :: (events.map RateEvent.time ++ [now])).Pairwise (· ≤ ·))
    (maxRequests' periodSecs' penaltySecs' : Nat) :
    let rl' := run step (rl.check t key maxRequests periodSecs penaltySecs).2 events
    let call := rl'.check now key maxRequests' periodSecs' penaltySecs'
    let fresh := (RateBucket.fresh now maxRequests').check now maxRequests' periodSecs' penaltySecs'
    (now < t + fromSecs penaltySecs →
        call = (false, rl') ∧ rl'.blockedUntil key = some (t + fromSecs penaltySecs)) ∧
      (t + fromSecs penaltySecs ≤ now → 1 ≤ maxRequests' →
        (∀ e ∈ events, e.CallsOn key → e.time < t + fromSecs penaltySecs) →
          call.1 = true ∧ fresh.1 = true ∧ call.2.buckets[key]? = some fresh.2) := by
  intro rl' call fresh
  have hstart := blockedUntil_of_refused hrefused
  refine ⟨fun hnow => ?_, fun hover hmax hfirst => ?_⟩
  · -- the calls before this one are before the end, too
    have hbefore : ∀ e ∈ events, e.time < t + fromSecs penaltySecs := by
      intro e he
      obtain ⟨-, -, hlast⟩ := List.pairwise_append.mp (List.pairwise_cons.mp hsorted).2
      exact Nat.lt_of_le_of_lt
        (hlast e.time (List.mem_map_of_mem he) now List.mem_cons_self) hnow
    have hblocked : rl'.blockedUntil key = some (t + fromSecs penaltySecs) :=
      blockedUntil_run hstart hchecks fun e he _ => hbefore e he
    exact ⟨check_of_blocked hblocked hnow _ _ _, hblocked⟩
  · have hblocked : rl'.blockedUntil key = some (t + fromSecs penaltySecs) :=
      blockedUntil_run hstart hchecks hfirst
    obtain ⟨hallowed, hholds⟩ := checkAt_of_full key periodSecs' penaltySecs' hmax
      (fullFrom_of_blockedUntil hblocked hover)
    have hfresh : fresh = _ := check_fresh periodSecs' penaltySecs' hmax now
    rw [hfresh]
    exact ⟨hallowed, rfl, hholds⟩

/-- One request a minute, with a penalty of a second: a call on the key and one on another
come while the penalty runs, and the call at the instant it ends is allowed. -/
theorem penalty_exact_at_end :
    let rl := (new.check 0 "r:10.0.0.7" 1 60 1).2
    let rl' := run step (rl.check 0 "r:10.0.0.7" 1 60 1).2
      [.check 500000000 "r:10.0.0.8" 1 60 1, .check 999999999 "r:10.0.0.7" 1 60 1]
    (rl'.check (fromSecs 1) "r:10.0.0.7" 1 60 1).1 = true := by
  intro rl rl'
  have hrefused : rl.RefusedForTokens 0 "r:10.0.0.7" 1 60 1 :=
    ⟨by decide, Or.inl (by decide +kernel), by decide +kernel, by decide +kernel⟩
  have hbefore : ∀ e ∈ [RateEvent.check 500000000 "r:10.0.0.8" 1 60 1,
      .check 999999999 "r:10.0.0.7" 1 60 1], e.time < 0 + fromSecs 1 := by
    decide
  exact ((penalty_exact hrefused (by decide) (by decide) 1 60 1).2 (by decide) (by decide)
    fun e he _ => hbefore e he).1

end RateLimiter

end DockerProxy.Limiter
