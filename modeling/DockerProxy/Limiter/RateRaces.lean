/-
  DockerProxy.Limiter.RateRaces — checks of one key that race for the lock.

  `check` reads the clock before it takes the lock, so the update of a call can
  come after that of a call with a later reading.  It then sets `last_check`
  back, and the next refill credits the time in between once more.

    • `allowed_le_rewound` — every interleaving: what is allowed is paid for by
      the time that passed and by the time the bucket's clock was set back;
    • `allowed_le_of_inOrder` — without such updates, by the time that passed;
    • `allowed_of_race` — with one, more is allowed.
-/
import DockerProxy.Limiter.RateBound

namespace DockerProxy.Limiter

open DockerProxy.Lib

/-! ## §1. Interleaved calls. -/

/-- The limiter, with the calls on one key. -/
structure RateSystem where
  limiter : RateLimiter
  /-- The readings of the calls that wait for the lock. -/
  pending : List Nat
  /-- The answers given so far. -/
  answers : List Bool
  /-- How far `last_check` was set back so far, in all; only the proofs read it. -/
  rewound : Nat

/-- One atomic step of a call. -/
inductive RaceEvent where
  /-- A call reads the clock. -/
  | read (now : Nat)
  /-- The call at this place of the queue takes the lock. -/
  | update (i : Nat)
  deriving DecidableEq

/-- The clock readings of a run. -/
def readings (events : List RaceEvent) : List Nat :=
  events.filterMap fun e =>
    match e with
    | .read now => some now
    | .update _ => none

namespace RateSystem

/-- No call is under way. -/
def start (rl : RateLimiter) : RateSystem := ⟨rl, [], [], 0⟩

section

variable (key : String) (maxRequests periodSecs penaltySecs : Nat)

/-- How far an update with this reading sets `last_check` back. -/
def setBack (rl : RateLimiter) (now : Nat) : Nat :=
  match rl.buckets[key]? with
  | some b => b.lastCheck - now
  | none => 0

/-- One step; an update of a call that is not under way changes nothing. -/
def step (sys : RateSystem) : RaceEvent → RateSystem
  | .read now => { sys with pending := sys.pending ++ [now] }
  | .update i =>
      match sys.pending[i]? with
      | some now =>
          let (allowed, limiter) := sys.limiter.check now key maxRequests periodSecs penaltySecs
          { limiter := limiter
            pending := sys.pending.eraseIdx i
            answers := sys.answers ++ [allowed]
            rewound := sys.rewound + setBack key sys.limiter now }
      | none => sys

/-- The calls allowed so far. -/
def allowed (sys : RateSystem) : Nat := sys.answers.count true

/-- No call was refused so far. -/
def NoRefusal (sys : RateSystem) : Prop := ∀ answer ∈ sys.answers, answer = true

instance (sys : RateSystem) : Decidable sys.NoRefusal :=
  inferInstanceAs (Decidable (∀ answer ∈ sys.answers, answer = true))

/-- **The step is in clock order**: an update comes with a reading no earlier than
the bucket's last one. -/
def InOrder (sys : RateSystem) : RaceEvent → Prop
  | .read _ => True
  | .update i =>
      ∀ now ∈ sys.pending[i]?, ∀ b ∈ sys.limiter.buckets[key]?, RateBucket.lastCheck b ≤ now

instance (sys : RateSystem) (e : RaceEvent) : Decidable (sys.InOrder key e) :=
  match e with
  | .read _ => inferInstanceAs (Decidable True)
  | .update i =>
      inferInstanceAs (Decidable (∀ now ∈ sys.pending[i]?, ∀ b ∈ sys.limiter.buckets[key]?,
        RateBucket.lastCheck b ≤ now))

/-! ## §2. What the bucket was credited. -/

/-- **The credit of the bucket.**  What was allowed and what is left is paid for by
the capacity, by the time since `lo`, and by the time that was set back. -/
structure Credit (lo hi allowed rewound : Nat) (b : RateBucket) : Prop where
  unblocked : b.blockedUntil = none
  tokens : 0 ≤ b.tokens
  lastCheck : lo ≤ b.lastCheck ∧ b.lastCheck ≤ hi
  paid : (allowed : ℚ) + b.tokens ≤ maxRequests +
    asSecs (b.lastCheck - lo + rewound) * refillRate maxRequests periodSecs

/-- While no call is refused, the key has no bucket and nothing was allowed, or its
bucket's credit is right. -/
def Inv (lo hi : Nat) (sys : RateSystem) : Prop :=
  (∀ now ∈ sys.pending, lo ≤ now ∧ now ≤ hi) ∧
    (sys.NoRefusal →
      (sys.limiter.buckets[key]? = none ∧ sys.allowed = 0) ∨
        ∃ b : RateBucket, sys.limiter.buckets[key]? = some b ∧
          Credit maxRequests periodSecs lo hi sys.allowed sys.rewound b)

/-- An allowed spending: the token is paid for by what there was and by the refill. -/
theorem spend_allowed {b : RateBucket} {now : Nat}
    (h : (b.spend now maxRequests periodSecs penaltySecs).1 = true) :
    (b.spend now maxRequests periodSecs penaltySecs).2.blockedUntil = b.blockedUntil ∧
      (b.spend now maxRequests periodSecs penaltySecs).2.lastCheck = now ∧
      0 ≤ (b.spend now maxRequests periodSecs penaltySecs).2.tokens ∧
      1 + (b.spend now maxRequests periodSecs penaltySecs).2.tokens ≤
        b.tokens + asSecs (now - b.lastCheck) * refillRate maxRequests periodSecs := by
  unfold RateBucket.spend at h ⊢
  simp only at h ⊢
  split at h
  next hone =>
    simp only [if_pos hone]
    refine ⟨trivial, trivial, sub_nonneg.mpr hone, ?_⟩
    have hle := min_le_left
      (b.tokens + asSecs (now - b.lastCheck) * refillRate maxRequests periodSecs) (maxRequests : ℚ)
    linarith
  next => exact absurd h (by simp)

/-- A bucket that is not blocked is checked by spending a token. -/
theorem check_of_unblocked {b : RateBucket} (h : b.blockedUntil = none) (now : Nat) :
    b.check now maxRequests periodSecs penaltySecs =
      b.spend now maxRequests periodSecs penaltySecs := by
  unfold RateBucket.check
  rw [h]

/-- The first call pays with the capacity. -/
theorem credit_fresh {lo hi now : Nat} (hnow : lo ≤ now ∧ now ≤ hi) (rewound : Nat)
    (hallowed : ((RateBucket.fresh now maxRequests).check now maxRequests periodSecs
      penaltySecs).1 = true) :
    Credit maxRequests periodSecs lo hi 1 rewound
      ((RateBucket.fresh now maxRequests).check now maxRequests periodSecs penaltySecs).2 := by
  rw [check_of_unblocked maxRequests periodSecs penaltySecs rfl] at hallowed ⊢
  obtain ⟨hblocked, hlast, htokens, hpaid⟩ :=
    spend_allowed maxRequests periodSecs penaltySecs hallowed
  refine ⟨hblocked, htokens, by rw [hlast]; exact hnow, ?_⟩
  have helapsed : asSecs (now - (RateBucket.fresh now maxRequests).lastCheck) = 0 := by
    show asSecs (now - now) = 0
    rw [Nat.sub_self]
    exact zero_div _
  rw [helapsed, zero_mul, add_zero] at hpaid
  have hpast := mul_nonneg (asSecs_nonneg (now - lo + rewound))
    (refillRate_nonneg maxRequests periodSecs)
  have hcapacity : (RateBucket.fresh now maxRequests).tokens = maxRequests := rfl
  rw [hlast, Nat.cast_one]
  linarith

/-- Every further call pays with what is left, with the time that passed, and with the
time that it sets back. -/
theorem credit_spend {lo hi now allowed rewound : Nat} (hnow : lo ≤ now ∧ now ≤ hi)
    {b : RateBucket} (hcredit : Credit maxRequests periodSecs lo hi allowed rewound b)
    (hallowed : (b.check now maxRequests periodSecs penaltySecs).1 = true) :
    Credit maxRequests periodSecs lo hi (allowed + 1) (rewound + (b.lastCheck - now))
      (b.check now maxRequests periodSecs penaltySecs).2 := by
  rw [check_of_unblocked maxRequests periodSecs penaltySecs hcredit.unblocked] at hallowed ⊢
  obtain ⟨hblocked, hlast, htokens, hpaid⟩ :=
    spend_allowed maxRequests periodSecs penaltySecs hallowed
  refine ⟨by rw [hblocked, hcredit.unblocked], htokens, by rw [hlast]; exact hnow, ?_⟩
  have htime : now - lo + (rewound + (b.lastCheck - now)) =
      (b.lastCheck - lo + rewound) + (now - b.lastCheck) := by
    have hlo := hcredit.lastCheck.1
    omega
  rw [hlast, htime, asSecs_add, add_mul, Nat.cast_add, Nat.cast_one]
  have hpast := hcredit.paid
  linarith

/-- **What one update does**, while no call is refused: it is allowed, and the
credit of the bucket it leaves is right. -/
theorem credit_update {lo hi now : Nat} {sys : RateSystem} (hnow : lo ≤ now ∧ now ≤ hi)
    (hbefore : (sys.limiter.buckets[key]? = none ∧ sys.allowed = 0) ∨
      ∃ b : RateBucket, sys.limiter.buckets[key]? = some b ∧
        Credit maxRequests periodSecs lo hi sys.allowed sys.rewound b)
    {sys' : RateSystem}
    (hallowed : (sys.limiter.check now key maxRequests periodSecs penaltySecs).1 = true)
    (hlimiter : sys'.limiter = (sys.limiter.check now key maxRequests periodSecs penaltySecs).2)
    (hcount : sys'.allowed = sys.allowed + 1)
    (hrewound : sys'.rewound = sys.rewound + setBack key sys.limiter now) :
    ∃ b : RateBucket, sys'.limiter.buckets[key]? = some b ∧
      Credit maxRequests periodSecs lo hi sys'.allowed sys'.rewound b := by
  obtain hsame | ⟨-, b, hfound, hcheck⟩ :=
    sys.limiter.check_cases now key maxRequests periodSecs penaltySecs
  · rw [hsame] at hallowed
    exact absurd hallowed (by simp)
  · rw [hcheck] at hallowed hlimiter
    refine ⟨_, by rw [hlimiter]; exact Std.ExtTreeMap.getElem?_insert_self, ?_⟩
    rw [hcount]
    cases hbefore with
    | inl hstart =>
        obtain ⟨hnone, hzero⟩ := hstart
        cases hfound with
        | inl hsome =>
            rw [hnone] at hsome
            exact absurd hsome (by simp)
        | inr hfresh =>
            rw [hfresh.2] at hallowed ⊢
            rw [hzero]
            exact credit_fresh maxRequests periodSecs penaltySecs hnow _ hallowed
    | inr hcredited =>
        obtain ⟨b', hb', hcredit⟩ := hcredited
        have hb : b = b' := by
          cases hfound with
          | inl hsome => exact Option.some.inj (hsome.symm.trans hb')
          | inr hfresh =>
              rw [hfresh.1] at hb'
              exact absurd hb' (by simp)
        have hback : setBack key sys.limiter now = b'.lastCheck - now := by
          unfold setBack
          rw [hb']
        rw [hrewound, hback]
        rw [hb] at hallowed ⊢
        exact credit_spend maxRequests periodSecs penaltySecs hnow hcredit hallowed

/-- A step keeps the invariant. -/
theorem inv_step {lo hi : Nat} (sys : RateSystem) (e : RaceEvent)
    (hsys : Inv key maxRequests periodSecs lo hi sys)
    (he : ∀ now, e = .read now → lo ≤ now ∧ now ≤ hi) :
    Inv key maxRequests periodSecs lo hi (sys.step key maxRequests periodSecs penaltySecs e) := by
  obtain ⟨hpending, hcredit⟩ := hsys
  cases e with
  | read now =>
      refine ⟨fun t ht => ?_, hcredit⟩
      cases List.mem_append.mp ht with
      | inl hmem => exact hpending t hmem
      | inr hmem => rw [List.mem_singleton.mp hmem]; exact he now rfl
  | update i =>
      cases hi : sys.pending[i]? with
      | none =>
          have hstep : sys.step key maxRequests periodSecs penaltySecs (.update i) = sys := by
            simp only [step, hi]
          rw [hstep]
          exact ⟨hpending, hcredit⟩
      | some now =>
          have hstep : sys.step key maxRequests periodSecs penaltySecs (.update i) =
              { limiter := (sys.limiter.check now key maxRequests periodSecs penaltySecs).2
                pending := sys.pending.eraseIdx i
                answers := sys.answers ++
                  [(sys.limiter.check now key maxRequests periodSecs penaltySecs).1]
                rewound := sys.rewound + setBack key sys.limiter now } := by
            simp only [step, hi]
          rw [hstep]
          refine ⟨fun t ht => hpending t (List.mem_of_mem_eraseIdx ht), fun hno => Or.inr ?_⟩
          have hno : ∀ answer ∈ sys.answers ++
              [(sys.limiter.check now key maxRequests periodSecs penaltySecs).1],
              answer = true := hno
          have hallowed := hno _ (List.mem_append_right _ List.mem_cons_self)
          have hbefore := hcredit fun answer h => hno answer (List.mem_append_left _ h)
          refine credit_update key maxRequests periodSecs penaltySecs
            (hpending now (List.mem_of_getElem? hi)) hbefore hallowed rfl ?_ rfl
          show List.count true (_ ++ [_]) = _
          rw [hallowed, List.count_append, List.count_singleton_self]
          rfl

/-! ## §3. The bound over whole runs. -/

section

variable {lo hi : Nat} {rl : RateLimiter} {events : List RaceEvent}

/-- The invariant of every run from a limiter without a bucket for the key. -/
theorem inv_run (hnone : rl.buckets[key]? = none)
    (hreadings : ∀ t ∈ readings events, lo ≤ t ∧ t ≤ hi) :
    Inv key maxRequests periodSecs lo hi
      (run (step key maxRequests periodSecs penaltySecs) (start rl) events) := by
  have hstart : Inv key maxRequests periodSecs lo hi (start rl) :=
    ⟨fun t ht => absurd ht List.not_mem_nil, fun _ => Or.inl ⟨hnone, rfl⟩⟩
  have hall : ∀ e ∈ events, ∀ now, e = .read now → lo ≤ now ∧ now ≤ hi := by
    intro e he now hread
    refine hreadings now (List.mem_filterMap.mpr ⟨e, he, ?_⟩)
    rw [hread]
  exact along_invariant _ (inv_step key maxRequests periodSecs penaltySecs) events (start rl)
    hstart (along_of_forall _ events (start rl) hall)

/-- **The bound of every interleaving**: the time that passed, and the time that was
set back. -/
theorem allowed_le_rewound (hnone : rl.buckets[key]? = none)
    (hreadings : ∀ t ∈ readings events, lo ≤ t ∧ t ≤ hi)
    (hno : (run (step key maxRequests periodSecs penaltySecs) (start rl) events).NoRefusal) :
    ((run (step key maxRequests periodSecs penaltySecs) (start rl) events).allowed : ℚ) ≤
      maxRequests + asSecs (hi - lo +
        (run (step key maxRequests periodSecs penaltySecs) (start rl) events).rewound) *
          refillRate maxRequests periodSecs := by
  have hrate := refillRate_nonneg maxRequests periodSecs
  cases (inv_run key maxRequests periodSecs penaltySecs hnone hreadings).2 hno with
  | inl h =>
      rw [h.2, Nat.cast_zero]
      have hpast := mul_nonneg (asSecs_nonneg (hi - lo +
        (run (step key maxRequests periodSecs penaltySecs) (start rl) events).rewound)) hrate
      have hmax : (0 : ℚ) ≤ maxRequests := Nat.cast_nonneg _
      linarith
  | inr h =>
      obtain ⟨b, -, hcredit⟩ := h
      have hlast := hcredit.lastCheck
      have hle : asSecs (b.lastCheck - lo +
            (run (step key maxRequests periodSecs penaltySecs) (start rl) events).rewound) ≤
          asSecs (hi - lo +
            (run (step key maxRequests periodSecs penaltySecs) (start rl) events).rewound) :=
        asSecs_le_iff.mpr (by omega)
      have hpaid := hcredit.paid
      have hmul := mul_le_mul_of_nonneg_right hle hrate
      linarith [hcredit.tokens]

/-- Updates in clock order set nothing back. -/
theorem rewound_of_inOrder (hrun : Along (step key maxRequests periodSecs penaltySecs)
      (InOrder key) (start rl) events) :
    (run (step key maxRequests periodSecs penaltySecs) (start rl) events).rewound = 0 := by
  have hstep : ∀ (sys : RateSystem) (e : RaceEvent), sys.rewound = 0 → sys.InOrder key e →
      (sys.step key maxRequests periodSecs penaltySecs e).rewound = 0 := by
    intro sys e hzero horder
    cases e with
    | read now => exact hzero
    | update i =>
        simp only [step]
        cases hi : sys.pending[i]? with
        | none => exact hzero
        | some now =>
            show sys.rewound + setBack key sys.limiter now = 0
            rw [hzero, Nat.zero_add]
            unfold setBack
            cases hb : sys.limiter.buckets[key]? with
            | none => rfl
            | some b => exact Nat.sub_eq_zero_of_le (horder now hi b hb)
  exact along_invariant _ hstep events (start rl) rfl hrun

/-- **The bound in clock order.**  In every run from a limiter without a bucket for
the key that refuses no call and whose updates come in the order of their readings,
at most `requests + requests / period · (hi - lo)` calls are allowed, where the
readings lie between `lo` and `hi`. -/
theorem allowed_le_of_inOrder (hperiod : 1 ≤ periodSecs) (hnone : rl.buckets[key]? = none)
    (hreadings : ∀ t ∈ readings events, lo ≤ t ∧ t ≤ hi)
    (hno : (run (step key maxRequests periodSecs penaltySecs) (start rl) events).NoRefusal)
    (hrun : Along (step key maxRequests periodSecs penaltySecs) (InOrder key) (start rl) events) :
    ((run (step key maxRequests periodSecs penaltySecs) (start rl) events).allowed : ℚ) ≤
      maxRequests + (maxRequests : ℚ) / periodSecs * asSecs (hi - lo) := by
  have hle := allowed_le_rewound key maxRequests periodSecs penaltySecs hnone hreadings hno
  have hrate : refillRate maxRequests periodSecs = maxRequests / periodSecs := if_neg (by omega)
  rw [rewound_of_inOrder key maxRequests periodSecs penaltySecs hrun, Nat.add_zero, hrate,
    mul_comm] at hle
  exact hle

end

end

/-! ## §4. A race. -/

/-- Two calls read the clock at zero, and one updates.  Two seconds later three
calls read the clock, and one of them updates; then the first call updates, with
its old reading, and the two others credit the two seconds again. -/
def race : List RaceEvent :=
  [.read 0, .read 0, .update 1, .read (fromSecs 2), .read (fromSecs 2), .read (fromSecs 2),
    .update 1, .update 0, .update 0, .update 0]

/-- **Two seconds are credited twice**: with two requests in two seconds, five calls
are allowed, and none is refused, where the bound is four. -/
theorem allowed_of_race :
    (readings race).Pairwise (· ≤ ·) ∧ (∀ t ∈ readings race, 0 ≤ t ∧ t ≤ fromSecs 2) ∧
    (run (step "r:10.0.0.7" 2 2 30) (start RateLimiter.new) race).NoRefusal ∧
    ¬ ((run (step "r:10.0.0.7" 2 2 30) (start RateLimiter.new) race).allowed : ℚ) ≤
        (2 : Nat) + ((2 : Nat) : ℚ) / (2 : Nat) * asSecs (fromSecs 2 - 0) := by
  have hrace : (run (step "r:10.0.0.7" 2 2 30) (start RateLimiter.new) race).NoRefusal ∧
      (run (step "r:10.0.0.7" 2 2 30) (start RateLimiter.new) race).allowed = 5 := by
    decide +kernel
  refine ⟨by decide, by decide, hrace.1, ?_⟩
  rw [hrace.2, Nat.sub_zero, asSecs_fromSecs]
  norm_num

/-- The same calls, each with its update right after its reading. -/
theorem allowed_le_of_inOrder_queue :
    ((run (step "r:10.0.0.7" 2 2 30) (start RateLimiter.new)
        [.read 0, .update 0, .read 0, .update 0, .read (fromSecs 2), .update 0]).allowed : ℚ) ≤
      (2 : Nat) + ((2 : Nat) : ℚ) / (2 : Nat) * asSecs (fromSecs 2 - 0) := by
  have hnone : RateLimiter.new.buckets["r:10.0.0.7"]? = none := Std.ExtTreeMap.getElem?_empty
  exact allowed_le_of_inOrder "r:10.0.0.7" 2 2 30 (by decide) hnone (by decide)
    (by decide +kernel) (by decide +kernel)

end RateSystem

end DockerProxy.Limiter
