/-
  DockerProxy.Limiter.FirstRefusal — the first call that a rate limit refuses.

  Until a call is refused a bucket is a supply that refills at `requests / period`, up
  to `requests`, and of which every call takes one.  So the first refusal is where that
  supply runs out, and by its closed form that is the first call that comes, with the
  calls since some earlier one, to more than the rate allows.

    • `firstRefusal_of_bucket` — the calls on a bucket follow its supply,
    • `firstRefusal_iff_firstViolation` — the first refusal is the first violation of
      the rate, whatever the penalty.
-/
import DockerProxy.Lib.TokenBucket
import DockerProxy.Limiter.RateBound

namespace DockerProxy.Limiter.RateLimiter

open DockerProxy.Lib

variable (key : String) (maxRequests periodSecs penaltySecs : Nat)

/-- The supply of the key's bucket at the `j`-th call. -/
def supplyAt (level : ℚ) (last : Nat) (times : List Nat) (j : Nat) : ℚ :=
  supply (maxRequests : ℚ) (refillRate maxRequests periodSecs) level (asSecs last)
    (times.map asSecs) j

/-- **The calls on a bucket without a penalty follow its supply**: the first one that is
refused is the first one that finds less than one token. -/
theorem firstRefusal_of_bucket {maxRequests : Nat} (hmax : 1 ≤ maxRequests) (times : List Nat) :
    ∀ {rl : RateLimiter} {last : Nat} {tokens maxTokens : ℚ} {j : Nat},
      rl.buckets[key]? = some ⟨last, tokens, maxTokens, none⟩ →
      (last :: times).Pairwise (· ≤ ·) →
      (FirstRefusal (checkAt key maxRequests periodSecs penaltySecs) rl times j ↔
        FirstSuch (fun k => k < times.length ∧
          supplyAt maxRequests periodSecs tokens last times k < 1) j) := by
  induction times with
  | nil =>
      intro rl last tokens maxTokens j _ _
      refine iff_of_false (not_firstRefusal_nil _) ?_
      rintro ⟨⟨hj, -⟩, -⟩
      exact absurd hj (Nat.not_lt_zero j)
  | cons t times ih =>
      intro rl last tokens maxTokens j hb hsorted
      obtain ⟨hlast, hrest⟩ := List.pairwise_cons.mp hsorted
      have hlt : last ≤ t := hlast t List.mem_cons_self
      -- what the check finds is the supply
      have hfound : min (tokens + asSecs (t - last) * refillRate maxRequests periodSecs)
          (maxRequests : ℚ) = supplyAt maxRequests periodSecs tokens last (t :: times) 0 := by
        show _ = min (tokens + refillRate maxRequests periodSecs * (asSecs t - asSecs last)) _
        rw [asSecs_sub hlt, mul_comm]
      have hcheck := checkAt_of_some key periodSecs penaltySecs hmax hb t
      have hbucket : (⟨last, tokens, maxTokens, none⟩ : RateBucket).check t maxRequests periodSecs
          penaltySecs = (⟨last, tokens, maxTokens, none⟩ : RateBucket).spend t maxRequests
            periodSecs penaltySecs := rfl
      rw [hbucket] at hcheck
      unfold RateBucket.spend at hcheck
      simp only [hfound] at hcheck
      have hanswer : (rl.checkAt key maxRequests periodSecs penaltySecs t).1 = true ↔
          1 ≤ supplyAt maxRequests periodSecs tokens last (t :: times) 0 := by
        rw [hcheck]
        split
        next hone => exact iff_of_true rfl hone
        next hone => exact iff_of_false Bool.false_ne_true hone
      refine firstRefusal_cons_iff _ ?_ (fun hallowed j => ?_) j
      · rw [← Bool.not_eq_true, hanswer, not_le]
        exact (and_iff_right (Nat.succ_pos _)).symm
      · -- one token is taken, and the rest follows what is left
        have hafter : (rl.checkAt key maxRequests periodSecs penaltySecs t).2.buckets[key]? =
            some ⟨t, supplyAt maxRequests periodSecs tokens last (t :: times) 0 - 1,
              maxRequests, none⟩ := by
          rw [hcheck, if_pos (hanswer.mp hallowed)]
          exact Std.ExtTreeMap.getElem?_insert_self
        rw [ih hafter hrest]
        refine firstSuch_congr fun k => and_congr ?_ Iff.rfl
        exact (Nat.succ_lt_succ_iff (b := times.length)).symm

/-- **The `j`-th call violates the rate**: with the calls since some `i`-th one, it comes
to more than `requests` and what the time between them brings. -/
def Violates (maxRequests periodSecs : Nat) (times : List Nat) (j : Nat) : Prop :=
  ∃ i ≤ j, ∃ ti tj, times[i]? = some ti ∧ times[j]? = some tj ∧
    (maxRequests : ℚ) + maxRequests / periodSecs * (asSecs tj - asSecs ti) < j - i + 1

/-- Where the supply of a fresh bucket is below one, the rate is violated. -/
theorem supplyAt_lt_one_iff {periodSecs : Nat} (hperiod : 1 ≤ periodSecs) (t : Nat)
    (times : List Nat) (j : Nat) :
    (j < (t :: times).length ∧
        supplyAt maxRequests periodSecs maxRequests t (t :: times) j < 1) ↔
      Violates maxRequests periodSecs (t :: times) j := by
  have hrate : refillRate maxRequests periodSecs = maxRequests / periodSecs := if_neg (by omega)
  unfold supplyAt Violates
  rw [hrate]
  constructor
  · rintro ⟨hj, hlt⟩
    have htj : (t :: times)[j]? = some (t :: times)[j] := List.getElem?_eq_getElem hj
    have hmap : ((t :: times).map asSecs)[j]? = some (asSecs (t :: times)[j]) := by
      rw [List.getElem?_map, htj, Option.map_some]
    rw [supply_lt_iff _ _ 1 _ hmap] at hlt
    obtain hlt | ⟨i, hi, ti, hti, hlt⟩ := hlt
    · -- counted from the first call, when the bucket was full
      exact ⟨0, Nat.zero_le j, t, _, rfl, htj, by rw [Nat.cast_zero]; linarith⟩
    · rw [List.getElem?_map] at hti
      obtain ⟨ti', hti', rfl⟩ := Option.map_eq_some_iff.mp hti
      exact ⟨i, hi, ti', _, hti', htj, by linarith⟩
  · rintro ⟨i, hi, ti, tj, hti, htj, hlt⟩
    have hmap : ((t :: times).map asSecs)[j]? = some (asSecs tj) := by
      rw [List.getElem?_map, htj, Option.map_some]
    refine ⟨(List.getElem?_eq_some_iff.mp htj).1, (supply_lt_iff _ _ 1 _ hmap).mpr (Or.inr ?_)⟩
    refine ⟨i, hi, asSecs ti, by rw [List.getElem?_map, hti, Option.map_some], ?_⟩
    linarith

/-- **The first refusal is exactly the first violation of the rate**, and without one no
call is refused. -/
theorem firstRefusal_iff_firstViolation {maxRequests periodSecs : Nat} (hmax : 1 ≤ maxRequests)
    (hperiod : 1 ≤ periodSecs) {rl : RateLimiter} (hnone : rl.buckets[key]? = none)
    (hroom : rl.buckets.size < maxRateLimitBuckets) {times : List Nat}
    (htimes : times.Pairwise (· ≤ ·)) :
    (∀ j, FirstRefusal (checkAt key maxRequests periodSecs penaltySecs) rl times j ↔
        FirstSuch (Violates maxRequests periodSecs times) j) ∧
      ((∀ j, ¬ Violates maxRequests periodSecs times j) →
        false ∉ replies (checkAt key maxRequests periodSecs penaltySecs) rl times) := by
  have hfirst : ∀ j, FirstRefusal (checkAt key maxRequests periodSecs penaltySecs) rl times j ↔
      FirstSuch (Violates maxRequests periodSecs times) j := by
    intro j
    cases times with
    | nil =>
        refine iff_of_false (not_firstRefusal_nil _) ?_
        rintro ⟨⟨i, -, ti, tj, hti, -, -⟩, -⟩
        exact absurd hti (by simp)
    | cons t times =>
        -- the first call makes a full bucket and takes one token of it
        have hfullFrom : rl.FullFrom key t := Or.inl ⟨hnone, hroom⟩
        obtain ⟨hallowed, hholds⟩ := checkAt_of_full key periodSecs penaltySecs hmax hfullFrom
        have hfull : supplyAt maxRequests periodSecs maxRequests t (t :: times) 0 =
            maxRequests := by
          show min ((maxRequests : ℚ) + _ * (asSecs t - asSecs t)) _ = _
          rw [sub_self, mul_zero, add_zero, min_self]
        have hone : (1 : ℚ) ≤ maxRequests := by exact_mod_cast hmax
        have hsupply : FirstSuch (Violates maxRequests periodSecs (t :: times)) j ↔
            FirstSuch (fun k => k < (t :: times).length ∧
              supplyAt maxRequests periodSecs maxRequests t (t :: times) k < 1) j :=
          firstSuch_congr fun k => (supplyAt_lt_one_iff maxRequests hperiod t times k).symm
        rw [hsupply]
        refine firstRefusal_cons_iff _ ?_ (fun _ j => ?_) j
        · refine iff_of_false (fun h => absurd (h.symm.trans hallowed) (by simp)) fun h => ?_
          exact absurd h.2 (by rw [hfull]; exact not_lt.mpr hone)
        · rw [firstRefusal_of_bucket key periodSecs penaltySecs hmax times hholds htimes]
          refine firstSuch_congr fun k => and_congr ?_ ?_
          · exact (Nat.succ_lt_succ_iff (b := times.length)).symm
          · have hleft : ((maxRequests - 1 : Nat) : ℚ) =
                supplyAt maxRequests periodSecs maxRequests t (t :: times) 0 - 1 := by
              rw [hfull, Nat.cast_sub hmax, Nat.cast_one]
            rw [hleft]
            exact Iff.rfl
  refine ⟨hfirst, fun hkept hmem => ?_⟩
  obtain ⟨j, hj⟩ := (exists_firstRefusal _ times rl).mp hmem
  exact hkept j ((hfirst j).mp hj).1

/-- Two requests in ten seconds: of three calls within one second and one later, the
third is refused. -/
theorem firstRefusal_third :
    FirstRefusal (checkAt "r:10.0.0.7" 2 10 30) new [0, 0, fromSecs 1, fromSecs 40] 2 := by
  have hnone : new.buckets["r:10.0.0.7"]? = none := Std.ExtTreeMap.getElem?_empty
  have hroom : new.buckets.size < maxRateLimitBuckets := by decide
  have htimes : [0, 0, fromSecs 1, fromSecs 40].Pairwise (· ≤ ·) := by decide
  refine ((firstRefusal_iff_firstViolation "r:10.0.0.7" 30 (by decide) (by decide) hnone hroom
    htimes).1 2).mpr ⟨?_, fun k hk => ?_⟩
  · refine ⟨0, by decide, 0, fromSecs 1, rfl, rfl, ?_⟩
    rw [asSecs_fromSecs]
    norm_num [asSecs]
  · -- the two calls before it are two requests at one time
    rintro ⟨i, hi, ti, tj, hti, htj, hlt⟩
    have hzero : ∀ n < 2, ∀ t, [0, 0, fromSecs 1, fromSecs 40][n]? = some t → t = 0 := by
      intro n hn t ht
      obtain rfl | rfl : n = 0 ∨ n = 1 := by omega
      · exact (Option.some.inj ht).symm
      · exact (Option.some.inj ht).symm
    rw [hzero i (by omega) ti hti, hzero k hk tj htj, sub_self, mul_zero, add_zero] at hlt
    have hk' : (k : ℚ) ≤ 1 := by exact_mod_cast Nat.le_of_lt_succ hk
    have hi' : (0 : ℚ) ≤ i := Nat.cast_nonneg i
    norm_num at hlt
    linarith

end DockerProxy.Limiter.RateLimiter
