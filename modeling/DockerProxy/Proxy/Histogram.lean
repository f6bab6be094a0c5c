/-
  DockerProxy.Proxy.Histogram — the latency histogram under concurrent requests.

  `observe_upstream_latency_ms` is three atomic additions, and those of different requests
  interleave.  They commute, so the counters end up as if the calls had come one after
  another (`latency_of_finished`); placement and the cumulative loop of
  `render_prometheus` then add up:

    • `foldl_observe` — the counters after a list of observations,
    • `renderBuckets_eq` — the bucket lines are the counts of what does not exceed their
      bounds,
    • `renderPrometheus_exact` — the whole report.
-/
import DockerProxy.Lib.Histogram
import DockerProxy.Lib.Interleaving
import DockerProxy.Proxy.Metrics
import Mathlib.Algebra.Ring.Nat

namespace DockerProxy.Proxy

open DockerProxy.Lib

/-! ## §1. The atomic additions of an observation. -/

/-- One `fetch_add` on the histogram. -/
inductive LatencyAddition where
  | sumMs (ms : UInt64)
  | count
  | bucket (idx : Nat)
  deriving DecidableEq

namespace LatencyHistogram

/-- The histogram after the addition. -/
def add (h : LatencyHistogram) : LatencyAddition → LatencyHistogram
  | .sumMs ms => { h with sumMs := h.sumMs + ms }
  | .count => { h with count := h.count + 1 }
  | .bucket idx => { h with buckets := h.buckets.modify idx (· + 1) }

/-- The additions of `observe`, in its order. -/
def additions (ms : UInt64) : List LatencyAddition :=
  [.sumMs ms, .count, .bucket (place latencyBucketsMs ms.toNat)]

/-- **`observe` is its additions**, one after the other. -/
theorem foldl_additions (h : LatencyHistogram) (ms : UInt64) :
    (additions ms).foldl add h = h.observe ms := rfl

/-- Increments of list elements commute. -/
theorem modify_modify_comm (buckets : List UInt64) (i j : Nat) :
    (buckets.modify i (· + 1)).modify j (· + 1) = (buckets.modify j (· + 1)).modify i (· + 1) := by
  refine List.ext_getElem? fun k => ?_
  simp only [List.getElem?_modify]
  cases buckets[k]? with
  | none => rfl
  | some b => split_ifs <;> rfl

/-- **The additions commute.** -/
instance : RightCommutative add := by
  refine ⟨fun h a b => ?_⟩
  cases a with
  | sumMs ms =>
      cases b with
      | sumMs ms' =>
          show { h with sumMs := h.sumMs + ms + ms' } = { h with sumMs := h.sumMs + ms' + ms }
          rw [UInt64.add_assoc, UInt64.add_comm ms, ← UInt64.add_assoc]
      | count => rfl
      | bucket j => rfl
  | count => cases b <;> rfl
  | bucket i =>
      cases b with
      | sumMs ms' => rfl
      | count => rfl
      | bucket j => exact congrArg (fun buckets => { h with buckets }) (modify_modify_comm _ i j)

/-! ## §2. The counters after all observations. -/

/-- **The counters of a list of observations.** -/
def ofObservations (observed : List UInt64) : LatencyHistogram where
  buckets := (List.range 12).map fun k =>
    UInt64.ofNat (placedAt latencyBucketsMs k (observed.map UInt64.toNat))
  sumMs := UInt64.ofNat (observed.map UInt64.toNat).sum
  count := UInt64.ofNat observed.length

theorem observe_ofObservations (observed : List UInt64) (ms : UInt64) :
    (ofObservations observed).observe ms = ofObservations (observed ++ [ms]) := by
  unfold observe ofObservations
  rw [List.map_append, List.sum_append, List.length_append]
  congr 1
  · -- the bucket of the observation has one more
    refine List.ext_getElem? fun k => ?_
    rw [List.getElem?_modify, List.getElem?_map, List.getElem?_map]
    by_cases hk : k < 12
    · rw [List.getElem?_range hk, Option.map_some, Option.map_some]
      refine congrArg some ?_
      show (if place latencyBucketsMs ms.toNat = k then _ + 1 else _) = UInt64.ofNat
        (placedAt latencyBucketsMs k (observed.map UInt64.toNat ++ [ms.toNat]))
      rw [placedAt_append]
      by_cases hplace : place latencyBucketsMs ms.toNat = k
      · rw [if_pos hplace, if_pos hplace, UInt64.ofNat_add]
        rfl
      · rw [if_neg hplace, if_neg hplace]
        rfl
    · have hnone : (List.range 12)[k]? = none := by
        rw [List.getElem?_eq_none_iff, List.length_range]
        omega
      rw [hnone]
      rfl
  · rw [UInt64.ofNat_add]
    simp
  · rw [UInt64.ofNat_add]
    rfl

theorem foldl_observe (observed : List UInt64) :
    observed.foldl observe {} = ofObservations observed := by
  induction observed using List.reverseRecOn with
  | nil => rfl
  | append_singleton observed ms ih =>
      rw [List.foldl_append, ih]
      exact observe_ofObservations observed ms

end LatencyHistogram

/-! ## §3. The report. -/

/-- Counts that fit are added exactly. -/
theorem saturatingAdd_ofNat {a b : Nat} (h : a + b < 2 ^ 64) :
    saturatingAdd (UInt64.ofNat a) (UInt64.ofNat b) = UInt64.ofNat (a + b) := by
  have hsize : UInt64.size = 2 ^ 64 := rfl
  have ha : (UInt64.ofNat a).toNat = a := UInt64.toNat_ofNat_of_lt' (by omega)
  have hb : (UInt64.ofNat b).toNat = b := UInt64.toNat_ofNat_of_lt' (by omega)
  unfold saturatingAdd
  rw [ha, hb, if_pos h, UInt64.ofNat_add]

/-- A bucket line that shows a count. -/
def countLine (bound : String) (n : Nat) : String :=
  "docker_proxy_upstream_latency_ms_bucket\x7ble=\"" ++ bound ++ "\"\x7d " ++ toString n ++ "\n"

theorem renderBucket_ofNat (bound : String) {n : Nat} (h : n < 2 ^ 64) :
    renderBucket bound (UInt64.ofNat n) = countLine bound n := by
  unfold renderBucket countLine
  rw [UInt64.toNat_ofNat_of_lt' h]

/-- The observations that do not exceed a bound. -/
def countUpTo (xs : List Nat) (bound : Nat) : Nat := xs.countP fun x => decide (x ≤ bound)

/-- The line of a bound: how many observations do not exceed it. -/
def boundLine (xs : List Nat) (bound : Nat) : String :=
  countLine (toString bound) (countUpTo xs bound)

/-- **The bucket lines**, from any bound on. -/
theorem renderBuckets_eq {bounds : List Nat} (hsorted : bounds.Pairwise (· ≤ ·)) {xs : List Nat}
    (hfew : xs.length < 2 ^ 64) (after : List Nat) : ∀ before, bounds = before ++ after →
    renderBuckets after ((List.range' before.length (after.length + 1)).map fun k =>
        UInt64.ofNat (placedAt bounds k xs)) (UInt64.ofNat (placedBelow bounds before.length xs)) =
      (String.join (after.map (boundLine xs)),
        UInt64.ofNat (placedBelow bounds bounds.length xs)) := by
  induction after with
  | nil =>
      intro before h
      rw [List.append_nil] at h
      rw [h]
      rfl
  | cons b after ih =>
      intro before h
      have hk : before.length < bounds.length := by
        rw [h, List.length_append, List.length_cons]
        omega
      have hb : bounds[before.length] = b := by simp [h]
      -- the running total, with the bucket of `b` added
      have hsucc := placedBelow_succ bounds before.length xs
      have hle : placedBelow bounds (before.length + 1) xs ≤ xs.length := List.countP_le_length
      have hline : renderBucket (toString b)
          (UInt64.ofNat (placedBelow bounds (before.length + 1) xs)) = boundLine xs b := by
        rw [renderBucket_ofNat _ (by omega), placedBelow_eq hsorted hk, hb]
        rfl
      have hrest := ih (before ++ [b]) (by rw [h, List.append_assoc]; rfl)
      rw [List.length_append, List.length_singleton] at hrest
      rw [List.length_cons, List.range'_succ, List.map_cons, renderBuckets,
        saturatingAdd_ofNat (by omega), ← hsucc, hrest, List.map_cons, String.join_cons, ← hline]

/-- What `render_prometheus` writes of the histogram. -/
def LatencyHistogram.report (h : LatencyHistogram) : String :=
  (renderBuckets latencyBucketsMs h.buckets 0).1 ++
    renderBucket "+Inf" (saturatingAdd (renderBuckets latencyBucketsMs h.buckets 0).2
      (h.buckets.getLastD 0)) ++
    "docker_proxy_upstream_latency_ms_sum " ++ toString h.sumMs.toNat ++ "\n" ++
    "docker_proxy_upstream_latency_ms_count " ++ toString h.count.toNat ++ "\n"

/-- The report ends with the histogram, and what is in front does not depend on it. -/
theorem renderPrometheus_report (m : Metrics) :
    ∃ front, ∀ h, Metrics.renderPrometheus { m with latency := h } = front ++ h.report := by
  have hassoc : ∀ a b c d e f g i j : String,
      a ++ b ++ c ++ d ++ e ++ f ++ g ++ i ++ j =
        a ++ (b ++ c ++ d ++ e ++ f ++ g ++ i ++ j) := by
    intro a b c d e f g i j
    simp only [String.append_assoc]
  -- the text in front is read off the equation below
  apply Exists.intro
  intro h
  unfold Metrics.renderPrometheus LatencyHistogram.report
  cases renderBuckets latencyBucketsMs h.buckets 0 with
  | mk bucketLines cumulative =>
      dsimp only
      exact hassoc _ _ _ _ _ _ _ _ _

/-- **The exact report** of a list of observations. -/
def exactReport (xs : List Nat) : String :=
  String.join (latencyBucketsMs.map (boundLine xs)) ++ countLine "+Inf" xs.length ++
    "docker_proxy_upstream_latency_ms_sum " ++ toString (xs.sum % 2 ^ 64) ++ "\n" ++
    "docker_proxy_upstream_latency_ms_count " ++ toString xs.length ++ "\n"

theorem latencyBucketsMs_sorted : latencyBucketsMs.Pairwise (· ≤ ·) := by decide

/-- **The counters of a list of observations are reported exactly.** -/
theorem report_ofObservations {observed : List UInt64} (hfew : observed.length < 2 ^ 64) :
    (LatencyHistogram.ofObservations observed).report =
      exactReport (observed.map UInt64.toNat) := by
  have hlen : (observed.map UInt64.toNat).length = observed.length := List.length_map _
  rw [← hlen] at hfew
  generalize hh : LatencyHistogram.ofObservations observed = h
  generalize hxs : observed.map UInt64.toNat = xs at hfew hlen ⊢
  have hbuckets : h.buckets = (List.range' 0 12).map fun k =>
      UInt64.ofNat (placedAt latencyBucketsMs k xs) := by
    rw [← hh, ← hxs, ← List.range_eq_range']
    rfl
  have hzero : (0 : UInt64) = UInt64.ofNat (placedBelow latencyBucketsMs 0 xs) := by
    rw [placedBelow_zero]
    rfl
  have hrender : renderBuckets latencyBucketsMs h.buckets 0 =
      (String.join (latencyBucketsMs.map (boundLine xs)),
        UInt64.ofNat (placedBelow latencyBucketsMs 11 xs)) := by
    rw [hbuckets, hzero]
    exact renderBuckets_eq latencyBucketsMs_sorted hfew latencyBucketsMs [] rfl
  have hlast : h.buckets.getLastD 0 = UInt64.ofNat (placedAt latencyBucketsMs 11 xs) := by
    rw [hbuckets]
    rfl
  -- what is in the buckets of the bounds, and in the last one
  have hall : placedBelow latencyBucketsMs 11 xs + placedAt latencyBucketsMs 11 xs = xs.length := by
    rw [← placedBelow_succ]
    exact placedBelow_all latencyBucketsMs xs
  have hinf : saturatingAdd (UInt64.ofNat (placedBelow latencyBucketsMs 11 xs))
      (UInt64.ofNat (placedAt latencyBucketsMs 11 xs)) = UInt64.ofNat xs.length := by
    rw [saturatingAdd_ofNat (by omega), hall]
  have hsum : h.sumMs.toNat = xs.sum % 2 ^ 64 := by
    rw [← hh, ← hxs]
    exact UInt64.toNat_ofNat'
  have hcount : h.count.toNat = xs.length := by
    rw [hlen, ← hh]
    exact UInt64.toNat_ofNat_of_lt' (by rw [← hlen]; exact hfew)
  unfold LatencyHistogram.report exactReport
  rw [hrender, hlast, hinf, renderBucket_ofNat "+Inf" hfew, hsum, hcount]

/-! ## §4. Calls that interleave. -/

/-- One call for each observation, after the schedule: whose additions were done, and in
which order. -/
def observing (observed : List UInt64) (schedule : List Nat) :
    Threads LatencyHistogram LatencyAddition :=
  run (stepThread LatencyHistogram.add) ⟨{}, observed.map LatencyHistogram.additions⟩ schedule

/-- **The counters after calls that interleave in any way**, once all have finished. -/
theorem latency_of_finished {observed : List UInt64} {schedule : List Nat}
    (hdone : (observing observed schedule).Finished) :
    (observing observed schedule).state = LatencyHistogram.ofObservations observed := by
  have hcalls : (observed.map LatencyHistogram.additions).flatten.foldl LatencyHistogram.add {} =
      observed.foldl LatencyHistogram.observe {} := by
    rw [List.foldl_flatten, List.foldl_map]
    exact congrArg (List.foldl · _ observed) (funext₂ LatencyHistogram.foldl_additions)
  have hstate := state_of_finished LatencyHistogram.add {} _ schedule hdone
  rw [hcalls, LatencyHistogram.foldl_observe] at hstate
  exact hstate

/-- More observations are counted up to a larger bound, and no more than there are. -/
theorem countUpTo_mono (xs : List Nat) :
    (latencyBucketsMs.map (countUpTo xs) ++ [xs.length]).Pairwise (· ≤ ·) := by
  rw [List.pairwise_append]
  refine ⟨?_, List.pairwise_singleton _ _, ?_⟩
  · rw [List.pairwise_map]
    exact latencyBucketsMs_sorted.imp fun hle => countP_le_mono xs hle
  · intro n hn total htotal
    obtain ⟨bound, -, rfl⟩ := List.mem_map.mp hn
    rw [List.mem_singleton.mp htotal]
    exact List.countP_le_length

/-- **The histogram is exact.**  However the atomic additions of the calls interleave, when
all calls have finished the report has for each bound the number of observations that
do not exceed it, for `+Inf` and as the count the number of all, and their sum modulo
`2 ^ 64`; and the bucket lines never decrease. -/
theorem renderPrometheus_exact (m : Metrics) :
    ∃ front, ∀ (observed : List UInt64) (schedule : List Nat), observed.length < 2 ^ 64 →
      (observing observed schedule).Finished →
        Metrics.renderPrometheus { m with latency := (observing observed schedule).state } =
            front ++ exactReport (observed.map UInt64.toNat) ∧
          (latencyBucketsMs.map (countUpTo (observed.map UInt64.toNat)) ++
            [observed.length]).Pairwise (· ≤ ·) := by
  obtain ⟨front, hfront⟩ := renderPrometheus_report m
  refine ⟨front, fun observed schedule hfew hdone => ⟨?_, ?_⟩⟩
  · rw [hfront, latency_of_finished hdone, report_ofObservations hfew]
  · have hmono := countUpTo_mono (observed.map UInt64.toNat)
    rwa [List.length_map] at hmono

/-- Two calls whose additions interleave. -/
theorem renderPrometheus_exact_two :
    ∃ front, Metrics.renderPrometheus
        { latency := (observing [15, 700] [0, 1, 1, 0, 0, 1]).state } =
      front ++ exactReport [15, 700] := by
  obtain ⟨front, hfront⟩ := renderPrometheus_exact {}
  have hdone : (observing [15, 700] [0, 1, 1, 0, 0, 1]).Finished := by
    unfold Threads.Finished
    decide
  exact ⟨front, (hfront [15, 700] [0, 1, 1, 0, 0, 1] (by decide) hdone).1⟩

end DockerProxy.Proxy
