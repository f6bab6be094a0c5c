/-
  DockerProxy.Limiter.AuthBurst — which bursts of failures start a lockout.

  `record_failure` counts failures in TUMBLING windows: a window begins at a
  failure, and the next one at the first failure more than `window` later.  So a
  run of failures starts a lockout exactly when one of its tumbling windows
  holds `max` of them (`startsLockout_iff`).  A burst of `max` failures within
  `window` that straddles two windows is missed (`burst_missed`); `2·max - 1`
  are never missed (`startsLockout_of_double_burst`).
-/
import DockerProxy.Limiter.Auth

namespace DockerProxy.Limiter

/-! ## §1. Tumbling windows. -/

/-- The windows of the failures `ts`, the first one begun at `start` with the
failures `current`. -/
def tumblingFrom (window start : Nat) (current : List Nat) : List Nat → List (List Nat)
  | [] => [current]
  | t :: ts =>
      if window < t - start then current :: tumblingFrom window t [t] ts
      else tumblingFrom window start (current ++ [t]) ts

/-- **The tumbling windows of a run of failures.** -/
def tumblingWindows (window : Nat) : List Nat → List (List Nat)
  | [] => []
  | t :: ts => tumblingFrom window t [t] ts

/-- The current window only grows before it is closed. -/
theorem exists_window_extending (window : Nat) (ts : List Nat) :
    ∀ start current, ∃ w ∈ tumblingFrom window start current ts, current.length ≤ w.length := by
  induction ts with
  | nil => intro start current; exact ⟨current, by simp [tumblingFrom], Nat.le_refl _⟩
  | cons t ts ih =>
      intro start current
      unfold tumblingFrom
      split
      · exact ⟨current, List.mem_cons_self, Nat.le_refl _⟩
      · obtain ⟨w, hw, hlen⟩ := ih start (current ++ [t])
        refine ⟨w, hw, ?_⟩
        rw [List.length_append, List.length_singleton] at hlen
        omega

/-- What was recorded before only decides where the current window stands. -/
theorem tumblingFrom_append (window : Nat) (xs : List Nat) :
    ∀ start current, ∃ closed start' current', ∀ ys,
      tumblingFrom window start current (xs ++ ys) =
        closed ++ tumblingFrom window start' current' ys := by
  induction xs with
  | nil => intro start current; exact ⟨[], start, current, fun ys => rfl⟩
  | cons x xs ih =>
      intro start current
      by_cases hx : window < x - start
      · obtain ⟨closed, start', current', h⟩ := ih x [x]
        refine ⟨current :: closed, start', current', fun ys => ?_⟩
        rw [List.cons_append, tumblingFrom, if_pos hx, h ys]
        rfl
      · obtain ⟨closed, start', current', h⟩ := ih start (current ++ [x])
        refine ⟨closed, start', current', fun ys => ?_⟩
        rw [List.cons_append, tumblingFrom, if_neg hx, h ys]

/-- Failures that stay in the current window leave it open. -/
theorem tumblingFrom_of_within (window start : Nat) (ts : List Nat) :
    ∀ current, (∀ t ∈ ts, t - start ≤ window) →
      tumblingFrom window start current ts = [current ++ ts] := by
  induction ts with
  | nil => intro current _; simp [tumblingFrom]
  | cons t ts ih =>
      intro current h
      have ht := h t List.mem_cons_self
      rw [tumblingFrom, if_neg (by omega), ih _ (fun u hu => h u (List.mem_cons_of_mem t hu))]
      simp

/-- **Pigeonhole**: failures within one `window` meet at most two tumbling
windows, so half of them share one. -/
theorem exists_window_of_span (window start : Nat) {ts : List Nat}
    (hspan : ∀ t ∈ ts, ∀ u ∈ ts, u - t ≤ window) :
    ∀ (current : List Nat) (n : Nat), 2 * n - 1 ≤ current.length + ts.length →
      ∃ w ∈ tumblingFrom window start current ts, n ≤ w.length := by
  induction ts with
  | nil =>
      intro current n hn
      simp only [List.length_nil] at hn
      exact ⟨current, by simp [tumblingFrom], by omega⟩
  | cons t ts ih =>
      intro current n hn
      rw [tumblingFrom]
      by_cases hnew : window < t - start
      · -- the rest of the failures fit into the window begun here
        have hwithin : ∀ u ∈ ts, u - t ≤ window := fun u hu =>
          hspan t List.mem_cons_self u (List.mem_cons_of_mem t hu)
        rw [if_pos hnew, tumblingFrom_of_within window t ts [t] hwithin]
        simp only [List.length_cons] at hn
        by_cases hcur : n ≤ current.length
        · exact ⟨current, List.mem_cons_self, hcur⟩
        · refine ⟨[t] ++ ts, by simp, ?_⟩
          simp only [List.length_append, List.length_singleton]
          omega
      · rw [if_neg hnew]
        refine ih (fun u hu v hv => hspan u (List.mem_cons_of_mem t hu) v
          (List.mem_cons_of_mem t hv)) (current ++ [t]) n ?_
        simp only [List.length_append, List.length_cons] at hn ⊢
        omega

/-! ## §2. Runs of failures of one address. -/

namespace AuthLimiter

section

variable (key : String) (max : UInt32) (window lockout : Nat)

/-- The outcomes of `record_failure` at the times `ts`. -/
def recordFailures (al : AuthLimiter) : List Nat → List Bool
  | [] => []
  | t :: ts =>
      (al.recordFailure t key max window lockout).1 ::
        recordFailures (al.recordFailure t key max window lockout).2 ts

/-- A lockout has been started no later than the last of the failures. -/
def StartsLockout (al : AuthLimiter) (ts : List Nat) : Prop :=
  true ∈ al.recordFailures key max window lockout ts

/-- **The address counts `current`, no lockout among them.** -/
def Counting (start : Nat) (current : List Nat) (al : AuthLimiter) : Prop :=
  al.entry key = some ⟨UInt32.ofNat current.length, start, none⟩ ∧ current.length < max.toNat

variable {key max window lockout}

/-- A counter below `max` does not saturate. -/
theorem saturatingSucc_ofNat {n : Nat} (h : n < max.toNat) :
    saturatingSucc (UInt32.ofNat n) = UInt32.ofNat (n + 1) := by
  have hmax := max.toNat_lt
  have hn : (UInt32.ofNat n).toNat = n := by
    rw [UInt32.toNat_ofNat']
    omega
  unfold saturatingSucc
  rw [if_neg]
  · exact (UInt32.ofNat_add n 1).symm
  · intro heq
    rw [heq] at hn
    have hfull : (0xffffffff : UInt32).toNat = 4294967295 := rfl
    omega

theorem max_le_ofNat_iff {n : Nat} (h : n ≤ max.toNat) :
    max ≤ UInt32.ofNat n ↔ max.toNat ≤ n := by
  have hmax := max.toNat_lt
  rw [UInt32.le_iff_toNat_le, UInt32.toNat_ofNat', Nat.mod_eq_of_lt (by omega)]

/-- **One failure**: a window that `n` failures were counted in, the new one
included, starts a lockout exactly when `n` reaches `max`. -/
theorem recordFailure_entry {al : AuthLimiter} (hroom : key ∈ al.state ∨
      al.state.size < maxAuthLimiterKeys) {t start n : Nat}
    (hfail : (((al.entry key).getD (.fresh t)).expire t).rewindow t window =
      ⟨UInt32.ofNat n, start, none⟩) (hn : n < max.toNat) :
    ((al.recordFailure t key max window lockout).1 = decide (max.toNat ≤ n + 1)) ∧
      (n + 1 < max.toNat → (al.recordFailure t key max window lockout).2.entry key =
        some ⟨UInt32.ofNat (n + 1), start, none⟩) := by
  have hout : ((al.entry key).getD (.fresh t)).fail t max window lockout =
      if max.toNat ≤ n + 1 then (true, ⟨UInt32.ofNat (n + 1), start, some (t + lockout)⟩)
      else (false, ⟨UInt32.ofNat (n + 1), start, none⟩) := by
    unfold AuthLockoutState.fail
    simp only [hfail, saturatingSucc_ofNat hn, max_le_ofNat_iff (Nat.succ_le_of_lt hn), and_true]
  rw [entry_recordFailure_self hroom, recordFailure_of_room hroom, hout]
  constructor
  · by_cases hmax : max.toNat ≤ n + 1
    · simp [hmax]
    · simp [hmax]
  · intro hlt
    rw [if_neg (by omega)]

/-- The runs `ts` that start a lockout from a running count exactly when one of
their tumbling windows reaches `max`. -/
def CountsWindows (key : String) (max : UInt32) (window lockout : Nat) (ts : List Nat) : Prop :=
  ∀ (al : AuthLimiter) (start : Nat) (current : List Nat), al.Counting key max start current →
    (al.StartsLockout key max window lockout ts ↔
      ∃ w ∈ tumblingFrom window start current ts, max.toNat ≤ w.length)

/-- A failure counted in a window, and what the rest of the run makes of it. -/
theorem startsLockout_cons {ts : List Nat} (ih : CountsWindows key max window lockout ts)
    {al : AuthLimiter} (hroom : key ∈ al.state ∨ al.state.size < maxAuthLimiterKeys)
    {t start : Nat} {current : List Nat}
    (hfail : (((al.entry key).getD (.fresh t)).expire t).rewindow t window =
      ⟨UInt32.ofNat current.length, start, none⟩) (hlt : current.length < max.toNat) :
    al.StartsLockout key max window lockout (t :: ts) ↔
      ∃ w ∈ tumblingFrom window start (current ++ [t]) ts, max.toNat ≤ w.length := by
  have hmem : al.StartsLockout key max window lockout (t :: ts) ↔
      (al.recordFailure t key max window lockout).1 = true ∨
        (al.recordFailure t key max window lockout).2.StartsLockout key max window lockout ts := by
    simp only [StartsLockout, recordFailures, List.mem_cons]
    rw [eq_comm]
  obtain ⟨hout, hnext⟩ := @recordFailure_entry key max window lockout al hroom t start _ hfail hlt
  have hlen' : (current ++ [t]).length = current.length + 1 := by simp
  rw [hmem, hout]
  by_cases hfull : max.toNat ≤ current.length + 1
  · -- this failure starts the lockout, and its window keeps what it has
    obtain ⟨w, hw, hlen⟩ := exists_window_extending window ts start (current ++ [t])
    rw [hlen'] at hlen
    exact ⟨fun _ => ⟨w, hw, Nat.le_trans hfull hlen⟩, fun _ => Or.inl (decide_eq_true hfull)⟩
  · have hcount : Counting key max start (current ++ [t])
        (al.recordFailure t key max window lockout).2 := by
      refine ⟨?_, ?_⟩
      · rw [hlen']
        exact hnext (by omega)
      · rw [hlen']
        omega
    rw [ih _ start (current ++ [t]) hcount]
    exact ⟨fun h => h.resolve_left (by simpa using hfull), Or.inr⟩

/-- **The run lemma**: from a running count, a lockout starts exactly when a
tumbling window reaches `max`. -/
theorem countsWindows (hmax : 0 < max) (ts : List Nat) :
    CountsWindows key max window lockout ts := by
  induction ts with
  | nil =>
      intro al start current hc
      simp only [StartsLockout, recordFailures, List.not_mem_nil, tumblingFrom,
        List.mem_singleton, exists_eq_left, false_iff]
      have := hc.2
      omega
  | cons t ts ih =>
      intro al start current hc
      obtain ⟨hentry, hlt⟩ := hc
      have hroom : key ∈ al.state ∨ al.state.size < maxAuthLimiterKeys :=
        Or.inl (room_of_entry hentry)
      rw [tumblingFrom]
      by_cases hnew : window < t - start
      · -- the window is over: this failure begins the next one
        have hfail : (((al.entry key).getD (.fresh t)).expire t).rewindow t window =
            ⟨UInt32.ofNat ([] : List Nat).length, t, none⟩ := by
          rw [hentry]
          exact if_pos hnew
        rw [if_pos hnew, startsLockout_cons ih hroom hfail (UInt32.lt_iff_toNat_lt.mp hmax)]
        constructor
        · intro ⟨w, hw, hlen⟩
          exact ⟨w, List.mem_cons_of_mem _ hw, hlen⟩
        · intro ⟨w, hw, hlen⟩
          cases List.mem_cons.mp hw with
          | inl hw =>
              rw [hw] at hlen
              omega
          | inr hw => exact ⟨w, hw, hlen⟩
      · -- the failure falls into the current window
        have hfail : (((al.entry key).getD (.fresh t)).expire t).rewindow t window =
            ⟨UInt32.ofNat current.length, start, none⟩ := by
          rw [hentry]
          exact if_neg hnew
        rw [if_neg hnew, startsLockout_cons ih hroom hfail hlt]

/-! ## §3. Bursts. -/

/-- **No count is running and no lockout is in force** for the address when the
failures `ts` come: it has no entry, or only that of a lockout that is over. -/
def Clear (key : String) (ts : List Nat) (al : AuthLimiter) : Prop :=
  ∀ s, al.entry key = some s → ∃ u, s.blockedUntil = some u ∧ ∀ t ∈ ts, u ≤ t

/-- **Lockouts, exactly.**  A run of failures starts a lockout if and only if one
of its tumbling windows holds `max` of them. -/
theorem startsLockout_iff (hmax : 0 < max) {al : AuthLimiter} {ts : List Nat}
    (hroom : key ∈ al.state ∨ al.state.size < maxAuthLimiterKeys) (hclear : al.Clear key ts) :
    al.StartsLockout key max window lockout ts ↔
      ∃ w ∈ tumblingWindows window ts, max.toNat ≤ w.length := by
  cases ts with
  | nil => simp [StartsLockout, recordFailures, tumblingWindows]
  | cons t ts =>
      have hfail : (((al.entry key).getD (.fresh t)).expire t).rewindow t window =
          ⟨UInt32.ofNat ([] : List Nat).length, t, none⟩ := by
        have hfresh : ((al.entry key).getD (.fresh t)).expire t = .fresh t := by
          cases hs : al.entry key with
          | none => rfl
          | some s =>
              obtain ⟨u, hu, hle⟩ := hclear s hs
              show s.expire t = _
              unfold AuthLockoutState.expire
              rw [hu]
              exact if_pos (hle t List.mem_cons_self)
        rw [hfresh]
        refine if_neg ?_
        show ¬ window < t - t
        omega
      exact startsLockout_cons (countsWindows hmax ts) hroom hfail (UInt32.lt_iff_toNat_lt.mp hmax)

end

/-- A burst: `max` failures within a span of at most `window`. -/
def IsBurst (max : UInt32) (window : Nat) (burst : List Nat) : Prop :=
  burst.length = max.toNat ∧ ∀ t ∈ burst, ∀ u ∈ burst, u - t ≤ window

/-- Every burst of the run has started a lockout no later than its last failure. -/
def CatchesBursts (key : String) (max : UInt32) (window lockout : Nat) (al : AuthLimiter)
    (ts : List Nat) : Prop :=
  ∀ pre burst post, ts = pre ++ burst ++ post → IsBurst max window burst →
    al.StartsLockout key max window lockout (pre ++ burst)

/-- **Bursts, exactly.**  Every burst of a run is caught if and only if up to the
end of each of them some tumbling window holds `max` failures. -/
theorem catchesBursts_iff {key : String} {max : UInt32} (hmax : 0 < max) (window lockout : Nat)
    {al : AuthLimiter} {ts : List Nat}
    (hroom : key ∈ al.state ∨ al.state.size < maxAuthLimiterKeys) (hclear : al.Clear key ts) :
    al.CatchesBursts key max window lockout ts ↔
      ∀ pre burst post, ts = pre ++ burst ++ post → IsBurst max window burst →
        ∃ w ∈ tumblingWindows window (pre ++ burst), max.toNat ≤ w.length := by
  have hstarts : ∀ pre burst post, ts = pre ++ burst ++ post →
      (al.StartsLockout key max window lockout (pre ++ burst) ↔
        ∃ w ∈ tumblingWindows window (pre ++ burst), max.toNat ≤ w.length) := by
    intro pre burst post hts
    refine startsLockout_iff hmax hroom (fun s hs => ?_)
    obtain ⟨u, hu, hle⟩ := hclear s hs
    refine ⟨u, hu, fun t ht => hle t ?_⟩
    rw [hts]
    exact List.mem_append_left post ht
  unfold CatchesBursts
  constructor
  · intro h pre burst post hts hburst
    exact (hstarts pre burst post hts).mp (h pre burst post hts hburst)
  · intro h pre burst post hts hburst
    exact (hstarts pre burst post hts).mpr (h pre burst post hts hburst)

/-- Three failures within 3 s, limit 3 within 10 s, and no lockout: the first
failure of all began a window that ends between them. -/
theorem burst_missed :
    ¬ new.CatchesBursts "10.0.0.7" 3 (fromSecs 10) (fromSecs 300)
      [fromSecs 0, fromSecs 9, fromSecs 11, fromSecs 12] := by
  intro h
  have hburst : IsBurst 3 (fromSecs 10) [fromSecs 9, fromSecs 11, fromSecs 12] := by
    refine ⟨rfl, ?_⟩
    decide
  have hstart : true ∈ new.recordFailures "10.0.0.7" 3 (fromSecs 10) (fromSecs 300)
      [fromSecs 0, fromSecs 9, fromSecs 11, fromSecs 12] :=
    h [fromSecs 0] [fromSecs 9, fromSecs 11, fromSecs 12] [] rfl hburst
  have hnone : new.recordFailures "10.0.0.7" 3 (fromSecs 10) (fromSecs 300)
      [fromSecs 0, fromSecs 9, fromSecs 11, fromSecs 12] = [false, false, false, false] := by
    decide +kernel
  rw [hnone] at hstart
  exact absurd hstart (by decide)

/-- The same failures without the first one. -/
theorem burst_caught :
    new.CatchesBursts "10.0.0.7" 3 (fromSecs 10) (fromSecs 300)
        [fromSecs 9, fromSecs 11, fromSecs 12] ↔
      ∀ pre burst post, [fromSecs 9, fromSecs 11, fromSecs 12] = pre ++ burst ++ post →
        IsBurst 3 (fromSecs 10) burst →
        ∃ w ∈ tumblingWindows (fromSecs 10) (pre ++ burst), (3 : UInt32).toNat ≤ w.length := by
  refine catchesBursts_iff (by decide) (fromSecs 10) (fromSecs 300) (Or.inr ?_) ?_
  · decide +kernel
  · intro s hs
    rw [entry_new] at hs
    exact absurd hs (by simp)

/-- **Twice the limit is never missed**: of `2·max - 1` failures within a window,
`max` fall into one tumbling window, wherever the windows stand. -/
theorem startsLockout_of_double_burst {key : String} {max : UInt32} (hmax : 0 < max)
    {window lockout : Nat} {al : AuthLimiter} {pre burst : List Nat}
    (hroom : key ∈ al.state ∨ al.state.size < maxAuthLimiterKeys)
    (hclear : al.Clear key (pre ++ burst)) (hlen : 2 * max.toNat - 1 ≤ burst.length)
    (hspan : ∀ t ∈ burst, ∀ u ∈ burst, u - t ≤ window) :
    al.StartsLockout key max window lockout (pre ++ burst) := by
  refine (startsLockout_iff hmax hroom hclear).mpr ?_
  cases pre with
  | nil =>
      cases burst with
      | nil =>
          have hpos : 0 < max.toNat := UInt32.lt_iff_toNat_lt.mp hmax
          simp only [List.length_nil] at hlen
          omega
      | cons t burst =>
          -- the first failure begins the window it is counted in
          obtain ⟨w, hw, hlen'⟩ :=
            exists_window_of_span window t hspan [] max.toNat (by simpa using hlen)
          rw [tumblingFrom, if_neg (by omega)] at hw
          exact ⟨w, hw, hlen'⟩
  | cons p pre =>
      obtain ⟨closed, start', current', happend⟩ := tumblingFrom_append window pre p [p]
      obtain ⟨w, hw, hlen'⟩ :=
        exists_window_of_span window start' hspan current' max.toNat (by omega)
      refine ⟨w, ?_, hlen'⟩
      show w ∈ tumblingFrom window p [p] (pre ++ burst)
      rw [happend burst]
      exact List.mem_append_right closed hw

end AuthLimiter

end DockerProxy.Limiter
