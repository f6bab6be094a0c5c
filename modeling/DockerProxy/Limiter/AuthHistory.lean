/-
  DockerProxy.Limiter.AuthHistory — a lockout is deserved, and starts once.

  The counter of an entry is tied to the uses of the limiter that led to it: since the
  last success of the address there were at least as many failures of it, from the
  beginning of the entry's window on (`Counted`).  Whatever starts the count over
  (a window or a lockout that is over, a success, a cleanup) only forgets failures, so
  the counter that starts a lockout never exceeds what really happened
  (`lockout_deserved`, first part).  While the lockout lasts no failure of the address
  starts another (second part).
-/
import Mathlib.Data.List.DropRight
import DockerProxy.Limiter.AuthLockout

namespace DockerProxy.Limiter

open DockerProxy.Lib

/-! ## §1. What happened to an address. -/

namespace AuthOp

/-- The clock does not go back. -/
def InOrder (ops : List AuthOp) : Prop := ops.Pairwise fun op op' => op.time ≤ op'.time

instance (ops : List AuthOp) : Decidable (InOrder ops) :=
  inferInstanceAs (Decidable (ops.Pairwise _))

/-- A success of the address. -/
def isSuccess (key : String) : AuthOp → Bool
  | .recordSuccess _ key' => key' == key
  | .isBlocked _ _ | .recordFailure _ _ _ _ _ | .cleanup _ => false

/-- A failure of the address. -/
def isFailure (key : String) : AuthOp → Bool
  | .recordFailure _ key' _ _ _ => key' == key
  | .isBlocked _ _ | .recordSuccess _ _ | .cleanup _ => false

/-- The uses since the last success of the address. -/
def sinceSuccess (key : String) (ops : List AuthOp) : List AuthOp :=
  ops.rtakeWhile fun op => !op.isSuccess key

/-- The failures of the address in the window that ends `now`, since its last success. -/
def recentFailures (key : String) (now window : Nat) (ops : List AuthOp) : Nat :=
  (sinceSuccess key ops).countP fun op =>
    op.isFailure key && decide (now - window ≤ op.time) && decide (op.time ≤ now)

/-- The failures of the address from a time on, since its last success. -/
def failuresFrom (key : String) (from_ : Nat) (ops : List AuthOp) : Nat :=
  (sinceSuccess key ops).countP fun op => op.isFailure key && decide (from_ ≤ op.time)

variable {key : String}

theorem sinceSuccess_concat {op : AuthOp} (h : op.isSuccess key = false) (ops : List AuthOp) :
    sinceSuccess key (ops ++ [op]) = sinceSuccess key ops ++ [op] :=
  List.rtakeWhile_concat_pos _ _ _ (by simp [h])

theorem mem_of_mem_sinceSuccess {op : AuthOp} {ops : List AuthOp}
    (h : op ∈ sinceSuccess key ops) : op ∈ ops :=
  (List.rtakeWhile_suffix _ _).subset h

theorem failuresFrom_concat {op : AuthOp} (h : op.isSuccess key = false) (from_ : Nat)
    (ops : List AuthOp) :
    failuresFrom key from_ (ops ++ [op]) = failuresFrom key from_ ops +
      if op.isFailure key && decide (from_ ≤ op.time) then 1 else 0 := by
  unfold failuresFrom
  rw [sinceSuccess_concat h, List.countP_append, List.countP_singleton]

/-- What is counted from within the window on is in the window. -/
theorem failuresFrom_le_recent {ops : List AuthOp} {from_ now window : Nat}
    (hfrom : now - window ≤ from_) (hops : ∀ op ∈ ops, op.time ≤ now) :
    failuresFrom key from_ ops ≤ recentFailures key now window ops := by
  refine List.countP_mono_left (fun op hop hcount => ?_)
  have hnow := hops op (mem_of_mem_sinceSuccess hop)
  simp only [Bool.and_eq_true, decide_eq_true_eq] at hcount ⊢
  exact ⟨⟨hcount.1, by omega⟩, hnow⟩

end AuthOp

/-! ## §2. One failure. -/

theorem saturatingSucc_le (n : UInt32) : (saturatingSucc n).toNat ≤ n.toNat + 1 := by
  unfold saturatingSucc
  split
  · omega
  · rw [UInt32.toNat_add]
    exact Nat.mod_le _ _

namespace AuthLockoutState

/-- **What a failure counts from**: the entry as it is, or a count that starts over. -/
theorem restart_cases (s : AuthLockoutState) (now window : Nat) :
    (((s.expire now).rewindow now window).failures = s.failures ∧
        ((s.expire now).rewindow now window).firstFailure = s.firstFailure) ∨
      (((s.expire now).rewindow now window).failures = 0 ∧
        ((s.expire now).rewindow now window).firstFailure = now) := by
  have hexpire : s.expire now = s ∨ s.expire now = fresh now := by
    unfold expire
    split
    · split
      · exact Or.inr rfl
      · exact Or.inl rfl
    · exact Or.inl rfl
  unfold rewindow
  split
  · exact Or.inr ⟨rfl, rfl⟩
  · obtain hsame | hfresh := hexpire
    · rw [hsame]
      exact Or.inl ⟨rfl, rfl⟩
    · rw [hfresh]
      exact Or.inr ⟨rfl, rfl⟩

/-- A failure counts one more, from the same beginning. -/
theorem fail_count (s : AuthLockoutState) (now : Nat) (max : UInt32) (window lockout : Nat) :
    (s.fail now max window lockout).2.failures =
        saturatingSucc ((s.expire now).rewindow now window).failures ∧
      (s.fail now max window lockout).2.firstFailure =
        ((s.expire now).rewindow now window).firstFailure := by
  unfold fail
  simp only
  split
  · exact ⟨rfl, rfl⟩
  · exact ⟨rfl, rfl⟩

/-- After a failure the window is not over. -/
theorem fail_window (s : AuthLockoutState) (now : Nat) (max : UInt32) (window lockout : Nat) :
    now - (s.fail now max window lockout).2.firstFailure ≤ window := by
  rw [(fail_count s now max window lockout).2]
  unfold rewindow
  split
  · show now - now ≤ window
    omega
  · omega

/-- A lockout starts with enough failures. -/
theorem max_le_of_started {s : AuthLockoutState} {now : Nat} {max : UInt32}
    {window lockout : Nat} (h : (s.fail now max window lockout).1 = true) :
    max ≤ (s.fail now max window lockout).2.failures := by
  rw [(fail_count s now max window lockout).1]
  unfold fail at h
  simp only at h
  split at h
  · rename_i hc
    exact hc.1
  · exact absurd h (by simp)

end AuthLockoutState

/-! ## §3. The counter and the history. -/

namespace AuthLimiter

open AuthOp AuthLockoutState

variable {key : String}

/-- **The counter is accounted for**: the window began at one of the uses, and since
then the address failed at least as often as the entry says. -/
def Counted (key : String) (past : List AuthOp) (s : AuthLockoutState) : Prop :=
  s.firstFailure ∈ past.map AuthOp.time ∧
    s.failures.toNat ≤ failuresFrom key s.firstFailure past

/-- A further use that is no success of the address takes nothing away. -/
theorem Counted.concat {past : List AuthOp} {s : AuthLockoutState} {op : AuthOp}
    (h : Counted key past s) (hop : op.isSuccess key = false) : Counted key (past ++ [op]) s := by
  obtain ⟨hfirst, hcount⟩ := h
  constructor
  · rw [List.map_append]
    exact List.mem_append_left _ hfirst
  · rw [failuresFrom_concat hop]
    omega

/-- A failure counts itself. -/
theorem counted_fail {past : List AuthOp} {s : AuthLockoutState} {now : Nat}
    (h : Counted key past s ∨ s = fresh now) (hpast : ∀ op ∈ past, op.time ≤ now) (max : UInt32)
    (window lockout : Nat) :
    Counted key (past ++ [.recordFailure now key max window lockout])
      (s.fail now max window lockout).2 := by
  -- what the failure counts from is accounted for, or nothing was counted yet
  have hfrom : (((s.expire now).rewindow now window).firstFailure ∈ past.map AuthOp.time ∨
        ((s.expire now).rewindow now window).firstFailure = now) ∧
      ((s.expire now).rewindow now window).failures.toNat ≤
        failuresFrom key ((s.expire now).rewindow now window).firstFailure past := by
    obtain ⟨hfailures, hfirst⟩ | ⟨hfailures, hfirst⟩ := restart_cases s now window
    · rw [hfailures, hfirst]
      obtain ⟨hmem, hcount⟩ | hfresh := h
      · exact ⟨Or.inl hmem, hcount⟩
      · rw [hfresh]
        exact ⟨Or.inr rfl, Nat.zero_le _⟩
    · rw [hfailures, hfirst]
      exact ⟨Or.inr rfl, Nat.zero_le _⟩
  obtain ⟨hmem, hcount⟩ := hfrom
  -- the failure itself is the one that is added
  obtain ⟨hfailures, hfirst⟩ := fail_count s now max window lockout
  have hle : ((s.expire now).rewindow now window).firstFailure ≤ now := by
    cases hmem with
    | inl hmem =>
        obtain ⟨op, hop, htime⟩ := List.mem_map.mp hmem
        rw [← htime]
        exact hpast op hop
    | inr hnow => omega
  unfold Counted
  rw [hfailures, hfirst]
  constructor
  · rw [List.map_append, List.mem_append]
    exact hmem.imp_right fun hnow => List.mem_singleton.mpr hnow
  · have hself : ((AuthOp.recordFailure now key max window lockout).isFailure key &&
        decide (((s.expire now).rewindow now window).firstFailure ≤
          (AuthOp.recordFailure now key max window lockout).time)) = true := by
      simp [isFailure, AuthOp.time, hle]
    have hsucc := saturatingSucc_le ((s.expire now).rewindow now window).failures
    rw [failuresFrom_concat rfl, if_pos hself]
    omega

/-- **A use keeps the counter accounted for.** -/
theorem step_counted {past : List AuthOp} {al : AuthLimiter} {op : AuthOp}
    (h : ∀ s, al.entry key = some s → Counted key past s)
    (hpast : ∀ op' ∈ past, op'.time ≤ op.time) :
    ∀ s, (step al op).entry key = some s → Counted key (past ++ [op]) s := by
  intro s hs
  cases op with
  | isBlocked now key' => exact (h s hs).concat rfl
  | cleanup now =>
      have hs : (al.cleanup now).entry key = some s := hs
      rw [entry_cleanup] at hs
      exact (h s (Option.filter_eq_some_iff.mp hs).1).concat rfl
  | recordSuccess now key' =>
      have hs : (al.recordSuccess key').entry key = some s := hs
      rw [entry_recordSuccess] at hs
      by_cases hkey : key' = key
      · rw [if_pos hkey] at hs
        exact absurd hs (by simp)
      · rw [if_neg hkey] at hs
        exact (h s hs).concat (by simpa [isSuccess] using hkey)
  | recordFailure now key' max window lockout =>
      have hs : (al.recordFailure now key' max window lockout).2.entry key = some s := hs
      by_cases hkey : key' = key
      · rw [hkey] at hs ⊢
        obtain hfull | ⟨-, hentry⟩ := al.recordFailure_cases now key max window lockout
        · -- a full table counts nothing
          rw [hfull] at hs
          exact (h s hs).concat rfl
        · rw [hentry] at hs
          rw [← Option.some.inj hs]
          refine counted_fail ?_ hpast max window lockout
          cases hfound : al.entry key with
          | none => exact Or.inr rfl
          | some s' => exact Or.inl (h s' hfound)
      · rw [entry_recordFailure_of_ne hkey] at hs
        exact (h s hs).concat rfl

/-- **The counter is accounted for in every run.** -/
theorem run_counted {ops : List AuthOp} (hsorted : InOrder ops) {s : AuthLockoutState}
    (hs : (run step new ops).entry key = some s) : Counted key ops s :=
  history_invariant step
    (I := fun past al => ∀ s, al.entry key = some s → Counted key past s)
    (fun s hs => absurd hs (by simp)) (fun _ _ _ h hpast => step_counted h hpast) ops hsorted s hs

/-! ## §4. Lockouts. -/

/-- The entry's lockout ends at `until_`. -/
def BlockedUntil (key : String) (until_ : Nat) (al : AuthLimiter) : Prop :=
  ∃ s, al.entry key = some s ∧ s.blockedUntil = some until_

/-- **Before its end a lockout outlives every use** but a success of the address. -/
theorem step_blocked {al : AuthLimiter} {until_ : Nat} {op : AuthOp}
    (h : BlockedUntil key until_ al) (hop : op.time < until_ ∧ op.isSuccess key = false) :
    BlockedUntil key until_ (step al op) := by
  obtain ⟨hbefore, hother⟩ := hop
  cases op with
  | isBlocked now key' => exact h
  | recordFailure now key' max window lockout =>
      exact AuthSystem.blocked_recordFailure max window lockout key' h hbefore
  | recordSuccess now key' =>
      exact AuthSystem.blocked_recordSuccess h (by simpa [isSuccess] using hother)
  | cleanup now => exact AuthSystem.blocked_cleanup h hbefore

/-- A failure during the lockout starts none. -/
theorem recordFailure_of_blocked {al : AuthLimiter} {until_ now : Nat}
    (h : BlockedUntil key until_ al) (hbefore : now < until_) (max : UInt32)
    (window lockout : Nat) : (al.recordFailure now key max window lockout).1 = false := by
  obtain ⟨s, hs, hu⟩ := h
  rw [recordFailure_of_room (Or.inl (room_of_entry hs)), hs]
  exact (fail_of_blocked hu hbefore max window lockout).1

/-- **No innocent lockout.**  In every run from an empty limiter whose clock does not go
back, a failure starts a lockout only if with it the address failed `max` times within the
window since its last success; and until that lockout ends no failure of the address
starts another, unless a success of it comes between. -/
theorem lockout_deserved {ops : List AuthOp} {now : Nat} {max : UInt32} {window lockout : Nat}
    (hsorted : InOrder (ops ++ [.recordFailure now key max window lockout]))
    (hstarted : answer (run step new ops) (.recordFailure now key max window lockout) =
      some true) :
    max.toNat ≤ recentFailures key now window
        (ops ++ [.recordFailure now key max window lockout]) ∧
      ∀ (mid : List AuthOp) (later : Nat) (max' : UInt32) (window' lockout' : Nat),
        InOrder (ops ++ [.recordFailure now key max window lockout] ++ mid ++
          [.recordFailure later key max' window' lockout']) →
        (∀ op ∈ mid, op.isSuccess key = false) → later < now + lockout →
        answer (run step new (ops ++ [.recordFailure now key max window lockout] ++ mid))
          (.recordFailure later key max' window' lockout') = some false := by
  have hstarted : ((run step new ops).recordFailure now key max window lockout).1 = true :=
    Option.some.inj hstarted
  obtain ⟨s, hstarts, hs, hblocked⟩ := recordFailure_started hstarted
  have hentry : (run step new (ops ++ [.recordFailure now key max window lockout])).entry key =
      some (s.fail now max window lockout).2 := by
    rw [run_concat]
    exact hs
  constructor
  · -- the counter at the start of the lockout counts from within the window
    have hle := (List.pairwise_append.mp hsorted).2.2
    have hops : ∀ op ∈ ops ++ [.recordFailure now key max window lockout], op.time ≤ now := by
      intro op hop
      cases List.mem_append.mp hop with
      | inl hop => exact hle op hop _ List.mem_cons_self
      | inr hop => rw [List.mem_singleton.mp hop]; exact Nat.le_refl now
    have hwindow := fail_window s now max window lockout
    calc max.toNat ≤ (s.fail now max window lockout).2.failures.toNat :=
          UInt32.le_iff_toNat_le.mp (max_le_of_started hstarts)
      _ ≤ failuresFrom key (s.fail now max window lockout).2.firstFailure _ :=
          (run_counted hsorted hentry).2
      _ ≤ recentFailures key now window _ := failuresFrom_le_recent (by omega) hops
  · intro mid later max' window' lockout' hlater hmid hbefore
    have hle := (List.pairwise_append.mp hlater).2.2
    -- the clock stays before the end of the lockout until the later failure
    have hstill : BlockedUntil key (now + lockout)
        (run step new (ops ++ [.recordFailure now key max window lockout] ++ mid)) := by
      rw [run_append]
      refine along_invariant step (fun _ _ => step_blocked) mid _ ⟨_, hentry, hblocked⟩
        (along_of_forall step mid _ fun op hop => ⟨?_, hmid op hop⟩)
      have hop : op.time ≤ later := hle op (List.mem_append_right _ hop) _ List.mem_cons_self
      omega
    exact congrArg some (recordFailure_of_blocked hstill hbefore max' window' lockout')

/-- A failure, a success, and another failure that a cleanup retains. -/
def failuresOfA : List AuthOp :=
  [.recordFailure 1 "a" 2 5 9, .recordSuccess 3 "a", .recordFailure 4 "a" 2 5 9, .cleanup 5]

/-- The next failure starts a lockout, and until it ends no further one does. -/
theorem lockout_deserved_by_a :
    (2 : UInt32).toNat ≤ recentFailures "a" 7 5 (failuresOfA ++ [.recordFailure 7 "a" 2 5 9]) ∧
      ∀ (mid : List AuthOp) (later : Nat) (max' : UInt32) (window' lockout' : Nat),
        InOrder (failuresOfA ++ [.recordFailure 7 "a" 2 5 9] ++ mid ++
          [.recordFailure later "a" max' window' lockout']) →
        (∀ op ∈ mid, op.isSuccess "a" = false) → later < 7 + 9 →
        answer (run step new (failuresOfA ++ [.recordFailure 7 "a" 2 5 9] ++ mid))
          (.recordFailure later "a" max' window' lockout') = some false :=
  lockout_deserved (by decide) (by decide +kernel)

end AuthLimiter

end DockerProxy.Limiter
