/-
  DockerProxy.Limiter.AuthSilent — `cleanup` of the auth limiter is unobservable.

  An entry that `cleanup` drops is past its lockout, or its window began at least
  600 s ago.  It blocks nobody any more, and the next failure starts it over, as it
  starts the entry of an address that has none (`fail_of_stale`); so does every later
  one, for a window shorter than 600 s.  Hence the limiter without the cleanups
  simulates the one with them.
-/
import DockerProxy.Lib.Eviction
import DockerProxy.Lib.Silent
import DockerProxy.Limiter.Auth

namespace DockerProxy.Limiter

open DockerProxy.Lib

/-! ## §1. Stale entries. -/

namespace AuthLockoutState

/-- `cleanup` would drop the entry. -/
def Stale (now : Nat) (s : AuthLockoutState) : Prop := s.retained now = false

theorem stale_iff {now : Nat} {s : AuthLockoutState} :
    Stale now s ↔ (∃ u, s.blockedUntil = some u ∧ u ≤ now) ∨
      (s.blockedUntil = none ∧ fromSecs 600 ≤ now - s.firstFailure) := by
  unfold Stale retained
  cases s.blockedUntil with
  | none => simp
  | some u => simp

/-- **What is stale stays stale.** -/
theorem Stale.later {now now' : Nat} {s : AuthLockoutState} (h : Stale now s) (hle : now ≤ now') :
    Stale now' s := by
  rw [stale_iff] at h ⊢
  obtain ⟨u, hu, hover⟩ | ⟨hnone, hold⟩ := h
  · exact Or.inl ⟨u, hu, by omega⟩
  · exact Or.inr ⟨hnone, by omega⟩

/-- A stale entry blocks nobody. -/
theorem Stale.not_blocking {now : Nat} {s : AuthLockoutState} (h : Stale now s) :
    (s.blockedUntil.any fun u => decide (now < u)) = false := by
  obtain ⟨u, hu, hover⟩ | ⟨hnone, -⟩ := stale_iff.mp h
  · rw [hu]
    exact decide_eq_false (by omega)
  · rw [hnone]
    rfl

/-- **A failure starts a stale entry over**, as it starts the entry of an address that
has none. -/
theorem fail_of_stale {now window : Nat} {s : AuthLockoutState} (h : Stale now s)
    (hwindow : window < fromSecs 600) (max : UInt32) (lockout : Nat) :
    s.fail now max window lockout = (fresh now).fail now max window lockout := by
  have hfresh : ((fresh now).expire now).rewindow now window = fresh now := by
    show (if window < now - now then _ else fresh now) = fresh now
    exact if_neg (by omega)
  have hrestart : (s.expire now).rewindow now window = fresh now := by
    obtain ⟨u, hu, hover⟩ | ⟨hnone, hold⟩ := stale_iff.mp h
    · -- past its lockout
      have hexpire : s.expire now = fresh now := by
        unfold expire
        rw [hu]
        exact if_pos hover
      rw [hexpire]
      exact hfresh
    · -- its window is over for long
      have hexpire : s.expire now = s := by
        unfold expire
        rw [hnone]
      rw [hexpire]
      unfold rewindow
      rw [if_pos (by omega)]
      unfold fresh
      rw [← hnone]
  unfold fail
  rw [hrestart, hfresh]

end AuthLockoutState

/-! ## §2. The limiter without the cleanups simulates the one with them. -/

namespace AuthOp

def isCleanup : AuthOp → Bool
  | .isBlocked _ _ | .recordFailure _ _ _ _ _ | .recordSuccess _ _ => false
  | .cleanup _ => true

/-- The window of a recorded failure is shorter than 600 s. -/
def ShortWindow : AuthOp → Prop
  | .recordFailure _ _ _ window _ => window < fromSecs 600
  | .isBlocked _ _ | .recordSuccess _ _ | .cleanup _ => True

instance (op : AuthOp) : Decidable op.ShortWindow :=
  match op with
  | .recordFailure _ _ _ window _ => inferInstanceAs (Decidable (window < fromSecs 600))
  | .isBlocked _ _ | .recordSuccess _ _ | .cleanup _ => inferInstanceAs (Decidable True)

end AuthOp

namespace AuthLimiter

open AuthLockoutState

/-- There is room for another address. -/
def HasRoom (al : AuthLimiter) : Prop := al.state.size < maxAuthLimiterKeys

instance (al : AuthLimiter) : Decidable al.HasRoom := inferInstanceAs (Decidable (_ < _))

/-- **The simulation**: with the cleanups, some stale entries are missing. -/
def Simulates (t : Nat) (al al' : AuthLimiter) : Prop := Evicted (Stale t) al.state al'.state

variable {t now : Nat} {al al' : AuthLimiter}

theorem Simulates.later (h : Simulates t al al') (ht : t ≤ now) : Simulates now al al' :=
  h.mono fun _ hs => hs.later ht

theorem simulates_isBlocked (h : Simulates now al al') (key : String) :
    al.isBlocked now key = al'.isBlocked now key := by
  rw [isBlocked_eq, isBlocked_eq]
  unfold entry
  obtain hsame | ⟨hnone, s, hs, hstale⟩ := h key
  · rw [hsame]
  · rw [hnone, hs]
    exact hstale.not_blocking

theorem simulates_recordFailure (h : Simulates now al al') (hroom : al.HasRoom) (key : String)
    (max : UInt32) {window : Nat} (hwindow : window < fromSecs 600) (lockout : Nat) :
    (al.recordFailure now key max window lockout).1 =
        (al'.recordFailure now key max window lockout).1 ∧
      Simulates now (al.recordFailure now key max window lockout).2
        (al'.recordFailure now key max window lockout).2 := by
  have hroom' : al'.HasRoom := Nat.lt_of_le_of_lt h.size_le hroom
  -- the entry that counts the failure: the same, or a missing one in place of a stale one
  have hsame : ((al.entry key).getD (fresh now)).fail now max window lockout =
      ((al'.entry key).getD (fresh now)).fail now max window lockout := by
    unfold entry
    obtain hsame | ⟨hnone, s, hs, hstale⟩ := h key
    · rw [hsame]
    · rw [hnone, hs]
      exact fail_of_stale hstale hwindow max lockout
  rw [recordFailure_of_room (Or.inr hroom), recordFailure_of_room (Or.inr hroom')]
  simp only [hsame]
  exact ⟨trivial, h.insert key _⟩

theorem simulates_cleanup (h : Simulates t al al') (ht : t ≤ now) :
    Simulates now al (al'.cleanup now) :=
  Evicted.filter (h.later ht) fun _ _ _ hdropped => hdropped

/-- **Cleanup is unobservable**: from every limiter, cleanups at any points of a run
whose clock does not go back, with room for its addresses and windows shorter than
600 s, change no answer. -/
theorem cleanup_silent (al : AuthLimiter) {ops : List AuthOp}
    (hsorted : ops.Pairwise fun op op' => op.time ≤ op'.time)
    (hroom : Along step (fun al op => al.HasRoom ∧ op.ShortWindow) al
      (ops.filter fun op => !op.isCleanup)) :
    answers step answer al ops = answers step answer al (ops.filter fun op => !op.isCleanup) := by
  refine @answers_of_simulation _ _ _ step answer AuthOp.time AuthOp.isCleanup
    (fun al op => al.HasRoom ∧ op.ShortWindow) Simulates ?_ ?_ ops 0 al al (Evicted.refl _ _)
    (fun op _ => Nat.zero_le _) hsorted hroom
  · intro t al al' op hsim ht hcall hroom
    cases op with
    | cleanup now => exact absurd hcall (by simp [AuthOp.isCleanup])
    | isBlocked now key =>
        have hsim : Simulates now al al' := hsim.later ht
        exact ⟨congrArg some (simulates_isBlocked hsim key), hsim⟩
    | recordFailure now key max window lockout =>
        have hsim : Simulates now al al' := hsim.later ht
        obtain ⟨hanswer, hsim⟩ :=
          simulates_recordFailure hsim hroom.1 key max hroom.2 lockout
        exact ⟨congrArg some hanswer, hsim⟩
    | recordSuccess now key =>
        have hsim : Simulates now al al' := hsim.later ht
        exact ⟨rfl, Evicted.erase hsim key⟩
  · intro t al al' op hsim ht hcleanup
    cases op with
    | cleanup now => exact ⟨rfl, simulates_cleanup hsim ht⟩
    | isBlocked now key => exact absurd hcleanup (by simp [AuthOp.isCleanup])
    | recordFailure now key max window lockout =>
        exact absurd hcleanup (by simp [AuthOp.isCleanup])
    | recordSuccess now key => exact absurd hcleanup (by simp [AuthOp.isCleanup])

/-- An entry that is dropped at the end of its lockout. -/
theorem cleanup_silent_after_lockout :
    answers step answer new
        [.recordFailure 0 "a" 1 authFailWindow authFailLockout, .isBlocked (fromSecs 299) "a",
          .cleanup (fromSecs 300), .isBlocked (fromSecs 300) "a",
          .recordFailure (fromSecs 301) "a" 1 authFailWindow authFailLockout] =
      answers step answer new
        [.recordFailure 0 "a" 1 authFailWindow authFailLockout, .isBlocked (fromSecs 299) "a",
          .isBlocked (fromSecs 300) "a",
          .recordFailure (fromSecs 301) "a" 1 authFailWindow authFailLockout] :=
  @cleanup_silent new
    [.recordFailure 0 "a" 1 authFailWindow authFailLockout, .isBlocked (fromSecs 299) "a",
      .cleanup (fromSecs 300), .isBlocked (fromSecs 300) "a",
      .recordFailure (fromSecs 301) "a" 1 authFailWindow authFailLockout]
    (by decide +kernel) (by decide +kernel)

end AuthLimiter

end DockerProxy.Limiter
