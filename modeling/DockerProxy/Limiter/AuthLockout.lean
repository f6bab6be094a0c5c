/-
  DockerProxy.Limiter.AuthLockout — how long a lockout lasts while calls of
  `authenticate` interleave.

  A call takes the limiter's lock twice: once for `is_blocked`, and, if it was
  not blocked, once more to record its failure or its success.  Between the two
  it is pending, and any other steps may come.  `record_success` removes the
  address's entry, lockout included, so a lockout in force ends early exactly
  through a call that was pending when it started (`lockout_holds`,
  `lockout_cleared_by_pending`).
-/
import DockerProxy.Limiter.Auth

namespace DockerProxy.Limiter

open DockerProxy.Lib

/-! ## §1. Interleaved calls. -/

/-- One call of `authenticate`, from the address `key`. -/
structure AuthCall where
  id : Nat
  key : String
  deriving DecidableEq

/-- The limiter, and the calls that passed `is_blocked` and recorded nothing yet. -/
structure AuthSystem where
  limiter : AuthLimiter
  pending : List AuthCall
  deriving DecidableEq

/-- One critical section, with its clock reading, or a pending call that returns
without recording anything (`auth.type` none, no client certificate, no
credential configured). -/
inductive AuthEvent where
  | isBlocked (now : Nat) (call : AuthCall)
  | recordFailure (now : Nat) (call : AuthCall)
  | recordSuccess (now : Nat) (call : AuthCall)
  | leave (now : Nat) (call : AuthCall)
  | cleanup (now : Nat)
  deriving DecidableEq

/-- The clock reading of an event. -/
def AuthEvent.time : AuthEvent → Nat
  | .isBlocked now _ | .recordFailure now _ | .recordSuccess now _ | .leave now _
  | .cleanup now => now

namespace AuthSystem

/-- No entries and no calls. -/
def new : AuthSystem := ⟨AuthLimiter.new, []⟩

/-- A call starts once; only a pending call records or leaves. -/
def Enabled (sys : AuthSystem) : AuthEvent → Prop
  | .isBlocked _ call => call ∉ sys.pending
  | .recordFailure _ call | .recordSuccess _ call | .leave _ call => call ∈ sys.pending
  | .cleanup _ => True

instance (sys : AuthSystem) (e : AuthEvent) : Decidable (sys.Enabled e) :=
  match e with
  | .isBlocked _ call => inferInstanceAs (Decidable (call ∉ sys.pending))
  | .recordFailure _ call => inferInstanceAs (Decidable (call ∈ sys.pending))
  | .recordSuccess _ call => inferInstanceAs (Decidable (call ∈ sys.pending))
  | .leave _ call => inferInstanceAs (Decidable (call ∈ sys.pending))
  | .cleanup _ => inferInstanceAs (Decidable True)

section

variable (max : UInt32) (window lockout : Nat)

def step (sys : AuthSystem) : AuthEvent → AuthSystem
  | .isBlocked now call =>
      if sys.limiter.isBlocked now call.key then sys
      else { sys with pending := call :: sys.pending }
  | .recordFailure now call =>
      { limiter := (sys.limiter.recordFailure now call.key max window lockout).2,
        pending := sys.pending.erase call }
  | .recordSuccess _ call =>
      { limiter := sys.limiter.recordSuccess call.key, pending := sys.pending.erase call }
  | .leave _ call => { sys with pending := sys.pending.erase call }
  | .cleanup now => { sys with limiter := sys.limiter.cleanup now }

/-! ## §2. A lockout in force. -/

/-- **Until `until_` the address is locked out**, and its pending calls are among
`old`, those that were pending when the lockout started. -/
def Locked (key : String) (until_ : Nat) (old : List AuthCall) (now : Nat) (sys : AuthSystem) :
    Prop :=
  now < until_ →
    (∃ s, sys.limiter.entry key = some s ∧ s.blockedUntil = some until_) ∧
      ∀ c ∈ sys.pending, c.key = key → c ∈ old

variable {key : String} {until_ : Nat} {old : List AuthCall}

theorem isBlocked_of_locked {now : Nat} {sys : AuthSystem}
    (h : ∃ s, sys.limiter.entry key = some s ∧ s.blockedUntil = some until_)
    (hnow : now < until_) : sys.limiter.isBlocked now key = true := by
  obtain ⟨s, hs, hu⟩ := h
  rw [AuthLimiter.isBlocked_eq, hs]
  simp [hu, hnow]

/-- An event that is no success of one of the old calls of the address. -/
def NoOldSuccess (key : String) (old : List AuthCall) (e : AuthEvent) : Prop :=
  ∀ now, ∀ c ∈ old, c.key = key → e ≠ .recordSuccess now c

/-- A further failure, of whatever address, leaves a lockout in force as it is. -/
theorem blocked_recordFailure {al : AuthLimiter} {now : Nat} (key' : String)
    (h : ∃ s, al.entry key = some s ∧ s.blockedUntil = some until_) (hnow : now < until_) :
    ∃ s, (al.recordFailure now key' max window lockout).2.entry key = some s ∧
      s.blockedUntil = some until_ := by
  obtain ⟨s, hs, hu⟩ := h
  by_cases hkey : key' = key
  · rw [hkey, AuthLimiter.entry_recordFailure_self (Or.inl (AuthLimiter.room_of_entry hs)), hs]
    exact ⟨_, rfl, (AuthLockoutState.fail_of_blocked hu hnow max window lockout).2⟩
  · rw [AuthLimiter.entry_recordFailure_of_ne hkey]
    exact ⟨s, hs, hu⟩

/-- A success of another address leaves it, too. -/
theorem blocked_recordSuccess {al : AuthLimiter} {key' : String}
    (h : ∃ s, al.entry key = some s ∧ s.blockedUntil = some until_) (hne : key' ≠ key) :
    ∃ s, (al.recordSuccess key').entry key = some s ∧ s.blockedUntil = some until_ := by
  rw [AuthLimiter.entry_recordSuccess, if_neg hne]
  exact h

/-- Cleanup retains it. -/
theorem blocked_cleanup {al : AuthLimiter} {now : Nat}
    (h : ∃ s, al.entry key = some s ∧ s.blockedUntil = some until_) (hnow : now < until_) :
    ∃ s, (al.cleanup now).entry key = some s ∧ s.blockedUntil = some until_ := by
  obtain ⟨s, hs, hu⟩ := h
  have hret : s.retained now = true := by
    unfold AuthLockoutState.retained
    rw [hu]
    exact decide_eq_true hnow
  rw [AuthLimiter.entry_cleanup, hs, Option.filter_some, hret, if_pos rfl]
  exact ⟨s, rfl, hu⟩

/-- **A step keeps the lockout in force.** -/
theorem locked_step {t : Nat} {sys : AuthSystem} {e : AuthEvent}
    (h : Locked key until_ old t sys) (ht : t ≤ e.time) (hen : sys.Enabled e)
    (hno : NoOldSuccess key old e) :
    Locked key until_ old e.time (step max window lockout sys e) := by
  intro hbefore
  obtain ⟨hentry, hpending⟩ := h (by omega)
  cases e with
  | isBlocked now call =>
      have hbefore : now < until_ := hbefore
      by_cases hblocked : sys.limiter.isBlocked now call.key = true
      · have hsame : step max window lockout sys (.isBlocked now call) = sys := if_pos hblocked
        rw [hsame]
        exact ⟨hentry, hpending⟩
      · have hpass : step max window lockout sys (.isBlocked now call) =
            { sys with pending := call :: sys.pending } := if_neg hblocked
        rw [hpass]
        refine ⟨hentry, fun c hc hck => ?_⟩
        cases List.mem_cons.mp hc with
        | inl hc =>
            -- a call of this address would have been refused
            have hcall := isBlocked_of_locked hentry hbefore
            rw [← hck, hc] at hcall
            exact absurd hcall hblocked
        | inr hc => exact hpending c hc hck
  | recordFailure now call =>
      exact ⟨blocked_recordFailure max window lockout call.key hentry hbefore,
        fun c hc hck => hpending c (List.mem_of_mem_erase hc) hck⟩
  | recordSuccess now call =>
      -- a success of the address would be one of the old calls
      have hne : call.key ≠ key := by
        intro hck
        exact hno now call (hpending call hen hck) hck rfl
      exact ⟨blocked_recordSuccess hentry hne,
        fun c hc hck => hpending c (List.mem_of_mem_erase hc) hck⟩
  | leave now call =>
      exact ⟨hentry, fun c hc hck => hpending c (List.mem_of_mem_erase hc) hck⟩
  | cleanup now => exact ⟨blocked_cleanup hentry hbefore, hpending⟩

/-- A failure that starts a lockout puts it in force. -/
theorem locked_of_started {sys : AuthSystem} {t : Nat} {call : AuthCall}
    (h : (sys.limiter.recordFailure t call.key max window lockout).1 = true) :
    Locked call.key (t + lockout) sys.pending t
      (step max window lockout sys (.recordFailure t call)) := by
  intro _
  refine ⟨?_, fun c hc _ => List.mem_of_mem_erase hc⟩
  show ∃ s, (sys.limiter.recordFailure t call.key max window lockout).2.entry call.key = some s ∧ _
  obtain ⟨_, -, hentry, hblocked⟩ := AuthLimiter.recordFailure_started h
  exact ⟨_, hentry, hblocked⟩

/-! ## §3. The lockout over whole runs. -/

/-- **A lockout holds until it expires**, in every interleaving, unless a call of
the address that was pending when it started records a success first. -/
theorem lockout_holds {pre mid : List AuthEvent} {t now : Nat} {call probe : AuthCall}
    (hlegal : Legal (step max window lockout) AuthEvent.time Enabled 0 new
      (pre ++ .recordFailure t call :: (mid ++ [.isBlocked now probe])))
    (hstart : ((run (step max window lockout) new pre).limiter.recordFailure t call.key max window
      lockout).1 = true)
    (hkey : probe.key = call.key) (hbefore : now < t + lockout)
    (hno : ∀ e ∈ mid, NoOldSuccess call.key (run (step max window lockout) new pre).pending e) :
    (run (step max window lockout) new (pre ++ .recordFailure t call :: mid)).limiter.isBlocked
      now probe.key = true := by
  obtain ⟨-, -, -, hrest⟩ := (legal_append _ _ _ pre _ _ _).mp hlegal
  obtain ⟨hmid, hprobe, -, -⟩ := (legal_append _ _ _ mid _ _ _).mp hrest
  have hlocked := legal_invariant (step max window lockout) AuthEvent.time Enabled
    (fun _ _ _ h ht hen he => locked_step max window lockout h ht hen he) mid t _
    (locked_of_started max window lockout hstart) hmid hno
  rw [run_append, run_cons, hkey]
  have hprobe : endTime AuthEvent.time t mid ≤ now := hprobe
  exact isBlocked_of_locked (hlocked (by omega)).1 hbefore

end

/-- Eleven calls of one address pass `is_blocked`, ten of them fail, which
starts a lockout, and the eleventh succeeds. -/
def racingCalls : List AuthEvent :=
  ((List.range 11).map fun i => .isBlocked 0 ⟨i, "10.0.0.7"⟩) ++
    ((List.range 10).map fun i => .recordFailure 0 ⟨i, "10.0.0.7"⟩) ++
      [.recordSuccess 0 ⟨10, "10.0.0.7"⟩]

/-- **A pending success clears the lockout.** -/
theorem lockout_cleared_by_pending :
    Legal (step authFailMax authFailWindow authFailLockout) AuthEvent.time Enabled 0 new
        (racingCalls ++ [.isBlocked 0 ⟨11, "10.0.0.7"⟩]) ∧
      ((run (step authFailMax authFailWindow authFailLockout) new
        (racingCalls.take 20)).limiter.recordFailure 0 "10.0.0.7" authFailMax authFailWindow
          authFailLockout).1 = true ∧
      (run (step authFailMax authFailWindow authFailLockout) new
        (racingCalls.take 21)).limiter.isBlocked 0 "10.0.0.7" = true ∧
      (run (step authFailMax authFailWindow authFailLockout) new
        racingCalls).limiter.isBlocked 0 "10.0.0.7" = false := by
  decide +kernel

/-- Without the success the address stays locked out, cleanup or not. -/
theorem lockout_holds_racing :
    (run (step authFailMax authFailWindow authFailLockout) new
      (racingCalls.take 20 ++ .recordFailure 0 ⟨9, "10.0.0.7"⟩ ::
        [.cleanup 5, .leave 6 ⟨10, "10.0.0.7"⟩])).limiter.isBlocked 7 "10.0.0.7" = true := by
  refine @lockout_holds authFailMax authFailWindow authFailLockout (racingCalls.take 20)
    [.cleanup 5, .leave 6 ⟨10, "10.0.0.7"⟩] 0 7 ⟨9, "10.0.0.7"⟩ ⟨11, "10.0.0.7"⟩ ?_ ?_ rfl ?_ ?_
  · decide +kernel
  · decide +kernel
  · decide
  · intro e he now c _ _ hsuccess
    rw [hsuccess] at he
    simp at he

end AuthSystem

end DockerProxy.Limiter
