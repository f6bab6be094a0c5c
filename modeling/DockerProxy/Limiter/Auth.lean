/-
  DockerProxy.Limiter.Auth — `AuthLimiter` of `rules.rs`.

  One entry per source address: how many failures were recorded in the current
  window, when that window began, and until when the address is locked out.
  Clock readings are nanoseconds; each operation reads the clock while it holds
  the limiter's lock.
-/
import DockerProxy.Limiter.Rate

namespace DockerProxy.Limiter

open DockerProxy.Lib

/-! ## §1. Entries. -/

/-- `MAX_AUTH_LIMITER_KEYS`. -/
def maxAuthLimiterKeys : Nat := 16384

/-- `AUTH_FAIL_MAX`. -/
def authFailMax : UInt32 := 10

/-- `AUTH_FAIL_WINDOW`. -/
def authFailWindow : Nat := fromSecs 60

/-- `AUTH_FAIL_LOCKOUT`. -/
def authFailLockout : Nat := fromSecs 300

structure AuthLockoutState where
  failures : UInt32
  firstFailure : Nat
  blockedUntil : Option Nat
  deriving DecidableEq

/-- `failures.saturating_add(1)`. -/
def saturatingSucc (n : UInt32) : UInt32 := if n = 0xffffffff then n else n + 1

namespace AuthLockoutState

/-- The entry of an address that has none. -/
def fresh (now : Nat) : AuthLockoutState := ⟨0, now, none⟩

/-- `record_failure` forgets a lockout that is over. -/
def expire (entry : AuthLockoutState) (now : Nat) : AuthLockoutState :=
  match entry.blockedUntil with
  | some u => if u ≤ now then fresh now else entry
  | none => entry

/-- `record_failure` starts a new window when the old one is over. -/
def rewindow (entry : AuthLockoutState) (now window : Nat) : AuthLockoutState :=
  if window < now - entry.firstFailure then { entry with failures := 0, firstFailure := now }
  else entry

/-- `record_failure` on the entry it found or made: the outcome says whether a
lockout starts. -/
def fail (entry : AuthLockoutState) (now : Nat) (max : UInt32) (window lockout : Nat) :
    Bool × AuthLockoutState :=
  let entry := (entry.expire now).rewindow now window
  let entry := { entry with failures := saturatingSucc entry.failures }
  if max ≤ entry.failures ∧ entry.blockedUntil = none then
    (true, { entry with blockedUntil := some (now + lockout) })
  else (false, entry)

/-- What `cleanup` keeps. -/
def retained (entry : AuthLockoutState) (now : Nat) : Bool :=
  match entry.blockedUntil with
  | some u => decide (now < u)
  | none => decide (now - entry.firstFailure < fromSecs 600)

end AuthLockoutState

/-! ## §2. The limiter. -/

structure AuthLimiter where
  state : Std.ExtTreeMap String AuthLockoutState
  deriving DecidableEq

namespace AuthLimiter

/-- `AuthLimiter::new`. -/
def new : AuthLimiter := ⟨∅⟩

/-- `is_blocked`. -/
def isBlocked (al : AuthLimiter) (now : Nat) (key : String) : Bool :=
  match al.state[key]? with
  | some s => s.blockedUntil.any fun u => decide (now < u)
  | none => false

/-- `record_failure`: `true` when it starts a lockout. -/
def recordFailure (al : AuthLimiter) (now : Nat) (key : String) (max : UInt32)
    (window lockout : Nat) : Bool × AuthLimiter :=
  if maxAuthLimiterKeys ≤ al.state.size ∧ key ∉ al.state then (false, al)
  else
    let entry := (al.state[key]?).getD (AuthLockoutState.fresh now)
    let (started, entry) := entry.fail now max window lockout
    (started, ⟨al.state.insert key entry⟩)

/-- `record_success`. -/
def recordSuccess (al : AuthLimiter) (key : String) : AuthLimiter := ⟨al.state.erase key⟩

/-- `cleanup`. -/
def cleanup (al : AuthLimiter) (now : Nat) : AuthLimiter :=
  ⟨al.state.filter fun _ s => s.retained now⟩

/-! ## §3. The entry of one address after each operation. -/

/-- The entry of an address. -/
def entry (al : AuthLimiter) (key : String) : Option AuthLockoutState := al.state[key]?

@[simp] theorem entry_new (key : String) : new.entry key = none :=
  Std.ExtTreeMap.getElem?_empty

theorem isBlocked_eq (al : AuthLimiter) (now : Nat) (key : String) :
    al.isBlocked now key =
      (al.entry key).any fun s => s.blockedUntil.any fun u => decide (now < u) := by
  unfold isBlocked entry
  cases al.state[key]? <;> rfl

theorem recordFailure_of_room {al : AuthLimiter} {key : String}
    (h : key ∈ al.state ∨ al.state.size < maxAuthLimiterKeys) (now : Nat) (max : UInt32)
    (window lockout : Nat) :
    al.recordFailure now key max window lockout =
      ((((al.entry key).getD (.fresh now)).fail now max window lockout).1,
        ⟨al.state.insert key
          (((al.entry key).getD (.fresh now)).fail now max window lockout).2⟩) := by
  unfold recordFailure
  refine if_neg (fun hfull => ?_)
  cases h with
  | inl hmem => exact hfull.2 hmem
  | inr hsize => omega

theorem recordFailure_of_full {al : AuthLimiter} {key : String}
    (h : maxAuthLimiterKeys ≤ al.state.size ∧ key ∉ al.state) (now : Nat) (max : UInt32)
    (window lockout : Nat) : al.recordFailure now key max window lockout = (false, al) :=
  if_pos h

/-- A failure of one address leaves the other addresses alone. -/
theorem entry_recordFailure_of_ne {al : AuthLimiter} {key other : String} (h : key ≠ other)
    (now : Nat) (max : UInt32) (window lockout : Nat) :
    (al.recordFailure now key max window lockout).2.entry other = al.entry other := by
  unfold recordFailure
  split
  · rfl
  · show (al.state.insert key _)[other]? = al.state[other]?
    rw [Std.ExtTreeMap.getElem?_insert, if_neg (by simpa using h)]

theorem entry_recordFailure_self {al : AuthLimiter} {key : String}
    (h : key ∈ al.state ∨ al.state.size < maxAuthLimiterKeys) (now : Nat) (max : UInt32)
    (window lockout : Nat) :
    (al.recordFailure now key max window lockout).2.entry key =
      some (((al.entry key).getD (.fresh now)).fail now max window lockout).2 := by
  rw [recordFailure_of_room h]
  exact Std.ExtTreeMap.getElem?_insert_self

/-- **What a failure does to its own address**: a full table counts nothing; else the
failure is counted in the entry that the address has, or in a fresh one. -/
theorem recordFailure_cases (al : AuthLimiter) (now : Nat) (key : String) (max : UInt32)
    (window lockout : Nat) :
    al.recordFailure now key max window lockout = (false, al) ∨
      (al.recordFailure now key max window lockout).1 =
          (((al.entry key).getD (.fresh now)).fail now max window lockout).1 ∧
        (al.recordFailure now key max window lockout).2.entry key =
          some (((al.entry key).getD (.fresh now)).fail now max window lockout).2 := by
  by_cases hfull : maxAuthLimiterKeys ≤ al.state.size ∧ key ∉ al.state
  · exact Or.inl (recordFailure_of_full hfull now max window lockout)
  · have hroom : key ∈ al.state ∨ al.state.size < maxAuthLimiterKeys := by
      by_cases hmem : key ∈ al.state
      · exact Or.inl hmem
      · exact Or.inr (Nat.lt_of_not_le fun hsize => hfull ⟨hsize, hmem⟩)
    refine Or.inr ⟨?_, entry_recordFailure_self hroom now max window lockout⟩
    rw [recordFailure_of_room hroom]

theorem entry_recordSuccess (al : AuthLimiter) (key other : String) :
    (al.recordSuccess key).entry other = if key = other then none else al.entry other := by
  show (al.state.erase key)[other]? = _
  rw [Std.ExtTreeMap.getElem?_erase]
  by_cases h : key = other
  · simp [h]
  · simp [h, entry]

theorem entry_cleanup (al : AuthLimiter) (now : Nat) (key : String) :
    (al.cleanup now).entry key = (al.entry key).filter fun s => s.retained now := by
  show (al.state.filter _)[key]? = _
  rw [Std.ExtTreeMap.getElem?_filter]
  unfold entry
  cases al.state[key]? <;> simp [Option.pfilter, Option.filter]

/-- A stored entry makes room for itself. -/
theorem room_of_entry {al : AuthLimiter} {key : String} {s : AuthLockoutState}
    (h : al.entry key = some s) : key ∈ al.state := by
  have h : al.state[key]? = some s := h
  rw [← Std.ExtTreeMap.contains_iff_mem, Std.ExtTreeMap.contains_eq_isSome_getElem?, h]
  rfl

end AuthLimiter

/-! ## §4. A lockout in force. -/

/-- **A failure during a lockout neither starts nor ends one.** -/
theorem AuthLockoutState.fail_of_blocked {s : AuthLockoutState} {u now : Nat}
    (hs : s.blockedUntil = some u) (hnow : now < u) (max : UInt32) (window lockout : Nat) :
    (s.fail now max window lockout).1 = false ∧
      (s.fail now max window lockout).2.blockedUntil = some u := by
  have hexpire : s.expire now = s := by
    unfold expire
    rw [hs]
    exact if_neg (by omega)
  have hkeep : (s.rewindow now window).blockedUntil = some u := by
    unfold rewindow
    split
    · exact hs
    · exact hs
  unfold fail
  simp only [hexpire, hkeep, reduceCtorEq, and_false, if_false, true_and]

/-- A failure that starts a lockout sets its end. -/
theorem AuthLockoutState.blockedUntil_of_started {s : AuthLockoutState} {now : Nat} {max : UInt32}
    {window lockout : Nat} (h : (s.fail now max window lockout).1 = true) :
    (s.fail now max window lockout).2.blockedUntil = some (now + lockout) := by
  unfold fail at h ⊢
  simp only at h ⊢
  split at h
  · rename_i hc
    rw [if_pos hc]
  · exact absurd h (by simp)

/-- A failure that starts a lockout was counted in an entry, which is now blocked. -/
theorem AuthLimiter.recordFailure_started {al : AuthLimiter} {now : Nat} {key : String}
    {max : UInt32} {window lockout : Nat}
    (h : (al.recordFailure now key max window lockout).1 = true) :
    ∃ s : AuthLockoutState, (s.fail now max window lockout).1 = true ∧
      (al.recordFailure now key max window lockout).2.entry key =
        some (s.fail now max window lockout).2 ∧
      (s.fail now max window lockout).2.blockedUntil = some (now + lockout) := by
  obtain hfull | ⟨hstarted, hentry⟩ := al.recordFailure_cases now key max window lockout
  · -- a full table starts no lockout
    rw [hfull] at h
    exact absurd h (by simp)
  · rw [hstarted] at h
    exact ⟨_, h, hentry, AuthLockoutState.blockedUntil_of_started h⟩

/-! ## §5. Uses of the limiter, one after another. -/

/-- One use of the limiter, with its clock reading. -/
inductive AuthOp where
  | isBlocked (now : Nat) (key : String)
  | recordFailure (now : Nat) (key : String) (max : UInt32) (window lockout : Nat)
  | recordSuccess (now : Nat) (key : String)
  | cleanup (now : Nat)
  deriving DecidableEq

/-- The clock reading of a use. -/
def AuthOp.time : AuthOp → Nat
  | .isBlocked now _ | .recordFailure now _ _ _ _ | .recordSuccess now _ | .cleanup now => now

namespace AuthLimiter

/-- The limiter after a use. -/
def step (al : AuthLimiter) : AuthOp → AuthLimiter
  | .isBlocked _ _ => al
  | .recordFailure now key max window lockout => (al.recordFailure now key max window lockout).2
  | .recordSuccess _ key => al.recordSuccess key
  | .cleanup now => al.cleanup now

/-- What its caller is told. -/
def answer (al : AuthLimiter) : AuthOp → Option Bool
  | .isBlocked now key => some (al.isBlocked now key)
  | .recordFailure now key max window lockout =>
      some (al.recordFailure now key max window lockout).1
  | .recordSuccess _ _ | .cleanup _ => none

end AuthLimiter

end DockerProxy.Limiter
