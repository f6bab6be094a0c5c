/-
  DockerProxy.Lib.Budget — bounding grants by a potential.

  A machine is called at times that never go back, and grants each call or
  refuses it.  A `Potential` assigns to each state a level that a grant lowers by
  one, that time raises at a bounded rate, and that stays between zero and a
  capacity.

    • `Potential.grants_le` — in every window of time of every run, at most
      `capacity + rate · length` calls are granted.
-/
import Mathlib.Algebra.Order.Ring.Rat
import Mathlib.Tactic.Linarith
import Mathlib.Tactic.Positivity

namespace DockerProxy.Lib

variable {σ τ : Type*}

/-! ## §1. Grants. -/

/-- The times of the calls that are granted. -/
def grants (call : σ → τ → Bool × σ) : σ → List τ → List τ
  | _, [] => []
  | s, t :: times =>
      if (call s t).1 then t :: grants call (call s t).2 times
      else grants call (call s t).2 times

/-- The time lies in the window. -/
def inWindow (secs : τ → ℚ) (a b : ℚ) (t : τ) : Bool := decide (a ≤ secs t ∧ secs t ≤ b)

/-- Times that never go back. -/
def Nondecreasing (secs : τ → ℚ) (times : List τ) : Prop :=
  times.Pairwise fun t t' => secs t ≤ secs t'

/-- A grant is one of the calls. -/
theorem mem_of_mem_grants (call : σ → τ → Bool × σ) (times : List τ) :
    ∀ s t, t ∈ grants call s times → t ∈ times := by
  induction times with
  | nil => intro s t ht; exact ht
  | cons u times ih =>
      intro s t ht
      unfold grants at ht
      split at ht
      · cases List.mem_cons.mp ht with
        | inl heq => rw [heq]; exact List.mem_cons_self
        | inr hmem => exact List.mem_cons_of_mem u (ih _ t hmem)
      · exact List.mem_cons_of_mem u (ih _ t ht)

/-- The first call counts one if it is granted in the window. -/
theorem countP_grants_cons (call : σ → τ → Bool × σ) (p : τ → Bool) (s : σ) (t : τ)
    (times : List τ) :
    (grants call s (t :: times)).countP p =
      (grants call (call s t).2 times).countP p + if (call s t).1 && p t then 1 else 0 := by
  show List.countP p (if (call s t).1 then t :: grants call (call s t).2 times
    else grants call (call s t).2 times) = _
  cases (call s t).1 with
  | true => rw [if_pos rfl, List.countP_cons, Bool.true_and]
  | false => simp

/-! ## §2. Potentials. -/

/-- **A potential of the machine.**  `Valid s t` says that the state can be found
at this time. -/
structure Potential (call : σ → τ → Bool × σ) (secs : τ → ℚ) (capacity rate : ℚ) where
  Valid : σ → τ → Prop
  level : σ → τ → ℚ
  capacity_nonneg : 0 ≤ capacity
  rate_nonneg : 0 ≤ rate
  level_nonneg : ∀ {s t}, Valid s t → 0 ≤ level s t
  level_le : ∀ {s t}, Valid s t → level s t ≤ capacity
  valid_later : ∀ {s t t'}, Valid s t → secs t ≤ secs t' → Valid s t'
  level_later : ∀ {s t t'}, Valid s t → secs t ≤ secs t' →
    level s t' ≤ level s t + rate * (secs t' - secs t)
  valid_call : ∀ {s t}, Valid s t → Valid (call s t).2 t
  level_call : ∀ {s t}, Valid s t →
    (if (call s t).1 then 1 else 0) + level (call s t).2 t ≤ level s t

namespace Potential

variable {call : σ → τ → Bool × σ} {secs : τ → ℚ} {capacity rate : ℚ}

/-- Once a call is past the window, all are. -/
theorem forall_past {t : τ} {times : List τ} {b : ℚ} (ht : b < secs t)
    (hnondec : Nondecreasing secs (t :: times)) : ∀ u ∈ t :: times, b < secs u := by
  intro u hu
  cases List.mem_cons.mp hu with
  | inl heq => rw [heq]; exact ht
  | inr hmem => exact lt_of_lt_of_le ht ((List.pairwise_cons.mp hnondec).1 u hmem)

/-- Nothing is counted past the window. -/
theorem countP_eq_zero {s : σ} {times : List τ} {a b : ℚ} (hpast : ∀ t ∈ times, b < secs t) :
    (grants call s times).countP (inWindow secs a b) = 0 := by
  rw [List.countP_eq_zero]
  intro t ht hin
  have hlt := hpast t (mem_of_mem_grants call times s t ht)
  have hle := (of_decide_eq_true hin).2
  linarith

/-- From a time in the window on, the level pays for every grant. -/
theorem grants_le_level (p : Potential call secs capacity rate) {a b : ℚ} (times : List τ) :
    ∀ s t₀, p.Valid s t₀ → a ≤ secs t₀ → secs t₀ ≤ b → Nondecreasing secs (t₀ :: times) →
      ((grants call s times).countP (inWindow secs a b) : ℚ) ≤
        p.level s t₀ + rate * (b - secs t₀) := by
  induction times with
  | nil =>
      intro s t₀ hs _ hb _
      have hlevel := p.level_nonneg hs
      have hrate := mul_nonneg p.rate_nonneg (sub_nonneg.mpr hb)
      show ((0 : Nat) : ℚ) ≤ _
      rw [Nat.cast_zero]
      linarith
  | cons t times ih =>
      intro s t₀ hs ha hb hnondec
      obtain ⟨hfirst, hrest⟩ := List.pairwise_cons.mp hnondec
      have ht := hfirst t List.mem_cons_self
      have hst := p.valid_later hs ht
      by_cases hin : secs t ≤ b
      · have ih := ih (call s t).2 t (p.valid_call hst) (le_trans ha ht) hin hrest
        have hcall := p.level_call hst
        have hlater := p.level_later hs ht
        -- the call itself, if it is granted
        have hone : ((if (call s t).1 && inWindow secs a b t then 1 else 0 : Nat) : ℚ) ≤
            if (call s t).1 then 1 else 0 := by
          cases (call s t).1 <;> cases inWindow secs a b t <;> norm_num
        rw [countP_grants_cons, Nat.cast_add]
        linarith
      · rw [countP_eq_zero (forall_past (not_le.mp hin) hrest), Nat.cast_zero]
        have hlevel := p.level_nonneg hs
        have hrate := mul_nonneg p.rate_nonneg (sub_nonneg.mpr hb)
        linarith

/-- **Grants are bounded in every window.** -/
theorem grants_le (p : Potential call secs capacity rate) {a b : ℚ} (hab : a ≤ b)
    (times : List τ) :
    ∀ s, (∀ t ∈ times, p.Valid s t) → Nondecreasing secs times →
      ((grants call s times).countP (inWindow secs a b) : ℚ) ≤ capacity + rate * (b - a) := by
  induction times with
  | nil =>
      intro s _ _
      have hrate := mul_nonneg p.rate_nonneg (sub_nonneg.mpr hab)
      have hcapacity := p.capacity_nonneg
      show ((0 : Nat) : ℚ) ≤ _
      rw [Nat.cast_zero]
      linarith
  | cons t times ih =>
      intro s hs hnondec
      have hst := hs t List.mem_cons_self
      obtain ⟨hfirst, hrest⟩ := List.pairwise_cons.mp hnondec
      by_cases ha : a ≤ secs t
      · by_cases hb : secs t ≤ b
        · -- the window starts with a full level at worst
          have hlevel := p.grants_le_level (t :: times) s t hst ha hb
            (List.pairwise_cons.mpr ⟨?_, hnondec⟩)
          · have hcapacity := p.level_le hst
            have hrate := mul_le_mul_of_nonneg_left (sub_le_sub_left ha b) p.rate_nonneg
            linarith
          · intro u hu
            cases List.mem_cons.mp hu with
            | inl heq => rw [heq]
            | inr hmem => exact hfirst u hmem
        · have hrate := mul_nonneg p.rate_nonneg (sub_nonneg.mpr hab)
          have hcapacity := p.capacity_nonneg
          rw [countP_eq_zero (forall_past (not_le.mp hb) hnondec), Nat.cast_zero]
          linarith
      · -- a call before the window is not counted
        have hvalid : ∀ u ∈ times, p.Valid (call s t).2 u := fun u hu =>
          p.valid_later (p.valid_call hst) (hfirst u hu)
        have hout : inWindow secs a b t = false := decide_eq_false fun hin => ha hin.1
        rw [countP_grants_cons, hout, Bool.and_false, if_neg Bool.false_ne_true, Nat.add_zero]
        exact ih (call s t).2 hvalid hrest

end Potential

end DockerProxy.Lib
