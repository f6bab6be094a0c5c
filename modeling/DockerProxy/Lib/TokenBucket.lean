/-
  DockerProxy.Lib.TokenBucket — a supply that refills at a rate, up to a cap.

  At each use the supply is what was left, plus what came in since, at most the cap;
  then one is taken.  `supply` follows the uses one by one.  In closed form the supply
  at a use is a minimum over all uses before it (`supply_lt_iff`): it is below `c` if
  the uses since the beginning are too many for that, or the uses since some earlier
  one, counted from a full supply.

  A caller who is told at each use whether there is enough learns where the supply
  first runs out: `FirstRefusal` is the first call that is refused.
-/
import Mathlib.Algebra.Order.Field.Basic
import Mathlib.Tactic.Linarith
import Mathlib.Tactic.Ring

namespace DockerProxy.Lib

/-! ## §1. The supply. -/

section

variable {K : Type*} [Field K] [LinearOrder K] [IsStrictOrderedRing K] (cap rate : K)

/-- **The supply at the `j`-th use**, before it takes one: `level` is what was left at
`last`, and every use so far has taken one. -/
def supply : K → K → List K → Nat → K
  | level, last, t :: _, 0 => min (level + rate * (t - last)) cap
  | level, last, t :: times, j + 1 =>
      supply (min (level + rate * (t - last)) cap - 1) t times j
  | level, _, [], _ => level

/-- What is left after one use is the minimum of two, less one. -/
theorem left_after_one_lt_iff (c level last t tj : K) (j : Nat) :
    min (level + rate * (t - last)) cap - 1 + rate * (tj - t) - j < c ↔
      level + rate * (tj - last) - ((j + 1 : Nat) : K) < c ∨
        cap + rate * (tj - t) - (((j + 1 : Nat) : K) - ((0 : Nat) : K)) < c := by
  have hleft : level + rate * (t - last) - 1 + rate * (tj - t) - j =
      level + rate * (tj - last) - ((j + 1 : Nat) : K) := by
    rw [Nat.cast_add, Nat.cast_one]
    ring
  have hright : cap - 1 + rate * (tj - t) - j =
      cap + rate * (tj - t) - (((j + 1 : Nat) : K) - ((0 : Nat) : K)) := by
    rw [Nat.cast_add, Nat.cast_one, Nat.cast_zero]
    ring
  rw [← hleft, ← hright]
  rcases le_total (level + rate * (t - last)) cap with h | h
  · rw [min_eq_left h]
    exact ⟨Or.inl, fun h' => h'.elim id fun h' => by linarith⟩
  · rw [min_eq_right h]
    exact ⟨Or.inr, fun h' => h'.elim (fun h' => by linarith) id⟩

/-- **The closed form of the supply**: a minimum over all uses up to this one. -/
theorem supply_lt_iff (c : K) (times : List K) : ∀ {level last tj : K} {j : Nat},
    times[j]? = some tj →
      (supply cap rate level last times j < c ↔
        level + rate * (tj - last) - j < c ∨
          ∃ i ≤ j, ∃ ti, times[i]? = some ti ∧ cap + rate * (tj - ti) - (j - i) < c) := by
  induction times with
  | nil => intro level last tj j hj; exact absurd hj (by simp)
  | cons t times ih =>
      intro level last tj j hj
      cases j with
      | zero =>
          obtain rfl := Option.some.inj hj
          have hself : cap + rate * (t - t) - (((0 : Nat) : K) - ((0 : Nat) : K)) = cap := by ring
          have hstart : level + rate * (t - last) - ((0 : Nat) : K) =
              level + rate * (t - last) := by
            rw [Nat.cast_zero, sub_zero]
          show min _ _ < c ↔ _
          rw [min_lt_iff, hstart]
          refine or_congr_right ⟨fun h => ⟨0, Nat.le_refl 0, t, rfl, by rwa [hself]⟩, ?_⟩
          rintro ⟨i, hi, ti, hti, h⟩
          obtain rfl := Nat.le_zero.mp hi
          obtain rfl := Option.some.inj hti
          rwa [hself] at h
      | succ j =>
          have hj : times[j]? = some tj := hj
          show supply cap rate _ t times j < c ↔ _
          rw [ih hj, left_after_one_lt_iff, or_assoc]
          -- the uses since this one, or since a later one
          refine or_congr_right ⟨?_, ?_⟩
          · rintro (h | ⟨i, hi, ti, hti, h⟩)
            · exact ⟨0, Nat.zero_le _, t, rfl, h⟩
            · refine ⟨i + 1, Nat.succ_le_succ hi, ti, hti, ?_⟩
              rw [Nat.cast_add, Nat.cast_add, Nat.cast_one, add_sub_add_right_eq_sub]
              exact h
          · rintro ⟨i, hi, ti, hti, h⟩
            cases i with
            | zero =>
                obtain rfl := Option.some.inj hti
                exact Or.inl h
            | succ i =>
                refine Or.inr ⟨i, Nat.le_of_succ_le_succ hi, ti, hti, ?_⟩
                rw [Nat.cast_add, Nat.cast_add, Nat.cast_one, add_sub_add_right_eq_sub] at h
                exact h

end

/-! ## §2. The first refusal. -/

section

variable {σ τ : Type*} (call : σ → τ → Bool × σ)

/-- The replies to the calls, one after another. -/
def replies : σ → List τ → List Bool
  | _, [] => []
  | s, t :: times => (call s t).1 :: replies (call s t).2 times

/-- **The first call that is refused** is the `j`-th. -/
def FirstRefusal (s : σ) (times : List τ) (j : Nat) : Prop :=
  (replies call s times)[j]? = some false ∧ ∀ k < j, (replies call s times)[k]? = some true

/-- The first number that has the property. -/
def FirstSuch (P : Nat → Prop) (j : Nat) : Prop := P j ∧ ∀ k < j, ¬ P k

theorem firstSuch_succ {P : Nat → Prop} {j : Nat} :
    FirstSuch P (j + 1) ↔ ¬ P 0 ∧ FirstSuch (fun k => P (k + 1)) j := by
  constructor
  · rintro ⟨hj, hbefore⟩
    exact ⟨hbefore 0 (Nat.succ_pos j), hj, fun k hk => hbefore (k + 1) (Nat.succ_lt_succ hk)⟩
  · rintro ⟨hzero, hj, hbefore⟩
    refine ⟨hj, fun k hk => ?_⟩
    cases k with
    | zero => exact hzero
    | succ k => exact hbefore k (Nat.lt_of_succ_lt_succ hk)

theorem firstSuch_congr {P Q : Nat → Prop} (h : ∀ k, P k ↔ Q k) {j : Nat} :
    FirstSuch P j ↔ FirstSuch Q j := by
  unfold FirstSuch
  simp only [h]

theorem not_firstRefusal_nil {s : σ} {j : Nat} : ¬ FirstRefusal call s [] j := by
  rintro ⟨h, -⟩
  exact absurd h (by simp [replies])

theorem firstRefusal_zero {s : σ} {t : τ} {times : List τ} :
    FirstRefusal call s (t :: times) 0 ↔ (call s t).1 = false := by
  unfold FirstRefusal replies
  simp

theorem firstRefusal_succ {s : σ} {t : τ} {times : List τ} {j : Nat} :
    FirstRefusal call s (t :: times) (j + 1) ↔
      (call s t).1 = true ∧ FirstRefusal call (call s t).2 times j := by
  constructor
  · rintro ⟨hj, hbefore⟩
    refine ⟨?_, hj, fun k hk => hbefore (k + 1) (Nat.succ_lt_succ hk)⟩
    exact Option.some.inj (hbefore 0 (Nat.succ_pos j))
  · rintro ⟨hfirst, hj, hbefore⟩
    refine ⟨hj, fun k hk => ?_⟩
    cases k with
    | zero => exact congrArg some hfirst
    | succ k => exact hbefore k (Nat.lt_of_succ_lt_succ hk)

/-- **The first refusal is the first number with a property**, if that is so of the first
call and, where that is allowed, of the calls after it. -/
theorem firstRefusal_cons_iff {P : Nat → Prop} {s : σ} {t : τ} {times : List τ}
    (hfirst : (call s t).1 = false ↔ P 0)
    (hrest : (call s t).1 = true → ∀ j,
      FirstRefusal call (call s t).2 times j ↔ FirstSuch (fun k => P (k + 1)) j) (j : Nat) :
    FirstRefusal call s (t :: times) j ↔ FirstSuch P j := by
  cases j with
  | zero =>
      rw [firstRefusal_zero, hfirst]
      exact Iff.intro (fun h => ⟨h, fun k hk => absurd hk (Nat.not_lt_zero k)⟩) And.left
  | succ j =>
      rw [firstRefusal_succ, firstSuch_succ, ← hfirst, Bool.not_eq_false]
      exact and_congr_right fun hallowed => hrest hallowed j

/-- A call is refused exactly if one is refused first. -/
theorem exists_firstRefusal (times : List τ) : ∀ s,
    false ∈ replies call s times ↔ ∃ j, FirstRefusal call s times j := by
  induction times with
  | nil =>
      intro s
      refine iff_of_false List.not_mem_nil ?_
      rintro ⟨j, h⟩
      exact not_firstRefusal_nil call h
  | cons t times ih =>
      intro s
      show false ∈ (call s t).1 :: replies call (call s t).2 times ↔ _
      cases hfirst : (call s t).1 with
      | false =>
          exact iff_of_true List.mem_cons_self ⟨0, (firstRefusal_zero call).mpr hfirst⟩
      | true =>
          rw [List.mem_cons, ih]
          constructor
          · rintro (h | ⟨j, h⟩)
            · exact absurd h (by simp)
            · exact ⟨j + 1, (firstRefusal_succ call).mpr ⟨hfirst, h⟩⟩
          · rintro ⟨j, h⟩
            cases j with
            | zero =>
                exact absurd (((firstRefusal_zero call).mp h).symm.trans hfirst) (by simp)
            | succ j => exact Or.inr ⟨j, ((firstRefusal_succ call).mp h).2⟩

end

end DockerProxy.Lib
