/-
  DockerProxy.Lib.Histogram — first-fit buckets, and their running totals.

  Observations are placed in the bucket of the first bound that they do not exceed, or in
  one more bucket after all bounds.  If the bounds ascend, the buckets up to a bound hold
  exactly what does not exceed it:

    • `place_le_iff` — where an observation is placed,
    • `placedBelow_eq` — the first buckets together hold what does not exceed the last of
      their bounds.
-/
import Mathlib.Data.List.Basic
import Mathlib.Order.Basic

namespace DockerProxy.Lib

/-- The bucket of an observation: that of the first bound it does not exceed. -/
def place (bounds : List Nat) (x : Nat) : Nat := bounds.findIdx fun bound => decide (x ≤ bound)

/-- Every observation has a bucket. -/
theorem place_le (bounds : List Nat) (x : Nat) : place bounds x ≤ bounds.length :=
  List.findIdx_le_length

/-- **An observation is placed up to the bucket of a bound exactly when it does not exceed
it.** -/
theorem place_le_iff {bounds : List Nat} (hsorted : bounds.Pairwise (· ≤ ·)) {k : Nat}
    (hk : k < bounds.length) (x : Nat) : place bounds x ≤ k ↔ x ≤ bounds[k] := by
  rw [← Nat.not_lt, ← Nat.not_lt]
  refine not_congr ?_
  unfold place
  rw [List.lt_findIdx_iff]
  constructor
  · rintro ⟨_, hall⟩
    exact Nat.lt_of_not_le (of_decide_eq_false (hall k (Nat.le_refl k)))
  · intro hlt
    -- the bounds before are smaller still
    refine ⟨hk, fun j hj => decide_eq_false (Nat.not_le.mpr (Nat.lt_of_le_of_lt ?_ hlt))⟩
    cases Nat.lt_or_eq_of_le hj with
    | inl hjk => exact List.pairwise_iff_getElem.mp hsorted j k _ hk hjk
    | inr hjk => subst hjk; exact Nat.le_refl _

/-- The observations in the first `k` buckets. -/
def placedBelow (bounds : List Nat) (k : Nat) (xs : List Nat) : Nat :=
  xs.countP fun x => decide (place bounds x < k)

/-- The observations in bucket `k`. -/
def placedAt (bounds : List Nat) (k : Nat) (xs : List Nat) : Nat :=
  xs.countP fun x => decide (place bounds x = k)

theorem placedBelow_zero (bounds xs : List Nat) : placedBelow bounds 0 xs = 0 :=
  List.countP_eq_zero.mpr fun x _ => by simp

/-- The bucket `k` holds what is below `k + 1` and not below `k`. -/
theorem placedBelow_succ (bounds : List Nat) (k : Nat) (xs : List Nat) :
    placedBelow bounds (k + 1) xs = placedBelow bounds k xs + placedAt bounds k xs := by
  unfold placedBelow placedAt
  induction xs with
  | nil => rfl
  | cons x xs ih =>
      rw [List.countP_cons, List.countP_cons, List.countP_cons, ih]
      simp only [decide_eq_true_eq]
      split_ifs <;> omega

/-- All observations are in the buckets. -/
theorem placedBelow_all (bounds xs : List Nat) :
    placedBelow bounds (bounds.length + 1) xs = xs.length :=
  List.countP_eq_length.mpr fun x _ => decide_eq_true (Nat.lt_succ_of_le (place_le bounds x))

/-- **The buckets up to a bound hold what does not exceed it.** -/
theorem placedBelow_eq {bounds : List Nat} (hsorted : bounds.Pairwise (· ≤ ·)) {k : Nat}
    (hk : k < bounds.length) (xs : List Nat) :
    placedBelow bounds (k + 1) xs = xs.countP fun x => decide (x ≤ bounds[k]) := by
  refine List.countP_congr fun x _ => ?_
  rw [decide_eq_true_iff, decide_eq_true_iff, Nat.lt_succ_iff]
  exact place_le_iff hsorted hk x

/-- More is counted up to a larger bound. -/
theorem countP_le_mono (xs : List Nat) {b b' : Nat} (h : b ≤ b') :
    (xs.countP fun x => decide (x ≤ b)) ≤ xs.countP fun x => decide (x ≤ b') :=
  List.countP_mono_left fun _ _ hx => decide_eq_true (Nat.le_trans (of_decide_eq_true hx) h)

/-- An observation is placed in one bucket. -/
theorem placedAt_append (bounds : List Nat) (k : Nat) (xs : List Nat) (x : Nat) :
    placedAt bounds k (xs ++ [x]) =
      placedAt bounds k xs + if place bounds x = k then 1 else 0 := by
  unfold placedAt
  rw [List.countP_append, List.countP_singleton]
  simp only [decide_eq_true_eq]

end DockerProxy.Lib
