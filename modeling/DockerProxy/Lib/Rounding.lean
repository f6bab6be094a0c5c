/-
  DockerProxy.Lib.Rounding — arithmetic whose results are rounded.

  A `Rounding` takes every rational to a nearest number of its format.  That is all the
  results below use of it:

    • `round_of_mem` — a number of the format is its own rounding,
    • `round_mono` — rounding keeps the order,
    • `two_mul_sub_le_round` — below a number of the format, by the distance at most,
    • `binary64` — IEEE 754 doubles, ties to even.

  The exponent of `binary64` is not bounded: the overflow to infinity and the subnormal
  numbers of doubles are left out.
-/
import Mathlib.Algebra.Order.Round
import Mathlib.Data.Int.Log
import Mathlib.Data.Rat.Floor
import Mathlib.Tactic.Linarith
import Mathlib.Tactic.Positivity

namespace DockerProxy.Lib

/-! ## §1. Rounding to a format. -/

/-- **Rounding to nearest**, in a format that has 0 and 1. -/
structure Rounding where
  format : ℚ → Prop
  round : ℚ → ℚ
  zero_mem : format 0
  one_mem : format 1
  round_mem : ∀ q, format (round q)
  nearest : ∀ q x, format x → |round q - q| ≤ |x - q|

namespace Rounding

/-- Every rational is in the format. -/
def exact : Rounding where
  format _ := True
  round q := q
  zero_mem := trivial
  one_mem := trivial
  round_mem _ := trivial
  nearest q x _ := by
    rw [sub_self, abs_zero]
    exact abs_nonneg _

variable (R : Rounding)

/-- The rounded operations. -/
def add (a b : ℚ) : ℚ := R.round (a + b)

def sub (a b : ℚ) : ℚ := R.round (a - b)

def mul (a b : ℚ) : ℚ := R.round (a * b)

def div (a b : ℚ) : ℚ := R.round (a / b)

/-- The conversion of an integer. -/
def ofNat (n : Nat) : ℚ := R.round n

variable {R}

/-- **A number of the format is its own rounding.** -/
theorem round_of_mem {q : ℚ} (h : R.format q) : R.round q = q := by
  have hzero : |R.round q - q| ≤ 0 := by simpa using R.nearest q q h
  exact sub_eq_zero.mp (abs_nonpos_iff.mp hzero)

@[simp] theorem round_zero : R.round 0 = 0 := round_of_mem R.zero_mem

/-- What is no farther from the upper of two numbers is above their middle. -/
theorem add_le_two_mul {a b x : ℚ} (hab : a < b) (h : |b - x| ≤ |a - x|) : a + b ≤ 2 * x := by
  have hsq : (b - x) ^ 2 ≤ (a - x) ^ 2 := sq_le_sq.mpr h
  have hprod : (b - a) * (a + b - 2 * x) ≤ 0 := by linarith [hsq]
  by_contra hlt
  have hpos : 0 < a + b - 2 * x := by linarith
  exact absurd (mul_pos (sub_pos.mpr hab) hpos) (not_lt.mpr hprod)

/-- **Rounding keeps the order.** -/
theorem round_mono {p q : ℚ} (h : p ≤ q) : R.round p ≤ R.round q := by
  by_contra hlt
  have hlt : R.round q < R.round p := not_le.mp hlt
  -- `p` is rounded up over the middle, and `q`, which is above it, down
  have hp : R.round q + R.round p ≤ 2 * p :=
    add_le_two_mul hlt (R.nearest p _ (R.round_mem q))
  have hq : -R.round p + -R.round q ≤ 2 * -q := by
    refine add_le_two_mul (neg_lt_neg hlt) ?_
    have hnear := R.nearest q _ (R.round_mem p)
    rw [neg_sub_neg, neg_sub_neg, abs_sub_comm q, abs_sub_comm q]
    exact hnear
  have heq : p = q := by linarith
  rw [heq] at hlt
  exact absurd hlt (lt_irrefl _)

theorem le_round {x q : ℚ} (hx : R.format x) (h : x ≤ q) : x ≤ R.round q := by
  have hround := round_mono (R := R) h
  rwa [round_of_mem hx] at hround

theorem round_le {x q : ℚ} (hx : R.format x) (h : q ≤ x) : R.round q ≤ x := by
  have hround := round_mono (R := R) h
  rwa [round_of_mem hx] at hround

/-- **Rounding goes down from a number of the format by the distance to it at most.** -/
theorem two_mul_sub_le_round {x q : ℚ} (hx : R.format x) (h : q ≤ x) :
    2 * q - x ≤ R.round q := by
  have hnear := R.nearest q x hx
  rw [abs_of_nonneg (sub_nonneg.mpr h)] at hnear
  have hlow := neg_le_of_abs_le hnear
  linarith

end Rounding

/-! ## §2. The nearest integer, ties to even. -/

/-- The nearest integer, and of two the even one. -/
def roundEven (q : ℚ) : ℤ :=
  if 2 * Int.fract q = 1 ∧ ⌊q⌋ % 2 = 0 then ⌊q⌋ else round q

theorem roundEven_error (q : ℚ) : |q - roundEven q| ≤ 1 / 2 := by
  unfold roundEven
  split
  next htie =>
    have hhalf : q - ⌊q⌋ = 1 / 2 := by
      have hfract : q - ⌊q⌋ = Int.fract q := rfl
      linarith [htie.1]
    rw [hhalf, abs_of_nonneg (by norm_num)]
  next => exact abs_sub_round q

/-- **No integer is nearer.** -/
theorem roundEven_nearest (q : ℚ) (k : ℤ) : |q - roundEven q| ≤ |q - k| := by
  unfold roundEven
  split
  next htie =>
    -- at a tie both neighbours are at one half
    have hfract : |q - ⌊q⌋| = |q - round q| := by
      rw [abs_sub_round_eq_min, show q - ⌊q⌋ = Int.fract q from rfl,
        abs_of_nonneg (Int.fract_nonneg q)]
      exact (min_eq_left (by linarith [htie.1])).symm
    rw [hfract]
    exact round_le q k
  next => exact round_le q k

/-! ## §3. Doubles. -/

/-- A number of 53 binary digits. -/
def Binary64 (q : ℚ) : Prop := ∃ m e : ℤ, |m| ≤ 2 ^ 53 ∧ q = m * 2 ^ e

/-- The last of 53 digits of a number of this size. -/
def unitOf (q : ℚ) : ℚ := 2 ^ (Int.log 2 |q| - 52)

/-- The number as a multiple of its unit, to the nearest. -/
def roundBinary64 (q : ℚ) : ℚ := roundEven (q / unitOf q) * unitOf q

theorem unitOf_pos (q : ℚ) : 0 < unitOf q := zpow_pos (by norm_num) _

theorem abs_lt_unitOf (q : ℚ) : |q| < 2 ^ 53 * unitOf q := by
  have h := Int.lt_zpow_succ_log_self (b := 2) (by norm_num) |q|
  have hexp : Int.log 2 |q| + 1 = 53 + (Int.log 2 |q| - 52) := by ring
  rw [hexp, zpow_add₀ (by norm_num)] at h
  exact_mod_cast h

theorem unitOf_le_abs {q : ℚ} (hq : q ≠ 0) : 2 ^ 52 * unitOf q ≤ |q| := by
  have h := Int.zpow_log_le_self (b := 2) (by norm_num) (abs_pos.mpr hq)
  have hexp : Int.log 2 |q| = 52 + (Int.log 2 |q| - 52) := by ring
  rw [hexp, zpow_add₀ (by norm_num)] at h
  exact_mod_cast h

/-- **A rounded number has 53 digits.** -/
theorem roundBinary64_mem (q : ℚ) : Binary64 (roundBinary64 q) := by
  refine ⟨roundEven (q / unitOf q), Int.log 2 |q| - 52, ?_, rfl⟩
  have herror := roundEven_error (q / unitOf q)
  have hsize : |q / unitOf q| < 2 ^ 53 := by
    rw [abs_div, abs_of_pos (unitOf_pos q), div_lt_iff₀ (unitOf_pos q)]
    exact abs_lt_unitOf q
  -- less than 2 ^ 53 and a half
  have hlt : |((roundEven (q / unitOf q) : ℤ) : ℚ)| < 2 ^ 53 + 1 := by
    have htri := abs_sub_abs_le_abs_sub ((roundEven (q / unitOf q) : ℤ) : ℚ) (q / unitOf q)
    rw [abs_sub_comm] at htri
    linarith
  have hlt : |roundEven (q / unitOf q)| < 2 ^ 53 + 1 := by exact_mod_cast hlt
  omega

/-- No multiple of the unit is nearer. -/
theorem roundBinary64_nearest_multiple (q : ℚ) (k : ℤ) :
    |roundBinary64 q - q| ≤ |k * unitOf q - q| := by
  have hu := unitOf_pos q
  have hscale : ∀ n : ℤ, |n * unitOf q - q| = |q / unitOf q - n| * unitOf q := by
    intro n
    have hq : n * unitOf q - q = -(q / unitOf q - n) * unitOf q := by
      rw [neg_sub, sub_mul, div_mul_cancel₀ q hu.ne']
    rw [hq, abs_mul, abs_neg, abs_of_pos hu]
  unfold roundBinary64
  rw [hscale, hscale]
  exact mul_le_mul_of_nonneg_right (roundEven_nearest _ k) hu.le

/-- Nor is anything below the first multiple of 53 digits. -/
theorem roundBinary64_le_sub {q : ℚ} (hq : q ≠ 0) :
    |roundBinary64 q - q| ≤ |q| - 2 ^ 52 * unitOf q := by
  have hunit := unitOf_le_abs hq
  rcases le_total 0 q with hsign | hsign
  · have h := roundBinary64_nearest_multiple q (2 ^ 52)
    rw [abs_of_nonneg hsign] at hunit ⊢
    have habs : |((2 ^ 52 : ℤ) : ℚ) * unitOf q - q| = q - 2 ^ 52 * unitOf q := by
      push_cast
      rw [abs_sub_comm]
      exact abs_of_nonneg (by linarith)
    exact le_of_le_of_eq h habs
  · have h := roundBinary64_nearest_multiple q (-2 ^ 52)
    rw [abs_of_nonpos hsign] at hunit ⊢
    have habs : |((-2 ^ 52 : ℤ) : ℚ) * unitOf q - q| = -q - 2 ^ 52 * unitOf q := by
      push_cast
      rw [abs_of_nonneg (by linarith)]
      ring
    exact le_of_le_of_eq h habs

/-- 53 digits of a coarser unit are a multiple of the unit. -/
theorem multiple_of_coarser {q : ℚ} (m : ℤ) {e : ℤ} (he : Int.log 2 |q| - 52 ≤ e) :
    ∃ k : ℤ, (m : ℚ) * 2 ^ e = k * unitOf q := by
  obtain ⟨n, hn⟩ := Int.eq_ofNat_of_zero_le (sub_nonneg.mpr he)
  have hexp : e = n + (Int.log 2 |q| - 52) := by omega
  refine ⟨m * 2 ^ n, ?_⟩
  unfold unitOf
  rw [hexp, zpow_add₀ (by norm_num), zpow_natCast]
  push_cast
  ring

/-- 53 digits of a finer unit are at most 2 ^ 52 units. -/
theorem abs_le_of_finer {q : ℚ} {m e : ℤ} (hm : |m| ≤ 2 ^ 53) (he : e < Int.log 2 |q| - 52) :
    |(m : ℚ) * 2 ^ e| ≤ 2 ^ 52 * unitOf q := by
  have hmQ : |(m : ℚ)| ≤ 2 ^ 53 := by exact_mod_cast hm
  have hpos : (0 : ℚ) < 2 ^ e := zpow_pos (by norm_num) e
  have hpow : (2 : ℚ) ^ e ≤ unitOf q / 2 := by
    have hle : (2 : ℚ) ^ e ≤ 2 ^ (Int.log 2 |q| - 52 - 1) :=
      zpow_le_zpow_right₀ (by norm_num) (by omega)
    rwa [zpow_sub₀ (by norm_num) _ 1, zpow_one] at hle
  calc |(m : ℚ) * 2 ^ e| = |(m : ℚ)| * 2 ^ e := by rw [abs_mul, abs_of_pos hpos]
    _ ≤ 2 ^ 53 * (unitOf q / 2) := mul_le_mul hmQ hpow hpos.le (by norm_num)
    _ = 2 ^ 52 * unitOf q := by ring

/-- **No number of 53 digits is nearer.** -/
theorem roundBinary64_nearest (q x : ℚ) (hx : Binary64 x) : |roundBinary64 q - q| ≤ |x - q| := by
  obtain ⟨m, e, hm, rfl⟩ := hx
  by_cases he : Int.log 2 |q| - 52 ≤ e
  · obtain ⟨k, hk⟩ := multiple_of_coarser m he
    rw [hk]
    exact roundBinary64_nearest_multiple q k
  by_cases hq : q = 0
  · have hzero := roundBinary64_nearest_multiple q 0
    rw [Int.cast_zero, zero_mul] at hzero
    refine le_trans hzero ?_
    rw [hq, sub_zero, abs_zero]
    exact abs_nonneg _
  · -- it is no larger than 2 ^ 52 units, and `q` is no smaller
    have hx := abs_le_of_finer hm (not_le.mp he)
    have hround := roundBinary64_le_sub hq
    have htri := abs_sub_abs_le_abs_sub q ((m : ℚ) * 2 ^ e)
    rw [abs_sub_comm] at htri
    linarith

/-- **Doubles**, with an exponent that is not bounded. -/
def binary64 : Rounding where
  format := Binary64
  round := roundBinary64
  zero_mem := ⟨0, 0, by norm_num, by norm_num⟩
  one_mem := ⟨1, 0, by norm_num, by norm_num⟩
  round_mem := roundBinary64_mem
  nearest := roundBinary64_nearest

/-- **Integers of up to 53 digits are doubles.** -/
theorem binary64_natCast {n : Nat} (h : n ≤ 2 ^ 53) : binary64.format n := by
  refine ⟨n, 0, ?_, by norm_num⟩
  rw [abs_of_nonneg (Int.natCast_nonneg n)]
  exact_mod_cast h

/-- **The doubles above 2 ^ 53 are even integers.** -/
theorem even_of_binary64 {q : ℚ} (h : binary64.format q) (hlt : 2 ^ 53 < q) :
    ∃ k : ℤ, q = 2 * k := by
  obtain ⟨m, e, hm, hq⟩ := h
  have hm : (m : ℚ) ≤ 2 ^ 53 := by exact_mod_cast le_trans (le_abs_self m) hm
  have hexp : 1 ≤ e := by
    by_contra hneg
    have hpow : (2 : ℚ) ^ e ≤ 1 := zpow_le_one_of_nonpos₀ (by norm_num) (by omega)
    have hpos : (0 : ℚ) < 2 ^ e := zpow_pos (by norm_num) e
    have hle : (m : ℚ) * 2 ^ e ≤ 2 ^ 53 * 1 :=
      mul_le_mul hm hpow hpos.le (by norm_num)
    linarith
  obtain ⟨n, hn⟩ := Int.eq_ofNat_of_zero_le (show 0 ≤ e - 1 by omega)
  refine ⟨m * 2 ^ n, ?_⟩
  have he : e = n + 1 := by omega
  rw [hq, he, zpow_add₀ (by norm_num), zpow_natCast, zpow_one]
  push_cast
  ring

/-- **A large double swallows half of one.** -/
theorem binary64_sub_eq_self {q d : ℚ} (hq : binary64.format q) (hlt : 2 ^ 53 < q) (hd : 0 ≤ d)
    (hhalf : 2 * d ≤ 1) : binary64.sub q d = q := by
  obtain ⟨k, hk⟩ := even_of_binary64 hq hlt
  have hk53 : 2 ^ 53 + 2 ≤ 2 * k := by
    have hlt : (2 ^ 53 : ℤ) < 2 * k := by
      rw [hk] at hlt
      exact_mod_cast hlt
    omega
  have hk53 : (2 ^ 53 + 2 : ℚ) ≤ q := by
    rw [hk]
    exact_mod_cast hk53
  -- the difference is rounded to a double less than 1 below, and that is an even integer
  have hlow : 2 * (q - d) - q ≤ binary64.round (q - d) :=
    Rounding.two_mul_sub_le_round hq (by linarith)
  have hupp : binary64.round (q - d) ≤ q := Rounding.round_le hq (by linarith)
  obtain ⟨n, hn⟩ := even_of_binary64 (binary64.round_mem (q - d)) (by linarith)
  have hnk : n = k := by
    rw [hn, hk] at hupp
    rw [hn, hk] at hlow
    have h1 : ((2 * n : ℤ) : ℚ) ≤ (2 * k : ℤ) := by
      push_cast
      exact hupp
    have h2 : ((2 * k - 1 : ℤ) : ℚ) ≤ (2 * n : ℤ) := by
      push_cast
      linarith
    have h1 : 2 * n ≤ 2 * k := by exact_mod_cast h1
    have h2 : 2 * k - 1 ≤ 2 * n := by exact_mod_cast h2
    omega
  show binary64.round (q - d) = q
  rw [hn, hnk, hk]

-- 0.1 is no double, and a third of three is one
example : binary64.round (1 / 10) ≠ 1 / 10 ∧ binary64.mul 3 (binary64.div 1 3) = 1 := by
  decide +kernel

end DockerProxy.Lib
