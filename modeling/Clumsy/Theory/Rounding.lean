/-
# Theory.Rounding -- where rounding crosses a bound

Rounding keeps the order of numbers, also where the exponent changes (`nearest_mono`).  So it
stays below a bound between two neighbours of the format just if the number is on the near side
of their middle; the middle itself goes to the even one (`nearest_lt_iff`,
`nearest_lt_iff_even`).
-/
import Clumsy.Theory.Binary

namespace Clumsy.Theory

set_option autoImplicit false

theorem roundEven_mono {a b : ℚ} (le : a ≤ b) : roundEven a ≤ roundEven b := by
  by_contra more
  have more : roundEven b + 1 ≤ roundEven a := Int.add_one_le_of_lt (not_le.1 more)
  have gap : (roundEven b : ℚ) + 1 ≤ roundEven a := by exact_mod_cast more
  have first := abs_le.1 (roundEven_error a)
  have second := abs_le.1 (roundEven_error b)
  have same : a = b := by linarith
  rw [same] at more
  omega

namespace Format

variable (F : Format)

/-- A multiple of the last place is not crossed. -/
theorem nearest_le_grid {q : ℚ} {n : Int} (le : q ≤ n * 2 ^ F.exponent q) :
    F.nearest q ≤ n * 2 ^ F.exponent q := by
  have ulp : (0 : ℚ) < 2 ^ F.exponent q := by positivity
  have rounded := roundEven_mono ((div_le_iff₀ ulp).2 le)
  rw [roundEven_intCast] at rounded
  exact mul_le_mul_of_nonneg_right (by exact_mod_cast rounded) ulp.le

theorem grid_le_nearest {q : ℚ} {n : Int} (le : n * 2 ^ F.exponent q ≤ q) :
    n * 2 ^ F.exponent q ≤ F.nearest q := by
  have ulp : (0 : ℚ) < 2 ^ F.exponent q := by positivity
  have rounded := roundEven_mono ((le_div_iff₀ ulp).2 le)
  rw [roundEven_intCast] at rounded
  exact mul_le_mul_of_nonneg_right (by exact_mod_cast rounded) ulp.le

theorem exponent_mono {a b : ℚ} (positive : 0 < a) (le : a ≤ b) : F.exponent a ≤ F.exponent b := by
  rw [exponent, exponent, abs_of_pos positive, abs_of_pos (positive.trans_le le)]
  exact max_le_max (sub_le_sub_right (Int.log_mono_right positive le) _) le_rfl

/-- A power of two is a multiple of smaller ones. -/
theorem zpow_grid {k e : Int} (le : e ≤ k) :
    (2 : ℚ) ^ k = ((2 ^ (k - e).toNat : Int) : ℚ) * 2 ^ e := by
  push_cast
  rw [← zpow_natCast, Int.toNat_of_nonneg (sub_nonneg.2 le), ← zpow_add₀ (by norm_num)]
  congr 1
  ring

theorem nearest_mono_positive {a b : ℚ} (positive : 0 < a) (le : a ≤ b) :
    F.nearest a ≤ F.nearest b := by
  rcases (F.exponent_mono positive le).eq_or_lt with same | less
  · have ulp : (0 : ℚ) < 2 ^ F.exponent b := by positivity
    have rounded := roundEven_mono ((div_le_div_iff_of_pos_right ulp).2 le)
    rw [nearest, nearest, same]
    exact mul_le_mul_of_nonneg_right (by exact_mod_cast rounded) ulp.le
  · -- the power of two where `b` begins lies between them
    have normal : F.exponent b = Int.log 2 b - (F.precision - 1 : Int) := by
      have least : F.minExp ≤ F.exponent a := le_max_right _ _
      have shape : F.exponent b = max (Int.log 2 b - (F.precision - 1 : Int)) F.minExp := by
        rw [exponent, abs_of_pos (positive.trans_le le)]
      omega
    have log : Int.log 2 a < Int.log 2 b := by
      have high : Int.log 2 a - (F.precision - 1 : Int) ≤ F.exponent a := by
        rw [exponent, abs_of_pos positive]
        exact le_max_left _ _
      omega
    have below : a ≤ 2 ^ Int.log 2 b := by
      have small := (Int.lt_zpow_iff_log_lt (b := 2) (by norm_num) positive).2 log
      exact_mod_cast small.le
    have above : (2 : ℚ) ^ Int.log 2 b ≤ b := by
      exact_mod_cast Int.zpow_log_le_self (by norm_num) (positive.trans_le le)
    have precise := F.positive
    calc F.nearest a ≤ 2 ^ Int.log 2 b := by
          rw [zpow_grid (show F.exponent a ≤ Int.log 2 b by omega)] at below ⊢
          exact F.nearest_le_grid below
      _ ≤ F.nearest b := by
          rw [zpow_grid (show F.exponent b ≤ Int.log 2 b by omega)] at above ⊢
          exact F.grid_le_nearest above

/-- **Rounding keeps the order.** -/
theorem nearest_mono {a b : ℚ} (le : a ≤ b) : F.nearest a ≤ F.nearest b := by
  rcases lt_or_ge 0 a with positive | nonpos
  · exact F.nearest_mono_positive positive le
  · rcases lt_or_ge b 0 with negative | nonneg
    · have mirrored := F.nearest_mono_positive (neg_pos.2 negative) (neg_le_neg le)
      rw [nearest_neg, nearest_neg] at mirrored
      exact neg_le_neg_iff.1 mirrored
    · have low := F.nearest_nonneg (neg_nonneg.2 nonpos)
      rw [nearest_neg] at low
      exact (neg_nonneg.1 low).trans (F.nearest_nonneg nonneg)

/-- **A whole number that has room stays.** -/
theorem nearest_whole {n : Int} (normal : F.minExp ≤ 0) (small : |n| < 2 ^ F.precision) :
    F.nearest n = n := by
  by_cases zero : n = 0
  · rw [zero, Int.cast_zero, nearest_zero]
  have positive : (0 : ℚ) < |(n : ℚ)| := abs_pos.2 (Int.cast_ne_zero.2 zero)
  have unit : F.exponent n ≤ 0 := by
    have log : Int.log 2 |(n : ℚ)| < F.precision := by
      refine (Int.lt_zpow_iff_log_lt (b := 2) (by norm_num) positive).1 ?_
      rw [zpow_natCast, Nat.cast_ofNat]
      exact_mod_cast small
    exact max_le (by omega) normal
  have grid : (n : ℚ) = ((n * 2 ^ (0 - F.exponent n).toNat : Int) : ℚ) * 2 ^ F.exponent n := by
    have one := zpow_grid unit
    rw [zpow_zero] at one
    rw [Int.cast_mul, mul_assoc, ← one, mul_one]
  have below := F.nearest_le_grid grid.le
  have above := F.grid_le_nearest grid.ge
  rw [← grid] at below above
  exact le_antisymm below above

/-! ## Between two neighbours -/

section Neighbours

variable {F} {n e : Int} {q : ℚ}

/-- The numbers with this last place. -/
structure Places (F : Format) (n e : Int) : Prop where
  low    : 2 ^ (F.precision - 1) ≤ n
  high   : n < 2 ^ F.precision
  normal : F.minExp ≤ e

/-- From such a number up to the next one the last place stays. -/
theorem exponent_between (places : Places F n e) (above : n * 2 ^ e ≤ q)
    (below : q < (n + 1) * 2 ^ e) : F.exponent q = e := by
  have ulp : (0 : ℚ) < 2 ^ e := by positivity
  have precise := F.positive
  have least : (2 : ℚ) ^ ((F.precision : Int) - 1 + e) ≤ q := by
    rw [zpow_add₀ (by norm_num)]
    refine le_trans (mul_le_mul_of_nonneg_right ?_ ulp.le) above
    have low : ((2 ^ (F.precision - 1) : Int) : ℚ) ≤ n := by exact_mod_cast places.low
    rw [Int.cast_pow, Int.cast_ofNat, ← zpow_natCast, Nat.cast_sub F.positive] at low
    exact low
  have most : q < (2 : ℚ) ^ ((F.precision : Int) - 1 + e + 1) := by
    refine below.trans_le ?_
    rw [show (F.precision : Int) - 1 + e + 1 = F.precision + e by ring, zpow_add₀ (by norm_num)]
    refine mul_le_mul_of_nonneg_right ?_ ulp.le
    have high : ((n + 1 : Int) : ℚ) ≤ (2 ^ F.precision : Int) := by
      exact_mod_cast Int.add_one_le_of_lt places.high
    push_cast at high
    rwa [zpow_natCast]
  have positive : 0 < q := lt_of_lt_of_le (by positivity) least
  have log : Int.log 2 q = (F.precision : Int) - 1 + e := by
    refine le_antisymm ?_ ?_
    · have small : Int.log 2 q < (F.precision : Int) - 1 + e + 1 :=
        (Int.lt_zpow_iff_log_lt (by norm_num) positive).1 (by exact_mod_cast most)
      omega
    · exact (Int.zpow_le_iff_le_log (b := 2) (by norm_num) positive).1 (by exact_mod_cast least)
  rw [exponent, abs_of_pos positive, log, max_eq_left (by have := places.normal; omega)]
  ring

theorem nearest_between (places : Places F n e) (above : n * 2 ^ e ≤ q)
    (below : q < (n + 1) * 2 ^ e) : F.nearest q = roundEven (q / 2 ^ e) * 2 ^ e := by
  rw [nearest, exponent_between places above below]

/-- Below the middle it goes down. -/
theorem nearest_le_of_lt (places : Places F n e) (lt : q < (n + 1 / 2) * 2 ^ e) :
    F.nearest q ≤ n * 2 ^ e := by
  have ulp : (0 : ℚ) < 2 ^ e := by positivity
  have inside : max q (n * 2 ^ e) < (n + 1 / 2) * 2 ^ e :=
    max_lt lt (mul_lt_mul_of_pos_right (by linarith) ulp)
  refine (F.nearest_mono (le_max_left q (n * 2 ^ e))).trans ?_
  rw [nearest_between places (le_max_right _ _)
    (inside.trans (mul_lt_mul_of_pos_right (by linarith) ulp))]
  refine mul_le_mul_of_nonneg_right ?_ ulp.le
  have low := (le_div_iff₀ ulp).2 (le_max_right q (n * 2 ^ e))
  have high := (div_lt_iff₀ ulp).2 inside
  rw [roundEven_eq (n := n) (by rw [abs_lt]; constructor <;> linarith)]

/-- The middle goes down to an even number. -/
theorem nearest_le_of_even (places : Places F n e) (even : n % 2 = 0)
    (le : q ≤ (n + 1 / 2) * 2 ^ e) : F.nearest q ≤ n * 2 ^ e := by
  have ulp : (0 : ℚ) < 2 ^ e := by positivity
  refine (F.nearest_mono le).trans ?_
  have above : (n : ℚ) * 2 ^ e ≤ (n + 1 / 2) * 2 ^ e :=
    mul_le_mul_of_nonneg_right (by linarith) ulp.le
  have below : ((n : ℚ) + 1 / 2) * 2 ^ e < (n + 1) * 2 ^ e :=
    mul_lt_mul_of_pos_right (by linarith) ulp
  rw [nearest_between places above below, mul_div_cancel_right₀ _ ulp.ne',
    (roundEven_even even).2 (by rw [add_sub_cancel_left]; norm_num)]

/-- Above the middle it goes up. -/
theorem le_nearest_of_lt (places : Places F n e) (lt : (n + 1 / 2) * 2 ^ e < q) :
    (n + 1) * 2 ^ e ≤ F.nearest q := by
  have ulp : (0 : ℚ) < 2 ^ e := by positivity
  have inside : (n + 1 / 2) * 2 ^ e < min q ((n + 3 / 4) * 2 ^ e) :=
    lt_min lt (mul_lt_mul_of_pos_right (by linarith) ulp)
  refine le_trans ?_ (F.nearest_mono (min_le_left q ((n + 3 / 4) * 2 ^ e)))
  have above : (n : ℚ) * 2 ^ e ≤ min q ((n + 3 / 4) * 2 ^ e) :=
    ((mul_lt_mul_of_pos_right (by linarith) ulp).trans inside).le
  have below : min q ((n + 3 / 4) * 2 ^ e) < (n + 1) * 2 ^ e :=
    (min_le_right _ _).trans_lt (mul_lt_mul_of_pos_right (by linarith) ulp)
  rw [nearest_between places above below]
  refine mul_le_mul_of_nonneg_right ?_ ulp.le
  have low := (lt_div_iff₀ ulp).2 inside
  have high := (div_le_iff₀ ulp).2 (min_le_right q ((n + 3 / 4) * 2 ^ e))
  rw [roundEven_eq (n := n + 1) (by push_cast; rw [abs_lt]; constructor <;> linarith)]
  push_cast
  exact le_rfl

/-- The middle goes up from an odd number. -/
theorem le_nearest_of_odd (places : Places F n e) (odd : n % 2 = 1)
    (le : (n + 1 / 2) * 2 ^ e ≤ q) : (n + 1) * 2 ^ e ≤ F.nearest q := by
  have ulp : (0 : ℚ) < 2 ^ e := by positivity
  refine le_trans ?_ (F.nearest_mono le)
  have above : (n : ℚ) * 2 ^ e ≤ (n + 1 / 2) * 2 ^ e :=
    mul_le_mul_of_nonneg_right (by linarith) ulp.le
  have below : ((n : ℚ) + 1 / 2) * 2 ^ e < (n + 1) * 2 ^ e :=
    mul_lt_mul_of_pos_right (by linarith) ulp
  have even : roundEven ((n : ℚ) + 1 / 2) = n + 1 := by
    refine (roundEven_even (by omega)).2 ?_
    push_cast
    rw [abs_le]
    constructor <;> linarith
  rw [nearest_between places above below, mul_div_cancel_right₀ _ ulp.ne', even]
  push_cast
  exact le_rfl

variable {y : ℚ} (places : Places F n e) (above : n * 2 ^ e < y) (below : y ≤ (n + 1) * 2 ^ e)
include places above below

/-- **A bound behind an odd number.** -/
theorem nearest_lt_iff (odd : n % 2 = 1) : F.nearest q < y ↔ q < (n + 1 / 2) * 2 ^ e := by
  constructor
  · intro small
    by_contra far
    exact absurd small (not_lt.2 (below.trans (le_nearest_of_odd places odd (not_lt.1 far))))
  · intro near
    exact (nearest_le_of_lt places near).trans_lt above

/-- **A bound behind an even number.** -/
theorem nearest_lt_iff_even (even : n % 2 = 0) :
    F.nearest q < y ↔ q ≤ (n + 1 / 2) * 2 ^ e := by
  constructor
  · intro small
    by_contra far
    exact absurd small (not_lt.2 (below.trans (le_nearest_of_lt places (not_le.1 far))))
  · intro near
    exact (nearest_le_of_even places even near).trans_lt above

end Neighbours

end Format

end Clumsy.Theory
