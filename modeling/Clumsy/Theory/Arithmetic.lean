/-
# Theory.Arithmetic -- programs over real numbers, exactly and rounded

An operation of a program is the exact one followed by `round`.  What a program may rely on
whatever the rounding is: it keeps the order and leaves whole numbers of so many bits alone.
So one definition of a program serves two readings of its numbers, as rationals
(`Arithmetic.exact`) and as the numbers of a format (`Format.arithmetic`).

A rounded number is off by at most its last half place (`nearest_relative`), which is what the
second reading adds to the first.
-/
import Clumsy.Theory.Rounding

namespace Clumsy.Theory

set_option autoImplicit false

/-- A way to round that keeps whole numbers of `bits` bits. -/
structure Arithmetic (bits : Nat) where
  round : ℚ → ℚ
  mono  : ∀ {a b : ℚ}, a ≤ b → round a ≤ round b
  whole : ∀ n : Int, |n| < 2 ^ bits → round n = n

namespace Arithmetic

variable {bits : Nat}

/-- Nothing is rounded. -/
def exact : Arithmetic bits where
  round := id
  mono := id
  whole _ _ := rfl

@[simp] theorem exact_round (q : ℚ) : (exact : Arithmetic bits).round q = q := rfl

variable (A : Arithmetic bits)

@[simp] theorem round_zero : A.round 0 = 0 := by
  have zero := A.whole 0 (by simp)
  rwa [Int.cast_zero] at zero

theorem round_nonneg {q : ℚ} (nonneg : 0 ≤ q) : 0 ≤ A.round q := by
  have kept := A.mono nonneg
  rwa [round_zero] at kept

/-- A whole number below is still below. -/
theorem whole_le_round {n : Int} (small : |n| < 2 ^ bits) {q : ℚ} (le : n ≤ q) :
    n ≤ A.round q := by
  rw [← A.whole n small]
  exact A.mono le

end Arithmetic

namespace Format

variable (F : Format)

/-- The arithmetic of a format, for the results that are in its range (`round_eq_finite`). -/
def arithmetic (normal : F.minExp ≤ 0) : Arithmetic F.precision where
  round := F.nearest
  mono := F.nearest_mono
  whole _ small := F.nearest_whole normal small

/-- There `round` is finite and goes to the nearest number. -/
theorem round_eq_finite {q : ℚ} {k : Int} (small : |q| ≤ 2 ^ k)
    (normal : F.minExp ≤ k - (F.precision - 1 : Int)) (finite : k < F.maxExp) :
    F.round q = .finite (F.nearest q) := by
  obtain ⟨r, rounded, -⟩ := F.round_near small normal finite
  unfold Format.round at rounded ⊢
  split at rounded
  · rename_i inside
    exact if_pos inside
  · cases rounded

/-- **The error of a rounding**, against the number: half of the last place. -/
theorem nearest_relative {q : ℚ} (normal : 2 ^ (F.minExp + (F.precision - 1 : Int)) ≤ |q|) :
    |F.nearest q - q| ≤ |q| / 2 ^ F.precision := by
  have positive : 0 < |q| := lt_of_lt_of_le (by positivity) normal
  have log : F.minExp + (F.precision - 1 : Int) ≤ Int.log 2 |q| :=
    (Int.zpow_le_iff_le_log (b := 2) (by norm_num) positive).1 (by exact_mod_cast normal)
  have least : (2 : ℚ) ^ Int.log 2 |q| ≤ |q| := by
    exact_mod_cast Int.zpow_log_le_self (by norm_num) positive
  have exponent : F.exponent q = Int.log 2 |q| - (F.precision - 1 : Int) := by
    rw [Format.exponent, max_eq_left (by omega)]
  have place : (2 : ℚ) ^ F.exponent q / 2 = 2 ^ Int.log 2 |q| / 2 ^ F.precision := by
    rw [exponent, show Int.log 2 |q| - ((F.precision : Int) - 1) =
      Int.log 2 |q| - F.precision + 1 by ring, zpow_add_one₀ (by norm_num),
      zpow_sub₀ (by norm_num), zpow_natCast]
    ring
  refine (F.nearest_error q).trans ?_
  rw [place]
  gcongr

end Format

/-- `double`. -/
def double : Arithmetic 53 := binary64.arithmetic (by decide)

/-- Nothing below `2 ^ 52` is out of range. -/
theorem double_finite {q : ℚ} {n : Nat} (nonneg : 0 ≤ q) (small : q ≤ 2 ^ n) (fits : n ≤ 52) :
    binary64.round q = .finite (double.round q) ∧ double.round q ≤ 2 ^ n := by
  constructor
  · refine binary64.round_eq_finite (k := n) ?_ ?_ ?_
    · rw [abs_of_nonneg nonneg, zpow_natCast]
      exact small
    · show (-1074 : Int) ≤ n - (53 - 1)
      omega
    · show (n : Int) < 1024
      omega
  · have power : |(2 ^ n : Int)| < 2 ^ 53 := by
      rw [abs_of_nonneg (by positivity)]
      exact pow_lt_pow_right₀ (by norm_num) (by omega)
    have kept := double.whole (2 ^ n) power
    push_cast at kept
    rw [← kept]
    exact double.mono small

/-- A `double` operation loses no more than its 2^-53rd part. -/
theorem double_loses {q : ℚ} (normal : 1 / 2 ^ 64 ≤ q) :
    q - q / 2 ^ 53 ≤ double.round q := by
  have nonneg : 0 ≤ q := le_trans (by positivity) normal
  have least : (2 : ℚ) ^ (binary64.minExp + (binary64.precision - 1 : Int)) ≤ |q| := by
    rw [abs_of_nonneg nonneg]
    refine le_trans ?_ normal
    rw [one_div, ← zpow_natCast, ← zpow_neg]
    exact zpow_le_zpow_right₀ (by norm_num) (by decide)
  have error := (abs_le.1 (binary64.nearest_relative least)).1
  rw [abs_of_nonneg nonneg] at error
  have rounded : double.round q = binary64.nearest q := rfl
  have bits : (2 : ℚ) ^ binary64.precision = 2 ^ 53 := rfl
  rw [bits] at error
  rw [rounded]
  linarith

end Clumsy.Theory
