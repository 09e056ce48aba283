/-
# Theory.Binary -- binary floating-point numbers as rationals

A format is its precision and its range of exponents; a number of it is a rational, an
infinity or no number at all.  Every operation is the exact one followed by `round`,
which goes to the nearest number of the format, and to the even one of two.

What programs over such numbers need is how far `round` may go (`round_near`), and that
it leaves what is a number already alone (`roundEven_intCast`).  The sign of a zero is
not kept.
-/
import Mathlib

namespace Clumsy.Theory

set_option autoImplicit false

/-! ## Integers -/

/-- The nearest integer, and the even one of two. -/
def roundEven (q : ℚ) : Int :=
  let n := ⌊q⌋
  if q - n < 1 / 2 then n
  else if 1 / 2 < q - n then n + 1
  else if n % 2 = 0 then n
  else n + 1

theorem roundEven_error (q : ℚ) : |(roundEven q : ℚ) - q| ≤ 1 / 2 := by
  have low := Int.floor_le q
  have high := Int.lt_floor_add_one q
  simp only [roundEven]
  split_ifs <;> rw [abs_le] <;> push_cast <;> constructor <;> linarith

@[simp] theorem roundEven_intCast (n : Int) : roundEven (n : ℚ) = n := by
  simp [roundEven]

/-- An integer is hit from everywhere less than half away. -/
theorem roundEven_eq {q : ℚ} {n : Int} (near : |q - n| < 1 / 2) : roundEven q = n := by
  have error := roundEven_error q
  have apart : |((roundEven q : ℚ) - n)| < 1 := by
    have triangle := abs_sub_le (roundEven q : ℚ) q n
    linarith
  have whole : |roundEven q - n| < 1 := by exact_mod_cast apart
  have same := Int.abs_lt_one_iff.1 whole
  omega

/-- To an even one it goes from as far as half away. -/
theorem roundEven_even {q : ℚ} {n : Int} (even : n % 2 = 0) :
    roundEven q = n ↔ |q - n| ≤ 1 / 2 := by
  constructor
  · intro rounded
    have error := roundEven_error q
    rwa [rounded, abs_sub_comm] at error
  · intro near
    rcases lt_or_eq_of_le near with inside | tie
    · exact roundEven_eq inside
    · rcases eq_or_eq_neg_of_abs_eq tie with above | below
      · have floor : ⌊q⌋ = n := by
          rw [Int.floor_eq_iff]
          constructor <;> linarith
        simp only [roundEven, floor, above, lt_irrefl, if_false, even, if_true]
      · have floor : ⌊q⌋ = n - 1 := by
          rw [Int.floor_eq_iff]
          push_cast
          constructor <;> linarith
        have half : q - ((n - 1 : Int) : ℚ) = 1 / 2 := by
          push_cast
          linarith
        have odd : (n - 1) % 2 ≠ 0 := by omega
        simp only [roundEven, floor, half, lt_irrefl, if_false, odd]
        omega

/-- Rounding to the even one of two is the same on both sides of zero. -/
theorem roundEven_neg (q : ℚ) : roundEven (-q) = -roundEven q := by
  by_cases whole : q = ⌊q⌋
  · rw [whole, ← Int.cast_neg, roundEven_intCast, roundEven_intCast]
  · have low : (⌊q⌋ : ℚ) < q := lt_of_le_of_ne (Int.floor_le q) (Ne.symm whole)
    have high := Int.lt_floor_add_one q
    have floor : ⌊-q⌋ = -⌊q⌋ - 1 := by
      rw [Int.floor_eq_iff]
      push_cast
      constructor <;> linarith
    simp only [roundEven, floor]
    push_cast
    split_ifs <;> first | omega | (exfalso; linarith)

/-! ## Numbers -/

structure Format where
  precision : Nat
  positive  : 0 < precision
  /-- The exponent of the least positive number. -/
  minExp    : Int
  /-- Numbers stay below two to this. -/
  maxExp    : Int

def binary32 : Format := { precision := 24, positive := by decide, minExp := -149, maxExp := 128 }

def binary64 : Format := { precision := 53, positive := by decide, minExp := -1074, maxExp := 1024 }

inductive Fp where
  | finite (q : ℚ)
  | infinite (negative : Bool)
  | nan
  deriving DecidableEq

namespace Format

variable (F : Format)

/-- The exponent of the last place of `q`. -/
def exponent (q : ℚ) : Int := max (Int.log 2 |q| - (F.precision - 1 : Int)) F.minExp

def nearest (q : ℚ) : ℚ := roundEven (q / 2 ^ F.exponent q) * 2 ^ F.exponent q

def round (q : ℚ) : Fp :=
  if |F.nearest q| < 2 ^ F.maxExp then .finite (F.nearest q) else .infinite (decide (q < 0))

theorem nearest_error (q : ℚ) : |F.nearest q - q| ≤ 2 ^ F.exponent q / 2 := by
  have ulp : (0 : ℚ) < 2 ^ F.exponent q := by positivity
  have error := roundEven_error (q / 2 ^ F.exponent q)
  have scaled : F.nearest q - q =
      (roundEven (q / 2 ^ F.exponent q) - q / 2 ^ F.exponent q) * 2 ^ F.exponent q := by
    rw [nearest, sub_mul, div_mul_cancel₀ _ ulp.ne']
  rw [scaled, abs_mul, abs_of_pos ulp]
  calc |(roundEven (q / 2 ^ F.exponent q) : ℚ) - q / 2 ^ F.exponent q| * 2 ^ F.exponent q
      ≤ 1 / 2 * 2 ^ F.exponent q := mul_le_mul_of_nonneg_right error ulp.le
    _ = 2 ^ F.exponent q / 2 := by ring

@[simp] theorem nearest_zero : F.nearest 0 = 0 := by
  have whole : roundEven 0 = 0 := by simpa using roundEven_intCast 0
  simp [nearest, whole]

theorem nearest_neg (q : ℚ) : F.nearest (-q) = -F.nearest q := by
  have exponent : F.exponent (-q) = F.exponent q := by
    rw [Format.exponent, Format.exponent, abs_neg]
  rw [nearest, nearest, exponent, neg_div, roundEven_neg, Int.cast_neg, neg_mul]

/-- Below `2 ^ k` a rounding goes no further than half of the last place there. -/
theorem nearest_below {q : ℚ} {k : Int} (small : |q| < 2 ^ k)
    (normal : F.minExp ≤ k - F.precision) :
    |F.nearest q - q| ≤ 2 ^ (k - 1 - F.precision) := by
  by_cases zero : q = 0
  · rw [zero, nearest_zero, sub_zero, abs_zero]
    positivity
  have exponent : F.exponent q ≤ k - F.precision := by
    refine max_le ?_ normal
    have log := (Int.lt_zpow_iff_log_lt (b := 2) (by norm_num) (abs_pos.2 zero)).1
      (by exact_mod_cast small)
    omega
  have half : (2 : ℚ) ^ (k - 1 - F.precision) = 2 ^ (k - F.precision) / 2 := by
    rw [div_eq_mul_inv, ← zpow_sub_one₀ (by norm_num)]
    congr 1
    ring
  rw [half]
  refine (F.nearest_error q).trans ?_
  gcongr
  norm_num

theorem nearest_near {q : ℚ} {k : Int} (small : |q| ≤ 2 ^ k)
    (normal : F.minExp ≤ k - (F.precision - 1 : Int)) :
    |F.nearest q - q| ≤ 2 ^ (k - F.precision) := by
  have power : (2 : ℚ) ^ k < 2 ^ (k + 1) := zpow_lt_zpow_right₀ (by norm_num) (by omega)
  have near := F.nearest_below (small.trans_lt power) (by omega)
  rwa [add_sub_cancel_right] at near

/-- The same for `round`, which stays finite there. -/
theorem round_near {q : ℚ} {k : Int} (small : |q| ≤ 2 ^ k)
    (normal : F.minExp ≤ k - (F.precision - 1 : Int)) (finite : k < F.maxExp) :
    ∃ r, F.round q = .finite r ∧ |r - q| ≤ 2 ^ (k - F.precision) := by
  have near := F.nearest_near small normal
  refine ⟨F.nearest q, if_pos ?_, near⟩
  have positive := F.positive
  have last : (2 : ℚ) ^ (k - F.precision) ≤ 2 ^ (k - 1) :=
    zpow_le_zpow_right₀ (by norm_num) (by omega)
  have half : (2 : ℚ) ^ k = 2 * 2 ^ (k - 1) := by
    rw [zpow_sub_one₀ (by norm_num)]
    ring
  have top : (2 : ℚ) ^ (k + 1) ≤ 2 ^ F.maxExp := zpow_le_zpow_right₀ (by norm_num) (by omega)
  have twice : (2 : ℚ) ^ (k + 1) = 2 * 2 ^ k := by
    rw [zpow_add_one₀ (by norm_num)]
    ring
  have power : (0 : ℚ) < 2 ^ (k - 1) := by positivity
  have triangle := abs_sub_abs_le_abs_sub (F.nearest q) q
  linarith

theorem nearest_nonneg {q : ℚ} (nonneg : 0 ≤ q) : 0 ≤ F.nearest q := by
  have ulp : (0 : ℚ) < 2 ^ F.exponent q := by positivity
  have error := abs_le.1 (roundEven_error (q / 2 ^ F.exponent q))
  have scaled : 0 ≤ q / 2 ^ F.exponent q := div_nonneg nonneg ulp.le
  have above : (-1 : ℚ) < roundEven (q / 2 ^ F.exponent q) := by linarith
  have whole : (-1 : Int) < roundEven (q / 2 ^ F.exponent q) := by exact_mod_cast above
  have count : (0 : ℚ) ≤ roundEven (q / 2 ^ F.exponent q) := by
    exact_mod_cast Int.add_one_le_iff.2 whole
  exact mul_nonneg count ulp.le

theorem round_nonneg {q r : ℚ} (nonneg : 0 ≤ q) (rounded : F.round q = .finite r) : 0 ≤ r := by
  rw [round] at rounded
  split at rounded
  · rw [← Fp.finite.inj rounded]
    exact F.nearest_nonneg nonneg
  · cases rounded

/-- An operation whose other operand is a finite constant; the constants of this library
keep infinities. -/
def lift (f : ℚ → ℚ) : Fp → Fp
  | .finite q => F.round (f q)
  | .infinite negative => .infinite negative
  | .nan => .nan

/-- A quotient.  A zero divisor counts as positive. -/
def div : Fp → Fp → Fp
  | .finite a, .finite b =>
      if b = 0 then if a = 0 then .nan else .infinite (decide (a < 0)) else F.round (a / b)
  | .finite _, .infinite _ => .finite 0
  | .infinite negative, .finite b => .infinite (negative != decide (b < 0))
  | .infinite _, .infinite _ => .nan
  | .nan, _ | _, .nan => .nan

end Format

namespace Fp

def lt : Fp → Fp → Bool
  | .finite a, .finite b => a < b
  | .finite _, .infinite negative => !negative
  | .infinite negative, .finite _ => negative
  | .infinite negative, .infinite negative' => negative && !negative'
  | .nan, _ | _, .nan => false

def eq : Fp → Fp → Bool
  | .finite a, .finite b => a = b
  | .infinite negative, .infinite negative' => negative == negative'
  | _, _ => false

def le (x y : Fp) : Bool := x.lt y || x.eq y

end Fp

end Clumsy.Theory
