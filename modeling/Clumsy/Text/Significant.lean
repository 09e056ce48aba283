/-
# Text.Significant -- which numbers are printed as 1

`%.6g` keeps six digits, so that a number next to one is printed as one: half of the last
place below counts for numbers under it and half of the last place above for numbers over it,
ten times as much (`numberText_one`).  A tie goes to the even digit, which is the zero of
`1.00000` on either side.
-/
import Clumsy.Text.Print

namespace Clumsy.Text

open Clumsy.Theory

set_option autoImplicit false

/-- Numbers whose six digits are those of `1.00000`. -/
def NextToOne (q : ℚ) : Prop := 1 - 1 / 2 / 10 ^ 6 ≤ q ∧ q ≤ 1 + 1 / 2 / 10 ^ 5

section Positive

variable {q : ℚ} (positive : 0 < q)

include positive

/-- What is rounded to an integer has six digits in front of the point. -/
theorem scaled_range :
    (10 : ℚ) ^ 5 ≤ q / 10 ^ (Int.log 10 q - 5) ∧ q / 10 ^ (Int.log 10 q - 5) < 10 ^ 6 := by
  have low := Int.zpow_log_le_self (b := 10) (by decide) positive
  have high := Int.lt_zpow_succ_log_self (b := 10) (by decide) q
  push_cast at low high
  have scale : (0 : ℚ) < 10 ^ (Int.log 10 q - 5) := by positivity
  constructor
  · rw [le_div_iff₀ scale, ← zpow_natCast, ← zpow_add₀ (by norm_num)]
    simpa using low
  · rw [div_lt_iff₀ scale, ← zpow_natCast, ← zpow_add₀ (by norm_num)]
    convert high using 2
    push_cast
    ring

/-- The digits, before it is seen whether a seventh one came in. -/
theorem significant_digits :
    ∃ n : Nat, roundEven (q / 10 ^ (Int.log 10 q - 5)) = n ∧ 10 ^ 5 ≤ n ∧ n ≤ 10 ^ 6 ∧
      significant 6 q =
        if n < 10 ^ 6 then (Int.log 10 q, n) else (Int.log 10 q + 1, 10 ^ 5) := by
  obtain ⟨low, high⟩ := scaled_range positive
  have error := abs_le.1 (roundEven_error (q / 10 ^ (Int.log 10 q - 5)))
  have below : (10 ^ 5 - 1 : Int) < roundEven (q / 10 ^ (Int.log 10 q - 5)) := by
    have real : ((10 ^ 5 - 1 : Int) : ℚ) < roundEven (q / 10 ^ (Int.log 10 q - 5)) := by
      push_cast
      linarith
    exact_mod_cast real
  have above : roundEven (q / 10 ^ (Int.log 10 q - 5)) < (10 ^ 6 + 1 : Int) := by
    have real : (roundEven (q / 10 ^ (Int.log 10 q - 5)) : ℚ) < (10 ^ 6 + 1 : Int) := by
      push_cast
      linarith
    exact_mod_cast real
  refine ⟨(roundEven (q / 10 ^ (Int.log 10 q - 5))).natAbs, by omega, by omega, by omega, ?_⟩
  rw [significant]
  rfl

theorem log_zero (low : 1 ≤ q) (high : q < 10) : Int.log 10 q = 0 := by
  have below := (Int.zpow_le_iff_le_log (b := 10) (by decide) positive).1
    (by simpa using low : ((10 : ℕ) : ℚ) ^ (0 : Int) ≤ q)
  have above := (Int.lt_zpow_iff_log_lt (b := 10) (by decide) positive).1
    (by simpa using high : q < ((10 : ℕ) : ℚ) ^ (1 : Int))
  omega

theorem log_minusOne (low : 1 / 10 ≤ q) (high : q < 1) : Int.log 10 q = -1 := by
  have below := (Int.zpow_le_iff_le_log (b := 10) (by decide) positive).1
    (by simpa using low : ((10 : ℕ) : ℚ) ^ (-1 : Int) ≤ q)
  have above := (Int.lt_zpow_iff_log_lt (b := 10) (by decide) positive).1
    (by simpa using high : q < ((10 : ℕ) : ℚ) ^ (0 : Int))
  omega

/-- **Six digits of a number next to one** are a one and zeros. -/
theorem significant_one : significant 6 q = (0, 10 ^ 5) ↔ NextToOne q := by
  obtain ⟨n, rounded, -, high, digits⟩ := significant_digits positive
  rw [digits, NextToOne]
  constructor
  · intro printed
    split at printed
    · obtain ⟨log, rfl⟩ := Prod.mk.injEq .. ▸ printed
      have low := Int.zpow_log_le_self (b := 10) (by decide) positive
      have near := (roundEven_even (by decide)).1 rounded
      rw [log] at low near
      norm_num [abs_le] at low near ⊢
      constructor <;> linarith
    · next full =>
        obtain ⟨log, -⟩ := Prod.mk.injEq .. ▸ printed
        have isMinusOne : Int.log 10 q = -1 := by omega
        have top : n = 10 ^ 6 := by omega
        have below := Int.lt_zpow_succ_log_self (b := 10) (by decide) q
        rw [top] at rounded
        have near := (roundEven_even (by decide)).1 rounded
        rw [isMinusOne] at below near
        norm_num [abs_le] at below near ⊢
        constructor <;> linarith
  · rintro ⟨low, high⟩
    by_cases one : 1 ≤ q
    · have log := log_zero positive one (by linarith)
      have near : |q / 10 ^ (0 - 5 : Int) - ((10 ^ 5 : Int) : ℚ)| ≤ 1 / 2 := by
        norm_num [abs_le] at high ⊢
        constructor <;> linarith
      have isOne := (roundEven_even (by decide)).2 near
      rw [log, isOne] at rounded
      have digits : n = 10 ^ 5 := by exact_mod_cast rounded.symm
      rw [digits, log]
      rfl
    · have log := log_minusOne positive (by linarith) (by linarith)
      have near : |q / 10 ^ (-1 - 5 : Int) - ((10 ^ 6 : Int) : ℚ)| ≤ 1 / 2 := by
        norm_num [abs_le] at low ⊢
        constructor <;> linarith
      have isTen := (roundEven_even (by decide)).2 near
      rw [log, isTen] at rounded
      have digits : n = 10 ^ 6 := by exact_mod_cast rounded.symm
      rw [digits, log]
      rfl

end Positive

/-! ## The text -/

theorem digitsValue_power (k : Nat) : digitsValue ('1' :: List.replicate k '0') = 10 ^ k := by
  induction k with
  | zero => rfl
  | succ k ih =>
      rw [List.replicate_succ', ← List.cons_append, digitsValue_snoc, ih, pow_succ']
      rfl

/-- Only a power of ten has a one and zeros. -/
theorem toDigits_power {n : Nat} {zeros : List Char} (digits : Nat.toDigits 10 n = '1' :: zeros)
    (only : ∀ c ∈ zeros, c = '0') : n = 10 ^ zeros.length := by
  have value := digitsValue_toDigits n
  rw [digits, List.eq_replicate_iff.2 ⟨rfl, only⟩, digitsValue_power] at value
  simpa using value.symm

theorem fraction_nil {digits : List Char} (none : fraction digits = []) :
    ∀ c ∈ digits, c = '0' := by
  rw [fraction] at none
  split at none
  · next dropped =>
      intro c member
      simpa using List.rdropWhile_eq_nil_iff.1 dropped c member
  · cases none

/-- A `1` has one digit in front of the point and none behind it. -/
theorem digits_one {n k : Nat} (large : 1 < n)
    (printed : (Nat.toDigits 10 n).take (k + 1) ++ fraction ((Nat.toDigits 10 n).drop (k + 1)) =
      ['1']) : k = 0 ∧ ∃ j, n = 10 ^ j := by
  obtain ⟨c, t, digits⟩ := List.exists_cons_of_ne_nil (Nat.toDigits_ne_nil (n := n) (b := 10))
  rw [digits, List.take_succ_cons, List.drop_succ_cons, List.cons_append, List.cons.injEq,
    List.append_eq_nil_iff] at printed
  obtain ⟨rfl, taken, none⟩ := printed
  rcases List.take_eq_nil_iff.1 taken with first | last
  · rw [first, List.drop_zero] at none
    exact ⟨first, t.length, toDigits_power digits (fraction_nil none)⟩
  · rw [last] at digits
    have one := toDigits_power digits (by simp)
    simp only [List.length_nil, pow_zero] at one
    omega

theorem generalPositive_one {q : ℚ} (positive : 0 < q) :
    generalPositive 6 q = ['1'] ↔ significant 6 q = (0, 10 ^ 5) := by
  obtain ⟨m, -, low, high, digits⟩ := significant_digits positive
  constructor
  · intro printed
    obtain ⟨x, n, parts⟩ : ∃ x n, significant 6 q = (x, n) := ⟨_, _, rfl⟩
    have range : 10 ^ 5 ≤ n ∧ n < 10 ^ 6 := by
      rw [parts] at digits
      split at digits
      · next below =>
          cases digits
          exact ⟨low, below⟩
      · cases digits
        decide
    rw [generalPositive, parts] at printed
    simp only at printed
    split at printed
    · next plain =>
        split at printed
        · cases printed
        · obtain ⟨k, same⟩ : ∃ k, (x + 1).toNat = k + 1 := ⟨x.toNat, by omega⟩
          rw [same] at printed
          obtain ⟨rfl, j, power⟩ := digits_one (by omega) printed
          have digit : j = 5 := by
            rw [power] at range
            have low := (Nat.pow_le_pow_iff_right (by decide)).1 range.1
            have high := (Nat.pow_lt_pow_iff_right (by decide)).1 range.2
            omega
          rw [parts, power, digit, show x = 0 by omega]
    · have length := congrArg List.length printed
      simp only [List.length_append, List.length_cons, List.length_nil] at length
      omega
  · intro parts
    rw [generalPositive, parts]
    rfl

theorem decimal_one {n : Int} : decimal n = ['1'] ↔ n = 1 := by
  constructor
  · intro printed
    rw [decimal] at printed
    split at printed
    · cases printed
    · have one := toDigits_power printed (by simp)
      simp only [List.length_nil, pow_zero] at one
      omega
  · rintro rfl
    rfl

theorem floor_one {q : ℚ} (whole : q = ⌊q⌋) : ⌊q⌋ = 1 ↔ NextToOne q := by
  rw [NextToOne, whole, Int.floor_intCast]
  constructor
  · intro one
    rw [one]
    norm_num
  · rintro ⟨low, high⟩
    have above : (0 : ℚ) < ⌊q⌋ := by linarith
    have below : (⌊q⌋ : ℚ) < 2 := by linarith
    norm_cast at above below
    omega

theorem general_one {q : ℚ} : general 6 (.finite q) = ['1'] ↔ NextToOne q := by
  rw [general]
  split
  · next zero =>
      rw [zero]
      exact iff_of_false (by decide) (by norm_num [NextToOne])
  · next nonzero =>
      rcases lt_or_gt_of_ne nonzero with negative | positive
      · have far : ¬NextToOne q := fun next => by linarith [next.1]
        simp [withSign, negative, far]
      · rw [decide_eq_false (by linarith), abs_of_pos positive, ← significant_one positive]
        exact generalPositive_one positive

/-- **A number is printed as 1 just if it is next to one.** -/
theorem numberText_one {x : Fp} :
    numberText 6 x = ['1'] ↔ ∃ q, x = .finite q ∧ NextToOne q := by
  cases x with
  | infinite negative => cases negative <;> simp [numberText, general, withSign]
  | nan => simp [numberText, general]
  | finite q =>
      simp only [Fp.finite.injEq, exists_eq_left']
      rw [numberText]
      split
      · next whole =>
          rw [decimal_one]
          exact floor_one whole.2.2
      · exact general_one

end Clumsy.Text
