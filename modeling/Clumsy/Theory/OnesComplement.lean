/-
# Theory.OnesComplement -- sums with end-around carry

Adding modulo `b - 1` by carrying what overflows a base-`b` word back into it.  Zero has
two words, `0` and `b - 1`, and a sum comes to the second unless all its terms are zero:
`fold b n` is the word that carrying leaves of `n`.  A word that is added to its complement
gives all ones (`fold_complement`), which is how such a sum verifies.

`wordSum` cuts a list of bytes into big-endian 16-bit words and adds them up; an odd last
byte is the high half of a word.
-/
import Mathlib

namespace Clumsy.Theory

set_option autoImplicit false

/-! ## Carrying around -/

/-- The word that carrying around leaves of `n`. -/
def fold (b n : Nat) : Nat := if n = 0 then 0 else (n - 1) % (b - 1) + 1

section Fold

variable {b : Nat}

theorem fold_lt (wide : 1 < b) (n : Nat) : fold b n < b := by
  unfold fold
  split
  · omega
  · have below := Nat.mod_lt (n - 1) (show 0 < b - 1 by omega)
    omega

theorem fold_of_lt {n : Nat} (small : n < b) : fold b n = n := by
  unfold fold
  split
  · omega
  · rw [Nat.mod_eq_of_lt (by omega)]
    omega

@[simp] theorem fold_eq_zero_iff {n : Nat} : fold b n = 0 ↔ n = 0 := by
  unfold fold
  split <;> omega

theorem fold_modEq (n : Nat) : fold b n ≡ n [MOD b - 1] := by
  unfold fold
  split
  · rename_i zero
    rw [zero]
  · calc (n - 1) % (b - 1) + 1 ≡ n - 1 + 1 [MOD b - 1] := (Nat.mod_modEq _ _).add_right 1
      _ = n := by omega

/-- Words of one class, both zero or neither, are the same. -/
theorem fold_congr {m n : Nat} (same : m ≡ n [MOD b - 1]) (zero : m = 0 ↔ n = 0) :
    fold b m = fold b n := by
  by_cases h : m = 0
  · rw [h, zero.1 h]
  · have h' : n ≠ 0 := fun nil => h (zero.2 nil)
    have before : m - 1 ≡ n - 1 [MOD b - 1] := by
      apply Nat.ModEq.add_right_cancel' 1
      rwa [Nat.sub_add_cancel (by omega), Nat.sub_add_cancel (by omega)]
    rw [fold, fold, if_neg h, if_neg h']
    exact congrArg (· + 1) before

/-- **One round of carrying** leaves the same word. -/
theorem fold_carry (wide : 1 < b) (n : Nat) : fold b (n % b + n / b) = fold b n := by
  have split := Nat.mod_add_div n b
  apply fold_congr
  · have unit : b ≡ 1 [MOD b - 1] :=
      ((Nat.modEq_iff_dvd' (by omega)).2 (dvd_refl (b - 1))).symm
    calc n % b + n / b = n % b + 1 * (n / b) := by rw [Nat.one_mul]
      _ ≡ n % b + b * (n / b) [MOD b - 1] := (unit.symm.mul_right _).add_left _
      _ = n := split
  · constructor
    · intro none
      obtain ⟨low, high⟩ := Nat.add_eq_zero_iff.1 none
      rw [← split, low, high, Nat.mul_zero]
    · rintro rfl
      simp

/-- All ones is what the positive multiples of `b - 1` leave. -/
theorem fold_eq_ones_iff (wide : 1 < b) {n : Nat} :
    fold b n = b - 1 ↔ 0 < n ∧ b - 1 ∣ n := by
  constructor
  · intro ones
    have positive : n ≠ 0 := fun zero => by
      rw [fold_eq_zero_iff.2 zero] at ones
      omega
    have class_ := fold_modEq (b := b) n
    rw [ones] at class_
    exact ⟨Nat.pos_of_ne_zero positive, (Nat.modEq_zero_iff_dvd.1
      (class_.symm.trans (Nat.modEq_zero_iff_dvd.2 (dvd_refl _))))⟩
  · rintro ⟨positive, multiple⟩
    have same : n ≡ b - 1 [MOD b - 1] :=
      (Nat.modEq_zero_iff_dvd.2 multiple).trans (Nat.modEq_zero_iff_dvd.2 (dvd_refl _)).symm
    rw [fold_congr same (by omega), fold_of_lt (by omega)]

/-- A sum and the complement of its word give all ones. -/
theorem fold_complement (wide : 1 < b) (n : Nat) :
    0 < n + (b - 1 - fold b n) ∧ b - 1 ∣ n + (b - 1 - fold b n) := by
  have below := fold_lt wide n
  constructor
  · by_cases zero : n = 0
    · rw [fold_eq_zero_iff.2 zero]
      omega
    · omega
  · apply Nat.modEq_zero_iff_dvd.1
    calc n + (b - 1 - fold b n) ≡ fold b n + (b - 1 - fold b n) [MOD b - 1] :=
          (fold_modEq n).symm.add_right _
      _ = b - 1 := by omega
      _ ≡ 0 [MOD b - 1] := Nat.modEq_zero_iff_dvd.2 (dvd_refl _)

end Fold

/-! ## Words of bytes -/

/-- The sum of the 16-bit words. -/
def wordSum : List UInt8 → Nat
  | [] => 0
  | [high] => high.toNat * 256
  | high :: low :: bytes => high.toNat * 256 + low.toNat + wordSum bytes

@[simp] theorem wordSum_nil : wordSum [] = 0 := rfl

theorem wordSum_pair (high low : UInt8) (bytes : List UInt8) :
    wordSum (high :: low :: bytes) = high.toNat * 256 + low.toNat + wordSum bytes := rfl

/-- A block of whole words may be summed apart. -/
theorem wordSum_append (xs ys : List UInt8) (whole : xs.length % 2 = 0) :
    wordSum (xs ++ ys) = wordSum xs + wordSum ys := by
  induction xs using wordSum.induct with
  | case1 => simp
  | case2 high => simp at whole
  | case3 high low xs ih =>
      have rest := ih (by simp only [List.length_cons] at whole; omega)
      simp only [List.cons_append, wordSum_pair, rest]
      omega

theorem wordSum_le (xs : List UInt8) : wordSum xs ≤ 65535 * ((xs.length + 1) / 2) := by
  induction xs using wordSum.induct with
  | case1 => simp
  | case2 high =>
      have bound := high.toNat_lt
      simp only [wordSum, List.length_singleton]
      omega
  | case3 high low xs ih =>
      have bound := high.toNat_lt
      have bound' := low.toNat_lt
      simp only [wordSum_pair, List.length_cons]
      omega

/-- The one's complement sum of the 16-bit words. -/
def onesSum (bytes : List UInt8) : Nat := fold 65536 (wordSum bytes)

theorem onesSum_eq_ones_iff (bytes : List UInt8) :
    onesSum bytes = 65535 ↔ 0 < wordSum bytes ∧ 65535 ∣ wordSum bytes :=
  fold_eq_ones_iff (by decide)

end Clumsy.Theory
