/-
# Theory.Clock -- a 32-bit millisecond tick and the two ways to compare with it

`t - e` is the time from `e` to `t` whenever less than 2^32 ms have passed.
Comparing `t` with the absolute instant `e + d` is another test: the two agree
exactly when the instant and the tick have both wrapped since `e` or neither has
(`add_lt_iff_iff`, `add_le_iff_iff`).
-/
import Mathlib

namespace Clumsy.Theory.Clock

set_option autoImplicit false

/-- The instant `e + d` lies behind the wrap of the tick. -/
def Wraps (e d : UInt32) : Prop := 2 ^ 32 ≤ e.toNat + d.toNat

instance (e d : UInt32) : Decidable (Wraps e d) := inferInstanceAs (Decidable (_ ≤ _))

section Compare

variable (e d t : UInt32)

/-- **Strictly later than an absolute instant, or longer ago than a delay.** -/
theorem add_lt_iff_iff : (e + d < t ↔ d < t - e) ↔ (Wraps e d ↔ t < e) := by
  have boundE := e.toNat_lt
  have boundD := d.toNat_lt
  have boundT := t.toNat_lt
  simp only [UInt32.lt_iff_toNat_lt, UInt32.toNat_sub, UInt32.toNat_add, Wraps]
  omega

/-- **Not before an absolute instant, or at least as long ago as a delay.** -/
theorem add_le_iff_iff : (e + d ≤ t ↔ d ≤ t - e) ↔ (Wraps e d ↔ t < e) := by
  have boundE := e.toNat_lt
  have boundD := d.toNat_lt
  have boundT := t.toNat_lt
  simp only [UInt32.lt_iff_toNat_lt, UInt32.le_iff_toNat_le, UInt32.toNat_sub, UInt32.toNat_add,
    Wraps]
  omega

end Compare

/-- Waiting times add up until the tick has gone all the way around. -/
theorem elapsed_add {e t t' : UInt32} (once : (t - e).toNat + (t' - t).toNat < 2 ^ 32) :
    (t' - e).toNat = (t - e).toNat + (t' - t).toNat := by
  have boundE := e.toNat_lt
  have boundT := t.toNat_lt
  have boundT' := t'.toNat_lt
  simp only [UInt32.toNat_sub] at once ⊢
  omega

/-- The delay of an instant is what was added to get there. -/
theorem add_sub_self (e d : UInt32) : e + d - e = d := by
  rw [UInt32.add_comm]
  exact UInt32.add_sub_cancel d e

@[simp] theorem toNat_sub_self (t : UInt32) : (t - t).toNat = 0 := by simp

/-- The tick at the `n`-th millisecond. -/
def tickAt (n : Nat) : UInt32 := UInt32.ofNat n

/-- A tick never sees more time pass than did. -/
theorem elapsed_le {n n' : Nat} (later : n ≤ n') : (tickAt n' - tickAt n).toNat ≤ n' - n := by
  simp only [tickAt, UInt32.toNat_sub, UInt32.toNat_ofNat']
  omega

/-- A delay that is a small non-negative number. -/
theorem toNat_ofInt {v : Int} (low : 0 ≤ v) (high : v < 2 ^ 32) :
    ((UInt32.ofInt v).toNat : Int) = v := by
  rw [UInt32.ofInt, UInt32.toNat_ofNat']
  omega

end Clumsy.Theory.Clock
