/-
# Pcap.ReplayWait -- how long a replay sleeps between two records

A thread sleeps in rounds of at most 100 ms and counts them off `waitMs`, a `double`.  As
long as that is no more than 2^60 every round makes it smaller (`rounds_fall`); above, the
100 ms are rounded away and the sleep never ends.  No file gets there at a speed of 2^-18 or
more (`prompt_of_le`).
-/
import Clumsy.Theory.Arithmetic
import Clumsy.Pcap.Records
import Clumsy.Pcap.ReplayThread

namespace Clumsy.Pcap.ReplayThread

open Clumsy.Theory
open Clumsy.Packet
open Clumsy.Pcap

set_option autoImplicit false

/-- A wait whose end is in sight.  Above `2 ^ 60` ms a round of the sleep is rounded away. -/
def Short (waitMs : Fp) : Prop := waitMs.le (.finite (2 ^ 60)) = true

instance (waitMs : Fp) : Decidable (Short waitMs) := inferInstanceAs (Decidable (_ = true))

theorem short_iff (waitMs : Fp) :
    Short waitMs ↔ (∃ w, waitMs = .finite w ∧ w ≤ 2 ^ 60) ∨ waitMs = .infinite true := by
  cases waitMs with
  | finite w => simp [Short, Fp.le, Fp.lt, Fp.eq, le_iff_lt_or_eq]
  | infinite negative => cases negative <;> simp [Short, Fp.le, Fp.lt, Fp.eq]
  | nan => simp [Short, Fp.le, Fp.lt, Fp.eq]

theorem nearest_short {w : ℚ} (short : w ≤ 2 ^ 60) : binary64.nearest w ≤ 2 ^ 60 := by
  have top : binary64.nearest (2 ^ 60) = 2 ^ 60 := by decide +kernel
  rw [← top]
  exact binary64.nearest_mono short

/-- A difference that is short is a number again. -/
theorem lift_sub {w c : ℚ} (low : -2 ^ 60 ≤ w - c) (high : w - c ≤ 2 ^ 60) :
    binary64.lift (· - c) (.finite w) = .finite (binary64.nearest (w - c)) := by
  have small : |w - c| ≤ 2 ^ (60 : Int) := by
    rw [abs_le]
    exact ⟨by exact_mod_cast low, by exact_mod_cast high⟩
  exact binary64.round_eq_finite small (by decide) (by decide)

theorem short_waitMs {pass : Pass} {tick : UInt32} {firstTs ts : Nat}
    (short : Short (targetMs pass.own.speed firstTs ts)) : Short (pass.waitMs tick firstTs ts) := by
  have zero : Short (.finite 0) := by decide +kernel
  simp only [Pass.waitMs]
  split_ifs with later
  swap
  · exact zero
  rcases (short_iff _).1 short with ⟨w, target, within⟩ | target
  · rw [target] at later ⊢
    have elapsed : (0 : ℚ) ≤ (tick - pass.wallStart).toNat := Nat.cast_nonneg _
    have behind : ((tick - pass.wallStart).toNat : ℚ) < w := of_decide_eq_true later
    rw [lift_sub (by linarith) (by linarith)]
    exact (short_iff _).2 (.inl ⟨_, rfl, nearest_short (by linarith)⟩)
  · rw [target] at later
    cases later

/-- The milliseconds a wait still takes, and so the rounds at most. -/
def rounds : Fp → Nat
  | .finite waitMs => ⌈waitMs⌉₊
  | _ => 0

/-- Of the 100 ms of a round no more than 64 are rounded away, half of the last place. -/
theorem hundred_counts {w : ℚ} (long : 100 < w) (within : w ≤ 2 ^ 60) :
    binary64.nearest (w - 100) ≤ w - 1 := by
  have below : |w - 100| < 2 ^ (60 : Int) := by
    rw [abs_of_pos (by linarith)]
    have : (2 : ℚ) ^ (60 : Int) = 2 ^ 60 := by norm_cast
    linarith
  have error : |binary64.nearest (w - 100) - (w - 100)| ≤ 64 := by
    refine (binary64.nearest_below below (by decide)).trans ?_
    have exponent : (60 : Int) - 1 - binary64.precision = 6 := by decide
    rw [exponent]
    norm_num
  have error := (abs_le.1 error).2
  linarith

/-- The last rounds take a whole millisecond or all there is; a whole number above the rest
stays above it. -/
theorem last_counts {w : ℚ} (positive : 0 < w) (last : w ≤ 100) :
    binary64.nearest (w - max 1 (⌊w⌋ : ℚ)) ≤ (⌈w⌉₊ - 1 : Nat) := by
  have some : 0 < ⌈w⌉₊ := Nat.ceil_pos.2 positive
  have few : (⌈w⌉₊ : ℚ) < w + 1 := Nat.ceil_lt_add_one positive.le
  have few : ⌈w⌉₊ < 102 := by exact_mod_cast few.trans_le (by linarith : w + 1 ≤ 102)
  have kept := binary64.nearest_whole (n := (⌈w⌉₊ - 1 : Nat)) (by decide) (by
    rw [Nat.abs_cast]
    show ((⌈w⌉₊ - 1 : Nat) : Int) < 2 ^ 53
    omega)
  rw [Int.cast_natCast] at kept
  rw [← kept]
  refine binary64.nearest_mono ?_
  rw [Nat.cast_sub some, Nat.cast_one]
  have one : 1 ≤ max 1 (⌊w⌋ : ℚ) := le_max_left _ _
  have ceil := Nat.le_ceil w
  linarith

/-- **A round of a short sleep brings its end nearer.** -/
theorem rounds_fall {waitMs : Fp} (sleeps : Fp.lt (.finite 0) waitMs = true)
    (short : Short waitMs) :
    rounds (binary64.lift (· - chunk waitMs) waitMs) < rounds waitMs ∧
      Short (binary64.lift (· - chunk waitMs) waitMs) := by
  rcases (short_iff _).1 short with ⟨w, rfl, within⟩ | rfl
  swap
  · cases sleeps
  have positive : 0 < w := of_decide_eq_true sleeps
  have some : 0 < ⌈w⌉₊ := Nat.ceil_pos.2 positive
  by_cases long : w > 100
  · have hundred : chunk (.finite w) = 100 := if_pos long
    rw [hundred, lift_sub (by linarith) (by linarith)]
    refine ⟨?_, (short_iff _).2 (.inl ⟨_, rfl, nearest_short (by linarith)⟩)⟩
    show ⌈binary64.nearest (w - 100)⌉₊ < ⌈w⌉₊
    calc ⌈binary64.nearest (w - 100)⌉₊ ≤ ⌈w - 1⌉₊ := Nat.ceil_mono (hundred_counts long within)
      _ = ⌈w⌉₊ - 1 := Nat.ceil_sub_one w
      _ < ⌈w⌉₊ := by omega
  · have last : chunk (.finite w) = max 1 (⌊w⌋ : ℚ) := if_neg long
    have one : 1 ≤ max 1 (⌊w⌋ : ℚ) := le_max_left _ _
    have most : max 1 (⌊w⌋ : ℚ) ≤ w + 1 :=
      max_le (by linarith) ((Int.floor_le w).trans (by linarith))
    rw [last, lift_sub (by linarith) (by linarith)]
    refine ⟨?_, (short_iff _).2 (.inl ⟨_, rfl, nearest_short (by linarith)⟩)⟩
    show ⌈binary64.nearest (w - max 1 (⌊w⌋ : ℚ))⌉₊ < ⌈w⌉₊
    have ceil := Nat.ceil_le.2 (last_counts positive (not_lt.1 long))
    omega

/-- No record is due more than `2 ^ 60` ms behind the first. -/
def Prompt (speed : Fp) (rs : List (RecordHeader × Bytes)) : Prop :=
  ∀ first ∈ rs.head?, ∀ r ∈ rs, Short (targetMs speed first.1.ts r.1.ts)

/-- The recorded time between two records, in milliseconds. -/
theorem recorded_ms (first rh : RecordHeader) :
    ∃ ms : ℚ, binary64.lift (· / 1000) (binary64.round (rh.ts - first.ts : Nat)) = .finite ms ∧
      0 ≤ ms ∧ ms ≤ 2 ^ 42 := by
  have top : rh.ts - first.ts ≤ 4294967296000000 + 4294967296 := by
    have sec := rh.tsSec.toNat_lt
    have usec := rh.tsUsec.toNat_lt
    unfold RecordHeader.ts
    omega
  have span : ((rh.ts - first.ts : Nat) : ℚ) ≤ 4294967296000000 + 4294967296 := by
    exact_mod_cast top
  have nonneg : (0 : ℚ) ≤ (rh.ts - first.ts : Nat) := Nat.cast_nonneg _
  have whole : binary64.round (rh.ts - first.ts : Nat) = .finite (rh.ts - first.ts : Nat) := by
    have kept := binary64.nearest_whole (n := (rh.ts - first.ts : Nat)) (by decide) (by
      rw [Nat.abs_cast]
      show ((rh.ts - first.ts : Nat) : Int) < 2 ^ 53
      omega)
    rw [Int.cast_natCast] at kept
    rw [(double_finite nonneg (n := 52) (span.trans (by norm_num)) (by decide)).1]
    exact congrArg Fp.finite kept
  obtain ⟨scaled, most⟩ := double_finite (n := 42)
    (div_nonneg nonneg (by norm_num : (0 : ℚ) ≤ 1000)) (by linarith) (by decide)
  rw [whole]
  exact ⟨_, scaled, double.round_nonneg (by positivity), most⟩

theorem div_short {ms s : ℚ} (nonneg : 0 ≤ ms) (most : ms ≤ 2 ^ 42) (fast : 1 / 2 ^ 18 ≤ s) :
    Short (binary64.div (.finite ms) (.finite s)) := by
  have positive : 0 < s := lt_of_lt_of_le (by positivity) fast
  have quotient : ms / s ≤ 2 ^ 60 := by
    rw [div_le_iff₀ positive]
    linarith
  have small : |ms / s| ≤ 2 ^ (60 : Int) := by
    rw [abs_of_nonneg (div_nonneg nonneg positive.le)]
    exact_mod_cast quotient
  have rounded : binary64.div (.finite ms) (.finite s) = .finite (binary64.nearest (ms / s)) := by
    rw [Format.div, if_neg positive.ne']
    exact binary64.round_eq_finite small (by decide) (by decide)
  rw [rounded]
  exact (short_iff _).2 (.inl ⟨_, rfl, nearest_short quotient⟩)

/-- From a speed of `2 ^ -18` on every record is. -/
theorem prompt_of_le {speed : Fp} (fast : Fp.le (.finite (1 / 2 ^ 18)) speed = true)
    (rs : List (RecordHeader × Bytes)) : Prompt speed rs := by
  intro first _ r _
  have zero : Short (.finite 0) := by decide +kernel
  obtain ⟨ms, recorded, nonneg, most⟩ := recorded_ms first.1 r.1
  unfold targetMs
  split_ifs with later
  swap
  · exact zero
  rw [recorded]
  cases speed with
  | nan => cases fast
  | infinite negative =>
      cases negative with
      | true => cases fast
      | false => exact zero
  | finite s =>
      refine div_short nonneg most ?_
      simpa [Fp.le, Fp.lt, Fp.eq, le_iff_lt_or_eq] using fast

theorem prompt_effective {speed : Fp} (fast : Fp.le (.finite (1 / 2 ^ 18)) speed = true)
    (rs : List (RecordHeader × Bytes)) : Prompt (effective speed) rs := by
  unfold effective
  split_ifs
  · exact prompt_of_le fast rs
  · exact prompt_of_le (by decide +kernel) rs

end Clumsy.Pcap.ReplayThread
