/-
# Control.Numbers -- drop.cpp and its siblings, controlapi.cpp: doubles become integers

A percentage becomes an `int` in hundredths and is clamped behind the conversion;
`apiPcapStart` converts its two limits to `long`.  Nothing looks at the double before.  So the
conversions are defined just between bounds that are far out, and beyond them what is stored
is not the clamped value (`conversions_defined_iff`).
-/
import Clumsy.Control.Switching
import Clumsy.Text.Complete
import Clumsy.Theory.Rounding

namespace Clumsy.Control

open Clumsy.Theory
open Clumsy.Theory.Json (Derives Exponent Number braces field magnitude)
open Clumsy.Modules
open Clumsy.Packet
open Clumsy.Text

set_option autoImplicit false

/-! ## Conversions -/

/-- Towards zero. -/
def truncate (q : ℚ) : Int := if q < 0 then ⌈q⌉ else ⌊q⌋

/-- Without its fraction the number is one of the signed type of so many bits; only then a
conversion to this type is defined. -/
def Fits (bits : Nat) (q : ℚ) : Prop :=
  -2 ^ (bits - 1) ≤ truncate q ∧ truncate q < 2 ^ (bits - 1)

theorem fits_iff {bits : Nat} {q : ℚ} :
    Fits bits q ↔ -2 ^ (bits - 1) - 1 < q ∧ q < 2 ^ (bits - 1) := by
  have power : (1 : ℚ) ≤ 2 ^ (bits - 1) := one_le_pow₀ (by norm_num)
  rw [Fits, truncate]
  split_ifs with negative
  · rw [Int.le_ceil_iff, Int.ceil_lt_iff]
    push_cast
    exact and_congr_right fun _ => iff_of_true (by linarith) (by linarith)
  · rw [Int.le_floor, Int.floor_lt]
    push_cast
    exact and_congr_left fun _ => iff_of_true (by linarith) (by linarith)

theorem fits_int {q : ℚ} : Fits 32 q ↔ -2 ^ 31 - 1 < q ∧ q < 2 ^ 31 := by
  have whole := @fits_iff 32 q
  rwa [show 32 - 1 = 31 from rfl] at whole

theorem toInt_of_fits {q : ℚ} (fits : Fits 32 q) : toInt (.finite q) = truncate q :=
  if_pos fits

/-! ## Percentages -/

/-- `atof(value) * 100.0 + 0.5`, what is converted. -/
def scaled (value : List Char) : Fp :=
  binary64.lift (· + 1 / 2) (binary64.lift (· * 100) (atof value))

theorem hundredths_scaled (value : List Char) : hundredths value = toInt (scaled value) := rfl

/-- The parameters that are percentages, with their modules and what they are kept in. -/
def percentages (β : Type) : List (ModuleId × List Char × (Statics β → Chance)) :=
  [(.drop, "drop-chance".toList, fun mods => mods.drop.chance),
    (.burstloss, "burstloss-good".toList, fun mods => mods.burstloss.chanceGood),
    (.burstloss, "burstloss-bad".toList, fun mods => mods.burstloss.chanceBad),
    (.burstloss, "burstloss-gb".toList, fun mods => mods.burstloss.chanceGB),
    (.burstloss, "burstloss-bg".toList, fun mods => mods.burstloss.chanceBG),
    (.throttle, "throttle-chance".toList, fun mods => mods.throttle.chance),
    (.dup, "duplicate-chance".toList, fun mods => mods.dup.chance),
    (.ood, "ood-chance".toList, fun mods => mods.ood.chance),
    (.tamper, "tamper-chance".toList, fun mods => mods.tamper.chance),
    (.corrupt, "corrupt-chance".toList, fun mods => mods.corrupt.corruptChance),
    (.reset, "reset-chance".toList, fun mods => mods.reset.chance)]

/-- Every one of them is set to this number of hundredths, clamped. -/
def StoresClamped (value : List Char) (n : Int) : Prop :=
  ∀ β : Type, ∀ param ∈ percentages β, ∀ (enabled : ModuleId → Bool) (mods : Statics β),
    ∃ mods', param.1.setParam enabled param.2.1 value mods = some mods' ∧
      (param.2.2 mods').val = clampLong n 0 10000

/-- The conversion is defined and its result is stored, clamped. -/
def PercentSafe (value : List Char) : Prop :=
  ∃ q, scaled value = .finite q ∧ Fits 32 q ∧ StoresClamped value (truncate q)

theorem stores_hundredths (value : List Char) : StoresClamped value (hundredths value) := by
  have set (v : Int) : (Chance.set v).val = clampLong v 0 10000 :=
    clampShort_eq_clampLong v (by decide) (by decide) (by decide)
  intro β param member enabled mods
  simp only [percentages, List.mem_cons, List.not_mem_nil, or_false] at member
  rcases member with rfl | rfl | rfl | rfl | rfl | rfl | rfl | rfl | rfl | rfl | rfl <;>
    exact ⟨_, rfl, set _⟩

theorem percentSafe_iff {value : List Char} :
    PercentSafe value ↔ ∃ q, scaled value = .finite q ∧ Fits 32 q := by
  constructor
  · rintro ⟨q, handed, fits, -⟩
    exact ⟨q, handed, fits⟩
  · rintro ⟨q, handed, fits⟩
    have stored := stores_hundredths value
    rw [hundredths_scaled, handed, toInt_of_fits fits] at stored
    exact ⟨q, handed, fits, stored⟩

/-! ## Where the double stays in range -/

def lowestPercent : ℚ := -11529215054121533 / 2 ^ 29

def highestPercent : ℚ := 11529215043384115 / 2 ^ 29

/-- The three roundings. -/
def chain (q : ℚ) : ℚ :=
  binary64.nearest (binary64.nearest (binary64.nearest q * 100) + 1 / 2)

theorem chain_lt_iff (q : ℚ) : chain q < 2 ^ 31 ↔ q < highestPercent := by
  have sum : chain q < 2 ^ 31 ↔ binary64.nearest (binary64.nearest q * 100) + 1 / 2 <
      ((2 ^ 53 - 1 : Int) + 1 / 2) * 2 ^ (-22 : Int) :=
    Format.nearest_lt_iff ⟨by decide, by decide, by decide⟩ (by norm_num) (by norm_num)
      (by decide)
  have product : binary64.nearest (binary64.nearest q * 100) <
      ((2 ^ 53 - 1 : Int) + 1 / 2) * 2 ^ (-22 : Int) - 1 / 2 ↔
        binary64.nearest q * 100 < ((2 ^ 53 - 2 ^ 21 - 1 : Int) + 1 / 2) * 2 ^ (-22 : Int) :=
    Format.nearest_lt_iff ⟨by decide, by decide, by decide⟩ (by norm_num) (by norm_num)
      (by decide)
  have value : binary64.nearest q <
      ((2 ^ 53 - 2 ^ 21 - 1 : Int) + 1 / 2) * 2 ^ (-22 : Int) / 100 ↔
        q < ((5764607521692057 : Int) + 1 / 2) * 2 ^ (-28 : Int) :=
    Format.nearest_lt_iff ⟨by decide, by decide, by decide⟩ (by norm_num) (by norm_num)
      (by decide)
  have bound : ((5764607521692057 : Int) + 1 / 2 : ℚ) * 2 ^ (-28 : Int) = highestPercent := by
    norm_num [highestPercent]
  rw [sum, ← lt_sub_iff_add_lt, product, ← lt_div_iff₀ (by norm_num), value, bound]

theorem lt_chain_iff (q : ℚ) : -2 ^ 31 - 1 < chain q ↔ lowestPercent ≤ q := by
  have mirrored : -chain q =
      binary64.nearest (binary64.nearest (binary64.nearest (-q) * 100) - 1 / 2) := by
    have inner : binary64.nearest (binary64.nearest (-q) * 100) - 1 / 2 =
        -(binary64.nearest (binary64.nearest q * 100) + 1 / 2) := by
      rw [Format.nearest_neg, neg_mul, Format.nearest_neg]
      ring
    rw [inner, Format.nearest_neg, chain]
  have sum : binary64.nearest (binary64.nearest (binary64.nearest (-q) * 100) - 1 / 2) <
      2 ^ 31 + 1 ↔ binary64.nearest (binary64.nearest (-q) * 100) - 1 / 2 <
        ((2 ^ 52 + 2 ^ 21 - 1 : Int) + 1 / 2) * 2 ^ (-21 : Int) :=
    Format.nearest_lt_iff ⟨by decide, by decide, by decide⟩ (by norm_num) (by norm_num)
      (by decide)
  have product : binary64.nearest (binary64.nearest (-q) * 100) <
      ((2 ^ 52 + 2 ^ 21 - 1 : Int) + 1 / 2) * 2 ^ (-21 : Int) + 1 / 2 ↔
        binary64.nearest (-q) * 100 < ((2 ^ 52 + 3 * 2 ^ 20 - 1 : Int) + 1 / 2) * 2 ^ (-21 : Int) :=
    Format.nearest_lt_iff ⟨by decide, by decide, by decide⟩ (by norm_num) (by norm_num)
      (by decide)
  have value : binary64.nearest (-q) <
      ((2 ^ 52 + 3 * 2 ^ 20 - 1 : Int) + 1 / 2) * 2 ^ (-21 : Int) / 100 ↔
        -q ≤ ((5764607527060766 : Int) + 1 / 2) * 2 ^ (-28 : Int) :=
    Format.nearest_lt_iff_even ⟨by decide, by decide, by decide⟩ (by norm_num) (by norm_num)
      (by decide)
  have bound : ((5764607527060766 : Int) + 1 / 2 : ℚ) * 2 ^ (-28 : Int) = -lowestPercent := by
    norm_num [lowestPercent]
  rw [show (-2 ^ 31 - 1 : ℚ) = -(2 ^ 31 + 1) by ring, neg_lt, mirrored, sum, sub_lt_iff_lt_add,
    product, ← lt_div_iff₀ (by norm_num), value, bound, neg_le_neg_iff]

theorem round_finite {F : Format} {q r : ℚ} (rounded : F.round q = .finite r) :
    r = F.nearest q := by
  rw [Format.round] at rounded
  split_ifs at rounded
  exact (Fp.finite.inj rounded).symm

/-- A finite number comes from a finite number. -/
theorem lift_finite {F : Format} {f : ℚ → ℚ} {x : Fp} {r : ℚ} (lifted : F.lift f x = .finite r) :
    ∃ q, x = .finite q ∧ r = F.nearest (f q) := by
  cases x with
  | finite q => exact ⟨q, rfl, round_finite lifted⟩
  | infinite negative => cases lifted
  | nan => cases lifted

theorem round_small {q : ℚ} (small : |q| ≤ 2 ^ (40 : Int)) :
    binary64.round q = .finite (binary64.nearest q) ∧ |binary64.nearest q| ≤ |q| + 1 := by
  obtain ⟨r, rounded, near⟩ := binary64.round_near small (by decide) (by decide)
  have same := round_finite rounded
  have fine : (2 : ℚ) ^ ((40 : Int) - binary64.precision) ≤ 1 := by norm_num [binary64]
  rw [same] at rounded near
  refine ⟨rounded, ?_⟩
  have triangle := abs_sub_abs_le_abs_sub (binary64.nearest q) q
  linarith

/-- The conversion of a number is defined between the bounds. -/
theorem scaled_fits_iff {value : List Char} {q : ℚ} (reads : atof value = binary64.round q) :
    (∃ r, scaled value = .finite r ∧ Fits 32 r) ↔ lowestPercent ≤ q ∧ q < highestPercent := by
  rw [← lt_chain_iff, ← chain_lt_iff]
  constructor
  · rintro ⟨r, handed, fits⟩
    obtain ⟨b, second, rfl⟩ := lift_finite handed
    obtain ⟨a, first, rfl⟩ := lift_finite second
    rw [reads] at first
    rw [round_finite first] at fits
    exact fits_int.1 fits
  · intro inside
    have low := (lt_chain_iff q).1 inside.1
    have high := (chain_lt_iff q).1 inside.2
    have wide : |q| ≤ 2 ^ 25 := by
      rw [lowestPercent] at low
      rw [highestPercent] at high
      rw [abs_le]
      constructor <;> norm_num at low high ⊢ <;> linarith
    have first := round_small (q := q) (wide.trans (by norm_num))
    have product : |binary64.nearest q * 100| ≤ 2 ^ 33 := by
      rw [abs_mul, abs_of_pos (by norm_num : (0 : ℚ) < 100)]
      linarith [first.2]
    have second := round_small (product.trans (by norm_num))
    have sum : |binary64.nearest (binary64.nearest q * 100) + 1 / 2| ≤ 2 ^ 34 := by
      have triangle := abs_add_le (binary64.nearest (binary64.nearest q * 100)) (1 / 2)
      rw [abs_of_pos (by norm_num : (0 : ℚ) < 1 / 2)] at triangle
      linarith [second.2]
    have third := round_small (sum.trans (by norm_num))
    refine ⟨chain q, ?_, fits_int.2 inside⟩
    rw [scaled, reads, first.1]
    show binary64.lift _ (binary64.round (binary64.nearest q * 100)) = _
    rw [second.1]
    exact third.1

/-! ## Decimal numbers -/

/-- The parts of a decimal number: digits, a fraction and an exponent. -/
structure Parts (w f e : List Char) : Prop where
  some_      : w ≠ []
  digits     : ∀ d ∈ w, d.isDigit = true
  fractional : Fractional f
  exponent   : Exponent e

/-- A decimal number and its value. -/
inductive Decimal : List Char → ℚ → Prop
  | unsigned {w f e : List Char} : Parts w f e → Decimal (w ++ f ++ e) (magnitude w f e)
  | plus {w f e : List Char} : Parts w f e → Decimal ('+' :: (w ++ f ++ e)) (magnitude w f e)
  | minus {w f e : List Char} : Parts w f e → Decimal ('-' :: (w ++ f ++ e)) (-magnitude w f e)

theorem scanNumber_decimal {w f e : List Char} (parts : Parts w f e) :
    scanNumber (w ++ f ++ e) = some (binary64.round (magnitude w f e), []) := by
  have alone := scanNumber_parts parts.some_ parts.digits parts.fractional parts.exponent
    (follows_nil.fractional parts.some_ parts.digits parts.fractional parts.exponent)
  rwa [List.append_nil, decimalValue_magnitude parts.exponent] at alone

/-- A decimal number is read as the nearest double. -/
theorem atof_decimal {text : List Char} {q : ℚ} (decimal : Decimal text q) :
    atof text = binary64.round q := by
  cases decimal with
  | @unsigned w f e parts =>
      have scanned := scanNumber_decimal parts
      obtain ⟨c, s, same⟩ := List.exists_cons_of_ne_nil parts.some_
      rw [same] at scanned ⊢
      simp only [List.cons_append] at scanned ⊢
      rw [atof, strtod_digit (parts.digits c (same ▸ List.mem_cons_self)), scanned]
      rfl
  | @plus w f e parts =>
      rw [atof, strtod, List.dropWhile_cons_of_neg (by decide), sign]
      simp only [scanNumber_decimal parts]
      rfl
  | @minus w f e parts =>
      rw [atof, strtod_minus, scanNumber_decimal parts, round_neg]
      rfl

theorem decimal_number {text : List Char} (number : Number text) : ∃ q, Decimal text q := by
  cases number with
  | parts isMinus whole fraction exponent =>
      have parts : Parts _ _ _ := ⟨(whole_digits whole).1, (whole_digits whole).2,
        fraction_fractional fraction, exponent⟩
      rcases isMinus with rfl | rfl
      · exact ⟨_, .unsigned parts⟩
      · exact ⟨_, .minus parts⟩

theorem percentSafe_decimal {text : List Char} {q : ℚ} (decimal : Decimal text q) :
    PercentSafe text ↔ lowestPercent ≤ q ∧ q < highestPercent := by
  rw [percentSafe_iff, scaled_fits_iff (atof_decimal decimal)]

/-- A JSON number is handed over as it is printed. -/
theorem percentSafe_number (q : ℚ) :
    PercentSafe (held (.number q)).asString ↔
      ∃ r, Decimal (held (.number q)).asString r ∧ lowestPercent ≤ r ∧ r < highestPercent := by
  constructor
  · intro safe
    cases rounded : binary64.round q with
    | finite x =>
        obtain ⟨r, decimal⟩ := decimal_number (number_numberText 6 x)
        rw [held, JsonValue.asString, rounded] at safe ⊢
        exact ⟨r, decimal, (percentSafe_decimal decimal).1 safe⟩
    | infinite negative =>
        obtain ⟨x, handed, -⟩ := safe
        have kept : scaled (numberText 6 (.infinite negative)) = .infinite negative := by
          cases negative <;> decide +kernel
        rw [held, JsonValue.asString, rounded, kept] at handed
        cases handed
    | nan =>
        rw [Format.round] at rounded
        split_ifs at rounded
  · rintro ⟨r, decimal, inside⟩
    exact (percentSafe_decimal decimal).2 inside

/-! ## Limits -/

/-- The conversion of the number to `long` is defined. -/
def LongSafe (bits : Nat) (x : Fp) : Prop := ∃ q, x = .finite q ∧ Fits bits q

theorem longSafe_round {bits : Nat} (short : bits ≤ 64) (q : ℚ) :
    LongSafe bits (binary64.round q) ↔
      -2 ^ (bits - 1) - 1 < binary64.nearest q ∧ binary64.nearest q < 2 ^ (bits - 1) := by
  constructor
  · rintro ⟨r, rounded, fits⟩
    rw [round_finite rounded] at fits
    exact fits_iff.1 fits
  · rintro ⟨low, high⟩
    have power : (2 : ℚ) ^ (bits - 1) ≤ 2 ^ 64 := pow_le_pow_right₀ (by norm_num) (by omega)
    have small : |binary64.nearest q| < 2 ^ binary64.maxExp := by
      have wide : |binary64.nearest q| ≤ 2 ^ 65 := by
        rw [abs_le]
        constructor <;> norm_num at power ⊢ <;> linarith
      exact wide.trans_lt (by
        have same : (2 : ℚ) ^ binary64.maxExp = 2 ^ (1024 : Nat) := rfl
        rw [same]
        exact pow_lt_pow_right₀ (by norm_num) (by decide))
    exact ⟨_, if_pos small, fits_iff.2 ⟨low, high⟩⟩

/-- A `long` of 32 bits. -/
theorem longSafe_short (q : ℚ) :
    LongSafe 32 (binary64.round q) ↔ -2 ^ 31 - 1 + 1 / 2 ^ 22 < q ∧ q < 2 ^ 31 - 1 / 2 ^ 23 := by
  have high : binary64.nearest q < 2 ^ 31 ↔ q < ((2 ^ 53 - 1 : Int) + 1 / 2) * 2 ^ (-22 : Int) :=
    Format.nearest_lt_iff ⟨by decide, by decide, by decide⟩ (by norm_num) (by norm_num)
      (by decide)
  have low : binary64.nearest (-q) < 2 ^ 31 + 1 ↔
      -q < ((2 ^ 52 + 2 ^ 21 - 1 : Int) + 1 / 2) * 2 ^ (-21 : Int) :=
    Format.nearest_lt_iff ⟨by decide, by decide, by decide⟩ (by norm_num) (by norm_num)
      (by decide)
  have top : ((2 ^ 53 - 1 : Int) + 1 / 2 : ℚ) * 2 ^ (-22 : Int) = 2 ^ 31 - 1 / 2 ^ 23 := by
    norm_num
  have bottom : ((2 ^ 52 + 2 ^ 21 - 1 : Int) + 1 / 2 : ℚ) * 2 ^ (-21 : Int) =
      -(-2 ^ 31 - 1 + 1 / 2 ^ 22) := by
    norm_num
  rw [longSafe_round (by decide), show 32 - 1 = 31 from rfl,
    show (-2 ^ 31 - 1 : ℚ) = -(2 ^ 31 + 1) by ring, neg_lt, ← Format.nearest_neg, low, high, top,
    bottom, neg_lt_neg_iff, show (-2 ^ 31 - 1 : ℚ) = -(2 ^ 31 + 1) by ring]

/-- A `long` of 64 bits. -/
theorem longSafe_long (q : ℚ) :
    LongSafe 64 (binary64.round q) ↔ -2 ^ 63 - 2 ^ 10 ≤ q ∧ q < 2 ^ 63 - 2 ^ 9 := by
  have high : binary64.nearest q < 2 ^ 63 ↔ q < ((2 ^ 53 - 1 : Int) + 1 / 2) * 2 ^ (10 : Int) :=
    Format.nearest_lt_iff ⟨by decide, by decide, by decide⟩ (by norm_num) (by norm_num)
      (by decide)
  have low : binary64.nearest (-q) < 2 ^ 63 + 1 ↔ -q ≤ ((2 ^ 52 : Int) + 1 / 2) * 2 ^ (11 : Int) :=
    Format.nearest_lt_iff_even ⟨by decide, by decide, by decide⟩ (by norm_num) (by norm_num)
      (by decide)
  have top : ((2 ^ 53 - 1 : Int) + 1 / 2 : ℚ) * 2 ^ (10 : Int) = 2 ^ 63 - 2 ^ 9 := by
    norm_num
  have bottom : ((2 ^ 52 : Int) + 1 / 2 : ℚ) * 2 ^ (11 : Int) = -(-2 ^ 63 - 2 ^ 10) := by
    norm_num
  rw [longSafe_round (by decide), show 64 - 1 = 63 from rfl,
    show (-2 ^ 63 - 1 : ℚ) = -(2 ^ 63 + 1) by ring, neg_lt, ← Format.nearest_neg, low, high, top,
    bottom, neg_le_neg_iff]

/-! ## Where the conversions are defined -/

/-- **Conversions are defined between bounds.**  A percentage that is sent as a text is stored
clamped just if its value lies between two numbers near 21 million, and one that is sent as a
number just if its text does.  The limits of a capture are converted just if they lie between
the ends of `long`, as far as the nearest double does. -/
theorem conversions_defined_iff (q : ℚ) :
    (∀ text, Decimal text q → (PercentSafe text ↔ lowestPercent ≤ q ∧ q < highestPercent)) ∧
    (PercentSafe (held (.number q)).asString ↔
      ∃ r, Decimal (held (.number q)).asString r ∧ lowestPercent ≤ r ∧ r < highestPercent) ∧
    ∀ body req, optionalBody body = some req → ∀ key ∈ ["maxPackets", "maxBytes"],
      req.find key.toList = some (held (.number q)) →
        (LongSafe 32 (numberOr req key 0) ↔
          -2 ^ 31 - 1 + 1 / 2 ^ 22 < q ∧ q < 2 ^ 31 - 1 / 2 ^ 23) ∧
        (LongSafe 64 (numberOr req key 0) ↔ -2 ^ 63 - 2 ^ 10 ≤ q ∧ q < 2 ^ 63 - 2 ^ 9) := by
  refine ⟨fun text => percentSafe_decimal, percentSafe_number q, ?_⟩
  intro body req _ key _ found
  have value : numberOr req key 0 = binary64.round q := by
    rw [numberOr, found]
    rfl
  rw [value]
  exact ⟨longSafe_short q, longSafe_long q⟩

/-- A body with a limit. -/
theorem optionalBody_limit {text : List Char} (number : Number text) :
    optionalBody (braces (field "maxPackets".toList text)) =
      some (.object [("maxPackets".toList, .number (atof text))]) := by
  have derives : Derives (.value (.number text)) text := .number number
  have parsed := jsonParse_member (by decide : isPlainText "maxPackets".toList = true) derives
    (by rw [height]; decide)
  rw [optionalBody, if_neg (by simp [braces]), parsed]
  rfl

/-- Both kinds, with numbers in range. -/
theorem conversions_defined_in_range :
    PercentSafe "12.5".toList ∧
      ∃ req, optionalBody (braces (field "maxPackets".toList ['1', '0', '0'])) = some req ∧
        LongSafe 32 (numberOr req "maxPackets" 0) ∧ LongSafe 64 (numberOr req "maxPackets" 0) := by
  have decimal : Decimal "12.5".toList (magnitude ['1', '2'] ['.', '5'] []) :=
    @Decimal.unsigned ['1', '2'] ['.', '5'] []
      ⟨by simp, by simp, .inr ⟨['5'], rfl, by simp⟩, .none⟩
  have number : Number ['1', '0', '0'] :=
    @Number.parts [] ['1', '0', '0'] [] [] (.inl rfl) (.digits rfl (by simp) (by simp)) .none .none
  have hundred : atof ['1', '0', '0'] = binary64.round 100 := by decide +kernel
  have parsed := optionalBody_limit number
  rw [hundred] at parsed
  obtain ⟨short, long⟩ := (conversions_defined_iff 100).2.2 _ _ parsed "maxPackets" (by decide) rfl
  exact ⟨((conversions_defined_iff _).1 _ decimal).2 ⟨by decide +kernel, by decide +kernel⟩, _,
    parsed, short.2 (by norm_num), long.2 (by norm_num)⟩

/-- Thirty million percent becomes none at all, and no `long` is as large as the limit. -/
theorem conversions_undefined :
    ¬PercentSafe "30000000".toList ∧ hundredths "30000000".toList = -2 ^ 31 ∧
      ∃ req, optionalBody (braces (field "maxPackets".toList ['1', 'e', '1', '9'])) = some req ∧
        ¬LongSafe 64 (numberOr req "maxPackets" 0) := by
  have handed : scaled "30000000".toList = .finite (3000000000 + 1 / 2) := by decide +kernel
  have number : Number ['1', 'e', '1', '9'] :=
    @Number.parts [] ['1'] [] ['e', '1', '9'] (.inl rfl) (.digits rfl (by simp) (by simp)) .none
      (@Exponent.some 'e' [] ['1', '9'] (.inl rfl) (.inl rfl) ⟨by simp, by simp⟩)
  have large : atof ['1', 'e', '1', '9'] = .finite (10 ^ 19) := by decide +kernel
  have parsed := optionalBody_limit number
  rw [large] at parsed
  refine ⟨?_, by decide +kernel, _, parsed, ?_⟩
  · rintro ⟨q, same, fits, -⟩
    rw [handed] at same
    cases same
    have small := (fits_int.1 fits).2
    norm_num at small
  · rintro ⟨q, same, fits⟩
    have value : numberOr (.object [("maxPackets".toList, .number (.finite (10 ^ 19)))])
        "maxPackets" 0 = .finite (10 ^ 19) := rfl
    rw [value] at same
    cases same
    have small := (fits_iff.1 fits).2
    norm_num at small

end Clumsy.Control
