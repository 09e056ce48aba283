/-
# Modules.Params -- parameters as text

Every module reads its parameters by key (`setParam`) and writes them down (`getParams`).
Integers, switches and names are read back as they were.  A chance is kept in hundredths of
a percent and written with one decimal, so only whole tenths are (`feed_getParams_iff`).
-/
import Clumsy.Modules.Table
import Clumsy.Filter.Parser
import Clumsy.Text.Numeral

namespace Clumsy.Modules

open Clumsy.Theory
open Clumsy.Packet
open Clumsy.Text
open Clumsy.Filter (stricmp)

set_option autoImplicit false

/-- `shortName`, the `NAME` of a module's file. -/
def ModuleId.shortName : ModuleId → List Char
  | .lag => "lag".toList
  | .jitter => "jitter".toList
  | .drop => "drop".toList
  | .burstloss => "burstloss".toList
  | .blackout => "blackout".toList
  | .throttle => "throttle".toList
  | .dup => "duplicate".toList
  | .ood => "ood".toList
  | .tamper => "tamper".toList
  | .corrupt => "corrupt".toList
  | .reset => "reset".toList
  | .bandwidth => "bandwidth".toList

/-! ## Values -/

def parseBoolValue (value : List Char) : Bool :=
  value == "true".toList || value == "1".toList || stricmp value "on" || stricmp value "yes"

def boolText (on : Bool) : List Char := if on then "true".toList else "false".toList

/-- `(int)(atof(value) * 100.0 + 0.5)`. -/
def hundredths (value : List Char) : Int :=
  toInt (binary64.lift (· + 1 / 2) (binary64.lift (· * 100) (atof value)))

/-- A chance over 100 with one decimal; the quotient is a `float` but in one module. -/
def chanceText (F : Format) (chance : Chance) : List Char := fixed1 (F.round (chance.val / 100))

/-- The names of a distribution, or its index. -/
def readDist (value : List Char) : Dist :=
  if stricmp value "normal" then .normal
  else if stricmp value "pareto" then .pareto
  else if stricmp value "uniform" then .uniform
  else if atoi value = 1 then .normal
  else if atoi value = 2 then .pareto
  else .uniform

def jitterDistName : Dist → List Char
  | .normal => "normal".toList
  | .pareto => "pareto".toList
  | .uniform => "uniform".toList

/-! ## Keys -/

/-- A key and its value, the two texts of a `ParamKV`. -/
abbrev ParamKV := List Char × List Char

/-- The `strcmp` chain of a `setParam`: its keys, and what each makes of a value. -/
abbrev Chain (α : Type) := List (List Char × (List Char → α))

def Chain.read {α : Type} (chain : Chain α) (key value : List Char) : Option α :=
  (chain.lookup key).map fun param => param value


/-! ## The twelve modules -/

variable {β : Type}

def lagChain : Chain LagParam :=
  [("lag-time".toList, fun v => .time (atoi v)),
    ("lag-inbound".toList, fun v => .inbound (parseBoolValue v)),
    ("lag-outbound".toList, fun v => .outbound (parseBoolValue v))]

def lagGetParams (maxKv : Nat) (lag : Lag β) : List ParamKV :=
  if maxKv < 3 then []
  else
    [("lag-time".toList, decimal lag.lagTime.val),
      ("lag-inbound".toList, boolText lag.lagInbound),
      ("lag-outbound".toList, boolText lag.lagOutbound)]

def jitterChain : Chain JitterParam :=
  [("jitter-min".toList, fun v => .min (atoi v)),
    ("jitter-max".toList, fun v => .max (atoi v)),
    ("jitter-dist".toList, fun v => .dist (readDist v)),
    ("jitter-inbound".toList, fun v => .inbound (parseBoolValue v)),
    ("jitter-outbound".toList, fun v => .outbound (parseBoolValue v))]

def jitterGetParams (maxKv : Nat) (jitter : Jitter β) : List ParamKV :=
  if maxKv < 5 then []
  else
    [("jitter-min".toList, decimal jitter.jitterMin.val),
      ("jitter-max".toList, decimal jitter.jitterMax.val),
      ("jitter-inbound".toList, boolText jitter.jitterInbound),
      ("jitter-outbound".toList, boolText jitter.jitterOutbound),
      ("jitter-dist".toList, jitterDistName jitter.jitterDist)]

def dropChain : Chain DropParam :=
  [("drop-chance".toList, fun v => .chance (hundredths v)),
    ("drop-inbound".toList, fun v => .inbound (parseBoolValue v)),
    ("drop-outbound".toList, fun v => .outbound (parseBoolValue v))]

def dropGetParams (maxKv : Nat) (drop : Drop) : List ParamKV :=
  if maxKv < 3 then []
  else
    [("drop-chance".toList, chanceText binary32 drop.chance),
      ("drop-inbound".toList, boolText drop.dropInbound),
      ("drop-outbound".toList, boolText drop.dropOutbound)]

def burstlossChain : Chain BurstlossParam :=
  [("burstloss-inbound".toList, fun v => .inbound (parseBoolValue v)),
    ("burstloss-outbound".toList, fun v => .outbound (parseBoolValue v)),
    ("burstloss-good".toList, fun v => .good (hundredths v)),
    ("burstloss-bad".toList, fun v => .bad (hundredths v)),
    ("burstloss-gb".toList, fun v => .gb (hundredths v)),
    ("burstloss-bg".toList, fun v => .bg (hundredths v))]

def burstlossGetParams (maxKv : Nat) (burst : Burstloss) : List ParamKV :=
  if maxKv < 6 then []
  else
    [("burstloss-good".toList, chanceText binary32 burst.chanceGood),
      ("burstloss-bad".toList, chanceText binary32 burst.chanceBad),
      ("burstloss-gb".toList, chanceText binary32 burst.chanceGB),
      ("burstloss-bg".toList, chanceText binary32 burst.chanceBG),
      ("burstloss-inbound".toList, boolText burst.burstlossInbound),
      ("burstloss-outbound".toList, boolText burst.burstlossOutbound)]

def blackoutChain : Chain BlackoutParam :=
  [("blackout-duration".toList, fun v => .duration (atol v)),
    ("blackout-gap".toList, fun v => .gap (atol v)),
    ("blackout-inbound".toList, fun v => .inbound (parseBoolValue v)),
    ("blackout-outbound".toList, fun v => .outbound (parseBoolValue v)),
    ("blackout-trigger".toList, fun v => .trigger (parseBoolValue v))]

def blackoutGetParams (maxKv : Nat) (blackout : Blackout) : List ParamKV :=
  if maxKv < 4 then []
  else
    [("blackout-duration".toList, decimal blackout.durationMs.val),
      ("blackout-gap".toList, decimal blackout.gapMs.val),
      ("blackout-inbound".toList, boolText blackout.blackoutInbound),
      ("blackout-outbound".toList, boolText blackout.blackoutOutbound)]

def throttleChain : Chain ThrottleParam :=
  [("throttle-chance".toList, fun v => .chance (hundredths v)),
    ("throttle-frame".toList, fun v => .frame (atoi v)),
    ("throttle-drop".toList, fun v => .drop (parseBoolValue v)),
    ("throttle-inbound".toList, fun v => .inbound (parseBoolValue v)),
    ("throttle-outbound".toList, fun v => .outbound (parseBoolValue v))]

def throttleGetParams (maxKv : Nat) (throttle : Throttle β) : List ParamKV :=
  if maxKv < 5 then []
  else
    [("throttle-chance".toList, chanceText binary32 throttle.chance),
      ("throttle-frame".toList, decimal throttle.throttleFrame.val),
      ("throttle-drop".toList, boolText throttle.dropThrottled),
      ("throttle-inbound".toList, boolText throttle.throttleInbound),
      ("throttle-outbound".toList, boolText throttle.throttleOutbound)]

def dupChain : Chain DupParam :=
  [("duplicate-chance".toList, fun v => .chance (hundredths v)),
    ("duplicate-count".toList, fun v => .count (atoi v)),
    ("duplicate-inbound".toList, fun v => .inbound (parseBoolValue v)),
    ("duplicate-outbound".toList, fun v => .outbound (parseBoolValue v))]

def dupGetParams (maxKv : Nat) (dup : Dup) : List ParamKV :=
  if maxKv < 4 then []
  else
    [("duplicate-chance".toList, chanceText binary32 dup.chance),
      ("duplicate-count".toList, decimal dup.count.val),
      ("duplicate-inbound".toList, boolText dup.dupInbound),
      ("duplicate-outbound".toList, boolText dup.dupOutbound)]

def oodChain : Chain OodParam :=
  [("ood-chance".toList, fun v => .chance (hundredths v)),
    ("ood-buffer".toList, fun v => .buffer (atoi v)),
    ("ood-delay".toList, fun v => .delay (atoi v)),
    ("ood-inbound".toList, fun v => .inbound (parseBoolValue v)),
    ("ood-outbound".toList, fun v => .outbound (parseBoolValue v))]

def oodGetParams (maxKv : Nat) (ood : Ood β) : List ParamKV :=
  if maxKv < 5 then []
  else
    [("ood-chance".toList, chanceText binary32 ood.chance),
      ("ood-buffer".toList, decimal ood.maxBuffer.val),
      ("ood-delay".toList, decimal ood.maxDelay.val),
      ("ood-inbound".toList, boolText ood.oodInbound),
      ("ood-outbound".toList, boolText ood.oodOutbound)]

def tamperChain : Chain TamperParam :=
  [("tamper-chance".toList, fun v => .chance (hundredths v)),
    ("tamper-position".toList, fun v => .position (atoi v)),
    ("tamper-checksum".toList, fun v => .checksum (parseBoolValue v)),
    ("tamper-inbound".toList, fun v => .inbound (parseBoolValue v)),
    ("tamper-outbound".toList, fun v => .outbound (parseBoolValue v))]

def tamperGetParams (maxKv : Nat) (tamper : Tamper) : List ParamKV :=
  if maxKv < 5 then []
  else
    [("tamper-chance".toList, chanceText binary32 tamper.chance),
      ("tamper-position".toList, decimal tamper.tamperPos.val),
      ("tamper-checksum".toList, boolText tamper.doChecksum),
      ("tamper-inbound".toList, boolText tamper.tamperInbound),
      ("tamper-outbound".toList, boolText tamper.tamperOutbound)]

def corruptChain : Chain CorruptParam :=
  [("corrupt-chance".toList, fun v => .chance (hundredths v)),
    ("corrupt-ber".toList, fun v => .ber (atol v)),
    ("corrupt-checksum".toList, fun v => .checksum (parseBoolValue v)),
    ("corrupt-inbound".toList, fun v => .inbound (parseBoolValue v)),
    ("corrupt-outbound".toList, fun v => .outbound (parseBoolValue v))]

def corruptGetParams (maxKv : Nat) (corrupt : Corrupt) : List ParamKV :=
  if maxKv < 5 then []
  else
    [("corrupt-chance".toList, chanceText binary64 corrupt.corruptChance),
      ("corrupt-ber".toList, decimal corrupt.corruptBer.val),
      ("corrupt-checksum".toList, boolText corrupt.corruptChecksum),
      ("corrupt-inbound".toList, boolText corrupt.corruptInbound),
      ("corrupt-outbound".toList, boolText corrupt.corruptOutbound)]

def resetChain : Chain ResetParam :=
  [("reset-chance".toList, fun v => .chance (hundredths v)),
    ("reset-inbound".toList, fun v => .inbound (parseBoolValue v)),
    ("reset-outbound".toList, fun v => .outbound (parseBoolValue v)),
    ("reset-next".toList, fun v => .next (parseBoolValue v))]

def resetGetParams (maxKv : Nat) (reset : Reset) : List ParamKV :=
  if maxKv < 3 then []
  else
    [("reset-chance".toList, chanceText binary32 reset.chance),
      ("reset-inbound".toList, boolText reset.resetInbound),
      ("reset-outbound".toList, boolText reset.resetOutbound)]

def bandwidthChain : Chain BandwidthParam :=
  [("bandwidth-bandwidth".toList, fun v => .bandwidth (atol v)),
    ("bandwidth-inbound".toList, fun v => .inbound (parseBoolValue v)),
    ("bandwidth-outbound".toList, fun v => .outbound (parseBoolValue v))]

def bandwidthGetParams (maxKv : Nat) (bandwidth : Bandwidth β) : List ParamKV :=
  if maxKv < 3 then []
  else
    [("bandwidth-bandwidth".toList, decimal bandwidth.bandwidthLimit.val),
      ("bandwidth-inbound".toList, boolText bandwidth.bandwidthInbound),
      ("bandwidth-outbound".toList, boolText bandwidth.bandwidthOutbound)]

/-! ## Dispatch -/

namespace ModuleId

/-- What a key and a value write, if the module knows the key. -/
def readParam (key value : List Char) : ModuleId → Option ParamWrite
  | .lag => (lagChain.read key value).map .lag
  | .jitter => (jitterChain.read key value).map .jitter
  | .drop => (dropChain.read key value).map .drop
  | .burstloss => (burstlossChain.read key value).map .burstloss
  | .blackout => (blackoutChain.read key value).map .blackout
  | .throttle => (throttleChain.read key value).map .throttle
  | .dup => (dupChain.read key value).map .dup
  | .ood => (oodChain.read key value).map .ood
  | .tamper => (tamperChain.read key value).map .tamper
  | .corrupt => (corruptChain.read key value).map .corrupt
  | .reset => (resetChain.read key value).map .reset
  | .bandwidth => (bandwidthChain.read key value).map .bandwidth

/-- `module->setParam(key, value)`, or nothing where it returns 0. -/
def setParam (m : ModuleId) (enabled : ModuleId → Bool) (key value : List Char)
    (mods : Statics β) : Option (Statics β) :=
  (m.readParam key value).map (Modules.setParam enabled mods)

/-- `module->getParams(kv, maxKv)`. -/
def getParams (maxKv : Nat) (mods : Statics β) : ModuleId → List ParamKV
  | .lag => lagGetParams maxKv mods.lag
  | .jitter => jitterGetParams maxKv mods.jitter
  | .drop => dropGetParams maxKv mods.drop
  | .burstloss => burstlossGetParams maxKv mods.burstloss
  | .blackout => blackoutGetParams maxKv mods.blackout
  | .throttle => throttleGetParams maxKv mods.throttle
  | .dup => dupGetParams maxKv mods.dup
  | .ood => oodGetParams maxKv mods.ood
  | .tamper => tamperGetParams maxKv mods.tamper
  | .corrupt => corruptGetParams maxKv mods.corrupt
  | .reset => resetGetParams maxKv mods.reset
  | .bandwidth => bandwidthGetParams maxKv mods.bandwidth

/-- Every pair is given to `setParam`, in order. -/
def feed (m : ModuleId) (enabled : ModuleId → Bool) (kv : List ParamKV) (mods : Statics β) :
    Statics β :=
  kv.foldl (fun mods pair => (m.setParam enabled pair.1 pair.2 mods).getD mods) mods

/-- How many parameters `getParams` writes. -/
def paramCount : ModuleId → Nat
  | .lag | .drop | .reset | .bandwidth => 3
  | .dup | .blackout => 4
  | .jitter | .throttle | .ood | .tamper | .corrupt => 5
  | .burstloss => 6

/-- The chances among the parameters. -/
def chances (mods : Statics β) : ModuleId → List Chance
  | .drop => [mods.drop.chance]
  | .burstloss =>
      [mods.burstloss.chanceGood, mods.burstloss.chanceBad, mods.burstloss.chanceGB,
        mods.burstloss.chanceBG]
  | .throttle => [mods.throttle.chance]
  | .dup => [mods.dup.chance]
  | .ood => [mods.ood.chance]
  | .tamper => [mods.tamper.chance]
  | .corrupt => [mods.corrupt.corruptChance]
  | .reset => [mods.reset.chance]
  | .lag | .jitter | .blackout | .bandwidth => []

end ModuleId

/-! ## Values are read back -/

@[simp] theorem parseBoolValue_boolText (on : Bool) : parseBoolValue (boolText on) = on := by
  cases on <;> decide

@[simp] theorem readDist_jitterDistName (d : Dist) : readDist (jitterDistName d) = d := by
  cases d <;> decide

section

variable {lo hi : Int}

theorem clampLong_inside {v : Int} (low : lo ≤ v) (high : v ≤ hi) : clampLong v lo hi = v := by
  rw [clampLong]
  simp only [not_lt.2 low, if_false, gt_iff_lt, not_lt.2 high]

theorem ofShort_decimal (c : Clamped lo hi) (fits : Clamped.shortRange lo hi = true) :
    Clamped.ofShort fits (atoi (decimal c.val)) = c := by
  obtain ⟨low, range, high⟩ := Clamped.shortRange_eq_true fits
  have lower := c.lower
  have upper := c.upper
  have same : clampShort c.val lo hi = c.val := by
    rw [clampShort_eq_clampLong _ low range high, clampLong_inside lower upper]
  rw [atoi_decimal (by omega) (by omega)]
  simp only [Clamped.ofShort, same]

theorem ofLong_decimal (c : Clamped lo hi) (range : decide (lo ≤ hi) = true) (low : -2 ^ 63 ≤ lo)
    (high : hi < 2 ^ 63) : Clamped.ofLong range (atol (decimal c.val)) = c := by
  have lower := c.lower
  have upper := c.upper
  rw [atol, strtol_decimal (by omega) (by omega)]
  simp only [Clamped.ofLong, clampLong_inside lower upper]

end

/-! ## Chances are read back in tenths -/

/-- `float` and `double`. -/
def Wide (F : Format) : Prop := F = binary32 ∨ F = binary64

theorem round_chance {F : Format} (wide : Wide F) (chance : Chance) :
    ∃ r, F.round (chance.val / 100) = .finite r ∧ 0 ≤ r ∧ |r - chance.val / 100| ≤ 1 / 2 ^ 17 := by
  have lower : (0 : ℚ) ≤ chance.val := by exact_mod_cast chance.lower
  have upper : (chance.val : ℚ) ≤ 10000 := by exact_mod_cast chance.upper
  have nonneg : (0 : ℚ) ≤ chance.val / 100 := by positivity
  have small : |(chance.val : ℚ) / 100| ≤ 2 ^ (7 : Int) := by
    rw [abs_of_nonneg nonneg]
    norm_num
    linarith
  rcases wide with rfl | rfl
  · obtain ⟨r, rounded, near⟩ := binary32.round_near small (by decide) (by decide)
    refine ⟨r, rounded, binary32.round_nonneg nonneg rounded, near.trans ?_⟩
    norm_num [binary32]
  · obtain ⟨r, rounded, near⟩ := binary64.round_near small (by decide) (by decide)
    refine ⟨r, rounded, binary64.round_nonneg nonneg rounded, near.trans ?_⟩
    norm_num [binary64]

/-- What a chance is written as, with the number of tenths it is if it is one. -/
theorem chanceText_tenths {F : Format} (wide : Wide F) (chance : Chance) :
    ∃ n ≤ 1000, chanceText F chance = tenths n ∧ ∀ k : Nat, chance.val = 10 * k → n = k := by
  obtain ⟨r, rounded, nonneg, near⟩ := round_chance wide chance
  have lower : (0 : ℚ) ≤ chance.val := by exact_mod_cast chance.lower
  have upper : (chance.val : ℚ) ≤ 10000 := by exact_mod_cast chance.upper
  obtain ⟨below, above⟩ := abs_le.1 near
  obtain ⟨low, high⟩ := abs_le.1 (roundEven_error (r * 10))
  have count : (roundEven (r * 10) : ℚ) < 1001 := by linarith
  have positive : (-1 : ℚ) < roundEven (r * 10) := by linarith
  have bounded : -1 < roundEven (r * 10) ∧ roundEven (r * 10) < 1001 := by
    exact_mod_cast And.intro positive count
  refine ⟨(roundEven (r * 10)).natAbs, by omega, ?_, fun k whole => ?_⟩
  · rw [chanceText, rounded, fixed1, abs_of_nonneg nonneg, decide_eq_false (not_lt.2 nonneg)]
    rfl
  · have hit : roundEven (r * 10) = k := by
      apply roundEven_eq
      have tenth : (chance.val : ℚ) = 10 * k := by exact_mod_cast whole
      rw [tenth] at near below above
      push_cast
      rw [abs_lt]
      constructor <;> linarith
    omega

theorem toInt_of_near {q : ℚ} {n : Nat} (low : (n : ℚ) ≤ q) (high : q < n + 1)
    (small : n < 2 ^ 31) : toInt (.finite q) = n := by
  have nonneg : ¬q < 0 := not_lt.2 (le_trans (by positivity) low)
  have floor : ⌊q⌋ = (n : Int) := by
    rw [Int.floor_eq_iff]
    exact ⟨by exact_mod_cast low, by exact_mod_cast high⟩
  simp only [toInt, nonneg, if_false, floor]
  rw [if_pos (by omega)]

/-- A chance written with one decimal is read back exactly. -/
theorem hundredths_tenths {n : Nat} (small : n ≤ 1000) : hundredths (tenths n) = 10 * n := by
  have bound : (n : ℚ) ≤ 1000 := by exact_mod_cast small
  have nonneg : (0 : ℚ) ≤ n := by positivity
  have step {q : ℚ} (inside : |q| ≤ 2 ^ (14 : Int)) :
      ∃ r, binary64.round q = .finite r ∧ q - 1 / 2 ^ 20 ≤ r ∧ r ≤ q + 1 / 2 ^ 20 := by
    obtain ⟨r, rounded, near⟩ := binary64.round_near inside (by decide) (by decide)
    have fine : (2 : ℚ) ^ ((14 : Int) - binary64.precision) ≤ 1 / 2 ^ 20 := by norm_num [binary64]
    obtain ⟨below, above⟩ := abs_le.1 (near.trans fine)
    exact ⟨r, rounded, by linarith, by linarith⟩
  have inside {q : ℚ} (low : -16384 ≤ q) (high : q ≤ 16384) : |q| ≤ 2 ^ (14 : Int) := by
    norm_num
    exact abs_le.2 ⟨low, high⟩
  obtain ⟨x, read, lowX, highX⟩ := step (q := n / 10) (inside (by linarith) (by linarith))
  obtain ⟨y, scaled, lowY, highY⟩ := step (q := x * 100) (inside (by linarith) (by linarith))
  obtain ⟨z, shifted, lowZ, highZ⟩ := step (q := y + 1 / 2) (inside (by linarith) (by linarith))
  rw [hundredths, atof_tenths, read]
  simp only [Format.lift, scaled, shifted]
  rw [toInt_of_near (n := 10 * n) (by push_cast; linarith) (by push_cast; linarith) (by omega)]
  push_cast
  rfl

/-- What is left of a chance that was written and read. -/
def reread (F : Format) (chance : Chance) : Chance := .set (hundredths (chanceText F chance))

theorem reread_val {F : Format} (wide : Wide F) (chance : Chance) :
    ∃ n ≤ 1000, chanceText F chance = tenths n ∧ (reread F chance).val = 10 * n ∧
      ∀ k : Nat, chance.val = 10 * k → n = k := by
  obtain ⟨n, small, written, same⟩ := chanceText_tenths wide chance
  refine ⟨n, small, written, ?_, same⟩
  rw [reread, written, hundredths_tenths small]
  show clampShort (10 * n) 0 10000 = 10 * n
  rw [clampShort_eq_clampLong _ (by decide) (by decide) (by decide)]
  exact clampLong_inside (by omega) (by omega)

/-- **Only whole tenths of a percent survive.** -/
theorem reread_eq_iff {F : Format} (wide : Wide F) (chance : Chance) :
    reread F chance = chance ↔ 10 ∣ chance.val := by
  obtain ⟨n, -, -, val, same⟩ := reread_val wide chance
  constructor
  · intro kept
    rw [kept] at val
    exact ⟨n, val⟩
  · rintro ⟨k, whole⟩
    have lower := chance.lower
    obtain ⟨k, rfl⟩ := Int.eq_ofNat_of_zero_le (show 0 ≤ k by omega)
    have hit := same k whole
    apply Clamped.ext
    rw [val, whole, hit]

/-- A chance is written the same way once it was read. -/
theorem chanceText_reread {F : Format} (wide : Wide F) (chance : Chance) :
    chanceText F (reread F chance) = chanceText F chance := by
  obtain ⟨n, -, written, val, -⟩ := reread_val wide chance
  obtain ⟨n', -, written', same⟩ := chanceText_tenths wide (reread F chance)
  rw [written', written, same n val]

/-! ## Parameters are read back -/

namespace ModuleId

/-- The module with the parameters that `saved` writes down. -/
def restored (saved mods : Statics β) : ModuleId → Statics β
  | .lag =>
      { mods with
        lag.lagTime := saved.lag.lagTime
        lag.lagInbound := saved.lag.lagInbound
        lag.lagOutbound := saved.lag.lagOutbound }
  | .jitter =>
      { mods with
        jitter.jitterMin := saved.jitter.jitterMin
        jitter.jitterMax := saved.jitter.jitterMax
        jitter.jitterInbound := saved.jitter.jitterInbound
        jitter.jitterOutbound := saved.jitter.jitterOutbound
        jitter.jitterDist := saved.jitter.jitterDist }
  | .drop =>
      { mods with
        drop.chance := reread binary32 saved.drop.chance
        drop.dropInbound := saved.drop.dropInbound
        drop.dropOutbound := saved.drop.dropOutbound }
  | .burstloss =>
      { mods with
        burstloss.chanceGood := reread binary32 saved.burstloss.chanceGood
        burstloss.chanceBad := reread binary32 saved.burstloss.chanceBad
        burstloss.chanceGB := reread binary32 saved.burstloss.chanceGB
        burstloss.chanceBG := reread binary32 saved.burstloss.chanceBG
        burstloss.burstlossInbound := saved.burstloss.burstlossInbound
        burstloss.burstlossOutbound := saved.burstloss.burstlossOutbound }
  | .blackout =>
      { mods with
        blackout.durationMs := saved.blackout.durationMs
        blackout.gapMs := saved.blackout.gapMs
        blackout.blackoutInbound := saved.blackout.blackoutInbound
        blackout.blackoutOutbound := saved.blackout.blackoutOutbound }
  | .throttle =>
      { mods with
        throttle.chance := reread binary32 saved.throttle.chance
        throttle.throttleFrame := saved.throttle.throttleFrame
        throttle.dropThrottled := saved.throttle.dropThrottled
        throttle.throttleInbound := saved.throttle.throttleInbound
        throttle.throttleOutbound := saved.throttle.throttleOutbound }
  | .dup =>
      { mods with
        dup.chance := reread binary32 saved.dup.chance
        dup.count := saved.dup.count
        dup.dupInbound := saved.dup.dupInbound
        dup.dupOutbound := saved.dup.dupOutbound }
  | .ood =>
      { mods with
        ood.chance := reread binary32 saved.ood.chance
        ood.maxBuffer := saved.ood.maxBuffer
        ood.maxDelay := saved.ood.maxDelay
        ood.oodInbound := saved.ood.oodInbound
        ood.oodOutbound := saved.ood.oodOutbound }
  | .tamper =>
      { mods with
        tamper.chance := reread binary32 saved.tamper.chance
        tamper.tamperPos := saved.tamper.tamperPos
        tamper.doChecksum := saved.tamper.doChecksum
        tamper.tamperInbound := saved.tamper.tamperInbound
        tamper.tamperOutbound := saved.tamper.tamperOutbound }
  | .corrupt =>
      { mods with
        corrupt.corruptChance := reread binary64 saved.corrupt.corruptChance
        corrupt.corruptBer := saved.corrupt.corruptBer
        corrupt.corruptChecksum := saved.corrupt.corruptChecksum
        corrupt.corruptInbound := saved.corrupt.corruptInbound
        corrupt.corruptOutbound := saved.corrupt.corruptOutbound }
  | .reset =>
      { mods with
        reset.chance := reread binary32 saved.reset.chance
        reset.resetInbound := saved.reset.resetInbound
        reset.resetOutbound := saved.reset.resetOutbound }
  | .bandwidth =>
      { mods with
        bandwidth.bandwidthLimit := saved.bandwidth.bandwidthLimit
        bandwidth.bandwidthInbound := saved.bandwidth.bandwidthInbound
        bandwidth.bandwidthOutbound := saved.bandwidth.bandwidthOutbound }

/-- Nothing is written down where there is no room for all parameters. -/
theorem getParams_full {m : ModuleId} {maxKv : Nat} (full : maxKv < m.paramCount)
    (mods : Statics β) : m.getParams maxKv mods = [] := by
  cases m <;> exact if_pos full

theorem getParams_room {m : ModuleId} {maxKv : Nat} (room : m.paramCount ≤ maxKv)
    (mods : Statics β) : m.getParams maxKv mods = m.getParams m.paramCount mods := by
  cases m <;> exact (if_neg (Nat.not_lt.2 room)).trans rfl

/-- Parameters read from what `saved` wrote. -/
theorem feed_getParams (m : ModuleId) (enabled : ModuleId → Bool) (saved mods : Statics β) :
    m.feed enabled (m.getParams m.paramCount saved) mods = m.restored saved mods := by
  cases m with
  | lag =>
      have lagTime := ofShort_decimal saved.lag.lagTime (.refl true)
      simp [feed, getParams, lagGetParams, paramCount, setParam, readParam, Chain.read, lagChain,
        List.lookup, Modules.setParam, lagSetParam, lagTime]
      rfl
  | jitter =>
      have jitterMin := ofShort_decimal saved.jitter.jitterMin (.refl true)
      have jitterMax := ofShort_decimal saved.jitter.jitterMax (.refl true)
      simp [feed, getParams, jitterGetParams, paramCount, setParam, readParam, Chain.read,
        jitterChain, List.lookup, Modules.setParam, jitterSetParam, jitterMin, jitterMax]
      rfl
  | drop =>
      simp [feed, getParams, dropGetParams, paramCount, setParam, readParam, Chain.read, dropChain,
        List.lookup, Modules.setParam, dropSetParam]
      rfl
  | burstloss =>
      simp [feed, getParams, burstlossGetParams, paramCount, setParam, readParam, Chain.read,
        burstlossChain, List.lookup, Modules.setParam, burstlossSetParam]
      rfl
  | blackout =>
      have durationMs :=
        ofLong_decimal saved.blackout.durationMs (.refl true) (by decide) (by decide)
      have gapMs := ofLong_decimal saved.blackout.gapMs (.refl true) (by decide) (by decide)
      simp [feed, getParams, blackoutGetParams, paramCount, setParam, readParam, Chain.read,
        blackoutChain, List.lookup, Modules.setParam, blackoutSetParam, durationMs, gapMs]
      rfl
  | throttle =>
      have throttleFrame := ofShort_decimal saved.throttle.throttleFrame (.refl true)
      simp [feed, getParams, throttleGetParams, paramCount, setParam, readParam, Chain.read,
        throttleChain, List.lookup, Modules.setParam, throttleSetParam, throttleFrame]
      rfl
  | dup =>
      have count := ofShort_decimal saved.dup.count (.refl true)
      simp [feed, getParams, dupGetParams, paramCount, setParam, readParam, Chain.read, dupChain,
        List.lookup, Modules.setParam, dupSetParam, count]
      rfl
  | ood =>
      have maxBuffer := ofShort_decimal saved.ood.maxBuffer (.refl true)
      have maxDelay := ofShort_decimal saved.ood.maxDelay (.refl true)
      simp [feed, getParams, oodGetParams, paramCount, setParam, readParam, Chain.read, oodChain,
        List.lookup, Modules.setParam, oodSetParam, maxBuffer, maxDelay]
      rfl
  | tamper =>
      have tamperPos := ofShort_decimal saved.tamper.tamperPos (.refl true)
      simp [feed, getParams, tamperGetParams, paramCount, setParam, readParam, Chain.read,
        tamperChain, List.lookup, Modules.setParam, tamperSetParam, tamperPos]
      rfl
  | corrupt =>
      have corruptBer :=
        ofLong_decimal saved.corrupt.corruptBer (.refl true) (by decide) (by decide)
      simp [feed, getParams, corruptGetParams, paramCount, setParam, readParam, Chain.read,
        corruptChain, List.lookup, Modules.setParam, corruptSetParam, corruptBer]
      rfl
  | reset =>
      simp [feed, getParams, resetGetParams, paramCount, setParam, readParam, Chain.read,
        resetChain, List.lookup, Modules.setParam, resetSetParam]
      rfl
  | bandwidth =>
      have bandwidthLimit :=
        ofLong_decimal saved.bandwidth.bandwidthLimit (.refl true) (by decide) (by decide)
      simp [feed, getParams, bandwidthGetParams, paramCount, setParam, readParam, Chain.read,
        bandwidthChain, List.lookup, Modules.setParam, bandwidthSetParam, bandwidthLimit]
      rfl

theorem restored_eq_iff (m : ModuleId) (mods : Statics β) :
    m.restored mods mods = mods ↔ ∀ c ∈ m.chances mods, 10 ∣ c.val := by
  have wide32 : Wide binary32 := .inl rfl
  have wide64 : Wide binary64 := .inr rfl
  cases m with
  | lag | jitter | blackout | bandwidth => simp [restored, chances]
  | drop =>
      have := reread_eq_iff wide32 mods.drop.chance
      rcases mods with ⟨_, _, ⟨⟩⟩
      simp_all [restored, chances]
  | burstloss =>
      have := reread_eq_iff wide32 mods.burstloss.chanceGood
      have := reread_eq_iff wide32 mods.burstloss.chanceBad
      have := reread_eq_iff wide32 mods.burstloss.chanceGB
      have := reread_eq_iff wide32 mods.burstloss.chanceBG
      rcases mods with ⟨_, _, _, ⟨⟩⟩
      simp_all [restored, chances]
  | throttle =>
      have := reread_eq_iff wide32 mods.throttle.chance
      rcases mods with ⟨_, _, _, _, _, ⟨⟩⟩
      simp_all [restored, chances]
  | dup =>
      have := reread_eq_iff wide32 mods.dup.chance
      rcases mods with ⟨_, _, _, _, _, _, ⟨⟩⟩
      simp_all [restored, chances]
  | ood =>
      have := reread_eq_iff wide32 mods.ood.chance
      rcases mods with ⟨_, _, _, _, _, _, _, ⟨⟩⟩
      simp_all [restored, chances]
  | tamper =>
      have := reread_eq_iff wide32 mods.tamper.chance
      rcases mods with ⟨_, _, _, _, _, _, _, _, ⟨⟩⟩
      simp_all [restored, chances]
  | corrupt =>
      have := reread_eq_iff wide64 mods.corrupt.corruptChance
      rcases mods with ⟨_, _, _, _, _, _, _, _, _, ⟨⟩⟩
      simp_all [restored, chances]
  | reset =>
      have := reread_eq_iff wide32 mods.reset.chance
      rcases mods with ⟨_, _, _, _, _, _, _, _, _, _, ⟨⟩⟩
      simp_all [restored, chances]

@[simp] theorem getParams_length (m : ModuleId) (mods : Statics β) :
    (m.getParams m.paramCount mods).length = m.paramCount := by
  cases m <;> rfl

/-- What was restored is written down as before. -/
theorem getParams_restored (m : ModuleId) (saved mods : Statics β) :
    m.getParams m.paramCount (m.restored saved mods) = m.getParams m.paramCount saved := by
  have wide32 : Wide binary32 := .inl rfl
  have wide64 : Wide binary64 := .inr rfl
  cases m with
  | lag => rfl
  | jitter => rfl
  | drop => simp [getParams, restored, dropGetParams, paramCount, chanceText_reread wide32]
  | burstloss =>
      simp [getParams, restored, burstlossGetParams, paramCount, chanceText_reread wide32]
  | blackout => rfl
  | throttle => simp [getParams, restored, throttleGetParams, paramCount, chanceText_reread wide32]
  | dup => simp [getParams, restored, dupGetParams, paramCount, chanceText_reread wide32]
  | ood => simp [getParams, restored, oodGetParams, paramCount, chanceText_reread wide32]
  | tamper => simp [getParams, restored, tamperGetParams, paramCount, chanceText_reread wide32]
  | corrupt => simp [getParams, restored, corruptGetParams, paramCount, chanceText_reread wide64]
  | reset => simp [getParams, restored, resetGetParams, paramCount, chanceText_reread wide32]
  | bandwidth => rfl

/-- Restoring one module leaves the parameters of the others alone. -/
theorem getParams_frame {m m' : ModuleId} (other : m' ≠ m) (maxKv : Nat) (saved mods : Statics β) :
    m'.getParams maxKv (m.restored saved mods) = m'.getParams maxKv mods := by
  cases m <;> cases m' <;> first | exact absurd rfl other | rfl

/-- **Parameters that are written down and read again stay as they were exactly when every
chance among them is a whole number of tenths of a percent.**  With too little room nothing
is written, so nothing is read. -/
theorem feed_getParams_iff (m : ModuleId) (enabled : ModuleId → Bool) (maxKv : Nat)
    (mods : Statics β) :
    m.feed enabled (m.getParams maxKv mods) mods = mods ↔
      maxKv < m.paramCount ∨ ∀ c ∈ m.chances mods, 10 ∣ c.val := by
  by_cases full : maxKv < m.paramCount
  · rw [getParams_full full]
    exact iff_of_true rfl (.inl full)
  · rw [getParams_room (Nat.not_lt.1 full), feed_getParams, restored_eq_iff]
    exact (or_iff_right full).symm

/-- `drop-chance` 12.34 is kept as 1234, written as `12.3` and read back as 1230. -/
theorem feed_getParams_loses :
    ∃ mods : Statics Unit,
      ModuleId.drop.setParam (fun _ => true) "drop-chance".toList "12.34".toList .initial =
          some mods ∧
        ModuleId.drop.feed (fun _ => true) (ModuleId.drop.getParams 32 mods) mods ≠ mods := by
  have kept : hundredths "12.34".toList = 1234 := by decide +kernel
  refine ⟨{ Statics.initial with drop.chance := .set (hundredths "12.34".toList) }, rfl, ?_⟩
  rw [getParams_room (by decide), feed_getParams, Ne, restored_eq_iff, kept]
  decide

end ModuleId

end Clumsy.Modules
