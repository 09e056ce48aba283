/-
# Stats.Latency -- latency.cpp: the histogram of the delays

Six counters are updated one by one.  `Exact` says what they come to: they are the
counts, the extremes and the sum of the delays recorded since the last reset.  The
counters are `LONG`s, so this holds up to `2 ^ (w - 1)` delays and never beyond
(`latency_exact_iff`).
-/
import Mathlib
import Clumsy.Theory.Run

namespace Clumsy.Stats

open Clumsy.Theory

set_option autoImplicit false

/-- A value stored in a `LONG` of `w` bits: 32 on Windows, 64 on Linux. -/
def long (w : Nat) (v : Int) : Int := v.bmod (2 ^ w)

/-! ## latency.cpp -/

/-- Upper bounds of the buckets, inclusive; the last one has none. -/
def bucketUpper : List Int := [1, 2, 5, 10, 25, 50, 100, 250, 500, 1000, 2500, 5000, 0]

/-- `LATENCY_BUCKETS`. -/
def LATENCY_BUCKETS : Nat := 13

/-- `SUM_ROLLOVER`. -/
def SUM_ROLLOVER : Int := 1000000000

structure Histogram where
  buckets    : List Int
  totalCount : Int
  minMs      : Int
  maxMs      : Int
  sumLow     : Int
  sumHigh    : Int
  deriving DecidableEq, Repr

def Histogram.initial : Histogram :=
  { buckets := List.replicate LATENCY_BUCKETS 0, totalCount := 0, minMs := 0, maxMs := 0
    sumLow := 0, sumHigh := 0 }

/-- The first bucket whose bound is not exceeded, or the last one. -/
def bucketOf (ms : Int) : Nat :=
  (bucketUpper.take (LATENCY_BUCKETS - 1)).findIdx fun upper => ms ≤ upper

def latencyReset (_ : Histogram) : Histogram := .initial

/-- The input guard. -/
def accepts (ms : Int) : Bool := !(decide (ms < 0) || decide (ms > 3600000))

def latencyRecord (w : Nat) (delayMs : UInt32) (h : Histogram) : Histogram :=
  let ms := long w delayMs.toNat
  if !accepts ms then h
  else
    let low := long w (h.sumLow + ms)
    { buckets := h.buckets.modify (bucketOf ms) fun count => long w (count + 1)
      minMs := if h.totalCount = 0 ∨ ms < h.minMs then ms else h.minMs
      maxMs := if ms > h.maxMs then ms else h.maxMs
      sumLow := if low ≥ SUM_ROLLOVER then long w (low - SUM_ROLLOVER) else low
      sumHigh := if low ≥ SUM_ROLLOVER then long w (h.sumHigh + 1) else h.sumHigh
      totalCount := long w (h.totalCount + 1) }

def Histogram.latencyCount (h : Histogram) : Int := h.totalCount

def Histogram.latencyMin (h : Histogram) : Int := if h.totalCount ≠ 0 then h.minMs else 0

def Histogram.latencyMax (h : Histogram) : Int := h.maxMs

def Histogram.latencyBucketCount (h : Histogram) (ix : Int) : Int :=
  if ix < 0 ∨ ix ≥ LATENCY_BUCKETS then 0 else h.buckets.getD ix.toNat 0

/-- `latencySumMs`, the double read as the number it stands for. -/
def Histogram.latencySumMs (h : Histogram) : Int := h.sumHigh * SUM_ROLLOVER + h.sumLow

inductive Event where
  | reset
  | record (delayMs : UInt32)
  deriving DecidableEq, Repr

def histogram (w : Nat) : Machine Histogram Event where
  step h
    | .reset => latencyReset h
    | .record delayMs => latencyRecord w delayMs h
  admits _ _ := True

/-! ## What the counters stand for -/

/-- The delays of at most an hour recorded since the last reset, newest first. -/
def samples : Machine (List Int) Event where
  step s
    | .reset => []
    | .record delayMs => if delayMs.toNat ≤ 3600000 then (delayMs.toNat : Int) :: s else s
  admits _ _ := True

/-- The interval of a bucket. -/
def InBucket (ix : Nat) (ms : Int) : Prop :=
  (ix = 0 ∨ bucketUpper.getD (ix - 1) 0 < ms) ∧
    (ix = LATENCY_BUCKETS - 1 ∨ ms ≤ bucketUpper.getD ix 0)

instance (ix : Nat) (ms : Int) : Decidable (InBucket ix ms) :=
  inferInstanceAs (Decidable (_ ∧ _))

/-- The counters are those of the recorded delays. -/
structure Exact (s : List Int) (h : Histogram) : Prop where
  buckets : ∀ ix < LATENCY_BUCKETS,
    h.latencyBucketCount ix = (s.countP fun ms => InBucket ix ms : Nat)
  total   : h.buckets.sum = h.latencyCount
  count   : h.latencyCount = s.length
  min     : h.latencyMin = s.min?.getD 0
  max     : h.latencyMax = s.max?.getD 0
  low     : 0 ≤ h.sumLow ∧ h.sumLow < SUM_ROLLOVER
  sum     : h.latencySumMs = s.sum

/-! ## LONG -/

section Long

variable {w : Nat} {v : Int}

theorem two_pow_pred (wide : 32 ≤ w) : 2 ^ w = 2 * 2 ^ (w - 1) := by
  obtain ⟨k, rfl⟩ : ∃ k, w = k + 1 := ⟨w - 1, by omega⟩
  rw [Nat.add_sub_cancel, pow_succ, Nat.mul_comm]

theorem two_pow_le (wide : 32 ≤ w) : 2 ^ 31 ≤ 2 ^ (w - 1) :=
  Nat.pow_le_pow_right (by omega) (by omega)

theorem long_of_range (wide : 32 ≤ w) (low : 0 ≤ v) (high : v < (2 ^ (w - 1) : Nat)) :
    long w v = v := by
  have half := two_pow_pred wide
  apply Int.bmod_eq_of_le <;> omega

theorem long_lt (wide : 32 ≤ w) (v : Int) : long w v < (2 ^ (w - 1) : Nat) := by
  have half := two_pow_pred wide
  have below := Int.bmod_lt (x := v) (Nat.two_pow_pos w)
  rw [long]
  omega

theorem long_negative (wide : 32 ≤ w) (low : (2 ^ (w - 1) : Nat) ≤ v) (high : v < (2 ^ w : Nat)) :
    long w v < 0 := by
  have half := two_pow_pred wide
  rw [long, Int.bmod_def, Int.emod_eq_of_lt (by omega) high]
  split <;> omega

/-- A counter that has wrapped adds up like one that has not. -/
theorem long_add (v u : Int) : long w (long w v + u) = long w (v + u) := by
  simp only [long, Int.bmod_add_bmod]

/-- A counter that was incremented `n` times before. -/
theorem long_succ (n : Nat) : long w (long w n + 1) = long w (n + 1 : Nat) := by
  rw [long_add, Nat.cast_succ]

/-- The guard lets through the delays of at most an hour, at either width. -/
theorem accepts_iff (wide : 32 ≤ w) (delayMs : UInt32) :
    accepts (long w delayMs.toNat) = true ↔ delayMs.toNat ≤ 3600000 := by
  have bound := delayMs.toNat_lt
  have large := two_pow_le wide
  have half := two_pow_pred wide
  by_cases fits : delayMs.toNat < 2 ^ (w - 1)
  · rw [long_of_range wide (by omega) (by omega), accepts]
    simp
  · have negative := long_negative (v := delayMs.toNat) wide (by omega) (by omega)
    simp [accepts, negative]
    omega

end Long

/-! ## Buckets -/

theorem bucketUpper_mono : ∀ j < LATENCY_BUCKETS - 1, ∀ i ≤ j,
    bucketUpper.getD i 0 ≤ bucketUpper.getD j 0 := by
  decide

theorem bucketOf_lt (ms : Int) : bucketOf ms < LATENCY_BUCKETS := by
  have bound : bucketOf ms ≤ (bucketUpper.take (LATENCY_BUCKETS - 1)).length :=
    List.findIdx_le_length
  exact Nat.lt_succ_of_le bound

theorem bucketUpper_take {ix : Nat} (bounded : ix < LATENCY_BUCKETS - 1) :
    (bucketUpper.take (LATENCY_BUCKETS - 1))[ix]? = some (bucketUpper.getD ix 0) := by
  have inside : ix < bucketUpper.length := by
    simp only [LATENCY_BUCKETS, bucketUpper, List.length] at bounded ⊢
    omega
  rw [List.getElem?_take_of_lt bounded, List.getD_eq_getElem?_getD,
    List.getElem?_eq_getElem inside]
  rfl

theorem inBucket_bucketOf (ms : Int) : InBucket (bucketOf ms) ms := by
  have size : (bucketUpper.take (LATENCY_BUCKETS - 1)).length = LATENCY_BUCKETS - 1 := rfl
  have last := bucketOf_lt ms
  constructor
  · by_cases first : bucketOf ms = 0
    · exact .inl first
    right
    have before : bucketOf ms - 1 < (bucketUpper.take (LATENCY_BUCKETS - 1)).findIdx
        fun upper => ms ≤ upper := Nat.sub_one_lt first
    have above := List.not_of_lt_findIdx before
    have here : (bucketUpper.take (LATENCY_BUCKETS - 1))[bucketOf ms - 1]? = _ :=
      bucketUpper_take (by omega)
    rw [List.getElem?_eq_getElem (by omega)] at here
    rw [Option.some.inj here] at above
    simpa using above
  · by_cases open' : bucketOf ms = LATENCY_BUCKETS - 1
    · exact .inl open'
    right
    have found : (bucketUpper.take (LATENCY_BUCKETS - 1)).findIdx (fun upper => ms ≤ upper) <
        (bucketUpper.take (LATENCY_BUCKETS - 1)).length := by
      rw [size]
      exact lt_of_le_of_ne (Nat.le_of_lt_succ last) open'
    have below := List.findIdx_getElem (w := found)
    have here : (bucketUpper.take (LATENCY_BUCKETS - 1))[(bucketUpper.take
        (LATENCY_BUCKETS - 1)).findIdx fun upper => ms ≤ upper]? =
        some (bucketUpper.getD (bucketOf ms) 0) := bucketUpper_take (by omega)
    rw [List.getElem?_eq_getElem found] at here
    rw [Option.some.inj here] at below
    simpa using below

/-- The intervals do not overlap. -/
theorem InBucket.unique {ix jx : Nat} {ms : Int} (hi : InBucket ix ms) (hj : InBucket jx ms)
    (li : ix < LATENCY_BUCKETS) (lj : jx < LATENCY_BUCKETS) : ix = jx := by
  have apart {ix jx : Nat} (hi : InBucket ix ms) (hj : InBucket jx ms)
      (lj : jx < LATENCY_BUCKETS) : ¬ ix < jx := by
    intro less
    simp only [LATENCY_BUCKETS] at lj
    have above : ms ≤ bucketUpper.getD ix 0 := hi.2.resolve_left (by simp [LATENCY_BUCKETS]; omega)
    have below : bucketUpper.getD (jx - 1) 0 < ms := hj.1.resolve_left (by omega)
    have mono := bucketUpper_mono (jx - 1) (by simp [LATENCY_BUCKETS]; omega) ix (by omega)
    omega
  have first := apart hi hj lj
  have second := apart hj hi li
  omega

theorem inBucket_iff {ix : Nat} (inside : ix < LATENCY_BUCKETS) (ms : Int) :
    InBucket ix ms ↔ ix = bucketOf ms := by
  constructor
  · intro h
    exact h.unique (inBucket_bucketOf ms) inside (bucketOf_lt ms)
  · rintro rfl
    exact inBucket_bucketOf ms

/-! ## One delay -/

theorem latencyBucketCount_eq (h : Histogram) {ix : Nat} (inside : ix < LATENCY_BUCKETS) :
    h.latencyBucketCount ix = h.buckets.getD ix 0 := by
  rw [Histogram.latencyBucketCount, if_neg (by omega), Int.toNat_natCast]

theorem sum_modify (f : Int → Int) (counts : List Int) {ix : Nat} (inside : ix < counts.length) :
    (counts.modify ix f).sum = counts.sum - counts.getD ix 0 + f (counts.getD ix 0) := by
  induction counts generalizing ix with
  | nil => simp at inside
  | cons c counts ih =>
      cases ix with
      | zero => simp; omega
      | succ ix =>
          have rest := ih (Nat.lt_of_succ_lt_succ inside)
          simp [rest]
          omega

theorem getD_modify (f : Int → Int) (counts : List Int) {ix jx : Nat}
    (inside : jx < counts.length) :
    (counts.modify ix f).getD jx 0 =
      if ix = jx then f (counts.getD jx 0) else counts.getD jx 0 := by
  simp only [List.getD_eq_getElem?_getD, List.getElem?_modify, List.getElem?_eq_getElem inside]
  split <;> rfl

/-- What ties the counters to the samples on every run; they are exact while the counts
fit. -/
structure Tracks (w : Nat) (s : List Int) (h : Histogram) : Prop where
  range  : ∀ ms ∈ s, 0 ≤ ms ∧ ms ≤ 3600000
  length : h.buckets.length = LATENCY_BUCKETS
  count  : h.totalCount = long w s.length
  exact  : s.length < 2 ^ (w - 1) → Exact s h

theorem sum_range {s : List Int} (range : ∀ ms ∈ s, 0 ≤ ms ∧ ms ≤ 3600000) :
    0 ≤ s.sum ∧ s.sum ≤ s.length * 3600000 := by
  induction s with
  | nil => simp
  | cons ms s ih =>
      have here := range ms List.mem_cons_self
      have rest := ih fun ms member => range ms (List.mem_cons_of_mem _ member)
      simp only [List.sum_cons, List.length_cons, Nat.cast_add, Nat.cast_one]
      omega

theorem tracks_initial (w : Nat) : Tracks w [] .initial := by
  refine ⟨by simp, rfl, by simp [Histogram.initial, long], fun _ => ?_⟩
  refine ⟨?_, rfl, rfl, rfl, rfl, by decide, rfl⟩
  intro ix inside
  rw [latencyBucketCount_eq _ inside]
  simp [Histogram.initial, List.getD_eq_getElem?_getD, inside]

section Record

variable {w : Nat} {s : List Int} {h : Histogram} {ms : Int}

theorem Exact.minMs (e : Exact s h) {m : Int} (least : s.min? = some m) : h.minMs = m := by
  have count := e.count
  have min := e.min
  have some : s ≠ [] := by
    rintro rfl
    cases least
  have positive : 0 < s.length := List.length_pos_of_ne_nil some
  simp only [Histogram.latencyCount] at count
  rw [Histogram.latencyMin, if_pos (by omega), least] at min
  exact min

theorem Exact.sumHigh (e : Exact s h) (range : ∀ ms ∈ s, 0 ≤ ms ∧ ms ≤ 3600000) :
    0 ≤ h.sumHigh ∧ h.sumHigh ≤ s.length := by
  have bounds := sum_range range
  have low := e.low
  have sum := e.sum
  simp only [Histogram.latencySumMs, SUM_ROLLOVER] at low sum
  omega

/-- A count that has not reached the number of samples is not wrapped by one more. -/
theorem count_fits (wide : 32 ≤ w) (fits : s.length + 1 < 2 ^ (w - 1)) {n : Int} (low : 0 ≤ n)
    (small : n ≤ s.length) : long w (n + 1) = n + 1 :=
  long_of_range wide (by omega) (by omega)

/-- Recording without a wrap. -/
theorem latencyRecord_fits (wide : 32 ≤ w) (tracks : Tracks w s h) (low : 0 ≤ ms)
    (high : ms ≤ 3600000) (fits : s.length + 1 < 2 ^ (w - 1)) {delayMs : UInt32}
    (same : long w delayMs.toNat = ms) :
    latencyRecord w delayMs h =
      { buckets := h.buckets.modify (bucketOf ms) fun count => long w (count + 1)
        minMs := if h.totalCount = 0 ∨ ms < h.minMs then ms else h.minMs
        maxMs := if ms > h.maxMs then ms else h.maxMs
        sumLow := if h.sumLow + ms ≥ SUM_ROLLOVER then h.sumLow + ms - SUM_ROLLOVER
          else h.sumLow + ms
        sumHigh := if h.sumLow + ms ≥ SUM_ROLLOVER then h.sumHigh + 1 else h.sumHigh
        totalCount := h.totalCount + 1 } := by
  have e := tracks.exact (by omega)
  have large := two_pow_le wide
  have accepted : accepts ms = true := by simp [accepts]; omega
  have counted : h.totalCount = s.length := e.count
  have sumHigh := e.sumHigh tracks.range
  have sumLow := e.low
  simp only [SUM_ROLLOVER] at sumLow
  have added : long w (h.sumLow + ms) = h.sumLow + ms :=
    long_of_range wide (by omega) (by omega)
  rw [latencyRecord]
  simp only [same, accepted, added, count_fits wide fits sumHigh.1 sumHigh.2, counted,
    count_fits wide fits (Int.natCast_nonneg _) (le_refl _), Bool.not_true, Bool.false_eq_true,
    if_false]
  by_cases rolls : h.sumLow + ms ≥ SUM_ROLLOVER
  · simp only [if_pos rolls]
    rw [long_of_range wide (by omega) (by simp only [SUM_ROLLOVER]; omega)]
  · simp only [if_neg rolls]

/-! Each counter on its own. -/

theorem Exact.bucket_cons (e : Exact s h) (length : h.buckets.length = LATENCY_BUCKETS)
    (wide : 32 ≤ w) (fits : s.length + 1 < 2 ^ (w - 1)) {ix : Nat} (inside : ix < LATENCY_BUCKETS) :
    (h.buckets.modify (bucketOf ms) fun count => long w (count + 1)).getD ix 0 =
      ((ms :: s).countP fun ms => InBucket ix ms : Nat) := by
  have before := e.buckets ix inside
  rw [latencyBucketCount_eq _ inside] at before
  rw [getD_modify _ _ (by rw [length]; exact inside), before, List.countP_cons]
  have size := List.countP_le_length (p := fun ms => decide (InBucket ix ms)) (l := s)
  by_cases here : bucketOf ms = ix
  · rw [if_pos here, count_fits wide fits (Int.natCast_nonneg _) (by omega), if_pos]
    · push_cast
      rfl
    · exact decide_eq_true ((inBucket_iff inside ms).2 here.symm)
  · rw [if_neg here, if_neg, Nat.add_zero]
    exact fun found => here ((inBucket_iff inside ms).1 (of_decide_eq_true found)).symm

theorem Exact.total_cons (e : Exact s h) (length : h.buckets.length = LATENCY_BUCKETS)
    (wide : 32 ≤ w) (fits : s.length + 1 < 2 ^ (w - 1)) :
    (h.buckets.modify (bucketOf ms) fun count => long w (count + 1)).sum = h.totalCount + 1 := by
  have inside := bucketOf_lt ms
  have before := e.buckets _ inside
  have total := e.total
  have size := List.countP_le_length (p := fun m => decide (InBucket (bucketOf ms) m)) (l := s)
  rw [latencyBucketCount_eq _ inside] at before
  rw [sum_modify _ _ (by rw [length]; exact inside), before,
    count_fits wide fits (Int.natCast_nonneg _) (by omega), total]
  simp only [Histogram.latencyCount]
  omega

theorem Exact.min_cons (e : Exact s h) :
    (if h.totalCount = 0 ∨ ms < h.minMs then ms else h.minMs) = (ms :: s).min?.getD 0 := by
  have counted : h.totalCount = s.length := e.count
  rw [List.min?_cons]
  cases least : s.min? with
  | none =>
      rw [List.min?_eq_none_iff] at least
      rw [counted, least]
      simp
  | some m =>
      have nonempty : h.totalCount ≠ 0 := by
        rw [counted]
        intro zero
        rw [List.length_eq_zero_iff.1 (by omega : s.length = 0)] at least
        cases least
      rw [e.minMs least]
      simp only [nonempty, false_or, Option.elim_some, Option.getD_some, min_def]
      split <;> split <;> omega

theorem Exact.max_cons (e : Exact s h) (low : 0 ≤ ms) :
    (if ms > h.maxMs then ms else h.maxMs) = (ms :: s).max?.getD 0 := by
  have max := e.max
  rw [List.max?_cons]
  simp only [Histogram.latencyMax] at max
  cases greatest : s.max? with
  | none =>
      rw [greatest] at max
      simp only [Option.getD_none, Option.elim_none, Option.getD_some] at max ⊢
      split <;> omega
  | some m =>
      rw [greatest] at max
      simp only [Option.getD_some, Option.elim_some, max_def] at max ⊢
      split <;> split <;> omega

/-- **The step lemma.**  A recorded delay keeps the counters exact as long as they fit. -/
theorem record_exact (wide : 32 ≤ w) (tracks : Tracks w s h) (low : 0 ≤ ms) (high : ms ≤ 3600000)
    (fits : s.length + 1 < 2 ^ (w - 1)) {delayMs : UInt32} (same : long w delayMs.toNat = ms) :
    Exact (ms :: s) (latencyRecord w delayMs h) := by
  have e := tracks.exact (by omega)
  have counted : h.totalCount = s.length := e.count
  have sumLow := e.low
  have sum := e.sum
  simp only [SUM_ROLLOVER] at sumLow
  rw [latencyRecord_fits wide tracks low high fits same]
  refine ⟨?_, e.total_cons tracks.length wide fits, ?_, ?_, e.max_cons low, ?_, ?_⟩
  · intro ix inside
    rw [latencyBucketCount_eq _ inside]
    exact e.bucket_cons tracks.length wide fits inside
  · show h.totalCount + 1 = ((ms :: s).length : Int)
    rw [counted, List.length_cons]
    push_cast
    rfl
  · show (if h.totalCount + 1 ≠ 0 then _ else _) = _
    rw [if_pos (by omega)]
    exact e.min_cons
  · by_cases rolls : h.sumLow + ms ≥ SUM_ROLLOVER
    · simp only [if_pos rolls]
      simp only [SUM_ROLLOVER] at rolls ⊢
      omega
    · simp only [if_neg rolls]
      simp only [SUM_ROLLOVER] at rolls ⊢
      omega
  · by_cases rolls : h.sumLow + ms ≥ SUM_ROLLOVER
    · simp only [Histogram.latencySumMs, if_pos rolls, List.sum_cons]
      simp only [Histogram.latencySumMs, SUM_ROLLOVER] at sum ⊢
      omega
    · simp only [Histogram.latencySumMs, if_neg rolls, List.sum_cons]
      simp only [Histogram.latencySumMs] at sum
      omega

end Record

theorem tracks_step {w : Nat} (wide : 32 ≤ w) (s : List Int) (h : Histogram) (event : Event)
    (tracks : Tracks w s h) :
    Tracks w (samples.step s event) ((histogram w).step h event) := by
  cases event with
  | reset => exact tracks_initial w
  | record delayMs =>
      have guarded := accepts_iff wide delayMs
      show Tracks w (if _ then _ else _) (latencyRecord w delayMs h)
      by_cases small : delayMs.toNat ≤ 3600000
      · have large := two_pow_le wide
        have same : long w delayMs.toNat = delayMs.toNat :=
          long_of_range wide (by omega) (by omega)
        rw [if_pos small]
        refine ⟨?_, ?_, ?_, ?_⟩
        · intro ms member
          rcases List.mem_cons.1 member with rfl | old
          · omega
          · exact tracks.range ms old
        · rw [latencyRecord]
          simp [guarded.2 small, tracks.length]
        · rw [latencyRecord]
          simp only [guarded.2 small, Bool.not_true, Bool.false_eq_true, if_false]
          rw [tracks.count, long_succ, List.length_cons]
        · intro fits
          exact record_exact wide tracks (by omega) (by omega) fits same
      · rw [if_neg small]
        have refused : accepts (long w delayMs.toNat) = false := by
          simpa using fun h => small (guarded.1 h)
        rw [latencyRecord]
        simpa [refused] using tracks

/-! ## Specification -/

/-- The samples of a run of equal delays. -/
theorem samples_replicate (n : Nat) :
    (samples.run [] (List.replicate n (.record 0))).length = n := by
  have more (s : List Int) :
      (samples.run s (List.replicate n (.record 0))).length = s.length + n := by
    induction n generalizing s with
    | zero => rfl
    | succ n ih =>
        rw [List.replicate_succ, Machine.run_cons, ih]
        show (0 :: s : List Int).length + n = _
        simp only [List.length_cons]
        omega
  simpa using more []

/-- **When the histogram is exact.**  After any events the counters are those of the
samples, as long as the number of these fits a `LONG`. -/
theorem latency_exact_iff (w : Nat) (wide : 32 ≤ w) (events : List Event) :
    Exact (samples.run [] events) ((histogram w).run .initial events) ↔
      (samples.run [] events).length < 2 ^ (w - 1) := by
  have tracks : Tracks w (samples.run [] events) ((histogram w).run .initial events) :=
    samples.run_simulates (histogram w) (tracks_step wide) events (tracks_initial w)
  constructor
  · intro e
    have counted : ((histogram w).run .initial events).totalCount = _ := e.count
    have below := long_lt wide ((samples.run [] events).length)
    rw [← tracks.count, counted] at below
    exact Int.ofNat_lt.1 below
  · exact tracks.exact

theorem latency_exact_iff_windows :
    32 ≤ 32 ∧ Exact (samples.run [] [.record 7, .record 40]) ((histogram 32).run .initial
      [.record 7, .record 40]) :=
  ⟨le_refl _, (latency_exact_iff 32 (le_refl _) [.record 7, .record 40]).2 (by decide)⟩

/-- `2 ^ 31` delays of 0 ms are more than a 32-bit `LONG` counts. -/
theorem latency_overflows :
    ¬∀ events : List Event,
      Exact (samples.run [] events) ((histogram 32).run .initial events) := by
  intro claim
  -- any number of delays from `2 ^ 31` to `2 ^ 32` will do; a numeral would be unfolded
  obtain ⟨n, many, fewer⟩ : ∃ n : Nat, 2 ^ 31 ≤ n ∧ n < 2 ^ 32 := ⟨2 ^ 31, by decide, by decide⟩
  have e := claim (List.replicate n (.record 0))
  have tracks := samples.run_simulates (histogram 32) (tracks_step (le_refl 32))
    (List.replicate n (.record 0)) (tracks_initial 32)
  have counted : ((histogram 32).run .initial (List.replicate n (.record 0))).totalCount =
    ((samples.run [] (List.replicate n (.record 0))).length : Int) := e.count
  rw [tracks.count, samples_replicate] at counted
  have below := long_lt (le_refl 32) n
  rw [counted] at below
  omega

end Clumsy.Stats
