/-
# Stats.Percentile -- latency.cpp: percentiles out of the histogram

`latencyPercentile` walks the buckets up to the one that holds the requested rank and
interpolates between its edges, narrowed to the extremes.  Doubles are read as the rationals
they stand for.

`Found s t i` says which bucket that is in terms of the recorded delays: the rank falls
behind those below the bucket and not behind those in it.  Everything follows from it and
from the order of the edges: the estimate grows with the rank, stays between the extremes,
meets them at 0 and 100, and lies in the bucket of the delay it estimates
(`latencyPercentile_sound`).
-/
import Clumsy.Stats.Latency
import Clumsy.Theory.Rank

namespace Clumsy.Stats

open Clumsy.Theory

set_option autoImplicit false

/-! ## latency.cpp -/

/-- The lower edge of a bucket, narrowed to the least delay. -/
def lowerEdge (lowest : Int) (i : Nat) : ℚ :=
  let lo : ℚ := if i = 0 then 0 else bucketUpper.getD (i - 1) 0
  if lo < lowest then lowest else lo

/-- The upper edge, narrowed to the greatest delay; the last bucket has no other. -/
def upperEdge (lowest highest : Int) (i : Nat) : ℚ :=
  let hi : ℚ := if bucketUpper.getD i 0 ≠ 0 then bucketUpper.getD i 0 else highest
  let hi := if hi > highest then (highest : ℚ) else hi
  if hi < lowerEdge lowest i then lowerEdge lowest i else hi

/-- How far into its bucket a rank is. -/
def fraction (target cumulative count : ℚ) : ℚ :=
  let frac := (target - cumulative) / count
  let frac := if frac < 0 then 0 else frac
  if frac > 1 then 1 else frac

def interpolate (lowest highest : Int) (i : Nat) (target cumulative count : ℚ) : ℚ :=
  lowerEdge lowest i + fraction target cumulative count *
    (upperEdge lowest highest i - lowerEdge lowest i)

/-- The walk from bucket `i` on. -/
def percentileWalk (lowest highest : Int) (target : ℚ) : Nat → ℚ → List Int → ℚ
  | _, _, [] => highest
  | i, cumulative, bucket :: buckets =>
      let count : ℚ := bucket
      if count ≤ 0 then percentileWalk lowest highest target (i + 1) cumulative buckets
      else if cumulative + count ≥ target then
        interpolate lowest highest i target cumulative count
      else percentileWalk lowest highest target (i + 1) (cumulative + count) buckets

def Histogram.latencyPercentile (h : Histogram) (pct : ℚ) : ℚ :=
  let pct := if pct < 0 then 0 else pct
  let pct := if pct > 100 then 100 else pct
  if h.totalCount ≤ 0 then 0
  else
    percentileWalk h.minMs h.maxMs (h.totalCount * pct / 100) 0 0 h.buckets

/-! ## The walk -/

/-- The walk stops at the first bucket that reaches the rank. -/
theorem percentileWalk_stops (lowest highest : Int) (target : ℚ) {buckets : List Int}
    (nonneg : ∀ count ∈ buckets, 0 ≤ count) (i : Nat) (cumulative : ℚ)
    (reaches : target ≤ cumulative + buckets.sum) (some_ : 0 < buckets.sum) :
    ∃ j < buckets.length, 0 < buckets.getD j 0 ∧
      target ≤ cumulative + (buckets.take (j + 1)).sum ∧
      (cumulative + (buckets.take j).sum < target ∨ (buckets.take j).sum = 0) ∧
      percentileWalk lowest highest target i cumulative buckets =
        interpolate lowest highest (i + j) target (cumulative + (buckets.take j).sum)
          (buckets.getD j 0) := by
  induction buckets generalizing i cumulative with
  | nil => simp at some_
  | cons count buckets ih =>
      have here := nonneg count List.mem_cons_self
      have later : ∀ count ∈ buckets, 0 ≤ count :=
        fun count member => nonneg count (List.mem_cons_of_mem _ member)
      rw [List.sum_cons] at reaches some_
      rw [Int.cast_add] at reaches
      rw [percentileWalk]
      by_cases empty : count = 0
      · subst empty
        obtain ⟨j, inside, full, upto, behind, walk⟩ := ih later (i + 1) cumulative
          (by simpa using reaches) (by simpa using some_)
        refine ⟨j + 1, by simpa using inside, by simpa using full, by simpa using upto,
          by simpa using behind, ?_⟩
        simp only [Int.cast_zero, le_refl, if_true]
        rw [walk]
        simp [Nat.add_assoc, Nat.add_comm 1 j]
      · have positive : (0 : ℚ) < count := by exact_mod_cast lt_of_le_of_ne here (Ne.symm empty)
        rw [if_neg (not_le.2 positive)]
        by_cases stops : cumulative + count ≥ target
        · rw [if_pos stops]
          exact ⟨0, by simp, by simpa using (by exact_mod_cast positive : (0 : Int) < count),
            by simpa using stops, .inr (by simp), by simp⟩
        · rw [if_neg stops]
          rw [ge_iff_le, not_le] at stops
          have more : (0 : ℚ) < buckets.sum := by linarith
          obtain ⟨j, inside, full, upto, behind, walk⟩ := ih later (i + 1) (cumulative + count)
            (by linarith) (by exact_mod_cast more)
          refine ⟨j + 1, by simpa using inside, by simpa using full, ?_, ?_, ?_⟩
          · rw [List.take_succ_cons, List.sum_cons, Int.cast_add]
            linarith
          · left
            rw [List.take_succ_cons, List.sum_cons, Int.cast_add]
            rcases behind with before | nothing
            · linarith
            · rw [nothing, Int.cast_zero]
              linarith
          · rw [walk, List.take_succ_cons, List.sum_cons, List.getD_cons_succ, Int.cast_add,
              Nat.add_assoc, Nat.add_comm 1 j, add_assoc]

/-! ## Which bucket it is -/

/-- How many delays are in the buckets before the `i`-th. -/
def below (s : List Int) (i : Nat) : Nat := s.countP fun ms => bucketOf ms < i

/-- The rank `t` falls into bucket `i`. -/
structure Found (s : List Int) (t : ℚ) (i : Nat) : Prop where
  inside  : i < LATENCY_BUCKETS
  full    : below s i < below s (i + 1)
  reaches : t ≤ below s (i + 1)
  first   : (below s i : ℚ) < t ∨ below s i = 0

section Below

variable {s : List Int}

theorem below_mono {i j : Nat} (le : i ≤ j) : below s i ≤ below s j :=
  List.countP_mono_left fun ms _ here => by
    simp only [decide_eq_true_eq] at here ⊢
    omega

theorem below_succ {i : Nat} (inside : i < LATENCY_BUCKETS) :
    below s (i + 1) = below s i + s.countP fun ms => InBucket i ms := by
  induction s with
  | nil => rfl
  | cons ms s ih =>
      simp only [below, List.countP_cons, inBucket_iff inside, decide_eq_true_eq] at ih ⊢
      split_ifs <;> omega

theorem bucketOf_mono {a b : Int} (le : a ≤ b) : bucketOf a ≤ bucketOf b := by
  by_contra less
  have inside := bucketOf_lt a
  simp only [LATENCY_BUCKETS] at inside
  have above : bucketUpper.getD (bucketOf a - 1) 0 < a :=
    (inBucket_bucketOf a).1.resolve_left (by omega)
  have beneath : b ≤ bucketUpper.getD (bucketOf b) 0 :=
    (inBucket_bucketOf b).2.resolve_left (by simp only [LATENCY_BUCKETS]; omega)
  have mono := bucketUpper_mono (bucketOf a - 1) (by simp only [LATENCY_BUCKETS]; omega)
    (bucketOf b) (by omega)
  omega

theorem exists_of_full {i : Nat} (full : below s i < below s (i + 1)) :
    ∃ ms ∈ s, bucketOf ms = i := by
  by_contra none
  have same : below s (i + 1) = below s i := by
    refine List.countP_congr fun ms member => ?_
    have other : bucketOf ms ≠ i := fun here => none ⟨ms, member, here⟩
    simp only [decide_eq_true_eq]
    omega
  omega

end Below

/-! ## Edges -/

/-- Where a bucket begins. -/
def lowerOf (i : Nat) : Int := if i = 0 then 0 else bucketUpper.getD (i - 1) 0

/-- A value in the closed interval of a bucket. -/
def InClosed (i : Nat) (v : ℚ) : Prop :=
  (lowerOf i : ℚ) ≤ v ∧ (i = LATENCY_BUCKETS - 1 ∨ v ≤ (bucketUpper.getD i 0 : Int))

theorem bucketUpper_open : ∀ i < LATENCY_BUCKETS,
    (bucketUpper.getD i 0 = 0 ↔ i = LATENCY_BUCKETS - 1) := by
  decide

/-- What the edges of an occupied bucket are between. -/
structure Edges (least greatest : Int) (i : Nat) : Prop where
  ordered : lowerEdge least i ≤ upperEdge least greatest i
  lower   : (lowerOf i : ℚ) ≤ lowerEdge least i ∧ (least : ℚ) ≤ lowerEdge least i
  upper   : upperEdge least greatest i ≤ (greatest : ℚ) ∧
    (i = LATENCY_BUCKETS - 1 ∨ upperEdge least greatest i ≤ (bucketUpper.getD i 0 : Int))

theorem lowerEdge_eq (least : Int) (i : Nat) :
    lowerEdge least i = ((max (lowerOf i) least : Int) : ℚ) := by
  simp only [lowerEdge, lowerOf, max_def]
  split_ifs <;> first | rfl | (push_cast; norm_cast at *; omega)

/-- The edges stand around every delay of the bucket. -/
theorem edges_of_mem {least greatest ms : Int} {i : Nat} (inside : i < LATENCY_BUCKETS)
    (member : InBucket i ms) (nonneg : 0 ≤ ms) (low : least ≤ ms) (high : ms ≤ greatest) :
    Edges least greatest i ∧ lowerEdge least i ≤ ms ∧ (ms : ℚ) ≤ upperEdge least greatest i := by
  have start : lowerOf i ≤ ms := by
    unfold lowerOf
    split
    · exact nonneg
    · exact le_of_lt (member.1.resolve_left ‹_›)
  have lower : lowerEdge least i ≤ ms := by
    rw [lowerEdge_eq]
    exact_mod_cast max_le start low
  have high' : (ms : ℚ) ≤ greatest := by exact_mod_cast high
  have upper : (ms : ℚ) ≤ upperEdge least greatest i ∧
      upperEdge least greatest i ≤ (greatest : ℚ) ∧
      (i = LATENCY_BUCKETS - 1 ∨ upperEdge least greatest i ≤ (bucketUpper.getD i 0 : Int)) := by
    have unbounded := bucketUpper_open i inside
    have bound := member.2
    unfold upperEdge
    simp only
    generalize bucketUpper.getD i 0 = upper at *
    by_cases last : i = LATENCY_BUCKETS - 1
    · rw [if_neg (not_not.2 (unbounded.2 last)), if_neg (lt_irrefl _), if_neg (by linarith)]
      exact ⟨high', le_refl _, .inl last⟩
    · have bound' : (ms : ℚ) ≤ upper := by exact_mod_cast bound.resolve_left last
      rw [if_pos fun zero => last (unbounded.1 zero)]
      by_cases wide : (upper : ℚ) > greatest
      · rw [if_pos wide, if_neg (by linarith)]
        exact ⟨high', le_refl _, .inr (le_of_lt wide)⟩
      · rw [if_neg wide, if_neg (by linarith)]
        exact ⟨bound', not_lt.1 wide, .inr (le_refl _)⟩
  refine ⟨⟨lower.trans upper.1, ?_, upper.2⟩, lower, upper.1⟩
  rw [lowerEdge_eq]
  exact ⟨by exact_mod_cast le_max_left _ _, by exact_mod_cast le_max_right _ _⟩

/-- One bucket ends where the next one begins. -/
theorem edges_ordered {least greatest : Int} {i j : Nat} (before : i < j)
    (inside : j < LATENCY_BUCKETS) (here : Edges least greatest i)
    (there : Edges least greatest j) :
    upperEdge least greatest i ≤ lowerEdge least j := by
  simp only [LATENCY_BUCKETS] at inside
  have bounded := here.upper.2.resolve_left (by simp only [LATENCY_BUCKETS]; omega)
  have mono := bucketUpper_mono (j - 1) (by simp only [LATENCY_BUCKETS]; omega) i (by omega)
  have start := there.lower.1
  rw [lowerOf, if_neg (by omega)] at start
  have mono' : ((bucketUpper.getD i 0 : Int) : ℚ) ≤ (bucketUpper.getD (j - 1) 0 : Int) := by
    exact_mod_cast mono
  linarith

/-! ## Interpolation -/

section Interpolate

variable {target cumulative count : ℚ}

theorem fraction_mem (target cumulative count : ℚ) :
    0 ≤ fraction target cumulative count ∧ fraction target cumulative count ≤ 1 := by
  simp only [fraction]
  split_ifs <;> constructor <;> linarith

theorem fraction_mono (cumulative : ℚ) {target' : ℚ} (le : target ≤ target')
    (positive : 0 < count) :
    fraction target cumulative count ≤ fraction target' cumulative count := by
  have grows : (target - cumulative) / count ≤ (target' - cumulative) / count := by
    gcongr
  simp only [fraction]
  split_ifs <;> linarith

theorem interpolate_mem {least greatest : Int} {i : Nat} (e : Edges least greatest i)
    (target cumulative count : ℚ) :
    lowerEdge least i ≤ interpolate least greatest i target cumulative count ∧
      interpolate least greatest i target cumulative count ≤ upperEdge least greatest i := by
  obtain ⟨low, high⟩ := fraction_mem target cumulative count
  have ordered := e.ordered
  unfold interpolate
  constructor <;> nlinarith

theorem interpolate_mono {least greatest : Int} {i : Nat} (e : Edges least greatest i)
    {target' : ℚ} (le : target ≤ target') (positive : 0 < count) :
    interpolate least greatest i target cumulative count ≤
      interpolate least greatest i target' cumulative count := by
  have grows := fraction_mono cumulative le positive
  have ordered := e.ordered
  unfold interpolate
  nlinarith

end Interpolate

/-! ## The estimate -/

/-- The estimate for the rank `t` in bucket `i`. -/
def estimate (s : List Int) (h : Histogram) (t : ℚ) (i : Nat) : ℚ :=
  interpolate h.minMs h.maxMs i t (below s i) (below s (i + 1) - below s i)

section Estimate

variable {w : Nat} {s : List Int} {h : Histogram}

theorem take_sum (tracks : Tracks w s h) (e : Exact s h) {i : Nat} (inside : i ≤ LATENCY_BUCKETS) :
    (h.buckets.take i).sum = below s i := by
  induction i with
  | zero => simp [below]
  | succ i ih =>
      have here : i < h.buckets.length := by rw [tracks.length]; omega
      have count := e.buckets i (by omega)
      rw [latencyBucketCount_eq _ (by omega), List.getD_eq_getElem _ _ here] at count
      rw [List.take_succ_eq_append_getElem here, List.sum_append, ih (by omega), List.sum_singleton,
        count, below_succ (by omega)]
      push_cast
      rfl

/-- **The estimate is that of the bucket the rank falls into.** -/
theorem latencyPercentile_found (tracks : Tracks w s h) (e : Exact s h) (some_ : s ≠ []) {p : ℚ}
    (low : 0 ≤ p) (high : p ≤ 100) :
    ∃ i, Found s (s.length * p / 100) i ∧
      h.latencyPercentile p = estimate s h (s.length * p / 100) i := by
  have positive : 0 < s.length := List.length_pos_of_ne_nil some_
  have counted : h.totalCount = s.length := e.count
  have total : h.buckets.sum = s.length := by
    rw [e.total]
    exact e.count
  have nonneg : ∀ count ∈ h.buckets, 0 ≤ count := by
    intro count member
    obtain ⟨i, inside, rfl⟩ := List.getElem_of_mem member
    have exact_ := e.buckets i (by rw [← tracks.length]; exact inside)
    rw [latencyBucketCount_eq _ (by rw [← tracks.length]; exact inside),
      List.getD_eq_getElem _ _ inside] at exact_
    omega
  have fits : (s.length : ℚ) * p / 100 ≤ 0 + (h.buckets.sum : Int) := by
    have length : (0 : ℚ) ≤ s.length := Nat.cast_nonneg _
    rw [total, Int.cast_natCast]
    nlinarith
  obtain ⟨i, inside, full, upto, behind, walk⟩ := percentileWalk_stops h.minMs h.maxMs
    (s.length * p / 100) nonneg 0 0 fits (by omega)
  rw [tracks.length] at inside
  rw [take_sum tracks e (Nat.succ_le_of_lt inside)] at upto
  rw [take_sum tracks e (Nat.le_of_lt inside)] at behind walk
  have count := e.buckets i inside
  rw [latencyBucketCount_eq _ inside] at count
  have more := below_succ (s := s) inside
  rw [count] at full walk
  refine ⟨i, ⟨inside, by omega, by simpa using upto, ?_⟩, ?_⟩
  · rcases behind with before | nothing
    · exact .inl (by simpa using before)
    · exact .inr (by exact_mod_cast nothing)
  · rw [Histogram.latencyPercentile, if_neg (not_lt.2 low), if_neg (not_lt.2 high),
      if_neg (by omega), counted, Int.cast_natCast, walk, estimate, more]
    push_cast
    simp only [zero_add, add_sub_cancel_left]

theorem extremes (e : Exact s h) (some_ : s ≠ []) :
    (h.minMs ∈ s ∧ ∀ ms ∈ s, h.minMs ≤ ms) ∧ (h.maxMs ∈ s ∧ ∀ ms ∈ s, ms ≤ h.maxMs) := by
  obtain ⟨least, min⟩ := Option.isSome_iff_exists.1 (List.isSome_min?_of_ne_nil some_)
  obtain ⟨greatest, max⟩ := Option.isSome_iff_exists.1 (List.isSome_max?_of_ne_nil some_)
  have maxMs := e.max
  rw [max, Option.getD_some, Histogram.latencyMax] at maxMs
  rw [e.minMs min, maxMs]
  exact ⟨List.min?_eq_some_iff.1 min, List.max?_eq_some_iff.1 max⟩

/-- The edges of a bucket around a delay in it. -/
theorem edges_of_bucket (tracks : Tracks w s h) (e : Exact s h) {ms : Int} (member : ms ∈ s) :
    Edges h.minMs h.maxMs (bucketOf ms) ∧ lowerEdge h.minMs (bucketOf ms) ≤ ms ∧
      (ms : ℚ) ≤ upperEdge h.minMs h.maxMs (bucketOf ms) := by
  obtain ⟨min, max⟩ := extremes e (List.ne_nil_of_mem member)
  exact edges_of_mem (bucketOf_lt ms) (inBucket_bucketOf ms) (tracks.range ms member).1
    (min.2 ms member) (max.2 ms member)

theorem Found.edges {t : ℚ} {i : Nat} (found : Found s t i) (tracks : Tracks w s h)
    (e : Exact s h) : Edges h.minMs h.maxMs i := by
  obtain ⟨ms, member, rfl⟩ := exists_of_full found.full
  exact (edges_of_bucket tracks e member).1

theorem Found.positive {t : ℚ} {i : Nat} (found : Found s t i) :
    (0 : ℚ) < below s (i + 1) - below s i := by
  have full : (below s i : ℚ) < below s (i + 1) := by exact_mod_cast found.full
  linarith

theorem estimate_mono (tracks : Tracks w s h) (e : Exact s h) {t t' : ℚ} {i i' : Nat}
    (found : Found s t i) (found' : Found s t' i') (le : t ≤ t') :
    estimate s h t i ≤ estimate s h t' i' := by
  have edges := found.edges tracks e
  have edges' := found'.edges tracks e
  rcases Nat.lt_trichotomy i i' with before | rfl | behind
  · calc estimate s h t i ≤ upperEdge h.minMs h.maxMs i := (interpolate_mem edges _ _ _).2
      _ ≤ lowerEdge h.minMs i' := edges_ordered before found'.inside edges edges'
      _ ≤ estimate s h t' i' := (interpolate_mem edges' _ _ _).1
  · exact interpolate_mono edges le found.positive
  · -- the later bucket would start behind the greater rank
    have mono : below s (i' + 1) ≤ below s i := below_mono behind
    have reached : (below s (i' + 1) : ℚ) ≤ below s i := by exact_mod_cast mono
    have reaches := found'.reaches
    have full := found'.full
    rcases found.first with first | nothing
    · linarith
    · omega

/-- The estimate for nothing is the least delay. -/
theorem estimate_zero (tracks : Tracks w s h) (e : Exact s h) {i : Nat} (found : Found s 0 i) :
    estimate s h 0 i = h.minMs := by
  obtain ⟨ms, member, here⟩ := exists_of_full found.full
  have min := (extremes e (List.ne_nil_of_mem member)).1
  have nothing : below s i = 0 := by
    rcases found.first with first | nothing
    · have nonneg : (0 : ℚ) ≤ below s i := Nat.cast_nonneg _
      linarith
    · exact nothing
  have bucket : bucketOf h.minMs = i := by
    have low : ¬bucketOf h.minMs < i := by
      have none := List.countP_eq_zero.1 nothing h.minMs min.1
      simpa using none
    have high := bucketOf_mono (min.2 ms member)
    omega
  have edges := edges_of_bucket tracks e min.1
  rw [bucket] at edges
  have start : fraction 0 (below s i) (below s (i + 1) - below s i) = 0 := by
    simp [fraction, nothing]
  rw [estimate, interpolate, start, zero_mul, add_zero]
  exact le_antisymm edges.2.1 edges.1.lower.2

/-- The estimate for all is the greatest delay. -/
theorem estimate_length (tracks : Tracks w s h) (e : Exact s h) {i : Nat}
    (found : Found s s.length i) : estimate s h s.length i = h.maxMs := by
  obtain ⟨ms, member, here⟩ := exists_of_full found.full
  have max := (extremes e (List.ne_nil_of_mem member)).2
  have all : below s (i + 1) = s.length := by
    have reaches : s.length ≤ below s (i + 1) := by exact_mod_cast found.reaches
    exact le_antisymm List.countP_le_length reaches
  have bucket : bucketOf h.maxMs = i := by
    have high := List.countP_eq_length.1 all h.maxMs max.1
    have low := bucketOf_mono (max.2 ms member)
    simp only [decide_eq_true_eq] at high
    omega
  have edges := edges_of_bucket tracks e max.1
  rw [bucket] at edges
  have positive := found.positive
  have stop : fraction s.length (below s i) (below s (i + 1) - below s i) = 1 := by
    rw [all] at positive ⊢
    simp [fraction, div_self positive.ne']
  rw [estimate, interpolate, stop, one_mul, add_sub_cancel]
  exact le_antisymm edges.1.upper.1 edges.2.2

/-- **The bucket is the one of the delay with that rank.** -/
theorem Found.bucket {t : ℚ} {i : Nat} (found : Found s t i) (positive : 0 < t) {ms : Int}
    (ranked : smallest s ⌈t⌉₊ = some ms) : bucketOf ms = i := by
  have rank (j : Nat) : bucketOf ms < j ↔ ⌈t⌉₊ ≤ below s j :=
    smallest_iff (P := fun ms => bucketOf ms < j)
      (fun a b le less => lt_of_le_of_lt (bucketOf_mono le) less) (Nat.ceil_pos.2 positive) ranked
  have upto := (rank (i + 1)).2 (Nat.ceil_le.2 found.reaches)
  have behind : ¬bucketOf ms < i := by
    rw [rank, not_le]
    rcases found.first with first | nothing
    · exact Nat.lt_ceil.2 first
    · rw [nothing]
      exact Nat.ceil_pos.2 positive
  omega

end Estimate

/-! ## Specification -/

instance (i : Nat) (v : ℚ) : Decidable (InClosed i v) := inferInstanceAs (Decidable (_ ∧ _))

/-- **Percentiles.**  Over the delays of any run, as long as a `LONG` counts them, the
estimate grows with the percentage, is the least delay at 0 and the greatest at 100, lies
between them, and in the bucket of the delay it stands for. -/
theorem latencyPercentile_sound (w : Nat) (wide : 32 ≤ w) (events : List Event)
    (some_ : samples.run [] events ≠ []) (fits : (samples.run [] events).length < 2 ^ (w - 1)) :
    ((histogram w).run .initial events).latencyPercentile 0 =
        (((samples.run [] events).min?.getD 0 : Int) : ℚ) ∧
      ((histogram w).run .initial events).latencyPercentile 100 =
        (((samples.run [] events).max?.getD 0 : Int) : ℚ) ∧
      (∀ p q, 0 ≤ p → p ≤ q → q ≤ 100 →
        ((histogram w).run .initial events).latencyPercentile p ≤
          ((histogram w).run .initial events).latencyPercentile q) ∧
      (∀ p, 0 ≤ p → p ≤ 100 →
        (((samples.run [] events).min?.getD 0 : Int) : ℚ) ≤
            ((histogram w).run .initial events).latencyPercentile p ∧
          ((histogram w).run .initial events).latencyPercentile p ≤
            (((samples.run [] events).max?.getD 0 : Int) : ℚ)) ∧
      (∀ p, 0 < p → p ≤ 100 →
        (smallest (samples.run [] events) ⌈((samples.run [] events).length * p / 100 : ℚ)⌉₊).elim
          False fun ms =>
            InClosed (bucketOf ms) (((histogram w).run .initial events).latencyPercentile p)) := by
  have tracks : Tracks w (samples.run [] events) ((histogram w).run .initial events) :=
    samples.run_simulates (histogram w) (tracks_step wide) events (tracks_initial w)
  have e := tracks.exact fits
  generalize samples.run [] events = s at *
  generalize (histogram w).run .initial events = h at *
  have min : ((s.min?.getD 0 : Int) : ℚ) = h.minMs := by
    rw [List.min?_eq_some_iff.2 (extremes e some_).1, Option.getD_some]
  have max : ((s.max?.getD 0 : Int) : ℚ) = h.maxMs := by
    rw [List.max?_eq_some_iff.2 (extremes e some_).2, Option.getD_some]
  rw [min, max]
  refine ⟨?_, ?_, ?_, ?_, ?_⟩
  · obtain ⟨i, found, value⟩ := latencyPercentile_found tracks e some_ (le_refl 0) (by norm_num)
    have nothing : (s.length : ℚ) * 0 / 100 = 0 := by simp
    rw [nothing] at found value
    rw [value, estimate_zero tracks e found]
  · obtain ⟨i, found, value⟩ := latencyPercentile_found tracks e some_
      (show (0 : ℚ) ≤ 100 by norm_num) (le_refl 100)
    have all : (s.length : ℚ) * 100 / 100 = s.length := by ring
    rw [all] at found value
    rw [value, estimate_length tracks e found]
  · intro p q low le high
    obtain ⟨i, found, value⟩ := latencyPercentile_found tracks e some_ low (le.trans high)
    obtain ⟨i', found', value'⟩ := latencyPercentile_found tracks e some_ (low.trans le) high
    rw [value, value']
    exact estimate_mono tracks e found found' (by gcongr)
  · intro p low high
    obtain ⟨i, found, value⟩ := latencyPercentile_found tracks e some_ low high
    have edges := found.edges tracks e
    obtain ⟨above, beneath⟩ := interpolate_mem edges (s.length * p / 100) (below s i)
      (below s (i + 1) - below s i)
    rw [value]
    exact ⟨edges.lower.2.trans above, beneath.trans edges.upper.1⟩
  · intro p positive high
    obtain ⟨i, found, value⟩ := latencyPercentile_found tracks e some_ positive.le high
    have edges := found.edges tracks e
    obtain ⟨above, beneath⟩ := interpolate_mem edges (s.length * p / 100) (below s i)
      (below s (i + 1) - below s i)
    have length : (0 : ℚ) < s.length := by exact_mod_cast List.length_pos_of_ne_nil some_
    have rank : 0 < (s.length : ℚ) * p / 100 := by positivity
    have inside : ⌈(s.length * p / 100 : ℚ)⌉₊ ≤ s.length := by
      apply Nat.ceil_le.2
      nlinarith
    obtain ⟨ms, ranked⟩ := exists_smallest (Nat.ceil_pos.2 rank) inside
    rw [ranked, Option.elim_some, found.bucket rank ranked, value]
    exact ⟨edges.lower.1.trans above, edges.upper.2.imp_right beneath.trans⟩

theorem latencyPercentile_sound_two :
    32 ≤ 32 ∧ samples.run [] [.record 7, .record 40] ≠ [] ∧
      ((histogram 32).run .initial [.record 7, .record 40]).latencyPercentile 100 = 40 :=
  ⟨le_refl _, by decide, (latencyPercentile_sound 32 (le_refl _) [.record 7, .record 40]
    (by decide) (by decide)).2.1⟩

theorem samples_sevens (n : Nat) (s : List Int) :
    samples.run s (List.replicate n (.record 7)) = List.replicate n 7 ++ s := by
  induction n generalizing s with
  | zero => rfl
  | succ n ih =>
      rw [List.replicate_succ, Machine.run_cons, ih, List.replicate_succ', List.append_assoc]
      rfl

/-- `2 ^ 31` delays of 7 ms: the count of a 32-bit `LONG` is negative, and the least delay
comes out as 0. -/
theorem latencyPercentile_overflows :
    ¬∀ events : List Event, samples.run [] events ≠ [] →
      ((histogram 32).run .initial events).latencyPercentile 0 =
        (((samples.run [] events).min?.getD 0 : Int) : ℚ) := by
  intro claim
  -- any number of delays from `2 ^ 31` to `2 ^ 32` will do; a numeral would be unfolded
  obtain ⟨n, many, fewer⟩ : ∃ n : Nat, 2 ^ 31 ≤ n ∧ n < 2 ^ 32 := ⟨2 ^ 31, by decide, by decide⟩
  have recorded : samples.run [] (List.replicate n (.record 7)) = List.replicate n 7 := by
    rw [samples_sevens, List.append_nil]
  have tracks := samples.run_simulates (histogram 32) (tracks_step (le_refl 32))
    (List.replicate n (.record 7)) (tracks_initial 32)
  have value := claim (List.replicate n (.record 7)) (by
    rw [recorded, ← List.length_pos_iff, List.length_replicate]
    omega)
  have count := tracks.count
  rw [recorded, List.length_replicate] at count
  rw [recorded, List.min?_replicate_of_pos (by omega), Option.getD_some,
    Histogram.latencyPercentile, if_pos] at value
  · norm_num at value
  · have negative := long_negative (w := 32) (v := n) (le_refl 32) (by omega) (by omega)
    omega

end Clumsy.Stats
