/-
# Theory.TokenBucket -- a queue that leaves while tokens last

A bucket of tokens pays for elements released from the front of a queue, each at its
`cost`; `refill` fills the bucket up to a cap.  Tokens and costs are elements of any
linearly ordered group, and every sum and difference goes through `round`.

The bucket is never overdrawn if `round` keeps what is not negative (`release_nonneg`), and
the release stops at an element only because it cannot be paid (`release_short`).  Where
nothing is rounded, what is released is paid for exactly (`release_paid`).
-/
import Mathlib
import Clumsy.Theory.Sweep

namespace Clumsy.Theory.TokenBucket

set_option autoImplicit false

universe u v

variable {K : Type u} [AddCommGroup K] [LinearOrder K] {α : Type v}

/-- The tokens left after paying for one element, if they suffice. -/
def spend (round : K → K) (cost : α → K) (tokens : K) (a : α) : Option K :=
  if tokens ≥ cost a then some (round (tokens - cost a)) else none

/-- Add `gain` to the bucket, up to `cap`. -/
def refill (round : K → K) (cap gain tokens : K) : K :=
  if round (tokens + gain) > cap then cap else round (tokens + gain)

section Refill

variable {round : K → K} {cap gain tokens : K}

theorem refill_le_sum : refill round cap gain tokens ≤ round (tokens + gain) := by
  unfold refill
  split
  · exact le_of_lt ‹_›
  · exact le_refl _

theorem refill_le_cap : refill round cap gain tokens ≤ cap := by
  unfold refill
  split
  · exact le_refl _
  · exact not_lt.1 ‹_›

theorem refill_nonneg [IsOrderedAddMonoid K] (keeps : ∀ x, 0 ≤ x → 0 ≤ round x)
    (capped : 0 ≤ cap) (fills : 0 ≤ gain) (nonneg : 0 ≤ tokens) :
    0 ≤ refill round cap gain tokens := by
  unfold refill
  split
  · exact capped
  · exact keeps _ (add_nonneg nonneg fills)

/-- What fits under the cap and is in the sum is there. -/
theorem le_refill {price : K} (fits : price ≤ cap) (filled : price ≤ round (tokens + gain)) :
    price ≤ refill round cap gain tokens := by
  unfold refill
  split
  · exact fits
  · exact filled

end Refill

section Release

variable (round : K → K) (cost : α → K)

/-- **Paid exactly.** -/
theorem release_paid (as : List α) (tokens : K) :
    (release (spend id cost) tokens as).1 +
        ((release (spend id cost) tokens as).2.1.map cost).sum = tokens := by
  induction as generalizing tokens with
  | nil => simp [release]
  | cons a as ih =>
      by_cases enough : tokens ≥ cost a
      · have here : spend id cost tokens a = some (tokens - cost a) := if_pos enough
        have rest := ih (tokens - cost a)
        simp only [release, here, List.map_cons, List.sum_cons]
        rw [add_left_comm, rest]
        exact add_sub_cancel _ _
      · have here : spend id cost tokens a = none := if_neg enough
        simp [release, here]

theorem release_nonneg [IsOrderedAddMonoid K] (keeps : ∀ x, 0 ≤ x → 0 ≤ round x) (as : List α)
    {tokens : K} (nonneg : 0 ≤ tokens) : 0 ≤ (release (spend round cost) tokens as).1 := by
  induction as generalizing tokens with
  | nil => exact nonneg
  | cons a as ih =>
      by_cases enough : tokens ≥ cost a
      · have here : spend round cost tokens a = some (round (tokens - cost a)) := if_pos enough
        simp only [release, here]
        exact ih (keeps _ (sub_nonneg.2 enough))
      · have here : spend round cost tokens a = none := if_neg enough
        simpa only [release, here] using nonneg

/-- Nor does it rise above a cap that `round` does not cross. -/
theorem release_le_cap [IsOrderedAddMonoid K] {cap : K} (keeps : ∀ x, x ≤ cap → round x ≤ cap)
    (priced : ∀ a, 0 ≤ cost a) (as : List α) {tokens : K} (capped : tokens ≤ cap) :
    (release (spend round cost) tokens as).1 ≤ cap := by
  induction as generalizing tokens with
  | nil => exact capped
  | cons a as ih =>
      by_cases enough : tokens ≥ cost a
      · have here : spend round cost tokens a = some (round (tokens - cost a)) := if_pos enough
        simp only [release, here]
        exact ih (keeps _ ((sub_le_self _ (priced a)).trans capped))
      · have here : spend round cost tokens a = none := if_neg enough
        simpa only [release, here] using capped

/-- The release stops at an element that is too dear. -/
theorem release_short (as : List α) (tokens : K) {a : α} {rest : List α}
    (left : (release (spend round cost) tokens as).2.2 = a :: rest) :
    (release (spend round cost) tokens as).1 < cost a := by
  induction as generalizing tokens with
  | nil => simp [release] at left
  | cons b as ih =>
      by_cases enough : tokens ≥ cost b
      · have here : spend round cost tokens b = some (round (tokens - cost b)) := if_pos enough
        simp only [release, here] at left ⊢
        exact ih _ left
      · have here : spend round cost tokens b = none := if_neg enough
        simp only [release, here] at left ⊢
        obtain ⟨rfl, -⟩ := List.cons.inj left
        exact not_le.1 enough

/-- A first element that can be paid is released. -/
theorem release_first {tokens : K} {a : α} (as : List α) (enough : cost a ≤ tokens) :
    ∃ more, (release (spend round cost) tokens (a :: as)).2.1 = a :: more := by
  have here : spend round cost tokens a = some (round (tokens - cost a)) := if_pos enough
  simp only [release, here]
  exact ⟨_, rfl⟩

end Release

end Clumsy.Theory.TokenBucket
