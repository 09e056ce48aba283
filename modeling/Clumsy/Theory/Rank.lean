/-
# Theory.Rank -- the k-th smallest element and how many are no larger

`smallest xs k` is the `k`-th element of a list in order, counted from one.  A property that
passes down the order has it exactly when `k` elements of the list have the property
(`smallest_iff`), so ranks can be read off counts.
-/
import Mathlib

namespace Clumsy.Theory

set_option autoImplicit false

variable {α : Type*} [LinearOrder α]

/-- The `k`-th smallest element, counted from one. -/
def smallest (xs : List α) (k : Nat) : Option α := (xs.mergeSort (· ≤ ·))[k - 1]?

theorem mergeSort_sorted (xs : List α) : (xs.mergeSort (· ≤ ·)).Pairwise (· ≤ ·) := by
  have sorted := @List.pairwise_mergeSort α (fun a b => decide (a ≤ b))
    (fun a b c => by simpa using le_trans) (fun a b => by simpa using le_total a b) xs
  simpa using sorted

theorem exists_smallest {xs : List α} {k : Nat} (positive : 0 < k) (inside : k ≤ xs.length) :
    ∃ a, smallest xs k = some a := by
  have room : k - 1 < (xs.mergeSort (· ≤ ·)).length := by
    rw [List.length_mergeSort]
    omega
  exact ⟨_, List.getElem?_eq_getElem room⟩

/-- How many elements of a sorted list have a property that passes down the order. -/
theorem sorted_countP_iff {P : α → Prop} [DecidablePred P] (down : ∀ a b, a ≤ b → P b → P a)
    {xs : List α} (sorted : xs.Pairwise (· ≤ ·)) {j : Nat} {a : α} (found : xs[j]? = some a) :
    P a ↔ j < xs.countP fun x => P x := by
  induction xs generalizing j with
  | nil => simp at found
  | cons x xs ih =>
      have least : ∀ b ∈ xs, x ≤ b := fun b member => List.rel_of_pairwise_cons sorted member
      -- once the property fails at the head it fails everywhere
      have none (fails : ¬P x) : xs.countP (fun x => P x) = 0 := by
        rw [List.countP_eq_zero]
        intro b member
        have later : ¬P b := fun has => fails (down x b (least b member) has)
        simpa using later
      rw [List.countP_cons]
      cases j with
      | zero =>
          obtain rfl : x = a := by simpa using found
          by_cases has : P x
          · simp [has]
          · simp [has, none has]
      | succ j =>
          have rest := ih sorted.of_cons (by simpa using found)
          by_cases has : P x
          · rw [rest]
            simp [has]
          · have member : a ∈ xs := List.mem_of_getElem? (by simpa using found)
            have fails : ¬P a := fun later => has (down x a (least a member) later)
            simp [has, fails, none has]

/-- **Ranks are counts.** -/
theorem smallest_iff {P : α → Prop} [DecidablePred P] (down : ∀ a b, a ≤ b → P b → P a)
    {xs : List α} {k : Nat} {a : α} (positive : 0 < k) (found : smallest xs k = some a) :
    P a ↔ k ≤ xs.countP fun x => P x := by
  rw [sorted_countP_iff down (mergeSort_sorted xs) found, (List.mergeSort_perm xs _).countP_eq]
  omega

end Clumsy.Theory
