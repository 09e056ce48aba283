/-
# Theory.Shuffle -- swap loops and the orders they reach

`shuffleBy js` runs a Fisher-Yates loop with its choices given: for `i` down to 1
it swaps entry `i` with entry `j`, the next choice.  A choice sequence is
`Choosable` if each `j` is at most its `i`.

`shuffleBy_bijOn`: on an array of distinct entries, the choosable sequences of
the right length and the rearrangements of the array correspond one to one.  Both
halves look at the last entry a swap settles: the loop never touches it again, so
the choice can be read off the result, and it can be chosen to put any entry there.
-/
import Mathlib

namespace Clumsy.Theory

set_option autoImplicit false

universe u

variable {α : Type u}

/-- Swap entry `i` with the next choice, for `i` from the number of choices down
to 1. -/
def shuffleBy : List Nat → Array α → Array α
  | [], arr => arr
  | j :: js, arr => shuffleBy js (arr.swapIfInBounds (js.length + 1) j)

/-- Every choice is at most the index it is swapped with. -/
def Choosable : List Nat → Prop
  | [] => True
  | j :: js => j ≤ js.length + 1 ∧ Choosable js

/-! ## One swap -/

section Swap

variable (arr : Array α) {i j : Nat}

theorem swapIfInBounds_perm (i j : Nat) : (arr.swapIfInBounds i j).toList.Perm arr.toList := by
  unfold Array.swapIfInBounds
  split
  · split
    · exact (Array.swap_perm _ _).toList
    · exact List.Perm.refl _
  · exact List.Perm.refl _

theorem swapIfInBounds_at (inside : i < arr.size) (below : j ≤ i) :
    (arr.swapIfInBounds i j)[i]? = arr[j]? := by
  have lower : j < arr.size := lt_of_le_of_lt below inside
  simp only [Array.swapIfInBounds, inside, lower, dif_pos]
  rw [Array.getElem?_swap]
  grind

theorem swapIfInBounds_above {k : Nat} (below : j ≤ i) (above : i < k) :
    (arr.swapIfInBounds i j)[k]? = arr[k]? := by
  unfold Array.swapIfInBounds
  split
  · split
    · rw [Array.getElem?_swap]
      grind
    · rfl
  · rfl

end Swap

/-! ## The loop -/

theorem shuffleBy_perm (js : List Nat) (arr : Array α) :
    (shuffleBy js arr).toList.Perm arr.toList := by
  induction js generalizing arr with
  | nil => exact List.Perm.refl _
  | cons j js ih => exact (ih _).trans (swapIfInBounds_perm arr _ _)

/-- Entries above the number of choices stay where they are. -/
theorem shuffleBy_above {js : List Nat} (fits : Choosable js) (arr : Array α) {k : Nat}
    (above : js.length < k) : (shuffleBy js arr)[k]? = arr[k]? := by
  induction js generalizing arr with
  | nil => rfl
  | cons j js ih =>
      rw [List.length_cons] at above
      rw [shuffleBy, ih fits.2 _ (by omega), swapIfInBounds_above _ fits.1 above]

theorem shuffleBy_map {γ : Type*} (f : α → γ) (js : List Nat) (arr : Array α) :
    shuffleBy js (arr.map f) = (shuffleBy js arr).map f := by
  induction js generalizing arr with
  | nil => rfl
  | cons j js ih =>
      have once : (arr.map f).swapIfInBounds (js.length + 1) j =
          (arr.swapIfInBounds (js.length + 1) j).map f := by
        apply Array.ext_getElem?
        intro k
        unfold Array.swapIfInBounds
        simp only [Array.size_map]
        split
        · split
          · simp only [Array.getElem?_swap, Array.getElem?_map, Array.getElem_map]
            grind
          · rfl
        · rfl
      rw [shuffleBy, shuffleBy, once, ih]

/-! ## Every order from one choice sequence -/

/-- The entry the first swap settles tells the choice. -/
theorem shuffleBy_settled {j : Nat} {js : List Nat} (fits : Choosable (j :: js)) {arr : Array α}
    (room : js.length + 1 < arr.size) :
    (shuffleBy (j :: js) arr)[js.length + 1]? = arr[j]? := by
  rw [shuffleBy, shuffleBy_above fits.2 _ (Nat.lt_succ_self _), swapIfInBounds_at _ room fits.1]

theorem getElem?_inj_of_nodup {arr : Array α} (distinct : arr.toList.Nodup) {i j : Nat}
    (inside : i < arr.size) (same : arr[i]? = arr[j]?) : i = j := by
  rw [← Array.getElem?_toList, ← Array.getElem?_toList] at same
  exact (List.getElem?_inj (by simpa using inside) distinct).1 same

theorem shuffleBy_injective {js js' : List Nat} (fits : Choosable js) (fits' : Choosable js')
    (long : js.length = js'.length) {arr : Array α} (room : js.length < arr.size)
    (distinct : arr.toList.Nodup) (same : shuffleBy js arr = shuffleBy js' arr) : js = js' := by
  induction js generalizing js' arr with
  | nil => exact (List.eq_nil_of_length_eq_zero long.symm).symm
  | cons j js ih =>
      cases js' with
      | nil => exact absurd long (Nat.succ_ne_zero _)
      | cons j' js' =>
          have tails : js.length = js'.length := Nat.succ.inj long
          rw [List.length_cons] at room
          have settled := shuffleBy_settled fits room
          rw [same, tails, shuffleBy_settled fits' (tails ▸ room)] at settled
          obtain rfl : j' = j :=
            getElem?_inj_of_nodup distinct (by have := fits'.1; omega) settled
          have rest : (arr.swapIfInBounds (js.length + 1) j').toList.Nodup :=
            (swapIfInBounds_perm arr _ _).nodup_iff.2 distinct
          have shorter : shuffleBy js (arr.swapIfInBounds (js.length + 1) j') =
              shuffleBy js' (arr.swapIfInBounds (js.length + 1) j') := by
            rwa [shuffleBy, shuffleBy, ← tails] at same
          rw [ih fits.2 fits'.2 tails (by simp; omega) rest shorter]

/-- Where the rearrangement `t` agrees with `arr` above `k`, its entry at `k` comes
from a place of `arr` not above `k`. -/
theorem settled_from_below {arr t : Array α} (distinct : arr.toList.Nodup)
    (perm : t.toList.Perm arr.toList) {k : Nat} (inside : k < arr.size)
    (agree : ∀ i, k < i → t[i]? = arr[i]?) : ∃ j ≤ k, arr[j]? = t[k]? := by
  have sizes : t.size = arr.size := by simpa using perm.length_eq
  have member : t[k] ∈ arr.toList := perm.mem_iff.1 (by simp)
  obtain ⟨j, here⟩ := List.getElem?_of_mem member
  rw [Array.getElem?_toList] at here
  refine ⟨j, ?_, by rw [here, Array.getElem?_eq_getElem]⟩
  by_contra above
  have twice : t[k]? = t[j]? := by
    rw [agree j (not_le.1 above), here, Array.getElem?_eq_getElem]
  have := getElem?_inj_of_nodup (perm.nodup_iff.2 distinct) (by omega) twice
  omega

theorem shuffleBy_surjective (k : Nat) {arr t : Array α} (distinct : arr.toList.Nodup)
    (perm : t.toList.Perm arr.toList) (room : k < arr.size)
    (agree : ∀ i, k < i → t[i]? = arr[i]?) :
    ∃ js, js.length = k ∧ Choosable js ∧ shuffleBy js arr = t := by
  induction k generalizing arr with
  | zero =>
      refine ⟨[], rfl, trivial, Array.ext_getElem? fun i => ?_⟩
      cases i with
      | zero =>
          obtain ⟨j, below, here⟩ := settled_from_below distinct perm room agree
          obtain rfl : j = 0 := Nat.le_zero.1 below
          exact here
      | succ i => exact (agree (i + 1) (Nat.succ_pos i)).symm
  | succ k ih =>
      obtain ⟨j, below, here⟩ := settled_from_below distinct perm room agree
      have swapped := swapIfInBounds_perm arr (k + 1) j
      have agrees : ∀ i, k < i → t[i]? = (arr.swapIfInBounds (k + 1) j)[i]? := by
        intro i above
        by_cases settled : i = k + 1
        · rw [settled, swapIfInBounds_at _ room below, here]
        · have higher : k + 1 < i := by omega
          rw [swapIfInBounds_above _ below higher, agree i higher]
      obtain ⟨js, long, fits, reached⟩ := ih (swapped.nodup_iff.2 distinct)
        (perm.trans swapped.symm) (by simp; omega) agrees
      refine ⟨j :: js, by rw [List.length_cons, long], ⟨by omega, fits⟩, ?_⟩
      rw [shuffleBy, long, reached]

/-- **Unbiased.**  Over distinct entries, choice sequences and orders correspond
one to one. -/
theorem shuffleBy_bijOn (arr : Array α) (distinct : arr.toList.Nodup) :
    Set.BijOn (fun js => (shuffleBy js arr).toList)
      {js | js.length = arr.size - 1 ∧ Choosable js} {order | order.Perm arr.toList} := by
  refine ⟨fun js _ => shuffleBy_perm js arr, ?_, ?_⟩
  · rintro js ⟨long, fits⟩ js' ⟨long', fits'⟩ same
    have same : shuffleBy js arr = shuffleBy js' arr := Array.toList_inj.1 same
    cases js with
    | nil => exact (List.eq_nil_of_length_eq_zero (long'.trans long.symm)).symm
    | cons j js =>
        rw [List.length_cons] at long
        exact shuffleBy_injective fits fits' (by rw [List.length_cons, long, long'])
          (by rw [List.length_cons]; omega) distinct same
  · intro order perm
    have sizes : order.length = arr.size := by simpa using perm.length_eq
    by_cases empty : arr.size = 0
    · refine ⟨[], ⟨by simp [empty], trivial⟩, ?_⟩
      have nothing : arr.toList = [] := List.eq_nil_of_length_eq_zero (by simpa using empty)
      have perm : order.Perm arr.toList := perm
      rw [nothing] at perm
      show arr.toList = order
      rw [nothing, perm.eq_nil]
    · obtain ⟨js, long, fits, reached⟩ :=
        @shuffleBy_surjective _ (arr.size - 1) arr order.toArray distinct perm (by omega) (by
          intro i above
          rw [Array.getElem?_eq_none (by simp; omega), Array.getElem?_eq_none (by omega)])
      exact ⟨js, ⟨long, fits⟩, by simp [reached]⟩

/-- A list of distinct elements has as many orders as `n!`. -/
theorem orders_ncard {as : List α} (distinct : as.Nodup) :
    {order : List α | order.Perm as}.ncard = as.length.factorial := by
  classical
  have same : {order : List α | order.Perm as} = (as.permutations.toFinset : Set (List α)) := by
    ext order
    simp [List.mem_permutations]
  rw [same, Set.ncard_coe_finset, List.toFinset_card_of_nodup (List.nodup_permutations as distinct),
    List.length_permutations]

end Clumsy.Theory
