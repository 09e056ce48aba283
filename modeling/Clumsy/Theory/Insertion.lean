/-
# Theory.Insertion -- insertion from the back

An element goes behind the last one whose key is not larger.  Inserting the elements of a
list one by one sorts it and leaves elements of one key in their order: the sort is
stable.
-/
import Mathlib

namespace Clumsy.Theory

set_option autoImplicit false

variable {α κ : Type*} [LinearOrder κ] (key : α → κ)

/-- `x` behind the last element whose key is not larger. -/
def insertBack (sorted : List α) (x : α) : List α :=
  sorted.rdropWhile (fun y => decide (key x < key y)) ++ x ::
    sorted.rtakeWhile (fun y => decide (key x < key y))

def sortBack (xs : List α) : List α := xs.foldl (insertBack key) []

@[simp] theorem sortBack_nil : sortBack key [] = [] := rfl

@[simp] theorem sortBack_concat (xs : List α) (x : α) :
    sortBack key (xs ++ [x]) = insertBack key (sortBack key xs) x := by
  rw [sortBack, List.foldl_append]
  rfl

theorem insertBack_perm (sorted : List α) (x : α) :
    (insertBack key sorted x).Perm (x :: sorted) := by
  refine List.perm_middle.trans (.of_eq ?_)
  rw [List.rdropWhile_append_rtakeWhile]

theorem sortBack_perm (xs : List α) : (sortBack key xs).Perm xs := by
  induction xs using List.reverseRecOn with
  | nil => exact .refl _
  | append_singleton xs x ih =>
      rw [sortBack_concat]
      exact (insertBack_perm key _ x).trans
        ((ih.cons x).trans (List.perm_append_singleton x xs).symm)

/-- What stays in front is not larger. -/
theorem le_of_mem_front {sorted : List α} (x : α)
    (ordered : sorted.Pairwise fun a b => key a ≤ key b) :
    ∀ y ∈ sorted.rdropWhile (fun y => decide (key x < key y)), key y ≤ key x := by
  intro y inFront
  have nonempty := List.ne_nil_of_mem inFront
  have last := List.rdropWhile_last_not _ _ nonempty
  rw [decide_eq_true_eq, not_lt] at last
  have front := ordered.sublist
    (List.rdropWhile_prefix (fun y => decide (key x < key y)) sorted).sublist
  rw [← List.dropLast_append_getLast nonempty] at front inFront
  rcases List.mem_append.1 inFront with early | final
  · have step := (List.pairwise_append.1 front).2.2 y early _ (List.mem_singleton_self _)
    exact step.trans last
  · rw [List.mem_singleton.1 final]
    exact last

theorem lt_of_mem_back (sorted : List α) (x : α) :
    ∀ y ∈ sorted.rtakeWhile (fun y => decide (key x < key y)), key x < key y := by
  intro y inBack
  simpa using List.mem_rtakeWhile_imp inBack

theorem insertBack_ordered {sorted : List α} (x : α)
    (ordered : sorted.Pairwise fun a b => key a ≤ key b) :
    (insertBack key sorted x).Pairwise fun a b => key a ≤ key b := by
  have front := le_of_mem_front key x ordered
  have back := lt_of_mem_back key sorted x
  refine List.pairwise_append.2 ⟨?_, List.pairwise_cons.2 ⟨?_, ?_⟩, ?_⟩
  · exact ordered.sublist (List.rdropWhile_prefix _ sorted).sublist
  · intro y inBack
    exact (back y inBack).le
  · exact ordered.sublist (List.rtakeWhile_suffix _ sorted).sublist
  · intro a inFront b behind
    rcases List.mem_cons.1 behind with rfl | inBack
    · exact front a inFront
    · exact (front a inFront).trans (back b inBack).le

theorem sortBack_ordered (xs : List α) :
    (sortBack key xs).Pairwise fun a b => key a ≤ key b := by
  induction xs using List.reverseRecOn with
  | nil => exact .nil
  | append_singleton xs x ih =>
      rw [sortBack_concat]
      exact insertBack_ordered key x ih

/-- An element goes behind all others of its key. -/
theorem filter_insertBack (sorted : List α) (x : α) (k : κ) :
    (insertBack key sorted x).filter (fun y => key y = k) =
      (sorted ++ [x]).filter (fun y => key y = k) := by
  have back := lt_of_mem_back key sorted x
  have split : sorted.rdropWhile (fun y => decide (key x < key y)) ++
      sorted.rtakeWhile (fun y => decide (key x < key y)) = sorted :=
    List.rdropWhile_append_rtakeWhile
  rw [insertBack]
  conv_rhs => rw [← split]
  simp only [List.filter_append, List.filter_cons, List.filter_nil, List.append_assoc]
  by_cases same : key x = k
  · have none : (sorted.rtakeWhile (fun y => decide (key x < key y))).filter
        (fun y => key y = k) = [] := by
      rw [List.filter_eq_nil_iff]
      intro y inBack equal
      exact (back y inBack).ne (same.trans (of_decide_eq_true equal).symm)
    rw [none, if_pos (decide_eq_true same), List.nil_append]
  · rw [if_neg (by simpa using same), if_neg (by simpa using same), List.append_nil]

/-- The sort is stable. -/
theorem filter_sortBack (xs : List α) (k : κ) :
    (sortBack key xs).filter (fun y => key y = k) = xs.filter (fun y => key y = k) := by
  induction xs using List.reverseRecOn with
  | nil => rfl
  | append_singleton xs x ih =>
      rw [sortBack_concat, filter_insertBack, List.filter_append, List.filter_append, ih]

end Clumsy.Theory
