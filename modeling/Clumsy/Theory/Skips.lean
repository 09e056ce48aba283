/-
# Theory.Skips -- places reached by skipping gaps

A walk over `total` places that skips a gap, visits the place behind it and goes on from
the next one, until a gap leads past the end.  Whatever the gaps are, the visited places
increase and lie inside (`skips_increasing`, `skips_inside`), so there are at most `total`
of them and a round for each is enough (`skips_rounds`).

The gaps are numbers of any ordered field with integer parts; a negative one ends the walk.
-/
import Mathlib

namespace Clumsy.Theory

set_option autoImplicit false

section Skips

variable {K : Type*} [Field K] [LinearOrder K] [FloorSemiring K]

/-- The places visited from `place` on, in at most so many rounds. -/
def skips (total : Nat) : Nat → Nat → (Nat → K) → List Nat
  | 0, _, _ => []
  | rounds + 1, place, gaps =>
      if gaps 0 < 0 ∨ (total : K) ≤ gaps 0 then []
      else
        let next := place + ⌊gaps 0⌋₊
        if total ≤ next then []
        else next :: skips total rounds (next + 1) fun k => gaps (k + 1)

variable {total : Nat}

theorem skips_bounds (rounds place : Nat) (gaps : Nat → K) :
    ∀ next ∈ skips total rounds place gaps, place ≤ next ∧ next < total := by
  induction rounds generalizing place gaps with
  | zero => simp [skips]
  | succ rounds ih =>
      intro next member
      simp only [skips] at member
      split_ifs at member with out past
      · simp at member
      · simp at member
      · rcases List.mem_cons.1 member with rfl | later
        · omega
        · have bounds := ih _ _ next later
          omega

theorem skips_inside (rounds place : Nat) (gaps : Nat → K) :
    ∀ next ∈ skips total rounds place gaps, next < total :=
  fun next member => (skips_bounds rounds place gaps next member).2

theorem skips_increasing (rounds place : Nat) (gaps : Nat → K) :
    (skips total rounds place gaps).Pairwise (· < ·) := by
  induction rounds generalizing place gaps with
  | zero => simp [skips]
  | succ rounds ih =>
      simp only [skips]
      split_ifs with out past
      · exact List.Pairwise.nil
      · exact List.Pairwise.nil
      · refine List.Pairwise.cons (fun next member => ?_) (ih _ _)
        have bounds := skips_bounds _ _ _ next member
        omega

/-- Once there is a round for every place left, more rounds change nothing. -/
theorem skips_rounds {rounds rounds' place : Nat} (enough : total - place < rounds)
    (enough' : total - place < rounds') (gaps : Nat → K) :
    skips total rounds place gaps = skips total rounds' place gaps := by
  induction rounds generalizing rounds' place gaps with
  | zero => omega
  | succ rounds ih =>
      obtain ⟨more, rfl⟩ : ∃ more, rounds' = more + 1 := ⟨rounds' - 1, by omega⟩
      simp only [skips]
      split_ifs with out past
      · rfl
      · rfl
      · exact congrArg (List.cons _) (ih (by omega) (by omega) _)

end Skips

/-! ## Counting places -/

/-- Increasing places below `n` are as many as there are places below `n` among them. -/
theorem countP_mem_range {n : Nat} {places : List Nat} (increasing : places.Pairwise (· < ·))
    (inside : ∀ place ∈ places, place < n) :
    (List.range n).countP (fun place => place ∈ places) = places.length := by
  have distinct : places.Nodup := increasing.imp fun less => Nat.ne_of_lt less
  rw [List.countP_eq_length_filter]
  apply List.Perm.length_eq
  apply (List.perm_ext_iff_of_nodup (List.nodup_range.filter _) distinct).2
  intro place
  simp only [List.mem_filter, List.mem_range, decide_eq_true_eq, and_iff_right_iff_imp]
  exact inside place

theorem length_le_of_increasing {n : Nat} {places : List Nat}
    (increasing : places.Pairwise (· < ·)) (inside : ∀ place ∈ places, place < n) :
    places.length ≤ n := by
  rw [← countP_mem_range increasing inside]
  exact List.countP_le_length.trans_eq List.length_range

end Clumsy.Theory
