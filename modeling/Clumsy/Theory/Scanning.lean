/-
# Theory.Scanning -- runs of a class of characters

A scanner takes the longest run of a class.  If the class ends where a word does, the
scanner takes the word and leaves what is behind it.
-/
import Mathlib

namespace Clumsy.Theory

set_option autoImplicit false

variable {α : Type*} {p : α → Bool} {w s : List α}

/-- The class ends here: `s` is empty or starts with something else. -/
def Stops (p : α → Bool) (s : List α) : Prop := ∀ c ∈ s.head?, p c = false

@[simp] theorem stops_nil : Stops p [] := by simp [Stops]

@[simp] theorem stops_cons {c : α} : Stops p (c :: s) ↔ p c = false := by simp [Stops]

theorem takeWhile_run (inside : ∀ x ∈ w, p x = true) (stops : Stops p s) :
    (w ++ s).takeWhile p = w := by
  rw [List.takeWhile_append_of_pos inside]
  cases s with
  | nil => simp
  | cons c s => rw [List.takeWhile_cons_of_neg (by simp [stops c rfl]), List.append_nil]

theorem dropWhile_run (inside : ∀ x ∈ w, p x = true) (stops : Stops p s) :
    (w ++ s).dropWhile p = s := by
  rw [List.dropWhile_append_of_pos inside]
  cases s with
  | nil => rfl
  | cons c s => rw [List.dropWhile_cons_of_neg (by simp [stops c rfl])]

theorem stops_dropWhile (p : α → Bool) (s : List α) : Stops p (s.dropWhile p) := by
  induction s with
  | nil => exact stops_nil
  | cons c s ih =>
      cases inside : p c with
      | true =>
          rw [List.dropWhile_cons_of_pos inside]
          exact ih
      | false =>
          rw [List.dropWhile_cons_of_neg (by simp [inside])]
          exact stops_cons.2 inside

end Clumsy.Theory
