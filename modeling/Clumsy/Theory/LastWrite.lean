/-
# Theory.LastWrite -- what a sequence of assignments leaves in a register

A step of a fold may set a register and otherwise leaves it alone.  What is in it at
the end is what the last step that sets it says (`foldl_lastWrite`); the steps before
are overwritten.
-/
import Mathlib

namespace Clumsy.Theory

set_option autoImplicit false

universe u v w

variable {α : Type u} {β : Type v}

/-- What the last of the elements that write writes. -/
def lastWrite (f : α → Option β) (as : List α) : Option β := (as.filterMap f).getLast?

theorem lastWrite_append (f : α → Option β) (as bs : List α) :
    lastWrite f (as ++ bs) = (lastWrite f bs).or (lastWrite f as) := by
  rw [lastWrite, List.filterMap_append, List.getLast?_append]
  rfl

theorem lastWrite_singleton (f : α → Option β) (a : α) : lastWrite f [a] = f a := by
  cases written : f a with
  | none => simp [lastWrite, written]
  | some b => simp [lastWrite, written]

/-- What is written last is written by one of the elements. -/
theorem exists_of_lastWrite {f : α → Option β} {as : List α} {b : β}
    (last : lastWrite f as = some b) : ∃ a ∈ as, f a = some b :=
  List.mem_filterMap.1 (List.mem_of_getLast? last)

theorem lastWrite_eq_none {f : α → Option β} {as : List α} :
    lastWrite f as = none ↔ ∀ a ∈ as, f a = none := by
  rw [lastWrite, List.getLast?_eq_none_iff, List.filterMap_eq_nil_iff]

/-- Where something is written, something is written last. -/
theorem exists_lastWrite {f : α → Option β} {as : List α} {a : α} {b : β} (member : a ∈ as)
    (written : f a = some b) : ∃ c, lastWrite f as = some c := by
  cases last : lastWrite f as with
  | some c => exact ⟨c, rfl⟩
  | none =>
      rw [lastWrite_eq_none.1 last a member] at written
      cases written

/-- **The last assignment stays.** -/
theorem foldl_lastWrite {σ : Type w} {step : σ → α → σ} {get : σ → β} {f : α → Option β}
    (sets : ∀ s a, get (step s a) = (f a).getD (get s)) (as : List α) (s : σ) :
    get (as.foldl step s) = (lastWrite f as).getD (get s) := by
  induction as using List.reverseRecOn with
  | nil => rfl
  | append_singleton as a ih =>
      rw [List.foldl_append, List.foldl_cons, List.foldl_nil, sets, ih, lastWrite_append,
        lastWrite_singleton]
      cases f a <;> rfl

end Clumsy.Theory
