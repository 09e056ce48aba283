/-
# Theory.Journal -- undoing a recorded sequence of changes

A journal records changes in the order they were made.  Where every change can be
undone right after it was made, undoing the journal from its end restores the state
it started from (`undo_replay`), however long it is.
-/
import Mathlib

namespace Clumsy.Theory.Journal

set_option autoImplicit false

universe u v

variable {State : Type u} {Entry : Type v}

/-- Make the changes of a journal. -/
def replay (apply : Entry → State → State) (journal : List Entry) (s : State) : State :=
  journal.foldl (fun s e => apply e s) s

@[simp] theorem replay_nil (apply : Entry → State → State) (s : State) : replay apply [] s = s :=
  rfl

theorem replay_snoc (apply : Entry → State → State) (journal : List Entry) (e : Entry)
    (s : State) : replay apply (journal ++ [e]) s = apply e (replay apply journal s) := by
  simp [replay]

/-- **Undoing from the end restores the start.** -/
theorem undo_replay {apply undo : Entry → State → State}
    (inverse : ∀ e s, undo e (apply e s) = s) (journal : List Entry) (s : State) :
    replay undo journal.reverse (replay apply journal s) = s := by
  induction journal using List.reverseRecOn with
  | nil => rfl
  | append_singleton journal e ih =>
      rw [replay_snoc, List.reverse_append, List.reverse_singleton]
      simp only [replay, List.singleton_append, List.foldl_cons, inverse]
      exact ih

end Clumsy.Theory.Journal
