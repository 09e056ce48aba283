/-
# Theory.Memory -- a block of cells that is read and written in place

A block is the list of its cells.  `load`, `store` and `copy` fail outside it, so a run
that succeeds has touched nothing else; none of them changes the block's length.

A writer that fills a block from the front has written `out` so far: the block is then
`filled out block`, the cells behind `out` are as they were, and the next `store` or `copy`
there appends (`store_filled`, `copy_filled`).
-/
import Mathlib

namespace Clumsy.Theory.Memory

set_option autoImplicit false

universe u

variable {α : Type u}

/-- The cell at `i`. -/
def load (block : List α) (i : Nat) : Option α := block[i]?

/-- One cell written. -/
def store (block : List α) (i : Nat) (x : α) : Option (List α) :=
  if i < block.length then some (block.set i x) else none

/-- A run of cells written from `i` on. -/
def copy (block : List α) (i : Nat) (xs : List α) : Option (List α) :=
  if i + xs.length ≤ block.length then
    some (block.take i ++ xs ++ block.drop (i + xs.length))
  else none

theorem store_of_lt {block : List α} {i : Nat} (inside : i < block.length) (x : α) :
    store block i x = some (block.set i x) := if_pos inside

/-! ## Filling from the front -/

/-- `block` after its first `out.length` cells were written. -/
def filled (out block : List α) : List α := out ++ block.drop out.length

@[simp] theorem filled_nil (block : List α) : filled [] block = block := rfl

theorem length_filled {out block : List α} (room : out.length ≤ block.length) :
    (filled out block).length = block.length := by
  simp only [filled, List.length_append, List.length_drop]
  omega

/-- What is written over the end of the filled part replaces it. -/
theorem copy_over {out last xs block : List α} (longer : last.length ≤ xs.length)
    (room : out.length + xs.length ≤ block.length) :
    copy (filled (out ++ last) block) out.length xs = some (filled (out ++ xs) block) := by
  have inside : out.length + xs.length ≤ (filled (out ++ last) block).length := by
    rw [length_filled (by rw [List.length_append]; omega)]
    exact room
  have rest : out.length + last.length + (xs.length - last.length) = out.length + xs.length := by
    omega
  rw [copy, if_pos inside]
  simp [filled, List.drop_append, List.drop_eq_nil_of_le longer, rest]

theorem copy_filled {out block xs : List α} (room : out.length + xs.length ≤ block.length) :
    copy (filled out block) out.length xs = some (filled (out ++ xs) block) := by
  have written := @copy_over α out [] xs block (Nat.zero_le _) room
  rwa [List.append_nil] at written

theorem store_filled {out block : List α} (room : out.length < block.length) (x : α) :
    store (filled out block) out.length x = some (filled (out ++ [x]) block) := by
  have inside : out.length < (filled out block).length := by
    rw [length_filled (by omega)]
    exact room
  rw [store_of_lt inside]
  simp only [filled, List.set_append_right _ _ (Nat.le_refl _), Nat.sub_self,
    List.drop_eq_getElem_cons room, List.set_cons_zero, List.length_append, List.length_singleton,
    List.append_assoc, List.singleton_append]

end Clumsy.Theory.Memory
