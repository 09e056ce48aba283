/-
# Theory.Ledger -- what was issued is settled or still pending

The accounting behind every "nothing is lost and nothing happens twice" claim:
a list of issued items is, as a multiset, the settled items together with the
pending ones (`Balanced`).  Moving items to the other side keeps the books
(`Balanced.settle`); with distinct items, an item is settled exactly once if and
only if it is no longer pending (`settled_once_iff`).

Nothing here knows about packets.
-/
import Mathlib

namespace Clumsy.Theory

set_option autoImplicit false

universe u

variable {ι : Type u}

/-- The books balance: everything issued is settled or pending, nothing else is,
and with the same multiplicity. -/
def Balanced (issued settled pending : List ι) : Prop :=
  issued.Perm (settled ++ pending)

namespace Balanced

variable {issued settled pending : List ι}

theorem empty : Balanced ([] : List ι) [] [] := List.Perm.nil

/-- Items leave the pending side only by being settled. -/
theorem settle {out rest : List ι} (books : Balanced issued settled pending)
    (split : pending.Perm (out ++ rest)) : Balanced issued (settled ++ out) rest := by
  unfold Balanced at books ⊢
  rw [List.append_assoc]
  exact books.trans (split.append_left settled)

variable [DecidableEq ι]

theorem count_eq (books : Balanced issued settled pending) (i : ι) :
    issued.count i = settled.count i + pending.count i := by
  rw [List.Perm.count_eq books i, List.count_append]

/-- **Exactly once.**  With distinct items, an issued item has been settled
exactly once if and only if it is no longer pending. -/
theorem settled_once_iff (books : Balanced issued settled pending) (distinct : issued.Nodup)
    {i : ι} (member : i ∈ issued) : settled.count i = 1 ↔ i ∉ pending := by
  have once : issued.count i = 1 := List.count_eq_one_of_mem distinct member
  have split := books.count_eq i
  rw [← List.count_eq_zero]
  omega

/-- Items that were issued and never settled are all pending. -/
theorem unsettled_subset (books : Balanced issued settled pending) :
    issued.toFinset \ settled.toFinset ⊆ pending.toFinset := by
  intro i member
  rw [Finset.mem_sdiff, List.mem_toFinset, List.mem_toFinset] at member
  rcases List.mem_append.1 (books.mem_iff.1 member.1) with inSettled | inPending
  · exact absurd inSettled member.2
  · exact List.mem_toFinset.2 inPending

end Balanced

end Clumsy.Theory
