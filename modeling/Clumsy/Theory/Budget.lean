/-
# Theory.Budget -- what is granted and what is spent

Grants add to a balance, and every chance to spend is taken as long as there is a
balance.  Then over a run no more is spent than granted (`spent_le_granted`), and as many
chances after the last grant as there were grants use all of them up
(`spent_eq_granted`).  Stated over an arbitrary machine, whose events may grant, or offer
any number of chances, or do neither.
-/
import Clumsy.Theory.Run

namespace Clumsy.Theory

set_option autoImplicit false

universe u v

/-- A balance kept by the admissible steps of a machine. -/
structure Budget {State : Type u} {Event : Type v} (M : Machine State Event)
    (Inv : State → Prop) where
  balance : State → Nat
  granted : State → Event → Nat
  spent   : State → Event → Nat
  /-- The chances to spend. -/
  offered : State → Event → Nat
  preserved : ∀ s e, Inv s → M.admits s e → Inv (M.step s e)
  books : ∀ s e, Inv s → M.admits s e →
    balance (M.step s e) + spent s e = balance s + granted s e
  spends : ∀ s e, Inv s → M.admits s e → granted s e = 0 →
    spent s e = min (balance s) (offered s e)

namespace Budget

variable {State : Type u} {Event : Type v} {M : Machine State Event} {Inv : State → Prop}
  (B : Budget M Inv)

/-- **The books of a run.** -/
theorem balanced (es : List Event) {s : State} (inv : Inv s) (admissible : M.Admissible s es) :
    B.balance (M.run s es) + (M.outputs B.spent s es).sum =
      B.balance s + (M.outputs B.granted s es).sum := by
  induction es generalizing s with
  | nil => rfl
  | cons e es ih =>
      have here := B.books s e inv admissible.1
      have rest := ih (B.preserved s e inv admissible.1) admissible.2
      simp only [Machine.run_cons, Machine.outputs, List.sum_cons]
      omega

/-- Without grants the balance is spent as far as there are chances. -/
theorem drains (es : List Event) {s : State} (inv : Inv s) (admissible : M.Admissible s es)
    (none : (M.outputs B.granted s es).sum = 0) :
    (M.outputs B.spent s es).sum = min (B.balance s) (M.outputs B.offered s es).sum := by
  induction es generalizing s with
  | nil => simp [Machine.outputs]
  | cons e es ih =>
      simp only [Machine.outputs, List.sum_cons, Nat.add_eq_zero_iff] at none
      have here := B.books s e inv admissible.1
      have taken := B.spends s e inv admissible.1 none.1
      have rest := ih (B.preserved s e inv admissible.1) admissible.2 none.2
      simp only [Machine.outputs, List.sum_cons]
      omega

/-- **Within the budget.** -/
theorem spent_le_granted (es : List Event) {s : State} (inv : Inv s)
    (admissible : M.Admissible s es) (empty : B.balance s = 0) :
    (M.outputs B.spent s es).sum ≤ (M.outputs B.granted s es).sum := by
  have books := B.balanced es inv admissible
  omega

/-- **The budget is used up** once there were as many chances after the last grant as
there were grants. -/
theorem spent_eq_granted (before after : List Event) {s : State} (inv : Inv s)
    (admissible : M.Admissible s (before ++ after)) (empty : B.balance s = 0)
    (last : (M.outputs B.granted (M.run s before) after).sum = 0)
    (enough : (M.outputs B.granted s before).sum ≤
      (M.outputs B.offered (M.run s before) after).sum) :
    (M.outputs B.spent s (before ++ after)).sum = (M.outputs B.granted s (before ++ after)).sum := by
  obtain ⟨first, second⟩ := (M.admissible_append s before after).1 admissible
  have books := B.balanced before inv first
  have rest := B.drains after (M.run_invariant B.preserved before s inv first) second last
  rw [M.outputs_append, M.outputs_append, List.sum_append, List.sum_append, last, rest]
  omega

end Budget

end Clumsy.Theory
