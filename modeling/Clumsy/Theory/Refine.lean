/-
# Theory.Refine -- one machine inside another

A concrete machine refines an abstract one if every concrete step is some steps of the
abstract one, often none: a thread that waits, looks at a flag or takes a lock does nothing
that the abstract machine can see.  Then a whole concrete run is the abstract run of what its
events emitted, one after the other (`Refines.run`).

A rank that some events lower and none raises bounds how often those events happen
(`countP_le_rank`).
-/
import Clumsy.Theory.Run

namespace Clumsy.Theory

set_option autoImplicit false

universe u v

section Refines

variable {S T : Type u} {E F : Type v}

/-- Every step from a state in order is the abstract run of what it emits. -/
structure Refines (M : Machine S E) (N : Machine T F) (Inv : S → Prop) (abs : S → T)
    (emit : S → E → List F) : Prop where
  preserved  : ∀ s e, Inv s → M.admits s e → Inv (M.step s e)
  admissible : ∀ s e, Inv s → M.admits s e → N.Admissible (abs s) (emit s e)
  commutes   : ∀ s e, Inv s → M.admits s e → abs (M.step s e) = N.run (abs s) (emit s e)

variable {M : Machine S E} {N : Machine T F} {Inv : S → Prop} {abs : S → T}
  {emit : S → E → List F}

/-- **A concrete run is an abstract run.** -/
theorem Refines.run (refines : Refines M N Inv abs emit) (es : List E) {s : S} (inv : Inv s)
    (admissible : M.Admissible s es) :
    N.Admissible (abs s) (M.outputs emit s es).flatten ∧
      abs (M.run s es) = N.run (abs s) (M.outputs emit s es).flatten := by
  induction es generalizing s with
  | nil => exact ⟨trivial, rfl⟩
  | cons e es ih =>
      have here := refines.commutes s e inv admissible.1
      obtain ⟨later, final⟩ := ih (refines.preserved s e inv admissible.1) admissible.2
      rw [here] at later final
      simp only [Machine.outputs, List.flatten_cons]
      rw [N.admissible_append, N.run_append]
      exact ⟨⟨refines.admissible s e inv admissible.1, later⟩, final⟩

end Refines

namespace Machine

variable {S : Type u} {E : Type v} (M : Machine S E)

/-- **A rank is a bound.**  If some events lower it and no event raises it, those events
happen at most so often. -/
theorem countP_le_rank {Inv : S → Prop} (rank : S → Nat) (lowers : E → Bool)
    (preserved : ∀ s e, Inv s → M.admits s e → Inv (M.step s e))
    (falls : ∀ s e, Inv s → M.admits s e → lowers e = true → rank (M.step s e) < rank s)
    (stays : ∀ s e, Inv s → M.admits s e → lowers e = false → rank (M.step s e) ≤ rank s)
    (es : List E) {s : S} (inv : Inv s) (admissible : M.Admissible s es) :
    es.countP lowers + rank (M.run s es) ≤ rank s := by
  induction es generalizing s with
  | nil => simp
  | cons e es ih =>
      have rest := ih (preserved s e inv admissible.1) admissible.2
      rw [run_cons]
      cases low : lowers e with
      | true =>
          have here := falls s e inv admissible.1 low
          rw [List.countP_cons_of_pos low]
          omega
      | false =>
          have here := stays s e inv admissible.1 low
          rw [List.countP_cons_of_neg (by simp [low])]
          omega

end Machine

end Clumsy.Theory
