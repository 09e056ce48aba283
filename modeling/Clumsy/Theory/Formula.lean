/-
# Theory.Formula -- boolean formulas, their branches and what they demand

Formulas over arbitrary atoms, compared atom by atom (`Alike`), with two syntactic
readings of them:

* `branches n` splits the disjunctions at the top, to a depth of `n`; a formula
  is true exactly if one of its branches is (`eval_branches`);
* `demands` walks conjunctions and negations and lists the atoms met under an
  even number of negations.  Such an atom holds whenever the formula does, but
  only if no conjunction under an odd number of negations has one below it
  (`Steady`, `demands_hold`): the negation of a conjunction demands neither of
  its sides.  Only atoms that count are of interest.
-/
import Mathlib

namespace Clumsy.Theory

set_option autoImplicit false

universe u

inductive Formula (α : Type u) where
  | tt
  | ff
  | atom (a : α)
  | and (left right : Formula α)
  | or (left right : Formula α)
  | not (operand : Formula α)
  deriving DecidableEq, Repr

namespace Formula

variable {α : Type u}

def eval (v : α → Bool) : Formula α → Bool
  | tt => true
  | ff => false
  | atom a => v a
  | and φ ψ => φ.eval v && ψ.eval v
  | or φ ψ => φ.eval v || ψ.eval v
  | not φ => !φ.eval v

@[simp] theorem eval_tt (v : α → Bool) : (tt : Formula α).eval v = true := rfl

@[simp] theorem eval_ff (v : α → Bool) : (ff : Formula α).eval v = false := rfl

@[simp] theorem eval_atom (v : α → Bool) (a : α) : (atom a).eval v = v a := rfl

@[simp] theorem eval_and (v : α → Bool) (φ ψ : Formula α) :
    (and φ ψ).eval v = (φ.eval v && ψ.eval v) := rfl

@[simp] theorem eval_or (v : α → Bool) (φ ψ : Formula α) :
    (or φ ψ).eval v = (φ.eval v || ψ.eval v) := rfl

@[simp] theorem eval_not (v : α → Bool) (φ : Formula α) : (not φ).eval v = !φ.eval v := rfl

/-! ## Atom by atom -/

def map {β : Type u} (f : α → β) : Formula α → Formula β
  | tt => tt
  | ff => ff
  | atom a => atom (f a)
  | and φ ψ => and (φ.map f) (ψ.map f)
  | or φ ψ => or (φ.map f) (ψ.map f)
  | not φ => not (φ.map f)

/-- The atoms, from left to right. -/
def atoms : Formula α → List α
  | tt | ff => []
  | atom a => [a]
  | and φ ψ | or φ ψ => φ.atoms ++ ψ.atoms
  | not φ => φ.atoms

/-- The same formula but for the atoms, which are related one by one. -/
inductive Alike {β : Type u} (R : α → β → Prop) : Formula α → Formula β → Prop
  | tt : Alike R tt tt
  | ff : Alike R ff ff
  | atom {a : α} {b : β} (related : R a b) : Alike R (atom a) (atom b)
  | and {φ ψ : Formula α} {φ' ψ' : Formula β} (left : Alike R φ φ') (right : Alike R ψ ψ') :
      Alike R (and φ ψ) (and φ' ψ')
  | or {φ ψ : Formula α} {φ' ψ' : Formula β} (left : Alike R φ φ') (right : Alike R ψ ψ') :
      Alike R (or φ ψ) (or φ' ψ')
  | not {φ : Formula α} {φ' : Formula β} (operand : Alike R φ φ') : Alike R (not φ) (not φ')

/-- Against its own image a formula is compared with one test for each atom. -/
theorem alike_map {β : Type u} {R : α → β → Prop} {f : α → β} {φ : Formula α} :
    φ.Alike R (φ.map f) ↔ ∀ a ∈ φ.atoms, R a (f a) := by
  induction φ with
  | tt => simp [atoms, map, Alike.tt]
  | ff => simp [atoms, map, Alike.ff]
  | atom a =>
      simp only [atoms, List.mem_singleton, forall_eq]
      constructor
      · intro alike
        cases alike with
        | atom related => exact related
      · exact .atom
  | and φ ψ ihφ ihψ =>
      simp only [atoms, List.mem_append, or_imp, forall_and, ← ihφ, ← ihψ]
      constructor
      · intro alike
        cases alike with
        | and left right => exact ⟨left, right⟩
      · rintro ⟨left, right⟩
        exact .and left right
  | or φ ψ ihφ ihψ =>
      simp only [atoms, List.mem_append, or_imp, forall_and, ← ihφ, ← ihψ]
      constructor
      · intro alike
        cases alike with
        | or left right => exact ⟨left, right⟩
      · rintro ⟨left, right⟩
        exact .or left right
  | not φ ih =>
      simp only [atoms, ← ih]
      constructor
      · intro alike
        cases alike with
        | not operand => exact operand
      · exact .not

/-! ## Branches -/

/-- The disjuncts of the top, splitting at most `depth` disjunctions deep. -/
def branches : Nat → Formula α → List (Formula α)
  | depth + 1, or φ ψ => branches depth φ ++ branches depth ψ
  | _, φ => [φ]

theorem branches_ne_nil (depth : Nat) (φ : Formula α) : φ.branches depth ≠ [] := by
  induction depth generalizing φ with
  | zero => simp [branches]
  | succ depth ih =>
      cases φ with
      | or φ ψ => simp [branches, ih φ]
      | _ => simp [branches]

/-- A formula holds exactly if one of its branches does. -/
theorem eval_branches (v : α → Bool) (depth : Nat) (φ : Formula α) :
    (φ.branches depth).any (eval v) = φ.eval v := by
  induction depth generalizing φ with
  | zero => simp [branches]
  | succ depth ih =>
      cases φ with
      | or φ ψ => simp only [branches, List.any_append, ih, eval_or]
      | _ => simp [branches]

/-! ## Demands -/

/-- The atoms met under an even number of negations, counted from `negated`,
walking through conjunctions and negations only, from left to right. -/
def demands (negated : Bool) : Formula α → List α
  | atom a => if negated then [] else [a]
  | and φ ψ => φ.demands negated ++ ψ.demands negated
  | not φ => φ.demands !negated
  | _ => []

/-- No conjunction under an odd number of negations demands an atom that counts. -/
def Steady (counts : α → Bool) (negated : Bool) : Formula α → Prop
  | and φ ψ =>
      φ.Steady counts negated ∧ ψ.Steady counts negated ∧
        (negated = true → ∀ a ∈ φ.demands true ++ ψ.demands true, counts a = false)
  | not φ => φ.Steady counts !negated
  | _ => True

instance Steady.decidable (counts : α → Bool) (negated : Bool) :
    (φ : Formula α) → Decidable (φ.Steady counts negated)
  | and φ ψ =>
      have := Steady.decidable counts negated φ
      have := Steady.decidable counts negated ψ
      inferInstanceAs (Decidable (_ ∧ _ ∧ (_ → _)))
  | not φ => Steady.decidable counts (!negated) φ
  | tt => inferInstanceAs (Decidable True)
  | ff => inferInstanceAs (Decidable True)
  | atom _ => inferInstanceAs (Decidable True)
  | or _ _ => inferInstanceAs (Decidable True)

/-- **Demanded atoms hold.**  A steady formula with the value its polarity asks
for makes every atom it demands true, as far as it counts. -/
theorem demands_hold (v : α → Bool) {counts : α → Bool} {negated : Bool} {φ : Formula α}
    (steady : φ.Steady counts negated) (value : φ.eval v = !negated) :
    ∀ a ∈ φ.demands negated, counts a = true → v a = true := by
  induction φ generalizing negated with
  | atom a =>
      intro b member _
      cases negated with
      | true => simp [demands] at member
      | false =>
          rw [List.mem_singleton.1 member]
          exact value
  | and φ ψ ihφ ihψ =>
      obtain ⟨left, right, guarded⟩ := steady
      intro a member counted
      cases negated with
      | true =>
          rw [guarded rfl a member] at counted
          cases counted
      | false =>
          have both : φ.eval v = true ∧ ψ.eval v = true := by simpa using value
          rcases List.mem_append.1 member with h | h
          · exact ihφ left both.1 a h counted
          · exact ihψ right both.2 a h counted
  | not φ ih =>
      apply ih steady
      rw [eval_not] at value
      cases negated <;> simpa using value
  | tt | ff => simp [demands]
  | or φ ψ => simp [demands]

end Formula

end Clumsy.Theory
