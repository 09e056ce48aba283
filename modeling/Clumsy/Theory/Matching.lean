/-
# Theory.Matching -- up to the closing bracket

A text has a depth: how many brackets are open behind it, unless one closes what was not open.
`upTo` takes a text up to the bracket that closes what is open in front of it.  A text that has
a depth is passed (`upTo_append`).
-/
import Mathlib

namespace Clumsy.Theory.Matching

set_option autoImplicit false

universe u

variable {α : Type u} [DecidableEq α] (opens closes : α)

/-- What is open behind a character. -/
def step (d : Nat) (x : α) : Option Nat :=
  if x = opens then some (d + 1)
  else if x = closes then if d = 0 then none else some (d - 1)
  else some d

/-- What is open behind a text, if nothing is closed that is not open. -/
def depth (d : Nat) (s : List α) : Option Nat := s.foldlM (step opens closes) d

/-- The text up to where nothing is open, with that bracket, and the rest. -/
def upTo : Nat → List α → List α × List α
  | 0, s => ([], s)
  | _ + 1, [] => ([], [])
  | d + 1, x :: s =>
      let r := upTo (if x = opens then d + 2 else if x = closes then d else d + 1) s
      (x :: r.1, r.2)

variable {opens closes} {d d' : Nat} {s t : List α}

theorem depth_cons (x : α) : depth opens closes d (x :: s) =
    (step opens closes d x).bind fun d' => depth opens closes d' s := rfl

theorem depth_append : depth opens closes d (s ++ t) =
    (depth opens closes d s).bind fun d' => depth opens closes d' t :=
  List.foldlM_append

/-- Other characters do not count. -/
theorem depth_free (free : ∀ x ∈ s, x ≠ opens ∧ x ≠ closes) : depth opens closes d s = some d := by
  induction s with
  | nil => rfl
  | cons x s ih =>
      have here := free x List.mem_cons_self
      rw [depth_cons, step, if_neg here.1, if_neg here.2]
      exact ih fun y member => free y (List.mem_cons_of_mem _ member)

/-- Nor do those that stand around one character in a text for it. -/
theorem depth_flatMap {f : α → List α}
    (same : ∀ x d, depth opens closes d (f x) = step opens closes d x) :
    depth opens closes d (s.flatMap f) = depth opens closes d s := by
  induction s generalizing d with
  | nil => rfl
  | cons x s ih =>
      rw [List.flatMap_cons, depth_append, same, depth_cons]
      exact congrArg _ (funext fun d' => ih)

/-- **A text with a depth is passed.** -/
theorem upTo_append (known : depth opens closes d s = some d') (t : List α) :
    upTo opens closes (d + 1) (s ++ t) =
      (s ++ (upTo opens closes (d' + 1) t).1, (upTo opens closes (d' + 1) t).2) := by
  induction s generalizing d with
  | nil =>
      cases known
      rfl
  | cons x s ih =>
      rw [depth_cons] at known
      rw [List.cons_append, upTo]
      cases here : step opens closes d x with
      | none =>
          rw [here] at known
          cases known
      | some e =>
          rw [here] at known
          have next : (if x = opens then d + 2 else if x = closes then d else d + 1) = e + 1 := by
            rw [step] at here
            split_ifs at here ⊢ <;> cases here <;> omega
          rw [next, ih known]
          rfl

theorem upTo_whole (d : Nat) (s : List α) :
    (upTo opens closes d s).1 ++ (upTo opens closes d s).2 = s := by
  induction s generalizing d with
  | nil => cases d <;> rfl
  | cons x s ih =>
      cases d with
      | zero => rfl
      | succ d =>
          rw [upTo]
          exact congrArg (x :: ·) (ih _)

theorem upTo_prefix (d : Nat) (s : List α) : (upTo opens closes d s).1 <+: s :=
  ⟨_, upTo_whole d s⟩

end Clumsy.Theory.Matching
