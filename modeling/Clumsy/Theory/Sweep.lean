/-
# Theory.Sweep -- one pass over a queue

The loops that walk a queue and decide, element by element, whether it stays, is
taken into custody or is thrown away are all one recursion, `sweep`, over a
decision function with a state (a counter, a random stream, a phase).  The loops
that release a prefix while a budget lasts are `release`, those that rewrite
every element in place are `rewriteEach`, those that put copies in front of an
element are `precede`.

Each comes with its conservation lemma (nothing is lost or made up, up to the
projection `g` that custody and rewriting leave alone) and with its isolation
lemma (elements of a class the decision ignores keep their places).

`gather` is the loop that restarts from the end of the queue after each element
it takes; `gather_eq_sweep` says the restarts find nothing new.
-/
import Mathlib

namespace Clumsy.Theory

set_option autoImplicit false

universe u v w

variable {σ : Type u} {α : Type v} {γ : Type w}

inductive Fate (α : Type v) where
  | keep
  | hold (stored : α)
  | discard

/-- One if the element is taken. -/
def Fate.count : Fate α → Int
  | .hold _ => 1
  | _ => 0

structure Swept (σ : Type u) (α : Type v) where
  state : σ
  kept  : List α
  /-- In the order they were taken. -/
  held  : List α
  gone  : List α

/-- Walk the list front to back, deciding each element's fate. -/
def sweep (judge : σ → α → σ × Fate α) : σ → List α → Swept σ α
  | s, [] => ⟨s, [], [], []⟩
  | s, a :: as =>
      let rest := sweep judge (judge s a).1 as
      match (judge s a).2 with
      | .keep => { rest with kept := a :: rest.kept }
      | .hold b => { rest with held := b :: rest.held }
      | .discard => { rest with gone := a :: rest.gone }

attribute [local simp] sweep

section Sweep

variable (judge : σ → α → σ × Fate α)

/-- **Conservation of a sweep.**  If taking an element into custody leaves its
`g`-image alone, the three piles together are the list that was swept. -/
theorem sweep_perm (g : α → γ) (faithful : ∀ s a b, (judge s a).2 = .hold b → g b = g a) :
    ∀ (as : List α) (s : σ),
      (((sweep judge s as).kept ++ (sweep judge s as).held ++ (sweep judge s as).gone).map g).Perm
        (as.map g)
  | [], _ => by simp [sweep]
  | a :: as, s => by
      have ih := sweep_perm g faithful as (judge s a).1
      simp only [List.map_append] at ih ⊢
      cases fate : (judge s a).2 with
      | keep =>
          simp only [sweep, fate, List.map_cons, List.cons_append]
          exact ih.cons (g a)
      | hold b =>
          simp only [sweep, fate, List.map_cons, faithful s a b fate]
          exact (List.Perm.append_right _ List.perm_middle).trans (ih.cons (g a))
      | discard =>
          simp only [sweep, fate, List.map_cons]
          exact List.perm_middle.trans (ih.cons (g a))

/-- **Isolation.**  Elements of a class the decision always keeps stay in place,
and custody and discard contain none of them. -/
theorem sweep_filter (p : α → Bool) (ignored : ∀ s a, p a = true → (judge s a).2 = .keep)
    (closed : ∀ s a b, (judge s a).2 = .hold b → p b = p a) :
    ∀ (as : List α) (s : σ),
      (sweep judge s as).kept.filter p = as.filter p ∧
        (sweep judge s as).held.filter p = [] ∧ (sweep judge s as).gone.filter p = []
  | [], _ => by simp [sweep]
  | a :: as, s => by
      obtain ⟨kept, held, gone⟩ := sweep_filter p ignored closed as (judge s a).1
      cases fate : (judge s a).2 with
      | keep => simp [sweep, fate, List.filter_cons, kept, held, gone]
      | hold b =>
          have pa : p a = false := by
            cases pa : p a with
            | false => rfl
            | true => simp [ignored s a pa] at fate
          have pb : p b = false := (closed s a b fate).trans pa
          simp [sweep, fate, pa, pb, kept, held, gone]
      | discard =>
          have pa : p a = false := by
            cases pa : p a with
            | false => rfl
            | true => simp [ignored s a pa] at fate
          simp [sweep, fate, pa, kept, held, gone]

/-- An invariant of the decision's state survives the sweep. -/
theorem sweep_invariant (Inv : σ → Prop) (preserved : ∀ s a, Inv s → Inv (judge s a).1) :
    ∀ (as : List α) (s : σ), Inv s → Inv (sweep judge s as).state
  | [], _, inv => inv
  | a :: as, s, inv => by
      have := sweep_invariant Inv preserved as _ (preserved s a inv)
      simp only [sweep]
      split <;> exact this

/-- A counter that goes up by one exactly when an element is taken counts the
elements taken. -/
theorem sweep_count (size : σ → Int)
    (counts : ∀ s a, size (judge s a).1 = size s + (judge s a).2.count) :
    ∀ (as : List α) (s : σ),
      size (sweep judge s as).state = size s + (sweep judge s as).held.length
  | [], _ => by simp [sweep]
  | a :: as, s => by
      have ih := sweep_count size counts as (judge s a).1
      have here := counts s a
      cases fate : (judge s a).2 <;> simp only [fate, Fate.count] at here <;>
        simp only [sweep, fate, List.length_cons, Int.natCast_add] <;> omega

theorem sweep_gone_nil (spares : ∀ s a, (judge s a).2 ≠ .discard) :
    ∀ (as : List α) (s : σ), (sweep judge s as).gone = []
  | [], _ => rfl
  | a :: as, s => by
      have ih := sweep_gone_nil spares as (judge s a).1
      cases fate : (judge s a).2 with
      | discard => exact absurd fate (spares s a)
      | keep => simpa only [sweep, fate] using ih
      | hold b => simpa only [sweep, fate] using ih

theorem sweep_held_nil (takes : ∀ s a b, (judge s a).2 ≠ .hold b) :
    ∀ (as : List α) (s : σ), (sweep judge s as).held = []
  | [], _ => rfl
  | a :: as, s => by
      have ih := sweep_held_nil takes as (judge s a).1
      cases fate : (judge s a).2 with
      | hold b => exact absurd fate (takes s a b)
      | keep => simpa only [sweep, fate] using ih
      | discard => simpa only [sweep, fate] using ih

/-- What holds of everything taken holds of the pile. -/
theorem sweep_held_forall {P : α → Prop} (holds : ∀ s a b, (judge s a).2 = .hold b → P b) :
    ∀ (as : List α) (s : σ), ∀ b ∈ (sweep judge s as).held, P b
  | [], _ => by simp [sweep]
  | a :: as, s => by
      have ih := sweep_held_forall holds as (judge s a).1
      cases fate : (judge s a).2 with
      | hold b => simpa [sweep, fate] using ⟨holds s a b fate, ih⟩
      | keep => simpa only [sweep, fate] using ih
      | discard => simpa only [sweep, fate] using ih

end Sweep

/-- A sweep that takes what a test accepts is the two filters. -/
theorem sweep_partition (p : α → Bool) (next : σ → α → σ) (as : List α) (s : σ) :
    (sweep (fun s a => if p a then (next s a, .hold a) else (s, .keep)) s as).held =
        as.filter p ∧
      (sweep (fun s a => if p a then (next s a, .hold a) else (s, .keep)) s as).kept =
        as.filter fun a => !p a := by
  induction as generalizing s with
  | nil => exact ⟨rfl, rfl⟩
  | cons a as ih =>
      obtain ⟨held, kept⟩ := ih (if p a then next s a else s)
      cases accepted : p a with
      | false =>
          simp only [accepted, Bool.false_eq_true, if_false] at held kept
          simp [sweep, accepted, held, kept]
      | true =>
          simp only [accepted, if_true] at held kept
          simp [sweep, accepted, held, kept]

/-! ## Restarting after every element taken -/

/-- The first element the test accepts, with what stands before and behind it. -/
def findFirst (p : α → Bool) : List α → Option (List α × α × List α)
  | [] => none
  | a :: as =>
      if p a then some ([], a, as)
      else (findFirst p as).map fun found => (a :: found.1, found.2)

attribute [local simp] findFirst

/-- Take elements one at a time while there is room, starting over from the
front of what is left after each one.  Returns the state, what is left and what
was taken, in that order.  Every restart follows one removal, so as many rounds
as there are elements always suffice (`gather_eq_sweep`). -/
def gather (p : α → Bool) (room : σ → Bool) (take : σ → α → σ × α) :
    Nat → σ → List α → σ × List α × List α
  | 0, s, as => (s, as, [])
  | n + 1, s, as =>
      if room s then
        match findFirst p as with
        | none => (s, as, [])
        | some (before, a, behind) =>
            let rest := gather p room take n (take s a).1 (before ++ behind)
            (rest.1, rest.2.1, (take s a).2 :: rest.2.2)
      else (s, as, [])

attribute [local simp] gather

/-- The same decision, made in one pass. -/
def gatherFate (p : α → Bool) (room : σ → Bool) (take : σ → α → σ × α) (s : σ) (a : α) :
    σ × Fate α :=
  if p a && room s then ((take s a).1, .hold (take s a).2) else (s, .keep)

section Gather

variable (p : α → Bool) (room : σ → Bool) (take : σ → α → σ × α)

theorem sweep_gatherFate_full {s : σ} (full : room s = false) (as : List α) :
    sweep (gatherFate p room take) s as = ⟨s, as, [], []⟩ := by
  induction as with
  | nil => rfl
  | cons a as ih => simp [sweep, gatherFate, full, ih]

/-- Elements already passed over stay passed over: a sweep may skip a prefix the
test rejects. -/
theorem sweep_gatherFate_skip (s : σ) (skipped : List α)
    (rejected : ∀ a ∈ skipped, p a = false) (as : List α) :
    sweep (gatherFate p room take) s (skipped ++ as) =
      { sweep (gatherFate p room take) s as with
        kept := skipped ++ (sweep (gatherFate p room take) s as).kept } := by
  induction skipped with
  | nil => rfl
  | cons a skipped ih =>
      have here : p a = false := rejected a List.mem_cons_self
      have rest := ih fun b member => rejected b (List.mem_cons_of_mem a member)
      simp [sweep, gatherFate, here, rest]

theorem findFirst_none {as : List α} (missing : findFirst p as = none) :
    ∀ a ∈ as, p a = false := by
  induction as with
  | nil => simp
  | cons a as ih =>
      simp only [findFirst] at missing
      split at missing
      · simp at missing
      · rename_i rejected
        simp only [Option.map_eq_none_iff] at missing
        exact List.forall_mem_cons.2 ⟨by simpa using rejected, ih missing⟩

theorem findFirst_some {as before behind : List α} {a : α}
    (found : findFirst p as = some (before, a, behind)) :
    as = before ++ a :: behind ∧ p a = true ∧ ∀ b ∈ before, p b = false := by
  induction as generalizing before with
  | nil => simp [findFirst] at found
  | cons x as ih =>
      simp only [findFirst] at found
      split at found
      · rename_i accepted
        simp only [Option.some.injEq, Prod.mk.injEq] at found
        obtain ⟨rfl, rfl, rfl⟩ := found
        exact ⟨rfl, accepted, by simp⟩
      · rename_i rejected
        simp only [Option.map_eq_some_iff] at found
        obtain ⟨⟨before', a', behind'⟩, inner, same⟩ := found
        simp only [Prod.mk.injEq] at same
        obtain ⟨rfl, rfl, rfl⟩ := same
        obtain ⟨rfl, accepted, earlier⟩ := ih inner
        exact ⟨rfl, accepted, List.forall_mem_cons.2 ⟨by simpa using rejected, earlier⟩⟩

/-- **Restarting finds nothing new**: with at least one round for each element,
`gather` is the single pass. -/
theorem gather_eq_sweep (n : Nat) (s : σ) (as : List α) (fuel : as.length ≤ n) :
    gather p room take n s as =
      ((sweep (gatherFate p room take) s as).state, (sweep (gatherFate p room take) s as).kept,
        (sweep (gatherFate p room take) s as).held) := by
  induction n generalizing s as with
  | zero =>
      have : as = [] := List.eq_nil_of_length_eq_zero (Nat.le_zero.1 fuel)
      subst this
      rfl
  | succ n ih =>
      simp only [gather]
      split
      · rename_i roomy
        split
        · rename_i missing
          have pass := sweep_gatherFate_skip p room take s as (findFirst_none p missing) []
          rw [List.append_nil] at pass
          simp [pass, sweep]
        · rename_i before a behind found
          obtain ⟨rfl, accepted, earlier⟩ := findFirst_some p found
          have shorter : (before ++ behind).length ≤ n := by
            simp only [List.length_append, List.length_cons] at fuel ⊢
            omega
          have here : gatherFate p room take s a = ((take s a).1, .hold (take s a).2) := by
            simp [gatherFate, accepted, roomy]
          simp only [ih _ _ shorter, sweep_gatherFate_skip p room take _ before earlier, sweep,
            here]
      · rename_i full
        simp [sweep_gatherFate_full p room take (by simpa using full) as]

/-- As many elements are taken as the test accepts and there is room for. -/
theorem sweep_gatherFate_length (size : σ → Int) (cap : Int)
    (roomy : ∀ s, room s = decide (size s < cap)) (counts : ∀ s a, size (take s a).1 = size s + 1)
    (as : List α) (s : σ) :
    (sweep (gatherFate p room take) s as).held.length =
      min (cap - size s).toNat (as.countP p) := by
  induction as generalizing s with
  | nil => simp [sweep]
  | cons a as ih =>
      cases accepted : p a with
      | false => simp [sweep, gatherFate, accepted, ih]
      | true =>
          by_cases fits : size s < cap
          · have here : gatherFate p room take s a = ((take s a).1, .hold (take s a).2) := by
              simp [gatherFate, accepted, roomy, fits]
            simp only [sweep, here, List.length_cons, ih, counts, List.countP_cons, accepted,
              if_true]
            omega
          · rw [sweep_gatherFate_full p room take (by simp [roomy, fits])]
            show 0 = _
            omega

/-- What a state that moves on by itself gives out in `n` rounds. -/
def stream (next : σ → σ) (out : σ → γ) : Nat → σ → List γ
  | 0, _ => []
  | n + 1, s => out s :: stream next out n (next s)

/-- If what is written on an element depends on the state alone, the elements taken
carry the state's stream. -/
theorem sweep_gatherFate_stream (next : σ → σ) (out : σ → γ) (g : α → γ)
    (moves : ∀ s a, (take s a).1 = next s) (writes : ∀ s a, g (take s a).2 = out s)
    (as : List α) (s : σ) :
    (sweep (gatherFate p room take) s as).held.map g =
      stream next out (sweep (gatherFate p room take) s as).held.length s := by
  induction as generalizing s with
  | nil => rfl
  | cons a as ih =>
      by_cases accepted : (p a && room s) = true
      · have here : gatherFate p room take s a = ((take s a).1, .hold (take s a).2) := by
          simp [gatherFate, accepted]
        simp only [sweep, here, List.map_cons, List.length_cons, stream, ih, moves, writes]
      · simp [sweep, gatherFate, accepted, ih]

/-- Where every element is accepted, elements are taken from the front. -/
theorem gather_split (g : α → γ) (faithful : ∀ s a, g (take s a).2 = g a) (n : Nat) (s : σ)
    (as : List α) (all : ∀ a ∈ as, p a = true) :
    (gather p room take n s as).2.2.map g ++ (gather p room take n s as).2.1.map g =
      as.map g := by
  induction n generalizing s as with
  | zero => rfl
  | succ n ih =>
      cases as with
      | nil => simp [gather, findFirst]
      | cons a as =>
          have accepted : p a = true := all a List.mem_cons_self
          have rest := ih (take s a).1 as fun b member => all b (List.mem_cons_of_mem a member)
          cases roomy : room s with
          | false => simp [gather, roomy]
          | true => simp [gather, roomy, findFirst, accepted, faithful, rest]

/-- Where every element is accepted and there is room for all of them, all are taken. -/
theorem gather_nothing_left (size : σ → Int) (cap : Int)
    (roomy : ∀ s, size s < cap → room s = true) (counts : ∀ s a, size (take s a).1 = size s + 1)
    (n : Nat) (s : σ) (as : List α) (all : ∀ a ∈ as, p a = true) (fuel : as.length ≤ n)
    (fits : size s + as.length ≤ cap) : (gather p room take n s as).2.1 = [] := by
  induction n generalizing s as with
  | zero => exact List.eq_nil_of_length_eq_zero (Nat.le_zero.1 fuel)
  | succ n ih =>
      cases as with
      | nil => simp [gather, findFirst]
      | cons a as =>
          rw [List.length_cons] at fuel fits
          have accepted : p a = true := all a List.mem_cons_self
          have here := roomy s (by omega)
          have rest := ih (take s a).1 as (fun b member => all b (List.mem_cons_of_mem a member))
            (by omega) (by rw [counts]; omega)
          simp [gather, here, findFirst, accepted, rest]

end Gather

/-! ## Releasing a prefix -/

/-- Release elements from the front while the budget accepts them. -/
def release (spend : σ → α → Option σ) : σ → List α → σ × List α × List α
  | s, [] => (s, [], [])
  | s, a :: as =>
      match spend s a with
      | none => (s, [], a :: as)
      | some s' =>
          let rest := release spend s' as
          (rest.1, a :: rest.2.1, rest.2.2)

attribute [local simp] release

section Release

variable (spend : σ → α → Option σ)

/-- What is released and what stays are the list, in order. -/
theorem release_append : ∀ (as : List α) (s : σ),
    (release spend s as).2.1 ++ (release spend s as).2.2 = as
  | [], _ => rfl
  | a :: as, s => by
      cases step : spend s a with
      | none => simp [release, step]
      | some s' => simp [release, step, release_append as s']

/-- A count kept beside the budget changes nothing. -/
theorem release_counting : ∀ (as : List α) (s : σ) (n : Int),
    release (fun c : σ × Int => fun a => (spend c.1 a).map fun t => (t, c.2 - 1)) (s, n) as =
      (((release spend s as).1, n - (release spend s as).2.1.length), (release spend s as).2)
  | [], _, _ => by simp [release]
  | a :: as, s, n => by
      cases step : spend s a with
      | none => simp [release, step]
      | some s' =>
          simp only [release, step, Option.map_some, release_counting as s' (n - 1),
            List.length_cons, Prod.mk.injEq, true_and, and_true]
          omega

/-- A budget that is never spent releases by a test. -/
theorem release_eq_takeWhile (p : α → Bool) (accepts : ∀ s a, (spend s a).isSome = p a) :
    ∀ (as : List α) (s : σ),
      (release spend s as).2.1 = as.takeWhile p ∧ (release spend s as).2.2 = as.dropWhile p
  | [], _ => ⟨rfl, rfl⟩
  | a :: as, s => by
      have here := accepts s a
      cases step : spend s a with
      | none =>
          rw [step] at here
          simp [release, step, ← here]
      | some s' =>
          rw [step] at here
          obtain ⟨sent, left⟩ := release_eq_takeWhile p accepts as s'
          simp [release, step, ← here, sent, left]

theorem release_count (size : σ → Int)
    (counts : ∀ s a s', spend s a = some s' → size s' = size s - 1) :
    ∀ (as : List α) (s : σ),
      size (release spend s as).1 = size s - (release spend s as).2.1.length
  | [], _ => by simp [release]
  | a :: as, s => by
      cases step : spend s a with
      | none => simp [release, step]
      | some s' =>
          have ih := release_count size counts as s'
          have here := counts s a s' step
          simp only [release, step, List.length_cons, Int.natCast_add]
          omega

end Release

/-- Two tests release the same prefix exactly if they agree on every element behind
which the second has not stopped. -/
theorem takeWhile_eq_takeWhile_iff (p q : α → Bool) (as : List α) :
    as.takeWhile p = as.takeWhile q ↔
      ∀ before a behind, as = before ++ a :: behind → (∀ b ∈ before, q b = true) → p a = q a := by
  induction as with
  | nil => simp
  | cons x as ih =>
      constructor
      · intro same before a behind split earlier
        cases hq : q x with
        | false =>
            have stops : p x = false := by
              cases hp : p x with
              | false => rfl
              | true => simp [hp, hq] at same
            cases before with
            | nil =>
                obtain rfl : x = a := (List.cons.inj split).1
                rw [stops, hq]
            | cons b before =>
                obtain rfl : x = b := (List.cons.inj split).1
                exact absurd (hq.symm.trans (earlier x List.mem_cons_self)) Bool.false_ne_true
        | true =>
            have goes : p x = true := by
              cases hp : p x with
              | false => simp [hp, hq] at same
              | true => rfl
            rw [List.takeWhile_cons_of_pos goes, List.takeWhile_cons_of_pos hq] at same
            cases before with
            | nil =>
                obtain rfl : x = a := (List.cons.inj split).1
                rw [goes, hq]
            | cons b before =>
                obtain ⟨rfl, rest⟩ := List.cons.inj split
                exact ih.1 (List.cons.inj same).2 before a behind rest fun c member =>
                  earlier c (List.mem_cons_of_mem _ member)
      · intro agree
        have here : p x = q x := agree [] x as rfl (by simp)
        rw [List.takeWhile_cons, List.takeWhile_cons, here]
        cases hq : q x with
        | false => rfl
        | true =>
            have rest := ih.2 fun before a behind split earlier =>
              agree (x :: before) a behind (by rw [split, List.cons_append])
                (List.forall_mem_cons.2 ⟨hq, earlier⟩)
            simp only [if_true, rest]

/-- Two tests pick the same elements exactly if they agree on all of them. -/
theorem filter_eq_filter_iff (p q : α → Bool) (as : List α) :
    as.filter p = as.filter q ↔ ∀ a ∈ as, p a = q a := by
  constructor
  · intro same a member
    have inP : a ∈ as.filter p ↔ p a = true := by simp [member]
    have inQ : a ∈ as.filter q ↔ q a = true := by simp [member]
    rw [same, inQ] at inP
    exact Bool.eq_iff_iff.2 inP.symm
  · exact List.filter_congr

/-! ## Rewriting in place -/

/-- Rewrite every element in place, threading a state. -/
def rewriteEach (f : σ → α → σ × α) : σ → List α → σ × List α
  | s, [] => (s, [])
  | s, a :: as =>
      let rest := rewriteEach f (f s a).1 as
      (rest.1, (f s a).2 :: rest.2)

attribute [local simp] rewriteEach

theorem rewriteEach_map (f : σ → α → σ × α) (g : α → γ) (faithful : ∀ s a, g (f s a).2 = g a) :
    ∀ (as : List α) (s : σ), (rewriteEach f s as).2.map g = as.map g
  | [], _ => rfl
  | a :: as, s => by simp [rewriteEach, faithful, rewriteEach_map f g faithful as]

/-- What holds of every rewriting holds of the two lists, place by place. -/
theorem rewriteEach_forall₂ (f : σ → α → σ × α) {R : α → α → Prop}
    (each : ∀ s a, R a (f s a).2) :
    ∀ (as : List α) (s : σ), List.Forall₂ R as (rewriteEach f s as).2
  | [], _ => .nil
  | a :: as, s => .cons (each s a) (rewriteEach_forall₂ f each as (f s a).1)

theorem rewriteEach_append (f : σ → α → σ × α) (bs : List α) :
    ∀ (as : List α) (s : σ), rewriteEach f s (as ++ bs) =
      ((rewriteEach f (rewriteEach f s as).1 bs).1,
        (rewriteEach f s as).2 ++ (rewriteEach f (rewriteEach f s as).1 bs).2)
  | [], _ => rfl
  | a :: as, s => by simp [rewriteEach, rewriteEach_append f bs as (f s a).1]

/-- A list whose elements the rewriting leaves alone, with a part of the state. -/
theorem rewriteEach_idle (f : σ → α → σ × α) (part : σ → γ) :
    ∀ (as : List α) (s : σ), (∀ s, ∀ a ∈ as, part (f s a).1 = part s ∧ (f s a).2 = a) →
      part (rewriteEach f s as).1 = part s ∧ (rewriteEach f s as).2 = as
  | [], _, _ => ⟨rfl, rfl⟩
  | a :: as, s, idle => by
      obtain ⟨kept, same⟩ := idle s a List.mem_cons_self
      obtain ⟨rest, rest'⟩ := rewriteEach_idle f part as (f s a).1
        fun s b member => idle s b (List.mem_cons_of_mem a member)
      exact ⟨rest.trans kept, congrArg₂ List.cons same rest'⟩

/-- What the rewritings are counted to cost is what they cost together. -/
theorem rewriteEach_count (f : σ → α → σ × α) (count : σ → Nat) (cost : α → α → Nat)
    (each : ∀ s a, count (f s a).1 = count s + cost a (f s a).2) :
    ∀ (as : List α) (s : σ), count (rewriteEach f s as).1 =
      count s + (List.zipWith cost as (rewriteEach f s as).2).sum
  | [], _ => rfl
  | a :: as, s => by
      have rest := rewriteEach_count f count cost each as (f s a).1
      simp only [rewriteEach, List.zipWith_cons_cons, List.sum_cons]
      rw [rest, each s a, Nat.add_assoc]

/-- Elements of a class the rewriting ignores are untouched and keep their
places. -/
theorem rewriteEach_filter (f : σ → α → σ × α) (p : α → Bool)
    (ignored : ∀ s a, p a = true → (f s a).2 = a) (closed : ∀ s a, p (f s a).2 = p a) :
    ∀ (as : List α) (s : σ), (rewriteEach f s as).2.filter p = as.filter p
  | [], _ => rfl
  | a :: as, s => by
      have ih := rewriteEach_filter f p ignored closed as (f s a).1
      cases pa : p a with
      | false => simp [rewriteEach, closed, pa, ih]
      | true => simp [rewriteEach, ignored s a pa, pa, ih]

/-! ## Putting copies in front -/

/-- Put the elements `copies` makes of an element in front of it. -/
def precede (copies : σ → α → σ × List α) : σ → List α → σ × List α × List α
  | s, [] => (s, [], [])
  | s, a :: as =>
      let rest := precede copies (copies s a).1 as
      (rest.1, (copies s a).2 ++ a :: rest.2.1, (copies s a).2 ++ rest.2.2)

attribute [local simp] precede

section Precede

variable (copies : σ → α → σ × List α)

/-- The new list is the old one together with the copies. -/
theorem precede_perm : ∀ (as : List α) (s : σ),
    (precede copies s as).2.1.Perm (as ++ (precede copies s as).2.2)
  | [], _ => by simp [precede]
  | a :: as, s => by
      have ih := precede_perm as (copies s a).1
      simp only [precede, List.cons_append]
      refine List.perm_middle.trans (List.Perm.cons a ?_)
      exact (ih.append_left _).trans (by
        rw [← List.append_assoc, ← List.append_assoc]
        exact List.perm_append_comm.append_right _)

/-- Elements of a class that is never copied keep their places, and no copy
belongs to that class. -/
theorem precede_filter (p : α → Bool) (ignored : ∀ s a, (copies s a).2.filter p = []) :
    ∀ (as : List α) (s : σ),
      (precede copies s as).2.1.filter p = as.filter p ∧
        (precede copies s as).2.2.filter p = []
  | [], _ => by simp [precede]
  | a :: as, s => by
      obtain ⟨main, clones⟩ := precede_filter p ignored as (copies s a).1
      simp only [precede, List.filter_append, ignored, List.nil_append, List.filter_cons, main,
        clones, and_true]

end Precede

end Clumsy.Theory
