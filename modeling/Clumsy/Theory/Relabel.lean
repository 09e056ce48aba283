/-
# Theory.Relabel -- queue loops that do not look

A loop over a queue looks at its elements through the functions it is given.  If these do the
same to an element and to its image under `g`, then so does the loop: run on the images it
ends in the same state, with the images of the piles it would have made (`sweep_map`,
`gather_map`, `release_map`, `rewriteEach_map_map`, `precede_map`).
-/
import Clumsy.Theory.Sweep

namespace Clumsy.Theory

set_option autoImplicit false

universe u v w

variable {σ : Type u} {α : Type v} {γ : Type w} (g : α → γ)

def Fate.map : Fate α → Fate γ
  | .keep => .keep
  | .hold stored => .hold (g stored)
  | .discard => .discard

@[simp] theorem Fate.map_keep : (Fate.keep : Fate α).map g = .keep := rfl

@[simp] theorem Fate.map_hold (a : α) : (Fate.hold a).map g = .hold (g a) := rfl

@[simp] theorem Fate.map_discard : (Fate.discard : Fate α).map g = .discard := rfl

def Swept.map (swept : Swept σ α) : Swept σ γ :=
  { state := swept.state
    kept := swept.kept.map g
    held := swept.held.map g
    gone := swept.gone.map g }

@[simp] theorem Swept.map_state (swept : Swept σ α) : (swept.map g).state = swept.state := rfl

@[simp] theorem Swept.map_kept (swept : Swept σ α) : (swept.map g).kept = swept.kept.map g := rfl

@[simp] theorem Swept.map_held (swept : Swept σ α) : (swept.map g).held = swept.held.map g := rfl

@[simp] theorem Swept.map_gone (swept : Swept σ α) : (swept.map g).gone = swept.gone.map g := rfl

theorem sweep_map {judge : σ → α → σ × Fate α} {judge' : σ → γ → σ × Fate γ}
    (follows : ∀ s a, judge' s (g a) = ((judge s a).1, (judge s a).2.map g)) :
    ∀ (as : List α) (s : σ), sweep judge' s (as.map g) = (sweep judge s as).map g
  | [], _ => rfl
  | a :: as, s => by
      have ih := sweep_map follows as (judge s a).1
      rw [List.map_cons, sweep, follows, sweep]
      simp only [ih]
      cases (judge s a).2 <;> rfl

theorem findFirst_map {p : α → Bool} {p' : γ → Bool} (follows : ∀ a, p' (g a) = p a) :
    ∀ as : List α, findFirst p' (as.map g) =
      (findFirst p as).map fun found => (found.1.map g, g found.2.1, found.2.2.map g)
  | [] => rfl
  | a :: as => by
      have ih := findFirst_map follows as
      rw [List.map_cons, findFirst, findFirst, follows, ih]
      cases p a with
      | true => rfl
      | false =>
          cases findFirst p as with
          | none => rfl
          | some found => rfl

theorem gather_map {p : α → Bool} {p' : γ → Bool} (room : σ → Bool) {take : σ → α → σ × α}
    {take' : σ → γ → σ × γ} (accepts : ∀ a, p' (g a) = p a)
    (takes : ∀ s a, take' s (g a) = ((take s a).1, g (take s a).2)) :
    ∀ (n : Nat) (s : σ) (as : List α),
      gather p' room take' n s (as.map g) =
        ((gather p room take n s as).1, (gather p room take n s as).2.1.map g,
          (gather p room take n s as).2.2.map g)
  | 0, _, _ => rfl
  | n + 1, s, as => by
      rw [gather, gather, findFirst_map g accepts]
      cases room s with
      | false => rfl
      | true =>
          simp only [if_true]
          cases findFirst p as with
          | none => rfl
          | some found =>
              obtain ⟨before, a, behind⟩ := found
              simp only [Option.map_some, takes]
              rw [← List.map_append, gather_map room accepts takes n]
              rfl

theorem release_map {spend : σ → α → Option σ} {spend' : σ → γ → Option σ}
    (follows : ∀ s a, spend' s (g a) = spend s a) :
    ∀ (as : List α) (s : σ),
      release spend' s (as.map g) =
        ((release spend s as).1, (release spend s as).2.1.map g, (release spend s as).2.2.map g)
  | [], _ => rfl
  | a :: as, s => by
      rw [List.map_cons, release, release, follows]
      cases spend s a with
      | none => rfl
      | some s' =>
          simp only [release_map follows as s']
          rfl

theorem rewriteEach_map_map {f : σ → α → σ × α} {f' : σ → γ → σ × γ}
    (follows : ∀ s a, f' s (g a) = ((f s a).1, g (f s a).2)) :
    ∀ (as : List α) (s : σ),
      rewriteEach f' s (as.map g) = ((rewriteEach f s as).1, (rewriteEach f s as).2.map g)
  | [], _ => rfl
  | a :: as, s => by
      rw [List.map_cons, rewriteEach, rewriteEach, follows]
      simp only [rewriteEach_map_map follows as]
      rfl

theorem precede_map {copies : σ → α → σ × List α} {copies' : σ → γ → σ × List γ}
    (follows : ∀ s a, copies' s (g a) = ((copies s a).1, (copies s a).2.map g)) :
    ∀ (as : List α) (s : σ),
      precede copies' s (as.map g) =
        ((precede copies s as).1, (precede copies s as).2.1.map g,
          (precede copies s as).2.2.map g)
  | [], _ => rfl
  | a :: as, s => by
      rw [List.map_cons, precede, precede, follows]
      simp only [precede_map follows as, List.map_append, List.map_cons]

end Clumsy.Theory
