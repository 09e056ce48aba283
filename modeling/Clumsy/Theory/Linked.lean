/-
# Theory.Linked -- doubly linked cells

A heap gives each cell the one behind it and the one before it, where it has one.
`Linked h cells`: neighbours in `cells` point at each other.  Nothing is asked of what the
first cell has before it and the last behind it, nor of the cells elsewhere, whose links may
be stale.

Taking a cell out and putting one in are two and four assignments (`take`, `put`).  They
keep the cells linked (`Linked.take`, `Linked.put`) and touch no cells but the neighbours, so
other cells stay as they are (`Linked.frame_take`, `Linked.frame_put`).  Cells that are
linked are found by following one link after the other, forwards and, in reverse order,
backwards (`Linked.walk_next`, `Linked.walk_prev`).
-/
import Mathlib

namespace Clumsy.Theory

set_option autoImplicit false

universe u

/-- The links of every cell. -/
structure Heap (α : Type u) where
  next : α → Option α
  prev : α → Option α

namespace Heap

section Links

variable {α : Type u} [DecidableEq α]

/-- No cell has links. -/
def blank : Heap α := ⟨fun _ => none, fun _ => none⟩

/-- `a->next = b`. -/
def setNext (h : Heap α) (a : α) (b : Option α) : Heap α :=
  { h with next := Function.update h.next a b }

/-- `a->prev = b`. -/
def setPrev (h : Heap α) (a : α) (b : Option α) : Heap α :=
  { h with prev := Function.update h.prev a b }

@[simp] theorem setNext_prev (h : Heap α) (a : α) (b : Option α) : (h.setNext a b).prev = h.prev :=
  rfl

@[simp] theorem setPrev_next (h : Heap α) (a : α) (b : Option α) : (h.setPrev a b).next = h.next :=
  rfl

@[simp] theorem setNext_next (h : Heap α) (a : α) (b : Option α) (c : α) :
    (h.setNext a b).next c = if c = a then b else h.next c := Function.update_apply _ _ _ _

@[simp] theorem setPrev_prev (h : Heap α) (a : α) (b : Option α) (c : α) :
    (h.setPrev a b).prev c = if c = a then b else h.prev c := Function.update_apply _ _ _ _

/-- The cell between `before` and `behind` is passed over. -/
def take (h : Heap α) (before behind : α) : Heap α :=
  (h.setNext before (some behind)).setPrev behind (some before)

/-- The cell `x` comes between `before` and `behind`. -/
def put (h : Heap α) (before x behind : α) : Heap α :=
  (((h.setPrev x (some before)).setNext x (some behind)).setPrev behind (some x)).setNext before
    (some x)

end Links

end Heap

/-! ## Linked cells -/

section Linked

variable {α : Type u}

/-- `a` and `b` point at each other. -/
def Link (h : Heap α) (a b : α) : Prop := h.next a = some b ∧ h.prev b = some a

def Linked (h : Heap α) (cells : List α) : Prop := cells.IsChain (Link h)

namespace Linked

variable {h g : Heap α} {front back : List α} {before behind x : α}

/-- Two parts and the link between them. -/
theorem seam : Linked h (front ++ before :: behind :: back) ↔
    Linked h (front ++ [before]) ∧ Link h before behind ∧ Linked h (behind :: back) :=
  List.isChain_append_cons_cons

/-- Only the forward links of the cells but the last and the backward links of the cells but
the first are looked at. -/
theorem frame {cells : List α} (linked : Linked h cells)
    (next : ∀ a ∈ cells.dropLast, g.next a = h.next a)
    (prev : ∀ a ∈ cells.tail, g.prev a = h.prev a) : Linked g cells := by
  induction cells with
  | nil => exact .nil
  | cons a cells ih =>
      cases cells with
      | nil => exact .singleton a
      | cons b cells =>
          obtain ⟨link, rest⟩ := List.isChain_cons_cons.1 linked
          refine List.isChain_cons_cons.2 ⟨?_, ih rest ?_ ?_⟩
          · exact ⟨(next a (by simp)).trans link.1, (prev b (by simp)).trans link.2⟩
          · intro c member
            exact next c (by simp [member])
          · intro c member
            exact prev c (by simp only [List.tail_cons] at member ⊢; exact .tail b member)

/-- The neighbours of a cell inside. -/
theorem neighbours (linked : Linked h (front ++ before :: x :: behind :: back)) :
    Link h before x ∧ Link h x behind := by
  obtain ⟨_, link, rest⟩ := seam.1 linked
  exact ⟨link, (List.isChain_cons_cons.1 rest).1⟩

/-- Cells up to `before`, where nothing is changed but what follows `before`. -/
theorem frame_front (linked : Linked h (front ++ [before])) (apart : before ∉ front)
    (behind_ : behind ∉ front ++ [before]) (next : ∀ a, a ≠ before → a ∈ front → g.next a = h.next a)
    (prev : ∀ a, a ≠ behind → a ∈ front ++ [before] → g.prev a = h.prev a) :
    Linked g (front ++ [before]) := by
  apply linked.frame
  · intro a member
    rw [List.dropLast_concat] at member
    exact next a (fun same => apart (same ▸ member)) member
  · intro a member
    have inside := List.mem_of_mem_tail member
    exact prev a (fun same => behind_ (same ▸ inside)) inside

/-- Cells from `behind` on, where nothing is changed but what comes before `behind`. -/
theorem frame_back (linked : Linked h (behind :: back)) (apart : behind ∉ back)
    (before_ : before ∉ behind :: back)
    (next : ∀ a, a ≠ before → a ∈ behind :: back → g.next a = h.next a)
    (prev : ∀ a, a ≠ behind → a ∈ back → g.prev a = h.prev a) : Linked g (behind :: back) := by
  apply linked.frame
  · intro a member
    have inside := List.mem_of_mem_dropLast member
    exact next a (fun same => before_ (same ▸ inside)) inside
  · intro a member
    exact prev a (fun same => apart (same ▸ member)) member

variable [DecidableEq α]

theorem frame_take {cells : List α} (linked : Linked h cells) (before_ : before ∉ cells)
    (behind_ : behind ∉ cells) : Linked (h.take before behind) cells := by
  apply linked.frame
  · intro a member
    have other : a ≠ before := fun same => before_ (same ▸ List.mem_of_mem_dropLast member)
    simp [Heap.take, other]
  · intro a member
    have other : a ≠ behind := fun same => behind_ (same ▸ List.mem_of_mem_tail member)
    simp [Heap.take, other]

theorem frame_put {cells : List α} (linked : Linked h cells) (fresh : x ∉ cells)
    (before_ : before ∉ cells) (behind_ : behind ∉ cells) :
    Linked (h.put before x behind) cells := by
  apply linked.frame
  · intro a member
    have inside := List.mem_of_mem_dropLast member
    have other : a ≠ before := fun same => before_ (same ▸ inside)
    have another : a ≠ x := fun same => fresh (same ▸ inside)
    simp [Heap.put, other, another]
  · intro a member
    have inside := List.mem_of_mem_tail member
    have other : a ≠ behind := fun same => behind_ (same ▸ inside)
    have another : a ≠ x := fun same => fresh (same ▸ inside)
    simp [Heap.put, other, another]

/-- **A cell taken out.** -/
theorem take (linked : Linked h (front ++ before :: x :: behind :: back))
    (nodup : (front ++ before :: x :: behind :: back).Nodup) :
    Linked (h.take before behind) (front ++ before :: behind :: back) := by
  obtain ⟨upto, _, from_⟩ := seam.1 linked
  have rest : Linked h (behind :: back) := List.IsChain.tail from_
  simp only [List.nodup_append, List.nodup_cons, List.mem_cons, not_or, ne_eq, forall_eq_or_imp]
    at nodup
  obtain ⟨_, ⟨⟨_, near, far⟩, _, last, _⟩, apart⟩ := nodup
  have alone : before ∉ front := fun member => (apart before member).1 rfl
  have behind_ : behind ∉ front := fun member => (apart behind member).2.2.1 rfl
  refine seam.2 ⟨?_, ?_, ?_⟩
  · refine upto.frame_front alone
      (show behind ∉ front ++ [before] by simp [behind_, Ne.symm near]) ?_ ?_
    · intro a other _
      simp [Heap.take, other]
    · intro a other _
      simp [Heap.take, other]
  · simp [Link, Heap.take]
  · refine rest.frame_back last (show before ∉ behind :: back by simp [near, far]) ?_ ?_
    · intro a other _
      simp [Heap.take, other]
    · intro a other _
      simp [Heap.take, other]

/-- **A cell put in.** -/
theorem put (linked : Linked h (front ++ before :: behind :: back))
    (nodup : (front ++ before :: behind :: back).Nodup)
    (fresh : x ∉ front ++ before :: behind :: back) :
    Linked (h.put before x behind) (front ++ before :: x :: behind :: back) := by
  obtain ⟨upto, _, rest⟩ := seam.1 linked
  simp only [List.nodup_append, List.nodup_cons, List.mem_cons, not_or, ne_eq, forall_eq_or_imp]
    at nodup
  obtain ⟨_, ⟨⟨near, far⟩, last, _⟩, apart⟩ := nodup
  simp only [List.mem_append, List.mem_cons, not_or] at fresh
  obtain ⟨fresh_front, fresh_before, fresh_behind, fresh_back⟩ := fresh
  have alone : before ∉ front := fun member => (apart before member).1 rfl
  have behind_ : behind ∉ front := fun member => (apart behind member).2.1 rfl
  refine seam.2 ⟨?_, ?_, List.isChain_cons_cons.2 ⟨?_, ?_⟩⟩
  · refine upto.frame_front alone
      (show behind ∉ front ++ [before] by simp [behind_, Ne.symm near]) ?_ ?_
    · intro a other member
      have new : a ≠ x := fun same => fresh_front (same ▸ member)
      simp [Heap.put, other, new]
    · intro a other member
      have new : a ≠ x := by
        rintro rfl
        simp [fresh_front, fresh_before] at member
      simp [Heap.put, other, new]
  · simp [Link, Heap.put, fresh_behind]
  · simp [Link, Heap.put, fresh_before]
  · refine rest.frame_back last (show before ∉ behind :: back by simp [near, far]) ?_ ?_
    · intro a other member
      have new : a ≠ x := by
        rintro rfl
        simp [fresh_behind, fresh_back] at member
      simp [Heap.put, other, new]
    · intro a other member
      have new : a ≠ x := fun same => fresh_back (same ▸ member)
      simp [Heap.put, other, new]

end Linked

/-! ## Walks -/

variable [DecidableEq α]

/-- The cells met from `a` until `stop`, in at most so many steps; `none` if a link is
missing or `stop` is not met. -/
def walk (step : α → Option α) (stop : α) : Nat → α → Option (List α)
  | 0, _ => none
  | steps + 1, a =>
      (step a).bind fun b => if b = stop then some [] else (walk step stop steps b).map (b :: ·)

theorem walk_of_chain {step : α → Option α} {stop : α} :
    ∀ {cells : List α} {a : α}, (a :: cells ++ [stop]).IsChain (fun a b => step a = some b) →
      stop ∉ cells → walk step stop (cells.length + 1) a = some cells
  | [], a, chain, _ => by
      have link : step a = some stop := (List.isChain_cons_cons.1 chain).1
      simp [walk, link]
  | b :: cells, a, chain, apart => by
      obtain ⟨link, rest⟩ := List.isChain_cons_cons.1 chain
      rw [List.mem_cons, not_or] at apart
      rw [List.length_cons, walk, link, Option.bind_some, if_neg (Ne.symm apart.1),
        walk_of_chain rest apart.2, Option.map_some]

theorem Linked.walk_next {h : Heap α} {first last : α} {cells : List α}
    (linked : Linked h (first :: cells ++ [last])) (apart : last ∉ cells) :
    walk h.next last (cells.length + 1) first = some cells :=
  walk_of_chain (linked.imp fun _ _ link => link.1) apart

theorem Linked.walk_prev {h : Heap α} {first last : α} {cells : List α}
    (linked : Linked h (first :: cells ++ [last])) (apart : first ∉ cells) :
    walk h.prev first (cells.length + 1) last = some cells.reverse := by
  have back : (last :: cells.reverse ++ [first]).IsChain fun a b => h.prev a = some b := by
    have turned := List.isChain_reverse.2 (linked.imp fun _ _ link => link.2)
    simpa using turned
  have found := walk_of_chain back (by simpa using apart)
  rwa [List.length_reverse] at found

end Linked

end Clumsy.Theory
