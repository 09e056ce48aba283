/-
# Packet.Links -- packet.cpp: the lists as linked nodes

Elsewhere a queue is a `List` of nodes.  Here are the nodes' links themselves: a heap, the
sentinels of the packet list and of the modules' buffers (`Ends`), and the four operations
as the source assigns them, where a failed assertion or a missing link has no result.

`Represents` ties the links to the lists: sentinel, elements, sentinel, all linked, no node
in two places.  One operation moves it to the list the operation names (`step_represents`,
from the cell taken out or put in), so it holds along every sequence of operations whose
popped nodes are elements and whose inserted nodes are in no list (`lists_wellFormed`).  It
holds at the start, when every list is set up for the first time (`represents_start`).
-/
import Clumsy.Theory.Linked
import Clumsy.Theory.Run

namespace Clumsy.Packet.Links

open Clumsy.Theory

set_option autoImplicit false

universe u v

/-- Two sentinels for every list, no two of them the same node. -/
structure Ends (ι : Type u) (α : Type v) where
  head     : ι → α
  tail     : ι → α
  /-- The packet list; the other lists are the modules' buffers. -/
  main     : ι
  distinct : Function.Injective (Sum.elim head tail)

section Lists

variable {ι : Type u} {α : Type v} (ends : Ends ι α)

/-! ## The lists -/

/-- A list with its sentinels. -/
def Ends.cells (q : ι → List α) (i : ι) : List α := ends.head i :: q i ++ [ends.tail i]

/-- The links are those of the lists. -/
structure Represents (h : Heap α) (q : ι → List α) : Prop where
  linked : ∀ i, Linked h (ends.cells q i)
  nodup  : ∀ i, (ends.cells q i).Nodup
  apart  : ∀ i j x, x ∈ ends.cells q i → x ∈ ends.cells q j → i = j

/-- A sentinel is none of the others. -/
theorem Ends.head_ne_tail (i j : ι) : ends.head i ≠ ends.tail j := by
  intro same
  have both : Sum.elim ends.head ends.tail (.inl i) = Sum.elim ends.head ends.tail (.inr j) := same
  exact Sum.inl_ne_inr (ends.distinct both)

theorem Ends.tail_inj {i j : ι} (same : ends.tail i = ends.tail j) : i = j := by
  have both : Sum.elim ends.head ends.tail (.inr i) = Sum.elim ends.head ends.tail (.inr j) := same
  exact Sum.inr.inj (ends.distinct both)

theorem Ends.head_inj {i j : ι} (same : ends.head i = ends.head j) : i = j := by
  have both : Sum.elim ends.head ends.tail (.inl i) = Sum.elim ends.head ends.tail (.inl j) := same
  exact Sum.inl.inj (ends.distinct both)

theorem Ends.mem_cells {q : ι → List α} {i : ι} {x : α} :
    x ∈ ends.cells q i ↔ x = ends.head i ∨ x ∈ q i ∨ x = ends.tail i := by
  simp [Ends.cells]

variable {ends}

theorem Represents.head_notMem {h : Heap α} {q : ι → List α} (rep : Represents ends h q)
    (i j : ι) : ends.head i ∉ q j := by
  intro member
  have same : i = j :=
    rep.apart i j _ (ends.mem_cells.2 (.inl rfl)) (ends.mem_cells.2 (.inr (.inl member)))
  subst same
  have nodup := rep.nodup i
  simp [Ends.cells, member] at nodup

theorem Represents.tail_notMem {h : Heap α} {q : ι → List α} (rep : Represents ends h q)
    (i j : ι) : ends.tail i ∉ q j := by
  intro member
  have same : i = j :=
    rep.apart i j _ (ends.mem_cells.2 (.inr (.inr rfl))) (ends.mem_cells.2 (.inr (.inl member)))
  subst same
  have nodup := rep.nodup i
  simp only [Ends.cells, List.nodup_append] at nodup
  exact nodup.2.2 _ (.tail _ member) _ (List.mem_singleton_self _) rfl

/-- An element of a list is there once, and in no other list. -/
theorem Represents.element {h : Heap α} {q : ι → List α} (rep : Represents ends h q)
    {i : ι} {x : α} (member : x ∈ q i) :
    (∃ front back, q i = front ++ x :: back ∧ x ∉ front ∧ x ∉ back) ∧ ∀ j, j ≠ i → x ∉ q j := by
  constructor
  · obtain ⟨front, back, split⟩ := List.append_of_mem member
    have nodup : (q i).Nodup := by
      have cells := rep.nodup i
      rw [Ends.cells, List.cons_append] at cells
      exact cells.of_cons.of_append_left
    rw [split, List.nodup_middle, List.nodup_cons, List.mem_append, not_or] at nodup
    exact ⟨front, back, split, nodup.1⟩
  · intro j other there
    exact other (rep.apart j i x (ends.mem_cells.2 (.inr (.inl there)))
      (ends.mem_cells.2 (.inr (.inl member))))

/-- A node in no list is none of the main sentinels. -/
theorem inner_of_fresh {q : ι → List α} {node : α} (fresh : ∀ i, node ∉ ends.cells q i) :
    node ≠ ends.head ends.main ∧ node ≠ ends.tail ends.main := by
  have none_ := fresh ends.main
  rw [ends.mem_cells, not_or, not_or] at none_
  exact ⟨none_.1, none_.2.2⟩

/-- The cell before the one a list goes on from. -/
theorem exists_before (a : α) (l : List α) : ∃ front before, a :: l = front ++ [before] := by
  rcases List.eq_nil_or_concat' (a :: l) with none_ | ⟨front, before, split⟩
  · exact absurd none_ (List.cons_ne_nil a l)
  · exact ⟨front, before, split⟩

theorem exists_behind (l : List α) (a : α) : ∃ behind back, l ++ [a] = behind :: back :=
  List.exists_cons_of_ne_nil (by simp)

end Lists

section Source

variable {ι : Type u} {α : Type v} [DecidableEq α] (ends : Ends ι α)

/-! ## The operations -/

/-- `initPacketNodeList`: an assertion that the list is empty where it was used before. -/
def initPacketNodeList (h : Heap α) : Option (Heap α) :=
  let head := ends.head ends.main
  let tail := ends.tail ends.main
  if h.next head = none ∧ h.prev tail = none then
    some ((h.setNext head (some tail)).setPrev tail (some head))
  else if h.next head = some tail then some h
  else none

/-- The same at the start of a module with a buffer, which looks at `bufTail->next`. -/
def initBuf (h : Heap α) (i : ι) : Option (Heap α) :=
  let bufHead := ends.head i
  let bufTail := ends.tail i
  if h.next bufHead = none ∧ h.next bufTail = none then
    some ((h.setNext bufHead (some bufTail)).setPrev bufTail (some bufHead))
  else if h.next bufHead = some bufTail then some h
  else none

def popNode (h : Heap α) (node : α) : Option (Heap α) :=
  if node = ends.head ends.main ∨ node = ends.tail ends.main then none
  else do
    let before ← h.prev node
    let h := h.setNext before (h.next node)
    let behind ← h.next node
    return h.setPrev behind (h.prev node)

def insertAfter (h : Heap α) (node target : α) : Option (Heap α) :=
  if node = ends.head ends.main ∨ node = ends.tail ends.main ∨ target = ends.tail ends.main then
    none
  else do
    let h := h.setPrev node (some target)
    let h := h.setNext node (h.next target)
    let behind ← h.next target
    let h := h.setPrev behind (some node)
    return h.setNext target (some node)

def insertBefore (h : Heap α) (node target : α) : Option (Heap α) :=
  if node = ends.head ends.main ∨ node = ends.tail ends.main ∨ target = ends.head ends.main then
    none
  else do
    let h := h.setNext node (some target)
    let h := h.setPrev node (h.prev target)
    let before ← h.prev target
    let h := h.setNext before (some node)
    return h.setPrev target (some node)

def appendNode (h : Heap α) (node : α) : Option (Heap α) :=
  insertBefore ends h node (ends.tail ends.main)

def isListEmpty (h : Heap α) : Bool := h.next (ends.head ends.main) == some (ends.tail ends.main)

inductive Op (α : Type v)
  | popNode (node : α)
  | insertAfter (node target : α)
  | insertBefore (node target : α)
  | appendNode (node : α)

def step (h : Heap α) : Op α → Option (Heap α)
  | .popNode node => popNode ends h node
  | .insertAfter node target => insertAfter ends h node target
  | .insertBefore node target => insertBefore ends h node target
  | .appendNode node => appendNode ends h node

/-! ## What the operations are for -/

/-- `new` in the place of an element. -/
def replaced (target : α) (new l : List α) : List α :=
  l.flatMap fun x => if x = target then new else [x]

/-- The lists after an operation: one element less, or one more at the place that is
named. -/
def Op.apply (q : ι → List α) : Op α → ι → List α
  | .popNode node, i => (q i).erase node
  | .insertAfter node target, i =>
      if target = ends.head i then node :: q i
      else replaced target [target, node] (q i)
  | .insertBefore node target, i =>
      if target = ends.tail i then q i ++ [node]
      else replaced target [node, target] (q i)
  | .appendNode node, i => if ends.tail i = ends.tail ends.main then q i ++ [node] else q i

/-- What the callers ensure: a popped node is an element, an inserted one is nowhere, and it
is put next to an element or to the sentinel on that side. -/
def Op.Ensured (q : ι → List α) : Op α → Prop
  | .popNode node => ∃ i, node ∈ q i
  | .insertAfter node target =>
      (∀ i, node ∉ ends.cells q i) ∧ ∃ i, target ∈ ends.head i :: q i
  | .insertBefore node target =>
      (∀ i, node ∉ ends.cells q i) ∧ ∃ i, target ∈ q i ++ [ends.tail i]
  | .appendNode node => ∀ i, node ∉ ends.cells q i

instance decidableEnsured [Fintype ι] (q : ι → List α) :
    (op : Op α) → Decidable (op.Ensured ends q)
  | .popNode node => inferInstanceAs (Decidable (∃ i, node ∈ q i))
  | .insertAfter node target => inferInstanceAs (Decidable
      ((∀ i, node ∉ ends.cells q i) ∧ ∃ i, target ∈ ends.head i :: q i))
  | .insertBefore node target => inferInstanceAs (Decidable
      ((∀ i, node ∉ ends.cells q i) ∧ ∃ i, target ∈ q i ++ [ends.tail i]))
  | .appendNode node => inferInstanceAs (Decidable (∀ i, node ∉ ends.cells q i))

def lists : Machine (ι → List α) (Op α) where
  step := Op.apply ends
  admits := Op.Ensured ends

instance [Fintype ι] (q : ι → List α) (op : Op α) : Decidable ((lists ends).admits q op) :=
  decidableEnsured ends q op

/-- The one removal or insertion that an operation names, and nothing in the other lists. -/
def Op.Changes (q q' : ι → List α) : Op α → Prop
  | .popNode node => ∃ i front back,
      q i = front ++ node :: back ∧ q' i = front ++ back ∧ ∀ j, j ≠ i → q' j = q j
  | .insertAfter node target => ∃ i front back,
      ends.head i :: q i = front ++ target :: back ∧
        ends.head i :: q' i = front ++ target :: node :: back ∧ ∀ j, j ≠ i → q' j = q j
  | .insertBefore node target => ∃ i front back,
      q i ++ [ends.tail i] = front ++ target :: back ∧
        q' i ++ [ends.tail i] = front ++ node :: target :: back ∧ ∀ j, j ≠ i → q' j = q j
  | .appendNode node =>
      q' ends.main = q ends.main ++ [node] ∧ ∀ j, j ≠ ends.main → q' j = q j

/-- Every list as a reader of the links finds it: neighbours point at each other, the walk from
either sentinel ends at the other, one the reverse of the other, and `isListEmpty` is what it is
called. -/
structure WellFormed (h : Heap α) (q : ι → List α) : Prop where
  inverse   : ∀ i front a b back, ends.cells q i = front ++ a :: b :: back →
    h.next a = some b ∧ h.prev b = some a
  forwards  : ∀ i, walk h.next (ends.tail i) ((q i).length + 1) (ends.head i) = some (q i)
  backwards : ∀ i, walk h.prev (ends.head i) ((q i).length + 1) (ends.tail i) =
    some (q i).reverse
  empty     : isListEmpty ends h = true ↔ q ends.main = []

/-! ## The operations on linked cells -/

variable {ends} {h : Heap α} {front back : List α} {before node behind : α}

/-- A node between two others is taken out, whatever list it is in. -/
theorem popNode_eq (linked : Linked h (front ++ before :: node :: behind :: back))
    (other : node ≠ before) (inner : node ≠ ends.head ends.main ∧ node ≠ ends.tail ends.main) :
    popNode ends h node = some (h.take before behind) := by
  obtain ⟨first, second⟩ := linked.neighbours
  have next : (h.setNext before (some behind)).next node = some behind := by
    rw [Heap.setNext_next, if_neg other, second.1]
  rw [popNode, if_neg (not_or.2 inner), first.2]
  simp only [Option.bind_eq_bind, Option.bind_some, second.1, next, Heap.setNext_prev, first.2]
  rfl

theorem insertAfter_eq (linked : Linked h (front ++ before :: behind :: back))
    (other : node ≠ before) (inner : node ≠ ends.head ends.main ∧ node ≠ ends.tail ends.main)
    (target : before ≠ ends.tail ends.main) :
    insertAfter ends h node before = some (h.put before node behind) := by
  have link : Link h before behind := (Linked.seam.1 linked).2.1
  have next : (h.setNext node (some behind)).next before = some behind := by
    rw [Heap.setNext_next, if_neg (Ne.symm other), link.1]
  have none_ : ¬ (node = ends.head ends.main ∨ node = ends.tail ends.main ∨
      before = ends.tail ends.main) := by
    rintro (same | same | same)
    · exact inner.1 same
    · exact inner.2 same
    · exact target same
  rw [insertAfter, if_neg none_]
  simp only [Heap.setPrev_next, link.1]
  rw [Heap.setNext_next, if_neg (Ne.symm other), Heap.setPrev_next, link.1]
  rfl

theorem insertBefore_eq (linked : Linked h (front ++ before :: behind :: back))
    (other : node ≠ behind) (inner : node ≠ ends.head ends.main ∧ node ≠ ends.tail ends.main)
    (target : behind ≠ ends.head ends.main) :
    insertBefore ends h node behind = some (h.put before node behind) := by
  have link : Link h before behind := (Linked.seam.1 linked).2.1
  have none_ : ¬ (node = ends.head ends.main ∨ node = ends.tail ends.main ∨
      behind = ends.head ends.main) := by
    rintro (same | same | same)
    · exact inner.1 same
    · exact inner.2 same
    · exact target same
  rw [insertBefore, if_neg none_]
  simp only [Heap.setNext_prev, link.2]
  rw [Heap.setPrev_prev, if_neg (Ne.symm other), Heap.setNext_prev, link.2]
  rfl

/-! ## Links and lists -/

namespace Represents

variable {q q' : ι → List α} {i : ι}

/-- A cell taken out of one list, and the others left alone. -/
theorem removed (rep : Represents ends h q)
    (here : ends.cells q i = front ++ before :: node :: behind :: back)
    (there : ends.cells q' i = front ++ before :: behind :: back)
    (rest : ∀ j, j ≠ i → q' j = q j) : Represents ends (h.take before behind) q' := by
  have less : ∀ j, (ends.cells q' j).Sublist (ends.cells q j) := by
    intro j
    by_cases same : j = i
    · rw [same, here, there]
      exact (List.Sublist.refl front).append ((List.sublist_cons_self node _).cons_cons before)
    · rw [Ends.cells, Ends.cells, rest j same]
  refine ⟨?_, ?_, ?_⟩
  · intro j
    by_cases same : j = i
    · have linked := rep.linked i
      have nodup := rep.nodup i
      rw [here] at linked nodup
      rw [same, there]
      exact linked.take nodup
    · have cells : ends.cells q' j = ends.cells q j := by rw [Ends.cells, Ends.cells, rest j same]
      rw [cells]
      apply (rep.linked j).frame_take
      · intro member
        exact same (rep.apart j i before member (by simp [here]))
      · intro member
        exact same (rep.apart j i behind member (by simp [here]))
  · intro j
    exact (rep.nodup j).sublist (less j)
  · intro j k x first second
    exact rep.apart j k x ((less j).subset first) ((less k).subset second)

/-- A cell that was nowhere put into one list, and the others left alone. -/
theorem inserted (rep : Represents ends h q) (fresh : ∀ j, node ∉ ends.cells q j)
    (here : ends.cells q i = front ++ before :: behind :: back)
    (there : ends.cells q' i = front ++ before :: node :: behind :: back)
    (rest : ∀ j, j ≠ i → q' j = q j) : Represents ends (h.put before node behind) q' := by
  have cells : ∀ j, j ≠ i → ends.cells q' j = ends.cells q j := by
    intro j other
    rw [Ends.cells, Ends.cells, rest j other]
  have more : ∀ j x, x ∈ ends.cells q' j → x ∈ ends.cells q j ∨ (j = i ∧ x = node) := by
    intro j x member
    by_cases same : j = i
    · rw [same, there] at member
      rw [same, here]
      simp only [List.mem_append, List.mem_cons] at member ⊢
      tauto
    · rw [cells j same] at member
      exact .inl member
  refine ⟨?_, ?_, ?_⟩
  · intro j
    by_cases same : j = i
    · have linked := rep.linked i
      have nodup := rep.nodup i
      have new := fresh i
      rw [here] at linked nodup new
      rw [same, there]
      exact linked.put nodup new
    · rw [cells j same]
      apply (rep.linked j).frame_put (fresh j)
      · intro member
        exact same (rep.apart j i before member (by simp [here]))
      · intro member
        exact same (rep.apart j i behind member (by simp [here]))
  · intro j
    by_cases same : j = i
    · have nodup := rep.nodup i
      have new := fresh i
      rw [here] at nodup new
      rw [same, there]
      have turned : (front ++ before :: node :: behind :: back).Perm
          (node :: (front ++ before :: behind :: back)) := by
        have moved := @List.perm_middle α node (front ++ [before]) (behind :: back)
        simpa using moved
      exact turned.nodup_iff.2 (List.nodup_cons.2 ⟨new, nodup⟩)
    · rw [cells j same]
      exact rep.nodup j
  · intro j k x first second
    rcases more j x first with old | ⟨here_, new⟩ <;> rcases more k x second with old' | ⟨here', new'⟩
    · exact rep.apart j k x old old'
    · exact absurd (new' ▸ old) (fresh j)
    · exact absurd (new ▸ old') (fresh k)
    · rw [here_, here']

end Represents

/-! ## The steps -/

theorem replaced_of_notMem {target : α} {l : List α} (absent : target ∉ l) (new : List α) :
    replaced target new l = l := by
  induction l with
  | nil => rfl
  | cons x l ih =>
      rw [List.mem_cons, not_or] at absent
      rw [replaced, List.flatMap_cons, if_neg (Ne.symm absent.1)]
      exact congrArg (x :: ·) (ih absent.2)

theorem replaced_append {target : α} {front back : List α} (first : target ∉ front)
    (second : target ∉ back) (new : List α) :
    replaced target new (front ++ target :: back) = front ++ new ++ back := by
  have before := replaced_of_notMem first new
  have behind := replaced_of_notMem second new
  unfold replaced at before behind ⊢
  rw [List.flatMap_append, List.flatMap_cons, before, behind, if_pos rfl, List.append_assoc]

/-- An operation changes the list it names, there, and no other. -/
theorem apply_changes {q : ι → List α} (rep : Represents ends h q) {op : Op α}
    (ensured : op.Ensured ends q) : op.Changes ends q (op.apply ends q) := by
  cases op with
  | popNode node =>
      obtain ⟨i, member⟩ := ensured
      obtain ⟨⟨front, back, split, first, _⟩, elsewhere⟩ := rep.element member
      refine ⟨i, front, back, split, ?_, ?_⟩
      · rw [Op.apply, split, List.erase_append_right _ first, List.erase_cons_head]
      · intro j other
        exact List.erase_of_not_mem (elsewhere j other)
  | insertAfter node target =>
      obtain ⟨_, i, member⟩ := ensured
      rcases List.mem_cons.1 member with rfl | member
      · refine ⟨i, [], q i, rfl, ?_, ?_⟩
        · simp [Op.apply]
        · intro j other
          rw [Op.apply, if_neg fun same => other (ends.head_inj same).symm,
            replaced_of_notMem (rep.head_notMem i j)]
      · obtain ⟨⟨front, back, split, first, second⟩, elsewhere⟩ := rep.element member
        have inner : ∀ j, target ≠ ends.head j := by
          rintro j rfl
          exact rep.head_notMem j i member
        refine ⟨i, ends.head i :: front, back, by rw [split]; rfl, ?_, ?_⟩
        · rw [Op.apply, if_neg (inner i), split, replaced_append first second]
          simp
        · intro j other
          rw [Op.apply, if_neg (inner j), replaced_of_notMem (elsewhere j other)]
  | insertBefore node target =>
      obtain ⟨_, i, member⟩ := ensured
      rcases List.mem_append.1 member with member | last
      · obtain ⟨⟨front, back, split, first, second⟩, elsewhere⟩ := rep.element member
        have inner : ∀ j, target ≠ ends.tail j := by
          rintro j rfl
          exact rep.tail_notMem j i member
        refine ⟨i, front, back ++ [ends.tail i], by rw [split]; simp, ?_, ?_⟩
        · rw [Op.apply, if_neg (inner i), split, replaced_append first second]
          simp
        · intro j other
          rw [Op.apply, if_neg (inner j), replaced_of_notMem (elsewhere j other)]
      · obtain rfl := List.mem_singleton.1 last
        refine ⟨i, q i, [], rfl, ?_, ?_⟩
        · simp [Op.apply]
        · intro j other
          rw [Op.apply, if_neg fun same => other (ends.tail_inj same).symm,
            replaced_of_notMem (rep.tail_notMem i j)]
  | appendNode node =>
      refine ⟨?_, ?_⟩
      · simp [Op.apply]
      · intro j other
        rw [Op.apply, if_neg fun same => other (ends.tail_inj same)]

/-- Taking out an element. -/
theorem popNode_represents {q q' : ι → List α} (rep : Represents ends h q) {i : ι}
    {front back : List α} (split : q i = front ++ node :: back) (after : q' i = front ++ back)
    (rest : ∀ j, j ≠ i → q' j = q j) :
    ∃ h', popNode ends h node = some h' ∧ Represents ends h' q' := by
  obtain ⟨front', before, first⟩ := exists_before (ends.head i) front
  obtain ⟨behind, back', second⟩ := exists_behind back (ends.tail i)
  have here : ends.cells q i = front' ++ before :: node :: behind :: back' := by
    calc ends.cells q i = (ends.head i :: front) ++ node :: (back ++ [ends.tail i]) := by
          simp [Ends.cells, split]
      _ = front' ++ before :: node :: behind :: back' := by simp [first, second]
  have there : ends.cells q' i = front' ++ before :: behind :: back' := by
    calc ends.cells q' i = (ends.head i :: front) ++ (back ++ [ends.tail i]) := by
          simp [Ends.cells, after]
      _ = front' ++ before :: behind :: back' := by simp [first, second]
  have linked := rep.linked i
  have nodup := rep.nodup i
  rw [here] at linked nodup
  have member : node ∈ q i := by simp [split]
  have other : node ≠ before := by
    rintro rfl
    simp [List.nodup_append] at nodup
  refine ⟨_, popNode_eq linked other ⟨?_, ?_⟩, rep.removed here there rest⟩
  · rintro rfl
    exact rep.head_notMem ends.main i member
  · rintro rfl
    exact rep.tail_notMem ends.main i member

/-- Putting in a node behind an element or the first sentinel. -/
theorem insertAfter_represents {q q' : ι → List α} (rep : Represents ends h q)
    (fresh : ∀ j, node ∉ ends.cells q j) {i : ι} {target : α} {front back : List α}
    (split : ends.head i :: q i = front ++ target :: back)
    (after : ends.head i :: q' i = front ++ target :: node :: back)
    (rest : ∀ j, j ≠ i → q' j = q j) :
    ∃ h', insertAfter ends h node target = some h' ∧ Represents ends h' q' := by
  obtain ⟨behind, back', second⟩ := exists_behind back (ends.tail i)
  have here : ends.cells q i = front ++ target :: behind :: back' := by
    simp [Ends.cells, split, second]
  have there : ends.cells q' i = front ++ target :: node :: behind :: back' := by
    simp [Ends.cells, after, second]
  have linked := rep.linked i
  rw [here] at linked
  have member : target ∈ ends.head i :: q i := by simp [split]
  have other : node ≠ target := by
    rintro rfl
    exact fresh i (by simp [here])
  refine ⟨_, insertAfter_eq linked other (inner_of_fresh fresh) ?_,
    rep.inserted fresh here there rest⟩
  rintro rfl
  rcases List.mem_cons.1 member with same | member
  · exact ends.head_ne_tail i ends.main same.symm
  · exact rep.tail_notMem ends.main i member

/-- Putting in a node before an element or the last sentinel. -/
theorem insertBefore_represents {q q' : ι → List α} (rep : Represents ends h q)
    (fresh : ∀ j, node ∉ ends.cells q j) {i : ι} {target : α} {front back : List α}
    (split : q i ++ [ends.tail i] = front ++ target :: back)
    (after : q' i ++ [ends.tail i] = front ++ node :: target :: back)
    (rest : ∀ j, j ≠ i → q' j = q j) :
    ∃ h', insertBefore ends h node target = some h' ∧ Represents ends h' q' := by
  obtain ⟨front', before, first⟩ := exists_before (ends.head i) front
  have here : ends.cells q i = front' ++ before :: target :: back := by
    calc ends.cells q i = (ends.head i :: front) ++ target :: back := by
          simp [Ends.cells, split]
      _ = front' ++ before :: target :: back := by simp [first]
  have there : ends.cells q' i = front' ++ before :: node :: target :: back := by
    calc ends.cells q' i = (ends.head i :: front) ++ node :: target :: back := by
          simp [Ends.cells, after]
      _ = front' ++ before :: node :: target :: back := by simp [first]
  have linked := rep.linked i
  rw [here] at linked
  have member : target ∈ q i ++ [ends.tail i] := by simp [split]
  have other : node ≠ target := by
    rintro rfl
    exact fresh i (by simp [here])
  refine ⟨_, insertBefore_eq linked other (inner_of_fresh fresh) ?_,
    rep.inserted fresh here there rest⟩
  rintro rfl
  rcases List.mem_append.1 member with member | last
  · exact rep.head_notMem ends.main i member
  · exact ends.head_ne_tail ends.main i (List.mem_singleton.1 last)

/-- **One operation.**  It succeeds, and the links are those of the lists it leaves. -/
theorem step_represents {q : ι → List α} (rep : Represents ends h q) {op : Op α}
    (ensured : op.Ensured ends q) :
    ∃ h', step ends h op = some h' ∧ Represents ends h' (op.apply ends q) := by
  have changes := apply_changes rep ensured
  cases op with
  | popNode node =>
      obtain ⟨i, front, back, split, after, rest⟩ := changes
      exact popNode_represents rep split after rest
  | insertAfter node target =>
      obtain ⟨i, front, back, split, after, rest⟩ := changes
      exact insertAfter_represents rep ensured.1 split after rest
  | insertBefore node target =>
      obtain ⟨i, front, back, split, after, rest⟩ := changes
      exact insertBefore_represents rep ensured.1 split after rest
  | appendNode node =>
      obtain ⟨after, rest⟩ := changes
      have last : Op.apply ends q (.appendNode node) ends.main ++ [ends.tail ends.main] =
          q ends.main ++ node :: ends.tail ends.main :: [] := by
        rw [after]
        simp
      exact insertBefore_represents rep ensured rfl last rest

/-! ## Sequences of operations -/

/-- The operations on the links, one after the other. -/
def runOps (ends : Ends ι α) (h : Heap α) (ops : List (Op α)) : Option (Heap α) :=
  ops.foldlM (step ends) h

theorem runOps_represents (ops : List (Op α)) {h : Heap α} {q : ι → List α}
    (rep : Represents ends h q) (ensured : (lists ends).Admissible q ops) :
    ∃ h', runOps ends h ops = some h' ∧ Represents ends h' ((lists ends).run q ops) := by
  induction ops generalizing h q with
  | nil => exact ⟨h, rfl, rep⟩
  | cons op ops ih =>
      obtain ⟨h', here, rep'⟩ := step_represents rep ensured.1
      obtain ⟨last, later, rep''⟩ := ih rep' ensured.2
      refine ⟨last, ?_, rep''⟩
      rw [runOps, List.foldlM_cons, here]
      exact later

theorem isListEmpty_iff {q : ι → List α} (rep : Represents ends h q) :
    isListEmpty ends h = true ↔ q ends.main = [] := by
  have linked := rep.linked ends.main
  rw [isListEmpty, beq_iff_eq]
  cases contents : q ends.main with
  | nil =>
      rw [Ends.cells, contents] at linked
      exact iff_of_true (List.isChain_cons_cons.1 linked).1.1 rfl
  | cons x xs =>
      rw [Ends.cells, contents] at linked
      have next := (List.isChain_cons_cons.1 linked).1.1
      rw [next]
      refine iff_of_false ?_ (List.cons_ne_nil x xs)
      intro same
      have tail : ends.tail ends.main ∈ q ends.main := by
        rw [contents, ← Option.some.inj same]
        exact .head xs
      exact rep.tail_notMem ends.main ends.main tail

/-- What the links of represented lists look like. -/
theorem Represents.wellFormed {q : ι → List α} (rep : Represents ends h q) :
    WellFormed ends h q := by
  refine ⟨?_, ?_, ?_, isListEmpty_iff rep⟩
  · intro i front a b back split
    have linked := rep.linked i
    rw [split] at linked
    exact (Linked.seam.1 linked).2.1
  · intro i
    exact (rep.linked i).walk_next (rep.tail_notMem i i)
  · intro i
    exact (rep.linked i).walk_prev (rep.head_notMem i i)

/-! ## The start -/

/-- Some lists are set up and empty, the sentinels of the others are as they were. -/
def Started (ends : Ends ι α) (ready : ι → Prop) (h : Heap α) : Prop :=
  ∀ i, (ready i → Link h (ends.head i) (ends.tail i)) ∧
    (¬ready i → h.next (ends.head i) = none ∧ h.next (ends.tail i) = none)

/-- Setting up one more list, whatever it looks at to see that it is the first time. -/
theorem Started.more {ready : ι → Prop} (started : Started ends ready h) {i : ι}
    (new : ¬ready i) :
    Started ends (fun j => ready j ∨ j = i)
      ((h.setNext (ends.head i) (some (ends.tail i))).setPrev (ends.tail i)
        (some (ends.head i))) := by
  intro j
  refine ⟨?_, ?_⟩
  · rintro (old | rfl)
    · have other : j ≠ i := fun same => new (same ▸ old)
      have head : ends.head j ≠ ends.head i := fun same => other (ends.head_inj same)
      have tail : ends.tail j ≠ ends.tail i := fun same => other (ends.tail_inj same)
      obtain ⟨next, prev⟩ := (started j).1 old
      exact ⟨by simpa [head] using next, by simpa [tail] using prev⟩
    · exact ⟨by simp, by simp⟩
  · intro neither
    rw [not_or] at neither
    have head : ends.head j ≠ ends.head i := fun same => neither.2 (ends.head_inj same)
    have tail : ends.tail j ≠ ends.head i := fun same => ends.head_ne_tail i j same.symm
    simpa [head, tail] using (started j).2 neither.1

theorem initBuf_started {ready : ι → Prop} (started : Started ends ready h) (i : ι) :
    ∃ h', initBuf ends h i = some h' ∧ Started ends (fun j => ready j ∨ j = i) h' := by
  by_cases again : ready i
  · have link := (started i).1 again
    refine ⟨h, ?_, ?_⟩
    · rw [initBuf]
      simp [link.1]
    · have same : (fun j => ready j ∨ j = i) = ready := by
        funext j
        exact propext (or_iff_left_of_imp fun here => here ▸ again)
      rwa [same]
  · refine ⟨_, ?_, started.more again⟩
    rw [initBuf]
    exact if_pos ((started i).2 again)

theorem initBufs_started (others : List ι) {ready : ι → Prop} (started : Started ends ready h) :
    ∃ h', others.foldlM (initBuf ends) h = some h' ∧
      Started ends (fun j => ready j ∨ j ∈ others) h' := by
  induction others generalizing h ready with
  | nil => exact ⟨h, rfl, by simpa using started⟩
  | cons i others ih =>
      obtain ⟨h', here, next⟩ := initBuf_started started i
      obtain ⟨last, later, done⟩ := ih next
      refine ⟨last, ?_, ?_⟩
      · rw [List.foldlM_cons, here]
        exact later
      · simpa [or_assoc] using done

/-- When the packet list and the buffers have been set up on links that were all missing,
the links are those of empty lists. -/
theorem represents_start (ends : Ends ι α) (others : List ι)
    (all : ∀ i, i = ends.main ∨ i ∈ others) :
    ∃ h, ((initPacketNodeList ends Heap.blank).bind fun h => others.foldlM (initBuf ends) h) =
        some h ∧ Represents ends h fun _ => [] := by
  have none_ : Started ends (fun _ => False) (Heap.blank : Heap α) := by
    intro i
    exact ⟨False.elim, fun _ => ⟨rfl, rfl⟩⟩
  have first := @Started.more ι α _ ends _ _ none_ ends.main not_false
  obtain ⟨h, run, started⟩ := initBufs_started others first
  refine ⟨h, ?_, ?_, ?_, ?_⟩
  · rw [initPacketNodeList]
    exact run
  · intro i
    have ready : (False ∨ i = ends.main) ∨ i ∈ others := by simpa using all i
    exact List.isChain_pair.2 ((started i).1 ready)
  · intro i
    simp [Ends.cells, ends.head_ne_tail i i]
  · intro i j x first second
    rw [ends.mem_cells] at first second
    rcases first with rfl | none_ | rfl
    · rcases second with same | none_ | same
      · exact ends.head_inj same
      · simp at none_
      · exact absurd same (ends.head_ne_tail i j)
    · simp at none_
    · rcases second with same | none_ | same
      · exact absurd same.symm (ends.head_ne_tail j i)
      · simp at none_
      · exact ends.tail_inj same

/-- **The lists stay lists.**  Every sequence of operations that takes out elements and puts
in nodes that are in no list succeeds; each operation changes one list, by the removal or the
insertion it names, and what the links are in the end is every list, well formed. -/
theorem lists_wellFormed {h : Heap α} {q : ι → List α} (start : Represents ends h q)
    (ops : List (Op α)) (ensured : (lists ends).Admissible q ops) :
    (∃ h', runOps ends h ops = some h' ∧ WellFormed ends h' ((lists ends).run q ops)) ∧
      ∀ before op, before ++ [op] <+: ops →
        op.Changes ends ((lists ends).run q before) ((lists ends).run q (before ++ [op])) := by
  constructor
  · obtain ⟨h', run, rep⟩ := runOps_represents ops start ensured
    exact ⟨h', run, rep.wellFormed⟩
  · rintro before op ⟨later, split⟩
    rw [← split, Machine.admissible_append, Machine.admissible_append] at ensured
    obtain ⟨⟨first, next, _⟩, _⟩ := ensured
    obtain ⟨h', _, rep⟩ := runOps_represents before start first
    rw [Machine.run_append]
    exact apply_changes rep next

end Source

/-! ## The six lists -/

/-- The lists of the program. -/
inductive Queue
  | packets | lag | jitter | throttle | ood | bandwidth
  deriving DecidableEq, Repr

instance : Fintype Queue where
  elems := {.packets, .lag, .jitter, .throttle, .ood, .bandwidth}
  complete := by
    intro i
    cases i <;> decide

/-- Sentinels at twelve addresses. -/
def sentinels : Ends Queue Nat where
  head i := 2 * i.ctorIdx
  tail i := 2 * i.ctorIdx + 1
  main := .packets
  distinct := by
    have index : Function.Injective Queue.ctorIdx := by
      intro i j same
      cases i <;> cases j <;> first | rfl | cases same
    rintro (i | i) (j | j) same
    · exact congrArg Sum.inl (index (Nat.eq_of_mul_eq_mul_left Nat.two_pos same))
    · simp only [Sum.elim_inl, Sum.elim_inr] at same
      omega
    · simp only [Sum.elim_inl, Sum.elim_inr] at same
      omega
    · simp only [Sum.elim_inr] at same
      exact congrArg Sum.inr (index (by omega))

/-- A packet comes in, waits in the buffer of lag and goes out again. -/
theorem lists_wellFormed_lag : ∃ h, Represents sentinels h (fun _ => []) ∧
    ∃ h', runOps sentinels h [.appendNode 20, .appendNode 21, .popNode 20, .insertAfter 20 2,
        .popNode 20, .insertAfter 20 0] = some h' ∧
      walk h'.next 1 3 0 = some [20, 21] := by
  obtain ⟨h, _, start⟩ := represents_start sentinels [.lag, .jitter, .throttle, .ood, .bandwidth]
    (by intro i; cases i <;> simp [sentinels])
  obtain ⟨⟨h', run, formed⟩, _⟩ := lists_wellFormed start [.appendNode 20, .appendNode 21,
    .popNode 20, .insertAfter 20 2, .popNode 20, .insertAfter 20 0] (by decide)
  exact ⟨h, start, h', run, formed.forwards .packets⟩

end Clumsy.Packet.Links
