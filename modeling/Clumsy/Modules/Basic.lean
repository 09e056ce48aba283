/-
# Modules.Basic -- what the twelve modules share

A module's `process` sees the main queue and, for five of the modules, a private
buffer between two sentinels.  `Queues` is that pair together with the nodes
handed to `freeNode`; the loops the modules have in common are operations on it:

* `takeIn`: walk from the tail of the main queue towards the head and move the
  chosen packets behind `bufHead`; `pickUp` is the walk of lag, jitter and
  throttle, which starts over after every packet it takes (`pickUp_eq_takeIn`);
* `releaseOldest`: move packets from `bufTail` to the head of the main queue,
  while a budget lasts;
* `flushBehind`: move the whole buffer behind the last main packet (closing).

Two relations carry every result about a whole call.  `Conserves` says the nodes
are the same nodes with the same bytes, only elsewhere.  `Isolates` says the
packets of one class kept their places: what is new around them came out of the
buffer.  Both are transitive, so a module's lemma is the chain of its loops'.
-/
import Mathlib
import Clumsy.Theory.Sweep
import Clumsy.Packet.Node

namespace Clumsy.Modules

open Clumsy.Theory
open Clumsy.Packet

set_option autoImplicit false

/-- The C library's real functions as the modules call them, over exact
rationals: `boxMuller u v` is `sqrt(-2 log u) * cos(2 pi v)`, `invSqrt x` is
`pow(x, -1/2)`, `logRatio u p` is `log(u) / log(1 - p)`. -/
structure Libm where
  boxMuller : ℚ → ℚ → ℚ
  invSqrt   : ℚ → ℚ
  logRatio  : ℚ → ℚ → ℚ

/-- What one call of `process` finds outside its own state: the successive
readings of `timeGetTime()`, the random draws, the library. -/
structure ProcEnv where
  ticks : Nat → UInt32
  draws : Draws
  libm  : Libm

def RAND_MAX : Nat := 2147483647

/-- `randUnit`: one draw from the open unit interval. -/
def randUnit (d : Draws) : ℚ × Draws :=
  (((d.rand 0 : ℚ) + 1 / 2) / ((RAND_MAX : ℚ) + 1), d.afterRand)

/-- A call at one instant, whose coins all come up 0. -/
def ProcEnv.still (tick : UInt32) : ProcEnv where
  ticks _ := tick
  draws := { rand := fun _ => 0, alloc := fun _ => true }
  libm := { boxMuller := fun _ _ => 0, invSqrt := fun _ => 1, logRatio := fun _ _ => 0 }

/-- An outbound packet of one byte. -/
def outgoing (addr : Nat) : PacketNode Unit :=
  createNode addr [0x45] { outbound := true, ipVersion := 4, loopback := false, impostor := false,
                           ifIdx := 2, subIfIdx := 0 } ()

/-- A module's private buffer, `bufHead` to `bufTail`.  `linked` is false until
the first `startUp` of the process joins the two sentinels. -/
structure Buffer (β : Type) where
  linked  : Bool
  nodes   : List (PacketNode β)
  bufSize : Int

variable {β : Type}

namespace Buffer

/-- The zero-initialised statics. -/
def unlinked : Buffer β := { linked := false, nodes := [], bufSize := 0 }

/-- The buffer part of every `startUp`. -/
def startUp (buf : Buffer β) : Buffer β :=
  if buf.linked then buf else { linked := true, nodes := [], bufSize := 0 }

/-- The separately kept counter agrees with the list. -/
def Counted (buf : Buffer β) : Prop :=
  buf.bufSize = buf.nodes.length ∧ (buf.linked = false → buf.nodes = [])

theorem counted_unlinked : (unlinked : Buffer β).Counted := by simp [unlinked, Counted]

theorem startUp_counted {buf : Buffer β} (counted : buf.Counted) : buf.startUp.Counted := by
  unfold startUp
  split
  · exact counted
  · simp [Counted]

theorem startUp_nodes {buf : Buffer β} (counted : buf.Counted) :
    buf.startUp.nodes = buf.nodes := by
  unfold startUp
  split
  · rfl
  · rename_i notLinked
    exact (counted.2 (by simpa using notLinked)).symm

@[simp] theorem startUp_linked (buf : Buffer β) : buf.startUp.linked = true := by
  unfold startUp
  split <;> simp_all

end Buffer

structure Queues (β : Type) where
  main  : List (PacketNode β)
  buf   : Buffer β
  freed : List (PacketNode β) := []

namespace Queues

def all (q : Queues β) : List (PacketNode β) := q.main ++ q.buf.nodes ++ q.freed

/-! ## The two relations -/

/-- The same nodes, with the same bytes and metadata, possibly elsewhere. -/
def Conserves (q q' : Queues β) : Prop :=
  (q'.all.map PacketNode.core).Perm (q.all.map PacketNode.core)

/-- The packets of class `p` on the main queue keep their places.  What stands
before and behind them afterwards, what is still held and what was freed of that
class is what was held (or already freed) before. -/
def Isolates (p : PacketNode β → Bool) (q q' : Queues β) : Prop :=
  ∃ before behind,
    q'.main.filter p = before ++ q.main.filter p ++ behind ∧
      (before ++ behind ++ q'.buf.nodes.filter p ++ q'.freed.filter p).Perm
        (q.buf.nodes.filter p ++ q.freed.filter p)

theorem Conserves.refl (q : Queues β) : q.Conserves q := List.Perm.refl _

theorem Conserves.trans {q r t : Queues β} (first : q.Conserves r) (second : r.Conserves t) :
    q.Conserves t := List.Perm.trans second first

theorem Isolates.refl (p : PacketNode β → Bool) (q : Queues β) : Isolates p q q :=
  ⟨[], [], by simp, by simp⟩

theorem Isolates.trans {p : PacketNode β → Bool} {q r t : Queues β}
    (first : Isolates p q r) (second : Isolates p r t) : Isolates p q t := by
  obtain ⟨before, behind, main, held⟩ := first
  obtain ⟨before', behind', main', held'⟩ := second
  refine ⟨before' ++ before, behind ++ behind', ?_, ?_⟩
  · rw [main', main]
    simp only [List.append_assoc]
  · simp only [← Multiset.coe_eq_coe, ← Multiset.coe_add] at held held' ⊢
    rw [← held]
    calc _ = (before : Multiset (PacketNode β)) + behind +
          (before' + behind' + t.buf.nodes.filter p + t.freed.filter p) := by abel
      _ = _ := by rw [held']; abel

theorem Conserves.all_perm {q q' : Queues β} (same : q'.all.Perm q.all) : q.Conserves q' :=
  same.map _

end Queues

/-! ## Moving packets into the buffer -/

section Loops

variable {σ : Type}

/-- The module's decision together with the counter it keeps. -/
def counting (judge : σ → Int → PacketNode β → σ × Fate (PacketNode β)) (c : σ × Int)
    (pac : PacketNode β) : (σ × Int) × Fate (PacketNode β) :=
  match judge c.1 c.2 pac with
  | (s, .keep) => ((s, c.2), .keep)
  | (s, .hold stored) => ((s, c.2 + 1), .hold stored)
  | (s, .discard) => ((s, c.2), .discard)

/-- Walk the main queue from `tail->prev` to `head` and decide for each packet:
leave it, insert it behind `bufHead`, or free it.  Returns the decision's state,
the queues and how many packets were taken. -/
def takeIn (judge : σ → Int → PacketNode β → σ × Fate (PacketNode β)) (s : σ) (q : Queues β) :
    σ × Queues β × Nat :=
  let swept := sweep (counting judge) (s, q.buf.bufSize) q.main.reverse
  (swept.state.1,
    { main := swept.kept.reverse
      buf := { q.buf with
        nodes := swept.held.reverse ++ q.buf.nodes
        bufSize := swept.state.2 }
      freed := q.freed ++ swept.gone },
    swept.held.length)

section TakeIn

variable (judge : σ → Int → PacketNode β → σ × Fate (PacketNode β)) (s : σ) (q : Queues β)

theorem counting_fate (c : σ × Int) (pac : PacketNode β) :
    (counting judge c pac).2 = (judge c.1 c.2 pac).2 := by
  unfold counting
  split <;> rename_i decided <;> rw [decided]

theorem counting_size (c : σ × Int) (pac : PacketNode β) :
    (counting judge c pac).1.2 = c.2 + (counting judge c pac).2.count := by
  unfold counting
  split <;> simp [Fate.count]

theorem takeIn_conserves
    (faithful : ∀ s size a b, (judge s size a).2 = .hold b → b.core = a.core) :
    q.Conserves (takeIn judge s q).2.1 := by
  have conserved := sweep_perm (counting judge) PacketNode.core
    (fun c a b held => faithful c.1 c.2 a b (by rwa [counting_fate] at held))
    q.main.reverse (s, q.buf.bufSize)
  unfold Queues.Conserves Queues.all takeIn
  simp only [← Multiset.coe_eq_coe, List.map_append, ← Multiset.coe_add, List.map_reverse,
    Multiset.coe_reverse] at conserved ⊢
  rw [← conserved]
  abel

/-- A walk never touches a class of packets its decision leaves in place. -/
theorem takeIn_isolates (p : PacketNode β → Bool)
    (ignored : ∀ s size pac, p pac = true → (judge s size pac).2 = .keep)
    (closed : ∀ s size a b, (judge s size a).2 = .hold b → p b = p a) :
    q.Isolates p (takeIn judge s q).2.1 := by
  obtain ⟨kept, held, gone⟩ := sweep_filter (counting judge) p
    (fun c a pa => by rw [counting_fate]; exact ignored c.1 c.2 a pa)
    (fun c a b held => closed c.1 c.2 a b (by rwa [counting_fate] at held))
    q.main.reverse (s, q.buf.bufSize)
  refine ⟨[], [], ?_, ?_⟩
  · simp only [takeIn, List.filter_reverse, kept, List.reverse_reverse, List.nil_append,
      List.append_nil]
  · simp only [takeIn, List.filter_append, List.filter_reverse, held, gone, List.reverse_nil,
      List.nil_append, List.append_nil]
    exact List.Perm.refl _

theorem takeIn_counted (linked : q.buf.linked = true) (counted : q.buf.Counted) :
    (takeIn judge s q).2.1.buf.Counted := by
  have count := sweep_count (counting judge) (fun c => c.2) (counting_size judge)
    q.main.reverse (s, q.buf.bufSize)
  refine ⟨?_, ?_⟩
  · have size := counted.1
    simp only at count
    simp only [takeIn, List.length_append, List.length_reverse, count]
    omega
  · intro unlinked
    exact absurd (linked.symm.trans unlinked) (by decide)

/-- A walk that takes packets only while the counter is below `cap` stops there. -/
theorem takeIn_bufSize_le (cap : Int)
    (room : ∀ s size a b, (judge s size a).2 = .hold b → size < cap)
    (fits : q.buf.bufSize ≤ cap) : (takeIn judge s q).2.1.buf.bufSize ≤ cap := by
  refine sweep_invariant (counting judge) (fun c => c.2 ≤ cap) (fun c a le => ?_)
    q.main.reverse (s, q.buf.bufSize) fits
  show (counting judge c a).1.2 ≤ cap
  rw [counting_size, counting_fate]
  cases fate : (judge c.1 c.2 a).2 with
  | keep => simpa [Fate.count] using le
  | hold b =>
      have := room c.1 c.2 a b fate
      show c.2 + 1 ≤ cap
      omega
  | discard => simpa [Fate.count] using le

/-- Nothing is freed by a walk that discards nothing. -/
theorem takeIn_freed (spares : ∀ s size a, (judge s size a).2 ≠ .discard) :
    (takeIn judge s q).2.1.freed = q.freed := by
  have spared := sweep_gone_nil (counting judge)
    (fun c a => by rw [counting_fate]; exact spares c.1 c.2 a) q.main.reverse (s, q.buf.bufSize)
  simp only [takeIn, spared, List.append_nil]

/-- What was taken stands in front of what was held, and looks as the decision made it. -/
theorem takeIn_nodes {P : PacketNode β → Prop}
    (holds : ∀ s size a b, (judge s size a).2 = .hold b → P b) :
    ∃ taken, (takeIn judge s q).2.1.buf.nodes = taken ++ q.buf.nodes ∧ ∀ b ∈ taken, P b := by
  have all := sweep_held_forall (counting judge)
    (fun c a b held => holds c.1 c.2 a b (by rwa [counting_fate] at held))
    q.main.reverse (s, q.buf.bufSize)
  exact ⟨_, rfl, fun b member => all b (List.mem_reverse.1 member)⟩

@[simp] theorem takeIn_linked : (takeIn judge s q).2.1.buf.linked = q.buf.linked := rfl

end TakeIn

/-- The loop of `lagProcess`, `jitterProcess` and `throttleProcess` that starts
at `tail->prev`, pops every handled packet, inserts it behind `bufHead`, and
starts over from `tail->prev` after each one, while `bufSize < cap`.  `stamp` is
what the module writes into the packet on the way. -/
def pickUp (handles : PacketNode β → Bool) (cap : Int)
    (stamp : σ → PacketNode β → σ × PacketNode β) (s : σ) (q : Queues β) :
    σ × Queues β × Nat :=
  let taken := gather handles (fun c : σ × Int => decide (c.2 < cap))
    (fun c pac => (((stamp c.1 pac).1, c.2 + 1), (stamp c.1 pac).2))
    q.main.length (s, q.buf.bufSize) q.main.reverse
  (taken.1.1,
    { q with
      main := taken.2.1.reverse
      buf := { q.buf with
        nodes := taken.2.2.reverse ++ q.buf.nodes
        bufSize := taken.1.2 } },
    taken.2.2.length)

section PickUp

variable (handles : PacketNode β → Bool) (cap : Int)
  (stamp : σ → PacketNode β → σ × PacketNode β) (s : σ) (q : Queues β)

/-- `pickUp`'s decision on one packet. -/
def pickUpFate (s : σ) (size : Int) (pac : PacketNode β) : σ × Fate (PacketNode β) :=
  if handles pac && decide (size < cap) then ((stamp s pac).1, .hold (stamp s pac).2)
  else (s, .keep)

theorem pickUpFate_hold {s : σ} {size : Int} {a b : PacketNode β}
    (held : (pickUpFate handles cap stamp s size a).2 = .hold b) :
    handles a = true ∧ size < cap ∧ b = (stamp s a).2 := by
  unfold pickUpFate at held
  split at held
  · rename_i accepted
    simp only [Bool.and_eq_true, decide_eq_true_eq] at accepted
    exact ⟨accepted.1, accepted.2, (Fate.hold.inj held).symm⟩
  · simp at held

theorem pickUpFate_spares (size : Int) (pac : PacketNode β) :
    (pickUpFate handles cap stamp s size pac).2 ≠ .discard := by
  unfold pickUpFate
  split <;> simp

/-- Starting over after every packet takes the same packets as one walk. -/
theorem pickUp_eq_takeIn :
    pickUp handles cap stamp s q = takeIn (pickUpFate handles cap stamp) s q := by
  have same : gatherFate handles (fun c : σ × Int => decide (c.2 < cap))
      (fun c pac => (((stamp c.1 pac).1, c.2 + 1), (stamp c.1 pac).2)) =
        counting (pickUpFate handles cap stamp) := by
    funext c pac
    unfold gatherFate counting pickUpFate
    by_cases accepted : (handles pac && decide (c.2 < cap)) = true <;> simp [accepted]
  have spared := takeIn_freed _ s q (fun s => pickUpFate_spares handles cap stamp s)
  unfold pickUp
  rw [gather_eq_sweep _ _ _ _ _ _ (by rw [List.length_reverse]), same]
  simp only [takeIn] at spared ⊢
  rw [spared]

theorem pickUp_conserves (faithful : ∀ s pac, (stamp s pac).2.core = pac.core) :
    q.Conserves (pickUp handles cap stamp s q).2.1 := by
  rw [pickUp_eq_takeIn]
  refine takeIn_conserves _ s q (fun s size a b held => ?_)
  rw [(pickUpFate_hold handles cap stamp held).2.2]
  exact faithful s a

/-- Picking up never touches a class of packets the module does not handle. -/
theorem pickUp_isolates (p : PacketNode β → Bool)
    (ignored : ∀ pac, p pac = true → handles pac = false)
    (closed : ∀ s pac, p (stamp s pac).2 = p pac) :
    q.Isolates p (pickUp handles cap stamp s q).2.1 := by
  rw [pickUp_eq_takeIn]
  refine takeIn_isolates _ s q p (fun s size pac pa => ?_) (fun s size a b held => ?_)
  · simp [pickUpFate, ignored pac pa]
  · rw [(pickUpFate_hold handles cap stamp held).2.2]
    exact closed s a

theorem pickUp_counted (linked : q.buf.linked = true) (counted : q.buf.Counted) :
    (pickUp handles cap stamp s q).2.1.buf.Counted := by
  rw [pickUp_eq_takeIn]
  exact takeIn_counted _ s q linked counted

/-- Picking up stops at the cap. -/
theorem pickUp_bufSize_le (fits : q.buf.bufSize ≤ cap) :
    (pickUp handles cap stamp s q).2.1.buf.bufSize ≤ cap := by
  rw [pickUp_eq_takeIn]
  exact takeIn_bufSize_le _ s q cap
    (fun s size a b held => (pickUpFate_hold handles cap stamp held).2.1) fits

/-- What was picked up stands in front of what was held: as many packets as are handled
and there is room for, each as it was stamped. -/
theorem pickUp_nodes {P : PacketNode β → Prop} (stamped : ∀ s pac, P (stamp s pac).2) :
    ∃ taken, (pickUp handles cap stamp s q).2.1.buf.nodes = taken ++ q.buf.nodes ∧
      (∀ pac ∈ taken, P pac) ∧
      taken.length = min (cap - q.buf.bufSize).toNat (q.main.countP handles) := by
  have count := sweep_gatherFate_length handles (fun c : σ × Int => decide (c.2 < cap))
    (fun c pac => (((stamp c.1 pac).1, c.2 + 1), (stamp c.1 pac).2)) (fun c => c.2) cap
    (fun _ => rfl) (fun _ _ => rfl) q.main.reverse (s, q.buf.bufSize)
  have all := sweep_held_forall (gatherFate handles (fun c : σ × Int => decide (c.2 < cap))
    (fun c pac => (((stamp c.1 pac).1, c.2 + 1), (stamp c.1 pac).2)))
    (P := P) (by
      intro c a b held
      unfold gatherFate at held
      split at held
      · rw [← Fate.hold.inj held]
        exact stamped c.1 a
      · simp at held) q.main.reverse (s, q.buf.bufSize)
  simp only [pickUp]
  rw [gather_eq_sweep _ _ _ _ _ _ (by rw [List.length_reverse])]
  refine ⟨_, rfl, fun pac member => all pac (List.mem_reverse.1 member), ?_⟩
  rw [List.length_reverse, count, List.countP_reverse]

/-- If what is stamped depends on the state alone, the packets picked up carry the
state's stream. -/
theorem pickUp_stream {γ : Type*} (next : σ → σ) (out : σ → γ) (g : PacketNode β → γ)
    (moves : ∀ s pac, (stamp s pac).1 = next s) (writes : ∀ s pac, g (stamp s pac).2 = out s) :
    ∃ taken, (pickUp handles cap stamp s q).2.1.buf.nodes = taken ++ q.buf.nodes ∧
      taken.reverse.map g = stream next out taken.length s := by
  have moved := sweep_gatherFate_stream handles (fun c : σ × Int => decide (c.2 < cap))
    (fun c pac => (((stamp c.1 pac).1, c.2 + 1), (stamp c.1 pac).2))
    (fun c : σ × Int => (next c.1, c.2 + 1)) (fun c => out c.1) g
    (fun c pac => by rw [moves]) (fun c pac => writes c.1 pac) q.main.reverse (s, q.buf.bufSize)
  have same : ∀ (n : Nat) (c : σ × Int),
      stream (fun c : σ × Int => (next c.1, c.2 + 1)) (fun c => out c.1) n c =
        stream next out n c.1 := by
    intro n
    induction n with
    | zero => intro c; rfl
    | succ n ih => intro c; simp only [stream, ih]
  rw [same] at moved
  simp only [pickUp]
  rw [gather_eq_sweep _ _ _ _ _ _ (by rw [List.length_reverse])]
  exact ⟨_, rfl, by rw [List.reverse_reverse, List.length_reverse, moved]⟩

/-- Where every packet is handled, the oldest are picked up first. -/
theorem pickUp_fifo (all : ∀ pac ∈ q.main, handles pac = true)
    (faithful : ∀ s pac, (stamp s pac).2.core = pac.core) :
    (((pickUp handles cap stamp s q).2.1.buf.nodes.reverse ++
        (pickUp handles cap stamp s q).2.1.main.reverse).map PacketNode.core) =
      (q.buf.nodes.reverse ++ q.main.reverse).map PacketNode.core := by
  have split := gather_split handles (fun c : σ × Int => decide (c.2 < cap))
    (fun c pac => (((stamp c.1 pac).1, c.2 + 1), (stamp c.1 pac).2)) PacketNode.core
    (fun c pac => faithful c.1 pac) q.main.length (s, q.buf.bufSize) q.main.reverse
    (fun pac member => all pac (List.mem_reverse.1 member))
  simp only [pickUp, List.reverse_append, List.reverse_reverse, List.map_append,
    List.append_assoc]
  rw [split]

/-- Where every packet is handled and fits, the main queue is emptied. -/
theorem pickUp_main_nil (all : ∀ pac ∈ q.main, handles pac = true)
    (fits : q.buf.bufSize + q.main.length ≤ cap) :
    (pickUp handles cap stamp s q).2.1.main = [] := by
  have nothing := gather_nothing_left handles (fun c : σ × Int => decide (c.2 < cap))
    (fun c pac => (((stamp c.1 pac).1, c.2 + 1), (stamp c.1 pac).2)) (fun c => c.2) cap
    (fun c below => decide_eq_true below) (fun _ _ => rfl) q.main.length (s, q.buf.bufSize)
    q.main.reverse (fun pac member => all pac (List.mem_reverse.1 member))
    (by rw [List.length_reverse]) (by rwa [List.length_reverse])
  simp only [pickUp, nothing, List.reverse_nil]

@[simp] theorem pickUp_linked :
    (pickUp handles cap stamp s q).2.1.buf.linked = q.buf.linked := rfl

@[simp] theorem pickUp_freed : (pickUp handles cap stamp s q).2.1.freed = q.freed := rfl

end PickUp

end Loops

/-! ## Releasing -/

section Release

variable {σ : Type}

/-- Take packets from `bufTail->prev` while the budget accepts them and insert
each after `head`. -/
def releaseOldest {σ : Type} (spend : σ → PacketNode β → Option σ) (s : σ) (q : Queues β) :
    σ × Queues β × List (PacketNode β) :=
  let out := release (fun c : σ × Int => fun pac => (spend c.1 pac).map fun t => (t, c.2 - 1))
    (s, q.buf.bufSize) q.buf.nodes.reverse
  (out.1.1,
    { q with
      main := out.2.1.reverse ++ q.main
      buf := { q.buf with nodes := out.2.2.reverse, bufSize := out.1.2 } },
    out.2.1)

/-- What `releaseOldest` takes and leaves is the buffer, oldest first. -/
theorem releaseOldest_split (spend : σ → PacketNode β → Option σ) (s : σ) (q : Queues β) :
    (releaseOldest spend s q).2.1.buf.nodes ++ (releaseOldest spend s q).2.2.reverse =
      q.buf.nodes := by
  have split := release_append
    (fun c : σ × Int => fun pac => (spend c.1 pac).map fun t => (t, c.2 - 1))
    q.buf.nodes.reverse (s, q.buf.bufSize)
  have reversed := congrArg List.reverse split
  rwa [List.reverse_append, List.reverse_reverse] at reversed

/-- `releaseOldest` is `release` on the buffer, oldest first. -/
theorem releaseOldest_eq (spend : σ → PacketNode β → Option σ) (s : σ) (q : Queues β) :
    let out := release spend s q.buf.nodes.reverse
    (releaseOldest spend s q).1 = out.1 ∧ (releaseOldest spend s q).2.2 = out.2.1 ∧
      (releaseOldest spend s q).2.1.buf.nodes.reverse = out.2.2 := by
  simp only [releaseOldest, release_counting, List.reverse_reverse, and_self]

theorem releaseOldest_bufSize (spend : σ → PacketNode β → Option σ) (s : σ) (q : Queues β) :
    (releaseOldest spend s q).2.1.buf.bufSize =
      q.buf.bufSize - (releaseOldest spend s q).2.2.length := by
  simp only [releaseOldest, release_counting]

theorem releaseOldest_main (spend : σ → PacketNode β → Option σ) (s : σ) (q : Queues β) :
    (releaseOldest spend s q).2.1.main = (releaseOldest spend s q).2.2.reverse ++ q.main := rfl

theorem releaseOldest_conserves (spend : σ → PacketNode β → Option σ) (s : σ) (q : Queues β) :
    q.Conserves (releaseOldest spend s q).2.1 := by
  apply Queues.Conserves.all_perm
  have split := releaseOldest_split spend s q
  unfold Queues.all
  rw [releaseOldest_main, ← split]
  simp only [← Multiset.coe_eq_coe, ← Multiset.coe_add]
  show _ + ((q.freed : List (PacketNode β)) : Multiset (PacketNode β)) = _
  abel

theorem releaseOldest_isolates (spend : σ → PacketNode β → Option σ)
    (p : PacketNode β → Bool) (s : σ) (q : Queues β) :
    q.Isolates p (releaseOldest spend s q).2.1 := by
  have split := releaseOldest_split spend s q
  refine ⟨(releaseOldest spend s q).2.2.reverse.filter p, [], ?_, ?_⟩
  · rw [releaseOldest_main, List.filter_append, List.append_nil]
  · rw [List.append_nil, ← split, List.filter_append]
    exact (List.perm_append_comm).append_right _

theorem releaseOldest_counted (spend : σ → PacketNode β → Option σ) (s : σ) (q : Queues β)
    (linked : q.buf.linked = true) (counted : q.buf.Counted) :
    (releaseOldest spend s q).2.1.buf.Counted := by
  have split := congrArg List.length (releaseOldest_split spend s q)
  have count := release_count
    (fun c : σ × Int => fun pac => (spend c.1 pac).map fun t => (t, c.2 - 1)) (fun c => c.2)
    (by
      intro c a c' step
      simp only [Option.map_eq_some_iff] at step
      obtain ⟨t, -, rfl⟩ := step
      rfl)
    q.buf.nodes.reverse (s, q.buf.bufSize)
  refine ⟨?_, ?_⟩
  · have size := counted.1
    simp only [List.length_append, List.length_reverse] at split
    simp only [releaseOldest] at split ⊢
    rw [count]
    simp only
    omega
  · intro unlinked
    exact absurd (linked.symm.trans unlinked) (by decide)

theorem releaseOldest_nodes_le (spend : σ → PacketNode β → Option σ) (s : σ) (q : Queues β) :
    (releaseOldest spend s q).2.1.buf.nodes.length ≤ q.buf.nodes.length := by
  have split := congrArg List.length (releaseOldest_split spend s q)
  rw [List.length_append] at split
  omega

@[simp] theorem releaseOldest_linked (spend : σ → PacketNode β → Option σ) (s : σ) (q : Queues β) :
    (releaseOldest spend s q).2.1.buf.linked = q.buf.linked := rfl

@[simp] theorem releaseOldest_freed (spend : σ → PacketNode β → Option σ) (s : σ) (q : Queues β) :
    (releaseOldest spend s q).2.1.freed = q.freed := rfl

/-- The budget of a counted flush, `while (n-- > 0)`. -/
def countdown (n : Nat) (_ : PacketNode β) : Option Nat :=
  match n with
  | 0 => none
  | n + 1 => some n

@[simp] theorem countdown_zero (pac : PacketNode β) : countdown 0 pac = none := rfl

@[simp] theorem countdown_succ (n : Nat) (pac : PacketNode β) :
    countdown (n + 1) pac = some n := rfl

theorem releaseOldest_countdown (n : Nat) (q : Queues β) :
    (releaseOldest countdown n q).2.2.length = min n q.buf.nodes.length := by
  have taken : ∀ (as : List (PacketNode β)) (n : Nat) (size : Int),
      (release (fun c : Nat × Int => fun pac => (countdown c.1 pac).map fun t => (t, c.2 - 1))
        (n, size) as).2.1.length = min n as.length := by
    intro as
    induction as with
    | nil => simp [release]
    | cons a as ih =>
        intro n size
        cases n with
        | zero => simp [release]
        | succ n =>
            simp only [release, countdown_succ, Option.map_some, List.length_cons, ih]
            omega
  simpa only [releaseOldest, List.length_reverse] using taken q.buf.nodes.reverse n q.buf.bufSize

/-- The overflow guard: a buffer that has reached `keep` loses its `count` oldest
packets. -/
def flushWhenFull (keep : Int) (count : Nat) (q : Queues β) : Queues β × List (PacketNode β) :=
  if q.buf.bufSize ≥ keep then (releaseOldest countdown count q).2 else (q, [])

theorem flushWhenFull_conserves (keep : Int) (count : Nat) (q : Queues β) :
    q.Conserves (flushWhenFull keep count q).1 := by
  unfold flushWhenFull
  split
  · exact releaseOldest_conserves countdown count q
  · exact Queues.Conserves.refl q

theorem flushWhenFull_isolates (keep : Int) (count : Nat) (p : PacketNode β → Bool)
    (q : Queues β) : q.Isolates p (flushWhenFull keep count q).1 := by
  unfold flushWhenFull
  split
  · exact releaseOldest_isolates countdown p count q
  · exact Queues.Isolates.refl p q

theorem flushWhenFull_counted (keep : Int) (count : Nat) (q : Queues β)
    (linked : q.buf.linked = true) (counted : q.buf.Counted) :
    (flushWhenFull keep count q).1.buf.Counted := by
  unfold flushWhenFull
  split
  · exact releaseOldest_counted countdown count q linked counted
  · exact counted

theorem flushWhenFull_freed (keep : Int) (count : Nat) (q : Queues β) :
    (flushWhenFull keep count q).1.freed = q.freed := by
  unfold flushWhenFull
  split <;> rfl

theorem flushWhenFull_linked (keep : Int) (count : Nat) (q : Queues β) :
    (flushWhenFull keep count q).1.buf.linked = q.buf.linked := by
  unfold flushWhenFull
  split <;> rfl

/-- A buffer that is at most full is below its cap after the guard. -/
theorem flushWhenFull_cap (keep : Int) (count : Nat) (q : Queues β) (counted : q.buf.Counted)
    (capped : q.buf.bufSize ≤ keep) (positive : 0 < keep) (some_ : 0 < count) :
    ((flushWhenFull keep count q).1.buf.nodes.length : Int) < keep := by
  have size := counted.1
  unfold flushWhenFull
  split
  · have split := congrArg List.length (releaseOldest_split countdown count q)
    have took := releaseOldest_countdown count q
    simp only [List.length_append, List.length_reverse] at split
    omega
  · show (q.buf.nodes.length : Int) < keep
    omega

end Release

/-! ## Flushing -/

/-- Packets popped from `bufTail->prev`, each inserted right after the packet
that was last, so in front of the ones inserted before it. -/
def flushLoop : List (PacketNode β) → List (PacketNode β) → Int → List (PacketNode β) × Int
  | [], inserted, size => (inserted, size)
  | pac :: older, inserted, size => flushLoop older (pac :: inserted) (size - 1)

/-- The loop of every `closeDown` and of `clearBufPackets`. -/
def flushBehind (q : Queues β) : Queues β :=
  let out := flushLoop q.buf.nodes.reverse [] q.buf.bufSize
  { q with
    main := q.main ++ out.1
    buf := { q.buf with nodes := [], bufSize := out.2 } }

theorem flushLoop_eq (nodes inserted : List (PacketNode β)) (size : Int) :
    flushLoop nodes inserted size = (nodes.reverse ++ inserted, size - nodes.length) := by
  induction nodes generalizing inserted size with
  | nil => simp [flushLoop]
  | cons pac nodes ih =>
      rw [flushLoop, ih]
      simp only [List.reverse_cons, List.append_assoc, List.singleton_append, List.length_cons,
        Int.natCast_add, Prod.mk.injEq, true_and]
      omega

/-- Flushing puts the buffer behind the main queue, in the buffer's own order. -/
theorem flushBehind_eq (q : Queues β) :
    flushBehind q =
      { q with
        main := q.main ++ q.buf.nodes
        buf := { q.buf with nodes := [], bufSize := q.buf.bufSize - q.buf.nodes.length } } := by
  simp [flushBehind, flushLoop_eq]

theorem flushBehind_conserves (q : Queues β) : q.Conserves (flushBehind q) := by
  apply Queues.Conserves.all_perm
  simp [flushBehind_eq, Queues.all]

theorem flushBehind_isolates (p : PacketNode β → Bool) (q : Queues β) :
    q.Isolates p (flushBehind q) := by
  refine ⟨[], q.buf.nodes.filter p, ?_, ?_⟩ <;> simp [flushBehind_eq]

theorem flushBehind_counted {q : Queues β} (counted : q.buf.Counted) :
    (flushBehind q).buf.Counted := by
  simp [flushBehind_eq, Buffer.Counted, counted.1]

@[simp] theorem flushBehind_nodes (q : Queues β) : (flushBehind q).buf.nodes = [] := rfl

@[simp] theorem flushBehind_linked (q : Queues β) :
    (flushBehind q).buf.linked = q.buf.linked := rfl

@[simp] theorem flushBehind_freed (q : Queues β) : (flushBehind q).freed = q.freed := rfl

/-! ## The result of one call -/

/-- What one call of `process` leaves behind: its own state, the main queue, the
nodes it freed and the clones it made, the delays it recorded, and whether it
reports having been triggered. -/
structure Outcome (σ : Type) (β : Type) where
  state     : σ
  main      : List (PacketNode β)
  freed     : List (PacketNode β) := []
  clones    : List (PacketNode β) := []
  delays    : List UInt32 := []
  triggered : Bool

namespace Outcome

def map {σ τ : Type} (f : σ → τ) (out : Outcome σ β) : Outcome τ β :=
  { out with state := f out.state }

end Outcome

end Clumsy.Modules
