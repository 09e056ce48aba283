/-
# Modules.Ood -- ood.cpp: hold a handful of packets, release them shuffled

Up to `ood-buffer` packets are captured, each with the configured chance.  When
the buffer is full or its oldest packet has waited `ood-delay` milliseconds, all
of it is released in the order a Fisher-Yates shuffle leaves.

The shuffle is a permutation whatever `rand()` returns (`fisherYates_perm`),
which is all the queue lemmas need of it.
-/
import Clumsy.Theory.Shuffle
import Clumsy.Modules.Basic

namespace Clumsy.Modules

open Clumsy.Theory
open Clumsy.Packet

set_option autoImplicit false

/-- The statics of `ood.cpp`. -/
structure Ood (β : Type) where
  oodInbound    : Bool
  oodOutbound   : Bool
  chance        : Chance
  maxBuffer     : Clamped 2 50
  maxDelay      : Clamped 10 2000
  buf           : Buffer β
  affectedCount : Nat

variable {β : Type}

namespace Ood

def initial : Ood β where
  oodInbound := true
  oodOutbound := true
  chance := .literal 1000 (.refl true)
  maxBuffer := .literal 5 (.refl true)
  maxDelay := .literal 200 (.refl true)
  buf := .unlinked
  affectedCount := 0

def handles (ood : Ood β) (pac : PacketNode β) : Bool :=
  checkDirection pac.pktMeta.outbound ood.oodInbound ood.oodOutbound

end Ood

/-- The shuffle loop, for `i` down to 1: swap entry `i` with entry `rand() % (i + 1)`. -/
def fisherYates {α : Type} : Nat → Array α → Draws → Array α
  | 0, arr, _ => arr
  | i + 1, arr, d => fisherYates i (arr.swapIfInBounds (i + 1) (d.rand 0 % (i + 2))) d.afterRand

/-- What `rand() % (i + 1)` chooses, for `i` down to 1. -/
def choices : Nat → Draws → List Nat
  | 0, _ => []
  | i + 1, d => d.rand 0 % (i + 2) :: choices i d.afterRand

/-- Pop `bufSize` packets from the buffer's old end, shuffle them, and insert
them one after another right after `head`. -/
def releaseBufShuffled (d : Draws) (q : Queues β) : Queues β :=
  let count := q.buf.bufSize.toNat
  if count = 0 then q
  else
    let arr := fisherYates (count - 1) (q.buf.nodes.reverse.take count).toArray d
    { q with
      main := arr.toList.reverse ++ q.main
      buf := { q.buf with
        nodes := (q.buf.nodes.reverse.drop count).reverse
        bufSize := 0 } }

def oodStartUp (ood : Ood β) : Ood β := { ood with buf := ood.buf.startUp }

def oodCloseDown (main : List (PacketNode β)) (ood : Ood β) : Outcome (Ood β) β :=
  let flushed := flushBehind { main, buf := ood.buf }
  { state := { ood with buf := flushed.buf }, main := flushed.main, triggered := false }

namespace Ood

/-- The coin is only tossed for a handled packet while there is room. -/
def judge (now : UInt32) (ood : Ood β) (d : Draws) (size : Int) (pac : PacketNode β) :
    Draws × Fate (PacketNode β) :=
  if decide (size < ood.maxBuffer.val) && ood.handles pac then
    if (calcChance ood.chance.val d).1 then
      ((calcChance ood.chance.val d).2, .hold { pac with timestamp := now })
    else ((calcChance ood.chance.val d).2, .keep)
  else (d, .keep)

/-- Capture matching packets into the buffer. -/
def capture (env : ProcEnv) (main : List (PacketNode β)) (ood : Ood β) :
    Draws × Queues β × Nat :=
  takeIn (ood.judge (env.ticks 0)) env.draws { main, buf := ood.buf }

/-- Buffer full, or the oldest packet timed out. -/
def ripe (now : UInt32) (ood : Ood β) (buf : Buffer β) : Bool :=
  match buf.nodes.getLast? with
  | none => false
  | some oldest =>
      decide (buf.bufSize ≥ ood.maxBuffer.val) ||
        decide (now - oldest.timestamp ≥ UInt32.ofInt ood.maxDelay.val)

end Ood

def oodProcess (env : ProcEnv) (main : List (PacketNode β)) (ood : Ood β) : Outcome (Ood β) β :=
  let captured := ood.capture env main
  let ripe := ood.ripe (env.ticks 0) captured.2.1.buf
  let q := if ripe then releaseBufShuffled captured.1 captured.2.1 else captured.2.1
  { state := { ood with buf := q.buf, affectedCount := ood.affectedCount + captured.2.2 }
    main := q.main
    triggered := ripe || decide (q.buf.bufSize > 0) }

/-- A control write to one of ood's parameters, after its value was parsed. -/
inductive OodParam where
  | chance (v : Int)
  | buffer (v : Int)
  | delay (v : Int)
  | inbound (on : Bool)
  | outbound (on : Bool)
  deriving Repr

def oodSetParam (ood : Ood β) : OodParam → Ood β
  | .chance v => { ood with chance := .set v }
  | .buffer v => { ood with maxBuffer := .ofShort (.refl true) v }
  | .delay v => { ood with maxDelay := .ofShort (.refl true) v }
  | .inbound on => { ood with oodInbound := on }
  | .outbound on => { ood with oodOutbound := on }

/-! ## The shuffle -/

@[simp] theorem choices_length (i : Nat) (d : Draws) : (choices i d).length = i := by
  induction i generalizing d with
  | zero => rfl
  | succ i ih => rw [choices, List.length_cons, ih]

theorem choices_choosable (i : Nat) (d : Draws) : Choosable (choices i d) := by
  induction i generalizing d with
  | zero => trivial
  | succ i ih =>
      refine ⟨?_, ih d.afterRand⟩
      have below : d.rand 0 % (i + 2) < i + 2 := Nat.mod_lt _ (by omega)
      rw [choices_length]
      omega

/-- The shuffle is the swap loop under the choices it draws. -/
theorem fisherYates_eq {α : Type} (i : Nat) (arr : Array α) (d : Draws) :
    fisherYates i arr d = shuffleBy (choices i d) arr := by
  induction i generalizing arr d with
  | zero => rfl
  | succ i ih => rw [fisherYates, choices, shuffleBy, ih, choices_length]

theorem fisherYates_perm {α : Type} (i : Nat) (arr : Array α) (d : Draws) :
    (fisherYates i arr d).toList.Perm arr.toList := by
  rw [fisherYates_eq]
  exact shuffleBy_perm _ arr

/-- A shuffled release puts a rearrangement of the released packets in front of
the main queue and leaves the rest of the buffer. -/
theorem releaseBufShuffled_split (d : Draws) (q : Queues β) :
    ∃ released, (releaseBufShuffled d q).main = released ++ q.main ∧
      (released ++ (releaseBufShuffled d q).buf.nodes).Perm q.buf.nodes ∧
      (releaseBufShuffled d q).freed = q.freed := by
  simp only [releaseBufShuffled]
  split
  · exact ⟨[], rfl, List.Perm.refl _, rfl⟩
  · refine ⟨_, rfl, ?_, rfl⟩
    refine ((List.reverse_perm _).trans (fisherYates_perm _ _ _)).append
      (List.reverse_perm _) |>.trans ?_
    rw [List.take_append_drop]
    exact List.reverse_perm _

theorem releaseBufShuffled_conserves (d : Draws) (q : Queues β) :
    q.Conserves (releaseBufShuffled d q) := by
  obtain ⟨released, main, buffer, freed⟩ := releaseBufShuffled_split d q
  apply Queues.Conserves.all_perm
  unfold Queues.all
  rw [main, freed]
  simp only [← Multiset.coe_eq_coe, ← Multiset.coe_add] at buffer ⊢
  rw [← buffer]
  abel

theorem releaseBufShuffled_isolates (d : Draws) (p : PacketNode β → Bool) (q : Queues β) :
    q.Isolates p (releaseBufShuffled d q) := by
  obtain ⟨released, main, buffer, freed⟩ := releaseBufShuffled_split d q
  refine ⟨released.filter p, [], ?_, ?_⟩
  · rw [main, List.filter_append, List.append_nil]
  · rw [freed, List.append_nil, ← List.filter_append]
    exact (buffer.filter p).append_right _

/-- All of a counted buffer is released. -/
theorem releaseBufShuffled_nodes (d : Draws) {q : Queues β} (counted : q.buf.Counted) :
    (releaseBufShuffled d q).buf.nodes = [] ∧ (releaseBufShuffled d q).buf.bufSize = 0 := by
  have size := counted.1
  simp only [releaseBufShuffled]
  split
  · rename_i empty
    have : q.buf.nodes.length = 0 := by omega
    exact ⟨List.eq_nil_of_length_eq_zero this, by omega⟩
  · refine ⟨?_, rfl⟩
    simp [size]

@[simp] theorem releaseBufShuffled_linked (d : Draws) (q : Queues β) :
    (releaseBufShuffled d q).buf.linked = q.buf.linked := by
  simp only [releaseBufShuffled]
  split <;> rfl

/-! ## Specification -/

namespace Ood

theorem judge_hold {now : UInt32} {ood : Ood β} {d : Draws} {size : Int} {a b : PacketNode β}
    (held : (ood.judge now d size a).2 = .hold b) :
    size < ood.maxBuffer.val ∧ b = { a with timestamp := now } := by
  unfold judge at held
  split at held
  · rename_i accepted
    simp only [Bool.and_eq_true, decide_eq_true_eq] at accepted
    split at held
    · exact ⟨accepted.1, (Fate.hold.inj held).symm⟩
    · simp at held
  · simp at held

theorem judge_spares (now : UInt32) (ood : Ood β) (d : Draws) (size : Int) (pac : PacketNode β) :
    (ood.judge now d size pac).2 ≠ .discard := by
  unfold judge
  split
  · split <;> simp
  · simp

theorem judge_ignores {now : UInt32} {ood : Ood β} {d : Draws} {size : Int} {pac : PacketNode β}
    (unhandled : ood.handles pac = false) : (ood.judge now d size pac).2 = .keep := by
  simp [judge, unhandled]

theorem capture_freed (env : ProcEnv) (main : List (PacketNode β)) (ood : Ood β) :
    (ood.capture env main).2.1.freed = [] :=
  takeIn_freed _ _ _ (judge_spares (env.ticks 0) ood)

end Ood

/-- The queues one call of `oodProcess` leaves: what was captured, released or
not. -/
theorem oodProcess_queues (env : ProcEnv) (main : List (PacketNode β)) (ood : Ood β) :
    let captured := ood.capture env main
    let q : Queues β :=
      { main := (oodProcess env main ood).main, buf := (oodProcess env main ood).state.buf }
    q = releaseBufShuffled captured.1 captured.2.1 ∨
      (q = captured.2.1 ∧ ood.ripe (env.ticks 0) captured.2.1.buf = false) := by
  intro captured q
  have nothing : captured.2.1.freed = [] := Ood.capture_freed env main ood
  obtain ⟨released, -, -, freed⟩ := releaseBufShuffled_split captured.1 captured.2.1
  rw [nothing] at freed
  cases ripe : ood.ripe (env.ticks 0) captured.2.1.buf with
  | true =>
      refine Or.inl ?_
      show ({ main := (oodProcess env main ood).main
              buf := (oodProcess env main ood).state.buf } : Queues β) = _
      simp only [oodProcess, captured] at ripe freed ⊢
      rw [ripe, if_pos rfl, ← freed]
  | false =>
      refine Or.inr ⟨?_, rfl⟩
      show ({ main := (oodProcess env main ood).main
              buf := (oodProcess env main ood).state.buf } : Queues β) = _
      simp only [oodProcess, captured] at ripe nothing ⊢
      rw [ripe, if_neg Bool.false_ne_true, ← nothing]

theorem oodProcess_conserves (env : ProcEnv) (main : List (PacketNode β)) (ood : Ood β) :
    Queues.Conserves { main, buf := ood.buf }
      { main := (oodProcess env main ood).main, buf := (oodProcess env main ood).state.buf } := by
  have captured : Queues.Conserves { main, buf := ood.buf } (ood.capture env main).2.1 := by
    apply takeIn_conserves
    intro d size a b held
    rw [(Ood.judge_hold held).2]
    rfl
  rcases oodProcess_queues env main ood with same | ⟨same, -⟩
  · rw [same]
    exact captured.trans (releaseBufShuffled_conserves _ _)
  · rw [same]
    exact captured

theorem oodProcess_isolates (env : ProcEnv) (main : List (PacketNode β)) (ood : Ood β)
    (out : Bool) (off : ∀ pac, PacketNode.travels out pac = true → ood.handles pac = false) :
    Queues.Isolates (PacketNode.travels out) { main, buf := ood.buf }
      { main := (oodProcess env main ood).main, buf := (oodProcess env main ood).state.buf } := by
  have captured : Queues.Isolates (PacketNode.travels out) { main, buf := ood.buf }
      (ood.capture env main).2.1 := by
    apply takeIn_isolates
    · intro d size pac travels
      exact Ood.judge_ignores (off pac travels)
    · intro d size a b held
      rw [(Ood.judge_hold held).2]
      rfl
  rcases oodProcess_queues env main ood with same | ⟨same, -⟩
  · rw [same]
    exact captured.trans (releaseBufShuffled_isolates _ _ _)
  · rw [same]
    exact captured

/-- **Counted and below the cap after every call**: 50 captured packets are
released in the same call. -/
theorem oodProcess_sizes (env : ProcEnv) (main : List (PacketNode β)) {ood : Ood β}
    (linked : ood.buf.linked = true) (counted : ood.buf.Counted) :
    (oodProcess env main ood).state.buf.Counted ∧
      (oodProcess env main ood).state.buf.nodes.length < 50 := by
  have size := counted.1
  have captured : (ood.capture env main).2.1.buf.Counted := takeIn_counted _ _ _ linked counted
  have capturedSize := captured.1
  rcases oodProcess_queues env main ood with same | ⟨same, unripe⟩
  · have same := congrArg Queues.buf same
    simp only at same
    obtain ⟨nodes, zero⟩ := releaseBufShuffled_nodes (ood.capture env main).1 captured
    rw [same]
    refine ⟨⟨by simp [nodes, zero], fun _ => nodes⟩, ?_⟩
    rw [nodes]
    exact Nat.zero_lt_succ 49
  · have same := congrArg Queues.buf same
    simp only at same
    rw [same]
    refine ⟨captured, ?_⟩
    have maxed := ood.maxBuffer.upper
    cases oldest : (ood.capture env main).2.1.buf.nodes.getLast? with
    | none =>
        rw [List.getLast?_eq_none_iff] at oldest
        rw [oldest]
        exact Nat.zero_lt_succ 49
    | some pac =>
        simp only [Ood.ripe, oldest, Bool.or_eq_false_iff, decide_eq_false_iff_not] at unripe
        omega

@[simp] theorem oodProcess_linked (env : ProcEnv) (main : List (PacketNode β)) (ood : Ood β) :
    (oodProcess env main ood).state.buf.linked = ood.buf.linked := by
  simp only [oodProcess]
  split
  · rw [releaseBufShuffled_linked]
    rfl
  · rfl

end Clumsy.Modules
