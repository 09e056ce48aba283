/-
# Packet.Node -- captured packets and the values around them

`PacketNode` is `common.h`'s node without its two list links: a queue of nodes
is a `List`, head first, so `popNode`, `insertAfter` and `insertBefore` become
list operations (`appendNode` is `++ [node]`, the node in front of `tail` is the
last element).  A node's heap address is its `addr`, handed out by a counter and
never reused, so two nodes are the same node exactly when their addresses are.

The backend's per-packet blob is a type parameter: the modules never look inside
it, and `CaptureBackend` supplies the one thing they need of it, what a clone's
blob is.

`Clamped lo hi` is the range of a parameter that its `setParam` clamps, so a
parameter outside its range cannot be built.
-/
import Mathlib

namespace Clumsy.Packet

set_option autoImplicit false

abbrev Bytes := List UInt8

/-- `PacketMeta`: what the modules may know about a captured packet. -/
structure PacketMeta where
  outbound  : Bool
  ipVersion : UInt8
  loopback  : Bool
  impostor  : Bool
  ifIdx     : UInt32
  subIfIdx  : UInt32
  deriving DecidableEq, Repr

structure PacketNode (β : Type) where
  addr        : Nat
  packet      : Bytes
  pktMeta     : PacketMeta
  backend     : β
  timestamp   : UInt32
  enqueueTime : UInt32
  deriving DecidableEq, Repr

/-- The capture backend linked into the program: what `packetBackendPrepareClone`
makes of a clone's blob. -/
class CaptureBackend (β : Type) where
  packetBackendPrepareClone : β → β

variable {β : Type}

/-- `createNode` when both allocations succeed. -/
def createNode (addr : Nat) (buf : Bytes) (pktMeta : PacketMeta) (backend : β) : PacketNode β :=
  { addr, packet := buf, pktMeta, backend, timestamp := 0, enqueueTime := 0 }

def cloneNode [CaptureBackend β] (addr : Nat) (src : PacketNode β) : PacketNode β :=
  createNode addr src.packet src.pktMeta (CaptureBackend.packetBackendPrepareClone src.backend)

namespace PacketNode

def packetLen (node : PacketNode β) : Nat := node.packet.length

/-- Everything about a node but the two timing fields the delay modules write. -/
def core (node : PacketNode β) : Nat × Bytes × PacketMeta × β :=
  (node.addr, node.packet, node.pktMeta, node.backend)

/-- Everything about a node but its bytes and its timing fields. -/
def tag (node : PacketNode β) : Nat × Nat × PacketMeta × β :=
  (node.addr, node.packetLen, node.pktMeta, node.backend)

end PacketNode

/-- `checkDirection` of `common.h`. -/
def checkDirection (outboundPacket handleInbound handleOutbound : Bool) : Bool :=
  (handleInbound && !outboundPacket) || (handleOutbound && outboundPacket)

/-- Whether a packet travels in the direction `out`. -/
def PacketNode.travels (out : Bool) (node : PacketNode β) : Bool := node.pktMeta.outbound == out

/-! ## Outcomes of the random draws -/

/-- The values `rand()` returns and whether each `malloc` succeeds, from here on.
Every stream is a possible outcome. -/
structure Draws where
  rand  : Nat → Nat
  alloc : Nat → Bool

namespace Draws

def afterRand (d : Draws) : Draws := { d with rand := fun n => d.rand (n + 1) }

def afterAlloc (d : Draws) : Draws := { d with alloc := fun n => d.alloc (n + 1) }

end Draws

/-- `calcChance`: a chance of 10000 is certain and draws nothing. -/
def calcChance (chance : Int) (d : Draws) : Bool × Draws :=
  if chance = 10000 then (true, d) else (decide ((d.rand 0 % 10000 : Nat) < chance), d.afterRand)

/-! ## Machine integers -/

/-- `I2S`: the low 16 bits of an `int`, read as a `short`. -/
def i2s (v : Int) : Int := v.bmod (2 ^ 16)

def clampShort (v lo hi : Int) : Int :=
  let v := if v < lo then lo else v
  let v := if v > hi then hi else v
  i2s v

def clampLong (v lo hi : Int) : Int :=
  let v := if v < lo then lo else v
  if v > hi then hi else v

structure Clamped (lo hi : Int) where
  val   : Int
  lower : lo ≤ val
  upper : val ≤ hi
  deriving DecidableEq, Repr

theorem clampLong_range (v : Int) {lo hi : Int} (range : lo ≤ hi) :
    lo ≤ clampLong v lo hi ∧ clampLong v lo hi ≤ hi := by
  simp only [clampLong]
  split <;> split <;> omega

theorem i2s_of_range {v : Int} (low : -32768 ≤ v) (high : v ≤ 32767) : i2s v = v := by
  unfold i2s
  rw [Int.bmod_def]
  split <;> omega

/-- A clamp to a range of `short`s never wraps. -/
theorem clampShort_eq_clampLong (v : Int) {lo hi : Int} (low : -32768 ≤ lo) (range : lo ≤ hi)
    (high : hi ≤ 32767) : clampShort v lo hi = clampLong v lo hi := by
  have inside := clampLong_range v range
  exact i2s_of_range (by simp only [clampLong] at inside; omega)
    (by simp only [clampLong] at inside; omega)

namespace Clamped

variable {lo hi : Int}

@[ext] theorem ext {a b : Clamped lo hi} (same : a.val = b.val) : a = b := by
  cases a
  cases b
  cases same
  rfl

/-- A parameter as the source initialises it. -/
def literal (v : Int) (inside : (decide (lo ≤ v) && decide (v ≤ hi)) = true) : Clamped lo hi where
  val := v
  lower := by simp only [Bool.and_eq_true, decide_eq_true_eq] at inside; exact inside.1
  upper := by simp only [Bool.and_eq_true, decide_eq_true_eq] at inside; exact inside.2

/-- The bounds of a parameter that is a `short`. -/
def shortRange (lo hi : Int) : Bool :=
  decide (-32768 ≤ lo) && decide (lo ≤ hi) && decide (hi ≤ 32767)

theorem shortRange_eq_true (fits : shortRange lo hi = true) :
    -32768 ≤ lo ∧ lo ≤ hi ∧ hi ≤ 32767 := by
  simpa [shortRange, and_assoc] using fits

theorem clampShort_inside (fits : shortRange lo hi = true) (v : Int) :
    lo ≤ clampShort v lo hi ∧ clampShort v lo hi ≤ hi := by
  obtain ⟨low, range, high⟩ := shortRange_eq_true fits
  rw [clampShort_eq_clampLong v low range high]
  exact clampLong_range v range

/-- A parameter written through `clampShort`. -/
def ofShort (fits : shortRange lo hi = true) (v : Int) : Clamped lo hi where
  val := clampShort v lo hi
  lower := (clampShort_inside fits v).1
  upper := (clampShort_inside fits v).2

/-- A parameter written through `clampLong`. -/
def ofLong (range : decide (lo ≤ hi) = true) (v : Int) : Clamped lo hi where
  val := clampLong v lo hi
  lower := (clampLong_range v (of_decide_eq_true range)).1
  upper := (clampLong_range v (of_decide_eq_true range)).2

end Clamped

/-- A probability in hundredths of a percent. -/
abbrev Chance := Clamped 0 10000

def Chance.set (v : Int) : Chance := .ofShort (.refl true) v

end Clumsy.Packet
