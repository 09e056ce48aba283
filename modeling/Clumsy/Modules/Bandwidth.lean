/-
# Modules.Bandwidth -- bandwidth.cpp: a token bucket in front of a queue

Tokens are bytes.  Each call fills the bucket by the time that passed, queues the
handled packets (the tail is dropped once `KEEP_AT_MOST` are queued) and sends
from the old end of the queue while the tokens last.  A limit of 0 sends nothing.

The source keeps the tokens in `double`s.  Here they are the rationals that stand in them,
and every operation on them is rounded as the arithmetic `A` says: the program computes in
`double`, and `Arithmetic.exact` reads its tokens as exact rationals.
-/
import Mathlib
import Clumsy.Theory.Arithmetic
import Clumsy.Modules.Basic

namespace Clumsy.Modules

open Clumsy.Theory
open Clumsy.Packet

set_option autoImplicit false

namespace Bandwidth

def KEEP_AT_MOST : Int := 2000

def BUCKET_SECS : ℚ := 2

end Bandwidth

/-- The statics of `bandwidth.cpp`. -/
structure Bandwidth (β : Type) where
  bandwidthInbound  : Bool
  bandwidthOutbound : Bool
  bandwidthLimit    : Clamped 0 99999
  buf               : Buffer β
  tokenBucket       : ℚ
  maxTokens         : ℚ
  lastFillTime      : UInt32
  affectedCount     : Nat

variable {β : Type}

namespace Bandwidth

def initial : Bandwidth β where
  bandwidthInbound := true
  bandwidthOutbound := true
  bandwidthLimit := .literal 10 (.refl true)
  buf := .unlinked
  tokenBucket := 0
  maxTokens := 0
  lastFillTime := 0
  affectedCount := 0

def handles (bandwidth : Bandwidth β) (pac : PacketNode β) : Bool :=
  checkDirection pac.pktMeta.outbound bandwidth.bandwidthInbound bandwidth.bandwidthOutbound

variable (A : Arithmetic 53)

/-- Bytes per second. -/
def fillRate (bandwidth : Bandwidth β) : ℚ := A.round ((bandwidth.bandwidthLimit.val : ℚ) * 1024)

/-- Two seconds' worth of bandwidth, but room for one packet of any size. -/
def capacity (bandwidth : Bandwidth β) : ℚ :=
  let tokens := A.round (bandwidth.fillRate A * BUCKET_SECS)
  if tokens < 65535 then 65535 else tokens

end Bandwidth

def bandwidthStartUp (A : Arithmetic 53) (tick : UInt32) (bandwidth : Bandwidth β) : Bandwidth β :=
  { bandwidth with
    buf := bandwidth.buf.startUp
    maxTokens := bandwidth.capacity A
    tokenBucket := bandwidth.capacity A
    lastFillTime := tick }

def bandwidthCloseDown (main : List (PacketNode β)) (bandwidth : Bandwidth β) :
    Outcome (Bandwidth β) β :=
  let flushed := flushBehind { main, buf := bandwidth.buf }
  { state := { bandwidth with buf := flushed.buf }, main := flushed.main, triggered := false }

namespace Bandwidth

variable (A : Arithmetic 53)

/-- `elapsedSec * fillRate`. -/
def gained (now : UInt32) (bandwidth : Bandwidth β) : ℚ :=
  let elapsedSec := A.round (((now - bandwidth.lastFillTime).toNat : ℚ) / 1000)
  A.round (elapsedSec * bandwidth.fillRate A)

/-- Replenish the tokens. -/
def replenish (now : UInt32) (bandwidth : Bandwidth β) : Bandwidth β :=
  if bandwidth.bandwidthLimit.val > 0 then
    let filled := A.round (bandwidth.tokenBucket + bandwidth.gained A now)
    { bandwidth with
      maxTokens := bandwidth.capacity A
      tokenBucket := if filled > bandwidth.capacity A then bandwidth.capacity A else filled
      lastFillTime := now }
  else { bandwidth with lastFillTime := now }

def judge (bandwidth : Bandwidth β) (_ : Unit) (size : Int) (pac : PacketNode β) :
    Unit × Fate (PacketNode β) :=
  if bandwidth.handles pac then
    if size < KEEP_AT_MOST then ((), .hold pac) else ((), .discard)
  else ((), .keep)

/-- Enqueue incoming packets, oldest first. -/
def enqueue (main : List (PacketNode β)) (bandwidth : Bandwidth β) : Unit × Queues β × Nat :=
  takeIn bandwidth.judge () { main, buf := bandwidth.buf }

/-- The tokens left after sending one packet, if they suffice. -/
def spend (tokens : ℚ) (pac : PacketNode β) : Option ℚ :=
  if tokens ≥ (pac.packetLen : ℚ) then some (A.round (tokens - pac.packetLen)) else none

/-- Drain the queue while tokens allow. -/
def drain (bandwidth : Bandwidth β) (q : Queues β) : ℚ × Queues β × List (PacketNode β) :=
  if bandwidth.bandwidthLimit.val > 0 then releaseOldest (spend A) bandwidth.tokenBucket q
  else (bandwidth.tokenBucket, q, [])

end Bandwidth

def bandwidthProcess (A : Arithmetic 53) (env : ProcEnv) (main : List (PacketNode β))
    (bandwidth : Bandwidth β) : Outcome (Bandwidth β) β :=
  let filled := bandwidth.replenish A (env.ticks 0)
  let queued := bandwidth.enqueue main
  let drained := filled.drain A queued.2.1
  { state := { filled with
      buf := drained.2.1.buf
      tokenBucket := drained.1
      affectedCount := bandwidth.affectedCount + queued.2.2 }
    main := drained.2.1.main
    freed := drained.2.1.freed
    triggered := decide (drained.2.1.buf.bufSize > 0) }

/-- A control write to one of bandwidth's parameters, after its value was parsed. -/
inductive BandwidthParam where
  | bandwidth (v : Int)
  | inbound (on : Bool)
  | outbound (on : Bool)
  deriving Repr

def bandwidthSetParam (bandwidth : Bandwidth β) : BandwidthParam → Bandwidth β
  | .bandwidth v => { bandwidth with bandwidthLimit := .ofLong (.refl true) v }
  | .inbound on => { bandwidth with bandwidthInbound := on }
  | .outbound on => { bandwidth with bandwidthOutbound := on }

/-! ## Specification -/

namespace Bandwidth

theorem judge_hold {bandwidth : Bandwidth β} {u : Unit} {size : Int} {a b : PacketNode β}
    (held : (bandwidth.judge u size a).2 = .hold b) : size < KEEP_AT_MOST ∧ b = a := by
  unfold judge at held
  split at held
  · split at held
    · rename_i room
      exact ⟨room, (Fate.hold.inj held).symm⟩
    · simp at held
  · simp at held

theorem judge_ignores {bandwidth : Bandwidth β} {u : Unit} {size : Int} {pac : PacketNode β}
    (unhandled : bandwidth.handles pac = false) : (bandwidth.judge u size pac).2 = .keep := by
  simp [judge, unhandled]

variable (A : Arithmetic 53) (bandwidth : Bandwidth β) (q : Queues β)

theorem drain_conserves : q.Conserves (bandwidth.drain A q).2.1 := by
  unfold drain
  split
  · exact releaseOldest_conserves _ _ _
  · exact Queues.Conserves.refl q

theorem drain_isolates (p : PacketNode β → Bool) : q.Isolates p (bandwidth.drain A q).2.1 := by
  unfold drain
  split
  · exact releaseOldest_isolates _ _ _ _
  · exact Queues.Isolates.refl p q

theorem drain_counted (linked : q.buf.linked = true) (counted : q.buf.Counted) :
    (bandwidth.drain A q).2.1.buf.Counted := by
  unfold drain
  split
  · exact releaseOldest_counted _ _ _ linked counted
  · exact counted

theorem drain_nodes_le : (bandwidth.drain A q).2.1.buf.nodes.length ≤ q.buf.nodes.length := by
  unfold drain
  split
  · exact releaseOldest_nodes_le _ _ _
  · exact le_refl _

@[simp] theorem drain_linked : (bandwidth.drain A q).2.1.buf.linked = q.buf.linked := by
  unfold drain
  split <;> rfl

end Bandwidth

variable (A : Arithmetic 53)

theorem bandwidthProcess_conserves (env : ProcEnv) (main : List (PacketNode β))
    (bandwidth : Bandwidth β) :
    Queues.Conserves { main, buf := bandwidth.buf }
      { main := (bandwidthProcess A env main bandwidth).main
        buf := (bandwidthProcess A env main bandwidth).state.buf
        freed := (bandwidthProcess A env main bandwidth).freed } := by
  have queued : Queues.Conserves { main, buf := bandwidth.buf } (bandwidth.enqueue main).2.1 := by
    apply takeIn_conserves
    intro u size a b held
    rw [(Bandwidth.judge_hold held).2]
  exact queued.trans (Bandwidth.drain_conserves A (bandwidth.replenish A (env.ticks 0)) _)

theorem bandwidthProcess_isolates (env : ProcEnv) (main : List (PacketNode β))
    (bandwidth : Bandwidth β) (out : Bool)
    (off : ∀ pac, PacketNode.travels out pac = true → bandwidth.handles pac = false) :
    Queues.Isolates (PacketNode.travels out) { main, buf := bandwidth.buf }
      { main := (bandwidthProcess A env main bandwidth).main
        buf := (bandwidthProcess A env main bandwidth).state.buf
        freed := (bandwidthProcess A env main bandwidth).freed } := by
  have queued : Queues.Isolates (PacketNode.travels out) { main, buf := bandwidth.buf }
      (bandwidth.enqueue main).2.1 := by
    apply takeIn_isolates
    · intro u size pac travels
      exact Bandwidth.judge_ignores (off pac travels)
    · intro u size a b held
      rw [(Bandwidth.judge_hold held).2]
  exact queued.trans (Bandwidth.drain_isolates A (bandwidth.replenish A (env.ticks 0)) _ _)

/-- **Counted, and never above `KEEP_AT_MOST`, after every call.** -/
theorem bandwidthProcess_sizes (env : ProcEnv) (main : List (PacketNode β))
    {bandwidth : Bandwidth β} (linked : bandwidth.buf.linked = true)
    (counted : bandwidth.buf.Counted) (capped : bandwidth.buf.nodes.length ≤ 2000) :
    (bandwidthProcess A env main bandwidth).state.buf.Counted ∧
      (bandwidthProcess A env main bandwidth).state.buf.nodes.length ≤ 2000 := by
  have size := counted.1
  have queued : (bandwidth.enqueue main).2.1.buf.Counted := takeIn_counted _ _ _ linked counted
  have queuedSize := queued.1
  have full : (bandwidth.enqueue main).2.1.buf.bufSize ≤ Bandwidth.KEEP_AT_MOST := by
    apply takeIn_bufSize_le
    · intro u size a b held
      exact (Bandwidth.judge_hold held).1
    · simp only [Bandwidth.KEEP_AT_MOST]
      omega
  have fewer := Bandwidth.drain_nodes_le A (bandwidth.replenish A (env.ticks 0))
    (bandwidth.enqueue main).2.1
  refine ⟨Bandwidth.drain_counted _ _ _ linked queued, ?_⟩
  show ((bandwidth.replenish A (env.ticks 0)).drain A
    (bandwidth.enqueue main).2.1).2.1.buf.nodes.length ≤ 2000
  simp only [Bandwidth.KEEP_AT_MOST] at full
  omega

@[simp] theorem bandwidthProcess_linked (env : ProcEnv) (main : List (PacketNode β))
    (bandwidth : Bandwidth β) :
    (bandwidthProcess A env main bandwidth).state.buf.linked = bandwidth.buf.linked :=
  Bandwidth.drain_linked _ _ _

end Clumsy.Modules
