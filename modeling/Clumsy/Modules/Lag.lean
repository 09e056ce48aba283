/-
# Modules.Lag -- lag.cpp: every packet waits `lag-time` milliseconds

One call moves the handled packets of the main queue into the buffer, releases
from the old end of the buffer those whose time is up, and throws out
`FLUSH_WHEN_FULL` of the oldest when the buffer has reached `KEEP_AT_MOST`.

`lagProcess_counted` and `lagProcess_cap` together say that after every call the
counter is right and the buffer is below its cap.
-/
import Clumsy.Modules.Basic

namespace Clumsy.Modules

open Clumsy.Theory
open Clumsy.Packet

set_option autoImplicit false

namespace Lag

def KEEP_AT_MOST : Int := 2000

def FLUSH_WHEN_FULL : Nat := 800

end Lag

/-- The statics of `lag.cpp`. -/
structure Lag (β : Type) where
  lagInbound    : Bool
  lagOutbound   : Bool
  lagTime       : Clamped 0 15000
  buf           : Buffer β
  affectedCount : Nat

variable {β : Type}

namespace Lag

def initial : Lag β where
  lagInbound := true
  lagOutbound := true
  lagTime := .literal 50 (.refl true)
  buf := .unlinked
  affectedCount := 0

def handles (lag : Lag β) (pac : PacketNode β) : Bool :=
  checkDirection pac.pktMeta.outbound lag.lagInbound lag.lagOutbound

/-- `currentTime > pac->timestamp + lagTime`, in 32-bit arithmetic. -/
def overdue (lag : Lag β) (currentTime : UInt32) (pac : PacketNode β) : Bool :=
  decide (currentTime > pac.timestamp + UInt32.ofInt lag.lagTime.val)

end Lag

def lagStartUp (lag : Lag β) : Lag β := { lag with buf := lag.buf.startUp }

def lagCloseDown (main : List (PacketNode β)) (lag : Lag β) : Outcome (Lag β) β :=
  let flushed := flushBehind { main, buf := lag.buf }
  { state := { lag with buf := flushed.buf }, main := flushed.main, triggered := false }

namespace Lag

/-- Pick up the handled packets, filling in the current time. -/
def pick (currentTime : UInt32) (main : List (PacketNode β)) (lag : Lag β) :
    Unit × Queues β × Nat :=
  pickUp lag.handles KEEP_AT_MOST
    (fun _ pac => ((), { pac with timestamp := currentTime, enqueueTime := currentTime })) ()
    { main, buf := lag.buf }

/-- Send overdue packets from the buffer's tail. -/
def send (currentTime : UInt32) (lag : Lag β) (q : Queues β) :
    Unit × Queues β × List (PacketNode β) :=
  releaseOldest (fun _ pac => if lag.overdue currentTime pac then some () else none) () q

end Lag

def lagProcess (env : ProcEnv) (main : List (PacketNode β)) (lag : Lag β) : Outcome (Lag β) β :=
  let currentTime := env.ticks 0
  let picked := lag.pick currentTime main
  let sent := lag.send currentTime picked.2.1
  let flushed := flushWhenFull Lag.KEEP_AT_MOST Lag.FLUSH_WHEN_FULL sent.2.1
  { state := { lag with
      buf := flushed.1.buf
      affectedCount := lag.affectedCount + picked.2.2 }
    main := flushed.1.main
    delays := (sent.2.2 ++ flushed.2).map fun pac => currentTime - pac.enqueueTime
    triggered := decide (flushed.1.buf.bufSize > 0) }

/-- A control write to one of lag's parameters, after its value was parsed. -/
inductive LagParam where
  | time (v : Int)
  | inbound (on : Bool)
  | outbound (on : Bool)
  deriving Repr

def lagSetParam (lag : Lag β) : LagParam → Lag β
  | .time v => { lag with lagTime := .ofShort (.refl true) v }
  | .inbound on => { lag with lagInbound := on }
  | .outbound on => { lag with lagOutbound := on }

/-! ## Specification -/

/-- The queues one call of `lagProcess` leaves. -/
theorem lagProcess_queues (env : ProcEnv) (main : List (PacketNode β)) (lag : Lag β) :
    ({ main := (lagProcess env main lag).main, buf := (lagProcess env main lag).state.buf } :
        Queues β) =
      (flushWhenFull Lag.KEEP_AT_MOST Lag.FLUSH_WHEN_FULL
        (lag.send (env.ticks 0) (lag.pick (env.ticks 0) main).2.1).2.1).1 := by
  have freed := flushWhenFull_freed Lag.KEEP_AT_MOST Lag.FLUSH_WHEN_FULL
    (lag.send (env.ticks 0) (lag.pick (env.ticks 0) main).2.1).2.1
  have nothing : (lag.send (env.ticks 0) (lag.pick (env.ticks 0) main).2.1).2.1.freed = [] := rfl
  rw [nothing] at freed
  simp only [lagProcess, ← freed]

theorem lagProcess_conserves (env : ProcEnv) (main : List (PacketNode β)) (lag : Lag β) :
    Queues.Conserves { main, buf := lag.buf }
      { main := (lagProcess env main lag).main, buf := (lagProcess env main lag).state.buf } := by
  rw [lagProcess_queues]
  refine Queues.Conserves.trans ?_ (flushWhenFull_conserves _ _ _)
  refine Queues.Conserves.trans ?_ (releaseOldest_conserves _ _ _)
  exact pickUp_conserves _ _ _ _ _ (fun _ _ => rfl)

theorem lagProcess_isolates (env : ProcEnv) (main : List (PacketNode β)) (lag : Lag β)
    (out : Bool) (off : ∀ pac, PacketNode.travels out pac = true → lag.handles pac = false) :
    Queues.Isolates (PacketNode.travels out) { main, buf := lag.buf }
      { main := (lagProcess env main lag).main, buf := (lagProcess env main lag).state.buf } := by
  rw [lagProcess_queues]
  refine Queues.Isolates.trans ?_ (flushWhenFull_isolates _ _ _ _)
  refine Queues.Isolates.trans ?_ (releaseOldest_isolates _ _ _ _)
  exact pickUp_isolates _ _ _ _ _ _ off (fun _ _ => rfl)

section Sizes

variable {lag : Lag β} (linked : lag.buf.linked = true) (counted : lag.buf.Counted)

include linked counted

theorem Lag.pick_counted (t : UInt32) (main : List (PacketNode β)) :
    (lag.pick t main).2.1.buf.Counted :=
  pickUp_counted _ _ _ _ _ linked counted

theorem Lag.send_counted (t : UInt32) (main : List (PacketNode β)) :
    (lag.send t (lag.pick t main).2.1).2.1.buf.Counted :=
  releaseOldest_counted _ _ _ linked (Lag.pick_counted linked counted t main)

theorem lagProcess_counted (env : ProcEnv) (main : List (PacketNode β)) :
    (lagProcess env main lag).state.buf.Counted :=
  flushWhenFull_counted _ _ _ linked (Lag.send_counted linked counted (env.ticks 0) main)

/-- **Below the cap after every call**: picking up stops at `KEEP_AT_MOST`, and a
buffer that got there loses `FLUSH_WHEN_FULL` packets. -/
theorem lagProcess_cap (env : ProcEnv) (main : List (PacketNode β))
    (below : lag.buf.nodes.length < 2000) :
    (lagProcess env main lag).state.buf.nodes.length < 2000 := by
  have size := counted.1
  have sentCounted := Lag.send_counted linked counted (env.ticks 0) main
  have capped : (lag.pick (env.ticks 0) main).2.1.buf.bufSize ≤ Lag.KEEP_AT_MOST :=
    pickUp_bufSize_le _ _ _ _ _ (by simp only [Lag.KEEP_AT_MOST]; omega)
  have pickedSize := (Lag.pick_counted linked counted (env.ticks 0) main).1
  have fewer : (lag.send (env.ticks 0) (lag.pick (env.ticks 0) main).2.1).2.1.buf.nodes.length ≤
      (lag.pick (env.ticks 0) main).2.1.buf.nodes.length := releaseOldest_nodes_le _ _ _
  have sentSize := sentCounted.1
  have final := flushWhenFull_cap Lag.KEEP_AT_MOST Lag.FLUSH_WHEN_FULL _
    sentCounted (by omega) (by decide) (by decide)
  simp only [lagProcess]
  simp only [Lag.KEEP_AT_MOST] at final ⊢
  omega

end Sizes

@[simp] theorem lagProcess_linked (env : ProcEnv) (main : List (PacketNode β)) (lag : Lag β) :
    (lagProcess env main lag).state.buf.linked = lag.buf.linked :=
  flushWhenFull_linked _ _ _

end Clumsy.Modules
