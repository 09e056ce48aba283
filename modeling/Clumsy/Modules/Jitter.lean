/-
# Modules.Jitter -- jitter.cpp: every packet waits its own random delay

The delay is drawn from one of three distributions and clamped to the range the
operator typed.  Each packet carries its scheduled release time, so one call
scans the whole buffer for packets whose time has come, not just its old end.
-/
import Clumsy.Modules.Basic

namespace Clumsy.Modules

open Clumsy.Theory
open Clumsy.Packet

set_option autoImplicit false

/-- `DIST_UNIFORM`, `DIST_NORMAL`, `DIST_PARETO`. -/
inductive Dist where
  | uniform
  | normal
  | pareto
  deriving DecidableEq, Repr

namespace Jitter

def KEEP_AT_MOST : Int := 2000

def FLUSH_WHEN_FULL : Nat := 800

end Jitter

/-- The statics of `jitter.cpp`. -/
structure Jitter (β : Type) where
  jitterInbound  : Bool
  jitterOutbound : Bool
  jitterMin      : Clamped 0 5000
  jitterMax      : Clamped 0 5000
  jitterDist     : Dist
  buf            : Buffer β
  affectedCount  : Nat

variable {β : Type}

namespace Jitter

def initial : Jitter β where
  jitterInbound := true
  jitterOutbound := true
  jitterMin := .literal 20 (.refl true)
  jitterMax := .literal 100 (.refl true)
  jitterDist := .uniform
  buf := .unlinked
  affectedCount := 0

def handles (jitter : Jitter β) (pac : PacketNode β) : Bool :=
  checkDirection pac.pktMeta.outbound jitter.jitterInbound jitter.jitterOutbound

end Jitter

/-- Draws one delay in ms from `[lo, hi]` under the selected distribution, with
`double` read as an exact rational. -/
def jitterSampleDelay (libm : Libm) (lo hi : Int) (dist : Dist) (d : Draws) : UInt32 × Draws :=
  let range : ℚ := hi - lo
  if range ≤ 0 then (UInt32.ofInt lo, d)
  else
    let drawn : ℚ × Draws :=
      match dist with
      | .normal =>
          let u1 := randUnit d
          let u2 := randUnit u1.2
          (((lo : ℚ) + hi) / 2 + libm.boxMuller u1.1 u2.1 * (range / 6), u2.2)
      | .pareto =>
          let u := randUnit d
          let p := libm.invSqrt (1 - u.1)
          ((lo : ℚ) + (1 - 1 / p) * range, u.2)
      | .uniform =>
          let u := randUnit d
          ((lo : ℚ) + u.1 * range, u.2)
    let v := if drawn.1 < lo then (lo : ℚ) else drawn.1
    let v := if v > hi then (hi : ℚ) else v
    (UInt32.ofInt (v + 1 / 2).floor, drawn.2)

def jitterStartUp (jitter : Jitter β) : Jitter β := { jitter with buf := jitter.buf.startUp }

def jitterCloseDown (main : List (PacketNode β)) (jitter : Jitter β) : Outcome (Jitter β) β :=
  let flushed := flushBehind { main, buf := jitter.buf }
  { state := { jitter with buf := flushed.buf }, main := flushed.main, triggered := false }

/-- Scan the whole buffer from `bufTail->prev` and send every packet whose
scheduled time has come. -/
def releaseDue (due : PacketNode β → Bool) (q : Queues β) : Queues β × List (PacketNode β) :=
  let swept := sweep
    (fun (size : Int) pac => if due pac then (size - 1, Fate.hold pac) else (size, .keep))
    q.buf.bufSize q.buf.nodes.reverse
  ({ q with
      main := swept.held.reverse ++ q.main
      buf := { q.buf with nodes := swept.kept.reverse, bufSize := swept.state } },
    swept.held)

namespace Jitter

/-- Move incoming packets into the buffer, each with a random target send time. -/
def pick (env : ProcEnv) (main : List (PacketNode β)) (jitter : Jitter β) :
    Draws × Queues β × Nat :=
  let currentTime := env.ticks 0
  -- normalised in case the operator typed min > max
  let lo := min jitter.jitterMin.val jitter.jitterMax.val
  let hi := max jitter.jitterMin.val jitter.jitterMax.val
  pickUp jitter.handles KEEP_AT_MOST
    (fun d pac =>
      let delay := jitterSampleDelay env.libm lo hi jitter.jitterDist d
      (delay.2, { pac with enqueueTime := currentTime, timestamp := currentTime + delay.1 }))
    env.draws { main, buf := jitter.buf }

end Jitter

def jitterProcess (env : ProcEnv) (main : List (PacketNode β)) (jitter : Jitter β) :
    Outcome (Jitter β) β :=
  let currentTime := env.ticks 0
  let picked := jitter.pick env main
  let sent := releaseDue (fun pac => decide (currentTime ≥ pac.timestamp)) picked.2.1
  let flushed := flushWhenFull Jitter.KEEP_AT_MOST Jitter.FLUSH_WHEN_FULL sent.1
  { state := { jitter with
      buf := flushed.1.buf
      affectedCount := jitter.affectedCount + picked.2.2 }
    main := flushed.1.main
    delays := (sent.2 ++ flushed.2).map fun pac => currentTime - pac.enqueueTime
    triggered := decide (flushed.1.buf.bufSize > 0) }

/-- A control write to one of jitter's parameters, after its value was parsed. -/
inductive JitterParam where
  | min (v : Int)
  | max (v : Int)
  | dist (d : Dist)
  | inbound (on : Bool)
  | outbound (on : Bool)
  deriving Repr

def jitterSetParam (jitter : Jitter β) : JitterParam → Jitter β
  | .min v => { jitter with jitterMin := .ofShort (.refl true) v }
  | .max v => { jitter with jitterMax := .ofShort (.refl true) v }
  | .dist d => { jitter with jitterDist := d }
  | .inbound on => { jitter with jitterInbound := on }
  | .outbound on => { jitter with jitterOutbound := on }

/-! ## Releasing the packets that are due -/

section Due

variable (due : PacketNode β → Bool) (q : Queues β)

/-- What is sent and what stays, together, is the buffer. -/
theorem releaseDue_perm :
    ((releaseDue due q).1.buf.nodes ++ (releaseDue due q).2).Perm q.buf.nodes := by
  set judge := fun (size : Int) (pac : PacketNode β) =>
    if due pac then (size - 1, Fate.hold pac) else (size, .keep) with hJudge
  have split := sweep_perm judge id
    (fun s a b held => by
      simp only [hJudge] at held
      split at held
      · exact congrArg id (Fate.hold.inj held).symm
      · simp at held)
    q.buf.nodes.reverse q.buf.bufSize
  have spared := sweep_gone_nil judge (fun s a => by simp only [hJudge]; split <;> simp)
    q.buf.nodes.reverse q.buf.bufSize
  rw [spared] at split
  simp only [List.map_id, List.append_nil] at split
  refine List.Perm.trans ?_ (split.trans (List.reverse_perm _))
  exact (List.reverse_perm _).append_right _

theorem releaseDue_main :
    (releaseDue due q).1.main = (releaseDue due q).2.reverse ++ q.main := rfl

theorem releaseDue_conserves : q.Conserves (releaseDue due q).1 := by
  apply Queues.Conserves.all_perm
  have split := releaseDue_perm due q
  unfold Queues.all
  rw [releaseDue_main]
  simp only [← Multiset.coe_eq_coe, ← Multiset.coe_add, Multiset.coe_reverse] at split ⊢
  rw [← split]
  show _ + (q.freed : Multiset (PacketNode β)) = _
  abel

theorem releaseDue_isolates (p : PacketNode β → Bool) : q.Isolates p (releaseDue due q).1 := by
  have split := (releaseDue_perm due q).filter p
  refine ⟨(releaseDue due q).2.reverse.filter p, [], ?_, ?_⟩
  · rw [releaseDue_main, List.filter_append, List.append_nil]
  · rw [List.append_nil, List.filter_reverse]
    rw [List.filter_append] at split
    refine List.Perm.append_right _ (List.Perm.trans ?_ split)
    exact ((List.reverse_perm _).append_right _).trans List.perm_append_comm

theorem releaseDue_bufSize :
    (releaseDue due q).1.buf.bufSize = q.buf.bufSize - (releaseDue due q).2.length := by
  have count := sweep_count
    (fun (size : Int) pac => if due pac then (size - 1, Fate.hold pac) else (size, .keep))
    (fun size => -size)
    (fun size pac => by split <;> simp only [Fate.count] <;> omega)
    q.buf.nodes.reverse q.buf.bufSize
  simp only [releaseDue] at count ⊢
  omega

theorem releaseDue_counted (linked : q.buf.linked = true) (counted : q.buf.Counted) :
    (releaseDue due q).1.buf.Counted := by
  have total := (releaseDue_perm due q).length_eq
  have size := counted.1
  have count := releaseDue_bufSize due q
  rw [List.length_append] at total
  refine ⟨by omega, ?_⟩
  intro unlinked
  exact absurd (linked.symm.trans unlinked) (by decide)

end Due

/-! ## Specification -/

theorem jitterProcess_queues (env : ProcEnv) (main : List (PacketNode β)) (jitter : Jitter β) :
    ({ main := (jitterProcess env main jitter).main,
       buf := (jitterProcess env main jitter).state.buf } : Queues β) =
      (flushWhenFull Jitter.KEEP_AT_MOST Jitter.FLUSH_WHEN_FULL
        (releaseDue (fun pac => decide (env.ticks 0 ≥ pac.timestamp))
          (jitter.pick env main).2.1).1).1 := by
  have freed := flushWhenFull_freed Jitter.KEEP_AT_MOST Jitter.FLUSH_WHEN_FULL
    (releaseDue (fun pac => decide (env.ticks 0 ≥ pac.timestamp)) (jitter.pick env main).2.1).1
  have nothing : (releaseDue (fun pac => decide (env.ticks 0 ≥ pac.timestamp))
      (jitter.pick env main).2.1).1.freed = [] := rfl
  rw [nothing] at freed
  simp only [jitterProcess, ← freed]

theorem jitterProcess_conserves (env : ProcEnv) (main : List (PacketNode β)) (jitter : Jitter β) :
    Queues.Conserves { main, buf := jitter.buf }
      { main := (jitterProcess env main jitter).main,
        buf := (jitterProcess env main jitter).state.buf } := by
  rw [jitterProcess_queues]
  refine Queues.Conserves.trans ?_ (flushWhenFull_conserves _ _ _)
  refine Queues.Conserves.trans ?_ (releaseDue_conserves _ _)
  exact pickUp_conserves _ _ _ _ _ (fun _ _ => rfl)

theorem jitterProcess_isolates (env : ProcEnv) (main : List (PacketNode β)) (jitter : Jitter β)
    (out : Bool) (off : ∀ pac, PacketNode.travels out pac = true → jitter.handles pac = false) :
    Queues.Isolates (PacketNode.travels out) { main, buf := jitter.buf }
      { main := (jitterProcess env main jitter).main,
        buf := (jitterProcess env main jitter).state.buf } := by
  rw [jitterProcess_queues]
  refine Queues.Isolates.trans ?_ (flushWhenFull_isolates _ _ _ _)
  refine Queues.Isolates.trans ?_ (releaseDue_isolates _ _ _)
  exact pickUp_isolates _ _ _ _ _ _ off (fun _ _ => rfl)

section Sizes

variable {jitter : Jitter β} (linked : jitter.buf.linked = true) (counted : jitter.buf.Counted)

include linked counted

theorem Jitter.pick_counted (env : ProcEnv) (main : List (PacketNode β)) :
    (jitter.pick env main).2.1.buf.Counted :=
  pickUp_counted _ _ _ _ _ linked counted

theorem jitterProcess_counted (env : ProcEnv) (main : List (PacketNode β)) :
    (jitterProcess env main jitter).state.buf.Counted :=
  flushWhenFull_counted _ _ _ linked
    (releaseDue_counted _ _ linked (Jitter.pick_counted linked counted env main))

/-- **Below the cap after every call.** -/
theorem jitterProcess_cap (env : ProcEnv) (main : List (PacketNode β))
    (below : jitter.buf.nodes.length < 2000) :
    (jitterProcess env main jitter).state.buf.nodes.length < 2000 := by
  have size := counted.1
  have pickedCounted := Jitter.pick_counted linked counted env main
  have capped : (jitter.pick env main).2.1.buf.bufSize ≤ Jitter.KEEP_AT_MOST :=
    pickUp_bufSize_le _ _ _ _ _ (by simp only [Jitter.KEEP_AT_MOST]; omega)
  have sent := releaseDue_bufSize (fun pac => decide (env.ticks 0 ≥ pac.timestamp))
    (jitter.pick env main).2.1
  have final := flushWhenFull_cap Jitter.KEEP_AT_MOST Jitter.FLUSH_WHEN_FULL _
    (releaseDue_counted (fun pac => decide (env.ticks 0 ≥ pac.timestamp)) _ linked pickedCounted)
    (by omega) (by decide) (by decide)
  simp only [jitterProcess]
  simp only [Jitter.KEEP_AT_MOST] at final ⊢
  omega

end Sizes

@[simp] theorem jitterProcess_linked (env : ProcEnv) (main : List (PacketNode β))
    (jitter : Jitter β) : (jitterProcess env main jitter).state.buf.linked = jitter.buf.linked :=
  flushWhenFull_linked _ _ _

end Clumsy.Modules
