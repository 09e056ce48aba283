/-
# Modules.Table -- the twelve modules behind one interface

`common.h`'s `Module` record is a name with function pointers; here `ModuleId`
names the module and `process`, `startUp`, `closeDown`, `setParam` dispatch on
it.  `Statics` is the file-scope state of all twelve.

The lemmas say what one call does to the main queue and to the module's own
buffer, uniformly in the module:

* `process_cores`, `process_tags`, `closeDown_queues`: conservation;
* `process_sound`: the buffer counter is right and the module's cap is kept;
* `process_isolates`: a direction the module does not handle is left alone;
* `process_frame` and its siblings: every other module's buffer is untouched.
-/
import Clumsy.Modules.Lag
import Clumsy.Modules.Jitter
import Clumsy.Modules.Loss
import Clumsy.Modules.Throttle
import Clumsy.Modules.Duplicate
import Clumsy.Modules.Ood
import Clumsy.Modules.Rewrite
import Clumsy.Modules.Bandwidth

namespace Clumsy.Modules

open Clumsy.Theory
open Clumsy.Packet

set_option autoImplicit false

inductive ModuleId where
  | lag
  | jitter
  | drop
  | burstloss
  | blackout
  | throttle
  | dup
  | ood
  | tamper
  | corrupt
  | reset
  | bandwidth
  deriving DecidableEq, Repr

/-- `modules[]` of `main.cpp`, in its order. -/
def modules : List ModuleId :=
  [.lag, .jitter, .drop, .burstloss, .blackout, .throttle, .dup, .ood, .tamper, .corrupt, .reset,
    .bandwidth]

theorem mem_modules (m : ModuleId) : m ∈ modules := by
  cases m <;> decide

theorem modules_nodup : modules.Nodup := by decide

structure Statics (β : Type) where
  lag       : Lag β
  jitter    : Jitter β
  drop      : Drop
  burstloss : Burstloss
  blackout  : Blackout
  throttle  : Throttle β
  dup       : Dup
  ood       : Ood β
  tamper    : Tamper
  corrupt   : Corrupt
  reset     : Reset
  bandwidth : Bandwidth β

variable {β : Type}

namespace Statics

/-- The state at program start. -/
def initial : Statics β where
  lag := .initial
  jitter := .initial
  drop := .initial
  burstloss := .initial
  blackout := .initial
  throttle := .initial
  dup := .initial
  ood := .initial
  tamper := .initial
  corrupt := .initial
  reset := .initial
  bandwidth := .initial

/-- What stands for the buffer of a module that has none. -/
def noBuffer : Buffer β := { linked := true, nodes := [], bufSize := 0 }

def buffer (mods : Statics β) : ModuleId → Buffer β
  | .lag => mods.lag.buf
  | .jitter => mods.jitter.buf
  | .throttle => mods.throttle.buf
  | .ood => mods.ood.buf
  | .bandwidth => mods.bandwidth.buf
  | _ => noBuffer

/-- The `checkDirection` test each module makes. -/
def handles (mods : Statics β) : ModuleId → PacketNode β → Bool
  | .lag => mods.lag.handles
  | .jitter => mods.jitter.handles
  | .drop => mods.drop.handles
  | .burstloss => mods.burstloss.handles
  | .blackout => mods.blackout.handles
  | .throttle => mods.throttle.handles
  | .dup => mods.dup.handles
  | .ood => mods.ood.handles
  | .tamper => mods.tamper.handles
  | .corrupt => mods.corrupt.handles
  | .reset => mods.reset.handles
  | .bandwidth => mods.bandwidth.handles

/-- The switch of one direction, `m-outbound` for `true` and `m-inbound` for
`false`. -/
def direction (mods : Statics β) : ModuleId → Bool → Bool
  | .lag, out => if out then mods.lag.lagOutbound else mods.lag.lagInbound
  | .jitter, out => if out then mods.jitter.jitterOutbound else mods.jitter.jitterInbound
  | .drop, out => if out then mods.drop.dropOutbound else mods.drop.dropInbound
  | .burstloss, out =>
      if out then mods.burstloss.burstlossOutbound else mods.burstloss.burstlossInbound
  | .blackout, out => if out then mods.blackout.blackoutOutbound else mods.blackout.blackoutInbound
  | .throttle, out => if out then mods.throttle.throttleOutbound else mods.throttle.throttleInbound
  | .dup, out => if out then mods.dup.dupOutbound else mods.dup.dupInbound
  | .ood, out => if out then mods.ood.oodOutbound else mods.ood.oodInbound
  | .tamper, out => if out then mods.tamper.tamperOutbound else mods.tamper.tamperInbound
  | .corrupt, out => if out then mods.corrupt.corruptOutbound else mods.corrupt.corruptInbound
  | .reset, out => if out then mods.reset.resetOutbound else mods.reset.resetInbound
  | .bandwidth, out =>
      if out then mods.bandwidth.bandwidthOutbound else mods.bandwidth.bandwidthInbound

/-- All packets in private buffers. -/
def held (mods : Statics β) : List (PacketNode β) :=
  modules.flatMap fun m => (mods.buffer m).nodes

end Statics

/-! ## Dispatch -/

/-- `module->startUp()`; `tick` is what `timeGetTime()` returns in it. -/
def startUp (tick : UInt32) (mods : Statics β) : ModuleId → Statics β
  | .lag => { mods with lag := lagStartUp mods.lag }
  | .jitter => { mods with jitter := jitterStartUp mods.jitter }
  | .burstloss => { mods with burstloss := burstlossStartUp mods.burstloss }
  | .blackout => { mods with blackout := blackoutStartUp tick mods.blackout }
  | .throttle => { mods with throttle := throttleStartUp mods.throttle }
  | .ood => { mods with ood := oodStartUp mods.ood }
  | .tamper => { mods with tamper := tamperStartUp mods.tamper }
  | .reset => { mods with reset := resetStartUp mods.reset }
  | .bandwidth => { mods with bandwidth := bandwidthStartUp double tick mods.bandwidth }
  | .drop | .dup | .corrupt => mods

/-- `module->closeDown(head, tail)`. -/
def closeDown (main : List (PacketNode β)) (mods : Statics β) : ModuleId → Outcome (Statics β) β
  | .lag => (lagCloseDown main mods.lag).map fun lag => { mods with lag }
  | .jitter => (jitterCloseDown main mods.jitter).map fun jitter => { mods with jitter }
  | .blackout => (blackoutCloseDown main mods.blackout).map fun blackout => { mods with blackout }
  | .throttle => (throttleCloseDown main mods.throttle).map fun throttle => { mods with throttle }
  | .ood => (oodCloseDown main mods.ood).map fun ood => { mods with ood }
  | .reset => (resetCloseDown main mods.reset).map fun reset => { mods with reset }
  | .bandwidth =>
      (bandwidthCloseDown main mods.bandwidth).map fun bandwidth => { mods with bandwidth }
  | .drop | .burstloss | .dup | .tamper | .corrupt => { state := mods, main, triggered := false }

/-- `module->process(head, tail)`; clones take addresses from `fresh` on. -/
def process [CaptureBackend β] (env : ProcEnv) (fresh : Nat) (main : List (PacketNode β))
    (mods : Statics β) : ModuleId → Outcome (Statics β) β
  | .lag => (lagProcess env main mods.lag).map fun lag => { mods with lag }
  | .jitter => (jitterProcess env main mods.jitter).map fun jitter => { mods with jitter }
  | .drop => (dropProcess env main mods.drop).map fun drop => { mods with drop }
  | .burstloss =>
      (burstlossProcess env main mods.burstloss).map fun burstloss => { mods with burstloss }
  | .blackout => (blackoutProcess env main mods.blackout).map fun blackout => { mods with blackout }
  | .throttle => (throttleProcess env main mods.throttle).map fun throttle => { mods with throttle }
  | .dup => (dupProcess env fresh main mods.dup).map fun dup => { mods with dup }
  | .ood => (oodProcess env main mods.ood).map fun ood => { mods with ood }
  | .tamper => (tamperProcess env main mods.tamper).map fun tamper => { mods with tamper }
  | .corrupt => (corruptProcess env main mods.corrupt).map fun corrupt => { mods with corrupt }
  | .reset => (resetProcess env main mods.reset).map fun reset => { mods with reset }
  | .bandwidth =>
      (bandwidthProcess double env main mods.bandwidth).map fun bandwidth => { mods with bandwidth }

/-- A parsed write to a parameter of some module. -/
inductive ParamWrite where
  | lag (p : LagParam)
  | jitter (p : JitterParam)
  | drop (p : DropParam)
  | burstloss (p : BurstlossParam)
  | blackout (p : BlackoutParam)
  | throttle (p : ThrottleParam)
  | dup (p : DupParam)
  | ood (p : OodParam)
  | tamper (p : TamperParam)
  | corrupt (p : CorruptParam)
  | reset (p : ResetParam)
  | bandwidth (p : BandwidthParam)
  deriving Repr

/-- `module->setParam`; two modules look at their enabled flag in it. -/
def setParam (enabled : ModuleId → Bool) (mods : Statics β) : ParamWrite → Statics β
  | .lag p => { mods with lag := lagSetParam mods.lag p }
  | .jitter p => { mods with jitter := jitterSetParam mods.jitter p }
  | .drop p => { mods with drop := dropSetParam mods.drop p }
  | .burstloss p => { mods with burstloss := burstlossSetParam mods.burstloss p }
  | .blackout p =>
      { mods with blackout := blackoutSetParam (enabled .blackout) mods.blackout p }
  | .throttle p => { mods with throttle := throttleSetParam mods.throttle p }
  | .dup p => { mods with dup := dupSetParam mods.dup p }
  | .ood p => { mods with ood := oodSetParam mods.ood p }
  | .tamper p => { mods with tamper := tamperSetParam mods.tamper p }
  | .corrupt p => { mods with corrupt := corruptSetParam mods.corrupt p }
  | .reset p => { mods with reset := resetSetParam (enabled .reset) mods.reset p }
  | .bandwidth p => { mods with bandwidth := bandwidthSetParam mods.bandwidth p }

/-! ## Frames -/

namespace ModuleId

/-- The modules that may write to packet bytes. -/
def rewrites : ModuleId → Bool
  | .tamper | .corrupt | .reset => true
  | _ => false

/-- The modules that may free packets. -/
def drops : ModuleId → Bool
  | .drop | .burstloss | .blackout | .throttle | .bandwidth => true
  | _ => false

/-- The most packets a module holds between two calls. -/
def cap : ModuleId → Nat
  | .lag => 1999
  | .jitter => 1999
  | .throttle => 999
  | .ood => 49
  | .bandwidth => 2000
  | _ => 0

end ModuleId

theorem startUp_frame (tick : UInt32) (mods : Statics β) (m : ModuleId) :
    ∀ m', m' ≠ m → (startUp tick mods m).buffer m' = mods.buffer m' := by
  intro m' other
  cases m <;> cases m' <;> first | rfl | exact absurd rfl other

theorem closeDown_frame (main : List (PacketNode β)) (mods : Statics β) (m : ModuleId) :
    ∀ m', m' ≠ m → (closeDown main mods m).state.buffer m' = mods.buffer m' := by
  intro m' other
  cases m <;> cases m' <;> first | rfl | exact absurd rfl other

theorem process_frame [CaptureBackend β] (env : ProcEnv) (fresh : Nat)
    (main : List (PacketNode β)) (mods : Statics β) (m : ModuleId) :
    ∀ m', m' ≠ m → (process env fresh main mods m).state.buffer m' = mods.buffer m' := by
  intro m' other
  cases m <;> cases m' <;> first | rfl | exact absurd rfl other

/-- Parameters are not buffers. -/
@[simp] theorem setParam_buffer (enabled : ModuleId → Bool) (mods : Statics β) (w : ParamWrite)
    (m : ModuleId) : (setParam enabled mods w).buffer m = mods.buffer m := by
  cases w with
  | blackout p | drop p | burstloss p | dup p | tamper p | corrupt p | reset p => cases m <;> rfl
  | lag p | jitter p | throttle p | ood p | bandwidth p => cases p <;> cases m <;> rfl

/-- Two states that agree on all buffers but one hold the same packets elsewhere. -/
theorem Statics.held_frame {mods mods' : Statics β} {m : ModuleId}
    (frame : ∀ m', m' ≠ m → mods'.buffer m' = mods.buffer m') :
    (mods'.held : Multiset (PacketNode β)) + (mods.buffer m).nodes =
      mods.held + (mods'.buffer m).nodes := by
  have split : ∀ (ms : List ModuleId), ms.Nodup → m ∈ ms →
      ((ms.flatMap fun m' => (mods'.buffer m').nodes) : Multiset (PacketNode β)) +
          (mods.buffer m).nodes =
        (ms.flatMap fun m' => (mods.buffer m').nodes) + (mods'.buffer m).nodes := by
    intro ms
    induction ms with
    | nil => simp
    | cons m' ms ih =>
        intro distinct member
        have rest := List.nodup_cons.1 distinct
        simp only [List.flatMap_cons, ← Multiset.coe_add]
        by_cases same : m' = m
        · subst same
          have agree : (ms.flatMap fun m => (mods'.buffer m).nodes) =
              ms.flatMap fun m => (mods.buffer m).nodes := by
            apply List.flatMap_congr
            intro m' inRest
            rw [frame m' (fun same => rest.1 (same ▸ inRest))]
          rw [agree]
          abel
        · have inRest : m ∈ ms := (List.mem_cons.1 member).resolve_left (Ne.symm same)
          rw [frame m' same, add_assoc, ih rest.2 inRest, add_assoc]
  exact split modules modules_nodup (mem_modules m)

/-- A module ignores the packets of a direction that is switched off. -/
theorem Statics.handles_off {mods : Statics β} {m : ModuleId} {out : Bool}
    (off : mods.direction m out = false) (pac : PacketNode β)
    (travels : pac.travels out = true) : mods.handles m pac = false := by
  have same : pac.pktMeta.outbound = out := by simpa [PacketNode.travels] using travels
  have ignores {inbound outbound : Bool} (off : (if out then outbound else inbound) = false) :
      checkDirection pac.pktMeta.outbound inbound outbound = false := by
    rw [same]
    cases out <;> simp_all [checkDirection]
  cases m <;> exact ignores off

/-! ## Sound buffers -/

namespace Statics

/-- Every counter is right and every buffer within its module's cap. -/
def Sound (mods : Statics β) : Prop :=
  ∀ m, (mods.buffer m).Counted ∧ (mods.buffer m).nodes.length ≤ m.cap

theorem initial_sound : (initial : Statics β).Sound := by
  intro m
  cases m <;> simp [initial, buffer, noBuffer, Buffer.Counted, Lag.initial, Jitter.initial,
    Throttle.initial, Ood.initial, Bandwidth.initial, Buffer.unlinked]

/-- Nothing but the buffers matters to soundness. -/
theorem Sound.congr {mods mods' : Statics β} (sound : mods.Sound)
    (same : ∀ m, mods'.buffer m = mods.buffer m) : mods'.Sound := by
  intro m
  rw [same]
  exact sound m

/-- One sound buffer put in place of another. -/
theorem Sound.replace {mods mods' : Statics β} {m : ModuleId} (sound : mods.Sound)
    (frame : ∀ m', m' ≠ m → mods'.buffer m' = mods.buffer m')
    (here : (mods'.buffer m).Counted ∧ (mods'.buffer m).nodes.length ≤ m.cap) : mods'.Sound := by
  intro m'
  by_cases same : m' = m
  · rw [same]
    exact here
  · rw [frame m' same]
    exact sound m'

/-- **All buffers together stay far below the kernel's queue length.** -/
theorem Sound.held_length {mods : Statics β} (sound : mods.Sound) : mods.held.length ≤ 7046 := by
  have total : mods.held.length = (modules.map fun m => (mods.buffer m).nodes.length).sum := by
    rw [held, List.length_flatMap]
  have caps : ∀ ms : List ModuleId,
      (ms.map fun m => (mods.buffer m).nodes.length).sum ≤ (ms.map ModuleId.cap).sum := by
    intro ms
    induction ms with
    | nil => exact le_refl _
    | cons m ms ih =>
        simp only [List.map_cons, List.sum_cons]
        exact Nat.add_le_add (sound m).2 ih
  rw [total]
  exact le_trans (caps modules) (by decide)

end Statics

/-! ## Starting up -/

theorem startUp_linked (tick : UInt32) (mods : Statics β) (m : ModuleId) :
    ((startUp tick mods m).buffer m).linked = true := by
  cases m <;> first | rfl | exact Buffer.startUp_linked _

theorem startUp_nodes {mods : Statics β} (sound : mods.Sound) (tick : UInt32) (m : ModuleId) :
    ((startUp tick mods m).buffer m).nodes = (mods.buffer m).nodes := by
  have counted := (sound m).1
  cases m <;> first | rfl | exact Buffer.startUp_nodes counted

theorem startUp_counted {mods : Statics β} (sound : mods.Sound) (tick : UInt32) (m : ModuleId) :
    ((startUp tick mods m).buffer m).Counted := by
  have counted := (sound m).1
  cases m <;> first | exact counted | exact Buffer.startUp_counted counted

theorem startUp_sound {mods : Statics β} (sound : mods.Sound) (tick : UInt32) (m : ModuleId) :
    (startUp tick mods m).Sound := by
  refine sound.replace (startUp_frame tick mods m) ⟨startUp_counted sound tick m, ?_⟩
  rw [startUp_nodes sound]
  exact (sound m).2

/-- Starting a module moves no packet. -/
theorem startUp_held {mods : Statics β} (sound : mods.Sound) (tick : UInt32) (m : ModuleId) :
    (startUp tick mods m).held = mods.held := by
  apply List.flatMap_congr
  intro m' _
  by_cases same : m' = m
  · rw [same, startUp_nodes sound]
  · rw [startUp_frame tick mods m m' same]

/-! ## Closing down -/

/-- Closing a module puts its buffer behind the main queue, and that is all. -/
theorem closeDown_queues (main : List (PacketNode β)) (mods : Statics β) (m : ModuleId) :
    (closeDown main mods m).main = main ++ (mods.buffer m).nodes ∧
      ((closeDown main mods m).state.buffer m).nodes = [] ∧
      ((closeDown main mods m).state.buffer m).linked = (mods.buffer m).linked ∧
      (closeDown main mods m).freed = [] ∧ (closeDown main mods m).clones = [] := by
  cases m <;>
    simp [closeDown, Outcome.map, Statics.buffer, Statics.noBuffer, lagCloseDown, jitterCloseDown,
      blackoutCloseDown, throttleCloseDown, oodCloseDown, resetCloseDown, bandwidthCloseDown,
      flushBehind_eq]

theorem closeDown_counted {mods : Statics β} (main : List (PacketNode β)) {m : ModuleId}
    (counted : (mods.buffer m).Counted) : ((closeDown main mods m).state.buffer m).Counted := by
  cases m <;> first | exact counted | exact flushBehind_counted counted

theorem closeDown_sound {mods : Statics β} (sound : mods.Sound) (main : List (PacketNode β))
    (m : ModuleId) : (closeDown main mods m).state.Sound := by
  refine sound.replace (closeDown_frame main mods m) ⟨closeDown_counted main (sound m).1, ?_⟩
  rw [(closeDown_queues main mods m).2.1]
  exact Nat.zero_le _

/-- Closing a module loses nothing and makes nothing up. -/
theorem closeDown_perm (main : List (PacketNode β)) (mods : Statics β) (m : ModuleId) :
    ((closeDown main mods m).main ++ (closeDown main mods m).state.held).Perm
      (main ++ mods.held) := by
  have moved := Statics.held_frame (closeDown_frame main mods m)
  obtain ⟨queue, emptied, -⟩ := closeDown_queues main mods m
  rw [emptied] at moved
  rw [queue]
  simp only [← Multiset.coe_eq_coe, ← Multiset.coe_add, Multiset.coe_nil, add_zero] at moved ⊢
  rw [← moved]
  abel

/-! ## Processing -/

/-- For a module without a buffer, only the main queue counts. -/
theorem queueOnly_cores {main main' freed clones : List (PacketNode β)}
    (same : (main' ++ freed).Perm (main ++ clones)) :
    ((main' ++ [] ++ freed).map PacketNode.core).Perm
      ((main ++ [] ++ clones).map PacketNode.core) := by
  rw [List.append_nil, List.append_nil]
  exact same.map _

/-- For a module with a buffer and without clones. -/
theorem queues_cores {q q' : Queues β} {clones : List (PacketNode β)} (conserves : q.Conserves q')
    (noClones : clones = []) (unfreed : q.freed = []) :
    ((q'.main ++ q'.buf.nodes ++ q'.freed).map PacketNode.core).Perm
      ((q.main ++ q.buf.nodes ++ clones).map PacketNode.core) := by
  rw [noClones, ← unfreed]
  exact conserves

/-- A local conservation statement, extended to all buffers. -/
theorem perm_of_frame {γ : Type} (g : PacketNode β → γ) {mods mods' : Statics β} {m : ModuleId}
    {main main' freed clones : List (PacketNode β)}
    (frame : ∀ m', m' ≠ m → mods'.buffer m' = mods.buffer m')
    (here : ((main' ++ (mods'.buffer m).nodes ++ freed).map g).Perm
      ((main ++ (mods.buffer m).nodes ++ clones).map g)) :
    ((main' ++ mods'.held ++ freed).map g).Perm ((main ++ mods.held ++ clones).map g) := by
  have moved := congrArg (Multiset.map g) (Statics.held_frame frame)
  simp only [← Multiset.coe_eq_coe, List.map_append, ← Multiset.coe_add, Multiset.map_add,
    Multiset.map_coe] at here moved ⊢
  rw [← add_left_inj ((mods.buffer m).nodes.map g : Multiset γ)]
  calc _ = (main'.map g : Multiset γ) + freed.map g +
        (mods'.held.map g + (mods.buffer m).nodes.map g) := by abel
    _ = (main'.map g : Multiset γ) + (mods'.buffer m).nodes.map g + freed.map g +
        mods.held.map g := by rw [moved]; abel
    _ = _ := by rw [here]; abel

section Process

variable [CaptureBackend β]

/-- **A call moves nodes around, adds clones and frees some**; unless the module
is one of the three that rewrite, no node's bytes change. -/
theorem process_cores_local (env : ProcEnv) (fresh : Nat) (main : List (PacketNode β))
    (mods : Statics β) (m : ModuleId) (keeps : m.rewrites = false) :
    ((((process env fresh main mods m).main ++
          ((process env fresh main mods m).state.buffer m).nodes ++
            (process env fresh main mods m).freed)).map PacketNode.core).Perm
      ((main ++ (mods.buffer m).nodes ++
        (process env fresh main mods m).clones).map PacketNode.core) := by
  cases m with
  | lag => exact queues_cores (lagProcess_conserves env main mods.lag) rfl rfl
  | jitter => exact queues_cores (jitterProcess_conserves env main mods.jitter) rfl rfl
  | drop =>
      apply queueOnly_cores
      exact (dropProcess_perm env main mods.drop).trans
        (List.Perm.of_eq (List.append_nil main).symm)
  | burstloss =>
      apply queueOnly_cores
      exact (burstlossProcess_perm env main mods.burstloss).trans
        (List.Perm.of_eq (List.append_nil main).symm)
  | blackout =>
      have perm := blackoutProcess_perm env main mods.blackout
      have noClones := blackoutProcess_clones env main mods.blackout
      apply queueOnly_cores
      show (_ : List (PacketNode β)).Perm (main ++ (blackoutProcess env main mods.blackout).clones)
      rw [noClones, List.append_nil]
      exact perm
  | throttle =>
      exact queues_cores (throttleProcess_conserves env main mods.throttle)
        (throttleProcess_clones env main mods.throttle) rfl
  | dup =>
      apply queueOnly_cores
      exact (List.Perm.of_eq (List.append_nil _)).trans (dupProcess_perm env fresh main mods.dup)
  | ood => exact queues_cores (oodProcess_conserves env main mods.ood) rfl rfl
  | tamper | corrupt | reset => exact absurd keeps (by decide)
  | bandwidth =>
      exact queues_cores (bandwidthProcess_conserves double env main mods.bandwidth) rfl rfl

/-- The rewriting modules keep everything but the bytes. -/
theorem process_tags_rewrites (env : ProcEnv) (fresh : Nat) (main : List (PacketNode β))
    (mods : Statics β) (m : ModuleId) (rewrites : m.rewrites = true) :
    (process env fresh main mods m).main.map PacketNode.tag = main.map PacketNode.tag ∧
      ((process env fresh main mods m).state.buffer m).nodes = [] ∧ (mods.buffer m).nodes = [] ∧
      (process env fresh main mods m).freed = [] ∧ (process env fresh main mods m).clones = [] := by
  cases m with
  | tamper => exact ⟨tamperProcess_tags env main mods.tamper, rfl, rfl, rfl, rfl⟩
  | corrupt => exact ⟨corruptProcess_tags env main mods.corrupt, rfl, rfl, rfl, rfl⟩
  | reset => exact ⟨resetProcess_tags env main mods.reset, rfl, rfl, rfl, rfl⟩
  | _ => exact absurd rewrites (by decide)

/-- Whatever the module, a call keeps every node's length, metadata and blob. -/
theorem process_tags_local (env : ProcEnv) (fresh : Nat) (main : List (PacketNode β))
    (mods : Statics β) (m : ModuleId) :
    ((((process env fresh main mods m).main ++
          ((process env fresh main mods m).state.buffer m).nodes ++
            (process env fresh main mods m).freed)).map PacketNode.tag).Perm
      ((main ++ (mods.buffer m).nodes ++
        (process env fresh main mods m).clones).map PacketNode.tag) := by
  cases rewrites : m.rewrites with
  | true =>
      obtain ⟨main', buffer', buffer, freed, clones⟩ :=
        process_tags_rewrites env fresh main mods m rewrites
      rw [buffer', buffer, freed, clones]
      simp only [List.append_nil, main']
      exact List.Perm.refl _
  | false =>
      have cores := process_cores_local env fresh main mods m rewrites
      have tags : ∀ nodes : List (PacketNode β), nodes.map PacketNode.tag =
          (nodes.map PacketNode.core).map fun core =>
            (core.1, core.2.1.length, core.2.2.1, core.2.2.2) := by
        intro nodes
        rw [List.map_map]
        rfl
      rw [tags, tags]
      exact cores.map _

/-- **Conservation of a call**, over the main queue and all buffers. -/
theorem process_tags (env : ProcEnv) (fresh : Nat) (main : List (PacketNode β))
    (mods : Statics β) (m : ModuleId) :
    (((process env fresh main mods m).main ++ (process env fresh main mods m).state.held ++
        (process env fresh main mods m).freed).map PacketNode.tag).Perm
      ((main ++ mods.held ++ (process env fresh main mods m).clones).map PacketNode.tag) :=
  perm_of_frame _ (process_frame env fresh main mods m)
    (process_tags_local env fresh main mods m)

theorem process_cores (env : ProcEnv) (fresh : Nat) (main : List (PacketNode β))
    (mods : Statics β) (m : ModuleId) (keeps : m.rewrites = false) :
    (((process env fresh main mods m).main ++ (process env fresh main mods m).state.held ++
        (process env fresh main mods m).freed).map PacketNode.core).Perm
      ((main ++ mods.held ++ (process env fresh main mods m).clones).map PacketNode.core) :=
  perm_of_frame _ (process_frame env fresh main mods m)
    (process_cores_local env fresh main mods m keeps)

/-- The sentinels stay as they are. -/
theorem process_linked (env : ProcEnv) (fresh : Nat) (main : List (PacketNode β))
    (mods : Statics β) (m : ModuleId) :
    ((process env fresh main mods m).state.buffer m).linked = (mods.buffer m).linked := by
  cases m with
  | lag => exact lagProcess_linked env main mods.lag
  | jitter => exact jitterProcess_linked env main mods.jitter
  | throttle => exact throttleProcess_linked env main mods.throttle
  | ood => exact oodProcess_linked env main mods.ood
  | bandwidth => exact bandwidthProcess_linked double env main mods.bandwidth
  | _ => rfl

/-- **A call on a started module keeps its counter right and its cap.** -/
theorem process_sound_local (env : ProcEnv) (fresh : Nat) (main : List (PacketNode β))
    {mods : Statics β} (sound : mods.Sound) {m : ModuleId}
    (linked : (mods.buffer m).linked = true) :
    ((process env fresh main mods m).state.buffer m).Counted ∧
      ((process env fresh main mods m).state.buffer m).nodes.length ≤ m.cap := by
  obtain ⟨counted, capped⟩ := sound m
  cases m with
  | lag =>
      exact ⟨lagProcess_counted linked counted env main,
        Nat.le_of_lt_succ (lagProcess_cap linked counted env main (Nat.lt_succ_of_le capped))⟩
  | jitter =>
      exact ⟨jitterProcess_counted linked counted env main,
        Nat.le_of_lt_succ (jitterProcess_cap linked counted env main (Nat.lt_succ_of_le capped))⟩
  | throttle =>
      have sizes := throttleProcess_sizes env main linked counted (Nat.lt_succ_of_le capped)
      exact ⟨sizes.1, Nat.le_of_lt_succ sizes.2⟩
  | ood =>
      have sizes := oodProcess_sizes env main linked counted
      exact ⟨sizes.1, Nat.le_of_lt_succ sizes.2⟩
  | bandwidth => exact bandwidthProcess_sizes double env main linked counted capped
  | _ => exact ⟨counted, capped⟩

theorem process_sound (env : ProcEnv) (fresh : Nat) (main : List (PacketNode β))
    {mods : Statics β} (sound : mods.Sound) {m : ModuleId}
    (linked : (mods.buffer m).linked = true) : (process env fresh main mods m).state.Sound :=
  sound.replace (process_frame env fresh main mods m)
    (process_sound_local env fresh main sound linked)

/-- Only the five dropping modules free packets, throttle only in its drop mode. -/
theorem process_freed (env : ProcEnv) (fresh : Nat) (main : List (PacketNode β))
    (mods : Statics β) (m : ModuleId) (freed : (process env fresh main mods m).freed ≠ []) :
    m.drops = true ∧ (m = .throttle → mods.throttle.dropThrottled = true) := by
  cases m with
  | lag | jitter | dup | ood | tamper | corrupt | reset => exact absurd rfl freed
  | throttle =>
      refine ⟨rfl, fun _ => ?_⟩
      by_contra keeps
      exact freed (throttleProcess_freed env main mods.throttle (by simpa using keeps))
  | drop | burstloss | blackout | bandwidth => exact ⟨rfl, fun same => absurd same (by decide)⟩

/-- Clones take fresh addresses, in order, and carry their originals' bytes. -/
theorem process_clones (env : ProcEnv) (fresh : Nat) (main : List (PacketNode β))
    (mods : Statics β) (m : ModuleId) :
    (process env fresh main mods m).clones.map PacketNode.addr =
        List.range' fresh (process env fresh main mods m).clones.length ∧
      ∀ copy ∈ (process env fresh main mods m).clones, ∃ src ∈ main, IsCloneOf src copy := by
  have none {clones : List (PacketNode β)} (nil : clones = []) :
      clones.map PacketNode.addr = List.range' fresh clones.length ∧
        ∀ copy ∈ clones, ∃ src ∈ main, IsCloneOf src copy := by
    subst nil
    simp
  cases m with
  | dup => exact ⟨dupProcess_clones_addr env fresh main mods.dup,
      dupProcess_clones env fresh main mods.dup⟩
  | blackout => exact none (blackoutProcess_clones env main mods.blackout)
  | throttle => exact none (throttleProcess_clones env main mods.throttle)
  | _ => exact none rfl

/-- **Isolation of a call**: a direction the module does not handle keeps its
packets where they are. -/
theorem process_isolates (env : ProcEnv) (fresh : Nat) (main : List (PacketNode β))
    (mods : Statics β) (m : ModuleId) (out : Bool)
    (off : ∀ pac, PacketNode.travels out pac = true → mods.handles m pac = false) :
    Queues.Isolates (PacketNode.travels out) { main, buf := mods.buffer m }
        { main := (process env fresh main mods m).main
          buf := (process env fresh main mods m).state.buffer m
          freed := (process env fresh main mods m).freed } ∧
      (process env fresh main mods m).clones.filter (PacketNode.travels out) = [] := by
  have queueOnly {main' freed : List (PacketNode β)}
      (kept : main'.filter (PacketNode.travels out) = main.filter (PacketNode.travels out))
      (gone : freed.filter (PacketNode.travels out) = []) :
      Queues.Isolates (PacketNode.travels out) { main, buf := Statics.noBuffer }
        { main := main', buf := Statics.noBuffer, freed } := by
    refine ⟨[], [], ?_, ?_⟩
    · simp [kept]
    · simp [Statics.noBuffer, gone]
  cases m with
  | lag => exact ⟨lagProcess_isolates env main mods.lag out off, rfl⟩
  | jitter => exact ⟨jitterProcess_isolates env main mods.jitter out off, rfl⟩
  | drop =>
      have walked := dropProcess_filter env main mods.drop _ off
      exact ⟨queueOnly walked.1 walked.2, rfl⟩
  | burstloss =>
      have walked := burstlossProcess_filter env main mods.burstloss _ off
      exact ⟨queueOnly walked.1 walked.2, rfl⟩
  | blackout =>
      have walked := blackoutProcess_filter env main mods.blackout _ off
      refine ⟨queueOnly walked.1 walked.2, ?_⟩
      show ((blackoutProcess env main mods.blackout).clones).filter _ = []
      rw [blackoutProcess_clones]
      rfl
  | throttle =>
      refine ⟨throttleProcess_isolates env main mods.throttle out off, ?_⟩
      show ((throttleProcess env main mods.throttle).clones).filter _ = []
      rw [throttleProcess_clones]
      rfl
  | dup =>
      have walked := dupProcess_filter env fresh main mods.dup out off
      exact ⟨queueOnly walked.1 rfl, walked.2⟩
  | ood => exact ⟨oodProcess_isolates env main mods.ood out off, rfl⟩
  | tamper => exact ⟨queueOnly (tamperProcess_filter env main _ out off) rfl, rfl⟩
  | corrupt =>
      exact ⟨queueOnly (corruptProcess_filter env main _ out off) rfl, rfl⟩
  | reset => exact ⟨queueOnly (resetProcess_filter env main _ out off) rfl, rfl⟩
  | bandwidth => exact ⟨bandwidthProcess_isolates double env main mods.bandwidth out off, rfl⟩

end Process

end Clumsy.Modules
