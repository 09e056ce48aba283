/-
# Modules.Throttle -- throttle.cpp: hold traffic for a time frame, then let go

A throttle starts with some chance when packets are waiting.  While it lasts,
handled packets go into the buffer; when the frame is over or the buffer full,
the buffer is sent on, or dropped if `throttle-drop` is set.  A throttle can
start and end within one call (the source's `goto`).
-/
import Clumsy.Modules.Basic

namespace Clumsy.Modules

open Clumsy.Theory
open Clumsy.Packet

set_option autoImplicit false

def Throttle.KEEP_AT_MOST : Int := 1000

/-- The statics of `throttle.cpp`.  `throttleStartTick` is 0 outside a throttle. -/
structure Throttle (β : Type) where
  throttleInbound   : Bool
  throttleOutbound  : Bool
  chance            : Chance
  throttleFrame     : Clamped 0 1000
  dropThrottled     : Bool
  buf               : Buffer β
  throttleStartTick : UInt32
  affectedCount     : Nat

variable {β : Type}

namespace Throttle

def initial : Throttle β where
  throttleInbound := true
  throttleOutbound := true
  chance := .literal 1000 (.refl true)
  throttleFrame := .literal 30 (.refl true)
  dropThrottled := false
  buf := .unlinked
  throttleStartTick := 0
  affectedCount := 0

def handles (throttle : Throttle β) (pac : PacketNode β) : Bool :=
  checkDirection pac.pktMeta.outbound throttle.throttleInbound throttle.throttleOutbound

end Throttle

def throttleStartUp (throttle : Throttle β) : Throttle β :=
  { throttle with buf := throttle.buf.startUp, throttleStartTick := 0 }

/-- `dropBufPackets`: free the buffer from its old end. -/
def dropBufPackets (q : Queues β) : Queues β :=
  { q with
    buf := { q.buf with nodes := [], bufSize := q.buf.bufSize - q.buf.nodes.length }
    freed := q.freed ++ q.buf.nodes.reverse }

def throttleCloseDown (main : List (PacketNode β)) (throttle : Throttle β) :
    Outcome (Throttle β) β :=
  let cleared := flushBehind { main, buf := throttle.buf }
  { state := { throttle with buf := cleared.buf, throttleStartTick := 0 }
    main := cleared.main
    triggered := false }

namespace Throttle

/-- Keep filling up. -/
def fill (main : List (PacketNode β)) (throttle : Throttle β) : Unit × Queues β × Nat :=
  pickUp throttle.handles KEEP_AT_MOST (fun _ pac => ((), pac)) ()
    { main, buf := throttle.buf }

/-- The block behind the label `THROTTLE_START`. -/
def throttleStep (currentTick : UInt32) (throttled : Bool) (main : List (PacketNode β))
    (throttle : Throttle β) : Outcome (Throttle β) β :=
  let filled := throttle.fill main
  let counted := throttle.affectedCount + filled.2.2
  let q := filled.2.1
  if q.buf.bufSize ≥ KEEP_AT_MOST ∨
      currentTick - throttle.throttleStartTick > UInt32.ofInt throttle.throttleFrame.val then
    let ended := if throttle.dropThrottled then dropBufPackets q else flushBehind q
    { state := { throttle with
        buf := ended.buf
        throttleStartTick := 0
        affectedCount := counted }
      main := ended.main
      freed := ended.freed
      triggered := throttled }
  else
    { state := { throttle with buf := q.buf, affectedCount := counted }
      main := q.main
      triggered := throttled }

end Throttle

/-- The throttle `throttle` once it has started at `tick`. -/
def Throttle.startedAt (throttle : Throttle β) (tick : UInt32) : Throttle β :=
  { throttle with throttleStartTick := tick }

def throttleProcess (env : ProcEnv) (main : List (PacketNode β)) (throttle : Throttle β) :
    Outcome (Throttle β) β :=
  if throttle.throttleStartTick = 0 then
    -- the coin is only tossed when packets are waiting
    if !main.isEmpty && (calcChance throttle.chance.val env.draws).1 then
      (throttle.startedAt (env.ticks 0)).throttleStep (env.ticks 1) true main
    else { state := throttle, main, triggered := false }
  else throttle.throttleStep (env.ticks 0) false main

/-- A control write to one of throttle's parameters, after its value was parsed. -/
inductive ThrottleParam where
  | chance (v : Int)
  | frame (v : Int)
  | drop (on : Bool)
  | inbound (on : Bool)
  | outbound (on : Bool)
  deriving Repr

def throttleSetParam (throttle : Throttle β) : ThrottleParam → Throttle β
  | .chance v => { throttle with chance := .set v }
  | .frame v => { throttle with throttleFrame := .ofShort (.refl true) v }
  | .drop on => { throttle with dropThrottled := on }
  | .inbound on => { throttle with throttleInbound := on }
  | .outbound on => { throttle with throttleOutbound := on }

/-! ## Dropping the buffer -/

theorem dropBufPackets_conserves (q : Queues β) : q.Conserves (dropBufPackets q) := by
  apply Queues.Conserves.all_perm
  simp only [Queues.all, dropBufPackets, ← Multiset.coe_eq_coe, ← Multiset.coe_add,
    Multiset.coe_reverse, Multiset.coe_nil]
  abel

theorem dropBufPackets_isolates (p : PacketNode β → Bool) (q : Queues β) :
    q.Isolates p (dropBufPackets q) := by
  refine ⟨[], [], by simp [dropBufPackets], ?_⟩
  simp only [dropBufPackets, List.filter_append, List.filter_reverse, ← Multiset.coe_eq_coe,
    ← Multiset.coe_add, Multiset.coe_reverse, List.filter_nil, Multiset.coe_nil]
  abel

theorem dropBufPackets_counted {q : Queues β} (counted : q.buf.Counted) :
    (dropBufPackets q).buf.Counted := by
  simp [dropBufPackets, Buffer.Counted, counted.1]

/-! ## Specification -/

namespace Throttle

/-- How a throttle step ends: the filled queues, as they are, flushed or dropped. -/
theorem throttleStep_queues (currentTick : UInt32) (throttled : Bool)
    (main : List (PacketNode β)) (throttle : Throttle β) :
    let out := throttle.throttleStep currentTick throttled main
    let q : Queues β := { main := out.main, buf := out.state.buf, freed := out.freed }
    q = flushBehind (throttle.fill main).2.1 ∨
      (throttle.dropThrottled = true ∧ q = dropBufPackets (throttle.fill main).2.1) ∨
      (q = (throttle.fill main).2.1 ∧ (throttle.fill main).2.1.buf.bufSize < KEEP_AT_MOST) := by
  simp only [throttleStep]
  split
  · cases drops : throttle.dropThrottled with
    | true => exact Or.inr (Or.inl ⟨rfl, by simp⟩)
    | false => exact Or.inl rfl
  · rename_i lasting
    exact Or.inr (Or.inr ⟨rfl, by omega⟩)

theorem throttleStep_conserves (currentTick : UInt32) (throttled : Bool)
    (main : List (PacketNode β)) (throttle : Throttle β) :
    Queues.Conserves { main, buf := throttle.buf }
      { main := (throttle.throttleStep currentTick throttled main).main
        buf := (throttle.throttleStep currentTick throttled main).state.buf
        freed := (throttle.throttleStep currentTick throttled main).freed } := by
  have filled : Queues.Conserves { main, buf := throttle.buf } (throttle.fill main).2.1 :=
    pickUp_conserves _ _ _ _ _ (fun _ _ => rfl)
  rcases throttleStep_queues currentTick throttled main throttle with same | ⟨-, same⟩ | ⟨same, -⟩
  · rw [same]
    exact filled.trans (flushBehind_conserves _)
  · rw [same]
    exact filled.trans (dropBufPackets_conserves _)
  · rw [same]
    exact filled

theorem throttleStep_isolates (currentTick : UInt32) (throttled : Bool)
    (main : List (PacketNode β)) (throttle : Throttle β) (out : Bool)
    (off : ∀ pac, PacketNode.travels out pac = true → throttle.handles pac = false) :
    Queues.Isolates (PacketNode.travels out) { main, buf := throttle.buf }
      { main := (throttle.throttleStep currentTick throttled main).main
        buf := (throttle.throttleStep currentTick throttled main).state.buf
        freed := (throttle.throttleStep currentTick throttled main).freed } := by
  have filled : Queues.Isolates (PacketNode.travels out) { main, buf := throttle.buf }
      (throttle.fill main).2.1 := pickUp_isolates _ _ _ _ _ _ off (fun _ _ => rfl)
  rcases throttleStep_queues currentTick throttled main throttle with same | ⟨-, same⟩ | ⟨same, -⟩
  · rw [same]
    exact filled.trans (flushBehind_isolates _ _)
  · rw [same]
    exact filled.trans (dropBufPackets_isolates _ _)
  · rw [same]
    exact filled

section Sizes

variable {throttle : Throttle β} (linked : throttle.buf.linked = true)
  (counted : throttle.buf.Counted)

include linked counted

theorem fill_counted (main : List (PacketNode β)) : (throttle.fill main).2.1.buf.Counted :=
  pickUp_counted _ _ _ _ _ linked counted

/-- After a throttle step the counter is right and the buffer below its cap. -/
theorem throttleStep_sizes (currentTick : UInt32) (throttled : Bool)
    (main : List (PacketNode β)) :
    let buf := (throttle.throttleStep currentTick throttled main).state.buf
    buf.Counted ∧ buf.nodes.length < 1000 := by
  have filled := fill_counted linked counted main
  have buffers := throttleStep_queues currentTick throttled main throttle
  simp only at buffers ⊢
  rcases buffers with same | ⟨-, same⟩ | ⟨same, below⟩
  · have same := congrArg Queues.buf same
    simp only at same
    rw [same]
    exact ⟨flushBehind_counted filled, by simp⟩
  · have same := congrArg Queues.buf same
    simp only at same
    rw [same]
    exact ⟨dropBufPackets_counted filled, by simp [dropBufPackets]⟩
  · have same := congrArg Queues.buf same
    simp only at same
    rw [same]
    have size := filled.1
    simp only [KEEP_AT_MOST] at below
    exact ⟨filled, by omega⟩

end Sizes

@[simp] theorem throttleStep_linked (currentTick : UInt32) (throttled : Bool)
    (main : List (PacketNode β)) (throttle : Throttle β) :
    (throttle.throttleStep currentTick throttled main).state.buf.linked =
      throttle.buf.linked := by
  simp only [throttleStep]
  split
  · cases throttle.dropThrottled <;> simp [fill, dropBufPackets]
  · rfl

/-- Only the drop mode frees packets. -/
theorem throttleStep_freed (currentTick : UInt32) (throttled : Bool)
    (main : List (PacketNode β)) (throttle : Throttle β) (keeps : throttle.dropThrottled = false) :
    (throttle.throttleStep currentTick throttled main).freed = [] := by
  simp only [throttleStep, keeps]
  split <;> rfl

end Throttle

theorem throttleProcess_conserves (env : ProcEnv) (main : List (PacketNode β))
    (throttle : Throttle β) :
    Queues.Conserves { main, buf := throttle.buf }
      { main := (throttleProcess env main throttle).main
        buf := (throttleProcess env main throttle).state.buf
        freed := (throttleProcess env main throttle).freed } := by
  unfold throttleProcess
  split
  · split
    · exact Throttle.throttleStep_conserves (env.ticks 1) true main
        (throttle.startedAt (env.ticks 0))
    · exact Queues.Conserves.refl _
  · exact Throttle.throttleStep_conserves _ _ _ _

theorem throttleProcess_isolates (env : ProcEnv) (main : List (PacketNode β))
    (throttle : Throttle β) (out : Bool)
    (off : ∀ pac, PacketNode.travels out pac = true → throttle.handles pac = false) :
    Queues.Isolates (PacketNode.travels out) { main, buf := throttle.buf }
      { main := (throttleProcess env main throttle).main
        buf := (throttleProcess env main throttle).state.buf
        freed := (throttleProcess env main throttle).freed } := by
  unfold throttleProcess
  split
  · split
    · exact Throttle.throttleStep_isolates (env.ticks 1) true main
        (throttle.startedAt (env.ticks 0)) out off
    · exact Queues.Isolates.refl _ _
  · exact Throttle.throttleStep_isolates _ _ _ _ out off

/-- **Counted and below the cap after every call.** -/
theorem throttleProcess_sizes (env : ProcEnv) (main : List (PacketNode β))
    {throttle : Throttle β} (linked : throttle.buf.linked = true)
    (counted : throttle.buf.Counted) (below : throttle.buf.nodes.length < 1000) :
    (throttleProcess env main throttle).state.buf.Counted ∧
      (throttleProcess env main throttle).state.buf.nodes.length < 1000 := by
  unfold throttleProcess
  split
  · split
    · have linked : (throttle.startedAt (env.ticks 0)).buf.linked = true := linked
      exact Throttle.throttleStep_sizes linked counted _ _ _
    · exact ⟨counted, below⟩
  · exact Throttle.throttleStep_sizes linked counted _ _ _

@[simp] theorem throttleProcess_linked (env : ProcEnv) (main : List (PacketNode β))
    (throttle : Throttle β) :
    (throttleProcess env main throttle).state.buf.linked = throttle.buf.linked := by
  unfold throttleProcess
  split
  · split
    · rw [Throttle.throttleStep_linked]
      rfl
    · rfl
  · rw [Throttle.throttleStep_linked]

@[simp] theorem throttleProcess_clones (env : ProcEnv) (main : List (PacketNode β))
    (throttle : Throttle β) : (throttleProcess env main throttle).clones = [] := by
  have step : ∀ tick throttled (throttle : Throttle β),
      (throttle.throttleStep tick throttled main).clones = [] := by
    intro tick throttled throttle
    simp only [Throttle.throttleStep]
    split <;> rfl
  unfold throttleProcess
  split
  · split
    · exact step _ _ _
    · rfl
  · exact step _ _ _

/-- Outside the drop mode a throttle frees nothing. -/
theorem throttleProcess_freed (env : ProcEnv) (main : List (PacketNode β)) (throttle : Throttle β)
    (keeps : throttle.dropThrottled = false) : (throttleProcess env main throttle).freed = [] := by
  unfold throttleProcess
  split
  · split
    · exact Throttle.throttleStep_freed _ _ _ _ keeps
    · rfl
  · exact Throttle.throttleStep_freed _ _ _ _ keeps

end Clumsy.Modules
