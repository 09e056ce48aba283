/-
# Modules.Opaque -- the modules never look into a backend's blob

`PacketNode::backend` belongs to the capture backend.  The modules carry it along: whatever is
written into it, a call decides the same, draws the same and moves the same packets.  Stated
as a change of blobs, `relabel f`, that every call commutes with (`processOn_relabel`,
`startUp_relabel`, `closeDown_relabel`, `setParam_relabel`); only `packetBackendPrepareClone`
has to go along with `f`.
-/
import Clumsy.Modules.Helpers
import Clumsy.Theory.Relabel

namespace Clumsy.Packet

set_option autoImplicit false

variable {β γ : Type} (f : β → γ)

/-- The node with another blob. -/
def PacketNode.relabel (node : PacketNode β) : PacketNode γ :=
  { addr := node.addr
    packet := node.packet
    pktMeta := node.pktMeta
    backend := f node.backend
    timestamp := node.timestamp
    enqueueTime := node.enqueueTime }

/-- Cloning goes along with a change of blobs. -/
class Follows [CaptureBackend β] [CaptureBackend γ] : Prop where
  prepareClone : ∀ b : β, f (CaptureBackend.packetBackendPrepareClone b) =
    CaptureBackend.packetBackendPrepareClone (f b)

theorem cloneNode_relabel [CaptureBackend β] [CaptureBackend γ] [Follows f] (addr : Nat)
    (src : PacketNode β) : cloneNode addr (src.relabel f) = (cloneNode addr src).relabel f := by
  simp only [cloneNode, createNode, PacketNode.relabel, Follows.prepareClone]

end Clumsy.Packet

namespace Clumsy.Modules

open Clumsy.Theory
open Clumsy.Packet

set_option autoImplicit false

variable {β γ σ : Type} (f : β → γ)

/-! ## What the modules work on -/

def Buffer.relabel (buf : Buffer β) : Buffer γ :=
  { linked := buf.linked, nodes := buf.nodes.map (PacketNode.relabel f), bufSize := buf.bufSize }

def Queues.relabel (q : Queues β) : Queues γ :=
  { main := q.main.map (PacketNode.relabel f)
    buf := q.buf.relabel f
    freed := q.freed.map (PacketNode.relabel f) }

def Outcome.relabel {τ : Type} (state : σ → τ) (out : Outcome σ β) : Outcome τ γ :=
  { state := state out.state
    main := out.main.map (PacketNode.relabel f)
    freed := out.freed.map (PacketNode.relabel f)
    clones := out.clones.map (PacketNode.relabel f)
    delays := out.delays
    triggered := out.triggered }

def Lag.relabel (lag : Lag β) : Lag γ :=
  { lagInbound := lag.lagInbound
    lagOutbound := lag.lagOutbound
    lagTime := lag.lagTime
    buf := lag.buf.relabel f
    affectedCount := lag.affectedCount }

def Jitter.relabel (jitter : Jitter β) : Jitter γ :=
  { jitterInbound := jitter.jitterInbound
    jitterOutbound := jitter.jitterOutbound
    jitterMin := jitter.jitterMin
    jitterMax := jitter.jitterMax
    jitterDist := jitter.jitterDist
    buf := jitter.buf.relabel f
    affectedCount := jitter.affectedCount }

def Throttle.relabel (throttle : Throttle β) : Throttle γ :=
  { throttleInbound := throttle.throttleInbound
    throttleOutbound := throttle.throttleOutbound
    chance := throttle.chance
    throttleFrame := throttle.throttleFrame
    dropThrottled := throttle.dropThrottled
    buf := throttle.buf.relabel f
    throttleStartTick := throttle.throttleStartTick
    affectedCount := throttle.affectedCount }

def Ood.relabel (ood : Ood β) : Ood γ :=
  { oodInbound := ood.oodInbound
    oodOutbound := ood.oodOutbound
    chance := ood.chance
    maxBuffer := ood.maxBuffer
    maxDelay := ood.maxDelay
    buf := ood.buf.relabel f
    affectedCount := ood.affectedCount }

def Bandwidth.relabel (bandwidth : Bandwidth β) : Bandwidth γ :=
  { bandwidthInbound := bandwidth.bandwidthInbound
    bandwidthOutbound := bandwidth.bandwidthOutbound
    bandwidthLimit := bandwidth.bandwidthLimit
    buf := bandwidth.buf.relabel f
    tokenBucket := bandwidth.tokenBucket
    maxTokens := bandwidth.maxTokens
    lastFillTime := bandwidth.lastFillTime
    affectedCount := bandwidth.affectedCount }

def Statics.relabel (mods : Statics β) : Statics γ :=
  { lag := mods.lag.relabel f
    jitter := mods.jitter.relabel f
    drop := mods.drop
    burstloss := mods.burstloss
    blackout := mods.blackout
    throttle := mods.throttle.relabel f
    dup := mods.dup
    ood := mods.ood.relabel f
    tamper := mods.tamper
    corrupt := mods.corrupt
    reset := mods.reset
    bandwidth := mods.bandwidth.relabel f }

theorem Statics.relabel_buffer (mods : Statics β) (m : ModuleId) :
    (mods.relabel f).buffer m = (mods.buffer m).relabel f := by
  cases m <;> rfl

/-! ## The loops -/

theorem takeIn_relabel {judge : σ → Int → PacketNode β → σ × Fate (PacketNode β)}
    {judge' : σ → Int → PacketNode γ → σ × Fate (PacketNode γ)}
    (follows : ∀ s size pac, judge' s size (pac.relabel f) =
      ((judge s size pac).1, (judge s size pac).2.map (PacketNode.relabel f)))
    (s : σ) (q : Queues β) :
    takeIn judge' s (q.relabel f) =
      ((takeIn judge s q).1, (takeIn judge s q).2.1.relabel f, (takeIn judge s q).2.2) := by
  have counts : ∀ c pac, counting judge' c (PacketNode.relabel f pac) =
      ((counting judge c pac).1, (counting judge c pac).2.map (PacketNode.relabel f)) := by
    intro c pac
    unfold counting
    rw [follows]
    rcases judge c.1 c.2 pac with ⟨s, fate⟩
    cases fate <;> rfl
  simp only [takeIn, Queues.relabel, Buffer.relabel, ← List.map_reverse,
    sweep_map (PacketNode.relabel f) counts, Swept.map_state, Swept.map_kept, Swept.map_held,
    Swept.map_gone, List.length_map, List.map_append]

/-- What `pickUp` does to a packet and its counter. -/
def stampCounting (stamp : σ → PacketNode β → σ × PacketNode β) (c : σ × Int)
    (pac : PacketNode β) : (σ × Int) × PacketNode β :=
  (((stamp c.1 pac).1, c.2 + 1), (stamp c.1 pac).2)

theorem pickUp_relabel {handles : PacketNode β → Bool} {handles' : PacketNode γ → Bool}
    {stamp : σ → PacketNode β → σ × PacketNode β} {stamp' : σ → PacketNode γ → σ × PacketNode γ}
    (accepts : ∀ pac, handles' (pac.relabel f) = handles pac)
    (stamps : ∀ s pac, stamp' s (pac.relabel f) = ((stamp s pac).1, (stamp s pac).2.relabel f))
    (cap : Int) (s : σ) (q : Queues β) :
    pickUp handles' cap stamp' s (q.relabel f) =
      ((pickUp handles cap stamp s q).1, (pickUp handles cap stamp s q).2.1.relabel f,
        (pickUp handles cap stamp s q).2.2) := by
  have takes : ∀ c pac, stampCounting stamp' c (PacketNode.relabel f pac) =
      ((stampCounting stamp c pac).1, (stampCounting stamp c pac).2.relabel f) := by
    intro c pac
    simp only [stampCounting, stamps]
  have walked := gather_map (PacketNode.relabel f) (fun c => decide (c.2 < cap)) accepts takes
    q.main.length (s, q.buf.bufSize) q.main.reverse
  unfold stampCounting at walked
  simp only [pickUp, Queues.relabel, Buffer.relabel, ← List.map_reverse, List.length_map, walked,
    List.map_append]

/-- What `releaseOldest` spends on a packet, with its counter. -/
def spendCounting (spend : σ → PacketNode β → Option σ) (c : σ × Int) (pac : PacketNode β) :
    Option (σ × Int) :=
  (spend c.1 pac).map fun t => (t, c.2 - 1)

theorem releaseOldest_relabel {spend : σ → PacketNode β → Option σ}
    {spend' : σ → PacketNode γ → Option σ}
    (follows : ∀ s pac, spend' s (pac.relabel f) = spend s pac) (s : σ) (q : Queues β) :
    releaseOldest spend' s (q.relabel f) =
      ((releaseOldest spend s q).1, (releaseOldest spend s q).2.1.relabel f,
        (releaseOldest spend s q).2.2.map (PacketNode.relabel f)) := by
  have counts : ∀ c pac, spendCounting spend' c (PacketNode.relabel f pac) =
      spendCounting spend c pac := by
    intro c pac
    simp only [spendCounting, follows]
  have walked := release_map (PacketNode.relabel f) counts q.buf.nodes.reverse (s, q.buf.bufSize)
  unfold spendCounting at walked
  simp only [releaseOldest, Queues.relabel, Buffer.relabel, ← List.map_reverse, walked,
    List.map_append]

theorem flushWhenFull_relabel (keep : Int) (count : Nat) (q : Queues β) :
    flushWhenFull keep count (q.relabel f) =
      ((flushWhenFull keep count q).1.relabel f,
        (flushWhenFull keep count q).2.map (PacketNode.relabel f)) := by
  have counts (n : Nat) (pac : PacketNode β) : countdown n (pac.relabel f) = countdown n pac := by
    cases n <;> rfl
  unfold flushWhenFull
  show (if q.buf.bufSize ≥ keep then _ else _) = _
  rw [releaseOldest_relabel f counts]
  split <;> rfl

theorem flushBehind_relabel (q : Queues β) :
    flushBehind (q.relabel f) = (flushBehind q).relabel f := by
  simp [flushBehind_eq, Queues.relabel, Buffer.relabel]

theorem discardWhere_relabel {drops : σ → PacketNode β → Bool × σ}
    {drops' : σ → PacketNode γ → Bool × σ}
    (follows : ∀ s pac, drops' s (pac.relabel f) = drops s pac) (s : σ)
    (main : List (PacketNode β)) :
    discardWhere drops' s (main.map (PacketNode.relabel f)) =
      (discardWhere drops s main).map (PacketNode.relabel f) := by
  apply sweep_map
  intro s pac
  rw [follows]
  split <;> rfl

/-- What `releaseDue` decides on a packet. -/
def dueFate (due : PacketNode β → Bool) (size : Int) (pac : PacketNode β) :
    Int × Fate (PacketNode β) :=
  if due pac then (size - 1, .hold pac) else (size, .keep)

theorem releaseDue_relabel {due : PacketNode β → Bool} {due' : PacketNode γ → Bool}
    (follows : ∀ pac, due' (pac.relabel f) = due pac) (q : Queues β) :
    releaseDue due' (q.relabel f) =
      ((releaseDue due q).1.relabel f, (releaseDue due q).2.map (PacketNode.relabel f)) := by
  have judged : ∀ size pac, dueFate due' size (PacketNode.relabel f pac) =
      ((dueFate due size pac).1, (dueFate due size pac).2.map (PacketNode.relabel f)) := by
    intro size pac
    unfold dueFate
    rw [follows]
    split <;> rfl
  have walked := sweep_map (PacketNode.relabel f) judged q.buf.nodes.reverse q.buf.bufSize
  unfold dueFate at walked
  simp only [releaseDue, Queues.relabel, Buffer.relabel, ← List.map_reverse, walked,
    Swept.map_state, Swept.map_kept, Swept.map_held, List.map_append]

theorem swapIfInBounds_map {α δ : Type} (g : α → δ) (arr : Array α) (i j : Nat) :
    (arr.map g).swapIfInBounds i j = (arr.swapIfInBounds i j).map g := by
  unfold Array.swapIfInBounds
  simp only [Array.size_map]
  split
  · split
    · apply Array.ext
      · simp
      · intro k _ _
        simp only [Array.getElem_swap, Array.getElem_map]
        split_ifs <;> rfl
    · rfl
  · rfl

theorem fisherYates_map {α δ : Type} (g : α → δ) (i : Nat) (arr : Array α) (d : Draws) :
    fisherYates i (arr.map g) d = (fisherYates i arr d).map g := by
  induction i generalizing arr d with
  | zero => rfl
  | succ i ih => rw [fisherYates, swapIfInBounds_map, ih, fisherYates]

theorem releaseBufShuffled_relabel (d : Draws) (q : Queues β) :
    releaseBufShuffled d (q.relabel f) = (releaseBufShuffled d q).relabel f := by
  have size : (q.relabel f).buf.bufSize = q.buf.bufSize := rfl
  have nodes : (q.relabel f).buf.nodes.reverse =
      q.buf.nodes.reverse.map (PacketNode.relabel f) := List.map_reverse.symm
  unfold releaseBufShuffled
  simp only [size, nodes]
  split
  · rfl
  · simp only [Queues.relabel, Buffer.relabel, ← List.map_take, ← List.map_drop, ← List.map_reverse,
      ← List.map_toArray, fisherYates_map, Array.toList_map, List.map_append]

/-! ## The modules -/

theorem lagProcess_relabel (env : ProcEnv) (main : List (PacketNode β)) (lag : Lag β) :
    lagProcess env (main.map (PacketNode.relabel f)) (lag.relabel f) =
      (lagProcess env main lag).relabel f (Lag.relabel f) := by
  have picked : (lag.relabel f).pick (env.ticks 0) (main.map (PacketNode.relabel f)) =
      ((lag.pick (env.ticks 0) main).1, (lag.pick (env.ticks 0) main).2.1.relabel f,
        (lag.pick (env.ticks 0) main).2.2) :=
    pickUp_relabel f (fun _ => rfl) (fun _ _ => rfl) Lag.KEEP_AT_MOST () { main, buf := lag.buf }
  have sent : ∀ q : Queues β, (lag.relabel f).send (env.ticks 0) (q.relabel f) =
      ((lag.send (env.ticks 0) q).1, (lag.send (env.ticks 0) q).2.1.relabel f,
        (lag.send (env.ticks 0) q).2.2.map (PacketNode.relabel f)) :=
    fun q => releaseOldest_relabel f (fun _ _ => rfl) () q
  unfold lagProcess
  simp only [picked, sent, flushWhenFull_relabel, ← List.map_append, List.map_map]
  rfl

/-- What jitter writes into a packet it takes. -/
def Jitter.stamp (env : ProcEnv) (jitter : Jitter β) (d : Draws) (pac : PacketNode β) :
    Draws × PacketNode β :=
  let delay := jitterSampleDelay env.libm (min jitter.jitterMin.val jitter.jitterMax.val)
    (max jitter.jitterMin.val jitter.jitterMax.val) jitter.jitterDist d
  (delay.2, { pac with enqueueTime := env.ticks 0, timestamp := env.ticks 0 + delay.1 })

theorem jitterProcess_relabel (env : ProcEnv) (main : List (PacketNode β)) (jitter : Jitter β) :
    jitterProcess env (main.map (PacketNode.relabel f)) (jitter.relabel f) =
      (jitterProcess env main jitter).relabel f (Jitter.relabel f) := by
  have stamps : ∀ (d : Draws) (pac : PacketNode β),
      (jitter.relabel f).stamp env d (pac.relabel f) =
        ((jitter.stamp env d pac).1, (jitter.stamp env d pac).2.relabel f) := fun _ _ => rfl
  have picked : (jitter.relabel f).pick env (main.map (PacketNode.relabel f)) =
      ((jitter.pick env main).1, (jitter.pick env main).2.1.relabel f,
        (jitter.pick env main).2.2) :=
    pickUp_relabel f (fun _ => rfl) stamps Jitter.KEEP_AT_MOST env.draws
      { main, buf := jitter.buf }
  have sent : ∀ q : Queues β,
      releaseDue (fun pac => decide (env.ticks 0 ≥ pac.timestamp)) (q.relabel f) =
        ((releaseDue (fun pac => decide (env.ticks 0 ≥ pac.timestamp)) q).1.relabel f,
          (releaseDue (fun pac => decide (env.ticks 0 ≥ pac.timestamp)) q).2.map
            (PacketNode.relabel f)) :=
    fun q => releaseDue_relabel f (fun _ => rfl) q
  unfold jitterProcess
  simp only [picked, sent, flushWhenFull_relabel, ← List.map_append, List.map_map]
  rfl

theorem dropProcess_relabel (env : ProcEnv) (main : List (PacketNode β)) (drop : Drop) :
    dropProcess env (main.map (PacketNode.relabel f)) drop =
      (dropProcess env main drop).relabel f id := by
  have walked : discardWhere drop.drops env.draws (main.map (PacketNode.relabel f)) =
      (discardWhere drop.drops env.draws main).map (PacketNode.relabel f) :=
    discardWhere_relabel f (fun _ _ => rfl) _ _
  unfold dropProcess
  simp [walked, Outcome.relabel]

theorem burstlossProcess_relabel (env : ProcEnv) (main : List (PacketNode β))
    (burst : Burstloss) :
    burstlossProcess env (main.map (PacketNode.relabel f)) burst =
      (burstlossProcess env main burst).relabel f id := by
  have walked : discardWhere burst.drops (burst.currentState, env.draws)
        (main.map (PacketNode.relabel f)) =
      (discardWhere burst.drops (burst.currentState, env.draws) main).map (PacketNode.relabel f) :=
    discardWhere_relabel f (fun _ _ => rfl) _ _
  unfold burstlossProcess
  simp [walked, Outcome.relabel]

theorem blackoutProcess_relabel (env : ProcEnv) (main : List (PacketNode β))
    (blackout : Blackout) :
    blackoutProcess env (main.map (PacketNode.relabel f)) blackout =
      (blackoutProcess env main blackout).relabel f id := by
  have walked : ∀ moved : Blackout,
      discardWhere (fun (_ : Unit) pac => (moved.handles pac, ())) ()
          (main.map (PacketNode.relabel f)) =
        (discardWhere (fun (_ : Unit) pac => (moved.handles pac, ())) () main).map
          (PacketNode.relabel f) :=
    fun moved => discardWhere_relabel f (fun _ _ => rfl) _ _
  unfold blackoutProcess
  simp only [walked]
  split <;> simp [Outcome.relabel]

theorem throttleStep_relabel (currentTick : UInt32) (throttled : Bool)
    (main : List (PacketNode β)) (throttle : Throttle β) :
    (throttle.relabel f).throttleStep currentTick throttled (main.map (PacketNode.relabel f)) =
      (throttle.throttleStep currentTick throttled main).relabel f (Throttle.relabel f) := by
  have filled : (throttle.relabel f).fill (main.map (PacketNode.relabel f)) =
      ((throttle.fill main).1, (throttle.fill main).2.1.relabel f, (throttle.fill main).2.2) :=
    pickUp_relabel f (fun _ => rfl) (fun _ _ => rfl) Throttle.KEEP_AT_MOST ()
      { main, buf := throttle.buf }
  have ended : ∀ q : Queues β,
      (if (throttle.relabel f).dropThrottled then dropBufPackets (q.relabel f)
        else flushBehind (q.relabel f)) =
      (if throttle.dropThrottled then dropBufPackets q else flushBehind q).relabel f := by
    intro q
    show (if throttle.dropThrottled then _ else _) = _
    split
    · simp [dropBufPackets, Queues.relabel, Buffer.relabel]
    · exact flushBehind_relabel f q
  unfold Throttle.throttleStep
  simp only [filled, ended]
  show (if (throttle.fill main).2.1.buf.bufSize ≥ Throttle.KEEP_AT_MOST ∨
      currentTick - throttle.throttleStartTick > UInt32.ofInt throttle.throttleFrame.val
        then _ else _) = _
  split <;> rfl

theorem throttleProcess_relabel (env : ProcEnv) (main : List (PacketNode β))
    (throttle : Throttle β) :
    throttleProcess env (main.map (PacketNode.relabel f)) (throttle.relabel f) =
      (throttleProcess env main throttle).relabel f (Throttle.relabel f) := by
  unfold throttleProcess
  show (if throttle.throttleStartTick = 0 then _ else _) = _
  rw [List.isEmpty_map]
  split
  · show (if !main.isEmpty && (calcChance throttle.chance.val env.draws).1 then _ else _) = _
    split
    · exact throttleStep_relabel f (env.ticks 1) true main (throttle.startedAt (env.ticks 0))
    · rfl
  · exact throttleStep_relabel f (env.ticks 0) false main throttle

theorem dupProcess_relabel [CaptureBackend β] [CaptureBackend γ] [Follows f] (env : ProcEnv)
    (fresh : Nat) (main : List (PacketNode β)) (dup : Dup) :
    dupProcess env fresh (main.map (PacketNode.relabel f)) dup =
      (dupProcess env fresh main dup).relabel f id := by
  have cloned : ∀ (src : PacketNode β) (copies : Nat) (w : DupWalk),
      cloneLoop (src.relabel f) copies w =
        ((cloneLoop src copies w).1, (cloneLoop src copies w).2.map (PacketNode.relabel f)) := by
    intro src copies
    induction copies with
    | zero => exact fun _ => rfl
    | succ copies ih =>
        intro w
        rw [cloneLoop, cloneLoop]
        split
        · simp only [ih, cloneNode_relabel, List.map_cons]
        · rfl
  have copied : ∀ (w : DupWalk) (pac : PacketNode β), dup.copiesOf w (pac.relabel f) =
      ((dup.copiesOf w pac).1, (dup.copiesOf w pac).2.map (PacketNode.relabel f)) := by
    intro w pac
    unfold Dup.copiesOf
    show (if dup.handles pac then _ else _) = _
    split
    · simp only
      split
      · exact cloned pac _ _
      · rfl
    · rfl
  unfold dupProcess
  simp only [precede_map (PacketNode.relabel f) copied, List.length_map]
  rfl

theorem oodProcess_relabel (env : ProcEnv) (main : List (PacketNode β)) (ood : Ood β) :
    oodProcess env (main.map (PacketNode.relabel f)) (ood.relabel f) =
      (oodProcess env main ood).relabel f (Ood.relabel f) := by
  have judged : ∀ (d : Draws) (size : Int) (pac : PacketNode β),
      (ood.relabel f).judge (env.ticks 0) d size (pac.relabel f) =
        ((ood.judge (env.ticks 0) d size pac).1,
          (ood.judge (env.ticks 0) d size pac).2.map (PacketNode.relabel f)) := by
    intro d size pac
    unfold Ood.judge
    show (if decide (size < ood.maxBuffer.val) && ood.handles pac then
      (if (calcChance ood.chance.val d).1 then _ else _) else _) = _
    split
    · split <;> rfl
    · rfl
  have captured : (ood.relabel f).capture env (main.map (PacketNode.relabel f)) =
      ((ood.capture env main).1, (ood.capture env main).2.1.relabel f,
        (ood.capture env main).2.2) :=
    takeIn_relabel f judged env.draws { main, buf := ood.buf }
  have ripens : ∀ buf : Buffer β, (ood.relabel f).ripe (env.ticks 0) (buf.relabel f) =
      ood.ripe (env.ticks 0) buf := by
    intro buf
    have oldest : (buf.relabel f).nodes.getLast? =
        buf.nodes.getLast?.map (PacketNode.relabel f) := List.getLast?_map
    unfold Ood.ripe
    rw [oldest]
    cases buf.nodes.getLast? <;> rfl
  have whether : ∀ (ripe : Bool) (d : Draws) (q : Queues β),
      (if ripe then releaseBufShuffled d (q.relabel f) else q.relabel f) =
        (if ripe then releaseBufShuffled d q else q).relabel f := by
    intro ripe d q
    cases ripe
    · rfl
    · exact releaseBufShuffled_relabel f d q
  have ripe : (ood.relabel f).ripe (env.ticks 0)
      ((ood.capture env main).2.1.relabel f).buf = _ := ripens (ood.capture env main).2.1.buf
  unfold oodProcess
  simp only [captured, ripe, whether]
  rfl

theorem bandwidthProcess_relabel (A : Arithmetic 53) (env : ProcEnv)
    (main : List (PacketNode β)) (bandwidth : Bandwidth β) :
    bandwidthProcess A env (main.map (PacketNode.relabel f)) (bandwidth.relabel f) =
      (bandwidthProcess A env main bandwidth).relabel f (Bandwidth.relabel f) := by
  have filled : (bandwidth.relabel f).replenish A (env.ticks 0) =
      (bandwidth.replenish A (env.ticks 0)).relabel f := by
    unfold Bandwidth.replenish
    show (if bandwidth.bandwidthLimit.val > 0 then _ else _) = _
    split <;> rfl
  have judged : ∀ (u : Unit) (size : Int) (pac : PacketNode β),
      (bandwidth.relabel f).judge u size (pac.relabel f) =
        ((bandwidth.judge u size pac).1,
          (bandwidth.judge u size pac).2.map (PacketNode.relabel f)) := by
    intro u size pac
    unfold Bandwidth.judge
    show (if bandwidth.handles pac then _ else _) = _
    split
    · split <;> rfl
    · rfl
  have queued : (bandwidth.relabel f).enqueue (main.map (PacketNode.relabel f)) =
      ((bandwidth.enqueue main).1, (bandwidth.enqueue main).2.1.relabel f,
        (bandwidth.enqueue main).2.2) :=
    takeIn_relabel f judged () { main, buf := bandwidth.buf }
  have spent : ∀ (tokens : ℚ) (pac : PacketNode β),
      Bandwidth.spend A tokens (pac.relabel f) = Bandwidth.spend A tokens pac := fun _ _ => rfl
  have drained : ∀ (full : Bandwidth β) (q : Queues β), (full.relabel f).drain A (q.relabel f) =
      ((full.drain A q).1, (full.drain A q).2.1.relabel f,
        (full.drain A q).2.2.map (PacketNode.relabel f)) := by
    intro full q
    unfold Bandwidth.drain
    show (if full.bandwidthLimit.val > 0 then _ else _) = _
    split
    · exact releaseOldest_relabel f spent full.tokenBucket q
    · rfl
  unfold bandwidthProcess
  simp only [filled, queued, drained]
  rfl

/-! ## The three modules that rewrite -/

section Rewrite

variable (h : PacketHelpers)

theorem tamperProcessOn_relabel (env : ProcEnv) (main : List (PacketNode β)) (tamper : Tamper) :
    tamperProcessOn h env (main.map (PacketNode.relabel f)) tamper =
      (tamperProcessOn h env main tamper).relabel f id := by
  have rewritten : ∀ (s : Draws × Nat × Nat) (pac : PacketNode β),
      tamper.rewriteOn h s (pac.relabel f) =
        ((tamper.rewriteOn h s pac).1, (tamper.rewriteOn h s pac).2.relabel f) := by
    rintro ⟨d, patIx, affected⟩ pac
    have handled : tamper.handles (pac.relabel f) = tamper.handles pac := rfl
    have packet : (pac.relabel f).packet = pac.packet := rfl
    simp only [Tamper.rewriteOn, handled, packet]
    split
    · split
      · split <;> rfl
      · rfl
    · rfl
  unfold tamperProcessOn
  simp only [rewriteEach_map_map (PacketNode.relabel f) rewritten]
  rfl

theorem corruptProcessOn_relabel (env : ProcEnv) (main : List (PacketNode β))
    (corrupt : Corrupt) :
    corruptProcessOn h env (main.map (PacketNode.relabel f)) corrupt =
      (corruptProcessOn h env main corrupt).relabel f id := by
  have rewritten : ∀ (s : Draws × Nat × Nat) (pac : PacketNode β),
      corrupt.rewriteOn h env.libm s (pac.relabel f) =
        ((corrupt.rewriteOn h env.libm s pac).1,
          (corrupt.rewriteOn h env.libm s pac).2.relabel f) := by
    rintro ⟨d, bits, affected⟩ pac
    have handled : corrupt.handles (pac.relabel f) = corrupt.handles pac := rfl
    have packet : (pac.relabel f).packet = pac.packet := rfl
    simp only [Corrupt.rewriteOn, handled, packet]
    split
    · split
      · split
        · rfl
        · split <;> rfl
      · rfl
    · rfl
  unfold corruptProcessOn
  simp only [rewriteEach_map_map (PacketNode.relabel f) rewritten]
  rfl

theorem resetProcessOn_relabel (env : ProcEnv) (main : List (PacketNode β)) (reset : Reset) :
    resetProcessOn h env (main.map (PacketNode.relabel f)) reset =
      (resetProcessOn h env main reset).relabel f id := by
  have rewritten : ∀ (s : Draws × Int × Nat) (pac : PacketNode β),
      reset.rewriteOn h s (pac.relabel f) =
        ((reset.rewriteOn h s pac).1, (reset.rewriteOn h s pac).2.relabel f) := by
    rintro ⟨d, setNextCount, affected⟩ pac
    have handled : reset.handles (pac.relabel f) = reset.handles pac := rfl
    have packet : (pac.relabel f).packet = pac.packet := rfl
    have length : (pac.relabel f).packetLen = pac.packetLen := rfl
    simp only [Reset.rewriteOn, handled, packet, length]
    split
    · split
      · split <;> rfl
      · rfl
    · rfl
  unfold resetProcessOn
  simp only [rewriteEach_map_map (PacketNode.relabel f) rewritten]
  rfl

end Rewrite

/-! ## The calls of a module table entry -/

theorem startUp_relabel (tick : UInt32) (mods : Statics β) (m : ModuleId) :
    startUp tick (mods.relabel f) m = (startUp tick mods m).relabel f := by
  have buffer : ∀ buf : Buffer β, (buf.relabel f).startUp = buf.startUp.relabel f := by
    intro buf
    unfold Buffer.startUp
    show (if buf.linked then _ else _) = _
    split <;> rfl
  cases m with
  | lag => simp only [startUp, Statics.relabel, lagStartUp, Lag.relabel, buffer]
  | jitter => simp only [startUp, Statics.relabel, jitterStartUp, Jitter.relabel, buffer]
  | throttle => simp only [startUp, Statics.relabel, throttleStartUp, Throttle.relabel, buffer]
  | ood => simp only [startUp, Statics.relabel, oodStartUp, Ood.relabel, buffer]
  | bandwidth =>
      simp only [startUp, Statics.relabel, bandwidthStartUp, Bandwidth.relabel, buffer]
      rfl
  | _ => rfl

theorem closeDown_relabel (main : List (PacketNode β)) (mods : Statics β) (m : ModuleId) :
    closeDown (main.map (PacketNode.relabel f)) (mods.relabel f) m =
      (closeDown main mods m).relabel f (Statics.relabel f) := by
  have flushed : ∀ buf : Buffer β,
      flushBehind { main := main.map (PacketNode.relabel f), buf := buf.relabel f } =
        (flushBehind { main, buf }).relabel f :=
    fun buf => flushBehind_relabel f { main, buf }
  cases m with
  | lag =>
      simp only [closeDown, lagCloseDown, Statics.relabel, Lag.relabel, flushed]
      rfl
  | jitter =>
      simp only [closeDown, jitterCloseDown, Statics.relabel, Jitter.relabel, flushed]
      rfl
  | throttle =>
      simp only [closeDown, throttleCloseDown, Statics.relabel, Throttle.relabel, flushed]
      rfl
  | ood =>
      simp only [closeDown, oodCloseDown, Statics.relabel, Ood.relabel, flushed]
      rfl
  | bandwidth =>
      simp only [closeDown, bandwidthCloseDown, Statics.relabel, Bandwidth.relabel, flushed]
      rfl
  | _ => rfl

theorem setParam_relabel (enabled : ModuleId → Bool) (mods : Statics β) (w : ParamWrite) :
    setParam enabled (mods.relabel f) w = (setParam enabled mods w).relabel f := by
  cases w with
  | lag p | jitter p | throttle p | ood p | bandwidth p => cases p <;> rfl
  | _ => rfl

/-- **A call decides the same whatever the blobs are.** -/
theorem processOn_relabel [CaptureBackend β] [CaptureBackend γ] [Follows f] (h : PacketHelpers)
    (env : ProcEnv) (fresh : Nat) (main : List (PacketNode β)) (mods : Statics β) (m : ModuleId) :
    processOn h env fresh (main.map (PacketNode.relabel f)) (mods.relabel f) m =
      (processOn h env fresh main mods m).relabel f (Statics.relabel f) := by
  cases m with
  | lag =>
      simp only [processOn, process, Statics.relabel, lagProcess_relabel]
      rfl
  | jitter =>
      simp only [processOn, process, Statics.relabel, jitterProcess_relabel]
      rfl
  | drop =>
      simp only [processOn, process, Statics.relabel, dropProcess_relabel]
      rfl
  | burstloss =>
      simp only [processOn, process, Statics.relabel, burstlossProcess_relabel]
      rfl
  | blackout =>
      simp only [processOn, process, Statics.relabel, blackoutProcess_relabel]
      rfl
  | throttle =>
      simp only [processOn, process, Statics.relabel, throttleProcess_relabel]
      rfl
  | dup =>
      simp only [processOn, process, Statics.relabel, dupProcess_relabel]
      rfl
  | ood =>
      simp only [processOn, process, Statics.relabel, oodProcess_relabel]
      rfl
  | tamper =>
      simp only [processOn, Statics.relabel, tamperProcessOn_relabel]
      rfl
  | corrupt =>
      simp only [processOn, Statics.relabel, corruptProcessOn_relabel]
      rfl
  | reset =>
      simp only [processOn, Statics.relabel, resetProcessOn_relabel]
      rfl
  | bandwidth =>
      simp only [processOn, process, Statics.relabel, bandwidthProcess_relabel]
      rfl

end Clumsy.Modules
