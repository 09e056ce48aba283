/-
# Capture.Direction -- a direction that is switched off is left alone

With one direction of a module switched off, a call of its `process` neither
takes, frees, clones nor rewrites a packet of that direction, and keeps their
order (`process_leaves_direction`).  Packets of that direction the module has been
holding since before the switch are let go as any other.
-/
import Clumsy.Capture.Session

namespace Clumsy.Capture

open Clumsy.Packet
open Clumsy.Modules

set_option autoImplicit false

/-- What a call leaves of one direction: the main-list packets of that direction
as they were, in one piece, with nothing around them but packets that came out of
the module's own buffer. -/
structure LeavesDirection {β : Type} (out : Bool) (main held : List (PacketNode β))
    (after : Outcome (Statics β) β) (heldAfter : List (PacketNode β)) : Prop where
  around : ∃ before behind,
    after.main.filter (PacketNode.travels out) =
        before ++ main.filter (PacketNode.travels out) ++ behind ∧
      (before ++ behind ++ heldAfter.filter (PacketNode.travels out) ++
          after.freed.filter (PacketNode.travels out)).Perm
        (held.filter (PacketNode.travels out))
  clones : after.clones.filter (PacketNode.travels out) = []
  /-- A buffer without packets of that direction changes nothing. -/
  same : held.filter (PacketNode.travels out) = [] →
    after.main.filter (PacketNode.travels out) = main.filter (PacketNode.travels out) ∧
      heldAfter.filter (PacketNode.travels out) = [] ∧
        after.freed.filter (PacketNode.travels out) = []

/-- **A direction that is switched off is left alone**, by each module, on every
main list and buffer, under every parameter setting and random outcome. -/
theorem process_leaves_direction {β : Type} [CaptureBackend β] (env : ProcEnv) (fresh : Nat)
    (main : List (PacketNode β)) (mods : Statics β) (m : ModuleId) (out : Bool)
    (off : mods.direction m out = false) :
    LeavesDirection out main (mods.buffer m).nodes (process env fresh main mods m)
      ((process env fresh main mods m).state.buffer m).nodes := by
  obtain ⟨⟨before, behind, queue, moved⟩, clones⟩ :=
    process_isolates env fresh main mods m out (Statics.handles_off off)
  simp only [List.filter_nil, List.append_nil] at queue moved
  refine ⟨⟨before, behind, queue, moved⟩, clones, fun empty => ?_⟩
  rw [empty] at moved
  have nothing := moved.eq_nil
  simp only [List.append_eq_nil_iff] at nothing
  obtain ⟨⟨⟨rfl, rfl⟩, held⟩, freed⟩ := nothing
  refine ⟨?_, held, freed⟩
  rw [queue, List.nil_append, List.append_nil]

/-- A packet lag has been holding when its direction is switched off. -/
def heldPacket : LinuxNode :=
  createNode 0 [0x45] { outbound := true, ipVersion := 4, loopback := false, impostor := false,
                        ifIdx := 2, subIfIdx := 0 }
    { packetId := 1, verdictIssued := false, synthetic := false }

/-- Lag with its outbound direction off and an outbound packet in its buffer. -/
def lagOutboundOff : Statics LinuxPacketMeta :=
  { (Statics.initial : Statics LinuxPacketMeta) with
    lag := { (Lag.initial : Lag LinuxPacketMeta) with
      lagOutbound := false
      buf := { linked := true, nodes := [heldPacket], bufSize := 1 } } }

/-- A minute after `heldPacket` was captured. -/
def laterEnv : ProcEnv := { Linux.stillEnv.step.proc .lag with ticks := fun _ => 60000 }

/-- Lag releases `heldPacket` in front of the main list, although its direction
is off. -/
theorem lag_releases_switched_off :
    ¬∀ (env : ProcEnv) (fresh : Nat) (main : List LinuxNode) (mods : Statics LinuxPacketMeta)
      (m : ModuleId) (out : Bool), mods.direction m out = false →
        (process env fresh main mods m).main.filter (PacketNode.travels out) =
          main.filter (PacketNode.travels out) := by
  intro claim
  have same := claim laterEnv 1 [] lagOutboundOff .lag true rfl
  exact absurd same (by decide)

/-- A packet of either direction on the main list. -/
def bothWays : List LinuxNode :=
  [{ heldPacket with addr := 1 },
    { heldPacket with addr := 2, pktMeta := { heldPacket.pktMeta with outbound := false } }]

/-- Lag takes the inbound packet in, and lets the one it held go in front of the outbound one. -/
theorem process_leaves_direction_lag :
    ((process laterEnv 3 bothWays lagOutboundOff .lag).main.map PacketNode.addr = [0, 1]) ∧
      LeavesDirection true bothWays (lagOutboundOff.buffer .lag).nodes
        (process laterEnv 3 bothWays lagOutboundOff .lag)
        ((process laterEnv 3 bothWays lagOutboundOff .lag).state.buffer .lag).nodes :=
  ⟨by decide, process_leaves_direction laterEnv 3 bothWays lagOutboundOff .lag true rfl⟩

end Clumsy.Capture
