/-
# Modules.Helpers -- the modules over either platform's packet helpers

Tamper, corrupt and reset reach into a packet through four functions of `common.h` only,
which `packetutil_linux.cpp` and `packetutil_win.cpp` implement.  `PacketHelpers` is what the
modules rely on of an implementation; with the one of `packetutil_linux.cpp` (`linux`) the
modules here are those of `Modules.Rewrite` (`processOn_linux`).

What a call keeps does not depend on the helpers: `processOn_tags` and its neighbours.
-/
import Clumsy.Modules.Table

namespace Clumsy.Modules

open Clumsy.Theory
open Clumsy.Packet

set_option autoImplicit false

/-- The four functions, which write in place: a length stays, and a payload lies inside. -/
structure PacketHelpers where
  packetGetPayload      : Bytes → Option (Nat × Nat)
  packetRecalcChecksums : Bytes → Bytes
  packetSetTcpRst       : Bytes → Option Bytes
  packetMinTcpSize      : Nat
  payload_inside        : ∀ {p : Bytes} {data dataLen : Nat},
    packetGetPayload p = some (data, dataLen) → data + dataLen ≤ p.length
  recalc_length         : ∀ p : Bytes, (packetRecalcChecksums p).length = p.length
  setTcpRst_length      : ∀ {p p' : Bytes}, packetSetTcpRst p = some p' → p'.length = p.length

/-- `packetutil_linux.cpp`. -/
def PacketHelpers.linux : PacketHelpers where
  packetGetPayload := Packet.packetGetPayload
  packetRecalcChecksums := Packet.packetRecalcChecksums
  packetSetTcpRst := Packet.packetSetTcpRst
  packetMinTcpSize := Packet.packetMinTcpSize
  payload_inside found := (packetGetPayload_inside found).2
  recalc_length := packetRecalcChecksums_length
  setTcpRst_length := packetSetTcpRst_length

variable {β : Type} (h : PacketHelpers)

/-! ## The three modules that rewrite -/

/-- The body of `tamperProcess`'s loop. -/
def Tamper.rewriteOn (tamper : Tamper) (s : Draws × Nat × Nat) (pac : PacketNode β) :
    (Draws × Nat × Nat) × PacketNode β :=
  let (d, patIx, affected) := s
  if tamper.handles pac then
    let coin := calcChance tamper.chance.val d
    if coin.1 then
      match h.packetGetPayload pac.packet with
      | none => ((coin.2, patIx, affected), pac)
      | some (data, dataLen) =>
          let out := tamper.overlay (coin.2, patIx) data dataLen pac.packet
          let packet := if tamper.doChecksum then h.packetRecalcChecksums out.2.2 else out.2.2
          ((out.1, out.2.1, affected + 1), withPacket pac packet)
    else ((coin.2, patIx, affected), pac)
  else (s, pac)

def tamperProcessOn (env : ProcEnv) (main : List (PacketNode β)) (tamper : Tamper) :
    Outcome Tamper β :=
  let walked := rewriteEach (tamper.rewriteOn h) (env.draws, tamper.patIx, 0) main
  { state := { tamper with
      patIx := walked.1.2.1
      affectedCount := tamper.affectedCount + walked.1.2.2 }
    main := walked.2
    triggered := decide (walked.1.2.2 > 0) }

/-- The body of `corruptProcess`'s loop. -/
def Corrupt.rewriteOn (corrupt : Corrupt) (libm : Libm) (s : Draws × Nat × Nat)
    (pac : PacketNode β) : (Draws × Nat × Nat) × PacketNode β :=
  let (d, bits, affected) := s
  if corrupt.handles pac then
    let coin := calcChance corrupt.corruptChance.val d
    if coin.1 then
      match h.packetGetPayload pac.packet with
      | none => ((coin.2, bits, affected), pac)
      | some (data, dataLen) =>
          let out := flipBits libm data dataLen corrupt.corruptBer.val coin.2 pac.packet
          if out.1 > 0 then
            let packet := if corrupt.corruptChecksum then h.packetRecalcChecksums out.2.2
              else out.2.2
            ((out.2.1, bits + out.1, affected + 1), withPacket pac packet)
          else ((out.2.1, bits, affected), pac)
    else ((coin.2, bits, affected), pac)
  else (s, pac)

def corruptProcessOn (env : ProcEnv) (main : List (PacketNode β)) (corrupt : Corrupt) :
    Outcome Corrupt β :=
  let walked := rewriteEach (corrupt.rewriteOn h env.libm) (env.draws, 0, 0) main
  { state := { corrupt with
      corruptBitsFlipped := corrupt.corruptBitsFlipped + walked.1.2.1
      affectedCount := corrupt.affectedCount + walked.1.2.2 }
    main := walked.2
    triggered := decide (walked.1.2.2 > 0) }

/-- The body of `resetProcess`'s loop. -/
def Reset.rewriteOn (reset : Reset) (s : Draws × Int × Nat) (pac : PacketNode β) :
    (Draws × Int × Nat) × PacketNode β :=
  let (d, setNextCount, affected) := s
  if reset.handles pac && decide (pac.packetLen ≥ h.packetMinTcpSize) then
    let chosen := reset.chosen d setNextCount
    if chosen.1 then
      match h.packetSetTcpRst pac.packet with
      | none => ((chosen.2, setNextCount, affected), pac)
      | some packet =>
          ((chosen.2, if setNextCount > 0 then i2s (setNextCount - 1) else setNextCount,
              affected + 1),
            withPacket pac packet)
    else ((chosen.2, setNextCount, affected), pac)
  else (s, pac)

def resetProcessOn (env : ProcEnv) (main : List (PacketNode β)) (reset : Reset) :
    Outcome Reset β :=
  let walked := rewriteEach (reset.rewriteOn h) (env.draws, reset.setNextCount, 0) main
  { state := { reset with
      setNextCount := walked.1.2.1
      affectedCount := reset.affectedCount + walked.1.2.2 }
    main := walked.2
    triggered := decide (walked.1.2.2 > 0) }

/-- `module->process(head, tail)`. -/
def processOn [CaptureBackend β] (env : ProcEnv) (fresh : Nat) (main : List (PacketNode β))
    (mods : Statics β) : ModuleId → Outcome (Statics β) β
  | .tamper => (tamperProcessOn h env main mods.tamper).map fun tamper => { mods with tamper }
  | .corrupt => (corruptProcessOn h env main mods.corrupt).map fun corrupt => { mods with corrupt }
  | .reset => (resetProcessOn h env main mods.reset).map fun reset => { mods with reset }
  | m => process env fresh main mods m

theorem processOn_linux [CaptureBackend β] (env : ProcEnv) (fresh : Nat)
    (main : List (PacketNode β)) (mods : Statics β) (m : ModuleId) :
    processOn .linux env fresh main mods m = process env fresh main mods m := by
  cases m <;> rfl

/-! ## What a call keeps -/

theorem tamper_rewriteOn_tag (tamper : Tamper) (s : Draws × Nat × Nat) (pac : PacketNode β) :
    (tamper.rewriteOn h s pac).2.tag = pac.tag := by
  simp only [Tamper.rewriteOn]
  split
  · split
    · split
      · rfl
      · apply withPacket_tag
        split
        · rw [h.recalc_length, tamper.overlay_length, PacketNode.packetLen]
        · rw [tamper.overlay_length, PacketNode.packetLen]
    · rfl
  · rfl

theorem corrupt_rewriteOn_tag (corrupt : Corrupt) (libm : Libm) (s : Draws × Nat × Nat)
    (pac : PacketNode β) : (corrupt.rewriteOn h libm s pac).2.tag = pac.tag := by
  simp only [Corrupt.rewriteOn]
  split
  · split
    · split
      · rfl
      · split
        · apply withPacket_tag
          split
          · rw [h.recalc_length, flipBits_length, PacketNode.packetLen]
          · rw [flipBits_length, PacketNode.packetLen]
        · rfl
    · rfl
  · rfl

theorem reset_rewriteOn_tag (reset : Reset) (s : Draws × Int × Nat) (pac : PacketNode β) :
    (reset.rewriteOn h s pac).2.tag = pac.tag := by
  simp only [Reset.rewriteOn]
  split
  · split
    · split
      · rfl
      · rename_i packet set
        exact withPacket_tag (h.setTcpRst_length set)
    · rfl
  · rfl

/-- A module that does not rewrite is the same over any helpers. -/
theorem processOn_plain [CaptureBackend β] (env : ProcEnv) (fresh : Nat)
    (main : List (PacketNode β)) (mods : Statics β) {m : ModuleId} (plain : m.rewrites = false) :
    processOn h env fresh main mods m = process env fresh main mods m := by
  cases m with
  | tamper | corrupt | reset => exact absurd plain (by decide)
  | _ => rfl

/-- A module that rewrites keeps everything but the bytes, whatever the helpers. -/
theorem processOn_rewrites [CaptureBackend β] (env : ProcEnv) (fresh : Nat)
    (main : List (PacketNode β)) (mods : Statics β) {m : ModuleId} (rewrites : m.rewrites = true) :
    (processOn h env fresh main mods m).main.map PacketNode.tag = main.map PacketNode.tag ∧
      (∀ m', (processOn h env fresh main mods m).state.buffer m' = mods.buffer m') ∧
      (processOn h env fresh main mods m).freed = [] ∧
      (processOn h env fresh main mods m).clones = [] := by
  cases m with
  | tamper =>
      exact ⟨rewriteEach_map _ _ (tamper_rewriteOn_tag h mods.tamper) main _,
        fun m' => by cases m' <;> rfl, rfl, rfl⟩
  | corrupt =>
      exact ⟨rewriteEach_map _ _ (corrupt_rewriteOn_tag h mods.corrupt env.libm) main _,
        fun m' => by cases m' <;> rfl, rfl, rfl⟩
  | reset =>
      exact ⟨rewriteEach_map _ _ (reset_rewriteOn_tag h mods.reset) main _,
        fun m' => by cases m' <;> rfl, rfl, rfl⟩
  | _ => exact absurd rewrites (by decide)

section Keeps

variable [CaptureBackend β] (env : ProcEnv) (fresh : Nat) (main : List (PacketNode β))

/-- **Conservation of a call**, over the main queue and all buffers. -/
theorem processOn_tags (mods : Statics β) (m : ModuleId) :
    (((processOn h env fresh main mods m).main ++ (processOn h env fresh main mods m).state.held ++
        (processOn h env fresh main mods m).freed).map PacketNode.tag).Perm
      ((main ++ mods.held ++ (processOn h env fresh main mods m).clones).map PacketNode.tag) := by
  cases rewrites : m.rewrites with
  | false =>
      rw [processOn_plain h env fresh main mods rewrites]
      exact process_tags env fresh main mods m
  | true =>
      obtain ⟨tags, buffers, freed, clones⟩ := processOn_rewrites h env fresh main mods rewrites
      have held : (processOn h env fresh main mods m).state.held = mods.held := by
        unfold Statics.held
        simp only [buffers]
      rw [freed, clones, held, List.append_nil, List.append_nil, List.map_append, List.map_append,
        tags]

theorem processOn_frame (mods : Statics β) (m m' : ModuleId) (other : m' ≠ m) :
    (processOn h env fresh main mods m).state.buffer m' = mods.buffer m' := by
  cases rewrites : m.rewrites with
  | false =>
      rw [processOn_plain h env fresh main mods rewrites]
      exact process_frame env fresh main mods m m' other
  | true => exact (processOn_rewrites h env fresh main mods rewrites).2.1 m'

theorem processOn_linked (mods : Statics β) (m : ModuleId) :
    ((processOn h env fresh main mods m).state.buffer m).linked = (mods.buffer m).linked := by
  cases rewrites : m.rewrites with
  | false =>
      rw [processOn_plain h env fresh main mods rewrites]
      exact process_linked env fresh main mods m
  | true => rw [(processOn_rewrites h env fresh main mods rewrites).2.1 m]

theorem processOn_sound {mods : Statics β} (sound : mods.Sound) {m : ModuleId}
    (linked : (mods.buffer m).linked = true) :
    (processOn h env fresh main mods m).state.Sound := by
  cases rewrites : m.rewrites with
  | false =>
      rw [processOn_plain h env fresh main mods rewrites]
      exact process_sound env fresh main sound linked
  | true => exact sound.congr (processOn_rewrites h env fresh main mods rewrites).2.1

theorem processOn_freed (mods : Statics β) (m : ModuleId)
    (freed : (processOn h env fresh main mods m).freed ≠ []) : m.drops = true := by
  cases rewrites : m.rewrites with
  | false =>
      rw [processOn_plain h env fresh main mods rewrites] at freed
      exact (process_freed env fresh main mods m freed).1
  | true => exact absurd (processOn_rewrites h env fresh main mods rewrites).2.2.1 freed

theorem processOn_clones (mods : Statics β) (m : ModuleId) :
    (processOn h env fresh main mods m).clones.map PacketNode.addr =
        List.range' fresh (processOn h env fresh main mods m).clones.length ∧
      ∀ copy ∈ (processOn h env fresh main mods m).clones, ∃ src ∈ main, IsCloneOf src copy := by
  cases rewrites : m.rewrites with
  | false =>
      rw [processOn_plain h env fresh main mods rewrites]
      exact process_clones env fresh main mods m
  | true =>
      rw [(processOn_rewrites h env fresh main mods rewrites).2.2.2]
      simp

end Keeps

end Clumsy.Modules
