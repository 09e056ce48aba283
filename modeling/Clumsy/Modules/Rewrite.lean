/-
# Modules.Rewrite -- tamper.cpp, corrupt.cpp, reset.cpp

Three modules that change packets where they stand: overwrite a stretch of the
payload, flip single payload bits, set the TCP RST flag.  They are the only ones
that write to packet bytes.  Nothing else about a packet changes, its length
included (`tamperProcess_tags` and its siblings), and the order of the queue
stays.
-/
import Clumsy.Modules.Basic
import Clumsy.Packet.Util

namespace Clumsy.Modules

open Clumsy.Theory
open Clumsy.Packet

set_option autoImplicit false

variable {β : Type}

/-- A packet with other bytes. -/
def withPacket (pac : PacketNode β) (packet : Bytes) : PacketNode β := { pac with packet }

/-- New bytes of the old length leave a packet's tag alone. -/
theorem withPacket_tag {pac : PacketNode β} {packet : Bytes}
    (same : packet.length = pac.packetLen) : (withPacket pac packet).tag = pac.tag := by
  simp only [PacketNode.tag, withPacket, PacketNode.packetLen] at same ⊢
  rw [same]

theorem travels_of_tag {a b : PacketNode β} (same : a.tag = b.tag) (out : Bool) :
    a.travels out = b.travels out := by
  simp only [PacketNode.tag, Prod.mk.injEq] at same
  obtain ⟨-, -, pktMeta, -⟩ := same
  simp only [PacketNode.travels, pktMeta]

/-! ## tamper.cpp -/

def Tamper.POS_FRONT : Int := 0
def Tamper.POS_CENTER : Int := 1
def Tamper.POS_BACK : Int := 2
def Tamper.POS_RANDOM : Int := 3

/-- The statics of `tamper.cpp`. -/
structure Tamper where
  tamperInbound  : Bool
  tamperOutbound : Bool
  chance         : Chance
  /-- Recompute the checksum after tampering. -/
  doChecksum     : Bool
  tamperPos      : Clamped 0 3
  patIx          : Nat
  affectedCount  : Nat

namespace Tamper

def initial : Tamper where
  tamperInbound := true
  tamperOutbound := true
  chance := .literal 1000 (.refl true)
  doChecksum := true
  tamperPos := .literal POS_CENTER (.refl true)
  patIx := 0
  affectedCount := 0

def handles (tamper : Tamper) (pac : PacketNode β) : Bool :=
  checkDirection pac.pktMeta.outbound tamper.tamperInbound tamper.tamperOutbound

def patterns : List UInt8 := [0x64, 0x13, 0x88, 0x40, 0x1F, 0xA0, 0xAA, 0x55]

end Tamper

def tamperStartUp (tamper : Tamper) : Tamper := { tamper with patIx := 0 }

/-- `tamper_buf`: overlay the pattern on `len` bytes from `offset`. -/
def tamperBuf : Nat → Nat → Nat → Bytes → Nat × Bytes
  | 0, _, patIx, p => (patIx, p)
  | len + 1, offset, patIx, p =>
      tamperBuf len (offset + 1) (patIx + 1)
        (p.set offset (p.byteAt offset ^^^ Tamper.patterns.getD (patIx % 8) 0))

namespace Tamper

/-- Which quarter of a payload longer than four bytes is hit. -/
def offset (tamper : Tamper) (dataLen : Nat) (d : Draws) : Nat × Draws :=
  let lenD4 := dataLen / 4
  if tamper.tamperPos.val = POS_FRONT then (0, d)
  else if tamper.tamperPos.val = POS_BACK then (dataLen - lenD4, d)
  else if tamper.tamperPos.val = POS_RANDOM then (d.rand 0 % (dataLen - lenD4 + 1), d.afterRand)
  else (dataLen / 2 - lenD4 / 2 + 1, d)

/-- The payload at `data` tampered with, before the checksums. -/
def overlay (tamper : Tamper) (s : Draws × Nat) (data dataLen : Nat) (p : Bytes) :
    Draws × Nat × Bytes :=
  if dataLen ≤ 4 then (s.1, tamperBuf dataLen data s.2 p)
  else
    let offset := tamper.offset dataLen s.1
    (offset.2, tamperBuf (dataLen / 4) (data + offset.1) s.2 p)

/-- The body of the loop, over the draws, `patIx` and the packets affected. -/
def rewrite (tamper : Tamper) (s : Draws × Nat × Nat) (pac : PacketNode β) :
    (Draws × Nat × Nat) × PacketNode β :=
  let (d, patIx, affected) := s
  if tamper.handles pac then
    let coin := calcChance tamper.chance.val d
    if coin.1 then
      match packetGetPayload pac.packet with
      | none => ((coin.2, patIx, affected), pac)
      | some (data, dataLen) =>
          let out := tamper.overlay (coin.2, patIx) data dataLen pac.packet
          let packet := if tamper.doChecksum then packetRecalcChecksums out.2.2 else out.2.2
          ((out.1, out.2.1, affected + 1), withPacket pac packet)
    else ((coin.2, patIx, affected), pac)
  else (s, pac)

end Tamper

def tamperProcess (env : ProcEnv) (main : List (PacketNode β)) (tamper : Tamper) :
    Outcome Tamper β :=
  let walked := rewriteEach tamper.rewrite (env.draws, tamper.patIx, 0) main
  { state := { tamper with
      patIx := walked.1.2.1
      affectedCount := tamper.affectedCount + walked.1.2.2 }
    main := walked.2
    triggered := decide (walked.1.2.2 > 0) }

/-- A control write to one of tamper's parameters, after its value was parsed. -/
inductive TamperParam where
  | chance (v : Int)
  | position (v : Int)
  | checksum (on : Bool)
  | inbound (on : Bool)
  | outbound (on : Bool)
  deriving Repr

def tamperSetParam (tamper : Tamper) : TamperParam → Tamper
  | .chance v => { tamper with chance := .set v }
  | .position v => { tamper with tamperPos := .ofShort (.refl true) v }
  | .checksum on => { tamper with doChecksum := on }
  | .inbound on => { tamper with tamperInbound := on }
  | .outbound on => { tamper with tamperOutbound := on }

@[simp] theorem tamperBuf_length (len offset patIx : Nat) (p : Bytes) :
    (tamperBuf len offset patIx p).2.length = p.length := by
  induction len generalizing offset patIx p with
  | zero => rfl
  | succ len ih => rw [tamperBuf, ih, List.length_set]

namespace Tamper

theorem overlay_length (tamper : Tamper) (s : Draws × Nat) (data dataLen : Nat) (p : Bytes) :
    (tamper.overlay s data dataLen p).2.2.length = p.length := by
  unfold overlay
  split
  · rw [tamperBuf_length]
  · rw [tamperBuf_length]

theorem rewrite_tag (tamper : Tamper) (s : Draws × Nat × Nat) (pac : PacketNode β) :
    (tamper.rewrite s pac).2.tag = pac.tag := by
  simp only [rewrite]
  split
  · split
    · split
      · rfl
      · apply withPacket_tag
        split
        · rw [packetRecalcChecksums_length, overlay_length, PacketNode.packetLen]
        · rw [overlay_length, PacketNode.packetLen]
    · rfl
  · rfl

theorem rewrite_ignores (tamper : Tamper) (s : Draws × Nat × Nat) {pac : PacketNode β}
    (unhandled : tamper.handles pac = false) : (tamper.rewrite s pac).2 = pac := by
  simp [rewrite, unhandled]

end Tamper

/-- **Only bytes change, and no length.** -/
theorem tamperProcess_tags (env : ProcEnv) (main : List (PacketNode β)) (tamper : Tamper) :
    (tamperProcess env main tamper).main.map PacketNode.tag = main.map PacketNode.tag :=
  rewriteEach_map tamper.rewrite _ tamper.rewrite_tag main _

theorem tamperProcess_filter (env : ProcEnv) (main : List (PacketNode β)) (tamper : Tamper)
    (out : Bool)
    (off : ∀ pac : PacketNode β, PacketNode.travels out pac = true → tamper.handles pac = false) :
    (tamperProcess env main tamper).main.filter (PacketNode.travels out) =
      main.filter (PacketNode.travels out) :=
  rewriteEach_filter tamper.rewrite _
    (fun s pac travels => tamper.rewrite_ignores s (off pac travels))
    (fun s pac => travels_of_tag (tamper.rewrite_tag s pac) out) main _

/-! ## corrupt.cpp -/

/-- The statics of `corrupt.cpp`. -/
structure Corrupt where
  corruptInbound     : Bool
  corruptOutbound    : Bool
  corruptChance      : Chance
  corruptChecksum    : Bool
  /-- Bit error rate in parts per million. -/
  corruptBer         : Clamped 0 1000000
  corruptBitsFlipped : Nat
  affectedCount      : Nat

namespace Corrupt

def initial : Corrupt where
  corruptInbound := true
  corruptOutbound := true
  corruptChance := .literal 1000 (.refl true)
  corruptChecksum := true
  corruptBer := .literal 100 (.refl true)
  corruptBitsFlipped := 0
  affectedCount := 0

def handles (corrupt : Corrupt) (pac : PacketNode β) : Bool :=
  checkDirection pac.pktMeta.outbound corrupt.corruptInbound corrupt.corruptOutbound

end Corrupt

/-- Flip bit `bit` of the payload that starts at `data`. -/
def flipBit (data bit : Nat) (p : Bytes) : Bytes :=
  p.set (data + bit / 8) (p.byteAt (data + bit / 8) ^^^ (1 <<< UInt8.ofNat (bit % 8)))

/-- Turn over all bits of the `len` bytes from `data`. -/
def invertBytes (data : Nat) : Nat → Bytes → Bytes
  | 0, p => p
  | len + 1, p => invertBytes data len (p.set (data + len) (~~~(p.byteAt (data + len))))

/-- The loop of `flipBits`: skip a geometrically distributed gap, flip a bit, go
on behind it.  The position grows every round, so `totalBits` rounds suffice. -/
def flipLoop (libm : Libm) (p : ℚ) (data totalBits : Nat) :
    Nat → Nat → Nat → Draws → Bytes → Nat × Draws × Bytes
  | 0, _, flipped, d, packet => (flipped, d, packet)
  | fuel + 1, bit, flipped, d, packet =>
      let u := randUnit d
      let gap := libm.logRatio u.1 p
      if gap < 0 ∨ gap ≥ totalBits then (flipped, u.2, packet)
      else
        let bit := bit + gap.floor.toNat
        if bit ≥ totalBits then (flipped, u.2, packet)
        else flipLoop libm p data totalBits fuel (bit + 1) (flipped + 1) u.2
          (flipBit data bit packet)

/-- Flip payload bits with probability `ppm` in a million each; returns how many
were flipped. -/
def flipBits (libm : Libm) (data len : Nat) (ppm : Int) (d : Draws) (packet : Bytes) :
    Nat × Draws × Bytes :=
  if len = 0 ∨ ppm ≤ 0 then (0, d, packet)
  else
    let p : ℚ := (ppm : ℚ) / 1000000
    if p ≥ 1 then (len * 8, d, invertBytes data len packet)
    -- one more round than there are bits: the last one only finds the end
    else flipLoop libm p data (len * 8) (len * 8 + 1) 0 0 d packet

namespace Corrupt

/-- The body of the loop, over the draws, the bits flipped and the packets
affected. -/
def rewrite (corrupt : Corrupt) (libm : Libm) (s : Draws × Nat × Nat) (pac : PacketNode β) :
    (Draws × Nat × Nat) × PacketNode β :=
  let (d, bits, affected) := s
  if corrupt.handles pac then
    let coin := calcChance corrupt.corruptChance.val d
    if coin.1 then
      match packetGetPayload pac.packet with
      | none => ((coin.2, bits, affected), pac)
      | some (data, dataLen) =>
          let out := flipBits libm data dataLen corrupt.corruptBer.val coin.2 pac.packet
          if out.1 > 0 then
            let packet := if corrupt.corruptChecksum then packetRecalcChecksums out.2.2
              else out.2.2
            ((out.2.1, bits + out.1, affected + 1), withPacket pac packet)
          else ((out.2.1, bits, affected), pac)
    else ((coin.2, bits, affected), pac)
  else (s, pac)

end Corrupt

def corruptProcess (env : ProcEnv) (main : List (PacketNode β)) (corrupt : Corrupt) :
    Outcome Corrupt β :=
  let walked := rewriteEach (corrupt.rewrite env.libm) (env.draws, 0, 0) main
  { state := { corrupt with
      corruptBitsFlipped := corrupt.corruptBitsFlipped + walked.1.2.1
      affectedCount := corrupt.affectedCount + walked.1.2.2 }
    main := walked.2
    triggered := decide (walked.1.2.2 > 0) }

/-- A control write to one of corrupt's parameters, after its value was parsed. -/
inductive CorruptParam where
  | chance (v : Int)
  | ber (v : Int)
  | checksum (on : Bool)
  | inbound (on : Bool)
  | outbound (on : Bool)
  deriving Repr

def corruptSetParam (corrupt : Corrupt) : CorruptParam → Corrupt
  | .chance v => { corrupt with corruptChance := .set v }
  | .ber v => { corrupt with corruptBer := .ofLong (.refl true) v }
  | .checksum on => { corrupt with corruptChecksum := on }
  | .inbound on => { corrupt with corruptInbound := on }
  | .outbound on => { corrupt with corruptOutbound := on }

@[simp] theorem flipBit_length (data bit : Nat) (p : Bytes) :
    (flipBit data bit p).length = p.length := by
  rw [flipBit, List.length_set]

@[simp] theorem invertBytes_length (data len : Nat) (p : Bytes) :
    (invertBytes data len p).length = p.length := by
  induction len generalizing p with
  | zero => rfl
  | succ len ih => rw [invertBytes, ih, List.length_set]

theorem flipLoop_length (libm : Libm) (p : ℚ) (data totalBits fuel bit flipped : Nat) (d : Draws)
    (packet : Bytes) :
    (flipLoop libm p data totalBits fuel bit flipped d packet).2.2.length = packet.length := by
  induction fuel generalizing bit flipped d packet with
  | zero => rfl
  | succ fuel ih =>
      simp only [flipLoop]
      split
      · rfl
      · split
        · rfl
        · rw [ih, flipBit_length]

theorem flipBits_length (libm : Libm) (data len : Nat) (ppm : Int) (d : Draws) (packet : Bytes) :
    (flipBits libm data len ppm d packet).2.2.length = packet.length := by
  simp only [flipBits]
  split
  · rfl
  · split
    · rw [invertBytes_length]
    · rw [flipLoop_length]

namespace Corrupt

theorem rewrite_tag (corrupt : Corrupt) (libm : Libm) (s : Draws × Nat × Nat)
    (pac : PacketNode β) : (corrupt.rewrite libm s pac).2.tag = pac.tag := by
  simp only [rewrite]
  split
  · split
    · split
      · rfl
      · split
        · apply withPacket_tag
          split
          · rw [packetRecalcChecksums_length, flipBits_length, PacketNode.packetLen]
          · rw [flipBits_length, PacketNode.packetLen]
        · rfl
    · rfl
  · rfl

theorem rewrite_ignores (corrupt : Corrupt) (libm : Libm) (s : Draws × Nat × Nat)
    {pac : PacketNode β} (unhandled : corrupt.handles pac = false) :
    (corrupt.rewrite libm s pac).2 = pac := by
  simp [rewrite, unhandled]

end Corrupt

theorem corruptProcess_tags (env : ProcEnv) (main : List (PacketNode β)) (corrupt : Corrupt) :
    (corruptProcess env main corrupt).main.map PacketNode.tag = main.map PacketNode.tag :=
  rewriteEach_map (corrupt.rewrite env.libm) _ (corrupt.rewrite_tag env.libm) main _

theorem corruptProcess_filter (env : ProcEnv) (main : List (PacketNode β)) (corrupt : Corrupt)
    (out : Bool)
    (off : ∀ pac : PacketNode β, PacketNode.travels out pac = true → corrupt.handles pac = false) :
    (corruptProcess env main corrupt).main.filter (PacketNode.travels out) =
      main.filter (PacketNode.travels out) :=
  rewriteEach_filter (corrupt.rewrite env.libm) _
    (fun s pac travels => corrupt.rewrite_ignores env.libm s (off pac travels))
    (fun s pac => travels_of_tag (corrupt.rewrite_tag env.libm s pac) out) main _

/-! ## reset.cpp -/

/-- The statics of `reset.cpp`.  `setNextCount` is a `short` that a control
write increments. -/
structure Reset where
  resetInbound  : Bool
  resetOutbound : Bool
  chance        : Chance
  setNextCount  : Int
  affectedCount : Nat

namespace Reset

def initial : Reset where
  resetInbound := true
  resetOutbound := true
  chance := .literal 0 (.refl true)
  setNextCount := 0
  affectedCount := 0

def handles (reset : Reset) (pac : PacketNode β) : Bool :=
  checkDirection pac.pktMeta.outbound reset.resetInbound reset.resetOutbound

/-- `setNextCount || calcChance(chance)`. -/
def chosen (reset : Reset) (d : Draws) (setNextCount : Int) : Bool × Draws :=
  if setNextCount ≠ 0 then (true, d) else calcChance reset.chance.val d

/-- The body of the loop, over the draws, `setNextCount` and the packets
affected. -/
def rewrite (reset : Reset) (s : Draws × Int × Nat) (pac : PacketNode β) :
    (Draws × Int × Nat) × PacketNode β :=
  let (d, setNextCount, affected) := s
  if reset.handles pac && decide (pac.packetLen ≥ packetMinTcpSize) then
    let chosen := reset.chosen d setNextCount
    if chosen.1 then
      match packetSetTcpRst pac.packet with
      | none => ((chosen.2, setNextCount, affected), pac)
      | some packet =>
          ((chosen.2, if setNextCount > 0 then i2s (setNextCount - 1) else setNextCount,
              affected + 1),
            withPacket pac packet)
    else ((chosen.2, setNextCount, affected), pac)
  else (s, pac)

end Reset

def resetStartUp (reset : Reset) : Reset := { reset with setNextCount := 0 }

def resetCloseDown (main : List (PacketNode β)) (reset : Reset) : Outcome Reset β :=
  { state := { reset with setNextCount := 0 }, main, triggered := false }

def resetProcess (env : ProcEnv) (main : List (PacketNode β)) (reset : Reset) : Outcome Reset β :=
  let walked := rewriteEach reset.rewrite (env.draws, reset.setNextCount, 0) main
  { state := { reset with
      setNextCount := walked.1.2.1
      affectedCount := reset.affectedCount + walked.1.2.2 }
    main := walked.2
    triggered := decide (walked.1.2.2 > 0) }

/-- A control write to one of reset's parameters, after its value was parsed. -/
inductive ResetParam where
  | chance (v : Int)
  | inbound (on : Bool)
  | outbound (on : Bool)
  | next (on : Bool)
  deriving Repr

/-- The "RST next packet" action counts only while the module is enabled. -/
def resetSetParam (resetEnabled : Bool) (reset : Reset) : ResetParam → Reset
  | .chance v => { reset with chance := .set v }
  | .inbound on => { reset with resetInbound := on }
  | .outbound on => { reset with resetOutbound := on }
  | .next on =>
      if on && resetEnabled then { reset with setNextCount := i2s (reset.setNextCount + 1) }
      else reset

namespace Reset

theorem rewrite_tag (reset : Reset) (s : Draws × Int × Nat) (pac : PacketNode β) :
    (reset.rewrite s pac).2.tag = pac.tag := by
  simp only [rewrite]
  split
  · split
    · split
      · rfl
      · rename_i packet set
        exact withPacket_tag (packetSetTcpRst_length set)
    · rfl
  · rfl

theorem rewrite_ignores (reset : Reset) (s : Draws × Int × Nat) {pac : PacketNode β}
    (unhandled : reset.handles pac = false) : (reset.rewrite s pac).2 = pac := by
  simp [rewrite, unhandled]

end Reset

theorem resetProcess_tags (env : ProcEnv) (main : List (PacketNode β)) (reset : Reset) :
    (resetProcess env main reset).main.map PacketNode.tag = main.map PacketNode.tag :=
  rewriteEach_map reset.rewrite _ reset.rewrite_tag main _

theorem resetProcess_filter (env : ProcEnv) (main : List (PacketNode β)) (reset : Reset)
    (out : Bool)
    (off : ∀ pac : PacketNode β, PacketNode.travels out pac = true → reset.handles pac = false) :
    (resetProcess env main reset).main.filter (PacketNode.travels out) =
      main.filter (PacketNode.travels out) :=
  rewriteEach_filter reset.rewrite _
    (fun s pac travels => reset.rewrite_ignores s (off pac travels))
    (fun s pac => travels_of_tag (reset.rewrite_tag s pac) out) main _

end Clumsy.Modules
