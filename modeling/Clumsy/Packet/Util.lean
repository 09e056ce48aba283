/-
# Packet.Util -- packetutil_linux.cpp: looking into a packet and patching it

`parse` finds the transport header and the payload of an IPv4 or IPv6 packet;
the three operations of the modules stand on it.  None of them changes a
packet's length (`packetRecalcChecksums_length`, `packetSetTcpRst_length`), and
a payload lies inside its packet (`packetGetPayload_inside`).

Header fields are read big-endian; the checksum accumulator is the source's
32-bit one.
-/
import Clumsy.Packet.Node

namespace Clumsy.Packet

set_option autoImplicit false

def IPV4_MIN_HDR : Nat := 20
def IPV6_HDR_LEN : Nat := 40
def TCP_MIN_HDR : Nat := 20
def UDP_HDR_LEN : Nat := 8

def PROTO_TCP : UInt8 := 6
def PROTO_UDP : UInt8 := 17

def TCP_FLAGS_OFFSET : Nat := 13
def TCP_FLAG_RST : UInt8 := 0x04

namespace Bytes

/-- `p[i]`. -/
def byteAt (p : Bytes) (i : Nat) : UInt8 := p.getD i 0

def read16be (p : Bytes) (i : Nat) : Nat := (p.byteAt i).toNat * 256 + (p.byteAt (i + 1)).toNat

def write16be (p : Bytes) (i : Nat) (v : UInt32) : Bytes :=
  (p.set i (v >>> (8 : UInt32)).toUInt8).set (i + 1) (v &&& (0xFF : UInt32)).toUInt8

@[simp] theorem write16be_length (p : Bytes) (i : Nat) (v : UInt32) :
    (p.write16be i v).length = p.length := by
  rw [write16be, List.length_set, List.length_set]

end Bytes

/-! ## Checksums -/

/-- One's complement sum of the `len` bytes from `start`; an odd trailing byte
counts as the high half of a word. -/
def sum16 (p : Bytes) (start : Nat) : Nat → UInt32 → UInt32
  | 0, acc => acc
  | 1, acc => acc + (p.byteAt start).toUInt32 <<< (8 : UInt32)
  | len + 2, acc => sum16 p (start + 2) len (acc + UInt32.ofNat (p.read16be start))

/-- The low and the high half of the accumulator, added up. -/
def carry (acc : UInt32) : UInt32 := (acc &&& (0xFFFF : UInt32)) + (acc >>> (16 : UInt32))

/-- At most `rounds` rounds of the carry loop. -/
def foldCarries : Nat → UInt32 → UInt32
  | 0, acc => acc
  | rounds + 1, acc =>
      if acc >>> (16 : UInt32) = 0 then acc else foldCarries rounds (carry acc)

/-- Two rounds are enough for any 32-bit sum (`foldCarries_done`). -/
def foldChecksum (acc : UInt32) : UInt32 := ~~~(foldCarries 2 acc) &&& (0xFFFF : UInt32)

theorem high_toNat (acc : UInt32) : (acc >>> (16 : UInt32)).toNat = acc.toNat / 65536 := by
  rw [UInt32.toNat_shiftRight]
  exact Nat.shiftRight_eq_div_pow acc.toNat 16

theorem carry_toNat (acc : UInt32) :
    (carry acc).toNat = acc.toNat % 65536 + acc.toNat / 65536 := by
  have small := acc.toNat_lt
  have low : (acc &&& (0xFFFF : UInt32)).toNat = acc.toNat % 65536 := by
    rw [UInt32.toNat_and]
    exact Nat.and_two_pow_sub_one_eq_mod acc.toNat 16
  rw [carry, UInt32.toNat_add, low, high_toNat]
  omega

theorem high_eq_zero_iff (acc : UInt32) :
    acc >>> (16 : UInt32) = 0 ↔ acc.toNat < 65536 := by
  rw [← UInt32.toNat_inj, high_toNat, UInt32.toNat_zero]
  omega

/-- The carry loop ends within two rounds, with nothing above the low half. -/
theorem foldCarries_done (acc : UInt32) : foldCarries 2 acc >>> (16 : UInt32) = 0 := by
  have small := acc.toNat_lt
  have once := carry_toNat acc
  have twice := carry_toNat (carry acc)
  simp only [foldCarries]
  split
  · assumption
  · split
    · assumption
    · rw [high_eq_zero_iff]
      omega

/-! ## Where things are -/

/-- Where the transport header and the payload live inside a packet. -/
structure Layout where
  valid           : Bool := false
  isV4            : Bool := false
  ipHdrLen        : Nat := 0
  proto           : UInt8 := 0
  transportOffset : Nat := 0
  /-- Header only. -/
  transportLen    : Nat := 0
  payloadOffset   : Nat := 0
  payloadLen      : Nat := 0
  /-- A fragment other than the first: no transport header. -/
  fragment        : Bool := false
  deriving DecidableEq, Repr

/-- The part of `parse` behind the IP header, which ends at `ipTotal`. -/
def parseTransport (p : Bytes) (ipTotal : Nat) (L : Layout) : Layout :=
  let L := { L with transportOffset := L.ipHdrLen }
  if L.fragment then { L with valid := true }
  else if L.proto = PROTO_TCP then
    if p.length < L.transportOffset + TCP_MIN_HDR then L
    else
      let L := { L with transportLen := (p.byteAt (L.transportOffset + 12)).toNat / 16 * 4 }
      if L.transportLen < TCP_MIN_HDR ∨ p.length < L.transportOffset + L.transportLen then L
      else
        let payloadOffset := L.transportOffset + L.transportLen
        { L with payloadOffset, payloadLen := ipTotal - payloadOffset, valid := true }
  else if L.proto = PROTO_UDP then
    if p.length < L.transportOffset + UDP_HDR_LEN then L
    else
      let payloadOffset := L.transportOffset + UDP_HDR_LEN
      { L with
        transportLen := UDP_HDR_LEN
        payloadOffset
        payloadLen := ipTotal - payloadOffset
        valid := true }
  -- ICMP and friends: no ports, no payload handling
  else { L with valid := true }

def parse (p : Bytes) : Layout :=
  if p.length < IPV4_MIN_HDR then {}
  else
    let version := (p.byteAt 0).toNat / 16
    if version = 4 then
      let ipHdrLen := (p.byteAt 0).toNat % 16 * 4
      if ipHdrLen < IPV4_MIN_HDR ∨ p.length < ipHdrLen then { isV4 := true, ipHdrLen }
      else
        let total := p.read16be 2
        -- a total length that makes no sense: trust the buffer
        let ipTotal := if total > p.length ∨ total < ipHdrLen then p.length else total
        parseTransport p ipTotal
          { isV4 := true
            ipHdrLen
            proto := p.byteAt 9
            fragment := decide (p.read16be 6 % 0x2000 ≠ 0) }
    else if version = 6 then
      if p.length < IPV6_HDR_LEN then {}
      else
        let total := IPV6_HDR_LEN + p.read16be 4
        let ipTotal := if total > p.length then p.length else total
        parseTransport p ipTotal { ipHdrLen := IPV6_HDR_LEN, proto := p.byteAt 6 }
    else {}

/-- The sum over the pseudo-header that TCP and UDP checksums cover. -/
def pseudoHeaderSum (p : Bytes) (L : Layout) (transportTotal : Nat) : UInt32 :=
  let total := UInt32.ofNat transportTotal
  if L.isV4 then sum16 p 12 8 0 + L.proto.toUInt32 + total
  else sum16 p 8 32 0 + ((total >>> (16 : UInt32)) &&& (0xFFFF : UInt32)) +
      (total &&& (0xFFFF : UInt32)) + L.proto.toUInt32

/-! ## What the modules call -/

/-- Offset and length of a non-empty payload. -/
def packetGetPayload (p : Bytes) : Option (Nat × Nat) :=
  let L := parse p
  if !L.valid || L.fragment || L.payloadLen == 0 then none
  else if L.payloadOffset + L.payloadLen > p.length then none
  else some (L.payloadOffset, L.payloadLen)

/-- The transport checksum, for a packet whose IP checksum is already done. -/
def recalcTransport (p : Bytes) (L : Layout) : Bytes :=
  let transportTotal := L.transportLen + L.payloadLen
  let cksumOffset := L.transportOffset + if L.proto = PROTO_TCP then 16 else 6
  if L.transportOffset + transportTotal > p.length then p
  else if cksumOffset + 2 > p.length then p
  else
    let blank := p.write16be cksumOffset 0
    let acc := sum16 blank L.transportOffset transportTotal
      (pseudoHeaderSum blank L transportTotal)
    let ck := foldChecksum acc
    -- a zero UDP checksum means "not computed"
    let ck := if L.proto = PROTO_UDP ∧ ck = 0 then 0xFFFF else ck
    blank.write16be cksumOffset ck

def packetRecalcChecksums (p : Bytes) : Bytes :=
  let L := parse p
  if !L.valid then p
  else
    let p := if L.isV4 then
        let blank := p.write16be 10 0
        blank.write16be 10 (foldChecksum (sum16 blank 0 L.ipHdrLen 0))
      else p
    if L.fragment then p
    else if L.proto ≠ PROTO_TCP ∧ L.proto ≠ PROTO_UDP then p
    else recalcTransport p L

/-- Set the RST flag; `none` if the packet has no TCP header. -/
def packetSetTcpRst (p : Bytes) : Option Bytes :=
  let L := parse p
  if !L.valid || L.fragment || decide (L.proto ≠ PROTO_TCP) then none
  else if L.transportOffset + TCP_MIN_HDR > p.length then none
  else
    let flags := L.transportOffset + TCP_FLAGS_OFFSET
    some (packetRecalcChecksums (p.set flags (p.byteAt flags ||| TCP_FLAG_RST)))

def packetMinTcpSize : Nat := IPV4_MIN_HDR + TCP_MIN_HDR

/-! ## Specification -/

theorem packetGetPayload_inside {p : Bytes} {offset len : Nat}
    (found : packetGetPayload p = some (offset, len)) : 0 < len ∧ offset + len ≤ p.length := by
  simp only [packetGetPayload] at found
  split at found
  · simp at found
  · rename_i usable
    split at found
    · simp at found
    · rename_i fits
      simp only [Option.some.injEq, Prod.mk.injEq] at found
      obtain ⟨rfl, rfl⟩ := found
      simp only [Bool.or_eq_true, not_or, beq_iff_eq] at usable
      exact ⟨Nat.pos_of_ne_zero usable.2, Nat.le_of_not_lt fits⟩

@[simp] theorem recalcTransport_length (p : Bytes) (L : Layout) :
    (recalcTransport p L).length = p.length := by
  unfold recalcTransport
  generalize (if L.proto = PROTO_TCP then 16 else 6) = field
  simp only
  split
  · rfl
  · split
    · rfl
    · rw [Bytes.write16be_length, Bytes.write16be_length]

@[simp] theorem packetRecalcChecksums_length (p : Bytes) :
    (packetRecalcChecksums p).length = p.length := by
  simp only [packetRecalcChecksums]
  split
  · rfl
  · cases (parse p).isV4 <;> cases (parse p).fragment <;> simp <;> split <;> simp

theorem packetSetTcpRst_length {p p' : Bytes} (reset : packetSetTcpRst p = some p') :
    p'.length = p.length := by
  simp only [packetSetTcpRst] at reset
  split at reset
  · simp at reset
  · split at reset
    · simp at reset
    · rw [← Option.some.inj reset, packetRecalcChecksums_length, List.length_set]

end Clumsy.Packet
