/-
# Packet.Bounds -- packetutil_linux.cpp: no access outside the packet

The helpers once more, with every read and write made where the source makes it, on a block
that is exactly the packet: an access at or behind its length has no result.  Each of them
has one, the one of `Packet.Util` (`parse_checked`, `packetGetPayload_checked`,
`packetRecalcChecksums_checked`, `packetSetTcpRst_checked`), so no header field, whatever it
says, leads outside.

What a length check lets through is collected in `Describes`; the accesses behind `parse`
need nothing else of the packet.  An offset is a sum of two header lengths and at most one
packet length, so the source's 32-bit sums are these.
-/
import Clumsy.Packet.Header
import Clumsy.Theory.Memory

namespace Clumsy.Packet

open Clumsy.Theory Clumsy.Theory.Memory

set_option autoImplicit false

/-! ## The helpers, access by access -/

namespace Checked

def read16be (p : Bytes) (i : Nat) : Option Nat := do
  let high ← load p i
  let low ← load p (i + 1)
  return high.toNat * 256 + low.toNat

def write16be (p : Bytes) (i : Nat) (v : UInt32) : Option Bytes := do
  let p ← store p i (v >>> (8 : UInt32)).toUInt8
  store p (i + 1) (v &&& (0xFF : UInt32)).toUInt8

/-- `sum16` of the `len` bytes from `start`. -/
def sum16 (p : Bytes) (start : Nat) : Nat → UInt32 → Option UInt32
  | 0, acc => some acc
  | 1, acc => do
      let last ← load p start
      return acc + last.toUInt32 <<< (8 : UInt32)
  | len + 2, acc => do
      let word ← read16be p start
      sum16 p (start + 2) len (acc + UInt32.ofNat word)

/-- `parse`, from the IP header on. -/
def parseTransport (p : Bytes) (ipTotal : Nat) (L : Layout) : Option Layout :=
  let L := { L with transportOffset := L.ipHdrLen }
  if L.fragment then some { L with valid := true }
  else if L.proto = PROTO_TCP then
    if p.length < L.transportOffset + TCP_MIN_HDR then some L
    else do
      let offset ← load p (L.transportOffset + 12)
      let L := { L with transportLen := offset.toNat / 16 * 4 }
      if L.transportLen < TCP_MIN_HDR ∨ p.length < L.transportOffset + L.transportLen then some L
      else
        let payloadOffset := L.transportOffset + L.transportLen
        some { L with payloadOffset, payloadLen := ipTotal - payloadOffset, valid := true }
  else if L.proto = PROTO_UDP then
    if p.length < L.transportOffset + UDP_HDR_LEN then some L
    else
      let payloadOffset := L.transportOffset + UDP_HDR_LEN
      some { L with
        transportLen := UDP_HDR_LEN
        payloadOffset
        payloadLen := ipTotal - payloadOffset
        valid := true }
  else some { L with valid := true }

def parse (p : Bytes) : Option Layout :=
  if p.length < IPV4_MIN_HDR then some {}
  else do
    let first ← load p 0
    let version := first.toNat / 16
    if version = 4 then
      let ipHdrLen := first.toNat % 16 * 4
      if ipHdrLen < IPV4_MIN_HDR ∨ p.length < ipHdrLen then some { isV4 := true, ipHdrLen }
      else
        let proto ← load p 9
        let total ← read16be p 2
        let ipTotal := if total > p.length ∨ total < ipHdrLen then p.length else total
        let place ← read16be p 6
        parseTransport p ipTotal
          { isV4 := true
            ipHdrLen
            proto
            fragment := decide (place % 0x2000 ≠ 0) }
    else if version = 6 then
      if p.length < IPV6_HDR_LEN then some {}
      else
        let proto ← load p 6
        let total ← read16be p 4
        let total := IPV6_HDR_LEN + total
        let ipTotal := if total > p.length then p.length else total
        parseTransport p ipTotal { ipHdrLen := IPV6_HDR_LEN, proto }
    else some {}

def pseudoHeaderSum (p : Bytes) (L : Layout) (transportTotal : Nat) : Option UInt32 :=
  let total := UInt32.ofNat transportTotal
  if L.isV4 then do
    let acc ← sum16 p 12 8 0
    return acc + L.proto.toUInt32 + total
  else do
    let acc ← sum16 p 8 32 0
    return acc + ((total >>> (16 : UInt32)) &&& (0xFFFF : UInt32)) +
      (total &&& (0xFFFF : UInt32)) + L.proto.toUInt32

def packetGetPayload (p : Bytes) : Option (Option (Nat × Nat)) :=
  if p.length = 0 then some none
  else do
    let L ← parse p
    if !L.valid || L.fragment || L.payloadLen == 0 then some none
    else if L.payloadOffset + L.payloadLen > p.length then some none
    else some (some (L.payloadOffset, L.payloadLen))

/-- `packetRecalcChecksums`, from the transport header on. -/
def recalcTransport (p : Bytes) (L : Layout) : Option Bytes :=
  let transportTotal := L.transportLen + L.payloadLen
  let cksumOffset := L.transportOffset + if L.proto = PROTO_TCP then 16 else 6
  if L.transportOffset + transportTotal > p.length then some p
  else if cksumOffset + 2 > p.length then some p
  else do
    let blank ← write16be p cksumOffset 0
    let acc ← pseudoHeaderSum blank L transportTotal
    let acc ← sum16 blank L.transportOffset transportTotal acc
    let ck := foldChecksum acc
    let ck := if L.proto = PROTO_UDP ∧ ck = 0 then 0xFFFF else ck
    write16be blank cksumOffset ck

/-- The IPv4 header checksum. -/
def recalcHeader (p : Bytes) (L : Layout) : Option Bytes :=
  if L.isV4 then do
    let blank ← write16be p 10 0
    let acc ← sum16 blank 0 L.ipHdrLen 0
    write16be blank 10 (foldChecksum acc)
  else some p

def packetRecalcChecksums (p : Bytes) : Option Bytes :=
  if p.length = 0 then some p
  else do
    let L ← parse p
    if !L.valid then some p
    else
      let p ← recalcHeader p L
      if L.fragment then some p
      else if L.proto ≠ PROTO_TCP ∧ L.proto ≠ PROTO_UDP then some p
      else recalcTransport p L

def packetSetTcpRst (p : Bytes) : Option (Option Bytes) :=
  if p.length = 0 then some none
  else do
    let L ← parse p
    if !L.valid || L.fragment || decide (L.proto ≠ PROTO_TCP) then some none
    else if L.transportOffset + TCP_MIN_HDR > p.length then some none
    else
      let flags ← load p (L.transportOffset + TCP_FLAGS_OFFSET)
      let p ← store p (L.transportOffset + TCP_FLAGS_OFFSET) (flags ||| TCP_FLAG_RST)
      (packetRecalcChecksums p).map some

end Checked

/-! ## Single accesses -/

/-- An access that succeeded, and what comes after it. -/
theorem some_then {α β : Type} (a : α) (next : α → Option β) : (some a >>= next) = next a := rfl

section Access

variable {p : Bytes} {i : Nat}

theorem load_byte (inside : i < p.length) : load p i = some (p.byteAt i) := by
  rw [load, List.getElem?_eq_getElem inside, Bytes.byteAt, List.getD_eq_getElem _ _ inside]

theorem read16be_checked (inside : i + 1 < p.length) :
    Checked.read16be p i = some (p.read16be i) := by
  rw [Checked.read16be, load_byte (by omega), load_byte inside]
  rfl

theorem write16be_checked (inside : i + 1 < p.length) (v : UInt32) :
    Checked.write16be p i v = some (p.write16be i v) := by
  rw [Checked.write16be, store_of_lt (by omega), some_then,
    store_of_lt (by rw [List.length_set]; exact inside)]
  rfl

theorem sum16_checked {len : Nat} (inside : i + len ≤ p.length) (acc : UInt32) :
    Checked.sum16 p i len acc = some (sum16 p i len acc) := by
  induction i, len, acc using sum16.induct p with
  | case1 i acc => rfl
  | case2 i acc =>
      rw [Checked.sum16, load_byte (by omega)]
      rfl
  | case3 i acc len ih =>
      rw [Checked.sum16, read16be_checked (by omega), some_then,
        ih (by omega), sum16]

end Access

/-! ## The helpers -/

/-- Behind the length checks of the transport header the data offset is inside. -/
theorem parseTransport_checked (p : Bytes) (ipTotal : Nat) (L : Layout) :
    Checked.parseTransport p ipTotal L = some (parseTransport p ipTotal L) := by
  simp only [Checked.parseTransport, parseTransport]
  by_cases later : L.fragment = true
  · rw [if_pos later, if_pos later]
  rw [if_neg later, if_neg later]
  by_cases tcp : L.proto = PROTO_TCP
  · rw [if_pos tcp, if_pos tcp]
    by_cases short : p.length < L.ipHdrLen + TCP_MIN_HDR
    · rw [if_pos short, if_pos short]
    · rw [if_neg short, if_neg short]
      have inside : L.ipHdrLen + 12 < p.length := by
        rw [TCP_MIN_HDR] at short
        omega
      rw [load_byte inside, some_then]
      split_ifs <;> rfl
  · rw [if_neg tcp, if_neg tcp]
    split_ifs <;> rfl

theorem parse_checked (p : Bytes) : Checked.parse p = some (parse p) := by
  unfold Checked.parse parse
  by_cases short : p.length < IPV4_MIN_HDR
  · rw [if_pos short, if_pos short]
  rw [if_neg short, if_neg short]
  have long : 20 ≤ p.length := Nat.le_of_not_lt short
  rw [load_byte (by omega), some_then]
  simp only
  by_cases v4 : (p.byteAt 0).toNat / 16 = 4
  · rw [if_pos v4, if_pos v4]
    by_cases header : (p.byteAt 0).toNat % 16 * 4 < IPV4_MIN_HDR ∨
        p.length < (p.byteAt 0).toNat % 16 * 4
    · rw [if_pos header, if_pos header]
    · rw [if_neg header, if_neg header, load_byte (by omega), some_then,
        read16be_checked (by omega), some_then, read16be_checked (by omega), some_then]
      exact parseTransport_checked p _ _
  · rw [if_neg v4, if_neg v4]
    by_cases v6 : (p.byteAt 0).toNat / 16 = 6
    · rw [if_pos v6, if_pos v6]
      by_cases header : p.length < IPV6_HDR_LEN
      · rw [if_pos header, if_pos header]
      · rw [if_neg header, if_neg header, load_byte (by omega), some_then,
          read16be_checked (by omega), some_then]
        exact parseTransport_checked p _ _
    · rw [if_neg v6, if_neg v6]

/-- The addresses of the pseudo-header lie in the IP header. -/
theorem pseudoHeaderSum_checked {p : Bytes} {L : Layout}
    (header : (if L.isV4 then 20 else 40) ≤ p.length) (transportTotal : Nat) :
    Checked.pseudoHeaderSum p L transportTotal = some (pseudoHeaderSum p L transportTotal) := by
  simp only [Checked.pseudoHeaderSum, pseudoHeaderSum]
  by_cases v4 : L.isV4 = true
  · rw [if_pos v4] at header
    rw [if_pos v4, if_pos v4, sum16_checked (by omega)]
    rfl
  · rw [if_neg v4] at header
    rw [if_neg v4, if_neg v4, sum16_checked (by omega)]
    rfl

/-- A packet shorter than an IP header is not described. -/
theorem parse_of_short {p : Bytes} (short : p.length < 20) : parse p = {} := if_pos short

theorem packetGetPayload_checked (p : Bytes) :
    Checked.packetGetPayload p = some (packetGetPayload p) := by
  unfold Checked.packetGetPayload packetGetPayload
  by_cases empty : p.length = 0
  · rw [if_pos empty, parse_of_short (by omega)]
    rfl
  · rw [if_neg empty, parse_checked, some_then]
    simp only
    split_ifs <;> rfl

theorem recalcTransport_checked {p : Bytes} {L : Layout}
    (header : (if L.isV4 then 20 else 40) ≤ p.length) :
    Checked.recalcTransport p L = some (recalcTransport p L) := by
  unfold Checked.recalcTransport recalcTransport
  generalize (if L.proto = PROTO_TCP then 16 else 6) = field
  simp only
  by_cases past : L.transportOffset + (L.transportLen + L.payloadLen) > p.length
  · rw [if_pos past, if_pos past]
  rw [if_neg past, if_neg past]
  by_cases behind : L.transportOffset + field + 2 > p.length
  · rw [if_pos behind, if_pos behind]
  rw [if_neg behind, if_neg behind]
  have blank := @write16be_checked p (L.transportOffset + field) (by omega) 0
  have length := Bytes.write16be_length p (L.transportOffset + field) 0
  rw [blank, some_then, pseudoHeaderSum_checked (by rwa [length]), some_then,
    sum16_checked (by rw [length]; omega), some_then, write16be_checked (by rw [length]; omega)]

theorem recalcHeader_checked {p : Bytes} {L : Layout} (minimal : 20 ≤ L.ipHdrLen)
    (header : L.ipHdrLen ≤ p.length) :
    Checked.recalcHeader p L = some (if L.isV4 then
        (p.write16be 10 0).write16be 10 (foldChecksum (sum16 (p.write16be 10 0) 0 L.ipHdrLen 0))
      else p) := by
  unfold Checked.recalcHeader
  by_cases v4 : L.isV4 = true
  · have length := Bytes.write16be_length p 10 0
    rw [if_pos v4, if_pos v4, write16be_checked (by omega), some_then,
      sum16_checked (by rw [length]; omega), some_then, write16be_checked (by rw [length]; omega)]
  · rw [if_neg v4, if_neg v4]

/-- The header of a valid layout is in the packet, and as long as its version asks. -/
theorem Layout.Describes.header_le {p : Bytes} {L : Layout} (d : L.Describes p) :
    (if L.isV4 then 20 else 40) ≤ p.length := by
  have inside := d.header
  have size := d.ipHdrLen
  split_ifs at size ⊢ <;> omega

theorem packetRecalcChecksums_checked (p : Bytes) :
    Checked.packetRecalcChecksums p = some (packetRecalcChecksums p) := by
  unfold Checked.packetRecalcChecksums packetRecalcChecksums
  by_cases empty : p.length = 0
  · rw [if_pos empty, parse_of_short (by omega)]
    rfl
  rw [if_neg empty, parse_checked, some_then]
  simp only
  by_cases valid : (parse p).valid = true
  · have d := parse_describes valid
    have known : ¬ (!(parse p).valid) = true := by simp [valid]
    rw [if_neg known, if_neg known, recalcHeader_checked d.header.1 d.header.2, some_then]
    generalize done : (if (parse p).isV4 = true then _ else p) = q
    have length : q.length = p.length := by
      rw [← done]
      split <;> simp
    split_ifs
    · rfl
    · rfl
    · exact recalcTransport_checked (by rw [length]; exact d.header_le)
  · have unknown : (!(parse p).valid) = true := by simpa using valid
    rw [if_pos unknown, if_pos unknown]

theorem packetSetTcpRst_checked (p : Bytes) :
    Checked.packetSetTcpRst p = some (packetSetTcpRst p) := by
  unfold Checked.packetSetTcpRst packetSetTcpRst
  by_cases empty : p.length = 0
  · rw [if_pos empty, parse_of_short (by omega)]
    rfl
  rw [if_neg empty, parse_checked, some_then]
  simp only
  split_ifs with other short
  · rfl
  · rfl
  · have inside : (parse p).transportOffset + TCP_FLAGS_OFFSET < p.length := by
      rw [TCP_MIN_HDR] at short
      rw [TCP_FLAGS_OFFSET]
      omega
    rw [load_byte inside, some_then, store_of_lt inside, some_then,
      packetRecalcChecksums_checked]
    rfl

/-- The payload that is handed out lies behind both headers. -/
theorem packetGetPayload_behind {p : Bytes} {offset len : Nat}
    (found : packetGetPayload p = some (offset, len)) :
    offset = (parse p).transportOffset + (parse p).transportLen ∧
      20 ≤ (parse p).transportOffset ∧ 8 ≤ (parse p).transportLen := by
  simp only [packetGetPayload] at found
  split at found
  · simp at found
  · rename_i usable
    split at found
    · simp at found
    · simp only [Option.some.injEq, Prod.mk.injEq] at found
      obtain ⟨rfl, rfl⟩ := found
      simp only [Bool.or_eq_true, not_or, beq_iff_eq, Bool.not_eq_true,
        Bool.not_eq_false'] at usable
      obtain ⟨⟨valid, _⟩, payload⟩ := usable
      have d := parse_describes valid
      have there : (parse p).hasTransport = true := by
        by_contra none_
        exact payload (d.bare (by simpa using none_))
      refine ⟨(d.payload there).1, ?_, (d.transportLen_ge there).1⟩
      rw [d.transport]
      exact d.header.1

/-- **The helpers keep inside the packet.**  Whatever its bytes are, every access of `parse`
and of the three operations is below its length, and a payload lies behind the transport
header and ends with the packet or before. -/
theorem helpers_inside (p : Bytes) :
    Checked.parse p = some (parse p) ∧
      Checked.packetGetPayload p = some (packetGetPayload p) ∧
      Checked.packetRecalcChecksums p = some (packetRecalcChecksums p) ∧
      Checked.packetSetTcpRst p = some (packetSetTcpRst p) ∧
      ∀ offset len, packetGetPayload p = some (offset, len) →
        (0 < len ∧ offset + len ≤ p.length) ∧
          offset = (parse p).transportOffset + (parse p).transportLen ∧
          20 ≤ (parse p).transportOffset ∧ 8 ≤ (parse p).transportLen :=
  ⟨parse_checked p, packetGetPayload_checked p, packetRecalcChecksums_checked p,
    packetSetTcpRst_checked p, fun _ _ found =>
      ⟨packetGetPayload_inside found, packetGetPayload_behind found⟩⟩

end Clumsy.Packet
