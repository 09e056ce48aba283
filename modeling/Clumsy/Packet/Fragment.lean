/-
# Packet.Fragment -- checksum repair on the fragments of a datagram

`reassemble` is what a receiver does with the pieces of an IPv4 datagram, in order: headers
are checked, offsets must join up, the bodies are put together.  A transport checksum covers
the whole of that.

`parse` takes a piece for a fragment when its offset is not zero, so the first one of several
passes for a whole packet and `packetRecalcChecksums` gives it a checksum over its own bytes.
What the receiver then finds is exact: the checksum verifies if and only if the bytes of the
other pieces and their number come to nothing in one's complement
(`reassemble_repaired_iff`).
-/
import Clumsy.Packet.Checksum

namespace Clumsy.Packet

open Clumsy.Theory

set_option autoImplicit false

/-! ## Reassembly -/

namespace Piece

def headerLen (p : Bytes) : Nat := (p.byteAt 0).toNat % 16 * 4

def body (p : Bytes) : Bytes := p.drop (headerLen p)

/-- Where the body belongs, in bytes. -/
def offset (p : Bytes) : Nat := p.read16be 6 % 0x2000 * 8

/-- The more-fragments flag. -/
def more (p : Bytes) : Bool := decide (p.read16be 6 / 0x2000 % 2 = 1)

/-- Identification, protocol and addresses: what the pieces of a datagram share. -/
def key (p : Bytes) : Nat × UInt8 × Bytes := (p.read16be 4, p.byteAt 9, p.slice 12 8)

/-- An IPv4 packet with a good header. -/
structure WellFormed (p : Bytes) : Prop where
  version  : (p.byteAt 0).toNat / 16 = 4
  header   : 20 ≤ headerLen p ∧ headerLen p ≤ p.length
  total    : p.read16be 2 = p.length
  checksum : onesSum (p.slice 0 (headerLen p)) = 0xFFFF

instance (p : Bytes) : Decidable (WellFormed p) :=
  decidable_of_iff (((p.byteAt 0).toNat / 16 = 4 ∧ 20 ≤ headerLen p ∧ headerLen p ≤ p.length) ∧
      p.read16be 2 = p.length ∧ onesSum (p.slice 0 (headerLen p)) = 0xFFFF)
    ⟨fun h => ⟨h.1.1, h.1.2, h.2.1, h.2.2⟩, fun h => ⟨⟨h.version, h.header⟩, h.total, h.checksum⟩⟩

/-- The bodies of the pieces from `pos` on, if they join up. -/
def gather (shared : Nat × UInt8 × Bytes) : Nat → List Bytes → Option Bytes
  | _, [] => none
  | pos, p :: pieces =>
      if WellFormed p ∧ key p = shared ∧ offset p = pos then
        if more p then
          if body p ≠ [] ∧ (body p).length % 8 = 0 then
            (gather shared (pos + (body p).length) pieces).map (body p ++ ·)
          else none
        else if pieces = [] then some (body p)
        else none
      else none

end Piece

/-- What IPv4 delivers to the transport layer. -/
structure Datagram where
  addresses : Bytes
  proto     : UInt8
  body      : Bytes
  deriving DecidableEq, Repr

/-- Put the pieces of a datagram together. -/
def reassemble : List Bytes → Option Datagram
  | [] => none
  | first :: pieces =>
      (Piece.gather (Piece.key first) 0 (first :: pieces)).bind fun body =>
        if Piece.headerLen first + body.length ≤ 65535 then
          some { addresses := first.slice 12 8, proto := first.byteAt 9, body }
        else none

namespace Datagram

/-- What the transport checksum of a datagram covers. -/
def covered (d : Datagram) : Bytes := d.addresses ++ [0, d.proto] ++ be16 d.body.length ++ d.body

/-- The receiver's check; a UDP checksum of zero says that there is none. -/
def ChecksumValid (d : Datagram) : Prop :=
  (d.proto = PROTO_UDP ∧ d.body.read16be 6 = 0) ∨ onesSum d.covered = 0xFFFF

instance (d : Datagram) : Decidable d.ChecksumValid := inferInstanceAs (Decidable (_ ∨ _))

end Datagram

/-- The TCP or UDP header is in the first piece. -/
def HeaderInside (first : Bytes) : Prop :=
  (first.byteAt 9 = PROTO_TCP ∧
      20 ≤ ((Piece.body first).byteAt 12).toNat / 16 * 4 ∧
      ((Piece.body first).byteAt 12).toNat / 16 * 4 ≤ (Piece.body first).length) ∨
    (first.byteAt 9 = PROTO_UDP ∧ 8 ≤ (Piece.body first).length)

instance (first : Bytes) : Decidable (HeaderInside first) := inferInstanceAs (Decidable (_ ∨ _))

/-! ## What a repair does to a piece -/

namespace Piece

variable {p : Bytes}

theorem WellFormed.small (w : WellFormed p) : p.length ≤ 65535 := by
  have high := (p.byteAt 2).toNat_lt
  have low := (p.byteAt (2 + 1)).toNat_lt
  have total := w.total
  rw [Bytes.read16be] at total
  omega

/-- A repaired piece is one of the same datagram, at the same place. -/
theorem repaired (w : WellFormed p) (valid : (parse p).valid = true) :
    WellFormed (packetRecalcChecksums p) ∧ key (packetRecalcChecksums p) = key p ∧
      offset (packetRecalcChecksums p) = offset p ∧ more (packetRecalcChecksums p) = more p ∧
      headerLen (packetRecalcChecksums p) = headerLen p := by
  have d := parse_describes valid
  have header := d.header
  have start := d.transport
  have only := (packetRecalcChecksums_onlyAt p).mono fun _ here => here.2
  have small := w.small
  have v4 : (parse p).isV4 = true := by
    have version := d.version
    rw [w.version] at version
    split at version
    · assumption
    · omega
  have hdr : (parse p).ipHdrLen = headerLen p := by
    rw [d.ipHdrLen, if_pos v4]
    rfl
  have early {i : Nat} (before : i < 10) :
      (packetRecalcChecksums p).byteAt i = p.byteAt i :=
    only.same i (d.not_inChecksum (.inl before))
  have word {i : Nat} (before : i < 9) :
      (packetRecalcChecksums p).read16be i = p.read16be i :=
    Bytes.read16be_congr (early (by omega)) (early (by omega))
  have addresses : (packetRecalcChecksums p).slice 12 8 = p.slice 12 8 := by
    refine only.slice fun i low high => ?_
    rintro (⟨-, ip⟩ | ⟨there, transport⟩)
    · omega
    · have room := d.checksum_room there
      omega
  have len : headerLen (packetRecalcChecksums p) = headerLen p := by
    simp only [headerLen, early (i := 0) (by decide)]
  refine ⟨⟨?_, ?_, ?_, ?_⟩, ?_, ?_, ?_, len⟩
  · rw [early (by decide)]
    exact w.version
  · rw [len, only.length]
    exact w.header
  · rw [word (by decide), only.length]
    exact w.total
  · rw [len, ← hdr]
    exact (packetRecalcChecksums_verifies valid (by omega)).1 v4
  · simp only [key, word (i := 4) (by decide), early (i := 9) (by decide), addresses]
  · simp only [offset, word (i := 6) (by decide)]
  · simp only [more, word (i := 6) (by decide)]

theorem parse_wellFormed (w : WellFormed p) :
    parse p = parseTransport p p.length
      { isV4 := true, ipHdrLen := headerLen p, proto := p.byteAt 9
        fragment := decide (p.read16be 6 % 0x2000 ≠ 0) } := by
  have header := w.header
  unfold headerLen at header ⊢
  have believed : ¬(p.read16be 2 > p.length ∨ p.read16be 2 < (p.byteAt 0).toNat % 16 * 4) := by
    rw [w.total]
    omega
  rw [parse, if_neg (by simp only [IPV4_MIN_HDR]; omega)]
  simp only [w.version, if_true]
  rw [if_neg (by simp only [IPV4_MIN_HDR]; omega), if_neg believed, w.total]

theorem body_length (p : Bytes) : (body p).length = p.length - headerLen p := List.length_drop

theorem byteAt_body (p : Bytes) (i : Nat) : (body p).byteAt i = p.byteAt (headerLen p + i) := by
  simp only [body, Bytes.byteAt, List.getD_eq_getElem?_getD, List.getElem?_drop]

/-- A piece that is not the first is a fragment to `parse`. -/
theorem parse_later (w : WellFormed p) (later : offset p ≠ 0) :
    (parse p).valid = true ∧ (parse p).fragment = true := by
  have whole : p.read16be 6 % 0x2000 ≠ 0 := fun zero => later (by rw [offset, zero])
  rw [parse_wellFormed w, parseTransport]
  simp [whole]

/-- The first piece is a whole packet to `parse`. -/
theorem parse_first (w : WellFormed p) (first : offset p = 0) (inside : HeaderInside p) :
    (parse p).valid = true ∧ (parse p).hasTransport = true ∧ (parse p).isV4 = true ∧
      (parse p).proto = p.byteAt 9 ∧ (parse p).transportOffset = headerLen p ∧
      (parse p).transportTotal = (body p).length := by
  have header := w.header
  have size := body_length p
  have whole : p.read16be 6 % 0x2000 = 0 := by
    unfold offset at first
    omega
  rw [parse_wellFormed w, parseTransport]
  rcases inside with ⟨tcp, long, fits⟩ | ⟨udp, fits⟩
  · rw [byteAt_body] at long fits
    simp only [whole, tcp, ne_eq, not_true_eq_false, decide_false, Bool.false_eq_true, if_false,
      if_true, TCP_MIN_HDR]
    rw [if_neg (by omega), if_neg (by omega)]
    simp [Layout.hasTransport, Layout.transportTotal]
    omega
  · have distinct : ¬PROTO_UDP = PROTO_TCP := by decide
    simp only [whole, udp, ne_eq, not_true_eq_false, decide_false, Bool.false_eq_true, if_false,
      if_true, distinct, UDP_HDR_LEN]
    rw [if_neg (by omega)]
    simp [Layout.hasTransport, Layout.transportTotal]
    omega

/-- Where there is no transport header, nothing behind the IP header is written. -/
theorem body_repaired (none : (parse p).hasTransport = false)
    (header : 20 ≤ headerLen p) (len : headerLen (packetRecalcChecksums p) = headerLen p) :
    body (packetRecalcChecksums p) = body p := by
  have only := (packetRecalcChecksums_onlyAt p).mono fun _ here => here.2
  apply Bytes.ext_byteAt
  · rw [body_length, body_length, len, only.length]
  · intro i
    rw [byteAt_body, byteAt_body, len]
    refine only.same _ ?_
    rintro (⟨-, ip⟩ | ⟨there, -⟩)
    · omega
    · rw [none] at there
      exact Bool.false_ne_true there

/-- **The later pieces** keep their bodies, so they still join up. -/
theorem gather_later {shared : Nat × UInt8 × Bytes} {pos : Nat} (later : 0 < pos)
    {pieces : List Bytes} {bytes : Bytes} (joined : gather shared pos pieces = some bytes) :
    gather shared pos (pieces.map packetRecalcChecksums) = some bytes := by
  induction pieces generalizing pos bytes with
  | nil => simp [gather] at joined
  | cons p pieces ih =>
      rw [gather] at joined
      split at joined
      · rename_i good
        obtain ⟨w, same, at_⟩ := good
        obtain ⟨valid, fragment⟩ := parse_later w (by omega)
        obtain ⟨w', key', offset', more', len'⟩ := repaired w valid
        have body' := body_repaired (by simp [Layout.hasTransport, fragment]) w.header.1 len'
        rw [List.map_cons, gather, if_pos ⟨w', key'.trans same, offset'.trans at_⟩, more', body']
        split at joined
        · rename_i more
          split at joined
          · rename_i block
            obtain ⟨bytes', rest, rfl⟩ := Option.map_eq_some_iff.1 joined
            rw [if_pos more, if_pos block, ih (by omega) rest, Option.map_some]
          · simp at joined
        · rename_i more
          split at joined
          · rename_i last
            rw [if_neg more, last, List.map_nil, if_pos rfl]
            exact joined
          · simp at joined
      · simp at joined

/-- What is put together is the bodies, in order. -/
theorem gather_flatten {shared : Nat × UInt8 × Bytes} {pos : Nat} {pieces : List Bytes}
    {bytes : Bytes} (joined : gather shared pos pieces = some bytes) :
    bytes = (pieces.map body).flatten := by
  induction pieces generalizing pos bytes with
  | nil => simp [gather] at joined
  | cons p pieces ih =>
      rw [gather] at joined
      split_ifs at joined with good more block last
      · obtain ⟨bytes', rest, rfl⟩ := Option.map_eq_some_iff.1 joined
        rw [ih rest, List.map_cons, List.flatten_cons]
      · rw [last, ← Option.some.inj joined]
        simp

/-- How a datagram is put together from its first piece and the others. -/
theorem gather_first {shared : Nat × UInt8 × Bytes} {first : Bytes} {pieces : List Bytes}
    {bytes : Bytes} (joined : gather shared 0 (first :: pieces) = some bytes) :
    WellFormed first ∧ offset first = 0 ∧
      bytes = body first ++ (pieces.map body).flatten ∧
      ((body first).length % 2 = 0 ∨ (pieces.map body).flatten = []) := by
  have whole := gather_flatten joined
  rw [gather] at joined
  split_ifs at joined with good more block last
  · exact ⟨good.1, good.2.2, whole, .inl (by omega)⟩
  · exact ⟨good.1, good.2.2, whole, .inr (by rw [last]; rfl)⟩

/-- The first piece may be replaced by its repair. -/
theorem gather_repaired {first : Bytes} {pieces : List Bytes} {bytes : Bytes}
    (joined : gather (key first) 0 (first :: pieces) = some bytes)
    (valid : (parse first).valid = true) :
    gather (key (packetRecalcChecksums first)) 0
        ((first :: pieces).map packetRecalcChecksums) =
      some (body (packetRecalcChecksums first) ++ (pieces.map body).flatten) := by
  have length := packetRecalcChecksums_length first
  rw [gather] at joined
  split_ifs at joined with good more block last
  · obtain ⟨w', key', offset', more', len'⟩ := repaired good.1 valid
    have size : (body (packetRecalcChecksums first)).length = (body first).length := by
      rw [body_length, body_length, len', length]
    obtain ⟨bytes', rest, rfl⟩ := Option.map_eq_some_iff.1 joined
    have some_ : body (packetRecalcChecksums first) ≠ [] := by
      rw [← List.length_pos_iff, size, List.length_pos_iff]
      exact block.1
    rw [List.map_cons, gather, if_pos ⟨w', rfl, offset'.trans good.2.2⟩, more', if_pos more,
      if_pos ⟨some_, by rw [size]; exact block.2⟩, size, key',
      gather_later (by have := List.length_pos_iff.2 block.1; omega) rest, gather_flatten rest,
      Option.map_some]
  · obtain ⟨w', key', offset', more', len'⟩ := repaired good.1 valid
    rw [List.map_cons, gather, if_pos ⟨w', rfl, offset'.trans good.2.2⟩, more', if_neg more, last,
      List.map_nil, if_pos rfl]
    simp

/-- A repaired first piece adds up by itself. -/
theorem first_adds_up {first : Bytes} (w : WellFormed first) (start : offset first = 0)
    (inside : HeaderInside first) :
    65535 ∣ wordSum (first.slice 12 8) + (first.byteAt 9).toNat + (body first).length +
        wordSum (body (packetRecalcChecksums first)) ∧
      (first.byteAt 9 = PROTO_UDP →
        (body (packetRecalcChecksums first)).read16be 6 ≠ 0) := by
  obtain ⟨valid, there, v4, proto, at_, total⟩ := parse_first w start inside
  obtain ⟨w', key', -, -, len'⟩ := repaired w valid
  have d := parse_describes valid
  have small := w.small
  have size := body_length first
  have length := packetRecalcChecksums_length first
  have header := w.header
  obtain ⟨verifies, nonzero⟩ := (packetRecalcChecksums_verifies valid (by omega)).2 there
  have fits := coveredSum_lt d there small
    (q := (repairIp first (parse first)).write16be (parse first).checksumOffset 0) (by
      simp [(repairIp_onlyAt first (parse first)).length])
  have sum := (wordSum_covered d there length (by omega)).2.2 (by omega)
  have divides := ((onesSum_eq_ones_iff _).1 (verifies.2 fits)).2
  have addresses : (parse first).addresses (packetRecalcChecksums first) = first.slice 12 8 := by
    rw [Layout.addresses, if_pos v4]
    exact congrArg (fun k => k.2.2) key'
  have slice : (packetRecalcChecksums first).slice (headerLen first) (body first).length =
      body (packetRecalcChecksums first) := by
    rw [Bytes.slice, size, body, len']
    apply List.take_of_length_le
    rw [List.length_drop, length]
  constructor
  · rw [sum, Layout.coveredSum, addresses, proto, total, at_, slice] at divides
    exact divides
  · intro udp
    have here := nonzero (proto.trans udp)
    rw [Layout.checksumOffset, proto, udp, at_] at here
    rw [Bytes.read16be, byteAt_body, byteAt_body, len']
    exact here

end Piece

theorem Datagram.wordSum_covered {d : Datagram} (addresses : d.addresses.length = 8) :
    wordSum d.covered =
      wordSum d.addresses + d.proto.toNat + d.body.length % 65536 + wordSum d.body := by
  rw [covered, wordSum_append _ _ (by simp [addresses, be16]),
    wordSum_append _ _ (by simp [addresses]), wordSum_append _ _ (by simp [addresses]),
    wordSum_be16]
  simp [wordSum]

/-! ## Specification -/

/-- **Repair and reassembly.**  The repaired pieces join up again, and the datagram they make
has a valid checksum exactly when the bytes behind the first piece, and their number, come to
nothing. -/
theorem reassemble_repaired_iff (first : Bytes) (pieces : List Bytes) (d : Datagram)
    (whole : reassemble (first :: pieces) = some d) (inside : HeaderInside first) :
    (reassemble ((first :: pieces).map packetRecalcChecksums)).isSome ∧
      ((reassemble ((first :: pieces).map packetRecalcChecksums)).elim False
          Datagram.ChecksumValid ↔
        65535 ∣ (pieces.map Piece.body).flatten.length +
          wordSum (pieces.map Piece.body).flatten) := by
  rw [reassemble] at whole
  obtain ⟨bytes, joined, rest⟩ := Option.bind_eq_some_iff.1 whole
  split_ifs at rest with fits
  obtain ⟨w, start, same, blocks⟩ := Piece.gather_first joined
  obtain ⟨valid, there, -⟩ := Piece.parse_first w start inside
  obtain ⟨w', key', -, -, len'⟩ := Piece.repaired w valid
  obtain ⟨divides, nonzero⟩ := Piece.first_adds_up w start inside
  have length := packetRecalcChecksums_length first
  have header := w.header
  have size : (Piece.body (packetRecalcChecksums first)).length = (Piece.body first).length := by
    rw [Piece.body_length, Piece.body_length, len', length]
  generalize later_eq : (pieces.map Piece.body).flatten = later at *
  have again : reassemble ((first :: pieces).map packetRecalcChecksums) =
      some { addresses := first.slice 12 8, proto := first.byteAt 9
             body := Piece.body (packetRecalcChecksums first) ++ later } := by
    have repaired := Piece.gather_repaired joined valid
    have addresses : (packetRecalcChecksums first).slice 12 8 = first.slice 12 8 :=
      congrArg (fun k => k.2.2) key'
    have proto : (packetRecalcChecksums first).byteAt 9 = first.byteAt 9 :=
      congrArg (fun k => k.2.1) key'
    rw [List.map_cons] at repaired ⊢
    rw [reassemble, repaired, Option.bind_some, later_eq, len', List.length_append, size,
      ← List.length_append, ← same, if_pos fits, addresses, proto]
  have known : 0 < (first.byteAt 9).toNat := by
    rcases inside with ⟨tcp, -⟩ | ⟨udp, -⟩
    · rw [tcp]
      decide
    · rw [udp]
      decide
  have sum : wordSum (Piece.body (packetRecalcChecksums first) ++ later) =
      wordSum (Piece.body (packetRecalcChecksums first)) + wordSum later := by
    rcases blocks with even | none
    · rw [wordSum_append _ _ (by rw [size]; exact even)]
    · rw [none, List.append_nil, wordSum_nil, Nat.add_zero]
  rw [again]
  refine ⟨rfl, ?_⟩
  have checksum : ¬(first.byteAt 9 = PROTO_UDP ∧
      Bytes.read16be (Piece.body (packetRecalcChecksums first) ++ later) 6 = 0) := by
    rintro ⟨udp, zero⟩
    have room : 8 ≤ (Piece.body (packetRecalcChecksums first)).length := by
      rcases inside with ⟨tcp, -⟩ | ⟨-, long⟩
      · exact absurd (udp.symm.trans tcp) (by decide)
      · rw [size]
        exact long
    rw [Bytes.read16be, Bytes.byteAt_append_left (by omega), Bytes.byteAt_append_left (by omega)]
      at zero
    exact nonzero udp zero
  rw [Option.elim_some, Datagram.ChecksumValid, or_iff_right checksum, onesSum_eq_ones_iff,
    Datagram.wordSum_covered (Bytes.slice_length (by omega)), sum, List.length_append, size]
  have small : (Piece.body first).length + later.length < 65536 := by
    rw [same, List.length_append] at fits
    omega
  rw [Nat.mod_eq_of_lt small]
  simp only
  omega

/-- The first piece of a UDP datagram: the header only. -/
def firstPiece : Bytes :=
  [0x45, 0, 0, 28, 0, 7, 0x20, 0, 64, 17, 70, 200, 10, 0, 0, 1, 10, 0, 0, 2,
    0x9C, 0x40, 0, 53, 0, 16, 0xBD, 0xC0]

/-- The second piece, with `abcdefgh`. -/
def lastPiece : Bytes :=
  [0x45, 0, 0, 28, 0, 7, 0, 1, 64, 17, 102, 199, 10, 0, 0, 1, 10, 0, 0, 2,
    0x61, 0x62, 0x63, 0x64, 0x65, 0x66, 0x67, 0x68]

/-- The datagram of the two. -/
def whole : Datagram where
  addresses := [10, 0, 0, 1, 10, 0, 0, 2]
  proto := PROTO_UDP
  body := [0x9C, 0x40, 0, 53, 0, 16, 0xBD, 0xC0, 0x61, 0x62, 0x63, 0x64, 0x65, 0x66, 0x67, 0x68]

theorem reassemble_repaired_iff_pieces :
    (reassemble [firstPiece, lastPiece] = some whole ∧ HeaderInside firstPiece) ∧
      (reassemble ([firstPiece, lastPiece].map packetRecalcChecksums)).isSome :=
  ⟨by decide +kernel, (reassemble_repaired_iff firstPiece [lastPiece] whole (by decide +kernel)
    (by decide +kernel)).1⟩

/-- A datagram that was good is so no longer after its pieces were repaired. -/
theorem reassemble_repaired_breaks :
    (reassemble [firstPiece, lastPiece]).elim False Datagram.ChecksumValid ∧
      ¬(reassemble ([firstPiece, lastPiece].map packetRecalcChecksums)).elim False
        Datagram.ChecksumValid := by
  have good : reassemble [firstPiece, lastPiece] = some whole := by decide +kernel
  have repaired : reassemble ([firstPiece, lastPiece].map packetRecalcChecksums) =
      some { whole with
        body := [0x9C, 0x40, 0, 53, 0, 16, 0x4F, 0x5E] ++ whole.body.drop 8 } := by
    decide +kernel
  rw [good, repaired, Option.elim_some, Option.elim_some]
  decide +kernel

end Clumsy.Packet
