/-
# Packet.Checksum -- the checksums that packetutil_linux.cpp writes

The code adds 16-bit words up in a 32-bit accumulator and folds the carries back in at the
end.  Against it stand the checksums as the Internet protocols define them: the one's
complement sum of the covered bytes is all ones (`ChecksumsOk`).  A repair makes them so for
every packet a 16-bit length can describe, writes nowhere else and is done after one call
(`packetRecalcChecksums_repairs`).

Setting the RST flag is such a repair after one byte.  What a call answers and leaves in the
buffer is `setTcpRst`; the accumulator is wide enough as long as the buffer is no longer
than a packet can be, and the point where it stops being so is exact
(`setTcpRst_all_or_nothing`).
-/
import Clumsy.Packet.Header
import Clumsy.Theory.OnesComplement

namespace Clumsy.Packet

open Clumsy.Theory

set_option autoImplicit false

/-! ## Slices -/

namespace Bytes

/-- The `len` bytes from `start`. -/
def slice (p : Bytes) (start len : Nat) : Bytes := (p.drop start).take len

@[simp] theorem slice_zero (p : Bytes) (start : Nat) : p.slice start 0 = [] := List.take_zero

theorem slice_length {p : Bytes} {start len : Nat} (inside : start + len ≤ p.length) :
    (p.slice start len).length = len := by
  rw [slice, List.length_take, List.length_drop]
  omega

theorem slice_succ {p : Bytes} {start : Nat} (inside : start < p.length) (len : Nat) :
    p.slice start (len + 1) = p.byteAt start :: p.slice (start + 1) len := by
  rw [slice, List.drop_eq_getElem_cons inside, List.take_succ_cons, slice, byteAt,
    List.getD_eq_getElem?_getD, List.getElem?_eq_getElem inside, Option.getD_some]

theorem slice_pair {p : Bytes} {start : Nat} (inside : start + 1 < p.length) (len : Nat) :
    p.slice start (len + 2) =
      p.byteAt start :: p.byteAt (start + 1) :: p.slice (start + 2) len := by
  rw [slice_succ (by omega), slice_succ inside]

theorem slice_append (p : Bytes) (start len more : Nat) :
    p.slice start (len + more) = p.slice start len ++ p.slice (start + len) more := by
  rw [slice, slice, slice, List.take_add, List.drop_drop]

theorem slice_congr {p q : Bytes} (length : p.length = q.length) {start len : Nat}
    (same : ∀ i, start ≤ i → i < start + len → p.byteAt i = q.byteAt i) :
    p.slice start len = q.slice start len := by
  induction len generalizing start with
  | zero => simp
  | succ len ih =>
      by_cases inside : start < p.length
      · rw [slice_succ inside, slice_succ (length ▸ inside), same start (by omega) (by omega),
          ih fun i low high => same i (by omega) (by omega)]
      · rw [slice, slice, List.drop_eq_nil_of_le (by omega), List.drop_eq_nil_of_le (by omega)]

theorem OnlyAt.slice {touched : Nat → Prop} {p q : Bytes} (only : OnlyAt touched p q)
    {start len : Nat} (apart : ∀ i, start ≤ i → i < start + len → ¬touched i) :
    q.slice start len = p.slice start len :=
  slice_congr only.length fun i low high => only.same i (apart i low high)

/-- A slice summed up around one of its words. -/
theorem wordSum_slice_split {p : Bytes} {start len i : Nat} (inside : start + len ≤ p.length)
    (behind : start ≤ i) (whole : (i - start) % 2 = 0) (room : i + 2 ≤ start + len) :
    wordSum (p.slice start len) = wordSum (p.slice start (i - start)) + p.read16be i +
      wordSum (p.slice (i + 2) (start + len - (i + 2))) := by
  have cut : len = (i - start) + (2 + (start + len - (i + 2))) := by omega
  have here : start + (i - start) = i := by omega
  have size := @slice_length p start (i - start) (by omega)
  have word : p.slice i 2 = [p.byteAt i, p.byteAt (i + 1)] := by
    rw [slice_pair (by omega), slice_zero]
  calc wordSum (p.slice start len)
      = wordSum (p.slice start (i - start) ++
          (p.slice i 2 ++ p.slice (i + 2) (start + len - (i + 2)))) := by
        conv_lhs => rw [cut]
        rw [slice_append, here, slice_append]
    _ = _ := by
        rw [wordSum_append _ _ (by rw [size]; exact whole), word, List.cons_append,
          List.singleton_append, wordSum_pair, read16be]
        omega

/-- Writing a word over a zero adds the word. -/
theorem wordSum_write16be {p : Bytes} {start len i : Nat} (inside : start + len ≤ p.length)
    (behind : start ≤ i) (whole : (i - start) % 2 = 0) (room : i + 2 ≤ start + len) (v : UInt32) :
    wordSum ((p.write16be i v).slice start len) =
      wordSum ((p.write16be i 0).slice start len) + v.toNat % 65536 := by
  have around (w : UInt32) :
      wordSum ((p.write16be i w).slice start len) = wordSum (p.slice start (i - start)) +
        w.toNat % 65536 + wordSum (p.slice (i + 2) (start + len - (i + 2))) := by
    have only := onlyAt_write16be p i w
    rw [wordSum_slice_split (by simpa using inside) behind whole room,
      read16be_write16be (by omega),
      only.slice fun j _ high => by omega, only.slice fun j low _ => by omega]
  rw [around v, around 0]
  simp only [UInt32.toNat_zero, Nat.zero_mod, Nat.add_zero]
  omega

end Bytes

/-! ## The accumulator -/

/-- What the accumulator holds of the exact sum. -/
theorem sum16_toNat {p : Bytes} {start len : Nat} (acc : UInt32)
    (inside : start + len ≤ p.length) :
    (sum16 p start len acc).toNat = (acc.toNat + wordSum (p.slice start len)) % 2 ^ 32 := by
  induction start, len, acc using sum16.induct p with
  | case1 start acc =>
      have small := acc.toNat_lt
      rw [sum16, Bytes.slice_zero, wordSum_nil]
      omega
  | case2 start acc =>
      have byte := (p.byteAt start).toNat_lt
      rw [sum16, Bytes.slice_succ (by omega), Bytes.slice_zero, UInt32.toNat_add,
        UInt32.toNat_shiftLeft, UInt8.toNat_toUInt32]
      have shifted : (p.byteAt start).toNat <<< ((8 : UInt32).toNat % 32) =
          (p.byteAt start).toNat * 256 := Nat.shiftLeft_eq _ 8
      rw [shifted, Nat.mod_eq_of_lt (by omega : (p.byteAt start).toNat * 256 < 2 ^ 32)]
      rfl
  | case3 start len acc ih =>
      have high := (p.byteAt start).toNat_lt
      have low := (p.byteAt (start + 1)).toNat_lt
      rw [sum16, ih (by omega), Bytes.slice_pair (by omega), wordSum_pair, UInt32.toNat_add,
        UInt32.toNat_ofNat', Bytes.read16be]
      omega

/-- The sum is over the bytes it covers. -/
theorem sum16_congr {p q : Bytes} {start len : Nat} (acc : UInt32)
    (same : ∀ i, start ≤ i → i < start + len → p.byteAt i = q.byteAt i) :
    sum16 p start len acc = sum16 q start len acc := by
  induction start, len, acc using sum16.induct p with
  | case1 start acc => rfl
  | case2 start acc => rw [sum16, sum16, same start (by omega) (by omega)]
  | case3 start len acc ih =>
      have word : p.read16be start = q.read16be start :=
        Bytes.read16be_congr (same start (by omega) (by omega))
          (same (start + 1) (by omega) (by omega))
      rw [sum16, sum16, ih fun i low high => same i (by omega) (by omega), word]

theorem foldCarries_toNat (rounds : Nat) (acc : UInt32) :
    fold 65536 (foldCarries rounds acc).toNat = fold 65536 acc.toNat := by
  induction rounds generalizing acc with
  | zero => rfl
  | succ rounds ih =>
      rw [foldCarries]
      split
      · rfl
      · rw [ih, carry_toNat, fold_carry (by decide)]

/-- The carry loop computes the one's complement word. -/
theorem foldCarries_eq_fold (acc : UInt32) : (foldCarries 2 acc).toNat = fold 65536 acc.toNat := by
  have done : (foldCarries 2 acc).toNat < 65536 := (high_eq_zero_iff _).1 (foldCarries_done acc)
  rw [← foldCarries_toNat 2 acc, fold_of_lt done]

theorem low_half (acc : UInt32) : (acc &&& (0xFFFF : UInt32)).toNat = acc.toNat % 65536 := by
  rw [UInt32.toNat_and]
  exact Nat.and_two_pow_sub_one_eq_mod acc.toNat 16

theorem foldChecksum_toNat (acc : UInt32) :
    (foldChecksum acc).toNat = 65535 - fold 65536 acc.toNat := by
  have small := fold_lt (b := 65536) (by decide) acc.toNat
  rw [foldChecksum, low_half, UInt32.toNat_not, foldCarries_eq_fold]
  have size : UInt32.size = 2 ^ 32 := rfl
  omega

/-! ## What the checksums should be -/

/-- A big-endian 16-bit field. -/
def be16 (n : Nat) : List UInt8 := [UInt8.ofNat (n / 256), UInt8.ofNat n]

def be32 (n : Nat) : List UInt8 := be16 (n / 65536) ++ be16 n

namespace Layout

/-- Transport header and payload. -/
def transportTotal (L : Layout) : Nat := L.transportLen + L.payloadLen

def checksumOffset (L : Layout) : Nat :=
  L.transportOffset + if L.proto = PROTO_TCP then 16 else 6

/-- The places of the checksums. -/
def InChecksum (L : Layout) (i : Nat) : Prop :=
  (L.isV4 = true ∧ (i = 10 ∨ i = 11)) ∨
    (L.hasTransport = true ∧ (i = L.checksumOffset ∨ i = L.checksumOffset + 1))

/-- Source and destination. -/
def addresses (L : Layout) (p : Bytes) : List UInt8 :=
  if L.isV4 then p.slice 12 8 else p.slice 8 32

/-- The pseudo-header in front of a TCP or UDP packet.  The length field of IPv4 has 16
bits; a longer length, which no IPv4 packet has, takes two words. -/
def pseudoHeader (L : Layout) (p : Bytes) : List UInt8 :=
  L.addresses p ++
    if L.isV4 then
      [0, L.proto] ++ if L.transportTotal < 65536 then be16 L.transportTotal
        else be32 L.transportTotal
    else be32 L.transportTotal ++ [0, 0, 0, L.proto]

/-- What a TCP or UDP checksum covers. -/
def covered (L : Layout) (p : Bytes) : List UInt8 :=
  L.pseudoHeader p ++ p.slice L.transportOffset L.transportTotal

/-- The checksums of a packet verify. -/
structure ChecksumsOk (L : Layout) (p : Bytes) : Prop where
  ip        : L.isV4 = true → onesSum (p.slice 0 L.ipHdrLen) = 0xFFFF
  transport : L.hasTransport = true → onesSum (L.covered p) = 0xFFFF
  udp       : L.hasTransport = true → L.proto = PROTO_UDP → p.read16be L.checksumOffset ≠ 0

/-- The sum the accumulator should come to, before carries. -/
def coveredSum (L : Layout) (p : Bytes) : Nat :=
  wordSum (L.addresses p) + L.proto.toNat + L.transportTotal +
    wordSum (p.slice L.transportOffset L.transportTotal)

end Layout

open Layout

/-! ## The two repairs -/

/-- The IPv4 header checksum. -/
def ipChecksum (p : Bytes) (L : Layout) : UInt32 :=
  foldChecksum (sum16 (p.write16be 10 0) 0 L.ipHdrLen 0)

def repairIp (p : Bytes) (L : Layout) : Bytes :=
  if L.isV4 then p.write16be 10 (ipChecksum p L) else p

/-- The transport checksum. -/
def transportChecksum (p : Bytes) (L : Layout) : UInt32 :=
  let blank := p.write16be L.checksumOffset 0
  let ck := foldChecksum (sum16 blank L.transportOffset L.transportTotal
    (pseudoHeaderSum blank L L.transportTotal))
  if L.proto = PROTO_UDP ∧ ck = 0 then 0xFFFF else ck

def repairTransport (p : Bytes) (L : Layout) : Bytes :=
  p.write16be L.checksumOffset (transportChecksum p L)

section Repairs

variable {L : Layout} {p : Bytes}

namespace Layout.Describes

/-- The checksum field is a word of the transport header, an even way into it. -/
theorem checksum_room (d : L.Describes p) (there : L.hasTransport = true) :
    L.transportOffset + 6 ≤ L.checksumOffset ∧
      (L.checksumOffset - L.transportOffset) % 2 = 0 ∧
      L.checksumOffset + 2 ≤ L.transportOffset + L.transportLen := by
  obtain ⟨short, long⟩ := d.transportLen_ge there
  unfold checksumOffset
  split
  · rename_i tcp
    have size := long tcp
    omega
  · omega

theorem covered_inside (d : L.Describes p) (there : L.hasTransport = true) :
    L.transportOffset + L.transportTotal ≤ p.length := d.inside there

/-- IPv6's own length field bounds what it carries. -/
theorem transportTotal_lt (d : L.Describes p) (there : L.hasTransport = true)
    (v6 : L.isV4 = false) : L.transportTotal < 65536 := by
  obtain ⟨offset, header, len⟩ := d.payload there
  have high := (p.byteAt 4).toNat_lt
  have low := (p.byteAt (4 + 1)).toNat_lt
  have start : L.transportOffset = 40 := by
    rw [d.transport, d.ipHdrLen, v6]
    rfl
  have end_ : L.ipEnd p ≤ 40 + p.read16be 4 := by
    simp only [ipEnd, v6, Bool.false_eq_true, if_false]
    split <;> omega
  have small : L.transportLen < 65536 := by
    obtain ⟨first, tcp | udp⟩ := L.hasTransport_iff.1 there
    · have nibble := (p.byteAt (L.transportOffset + 12)).toNat_lt
      have size := (d.tcp first tcp).1
      omega
    · have size := d.udp first udp
      omega
  rw [Bytes.read16be] at end_
  unfold transportTotal
  omega

end Layout.Describes

/-- **The repair, put together.**  Its two range checks never fail. -/
theorem packetRecalcChecksums_eq (valid : (parse p).valid = true) :
    packetRecalcChecksums p =
      if (parse p).hasTransport then repairTransport (repairIp p (parse p)) (parse p)
      else repairIp p (parse p) := by
  have d := parse_describes valid
  have first : (if (parse p).isV4 then
        (p.write16be 10 0).write16be 10
          (foldChecksum (sum16 (p.write16be 10 0) 0 (parse p).ipHdrLen 0))
      else p) = repairIp p (parse p) := by
    unfold repairIp ipChecksum
    split
    · rw [Bytes.write16be_write16be]
    · rfl
  have length : (repairIp p (parse p)).length = p.length := by
    unfold repairIp
    split <;> simp
  simp only [packetRecalcChecksums, valid, Bool.not_true, Bool.false_eq_true, if_false, first]
  by_cases there : (parse p).hasTransport = true
  · obtain ⟨whole, proto⟩ := (parse p).hasTransport_iff.1 there
    have room := d.checksum_room there
    have inside := d.covered_inside there
    have header := d.inside there
    unfold checksumOffset at room
    rw [if_pos there, whole, if_neg Bool.false_ne_true, if_neg (by tauto), recalcTransport]
    simp only
    rw [if_neg (by rw [length]; exact Nat.not_lt.2 inside), if_neg (by rw [length]; omega),
      Bytes.write16be_write16be]
    rfl
  · rw [if_neg there]
    rw [hasTransport_iff, not_and_or, not_or] at there
    by_cases whole : (parse p).fragment = true
    · rw [if_pos whole]
    · rw [if_neg whole, if_pos (there.resolve_left (by simpa using whole))]

/-! ## Where they write -/

theorem repairIp_onlyAt (p : Bytes) (L : Layout) :
    Bytes.OnlyAt (fun i => L.isV4 = true ∧ (i = 10 ∨ i = 11)) p (repairIp p L) := by
  unfold repairIp
  split
  · rename_i v4
    exact (Bytes.onlyAt_write16be p 10 _).mono fun i here => ⟨v4, here⟩
  · exact Bytes.OnlyAt.refl _ p

theorem repairTransport_onlyAt (p : Bytes) (L : Layout) :
    Bytes.OnlyAt (fun i => i = L.checksumOffset ∨ i = L.checksumOffset + 1) p
      (repairTransport p L) :=
  Bytes.onlyAt_write16be p L.checksumOffset _

/-- **The frame of a repair.** -/
theorem packetRecalcChecksums_onlyAt (p : Bytes) :
    Bytes.OnlyAt (fun i => (parse p).valid = true ∧ (parse p).InChecksum i) p
      (packetRecalcChecksums p) := by
  by_cases valid : (parse p).valid = true
  · rw [packetRecalcChecksums_eq valid]
    split
    · rename_i there
      refine ((repairIp_onlyAt p (parse p)).trans (repairTransport_onlyAt _ _)).mono ?_
      rintro i (ip | transport)
      · exact ⟨valid, .inl ip⟩
      · exact ⟨valid, .inr ⟨there, transport⟩⟩
    · exact (repairIp_onlyAt p (parse p)).mono fun i ip => ⟨valid, .inl ip⟩
  · rw [packetRecalcChecksums, if_pos (by simpa using valid)]
    exact Bytes.OnlyAt.refl _ p

theorem Layout.Describes.not_inChecksum (d : L.Describes p) {i : Nat}
    (early : i < 10 ∨ i = L.ipHdrLen + 12) : ¬L.InChecksum i := by
  have header := d.header.1
  rintro (⟨-, ip⟩ | ⟨there, transport⟩)
  · omega
  · have start := d.transport
    unfold checksumOffset at transport
    split at transport <;> omega

/-- Packets that differ in checksums only have one layout. -/
theorem parse_onlyAt {q : Bytes} (valid : (parse p).valid = true)
    (only : Bytes.OnlyAt (parse p).InChecksum p q) : parse q = parse p := by
  have d := parse_describes valid
  refine (parse_congr only.length.symm ?_ ?_).symm
  · intro i early
    exact (only.same i (d.not_inChecksum (.inl early))).symm
  · exact fun _ => (only.same _ (d.not_inChecksum (.inr rfl))).symm

theorem parse_packetRecalcChecksums (p : Bytes) : parse (packetRecalcChecksums p) = parse p := by
  by_cases valid : (parse p).valid = true
  · exact parse_onlyAt valid ((packetRecalcChecksums_onlyAt p).mono fun _ here => here.2)
  · rw [packetRecalcChecksums, if_pos (by simpa using valid)]

/-! ## Once is enough -/

theorem transportChecksum_congr {q : Bytes}
    (same : p.write16be L.checksumOffset 0 = q.write16be L.checksumOffset 0) :
    transportChecksum p L = transportChecksum q L := by
  simp only [transportChecksum, same]

theorem repairTransport_repairTransport (p : Bytes) (L : Layout) :
    repairTransport (repairTransport p L) L = repairTransport p L := by
  have same : transportChecksum (repairTransport p L) L = transportChecksum p L :=
    transportChecksum_congr (Bytes.write16be_write16be p L.checksumOffset _ 0)
  rw [repairTransport, same, repairTransport, Bytes.write16be_write16be]

theorem foldChecksum_lt (acc : UInt32) : (foldChecksum acc).toNat < 65536 := by
  rw [foldChecksum_toNat]
  omega

/-- A buffer whose header is that of a repaired one has its header repaired. -/
theorem repairIp_eq_self {q : Bytes} (d : L.Describes p)
    (only : Bytes.OnlyAt (fun i => L.ipHdrLen ≤ i) (repairIp p L) q) : repairIp q L = q := by
  have header := d.header
  unfold repairIp at only ⊢
  split
  · rename_i v4
    simp only [v4, if_true] at only
    have length : q.length = p.length := by simpa using only.length
    have blank := only.write16be 10 0
    rw [Bytes.write16be_write16be] at blank
    have same : ipChecksum q L = ipChecksum p L := by
      refine congrArg foldChecksum (sum16_congr 0 fun i _ high => blank.same i ?_)
      rintro ⟨behind, -⟩
      omega
    have small : (ipChecksum p L).toNat < 65536 := foldChecksum_lt _
    have there : q.read16be 10 = (ipChecksum p L).toNat := by
      rw [Bytes.read16be_congr (only.same 10 (by omega)) (only.same 11 (by omega)),
        Bytes.read16be_write16be (by omega), Nat.mod_eq_of_lt small]
    rw [same, Bytes.write16be_eq_self (by omega) small there]
  · rfl

/-- **A second repair changes nothing.** -/
theorem packetRecalcChecksums_idempotent (p : Bytes) :
    packetRecalcChecksums (packetRecalcChecksums p) = packetRecalcChecksums p := by
  by_cases valid : (parse p).valid = true
  · have d := parse_describes valid
    have again : (parse (packetRecalcChecksums p)).valid = true := by
      rw [parse_packetRecalcChecksums]
      exact valid
    rw [packetRecalcChecksums_eq again, parse_packetRecalcChecksums, packetRecalcChecksums_eq valid]
    by_cases there : (parse p).hasTransport = true
    · have room := d.checksum_room there
      have start := d.transport
      have apart : Bytes.OnlyAt (fun i => (parse p).ipHdrLen ≤ i) (repairIp p (parse p))
          (repairTransport (repairIp p (parse p)) (parse p)) :=
        (repairTransport_onlyAt _ _).mono fun i here => by omega
      rw [if_pos there, if_pos there, repairIp_eq_self d apart, repairTransport_repairTransport]
    · rw [if_neg there, if_neg there, repairIp_eq_self d (Bytes.OnlyAt.refl _ _)]
  · have rejected : packetRecalcChecksums p = p := by
      rw [packetRecalcChecksums, if_pos (by simpa using valid)]
    rw [rejected, rejected]

/-! ## They verify -/

theorem wordSum_be16 (n : Nat) : wordSum (be16 n) = n % 65536 := by
  simp only [be16, wordSum, UInt8.toNat_ofNat']
  omega

theorem wordSum_be32 {n : Nat} (fits : n < 2 ^ 32) : wordSum (be32 n) = n / 65536 + n % 65536 := by
  rw [be32, wordSum_append _ _ (by simp [be16]), wordSum_be16, wordSum_be16]
  omega

theorem addresses_length (d : L.Describes p) {q : Bytes} (length : q.length = p.length) :
    (L.addresses q).length % 2 = 0 := by
  have header := d.header
  have hdr := d.ipHdrLen
  unfold addresses
  split
  · rw [Bytes.slice_length (by omega)]
  · rename_i v6
    rw [if_neg v6] at hdr
    rw [Bytes.slice_length (by omega)]

/-- The words of the pseudo-header come to its numbers, the length in two halves. -/
theorem wordSum_pseudoHeader (d : L.Describes p) {q : Bytes} (length : q.length = p.length)
    (fits : L.transportTotal < 2 ^ 32) :
    wordSum (L.pseudoHeader q) = wordSum (L.addresses q) +
      (L.proto.toNat + (L.transportTotal / 65536 + L.transportTotal % 65536)) := by
  rw [pseudoHeader, wordSum_append _ _ (addresses_length d length)]
  congr 1
  have tail : wordSum [0, 0, 0, L.proto] = L.proto.toNat := by simp [wordSum]
  split_ifs with v4 short
  · rw [wordSum_append _ _ (by simp), wordSum_be16]
    simp only [wordSum, UInt8.toNat_zero]
    omega
  · rw [wordSum_append _ _ (by simp), wordSum_be32 fits]
    simp only [wordSum, UInt8.toNat_zero]
    omega
  · rw [wordSum_append _ _ (by simp [be32, be16]), wordSum_be32 fits, tail, Nat.add_comm]

theorem pseudoHeader_length (d : L.Describes p) {q : Bytes} (length : q.length = p.length) :
    (L.pseudoHeader q).length % 2 = 0 := by
  have even := addresses_length d length
  rw [pseudoHeader, List.length_append]
  split_ifs <;> simp [be16, be32] <;> omega

/-- What a checksum covers comes to the sum the accumulator is after, up to carries. -/
theorem wordSum_covered (d : L.Describes p) (there : L.hasTransport = true) {q : Bytes}
    (length : q.length = p.length) (fits : L.transportTotal < 2 ^ 32) :
    wordSum (L.covered q) ≡ L.coveredSum q [MOD 65535] ∧ 0 < wordSum (L.covered q) ∧
      (L.transportTotal < 65536 → wordSum (L.covered q) = L.coveredSum q) := by
  have sum : wordSum (L.covered q) = wordSum (L.addresses q) +
      (L.proto.toNat + (L.transportTotal / 65536 + L.transportTotal % 65536)) +
        wordSum (q.slice L.transportOffset L.transportTotal) := by
    rw [covered, wordSum_append _ _ (pseudoHeader_length d length),
      wordSum_pseudoHeader d length fits]
  have known : L.proto.toNat = 6 ∨ L.proto.toNat = 17 := by
    rcases (L.hasTransport_iff.1 there).2 with tcp | udp
    · exact .inl (by rw [tcp]; rfl)
    · exact .inr (by rw [udp]; rfl)
  rw [sum, coveredSum]
  refine ⟨?_, by omega, fun small => by omega⟩
  simp only [Nat.ModEq]
  omega

/-- **The accumulator** holds the sum, unless that outgrows its 32 bits. -/
theorem accumulator_toNat (d : L.Describes p) (there : L.hasTransport = true) {q : Bytes}
    (length : q.length = p.length) :
    (sum16 q L.transportOffset L.transportTotal
      (pseudoHeaderSum q L L.transportTotal)).toNat = L.coveredSum q % 2 ^ 32 := by
  have header := d.header
  have hdr := d.ipHdrLen
  have inside := d.covered_inside there
  have pseudo : (pseudoHeaderSum q L L.transportTotal).toNat =
      (wordSum (L.addresses q) + L.proto.toNat + L.transportTotal) % 2 ^ 32 := by
    unfold pseudoHeaderSum addresses
    cases v4 : L.isV4 with
    | true =>
        simp only [if_true, UInt32.toNat_add, UInt8.toNat_toUInt32, UInt32.toNat_ofNat']
        rw [sum16_toNat 0 (by omega), UInt32.toNat_zero]
        omega
    | false =>
        have small := d.transportTotal_lt there v4
        have total : (UInt32.ofNat L.transportTotal).toNat = L.transportTotal := by
          rw [UInt32.toNat_ofNat', Nat.mod_eq_of_lt (by omega)]
        simp only [Bool.false_eq_true, if_false, UInt32.toNat_add, UInt8.toNat_toUInt32, low_half,
          high_toNat, total]
        rw [sum16_toNat 0 (by rw [v4] at hdr; simp at hdr; omega), UInt32.toNat_zero]
        omega
  rw [sum16_toNat _ (by omega), pseudo, coveredSum]
  omega

theorem ipHdrLen_le (d : L.Describes p) : L.ipHdrLen ≤ 60 := by
  have hdr := d.ipHdrLen
  split at hdr <;> omega

/-- The header sum never leaves the accumulator. -/
theorem ipSum_toNat (d : L.Describes p) {q : Bytes} (length : q.length = p.length) :
    (sum16 q 0 L.ipHdrLen 0).toNat = wordSum (q.slice 0 L.ipHdrLen) := by
  have header := d.header
  have short := ipHdrLen_le d
  have bound := wordSum_le (q.slice 0 L.ipHdrLen)
  rw [Bytes.slice_length (by omega)] at bound
  rw [sum16_toNat 0 (by omega), UInt32.toNat_zero]
  omega

theorem repairIp_verifies (d : L.Describes p) (v4 : L.isV4 = true) :
    onesSum ((repairIp p L).slice 0 L.ipHdrLen) = 0xFFFF := by
  have header := d.header
  have small : (ipChecksum p L).toNat < 65536 := foldChecksum_lt _
  have word : (ipChecksum p L).toNat =
      65535 - fold 65536 (wordSum ((p.write16be 10 0).slice 0 L.ipHdrLen)) := by
    rw [ipChecksum, foldChecksum_toNat, ipSum_toNat d (by simp)]
  rw [onesSum_eq_ones_iff, repairIp, if_pos v4, Bytes.wordSum_write16be (by omega) (by omega) rfl
    (by omega), Nat.mod_eq_of_lt small, word]
  exact fold_complement (show 1 < 65536 by decide) _

/-- The checksum completes what the accumulator holds. -/
theorem transportChecksum_spec (d : L.Describes p) (there : L.hasTransport = true) {q : Bytes}
    (length : q.length = p.length) :
    (transportChecksum q L).toNat < 65536 ∧
      65535 ∣ L.coveredSum (q.write16be L.checksumOffset 0) % 2 ^ 32 +
        (transportChecksum q L).toNat ∧
      (L.proto = PROTO_UDP → (transportChecksum q L).toNat ≠ 0) := by
  have acc := accumulator_toNat d there (q := q.write16be L.checksumOffset 0) (by simp [length])
  have complement := fold_complement (show 1 < 65536 by decide)
    (L.coveredSum (q.write16be L.checksumOffset 0) % 2 ^ 32)
  have word := foldChecksum_toNat (sum16 (q.write16be L.checksumOffset 0) L.transportOffset
    L.transportTotal (pseudoHeaderSum (q.write16be L.checksumOffset 0) L L.transportTotal))
  rw [acc] at word
  simp only [transportChecksum]
  split
  · rename_i zero
    rw [zero.2, UInt32.toNat_zero] at word
    have ones : (0xFFFF : UInt32).toNat = 65535 := rfl
    rw [ones]
    refine ⟨by decide, ?_, fun _ => by decide⟩
    have divides := complement.2
    omega
  · rename_i other
    refine ⟨foldChecksum_lt _, by rw [word]; exact complement.2, ?_⟩
    intro udp nil
    exact other ⟨udp, UInt32.toNat_inj.1 (nil.trans UInt32.toNat_zero.symm)⟩

/-- Filling in the checksum adds it to the covered sum. -/
theorem coveredSum_repairTransport (d : L.Describes p) (there : L.hasTransport = true)
    {q : Bytes} (length : q.length = p.length) :
    L.coveredSum (repairTransport q L) =
      L.coveredSum (q.write16be L.checksumOffset 0) + (transportChecksum q L).toNat := by
  have room := d.checksum_room there
  have inside := d.covered_inside there
  have start := d.transport
  have hdr := d.ipHdrLen
  have header := d.header
  have small := (transportChecksum_spec d there length).1
  have total : L.transportLen ≤ L.transportTotal := Nat.le_add_right _ _
  have addresses (v : UInt32) : L.addresses (q.write16be L.checksumOffset v) = L.addresses q := by
    have only := Bytes.onlyAt_write16be q L.checksumOffset v
    unfold Layout.addresses
    split
    · exact only.slice fun i _ high => by omega
    · rename_i v6
      rw [if_neg v6] at hdr
      exact only.slice fun i _ high => by omega
  rw [coveredSum, coveredSum, repairTransport, addresses, addresses,
    Bytes.wordSum_write16be (by omega) (by omega) room.2.1 (by omega), Nat.mod_eq_of_lt small]
  omega

theorem coveredSum_le (d : L.Describes p) (there : L.hasTransport = true) {q : Bytes}
    (length : q.length = p.length) :
    L.coveredSum q ≤ 65535 * 17 + L.transportTotal + 65535 * ((L.transportTotal + 1) / 2) := by
  have inside := d.covered_inside there
  have header := d.header
  have hdr := d.ipHdrLen
  have proto := L.proto.toNat_lt
  have slice := wordSum_le (q.slice L.transportOffset L.transportTotal)
  rw [Bytes.slice_length (by omega)] at slice
  have addresses : wordSum (L.addresses q) ≤ 65535 * 16 := by
    have bound := wordSum_le (L.addresses q)
    have size : (L.addresses q).length ≤ 32 := by
      unfold Layout.addresses
      split <;> rw [Bytes.slice, List.length_take] <;> omega
    omega
  unfold coveredSum
  omega

/-- **When the transport checksum verifies**: exactly when the sum fits the accumulator. -/
theorem repairTransport_verifies_iff (d : L.Describes p) (there : L.hasTransport = true)
    (fits : p.length < 2 ^ 32) {q : Bytes} (length : q.length = p.length) :
    onesSum (L.covered (repairTransport q L)) = 0xFFFF ↔
      L.coveredSum (q.write16be L.checksumOffset 0) < 2 ^ 32 := by
  have inside := d.covered_inside there
  have header := d.header
  have hdr := d.ipHdrLen
  have length' : (repairTransport q L).length = p.length := by simp [repairTransport, length]
  obtain ⟨small, divides, -⟩ := transportChecksum_spec d there length
  have sum := coveredSum_repairTransport d there length
  obtain ⟨up, positive, -⟩ := wordSum_covered d there length' (by omega)
  have bound := coveredSum_le d there (q := q.write16be L.checksumOffset 0) (by simp [length])
  rw [sum] at up
  rw [onesSum_eq_ones_iff, (up.dvd_iff (dvd_refl _))]
  simp only [positive, true_and]
  omega

/-- What no packet of at most 65535 bytes can do. -/
theorem coveredSum_lt (d : L.Describes p) (there : L.hasTransport = true)
    (small : p.length ≤ 65535) {q : Bytes} (length : q.length = p.length) :
    L.coveredSum q < 2 ^ 32 := by
  have inside := d.covered_inside there
  have bound := coveredSum_le d there length
  omega

/-- **The checksums of a repaired packet**, as far as the accumulator carries. -/
theorem packetRecalcChecksums_verifies (valid : (parse p).valid = true)
    (fits : p.length < 2 ^ 32) :
    ((parse p).isV4 = true →
        onesSum ((packetRecalcChecksums p).slice 0 (parse p).ipHdrLen) = 0xFFFF) ∧
      ((parse p).hasTransport = true →
        (onesSum ((parse p).covered (packetRecalcChecksums p)) = 0xFFFF ↔
          (parse p).coveredSum
            ((repairIp p (parse p)).write16be (parse p).checksumOffset 0) < 2 ^ 32) ∧
        ((parse p).proto = PROTO_UDP →
          (packetRecalcChecksums p).read16be (parse p).checksumOffset ≠ 0)) := by
  have d := parse_describes valid
  have length := (repairIp_onlyAt p (parse p)).length
  constructor
  · intro v4
    rw [packetRecalcChecksums_eq valid]
    split
    · rename_i there
      have room := d.checksum_room there
      have start := d.transport
      rw [(repairTransport_onlyAt _ _).slice fun i _ high => by omega]
      exact repairIp_verifies d v4
    · exact repairIp_verifies d v4
  · intro there
    have room := d.checksum_room there
    have inside := d.inside there
    obtain ⟨small, -, nonzero⟩ := transportChecksum_spec d there length
    rw [packetRecalcChecksums_eq valid, if_pos there]
    refine ⟨repairTransport_verifies_iff d there fits length, ?_⟩
    intro udp
    rw [repairTransport, Bytes.read16be_write16be (by omega), Nat.mod_eq_of_lt small]
    exact nonzero udp

end Repairs

/-! ## Specification: repair -/

/-- The accumulators come to the sums they stand for. -/
structure Layout.SumsExact (L : Layout) (p : Bytes) : Prop where
  ip        : L.isV4 = true →
    (sum16 (p.write16be 10 0) 0 L.ipHdrLen 0).toNat =
      wordSum ((p.write16be 10 0).slice 0 L.ipHdrLen)
  transport : L.hasTransport = true →
    (sum16 ((repairIp p L).write16be L.checksumOffset 0) L.transportOffset L.transportTotal
        (pseudoHeaderSum ((repairIp p L).write16be L.checksumOffset 0) L
          L.transportTotal)).toNat =
      wordSum (L.covered ((repairIp p L).write16be L.checksumOffset 0))

/-- **Checksum repair.**  A packet of a length that fits 16 bits has good checksums after it,
no accumulator overflows on the way, nothing else is written, a second call changes nothing,
and what `parse` rejects stays as it is. -/
theorem packetRecalcChecksums_repairs (p : Bytes) (small : p.length ≤ 65535) :
    ((parse p).valid = true →
        (parse p).ChecksumsOk (packetRecalcChecksums p) ∧ (parse p).SumsExact p ∧
          ((parse p).hasTransport = true →
            (parse p).transportOffset + (parse p).transportTotal ≤ p.length)) ∧
      Bytes.OnlyAt (fun i => (parse p).valid = true ∧ (parse p).InChecksum i) p
        (packetRecalcChecksums p) ∧
      packetRecalcChecksums (packetRecalcChecksums p) = packetRecalcChecksums p ∧
      ((parse p).valid = false → packetRecalcChecksums p = p) := by
  refine ⟨?_, packetRecalcChecksums_onlyAt p, packetRecalcChecksums_idempotent p, ?_⟩
  · intro valid
    have d := parse_describes valid
    have length := (repairIp_onlyAt p (parse p)).length
    obtain ⟨ip, transport⟩ := packetRecalcChecksums_verifies valid (by omega)
    refine ⟨⟨ip, ?_, fun there => (transport there).2⟩,
      ⟨fun _ => ipSum_toNat d (by simp), ?_⟩, d.covered_inside⟩
    · intro there
      exact (transport there).1.2 (coveredSum_lt d there small (by simp [length]))
    · intro there
      have inside := d.covered_inside there
      have blank : ((repairIp p (parse p)).write16be (parse p).checksumOffset 0).length =
          p.length := by simp [length]
      have sum := (wordSum_covered d there blank (by omega)).2.2 (by omega)
      rw [accumulator_toNat d there blank, sum,
        Nat.mod_eq_of_lt (coveredSum_lt d there small blank)]
  · intro invalid
    rw [packetRecalcChecksums, if_pos (by simpa using invalid)]

/-- An IPv4 UDP packet with three bytes of payload and both checksums missing. -/
def threeBytes : Bytes :=
  [0x45, 0, 0, 31, 0, 1, 0x40, 0, 64, 17, 0, 0, 10, 0, 0, 1, 10, 0, 0, 2,
    0x9C, 0x40, 0, 53, 0, 11, 0, 0, 0x61, 0x62, 0x63]

theorem packetRecalcChecksums_repairs_threeBytes :
    threeBytes.length ≤ 65535 ∧
      (parse threeBytes).ChecksumsOk (packetRecalcChecksums threeBytes) :=
  ⟨by decide, ((packetRecalcChecksums_repairs threeBytes (by decide)).1 (by decide)).1⟩

/-! ## Specification: RST -/

/-- `packetSetTcpRst`: its answer and what it leaves in the buffer. -/
def setTcpRst (p : Bytes) : Nat × Bytes :=
  let L := parse p
  if !L.valid || L.fragment || decide (L.proto ≠ PROTO_TCP) then (0, p)
  else if L.transportOffset + TCP_MIN_HDR > p.length then (0, p)
  else
    let flags := L.transportOffset + TCP_FLAGS_OFFSET
    let p := p.set flags (p.byteAt flags ||| TCP_FLAG_RST)
    (1, packetRecalcChecksums p)

/-- The modules look at the buffer only where the answer is 1. -/
theorem packetSetTcpRst_eq (p : Bytes) :
    packetSetTcpRst p = if (setTcpRst p).1 = 1 then some (setTcpRst p).2 else none := by
  simp only [packetSetTcpRst, setTcpRst]
  split
  · rfl
  · split <;> rfl

namespace Layout

def flagsOffset (L : Layout) : Nat := L.transportOffset + TCP_FLAGS_OFFSET

/-- The packet with the RST flag set, before the checksums. -/
def flagged (L : Layout) (p : Bytes) : Bytes :=
  p.set L.flagsOffset (p.byteAt L.flagsOffset ||| TCP_FLAG_RST)

def IsTcp (L : Layout) : Prop := L.valid = true ∧ L.fragment = false ∧ L.proto = PROTO_TCP

instance (L : Layout) : Decidable L.IsTcp := inferInstanceAs (Decidable (_ ∧ _))

theorem IsTcp.hasTransport {L : Layout} (tcp : L.IsTcp) : L.hasTransport = true :=
  L.hasTransport_iff.2 ⟨tcp.2.1, .inl tcp.2.2⟩

theorem flagged_onlyAt (L : Layout) (p : Bytes) :
    Bytes.OnlyAt (· = L.flagsOffset) p (L.flagged p) :=
  Bytes.onlyAt_set p _ _

end Layout

section Rst

variable {p : Bytes}

theorem setTcpRst_of_tcp (tcp : (parse p).IsTcp) :
    setTcpRst p = (1, packetRecalcChecksums ((parse p).flagged p)) := by
  have d := parse_describes tcp.1
  have inside := d.inside tcp.hasTransport
  have long := (d.transportLen_ge tcp.hasTransport).2 tcp.2.2
  have room : ¬(parse p).transportOffset + TCP_MIN_HDR > p.length := by
    simp only [TCP_MIN_HDR]
    omega
  simp only [setTcpRst, tcp.1, tcp.2.1, tcp.2.2, if_neg room]
  rfl

theorem setTcpRst_of_not_tcp (other : ¬(parse p).IsTcp) : setTcpRst p = (0, p) := by
  rw [setTcpRst, if_pos]
  by_contra all
  simp only [Bool.or_eq_true, Bool.not_eq_true', decide_eq_true_eq, not_or, Bool.not_eq_false,
    Bool.not_eq_true, not_not] at all
  exact other ⟨all.1.1, all.1.2, all.2⟩

/-- Setting the flag moves nothing. -/
theorem parse_flagged (tcp : (parse p).IsTcp) : parse ((parse p).flagged p) = parse p := by
  have d := parse_describes tcp.1
  have header := d.header
  have start := d.transport
  have only := (parse p).flagged_onlyAt p
  refine (parse_congr only.length.symm (fun i early => (only.same i ?_).symm)
    fun _ => (only.same _ ?_).symm).symm
  · simp only [flagsOffset, TCP_FLAGS_OFFSET]
    omega
  · simp only [flagsOffset, TCP_FLAGS_OFFSET]
    omega

theorem flagged_eq_self {L : Layout} {q : Bytes} {b : UInt8}
    (set : q.byteAt L.flagsOffset = b ||| TCP_FLAG_RST) : L.flagged q = q := by
  apply Bytes.ext_byteAt (L.flagged_onlyAt q).length
  intro i
  by_cases here : i = L.flagsOffset
  · subst here
    rw [flagged, Bytes.byteAt_set]
    split
    · rw [set, UInt8.or_assoc, UInt8.or_self]
    · rfl
  · exact (L.flagged_onlyAt q).same i here

/-- The IP checksum is no part of what the transport checksum covers. -/
theorem coveredSum_repairIp {L : Layout} (d : L.Describes p) (v : UInt32) :
    L.coveredSum ((repairIp p L).write16be L.checksumOffset v) =
      L.coveredSum (p.write16be L.checksumOffset v) := by
  have only := (repairIp_onlyAt p L).write16be L.checksumOffset v
  have header := d.header
  have start := d.transport
  have addresses : L.addresses ((repairIp p L).write16be L.checksumOffset v) =
      L.addresses (p.write16be L.checksumOffset v) := by
    unfold Layout.addresses
    split
    · exact only.slice fun i low _ => by omega
    · rename_i v6
      exact only.slice fun i _ _ touched => v6 touched.1.1
  rw [coveredSum, coveredSum, addresses, only.slice fun i low _ => by omega]

/-- What a successful call leaves in the buffer. -/
structure Reset (L : Layout) (p q : Bytes) : Prop where
  flag     : q.byteAt L.flagsOffset = p.byteAt L.flagsOffset ||| TCP_FLAG_RST
  only     : Bytes.OnlyAt (fun i => i = L.flagsOffset ∨ L.InChecksum i) p q
  ip       : L.isV4 = true → onesSum (q.slice 0 L.ipHdrLen) = 0xFFFF
  /-- The transport checksum verifies as long as its sum fits the accumulator. -/
  verifies : onesSum (L.covered q) = 0xFFFF ↔
    L.coveredSum ((L.flagged p).write16be L.checksumOffset 0) < 2 ^ 32

theorem byteAt_flags (tcp : (parse p).IsTcp) :
    (packetRecalcChecksums ((parse p).flagged p)).byteAt (parse p).flagsOffset =
      p.byteAt (parse p).flagsOffset ||| TCP_FLAG_RST := by
  have d := parse_describes tcp.1
  have inside := d.inside tcp.hasTransport
  have long := (d.transportLen_ge tcp.hasTransport).2 tcp.2.2
  have second := packetRecalcChecksums_onlyAt ((parse p).flagged p)
  rw [parse_flagged tcp] at second
  have unwritten : ¬(parse p).InChecksum (parse p).flagsOffset := by
    have header := d.header
    have start := d.transport
    rintro (⟨-, here⟩ | ⟨-, here⟩)
    · simp only [flagsOffset, TCP_FLAGS_OFFSET] at here
      omega
    · simp only [flagsOffset, TCP_FLAGS_OFFSET, checksumOffset, tcp.2.2, if_true] at here
      omega
  rw [second.same _ fun written => unwritten written.2, flagged, Bytes.byteAt_set_self]
  simp only [flagsOffset, TCP_FLAGS_OFFSET]
  omega

theorem setTcpRst_reset (tcp : (parse p).IsTcp) (uint : p.length < 2 ^ 32) :
    Reset (parse p) p (setTcpRst p).2 := by
  have there := tcp.hasTransport
  have same := parse_flagged tcp
  have valid : (parse ((parse p).flagged p)).valid = true := by rw [same]; exact tcp.1
  have first := (parse p).flagged_onlyAt p
  have d := parse_describes valid
  have second := (packetRecalcChecksums_onlyAt ((parse p).flagged p)).mono fun _ here => here.2
  obtain ⟨ip, transport⟩ := packetRecalcChecksums_verifies valid (by rw [first.length]; exact uint)
  rw [same] at d second ip transport
  rw [coveredSum_repairIp d] at transport
  rw [setTcpRst_of_tcp tcp]
  exact ⟨byteAt_flags tcp, first.trans second, ip, (transport there).1⟩

theorem setTcpRst_setTcpRst (p : Bytes) : setTcpRst (setTcpRst p).2 = setTcpRst p := by
  by_cases tcp : (parse p).IsTcp
  · have again := parse_packetRecalcChecksums ((parse p).flagged p)
    rw [parse_flagged tcp] at again
    have tcp' : (parse (packetRecalcChecksums ((parse p).flagged p))).IsTcp := by
      rw [again]
      exact tcp
    rw [setTcpRst_of_tcp tcp, setTcpRst_of_tcp tcp', again, flagged_eq_self (byteAt_flags tcp),
      packetRecalcChecksums_idempotent]
  · rw [setTcpRst_of_not_tcp tcp]
    exact setTcpRst_of_not_tcp tcp

/-- **All or nothing.**  A call answers 1 exactly for a TCP header.  Then the RST flag is
set, only it and the checksums are written, and these verify, the transport checksum as long
as its sum fits the accumulator, which it does for every packet.  Otherwise the call answers
0 and leaves the buffer alone.  Calling again changes nothing. -/
theorem setTcpRst_all_or_nothing (p : Bytes) (uint : p.length < 2 ^ 32) :
    ((setTcpRst p).1 = 1 ↔ (parse p).IsTcp) ∧
      ((parse p).IsTcp → Reset (parse p) p (setTcpRst p).2 ∧
        (p.length ≤ 65535 → onesSum ((parse p).covered (setTcpRst p).2) = 0xFFFF)) ∧
      (¬(parse p).IsTcp → setTcpRst p = (0, p)) ∧
      setTcpRst (setTcpRst p).2 = setTcpRst p := by
  refine ⟨?_, fun tcp => ⟨setTcpRst_reset tcp uint, fun small => ?_⟩, setTcpRst_of_not_tcp,
    setTcpRst_setTcpRst p⟩
  · by_cases tcp : (parse p).IsTcp
    · simp [setTcpRst_of_tcp tcp, tcp]
    · simp [setTcpRst_of_not_tcp tcp, tcp]
  · have first := (parse p).flagged_onlyAt p
    exact (setTcpRst_reset tcp uint).verifies.2 (coveredSum_lt (parse_describes tcp.1)
      tcp.hasTransport small (by simp [first.length]))

/-- A TCP segment without data. -/
def bareAck : Bytes :=
  [0x45, 0, 0, 40, 0, 1, 0x40, 0, 64, 6, 0, 0, 10, 0, 0, 1, 10, 0, 0, 2,
    0x9C, 0x40, 0, 80, 0, 0, 0, 1, 0, 0, 0, 2, 0x50, 0x10, 0x20, 0, 0, 0, 0, 0]

theorem setTcpRst_all_or_nothing_bareAck :
    bareAck.length < 2 ^ 32 ∧ ((setTcpRst bareAck).1 = 1 ↔ (parse bareAck).IsTcp) :=
  ⟨by decide, (setTcpRst_all_or_nothing bareAck (by decide)).1⟩

/-- Headers with a total length that `parse` does not believe. -/
def unlimited : Bytes :=
  [0x45, 0, 0, 0, 0, 1, 0x40, 0, 64, 6, 0, 0, 10, 0, 0, 1, 10, 0, 0, 2,
    0x9C, 0x40, 0, 80, 0, 0, 0, 1, 0, 0, 0, 2, 0x50, 0x10, 0x20, 0, 0, 0, 0, 0]

/-- A buffer longer than any packet. -/
def oversized (n : Nat) : Bytes := unlimited ++ List.replicate n 0xFF

theorem oversized_length (n : Nat) : (oversized n).length = 40 + n := by
  rw [oversized, List.length_append, List.length_replicate]
  rfl

theorem byteAt_oversized (n : Nat) {i : Nat} (early : i < 40) :
    (oversized n).byteAt i = unlimited.byteAt i := by
  have inside : i < unlimited.length := early
  exact Bytes.byteAt_append_left inside

theorem parse_oversized (n : Nat) :
    parse (oversized n) =
      { valid := true, isV4 := true, ipHdrLen := 20, proto := PROTO_TCP, transportOffset := 20,
        transportLen := 20, payloadOffset := 40, payloadLen := n } := by
  have length := oversized_length n
  have first : (oversized n).byteAt 0 = 0x45 := byteAt_oversized n (by decide)
  have total : (oversized n).read16be 2 = 0 :=
    Bytes.read16be_congr (byteAt_oversized n (by decide)) (byteAt_oversized n (by decide))
  have flags : (oversized n).read16be 6 = 0x4000 :=
    Bytes.read16be_congr (byteAt_oversized n (by decide)) (byteAt_oversized n (by decide))
  have proto : (oversized n).byteAt 9 = PROTO_TCP := byteAt_oversized n (by decide)
  have dataOffset : (oversized n).byteAt 32 = 0x50 := byteAt_oversized n (by decide)
  generalize oversized n = p at *
  simp [parse, parseTransport, length, first, total, flags, proto, dataOffset, IPV4_MIN_HDR,
    TCP_MIN_HDR, show ¬40 + n < 20 by omega]

theorem wordSum_ones (m : Nat) : wordSum (List.replicate (2 * m) 0xFF) = 65535 * m := by
  induction m with
  | zero => rfl
  | succ m ih =>
      rw [Nat.mul_succ, List.replicate_succ, List.replicate_succ, wordSum_pair, ih]
      show 255 * 256 + 255 + 65535 * m = _
      omega

theorem slice_oversized (n : Nat) : (oversized n).slice 40 n = List.replicate n 0xFF := by
  have size : unlimited.length = 40 := rfl
  rw [Bytes.slice, oversized, List.drop_left' size, List.take_of_length_le (by simp)]

/-- The ones alone are too much. -/
theorem oversized_overflows {m : Nat} (large : 65538 ≤ m) :
    2 ^ 32 ≤ (parse (oversized (2 * m))).coveredSum (((parse (oversized (2 * m))).flagged
      (oversized (2 * m))).write16be (parse (oversized (2 * m))).checksumOffset 0) := by
  have length := oversized_length (2 * m)
  have written := ((parse (oversized (2 * m))).flagged_onlyAt (oversized (2 * m))).trans
    (Bytes.onlyAt_write16be _ (parse (oversized (2 * m))).checksumOffset 0)
  rw [parse_oversized] at written ⊢
  generalize Bytes.write16be _ _ _ = q at written ⊢
  have ones : q.slice 40 (2 * m) = List.replicate (2 * m) 0xFF := by
    rw [written.slice fun i low _ => by
      simp only [flagsOffset, TCP_FLAGS_OFFSET, checksumOffset, if_true]
      omega, slice_oversized]
  have headers : (q.slice 20 20).length % 2 = 0 := by
    rw [Bytes.slice_length (by rw [written.length, length]; omega)]
  simp only [coveredSum, transportTotal]
  rw [Bytes.slice_append, wordSum_append _ _ headers, ones, wordSum_ones]
  omega

/-- A buffer of 131 kB is too much for the accumulator. -/
theorem setTcpRst_overflows :
    (setTcpRst (oversized 131076)).1 = 1 ∧
      onesSum ((parse (oversized 131076)).covered (setTcpRst (oversized 131076)).2) ≠ 0xFFFF := by
  have length := oversized_length 131076
  have tcp : (parse (oversized 131076)).IsTcp := by
    rw [parse_oversized]
    exact ⟨rfl, rfl, rfl⟩
  refine ⟨by rw [setTcpRst_of_tcp tcp], ?_⟩
  intro verifies
  have fits := (setTcpRst_reset tcp (by rw [length]; decide)).verifies.1 verifies
  have overflows := oversized_overflows (le_refl 65538)
  exact absurd fits (Nat.not_lt.2 overflows)

end Rst

end Clumsy.Packet
