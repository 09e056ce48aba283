/-
# Filter.Vary -- packets that differ in one field

Every readable packet has another one beside it with a different protocol
(`exists_other_protocol`), source (`exists_other_src`) or destination
(`exists_other_dst`): one byte of the header is enough.  What a filter says about a field
is therefore never true of all packets.
-/
import Clumsy.Filter.Program
import Clumsy.Packet.Header

namespace Clumsy.Filter

open Clumsy.Packet

set_option autoImplicit false

theorem read32be_toNat (p : Bytes) (i : Nat) :
    (read32be p i).toNat = p.read16be i * 65536 + p.read16be (i + 2) := by
  have a := (p.byteAt i).toNat_lt
  have b := (p.byteAt (i + 1)).toNat_lt
  have c := (p.byteAt (i + 2)).toNat_lt
  have d := (p.byteAt (i + 2 + 1)).toNat_lt
  rw [read32be, UInt32.toNat_ofNat', Nat.mod_eq_of_lt]
  simp only [Bytes.read16be]
  omega

section OneByte

variable {k : Nat} {p q : Bytes} (only : Bytes.OnlyAt (· = k) p q)
include only

theorem read16be_apart {i : Nat} (apart : k < i ∨ i + 1 < k) : q.read16be i = p.read16be i := by
  rw [Bytes.read16be, Bytes.read16be, only.same i (by omega), only.same (i + 1) (by omega)]

theorem read32be_apart {i : Nat} (apart : k < i ∨ i + 3 < k) : read32be q i = read32be p i := by
  rw [read32be, read32be, read16be_apart only (by omega), read16be_apart only (by omega)]

theorem extractPorts_apart {offset : Nat} (before : k < offset) (f : PacketFields) :
    extractPorts q offset f = extractPorts p offset f := by
  rw [extractPorts, extractPorts, only.length, read16be_apart only (.inl before),
    read16be_apart only (.inl (by omega))]

end OneByte

/-- What the ports leave alone. -/
theorem extractPorts_frame (p : Bytes) (offset : Nat) (f : PacketFields) :
    (extractPorts p offset f).valid = true ∧ (extractPorts p offset f).isV4 = f.isV4 ∧
      (extractPorts p offset f).srcAddr = f.srcAddr ∧
      (extractPorts p offset f).dstAddr = f.dstAddr ∧
      (extractPorts p offset f).protocol = f.protocol := by
  unfold extractPorts
  split <;> exact ⟨rfl, rfl, rfl, rfl, rfl⟩

/-- Where the fields of a readable packet are. -/
theorem extractFields_shape {p : Bytes} (valid : (extractFields p).valid = true) :
    20 ≤ p.length ∧
      ((extractFields p).isV4 = true ∧ (p.byteAt 0).toNat / 16 = 4 ∧
          20 ≤ (p.byteAt 0).toNat % 16 * 4 ∧ (p.byteAt 0).toNat % 16 * 4 ≤ p.length ∨
        (extractFields p).isV4 = false ∧ (p.byteAt 0).toNat / 16 = 6 ∧ 40 ≤ p.length) := by
  unfold extractFields at valid ⊢
  simp only at valid ⊢
  split_ifs at valid ⊢ with short four header fragment six short'
  · exact ⟨by omega, .inl ⟨rfl, four, by omega, by omega⟩⟩
  · exact ⟨by omega, .inl ⟨(extractPorts_frame p _ _).2.1, four, by omega, by omega⟩⟩
  · exact ⟨by omega, .inr ⟨(extractPorts_frame p _ _).2.1, six, by omega⟩⟩

theorem extractFields_v4_eq {p : Bytes} (long : 20 ≤ p.length)
    (four : (p.byteAt 0).toNat / 16 = 4) (header : 20 ≤ (p.byteAt 0).toNat % 16 * 4)
    (inside : (p.byteAt 0).toNat % 16 * 4 ≤ p.length) :
    extractFields p =
      if p.read16be 6 % 0x2000 ≠ 0 then
        { valid := true, isV4 := true, protocol := (p.byteAt 9).toUInt32
          srcAddr := read32be p 12, dstAddr := read32be p 16 }
      else
        extractPorts p ((p.byteAt 0).toNat % 16 * 4)
          { isV4 := true, protocol := (p.byteAt 9).toUInt32
            srcAddr := read32be p 12, dstAddr := read32be p 16 } := by
  unfold extractFields
  rw [if_neg (by omega)]
  simp only
  rw [if_pos four, if_neg (by omega)]

/-- What of a readable IPv4 packet is not about ports. -/
theorem extractFields_v4 {p : Bytes} (long : 20 ≤ p.length) (four : (p.byteAt 0).toNat / 16 = 4)
    (header : 20 ≤ (p.byteAt 0).toNat % 16 * 4) (inside : (p.byteAt 0).toNat % 16 * 4 ≤ p.length) :
    (extractFields p).valid = true ∧ (extractFields p).isV4 = true ∧
      (extractFields p).srcAddr = read32be p 12 ∧ (extractFields p).dstAddr = read32be p 16 ∧
      (extractFields p).protocol = (p.byteAt 9).toUInt32 := by
  rw [extractFields_v4_eq long four header inside]
  split
  · exact ⟨rfl, rfl, rfl, rfl, rfl⟩
  · exact extractPorts_frame p _ _

theorem extractFields_v6 {p : Bytes} (long : 40 ≤ p.length) (six : (p.byteAt 0).toNat / 16 = 6) :
    (extractFields p).valid = true ∧ (extractFields p).isV4 = false ∧
      (extractFields p).srcAddr = 0 ∧ (extractFields p).dstAddr = 0 ∧
      (extractFields p).protocol = (p.byteAt 6).toUInt32 := by
  unfold extractFields
  rw [if_neg (by omega)]
  simp only
  rw [if_neg (by omega), if_pos six, if_neg (by omega)]
  exact extractPorts_frame p _ _

/-- Another byte. -/
theorem succ_ne (b : UInt8) : (b + 1).toNat ≠ b.toNat := by
  have := b.toNat_lt
  rw [UInt8.toNat_add]
  have : (1 : UInt8).toNat = 1 := rfl
  omega

/-- **Another protocol**, and nothing else that is not about ports. -/
theorem exists_other_protocol {p : Bytes} (valid : (extractFields p).valid = true) :
    ∃ q, (extractFields q).valid = true ∧ (extractFields q).isV4 = (extractFields p).isV4 ∧
      (extractFields q).srcAddr = (extractFields p).srcAddr ∧
      (extractFields q).dstAddr = (extractFields p).dstAddr ∧
      (extractFields q).protocol.toNat ≠ (extractFields p).protocol.toNat := by
  obtain ⟨long, ⟨_, four, header, inside⟩ | ⟨_, six, whole⟩⟩ := extractFields_shape valid
  · have only := Bytes.onlyAt_set p 9 (p.byteAt 9 + 1)
    obtain ⟨_, v4, src, dst, proto⟩ := extractFields_v4 long four header inside
    have first : Bytes.byteAt (p.set 9 (p.byteAt 9 + 1)) 0 = p.byteAt 0 := only.same 0 (by decide)
    rw [← first] at four header
    obtain ⟨valid', v4', src', dst', proto'⟩ := extractFields_v4
      (by rw [only.length]; exact long) four header (by rw [only.length, first]; exact inside)
    refine ⟨_, valid', v4'.trans v4.symm, ?_, ?_, ?_⟩
    · rw [src', src, read32be_apart only (by omega)]
    · rw [dst', dst, read32be_apart only (by omega)]
    · rw [proto', proto, Bytes.byteAt_set_self (by omega)]
      exact succ_ne _
  · have only := Bytes.onlyAt_set p 6 (p.byteAt 6 + 1)
    obtain ⟨_, v6, src, dst, proto⟩ := extractFields_v6 whole six
    have first : Bytes.byteAt (p.set 6 (p.byteAt 6 + 1)) 0 = p.byteAt 0 := only.same 0 (by decide)
    rw [← first] at six
    obtain ⟨valid', v6', src', dst', proto'⟩ := extractFields_v6
      (by rw [only.length]; exact whole) six
    refine ⟨_, valid', v6'.trans v6.symm, src'.trans src.symm, dst'.trans dst.symm, ?_⟩
    rw [proto', proto, Bytes.byteAt_set_self (by omega)]
    exact succ_ne _

/-- The fields of an IPv4 packet with one byte of its addresses changed. -/
theorem extractFields_addr {p q : Bytes} {k : Nat} (only : Bytes.OnlyAt (· = k) p q)
    (addr : 12 ≤ k ∧ k < 20) (valid : (extractFields p).valid = true)
    (v4 : (extractFields p).isV4 = true) :
    extractFields q =
      { extractFields p with srcAddr := read32be q 12, dstAddr := read32be q 16 } := by
  obtain ⟨long, ⟨_, four, header, inside⟩ | ⟨v6, _⟩⟩ := extractFields_shape valid
  · have first : q.byteAt 0 = p.byteAt 0 := only.same 0 (by omega)
    rw [extractFields_v4_eq long four header inside,
      extractFields_v4_eq (by rw [only.length]; exact long) (by rw [first]; exact four)
        (by rw [first]; exact header) (by rw [only.length, first]; exact inside),
      first, only.same 9 (by omega), read16be_apart only (by omega)]
    split
    · rfl
    · rw [extractPorts_apart only (by omega)]
      unfold extractPorts
      simp only
      split <;> rfl
  · rw [v6] at v4
    cases v4

/-- The last byte of an address is part of it. -/
theorem read32be_other {p : Bytes} {i : Nat} (inside : i + 3 < p.length) :
    (read32be (p.set (i + 3) (p.byteAt (i + 3) + 1)) i).toNat ≠ (read32be p i).toNat := by
  have only := Bytes.onlyAt_set p (i + 3) (p.byteAt (i + 3) + 1)
  have other := succ_ne (p.byteAt (i + 3))
  have last : Bytes.byteAt (p.set (i + 3) (p.byteAt (i + 3) + 1)) (i + 3) = p.byteAt (i + 3) + 1 :=
    Bytes.byteAt_set_self inside _
  have rest : Bytes.byteAt (p.set (i + 3) (p.byteAt (i + 3) + 1)) (i + 2) = p.byteAt (i + 2) :=
    only.same (i + 2) (by omega)
  rw [read32be_toNat, read32be_toNat, read16be_apart only (i := i) (by omega)]
  simp only [Bytes.read16be, Nat.add_assoc, Nat.reduceAdd, last, rest]
  omega

/-- **Another source**, and nothing else. -/
theorem exists_other_src {p : Bytes} (valid : (extractFields p).valid = true)
    (v4 : (extractFields p).isV4 = true) :
    ∃ q src, extractFields q = { extractFields p with srcAddr := src } ∧
      src.toNat ≠ (extractFields p).srcAddr.toNat := by
  obtain ⟨long, ⟨_, four, header, inside⟩ | ⟨v6, _⟩⟩ := extractFields_shape valid
  · have only := Bytes.onlyAt_set p 15 (p.byteAt 15 + 1)
    obtain ⟨_, _, src, dst, _⟩ := extractFields_v4 long four header inside
    refine ⟨p.set 15 (p.byteAt 15 + 1), read32be (p.set 15 (p.byteAt 15 + 1)) 12, ?_, ?_⟩
    · rw [extractFields_addr only (by decide) valid v4, read32be_apart only (i := 16) (by omega),
        ← dst]
    · rw [src]
      exact read32be_other (by omega)
  · rw [v6] at v4
    cases v4

/-- **Another destination**, and nothing else. -/
theorem exists_other_dst {p : Bytes} (valid : (extractFields p).valid = true)
    (v4 : (extractFields p).isV4 = true) :
    ∃ q dst, extractFields q = { extractFields p with dstAddr := dst } ∧
      dst.toNat ≠ (extractFields p).dstAddr.toNat := by
  obtain ⟨long, ⟨_, four, header, inside⟩ | ⟨v6, _⟩⟩ := extractFields_shape valid
  · have only := Bytes.onlyAt_set p 19 (p.byteAt 19 + 1)
    obtain ⟨_, _, src, dst, _⟩ := extractFields_v4 long four header inside
    refine ⟨p.set 19 (p.byteAt 19 + 1), read32be (p.set 19 (p.byteAt 19 + 1)) 16, ?_, ?_⟩
    · rw [extractFields_addr only (by decide) valid v4, read32be_apart only (i := 12) (by omega),
        ← src]
    · rw [dst]
      exact read32be_other (by omega)
  · rw [v6] at v4
    cases v4

end Clumsy.Filter
