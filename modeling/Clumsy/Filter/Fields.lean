/-
# Filter.Fields -- the filter's packet parser against the modules' one

`extractFields` decides which packets a filter selects, `parse` which bytes the modules
change.  They were written apart and check different lengths; where `parse` accepts a packet
they see the same one (`extractFields_agrees`).  The filter is content with less: four bytes
of a transport header are enough for its ports.
-/
import Clumsy.Filter.Program
import Clumsy.Packet.Header

namespace Clumsy.Filter

open Clumsy.Packet

set_option autoImplicit false

theorem extractPorts_keeps (p : Bytes) (transportOffset : Nat) (f : PacketFields) :
    (extractPorts p transportOffset f).valid = true ∧
      (extractPorts p transportOffset f).isV4 = f.isV4 ∧
      (extractPorts p transportOffset f).protocol = f.protocol := by
  unfold extractPorts
  split <;> exact ⟨rfl, rfl, rfl⟩

theorem extractPorts_ports {p : Bytes} {transportOffset : Nat} {f : PacketFields}
    (known : f.protocol = 6 ∨ f.protocol = 17) (long : transportOffset + 4 ≤ p.length) :
    (extractPorts p transportOffset f).hasPorts = true ∧
      (extractPorts p transportOffset f).srcPort.toNat = p.read16be transportOffset ∧
      (extractPorts p transportOffset f).dstPort.toNat = p.read16be (transportOffset + 2) := by
  have word (i : Nat) : (UInt32.ofNat (p.read16be i)).toNat = p.read16be i := by
    have high := (p.byteAt i).toNat_lt
    have low := (p.byteAt (i + 1)).toNat_lt
    rw [UInt32.toNat_ofNat', Nat.mod_eq_of_lt]
    rw [Bytes.read16be]
    omega
  rw [extractPorts, if_pos ⟨known, long⟩]
  exact ⟨rfl, word _, word _⟩

/-- What `extractFields` makes of a packet that `parse` accepts. -/
theorem extractFields_eq {p : Bytes} (valid : (parse p).valid = true) :
    extractFields p =
      if (parse p).fragment then
        { valid := true, isV4 := true, protocol := (parse p).proto.toUInt32
          srcAddr := read32be p 12, dstAddr := read32be p 16 }
      else extractPorts p (parse p).transportOffset
        (if (parse p).isV4 then
          { isV4 := true, protocol := (parse p).proto.toUInt32
            srcAddr := read32be p 12, dstAddr := read32be p 16 }
        else { protocol := (parse p).proto.toUInt32 }) := by
  have d := parse_describes valid
  have version := d.version
  have hdr := d.ipHdrLen
  have header := d.header
  have fragment := d.fragment
  have proto := d.proto
  rw [d.transport]
  cases v4 : (parse p).isV4 with
  | true =>
      simp only [v4, if_true, Bool.true_and] at version hdr fragment proto
      rw [extractFields, if_neg (by omega)]
      simp only [version, if_true]
      rw [if_neg (by omega), proto, fragment, hdr]
      simp only [decide_eq_true_eq]
  | false =>
      simp only [v4, Bool.false_eq_true, if_false, Bool.false_and] at version hdr fragment proto
      rw [extractFields, if_neg (by omega)]
      simp only [version, fragment, proto, hdr]
      simp
      omega

/-- **The two parsers agree.**  What `parse` accepts is a packet to the filter too, of the
same version and protocol; a TCP or UDP header gives its ports, a fragment none. -/
theorem extractFields_agrees (p : Bytes) :
    ((parse p).valid = true →
        (extractFields p).valid = true ∧ (extractFields p).isV4 = (parse p).isV4 ∧
          (extractFields p).protocol = (parse p).proto.toUInt32 ∧
          ((parse p).hasTransport = true →
            (extractFields p).hasPorts = true ∧
              (extractFields p).srcPort.toNat = p.read16be (parse p).transportOffset ∧
              (extractFields p).dstPort.toNat = p.read16be ((parse p).transportOffset + 2))) ∧
      ((parse p).fragment = true → (extractFields p).hasPorts = false) := by
  constructor
  · intro valid
    have d := parse_describes valid
    rw [extractFields_eq valid]
    cases fragment : (parse p).fragment with
    | true =>
        have v4 : (parse p).isV4 = true := by
          have both := d.fragment
          rw [fragment] at both
          exact (Bool.and_eq_true_iff.1 both.symm).1
        refine ⟨rfl, v4.symm, rfl, ?_⟩
        intro there
        rw [Layout.hasTransport, fragment, Bool.not_true, Bool.false_and] at there
        exact absurd there Bool.false_ne_true
    | false =>
        rw [if_neg Bool.false_ne_true]
        obtain ⟨good, version, protocol⟩ := extractPorts_keeps p (parse p).transportOffset
          (if (parse p).isV4 then
            { isV4 := true, protocol := (parse p).proto.toUInt32
              srcAddr := read32be p 12, dstAddr := read32be p 16 }
          else { protocol := (parse p).proto.toUInt32 })
        refine ⟨good, ?_, ?_, ?_⟩
        · rw [version]
          cases (parse p).isV4 <;> rfl
        · rw [protocol]
          cases (parse p).isV4 <;> rfl
        · intro there
          have inside := d.inside there
          have long := d.transportLen_ge there
          apply extractPorts_ports _ (by omega)
          have known : (parse p).proto.toUInt32 = 6 ∨ (parse p).proto.toUInt32 = 17 := by
            rcases ((parse p).hasTransport_iff.1 there).2 with tcp | udp
            · exact .inl (by rw [tcp]; rfl)
            · exact .inr (by rw [udp]; rfl)
          cases (parse p).isV4 <;> exact known
  · intro fragment
    rw [extractFields_eq (parse_valid_of_fragment fragment), if_pos fragment]

/-- An IPv4 UDP packet with options in front of the ports. -/
def withOptions : Bytes :=
  [0x46, 0, 0, 33, 0, 1, 0x40, 0, 64, 17, 0, 0, 10, 0, 0, 1, 10, 0, 0, 2, 1, 1, 1, 0,
    0x9C, 0x40, 0, 53, 0, 9, 0, 0, 0x61]

theorem extractFields_agrees_withOptions :
    (parse withOptions).valid = true ∧ (parse withOptions).hasTransport = true ∧
      (extractFields withOptions).dstPort.toNat = 53 :=
  ⟨by decide, by decide, (((extractFields_agrees withOptions).1 (by decide)).2.2.2
    (by decide)).2.2.trans (by decide)⟩

end Clumsy.Filter
