/-
# Modules.TamperBlock -- which bytes tampering changes

A tampered packet differs from the one that came in on one block of the payload: all of it
up to four bytes, a quarter of a longer one, and every byte of the block differs.  Apart
from that only the checksums do, and these are never in a payload (`Tampered`,
`tamperProcess_tampers`).
-/
import Clumsy.Modules.Rewrite
import Clumsy.Packet.Checksum

namespace Clumsy.Modules

open Clumsy.Theory
open Clumsy.Packet

set_option autoImplicit false

variable {β : Type}

/-! ## The overlay -/

theorem patterns_ne_zero (patIx : Nat) : Tamper.patterns.getD (patIx % 8) 0 ≠ 0 := by
  have every : ∀ ix < 8, Tamper.patterns.getD ix 0 ≠ 0 := by decide
  exact every _ (Nat.mod_lt _ (by decide))

theorem xor_ne_self {a b : UInt8} (some_ : b ≠ 0) : a ^^^ b ≠ a := by
  intro same
  apply some_
  calc b = a ^^^ (a ^^^ b) := by rw [← UInt8.xor_assoc, UInt8.xor_self, UInt8.zero_xor]
    _ = 0 := by rw [same, UInt8.xor_self]

/-- The overlay changes every byte of its block and no other. -/
theorem tamperBuf_changes {len offset patIx : Nat} {p : Bytes} (inside : offset + len ≤ p.length)
    (i : Nat) :
    Bytes.byteAt (tamperBuf len offset patIx p).2 i ≠ p.byteAt i ↔
      offset ≤ i ∧ i < offset + len := by
  induction len generalizing offset patIx p with
  | zero => simp [tamperBuf]
  | succ len ih =>
      have rest := @ih (offset + 1) (patIx + 1)
        (p.set offset (p.byteAt offset ^^^ Tamper.patterns.getD (patIx % 8) 0))
        (by rw [List.length_set]; omega)
      rw [tamperBuf]
      by_cases here : i = offset
      · subst here
        have written := Bytes.byteAt_set_self (p := p) (i := i) (by omega)
          (p.byteAt i ^^^ Tamper.patterns.getD (patIx % 8) 0)
        have kept : Bytes.byteAt (tamperBuf len (i + 1) (patIx + 1)
            (p.set i (p.byteAt i ^^^ Tamper.patterns.getD (patIx % 8) 0))).2 i =
            p.byteAt i ^^^ Tamper.patterns.getD (patIx % 8) 0 := by
          by_contra changed
          have moved := rest.1 (written.symm ▸ changed)
          omega
        rw [kept]
        exact iff_of_true (xor_ne_self (patterns_ne_zero patIx)) (by omega)
      · rw [Bytes.byteAt_set_ne _ here] at rest
        rw [rest]
        omega

/-! ## One packet -/

/-- The size of the block in a payload of `len` bytes. -/
def blockSize (len : Nat) : Nat := if len ≤ 4 then len else len / 4

/-- `q` is `p` tampered with, where the payload is `len` bytes from `data`. -/
structure Tampered (doChecksum : Bool) (data len : Nat) (p q : Bytes) : Prop where
  length  : q.length = p.length
  /-- The block: the bytes of the payload that differ. -/
  block   : ∃ start, data ≤ start ∧ start + blockSize len ≤ data + len ∧
    ∀ i, data ≤ i → i < data + len →
      (q.byteAt i ≠ p.byteAt i ↔ start ≤ i ∧ i < start + blockSize len)
  outside : ∀ i, i < data ∨ data + len ≤ i → (doChecksum = true → ¬(parse p).InChecksum i) →
    q.byteAt i = p.byteAt i

namespace Tamper

/-- The four positions keep the quarter inside the payload. -/
theorem offset_inside (tamper : Tamper) {dataLen : Nat} (long : 4 < dataLen) (d : Draws) :
    (tamper.offset dataLen d).1 + dataLen / 4 ≤ dataLen := by
  have random := Nat.mod_lt (d.rand 0) (show 0 < dataLen - dataLen / 4 + 1 by omega)
  simp only [offset]
  split_ifs
  · show 0 + dataLen / 4 ≤ dataLen
    omega
  · show dataLen - dataLen / 4 + dataLen / 4 ≤ dataLen
    omega
  · show d.rand 0 % (dataLen - dataLen / 4 + 1) + dataLen / 4 ≤ dataLen
    omega
  · show dataLen / 2 - dataLen / 4 / 2 + 1 + dataLen / 4 ≤ dataLen
    omega

/-- Before the checksums: one block, and nothing else. -/
theorem overlay_changes (tamper : Tamper) (s : Draws × Nat) {data dataLen : Nat} {p : Bytes}
    (inside : data + dataLen ≤ p.length) :
    ∃ start, data ≤ start ∧ start + blockSize dataLen ≤ data + dataLen ∧
      ∀ i, (tamper.overlay s data dataLen p).2.2.byteAt i ≠ p.byteAt i ↔
        start ≤ i ∧ i < start + blockSize dataLen := by
  unfold overlay blockSize
  by_cases short : dataLen ≤ 4
  · rw [if_pos short, if_pos short]
    exact ⟨data, le_refl _, le_refl _, tamperBuf_changes inside⟩
  · have fits := tamper.offset_inside (Nat.lt_of_not_le short) s.1
    rw [if_neg short, if_neg short]
    exact ⟨data + (tamper.offset dataLen s.1).1, Nat.le_add_right _ _, by omega,
      tamperBuf_changes (by omega)⟩

end Tamper

/-- A packet with another payload has the same layout. -/
theorem parse_payload {p q : Bytes} {data len : Nat} (found : packetGetPayload p = some (data, len))
    (only : Bytes.OnlyAt (fun i => data ≤ i) p q) : parse q = parse p := by
  obtain ⟨valid, there, at_⟩ := packetGetPayload_found found
  have d := parse_describes valid
  have header := d.header
  have start := d.transport
  obtain ⟨short, long⟩ := d.transportLen_ge there
  refine (parse_congr only.length.symm (fun i early => (only.same i (by omega)).symm) ?_).symm
  intro tcp
  have size := long tcp
  exact (only.same _ (by omega)).symm

/-- The checksums are in the headers. -/
theorem inChecksum_lt {p : Bytes} {data len : Nat} (found : packetGetPayload p = some (data, len))
    {i : Nat} (checksum : (parse p).InChecksum i) : i < data := by
  obtain ⟨valid, there, at_⟩ := packetGetPayload_found found
  have d := parse_describes valid
  have header := d.header
  have start := d.transport
  have room := d.checksum_room there
  rcases checksum with ⟨-, ip⟩ | ⟨-, transport⟩ <;> omega

namespace Tamper

theorem overlay_tampered (tamper : Tamper) (s : Draws × Nat) {data dataLen : Nat} {p : Bytes}
    (found : packetGetPayload p = some (data, dataLen)) :
    Tampered tamper.doChecksum data dataLen p
      (if tamper.doChecksum then packetRecalcChecksums (tamper.overlay s data dataLen p).2.2
        else (tamper.overlay s data dataLen p).2.2) := by
  have inside := (packetGetPayload_inside found).2
  have length := tamper.overlay_length s data dataLen p
  obtain ⟨start, behind, fits, changes⟩ := tamper.overlay_changes s inside
  generalize (tamper.overlay s data dataLen p).2.2 = q at length changes ⊢
  have unchanged {i : Nat} (apart : i < data ∨ data + dataLen ≤ i) :
      q.byteAt i = p.byteAt i := by
    by_contra changed
    have here := (changes i).1 changed
    omega
  by_cases repairs : tamper.doChecksum = true
  · have same : parse q = parse p :=
      parse_payload found ⟨length, fun i apart => unchanged (.inl (Nat.lt_of_not_le apart))⟩
    have only := (packetRecalcChecksums_onlyAt q).mono fun _ here => here.2
    rw [same] at only
    rw [if_pos repairs]
    refine ⟨only.length.trans length, ⟨start, behind, fits, ?_⟩, ?_⟩
    · intro i low high
      have payload : ¬(parse p).InChecksum i := fun here => by
        have header := inChecksum_lt found here
        omega
      rw [only.same i payload, changes i]
    · intro i apart spared
      rw [only.same i (spared repairs), unchanged apart]
  · rw [if_neg repairs]
    exact ⟨length, ⟨start, behind, fits, fun i _ _ => changes i⟩,
      fun i apart _ => unchanged apart⟩

/-- What becomes of one packet. -/
theorem rewrite_tampers (tamper : Tamper) (s : Draws × Nat × Nat) (pac : PacketNode β) :
    (tamper.rewrite s pac).2 = pac ∨
      ∃ data len q, packetGetPayload pac.packet = some (data, len) ∧
        (tamper.rewrite s pac).2 = withPacket pac q ∧
        Tampered tamper.doChecksum data len pac.packet q := by
  simp only [rewrite]
  split
  · split
    · cases found : packetGetPayload pac.packet with
      | none => exact .inl rfl
      | some payload =>
          exact .inr ⟨payload.1, payload.2, _, rfl, rfl, tamper.overlay_tampered _ found⟩
    · exact .inl rfl
  · exact .inl rfl

end Tamper

/-! ## Specification -/

/-- **What tampering does to a queue.**  Every packet is left alone or has a payload and is
tampered with there. -/
theorem tamperProcess_tampers (env : ProcEnv) (main : List (PacketNode β)) (tamper : Tamper) :
    List.Forall₂ (fun pac pac' => pac' = pac ∨
        ∃ data len q, packetGetPayload pac.packet = some (data, len) ∧ pac' = withPacket pac q ∧
          Tampered tamper.doChecksum data len pac.packet q)
      main (tamperProcess env main tamper).main :=
  rewriteEach_forall₂ tamper.rewrite tamper.rewrite_tampers main _

end Clumsy.Modules
