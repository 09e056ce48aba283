/-
# Capture.Bounce -- what a bounced packet's checksums are worth

A packet that goes out a second time has its source and destination swapped and nothing else
done to it: the code computes no checksum.  It does not have to.  A one's complement sum does
not see the order of its words, so the sums that the IPv4 header checksum and, through the
pseudo-header, the ICMPv6 checksum stand for are what they were (`bounced_checksums`).
-/
import Clumsy.Capture.Windows
import Clumsy.Packet.Checksum

namespace Clumsy.Capture

open Clumsy.Theory
open Clumsy.Packet

set_option autoImplicit false

/-! ## Two neighbouring fields, swapped -/

/-- The `n` bytes at `start` stand where the `n` behind them stood, and the other way round;
all else is where it was. -/
structure Swapped (start n : Nat) (p q : Bytes) : Prop where
  length      : q.length = p.length
  front       : q.slice 0 start = p.slice 0 start
  source      : q.slice start n = p.slice (start + n) n
  destination : q.slice (start + n) n = p.slice start n
  behind      : ∀ offset len, start + n + n ≤ offset → q.slice offset len = p.slice offset len

theorem swapFields_swapped {start n : Nat} {p : Bytes} (room : start + n + n ≤ p.length) :
    Swapped start n p (swapFields start n p) := by
  have before : (p.take start).length = start := by rw [List.length_take]; omega
  have source : (p.slice start n).length = n := Bytes.slice_length (by omega)
  have destination : (p.slice (start + n) n).length = n := Bytes.slice_length (by omega)
  have both : (p.take start ++ p.slice (start + n) n).length = start + n := by
    rw [List.length_append, before, destination]
  have all : (p.take start ++ p.slice (start + n) n ++ p.slice start n).length =
      start + n + n := by
    rw [List.length_append, both, source]
  have cut : ∀ offset len, (swapFields start n p).slice offset len =
      ((p.take start ++ (p.slice (start + n) n ++
        (p.slice start n ++ p.drop (start + n + n)))).drop offset).take len := fun _ _ => rfl
  refine ⟨Windows.swapFields_length room, ?_, ?_, ?_, fun offset len after => ?_⟩
  · rw [cut, List.drop_zero, List.take_left' before]
    rfl
  · rw [cut, List.drop_left' before, List.take_left' destination]
  · rw [cut, ← List.append_assoc, List.drop_left' both, List.take_left' source]
  · rw [cut, ← List.append_assoc, ← List.append_assoc, List.drop_append, all,
      List.drop_eq_nil_of_le (by omega), List.nil_append, List.drop_drop, Bytes.slice]
    congr 2
    omega

namespace Swapped

variable {start n : Nat} {p q : Bytes}

/-- The two fields together come to what they came to. -/
theorem wordSum_fields (swapped : Swapped start n p q) (inside : start + n + n ≤ p.length)
    (words : n % 2 = 0) : wordSum (q.slice start (n + n)) = wordSum (p.slice start (n + n)) := by
  have source : (p.slice start n).length = n := Bytes.slice_length (by omega)
  have destination : (p.slice (start + n) n).length = n := Bytes.slice_length (by omega)
  rw [Bytes.slice_append, swapped.source, swapped.destination, Bytes.slice_append,
    wordSum_append _ _ (by rw [destination]; exact words),
    wordSum_append _ _ (by rw [source]; exact words), Nat.add_comm]

/-- So does any header that holds them both. -/
theorem wordSum_header (swapped : Swapped start n p q) (words : start % 2 = 0 ∧ n % 2 = 0)
    {hdrLen : Nat} (holds : start + n + n ≤ hdrLen) (inside : hdrLen ≤ p.length) :
    wordSum (q.slice 0 hdrLen) = wordSum (p.slice 0 hdrLen) := by
  have cut : hdrLen = start + ((n + n) + (hdrLen - (start + n + n))) := by omega
  have split : ∀ r : Bytes, r.length = p.length →
      wordSum (r.slice 0 hdrLen) = wordSum (r.slice 0 start) + (wordSum (r.slice start (n + n)) +
        wordSum (r.slice (start + (n + n)) (hdrLen - (start + n + n)))) := by
    intro r same
    have front : (r.slice 0 start).length = start := Bytes.slice_length (by omega)
    have fields : (r.slice start (n + n)).length = n + n := Bytes.slice_length (by omega)
    conv_lhs => rw [cut]
    rw [Bytes.slice_append, Nat.zero_add, Bytes.slice_append,
      wordSum_append _ _ (by rw [front]; exact words.1),
      wordSum_append _ _ (by rw [fields]; omega)]
  rw [split q swapped.length, split p rfl, swapped.front,
    swapped.wordSum_fields (by omega) words.2, swapped.behind _ _ (by omega)]

end Swapped

/-! ## A packet turned round -/

/-- `q` is `p` with source and destination swapped, all other bytes where they were, and no
checksum knows: not that of an IPv4 header, not one over what follows the addresses, and not
one over an IPv6 pseudo-header.  A packet in which no IP header was found is as it was. -/
structure Turned (hdr : Headers) (p q : Bytes) : Prop where
  length : q.length = p.length
  v4     : hdr.ip = true → Swapped 12 4 p q ∧
    ∀ hdrLen, 20 ≤ hdrLen → hdrLen ≤ p.length →
      onesSum (q.slice 0 hdrLen) = onesSum (p.slice 0 hdrLen)
  v6     : hdr.ip = false → hdr.ipv6 = true → Swapped 8 16 p q ∧
    ∀ (upper : Bytes) (offset len : Nat), 40 ≤ offset →
      onesSum (q.slice 8 32 ++ (upper ++ q.slice offset len)) =
        onesSum (p.slice 8 32 ++ (upper ++ p.slice offset len))
  other  : hdr.ip = false → hdr.ipv6 = false → q = p

theorem swapAddresses_turned (w : WinDivert) (p : Bytes) :
    Turned (w.parse p) p (swapAddresses (w.parse p) p) where
  length := Windows.swapAddresses_length w p
  v4 := by
    intro ip
    have room : 12 + 4 + 4 ≤ p.length := w.ip_room p ip
    have swapped := swapFields_swapped room
    unfold swapAddresses
    rw [if_pos ip]
    refine ⟨swapped, fun hdrLen holds inside => ?_⟩
    unfold onesSum
    rw [swapped.wordSum_header (by decide) holds inside]
  v6 := by
    intro ip ipv6
    have room : 8 + 16 + 16 ≤ p.length := w.ipv6_room p ipv6
    have swapped := swapFields_swapped room
    unfold swapAddresses
    rw [if_neg (by simp [ip]), if_pos ipv6]
    refine ⟨swapped, fun upper offset len after => ?_⟩
    have inside : (swapFields 8 16 p).length = p.length := swapped.length
    have addresses : ∀ r : Bytes, r.length = p.length → (r.slice 8 32).length % 2 = 0 := by
      intro r same
      rw [Bytes.slice_length (by omega)]
    unfold onesSum
    rw [wordSum_append _ _ (addresses _ inside), wordSum_append _ _ (addresses p rfl),
      swapped.wordSum_fields room (by decide), swapped.behind offset len after]
  other := by
    intro ip ipv6
    unfold swapAddresses
    rw [if_neg (by simp [ip]), if_neg (by simp [ipv6])]

namespace Windows

/-- **In every session, a packet that goes out a second time is turned round with its
checksums as good as they were.** -/
theorem bounced_checksums (w : WinDivert) {s : Windows} (fresh : s.Fresh) (es : List Event)
    (admissible : (machine w).Admissible s es)
    (alive : ((machine w).run s es).pipe.crashed = false) :
    ∀ t ∈ ((machine w).run s es).sent, ∀ node result, t.again = some (node, result) →
      Turned (w.parse t.node.packet) t.node.packet node.packet := by
  intro t member node result again
  obtain ⟨env, made⟩ := (booked_run w fresh es admissible alive).made t member
  have bounced := (transmit_again w env t.node).2
  rw [← made] at bounced
  obtain rfl := bounced node result again
  exact swapAddresses_turned w t.node.packet

theorem bounced_checksums_echoReply :
    ∃ t ∈ ((machine plainLibrary).run (initial fun _ => false) bouncingRun).sent,
      ∃ node result, t.again = some (node, result) ∧
        Turned (plainLibrary.parse t.node.packet) t.node.packet node.packet := by
  have admissible : (machine plainLibrary).Admissible (initial fun _ => false) bouncingRun :=
    ⟨⟨rfl, rfl⟩, ⟨rfl, trivial⟩, ⟨rfl, rfl⟩, ⟨rfl, rfl, rfl⟩, trivial⟩
  have turned := bounced_checksums plainLibrary (initial_fresh _) bouncingRun admissible rfl
  exact ⟨_, List.Mem.head _, _, _, rfl, turned _ (List.Mem.head _) _ _ rfl⟩

end Windows

end Clumsy.Capture
