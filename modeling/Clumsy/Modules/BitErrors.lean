/-
# Modules.BitErrors -- what corrupt.cpp flips and what it counts

`Flips` is the account of one payload: the bits that differ afterwards are those of a list
of increasing places inside it, as many as were reported.  It holds of the loop over any
sequence of gaps (`flipGaps_flips`), the real `flipBits` being the one over the gaps it draws
(`flipBits_eq`), and of the fast path that turns every bit over.

Over a run the counter has been told of every bit that changed, and of no other.  It is a
`LONG`, so it says so up to `2 ^ (w - 1)` bits and never beyond (`corrupt_counts_iff`).
-/
import Clumsy.Modules.TamperBlock
import Clumsy.Theory.Skips
import Clumsy.Stats.Latency

namespace Clumsy.Modules

open Clumsy.Theory
open Clumsy.Packet
open Clumsy.Stats (long)

set_option autoImplicit false

variable {β : Type}

/-! ## Bits of a payload -/

/-- Bit `bit` of the payload at `data`. -/
def bitAt (data bit : Nat) (p : Bytes) : Bool := (p.byteAt (data + bit / 8)).toNat.testBit (bit % 8)

/-- In how many bits the payloads of `len` bytes at `data` differ. -/
def hamming (data len : Nat) (p q : Bytes) : Nat :=
  (List.range (8 * len)).countP fun bit => bitAt data bit q ≠ bitAt data bit p

/-- The payload at `data` is the same but for the bits at the given places. -/
structure Flips (data len : Nat) (places : List Nat) (p q : Bytes) : Prop where
  increasing : places.Pairwise (· < ·)
  inside     : ∀ place ∈ places, place < 8 * len
  flipped    : ∀ bit < 8 * len, (bitAt data bit q ≠ bitAt data bit p ↔ bit ∈ places)
  only       : Bytes.OnlyAt (fun i => data ≤ i ∧ i < data + len) p q

theorem Flips.hamming {data len : Nat} {places : List Nat} {p q : Bytes}
    (flips : Flips data len places p q) : hamming data len p q = places.length := by
  rw [← countP_mem_range flips.increasing flips.inside, Modules.hamming]
  refine List.countP_congr fun bit member => ?_
  simpa using flips.flipped bit (List.mem_range.1 member)

theorem Flips.length_le {data len : Nat} {places : List Nat} {p q : Bytes}
    (flips : Flips data len places p q) : places.length ≤ 8 * len :=
  length_le_of_increasing flips.increasing flips.inside

theorem testBit_single {k j : Nat} (small : k < 8) :
    (1 <<< UInt8.ofNat k : UInt8).toNat.testBit j = decide (j = k) := by
  have power : (1 <<< UInt8.ofNat k : UInt8).toNat = 2 ^ k := by
    interval_cases k <;> rfl
  rw [power, Nat.testBit_two_pow, decide_eq_decide, eq_comm]

theorem bitAt_flipBit {data bit : Nat} {p : Bytes} (inside : data + bit / 8 < p.length)
    (other : Nat) :
    bitAt data other (flipBit data bit p) = (bitAt data other p ^^ decide (other = bit)) := by
  have small := Nat.mod_lt bit (show 0 < 8 by decide)
  by_cases byte : other / 8 = bit / 8
  · simp only [bitAt, flipBit, byte]
    rw [Bytes.byteAt_set_self inside, UInt8.toNat_xor, Nat.testBit_xor, testBit_single small]
    congr 1
    rw [decide_eq_decide]
    omega
  · have apart : other ≠ bit := fun same => byte (by rw [same])
    simp only [bitAt, flipBit]
    rw [Bytes.byteAt_set_ne _ (by omega)]
    simp [apart]

theorem flipBit_onlyAt {data bit len : Nat} (inside : bit < 8 * len) (p : Bytes) :
    Bytes.OnlyAt (fun i => data ≤ i ∧ i < data + len) p (flipBit data bit p) :=
  (Bytes.onlyAt_set p (data + bit / 8) _).mono fun i here => by omega

/-- Flip the bits at the given places, one after the other. -/
def flipAll (data : Nat) (places : List Nat) (p : Bytes) : Bytes :=
  places.foldl (fun p bit => flipBit data bit p) p

theorem flipAll_cons (data bit : Nat) (places : List Nat) (p : Bytes) :
    flipAll data (bit :: places) p = flipAll data places (flipBit data bit p) := rfl

/-- Places that are all different are flipped once each. -/
theorem flipAll_flips {data len : Nat} {places : List Nat} {p : Bytes}
    (increasing : places.Pairwise (· < ·)) (inside : ∀ place ∈ places, place < 8 * len)
    (room : data + len ≤ p.length) : Flips data len places p (flipAll data places p) := by
  induction places generalizing p with
  | nil =>
      exact ⟨increasing, inside, fun bit _ => by simp [flipAll], Bytes.OnlyAt.refl _ p⟩
  | cons place places ih =>
      have first := inside place List.mem_cons_self
      have rest := ih (p := flipBit data place p) increasing.of_cons
        (fun later member => inside later (List.mem_cons_of_mem _ member)) (by simpa using room)
      refine ⟨increasing, inside, ?_, ?_⟩
      · intro bit small
        have later := rest.flipped bit small
        have here := @bitAt_flipBit data place p (by omega) bit
        rw [flipAll_cons, List.mem_cons, ← later, here]
        by_cases same : bit = place
        · have unique : bit ∉ places := fun member =>
            absurd (List.rel_of_pairwise_cons increasing member) (by omega)
          rw [← later, here] at unique
          simp only [same, decide_true] at unique ⊢
          simp only [ne_eq, not_not] at unique
          rw [unique]
          simp
        · simp [same]
      · rw [flipAll_cons]
        exact ((flipBit_onlyAt first p).trans rest.only).mono fun i touched => touched.elim id id

/-! ## The loop over gaps -/

section Gaps

variable {K : Type*} [Field K] [LinearOrder K] [FloorSemiring K]

/-- The places the loop of `flipBits` comes to over a sequence of gaps. -/
def errorPlaces (len : Nat) (gaps : Nat → K) : List Nat := skips (8 * len) (8 * len + 1) 0 gaps

/-- **Any gaps.**  Bits are flipped in increasing order inside the payload, each once. -/
theorem flipGaps_flips {data len : Nat} {p : Bytes} (room : data + len ≤ p.length)
    (gaps : Nat → K) :
    Flips data len (errorPlaces len gaps) p (flipAll data (errorPlaces len gaps) p) :=
  flipAll_flips (skips_increasing _ _ gaps) (skips_inside _ _ gaps) room

/-- The loop comes to its end: further rounds find nothing. -/
theorem errorPlaces_rounds (len more : Nat) (gaps : Nat → K) :
    skips (8 * len) (8 * len + 1 + more) 0 gaps = errorPlaces len gaps :=
  skips_rounds (by omega) (by omega) gaps

end Gaps

/-- The gaps that `flipBits` draws. -/
def drawnGaps (libm : Libm) (p : ℚ) (d : Draws) (k : Nat) : ℚ :=
  libm.logRatio (((d.rand k : ℚ) + 1 / 2) / ((RAND_MAX : ℚ) + 1)) p

theorem flipLoop_eq (libm : Libm) (p : ℚ) (data total rounds bit flipped : Nat) (d : Draws)
    (packet : Bytes) :
    (flipLoop libm p data total rounds bit flipped d packet).1 =
        flipped + (skips total rounds bit (drawnGaps libm p d)).length ∧
      (flipLoop libm p data total rounds bit flipped d packet).2.2 =
        flipAll data (skips total rounds bit (drawnGaps libm p d)) packet := by
  induction rounds generalizing bit flipped d packet with
  | zero => exact ⟨rfl, rfl⟩
  | succ rounds ih =>
      have whole (gap : ℚ) : gap.floor.toNat = ⌊gap⌋₊ := Int.floor_toNat gap
      have gap : libm.logRatio (randUnit d).1 p = drawnGaps libm p d 0 := rfl
      have gaps : (fun k => drawnGaps libm p d (k + 1)) = drawnGaps libm p (randUnit d).2 := rfl
      simp only [flipLoop, skips, whole, gap, gaps, ge_iff_le]
      split_ifs with out past
      · exact ⟨rfl, rfl⟩
      · exact ⟨rfl, rfl⟩
      · obtain ⟨count, bytes⟩ := ih (bit + ⌊drawnGaps libm p d 0⌋₊ + 1) (flipped + 1)
          (randUnit d).2 (flipBit data (bit + ⌊drawnGaps libm p d 0⌋₊) packet)
        rw [count, bytes, flipAll_cons, List.length_cons]
        exact ⟨by omega, rfl⟩

/-! ## The fast path -/

theorem byteAt_invertBytes {data len : Nat} {p : Bytes} (room : data + len ≤ p.length) (i : Nat) :
    (invertBytes data len p).byteAt i =
      if data ≤ i ∧ i < data + len then ~~~(p.byteAt i) else p.byteAt i := by
  induction len generalizing p with
  | zero =>
      rw [invertBytes, if_neg (by omega)]
  | succ len ih =>
      rw [invertBytes, ih (by rw [List.length_set]; omega)]
      by_cases here : i = data + len
      · subst here
        rw [if_neg (by omega), if_pos (by omega), Bytes.byteAt_set_self (by omega)]
      · rw [Bytes.byteAt_set_ne _ here]
        by_cases within : data ≤ i ∧ i < data + len
        · rw [if_pos within, if_pos (by omega)]
        · rw [if_neg within, if_neg (by omega)]

theorem testBit_not (b : UInt8) {j : Nat} (small : j < 8) :
    (~~~b).toNat.testBit j = !b.toNat.testBit j := by
  have size : (~~~b).toNat = 2 ^ 8 - (b.toNat + 1) := by
    rw [UInt8.toNat_not]
    simp only [UInt8.size]
    omega
  rw [size, Nat.testBit_two_pow_sub_succ b.toNat_lt]
  simp [small]

theorem invertBytes_flips {data len : Nat} {p : Bytes} (room : data + len ≤ p.length) :
    Flips data len (List.range (8 * len)) p (invertBytes data len p) := by
  refine ⟨List.pairwise_lt_range, fun place => List.mem_range.1, ?_,
    ⟨invertBytes_length data len p, ?_⟩⟩
  · intro bit small
    rw [bitAt, byteAt_invertBytes room, if_pos (by omega),
      testBit_not _ (Nat.mod_lt _ (by decide)), bitAt]
    simp [small]
  · intro i outside
    rw [byteAt_invertBytes room, if_neg outside]

/-! ## One payload -/

/-- **What `flipBits` flips and reports.** -/
theorem flipBits_flips (libm : Libm) {data len : Nat} (ppm : Int) (d : Draws) {packet : Bytes}
    (room : data + len ≤ packet.length) :
    ∃ places, Flips data len places packet (flipBits libm data len ppm d packet).2.2 ∧
      (flipBits libm data len ppm d packet).1 = places.length := by
  simp only [flipBits]
  split_ifs with idle full
  · exact ⟨[], flipAll_flips .nil (by simp) room, rfl⟩
  · exact ⟨_, invertBytes_flips room, by rw [List.length_range, Nat.mul_comm]⟩
  · obtain ⟨count, bytes⟩ := flipLoop_eq libm ((ppm : ℚ) / 1000000) data (len * 8) (len * 8 + 1)
      0 0 d packet
    rw [count, bytes, Nat.zero_add, Nat.mul_comm len 8]
    exact ⟨_, flipGaps_flips room _, rfl⟩

/-! ## One packet -/

/-- The payload bits in which a packet differs from what it was. -/
def payloadBitsChanged (pac pac' : PacketNode β) : Nat :=
  (packetGetPayload pac.packet).elim 0 fun payload =>
    hamming payload.1 payload.2 pac.packet pac'.packet

theorem payloadBitsChanged_self (pac : PacketNode β) : payloadBitsChanged pac pac = 0 := by
  unfold payloadBitsChanged
  cases packetGetPayload pac.packet with
  | none => rfl
  | some payload => simp [hamming]

/-- Redoing the checksums leaves the payload as it is. -/
theorem hamming_packetRecalcChecksums {data len : Nat} {places : List Nat} {p q : Bytes}
    (found : packetGetPayload p = some (data, len)) (flips : Flips data len places p q) :
    hamming data len p (packetRecalcChecksums q) = places.length := by
  have same : parse q = parse p := parse_payload found (flips.only.mono fun _ here => here.1)
  have only := (packetRecalcChecksums_onlyAt q).mono fun _ here => here.2
  rw [same] at only
  rw [← flips.hamming]
  refine List.countP_congr fun bit _ => ?_
  have kept : bitAt data bit (packetRecalcChecksums q) = bitAt data bit q := by
    rw [bitAt, bitAt, only.same _ fun checksum => ?_]
    have header := inChecksum_lt found checksum
    omega
  rw [kept]

namespace Corrupt

/-- **A packet is charged for the bits that change in it.** -/
theorem rewrite_counts (corrupt : Corrupt) (libm : Libm) (s : Draws × Nat × Nat)
    (pac : PacketNode β) :
    (corrupt.rewrite libm s pac).1.2.1 =
      s.2.1 + payloadBitsChanged pac (corrupt.rewrite libm s pac).2 := by
  simp only [rewrite]
  split
  · split
    · cases found : packetGetPayload pac.packet with
      | none => simp [payloadBitsChanged_self]
      | some payload =>
          obtain ⟨data, len⟩ := payload
          obtain ⟨places, flips, count⟩ := flipBits_flips libm corrupt.corruptBer.val
            (calcChance corrupt.corruptChance.val s.1).2 (packetGetPayload_inside found).2
          simp only
          split
          · rw [count]
            simp only [payloadBitsChanged, found, Option.elim_some, withPacket]
            split
            · rw [hamming_packetRecalcChecksums found flips]
            · rw [flips.hamming]
          · simp [payloadBitsChanged_self]
    · simp [payloadBitsChanged_self]
  · simp [payloadBitsChanged_self]

end Corrupt

/-! ## Runs -/

def corruptResetStats (corrupt : Corrupt) : Corrupt := { corrupt with corruptBitsFlipped := 0 }

/-- The counter as a `LONG` of `w` bits: `InterlockedExchangeAdd` wraps around, so it holds
the bits counted since the last reset modulo `2 ^ w` (`long_add`). -/
def corruptGetBitsFlipped (w : Nat) (corrupt : Corrupt) : Int := long w corrupt.corruptBitsFlipped

/-- What happens to the module. -/
inductive CorruptEvent (β : Type) where
  | process (env : ProcEnv) (main : List (PacketNode β))
  | param (v : CorruptParam)
  | resetStats

def corruptMachine : Machine Corrupt (CorruptEvent β) where
  step corrupt
    | .process env main => (corruptProcess env main corrupt).state
    | .param v => corruptSetParam corrupt v
    | .resetStats => corruptResetStats corrupt
  admits _ _ := True

/-- The payload bits that an event changes. -/
def bitsChanged (corrupt : Corrupt) : CorruptEvent β → Nat
  | .process env main =>
      (List.zipWith payloadBitsChanged main (corruptProcess env main corrupt).main).sum
  | _ => 0

/-- The payload bits changed since the last reset, beside the module that changes them. -/
def changedMachine : Machine (Corrupt × Nat) (CorruptEvent β) where
  step s event :=
    (corruptMachine.step s.1 event,
      match event with
      | .resetStats => 0
      | event => s.2 + bitsChanged s.1 event)
  admits _ _ := True

/-- The module's own count is the number of bits changed. -/
def Counted (s : Corrupt × Nat) : Prop := s.1.corruptBitsFlipped = s.2

/-- **The step lemma.**  The counter is told of what changes. -/
theorem corruptProcess_counts (env : ProcEnv) (main : List (PacketNode β)) (corrupt : Corrupt) :
    (corruptProcess env main corrupt).state.corruptBitsFlipped = corrupt.corruptBitsFlipped +
      (List.zipWith payloadBitsChanged main (corruptProcess env main corrupt).main).sum := by
  have counted := rewriteEach_count (corrupt.rewrite env.libm) (fun s => s.2.1)
    payloadBitsChanged (corrupt.rewrite_counts env.libm) main (env.draws, 0, 0)
  simp only [Nat.zero_add] at counted
  simp only [corruptProcess]
  rw [counted]

theorem changed_step (s : Corrupt × Nat) (event : CorruptEvent β) (counted : Counted s) :
    Counted (changedMachine.step s event) := by
  cases event with
  | process env main =>
      show (corruptProcess env main s.1).state.corruptBitsFlipped = s.2 + _
      rw [corruptProcess_counts, counted]
      rfl
  | param v =>
      have kept : (corruptSetParam s.1 v).corruptBitsFlipped = s.1.corruptBitsFlipped := by
        cases v <;> rfl
      show (corruptSetParam s.1 v).corruptBitsFlipped = s.2 + 0
      rw [kept, counted, Nat.add_zero]
  | resetStats => rfl

theorem changed_run (corrupt : Corrupt) (events : List (CorruptEvent β)) :
    Counted (changedMachine.run (corruptResetStats corrupt, 0) events) :=
  changedMachine.run_invariant' changed_step events _ rfl

/-! ## Specification -/

/-- **Bit errors are counted honestly.**  Over any gaps the loop ends, flips places of the
payload in increasing order, each once, and no more than there are; `flipBits` reports the
number of bits that differ afterwards.  After any run the counter is the number of payload
bits changed since the last reset, exactly as long as a `LONG` can say so. -/
theorem corrupt_counts_iff (w : Nat) (wide : 32 ≤ w) (corrupt : Corrupt)
    (events : List (CorruptEvent β)) :
    (∀ (gaps : Nat → ℝ) (data len : Nat) (packet : Bytes), data + len ≤ packet.length →
        Flips data len (errorPlaces len gaps) packet
            (flipAll data (errorPlaces len gaps) packet) ∧
          (errorPlaces len gaps).length ≤ 8 * len ∧
          ∀ more, skips (8 * len) (8 * len + 1 + more) 0 gaps = errorPlaces len gaps) ∧
      (∀ (libm : Libm) (data len : Nat) (ppm : Int) (d : Draws) (packet : Bytes),
        data + len ≤ packet.length →
          (∃ places, Flips data len places packet (flipBits libm data len ppm d packet).2.2 ∧
            (flipBits libm data len ppm d packet).1 = places.length) ∧
          (flipBits libm data len ppm d packet).1 ≤ 8 * len ∧
          (flipBits libm data len ppm d packet).1 =
            hamming data len packet (flipBits libm data len ppm d packet).2.2) ∧
      (corruptGetBitsFlipped w (changedMachine.run (corruptResetStats corrupt, 0) events).1 =
          (changedMachine.run (corruptResetStats corrupt, 0) events).2 ↔
        (changedMachine.run (corruptResetStats corrupt, 0) events).2 < 2 ^ (w - 1)) := by
  refine ⟨?_, ?_, ?_⟩
  · intro gaps data len packet room
    have flips := flipGaps_flips room gaps
    exact ⟨flips, flips.length_le, fun more => errorPlaces_rounds len more gaps⟩
  · intro libm data len ppm d packet room
    obtain ⟨places, flips, count⟩ := flipBits_flips libm ppm d room
    rw [count]
    exact ⟨⟨places, flips, rfl⟩, flips.length_le, flips.hamming.symm⟩
  · have counted : (changedMachine.run (corruptResetStats corrupt, 0) events).1.corruptBitsFlipped =
        (changedMachine.run (corruptResetStats corrupt, 0) events).2 := changed_run corrupt events
    generalize (changedMachine.run (corruptResetStats corrupt, 0) events).2 = total at *
    rw [corruptGetBitsFlipped, counted]
    constructor
    · intro exact_
      have below := Stats.long_lt wide total
      rw [exact_] at below
      exact Int.ofNat_lt.1 below
    · intro fits
      exact Stats.long_of_range wide (by omega) (by omega)

/-- Every packet, every bit. -/
def noisy : Corrupt :=
  { Corrupt.initial with
    corruptChance := .literal 10000 (.refl true)
    corruptBer := .literal 1000000 (.refl true) }

/-- A UDP packet with one byte of payload. -/
def oneByte : PacketNode Unit :=
  { outgoing 0 with
    packet := [0x45, 0, 0, 29, 0, 1, 0x40, 0, 64, 17, 0, 0, 10, 0, 0, 1, 10, 0, 0, 2,
      0x9C, 0x40, 0, 53, 0, 9, 0, 0, 0x61] }

theorem corrupt_counts_iff_twice :
    32 ≤ 32 ∧ (corruptGetBitsFlipped 32 (changedMachine.run (corruptResetStats noisy, 0)
      [.process (ProcEnv.still 0) [oneByte], .process (ProcEnv.still 0) [oneByte]]).1 =
        (changedMachine.run (corruptResetStats noisy, 0)
          [.process (ProcEnv.still 0) [oneByte], .process (ProcEnv.still 0) [oneByte]]).2) :=
  ⟨le_refl _, (corrupt_counts_iff 32 (le_refl _) noisy _).2.2.2 (by decide +kernel)⟩

/-- `noisy` later on. -/
def noisyAt (bits affected : Nat) : Corrupt :=
  { noisy with corruptBitsFlipped := bits, affectedCount := affected }

theorem noisy_step (bits affected : Nat) :
    (corruptProcess (ProcEnv.still 0) [oneByte] (noisyAt bits affected)).state =
      noisyAt (bits + 8) (affected + 1) := by
  have walked : (rewriteEach (noisy.rewrite (ProcEnv.still 0).libm)
      ((ProcEnv.still 0).draws, 0, 0) [oneByte]).1.2 = (8, 1) := by decide +kernel
  have same : @Corrupt.rewrite Unit (noisyAt bits affected) = noisy.rewrite := rfl
  simp only [corruptProcess, same, walked]
  rfl

theorem noisy_run (n bits affected total : Nat) :
    (changedMachine.run (noisyAt bits affected, total)
      (List.replicate n (.process (ProcEnv.still 0) [oneByte]))).1 =
      noisyAt (bits + 8 * n) (affected + n) := by
  induction n generalizing bits affected total with
  | zero => rfl
  | succ n ih =>
      rw [List.replicate_succ, Machine.run_cons]
      have step : changedMachine.step (noisyAt bits affected, total)
          (.process (ProcEnv.still 0) [oneByte]) =
          (noisyAt (bits + 8) (affected + 1), (changedMachine.step (noisyAt bits affected, total)
            (.process (ProcEnv.still 0) [oneByte])).2) :=
        Prod.ext (noisy_step bits affected) rfl
      rw [step, ih]
      congr 1 <;> omega

/-- `2 ^ 28` packets with eight flipped bits each are more than a 32-bit `LONG` counts. -/
theorem corrupt_counts_overflow :
    ¬∀ (corrupt : Corrupt) (events : List (CorruptEvent Unit)),
      corruptGetBitsFlipped 32 (changedMachine.run (corruptResetStats corrupt, 0) events).1 =
        (changedMachine.run (corruptResetStats corrupt, 0) events).2 := by
  intro claim
  -- a numeral would be unfolded
  obtain ⟨n, many, fewer⟩ : ∃ n : Nat, 2 ^ 28 ≤ n ∧ n < 2 ^ 29 := ⟨2 ^ 28, by decide, by decide⟩
  have read := claim noisy (List.replicate n (.process (ProcEnv.still 0) [oneByte]))
  have counted : (changedMachine.run (corruptResetStats noisy, 0)
      (List.replicate n (.process (ProcEnv.still 0) [oneByte]))).1.corruptBitsFlipped = _ :=
    changed_run noisy _
  have bits : (changedMachine.run (corruptResetStats noisy, 0)
      (List.replicate n (.process (ProcEnv.still 0) [oneByte]))).1 = noisyAt (0 + 8 * n) (0 + n) :=
    noisy_run n 0 0 0
  rw [← counted, bits] at read
  have below := Stats.long_lt (le_refl 32) (0 + 8 * n : Nat)
  have value : corruptGetBitsFlipped 32 (noisyAt (0 + 8 * n) (0 + n)) =
      ((0 + 8 * n : Nat) : Int) := read
  have wrapped : corruptGetBitsFlipped 32 (noisyAt (0 + 8 * n) (0 + n)) =
      long 32 (0 + 8 * n : Nat) := rfl
  rw [← wrapped, value] at below
  omega

end Clumsy.Modules
