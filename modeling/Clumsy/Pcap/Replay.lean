/-
# Pcap.Replay -- pcapreplay.cpp: reading a capture file back

`replayThreadProc` walks over the records, waits until each is due and injects it.  One
pass that nobody stops is a list of the records read, each with the time it waits for.

The header's magic says whether the sub-second field counts micro- or nanoseconds, but
`openAndValidate` keeps only the byte order of it.  So a record is paced by its recorded
time in files of microseconds, and in files of nanoseconds only where the field does not
matter (`replay_paced_iff`).
-/
import Clumsy.Pcap.Layout

namespace Clumsy.Pcap

open Clumsy.Theory
open Clumsy.Packet

set_option autoImplicit false

def REPLAY_MAX_PACKET : UInt32 := 65535
def ETHER_HEADER_LEN : Nat := 14

/-! ## Opening -/

def swap32 (v : UInt32) : UInt32 :=
  ((v &&& 0x000000FF) <<< (24 : UInt32)) ||| ((v &&& 0x0000FF00) <<< (8 : UInt32)) |||
    ((v &&& 0x00FF0000) >>> (8 : UInt32)) ||| ((v &&& 0xFF000000) >>> (24 : UInt32))

inductive OpenError where
  | cannotOpen
  | tooShort
  | notPcap (magic : UInt32)
  | notIp (linkType : UInt32)
  deriving DecidableEq, Repr

/-- What `errBuf` holds. -/
def OpenError.text (path : String) : OpenError → String
  | .cannotOpen => "cannot open '" ++ path ++ "' for reading"
  | .tooShort => "'" ++ path ++ "' is too short to be a pcap file"
  | .notPcap magic =>
      "'" ++ path ++ "' is not a classic libpcap file (magic 0x" ++
        String.ofList ((Nat.toDigits 16 magic.toNat).leftpad 8 '0') ++ "). " ++
        "pcapng is not supported; save as 'Wireshark/tcpdump/... - pcap'."
  | .notIp linkType =>
      "'" ++ path ++ "' has link type " ++ String.ofList (Nat.toDigits 10 linkType.toNat) ++
        "; only RAW (101), Ethernet (1), IPv4 (228) and IPv6 (229) can be replayed."

/-- An open file behind its global header. -/
structure Opened where
  swapped  : Bool
  linkType : UInt32
  rest     : Bytes
  deriving DecidableEq, Repr

/-- The check of the link type. -/
def checkLinkType (swapped : Bool) (network : UInt32) (rest : Bytes) : Except OpenError Opened :=
  let linkType := if swapped then swap32 network else network
  if linkType ≠ LINKTYPE_RAW ∧ linkType ≠ LINKTYPE_ETHERNET ∧ linkType ≠ LINKTYPE_IPV4 ∧
      linkType ≠ LINKTYPE_IPV6 then .error (.notIp linkType)
  else .ok { swapped, linkType, rest }

/-- `openAndValidate` on the bytes of the file, if there is one. -/
def openAndValidate (file : Option Bytes) : Except OpenError Opened :=
  match file with
  | none => .error .cannotOpen
  | some file =>
      match readBlock GlobalHeader.size file with
      | none => .error .tooShort
      | some (block, rest) =>
          let gh := GlobalHeader.decode block
          if gh.magic = PCAP_MAGIC ∨ gh.magic = PCAP_MAGIC_NS then
            checkLinkType false gh.network rest
          else if gh.magic = PCAP_MAGIC_SWAPPED ∨ gh.magic = PCAP_MAGIC_NS_SWAP then
            checkLinkType true gh.network rest
          else .error (.notPcap gh.magic)

/-- Where the IP header starts. -/
def ipOffsetFor (linkType : UInt32) (buf : Bytes) : Option Nat :=
  if linkType = LINKTYPE_ETHERNET then
    if buf.length ≤ ETHER_HEADER_LEN then none
    else
      let ethType := (buf.getD 12 0).toNat * 256 + (buf.getD 13 0).toNat
      if ethType ≠ 0x0800 ∧ ethType ≠ 0x86DD then none else some ETHER_HEADER_LEN
  else some 0

/-! ## The record loop -/

/-- The fields in the byte order of the host. -/
def RecordHeader.native (swapped : Bool) (rh : RecordHeader) : RecordHeader :=
  if swapped then
    { tsSec := swap32 rh.tsSec, tsUsec := swap32 rh.tsUsec, inclLen := swap32 rh.inclLen
      origLen := swap32 rh.origLen }
  else rh

/-- `ts`, which fits its 64 bits. -/
def RecordHeader.ts (rh : RecordHeader) : Nat := rh.tsSec.toNat * 1000000 + rh.tsUsec.toNat

/-- When a record is due, in milliseconds from the start. -/
def targetMs (speed : ℚ) (firstTs ts : Nat) : ℚ :=
  if ts ≥ firstTs then ((ts - firstTs : Nat) : ℚ) / 1000 / speed else 0

/-- A record that was read: the header, when it is due, and what is injected if anything. -/
structure Replayed where
  header   : RecordHeader
  targetMs : ℚ
  injected : Option Bytes
  deriving DecidableEq

/-- The record at the front of what is left: its header and its bytes.  The loop ends at
the end of the file, at a length that cannot be, and at a record that is cut off. -/
def readRecord (swapped : Bool) (rest : Bytes) : Option ((RecordHeader × Bytes) × Bytes) :=
  match readBlock RecordHeader.size rest with
  | none => none
  | some (block, rest) =>
      let rh := (RecordHeader.decode block).native swapped
      if rh.inclLen = 0 ∨ rh.inclLen > REPLAY_MAX_PACKET then none
      else (readBlock rh.inclLen.toNat rest).map fun (buf, rest) => ((rh, buf), rest)

/-- The loop over the records.  Every round reads a header, so as many rounds as there are
bytes are enough (`replayRecords_enough`). -/
def replayRecords (f : Opened) (speed : ℚ) : Nat → Option Nat → Bytes → List Replayed
  | 0, _, _ => []
  | fuel + 1, firstTs, rest =>
      match readRecord f.swapped rest with
      | none => []
      | some ((rh, buf), rest) =>
          let firstTs := firstTs.getD rh.ts
          { header := rh
            targetMs := targetMs speed firstTs rh.ts
            injected := (ipOffsetFor f.linkType buf).map buf.drop } ::
            replayRecords f speed fuel (some firstTs) rest

/-- One pass that nobody stops.  The waits are left out: this is a run in which each of them
ends. -/
def replayThreadProc (file : Option Bytes) (replaySpeed : ℚ) : List Replayed :=
  let speed := if replaySpeed > 0 then replaySpeed else 1
  match openAndValidate file with
  | .error _ => []
  | .ok f => replayRecords f speed f.rest.length none f.rest

/-- The calls of `packetBackendInject`. -/
def injected (records : List Replayed) : List Bytes := records.filterMap Replayed.injected

/-! ## Pacing -/

/-- Whether the file counts nanoseconds. -/
def nanoseconds (file : Bytes) : Bool :=
  let magic := (GlobalHeader.decode (file.take GlobalHeader.size)).magic
  magic == PCAP_MAGIC_NS || magic == PCAP_MAGIC_NS_SWAP

/-- The time a header denotes, in seconds. -/
def RecordHeader.time (nano : Bool) (rh : RecordHeader) : ℚ :=
  rh.tsSec.toNat + rh.tsUsec.toNat / (if nano then 10 ^ 9 else 10 ^ 6)

/-- A record is due at its time since the first one, in milliseconds, at the speed. -/
def Paced (nano : Bool) (speed : ℚ) (first record : Replayed) : Prop :=
  record.targetMs =
    (record.header.time nano - first.header.time nano) * 1000 / speed

instance (nano : Bool) (speed : ℚ) (first record : Replayed) :
    Decidable (Paced nano speed first record) := inferInstanceAs (Decidable (_ = _))

theorem readRecord_shorter {swapped : Bool} {rest rest' : Bytes} {record : RecordHeader × Bytes}
    (read : readRecord swapped rest = some (record, rest')) : rest'.length < rest.length := by
  rw [readRecord] at read
  split at read
  · cases read
  next block after header =>
    dsimp only at read
    split_ifs at read
    obtain ⟨⟨buf, last⟩, data, same⟩ := Option.map_eq_some_iff.1 read
    rw [readBlock] at header data
    split_ifs at header data with enough room
    cases header
    cases data
    cases same
    simp only [RecordHeader.size] at *
    simp only [List.length_drop]
    omega

/-- The rounds do not run out. -/
theorem replayRecords_enough {f : Opened} {speed : ℚ} :
    ∀ {fuel fuel' : Nat} {firstTs : Option Nat} {rest : Bytes}, rest.length ≤ fuel →
      rest.length ≤ fuel' →
      replayRecords f speed fuel firstTs rest = replayRecords f speed fuel' firstTs rest
  | 0, 0, _, _, _, _ => rfl
  | 0, fuel' + 1, firstTs, rest, empty, _ => by
      cases read : readRecord f.swapped rest with
      | none => simp only [replayRecords, read]
      | some record => have := readRecord_shorter read; omega
  | fuel + 1, 0, firstTs, rest, _, empty => by
      cases read : readRecord f.swapped rest with
      | none => simp only [replayRecords, read]
      | some record => have := readRecord_shorter read; omega
  | fuel + 1, fuel' + 1, firstTs, rest, enough, enough' => by
      cases read : readRecord f.swapped rest with
      | none => simp only [replayRecords, read]
      | some record =>
          have shorter := readRecord_shorter read
          simp only [replayRecords, read]
          rw [replayRecords_enough (show record.2.length ≤ fuel by omega)
            (show record.2.length ≤ fuel' by omega)]

theorem replayRecords_targetMs {f : Opened} {speed : ℚ} {firstTs : Nat} :
    ∀ (fuel : Nat) (rest : Bytes), ∀ r ∈ replayRecords f speed fuel (some firstTs) rest,
      r.targetMs = targetMs speed firstTs r.header.ts
  | 0, _, _, member => by cases member
  | fuel + 1, rest, r, member => by
      cases read : readRecord f.swapped rest with
      | none =>
          simp only [replayRecords, read] at member
          cases member
      | some record =>
          simp only [replayRecords, read] at member
          rcases List.mem_cons.1 member with rfl | later
          · rfl
          · exact replayRecords_targetMs fuel _ r later

/-- Every record is paced against the first. -/
theorem replay_targetMs {f : Opened} {speed : ℚ} {fuel : Nat} {rest : Bytes} {first : Replayed}
    (head : (replayRecords f speed fuel none rest).head? = some first) :
    ∀ r ∈ replayRecords f speed fuel none rest,
      r.targetMs = targetMs speed first.header.ts r.header.ts := by
  intro r member
  cases fuel with
  | zero => cases member
  | succ fuel =>
      cases read : readRecord f.swapped rest with
      | none =>
          simp only [replayRecords, read] at member
          cases member
      | some record =>
          simp only [replayRecords, read] at head member
          cases head
          rcases List.mem_cons.1 member with rfl | later
          · rfl
          · exact replayRecords_targetMs fuel _ r later

/-- In microseconds the code reckons with the time of the record. -/
theorem paced_micro {speed : ℚ} {first record : RecordHeader}
    (notBefore : first.time false ≤ record.time false) :
    targetMs speed first.ts record.ts = (record.time false - first.time false) * 1000 / speed := by
  have scaled (rh : RecordHeader) : rh.time false = (rh.ts : ℚ) / 10 ^ 6 := by
    simp only [RecordHeader.time, RecordHeader.ts, Bool.false_eq_true, if_false]
    push_cast
    ring
  rw [scaled, scaled] at notBefore ⊢
  have later : first.ts ≤ record.ts := by
    have whole := (div_le_div_iff_of_pos_right (by norm_num)).1 notBefore
    exact_mod_cast whole
  rw [targetMs, if_pos later, Nat.cast_sub later]
  congr 1
  ring

/-- Seconds and nanoseconds, the latter taken for microseconds. -/
theorem targetMs_nano {speed : ℚ} (positive : 0 < speed) {s u s₁ u₁ : Nat}
    (notBefore : (s₁ : ℚ) + u₁ / 10 ^ 9 ≤ s + u / 10 ^ 9) :
    targetMs speed (s₁ * 1000000 + u₁) (s * 1000000 + u) =
        ((s : ℚ) + u / 10 ^ 9 - (s₁ + u₁ / 10 ^ 9)) * 1000 / speed ↔
      u = u₁ ∨ (s : ℚ) + u / 10 ^ 9 = s₁ + u₁ / 10 ^ 9 ∧ s₁ ≤ s := by
  have scale := positive.ne'
  rw [targetMs]
  split_ifs with later
  · have later' : (s₁ : ℚ) * 1000000 + u₁ ≤ s * 1000000 + u := by exact_mod_cast later
    rw [div_left_inj' scale, Nat.cast_sub later]
    push_cast
    constructor
    · intro same
      left
      have : (u : ℚ) = u₁ := by linarith
      exact_mod_cast this
    · rintro (rfl | ⟨same, before⟩)
      · ring
      · have before : (s₁ : ℚ) ≤ s := by exact_mod_cast before
        linarith
  · have earlier : (s : ℚ) * 1000000 + u < s₁ * 1000000 + u₁ := by
      exact_mod_cast not_le.1 later
    rw [eq_comm, div_eq_zero_iff, or_iff_left scale]
    constructor
    · intro zero
      right
      have same : (s : ℚ) + u / 10 ^ 9 = s₁ + u₁ / 10 ^ 9 := by linarith
      refine ⟨same, ?_⟩
      have before : (s₁ : ℚ) ≤ s := by linarith
      exact_mod_cast before
    · rintro (rfl | ⟨same, -⟩)
      · linarith
      · linarith

/-- In nanoseconds it does only where the sub-second field does not matter. -/
theorem paced_nano {speed : ℚ} (positive : 0 < speed) {first record : RecordHeader}
    (notBefore : first.time true ≤ record.time true) :
    targetMs speed first.ts record.ts = (record.time true - first.time true) * 1000 / speed ↔
      record.tsUsec = first.tsUsec ∨
        record.time true = first.time true ∧ first.tsSec ≤ record.tsSec := by
  rw [UInt32.le_iff_toNat_le, ← UInt32.toNat_inj]
  exact targetMs_nano positive notBefore

/-- **Pacing.**  A record that is not before the first is paced by its recorded time exactly
if the file counts microseconds, or its sub-second field is that of the first record, or
its time is, with a second that is not smaller.  No record is missed for want of rounds. -/
theorem replay_paced_iff {file : Bytes} {f : Opened} {speed : ℚ} {first record : Replayed}
    (accepted : openAndValidate (some file) = .ok f) (positive : 0 < speed)
    (head : (replayThreadProc (some file) speed).head? = some first)
    (read : record ∈ replayThreadProc (some file) speed)
    (notBefore : first.header.time (nanoseconds file) ≤ record.header.time (nanoseconds file)) :
    (Paced (nanoseconds file) speed first record ↔
      nanoseconds file = false ∨ record.header.tsUsec = first.header.tsUsec ∨
        record.header.time (nanoseconds file) = first.header.time (nanoseconds file) ∧
          first.header.tsSec ≤ record.header.tsSec) ∧
      ∀ fuel ≥ f.rest.length,
        replayRecords f speed fuel none f.rest = replayThreadProc (some file) speed := by
  simp only [replayThreadProc, accepted, if_pos positive] at head read ⊢
  refine ⟨?_, fun fuel enough => replayRecords_enough enough (Nat.le_refl _)⟩
  rw [Paced, replay_targetMs head record read]
  cases unit : nanoseconds file with
  | false =>
      rw [unit] at notBefore
      simp only [paced_micro notBefore, true_or]
  | true =>
      rw [unit] at notBefore
      rw [paced_nano positive notBefore]
      simp

/-- Two packets, the second `sec` seconds and `sub` units behind the first. -/
def twoPackets (magic sec sub : UInt32) : Bytes :=
  fileBytes
    { magic, versionMajor := 2, versionMinor := 4, thisZone := 0, sigFigs := 0, snapLen := 65535
      network := LINKTYPE_RAW }
    [({ tsSec := 7, tsUsec := 0, inclLen := 1, origLen := 1 }, [0x45]),
      ({ tsSec := 7 + sec, tsUsec := sub, inclLen := 1, origLen := 1 }, [0x60])]

/-- Three seconds in microseconds, at double speed. -/
theorem replay_paced_micro :
    Paced false 2
      { header := { tsSec := 7, tsUsec := 0, inclLen := 1, origLen := 1 }, targetMs := 0
        injected := some [0x45] }
      { header := { tsSec := 10, tsUsec := 0, inclLen := 1, origLen := 1 }, targetMs := 1500
        injected := some [0x60] } :=
  (@replay_paced_iff (twoPackets PCAP_MAGIC 3 0)
    { swapped := false, linkType := 101, rest := (twoPackets PCAP_MAGIC 3 0).drop 24 } 2 _ _ rfl
    (by norm_num) (by decide +kernel) (by decide +kernel) (by decide +kernel)).1.2 (by decide)

/-- Half a second in nanoseconds takes more than eight minutes. -/
theorem replay_nanoseconds_late :
    ¬∀ (file : Bytes) (f : Opened) (speed : ℚ) (first record : Replayed),
      openAndValidate (some file) = .ok f → 0 < speed →
      (replayThreadProc (some file) speed).head? = some first →
      record ∈ replayThreadProc (some file) speed →
      first.header.time (nanoseconds file) ≤ record.header.time (nanoseconds file) →
      Paced (nanoseconds file) speed first record := by
  intro claim
  have paced := claim (twoPackets PCAP_MAGIC_NS 0 500000000)
    { swapped := false, linkType := 101, rest := (twoPackets PCAP_MAGIC_NS 0 500000000).drop 24 } 1
    { header := { tsSec := 7, tsUsec := 0, inclLen := 1, origLen := 1 }, targetMs := 0
      injected := some [0x45] }
    { header := { tsSec := 7, tsUsec := 500000000, inclLen := 1, origLen := 1 }
      targetMs := 500000, injected := some [0x60] }
    rfl (by norm_num) (by decide +kernel) (by decide +kernel) (by decide +kernel)
  exact absurd paced (by decide +kernel)

end Clumsy.Pcap
