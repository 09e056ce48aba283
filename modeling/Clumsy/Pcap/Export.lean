/-
# Pcap.Export -- pcapexport.cpp: recording packets

`pcapExportStart` opens a file and writes its header, `pcapExportWriteStage` appends a
record for every packet of the selected stage until a limit is reached.  `contents` is
what the file last opened holds.

What was recorded is what a replay injects (`replay_contents`), and it is all of it
while no limit is reached (`recorded_all`).
-/
import Clumsy.Filter.Parser
import Clumsy.Pcap.Replay
import Clumsy.Stats.Latency

namespace Clumsy.Pcap

open Clumsy.Theory
open Clumsy.Packet
open Clumsy.Stats

set_option autoImplicit false

def PCAP_STAGE_PRE : Nat := 1
def PCAP_STAGE_POST : Nat := 2
def PCAP_SNAPLEN : Nat := 65535

structure Export where
  pcapActive   : Bool
  pcapFile     : Bool
  contents     : Bytes
  pcapPackets  : Int
  pcapBytes    : Int
  pcapMaxPkts  : Int
  pcapMaxBytes : Int
  pcapStage    : Nat
  pcapFilePath : String

def Export.initial : Export :=
  { pcapActive := false, pcapFile := false, contents := [], pcapPackets := 0, pcapBytes := 0
    pcapMaxPkts := 0, pcapMaxBytes := 0, pcapStage := PCAP_STAGE_POST, pcapFilePath := "" }

/-- What `--pcap-stage` selects. -/
def resolveStage (option : Option String) : Nat :=
  match option with
  | none => PCAP_STAGE_POST
  | some s =>
      if Filter.stricmp s.toList "pre" then PCAP_STAGE_PRE
      else if Filter.stricmp s.toList "both" then PCAP_STAGE_PRE ||| PCAP_STAGE_POST
      else PCAP_STAGE_POST

def closeFileLocked (s : Export) : Export :=
  if s.pcapFile then { s with pcapActive := false, pcapFile := false } else s

/-- The header of every file. -/
def exportHeader : GlobalHeader :=
  { magic := PCAP_MAGIC, versionMajor := 2, versionMinor := 4, thisZone := 0, sigFigs := 0
    snapLen := .ofNat PCAP_SNAPLEN, network := LINKTYPE_RAW }

/-- What the file system answers: whether the file opens, and how many of its header's
bytes it takes. -/
structure Disk where
  opens  : Bool
  header : Nat

def pcapExportStart (path : String) (maxPackets maxBytes : Int) (stage : Option String)
    (disk : Disk) (s : Export) : Export × Bool :=
  if path = "" then (s, false)
  else
    let s := closeFileLocked s
    if !disk.opens then (s, false)
    else if disk.header < GlobalHeader.size then
      ({ s with contents := exportHeader.encode.take disk.header }, false)
    else
      ({ pcapActive := true
         pcapFile := true
         contents := exportHeader.encode
         pcapPackets := 0
         pcapBytes := 0
         pcapMaxPkts := if maxPackets > 0 then maxPackets else 0
         pcapMaxBytes := if maxBytes > 0 then maxBytes else 0
         pcapStage := resolveStage stage
         pcapFilePath := path }, true)

def pcapExportStop (s : Export) : Export := closeFileLocked s

/-- A call of `pcapExportWriteStage`: the clock it reads, and how many bytes the disk takes
if it does not take all. -/
structure Call where
  stage  : Nat
  packet : Bytes
  micros : Nat
  room   : Option Nat
  deriving DecidableEq

/-- The record of a packet. -/
def Call.record (call : Call) : RecordHeader × Bytes :=
  let stored := min call.packet.length PCAP_SNAPLEN
  ({ tsSec := .ofNat (call.micros / 1000000), tsUsec := .ofNat (call.micros % 1000000)
     inclLen := .ofNat stored, origLen := .ofNat call.packet.length },
    call.packet.take stored)

/-- Whether the call is about an open file and its stage. -/
def Export.selects (s : Export) (call : Call) : Bool :=
  s.pcapActive && !call.packet.isEmpty && s.pcapFile && (s.pcapStage &&& call.stage) ≠ 0

def Export.hitLimit (s : Export) : Bool :=
  (s.pcapMaxPkts > 0 && s.pcapPackets ≥ s.pcapMaxPkts) ||
    (s.pcapMaxBytes > 0 && s.pcapBytes ≥ s.pcapMaxBytes)

/-- `w` is the width of `long`. -/
def pcapExportWriteStage (w : Nat) (call : Call) (s : Export) : Export :=
  if !s.selects call then s
  else if s.hitLimit then closeFileLocked s
  else
    match call.room with
    | some room =>
        closeFileLocked { s with contents := s.contents ++ (recordBytes call.record).take room }
    | none =>
        { s with
          contents := s.contents ++ recordBytes call.record
          pcapPackets := long w (s.pcapPackets + 1)
          pcapBytes := long w (s.pcapBytes + call.record.2.length) }

def pcapExport (w : Nat) : Machine Export Call where
  step s call := pcapExportWriteStage w call s
  admits _ _ := True

/-- Whether a call records its packet. -/
def Export.records (s : Export) (call : Call) : Bool :=
  s.selects call && !s.hitLimit && call.room.isNone

/-- The calls that recorded their packet. -/
def recorded (w : Nat) (s : Export) (calls : List Call) : List Call :=
  ((pcapExport w).outputs (fun s call => if s.records call then some call else none) s
    calls).reduceOption

section Recorded

variable {w : Nat}

@[simp] theorem pcapExport_step (s : Export) (call : Call) :
    (pcapExport w).step s call = pcapExportWriteStage w call s := rfl

theorem recorded_cons (s : Export) (call : Call) (calls : List Call) :
    recorded w s (call :: calls) =
      (if s.records call then [call] else []) ++
        recorded w (pcapExportWriteStage w call s) calls := by
  rw [recorded, Machine.outputs]
  split_ifs <;> rfl

/-- Once the file is closed nothing is selected any more. -/
theorem closed_selects (s : Export) (call : Call) (opened : s.pcapFile = true) :
    (closeFileLocked s).selects call = false := by
  simp [closeFileLocked, opened, Export.selects]

theorem closed_contents (s : Export) : (closeFileLocked s).contents = s.contents := by
  rw [closeFileLocked]
  split_ifs <;> rfl

/-- Where nothing is selected nothing happens. -/
theorem run_inactive (calls : List Call) (s : Export)
    (inactive : ∀ call, s.selects call = false) :
    (pcapExport w).run s calls = s ∧ recorded w s calls = [] := by
  induction calls with
  | nil => exact ⟨rfl, rfl⟩
  | cons call calls ih =>
      have same : pcapExportWriteStage w call s = s := by
        simp [pcapExportWriteStage, inactive call]
      rw [Machine.run_cons, recorded_cons, pcapExport_step, same, ih.1, ih.2]
      simp [Export.records, inactive call]

theorem selects_opened {s : Export} {call : Call} (selected : s.selects call = true) :
    s.pcapFile = true := by
  simp only [Export.selects, Bool.and_eq_true] at selected
  exact selected.1.2

/-- A call that records its packet adds the record and counts it. -/
theorem writeStage_records {call : Call} {s : Export} (recordsIt : s.records call = true) :
    pcapExportWriteStage w call s =
      { s with
        contents := s.contents ++ recordBytes call.record
        pcapPackets := long w (s.pcapPackets + 1)
        pcapBytes := long w (s.pcapBytes + call.record.2.length) } := by
  simp only [Export.records, Bool.and_eq_true, Bool.not_eq_true', Option.isNone_iff_eq_none]
    at recordsIt
  simp [pcapExportWriteStage, recordsIt.1.1, recordsIt.1.2, recordsIt.2]

/-- **What a call does**: nothing, or it writes a whole record, or it closes the file, with what
the disk took of one that failed. -/
theorem writeStage_cases (w : Nat) (call : Call) (s : Export) :
    (s.selects call = false ∧ s.records call = false ∧ pcapExportWriteStage w call s = s) ∨
    (s.selects call = true ∧ s.records call = true ∧ call.room = none) ∨
    (s.selects call = true ∧ s.records call = false ∧ ∃ torn,
      pcapExportWriteStage w call s =
          closeFileLocked { s with contents := s.contents ++ torn } ∧
        (torn ≠ [] → ∃ room, call.room = some room ∧
          torn = (recordBytes call.record).take room)) := by
  by_cases selected : s.selects call = true
  · by_cases limit : s.hitLimit = true
    · refine .inr (.inr ⟨selected, by simp [Export.records, limit], [], ?_, fun some =>
        absurd rfl some⟩)
      simp [pcapExportWriteStage, selected, limit]
    · cases room : call.room with
      | none =>
          exact .inr (.inl ⟨selected, by simp [Export.records, selected, limit, room], rfl⟩)
      | some n =>
          refine .inr (.inr ⟨selected, by simp [Export.records, room], _, ?_, fun _ =>
            ⟨n, rfl, rfl⟩⟩)
          simp [pcapExportWriteStage, selected, limit, room]
  · exact .inl ⟨by simpa using selected, by simp [Export.records, selected],
      by simp [pcapExportWriteStage, selected]⟩

/-- A call that closes the file is the last one that counts. -/
theorem run_closed (calls : List Call) {s : Export} (opened : s.pcapFile = true) :
    ((pcapExport w).run (closeFileLocked s) calls).contents = s.contents ∧
      recorded w (closeFileLocked s) calls = [] := by
  obtain ⟨run, nothing⟩ := run_inactive (w := w) calls (closeFileLocked s)
    fun other => closed_selects s other opened
  rw [run]
  exact ⟨closed_contents s, nothing⟩

/-- **The file** is what it was before, the records of what was recorded, and what the disk
took of a record that failed. -/
theorem run_stored (calls : List Call) (s : Export) :
    ∃ torn, ((pcapExport w).run s calls).contents =
        s.contents ++ ((recorded w s calls).map Call.record).flatMap recordBytes ++ torn ∧
      (torn ≠ [] → ∃ call ∈ calls, ∃ room, call.room = some room ∧
        torn = (recordBytes call.record).take room) := by
  induction calls generalizing s with
  | nil => exact ⟨[], by simp [recorded, Machine.outputs], fun some => absurd rfl some⟩
  | cons call calls ih =>
      rw [Machine.run_cons, recorded_cons, pcapExport_step]
      rcases writeStage_cases w call s with
        ⟨-, unrecorded, step⟩ | ⟨-, recordsIt, -⟩ |
        ⟨selected, unrecorded, torn, step, failed⟩
      · obtain ⟨torn, contents, failed⟩ := ih s
        refine ⟨torn, by simpa [step, unrecorded] using contents, fun some => ?_⟩
        obtain ⟨other, member, room⟩ := failed some
        exact ⟨other, List.mem_cons_of_mem call member, room⟩
      · obtain ⟨torn, contents, failed⟩ := ih (pcapExportWriteStage w call s)
        refine ⟨torn, ?_, fun some => ?_⟩
        · rw [contents, if_pos recordsIt, writeStage_records recordsIt]
          simp only [List.map_append, List.map_cons, List.map_nil, List.flatMap_append,
            List.flatMap_cons, List.flatMap_nil, List.append_nil, List.append_assoc]
        · obtain ⟨other, member, room⟩ := failed some
          exact ⟨other, List.mem_cons_of_mem call member, room⟩
      · obtain ⟨contents, nothing⟩ := run_closed (w := w) calls
          (s := { s with contents := s.contents ++ torn }) (selects_opened selected)
        refine ⟨torn, ?_, fun some => ⟨call, List.mem_cons_self, failed some⟩⟩
        rw [step, contents, nothing]
        simp [unrecorded]

/-- Without a failed write the file is its header and the records of what was recorded. -/
theorem run_contents (calls : List Call) (s : Export)
    (written : ∀ call ∈ calls, call.room = none) :
    ((pcapExport w).run s calls).contents =
      s.contents ++ ((recorded w s calls).map Call.record).flatMap recordBytes := by
  obtain ⟨torn, contents, failed⟩ := run_stored (w := w) calls s
  have whole : torn = [] := by
    by_contra some
    obtain ⟨call, member, room, short, -⟩ := failed some
    cases (written call member).symm.trans short
  rw [contents, whole, List.append_nil]

/-- Recording a packet changes nothing about what is selected. -/
theorem writeStage_selects {s : Export} {call : Call} (recordsIt : s.records call = true)
    (other : Call) : (pcapExportWriteStage w call s).selects other = s.selects other := by
  rw [writeStage_records recordsIt]
  rfl

/-- What is recorded is the beginning of what was selected. -/
theorem recorded_prefix (calls : List Call) (s : Export) :
    recorded w s calls <+: calls.filter s.selects := by
  induction calls generalizing s with
  | nil => exact List.nil_prefix
  | cons call calls ih =>
      rw [recorded_cons]
      rcases writeStage_cases w call s with
        ⟨unselected, unrecorded, step⟩ | ⟨selected, recordsIt, -⟩ |
        ⟨selected, unrecorded, torn, step, -⟩
      · rw [List.filter_cons_of_neg (by simp [unselected]), step]
        simpa [unrecorded] using ih s
      · have later := ih (pcapExportWriteStage w call s)
        rw [show (pcapExportWriteStage w call s).selects = s.selects from
          funext (writeStage_selects recordsIt)] at later
        rw [List.filter_cons_of_pos selected, if_pos recordsIt]
        exact List.cons_prefix_cons.2 ⟨rfl, later⟩
      · rw [step, (run_closed calls
          (s := { s with contents := s.contents ++ torn }) (selects_opened selected)).2]
        simp [unrecorded]

/-- A limit after `taken`; zero is none. -/
def LimitReached (maxPackets maxBytes : Int) (taken : List Call) : Prop :=
  (0 < maxPackets ∧ maxPackets ≤ taken.length) ∨
    (0 < maxBytes ∧ maxBytes ≤ ((taken.map fun call => call.packet.length).sum : Nat))

/-- The counters that a limit is compared with are right. -/
structure Export.Counted (s : Export) (taken : List Call) : Prop where
  packets : 0 < s.pcapMaxPkts → s.pcapPackets = taken.length
  bytes   : 0 < s.pcapMaxBytes →
    s.pcapBytes = ((taken.map fun call => call.packet.length).sum : Nat)

theorem hitLimit_iff {s : Export} {taken : List Call} (counted : s.Counted taken) :
    s.hitLimit = true ↔ LimitReached s.pcapMaxPkts s.pcapMaxBytes taken := by
  simp only [Export.hitLimit, Bool.or_eq_true, Bool.and_eq_true, decide_eq_true_iff, LimitReached]
  refine or_congr (and_congr_right fun limited => ?_) (and_congr_right fun limited => ?_)
  · rw [counted.packets limited]
  · rw [counted.bytes limited]

theorem record_packet {call : Call} (size : call.packet.length ≤ PCAP_SNAPLEN) :
    call.record.2 = call.packet := by
  simp only [Call.record, Nat.min_eq_left size, List.take_length]

/-- A packet that was counted while no limit was reached. -/
theorem writeStage_counted (wide : 32 ≤ w) {s : Export} {call : Call} {taken : List Call}
    (packets : s.pcapMaxPkts < 2 ^ (w - 1)) (bytes : s.pcapMaxBytes < 2 ^ (w - 1))
    (size : call.packet.length ≤ PCAP_SNAPLEN) (counted : s.Counted taken)
    (recordsIt : s.records call = true)
    (free : ¬LimitReached s.pcapMaxPkts s.pcapMaxBytes (taken ++ [call])) :
    (pcapExportWriteStage w call s).Counted (taken ++ [call]) := by
  simp only [LimitReached, not_or, not_and, not_le, List.length_append, List.length_singleton,
    List.map_append, List.sum_append, List.map_singleton, List.sum_singleton] at free
  rw [writeStage_records recordsIt, record_packet size]
  constructor
  · intro limited
    have below := free.1 limited
    show long w (s.pcapPackets + 1) = _
    rw [counted.packets limited, long_of_range wide (by omega) (by push_cast at *; omega)]
    simp
  · intro limited
    have below := free.2 limited
    show long w (s.pcapBytes + call.packet.length) = _
    rw [counted.bytes limited, long_of_range wide (by omega) (by push_cast at *; omega)]
    simp

/-- **While no limit is reached, everything that is selected is recorded.** -/
theorem recorded_all (wide : 32 ≤ w) (calls : List Call) {s : Export} {taken : List Call}
    (packets : s.pcapMaxPkts < 2 ^ (w - 1)) (bytes : s.pcapMaxBytes < 2 ^ (w - 1))
    (sizes : ∀ call ∈ calls, call.packet.length ≤ PCAP_SNAPLEN)
    (written : ∀ call ∈ calls, call.room = none)
    (counted : calls.filter s.selects ≠ [] → s.Counted taken)
    (free : ∀ m < (calls.filter s.selects).length,
      ¬LimitReached s.pcapMaxPkts s.pcapMaxBytes (taken ++ (calls.filter s.selects).take m)) :
    recorded w s calls = calls.filter s.selects := by
  induction calls generalizing s taken with
  | nil => rfl
  | cons call calls ih =>
      rw [List.forall_mem_cons] at sizes written
      by_cases selected : s.selects call
      · rw [List.filter_cons_of_pos selected] at counted free ⊢
        have now := counted (List.cons_ne_nil _ _)
        have unlimited : s.hitLimit = false := by
          have start := free 0 (Nat.succ_pos _)
          rw [List.take_zero, List.append_nil, ← hitLimit_iff now] at start
          exact Bool.eq_false_iff.2 start
        have recordsIt : s.records call = true := by
          simp [Export.records, selected, unlimited, written.1]
        have selects : (pcapExportWriteStage w call s).selects = s.selects :=
          funext (writeStage_selects recordsIt)
        have limits : (pcapExportWriteStage w call s).pcapMaxPkts = s.pcapMaxPkts ∧
            (pcapExportWriteStage w call s).pcapMaxBytes = s.pcapMaxBytes := by
          rw [writeStage_records recordsIt]
          exact ⟨rfl, rfl⟩
        rw [recorded_cons, if_pos recordsIt, List.singleton_append]
        congr 1
        rw [← selects]
        refine @ih _ (taken ++ [call]) ?_ ?_ sizes.2 written.2 ?_ ?_
        · rw [limits.1]
          exact packets
        · rw [limits.2]
          exact bytes
        · intro more
          rw [selects] at more
          have next := free 1 (by
            have := List.length_pos_iff.2 more
            rw [List.length_cons]
            omega)
          exact writeStage_counted wide packets bytes sizes.1 now recordsIt next
        · intro m below
          rw [selects] at below ⊢
          rw [limits.1, limits.2, List.append_assoc]
          exact free (m + 1) (Nat.succ_lt_succ below)
      · have same : pcapExportWriteStage w call s = s := by
          simp [pcapExportWriteStage, selected]
        rw [List.filter_cons_of_neg selected] at counted free ⊢
        rw [recorded_cons, same]
        simpa [Export.records, selected] using
          ih packets bytes sizes.2 written.2 counted free

end Recorded

/-! ## Replaying what was recorded -/

theorem readRecord_record {call : Call} (some : call.packet ≠ [])
    (size : call.packet.length ≤ PCAP_SNAPLEN) (rest : Bytes) :
    readRecord false (recordBytes call.record ++ rest) =
      .some ((call.record.1, call.packet), rest) := by
  have stored := record_packet size
  have positive := List.length_pos_iff.2 some
  have inclLen : call.record.1.inclLen.toNat = call.packet.length := by
    simp only [Call.record, PCAP_SNAPLEN] at size ⊢
    rw [Nat.min_eq_left size, UInt32.toNat_ofNat']
    omega
  have fits : ¬(call.record.1.inclLen = 0 ∨ call.record.1.inclLen > REPLAY_MAX_PACKET) := by
    rw [← UInt32.toNat_inj, gt_iff_lt, UInt32.lt_iff_toNat_lt, inclLen]
    simp only [PCAP_SNAPLEN] at size
    simp only [REPLAY_MAX_PACKET, UInt32.toNat_ofNat]
    omega
  rw [readRecord, recordBytes, List.append_assoc,
    readBlock_append (RecordHeader.encode_length _)]
  dsimp only
  rw [RecordHeader.decode_encode, RecordHeader.native, if_neg Bool.false_ne_true, if_neg fits,
    stored, inclLen, readBlock_append rfl]
  rfl

/-- The records of packets are read and injected one by one. -/
theorem injected_records {f : Opened} {speed : ℚ} (native : f.swapped = false)
    (bare : f.linkType ≠ LINKTYPE_ETHERNET) :
    ∀ {calls : List Call} {fuel : Nat} {firstTs : Option Nat},
      (∀ call ∈ calls, call.packet ≠ [] ∧ call.packet.length ≤ PCAP_SNAPLEN) →
      calls.length ≤ fuel →
      injected (replayRecords f speed fuel firstTs ((calls.map Call.record).flatMap recordBytes)) =
        calls.map Call.packet
  | [], 0, _, _, _ => rfl
  | [], fuel + 1, _, _, _ => by
      have read : readRecord f.swapped [] = none := rfl
      simp [replayRecords, read, injected]
  | call :: calls, fuel + 1, firstTs, sizes, enough => by
      rw [List.forall_mem_cons] at sizes
      have read :=
        readRecord_record sizes.1.1 sizes.1.2 ((calls.map Call.record).flatMap recordBytes)
      rw [← native] at read
      have offset : ipOffsetFor f.linkType call.packet = some 0 := by
        rw [ipOffsetFor, if_neg bare]
      have later := @injected_records f speed native bare calls fuel
        (some (firstTs.getD call.record.1.ts)) sizes.2 (Nat.le_of_succ_le_succ enough)
      rw [injected] at later ⊢
      rw [List.map_cons, List.flatMap_cons, replayRecords, read]
      simp only [offset, Option.map_some, List.drop_zero, List.filterMap_cons, later, List.map_cons]

/-- The header of the export is one that a replay accepts. -/
theorem open_export (rest : Bytes) :
    openAndValidate (some (exportHeader.encode ++ rest)) =
      .ok { swapped := false, linkType := LINKTYPE_RAW, rest } := by
  rw [openAndValidate]
  simp only [readBlock_append (GlobalHeader.encode_length exportHeader),
    GlobalHeader.decode_encode]
  rfl

theorem replay_contents {calls : List Call} (speed : ℚ)
    (sizes : ∀ call ∈ calls, call.packet ≠ [] ∧ call.packet.length ≤ PCAP_SNAPLEN) :
    injected (replayThreadProc
      (some (exportHeader.encode ++ (calls.map Call.record).flatMap recordBytes)) speed) =
      calls.map Call.packet := by
  have long : calls.length ≤ ((calls.map Call.record).flatMap recordBytes).length := by
    rw [List.length_flatMap, List.map_map]
    calc calls.length = (calls.map fun _ => 1).sum := by simp
      _ ≤ (calls.map ((fun record => (recordBytes record).length) ∘ Call.record)).sum := by
          refine List.sum_le_sum fun call _ => ?_
          simp only [Function.comp_apply, recordBytes, List.length_append,
            RecordHeader.encode_length, RecordHeader.size]
          omega
  simp only [replayThreadProc, open_export]
  exact injected_records rfl (show LINKTYPE_RAW ≠ LINKTYPE_ETHERNET by decide) sizes long

/-- The calls at the stage that `--pcap-stage` selects. -/
def selected (stage : Option String) (calls : List Call) : List Call :=
  calls.filter fun call => (resolveStage stage &&& call.stage) ≠ 0

/-- What a successful start leaves. -/
structure Started (maxPackets maxBytes : Int) (stage : Option String) (s : Export) : Prop where
  active   : s.pcapActive = true ∧ s.pcapFile = true
  contents : s.contents = exportHeader.encode
  stage    : s.pcapStage = resolveStage stage
  counters : s.pcapPackets = 0 ∧ s.pcapBytes = 0
  packets  : s.pcapMaxPkts = max maxPackets 0
  bytes    : s.pcapMaxBytes = max maxBytes 0

theorem pcapExportStart_started {path : String} {maxPackets maxBytes : Int}
    {stage : Option String} {disk : Disk} {before s : Export}
    (started : pcapExportStart path maxPackets maxBytes stage disk before = (s, true)) :
    Started maxPackets maxBytes stage s := by
  simp only [pcapExportStart] at started
  split_ifs at started with noPath closed short packets bytes bytes <;>
    simp only [Prod.mk.injEq, Bool.false_eq_true, and_false, and_true] at started
  all_goals
    subst started
    refine ⟨⟨rfl, rfl⟩, rfl, rfl, ⟨rfl, rfl⟩, ?_, ?_⟩ <;> dsimp only <;> omega

/-- **Export and replay.**  What is recorded after a successful start is the beginning of
what was selected, all of it while no limit is reached, and a replay of the file injects
exactly that. -/
theorem export_replay {w : Nat} (wide : 32 ≤ w) {before : Export} {path : String}
    {maxPackets maxBytes : Int} {stage : Option String} {disk : Disk} {s : Export}
    (started : pcapExportStart path maxPackets maxBytes stage disk before = (s, true))
    (packets : maxPackets < 2 ^ (w - 1)) (bytes : maxBytes < 2 ^ (w - 1)) {calls : List Call}
    (sizes : ∀ call ∈ calls, 1 ≤ call.packet.length ∧ call.packet.length ≤ 65535)
    (written : ∀ call ∈ calls, call.room = none) (speed : ℚ) :
    injected (replayThreadProc (some (pcapExportStop ((pcapExport w).run s calls)).contents)
        speed) = (recorded w s calls).map Call.packet ∧
      recorded w s calls <+: selected stage calls ∧
      ((∀ m < (selected stage calls).length,
          ¬LimitReached maxPackets maxBytes ((selected stage calls).take m)) →
        recorded w s calls = selected stage calls) := by
  have ready := pcapExportStart_started started
  have selects : calls.filter s.selects = selected stage calls := by
    refine List.filter_congr fun call member => ?_
    have some : call.packet.isEmpty = false := by
      rw [List.isEmpty_eq_false_iff, ← List.length_pos_iff]
      exact (sizes call member).1
    simp [Export.selects, ready.active.1, ready.active.2, ready.stage, some]
  have beginning := recorded_prefix (w := w) calls s
  have powers : (0 : Int) < 2 ^ (w - 1) := by positivity
  refine ⟨?_, ?_, ?_⟩
  · have stopped : (pcapExportStop ((pcapExport w).run s calls)).contents =
        ((pcapExport w).run s calls).contents := closed_contents _
    rw [stopped, run_contents calls s written, ready.contents]
    refine replay_contents speed fun call member => ?_
    have size := sizes call (List.mem_of_mem_filter (beginning.subset member))
    exact ⟨List.length_pos_iff.1 size.1, size.2⟩
  · rw [← selects]
    exact beginning
  · intro free
    rw [← selects] at free ⊢
    refine @recorded_all w wide calls s [] ?_ ?_ (fun call member => (sizes call member).2) written
      ?_ ?_
    · rw [ready.packets]
      exact max_lt packets powers
    · rw [ready.bytes]
      exact max_lt bytes powers
    · intro _
      exact ⟨fun _ => ready.counters.1, fun _ => ready.counters.2⟩
    · intro m below
      rw [List.nil_append, ready.packets, ready.bytes]
      have := free m below
      simp only [LimitReached] at this ⊢
      omega

/-- Two packets and another stage between them, with room for one packet. -/
def threeCalls : List Call :=
  [{ stage := PCAP_STAGE_POST, packet := [0x45, 1], micros := 1500000, room := none },
    { stage := PCAP_STAGE_PRE, packet := [0x45, 2], micros := 1600000, room := none },
    { stage := PCAP_STAGE_POST, packet := [0x60, 3, 4], micros := 1700000, room := none }]

theorem export_replay_one :
    injected (replayThreadProc (some (pcapExportStop ((pcapExport 64).run
        (pcapExportStart "a.pcap" 1 0 none { opens := true, header := 24 } .initial).1
        threeCalls)).contents) 1) = [[0x45, 1]] :=
  (@export_replay 64 (by decide) .initial "a.pcap" 1 0 none { opens := true, header := 24 } _ rfl
    (by decide) (by decide) threeCalls (List.forall_mem_cons.2 ⟨by decide, by decide⟩) (by decide)
    1).1.trans rfl

end Clumsy.Pcap
