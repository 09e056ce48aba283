/-
# Pcap.Limits -- do the size limits of a capture file hold?

`pcapExportWriteStage` compares its counters with the limits before it writes a packet, and
adds to them afterwards, in a 32-bit `long`.  The packet counter stops at its limit.  The
byte counter may pass its limit by one packet, and if that takes it to 2^31 it is negative
and the limit is never seen (`Overruns`).

The limits hold exactly for the packets that do not overrun (`limited_iff`), and for all of
them exactly if the byte limit is not that high or the packet limit comes first
(`export_limited_iff`).
-/
import Clumsy.Pcap.Export

namespace Clumsy.Pcap

open Clumsy.Theory
open Clumsy.Packet
open Clumsy.Stats

set_option autoImplicit false

/-- The bytes of these packets. -/
def bytesOf (taken : List Call) : Nat := (taken.map fun call => call.packet.length).sum

@[simp] theorem bytesOf_nil : bytesOf [] = 0 := rfl

@[simp] theorem bytesOf_append (as bs : List Call) : bytesOf (as ++ bs) = bytesOf as + bytesOf bs := by
  simp [bytesOf]

@[simp] theorem bytesOf_singleton (call : Call) : bytesOf [call] = call.packet.length := by
  simp [bytesOf]

theorem bytesOf_take_le (calls : List Call) (n : Nat) : bytesOf (calls.take n) ≤ bytesOf calls := by
  have split := bytesOf_append (calls.take n) (calls.drop n)
  rw [List.take_append_drop] at split
  omega

/-- **The size limits hold** for these calls: the packets stored in the file pass neither but
by one packet's bytes, and the first attempt to write behind a limit closes the file. -/
structure Limited (maxPackets maxBytes : Int) (s : Export) (calls : List Call) : Prop where
  /-- The file is the records of these packets, and what the disk took of one that failed. -/
  stored  : ∃ torn, ((pcapExport 32).run s calls).contents =
      s.contents ++ ((recorded 32 s calls).map Call.record).flatMap recordBytes ++ torn ∧
    (torn ≠ [] → ∃ call ∈ calls, ∃ room, call.room = some room ∧
      torn = (recordBytes call.record).take room)
  packets : 0 < maxPackets → ((recorded 32 s calls).length : Int) ≤ maxPackets
  bytes   : 0 < maxBytes → (bytesOf (recorded 32 s calls) : Int) < maxBytes + 65535
  closes  : ∀ before call after, calls = before ++ call :: after →
    LimitReached maxPackets maxBytes (recorded 32 s before) →
      ((pcapExport 32).run s before).selects call = true →
        (pcapExportWriteStage 32 call ((pcapExport 32).run s before)).pcapFile = false

/-- The packets that are there to be written, up to a write that fails. -/
def attempts (s : Export) (calls : List Call) : List Call :=
  (calls.filter s.selects).takeWhile fun call => call.room.isNone

/-- **The byte counter goes round before a limit is seen**: no limit was reached before the
last of the first `n` packets, they come to 2^31 bytes, the packet limit is not reached with
them, and another packet follows. -/
def Overruns (maxPackets maxBytes : Int) (packets : List Call) : Prop :=
  ∃ n < packets.length, (∀ j < n, ¬LimitReached maxPackets maxBytes (packets.take j)) ∧
    0 < maxBytes ∧ 2 ^ 31 ≤ bytesOf (packets.take n) ∧ ¬(0 < maxPackets ∧ maxPackets ≤ n)

/-! ## The state of a file that is open -/

/-- The file is open, and the counters are what was written, modulo 2^32. -/
structure Recording (maxPackets maxBytes : Int) (s t : Export) (before : List Call) : Prop where
  selects  : t.selects = s.selects
  opened   : t.pcapFile = true
  limits   : t.pcapMaxPkts = max maxPackets 0 ∧ t.pcapMaxBytes = max maxBytes 0
  taken    : recorded 32 s before = before.filter s.selects
  written  : ∀ call ∈ before.filter s.selects, call.room = none
  packets  : t.pcapPackets = long 32 (before.filter s.selects).length
  bytes    : t.pcapBytes = long 32 (bytesOf (before.filter s.selects))

theorem recorded_append (s : Export) (calls calls' : List Call) :
    recorded 32 s (calls ++ calls') =
      recorded 32 s calls ++ recorded 32 ((pcapExport 32).run s calls) calls' := by
  unfold recorded
  rw [Machine.outputs_append, List.reduceOption_append]

theorem recorded_singleton (s : Export) (call : Call) :
    recorded 32 s [call] = if s.records call then [call] else [] := by
  rw [recorded_cons]
  simp [recorded, Machine.outputs]

variable {maxPackets maxBytes : Int} {s : Export}

/-- **One more call.** -/
theorem Recording.step {t : Export} {before : List Call}
    (recording : Recording maxPackets maxBytes s t before)
    (run : (pcapExport 32).run s before = t) (call : Call)
    (size : call.packet.length ≤ PCAP_SNAPLEN) :
    Recording maxPackets maxBytes s (pcapExportWriteStage 32 call t) (before ++ [call]) ∨
      (pcapExportWriteStage 32 call t).pcapFile = false := by
  obtain ⟨selects, opened, limits, taken, written, packets, bytes⟩ := recording
  have all := recorded_append s before [call]
  rw [run, recorded_singleton, taken] at all
  rcases writeStage_cases 32 call t with
    ⟨unselected, unrecorded, same⟩ | ⟨selected, recordsIt, room⟩ | ⟨-, -, torn, step, -⟩
  · left
    have more : (before ++ [call]).filter s.selects = before.filter s.selects := by
      rw [List.filter_append, List.filter_singleton, ← selects]
      simp [unselected]
    rw [same]
    have none : recorded 32 s (before ++ [call]) = before.filter s.selects := by
      simpa [unrecorded] using all
    exact ⟨selects, opened, limits, none.trans more.symm, by rw [more]; exact written,
      by rw [more]; exact packets, by rw [more]; exact bytes⟩
  · left
    have more : (before ++ [call]).filter s.selects = before.filter s.selects ++ [call] := by
      rw [List.filter_append, List.filter_singleton, ← selects, selected]
      rfl
    rw [writeStage_records recordsIt, record_packet size]
    exact {
      selects := selects
      opened := opened
      limits := limits
      taken := by rw [all, if_pos recordsIt, more]
      written := by
        rw [more]
        intro other member
        rcases List.mem_append.1 member with old | new
        · exact written other old
        · rw [List.mem_singleton.1 new]
          exact room
      packets := by
        show long 32 (t.pcapPackets + 1) = _
        rw [packets, more, List.length_append, List.length_singleton, Nat.cast_add]
        exact long_add _ 1
      bytes := by
        show long 32 (t.pcapBytes + call.packet.length) = _
        rw [bytes, more, bytesOf_append, bytesOf_singleton, Nat.cast_add]
        exact long_add _ _ }
  · right
    rw [step]
    simp [closeFileLocked, opened]

/-- A closed file stays closed. -/
theorem closed_step {t : Export} (closed : t.pcapFile = false) (call : Call) :
    (pcapExportWriteStage 32 call t).pcapFile = false := by
  have unselected : t.selects call = false := by simp [Export.selects, closed]
  simp [pcapExportWriteStage, unselected, closed]

theorem Started.recording {stage : Option String} (started : Started maxPackets maxBytes stage s) :
    Recording maxPackets maxBytes s s [] where
  selects := rfl
  opened := started.active.2
  limits := ⟨started.packets, started.bytes⟩
  taken := rfl
  written := by simp
  packets := by simp [started.counters.1, long]
  bytes := by simp [started.counters.2, long]

/-- **After any calls** the file is recording or closed. -/
theorem run_recording {stage : Option String} (started : Started maxPackets maxBytes stage s)
    (before : List Call) (sizes : ∀ call ∈ before, call.packet.length ≤ PCAP_SNAPLEN) :
    Recording maxPackets maxBytes s ((pcapExport 32).run s before) before ∨
      ((pcapExport 32).run s before).pcapFile = false := by
  induction before using List.reverseRecOn with
  | nil => exact Or.inl started.recording
  | append_singleton before call ih =>
      rw [List.forall_mem_append] at sizes
      rw [(pcapExport 32).run_append]
      rcases ih sizes.1 with recording | closed
      · exact recording.step rfl call (sizes.2 call (List.mem_singleton_self call))
      · exact Or.inr (closed_step closed call)

/-- An open file has come this far in the attempts. -/
theorem Recording.attempts_eq {t : Export} {before : List Call}
    (recording : Recording maxPackets maxBytes s t before) (after : List Call) :
    attempts s (before ++ after) = before.filter s.selects ++ attempts s after := by
  unfold attempts
  rw [List.filter_append, List.takeWhile_append_of_pos]
  intro call member
  rw [recording.written call member]
  rfl

/-- **While the byte counter has not gone round, a limit that is reached is seen.** -/
theorem Recording.hits {t : Export} {before : List Call}
    (recording : Recording maxPackets maxBytes s t before)
    (packetRange : maxPackets < 2 ^ 31) (byteRange : maxBytes < 2 ^ 31)
    (free : ∀ j < (before.filter s.selects).length,
      ¬LimitReached maxPackets maxBytes ((before.filter s.selects).take j))
    (even : 0 < maxBytes → 2 ^ 31 ≤ bytesOf (before.filter s.selects) →
      0 < maxPackets ∧ maxPackets ≤ (before.filter s.selects).length)
    (reached : LimitReached maxPackets maxBytes (before.filter s.selects)) :
    t.hitLimit = true := by
  obtain ⟨-, -, limits, -, -, packets, bytes⟩ := recording
  generalize before.filter s.selects = taken at *
  have byPackets : 0 < maxPackets → maxPackets ≤ taken.length → t.hitLimit = true := by
    intro limited full
    have last : (taken.length : Int) ≤ maxPackets := by
      rcases Nat.eq_zero_or_pos taken.length with none | some
      · omega
      · have before := free (taken.length - 1) (by omega)
        simp only [LimitReached, not_or, not_and, not_le, List.length_take] at before
        have below := before.1 limited
        omega
    have count : t.pcapPackets = taken.length := by
      rw [packets, long_of_range (by decide) (by omega) (by omega)]
    simp only [Export.hitLimit, limits.1, count, Bool.or_eq_true, Bool.and_eq_true,
      decide_eq_true_eq]
    left
    omega
  rcases reached with ⟨limited, full⟩ | ⟨limited, full⟩
  · exact byPackets limited full
  · by_cases round : 2 ^ 31 ≤ bytesOf taken
    · obtain ⟨limited', full'⟩ := even limited round
      exact byPackets limited' full'
    · have count : t.pcapBytes = bytesOf taken := by
        rw [bytes, long_of_range (by decide) (by omega) (by omega)]
      have full : maxBytes ≤ (bytesOf taken : Int) := full
      simp only [Export.hitLimit, limits.2, count, Bool.or_eq_true, Bool.and_eq_true,
        decide_eq_true_eq]
      right
      omega

/-- Once it has, it is not, unless the packet limit is. -/
theorem Recording.misses {t : Export} {before : List Call}
    (recording : Recording maxPackets maxBytes s t before)
    (packetRange : maxPackets < 2 ^ 31) (below : bytesOf (before.filter s.selects) < 2 ^ 32)
    (round : 2 ^ 31 ≤ bytesOf (before.filter s.selects))
    (room : ¬(0 < maxPackets ∧ maxPackets ≤ (before.filter s.selects).length)) :
    t.hitLimit = false := by
  obtain ⟨-, -, limits, -, -, packets, bytes⟩ := recording
  generalize before.filter s.selects = taken at *
  have negative : t.pcapBytes < 0 := by
    rw [bytes]
    exact long_negative (by decide) (by omega) (by omega)
  have count : 0 < maxPackets → t.pcapPackets < maxPackets := by
    intro limited
    have few : (taken.length : Int) < maxPackets := by
      by_contra full
      exact room ⟨limited, by omega⟩
    rw [packets, long_of_range (by decide) (by omega) (by omega)]
    exact few
  simp only [Export.hitLimit, limits.1, limits.2, Bool.or_eq_false_iff, Bool.and_eq_false_iff,
    decide_eq_false_iff_not]
  refine ⟨?_, ?_⟩
  · by_cases limited : 0 < maxPackets
    · right
      have := count limited
      omega
    · left
      omega
  · by_cases limited : 0 < maxBytes
    · right
      omega
    · left
      omega

/-- Where no limit is reached none is seen. -/
theorem Recording.spares {t : Export} {before : List Call}
    (recording : Recording maxPackets maxBytes s t before)
    (packetRange : maxPackets < 2 ^ 31) (byteRange : maxBytes < 2 ^ 31)
    (free : ¬LimitReached maxPackets maxBytes (before.filter s.selects)) :
    t.hitLimit = false := by
  obtain ⟨-, -, limits, -, -, packets, bytes⟩ := recording
  generalize before.filter s.selects = taken at *
  simp only [LimitReached, not_or, not_and, not_le] at free
  obtain ⟨few, light⟩ := free
  have light : 0 < maxBytes → (bytesOf taken : Int) < maxBytes := light
  simp only [Export.hitLimit, limits.1, limits.2, Bool.or_eq_false_iff, Bool.and_eq_false_iff,
    decide_eq_false_iff_not]
  refine ⟨?_, ?_⟩
  · by_cases limited : 0 < maxPackets
    · right
      have := few limited
      rw [packets, long_of_range (by decide) (by omega) (by omega)]
      omega
    · left
      omega
  · by_cases limited : 0 < maxBytes
    · right
      have := light limited
      rw [bytes, long_of_range (by decide) (by omega) (by omega)]
      omega
    · left
      omega

/-! ## Packets that do not overrun -/

theorem mem_recorded {calls : List Call} {s : Export} {call : Call}
    (member : call ∈ recorded 32 s calls) : call ∈ calls := by
  induction calls generalizing s with
  | nil => cases member
  | cons first calls ih =>
      rw [recorded_cons, List.mem_append] at member
      rcases member with here | later
      · split_ifs at here
        · rw [List.mem_singleton.1 here]
          exact List.mem_cons_self
        · cases here
      · exact List.mem_cons_of_mem _ (ih later)

/-- A gap at an attempt is an overrun. -/
theorem Recording.overruns {t : Export} {before : List Call}
    (recording : Recording maxPackets maxBytes s t before) {call : Call} (after : List Call)
    (selected : t.selects call = true) (written : call.room = none)
    (free : ∀ j < (before.filter s.selects).length,
      ¬LimitReached maxPackets maxBytes ((before.filter s.selects).take j))
    (limited : 0 < maxBytes) (round : 2 ^ 31 ≤ bytesOf (before.filter s.selects))
    (room : ¬(0 < maxPackets ∧ maxPackets ≤ (before.filter s.selects).length)) :
    Overruns maxPackets maxBytes (attempts s (before ++ call :: after)) := by
  have split := recording.attempts_eq (call :: after)
  have more : attempts s (call :: after) = call :: attempts s after := by
    unfold attempts
    rw [← recording.selects, List.filter_cons_of_pos selected, List.takeWhile_cons_of_pos]
    rw [written]
    rfl
  rw [more] at split
  rw [split]
  refine ⟨(before.filter s.selects).length, ?_, ?_, limited, ?_, room⟩
  · rw [List.length_append, List.length_cons]
    omega
  · intro j below
    rw [List.take_append_of_le_length (by omega)]
    exact free j below
  · rw [List.take_left]
    exact round

/-- What was recorded had reached no limit before its last packet. -/
theorem recorded_free {stage : Option String} (started : Started maxPackets maxBytes stage s)
    (packetRange : maxPackets < 2 ^ 31) (byteRange : maxBytes < 2 ^ 31) (before after : List Call)
    (sizes : ∀ call ∈ before, call.packet.length ≤ PCAP_SNAPLEN)
    (even : ¬Overruns maxPackets maxBytes (attempts s (before ++ after))) :
    ∀ j < (recorded 32 s before).length,
      ¬LimitReached maxPackets maxBytes ((recorded 32 s before).take j) := by
  induction before using List.reverseRecOn generalizing after with
  | nil => exact fun j below => absurd below (Nat.not_lt_zero j)
  | append_singleton before call ih =>
      rw [List.forall_mem_append] at sizes
      rw [List.append_assoc, List.singleton_append] at even
      have earlier := ih (call :: after) sizes.1 even
      rw [recorded_append, recorded_singleton]
      split_ifs with recordsIt
      · simp only [Export.records, Bool.and_eq_true, Bool.not_eq_true',
          Option.isNone_iff_eq_none] at recordsIt
        obtain ⟨⟨selected, unseen⟩, written⟩ := recordsIt
        rcases run_recording started before sizes.1 with recording | closed
        · rw [recording.taken] at earlier ⊢
          intro j below
          rw [List.length_append, List.length_singleton] at below
          rcases Nat.lt_or_ge j (before.filter s.selects).length with old | last
          · rw [List.take_append_of_le_length (by omega)]
            exact earlier j old
          · obtain rfl : j = (before.filter s.selects).length := by omega
            rw [List.take_left]
            intro reached
            have seen := recording.hits packetRange byteRange earlier ?_ reached
            · rw [unseen] at seen
              cases seen
            · intro limited round
              by_contra room
              exact even (recording.overruns after selected written earlier limited round room)
        · rw [selects_opened selected] at closed
          cases closed
      · rw [List.append_nil]
        exact earlier

/-- Up to the packet that reaches the byte limit there is room for one more. -/
theorem bytesOf_free {packets : List Call} (limited : 0 < maxBytes)
    (sizes : ∀ call ∈ packets, call.packet.length ≤ PCAP_SNAPLEN)
    (free : ∀ j < packets.length, ¬LimitReached maxPackets maxBytes (packets.take j)) :
    (bytesOf packets : Int) < maxBytes + 65535 := by
  rcases List.eq_nil_or_concat packets with none | ⟨init, last, all⟩
  · rw [none, bytesOf_nil]
    omega
  · rw [List.concat_eq_append] at all
    subst all
    have size := sizes last (List.mem_append_right _ (List.mem_singleton_self last))
    have before := free init.length (by
      rw [List.length_append, List.length_singleton]
      omega)
    rw [List.take_left] at before
    simp only [LimitReached, not_or, not_and, not_le] at before
    have below : (bytesOf init : Int) < maxBytes := before.2 limited
    simp only [PCAP_SNAPLEN] at size
    rw [bytesOf_append, bytesOf_singleton]
    omega

/-- **Without an overrun the limits hold.** -/
theorem limited_of_even {stage : Option String} (started : Started maxPackets maxBytes stage s)
    (packetRange : maxPackets < 2 ^ 31) (byteRange : maxBytes < 2 ^ 31) {calls : List Call}
    (sizes : ∀ call ∈ calls, call.packet.length ≤ PCAP_SNAPLEN)
    (even : ¬Overruns maxPackets maxBytes (attempts s calls)) :
    Limited maxPackets maxBytes s calls := by
  have free := recorded_free started packetRange byteRange calls [] sizes (by
    rw [List.append_nil]
    exact even)
  refine ⟨run_stored calls s, ?_, ?_, ?_⟩
  · intro limited
    rcases Nat.eq_zero_or_pos (recorded 32 s calls).length with none | some
    · omega
    · have before := free ((recorded 32 s calls).length - 1) (by omega)
      simp only [LimitReached, not_or, not_and, not_le, List.length_take] at before
      have below := before.1 limited
      omega
  · intro limited
    exact bytesOf_free limited (fun call member => sizes call (mem_recorded member)) free
  · rintro before call after rfl reached selected
    rw [List.forall_mem_append] at sizes
    have earlier := recorded_free started packetRange byteRange before (call :: after) sizes.1 even
    rcases run_recording started before sizes.1 with recording | closed
    · cases written : call.room with
      | some n =>
          cases limit : ((pcapExport 32).run s before).hitLimit <;>
            simp [pcapExportWriteStage, selected, limit, written, closeFileLocked,
              recording.opened]
      | none =>
          rw [recording.taken] at reached earlier
          have seen := recording.hits packetRange byteRange earlier ?_ reached
          · simp [pcapExportWriteStage, selected, seen, closeFileLocked, recording.opened]
          · intro limited round
            by_contra room
            exact even (recording.overruns after selected written earlier limited round room)
    · rw [selects_opened selected] at closed
      cases closed

/-! ## Packets that overrun -/

/-- Where the `n`-th attempt stands among the calls. -/
theorem exists_attempt {s : Export} {calls : List Call} {n : Nat}
    (there : n < (attempts s calls).length) :
    ∃ before call after, calls = before ++ call :: after ∧
      before.filter s.selects = (attempts s calls).take n ∧ s.selects call = true ∧
        call.room = none := by
  induction calls generalizing n with
  | nil => simp [attempts] at there
  | cons first calls ih =>
      by_cases selected : s.selects first = true
      · by_cases written : first.room = none
        · have more : attempts s (first :: calls) = first :: attempts s calls := by
            unfold attempts
            rw [List.filter_cons_of_pos selected, List.takeWhile_cons_of_pos (by rw [written]; rfl)]
          rw [more] at there ⊢
          cases n with
          | zero => exact ⟨[], first, calls, rfl, rfl, selected, written⟩
          | succ n =>
              obtain ⟨before, call, after, split, taken, chosen⟩ :=
                ih (Nat.lt_of_succ_lt_succ there)
              refine ⟨first :: before, call, after, by rw [split]; rfl, ?_, chosen⟩
              rw [List.filter_cons_of_pos selected, taken, List.take_succ_cons]
        · have none : attempts s (first :: calls) = [] := by
            unfold attempts
            rw [List.filter_cons_of_pos selected, List.takeWhile_cons_of_neg]
            simpa using written
          rw [none] at there
          cases there
      · have same : attempts s (first :: calls) = attempts s calls := by
          unfold attempts
          rw [List.filter_cons_of_neg selected]
        rw [same] at there ⊢
        obtain ⟨before, call, after, split, taken, chosen⟩ := ih there
        refine ⟨first :: before, call, after, by rw [split]; rfl, ?_, chosen⟩
        rw [List.filter_cons_of_neg selected, taken]

theorem attempts_written {s : Export} {calls : List Call} :
    ∀ call ∈ attempts s calls, call.room = none := by
  intro call member
  have written := List.mem_takeWhile_imp member
  simpa using written

/-- As long as no limit is reached and every write succeeds, the file stays open. -/
theorem recording_of_free {stage : Option String} (started : Started maxPackets maxBytes stage s)
    (packetRange : maxPackets < 2 ^ 31) (byteRange : maxBytes < 2 ^ 31) (before : List Call)
    (sizes : ∀ call ∈ before, call.packet.length ≤ PCAP_SNAPLEN)
    (written : ∀ call ∈ before.filter s.selects, call.room = none)
    (free : ∀ j < (before.filter s.selects).length,
      ¬LimitReached maxPackets maxBytes ((before.filter s.selects).take j)) :
    Recording maxPackets maxBytes s ((pcapExport 32).run s before) before := by
  induction before using List.reverseRecOn with
  | nil => exact started.recording
  | append_singleton before call ih =>
      rw [List.forall_mem_append] at sizes
      rw [List.filter_append, List.forall_mem_append] at written
      rw [List.filter_append] at free
      have recording := ih sizes.1 written.1 (by
        intro j below
        have earlier := free j (by rw [List.length_append]; omega)
        rwa [List.take_append_of_le_length (by omega)] at earlier)
      have size := sizes.2 call (List.mem_singleton_self call)
      rw [(pcapExport 32).run_append]
      rcases recording.step rfl call size with next | closed
      · exact next
      · by_cases selected : s.selects call = true
        · have single : [call].filter s.selects = [call] := by
            rw [List.filter_singleton, selected]
            rfl
          rw [single] at written free
          have now := free (before.filter s.selects).length (by
            rw [List.length_append, List.length_singleton]
            omega)
          rw [List.take_left] at now
          have unseen := recording.spares packetRange byteRange now
          have chosen := selected
          rw [← recording.selects] at chosen
          have room := written.2 call (List.mem_singleton_self call)
          simp [pcapExportWriteStage, chosen, unseen, room, recording.opened] at closed
        · have missed := selected
          rw [← recording.selects] at missed
          simp [pcapExportWriteStage, missed, recording.opened] at closed

/-- **An overrun leaves the file open behind its limit.** -/
theorem not_limited_of_overruns {stage : Option String}
    (started : Started maxPackets maxBytes stage s)
    (packetRange : maxPackets < 2 ^ 31) (byteRange : maxBytes < 2 ^ 31) {calls : List Call}
    (sizes : ∀ call ∈ calls, call.packet.length ≤ PCAP_SNAPLEN)
    (overruns : Overruns maxPackets maxBytes (attempts s calls)) :
    ¬Limited maxPackets maxBytes s calls := by
  obtain ⟨n, there, free, limited, round, room⟩ := overruns
  have written := @attempts_written s calls
  obtain ⟨before, call, after, split, taken, selected, chosen⟩ := exists_attempt there
  have count : (before.filter s.selects).length = n := by
    rw [taken, List.length_take_of_le (by omega)]
  have inside : ∀ c ∈ before, c.packet.length ≤ PCAP_SNAPLEN := by
    intro c member
    exact sizes c (by rw [split]; exact List.mem_append_left _ member)
  have earlier : ∀ j < (before.filter s.selects).length,
      ¬LimitReached maxPackets maxBytes ((before.filter s.selects).take j) := by
    intro j below
    rw [taken, List.take_take, Nat.min_eq_left (by omega)]
    exact free j (by omega)
  have recording := recording_of_free started packetRange byteRange before inside (by
    rw [taken]
    exact fun c member => written c (List.mem_of_mem_take member)) earlier
  have below : bytesOf (before.filter s.selects) < 2 ^ 32 := by
    have light := bytesOf_free limited
      (fun c member => inside c (List.mem_of_mem_filter member)) earlier
    omega
  rw [← taken] at round
  have unseen := recording.misses packetRange below round (by rw [count]; exact room)
  intro holds
  have reached : LimitReached maxPackets maxBytes (recorded 32 s before) := by
    rw [recording.taken]
    refine Or.inr ⟨limited, ?_⟩
    show maxBytes ≤ (bytesOf (before.filter s.selects) : Int)
    omega
  have open_ : ((pcapExport 32).run s before).selects call = true := by
    rw [recording.selects]
    exact selected
  have closed := holds.closes before call after split reached open_
  simp [pcapExportWriteStage, open_, unseen, chosen, recording.opened] at closed

/-- **The limits hold for the packets that do not overrun, and for no others.** -/
theorem limited_iff {stage : Option String} (started : Started maxPackets maxBytes stage s)
    (packetRange : maxPackets < 2 ^ 31) (byteRange : maxBytes < 2 ^ 31) {calls : List Call}
    (sizes : ∀ call ∈ calls, call.packet.length ≤ PCAP_SNAPLEN) :
    Limited maxPackets maxBytes s calls ↔ ¬Overruns maxPackets maxBytes (attempts s calls) :=
  ⟨fun holds overruns =>
      not_limited_of_overruns started packetRange byteRange sizes overruns holds,
    limited_of_even started packetRange byteRange sizes⟩

/-! ## Limits that hold for all packets -/

theorem bytesOf_le {calls : List Call} (sizes : ∀ call ∈ calls, call.packet.length ≤ PCAP_SNAPLEN) :
    bytesOf calls ≤ 65535 * calls.length := by
  induction calls with
  | nil => simp
  | cons call calls ih =>
      rw [List.forall_mem_cons] at sizes
      have rest := ih sizes.2
      have size := sizes.1
      simp only [PCAP_SNAPLEN] at size
      have split : bytesOf (call :: calls) = call.packet.length + bytesOf calls := by
        simp [bytesOf]
      rw [split, List.length_cons]
      omega

/-- **An overrun takes a high byte limit and many packets.** -/
theorem Overruns.range {packets : List Call} (overruns : Overruns maxPackets maxBytes packets)
    (sizes : ∀ call ∈ packets, call.packet.length ≤ PCAP_SNAPLEN) :
    2147418113 < maxBytes ∧ ¬(0 < maxPackets ∧ maxPackets ≤ 32769) := by
  obtain ⟨n, there, free, limited, round, room⟩ := overruns
  have few := bytesOf_le fun call (member : call ∈ packets.take n) =>
    sizes call (List.mem_of_mem_take member)
  rw [List.length_take_of_le (by omega)] at few
  have last : packets.take n = packets.take (n - 1) ++ [packets[n - 1]] := by
    have next := List.take_succ_eq_append_getElem (l := packets) (i := n - 1) (by omega)
    rwa [Nat.sub_add_cancel (by omega)] at next
  have size := sizes packets[n - 1] (List.getElem_mem _)
  have light := free (n - 1) (by omega)
  simp only [LimitReached, not_or, not_and, not_le] at light
  have light : (bytesOf (packets.take (n - 1)) : Int) < maxBytes := light.2 limited
  rw [last, bytesOf_append, bytesOf_singleton] at round
  simp only [PCAP_SNAPLEN] at size
  constructor
  · omega
  · rintro ⟨some, few'⟩
    exact room ⟨some, by omega⟩

/-- `n` bytes at a stage, and a write that succeeds. -/
def packetOf (stage n : Nat) : Call :=
  { stage, packet := List.replicate n 0, micros := 0, room := none }

/-- Packets that come to one byte less than a high limit, two more behind them. -/
def roundCalls (stage : Nat) : List Call :=
  List.replicate 32767 (packetOf stage 65535) ++ [packetOf stage 32768] ++
    [packetOf stage 65535] ++ [packetOf stage 1]

theorem packetOf_length (stage n : Nat) : (packetOf stage n).packet.length = n :=
  List.length_replicate

theorem mem_roundCalls {stage : Nat} {call : Call} (member : call ∈ roundCalls stage) :
    ∃ n, 1 ≤ n ∧ n ≤ 65535 ∧ call = packetOf stage n := by
  simp only [roundCalls, List.mem_append, List.mem_replicate, List.mem_singleton] at member
  rcases member with ((⟨-, rfl⟩ | rfl) | rfl) | rfl
  · exact ⟨65535, by omega, by omega, rfl⟩
  · exact ⟨32768, by omega, by omega, rfl⟩
  · exact ⟨65535, by omega, by omega, rfl⟩
  · exact ⟨1, by omega, by omega, rfl⟩

theorem roundCalls_sizes (stage : Nat) :
    ∀ call ∈ roundCalls stage, call.packet.length ≤ PCAP_SNAPLEN := by
  intro call member
  obtain ⟨n, -, high, rfl⟩ := mem_roundCalls member
  rw [packetOf_length]
  exact high

/-- All of them are attempts. -/
theorem attempts_roundCalls {stage : Option String} (started : Started maxPackets maxBytes stage s) :
    attempts s (roundCalls s.pcapStage) = roundCalls s.pcapStage := by
  have stages : s.pcapStage ≠ 0 := by
    rw [started.stage]
    unfold resolveStage
    split
    · decide
    · split_ifs <;> decide
  have selected : ∀ call ∈ roundCalls s.pcapStage, s.selects call = true := by
    intro call member
    obtain ⟨n, low, -, rfl⟩ := mem_roundCalls member
    have some : (packetOf s.pcapStage n).packet ≠ [] := by
      rw [← List.length_pos_iff, packetOf_length]
      exact low
    have same : (packetOf s.pcapStage n).stage = s.pcapStage := rfl
    simp only [Export.selects, started.active.1, started.active.2, List.isEmpty_eq_false_iff.2 some,
      same, Nat.and_self, Bool.not_false, Bool.and_self, Bool.true_and, decide_eq_true_eq]
    exact stages
  unfold attempts
  rw [List.filter_eq_self.2 selected, List.takeWhile_eq_self_iff]
  intro call member
  obtain ⟨n, -, -, rfl⟩ := mem_roundCalls member
  rfl

/-- **They overrun every limit so high.** -/
theorem overruns_roundCalls (stage : Nat) (high : 2147418113 < maxBytes)
    (many : ¬(0 < maxPackets ∧ maxPackets ≤ 32769)) :
    Overruns maxPackets maxBytes (roundCalls stage) := by
  have full : ∀ n, bytesOf (List.replicate n (packetOf stage 65535)) = n * 65535 := by
    intro n
    simp only [bytesOf, List.map_replicate, packetOf_length, List.sum_replicate, smul_eq_mul]
  have first : ((List.replicate 32767 (packetOf stage 65535)) ++
      [packetOf stage 32768]).length = 32768 := by
    rw [List.length_append, List.length_replicate, List.length_singleton]
  have light : bytesOf (List.replicate 32767 (packetOf stage 65535) ++ [packetOf stage 32768]) =
      2147418113 := by
    rw [bytesOf_append, full, bytesOf_singleton, packetOf_length]
  have front : ((List.replicate 32767 (packetOf stage 65535)) ++ [packetOf stage 32768] ++
      [packetOf stage 65535]).length = 32769 := by
    rw [List.length_append, first, List.length_singleton]
  refine ⟨32769, ?_, ?_, by omega, ?_, ?_⟩
  · unfold roundCalls
    rw [List.length_append, front, List.length_singleton]
    decide
  · intro j below reached
    have within : (roundCalls stage).take j = (List.replicate 32767 (packetOf stage 65535) ++
        [packetOf stage 32768]).take j := by
      unfold roundCalls
      rw [List.take_append_of_le_length (by rw [front]; omega),
        List.take_append_of_le_length (by rw [first]; omega)]
    rw [within] at reached
    rcases reached with ⟨limited, full⟩ | ⟨-, heavy⟩
    · rw [List.length_take_of_le (by rw [first]; omega)] at full
      exact many ⟨limited, by omega⟩
    · have heavy : maxBytes ≤ (bytesOf ((List.replicate 32767 (packetOf stage 65535) ++
          [packetOf stage 32768]).take j) : Int) := heavy
      have least := bytesOf_take_le (List.replicate 32767 (packetOf stage 65535) ++
        [packetOf stage 32768]) j
      rw [light] at least
      omega
  · unfold roundCalls
    rw [List.take_left' front, bytesOf_append, light, bytesOf_singleton, packetOf_length]
    decide
  · exact fun both => many ⟨both.1, by exact_mod_cast both.2⟩

theorem mem_attempts {calls : List Call} {call : Call} (member : call ∈ attempts s calls) :
    call ∈ calls :=
  List.mem_of_mem_filter ((List.takeWhile_prefix _).subset member)

/-- **The size limits.**  After a successful start they hold for the packets that do not
overrun, and for no others; and they hold for all packets exactly if the byte limit is more
than a packet away from 2^31, or the packet limit comes first. -/
theorem export_limited_iff {before : Export} {path : String} {stage : Option String} {disk : Disk}
    (start : pcapExportStart path maxPackets maxBytes stage disk before = (s, true))
    (packetRange : maxPackets < 2 ^ 31) (byteRange : maxBytes < 2 ^ 31) :
    (∀ calls : List Call, (∀ call ∈ calls, call.packet.length ≤ 65535) →
        (Limited maxPackets maxBytes s calls ↔
          ¬Overruns maxPackets maxBytes (attempts s calls))) ∧
      ((∀ calls : List Call, (∀ call ∈ calls, call.packet.length ≤ 65535) →
          Limited maxPackets maxBytes s calls) ↔
        maxBytes ≤ 2147418113 ∨ 0 < maxPackets ∧ maxPackets ≤ 32769) := by
  have started := pcapExportStart_started start
  refine ⟨fun calls sizes => limited_iff started packetRange byteRange sizes, ?_, ?_⟩
  · intro all
    by_contra high
    rw [not_or, not_le] at high
    refine not_limited_of_overruns started packetRange byteRange (roundCalls_sizes s.pcapStage) ?_
      (all (roundCalls s.pcapStage) (roundCalls_sizes s.pcapStage))
    rw [attempts_roundCalls started]
    exact overruns_roundCalls s.pcapStage high.1 high.2
  · intro low calls sizes
    refine limited_of_even started packetRange byteRange sizes ?_
    intro overruns
    obtain ⟨high, many⟩ := overruns.range fun call member => sizes call (mem_attempts member)
    rcases low with low | few
    · omega
    · exact many few

/-- An export with these limits, from the beginning. -/
def limitedStart (maxPackets maxBytes : Int) : Export × Bool :=
  pcapExportStart "a.pcap" maxPackets maxBytes none { opens := true, header := 24 } .initial

/-- With a limit of two bytes the first of the three packets is stored, and the attempt at the
third one closes the file. -/
theorem export_limited_iff_one :
    (recorded 32 (limitedStart 0 2).1 threeCalls).map Call.packet = [[0x45, 1]] ∧
      ((pcapExport 32).run (limitedStart 0 2).1 threeCalls).pcapFile = false ∧
      Limited 0 2 (limitedStart 0 2).1 threeCalls ∧
      ¬Overruns 0 2 (attempts (limitedStart 0 2).1 threeCalls) := by
  obtain ⟨each, all⟩ := @export_limited_iff 0 2 _ .initial "a.pcap" none
    { opens := true, header := 24 } rfl (by decide) (by decide)
  have sizes : ∀ call ∈ threeCalls, call.packet.length ≤ 65535 := by decide
  have limited := all.2 (.inl (by decide)) threeCalls sizes
  exact ⟨by decide, by decide, limited, (each threeCalls sizes).1 limited⟩

/-- With the highest byte limit and no packet limit, the packet that reaches 2^31 bytes is not
the last one. -/
theorem highest_limit_passed :
    (∀ call ∈ roundCalls 2, call.packet.length ≤ 65535) ∧
      ¬Limited 0 2147483647 (limitedStart 0 2147483647).1 (roundCalls 2) := by
  have started : Started 0 2147483647 none (limitedStart 0 2147483647).1 :=
    @pcapExportStart_started "a.pcap" 0 2147483647 none { opens := true, header := 24 } .initial _
      rfl
  have stage : (limitedStart 0 2147483647).1.pcapStage = 2 := rfl
  have same := attempts_roundCalls started
  rw [stage] at same
  refine ⟨roundCalls_sizes 2, not_limited_of_overruns started (by decide) (by decide)
    (roundCalls_sizes 2) ?_⟩
  rw [same]
  exact overruns_roundCalls 2 (by decide) (by decide)

end Clumsy.Pcap
