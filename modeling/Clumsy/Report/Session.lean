/-
# Report.Session -- report.cpp: what a session leaves behind

Samples come from the main loop, a second or more apart, and stop coming when there are 600 of
them; events are noted by whatever happens, as long as there is room.  Both carry the time since
the session began, on the 32-bit tick.

`Session.Ok` is what every operation keeps: that spacing on the clock itself, and what the
elapsed times are of.
-/
import Clumsy.Modules.Settings
import Clumsy.Theory.Clock

namespace Clumsy.Report

open Clumsy.Theory.Clock (tickAt elapsed_le)
open Clumsy.Modules (ModuleId)

set_option autoImplicit false

def MAX_SAMPLES : Nat := 600
def MAX_EVENTS : Nat := 256
def EVENT_TEXT : Nat := 192
def SAMPLE_INTERVAL_MS : UInt32 := 1000
def FILTER_BUFSIZE : Nat := 1024

structure ReportSample where
  elapsedMs : UInt32
  captured  : Int
  sent      : Int

structure SessionEvent where
  elapsedMs : UInt32
  text      : List Char

/-- The counters a report shows, each below 2^31 where the code keeps it in a LONG. -/
structure Totals where
  captured : Int
  sent     : Int
  affected : ModuleId → Int

def Totals.zero : Totals := { captured := 0, sent := 0, affected := fun _ => 0 }

/-- The state behind the report.  A sample and an event stand with the millisecond they are of;
that, the number of the session and the millisecond of its start are history. -/
structure Session where
  samples          : List (Nat × ReportSample)
  events           : List (Nat × SessionEvent)
  sessionStartTick : UInt32
  sessionEndTick   : UInt32
  lastSampleTick   : UInt32
  sessionActive    : Bool
  sessionFilter    : List Char
  final            : Totals
  number           : Nat
  startedAt        : Nat

def Session.initial : Session where
  samples := []
  events := []
  sessionStartTick := 0
  sessionEndTick := 0
  lastSampleTick := 0
  sessionActive := false
  sessionFilter := []
  final := .zero
  number := 0
  startedAt := 0

/-- The time an event is noted with: none if the session began at tick zero. -/
def Session.since (clock : Nat) (s : Session) : UInt32 :=
  if s.sessionStartTick ≠ 0 then tickAt clock - s.sessionStartTick else 0

def reportNoteEvent (text : List Char) (clock : Nat) (s : Session) : Session :=
  if s.events.length < MAX_EVENTS then
    { s with
      events := s.events ++
        [(clock, { elapsedMs := s.since clock, text := text.take (EVENT_TEXT - 1) })] }
  else s

/-- `reportSessionStart` under the lock. -/
def Session.begin (filterText : List Char) (clock : Nat) (s : Session) : Session where
  samples := []
  events := []
  sessionStartTick := tickAt clock
  sessionEndTick := 0
  lastSampleTick := tickAt clock
  sessionActive := true
  sessionFilter := filterText.take (FILTER_BUFSIZE - 1)
  final := .zero
  number := s.number + 1
  startedAt := clock

/-- `noted` is the clock when the event is noted. -/
def reportSessionStart (filterText : List Char) (clock noted : Nat) (s : Session) : Session :=
  reportNoteEvent "session started".toList noted (s.begin filterText clock)

/-- `reportSessionStop`, whose event comes first. -/
def reportSessionStop (noted clock : Nat) (totals : Totals) (s : Session) : Session :=
  if !s.sessionActive then s
  else
    { reportNoteEvent "session stopped".toList noted s with
      sessionEndTick := tickAt clock
      final := totals
      sessionActive := false }

def reportTick (clock : Nat) (totals : Totals) (s : Session) : Session :=
  if !s.sessionActive ∨ s.samples.length ≥ MAX_SAMPLES then s
  else if tickAt clock - s.lastSampleTick < SAMPLE_INTERVAL_MS then s
  else
    { s with
      lastSampleTick := tickAt clock
      samples := s.samples ++
        [(clock,
          { elapsedMs := tickAt clock - s.sessionStartTick
            captured := totals.captured
            sent := totals.sent })] }

@[simp] theorem reportNoteEvent_active (text : List Char) (clock : Nat) (s : Session) :
    (reportNoteEvent text clock s).sessionActive = s.sessionActive := by
  unfold reportNoteEvent
  split <;> rfl

@[simp] theorem reportNoteEvent_number (text : List Char) (clock : Nat) (s : Session) :
    (reportNoteEvent text clock s).number = s.number := by
  unfold reportNoteEvent
  split <;> rfl

@[simp] theorem reportNoteEvent_samples (text : List Char) (clock : Nat) (s : Session) :
    (reportNoteEvent text clock s).samples = s.samples := by
  unfold reportNoteEvent
  split <;> rfl

/-! ## The page -/

/-- What `renderLocked` reads of the session. -/
structure Page where
  number     : Nat
  filter     : List Char
  totals     : Totals
  durationMs : UInt32
  samples    : List ReportSample
  events     : List SessionEvent

/-- While a session runs the page shows the counters as they are. -/
def Session.page (clock : Nat) (live : Totals) (s : Session) : Page where
  number := s.number
  filter := s.sessionFilter
  totals := if s.sessionActive then live else s.final
  durationMs :=
    if s.sessionActive then s.since clock
    else if s.sessionEndTick > s.sessionStartTick then s.sessionEndTick - s.sessionStartTick else 0
  samples := s.samples.map Prod.snd
  events := s.events.map Prod.snd

/-! ## What every operation keeps -/

variable {clock : Nat} {s : Session}

/-- The start and the samples after it. -/
def Session.times (s : Session) : List Nat := s.startedAt :: s.samples.map Prod.fst

/-- What holds of the arrays whatever is noted. -/
structure Session.Kept (clock : Nat) (s : Session) : Prop where
  few     : s.samples.length ≤ MAX_SAMPLES ∧ s.events.length ≤ MAX_EVENTS
  spaced  : s.times.IsChain fun earlier later => earlier + 1000 ≤ later
  last    : ∃ time, s.times.getLast? = some time ∧ time ≤ clock ∧ s.lastSampleTick = tickAt time
  started : s.sessionStartTick = tickAt s.startedAt ∧ s.startedAt ≤ clock
  elapsed : ∀ r ∈ s.samples, r.2.elapsedMs = tickAt r.1 - tickAt s.startedAt
  order   : (s.startedAt :: s.events.map Prod.fst).IsChain (· ≤ ·)
  past    : ∀ e ∈ s.events, e.1 ≤ clock
  noted   : ∀ e ∈ s.events, e.2.elapsedMs = s.since e.1

/-- A session's first event is its start, and once it is over its last one is its end, if there
was room. -/
structure Session.Ok (clock : Nat) (s : Session) : Prop extends s.Kept clock where
  first   : s.number ≠ 0 → s.events.head?.map (·.2.text) = some "session started".toList
  closing : s.number ≠ 0 → s.sessionActive = false → s.events.length < MAX_EVENTS →
    s.events.getLast?.map (·.2.text) = some "session stopped".toList

theorem isChain_concat {α : Type*} {R : α → α → Prop} {xs : List α} {a x : α}
    (chain : xs.IsChain R) (last : xs.getLast? = some a) (step : R a x) : (xs ++ [x]).IsChain R := by
  refine List.isChain_append.2 ⟨chain, List.isChain_singleton _, fun b member c here => ?_⟩
  obtain rfl : a = b := Option.some.inj (last.symm.trans member)
  obtain rfl : x = c := Option.some.inj here
  exact step

theorem initial_ok (clock : Nat) : Session.initial.Ok clock where
  few := ⟨Nat.zero_le _, Nat.zero_le _⟩
  spaced := List.isChain_singleton _
  last := ⟨0, rfl, Nat.zero_le _, rfl⟩
  started := ⟨rfl, Nat.zero_le _⟩
  elapsed _ member := absurd member List.not_mem_nil
  order := List.isChain_singleton _
  past _ member := absurd member List.not_mem_nil
  noted _ member := absurd member List.not_mem_nil
  first some := absurd rfl some
  closing some := absurd rfl some

namespace Session

theorem Kept.later {clock' : Nat} (kept : s.Kept clock) (later : clock ≤ clock') :
    s.Kept clock' := by
  obtain ⟨time, last, past, tick⟩ := kept.last
  exact { kept with
    last := ⟨time, last, past.trans later, tick⟩
    started := ⟨kept.started.1, kept.started.2.trans later⟩
    past := fun e member => (kept.past e member).trans later }

theorem Ok.later {clock' : Nat} (ok : s.Ok clock) (later : clock ≤ clock') : s.Ok clock' :=
  { ok.toKept.later later with first := ok.first, closing := ok.closing }

theorem Kept.last_event (kept : s.Kept clock) {time : Nat}
    (last : (s.startedAt :: s.events.map Prod.fst).getLast? = some time) : time ≤ clock := by
  rcases List.mem_cons.1 (List.mem_of_getLast? last) with start | noted
  · rw [start]
    exact kept.started.2
  · obtain ⟨e, member, rfl⟩ := List.mem_map.1 noted
    exact kept.past e member

theorem Kept.note (kept : s.Kept clock) (text : List Char) :
    (reportNoteEvent text clock s).Kept clock := by
  unfold reportNoteEvent
  split
  · rename_i room
    refine ⟨⟨kept.few.1, ?_⟩, kept.spaced, kept.last, kept.started, kept.elapsed, ?_, ?_, ?_⟩
    · rw [List.length_append]
      exact room
    · obtain ⟨time, last⟩ : ∃ time, (s.startedAt :: s.events.map Prod.fst).getLast? = some time :=
        ⟨_, List.getLast?_eq_some_getLast (List.cons_ne_nil _ _)⟩
      have chain := isChain_concat kept.order last (kept.last_event last)
      simpa using chain
    · intro e member
      rcases List.mem_append.1 member with old | new
      · exact kept.past e old
      · rw [List.mem_singleton.1 new]
    · intro e member
      rcases List.mem_append.1 member with old | new
      · exact kept.noted e old
      · rw [List.mem_singleton.1 new]
        rfl
  · exact kept

theorem begin_kept (filterText : List Char) (clock : Nat) (s : Session) :
    (s.begin filterText clock).Kept clock where
  few := ⟨Nat.zero_le _, Nat.zero_le _⟩
  spaced := List.isChain_singleton _
  last := ⟨clock, rfl, Nat.le_refl _, rfl⟩
  started := ⟨rfl, Nat.le_refl _⟩
  elapsed _ member := absurd member List.not_mem_nil
  order := List.isChain_singleton _
  past _ member := absurd member List.not_mem_nil
  noted _ member := absurd member List.not_mem_nil

theorem start_ok (filterText : List Char) {clock noted : Nat} (later : clock ≤ noted)
    (s : Session) : (reportSessionStart filterText clock noted s).Ok noted where
  toKept := ((begin_kept filterText clock s).later later).note _
  first _ := rfl
  closing _ over_ := by cases over_

/-- Whatever is noted while a session runs. -/
theorem Ok.note (ok : s.Ok clock) (active : s.sessionActive = true) (some_ : s.number ≠ 0)
    (text : List Char) : (reportNoteEvent text clock s).Ok clock where
  toKept := ok.toKept.note text
  first _ := by
    have first := ok.first some_
    unfold reportNoteEvent
    split
    · cases events : s.events with
      | nil =>
          rw [events] at first
          cases first
      | cons e es =>
          rw [events] at first
          exact first
    · exact first
  closing _ over_ := by
    rw [reportNoteEvent_active, active] at over_
    cases over_

theorem Ok.stop (ok : s.Ok clock) (some_ : s.number ≠ 0) {later : Nat} (waited : clock ≤ later)
    (totals : Totals) : (reportSessionStop clock later totals s).Ok later := by
  unfold reportSessionStop
  by_cases active : s.sessionActive = true
  · rw [if_neg (by simp [active])]
    have noted := (ok.note active some_ "session stopped".toList).later waited
    refine ⟨⟨noted.few, noted.spaced, noted.last, noted.started, noted.elapsed, noted.order,
      noted.past, noted.noted⟩, fun _ => noted.first (by simpa using some_), fun _ _ room => ?_⟩
    -- the event found room, since there is some left behind it
    have found : s.events.length < MAX_EVENTS := by
      by_contra full
      have same : reportNoteEvent "session stopped".toList clock s = s := if_neg full
      rw [same] at room
      exact full room
    have wrote : (reportNoteEvent "session stopped".toList clock s).events = s.events ++
        [(clock, { elapsedMs := s.since clock, text := "session stopped".toList })] := by
      unfold reportNoteEvent
      rw [if_pos found]
      rfl
    show (reportNoteEvent "session stopped".toList clock s).events.getLast?.map _ = _
    rw [wrote, List.getLast?_concat]
    rfl
  · rw [if_pos (by simp [active])]
    exact ok.later waited

theorem Ok.tick (ok : s.Ok clock) (totals : Totals) : (reportTick clock totals s).Ok clock := by
  unfold reportTick
  split
  · exact ok
  · rename_i open_
    split
    · exact ok
    · rename_i due
      obtain ⟨time, last, past, lastTick⟩ := ok.last
      have room : s.samples.length < MAX_SAMPLES := by
        by_contra full
        exact open_ (.inr (not_lt.1 full))
      have later : time + 1000 ≤ clock := by
        have waited := elapsed_le past
        rw [lastTick, UInt32.not_lt, UInt32.le_iff_toNat_le] at due
        have interval : SAMPLE_INTERVAL_MS.toNat = 1000 := rfl
        omega
      refine ⟨⟨⟨?_, ok.few.2⟩, ?_, ?_, ok.started, ?_, ok.order, ok.past, ok.noted⟩, ok.first,
        ok.closing⟩
      · rw [List.length_append]
        exact room
      · have chain := isChain_concat ok.spaced last later
        simpa [times] using chain
      · refine ⟨clock, ?_, Nat.le_refl _, rfl⟩
        show (s.startedAt :: (s.samples ++ [_]).map Prod.fst).getLast? = some clock
        rw [List.map_append, ← List.cons_append, List.map_singleton, List.getLast?_concat]
      · intro r member
        rcases List.mem_append.1 member with old | new
        · exact ok.elapsed r old
        · rw [List.mem_singleton.1 new, ← ok.started.1]

end Session

end Clumsy.Report
