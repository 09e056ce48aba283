/-
# Stats.Log -- statslog.cpp: a log that is written row by row

The log is open for as long as a session runs and gets a row when its interval is over; the
bracket that ends a JSON log comes with the close.  All three functions run under the
application's lock, so a run is a sequence of their calls.

A closed file is what its rows look like together: one JSON array with an object for each row,
or a header and a line of as many fields for each (`closed_files`).  Between two rows lies the
interval at least, on the clock itself and not just on its low 32 bits.
-/
import Clumsy.Control.App
import Clumsy.Theory.JsonTree
import Clumsy.Theory.Clock
import Clumsy.Theory.Run

namespace Clumsy.Stats

open Clumsy.Theory
open Clumsy.Theory.Clock (tickAt elapsed_le)
open Clumsy.Theory.Json (Tree Body Derives White Number field commas braces)
open Clumsy.Modules
open Clumsy.Text
open Clumsy.Filter (stricmp)

set_option autoImplicit false

namespace Log

/-- What a row is made of: the counters and the lengths of the buffers at that time. -/
structure Snapshot where
  statsCapturedTotal : Int
  statsSentTotal     : Int
  affectedCount      : ModuleId → Int
  lagBufSize         : Int
  jitterBufSize      : Int
  bandwidthBufSize   : Int
  bandwidthLimitKBps : Int

structure Row where
  /-- `now - logStartTick`. -/
  elapsedMs : UInt32
  pps       : Int
  stats     : Snapshot

/-! ## What a row looks like -/

/-- `%.1f` of the seconds. -/
def elapsedText (ms : UInt32) : List Char := fixed1 (binary64.round (ms.toNat / 1000))

def moduleFields (stats : Snapshot) : List (List Char) :=
  modules.map fun m => field m.shortName (decimal (stats.affectedCount m))

def rowFields (row : Row) : List (List Char) :=
  [field "elapsed_sec".toList (elapsedText row.elapsedMs),
    field "captured".toList (decimal row.stats.statsCapturedTotal),
    field "sent".toList (decimal row.stats.statsSentTotal),
    field "pps".toList (decimal row.pps),
    field "modules".toList (braces (commas (moduleFields row.stats))),
    field "lag_buf".toList (decimal row.stats.lagBufSize),
    field "jitter_buf".toList (decimal row.stats.jitterBufSize),
    field "bw_buf".toList (decimal row.stats.bandwidthBufSize),
    field "bw_limit_kbps".toList (decimal row.stats.bandwidthLimitKBps)]

def jsonRow (row : Row) : List Char := "  ".toList ++ braces (commas (rowFields row))

/-- The columns of a CSV log. -/
def columns : List (List Char) :=
  ["elapsed_sec".toList, "captured".toList, "sent".toList, "pps".toList] ++
    modules.map ModuleId.shortName ++
    ["lag_buf".toList, "jitter_buf".toList, "bw_buf".toList, "bw_limit_kbps".toList]

def csvFields (row : Row) : List (List Char) :=
  [elapsedText row.elapsedMs, decimal row.stats.statsCapturedTotal,
    decimal row.stats.statsSentTotal, decimal row.pps] ++
    modules.map (fun m => decimal (row.stats.affectedCount m)) ++
    [decimal row.stats.lagBufSize, decimal row.stats.jitterBufSize,
      decimal row.stats.bandwidthBufSize, decimal row.stats.bandwidthLimitKBps]

def csvLine (fields : List (List Char)) : List Char := [','].intercalate fields ++ ['\n']

/-! ## The log -/

structure LogFile where
  text            : List Char
  logIsJson       : Bool
  logInterval     : Int
  logLastTick     : UInt32
  logStartTick    : UInt32
  logPrevCaptured : Int
  logJsonFirstRow : Bool
  /-- History: the millisecond of the start, and the rows with theirs. -/
  startedAt       : Nat
  rows            : List (Nat × Row)

structure StatsLog where
  logFile : Option LogFile
  /-- History: the files that were closed. -/
  closed  : List LogFile
  clock   : Nat

def endsWithIgnoreCase (str suffix : List Char) : Bool :=
  if str.length < suffix.length then false
  else (str.drop (str.length - suffix.length)).map Char.toLower == suffix.map Char.toLower

/-- `fclose`, behind the bracket of a JSON log. -/
def LogFile.close (f : LogFile) : LogFile :=
  if f.logIsJson then { f with text := f.text ++ "\n]\n".toList } else f

def statsLogStop (s : StatsLog) : StatsLog :=
  match s.logFile with
  | none => s
  | some f => { s with logFile := none, closed := s.closed ++ [f.close] }

/-- A log with its opening bracket or its header. -/
def LogFile.start (path : List Char) (intervalSec : Int) (captured : Int) (clock : Nat) :
    LogFile :=
  let json := endsWithIgnoreCase path ".json".toList
  { text := if json then "[\n".toList else csvLine columns
    logIsJson := json
    logInterval := if intervalSec > 0 then intervalSec else 1
    logLastTick := tickAt clock
    logStartTick := tickAt clock
    logPrevCaptured := captured
    logJsonFirstRow := true
    startedAt := clock
    rows := [] }

/-- `statsLogStart`; `opens` is whether `fopen` succeeds, `captured` the counter it finds. -/
def statsLogStart (path : List Char) (intervalSec : Int) (opens : Bool) (captured : Int)
    (s : StatsLog) : StatsLog :=
  if path = [] then s
  else
    let s := statsLogStop s
    if !opens then s
    else { s with logFile := some (.start path intervalSec captured s.clock) }

/-- `(DWORD)(logInterval * 1000)`. -/
def LogFile.threshold (f : LogFile) : UInt32 := UInt32.ofInt (f.logInterval * 1000)

/-- `(int)((captured - logPrevCaptured) * 1000 / (int)elapsed)`. -/
def rate (captured previous : Int) (elapsed : UInt32) : Int :=
  (((captured - previous) * 1000).tdiv ((elapsed.toNat : Int).bmod (2 ^ 32))).bmod (2 ^ 32)

/-- The row that is due at this clock. -/
def LogFile.row (clock : Nat) (stats : Snapshot) (f : LogFile) : Row where
  elapsedMs := tickAt clock - f.logStartTick
  pps := rate stats.statsCapturedTotal f.logPrevCaptured (tickAt clock - f.logLastTick)
  stats := stats

def LogFile.write (clock : Nat) (stats : Snapshot) (f : LogFile) : LogFile :=
  let row := f.row clock stats
  let f := { f with logPrevCaptured := stats.statsCapturedTotal, logLastTick := tickAt clock,
                    rows := f.rows ++ [(clock, row)] }
  if f.logIsJson then
    { f with
      text := f.text ++ (if !f.logJsonFirstRow then ",\n".toList else []) ++ jsonRow row
      logJsonFirstRow := false }
  else { f with text := f.text ++ csvLine (csvFields row) }

def statsLogTick (stats : Snapshot) (s : StatsLog) : StatsLog :=
  match s.logFile with
  | none => s
  | some f =>
      if tickAt s.clock - f.logLastTick < f.threshold then s
      else { s with logFile := some (f.write s.clock stats) }

inductive Event where
  | start (path : List Char) (intervalSec : Int) (opens : Bool) (captured : Int)
  | stop
  | tick (stats : Snapshot)
  /-- Time goes by. -/
  | wait (ms : Nat)

def step (s : StatsLog) : Event → StatsLog
  | .start path intervalSec opens captured => statsLogStart path intervalSec opens captured s
  | .stop => statsLogStop s
  | .tick stats => statsLogTick stats s
  | .wait ms => { s with clock := s.clock + ms }

/-- The interval in milliseconds is an `int`. -/
def machine : Machine StatsLog Event where
  step := step
  admits
    | _, .start _ intervalSec _ _ => intervalSec * 1000 < 2 ^ 31
    | _, _ => True

/-! ## Rows are read back -/

/-- What a row stands for. -/
def Row.tree (row : Row) : Tree :=
  .object
    [("elapsed_sec".toList, .number (elapsedText row.elapsedMs)),
      ("captured".toList, .number (decimal row.stats.statsCapturedTotal)),
      ("sent".toList, .number (decimal row.stats.statsSentTotal)),
      ("pps".toList, .number (decimal row.pps)),
      ("modules".toList, .object
        (modules.map fun m => (m.shortName, .number (decimal (row.stats.affectedCount m))))),
      ("lag_buf".toList, .number (decimal row.stats.lagBufSize)),
      ("jitter_buf".toList, .number (decimal row.stats.jitterBufSize)),
      ("bw_buf".toList, .number (decimal row.stats.bandwidthBufSize)),
      ("bw_limit_kbps".toList, .number (decimal row.stats.bandwidthLimitKBps))]

theorem number_elapsedText (ms : UInt32) : Number (elapsedText ms) := by
  have bound := ms.toNat_lt
  have range : |(ms.toNat / 1000 : ℚ)| ≤ 2 ^ (32 : Int) := by
    have upper : (ms.toNat : ℚ) ≤ 2 ^ 32 := by exact_mod_cast bound.le
    have nonneg : (0 : ℚ) ≤ ms.toNat := by positivity
    rw [abs_of_nonneg (by positivity), zpow_ofNat]
    linarith
  obtain ⟨r, rounded, -⟩ := binary64.round_near range (by decide) (by decide)
  rw [elapsedText, rounded, fixed1, tenths]
  have tail : Json.Fraction ['.', Nat.digitChar ((roundEven (|r| * 10)).natAbs % 10)] := by
    refine .some ⟨List.cons_ne_nil _ _, fun c member => ?_⟩
    have small : (roundEven (|r| * 10)).natAbs % 10 < 10 := Nat.mod_lt _ (by decide)
    rw [List.mem_singleton.1 member, Nat.isDigit_digitChar, decide_eq_true small]
  have printed := number_withSign (decide (r < 0))
    (whole_toDigits ((roundEven (|r| * 10)).natAbs / 10)) tail .none
  rwa [List.append_nil] at printed

theorem pair_number (key : List Char) {value : List Char} (plain : Control.isPlainText key = true)
    (number : Number value) : Derives (.pair key (.number value)) (field key value) :=
  Json.derives_field (Control.body_plain plain) (.number number)

theorem shortName_plain (m : ModuleId) : Control.isPlainText m.shortName = true := by
  cases m <;> decide

/-- **A row is an object with nine members.** -/
theorem jsonRow_derives (row : Row) : Derives (.item row.tree) (jsonRow row) := by
  have inner : Derives (.value (.object
      (modules.map fun m => (m.shortName, .number (decimal (row.stats.affectedCount m))))))
      (braces (commas (moduleFields row.stats))) := by
    refine Json.derives_object ?_
    rw [moduleFields, List.forall₂_map_left_iff, List.forall₂_map_right_iff, List.forall₂_same]
    exact fun m _ => pair_number _ (shortName_plain m) (number_decimal _)
  have key : Control.isPlainText "modules".toList = true := by decide
  have blank : White "  ".toList := by simp [White, Json.isWhite]
  refine Json.white_item blank (Json.item_of_value (Json.derives_object ?_))
  refine .cons (pair_number "elapsed_sec".toList (by decide) (number_elapsedText _)) ?_
  refine .cons (pair_number "captured".toList (by decide) (number_decimal _)) ?_
  refine .cons (pair_number "sent".toList (by decide) (number_decimal _)) ?_
  refine .cons (pair_number "pps".toList (by decide) (number_decimal _)) ?_
  refine .cons (Json.derives_field (Control.body_plain key) inner) ?_
  refine .cons (pair_number "lag_buf".toList (by decide) (number_decimal _)) ?_
  refine .cons (pair_number "jitter_buf".toList (by decide) (number_decimal _)) ?_
  refine .cons (pair_number "bw_buf".toList (by decide) (number_decimal _)) ?_
  exact .cons (pair_number "bw_limit_kbps".toList (by decide) (number_decimal _)) .nil

/-- A line end behind each comma is one in front of each item but the first. -/
theorem intercalate_lines (first : List Char) (rest : List (List Char)) :
    '\n' :: ",\n".toList.intercalate (first :: rest) =
      commas ((first :: rest).map fun item => '\n' :: item) := by
  have separator : ",\n".toList = [',', '\n'] := by simp
  induction rest generalizing first with
  | nil => simp [commas]
  | cons second rest ih =>
      rw [List.intercalate_cons_cons, List.map_cons, commas.eq_3, ← ih]
      · rw [separator]
        simp
      · simp

def openText (json : Bool) (rows : List Row) : List Char :=
  if json then "[\n".toList ++ ",\n".toList.intercalate (rows.map jsonRow)
  else csvLine columns ++ rows.flatMap fun row => csvLine (csvFields row)

def closedText (json : Bool) (rows : List Row) : List Char :=
  openText json rows ++ if json then "\n]\n".toList else []

/-- **A closed JSON log is an array of its rows.** -/
theorem closedText_json (rows : List Row) :
    Json.Text (closedText true rows) (.array (rows.map Row.tree)) := by
  have front : "[\n".toList = ['[', '\n'] := by simp
  have back : "\n]\n".toList = ['\n', ']', '\n'] := by simp
  have line : White ['\n'] := by simp [White, Json.isWhite]
  have lines : White ['\n', '\n'] := by simp [White, Json.isWhite]
  cases rows with
  | nil =>
      have text := Json.item_white (Json.item_of_value (Derives.emptyArray lines)) line
      simpa [closedText, openText, front, back, List.intercalate, Json.Text] using text
  | cons row rows =>
      have items : List.Forall₂ (fun v s => Derives (.item v) s) ((row :: rows).map Row.tree)
          (((row :: rows).map jsonRow).map fun item => '\n' :: item) := by
        rw [List.map_map, List.forall₂_map_left_iff, List.forall₂_map_right_iff, List.forall₂_same]
        exact fun r _ => Json.white_item line (jsonRow_derives r)
      have text := Json.item_white (Json.item_of_value (Json.derives_array items line)) line
      have joined := intercalate_lines (jsonRow row) (rows.map jsonRow)
      rw [← List.map_cons] at joined
      rw [← joined] at text
      simpa [closedText, openText, front, back, Json.Text] using text

/-! ## Lines are read back -/

/-- What ends each line, between them and behind the last. -/
theorem intercalate_ends (lines : List (List Char)) :
    ['\n'].intercalate (lines ++ [[]]) = lines.flatMap (· ++ ['\n']) := by
  induction lines with
  | nil => rfl
  | cons line lines ih =>
      cases lines with
      | nil => simp [List.intercalate]
      | cons second lines =>
          rw [List.cons_append, List.cons_append, List.intercalate_cons_cons, ← List.cons_append,
            ih]
          simp

/-- No field has a comma or a line end in it. -/
def Separate (fields : List (List Char)) : Prop := ∀ f ∈ fields, ',' ∉ f ∧ '\n' ∉ f

theorem number_separate {s : List Char} (number : Number s) : ',' ∉ s ∧ '\n' ∉ s := by
  have numeral := Json.number_isNumeral number
  exact ⟨fun member => absurd (numeral _ member) (by decide),
    fun member => absurd (numeral _ member) (by decide)⟩

theorem csvFields_separate (row : Row) : Separate (csvFields row) := by
  intro f member
  simp only [csvFields, List.mem_append, List.mem_cons, List.mem_map, List.not_mem_nil,
    or_false] at member
  rcases member with ((rfl | rfl | rfl | rfl) | ⟨m, -, rfl⟩) | rfl | rfl | rfl | rfl
  · exact number_separate (number_elapsedText _)
  all_goals exact number_separate (number_decimal _)

theorem shortName_separate (m : ModuleId) : ',' ∉ m.shortName ∧ '\n' ∉ m.shortName := by
  cases m <;> decide

theorem columns_separate : Separate columns := by
  intro f member
  simp only [columns, List.mem_append, List.mem_cons, List.mem_map, List.not_mem_nil,
    or_false] at member
  rcases member with ((rfl | rfl | rfl | rfl) | ⟨m, -, rfl⟩) | rfl | rfl | rfl | rfl
  case inl.inr => exact shortName_separate m
  all_goals decide

theorem columns_length (row : Row) : (csvFields row).length = columns.length := by
  simp [csvFields, columns]

theorem line_free {fields : List (List Char)} (separate : Separate fields) :
    '\n' ∉ [','].intercalate fields := by
  induction fields with
  | nil => exact List.not_mem_nil
  | cons f fields ih =>
      obtain ⟨here, rest⟩ := List.forall_mem_cons.1 separate
      cases fields with
      | nil => simpa [List.intercalate] using here.2
      | cons g fields =>
          rw [List.intercalate_cons_cons]
          simp only [List.mem_append, not_or]
          exact ⟨⟨here.2, by decide⟩, ih rest⟩

/-- **A closed CSV log is a table of its rows**, all of one width. -/
theorem closedText_csv (rows : List Row) :
    ((closedText false rows).splitOn '\n').map (fun line => line.splitOn ',') =
      columns :: rows.map csvFields ++ [[[]]] := by
  have text : closedText false rows = (([','].intercalate columns ::
      rows.map fun row => [','].intercalate (csvFields row)).flatMap (· ++ ['\n'])) := by
    simp [closedText, openText, csvLine, List.flatMap_map]
  have free : ∀ line ∈ ([','].intercalate columns ::
      rows.map fun row => [','].intercalate (csvFields row)) ++ [[]], '\n' ∉ line := by
    intro line member
    simp only [List.mem_append, List.mem_cons, List.mem_map, List.not_mem_nil, or_false] at member
    rcases member with (rfl | ⟨row, -, rfl⟩) | rfl
    · exact line_free columns_separate
    · exact line_free (csvFields_separate row)
    · exact List.not_mem_nil
  rw [text, ← intercalate_ends, List.splitOn_intercalate _ free (by simp)]
  have fields {fs : List (List Char)} (separate : Separate fs) (some : fs ≠ []) :
      ([','].intercalate fs).splitOn ',' = fs :=
    List.splitOn_intercalate _ (fun f member => (separate f member).1) some
  simp only [List.map_append, List.map_cons, List.map_map, List.map_nil]
  rw [fields columns_separate (by simp [columns])]
  congr 2
  · refine List.map_congr_left fun row _ => ?_
    exact fields (csvFields_separate row) (by simp [csvFields])

/-! ## A run -/

/-- When the start and the rows were. -/
def LogFile.times (f : LogFile) : List Nat := f.startedAt :: f.rows.map Prod.fst

/-- The rows of a file, without their times. -/
def LogFile.content (f : LogFile) : List Row := f.rows.map Prod.snd

/-- Between two rows lies the interval at least. -/
def LogFile.Spaced (f : LogFile) : Prop :=
  f.times.IsChain fun (earlier later : Nat) => (earlier : Int) + 1000 * f.logInterval ≤ later

/-- An open file is as far as its rows, the last of them no later than now. -/
structure LogFile.Ok (clock : Nat) (f : LogFile) : Prop where
  text     : f.text = openText f.logIsJson f.content
  first    : f.logIsJson = true → (f.logJsonFirstRow = true ↔ f.rows = [])
  interval : 0 < f.logInterval ∧ f.logInterval * 1000 < 2 ^ 31
  spaced   : f.Spaced
  last     : ∃ time, f.times.getLast? = some time ∧ time ≤ clock ∧ f.logLastTick = tickAt time
  started  : f.logStartTick = tickAt f.startedAt
  elapsed  : ∀ r ∈ f.rows, r.2.elapsedMs = tickAt r.1 - tickAt f.startedAt

/-- A closed file reads as its rows, in a table with as many fields as the header has. -/
structure LogFile.Read (f : LogFile) : Prop where
  json    : f.logIsJson = true → Json.Text f.text (.array (f.content.map Row.tree))
  csv     : f.logIsJson = false →
    (f.text.splitOn '\n').map (fun line => line.splitOn ',') =
      columns :: f.content.map csvFields ++ [[[]]]
  even    : ∀ row ∈ f.content, (csvFields row).length = columns.length
  spaced  : 0 < f.logInterval ∧ f.Spaced
  elapsed : ∀ r ∈ f.rows, r.2.elapsedMs = tickAt r.1 - tickAt f.startedAt

structure Ok (s : StatsLog) : Prop where
  open_  : ∀ f, s.logFile = some f → f.Ok s.clock
  closed : ∀ f ∈ s.closed, f.Read

theorem LogFile.Ok.close {clock : Nat} {f : LogFile} (ok : f.Ok clock) : f.close.Read := by
  have text : f.close.text = closedText f.logIsJson f.content := by
    cases json : f.logIsJson <;> simp [LogFile.close, closedText, json, ok.text]
  have same : f.close.logIsJson = f.logIsJson ∧ f.close.content = f.content ∧
      f.close.logInterval = f.logInterval ∧ f.close.times = f.times ∧
      f.close.rows = f.rows ∧ f.close.startedAt = f.startedAt := by
    cases json : f.logIsJson <;>
      simp [LogFile.close, json, LogFile.content, LogFile.times]
  obtain ⟨json, content, interval, times, rows, startedAt⟩ := same
  refine ⟨fun isJson => ?_, fun isCsv => ?_, fun row _ => columns_length row, ?_, ?_⟩
  · rw [json] at isJson
    rw [text, content, isJson]
    exact closedText_json f.content
  · rw [json] at isCsv
    rw [text, content, isCsv]
    exact closedText_csv f.content
  · rw [LogFile.Spaced, interval, times]
    exact ⟨ok.interval.1, ok.spaced⟩
  · rw [rows, startedAt]
    exact ok.elapsed

theorem intercalate_snoc (separator item first : List Char) (rest : List (List Char)) :
    separator.intercalate (first :: rest ++ [item]) =
      separator.intercalate (first :: rest) ++ separator ++ item := by
  induction rest generalizing first with
  | nil => simp [List.intercalate]
  | cons second rest ih =>
      rw [List.cons_append, List.cons_append, List.intercalate_cons_cons, ← List.cons_append, ih,
        List.intercalate_cons_cons]
      simp

theorem openText_snoc (json : Bool) (rows : List Row) (row : Row) :
    openText json (rows ++ [row]) = openText json rows ++
      if json then (if rows = [] then [] else ",\n".toList) ++ jsonRow row
      else csvLine (csvFields row) := by
  cases json with
  | false => simp [openText]
  | true =>
      cases rows with
      | nil => simp [openText, List.intercalate]
      | cons first rest =>
          simp only [openText, if_true, List.map_append, List.map_cons, List.map_nil]
          rw [intercalate_snoc, if_neg (List.cons_ne_nil _ _)]
          simp only [List.append_assoc]

/-- The threshold is the interval. -/
theorem LogFile.Ok.threshold {clock : Nat} {f : LogFile} (ok : f.Ok clock) :
    (f.threshold.toNat : Int) = f.logInterval * 1000 :=
  Clock.toNat_ofInt (by have := ok.interval.1; omega) (by have := ok.interval.2; omega)

theorem LogFile.Ok.write {clock : Nat} {f : LogFile} (ok : f.Ok clock) (stats : Snapshot)
    (due : ¬tickAt clock - f.logLastTick < f.threshold) : (f.write clock stats).Ok clock := by
  obtain ⟨time, last, past, lastTick⟩ := ok.last
  have times : (f.write clock stats).times = f.times ++ [clock] := by
    cases json : f.logIsJson <;> simp [LogFile.write, json, LogFile.times]
  have content : (f.write clock stats).content = f.content ++ [f.row clock stats] := by
    cases json : f.logIsJson <;> simp [LogFile.write, json, LogFile.content]
  have same : (f.write clock stats).logIsJson = f.logIsJson ∧
      (f.write clock stats).logInterval = f.logInterval ∧
      (f.write clock stats).logLastTick = tickAt clock ∧
      (f.write clock stats).startedAt = f.startedAt ∧
      (f.write clock stats).logStartTick = f.logStartTick ∧
      (f.write clock stats).rows = f.rows ++ [(clock, f.row clock stats)] := by
    cases json : f.logIsJson <;> simp [LogFile.write, json]
  obtain ⟨json, interval, tick, startedAt, startTick, rows⟩ := same
  refine ⟨?_, ?_, ?_, ?_, ?_, ?_, ?_⟩
  · rw [json, content, openText_snoc, ← ok.text]
    have none : f.content = [] ↔ f.rows = [] := List.map_eq_nil_iff
    cases isJson : f.logIsJson with
    | false => simp [LogFile.write, isJson]
    | true =>
        have first := ok.first isJson
        rw [← none] at first
        by_cases empty : f.content = []
        · simp [LogFile.write, isJson, empty, first.2 empty]
        · have started : f.logJsonFirstRow = false := by
            rw [← Bool.not_eq_true, first]
            exact empty
          simp [LogFile.write, isJson, empty, started]
  · intro isJson
    rw [json] at isJson
    rw [rows]
    simp [LogFile.write, isJson]
  · rw [interval]
    exact ok.interval
  · rw [LogFile.Spaced, times, interval]
    refine List.isChain_append.2 ⟨ok.spaced, List.isChain_singleton _, ?_⟩
    intro earlier member later now
    obtain rfl : time = earlier := Option.some.inj (last.symm.trans member)
    obtain rfl : clock = later := Option.some.inj now
    have threshold := ok.threshold
    have waited := elapsed_le past
    rw [lastTick, UInt32.not_lt, UInt32.le_iff_toNat_le] at due
    omega
  · refine ⟨clock, ?_, Nat.le_refl _, tick⟩
    rw [times, List.getLast?_concat]
  · rw [startTick, startedAt]
    exact ok.started
  · rw [rows, startedAt]
    intro r member
    rcases List.mem_append.1 member with old | new
    · exact ok.elapsed r old
    · obtain rfl := List.mem_singleton.1 new
      rw [← ok.started]
      rfl

theorem LogFile.Ok.later {clock clock' : Nat} {f : LogFile} (ok : f.Ok clock)
    (later : clock ≤ clock') : f.Ok clock' := by
  obtain ⟨time, last, past, tick⟩ := ok.last
  exact { ok with last := ⟨time, last, Nat.le_trans past later, tick⟩ }

theorem Ok.stop {s : StatsLog} (ok : Ok s) : Ok (statsLogStop s) := by
  unfold statsLogStop
  split
  · exact ok
  · rename_i f open_
    refine ⟨fun _ none => (by cases none), fun g member => ?_⟩
    rcases List.mem_append.1 member with old | new
    · exact ok.closed g old
    · obtain rfl := List.mem_singleton.1 new
      exact (ok.open_ f open_).close

theorem LogFile.start_ok (path : List Char) {intervalSec : Int} (captured : Int) (clock : Nat)
    (fits : intervalSec * 1000 < 2 ^ 31) :
    (LogFile.start path intervalSec captured clock).Ok clock where
  text := by simp [start, openText, content, List.intercalate]
  first := by simp [start]
  interval := by
    show 0 < (if intervalSec > 0 then intervalSec else 1) ∧
      (if intervalSec > 0 then intervalSec else 1) * 1000 < 2 ^ 31
    split_ifs <;> omega
  spaced := List.isChain_singleton _
  last := ⟨clock, rfl, Nat.le_refl _, rfl⟩
  started := rfl
  elapsed _ member := absurd member List.not_mem_nil

theorem Ok.start {s : StatsLog} (ok : Ok s) (path : List Char) {intervalSec : Int} (opens : Bool)
    (captured : Int) (fits : intervalSec * 1000 < 2 ^ 31) :
    Ok (statsLogStart path intervalSec opens captured s) := by
  have stopped := ok.stop
  unfold statsLogStart
  split_ifs
  · exact ok
  · exact stopped
  · refine ⟨?_, stopped.closed⟩
    rintro f ⟨⟩
    exact LogFile.start_ok path captured _ fits

theorem step_ok {s : StatsLog} (ok : Ok s) (e : Event) (admitted : machine.admits s e) :
    Ok (step s e) := by
  cases e with
  | start path intervalSec opens captured => exact ok.start path opens captured admitted
  | stop => exact ok.stop
  | tick stats =>
      show Ok (statsLogTick stats s)
      unfold statsLogTick
      split
      · exact ok
      · rename_i f open_
        split_ifs with early
        · exact ok
        · refine ⟨?_, ok.closed⟩
          rintro g ⟨⟩
          exact (ok.open_ f open_).write stats early
  | wait ms =>
      refine ⟨fun f open_ => ?_, ok.closed⟩
      exact (ok.open_ f open_).later (Nat.le_add_right _ _)

def idle (clock : Nat) : StatsLog := { logFile := none, closed := [], clock }

/-- **Every log that is closed can be read.**  In every run of starts, stops and ticks, a file
that was closed is the JSON array of its rows, or the table of them under the header, as its
name says; its rows are an interval apart at least, by the clock. -/
theorem closed_files (clock : Nat) (es : List Event)
    (admissible : machine.Admissible (idle clock) es) :
    ∀ f ∈ (machine.run (idle clock) es).closed, f.Read := by
  have start : Ok (idle clock) := ⟨fun _ none => (by cases none), fun _ none => (by cases none)⟩
  have once : ∀ s e, Ok s → machine.admits s e → Ok (machine.step s e) :=
    fun _ e ok admitted => step_ok ok e admitted
  exact (machine.run_invariant once es _ start admissible).closed

def quiet : Snapshot where
  statsCapturedTotal := 0
  statsSentTotal := 0
  affectedCount _ := 0
  lagBufSize := 0
  jitterBufSize := 0
  bandwidthBufSize := 0
  bandwidthLimitKBps := 0

/-- Two seconds of a JSON log, looked at more often than it gets a row. -/
def twoSeconds : List Event :=
  [.start "log.json".toList 1 true 0, .wait 600, .tick quiet, .wait 600, .tick quiet, .wait 1000,
    .tick quiet, .stop]

theorem closed_files_twoSeconds :
    (machine.run (idle 0) twoSeconds).closed.map (fun f => f.rows.map Prod.fst) = [[1200, 2200]] ∧
      ∀ f ∈ (machine.run (idle 0) twoSeconds).closed, f.Read := by
  have admissible : machine.Admissible (idle 0) twoSeconds := by
    refine ⟨?_, trivial, trivial, trivial, trivial, trivial, trivial, trivial, trivial⟩
    show (1 : Int) * 1000 < 2 ^ 31
    decide
  exact ⟨by decide, closed_files 0 twoSeconds admissible⟩

end Log

end Clumsy.Stats
