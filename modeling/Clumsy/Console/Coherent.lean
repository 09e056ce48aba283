/-
# Console.Coherent -- what a start, a stop and the main loop keep in step

`capturing`, the backend, the session of the report and the stats log are four switches that
three sections throw one after the other.  `Place.flags` says how they stand before every
statement; outside a section they agree.  No step of another thread touches them, so the
statements of the section are all there is to look at.
-/
import Clumsy.Console.Capture

namespace Clumsy.Console

open Clumsy.Theory
open Clumsy.Report
open Clumsy.Stats.Log (statsLogStart statsLogStop statsLogTick)

set_option autoImplicit false

/-- How `capturing`, the backend and the report's session stand before a statement. -/
def Place.flags : Place → Option (Bool × Bool × Bool)
  | .startReset .. | .startBackend .. => some (false, false, false)
  | .startFlag .. => some (false, true, false)
  | .startReport .. => some (true, true, false)
  | .startLog _ | .startPcap _ | .startScenario _ | .startLeave _ => some (true, true, true)
  | .stopScenario | .stopBackend => some (true, true, true)
  | .stopFlag => some (true, false, true)
  | .stopModules | .stopLog | .stopPcap | .stopReport => some (false, false, true)
  | .stopLeave => some (false, false, false)
  | .tickScenario | .tickLog | .tickReport => some (true, true, true)
  | .leave => none

namespace Program

variable {args : Args} {s : Program}

/-- The switches as they are. -/
def switches (s : Program) : Bool × Bool × Bool := (s.capturing, s.backend, s.report.sessionActive)

def Agrees (s : Program) : Prop :=
  (s.inside.bind Place.flags).elim (s.switches = (s.capturing, s.capturing, s.capturing))
    fun flags => s.switches = flags

/-- What holds in every state, whatever the log has written. -/
structure Steady (s : Program) : Prop where
  agrees   : s.Agrees
  openLog  : s.log.logFile.isSome = true →
    s.report.sessionActive = true ∧ s.inside ≠ some .stopPcap ∧ s.inside ≠ some .stopReport
  numbered : s.report.number = s.ended.length + if s.report.sessionActive then 1 else 0
  report   : s.report.Ok s.clock

/-- **What holds in every state.** -/
structure Coherent (s : Program) : Prop extends Steady s where
  files : Stats.Log.Ok s.log

/-! ## Steps -/

theorem Steady.some_number (ok : s.Steady) (active : s.report.sessionActive = true) :
    s.report.number ≠ 0 := by
  have numbered := ok.numbered
  rw [active, if_pos rfl] at numbered
  omega

/-- A step that throws no switch. -/
theorem Steady.frame (ok : s.Steady) {s' : Program} (inside : s'.inside = s.inside)
    (capturing : s'.capturing = s.capturing) (backend : s'.backend = s.backend)
    (report : s'.report = s.report) (log : s'.log = s.log) (ended : s'.ended = s.ended) :
    s'.Steady where
  agrees := by
    have agrees := ok.agrees
    unfold Agrees switches at agrees ⊢
    rw [inside, capturing, backend, report]
    exact agrees
  openLog := by
    rw [log, report, inside]
    exact ok.openLog
  numbered := by
    rw [report, ended]
    exact ok.numbered
  report := by
    rw [report, clock, log]
    exact ok.report

theorem Steady.wait (ok : s.Steady) (ms : Nat) : (s.wait ms).Steady where
  agrees := ok.agrees
  openLog := ok.openLog
  numbered := ok.numbered
  report := ok.report.later (Nat.le_add_right _ _)

theorem Steady.free (ok : s.Steady) (free : s.inside = none) :
    s.switches = (s.capturing, s.capturing, s.capturing) := by
  have agrees := ok.agrees
  unfold Agrees at agrees
  rw [free] at agrees
  exact agrees

theorem Steady.at (ok : s.Steady) {place : Place} (here : s.inside = some place)
    {flags : Bool × Bool × Bool} (known : place.flags = some flags) : s.switches = flags := by
  have agrees := ok.agrees
  unfold Agrees at agrees
  rw [here, Option.bind_some, known] at agrees
  exact agrees

/-- A section begins with the statement that finds the switches as they are. -/
def Begins (s : Program) (place : Place) : Prop :=
  (∀ flags, place.flags = some flags → flags = (s.capturing, s.capturing, s.capturing)) ∧
    place ≠ .stopPcap ∧ place ≠ .stopReport

theorem begins_leave (s : Program) : s.Begins .leave :=
  ⟨fun _ known => (by cases known), nofun, nofun⟩

theorem begins_start (s : Program) (filter procName : List Char) (isAdmin : Bool)
    (scan : Filter.ProcScan) : s.Begins (s.startsAt filter procName isAdmin scan) := by
  unfold startsAt
  cases found : Filter.appStartCapture s.capturing isAdmin filter procName scan with
  | error message => exact s.begins_leave
  | ok combined =>
      have idle : s.capturing = false := by
        unfold Filter.appStartCapture at found
        split_ifs at found with empty busy
        all_goals first | cases found | exact eq_false_of_ne_true busy
      refine ⟨fun flags known => ?_, nofun, nofun⟩
      rw [idle]
      exact (Option.some.inj known).symm

theorem begins_stop (s : Program) : s.Begins s.stopsAt := by
  unfold stopsAt
  split_ifs with busy
  · refine ⟨fun flags known => ?_, nofun, nofun⟩
    rw [busy]
    exact (Option.some.inj known).symm
  · exact s.begins_leave

theorem begins_loop (s : Program) : s.Begins s.loopsAt := by
  unfold loopsAt
  split_ifs with busy
  · refine ⟨fun flags known => ?_, nofun, nofun⟩
    rw [busy]
    exact (Option.some.inj known).symm
  · exact s.begins_leave

theorem Steady.enter (ok : s.Steady) (free : s.inside = none) {place : Place}
    (begins : s.Begins place) : { s with inside := some place }.Steady where
  agrees := by
    have agrees := ok.free free
    show place.flags.elim _ _
    cases known : place.flags with
    | none => exact agrees
    | some flags =>
        rw [begins.1 flags known]
        exact agrees
  openLog some := by
    obtain ⟨active, -⟩ := ok.openLog some
    exact ⟨active, fun same => begins.2.1 (Option.some.inj same),
      fun same => begins.2.2 (Option.some.inj same)⟩
  numbered := ok.numbered
  report := ok.report

/-- A statement that leaves the report and the log alone. -/
theorem Steady.move (ok : s.Steady) {s' : Program} (report : s'.report = s.report)
    (log : s'.log = s.log) (ended : s'.ended = s.ended) (agrees : s'.Agrees)
    (early : s.log.logFile.isSome = true →
      s'.inside ≠ some .stopPcap ∧ s'.inside ≠ some .stopReport) : s'.Steady where
  agrees := agrees
  openLog := by
    rw [log, report]
    exact fun some => ⟨(ok.openLog some).1, early some⟩
  numbered := by
    rw [report, ended]
    exact ok.numbered
  report := by
    rw [report, clock, log]
    exact ok.report

/-- A statement about the log of a session that runs. -/
theorem Steady.logs (ok : s.Steady) (active : s.report.sessionActive = true)
    {e : Stats.Log.Event} (still : (Stats.Log.step s.log e).clock = s.log.clock) {place : Place}
    (agrees : Agrees { s with log := Stats.Log.step s.log e, inside := some place })
    (early : (Stats.Log.step s.log e).logFile.isSome = true →
      place ≠ .stopPcap ∧ place ≠ .stopReport) :
    Steady { s with log := Stats.Log.step s.log e, inside := some place } where
  agrees := agrees
  openLog some_ := ⟨active, fun same => (early some_).1 (Option.some.inj same),
    fun same => (early some_).2 (Option.some.inj same)⟩
  numbered := ok.numbered
  report := by
    show s.report.Ok (Stats.Log.step s.log e).clock
    rw [still]
    exact ok.report

/-- A statement about the report of a session that runs. -/
theorem Steady.reports (ok : s.Steady) (place : Place) {report : Session}
    (active : report.sessionActive = s.report.sessionActive)
    (number : report.number = s.report.number) (kept : report.Ok s.clock)
    (agrees : Agrees { s with report, inside := some place })
    (early : place ≠ .stopPcap ∧ place ≠ .stopReport) :
    Steady { s with report, inside := some place } where
  agrees := agrees
  openLog some_ := by
    show report.sessionActive = true ∧ _
    rw [active]
    exact ⟨(ok.openLog some_).1, fun same => early.1 (Option.some.inj same),
      fun same => early.2 (Option.some.inj same)⟩
  numbered := by
    show report.number = _
    rw [number, ok.numbered]
    show _ = s.ended.length + if report.sessionActive = true then 1 else 0
    rw [active]
  report := kept

theorem statsLogStart_clock (path : List Char) (interval : Int) (opens : Bool) (captured : Int)
    (log : Stats.Log.StatsLog) :
    (statsLogStart path interval opens captured log).clock = log.clock := by
  have stopped : (statsLogStop log).clock = log.clock := by
    unfold statsLogStop
    split <;> rfl
  unfold statsLogStart
  split_ifs
  · rfl
  · exact stopped
  · exact stopped

theorem statsLogTick_same (stats : Stats.Log.Snapshot) (log : Stats.Log.StatsLog) :
    (statsLogTick stats log).clock = log.clock ∧
      (statsLogTick stats log).logFile.isSome = log.logFile.isSome := by
  unfold statsLogTick
  cases found : log.logFile with
  | none => exact ⟨rfl, by rw [found]⟩
  | some f =>
      show (if _ then _ else _ : Stats.Log.StatsLog).clock = _ ∧
        (if _ then _ else _ : Stats.Log.StatsLog).logFile.isSome = _
      split_ifs
      · exact ⟨rfl, by rw [found]⟩
      · exact ⟨rfl, rfl⟩

theorem statsLogStop_closed (log : Stats.Log.StatsLog) :
    (statsLogStop log).clock = log.clock ∧ (statsLogStop log).logFile = none := by
  unfold statsLogStop
  cases found : log.logFile with
  | none => exact ⟨rfl, found⟩
  | some f => exact ⟨rfl, rfl⟩

theorem reportTick_same (totals : Totals) (clock : Nat) (r : Session) :
    (reportTick clock totals r).sessionActive = r.sessionActive ∧
      (reportTick clock totals r).number = r.number := by
  unfold reportTick
  split_ifs <;> exact ⟨rfl, rfl⟩

theorem notes_same (clock : Nat) (notes : List (List Char)) (r : Session) :
    (notes.foldl (fun r text => reportNoteEvent text clock r) r).sessionActive =
        r.sessionActive ∧
      (notes.foldl (fun r text => reportNoteEvent text clock r) r).number = r.number := by
  induction notes generalizing r with
  | nil => exact ⟨rfl, rfl⟩
  | cons text notes ih => simpa using ih (reportNoteEvent text clock r)

theorem notes_ok {clock : Nat} (notes : List (List Char)) {r : Session} (ok : r.Ok clock)
    (active : r.sessionActive = true) (some_ : r.number ≠ 0) :
    (notes.foldl (fun r text => reportNoteEvent text clock r) r).Ok clock := by
  induction notes generalizing r with
  | nil => exact ok
  | cons text notes ih =>
      exact ih (ok.note active some_ text) (by simpa using active) (by simpa using some_)

/-! ## The sections -/

/-- What the switches are before a statement, one by one. -/
theorem Steady.switched (ok : s.Steady) {place : Place} (here : s.inside = some place)
    {capturing backend reporting : Bool}
    (known : place.flags = some (capturing, backend, reporting)) :
    s.capturing = capturing ∧ s.backend = backend ∧ s.report.sessionActive = reporting := by
  simpa [switches] using ok.at here known

theorem Steady.startReport (ok : s.Steady) {filter combined : List Char}
    (here : s.inside = some (.startReport filter combined)) (env : Env) :
    (s.advance args env (.startReport filter combined)).Steady := by
  obtain ⟨capturing, backend, reporting⟩ := ok.switched here rfl
  have active : (s.advance args env (.startReport filter combined)).report.sessionActive = true :=
    reportNoteEvent_active _ _ _
  have number : (s.advance args env (.startReport filter combined)).report.number =
      s.report.number + 1 := reportNoteEvent_number _ _ _
  refine ⟨?_, fun _ => ⟨active, nofun, nofun⟩, ?_, ?_⟩
  · show (s.capturing, s.backend, _) = (true, true, true)
    rw [capturing, backend, active]
  · show Session.number _ = s.ended.length + if Session.sessionActive _ = true then 1 else 0
    rw [number, active, ok.numbered, reporting]
    rfl
  · exact Session.start_ok combined (Nat.le_add_right _ _) s.report

theorem Steady.stopReport (ok : s.Steady) (here : s.inside = some .stopReport) (env : Env) :
    (s.advance args env .stopReport).Steady := by
  obtain ⟨capturing, backend, reporting⟩ := ok.switched here rfl
  have active : (s.advance args env .stopReport).report.sessionActive = false := by
    show (reportSessionStop _ _ _ _).sessionActive = false
    rw [reportSessionStop, if_neg (by simp [reporting])]
  have number : (s.advance args env .stopReport).report.number = s.report.number := by
    show (reportSessionStop _ _ _ _).number = _
    rw [reportSessionStop, if_neg (by simp [reporting])]
    exact reportNoteEvent_number _ _ _
  refine ⟨?_, fun open_ => absurd here (ok.openLog open_).2.2, ?_, ?_⟩
  · show (s.capturing, s.backend, _) = (false, false, false)
    rw [capturing, backend, active]
  · show Session.number _ = (s.ended ++ [_]).length + if Session.sessionActive _ = true then 1 else 0
    rw [number, active, ok.numbered, reporting, List.length_append]
    rfl
  · exact ok.report.stop (ok.some_number reporting) (Nat.le_add_right _ _) s.totals

theorem Steady.tickScenario (ok : s.Steady) (here : s.inside = some .tickScenario)
    (env : Env) : (s.advance args env .tickScenario).Steady := by
  obtain ⟨capturing, backend, reporting⟩ := ok.switched here rfl
  have same := notes_same s.clock
    ((s.player.scenarioTick
      { clock := s.clock, captured := s.totals.captured, counters := env.counters }).2.filterMap
      fun ix => s.player.steps[ix]?.map note) s.report
  have kept := notes_ok
    ((s.player.scenarioTick
      { clock := s.clock, captured := s.totals.captured, counters := env.counters }).2.filterMap
      fun ix => s.player.steps[ix]?.map note) ok.report reporting (ok.some_number reporting)
  have reports := ok.reports .tickLog same.1 same.2 kept (by
    show (s.capturing, s.backend, _) = (true, true, true)
    rw [capturing, backend, same.1, reporting]) ⟨nofun, nofun⟩
  exact reports.frame rfl rfl rfl rfl rfl rfl

/-- **One statement.** -/
theorem Steady.advance (ok : s.Steady) {place : Place} (here : s.inside = some place) (env : Env) :
    (s.advance args env place).Steady := by
  cases place with
  | startReset filter procName combined =>
      exact ok.move rfl rfl rfl (ok.at here rfl) fun _ => ⟨nofun, nofun⟩
  | startBackend filter procName combined =>
      obtain ⟨capturing, backend, reporting⟩ := ok.switched here rfl
      unfold Program.advance
      cases env.failure with
      | some message =>
          refine ok.move rfl rfl rfl ?_ fun _ => ⟨nofun, nofun⟩
          show (s.capturing, s.backend, s.report.sessionActive) =
            (s.capturing, s.capturing, s.capturing)
          rw [capturing, backend, reporting]
      | none =>
          refine ok.move rfl rfl rfl ?_ fun _ => ⟨nofun, nofun⟩
          show (s.capturing, true, s.report.sessionActive) = (false, true, false)
          rw [capturing, reporting]
  | startFlag filter procName combined =>
      obtain ⟨-, backend, reporting⟩ := ok.switched here rfl
      refine ok.move rfl rfl rfl ?_ fun _ => ⟨nofun, nofun⟩
      show (true, s.backend, s.report.sessionActive) = (true, true, false)
      rw [backend, reporting]
  | startReport filter combined => exact ok.startReport here env
  | startLog filter =>
      obtain ⟨-, -, reporting⟩ := ok.switched here rfl
      unfold Program.advance
      cases args.statsLog with
      | none => exact ok.move rfl rfl rfl (ok.at here rfl) fun _ => ⟨nofun, nofun⟩
      | some path =>
          exact ok.logs (e := .start path args.statsInterval env.opens s.totals.captured)
            reporting (statsLogStart_clock _ _ _ _ _) (ok.at here rfl)
            fun _ => ⟨nofun, nofun⟩
  | startPcap filter => exact ok.move rfl rfl rfl (ok.at here rfl) fun _ => ⟨nofun, nofun⟩
  | startScenario filter => exact ok.move rfl rfl rfl (ok.at here rfl) fun _ => ⟨nofun, nofun⟩
  | startLeave filter =>
      obtain ⟨capturing, backend, reporting⟩ := ok.switched here rfl
      refine ok.move rfl rfl rfl ?_ fun _ => ⟨nofun, nofun⟩
      show (s.capturing, s.backend, s.report.sessionActive) =
        (s.capturing, s.capturing, s.capturing)
      rw [capturing, backend, reporting]
  | stopScenario => exact ok.move rfl rfl rfl (ok.at here rfl) fun _ => ⟨nofun, nofun⟩
  | stopBackend =>
      obtain ⟨capturing, -, reporting⟩ := ok.switched here rfl
      refine ok.move rfl rfl rfl ?_ fun _ => ⟨nofun, nofun⟩
      show (s.capturing, false, s.report.sessionActive) = (true, false, true)
      rw [capturing, reporting]
  | stopFlag =>
      obtain ⟨-, backend, reporting⟩ := ok.switched here rfl
      refine ok.move rfl rfl rfl ?_ fun _ => ⟨nofun, nofun⟩
      show (false, s.backend, s.report.sessionActive) = (false, false, true)
      rw [backend, reporting]
  | stopModules => exact ok.move rfl rfl rfl (ok.at here rfl) fun _ => ⟨nofun, nofun⟩
  | stopLog =>
      obtain ⟨-, -, reporting⟩ := ok.switched here rfl
      have closed := statsLogStop_closed s.log
      refine ok.logs (e := .stop) reporting closed.1 (ok.at here rfl) fun open_ => ?_
      have none : (Stats.Log.step s.log .stop).logFile = Option.none := closed.2
      rw [none] at open_
      cases open_
  | stopPcap =>
      exact ok.move rfl rfl rfl (ok.at here rfl) fun open_ => absurd here (ok.openLog open_).2.1
  | stopReport => exact ok.stopReport here env
  | stopLeave =>
      obtain ⟨capturing, backend, reporting⟩ := ok.switched here rfl
      refine ok.move rfl rfl rfl ?_ fun _ => ⟨nofun, nofun⟩
      show (s.capturing, s.backend, s.report.sessionActive) =
        (s.capturing, s.capturing, s.capturing)
      rw [capturing, backend, reporting]
  | tickScenario => exact ok.tickScenario here env
  | tickLog =>
      obtain ⟨-, -, reporting⟩ := ok.switched here rfl
      have same := statsLogTick_same (snapshot env s.totals) s.log
      exact ok.logs (e := .tick (snapshot env s.totals)) reporting same.1 (ok.at here rfl)
        fun _ => ⟨nofun, nofun⟩
  | tickReport =>
      obtain ⟨capturing, backend, reporting⟩ := ok.switched here rfl
      have same := reportTick_same s.totals s.clock s.report
      refine ok.reports _ same.1 same.2 (ok.report.tick s.totals) ?_ ⟨nofun, nofun⟩
      show (s.capturing, s.backend, _) = (s.capturing, s.capturing, s.capturing)
      rw [capturing, backend, same.1, reporting]
  | leave =>
      refine ok.move rfl rfl rfl ?_ fun _ => ⟨nofun, nofun⟩
      have agrees := ok.agrees
      unfold Agrees at agrees
      rw [here] at agrees
      exact agrees

/-! ## Runs -/

theorem perform_same (args : Args) (s : Program) (opens : Bool) (tail : Tail) :
    (s.perform args opens tail).capturing = s.capturing ∧
      (s.perform args opens tail).backend = s.backend ∧
      (s.perform args opens tail).report = s.report ∧ (s.perform args opens tail).log = s.log ∧
      (s.perform args opens tail).inside = s.inside ∧
      (s.perform args opens tail).ended = s.ended := by
  cases tail with
  | announce filter => exact ⟨rfl, rfl, rfl, rfl, rfl, rfl⟩
  | report number =>
      unfold perform writeReport
      cases args.reportOut with
      | none => exact ⟨rfl, rfl, rfl, rfl, rfl, rfl⟩
      | some path =>
          simp only
          split_ifs <;> exact ⟨rfl, rfl, rfl, rfl, rfl, rfl⟩
  | stopped => exact ⟨rfl, rfl, rfl, rfl, rfl, rfl⟩
  | reset => exact ⟨rfl, rfl, rfl, rfl, rfl, rfl⟩

theorem initial_steady (clock : Nat) (player : Scenario.Player) :
    (initial clock player).Steady where
  agrees := rfl
  openLog := nofun
  numbered := rfl
  report := initial_ok clock

theorem Steady.step (ok : s.Steady) (e : Event)
    (admitted : (machine args).admits s e) : (s.step args e).Steady := by
  cases e with
  | start filter procName isAdmin scan =>
      exact ok.enter admitted (s.begins_start filter procName isAdmin scan)
  | stop => exact ok.enter admitted s.begins_stop
  | loop => exact ok.enter admitted s.begins_loop
  | advance env =>
      unfold Program.step
      cases here : s.inside with
      | none => exact ok
      | some place => exact ok.advance here env
  | finish opens i =>
      show (s.finish args opens i).Steady
      unfold Program.finish
      cases found : s.tails[i]? with
      | none => exact ok
      | some tail =>
          obtain ⟨capturing, backend, report, log, inside, ended⟩ := perform_same args s opens tail
          exact ok.frame inside capturing backend report log ended
  | work work => exact ok.frame rfl rfl rfl rfl rfl rfl
  | scenarioLoad json => exact ok.frame rfl rfl rfl rfl rfl rfl
  | scenarioStart => exact ok.frame rfl rfl rfl rfl rfl rfl
  | scenarioStop => exact ok.frame rfl rfl rfl rfl rfl rfl
  | pcapStart path maxPackets maxBytes disk => exact ok.frame rfl rfl rfl rfl rfl rfl
  | pcapStop => exact ok.frame rfl rfl rfl rfl rfl rfl
  | wait ms => exact ok.wait ms

/-! ### The log -/

theorem advance_files (files : Stats.Log.Ok s.log) (interval : args.statsInterval * 1000 < 2 ^ 31)
    (env : Env) (place : Place) : Stats.Log.Ok (s.advance args env place).log := by
  have paused : Stats.Log.Ok (s.wait env.pause).log :=
    Stats.Log.step_ok files (.wait env.pause) trivial
  cases place with
  | startBackend filter procName combined =>
      unfold Program.advance
      cases env.failure <;> exact files
  | startReport filter combined => exact paused
  | startLog filter =>
      unfold Program.advance
      cases args.statsLog with
      | none => exact files
      | some path =>
          exact Stats.Log.step_ok files
            (.start path args.statsInterval env.opens s.totals.captured) interval
  | stopLog => exact Stats.Log.step_ok files .stop trivial
  | stopReport => exact paused
  | tickLog => exact Stats.Log.step_ok files (.tick (snapshot env s.totals)) trivial
  | _ => exact files

theorem step_files (files : Stats.Log.Ok s.log) (interval : args.statsInterval * 1000 < 2 ^ 31)
    (e : Event) : Stats.Log.Ok (s.step args e).log := by
  cases e with
  | advance env =>
      unfold Program.step
      cases s.inside with
      | none => exact files
      | some place => exact advance_files files interval env place
  | finish opens i =>
      show Stats.Log.Ok (s.finish args opens i).log
      unfold Program.finish
      cases s.tails[i]? with
      | none => exact files
      | some tail =>
          obtain ⟨-, -, -, log, -, -⟩ := perform_same args s opens tail
          show Stats.Log.Ok (s.perform args opens tail).log
          rw [log]
          exact files
  | wait ms => exact Stats.Log.step_ok files (.wait ms) trivial
  | _ => exact files

theorem initial_files (clock : Nat) (player : Scenario.Player) :
    Stats.Log.Ok (initial clock player).log :=
  ⟨nofun, fun _ member => absurd member List.not_mem_nil⟩

/-- **In step throughout.**  In every interleaving of starts, stops, turns of the main loop, the
backend's work and what goes on without the lock, the switches agree, a log is open in a session
only and every closed one can be read, and the report is spaced and bounded. -/
theorem sections_coherent (interval : args.statsInterval * 1000 < 2 ^ 31) (clock : Nat)
    (player : Scenario.Player) (es : List Event)
    (admissible : (machine args).Admissible (initial clock player) es) :
    ((machine args).run (initial clock player) es).Coherent :=
  (machine args).run_invariant
    (fun _ e ok admitted => ⟨ok.toSteady.step e admitted, step_files ok.files interval e⟩) es _
    ⟨initial_steady clock player, initial_files clock player⟩ admissible

def reporting : Args where
  statsLog := some "stats.csv".toList
  statsInterval := 1
  pcapOut := none
  pcapMaxPackets := 0
  pcapMaxBytes := 0
  pcapStage := none
  reportOut := some "report.html".toList
  long := 64

def calm : Env where
  failure := none
  opens := true
  disk := { opens := false, header := 0 }
  counters _ := { statsCapturedTotal := 0, statsSentTotal := 0, lagBufSize := 0, jitterBufSize := 0
                  bandwidthBufSize := 0, affectedCount := fun _ => 0 }
  lagBufSize := 0
  jitterBufSize := 0
  bandwidthBufSize := 0
  bandwidthLimitKBps := 0
  pause := 0

def capturedWork (n : Nat) : Work where
  captured := n
  sent := n
  affected _ := 0
  flipped := 0
  delays := []
  calls := []
  triggered _ := false
  sendState := .send

/-- A start with its section, and a stop with its. -/
def wholeStart : List Event :=
  .start "tcp".toList [] true ⟨0, 0, []⟩ :: List.replicate 8 (.advance calm)

def wholeStop : List Event := .stop :: List.replicate 8 (.advance calm)

/-- Two sessions; the end of the first stop comes when the second session runs. -/
def lateRun : List Event :=
  wholeStart ++ [.work (capturedWork 5), .wait 1000, .loop] ++
    List.replicate 4 (.advance calm) ++ wholeStop ++ wholeStart ++
    [.work (capturedWork 3), .finish true 1, .finish true 1, .finish true 1] ++ wholeStop

theorem lateRun_admissible :
    (machine reporting).Admissible (initial 0 .initial) lateRun := by
  unfold lateRun wholeStart wholeStop
  repeat' constructor

theorem sections_coherent_late :
    ((machine reporting).run (initial 0 .initial) lateRun).Coherent :=
  sections_coherent (by decide) 0 .initial lateRun lateRun_admissible

end Program

end Clumsy.Console
