/-
# Console.Capture -- main.cpp: starting and stopping a capture

Three critical sections run under `appLock`: a start, a stop, and the turn of the main loop.
Each is taken statement by statement here (`Place`), because the threads of the capture backend
work on meanwhile, and so does whatever a start or a stop does once it has released the lock:
the `tails`, among them the `statsReset` that ends a stop.  Calls of the control API that take
no lock, on the scenario and on the packet dump, fall anywhere.

`Coherent` is the invariant: what is open, running and counted agrees with `capturing` whenever
the lock is free, and is off by what the section has done so far while it is not.
-/
import Clumsy.Filter.Combine
import Clumsy.Pcap.Export
import Clumsy.Report.Session
import Clumsy.Scenario.LoadPlay
import Clumsy.Stats.Log

namespace Clumsy.Console

open Clumsy.Theory
open Clumsy.Theory.Clock (tickAt)
open Clumsy.Modules (ModuleId)
open Clumsy.Filter (ProcScan)
open Clumsy.Pcap (Export Disk Call pcapExportStart pcapExportStop pcapExportWriteStage)
open Clumsy.Report
open Clumsy.Scenario (Player ScenarioStep Counters Tick)
open Clumsy.Stats (Histogram latencyRecord latencyReset)
open Clumsy.Stats.Log (StatsLog Snapshot statsLogStart statsLogStop statsLogTick)
open Clumsy.Text (decimal general)

set_option autoImplicit false

def MSG_BUFSIZE : Nat := 512

/-- What the command line says, and the width of a `long`. -/
structure Args where
  statsLog       : Option (List Char)
  statsInterval  : Int
  pcapOut        : Option String
  pcapMaxPackets : Int
  pcapMaxBytes   : Int
  pcapStage      : Option String
  reportOut      : Option (List Char)
  long           : Nat

/-- Where the thread is that holds `appLock`. -/
inductive Place where
  | startReset (filter procName combined : List Char)
  | startBackend (filter procName combined : List Char)
  | startFlag (filter procName combined : List Char)
  | startReport (filter combined : List Char)
  | startLog (filter : List Char)
  | startPcap (filter : List Char)
  | startScenario (filter : List Char)
  | startLeave (filter : List Char)
  | stopScenario
  | stopBackend
  | stopFlag
  | stopModules
  | stopLog
  | stopPcap
  | stopReport
  | stopLeave
  | tickScenario
  | tickLog
  | tickReport
  | leave

/-- What is left to do without the lock. -/
inductive Tail where
  /-- `showStatus` at the end of a start. -/
  | announce (filter : List Char)
  /-- `reportWriteHtml` at the end of the stop of a session. -/
  | report (number : Nat)
  | stopped
  | reset

/-- What follows in the same thread. -/
def Tail.next : Tail → List Tail
  | .announce _ => []
  | .report _ => [.stopped]
  | .stopped => [.reset]
  | .reset => []

inductive SendStatus where
  | none
  | send
  | fail

/-- Of a stop, whose last step is a `statsReset`. -/
def Tail.ofStop : Tail → Bool
  | .announce _ => false
  | _ => true

/-- A session that was stopped: what its backend counted, whether it began with an earlier stop
still to end, and what the report took over. -/
structure Ended where
  number : Nat
  seen   : Totals
  late   : Bool
  final  : Totals

structure Program where
  capturing        : Bool
  /-- Between `divertStart` and `divertStop`. -/
  backend          : Bool
  currentFilter    : List Char
  currentProcess   : List Char
  statusLine       : List Char
  captureStartTick : UInt32
  totals           : Totals
  bitsFlipped      : Int
  latency          : Histogram
  processTriggered : ModuleId → Bool
  sendState        : SendStatus
  player           : Player
  log              : StatsLog
  pcap             : Export
  report           : Session
  inside           : Option Place
  tails            : List Tail
  /-- History: what the present backend counted, whether it began with an earlier stop still to
  end, the sessions before, and the pages written, each with the session that was stopped. -/
  seen             : Totals
  late             : Bool
  ended            : List Ended
  pages            : List (Nat × Page)

namespace Program

/-- The clock in milliseconds. -/
def clock (s : Program) : Nat := s.log.clock

def wait (ms : Nat) (s : Program) : Program :=
  { s with log := { s.log with clock := s.log.clock + ms } }

/-! ## The backend at work -/

/-- What the threads of the backend do in between. -/
structure Work where
  captured  : Nat
  sent      : Nat
  affected  : ModuleId → Nat
  flipped   : Nat
  delays    : List UInt32
  calls     : List Call
  triggered : ModuleId → Bool
  sendState : SendStatus

def Work.count (work : Work) (t : Totals) : Totals where
  captured := t.captured + work.captured
  sent := t.sent + work.sent
  affected m := t.affected m + work.affected m

def work (args : Args) (work : Work) (s : Program) : Program :=
  { s with
    totals := work.count s.totals
    seen := work.count s.seen
    bitsFlipped := s.bitsFlipped + work.flipped
    latency := work.delays.foldl (fun h ms => latencyRecord args.long ms h) s.latency
    pcap := work.calls.foldl (fun e call => pcapExportWriteStage args.long call e) s.pcap
    processTriggered := work.triggered
    sendState := work.sendState }

def statsReset (s : Program) : Program :=
  { s with
    totals := .zero
    bitsFlipped := 0
    latency := latencyReset s.latency }

/-! ## The sections -/

/-- What a statement under the lock finds. -/
structure Env where
  /-- The message of a `divertStart` that fails. -/
  failure            : Option (List Char)
  opens              : Bool
  disk               : Disk
  counters           : Nat → Counters
  lagBufSize         : Int
  jitterBufSize      : Int
  bandwidthBufSize   : Int
  bandwidthLimitKBps : Int
  /-- Between two readings of the clock. -/
  pause              : Nat

def opName : Scenario.Op → List Char
  | .gt => ">".toList
  | .le => "<=".toList
  | .lt => "<".toList
  | .eq => "==".toList
  | .ge => ">=".toList

/-- What `applyStep` notes in the report. -/
def note (step : ScenarioStep) : List Char :=
  (match step.triggerType with
  | .time => "scenario step at ".toList ++ decimal step.atSec ++ "s".toList
  | .condition => "scenario condition ".toList ++ step.whenMetric ++ " ".toList ++
      opName step.op ++ " ".toList ++ general 6 step.value).take (EVENT_TEXT - 1)

def snapshot (env : Env) (t : Totals) : Snapshot where
  statsCapturedTotal := t.captured
  statsSentTotal := t.sent
  affectedCount := t.affected
  lagBufSize := env.lagBufSize
  jitterBufSize := env.jitterBufSize
  bandwidthBufSize := env.bandwidthBufSize
  bandwidthLimitKBps := env.bandwidthLimitKBps

/-- The turn of the scenario: its steps are noted as they are applied. -/
def tickScenario (env : Env) (s : Program) : Program :=
  let tick : Tick := { clock := s.clock, captured := s.totals.captured, counters := env.counters }
  let (player, applied) := s.player.scenarioTick tick
  let notes := applied.filterMap fun ix => s.player.steps[ix]?.map note
  { s with player, report := notes.foldl (fun r text => reportNoteEvent text s.clock r) s.report }

/-- One statement of a section. -/
def advance (args : Args) (env : Env) (s : Program) : Place → Program
  | .startReset filter procName combined =>
      { s.statsReset with inside := some (.startBackend filter procName combined) }
  | .startBackend filter procName combined =>
      match env.failure with
      | some _ => { s with inside := some .leave }
      | none =>
          { s with
            backend := true
            seen := .zero
            late := s.tails.any Tail.ofStop
            inside := some (.startFlag filter procName combined) }
  | .startFlag filter procName combined =>
      { s with
        currentFilter := filter.take (FILTER_BUFSIZE - 1)
        currentProcess := procName.take (MSG_BUFSIZE - 1)
        captureStartTick := tickAt s.clock
        capturing := true
        inside := some (.startReport filter combined) }
  | .startReport filter combined =>
      { s.wait env.pause with
        report := reportSessionStart combined s.clock (s.clock + env.pause) s.report
        inside := some (.startLog filter) }
  | .startLog filter =>
      { s with
        log := match args.statsLog with
          | none => s.log
          | some path => statsLogStart path args.statsInterval env.opens s.totals.captured s.log
        inside := some (.startPcap filter) }
  | .startPcap filter =>
      { s with
        pcap := match args.pcapOut with
          | none => s.pcap
          | some path =>
              if s.pcap.pcapActive then s.pcap
              else (pcapExportStart path args.pcapMaxPackets args.pcapMaxBytes args.pcapStage
                env.disk s.pcap).1
        inside := some (.startScenario filter) }
  | .startScenario filter =>
      { s with
        player := s.player.scenarioStart s.clock s.totals.captured
        inside := some (.startLeave filter) }
  | .startLeave filter => { s with inside := none, tails := s.tails ++ [.announce filter] }
  | .stopScenario => { s with player := s.player.scenarioStop, inside := some .stopBackend }
  | .stopBackend => { s with backend := false, inside := some .stopFlag }
  | .stopFlag => { s with capturing := false, inside := some .stopModules }
  | .stopModules =>
      { s with processTriggered := fun _ => false, sendState := .none, inside := some .stopLog }
  | .stopLog => { s with log := statsLogStop s.log, inside := some .stopPcap }
  | .stopPcap => { s with pcap := pcapExportStop s.pcap, inside := some .stopReport }
  | .stopReport =>
      { s.wait env.pause with
        report := reportSessionStop s.clock (s.clock + env.pause) s.totals s.report
        ended := s.ended ++
          [{ number := s.report.number, seen := s.seen, late := s.late, final := s.totals }]
        inside := some .stopLeave }
  | .stopLeave => { s with inside := none, tails := s.tails ++ [.report s.report.number] }
  | .tickScenario => { s.tickScenario env with inside := some .tickLog }
  | .tickLog =>
      { s with log := statsLogTick (snapshot env s.totals) s.log, inside := some .tickReport }
  | .tickReport => { s with report := reportTick s.clock s.totals s.report, inside := some .leave }
  | .leave => { s with inside := none }

/-! ## Without the lock -/

/-- `showStatus`. -/
def showStatus (line : List Char) (s : Program) : Program :=
  { s with statusLine := line.take (MSG_BUFSIZE - 1) }

/-- The status line of a capture, with the process as it is by then. -/
def capturingLine (filter process : List Char) : List Char :=
  ("Capturing. filter=\"".toList ++ filter.take 400 ++ "\"".toList ++
    (if process = [] then [] else " process=".toList) ++ process.take 64).take (MSG_BUFSIZE - 1)

/-- `reportWriteHtml`, if the command line asks for it; `opens` is whether its file opens. -/
def writeReport (args : Args) (opens : Bool) (number : Nat) (s : Program) : Program :=
  match args.reportOut with
  | none => s
  | some path =>
      if path = [] ∨ opens = false then s
      else { s with pages := s.pages ++ [(number, s.report.page s.clock s.totals)] }

def perform (args : Args) (opens : Bool) (s : Program) : Tail → Program
  | .announce filter => s.showStatus (capturingLine filter s.currentProcess)
  | .report number => s.writeReport args opens number
  | .stopped => s.showStatus "Stopped. Set a filter and start again to resume.".toList
  | .reset => s.statsReset

/-- The next step of the thread with the tail at `i`. -/
def finish (args : Args) (opens : Bool) (i : Nat) (s : Program) : Program :=
  match s.tails[i]? with
  | none => s
  | some tail =>
      { s.perform args opens tail with
        tails := s.tails.take i ++ tail.next ++ s.tails.drop (i + 1) }

/-! ## Runs -/

inductive Event where
  /-- A start takes the lock, with what it finds out on the way to `statsReset`. -/
  | start (filter procName : List Char) (isAdmin : Bool) (scan : ProcScan)
  | stop
  /-- The main loop takes the lock. -/
  | loop
  | advance (env : Env)
  | finish (opens : Bool) (i : Nat)
  | work (work : Work)
  | scenarioLoad (json : List Char)
  | scenarioStart
  | scenarioStop
  | pcapStart (path : String) (maxPackets maxBytes : Int) (disk : Disk)
  | pcapStop
  | wait (ms : Nat)

/-- Where a start goes, a stop, and the main loop. -/
def startsAt (filter procName : List Char) (isAdmin : Bool) (scan : ProcScan) (s : Program) :
    Place :=
  match Filter.appStartCapture s.capturing isAdmin filter procName scan with
  | .error _ => .leave
  | .ok combined => .startReset filter procName combined

def stopsAt (s : Program) : Place := if s.capturing then .stopScenario else .leave

def loopsAt (s : Program) : Place := if s.capturing then .tickScenario else .leave

def step (args : Args) (s : Program) : Event → Program
  | .start filter procName isAdmin scan =>
      { s with inside := some (s.startsAt filter procName isAdmin scan) }
  | .stop => { s with inside := some s.stopsAt }
  | .loop => { s with inside := some s.loopsAt }
  | .advance env =>
      match s.inside with
      | none => s
      | some place => s.advance args env place
  | .finish opens i => s.finish args opens i
  | .work work => s.work args work
  | .scenarioLoad json => { s with player := s.player.load json }
  | .scenarioStart => { s with player := s.player.scenarioStart s.clock s.totals.captured }
  | .scenarioStop => { s with player := s.player.scenarioStop }
  | .pcapStart path maxPackets maxBytes disk =>
      { s with pcap := (pcapExportStart path maxPackets maxBytes args.pcapStage disk s.pcap).1 }
  | .pcapStop => { s with pcap := pcapExportStop s.pcap }
  | .wait ms => s.wait ms

/-- The lock is taken when it is free, and the backend works while it runs. -/
def admits (s : Program) : Event → Prop
  | .start .. | .stop | .loop => s.inside = none
  | .work _ => s.backend = true
  | _ => True

def machine (args : Args) : Machine Program Event where
  step := step args
  admits := admits

/-- Before the first capture, with whatever scenario the command line named. -/
def initial (clock : Nat) (player : Player) : Program where
  capturing := false
  backend := false
  currentFilter := []
  currentProcess := []
  statusLine := "Idle.".toList
  captureStartTick := 0
  totals := .zero
  bitsFlipped := 0
  latency := .initial
  processTriggered := fun _ => false
  sendState := .none
  player
  log := Stats.Log.idle clock
  pcap := .initial
  report := .initial
  inside := none
  tails := []
  seen := .zero
  late := false
  ended := []
  pages := []

end Program

end Clumsy.Console
