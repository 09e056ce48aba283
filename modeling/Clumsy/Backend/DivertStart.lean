/-
# Backend.DivertStart -- divertStart of divert_linux.cpp and divert.cpp

A start acquires one resource after the other, and the outcomes say which of the
acquisitions succeed.  `fail` gives back what the Linux backend holds but leaves the
threads alone, so a start that fails behind the thread of the read loop is clean only if
that thread is over (`linux_start_iff`).  The Windows backend gives nothing back
(`windows_start_iff`).
-/
import Clumsy.Backend.Iptables

namespace Clumsy.Backend

open Clumsy.Filter

set_option autoImplicit false

/-- `MSG_BUFSIZE`. -/
def msgBufsize : Nat := 512

/-- `snprintf` into a message buffer. -/
def message (text : String) : String := String.ofList (text.toList.take (msgBufsize - 1))

/-! ## Linux -/

/-- The options `divertStart` reads. -/
structure Settings where
  queueNum     : Int
  injectMark   : UInt32
  autoIptables : Bool

/-- Which acquisitions succeed, and which threads are over when `divertStart`
returns. -/
structure LinuxOutcomes where
  nfqOpen     : Bool
  bindPf      : Bool
  createQueue : Bool
  setMode     : Bool
  rawSocket   : Bool
  rawSocket6  : Bool
  createMutex : Bool
  loopThread  : Bool
  clockThread : Bool
  /-- Whether `-I` succeeds, by the number of the attempt. -/
  permit      : Nat → Bool
  loopEnded   : Bool
  clockEnded  : Bool
  /-- `strerror(errno)` at the call that failed. -/
  strerror    : String

/-- The variables of `divert_linux.cpp`, and its two threads. -/
structure LinuxBackend where
  filterProg   : Option FilterProgram
  nfqHandle    : Bool
  nfqQueue     : Bool
  rawSocket    : Bool
  rawSocket6   : Bool
  mutex        : Bool
  loopThread   : Bool
  clockThread  : Bool
  stopLooping  : Bool
  loopRunning  : Bool
  clockRunning : Bool
  tables       : Tables
  buf          : String

namespace LinuxBackend

/-- Nothing is held. -/
def idle (t : Tables) : LinuxBackend :=
  { filterProg := none, nfqHandle := false, nfqQueue := false, rawSocket := false
    rawSocket6 := false, mutex := false, loopThread := false, clockThread := false
    stopLooping := false, loopRunning := false, clockRunning := false, tables := t, buf := "" }

/-- The label `fail`, reached with a message in `buf`. -/
def fail (text : String) (b : LinuxBackend) : Bool × LinuxBackend :=
  (false, { b with
    buf := message text
    nfqQueue := false
    nfqHandle := false
    rawSocket := false
    rawSocket6 := false
    filterProg := none })

/-- The injection sockets.  Both are optional; the second one is tried behind the
first. -/
def openSockets (o : LinuxOutcomes) (b : LinuxBackend) : LinuxBackend :=
  if o.rawSocket then { b with rawSocket := true, rawSocket6 := o.rawSocket6 }
  else { b with rawSocket := false }

/-- The rules, behind both threads.  The wait for the threads gives up after three
seconds. -/
def startRules (set : Settings) (o : LinuxOutcomes) (prog : FilterProgram) (b : LinuxBackend) :
    Bool × LinuxBackend :=
  let done := iptablesAutoInstall o.permit set.autoIptables prog set.queueNum set.injectMark
    b.tables
  let b := { b with tables := done.2 }
  if done.1 then (true, b)
  else
    fail ("Failed to install iptables rules. Run as root, or drop " ++
        "--auto-iptables and add the rules manually.")
      { b with stopLooping := true, loopThread := false, clockThread := false }

def startThreads (set : Settings) (o : LinuxOutcomes) (prog : FilterProgram) (b : LinuxBackend) :
    Bool × LinuxBackend :=
  let b := { b with stopLooping := false, mutex := o.createMutex }
  if !o.createMutex then b.fail "Failed to create mutex"
  else
    let b := { b with loopThread := o.loopThread, loopRunning := o.loopThread && !o.loopEnded }
    if !o.loopThread then b.fail "Failed to create recv loop thread"
    else
      let b := { b with
        clockThread := o.clockThread
        clockRunning := o.clockThread && !o.clockEnded }
      if !o.clockThread then b.fail "Failed to create clock loop thread"
      else if set.autoIptables then b.startRules set o prog
      else (true, b)

def startQueue (set : Settings) (o : LinuxOutcomes) (prog : FilterProgram) (b : LinuxBackend) :
    Bool × LinuxBackend :=
  let b := { b with nfqHandle := true }
  if !o.bindPf then b.fail ("nfq_bind_pf(AF_INET) failed (" ++ o.strerror ++ ")")
  else
    let b := { b with nfqQueue := o.createQueue }
    if !o.createQueue then
      b.fail ("Failed to bind queue " ++ toString set.queueNum ++ " (" ++ o.strerror ++
        ").\nAnother process may already own it - try --queue-num N.")
    else if !o.setMode then b.fail ("nfq_set_mode failed (" ++ o.strerror ++ ")")
    else (b.openSockets o).startThreads set o prog

def divertStart (set : Settings) (o : LinuxOutcomes) (filter : List Char) (b : LinuxBackend) :
    Bool × LinuxBackend :=
  match filterCompile filter with
  | .error err =>
      (false, { b with
        filterProg := none
        buf := message ("Failed to start filtering : " ++ err) })
  | .ok prog =>
      if !o.nfqOpen then
        (false, { b with
          filterProg := none
          nfqHandle := false
          buf := message ("Failed to open NFQUEUE (" ++ o.strerror ++
            ").\nMake sure you run clumsy as root (or with CAP_NET_ADMIN).") })
      else { b with filterProg := some prog }.startQueue set o prog

/-- Nothing is held, nothing runs and the chains are those from before. -/
structure Released (before : Chains) (b : LinuxBackend) : Prop where
  filterProg   : b.filterProg = none
  nfqHandle    : b.nfqHandle = false
  nfqQueue     : b.nfqQueue = false
  rawSocket    : b.rawSocket = false
  rawSocket6   : b.rawSocket6 = false
  chains       : b.tables.chains = before
  loopRunning  : b.loopRunning = false
  clockRunning : b.clockRunning = false

end LinuxBackend

/-- Everything up to the thread of the read loop was acquired. -/
def LinuxOutcomes.reachesLoop (o : LinuxOutcomes) : Bool :=
  o.nfqOpen && o.bindPf && o.createQueue && o.setMode && o.createMutex && o.loopThread

namespace LinuxBackend

/-- A start that failed released everything. -/
def Atomic (before : Chains) (done : Bool × LinuxBackend) : Prop :=
  done.1 = false → done.2.Released before

section Stages

variable {set : Settings} {o : LinuxOutcomes} {prog : FilterProgram} {b : LinuxBackend}
  {before : Chains}

/-- `fail` leaves the threads and the rules as they are. -/
theorem fail_atomic (text : String) :
    Atomic before (b.fail text) ↔
      b.tables.chains = before ∧ b.loopRunning = false ∧ b.clockRunning = false := by
  constructor
  · intro h
    have released := h rfl
    exact ⟨released.chains, released.loopRunning, released.clockRunning⟩
  · rintro ⟨chains, loop, clock⟩ _
    exact ⟨rfl, rfl, rfl, rfl, rfl, chains, loop, clock⟩

theorem success_atomic : Atomic before (true, b) := nofun

theorem openSockets_loopRunning : (b.openSockets o).loopRunning = b.loopRunning := by
  rw [openSockets]
  split <;> rfl

theorem openSockets_clockRunning : (b.openSockets o).clockRunning = b.clockRunning := by
  rw [openSockets]
  split <;> rfl

theorem openSockets_tables : (b.openSockets o).tables = b.tables := by
  rw [openSockets]
  split <;> rfl

/-- The threads are over wherever a start fails behind the first of them. -/
def EndsIfFailed (set : Settings) (o : LinuxOutcomes) (prog : FilterProgram) (t : Tables) : Prop :=
  (o.clockThread = false → o.loopEnded = true) ∧
    (o.clockThread = true → set.autoIptables = true →
      (iptablesAutoInstall o.permit true prog set.queueNum set.injectMark t).1 = false →
      o.loopEnded = true ∧ o.clockEnded = true)

theorem startRules_atomic (auto : set.autoIptables = true) (loop : b.loopRunning = !o.loopEnded)
    (clock : b.clockRunning = !o.clockEnded) :
    Atomic b.tables.chains (b.startRules set o prog) ↔
      ((iptablesAutoInstall o.permit true prog set.queueNum set.injectMark b.tables).1 = false →
        o.loopEnded = true ∧ o.clockEnded = true) := by
  rw [startRules, auto]
  cases installed : (iptablesAutoInstall o.permit true prog set.queueNum set.injectMark
    b.tables).1 with
  | true => simp [success_atomic]
  | false =>
      have same := autoInstall_failed o.permit prog set.queueNum set.injectMark b.tables installed
      simp [fail_atomic, same, loop, clock]

/-- From the mutex on. -/
theorem startThreads_atomic (loop : b.loopRunning = false) (clock : b.clockRunning = false) :
    Atomic b.tables.chains (b.startThreads set o prog) ↔
      (o.createMutex = true → o.loopThread = true → EndsIfFailed set o prog b.tables) := by
  rw [startThreads]
  cases o.createMutex with
  | false => simp [fail_atomic, loop, clock]
  | true =>
      cases o.loopThread with
      | false => simp [fail_atomic, clock]
      | true =>
          cases clk : o.clockThread with
          | false => simp [fail_atomic, EndsIfFailed, clk]
          | true =>
              cases auto : set.autoIptables with
              | false => simp [success_atomic, EndsIfFailed, clk, auto]
              | true =>
                  simp only [Bool.not_true, Bool.false_eq_true, if_false, if_true, Bool.true_and,
                    EndsIfFailed, clk, auto, Bool.true_eq_false, false_implies, true_implies,
                    true_and]
                  exact startRules_atomic (b := { b with
                    stopLooping := false, mutex := true, loopThread := true
                    loopRunning := !o.loopEnded, clockThread := true
                    clockRunning := !o.clockEnded }) auto rfl rfl

/-- From `nfq_bind_pf` on. -/
theorem startQueue_atomic (loop : b.loopRunning = false) (clock : b.clockRunning = false) :
    Atomic b.tables.chains (b.startQueue set o prog) ↔
      (o.bindPf = true → o.createQueue = true → o.setMode = true → o.createMutex = true →
        o.loopThread = true → EndsIfFailed set o prog b.tables) := by
  rw [startQueue]
  cases o.bindPf with
  | false => simp [fail_atomic, loop, clock]
  | true =>
      cases o.createQueue with
      | false => simp [fail_atomic, loop, clock]
      | true =>
          cases o.setMode with
          | false => simp [fail_atomic, loop, clock]
          | true =>
              have threads (c : LinuxBackend) (loop : c.loopRunning = false)
                  (clock : c.clockRunning = false) :
                  Atomic c.tables.chains ((c.openSockets o).startThreads set o prog) ↔
                    (o.createMutex = true → o.loopThread = true →
                      EndsIfFailed set o prog c.tables) := by
                rw [← openSockets_tables]
                exact startThreads_atomic (openSockets_loopRunning.trans loop)
                  (openSockets_clockRunning.trans clock)
              simp only [Bool.not_true, Bool.false_eq_true, if_false, true_implies]
              exact threads { b with nfqHandle := true, nfqQueue := true } loop clock

/-- The whole start: it is atomic exactly if no thread outlives a failure behind the
thread of the read loop. -/
theorem linuxStart_atomic (filter : List Char) (t : Tables) :
    Atomic t.chains (divertStart set o filter (idle t)) ↔
      ∀ prog, filterCompile filter = .ok prog → o.reachesLoop = true →
        EndsIfFailed set o prog t := by
  rw [divertStart]
  cases filterCompile filter with
  | error err =>
      refine iff_of_true ?_ nofun
      exact fun _ => ⟨rfl, rfl, rfl, rfl, rfl, rfl, rfl, rfl⟩
  | ok prog =>
      cases opened : o.nfqOpen with
      | false =>
          refine iff_of_true ?_ ?_
          · exact fun _ => ⟨rfl, rfl, rfl, rfl, rfl, rfl, rfl, rfl⟩
          · intro _ _ reached
            simp [LinuxOutcomes.reachesLoop, opened] at reached
      | true =>
          simp only [Bool.not_true, Bool.false_eq_true, if_false]
          refine Iff.trans (startQueue_atomic (b := { idle t with filterProg := some prog })
            rfl rfl) ?_
          simp [LinuxOutcomes.reachesLoop, opened, idle, and_imp]

end Stages

end LinuxBackend

/-! ## Windows -/

/-- `ERROR_INVALID_PARAMETER`. -/
def errorInvalidParameter : Nat := 87

structure WindowsOutcomes where
  /-- The error code if `WinDivertOpen` fails. -/
  openError   : Option Nat
  createMutex : Bool
  loopThread  : Bool
  clockThread : Bool
  loopEnded   : Bool
  clockEnded  : Bool
  /-- `GetLastError()` at the call that failed behind the open. -/
  lastError   : Nat

/-- The variables of `divert.cpp`, and its two threads. -/
structure WindowsBackend where
  divertHandle : Bool
  mutex        : Bool
  loopThread   : Bool
  clockThread  : Bool
  stopLooping  : Bool
  loopRunning  : Bool
  clockRunning : Bool
  buf          : String

namespace WindowsBackend

/-- Nothing is held. -/
def idle : WindowsBackend :=
  { divertHandle := false, mutex := false, loopThread := false, clockThread := false
    stopLooping := false, loopRunning := false, clockRunning := false, buf := "" }

def failedTo (what : String) (code : Nat) (b : WindowsBackend) : Bool × WindowsBackend :=
  (false, { b with buf := "Failed to create " ++ what ++ " (" ++ toString code ++ ")" })

def divertStart (o : WindowsOutcomes) (b : WindowsBackend) : Bool × WindowsBackend :=
  match o.openError with
  | some code =>
      (false, { b with
        divertHandle := false
        buf :=
          if code = errorInvalidParameter then
            "Failed to start filtering : filter syntax error."
          else
            "Failed to start filtering : failed to open device (code:" ++ toString code ++
              ").\nMake sure you run clumsy as Administrator." })
  | none =>
      let b := { b with divertHandle := true, stopLooping := false, mutex := o.createMutex }
      if !o.createMutex then b.failedTo "mutex" o.lastError
      else
        let b := { b with loopThread := o.loopThread, loopRunning := o.loopThread && !o.loopEnded }
        if !o.loopThread then b.failedTo "recv loop thread" o.lastError
        else
          let b := { b with
            clockThread := o.clockThread
            clockRunning := o.clockThread && !o.clockEnded }
          if !o.clockThread then b.failedTo "clock loop thread" o.lastError
          else (true, b)

/-- The handle is not held and nothing runs. -/
structure Released (b : WindowsBackend) : Prop where
  divertHandle : b.divertHandle = false
  loopRunning  : b.loopRunning = false
  clockRunning : b.clockRunning = false

def Atomic (done : Bool × WindowsBackend) : Prop := done.1 = false → done.2.Released

theorem failedTo_atomic {b : WindowsBackend} (held : b.divertHandle = true) (what : String)
    (code : Nat) : ¬ Atomic (b.failedTo what code) := by
  intro h
  have released : b.divertHandle = false := (h rfl).divertHandle
  rw [held] at released
  cases released

/-- Once the handle is open nothing may fail. -/
theorem windowsStart_atomic (o : WindowsOutcomes) :
    Atomic (divertStart o idle) ↔
      (o.openError = none →
        o.createMutex = true ∧ o.loopThread = true ∧ o.clockThread = true) := by
  rw [divertStart]
  cases o.openError with
  | some code => exact iff_of_true (fun _ => ⟨rfl, rfl, rfl⟩) nofun
  | none =>
      cases o.createMutex with
      | false => exact iff_of_false (failedTo_atomic rfl _ _) (by simp)
      | true =>
          cases o.loopThread with
          | false => exact iff_of_false (failedTo_atomic rfl _ _) (by simp)
          | true =>
              cases o.clockThread with
              | false => exact iff_of_false (failedTo_atomic rfl _ _) (by simp)
              | true => exact iff_of_true nofun (by simp)

end WindowsBackend

/-! ## Specification -/

/-- **When a failed start leaves nothing behind.**  On Linux a failure behind the thread
of the read loop must find that thread over, and behind the clock thread both; on Windows
nothing may fail once the handle is open. -/
theorem divertStart_atomic_iff (set : Settings) (filter : List Char) (t : Tables)
    (linux : LinuxOutcomes) (windows : WindowsOutcomes) :
    (LinuxBackend.Atomic t.chains (LinuxBackend.divertStart set linux filter (.idle t)) ↔
      ∀ prog, filterCompile filter = .ok prog → linux.reachesLoop = true →
        (linux.clockThread = false → linux.loopEnded = true) ∧
          (linux.clockThread = true → set.autoIptables = true →
            (iptablesAutoInstall linux.permit true prog set.queueNum set.injectMark t).1 = false →
            linux.loopEnded = true ∧ linux.clockEnded = true)) ∧
      (WindowsBackend.Atomic (WindowsBackend.divertStart windows .idle) ↔
        (windows.openError = none →
          windows.createMutex = true ∧ windows.loopThread = true ∧
            windows.clockThread = true)) :=
  ⟨LinuxBackend.linuxStart_atomic filter t, WindowsBackend.windowsStart_atomic windows⟩

/-- The clock thread cannot be created and the read loop is still waiting for packets;
and on Windows there is no mutex. -/
theorem failed_start_leaves_behind :
    let linux : LinuxOutcomes :=
      { nfqOpen := true, bindPf := true, createQueue := true, setMode := true, rawSocket := true
        rawSocket6 := true, createMutex := true, loopThread := true, clockThread := false
        permit := fun _ => true, loopEnded := false, clockEnded := false, strerror := "" }
    let windows : WindowsOutcomes :=
      { openError := none, createMutex := false, loopThread := true, clockThread := true
        loopEnded := false, clockEnded := false, lastError := 8 }
    let set : Settings := { queueNum := 0, injectMark := 0xC1, autoIptables := false }
    ¬ LinuxBackend.Atomic noRules.chains (LinuxBackend.divertStart set linux [] (.idle noRules)) ∧
      ¬ WindowsBackend.Atomic (WindowsBackend.divertStart windows .idle) := by
  intro linux windows set
  constructor
  · intro h
    have running : false = true := (h rfl).loopRunning.symm.trans (by rfl)
    cases running
  · intro h
    cases (h rfl).divertHandle

end Clumsy.Backend
