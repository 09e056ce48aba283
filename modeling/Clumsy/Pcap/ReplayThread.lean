/-
# Pcap.ReplayThread -- pcapreplay.cpp: replays that are started and stopped

Any number of `pcapReplayStart` and `pcapReplayStop` calls run beside the replay threads.
They share `replayActive`, `replayStop` and the slot `replayThread` for a handle.  What a
call does under `replayLock` is one step; a stop that found a handle ends in a second one,
the join outside the lock; and a thread takes its own steps through `replayThreadProc`.

A thread is live from its creation until it has cleared `replayActive`.  The shared state
keeps three promises (`Inv`): the live thread is the only one, `replayActive` is set
exactly while there is one, and a handle is in one place, the slot or a stop that waits
or the closed ones.  `replay_exclusive` is what follows for every interleaving.

The speed and the times a thread sleeps are `double`s, with what overflows and what is
rounded away.
-/
import Clumsy.Pcap.Replay
import Clumsy.Theory.Run
import Clumsy.Theory.Binary

namespace Clumsy.Pcap.ReplayThread

open Clumsy.Theory
open Clumsy.Packet
open Clumsy.Pcap

set_option autoImplicit false

def MSG_BUFSIZE : Nat := 512

/-- `replayFilePath`, `replaySpeed` and `replayLoop`. -/
structure Settings where
  path  : List Char
  speed : Fp
  loop  : Bool
  deriving DecidableEq

/-- The counters, each a `LONG`. -/
structure Counts where
  read   : Int32 := 0
  sent   : Int32 := 0
  failed : Int32 := 0
  deriving DecidableEq

/-- The locals of one pass over the file. -/
structure Pass where
  own       : Settings
  file      : Opened
  wallStart : UInt32
  firstTs   : Option Nat
  rest      : Bytes
  deriving DecidableEq

/-- Where a thread stands in `replayThreadProc`. -/
inductive Pc where
  | created
  /-- The buffer is there, the settings are still to be read. -/
  | allocated
  /-- At the head of the outer loop. -/
  | opening (own : Settings)
  /-- At the test of the loop over the records. -/
  | reading (pass : Pass)
  /-- In the loop that sleeps, `waitMs` from the end of it. -/
  | pacing (pass : Pass) (buf : Bytes) (waitMs : Fp)
  /-- Inside `packetBackendInject`. -/
  | injecting (pass : Pass) (packet : Bytes)
  /-- At the test of the outer loop. -/
  | passed (own : Settings)
  /-- Before `packetBackendInjectClose`. -/
  | closing
  /-- Before `replayActive` is cleared. -/
  | clearing
  | finished
  deriving DecidableEq

/-- Between its creation and its clearing of `replayActive`. -/
def Pc.live : Pc → Bool
  | .finished => false
  | _ => true

/-- Whether the thread can still come to `packetBackendInject`. -/
def Pc.mayInject : Pc → Bool
  | .closing | .clearing | .finished => false
  | _ => true

structure State where
  /-- `replayLockReady`. -/
  ready   : Bool := false
  active  : Bool := false
  stop    : Bool := false
  /-- `replayThread`.  The handle of a thread is its place in `threads`. -/
  slot    : Option Nat := none
  own     : Settings := { path := [], speed := .finite 1, loop := false }
  counts  : Counts := {}
  /-- Every thread that was created. -/
  threads : List Pc := []
  /-- The handles of the stops that wait. -/
  joining : List Nat := []
  /-- What `CloseHandle` was called with. -/
  closed  : List Nat := []

/-- Before `pcapReplayInit`. -/
def State.initial : State := {}

/-! ## The thread -/

/-- What a thread meets at a step. -/
structure Env where
  /-- Whether `malloc` succeeds. -/
  memory : Bool
  /-- The file under a path. -/
  file   : List Char → Option Bytes
  /-- `GetTickCount()`. -/
  tick   : UInt32
  /-- What `packetBackendInject` returns. -/
  sent   : Bool

/-- `(speed > 0.0) ? speed : 1.0`. -/
def effective (speed : Fp) : Fp := if Fp.lt (.finite 0) speed then speed else .finite 1

/-- When a record is due, in milliseconds from the start. -/
def targetMs (speed : Fp) (firstTs ts : Nat) : Fp :=
  if ts ≥ firstTs then
    binary64.div (binary64.lift (· / 1000) (binary64.round (ts - firstTs : Nat))) speed
  else .finite 0

/-- How long the record waits, from the time of the first record and of this one. -/
def Pass.waitMs (pass : Pass) (tick : UInt32) (firstTs ts : Nat) : Fp :=
  let targetMs := targetMs pass.own.speed firstTs ts
  let elapsed : ℚ := (tick - pass.wallStart).toNat
  if Fp.lt (.finite elapsed) targetMs then binary64.lift (· - elapsed) targetMs else .finite 0

/-- One round of the sleep. -/
def chunk : Fp → ℚ
  | .finite waitMs => if waitMs > 100 then 100 else max 1 ⌊waitMs⌋
  | _ => 100

/-- The next step of `replayThreadProc`. -/
def replayThreadStep (s : State) (env : Env) : Pc → State × Pc
  | .created => (s, if env.memory then .allocated else .clearing)
  | .allocated =>
      (s, .opening { s.own with speed := effective s.own.speed })
  | .opening own =>
      match openAndValidate (env.file own.path) with
      | .error _ => (s, .closing)
      | .ok f =>
          (s, .reading
            { own, file := f, wallStart := env.tick, firstTs := none, rest := f.rest })
  | .reading pass =>
      if s.stop then (s, .passed pass.own)
      else
        match readRecord pass.file.swapped pass.rest with
        | none => (s, .passed pass.own)
        | some ((rh, buf), rest) =>
            let firstTs := pass.firstTs.getD rh.ts
            ({ s with counts := { s.counts with read := s.counts.read + 1 } },
              .pacing { pass with firstTs := some firstTs, rest } buf
                (pass.waitMs env.tick firstTs rh.ts))
  | .pacing pass buf waitMs =>
      if Fp.lt (.finite 0) waitMs ∧ ¬s.stop then
        (s, .pacing pass buf (binary64.lift (· - chunk waitMs) waitMs))
      else if s.stop then (s, .passed pass.own)
      else
        match ipOffsetFor pass.file.linkType buf with
        | none =>
            ({ s with counts := { s.counts with failed := s.counts.failed + 1 } }, .reading pass)
        | some off => (s, .injecting pass (buf.drop off))
  | .injecting pass _ =>
      ({ s with counts := if env.sent then { s.counts with sent := s.counts.sent + 1 }
          else { s.counts with failed := s.counts.failed + 1 } }, .reading pass)
  | .passed own => (s, if own.loop ∧ ¬s.stop then .opening own else .closing)
  | .closing => (s, .clearing)
  | .clearing => ({ s with active := false }, .finished)
  | .finished => (s, .finished)

/-- A step of the thread, if there is one with this handle. -/
def threadStep (s : State) (k : Nat) (env : Env) : State :=
  match s.threads[k]? with
  | none => s
  | some pc =>
      let (s', pc') := replayThreadStep s env pc
      { s' with threads := s.threads.set k pc' }

/-! ## The calls -/

def pcapReplayInit (s : State) : State := { s with ready := true }

/-- A call of `pcapReplayStart`, with what it meets. -/
structure StartCall where
  path    : List Char
  speed   : Fp
  loop    : Bool
  /-- The file when the call opens it. -/
  probe   : Option Bytes
  /-- Whether `CreateThread` succeeds. -/
  created : Bool

inductive StartError where
  | noFile
  | notInitialised
  | running
  | invalid (error : OpenError)
  | noThread
  deriving DecidableEq, Repr

/-- What `errBuf` holds. -/
def StartError.text (path : String) : StartError → String
  | .noFile => "no replay file given"
  | .notInitialised => "replay subsystem is not initialised"
  | .running => "a replay is already running"
  | .invalid error => error.text path
  | .noThread => "failed to create the replay thread"

/-- The handle that a finished run left in the slot is released. -/
def releaseSlot (s : State) : State :=
  { s with slot := none, closed := s.closed ++ s.slot.toList }

def pcapReplayStart (s : State) (call : StartCall) : Except StartError Unit × State :=
  if call.path = [] then (.error .noFile, s)
  else if ¬s.ready then (.error .notInitialised, s)
  else if s.active then (.error .running, s)
  else
    match openAndValidate call.probe with
    | .error e => (.error (.invalid e), s)
    | .ok _ =>
        let s := releaseSlot s
        let s := { s with
          own := { path := call.path.take (MSG_BUFSIZE - 1)
                   speed := effective call.speed
                   loop := call.loop }
          counts := {}
          stop := false
          active := true }
        if call.created then
          (.ok (), { s with slot := some s.threads.length, threads := s.threads ++ [.created] })
        else (.error .noThread, { s with active := false })

/-- What `pcapReplayStop` does under the lock: it takes the handle, if there is one. -/
def pcapReplayStop (s : State) : State :=
  if ¬s.ready then s
  else { s with stop := true, slot := none, joining := s.joining ++ s.slot.toList }

/-- The end of the join.  Without a timeout the thread has to be finished. -/
def joined (s : State) (h : Nat) (timedOut : Bool) : State :=
  if h ∈ s.joining ∧ (timedOut ∨ s.threads[h]? = some .finished) then
    { s with joining := s.joining.erase h, closed := s.closed ++ [h] }
  else s

inductive Event where
  | init
  | start (call : StartCall)
  | stop
  | joined (h : Nat) (timedOut : Bool)
  | thread (k : Nat) (env : Env)

def step (s : State) : Event → State
  | .init => pcapReplayInit s
  | .start call => (pcapReplayStart s call).2
  | .stop => pcapReplayStop s
  | .joined h timedOut => joined s h timedOut
  | .thread k env => threadStep s k env

/-- Every step may come at any time. -/
def replay : Machine State Event := { step, admits := fun _ _ => True }

/-! ## What a step keeps -/

/-- There is such a thread and it is live. -/
def State.Live (s : State) (k : Nat) : Prop := ∃ pc, s.threads[k]? = some pc ∧ pc.live = true

/-- Every handle that was given out, where it is. -/
def State.handles (s : State) : List Nat := s.slot.toList ++ s.joining ++ s.closed

structure Inv (s : State) : Prop where
  one    : ∀ j k, s.Live j → s.Live k → j = k
  active : s.active = true ↔ ∃ k, s.Live k
  known  : ∀ h ∈ s.handles, h < s.threads.length
  once   : s.handles.Nodup

theorem inv_initial : Inv .initial where
  one := by rintro j k ⟨pc, here, -⟩; cases here
  active := by
    constructor
    · intro set
      cases set
    · rintro ⟨k, pc, here, -⟩
      cases here
  known := by rintro h (member : h ∈ []); cases member
  once := List.nodup_nil

/-- Up to its last step a thread writes nothing but the counters. -/
theorem replayThreadStep_frame (s : State) (env : Env) {pc : Pc} (goesOn : pc ≠ .clearing) :
    ∃ counts, (replayThreadStep s env pc).1 = { s with counts } := by
  cases pc with
  | opening own =>
      simp only [replayThreadStep]
      cases openAndValidate (env.file own.path) <;> exact ⟨s.counts, rfl⟩
  | reading pass =>
      simp only [replayThreadStep]
      split_ifs
      · exact ⟨s.counts, rfl⟩
      · cases readRecord pass.file.swapped pass.rest with
        | none => exact ⟨s.counts, rfl⟩
        | some record => exact ⟨{ s.counts with read := s.counts.read + 1 }, rfl⟩
  | pacing pass buf waitMs =>
      simp only [replayThreadStep]
      split_ifs
      · exact ⟨s.counts, rfl⟩
      · exact ⟨s.counts, rfl⟩
      · cases ipOffsetFor pass.file.linkType buf with
        | none => exact ⟨{ s.counts with failed := s.counts.failed + 1 }, rfl⟩
        | some off => exact ⟨s.counts, rfl⟩
  | injecting pass packet => exact ⟨_, rfl⟩
  | clearing => exact absurd rfl goesOn
  | created | allocated | passed | closing | finished => exact ⟨s.counts, rfl⟩

/-- Until then it is live. -/
theorem replayThreadStep_live (s : State) (env : Env) {pc : Pc} (goesOn : pc ≠ .clearing) :
    (replayThreadStep s env pc).2.live = pc.live := by
  cases pc with
  | opening own =>
      simp only [replayThreadStep]
      cases openAndValidate (env.file own.path) <;> rfl
  | reading pass =>
      simp only [replayThreadStep]
      split_ifs
      · rfl
      · cases readRecord pass.file.swapped pass.rest <;> rfl
  | pacing pass buf waitMs =>
      simp only [replayThreadStep]
      split_ifs
      · rfl
      · rfl
      · cases ipOffsetFor pass.file.linkType buf <;> rfl
  | created | passed =>
      simp only [replayThreadStep]
      split_ifs <;> rfl
  | clearing => exact absurd rfl goesOn
  | allocated | injecting | closing | finished => rfl

theorem mayInject_live {pc : Pc} (may : pc.mayInject = true) : pc.live = true := by
  cases pc with
  | finished => cases may
  | _ => rfl

/-! ### Steps of a thread -/

theorem threadStep_none {s : State} {k : Nat} (absent : s.threads[k]? = none) (env : Env) :
    threadStep s k env = s := by
  simp only [threadStep, absent]

/-- The other threads stay where they are. -/
theorem live_set {threads : List Pc} {pc : Pc} {k : Nat} (j : Nat) (here : k < threads.length) :
    (∃ pc', (threads.set k pc)[j]? = some pc' ∧ pc'.live = true) ↔
      if j = k then pc.live = true else ∃ pc', threads[j]? = some pc' ∧ pc'.live = true := by
  by_cases same : j = k
  · subst same
    simp [here]
  · simp [same, List.getElem?_set_ne (Ne.symm same)]

theorem inv_threadStep {s : State} (inv : Inv s) (k : Nat) (env : Env) :
    Inv (threadStep s k env) := by
  cases here : s.threads[k]? with
  | none => rwa [threadStep_none here]
  | some pc =>
      have inside : k < s.threads.length := (List.getElem?_eq_some_iff.1 here).1
      by_cases last : pc = .clearing
      · subst last
        have alone : ∀ j, s.Live j → j = k := fun j live => inv.one j k live ⟨_, here, rfl⟩
        have none_ : ∀ j, ¬(threadStep s k env).Live j := by
          intro j live
          simp only [threadStep, here, replayThreadStep, State.Live, live_set j inside] at live
          split_ifs at live with same
          · cases live
          · exact same (alone j live)
        exact {
          one := fun j _ live _ => absurd live (none_ j)
          active := by
            simp only [none_, exists_false, iff_false, Bool.not_eq_true]
            simp only [threadStep, here, replayThreadStep]
          known := by simpa [threadStep, here, replayThreadStep, State.handles] using inv.known
          once := by simpa [threadStep, here, replayThreadStep, State.handles] using inv.once }
      · obtain ⟨counts, frame⟩ := replayThreadStep_frame s env last
        have same : threadStep s k env =
            { s with counts, threads := s.threads.set k (replayThreadStep s env pc).2 } := by
          simp only [threadStep, here, frame]
        have live_iff : ∀ j, (threadStep s k env).Live j ↔ s.Live j := by
          intro j
          rw [same]
          simp only [State.Live, live_set j inside, replayThreadStep_live s env last]
          split_ifs with at_
          · simp [at_, here]
          · rfl
        exact {
          one := fun j i left right => inv.one j i ((live_iff j).1 left) ((live_iff i).1 right)
          active := by
            simp only [live_iff, ← inv.active]
            rw [same]
          known := by simpa [same, State.handles] using inv.known
          once := by simpa [same, State.handles] using inv.once }

/-! ### Calls -/

theorem perm_release (slot : Option Nat) (joining closed : List Nat) :
    (joining ++ (closed ++ slot.toList)).Perm (slot.toList ++ joining ++ closed) := by
  rw [← List.append_assoc, List.append_assoc slot.toList]
  exact List.perm_append_comm

theorem releaseSlot_handles (s : State) : (releaseSlot s).handles.Perm s.handles := by
  simpa [releaseSlot, State.handles] using perm_release s.slot s.joining s.closed

/-- A start ends before it has changed anything, or it finds no thread, and then it creates
one or fails to. -/
theorem pcapReplayStart_cases (s : State) (call : StartCall) :
    (∃ e, pcapReplayStart s call = (.error e, s)) ∨
      s.active = false ∧ ∃ own,
        pcapReplayStart s call = (.error .noThread,
          { releaseSlot s with own, counts := {}, stop := false }) ∨
        pcapReplayStart s call = (.ok (),
          { releaseSlot s with
            own, counts := {}, stop := false, active := true
            slot := some s.threads.length, threads := s.threads ++ [.created] }) := by
  by_cases noFile : call.path = []
  · exact .inl ⟨.noFile, by simp only [pcapReplayStart, if_pos noFile]⟩
  by_cases ready : s.ready = true
  swap
  · exact .inl ⟨.notInitialised, by simp only [pcapReplayStart, if_neg noFile, if_pos ready]⟩
  cases idle : s.active with
  | true => exact .inl ⟨.running, by simp [pcapReplayStart, noFile, ready, idle]⟩
  | false =>
      cases probe : openAndValidate call.probe with
      | error e =>
          exact .inl ⟨.invalid e, by simp [pcapReplayStart, noFile, ready, idle, probe]⟩
      | ok f =>
          refine .inr ⟨rfl, { path := call.path.take (MSG_BUFSIZE - 1)
                              speed := effective call.speed
                              loop := call.loop }, ?_⟩
          cases created : call.created with
          | true =>
              right
              simp [pcapReplayStart, noFile, ready, idle, probe, created, releaseSlot]
          | false =>
              left
              simp [pcapReplayStart, noFile, ready, idle, probe, created, releaseSlot]

theorem inv_start {s : State} (inv : Inv s) (call : StartCall) :
    Inv (pcapReplayStart s call).2 := by
  obtain ⟨e, same⟩ | ⟨idle, own, failed | made⟩ := pcapReplayStart_cases s call
  · rwa [same]
  · rw [failed]
    exact {
      one := inv.one
      active := inv.active
      known := fun h member => inv.known h ((releaseSlot_handles s).subset member)
      once := (releaseSlot_handles s).nodup_iff.2 inv.once }
  · have none_ : ∀ j, ¬s.Live j := by
      intro j live
      rw [inv.active.2 ⟨j, live⟩] at idle
      cases idle
    rw [made]
    set n := s.threads.length with size
    have live_iff : ∀ j,
        (∃ pc, (s.threads ++ [Pc.created])[j]? = some pc ∧ pc.live = true) ↔ j = n := by
      intro j
      constructor
      · rintro ⟨pc, here, live⟩
        rcases lt_trichotomy j n with before | same | behind
        · rw [List.getElem?_append_left before] at here
          exact absurd ⟨pc, here, live⟩ (none_ j)
        · exact same
        · rw [List.getElem?_eq_none (by simp; omega)] at here
          cases here
      · rintro rfl
        exact ⟨.created, by simp [size], rfl⟩
    have handles : (n :: (releaseSlot s).handles).Perm (n :: s.handles) :=
      (releaseSlot_handles s).cons n
    exact {
      one := fun j k left right => ((live_iff j).1 left).trans ((live_iff k).1 right).symm
      active := ⟨fun _ => ⟨n, (live_iff n).2 rfl⟩, fun _ => rfl⟩
      known := by
        intro h member
        simp only [List.length_append, List.length_singleton]
        rcases List.mem_cons.1 (handles.subset member) with rfl | old
        · omega
        · exact (inv.known h old).trans (Nat.lt_succ_self n)
      once := by
        refine handles.nodup_iff.2 (List.nodup_cons.2 ⟨fun member => ?_, inv.once⟩)
        exact lt_irrefl n (inv.known n member) }

theorem inv_stop {s : State} (inv : Inv s) : Inv (pcapReplayStop s) := by
  by_cases ready : s.ready = true
  · have same : pcapReplayStop s =
        { s with stop := true, slot := none, joining := s.joining ++ s.slot.toList } := by
      simp [pcapReplayStop, ready]
    have handles : (pcapReplayStop s).handles.Perm s.handles := by
      rw [same]
      have swapped : (s.joining ++ s.slot.toList).Perm (s.slot.toList ++ s.joining) :=
        List.perm_append_comm
      exact swapped.append_right s.closed
    rw [same] at handles ⊢
    exact {
      one := inv.one
      active := inv.active
      known := fun h member => inv.known h (handles.subset member)
      once := handles.nodup_iff.2 inv.once }
  · have same : pcapReplayStop s = s := by simp [pcapReplayStop, ready]
    rwa [same]

theorem inv_joined {s : State} (inv : Inv s) (h : Nat) (timedOut : Bool) :
    Inv (joined s h timedOut) := by
  rw [joined]
  split_ifs with ends
  · have handles :
        (s.slot.toList ++ s.joining.erase h ++ (s.closed ++ [h])).Perm s.handles := by
      have taken : (h :: s.joining.erase h).Perm s.joining := (List.perm_cons_erase ends.1).symm
      have swapped : (s.joining.erase h ++ (s.closed ++ [h])).Perm
          ([h] ++ (s.joining.erase h ++ s.closed)) := by
        rw [← List.append_assoc]
        exact List.perm_append_comm
      have moved : (s.joining.erase h ++ (s.closed ++ [h])).Perm (s.joining ++ s.closed) :=
        swapped.trans (taken.append_right s.closed)
      simpa only [State.handles, List.append_assoc] using moved.append_left s.slot.toList
    exact {
      one := inv.one
      active := inv.active
      known := fun k member => inv.known k (handles.subset member)
      once := handles.nodup_iff.2 inv.once }
  · exact inv

/-! ## Every interleaving -/

theorem inv_step (s : State) (e : Event) (inv : Inv s) : Inv (replay.step s e) := by
  cases e with
  | init => exact ⟨inv.one, inv.active, inv.known, inv.once⟩
  | start call => exact inv_start inv call
  | stop => exact inv_stop inv
  | joined h timedOut => exact inv_joined inv h timedOut
  | thread k env => exact inv_threadStep inv k env

theorem inv_run (es : List Event) : Inv (replay.run .initial es) :=
  replay.run_invariant' inv_step es .initial inv_initial

/-- A start that succeeds found no thread. -/
theorem start_alone {s : State} (inv : Inv s) {call : StartCall}
    (succeeds : (pcapReplayStart s call).1 = .ok ()) (j : Nat) : ¬s.Live j := by
  intro live
  have set := inv.active.2 ⟨j, live⟩
  obtain ⟨e, same⟩ | ⟨idle, _⟩ := pcapReplayStart_cases s call
  · rw [same] at succeeds
    cases succeeds
  · rw [idle] at set
    cases set

/-- **Exclusivity.**  However the calls and the threads take turns: one thread at most is
live, the one that closes the backend has no other beside it that may inject, a start
succeeds only where none is live, and no handle is closed twice. -/
theorem replay_exclusive (es : List Event) :
    (∀ j k, (replay.run .initial es).Live j → (replay.run .initial es).Live k → j = k) ∧
      (∀ (j k : Nat) (pc : Pc), (replay.run .initial es).threads[k]? = some .closing →
        (replay.run .initial es).threads[j]? = some pc → j ≠ k → pc.mayInject = false) ∧
      (∀ call, (pcapReplayStart (replay.run .initial es) call).1 = .ok () →
        ∀ j, ¬(replay.run .initial es).Live j) ∧
      (replay.run .initial es).closed.Nodup := by
  have inv := inv_run es
  refine ⟨inv.one, ?_, fun call succeeds => start_alone inv succeeds, ?_⟩
  · intro j k pc closes other apart
    by_contra may
    have live : (replay.run .initial es).Live j :=
      ⟨pc, other, mayInject_live (Bool.not_eq_false _ |>.mp may)⟩
    exact apart (inv.one j k live ⟨.closing, closes, rfl⟩)
  · exact (List.nodup_append.1 inv.once).2.1

/-- The file has no records, whatever its path. -/
def quiet : Env where
  memory := true
  file := fun _ => some (fileBytes
    { magic := PCAP_MAGIC, versionMajor := 2, versionMinor := 4, thisZone := 0, sigFigs := 0
      snapLen := 65535, network := LINKTYPE_RAW } [])
  tick := 0
  sent := true

def quietStart : StartCall :=
  { path := ['a'], speed := .finite 1, loop := false, probe := quiet.file ['a'], created := true }

/-- A stop whose join times out does not make room for the next start.  Only the thread
does, with its last step. -/
example :
    ([[], [.thread 0 quiet, .thread 0 quiet, .thread 0 quiet, .thread 0 quiet, .thread 0 quiet,
        .thread 0 quiet, .thread 0 quiet]].map fun steps =>
      ((pcapReplayStart (replay.run .initial
        ([.init, .start quietStart, .stop, .joined 0 true] ++ steps)) quietStart).1.toOption)) =
      [none, some ()] := by
  decide +kernel

end Clumsy.Pcap.ReplayThread
