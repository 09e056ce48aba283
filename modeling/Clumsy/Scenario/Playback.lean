/-
# Scenario.Playback -- scenario.cpp: a scenario over the ticks of a run

`scenarioTick` walks over the steps, applies what is due and retires it.  `history` is
what it applied tick by tick.  A step is first applied when its trigger first holds
(`first_applied_iff`), as often as it may be (`applied_le_limit`), and the scenario ends
when nothing may be applied any more (`inactive_iff_spent`); `playback_exact` puts this
together for a document.

A step's state says how often it was applied; `Tracks` is that invariant.
-/
import Clumsy.Modules.Params
import Clumsy.Scenario.Load
import Clumsy.Theory.Run

namespace Clumsy.Scenario

open Clumsy.Theory
open Clumsy.Modules

set_option autoImplicit false

/-! ## Metrics -/

/-- The counters a condition may look at. -/
structure Counters where
  statsCapturedTotal : Int
  statsSentTotal     : Int
  lagBufSize         : Int
  jitterBufSize      : Int
  bandwidthBufSize   : Int
  affectedCount      : ModuleId → Int

def toDouble (n : Int) : Fp := binary64.round n

def readMetric (counters : Counters) (lastPps : Fp) (name : List Char) (elapsedMs : UInt32) : Fp :=
  if name = "captured_count".toList then toDouble counters.statsCapturedTotal
  else if name = "sent_count".toList then toDouble counters.statsSentTotal
  else if name = "elapsed_sec".toList then binary64.round (elapsedMs.toNat / 1000)
  else if name = "pps".toList then lastPps
  else if name = "lag_buf".toList then toDouble counters.lagBufSize
  else if name = "jitter_buf".toList then toDouble counters.jitterBufSize
  else if name = "bandwidth_buf".toList then toDouble counters.bandwidthBufSize
  else if name.take 9 = "affected:".toList then
    match modules.find? fun m => m.shortName == name.drop 9 with
    | some m => toDouble (counters.affectedCount m)
    | none => .finite 0
  else .finite 0

def compareOp (lhs : Fp) (op : Op) (rhs : Fp) : Bool :=
  match op with
  | .gt => rhs.lt lhs
  | .le => lhs.le rhs
  | .lt => lhs.lt rhs
  | .eq => lhs.eq rhs
  | .ge => rhs.le lhs

/-! ## The player -/

structure Player where
  steps        : List ScenarioStep
  active       : Bool
  startMs      : UInt32
  prevCaptured : Int
  prevPpsMs    : UInt32
  lastPps      : Fp

def Player.initial : Player :=
  { steps := [], active := false, startMs := 0, prevCaptured := 0, prevPpsMs := 0
    lastPps := .finite 0 }

/-- What one tick finds: the clock in milliseconds, which `DWORD` cuts, and the counters
when the rate is refreshed and at every step's turn. -/
structure Tick where
  clock    : Nat
  captured : Int
  counters : Nat → Counters

def Tick.now (tick : Tick) : UInt32 := .ofNat tick.clock

/-- `scenarioStart` on one step. -/
def ScenarioStep.rearm (step : ScenarioStep) : ScenarioStep :=
  { step with fireCount := 0, done := false, nextFireMs := 0 }

def Player.scenarioStart (clock : Nat) (captured : Int) (player : Player) : Player :=
  if player.steps = [] then player
  else
    { steps := player.steps.map ScenarioStep.rearm
      active := true
      startMs := .ofNat clock
      prevCaptured := captured
      prevPpsMs := .ofNat clock
      lastPps := .finite 0 }

def Player.scenarioStop (player : Player) : Player := { player with active := false }

/-- The rate, roughly once a second. -/
def Player.refresh (tick : Tick) (player : Player) : Player :=
  if tick.now - player.prevPpsMs ≥ 1000 then
    { player with
      lastPps := binary64.lift (· / (tick.now - player.prevPpsMs).toNat)
        (binary64.lift (· * 1000) (toDouble (tick.captured - player.prevCaptured)))
      prevCaptured := tick.captured
      prevPpsMs := tick.now }
  else player

def Player.elapsed (tick : Tick) (player : Player) : UInt32 := tick.now - player.startMs

def Player.comparison (tick : Tick) (player : Player) (ix : Nat) (step : ScenarioStep) : Bool :=
  compareOp (readMetric (tick.counters ix) player.lastPps step.whenMetric (player.elapsed tick))
    step.op step.value

/-- The trigger of the step at `ix`. -/
def Player.triggered (tick : Tick) (player : Player) (ix : Nat) (step : ScenarioStep) : Bool :=
  match step.triggerType with
  | .time => UInt32.ofInt step.atSec ≤ player.elapsed tick / 1000
  | .condition => player.comparison tick ix step

/-- A repeating step waits until it is armed again. -/
def Player.due (tick : Tick) (player : Player) (ix : Nat) (step : ScenarioStep) : Bool :=
  if step.nextFireMs ≠ 0 then tick.now ≥ step.nextFireMs else player.triggered tick ix step

def applyStep (step : ScenarioStep) : ScenarioStep := { step with fireCount := step.fireCount + 1 }

def retireStep (now : UInt32) (step : ScenarioStep) : ScenarioStep :=
  if step.repeatSec > 0 ∧ (step.maxTimes ≤ 0 ∨ step.fireCount < step.maxTimes) then
    { step with nextFireMs := now + UInt32.ofInt step.repeatSec * 1000 }
  else { step with done := true }

/-- Whether the step at `ix` is applied at this tick. -/
def Player.fires (tick : Tick) (player : Player) (ix : Nat) (step : ScenarioStep) : Bool :=
  !step.done && player.due tick ix step

def Player.visit (tick : Tick) (player : Player) (ix : Nat) (step : ScenarioStep) : ScenarioStep :=
  if player.fires tick ix step then retireStep tick.now (applyStep step) else step

/-- The loop of `scenarioTick` from the step at `ix` on: the steps behind it, which of them
were applied, and how many remain. -/
def Player.visitAll (tick : Tick) (player : Player) :
    Nat → List ScenarioStep → List ScenarioStep × List Nat × Nat
  | _, [] => ([], [], 0)
  | ix, step :: steps =>
      let (steps, applied, remaining) := player.visitAll tick (ix + 1) steps
      let visited := player.visit tick ix step
      (visited :: steps, if player.fires tick ix step then ix :: applied else applied,
        if visited.done then remaining else remaining + 1)

def Player.scenarioTick (tick : Tick) (player : Player) : Player × List Nat :=
  if !player.active ∨ player.steps = [] then (player, [])
  else
    let player := player.refresh tick
    let (steps, applied, remaining) := player.visitAll tick 0 player.steps
    ({ player with steps, active := remaining ≠ 0 }, applied)

/-! ## Runs -/

inductive Event where
  | start (clock : Nat) (captured : Int)
  | stop
  | tick (tick : Tick)

/-- A loaded scenario, started, stopped and ticked. -/
def scenario : Machine Player Event where
  step player
    | .start clock captured => player.scenarioStart clock captured
    | .stop => player.scenarioStop
    | .tick tick => (player.scenarioTick tick).1
  admits _ _ := True

/-- Ticks alone. -/
def playback : Machine Player Tick where
  step player tick := (player.scenarioTick tick).1
  admits _ _ := True

/-- The steps applied at each tick. -/
def history (player : Player) (ticks : List Tick) : List (List Nat) :=
  playback.outputs (fun player tick => (player.scenarioTick tick).2) player ticks

/-- All of them, in their order. -/
def firings (player : Player) (ticks : List Tick) : List Nat := (history player ticks).flatten

/-! ## What playback promises -/

/-- How often a step may be applied; one that repeats without `times` has no limit. -/
def ScenarioStep.limit (step : ScenarioStep) : Option Nat :=
  if step.repeatSec ≤ 0 then some 1
  else if step.maxTimes ≤ 0 then none
  else some step.maxTimes.toNat

/-- Whole seconds since the start. -/
def Tick.seconds (start : Nat) (tick : Tick) : Nat := (tick.clock - start) / 1000

/-- At tick `k` the comparison of the step at `ix` holds. -/
def Holds (player : Player) (ticks : List Tick) (ix : Nat) (step : ScenarioStep) (k : Nat) : Prop :=
  ∃ tick, ticks[k]? = some tick ∧
    ((playback.run player (ticks.take k)).refresh tick).comparison tick ix step = true

/-- Time steps that do not repeat. -/
def Player.timed (player : Player) (ix : Nat) : Bool :=
  player.steps[ix]?.any fun step => decide (step.triggerType = .time ∧ step.repeatSec ≤ 0)

/-- The rules of playback, for a player that starts on the steps of a document. -/
structure Plays (document : List ScenarioStep) (start : Nat) (player : Player)
    (ticks : List Tick) : Prop where
  /-- The steps are those of the document by time, those of one time in its order. -/
  sorted : player.steps.Pairwise (fun a b => a.key ≤ b.key) ∧
    ∀ key, player.steps.filter (fun step => step.key = key) =
      document.filter (fun step => step.key = key)
  /-- A time step without `repeat` is applied at the first tick that reaches its second. -/
  once : ∀ {ix step k tick}, player.steps[ix]? = some step → ticks[k]? = some tick →
    step.triggerType = .time → step.repeatSec ≤ 0 →
    (ix ∈ (history player ticks).getD k [] ↔
      step.atSec ≤ tick.seconds start ∧
        ∀ earlier ∈ ticks.take k, (earlier.seconds start : Int) < step.atSec)
  /-- They are applied in the order of the steps. -/
  order : ((firings player ticks).filter player.timed).Pairwise (· < ·)
  /-- A condition step is first applied when its comparison first holds. -/
  first : ∀ {ix step}, player.steps[ix]? = some step → step.triggerType = .condition → ∀ k,
    (ix ∈ (history player ticks).getD k [] ∧ ∀ j < k, ix ∉ (history player ticks).getD j []) ↔
      (Holds player ticks ix step k ∧ ∀ j < k, ¬Holds player ticks ix step j)
  /-- No step is applied more often than it may be. -/
  limited : ∀ {ix step limit}, player.steps[ix]? = some step → step.limit = some limit →
    (firings player ticks).count ix ≤ limit
  /-- The scenario is inactive as soon as every step is spent. -/
  ends : ∀ k ≤ ticks.length, (playback.run player (ticks.take k)).active = false ↔
    ∀ {ix step}, player.steps[ix]? = some step →
      ∃ limit, step.limit = some limit ∧ limit ≤ (firings player (ticks.take k)).count ix

/-! ## One step -/

@[simp] theorem rearm_applyStep (step : ScenarioStep) : (applyStep step).rearm = step.rearm := rfl

@[simp] theorem rearm_retireStep (now : UInt32) (step : ScenarioStep) :
    (retireStep now step).rearm = step.rearm := by
  rw [retireStep]
  split_ifs <;> rfl

@[simp] theorem rearm_rearm (step : ScenarioStep) : step.rearm.rearm = step.rearm := rfl

@[simp] theorem rearm_visit (tick : Tick) (player : Player) (ix : Nat) (step : ScenarioStep) :
    (player.visit tick ix step).rearm = step.rearm := by
  rw [Player.visit]
  split_ifs <;> simp

theorem ScenarioStep.Usable.rearm {step : ScenarioStep} (usable : step.Usable) :
    step.rearm = step := by
  obtain ⟨-, -, fireCount, nextFireMs, done⟩ := usable
  rw [ScenarioStep.rearm, ← fireCount, ← nextFireMs, ← done]

@[simp] theorem limit_rearm (step : ScenarioStep) : step.rearm.limit = step.limit := rfl

/-- A step that was applied `count` times: it is done at its limit, never beyond, and it
is not waiting before it was applied. -/
structure ScenarioStep.Counts (step : ScenarioStep) (count : Nat) : Prop where
  fireCount : step.fireCount = count
  done      : step.done = true ↔ step.limit = some count
  limited   : ∀ limit, step.limit = some limit → count ≤ limit
  unarmed   : count = 0 → step.nextFireMs = 0

theorem rearm_counts (step : ScenarioStep) : step.rearm.Counts 0 where
  fireCount := rfl
  done := by
    rw [limit_rearm, ScenarioStep.limit]
    split_ifs with once forever
    · simp [ScenarioStep.rearm]
    · simp [ScenarioStep.rearm]
    · simp only [ScenarioStep.rearm, Bool.false_eq_true, Option.some.injEq, false_iff]
      omega
  limited _ _ := Nat.zero_le _
  unarmed _ := rfl

/-- **A step is retired exactly at its limit.** -/
theorem retireStep_counts {step : ScenarioStep} {count : Nat} (now : UInt32)
    (counts : step.Counts count) (undone : step.done = false) :
    (retireStep now (applyStep step)).Counts (count + 1) := by
  have notYet : step.limit ≠ some count := fun reached => by
    simpa [undone] using counts.done.2 reached
  have below : ∀ limit, step.limit = some limit → count + 1 ≤ limit := by
    intro limit limited
    have low := counts.limited limit limited
    have other : count ≠ limit := fun same => notYet (by rw [limited, same])
    omega
  have fireCount := counts.fireCount
  rw [retireStep]
  split_ifs with rearmed
  · refine ⟨by simp [applyStep, fireCount], ?_, below, fun impossible => by simp at impossible⟩
    show step.done = true ↔ step.limit = some (count + 1)
    simp only [applyStep, fireCount] at rearmed
    rw [undone, ScenarioStep.limit, if_neg (by omega)]
    split_ifs with forever
    · simp
    · simp only [Option.some.injEq, false_iff]
      omega
  · refine ⟨by simp [applyStep, fireCount], ?_, below, fun impossible => by simp at impossible⟩
    show true = true ↔ step.limit = some (count + 1)
    simp only [applyStep, fireCount] at rearmed
    simp only [true_iff]
    have low := below
    rw [ScenarioStep.limit] at low ⊢
    split_ifs at low ⊢ with once forever
    · have := low 1 rfl
      simp only [Option.some.injEq]
      omega
    · omega
    · have := low _ rfl
      simp only [Option.some.injEq]
      omega

theorem visit_counts {tick : Tick} {player : Player} {ix count : Nat} {step : ScenarioStep}
    (counts : step.Counts count) :
    (player.visit tick ix step).Counts
      (count + if player.fires tick ix step then 1 else 0) := by
  rw [Player.visit]
  by_cases fires : player.fires tick ix step
  · have undone : step.done = false := by
      rw [Player.fires, Bool.and_eq_true, Bool.not_eq_true'] at fires
      exact fires.1
    rw [if_pos fires, if_pos fires]
    exact retireStep_counts tick.now counts undone
  · rw [if_neg fires, if_neg fires]
    exact counts

/-- Before its first time a step waits for nothing but its trigger. -/
theorem fires_eq_triggered {tick : Tick} {player : Player} {ix : Nat} {step : ScenarioStep}
    (counts : step.Counts 0) : player.fires tick ix step = player.triggered tick ix step := by
  have undone : step.done = false := by
    rw [← Bool.not_eq_true, counts.done, ScenarioStep.limit]
    split_ifs with once forever
    · simp
    · simp
    · simp only [Option.some.injEq]
      omega
  rw [Player.fires, undone, Player.due, counts.unarmed rfl]
  simp

/-! ## One tick -/

section Visit

variable (tick : Tick) (player : Player)

theorem visitAll_getElem? (ix : Nat) (steps : List ScenarioStep) (i : Nat) :
    (player.visitAll tick ix steps).1[i]? = steps[i]?.map (player.visit tick (ix + i)) := by
  induction steps generalizing ix i with
  | nil => rfl
  | cons step steps ih =>
      cases i with
      | zero => rfl
      | succ i =>
          have later := ih (ix + 1) i
          rw [Nat.add_right_comm] at later
          exact later

theorem visitAll_rearm (ix : Nat) (steps : List ScenarioStep) :
    (player.visitAll tick ix steps).1.map ScenarioStep.rearm = steps.map ScenarioStep.rearm := by
  induction steps generalizing ix with
  | nil => rfl
  | cons step steps ih =>
      show (player.visit tick ix step).rearm :: _ = _
      rw [rearm_visit, ih]
      rfl

theorem mem_applied (ix : Nat) (steps : List ScenarioStep) (j : Nat) :
    j ∈ (player.visitAll tick ix steps).2.1 ↔
      ∃ i step, steps[i]? = some step ∧ j = ix + i ∧ player.fires tick j step = true := by
  induction steps generalizing ix with
  | nil => simp [Player.visitAll]
  | cons step steps ih =>
      have later : (∃ i found, steps[i]? = some found ∧ j = ix + 1 + i ∧
          player.fires tick j found = true) ↔
          ∃ i found, (step :: steps)[i + 1]? = some found ∧ j = ix + (i + 1) ∧
            player.fires tick j found = true := by
        simp only [List.getElem?_cons_succ]
        refine exists_congr fun i => exists_congr fun found => and_congr_right fun _ =>
          and_congr_left fun _ => ?_
        omega
      have here : (∃ i found, (step :: steps)[i]? = some found ∧ j = ix + i ∧
          player.fires tick j found = true) ↔
          (j = ix ∧ player.fires tick ix step = true) ∨
            ∃ i found, (step :: steps)[i + 1]? = some found ∧ j = ix + (i + 1) ∧
              player.fires tick j found = true := by
        rw [← Nat.or_exists_add_one]
        refine or_congr ?_ Iff.rfl
        constructor
        · rintro ⟨found, first, rfl, fires⟩
          cases first
          exact ⟨rfl, fires⟩
        · rintro ⟨rfl, fires⟩
          exact ⟨step, rfl, rfl, fires⟩
      rw [here, ← later, ← ih (ix + 1)]
      simp only [Player.visitAll]
      by_cases fires : player.fires tick ix step
      · rw [if_pos fires, List.mem_cons]
        simp only [fires, and_true]
      · rw [if_neg fires]
        simp only [fires, Bool.false_eq_true, and_false, false_or]

theorem applied_increasing (ix : Nat) (steps : List ScenarioStep) :
    (player.visitAll tick ix steps).2.1.Pairwise (· < ·) := by
  induction steps generalizing ix with
  | nil => exact .nil
  | cons step steps ih =>
      simp only [Player.visitAll]
      split_ifs
      · refine List.pairwise_cons.2 ⟨?_, ih (ix + 1)⟩
        intro j applied
        obtain ⟨i, -, -, rfl, -⟩ := (mem_applied tick player (ix + 1) steps j).1 applied
        omega
      · exact ih (ix + 1)

theorem remaining_eq_zero_iff (ix : Nat) (steps : List ScenarioStep) :
    (player.visitAll tick ix steps).2.2 = 0 ↔
      ∀ step ∈ (player.visitAll tick ix steps).1, step.done = true := by
  induction steps generalizing ix with
  | nil => simp [Player.visitAll]
  | cons step steps ih =>
      simp only [Player.visitAll]
      by_cases done : (player.visit tick ix step).done
      · rw [if_pos done, ih, List.forall_mem_cons]
        simp [done]
      · rw [if_neg done]
        simp [done]

end Visit

@[simp] theorem refresh_steps (tick : Tick) (player : Player) :
    (player.refresh tick).steps = player.steps := by
  rw [Player.refresh]
  split_ifs <;> rfl

@[simp] theorem refresh_startMs (tick : Tick) (player : Player) :
    (player.refresh tick).startMs = player.startMs := by
  rw [Player.refresh]
  split_ifs <;> rfl

/-- A player that has run on the steps `loaded` since `start` and applied `fired`. -/
structure Tracks (loaded : List ScenarioStep) (start : UInt32) (player : Player)
    (fired : List Nat) : Prop where
  steps   : player.steps.map ScenarioStep.rearm = loaded.map ScenarioStep.rearm
  startMs : player.startMs = start
  counts  : ∀ {ix : Nat} {step : ScenarioStep}, player.steps[ix]? = some step →
    step.Counts (fired.count ix)
  active  : player.active = false ↔ ∀ step ∈ player.steps, step.done = true

section Tick

variable {tick : Tick} {player : Player} {loaded : List ScenarioStep} {start : UInt32}
  {fired : List Nat}

theorem scenarioTick_running (running : ¬(!player.active ∨ player.steps = [])) :
    player.scenarioTick tick =
      ({ player.refresh tick with
          steps := ((player.refresh tick).visitAll tick 0 player.steps).1
          active := ((player.refresh tick).visitAll tick 0 player.steps).2.2 ≠ 0 },
        ((player.refresh tick).visitAll tick 0 player.steps).2.1) := by
  rw [Player.scenarioTick, if_neg running]
  simp only [refresh_steps]

theorem scenarioTick_increasing :
    (player.scenarioTick tick).2.Pairwise (· < ·) := by
  by_cases running : !player.active ∨ player.steps = []
  · rw [Player.scenarioTick, if_pos running]
    exact .nil
  · rw [scenarioTick_running running]
    exact applied_increasing tick _ 0 player.steps

theorem mem_scenarioTick (tracks : Tracks loaded start player fired) {ix : Nat}
    {step : ScenarioStep} (found : player.steps[ix]? = some step) :
    ix ∈ (player.scenarioTick tick).2 ↔ (player.refresh tick).fires tick ix step = true := by
  by_cases running : !player.active ∨ player.steps = []
  · rw [Player.scenarioTick, if_pos running]
    have member := List.mem_of_getElem? found
    have inactive : player.active = false := by
      rcases running with off | empty
      · simpa using off
      · rw [empty] at member
        cases member
    have done := tracks.active.1 inactive step member
    simp [Player.fires, done]
  · rw [scenarioTick_running running, mem_applied]
    constructor
    · rintro ⟨i, other, here, rfl, fires⟩
      rw [Nat.zero_add] at found
      rw [found] at here
      cases here
      exact fires
    · intro fires
      exact ⟨ix, step, found, (Nat.zero_add ix).symm, fires⟩

theorem count_scenarioTick (tracks : Tracks loaded start player fired) {ix : Nat}
    {step : ScenarioStep} (found : player.steps[ix]? = some step) :
    (player.scenarioTick tick).2.count ix =
      if (player.refresh tick).fires tick ix step then 1 else 0 := by
  have nodup : (player.scenarioTick tick).2.Nodup :=
    scenarioTick_increasing.imp fun less => Nat.ne_of_lt less
  rw [nodup.count]
  simp only [mem_scenarioTick tracks found]

/-- **What one tick keeps.** -/
theorem scenarioTick_tracks (tick : Tick) (tracks : Tracks loaded start player fired) :
    Tracks loaded start (player.scenarioTick tick).1 (fired ++ (player.scenarioTick tick).2) := by
  by_cases running : !player.active ∨ player.steps = []
  · rw [Player.scenarioTick, if_pos running, List.append_nil]
    exact tracks
  have shape : player.scenarioTick tick = _ := scenarioTick_running running
  refine ⟨?_, ?_, ?_, ?_⟩
  · rw [shape]
    exact (visitAll_rearm tick _ 0 player.steps).trans tracks.steps
  · rw [shape]
    exact (refresh_startMs tick player).trans tracks.startMs
  · intro ix visited found
    have before : ∃ step, player.steps[ix]? = some step ∧
        visited = (player.refresh tick).visit tick ix step := by
      rw [shape] at found
      rw [visitAll_getElem?, Nat.zero_add, Option.map_eq_some_iff] at found
      obtain ⟨step, old, rfl⟩ := found
      exact ⟨step, old, rfl⟩
    obtain ⟨step, old, rfl⟩ := before
    rw [List.count_append, count_scenarioTick tracks old]
    exact visit_counts (tracks.counts old)
  · rw [shape]
    have zero := remaining_eq_zero_iff tick (player.refresh tick) 0 player.steps
    simpa using zero

theorem run_tracks (ticks : List Tick) {player : Player} {fired : List Nat}
    (tracks : Tracks loaded start player fired) :
    Tracks loaded start (playback.run player ticks) (fired ++ firings player ticks) := by
  induction ticks generalizing player fired with
  | nil => simpa [firings, history, Machine.outputs] using tracks
  | cons tick ticks ih =>
      have later := ih (scenarioTick_tracks tick tracks)
      rw [List.append_assoc] at later
      exact later

end Tick

/-! ## Playback -/

theorem triggered_rearm (tick : Tick) (player : Player) (ix : Nat) (step : ScenarioStep) :
    player.triggered tick ix step.rearm = player.triggered tick ix step := rfl

/-- At tick `k` the trigger of the step at `ix` holds. -/
def Triggers (player : Player) (ticks : List Tick) (ix : Nat) (step : ScenarioStep) (k : Nat) :
    Prop :=
  ∃ tick, ticks[k]? = some tick ∧
    ((playback.run player (ticks.take k)).refresh tick).triggered tick ix step = true

theorem triggers_iff_holds {player : Player} {ticks : List Tick} {ix k : Nat} {step : ScenarioStep}
    (isCondition : step.triggerType = .condition) :
    Triggers player ticks ix step k ↔ Holds player ticks ix step k := by
  refine exists_congr fun tick => and_congr_right fun _ => ?_
  rw [Player.triggered, isCondition]

theorem mem_history {player : Player} {ticks : List Tick} {k ix : Nat} :
    ix ∈ (history player ticks).getD k [] ↔
      ∃ tick, ticks[k]? = some tick ∧
        ix ∈ ((playback.run player (ticks.take k)).scenarioTick tick).2 := by
  rw [history, List.getD_eq_getElem?_getD, Machine.outputs_getElem?]
  cases ticks[k]? <;> simp

theorem mem_flatten_take {α : Type*} {xss : List (List α)} {k : Nat} {x : α} :
    x ∈ (xss.take k).flatten ↔ ∃ j < k, x ∈ xss.getD j [] := by
  induction xss generalizing k with
  | nil => simp
  | cons xs xss ih =>
      cases k with
      | zero => simp
      | succ k =>
          rw [List.take_succ_cons, List.flatten_cons, List.mem_append, ih, Nat.exists_lt_succ_left]
          simp

theorem count_firings_take_eq_zero {player : Player} {ticks : List Tick} {k ix : Nat} :
    (firings player (ticks.take k)).count ix = 0 ↔
      ∀ j < k, ix ∉ (history player ticks).getD j [] := by
  rw [List.count_eq_zero, firings, history, Machine.outputs_take, mem_flatten_take]
  simp only [history, not_exists, not_and]

theorem elapsed_toNat {tick : Tick} {player : Player} {start : Nat}
    (startMs : player.startMs = .ofNat start) (after : start ≤ tick.clock)
    (within : tick.clock < start + 2 ^ 32) : (player.elapsed tick).toNat = tick.clock - start := by
  rw [Player.elapsed, startMs, Tick.now, UInt32.toNat_sub, UInt32.toNat_ofNat', UInt32.toNat_ofNat']
  omega

theorem ofInt_le_iff {n : Int} {m : UInt32} (low : 0 ≤ n) (high : n < 2 ^ 31) :
    UInt32.ofInt n ≤ m ↔ n ≤ m.toNat := by
  rw [UInt32.le_iff_toNat_le, UInt32.ofInt, UInt32.toNat_ofNat']
  omega

/-- The second of a time step, as `scenarioTick` compares it. -/
theorem triggered_time_iff {tick : Tick} {player : Player} {start ix : Nat} {step : ScenarioStep}
    (startMs : player.startMs = .ofNat start) (after : start ≤ tick.clock)
    (within : tick.clock < start + 2 ^ 32) (usable : step.Usable)
    (isTime : step.triggerType = .time) :
    (player.refresh tick).triggered tick ix step = true ↔ step.atSec ≤ tick.seconds start := by
  have elapsed := elapsed_toNat ((refresh_startMs tick player).trans startMs) after within
  rw [Player.triggered, isTime]
  show decide _ = true ↔ _
  rw [decide_eq_true_iff, ofInt_le_iff (usable.time isTime) usable.bounded, UInt32.toNat_div,
    elapsed]
  rfl

section Playback

variable {player : Player} {start : Nat}

/-- A player that was just started. -/
structure Player.Started (player : Player) (start : Nat) : Prop where
  steps   : ∀ step ∈ player.steps, step.Usable
  sorted  : player.steps.Pairwise fun a b => a.key ≤ b.key
  present : player.steps ≠ []
  active  : player.active = true
  startMs : player.startMs = .ofNat start

theorem Player.Started.tracks (started : player.Started start) :
    Tracks player.steps (.ofNat start) player [] where
  steps := rfl
  startMs := started.startMs
  counts := by
    intro ix step found
    have usable := started.steps step (List.mem_of_getElem? found)
    rw [List.count_nil, ← usable.rearm]
    exact rearm_counts step
  active := by
    simp only [started.active, Bool.true_eq_false, false_iff]
    intro done
    obtain ⟨step, member⟩ := List.exists_mem_of_ne_nil _ started.present
    have usable := started.steps step member
    simpa [usable.done] using done step member

variable (started : player.Started start)
include started

/-- Where the run stands before tick `k`. -/
theorem tracks_take (ticks : List Tick) (k : Nat) :
    Tracks player.steps (.ofNat start) (playback.run player (ticks.take k))
      (firings player (ticks.take k)) := by
  simpa using run_tracks (ticks.take k) started.tracks

/-- The step at `ix` after some ticks. -/
theorem step_take (ticks : List Tick) (k : Nat) {ix : Nat} {step : ScenarioStep}
    (found : player.steps[ix]? = some step) :
    ∃ now, (playback.run player (ticks.take k)).steps[ix]? = some now ∧
      now.rearm = step ∧ now.Counts ((firings player (ticks.take k)).count ix) := by
  have tracks := tracks_take started ticks k
  have usable := started.steps step (List.mem_of_getElem? found)
  have mapped : ((playback.run player (ticks.take k)).steps.map ScenarioStep.rearm)[ix]? =
      some step := by
    rw [tracks.steps, List.getElem?_map, found, Option.map_some, usable.rearm]
  rw [List.getElem?_map, Option.map_eq_some_iff] at mapped
  obtain ⟨now, here, same⟩ := mapped
  exact ⟨now, here, same, tracks.counts here⟩

/-- **Until a step is applied, it is applied as soon as its trigger holds.** -/
theorem applied_iff_triggers {ticks : List Tick} {ix : Nat} {step : ScenarioStep}
    (found : player.steps[ix]? = some step) (k : Nat)
    (before : ∀ j < k, ix ∉ (history player ticks).getD j []) :
    ix ∈ (history player ticks).getD k [] ↔ Triggers player ticks ix step k := by
  obtain ⟨now, here, same, counts⟩ := step_take started ticks k found
  rw [count_firings_take_eq_zero.2 before] at counts
  rw [mem_history, Triggers]
  refine exists_congr fun tick => and_congr_right fun _ => ?_
  rw [mem_scenarioTick (tracks_take started ticks k) here, fires_eq_triggered counts,
    ← triggered_rearm, same]

/-- A step is first applied when its trigger first holds. -/
theorem first_applied_iff {ticks : List Tick} {ix : Nat} {step : ScenarioStep}
    (found : player.steps[ix]? = some step) (k : Nat) :
    (ix ∈ (history player ticks).getD k [] ∧ ∀ j < k, ix ∉ (history player ticks).getD j []) ↔
      (Triggers player ticks ix step k ∧ ∀ j < k, ¬Triggers player ticks ix step j) :=
  first_iff_first (applied_iff_triggers started found) k

theorem applied_le_limit {ticks : List Tick} {ix limit : Nat} {step : ScenarioStep}
    (found : player.steps[ix]? = some step) (limited : step.limit = some limit) :
    (firings player ticks).count ix ≤ limit := by
  obtain ⟨now, -, same, counts⟩ := step_take started ticks ticks.length found
  rw [List.take_length] at counts
  exact counts.limited limit (by rw [← limit_rearm, same, limited])

theorem inactive_iff_spent (ticks : List Tick) (k : Nat) :
    (playback.run player (ticks.take k)).active = false ↔
      ∀ {ix step}, player.steps[ix]? = some step →
        ∃ limit, step.limit = some limit ∧ limit ≤ (firings player (ticks.take k)).count ix := by
  have tracks := tracks_take started ticks k
  rw [tracks.active]
  constructor
  · intro done ix step found
    obtain ⟨now, here, same, counts⟩ := step_take started ticks k found
    have reached := counts.done.1 (done now (List.mem_of_getElem? here))
    exact ⟨_, by rw [← same, limit_rearm, reached], le_rfl⟩
  · intro spent now member
    obtain ⟨ix, here⟩ := List.getElem?_of_mem member
    have counts := tracks.counts here
    have mapped : (player.steps.map ScenarioStep.rearm)[ix]? = some now.rearm := by
      rw [← tracks.steps, List.getElem?_map, here, Option.map_some]
    rw [List.getElem?_map, Option.map_eq_some_iff] at mapped
    obtain ⟨step, found, same⟩ := mapped
    obtain ⟨limit, limited, reached⟩ := spent found
    rw [← limit_rearm, same, limit_rearm] at limited
    have top := counts.limited limit limited
    exact counts.done.2 (by rw [limited, le_antisymm top reached])

variable {ticks : List Tick}

/-- A time step without `repeat` is applied at the first tick that reaches its second. -/
theorem once_applied_iff
    (within : ∀ tick ∈ ticks, start ≤ tick.clock ∧ tick.clock < start + 2 ^ 32) {ix k : Nat}
    {step : ScenarioStep} {tick : Tick} (found : player.steps[ix]? = some step)
    (here : ticks[k]? = some tick) (isTime : step.triggerType = .time)
    (single : step.repeatSec ≤ 0) :
    ix ∈ (history player ticks).getD k [] ↔
      step.atSec ≤ tick.seconds start ∧
        ∀ earlier ∈ ticks.take k, (earlier.seconds start : Int) < step.atSec := by
  have usable := started.steps step (List.mem_of_getElem? found)
  have trigger : ∀ {j : Nat} {tick : Tick}, ticks[j]? = some tick →
      (Triggers player ticks ix step j ↔ step.atSec ≤ tick.seconds start) := by
    intro j tick here
    have bounds := within tick (List.mem_of_getElem? here)
    rw [Triggers, here]
    simp only [Option.some.injEq, exists_eq_left']
    exact triggered_time_iff (tracks_take started ticks j).startMs bounds.1 bounds.2 usable isTime
  have first : ix ∈ (history player ticks).getD k [] →
      ∀ j < k, ix ∉ (history player ticks).getD j [] := by
    intro applied
    obtain ⟨now, there, same, counts⟩ := step_take started ticks k found
    obtain ⟨tick, -, fires⟩ := mem_history.1 applied
    rw [mem_scenarioTick (tracks_take started ticks k) there, Player.fires, Bool.and_eq_true,
      Bool.not_eq_true'] at fires
    have limit : now.limit = some 1 := by
      rw [← limit_rearm, same, ScenarioStep.limit, if_pos single]
    have notYet : now.limit ≠ some ((firings player (ticks.take k)).count ix) := fun reached => by
      simpa [fires.1] using counts.done.2 reached
    have top := counts.limited 1 limit
    rw [← count_firings_take_eq_zero]
    rw [limit, ne_eq, Option.some.injEq] at notYet
    omega
  have earlier : (∀ j < k, ¬Triggers player ticks ix step j) ↔
      ∀ earlier ∈ ticks.take k, (earlier.seconds start : Int) < step.atSec := by
    have short : k < ticks.length := (List.getElem?_eq_some_iff.1 here).1
    constructor
    · intro none earlier member
      obtain ⟨j, there⟩ := List.getElem?_of_mem member
      rw [List.getElem?_take] at there
      split_ifs at there with below
      exact not_le.1 fun reached => none j below ((trigger there).2 reached)
    · intro low j below triggers
      have there := List.getElem?_eq_getElem (below.trans short)
      have member : ticks[j] ∈ ticks.take k := List.mem_of_getElem? (by
        rw [List.getElem?_take, if_pos below]
        exact there)
      exact absurd ((trigger there).1 triggers) (not_le.2 (low _ member))
  rw [← trigger here, ← earlier, ← first_applied_iff started found k]
  exact ⟨fun applied => ⟨applied, first applied⟩, And.left⟩

/-- Time steps without `repeat` are applied in their order. -/
theorem timed_in_order
    (within : ∀ tick ∈ ticks, start ≤ tick.clock ∧ tick.clock < start + 2 ^ 32) :
    ((firings player ticks).filter player.timed).Pairwise (· < ·) := by
  rw [firings, List.filter_flatten, List.pairwise_flatten]
  constructor
  · intro applied member
    obtain ⟨all, inHistory, rfl⟩ := List.mem_map.1 member
    obtain ⟨k, here⟩ := List.getElem?_of_mem inHistory
    rw [history, Machine.outputs_getElem?, Option.map_eq_some_iff] at here
    obtain ⟨tick, -, rfl⟩ := here
    exact scenarioTick_increasing.filter _
  · rw [List.pairwise_map, List.pairwise_iff_getElem]
    intro a b shortA shortB less i inA j inB
    rw [List.mem_filter] at inA inB
    obtain ⟨first, foundI, timedI⟩ := (Option.any_eq_true _ _).1 inA.2
    obtain ⟨second, foundJ, timedJ⟩ := (Option.any_eq_true _ _).1 inB.2
    rw [decide_eq_true_iff] at timedI timedJ
    -- the tick of `i` comes before that of `j`, so it has not reached the second of `j`
    have ticked : ∀ {k : Nat}, k < (history player ticks).length →
        ∃ tick, ticks[k]? = some tick := by
      intro k short
      rw [history, Machine.outputs_length] at short
      exact ⟨_, List.getElem?_eq_getElem short⟩
    obtain ⟨tickA, hereA⟩ := ticked shortA
    obtain ⟨tickB, hereB⟩ := ticked shortB
    have appliedI : i ∈ (history player ticks).getD a [] := by
      rw [List.getD_eq_getElem _ _ shortA]
      exact inA.1
    have appliedJ : j ∈ (history player ticks).getD b [] := by
      rw [List.getD_eq_getElem _ _ shortB]
      exact inB.1
    have reached := ((once_applied_iff started within foundI hereA timedI.1 timedI.2).1 appliedI).1
    have member : tickA ∈ ticks.take b := List.mem_of_getElem? (by
      rw [List.getElem?_take, if_pos less]
      exact hereA)
    have missed := ((once_applied_iff started within foundJ hereB timedJ.1 timedJ.2).1 appliedJ).2
      tickA member
    have keys : first.key < second.key := by
      rw [ScenarioStep.key, ScenarioStep.key, timedI.1, timedJ.1]
      exact reached.trans_lt missed
    by_contra notBefore
    have sorted := started.sorted
    rcases (not_lt.1 notBefore).lt_or_eq with back | same
    · rw [List.pairwise_iff_getElem] at sorted
      obtain ⟨shortI, rfl⟩ := List.getElem?_eq_some_iff.1 foundI
      obtain ⟨shortJ, rfl⟩ := List.getElem?_eq_some_iff.1 foundJ
      exact absurd keys (not_lt.2 (sorted j i shortJ shortI back))
    · rw [same, foundI, Option.some.injEq] at foundJ
      rw [foundJ] at keys
      exact lt_irrefl _ keys

end Playback

/-! ## A document -/

theorem scenario_rearm (player : Player) (events : List Event) :
    (scenario.run player events).steps.map ScenarioStep.rearm =
      player.steps.map ScenarioStep.rearm := by
  refine scenario.run_relation (R := fun before after =>
    after.steps.map ScenarioStep.rearm = before.steps.map ScenarioStep.rearm) (fun _ => rfl)
    (fun first second => second.trans first) ?_ events player
  rintro player (⟨clock, captured⟩ | _ | tick)
  · show (player.scenarioStart clock captured).steps.map _ = _
    rw [Player.scenarioStart]
    split_ifs
    · rfl
    · simp
  · rfl
  · show (player.scenarioTick tick).1.steps.map _ = _
    by_cases running : !player.active ∨ player.steps = []
    · rw [Player.scenarioTick, if_pos running]
    · rw [scenarioTick_running running]
      exact visitAll_rearm tick _ 0 player.steps

theorem loaded_rearm (json : List Char) :
    (scenarioLoadString json).map ScenarioStep.rearm = scenarioLoadString json := by
  conv_rhs => rw [← List.map_id (scenarioLoadString json)]
  exact List.map_congr_left fun step loaded => (loaded_usable loaded).rearm

variable {json : List Char}

/-- Whatever was done since a document was loaded, it starts on its steps. -/
theorem started_steps (player : Player) (before : List Event) (start : Nat) (captured : Int)
    (loaded : scenarioLoadString json ≠ []) :
    ((scenario.run { player with steps := scenarioLoadString json } before).scenarioStart start
      captured).steps = scenarioLoadString json := by
  have same := scenario_rearm { player with steps := scenarioLoadString json } before
  rw [loaded_rearm] at same
  rw [Player.scenarioStart]
  split_ifs with empty
  · rw [empty, List.map_nil] at same
    exact absurd same.symm loaded
  · exact same

theorem started (player : Player) (before : List Event) (start : Nat) (captured : Int)
    (loaded : scenarioLoadString json ≠ []) :
    ((scenario.run { player with steps := scenarioLoadString json } before).scenarioStart start
      captured).Started start := by
  have steps := started_steps player before start captured loaded
  have present :
      (scenario.run { player with steps := scenarioLoadString json } before).steps ≠ [] := by
    intro empty
    rw [Player.scenarioStart, if_pos empty, empty] at steps
    exact loaded steps.symm
  refine ⟨?_, ?_, ?_, ?_, ?_⟩
  · intro step member
    rw [steps] at member
    exact loaded_usable member
  · rw [steps]
    exact loaded_sorted json
  · rw [steps]
    exact loaded
  · rw [Player.scenarioStart, if_neg present]
  · rw [Player.scenarioStart, if_neg present]

/-- **Playback.**  A loaded scenario that is started, whatever ran before, keeps the rules
over every sequence of ticks in which the milliseconds since its start do not wrap. -/
theorem playback_exact (json : List Char) (player : Player) (before : List Event) (start : Nat)
    (captured : Int) (ticks : List Tick) (loaded : scenarioLoadString json ≠ [])
    (within : ∀ tick ∈ ticks, start ≤ tick.clock ∧ tick.clock < start + 2 ^ 32) :
    Plays (parseSteps json) start
      ((scenario.run { player with steps := scenarioLoadString json } before).scenarioStart start
        captured) ticks := by
  have ready := started player before start captured loaded
  have steps := started_steps player before start captured loaded
  refine ⟨⟨ready.sorted, ?_⟩, ?_, timed_in_order ready within, ?_, ?_, ?_⟩
  · intro key
    rw [steps]
    exact loaded_stable json key
  · intro ix step k tick found here isTime single
    exact once_applied_iff ready within found here isTime single
  · intro ix step found isCondition k
    simp only [first_applied_iff ready found k, triggers_iff_holds isCondition]
  · intro ix step limit found limited
    exact applied_le_limit ready found limited
  · intro k _
    exact inactive_iff_spent ready ticks k

/-- A step that is applied in two seconds, and one that waits for packets. -/
def twoSteps : List Char :=
  ("[\x7b\"at\": 1, \"repeat\": 1, \"times\": 2, \"lag\": true\x7d, " ++
    "\x7b\"when\": \"captured_count\", \"op\": \">\", \"value\": 10, \"drop\": true\x7d]").toList

/-- A tick with so many packets captured. -/
def tickOf (clock : Nat) (captured : Int) : Tick :=
  { clock, captured, counters := fun _ => ⟨captured, 0, 0, 0, 0, fun _ => 0⟩ }

/-- The clock wraps between the first two ticks. -/
def twoStepTicks : List Tick :=
  [tickOf (2 ^ 32 - 300) 5, tickOf (2 ^ 32 + 600) 5, tickOf (2 ^ 32 + 1700) 20,
    tickOf (2 ^ 32 + 2800) 30]

theorem playback_exact_twoSteps :
    firings ((scenario.run { Player.initial with steps := scenarioLoadString twoSteps }
        [.start 7 0, .stop]).scenarioStart (2 ^ 32 - 500) 0) twoStepTicks = [0, 0, 1] ∧
      Plays (parseSteps twoSteps) (2 ^ 32 - 500)
        ((scenario.run { Player.initial with steps := scenarioLoadString twoSteps }
          [.start 7 0, .stop]).scenarioStart (2 ^ 32 - 500) 0) twoStepTicks :=
  ⟨by decide +kernel, playback_exact _ _ _ _ _ _ (by decide +kernel) (by decide)⟩

end Clumsy.Scenario
