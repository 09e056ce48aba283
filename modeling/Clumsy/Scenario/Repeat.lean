/-
# Scenario.Repeat -- scenario.cpp: the time between two applications of a step

A step that repeats waits for the tick `nextFireMs`, an instant of the 32-bit clock that is
compared by its size, and that stands for "not waiting" where it is zero.  The step keeps its
distance and comes in time just if that comparison tells at every tick what the milliseconds
themselves would (`repeats_iff`), as it does until the clock wraps (`tells_of_sameTurn`).
-/
import Clumsy.Scenario.Playback

namespace Clumsy.Scenario

open Clumsy.Theory

set_option autoImplicit false

/-- Before tick `k` the step at `ix` was last applied at tick `j`. -/
structure LastApplied (player : Player) (ticks : List Tick) (ix j k : Nat) : Prop where
  before  : j < k
  applied : ix ∈ (history player ticks).getD j []
  last    : ∀ i, j < i → i < k → ix ∉ (history player ticks).getD i []

/-- Before tick `k` the step may be applied again. -/
def Rearmed (player : Player) (ticks : List Tick) (ix : Nat) (step : ScenarioStep) (k : Nat) :
    Prop :=
  step.limit ≠ some ((firings player (ticks.take k)).count ix)

/-- The millisecond in which a step that was applied at this clock is due again. -/
def ScenarioStep.dueAfter (step : ScenarioStep) (clock : Nat) : Nat :=
  clock + 1000 * step.repeatSec.toNat

/-- What `repeat` promises. -/
structure Repeats (player : Player) (ticks : List Tick) (ix : Nat) (step : ScenarioStep) :
    Prop where
  /-- Two applications are as far apart as `repeat` says. -/
  apart : ∀ {j k tick tick'}, ticks[j]? = some tick → ticks[k]? = some tick' →
    LastApplied player ticks ix j k → ix ∈ (history player ticks).getD k [] →
    step.dueAfter tick.clock ≤ tick'.clock
  /-- And no farther than the ticks make them. -/
  prompt : ∀ {j k tick tick'}, ticks[j]? = some tick → ticks[k]? = some tick' →
    LastApplied player ticks ix j k → Rearmed player ticks ix step k →
    step.dueAfter tick.clock ≤ tick'.clock → ix ∈ (history player ticks).getD k []

/-- At tick `k` the 32-bit clock tells whether the millisecond `due` has come; where its low bits
are zero, the trigger of the step does. -/
def Tells (player : Player) (ticks : List Tick) (ix : Nat) (step : ScenarioStep) (due k : Nat)
    (tick : Tick) : Prop :=
  if due % 2 ^ 32 = 0 then Triggers player ticks ix step k ↔ due ≤ tick.clock
  else due % 2 ^ 32 ≤ tick.clock % 2 ^ 32 ↔ due ≤ tick.clock

/-- The clock tells it at every tick that finds the step waiting. -/
def InTime (player : Player) (ticks : List Tick) (ix : Nat) (step : ScenarioStep) : Prop :=
  ∀ ⦃j k tick tick'⦄, ticks[j]? = some tick → ticks[k]? = some tick' →
    LastApplied player ticks ix j k → Rearmed player ticks ix step k →
    Tells player ticks ix step (step.dueAfter tick.clock) k tick'

/-- The clock does not wrap between the two. -/
theorem tells_of_sameTurn {player : Player} {ticks : List Tick} {ix due k : Nat}
    {step : ScenarioStep} {tick : Tick} (armed : due % 2 ^ 32 ≠ 0)
    (sameTurn : due / 2 ^ 32 = tick.clock / 2 ^ 32) : Tells player ticks ix step due k tick := by
  rw [Tells, if_neg armed]
  omega

/-! ## The waiting step -/

theorem toNat_rearm (clock : Nat) {n : Int} (positive : 0 < n) :
    (UInt32.ofNat clock + UInt32.ofInt n * 1000).toNat = (clock + 1000 * n.toNat) % 2 ^ 32 := by
  have thousand : UInt32.toNat 1000 = 1000 := rfl
  rw [UInt32.toNat_add, UInt32.toNat_mul, UInt32.ofInt, UInt32.toNat_ofNat', UInt32.toNat_ofNat',
    thousand]
  omega

/-- A step that is retired but not done waits. -/
theorem retireStep_waits {now : UInt32} {step : ScenarioStep}
    (waits : (retireStep now (applyStep step)).done = false) :
    (retireStep now (applyStep step)).nextFireMs =
      now + UInt32.ofInt step.repeatSec * 1000 := by
  rw [retireStep] at waits ⊢
  split_ifs at waits ⊢
  · rfl

section Playback

variable {player : Player} {start : Nat} (started : player.Started start) {ticks : List Tick}
include started

/-- What a tick makes of the step at `ix`. -/
theorem step_succ {ix k : Nat} {tick : Tick} {now : ScenarioStep} (here : ticks[k]? = some tick)
    (there : (playback.run player (ticks.take k)).steps[ix]? = some now) :
    (playback.run player (ticks.take (k + 1))).steps[ix]? =
      some (if ix ∈ (history player ticks).getD k [] then retireStep tick.now (applyStep now)
        else now) := by
  have tracks := tracks_take started ticks k
  have applied : ix ∈ (history player ticks).getD k [] ↔
      ((playback.run player (ticks.take k)).refresh tick).fires tick ix now = true := by
    rw [mem_history, here]
    simp only [Option.some.injEq, exists_eq_left']
    exact mem_scenarioTick tracks there
  have next : ticks.take (k + 1) = ticks.take k ++ [tick] := by
    rw [List.take_add_one, here]
    rfl
  rw [next, playback.run_append, playback.run_cons, playback.run_nil]
  show ((playback.run player (ticks.take k)).scenarioTick tick).1.steps[ix]? = _
  by_cases idle : !(playback.run player (ticks.take k)).active ∨
      (playback.run player (ticks.take k)).steps = []
  · have none : ix ∉ (history player ticks).getD k [] := by
      rw [mem_history, here]
      simp only [Option.some.injEq, exists_eq_left']
      rw [Player.scenarioTick, if_pos idle]
      exact List.not_mem_nil
    rw [Player.scenarioTick, if_pos idle, if_neg none]
    exact there
  · rw [scenarioTick_running idle]
    show (Player.visitAll tick _ 0 _).1[ix]? = _
    rw [visitAll_getElem?, there, Nat.zero_add, Option.map_some, Player.visit]
    simp only [applied]

/-- Since its last application the step waits for the same tick of the clock. -/
theorem waiting {ix j k : Nat} {tick : Tick} {step : ScenarioStep}
    (found : player.steps[ix]? = some step) (here : ticks[j]? = some tick)
    (since : LastApplied player ticks ix j k) (within : k ≤ ticks.length) :
    ∃ now : ScenarioStep, (playback.run player (ticks.take k)).steps[ix]? = some now ∧
      now.rearm = step ∧ now.Counts ((firings player (ticks.take k)).count ix) ∧
      (now.done = false →
        now.nextFireMs = tick.now + UInt32.ofInt step.repeatSec * 1000) := by
  obtain ⟨before, applied, last⟩ := since
  induction k, before using Nat.le_induction with
  | base =>
      obtain ⟨now, there, same, -⟩ := step_take started ticks j found
      obtain ⟨now', there', same', counts⟩ := step_take started ticks (j + 1) found
      have next := step_succ started here there
      rw [if_pos applied, there', Option.some.injEq] at next
      refine ⟨now', there', same', counts, ?_⟩
      intro waits
      rw [next] at waits
      rw [next, retireStep_waits waits, ← same]
      rfl
  | succ k before ih =>
      obtain ⟨now, there, same, -, waits⟩ :=
        ih (Nat.le_of_succ_le within) fun i after below => last i after (Nat.lt_succ_of_lt below)
      obtain ⟨now', there', same', counts⟩ := step_take started ticks (k + 1) found
      have next := step_succ started (List.getElem?_eq_getElem within) there
      rw [if_neg (last k before (Nat.lt_succ_self k)), there', Option.some.injEq] at next
      refine ⟨now', there', same', counts, ?_⟩
      rw [next]
      exact waits

/-- The step that waits is applied when the 32-bit clock says so. -/
theorem applied_waiting_iff {ix j k : Nat} {tick tick' : Tick} {step : ScenarioStep}
    (found : player.steps[ix]? = some step) (positive : 0 < step.repeatSec)
    (here : ticks[j]? = some tick) (here' : ticks[k]? = some tick')
    (since : LastApplied player ticks ix j k) (rearmed : Rearmed player ticks ix step k) :
    ix ∈ (history player ticks).getD k [] ↔
      if step.dueAfter tick.clock % 2 ^ 32 = 0 then Triggers player ticks ix step k
      else step.dueAfter tick.clock % 2 ^ 32 ≤ tick'.clock % 2 ^ 32 := by
  have within : k ≤ ticks.length := Nat.le_of_lt (List.getElem?_eq_some_iff.1 here').1
  obtain ⟨now, there, same, counts, waits⟩ := waiting started found here since within
  have undone : now.done = false := by
    rw [← Bool.not_eq_true, counts.done, ← limit_rearm, same]
    exact rearmed
  have due : now.nextFireMs.toNat = step.dueAfter tick.clock % 2 ^ 32 := by
    rw [waits undone, Tick.now, toNat_rearm _ positive]
    rfl
  have unarmed : now.nextFireMs = 0 ↔ step.dueAfter tick.clock % 2 ^ 32 = 0 := by
    rw [← due, ← UInt32.toNat_inj]
    rfl
  rw [mem_history, here']
  simp only [Option.some.injEq, exists_eq_left']
  rw [mem_scenarioTick (tracks_take started ticks k) there, Player.fires, undone, Player.due]
  simp only [Bool.not_false, Bool.true_and, ne_eq, unarmed, ite_not]
  split_ifs with zero
  · rw [Triggers, here', ← same]
    simp only [Option.some.injEq, exists_eq_left', triggered_rearm]
  · rw [decide_eq_true_iff, ge_iff_le, UInt32.le_iff_toNat_le, due, Tick.now,
      UInt32.toNat_ofNat']

/-- What is applied was not done. -/
theorem rearmed_of_applied {ix k : Nat} {step : ScenarioStep}
    (found : player.steps[ix]? = some step) (applied : ix ∈ (history player ticks).getD k []) :
    Rearmed player ticks ix step k := by
  obtain ⟨tick, -, fires⟩ := mem_history.1 applied
  obtain ⟨now, there, same, counts⟩ := step_take started ticks k found
  rw [mem_scenarioTick (tracks_take started ticks k) there, Player.fires, Bool.and_eq_true,
    Bool.not_eq_true'] at fires
  intro reached
  rw [← same, limit_rearm] at reached
  exact absurd (counts.done.2 reached) (by rw [fires.1]; decide)

theorem repeats_of_started {ix : Nat} {step : ScenarioStep}
    (found : player.steps[ix]? = some step) (positive : 0 < step.repeatSec) :
    Repeats player ticks ix step ↔ InTime player ticks ix step := by
  constructor
  · rintro ⟨apart, prompt⟩ j k tick tick' here here' since rearmed
    have applied := applied_waiting_iff started found positive here here' since rearmed
    have wanted : ix ∈ (history player ticks).getD k [] ↔
        step.dueAfter tick.clock ≤ tick'.clock :=
      ⟨apart here here' since, prompt here here' since rearmed⟩
    rw [applied] at wanted
    rw [Tells]
    split_ifs at wanted ⊢
    · exact wanted
    · exact wanted
  · intro inTime
    have applied {j k : Nat} {tick tick' : Tick} (here : ticks[j]? = some tick)
        (here' : ticks[k]? = some tick') (since : LastApplied player ticks ix j k)
        (rearmed : Rearmed player ticks ix step k) :
        ix ∈ (history player ticks).getD k [] ↔ step.dueAfter tick.clock ≤ tick'.clock := by
      have tells := inTime here here' since rearmed
      rw [applied_waiting_iff started found positive here here' since rearmed]
      rw [Tells] at tells
      split_ifs at tells ⊢
      · exact tells
      · exact tells
    constructor
    · intro j k tick tick' here here' since again
      exact (applied here here' since (rearmed_of_applied started found again)).1 again
    · intro j k tick tick' here here' since rearmed
      exact (applied here here' since rearmed).2

end Playback

/-- **A step repeats as it should** just if the clock tells at every tick that finds it waiting
whether its time has come. -/
theorem repeats_iff {json : List Char} {ix : Nat} {step : ScenarioStep}
    (loaded : (scenarioLoadString json)[ix]? = some step) (positive : 0 < step.repeatSec)
    (player : Player) (before : List Event) (start : Nat) (captured : Int) (ticks : List Tick) :
    Repeats ((scenario.run { player with steps := scenarioLoadString json } before).scenarioStart
        start captured) ticks ix step ↔
      InTime ((scenario.run { player with steps := scenarioLoadString json } before).scenarioStart
        start captured) ticks ix step := by
  have present : scenarioLoadString json ≠ [] := by
    intro empty
    rw [empty] at loaded
    cases loaded
  refine repeats_of_started (started player before start captured present) ?_ positive
  rw [started_steps player before start captured present]
  exact loaded

/-! ## Every three seconds -/

def everyThree : List Char := "[\x7b\"at\": 0, \"repeat\": 3, \"lag\": true\x7d]".toList

def lagStep : ScenarioStep :=
  { ScenarioStep.blank with
    atSec := 0, repeatSec := 3, params := [("lag".toList, "true".toList)] }

theorem loaded_everyThree : (scenarioLoadString everyThree)[0]? = some lagStep := by
  decide +kernel

/-- A player that was started on it at this clock. -/
def threeFrom (clock : Nat) : Player :=
  (scenario.run { Player.initial with steps := scenarioLoadString everyThree } []).scenarioStart
    clock 0

def ticksAt (clocks : List Nat) : List Tick :=
  clocks.map fun clock =>
    { clock, captured := 0, counters := fun _ => ⟨0, 0, 0, 0, 0, fun _ => 0⟩ }

theorem repeats_everyThree : Repeats (threeFrom 1000) (ticksAt [1200, 4300]) 0 lagStep := by
  have inTime : InTime (threeFrom 1000) (ticksAt [1200, 4300]) 0 lagStep := by
    rintro j k tick tick' here here' ⟨before, -, -⟩ -
    have short : k < 2 := (List.getElem?_eq_some_iff.1 here').1
    obtain rfl : j = 0 := by omega
    obtain rfl : k = 1 := by omega
    cases here
    cases here'
    exact tells_of_sameTurn (by decide +kernel) (by decide +kernel)
  exact (repeats_iff loaded_everyThree (by decide) .initial [] 1000 0 (ticksAt [1200, 4300])).2
    inTime

/-- **Too soon**: shortly before the wrap the step is applied again at the next tick. -/
theorem repeats_too_soon :
    (scenarioLoadString everyThree)[0]? = some lagStep ∧ lagStep.repeatSec = 3 ∧
      ¬Repeats (threeFrom (2 ^ 32 - 1500)) (ticksAt [2 ^ 32 - 1400, 2 ^ 32 - 1200]) 0 lagStep := by
  refine ⟨loaded_everyThree, rfl, ?_⟩
  rintro ⟨apart, -⟩
  have applied : history (threeFrom (2 ^ 32 - 1500)) (ticksAt [2 ^ 32 - 1400, 2 ^ 32 - 1200]) =
      [[0], [0]] := by
    decide +kernel
  have since : LastApplied (threeFrom (2 ^ 32 - 1500))
      (ticksAt [2 ^ 32 - 1400, 2 ^ 32 - 1200]) 0 0 1 := by
    refine ⟨Nat.zero_lt_one, ?_, fun i after before => absurd after (by omega)⟩
    rw [applied]
    decide
  have again := apart rfl rfl since (by rw [applied]; decide)
  exact absurd again (by decide +kernel)

end Clumsy.Scenario
