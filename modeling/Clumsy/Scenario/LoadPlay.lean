/-
# Scenario.LoadPlay -- scenario.cpp: loading a scenario while one plays

`scenarioLoadString` rewrites the steps and leaves the rest of the player alone.  A player
that is inactive stays so, and only `scenarioStart` gets it to play what was loaded
(`applied_begun`).  One that is active plays on with the new steps at the next tick
(`load_plays_on`).
-/
import Clumsy.Scenario.Playback

namespace Clumsy.Scenario

open Clumsy.Theory

set_option autoImplicit false

/-- What can be done to the player. -/
inductive Operation where
  | load (json : List Char)
  | event (event : Event)

/-- The steps of the document take the place of those before. -/
def Player.load (json : List Char) (player : Player) : Player :=
  { player with steps := scenarioLoadString json }

/-- A player that is loaded, started, stopped and ticked.  Nothing plays while a document with
steps is loaded. -/
def deck : Machine Player Operation where
  step player
    | .load json => player.load json
    | .event event => scenario.step player event
  admits player
    | .load json => player.active = false ∨ scenarioLoadString json = []
    | .event _ => True

/-- The document was loaded, and none after it. -/
inductive LoadedBy (json : List Char) : List Operation → Prop
  | load (before : List Operation) : LoadedBy json (before ++ [.load json])
  | event {before : List Operation} (event : Event) :
      LoadedBy json before → LoadedBy json (before ++ [.event event])

/-- The document was loaded, then started, and was left to its ticks since. -/
inductive BegunBy (json : List Char) : List Operation → Prop
  | start {before : List Operation} (clock : Nat) (captured : Int) :
      LoadedBy json before → BegunBy json (before ++ [.event (.start clock captured)])
  | tick {before : List Operation} (tick : Tick) :
      BegunBy json before → BegunBy json (before ++ [.event (.tick tick)])

/-! ## What an operation leaves of the steps -/

/-- The steps are those of the document, but for how often they were applied. -/
def Holding (json : List Char) (player : Player) : Prop :=
  player.steps.map ScenarioStep.rearm = scenarioLoadString json

theorem holding_load (json : List Char) (player : Player) : Holding json (player.load json) :=
  loaded_rearm json

theorem holding_scenario {json : List Char} {player : Player} (event : Event)
    (holding : Holding json player) : Holding json (scenario.step player event) :=
  (scenario_rearm player [event]).trans holding

theorem present_of_event {player : Player} (event : Event)
    (present : (scenario.step player event).steps ≠ []) : player.steps ≠ [] := by
  intro empty
  have kept := scenario_rearm player [event]
  rw [empty, List.map_nil, List.map_eq_nil_iff] at kept
  exact present kept

/-- A tick makes no player active. -/
theorem active_of_scenarioTick {tick : Tick} {player : Player}
    (active : (player.scenarioTick tick).1.active = true) : player.active = true := by
  by_cases idle : !player.active ∨ player.steps = []
  · rw [Player.scenarioTick, if_pos idle] at active
    exact active
  · rw [not_or, Bool.not_eq_true, Bool.not_eq_false'] at idle
    exact idle.1

/-- What applies a step is active and has steps. -/
theorem running_of_applied {tick : Tick} {player : Player} {ix : Nat}
    (applied : ix ∈ (player.scenarioTick tick).2) :
    player.active = true ∧ player.steps ≠ [] := by
  by_cases idle : !player.active ∨ player.steps = []
  · rw [Player.scenarioTick, if_pos idle] at applied
    cases applied
  · rw [not_or, Bool.not_eq_true, Bool.not_eq_false'] at idle
    exact idle

/-! ## Runs -/

/-- The steps that are there were brought in by the last load. -/
theorem loadedBy_of_steps (ops : List Operation)
    (present : (deck.run .initial ops).steps ≠ []) :
    ∃ json, LoadedBy json ops ∧ Holding json (deck.run .initial ops) := by
  induction ops using List.reverseRecOn with
  | nil => exact absurd rfl present
  | append_singleton ops op ih =>
      rw [deck.run_append] at present ⊢
      cases op with
      | load json => exact ⟨json, .load ops, holding_load json _⟩
      | event event =>
          obtain ⟨json, loaded, holding⟩ := ih (present_of_event event present)
          exact ⟨json, .event event loaded, holding_scenario event holding⟩

/-- **What plays was started after it was loaded**, if no load found the player active. -/
theorem begunBy_of_active {ops : List Operation} (admissible : deck.Admissible .initial ops)
    (active : (deck.run .initial ops).active = true)
    (present : (deck.run .initial ops).steps ≠ []) :
    ∃ json, BegunBy json ops ∧ Holding json (deck.run .initial ops) := by
  induction ops using List.reverseRecOn with
  | nil => exact absurd rfl present
  | append_singleton ops op ih =>
      obtain ⟨before, here, -⟩ := (deck.admissible_append _ _ _).1 admissible
      rw [deck.run_append] at active present ⊢
      cases op with
      | load json =>
          rcases here with inactive | empty
          · exact absurd (inactive.symm.trans active) (by decide)
          · exact absurd empty present
      | event event =>
          cases event with
          | start clock captured =>
              obtain ⟨json, loaded, holding⟩ :=
                loadedBy_of_steps ops (present_of_event (.start clock captured) present)
              exact ⟨json, .start clock captured loaded,
                holding_scenario (.start clock captured) holding⟩
          | stop => cases active
          | tick tick =>
              obtain ⟨json, begun, holding⟩ :=
                ih before (active_of_scenarioTick active) (present_of_event (.tick tick) present)
              exact ⟨json, .tick tick begun, holding_scenario (.tick tick) holding⟩

/-- **Loading does not play.**  In a run that loads no steps into an active player, a step is
applied only while a playback runs that began after the load which brought it in. -/
theorem applied_begun {ops : List Operation} (admissible : deck.Admissible .initial ops) :
    ∀ before tick, before ++ [.event (.tick tick)] <+: ops →
      ∀ ix ∈ ((deck.run .initial before).scenarioTick tick).2,
        ∃ json, BegunBy json before ∧ Holding json (deck.run .initial before) := by
  rintro before tick ⟨after, rfl⟩ ix applied
  rw [deck.admissible_append, deck.admissible_append] at admissible
  obtain ⟨active, present⟩ := running_of_applied applied
  exact begunBy_of_active admissible.1.1 active present

/-! ## Loading while playing -/

/-- A document with one step, of the second that the digit tells. -/
def oneStep (second : Char) : List Char :=
  "[\x7b\"at\": ".toList ++ second :: ", \"lag\": true\x7d]".toList

def quietTick (clock : Nat) : Tick :=
  { clock, captured := 0, counters := fun _ => ⟨0, 0, 0, 0, 0, fun _ => 0⟩ }

/-- Loaded, started and ticked, then the same with another document. -/
theorem applied_begun_twice :
    ∃ json, BegunBy json [.load (oneStep '9'), .event (.start 100 0), .event .stop,
        .load (oneStep '0'), .event (.start 300 0)] ∧
      Holding json (deck.run .initial [.load (oneStep '9'), .event (.start 100 0), .event .stop,
        .load (oneStep '0'), .event (.start 300 0)]) :=
  @applied_begun [.load (oneStep '9'), .event (.start 100 0), .event .stop,
    .load (oneStep '0'), .event (.start 300 0), .event (.tick (quietTick 500))]
    ⟨.inl rfl, trivial, trivial, .inl rfl, trivial, trivial, trivial⟩ _ (quietTick 500)
    (List.prefix_refl _) 0 (by decide +kernel)

/-- **Loading plays**: the new step is applied at the tick after the load. -/
theorem load_plays_on :
    0 ∈ ((deck.run .initial [.load (oneStep '9'), .event (.start 100 0),
        .load (oneStep '0')]).scenarioTick (quietTick 300)).2 ∧
      ¬∃ json, BegunBy json [.load (oneStep '9'), .event (.start 100 0), .load (oneStep '0')] := by
  refine ⟨by decide +kernel, ?_⟩
  rintro ⟨json, begun⟩
  generalize run : [Operation.load (oneStep '9'), .event (.start 100 0), .load (oneStep '0')] =
    ops at begun
  have last := congrArg List.getLast? run
  cases begun with
  | start clock captured loaded =>
      rw [List.getLast?_concat] at last
      cases last
  | tick tick begun =>
      rw [List.getLast?_concat] at last
      cases last

end Clumsy.Scenario
