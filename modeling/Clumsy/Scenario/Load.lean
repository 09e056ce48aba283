/-
# Scenario.Load -- scenario.cpp: the steps of a document

A walk over the text that counts braces and looks for quotes; it never parses JSON.  The
source moves a pointer, here every function returns what is left.  A step is kept only
with a usable trigger (`loaded_usable`), and `sortSteps` sorts by time and keeps the order
of the file (`loaded_sorted`, `loaded_stable`).
-/
import Clumsy.Text.Number
import Clumsy.Theory.Insertion

namespace Clumsy.Scenario

open Clumsy.Theory
open Clumsy.Text

set_option autoImplicit false

/-! ## Steps -/

def MAX_STEPS : Nat := 128
def MAX_PARAMS_PER_STEP : Nat := 32
def KEY_SIZE : Nat := 48
def VAL_SIZE : Nat := 64

inductive Trigger where
  | time
  | condition
  deriving DecidableEq, Repr

inductive Op where
  | ge
  | gt
  | le
  | lt
  | eq
  deriving DecidableEq, Repr

structure ScenarioStep where
  triggerType : Trigger
  atSec       : Int
  whenMetric  : List Char
  op          : Op
  value       : Fp
  repeatSec   : Int
  maxTimes    : Int
  params      : List (List Char × List Char)
  fireCount   : Nat
  nextFireMs  : UInt32
  done        : Bool
  deriving DecidableEq

/-- Where `parseObject` starts. -/
def ScenarioStep.blank : ScenarioStep :=
  { triggerType := .time, atSec := -1, whenMetric := [], op := .ge, value := .finite 0
    repeatSec := 0, maxTimes := 0, params := [], fireCount := 0, nextFireMs := 0, done := false }

def parseOp (s : List Char) : Op :=
  if s = ">".toList then .gt
  else if s = "<=".toList then .le
  else if s = "<".toList then .lt
  else if s = "==".toList ∨ s = "=".toList then .eq
  else .ge

/-! ## One object -/

/-- The white space of the document. -/
def isBlank (c : Char) : Bool := c == ' ' || c == '\t' || c == '\r' || c == '\n'

/-- What ends a value without quotes. -/
def endsValue (c : Char) : Bool := c == ',' || c == '}' || isBlank c

/-- The step so far, and which triggers were seen. -/
structure Reading where
  step    : ScenarioStep
  hasAt   : Bool
  hasWhen : Bool

/-- The members of an object that mean something to the step. -/
def Reading.member (key val : List Char) (r : Reading) : Reading :=
  if key = "at".toList then { r with step := { r.step with atSec := atoi val }, hasAt := true }
  else if key = "when".toList then
    { r with step := { r.step with whenMetric := val.take (KEY_SIZE - 1) }, hasWhen := true }
  else if key = "op".toList then { r with step := { r.step with op := parseOp val } }
  else if key = "value".toList then { r with step := { r.step with value := atof val } }
  else if key = "repeat".toList then { r with step := { r.step with repeatSec := atoi val } }
  else if key = "times".toList then { r with step := { r.step with maxTimes := atoi val } }
  else if r.step.params.length < MAX_PARAMS_PER_STEP then
    { r with step := { r.step with params := r.step.params ++ [(key, val)] } }
  else r

/-- The value at `p`, and what is left behind it. -/
def readValue (p : List Char) : List Char × List Char :=
  match p with
  | '"' :: p => ((p.takeWhile (· != '"')).take (VAL_SIZE - 1), (p.dropWhile (· != '"')).drop 1)
  | p => ((p.takeWhile (!endsValue ·)).take (VAL_SIZE - 1), p.dropWhile (!endsValue ·))

/-- The loop of `parseObject`.  Every round reads a character, so as many rounds as there
are characters are enough. -/
def readMembers : Nat → List Char → Reading → Reading
  | 0, _, r => r
  | fuel + 1, p, r =>
      match p.dropWhile fun c => isBlank c || c == ',' with
      | [] => r
      | '}' :: _ => r
      | '"' :: p =>
          match p.dropWhile (· != '"') with
          | [] => r
          | _ :: rest =>
              let key := p.takeWhile (· != '"')
              -- a key that does not fit is skipped, but not its value
              if key = [] ∨ key.length ≥ KEY_SIZE then readMembers fuel rest r
              else
                match rest.dropWhile fun c => isBlank c || c == ':' with
                | [] => r
                | p =>
                    let (val, rest) := readValue p
                    readMembers fuel rest (r.member key val)
      | _ :: p => readMembers fuel p r

/-- `parseObject`: the step if it has a usable trigger. -/
def parseObject (content : List Char) : Option ScenarioStep :=
  let r := readMembers content.length content
    { step := .blank, hasAt := false, hasWhen := false }
  if r.hasWhen then some { r.step with triggerType := .condition }
  else if r.hasAt ∧ r.step.atSec ≥ 0 then some { r.step with triggerType := .time }
  else none

/-! ## The document -/

/-- The characters up to the brace that closes `depth` open ones, that brace included, and
the rest. -/
def closeBrace : Int → List Char → List Char × List Char
  | _, [] => ([], [])
  | depth, c :: s =>
      let depth := if c = '{' then depth + 1 else if c = '}' then depth - 1 else depth
      if depth > 0 then
        let (inside, rest) := closeBrace depth s
        (c :: inside, rest)
      else ([c], s)

/-- The loop of `scenarioParse`, `free` steps from the end of the array. -/
def readObjects : Nat → Nat → List Char → List ScenarioStep
  | 0, _, _ => []
  | _, 0, _ => []
  | fuel + 1, free + 1, p =>
      match p.dropWhile fun c => c != '{' && c != ']' with
      | '{' :: p =>
          let (inside, rest) := closeBrace 1 p
          match parseObject inside.dropLast with
          | some step => step :: readObjects fuel free rest
          | none => readObjects fuel (free + 1) rest
      | _ => []

/-- A C string ends at the first zero. -/
def cString (s : List Char) : List Char := s.takeWhile (· != '\x00')

theorem cString_free (s : List Char) : '\x00' ∉ cString s := by
  intro member
  have := List.mem_takeWhile_imp member
  simp at this

theorem cString_of_free {s : List Char} (free : '\x00' ∉ s) : cString s = s := by
  refine List.takeWhile_eq_self_iff.2 fun c member => ?_
  simpa using fun same : c = '\x00' => free (same ▸ member)

/-- The steps of a document in the order of the file. -/
def parseSteps (json : List Char) : List ScenarioStep :=
  match (cString json).dropWhile (· != '[') with
  | [] => []
  | _ :: p => readObjects p.length MAX_STEPS p

/-! ## Sorting -/

/-- Condition steps sort to the end. -/
def ScenarioStep.key (step : ScenarioStep) : Int :=
  match step.triggerType with
  | .time => step.atSec
  | .condition => 0x7FFFFFFF

/-- One round of the insertion sort: steps with a larger key move up. -/
def insertStep (sorted : List ScenarioStep) (tmp : ScenarioStep) : List ScenarioStep :=
  insertBack ScenarioStep.key sorted tmp

def sortSteps (steps : List ScenarioStep) : List ScenarioStep := steps.foldl insertStep []

/-- `scenarioLoadString`. -/
def scenarioLoadString (json : List Char) : List ScenarioStep := sortSteps (parseSteps json)

theorem loaded_sorted (json : List Char) :
    (scenarioLoadString json).Pairwise fun a b => a.key ≤ b.key :=
  sortBack_ordered ScenarioStep.key (parseSteps json)

theorem loaded_stable (json : List Char) (key : Int) :
    (scenarioLoadString json).filter (fun step => step.key = key) =
      (parseSteps json).filter (fun step => step.key = key) :=
  filter_sortBack ScenarioStep.key (parseSteps json) key

theorem mem_loaded {json : List Char} {step : ScenarioStep} :
    step ∈ scenarioLoadString json ↔ step ∈ parseSteps json :=
  (sortBack_perm ScenarioStep.key (parseSteps json)).mem_iff

/-! ## What a loaded step is -/

/-- A step that has not run, and whose time is one that `int` and `unsigned` agree about. -/
structure ScenarioStep.Usable (step : ScenarioStep) : Prop where
  time       : step.triggerType = .time → 0 ≤ step.atSec
  bounded    : step.atSec < 2 ^ 31
  fireCount  : step.fireCount = 0
  nextFireMs : step.nextFireMs = 0
  done       : step.done = false

theorem atoi_lt (s : List Char) : atoi s < 2 ^ 31 := Int.bmod_lt (by decide)

/-- What every member keeps, the loop keeps. -/
theorem readMembers_invariant {Inv : Reading → Prop}
    (preserved : ∀ key val r, Inv r → Inv (r.member key val)) :
    ∀ (fuel : Nat) (p : List Char) (r : Reading), Inv r → Inv (readMembers fuel p r)
  | 0, _, _, inv => inv
  | fuel + 1, p, r, inv => by
      have ih := readMembers_invariant preserved fuel
      rw [readMembers]
      split
      · exact inv
      · exact inv
      · split
        · exact inv
        · dsimp only
          split
          · exact ih _ _ inv
          · split
            · exact inv
            · exact ih _ _ (preserved _ _ _ inv)
      · exact ih _ _ inv

/-- What `parseObject` keeps while it reads. -/
structure Reading.Fresh (r : Reading) : Prop where
  bounded    : r.step.atSec < 2 ^ 31
  fireCount  : r.step.fireCount = 0
  nextFireMs : r.step.nextFireMs = 0
  done       : r.step.done = false

theorem member_fresh (key val : List Char) (r : Reading) (fresh : r.Fresh) :
    (r.member key val).Fresh := by
  obtain ⟨bounded, fireCount, nextFireMs, done⟩ := fresh
  have atSec := atoi_lt val
  simp only [Reading.member]
  split_ifs <;> constructor <;> assumption

theorem parseObject_usable {content : List Char} {step : ScenarioStep}
    (parsed : parseObject content = some step) : step.Usable := by
  have fresh := readMembers_invariant member_fresh content.length content
    { step := .blank, hasAt := false, hasWhen := false }
    ⟨by decide, rfl, rfl, rfl⟩
  simp only [parseObject] at parsed
  split_ifs at parsed with condition time
  · cases parsed
    exact ⟨(fun isTime => by cases isTime), fresh.bounded, fresh.fireCount, fresh.nextFireMs,
      fresh.done⟩
  · cases parsed
    exact ⟨fun _ => time.2, fresh.bounded, fresh.fireCount, fresh.nextFireMs, fresh.done⟩

theorem readObjects_usable :
    ∀ (fuel free : Nat) (p : List Char), ∀ step ∈ readObjects fuel free p, step.Usable
  | 0, _, _, _, member => by simp [readObjects] at member
  | _ + 1, 0, _, _, member => by simp [readObjects] at member
  | fuel + 1, free + 1, p, step, member => by
      rw [readObjects] at member
      split at member
      · dsimp only at member
        split at member
        next found parsed =>
          rcases List.mem_cons.1 member with rfl | later
          · exact parseObject_usable parsed
          · exact readObjects_usable fuel free _ step later
        · exact readObjects_usable fuel (free + 1) _ step member
      · cases member

theorem loaded_usable {json : List Char} {step : ScenarioStep}
    (loaded : step ∈ scenarioLoadString json) : step.Usable := by
  have parsed := mem_loaded.1 loaded
  rw [parseSteps] at parsed
  split at parsed
  · cases parsed
  · exact readObjects_usable _ _ _ step parsed

end Clumsy.Scenario
