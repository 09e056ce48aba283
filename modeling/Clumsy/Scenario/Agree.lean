/-
# Scenario.Agree -- the steps of a JSON document

What a document says (`documentSteps`), and when the parser that never parses JSON finds the
same (`steps_as_parsed`).  It counts the braces of strings, takes escapes as they are written,
reads numbers with `atoi` and the last of several members of one name; `InStep` says that none
of this matters to an object.
-/
import Clumsy.Scenario.Walk

namespace Clumsy.Scenario

open Clumsy.Theory
open Clumsy.Theory.Json (Tree Derives White Text quoted field derives_field item_of_value)
open Clumsy.Text

set_option autoImplicit false

/-! ## What a document says -/

/-- What a string stands for, and the other scalars as they are written. -/
def scalarText : Tree → List Char
  | .string body => unescape body
  | v => written v

/-- A value as the steps have it. -/
def value (v : Tree) : List Char := (scalarText v).take (VAL_SIZE - 1)

/-- The number a trigger field has. -/
def number (v : Tree) : Fp := (meaning v).asNumber

/-- A number of seconds or times; fractions do not count. -/
def wholeNumber : Fp → Int
  | .finite q => ⌊q⌋
  | .infinite negative => if negative then -1 else 2 ^ 31
  | .nan => -1

def triggerKeys : List (List Char) :=
  ["at".toList, "when".toList, "op".toList, "value".toList, "repeat".toList, "times".toList]

def isParam (m : Member) : Bool := decide (m.1.length < KEY_SIZE) && !triggerKeys.contains m.1

/-- The members under the names they stand for. -/
def decoded (ms : List Member) : List Member := ms.map fun m => (unescape m.1, m.2)

/-- The trigger fields of the members, and the first of their parameters. -/
def stepOf (ms : List Member) : ScenarioStep :=
  { ScenarioStep.blank with
    atSec := ((ms.lookup "at".toList).map fun v => wholeNumber (number v)).getD (-1)
    whenMetric := ((ms.lookup "when".toList).map value).getD []
    op := ((ms.lookup "op".toList).map fun v => parseOp (value v)).getD .ge
    value := ((ms.lookup "value".toList).map number).getD (.finite 0)
    repeatSec := ((ms.lookup "repeat".toList).map fun v => wholeNumber (number v)).getD 0
    maxTimes := ((ms.lookup "times".toList).map fun v => wholeNumber (number v)).getD 0
    params := ((ms.filter isParam).map fun m => (m.1, value m.2)).take MAX_PARAMS_PER_STEP }

/-- The step of the members if they have a usable trigger. -/
def usableStep (ms : List Member) : Option ScenarioStep :=
  if (ms.lookup "when".toList).isSome then some { stepOf ms with triggerType := .condition }
  else if (ms.lookup "at".toList).isSome ∧ 0 ≤ (stepOf ms).atSec then
    some { stepOf ms with triggerType := .time }
  else none

/-- The steps of an array of objects. -/
def documentSteps (objs : List (List Member)) : List ScenarioStep :=
  objs.filterMap fun ms => usableStep (decoded ms)

/-! ## The fields of a step -/

attribute [ext] ScenarioStep

/-- Whatever a member of that name is read as is what the first one means. -/
def Agrees {β : Type} (ms : List Member) (key : List Char) (read : List Char → β)
    (meant : Tree → β) : Prop :=
  ∀ v ∈ ms.lookup key, ∀ v', (key, v') ∈ ms → read (kept v') = meant v

section Field

variable {β : Type}

theorem foldl_keeps (get : Reading → β)
    (keeps : ∀ key val (r : Reading), get (r.member key val) = get r) (ms : List Member)
    (r : Reading) : get (ms.foldl Reading.read r) = get r := by
  induction ms generalizing r with
  | nil => rfl
  | cons m ms ih =>
      rw [List.foldl_cons, ih, Reading.read]
      split
      · rfl
      · exact keeps m.1 (kept m.2) r

/-- A field that the members of one name set, and no others. -/
structure IsField (get : Reading → β) (key : List Char) (read : List Char → β) : Prop where
  short : key.length < KEY_SIZE
  sets  : ∀ (val : List Char) (r : Reading), get (r.member key val) = read val
  keeps : ∀ (other val : List Char) (r : Reading), other ≠ key →
    get (r.member other val) = get r

variable {get : Reading → β} {key : List Char} {read : List Char → β}

theorem IsField.same (field : IsField get key read) (v : Tree) (r : Reading) :
    get (r.read (key, v)) = read (kept v) := by
  rw [Reading.read, if_neg (Nat.not_le.2 field.short), field.sets]

theorem IsField.other (field : IsField get key read) {m : Member} (other : m.1 ≠ key)
    (r : Reading) : get (r.read m) = get r := by
  rw [Reading.read]
  split
  · rfl
  · exact field.keeps m.1 (kept m.2) r other

/-- A field that has the value of all members to come has it at the end. -/
theorem IsField.constant (field : IsField get key read) {c : β} {ms : List Member}
    (all : ∀ v, (key, v) ∈ ms → read (kept v) = c) {r : Reading} (now : get r = c) :
    get (ms.foldl Reading.read r) = c := by
  induction ms generalizing r with
  | nil => exact now
  | cons m ms ih =>
      refine ih (fun v member => all v (List.mem_cons_of_mem m member)) ?_
      by_cases same : m.1 = key
      · obtain ⟨k, v⟩ := m
        obtain rfl : k = key := same
        rw [field.same]
        exact all v List.mem_cons_self
      · rw [field.other same, now]

/-- **A field of the step is what the first member of its name means.** -/
theorem IsField.first (field : IsField get key read) {meant : Tree → β} {ms : List Member}
    (agrees : Agrees ms key read meant) (r : Reading) :
    get (ms.foldl Reading.read r) = ((ms.lookup key).map meant).getD (get r) := by
  induction ms generalizing r with
  | nil => rfl
  | cons m ms ih =>
      obtain ⟨k, v⟩ := m
      rw [List.foldl_cons]
      by_cases same : k = key
      · subst same
        have first : ((k, v) :: ms).lookup k = some v := by simp
        have all : ∀ v', (k, v') ∈ (k, v) :: ms → read (kept v') = meant v := agrees v first
        have rest : ∀ v', (k, v') ∈ ms → read (kept v') = meant v :=
          fun v' member => all v' (List.mem_cons_of_mem _ member)
        rw [first, field.constant rest]
        · rfl
        · rw [field.same]
          exact all v List.mem_cons_self
      · have skipped : ((k, v) :: ms).lookup key = ms.lookup key := by
          rw [List.lookup_cons, beq_false_of_ne (Ne.symm same)]
        rw [skipped, ← field.other (m := (k, v)) same r]
        apply ih
        intro w first w' member
        rw [← skipped] at first
        exact agrees w first w' (List.mem_cons_of_mem _ member)

end Field

/-! The names of the trigger fields. -/

theorem field_at : IsField (·.step.atSec) "at".toList atoi := by
  refine ⟨by decide, fun val r => rfl, fun other val r ne => ?_⟩
  rw [Reading.member, if_neg ne]
  split_ifs <;> rfl

theorem field_hasAt : IsField Reading.hasAt "at".toList fun _ => true := by
  refine ⟨by decide, fun val r => rfl, fun other val r ne => ?_⟩
  rw [Reading.member, if_neg ne]
  split_ifs <;> rfl

theorem field_when : IsField (·.step.whenMetric) "when".toList (List.take (KEY_SIZE - 1)) := by
  refine ⟨by decide, fun val r => rfl, fun other val r ne => ?_⟩
  rw [Reading.member]
  split_ifs <;> rfl

theorem field_hasWhen : IsField Reading.hasWhen "when".toList fun _ => true := by
  refine ⟨by decide, fun val r => rfl, fun other val r ne => ?_⟩
  rw [Reading.member]
  split_ifs <;> rfl

theorem field_op : IsField (·.step.op) "op".toList parseOp := by
  refine ⟨by decide, fun val r => rfl, fun other val r ne => ?_⟩
  rw [Reading.member]
  split_ifs <;> rfl

theorem field_value : IsField (·.step.value) "value".toList atof := by
  refine ⟨by decide, fun val r => rfl, fun other val r ne => ?_⟩
  rw [Reading.member]
  split_ifs <;> rfl

theorem field_repeat : IsField (·.step.repeatSec) "repeat".toList atoi := by
  refine ⟨by decide, fun val r => rfl, fun other val r ne => ?_⟩
  rw [Reading.member]
  split_ifs <;> rfl

theorem field_times : IsField (·.step.maxTimes) "times".toList atoi := by
  refine ⟨by decide, fun val r => rfl, fun other val r ne => ?_⟩
  rw [Reading.member]
  split_ifs <;> rfl

theorem member_param {key val : List Char} (param : key ∉ triggerKeys) (r : Reading) :
    (r.member key val).step.params =
      if r.step.params.length < MAX_PARAMS_PER_STEP then r.step.params ++ [(key, val)]
      else r.step.params := by
  simp only [triggerKeys, List.mem_cons, List.not_mem_nil, or_false, not_or] at param
  obtain ⟨isAt, isWhen, isOp, isValue, isRepeat, isTimes⟩ := param
  rw [Reading.member, if_neg isAt, if_neg isWhen, if_neg isOp, if_neg isValue, if_neg isRepeat,
    if_neg isTimes]
  split <;> rfl

theorem member_trigger {key val : List Char} (trigger : key ∈ triggerKeys) (r : Reading) :
    (r.member key val).step.params = r.step.params := by
  simp only [triggerKeys, List.mem_cons, List.not_mem_nil, or_false] at trigger
  rcases trigger with rfl | rfl | rfl | rfl | rfl | rfl <;> rfl

/-- A full list of parameters takes no more of them. -/
theorem take_append_take {α : Type} (n : Nat) (s t : List α) :
    (s.take n ++ t).take n = (s ++ t).take n := by
  rw [List.take_append, List.take_take, List.take_append, min_self, List.length_take]
  congr 2
  omega

theorem read_params {m : Member} {r : Reading} (room : r.step.params.length ≤ MAX_PARAMS_PER_STEP) :
    (r.read m).step.params =
      (r.step.params ++ if isParam m then [(m.1, kept m.2)] else []).take MAX_PARAMS_PER_STEP := by
  have kept : r.step.params.take MAX_PARAMS_PER_STEP = r.step.params := List.take_of_length_le room
  rw [Reading.read]
  by_cases long : m.1.length ≥ KEY_SIZE
  · have skipped : isParam m = false := by simp [isParam, Nat.not_lt.2 long]
    rw [if_pos long, skipped, if_neg Bool.false_ne_true, List.append_nil, kept]
  · by_cases trigger : m.1 ∈ triggerKeys
    · have skipped : isParam m = false := by simp [isParam, trigger]
      rw [if_neg long, skipped, if_neg Bool.false_ne_true, List.append_nil, kept,
        member_trigger trigger]
    · have param : isParam m = true := by simp [isParam, trigger, Nat.not_le.1 long]
      rw [if_neg long, param, if_pos rfl, member_param trigger]
      split
      · rename_i below
        rw [List.take_of_length_le]
        rw [List.length_append]
        exact below
      · rename_i full
        rw [List.take_append_of_le_length (Nat.not_lt.1 full), kept]

theorem foldl_params (ms : List Member) {r : Reading}
    (room : r.step.params.length ≤ MAX_PARAMS_PER_STEP) :
    (ms.foldl Reading.read r).step.params =
      (r.step.params ++ (ms.filter isParam).map fun m => (m.1, kept m.2)).take
        MAX_PARAMS_PER_STEP := by
  induction ms generalizing r with
  | nil => simp [List.take_of_length_le room]
  | cons m ms ih =>
      have here := read_params (m := m) room
      rw [List.foldl_cons, ih (by rw [here]; exact List.length_take_le _ _), here,
        take_append_take, List.append_assoc, List.filter_cons]
      split <;> rfl

/-! ## One object -/

/-- The strings among the members, keys included. -/
def strings (ms : List Member) : List Char :=
  ms.flatMap fun m =>
    m.1 ++ match m.2 with
      | .string body => body
      | _ => []

/-- A name that escapes do not change, or that is too long either way. -/
def Named (key : List Char) : Prop :=
  unescape key = key ∨ KEY_SIZE ≤ key.length ∧ KEY_SIZE ≤ (unescape key).length

/-- An object that the parser reads like JSON. -/
structure InStep (ms : List Member) : Prop where
  legible : AllLegible ms
  braces  : balance 0 (strings ms) = some 0
  names   : ∀ m ∈ ms, Named m.1
  params  : ∀ m ∈ (ms.filter isParam).take MAX_PARAMS_PER_STEP, kept m.2 = value m.2
  seconds : ∀ key ∈ ["at".toList, "repeat".toList, "times".toList],
    Agrees ms key atoi fun v => wholeNumber (number v)
  metric  : Agrees ms "when".toList (List.take (KEY_SIZE - 1)) value
  op      : Agrees ms "op".toList parseOp fun v => parseOp (value v)
  limit   : Agrees ms "value".toList atof number

/-! Escapes do not matter to the names. -/

theorem named_eq {key name : List Char} (named : Named name) (short : key.length < KEY_SIZE) :
    unescape name = key ↔ name = key := by
  rcases named with same | ⟨long, long'⟩
  · rw [same]
  · constructor <;> rintro rfl <;> omega

theorem lookup_decoded {key : List Char} (short : key.length < KEY_SIZE) {ms : List Member}
    (names : ∀ m ∈ ms, Named m.1) : (decoded ms).lookup key = ms.lookup key := by
  induction ms with
  | nil => rfl
  | cons m ms ih =>
      obtain ⟨named, names⟩ := List.forall_mem_cons.1 names
      have same := named_eq named short
      have rest : (decoded ms).lookup key = ms.lookup key := ih names
      obtain ⟨name, v⟩ := m
      rw [decoded] at rest ⊢
      rw [List.map_cons, List.lookup_cons, List.lookup_cons, rest]
      by_cases here : name = key
      · rw [same.2 here, here]
      · rw [beq_false_of_ne (Ne.symm here), beq_false_of_ne fun other => here (same.1 other.symm)]

theorem filter_decoded {ms : List Member} (names : ∀ m ∈ ms, Named m.1) :
    (decoded ms).filter isParam = ms.filter isParam := by
  induction ms with
  | nil => rfl
  | cons m ms ih =>
      obtain ⟨named, names⟩ := List.forall_mem_cons.1 names
      have rest : (decoded ms).filter isParam = ms.filter isParam := ih names
      rw [decoded] at rest ⊢
      rw [List.map_cons, List.filter_cons, List.filter_cons, rest]
      rcases named with same | ⟨long, long'⟩
      · rw [same]
      · have skipped : isParam m = false := by simp [isParam, Nat.not_lt.2 long]
        have skipped' : isParam (unescape m.1, m.2) = false := by
          simp [isParam, Nat.not_lt.2 long']
        rw [skipped, skipped']
        rfl

theorem usableStep_decoded {ms : List Member} (names : ∀ m ∈ ms, Named m.1) :
    usableStep (decoded ms) = usableStep ms := by
  have same {key : List Char} (short : key.length < KEY_SIZE) := lookup_decoded short names
  have step : stepOf (decoded ms) = stepOf ms := by
    rw [stepOf, stepOf, filter_decoded names, same (by decide), same (by decide), same (by decide),
      same (by decide), same (by decide), same (by decide)]
  rw [usableStep, usableStep, step, same (by decide), same (by decide)]

/-! The walk finds the step. -/

theorem kept_params {ms : List Member} (inStep : InStep ms) :
    ((ms.filter isParam).map fun m => (m.1, kept m.2)).take MAX_PARAMS_PER_STEP =
      ((ms.filter isParam).map fun m => (m.1, value m.2)).take MAX_PARAMS_PER_STEP := by
  rw [← List.map_take, ← List.map_take]
  refine List.map_congr_left fun m member => ?_
  rw [inStep.params m member]

/-- Where `parseObject` starts to read. -/
def Reading.start : Reading := { step := .blank, hasAt := false, hasWhen := false }

theorem foldl_step {ms : List Member} (inStep : InStep ms) :
    (ms.foldl Reading.read .start).step = stepOf ms := by
  have seconds := inStep.seconds
  simp only [List.mem_cons, List.not_mem_nil, or_false, forall_eq_or_imp, forall_eq] at seconds
  obtain ⟨atSec, repeatSec, maxTimes⟩ := seconds
  have frame {β : Type} (get : ScenarioStep → β)
      (keeps : ∀ key val (r : Reading), get (r.member key val).step = get r.step) :
      get (ms.foldl Reading.read .start).step = get .blank :=
    foldl_keeps (fun r => get r.step) keeps ms .start
  apply ScenarioStep.ext
  case atSec => exact field_at.first atSec .start
  case whenMetric => exact field_when.first inStep.metric .start
  case op => exact field_op.first inStep.op .start
  case value => exact field_value.first inStep.limit .start
  case repeatSec => exact field_repeat.first repeatSec .start
  case maxTimes => exact field_times.first maxTimes .start
  case params => exact (foldl_params ms (Nat.zero_le _)).trans (kept_params inStep)
  all_goals
    apply frame
    intro key val r
    rw [Reading.member]
    split_ifs <;> rfl

theorem foldl_seen {get : Reading → Bool} {key : List Char}
    (field : IsField get key fun _ => true) {ms : List Member} (now : get .start = false) :
    get (ms.foldl Reading.read .start) = (ms.lookup key).isSome := by
  have always : Agrees ms key (fun _ => true) fun _ => true := fun _ _ _ _ => rfl
  rw [field.first always, now]
  cases ms.lookup key <;> rfl

/-- **The content of an object gives the step its members say.** -/
theorem parseObject_usable_step {ms : List Member} {content : List Char}
    (walk : readAll content .start = ms.foldl Reading.read .start) (inStep : InStep ms) :
    parseObject content = usableStep ms := by
  have walked : readMembers content.length content
      { step := .blank, hasAt := false, hasWhen := false } = ms.foldl Reading.read .start := walk
  rw [parseObject, walked, usableStep]
  dsimp only
  rw [foldl_step inStep, foldl_seen field_hasWhen rfl, foldl_seen field_hasAt rfl]

/-! ## The braces of an object -/

theorem filter_white {s : List Char} (white : White s) : s.filter isBrace = [] := by
  apply filter_plain
  intro c member
  rw [isBrace, Bool.or_eq_false_iff, beq_eq_false_iff_ne, beq_eq_false_iff_ne]
  exact ⟨ne_of_mem_of_not_mem member (notMem_white white rfl),
    ne_of_mem_of_not_mem member (notMem_white white rfl)⟩

theorem filter_quoted (body : List Char) :
    (quoted body).filter isBrace = body.filter isBrace := by
  rw [quoted, List.filter_append, List.filter_cons_of_neg (by decide)]
  simp [isBrace]

theorem brace_of_bare {c : Char} (bare : isBare c = true) : isBrace c = false := by
  rw [isBrace, Bool.or_eq_false_iff, beq_eq_false_iff_ne, beq_eq_false_iff_ne]
  constructor <;> rintro rfl <;> cases bare

/-- The braces of a member with a scalar are those in its strings. -/
theorem filter_pair {key s : List Char} {v : Tree} (derives : Derives (.pair key v) s)
    (scalar : isScalar v = true) :
    s.filter isBrace = (strings [(key, v)]).filter isBrace := by
  have inside : (strings [(key, v)]).filter isBrace = key.filter isBrace ++
      (strings [([], v)]).filter isBrace := by
    simp only [strings, List.flatMap_cons, List.flatMap_nil, List.append_nil, List.nil_append,
      List.filter_append]
  cases derives with
  | pair white _ white' item =>
  cases item with
  | @item _ w t _ before derives behind =>
  have value : t.filter isBrace = (strings [([], v)]).filter isBrace := by
    rcases scalar_shape derives scalar with ⟨body, rfl, rfl, -⟩ | ⟨-, -, bare⟩
    · rw [filter_quoted]
      simp [strings]
    · rw [filter_plain fun c member => brace_of_bare (bare c member)]
      cases derives with
      | string => cases bare '"' List.mem_cons_self
      | _ => rfl
  rw [inside, ← value, List.filter_append, List.filter_cons_of_neg (by decide), List.filter_append,
    List.filter_append, List.filter_append, List.filter_append, filter_white white,
    filter_white white', filter_white before, filter_white behind, filter_quoted]
  simp only [List.nil_append, List.append_nil]

theorem filter_members {ms : List Member} {s : List Char} (derives : Derives (.members ms) s)
    (scalars : ∀ m ∈ ms, isScalar m.2 = true) :
    s.filter isBrace = (strings ms).filter isBrace := by
  induction ms generalizing s with
  | nil => cases derives
  | cons m ms ih =>
      obtain ⟨scalar, others⟩ := List.forall_mem_cons.1 scalars
      have split : strings (m :: ms) = strings [m] ++ strings ms := by
        simp only [strings, List.flatMap_cons, List.flatMap_nil, List.append_nil]
      cases derives with
      | lastMember pair => exact filter_pair pair scalar
      | member pair derives =>
          rw [split, List.filter_append, List.filter_append, List.filter_cons_of_neg (by decide),
            filter_pair pair scalar, ih derives others]

/-- What stands between the braces of an object. -/
theorem object_content {ms : List Member} {t : List Char}
    (derives : Derives (.value (.object ms)) t) (scalars : ∀ m ∈ ms, isScalar m.2 = true)
    (inStep : InStep ms) :
    ∃ content, t = '{' :: (content ++ ['}']) ∧ balance 0 content = some 0 ∧
      readAll content .start = ms.foldl Reading.read .start := by
  cases derives with
  | @emptyObject content white =>
      refine ⟨content, rfl, ?_, ?_⟩
      · rw [← balance_filter, filter_white white]
        rfl
      · have skipped := readAll_white white [] .start
        rwa [List.append_nil] at skipped
  | @object _ content derives =>
      refine ⟨content, rfl, ?_, readAll_members derives scalars inStep.legible .start⟩
      rw [← balance_filter, filter_members derives scalars, balance_filter]
      exact inStep.braces

/-! ## The array -/

/-- Rounds that there is no text or no room for do nothing. -/
theorem readObjects_nil (fuel free : Nat) : readObjects fuel free [] = [] := by
  cases fuel <;> cases free <;> rfl

theorem readObjects_full (fuel : Nat) (p : List Char) : readObjects fuel 0 p = [] := by
  cases fuel <;> rfl

theorem readObjects_enough : ∀ {fuel fuel' free : Nat} {p : List Char},
    p.length ≤ fuel → p.length ≤ fuel' → readObjects fuel free p = readObjects fuel' free p
  | _, _, 0, _, _, _ => by rw [readObjects_full, readObjects_full]
  | 0, _, _, p, empty, _ | _, 0, _, p, _, empty => by
      obtain rfl := List.eq_nil_of_length_eq_zero (Nat.le_zero.1 empty)
      rw [readObjects_nil, readObjects_nil]
  | fuel + 1, fuel' + 1, free + 1, p, enough, enough' => by
      rw [readObjects, readObjects]
      have left := List.length_dropWhile_le (fun c => c != '{' && c != ']') p
      generalize p.dropWhile (fun c => c != '{' && c != ']') = q at left
      split
      · rename_i q
        have shorter := closeBrace_length 1 q
        simp only [List.length_cons] at left
        dsimp only
        split
        · exact congrArg (_ :: ·) (readObjects_enough (by omega) (by omega))
        · exact readObjects_enough (by omega) (by omega)
      · rfl

def readArray (free : Nat) (p : List Char) : List ScenarioStep := readObjects p.length free p

theorem readArray_eq {fuel free : Nat} {p : List Char} (enough : p.length ≤ fuel) :
    readObjects fuel free p = readArray free p := readObjects_enough enough le_rfl

theorem readArray_drop (free : Nat) (p : List Char) :
    readArray free (p.dropWhile fun c => c != '{' && c != ']') = readArray free p := by
  rw [← readArray_eq (List.length_dropWhile_le _ _), readArray]
  cases free with
  | zero => rw [readObjects_full, readObjects_full]
  | succ free =>
      cases p.length with
      | zero => rfl
      | succ fuel => rw [readObjects, readObjects, List.dropWhile_idempotent]

/-- What is neither an object nor the end of the array is passed over. -/
theorem readArray_append (free : Nat) {s : List Char} (plain : ∀ c ∈ s, c ≠ '{' ∧ c ≠ ']')
    (p : List Char) : readArray free (s ++ p) = readArray free p := by
  rw [← readArray_drop, List.dropWhile_append_of_pos, readArray_drop]
  intro c member
  simpa using plain c member

/-- The next object, and the array behind it. -/
theorem readArray_object {content : List Char} (balanced : balance 0 content = some 0)
    (free : Nat) (rest : List Char) :
    readArray (free + 1) ('{' :: (content ++ '}' :: rest)) =
      (parseObject content).elim (readArray (free + 1) rest)
        fun step => step :: readArray free rest := by
  have closes := closeBrace_balance balanced rest
  rw [Nat.cast_zero, zero_add] at closes
  have enough : rest.length ≤ (content ++ '}' :: rest).length := by
    rw [List.length_append, List.length_cons]
    omega
  rw [readArray, List.length_cons, readObjects, List.dropWhile_cons_of_neg (by decide)]
  simp only [closes, List.dropLast_concat, readArray_eq enough]
  cases parseObject content <;> rfl

theorem readArray_end (free : Nat) (rest : List Char) : readArray free (']' :: rest) = [] := by
  cases free with
  | zero => exact readObjects_full _ _
  | succ free => rfl

theorem outside_of_white {s : List Char} (white : White s) : ∀ c ∈ s, c ≠ '{' ∧ c ≠ ']' :=
  fun _ member => ⟨ne_of_mem_of_not_mem member (notMem_white white rfl),
    ne_of_mem_of_not_mem member (notMem_white white rfl)⟩

theorem readArray_item {ms : List Member} {s : List Char} (item : Derives (.item (.object ms)) s)
    (scalars : ∀ m ∈ ms, isScalar m.2 = true) (inStep : InStep ms) (free : Nat)
    (rest : List Char) :
    readArray (free + 1) (s ++ rest) =
      (usableStep ms).elim (readArray (free + 1) rest)
        fun step => step :: readArray free rest := by
  cases item with
  | @item _ w t w' before derives behind =>
  obtain ⟨content, rfl, balanced, walk⟩ := object_content derives scalars inStep
  have shape : w ++ '{' :: (content ++ ['}']) ++ w' ++ rest =
      w ++ '{' :: (content ++ '}' :: (w' ++ rest)) := by simp
  rw [shape, readArray_append _ (outside_of_white before), readArray_object balanced,
    parseObject_usable_step walk inStep, readArray_append _ (outside_of_white behind),
    readArray_append _ (outside_of_white behind)]

/-- The objects of an array that has room for their steps. -/
theorem readArray_elements {objs : List (List Member)} {s : List Char}
    (derives : Derives (.elements (objs.map Tree.object)) s)
    (scalars : ∀ ms ∈ objs, ∀ m ∈ ms, isScalar m.2 = true) (inStep : ∀ ms ∈ objs, InStep ms)
    {free : Nat} (room : objs.length ≤ free) (rest : List Char) :
    readArray free (s ++ ']' :: rest) = objs.filterMap usableStep := by
  induction objs generalizing s free with
  | nil => cases derives
  | cons ms objs ih =>
      obtain ⟨scalar, scalars⟩ := List.forall_mem_cons.1 scalars
      obtain ⟨here, inStep⟩ := List.forall_mem_cons.1 inStep
      rw [List.length_cons] at room
      obtain ⟨free, rfl⟩ : ∃ n, free = n + 1 := ⟨free - 1, by omega⟩
      have tail : ∀ {p : List Char}, (∀ {n : Nat}, objs.length ≤ n →
          readArray n p = objs.filterMap usableStep) →
          (usableStep ms).elim (readArray (free + 1) p) (fun step => step :: readArray free p) =
            (ms :: objs).filterMap usableStep := by
        intro p others
        rw [others (by omega), others (by omega), List.filterMap_cons]
        cases usableStep ms <;> rfl
      rw [List.map_cons] at derives
      generalize shape : Tree.object ms :: objs.map Tree.object = vs at derives
      cases derives with
      | lastElement item =>
          injection shape with first empty
          obtain rfl := List.map_eq_nil_iff.1 empty
          subst first
          rw [readArray_item item scalar here]
          exact tail fun _ => readArray_end _ _
      | element item derives =>
          injection shape with first empty
          subst first
          subst empty
          rw [List.append_assoc, readArray_item item scalar here, List.cons_append]
          refine tail fun room => ?_
          have comma (n : Nat) (p : List Char) : readArray n (',' :: p) = readArray n p :=
            readArray_append n (s := [',']) (by simp) p
          rw [comma]
          exact ih derives scalars inStep room

/-! ## The document -/

theorem cString_text {s : List Char} {v : Tree} (text : Text s v) : cString s = s := by
  rw [cString, List.takeWhile_eq_self_iff]
  intro c member
  simpa using fun same : c = '\x00' => Json.zero_notMem text (same ▸ member)

theorem height_scalar {v : Tree} (scalar : isScalar v = true) : height v = 1 := by
  cases v with
  | array | object => cases scalar
  | _ => rfl

theorem memberHeights_scalars {ms : List Member} (scalars : ∀ m ∈ ms, isScalar m.2 = true) :
    memberHeights ms ≤ 1 := by
  induction ms with
  | nil => exact Nat.zero_le 1
  | cons m ms ih =>
      obtain ⟨scalar, others⟩ := List.forall_mem_cons.1 scalars
      rw [memberHeights, height_scalar scalar]
      exact max_le le_rfl (ih others)

theorem heights_objects {objs : List (List Member)}
    (scalars : ∀ ms ∈ objs, ∀ m ∈ ms, isScalar m.2 = true) :
    heights (objs.map Tree.object) ≤ 2 := by
  induction objs with
  | nil => exact Nat.zero_le 2
  | cons ms objs ih =>
      obtain ⟨scalar, others⟩ := List.forall_mem_cons.1 scalars
      rw [List.map_cons, heights, height]
      exact max_le (Nat.succ_le_succ (memberHeights_scalars scalar)) (ih others)

theorem meanings_objects (objs : List (List Member)) :
    meanings (objs.map Tree.object) = objs.map fun ms => .object (memberMeanings ms) := by
  induction objs with
  | nil => rfl
  | cons ms objs ih => rw [List.map_cons, meanings, meaning, ih, List.map_cons]

theorem jsonParse_document {objs : List (List Member)} {json : List Char}
    (text : Text json (.array (objs.map Tree.object)))
    (scalars : ∀ ms ∈ objs, ∀ m ∈ ms, isScalar m.2 = true) :
    jsonParse json = some (.array (objs.map fun ms => .object (memberMeanings ms))) := by
  have shallow : height (.array (objs.map Tree.object)) ≤ MAX_DEPTH := by
    rw [height]
    exact (Nat.succ_le_succ (heights_objects scalars)).trans (by decide)
  rw [jsonParse_text text, if_pos shallow, meaning, meanings_objects]

/-- The walk begins behind the first bracket. -/
theorem parseSteps_array {w s : List Char} (white : White w)
    (noZero : cString (w ++ '[' :: s) = w ++ '[' :: s) :
    parseSteps (w ++ '[' :: s) = readArray MAX_STEPS s := by
  have inside : ∀ c ∈ w, (c != '[') = true := fun c member =>
    bne_iff_ne.2 (ne_of_mem_of_not_mem member (notMem_white white rfl))
  rw [parseSteps, noZero, List.dropWhile_append_of_pos inside,
    List.dropWhile_cons_of_neg (by decide)]
  rfl

/-- **A document whose objects all read like JSON gives the steps it says.** -/
theorem steps_as_parsed {objs : List (List Member)} {json : List Char}
    (text : Text json (.array (objs.map Tree.object)))
    (scalars : ∀ ms ∈ objs, ∀ m ∈ ms, isScalar m.2 = true) (room : objs.length ≤ MAX_STEPS)
    (inStep : ∀ ms ∈ objs, InStep ms) :
    jsonParse json = some (.array (objs.map fun ms => .object (memberMeanings ms))) ∧
      parseSteps json = documentSteps objs ∧
      scenarioLoadString json = sortSteps (documentSteps objs) := by
  suffices steps : parseSteps json = documentSteps objs from
    ⟨jsonParse_document text scalars, steps, congrArg sortSteps steps⟩
  have same : documentSteps objs = objs.filterMap usableStep := by
    refine List.filterMap_congr fun ms member => ?_
    exact usableStep_decoded (inStep ms member).names
  have noZero := cString_text text
  rw [same]
  generalize shape : Tree.array (objs.map Tree.object) = v at text
  cases text with
  | @item _ w t w' before derives behind =>
  cases derives with
  | @emptyArray s white =>
      injection shape with empty
      obtain rfl := List.map_eq_nil_iff.1 empty
      have order : w ++ ('[' :: s ++ [']']) ++ w' = w ++ '[' :: (s ++ ']' :: w') := by simp
      rw [order] at noZero ⊢
      rw [parseSteps_array before noZero, readArray_append _ (outside_of_white white),
        readArray_end, List.filterMap_nil]
  | @array vs s elements =>
      injection shape with objects
      subst objects
      have order : w ++ ('[' :: s ++ [']']) ++ w' = w ++ '[' :: (s ++ ']' :: w') := by simp
      rw [order] at noZero ⊢
      rw [parseSteps_array before noZero, readArray_elements elements scalars inStep room]
  | _ => cases shape

/-! Two documents of one object. -/

theorem text_single {ms : List Member} {s : List Char} (derives : Derives (.members ms) s) :
    Text ('[' :: ('{' :: s ++ ['}']) ++ [']']) (.array ([ms].map Tree.object)) :=
  item_of_value (.array (.lastElement (item_of_value (.object derives))))

theorem agrees_absent {β : Type} {ms : List Member} {key : List Char} {read : List Char → β}
    {meant : Tree → β} (absent : ms.lookup key = none) : Agrees ms key read meant := by
  intro v first
  rw [absent] at first
  cases first

theorem inStep_lag :
    InStep [("at".toList, .number ['5']), ("lag".toList, .string "on".toList)] := by
  constructor
  case legible =>
    refine ⟨⟨by decide, by decide, ?_, ?_⟩, ⟨by decide, by decide, ?_, ?_⟩, trivial⟩
    · rintro body ⟨⟩
    · rintro - body ⟨⟩
    · rintro body ⟨⟩
      decide
    · exact fun long => absurd long (by decide)
  case braces => rfl
  case names => exact fun m member => .inl (by revert m; decide)
  case params => decide
  case seconds =>
    simp only [List.mem_cons, List.not_mem_nil, or_false, forall_eq_or_imp, forall_eq]
    refine ⟨?_, agrees_absent rfl, agrees_absent rfl⟩
    rintro v ⟨⟩ v' member
    obtain rfl : v' = .number ['5'] := by simpa using member
    decide +kernel
  all_goals exact agrees_absent rfl

theorem steps_as_parsed_lag :
    parseSteps "[\x7b\"at\":5,\"lag\":\"on\"\x7d]".toList =
      documentSteps [[("at".toList, .number ['5']), ("lag".toList, .string "on".toList)]] := by
  have first : Derives (.pair "at".toList (.number ['5'])) (field "at".toList ['5']) :=
    derives_field (body_jsonEscape "at".toList) (.number (number_decimal 5))
  have second : Derives (.pair "lag".toList (.string "on".toList))
      (field "lag".toList (quoted "on".toList)) :=
    derives_field (body_jsonEscape "lag".toList) (.string (body_jsonEscape "on".toList))
  refine (steps_as_parsed (text_single (.member first (.lastMember second))) (by decide)
    (by decide) ?_).2.1
  rw [List.forall_mem_singleton]
  exact inStep_lag

/-- A brace in a string, and the step is lost. -/
theorem steps_lost_brace :
    Text "[\x7b\"note\":\"\x7d\",\"at\":0\x7d]".toList
        (.array [.object [("note".toList, .string ['}']), ("at".toList, .number ['0'])]]) ∧
      parseSteps "[\x7b\"note\":\"\x7d\",\"at\":0\x7d]".toList = [] ∧
      (documentSteps [[("note".toList, .string ['}']), ("at".toList, .number ['0'])]]).map
        ScenarioStep.atSec = [0] := by
  have first : Derives (.pair "note".toList (.string ['}']))
      (field "note".toList (quoted ['}'])) :=
    derives_field (body_jsonEscape "note".toList) (.string (body_jsonEscape ['}']))
  have second : Derives (.pair "at".toList (.number ['0'])) (field "at".toList ['0']) :=
    derives_field (body_jsonEscape "at".toList) (.number (number_decimal 0))
  exact ⟨text_single (.member first (.lastMember second)), by decide, by decide +kernel⟩

end Clumsy.Scenario
