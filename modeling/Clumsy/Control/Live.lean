/-
# Control.Live -- controlapi.cpp: the counters as the dashboard polls them

`apiStatsJson` is one line of JSON, whatever the counters are: that it has no line end in it is
what lets it stand behind `data:` in a stream of events.  What it stands for is `statsTree`.  The
mean and the percentiles of the latency, doubles in the code, are exact rationals here.
-/
import Clumsy.Control.App
import Clumsy.Stats.Log
import Clumsy.Stats.Percentile
import Clumsy.Text.Complete
import Clumsy.Theory.EventStream

namespace Clumsy.Control

open Clumsy.Theory
open Clumsy.Theory.EventStream (OneLine)
open Clumsy.Theory.Json (Tree Text Derives Number commas braces field)
open Clumsy.Modules
open Clumsy.Stats (Histogram)
open Clumsy.Stats.Log (pair_number shortName_plain)
open Clumsy.Text

set_option autoImplicit false

variable {β : Type}

/-- What the payload says besides the state of `App`: the clock, the switch of the packet dump
and how far a replay has read. -/
structure Live (β : Type) where
  app        : App β
  now        : UInt32
  pcapActive : Bool
  replayRead : Int

/-- `latencyMean`, as an exact rational. -/
def latencyMean (h : Histogram) : ℚ :=
  if h.totalCount ≤ 0 then 0 else h.latencySumMs / h.totalCount

/-- An object with the members in their order. -/
def object (members : List (List Char)) : List Char := braces (commas members)

def intMember (key : String) (v : Int) : List Char := member key (numToStr v)
def boolMember (key : String) (b : Bool) : List Char := member key (boolText b)

/-- `dblToStr` on a number. -/
def doubleMember (key : String) (q : ℚ) : List Char := member key (dblToStr (.finite q))

def moduleLive (app : App β) (m : ModuleId) : List Char :=
  field m.shortName
    (object [boolMember "enabled" (app.settings.enabled m),
      intMember "affected" (app.affectedCount m)])

def apiStatsJson (live : Live β) : List Char :=
  let app := live.app
  let mods := app.settings.mods
  let h := app.latency
  object
    [member "status" (quoted "ok".toList), boolMember "capturing" app.capturing,
      intMember "elapsedMs" (appCaptureElapsedMs live.now app).toNat,
      intMember "captured" app.statsCapturedTotal, intMember "sent" app.statsSentTotal,
      member "buffers" (object
        [intMember "lag" mods.lag.buf.bufSize, intMember "jitter" mods.jitter.buf.bufSize,
          intMember "bandwidth" mods.bandwidth.buf.bufSize,
          intMember "bandwidthLimitKBps" mods.bandwidth.bandwidthLimit.val]),
      member "pcap" (object
        [boolMember "active" live.pcapActive, intMember "packets" app.pcapPackets,
          intMember "bytes" app.pcapBytes]),
      member "scenario" (object
        [boolMember "loaded" (0 < app.player.steps.length), boolMember "active" app.player.active,
          intMember "steps" app.player.steps.length]),
      member "replay" (object
        [boolMember "active" app.replayActive, intMember "read" live.replayRead,
          intMember "sent" app.replaySent, intMember "failed" app.replayFailed]),
      member "latency" (object
        [intMember "count" h.latencyCount, intMember "min" h.latencyMin,
          intMember "max" h.latencyMax, doubleMember "mean" (latencyMean h),
          doubleMember "p50" (h.latencyPercentile 50), doubleMember "p95" (h.latencyPercentile 95),
          doubleMember "p99" (h.latencyPercentile 99)]),
      member "corrupt" (object [intMember "bitsFlipped" app.bitsFlipped]),
      member "modules" (object (modules.map (moduleLive app)))]

/-! ## What it stands for -/

def intTree (v : Int) : Tree := .number (numToStr v)
def doubleTree (q : ℚ) : Tree := .number (dblToStr (.finite q))

def moduleTree (app : App β) (m : ModuleId) : List Char × Tree :=
  (m.shortName, .object
    [("enabled".toList, .bool (app.settings.enabled m)),
      ("affected".toList, intTree (app.affectedCount m))])

def statsTree (live : Live β) : Tree :=
  let app := live.app
  let mods := app.settings.mods
  let h := app.latency
  .object
    [("status".toList, .string "ok".toList), ("capturing".toList, .bool app.capturing),
      ("elapsedMs".toList, intTree (appCaptureElapsedMs live.now app).toNat),
      ("captured".toList, intTree app.statsCapturedTotal),
      ("sent".toList, intTree app.statsSentTotal),
      ("buffers".toList, .object
        [("lag".toList, intTree mods.lag.buf.bufSize),
          ("jitter".toList, intTree mods.jitter.buf.bufSize),
          ("bandwidth".toList, intTree mods.bandwidth.buf.bufSize),
          ("bandwidthLimitKBps".toList, intTree mods.bandwidth.bandwidthLimit.val)]),
      ("pcap".toList, .object
        [("active".toList, .bool live.pcapActive), ("packets".toList, intTree app.pcapPackets),
          ("bytes".toList, intTree app.pcapBytes)]),
      ("scenario".toList, .object
        [("loaded".toList, .bool (0 < app.player.steps.length)),
          ("active".toList, .bool app.player.active),
          ("steps".toList, intTree app.player.steps.length)]),
      ("replay".toList, .object
        [("active".toList, .bool app.replayActive), ("read".toList, intTree live.replayRead),
          ("sent".toList, intTree app.replaySent), ("failed".toList, intTree app.replayFailed)]),
      ("latency".toList, .object
        [("count".toList, intTree h.latencyCount), ("min".toList, intTree h.latencyMin),
          ("max".toList, intTree h.latencyMax), ("mean".toList, doubleTree (latencyMean h)),
          ("p50".toList, doubleTree (h.latencyPercentile 50)),
          ("p95".toList, doubleTree (h.latencyPercentile 95)),
          ("p99".toList, doubleTree (h.latencyPercentile 99))]),
      ("corrupt".toList, .object [("bitsFlipped".toList, intTree app.bitsFlipped)]),
      ("modules".toList, .object (modules.map (moduleTree app)))]

/-- A text that is one line and stands for a tree. -/
def Says (v : Tree) (s : List Char) : Prop := Derives (.value v) s ∧ OneLine s

/-- A member that is one line and stands for a key and a tree. -/
def SaysMember (m : List Char × Tree) (s : List Char) : Prop :=
  Derives (.pair m.1 m.2) s ∧ OneLine s

theorem oneLine_numeral {s : List Char} (number : Number s) : OneLine s := by
  have numeral := Json.number_isNumeral number
  exact ⟨fun member => absurd (numeral _ member) (by decide),
    fun member => absurd (numeral _ member) (by decide)⟩

theorem oneLine_plain {s : List Char} (plain : isPlainText s = true) : OneLine s := by
  have large := List.all_eq_true.1 plain
  exact ⟨fun member => absurd (large _ member) (by decide),
    fun member => absurd (large _ member) (by decide)⟩

theorem oneLine_cons {c : Char} {s : List Char} (return_ : c ≠ '\r') (feed : c ≠ '\n')
    (rest : OneLine s) : OneLine (c :: s) := by
  simp only [OneLine, List.mem_cons, not_or]
  exact ⟨⟨Ne.symm return_, rest.1⟩, Ne.symm feed, rest.2⟩

theorem oneLine_nil : OneLine [] := ⟨List.not_mem_nil, List.not_mem_nil⟩

theorem oneLine_commas {ss : List (List Char)} (all : ∀ s ∈ ss, OneLine s) :
    OneLine (commas ss) := by
  induction ss with
  | nil => exact oneLine_nil
  | cons s ss ih =>
      have first := all s List.mem_cons_self
      have rest := ih fun t member => all t (List.mem_cons_of_mem _ member)
      cases ss with
      | nil => exact first
      | cons t ss => exact first.append (oneLine_cons (by decide) (by decide) rest)

theorem says_int (v : Int) : Says (intTree v) (numToStr v) :=
  ⟨.number (number_decimal v), oneLine_numeral (number_decimal v)⟩

theorem says_double (q : ℚ) : Says (doubleTree q) (dblToStr (.finite q)) :=
  ⟨.number (number_numberText 4 q), oneLine_numeral (number_numberText 4 q)⟩

theorem says_object {ms : List (List Char × Tree)} {members : List (List Char)}
    (all : List.Forall₂ SaysMember ms members) : Says (.object ms) (object members) := by
  refine ⟨Json.derives_object (all.imp fun _ _ told => told.1), ?_⟩
  have each : ∀ s ∈ members, OneLine s := by
    induction all with
    | nil => exact fun s member => absurd member List.not_mem_nil
    | cons told _ ih => exact List.forall_mem_cons.2 ⟨told.2, ih⟩
  exact oneLine_cons (by decide) (by decide)
    ((oneLine_commas each).append (oneLine_cons (by decide) (by decide) oneLine_nil))

theorem says_field {key value : List Char} {v : Tree} (plain : isPlainText key = true)
    (told : Says v value) : SaysMember (key, v) (field key value) := by
  refine ⟨Json.derives_field (body_plain plain) told.1, ?_⟩
  have quotedKey : OneLine (Json.quoted key) :=
    oneLine_cons (by decide) (by decide)
      ((oneLine_plain plain).append (oneLine_cons (by decide) (by decide) oneLine_nil))
  exact quotedKey.append (oneLine_cons (by decide) (by decide) told.2)

theorem says_bool (b : Bool) : Says (.bool b) (boolText b) := by
  refine ⟨.bool b, ?_⟩
  cases b <;> (unfold OneLine; decide)

theorem says_ok : Says (.string "ok".toList) (quoted "ok".toList) := by
  have asItIs : quoted "ok".toList = Json.quoted "ok".toList := rfl
  rw [asItIs]
  exact ⟨.string (body_plain (by decide)), by unfold OneLine; decide⟩

section Members

variable {key : String} (plain : isPlainText key.toList = true)

include plain

theorem says_intMember (v : Int) : SaysMember (key.toList, intTree v) (intMember key v) :=
  says_field plain (says_int v)

theorem says_boolMember (b : Bool) : SaysMember (key.toList, .bool b) (boolMember key b) :=
  says_field plain (says_bool b)

theorem says_doubleMember (q : ℚ) : SaysMember (key.toList, doubleTree q) (doubleMember key q) :=
  says_field plain (says_double q)

theorem says_member {value : List Char} {v : Tree} (told : Says v value) :
    SaysMember (key.toList, v) (member key value) := says_field plain told

end Members

theorem says_moduleLive (app : App β) (m : ModuleId) :
    SaysMember (moduleTree app m) (moduleLive app m) :=
  says_field (shortName_plain m) (says_object
    (.cons (says_boolMember (by decide) _) (.cons (says_intMember (by decide) _) .nil)))

/-- **One line, and what it stands for.** -/
theorem says_apiStatsJson (live : Live β) : Says (statsTree live) (apiStatsJson live) := by
  refine says_object ?_
  refine .cons (says_member (by decide) says_ok) ?_
  refine .cons (says_boolMember (by decide) _) ?_
  refine .cons (says_intMember (by decide) _) ?_
  refine .cons (says_intMember (by decide) _) ?_
  refine .cons (says_intMember (by decide) _) ?_
  refine .cons (says_member (by decide) (says_object ?_)) ?_
  · exact .cons (says_intMember (by decide) _) (.cons (says_intMember (by decide) _)
      (.cons (says_intMember (by decide) _) (.cons (says_intMember (by decide) _) .nil)))
  refine .cons (says_member (by decide) (says_object ?_)) ?_
  · exact .cons (says_boolMember (by decide) _) (.cons (says_intMember (by decide) _)
      (.cons (says_intMember (by decide) _) .nil))
  refine .cons (says_member (by decide) (says_object ?_)) ?_
  · exact .cons (says_boolMember (by decide) _) (.cons (says_boolMember (by decide) _)
      (.cons (says_intMember (by decide) _) .nil))
  refine .cons (says_member (by decide) (says_object ?_)) ?_
  · exact .cons (says_boolMember (by decide) _) (.cons (says_intMember (by decide) _)
      (.cons (says_intMember (by decide) _) (.cons (says_intMember (by decide) _) .nil)))
  refine .cons (says_member (by decide) (says_object ?_)) ?_
  · refine .cons (says_intMember (by decide) _) (.cons (says_intMember (by decide) _)
      (.cons (says_intMember (by decide) _) (.cons (says_doubleMember (by decide) _) ?_)))
    exact .cons (says_doubleMember (by decide) _) (.cons (says_doubleMember (by decide) _)
      (.cons (says_doubleMember (by decide) _) .nil))
  refine .cons (says_member (by decide) (says_object ?_)) ?_
  · exact .cons (says_intMember (by decide) _) .nil
  refine .cons (says_member (by decide) (says_object ?_)) .nil
  rw [List.forall₂_map_left_iff, List.forall₂_map_right_iff, List.forall₂_same]
  exact fun m _ => says_moduleLive live.app m

/-! ## What a client makes of it -/

theorem atof_numToStr (v : Int) : atof (numToStr v) = Scenario.toDouble v := by
  have digits := whole_toDigits v.natAbs
  have value : decimalValue (Nat.toDigits 10 v.natAbs) [] [] = (v.natAbs : ℚ) := by
    simp [decimalValue, exponent, digitsValue_toDigits]
  unfold numToStr decimal Scenario.toDouble
  split
  · rename_i negative
    have read := atof_parts (.inr rfl) digits .none .none
    rw [value, List.append_nil, List.append_nil] at read
    have same : ((v : ℚ)) = -(v.natAbs : ℚ) := by
      rw [← Int.cast_natCast, Int.ofNat_natAbs_of_nonpos negative.le, Int.cast_neg, neg_neg]
    rw [same, round_neg]
    exact read
  · rename_i positive
    have read := atof_parts (.inl rfl) digits .none .none
    rw [value, List.append_nil, List.append_nil] at read
    have same : ((v : ℚ)) = (v.natAbs : ℚ) := by
      rw [← Int.cast_natCast, Int.natAbs_of_nonneg (not_lt.1 positive)]
    rw [same]
    exact read

theorem jsonParse_apiStatsJson (live : Live β) :
    jsonParse (apiStatsJson live) = some (meaning (statsTree live)) := by
  have text : Text (apiStatsJson live) (statsTree live) :=
    Json.item_of_value (says_apiStatsJson live).1
  have shallow : height (statsTree live) ≤ MAX_DEPTH := by
    simp [statsTree, height, memberHeights, intTree, doubleTree, moduleTree, modules, MAX_DEPTH]
  rw [jsonParse_text text, if_pos shallow]

/-- **The counters come back** from the parsed payload as doubles. -/
theorem find_counters (live : Live β) :
    (meaning (statsTree live)).find "captured".toList =
        some (.number (Scenario.toDouble live.app.statsCapturedTotal)) ∧
      (meaning (statsTree live)).find "sent".toList =
        some (.number (Scenario.toDouble live.app.statsSentTotal)) ∧
      (meaning (statsTree live)).find "capturing".toList = some (.bool live.app.capturing) := by
  refine ⟨?_, ?_, rfl⟩
  · rw [← atof_numToStr]
    rfl
  · rw [← atof_numToStr]
    rfl

end Clumsy.Control
