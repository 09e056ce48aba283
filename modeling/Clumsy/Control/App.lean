/-
# Control.App -- controlapi.cpp: what the program tells of itself

The state behind the control API and the payloads that are read off it.  A payload is
printed by concatenation; here the pieces with commas between them are `commas`, a member is
`field`, and so on, so that every payload is a JSON value if its pieces are.
-/
import Clumsy.Modules.Specs
import Clumsy.Profiles.File
import Clumsy.Scenario.Playback
import Clumsy.Stats.Latency
import Clumsy.Text.Print

namespace Clumsy.Control

open Clumsy.Theory
open Clumsy.Theory.Json (Body Tree Text IsValue IsField field commas braces brackets isValue_array
  isValue_object)
open Clumsy.Modules
open Clumsy.Profiles (Profile MAX_PROFILES)
open Clumsy.Scenario (Player toDouble)
open Clumsy.Stats (Histogram LATENCY_BUCKETS SUM_ROLLOVER bucketUpper)
open Clumsy.Text

set_option autoImplicit false

/-- What the handlers read and write. -/
structure App (β : Type) where
  settings           : Settings β
  affectedCount      : ModuleId → Int
  profiles           : List Profile
  /-- The names of the presets with their filters. -/
  presets            : List (List Char × List Char)
  player             : Player
  capturing          : Bool
  admin              : Bool
  currentFilter      : List Char
  currentProcess     : List Char
  statusLine         : List Char
  captureStartTick   : UInt32
  statsCapturedTotal : Int
  statsSentTotal     : Int
  pcapPackets        : Int
  pcapBytes          : Int
  replayActive       : Bool
  replaySent         : Int
  replayFailed       : Int
  bitsFlipped        : Int
  latency            : Histogram
  pipeStopRequested  : Bool
  quitRequested      : Bool

variable {β : Type}

/-! ## Printing -/

def quoted (s : List Char) : List Char := Json.quoted (jsonEscape s)

/-- `numToStr`. -/
def numToStr (v : Int) : List Char := decimal v

/-- `dblToStr`: whole numbers below `1e15` as such, others as `%.4g`. -/
def dblToStr (v : Fp) : List Char := numberText 4 v

/-- A member whose key needs no escapes. -/
def member (key : String) (value : List Char) : List Char := field key.toList value

def okJson (extra : List (List Char)) : List Char :=
  braces (commas (member "status" (quoted "ok".toList) :: extra))

def errJson (message : List Char) : List Char :=
  braces (commas [member "status" (quoted "error".toList), member "message" (quoted message)])

/-! ## Payloads -/

def moduleParamsJson (mods : Statics β) (m : ModuleId) : List Char :=
  braces (commas ((m.getParams 32 mods).map fun kv => field (jsonEscape kv.1) (quoted kv.2)))

/-- The choices of an enumeration. -/
def optionsJson (options : List Char) : List Char :=
  brackets (commas (((options.splitOn ',').filter (· != [])).map quoted))

def specJson (s : ParamSpec) : List Char :=
  braces (commas (
    [member "key" (quoted s.key.toList), member "label" (quoted s.label.toList),
      member "type" (quoted s.kind.toList), member "min" (dblToStr (.finite s.minVal)),
      member "max" (dblToStr (.finite s.maxVal))] ++
    if s.options = "" then [] else [member "options" (optionsJson s.options.toList)]))

def paramSpecsJson (m : ModuleId) : List Char := brackets (commas (m.paramSpecs.map specJson))

def moduleJson (app : App β) (m : ModuleId) : List Char :=
  braces (commas
    [member "shortName" (quoted m.shortName), member "displayName" (quoted m.displayName.toList),
      member "enabled" (boolText (app.settings.enabled m)),
      member "affected" (numToStr (app.affectedCount m)),
      member "params" (moduleParamsJson app.settings.mods m),
      member "paramSpecs" (paramSpecsJson m)])

def apiModulesJson (app : App β) : List Char :=
  okJson [member "modules" (brackets (commas (modules.map (moduleJson app))))]

def apiStatusJson (app : App β) : List Char :=
  okJson
    [member "version" (quoted "0.4".toList), member "capturing" (boolText app.capturing),
      member "admin" (boolText app.admin), member "filter" (quoted app.currentFilter),
      member "process" (quoted app.currentProcess), member "message" (quoted app.statusLine)]

def apiProfilesJson (app : App β) : List Char :=
  let names := (app.profiles.take MAX_PROFILES).map fun p => quoted p.name
  okJson [member "profiles" (brackets (commas names))]

def presetJson (preset : List Char × List Char) : List Char :=
  braces (commas [member "name" (quoted preset.1), member "filter" (quoted preset.2)])

def apiPresetsJson (app : App β) : List Char :=
  okJson [member "presets" (brackets (commas (app.presets.map presetJson)))]

/-- The flat module map of `get_stats`. -/
def moduleStatsJson (app : App β) : List Char :=
  braces (commas (modules.map fun m =>
    field (jsonEscape m.shortName) (braces (commas
      [member "enabled" (boolText (app.settings.enabled m)),
        member "affected" (numToStr (app.affectedCount m))]))))

def getStatsJson (app : App β) : List Char :=
  okJson
    [member "modules" (moduleStatsJson app), member "captured" (numToStr app.statsCapturedTotal),
      member "sent" (numToStr app.statsSentTotal)]

/-! ## Metrics -/

def appCaptureElapsedMs (now : UInt32) (app : App β) : UInt32 :=
  if app.capturing then now - app.captureStartTick else 0

def metric (name help kind : String) (value : List Char) : List Char :=
  ("# HELP clumsy_" ++ name ++ " " ++ help ++ "\n" ++ "# TYPE clumsy_" ++ name ++ " " ++ kind ++
    "\n" ++ "clumsy_" ++ name ++ " ").toList ++ value ++ ['\n']

def bit (b : Bool) : List Char := if b then ['1'] else ['0']

/-- One sample of a metric with a label. -/
def sample (name label : String) (of value : List Char) : List Char :=
  ("clumsy_" ++ name ++ "\x7b" ++ label ++ "=\"").toList ++ of ++ "\"\x7d ".toList ++ value ++
    ['\n']

/-- The cumulative buckets from the one at `ix` on. -/
def bucketLines (h : Histogram) : Nat → Int → List Int → List Char
  | _, _, [] => []
  | ix, before, upper :: uppers =>
      let cumulative := before + h.latencyBucketCount ix
      sample "latency_ms_bucket" "le" (if upper ≠ 0 then numToStr upper else "+Inf".toList)
          (numToStr cumulative) ++
        bucketLines h (ix + 1) cumulative uppers

/-- `latencySumMs` as the double it is. -/
def latencySum (h : Histogram) : Fp :=
  binary64.lift (· + h.sumLow) (toDouble (h.sumHigh * SUM_ROLLOVER))

def apiMetricsText (now : UInt32) (app : App β) : List Char :=
  metric "up" "always 1; the scrape succeeded" "gauge" ['1'] ++
  metric "capturing" "1 while a capture is running" "gauge" (bit app.capturing) ++
  metric "captured_packets_total" "packets taken off the wire" "counter"
    (numToStr app.statsCapturedTotal) ++
  metric "sent_packets_total" "packets handed back to the stack" "counter"
    (numToStr app.statsSentTotal) ++
  metric "capture_elapsed_seconds" "seconds since the capture started" "gauge"
    (dblToStr (binary64.round ((appCaptureElapsedMs now app).toNat / 1000))) ++
  metric "lag_buffer_packets" "packets held by the lag module" "gauge"
    (numToStr app.settings.mods.lag.buf.bufSize) ++
  metric "jitter_buffer_packets" "packets held by the jitter module" "gauge"
    (numToStr app.settings.mods.jitter.buf.bufSize) ++
  metric "bandwidth_buffer_packets" "packets held by the bandwidth module" "gauge"
    (numToStr app.settings.mods.bandwidth.buf.bufSize) ++
  metric "pcap_written_packets_total" "packets written to the pcap file" "counter"
    (numToStr app.pcapPackets) ++
  metric "pcap_written_bytes_total" "bytes written to the pcap file" "counter"
    (numToStr app.pcapBytes) ++
  metric "replay_active" "1 while a pcap replay is running" "gauge" (bit app.replayActive) ++
  metric "replay_injected_packets_total" "packets re-injected from a pcap file" "counter"
    (numToStr app.replaySent) ++
  metric "replay_failed_packets_total" "replay packets that could not be injected" "counter"
    (numToStr app.replayFailed) ++
  metric "corrupt_flipped_bits_total" "bits the corrupt module flipped" "counter"
    (numToStr app.bitsFlipped) ++
  "# HELP clumsy_module_enabled 1 while a module is switched on\n".toList ++
  "# TYPE clumsy_module_enabled gauge\n".toList ++
  modules.flatMap (fun m =>
    sample "module_enabled" "module" m.shortName (bit (app.settings.enabled m))) ++
  "# HELP clumsy_module_affected_packets_total packets a module acted on\n".toList ++
  "# TYPE clumsy_module_affected_packets_total counter\n".toList ++
  modules.flatMap (fun m =>
    sample "module_affected_packets_total" "module" m.shortName
      (numToStr (app.affectedCount m))) ++
  "# HELP clumsy_latency_ms observed packet delay from lag and jitter\n".toList ++
  "# TYPE clumsy_latency_ms histogram\n".toList ++
  bucketLines app.latency 0 0 bucketUpper ++
  "clumsy_latency_ms_sum ".toList ++ dblToStr (latencySum app.latency) ++ ['\n'] ++
  "clumsy_latency_ms_count ".toList ++ numToStr app.latency.latencyCount ++ ['\n']

/-! ## Every payload is a value -/

/-- Texts that stand between quotes as they are. -/
def isPlainText (s : List Char) : Bool :=
  s.all fun c => decide (0x20 ≤ c.toNat) && c != '"' && c != '\\'

theorem body_plain {s : List Char} (plain : isPlainText s = true) : Body s := by
  induction s with
  | nil => exact .nil
  | cons c s ih =>
      simp only [isPlainText, List.all_cons, Bool.and_eq_true, decide_eq_true_eq,
        bne_iff_ne] at plain
      exact .plain plain.1.1.1 plain.1.1.2 plain.1.2 (ih (by simpa [isPlainText] using plain.2))

theorem isValue_quoted (s : List Char) : IsValue (quoted s) :=
  Json.isValue_string (body_jsonEscape s)

theorem isValue_numToStr (v : Int) : IsValue (numToStr v) := Json.isValue_number (number_decimal v)

theorem isValue_dblToStr (q : ℚ) : IsValue (dblToStr (.finite q)) :=
  Json.isValue_number (number_numberText 4 q)

theorem isValue_boolText (b : Bool) : IsValue (boolText b) := Json.isValue_bool b

theorem isField_member {key : String} (plain : isPlainText key.toList = true) {value : List Char}
    (isValue : IsValue value) : IsField (member key value) :=
  Json.isField (body_plain plain) isValue

section Members

variable {key : String} (plain : isPlainText key.toList = true)

include plain

theorem isField_text (s : List Char) : IsField (member key (quoted s)) :=
  isField_member plain (isValue_quoted s)

theorem isField_int (v : Int) : IsField (member key (numToStr v)) :=
  isField_member plain (isValue_numToStr v)

theorem isField_double (q : ℚ) : IsField (member key (dblToStr (.finite q))) :=
  isField_member plain (isValue_dblToStr q)

theorem isField_bool (b : Bool) : IsField (member key (boolText b)) :=
  isField_member plain (isValue_boolText b)

end Members

theorem isValue_moduleParamsJson (mods : Statics β) (m : ModuleId) :
    IsValue (moduleParamsJson mods m) := by
  refine isValue_object fun f inside => ?_
  obtain ⟨kv, -, rfl⟩ := List.mem_map.1 inside
  exact Json.isField (body_jsonEscape kv.1) (isValue_quoted kv.2)

theorem isValue_optionsJson (options : List Char) : IsValue (optionsJson options) := by
  refine isValue_array fun t inside => ?_
  obtain ⟨option, -, rfl⟩ := List.mem_map.1 inside
  exact isValue_quoted option

theorem isValue_specJson (s : ParamSpec) : IsValue (specJson s) := by
  refine isValue_object (List.forall_mem_append.2 ⟨?_, ?_⟩)
  · simp only [List.forall_mem_cons]
    exact ⟨isField_text (by decide) _, isField_text (by decide) _, isField_text (by decide) _,
      isField_double (by decide) _, isField_double (by decide) _, List.forall_mem_nil _⟩
  · split_ifs
    · exact List.forall_mem_nil _
    · exact List.forall_mem_singleton.2 (isField_member (by decide) (isValue_optionsJson _))

theorem isValue_paramSpecsJson (m : ModuleId) : IsValue (paramSpecsJson m) := by
  refine isValue_array fun t inside => ?_
  obtain ⟨s, -, rfl⟩ := List.mem_map.1 inside
  exact isValue_specJson s

theorem isValue_moduleJson (app : App β) (m : ModuleId) : IsValue (moduleJson app m) := by
  refine isValue_object ?_
  simp only [List.forall_mem_cons]
  exact ⟨isField_text (by decide) _, isField_text (by decide) _, isField_bool (by decide) _,
    isField_int (by decide) _, isField_member (by decide) (isValue_moduleParamsJson _ m),
    isField_member (by decide) (isValue_paramSpecsJson m), List.forall_mem_nil _⟩

theorem isValue_presetJson (preset : List Char × List Char) : IsValue (presetJson preset) := by
  refine isValue_object ?_
  simp only [List.forall_mem_cons]
  exact ⟨isField_text (by decide) _,
    isField_text (by decide) _, List.forall_mem_nil _⟩

theorem isValue_moduleStatsJson (app : App β) : IsValue (moduleStatsJson app) := by
  refine isValue_object fun f inside => ?_
  obtain ⟨m, -, rfl⟩ := List.mem_map.1 inside
  refine Json.isField (body_jsonEscape _) (isValue_object ?_)
  simp only [List.forall_mem_cons]
  exact ⟨isField_bool (by decide) _,
    isField_int (by decide) _, List.forall_mem_nil _⟩

/-! ## Replies -/

/-- A JSON object with the status ok or error. -/
def IsReply (s : List Char) : Prop :=
  ∃ ms, Text s (.object ms) ∧
    ((Tree.object ms).member "status".toList = some (.string "ok".toList) ∨
      (Tree.object ms).member "status".toList = some (.string "error".toList))

/-- An object whose first member is the status. -/
theorem isReply_status {word : String} (known : word = "ok" ∨ word = "error")
    {fields : List (List Char)} (all : ∀ f ∈ fields, IsField f) :
    IsReply (braces (commas (member "status" (quoted word.toList) :: fields))) := by
  have asItIs : jsonEscape word.toList = word.toList := by
    rcases known with rfl | rfl <;> rfl
  have body : Body word.toList := asItIs ▸ body_jsonEscape word.toList
  have status := Json.derives_field (body_plain (s := "status".toList) (by decide))
    (Json.Derives.string body)
  obtain ⟨ms, derives⟩ := Json.derives_members status all
  refine ⟨("status".toList, .string word.toList) :: ms, Json.item_of_value ?_, ?_⟩
  · rw [member, quoted, asItIs]
    exact Json.Derives.object derives
  · simp only [Tree.member, List.lookup_cons_self]
    rcases known with rfl | rfl
    · exact .inl rfl
    · exact .inr rfl

theorem isReply_okJson {extra : List (List Char)} (all : ∀ f ∈ extra, IsField f) :
    IsReply (okJson extra) := isReply_status (.inl rfl) all

theorem isReply_errJson (message : List Char) : IsReply (errJson message) :=
  isReply_status (.inr rfl)
    (List.forall_mem_singleton.2 (isField_member (by decide) (isValue_quoted message)))

/-- A reply with one more member. -/
theorem isReply_member {key : String} (plain : isPlainText key.toList = true) {value : List Char}
    (isValue : IsValue value) : IsReply (okJson [member key value]) :=
  isReply_okJson (List.forall_mem_singleton.2 (isField_member plain isValue))

theorem isReply_apiModulesJson (app : App β) : IsReply (apiModulesJson app) := by
  refine isReply_member (by decide) (isValue_array fun t inside => ?_)
  obtain ⟨m, -, rfl⟩ := List.mem_map.1 inside
  exact isValue_moduleJson app m

theorem isReply_apiStatusJson (app : App β) : IsReply (apiStatusJson app) := by
  refine isReply_okJson ?_
  simp only [List.forall_mem_cons]
  exact ⟨isField_text (by decide) _, isField_bool (by decide) _, isField_bool (by decide) _,
    isField_text (by decide) _, isField_text (by decide) _, isField_text (by decide) _,
    List.forall_mem_nil _⟩

theorem isReply_apiProfilesJson (app : App β) : IsReply (apiProfilesJson app) := by
  refine isReply_member (by decide) (isValue_array fun t inside => ?_)
  obtain ⟨p, -, rfl⟩ := List.mem_map.1 inside
  exact isValue_quoted p.name

theorem isReply_apiPresetsJson (app : App β) : IsReply (apiPresetsJson app) := by
  refine isReply_member (by decide) (isValue_array fun t inside => ?_)
  obtain ⟨preset, -, rfl⟩ := List.mem_map.1 inside
  exact isValue_presetJson preset

theorem isReply_getStatsJson (app : App β) : IsReply (getStatsJson app) := by
  refine isReply_okJson ?_
  simp only [List.forall_mem_cons]
  exact ⟨isField_member (by decide) (isValue_moduleStatsJson app),
    isField_int (by decide) _,
    isField_int (by decide) _, List.forall_mem_nil _⟩

end Clumsy.Control
