/-
# Control.Dispatch -- controlapi.cpp: a request and its reply

`controlDispatchJson` takes a request apart and hands it to a handler.  What the handlers
call outside of this model, from starting a capture to reading a file, is a parameter
(`Externals`) that may do to the state what it likes.

Every reply is a JSON object with a status, with one exception: a replay that starts
answers with its speed as `dblToStr` prints it, and a speed that is infinite or no number
makes `inf` or `nan` of it (`dispatch_reply_iff`).
-/
import Clumsy.Control.App

namespace Clumsy.Control

open Clumsy.Theory
open Clumsy.Theory.Json (Body Tree Text IsValue IsField field commas braces brackets Calm Regular
  outside)
open Clumsy.Modules
open Clumsy.Profiles (profileApply profileDelete)
open Clumsy.Scenario (Player cString)
open Clumsy.Text

set_option autoImplicit false

variable {β : Type}

/-- What the handlers call.  Where a call can fail, nothing is success and a text what it
leaves in `err`. -/
structure Externals (β : Type) where
  /-- `GetTickCount()`. -/
  now             : UInt32
  appStartCapture : List Char → List Char → App β → Option (List Char) × App β
  appStopCapture  : App β → App β
  /-- What can be read of a file, if it opens. -/
  readFile        : List Char → Option (List Char)
  /-- A double as a `long`. -/
  toLong          : Fp → Int
  pcapExportStart : List Char → Int → Int → App β → Bool × App β
  pcapExportStop  : App β → App β
  pcapReplayStart : List Char → Fp → Bool → App β → Option (List Char) × App β
  pcapReplayStop  : App β → App β

/-- A reply and its HTTP status. -/
structure Reply where
  httpStatus : Nat
  json       : List Char

def ok (extra : List (List Char)) : Reply := { httpStatus := 200, json := okJson extra }

def failed (httpStatus : Nat) (message : List Char) : Reply :=
  { httpStatus, json := errJson message }

/-! ## Requests -/

def objectBody (body : List Char) : Option JsonValue := (jsonParse body).filter JsonValue.isObject

/-- Where a body may be missing. -/
def optionalBody (body : List Char) : Option JsonValue :=
  if body = [] then some .null else jsonParse body

def text (req : JsonValue) (key : String) : List Char := req.str key.toList []

def malformed : Reply := failed 400 "malformed JSON body".toList

def missing (name : String) : List Char := ("missing " ++ name ++ " field").toList

/-! ## Setting parameters -/

def findModule (shortName : List Char) : Option ModuleId :=
  modules.find? fun m => m.shortName == shortName

/-- How many keys were known, the others with commas, and what came of it. -/
structure Applied (β : Type) where
  applied  : Nat
  unknown  : List Char
  settings : Settings β

/-- One member after the other. -/
def applyEach (set : List Char → List Char → Settings β → Option (Settings β))
    (obj : List (List Char × JsonValue)) (s : Settings β) : Applied β :=
  obj.foldl (fun r kv =>
    match set (cString kv.1) (cString kv.2.asString) r.settings with
    | some settings => { r with applied := r.applied + 1, settings }
    | none => { r with unknown := (if r.unknown = [] then [] else r.unknown ++ [',']) ++ kv.1 })
    { applied := 0, unknown := [], settings := s }

def members : JsonValue → List (List Char × JsonValue)
  | .object obj => obj
  | _ => []

def metaKeys : List (List Char) := ["cmd".toList, "module".toList, "enabled".toList]

def applyModuleObject (req : JsonValue) (m : ModuleId) (s : Settings β) : Applied β :=
  applyEach (fun key value s => (m.setParam s.enabled key value s.mods).map fun mods =>
    { s with mods }) ((members req).filter fun kv => !metaKeys.contains kv.1) s

/-- The `enabled` member, if there is one. -/
def applyEnabled (req : JsonValue) (m : ModuleId) (s : Settings β) : Settings β :=
  match req.find "enabled".toList with
  | some en => { s with enabled := Function.update s.enabled m en.asBool }
  | none => s

def unknownKeys (unknown : List Char) : List (List Char) :=
  if unknown = [] then [] else [member "unknownKeys" (quoted unknown)]

/-! ## Handlers -/

def apiStopCapture (ext : Externals β) (app : App β) : Reply × App β :=
  if app.capturing then
    (ok [member "message" (quoted "stopped".toList)], ext.appStopCapture app)
  else (ok [member "message" (quoted "not capturing".toList)], app)

def apiQuit (app : App β) : Reply × App β :=
  (ok [member "message" (quoted "quitting".toList)], { app with quitRequested := true })

def apiApplyProfile (name : List Char) (app : App β) : Reply × App β :=
  match profileApply (cString name) app.profiles app.settings with
  | none => (failed 404 ("profile not found: ".toList ++ name), app)
  | some settings => (ok [member "profile" (quoted name)], { app with settings })

def apiDeleteProfile (name : List Char) (app : App β) : Reply × App β :=
  match profileDelete (cString name) app.profiles with
  | none => (failed 404 ("profile not found: ".toList ++ name), app)
  | some profiles => (ok [member "deleted" (quoted name)], { app with profiles })

def SCENARIO_BUF_SIZE : Nat := 65536

def scenarioLoad (file : Option (List Char)) (player : Player) : Player :=
  match file with
  | none => { player with steps := [] }
  | some buf =>
      { player with steps := Scenario.scenarioLoadString (buf.take (SCENARIO_BUF_SIZE - 1)) }

def steps (app : App β) : List (List Char) :=
  [member "steps" (numToStr app.player.steps.length)]

def apiScenarioLoad (ext : Externals β) (body : List Char) (app : App β) : Reply × App β :=
  match objectBody body with
  | none => (malformed, app)
  | some req =>
      let path := text req "path"
      if path = [] then (failed 400 (missing "'path'"), app)
      else
        let app := { app with player := scenarioLoad (ext.readFile (cString path)) app.player }
        if app.player.steps = [] then
          (failed 400 ("failed to load scenario: ".toList ++ path), app)
        else (ok (steps app), app)

def apiScenarioStart (ext : Externals β) (app : App β) : Reply × App β :=
  if app.player.steps = [] then (failed 400 "no scenario loaded".toList, app)
  else
    let app := { app with player :=
      app.player.scenarioStart ext.now.toNat app.statsCapturedTotal }
    (ok (steps app), app)

def apiScenarioStop (app : App β) : Reply × App β :=
  (ok [], { app with player := app.player.scenarioStop })

def numberOr (req : JsonValue) (key : String) (fallback : ℚ) : Fp :=
  ((req.find key.toList).map JsonValue.asNumber).getD (.finite fallback)

def apiPcapStart (ext : Externals β) (body : List Char) (app : App β) : Reply × App β :=
  match optionalBody body with
  | none => (malformed, app)
  | some req =>
      let path := req.str "path".toList "clumsy.pcap".toList
      let maxPackets := ext.toLong (numberOr req "maxPackets" 0)
      let maxBytes := ext.toLong (numberOr req "maxBytes" 0)
      match ext.pcapExportStart (cString path) maxPackets maxBytes app with
      | (false, app) => (failed 500 ("failed to open pcap file: ".toList ++ path), app)
      | (true, app) => (ok [member "path" (quoted path)], app)

def apiPcapStop (ext : Externals β) (app : App β) : Reply × App β :=
  (ok [member "packets" (numToStr app.pcapPackets)], ext.pcapExportStop app)

def apiApplyInline (body : List Char) (app : App β) : Reply × App β :=
  match objectBody body with
  | none => (malformed, app)
  | some req =>
      let r := applyEach applyModuleKV (members req) app.settings
      (ok (member "applied" (numToStr r.applied) :: unknownKeys r.unknown),
        { app with settings := r.settings })

def orElse (err : List Char) (fallback : String) : List Char :=
  if err = [] then fallback.toList else err

def apiReplayStart (ext : Externals β) (body : List Char) (app : App β) : Reply × App β :=
  match optionalBody body with
  | none => (malformed, app)
  | some req =>
      let path := text req "path"
      if path = [] then (failed 400 (missing "'path'"), app)
      else
        let speed := numberOr req "speed" 1
        let loop := ((req.find "loop".toList).map JsonValue.asBool).getD false
        match ext.pcapReplayStart (cString path) speed loop app with
        | (some err, app) => (failed 400 (orElse err "failed to start replay"), app)
        | (none, app) => (ok [member "path" (quoted path), member "speed" (dblToStr speed)], app)

def apiReplayStop (ext : Externals β) (app : App β) : Reply × App β :=
  let app := ext.pcapReplayStop app
  (ok [member "injected" (numToStr app.replaySent)], app)

/-! ## Dispatch -/

/-- The reply of a handler without its status. -/
def replied (r : Reply × App β) : List Char × App β := (r.1.json, r.2)

def setCommand (req : JsonValue) (app : App β) : List Char × App β :=
  let modName := text req "module"
  if modName = [] then (errJson (missing "module"), app)
  else
    match findModule modName with
    | none => (errJson ("unknown module: ".toList ++ modName), app)
    | some m =>
        let settings := (applyModuleObject req m (applyEnabled req m app.settings)).settings
        (okJson [member "module" (quoted modName)], { app with settings })

def filterCommand (ext : Externals β) (req : JsonValue) (app : App β) : List Char × App β :=
  let filter := text req "filter"
  let process := text req "process"
  if filter = [] then (errJson (missing "filter"), app)
  else
    let app := if app.capturing then ext.appStopCapture app else app
    match ext.appStartCapture (cString filter) (cString process) app with
    | (some err, app) => (errJson (orElse err "failed to start capture"), app)
    | (none, app) => (okJson [member "filter" (quoted filter)], app)

/-- A command that names a profile. -/
def nameCommand (req : JsonValue) (handler : List Char → App β → Reply × App β)
    (app : App β) : List Char × App β :=
  let name := text req "name"
  if name = [] then (errJson (missing "name"), app) else replied (handler name app)

def action (req : JsonValue) : List Char := req.str "action".toList "start".toList

def dispatch (ext : Externals β) (request : List Char) (req : JsonValue) (cmd : List Char)
    (app : App β) : List Char × App β :=
  if cmd = "set".toList then setCommand req app
  else if cmd = "get_stats".toList then (getStatsJson app, app)
  else if cmd = "stop".toList then
    (okJson [member "message" (quoted "stopping".toList)], { app with pipeStopRequested := true })
  else if cmd = "get_modules".toList then (apiModulesJson app, app)
  else if cmd = "get_status".toList then (apiStatusJson app, app)
  else if cmd = "get_presets".toList then (apiPresetsJson app, app)
  else if cmd = "get_profiles".toList then (apiProfilesJson app, app)
  else if cmd = "filter".toList ∨ cmd = "start".toList then filterCommand ext req app
  else if cmd = "stop_capture".toList then replied (apiStopCapture ext app)
  else if cmd = "quit".toList then replied (apiQuit app)
  else if cmd = "profile".toList then nameCommand req apiApplyProfile app
  else if cmd = "scenario".toList then
    if action req = "load".toList then replied (apiScenarioLoad ext request app)
    else if action req = "stop".toList then replied (apiScenarioStop app)
    else replied (apiScenarioStart ext app)
  else if cmd = "pcap".toList then
    if action req = "stop".toList then replied (apiPcapStop ext app)
    else replied (apiPcapStart ext request app)
  else if cmd = "replay".toList then
    if action req = "stop".toList then replied (apiReplayStop ext app)
    else replied (apiReplayStart ext request app)
  else if cmd = "apply".toList then replied (apiApplyInline request app)
  else if cmd = "metrics".toList then
    (okJson [member "metrics" (quoted (apiMetricsText ext.now app))], app)
  else if cmd = "delete_profile".toList then nameCommand req apiDeleteProfile app
  else (errJson ("unknown cmd: ".toList ++ cmd), app)

def controlDispatchJson (ext : Externals β) (request : List Char) (app : App β) :
    List Char × App β :=
  match objectBody request with
  | none => (errJson "malformed JSON request".toList, app)
  | some req =>
      match req.find "cmd".toList with
      | none => (errJson (missing "cmd"), app)
      | some cmd => dispatch ext request req cmd.asString app

/-! ## Replies of the handlers -/

theorem isReply_failed (httpStatus : Nat) (message : List Char) :
    IsReply (failed httpStatus message).json := isReply_errJson message

theorem isReply_apiStopCapture (ext : Externals β) (app : App β) :
    IsReply (apiStopCapture ext app).1.json := by
  rw [apiStopCapture]
  split_ifs <;> exact isReply_member (by decide) (isValue_quoted _)

theorem isReply_apiApplyProfile (name : List Char) (app : App β) :
    IsReply (apiApplyProfile name app).1.json := by
  rw [apiApplyProfile]
  cases profileApply (cString name) app.profiles app.settings with
  | none => exact isReply_failed _ _
  | some settings => exact isReply_member (by decide) (isValue_quoted name)

theorem isReply_apiDeleteProfile (name : List Char) (app : App β) :
    IsReply (apiDeleteProfile name app).1.json := by
  rw [apiDeleteProfile]
  cases profileDelete (cString name) app.profiles with
  | none => exact isReply_failed _ _
  | some profiles => exact isReply_member (by decide) (isValue_quoted name)

theorem isReply_steps (app : App β) : IsReply (ok (steps app)).json :=
  isReply_member (by decide) (isValue_numToStr _)

theorem isReply_apiScenarioLoad (ext : Externals β) (body : List Char) (app : App β) :
    IsReply (apiScenarioLoad ext body app).1.json := by
  rw [apiScenarioLoad]
  cases objectBody body with
  | none => exact isReply_failed _ _
  | some req =>
      dsimp only
      split_ifs
      · exact isReply_failed _ _
      · exact isReply_failed _ _
      · exact isReply_steps _

theorem isReply_apiScenarioStart (ext : Externals β) (app : App β) :
    IsReply (apiScenarioStart ext app).1.json := by
  rw [apiScenarioStart]
  split_ifs
  · exact isReply_failed _ _
  · exact isReply_steps _

theorem isReply_apiPcapStart (ext : Externals β) (body : List Char) (app : App β) :
    IsReply (apiPcapStart ext body app).1.json := by
  rw [apiPcapStart]
  cases optionalBody body with
  | none => exact isReply_failed _ _
  | some req =>
      dsimp only
      split
      · exact isReply_failed _ _
      · exact isReply_member (by decide) (isValue_quoted _)

theorem isReply_apiApplyInline (body : List Char) (app : App β) :
    IsReply (apiApplyInline body app).1.json := by
  rw [apiApplyInline]
  cases objectBody body with
  | none => exact isReply_failed _ _
  | some req =>
      refine isReply_okJson (List.forall_mem_cons.2 ⟨isField_int (by decide) _, ?_⟩)
      rw [unknownKeys]
      split_ifs
      · exact List.forall_mem_nil _
      · exact List.forall_mem_singleton.2 (isField_text (by decide) _)

theorem isReply_setCommand (req : JsonValue) (app : App β) :
    IsReply (setCommand req app).1 := by
  rw [setCommand]
  dsimp only
  split_ifs
  · exact isReply_errJson _
  · cases findModule (text req "module") with
    | none => exact isReply_errJson _
    | some m => exact isReply_member (by decide) (isValue_quoted _)

theorem isReply_filterCommand (ext : Externals β) (req : JsonValue) (app : App β) :
    IsReply (filterCommand ext req app).1 := by
  rw [filterCommand]
  dsimp only
  split_ifs
  · exact isReply_errJson _
  · split
    · exact isReply_errJson _
    · exact isReply_member (by decide) (isValue_quoted _)
  · split
    · exact isReply_errJson _
    · exact isReply_member (by decide) (isValue_quoted _)

theorem isReply_nameCommand (req : JsonValue) {handler : List Char → App β → Reply × App β}
    (isReply : ∀ name app, IsReply (handler name app).1.json) (app : App β) :
    IsReply (nameCommand req handler app).1 := by
  rw [nameCommand]
  split_ifs
  · exact isReply_errJson _
  · exact isReply _ app

/-- One more command. -/
theorem isReply_ite {p : Prop} [Decidable p] {x y : List Char × App β} (yes : p → IsReply x.1)
    (no : ¬p → IsReply y.1) : IsReply (if p then x else y).1 := by
  by_cases holds : p
  · rw [if_pos holds]
    exact yes holds
  · rw [if_neg holds]
    exact no holds

/-- Every command but the start of a replay. -/
theorem isReply_dispatch (ext : Externals β) (request : List Char) (req : JsonValue)
    (cmd : List Char) (app : App β)
    (other : ¬(cmd = "replay".toList ∧ action req ≠ "stop".toList)) :
    IsReply (dispatch ext request req cmd app).1 := by
  unfold dispatch
  apply isReply_ite fun _ => isReply_setCommand req app
  intro _
  apply isReply_ite fun _ => isReply_getStatsJson app
  intro _
  apply isReply_ite fun _ => isReply_member (by decide) (isValue_quoted _)
  intro _
  apply isReply_ite fun _ => isReply_apiModulesJson app
  intro _
  apply isReply_ite fun _ => isReply_apiStatusJson app
  intro _
  apply isReply_ite fun _ => isReply_apiPresetsJson app
  intro _
  apply isReply_ite fun _ => isReply_apiProfilesJson app
  intro _
  apply isReply_ite fun _ => isReply_filterCommand ext req app
  intro _
  apply isReply_ite fun _ => isReply_apiStopCapture ext app
  intro _
  apply isReply_ite fun _ => isReply_member (by decide) (isValue_quoted _)
  intro _
  apply isReply_ite fun _ => isReply_nameCommand req isReply_apiApplyProfile app
  intro _
  apply isReply_ite
  · intro _
    apply isReply_ite fun _ => isReply_apiScenarioLoad ext request app
    intro _
    apply isReply_ite fun _ => isReply_okJson (List.forall_mem_nil _)
    exact fun _ => isReply_apiScenarioStart ext app
  intro _
  apply isReply_ite
  · intro _
    apply isReply_ite fun _ => isReply_member (by decide) (isValue_numToStr _)
    exact fun _ => isReply_apiPcapStart ext request app
  intro _
  apply isReply_ite
  · intro replay
    apply isReply_ite fun _ => isReply_member (by decide) (isValue_numToStr _)
    exact fun start => absurd ⟨replay, start⟩ other
  intro _
  apply isReply_ite fun _ => isReply_apiApplyInline request app
  intro _
  apply isReply_ite fun _ => isReply_member (by decide) (isValue_quoted _)
  intro _
  apply isReply_ite fun _ => isReply_nameCommand req isReply_apiDeleteProfile app
  exact fun _ => isReply_errJson _

/-- The start of a replay. -/
theorem dispatch_replay (ext : Externals β) (request : List Char) (req : JsonValue) (app : App β)
    (start : action req ≠ "stop".toList) :
    dispatch ext request req "replay".toList app = replied (apiReplayStart ext request app) := by
  rw [dispatch]
  rw [if_neg (by decide), if_neg (by decide), if_neg (by decide), if_neg (by decide),
    if_neg (by decide), if_neg (by decide), if_neg (by decide), if_neg (by decide),
    if_neg (by decide), if_neg (by decide), if_neg (by decide), if_neg (by decide),
    if_neg (by decide), if_pos rfl, if_neg start]

/-! ## The start of a replay -/

/-- The speed that is echoed. -/
def echoed (path : List Char) (speed : Fp) : List Char :=
  okJson [member "path" (quoted path), member "speed" (dblToStr speed)]

theorem isReply_echoed (path : List Char) (q : ℚ) : IsReply (echoed path (.finite q)) :=
  isReply_okJson (List.forall_mem_cons.2 ⟨isField_text (by decide) path,
    List.forall_mem_singleton.2 (isField_double (by decide) q)⟩)

/-- Any other double is printed with a letter that no number of JSON has. -/
theorem dblToStr_odd {speed : Fp} (odd : ∀ q, speed ≠ .finite q) :
    ∃ sign word, dblToStr speed = sign ++ word ∧ Regular sign ∧
      (word = "inf".toList ∨ word = "nan".toList) := by
  cases speed with
  | finite q => exact absurd rfl (odd q)
  | nan => exact ⟨[], _, rfl, Json.regular_absent (by decide) (by decide), .inr rfl⟩
  | infinite negative =>
      cases negative with
      | false => exact ⟨[], _, rfl, Json.regular_absent (by decide) (by decide), .inl rfl⟩
      | true => exact ⟨['-'], _, rfl, Json.regular_absent (by decide) (by decide), .inl rfl⟩

theorem not_isReply_echoed (path : List Char) {speed : Fp} (odd : ∀ q, speed ≠ .finite q) :
    ¬IsReply (echoed path speed) := by
  obtain ⟨sign, word, printed, regular, known⟩ := dblToStr_odd odd
  have plain (c : Char) (noQuote : '"' ∉ [c]) (noLetter : 'n' ∉ [c]) : Regular [c] :=
    Json.regular_absent noQuote noLetter
  have status : Regular (member "status" (quoted "ok".toList)) :=
    (isField_text (by decide) _).regular
  have file : Regular (member "path" (quoted path)) := (isField_text (by decide) _).regular
  have key : Regular (Json.quoted "speed".toList) := Json.regular_quoted (body_plain (by decide))
  have comma := plain ',' (by decide) (by decide)
  have opened := ((plain '{' (by decide) (by decide)).append status).append comma
  have number := (key.append (plain ':' (by decide) (by decide))).append regular
  have before := (opened.append (file.append comma)).append number
  rintro ⟨ms, text, -⟩
  refine Json.not_text_append before (t := word ++ ['}']) ?_ ?_ (.object ms) ?_
  · rcases known with rfl | rfl <;> decide
  · rcases known with rfl | rfl <;> decide
  · simpa [echoed, okJson, member, field, braces, commas, printed] using text

/-! ## Every request -/

/-- The request starts a replay at this speed. -/
def StartsReplay (ext : Externals β) (request : List Char) (app : App β) (speed : Fp) : Prop :=
  ∃ req, objectBody request = some req ∧
    (req.find "cmd".toList).map JsonValue.asString = some "replay".toList ∧
    action req ≠ "stop".toList ∧ text req "path" ≠ [] ∧ speed = numberOr req "speed" 1 ∧
    (ext.pcapReplayStart (cString (text req "path")) speed
      (((req.find "loop".toList).map JsonValue.asBool).getD false) app).1 = none

theorem optionalBody_of_objectBody {body : List Char} {req : JsonValue}
    (object : objectBody body = some req) : optionalBody body = some req := by
  rw [objectBody, Option.filter_eq_some_iff] at object
  rw [optionalBody]
  split_ifs with empty
  · rw [empty] at object
    cases object.1
  · exact object.1

/-- A start that fails says so, and one that succeeds echoes the speed. -/
theorem apiReplayStart_cases (ext : Externals β) {request : List Char} {req : JsonValue}
    (object : objectBody request = some req)
    (cmd : (req.find "cmd".toList).map JsonValue.asString = some "replay".toList)
    (start : action req ≠ "stop".toList) (app : App β) :
    (IsReply (apiReplayStart ext request app).1.json ∧
        ∀ speed, ¬StartsReplay ext request app speed) ∨
      StartsReplay ext request app (numberOr req "speed" 1) ∧
        (apiReplayStart ext request app).1.json =
          echoed (text req "path") (numberOr req "speed" 1) := by
  have same {req' : JsonValue} (again : objectBody request = some req') : req' = req :=
    Option.some.inj (again.symm.trans object)
  simp only [apiReplayStart, optionalBody_of_objectBody object]
  by_cases noPath : text req "path" = []
  · left
    rw [if_pos noPath]
    refine ⟨isReply_failed _ _, ?_⟩
    rintro speed ⟨req', again, -, -, path, -⟩
    exact path (same again ▸ noPath)
  · rw [if_neg noPath]
    generalize started : ext.pcapReplayStart (cString (text req "path")) (numberOr req "speed" 1)
      (((req.find "loop".toList).map JsonValue.asBool).getD false) app = outcome
    obtain ⟨err, app'⟩ := outcome
    cases err with
    | some err =>
        left
        refine ⟨isReply_failed _ _, ?_⟩
        rintro speed ⟨req', again, -, -, -, rfl, success⟩
        obtain rfl := same again
        rw [started] at success
        cases success
    | none =>
        right
        exact ⟨⟨req, object, cmd, start, noPath, rfl, by rw [started]⟩, rfl⟩

/-- **The reply contract.**  The reply is a JSON object with the status ok or error, unless
the request starts a replay at a speed that is infinite or no number. -/
theorem dispatch_reply_iff (ext : Externals β) (request : List Char) (app : App β) :
    IsReply (controlDispatchJson ext request app).1 ↔
      ∀ speed, StartsReplay ext request app speed → ∃ q, speed = .finite q := by
  rw [controlDispatchJson]
  cases object : objectBody request with
  | none =>
      refine iff_of_true (isReply_errJson _) ?_
      rintro speed ⟨req, again, -⟩
      rw [object] at again
      cases again
  | some req =>
      dsimp only
      have same {req' : JsonValue} (again : objectBody request = some req') : req' = req :=
        Option.some.inj (again.symm.trans object)
      cases cmd : req.find "cmd".toList with
      | none =>
          refine iff_of_true (isReply_errJson _) ?_
          rintro speed ⟨req', again, named, -⟩
          rw [same again, cmd] at named
          cases named
      | some value =>
          by_cases replay : value.asString = "replay".toList ∧ action req ≠ "stop".toList
          · have named :
                (req.find "cmd".toList).map JsonValue.asString = some "replay".toList := by
              rw [cmd, Option.map_some, replay.1]
            dsimp only
            rw [replay.1, dispatch_replay ext request req app replay.2]
            rcases apiReplayStart_cases ext object named replay.2 app with
              ⟨isReply, none_⟩ | ⟨starts, echo⟩
            · exact iff_of_true isReply fun speed starts => absurd starts (none_ speed)
            · rw [replied, echo]
              constructor
              · rintro isReply speed ⟨req', again, -, -, -, rfl, -⟩
                rw [same again]
                by_contra odd
                exact not_isReply_echoed _ (fun q same => odd ⟨q, same⟩) isReply
              · intro finite
                obtain ⟨q, isFinite⟩ := finite _ starts
                rw [isFinite]
                exact isReply_echoed _ q
          · refine iff_of_true (isReply_dispatch ext request req value.asString app replay) ?_
            rintro speed ⟨req', again, named, start, -⟩
            rw [same again, cmd] at named
            exact absurd ⟨Option.some.inj named, same again ▸ start⟩ replay

/-- Everything off, nothing loaded. -/
def idleApp : App Unit where
  settings := Profiles.started fun _ => false
  affectedCount _ := 0
  profiles := []
  presets := []
  player := .initial
  capturing := false
  admin := true
  currentFilter := []
  currentProcess := []
  statusLine := "Idle.".toList
  captureStartTick := 0
  statsCapturedTotal := 0
  statsSentTotal := 0
  pcapPackets := 0
  pcapBytes := 0
  replayActive := false
  replaySent := 0
  replayFailed := 0
  bitsFlipped := 0
  latency := .initial
  pipeStopRequested := false
  quitRequested := false

/-- Nothing fails and nothing changes. -/
def willing : Externals Unit where
  now := 0
  appStartCapture _ _ app := (none, app)
  appStopCapture app := app
  readFile _ := none
  toLong _ := 0
  pcapExportStart _ _ _ app := (true, app)
  pcapExportStop app := app
  pcapReplayStart _ _ _ app := (none, app)
  pcapReplayStop app := app

/-- A speed beyond the doubles. -/
def fastReplay : List Char :=
  "\x7b\"cmd\":\"replay\",\"path\":\"in.pcap\",\"speed\":1e999\x7d".toList

/-- The reply carries `"speed":inf`. -/
theorem dispatch_replies_inf :
    ¬∀ (ext : Externals Unit) (request : List Char) (app : App Unit),
      IsReply (controlDispatchJson ext request app).1 := by
  intro claim
  have reply : (controlDispatchJson willing fastReplay idleApp).1 =
      echoed "in.pcap".toList (.infinite false) := by decide +kernel
  have isReply := claim willing fastReplay idleApp
  rw [reply] at isReply
  exact not_isReply_echoed "in.pcap".toList (fun q same => by cases same) isReply

end Clumsy.Control
