/-
# Control.Transports -- one object over the pipe and over HTTP

Over HTTP the path tells what to do with an object of parameters, over the pipe its members
`cmd` and `module` do.  `applyModuleObject` leaves these out, `apiApplyInline` does not: it
takes `cmd` for a parameter that no module knows.  The settings are the same over both
(`set_states`), the replies to `apply` never are (`transports_apart`).
-/
import Clumsy.Control.Switching

namespace Clumsy.Control

open Clumsy.Theory
open Clumsy.Modules
open Clumsy.Scenario (cString cString_of_free)
open Clumsy.Text

set_option autoImplicit false

variable {β : Type}

/-! ## Objects and envelopes -/

/-- The members of an object. -/
abbrev Members : Type := List (List Char × JsonValue)

def isMeta (kv : List Char × JsonValue) : Bool := metaKeys.contains kv.1

/-- The body is an object of parameters. -/
def IsBare (obj : Members) (body : List Char) : Prop :=
  jsonParse body = some (.object obj) ∧ ∀ kv ∈ obj, isMeta kv = false

/-- The request is the same object with the members of the envelope somewhere among it. -/
def Wraps (envelope obj : Members) (request : List Char) : Prop :=
  ∃ all, jsonParse request = some (.object all) ∧
    all.filter (fun kv => !isMeta kv) = obj ∧ (all.filter isMeta).Perm envelope

def applyEnvelope : Members := [("cmd".toList, .string "apply".toList)]

def setEnvelope (modName : List Char) : Members :=
  [("cmd".toList, .string "set".toList), ("module".toList, .string modName)]

theorem objectBody_object {body : List Char} {obj : Members}
    (parsed : jsonParse body = some (.object obj)) : objectBody body = some (.object obj) := by
  rw [objectBody, parsed]
  rfl

/-- The first member of a name is the only one. -/
theorem lookup_of_only {key : List Char} {v : JsonValue} {all : Members} (inside : (key, v) ∈ all)
    (only : ∀ v', (key, v') ∈ all → v' = v) : all.lookup key = some v := by
  induction all with
  | nil => cases inside
  | cons kv all ih =>
      rw [List.lookup_cons]
      by_cases here : key = kv.1
      · rw [beq_iff_eq.2 here, only kv.2 (here ▸ List.mem_cons_self)]
      · rw [beq_false_of_ne here]
        refine ih ?_ fun v' later => only v' (List.mem_cons_of_mem _ later)
        rcases List.mem_cons.1 inside with same | later
        · exact absurd (congrArg Prod.fst same) here
        · exact later

section Envelope

variable {envelope all : Members} {key : List Char} (known : key ∈ metaKeys)
  (wraps : (all.filter isMeta).Perm envelope)

include known wraps

/-- The members of a known name are those of the envelope. -/
theorem mem_envelope (v : JsonValue) : (key, v) ∈ all ↔ (key, v) ∈ envelope := by
  rw [← wraps.mem_iff, List.mem_filter, isMeta, List.contains_iff_mem]
  exact (and_iff_left known).symm

theorem find_envelope {v : JsonValue} (inside : (key, v) ∈ envelope)
    (only : ∀ v', (key, v') ∈ envelope → v' = v) : (JsonValue.object all).find key = some v :=
  lookup_of_only ((mem_envelope known wraps v).2 inside) fun v' member =>
    only v' ((mem_envelope known wraps v').1 member)

theorem find_none_envelope (absent : ∀ v, (key, v) ∉ envelope) :
    (JsonValue.object all).find key = none := by
  refine List.lookup_eq_none_iff.2 fun kv member => ?_
  by_contra same
  rw [bne_iff_ne, not_not] at same
  exact absent kv.2 ((mem_envelope known wraps kv.2).1 (same ▸ member))

end Envelope

/-! ## Parameters -/

/-- One member. -/
def applyOne (set : List Char → List Char → Settings β → Option (Settings β)) (r : Applied β)
    (kv : List Char × JsonValue) : Applied β :=
  match set (cString kv.1) (cString kv.2.asString) r.settings with
  | some settings => { r with applied := r.applied + 1, settings }
  | none => { r with unknown := (if r.unknown = [] then [] else r.unknown ++ [',']) ++ kv.1 }

theorem applyEach_eq (set : List Char → List Char → Settings β → Option (Settings β))
    (obj : Members) (s : Settings β) :
    applyEach set obj s =
      obj.foldl (applyOne set) { applied := 0, unknown := [], settings := s } := rfl

/-- The same but for a longer list of unknown keys, as it is printed. -/
structure Longer (r r' : Applied β) : Prop where
  applied  : r'.applied = r.applied
  settings : r'.settings = r.settings
  unknown  : (jsonEscape r.unknown).length < (jsonEscape r'.unknown).length

theorem jsonEscape_append (s t : List Char) :
    jsonEscape (s ++ t) = jsonEscape s ++ jsonEscape t := List.flatMap_append

/-- A key that is printed makes the list longer. -/
theorem longer_unknown {set : List Char → List Char → Settings β → Option (Settings β)}
    {r : Applied β} {kv : List Char × JsonValue}
    (unknown : set (cString kv.1) (cString kv.2.asString) r.settings = none)
    (printed : 0 < (jsonEscape kv.1).length) : Longer r (applyOne set r kv) := by
  rw [applyOne, unknown]
  refine ⟨rfl, rfl, ?_⟩
  show _ < (jsonEscape (_ ++ kv.1)).length
  rw [jsonEscape_append, List.length_append]
  split_ifs with first
  · rw [first]
    exact Nat.lt_add_left _ printed
  · rw [jsonEscape_append, List.length_append]
    omega

/-- What comes after does not make up for it. -/
theorem longer_applyOne {set : List Char → List Char → Settings β → Option (Settings β)}
    {r r' : Applied β} (longer : Longer r r') (kv : List Char × JsonValue) :
    Longer (applyOne set r kv) (applyOne set r' kv) := by
  obtain ⟨applied, settings, unknown⟩ := longer
  have some' : r'.unknown ≠ [] := by
    intro none'
    rw [none'] at unknown
    exact absurd unknown (Nat.not_lt_zero _)
  rw [applyOne, applyOne, settings]
  cases set (cString kv.1) (cString kv.2.asString) r.settings with
  | some s => exact ⟨congrArg (· + 1) applied, rfl, unknown⟩
  | none =>
      refine ⟨applied, rfl, ?_⟩
      show (jsonEscape (_ ++ kv.1)).length < (jsonEscape (_ ++ kv.1)).length
      rw [if_neg some', jsonEscape_append, jsonEscape_append, jsonEscape_append,
        List.length_append, List.length_append, List.length_append]
      split_ifs with first
      · have comma : (jsonEscape []).length = 0 := rfl
        rw [first] at unknown
        omega
      · rw [jsonEscape_append, List.length_append]
        omega

theorem longer_foldl {set : List Char → List Char → Settings β → Option (Settings β)}
    {r r' : Applied β} (longer : Longer r r') (obj : Members) :
    Longer (obj.foldl (applyOne set) r) (obj.foldl (applyOne set) r') := by
  induction obj generalizing r r' with
  | nil => exact longer
  | cons kv obj ih => exact ih (longer_applyOne longer kv)

/-- No module knows `cmd`. -/
theorem applyModuleKV_cmd (value : List Char) (s : Settings β) :
    applyModuleKV "cmd".toList value s = none := by
  have noName : (modules.find? fun m => m.shortName == "cmd".toList) = none := by decide
  have noKey : ∀ m : ModuleId, "cmd".toList ∉ m.keys := by
    intro m
    cases m <;> decide
  rw [applyModuleKV, noName]
  simp only [Option.map_eq_none_iff, List.findSome?_eq_none_iff]
  intro m _
  rw [ModuleId.setParam, ModuleId.readParam_eq_none value (noKey m)]
  rfl

/-- The pipe's `apply` applies what the object tells, and finds one unknown key more. -/
theorem longer_apply {all obj : Members}
    (bare : all.filter (fun kv => !isMeta kv) = obj)
    (wraps : (all.filter isMeta).Perm applyEnvelope) (s : Settings β) :
    Longer (applyEach applyModuleKV obj s) (applyEach applyModuleKV all s) := by
  obtain ⟨before, after, rfl, noMeta, -, rest⟩ :=
    List.filter_eq_cons_iff.1 (List.perm_singleton.1 wraps)
  have keptBefore : before.filter (fun kv => !isMeta kv) = before :=
    List.filter_eq_self.2 fun kv member => by simpa using noMeta kv member
  have keptAfter : after.filter (fun kv => !isMeta kv) = after :=
    List.filter_eq_self.2 fun kv member => by simpa using List.filter_eq_nil_iff.1 rest kv member
  rw [List.filter_append, List.filter_cons_of_neg (by decide), keptBefore, keptAfter] at bare
  rw [← bare, applyEach_eq, applyEach_eq, List.foldl_append, List.foldl_append, List.foldl_cons]
  apply longer_foldl
  exact longer_unknown (applyModuleKV_cmd _ _) (by decide)

/-! ## Replies -/

/-- How `apiApplyInline` tells what it did. -/
def appliedReply (r : Applied β) : List Char :=
  okJson (member "applied" (numToStr r.applied) :: unknownKeys r.unknown)

theorem appliedReply_longer {r r' : Applied β} (longer : Longer r r') :
    (appliedReply r).length < (appliedReply r').length := by
  obtain ⟨applied, -, unknown⟩ := longer
  have some' : r'.unknown ≠ [] := by
    intro none'
    rw [none'] at unknown
    exact absurd unknown (Nat.not_lt_zero _)
  rw [appliedReply, appliedReply, applied, unknownKeys, unknownKeys, if_neg some']
  split_ifs with first
  · simp [okJson, Json.commas, Json.braces]
  · simpa [okJson, Json.commas, Json.braces, member, Json.field, quoted, Json.quoted] using unknown

/-! ## A delay for the lag module -/

/-- A member with a string in it. -/
def textField (key value : String) : List Char := member key (Json.quoted value.toList)

theorem derives_textField (key value : String) (plain : isPlainText key.toList = true)
    (plain' : isPlainText value.toList = true) :
    Json.Derives (.pair key.toList (.string value.toList)) (textField key value) :=
  Json.derives_field (body_plain plain) (.string (body_plain plain'))

def lagTime : Members := [("lag-time".toList, .string "50".toList)]

def lagTimeBody : List Char := Json.braces (textField "lag-time" "50")

theorem isBare_lagTime : IsBare lagTime lagTimeBody := by
  have derives := derives_textField "lag-time" "50" (by decide) (by decide)
  refine ⟨jsonParse_members (.lastMember derives) (by decide), ?_⟩
  decide

/-- With the command in front. -/
def applyLagTime : List Char :=
  Json.braces (Json.commas [textField "cmd" "apply", textField "lag-time" "50"])

theorem wraps_applyLagTime : Wraps applyEnvelope lagTime applyLagTime := by
  have cmd := derives_textField "cmd" "apply" (by decide) (by decide)
  have time := derives_textField "lag-time" "50" (by decide) (by decide)
  refine ⟨_, jsonParse_members (.member cmd (.lastMember time)) (by decide), rfl, ?_⟩
  exact List.Perm.refl _

def setLagTime : List Char :=
  Json.braces (Json.commas
    [textField "lag-time" "50", textField "module" "lag", textField "cmd" "set"])

theorem wraps_setLagTime : Wraps (setEnvelope "lag".toList) lagTime setLagTime := by
  have time := derives_textField "lag-time" "50" (by decide) (by decide)
  have module := derives_textField "module" "lag" (by decide) (by decide)
  have cmd := derives_textField "cmd" "set" (by decide) (by decide)
  refine ⟨_, jsonParse_members (.member time (.member module (.lastMember cmd))) (by decide),
    rfl, ?_⟩
  exact List.Perm.swap _ _ _

/-! ## The transports -/

theorem controlDispatchJson_cmd (ext : Externals β) {request : List Char} {all : Members}
    {cmd : List Char} (parsed : jsonParse request = some (.object all))
    (found : (JsonValue.object all).find "cmd".toList = some (.string cmd)) (app : App β) :
    controlDispatchJson ext request app = dispatch ext request (.object all) cmd app := by
  rw [controlDispatchJson, objectBody_object parsed]
  dsimp only
  rw [found]
  rfl

/-- The `apply` of the pipe. -/
theorem controlDispatchJson_apply (ext : Externals β) {obj : Members} {request : List Char}
    (wraps : Wraps applyEnvelope obj request) (app : App β) :
    controlDispatchJson ext request app = replied (apiApplyInline request app) := by
  obtain ⟨all, parsed, -, envelope⟩ := wraps
  have found : (JsonValue.object all).find "cmd".toList = some (.string "apply".toList) := by
    refine find_envelope (by decide) envelope List.mem_cons_self fun v member => ?_
    exact congrArg Prod.snd (List.mem_singleton.1 member)
  rw [controlDispatchJson_cmd ext parsed found]
  simp [dispatch]

theorem apiApplyInline_object {body : List Char} {obj : Members}
    (parsed : jsonParse body = some (.object obj)) (app : App β) :
    replied (apiApplyInline body app) =
      (appliedReply (applyEach applyModuleKV obj app.settings),
        { app with settings := (applyEach applyModuleKV obj app.settings).settings }) := by
  rw [apiApplyInline, objectBody_object parsed]
  rfl

/-- `apply` over the pipe and over HTTP: one state, two replies. -/
theorem apply_apart (ext : Externals β) {obj : Members} {body request : List Char}
    (bare : IsBare obj body) (wraps : Wraps applyEnvelope obj request) (app : App β) :
    (controlDispatchJson ext request app).2 = (apiApplyInline body app).2 ∧
      (controlDispatchJson ext request app).1 ≠ (apiApplyInline body app).1.json := by
  rw [controlDispatchJson_apply ext wraps]
  obtain ⟨all, parsed, rest, envelope⟩ := wraps
  have longer := longer_apply rest envelope app.settings
  have posted := apiApplyInline_object bare.1 app
  have states : (apiApplyInline body app).2 =
      { app with settings := (applyEach applyModuleKV obj app.settings).settings } :=
    congrArg Prod.snd posted
  have replies : (apiApplyInline body app).1.json =
      appliedReply (applyEach applyModuleKV obj app.settings) := congrArg Prod.fst posted
  rw [apiApplyInline_object parsed, states, replies, longer.settings]
  refine ⟨rfl, ?_⟩
  intro same
  exact absurd (congrArg List.length same) (Nat.ne_of_gt (appliedReply_longer longer))

/-- `set` over the pipe and over HTTP: one state. -/
theorem set_states (ext : Externals β) {obj : Members} {modName body request : List Char}
    (bare : IsBare obj body) (wraps : Wraps (setEnvelope modName) obj request) (app : App β) :
    (controlDispatchJson ext request app).2 = (apiSetModule modName body app).2 := by
  obtain ⟨all, parsed, rest, envelope⟩ := wraps
  have cmd : (JsonValue.object all).find "cmd".toList = some (.string "set".toList) := by
    refine find_envelope (by decide) envelope List.mem_cons_self fun v member => ?_
    simpa [setEnvelope] using member
  have module : (JsonValue.object all).find "module".toList = some (.string modName) := by
    refine find_envelope (by decide) envelope (by simp [setEnvelope]) fun v member => ?_
    simpa [setEnvelope] using member
  have enabled : (JsonValue.object all).find "enabled".toList = none :=
    find_none_envelope (by decide) envelope fun v => by simp [setEnvelope]
  have notEnabled : (JsonValue.object obj).find "enabled".toList = none := by
    refine List.lookup_eq_none_iff.2 fun kv member => ?_
    by_contra same
    rw [bne_iff_ne, not_not] at same
    have noMeta := bare.2 kv member
    rw [isMeta, ← same] at noMeta
    cases noMeta
  have params : obj.filter (fun kv => !metaKeys.contains kv.1) =
      all.filter (fun kv => !metaKeys.contains kv.1) := by
    rw [show all.filter (fun kv => !metaKeys.contains kv.1) = obj from rest]
    exact List.filter_eq_self.2 fun kv member => by simpa [isMeta] using bare.2 kv member
  have named : text (.object all) "module" = modName := by
    rw [text, JsonValue.str, module]
    rfl
  have read := optionalBody_of_objectBody (objectBody_object bare.1)
  rw [controlDispatchJson_cmd ext parsed cmd, dispatch, if_pos rfl, setCommand, named,
    apiSetModule]
  by_cases unnamed : modName = []
  · rw [if_pos unnamed, unnamed]
    rfl
  · rw [if_neg unnamed]
    cases findModule modName with
    | none => rfl
    | some m =>
        simp only [read, applyEnabled, enabled, notEnabled, applyModuleObject, members, params]

/-- **The transports drift**: whatever the object, both transports leave the same settings, and
they never give the same reply to `apply`. -/
theorem transports_apart (ext : Externals β) {obj : Members} {body : List Char}
    (bare : IsBare obj body) (app : App β) :
    (∀ request, Wraps applyEnvelope obj request →
      (controlDispatchJson ext request app).2 = (apiApplyInline body app).2 ∧
        (controlDispatchJson ext request app).1 ≠ (apiApplyInline body app).1.json) ∧
    ∀ modName request, Wraps (setEnvelope modName) obj request →
      (controlDispatchJson ext request app).2 = (apiSetModule modName body app).2 :=
  ⟨fun _ wraps => apply_apart ext bare wraps app, fun _ _ wraps => set_states ext bare wraps app⟩

/-- The delay over both transports. -/
theorem transports_apart_lagTime :
    (controlDispatchJson willing setLagTime idleApp).2 =
      (apiSetModule "lag".toList lagTimeBody idleApp).2 :=
  (transports_apart willing isBare_lagTime idleApp).2 _ _ wraps_setLagTime

/-- **Two replies**: the pipe has `cmd` among the unknown keys. -/
theorem apply_replies_differ :
    IsBare lagTime lagTimeBody ∧ Wraps applyEnvelope lagTime applyLagTime ∧
      (controlDispatchJson willing applyLagTime idleApp).1 =
        okJson [member "applied" ['1'], member "unknownKeys" (Json.quoted "cmd".toList)] ∧
      (apiApplyInline lagTimeBody idleApp).1.json = okJson [member "applied" ['1']] ∧
      (controlDispatchJson willing applyLagTime idleApp).1 ≠
        (apiApplyInline lagTimeBody idleApp).1.json := by
  have piped : (controlDispatchJson willing applyLagTime idleApp).1 =
      okJson [member "applied" ['1'], member "unknownKeys" (Json.quoted "cmd".toList)] := by
    decide +kernel
  have posted : (apiApplyInline lagTimeBody idleApp).1.json =
      okJson [member "applied" ['1']] := by
    decide +kernel
  refine ⟨isBare_lagTime, wraps_applyLagTime, piped, posted, ?_⟩
  rw [piped, posted]
  decide

end Clumsy.Control
