/-
# Control.Switching -- two ways to switch a module on

`apiSetModule` and the `set` command of the pipe ask the value itself whether it is true
(`JsonValue.asBool`); `apiApplyInline` makes a string of it and asks `parseBoolValue`.  The
flag they leave is the same just for the values with one meaning (`enabled_same_iff`): a
number other than zero is true for the first, and for the second only if it is printed as
`1`; words in capital letters are true for the second only.
-/
import Clumsy.Control.Dispatch
import Clumsy.Text.Significant
import Clumsy.Theory.LastWrite

namespace Clumsy.Control

open Clumsy.Theory
open Clumsy.Theory.Json (Tree Derives field braces isNumeral number_isNumeral)
open Clumsy.Modules
open Clumsy.Scenario (cString cString_of_free)
open Clumsy.Text
open Clumsy.Filter (stricmp)

set_option autoImplicit false

variable {β : Type}

def apiSetModule (shortName body : List Char) (app : App β) : Reply × App β :=
  match findModule shortName with
  | none => (failed 404 ("unknown module: ".toList ++ shortName), app)
  | some m =>
      match optionalBody body with
      | none => (malformed, app)
      | some req =>
          let r := applyModuleObject req m (applyEnabled req m app.settings)
          (ok ([member "module" (quoted shortName), member "applied" (numToStr r.applied),
              member "enabled" (boolText (r.settings.enabled m))] ++ unknownKeys r.unknown),
            { app with settings := r.settings })

/-! ## The requests -/

/-- The body sends the value as `enabled`. -/
def SendsEnabled (v : JsonValue) (body : List Char) : Prop :=
  ∃ req, jsonParse body = some req ∧ req.find "enabled".toList = some v

/-- The request is a `set` of the pipe and sends the value as `enabled` of the module. -/
def SetsEnabled (m : ModuleId) (v : JsonValue) (request : List Char) : Prop :=
  ∃ req, jsonParse request = some req ∧ req.str "cmd".toList [] = "set".toList ∧
    text req "module" = m.shortName ∧ req.find "enabled".toList = some v

/-- The body sends the value under the name of the module, and no other one behind it. -/
def SendsNamed (m : ModuleId) (v : JsonValue) (body : List Char) : Prop :=
  ∃ before after, jsonParse body = some (.object (before ++ (m.shortName, v) :: after)) ∧
    ∀ kv ∈ after, cString kv.1 ≠ m.shortName

theorem jsonParse_members {ms : List (List Char × Tree)} {s : List Char}
    (members : Derives (.members ms) s) (fits : memberHeights ms < MAX_DEPTH) :
    jsonParse (braces s) = some (.object (memberMeanings ms)) := by
  have object : Derives (.value (.object ms)) (braces s) := .object members
  have deep : height (.object ms) ≤ MAX_DEPTH := by
    simpa [height] using fits
  rw [jsonParse_text (Json.item_of_value object), if_pos deep]
  rfl

/-- A body with one member. -/
theorem jsonParse_member {key s : List Char} {t : Tree} (plain : isPlainText key = true)
    (value : Derives (.value t) s) (fits : height t < MAX_DEPTH) :
    jsonParse (braces (field key s)) = some (.object [(unescape key, meaning t)]) :=
  jsonParse_members (.lastMember (Json.derives_field (body_plain plain) value))
    (by simpa [memberHeights] using fits)

/-- What a text stands for can be sent as `enabled`. -/
theorem sendsEnabled_text {s : List Char} {t : Tree} (value : Derives (.value t) s)
    (fits : height t < MAX_DEPTH) :
    SendsEnabled (meaning t) (braces (field "enabled".toList s)) :=
  ⟨_, jsonParse_member (by decide) value fits, rfl⟩

/-- And under the name of a module. -/
theorem sendsNamed_text (m : ModuleId) {s : List Char} {t : Tree} (value : Derives (.value t) s)
    (fits : height t < MAX_DEPTH) :
    SendsNamed m (meaning t) (braces (field m.shortName s)) := by
  have name : unescape m.shortName = m.shortName := by
    cases m <;> rfl
  have plain : isPlainText m.shortName = true := by
    cases m <;> rfl
  refine ⟨[], [], ?_, List.forall_mem_nil _⟩
  rw [jsonParse_member plain value fits, name]
  rfl

/-! ## What they leave -/

theorem applyEach_settings (set : List Char → List Char → Settings β → Option (Settings β))
    (obj : List (List Char × JsonValue)) (s : Settings β) :
    (applyEach set obj s).settings =
      obj.foldl (fun s kv => (set (cString kv.1) (cString kv.2.asString) s).getD s) s := by
  symm
  rw [applyEach]
  let start : Applied β := { applied := 0, unknown := [], settings := s }
  change List.foldl _ start.settings obj = _
  apply List.foldl_hom Applied.settings
  intro r kv
  cases set (cString kv.1) (cString kv.2.asString) r.settings <;> rfl

/-- What a fold over the members leaves in a flag. -/
theorem applyEach_enabled {set : List Char → List Char → Settings β → Option (Settings β)}
    {m : ModuleId} {sets : List Char × JsonValue → Option Bool}
    (step : ∀ s kv, ((set (cString kv.1) (cString kv.2.asString) s).getD s).enabled m =
      (sets kv).getD (s.enabled m))
    (obj : List (List Char × JsonValue)) (s : Settings β) :
    (applyEach set obj s).settings.enabled m = (lastWrite sets obj).getD (s.enabled m) := by
  rw [applyEach_settings]
  exact @foldl_lastWrite _ _ _ _ (fun s : Settings β => s.enabled m) sets step obj s

/-- No parameter switches a module. -/
theorem applyModuleObject_enabled (req : JsonValue) (m : ModuleId) (s : Settings β) :
    (applyModuleObject req m s).settings.enabled m = s.enabled m := by
  have step (s : Settings β) (kv : List Char × JsonValue) :
      (((m.setParam s.enabled (cString kv.1) (cString kv.2.asString) s.mods).map fun mods =>
        { s with mods }).getD s).enabled m =
        (none : Option Bool).getD (s.enabled m) := by
    cases m.setParam s.enabled (cString kv.1) (cString kv.2.asString) s.mods <;> rfl
  rw [applyModuleObject, applyEach_enabled step, lastWrite_eq_none.2 fun _ _ => rfl]
  rfl

theorem findModule_shortName (m : ModuleId) : findModule m.shortName = some m := by
  cases m <;> rfl

/-- A module is switched under its own name only. -/
theorem applyModuleKV_enabled (m : ModuleId) (key value : List Char) (s : Settings β) :
    ((applyModuleKV key value s).getD s).enabled m =
      (if key = m.shortName then some (parseBoolValue value) else none).getD (s.enabled m) := by
  by_cases own : key = m.shortName
  · rw [own, applyModuleKV_shortName, if_pos rfl]
    exact Function.update_self ..
  · rw [if_neg own, applyModuleKV]
    cases found : modules.find? fun m' => m'.shortName == key with
    | some m' =>
        have other : m ≠ m' := by
          rintro rfl
          have named := List.find?_some found
          exact own (beq_iff_eq.1 named).symm
        exact Function.update_of_ne other ..
    | none =>
        simp only
        cases modules.findSome? fun m' => m'.setParam s.enabled key value s.mods <;> rfl

/-- `find` finds something in an object only. -/
theorem objectBody_of_find {body key : List Char} {req v : JsonValue}
    (parsed : jsonParse body = some req) (found : req.find key = some v) :
    objectBody body = some req := by
  cases req with
  | object obj => rw [objectBody, parsed]; rfl
  | _ => cases found

theorem apiSetModule_enabled {m : ModuleId} {v : JsonValue} {body : List Char}
    (sends : SendsEnabled v body) (app : App β) :
    (apiSetModule m.shortName body app).2.settings.enabled m = v.asBool := by
  obtain ⟨req, parsed, found⟩ := sends
  have read := optionalBody_of_objectBody (objectBody_of_find parsed found)
  rw [apiSetModule, findModule_shortName]
  simp only [read, applyModuleObject_enabled, applyEnabled, found]
  exact Function.update_self ..

theorem apiApplyInline_enabled {m : ModuleId} {v : JsonValue} {body : List Char}
    (sends : SendsNamed m v body) (app : App β) :
    (apiApplyInline body app).2.settings.enabled m = parseBoolValue (cString v.asString) := by
  obtain ⟨before, after, parsed, last⟩ := sends
  have read : objectBody body = some (.object (before ++ (m.shortName, v) :: after)) := by
    rw [objectBody, parsed]
    rfl
  have name : cString m.shortName = m.shortName := by
    cases m <;> rfl
  rw [apiApplyInline, read]
  simp only [members]
  rw [applyEach_enabled fun s kv => applyModuleKV_enabled m _ _ s, ← List.singleton_append,
    lastWrite_append, lastWrite_append, lastWrite_singleton,
    lastWrite_eq_none.2 fun kv member => if_neg (last kv member), name, if_pos rfl]
  rfl

theorem setCommand_enabled {m : ModuleId} {v req : JsonValue}
    (named : text req "module" = m.shortName) (found : req.find "enabled".toList = some v)
    (app : App β) : (setCommand req app).2.settings.enabled m = v.asBool := by
  have some : m.shortName ≠ [] := by
    cases m <;> decide
  rw [setCommand]
  simp only [named, some, if_false, findModule_shortName, applyModuleObject_enabled, applyEnabled,
    found]
  exact Function.update_self ..

theorem controlDispatchJson_enabled (ext : Externals β) {m : ModuleId} {v : JsonValue}
    {request : List Char} (sets : SetsEnabled m v request) (app : App β) :
    (controlDispatchJson ext request app).2.settings.enabled m = v.asBool := by
  obtain ⟨req, parsed, isSet, named, found⟩ := sets
  rw [JsonValue.str] at isSet
  rw [controlDispatchJson, objectBody_of_find parsed found]
  dsimp only
  cases cmd : req.find "cmd".toList with
  | none =>
      rw [cmd] at isSet
      cases isSet
  | some value =>
      rw [cmd] at isSet
      have isSet : value.asString = "set".toList := isSet
      dsimp only
      rw [isSet, dispatch, if_pos rfl]
      exact setCommand_enabled named found app

/-! ## What a value means -/

/-- True for the second way. -/
def Loose (s : List Char) : Prop :=
  s = "true".toList ∨ s = "1".toList ∨ stricmp s "on" = true ∨ stricmp s "yes" = true

/-- Both ways have the same idea of the value. -/
def OneMeaning : JsonValue → Prop
  | .number x => x = .finite 0 ∨ ∃ q, x = .finite q ∧ NextToOne q
  | .string s =>
      s ∈ ["true".toList, "1".toList, "on".toList, "yes".toList] ∨ ¬Loose (cString s)
  | _ => True

theorem parseBoolValue_iff {s : List Char} : parseBoolValue s = true ↔ Loose s := by
  simp [parseBoolValue, Loose, or_assoc]

theorem loose_words {s : List Char}
    (word : s ∈ ["true".toList, "1".toList, "on".toList, "yes".toList]) :
    Loose (cString s) := by
  simp only [List.mem_cons, List.not_mem_nil, or_false] at word
  rcases word with rfl | rfl | rfl | rfl
  · exact .inl rfl
  · exact .inr (.inl rfl)
  · exact .inr (.inr (.inl rfl))
  · exact .inr (.inr (.inr rfl))

theorem string_iff (s : List Char) :
    (JsonValue.string s).asBool = parseBoolValue (cString s) ↔ OneMeaning (.string s) := by
  have word : (JsonValue.string s).asBool = true ↔
      s ∈ ["true".toList, "1".toList, "on".toList, "yes".toList] := by
    simp [JsonValue.asBool, or_assoc]
  rw [OneMeaning, Bool.eq_iff_iff, word, parseBoolValue_iff]
  constructor
  · intro same
    rw [same]
    exact Classical.em _
  · rintro (isWord | notLoose)
    · exact iff_of_true isWord (loose_words isWord)
    · exact iff_of_false (fun isWord => notLoose (loose_words isWord)) notLoose

theorem toLower_numeral {c : Char} (numeral : isNumeral c = true) :
    isNumeral c.toLower = true := by
  rw [isNumeral, Bool.or_eq_true] at numeral
  rcases numeral with digit | sign
  · rw [toLower_digit digit, isNumeral, digit, Bool.true_or]
  · simp only [List.contains_cons, List.contains_nil, Bool.or_false, Bool.or_eq_true,
      beq_iff_eq] at sign
    rcases sign with rfl | rfl | rfl | rfl | rfl <;> decide

/-- No word is spelled with the characters of numbers. -/
theorem loose_numeral {s : List Char} (numeral : ∀ c ∈ s, isNumeral c = true) :
    Loose s ↔ s = ['1'] := by
  have noWord {kw : String} {c : Char} (first : c ∈ kw.toList.map Char.toLower)
      (letter : isNumeral c = false) : ¬stricmp s kw = true := by
    intro same
    rw [stricmp, beq_iff_eq] at same
    rw [← same] at first
    obtain ⟨d, member, rfl⟩ := List.mem_map.1 first
    rw [toLower_numeral (numeral d member)] at letter
    cases letter
  constructor
  · rintro (rfl | one | on | yes)
    · exact absurd (numeral 't' (by decide)) (by decide)
    · exact one
    · exact absurd on (noWord (c := 'o') (by decide) (by decide))
    · exact absurd yes (noWord (c := 'y') (by decide) (by decide))
  · intro one
    exact .inr (.inl one)

/-- A number is true for the second way if it is printed as `1`. -/
theorem loose_number (q : ℚ) :
    Loose (cString (numberText 6 (.finite q))) ↔ NextToOne q := by
  have numeral := number_isNumeral (number_numberText 6 q)
  have free : '\x00' ∉ numberText 6 (.finite q) := by
    intro member
    exact absurd (numeral _ member) (by decide)
  rw [cString_of_free free, loose_numeral numeral, numberText_one]
  simp

theorem number_iff (x : Fp) :
    (JsonValue.number x).asBool = parseBoolValue (cString (numberText 6 x)) ↔
      OneMeaning (.number x) := by
  rw [OneMeaning]
  cases x with
  | infinite negative => cases negative <;> exact iff_of_false (by decide) (by simp)
  | nan => exact iff_of_false (by decide) (by simp)
  | finite q =>
      have asBool : (JsonValue.number (.finite q)).asBool = true ↔ q ≠ 0 := by
        simp [JsonValue.asBool, Fp.eq]
      rw [Bool.eq_iff_iff, asBool, parseBoolValue_iff, loose_number]
      simp only [Fp.finite.injEq, exists_eq_left']
      have far (next : NextToOne q) : q ≠ 0 := by
        rintro rfl
        norm_num [NextToOne] at next
      constructor
      · intro same
        by_cases zero : q = 0
        · exact .inl zero
        · exact .inr (same.1 zero)
      · rintro (zero | next)
        · exact iff_of_false (fun nonzero => nonzero zero) fun next => far next zero
        · exact iff_of_true (far next) next

theorem asBool_iff (v : JsonValue) :
    v.asBool = parseBoolValue (cString v.asString) ↔ OneMeaning v := by
  cases v with
  | string s => exact string_iff s
  | number x => exact number_iff x
  | null => exact iff_of_true rfl trivial
  | bool b => cases b <;> exact iff_of_true rfl trivial
  | array items => exact iff_of_true rfl trivial
  | object obj => exact iff_of_true rfl trivial

/-- **One meaning of a boolean.**  Either way to switch a module by itself leaves its flag as
the way by its name does just if the value has one meaning. -/
theorem enabled_same_iff (ext : Externals β) {m : ModuleId} {v : JsonValue} {inline : List Char}
    (named : SendsNamed m v inline) (app : App β) :
    (∀ body, SendsEnabled v body →
      ((apiSetModule m.shortName body app).2.settings.enabled m =
        (apiApplyInline inline app).2.settings.enabled m ↔ OneMeaning v)) ∧
    ∀ request, SetsEnabled m v request →
      ((controlDispatchJson ext request app).2.settings.enabled m =
        (apiApplyInline inline app).2.settings.enabled m ↔ OneMeaning v) := by
  rw [apiApplyInline_enabled named]
  constructor
  · intro body sends
    rw [apiSetModule_enabled sends]
    exact asBool_iff v
  · intro request sets
    rw [controlDispatchJson_enabled ext sets]
    exact asBool_iff v

/-- A `true` both ways. -/
theorem enabled_same_true :
    (apiSetModule "lag".toList (braces (field "enabled".toList "true".toList))
        idleApp).2.settings.enabled .lag =
      (apiApplyInline (braces (field "lag".toList "true".toList))
        idleApp).2.settings.enabled .lag := by
  have value : Derives (.value (.bool true)) "true".toList := .bool true
  have named : SendsNamed .lag (.bool true) (braces (field "lag".toList "true".toList)) :=
    sendsNamed_text .lag value (by decide)
  have sends : SendsEnabled (.bool true) (braces (field "enabled".toList "true".toList)) :=
    sendsEnabled_text value (by decide)
  exact ((enabled_same_iff willing named idleApp).1 _ sends).2 trivial

/-- **Two meanings**: a `2` switches the module on by itself and off by its name. -/
theorem enabled_differs :
    SendsEnabled (.number (atof ['2'])) (braces (field "enabled".toList ['2'])) ∧
      SendsNamed .lag (.number (atof ['2'])) (braces (field "lag".toList ['2'])) ∧
      (apiSetModule "lag".toList (braces (field "enabled".toList ['2']))
        idleApp).2.settings.enabled .lag = true ∧
      (apiApplyInline (braces (field "lag".toList ['2'])) idleApp).2.settings.enabled .lag =
        false := by
  have value : Derives (.value (.number ['2'])) ['2'] := .number (number_decimal 2)
  have sends : SendsEnabled (.number (atof ['2'])) (braces (field "enabled".toList ['2'])) :=
    sendsEnabled_text value (by decide)
  have named : SendsNamed .lag (.number (atof ['2'])) (braces (field "lag".toList ['2'])) :=
    sendsNamed_text .lag value (by decide)
  have two : atof ['2'] = .finite 2 := by decide +kernel
  refine ⟨sends, named, ?_, ?_⟩
  · rw [show "lag".toList = ModuleId.shortName .lag from rfl, apiSetModule_enabled sends, two]
    rfl
  · rw [apiApplyInline_enabled named, two]
    decide +kernel

end Clumsy.Control
