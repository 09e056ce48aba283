/-
# Presets.Config -- main.cpp: the filter presets and config.json

`appPresetSave` puts a preset into the list and writes the whole list to `config.json`;
`loadConfigJson` reads it back.  The reader does not parse JSON: it counts brackets and braces
and takes what stands between two quotes, whatever is escaped in there.
-/
import Clumsy.Http.Request
import Clumsy.Theory.Keyed
import Clumsy.Theory.Matching

namespace Clumsy.Presets

open Clumsy.Http (cut)
open Clumsy.Scenario (cString)
open Clumsy.Theory.Matching (upTo)

set_option autoImplicit false

def CONFIG_MAX_RECORDS : Nat := 64
def CONFIG_BUF_SIZE : Nat := 8192
def PRESET_NAME_SIZE : Nat := 64
def FILTER_BUFSIZE : Nat := 1024

/-! ## The list -/

/-- A preset in its two stores. -/
@[ext] structure FilterRecord where
  name       : List Char
  filter     : List Char
  nameFits   : name.length < PRESET_NAME_SIZE
  filterFits : filter.length < FILTER_BUFSIZE
  deriving DecidableEq

/-- `filters` up to `filtersSize`. -/
@[ext] structure PresetList where
  filters : List FilterRecord
  few     : filters.length ≤ CONFIG_MAX_RECORDS
  deriving DecidableEq

theorem length_take_lt (size : Nat) (positive : 0 < size) (s : List Char) :
    (s.take (size - 1)).length < size := by
  rw [List.length_take]
  omega

/-- The two copies of `addPreset`. -/
def FilterRecord.copy (name filter : List Char) : FilterRecord where
  name := name.take (PRESET_NAME_SIZE - 1)
  filter := filter.take (FILTER_BUFSIZE - 1)
  nameFits := length_take_lt _ (Nat.succ_pos 63) name
  filterFits := length_take_lt _ (Nat.succ_pos 1023) filter

def FilterRecord.setFilter (filter : List Char) (record : FilterRecord) : FilterRecord :=
  { record with
    filter := filter.take (FILTER_BUFSIZE - 1)
    filterFits := length_take_lt _ (Nat.succ_pos 1023) filter }

def addPreset (name filter : List Char) (presets : PresetList) : PresetList :=
  if room : presets.filters.length < CONFIG_MAX_RECORDS then
    { filters := presets.filters ++ [.copy name filter]
      few := by
        rw [List.length_append]
        exact room }
  else presets

/-! ## Reading -/

/-- What stands between the next two quotes, and what stands behind them. -/
def quotedText (s : List Char) : Option (List Char × List Char) :=
  match s.dropWhile (· != '"') with
  | [] => none
  | _ :: s =>
      match s.dropWhile (· != '"') with
      | [] => none
      | _ :: rest => some (s.takeWhile (· != '"'), rest)

/-- The last `name` and the last `filter` of an object.  A round takes four quotes, so as many
rounds as there are characters are enough. -/
def readPairs : Nat → List Char → Option (List Char) × Option (List Char) →
    Option (List Char) × Option (List Char)
  | 0, _, found => found
  | fuel + 1, s, found =>
      match quotedText s with
      | none => found
      | some (key, s) =>
          match quotedText s with
          | none => found
          | some (value, s) =>
              readPairs fuel s
                (if key = "name".toList then (some value, found.2)
                else if key = "filter".toList then (found.1, some value)
                else found)

/-- The objects of the array, its closing bracket included.  The object is looked at without
the last character of its text. -/
def readObjects : Nat → List Char → PresetList → PresetList
  | 0, _, presets => presets
  | fuel + 1, s, presets =>
      if presets.filters.length < CONFIG_MAX_RECORDS then
        match s.dropWhile fun c => c != '\x7b' && c != ']' with
        | '\x7b' :: s =>
            let (object, rest) := upTo '\x7b' '\x7d' 1 s
            let presets :=
              match readPairs object.length object.dropLast (none, none) with
              | (some name, some filter) => addPreset name filter presets
              | _ => presets
            readObjects fuel rest presets
        | _ => presets
      else presets

/-- What can be read of the file is all that is looked at, up to its first zero byte. -/
def loadConfigJson (file : Option (List Char)) (presets : PresetList) : Bool × PresetList :=
  match file with
  | none => (false, presets)
  | some content =>
      let buf := content.take CONFIG_BUF_SIZE
      if buf = [] then (false, presets)
      else
        match cut "\"filters\"".toList (cString buf) with
        | none => (false, presets)
        | some (_, s) =>
            match cut ['['] s with
            | none => (false, presets)
            | some (_, s) =>
                let array := (upTo '[' ']' 1 s).1
                let read := readObjects array.length array ⟨[], Nat.zero_le _⟩
                (decide (0 < read.filters.length), read)

/-! ## Writing -/

/-- The loop of `jsonEscapeInto` with `i` characters written. -/
def escapeFrom (dstSize : Nat) : Nat → List Char → List Char
  | _, [] => []
  | i, c :: s =>
      if i < dstSize - 2 then
        if c = '"' ∨ c = '\\' then '\\' :: c :: escapeFrom dstSize (i + 2) s
        else if c.toNat < 0x20 then ' ' :: escapeFrom dstSize (i + 1) s
        else c :: escapeFrom dstSize (i + 1) s
      else []

def jsonEscapeInto (src : List Char) (dstSize : Nat) : List Char := escapeFrom dstSize 0 src

def recordText (record : FilterRecord) (comma : List Char) : List Char :=
  "    \x7b \"name\": \"".toList ++ jsonEscapeInto record.name (PRESET_NAME_SIZE * 2) ++
    "\", \"filter\": \"".toList ++ jsonEscapeInto record.filter (FILTER_BUFSIZE * 2) ++
      "\" \x7d".toList ++ comma ++ ['\n']

def recordTexts : List FilterRecord → List Char
  | [] => []
  | [record] => recordText record []
  | record :: records => recordText record [','] ++ recordTexts records

/-- What is written to `config.json`. -/
def configText (records : List FilterRecord) : List Char :=
  "\x7b\n  \"filters\": [\n".toList ++ recordTexts records ++ "  ]\n\x7d\n".toList

/-- A call: its two texts and whether `config.json` opens for writing. -/
structure Save where
  name   : List Char
  filter : List Char
  opens  : Bool

/-- What it returns, the list behind it and what it wrote. -/
structure Saved where
  returns : Bool
  presets : PresetList
  written : Option (List Char)

/-- The list with the preset, if it has one of that name or room for another one. -/
def storePreset (name filter : List Char) (presets : PresetList) : Option PresetList :=
  match presets.filters.findIdx? fun record => record.name == name with
  | some i =>
      some
        { filters := presets.filters.modify i (.setFilter filter)
          few := by
            rw [List.length_modify]
            exact presets.few }
  | none =>
      if CONFIG_MAX_RECORDS ≤ presets.filters.length then none
      else some (addPreset name filter presets)

def appPresetSave (save : Save) (presets : PresetList) : Saved :=
  if save.name = [] ∨ save.filter = [] then { returns := false, presets, written := none }
  else
    match storePreset save.name save.filter presets with
    | none => { returns := false, presets, written := none }
    | some presets =>
        if save.opens then
          { returns := true, presets, written := some (configText presets.filters) }
        else { returns := false, presets, written := none }

end Clumsy.Presets
