/-
# Presets.Persist -- main.cpp: what is read back of config.json

A preset comes back if its texts hold nothing that the writer changes or the reader counts.
What is short enough besides is read back whole and in order (`loadConfigJson_configText`), so
along calls that put only such presets in, and whose file opens, file and list agree
(`saves_persist`).
-/
import Clumsy.Presets.Config
import Clumsy.Theory.Run

namespace Clumsy.Presets

open Clumsy.Http (cut)
open Clumsy.Scenario (cString cString_of_free)
open Clumsy.Theory
open Clumsy.Theory.Matching (upTo depth step)

set_option autoImplicit false

/-! ## Escaping -/

def escape (c : Char) : List Char :=
  if c = '"' ∨ c = '\\' then ['\\', c] else if c.toNat < 0x20 then [' '] else [c]

def escaped (s : List Char) : List Char := s.flatMap escape

/-- Both buffers of `appPresetSave` are long enough. -/
theorem escapeFrom_eq {dstSize i : Nat} {s : List Char} (room : i + 2 * s.length < dstSize) :
    escapeFrom dstSize i s = escaped s := by
  induction s generalizing i with
  | nil => rfl
  | cons c s ih =>
      rw [List.length_cons] at room
      rw [escapeFrom, if_pos (by omega), escaped, List.flatMap_cons, escape]
      split_ifs
      · rw [ih (by omega)]
        rfl
      · rw [ih (by omega)]
        rfl
      · rw [ih (by omega)]
        rfl

/-- A text that comes back out of a store of this size. -/
structure Plain (size : Nat) (s : List Char) : Prop where
  noQuote   : '"' ∉ s
  noControl : ∀ c ∈ s, 0x20 ≤ c.toNat
  /-- A backslash is doubled, which only the end of the store undoes. -/
  filled    : '\\' ∈ s → s.length = size - 1 ∧ ∀ c ∈ s.dropWhile (· != '\\'), c = '\\'

instance (size : Nat) (s : List Char) : Decidable (Plain size s) :=
  decidable_of_iff ('"' ∉ s ∧ (s.all fun c => decide (0x20 ≤ c.toNat)) = true ∧
      ('\\' ∈ s → s.length = size - 1 ∧ ∀ c ∈ s.dropWhile (· != '\\'), c = '\\'))
    ⟨fun ⟨noQuote, noControl, filled⟩ => { noQuote, noControl := by simpa using noControl, filled },
      fun plain => ⟨plain.noQuote, by simpa using plain.noControl, plain.filled⟩⟩

theorem escaped_other {s : List Char} (noQuote : '"' ∉ s) (noSlash : '\\' ∉ s)
    (noControl : ∀ c ∈ s, 0x20 ≤ c.toNat) : escaped s = s := by
  induction s with
  | nil => rfl
  | cons c s ih =>
      rw [List.mem_cons, not_or] at noQuote noSlash
      have control := noControl c List.mem_cons_self
      have other : ¬(c = '"' ∨ c = '\\') :=
        not_or.2 ⟨Ne.symm noQuote.1, Ne.symm noSlash.1⟩
      rw [escaped, List.flatMap_cons, escape, if_neg other, if_neg (not_lt.2 control)]
      exact congrArg (c :: ·)
        (ih noQuote.2 noSlash.2 fun d member => noControl d (List.mem_cons_of_mem _ member))

theorem escaped_slashes (n : Nat) :
    escaped (List.replicate n '\\') = List.replicate (2 * n) '\\' := by
  induction n with
  | zero => rfl
  | succ n ih =>
      rw [List.replicate_succ, escaped, List.flatMap_cons]
      show '\\' :: '\\' :: escaped (List.replicate n '\\') = _
      rw [ih]
      rfl

theorem take_escaped {size : Nat} {s : List Char} (plain : Plain size s)
    (fits : s.length < size) : (escaped s).take (size - 1) = s := by
  by_cases slash : '\\' ∈ s
  · obtain ⟨full, slashes⟩ := plain.filled slash
    have split := List.takeWhile_append_dropWhile (p := (· != '\\')) (l := s)
    have tail : s.dropWhile (· != '\\') =
        List.replicate (s.dropWhile (· != '\\')).length '\\' :=
      List.eq_replicate_of_mem slashes
    have front : escaped (s.takeWhile (· != '\\')) = s.takeWhile (· != '\\') := by
      refine escaped_other (fun member => plain.noQuote (List.takeWhile_subset _ member)) ?_
        fun c member => plain.noControl c (List.takeWhile_subset _ member)
      intro member
      simpa using List.mem_takeWhile_imp member
    have lengths := congrArg List.length split
    rw [List.length_append] at lengths
    have whole : escaped s = s.takeWhile (· != '\\') ++
        List.replicate (2 * (s.dropWhile (· != '\\')).length) '\\' := by
      rw [← escaped_slashes, ← tail]
      conv_lhs => rw [← split, escaped, List.flatMap_append]
      rw [← escaped, ← escaped, front]
    rw [whole, List.take_append, List.take_of_length_le (by omega), List.take_replicate,
      Nat.min_eq_left (by omega), ← full]
    conv_rhs => rw [← split, tail]
    congr 2
    omega
  · rw [escaped_other plain.noQuote slash plain.noControl]
    exact List.take_of_length_le (by omega)

/-- What is escaped has no quotes but those of the text. -/
theorem not_mem_escaped {d : Char} {s : List Char} (absent : d ∉ s) (noSlash : d ≠ '\\')
    (noSpace : d ≠ ' ') : d ∉ escaped s := by
  rw [escaped, List.mem_flatMap]
  rintro ⟨c, member, inside⟩
  have other : d ≠ c := fun same => absent (same ▸ member)
  rw [escape] at inside
  split_ifs at inside <;> simp [other, noSlash, noSpace] at inside

/-! ## What the reader counts -/

/-- Brackets or braces. -/
def Brackets (opens closes : Char) : Prop :=
  opens = '[' ∧ closes = ']' ∨ opens = '\x7b' ∧ closes = '\x7d'

section Depth

variable {opens closes : Char} (brackets : Brackets opens closes)
include brackets

theorem depth_escaped (d : Nat) (s : List Char) :
    depth opens closes d (escaped s) = depth opens closes d s := by
  apply Matching.depth_flatMap
  intro c d
  rw [escape]
  split_ifs with special control
  · rcases brackets with ⟨rfl, rfl⟩ | ⟨rfl, rfl⟩ <;> rcases special with rfl | rfl <;> rfl
  · have other : c ≠ opens ∧ c ≠ closes := by
      rcases brackets with ⟨rfl, rfl⟩ | ⟨rfl, rfl⟩ <;> constructor <;> rintro rfl <;>
        exact absurd control (by decide)
    rw [step, if_neg other.1, if_neg other.2]
    rcases brackets with ⟨rfl, rfl⟩ | ⟨rfl, rfl⟩ <;> rfl
  · rw [Matching.depth_cons]
    cases step opens closes d c <;> rfl

end Depth

/-- The texts of a preset. -/
def texts (record : FilterRecord) : List Char := record.name ++ record.filter

def nameMark : List Char := " \"name\": ".toList
def filterMark : List Char := ", \"filter\": ".toList

def inQuotes (s : List Char) : List Char := '"' :: escaped s ++ ['"']

/-- An object behind its brace and up to its last quote. -/
def item (record : FilterRecord) : List Char :=
  nameMark ++ inQuotes record.name ++ filterMark ++ inQuotes record.filter

/-- The array up to the last quote. -/
def body : List FilterRecord → List Char
  | [] => []
  | [record] => "    \x7b".toList ++ item record
  | record :: records => "    \x7b".toList ++ item record ++ " \x7d,\n".toList ++ body records

theorem body_cons (record next : FilterRecord) (records : List FilterRecord) :
    body (record :: next :: records) =
      "    \x7b".toList ++ item record ++ " \x7d,\n".toList ++ body (next :: records) := rfl

theorem recordText_eq (record : FilterRecord) (comma : List Char) :
    recordText record comma =
      "    \x7b".toList ++ item record ++ " \x7d".toList ++ comma ++ ['\n'] := by
  have name : jsonEscapeInto record.name (PRESET_NAME_SIZE * 2) = escaped record.name := by
    have fits := record.nameFits
    rw [jsonEscapeInto, escapeFrom_eq]
    omega
  have filter : jsonEscapeInto record.filter (FILTER_BUFSIZE * 2) = escaped record.filter := by
    have fits := record.filterFits
    rw [jsonEscapeInto, escapeFrom_eq]
    omega
  have shape : ∀ x y, jsonEscapeInto record.name (PRESET_NAME_SIZE * 2) = x →
      jsonEscapeInto record.filter (FILTER_BUFSIZE * 2) = y →
      recordText record comma = "    \x7b \"name\": \"".toList ++ x ++
        "\", \"filter\": \"".toList ++ y ++ "\" \x7d".toList ++ comma ++ ['\n'] := by
    rintro _ _ rfl rfl
    rfl
  refine (shape _ _ name filter).trans ?_
  unfold item nameMark filterMark inQuotes
  simp

theorem recordTexts_eq {records : List FilterRecord} (some_ : records ≠ []) :
    recordTexts records = body records ++ " \x7d\n".toList := by
  induction records with
  | nil => exact absurd rfl some_
  | cons record records ih =>
      cases records with
      | nil =>
          rw [recordTexts, recordText_eq, body]
          simp
      | cons next records =>
          have line : recordTexts (record :: next :: records) =
            recordText record [','] ++ recordTexts (next :: records) := rfl
          rw [line, recordText_eq, ih (List.cons_ne_nil next records), body_cons]
          simp

/-- The characters around the texts do not count. -/
theorem depth_mark {opens closes : Char} {s : List Char}
    (free : s.all (fun c => c != opens && c != closes) = true) (d : Nat) :
    depth opens closes d s = some d := by
  refine Matching.depth_free fun c member => ?_
  simpa using List.all_eq_true.1 free c member

theorem depth_item {opens closes : Char} (brackets : Brackets opens closes) (d : Nat)
    (record : FilterRecord) :
    depth opens closes d (item record) = depth opens closes d (texts record) := by
  have quote (d : Nat) : depth opens closes d ['"'] = some d := by
    rcases brackets with ⟨rfl, rfl⟩ | ⟨rfl, rfl⟩ <;> exact depth_mark rfl d
  have name (d : Nat) : depth opens closes d nameMark = some d := by
    rcases brackets with ⟨rfl, rfl⟩ | ⟨rfl, rfl⟩ <;> exact depth_mark rfl d
  have filter (d : Nat) : depth opens closes d filterMark = some d := by
    rcases brackets with ⟨rfl, rfl⟩ | ⟨rfl, rfl⟩ <;> exact depth_mark rfl d
  have quoted (d : Nat) (s : List Char) :
      depth opens closes d (inQuotes s) = depth opens closes d s := by
    have shape : inQuotes s = ['"'] ++ (escaped s ++ ['"']) := rfl
    rw [shape, Matching.depth_append, quote, Option.bind_some, Matching.depth_append,
      depth_escaped brackets]
    cases depth opens closes d s with
    | none => rfl
    | some e => exact quote e
  rw [item, texts, Matching.depth_append, Matching.depth_append, Matching.depth_append,
    Matching.depth_append, name, Option.bind_some, quoted]
  cases depth opens closes d record.name with
  | none => rfl
  | some e =>
      rw [Option.bind_some, filter, Option.bind_some, quoted]
      rfl

theorem depth_body (d : Nat) (records : List FilterRecord) :
    depth '[' ']' d (body records) = depth '[' ']' d (records.flatMap texts) := by
  have brackets : Brackets '[' ']' := .inl ⟨rfl, rfl⟩
  have opening (d : Nat) : depth '[' ']' d "    \x7b".toList = some d := depth_mark rfl d
  have closing (d : Nat) : depth '[' ']' d " \x7d,\n".toList = some d := depth_mark rfl d
  induction records generalizing d with
  | nil => rfl
  | cons record records ih =>
      cases records with
      | nil =>
          rw [body, Matching.depth_append, opening, Option.bind_some, depth_item brackets]
          simp
      | cons next records =>
          rw [body_cons, List.append_assoc, List.append_assoc, Matching.depth_append, opening,
            Option.bind_some, Matching.depth_append, depth_item brackets, List.flatMap_cons,
            Matching.depth_append]
          cases depth '[' ']' d (texts record) with
          | none => rfl
          | some e =>
              rw [Option.bind_some, Matching.depth_append, closing, Option.bind_some, ih]
              rfl

/-! ## Objects are read -/

theorem dropWhile_quote {s : List Char} (noQuote : '"' ∉ s) (t : List Char) :
    (s ++ t).dropWhile (· != '"') = t.dropWhile (· != '"') := by
  refine List.dropWhile_append_of_pos fun c member => ?_
  simpa using fun same : c = '"' => noQuote (same ▸ member)

theorem quotedText_quoted {s t : List Char} (noQuote : '"' ∉ s) (noQuote' : '"' ∉ t)
    (rest : List Char) : quotedText (s ++ ('"' :: t ++ '"' :: rest)) = some (t, rest) := by
  have kept : ∀ c ∈ t, (c != '"') = true := fun c member => by
    simpa using fun same : c = '"' => noQuote' (same ▸ member)
  rw [quotedText, dropWhile_quote noQuote, List.cons_append,
    List.dropWhile_cons_of_neg (by decide)]
  dsimp only
  rw [dropWhile_quote noQuote', List.dropWhile_cons_of_neg (by decide)]
  dsimp only
  rw [List.takeWhile_append_of_pos kept, List.takeWhile_cons_of_neg (by decide), List.append_nil]

theorem quotedText_none {s : List Char} (noQuote : '"' ∉ s) : quotedText s = none := by
  have passed := dropWhile_quote noQuote []
  rw [List.append_nil] at passed
  rw [quotedText, passed]
  rfl

/-- The two texts of an object. -/
theorem readPairs_item {record : FilterRecord} (name : '"' ∉ record.name)
    (filter : '"' ∉ record.filter) {behind : List Char} (noQuote : '"' ∉ behind) (fuel : Nat) :
    readPairs (fuel + 2) (item record ++ behind) (none, none) =
      (some (escaped record.name), some (escaped record.filter)) := by
  have name := not_mem_escaped name (by decide) (by decide)
  have filter := not_mem_escaped filter (by decide) (by decide)
  have shape : item record ++ behind = [' '] ++ ('"' :: "name".toList ++ '"' ::
      (": ".toList ++ ('"' :: escaped record.name ++ '"' ::
        (", ".toList ++ ('"' :: "filter".toList ++ '"' ::
          (": ".toList ++ ('"' :: escaped record.filter ++ '"' :: behind))))))) := by
    unfold item nameMark filterMark inQuotes
    simp
  have read_none (found : Option (List Char) × Option (List Char)) :
      readPairs fuel behind found = found := by
    cases fuel with
    | zero => rfl
    | succ fuel =>
        rw [readPairs, quotedText_none noQuote]
  rw [shape, readPairs, quotedText_quoted (by decide) (by decide)]
  dsimp only
  rw [quotedText_quoted (by decide) name]
  dsimp only
  rw [if_pos rfl, readPairs, quotedText_quoted (by decide) (by decide)]
  dsimp only
  rw [quotedText_quoted (by decide) filter]
  dsimp only
  rw [if_neg (by decide), if_pos rfl]
  exact read_none _

/-- What `addPreset` makes of the texts is the preset. -/
theorem copy_escaped {record : FilterRecord} (name : Plain PRESET_NAME_SIZE record.name)
    (filter : Plain FILTER_BUFSIZE record.filter) :
    FilterRecord.copy (escaped record.name) (escaped record.filter) = record := by
  apply FilterRecord.ext
  · exact take_escaped name record.nameFits
  · exact take_escaped filter record.filterFits

theorem FilterRecord.copy_own (record : FilterRecord) :
    FilterRecord.copy record.name record.filter = record := by
  apply FilterRecord.ext
  · exact List.take_of_length_le (Nat.le_sub_one_of_lt record.nameFits)
  · exact List.take_of_length_le (Nat.le_sub_one_of_lt record.filterFits)

theorem addPreset_filters {name filter : List Char} {presets : PresetList}
    (room : presets.filters.length < CONFIG_MAX_RECORDS) :
    (addPreset name filter presets).filters = presets.filters ++ [.copy name filter] := by
  rw [addPreset, dif_pos room]

/-- Where no object begins, none is read. -/
theorem readObjects_none (fuel : Nat) {s : List Char} (noBrace : '\x7b' ∉ s)
    (presets : PresetList) : readObjects fuel s presets = presets := by
  cases fuel with
  | zero => rfl
  | succ fuel =>
      rw [readObjects]
      split_ifs
      · split
        · next rest found =>
            have member : '\x7b' ∈ s.dropWhile fun c => c != '\x7b' && c != ']' := by
              rw [found]
              exact List.mem_cons_self
            exact absurd (List.dropWhile_subset _ member) noBrace
        · rfl
      · rfl

/-- An object is read up to the brace that closes it or to the end. -/
theorem readObjects_item (fuel : Nat) {record : FilterRecord} {presets : PresetList}
    {white s object rest : List Char}
    (room : presets.filters.length < CONFIG_MAX_RECORDS)
    (noBrace : white.all (fun c => c != '\x7b' && c != ']') = true)
    (name : Plain PRESET_NAME_SIZE record.name) (filter : Plain FILTER_BUFSIZE record.filter)
    (taken : upTo '\x7b' '\x7d' 1 s = (item record ++ object, rest)) (some_ : object ≠ [])
    (noQuote : '"' ∉ object) :
    readObjects (fuel + 1) (white ++ '\x7b' :: s) presets =
      readObjects fuel rest (addPreset record.name record.filter presets) := by
  have passed : (white ++ '\x7b' :: s).dropWhile (fun c => c != '\x7b' && c != ']') =
      '\x7b' :: s := by
    rw [List.dropWhile_append_of_pos (List.all_eq_true.1 noBrace),
      List.dropWhile_cons_of_neg (by decide)]
  obtain ⟨fuel', size⟩ : ∃ fuel', (item record ++ object).length = fuel' + 2 := by
    refine ⟨(item record ++ object).length - 2, ?_⟩
    unfold item nameMark inQuotes
    simp
  have region : (item record ++ object).dropLast = item record ++ object.dropLast :=
    List.dropLast_append_of_ne_nil some_
  have free : '"' ∉ object.dropLast := fun member =>
    noQuote (List.dropLast_subset _ member)
  have stored : addPreset (escaped record.name) (escaped record.filter) presets =
      addPreset record.name record.filter presets := by
    apply PresetList.ext
    rw [addPreset_filters room, addPreset_filters room, copy_escaped name filter, record.copy_own]
  rw [readObjects, if_pos room, passed]
  split
  · next text same =>
      cases same
      rw [taken]
      dsimp only
      rw [size, region, readPairs_item name.noQuote filter.noQuote free]
      exact congrArg (readObjects fuel rest) stored
  · next other => exact absurd rfl (other s)

/-- The texts of these presets come back from their stores, and each closes its braces. -/
structure Shaped (records : List FilterRecord) : Prop where
  plain    : ∀ record ∈ records,
    Plain PRESET_NAME_SIZE record.name ∧ Plain FILTER_BUFSIZE record.filter
  braces   : ∀ record ∈ records, (depth '\x7b' '\x7d' 0 (texts record)).isSome
  /-- A brace that is left open takes the object behind it along. -/
  balanced : ∀ record ∈ records.dropLast, depth '\x7b' '\x7d' 0 (texts record) = some 0

instance (records : List FilterRecord) : Decidable (Shaped records) :=
  decidable_of_iff (_ ∧ _ ∧ _)
    ⟨fun ⟨plain, braces, balanced⟩ => { plain, braces, balanced },
      fun shaped => ⟨shaped.plain, shaped.braces, shaped.balanced⟩⟩

theorem Shaped.tail {record next : FilterRecord} {records : List FilterRecord}
    (shaped : Shaped (record :: next :: records)) : Shaped (next :: records) where
  plain := fun other member => shaped.plain other (List.mem_cons_of_mem _ member)
  braces := fun other member => shaped.braces other (List.mem_cons_of_mem _ member)
  balanced := fun other member => shaped.balanced other (List.mem_cons_of_mem _ member)

section Object

variable {record : FilterRecord} (name : Plain PRESET_NAME_SIZE record.name)
  (filter : Plain FILTER_BUFSIZE record.filter) {presets : PresetList}
  (room : presets.filters.length < CONFIG_MAX_RECORDS) {white : List Char}
  (noBrace : white.all (fun c => c != '\x7b' && c != ']') = true)
include name filter room noBrace

/-- An object whose texts close their braces ends with its own one. -/
theorem readObjects_next (fuel : Nat)
    (closed : depth '\x7b' '\x7d' 0 (texts record) = some 0) (rest : List Char) :
    readObjects (fuel + 1) (white ++ '\x7b' :: (item record ++ (" \x7d".toList ++ rest))) presets =
      readObjects fuel rest (addPreset record.name record.filter presets) := by
  have taken := Matching.upTo_append ((depth_item (.inr ⟨rfl, rfl⟩) 0 record).trans closed)
    (" \x7d".toList ++ rest)
  have brace : upTo '\x7b' '\x7d' 1 (" \x7d".toList ++ rest) = (" \x7d".toList, rest) := by
    simp [upTo]
  have noQuote : '"' ∉ " \x7d".toList := by decide
  rw [Nat.zero_add, brace] at taken
  exact readObjects_item fuel room noBrace name filter taken (List.cons_ne_nil _ _) noQuote

/-- Behind the last object nothing is read, wherever it ends. -/
theorem readObjects_last (fuel : Nat)
    (closed : (depth '\x7b' '\x7d' 0 (texts record)).isSome) {behind : List Char}
    (noQuote : '"' ∉ behind) (noBrace' : '\x7b' ∉ behind) :
    readObjects (fuel + 1) (white ++ '\x7b' :: (item record ++ ' ' :: behind)) presets =
      addPreset record.name record.filter presets := by
  obtain ⟨e, known⟩ := Option.isSome_iff_exists.1 closed
  have taken := Matching.upTo_append ((depth_item (.inr ⟨rfl, rfl⟩) 0 record).trans known)
    (' ' :: behind)
  have parts := @Matching.upTo_whole _ _ '\x7b' '\x7d' (e + 1) (' ' :: behind)
  have noQuote : '"' ∉ (upTo '\x7b' '\x7d' (e + 1) (' ' :: behind)).1 := fun member => by
    have inside := parts ▸ List.mem_append_left _ member
    simp [noQuote] at inside
  have noBrace' : '\x7b' ∉ (upTo '\x7b' '\x7d' (e + 1) (' ' :: behind)).2 := fun member => by
    have inside := parts ▸ List.mem_append_right _ member
    simp [noBrace'] at inside
  rw [readObjects_item fuel room noBrace name filter taken (List.cons_ne_nil _ _) noQuote,
    readObjects_none _ noBrace']

end Object

/-- The objects are read one after the other, whatever is cut off behind the last. -/
theorem readObjects_body {records : List FilterRecord} (some_ : records ≠ [])
    (shaped : Shaped records) {fuel : Nat} (enough : records.length ≤ fuel)
    {presets : PresetList}
    (room : presets.filters.length + records.length ≤ CONFIG_MAX_RECORDS) {white behind : List Char}
    (noBrace : white.all (fun c => c != '\x7b' && c != ']') = true)
    (noQuote : '"' ∉ behind) (noBrace' : '\x7b' ∉ behind) :
    (readObjects fuel (white ++ body records ++ ' ' :: behind) presets).filters =
      presets.filters ++ records := by
  induction records generalizing fuel presets white with
  | nil => exact absurd rfl some_
  | cons record records ih =>
      rw [List.length_cons] at room enough
      obtain ⟨fuel, rfl⟩ : ∃ fuel', fuel = fuel' + 1 := ⟨fuel - 1, by omega⟩
      have here : presets.filters.length < CONFIG_MAX_RECORDS := by omega
      obtain ⟨name, filter⟩ := shaped.plain record List.mem_cons_self
      have added := @addPreset_filters record.name record.filter presets here
      rw [record.copy_own] at added
      have noBrace : (white ++ "    ".toList).all (fun c => c != '\x7b' && c != ']') = true := by
        rw [List.all_append, noBrace]
        rfl
      cases records with
      | nil =>
          have shape : white ++ body [record] ++ ' ' :: behind =
              (white ++ "    ".toList) ++ '\x7b' :: (item record ++ ' ' :: behind) := by
            unfold body
            simp
          rw [shape, readObjects_last name filter here noBrace fuel
            (shaped.braces record List.mem_cons_self) noQuote noBrace', added]
      | cons next records =>
          have shape : white ++ body (record :: next :: records) ++ ' ' :: behind =
              (white ++ "    ".toList) ++ '\x7b' :: (item record ++
                (" \x7d".toList ++ (",\n".toList ++ body (next :: records) ++ ' ' :: behind))) := by
            rw [body_cons]
            simp
          have room' : (addPreset record.name record.filter presets).filters.length +
              (next :: records).length ≤ CONFIG_MAX_RECORDS := by
            rw [added, List.length_append, List.length_singleton]
            omega
          rw [shape, readObjects_next name filter here noBrace fuel
            (shaped.balanced record List.mem_cons_self), ih (List.cons_ne_nil _ _) shaped.tail
            (Nat.le_of_succ_le_succ enough) room' rfl, added, List.append_assoc]
          rfl

/-! ## The file is read -/

/-- The characters that a preset takes in the file. -/
def width (record : FilterRecord) : Nat := 34 + (texts record).length + (texts record).count '\\'

/-- A list that comes back from its file. -/
structure Readable (records : List FilterRecord) : Prop extends Shaped records where
  /-- No bracket closes the array. -/
  brackets : (depth '[' ']' 0 (records.flatMap texts)).isSome
  /-- The last quote and a character behind it come before the end of the buffer. -/
  size     : (records.map width).sum ≤ 8178

instance (records : List FilterRecord) : Decidable (Readable records) :=
  decidable_of_iff (_ ∧ _ ∧ _)
    ⟨fun ⟨shaped, brackets, size⟩ => { shaped with brackets, size },
      fun readable => ⟨readable.toShaped, readable.brackets, readable.size⟩⟩

theorem length_escaped {s : List Char} (noQuote : '"' ∉ s) :
    (escaped s).length = s.length + s.count '\\' := by
  induction s with
  | nil => rfl
  | cons c s ih =>
      rw [List.mem_cons, not_or] at noQuote
      have other : c ≠ '"' := Ne.symm noQuote.1
      have rest := ih noQuote.2
      have one : (escape c).length = 1 + if c = '\\' then 1 else 0 := by
        rw [escape]
        split_ifs <;> simp_all
      rw [escaped] at rest ⊢
      rw [List.flatMap_cons, List.length_append, rest, one, List.length_cons, List.count_cons]
      simp only [beq_iff_eq]
      omega

theorem length_body {records : List FilterRecord} (some_ : records ≠ [])
    (shaped : Shaped records) : (body records).length + 4 = (records.map width).sum := by
  induction records with
  | nil => exact absurd rfl some_
  | cons record records ih =>
      obtain ⟨name, filter⟩ := shaped.plain record List.mem_cons_self
      have here : (item record).length + 9 = width record := by
        unfold item inQuotes nameMark filterMark
        simp only [List.length_append, List.length_cons, length_escaped name.noQuote,
          length_escaped filter.noQuote, width, texts, List.count_append]
        simp
        omega
      cases records with
      | nil =>
          unfold body
          simp
          omega
      | cons next records =>
          have rest := ih (List.cons_ne_nil _ _) shaped.tail
          rw [List.map_cons, List.sum_cons, ← rest, body_cons]
          simp only [List.length_append]
          simp
          omega

theorem length_le_body (records : List FilterRecord) : records.length ≤ (body records).length := by
  induction records with
  | nil => exact Nat.le_refl 0
  | cons record records ih =>
      cases records with
      | nil =>
          unfold body
          simp
      | cons next records =>
          rw [List.length_cons, body_cons]
          simp only [List.length_append]
          simp at ih ⊢
          omega

/-- No zero byte ends the text. -/
theorem zero_not_mem_body {records : List FilterRecord} (shaped : Shaped records) :
    '\x00' ∉ body records := by
  have quoted {s : List Char} (noControl : ∀ c ∈ s, 0x20 ≤ c.toNat) : '\x00' ∉ inQuotes s := by
    have absent : '\x00' ∉ s := fun member => absurd (noControl _ member) (by decide)
    have free := not_mem_escaped absent (by decide) (by decide)
    unfold inQuotes
    simp [free]
  induction records with
  | nil => exact List.not_mem_nil
  | cons record records ih =>
      obtain ⟨name, filter⟩ := shaped.plain record List.mem_cons_self
      have here : '\x00' ∉ item record := by
        unfold item nameMark filterMark
        simp [quoted name.noControl, quoted filter.noControl]
      cases records with
      | nil =>
          unfold body
          simp [here]
      | cons next records =>
          rw [body_cons]
          simp [here, ih shaped.tail]

def fileHead : List Char := "\x7b\n  \"filters\": [\n".toList

theorem configText_eq {records : List FilterRecord} (some_ : records ≠ []) :
    configText records =
      fileHead ++ body records ++ ' ' :: "\x7d\n  ]\n\x7d\n".toList := by
  unfold configText fileHead
  rw [recordTexts_eq some_]
  simp

/-- What is read of the file. -/
theorem take_configText {records : List FilterRecord} (some_ : records ≠ [])
    (readable : Readable records) :
    ∃ behind, behind <+: "\x7d\n  ]\n\x7d\n".toList ∧
      (configText records).take CONFIG_BUF_SIZE = fileHead ++ body records ++ ' ' :: behind := by
  have length := length_body some_ readable.toShaped
  have size := readable.size
  have front : (fileHead ++ body records).length < CONFIG_BUF_SIZE := by
    have head : fileHead.length = 17 := rfl
    rw [List.length_append, head, CONFIG_BUF_SIZE]
    omega
  refine ⟨_, List.take_prefix (CONFIG_BUF_SIZE - (fileHead ++ body records).length - 1) _, ?_⟩
  rw [configText_eq some_, List.take_append, List.take_of_length_le front.le]
  obtain ⟨k, left⟩ : ∃ k, CONFIG_BUF_SIZE - (fileHead ++ body records).length = k + 1 :=
    ⟨CONFIG_BUF_SIZE - (fileHead ++ body records).length - 1, by omega⟩
  rw [left]
  rfl

/-- **The list comes back**, with its names, its filters and its order. -/
theorem loadConfigJson_configText {records : List FilterRecord} (some_ : records ≠ [])
    (few : records.length ≤ CONFIG_MAX_RECORDS) (readable : Readable records)
    (presets : PresetList) :
    loadConfigJson (some (configText records)) presets =
      (true, { filters := records, few }) := by
  obtain ⟨behind, cutOff, buf⟩ := take_configText some_ readable
  have absent {c : Char} (free : c ∉ "\x7d\n  ]\n\x7d\n".toList) : c ∉ behind :=
    fun member => free (cutOff.subset member)
  have noZero : '\x00' ∉ fileHead ++ body records ++ ' ' :: behind := by
    have head : '\x00' ∉ fileHead := by decide
    have tail : '\x00' ∉ behind := absent (by decide)
    simp [head, tail, zero_not_mem_body readable.toShaped]
  have key : cut "\"filters\"".toList (fileHead ++ body records ++ ' ' :: behind) =
      some ("\x7b\n  ".toList, ": [\n".toList ++ (body records ++ ' ' :: behind)) := by
    have here : cut "\"filters\"".toList fileHead =
      some ("\x7b\n  ".toList, ": [\n".toList) := by decide
    rw [List.append_assoc]
    exact Http.cut_append here _
  have bracket : cut ['['] (": [\n".toList ++ (body records ++ ' ' :: behind)) =
      some (": ".toList, '\n' :: (body records ++ ' ' :: behind)) := by
    have here : cut ['['] ": [\n".toList = some (": ".toList, ['\n']) := by decide
    exact Http.cut_append here _
  obtain ⟨e, known⟩ := Option.isSome_iff_exists.1 readable.brackets
  have array : (upTo '[' ']' 1 ('\n' :: (body records ++ ' ' :: behind))).1 =
      ['\n'] ++ body records ++ ' ' :: (upTo '[' ']' (e + 1) behind).1 := by
    have passed := Matching.upTo_append ((depth_body 0 records).trans known) (' ' :: behind)
    simp [upTo, passed]
  have inside {c : Char} (free : c ∉ "\x7d\n  ]\n\x7d\n".toList) :
      c ∉ (upTo '[' ']' (e + 1) behind).1 :=
    fun member => absent free ((Matching.upTo_prefix _ _).subset member)
  have enough : records.length ≤
      (['\n'] ++ body records ++ ' ' :: (upTo '[' ']' (e + 1) behind).1).length := by
    have fewer := length_le_body records
    simp only [List.length_append]
    omega
  have read := @readObjects_body records some_ readable.toShaped _ enough ⟨[], Nat.zero_le _⟩
    (by simpa using few) ['\n'] _ rfl (inside (by decide)) (inside (by decide))
  rw [List.nil_append] at read
  have more : fileHead ++ body records ++ ' ' :: behind ≠ [] := by
    simp
  rw [loadConfigJson]
  dsimp only
  rw [buf, if_neg more, cString_of_free noZero, key]
  dsimp only
  rw [bracket]
  dsimp only
  rw [array, read]
  exact Prod.ext (decide_eq_true (List.length_pos_of_ne_nil some_)) (PresetList.ext read)

/-! ## Runs of calls -/

/-- Where a call returns 1, the file it wrote is read as the list; where it returns 0, it changed
nothing. -/
structure Persists (presets : PresetList) (save : Save) : Prop where
  stored : (appPresetSave save presets).returns = true →
    ∃ text, (appPresetSave save presets).written = some text ∧
      ∀ before, loadConfigJson (some text) before = (true, (appPresetSave save presets).presets)
  kept   : (appPresetSave save presets).returns = false →
    (appPresetSave save presets).presets = presets

/-- The list that the call makes of this one. -/
def put (save : Save) (presets : PresetList) : List FilterRecord :=
  Keyed.put FilterRecord.name save.name (.copy save.name save.filter) presets.filters

/-- The call stores nothing, or what it stores comes back. -/
def Harmless (presets : PresetList) (save : Save) : Prop :=
  save.name = [] ∨ save.filter = [] ∨
    ((∀ record ∈ presets.filters, record.name ≠ save.name) ∧
      CONFIG_MAX_RECORDS ≤ presets.filters.length) ∨
    (if save.opens then Readable (put save presets) else put save presets = presets.filters)

instance (presets : PresetList) (save : Save) : Decidable (Harmless presets save) :=
  inferInstanceAs (Decidable (_ ∨ _ ∨ _ ∨ _))

/-- The list and what `config.json` holds. -/
structure Config where
  presets : PresetList
  file    : Option (List Char)

def Config.save (config : Config) (save : Save) : Config :=
  let saved := appPresetSave save config.presets
  { presets := saved.presets, file := saved.written.or config.file }

def editor : Machine Config Save where
  step := Config.save
  admits := fun config save => Harmless config.presets save

instance (config : Config) (save : Save) : Decidable (editor.admits config save) :=
  inferInstanceAs (Decidable (Harmless config.presets save))

/-- A new start would bring the list back. -/
def InStep (config : Config) : Prop :=
  ∀ before, loadConfigJson config.file before = (true, config.presets)

theorem storePreset_none {name filter : List Char} {presets : PresetList} :
    storePreset name filter presets = none ↔
      (∀ record ∈ presets.filters, record.name ≠ name) ∧
        CONFIG_MAX_RECORDS ≤ presets.filters.length := by
  rw [storePreset]
  split
  · next i found =>
      have there : ¬∀ record ∈ presets.filters, record.name ≠ name := fun absent => by
        rw [List.findIdx?_eq_none_iff.2 fun record member => beq_false_of_ne
          (absent record member)] at found
        cases found
      simp [there]
  · next found =>
      have absent : ∀ record ∈ presets.filters, record.name ≠ name := by
        simpa using List.findIdx?_eq_none_iff.1 found
      split_ifs with full
      · exact iff_of_true rfl ⟨absent, full⟩
      · exact iff_of_false (by simp) fun ⟨_, full'⟩ => full full'

theorem storePreset_some {save : Save} {presets presets' : PresetList}
    (done : storePreset save.name save.filter presets = some presets') :
    presets'.filters = put save presets := by
  rcases @Keyed.splits_or _ _ FilterRecord.name save.name presets.filters with
    ⟨before, record, after, splits⟩ | absent
  · -- The name that is there fits its store, so the copy of it is the name.
    have same : record.setFilter save.filter = .copy save.name save.filter := by
      apply FilterRecord.ext
      · have fits := record.nameFits
        rw [splits.here] at fits
        exact splits.here.trans (List.take_of_length_le (Nat.le_sub_one_of_lt fits)).symm
      · rfl
    rw [storePreset, splits.findIdx?] at done
    cases done
    show presets.filters.modify before.length (.setFilter save.filter) = _
    rw [put, Keyed.put_splits splits, splits.modify, same]
  · have nowhere := List.findIdx?_eq_none_iff.2 fun record member => beq_false_of_ne
      (absent record member)
    rw [storePreset, nowhere] at done
    dsimp only at done
    split_ifs at done with full
    cases done
    rw [addPreset_filters (Nat.lt_of_not_le full), put, Keyed.put_absent absent]

theorem put_ne_nil (save : Save) (presets : PresetList) : put save presets ≠ [] := by
  rcases @Keyed.splits_or _ _ FilterRecord.name save.name presets.filters with
    ⟨before, record, after, splits⟩ | absent
  · rw [put, Keyed.put_splits splits]
    simp
  · rw [put, Keyed.put_absent absent]
    simp

/-- A call that stores nothing. -/
theorem persists_refused {presets : PresetList} {save : Save}
    (refused : appPresetSave save presets = { returns := false, presets, written := none }) :
    Persists presets save := by
  constructor
  · intro returned
    rw [refused] at returned
    cases returned
  · intro _
    rw [refused]

/-- **One call.** -/
theorem persists_of_harmless {presets : PresetList} {save : Save}
    (harmless : Harmless presets save) : Persists presets save := by
  by_cases empty : save.name = [] ∨ save.filter = []
  · exact persists_refused (if_pos empty)
  cases done : storePreset save.name save.filter presets with
  | none =>
      apply persists_refused
      rw [appPresetSave, if_neg empty, done]
  | some presets' =>
      have list := storePreset_some done
      have called : appPresetSave save presets =
          if save.opens then
            { returns := true, presets := presets', written := some (configText presets'.filters) }
          else { returns := false, presets := presets', written := none } := by
        rw [appPresetSave, if_neg empty, done]
      rcases harmless with noName | noFilter | full | rest
      · exact absurd (.inl noName) empty
      · exact absurd (.inr noFilter) empty
      · rw [storePreset_none.2 full] at done
        cases done
      · split_ifs at rest with opens
        · rw [if_pos opens] at called
          rw [← list] at rest
          have some_ : presets'.filters ≠ [] := list ▸ put_ne_nil save presets
          constructor
          · intro _
            rw [called]
            exact ⟨_, rfl, loadConfigJson_configText some_ presets'.few rest⟩
          · intro failed
            rw [called] at failed
            cases failed
        · have same : presets' = presets := PresetList.ext (list.trans rest)
          rw [if_neg opens, same] at called
          exact persists_refused called

/-- The file is written just by the calls that return 1. -/
theorem written_isSome (save : Save) (presets : PresetList) :
    (appPresetSave save presets).written.isSome = (appPresetSave save presets).returns := by
  rw [appPresetSave]
  split
  · rfl
  · split
    · rfl
    · split <;> rfl

/-- A call that persists leaves list and file in step. -/
theorem inStep_save {config : Config} {save : Save} (inStep : InStep config)
    (persists : Persists config.presets save) : InStep (config.save save) := by
  intro before
  have writes := written_isSome save config.presets
  cases returned : (appPresetSave save config.presets).returns with
  | true =>
      obtain ⟨text, written, loads⟩ := persists.stored returned
      rw [Config.save, written]
      exact loads before
  | false =>
      rw [returned, Option.isSome_eq_false_iff, Option.isNone_iff_eq_none] at writes
      rw [Config.save, writes, persists.kept returned]
      exact inStep before

/-- **Presets persist** along every run of calls that are harmless where they are made: each
keeps its word, and a list that was in step with its file stays so. -/
theorem saves_persist {config : Config} {saves : List Save}
    (harmless : editor.Admissible config saves) :
    (∀ before save, before ++ [save] <+: saves →
        Persists (editor.run config before).presets save) ∧
      (InStep config → ∀ before, before <+: saves → InStep (editor.run config before)) := by
  constructor
  · rintro before save ⟨after, rfl⟩
    rw [editor.admissible_append, editor.admissible_append] at harmless
    exact persists_of_harmless harmless.1.2.1
  · rintro inStep before ⟨after, rfl⟩
    rw [editor.admissible_append] at harmless
    exact editor.run_invariant (fun config save inStep harmless =>
      inStep_save inStep (persists_of_harmless harmless)) before config inStep harmless.1

def noPresets : PresetList := { filters := [], few := Nat.zero_le _ }

def saveAs (name filter : List Char) : Save := { name, filter, opens := true }

/-- Two presets, and the first one changed. -/
theorem saves_persist_again :
    Persists
      (editor.run { presets := noPresets, file := none }
        [saveAs "all".toList "true".toList, saveAs "web".toList "tcp.DstPort == 80".toList]).presets
      (saveAs "all".toList "inbound".toList) :=
  (@saves_persist { presets := noPresets, file := none }
    [saveAs "all".toList "true".toList, saveAs "web".toList "tcp.DstPort == 80".toList,
      saveAs "all".toList "inbound".toList] (by decide +kernel)).1 _ _ (List.prefix_refl _)

/-- What is written for a name with a quote in it. -/
def quotedFile : List Char :=
  "\x7b\n  \"filters\": [\n    \x7b \"name\": \"a\\\"b\", ".toList ++
    "\"filter\": \"true\" \x7d\n  ]\n\x7d\n".toList

/-- **A quote is not read back**: the file that was written for a return of 1 has no preset in it.
And the preset of a call that returns 0 stays in the list where the file did not open. -/
theorem presets_lost :
    ¬Persists noPresets (saveAs "a\"b".toList "true".toList) ∧
      ¬Persists noPresets { saveAs "all".toList "true".toList with opens := false } := by
  constructor
  · intro persists
    obtain ⟨text, written, loads⟩ := persists.stored (by decide +kernel)
    have file : (appPresetSave (saveAs "a\"b".toList "true".toList) noPresets).written =
      some quotedFile := by decide +kernel
    have empty : (loadConfigJson (some quotedFile) noPresets).1 = false := by decide +kernel
    rw [Option.some.inj (written.symm.trans file)] at loads
    rw [loads] at empty
    cases empty
  · intro persists
    exact absurd (persists.kept (by decide +kernel)) (by decide +kernel)

end Clumsy.Presets
