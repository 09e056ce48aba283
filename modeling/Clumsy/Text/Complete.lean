/-
# Text.Complete -- json.cpp: every rendering of a value is read

What `jsonParse` makes of a rendering is the value itself: the same members and items in the
same order, strings with their escapes resolved, numbers as the nearest `double`
(`jsonParse_complete`).

Content behind the value is tolerated, and a value that ends by itself is read whatever that
content is.  A number does not end by itself: `strtod` goes on as long as what it reads is
one, so that a `1` with a `2` behind it is twelve.
-/
import Clumsy.Theory.JsonValue
import Clumsy.Text.Print

namespace Clumsy.Text

open Clumsy.Theory
open Clumsy.Theory.Json (Tree Derives White Body isWhite Whole Fraction Exponent Number Value Spells
  Counts Stands Renders nesting nestings memberNestings escaped magnitude scale natural)

set_option autoImplicit false

/-! ## The value in the program -/

mutual

/-- A value as the program holds it. -/
def held : Value → JsonValue
  | .null => .null
  | .bool b => .bool b
  | .number q => .number (binary64.round q)
  | .string s => .string s
  | .array items => .array (heldItems items)
  | .object members => .object (heldMembers members)

def heldItems : List Value → List JsonValue
  | [] => []
  | v :: vs => held v :: heldItems vs

def heldMembers : List (List Char × Value) → List (List Char × JsonValue)
  | [] => []
  | (name, v) :: ms => (name, held v) :: heldMembers ms

end

/-! ## Strings and numbers -/

theorem unescapeChar_escaped :
    ∀ pair ∈ escaped, pair.1 ≠ 'u' ∧ unescapeChar pair.1 = pair.2 := by
  decide

theorem unescape_spells {body s : List Char} (spells : Spells body s) : unescape body = s := by
  induction spells with
  | nil => rfl
  | plain _ _ slash _ ih => rw [unescape_plain slash, ih]
  | @escape c d _ _ known _ ih =>
      obtain ⟨other, same⟩ := unescapeChar_escaped (c, d) known
      rw [unescape_escape other, same, ih]

theorem exponent_scale {e : List Char} (isExponent : Exponent e) :
    (exponent 'e' e).1 = scale e := by
  cases isExponent with
  | none => rfl
  | @some mark plus s isMark isSign digits =>
      obtain ⟨c, t, rfl, digit, all⟩ := digits_cons digits
      have lower : mark.toLower = 'e' := by
        rcases isMark with rfl | rfl <;> rfl
      have run := List.takeWhile_eq_self_iff.2 all
      rcases isSign with rfl | rfl | rfl
      · have plus : c ≠ '+' := ne_of_digit digit rfl
        have minus : c ≠ '-' := ne_of_digit digit rfl
        simp [exponent, sign_digit digit, lower, run, scale, natural, digitsValue, plus, minus]
      · simp [exponent, sign, lower, run, scale, natural, digitsValue]
      · simp [exponent, sign, lower, run, scale, natural, digitsValue]

theorem decimalValue_magnitude {w f e : List Char} (isExponent : Exponent e) :
    decimalValue w f e = magnitude w f e := by
  rw [decimalValue, magnitude, exponent_scale isExponent]
  rfl

theorem round_neg (F : Format) (q : ℚ) : F.round (-q) = Fp.negate (F.round q) := by
  rw [Format.round, Format.round, Format.nearest_neg, abs_neg]
  split
  · rfl
  · next far =>
      have nonzero : q ≠ 0 := by
        rintro rfl
        rw [Format.nearest_zero, abs_zero] at far
        exact far (by positivity)
      rcases lt_or_gt_of_ne nonzero with negative | positive
      · simp [Fp.negate, negative, negative.le]
      · simp [Fp.negate, positive, positive.le]
theorem atof_counts {text : List Char} {q : ℚ} (counts : Counts text q) :
    atof text = binary64.round q := by
  cases counts with
  | positive whole fraction exponent =>
      have read := atof_parts (.inl rfl) whole fraction exponent
      rw [List.nil_append, decimalValue_magnitude exponent] at read
      exact read
  | negative whole fraction exponent =>
      have read := atof_parts (.inr rfl) whole fraction exponent
      rw [decimalValue_magnitude exponent] at read
      rw [round_neg]
      exact read

/-! ## Values -/

theorem meaning_stands {t : Tree} {v : Value} (stands : Stands t v) : meaning t = held v := by
  induction stands with
  | null | bool _ | noItems | noMembers => rfl
  | number counts => rw [meaning, held, atof_counts counts]
  | string spells => rw [meaning, held, unescape_spells spells]
  | item _ _ first others =>
      rw [meaning, held, JsonValue.array.injEq] at others ⊢
      rw [meanings, heldItems, first, others]
  | member spells _ _ first others =>
      rw [meaning, held, JsonValue.object.injEq] at others ⊢
      rw [memberMeanings, heldMembers, unescape_spells spells, first, others]

/-- The reader counts the value in the innermost container too. -/
theorem height_stands {t : Tree} {v : Value} (stands : Stands t v) :
    height t ≤ nesting v + 1 := by
  induction stands with
  | null | bool _ | number _ | string _ => exact le_rfl
  | noItems | noMembers => exact Nat.le_succ 1
  | item _ _ first others =>
      rw [height, nesting] at others ⊢
      rw [heights, nestings]
      omega
  | member _ _ _ first others =>
      rw [height, nesting] at others ⊢
      rw [memberHeights, memberNestings]
      omega

theorem stands_number {text : List Char} {v : Value} (stands : Stands (.number text) v) :
    v.isNumber = true := by
  cases stands
  rfl

/-! ## Texts -/

/-- White space before a number is skipped by `strtod` too. -/
theorem strtod_white {u s : List Char} (white : White u) : strtod (u ++ s) = strtod s := by
  have space : ∀ c ∈ u, isSpace c = true := by
    intro c member
    have isWhite := white c member
    simp only [Json.isWhite, Bool.or_eq_true, beq_iff_eq] at isWhite
    rcases isWhite with ((rfl | rfl) | rfl) | rfl <;> rfl
  rw [strtod, strtod, List.dropWhile_append_of_pos space]

/-- A number in white space is read if it is the longest one there. -/
theorem parseValue_longest {fuel : Nat} {u n after rest : List Char} (before : White u)
    (number : Number n) (behind : White after) (longest : Longest (u ++ n ++ after) rest) :
    parseValue (fuel + 1) 0 (u ++ n ++ after ++ rest) =
      some (.number (atof n), after ++ rest) := by
  have read : strtod (n ++ (after ++ rest)) = some (atof n, after ++ rest) := by
    cases after with
    | nil =>
        refine strtod_longest number ?_
        intro p more front x whole
        refine longest p more front x ?_
        rwa [List.append_nil, List.append_assoc, strtod_white before]
    | cons c after =>
        refine strtod_number number (follows_cons ?_)
        rw [endsItem, behind c List.mem_cons_self]
        rfl
  obtain ⟨c, t, shape, first⟩ := number_head number
  rw [List.append_assoc, List.append_assoc, ← parseValue_skipWs, skipWs_white before,
    parseValue_skipWs]
  rw [shape] at read ⊢
  rw [List.cons_append] at read ⊢
  rw [parseValue_number first, if_neg (by decide), parseNumber, read]
  rfl

/-- **Every rendering of a value is read as that value**, whatever stands behind it.  What stands
behind a number must not make a longer number of it. -/
theorem jsonParse_complete {v : Value} {s rest : List Char} (renders : Renders v s)
    (shallow : nesting v ≤ 31) (apart : v.isNumber = true → Longest s rest) :
    jsonParse (s ++ rest) = some (held v) := by
  obtain ⟨t, text, stands⟩ := renders
  have fits : 0 + height t ≤ MAX_DEPTH := by
    have height := height_stands stands
    rw [MAX_DEPTH]
    omega
  rw [← meaning_stands stands]
  cases text with
  | @item _ u n after before value behind =>
      by_cases isNumber : ∃ text, t = .number text
      · obtain ⟨text, rfl⟩ := isNumber
        cases value with
        | number number =>
            rw [jsonParse, parseValue_longest before number behind (apart (stands_number stands))]
            rfl
      · have other : ∀ text, t ≠ .number text := fun text same => isNumber ⟨text, same⟩
        have read := derives_readsAny value other
        rw [jsonParse, List.append_assoc, List.append_assoc, ← parseValue_skipWs,
          skipWs_white before, parseValue_skipWs, read _ _ _ (by simp; omega), if_pos fits]
        rfl

theorem counts_one : Counts ['1'] 1 := by
  have whole : Whole ['1'] := .digits rfl (by decide) (by simp)
  have counts := Counts.positive whole .none .none
  have digit : natural ['1'] = 1 := by decide
  have value : magnitude ['1'] [] [] = 1 := by
    simp [magnitude, scale, digit]
  rwa [value] at counts

theorem renders_one : Renders (.number 1) ['1'] :=
  ⟨.number ['1'], .item white_nil (.number counts_one.number) white_nil, .number counts_one⟩

/-- A list inside an object, under a name with a tab in it. -/
def nested : Value := .object [(['a', '\t'], .array [.number 1])]

def nestedText : List Char := "\x7b\"a\\t\": [1]\x7d".toList

theorem renders_nested : Renders nested nestedText := by
  refine ⟨.object [(['a', '\\', 't'], .array [.number ['1']])], ?_, ?_⟩
  · have space : White [' '] := List.forall_mem_singleton.2 rfl
    have items : Derives (.value (.array [.number ['1']])) ['[', '1', ']'] :=
      .array (.lastElement (.item white_nil (.number counts_one.number) white_nil))
    have name : Body ['a', '\\', 't'] :=
      .plain (by decide) (by decide) (by decide) (.escape (by decide) .nil)
    have pair : Derives (.pair ['a', '\\', 't'] (.array [.number ['1']]))
        "\"a\\t\": [1]".toList :=
      .pair white_nil name white_nil (.item space items white_nil)
    exact .item white_nil (.object (.lastMember pair)) white_nil
  · exact .member (.plain (by decide) (by decide) (by decide) (.escape (by decide) .nil))
      (.item (.number counts_one) .noItems) .noMembers

/-- A container ends by itself, and a bracket behind a number makes no longer one. -/
theorem jsonParse_complete_bracket :
    jsonParse (nestedText ++ ['1']) = some (held nested) ∧
      jsonParse (['1'] ++ [']']) = some (held (.number 1)) := by
  refine ⟨jsonParse_complete renders_nested (by decide) nofun,
    jsonParse_complete renders_one (by decide) ?_⟩
  intro _ p more front x longer
  have bracket : p = [']'] := by simpa [List.prefix_cons_iff, more] using front
  have number : Number ['1'] := number_decimal 1
  rw [bracket, strtod_number number (follows_cons rfl)] at longer
  cases longer

/-- **A number does not end by itself**: with a `2` behind it a `1` is read as twelve. -/
theorem jsonParse_goes_on :
    Renders (.number 1) ['1'] ∧ nesting (.number 1) ≤ 31 ∧
      jsonParse (['1'] ++ ['2']) ≠ some (held (.number 1)) := by
  refine ⟨renders_one, by decide, ?_⟩
  intro same
  have twelve : Derives (.item (.number ['1', '2'])) ['1', '2'] :=
    .item white_nil (.number (number_decimal 12)) white_nil
  have read : jsonParse ['1', '2'] = some (.number (atof ['1', '2'])) := jsonParse_text twelve
  rw [List.singleton_append, read, held, Option.some.injEq, JsonValue.number.injEq] at same
  revert same
  decide +kernel

end Clumsy.Text
