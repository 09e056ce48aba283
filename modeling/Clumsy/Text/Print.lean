/-
# Text.Print -- json.cpp: values as strings, and strings as JSON

The accessors of `JsonValue`, and `jsonEscape`.  A number is printed with `%lld` if it is a
whole one below `1e15` and with `%g` otherwise; what is printed of a finite number is a number
of JSON (`number_numberText`).

An escaped string is read back up to its closing quote (`parseString_jsonEscape`).  The reader
passes a `\u` escape through, so that the control bytes without a short escape come back as the
text they were escaped to.
-/
import Clumsy.Text.Json
import Clumsy.Theory.JsonText

namespace Clumsy.Text

open Clumsy.Theory
open Clumsy.Theory.Json (Body quoted Whole Fraction Exponent Number escapes isHex)

set_option autoImplicit false

/-! ## Numbers -/

/-- Whole numbers below `1e15` without a point, others as `%.<p>g`. -/
def numberText (p : Nat) : Fp → List Char
  | .finite q =>
      if q < 10 ^ 15 ∧ -10 ^ 15 < q ∧ q = ⌊q⌋ then decimal ⌊q⌋ else general p (.finite q)
  | x => general p x

namespace JsonValue

def isObject : JsonValue → Bool
  | .object _ => true
  | _ => false

/-- The first member of that name. -/
def find (key : List Char) : JsonValue → Option JsonValue
  | .object obj => obj.lookup key
  | _ => none

def asString : JsonValue → List Char
  | .string s => s
  | .bool b => if b then "true".toList else "false".toList
  | .number x => numberText 6 x
  | .null | .array _ | .object _ => []

def asNumber : JsonValue → Fp
  | .number x => x
  | .bool b => .finite (if b then 1 else 0)
  | .string s => atof s
  | .null | .array _ | .object _ => .finite 0

def asBool : JsonValue → Bool
  | .bool b => b
  | .number x => !x.eq (.finite 0)
  | .string s => s == "true".toList || s == "1".toList || s == "on".toList || s == "yes".toList
  | .null | .array _ | .object _ => false

def str (key fallback : List Char) (v : JsonValue) : List Char :=
  ((v.find key).map asString).getD fallback

end JsonValue

/-! ## Strings -/

def escapeChar (c : Char) : List Char :=
  if c = '"' then ['\\', '"']
  else if c = '\\' then ['\\', '\\']
  else if c = '\x08' then ['\\', 'b']
  else if c = '\x0c' then ['\\', 'f']
  else if c = '\n' then ['\\', 'n']
  else if c = '\r' then ['\\', 'r']
  else if c = '\t' then ['\\', 't']
  else if c.toNat < 0x20 then
    ['\\', 'u', '0', '0', Nat.digitChar (c.toNat / 16), Nat.digitChar (c.toNat % 16)]
  else [c]

def jsonEscape (s : List Char) : List Char := s.flatMap escapeChar

theorem isHex_digitChar {n : Nat} (small : n < 16) : isHex (Nat.digitChar n) = true := by
  revert n
  decide

/-- What is escaped may stand between quotes. -/
theorem body_jsonEscape (s : List Char) : Body (jsonEscape s) := by
  induction s with
  | nil => exact .nil
  | cons c s ih =>
      have escaped {d : Char} (known : d ∈ escapes) : Body (['\\', d] ++ jsonEscape s) :=
        .escape known ih
      rw [jsonEscape, List.flatMap_cons, escapeChar]
      split_ifs with quote slash _ _ _ _ _ control
      · exact escaped (by decide)
      · exact escaped (by decide)
      · exact escaped (by decide)
      · exact escaped (by decide)
      · exact escaped (by decide)
      · exact escaped (by decide)
      · exact escaped (by decide)
      · exact .unicode (by decide) (by decide) (isHex_digitChar (by omega))
          (isHex_digitChar (by omega)) ih
      · exact .plain (Nat.not_lt.1 control) quote slash ih

/-- The control characters that are escaped as `\u00XX`. -/
def isOther (c : Char) : Bool :=
  decide (c.toNat < 0x20 ∧ c ∉ ['\x08', '\x0c', '\n', '\r', '\t'])

/-- What comes back of a character. -/
def readBack (c : Char) : List Char :=
  if isOther c then
    ['\\', 'u', '0', '0', Nat.digitChar (c.toNat / 16), Nat.digitChar (c.toNat % 16)]
  else [c]

theorem unescape_control {a b : Char} {s : List Char} (hexA : isHex a = true)
    (hexB : isHex b = true) :
    unescape (['\\', 'u', '0', '0', a, b] ++ s) = ['\\', 'u', '0', '0', a, b] ++ unescape s := by
  simp only [List.cons_append, List.nil_append]
  rw [unescape, unescape_plain (by decide), unescape_plain (by decide),
    unescape_plain (hex_ne hexA), unescape_plain (hex_ne hexB)]

theorem unescape_escapeChar (c : Char) (s : List Char) :
    unescape (escapeChar c ++ s) = readBack c ++ unescape s := by
  rw [escapeChar]
  split_ifs with quote slash back feed line carriage tab control
  · rw [quote]; rfl
  · rw [slash]; rfl
  · rw [back]; rfl
  · rw [feed]; rfl
  · rw [line]; rfl
  · rw [carriage]; rfl
  · rw [tab]; rfl
  · have other : isOther c = true := by simp [isOther, control, back, feed, line, carriage, tab]
    rw [readBack, if_pos other]
    exact unescape_control (isHex_digitChar (by omega)) (isHex_digitChar (by omega))
  · have plain : isOther c = false := by simp [isOther, control]
    rw [readBack, plain]
    exact unescape_plain slash

theorem unescape_jsonEscape (s : List Char) : unescape (jsonEscape s) = s.flatMap readBack := by
  induction s with
  | nil => rfl
  | cons c s ih =>
      rw [jsonEscape, List.flatMap_cons, List.flatMap_cons, unescape_escapeChar]
      congr 1

theorem flatMap_readBack {s : List Char} (none : ∀ c ∈ s, isOther c = false) :
    s.flatMap readBack = s := by
  have kept : ∀ c ∈ s, readBack c = [c] := by
    intro c member
    rw [readBack, none c member]
    rfl
  rw [List.flatMap_congr kept, List.flatMap_singleton']

/-- **An escaped string is read back**, and what follows its closing quote is left.  A control
character without a short escape comes back as its escape. -/
theorem parseString_jsonEscape (s rest : List Char) :
    parseString ('"' :: jsonEscape s ++ '"' :: rest) = some (s.flatMap readBack, rest) ∧
      ((∀ c ∈ s, isOther c = false) →
        parseString ('"' :: jsonEscape s ++ '"' :: rest) = some (s, rest)) := by
  have read : parseString ('"' :: jsonEscape s ++ '"' :: rest) =
      some (s.flatMap readBack, rest) := by
    rw [List.cons_append, parseString, stringLoop_body (body_jsonEscape s) rest,
      unescape_jsonEscape]
  refine ⟨read, ?_⟩
  intro none
  rw [read, flatMap_readBack none]

/-! ## What is printed is a number -/

theorem number_withSign {w f e : List Char} (negative : Bool) (whole : Whole w)
    (fraction : Fraction f) (exponent : Exponent e) : Number (withSign negative (w ++ f ++ e)) := by
  cases negative with
  | false => exact Number.parts (.inl rfl) whole fraction exponent
  | true => exact Number.parts (.inr rfl) whole fraction exponent

theorem number_decimal (n : Int) : Number (decimal n) := by
  have printed := number_withSign (decide (n < 0)) (whole_toDigits n.natAbs) .none .none
  rw [List.append_nil, List.append_nil] at printed
  rw [decimal]
  split
  · rename_i negative
    rwa [decide_eq_true negative] at printed
  · rename_i positive
    rwa [decide_eq_false positive] at printed

theorem whole_take {w : List Char} (whole : Whole w) (k : Nat) : Whole (w.take (k + 1)) := by
  cases whole with
  | zero =>
      rw [List.take_succ_cons, List.take_nil]
      exact .zero
  | digits digit nonzero rest =>
      exact .digits digit nonzero fun d member => rest d (List.mem_of_mem_take member)

theorem fraction_digits {digits : List Char} (all : ∀ d ∈ digits, d.isDigit = true) :
    Fraction (fraction digits) := by
  have kept : ∀ d ∈ digits.rdropWhile (· == '0'), d.isDigit = true :=
    fun d member => all d ((List.rdropWhile_prefix _ _).subset member)
  rw [fraction]
  split
  · exact .none
  · rename_i some
    exact .some ⟨some, kept⟩

theorem exponentDigits_digits (n : Nat) :
    exponentDigits n ≠ [] ∧ ∀ d ∈ exponentDigits n, d.isDigit = true := by
  rw [exponentDigits]
  split
  · exact ⟨by simp, List.forall_mem_cons.2 ⟨by decide, toDigits_isDigit⟩⟩
  · exact ⟨(whole_digits (whole_toDigits n)).1, toDigits_isDigit⟩

theorem number_generalPositive (negative : Bool) (p : Nat) (q : ℚ) :
    Number (withSign negative (generalPositive p q)) := by
  rw [generalPositive]
  generalize significant p q = printed
  obtain ⟨x, n⟩ := printed
  have digits := @toDigits_isDigit n
  have behind (k : Nat) : ∀ d ∈ (Nat.toDigits 10 n).drop k, d.isDigit = true :=
    fun d member => digits d (List.mem_of_mem_drop member)
  have scientific (mark : Char) (isMark : [mark] = ['+'] ∨ [mark] = ['-']) :
      Number (withSign negative ((Nat.toDigits 10 n).take 1 ++
        fraction ((Nat.toDigits 10 n).drop 1) ++ ['e', mark] ++ exponentDigits x.natAbs)) := by
    have exponent : Exponent (['e', mark] ++ exponentDigits x.natAbs) :=
      .some (.inl rfl) (.inr isMark) (exponentDigits_digits x.natAbs)
    have number := number_withSign negative (whole_take (whole_toDigits n) 0)
      (fraction_digits (behind 1)) exponent
    rwa [← List.append_assoc] at number
  simp only
  split_ifs with small below
  · have zeros : ∀ d ∈ List.replicate (-x - 1).toNat '0' ++ Nat.toDigits 10 n,
        d.isDigit = true := by
      refine List.forall_mem_append.2 ⟨fun d member => ?_, digits⟩
      rw [List.eq_of_mem_replicate member]
      rfl
    have number := number_withSign negative .zero (fraction_digits zeros) .none
    rwa [List.append_nil] at number
  · obtain ⟨k, same⟩ : ∃ k, (x + 1).toNat = k + 1 := ⟨x.toNat, by omega⟩
    have number := number_withSign negative (whole_take (whole_toDigits n) k)
      (fraction_digits (behind (k + 1))) .none
    rwa [List.append_nil, ← same] at number
  · exact scientific '-' (.inr rfl)
  · exact scientific '+' (.inl rfl)

theorem number_general (p : Nat) (q : ℚ) : Number (general p (.finite q)) := by
  rw [general]
  split
  · exact number_decimal 0
  · exact number_generalPositive _ p |q|

theorem number_numberText (p : Nat) (q : ℚ) : Number (numberText p (.finite q)) := by
  rw [numberText]
  split
  · exact number_decimal _
  · exact number_general p q

end Clumsy.Text
