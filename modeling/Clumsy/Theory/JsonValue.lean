/-
# Theory.JsonValue -- JSON values and the texts that render them

A value, apart from how it is written: a string is the characters it stands for, a number
is a rational, arrays and objects keep their order, and an object may have a name twice.
`Stands` ties a tree of `Theory.Json` to the value it is a writing of, and a text renders a
value if the grammar derives such a tree from it.

Strings are written without `\u` escapes here: what a character outside of ASCII is made of
is up to the encoding of the text.
-/
import Clumsy.Theory.Json

namespace Clumsy.Theory.Json

set_option autoImplicit false

inductive Value where
  | null
  | bool (b : Bool)
  | number (q : ℚ)
  | string (s : List Char)
  | array (items : List Value)
  | object (members : List (List Char × Value))

def Value.isNumber : Value → Bool
  | .number _ => true
  | _ => false

mutual

/-- How many containers stand around the innermost value. -/
def nesting : Value → Nat
  | .null => 0
  | .bool _ => 0
  | .number _ => 0
  | .string _ => 0
  | .array items => nestings items + 1
  | .object members => memberNestings members + 1

def nestings : List Value → Nat
  | [] => 0
  | v :: vs => max (nesting v) (nestings vs)

def memberNestings : List (List Char × Value) → Nat
  | [] => 0
  | (_, v) :: ms => max (nesting v) (memberNestings ms)

end

/-! ## Strings and numbers -/

/-- A character behind a backslash and the one it stands for. -/
def escaped : List (Char × Char) :=
  [('"', '"'), ('\\', '\\'), ('/', '/'), ('b', '\x08'), ('f', '\x0c'), ('n', '\n'),
    ('r', '\r'), ('t', '\t')]

/-- What stands between the quotes, and the string it stands for. -/
inductive Spells : List Char → List Char → Prop
  | nil : Spells [] []
  | plain {c : Char} {s t : List Char} : 0x20 ≤ c.toNat → c ≠ '"' → c ≠ '\\' → Spells s t →
      Spells (c :: s) (c :: t)
  | escape {c d : Char} {s t : List Char} : (c, d) ∈ escaped → Spells s t →
      Spells ('\\' :: c :: s) (d :: t)

def natural (digits : List Char) : Nat := Nat.ofDigitChars 10 digits 0

/-- The value of an exponent with its mark. -/
def scale : List Char → Int
  | _ :: '-' :: s => -natural s
  | _ :: '+' :: s => natural s
  | _ :: s => natural s
  | [] => 0

/-- The value of digits, a fraction with its point and an exponent with its mark. -/
def magnitude (whole fraction exponent : List Char) : ℚ :=
  natural (whole ++ fraction.drop 1) * (10 : ℚ) ^ (scale exponent - (fraction.drop 1).length)

/-- A number and its value. -/
inductive Counts : List Char → ℚ → Prop
  | positive {w f e : List Char} : Whole w → Fraction f → Exponent e →
      Counts (w ++ f ++ e) (magnitude w f e)
  | negative {w f e : List Char} : Whole w → Fraction f → Exponent e →
      Counts ('-' :: (w ++ f ++ e)) (-magnitude w f e)

/-! ## Renderings -/

/-- The tree is a writing of the value. -/
inductive Stands : Tree → Value → Prop
  | null : Stands .null .null
  | bool (b : Bool) : Stands (.bool b) (.bool b)
  | number {text : List Char} {q : ℚ} : Counts text q → Stands (.number text) (.number q)
  | string {body s : List Char} : Spells body s → Stands (.string body) (.string s)
  | noItems : Stands (.array []) (.array [])
  | item {t : Tree} {v : Value} {ts : List Tree} {vs : List Value} : Stands t v →
      Stands (.array ts) (.array vs) → Stands (.array (t :: ts)) (.array (v :: vs))
  | noMembers : Stands (.object []) (.object [])
  | member {key name : List Char} {t : Tree} {v : Value} {ts : List (List Char × Tree)}
      {vs : List (List Char × Value)} : Spells key name → Stands t v →
      Stands (.object ts) (.object vs) →
      Stands (.object ((key, t) :: ts)) (.object ((name, v) :: vs))

/-- The text is a rendering of the value. -/
def Renders (v : Value) (s : List Char) : Prop := ∃ t, Text s t ∧ Stands t v

theorem Counts.number {text : List Char} {q : ℚ} (counts : Counts text q) : Number text := by
  cases counts with
  | positive whole fraction exponent => exact .parts (.inl rfl) whole fraction exponent
  | negative whole fraction exponent => exact .parts (.inr rfl) whole fraction exponent

end Clumsy.Theory.Json
