/-
# Theory.Json -- the grammar of JSON texts

The grammar of RFC 8259 as derivations, with the tree a text stands for.  Strings and
numbers stay as they are written: what an escape or a number means is up to the reader of
the tree.  A character is a byte of the text or any code point; well-formedness of UTF-8
is not asked for.

A property of texts is proved by induction on `Derives`, one case for each production.
-/
import Mathlib

namespace Clumsy.Theory.Json

set_option autoImplicit false

/-! ## Words -/

def isWhite (c : Char) : Bool := c == ' ' || c == '\t' || c == '\n' || c == '\r'

def White (s : List Char) : Prop := ∀ c ∈ s, isWhite c = true

def Digits (s : List Char) : Prop := s ≠ [] ∧ ∀ c ∈ s, c.isDigit = true

/-- An integer without leading zeros. -/
inductive Whole : List Char → Prop
  | zero : Whole ['0']
  | digits {c : Char} {s : List Char} : c.isDigit = true → c ≠ '0' →
      (∀ d ∈ s, d.isDigit = true) → Whole (c :: s)

inductive Fraction : List Char → Prop
  | none : Fraction []
  | some {s : List Char} : Digits s → Fraction ('.' :: s)

inductive Exponent : List Char → Prop
  | none : Exponent []
  | some {e : Char} {sign s : List Char} : e = 'e' ∨ e = 'E' →
      sign = [] ∨ sign = ['+'] ∨ sign = ['-'] → Digits s → Exponent (e :: sign ++ s)

inductive Number : List Char → Prop
  | parts {minus whole fraction exponent : List Char} : minus = [] ∨ minus = ['-'] →
      Whole whole → Fraction fraction → Exponent exponent →
      Number (minus ++ whole ++ fraction ++ exponent)

/-- The characters of numbers. -/
def isNumeral (c : Char) : Bool := c.isDigit || ['-', '+', '.', 'e', 'E'].contains c

theorem number_isNumeral {s : List Char} (number : Number s) : ∀ c ∈ s, isNumeral c = true := by
  have digit {c : Char} (isDigit : c.isDigit = true) : isNumeral c = true := by
    rw [isNumeral, isDigit, Bool.true_or]
  have digits {s : List Char} (all : ∀ d ∈ s, d.isDigit = true) : ∀ c ∈ s, isNumeral c = true :=
    fun c member => digit (all c member)
  cases number with
  | @parts minus whole fraction exponent isMinus isWhole isFraction isExponent =>
      refine List.forall_mem_append.2 ⟨List.forall_mem_append.2
        ⟨List.forall_mem_append.2 ⟨?_, ?_⟩, ?_⟩, ?_⟩
      · rcases isMinus with rfl | rfl <;> simp [isNumeral]
      · cases isWhole with
        | zero => simp [isNumeral]
        | digits first _ rest => exact List.forall_mem_cons.2 ⟨digit first, digits rest⟩
      · cases isFraction with
        | none => simp
        | some all => exact List.forall_mem_cons.2 ⟨by decide, digits all.2⟩
      · cases isExponent with
        | none => simp
        | some mark sign all =>
            refine List.forall_mem_append.2 ⟨List.forall_mem_cons.2 ⟨?_, ?_⟩, digits all.2⟩
            · rcases mark with rfl | rfl <;> decide
            · rcases sign with rfl | rfl | rfl <;> simp [isNumeral]

def isHex (c : Char) : Bool :=
  c.isDigit || ('a' ≤ c && c ≤ 'f') || ('A' ≤ c && c ≤ 'F')

/-- What may stand behind a backslash. -/
def escapes : List Char := ['"', '\\', '/', 'b', 'f', 'n', 'r', 't']

/-- What stands between the quotes of a string. -/
inductive Body : List Char → Prop
  | nil : Body []
  | plain {c : Char} {s : List Char} : 0x20 ≤ c.toNat → c ≠ '"' → c ≠ '\\' → Body s → Body (c :: s)
  | escape {c : Char} {s : List Char} : c ∈ escapes → Body s → Body ('\\' :: c :: s)
  | unicode {a b c d : Char} {s : List Char} : isHex a = true → isHex b = true → isHex c = true →
      isHex d = true → Body s → Body ('\\' :: 'u' :: a :: b :: c :: d :: s)

def quoted (body : List Char) : List Char := '"' :: body ++ ['"']

/-! ## Texts -/

inductive Tree where
  | null
  | bool (b : Bool)
  | number (text : List Char)
  | string (body : List Char)
  | array (items : List Tree)
  | object (members : List (List Char × Tree))

/-- The first member of that name. -/
def Tree.member (name : List Char) : Tree → Option Tree
  | .object members => members.lookup name
  | _ => none

/-- The parts of a text and what they stand for. -/
inductive Part where
  | value (v : Tree)
  | item (v : Tree)
  | elements (vs : List Tree)
  | pair (key : List Char) (v : Tree)
  | members (ms : List (List Char × Tree))

inductive Derives : Part → List Char → Prop
  | null : Derives (.value .null) "null".toList
  | bool (b : Bool) : Derives (.value (.bool b)) (if b then "true".toList else "false".toList)
  | number {s : List Char} : Number s → Derives (.value (.number s)) s
  | string {s : List Char} : Body s → Derives (.value (.string s)) (quoted s)
  | emptyArray {s : List Char} : White s → Derives (.value (.array [])) ('[' :: s ++ [']'])
  | array {vs : List Tree} {s : List Char} : Derives (.elements vs) s →
      Derives (.value (.array vs)) ('[' :: s ++ [']'])
  | emptyObject {s : List Char} : White s → Derives (.value (.object [])) ('{' :: s ++ ['}'])
  | object {ms : List (List Char × Tree)} {s : List Char} : Derives (.members ms) s →
      Derives (.value (.object ms)) ('{' :: s ++ ['}'])
  | item {v : Tree} {s t u : List Char} : White s → Derives (.value v) t → White u →
      Derives (.item v) (s ++ t ++ u)
  | lastElement {v : Tree} {s : List Char} : Derives (.item v) s → Derives (.elements [v]) s
  | element {v : Tree} {vs : List Tree} {s t : List Char} : Derives (.item v) s →
      Derives (.elements vs) t → Derives (.elements (v :: vs)) (s ++ ',' :: t)
  | pair {key : List Char} {v : Tree} {s t u : List Char} : White s → Body key → White t →
      Derives (.item v) u → Derives (.pair key v) (s ++ quoted key ++ t ++ ':' :: u)
  | lastMember {key : List Char} {v : Tree} {s : List Char} : Derives (.pair key v) s →
      Derives (.members [(key, v)]) s
  | member {key : List Char} {v : Tree} {ms : List (List Char × Tree)} {s t : List Char} :
      Derives (.pair key v) s → Derives (.members ms) t →
      Derives (.members ((key, v) :: ms)) (s ++ ',' :: t)

/-- A JSON text. -/
def Text (s : List Char) (v : Tree) : Prop := Derives (.item v) s

end Clumsy.Theory.Json
