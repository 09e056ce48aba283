/-
# Filter.Grammar -- the filter language

The language of the header of `filterexpr.cpp`, stated without the code: `Lexes`
cuts a text into terminals, longest first, and `Derives` is the grammar over
terminals, with the formula each derivation denotes.

`Terminal` keeps the exact value of a literal, the lexer's token a 32-bit one;
the two agree on the literals the language promises (`LiteralsOk`), and there the
lexer finds the one way to cut a text (`terminals_of_lexes` in `Filter.Scan`).
-/
import Clumsy.Filter.Parser

namespace Clumsy.Filter

open Clumsy.Theory

set_option autoImplicit false

/-! ## Terminals -/

inductive Terminal where
  | lparen
  | rparen
  /-- `!`. -/
  | bang
  | cmpOp (op : Op)
  /-- `&&`. -/
  | conj
  /-- `||`. -/
  | disj
  | word (w : List Char)
  | number (n : Nat)
  | addr (a b c d : Nat)
  /-- A dotted literal that is not four numbers. -/
  | badDotted
  /-- Any other character. -/
  | junk
  deriving DecidableEq, Repr

/-- The symbols of two characters. -/
def symbols2 : List (Char × Char × Terminal) :=
  [('!', '=', .cmpOp .ne), ('<', '=', .cmpOp .le), ('>', '=', .cmpOp .ge), ('=', '=', .cmpOp .eq),
    ('&', '&', .conj), ('|', '|', .disj)]

/-- The symbols of one character; `=` is accepted as `==`. -/
def symbols1 : List (Char × Terminal) :=
  [('(', .lparen), (')', .rparen), ('!', .bang), ('<', .cmpOp .lt), ('>', .cmpOp .gt),
    ('=', .cmpOp .eq), ('&', .junk), ('|', .junk)]

/-- A text does not go on with a character of the class. -/
def Ends (p : Char → Bool) (s : List Char) : Prop := ∀ c ∈ s.head?, p c = false

/-- Four groups of digits with dots between them. -/
def Dotted (w a b c d : List Char) : Prop :=
  w = a ++ '.' :: b ++ '.' :: c ++ '.' :: d ∧
    ∀ group ∈ [a, b, c, d], group ≠ [] ∧ ∀ x ∈ group, x.isDigit = true

/-- **The terminals of a text**: blanks separate, and every terminal is as long as
it can be. -/
inductive Lexes : List Char → List Terminal → Prop
  | done : Lexes [] []
  | space {c : Char} {s : List Char} {ts : List Terminal} (blank : isSpace c = true)
      (rest : Lexes s ts) : Lexes (c :: s) ts
  | symbol2 {c d : Char} {t : Terminal} {s : List Char} {ts : List Terminal}
      (symbol : (c, d, t) ∈ symbols2) (rest : Lexes s ts) : Lexes (c :: d :: s) (t :: ts)
  | symbol1 {c : Char} {t : Terminal} {s : List Char} {ts : List Terminal}
      (symbol : (c, t) ∈ symbols1) (alone : ∀ d ∈ s.head?, ∀ t', (c, d, t') ∉ symbols2)
      (rest : Lexes s ts) : Lexes (c :: s) (t :: ts)
  | word {c : Char} {w s : List Char} {ts : List Terminal} (start : isIdentStart c = true)
      (inside : ∀ x ∈ w, isIdentChar x = true) (ends : Ends isIdentChar s) (rest : Lexes s ts) :
      Lexes (c :: w ++ s) (.word (c :: w) :: ts)
  | number {w s : List Char} {ts : List Terminal} (some : w ≠ [])
      (inside : ∀ x ∈ w, x.isDigit = true) (ends : Ends isLiteralChar s) (rest : Lexes s ts) :
      Lexes (w ++ s) (.number (decimal w) :: ts)
  | addr {w a b c d s : List Char} {ts : List Terminal} (dotted : Dotted w a b c d)
      (ends : Ends isLiteralChar s) (rest : Lexes s ts) :
      Lexes (w ++ s) (.addr (decimal a) (decimal b) (decimal c) (decimal d) :: ts)
  | badDotted {x : Char} {w s : List Char} {ts : List Terminal} (start : x.isDigit = true)
      (inside : ∀ y ∈ w, isLiteralChar y = true) (dot : '.' ∈ w)
      (bad : ∀ a b c d, ¬Dotted (x :: w) a b c d) (ends : Ends isLiteralChar s)
      (rest : Lexes s ts) : Lexes (x :: w ++ s) (.badDotted :: ts)
  | junk {c : Char} {s : List Char} {ts : List Terminal} (blank : isSpace c = false)
      (symbol : c ∉ punctuation) (digit : c.isDigit = false) (letter : isIdentStart c = false)
      (rest : Lexes s ts) : Lexes (c :: s) (.junk :: ts)

/-- Number literals are below 2^32, the octets of dotted literals at most 255. -/
def Terminal.LiteralOk : Terminal → Prop
  | .number n => n < 2 ^ 32
  | .addr a b c d => a ≤ 255 ∧ b ≤ 255 ∧ c ≤ 255 ∧ d ≤ 255
  | .badDotted => False
  | _ => True

def LiteralsOk (ts : List Terminal) : Prop := ∀ t ∈ ts, t.LiteralOk

/-! ## The grammar -/

/-- What a keyword stands for. -/
def keywordFormulas : List (String × Formula Atom) :=
  [("true", .tt), ("false", .ff), ("outbound", .atom .outbound), ("inbound", .atom .inbound),
    ("loopback", .atom .loopback), ("ip", .atom .ipv4), ("ipv6", .atom .ipv6),
    ("tcp", .atom (.cmp .ipProto .eq 6)), ("udp", .atom (.cmp .ipProto .eq 17)),
    ("icmp", .atom (.cmp .ipProto .eq 1)), ("icmpv6", .atom (.cmp .ipProto .eq 58))]

def Terminal.isOr : Terminal → Bool
  | .word w => stricmp w "or"
  | .disj => true
  | _ => false

def Terminal.isAnd : Terminal → Bool
  | .word w => stricmp w "and"
  | .conj => true
  | _ => false

def Terminal.isNot : Terminal → Bool
  | .word w => stricmp w "not"
  | .bang => true
  | _ => false

/-- The levels of the grammar, loosest first. -/
inductive Level where
  | or
  | and
  | not
  | prim
  deriving DecidableEq, Repr

/-- **The grammar**: `Derives level ts φ` is a derivation of the terminals `ts`
from the level, and `φ` what it denotes.  `or` and `and` associate to the left. -/
inductive Derives : Level → List Terminal → Formula Atom → Prop
  | orOne {ts : List Terminal} {φ : Formula Atom} (one : Derives .and ts φ) : Derives .or ts φ
  | orMore {ts us : List Terminal} {t : Terminal} {φ ψ : Formula Atom} (left : Derives .or ts φ)
      (word : t.isOr = true) (right : Derives .and us ψ) :
      Derives .or (ts ++ t :: us) (.or φ ψ)
  | andOne {ts : List Terminal} {φ : Formula Atom} (one : Derives .not ts φ) : Derives .and ts φ
  | andMore {ts us : List Terminal} {t : Terminal} {φ ψ : Formula Atom} (left : Derives .and ts φ)
      (word : t.isAnd = true) (right : Derives .not us ψ) :
      Derives .and (ts ++ t :: us) (.and φ ψ)
  | notOne {ts : List Terminal} {φ : Formula Atom} (one : Derives .prim ts φ) : Derives .not ts φ
  | notMore {ts : List Terminal} {t : Terminal} {φ : Formula Atom} (word : t.isNot = true)
      (operand : Derives .not ts φ) : Derives .not (t :: ts) (.not φ)
  | paren {ts : List Terminal} {φ : Formula Atom} (inner : Derives .or ts φ) :
      Derives .prim (.lparen :: ts ++ [.rparen]) φ
  | keyword {w : List Char} {φ : Formula Atom} (known : lookup keywordFormulas w = some φ) :
      Derives .prim [.word w] φ
  | number {w : List Char} {field : Field} {op : Op} {n : Nat} (known : lookup fields w = some field)
      (kind : field.wantsAddr = false) :
      Derives .prim [.word w, .cmpOp op, .number n] (.atom (.cmp field op n))
  | addr {w : List Char} {field : Field} {op : Op} {a b c d : Nat}
      (known : lookup fields w = some field) (kind : field.wantsAddr = true) :
      Derives .prim [.word w, .cmpOp op, .addr a b c d]
        (.atom (.cmp field op (a * 2 ^ 24 + b * 2 ^ 16 + c * 2 ^ 8 + d)))

end Clumsy.Filter
