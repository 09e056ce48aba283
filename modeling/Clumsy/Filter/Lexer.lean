/-
# Filter.Lexer -- filterexpr.cpp: characters to tokens

`next` is the `Lexer::next` of the source on the characters that are left; the
source keeps a pointer, here the rest is returned.  `tokens` is what repeated
calls yield up to the end of the input.  Every call that does not report the end
consumes a character (`next_shorter`), so as many calls as there are characters
reach it (`tokens_eq`).
-/
import Clumsy.Filter.Program

namespace Clumsy.Filter

set_option autoImplicit false

inductive TokenKind where
  | endOfInput
  | ident
  | number
  | ipv4
  | punct
  deriving DecidableEq, Repr

structure Token where
  kind : TokenKind
  text : List Char := []
  num  : UInt32 := 0
  deriving DecidableEq, Repr

def isSpace (c : Char) : Bool := c == ' ' || c == '\t' || c == '\r' || c == '\n'

def isIdentStart (c : Char) : Bool := c.isAlpha || c == '_'

def isIdentChar (c : Char) : Bool := isIdentStart c || c.isDigit || c == '.'

/-- The characters of a number or a dotted literal. -/
def isLiteralChar (c : Char) : Bool := c.isDigit || c == '.'

/-- The characters `next` treats as punctuation. -/
def punctuation : List Char := ['(', ')', '!', '<', '>', '=', '&', '|']

/-- The value of a string of decimal digits. -/
def decimal (digits : List Char) : Nat :=
  digits.foldl (fun n c => 10 * n + (c.toNat - '0'.toNat)) 0

/-- `strtoul(text, nullptr, 10)` of a string of digits: it stops at `ULONG_MAX`. -/
def strtoul (digits : List Char) : Nat := min (decimal digits) (2 ^ 64 - 1)

/-! ## Dotted literals -/

/-- One `%u` of `sscanf` on digits and dots. -/
def scanNumber (s : List Char) : Option (UInt32 × List Char) :=
  match s.takeWhile Char.isDigit with
  | [] => none
  | digits => some (UInt32.ofNat (strtoul digits), s.dropWhile Char.isDigit)

def scanDot : List Char → Option (List Char)
  | '.' :: s => some s
  | _ => none

/-- `sscanf(s, "%u.%u.%u.%u%c", ..) == 4`: four numbers and nothing behind. -/
def scanDotted (s : List Char) : Option (UInt32 × UInt32 × UInt32 × UInt32) := do
  let (a, s) ← scanNumber s
  let s ← scanDot s
  let (b, s) ← scanNumber s
  let s ← scanDot s
  let (c, s) ← scanNumber s
  let s ← scanDot s
  let (d, s) ← scanNumber s
  if s.isEmpty then some (a, b, c, d) else none

def parseIPv4 (s : List Char) : Option UInt32 :=
  match scanDotted s with
  | none => none
  | some (a, b, c, d) =>
      if a > 255 ∨ b > 255 ∨ c > 255 ∨ d > 255 then none
      else some (a <<< (24 : UInt32) ||| b <<< (16 : UInt32) ||| c <<< (8 : UInt32) ||| d)

/-! ## Tokens -/

/-- Punctuation, with its two-character forms. -/
def lexPunct (c : Char) (rest : List Char) : Token × List Char :=
  match rest with
  | d :: more =>
      if (c == '!' || c == '<' || c == '>' || c == '=') && d == '=' then
        ({ kind := .punct, text := [c, d] }, more)
      else if (c == '&' && d == '&') || (c == '|' && d == '|') then
        ({ kind := .punct, text := [c, d] }, more)
      else ({ kind := .punct, text := [c] }, rest)
  | [] => ({ kind := .punct, text := [c] }, [])

/-- A number or a dotted literal; one that is malformed becomes a `?`. -/
def lexLiteral (p : List Char) : Token × List Char :=
  let text := p.takeWhile isLiteralChar
  let rest := p.dropWhile isLiteralChar
  if text.contains '.' then
    match parseIPv4 text with
    | none => ({ kind := .punct, text := ['?'] }, rest)
    | some addr => ({ kind := .ipv4, text, num := addr }, rest)
  else ({ kind := .number, text, num := UInt32.ofNat (strtoul text) }, rest)

def lexIdent (p : List Char) : Token × List Char :=
  ({ kind := .ident, text := p.takeWhile isIdentChar }, p.dropWhile isIdentChar)

/-- `Lexer::next`. -/
def next (src : List Char) : Token × List Char :=
  match src.dropWhile isSpace with
  | [] => ({ kind := .endOfInput }, [])
  | c :: rest =>
      if punctuation.contains c then lexPunct c rest
      else if c.isDigit then lexLiteral (c :: rest)
      else if isIdentStart c then lexIdent (c :: rest)
      else ({ kind := .punct, text := [c] }, rest)

/-- At most `fuel` calls of `next`, up to the end of the input. -/
def tokensFrom : Nat → List Char → List Token
  | 0, _ => []
  | fuel + 1, src =>
      if (next src).1.kind = .endOfInput then []
      else (next src).1 :: tokensFrom fuel (next src).2

/-- The tokens of an input. -/
def tokens (src : List Char) : List Token := tokensFrom src.length src

/-! ## Progress -/

theorem length_dropWhile_le {α : Type} (p : α → Bool) (as : List α) :
    (as.dropWhile p).length ≤ as.length := (List.dropWhile_suffix p).length_le

theorem lexPunct_shorter (c : Char) (rest : List Char) :
    (lexPunct c rest).2.length ≤ rest.length := by
  unfold lexPunct
  split
  · split
    · simp
    · split <;> simp
  · simp

theorem lexPunct_kind (c : Char) (rest : List Char) : (lexPunct c rest).1.kind = .punct := by
  unfold lexPunct
  split
  · split
    · rfl
    · split <;> rfl
  · rfl

theorem lexLiteral_rest (p : List Char) :
    (lexLiteral p).2 = p.dropWhile isLiteralChar := by
  simp only [lexLiteral]
  split
  · split <;> rfl
  · rfl

theorem lexLiteral_kind (p : List Char) : (lexLiteral p).1.kind ≠ .endOfInput := by
  simp only [lexLiteral]
  split
  · split <;> simp
  · simp

/-- **Every token consumes at least one character.** -/
theorem next_shorter (src : List Char) (more : (next src).1.kind ≠ .endOfInput) :
    (next src).2.length < src.length := by
  have skipped := length_dropWhile_le isSpace src
  unfold next at more ⊢
  cases start : src.dropWhile isSpace with
  | nil =>
      rw [start] at more
      exact absurd rfl more
  | cons c rest =>
      rw [start] at skipped
      simp only [List.length_cons] at skipped
      simp only
      split
      · have := lexPunct_shorter c rest
        omega
      · split
        · rename_i digit
          have first : isLiteralChar c = true := by simp [isLiteralChar, digit]
          rw [lexLiteral_rest, List.dropWhile_cons_of_pos first]
          have := length_dropWhile_le isLiteralChar rest
          omega
        · split
          · rename_i letter
            have first : isIdentChar c = true := by simp [isIdentChar, letter]
            show (List.dropWhile isIdentChar (c :: rest)).length < src.length
            rw [List.dropWhile_cons_of_pos first]
            have := length_dropWhile_le isIdentChar rest
            omega
          · show rest.length < src.length
            omega

theorem tokensFrom_eq {fuel fuel' : Nat} {src : List Char} (enough : src.length ≤ fuel)
    (enough' : src.length ≤ fuel') : tokensFrom fuel src = tokensFrom fuel' src := by
  induction fuel generalizing fuel' src with
  | zero =>
      have empty : src = [] := List.eq_nil_of_length_eq_zero (Nat.le_zero.1 enough)
      subst empty
      cases fuel' <;> rfl
  | succ fuel ih =>
      cases fuel' with
      | zero =>
          have empty : src = [] := List.eq_nil_of_length_eq_zero (Nat.le_zero.1 enough')
          subst empty
          rfl
      | succ fuel' =>
          simp only [tokensFrom]
          split
          · rfl
          · rename_i more
            have shorter := next_shorter src more
            rw [ih (by omega : (next src).2.length ≤ fuel) (by omega : _ ≤ fuel')]

/-- The tokens are the first one and the tokens of the rest. -/
theorem tokens_eq (src : List Char) :
    tokens src =
      if (next src).1.kind = .endOfInput then [] else (next src).1 :: tokens (next src).2 := by
  unfold tokens
  cases src with
  | nil => rfl
  | cons c src =>
      rw [List.length_cons]
      simp only [tokensFrom]
      split
      · rfl
      · rename_i more
        have shorter := next_shorter (c :: src) more
        rw [List.length_cons] at shorter
        have fits : (next (c :: src)).2.length ≤ src.length := by omega
        rw [tokensFrom_eq fits (Nat.le_refl _)]

end Clumsy.Filter
