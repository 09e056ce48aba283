/-
# Text.Number -- numbers as C reads and prints them

`strtol` and `strtod` read the longest prefix that is a number, and the `printf`
conversions of the program print one.  A text is its bytes, each taken as the character
of that number.
-/
import Mathlib
import Clumsy.Theory.Binary

namespace Clumsy.Text

open Clumsy.Theory

set_option autoImplicit false

/-- `isspace` in the C locale. -/
def isSpace (c : Char) : Bool :=
  c == ' ' || c == '\t' || c == '\n' || c == '\x0b' || c == '\x0c' || c == '\r'

/-- The value of a string of digits. -/
def digitsValue (digits : List Char) : Nat := Nat.ofDigitChars 10 digits 0

/-- An optional sign; `true` is minus. -/
def sign : List Char → Bool × List Char
  | '-' :: s => (true, s)
  | '+' :: s => (false, s)
  | s => (false, s)

/-! ## Integers -/

/-- `strtol(s, NULL, 10)`, which stops at the ends of a 64-bit `long`. -/
def strtol (s : List Char) : Int :=
  let (negative, s) := sign (s.dropWhile isSpace)
  let n := digitsValue (s.takeWhile Char.isDigit)
  if negative then max (-n) (-2 ^ 63) else min n (2 ^ 63 - 1)

/-- `atol`. -/
def atol (s : List Char) : Int := strtol s

/-- `atoi`: the low 32 bits. -/
def atoi (s : List Char) : Int := (strtol s).bmod (2 ^ 32)

/-- `%d` and `%ld`. -/
def decimal (n : Int) : List Char :=
  if n < 0 then '-' :: Nat.toDigits 10 n.natAbs else Nat.toDigits 10 n.natAbs

/-! ## Doubles -/

/-- Whether `s` starts with `word`, letters of either case. -/
def startsWith (word s : List Char) : Bool :=
  (s.take word.length).map Char.toLower == word

def isHexDigit (c : Char) : Bool :=
  c.isDigit || ('a' ≤ c.toLower && c.toLower ≤ 'f')

def hexValue (c : Char) : Nat :=
  if c.isDigit then c.toNat - '0'.toNat else c.toLower.toNat - 'a'.toNat + 10

/-- The digits in front of and behind a point, and the rest. -/
def mantissa (isDigit : Char → Bool) (s : List Char) : List Char × List Char × List Char :=
  match s.dropWhile isDigit with
  | '.' :: t => (s.takeWhile isDigit, t.takeWhile isDigit, t.dropWhile isDigit)
  | t => (s.takeWhile isDigit, [], t)

/-- An exponent behind `mark`, which stays if no digits follow. -/
def exponent (mark : Char) (s : List Char) : Int × List Char :=
  match s with
  | [] => (0, [])
  | c :: t =>
      let (negative, u) := sign t
      if c.toLower = mark ∧ u.takeWhile Char.isDigit ≠ [] then
        let n : Int := digitsValue (u.takeWhile Char.isDigit)
        (if negative then -n else n, u.dropWhile Char.isDigit)
      else (0, s)

/-- A decimal number without a sign. -/
def scanDecimal (s : List Char) : Option (ℚ × List Char) :=
  let (whole, fraction, t) := mantissa Char.isDigit s
  if whole = [] ∧ fraction = [] then none
  else
    let (e, rest) := exponent 'e' t
    some (digitsValue (whole ++ fraction) * (10 : ℚ) ^ (e - fraction.length), rest)

/-- A hexadecimal number behind its `0x`. -/
def scanHex (s : List Char) : Option (ℚ × List Char) :=
  let (whole, fraction, t) := mantissa isHexDigit s
  if whole = [] ∧ fraction = [] then none
  else
    let (e, rest) := exponent 'p' t
    let n := (whole ++ fraction).foldl (fun n c => 16 * n + hexValue c) 0
    some (n * (2 : ℚ) ^ (e - 4 * fraction.length), rest)

/-- What stands behind a `nan`: a sequence in parentheses may follow. -/
def afterNan (s : List Char) : List Char :=
  match s with
  | '(' :: t =>
      match t.dropWhile fun c => c.isAlphanum || c == '_' with
      | ')' :: rest => rest
      | _ => s
  | _ => s

/-- A number without a sign, as `strtod` reads it. -/
def scanNumber (s : List Char) : Option (Fp × List Char) :=
  if startsWith "infinity".toList s then some (.infinite false, s.drop 8)
  else if startsWith "inf".toList s then some (.infinite false, s.drop 3)
  else if startsWith "nan".toList s then some (.nan, afterNan (s.drop 3))
  else
    match (if startsWith "0x".toList s then scanHex (s.drop 2) else none) with
    | some (q, rest) => some (binary64.round q, rest)
    | none => (scanDecimal s).map fun (q, rest) => (binary64.round q, rest)

def Fp.negate : Fp → Fp
  | .finite q => .finite (-q)
  | .infinite negative => .infinite !negative
  | .nan => .nan

/-- `strtod`: the value and the rest, or nothing if there is no number. -/
def strtod (s : List Char) : Option (Fp × List Char) :=
  let (negative, t) := sign (s.dropWhile isSpace)
  (scanNumber t).map fun (x, rest) => (if negative then Fp.negate x else x, rest)

/-- `atof`. -/
def atof (s : List Char) : Fp := ((strtod s).map Prod.fst).getD (.finite 0)

/-- `(int)x`; what does not fit is the least `int`, as the conversion of the processor
has it. -/
def toInt : Fp → Int
  | .finite q =>
      let n := if q < 0 then ⌈q⌉ else ⌊q⌋
      if -2 ^ 31 ≤ n ∧ n < 2 ^ 31 then n else -2 ^ 31
  | _ => -2 ^ 31

/-! ## Printed -/

/-- A number of tenths with one decimal. -/
def tenths (n : Nat) : List Char := Nat.toDigits 10 (n / 10) ++ ['.', Nat.digitChar (n % 10)]

def withSign (negative : Bool) (s : List Char) : List Char := if negative then '-' :: s else s

/-- `%.1f`. -/
def fixed1 : Fp → List Char
  | .finite q => withSign (decide (q < 0)) (tenths (roundEven (|q| * 10)).natAbs)
  | .infinite negative => withSign negative "inf".toList
  | .nan => "nan".toList

/-- A fraction without the zeros at its end, and no point if nothing is left. -/
def fraction (digits : List Char) : List Char :=
  match digits.rdropWhile (· == '0') with
  | [] => []
  | digits => '.' :: digits

/-- The decimal exponent and the `p` digits `%e` prints of a positive number. -/
def significant (p : Nat) (q : ℚ) : Int × Nat :=
  let x := Int.log 10 q
  let n := (roundEven (q / (10 : ℚ) ^ (x - (p - 1 : Int)))).natAbs
  if n < 10 ^ p then (x, n) else (x + 1, 10 ^ (p - 1))

/-- At least two digits. -/
def exponentDigits (n : Nat) : List Char :=
  if n < 10 then '0' :: Nat.toDigits 10 n else Nat.toDigits 10 n

/-- `%.<p>g` of a positive number. -/
def generalPositive (p : Nat) (q : ℚ) : List Char :=
  let (x, n) := significant p q
  let digits := Nat.toDigits 10 n
  if -4 ≤ x ∧ x < p then
    if x < 0 then '0' :: fraction (List.replicate (-x - 1).toNat '0' ++ digits)
    else digits.take (x + 1).toNat ++ fraction (digits.drop (x + 1).toNat)
  else
    digits.take 1 ++ fraction (digits.drop 1) ++ ['e', if x < 0 then '-' else '+'] ++
      exponentDigits x.natAbs

/-- `%.<p>g`. -/
def general (p : Nat) : Fp → List Char
  | .finite q =>
      if q = 0 then ['0'] else withSign (decide (q < 0)) (generalPositive p |q|)
  | .infinite negative => withSign negative "inf".toList
  | .nan => "nan".toList

end Clumsy.Text
