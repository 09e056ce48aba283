/-
# Text.Numeral -- numbers are read whole

`strtod` reads more than the numbers of JSON, but a number of JSON it reads up to its end
(`strtod_number`), and no further unless what stands behind it makes a longer number
(`strtod_longest`).  What `printf` prints is read back: an integer as itself
(`atoi_decimal`), and tenths as the nearest `double` (`atof_tenths`).
-/
import Clumsy.Text.Number
import Clumsy.Theory.Json
import Clumsy.Theory.Scanning

namespace Clumsy.Text

open Clumsy.Theory
open Clumsy.Theory.Json (White isWhite Digits Whole Fraction Exponent Number)

set_option autoImplicit false

/-! ## What follows a number -/

/-- What may stand behind a value. -/
def endsItem (c : Char) : Bool := isWhite c || c == ',' || c == ']' || c == '}'

/-- The text ends here, or something stands here that may stand behind a value. -/
def Follows (rest : List Char) : Prop := ∀ c ∈ rest.head?, endsItem c = true

theorem follows_nil : Follows [] := by simp [Follows]

theorem follows_cons {c : Char} {rest : List Char} (ends : endsItem c = true) :
    Follows (c :: rest) := by
  intro d first
  cases first
  exact ends

theorem follows_white {s rest : List Char} (white : White s) (follows : Follows rest) :
    Follows (s ++ rest) := by
  cases s with
  | nil => exact follows
  | cons c s => exact follows_cons (by simp [endsItem, white c List.mem_cons_self])

/-- A class that has none of these characters ends behind a value. -/
theorem follows_stops {rest : List Char} (follows : Follows rest) {p : Char → Bool}
    (none : [' ', '\t', '\n', '\r', ',', ']', '}'].all (fun c => !p c) = true) :
    Stops p rest := by
  intro c first
  have ends := follows c first
  have listed : c ∈ [' ', '\t', '\n', '\r', ',', ']', '}'] := by
    simpa [endsItem, isWhite, or_assoc] using ends
  simpa using List.all_eq_true.1 none c listed

theorem digit_range {c : Char} (digit : c.isDigit = true) : 48 ≤ c.toNat ∧ c.toNat ≤ 57 := by
  simpa [Char.isDigit, UInt32.le_iff_toNat_le] using digit

theorem toLower_digit {c : Char} (digit : c.isDigit = true) : c.toLower = c := by
  have range := digit_range digit
  rw [Char.toLower, dif_neg]
  simp only [UInt32.le_iff_toNat_le]
  show ¬(65 ≤ c.toNat ∧ c.toNat ≤ 90)
  omega

theorem startsWith_cons (first c : Char) (word s : List Char) :
    startsWith (first :: word) (c :: s) = (c.toLower == first && startsWith word s) := by
  rw [startsWith, List.length_cons, List.take_succ_cons, List.map_cons, List.cons_beq_cons]
  rfl

/-- A number starts no other word. -/
theorem startsWith_digit {c first : Char} {word s : List Char} (digit : c.isDigit = true)
    (other : c ≠ first) : startsWith (first :: word) (c :: s) = false := by
  rw [startsWith_cons, toLower_digit digit, beq_false_of_ne other, Bool.false_and]

theorem ne_of_digit {c d : Char} (digit : c.isDigit = true) (other : d.isDigit = false) :
    c ≠ d := by
  rintro rfl
  rw [digit] at other
  cases other

theorem sign_digit {c : Char} {s : List Char} (digit : c.isDigit = true) :
    sign (c :: s) = (false, c :: s) := by
  have range := digit_range digit
  unfold sign
  split
  · next same => cases same; simp at range
  · next same => cases same; simp at range
  · rfl

theorem digits_cons {s : List Char} (digits : Digits s) :
    ∃ c t, s = c :: t ∧ c.isDigit = true ∧ ∀ d ∈ s, d.isDigit = true := by
  obtain ⟨some, all⟩ := digits
  obtain ⟨c, t, rfl⟩ := List.exists_cons_of_ne_nil some
  exact ⟨c, t, rfl, all c List.mem_cons_self, all⟩

/-! ## The parts of a number -/

/-- A fraction as `strtod` takes it: no digits need to stand behind the point. -/
def Fractional (f : List Char) : Prop :=
  f = [] ∨ ∃ s, f = '.' :: s ∧ ∀ d ∈ s, d.isDigit = true

/-- Nothing behind a number of these parts belongs to it. -/
structure Ends (w f e rest : List Char) : Prop where
  digits : Stops Char.isDigit rest
  point : f = [] → e = [] → Stops (· == '.') rest
  mark : e = [] → exponent 'e' rest = (0, rest)
  hex : startsWith "0x".toList (w ++ f ++ e ++ rest) = true →
    scanHex ((w ++ f ++ e ++ rest).drop 2) = none

theorem fraction_fractional {f : List Char} (fraction : Fraction f) : Fractional f := by
  cases fraction with
  | none => exact .inl rfl
  | @some s digits => exact .inr ⟨s, rfl, digits.2⟩

theorem whole_digits {w : List Char} (whole : Whole w) :
    w ≠ [] ∧ ∀ d ∈ w, d.isDigit = true := by
  cases whole with
  | zero => exact ⟨by simp, by simp⟩
  | digits digit _ all => exact ⟨by simp, List.forall_mem_cons.2 ⟨digit, all⟩⟩

theorem exponent_mark {s : List Char} (stops : Stops (fun c => c.toLower == 'e') s) :
    exponent 'e' s = (0, s) := by
  cases s with
  | nil => rfl
  | cons c s =>
      have other : c.toLower ≠ 'e' := by simpa using stops
      rw [exponent]
      simp only [other, false_and, if_false]

theorem startsWith_second {c : Char} {s : List Char}
    (starts : startsWith "0x".toList (c :: s) = true) :
    c.toLower = '0' ∧ ∃ x t, s = x :: t ∧ x.toLower = 'x' := by
  have letters : startsWith ['0', 'x'] (c :: s) = true := starts
  rw [startsWith_cons, Bool.and_eq_true, beq_iff_eq] at letters
  obtain ⟨zero, letters⟩ := letters
  cases s with
  | nil => cases letters
  | cons x t =>
      rw [startsWith_cons, Bool.and_eq_true, beq_iff_eq] at letters
      exact ⟨zero, x, t, rfl, letters.1⟩

/-- A number that starts like a hexadecimal one is a bare zero. -/
theorem startsWith_hex {w f e rest : List Char} (some : w ≠ [])
    (digits : ∀ d ∈ w, d.isDigit = true) (fractional : Fractional f) (exponent : Exponent e)
    (starts : startsWith "0x".toList (w ++ f ++ e ++ rest) = true) :
    w = ['0'] ∧ f = [] ∧ e = [] ∧ ∃ x t, rest = x :: t ∧ x.toLower = 'x' := by
  obtain ⟨c, t, rfl⟩ := List.exists_cons_of_ne_nil some
  simp only [List.cons_append] at starts
  obtain ⟨zero, x, u, shape, lower⟩ := startsWith_second starts
  rw [toLower_digit (digits c List.mem_cons_self)] at zero
  cases t with
  | cons d t =>
      have digit := digits d (List.mem_cons_of_mem _ List.mem_cons_self)
      cases shape
      rw [toLower_digit digit] at lower
      exact absurd lower (ne_of_digit digit rfl)
  | nil =>
      rcases fractional with rfl | ⟨s, rfl, -⟩
      · cases exponent with
        | none => exact ⟨by rw [zero], rfl, rfl, x, u, shape, lower⟩
        | some isMark _ _ =>
            cases shape
            rcases isMark with rfl | rfl <;> cases lower
      · cases shape
        cases lower

/-- Behind the digits of a number: the class ends unless it has the mark of an exponent. -/
theorem stops_exponent {e rest : List Char} (exponent : Exponent e) {p : Char → Bool}
    (mark : p 'e' = false ∧ p 'E' = false) (stops : e = [] → Stops p rest) :
    Stops p (e ++ rest) := by
  cases exponent with
  | none => exact stops rfl
  | some isMark _ _ =>
      rcases isMark with rfl | rfl
      · exact stops_cons.2 mark.1
      · exact stops_cons.2 mark.2

/-- What may stand behind a value belongs to no number. -/
theorem Follows.fractional {w f e rest : List Char} (follows : Follows rest) (some : w ≠ [])
    (digits : ∀ d ∈ w, d.isDigit = true) (fractional : Fractional f) (exponent : Exponent e) :
    Ends w f e rest := by
  refine ⟨follows_stops follows rfl, ?_, ?_, ?_⟩
  · intro _ _
    exact follows_stops follows rfl
  · intro _
    exact exponent_mark (follows_stops follows rfl)
  · intro starts
    obtain ⟨rfl, rfl, rfl, x, t, rfl, lower⟩ :=
      startsWith_hex some digits fractional exponent starts
    have stops : Stops (fun c => c.toLower == 'x') (x :: t) := follows_stops follows rfl
    rw [stops_cons, lower] at stops
    cases stops

theorem Follows.ends {w f e rest : List Char} (follows : Follows rest) (whole : Whole w)
    (fraction : Fraction f) (exponent : Exponent e) : Ends w f e rest :=
  follows.fractional (whole_digits whole).1 (whole_digits whole).2 (fraction_fractional fraction)
    exponent

theorem exponent_exists {e : List Char} (exponent : Exponent e) :
    ∃ n, ∀ rest, Stops Char.isDigit rest → (e = [] → Text.exponent 'e' rest = (0, rest)) →
      Text.exponent 'e' (e ++ rest) = (n, rest) := by
  cases exponent with
  | none => exact ⟨0, fun rest _ mark => mark rfl⟩
  | @some mark plus s isMark isSign digits =>
      obtain ⟨c, t, rfl, digit, all⟩ := digits_cons digits
      have lower : mark.toLower = 'e' := by
        rcases isMark with rfl | rfl <;> rfl
      have signed :
          ∃ negative, ∀ rest, sign (plus ++ c :: t ++ rest) = (negative, c :: t ++ rest) := by
        rcases isSign with rfl | rfl | rfl
        · exact ⟨false, fun rest => sign_digit digit⟩
        · exact ⟨false, fun rest => rfl⟩
        · exact ⟨true, fun rest => rfl⟩
      obtain ⟨negative, signed⟩ := signed
      refine ⟨if negative then -(digitsValue (c :: t) : Int) else digitsValue (c :: t), ?_⟩
      intro rest stops _
      rw [List.cons_append, List.cons_append, Text.exponent]
      simp only [signed, lower, takeWhile_run all stops, dropWhile_run all stops, ne_eq,
        reduceCtorEq, not_false_eq_true, and_self, if_true]

theorem exponent_parts {e rest : List Char} (exponent : Exponent e)
    (stops : Stops Char.isDigit rest) (mark : e = [] → Text.exponent 'e' rest = (0, rest)) :
    Text.exponent 'e' (e ++ rest) = ((Text.exponent 'e' e).1, rest) := by
  obtain ⟨n, parts⟩ := exponent_exists exponent
  have alone := parts [] stops_nil fun _ => rfl
  rw [List.append_nil] at alone
  rw [parts rest stops mark, alone]

/-- The number of digits, a fraction with its point and an exponent with its mark. -/
def decimalValue (w f e : List Char) : ℚ :=
  digitsValue (w ++ f.drop 1) * (10 : ℚ) ^ ((Text.exponent 'e' e).1 - (f.drop 1).length)

section Parts

variable {w f e rest : List Char}

theorem mantissa_parts (whole : ∀ d ∈ w, d.isDigit = true) (fractional : Fractional f)
    (exponent : Exponent e) (ends : Ends w f e rest) :
    mantissa Char.isDigit (w ++ f ++ e ++ rest) = (w, f.drop 1, e ++ rest) := by
  have stops : Stops Char.isDigit (e ++ rest) :=
    stops_exponent exponent ⟨rfl, rfl⟩ fun _ => ends.digits
  rw [List.append_assoc]
  rcases fractional with rfl | ⟨s, rfl, digits⟩
  · have noPoint : Stops (· == '.') (e ++ rest) :=
      stops_exponent exponent ⟨rfl, rfl⟩ (ends.point rfl)
    rw [List.append_nil, mantissa, takeWhile_run whole stops, dropWhile_run whole stops]
    cases same : e ++ rest with
    | nil => rfl
    | cons c t =>
        rw [same, stops_cons, beq_eq_false_iff_ne] at noPoint
        split
        · next other =>
            cases other
            exact absurd rfl noPoint
        · rfl
  · have point : Stops Char.isDigit ('.' :: (s ++ (e ++ rest))) := stops_cons.2 rfl
    rw [List.append_assoc, List.cons_append, mantissa, takeWhile_run whole point,
      dropWhile_run whole point]
    simp only [takeWhile_run digits stops, dropWhile_run digits stops]
    rfl

theorem scanDecimal_parts (some : w ≠ []) (whole : ∀ d ∈ w, d.isDigit = true)
    (fractional : Fractional f) (exponent : Exponent e) (ends : Ends w f e rest) :
    scanDecimal (w ++ f ++ e ++ rest) = .some (decimalValue w f e, rest) := by
  rw [scanDecimal, mantissa_parts whole fractional exponent ends]
  simp only [some, false_and, if_false, exponent_parts exponent ends.digits ends.mark]
  rfl

/-- No number starts like the words that `strtod` reads too. -/
theorem scanNumber_digit {c : Char} {s : List Char} (digit : c.isDigit = true) :
    scanNumber (c :: s) =
      match (if startsWith "0x".toList (c :: s) then scanHex ((c :: s).drop 2) else none) with
      | some (q, rest) => some (binary64.round q, rest)
      | none => (scanDecimal (c :: s)).map fun (q, rest) => (binary64.round q, rest) := by
  have inf : startsWith "infinity".toList (c :: s) = false :=
    startsWith_digit digit (ne_of_digit digit rfl)
  have short : startsWith "inf".toList (c :: s) = false :=
    startsWith_digit digit (ne_of_digit digit rfl)
  have nan : startsWith "nan".toList (c :: s) = false :=
    startsWith_digit digit (ne_of_digit digit rfl)
  rw [scanNumber, inf, short, nan]
  rfl

theorem scanNumber_parts (some : w ≠ []) (whole : ∀ d ∈ w, d.isDigit = true)
    (fractional : Fractional f) (exponent : Exponent e) (ends : Ends w f e rest) :
    scanNumber (w ++ f ++ e ++ rest) = .some (binary64.round (decimalValue w f e), rest) := by
  have scanned := scanDecimal_parts some whole fractional exponent ends
  have hex : (if startsWith "0x".toList (w ++ f ++ e ++ rest) then
      scanHex ((w ++ f ++ e ++ rest).drop 2) else none) = none := by
    split
    · next starts => exact ends.hex starts
    · rfl
  obtain ⟨c, t, rfl⟩ := List.exists_cons_of_ne_nil some
  simp only [List.cons_append] at scanned hex ⊢
  rw [scanNumber_digit (whole c List.mem_cons_self), hex, scanned]
  rfl

end Parts

theorem digit_not_space {c : Char} (digit : c.isDigit = true) : isSpace c = false := by
  have range := digit_range digit
  simp only [isSpace, Bool.or_eq_false_iff, beq_eq_false_iff_ne]
  refine ⟨⟨⟨⟨⟨?_, ?_⟩, ?_⟩, ?_⟩, ?_⟩, ?_⟩ <;> exact ne_of_digit digit rfl

theorem strtod_digit {c : Char} {s : List Char} (digit : c.isDigit = true) :
    strtod (c :: s) = scanNumber (c :: s) := by
  rw [strtod, List.dropWhile_cons_of_neg (by simp [digit_not_space digit]), sign_digit digit]
  exact Option.map_id'

theorem strtod_minus (s : List Char) :
    strtod ('-' :: s) = (scanNumber s).map fun (x, rest) => (Fp.negate x, rest) := by
  rw [strtod, List.dropWhile_cons_of_neg (by decide), sign]
  rfl

/-- A number behind its sign. -/
def signed (minus : List Char) (x : Fp) : Fp := if minus = [] then x else Fp.negate x

section Signed

variable {minus w f e : List Char}

theorem strtod_parts {rest : List Char} (isMinus : minus = [] ∨ minus = ['-']) (whole : Whole w)
    (fraction : Fraction f) (exponent : Exponent e) (ends : Ends w f e rest) :
    strtod (minus ++ w ++ f ++ e ++ rest) =
      some (signed minus (binary64.round (decimalValue w f e)), rest) := by
  obtain ⟨some, digits⟩ := whole_digits whole
  have scanned := scanNumber_parts some digits (fraction_fractional fraction) exponent ends
  rcases isMinus with rfl | rfl
  · obtain ⟨c, t, rfl⟩ := List.exists_cons_of_ne_nil some
    simp only [List.nil_append, List.cons_append] at scanned ⊢
    rw [strtod_digit (digits c List.mem_cons_self), scanned]
    rfl
  · show strtod ('-' :: (w ++ f ++ e ++ rest)) = _
    rw [strtod_minus, scanned]
    rfl

theorem atof_parts (isMinus : minus = [] ∨ minus = ['-']) (whole : Whole w)
    (fraction : Fraction f) (exponent : Exponent e) :
    atof (minus ++ w ++ f ++ e) = signed minus (binary64.round (decimalValue w f e)) := by
  have alone := strtod_parts isMinus whole fraction exponent
    (follows_nil.ends whole fraction exponent)
  rw [List.append_nil] at alone
  rw [atof, alone]
  rfl

end Signed

/-- **A number is read up to what follows it.** -/
theorem strtod_number {s rest : List Char} (number : Number s) (follows : Follows rest) :
    strtod (s ++ rest) = some (atof s, rest) := by
  cases number with
  | parts isMinus whole fraction exponent =>
      rw [atof_parts isMinus whole fraction exponent]
      exact strtod_parts isMinus whole fraction exponent
        (follows.ends whole fraction exponent)

/-! ## The longest number -/

theorem mark_cases {c : Char} (lower : c.toLower = 'e') : c = 'e' ∨ c = 'E' := by
  rw [Char.toLower] at lower
  split at lower
  · next upper =>
      right
      have value := congrArg Char.val lower
      have number := congrArg UInt32.toNat value
      rw [UInt32.toNat_add] at number
      simp only [ge_iff_le, UInt32.le_iff_toNat_le] at upper
      apply Char.ext
      apply UInt32.toNat_inj.1
      simp only [Char.toNat_val, Char.reduceVal, UInt32.reduceSub, UInt32.reduceToNat,
        Nat.reducePow] at number upper ⊢
      omega
  · exact .inl lower

theorem sign_parts (s : List Char) :
    ∃ plus, (plus = [] ∨ plus = ['+'] ∨ plus = ['-']) ∧ s = plus ++ (sign s).2 := by
  fun_cases sign s
  · exact ⟨['-'], .inr (.inr rfl), rfl⟩
  · exact ⟨['+'], .inr (.inl rfl), rfl⟩
  · exact ⟨[], .inl rfl, rfl⟩

/-- What is taken for an exponent starts with a short one. -/
theorem exponent_taken {s : List Char} (taken : exponent 'e' s ≠ (0, s)) :
    ∃ p, p ≠ [] ∧ p <+: s ∧ Exponent p := by
  cases s with
  | nil => exact absurd rfl taken
  | cons mark s =>
      rw [exponent] at taken
      obtain ⟨plus, isSign, shape⟩ := sign_parts s
      by_cases takes : mark.toLower = 'e' ∧ (sign s).2.takeWhile Char.isDigit ≠ []
      · obtain ⟨lower, some⟩ := takes
        refine ⟨mark :: plus ++ (sign s).2.takeWhile Char.isDigit, List.cons_ne_nil _ _, ?_, ?_⟩
        · nth_rewrite 2 [shape]
          rw [List.cons_append, List.cons_prefix_cons, List.prefix_append_right_inj]
          exact ⟨rfl, List.takeWhile_prefix _⟩
        · exact .some (mark_cases lower) isSign ⟨some, fun d member => List.mem_takeWhile_imp member⟩
      · exact absurd (if_neg takes) taken

theorem takeWhile_head {α : Type*} {p : α → Bool} {s : List α} (some : s.takeWhile p ≠ []) :
    ∃ c t, s = c :: t ∧ p c = true := by
  cases s with
  | nil => exact absurd rfl some
  | cons c s =>
      refine ⟨c, s, rfl, ?_⟩
      by_contra outside
      exact some (List.takeWhile_cons_of_neg outside)

/-- What is taken for a hexadecimal number starts with a digit, a point aside. -/
theorem scanHex_taken {s rest : List Char} {q : ℚ} (taken : scanHex s = some (q, rest)) :
    ∃ p, p <+: s ∧ ∃ q, scanHex p = some (q, []) := by
  by_cases front : s.takeWhile isHexDigit = []
  · have all : s.dropWhile isHexDigit = s := by
      have parts := List.takeWhile_append_dropWhile (p := isHexDigit) (l := s)
      rwa [front, List.nil_append] at parts
    rw [scanHex, mantissa, front, all] at taken
    split at taken
    next whole fraction t same =>
      split at same
      · next u =>
          cases same
          by_cases behind : u.takeWhile isHexDigit = []
          · simp [behind] at taken
          · obtain ⟨d, t, rfl, digit⟩ := takeWhile_head behind
            have parts : mantissa isHexDigit ['.', d] = ([], [d], []) := by
              simp [mantissa, digit, show isHexDigit '.' = false by decide]
            refine ⟨['.', d], ?_, ?_⟩
            · simp
            · rw [scanHex, parts]
              exact ⟨_, rfl⟩
      · cases same
        simp at taken
  · obtain ⟨d, t, rfl, digit⟩ := takeWhile_head front
    have parts : mantissa isHexDigit [d] = ([d], [], []) := by simp [mantissa, digit]
    refine ⟨[d], List.cons_prefix_cons.2 ⟨rfl, List.nil_prefix⟩, ?_⟩
    rw [scanHex, parts]
    exact ⟨_, rfl⟩

section Longest

variable {w f e rest : List Char}

/-- **If nothing behind the parts makes a longer number of them, they end there.** -/
theorem ends_of_longest (whole : Whole w) (fraction : Fraction f) (exponent : Exponent e)
    (longest : ∀ p, p ≠ [] → p <+: rest → ∀ x, scanNumber (w ++ f ++ e ++ p) ≠ some (x, [])) :
    Ends w f e rest := by
  obtain ⟨some, digits⟩ := whole_digits whole
  have fractional := fraction_fractional fraction
  -- Parts that go on are a number of their own.
  have larger {w' f' e' p : List Char} (same : w ++ f ++ e ++ p = w' ++ f' ++ e') (more : p ≠ [])
      (front : p <+: rest) (some : w' ≠ []) (digits : ∀ d ∈ w', d.isDigit = true)
      (fractional : Fractional f') (exponent : Exponent e') : False := by
    have scanned := scanNumber_parts some digits fractional exponent
      (follows_nil.fractional some digits fractional exponent)
    rw [List.append_nil, ← same] at scanned
    exact longest p more front _ scanned
  refine ⟨?_, ?_, ?_, ?_⟩
  · intro c first
    by_contra digit
    rw [Bool.not_eq_false] at digit
    obtain ⟨t, rfl⟩ := List.head?_eq_some_iff.1 first
    have front : [c] <+: c :: t := List.cons_prefix_cons.2 ⟨rfl, List.nil_prefix⟩
    have snoc {s : List Char} (digits : ∀ d ∈ s, d.isDigit = true) :
        ∀ d ∈ s ++ [c], d.isDigit = true :=
      List.forall_mem_append.2 ⟨digits, by simpa using digit⟩
    cases exponent with
    | none =>
        cases fraction with
        | none =>
            exact @larger (w ++ [c]) [] [] [c] (by simp) (by simp) front (by simp) (snoc digits)
              (.inl rfl) .none
        | @some s behind =>
            exact @larger w ('.' :: (s ++ [c])) [] [c] (by simp) (by simp) front some digits
              (.inr ⟨_, rfl, snoc behind.2⟩) .none
    | @some mark plus s isMark isSign behind =>
        exact @larger w f (mark :: plus ++ (s ++ [c])) [c] (by simp) (by simp) front some digits
          fractional (.some isMark isSign ⟨by simp, snoc behind.2⟩)
  · rintro rfl rfl
    intro c first
    by_contra point
    obtain ⟨t, rfl⟩ := List.head?_eq_some_iff.1 first
    have isPoint : c = '.' := by simpa using point
    have front : [c] <+: c :: t := List.cons_prefix_cons.2 ⟨rfl, List.nil_prefix⟩
    exact @larger w ['.'] [] [c] (by simp [isPoint]) (by simp) front some digits
      (.inr ⟨[], rfl, by simp⟩) .none
  · rintro rfl
    by_contra taken
    obtain ⟨p, more, front, exponent⟩ := exponent_taken taken
    exact larger (by rw [List.append_nil]) more front some digits fractional exponent
  · intro starts
    obtain ⟨rfl, rfl, rfl, x, t, rfl, lower⟩ :=
      startsWith_hex some digits fractional exponent starts
    by_contra read
    obtain ⟨⟨q, behind⟩, taken⟩ := Option.ne_none_iff_exists'.1 read
    obtain ⟨p, front, q, short⟩ := scanHex_taken (s := t) taken
    have word : startsWith "0x".toList ('0' :: x :: p) = true := by
      show startsWith ['0', 'x'] _ = true
      rw [startsWith_cons, startsWith_cons, lower]
      simp [startsWith]
    refine longest (x :: p) (by simp) (List.cons_prefix_cons.2 ⟨rfl, front⟩) (binary64.round q) ?_
    show scanNumber ('0' :: x :: p) = _
    rw [scanNumber_digit rfl, if_pos word]
    have hex : scanHex (('0' :: x :: p).drop 2) = .some (q, []) := short
    rw [hex]

end Longest

/-- Nothing of what stands behind the text makes a longer number of it. -/
def Longest (s rest : List Char) : Prop :=
  ∀ p, p ≠ [] → p <+: rest → ∀ x, strtod (s ++ p) ≠ some (x, [])

/-- **The longest number is read whole and no further.** -/
theorem strtod_longest {s rest : List Char} (number : Number s) (longest : Longest s rest) :
    strtod (s ++ rest) = some (atof s, rest) := by
  cases number with
  | @parts minus w f e isMinus whole fraction exponent =>
      rw [atof_parts isMinus whole fraction exponent]
      refine strtod_parts isMinus whole fraction exponent
        (ends_of_longest whole fraction exponent ?_)
      intro p more front x scanned
      rcases isMinus with rfl | rfl
      · obtain ⟨some, digits⟩ := whole_digits whole
        obtain ⟨c, t, rfl⟩ := List.exists_cons_of_ne_nil some
        refine longest p more front x ?_
        simp only [List.nil_append, List.cons_append] at scanned ⊢
        rw [strtod_digit (digits c List.mem_cons_self), scanned]
      · refine longest p more front (Fp.negate x) ?_
        show strtod ('-' :: (w ++ f ++ e ++ p)) = _
        rw [strtod_minus, scanned]
        rfl

/-! ## What was printed -/

theorem toDigits_isDigit {n : Nat} : ∀ c ∈ Nat.toDigits 10 n, c.isDigit = true :=
  fun _ member => Nat.isDigit_of_mem_toDigits (by decide) (by decide) member

@[simp] theorem digitsValue_toDigits (n : Nat) : digitsValue (Nat.toDigits 10 n) = n :=
  Nat.ofDigitChars_ten_toDigits

theorem toDigits_cons {n : Nat} (positive : 0 < n) :
    ∃ c s, Nat.toDigits 10 n = c :: s ∧ c ≠ '0' := by
  induction n using Nat.strong_induction_on with
  | _ n ih =>
      by_cases small : n < 10
      · refine ⟨n.digitChar, [], Nat.toDigits_of_lt_base small, ?_⟩
        rw [Ne, Nat.digitChar_eq_zero]
        omega
      · obtain ⟨c, s, front, nonzero⟩ := ih (n / 10) (by omega) (by omega)
        refine ⟨c, s ++ [(n % 10).digitChar], ?_, nonzero⟩
        rw [Nat.toDigits_of_base_le (by decide) (by omega), front, List.cons_append]

/-- Digits are printed without leading zeros. -/
theorem whole_toDigits (n : Nat) : Whole (Nat.toDigits 10 n) := by
  rcases Nat.eq_zero_or_pos n with rfl | positive
  · exact .zero
  · obtain ⟨c, s, printed, nonzero⟩ := toDigits_cons positive
    have digits := @toDigits_isDigit n
    rw [printed] at digits ⊢
    exact .digits (digits c List.mem_cons_self) nonzero
      fun d member => digits d (List.mem_cons_of_mem _ member)

theorem takeWhile_toDigits (n : Nat) :
    (Nat.toDigits 10 n).takeWhile Char.isDigit = Nat.toDigits 10 n :=
  List.takeWhile_eq_self_iff.2 toDigits_isDigit

theorem strtol_decimal {n : Int} (low : -2 ^ 63 ≤ n) (high : n < 2 ^ 63) :
    strtol (decimal n) = n := by
  by_cases negative : n < 0
  · rw [decimal, if_pos negative, strtol, List.dropWhile_cons_of_neg (by decide), sign]
    simp only [takeWhile_toDigits, digitsValue_toDigits, if_true]
    omega
  · obtain ⟨c, s, printed⟩ := List.exists_cons_of_ne_nil (whole_digits (whole_toDigits n.natAbs)).1
    have digit : c.isDigit = true := toDigits_isDigit c (printed ▸ List.mem_cons_self)
    have unsigned : sign ((Nat.toDigits 10 n.natAbs).dropWhile isSpace) =
        (false, Nat.toDigits 10 n.natAbs) := by
      rw [printed, List.dropWhile_cons_of_neg (by simp [digit_not_space digit]), sign_digit digit]
    rw [decimal, if_neg negative, strtol, unsigned]
    simp only [takeWhile_toDigits, digitsValue_toDigits]
    rw [if_neg (by decide)]
    omega

/-- **An `int` is read back.** -/
theorem atoi_decimal {n : Int} (low : -2 ^ 31 ≤ n) (high : n < 2 ^ 31) :
    atoi (decimal n) = n := by
  rw [atoi, strtol_decimal (by omega) (by omega)]
  exact Int.bmod_eq_of_le (by omega) (by omega)

theorem digitsValue_snoc (s : List Char) (d : Char) :
    digitsValue (s ++ [d]) = 10 * digitsValue s + (d.toNat - 48) := by
  rw [digitsValue, Nat.ofDigitChars, List.foldl_append]
  rfl

/-- A number of tenths is read as the nearest `double`. -/
theorem atof_tenths (n : Nat) : atof (tenths n) = binary64.round (n / 10) := by
  have last : n % 10 < 10 := Nat.mod_lt n (by decide)
  have digits : digitsValue (Nat.toDigits 10 (n / 10) ++ [(n % 10).digitChar]) = n := by
    rw [digitsValue_snoc, digitsValue_toDigits, Nat.toNat_digitChar_sub_48_of_lt_ten last]
    omega
  have value : decimalValue (Nat.toDigits 10 (n / 10)) ['.', (n % 10).digitChar] [] = n / 10 := by
    simp only [decimalValue, List.drop_one, List.tail_cons, digits, exponent]
    norm_num
    ring
  have fraction : Fraction ['.', (n % 10).digitChar] := .some ⟨by simp, by simpa using last⟩
  have read := atof_parts (.inl rfl) (whole_toDigits (n / 10)) fraction .none
  rw [value, List.nil_append, List.append_nil] at read
  rw [tenths, read]
  rfl

end Clumsy.Text
