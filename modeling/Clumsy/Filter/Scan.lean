/-
# Filter.Scan -- the lexer finds the terminals of a text

`terminals` reads the tokens of the lexer as terminals of the grammar.  Every
text has a cutting (`exists_lexes`), and the lexer's terminals are that cutting with
its literals as far as 32 bits keep them (`terminals_lexed`).  Where the literals are
as the language promises they are kept whole (`terminals_of_lexes`), so there is only
one cutting.
-/
import Clumsy.Filter.Grammar
import Clumsy.Theory.Scanning

namespace Clumsy.Filter

open Clumsy.Theory

set_option autoImplicit false

/-! ## Tokens as terminals -/

/-- The terminal of a text of punctuation. -/
def punctTerminal (text : List Char) : Terminal :=
  match lookupOp text with
  | some op => .cmpOp op
  | none =>
      if text = ['('] then .lparen
      else if text = [')'] then .rparen
      else if text = ['!'] then .bang
      else if text = ['&', '&'] then .conj
      else if text = ['|', '|'] then .disj
      else .junk

/-- The terminal a token is; an address gives back its octets. -/
def Token.terminal (t : Token) : Terminal :=
  match t.kind with
  | .endOfInput => .junk
  | .ident => .word t.text
  | .number => .number t.num.toNat
  | .ipv4 =>
      .addr (t.num.toNat / 2 ^ 24) (t.num.toNat / 2 ^ 16 % 256) (t.num.toNat / 2 ^ 8 % 256)
        (t.num.toNat % 256)
  | .punct => punctTerminal t.text

/-- What 32 bits keep of a literal's value: `strtoul` stops at `ULONG_MAX`, the cast
wraps. -/
def kept (n : Nat) : UInt32 := UInt32.ofNat (min n (2 ^ 64 - 1))

/-- What the lexer makes of a terminal of the text. -/
def Terminal.lexed : Terminal → Terminal
  | .number n => .number (kept n).toNat
  | .addr a b c d =>
      if kept a > 255 ∨ kept b > 255 ∨ kept c > 255 ∨ kept d > 255 then .junk
      else .addr (kept a).toNat (kept b).toNat (kept c).toNat (kept d).toNat
  | .badDotted => .junk
  | t => t

/-- The terminals the lexer reads. -/
def terminals (s : List Char) : List Terminal := (tokens s).map Token.terminal

theorem terminals_end {s : List Char} (last : (next s).1.kind = .endOfInput) :
    terminals s = [] := by
  rw [terminals, tokens_eq, if_pos last, List.map_nil]

theorem terminals_cons {s : List Char} (more : (next s).1.kind ≠ .endOfInput) :
    terminals s = (next s).1.terminal :: terminals (next s).2 := by
  rw [terminals, tokens_eq, if_neg more, List.map_cons]
  rfl

/-! ## Classes of characters -/

theorem not_space_of_mem_punctuation {c : Char} (symbol : c ∈ punctuation) :
    isSpace c = false := by
  simp only [punctuation, List.mem_cons, List.not_mem_nil, or_false] at symbol
  rcases symbol with rfl | rfl | rfl | rfl | rfl | rfl | rfl | rfl <;> rfl

/-- Blanks and punctuation are neither digits nor letters. -/
theorem blank_or_symbol {c : Char} (plain : isSpace c = true ∨ c ∈ punctuation) :
    c.isDigit = false ∧ isIdentStart c = false := by
  simp only [isSpace, Bool.or_eq_true, beq_iff_eq, punctuation, List.mem_cons, List.not_mem_nil,
    or_false] at plain
  rcases plain with (((rfl | rfl) | rfl) | rfl) | (rfl | rfl | rfl | rfl | rfl | rfl | rfl | rfl) <;>
    decide

theorem digit_class {c : Char} (digit : c.isDigit = true) :
    isSpace c = false ∧ c ∉ punctuation := by
  constructor
  · by_contra blank
    have := (blank_or_symbol (.inl (by simpa using blank))).1
    simp [digit] at this
  · intro symbol
    have := (blank_or_symbol (.inr symbol)).1
    simp [digit] at this

theorem letter_class {c : Char} (letter : isIdentStart c = true) :
    isSpace c = false ∧ c ∉ punctuation ∧ c.isDigit = false := by
  refine ⟨?_, ?_, ?_⟩
  · by_contra blank
    have := (blank_or_symbol (.inl (by simpa using blank))).2
    simp [letter] at this
  · intro symbol
    have := (blank_or_symbol (.inr symbol)).2
    simp [letter] at this
  · by_contra digit
    have digit : c.isDigit = true := by simpa using digit
    simp only [isIdentStart, Char.isAlpha, Char.isUpper, Char.isLower, Bool.or_eq_true,
      Bool.and_eq_true, decide_eq_true_eq, beq_iff_eq] at letter
    simp only [Char.isDigit, Bool.and_eq_true, decide_eq_true_eq] at digit
    rcases letter with (h | h) | rfl
    · exact absurd (UInt32.le_trans h.1 digit.2) (by decide)
    · exact absurd (UInt32.le_trans h.1 digit.2) (by decide)
    · exact absurd digit.2 (by decide)

/-! ## One token -/

theorem next_space {c : Char} (s : List Char) (blank : isSpace c = true) :
    next (c :: s) = next s := by
  unfold next
  rw [List.dropWhile_cons_of_pos blank]

theorem next_start {c : Char} (s : List Char) (start : isSpace c = false) :
    next (c :: s) =
      if punctuation.contains c then lexPunct c s
      else if c.isDigit then lexLiteral (c :: s)
      else if isIdentStart c then lexIdent (c :: s)
      else ({ kind := .punct, text := [c] }, s) := by
  unfold next
  rw [List.dropWhile_cons_of_neg (by simp [start])]

theorem next_symbol {c : Char} (s : List Char) (symbol : c ∈ punctuation) :
    next (c :: s) = lexPunct c s := by
  rw [next_start s (not_space_of_mem_punctuation symbol), if_pos (by simpa using symbol)]

theorem next_digit {c : Char} (s : List Char) (digit : c.isDigit = true) :
    next (c :: s) = lexLiteral (c :: s) := by
  obtain ⟨start, symbol⟩ := digit_class digit
  rw [next_start s start, if_neg (by simpa using symbol), if_pos digit]

theorem next_letter {c : Char} (s : List Char) (letter : isIdentStart c = true) :
    next (c :: s) = lexIdent (c :: s) := by
  obtain ⟨start, symbol, digit⟩ := letter_class letter
  rw [next_start s start, if_neg (by simpa using symbol), if_neg (by simp [digit]), if_pos letter]

theorem lexPunct_two {c d : Char} {t : Terminal} (symbol : (c, d, t) ∈ symbols2) (s : List Char) :
    c ∈ punctuation ∧ lexPunct c (d :: s) = ({ kind := .punct, text := [c, d] }, s) ∧
      punctTerminal [c, d] = t := by
  simp only [symbols2, List.mem_cons, Prod.mk.injEq, List.not_mem_nil, or_false] at symbol
  rcases symbol with ⟨rfl, rfl, rfl⟩ | ⟨rfl, rfl, rfl⟩ | ⟨rfl, rfl, rfl⟩ | ⟨rfl, rfl, rfl⟩ |
    ⟨rfl, rfl, rfl⟩ | ⟨rfl, rfl, rfl⟩ <;> exact ⟨by decide, rfl, rfl⟩

/-- A pair of characters the lexer takes together is a symbol. -/
theorem mem_symbols2 {c d : Char}
    (pair : ((c == '!' || c == '<' || c == '>' || c == '=') && d == '=') = true ∨
      ((c == '&' && d == '&') || (c == '|' && d == '|')) = true) :
    ∃ t, (c, d, t) ∈ symbols2 := by
  simp only [Bool.and_eq_true, Bool.or_eq_true, beq_iff_eq] at pair
  rcases pair with ⟨((rfl | rfl) | rfl) | rfl, rfl⟩ | ⟨rfl, rfl⟩ | ⟨rfl, rfl⟩
  · exact ⟨.cmpOp .ne, by decide⟩
  · exact ⟨.cmpOp .le, by decide⟩
  · exact ⟨.cmpOp .ge, by decide⟩
  · exact ⟨.cmpOp .eq, by decide⟩
  · exact ⟨.conj, by decide⟩
  · exact ⟨.disj, by decide⟩

theorem lexPunct_one {c : Char} {s : List Char}
    (alone : ∀ d ∈ s.head?, ∀ t, (c, d, t) ∉ symbols2) :
    lexPunct c s = ({ kind := .punct, text := [c] }, s) := by
  cases s with
  | nil => rfl
  | cons d s =>
      have apart : ¬∃ t, (c, d, t) ∈ symbols2 := fun ⟨t, symbol⟩ => alone d rfl t symbol
      simp only [lexPunct]
      rw [if_neg fun pair => apart (mem_symbols2 (.inl pair)),
        if_neg fun pair => apart (mem_symbols2 (.inr pair))]

theorem symbols1_terminal {c : Char} {t : Terminal} (symbol : (c, t) ∈ symbols1) :
    c ∈ punctuation ∧ punctTerminal [c] = t := by
  simp only [symbols1, List.mem_cons, Prod.mk.injEq, List.not_mem_nil, or_false] at symbol
  rcases symbol with ⟨rfl, rfl⟩ | ⟨rfl, rfl⟩ | ⟨rfl, rfl⟩ | ⟨rfl, rfl⟩ | ⟨rfl, rfl⟩ | ⟨rfl, rfl⟩ |
    ⟨rfl, rfl⟩ | ⟨rfl, rfl⟩ <;> decide

theorem punctTerminal_junk {c : Char} (symbol : c ∉ punctuation) : punctTerminal [c] = .junk := by
  simp only [punctuation, List.mem_cons, List.not_mem_nil, or_false, not_or] at symbol
  simp [punctTerminal, lookupOp, symbol]

theorem exists_symbol1 {c : Char} (symbol : c ∈ punctuation) : ∃ t, (c, t) ∈ symbols1 := by
  simp only [punctuation, List.mem_cons, List.not_mem_nil, or_false] at symbol
  rcases symbol with rfl | rfl | rfl | rfl | rfl | rfl | rfl | rfl
  · exact ⟨.lparen, by decide⟩
  · exact ⟨.rparen, by decide⟩
  · exact ⟨.bang, by decide⟩
  · exact ⟨.cmpOp .lt, by decide⟩
  · exact ⟨.cmpOp .gt, by decide⟩
  · exact ⟨.cmpOp .eq, by decide⟩
  · exact ⟨.junk, by decide⟩
  · exact ⟨.junk, by decide⟩

/-! ## Literals -/

theorem kept_of_lt {n : Nat} (small : n < 2 ^ 32) : (kept n).toNat = n := by
  rw [kept, Nat.min_eq_left (by omega), UInt32.toNat_ofNat']
  exact Nat.mod_eq_of_lt small

theorem kept_le {n k : Nat} (small : k < 2 ^ 32) : ¬kept n > UInt32.ofNat k ↔ (kept n).toNat ≤ k := by
  rw [gt_iff_lt, UInt32.lt_iff_toNat_lt, UInt32.toNat_ofNat', Nat.mod_eq_of_lt small, Nat.not_lt]

theorem scanNumber_run {w s : List Char} (some : w ≠ []) (inside : ∀ x ∈ w, x.isDigit = true)
    (ends : Ends Char.isDigit s) : scanNumber (w ++ s) = .some (kept (decimal w), s) := by
  unfold scanNumber
  rw [takeWhile_run inside ends, dropWhile_run inside ends]
  cases w with
  | nil => exact absurd rfl some
  | cons c w => rfl

theorem ends_dot (s : List Char) : Ends Char.isDigit ('.' :: s) := by
  intro d first
  cases first
  rfl

theorem scanDotted_of_dotted {w a b c d : List Char} (dotted : Dotted w a b c d) :
    scanDotted w =
      some (kept (decimal a), kept (decimal b), kept (decimal c), kept (decimal d)) := by
  obtain ⟨rfl, groups⟩ := dotted
  obtain ⟨someA, digitsA⟩ := groups a (by simp)
  obtain ⟨someB, digitsB⟩ := groups b (by simp)
  obtain ⟨someC, digitsC⟩ := groups c (by simp)
  obtain ⟨someD, digitsD⟩ := groups d (by simp)
  have last := scanNumber_run (s := []) someD digitsD (by simp [Ends])
  rw [List.append_nil] at last
  have shape :
      a ++ '.' :: b ++ '.' :: c ++ '.' :: d = a ++ '.' :: (b ++ '.' :: (c ++ '.' :: d)) := by
    simp
  rw [shape]
  simp only [scanDotted, scanNumber_run someA digitsA (ends_dot _), Option.bind_eq_bind,
    Option.bind_some, scanDot, scanNumber_run someB digitsB (ends_dot _),
    scanNumber_run someC digitsC (ends_dot _), last, List.isEmpty_nil, if_true]

/-- A number in front is a run of digits. -/
theorem of_scanNumber {s rest : List Char} {n : UInt32} (scanned : scanNumber s = some (n, rest)) :
    ∃ w, s = w ++ rest ∧ w ≠ [] ∧ ∀ x ∈ w, x.isDigit = true := by
  unfold scanNumber at scanned
  refine ⟨s.takeWhile Char.isDigit, ?_, ?_, List.all_eq_true.1 List.all_takeWhile⟩
  · cases digits : s.takeWhile Char.isDigit with
    | nil =>
        rw [digits] at scanned
        cases scanned
    | cons c w =>
        rw [digits] at scanned
        cases scanned
        rw [← digits, List.takeWhile_append_dropWhile]
  · intro none
    rw [none] at scanned
    cases scanned

theorem of_scanDot {s rest : List Char} (scanned : scanDot s = some rest) : s = '.' :: rest := by
  unfold scanDot at scanned
  split at scanned
  · cases scanned
    rfl
  · cases scanned

/-- What `sscanf` accepts is dotted. -/
theorem dotted_of_scanDotted {w : List Char} {out : UInt32 × UInt32 × UInt32 × UInt32}
    (scanned : scanDotted w = some out) : ∃ a b c d, Dotted w a b c d := by
  simp only [scanDotted, Option.bind_eq_bind, Option.bind_eq_some_iff, Prod.exists] at scanned
  obtain ⟨_, s₁, first, s₂, dot, _, s₃, second, s₄, dot', _, s₅, third, s₆, dot'', _, s₇, fourth,
    last⟩ := scanned
  obtain ⟨a, rfl, someA, digitsA⟩ := of_scanNumber first
  obtain ⟨b, rfl, someB, digitsB⟩ := of_scanNumber second
  obtain ⟨c, rfl, someC, digitsC⟩ := of_scanNumber third
  obtain ⟨d, rfl, someD, digitsD⟩ := of_scanNumber fourth
  have empty : s₇ = [] := by
    by_contra more
    simp [more] at last
  refine ⟨a, b, c, d, ?_, ?_⟩
  · rw [of_scanDot dot, of_scanDot dot', of_scanDot dot'', empty]
    simp
  · simp only [List.mem_cons, List.not_mem_nil, or_false, forall_eq_or_imp, forall_eq]
    exact ⟨⟨someA, digitsA⟩, ⟨someB, digitsB⟩, ⟨someC, digitsC⟩, someD, digitsD⟩

/-- Four octets in one word. -/
theorem octets_toNat {a b c d : UInt32} (ha : a.toNat ≤ 255) (hb : b.toNat ≤ 255)
    (hc : c.toNat ≤ 255) (hd : d.toNat ≤ 255) :
    (a <<< (24 : UInt32) ||| b <<< (16 : UInt32) ||| c <<< (8 : UInt32) ||| d).toNat =
      a.toNat * 2 ^ 24 + b.toNat * 2 ^ 16 + c.toNat * 2 ^ 8 + d.toNat := by
  have shifted {n : UInt32} (hn : n.toNat ≤ 255) {k : UInt32} (hk : k.toNat ≤ 24) :
      (n <<< k).toNat = n.toNat * 2 ^ k.toNat := by
    rw [UInt32.toNat_shiftLeft, Nat.mod_eq_of_lt (by omega : k.toNat < 32), Nat.shiftLeft_eq]
    apply Nat.mod_eq_of_lt
    calc n.toNat * 2 ^ k.toNat ≤ 255 * 2 ^ 24 :=
          Nat.mul_le_mul hn (Nat.pow_le_pow_right (by omega) hk)
      _ < 2 ^ 32 := by omega
  have join (n : Nat) {m : Nat} (k : Nat) (low : m < 2 ^ k) : n * 2 ^ k ||| m = n * 2 ^ k + m := by
    rw [Nat.mul_comm, Nat.two_pow_add_eq_or_of_lt low]
  rw [UInt32.toNat_or, UInt32.toNat_or, UInt32.toNat_or, shifted ha (by decide),
    shifted hb (by decide), shifted hc (by decide)]
  generalize a.toNat = a, b.toNat = b, c.toNat = c, d.toNat = d at *
  show a * 2 ^ 24 ||| b * 2 ^ 16 ||| c * 2 ^ 8 ||| d = a * 2 ^ 24 + b * 2 ^ 16 + c * 2 ^ 8 + d
  rw [join a 24 (by omega)]
  rw [(by omega : a * 2 ^ 24 + b * 2 ^ 16 = (a * 2 ^ 8 + b) * 2 ^ 16), join _ 16 (by omega)]
  rw [(by omega : (a * 2 ^ 8 + b) * 2 ^ 16 + c * 2 ^ 8 = ((a * 2 ^ 8 + b) * 2 ^ 8 + c) * 2 ^ 8),
    join _ 8 (by omega)]

/-- `parseIPv4` checks the octets it kept. -/
theorem parseIPv4_of_dotted {w a b c d : List Char} (dotted : Dotted w a b c d) :
    (parseIPv4 w).elim Terminal.junk (fun addr => Token.terminal { kind := .ipv4, num := addr }) =
      (Terminal.addr (decimal a) (decimal b) (decimal c) (decimal d)).lexed := by
  rw [parseIPv4, scanDotted_of_dotted dotted, Terminal.lexed]
  simp only
  split
  · rfl
  · rename_i small
    simp only [not_or] at small
    obtain ⟨ha, hb, hc, hd⟩ := small
    have ha := (kept_le (k := 255) (by decide)).1 ha
    have hb := (kept_le (k := 255) (by decide)).1 hb
    have hc := (kept_le (k := 255) (by decide)).1 hc
    have hd := (kept_le (k := 255) (by decide)).1 hd
    simp only [Option.elim_some, Token.terminal, octets_toNat ha hb hc hd, Terminal.addr.injEq]
    omega

theorem parseIPv4_of_not_dotted {w : List Char} (bad : ∀ a b c d, ¬Dotted w a b c d) :
    parseIPv4 w = none := by
  cases scanned : scanDotted w with
  | none => rw [parseIPv4, scanned]
  | some out =>
      obtain ⟨a, b, c, d, dotted⟩ := dotted_of_scanDotted scanned
      exact absurd dotted (bad a b c d)

theorem Dotted.literal {w a b c d : List Char} (dotted : Dotted w a b c d) :
    (∀ x ∈ w, isLiteralChar x = true) ∧ '.' ∈ w ∧ ∃ x v, w = x :: v ∧ x.isDigit = true := by
  obtain ⟨rfl, groups⟩ := dotted
  have inside {g : List Char} (member : g ∈ [a, b, c, d]) {x : Char} (hx : x ∈ g) :
      isLiteralChar x = true := by
    simp [isLiteralChar, (groups g member).2 x hx]
  refine ⟨?_, by simp, ?_⟩
  · intro x member
    simp only [List.mem_append, List.mem_cons] at member
    rcases member with ((hx | rfl | hx) | rfl | hx) | rfl | hx
    · exact inside (by simp) hx
    · rfl
    · exact inside (by simp) hx
    · rfl
    · exact inside (by simp) hx
    · rfl
    · exact inside (by simp) hx
  · obtain ⟨some, digits⟩ := groups a (by simp)
    cases a with
    | nil => exact absurd rfl some
    | cons x a => exact ⟨x, _, rfl, digits x (by simp)⟩

theorem next_number {w s : List Char} (some : w ≠ []) (inside : ∀ x ∈ w, x.isDigit = true)
    (ends : Ends isLiteralChar s) :
    next (w ++ s) = ({ kind := .number, text := w, num := kept (decimal w) }, s) := by
  have literal : ∀ x ∈ w, isLiteralChar x = true := fun x hx => by
    simp [isLiteralChar, inside x hx]
  have noDot : ¬w.contains '.' = true := by
    rw [List.contains_iff_mem]
    intro dot
    exact absurd (inside '.' dot) (by decide)
  have step : next (w ++ s) = lexLiteral (w ++ s) := by
    cases w with
    | nil => exact absurd rfl some
    | cons x w => exact next_digit (w ++ s) (inside x (by simp))
  rw [step, lexLiteral]
  simp only [takeWhile_run literal ends, dropWhile_run literal ends]
  rw [if_neg noDot]
  rfl

/-- A literal with a dot in it is what `parseIPv4` makes of it, or a `?`. -/
theorem next_dotted {x : Char} {w s : List Char} (digit : x.isDigit = true)
    (inside : ∀ y ∈ x :: w, isLiteralChar y = true) (dot : '.' ∈ x :: w)
    (ends : Ends isLiteralChar s) :
    (next (x :: w ++ s)).1.kind ≠ .endOfInput ∧ (next (x :: w ++ s)).2 = s ∧
      (next (x :: w ++ s)).1.terminal =
        (parseIPv4 (x :: w)).elim .junk fun addr =>
          Token.terminal { kind := .ipv4, num := addr } := by
  have step : next (x :: w ++ s) = lexLiteral (x :: w ++ s) := next_digit (w ++ s) digit
  rw [step, lexLiteral]
  simp only [takeWhile_run inside ends, dropWhile_run inside ends]
  rw [if_pos (List.contains_iff_mem.2 dot)]
  cases parseIPv4 (x :: w) with
  | none => exact ⟨by simp, rfl, rfl⟩
  | some addr => exact ⟨by simp, rfl, rfl⟩

theorem next_word {c : Char} {w s : List Char} (start : isIdentStart c = true)
    (inside : ∀ x ∈ w, isIdentChar x = true) (ends : Ends isIdentChar s) :
    next (c :: w ++ s) = ({ kind := .ident, text := c :: w }, s) := by
  have all : ∀ x ∈ c :: w, isIdentChar x = true := by
    intro x member
    rcases List.mem_cons.1 member with rfl | hx
    · simp [isIdentChar, start]
    · exact inside x hx
  rw [List.cons_append, next_letter (w ++ s) start, lexIdent, ← List.cons_append,
    takeWhile_run all ends, dropWhile_run all ends]

/-! ## Every text -/

theorem terminals_step {s rest : List Char} {token : Token} {t : Terminal} {ts : List Terminal}
    (found : next s = (token, rest)) (more : token.kind ≠ .endOfInput)
    (same : token.terminal = t) (others : terminals rest = ts) : terminals s = t :: ts := by
  have kind : (next s).1.kind ≠ .endOfInput := by
    rw [found]
    exact more
  rw [terminals_cons kind, found]
  simp only [same, others]

/-- **The lexer finds the terminals** of a text, their literals as far as it keeps them. -/
theorem terminals_lexed {s : List Char} {ts : List Terminal} (lexes : Lexes s ts) :
    terminals s = ts.map Terminal.lexed := by
  have dotted {x : Char} {w s : List Char} {t : Terminal} {ts : List Terminal}
      (digit : x.isDigit = true) (inside : ∀ y ∈ x :: w, isLiteralChar y = true)
      (dot : '.' ∈ x :: w) (ends : Ends isLiteralChar s)
      (same : (parseIPv4 (x :: w)).elim .junk
        (fun addr => Token.terminal { kind := .ipv4, num := addr }) = t)
      (others : terminals s = ts) : terminals (x :: w ++ s) = t :: ts := by
    obtain ⟨more, rest, terminal⟩ := next_dotted digit inside dot ends
    rw [terminals_cons more, rest, terminal, same, others]
  induction lexes with
  | done => rfl
  | @space c s ts blank _ ih =>
      rw [terminals, tokens_eq, next_space s blank, ← tokens_eq]
      exact ih
  | @symbol2 c d t s ts symbol _ ih =>
      obtain ⟨member, found, same⟩ := lexPunct_two symbol s
      have step := (next_symbol (d :: s) member).trans found
      have plain : t.lexed = t := by
        simp only [symbols2, List.mem_cons, Prod.mk.injEq, List.not_mem_nil, or_false] at symbol
        rcases symbol with h | h | h | h | h | h <;> rw [h.2.2] <;> rfl
      exact terminals_step step (by simp) (same.trans plain.symm) ih
  | @symbol1 c t s ts symbol alone _ ih =>
      obtain ⟨member, same⟩ := symbols1_terminal symbol
      have step := (next_symbol s member).trans (lexPunct_one alone)
      have plain : t.lexed = t := by
        simp only [symbols1, List.mem_cons, Prod.mk.injEq, List.not_mem_nil, or_false] at symbol
        rcases symbol with h | h | h | h | h | h | h | h <;> rw [h.2] <;> rfl
      exact terminals_step step (by simp) (same.trans plain.symm) ih
  | word start inside ends _ ih =>
      exact terminals_step (next_word start inside ends) (by simp) rfl ih
  | number some inside ends _ ih =>
      exact terminals_step (next_number some inside ends) (by simp) rfl ih
  | @addr w a b c d s ts groups ends _ ih =>
      obtain ⟨inside, dot, x, v, rfl, digit⟩ := groups.literal
      exact dotted digit inside dot ends (parseIPv4_of_dotted groups) ih
  | @badDotted x w s ts start inside dot bad ends _ ih =>
      refine dotted start ?_ (List.mem_cons_of_mem x dot) ends ?_ ih
      · intro y member
        rcases List.mem_cons.1 member with rfl | hy
        · simp [isLiteralChar, start]
        · exact inside y hy
      · rw [parseIPv4_of_not_dotted bad]
        rfl
  | @junk c s ts blank symbol digit letter _ ih =>
      have step : next (c :: s) = ({ kind := .punct, text := [c] }, s) := by
        rw [next_start s blank, if_neg (by simpa using symbol), if_neg (by simp [digit]),
          if_neg (by simp [letter])]
      exact terminals_step step (by simp) (punctTerminal_junk symbol) ih

/-- A literal as promised is kept whole. -/
theorem Terminal.lexed_of_ok {t : Terminal} (ok : t.LiteralOk) : t.lexed = t := by
  cases t with
  | number n => exact congrArg Terminal.number (kept_of_lt ok)
  | addr a b c d =>
      obtain ⟨ha, hb, hc, hd⟩ := ok
      have whole {n : Nat} (small : n ≤ 255) : (kept n).toNat = n := kept_of_lt (by omega)
      have within {n : Nat} (small : n ≤ 255) : ¬kept n > 255 :=
        (kept_le (k := 255) (by decide)).2 ((whole small).le.trans small)
      rw [lexed, if_neg (by simp only [within ha, within hb, within hc, within hd, or_self,
        not_false_eq_true]), whole ha, whole hb, whole hc, whole hd]
  | badDotted => exact absurd ok id
  | _ => rfl

/-- Where the literals are as promised, the lexer finds the terminals themselves. -/
theorem terminals_of_lexes {s : List Char} {ts : List Terminal} (lexes : Lexes s ts)
    (ok : LiteralsOk ts) : terminals s = ts := by
  rw [terminals_lexed lexes]
  calc ts.map Terminal.lexed = ts.map id :=
        List.map_congr_left fun t member => Terminal.lexed_of_ok (ok t member)
    _ = ts := List.map_id ts

/-- A text of literal characters with a dot in it is dotted or it is not. -/
theorem exists_lexes_literal {c : Char} {s : List Char} (digit : c.isDigit = true)
    (rest : ∃ ts, Lexes ((c :: s).dropWhile isLiteralChar) ts) : ∃ ts, Lexes (c :: s) ts := by
  obtain ⟨ts, rest⟩ := rest
  have first : isLiteralChar c = true := by simp [isLiteralChar, digit]
  have ends := stops_dropWhile isLiteralChar (c :: s)
  have inside : ∀ x ∈ s.takeWhile isLiteralChar, isLiteralChar x = true :=
    List.all_eq_true.1 List.all_takeWhile
  have shape : c :: s.takeWhile isLiteralChar ++ (c :: s).dropWhile isLiteralChar = c :: s := by
    rw [← List.takeWhile_cons_of_pos first]
    exact List.takeWhile_append_dropWhile
  rw [← shape]
  by_cases dot : '.' ∈ s.takeWhile isLiteralChar
  · by_cases dotted : ∃ a b c' d, Dotted (c :: s.takeWhile isLiteralChar) a b c' d
    · obtain ⟨a, b, c', d, dotted⟩ := dotted
      exact ⟨_, .addr dotted ends rest⟩
    · have bad : ∀ a b c' d, ¬Dotted (c :: s.takeWhile isLiteralChar) a b c' d :=
        fun a b c' d h => dotted ⟨a, b, c', d, h⟩
      exact ⟨_, .badDotted digit inside dot bad ends rest⟩
  · refine ⟨_, .number (by simp) ?_ ends rest⟩
    intro x member
    rcases List.mem_cons.1 member with rfl | hx
    · exact digit
    · have literal := inside x hx
      simp only [isLiteralChar, Bool.or_eq_true, beq_iff_eq] at literal
      rcases literal with h | rfl
      · exact h
      · exact absurd hx dot

theorem exists_lexes_symbol {c : Char} {s : List Char} (symbol : c ∈ punctuation)
    (rest : ∀ s' : List Char, s'.length ≤ s.length → ∃ ts, Lexes s' ts) :
    ∃ ts, Lexes (c :: s) ts := by
  by_cases pair : ∃ d ∈ s.head?, ∃ t, (c, d, t) ∈ symbols2
  · obtain ⟨d, first, t, pair⟩ := pair
    obtain ⟨s, rfl⟩ : ∃ s', s = d :: s' := by
      cases s with
      | nil => simp at first
      | cons e s =>
          cases first
          exact ⟨s, rfl⟩
    obtain ⟨ts, lexes⟩ := rest s (by simp)
    exact ⟨_, .symbol2 pair lexes⟩
  · obtain ⟨t, one⟩ := exists_symbol1 symbol
    obtain ⟨ts, lexes⟩ := rest s (Nat.le_refl _)
    exact ⟨_, .symbol1 one (fun d first t' member => pair ⟨d, first, t', member⟩) lexes⟩

/-- **Every text can be cut into terminals.** -/
theorem exists_lexes (s : List Char) : ∃ ts, Lexes s ts := by
  induction size : s.length using Nat.strongRecOn generalizing s with
  | ind n ih =>
      cases s with
      | nil => exact ⟨[], .done⟩
      | cons c s =>
          have shorter (s' : List Char) (le : s'.length ≤ s.length) : ∃ ts, Lexes s' ts :=
            ih s'.length (by simp only [List.length_cons] at size; omega) s' rfl
          by_cases blank : isSpace c = true
          · obtain ⟨ts, rest⟩ := shorter s (Nat.le_refl _)
            exact ⟨ts, .space blank rest⟩
          by_cases symbol : c ∈ punctuation
          · exact exists_lexes_symbol symbol shorter
          by_cases digit : c.isDigit = true
          · refine exists_lexes_literal digit (shorter _ ?_)
            rw [List.dropWhile_cons_of_pos (by simp [isLiteralChar, digit])]
            exact length_dropWhile_le isLiteralChar s
          by_cases letter : isIdentStart c = true
          · obtain ⟨ts, rest⟩ := shorter _ (length_dropWhile_le isIdentChar s)
            have inside : ∀ x ∈ s.takeWhile isIdentChar, isIdentChar x = true :=
              List.all_eq_true.1 List.all_takeWhile
            have lexes := Lexes.word letter inside (stops_dropWhile isIdentChar s) rest
            rw [List.cons_append, List.takeWhile_append_dropWhile] at lexes
            exact ⟨_, lexes⟩
          · obtain ⟨ts, rest⟩ := shorter s (Nat.le_refl _)
            exact ⟨_, .junk (by simpa using blank) symbol (by simpa using digit)
              (by simpa using letter) rest⟩

end Clumsy.Filter
