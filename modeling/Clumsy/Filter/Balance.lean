/-
# Filter.Balance -- parentheses in texts and in derivations

A parenthesis is always a token of its own: the terminals of a text split at every
`)` of it (`terminals_split`), and the parentheses can be counted in the text or in
its terminals (`depth_terminals`).  What derives is balanced (`Derives.nested`),
and a derivation that starts with `(` has an expression of its own up to some `)`
(`Derives.head_paren`).
-/
import Clumsy.Filter.Correct

namespace Clumsy.Filter

open Clumsy.Theory

set_option autoImplicit false

/-! ## Tokens end at a parenthesis -/

theorem takeWhile_stop {q : Char → Bool} {c : Char} (stop : q c = false) (s t : List Char) :
    (s ++ c :: t).takeWhile q = s.takeWhile q := by
  induction s with
  | nil => simp [stop]
  | cons d s ih =>
      rw [List.cons_append, List.takeWhile_cons, List.takeWhile_cons, ih]

theorem dropWhile_stop {q : Char → Bool} {c : Char} (stop : q c = false) (s t : List Char) :
    (s ++ c :: t).dropWhile q = s.dropWhile q ++ c :: t := by
  induction s with
  | nil => simp [stop]
  | cons d s ih =>
      rw [List.cons_append, List.dropWhile_cons, List.dropWhile_cons, ih]
      split <;> rfl

theorem lexPunct_stop (c : Char) (s t : List Char) :
    lexPunct c (s ++ ')' :: t) = ((lexPunct c s).1, (lexPunct c s).2 ++ ')' :: t) := by
  cases s with
  | nil =>
      have alone : lexPunct c (')' :: t) = ({ kind := .punct, text := [c] }, ')' :: t) := by
        apply lexPunct_one
        intro d first u symbol
        cases first
        simp [symbols2] at symbol
      exact alone
  | cons d s =>
      simp only [List.cons_append, lexPunct]
      split
      · rfl
      · split <;> rfl

theorem lexLiteral_stop (s t : List Char) :
    lexLiteral (s ++ ')' :: t) = ((lexLiteral s).1, (lexLiteral s).2 ++ ')' :: t) := by
  have stop : isLiteralChar ')' = false := by decide
  simp only [lexLiteral, takeWhile_stop stop, dropWhile_stop stop]
  split
  · split <;> rfl
  · rfl

theorem lexIdent_stop (s t : List Char) :
    lexIdent (s ++ ')' :: t) = ((lexIdent s).1, (lexIdent s).2 ++ ')' :: t) := by
  have stop : isIdentChar ')' = false := by decide
  simp only [lexIdent, takeWhile_stop stop, dropWhile_stop stop]

theorem next_stop {s : List Char} (more : (next s).1.kind ≠ .endOfInput) (t : List Char) :
    next (s ++ ')' :: t) = ((next s).1, (next s).2 ++ ')' :: t) := by
  have stop : isSpace ')' = false := by decide
  unfold next at more ⊢
  rw [dropWhile_stop stop]
  cases start : s.dropWhile isSpace with
  | nil =>
      rw [start] at more
      exact absurd rfl more
  | cons c rest =>
      simp only [List.cons_append]
      split
      · exact lexPunct_stop c rest t
      · split
        · exact lexLiteral_stop (c :: rest) t
        · split
          · exact lexIdent_stop (c :: rest) t
          · rfl

/-- The text of the next token, blanks in front included, and the rest. -/
theorem next_chunk (s : List Char) : ∃ chunk, s = chunk ++ (next s).2 := by
  unfold next
  have shape := List.takeWhile_append_dropWhile (p := isSpace) (l := s)
  cases start : s.dropWhile isSpace with
  | nil => exact ⟨s, by simp⟩
  | cons c rest =>
      rw [start] at shape
      rw [← shape]
      have behind (tail : List Char) {rest' : List Char} (same : c :: rest = tail ++ rest') :
          ∃ chunk, s.takeWhile isSpace ++ c :: rest = chunk ++ rest' :=
        ⟨s.takeWhile isSpace ++ tail, by rw [same, List.append_assoc]⟩
      simp only
      split
      · unfold lexPunct
        split
        · rename_i d more
          split
          · exact behind [c, d] rfl
          · split
            · exact behind [c, d] rfl
            · exact behind [c] rfl
        · exact behind [c] rfl
      · split
        · rw [lexLiteral_rest]
          exact behind _ (List.takeWhile_append_dropWhile).symm
        · split
          · exact behind _ (List.takeWhile_append_dropWhile).symm
          · exact behind [c] rfl

theorem dropWhile_of_end {s : List Char} (last : (next s).1.kind = .endOfInput) :
    s.dropWhile isSpace = [] := by
  unfold next at last
  cases start : s.dropWhile isSpace with
  | nil => rfl
  | cons c rest =>
      rw [start] at last
      simp only at last
      split at last
      · rw [lexPunct_kind] at last
        cases last
      · split at last
        · exact absurd last (lexLiteral_kind _)
        · split at last
          · cases last
          · cases last

theorem next_rparen {s : List Char} (last : (next s).1.kind = .endOfInput) (t : List Char) :
    next (s ++ ')' :: t) = ({ kind := .punct, text := [')'] }, t) := by
  have stop : isSpace ')' = false := by decide
  unfold next
  rw [dropWhile_stop stop, dropWhile_of_end last]
  apply lexPunct_one
  intro d _ u symbol
  simp [symbols2] at symbol

/-- **A text splits at every closing parenthesis.** -/
theorem terminals_split (s t : List Char) :
    terminals (s ++ ')' :: t) = terminals s ++ .rparen :: terminals t := by
  induction size : s.length using Nat.strongRecOn generalizing s with
  | ind n ih =>
      by_cases last : (next s).1.kind = .endOfInput
      · rw [terminals_end last]
        exact terminals_step (next_rparen last t) (by simp) rfl rfl
      · have shorter := next_shorter s last
        have step := next_stop last t
        rw [terminals_cons last, terminals_cons (by rw [step]; exact last), step]
        simp only [List.cons_append]
        rw [ih _ (by omega) (next s).2 rfl]

theorem terminals_lparen (s : List Char) : terminals ('(' :: s) = .lparen :: terminals s := by
  have found : next ('(' :: s) = ({ kind := .punct, text := ['('] }, s) := ?_
  · exact terminals_step found (by simp) rfl rfl
  rw [next_symbol s (by decide)]
  apply lexPunct_one
  intro d _ u symbol
  simp [symbols2] at symbol

theorem dropWhile_of_rparen {s : List Char} (closing : (next s).1.terminal = .rparen) :
    s.dropWhile isSpace = ')' :: (next s).2 := by
  obtain ⟨_, text⟩ := Token.terminal_eq_rparen.1 closing
  unfold next at text closing ⊢
  cases start : s.dropWhile isSpace with
  | nil => simp [start] at text
  | cons c rest =>
      simp only [start] at text closing ⊢
      split at text
      · rename_i symbol
        rw [if_pos symbol]
        unfold lexPunct at text ⊢
        split at text
        · split at text
          · simp at text
          · split at text
            · simp at text
            · simp_all
        · simp_all
      · rename_i symbol
        rw [if_neg symbol] at closing
        split at text
        · rename_i digit
          rw [if_pos digit, lexLiteral] at closing
          split at closing
          · split at closing <;> cases closing
          · cases closing
        · split at text
          · rename_i digit letter
            rw [if_neg digit, if_pos letter] at closing
            cases closing
          · rename_i plain
            cases text
            exact absurd rfl symbol

/-- Every closing parenthesis among the terminals is one of the text. -/
theorem rparen_of_terminals {s : List Char} {us vs : List Terminal}
    (split : terminals s = us ++ .rparen :: vs) :
    ∃ t rest, s = t ++ ')' :: rest ∧ terminals t = us := by
  induction size : s.length using Nat.strongRecOn generalizing s us with
  | ind n ih =>
      have more : (next s).1.kind ≠ .endOfInput := by
        intro last
        rw [terminals_end last] at split
        simp at split
      rw [terminals_cons more] at split
      cases us with
      | nil =>
          have shape := List.takeWhile_append_dropWhile (p := isSpace) (l := s)
          rw [dropWhile_of_rparen (List.cons.inj split).1] at shape
          exact ⟨_, _, shape.symm, terminals_blank List.all_takeWhile⟩
      | cons u us =>
          rw [List.cons_append] at split
          obtain ⟨t, rest, found, same⟩ :=
            ih _ (size ▸ next_shorter s more) (List.cons.inj split).2 rfl
          obtain ⟨chunk, shape⟩ := next_chunk s
          have whole : s = (chunk ++ t) ++ ')' :: rest := by
            rw [List.append_assoc, ← found]
            exact shape
          refine ⟨chunk ++ t, rest, whole, ?_⟩
          have cut := terminals_split (chunk ++ t) rest
          rw [← whole, terminals_cons more, (List.cons.inj split).1, found, terminals_split, same,
            ← List.cons_append] at cut
          exact (List.append_cancel_right cut).symm

/-! ## Depth -/

/-- How much deeper a terminal goes. -/
def Terminal.weight : Terminal → Int
  | .lparen => 1
  | .rparen => -1
  | _ => 0

/-- Opening less closing parentheses of a list of terminals. -/
def depth (ts : List Terminal) : Int := (ts.map Terminal.weight).sum

@[simp] theorem depth_nil : depth [] = 0 := rfl

@[simp] theorem depth_cons (t : Terminal) (ts : List Terminal) :
    depth (t :: ts) = t.weight + depth ts := by
  simp [depth]

@[simp] theorem depth_append (ts us : List Terminal) : depth (ts ++ us) = depth ts + depth us := by
  simp [depth]

/-- Opening less closing parentheses of a text. -/
def textDepth (s : List Char) : Int := s.count '(' - s.count ')'

@[simp] theorem textDepth_nil : textDepth [] = 0 := rfl

@[simp] theorem textDepth_append (s t : List Char) :
    textDepth (s ++ t) = textDepth s + textDepth t := by
  simp only [textDepth, List.count_append]
  omega

theorem textDepth_plain {s : List Char} (opening : '(' ∉ s) (closing : ')' ∉ s) :
    textDepth s = 0 := by
  simp [textDepth, List.count_eq_zero_of_not_mem, opening, closing]

theorem textDepth_takeWhile {p : Char → Bool} (s : List Char) (opening : p '(' = false)
    (closing : p ')' = false) : textDepth (s.takeWhile p) = 0 := by
  have all : ∀ c ∈ s.takeWhile p, p c = true := List.all_eq_true.1 List.all_takeWhile
  apply textDepth_plain
  · intro member
    exact absurd (all _ member) (by simp [opening])
  · intro member
    exact absurd (all _ member) (by simp [closing])

theorem textDepth_cons (c : Char) (s : List Char) :
    textDepth (c :: s) = textDepth [c] + textDepth s := textDepth_append [c] s

theorem lexPunct_weight {c : Char} (symbol : c ∈ punctuation) (rest : List Char) :
    textDepth (c :: rest) =
      (lexPunct c rest).1.terminal.weight + textDepth (lexPunct c rest).2 := by
  by_cases pair : ∃ d ∈ rest.head?, ∃ t, (c, d, t) ∈ symbols2
  · obtain ⟨d, first, t, pair⟩ := pair
    obtain ⟨s, rfl⟩ : ∃ s, rest = d :: s := by
      cases rest with
      | nil => simp at first
      | cons e s =>
          cases first
          exact ⟨s, rfl⟩
    rw [(lexPunct_two pair s).2.1, textDepth_cons c, textDepth_cons d]
    simp only [symbols2, List.mem_cons, Prod.mk.injEq, List.not_mem_nil, or_false] at pair
    rcases pair with ⟨rfl, rfl, rfl⟩ | ⟨rfl, rfl, rfl⟩ | ⟨rfl, rfl, rfl⟩ | ⟨rfl, rfl, rfl⟩ |
      ⟨rfl, rfl, rfl⟩ | ⟨rfl, rfl, rfl⟩ <;> exact (Int.add_assoc _ _ _).symm
  · rw [lexPunct_one fun d first t member => pair ⟨d, first, t, member⟩, textDepth_cons]
    simp only [punctuation, List.mem_cons, List.not_mem_nil, or_false] at symbol
    rcases symbol with rfl | rfl | rfl | rfl | rfl | rfl | rfl | rfl <;> rfl

theorem lexLiteral_weight (p : List Char) : (lexLiteral p).1.terminal.weight = 0 := by
  simp only [lexLiteral]
  split
  · split <;> rfl
  · rfl

theorem next_weight {s : List Char} (more : (next s).1.kind ≠ .endOfInput) :
    textDepth s = (next s).1.terminal.weight + textDepth (next s).2 := by
  have blanks := textDepth_takeWhile (p := isSpace) s rfl rfl
  have shape := List.takeWhile_append_dropWhile (p := isSpace) (l := s)
  unfold next at more ⊢
  cases start : s.dropWhile isSpace with
  | nil =>
      rw [start] at more
      exact absurd rfl more
  | cons c rest =>
      rw [start] at shape
      have same : textDepth s = textDepth (c :: rest) := by
        conv => lhs; rw [← shape, textDepth_append, blanks, Int.zero_add]
      rw [same]
      have cut {p : Char → Bool} (opening : p '(' = false) (closing : p ')' = false) :
          textDepth (c :: rest) = textDepth ((c :: rest).dropWhile p) := by
        have := textDepth_takeWhile (c :: rest) opening closing
        rw [← List.takeWhile_append_dropWhile (p := p) (l := c :: rest), textDepth_append,
          List.takeWhile_append_dropWhile, this, Int.zero_add]
      simp only
      split
      · rename_i symbol
        exact lexPunct_weight (by simpa using symbol) rest
      · rename_i symbol
        split
        · rw [lexLiteral_weight, lexLiteral_rest, Int.zero_add]
          exact cut rfl rfl
        · split
          · rw [cut (p := isIdentChar) rfl rfl]
            exact (Int.zero_add _).symm
          · have plain : c ∉ punctuation := by simpa using symbol
            have other : textDepth [c] = 0 := by
              apply textDepth_plain
              · rintro (_ | ⟨_, ⟨⟩⟩)
                exact plain (by decide)
              · rintro (_ | ⟨_, ⟨⟩⟩)
                exact plain (by decide)
            rw [textDepth_cons, other]
            simp [Token.terminal, punctTerminal_junk plain, Terminal.weight]

/-- The parentheses of a text are those of its terminals. -/
theorem depth_terminals (s : List Char) : depth (terminals s) = textDepth s := by
  induction size : s.length using Nat.strongRecOn generalizing s with
  | ind n ih =>
      by_cases last : (next s).1.kind = .endOfInput
      · have blanks := textDepth_takeWhile (p := isSpace) s rfl rfl
        have shape := List.takeWhile_append_dropWhile (p := isSpace) (l := s)
        rw [dropWhile_of_end last, List.append_nil] at shape
        rw [shape] at blanks
        rw [terminals_end last, blanks, depth_nil]
      · rw [terminals_cons last, depth_cons, next_weight last,
          ih _ (size ▸ next_shorter s last) (next s).2 rfl]

/-! ## Balance -/

/-- As many closing as opening ones, and never more on the way. -/
structure Nested (ts : List Terminal) : Prop where
  total : depth ts = 0
  never : ∀ n, 0 ≤ depth (ts.take n)

theorem Nested.append {ts us : List Terminal} (first : Nested ts) (second : Nested us) :
    Nested (ts ++ us) := by
  refine ⟨by rw [depth_append, first.total, second.total]; rfl, ?_⟩
  intro n
  rw [List.take_append, depth_append]
  have := first.never n
  have := second.never (n - ts.length)
  omega

theorem Nested.flat {t : Terminal} (flat : t.weight = 0) {ts : List Terminal}
    (rest : Nested ts) : Nested (t :: ts) := by
  refine ⟨by rw [depth_cons, flat, rest.total]; rfl, ?_⟩
  intro n
  cases n with
  | zero => simp
  | succ n =>
      have := rest.never n
      rw [List.take_succ_cons, depth_cons, flat]
      omega

theorem nested_nil : Nested [] := ⟨rfl, fun n => by simp⟩

theorem Nested.paren {ts : List Terminal} (inner : Nested ts) :
    Nested (.lparen :: ts ++ [.rparen]) := by
  refine ⟨by simp [inner.total, Terminal.weight], ?_⟩
  intro n
  cases n with
  | zero => simp
  | succ n =>
      rw [List.cons_append, List.take_succ_cons, depth_cons, List.take_append, depth_append]
      have := inner.never n
      have low : -1 ≤ depth ([Terminal.rparen].take (n - ts.length)) := by
        cases n - ts.length <;> simp [Terminal.weight]
      simp only [Terminal.weight]
      omega

theorem weight_of_isOr {t : Terminal} (word : t.isOr = true) : t.weight = 0 := by
  cases t <;> first | rfl | cases word

theorem weight_of_isAnd {t : Terminal} (word : t.isAnd = true) : t.weight = 0 := by
  cases t <;> first | rfl | cases word

theorem weight_of_isNot {t : Terminal} (word : t.isNot = true) : t.weight = 0 := by
  cases t <;> first | rfl | cases word

/-- **Derivable terminals are balanced.** -/
theorem Derives.nested {level : Level} {ts : List Terminal} {φ : Formula Atom}
    (derives : Derives level ts φ) : Nested ts := by
  induction derives with
  | orOne _ ih => exact ih
  | orMore _ word _ left right => exact left.append (right.flat (weight_of_isOr word))
  | andOne _ ih => exact ih
  | andMore _ word _ left right => exact left.append (right.flat (weight_of_isAnd word))
  | notOne _ ih => exact ih
  | notMore word _ ih => exact ih.flat (weight_of_isNot word)
  | paren _ ih => exact ih.paren
  | keyword => exact nested_nil.flat rfl
  | number => exact ((nested_nil.flat rfl).flat rfl).flat rfl
  | addr => exact ((nested_nil.flat rfl).flat rfl).flat rfl

/-- **A derivation that starts with a parenthesis** has an expression up to one that
closes it. -/
theorem Derives.head_paren {level : Level} {ts us : List Terminal} {φ : Formula Atom}
    (derives : Derives level ts φ) (head : ts = .lparen :: us) :
    ∃ inner tail ψ, us = inner ++ .rparen :: tail ∧ Derives .or inner ψ := by
  induction derives generalizing us with
  | orOne _ ih => exact ih head
  | @orMore ts _ _ _ _ left _ _ ih _ =>
      cases ts with
      | nil => exact absurd rfl left.ne_nil
      | cons u ts =>
          rw [List.cons_append] at head
          cases head
          obtain ⟨inner, tail, ψ, rfl, found⟩ := ih rfl
          exact ⟨inner, _, ψ, List.append_assoc _ _ _, found⟩
  | andOne _ ih => exact ih head
  | @andMore ts _ _ _ _ left _ _ ih _ =>
      cases ts with
      | nil => exact absurd rfl left.ne_nil
      | cons u ts =>
          rw [List.cons_append] at head
          cases head
          obtain ⟨inner, tail, ψ, rfl, found⟩ := ih rfl
          exact ⟨inner, _, ψ, List.append_assoc _ _ _, found⟩
  | notOne _ ih => exact ih head
  | notMore word _ _ =>
      cases head
      cases word
  | @paren inner ψ found _ =>
      cases head
      exact ⟨inner, [], ψ, rfl, found⟩
  | keyword => cases head
  | number => cases head
  | addr => cases head

/-- What a derivation can end with. -/
def Terminal.closes : Terminal → Bool
  | .rparen => true
  | .word w => (lookup keywordFormulas w).isSome
  | .number _ => true
  | .addr _ _ _ _ => true
  | _ => false

theorem Derives.getLast {level : Level} {ts : List Terminal} {φ : Formula Atom}
    (derives : Derives level ts φ) : ∃ us t, ts = us ++ [t] ∧ t.closes = true := by
  induction derives with
  | orOne _ ih => exact ih
  | @orMore ts _ t _ _ _ _ _ _ ih =>
      obtain ⟨us, last, rfl, closes⟩ := ih
      exact ⟨ts ++ t :: us, last, by simp, closes⟩
  | andOne _ ih => exact ih
  | @andMore ts _ t _ _ _ _ _ _ ih =>
      obtain ⟨us, last, rfl, closes⟩ := ih
      exact ⟨ts ++ t :: us, last, by simp, closes⟩
  | notOne _ ih => exact ih
  | @notMore _ t _ _ _ ih =>
      obtain ⟨us, last, rfl, closes⟩ := ih
      exact ⟨t :: us, last, rfl, closes⟩
  | @paren ts _ _ _ => exact ⟨.lparen :: ts, .rparen, rfl, rfl⟩
  | @keyword w _ known => exact ⟨[], .word w, rfl, by simp [Terminal.closes, known]⟩
  | @number w _ op n _ _ => exact ⟨[.word w, .cmpOp op], .number n, rfl, rfl⟩
  | @addr w _ op a b c d _ _ => exact ⟨[.word w, .cmpOp op], .addr a b c d, rfl, rfl⟩

/-- Two cuttings at a closing parenthesis: they agree where both parts in front
are balanced. -/
theorem Nested.cut_unique {ts us vs ws : List Terminal} (first : Nested ts)
    (second : Nested us) (same : ts ++ .rparen :: vs = us ++ .rparen :: ws) :
    ts = us ∧ vs = ws := by
  have longer {ts us vs ws : List Terminal} (first : Nested ts) (second : Nested us)
      (same : ts ++ .rparen :: vs = us ++ .rparen :: ws) : ¬ts.length < us.length := by
    intro less
    have cut := congrArg (List.take (ts.length + 1)) same
    rw [List.take_append_of_le_length (by omega : ts.length + 1 ≤ us.length),
      List.take_length_add_append] at cut
    have := second.never (ts.length + 1)
    rw [← cut] at this
    simp [first.total, Terminal.weight] at this
  have size : ts.length = us.length := by
    have := longer first second same
    have := longer second first same.symm
    omega
  obtain ⟨rfl, rest⟩ := List.append_inj same size
  exact ⟨rfl, (List.cons.inj rest).2⟩

theorem split_at {α : Type} {l : List α} {n : Nat} {a : α} (here : l[n]? = some a) :
    l = l.take n ++ a :: l.drop (n + 1) := by
  obtain ⟨inside, rfl⟩ := List.getElem?_eq_some_iff.1 here
  rw [← List.drop_eq_getElem_cons inside, List.take_append_drop]

/-- **Balance is visible in the text**: no part of it in front closes more than it
opens, and all of it closes what it opens. -/
theorem nested_terminals_iff (s : List Char) :
    Nested (terminals s) ↔ textDepth s = 0 ∧ ∀ n, 0 ≤ textDepth (s.take n) := by
  constructor
  · intro balanced
    refine ⟨by rw [← depth_terminals, balanced.total], ?_⟩
    intro n
    induction n with
    | zero => simp
    | succ n ih =>
        rw [List.take_add_one, textDepth_append]
        cases here : s[n]? with
        | none => simpa using ih
        | some c =>
            by_cases closing : c = ')'
            · subst closing
              have cut := terminals_split (s.take n) (s.drop (n + 1))
              rw [← split_at here] at cut
              have seen := balanced.never ((terminals (s.take n)).length + 1)
              rw [cut, List.take_length_add_append, depth_append, depth_terminals] at seen
              exact seen
            · have flat : 0 ≤ textDepth [c] := by
                have unclosed : [c].count ')' = 0 := by
                  simp [closing]
                rw [textDepth, unclosed]
                omega
              simp only [Option.toList_some]
              omega
  · rintro ⟨total, never⟩
    refine ⟨by rw [depth_terminals, total], ?_⟩
    intro n
    induction n with
    | zero => simp
    | succ n ih =>
        rw [List.take_add_one, depth_append]
        cases here : (terminals s)[n]? with
        | none => simpa using ih
        | some t =>
            by_cases closing : t = .rparen
            · subst closing
              obtain ⟨u, rest, rfl, same⟩ := rparen_of_terminals (split_at here)
              have seen := never (u.length + 1)
              rw [List.take_length_add_append, textDepth_append, ← depth_terminals, same] at seen
              exact seen
            · have flat : 0 ≤ t.weight := by
                cases t <;> first | exact absurd rfl closing | simp [Terminal.weight]
              simp only [Option.toList_some, depth_cons, depth_nil]
              omega

end Clumsy.Filter
