/-
# Filter.Correct -- the parser recognises the grammar

`Parser.ahead` is what the parser still has to read, as terminals.  Two inductions
carry the module:

* on the fuel, `Settled`: with a fixed number of rounds for every terminal ahead
  each function returns, and where it returns a node it read a prefix of what was
  ahead that derives from its level;
* on the derivation, `Complete`: a parser that has a derivable prefix ahead reads
  exactly that prefix and the node it returns stands for what the derivation
  denotes.  `parseOr` and `parseAnd` are stated up to their loops, so that left
  association is an equation between the two.

Together they give `filterCompile_correct`.
-/
import Clumsy.Filter.Scan

namespace Clumsy.Filter

open Clumsy.Theory
open Clumsy.Packet

set_option autoImplicit false

/-! ## What is ahead -/

namespace Parser

/-- The terminals from the current token on. -/
def ahead (p : Parser) : List Terminal :=
  if p.cur.kind = .endOfInput then [] else p.cur.terminal :: terminals p.src

theorem ahead_next (s : List Char) (nodes : List Node) :
    ahead { cur := (next s).1, src := (next s).2, nodes } = terminals s := by
  unfold ahead
  split
  · rename_i last
    exact (terminals_end last).symm
  · rename_i more
    exact (terminals_cons more).symm

theorem ahead_start (s : List Char) : (Parser.start s).ahead = terminals s := ahead_next s []

@[simp] theorem ahead_add (n : Node) (p : Parser) : (p.add n).2.ahead = p.ahead := rfl

@[simp] theorem nodes_add (n : Node) (p : Parser) : (p.add n).2.nodes = p.nodes ++ [n] := rfl

@[simp] theorem nodes_advance (p : Parser) : p.advance.nodes = p.nodes := rfl

theorem ahead_eq_nil {p : Parser} : p.ahead = [] ↔ p.cur.kind = .endOfInput := by
  unfold ahead
  split <;> simp_all

theorem ahead_of_more {p : Parser} (more : p.cur.kind ≠ .endOfInput) :
    p.ahead = p.cur.terminal :: p.advance.ahead := by
  rw [advance, ahead_next, ahead, if_neg more]

theorem ahead_eq_cons {p : Parser} {t : Terminal} {ts : List Terminal} (ahead : p.ahead = t :: ts) :
    p.cur.kind ≠ .endOfInput ∧ p.cur.terminal = t ∧ p.advance.ahead = ts := by
  have more : p.cur.kind ≠ .endOfInput := by
    intro last
    rw [ahead_eq_nil.2 last] at ahead
    cases ahead
  rw [ahead_of_more more] at ahead
  cases ahead
  exact ⟨more, rfl, rfl⟩

end Parser

/-! ## Tests on the current token -/

theorem punctTerminal_eq_cmpOp {text : List Char} {op : Op} :
    punctTerminal text = .cmpOp op ↔ lookupOp text = some op := by
  unfold punctTerminal
  cases known : lookupOp text with
  | some op' => simp
  | none => split_ifs <;> simp

/-- A symbol that is no operator is recognised by its text. -/
theorem punctTerminal_eq {text : List Char} :
    (punctTerminal text = .lparen ↔ text = ['(']) ∧ (punctTerminal text = .rparen ↔ text = [')']) ∧
      (punctTerminal text = .bang ↔ text = ['!']) ∧
      (punctTerminal text = .conj ↔ text = ['&', '&']) ∧
      (punctTerminal text = .disj ↔ text = ['|', '|']) := by
  unfold punctTerminal
  cases known : lookupOp text with
  | some op =>
      have other {symbol : List Char} (none : lookupOp symbol = none) : text ≠ symbol := by
        rintro rfl
        rw [none] at known
        cases known
      simp only [reduceCtorEq, false_iff]
      exact ⟨other (by decide), other (by decide), other (by decide), other (by decide),
        other (by decide)⟩
  | none => split_ifs <;> simp_all

/-- Punctuation is no word and no literal. -/
theorem punctTerminal_symbol (text : List Char) :
    (∀ w, punctTerminal text ≠ .word w) ∧ (∀ n, punctTerminal text ≠ .number n) ∧
      ∀ a b c d, punctTerminal text ≠ .addr a b c d := by
  unfold punctTerminal
  cases lookupOp text with
  | some op => simp
  | none => split_ifs <;> simp

namespace Token

theorem terminal_eq_word {t : Token} {w : List Char} :
    t.terminal = .word w ↔ t.kind = .ident ∧ t.text = w := by
  cases kind : t.kind <;> simp [terminal, kind, (punctTerminal_symbol t.text).1]

theorem terminal_eq_number {t : Token} {n : Nat} :
    t.terminal = .number n ↔ t.kind = .number ∧ t.num.toNat = n := by
  cases kind : t.kind <;> simp [terminal, kind, (punctTerminal_symbol t.text).2.1]

theorem terminal_eq_addr {t : Token} {a b c d : Nat} (same : t.terminal = .addr a b c d) :
    t.kind = .ipv4 ∧ t.num.toNat = a * 2 ^ 24 + b * 2 ^ 16 + c * 2 ^ 8 + d := by
  cases kind : t.kind with
  | ipv4 =>
      simp only [terminal, kind, Terminal.addr.injEq] at same
      exact ⟨rfl, by omega⟩
  | _ => simp [terminal, kind, (punctTerminal_symbol t.text).2.2] at same

theorem exists_addr {t : Token} (kind : t.kind = .ipv4) :
    ∃ a b c d, t.terminal = .addr a b c d := by
  simp [terminal, kind]

theorem terminal_eq_cmpOp {t : Token} {op : Op} :
    t.terminal = .cmpOp op ↔ t.kind = .punct ∧ lookupOp t.text = some op := by
  cases kind : t.kind <;> simp [terminal, kind, punctTerminal_eq_cmpOp]

theorem terminal_eq_lparen {t : Token} :
    t.terminal = .lparen ↔ t.kind = .punct ∧ t.text = ['('] := by
  cases kind : t.kind <;> simp [terminal, kind, punctTerminal_eq]

theorem terminal_eq_rparen {t : Token} :
    t.terminal = .rparen ↔ t.kind = .punct ∧ t.text = [')'] := by
  cases kind : t.kind <;> simp [terminal, kind, punctTerminal_eq]

end Token

namespace Parser

theorem isPunct_iff {p : Parser} {s : String} :
    p.isPunct s = true ↔ p.cur.kind = .punct ∧ p.cur.text = s.toList := by
  simp [isPunct]

/-- The two spellings of an operator, as one test on what is ahead. -/
theorem spelled_ahead (p : Parser) (kw s : String) (is : Terminal → Bool)
    (word : ∀ w, is (.word w) = stricmp w kw) (number : ∀ n, is (.number n) = false)
    (addr : ∀ a b c d, is (.addr a b c d) = false)
    (symbol : ∀ text, is (punctTerminal text) = (text == s.toList)) :
    (p.isIdent kw || p.isPunct s) = p.ahead.head?.any is := by
  cases kind : p.cur.kind with
  | endOfInput => simp [isIdent, isPunct, kind, ahead_eq_nil.2 kind]
  | _ =>
      rw [ahead_of_more (by simp [kind])]
      simp [isIdent, isPunct, kind, Token.terminal, word, number, addr, symbol]

theorem or_ahead (p : Parser) :
    (p.isIdent "or" || p.isPunct "||") = p.ahead.head?.any Terminal.isOr := by
  refine spelled_ahead p _ _ _ (fun _ => rfl) (fun _ => rfl) (fun _ _ _ _ => rfl) fun text => ?_
  rw [Bool.eq_iff_iff, beq_iff_eq]
  show _ ↔ text = ['|', '|']
  rw [← punctTerminal_eq.2.2.2.2]
  have symbol := punctTerminal_symbol text
  cases same : punctTerminal text <;> simp_all [Terminal.isOr]

theorem and_ahead (p : Parser) :
    (p.isIdent "and" || p.isPunct "&&") = p.ahead.head?.any Terminal.isAnd := by
  refine spelled_ahead p _ _ _ (fun _ => rfl) (fun _ => rfl) (fun _ _ _ _ => rfl) fun text => ?_
  rw [Bool.eq_iff_iff, beq_iff_eq]
  show _ ↔ text = ['&', '&']
  rw [← punctTerminal_eq.2.2.2.1]
  have symbol := punctTerminal_symbol text
  cases same : punctTerminal text <;> simp_all [Terminal.isAnd]

theorem not_ahead (p : Parser) :
    (p.isIdent "not" || p.isPunct "!") = p.ahead.head?.any Terminal.isNot := by
  refine spelled_ahead p _ _ _ (fun _ => rfl) (fun _ => rfl) (fun _ _ _ _ => rfl) fun text => ?_
  rw [Bool.eq_iff_iff, beq_iff_eq]
  show _ ↔ text = ['!']
  rw [← punctTerminal_eq.2.2.1]
  have symbol := punctTerminal_symbol text
  cases same : punctTerminal text <;> simp_all [Terminal.isNot]

end Parser

/-! ## Tables -/

theorem lookup_map {α β : Type} (f : α → β) (table : List (String × α)) (w : List Char) :
    lookup (table.map fun entry => (entry.1, f entry.2)) w = (lookup table w).map f := by
  unfold lookup
  rw [List.find?_map, Option.map_map, Option.map_map]
  rfl

theorem lookup_append {α : Type} (table more : List (String × α)) (w : List Char) :
    lookup (table ++ more) w = (lookup table w).or (lookup more w) := by
  unfold lookup
  rw [List.find?_append]
  cases table.find? fun entry => stricmp w entry.1 <;> rfl

theorem lookup_mem {α : Type} {table : List (String × α)} {w : List Char} {a : α}
    (known : lookup table w = some a) : ∃ name, (name, a) ∈ table ∧ stricmp w name = true := by
  unfold lookup at known
  obtain ⟨⟨name, b⟩, found, rfl⟩ := Option.map_eq_some_iff.1 known
  have hit := List.find?_some found
  exact ⟨name, List.mem_of_find?_eq_some found, hit⟩

/-- A word finds what any word that differs in case only finds. -/
theorem lookup_congr {α : Type} (table : List (String × α)) {w : List Char} {kw : String}
    (same : stricmp w kw = true) : lookup table w = lookup table kw.toList := by
  unfold lookup stricmp at *
  rw [beq_iff_eq.1 same]

/-- The formula of a leaf node. -/
def Node.leaf (n : Node) : Formula Atom :=
  match n.atom? with
  | some a => .atom a
  | none => if n.kind = .nTrue then .tt else .ff

theorem represents_leaf (nodes : List Node) {n : Node}
    (leaf : n.kind ≠ .nAnd ∧ n.kind ≠ .nOr ∧ n.kind ≠ .nNot) :
    Represents (nodes ++ [n]) nodes.length n.leaf := by
  have here : (nodes ++ [n])[nodes.length]? = some n := by simp
  unfold Node.leaf
  cases atom : n.atom? with
  | some a => exact .atom here atom
  | none =>
      by_cases kind : n.kind = .nTrue
      · rw [if_pos kind]
        exact .tt here kind
      · rw [if_neg kind]
        refine .ff here ?_
        cases other : n.kind <;> simp_all [Node.atom?]

theorem keywordFormulas_eq :
    keywordFormulas =
      (keywords.map fun entry => (entry.1, Node.leaf { kind := entry.2 })) ++
        protos.map fun entry => (entry.1, (protoNode entry.2).leaf) := by
  decide

theorem lookup_keywordFormulas (w : List Char) :
    lookup keywordFormulas w =
      ((lookup keywords w).map fun kind => Node.leaf { kind }).or
        ((lookup protos w).map fun proto => (protoNode proto).leaf) := by
  rw [keywordFormulas_eq, lookup_append, lookup_map fun kind => Node.leaf { kind },
    lookup_map fun proto => (protoNode proto).leaf]

/-! ## The parser returns, and only what derives -/

namespace Parsed

/-- The parser returned, and a node it returned is as `Q` says. -/
def Settles (r : Parsed) (Q : Nat → Parser → Prop) : Prop :=
  ∃ out, r = some out ∧ ∀ i p, out = .ok (i, p) → Q i p

theorem settles_ok {Q : Nat → Parser → Prop} {i : Nat} {p : Parser} (h : Q i p) :
    Settles (some (.ok (i, p))) Q := by
  refine ⟨_, rfl, ?_⟩
  intro j q same
  cases same
  exact h

theorem settles_error (msg : String) (Q : Nat → Parser → Prop) : Settles (some (.error msg)) Q := by
  refine ⟨_, rfl, ?_⟩
  intro j q same
  cases same

theorem Settles.andThen {r : Parsed} {k : Nat → Parser → Parsed} {Q R : Nat → Parser → Prop}
    (first : r.Settles Q) (second : ∀ i p, Q i p → (k i p).Settles R) :
    (r.andThen k).Settles R := by
  obtain ⟨out, rfl, spec⟩ := first
  match out with
  | .error msg => exact settles_error msg R
  | .ok (i, p) => exact second i p (spec i p rfl)

theorem Settles.mono {r : Parsed} {Q R : Nat → Parser → Prop} (h : r.Settles Q)
    (weaker : ∀ i p, Q i p → R i p) : r.Settles R := by
  obtain ⟨out, rfl, spec⟩ := h
  exact ⟨out, rfl, fun i p same => weaker i p (spec i p same)⟩

end Parsed

/-- From `p` to `q` the parser read terminals that, behind those of `us`, derive
from the level. -/
def Reads (level : Level) (us : List Terminal) (p q : Parser) : Prop :=
  ∃ vs φ, p.ahead = vs ++ q.ahead ∧ Derives level (us ++ vs) φ

theorem Derives.ne_nil {level : Level} {ts : List Terminal} {φ : Formula Atom}
    (derives : Derives level ts φ) : ts ≠ [] := by
  induction derives with
  | orOne _ ih => exact ih
  | andOne _ ih => exact ih
  | notOne _ ih => exact ih
  | _ => simp

/-- What the functions do with a given fuel: rounds for every terminal ahead. -/
structure Settled (fuel : Nat) : Prop where
  parseOr (p : Parser) (enough : 6 * p.ahead.length + 4 ≤ fuel) :
    (parseOr fuel p).Settles fun _ q => Reads .or [] p q
  parseOrLoop (left : Nat) (p : Parser) (us : List Terminal) (φ : Formula Atom)
    (sofar : Derives .or us φ) (enough : 6 * p.ahead.length + 1 ≤ fuel) :
    (parseOrLoop fuel left p).Settles fun _ q => Reads .or us p q
  parseAnd (p : Parser) (enough : 6 * p.ahead.length + 3 ≤ fuel) :
    (parseAnd fuel p).Settles fun _ q => Reads .and [] p q
  parseAndLoop (left : Nat) (p : Parser) (us : List Terminal) (φ : Formula Atom)
    (sofar : Derives .and us φ) (enough : 6 * p.ahead.length + 1 ≤ fuel) :
    (parseAndLoop fuel left p).Settles fun _ q => Reads .and us p q
  parseNot (p : Parser) (enough : 6 * p.ahead.length + 2 ≤ fuel) :
    (parseNot fuel p).Settles fun _ q => Reads .not [] p q
  parsePrimary (p : Parser) (enough : 6 * p.ahead.length + 1 ≤ fuel) :
    (parsePrimary fuel p).Settles fun _ q => Reads .prim [] p q

namespace Settled

variable {fuel : Nat}

theorem parseOr_succ (ih : Settled fuel) (p : Parser)
    (enough : 6 * p.ahead.length + 4 ≤ fuel + 1) :
    (Filter.parseOr (fuel + 1) p).Settles fun _ q => Reads .or [] p q := by
  rw [Filter.parseOr]
  refine (ih.parseAnd p (by omega)).andThen ?_
  rintro left q ⟨us, φ, ahead, derives⟩
  have first : Derives .or us φ := .orOne derives
  have shorter : q.ahead.length ≤ p.ahead.length := by
    rw [ahead, List.length_append]
    omega
  refine (ih.parseOrLoop left q us φ first (by omega)).mono ?_
  rintro _ r ⟨vs, ψ, ahead', derives'⟩
  exact ⟨us ++ vs, ψ, by rw [ahead, ahead', List.append_assoc], derives'⟩

theorem parseAnd_succ (ih : Settled fuel) (p : Parser)
    (enough : 6 * p.ahead.length + 3 ≤ fuel + 1) :
    (Filter.parseAnd (fuel + 1) p).Settles fun _ q => Reads .and [] p q := by
  rw [Filter.parseAnd]
  refine (ih.parseNot p (by omega)).andThen ?_
  rintro left q ⟨us, φ, ahead, derives⟩
  have first : Derives .and us φ := .andOne derives
  have shorter : q.ahead.length ≤ p.ahead.length := by
    rw [ahead, List.length_append]
    omega
  refine (ih.parseAndLoop left q us φ first (by omega)).mono ?_
  rintro _ r ⟨vs, ψ, ahead', derives'⟩
  exact ⟨us ++ vs, ψ, by rw [ahead, ahead', List.append_assoc], derives'⟩

/-- A test on the head of what is ahead finds a terminal. -/
theorem head_any {p : Parser} {is : Terminal → Bool} (found : p.ahead.head?.any is = true) :
    ∃ t, p.ahead = t :: p.advance.ahead ∧ is t = true := by
  cases ahead : p.ahead with
  | nil => simp [ahead] at found
  | cons t ts =>
      rw [(Parser.ahead_eq_cons ahead).2.2]
      exact ⟨t, rfl, by simpa [ahead] using found⟩

theorem parseOrLoop_succ (ih : Settled fuel) (left : Nat) (p : Parser) (us : List Terminal)
    (φ : Formula Atom) (sofar : Derives .or us φ) (enough : 6 * p.ahead.length + 1 ≤ fuel + 1) :
    (Filter.parseOrLoop (fuel + 1) left p).Settles fun _ q => Reads .or us p q := by
  rw [Filter.parseOrLoop, Parser.or_ahead]
  split
  · rename_i found
    obtain ⟨t, ahead, word⟩ := head_any found
    have size : p.ahead.length = p.advance.ahead.length + 1 := by rw [ahead, List.length_cons]
    refine (ih.parseAnd p.advance (by omega)).andThen ?_
    rintro right q ⟨vs, ψ, ahead', derives⟩
    have more := Derives.orMore sofar word derives
    have shorter : q.ahead.length ≤ p.advance.ahead.length := by
      rw [ahead', List.length_append]
      omega
    refine (ih.parseOrLoop _ _ _ _ more (by rw [Parser.ahead_add]; omega)).mono ?_
    rintro _ r ⟨ws, χ, ahead'', derives'⟩
    refine ⟨t :: vs ++ ws, χ, ?_, by simpa using derives'⟩
    rw [Parser.ahead_add] at ahead''
    rw [ahead, ahead', ahead'']
    simp
  · exact Parsed.settles_ok ⟨[], φ, rfl, by simpa using sofar⟩

theorem parseAndLoop_succ (ih : Settled fuel) (left : Nat) (p : Parser) (us : List Terminal)
    (φ : Formula Atom) (sofar : Derives .and us φ) (enough : 6 * p.ahead.length + 1 ≤ fuel + 1) :
    (Filter.parseAndLoop (fuel + 1) left p).Settles fun _ q => Reads .and us p q := by
  rw [Filter.parseAndLoop, Parser.and_ahead]
  split
  · rename_i found
    obtain ⟨t, ahead, word⟩ := head_any found
    have size : p.ahead.length = p.advance.ahead.length + 1 := by rw [ahead, List.length_cons]
    refine (ih.parseNot p.advance (by omega)).andThen ?_
    rintro right q ⟨vs, ψ, ahead', derives⟩
    have more := Derives.andMore sofar word derives
    have shorter : q.ahead.length ≤ p.advance.ahead.length := by
      rw [ahead', List.length_append]
      omega
    refine (ih.parseAndLoop _ _ _ _ more (by rw [Parser.ahead_add]; omega)).mono ?_
    rintro _ r ⟨ws, χ, ahead'', derives'⟩
    refine ⟨t :: vs ++ ws, χ, ?_, by simpa using derives'⟩
    rw [Parser.ahead_add] at ahead''
    rw [ahead, ahead', ahead'']
    simp
  · exact Parsed.settles_ok ⟨[], φ, rfl, by simpa using sofar⟩

theorem parseNot_succ (ih : Settled fuel) (p : Parser)
    (enough : 6 * p.ahead.length + 2 ≤ fuel + 1) :
    (Filter.parseNot (fuel + 1) p).Settles fun _ q => Reads .not [] p q := by
  rw [Filter.parseNot, Parser.not_ahead]
  split
  · rename_i found
    obtain ⟨t, ahead, word⟩ := head_any found
    have size : p.ahead.length = p.advance.ahead.length + 1 := by rw [ahead, List.length_cons]
    refine (ih.parseNot p.advance (by omega)).andThen ?_
    rintro operand q ⟨vs, ψ, ahead', derives⟩
    refine Parsed.settles_ok ⟨t :: vs, .not ψ, ?_, .notMore word derives⟩
    rw [ahead, ahead']
    rfl
  · refine (ih.parsePrimary p (by omega)).mono ?_
    rintro _ q ⟨vs, ψ, ahead, derives⟩
    exact ⟨vs, ψ, ahead, .notOne derives⟩

/-- A comparison behind a field name: an operator and a literal the field takes. -/
theorem parseComparison_reads {w : List Char} {field : Field}
    (known : lookup fields w = some field) (p : Parser) :
    (parseComparison w field p).Settles fun _ q => Reads .prim [.word w] p q := by
  unfold parseComparison
  split
  · exact Parsed.settles_error _ _
  rename_i op spelled
  split
  · exact Parsed.settles_error _ _
  rename_i punct
  have isOp : p.cur.terminal = .cmpOp op :=
    Token.terminal_eq_cmpOp.2 ⟨not_not.1 punct, spelled⟩
  have first : p.ahead = .cmpOp op :: p.advance.ahead := by
    rw [Parser.ahead_of_more (by simp [not_not.1 punct]), isOp]
  have last (q : Parser) (more : q.cur.kind ≠ .endOfInput) (n : Node) :
      q.ahead = q.cur.terminal :: (q.advance.add n).2.ahead := Parser.ahead_of_more more
  generalize p.advance = q at first ⊢
  dsimp only
  split
  · exact Parsed.settles_error _ _
  rename_i literal
  split
  · exact Parsed.settles_error _ _
  rename_i addrs
  split
  · exact Parsed.settles_error _ _
  rename_i numbers
  have more : q.cur.kind ≠ .endOfInput := by
    intro atEnd
    simp [atEnd] at literal
  refine Parsed.settles_ok ?_
  cases wants : field.wantsAddr with
  | true =>
      have kind : q.cur.kind = .ipv4 := by simpa [wants] using addrs
      obtain ⟨a, b, c, d, isAddr⟩ := Token.exists_addr kind
      refine ⟨[.cmpOp op, .addr a b c d], _, ?_, .addr known wants⟩
      rw [first, last q more, isAddr]
      rfl
  | false =>
      have kind : q.cur.kind = .number := by
        have other : q.cur.kind ≠ .ipv4 := by simpa [wants] using numbers
        by_contra neither
        exact literal ⟨neither, other⟩
      have isNumber := Token.terminal_eq_number.2 ⟨kind, rfl⟩
      refine ⟨[.cmpOp op, .number q.cur.num.toNat], _, ?_, .number known wants⟩
      rw [first, last q more, isNumber]
      rfl

theorem parsePrimary_succ (ih : Settled fuel) (p : Parser)
    (enough : 6 * p.ahead.length + 1 ≤ fuel + 1) :
    (Filter.parsePrimary (fuel + 1) p).Settles fun _ q => Reads .prim [] p q := by
  rw [Filter.parsePrimary]
  split
  · rename_i opening
    have isParen := Token.terminal_eq_lparen.2 (Parser.isPunct_iff.1 opening)
    have ahead : p.ahead = .lparen :: p.advance.ahead := by
      rw [Parser.ahead_of_more (by simp [(Parser.isPunct_iff.1 opening).1]), isParen]
    have size : p.ahead.length = p.advance.ahead.length + 1 := by rw [ahead, List.length_cons]
    refine (ih.parseOr p.advance (by omega)).andThen ?_
    rintro inner q ⟨vs, ψ, ahead', derives⟩
    split
    · rename_i closing
      have isParen' := Token.terminal_eq_rparen.2 (Parser.isPunct_iff.1 closing)
      have ahead'' : q.ahead = .rparen :: q.advance.ahead := by
        rw [Parser.ahead_of_more (by simp [(Parser.isPunct_iff.1 closing).1]), isParen']
      refine Parsed.settles_ok ⟨.lparen :: vs ++ [.rparen], ψ, ?_, .paren derives⟩
      rw [ahead, ahead', ahead'']
      simp
    · exact Parsed.settles_error _ _
  split
  · exact Parsed.settles_error _ _
  rename_i ident
  have isWord : p.cur.terminal = .word p.cur.text :=
    Token.terminal_eq_word.2 ⟨not_not.1 ident, rfl⟩
  have ahead : p.ahead = .word p.cur.text :: p.advance.ahead := by
    rw [Parser.ahead_of_more (by simp [not_not.1 ident]), isWord]
  simp only
  split
  · rename_i kind found
    refine Parsed.settles_ok ⟨[.word p.cur.text], Node.leaf { kind }, ahead, .keyword ?_⟩
    rw [lookup_keywordFormulas, found]
    rfl
  rename_i noKeyword
  split
  · rename_i proto found
    refine Parsed.settles_ok ⟨[.word p.cur.text], (protoNode proto).leaf, ahead, .keyword ?_⟩
    rw [lookup_keywordFormulas, noKeyword, found]
    rfl
  split
  · exact Parsed.settles_error _ _
  · rename_i field found
    refine (parseComparison_reads found p.advance).mono ?_
    rintro _ q ⟨vs, φ, ahead', derives⟩
    exact ⟨.word p.cur.text :: vs, φ, by rw [ahead, ahead', List.cons_append], derives⟩

end Settled

theorem settled (fuel : Nat) : Settled fuel := by
  induction fuel with
  | zero =>
      constructor <;> intros <;> omega
  | succ fuel ih =>
      exact {
        parseOr := ih.parseOr_succ
        parseOrLoop := ih.parseOrLoop_succ
        parseAnd := ih.parseAnd_succ
        parseAndLoop := ih.parseAndLoop_succ
        parseNot := ih.parseNot_succ
        parsePrimary := ih.parsePrimary_succ }

/-! ## The parser reads what derives -/

theorem Represents.grow {nodes nodes' : List Node} {i : Nat} {φ : Formula Atom}
    (rep : Represents nodes i φ) (kept : nodes <+: nodes') : Represents nodes' i φ := by
  obtain ⟨more, rfl⟩ := kept
  exact rep.extend

theorem last_node (nodes : List Node) (n : Node) : (nodes ++ [n])[nodes.length]? = some n := by
  simp

theorem represents_or {nodes : List Node} {l r : Nat} {φ ψ : Formula Atom}
    (left : Represents nodes l φ) (right : Represents nodes r ψ) :
    Represents (nodes ++ [{ kind := .nOr, left := l, right := r }]) nodes.length (.or φ ψ) :=
  .or (last_node nodes _) rfl rfl rfl left.lt_length right.lt_length left.extend right.extend

theorem represents_and {nodes : List Node} {l r : Nat} {φ ψ : Formula Atom}
    (left : Represents nodes l φ) (right : Represents nodes r ψ) :
    Represents (nodes ++ [{ kind := .nAnd, left := l, right := r }]) nodes.length (.and φ ψ) :=
  .and (last_node nodes _) rfl rfl rfl left.lt_length right.lt_length left.extend right.extend

theorem represents_not {nodes : List Node} {l : Nat} {φ : Formula Atom}
    (operand : Represents nodes l φ) :
    Represents (nodes ++ [{ kind := .nNot, left := l }]) nodes.length (.not φ) :=
  .not (last_node nodes _) rfl rfl operand.lt_length operand.extend

/-- The parser got from `p` to `q`, where `rest` is left and `i` stands for `φ`. -/
structure Arrives (p : Parser) (rest : List Terminal) (φ : Formula Atom) (i : Nat) (q : Parser) :
    Prop where
  ahead  : q.ahead = rest
  stands : Represents q.nodes i φ
  kept   : p.nodes <+: q.nodes

/-- No terminal of the class comes next. -/
def Free (is : Terminal → Bool) (rest : List Terminal) : Prop := rest.head?.any is = false

/-- What each function does on a derivable prefix; `parseOr` and `parseAnd` get as
far as their loops. -/
def Complete (level : Level) (ts : List Terminal) (φ : Formula Atom) : Prop :=
  match level with
  | .or =>
      ∀ fuel p rest, p.ahead = ts ++ rest → 6 * p.ahead.length + 4 ≤ fuel →
        Free Terminal.isAnd rest →
        ∃ i q fuel', Arrives p rest φ i q ∧ 6 * rest.length + 1 ≤ fuel' ∧
          parseOr fuel p = parseOrLoop fuel' i q
  | .and =>
      ∀ fuel p rest, p.ahead = ts ++ rest → 6 * p.ahead.length + 3 ≤ fuel →
        ∃ i q fuel', Arrives p rest φ i q ∧ 6 * rest.length + 1 ≤ fuel' ∧
          parseAnd fuel p = parseAndLoop fuel' i q
  | .not =>
      ∀ fuel p rest, p.ahead = ts ++ rest → 6 * p.ahead.length + 2 ≤ fuel →
        ∃ i q, Arrives p rest φ i q ∧ parseNot fuel p = some (.ok (i, q))
  | .prim =>
      Free Terminal.isNot ts ∧
        ∀ fuel p rest, p.ahead = ts ++ rest → 6 * p.ahead.length + 1 ≤ fuel →
          ∃ i q, Arrives p rest φ i q ∧ parsePrimary fuel p = some (.ok (i, q))

theorem parseOrLoop_stop {fuel i : Nat} {p : Parser} (some : 0 < fuel)
    (free : Free Terminal.isOr p.ahead) : parseOrLoop fuel i p = .some (.ok (i, p)) := by
  obtain ⟨fuel, rfl⟩ : ∃ k, fuel = k + 1 := ⟨fuel - 1, by omega⟩
  rw [parseOrLoop, Parser.or_ahead, free]
  rfl

theorem parseAndLoop_stop {fuel i : Nat} {p : Parser} (some : 0 < fuel)
    (free : Free Terminal.isAnd p.ahead) : parseAndLoop fuel i p = .some (.ok (i, p)) := by
  obtain ⟨fuel, rfl⟩ : ∃ k, fuel = k + 1 := ⟨fuel - 1, by omega⟩
  rw [parseAndLoop, Parser.and_ahead, free]
  rfl

/-- A conjunction that no further one follows is read whole. -/
theorem Complete.parseAnd {ts : List Terminal} {φ : Formula Atom} (h : Complete .and ts φ)
    (fuel : Nat) {p : Parser} {rest : List Terminal} (ahead : p.ahead = ts ++ rest)
    (enough : 6 * p.ahead.length + 3 ≤ fuel) (free : Free Terminal.isAnd rest) :
    ∃ i q, Arrives p rest φ i q ∧ parseAnd fuel p = some (.ok (i, q)) := by
  obtain ⟨i, q, fuel', arrives, enough', run⟩ := h fuel p rest ahead enough
  refine ⟨i, q, arrives, ?_⟩
  rw [run]
  exact parseAndLoop_stop (by omega) (by rw [arrives.ahead]; exact free)

theorem Complete.parseOr {ts : List Terminal} {φ : Formula Atom} (h : Complete .or ts φ)
    (fuel : Nat) {p : Parser} {rest : List Terminal} (ahead : p.ahead = ts ++ rest)
    (enough : 6 * p.ahead.length + 4 ≤ fuel) (freeAnd : Free Terminal.isAnd rest)
    (freeOr : Free Terminal.isOr rest) :
    ∃ i q, Arrives p rest φ i q ∧ parseOr fuel p = some (.ok (i, q)) := by
  obtain ⟨i, q, fuel', arrives, enough', run⟩ := h fuel p rest ahead enough freeAnd
  refine ⟨i, q, arrives, ?_⟩
  rw [run]
  exact parseOrLoop_stop (by omega) (by rw [arrives.ahead]; exact freeOr)

theorem complete_orOne {ts : List Terminal} {φ : Formula Atom} (h : Complete .and ts φ) :
    Complete .or ts φ := by
  intro fuel p rest ahead enough free
  obtain ⟨fuel, rfl⟩ : ∃ k, fuel = k + 1 := ⟨fuel - 1, by omega⟩
  obtain ⟨i, q, arrives, run⟩ := h.parseAnd fuel ahead (by omega) free
  refine ⟨i, q, fuel, arrives, ?_, by rw [Filter.parseOr, run, Parsed.andThen_ok]⟩
  rw [ahead, List.length_append] at enough
  omega

theorem complete_andOne {ts : List Terminal} {φ : Formula Atom} (h : Complete .not ts φ) :
    Complete .and ts φ := by
  intro fuel p rest ahead enough
  obtain ⟨fuel, rfl⟩ : ∃ k, fuel = k + 1 := ⟨fuel - 1, by omega⟩
  obtain ⟨i, q, arrives, run⟩ := h fuel p rest ahead (by omega)
  refine ⟨i, q, fuel, arrives, ?_, by rw [Filter.parseAnd, run, Parsed.andThen_ok]⟩
  rw [ahead, List.length_append] at enough
  omega

theorem not_isAnd_of_isOr {t : Terminal} (word : t.isOr = true) : t.isAnd = false := by
  cases t with
  | word w =>
      by_contra both
      have same : stricmp w "or" = true := word
      have same' : stricmp w "and" = true := by simpa [Terminal.isAnd] using both
      unfold stricmp at same same'
      rw [beq_iff_eq.1 same] at same'
      exact absurd same' (by decide)
  | disj => rfl
  | _ => cases word

theorem complete_orMore {ts us : List Terminal} {t : Terminal} {φ ψ : Formula Atom}
    (left : Complete .or ts φ) (word : t.isOr = true) (right : Complete .and us ψ) :
    Complete .or (ts ++ t :: us) (.or φ ψ) := by
  intro fuel p rest ahead enough free
  rw [List.append_assoc, List.cons_append] at ahead
  have apart : Free Terminal.isAnd (t :: (us ++ rest)) := not_isAnd_of_isOr word
  obtain ⟨i, q, fuel', arrives, enough', run⟩ := left fuel p _ ahead enough apart
  obtain ⟨fuel', rfl⟩ : ∃ k, fuel' = k + 1 := ⟨fuel' - 1, by omega⟩
  rw [List.length_cons, List.length_append] at enough'
  have ahead' := (Parser.ahead_eq_cons arrives.ahead).2.2
  obtain ⟨j, r, arrives', run'⟩ :=
    right.parseAnd fuel' ahead' (by rw [ahead', List.length_append]; omega) free
  have stands := represents_or (arrives.stands.grow arrives'.kept) arrives'.stands
  refine ⟨r.nodes.length, (r.add { kind := .nOr, left := i, right := j }).2, fuel',
    ⟨arrives'.ahead, stands, ?_⟩, by omega, ?_⟩
  · exact (arrives.kept.trans arrives'.kept).trans (List.prefix_append _ _)
  · rw [run, parseOrLoop, Parser.or_ahead, arrives.ahead]
    simp only [List.head?_cons, Option.any_some, word, if_true, run', Parsed.andThen_ok]
    rfl

theorem complete_andMore {ts us : List Terminal} {t : Terminal} {φ ψ : Formula Atom}
    (left : Complete .and ts φ) (word : t.isAnd = true) (right : Complete .not us ψ) :
    Complete .and (ts ++ t :: us) (.and φ ψ) := by
  intro fuel p rest ahead enough
  rw [List.append_assoc, List.cons_append] at ahead
  obtain ⟨i, q, fuel', arrives, enough', run⟩ := left fuel p _ ahead enough
  obtain ⟨fuel', rfl⟩ : ∃ k, fuel' = k + 1 := ⟨fuel' - 1, by omega⟩
  rw [List.length_cons, List.length_append] at enough'
  have ahead' := (Parser.ahead_eq_cons arrives.ahead).2.2
  obtain ⟨j, r, arrives', run'⟩ :=
    right fuel' q.advance rest ahead' (by rw [ahead', List.length_append]; omega)
  have stands := represents_and (arrives.stands.grow arrives'.kept) arrives'.stands
  refine ⟨r.nodes.length, (r.add { kind := .nAnd, left := i, right := j }).2, fuel',
    ⟨arrives'.ahead, stands, ?_⟩, by omega, ?_⟩
  · exact (arrives.kept.trans arrives'.kept).trans (List.prefix_append _ _)
  · rw [run, parseAndLoop, Parser.and_ahead, arrives.ahead]
    simp only [List.head?_cons, Option.any_some, word, if_true, run', Parsed.andThen_ok]
    rfl

theorem complete_notOne {ts : List Terminal} {φ : Formula Atom} (some : ts ≠ [])
    (h : Complete .prim ts φ) : Complete .not ts φ := by
  intro fuel p rest ahead enough
  obtain ⟨fuel, rfl⟩ : ∃ k, fuel = k + 1 := ⟨fuel - 1, by omega⟩
  obtain ⟨i, q, arrives, run⟩ := h.2 fuel p rest ahead (by omega)
  refine ⟨i, q, arrives, ?_⟩
  have free : p.ahead.head?.any Terminal.isNot = false := by
    rw [ahead, List.head?_append_of_ne_nil ts some]
    exact h.1
  rw [parseNot, Parser.not_ahead, free]
  exact run

theorem complete_notMore {ts : List Terminal} {t : Terminal} {φ : Formula Atom}
    (word : t.isNot = true) (operand : Complete .not ts φ) : Complete .not (t :: ts) (.not φ) := by
  intro fuel p rest ahead enough
  obtain ⟨fuel, rfl⟩ : ∃ k, fuel = k + 1 := ⟨fuel - 1, by omega⟩
  rw [List.cons_append] at ahead
  have ahead' := (Parser.ahead_eq_cons ahead).2.2
  have size : p.ahead.length = p.advance.ahead.length + 1 := by
    rw [ahead, ahead', List.length_cons]
  obtain ⟨i, q, arrives, run⟩ := operand fuel p.advance rest ahead' (by omega)
  refine ⟨q.nodes.length, (q.add { kind := .nNot, left := i }).2,
    ⟨arrives.ahead, represents_not arrives.stands, ?_⟩, ?_⟩
  · exact arrives.kept.trans (List.prefix_append _ _)
  · have found : p.ahead.head?.any Terminal.isNot = true := by
      rw [ahead]
      exact word
    rw [parseNot, Parser.not_ahead, found, if_pos rfl, run]
    rfl

theorem complete_paren {ts : List Terminal} {φ : Formula Atom} (inner : Complete .or ts φ) :
    Complete .prim (.lparen :: ts ++ [.rparen]) φ := by
  refine ⟨rfl, ?_⟩
  intro fuel p rest ahead enough
  obtain ⟨fuel, rfl⟩ : ∃ k, fuel = k + 1 := ⟨fuel - 1, by omega⟩
  rw [List.cons_append, List.cons_append, List.append_assoc] at ahead
  obtain ⟨_, opening, ahead'⟩ := Parser.ahead_eq_cons ahead
  have size : p.ahead.length = p.advance.ahead.length + 1 := by
    rw [ahead, ahead', List.length_cons]
  obtain ⟨i, q, arrives, run⟩ := inner.parseOr fuel ahead' (by omega) rfl rfl
  obtain ⟨_, closing, ahead''⟩ := Parser.ahead_eq_cons arrives.ahead
  refine ⟨i, q.advance, ⟨ahead'', arrives.stands, arrives.kept⟩, ?_⟩
  rw [parsePrimary, if_pos (Parser.isPunct_iff.2 (Token.terminal_eq_lparen.1 opening)), run,
    Parsed.andThen_ok, if_pos (Parser.isPunct_iff.2 (Token.terminal_eq_rparen.1 closing))]

/-- A leaf is built from the last terminal read. -/
theorem accept_arrives {p : Parser} {t : Terminal} {rest : List Terminal}
    (ahead : p.ahead = t :: rest) {n : Node}
    (leaf : n.kind ≠ .nAnd ∧ n.kind ≠ .nOr ∧ n.kind ≠ .nNot) :
    ∃ i q, Arrives p rest n.leaf i q ∧ p.accept n = some (.ok (i, q)) :=
  ⟨p.nodes.length, (p.advance.add n).2,
    ⟨(Parser.ahead_eq_cons ahead).2.2, represents_leaf p.nodes leaf, List.prefix_append _ _⟩, rfl⟩

theorem leaf_of_keyword {w : List Char} {kind : NodeKind} (known : lookup keywords w = some kind) :
    kind ≠ .nAnd ∧ kind ≠ .nOr ∧ kind ≠ .nNot := by
  obtain ⟨name, member, _⟩ := lookup_mem known
  have all : ∀ entry ∈ keywords,
      entry.2 ≠ .nAnd ∧ entry.2 ≠ .nOr ∧ entry.2 ≠ .nNot := by decide
  exact all _ member

/-- A word at the head of what is ahead, as `parsePrimary` sees it. -/
theorem parsePrimary_word {fuel : Nat} {p : Parser} {w : List Char} {rest : List Terminal}
    (ahead : p.ahead = .word w :: rest) :
    parsePrimary (fuel + 1) p =
      match lookup keywords w with
      | some kind => p.accept { kind }
      | none =>
          match lookup protos w with
          | some proto => p.accept (protoNode proto)
          | none =>
              match lookupField w with
              | none => some (.error ("unknown filter term " ++ Parser.quoted w))
              | some field => parseComparison w field p.advance := by
  obtain ⟨kind, rfl⟩ := Token.terminal_eq_word.1 (Parser.ahead_eq_cons ahead).2.1
  have noParen : ¬p.isPunct "(" = true := by
    rw [Parser.isPunct_iff, kind]
    simp
  rw [parsePrimary, if_neg noParen]
  exact if_neg (not_not.2 kind)

theorem free_isNot {w : List Char} (other : stricmp w "not" = false) (ts : List Terminal) :
    Free Terminal.isNot (.word w :: ts) := other

theorem complete_keyword {w : List Char} {φ : Formula Atom}
    (known : lookup keywordFormulas w = some φ) : Complete .prim [.word w] φ := by
  refine ⟨free_isNot ?_ [], ?_⟩
  · by_contra isNot
    have same : stricmp w "not" = true := by simpa using isNot
    have unknown : lookup keywordFormulas "not".toList = none := by decide
    rw [lookup_congr keywordFormulas same, unknown] at known
    cases known
  intro fuel p rest ahead enough
  obtain ⟨fuel, rfl⟩ : ∃ k, fuel = k + 1 := ⟨fuel - 1, by omega⟩
  rw [parsePrimary_word ahead]
  rw [lookup_keywordFormulas] at known
  cases keyword : lookup keywords w with
  | some kind =>
      rw [keyword] at known
      cases known
      exact accept_arrives ahead (leaf_of_keyword keyword)
  | none =>
      cases found : lookup protos w with
      | some proto =>
          rw [keyword, found] at known
          cases known
          exact accept_arrives ahead ⟨by simp [protoNode], by simp [protoNode], by simp [protoNode]⟩
      | none =>
          rw [keyword, found] at known
          cases known

/-- A field name is no keyword, no protocol and not the word `not`. -/
theorem field_only {w : List Char} {field : Field} (known : lookup fields w = some field) :
    lookup keywords w = none ∧ lookup protos w = none ∧ stricmp w "not" = false := by
  obtain ⟨name, member, same⟩ := lookup_mem known
  have all : ∀ entry ∈ fields, lookup keywords entry.1.toList = none ∧
      lookup protos entry.1.toList = none ∧
      (entry.1.toList.map Char.toLower == "not".toList.map Char.toLower) = false := by decide
  obtain ⟨noKeyword, noProto, noNot⟩ := all _ member
  rw [lookup_congr keywords same, lookup_congr protos same]
  refine ⟨noKeyword, noProto, ?_⟩
  unfold stricmp at same ⊢
  rw [beq_iff_eq.1 same]
  exact noNot

/-- A comparison, once its operator and its literal are known to fit the field. -/
theorem parseComparison_fits {w : List Char} {field : Field} {op : Op} {t : Terminal}
    {rest : List Terminal} {p : Parser} (ahead : p.ahead = .cmpOp op :: t :: rest)
    (kind : p.advance.cur.kind = if field.wantsAddr then .ipv4 else .number) :
    parseComparison w field p =
      p.advance.accept { kind := .nCmp, field, op, value := p.advance.cur.num } := by
  obtain ⟨punct, spelled⟩ := Token.terminal_eq_cmpOp.1 (Parser.ahead_eq_cons ahead).2.1
  unfold parseComparison
  rw [spelled]
  simp only [punct, ne_eq, not_true_eq_false, if_false, kind]
  cases field.wantsAddr <;> simp

theorem accept_cmp {p : Parser} {t : Terminal} {rest : List Terminal} (ahead : p.ahead = t :: rest)
    (field : Field) (op : Op) (value : UInt32) :
    ∃ i q, Arrives p rest (.atom (.cmp field op value.toNat)) i q ∧
      p.accept { kind := .nCmp, field, op, value } = some (.ok (i, q)) :=
  accept_arrives (n := { kind := .nCmp, field, op, value }) ahead ⟨nofun, nofun, nofun⟩

/-- A comparison is read if its literal is of the kind the field wants. -/
theorem complete_comparison {w : List Char} {field : Field} {op : Op} {literal : Terminal} {v : Nat}
    (known : lookup fields w = some field)
    (wanted : ∀ t : Token, t.terminal = literal →
      t.kind = (if field.wantsAddr then .ipv4 else .number) ∧ t.num.toNat = v) :
    Complete .prim [.word w, .cmpOp op, literal] (.atom (.cmp field op v)) := by
  obtain ⟨noKeyword, noProto, noNot⟩ := field_only known
  refine ⟨free_isNot noNot _, ?_⟩
  intro fuel p rest ahead enough
  obtain ⟨fuel, rfl⟩ : ∃ k, fuel = k + 1 := ⟨fuel - 1, by omega⟩
  have ahead' := (Parser.ahead_eq_cons ahead).2.2
  have ahead'' := (Parser.ahead_eq_cons ahead').2.2
  obtain ⟨kind, value⟩ := wanted _ (Parser.ahead_eq_cons ahead'').2.1
  have fits := parseComparison_fits (w := w) ahead' kind
  rw [parsePrimary_word ahead, noKeyword, noProto, lookupField, known]
  simp only
  rw [fits, ← value]
  obtain ⟨i, q, arrives, run⟩ := accept_cmp ahead'' field op p.advance.advance.cur.num
  exact ⟨i, q, ⟨arrives.ahead, arrives.stands, arrives.kept⟩, run⟩

theorem complete_number {w : List Char} {field : Field} {op : Op} {n : Nat}
    (known : lookup fields w = some field) (kind : field.wantsAddr = false) :
    Complete .prim [.word w, .cmpOp op, .number n] (.atom (.cmp field op n)) := by
  apply complete_comparison known
  intro t same
  rw [kind]
  exact Token.terminal_eq_number.1 same

theorem complete_addr {w : List Char} {field : Field} {op : Op} {a b c d : Nat}
    (known : lookup fields w = some field) (kind : field.wantsAddr = true) :
    Complete .prim [.word w, .cmpOp op, .addr a b c d]
      (.atom (.cmp field op (a * 2 ^ 24 + b * 2 ^ 16 + c * 2 ^ 8 + d))) := by
  apply complete_comparison known
  intro t same
  rw [kind]
  exact Token.terminal_eq_addr same

/-- **Whatever derives is read**, level by level. -/
theorem complete {level : Level} {ts : List Terminal} {φ : Formula Atom}
    (derives : Derives level ts φ) : Complete level ts φ := by
  induction derives with
  | orOne _ ih => exact complete_orOne ih
  | orMore _ word _ left right => exact complete_orMore left word right
  | andOne _ ih => exact complete_andOne ih
  | andMore _ word _ left right => exact complete_andMore left word right
  | notOne one ih => exact complete_notOne one.ne_nil ih
  | notMore word _ ih => exact complete_notMore word ih
  | paren _ ih => exact complete_paren ih
  | keyword known => exact complete_keyword known
  | number known kind => exact complete_number known kind
  | addr known kind => exact complete_addr known kind

/-! ## Compilation -/

theorem length_tokensFrom_le (fuel : Nat) (s : List Char) : (tokensFrom fuel s).length ≤ fuel := by
  induction fuel generalizing s with
  | zero => exact Nat.le_refl _
  | succ fuel ih =>
      rw [tokensFrom]
      split
      · simp
      · exact Nat.succ_le_succ (ih _)

theorem length_terminals_le (s : List Char) : (terminals s).length ≤ s.length := by
  rw [terminals, List.length_map]
  exact length_tokensFrom_le s.length s

theorem parseFuel_enough (s : List Char) :
    6 * (Parser.start s).ahead.length + 4 ≤ parseFuel s := by
  have := length_terminals_le s
  rw [Parser.ahead_start, parseFuel]
  omega

theorem terminals_blank {s : List Char} (blank : isBlank s = true) : terminals s = [] := by
  have all : ∀ c ∈ s, isSpace c = true := by simpa [isBlank] using blank
  have skipped := dropWhile_run all stops_nil
  rw [List.append_nil] at skipped
  apply terminals_end
  unfold next
  rw [skipped]

/-- What derives is accepted, and the program stands for the formula. -/
theorem filterCompile_of_derives {s : List Char} {φ : Formula Atom}
    (derives : Derives .or (terminals s) φ) :
    ∃ prog, filterCompile s = .ok prog ∧ prog.Compiles φ := by
  have written : ¬isBlank s = true := fun blank => derives.ne_nil (terminals_blank blank)
  have ahead : (Parser.start s).ahead = terminals s ++ [] := by
    rw [Parser.ahead_start, List.append_nil]
  obtain ⟨i, q, arrives, run⟩ :=
    (complete derives).parseOr (parseFuel s) ahead (parseFuel_enough s) rfl rfl
  refine ⟨{ nodes := q.nodes, root := i }, ?_, i, rfl, arrives.stands⟩
  have last := Parser.ahead_eq_nil.1 arrives.ahead
  rw [filterCompile, if_neg written, Parser.parse, run, Parsed.andThen_ok, if_neg (not_not.2 last)]

theorem filterCompile_blank {s : List Char} (blank : isBlank s = true) :
    filterCompile s = .ok { nodes := [{ kind := .nTrue }], root := 0 } := by
  rw [filterCompile, if_pos blank]

/-- What is accepted and not blank derives. -/
theorem derives_of_filterCompile {s : List Char} {prog : FilterProgram}
    (accepted : filterCompile s = .ok prog) :
    isBlank s = true ∨ ∃ φ, Derives .or (terminals s) φ := by
  by_cases blank : isBlank s = true
  · exact .inl blank
  right
  rw [filterCompile, if_neg blank] at accepted
  obtain ⟨out, run, reads⟩ := (settled (parseFuel s)).parseOr (Parser.start s) (parseFuel_enough s)
  rw [Parser.parse, run] at accepted
  match out with
  | .error msg => simp at accepted
  | .ok (i, q) =>
      obtain ⟨us, φ, ahead, derives⟩ := reads i q rfl
      rw [Parsed.andThen_ok] at accepted
      by_cases last : q.cur.kind = .endOfInput
      · rw [Parser.ahead_start, Parser.ahead_eq_nil.2 last, List.append_nil] at ahead
        rw [ahead]
        exact ⟨φ, derives⟩
      · rw [if_pos last] at accepted
        simp at accepted

/-- A check that the compiled program passes. -/
theorem exists_compiled {s : List Char} {check : FilterProgram → Bool}
    (run : (filterCompile s).toOption.any check = true) :
    ∃ prog, filterCompile s = .ok prog ∧ check prog = true := by
  cases accepted : filterCompile s with
  | error msg =>
      rw [accepted] at run
      cases run
  | ok prog =>
      rw [accepted] at run
      exact ⟨prog, rfl, run⟩

/-- The formula an accepted text compiles to. -/
def Denotes (s : List Char) (φ : Formula Atom) : Prop :=
  (isBlank s = true ∧ φ = .tt) ∨ Derives .or (terminals s) φ

theorem compiles_of_denotes {s : List Char} {prog : FilterProgram} {φ : Formula Atom}
    (accepted : filterCompile s = .ok prog) (denotes : Denotes s φ) : prog.Compiles φ := by
  rcases denotes with ⟨blank, rfl⟩ | derives
  · rw [filterCompile_blank blank] at accepted
    cases accepted
    exact ⟨0, rfl, .tt rfl rfl⟩
  · obtain ⟨prog', same, compiles⟩ := filterCompile_of_derives derives
    rw [accepted] at same
    cases same
    exact compiles

theorem accepted_iff_denotes (s : List Char) :
    (∃ prog, filterCompile s = .ok prog) ↔ ∃ φ, Denotes s φ := by
  constructor
  · rintro ⟨prog, accepted⟩
    rcases derives_of_filterCompile accepted with blank | ⟨φ, derives⟩
    · exact ⟨.tt, .inl ⟨blank, rfl⟩⟩
    · exact ⟨φ, .inr derives⟩
  · rintro ⟨φ, ⟨blank, rfl⟩ | derives⟩
    · exact ⟨_, filterCompile_blank blank⟩
    · obtain ⟨prog, accepted, _⟩ := filterCompile_of_derives derives
      exact ⟨prog, accepted⟩

/-- **The filter language.**  Every text has a cutting into terminals; where its
literals are as promised, the compiler accepts it exactly if it is blank or its
terminals derive from the grammar, and the program then matches exactly the
packets that the derivation's formula is true of. -/
theorem filterCompile_correct (s : List Char) :
    (∃ ts, Lexes s ts) ∧
      ∀ ts, Lexes s ts → LiteralsOk ts →
        ((∃ prog, filterCompile s = .ok prog) ↔
            isBlank s = true ∨ ∃ φ, Derives .or ts φ) ∧
          ∀ prog, filterCompile s = .ok prog → ∀ (pktMeta : PacketMeta) (packet : Bytes),
            (isBlank s = true → filterMatch prog pktMeta packet = true) ∧
              ∀ φ, Derives .or ts φ →
                filterMatch prog pktMeta packet = denote φ pktMeta packet := by
  refine ⟨exists_lexes s, ?_⟩
  intro ts lexes ok
  have same := terminals_of_lexes lexes ok
  subst same
  refine ⟨?_, ?_⟩
  · rw [accepted_iff_denotes]
    constructor
    · rintro ⟨φ, ⟨blank, _⟩ | derives⟩
      · exact .inl blank
      · exact .inr ⟨φ, derives⟩
    · rintro (blank | ⟨φ, derives⟩)
      · exact ⟨.tt, .inl ⟨blank, rfl⟩⟩
      · exact ⟨φ, .inr derives⟩
  · intro prog accepted pktMeta packet
    refine ⟨?_, ?_⟩
    · intro blank
      rw [filterMatch_eq_denote (compiles_of_denotes accepted (.inl ⟨blank, rfl⟩))]
      rfl
    · intro φ derives
      exact filterMatch_eq_denote (compiles_of_denotes accepted (.inr derives)) pktMeta packet

theorem filterCompile_correct_not_tcp :
    ∃ prog, filterCompile ['n', 'o', 't', ' ', 't', 'c', 'p'] = .ok prog ∧
      ∀ (pktMeta : PacketMeta) (packet : Bytes),
        filterMatch prog pktMeta packet =
          denote (.not (.atom (.cmp .ipProto .eq 6))) pktMeta packet := by
  have tcp : Lexes ['t', 'c', 'p'] [.word ['t', 'c', 'p']] :=
    .word (w := ['c', 'p']) (s := []) rfl (List.all_eq_true.1 (by decide)) (by simp [Ends]) .done
  have lexes : Lexes ['n', 'o', 't', ' ', 't', 'c', 'p']
      [.word ['n', 'o', 't'], .word ['t', 'c', 'p']] :=
    .word (w := ['o', 't']) rfl (List.all_eq_true.1 (by decide)) (by simp [Ends]; decide)
      (.space rfl tcp)
  have ok : LiteralsOk [.word ['n', 'o', 't'], .word ['t', 'c', 'p']] := by
    simp [LiteralsOk, Terminal.LiteralOk]
  have derives : Derives .or [.word ['n', 'o', 't'], .word ['t', 'c', 'p']]
      (.not (.atom (.cmp .ipProto .eq 6))) :=
    .orOne (.andOne (.notMore (by decide) (.notOne (.keyword (by decide)))))
  obtain ⟨accepts, means⟩ :=
    (filterCompile_correct ['n', 'o', 't', ' ', 't', 'c', 'p']).2 _ lexes ok
  obtain ⟨prog, accepted⟩ := accepts.2 (.inr ⟨_, derives⟩)
  exact ⟨prog, accepted, fun pktMeta packet =>
    (means prog accepted pktMeta packet).2 _ derives⟩

end Clumsy.Filter
