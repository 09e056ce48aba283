/-
# Scenario.Walk -- what the walk over an object makes of JSON

`parseObject` looks for quotes and never undoes an escape.  A member without quotes inside of
its strings is read as it is written (`readAll_pair`), and so are all members of an object
(`readAll_members`).  The rounds are counted by the length of the text, so that the lemmas
need no fuel.
-/
import Clumsy.Scenario.Load
import Clumsy.Text.Print

namespace Clumsy.Scenario

open Clumsy.Theory
open Clumsy.Theory.Json (Tree Derives White Body Text isWhite quoted Number isNumeral
  number_isNumeral escapes)
open Clumsy.Text

set_option autoImplicit false

/-! ## The walk without fuel -/

theorem readValue_bare {p : List Char} (bare : p.head? ≠ some '"') :
    readValue p = ((p.takeWhile (!endsValue ·)).take (VAL_SIZE - 1),
      p.dropWhile (!endsValue ·)) := by
  rw [readValue]
  rintro q rfl
  exact bare rfl

/-- A value without quotes and what ends it. -/
theorem readValue_run {t rest : List Char} (nonempty : t ≠ []) (bare : t.head? ≠ some '"')
    (inside : ∀ c ∈ t, (!endsValue c) = true) (stops : Stops (!endsValue ·) rest) :
    readValue (t ++ rest) = (t.take (VAL_SIZE - 1), rest) := by
  have front : (t ++ rest).head? ≠ some '"' := by
    rwa [List.head?_append_of_ne_nil t nonempty]
  rw [readValue_bare front, takeWhile_run inside stops, dropWhile_run inside stops]

theorem readValue_length (p : List Char) : (readValue p).2.length ≤ p.length := by
  by_cases bare : p.head? = some '"'
  · obtain ⟨q, rfl⟩ := List.head?_eq_some_iff.1 bare
    have cut := List.length_dropWhile_le (fun c => c != '"') q
    simp only [readValue, List.length_drop, List.length_cons]
    omega
  · rw [readValue_bare bare]
    exact List.length_dropWhile_le _ _

theorem readMembers_enough : ∀ {fuel fuel' : Nat} {p : List Char} {r : Reading},
    p.length ≤ fuel → p.length ≤ fuel' → readMembers fuel p r = readMembers fuel' p r
  | 0, 0, _, _, _, _ => rfl
  | 0, fuel' + 1, p, r, empty, _ => by
      obtain rfl := List.eq_nil_of_length_eq_zero (Nat.le_zero.1 empty)
      rfl
  | fuel + 1, 0, p, r, _, empty => by
      obtain rfl := List.eq_nil_of_length_eq_zero (Nat.le_zero.1 empty)
      rfl
  | fuel + 1, fuel' + 1, p, r, enough, enough' => by
      rw [readMembers, readMembers]
      have left := List.length_dropWhile_le (fun c => isBlank c || c == ',') p
      generalize p.dropWhile (fun c => isBlank c || c == ',') = q at left
      split
      · rfl
      · rfl
      · rename_i q
        have left' := List.length_dropWhile_le (fun c => c != '"') q
        simp only [List.length_cons] at left
        split
        · rfl
        · rename_i rest same
          rw [same, List.length_cons] at left'
          dsimp only
          split
          · exact readMembers_enough (by omega) (by omega)
          · have behind := List.length_dropWhile_le (fun c => isBlank c || c == ':') rest
            split
            · rfl
            · rename_i value
              have shorter := readValue_length (rest.dropWhile fun c => isBlank c || c == ':')
              exact readMembers_enough (by omega) (by omega)
      · simp only [List.length_cons] at left
        exact readMembers_enough (by omega) (by omega)

def readAll (p : List Char) (r : Reading) : Reading := readMembers p.length p r

theorem readAll_eq {fuel : Nat} {p : List Char} (enough : p.length ≤ fuel) (r : Reading) :
    readMembers fuel p r = readAll p r := readMembers_enough enough le_rfl

@[simp] theorem readAll_nil (r : Reading) : readAll [] r = r := rfl

theorem readMembers_drop (fuel : Nat) (p : List Char) (r : Reading) :
    readMembers fuel (p.dropWhile fun c => isBlank c || c == ',') r = readMembers fuel p r := by
  cases fuel with
  | zero => rfl
  | succ fuel => rw [readMembers, readMembers, List.dropWhile_idempotent]

/-- Outside of strings the walk passes over everything but a closing brace. -/
theorem readAll_cons {c : Char} (quote : c ≠ '"') (brace : c ≠ '}') (p : List Char)
    (r : Reading) : readAll (c :: p) r = readAll p r := by
  cases blank : isBlank c || c == ',' with
  | true =>
      rw [readAll, ← readMembers_drop, List.dropWhile_cons_of_pos (by simpa using blank),
        readMembers_drop]
      exact readAll_eq (Nat.le_succ _) r
  | false =>
      rw [readAll, List.length_cons, readMembers, List.dropWhile_cons_of_neg (by simpa using blank)]
      split
      · rename_i same; cases same
      · rename_i same; injection same with same; exact absurd same brace
      · rename_i same; injection same with same; exact absurd same quote
      · rename_i same; injection same with _ same; rw [← same]; rfl

theorem readAll_append {s : List Char} (plain : ∀ c ∈ s, c ≠ '"' ∧ c ≠ '}') (p : List Char)
    (r : Reading) : readAll (s ++ p) r = readAll p r := by
  induction s with
  | nil => rfl
  | cons c s ih =>
      obtain ⟨here, rest⟩ := List.forall_mem_cons.1 plain
      rw [List.cons_append, readAll_cons here.1 here.2, ih rest]

/-- A string where a key is looked for. -/
theorem readAll_key {key : List Char} (noQuote : '"' ∉ key) (rest : List Char) (r : Reading) :
    readAll (quoted key ++ rest) r =
      if key = [] ∨ key.length ≥ KEY_SIZE then readAll rest r
      else if rest.dropWhile (fun c => isBlank c || c == ':') = [] then r
      else readAll (readValue (rest.dropWhile fun c => isBlank c || c == ':')).2
        (r.member key (readValue (rest.dropWhile fun c => isBlank c || c == ':')).1) := by
  have shape : quoted key ++ rest = '"' :: (key ++ '"' :: rest) := by simp [quoted]
  have inside : ∀ c ∈ key, (c != '"') = true := fun c member => by
    simpa using fun same : c = '"' => noQuote (same ▸ member)
  have stops : Stops (· != '"') ('"' :: rest) := by simp
  have behind := List.length_dropWhile_le (fun c => isBlank c || c == ':') rest
  rw [readAll, shape, List.length_cons, readMembers, List.dropWhile_cons_of_neg (by decide)]
  split
  · rename_i same; cases same
  · rename_i same; cases same
  · rename_i same
    injection same with _ same
    rw [← same, dropWhile_run inside stops, takeWhile_run inside stops]
    dsimp only
    split_ifs with skipped nothing
    · exact readAll_eq (by simp; omega) r
    · rw [nothing]
    · split
      · rename_i empty; exact absurd empty nothing
      · have shorter := readValue_length (rest.dropWhile fun c => isBlank c || c == ':')
        exact readAll_eq (by simp; omega) _
  · rename_i other same
    injection same with same
    exact absurd same.symm (by simpa using other)

/-! ## Braces -/

/-- Deeper by an opening brace, and back by a closing one; none below the depth zero. -/
def balance : Nat → List Char → Option Nat
  | depth, [] => some depth
  | depth, c :: s =>
      if c = '{' then balance (depth + 1) s
      else if c = '}' then if depth = 0 then none else balance (depth - 1) s
      else balance depth s

def isBrace (c : Char) : Bool := c == '{' || c == '}'

/-- Nothing but the braces matters to the balance. -/
theorem balance_filter (depth : Nat) (s : List Char) :
    balance depth (s.filter isBrace) = balance depth s := by
  induction s generalizing depth with
  | nil => rfl
  | cons c s ih =>
      by_cases brace : isBrace c = true
      · rw [List.filter_cons_of_pos brace, balance, balance, ih, ih, ih]
      · have opening : c ≠ '{' := by
          rintro rfl
          exact brace rfl
        have closing : c ≠ '}' := by
          rintro rfl
          exact brace rfl
        rw [List.filter_cons_of_neg brace, balance, if_neg opening, if_neg closing, ih]

/-- A brace that closes what is in balance is the one that is looked for. -/
theorem closeBrace_balance {depth : Nat} {s : List Char} (balanced : balance depth s = some 0)
    (rest : List Char) :
    closeBrace (depth + 1) (s ++ '}' :: rest) = (s ++ ['}'], rest) := by
  induction s generalizing depth with
  | nil =>
      injection balanced with empty
      subst empty
      rfl
  | cons c s ih =>
      rw [balance] at balanced
      rw [List.cons_append, closeBrace]
      split_ifs at balanced with opening closing below
      · have deeper := ih balanced
        rw [Nat.cast_add, Nat.cast_one] at deeper
        rw [if_pos opening, if_pos (by omega), deeper]
        rfl
      · have outer := ih balanced
        have back : (depth : Int) + 1 - 1 = (depth - 1 : Nat) + 1 := by omega
        rw [if_neg opening, if_pos closing, back, if_pos (by omega), outer]
        rfl
      · rw [if_neg opening, if_neg closing, if_pos (by omega), ih balanced]
        rfl

theorem filter_plain {s : List Char} (plain : ∀ c ∈ s, isBrace c = false) :
    s.filter isBrace = [] := by
  rw [List.filter_eq_nil_iff]
  intro c member
  rw [plain c member]
  exact Bool.false_ne_true

theorem closeBrace_plain {s : List Char} (plain : ∀ c ∈ s, isBrace c = false)
    (rest : List Char) : closeBrace 1 (s ++ '}' :: rest) = (s ++ ['}'], rest) := by
  have balanced : balance 0 s = some 0 := by
    rw [← balance_filter, filter_plain plain]
    rfl
  exact closeBrace_balance balanced rest

theorem closeBrace_length (depth : Int) (s : List Char) :
    (closeBrace depth s).2.length ≤ s.length := by
  induction s generalizing depth with
  | nil => exact le_rfl
  | cons c s ih =>
      rw [closeBrace]
      dsimp only
      generalize (if c = '{' then depth + 1 else if c = '}' then depth - 1 else depth) = depth'
      split
      · exact (ih depth').trans (Nat.le_succ _)
      · exact Nat.le_succ _

/-! ## Scalars -/

abbrev Member := List Char × Tree

def isScalar : Tree → Bool
  | .array _ | .object _ => false
  | _ => true

/-- A scalar as it is written, a string without its quotes. -/
def written : Tree → List Char
  | .null => "null".toList
  | .bool b => if b then "true".toList else "false".toList
  | .number text => text
  | .string body => body
  | .array _ | .object _ => []

/-- What the walk keeps of a value. -/
def kept (v : Tree) : List Char := (written v).take (VAL_SIZE - 1)

/-- The characters of scalars without quotes. -/
def isBare (c : Char) : Bool := !endsValue c && c != '"' && c != ':' && c != '{'

theorem scalar_shape {v : Tree} {t : List Char} (derives : Derives (.value v) t)
    (scalar : isScalar v = true) :
    (∃ body, v = .string body ∧ t = quoted body ∧ Body body) ∨
      t = written v ∧ t ≠ [] ∧ ∀ c ∈ t, isBare c = true := by
  cases derives with
  | null => exact .inr ⟨rfl, List.cons_ne_nil _ _, List.all_eq_true.1 rfl⟩
  | bool b =>
      cases b <;> exact .inr ⟨rfl, List.cons_ne_nil _ _, List.all_eq_true.1 rfl⟩
  | number number =>
      refine .inr ⟨rfl, ?_, fun c member => ?_⟩
      · obtain ⟨c, t, rfl, -⟩ := number_head number
        exact List.cons_ne_nil c t
      · have numeral := number_isNumeral number c member
        rw [isNumeral, Bool.or_eq_true] at numeral
        rcases numeral with digit | sign
        · simp only [isBare, endsValue, isBlank, Bool.and_eq_true, Bool.not_eq_true', bne_iff_ne,
            Bool.or_eq_false_iff, beq_eq_false_iff_ne]
          refine ⟨⟨⟨⟨⟨?_, ?_⟩, ⟨⟨?_, ?_⟩, ?_⟩, ?_⟩, ?_⟩, ?_⟩, ?_⟩ <;> exact ne_of_digit digit rfl
        · simp only [List.contains_eq_mem, List.mem_cons, List.not_mem_nil, or_false,
            decide_eq_true_eq] at sign
          rcases sign with rfl | rfl | rfl | rfl | rfl <;> decide
  | string body => exact .inl ⟨_, rfl, rfl, body⟩
  | emptyArray | array | emptyObject | object => cases scalar

/-! ## One member -/

theorem blank_of_white {s : List Char} (white : White s) : ∀ c ∈ s, isBlank c = true := by
  intro c member
  have := white c member
  simp only [isWhite, Bool.or_eq_true, beq_iff_eq] at this
  rcases this with ((rfl | rfl) | rfl) | rfl <;> rfl

theorem notMem_white {s : List Char} (white : White s) {c : Char} (solid : isWhite c = false) :
    c ∉ s := by
  intro member
  rw [white c member] at solid
  cases solid

theorem plain_of_white {s : List Char} (white : White s) : ∀ c ∈ s, c ≠ '"' ∧ c ≠ '}' :=
  fun _ member => ⟨ne_of_mem_of_not_mem member (notMem_white white rfl),
    ne_of_mem_of_not_mem member (notMem_white white rfl)⟩

theorem plain_of_bare {s : List Char} (bare : ∀ c ∈ s, isBare c = true) :
    ∀ c ∈ s, c ≠ '"' ∧ c ≠ '}' := by
  intro c member
  have := bare c member
  constructor <;> rintro rfl <;> cases this

/-- Nothing, or the comma behind a member. -/
def Ends (u : List Char) : Prop := u = [] ∨ ∃ rest, u = ',' :: rest

theorem ends_stops {w u : List Char} (white : White w) (ends : Ends u) :
    Stops (!endsValue ·) (w ++ u) := by
  cases w with
  | nil =>
      rcases ends with rfl | ⟨rest, rfl⟩
      · exact stops_nil
      · exact stops_cons.2 rfl
  | cons c w =>
      refine stops_cons.2 ?_
      have blank := blank_of_white white c List.mem_cons_self
      simp [endsValue, blank]

theorem readValue_string {body : List Char} (noQuote : '"' ∉ body) (u : List Char) :
    readValue (quoted body ++ u) = (body.take (VAL_SIZE - 1), u) := by
  have shape : quoted body ++ u = '"' :: (body ++ '"' :: u) := by simp [quoted]
  have inside : ∀ c ∈ body, (c != '"') = true := fun c member => by
    simpa using fun same : c = '"' => noQuote (same ▸ member)
  have stops : Stops (· != '"') ('"' :: u) := by simp
  rw [shape, readValue, takeWhile_run inside stops, dropWhile_run inside stops]
  rfl

theorem readValue_scalar {t : List Char} (some : t ≠ []) (bare : ∀ c ∈ t, isBare c = true)
    {w u : List Char} (white : White w) (ends : Ends u) :
    readValue (t ++ (w ++ u)) = (t.take (VAL_SIZE - 1), w ++ u) := by
  refine readValue_run some ?_ (fun c member => ?_) (ends_stops white ends)
  · intro quote
    exact (plain_of_bare bare '"' (List.mem_of_mem_head? quote)).1 rfl
  · have here := bare c member
    simp only [isBare, Bool.and_eq_true] at here
    exact here.1.1.1

/-- What the walk makes of a member: one with a long key is passed over. -/
def Reading.read (r : Reading) (m : Member) : Reading :=
  if m.1.length ≥ KEY_SIZE then r else r.member m.1 (kept m.2)

/-- A member that the walk does not lose its way in, given whether it is the last one. -/
structure Legible (last : Prop) (m : Member) : Prop where
  named : m.1 ≠ []
  key   : '"' ∉ m.1
  text  : ∀ body, m.2 = .string body → '"' ∉ body
  long  : KEY_SIZE ≤ m.1.length → ∀ body, m.2 = .string body →
    last ∨ body = [] ∨ KEY_SIZE ≤ body.length

/-- A scalar begins with something that is not skipped. -/
theorem scalar_head {v : Tree} {t : List Char}
    (shapes : (∃ body, v = .string body ∧ t = quoted body ∧ Body body) ∨
      t = written v ∧ t ≠ [] ∧ ∀ c ∈ t, isBare c = true) :
    t ≠ [] ∧ ∀ c ∈ t.head?, isBlank c = false ∧ c ≠ ':' := by
  rcases shapes with ⟨body, -, rfl, -⟩ | ⟨-, some, bare⟩
  · refine ⟨List.cons_ne_nil _ _, ?_⟩
    rintro c ⟨⟩
    decide
  · refine ⟨some, fun c head => ?_⟩
    have here := bare c (List.mem_of_mem_head? head)
    simp only [isBare, endsValue, Bool.and_eq_true, Bool.not_eq_true', Bool.or_eq_false_iff,
      bne_iff_ne] at here
    exact ⟨here.1.1.1.2, here.1.2⟩

theorem readAll_white {w : List Char} (white : White w) (p : List Char) (r : Reading) :
    readAll (w ++ p) r = readAll p r := readAll_append (plain_of_white white) p r

/-- What stands between a key and its value is skipped. -/
theorem dropWhile_colon {w w' t u : List Char} (white : White w) (white' : White w')
    (some : t ≠ []) (solid : ∀ c ∈ t.head?, isBlank c = false ∧ c ≠ ':') :
    (w ++ ':' :: (w' ++ (t ++ u))).dropWhile (fun c => isBlank c || c == ':') = t ++ u := by
  obtain ⟨c, t, rfl⟩ := List.exists_cons_of_ne_nil some
  obtain ⟨blank, colon⟩ := solid c rfl
  have inside : ∀ d ∈ w ++ ':' :: w', (isBlank d || d == ':') = true := by
    intro d member
    rcases List.mem_append.1 member with front | back
    · rw [blank_of_white white d front, Bool.true_or]
    · rcases List.mem_cons.1 back with rfl | back
      · rfl
      · rw [blank_of_white white' d back, Bool.true_or]
  have run := dropWhile_run inside (s := (c :: t) ++ u) (by simp [blank, colon])
  simpa using run

theorem readAll_pair {key pair : List Char} {v : Tree} (derives : Derives (.pair key v) pair)
    (scalar : isScalar v = true) {u : List Char} (ends : Ends u)
    (legible : Legible (u = []) (key, v)) (r : Reading) :
    readAll (pair ++ u) r = readAll u (r.read (key, v)) := by
  cases derives with
  | @pair _ _ w w' item white _ white' derives =>
  cases derives with
  | @item _ w₁ t w₂ before derives behind =>
  have shape : w ++ quoted key ++ w' ++ ':' :: (w₁ ++ t ++ w₂) ++ u =
      w ++ (quoted key ++ (w' ++ ':' :: (w₁ ++ (t ++ (w₂ ++ u))))) := by
    simp only [List.append_assoc, List.cons_append]
  rw [shape, readAll_white white, readAll_key legible.key]
  have shapes := scalar_shape derives scalar
  by_cases long : key.length ≥ KEY_SIZE
  · rw [if_pos (.inr long), Reading.read, if_pos long, readAll_white white',
      readAll_cons (by decide) (by decide), readAll_white before]
    rcases shapes with ⟨string, rfl, rfl, -⟩ | ⟨-, -, bare⟩
    · rw [readAll_key (legible.text string rfl)]
      by_cases skipped : string = [] ∨ string.length ≥ KEY_SIZE
      · rw [if_pos skipped, readAll_white behind]
      · have last : u = [] := (legible.long long string rfl).resolve_right skipped
        subst last
        rw [if_neg skipped, List.append_nil, if_pos, readAll_nil]
        rw [List.dropWhile_eq_nil_iff]
        intro c member
        rw [blank_of_white behind c member, Bool.true_or]
    · rw [readAll_append (plain_of_bare bare), readAll_white behind]
  · rw [if_neg (not_or.2 ⟨legible.named, long⟩), Reading.read, if_neg long]
    obtain ⟨some, solid⟩ := scalar_head shapes
    rw [dropWhile_colon white' before some solid, if_neg (by simp [some])]
    rcases shapes with ⟨string, rfl, rfl, -⟩ | ⟨text, -, bare⟩
    · rw [readValue_string (legible.text string rfl), kept, written]
      exact readAll_white behind u _
    · rw [readValue_scalar some bare behind ends, kept, ← text]
      exact readAll_white behind u _

/-- The members of an object; only the last one may have a short string behind a long key. -/
def AllLegible : List Member → Prop
  | [] => True
  | m :: ms => Legible (ms = []) m ∧ AllLegible ms

/-- **The walk over the members of an object reads them one by one.** -/
theorem readAll_members {ms : List Member} {s : List Char} (derives : Derives (.members ms) s)
    (scalars : ∀ m ∈ ms, isScalar m.2 = true) (legible : AllLegible ms) (r : Reading) :
    readAll s r = ms.foldl Reading.read r := by
  induction ms generalizing s r with
  | nil => cases derives
  | cons m ms ih =>
      obtain ⟨scalar, others⟩ := List.forall_mem_cons.1 scalars
      obtain ⟨here, behind⟩ := legible
      rw [List.foldl_cons]
      cases derives with
      | lastMember pair =>
          have read := readAll_pair pair scalar (u := []) (.inl rfl)
            (by simpa using here) r
          rwa [List.append_nil, readAll_nil] at read
      | member pair derives =>
          have other : ms ≠ [] := by
            rintro rfl
            cases derives
          rw [readAll_pair pair scalar (.inr ⟨_, rfl⟩) (by simpa [other] using here),
            readAll_cons (by decide) (by decide), ih derives others behind]

end Clumsy.Scenario
