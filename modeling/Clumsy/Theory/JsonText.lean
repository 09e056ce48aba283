/-
# Theory.JsonText -- putting JSON texts together, and telling what is none

A program that prints JSON by concatenation prints a text if every piece is one: a value, a
run of members, a run of elements.  The lemmas say how the pieces go together.

What stands outside the strings of a text is simple enough to refuse a text by it
(`not_text_of_outside`): there an `n` is always followed by a `u`.
-/
import Clumsy.Theory.Json

namespace Clumsy.Theory.Json

set_option autoImplicit false

/-! ## Concatenation -/

def field (key value : List Char) : List Char := quoted key ++ ':' :: value

/-- The pieces with a comma between any two. -/
def commas : List (List Char) → List Char
  | [] => []
  | [s] => s
  | s :: ss => s ++ ',' :: commas ss

def braces (s : List Char) : List Char := '{' :: s ++ ['}']

def brackets (s : List Char) : List Char := '[' :: s ++ [']']

/-! ## Pieces -/

def IsValue (s : List Char) : Prop := ∃ v, Derives (.value v) s

def IsField (s : List Char) : Prop := ∃ key v, Derives (.pair key v) s

theorem white_empty : White [] := fun _ member => by cases member

theorem item_of_value {v : Tree} {s : List Char} (value : Derives (.value v) s) :
    Derives (.item v) s := by
  have item := Derives.item white_empty value white_empty
  rwa [List.nil_append, List.append_nil] at item

theorem derives_field {key s : List Char} {v : Tree} (body : Body key)
    (value : Derives (.value v) s) : Derives (.pair key v) (field key s) := by
  have pair := Derives.pair white_empty body white_empty (item_of_value value)
  rwa [List.nil_append, List.append_nil] at pair

theorem isField {key s : List Char} (body : Body key) (value : IsValue s) :
    IsField (field key s) := by
  obtain ⟨v, derives⟩ := value
  exact ⟨key, v, derives_field body derives⟩

theorem isValue_string {s : List Char} (body : Body s) : IsValue (quoted s) := ⟨_, .string body⟩

theorem isValue_number {s : List Char} (number : Number s) : IsValue s := ⟨_, .number number⟩

theorem isValue_bool (b : Bool) : IsValue (if b then "true".toList else "false".toList) :=
  ⟨_, .bool b⟩

/-- The first field is the first member. -/
theorem derives_members {key s : List Char} {v : Tree} (first : Derives (.pair key v) s)
    {fields : List (List Char)} (rest : ∀ f ∈ fields, IsField f) :
    ∃ ms, Derives (.members ((key, v) :: ms)) (commas (s :: fields)) := by
  induction fields generalizing key s v with
  | nil => exact ⟨[], .lastMember first⟩
  | cons f fields ih =>
      obtain ⟨key', v', second⟩ := rest f List.mem_cons_self
      obtain ⟨ms, derives⟩ := ih second fun g member => rest g (List.mem_cons_of_mem _ member)
      exact ⟨_, .member first derives⟩

theorem derives_elements {s : List Char} (first : IsValue s) {values : List (List Char)}
    (rest : ∀ t ∈ values, IsValue t) : ∃ vs, Derives (.elements vs) (commas (s :: values)) := by
  induction values generalizing s with
  | nil =>
      obtain ⟨v, derives⟩ := first
      exact ⟨_, .lastElement (item_of_value derives)⟩
  | cons t values ih =>
      obtain ⟨v, derives⟩ := first
      obtain ⟨vs, behind⟩ := ih (rest t List.mem_cons_self)
        fun u member => rest u (List.mem_cons_of_mem _ member)
      exact ⟨_, .element (item_of_value derives) behind⟩

theorem isValue_object {fields : List (List Char)} (all : ∀ f ∈ fields, IsField f) :
    IsValue (braces (commas fields)) := by
  cases fields with
  | nil => exact ⟨_, .emptyObject white_empty⟩
  | cons f fields =>
      obtain ⟨key, v, first⟩ := all f List.mem_cons_self
      obtain ⟨ms, derives⟩ :=
        derives_members first fun g member => all g (List.mem_cons_of_mem _ member)
      exact ⟨_, .object derives⟩

theorem isValue_array {values : List (List Char)} (all : ∀ t ∈ values, IsValue t) :
    IsValue (brackets (commas values)) := by
  cases values with
  | nil => exact ⟨_, .emptyArray white_empty⟩
  | cons t values =>
      obtain ⟨vs, derives⟩ := derives_elements (all t List.mem_cons_self)
        fun u member => all u (List.mem_cons_of_mem _ member)
      exact ⟨_, .array derives⟩

/-! ## Outside the strings -/

/-- The text without its strings; `true` is inside of one. -/
def outside : Bool → List Char → List Char
  | _, [] => []
  | false, '"' :: s => outside true s
  | false, c :: s => c :: outside false s
  | true, '\\' :: _ :: s => outside true s
  | true, '"' :: s => outside false s
  | true, _ :: s => outside true s

theorem outside_cons {c : Char} (noQuote : c ≠ '"') (s : List Char) :
    outside false (c :: s) = c :: outside false s := by
  rw [outside]
  exact noQuote

theorem inside_cons {c : Char} (noQuote : c ≠ '"') (noSlash : c ≠ '\\') (s : List Char) :
    outside true (c :: s) = outside true s := by
  rw [outside]
  · exact fun _ _ same _ => noSlash same
  · exact noQuote

theorem ne_of_isHex {c d : Char} (hex : isHex c = true) (other : isHex d = false) : c ≠ d := by
  rintro rfl
  rw [hex] at other
  cases other

theorem outside_body {body : List Char} (wellFormed : Body body) (rest : List Char) :
    outside true (body ++ '"' :: rest) = outside false rest := by
  induction wellFormed with
  | nil => rfl
  | plain _ noQuote noSlash _ ih =>
      rw [List.cons_append, inside_cons noQuote noSlash, ih]
  | escape _ _ ih => exact ih
  | unicode a b c d _ ih =>
      have skip {x : Char} (hex : isHex x = true) (s : List Char) :
          outside true (x :: s) = outside true s :=
        inside_cons (ne_of_isHex hex (by decide)) (ne_of_isHex hex (by decide)) s
      simp only [List.cons_append]
      rw [outside, skip a, skip b, skip c, skip d, ih]

/-- An `n` is followed by a `u`. -/
def Calm (s : List Char) : Prop :=
  s.IsChain (fun a b => a = 'n' → b = 'u') ∧ s.getLast? ≠ some 'n'

instance (s : List Char) : Decidable (Calm s) :=
  inferInstanceAs (Decidable (_ ∧ _))

theorem Calm.append {s t : List Char} (first : Calm s) (second : Calm t) : Calm (s ++ t) := by
  refine ⟨List.isChain_append.2 ⟨first.1, second.1, ?_⟩, ?_⟩
  · rintro a last b - rfl
    exact absurd last first.2
  · rw [List.getLast?_append]
    intro last
    rcases Option.or_eq_some_iff.1 last with here | ⟨-, before⟩
    · exact second.2 here
    · exact first.2 before

theorem calm_of_notMem {s : List Char} (absent : 'n' ∉ s) : Calm s := by
  refine ⟨?_, fun last => absent (List.mem_of_getLast? last)⟩
  rw [List.isChain_iff_forall_rel_of_append_cons_cons]
  rintro a b before behind rfl rfl
  exact absurd (by simp) absent

/-- Strings end where they begin, and what is outside of them is calm. -/
structure Regular (s : List Char) : Prop where
  splits : ∀ rest, outside false (s ++ rest) = outside false s ++ outside false rest
  calm   : Calm (outside false s)

theorem Regular.append {s t : List Char} (first : Regular s) (second : Regular t) :
    Regular (s ++ t) where
  splits := by
    intro rest
    rw [List.append_assoc, first.splits, second.splits, first.splits, List.append_assoc]
  calm := by
    rw [first.splits]
    exact first.calm.append second.calm

theorem outside_plain {s : List Char} (plain : '"' ∉ s) (rest : List Char) :
    outside false (s ++ rest) = s ++ outside false rest := by
  induction s with
  | nil => rfl
  | cons c s ih =>
      obtain ⟨noQuote, plain⟩ := not_or.1 (List.mem_cons.not.1 plain)
      rw [List.cons_append, outside_cons (Ne.symm noQuote), ih plain, List.cons_append]

theorem regular_plain {s : List Char} (plain : '"' ∉ s) (calm : Calm s) : Regular s := by
  have whole := outside_plain plain []
  rw [List.append_nil, outside, List.append_nil] at whole
  refine ⟨fun rest => ?_, ?_⟩
  · rw [outside_plain plain, whole]
  · rw [whole]
    exact calm

theorem regular_quoted {body : List Char} (wellFormed : Body body) : Regular (quoted body) := by
  have skipped (rest : List Char) : outside false (quoted body ++ rest) = outside false rest := by
    have shape : quoted body ++ rest = '"' :: (body ++ '"' :: rest) := by simp [quoted]
    rw [shape, outside, outside_body wellFormed]
  have empty : outside false (quoted body) = [] := by
    have alone := skipped []
    rwa [List.append_nil] at alone
  refine ⟨fun rest => ?_, ?_⟩
  · rw [skipped, empty, List.nil_append]
  · rw [empty]
    decide

theorem regular_absent {s : List Char} (noQuote : '"' ∉ s) (noLetter : 'n' ∉ s) : Regular s :=
  regular_plain noQuote (calm_of_notMem noLetter)

theorem derives_regular {p : Part} {s : List Char} (derives : Derives p s) : Regular s := by
  have white {s : List Char} (white : White s) : Regular s := by
    apply regular_absent <;> exact fun member => absurd (white _ member) (by decide)
  have bracket {c d : Char} {s : List Char} (opening : Regular [c]) (inside : Regular s)
      (closing : Regular [d]) : Regular (c :: s ++ [d]) := (opening.append inside).append closing
  have comma {s t : List Char} (first : Regular s) (second : Regular t) : Regular (s ++ ',' :: t) :=
    first.append ((regular_absent (s := [',']) (by decide) (by decide)).append second)
  induction derives with
  | null => exact regular_plain (by decide) (by decide)
  | bool b => cases b <;> exact regular_absent (by decide) (by decide)
  | number number =>
      have absent {c : Char} (other : isNumeral c = false) : c ∉ _ := fun member => by
        have numeral := number_isNumeral number c member
        rw [other] at numeral
        cases numeral
      exact regular_absent (absent (by decide)) (absent (by decide))
  | string body => exact regular_quoted body
  | emptyArray space =>
      exact bracket (regular_absent (by decide) (by decide)) (white space)
        (regular_absent (by decide) (by decide))
  | array _ ih =>
      exact bracket (regular_absent (by decide) (by decide)) ih
        (regular_absent (by decide) (by decide))
  | emptyObject space =>
      exact bracket (regular_absent (by decide) (by decide)) (white space)
        (regular_absent (by decide) (by decide))
  | object _ ih =>
      exact bracket (regular_absent (by decide) (by decide)) ih
        (regular_absent (by decide) (by decide))
  | item before _ after ih => exact ((white before).append ih).append (white after)
  | lastElement _ ih => exact ih
  | element _ _ ih ih' => exact comma ih ih'
  | pair before body between _ ih =>
      have colon : Regular [':'] := regular_absent (by decide) (by decide)
      have key := ((white before).append (regular_quoted body)).append (white between)
      exact key.append (colon.append ih)
  | lastMember _ ih => exact ih
  | member _ _ ih ih' => exact comma ih ih'

/-- A text that is not calm outside of its strings is none. -/
theorem not_text_of_outside {s : List Char} (restless : ¬Calm (outside false s)) (v : Tree) :
    ¬Text s v := fun derives => restless (derives_regular derives).calm

/-- It is enough that its end is not. -/
theorem not_text_append {s t : List Char} (before : Regular s) (noQuote : '"' ∉ t)
    (restless : ¬t.IsChain fun a b => a = 'n' → b = 'u') (v : Tree) : ¬Text (s ++ t) v := by
  refine not_text_of_outside (fun calm => restless ?_) v
  have bare : outside false t = t := by
    have plain := outside_plain noQuote []
    rwa [List.append_nil, outside, List.append_nil] at plain
  rw [before.splits, bare] at calm
  exact (List.isChain_append.1 calm.1).2.1

theorem IsField.regular {s : List Char} (field : IsField s) : Regular s := by
  obtain ⟨key, v, derives⟩ := field
  exact derives_regular derives

/-! ## Printed characters -/

theorem zero_notMem_body {body : List Char} (wellFormed : Body body) : '\x00' ∉ body := by
  induction wellFormed with
  | nil => exact List.not_mem_nil
  | plain printed _ _ _ ih =>
      refine List.not_mem_cons_of_ne_of_not_mem ?_ ih
      rintro rfl
      exact absurd printed (by decide)
  | escape isEscape _ ih =>
      refine List.not_mem_cons_of_ne_of_not_mem (by decide)
        (List.not_mem_cons_of_ne_of_not_mem ?_ ih)
      rintro rfl
      exact absurd isEscape (by decide)
  | unicode a b c d _ ih =>
      have other {x : Char} (hex : isHex x = true) : '\x00' ≠ x :=
        (ne_of_isHex hex (by decide)).symm
      simp [other a, other b, other c, other d, ih]

/-- **No text has a zero in it.** -/
theorem zero_notMem {p : Part} {s : List Char} (derives : Derives p s) : '\x00' ∉ s := by
  have white {s : List Char} (white : White s) : '\x00' ∉ s := fun member => by
    cases white _ member
  have quoted {body : List Char} (wellFormed : Body body) : '\x00' ∉ quoted body := by
    simp [quoted, zero_notMem_body wellFormed]
  induction derives with
  | null => decide
  | bool b => cases b <;> decide
  | number number => exact fun member => by cases number_isNumeral number _ member
  | string body => exact quoted body
  | emptyArray space | emptyObject space => simp [white space]
  | array _ ih | object _ ih => simp [ih]
  | item before _ after ih => simp [white before, ih, white after]
  | lastElement _ ih | lastMember _ ih => exact ih
  | element _ _ ih ih' | member _ _ ih ih' => simp [ih, ih']
  | pair before body between _ ih => simp [white before, quoted body, white between, ih]

end Clumsy.Theory.Json
