/-
# Text.Json -- json.cpp: the reader of the control API

A recursive descent over the text: every function returns the value and what is left of
the text.  The reader is more liberal than JSON, and stops at `MAX_DEPTH`.

On a JSON text it reads the value the text stands for, unless it is nested too deeply
(`jsonParse_text`).
-/
import Clumsy.Text.Numeral

namespace Clumsy.Text

open Clumsy.Theory
open Clumsy.Theory.Json (Tree Derives Part White Body Text isWhite quoted Digits Whole Fraction
  Exponent Number)

set_option autoImplicit false

/-! ## Values -/

inductive JsonValue where
  | null
  | bool (b : Bool)
  | number (x : Fp)
  | string (s : List Char)
  | array (arr : List JsonValue)
  | object (obj : List (List Char × JsonValue))

def MAX_DEPTH : Nat := 32

/-- `skipWs`. -/
def skipWs (s : List Char) : List Char := s.dropWhile isWhite

/-- What a character behind a backslash stands for. -/
def unescapeChar (c : Char) : Char :=
  if c = 'b' then '\x08'
  else if c = 'f' then '\x0c'
  else if c = 'n' then '\n'
  else if c = 'r' then '\r'
  else if c = 't' then '\t'
  else c

/-- The loop of `parseString` behind the opening quote; the next `n` characters belong to
a `\uXXXX`, which passes through. -/
def stringLoop : Nat → List Char → Option (List Char × List Char)
  | _, [] => none
  | n + 1, c :: s => (stringLoop n s).map fun (out, rest) => (c :: out, rest)
  | 0, '"' :: s => some ([], s)
  | 0, '\\' :: 'u' :: s => (stringLoop 4 s).map fun (out, rest) => ('\\' :: 'u' :: out, rest)
  | 0, '\\' :: c :: s => (stringLoop 0 s).map fun (out, rest) => (unescapeChar c :: out, rest)
  | 0, '\\' :: [] => none
  | 0, c :: s => (stringLoop 0 s).map fun (out, rest) => (c :: out, rest)

def parseString : List Char → Option (List Char × List Char)
  | '"' :: s => stringLoop 0 s
  | _ => none

def parseNumber (s : List Char) : Option (JsonValue × List Char) :=
  (strtod s).map fun (x, rest) => (.number x, rest)

/-- A key, a colon and a value. -/
def parsePair (parseValue : List Char → Option (JsonValue × List Char)) (s : List Char) :
    Option ((List Char × JsonValue) × List Char) :=
  match parseString (skipWs s) with
  | none => none
  | some (key, s) =>
      match skipWs s with
      | ':' :: s => (parseValue s).map fun (v, rest) => ((key, v), rest)
      | _ => none

/-- Behind an opening bracket: nothing, or the loop over the items. -/
def parseItems {β : Type} (close : Char) (loop : List Char → Option (List β × List Char))
    (s : List Char) : Option (List β × List Char) :=
  match skipWs s with
  | [] => loop []
  | c :: rest => if c = close then some ([], rest) else loop (c :: rest)

mutual

/-- `parseValue` at a depth.  Every call goes behind a character, so as many calls as there
are characters, and one more, are enough. -/
def parseValue : Nat → Nat → List Char → Option (JsonValue × List Char)
  | 0, _, _ => none
  | fuel + 1, depth, s =>
      if depth ≥ MAX_DEPTH then none
      else
        match skipWs s with
        | [] => none
        | '{' :: s =>
            (parseItems '}' (parseMembers fuel (depth + 1)) s).map fun (obj, rest) =>
              (.object obj, rest)
        | '[' :: s =>
            (parseItems ']' (parseElements fuel (depth + 1)) s).map fun (arr, rest) =>
              (.array arr, rest)
        | '"' :: s => (stringLoop 0 s).map fun (out, rest) => (.string out, rest)
        | 't' :: s => if s.take 3 = "rue".toList then some (.bool true, s.drop 3) else none
        | 'f' :: s => if s.take 4 = "alse".toList then some (.bool false, s.drop 4) else none
        | 'n' :: s => if s.take 3 = "ull".toList then some (.null, s.drop 3) else none
        | s => parseNumber s

/-- The loop of `parseArray`. -/
def parseElements : Nat → Nat → List Char → Option (List JsonValue × List Char)
  | 0, _, _ => none
  | fuel + 1, depth, s =>
      match parseValue fuel depth s with
      | none => none
      | some (item, s) =>
          match skipWs s with
          | ',' :: s =>
              (parseElements fuel depth s).map fun (arr, rest) => (item :: arr, rest)
          | ']' :: rest => some ([item], rest)
          | _ => none

/-- The loop of `parseObject`. -/
def parseMembers : Nat → Nat → List Char → Option (List (List Char × JsonValue) × List Char)
  | 0, _, _ => none
  | fuel + 1, depth, s =>
      match parsePair (parseValue fuel depth) s with
      | none => none
      | some (pair, s) =>
          match skipWs s with
          | ',' :: s =>
              (parseMembers fuel depth s).map fun (obj, rest) => (pair :: obj, rest)
          | '}' :: rest => some ([pair], rest)
          | _ => none

end

/-- `jsonParse`: content behind the value is tolerated. -/
def jsonParse (text : List Char) : Option JsonValue :=
  (parseValue (text.length + 1) 0 text).map Prod.fst

/-! ## What a text means to the reader -/

/-- The string of a body. -/
def unescape : List Char → List Char
  | [] => []
  | '\\' :: 'u' :: s => '\\' :: 'u' :: unescape s
  | '\\' :: c :: s => unescapeChar c :: unescape s
  | c :: s => c :: unescape s

mutual

def meaning : Tree → JsonValue
  | .null => .null
  | .bool b => .bool b
  | .number text => .number (atof text)
  | .string body => .string (unescape body)
  | .array items => .array (meanings items)
  | .object members => .object (memberMeanings members)

def meanings : List Tree → List JsonValue
  | [] => []
  | v :: vs => meaning v :: meanings vs

def memberMeanings : List (List Char × Tree) → List (List Char × JsonValue)
  | [] => []
  | (key, v) :: ms => (unescape key, meaning v) :: memberMeanings ms

end

mutual

/-- How deeply a value is nested; a scalar counts one. -/
def height : Tree → Nat
  | .null => 1
  | .bool _ => 1
  | .number _ => 1
  | .string _ => 1
  | .array items => heights items + 1
  | .object members => memberHeights members + 1

def heights : List Tree → Nat
  | [] => 0
  | v :: vs => max (height v) (heights vs)

def memberHeights : List (List Char × Tree) → Nat
  | [] => 0
  | (_, v) :: ms => max (height v) (memberHeights ms)

end

/-! ## Strings -/

theorem stringLoop_plain {c : Char} {s : List Char} (quote : c ≠ '"') (slash : c ≠ '\\') :
    stringLoop 0 (c :: s) = (stringLoop 0 s).map fun (out, rest) => (c :: out, rest) := by
  rw [stringLoop]
  · exact quote
  · intro t same
    exact absurd same slash
  · intro d t same
    exact absurd same slash
  · intro same
    exact absurd same slash

theorem unescape_plain {c : Char} {s : List Char} (slash : c ≠ '\\') :
    unescape (c :: s) = c :: unescape s := by
  rw [unescape]
  · intro t same
    exact absurd same slash
  · intro d t same
    exact absurd same slash

theorem stringLoop_escape {c : Char} {s : List Char} (other : c ≠ 'u') :
    stringLoop 0 ('\\' :: c :: s) =
      (stringLoop 0 s).map fun (out, rest) => (unescapeChar c :: out, rest) := by
  rw [stringLoop]
  exact other

theorem unescape_escape {c : Char} {s : List Char} (other : c ≠ 'u') :
    unescape ('\\' :: c :: s) = unescapeChar c :: unescape s := by
  rw [unescape]
  exact other

theorem hex_ne {c : Char} (hex : Json.isHex c = true) : c ≠ '\\' := by
  rintro rfl
  simp [Json.isHex] at hex

/-- **A string is read up to its closing quote.** -/
theorem stringLoop_body {body : List Char} (wellFormed : Body body) (rest : List Char) :
    stringLoop 0 (body ++ '"' :: rest) = some (unescape body, rest) := by
  induction wellFormed with
  | nil => rfl
  | plain _ quote slash _ ih =>
      rw [List.cons_append, stringLoop_plain quote slash, ih, unescape_plain slash]
      rfl
  | @escape c s isEscape _ ih =>
      have other : c ≠ 'u' := by
        rintro rfl
        simp [Json.escapes] at isEscape
      rw [List.cons_append, List.cons_append, stringLoop_escape other, ih, unescape_escape other]
      rfl
  | unicode hexA hexB hexC hexD _ ih =>
      simp only [List.cons_append, stringLoop, ih, Option.map_some]
      rw [unescape, unescape_plain (hex_ne hexA), unescape_plain (hex_ne hexB),
        unescape_plain (hex_ne hexC), unescape_plain (hex_ne hexD)]

/-! ## Values -/

theorem skipWs_white {s rest : List Char} (white : White s) : skipWs (s ++ rest) = skipWs rest :=
  List.dropWhile_append_of_pos white

theorem skipWs_cons {c : Char} {s : List Char} (solid : isWhite c = false) :
    skipWs (c :: s) = c :: s :=
  List.dropWhile_cons_of_neg (by simp [solid])

theorem skipWs_skipWs (s : List Char) : skipWs (skipWs s) = skipWs s :=
  List.dropWhile_idempotent ..

theorem parseValue_skipWs (fuel depth : Nat) (s : List Char) :
    parseValue fuel depth (skipWs s) = parseValue fuel depth s := by
  cases fuel with
  | zero => rfl
  | succ fuel => rw [parseValue, parseValue, skipWs_skipWs]

theorem parseElements_skipWs (fuel depth : Nat) (s : List Char) :
    parseElements fuel depth (skipWs s) = parseElements fuel depth s := by
  cases fuel with
  | zero => rfl
  | succ fuel => rw [parseElements, parseElements, parseValue_skipWs]

theorem parseMembers_skipWs (fuel depth : Nat) (s : List Char) :
    parseMembers fuel depth (skipWs s) = parseMembers fuel depth s := by
  cases fuel with
  | zero => rfl
  | succ fuel => rw [parseMembers, parseMembers, parsePair, parsePair, skipWs_skipWs]

theorem number_head {s : List Char} (number : Number s) :
    ∃ c t, s = c :: t ∧ (c.isDigit = true ∨ c = '-') := by
  cases number with
  | @parts minus w f e isMinus whole _ _ =>
      obtain ⟨some, digits⟩ := whole_digits whole
      obtain ⟨c, t, rfl⟩ := List.exists_cons_of_ne_nil some
      rcases isMinus with rfl | rfl
      · exact ⟨c, t ++ f ++ e, by simp, .inl (digits c List.mem_cons_self)⟩
      · exact ⟨'-', c :: t ++ f ++ e, by simp, .inr rfl⟩

/-- A text that starts like a value or a key, white space aside. -/
def Starts (s : List Char) : Prop :=
  ∃ u c t, s = u ++ c :: t ∧ White u ∧ isWhite c = false ∧ c ≠ ']' ∧ c ≠ '}'

theorem white_nil : White [] := fun _ member => absurd member List.not_mem_nil

theorem starts_cons {c : Char} {s : List Char} (solid : isWhite c = false) (bracket : c ≠ ']')
    (brace : c ≠ '}') : Starts (c :: s) :=
  ⟨[], c, s, rfl, white_nil, solid, bracket, brace⟩

theorem Starts.append {s : List Char} (starts : Starts s) (t : List Char) : Starts (s ++ t) := by
  obtain ⟨u, c, r, rfl, white, solid, bracket, brace⟩ := starts
  exact ⟨u, c, r ++ t, by simp, white, solid, bracket, brace⟩

theorem Starts.white {s u : List Char} (starts : Starts s) (white : White u) :
    Starts (u ++ s) := by
  obtain ⟨v, c, r, rfl, white', solid, bracket, brace⟩ := starts
  refine ⟨u ++ v, c, r, by simp, ?_, solid, bracket, brace⟩
  intro d member
  rcases List.mem_append.1 member with front | back
  · exact white d front
  · exact white' d back

/-- White space before a word that is not white. -/
theorem Starts.head {s : List Char} (starts : Starts s) :
    ∃ c t, skipWs s = c :: t ∧ c ≠ ']' ∧ c ≠ '}' := by
  obtain ⟨u, c, r, rfl, white, solid, bracket, brace⟩ := starts
  exact ⟨c, r, by rw [skipWs_white white, skipWs_cons solid], bracket, brace⟩

theorem derives_starts {p : Part} {s : List Char} (derives : Derives p s) : Starts s := by
  induction derives with
  | null => exact starts_cons rfl (by decide) (by decide)
  | bool b => cases b <;> exact starts_cons rfl (by decide) (by decide)
  | number number =>
      obtain ⟨c, t, rfl, digit | rfl⟩ := number_head number
      · have solid : isWhite c = false := by
          simp only [isWhite, Bool.or_eq_false_iff, beq_eq_false_iff_ne]
          refine ⟨⟨⟨?_, ?_⟩, ?_⟩, ?_⟩ <;> exact ne_of_digit digit rfl
        exact starts_cons solid (ne_of_digit digit rfl) (ne_of_digit digit rfl)
      · exact starts_cons rfl (by decide) (by decide)
  | string _ | emptyArray _ | array _ | emptyObject _ | object _ =>
      exact starts_cons rfl (by decide) (by decide)
  | item white _ _ ih =>
      rw [List.append_assoc]
      exact (ih.append _).white white
  | lastElement _ ih | lastMember _ ih => exact ih
  | element _ _ ih _ | member _ _ ih _ => exact ih.append _
  | pair white _ _ _ _ =>
      rw [List.append_assoc, List.append_assoc]
      exact (starts_cons rfl (by decide) (by decide)).white white

/-- What the reader makes of a part of a text, whatever follows it. -/
def Reads : Part → List Char → Prop
  | .value v, s => ∀ fuel depth rest, s.length < fuel → Follows rest →
      parseValue fuel depth (s ++ rest) =
        if depth + height v ≤ MAX_DEPTH then some (meaning v, rest) else none
  | .item v, s => ∃ u, White u ∧ ∀ fuel depth rest, s.length < fuel → Follows rest →
      parseValue fuel depth (s ++ rest) =
        if depth + height v ≤ MAX_DEPTH then some (meaning v, u ++ rest) else none
  | .elements vs, s => ∀ fuel depth rest, s.length + 1 < fuel →
      parseElements fuel depth (s ++ ']' :: rest) =
        if depth + heights vs ≤ MAX_DEPTH then some (meanings vs, rest) else none
  | .pair key v, s => ∃ u, White u ∧ ∀ fuel depth rest, s.length < fuel → Follows rest →
      parsePair (parseValue fuel depth) (s ++ rest) =
        if depth + height v ≤ MAX_DEPTH then some ((unescape key, meaning v), u ++ rest) else none
  | .members ms, s => ∀ fuel depth rest, s.length + 1 < fuel →
      parseMembers fuel depth (s ++ '}' :: rest) =
        if depth + memberHeights ms ≤ MAX_DEPTH then some (memberMeanings ms, rest) else none

/-- The same of a value that ends by itself: anything may follow. -/
def ReadsAny (v : Tree) (s : List Char) : Prop :=
  ∀ fuel depth rest, s.length < fuel → parseValue fuel depth (s ++ rest) =
    if depth + height v ≤ MAX_DEPTH then some (meaning v, rest) else none

theorem ReadsAny.reads {v : Tree} {s : List Char} (reads : ReadsAny v s) : Reads (.value v) s := by
  intro fuel depth rest enough _
  exact reads fuel depth rest enough

theorem derives_length_pos {p : Part} {s : List Char} (derives : Derives p s) : 0 < s.length := by
  obtain ⟨u, c, t, rfl, -⟩ := derives_starts derives
  rw [List.length_append, List.length_cons]
  omega

section Reads

variable {fuel depth : Nat} {s rest : List Char}

theorem parseValue_number {c : Char} (first : c.isDigit = true ∨ c = '-') :
    parseValue (fuel + 1) depth (c :: s) =
      if depth ≥ MAX_DEPTH then none else parseNumber (c :: s) := by
  have other (d : Char) (word : d.isDigit = false) (minus : d ≠ '-') : c ≠ d := by
    rintro rfl
    rcases first with digit | rfl
    · rw [digit] at word
      cases word
    · exact minus rfl
  have solid : isWhite c = false := by
    simp only [isWhite, Bool.or_eq_false_iff, beq_eq_false_iff_ne]
    refine ⟨⟨⟨?_, ?_⟩, ?_⟩, ?_⟩ <;> exact other _ rfl (by decide)
  rw [parseValue, skipWs_cons solid]
  congr 1
  split
  next same => cases same
  next same => cases same; exact absurd rfl (other '{' rfl (by decide))
  next same => cases same; exact absurd rfl (other '[' rfl (by decide))
  next same => cases same; exact absurd rfl (other '"' rfl (by decide))
  next same => cases same; exact absurd rfl (other 't' rfl (by decide))
  next same => cases same; exact absurd rfl (other 'f' rfl (by decide))
  next same => cases same; exact absurd rfl (other 'n' rfl (by decide))
  next => rfl

theorem parseValue_string : parseValue (fuel + 1) depth ('"' :: s) =
    if depth ≥ MAX_DEPTH then none
    else (stringLoop 0 s).map fun (out, rest) => (.string out, rest) := by
  rw [parseValue, skipWs_cons rfl]
  rfl

theorem parseItems_empty {β : Type} {close : Char} {loop : List Char → Option (List β × List Char)}
    (white : White s) (solid : isWhite close = false) :
    parseItems close loop (s ++ close :: rest) = some ([], rest) := by
  rw [parseItems, skipWs_white white, skipWs_cons solid]
  exact if_pos rfl

theorem parseItems_starts {β : Type} {close : Char}
    {loop : List Char → Option (List β × List Char)} (skips : ∀ s, loop (skipWs s) = loop s)
    (starts : Starts s) (isClose : close = ']' ∨ close = '}') :
    parseItems close loop s = loop s := by
  obtain ⟨c, t, shape, bracket, brace⟩ := starts.head
  have other : c ≠ close := by
    rcases isClose with rfl | rfl
    · exact bracket
    · exact brace
  rw [parseItems, shape]
  show (if c = close then _ else _) = _
  rw [if_neg other, ← shape, skips]

theorem parseValue_object : parseValue (fuel + 1) depth ('{' :: s) =
    if depth ≥ MAX_DEPTH then none
    else (parseItems '}' (parseMembers fuel (depth + 1)) s).map fun (obj, rest) =>
      (.object obj, rest) := by
  rw [parseValue, skipWs_cons rfl]
  rfl

theorem parseValue_array : parseValue (fuel + 1) depth ('[' :: s) =
    if depth ≥ MAX_DEPTH then none
    else (parseItems ']' (parseElements fuel (depth + 1)) s).map fun (arr, rest) =>
      (.array arr, rest) := by
  rw [parseValue, skipWs_cons rfl]
  rfl

/-- A scalar needs one level. -/
theorem fits_one {α : Type} (x : α) :
    (if depth ≥ MAX_DEPTH then none else some x) =
      if depth + 1 ≤ MAX_DEPTH then some x else none := by
  by_cases deep : depth ≥ MAX_DEPTH
  · rw [if_pos deep, if_neg (by omega)]
  · rw [if_neg deep, if_pos (by omega)]

/-- What holds others needs one level more than they. -/
theorem fits_succ {α β : Type} (n : Nat) (x : α) (f : α → β) :
    (if depth ≥ MAX_DEPTH then none
      else (if depth + 1 + n ≤ MAX_DEPTH then some x else none).map f) =
      if depth + (n + 1) ≤ MAX_DEPTH then some (f x) else none := by
  have order : depth + (n + 1) = depth + 1 + n := by omega
  rw [order]
  by_cases fits : depth + 1 + n ≤ MAX_DEPTH
  · rw [if_neg (by omega), if_pos fits, if_pos fits, Option.map_some]
  · rw [if_neg fits, if_neg fits, Option.map_none, ite_self]

theorem reads_number (number : Number s) : Reads (.value (.number s)) s := by
  intro fuel depth rest enough follows
  obtain ⟨fuel, rfl⟩ : ∃ n, fuel = n + 1 := ⟨fuel - 1, by omega⟩
  obtain ⟨c, t, shape, first⟩ := number_head number
  have read := strtod_number number follows
  rw [shape, List.cons_append, parseValue_number first, parseNumber, ← List.cons_append, ← shape,
    read]
  exact fits_one _

theorem reads_null : ReadsAny .null "null".toList := by
  intro fuel depth rest enough
  obtain ⟨fuel, rfl⟩ : ∃ n, fuel = n + 1 := ⟨fuel - 1, by omega⟩
  exact fits_one _

theorem reads_bool (b : Bool) :
    ReadsAny (.bool b) (if b then "true".toList else "false".toList) := by
  intro fuel depth rest enough
  obtain ⟨fuel, rfl⟩ : ∃ n, fuel = n + 1 := ⟨fuel - 1, by omega⟩
  cases b <;> exact fits_one _

theorem reads_string (body : Body s) : ReadsAny (.string s) (quoted s) := by
  intro fuel depth rest enough
  obtain ⟨fuel, rfl⟩ : ∃ n, fuel = n + 1 := ⟨fuel - 1, by omega⟩
  have read := stringLoop_body body rest
  rw [show quoted s ++ rest = '"' :: (s ++ '"' :: rest) by simp [quoted], parseValue_string, read]
  exact fits_one _

theorem reads_item {v : Tree} {t u : List Char} (before : White s) (value : Reads (.value v) t)
    (after : White u) : Reads (.item v) (s ++ t ++ u) := by
  refine ⟨u, after, fun fuel depth rest enough follows => ?_⟩
  rw [List.append_assoc, List.append_assoc, ← parseValue_skipWs, skipWs_white before,
    parseValue_skipWs]
  simp only [List.length_append] at enough
  exact value fuel depth (u ++ rest) (by omega) (follows_white after follows)

/-- The value was read up to `u` and what follows; `rest` is not white. -/
theorem skipWs_behind {c : Char} {u : List Char} (white : White u) (solid : isWhite c = false) :
    skipWs (u ++ c :: rest) = c :: rest := by
  rw [skipWs_white white, skipWs_cons solid]

/-- What both loops do once an item was read. -/
def behindItem {β : Type} (close : Char) (loop : List Char → Option (List β × List Char)) :
    Option (β × List Char) → Option (List β × List Char)
  | none => none
  | some (item, s) =>
      match skipWs s with
      | [] => none
      | c :: s =>
          if c = ',' then (loop s).map fun (items, rest) => (item :: items, rest)
          else if c = close then some ([item], s)
          else none

theorem parseElements_succ : parseElements (fuel + 1) depth s =
    behindItem ']' (parseElements fuel depth) (parseValue fuel depth s) := by
  rw [parseElements]
  rcases parseValue fuel depth s with _ | ⟨item, s⟩
  · rfl
  · simp only [behindItem]
    generalize skipWs s = t
    cases t with
    | nil => rfl
    | cons c t =>
        by_cases comma : c = ','
        · subst comma
          rfl
        · by_cases closes : c = ']'
          · subst closes
            rfl
          · simp [comma, closes]

theorem parseMembers_succ : parseMembers (fuel + 1) depth s =
    behindItem '}' (parseMembers fuel depth) (parsePair (parseValue fuel depth) s) := by
  rw [parseMembers]
  rcases parsePair (parseValue fuel depth) s with _ | ⟨item, s⟩
  · rfl
  · simp only [behindItem]
    generalize skipWs s = t
    cases t with
    | nil => rfl
    | cons c t =>
        by_cases comma : c = ','
        · subst comma
          rfl
        · by_cases closes : c = '}'
          · subst closes
            rfl
          · simp [comma, closes]

section Loop

variable {β : Type} {close : Char} {loop : List Char → Option (List β × List Char)} {x : β}
  {u : List Char} {h : Nat}

theorem behindItem_last (white : White u) (solid : isWhite close = false) (other : close ≠ ',') :
    behindItem close loop (if depth + h ≤ MAX_DEPTH then some (x, u ++ close :: rest) else none) =
      if depth + h ≤ MAX_DEPTH then some ([x], rest) else none := by
  by_cases fits : depth + h ≤ MAX_DEPTH
  · rw [if_pos fits, if_pos fits, behindItem, skipWs_behind white solid]
    dsimp only
    rw [if_neg other, if_pos rfl]
  · rw [if_neg fits, if_neg fits, behindItem]

/-- The deeper one of the item and the others has to fit. -/
theorem behindItem_more {xs : List β} {t : List Char} {hs : Nat} (white : White u)
    (others : loop t = if depth + hs ≤ MAX_DEPTH then some (xs, rest) else none) :
    behindItem close loop (if depth + h ≤ MAX_DEPTH then some (x, u ++ ',' :: t) else none) =
      if depth + max h hs ≤ MAX_DEPTH then some (x :: xs, rest) else none := by
  by_cases fits : depth + h ≤ MAX_DEPTH
  · rw [if_pos fits, behindItem, skipWs_behind white rfl]
    dsimp only
    rw [if_pos rfl, others]
    by_cases fit : depth + hs ≤ MAX_DEPTH
    · rw [if_pos fit, if_pos (by omega)]
      rfl
    · rw [if_neg fit, if_neg (by omega)]
      rfl
  · rw [if_neg fits, if_neg (by omega), behindItem]

end Loop

theorem reads_lastElement {v : Tree} (item : Reads (.item v) s) : Reads (.elements [v]) s := by
  intro fuel depth rest enough
  obtain ⟨u, white, read⟩ := item
  obtain ⟨fuel, rfl⟩ : ∃ n, fuel = n + 1 := ⟨fuel - 1, by omega⟩
  have single : heights [v] = height v := Nat.max_zero _
  rw [parseElements_succ, read fuel depth (']' :: rest) (by omega) (follows_cons rfl), single]
  exact behindItem_last white rfl (by decide)

theorem reads_element {v : Tree} {vs : List Tree} {t : List Char} (item : Reads (.item v) s)
    (some : 0 < s.length) (others : Reads (.elements vs) t) :
    Reads (.elements (v :: vs)) (s ++ ',' :: t) := by
  intro fuel depth rest enough
  obtain ⟨u, white, read⟩ := item
  obtain ⟨fuel, rfl⟩ : ∃ n, fuel = n + 1 := ⟨fuel - 1, by omega⟩
  rw [List.length_append, List.length_cons] at enough
  rw [List.append_assoc, List.cons_append, parseElements_succ,
    read fuel depth (',' :: (t ++ ']' :: rest)) (by omega) (follows_cons rfl)]
  exact behindItem_more white (others fuel depth rest (by omega))

theorem reads_pair {key : List Char} {v : Tree} {t u : List Char} (before : White s)
    (body : Body key) (between : White t) (item : Reads (.item v) u) :
    Reads (.pair key v) (s ++ quoted key ++ t ++ ':' :: u) := by
  obtain ⟨after, white, read⟩ := item
  refine ⟨after, white, fun fuel depth rest enough follows => ?_⟩
  have shape : s ++ quoted key ++ t ++ ':' :: u ++ rest =
      s ++ '"' :: (key ++ '"' :: (t ++ ':' :: (u ++ rest))) := by
    simp [quoted]
  have keyRead := stringLoop_body body (t ++ ':' :: (u ++ rest))
  rw [shape, parsePair, skipWs_behind before rfl]
  simp only [parseString, keyRead, skipWs_behind between (rfl : isWhite ':' = false)]
  simp only [List.length_append, List.length_cons] at enough
  rw [read fuel depth rest (by omega) follows]
  by_cases fits : depth + height v ≤ MAX_DEPTH
  · rw [if_pos fits, if_pos fits]
    rfl
  · rw [if_neg fits, if_neg fits]
    rfl

theorem reads_lastMember {key : List Char} {v : Tree} (pair : Reads (.pair key v) s) :
    Reads (.members [(key, v)]) s := by
  intro fuel depth rest enough
  obtain ⟨u, white, read⟩ := pair
  obtain ⟨fuel, rfl⟩ : ∃ n, fuel = n + 1 := ⟨fuel - 1, by omega⟩
  have single : memberHeights [(key, v)] = height v := Nat.max_zero _
  rw [parseMembers_succ, read fuel depth ('}' :: rest) (by omega) (follows_cons rfl), single]
  exact behindItem_last white rfl (by decide)

theorem reads_member {key : List Char} {v : Tree} {ms : List (List Char × Tree)} {t : List Char}
    (pair : Reads (.pair key v) s) (some : 0 < s.length) (others : Reads (.members ms) t) :
    Reads (.members ((key, v) :: ms)) (s ++ ',' :: t) := by
  intro fuel depth rest enough
  obtain ⟨u, white, read⟩ := pair
  obtain ⟨fuel, rfl⟩ : ∃ n, fuel = n + 1 := ⟨fuel - 1, by omega⟩
  rw [List.length_append, List.length_cons] at enough
  rw [List.append_assoc, List.cons_append, parseMembers_succ,
    read fuel depth (',' :: (t ++ '}' :: rest)) (by omega) (follows_cons rfl)]
  exact behindItem_more white (others fuel depth rest (by omega))

theorem reads_emptyArray (white : White s) : ReadsAny (.array []) ('[' :: s ++ [']']) := by
  intro fuel depth rest enough
  obtain ⟨fuel, rfl⟩ : ∃ n, fuel = n + 1 := ⟨fuel - 1, by omega⟩
  rw [List.append_assoc, List.cons_append, List.singleton_append, parseValue_array,
    parseItems_empty white rfl]
  exact fits_one _

theorem reads_emptyObject (white : White s) : ReadsAny (.object []) ('{' :: s ++ ['}']) := by
  intro fuel depth rest enough
  obtain ⟨fuel, rfl⟩ : ∃ n, fuel = n + 1 := ⟨fuel - 1, by omega⟩
  rw [List.append_assoc, List.cons_append, List.singleton_append, parseValue_object,
    parseItems_empty white rfl]
  exact fits_one _

theorem reads_array {vs : List Tree} (starts : Starts s) (items : Reads (.elements vs) s) :
    ReadsAny (.array vs) ('[' :: s ++ [']']) := by
  intro fuel depth rest enough
  obtain ⟨fuel, rfl⟩ : ∃ n, fuel = n + 1 := ⟨fuel - 1, by omega⟩
  simp only [List.length_append, List.length_cons, List.length_nil] at enough
  rw [List.append_assoc, List.cons_append, List.singleton_append, parseValue_array,
    parseItems_starts (parseElements_skipWs fuel (depth + 1)) (starts.append _) (.inl rfl),
    items fuel (depth + 1) rest (by omega)]
  exact fits_succ _ _ _

theorem reads_object {ms : List (List Char × Tree)} (starts : Starts s)
    (items : Reads (.members ms) s) : ReadsAny (.object ms) ('{' :: s ++ ['}']) := by
  intro fuel depth rest enough
  obtain ⟨fuel, rfl⟩ : ∃ n, fuel = n + 1 := ⟨fuel - 1, by omega⟩
  simp only [List.length_append, List.length_cons, List.length_nil] at enough
  rw [List.append_assoc, List.cons_append, List.singleton_append, parseValue_object,
    parseItems_starts (parseMembers_skipWs fuel (depth + 1)) (starts.append _) (.inr rfl),
    items fuel (depth + 1) rest (by omega)]
  exact fits_succ _ _ _

/-- **The reader reads every part of a text as what it stands for.** -/
theorem derives_reads {p : Part} (derives : Derives p s) : Reads p s := by
  induction derives with
  | null => exact reads_null.reads
  | bool b => exact (reads_bool b).reads
  | number number => exact reads_number number
  | string body => exact (reads_string body).reads
  | emptyArray white => exact (reads_emptyArray white).reads
  | array items ih => exact (reads_array (derives_starts items) ih).reads
  | emptyObject white => exact (reads_emptyObject white).reads
  | object members ih => exact (reads_object (derives_starts members) ih).reads
  | item before _ after ih => exact reads_item before ih after
  | lastElement _ ih => exact reads_lastElement ih
  | element item _ ih others => exact reads_element ih (derives_length_pos item) others
  | pair before body between _ ih => exact reads_pair before body between ih
  | lastMember _ ih => exact reads_lastMember ih
  | member pair _ ih others => exact reads_member ih (derives_length_pos pair) others

/-- Only a number needs to know what follows it. -/
theorem derives_readsAny {v : Tree} (derives : Derives (.value v) s)
    (other : ∀ text, v ≠ .number text) : ReadsAny v s := by
  cases derives with
  | null => exact reads_null
  | bool b => exact reads_bool b
  | number _ => exact absurd rfl (other _)
  | string body => exact reads_string body
  | emptyArray white => exact reads_emptyArray white
  | array items => exact reads_array (derives_starts items) (derives_reads items)
  | emptyObject white => exact reads_emptyObject white
  | object members => exact reads_object (derives_starts members) (derives_reads members)

end Reads

/-- A value and content behind it. -/
theorem jsonParse_item {s : List Char} {v : Tree} (derives : Derives (.item v) s)
    {rest : List Char} (follows : Follows rest) :
    jsonParse (s ++ rest) = if height v ≤ MAX_DEPTH then some (meaning v) else none := by
  obtain ⟨u, -, read⟩ := derives_reads derives
  rw [jsonParse, read ((s ++ rest).length + 1) 0 rest (by rw [List.length_append]; omega) follows,
    Nat.zero_add]
  by_cases fits : height v ≤ MAX_DEPTH
  · rw [if_pos fits, if_pos fits]
    rfl
  · rw [if_neg fits, if_neg fits]
    rfl

/-- **A JSON text is read as what it stands for**, unless it is nested too deeply. -/
theorem jsonParse_text {s : List Char} {v : Tree} (text : Text s v) :
    jsonParse s = if height v ≤ MAX_DEPTH then some (meaning v) else none := by
  have read := @jsonParse_item s v text [] (by simp [Follows])
  rwa [List.append_nil] at read

end Clumsy.Text
