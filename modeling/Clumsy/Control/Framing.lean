/-
# Control.Framing -- pipe.cpp: finding the end of a request

A stream socket does not say where a request ends, so the server counts brackets outside
of strings (`jsonLooksComplete`) and reads until the count is back at zero.

On a JSON object the count is back exactly at the closing brace: everything inside an
object leaves a count above zero alone (`derives_neutral`).  So the server stops at the
chunk with that brace, however the stream cuts the text (`framing_exact`).
-/
import Clumsy.Text.Json

namespace Clumsy.Control

open Clumsy.Theory
open Clumsy.Theory.Json (Tree Derives Part White Body Text isWhite quoted Digits Whole Fraction
  Exponent Number isNumeral number_isNumeral)
open Clumsy.Text (jsonParse)

set_option autoImplicit false

def CONTROL_MAX_REQUEST : Nat := 262144
def CONTROL_MAX_DRAIN : Nat := 8 * 1024 * 1024

/-! ## Counting brackets -/

structure Scan where
  depth        : Int
  inStr        : Bool
  esc          : Bool
  sawStructure : Bool
  deriving DecidableEq

def Scan.initial : Scan := { depth := 0, inStr := false, esc := false, sawStructure := false }

/-- One round of the loop; an error is the answer of the function. -/
def Scan.step (s : Scan) (c : Char) : Except Bool Scan :=
  if s.inStr then
    if s.esc then .ok { s with esc := false }
    else if c = '\\' then .ok { s with esc := true }
    else if c = '"' then .ok { s with inStr := false }
    else .ok s
  else if c = '"' then .ok { s with inStr := true, sawStructure := true }
  else if c = '{' ∨ c = '[' then .ok { s with depth := s.depth + 1, sawStructure := true }
  else if c = '}' ∨ c = ']' then
    if s.depth - 1 ≤ 0 then .error s.sawStructure else .ok { s with depth := s.depth - 1 }
  else .ok s

def jsonLooksComplete (text : List Char) : Bool :=
  match text.foldlM Scan.step Scan.initial with
  | .error complete => complete
  | .ok _ => false

/-! ## The read loop -/

structure Received where
  request  : List Char
  drained  : Nat
  tooLarge : Bool
  deriving DecidableEq

/-- What one `recv` adds. -/
def Received.add (chunk : List Char) (r : Received) : Received :=
  let drained := r.drained + chunk.length
  if r.tooLarge then { r with drained }
  else if (r.request ++ chunk).length > CONTROL_MAX_REQUEST then
    { request := [], drained, tooLarge := true }
  else { request := r.request ++ chunk, drained, tooLarge := false }

/-- Whether the loop ends with the chunk that leads from `r` to `next`. -/
def Received.ends (r next : Received) : Bool :=
  (r.tooLarge && next.drained > CONTROL_MAX_DRAIN) ||
    (!next.tooLarge && jsonLooksComplete next.request)

/-- The loop over what the socket delivers until it has nothing more. -/
def readLoop : List (List Char) → Received → Received
  | [], r => r
  | chunk :: chunks, r =>
      if r.ends (r.add chunk) then r.add chunk else readLoop chunks (r.add chunk)

/-- The requests that `controlDispatchJson` is called with for one connection. -/
def dispatched (chunks : List (List Char)) : List (List Char) :=
  let r := readLoop chunks { request := [], drained := 0, tooLarge := false }
  if r.tooLarge then [] else if r.request = [] then [] else [r.request]

/-! ## What leaves the count alone -/

/-- Inside of brackets and outside of strings. -/
def Scan.inside (depth : Int) : Scan :=
  { depth, inStr := false, esc := false, sawStructure := true }

def Scan.inString (depth : Int) : Scan :=
  { depth, inStr := true, esc := false, sawStructure := true }

/-- A piece of text that leaves every count above zero as it was. -/
def Neutral (s : List Char) : Prop :=
  ∀ depth, 1 ≤ depth → s.foldlM Scan.step (Scan.inside depth) = .ok (Scan.inside depth)

/-- Characters that mean nothing outside of strings. -/
def isPlain (c : Char) : Bool :=
  !(c == '"' || c == '{' || c == '[' || c == '}' || c == ']')

theorem foldlM_cons_ok {s t : Scan} {c : Char} {text : List Char} (step : s.step c = .ok t) :
    (c :: text).foldlM Scan.step s = text.foldlM Scan.step t := by
  rw [List.foldlM_cons, step]
  rfl

theorem foldlM_append_ok {s t : Scan} {text rest : List Char}
    (front : text.foldlM Scan.step s = .ok t) :
    (text ++ rest).foldlM Scan.step s = rest.foldlM Scan.step t := by
  rw [List.foldlM_append, front]
  rfl

theorem step_plain {s : Scan} {c : Char} (plain : isPlain c = true) (outside : s.inStr = false) :
    s.step c = .ok s := by
  simp only [isPlain, Bool.not_eq_true', Bool.or_eq_false_iff, beq_eq_false_iff_ne] at plain
  obtain ⟨⟨⟨⟨quote, brace⟩, bracket⟩, close⟩, close'⟩ := plain
  simp [Scan.step, outside, quote, brace, bracket, close, close']

theorem foldlM_plain {s : Scan} {text : List Char} (plain : ∀ c ∈ text, isPlain c = true)
    (outside : s.inStr = false) : text.foldlM Scan.step s = .ok s := by
  induction text with
  | nil => rfl
  | cons c text ih =>
      rw [List.forall_mem_cons] at plain
      rw [foldlM_cons_ok (step_plain plain.1 outside)]
      exact ih plain.2

theorem neutral_plain {s : List Char} (plain : ∀ c ∈ s, isPlain c = true) : Neutral s :=
  fun _ _ => foldlM_plain plain rfl

theorem Neutral.append {s t : List Char} (first : Neutral s) (second : Neutral t) :
    Neutral (s ++ t) := fun depth positive => by
  rw [foldlM_append_ok (first depth positive)]
  exact second depth positive

theorem plain_white {s : List Char} (white : White s) : ∀ c ∈ s, isPlain c = true := by
  intro c member
  have blank := white c member
  simp only [isWhite, Bool.or_eq_true, beq_iff_eq] at blank
  rcases blank with ((rfl | rfl) | rfl) | rfl <;> rfl

theorem plain_number {s : List Char} (number : Number s) : ∀ c ∈ s, isPlain c = true := by
  intro c member
  have numeral := number_isNumeral number c member
  simp only [isNumeral, Bool.or_eq_true] at numeral
  rcases numeral with digit | mark
  · simp only [isPlain, Bool.not_eq_true', Bool.or_eq_false_iff, beq_eq_false_iff_ne]
    refine ⟨⟨⟨⟨?_, ?_⟩, ?_⟩, ?_⟩, ?_⟩ <;> exact Clumsy.Text.ne_of_digit digit rfl
  · have plain : ['-', '+', '.', 'e', 'E'].all isPlain = true := by decide
    exact List.all_eq_true.1 plain c (List.contains_iff_mem.1 mark)

/-- A string body ends where it began: inside of the string. -/
theorem foldlM_body {body : List Char} (wellFormed : Body body) (depth : Int) :
    body.foldlM Scan.step (Scan.inString depth) = .ok (Scan.inString depth) := by
  have plain {c : Char} (quote : c ≠ '"') (slash : c ≠ '\\') :
      (Scan.inString depth).step c = .ok (Scan.inString depth) := by
    simp [Scan.step, Scan.inString, quote, slash]
  have slash : (Scan.inString depth).step '\\' =
      .ok { Scan.inString depth with esc := true } := rfl
  have escaped (c : Char) : Scan.step { Scan.inString depth with esc := true } c =
      .ok (Scan.inString depth) := rfl
  have hex {c : Char} (isHex : Json.isHex c = true) :
      (Scan.inString depth).step c = .ok (Scan.inString depth) := by
    refine plain ?_ (Clumsy.Text.hex_ne isHex)
    rintro rfl
    simp [Json.isHex] at isHex
  induction wellFormed with
  | nil => rfl
  | plain _ quote slash _ ih =>
      rw [foldlM_cons_ok (plain quote slash)]
      exact ih
  | escape _ _ ih =>
      rw [foldlM_cons_ok slash, foldlM_cons_ok (escaped _)]
      exact ih
  | unicode hexA hexB hexC hexD _ ih =>
      rw [foldlM_cons_ok slash, foldlM_cons_ok (escaped _), foldlM_cons_ok (hex hexA),
        foldlM_cons_ok (hex hexB), foldlM_cons_ok (hex hexC), foldlM_cons_ok (hex hexD)]
      exact ih

theorem neutral_quoted {body : List Char} (wellFormed : Body body) : Neutral (quoted body) := by
  intro depth _
  have opening : (Scan.inside depth).step '"' = .ok (Scan.inString depth) := rfl
  have closing : (Scan.inString depth).step '"' = .ok (Scan.inside depth) := rfl
  rw [quoted, List.cons_append, foldlM_cons_ok opening,
    foldlM_append_ok (foldlM_body wellFormed depth), foldlM_cons_ok closing]
  rfl

/-- Brackets around a neutral text. -/
theorem neutral_brackets {s : List Char} {opening closing : Char}
    (isOpening : opening = '{' ∨ opening = '[') (isClosing : closing = '}' ∨ closing = ']')
    (neutral : Neutral s) : Neutral (opening :: s ++ [closing]) := by
  intro depth positive
  have opens : (Scan.inside depth).step opening = .ok (Scan.inside (depth + 1)) := by
    rcases isOpening with rfl | rfl <;> rfl
  have closes : (Scan.inside (depth + 1)).step closing = .ok (Scan.inside depth) := by
    rcases isClosing with rfl | rfl <;>
      simp [Scan.step, Scan.inside, show ¬depth ≤ 0 by omega]
  rw [List.cons_append, foldlM_cons_ok opens, foldlM_append_ok (neutral (depth + 1) (by omega)),
    foldlM_cons_ok closes]
  rfl

/-- **No part of a JSON text moves the count.** -/
theorem derives_neutral {p : Part} {s : List Char} (derives : Derives p s) : Neutral s := by
  induction derives with
  | null => exact neutral_plain (List.all_eq_true.1 rfl)
  | bool b => cases b <;> exact neutral_plain (List.all_eq_true.1 rfl)
  | number number => exact neutral_plain (plain_number number)
  | string body => exact neutral_quoted body
  | emptyArray white =>
      exact neutral_brackets (.inr rfl) (.inr rfl) (neutral_plain (plain_white white))
  | array _ ih => exact neutral_brackets (.inr rfl) (.inr rfl) ih
  | emptyObject white =>
      exact neutral_brackets (.inl rfl) (.inl rfl) (neutral_plain (plain_white white))
  | object _ ih => exact neutral_brackets (.inl rfl) (.inl rfl) ih
  | item before _ after ih =>
      exact ((neutral_plain (plain_white before)).append ih).append
        (neutral_plain (plain_white after))
  | lastElement _ ih | lastMember _ ih => exact ih
  | element _ _ first second | member _ _ first second =>
      exact first.append ((neutral_plain (s := [',']) (by simp [isPlain])).append second)
  | pair before body between _ ih =>
      exact (((neutral_plain (plain_white before)).append (neutral_quoted body)).append
        (neutral_plain (plain_white between))).append
          ((neutral_plain (s := [':']) (by simp [isPlain])).append ih)

/-! ## Where the count comes back -/

/-- An object is a neutral text in braces. -/
theorem object_shape {ms : List (List Char × Tree)} {t : List Char}
    (derives : Derives (.value (.object ms)) t) : ∃ b, t = '{' :: b ++ ['}'] ∧ Neutral b := by
  cases derives with
  | emptyObject white => exact ⟨_, rfl, neutral_plain (plain_white white)⟩
  | object members => exact ⟨_, rfl, derives_neutral members⟩

/-- The count is not back before the end of a text that leaves it above zero. -/
theorem incomplete_of_part {text piece : List Char} {s : Scan}
    (open' : text.foldlM Scan.step Scan.initial = .ok s) (front : piece <+: text) :
    jsonLooksComplete piece = false := by
  obtain ⟨rest, rfl⟩ := front
  rw [jsonLooksComplete]
  cases scanned : piece.foldlM Scan.step Scan.initial with
  | ok _ => rfl
  | error complete =>
      rw [List.foldlM_append, scanned] at open'
      cases open'

section Object

variable {ms : List (List Char × Tree)} {s t u : List Char}

/-- **The count of an object comes back exactly at its closing brace.** -/
theorem complete_iff (before : White s) (object : Derives (.value (.object ms)) t)
    {piece : List Char} (front : piece <+: s ++ t ++ u) :
    jsonLooksComplete piece = true ↔ (s ++ t).length ≤ piece.length := by
  obtain ⟨b, rfl, neutral⟩ := object_shape object
  have open' : (s ++ '{' :: b).foldlM Scan.step Scan.initial = .ok (Scan.inside 1) := by
    have brace : Scan.initial.step '{' = .ok (Scan.inside 1) := rfl
    rw [foldlM_append_ok (foldlM_plain (plain_white before) rfl), foldlM_cons_ok brace]
    exact neutral 1 le_rfl
  have whole : s ++ ('{' :: b ++ ['}']) = s ++ '{' :: b ++ ['}'] := by simp
  have size : (s ++ ('{' :: b ++ ['}'])).length = (s ++ '{' :: b).length + 1 := by
    rw [whole, List.length_append, List.length_singleton]
  constructor
  · intro complete
    by_contra short
    have inside : piece <+: s ++ '{' :: b := by
      refine List.prefix_of_prefix_length_le front ?_ (by omega)
      rw [whole, List.append_assoc]
      exact List.prefix_append _ _
    rw [incomplete_of_part open' inside] at complete
    cases complete
  · intro long
    have inside : s ++ ('{' :: b ++ ['}']) <+: piece :=
      List.prefix_of_prefix_length_le (List.prefix_append _ _) front long
    obtain ⟨rest, rfl⟩ := inside
    rw [jsonLooksComplete, whole, List.append_assoc, foldlM_append_ok open']
    rfl

variable {chunks : List (List Char)}

/-- The loop runs over the chunks before the brace and stops with the one that has it. -/
theorem readLoop_object (before : White s) (object : Derives (.value (.object ms)) t)
    (size : (s ++ t ++ u).length ≤ CONTROL_MAX_REQUEST) (got : Received)
    (small : got.tooLarge = false) (short : got.request.length < (s ++ t).length)
    (delivers : got.request ++ chunks.flatten = s ++ t ++ u) :
    ∃ read chunk rest, chunks = read ++ chunk :: rest ∧
      (got.request ++ read.flatten).length < (s ++ t).length ∧
      (s ++ t).length ≤ (got.request ++ (read ++ [chunk]).flatten).length ∧
      (readLoop chunks got).request = got.request ++ (read ++ [chunk]).flatten ∧
      (readLoop chunks got).tooLarge = false := by
  induction chunks generalizing got with
  | nil =>
      have lengths := congrArg List.length delivers
      simp only [List.flatten_nil, List.append_nil, List.length_append] at lengths short
      omega
  | cons chunk chunks ih =>
      rw [List.flatten_cons, ← List.append_assoc] at delivers
      have front : got.request ++ chunk <+: s ++ t ++ u := ⟨chunks.flatten, delivers⟩
      have fits : ¬(got.request ++ chunk).length > CONTROL_MAX_REQUEST :=
        not_lt.2 (front.length_le.trans size)
      have added : got.add chunk = { request := got.request ++ chunk
                                     drained := got.drained + chunk.length
                                     tooLarge := false } := by
        simp only [Received.add, small, Bool.false_eq_true, if_false, if_neg fits]
      have ends : got.ends (got.add chunk) = jsonLooksComplete (got.request ++ chunk) := by
        simp [Received.ends, added, small]
      rw [readLoop, ends]
      by_cases complete : (s ++ t).length ≤ (got.request ++ chunk).length
      · rw [if_pos ((complete_iff before object front).2 complete), added]
        refine ⟨[], chunk, chunks, rfl, by simpa using short, by simpa using complete, ?_, rfl⟩
        simp
      · rw [if_neg fun looks => complete ((complete_iff before object front).1 looks)]
        obtain ⟨read, last, rest, split, open', closed, request, ok⟩ := ih (got.add chunk)
          (by rw [added]) (by rw [added]; exact not_le.1 complete) (by rw [added]; exact delivers)
        rw [added] at open' closed request
        refine ⟨chunk :: read, last, rest, by rw [split]; rfl, ?_, ?_, ?_, ok⟩
        · simpa using open'
        · simpa using closed
        · rw [added, request]
          simp

/-- **Framing.**  However a stream cuts a JSON object, the count comes back with the closing
brace, the loop stops at the chunk that has it, and one request is dispatched: a text of
the same object, which reads as the same value. -/
theorem framing_exact (before : White s) (object : Derives (.value (.object ms)) t)
    (after : White u) (size : (s ++ t ++ u).length ≤ CONTROL_MAX_REQUEST)
    (delivers : chunks.flatten = s ++ t ++ u) :
    (∀ piece, piece <+: s ++ t ++ u →
      (jsonLooksComplete piece = true ↔ (s ++ t).length ≤ piece.length)) ∧
    ∃ read chunk rest, chunks = read ++ chunk :: rest ∧
      read.flatten.length < (s ++ t).length ∧
      (s ++ t).length ≤ (read ++ [chunk]).flatten.length ∧
      dispatched chunks = [(read ++ [chunk]).flatten] ∧
      Text (read ++ [chunk]).flatten (.object ms) ∧
      jsonParse (read ++ [chunk]).flatten = jsonParse (s ++ t ++ u) := by
  refine ⟨fun piece front => complete_iff before object front, ?_⟩
  have some : 0 < (s ++ t).length := by
    have positive := Clumsy.Text.derives_length_pos object
    rw [List.length_append]
    omega
  obtain ⟨read, chunk, rest, split, open', closed, request, ok⟩ :=
    readLoop_object before object size { request := [], drained := 0, tooLarge := false } rfl some
      (show [] ++ chunks.flatten = s ++ t ++ u from delivers)
  simp only [List.nil_append] at open' closed request
  have front : (read ++ [chunk]).flatten <+: s ++ t ++ u := by
    rw [← delivers, split]
    exact ⟨rest.flatten, by simp⟩
  have inside : s ++ t <+: (read ++ [chunk]).flatten :=
    List.prefix_of_prefix_length_le (List.prefix_append _ _) front closed
  obtain ⟨v, here⟩ := inside
  have white : White v := by
    rw [← here] at front
    have tail := (List.prefix_append_right_inj (s ++ t)).1 front
    exact fun c member => after c (tail.subset member)
  have text : Text (read ++ [chunk]).flatten (.object ms) := by
    rw [← here]
    exact .item before object white
  refine ⟨read, chunk, rest, split, open', closed, ?_, text, ?_⟩
  · have present : (read ++ [chunk]).flatten ≠ [] := by
      intro empty
      rw [empty, List.length_nil] at closed
      omega
    rw [dispatched]
    simp only [ok, Bool.false_eq_true, if_false, request, if_neg present]
  · rw [Clumsy.Text.jsonParse_text text, Clumsy.Text.jsonParse_text (.item before object after)]

end Object

/-- The object of one string, with a brace and a quote in it. -/
theorem derives_sample : Derives
    (.value (.object [(['a'], .string ['}', '\\', '"'])]))
    ['{', '"', 'a', '"', ':', '"', '}', '\\', '"', '"', '}'] :=
  .object (.lastMember (.pair (s := []) (t := []) Text.white_nil
    (.plain (by decide) (by decide) (by decide) .nil) Text.white_nil
    (.item (s := []) (u := []) Text.white_nil (.string (.plain (by decide) (by decide) (by decide)
      (.escape (by decide) .nil))) Text.white_nil)))

/-- It is sent in three chunks, one of which ends inside of the escape. -/
theorem framing_exact_string :
    ∃ read chunk rest, [['{', '"', 'a', '"', ':', '"', '}', '\\'], ['"', '"', '}'], [' ']] =
        read ++ chunk :: rest ∧
      dispatched [['{', '"', 'a', '"', ':', '"', '}', '\\'], ['"', '"', '}'], [' ']] =
        [(read ++ [chunk]).flatten] := by
  obtain ⟨-, read, chunk, rest, split, -, -, sent, -⟩ := @framing_exact _ [] _ [' ']
    [['{', '"', 'a', '"', ':', '"', '}', '\\'], ['"', '"', '}'], [' ']] Text.white_nil
    derives_sample (List.all_eq_true.1 rfl) (by decide) rfl
  exact ⟨read, chunk, rest, split, sent⟩

end Clumsy.Control
