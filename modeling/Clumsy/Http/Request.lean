/-
# Http.Request -- httpserver.cpp: reading a request

A connection is what its `recv` calls return, one after the other, each with whether the
deadline has passed behind it.  A text is its bytes, each taken as the character of that
number.
-/
import Clumsy.Scenario.Load
import Clumsy.Text.Number

namespace Clumsy.Http

open Clumsy.Text
open Clumsy.Scenario (cString)

set_option autoImplicit false

/-! ## Text -/

/-- `find`: the text before the first `word` and the text behind it. -/
def cut (word : List Char) : List Char → Option (List Char × List Char)
  | [] => if word = [] then some ([], []) else none
  | c :: s =>
      if word.isPrefixOf (c :: s) then some ([], (c :: s).drop word.length)
      else (cut word s).map fun (before, behind) => (c :: before, behind)

theorem cut_eq_none_iff {word s : List Char} : cut word s = none ↔ ¬word <:+: s := by
  induction s with
  | nil => simp [cut]
  | cons c s ih =>
      rw [cut, List.infix_cons_iff, ← List.isPrefixOf_iff_prefix]
      split_ifs with here
      · simp [here]
      · simp [here, ih]

section Cut

variable {d : Char} {word s before behind : List Char}

theorem cut_eq (found : cut word s = some (before, behind)) : s = before ++ word ++ behind := by
  induction s generalizing before with
  | nil =>
      rw [cut] at found
      split_ifs at found with empty
      cases found
      rw [empty]
      rfl
  | cons c s ih =>
      rw [cut] at found
      split_ifs at found with here
      · cases found
        obtain ⟨t, rest⟩ := List.isPrefixOf_iff_prefix.1 here
        rw [← rest, List.drop_left, List.nil_append]
      · obtain ⟨⟨before', behind'⟩, later, same⟩ := Option.map_eq_some_iff.1 found
        cases same
        rw [ih later]
        rfl

/-- More text behind does not make the first occurrence an earlier one. -/
theorem cut_append (found : cut word s = some (before, behind)) (more : List Char) :
    cut word (s ++ more) = some (before, behind ++ more) := by
  induction s generalizing before with
  | nil =>
      rw [cut] at found
      split_ifs at found with empty
      cases found
      rw [empty]
      cases more <;> simp [cut]
  | cons c s ih =>
      have whole := cut_eq found
      rw [cut] at found
      rw [List.cons_append, cut]
      split_ifs at found with here
      · have there := List.isPrefixOf_iff_prefix.1 here
        have still : word.isPrefixOf (c :: (s ++ more)) = true :=
          List.isPrefixOf_iff_prefix.2 (there.trans (List.prefix_append (c :: s) more))
        cases found
        rw [if_pos still, ← List.cons_append, List.drop_append_of_le_length there.length_le]
      · obtain ⟨⟨before', behind'⟩, later, same⟩ := Option.map_eq_some_iff.1 found
        cases same
        have fits : word.length ≤ (c :: s).length := by
          rw [whole]
          simp only [List.length_append]
          omega
        have still : ¬word.isPrefixOf (c :: (s ++ more)) = true := by
          intro there
          exact here (List.isPrefixOf_iff_prefix.2 (List.prefix_of_prefix_length_le
            (List.isPrefixOf_iff_prefix.1 there) (List.prefix_append (c :: s) more) fits))
        rw [if_neg still, ih later]
        rfl

/-- A text without the first character of a word has nothing of it. -/
theorem cut_skip (absent : d ∉ s) (word t : List Char) :
    cut (d :: word) (s ++ t) = (cut (d :: word) t).map fun parts => (s ++ parts.1, parts.2) := by
  induction s with
  | nil => simp
  | cons c s ih =>
      rw [List.mem_cons, not_or] at absent
      have other : ¬(d :: word).isPrefixOf (c :: (s ++ t)) = true := by
        simp [absent.1]
      rw [List.cons_append, cut, if_neg other, ih absent.2, Option.map_map]
      rfl

theorem cut_self (word t : List Char) : cut (d :: word) (d :: word ++ t) = some ([], t) := by
  rw [List.cons_append, cut, if_pos (by simp), ← List.cons_append, List.drop_left]

theorem cut_char (absent : d ∉ s) (t : List Char) : cut [d] (s ++ d :: t) = some (s, t) := by
  have here : cut [d] (d :: t) = some ([], t) := cut_self [] t
  rw [cut_skip absent, here, Option.map_some, List.append_nil]

theorem cut_char_none (absent : d ∉ s) : cut [d] s = none := by
  rw [cut_eq_none_iff, List.singleton_infix_iff]
  exact absent

end Cut

def crlf : List Char := ['\r', '\n']

/-- `_stricmp(a, b) == 0`. -/
def sameIgnoringCase (a b : List Char) : Bool :=
  (cString a).map Char.toLower == (cString b).map Char.toLower

/-- The base 16 prefix, if a digit follows it. -/
def skipHexMark : List Char → List Char
  | '0' :: x :: d :: s => if x.toLower == 'x' && isHexDigit d then d :: s else '0' :: x :: d :: s
  | s => s

/-- `strtol(s, &stop, 16)` and what is left at `stop`. -/
def strtolHex (s : List Char) : Int × List Char :=
  let (negative, t) := sign (s.dropWhile isSpace)
  let t := skipHexMark t
  match t.takeWhile isHexDigit with
  | [] => (0, s)
  | digits =>
      let n : Int := digits.foldl (fun n d => 16 * n + hexValue d) 0
      (if negative then max (-n) (-2 ^ 63) else min n (2 ^ 63 - 1), t.dropWhile isHexDigit)

/-- The low byte. -/
def toByte (v : Int) : Char := Char.ofNat (v % 256).toNat

def urlDecode : List Char → List Char
  | [] => []
  | '%' :: a :: b :: s =>
      match strtolHex (cString [a, b]) with
      | (v, []) => toByte v :: urlDecode s
      | (_, _ :: _) => '%' :: urlDecode (a :: b :: s)
  | c :: s => (if c = '+' then ' ' else c) :: urlDecode s

/-- The first pair with this key. -/
def queryParam (query key : List Char) : List Char :=
  let value := (query.splitOn '&').findSome? fun pair =>
    match cut ['='] pair with
    | some (name, value) => if name = key then some value else none
    | none => none
  (value.map urlDecode).getD []

/-! ## The connection -/

/-- What a `recv` returns.  No bytes are the end of the connection. -/
structure Recv where
  chunk : List Char
  /-- Whether `pastDeadline` holds behind it. -/
  late  : Bool
  deriving DecidableEq

structure HttpRequest where
  method : List Char := []
  path   : List Char := []
  query  : List Char := []
  body   : List Char := []
  token  : List Char := []
  deriving DecidableEq, Repr

def REQUEST_MAX_BYTES : Nat := 256 * 1024

/-- The bound on a header block that does not end. -/
def HEADER_FLOOD : Nat := 32 * 1024

inductive ReadError where
  | malformed
  | tooLarge
  | deadline
  deriving DecidableEq, Repr

/-- What `readRequest` returns then. -/
def ReadError.code : ReadError → Int
  | .malformed => 0
  | .tooLarge => -1
  | .deadline => -2

/-- The first loop: the header block, what came behind it and what is still to come. -/
def readHead : List Recv → List Char → Except ReadError (List Char × List Char × List Recv)
  | [], _ => .error .malformed
  | r :: conn, buf =>
      if r.chunk = [] then .error .malformed
      else
        let buf := buf ++ r.chunk
        match cut (crlf ++ crlf) buf with
        | some (head, behind) => .ok (head, behind, conn)
        | none =>
            if buf.length > HEADER_FLOOD then .error .malformed
            else if r.late then .error .deadline
            else readHead conn buf

/-- The request line.  What it leaves out of the request are the headers and the body. -/
def requestLine (line : List Char) : Option HttpRequest := do
  let (method, behind) ← cut [' '] line
  let (target, _) ← cut [' '] behind
  if target.head? ≠ some '/' then none
  else
    match cut ['?'] target with
    | none => some { method, path := urlDecode target }
    | some (path, query) =>
        some { method, path := urlDecode path, query, token := queryParam query "token".toList }

/-- The headers we care about. -/
structure Headers where
  contentLength : Int := 0
  token         : List Char
  deriving DecidableEq

def header (line : List Char) (h : Headers) : Headers :=
  match cut [':'] line with
  | none => h
  | some (name, value) =>
      let value := value.dropWhile fun c => c == ' ' || c == '\t'
      if sameIgnoringCase name "Content-Length".toList then
        { h with contentLength := atol (cString value) }
      else if sameIgnoringCase name "X-Clumsy-Token".toList then { h with token := value }
      else h

/-- The lines behind the request line.  Every round takes a line end, so as many as there
are bytes are enough. -/
def headers : Nat → List Char → Headers → Headers
  | 0, _, h => h
  | fuel + 1, s, h =>
      if s = [] then h
      else
        match cut crlf s with
        | none => header s h
        | some (line, rest) => headers fuel rest (header line h)

/-- The second loop: the body, as long as it is too short. -/
def readBody (contentLength : Int) : List Recv → List Char → Except ReadError (List Char)
  | [], body => .ok body
  | r :: conn, body =>
      if (body.length : Int) < contentLength then
        if r.chunk = [] then .ok body
        else if r.late then .error .deadline
        else readBody contentLength conn (body ++ r.chunk)
      else .ok body

def readRequest (conn : List Recv) : Except ReadError HttpRequest := do
  let (head, behind, conn) ← readHead conn []
  let (line, rest) := (cut crlf head).getD (head, [])
  let some req := requestLine line | throw .malformed
  let h := headers rest.length rest { token := req.token }
  if h.contentLength < 0 ∨ h.contentLength > REQUEST_MAX_BYTES then throw .tooLarge
  let body ← readBody h.contentLength conn behind
  return { req with token := h.token, body := body.take h.contentLength.toNat }

end Clumsy.Http
