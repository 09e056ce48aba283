/-
# Http.Response -- httpserver.cpp: what a client makes of an answer

`sendResponse` writes a header block and the body behind it, `sendAll` in as many `send` calls
as the network takes, and gives up at the first one that fails.  A client that splits the block
into its lines and believes `Content-Length` (`readResponse`) gets back the response if all of
it came, and knows that something is missing if not (`readResponse_sent`).

So whatever a connection carries and whatever the network does with the answer, the client has
the very response that was routed or none (`answered_whole`).
-/
import Clumsy.Http.Route
import Clumsy.Text.Numeral

namespace Clumsy.Http

open Clumsy.Text

set_option autoImplicit false

/-! ## Sending -/

/-- What got out, whether it is all, and the calls that are left.  A list says what the `send`
calls return from here on: how many bytes went, 0 for an error, and errors behind its end. -/
def sendAll : List Nat → List Char → List Char × Bool × List Nat
  | outs, [] => ([], true, outs)
  | [], _ :: _ => ([], false, [])
  | 0 :: outs, _ :: _ => ([], false, outs)
  | (n + 1) :: outs, c :: buf =>
      let rest := sendAll outs ((c :: buf).drop (n + 1))
      ((c :: buf).take (n + 1) ++ rest.1, rest.2)

def statusText (code : Nat) : String :=
  if code = 200 then "OK"
  else if code = 400 then "Bad Request"
  else if code = 401 then "Unauthorized"
  else if code = 403 then "Forbidden"
  else if code = 404 then "Not Found"
  else if code = 405 then "Method Not Allowed"
  else if code = 408 then "Request Timeout"
  else if code = 413 then "Payload Too Large"
  else if code = 500 then "Internal Server Error"
  else "OK"

/-- `sizeof(header)`. -/
def HEADER_SIZE : Nat := 1024

def httpVersion : List Char := "HTTP/1.1 ".toList

def statusLine (r : Response) : List Char :=
  httpVersion ++ decimal r.code ++ ' ' :: (statusText r.code).toList

/-- One header field. -/
def field (name value : List Char) : List Char := name ++ ':' :: ' ' :: value

def typeName : List Char := "Content-Type".toList
def lengthName : List Char := "Content-Length".toList

def typeLine (r : Response) : List Char := field typeName r.contentType.toList

def lengthLine (r : Response) : List Char := field lengthName (decimal r.body.length)

def lastLines : List (List Char) := ["Cache-Control: no-store".toList, "Connection: close".toList]

/-- The header block that `snprintf` is asked for. -/
def headerText (r : Response) : List Char :=
  ([statusLine r, typeLine r, lengthLine r] ++ lastLines).flatMap (· ++ crlf) ++
    r.extraHeaders.toList ++ crlf

/-- What gets out of a response. -/
def sendResponse (outs : List Nat) (r : Response) : List Char :=
  if (headerText r).length ≥ HEADER_SIZE then []
  else
    let head := sendAll outs (headerText r)
    if !head.2.1 then head.1
    else if r.body.length > 0 then head.1 ++ (sendAll head.2.2 r.body).1
    else head.1

/-! ## Reading it back -/

/-- The lines of a header block up to the empty one, and what is behind it. -/
def readLines : List Char → List Char → Option (List (List Char) × List Char)
  | line, '\r' :: '\n' :: s =>
      if line = [] then some ([], s)
      else (readLines [] s).map fun block => (line :: block.1, block.2)
  | line, c :: s => readLines (line ++ [c]) s
  | _, [] => none

/-- The value of the first field with this name. -/
def fieldValue (name : List Char) (lines : List (List Char)) : Option (List Char) :=
  lines.findSome? fun line =>
    match cut [':', ' '] line with
    | some (before, behind) => if before = name then some behind else none
    | none => none

/-- What a client has of a response. -/
structure Reading where
  code        : Nat
  contentType : List Char
  body        : List Char
  deriving DecidableEq

def readStatus (line : List Char) : Option Nat :=
  if httpVersion.isPrefixOf line then
    some (digitsValue ((line.drop httpVersion.length).takeWhile Char.isDigit))
  else none

/-- It waits for as many bytes as it was told of. -/
def readResponse (s : List Char) : Option Reading := do
  let (lines, behind) ← readLines [] s
  let code ← readStatus (lines.headD [])
  let contentType ← fieldValue typeName lines
  let length ← fieldValue lengthName lines
  if behind.length < digitsValue length then none
  else some { code, contentType, body := behind.take (digitsValue length) }

/-! ## What gets out -/

/-- What gets out is a front of the text, and all of it if no call failed. -/
theorem sendAll_front (outs : List Nat) (buf : List Char) :
    (sendAll outs buf).1 <+: buf ∧ ((sendAll outs buf).2.1 = true → (sendAll outs buf).1 = buf) ∧
      ((sendAll outs buf).1 = buf → (sendAll outs buf).2.1 = true) := by
  induction outs generalizing buf with
  | nil =>
      cases buf with
      | nil => exact ⟨ List.nil_prefix, fun _ => rfl, fun _ => rfl⟩
      | cons c buf => refine ⟨ List.nil_prefix, ?_, ?_⟩ <;> intro all <;> cases all
  | cons n outs ih =>
      cases buf with
      | nil => exact ⟨ List.nil_prefix, fun _ => rfl, fun _ => rfl⟩
      | cons c buf =>
          cases n with
          | zero => refine ⟨ List.nil_prefix, ?_, ?_⟩ <;> intro all <;> cases all
          | succ n =>
              obtain ⟨front, whole, back⟩ := ih ((c :: buf).drop (n + 1))
              have split := List.take_append_drop (n + 1) (c :: buf)
              simp only [sendAll]
              refine ⟨?_, fun all => ?_, fun all => back ?_⟩
              · conv_rhs => rw [← split]
                exact (List.prefix_append_right_inj _).2 front
              · rw [whole all, split]
              · conv_rhs at all => rw [← split]
                exact List.append_cancel_left all

/-- **Nothing but the response.**  What gets out is a front of it. -/
theorem sendResponse_front (outs : List Nat) (r : Response) :
    sendResponse outs r <+: headerText r ++ r.body := by
  obtain ⟨front, whole, -⟩ := sendAll_front outs (headerText r)
  unfold sendResponse
  split
  · exact List.nil_prefix
  · simp only
    cases all : (sendAll outs (headerText r)).2.1 with
    | false => exact front.trans (List.prefix_append _ _)
    | true =>
        simp only [Bool.not_true, Bool.false_eq_true, if_false]
        split
        · rw [whole all]
          exact (List.prefix_append_right_inj _).2 (sendAll_front _ r.body).1
        · exact front.trans (List.prefix_append _ _)

/-! ## Header blocks -/

/-- The lines as they stand in a block. -/
def blockText (lines : List (List Char)) : List Char := lines.flatMap (· ++ crlf) ++ crlf

theorem readLines_line {text : List Char} (plain : '\r' ∉ text) (line s : List Char) :
    readLines line (text ++ s) = readLines (line ++ text) s := by
  induction text generalizing line with
  | nil => simp
  | cons c text ih =>
      rw [List.mem_cons, not_or] at plain
      rw [List.cons_append, readLines.eq_def]
      split
      · rename_i heq
        exact absurd (List.cons.inj heq).1.symm plain.1
      · rename_i heq
        obtain ⟨rfl, rfl⟩ := List.cons.inj heq
        rw [ih plain.2, List.append_assoc]
        rfl
      · rename_i heq
        cases heq

/-- **A block is read back**, and what is behind it left alone. -/
theorem readLines_block {lines : List (List Char)}
    (plain : ∀ line ∈ lines, line ≠ [] ∧ '\r' ∉ line) (behind : List Char) :
    readLines [] (blockText lines ++ behind) = some (lines, behind) := by
  induction lines with
  | nil => rfl
  | cons line lines ih =>
      obtain ⟨some, clean⟩ := plain line List.mem_cons_self
      have rest := ih fun l member => plain l (List.mem_cons_of_mem _ member)
      have text : blockText (line :: lines) ++ behind =
          line ++ '\r' :: '\n' :: (blockText lines ++ behind) := by
        simp [blockText, crlf]
      rw [text, readLines_line clean, List.nil_append, readLines, if_neg some, rest]
      rfl

/-- What comes later does not change the lines. -/
theorem readLines_append {line s : List Char} {block : List (List Char) × List Char}
    (read : readLines line s = some block) (more : List Char) :
    readLines line (s ++ more) = some (block.1, block.2 ++ more) := by
  induction line, s using readLines.induct generalizing block with
  | case1 s =>
      rw [readLines, if_pos rfl] at read
      obtain rfl := Option.some.inj read
      rw [List.cons_append, List.cons_append, readLines, if_pos rfl]
  | case2 line s some ih =>
      rw [readLines, if_neg some] at read
      obtain ⟨rest, later, rfl⟩ := Option.map_eq_some_iff.1 read
      rw [List.cons_append, List.cons_append, readLines, if_neg some, ih later]
      rfl
  | case3 line c s other ih =>
      rw [readLines] at read
      · rw [List.cons_append, readLines, ih read]
        intro t return_ heq
        subst return_
        cases s with
        | nil => cases read
        | cons d s =>
            obtain ⟨rfl, -⟩ := List.cons.inj heq
            exact other s rfl rfl
      · exact other
  | case4 line => cases read

/-! ## Whole or not at all -/

/-- A response that can be told apart from its framing. -/
structure Response.Framed (r : Response) : Prop where
  fits  : (headerText r).length < HEADER_SIZE
  type  : '\r' ∉ r.contentType.toList
  extra : ∃ lines : List (List Char), r.extraHeaders.toList = lines.flatMap (· ++ crlf) ∧
    ∀ line ∈ lines, line ≠ [] ∧ '\r' ∉ line

/-- The header lines of a response. -/
def headerLines (r : Response) (extra : List (List Char)) : List (List Char) :=
  [statusLine r, typeLine r, lengthLine r] ++ lastLines ++ extra

theorem headerText_eq {r : Response} {extra : List (List Char)}
    (split : r.extraHeaders.toList = extra.flatMap (· ++ crlf)) :
    headerText r = blockText (headerLines r extra) := by
  rw [headerText, split, ← List.flatMap_append, blockText, headerLines]

theorem colon_free {line : List Char} (free : ':' ∉ line) : cut [':', ' '] line = none := by
  rw [cut_eq_none_iff]
  exact fun inside => free (inside.subset List.mem_cons_self)

theorem cut_field {name : List Char} (free : ':' ∉ name) (value : List Char) :
    cut [':', ' '] (field name value) = some (name, value) := by
  have here : cut [':', ' '] (':' :: ' ' :: value) = some ([], value) := cut_self [' '] value
  rw [field, cut_skip free, here, Option.map_some, List.append_nil]

theorem httpVersion_plain : ∀ c ∈ httpVersion, c ≠ ':' ∧ c ≠ '\r' := by
  unfold httpVersion
  simp

theorem typeName_plain : ∀ c ∈ typeName, c ≠ ':' ∧ c ≠ '\r' := by
  unfold typeName
  simp

theorem lengthName_plain : ∀ c ∈ lengthName, c ≠ ':' ∧ c ≠ '\r' := by
  unfold lengthName
  simp

theorem decimal_natCast (n : Nat) : decimal n = Nat.toDigits 10 n := by
  rw [decimal, if_neg (by omega), Int.natAbs_natCast]

/-- What a code is called is plain text. -/
theorem statusText_plain (code : Nat) :
    ∀ c ∈ (statusText code).toList, c ≠ ':' ∧ c ≠ '\r' := by
  unfold statusText
  split_ifs <;> simp

theorem decimal_plain (n : Nat) : ∀ c ∈ decimal n, c ≠ ':' ∧ c ≠ '\r' := by
  rw [decimal_natCast]
  intro c member
  have digit := toDigits_isDigit c member
  exact ⟨ne_of_digit digit (by decide), ne_of_digit digit (by decide)⟩

theorem statusLine_plain (r : Response) : ∀ c ∈ statusLine r, c ≠ ':' ∧ c ≠ '\r' := by
  intro c member
  rcases List.mem_append.1 member with front | text
  · rcases List.mem_append.1 front with version | code
    · exact httpVersion_plain c version
    · exact decimal_plain r.code c code
  · rcases List.mem_cons.1 text with rfl | text
    · decide
    · exact statusText_plain r.code c text

/-- A field has no line break if its two parts have none. -/
theorem field_plain {name value : List Char} (name_ : ∀ c ∈ name, c ≠ ':' ∧ c ≠ '\r')
    (value_ : '\r' ∉ value) : '\r' ∉ field name value := by
  intro member
  rcases List.mem_append.1 member with front | behind
  · exact (name_ _ front).2 rfl
  · rcases List.mem_cons.1 behind with colon | behind
    · exact absurd colon (by decide)
    · rcases List.mem_cons.1 behind with space | behind
      · exact absurd space (by decide)
      · exact value_ behind

section Framed

variable {r : Response} {extra : List (List Char)}

theorem cut_statusLine : cut [':', ' '] (statusLine r) = none :=
  colon_free fun member => (statusLine_plain r _ member).1 rfl

theorem cut_typeLine : cut [':', ' '] (typeLine r) = some (typeName, r.contentType.toList) :=
  cut_field (fun member => (typeName_plain _ member).1 rfl) _

theorem cut_lengthLine :
    cut [':', ' '] (lengthLine r) = some (lengthName, decimal r.body.length) :=
  cut_field (fun member => (lengthName_plain _ member).1 rfl) _

theorem typeName_ne_lengthName : typeName ≠ lengthName := by
  unfold typeName lengthName
  simp

theorem fieldValue_type :
    fieldValue typeName (headerLines r extra) = some r.contentType.toList := by
  simp [fieldValue, headerLines, cut_statusLine, cut_typeLine]

theorem fieldValue_length :
    fieldValue lengthName (headerLines r extra) = some (decimal r.body.length) := by
  simp [fieldValue, headerLines, cut_statusLine, cut_typeLine, cut_lengthLine,
    typeName_ne_lengthName]

theorem readStatus_statusLine : readStatus (statusLine r) = some r.code := by
  have front : httpVersion.isPrefixOf (statusLine r) = true := by
    rw [List.isPrefixOf_iff_prefix, statusLine, List.append_assoc]
    exact List.prefix_append _ _
  have rest : (statusLine r).drop httpVersion.length =
      decimal r.code ++ ' ' :: (statusText r.code).toList := by
    rw [statusLine, List.append_assoc, List.drop_left]
  have digits : (decimal r.code ++ ' ' :: (statusText r.code).toList).takeWhile Char.isDigit =
      decimal r.code := by
    rw [decimal_natCast, List.takeWhile_append_of_pos toDigits_isDigit]
    exact List.append_nil _
  rw [readStatus, if_pos front, rest, digits, decimal_natCast, digitsValue_toDigits]

/-- **A response is read back.** -/
theorem readLines_response (framed : r.Framed) (more : List Char) :
    ∃ extra, readLines [] (headerText r ++ more) = some (headerLines r extra, more) := by
  obtain ⟨extra, split, plain⟩ := framed.extra
  refine ⟨extra, ?_⟩
  rw [headerText_eq split]
  refine readLines_block ?_ more
  intro line member
  simp only [headerLines, lastLines, List.mem_append, List.mem_cons, List.not_mem_nil, or_false]
    at member
  rcases member with ((rfl | rfl | rfl) | rfl | rfl) | other
  · exact ⟨by simp [statusLine], fun member => (statusLine_plain r _ member).2 rfl⟩
  · exact ⟨by simp [typeLine, field], field_plain typeName_plain framed.type⟩
  · refine ⟨by simp [lengthLine, field], field_plain lengthName_plain ?_⟩
    exact fun member => (decimal_plain _ _ member).2 rfl
  · simp
  · simp
  · exact plain line other

/-- What a client makes of a header block with something behind it. -/
theorem readResponse_headerText (framed : r.Framed) (behind : List Char) :
    readResponse (headerText r ++ behind) =
      if behind.length < r.body.length then none
      else some { code := r.code, contentType := r.contentType.toList,
                  body := behind.take r.body.length } := by
  obtain ⟨extra, lines⟩ := readLines_response framed behind
  have length : digitsValue (decimal r.body.length) = r.body.length := by
    rw [decimal_natCast, digitsValue_toDigits]
  rw [readResponse, lines]
  simp only [Option.bind_eq_bind, Option.bind_some, fieldValue_type, fieldValue_length, length]
  rw [show (headerLines r extra).headD [] = statusLine r from rfl, readStatus_statusLine]
  rfl

/-- **All of it or nothing.**  A front of a response is read as the response if it is the whole
of it, and as nothing yet if not. -/
theorem readResponse_sent (framed : r.Framed) {part : List Char}
    (front : part <+: headerText r ++ r.body) :
    readResponse part =
      if part = headerText r ++ r.body then
        some { code := r.code, contentType := r.contentType.toList, body := r.body }
      else none := by
  obtain ⟨rest, whole⟩ := front
  split_ifs with all
  · rw [all, readResponse_headerText framed, if_neg (Nat.lt_irrefl _), List.take_length]
  · have missing : rest ≠ [] := by
      rintro rfl
      exact all (by rw [← whole, List.append_nil])
    cases read : readLines [] part with
    | none =>
        rw [readResponse, read]
        rfl
    | some block =>
        obtain ⟨extra, lines⟩ := readLines_response framed r.body
        have later := readLines_append read rest
        rw [whole, lines] at later
        obtain ⟨same, body⟩ := Prod.mk.inj (Option.some.inj later)
        have shorter : block.2.length < r.body.length := by
          rw [body, List.length_append]
          exact Nat.lt_add_of_pos_right (List.length_pos_iff.2 missing)
        have split : part = headerText r ++ block.2 := by
          have text : headerText r ++ block.2 ++ rest = part ++ rest := by
            rw [List.append_assoc, ← body, whole]
          exact (List.append_cancel_right text).symm
        rw [split, readResponse_headerText framed, if_pos shorter]

end Framed

/-! ## The answer to a connection -/

/-- What the control API gives for a call: the status it sets, its text, the exposition text
and what `reportRenderHtml` returns and leaves in the buffer. -/
structure ApiTexts where
  status  : Handler → Nat
  json    : Handler → List Char
  metrics : List Char
  report  : Int × List Char

/-- Statuses have three digits, and a length is an `int`. -/
structure ApiTexts.Sane (api : ApiTexts) : Prop where
  status  : ∀ h, api.status h < 1000
  json    : ∀ h, (api.json h).length < 2 ^ 31
  metrics : api.metrics.length < 2 ^ 31
  report  : api.report.2.length < 2 ^ 31

def disposition : List Char :=
  "Content-Disposition: attachment; filename=\"clumsy-report.html\"".toList

def serveReport (api : ApiTexts) : Response :=
  if api.report.1 ≤ 0 then sendText 500 "Failed to render report"
  else
    { code := 200
      contentType := "text/html; charset=utf-8"
      body := api.report.2.take api.report.1.toNat
      extraHeaders := String.ofList (disposition ++ crlf) }

/-- The calls that are answered with 200 whatever they find. -/
def Handler.isGet : Handler → Bool
  | .health | .modules | .stats | .status | .profiles | .presets | .docs => true
  | _ => false

/-- The response to a request; the event stream is none. -/
def answer (srv : Server) (files : List Char → Option OpenFile) (api : ApiTexts) :
    Action → Option Response
  | .send r => some r
  | .static path => some (serveStatic srv files path)
  | .call .stream => none
  | .call .metrics =>
      some
        { code := 200
          contentType := "text/plain; version=0.0.4; charset=utf-8"
          body := api.metrics }
  | .call .report => some (serveReport api)
  | .call h =>
      some
        { code := if h.isGet then 200 else api.status h
          contentType := "application/json; charset=utf-8"
          body := api.json h }

/-- What a response is made of where it is built. -/
structure Response.Plain (r : Response) : Prop where
  code  : r.code < 1000
  type  : r.contentType.toList.length ≤ 60 ∧ '\r' ∉ r.contentType.toList
  body  : r.body.length < 2 ^ 31
  extra : r.extraHeaders = "" ∨ r.extraHeaders = String.ofList (disposition ++ crlf)

theorem statusText_length (code : Nat) : (statusText code).toList.length ≤ 21 := by
  unfold statusText
  split_ifs <;> simp

theorem decimal_length {n k : Nat} (positive : 0 < k) (small : n < 10 ^ k) :
    (decimal n).length ≤ k := by
  rw [decimal_natCast]
  exact (Nat.length_toDigits_le_iff (by decide) positive).2 small

theorem disposition_plain : '\r' ∉ disposition ∧ disposition ≠ [] ∧ disposition.length = 62 := by
  unfold disposition
  simp

theorem Response.Plain.framed {r : Response} (plain : r.Plain) : r.Framed where
  fits := by
    have code := decimal_length (by decide : 0 < 3) (by have := plain.code; omega : r.code < 10 ^ 3)
    have body := decimal_length (by decide : 0 < 10)
      (by have := plain.body; omega : r.body.length < 10 ^ 10)
    have text := statusText_length r.code
    have type := plain.type.1
    have extra : r.extraHeaders.toList.length ≤ 64 := by
      rcases plain.extra with none | report
      · rw [none]
        simp
      · rw [report, String.toList_ofList, List.length_append, disposition_plain.2.2]
        decide
    have version : httpVersion.length = 9 := by
      unfold httpVersion
      simp
    have typeName_ : typeName.length = 12 := by
      unfold typeName
      simp
    have lengthName_ : lengthName.length = 14 := by
      unfold lengthName
      simp
    have last : (lastLines.flatMap (· ++ crlf)).length = 44 := by
      unfold lastLines
      simp [crlf]
    have break_ : crlf.length = 2 := rfl
    rw [headerText, List.flatMap_append]
    simp only [List.flatMap_cons, List.flatMap_nil, List.append_nil, List.length_append, last,
      statusLine, typeLine, lengthLine, field, List.length_cons, version, typeName_, lengthName_,
      break_, HEADER_SIZE]
    omega
  type := plain.type.2
  extra := by
    rcases plain.extra with none | report
    · exact ⟨[], by rw [none]; rfl, fun _ member => absurd member List.not_mem_nil⟩
    · refine ⟨[disposition], ?_, ?_⟩
      · rw [report, String.toList_ofList, List.flatMap_singleton]
      · intro line member
        obtain rfl := List.mem_singleton.1 member
        exact ⟨disposition_plain.2.1, disposition_plain.1⟩

theorem sendText_plain {code : Nat} (three : code < 1000) {text : String}
    (short : text.toList.length < 2 ^ 31) : (sendText code text).Plain where
  code := three
  type := by
    unfold sendText
    simp
  body := short
  extra := .inl rfl

/-- A literal by its characters; as a text it is slow to decode. -/
theorem spelt_toList {s : String} {cs : List Char} (spelt : s = String.ofList cs) :
    s.toList = cs := by
  rw [spelt, String.toList_ofList]

theorem spelt_plain {s : String} {cs : List Char} (spelt : s = String.ofList cs)
    (plain : cs.length ≤ 60 ∧ '\r' ∉ cs) : s.toList.length ≤ 60 ∧ '\r' ∉ s.toList := by
  rw [spelt_toList spelt]
  exact plain

theorem spelt_length {s : String} {cs : List Char} (spelt : s = String.ofList cs)
    (short : cs.length ≤ 100) : s.toList.length ≤ 100 := by
  rw [spelt_toList spelt]
  exact short

theorem mimeForPath_plain (path : List Char) :
    (mimeForPath path).toList.length ≤ 60 ∧ '\r' ∉ (mimeForPath path).toList := by
  unfold mimeForPath
  simp only
  split_ifs <;> exact spelt_plain rfl (by decide)

theorem file_plain {f : OpenFile} (path : List Char)
    (small : ¬(f.size < 0 ∨ f.size > 8 * 1024 * 1024)) :
    Response.Plain
      { code := 200, contentType := mimeForPath path, body := f.content.take f.size.toNat } where
  code := by
    show 200 < 1000
    decide
  type := mimeForPath_plain path
  body := by
    have short := List.length_take_le f.size.toNat f.content
    have below : f.size.toNat < 2 ^ 31 := by omega
    exact Nat.lt_of_le_of_lt short below
  extra := .inl rfl

theorem missing_plain :
    Response.Plain
      { code := 200, contentType := "text/html; charset=utf-8", body := missingIndex.toList } where
  code := by decide
  type := by simp
  body := by
    unfold missingIndex
    simp only [String.toList_append, List.length_append]
    have parts : 100 + 100 + 100 + 100 + 100 + 100 + 100 < 2 ^ 31 := by decide
    refine Nat.lt_of_le_of_lt ?_ parts
    iterate 6 refine Nat.add_le_add ?_ (spelt_length rfl (by decide))
    exact spelt_length rfl (by decide)
  extra := .inl rfl

theorem serveStatic_plain (srv : Server) (files : List Char → Option OpenFile) (path : List Char) :
    (serveStatic srv files path).Plain := by
  unfold serveStatic
  simp only
  split
  · exact sendText_plain (by decide) (by simp)
  · split
    · split_ifs
      · exact missing_plain
      · exact sendText_plain (by decide) (by simp)
    · rename_i f _
      split_ifs with size
      · exact sendText_plain (by decide) (by simp)
      · exact file_plain _ size

theorem notFound_plain : (sendText 404 "Unknown API endpoint").Plain :=
  sendText_plain (by decide) (by simp)

theorem getRequest_plain {path : List Char} {r : Response} (sent : getRequest path = .send r) :
    r.Plain := by
  unfold getRequest at sent
  split at sent
  · cases sent
  · split_ifs at sent
    obtain rfl := Action.send.inj sent
    exact notFound_plain

theorem postRequest_plain {path body : List Char} {r : Response}
    (sent : postRequest path body = .send r) : r.Plain := by
  unfold postRequest at sent
  split at sent
  · cases sent
  split at sent
  · cases sent
  split at sent
  · cases sent
  split_ifs at sent
  obtain rfl := Action.send.inj sent
  exact notFound_plain

/-- What is sent without a call into the API is plain. -/
theorem routeRequest_plain {srv : Server} {req : HttpRequest} {r : Response}
    (sent : routeRequest srv req = .send r) : r.Plain := by
  unfold routeRequest at sent
  split_ifs at sent
  · exact getRequest_plain sent
  · exact postRequest_plain sent
  · obtain rfl := Action.send.inj sent
    exact sendText_plain (by decide) (by simp)
  · obtain rfl := Action.send.inj sent
    exact ⟨by decide, by simp [sendJson], by decide, .inl rfl⟩

theorem connectionThread_plain {srv : Server} {conn : List Recv} {r : Response}
    (sent : connectionThread srv conn = some (.send r)) : r.Plain := by
  unfold connectionThread at sent
  split at sent
  · exact routeRequest_plain (Option.some.inj sent)
  · obtain rfl := Action.send.inj (Option.some.inj sent)
    exact sendText_plain (by decide) (by simp)
  · obtain rfl := Action.send.inj (Option.some.inj sent)
    exact sendText_plain (by decide) (by simp)
  · cases sent

theorem serveReport_plain {api : ApiTexts} (sane : api.Sane) : (serveReport api).Plain := by
  unfold serveReport
  split_ifs
  · exact sendText_plain (by decide) (by simp)
  · refine ⟨by show 200 < 1000; decide, by simp, ?_, .inr rfl⟩
    exact Nat.lt_of_le_of_lt (List.length_take_le' _ _) sane.report

/-- **Every answer is plain**, its header block well within its buffer. -/
theorem answer_plain {api : ApiTexts} (sane : api.Sane) {srv : Server}
    {files : List Char → Option OpenFile} {conn : List Recv} {action : Action} {r : Response}
    (routed : connectionThread srv conn = some action)
    (answered : answer srv files api action = some r) : r.Plain := by
  cases action with
  | send r' =>
      obtain rfl : r' = r := Option.some.inj answered
      exact connectionThread_plain routed
  | static path =>
      obtain rfl : serveStatic srv files path = r := Option.some.inj answered
      exact serveStatic_plain srv files path
  | call h =>
      unfold answer at answered
      split at answered
      · rename_i other
        cases other
      · rename_i other
        cases other
      · cases answered
      · obtain rfl := Option.some.inj answered
        exact ⟨by show 200 < 1000; decide, by simp, sane.metrics, .inl rfl⟩
      · obtain rfl := Option.some.inj answered
        exact serveReport_plain sane
      · obtain rfl := Option.some.inj answered
        refine ⟨?_, by simp, sane.json _, .inl rfl⟩
        show (if _ then 200 else api.status _) < 1000
        split_ifs
        · decide
        · exact sane.status _

/-- What a connection comes to on its socket. -/
def transmitted (srv : Server) (files : List Char → Option OpenFile) (api : ApiTexts)
    (conn : List Recv) (outs : List Nat) : List Char :=
  match (connectionThread srv conn).bind (answer srv files api) with
  | some r => sendResponse outs r
  | none => []

/-- Calls that do not fail get all of it out, at a byte a call at least. -/
theorem sendAll_taken (outs : List Nat) {buf : List Char} (taken : ∀ n ∈ outs, 0 < n)
    (enough : buf.length ≤ outs.length) :
    (sendAll outs buf).2.1 = true ∧ (∀ n ∈ (sendAll outs buf).2.2, 0 < n) ∧
      outs.length ≤ (sendAll outs buf).2.2.length + buf.length := by
  induction outs generalizing buf with
  | nil =>
      obtain rfl := List.length_eq_zero_iff.1 (Nat.le_zero.1 enough)
      exact ⟨rfl, taken, Nat.le_refl _⟩
  | cons n outs ih =>
      cases buf with
      | nil => exact ⟨rfl, taken, Nat.le_refl _⟩
      | cons c buf =>
          cases n with
          | zero => exact absurd (taken 0 List.mem_cons_self) (Nat.lt_irrefl 0)
          | succ n =>
              have fewer : ((c :: buf).drop (n + 1)).length ≤ buf.length := by
                simp only [List.length_drop, List.length_cons]
                omega
              simp only [List.length_cons, sendAll] at enough ⊢
              have later : ∀ m ∈ outs, 0 < m := fun m member =>
                taken m (List.mem_cons_of_mem _ member)
              obtain ⟨whole, rest, left⟩ :=
                ih later (Nat.le_trans fewer (Nat.le_of_succ_le_succ enough))
              exact ⟨whole, rest, by omega⟩

/-- Then all of a response gets out. -/
theorem sendResponse_whole {r : Response} (framed : r.Framed) {outs : List Nat}
    (taken : ∀ n ∈ outs, 0 < n) (enough : (headerText r ++ r.body).length ≤ outs.length) :
    sendResponse outs r = headerText r ++ r.body := by
  have fits := framed.fits
  rw [List.length_append] at enough
  obtain ⟨head, rest, left⟩ := sendAll_taken outs taken (by omega : (headerText r).length ≤ _)
  obtain ⟨body, -, -⟩ := sendAll_taken _ rest (by omega : r.body.length ≤ _)
  have first := (sendAll_front outs (headerText r)).2.1 head
  have second := (sendAll_front _ r.body).2.1 body
  rw [sendResponse, if_neg (by omega)]
  simp only [head, Bool.not_true, Bool.false_eq_true, if_false, first, second]
  split_ifs with empty
  · rfl
  · rw [List.length_eq_zero_iff.1 (by omega : r.body.length = 0), List.append_nil]

/-- **The client has the response that was routed, or none.**  Whatever comes in on a
connection, whatever the API and the files say and wherever the network breaks off: what is
sent is a front of one response, and a client that reads it by its framing gets the code, the
type and every byte of that response if it is the whole of it, and nothing else ever.  If no
`send` fails, it is the whole of it. -/
theorem answered_whole (srv : Server) (files : List Char → Option OpenFile) {api : ApiTexts}
    (sane : api.Sane) (conn : List Recv) (outs : List Nat) {r : Response}
    (answered : (connectionThread srv conn).bind (answer srv files api) = some r) :
    let sent := transmitted srv files api conn outs
    sent <+: headerText r ++ r.body ∧
      readResponse sent =
        (if sent = headerText r ++ r.body then
          some { code := r.code, contentType := r.contentType.toList, body := r.body }
        else none) ∧
      ((∀ n ∈ outs, 0 < n) → (headerText r ++ r.body).length ≤ outs.length →
        sent = headerText r ++ r.body) := by
  intro sent
  obtain ⟨action, routed, said⟩ := Option.bind_eq_some_iff.1 answered
  have framed := (answer_plain sane routed said).framed
  have same : sent = sendResponse outs r := by
    show transmitted srv files api conn outs = _
    rw [transmitted, answered]
  have front : sent <+: headerText r ++ r.body := by
    rw [same]
    exact sendResponse_front outs r
  refine ⟨front, readResponse_sent framed front, fun taken enough => ?_⟩
  rw [same]
  exact sendResponse_whole framed taken enough

/-- A byte that comes too late. -/
def slowClient : List Recv := [{ chunk := ['G'], late := true }]

def tokenlessServer : Server :=
  { os := .posix, webRoot := WEB_ROOT_DIR, authRequired := false, serverToken := [] }

def silentTexts : ApiTexts :=
  { status := fun _ => 200, json := fun _ => [], metrics := [], report := (0, []) }

/-- The network takes the answer byte by byte, but not all of it. -/
theorem answered_whole_slowClient :
    readResponse (transmitted tokenlessServer (fun _ => none) silentTexts slowClient [1, 1, 1]) =
      none := by
  have sane : silentTexts.Sane := by constructor <;> simp [silentTexts]
  have answered : (connectionThread tokenlessServer slowClient).bind
      (answer tokenlessServer (fun _ => none) silentTexts) =
        some (sendText 408 "Request Timeout") := rfl
  obtain ⟨-, read, -⟩ :=
    answered_whole tokenlessServer (fun _ => none) sane slowClient [1, 1, 1] answered
  rw [read, if_neg (by decide +kernel)]

end Clumsy.Http
