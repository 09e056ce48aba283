/-
# Http.Token -- httpserver.cpp: the token of a request

A request carries the token of its last `X-Clumsy-Token` header and without one that of its
query (`token_eq`).  The server keeps 127 bytes of the token it is started with and puts them
into its URL unencoded, so it takes just that token, from everywhere, if it is short and has
nothing a URL makes something else of (`tokenDecides_iff`).
-/
import Clumsy.Http.Publish
import Clumsy.Theory.LastWrite

namespace Clumsy.Http

open Clumsy.Text
open Clumsy.Theory

set_option autoImplicit false

/-! ## Where a request carries it -/

/-- The lines of a text. -/
def linesOf : Nat → List Char → List (List Char)
  | 0, _ => []
  | fuel + 1, s =>
      if s = [] then []
      else
        match cut crlf s with
        | none => [s]
        | some (line, rest) => line :: linesOf fuel rest

/-- The token in a header, without the blanks in front. -/
def tokenField (line : List Char) : Option (List Char) :=
  match cut [':'] line with
  | none => none
  | some (name, value) =>
      if sameIgnoringCase name "X-Clumsy-Token".toList then
        some (value.dropWhile fun c => c == ' ' || c == '\t')
      else none

/-- The token in the headers of a block; the last one counts. -/
def headerToken (head : List Char) : Option (List Char) :=
  lastWrite tokenField (linesOf (lines head).2.length (lines head).2)

/-- The first value of `token` in a query, as it stands there. -/
def rawToken (query : List Char) : Option (List Char) :=
  (query.splitOn '&').findSome? fun pair =>
    match cut ['='] pair with
    | some (name, value) => if name = "token".toList then some value else none
    | none => none

/-- The token that a request carries. -/
def carried (head query : List Char) : Option (List Char) :=
  (headerToken head).or ((rawToken query).map urlDecode)

theorem headers_eq (fuel : Nat) (s : List Char) (h : Headers) :
    headers fuel s h = (linesOf fuel s).foldl (fun h line => header line h) h := by
  induction fuel generalizing s h with
  | zero => rfl
  | succ fuel ih =>
      rw [headers, linesOf]
      split_ifs with empty
      · rfl
      · cases cut crlf s with
        | none => rfl
        | some parts =>
            obtain ⟨line, rest⟩ := parts
            exact ih rest (header line h)

/-- No header has both names. -/
theorem sameIgnoringCase_other {name : List Char}
    (length : sameIgnoringCase name "Content-Length".toList = true) :
    sameIgnoringCase name "X-Clumsy-Token".toList = false := by
  rw [sameIgnoringCase, beq_iff_eq] at length
  rw [sameIgnoringCase, length]
  decide

theorem header_token (h : Headers) (line : List Char) :
    (header line h).token = (tokenField line).getD h.token := by
  rw [header, tokenField]
  cases cut [':'] line with
  | none => rfl
  | some parts =>
      obtain ⟨name, value⟩ := parts
      dsimp only
      by_cases length : sameIgnoringCase name "Content-Length".toList = true
      · rw [if_pos length, sameIgnoringCase_other length]
        rfl
      · rw [if_neg length]
        split_ifs <;> rfl

theorem headersOf_token (head : List Char) :
    (headersOf head).token =
      (headerToken head).getD (((requestLine (lines head).1).map HttpRequest.token).getD []) := by
  rw [headersOf, headers_eq]
  exact foldl_lastWrite header_token _ _

theorem requestLine_token {line : List Char} {req : HttpRequest}
    (read : requestLine line = some req) :
    req.token = ((rawToken req.query).map urlDecode).getD [] := by
  simp only [requestLine, bind, Option.bind_eq_some_iff] at read
  obtain ⟨⟨method, behind⟩, -, ⟨target, version⟩, -, read⟩ := read
  split_ifs at read
  cases query : cut ['?'] target with
  | none =>
      simp only [query] at read
      cases read
      rfl
  | some parts =>
      simp only [query] at read
      cases read
      rfl

/-- The request of a connection and its header block. -/
def Reads (conn : List Recv) (head : List Char) (req : HttpRequest) : Prop :=
  readRequest conn = .ok req ∧ ∃ behind rest, readHead conn [] = .ok (head, behind, rest)

section Reads

variable {conn : List Recv} {head : List Char} {req : HttpRequest}

theorem reads_line (reads : Reads conn head req) :
    ∃ line, requestLine (lines head).1 = some line ∧
      req = { line with token := (headersOf head).token, body := req.body } := by
  obtain ⟨read, behind, rest, block⟩ := reads
  rw [readRequest_eq, block] at read
  replace read : finish rest head behind = .ok req := read
  rw [finish, parseHead] at read
  cases line : requestLine (lines head).1 with
  | none =>
      rw [line] at read
      cases read
  | some req' =>
      rw [line] at read
      dsimp only at read
      split_ifs at read with tooLarge
      · cases read
      · cases body : readBody (announced head) rest behind with
        | error e =>
            rw [body] at read
            cases read
        | ok body =>
            rw [body] at read
            cases read
            exact ⟨req', rfl, rfl⟩

/-- **What is compared** is the token that the request carries. -/
theorem token_eq (reads : Reads conn head req) : req.token = (carried head req.query).getD [] := by
  obtain ⟨line, read, same⟩ := reads_line reads
  rw [same, carried]
  show (headersOf head).token = _
  rw [headersOf_token, read, Option.map_some, Option.getD_some, requestLine_token read]
  cases headerToken head <;> rfl

theorem isAuthorized_iff {srv : Server} (required : srv.authRequired = true)
    (some_ : srv.serverToken ≠ []) (reads : Reads conn head req) :
    isAuthorized srv req = true ↔ carried head req.query = some srv.serverToken := by
  rw [isAuthorized, if_pos required, beq_iff_eq, token_eq reads]
  cases carried head req.query with
  | none => exact iff_of_false (fun same => some_ same.symm) (Option.some_ne_none _).symm
  | some token => rw [Option.getD_some, Option.some_inj]

end Reads

/-! ## What is done about it -/

/-- The control API over the state of the application.  The two answers that need no token
only read it. -/
structure Api (σ : Type) where
  apiHealthJson  : σ → String
  apiMetricsText : σ → String
  handle         : Handler → σ → Response × σ

/-- What an action answers and leaves. -/
def perform {σ : Type} (api : Api σ) (srv : Server) (files : List Char → Option OpenFile) (s : σ) :
    Action → Response × σ
  | .call .health => (sendJson 200 (api.apiHealthJson s), s)
  | .call .metrics =>
      ({ code := 200, contentType := "text/plain; version=0.0.4; charset=utf-8"
         body := (api.apiMetricsText s).toList }, s)
  | .call handler => api.handle handler s
  | .send response => (response, s)
  | .static path => (serveStatic srv files path, s)

def unauthorized : Response :=
  sendJson 401 ("\x7b\"status\":\"error\",\"message\":\"missing or invalid token; " ++
    "pass ?token=... or the X-Clumsy-Token header\"\x7d")

/-- The two paths that are open. -/
def isOpen (path : List Char) : Prop := path = "/api/health".toList ∨ path = "/metrics".toList

/-- The request is answered with 401 unless its path is open, and changes nothing. -/
structure Refused (srv : Server) (req : HttpRequest) : Prop where
  answer    : ¬isOpen req.path → routeRequest srv req = .send unauthorized
  unchanged : ∀ (σ : Type) (api : Api σ) (files : List Char → Option OpenFile) (s : σ),
    (perform api srv files s (routeRequest srv req)).2 = s

theorem refused_of_unauthorized {srv : Server} {req : HttpRequest}
    (refused : isAuthorized srv req = false) : Refused srv req := by
  have answer : ¬isOpen req.path → routeRequest srv req = .send unauthorized := by
    intro closed
    rw [isOpen, not_or] at closed
    rw [routeRequest, if_neg closed.1, if_neg closed.2, refused, if_pos (by decide)]
    rfl
  refine ⟨answer, ?_⟩
  intro σ api files s
  by_cases health : req.path = "/api/health".toList
  · rw [routeRequest, if_pos health]
    rfl
  · by_cases metrics : req.path = "/metrics".toList
    · rw [routeRequest, if_neg health, if_pos metrics]
      rfl
    · rw [answer (not_or.2 ⟨health, metrics⟩)]
      rfl

/-- A request for the dashboard that is refused was not authorised. -/
theorem unauthorized_of_refused {srv : Server} {req : HttpRequest} (refused : Refused srv req)
    (get : req.method = "GET".toList) (root : req.path = ['/']) :
    isAuthorized srv req = false := by
  rw [← Bool.not_eq_true]
  intro authorised
  have answer := refused.answer (by rw [isOpen, root]; decide)
  rw [routeRequest, root, if_neg (by decide), if_neg (by decide), authorised, if_neg (by decide),
    get, if_pos rfl] at answer
  cases answer

/-- The server takes the token from a header, from the query and from the URL, and refuses
whatever carries another one or none. -/
structure TokenDecides (srv : Server) (url token : List Char) : Prop where
  byHeader : ∀ conn head req, Reads conn head req → headerToken head = some token →
    isAuthorized srv req = true
  byQuery  : ∀ conn head req encoded, Reads conn head req → headerToken head = none →
    rawToken req.query = some encoded → Encodes token encoded → isAuthorized srv req = true
  byUrl    : ∀ conn head req target version, Reads conn head req → headerToken head = none →
    Sends (targetOf url) target → (lines head).1 = "GET ".toList ++ target ++ ' ' :: version →
    isAuthorized srv req = true
  others   : ∀ conn head req, Reads conn head req → carried head req.query ≠ some token →
    Refused srv req

/-! ## The published URL -/

/-- The first value ends before the next pair. -/
theorem rawToken_value (value : List Char) :
    rawToken ("token=".toList ++ value) = some (value.takeWhile (· != '&')) := by
  have pair (v : List Char) : cut ['='] ("token=".toList ++ v) = some ("token".toList, v) :=
    @cut_char '=' "token".toList (by decide) v
  have free {v : List Char} (absent : '&' ∉ v) : '&' ∉ "token=".toList ++ v := by
    rw [List.mem_append, not_or]
    exact ⟨by decide, absent⟩
  by_cases more : '&' ∈ value
  · obtain ⟨front, rest, rfl, absent⟩ := List.eq_append_cons_of_mem more
    have kept : (front ++ '&' :: rest).takeWhile (· != '&') = front := by
      rw [List.takeWhile_append_of_pos, List.takeWhile_cons_of_neg (by decide), List.append_nil]
      intro c member
      simpa using fun same : c = '&' => absent (same ▸ member)
    rw [kept, rawToken, ← List.append_assoc, List.splitOn_append_cons_self_of_not_mem (free absent),
      List.findSome?_cons, pair]
    rfl
  · have kept : value.takeWhile (· != '&') = value := by
      rw [List.takeWhile_eq_self_iff]
      intro c member
      simpa using fun same : c = '&' => more (same ▸ member)
    rw [kept, rawToken, List.splitOn_eq_singleton (free more), List.findSome?_cons, pair]
    rfl

/-- The request line of a target with a query. -/
theorem requestLine_query {method path query : List Char} (noSpace : ' ' ∉ method)
    (slash : path.head? = some '/') (noQuery : '?' ∉ path) (noSpace' : ' ' ∉ path ++ '?' :: query)
    (version : List Char) :
    requestLine (method ++ ' ' :: ((path ++ '?' :: query) ++ ' ' :: version)) =
      some { method, path := urlDecode path, query, token := queryParam query "token".toList } := by
  have first : (path ++ '?' :: query).head? = some '/' := by
    rw [List.head?_append, slash]
    rfl
  simp only [requestLine, cut_char noSpace, cut_char noSpace', first, cut_char noQuery,
    Option.bind_eq_bind, Option.bind_some]
  rfl

/-- What a `GET` of the URL is and what it carries in its query. -/
theorem requestLine_url {token target : List Char} (printable : token.all isPrint = true)
    (sends : Sends ("/?token=".toList ++ token) target) (version : List Char) :
    ∃ value req, Sends (token.takeWhile fun c => c != '#' && c != '&') value ∧
      requestLine ("GET ".toList ++ target ++ ' ' :: version) = some req ∧
        req.method = "GET".toList ∧ req.path = ['/'] ∧ rawToken req.query = some value := by
  obtain ⟨t, rfl, rest⟩ := sends_append (by decide) sends
  have noSpace : ' ' ∉ ['/'] ++ '?' :: ("token=".toList ++ t) := by
    have free := not_mem_of_graph (isGraph_sends printable rest) (by decide : isGraph ' ' = false)
    show ' ' ∉ "/?token=".toList ++ t
    rw [List.mem_append, not_or]
    exact ⟨by decide, free⟩
  have line := requestLine_query (by decide : ' ' ∉ "GET".toList) (by rfl : ['/'].head? = some '/')
    (by decide) noSpace version
  exact ⟨_, _, sends_value rest, line, rfl, rfl, rawToken_value t⟩

/-! ## Requests without a body -/

/-- The connection that brings a header block at once. -/
def atOnce (head : List Char) : List Recv := [{ chunk := head ++ headerEnd, late := false }]

theorem reads_atOnce {head : List Char}
    (whole : cut headerEnd (head ++ headerEnd) = some (head, [])) {line : HttpRequest}
    (read : requestLine (lines head).1 = some line) (noBody : announced head = 0) :
    Reads (atOnce head) head { line with token := (headersOf head).token, body := [] } := by
  have some_ : head ++ headerEnd ≠ [] := by simp [headerEnd, crlf]
  have block : readHead (atOnce head) [] = .ok (head, [], []) :=
    readHead_found some_ (by rw [List.nil_append, whole])
  refine ⟨?_, [], [], block⟩
  rw [readRequest_eq, block]
  show finish [] head [] = _
  rw [finish, parseHead, read, noBody]
  dsimp only
  rw [if_neg (by decide)]
  rfl

/-- A request line and nothing else. -/
theorem reads_line_only {line : List Char} (noReturn : '\r' ∉ line) {req : HttpRequest}
    (read : requestLine line = some req) :
    ∃ conn, Reads conn line { req with token := (headersOf line).token, body := [] } ∧
      headerToken line = none ∧ (lines line).1 = line := by
  have only : lines line = (line, []) := by
    have absent := cut_skip noReturn ['\n'] []
    rw [List.append_nil] at absent
    rw [lines, crlf, absent]
    rfl
  have whole : cut headerEnd (line ++ headerEnd) = some (line, []) := by
    have here := @cut_self '\r' ['\n', '\r', '\n'] []
    rw [List.append_nil] at here
    rw [headerEnd, crlf]
    show cut ('\r' :: ['\n', '\r', '\n']) (line ++ '\r' :: ['\n', '\r', '\n']) = _
    rw [cut_skip noReturn, here]
    simp
  refine ⟨atOnce line, reads_atOnce whole (by rw [only]; exact read) ?_, ?_, by rw [only]⟩
  · rw [announced, headersOf, only]
    rfl
  · rw [headerToken, only]
    rfl

/-- A header block of two lines. -/
theorem cut_headerEnd_field {first field : List Char} (noReturn : '\r' ∉ first)
    (noReturn' : '\r' ∉ field) (some_ : field ≠ []) :
    cut headerEnd (first ++ crlf ++ field ++ headerEnd) = some (first ++ crlf ++ field, []) := by
  obtain ⟨c, s, rfl⟩ := List.exists_cons_of_ne_nil some_
  have other : c ≠ '\r' := fun same => noReturn' (same ▸ List.mem_cons_self)
  have last := @cut_self '\r' ['\n', '\r', '\n'] []
  rw [List.append_nil] at last
  have inner : cut headerEnd ('\r' :: '\n' :: (c :: s ++ headerEnd)) =
      some ('\r' :: '\n' :: c :: s, []) := by
    rw [cut, if_neg (by simp [headerEnd, crlf, other.symm]), cut,
      if_neg (by simp [headerEnd, crlf]), headerEnd, crlf]
    show ((cut ('\r' :: ['\n', '\r', '\n']) (c :: s ++ '\r' :: ['\n', '\r', '\n'])).map _).map _ = _
    rw [cut_skip noReturn', last]
    simp
  rw [List.append_assoc, List.append_assoc]
  show cut ('\r' :: ['\n', '\r', '\n']) (first ++ '\r' :: '\n' :: (c :: s ++ headerEnd)) = _
  rw [cut_skip noReturn]
  show (cut headerEnd _).map _ = _
  rw [inner]
  simp [crlf]

def rootLine : List Char := "GET / HTTP/1.1".toList

/-- A request for the dashboard with a token in its header. -/
theorem reads_header {token : List Char} (noReturn : '\r' ∉ token)
    (noBlank : token.dropWhile (fun c => c == ' ' || c == '\t') = token) :
    ∃ conn head req, Reads conn head req ∧ headerToken head = some token ∧
      req.method = "GET".toList ∧ req.path = ['/'] := by
  have noReturn' : '\r' ∉ "X-Clumsy-Token:".toList ++ token := by
    rw [List.mem_append, not_or]
    exact ⟨by decide, noReturn⟩
  obtain ⟨field, name⟩ : ∃ field, field = "X-Clumsy-Token:".toList ++ token := ⟨_, rfl⟩
  rw [← name] at noReturn'
  have some_ : field ≠ [] := by
    rw [name]
    exact List.cons_ne_nil 'X' _
  have only : cut crlf field = none := by
    have absent := cut_skip noReturn' ['\n'] []
    rw [List.append_nil] at absent
    rw [crlf, absent]
    rfl
  have parts : lines (rootLine ++ crlf ++ field) = (rootLine, field) := by
    rw [lines, List.append_assoc, crlf, cut_skip (by decide), cut_self]
    simp
  have here : cut [':'] field = some ("X-Clumsy-Token".toList, token) := by
    rw [name]
    exact @cut_char ':' "X-Clumsy-Token".toList (by decide) token
  have carries : tokenField field = some token := by
    rw [tokenField, here]
    dsimp only
    rw [if_pos (by decide), noBlank]
  have noLength (h : Headers) : (header field h).contentLength = h.contentLength := by
    rw [header, here]
    dsimp only
    rw [if_neg (by decide), if_pos (by decide)]
  have one : linesOf field.length field = [field] := by
    obtain ⟨c, s, rfl⟩ := List.exists_cons_of_ne_nil some_
    rw [List.length_cons, linesOf, if_neg (List.cons_ne_nil c s)]
    simp only [only]
  have noBody : announced (rootLine ++ crlf ++ field) = 0 := by
    rw [announced, headersOf, parts, headers_eq, one]
    exact noLength _
  have root : requestLine (lines (rootLine ++ crlf ++ field)).1 =
      some { method := "GET".toList, path := ['/'] } := by
    rw [parts]
    show requestLine rootLine = _
    decide
  have whole := cut_headerEnd_field (by decide : '\r' ∉ rootLine) noReturn' some_
  refine ⟨_, _, _, reads_atOnce whole root noBody, ?_, rfl, rfl⟩
  rw [headerToken, parts, one, lastWrite_singleton, carries]

/-! ## The token decides -/

theorem dropWhile_blank {token : List Char} (printable : token.all isPrint = true)
    (noBlank : token.head? ≠ some ' ') :
    token.dropWhile (fun c => c == ' ' || c == '\t') = token := by
  cases token with
  | nil => rfl
  | cons c s =>
      rw [List.all_cons, Bool.and_eq_true] at printable
      refine List.dropWhile_cons_of_neg ?_
      rw [Bool.or_eq_true, beq_iff_eq, beq_iff_eq, not_or]
      refine ⟨fun blank => noBlank (by rw [blank]; rfl), ?_⟩
      rintro rfl
      exact absurd printable.1 (by decide)

theorem no_return {token : List Char} (printable : token.all isPrint = true) : '\r' ∉ token :=
  fun member => absurd (List.all_eq_true.1 printable _ member) (by decide)

section Stored

variable {srv : Server} {token url : List Char} (required : srv.authRequired = true)
  (some_ : token ≠ []) (printable : token.all isPrint = true)
include required some_ printable

/-- The front of a token that is too long is accepted in its place. -/
theorem short_of_decides (noBlank : token.head? ≠ some ' ')
    (kept : srv.serverToken = token.take (TOKEN_SIZE - 1)) (decides : TokenDecides srv url token) :
    token.length < TOKEN_SIZE := by
  by_contra long
  have store : srv.serverToken ≠ [] := by
    rw [kept]
    exact fun none => (List.take_eq_nil_iff.1 none).elim (by decide) some_
  have front : (token.take (TOKEN_SIZE - 1)).all isPrint = true := by
    refine List.all_eq_true.2 fun c member => ?_
    exact List.all_eq_true.1 printable c (List.mem_of_mem_take member)
  have noBlank' : (token.take (TOKEN_SIZE - 1)).head? ≠ some ' ' := by
    rwa [List.head?_take, if_neg (by decide)]
  obtain ⟨conn, head, req, reads, carries, get, root⟩ :=
    reads_header (no_return front) (dropWhile_blank front noBlank')
  have front_ : carried head req.query = some (token.take (TOKEN_SIZE - 1)) := by
    rw [carried, carries]
    rfl
  have other : carried head req.query ≠ some token := by
    rw [front_, Ne, Option.some_inj]
    intro same
    have lengths := congrArg List.length same
    rw [List.length_take] at lengths
    rw [TOKEN_SIZE] at long lengths
    omega
  have refused := unauthorized_of_refused (decides.others conn head req reads other) get root
  have accepted := (isAuthorized_iff required store reads).2 (by rw [front_, kept])
  rw [refused] at accepted
  cases accepted

variable (kept : srv.serverToken = token) (target : targetOf url = "/?token=".toList ++ token)
include kept target

/-- What a `GET` of the URL carries is the token, so nothing of it was read as something else. -/
theorem plain_of_decides (decides : TokenDecides srv url token) :
    '&' ∉ token ∧ '#' ∉ token ∧ UrlPlain token := by
  obtain ⟨t, sends⟩ := exists_sends (targetOf url)
  have whole : (targetOf url).all isPrint = true := by
    rw [target, List.all_append, printable]
    decide
  obtain ⟨value, req, value_, line, -, -, query⟩ :=
    requestLine_url printable (target ▸ sends) "HTTP/1.1".toList
  have noReturn : '\r' ∉ "GET ".toList ++ t ++ ' ' :: "HTTP/1.1".toList := by
    have free := not_mem_of_graph (isGraph_sends whole sends) (by decide : isGraph '\r' = false)
    rw [List.mem_append, List.mem_append, not_or, not_or]
    exact ⟨⟨by decide, free⟩, by decide⟩
  obtain ⟨conn, reads, none, only⟩ := reads_line_only noReturn line
  have accepted := decides.byUrl conn _ _ t "HTTP/1.1".toList reads none sends only
  have decoded : urlDecode value = token := by
    have carries := (isAuthorized_iff required (kept ▸ some_) reads).1 accepted
    rw [carried, none, query, kept] at carries
    exact Option.some.inj carries
  have core : (token.takeWhile fun c => c != '#' && c != '&') = token := by
    have fewer := length_urlDecode_sends (List.all_eq_true.2 fun c member =>
      List.all_eq_true.1 printable c (List.takeWhile_subset _ member)) value_
    rw [decoded] at fewer
    exact (List.takeWhile_prefix _).eq_of_length_le fewer
  rw [core] at value_
  have free : ∀ c ∈ token, c ≠ '#' ∧ c ≠ '&' := fun c member => by
    simpa using List.takeWhile_eq_self_iff.1 core c member
  have noFragment : '#' ∉ token := fun member => (free _ member).1 rfl
  exact ⟨fun member => (free _ member).2 rfl, noFragment,
    (urlDecode_sends_iff printable noFragment value_).1 decoded⟩

theorem decides_of_plain (noNext : '&' ∉ token) (noFragment : '#' ∉ token)
    (plain : UrlPlain token) : TokenDecides srv url token := by
  have accepts {conn head req} (reads : Reads conn head req)
      (carries : carried head req.query = some token) : isAuthorized srv req = true :=
    (isAuthorized_iff required (kept ▸ some_) reads).2 (by rw [carries, kept])
  refine ⟨?_, ?_, ?_, ?_⟩
  · intro conn head req reads carries
    exact accepts reads (by rw [carried, carries]; rfl)
  · intro conn head req encoded reads none query encodes
    refine accepts reads ?_
    have decoded := urlDecode_encodes encodes []
    rw [List.append_nil, urlDecode, List.append_nil] at decoded
    rw [carried, none, query, Option.map_some, decoded]
    rfl
  · intro conn head req target' version reads none sends line
    refine accepts reads ?_
    obtain ⟨value, req', value_, line', -, -, query⟩ :=
      requestLine_url printable (target ▸ sends) version
    obtain ⟨line'', read, same⟩ := reads_line reads
    rw [line, line', Option.some_inj] at read
    have core : (token.takeWhile fun c => c != '#' && c != '&') = token := by
      refine List.takeWhile_eq_self_iff.2 fun c member => ?_
      have hash : c ≠ '#' := fun same => noFragment (same ▸ member)
      have next : c ≠ '&' := fun same => noNext (same ▸ member)
      simpa using ⟨hash, next⟩
    rw [core] at value_
    have query' : rawToken req.query = some value := by
      rw [same, ← read]
      exact query
    rw [carried, none, query', Option.map_some,
      (urlDecode_sends_iff printable noFragment value_).2 plain]
    rfl
  · intro conn head req reads other
    refine refused_of_unauthorized ?_
    rw [← Bool.not_eq_true, isAuthorized_iff required (kept ▸ some_) reads, kept]
    exact other

end Stored

/-- **The token decides.**  A server that is started with a printable token takes this token
from a header, from the query and from its own URL and no other one, just if the token fits
into its store and the URL means what stands in it. -/
theorem tokenDecides_iff {os : Os} {sys : System} {bindAddr : Option (List Char)} {port : Int}
    {token url : List Char} {srv : Server} (some_ : token ≠ [])
    (printable : token.all isPrint = true) (noBlank : token.head? ≠ some ' ')
    (start : httpServerStart os sys bindAddr port (some token) = some (srv, url)) :
    TokenDecides srv url token ↔
      token.length < TOKEN_SIZE ∧ '&' ∉ token ∧ '#' ∉ token ∧ UrlPlain token := by
  obtain ⟨required, kept, target⟩ := started some_ start
  have whole (short : token.length < TOKEN_SIZE) : srv.serverToken = token := by
    rw [kept]
    exact List.take_of_length_le (Nat.le_sub_one_of_lt short)
  constructor
  · intro decides
    have short := short_of_decides required some_ printable noBlank kept decides
    rw [whole short] at target
    exact ⟨short, plain_of_decides required some_ printable (whole short) target decides⟩
  · rintro ⟨short, noNext, noFragment, plain⟩
    rw [whole short] at target
    exact decides_of_plain required some_ printable (whole short) target noNext noFragment plain

/-- A system in which everything succeeds. -/
def freshSystem : System :=
  { wsaStartup := true, socket := true, bind := true, listen := true, createThread := true
    tickCount := 0, processId := 0, exe := "clumsy".toList }

def localServer (token : List Char) : Server :=
  { os := .posix, webRoot := buildWebRoot "clumsy".toList, authRequired := true,
    serverToken := token }

theorem httpServerStart_secret :
    httpServerStart .posix freshSystem none 8080 (some "secret".toList) =
      some (localServer "secret".toList, "http://127.0.0.1:8080/?token=secret".toList) := by
  rfl

theorem tokenDecides_secret :
    TokenDecides (localServer "secret".toList) "http://127.0.0.1:8080/?token=secret".toList
      "secret".toList := by
  refine (tokenDecides_iff (by decide) (by decide) (by decide) httpServerStart_secret).2
    ⟨by decide, by decide, by decide, by decide, ?_⟩
  intro a b inside
  have percent : '%' ∈ "secret".toList := inside.subset List.mem_cons_self
  exact absurd percent (by decide)

/-- A plus in the URL is read as a space. -/
theorem url_misread :
    httpServerStart .posix freshSystem none 8080 (some "a+b".toList) =
        some (localServer "a+b".toList, "http://127.0.0.1:8080/?token=a+b".toList) ∧
      ¬TokenDecides (localServer "a+b".toList) "http://127.0.0.1:8080/?token=a+b".toList
        "a+b".toList := by
  refine ⟨rfl, fun decides => ?_⟩
  have sends : Sends (targetOf "http://127.0.0.1:8080/?token=a+b".toList) "/?token=a+b".toList :=
    .same (by decide) (by decide) (.same (by decide) (by decide) (.same (by decide) (by decide)
      (.same (by decide) (by decide) (.same (by decide) (by decide) (.same (by decide) (by decide)
      (.same (by decide) (by decide) (.same (by decide) (by decide) (.same (by decide) (by decide)
      (.same (by decide) (by decide) (.same (by decide) (by decide) .nil))))))))))
  have reads : Reads (atOnce "GET /?token=a+b HTTP/1.1".toList) "GET /?token=a+b HTTP/1.1".toList
      { method := "GET".toList, path := ['/'], query := "token=a+b".toList,
        token := "a b".toList } := ⟨by decide +kernel, [], [], by decide +kernel⟩
  have accepted := decides.byUrl _ _ _ _ "HTTP/1.1".toList reads (by decide +kernel) sends
    (by decide +kernel)
  exact absurd accepted (by decide)

end Clumsy.Http
