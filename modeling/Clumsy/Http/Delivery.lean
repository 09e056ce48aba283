/-
# Http.Delivery -- httpserver.cpp: a request in pieces

What `recv` returns at a time is up to the network.  A request that arrives whole and in time
is read as if it came at once (`readRequest_delivered`).  Of one that is cut off, the first
loop of `readRequest` refuses the header block and the second one does not refuse the body:
it is read as a request just if its header block was taken (`cutOff_refused_iff`).
-/
import Clumsy.Http.Route

namespace Clumsy.Http

set_option autoImplicit false

/-! ## The header block -/

/-- Where the word is not found yet, not all of it has come. -/
theorem length_of_cut_none {word before behind part more : List Char} (none : cut word part = none)
    (found : cut word (part ++ more) = some (before, behind)) :
    part.length < before.length + word.length := by
  by_contra long
  rw [not_lt, ← List.length_append] at long
  have first : before ++ word <+: part ++ more := by
    rw [cut_eq found]
    exact List.prefix_append _ _
  have inside : before ++ word <+: part :=
    List.prefix_of_prefix_length_le first (List.prefix_append _ _) long
  exact cut_eq_none_iff.1 none ((List.suffix_append before word).isInfix.trans inside.isInfix)

def headerEnd : List Char := crlf ++ crlf

/-- The request line and the lines behind it. -/
def lines (head : List Char) : List Char × List Char := (cut crlf head).getD (head, [])

/-- The headers of a block. -/
def headersOf (head : List Char) : Headers :=
  headers (lines head).2.length (lines head).2
    { token := ((requestLine (lines head).1).map HttpRequest.token).getD [] }

/-- The length of the body that it tells. -/
def announced (head : List Char) : Int := (headersOf head).contentLength

/-- The request without its body. -/
def parseHead (head : List Char) : Except ReadError HttpRequest :=
  match requestLine (lines head).1 with
  | none => .error .malformed
  | some req =>
      if announced head < 0 ∨ announced head > REQUEST_MAX_BYTES then .error .tooLarge
      else .ok { req with token := (headersOf head).token }

/-- What is made of the header block, what came behind it and what is still to come. -/
def finish (conn : List Recv) (head behind : List Char) : Except ReadError HttpRequest := do
  let req ← parseHead head
  let body ← readBody (announced head) conn behind
  return { req with body := body.take (announced head).toNat }

theorem readRequest_eq (conn : List Recv) :
    readRequest conn = (readHead conn []).bind fun r => finish r.2.2 r.1 r.2.1 := by
  rw [readRequest]
  cases readHead conn [] with
  | error e => rfl
  | ok r =>
      obtain ⟨head, behind, conn⟩ := r
      show _ = finish conn head behind
      rw [finish, parseHead, announced, headersOf, lines]
      simp only [bind, Except.bind]
      generalize (cut crlf head).getD (head, []) = parts
      obtain ⟨line, rest⟩ := parts
      dsimp only
      cases requestLine line with
      | none => rfl
      | some req =>
          simp only [Option.map_some, Option.getD_some]
          split_ifs <;> rfl

/-! ## Delivered whole -/

def CHUNK_SIZE : Nat := 4096

/-- The bytes of the pieces. -/
def bytes (conn : List Recv) : List Char := conn.flatMap Recv.chunk

/-- The stream arrives in these pieces and in time. -/
structure Delivered (stream : List Char) (conn : List Recv) : Prop where
  whole  : bytes conn = stream
  pieces : ∀ r ∈ conn, r.chunk ≠ [] ∧ r.chunk.length ≤ CHUNK_SIZE
  inTime : ∀ r ∈ conn, r.late = false

section Head

variable {r : Recv} {conn : List Recv} {buf head behind : List Char} (some_ : r.chunk ≠ [])
include some_

theorem readHead_found (found : cut headerEnd (buf ++ r.chunk) = some (head, behind)) :
    readHead (r :: conn) buf = .ok (head, behind, conn) := by
  rw [readHead, if_neg some_, ← headerEnd]
  simp only [found]

theorem readHead_absent (absent : cut headerEnd (buf ++ r.chunk) = none) :
    readHead (r :: conn) buf =
      if (buf ++ r.chunk).length > HEADER_FLOOD then .error .malformed
      else if r.late then .error .deadline
      else readHead conn (buf ++ r.chunk) := by
  rw [readHead, if_neg some_, ← headerEnd]
  simp only [absent]

end Head

theorem readHead_delivered {conn : List Recv} {buf head behind : List Char}
    (pieces : ∀ r ∈ conn, r.chunk ≠ [] ∧ r.late = false) (absent : cut headerEnd buf = none)
    (block : cut headerEnd (buf ++ bytes conn) = some (head, behind))
    (short : (head ++ headerEnd).length ≤ HEADER_FLOOD) :
    ∃ behind' rest, readHead conn buf = .ok (head, behind', rest) ∧
      behind' ++ bytes rest = behind ∧ rest <:+ conn := by
  induction conn generalizing buf with
  | nil =>
      rw [bytes, List.flatMap_nil, List.append_nil, absent] at block
      cases block
  | cons r conn ih =>
      have here := pieces r List.mem_cons_self
      have there := fun r member => pieces r (List.mem_cons_of_mem _ member)
      rw [bytes, List.flatMap_cons, ← List.append_assoc] at block
      cases found : cut headerEnd (buf ++ r.chunk) with
      | some parts =>
          obtain ⟨head', behind'⟩ := parts
          rw [cut_append found] at block
          cases block
          exact ⟨behind', conn, readHead_found here.1 found, rfl, List.suffix_cons r conn⟩
      | none =>
          have few := length_of_cut_none found block
          rw [← List.length_append] at few
          obtain ⟨behind', rest, read, joined, within⟩ := ih there found block
          refine ⟨behind', rest, ?_, joined, within.trans (List.suffix_cons r conn)⟩
          rw [readHead_absent here.1 found, if_neg (by omega), here.2]
          exact read

theorem readBody_delivered (n : Int) {conn : List Recv}
    (pieces : ∀ r ∈ conn, r.chunk ≠ [] ∧ r.late = false) (body : List Char) :
    ∃ body', readBody n conn body = .ok body' ∧
      body'.take n.toNat = (body ++ bytes conn).take n.toNat := by
  induction conn generalizing body with
  | nil => exact ⟨body, rfl, by simp [bytes]⟩
  | cons r conn ih =>
      have here := pieces r List.mem_cons_self
      have there := fun r member => pieces r (List.mem_cons_of_mem _ member)
      rw [readBody]
      by_cases short : (body.length : Int) < n
      · rw [if_pos short, if_neg here.1, here.2]
        obtain ⟨body', read, same⟩ := ih there (body ++ r.chunk)
        refine ⟨body', read, ?_⟩
        rw [same, List.append_assoc]
        rfl
      · rw [if_neg short]
        refine ⟨body, rfl, ?_⟩
        rw [List.take_append_of_le_length (by omega)]

/-- A request that arrives whole and in time is read as what its bytes say. -/
theorem readRequest_delivered {stream head behind : List Char} {conn : List Recv}
    (delivered : Delivered stream conn) (block : cut headerEnd stream = some (head, behind))
    (short : (head ++ headerEnd).length ≤ HEADER_FLOOD) :
    readRequest conn = (parseHead head).map fun req =>
      { req with body := behind.take (announced head).toNat } := by
  have pieces : ∀ r ∈ conn, r.chunk ≠ [] ∧ r.late = false := fun r member =>
    ⟨(delivered.pieces r member).1, delivered.inTime r member⟩
  obtain ⟨behind', rest, read, joined, within⟩ :=
    @readHead_delivered conn [] head behind pieces (by decide)
      (by rw [List.nil_append, delivered.whole, block]) short
  obtain ⟨body', all, same⟩ := readBody_delivered (announced head)
    (fun r member => pieces r (within.subset member)) behind'
  rw [readRequest_eq, read]
  show finish rest head behind' = _
  rw [finish, all]
  cases parseHead head with
  | error e => rfl
  | ok req =>
      show Except.ok _ = Except.ok _
      rw [same, joined]

/-- **The pieces do not matter.**  However a stream with a whole request is cut, the same
request is read, and its body is as many bytes behind the header block as that tells. -/
theorem pieces_irrelevant {stream head behind : List Char}
    (block : cut headerEnd stream = some (head, behind))
    (short : (head ++ headerEnd).length ≤ HEADER_FLOOD) (enough : announced head ≤ behind.length)
    {conn conn' : List Recv} (delivered : Delivered stream conn)
    (delivered' : Delivered stream conn') :
    readRequest conn = readRequest conn' ∧
      ∀ req, readRequest conn = .ok req →
        req.body = behind.take (announced head).toNat ∧
          (req.body.length : Int) = announced head := by
  have read := readRequest_delivered delivered block short
  refine ⟨read.trans (readRequest_delivered delivered' block short).symm, ?_⟩
  intro req done
  rw [read, parseHead] at done
  cases line : requestLine (lines head).1 with
  | none =>
      rw [line] at done
      cases done
  | some req' =>
      rw [line] at done
      dsimp only at done
      split_ifs at done with refused
      · cases done
      · cases done
        rw [not_or, not_lt] at refused
        refine ⟨rfl, ?_⟩
        rw [List.length_take]
        omega

def applyStream : List Char :=
  "POST /api/apply HTTP/1.1\r\nContent-Length: 2\r\n\r\n\x7b\x7d".toList

/-- All at once. -/
def inOne : List Recv := [{ chunk := applyStream, late := false }]

/-- One byte after the other. -/
def inBytes : List Recv := applyStream.map fun c => { chunk := [c], late := false }

theorem pieces_irrelevant_apply : readRequest inOne = readRequest inBytes := by
  have one : Delivered applyStream inOne := ⟨rfl, by decide +kernel, by decide +kernel⟩
  have bytes : Delivered applyStream inBytes :=
    ⟨by decide +kernel, by decide +kernel, by decide +kernel⟩
  exact (@pieces_irrelevant applyStream
    "POST /api/apply HTTP/1.1\r\nContent-Length: 2".toList "\x7b\x7d".toList
    (by decide +kernel) (by decide +kernel) (by decide +kernel) inOne inBytes one bytes).1

/-! ## Cut off -/

/-- What arrives before the connection ends. -/
def arrived (conn : List Recv) : List Recv := conn.takeWhile fun r => r.chunk != []

/-- The connection ends before the header block has, or before as many bytes behind it as that
tells. -/
def CutOff (conn : List Recv) : Prop :=
  ∀ head behind, cut headerEnd (bytes (arrived conn)) = some (head, behind) →
    (behind.length : Int) < announced head

/-- With the piece `r` a header block is there that the server takes, and no piece comes too
late. -/
structure Takes (before : List Recv) (r : Recv) (after : List Recv) (head behind : List Char) :
    Prop where
  unfinished : cut headerEnd (bytes before) = none
  noFlood    : (bytes before).length ≤ HEADER_FLOOD
  finished   : cut headerEnd (bytes before ++ r.chunk) = some (head, behind)
  inTime     : ∀ x ∈ before ++ after, x.late = false
  wellFormed : (requestLine (lines head).1).isSome = true
  small      : announced head ≤ REQUEST_MAX_BYTES

def HeadTaken (conn : List Recv) : Prop :=
  ∃ before r after head behind, arrived conn = before ++ r :: after ∧
    Takes before r after head behind

theorem bytes_append (conn conn' : List Recv) : bytes (conn ++ conn') = bytes conn ++ bytes conn' :=
  List.flatMap_append

theorem bytes_cons (r : Recv) (conn : List Recv) : bytes (r :: conn) = r.chunk ++ bytes conn :=
  List.flatMap_cons

theorem arrived_some (conn : List Recv) : ∀ r ∈ arrived conn, r.chunk ≠ [] := by
  intro r member
  simpa using List.mem_takeWhile_imp member

/-- A `recv` without bytes is the end for both loops. -/
theorem readHead_arrived (conn : List Recv) (buf : List Char) :
    readHead (arrived conn) buf =
      (readHead conn buf).map fun read => (read.1, read.2.1, arrived read.2.2) := by
  induction conn generalizing buf with
  | nil => rfl
  | cons r conn ih =>
      by_cases none : r.chunk = []
      · rw [arrived, List.takeWhile_cons_of_neg (by simpa using none), readHead, readHead,
          if_pos none]
        rfl
      · have here : arrived (r :: conn) = r :: arrived conn :=
          List.takeWhile_cons_of_pos (by simpa using none)
        rw [here]
        cases found : cut headerEnd (buf ++ r.chunk) with
        | some parts =>
            obtain ⟨head, behind⟩ := parts
            rw [readHead_found none found, readHead_found none found]
            rfl
        | none =>
            rw [readHead_absent none found, readHead_absent none found]
            split_ifs
            · rfl
            · rfl
            · exact ih _

theorem readBody_arrived (n : Int) (conn : List Recv) (body : List Char) :
    readBody n (arrived conn) body = readBody n conn body := by
  induction conn generalizing body with
  | nil => rfl
  | cons r conn ih =>
      by_cases none : r.chunk = []
      · rw [arrived, List.takeWhile_cons_of_neg (by simpa using none), readBody, readBody,
          if_pos none]
        exact (ite_self _).symm
      · have here : arrived (r :: conn) = r :: arrived conn :=
          List.takeWhile_cons_of_pos (by simpa using none)
        rw [here, readBody, readBody, ih]

theorem readRequest_arrived (conn : List Recv) : readRequest (arrived conn) = readRequest conn := by
  rw [readRequest_eq, readRequest_eq, readHead_arrived]
  cases readHead conn [] with
  | error e => rfl
  | ok read =>
      obtain ⟨head, behind, rest⟩ := read
      show finish (arrived rest) head behind = finish rest head behind
      rw [finish, finish, readBody_arrived]

/-- When the first loop comes to its end. -/
theorem readHead_ok_iff {conn after : List Recv} {buf head behind : List Char}
    (pieces : ∀ r ∈ conn, r.chunk ≠ []) (absent : cut headerEnd buf = none)
    (noFlood : buf.length ≤ HEADER_FLOOD) :
    readHead conn buf = .ok (head, behind, after) ↔
      ∃ before r, conn = before ++ r :: after ∧ cut headerEnd (buf ++ bytes before) = none ∧
        (buf ++ bytes before).length ≤ HEADER_FLOOD ∧
        cut headerEnd (buf ++ bytes before ++ r.chunk) = some (head, behind) ∧
        ∀ x ∈ before, x.late = false := by
  induction conn generalizing buf with
  | nil => simp [readHead]
  | cons r conn ih =>
      have here := pieces r List.mem_cons_self
      have there := fun r member => pieces r (List.mem_cons_of_mem _ member)
      cases found : cut headerEnd (buf ++ r.chunk) with
      | some parts =>
          obtain ⟨head', behind'⟩ := parts
          rw [readHead_found here found]
          constructor
          · intro same
            cases same
            refine ⟨[], r, rfl, ?_, ?_, ?_, List.forall_mem_nil _⟩
            · rwa [bytes, List.flatMap_nil, List.append_nil]
            · rwa [bytes, List.flatMap_nil, List.append_nil]
            · rwa [bytes, List.flatMap_nil, List.append_nil]
          · rintro ⟨before, r', same, unfinished, -, finished, -⟩
            cases before with
            | nil =>
                cases same
                rw [bytes, List.flatMap_nil, List.append_nil, found] at finished
                cases finished
                rfl
            | cons x before =>
                cases same
                rw [bytes_cons, ← List.append_assoc, cut_append found] at unfinished
                cases unfinished
      | none =>
          rw [readHead_absent here found]
          constructor
          · intro read
            split_ifs at read with flood late
            obtain ⟨before, r', rfl, unfinished, few, finished, inTime⟩ :=
              (ih there found (not_lt.1 flood)).1 read
            refine ⟨r :: before, r', rfl, ?_, ?_, ?_, ?_⟩
            · rwa [bytes_cons, ← List.append_assoc]
            · rwa [bytes_cons, ← List.append_assoc]
            · rwa [bytes_cons, ← List.append_assoc]
            · exact List.forall_mem_cons.2 ⟨by simpa using late, inTime⟩
          · rintro ⟨before, r', same, unfinished, few, finished, inTime⟩
            cases before with
            | nil =>
                cases same
                rw [bytes, List.flatMap_nil, List.append_nil, found] at finished
                cases finished
            | cons x before =>
                cases same
                obtain ⟨late, inTime⟩ := List.forall_mem_cons.1 inTime
                rw [bytes_cons, ← List.append_assoc] at unfinished few finished
                have flood : ¬(buf ++ r.chunk).length > HEADER_FLOOD := by
                  rw [List.length_append] at few
                  omega
                rw [if_neg flood, late]
                exact (ih there found (not_lt.1 flood)).2
                  ⟨before, r', rfl, unfinished, few, finished, inTime⟩

/-- A body that stays too short is taken unless the deadline passes. -/
theorem readBody_short {n : Int} {conn : List Recv} {body : List Char}
    (pieces : ∀ r ∈ conn, r.chunk ≠ []) (short : ((body ++ bytes conn).length : Int) < n) :
    (∃ body', readBody n conn body = .ok body') ↔ ∀ r ∈ conn, r.late = false := by
  induction conn generalizing body with
  | nil => exact iff_of_true ⟨body, rfl⟩ (List.forall_mem_nil _)
  | cons r conn ih =>
      rw [bytes_cons, ← List.append_assoc] at short
      have fewer : (body.length : Int) < n := by
        simp only [List.length_append] at short
        omega
      rw [readBody, if_pos fewer, if_neg (pieces r List.mem_cons_self), List.forall_mem_cons]
      by_cases late : r.late = true
      · rw [if_pos late]
        refine iff_of_false ?_ fun inTime => ?_
        · rintro ⟨body', read⟩
          cases read
        · rw [inTime.1] at late
          cases late
      · rw [if_neg late, ih (fun r member => pieces r (List.mem_cons_of_mem _ member)) short]
        exact (and_iff_right (Bool.not_eq_true _ ▸ late)).symm

theorem exists_parseHead {head : List Char} (positive : 0 ≤ announced head) :
    (∃ req, parseHead head = .ok req) ↔
      (requestLine (lines head).1).isSome = true ∧ announced head ≤ REQUEST_MAX_BYTES := by
  rw [parseHead]
  cases requestLine (lines head).1 with
  | none => simp
  | some req =>
      simp only [Option.isSome_some, true_and]
      split_ifs with refused
      · refine iff_of_false (fun ⟨_, done⟩ => by cases done) ?_
        omega
      · refine iff_of_true ⟨_, rfl⟩ ?_
        omega

theorem finish_ok_iff {conn : List Recv} {head behind : List Char} :
    (∃ req, finish conn head behind = .ok req) ↔
      (∃ req, parseHead head = .ok req) ∧
        ∃ body, readBody (announced head) conn behind = .ok body := by
  rw [finish]
  cases parseHead head with
  | error e =>
      exact iff_of_false (fun ⟨_, done⟩ => by cases done) fun ⟨⟨_, done⟩, _⟩ => by cases done
  | ok req =>
      cases readBody (announced head) conn behind with
      | error e =>
          exact iff_of_false (fun ⟨_, done⟩ => by cases done) fun ⟨_, _, done⟩ => by cases done
      | ok body => exact iff_of_true ⟨_, rfl⟩ ⟨⟨_, rfl⟩, _, rfl⟩

/-- What is read of a connection that is cut off. -/
theorem readRequest_cutOff {conn : List Recv} (cutOff : CutOff conn) :
    (∃ req, readRequest conn = .ok req) ↔ HeadTaken conn := by
  have pieces := arrived_some conn
  have start : cut headerEnd [] = none := by decide
  have shorter {before after : List Recv} {r : Recv} {head behind : List Char}
      (same : arrived conn = before ++ r :: after)
      (finished : cut headerEnd (bytes before ++ r.chunk) = some (head, behind)) :
      ((behind ++ bytes after).length : Int) < announced head := by
    apply cutOff head
    rw [same, bytes_append, bytes_cons, ← List.append_assoc]
    exact cut_append finished (bytes after)
  rw [← readRequest_arrived, readRequest_eq]
  constructor
  · rintro ⟨req, done⟩
    cases read : readHead (arrived conn) [] with
    | error e =>
        rw [read] at done
        cases done
    | ok parts =>
        obtain ⟨head, behind, after⟩ := parts
        rw [read] at done
        have taken : finish after head behind = .ok req := done
        obtain ⟨parsed, body⟩ := finish_ok_iff.1 ⟨req, taken⟩
        obtain ⟨before, r, same, unfinished, noFlood, finished, inTime⟩ :=
          (readHead_ok_iff pieces start (Nat.zero_le _)).1 read
        rw [List.nil_append] at unfinished noFlood finished
        have short := shorter same finished
        have later : ∀ x ∈ after, x.chunk ≠ [] := fun x member =>
          pieces x (same ▸ List.mem_append_right _ (List.mem_cons_of_mem _ member))
        obtain ⟨wellFormed, small⟩ := (@exists_parseHead head (by omega)).1 parsed
        refine ⟨before, r, after, head, behind, same, unfinished, noFlood, finished, ?_,
          wellFormed, small⟩
        exact List.forall_mem_append.2 ⟨inTime, (readBody_short later short).1 body⟩
  · rintro ⟨before, r, after, head, behind, same, takes⟩
    obtain ⟨unfinished, noFlood, finished, inTime, wellFormed, small⟩ := takes
    have short := shorter same finished
    obtain ⟨early, late⟩ := List.forall_mem_append.1 inTime
    have later : ∀ x ∈ after, x.chunk ≠ [] := fun x member =>
      pieces x (same ▸ List.mem_append_right _ (List.mem_cons_of_mem _ member))
    have read : readHead (arrived conn) [] = .ok (head, behind, after) :=
      (readHead_ok_iff pieces start (Nat.zero_le _)).2
        ⟨before, r, same, unfinished, noFlood, finished, early⟩
    rw [read]
    exact finish_ok_iff.2 ⟨(@exists_parseHead head (by omega)).2 ⟨wellFormed, small⟩,
      (readBody_short later short).2 late⟩

/-- **What is cut off is refused** just if its header block was not taken. -/
theorem cutOff_refused_iff {conn : List Recv} (cutOff : CutOff conn) :
    (∀ req, readRequest conn ≠ .ok req) ↔ ¬HeadTaken conn := by
  rw [← readRequest_cutOff cutOff, not_exists]

/-- A connection that ends within the request line. -/
def cutLine : List Recv := [{ chunk := "POST /api/pc".toList, late := false }]

theorem cutOff_refused_line : ¬HeadTaken cutLine := by
  have cutOff : CutOff cutLine := by
    intro head behind block
    have none : cut headerEnd (bytes (arrived cutLine)) = none := by decide
    rw [none] at block
    cases block
  have refused : readRequest cutLine = .error .malformed := by decide +kernel
  refine (cutOff_refused_iff cutOff).1 fun req done => ?_
  rw [refused] at done
  cases done

/-- One that ends before any of the 20 bytes of a body. -/
def cutBody : List Recv :=
  [{ chunk := "POST /api/pcap/start HTTP/1.1\r\nContent-Length: 20\r\n\r\n".toList, late := false }]

/-- **A request that is cut off is carried out**, here with the body of one that leaves
everything to the defaults. -/
theorem cutOff_accepted :
    CutOff cutBody ∧
      readRequest cutBody =
        .ok { method := "POST".toList, path := "/api/pcap/start".toList } ∧
      ∀ srv : Server, srv.authRequired = false →
        connectionThread srv cutBody = some (.call (.pcapStart [])) := by
  have read : readRequest cutBody =
      .ok { method := "POST".toList, path := "/api/pcap/start".toList } := by
    decide +kernel
  refine ⟨?_, read, ?_⟩
  · intro head behind block
    have found : cut headerEnd (bytes (arrived cutBody)) =
        some ("POST /api/pcap/start HTTP/1.1\r\nContent-Length: 20".toList, []) := by
      decide +kernel
    rw [found] at block
    cases block
    decide +kernel
  · intro srv open_
    rw [connectionThread, read]
    have authorised (req : HttpRequest) : isAuthorized srv req = true := by
      rw [isAuthorized, open_]
      rfl
    dsimp only
    rw [routeRequest, authorised, if_neg (by decide), if_neg (by decide), if_neg (by decide),
      if_neg (by decide), if_pos rfl]
    decide +kernel

end Clumsy.Http
