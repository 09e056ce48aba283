/-
# Http.Route -- httpserver.cpp: routing and the static files

`routeRequest` says which handler answers a request.  Whatever is no endpoint is a file
below the web root: `serveStatic` takes the first character off the path, refuses what
`isSafeRelativePath` does not let through and opens the rest behind the web root.

So what is opened lies below the web root, whatever was sent (`opened_confined`).
-/
import Clumsy.Http.Request
import Clumsy.Theory.LexicalPath

namespace Clumsy.Http

open Clumsy.Scenario (cString cString_free cString_of_free)
open Clumsy.Theory.LexicalPath

set_option autoImplicit false

/-! ## The two platforms -/

inductive Os where
  | windows
  | posix
  deriving DecidableEq, Repr

/-- What stands between the web root and the name. -/
def Os.separator : Os → Char
  | .windows => '\\'
  | .posix => '/'

/-- What the file system takes for a separator. -/
def Os.isSeparator : Os → Char → Bool
  | .windows => fun c => c == '\\' || c == '/'
  | .posix => fun c => c == '/'

/-- On Windows every slash of the path becomes a backslash. -/
def Os.spell : Os → List Char → List Char
  | .windows => List.map fun c => if c = '/' then '\\' else c
  | .posix => id

/-! ## The server -/

def WEB_ROOT_DIR : List Char := "web".toList

/-- The text up to the last `c`, with it. -/
def upToLast (c : Char) (s : List Char) : List Char := (s.reverse.dropWhile (· != c)).reverse

/-- The directory of the program and `web`. -/
def buildWebRoot (exe : List Char) : List Char :=
  let path := cString exe
  (if '\\' ∈ path then upToLast '\\' path else upToLast '/' path) ++ WEB_ROOT_DIR

structure Server where
  os           : Os
  webRoot      : List Char
  authRequired : Bool
  serverToken  : List Char

def isAuthorized (srv : Server) (req : HttpRequest) : Bool :=
  if srv.authRequired then req.token == srv.serverToken else true

structure Response where
  code         : Nat
  contentType  : String
  body         : List Char
  extraHeaders : String := ""
  deriving DecidableEq

def sendText (code : Nat) (text : String) : Response :=
  { code, contentType := "text/plain; charset=utf-8", body := text.toList }

def sendJson (code : Nat) (json : String) : Response :=
  { code, contentType := "application/json; charset=utf-8", body := json.toList }

/-! ## Static files -/

/-- The extension, its point included. -/
def extension (path : List Char) : List Char :=
  '.' :: (path.reverse.takeWhile (· != '.')).reverse

def mimeForPath (path : List Char) : String :=
  if '.' ∉ path then "application/octet-stream"
  else
    let ext := String.ofList (extension path)
    if ext = ".html" ∨ ext = ".htm" then "text/html; charset=utf-8"
    else if ext = ".css" then "text/css; charset=utf-8"
    else if ext = ".js" then "application/javascript; charset=utf-8"
    else if ext = ".json" then "application/json; charset=utf-8"
    else if ext = ".svg" then "image/svg+xml"
    else if ext = ".png" then "image/png"
    else if ext = ".ico" then "image/x-icon"
    else "application/octet-stream"

def isPathChar (c : Char) : Bool :=
  ('a' ≤ c && c ≤ 'z') || ('A' ≤ c && c ≤ 'Z') || ('0' ≤ c && c ≤ '9') ||
    c == '.' || c == '_' || c == '-' || c == '/'

def isSafeRelativePath (p : List Char) : Bool :=
  p != [] && (cut ['.', '.'] p).isNone && !p.contains ':' && p.all isPathChar

/-- The name below the web root. -/
def relativeName (path : List Char) : List Char :=
  if path.length ≤ 1 then "index.html".toList else path.drop 1

/-- What `fopen` is called with, if `serveStatic` comes to it. -/
def staticPath (srv : Server) (path : List Char) : Option (List Char) :=
  let rel := relativeName path
  if isSafeRelativePath rel then
    some (cString (srv.os.spell (srv.webRoot ++ srv.os.separator :: rel)))
  else none

/-- An open file: what `ftell` gives at its end, and what can be read. -/
structure OpenFile where
  size    : Int
  content : List Char

def missingIndex : String :=
  "<!doctype html><meta charset=\"utf-8\"><title>clumsy</title>" ++
  "<body style=\"font:14px system-ui;padding:2rem\">" ++
  "<h1>Dashboard files missing</h1>" ++
  "<p>Could not find <code>web/index.html</code> next to clumsy.exe. " ++
  "Copy the <code>etc/web/</code> folder into the output directory, or " ++
  "rebuild so the post-build step copies it.</p>" ++
  "<p>The REST API is unaffected: try <a href=\"/api/docs\">/api/docs</a>.</p>"

def serveStatic (srv : Server) (files : List Char → Option OpenFile) (path : List Char) :
    Response :=
  let rel := relativeName path
  match staticPath srv path with
  | none => sendText 403 "Forbidden"
  | some full =>
      match files full with
      | none =>
          if rel = "index.html".toList then
            { code := 200, contentType := "text/html; charset=utf-8", body := missingIndex.toList }
          else sendText 404 "Not Found"
      | some f =>
          if f.size < 0 ∨ f.size > 8 * 1024 * 1024 then sendText 500 "File too large"
          else { code := 200, contentType := mimeForPath rel, body := f.content.take f.size.toNat }

/-! ## Routing -/

/-- A call into the control API. -/
inductive Handler where
  | health | metrics | modules | stats | status | profiles | presets | docs | report | stream
  | setFilter (body : List Char)
  | stopCapture | quit
  | saveProfile (body : List Char)
  | savePreset (body : List Char)
  | scenarioLoad (body : List Char)
  | scenarioStart | scenarioStop
  | pcapStart (body : List Char)
  | pcapStop
  | applyInline (body : List Char)
  | scenarioLoadInline (body : List Char)
  | replayStart (body : List Char)
  | replayStop
  | applyProfile (name : List Char)
  | deleteProfile (name : List Char)
  | setModule (name body : List Char)
  deriving DecidableEq, Repr

inductive Action where
  | call (handler : Handler)
  | send (response : Response)
  | static (path : List Char)
  deriving DecidableEq

/-- What stands between the two texts, if it is not empty. -/
def matchWrapped (path before behind : List Char) : Option (List Char) :=
  if path.length ≤ before.length + behind.length then none
  else if path.take before.length ≠ before then none
  else if path.drop (path.length - behind.length) ≠ behind then none
  else some ((path.drop before.length).take (path.length - before.length - behind.length))

def getRoutes : List (String × Handler) :=
  [("/api/modules", .modules), ("/api/stats", .stats), ("/api/status", .status),
    ("/api/profiles", .profiles), ("/api/presets", .presets), ("/api/docs", .docs),
    ("/api/report", .report), ("/api/stream", .stream)]

def postRoutes (body : List Char) : List (String × Handler) :=
  [("/api/filter", .setFilter body), ("/api/stop", .stopCapture), ("/api/quit", .quit),
    ("/api/profiles", .saveProfile body), ("/api/presets", .savePreset body),
    ("/api/scenario/load", .scenarioLoad body), ("/api/scenario/start", .scenarioStart),
    ("/api/scenario/stop", .scenarioStop), ("/api/pcap/start", .pcapStart body),
    ("/api/pcap/stop", .pcapStop), ("/api/apply", .applyInline body),
    ("/api/scenario/loadinline", .scenarioLoadInline body),
    ("/api/replay/start", .replayStart body), ("/api/replay/stop", .replayStop)]

/-- The handler under a path. -/
def route (routes : List (String × Handler)) (path : List Char) : Option Handler :=
  (routes.find? fun r => r.1.toList == path).map Prod.snd

def getRequest (path : List Char) : Action :=
  match route getRoutes path with
  | some handler => .call handler
  | none =>
      if "/api/".toList.isPrefixOf path then .send (sendText 404 "Unknown API endpoint")
      else .static path

def postRequest (path body : List Char) : Action :=
  match route (postRoutes body) path with
  | some handler => .call handler
  | none =>
      match matchWrapped path "/api/profiles/".toList "/apply".toList with
      | some middle => .call (.applyProfile middle)
      | none =>
          match matchWrapped path "/api/profiles/".toList "/delete".toList with
          | some middle => .call (.deleteProfile middle)
          | none =>
              if "/api/modules/".toList.isPrefixOf path then
                .call (.setModule (path.drop 13) body)
              else .send (sendText 404 "Unknown API endpoint")

def routeRequest (srv : Server) (req : HttpRequest) : Action :=
  if req.path = "/api/health".toList then .call .health
  else if req.path = "/metrics".toList then .call .metrics
  else if ¬isAuthorized srv req then
    .send (sendJson 401 ("\x7b\"status\":\"error\",\"message\":\"missing or invalid token; " ++
      "pass ?token=... or the X-Clumsy-Token header\"\x7d"))
  else if req.method = "GET".toList then getRequest req.path
  else if req.method = "POST".toList then postRequest req.path req.body
  else .send (sendText 405 "Method Not Allowed")

/-- What a connection comes to.  A request that is malformed gets no answer. -/
def connectionThread (srv : Server) (conn : List Recv) : Option Action :=
  match readRequest conn with
  | .ok req => some (routeRequest srv req)
  | .error .tooLarge => some (.send (sendText 413 "Payload Too Large"))
  | .error .deadline => some (.send (sendText 408 "Request Timeout"))
  | .error .malformed => none

/-- What a connection has `fopen` called with. -/
def opened (srv : Server) (conn : List Recv) : Option (List Char) :=
  match connectionThread srv conn with
  | some (.static path) => staticPath srv path
  | _ => none

/-! ## Confinement -/

theorem Os.separates (os : Os) : os.isSeparator os.separator = true := by cases os <;> rfl

theorem Os.spell_append (os : Os) (a b : List Char) :
    os.spell (a ++ b) = os.spell a ++ os.spell b := by
  cases os with
  | windows => exact List.map_append
  | posix => rfl

theorem windows_separates (c : Char) :
    Os.windows.isSeparator (if c = '/' then '\\' else c) = Os.windows.isSeparator c := by
  by_cases slash : c = '/' <;> simp [Os.isSeparator, slash]

theorem windows_same (c : Char) (other : Os.windows.isSeparator c = false) :
    (if c = '/' then '\\' else c) = c := by
  simp only [Os.isSeparator, Bool.or_eq_false_iff, beq_eq_false_iff_ne] at other
  exact if_neg other.2

/-- The spelling of a path does not change where it leads. -/
theorem Os.normalise_spell (os : Os) (path : List Char) :
    normalise os.isSeparator (os.spell path) = normalise os.isSeparator path := by
  cases os with
  | posix => rfl
  | windows => exact normalise_map windows_separates windows_same path

theorem Os.mem_spell {os : Os} {path : List Char} {c : Char} (member : c ∈ os.spell path)
    (other : c ≠ '\\') : c ∈ path := by
  cases os with
  | posix => exact member
  | windows =>
      obtain ⟨d, inside, same⟩ := List.mem_map.1 member
      split_ifs at same
      · exact absurd same.symm other
      · exact same ▸ inside

/-- What `isSafeRelativePath` lets through. -/
theorem isSafeRelativePath_iff {p : List Char} :
    isSafeRelativePath p = true ↔
      p ≠ [] ∧ ¬['.', '.'] <:+: p ∧ ':' ∉ p ∧ ∀ c ∈ p, isPathChar c = true := by
  simp [isSafeRelativePath, cut_eq_none_iff, and_assoc]

theorem upToLast_subset (c : Char) (s : List Char) : upToLast c s ⊆ s := by
  intro d member
  rw [upToLast, List.mem_reverse] at member
  exact List.mem_reverse.1 (List.dropWhile_subset _ member)

theorem buildWebRoot_ne_nil (exe : List Char) : buildWebRoot exe ≠ [] := by
  simp [buildWebRoot, WEB_ROOT_DIR]

theorem buildWebRoot_free (exe : List Char) : '\x00' ∉ buildWebRoot exe := by
  rw [buildWebRoot, List.mem_append, not_or]
  refine ⟨fun member => cString_free exe ?_, by decide⟩
  split_ifs at member
  · exact upToLast_subset _ _ member
  · exact upToLast_subset _ _ member

/-- A name that is reckoned from the directory it stands behind and stays below it. -/
structure Plain (os : Os) (name : List Char) : Prop where
  relative    : name.head? ≠ some '/'
  noParent    : parentDirectory ∉ components os.isSeparator name
  noColon     : ':' ∉ name
  noBackslash : '\\' ∉ name
  noNul       : '\x00' ∉ name

/-- Behind its leading slashes, a name that was let through is plain. -/
theorem plain_of_safe {p : List Char} (safe : isSafeRelativePath p = true) (os : Os) :
    Plain os (p.dropWhile (· == '/')) := by
  obtain ⟨-, noDots, noColon, plain⟩ := isSafeRelativePath_iff.1 safe
  have inside : ∀ c ∈ p.dropWhile (· == '/'), c ∈ p := List.dropWhile_subset _
  exact {
    relative := by
      intro slash
      obtain ⟨rest, same⟩ := List.head?_eq_some_iff.1 slash
      have stopped := List.head?_dropWhile_not (· == '/') p
      simp [same] at stopped
    noParent := fun member =>
      noDots ((infix_of_mem_components member).trans (List.dropWhile_suffix _).isInfix)
    noColon := fun member => noColon (inside _ member)
    noBackslash := fun member => absurd (plain _ (inside _ member)) (by decide)
    noNul := fun member => absurd (plain _ (inside _ member)) (by decide) }

theorem staticPath_confined {srv : Server} (nonempty : srv.webRoot ≠ [])
    (free : '\x00' ∉ srv.webRoot) {path full : List Char}
    (opens : staticPath srv path = some full) :
    (∃ separators name,
      full = srv.os.spell srv.webRoot ++ separators ++ srv.os.spell name ∧ separators ≠ [] ∧
        (∀ c ∈ separators, c = srv.os.separator) ∧ Plain srv.os name) ∧
      (normalise srv.os.isSeparator srv.webRoot).Holds
        (normalise srv.os.isSeparator full) := by
  simp only [staticPath] at opens
  split_ifs at opens with safe
  set rel := relativeName path with named
  obtain ⟨-, noDots, -, plain⟩ := isSafeRelativePath_iff.1 safe
  have spelled : full = srv.os.spell (srv.webRoot ++ srv.os.separator :: rel) := by
    rw [← Option.some.inj opens]
    refine cString_of_free fun member => ?_
    have member := Os.mem_spell member (by decide)
    rcases List.mem_append.1 member with root | name
    · exact free root
    rcases List.mem_cons.1 name with separator | name
    · cases os : srv.os <;> simp [os, Os.separator] at separator
    · exact absurd (plain _ name) (by decide)
  constructor
  · refine ⟨srv.os.spell (srv.os.separator :: rel.takeWhile (· == '/')),
      rel.dropWhile (· == '/'), ?_, ?_, ?_, plain_of_safe safe srv.os⟩
    · rw [spelled, ← Os.spell_append, ← Os.spell_append, List.append_assoc, List.cons_append,
        List.takeWhile_append_dropWhile]
    · cases srv.os <;> simp [Os.spell]
    · intro c member
      have slashes : ∀ d ∈ rel.takeWhile (· == '/'), d = '/' := fun d inside => by
        simpa using List.mem_takeWhile_imp inside
      cases os : srv.os with
      | posix =>
          rw [os] at member
          rcases List.mem_cons.1 member with rfl | inside
          · rfl
          · exact slashes c inside
      | windows =>
          rw [os] at member
          obtain ⟨d, inside, rfl⟩ := List.mem_map.1 member
          rcases List.mem_cons.1 inside with rfl | inside
          · rfl
          · rw [if_pos (slashes d inside)]
            rfl
  · rw [spelled, Os.normalise_spell]
    exact holds_append srv.os.separates nonempty fun member =>
      noDots (infix_of_mem_components member)

/-- **Confinement.**  What a connection has opened is the web root, a separator or more and
a plain name, and leads to a place in the web root. -/
theorem opened_confined (os : Os) (exe : List Char) (authRequired : Bool)
    (serverToken : List Char) (conn : List Recv) (full : List Char)
    (opens : opened { os, webRoot := buildWebRoot exe, authRequired, serverToken } conn =
      some full) :
    (∃ separators name,
      full = os.spell (buildWebRoot exe) ++ separators ++ os.spell name ∧
        separators ≠ [] ∧ (∀ c ∈ separators, c = os.separator) ∧ Plain os name) ∧
      (normalise os.isSeparator (buildWebRoot exe)).Holds (normalise os.isSeparator full) := by
  rw [opened] at opens
  split at opens
  · exact staticPath_confined (buildWebRoot_ne_nil exe) (buildWebRoot_free exe) opens
  · cases opens

/-- A file of the dashboard. -/
theorem opened_confined_app :
    (normalise Os.posix.isSeparator (buildWebRoot "/opt/clumsy/clumsy".toList)).Holds
      (normalise Os.posix.isSeparator "/opt/clumsy/web/app.js".toList) :=
  (opened_confined .posix "/opt/clumsy/clumsy".toList false []
    [{ chunk := "GET /app.js HTTP/1.1\r\n\r\n".toList, late := false }] _ (by decide +kernel)).2

/-- Two dots do not pass in any writing. -/
example :
    (["/../a", "/%2e%2e/a", "/..%2fa", "/..%5Ca", "/a%00.js", "/C:a"].map fun target =>
      opened { os := .windows, webRoot := "web".toList, authRequired := false, serverToken := [] }
        [{ chunk := "GET ".toList ++ target.toList ++ " HTTP/1.1\r\n\r\n".toList
           late := false }]) = List.replicate 6 none := by
  decide +kernel

end Clumsy.Http
