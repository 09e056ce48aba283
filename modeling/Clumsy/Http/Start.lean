/-
# Http.Start -- httpserver.cpp: starting the server

`httpServerStart` settles whether requests need a token and which, tries the address and the
port and publishes a URL.  With a token of the caller's the server keeps as many bytes of it
as its store holds and writes these behind `?token=` as they are (`started`).
-/
import Clumsy.Http.Percent

namespace Clumsy.Http

open Clumsy.Text

set_option autoImplicit false

/-! ## The address -/

def MSG_BUFSIZE : Nat := 512

/-- `sizeof(serverToken)`. -/
def TOKEN_SIZE : Nat := 128

/-- One to three digits with a value of at most 255. -/
def isOctet (part : List Char) : Bool :=
  part != [] && decide (part.length ≤ 3) && part.all Char.isDigit &&
    decide (digitsValue part ≤ 255)

/-- `inet_pton(AF_INET, s, _) == 1`. -/
def isIPv4 (s : List Char) : Bool :=
  (s.splitOn '.').length == 4 && (s.splitOn '.').all isOctet

def loopback : List Char := "127.0.0.1".toList

def localhost : List Char := "localhost".toList

def isLoopbackAddress : Option (List Char) → Bool
  | none => true
  | some addr => addr == loopback || addr == localhost || addr == "::1".toList

/-- The address that the socket is bound to. -/
def resolved (bindAddr : Option (List Char)) : List Char :=
  if bindAddr.getD [] = [] ∨ bindAddr = some localhost then loopback else bindAddr.getD []

/-- The address in the URL. -/
def shown (bindAddr : Option (List Char)) : List Char :=
  if bindAddr.getD [] = [] then loopback else bindAddr.getD []

/-! ## The token -/

def ALPHABET : List Char :=
  "abcdefghijklmnopqrstuvwxyzABCDEFGHIJKLMNOPQRSTUVWXYZ0123456789".toList

/-- The letters that the generator gives, one after the other. -/
def letters : Nat → UInt32 → List Char
  | 0, _ => []
  | n + 1, seed =>
      let seed := seed * 1103515245 + 12345
      ALPHABET.getD ((seed >>> 16) % 62).toNat 'a' :: letters n seed

def generateToken (seed : UInt32) (outSize : Nat) : List Char := letters (min (outSize - 1) 24) seed

/-- The token that requests need, if they need one. -/
def serverToken (seed : UInt32) (bindAddr token : Option (List Char)) : Option (List Char) :=
  match token with
  | some (c :: s) => some ((c :: s).take (TOKEN_SIZE - 1))
  | _ => if isLoopbackAddress bindAddr then none else some (generateToken seed TOKEN_SIZE)

/-! ## Starting -/

/-- What the system gives while the server starts: whether its calls succeed, and the ticks
and the number of the process. -/
structure System where
  wsaStartup   : Bool
  socket       : Bool
  bind         : Bool
  listen       : Bool
  createThread : Bool
  tickCount    : UInt32
  processId    : UInt32
  exe          : List Char

def System.seed (sys : System) : UInt32 := sys.tickCount ^^^ sys.processId

/-- What `snprintf` leaves in `serverUrl`. -/
def serverUrl (bindAddr : Option (List Char)) (port : Int) (token : Option (List Char)) :
    List Char :=
  let url := "http://".toList ++ shown bindAddr ++ ':' :: (Nat.toDigits 10 port.toNat ++ ['/'])
  (match token with
    | some token => url ++ "?token=".toList ++ token
    | none => url).take (MSG_BUFSIZE - 1)

/-- The server and its URL. -/
def httpServerStart (os : Os) (sys : System) (bindAddr : Option (List Char)) (port : Int)
    (token : Option (List Char)) : Option (Server × List Char) :=
  if port ≤ 0 ∨ port > 65535 then none
  else if os = .windows ∧ sys.wsaStartup = false then none
  else
    let needed := serverToken sys.seed bindAddr token
    if sys.socket = false then none
    else if isIPv4 (resolved bindAddr) = false then none
    else if sys.bind = false then none
    else if sys.listen = false then none
    else if sys.createThread = false then none
    else
      some ({ os, webRoot := buildWebRoot sys.exe, authRequired := needed.isSome,
              serverToken := needed.getD [] }, serverUrl bindAddr port needed)

/-! ## What is published -/

theorem isOctet_digits {part : List Char} (octet : isOctet part = true) :
    part.length ≤ 3 ∧ ∀ c ∈ part, c.isDigit = true := by
  simp only [isOctet, Bool.and_eq_true, decide_eq_true_eq, List.all_eq_true] at octet
  exact ⟨octet.1.1.2, octet.1.2⟩

theorem length_isIPv4_le {s : List Char} (address : isIPv4 s = true) : s.length ≤ 15 := by
  rw [isIPv4, Bool.and_eq_true, beq_iff_eq, List.all_eq_true] at address
  obtain ⟨four, octets⟩ := address
  rw [← @List.intercalate_splitOn _ s _ _ '.']
  generalize s.splitOn '.' = parts at four octets
  match parts, four with
  | [a, b, c, d], _ =>
      have fits {part : List Char} (member : part ∈ [a, b, c, d]) : part.length ≤ 3 :=
        (isOctet_digits (octets part member)).1
      have first : a.length ≤ 3 := fits (by simp)
      have second : b.length ≤ 3 := fits (by simp)
      have third : c.length ≤ 3 := fits (by simp)
      have fourth : d.length ≤ 3 := fits (by simp)
      simp only [List.intercalate_cons_cons, List.intercalate_singleton, List.length_append,
        List.length_singleton]
      omega

theorem isIPv4_free {s : List Char} (address : isIPv4 s = true) {c : Char} (other : c ≠ '.')
    (noDigit : c.isDigit = false) : c ∉ s := by
  rw [isIPv4, Bool.and_eq_true, List.all_eq_true] at address
  have octets := address.2
  rw [← @List.intercalate_splitOn _ s _ _ '.']
  generalize s.splitOn '.' = parts at octets
  intro member
  have inside : c ∈ parts.flatten ∨ c ∈ ['.'] := by
    clear octets address
    induction parts with
    | nil => cases member
    | cons part parts ih =>
        cases parts with
        | nil =>
            rw [List.intercalate_singleton] at member
            exact .inl (by simpa using member)
        | cons next parts =>
            rw [List.intercalate_cons_cons, List.mem_append, List.mem_append] at member
            rcases member with (here | point) | there
            · exact .inl (List.mem_append_left _ here)
            · exact .inr point
            · exact (ih there).imp (List.mem_append_right _) id
  rcases inside with inside | point
  · obtain ⟨part, among, inside⟩ := List.mem_flatten.1 inside
    rw [(isOctet_digits (octets part among)).2 c inside] at noDigit
    cases noDigit
  · exact other (List.mem_singleton.1 point)

/-- The address in the URL is short and ends where the path begins. -/
theorem shown_plain {bindAddr : Option (List Char)} (address : isIPv4 (resolved bindAddr) = true) :
    (shown bindAddr).length ≤ 15 ∧ '/' ∉ shown bindAddr := by
  rw [resolved] at address
  rw [shown]
  by_cases empty : bindAddr.getD [] = []
  · rw [if_pos empty]
    exact ⟨by decide, by decide⟩
  · rw [if_neg empty]
    by_cases named : bindAddr = some localhost
    · rw [named]
      exact ⟨by decide, by decide⟩
    · rw [if_neg (not_or.2 ⟨empty, named⟩)] at address
      exact ⟨length_isIPv4_le address, isIPv4_free address (by decide) (by decide)⟩

/-- The path and the query of a URL, and its fragment. -/
def targetOf (url : List Char) : List Char :=
  (url.drop "http://".toList.length).dropWhile (· != '/')

/-- A server that starts with a token of the caller's keeps the front of it and publishes
just that. -/
theorem started {os : Os} {sys : System} {bindAddr : Option (List Char)} {port : Int}
    {token url : List Char} {srv : Server} (some_ : token ≠ [])
    (start : httpServerStart os sys bindAddr port (some token) = some (srv, url)) :
    srv.authRequired = true ∧ srv.serverToken = token.take (TOKEN_SIZE - 1) ∧
      targetOf url = "/?token=".toList ++ srv.serverToken := by
  have needed : serverToken sys.seed bindAddr (some token) =
      some (token.take (TOKEN_SIZE - 1)) := by
    cases token with
    | nil => exact absurd rfl some_
    | cons c s => rfl
  rw [httpServerStart] at start
  simp only [needed] at start
  split_ifs at start with range startup socket address bind listen thread
  cases start
  refine ⟨rfl, rfl, ?_⟩
  obtain ⟨short, free⟩ := shown_plain (by simpa using address)
  have digits : (Nat.toDigits 10 port.toNat).length ≤ 5 :=
    (Nat.length_toDigits_le_iff (by decide) (by decide)).2 (by omega)
  have noSlash : '/' ∉ shown bindAddr ++ ':' :: Nat.toDigits 10 port.toNat := by
    rw [List.mem_append, List.mem_cons, not_or, not_or]
    refine ⟨free, by decide, fun member => ?_⟩
    have digit := toDigits_isDigit _ member
    exact absurd digit (by decide)
  have whole : serverUrl bindAddr port (some (token.take (TOKEN_SIZE - 1))) =
      "http://".toList ++ (shown bindAddr ++ ':' :: Nat.toDigits 10 port.toNat) ++
        ("/?token=".toList ++ token.take (TOKEN_SIZE - 1)) := by
    rw [serverUrl, List.take_of_length_le]
    · simp
    · have kept := List.length_take_le (TOKEN_SIZE - 1) token
      simp [TOKEN_SIZE, MSG_BUFSIZE] at kept ⊢
      omega
  rw [whole, targetOf, List.append_assoc, List.drop_left]
  rw [List.dropWhile_append_of_pos]
  · rfl
  · intro c member
    have other : c ≠ '/' := by
      rintro rfl
      exact noSlash member
    simpa using other

end Clumsy.Http
