/-
# Filter.Combine -- main.cpp, procfilter_linux.cpp: the filter a capture starts with

`appStartCapture` puts the user's filter in parentheses, appends the process
fragment and hands the text to `divertStart`, cut off at the size of its buffer.

The parentheses do their work as long as the filter closes none that it did not
open: `tcp) or (udp` is no filter, but `(tcp) or (udp)` is.  A text that is cut off
is refused by the compiler unless all of the fragment is gone.  `combined_iff`
says that nothing else goes wrong.
-/
import Clumsy.Filter.Balance
import Clumsy.Filter.Format

namespace Clumsy.Filter

open Clumsy.Theory
open Clumsy.Packet

set_option autoImplicit false

/-! ## The process fragment -/

/-- `FILTER_BUFSIZE`. -/
def filterBufsize : Nat := 1024

/-- One test of a port. -/
def portTest (name : String) (port : UInt32) : List Char :=
  name.toList ++ " == ".toList ++ unsigned port

/-- The format of one port. -/
def portClause (port : UInt32) : List Char :=
  portTest "tcp.SrcPort" port ++ " or ".toList ++ portTest "tcp.DstPort" port ++ " or ".toList ++
    portTest "udp.SrcPort" port ++ " or ".toList ++ portTest "udp.DstPort" port

/-- The separator in front of a port. -/
def portSeparator (first : Bool) : List Char := if first then [] else " or ".toList

/-- The loop over the ports. -/
def appendPorts (bufSize : Nat) : Bool → List UInt32 → List Char → List Char
  | _, [], buf => buf
  | first, port :: ports, buf =>
      if buf.length ≥ bufSize - 120 then buf
      else
        appendPorts bufSize false ports
          (appendf bufSize buf (portSeparator first ++ portClause port))

def processFragment (bufSize : Nat) (ports : List UInt32) : List Char :=
  appendf bufSize (appendPorts bufSize true ports (appendf bufSize [] " and (".toList)) [')']

/-- What the search of `/proc` for a process found. -/
structure ProcScan where
  pidCount   : Nat
  inodeCount : Nat
  ports      : List UInt32

/-- `buildProcessFilter`: the fragment, empty without a process, or the message of a
failure. -/
def buildProcessFilter (processName : List Char) (scan : ProcScan) : Except String (List Char) :=
  let name := String.ofList processName
  if processName = [] then .ok []
  else if scan.pidCount = 0 then .error ("Process '" ++ name ++ "' is not running.")
  else if scan.inodeCount = 0 then
    .error ("Found " ++ toString scan.pidCount ++ " process(es) named '" ++ name ++
      "' but could not read their sockets. " ++
      "Run clumsy as root to inspect other users' processes.")
  else if scan.ports = [] then
    .error ("Process '" ++ name ++ "' is running but has no active network ports.")
  else .ok (processFragment filterBufsize scan.ports)

/-! ## The combined filter -/

/-- `sizeof(combinedFilter)`. -/
def combinedBufsize : Nat := filterBufsize * 2 + 64

/-- `snprintf(combinedFilter, .., "(%s)%s%s", ..)`; the impostor clause is empty on
Linux. -/
def combinedFilter (filter fragment : List Char) : List Char :=
  ('(' :: filter ++ ')' :: fragment).take (combinedBufsize - 1)

/-- `appStartCapture` up to the text it hands to `divertStart`. -/
def appStartCapture (capturing isAdmin : Bool) (filter procName : List Char) (scan : ProcScan) :
    Except String (List Char) :=
  if filter = [] then .error "filter expression is empty"
  else if capturing then .error "already capturing"
  else if !isAdmin then
    .error ("clumsy needs CAP_NET_ADMIN to open an NFQUEUE. Run it under sudo, " ++
      "or grant it once with: sudo setcap cap_net_admin,cap_net_raw+ep ./clumsy")
  else
    match buildProcessFilter procName scan with
    | .error msg => .error msg
    | .ok fragment => .ok (combinedFilter filter fragment)

/-! ## The fragment is an expression -/

/-- The ports of the fragment, without its ends. -/
def clauses : Bool → List UInt32 → List Char
  | _, [] => []
  | first, port :: ports => portSeparator first ++ portClause port ++ clauses false ports

theorem portTest_length (name : String) (short : name.toList.length = 11) (port : UInt32) :
    (portTest name port).length ≤ 25 := by
  have size := unsigned_length port
  have equals : " == ".toList.length = 4 := by decide
  rw [portTest, List.length_append, List.length_append, short, equals]
  omega

theorem portClause_length (port : UInt32) : (portClause port).length ≤ 112 := by
  have a := portTest_length "tcp.SrcPort" (by decide) port
  have b := portTest_length "tcp.DstPort" (by decide) port
  have c := portTest_length "udp.SrcPort" (by decide) port
  have d := portTest_length "udp.DstPort" (by decide) port
  have separator : " or ".toList.length = 4 := by decide
  simp only [portClause, List.length_append, separator]
  omega

theorem portSeparator_length (first : Bool) : (portSeparator first).length ≤ 4 := by
  cases first <;> decide

/-- The ports the loop gets to from a position on. -/
def portsWritten (bufSize : Nat) : Bool → Nat → List UInt32 → List UInt32
  | _, _, [] => []
  | first, pos, port :: ports =>
      if pos ≥ bufSize - 120 then []
      else
        port :: portsWritten bufSize false
          (pos + (portSeparator first ++ portClause port).length) ports

/-- The loop appends the clauses of the ports it gets to, and none of them is cut. -/
theorem appendPorts_eq (first : Bool) (ports : List UInt32) (buf : List Char)
    (room : buf.length < filterBufsize - 4) :
    appendPorts filterBufsize first ports buf =
        buf ++ clauses first (portsWritten filterBufsize first buf.length ports) ∧
      (buf ++ clauses first (portsWritten filterBufsize first buf.length ports)).length <
        filterBufsize - 4 := by
  induction ports generalizing first buf with
  | nil => simpa [appendPorts, portsWritten, clauses] using room
  | cons port ports ih =>
      rw [appendPorts, portsWritten]
      split
      · simpa [clauses] using room
      · rename_i more
        have size := portClause_length port
        have size' := portSeparator_length first
        simp only [filterBufsize] at more room ⊢
        rw [appendf_fits (by rw [List.length_append]; omega)]
        obtain ⟨run, small⟩ := ih false (buf ++ (portSeparator first ++ portClause port))
          (by simp only [List.length_append, filterBufsize]; omega)
        simp only [filterBufsize, List.length_append] at run small ⊢
        rw [run]
        refine ⟨by simp [clauses], ?_⟩
        simp only [clauses, List.length_append] at small ⊢
        omega

theorem portsWritten_ne_nil {ports : List UInt32} (some : ports ≠ []) {first : Bool} {pos : Nat}
    (room : pos < filterBufsize - 120) : portsWritten filterBufsize first pos ports ≠ [] := by
  cases ports with
  | nil => exact absurd rfl some
  | cons port ports =>
      rw [portsWritten, if_neg (by omega)]
      simp

/-- **The fragment is never cut**: it is the clauses of the ports the loop gets to between
its ends. -/
theorem processFragment_eq (ports : List UInt32) :
    processFragment filterBufsize ports =
      " and (".toList ++ clauses true (portsWritten filterBufsize true 6 ports) ++ [')'] := by
  have start : appendf filterBufsize [] " and (".toList = " and (".toList := by decide
  obtain ⟨run, small⟩ := appendPorts_eq true ports " and (".toList (by decide)
  have six : " and (".toList.length = 6 := by decide
  rw [six] at run small
  rw [processFragment, start, run, appendf_fits]
  have : ([')'] : List Char).length = 1 := rfl
  omega

/-- A text is read as these terminals wherever no literal goes on behind it. -/
def ReadsAs (text : List Char) (ts : List Terminal) : Prop :=
  LiteralsOk ts ∧
    ∀ s us, Ends isLiteralChar s → Lexes s us → Lexes (text ++ s) (ts ++ us)

/-- A text is read as an expression. -/
def OrText (text : List Char) : Prop := ∃ ts φ, ReadsAs text ts ∧ Derives .or ts φ

/-- A name of a field that takes a number, in one piece. -/
structure PortName (name : String) : Prop where
  known : ∃ field, lookup fields name.toList = some field ∧ field.wantsAddr = false
  word  : ∃ c w, name.toList = c :: w ∧ isIdentStart c = true ∧ ∀ x ∈ w, isIdentChar x = true

theorem portName_tcpSrcPort : PortName "tcp.SrcPort" :=
  ⟨⟨.tcpSrcPort, by decide, rfl⟩, 't', "cp.SrcPort".toList, by decide, by decide,
    List.all_eq_true.1 (by decide)⟩

theorem portName_tcpDstPort : PortName "tcp.DstPort" :=
  ⟨⟨.tcpDstPort, by decide, rfl⟩, 't', "cp.DstPort".toList, by decide, by decide,
    List.all_eq_true.1 (by decide)⟩

theorem portName_udpSrcPort : PortName "udp.SrcPort" :=
  ⟨⟨.udpSrcPort, by decide, rfl⟩, 'u', "dp.SrcPort".toList, by decide, by decide,
    List.all_eq_true.1 (by decide)⟩

theorem portName_udpDstPort : PortName "udp.DstPort" :=
  ⟨⟨.udpDstPort, by decide, rfl⟩, 'u', "dp.DstPort".toList, by decide, by decide,
    List.all_eq_true.1 (by decide)⟩

theorem ends_space {p : Char → Bool} (stop : p ' ' = false) (s : List Char) :
    Ends p (' ' :: s) := by
  intro c first
  cases first
  exact stop

theorem lexes_unsigned (n : UInt32) {s : List Char} {ts : List Terminal}
    (ends : Ends isLiteralChar s) (rest : Lexes s ts) :
    Lexes (unsigned n ++ s) (.number n.toNat :: ts) := by
  have lexes := Lexes.number (w := unsigned n) Nat.toDigits_ne_nil
    (fun _ member => isDigit_of_mem_unsigned member) ends rest
  rw [decimal_unsigned] at lexes
  exact lexes

/-- One test of a port is read as a comparison. -/
theorem readsAs_portTest {name : String} (port : PortName name) {field : Field}
    (known : lookup fields name.toList = some field) (n : UInt32) :
    ReadsAs (portTest name n) [.word name.toList, .cmpOp .eq, .number n.toNat] ∧
      Derives .and [.word name.toList, .cmpOp .eq, .number n.toNat]
        (.atom (.cmp field .eq n.toNat)) := by
  obtain ⟨⟨field', known', kind⟩, c, w, shape, start, inside⟩ := port
  rw [known] at known'
  cases known'
  refine ⟨⟨?_, ?_⟩, .andOne (.notOne (.number known kind))⟩
  · intro t member
    simp only [List.mem_cons, List.not_mem_nil, or_false] at member
    rcases member with rfl | rfl | rfl
    · trivial
    · trivial
    · exact n.toNat_lt
  · intro s us ends rest
    have value := lexes_unsigned n ends rest
    have equals : Lexes (' ' :: '=' :: '=' :: ' ' :: (unsigned n ++ s))
        (.cmpOp .eq :: .number n.toNat :: us) :=
      .space rfl (.symbol2 (by decide) (.space rfl value))
    have whole := Lexes.word start inside (ends_space (by decide) _) equals
    rw [← shape] at whole
    have text : portTest name n ++ s =
        name.toList ++ ' ' :: '=' :: '=' :: ' ' :: (unsigned n ++ s) := by
      have four : " == ".toList = [' ', '=', '=', ' '] := by decide
      simp [portTest, four]
    rw [text]
    exact whole

theorem lexes_or {s : List Char} {ts : List Terminal} (rest : Lexes s ts) :
    Lexes (" or ".toList ++ s) (.word ['o', 'r'] :: ts) := by
  have four : " or ".toList = [' ', 'o', 'r', ' '] := by decide
  rw [four]
  exact .space rfl (.word (w := ['r']) rfl (List.all_eq_true.1 (by decide))
    (ends_space (by decide) s)
    (.space rfl rest))

/-- A text is read as the alternatives of some terms. -/
def Alternatives (text : List Char) (as : List Atom) : Prop :=
  ∃ ts φ, ReadsAs text ts ∧ Derives .or ts φ ∧ ∀ v : Atom → Bool, φ.eval v = as.any v

theorem Alternatives.orText {text : List Char} {as : List Atom} (h : Alternatives text as) :
    OrText text := by
  obtain ⟨ts, φ, reads, derives, _⟩ := h
  exact ⟨ts, φ, reads, derives⟩

/-- An expression goes on with another test. -/
theorem Alternatives.test {text : List Char} {as : List Atom} (h : Alternatives text as)
    {name : String} (port : PortName name) {field : Field}
    (known : lookup fields name.toList = some field) (n : UInt32) :
    Alternatives (text ++ " or ".toList ++ portTest name n) (as ++ [.cmp field .eq n.toNat]) := by
  obtain ⟨ts, φ, ⟨ok, reads⟩, derives, value⟩ := h
  obtain ⟨⟨ok', reads'⟩, derives'⟩ := readsAs_portTest port known n
  refine ⟨_, _, ⟨?_, ?_⟩, .orMore derives (t := .word ['o', 'r']) (by decide) derives', ?_⟩
  · intro t member
    rcases List.mem_append.1 member with h | h
    · exact ok t h
    · rcases List.mem_cons.1 h with rfl | h
      · trivial
      · exact ok' t h
  · intro s us ends rest
    have last := lexes_or (reads' s us ends rest)
    have four : " or ".toList = [' ', 'o', 'r', ' '] := by decide
    have all := reads _ _ (by rw [four]; exact ends_space (by decide) _) last
    simpa using all
  · intro v
    rw [Formula.eval_or, value, List.any_append]
    simp

theorem alternatives_portTest {name : String} (port : PortName name) {field : Field}
    (known : lookup fields name.toList = some field) (n : UInt32) :
    Alternatives (portTest name n) [.cmp field .eq n.toNat] := by
  obtain ⟨reads, derives⟩ := readsAs_portTest port known n
  exact ⟨_, _, reads, .orOne derives, by simp⟩

/-- The terms of one port. -/
def portAtoms (port : UInt32) : List Atom :=
  [.cmp .tcpSrcPort .eq port.toNat, .cmp .tcpDstPort .eq port.toNat,
    .cmp .udpSrcPort .eq port.toNat, .cmp .udpDstPort .eq port.toNat]

theorem lookup_tcpSrcPort : lookup fields "tcp.SrcPort".toList = some .tcpSrcPort := by decide

theorem lookup_tcpDstPort : lookup fields "tcp.DstPort".toList = some .tcpDstPort := by decide

theorem lookup_udpSrcPort : lookup fields "udp.SrcPort".toList = some .udpSrcPort := by decide

theorem lookup_udpDstPort : lookup fields "udp.DstPort".toList = some .udpDstPort := by decide

theorem alternatives_portClause (port : UInt32) : Alternatives (portClause port) (portAtoms port) :=
  (((alternatives_portTest portName_tcpSrcPort lookup_tcpSrcPort port).test portName_tcpDstPort
    lookup_tcpDstPort port).test portName_udpSrcPort lookup_udpSrcPort port).test
    portName_udpDstPort lookup_udpDstPort port

theorem Alternatives.portClause {text : List Char} {as : List Atom} (h : Alternatives text as)
    (port : UInt32) :
    Alternatives (text ++ (" or ".toList ++ Filter.portClause port)) (as ++ portAtoms port) := by
  have whole := (((h.test portName_tcpSrcPort lookup_tcpSrcPort port).test portName_tcpDstPort
    lookup_tcpDstPort port).test portName_udpSrcPort lookup_udpSrcPort port).test
    portName_udpDstPort lookup_udpDstPort port
  simpa [Filter.portClause, portAtoms] using whole

theorem Alternatives.clauses {text : List Char} {as : List Atom} (h : Alternatives text as)
    (ports : List UInt32) :
    Alternatives (text ++ Filter.clauses false ports) (as ++ ports.flatMap portAtoms) := by
  induction ports generalizing text as with
  | nil => simpa [Filter.clauses] using h
  | cons port ports ih =>
      have more := ih (h.portClause port)
      simpa [Filter.clauses, portSeparator] using more

/-- The clauses of some ports are read as all of their terms. -/
theorem alternatives_clauses {ports : List UInt32} (some : ports ≠ []) :
    Alternatives (clauses true ports) (ports.flatMap portAtoms) := by
  cases ports with
  | nil => exact absurd rfl some
  | cons port ports => exact (alternatives_portClause port).clauses ports

theorem orText_clauses {ports : List UInt32} (some : ports ≠ []) : OrText (clauses true ports) :=
  (alternatives_clauses some).orText

/-- No parenthesis in a text. -/
def Plain (s : List Char) : Prop := '(' ∉ s ∧ ')' ∉ s

theorem Plain.append {s t : List Char} (first : Plain s) (second : Plain t) : Plain (s ++ t) := by
  simp only [Plain, List.mem_append] at *
  tauto

theorem Plain.take {s : List Char} (plain : Plain s) (n : Nat) : Plain (s.take n) :=
  ⟨fun member => plain.1 (List.mem_of_mem_take member),
    fun member => plain.2 (List.mem_of_mem_take member)⟩

theorem plain_unsigned (n : UInt32) : Plain (unsigned n) := by
  have digits : ∀ c ∈ unsigned n, c.isDigit = true :=
    fun _ member => isDigit_of_mem_unsigned member
  exact ⟨fun member => absurd (digits _ member) (by decide),
    fun member => absurd (digits _ member) (by decide)⟩

theorem plain_portTest {name : String} (plain : Plain name.toList) (port : UInt32) :
    Plain (portTest name port) :=
  (plain.append (by unfold Plain; decide)).append (plain_unsigned port)

theorem plain_portClause (port : UInt32) : Plain (portClause port) := by
  have separator : Plain " or ".toList := by
    unfold Plain
    decide
  have a : Plain (portTest "tcp.SrcPort" port) := plain_portTest (by unfold Plain; decide) port
  have b : Plain (portTest "tcp.DstPort" port) := plain_portTest (by unfold Plain; decide) port
  have c : Plain (portTest "udp.SrcPort" port) := plain_portTest (by unfold Plain; decide) port
  have d : Plain (portTest "udp.DstPort" port) := plain_portTest (by unfold Plain; decide) port
  exact (((((a.append separator).append b).append separator).append c).append separator).append d

theorem plain_clauses (first : Bool) (ports : List UInt32) : Plain (clauses first ports) := by
  induction ports generalizing first with
  | nil => simp [Plain, clauses]
  | cons port ports ih =>
      have separator : Plain (portSeparator first) := by
        unfold Plain
        cases first <;> decide
      exact (separator.append (plain_portClause port)).append (ih false)

/-- A process fragment: ` and `, and an expression without parentheses in a pair of
them. -/
structure Fragment (fragment body : List Char) (ts : List Terminal) (χ : Formula Atom) : Prop where
  text     : fragment = ' ' :: 'a' :: 'n' :: 'd' :: ' ' :: '(' :: (body ++ [')'])
  plain    : Plain body
  derives  : Derives .or ts χ
  terminal : terminals body = ts

/-- An expression between the ends is a fragment. -/
theorem fragment_of_reads {body : List Char} {ts : List Terminal} {χ : Formula Atom}
    (plain : Plain body) (reads : ReadsAs body ts) (derives : Derives .or ts χ) :
    Fragment (" and (".toList ++ body ++ [')']) body ts χ := by
  refine ⟨?_, plain, derives, ?_⟩
  · have six : " and (".toList = [' ', 'a', 'n', 'd', ' ', '('] := by decide
    rw [six]
    simp
  · have lexes := reads.2 [] [] (by simp [Ends]) .done
    rw [List.append_nil, List.append_nil] at lexes
    exact terminals_of_lexes lexes reads.1

theorem exists_fragment {processName : List Char} {scan : ProcScan} {fragment : List Char}
    (built : buildProcessFilter processName scan = .ok fragment) :
    fragment = [] ∨ ∃ body ts χ, Fragment fragment body ts χ := by
  unfold buildProcessFilter at built
  simp only at built
  split at built
  · cases built
    exact .inl rfl
  split at built
  · cases built
  split at built
  · cases built
  split at built
  · cases built
  rename_i some
  cases built
  right
  rw [processFragment_eq]
  have start : 6 < filterBufsize - 120 := by decide
  obtain ⟨ts, χ, reads, derives⟩ := orText_clauses (portsWritten_ne_nil some start)
  exact ⟨_, ts, χ, fragment_of_reads (plain_clauses _ _) reads derives⟩

namespace Fragment

variable {fragment body : List Char} {ts : List Terminal} {χ : Formula Atom}

theorem terminals_body (h : Fragment fragment body ts χ) :
    terminals (body ++ [')']) = ts ++ [.rparen] := by
  rw [terminals_split, h.terminal]
  rfl

theorem terminals_eq (h : Fragment fragment body ts χ) :
    terminals fragment = .word ['a', 'n', 'd'] :: .lparen :: ts ++ [.rparen] := by
  have lexed (s : List Char) : next (' ' :: 'a' :: 'n' :: 'd' :: ' ' :: s) =
      ({ kind := .ident, text := ['a', 'n', 'd'] }, ' ' :: s) := by
    rw [next_space _ rfl]
    exact next_word (w := ['n', 'd']) rfl (List.all_eq_true.1 (by decide))
      (ends_space (by decide) s)
  have skipped (s : List Char) : terminals (' ' :: s) = terminals s := by
    rw [terminals, terminals, tokens_eq, next_space s rfl, ← tokens_eq]
  rw [h.text]
  refine terminals_step (lexed _) (by simp) rfl ?_
  rw [skipped, terminals_lparen, h.terminals_body]
  rfl

/-- The expression of the fragment is accepted by itself. -/
theorem accepted (h : Fragment fragment body ts χ) :
    ∃ prog, filterCompile (fragment.drop 5) = .ok prog ∧ prog.Compiles χ := by
  apply filterCompile_of_derives
  have text : fragment.drop 5 = '(' :: (body ++ [')']) := by rw [h.text]; rfl
  rw [text, terminals_lparen, h.terminals_body]
  exact .orOne (.andOne (.notOne (.paren h.derives)))

end Fragment

/-! ## What is left of the combined text -/

/-- A filter never closes a parenthesis that it did not open. -/
def NeverOverclosed (filter : List Char) : Prop := ∀ n, 0 ≤ textDepth (filter.take n)

/-- What of the fragment fits behind the filter. -/
def keptFragment (filter fragment : List Char) : List Char :=
  fragment.take (combinedBufsize - 1 - (filter.length + 2))

theorem textDepth_paren (s t : List Char) :
    textDepth ('(' :: s ++ ')' :: t) = textDepth s + textDepth t := by
  have opening : textDepth ['('] = 1 := rfl
  have closing : textDepth [')'] = -1 := rfl
  rw [List.cons_append, textDepth_cons, textDepth_append, textDepth_cons ')', opening, closing]
  omega

theorem terminals_paren (s t : List Char) :
    terminals ('(' :: s ++ ')' :: t) = .lparen :: (terminals s ++ .rparen :: terminals t) := by
  rw [List.cons_append, terminals_lparen, terminals_split]

theorem combinedFilter_eq {filter fragment : List Char}
    (fits : filter.length + 2 < combinedBufsize) :
    combinedFilter filter fragment = '(' :: filter ++ ')' :: keptFragment filter fragment := by
  obtain ⟨k, size⟩ : ∃ k, combinedBufsize - 1 = filter.length + 2 + k :=
    ⟨combinedBufsize - 1 - (filter.length + 2), by omega⟩
  unfold combinedFilter keptFragment
  rw [size, Nat.add_sub_cancel_left]
  have shape : '(' :: filter ++ ')' :: fragment = ('(' :: filter ++ [')']) ++ fragment := by simp
  have length : filter.length + 2 + k = ('(' :: filter ++ [')']).length + k := by simp
  rw [shape, length, List.take_length_add_append]
  simp

theorem combinedFilter_cut {filter fragment : List Char}
    (cut : ¬filter.length + 2 < combinedBufsize) :
    combinedFilter filter fragment = '(' :: filter.take (combinedBufsize - 2) := by
  have bound : combinedBufsize - 2 ≤ filter.length := by omega
  have size : combinedBufsize - 1 = combinedBufsize - 2 + 1 := by decide
  unfold combinedFilter
  rw [size, List.cons_append, List.take_succ_cons, List.take_append_of_le_length bound]

theorem denotes_combined {filter fragment : List Char} {prog : FilterProgram}
    (accepted : filterCompile (combinedFilter filter fragment) = .ok prog) :
    ∃ θ, Derives .or (terminals (combinedFilter filter fragment)) θ := by
  rcases derives_of_filterCompile accepted with blank | derives
  · have written : combinedFilter filter fragment =
        '(' :: (filter ++ ')' :: fragment).take (combinedBufsize - 2) := rfl
    rw [written] at blank
    cases blank
  · exact derives

theorem textDepth_kept {fragment body : List Char} {ts : List Terminal} {χ : Formula Atom}
    (h : Fragment fragment body ts χ) (n : Nat) : 0 ≤ textDepth (fragment.take n) := by
  have balanced : Nested (terminals fragment) := by
    rw [h.terminals_eq]
    exact Nested.flat rfl h.derives.nested.paren
  exact ((nested_terminals_iff fragment).1 balanced).2 n

/-- **What an accepted text says about the filter** that never closes too much: it is
all there, it is an expression, and the rest is balanced. -/
theorem filter_derives {filter fragment : List Char} {prog : FilterProgram}
    (proper : fragment = [] ∨ ∃ body ts χ, Fragment fragment body ts χ)
    (accepted : filterCompile (combinedFilter filter fragment) = .ok prog)
    (never : NeverOverclosed filter) :
    filter.length + 2 < combinedBufsize ∧ textDepth (keptFragment filter fragment) = 0 ∧
      ∃ ψ, Derives .or (terminals filter) ψ := by
  obtain ⟨θ, derives⟩ := denotes_combined accepted
  have total : textDepth (combinedFilter filter fragment) = 0 := by
    rw [← depth_terminals, derives.nested.total]
  have whole : 0 ≤ textDepth filter := by
    have := never filter.length
    rwa [List.take_length] at this
  have fits : filter.length + 2 < combinedBufsize := by
    by_contra cut
    have opening : textDepth ['('] = 1 := rfl
    have := never (combinedBufsize - 2)
    rw [combinedFilter_cut cut, textDepth_cons, opening] at total
    omega
  have kept : 0 ≤ textDepth (keptFragment filter fragment) := by
    rcases proper with rfl | ⟨body, ts, χ, h⟩
    · simp [keptFragment]
    · exact textDepth_kept h _
  rw [combinedFilter_eq fits] at total derives
  rw [textDepth_paren] at total
  have balanced : Nested (terminals filter) :=
    (nested_terminals_iff filter).2 ⟨by omega, never⟩
  rw [terminals_paren] at derives
  obtain ⟨inner, tail, ψ, same, found⟩ := derives.head_paren rfl
  obtain ⟨rfl, _⟩ := balanced.cut_unique found.nested same
  exact ⟨fits, by omega, ψ, found⟩

/-- Behind a closed parenthesis, a proper part of a fragment is refused unless it is
blank. -/
theorem kept_or_dropped {fragment body : List Char} {ts us : List Terminal} {χ θ : Formula Atom}
    (h : Fragment fragment body ts χ) (n : Nat)
    (derives : Derives .or (us ++ terminals (fragment.take n)) θ)
    (balanced : textDepth (fragment.take n) = 0) :
    fragment.take n = fragment ∨ isBlank (fragment.take n) = true := by
  have ends {w : List Char} (last : terminals (fragment.take n) = [.word w])
      (unknown : lookup keywordFormulas w = none) : False := by
    rw [last] at derives
    obtain ⟨vs, t, shape, closes⟩ := derives.getLast
    obtain ⟨_, same⟩ := List.append_inj' shape rfl
    cases same
    simp [Terminal.closes, unknown] at closes
  rw [h.text] at ends balanced ⊢
  by_cases long : 6 ≤ n
  · obtain ⟨n, rfl⟩ : ∃ k, n = k + 6 := ⟨n - 6, by omega⟩
    left
    by_cases short : n ≤ body.length
    · have plain := h.plain.take n
      have flat := textDepth_plain plain.1 plain.2
      simp only [List.take_succ_cons, List.take_append_of_le_length short] at balanced
      have front : textDepth (' ' :: 'a' :: 'n' :: 'd' :: ' ' :: '(' :: body.take n) =
          1 + textDepth (body.take n) := textDepth_append [' ', 'a', 'n', 'd', ' ', '('] _
      omega
    · have all : (body ++ [')']).take n = body ++ [')'] := by
        rw [List.take_of_length_le]
        simp only [List.length_append, List.length_singleton]
        omega
      simp only [List.take_succ_cons, all]
  · obtain rfl | rfl | rfl | rfl | rfl | rfl :
        n = 0 ∨ n = 1 ∨ n = 2 ∨ n = 3 ∨ n = 4 ∨ n = 5 := by omega
    · exact .inr rfl
    · exact .inr rfl
    · exact (ends (w := ['a']) rfl (by decide)).elim
    · exact (ends (w := ['a', 'n']) rfl (by decide)).elim
    · exact (ends (w := ['a', 'n', 'd']) rfl (by decide)).elim
    · exact (ends (w := ['a', 'n', 'd']) rfl (by decide)).elim

/-! ## Specification -/

/-- Whether the expression of a fragment matches; without a process everything does. -/
def fragmentMatch (fragment : List Char) (pktMeta : PacketMeta) (packet : Bytes) : Bool :=
  if fragment = [] then true
  else
    match filterCompile (fragment.drop 5) with
    | .ok prog => filterMatch prog pktMeta packet
    | .error _ => false

/-- The program is the conjunction of the user's filter, which is a filter by itself,
and the process fragment. -/
def Conjoins (filter fragment : List Char) (prog : FilterProgram) : Prop :=
  ∃ alone, filterCompile filter = .ok alone ∧
    ∀ (pktMeta : PacketMeta) (packet : Bytes),
      filterMatch prog pktMeta packet =
        (filterMatch alone pktMeta packet && fragmentMatch fragment pktMeta packet)

/-- The filter by itself matches only what the fragment matches. -/
def Implies (filter fragment : List Char) : Prop :=
  ∀ alone, filterCompile filter = .ok alone → ∀ (pktMeta : PacketMeta) (packet : Bytes),
    filterMatch alone pktMeta packet = true → fragmentMatch fragment pktMeta packet = true

theorem fragmentMatch_eq {fragment body : List Char} {ts : List Terminal} {χ : Formula Atom}
    (h : Fragment fragment body ts χ) (pktMeta : PacketMeta) (packet : Bytes) :
    fragmentMatch fragment pktMeta packet = denote χ pktMeta packet := by
  obtain ⟨prog, accepted, compiles⟩ := h.accepted
  have some : fragment ≠ [] := by
    rw [h.text]
    simp
  rw [fragmentMatch, if_neg some, accepted]
  exact filterMatch_eq_denote compiles pktMeta packet

theorem neverOverclosed_of_accepted {filter : List Char} {alone : FilterProgram}
    (accepted : filterCompile filter = .ok alone) : NeverOverclosed filter := by
  have balanced : Nested (terminals filter) := by
    rcases derives_of_filterCompile accepted with blank | ⟨φ, derives⟩
    · rw [terminals_blank blank]
      exact nested_nil
    · exact derives.nested
  exact ((nested_terminals_iff filter).1 balanced).2

/-- The whole fragment is there: the text compiles to the conjunction. -/
theorem compiles_kept {filter fragment body : List Char} {ts : List Terminal}
    {ψ χ : Formula Atom} {prog : FilterProgram} (h : Fragment fragment body ts χ)
    (fits : filter.length + 2 < combinedBufsize) (derives : Derives .or (terminals filter) ψ)
    (accepted : filterCompile (combinedFilter filter fragment) = .ok prog)
    (kept : keptFragment filter fragment = fragment) : prog.Compiles (.and ψ χ) := by
  refine compiles_of_denotes accepted (.inr ?_)
  rw [combinedFilter_eq fits, kept, terminals_paren, h.terminals_eq]
  have left : Derives .and (.lparen :: terminals filter ++ [.rparen]) ψ :=
    .andOne (.notOne (.paren derives))
  have both := Derives.andMore left (t := .word ['a', 'n', 'd']) (by decide)
    (.notOne (.paren h.derives))
  have whole := Derives.orOne both
  simpa using whole

/-- Nothing of the fragment is there: the text compiles to the filter. -/
theorem compiles_dropped {filter fragment : List Char} {ψ : Formula Atom} {prog : FilterProgram}
    (fits : filter.length + 2 < combinedBufsize) (derives : Derives .or (terminals filter) ψ)
    (accepted : filterCompile (combinedFilter filter fragment) = .ok prog)
    (dropped : isBlank (keptFragment filter fragment) = true) : prog.Compiles ψ := by
  refine compiles_of_denotes accepted (.inr ?_)
  rw [combinedFilter_eq fits, terminals_paren, terminals_blank dropped]
  exact .orOne (.andOne (.notOne (.paren derives)))

/-- Of a fragment that does not fit, what is compiled has all or nothing. -/
theorem kept_or_dropped_of_accepted {filter fragment body : List Char} {ts : List Terminal}
    {χ : Formula Atom} {prog : FilterProgram} (h : Fragment fragment body ts χ)
    (fits : filter.length + 2 < combinedBufsize)
    (balanced : textDepth (keptFragment filter fragment) = 0)
    (accepted : filterCompile (combinedFilter filter fragment) = .ok prog) :
    keptFragment filter fragment = fragment ∨ isBlank (keptFragment filter fragment) = true := by
  obtain ⟨θ, whole⟩ := denotes_combined accepted
  rw [combinedFilter_eq fits, terminals_paren] at whole
  have front : Derives .or ((.lparen :: terminals filter ++ [.rparen]) ++
      terminals (keptFragment filter fragment)) θ := by simpa using whole
  exact kept_or_dropped h _ front balanced

/-- What a start that succeeds compiles. -/
theorem combined_of_started {capturing isAdmin : Bool}
    {filter procName fragment combined : List Char} {scan : ProcScan}
    (built : buildProcessFilter procName scan = .ok fragment)
    (started : appStartCapture capturing isAdmin filter procName scan = .ok combined) :
    combined = combinedFilter filter fragment := by
  unfold appStartCapture at started
  split at started
  · cases started
  split at started
  · cases started
  split at started
  · cases started
  rw [built] at started
  cases started
  rfl

/-- **The combined filter is the conjunction exactly if** the user's filter closes no
parenthesis that it did not open and the fragment is not cut off, or cutting it off
makes no difference. -/
theorem combined_iff {capturing isAdmin : Bool} {filter procName fragment combined : List Char}
    {scan : ProcScan} {prog : FilterProgram}
    (built : buildProcessFilter procName scan = .ok fragment)
    (started : appStartCapture capturing isAdmin filter procName scan = .ok combined)
    (accepted : filterCompile combined = .ok prog) :
    Conjoins filter fragment prog ↔
      NeverOverclosed filter ∧
        (fragment = [] ∨ filter.length + 2 + fragment.length < combinedBufsize ∨
          Implies filter fragment) := by
  have text := combined_of_started built started
  subst text
  have proper := exists_fragment built
  constructor
  · rintro ⟨alone, acceptedAlone, same⟩
    have never := neverOverclosed_of_accepted acceptedAlone
    refine ⟨never, ?_⟩
    obtain ⟨fits, balanced, ψ, derives⟩ := filter_derives proper accepted never
    rcases proper with none | ⟨body, ts, χ, h⟩
    · exact .inl none
    right
    rcases kept_or_dropped_of_accepted h fits balanced accepted with kept | dropped
    · left
      have lengths := congrArg List.length kept
      rw [keptFragment, List.length_take] at lengths
      omega
    · right
      intro other acceptedOther pktMeta packet matched
      have compiles := compiles_dropped fits derives accepted dropped
      have compiles' := compiles_of_denotes acceptedOther (.inr derives)
      rw [filterMatch_eq_denote compiles', ← filterMatch_eq_denote compiles, same] at matched
      exact (Bool.and_eq_true_iff.1 matched).2
  · rintro ⟨never, enough⟩
    obtain ⟨fits, balanced, ψ, derives⟩ := filter_derives proper accepted never
    obtain ⟨alone, acceptedAlone, compilesAlone⟩ := filterCompile_of_derives derives
    refine ⟨alone, acceptedAlone, ?_⟩
    intro pktMeta packet
    rw [filterMatch_eq_denote compilesAlone]
    rcases proper with rfl | ⟨body, ts, χ, h⟩
    · have dropped : isBlank (keptFragment filter []) = true := by simp [keptFragment, isBlank]
      rw [filterMatch_eq_denote (compiles_dropped fits derives accepted dropped)]
      simp [fragmentMatch]
    rcases kept_or_dropped_of_accepted h fits balanced accepted with kept | dropped
    · rw [filterMatch_eq_denote (compiles_kept h fits derives accepted kept), fragmentMatch_eq h]
      rfl
    · rw [filterMatch_eq_denote (compiles_dropped fits derives accepted dropped)]
      rcases enough with none | small | implies
      · rw [none] at h
        cases h.text
      · have all : keptFragment filter fragment = fragment :=
          List.take_of_length_le (by omega)
        have blank : isBlank (keptFragment filter fragment) = true := dropped
        rw [all, h.text] at blank
        cases blank
      · have matched := implies alone acceptedAlone pktMeta packet
        rw [filterMatch_eq_denote compilesAlone] at matched
        cases value : denote ψ pktMeta packet with
        | false => rfl
        | true => rw [matched value]; rfl

/-- The filter of a process with one port, in front of which a disjunction stands. -/
theorem combined_iff_process :
    ∃ combined prog,
      appStartCapture false true "tcp or udp".toList "curl".toList ⟨1, 1, [443]⟩ = .ok combined ∧
        filterCompile combined = .ok prog ∧
        Conjoins "tcp or udp".toList (processFragment filterBufsize [443]) prog := by
  have built : buildProcessFilter "curl".toList ⟨1, 1, [443]⟩ =
      .ok (processFragment filterBufsize [443]) := rfl
  have started : appStartCapture false true "tcp or udp".toList "curl".toList ⟨1, 1, [443]⟩ =
      .ok (combinedFilter "tcp or udp".toList (processFragment filterBufsize [443])) := rfl
  have compiles : ((filterCompile (combinedFilter "tcp or udp".toList
      (processFragment filterBufsize [443]))).toOption.any fun _ => true) = true := by
    decide +kernel
  have alone : ((filterCompile "tcp or udp".toList).toOption.any fun _ => true) = true := by decide
  obtain ⟨prog, accepted, -⟩ := exists_compiled compiles
  obtain ⟨_, acceptedAlone, -⟩ := exists_compiled alone
  exact ⟨_, prog, started, accepted, (combined_iff built started accepted).2
    ⟨neverOverclosed_of_accepted acceptedAlone, .inr (.inl (by decide +kernel))⟩⟩

/-- `tcp) or (udp` is refused by itself and accepted by `appStartCapture`. -/
theorem overclosed_filter_starts :
    ∃ combined prog,
      appStartCapture false true "tcp) or (udp".toList [] ⟨0, 0, []⟩ = .ok combined ∧
        filterCompile combined = .ok prog ∧ ¬Conjoins "tcp) or (udp".toList [] prog := by
  have compiles : ((filterCompile "(tcp) or (udp)".toList).toOption.any fun _ => true) = true := by
    decide
  obtain ⟨prog, accepted, -⟩ := exists_compiled compiles
  refine ⟨"(tcp) or (udp)".toList, prog, by rfl, accepted, ?_⟩
  rintro ⟨alone, acceptedAlone, _⟩
  have refused : (filterCompile "tcp) or (udp".toList).toOption.isSome = false := by decide
  rw [acceptedAlone] at refused
  cases refused

end Clumsy.Filter
