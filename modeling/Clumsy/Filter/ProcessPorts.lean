/-
# Filter.ProcessPorts -- procfilter_linux.cpp: which ports a process fragment covers

`buildProcessFilter` returns the number of ports that it found, and writes clauses for
them until 120 bytes or fewer are left of the buffer.  A fragment is always an expression,
and it matches exactly the ports it has a clause for (`fragment_compiles`).  These are
all of the counted ones as long as the clauses in front of the last one take less than
902 bytes (`covers_iff`): ten ports of five digits do, eleven do not.
-/
import Clumsy.Filter.Combine
import Clumsy.Filter.Literal

namespace Clumsy.Filter

open Clumsy.Theory
open Clumsy.Packet

set_option autoImplicit false

/-! ## What is written -/

/-- The return value of `buildProcessFilter`: the ports found, 0 without a process name
and -1 on a failure. -/
def buildProcessFilterResult (processName : List Char) (scan : ProcScan) : Int :=
  match buildProcessFilter processName scan with
  | .error _ => -1
  | .ok _ => if processName = [] then 0 else scan.ports.length

/-- The ports the return value counts. -/
def countedPorts (processName : List Char) (scan : ProcScan) : List UInt32 :=
  scan.ports.take (buildProcessFilterResult processName scan).toNat

theorem portsWritten_isPrefix (bufSize : Nat) (first : Bool) (pos : Nat) (ports : List UInt32) :
    portsWritten bufSize first pos ports <+: ports := by
  induction ports generalizing first pos with
  | nil => exact List.prefix_refl _
  | cons port ports ih =>
      rw [portsWritten]
      split
      · exact List.nil_prefix
      · exact List.cons_prefix_cons.2 ⟨rfl, ih _ _⟩

/-- Every port is written exactly if the loop gets to the last one. -/
theorem portsWritten_eq_iff {first : Bool} {pos : Nat} {ports : List UInt32} (some : ports ≠ []) :
    portsWritten filterBufsize first pos ports = ports ↔
      pos + (clauses first ports.dropLast).length < 904 := by
  have margin : filterBufsize - 120 = 904 := by decide
  induction ports generalizing first pos with
  | nil => exact absurd rfl some
  | cons port ports ih =>
      rw [portsWritten, margin]
      cases ports with
      | nil =>
          by_cases full : pos ≥ 904
          · simp [full, clauses]
          · simp [full, portsWritten, clauses]
            omega
      | cons next ports =>
          have rest := @ih false (pos + (portSeparator first ++ portClause port).length)
            (List.cons_ne_nil next ports)
          have front : pos + (clauses first (port :: next :: ports).dropLast).length =
              pos + (portSeparator first ++ portClause port).length +
                (clauses false (next :: ports).dropLast).length := by
            rw [List.dropLast_cons_cons, clauses, List.length_append, Nat.add_assoc]
          rw [front]
          split
          · rename_i full
            simp only [reduceCtorEq, false_iff]
            omega
          · rw [List.cons.injEq, and_iff_right rfl]
            exact rest

theorem portTest_room {name : String} (eleven : name.toList.length = 11) (port : UInt32) :
    (portTest name port).length = 15 + (unsigned port).length := by
  have equals : " == ".toList.length = 4 := by decide
  rw [portTest, List.length_append, List.length_append, eleven, equals]

/-- What the clause of a port takes with the separator in front. -/
def clauseRoom (port : UInt32) : Nat := 76 + 4 * (unsigned port).length

theorem portClause_room (port : UInt32) : (portClause port).length + 4 = clauseRoom port := by
  have separator : " or ".toList.length = 4 := by decide
  simp only [portClause, List.length_append, separator,
    portTest_room (show "tcp.SrcPort".toList.length = 11 by decide),
    portTest_room (show "tcp.DstPort".toList.length = 11 by decide),
    portTest_room (show "udp.SrcPort".toList.length = 11 by decide),
    portTest_room (show "udp.DstPort".toList.length = 11 by decide), clauseRoom]
  omega

theorem clauses_room (ports : List UInt32) :
    (clauses false ports).length = (ports.map clauseRoom).sum := by
  have separator : (portSeparator false).length = 4 := by decide
  induction ports with
  | nil => rfl
  | cons port ports ih =>
      have room := portClause_room port
      simp only [clauses, List.length_append, separator, ih, List.map_cons, List.sum_cons]
      omega

/-- **The clauses in front of the last one leave room for it.** -/
def LeavesRoom (ports : List UInt32) : Prop := (ports.dropLast.map clauseRoom).sum < 902

instance (ports : List UInt32) : Decidable (LeavesRoom ports) :=
  inferInstanceAs (Decidable (_ < _))

theorem portsWritten_eq_iff_leavesRoom {ports : List UInt32} (some : ports ≠ []) :
    portsWritten filterBufsize true 6 ports = ports ↔ LeavesRoom ports := by
  rw [portsWritten_eq_iff some, LeavesRoom]
  cases ports.dropLast with
  | nil => simp [clauses]
  | cons port rest =>
      have room := portClause_room port
      have separator : (portSeparator true).length = 0 := by decide
      simp only [clauses, List.length_append, separator, clauses_room, List.map_cons,
        List.sum_cons]
      omega

/-! ## What a fragment matches -/

/-- A TCP or UDP packet whose ports can be read. -/
structure ReadablePorts (packet : Bytes) : Prop where
  valid    : (extractFields packet).valid = true
  ports    : (extractFields packet).hasPorts = true
  protocol : (extractFields packet).protocol = 6 ∨ (extractFields packet).protocol = 17

/-- One of the ports is the source or the destination port of a packet. -/
def UsesPort (ports : List UInt32) (packet : Bytes) : Prop :=
  ∃ port ∈ ports,
    (extractFields packet).srcPort = port ∨ (extractFields packet).dstPort = port

/-- **A fragment covers some ports**: behind any filter in parentheses it is accepted and
leaves of the packets with ports those that use one of them. -/
def Covers (fragment : List Char) (ports : List UInt32) : Prop :=
  ∀ (filter : List Char) (alone : FilterProgram), filterCompile filter = .ok alone →
    isBlank filter = false →
      ∃ prog, filterCompile ('(' :: filter ++ ')' :: fragment) = .ok prog ∧
        ∀ (pktMeta : PacketMeta) (packet : Bytes), ReadablePorts packet →
          (filterMatch prog pktMeta packet = true ↔
            filterMatch alone pktMeta packet = true ∧ UsesPort ports packet)

theorem portAtoms_any (port : UInt32) (pktMeta : PacketMeta) {packet : Bytes}
    (readable : ReadablePorts packet) :
    (portAtoms port).any (Atom.holds pktMeta (extractFields packet)) = true ↔
      (extractFields packet).srcPort = port ∨ (extractFields packet).dstPort = port := by
  have same (x : UInt32) : Op.eq.holds x.toNat port.toNat = true ↔ x = port := by
    simp [Op.holds, UInt32.toNat_inj]
  rcases readable.protocol with tcp | udp
  · simp [portAtoms, Atom.holds, PacketFields.field?, readable.valid, readable.ports, tcp, same]
  · simp [portAtoms, Atom.holds, PacketFields.field?, readable.valid, readable.ports, udp, same]

theorem clauses_any (ports : List UInt32) (pktMeta : PacketMeta) {packet : Bytes}
    (readable : ReadablePorts packet) :
    (ports.flatMap portAtoms).any (Atom.holds pktMeta (extractFields packet)) = true ↔
      UsesPort ports packet := by
  rw [List.any_flatMap, List.any_eq_true]
  constructor
  · rintro ⟨port, member, holds⟩
    exact ⟨port, member, (portAtoms_any port pktMeta readable).1 holds⟩
  · rintro ⟨port, member, uses⟩
    exact ⟨port, member, (portAtoms_any port pktMeta readable).2 uses⟩

/-- **A fragment is accepted behind a filter**, and matches the ports it has a clause
for. -/
theorem fragment_compiles {ports : List UInt32} (some : ports ≠ []) {filter : List Char}
    {alone : FilterProgram} (accepted : filterCompile filter = .ok alone)
    (written : isBlank filter = false) :
    ∃ prog, filterCompile ('(' :: filter ++ ')' :: (" and (".toList ++ clauses true ports ++ [')']))
        = .ok prog ∧
      ∀ (pktMeta : PacketMeta) (packet : Bytes), ReadablePorts packet →
        (filterMatch prog pktMeta packet = true ↔
          filterMatch alone pktMeta packet = true ∧ UsesPort ports packet) := by
  obtain ⟨ψ, derives⟩ : ∃ ψ, Derives .or (terminals filter) ψ := by
    rcases derives_of_filterCompile accepted with blank | derives
    · rw [written] at blank
      cases blank
    · exact derives
  have compilesAlone := compiles_of_denotes accepted (.inr derives)
  obtain ⟨ts, χ, reads, derivesBody, value⟩ := alternatives_clauses some
  have fragment := fragment_of_reads (plain_clauses true ports) reads derivesBody
  have left : Derives .and (.lparen :: terminals filter ++ [.rparen]) ψ :=
    .andOne (.notOne (.paren derives))
  have whole := Derives.orOne (Derives.andMore left (t := .word ['a', 'n', 'd']) (by decide)
    (.notOne (.paren derivesBody)))
  have text : terminals ('(' :: filter ++ ')' ::
      (" and (".toList ++ clauses true ports ++ [')'])) =
        .lparen :: terminals filter ++ [.rparen] ++
          .word ['a', 'n', 'd'] :: (.lparen :: ts ++ [.rparen]) := by
    rw [terminals_paren, fragment.terminals_eq]
    simp
  rw [← text] at whole
  obtain ⟨prog, acceptedBoth, compiles⟩ := filterCompile_of_derives whole
  refine ⟨prog, acceptedBoth, ?_⟩
  intro pktMeta packet readable
  rw [filterMatch_eq_denote compiles, filterMatch_eq_denote compilesAlone, denote,
    Formula.eval_and, Bool.and_eq_true, value, clauses_any ports pktMeta readable]
  rfl

/-- A packet that uses one port only. -/
theorem readable_probe {port : Nat} (fits : port < 65536) : ReadablePorts (probe 6 port) := by
  obtain ⟨valid, has, protocol, _⟩ := probe_port_field (.inl rfl) fits
  exact ⟨valid, has, .inl protocol⟩

theorem usesPort_probe {port : UInt32} (fits : port.toNat < 65536) (ports : List UInt32) :
    UsesPort ports (probe 6 port.toNat) ↔ port ∈ ports := by
  obtain ⟨_, _, _, src, dst⟩ := probe_port_field (.inl rfl) fits
  constructor
  · rintro ⟨other, member, uses | uses⟩
    · rw [uses, UInt32.toNat_inj] at src
      rwa [← src]
    · rw [uses, UInt32.toNat_inj] at dst
      rwa [← dst]
  · intro member
    exact ⟨port, member, .inl (UInt32.toNat_inj.1 src)⟩

/-- A fragment covers distinct ports exactly if each of them has its clause. -/
theorem covers_iff_written {ports : List UInt32} (some : ports ≠ []) (distinct : ports.Nodup)
    (fit : ∀ port ∈ ports, port.toNat < 65536) :
    Covers (processFragment filterBufsize ports) ports ↔
      portsWritten filterBufsize true 6 ports = ports := by
  have start : 6 < filterBufsize - 120 := by decide
  have begun : portsWritten filterBufsize true 6 ports ≠ [] := portsWritten_ne_nil some start
  rw [processFragment_eq]
  constructor
  · intro covers
    by_contra short
    obtain ⟨rest, split⟩ := portsWritten_isPrefix filterBufsize true 6 ports
    obtain ⟨port, left⟩ : ∃ port, port ∈ rest := by
      apply List.exists_mem_of_ne_nil
      rintro rfl
      exact short (by simpa using split)
    have member : port ∈ ports := by
      rw [← split]
      exact List.mem_append_right _ left
    have lost : port ∉ portsWritten filterBufsize true 6 ports := by
      intro written
      rw [← split] at distinct
      exact (List.nodup_append.1 distinct).2.2 port written port left rfl
    have readable := readable_probe (fit port member)
    have derives : Derives .or (terminals "true".toList) .tt :=
      .orOne (.andOne (.notOne (.keyword (by decide))))
    obtain ⟨alone, accepted, compiles⟩ := filterCompile_of_derives derives
    have all (pktMeta : PacketMeta) (packet : Bytes) : filterMatch alone pktMeta packet = true :=
      filterMatch_eq_denote compiles pktMeta packet
    obtain ⟨prog, acceptedBoth, promised⟩ := covers _ alone accepted (by decide)
    obtain ⟨prog', acceptedBoth', actual⟩ := fragment_compiles begun accepted (by decide)
    rw [acceptedBoth] at acceptedBoth'
    cases acceptedBoth'
    have pktMeta : PacketMeta :=
      { outbound := true, ipVersion := 4, loopback := false, impostor := false, ifIdx := 0,
        subIfIdx := 0 }
    have both := (promised pktMeta _ readable).symm.trans (actual pktMeta _ readable)
    rw [usesPort_probe (fit port member), usesPort_probe (fit port member)] at both
    exact lost (both.1 ⟨all _ _, member⟩).2
  · intro whole filter alone accepted written
    rw [whole]
    exact fragment_compiles some accepted written

/-! ## Specification -/

/-- A successful call counts all ports it found. -/
theorem countedPorts_eq {processName fragment : List Char} {scan : ProcScan}
    (named : processName ≠ []) (built : buildProcessFilter processName scan = .ok fragment) :
    countedPorts processName scan = scan.ports := by
  simp [countedPorts, buildProcessFilterResult, built, named]

theorem fragment_eq {processName fragment : List Char} {scan : ProcScan}
    (named : processName ≠ []) (built : buildProcessFilter processName scan = .ok fragment) :
    fragment = processFragment filterBufsize scan.ports ∧ scan.ports ≠ [] := by
  unfold buildProcessFilter at built
  simp only at built
  split_ifs at built with none noPid noInode noPort
  · exact absurd none named
  · cases built
    exact ⟨rfl, noPort⟩

theorem buildProcessFilter_ok {processName : List Char} {scan : ProcScan}
    (named : processName ≠ []) (pids : scan.pidCount ≠ 0) (inodes : scan.inodeCount ≠ 0)
    (some : scan.ports ≠ []) :
    buildProcessFilter processName scan = .ok (processFragment filterBufsize scan.ports) := by
  unfold buildProcessFilter
  rw [if_neg named, if_neg pids, if_neg inodes, if_neg some]

/-- **The fragment covers the ports that are counted exactly if** the clauses in front of
the last one leave room for it. -/
theorem covers_iff {processName fragment : List Char} {scan : ProcScan}
    (named : processName ≠ []) (built : buildProcessFilter processName scan = .ok fragment)
    (distinct : scan.ports.Nodup) (fit : ∀ port ∈ scan.ports, port.toNat < 65536) :
    Covers fragment (countedPorts processName scan) ↔ LeavesRoom scan.ports := by
  obtain ⟨rfl, some⟩ := fragment_eq named built
  rw [countedPorts_eq named built, covers_iff_written some distinct fit,
    portsWritten_eq_iff_leavesRoom some]

theorem covers_iff_http :
    Covers (processFragment filterBufsize [80, 443])
      (countedPorts ['c', 'u', 'r', 'l'] ⟨1, 2, [80, 443]⟩) ↔ LeavesRoom [80, 443] :=
  covers_iff (by decide)
    (buildProcessFilter_ok (by decide) (by decide) (by decide) (by decide)) (by decide) (by simp)

/-- Eleven ports of five digits. -/
def elevenPorts : List UInt32 :=
  [40000, 40001, 40002, 40003, 40004, 40005, 40006, 40007, 40008, 40009, 40010]

/-- All eleven are counted, and the fragment has no clause for the last of them. -/
theorem eleven_not_covered :
    ∃ fragment, buildProcessFilter ['g', 'a', 'm', 'e'] ⟨1, 11, elevenPorts⟩ = .ok fragment ∧
      (countedPorts ['g', 'a', 'm', 'e'] ⟨1, 11, elevenPorts⟩).length = 11 ∧
        ¬Covers fragment (countedPorts ['g', 'a', 'm', 'e'] ⟨1, 11, elevenPorts⟩) := by
  have built := @buildProcessFilter_ok ['g', 'a', 'm', 'e'] ⟨1, 11, elevenPorts⟩ (by decide)
    (by decide) (by decide) (by decide)
  have counted := countedPorts_eq (by decide) built
  refine ⟨_, built, ?_, ?_⟩
  · rw [counted]
    rfl
  · rw [counted, covers_iff_written (by decide) (by decide) (by simp [elevenPorts]),
      portsWritten_eq_iff_leavesRoom (by decide)]
    decide

/-- Ten of them are. -/
example : LeavesRoom (elevenPorts.take 10) := by decide

end Clumsy.Filter
