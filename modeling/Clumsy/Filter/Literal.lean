/-
# Filter.Literal -- what a literal means

A comparison compiles to one with the 32 bits the lexer kept of its literal.  On every
packet it is the comparison with the literal's own value exactly if the literal is below
2^32 or what was kept lies past every value the field can have (`Survives`).  A dotted
literal has a value only if its octets have one byte each, and the check of the octets
sees what was kept of them.
-/
import Clumsy.Filter.Correct
import Clumsy.Filter.Fields

namespace Clumsy.Filter

open Clumsy.Theory
open Clumsy.Packet

set_option autoImplicit false

/-! ## Literals of a text -/

/-- The text compares a field with a number. -/
def Compares (ts : List Terminal) (field : Field) (op : Op) (n : Nat) : Prop :=
  ∃ w, lookup fields w = some field ∧ [.word w, .cmpOp op, .number n] <:+: ts

/-- One more than the largest value of the field in a packet. -/
def Field.bound : Field → Nat
  | .ipSrc | .ipDst => 2 ^ 32
  | .ipProto => 256
  | .tcpSrcPort | .tcpDstPort | .udpSrcPort | .udpDstPort => 65536

/-- The number fits 32 bits, or what is kept of it is as far out of the field's reach. -/
def Survives (field : Field) (op : Op) (n : Nat) : Prop :=
  n < 2 ^ 32 ∨ field.bound ≤ (kept n).toNat + if op = .gt ∨ op = .le then 1 else 0

structure LiteralsSurvive (ts : List Terminal) : Prop where
  octets {a b c d : Nat} (here : .addr a b c d ∈ ts) :
    a < 2 ^ 32 ∧ b < 2 ^ 32 ∧ c < 2 ^ 32 ∧ d < 2 ^ 32
  numbers {field : Field} {op : Op} {n : Nat} (here : Compares ts field op n) :
    Survives field op n

/-- The octets of every dotted literal have one byte each. -/
def OctetsOk (ts : List Terminal) : Prop :=
  ∀ a b c d, .addr a b c d ∈ ts → a ≤ 255 ∧ b ≤ 255 ∧ c ≤ 255 ∧ d ≤ 255

theorem OctetsOk.mono {ts us : List Terminal} (ok : OctetsOk ts) (sub : us ⊆ ts) : OctetsOk us :=
  fun a b c d here => ok a b c d (sub here)

/-! ## Meaning -/

def SameOnPackets (a b : Atom) : Prop :=
  ∀ (pktMeta : PacketMeta) (packet : Bytes),
    a.holds pktMeta (extractFields packet) = b.holds pktMeta (extractFields packet)

/-- The formula of a text with the values its literals have. -/
def Says (s : List Char) (ts : List Terminal) (φ : Formula Atom) : Prop :=
  (isBlank s = true ∧ φ = .tt) ∨ Derives .or ts φ

/-- The literals of a compiled text mean what they say: the dotted ones are addresses, and
the program stands for the formula of the text, comparison by comparison. -/
structure MeansValues (s : List Char) (ts : List Terminal) (prog : FilterProgram) : Prop where
  octets : OctetsOk ts
  compared : ∃ φ ψ, Says s ts φ ∧ prog.Compiles ψ ∧ φ.Alike SameOnPackets ψ

/-! ## Values past a field's reach -/

/-- A value past the bound compares with all below it as another one does, if that one is
past it too; `>` and `<=` cannot tell the last one below from those past it. -/
theorem Op.holds_far {op : Op} {n k b : Nat} (far : b ≤ n) :
    (∀ v < b, op.holds v n = op.holds v k) ↔ b ≤ k + if op = .gt ∨ op = .le then 1 else 0 := by
  constructor
  · intro same
    by_contra near
    have at_k := same k
    have at_next := same (k + 1)
    cases op <;> simp [holds] at at_k at_next near <;> omega
  · intro past v low
    rw [Bool.eq_iff_iff]
    cases op <;> simp [holds] at past ⊢ <;> omega

theorem Op.holds_kept_iff {field : Field} {op : Op} {n : Nat} (fits : field.bound ≤ 2 ^ 32) :
    (∀ v < field.bound, op.holds v n = op.holds v (kept n).toNat) ↔ Survives field op n := by
  by_cases small : n < 2 ^ 32
  · rw [kept_of_lt small]
    exact ⟨fun _ => .inl small, fun _ _ _ => rfl⟩
  · rw [Op.holds_far (by omega), Survives, or_iff_right small]

/-! ## Values a field has -/

theorem read16be_lt (p : Bytes) (i : Nat) : p.read16be i < 65536 := by
  have high := (p.byteAt i).toNat_lt
  have low := (p.byteAt (i + 1)).toNat_lt
  rw [Bytes.read16be]
  omega

theorem extractPorts_lt (p : Bytes) (transportOffset : Nat) {f : PacketFields}
    (src : f.srcPort.toNat < 65536) (dst : f.dstPort.toNat < 65536) :
    (extractPorts p transportOffset f).srcPort.toNat < 65536 ∧
      (extractPorts p transportOffset f).dstPort.toNat < 65536 := by
  have word (i : Nat) : (UInt32.ofNat (p.read16be i)).toNat < 65536 := by
    have small := read16be_lt p i
    rw [UInt32.toNat_ofNat', Nat.mod_eq_of_lt (by omega)]
    exact small
  unfold extractPorts
  split
  · exact ⟨word _, word _⟩
  · exact ⟨src, dst⟩

/-- Protocols are bytes and ports 16-bit words. -/
theorem extractFields_lt (p : Bytes) :
    (extractFields p).protocol.toNat < 256 ∧ (extractFields p).srcPort.toNat < 65536 ∧
      (extractFields p).dstPort.toNat < 65536 := by
  have byte (i : Nat) : (p.byteAt i).toUInt32.toNat < 256 := by
    rw [UInt8.toNat_toUInt32]
    exact (p.byteAt i).toNat_lt
  have none : (0 : UInt32).toNat < 65536 := by decide
  have ports (transportOffset : Nat) {f : PacketFields} (protocol : f.protocol.toNat < 256)
      (src : f.srcPort.toNat < 65536) (dst : f.dstPort.toNat < 65536) :
      (extractPorts p transportOffset f).protocol.toNat < 256 ∧
        (extractPorts p transportOffset f).srcPort.toNat < 65536 ∧
        (extractPorts p transportOffset f).dstPort.toNat < 65536 := by
    rw [(extractPorts_keeps p transportOffset f).2.2]
    exact ⟨protocol, extractPorts_lt p transportOffset src dst⟩
  have empty : ({} : PacketFields).protocol.toNat < 256 ∧
      ({} : PacketFields).srcPort.toNat < 65536 ∧ ({} : PacketFields).dstPort.toNat < 65536 := by
    decide
  unfold extractFields
  simp only
  split_ifs
  · exact empty
  · exact empty
  · exact ⟨byte 9, none, none⟩
  · exact ports _ (byte 9) none none
  · exact empty
  · exact ports _ (byte 6) none none
  · exact empty

theorem field?_lt {p : Bytes} {field : Field} {v : Nat}
    (read : (extractFields p).field? field = some v) : v < field.bound := by
  obtain ⟨protocol, src, dst⟩ := extractFields_lt p
  cases field with
  | ipSrc | ipDst =>
      simp only [PacketFields.field?, Option.ite_none_right_eq_some, Option.some.injEq] at read
      rw [← read.2]
      exact UInt32.toNat_lt _
  | ipProto =>
      simp only [PacketFields.field?, Option.some.injEq] at read
      rw [← read]
      exact protocol
  | tcpSrcPort | udpSrcPort =>
      simp only [PacketFields.field?, Option.ite_none_right_eq_some, Option.some.injEq] at read
      rw [← read.2]
      exact src
  | tcpDstPort | udpDstPort =>
      simp only [PacketFields.field?, Option.ite_none_right_eq_some, Option.some.injEq] at read
      rw [← read.2]
      exact dst

/-- An IPv4 packet of a protocol, with the same word for both ports. -/
def probe (protocol port : Nat) : Bytes :=
  [0x45, 0, 0, 24, 0, 0, 0, 0, 64, UInt8.ofNat protocol, 0, 0, 10, 0, 0, 1, 10, 0, 0, 2,
    UInt8.ofNat (port / 256), UInt8.ofNat port, UInt8.ofNat (port / 256), UInt8.ofNat port]

theorem extractFields_probe (protocol port : Nat) :
    extractFields (probe protocol port) =
      extractPorts (probe protocol port) 20
        { isV4 := true, protocol := (UInt8.ofNat protocol).toUInt32
          srcAddr := read32be (probe protocol port) 12
          dstAddr := read32be (probe protocol port) 16 } := by
  have version : ((probe protocol port).byteAt 0).toNat / 16 = 4 := by
    simp [probe, Bytes.byteAt]
  have header : ((probe protocol port).byteAt 0).toNat % 16 * 4 = 20 := by
    simp [probe, Bytes.byteAt]
  have whole : (probe protocol port).read16be 6 = 0 := by
    simp [probe, Bytes.read16be, Bytes.byteAt]
  rw [extractFields, if_neg (by simp [probe])]
  simp only
  rw [if_pos version, header, if_neg (by simp [probe]), if_neg (by simp [whole])]
  rfl

theorem probe_ports (protocol : Nat) {port : Nat} (fits : port < 65536) :
    (probe protocol port).read16be 20 = port ∧ (probe protocol port).read16be 22 = port := by
  have word : (UInt8.ofNat (port / 256)).toNat * 256 + (UInt8.ofNat port).toNat = port := by
    rw [UInt8.toNat_ofNat', UInt8.toNat_ofNat']
    omega
  exact ⟨word, word⟩

/-- A port field of the probe has the port, where the probe is of the field's protocol. -/
theorem probe_port_field {protocol : Nat} (known : protocol = 6 ∨ protocol = 17) {port : Nat}
    (fits : port < 65536) :
    (extractFields (probe protocol port)).valid = true ∧
      (extractFields (probe protocol port)).hasPorts = true ∧
      (extractFields (probe protocol port)).protocol = UInt32.ofNat protocol ∧
      (extractFields (probe protocol port)).srcPort.toNat = port ∧
      (extractFields (probe protocol port)).dstPort.toNat = port := by
  obtain ⟨src, dst⟩ := probe_ports protocol fits
  rw [extractFields_probe]
  have kept := extractPorts_keeps (probe protocol port) 20
    { isV4 := true, protocol := (UInt8.ofNat protocol).toUInt32
      srcAddr := read32be (probe protocol port) 12
      dstAddr := read32be (probe protocol port) 16 }
  have ports := @extractPorts_ports (probe protocol port) 20
    { isV4 := true, protocol := (UInt8.ofNat protocol).toUInt32
      srcAddr := read32be (probe protocol port) 12
      dstAddr := read32be (probe protocol port) 16 }
    (by rcases known with rfl | rfl <;> simp) (by simp [probe])
  refine ⟨kept.1, ports.1, ?_, ports.2.1.trans src, ports.2.2.trans dst⟩
  rw [kept.2.2]
  rcases known with rfl | rfl <;> rfl

/-- **Every value below its bound is the field's value in some packet.** -/
theorem exists_field? {field : Field} (kind : field.wantsAddr = false) {v : Nat}
    (low : v < field.bound) :
    ∃ packet, (extractFields packet).valid = true ∧
      (extractFields packet).field? field = some v := by
  cases field with
  | ipSrc | ipDst => cases kind
  | ipProto =>
      refine ⟨probe v 0, ?_, ?_⟩
      · rw [extractFields_probe]
        exact (extractPorts_keeps _ _ _).1
      · rw [PacketFields.field?, extractFields_probe, (extractPorts_keeps _ _ _).2.2]
        simp only [UInt8.toNat_toUInt32, UInt8.toNat_ofNat']
        exact congrArg some (Nat.mod_eq_of_lt low)
  | tcpSrcPort =>
      obtain ⟨valid, has, protocol, src, _⟩ := probe_port_field (.inl rfl) low
      exact ⟨probe 6 v, valid, by simp [PacketFields.field?, has, protocol, src]⟩
  | tcpDstPort =>
      obtain ⟨valid, has, protocol, _, dst⟩ := probe_port_field (.inl rfl) low
      exact ⟨probe 6 v, valid, by simp [PacketFields.field?, has, protocol, dst]⟩
  | udpSrcPort =>
      obtain ⟨valid, has, protocol, src, _⟩ := probe_port_field (.inr rfl) low
      exact ⟨probe 17 v, valid, by simp [PacketFields.field?, has, protocol, src]⟩
  | udpDstPort =>
      obtain ⟨valid, has, protocol, _, dst⟩ := probe_port_field (.inr rfl) low
      exact ⟨probe 17 v, valid, by simp [PacketFields.field?, has, protocol, dst]⟩

/-! ## One comparison -/

/-- What a comparison compiles to: the number as far as it was kept. -/
def Atom.kept : Atom → Atom
  | .cmp field op value =>
      .cmp field op (if field.wantsAddr then value else (Filter.kept value).toNat)
  | a => a

/-- **A comparison keeps its meaning exactly if its number survives.** -/
theorem sameOnPackets_kept_iff {field : Field} (kind : field.wantsAddr = false) (op : Op)
    (n : Nat) :
    SameOnPackets (.cmp field op n) (Atom.cmp field op n).kept ↔ Survives field op n := by
  have fits : field.bound ≤ 2 ^ 32 := by cases field <;> decide
  rw [← Op.holds_kept_iff fits, Atom.kept, kind]
  constructor
  · intro same v low
    obtain ⟨packet, valid, read⟩ := exists_field? kind low
    have here := same
      { outbound := true, ipVersion := 4, loopback := false, impostor := false, ifIdx := 0
        subIfIdx := 0 } packet
    rw [Atom.holds, Atom.holds, valid, read] at here
    exact here
  · intro same pktMeta packet
    rw [Atom.holds, Atom.holds]
    cases read : (extractFields packet).field? field with
    | none => rfl
    | some v =>
        have equal := same v (field?_lt read)
        simp only [Option.any_some, equal]
        rfl

/-! ## What the lexer makes of a derivation -/

/-- Terminals the lexer never makes of another one. -/
def Terminal.isPlain : Terminal → Bool
  | .number _ | .addr _ _ _ _ | .badDotted | .junk => false
  | _ => true

theorem lexed_of_plain {t : Terminal} (plain : t.isPlain = true) : t.lexed = t := by
  cases t <;> first | rfl | cases plain

theorem eq_of_lexed {t u : Terminal} (same : t.lexed = u) (plain : u.isPlain = true) : t = u := by
  subst same
  cases t with
  | number | badDotted => cases plain
  | addr a b c d =>
      rw [Terminal.lexed] at plain
      split at plain <;> cases plain
  | _ => rfl

theorem plain_of_isOr {t : Terminal} (word : t.isOr = true) : t.isPlain = true := by
  cases t <;> first | rfl | cases word

theorem plain_of_isAnd {t : Terminal} (word : t.isAnd = true) : t.isPlain = true := by
  cases t <;> first | rfl | cases word

theorem plain_of_isNot {t : Terminal} (word : t.isNot = true) : t.isPlain = true := by
  cases t <;> first | rfl | cases word

theorem number_of_lexed {t : Terminal} {n : Nat} (same : t.lexed = .number n) :
    ∃ m, t = .number m ∧ n = (kept m).toNat := by
  cases t with
  | number m =>
      cases same
      exact ⟨m, rfl, rfl⟩
  | addr a b c d =>
      rw [Terminal.lexed] at same
      split at same <;> cases same
  | _ => cases same

theorem addr_of_lexed {t : Terminal} {a b c d : Nat} (same : t.lexed = .addr a b c d) :
    ∃ a' b' c' d', t = .addr a' b' c' d' ∧
      (a = (kept a').toNat ∧ b = (kept b').toNat ∧ c = (kept c').toNat ∧ d = (kept d').toNat) ∧
      a ≤ 255 ∧ b ≤ 255 ∧ c ≤ 255 ∧ d ≤ 255 := by
  cases t with
  | addr a' b' c' d' =>
      rw [Terminal.lexed] at same
      split at same
      · cases same
      · rename_i small
        cases same
        simp only [not_or] at small
        have within {n : Nat} (h : ¬kept n > 255) : (kept n).toNat ≤ 255 :=
          (kept_le (k := 255) (by decide)).1 h
        exact ⟨a', b', c', d', rfl, ⟨rfl, rfl, rfl, rfl⟩, within small.1, within small.2.1,
          within small.2.2.1, within small.2.2.2⟩
  | _ => cases same

theorem lexed_addr {a b c d : Nat} (ok : a ≤ 255 ∧ b ≤ 255 ∧ c ≤ 255 ∧ d ≤ 255) :
    (Terminal.addr a b c d).lexed = .addr a b c d := Terminal.lexed_of_ok ok

/-- Keywords have no literals. -/
theorem keyword_kept {w : List Char} {φ : Formula Atom}
    (known : lookup keywordFormulas w = some φ) :
    φ.map Atom.kept = φ ∧ ∀ a ∈ φ.atoms, a.kept = a := by
  obtain ⟨name, member, _⟩ := lookup_mem known
  have all : ∀ entry ∈ keywordFormulas,
      entry.2.map Atom.kept = entry.2 ∧ ∀ a ∈ entry.2.atoms, a.kept = a := by decide
  exact all _ member

/-- **A derivation of what the lexer read is one of the text**, of the formula it denotes with
the values of the literals. -/
theorem Derives.of_lexed {level : Level} {us ts : List Terminal} {ψ : Formula Atom}
    (derives : Derives level us ψ) (read : us = ts.map Terminal.lexed) (ok : OctetsOk ts) :
    ∃ φ, Derives level ts φ ∧ ψ = φ.map Atom.kept := by
  induction derives generalizing ts with
  | orOne _ ih =>
      obtain ⟨φ, one, same⟩ := ih read ok
      exact ⟨φ, .orOne one, same⟩
  | @orMore _ _ t _ _ _ word _ ihl ihr =>
      obtain ⟨ls, rs, rfl, left, right⟩ := List.map_eq_append_iff.1 read.symm
      obtain ⟨t', rs, rfl, same, rest⟩ := List.map_eq_cons_iff.1 right
      cases eq_of_lexed same (plain_of_isOr word)
      obtain ⟨φ, derivesL, rfl⟩ := ihl left.symm (ok.mono (by simp))
      obtain ⟨ψ, derivesR, rfl⟩ := ihr rest.symm (ok.mono (by simp))
      exact ⟨.or φ ψ, .orMore derivesL word derivesR, rfl⟩
  | andOne _ ih =>
      obtain ⟨φ, one, same⟩ := ih read ok
      exact ⟨φ, .andOne one, same⟩
  | @andMore _ _ t _ _ _ word _ ihl ihr =>
      obtain ⟨ls, rs, rfl, left, right⟩ := List.map_eq_append_iff.1 read.symm
      obtain ⟨t', rs, rfl, same, rest⟩ := List.map_eq_cons_iff.1 right
      cases eq_of_lexed same (plain_of_isAnd word)
      obtain ⟨φ, derivesL, rfl⟩ := ihl left.symm (ok.mono (by simp))
      obtain ⟨ψ, derivesR, rfl⟩ := ihr rest.symm (ok.mono (by simp))
      exact ⟨.and φ ψ, .andMore derivesL word derivesR, rfl⟩
  | notOne _ ih =>
      obtain ⟨φ, one, same⟩ := ih read ok
      exact ⟨φ, .notOne one, same⟩
  | notMore word _ ih =>
      obtain ⟨t', rs, rfl, same, rest⟩ := List.map_eq_cons_iff.1 read.symm
      cases eq_of_lexed same (plain_of_isNot word)
      obtain ⟨φ, operand, rfl⟩ := ih rest.symm (ok.mono (by simp))
      exact ⟨.not φ, .notMore word operand, rfl⟩
  | paren _ ih =>
      obtain ⟨ls, rs, rfl, left, right⟩ := List.map_eq_append_iff.1 read.symm
      obtain ⟨opening, ls, rfl, same, inside⟩ := List.map_eq_cons_iff.1 left
      obtain ⟨closing, rs, rfl, same', nothing⟩ := List.map_eq_cons_iff.1 right
      cases eq_of_lexed same rfl
      cases eq_of_lexed same' rfl
      cases List.map_eq_nil_iff.1 nothing
      obtain ⟨φ, inner, rfl⟩ := ih inside.symm (ok.mono (by simp))
      exact ⟨φ, .paren inner, rfl⟩
  | keyword known =>
      obtain ⟨t, rs, rfl, same, rest⟩ := List.map_eq_cons_iff.1 read.symm
      cases eq_of_lexed same rfl
      cases List.map_eq_nil_iff.1 rest
      exact ⟨_, .keyword known, (keyword_kept known).1.symm⟩
  | @number w field op n known kind =>
      obtain ⟨name, rs, rfl, same, rest⟩ := List.map_eq_cons_iff.1 read.symm
      obtain ⟨symbol, rs, rfl, same', value⟩ := List.map_eq_cons_iff.1 rest
      obtain ⟨literal, rs, rfl, same'', nothing⟩ := List.map_eq_cons_iff.1 value
      cases eq_of_lexed same rfl
      cases eq_of_lexed same' rfl
      cases List.map_eq_nil_iff.1 nothing
      obtain ⟨m, rfl, rfl⟩ := number_of_lexed same''
      exact ⟨_, .number known kind, by simp [Formula.map, Atom.kept, kind]⟩
  | @addr w field op a b c d known kind =>
      obtain ⟨name, rs, rfl, same, rest⟩ := List.map_eq_cons_iff.1 read.symm
      obtain ⟨symbol, rs, rfl, same', value⟩ := List.map_eq_cons_iff.1 rest
      obtain ⟨literal, rs, rfl, same'', nothing⟩ := List.map_eq_cons_iff.1 value
      cases eq_of_lexed same rfl
      cases eq_of_lexed same' rfl
      cases List.map_eq_nil_iff.1 nothing
      obtain ⟨a', b', c', d', rfl, _, _⟩ := addr_of_lexed same''
      rw [lexed_addr (ok a' b' c' d' (by simp))] at same''
      cases same''
      exact ⟨_, .addr known kind, by simp [Formula.map, Atom.kept, kind]⟩

/-- The lexer reads a derivation of the same shape. -/
theorem Derives.lexed {level : Level} {ts : List Terminal} {φ : Formula Atom}
    (derives : Derives level ts φ) (ok : OctetsOk ts) :
    Derives level (ts.map Terminal.lexed) (φ.map Atom.kept) := by
  induction derives with
  | orOne _ ih => exact .orOne (ih ok)
  | orMore _ word _ ihl ihr =>
      rw [List.map_append, List.map_cons, lexed_of_plain (plain_of_isOr word)]
      exact .orMore (ihl (ok.mono (by simp))) word (ihr (ok.mono (by simp)))
  | andOne _ ih => exact .andOne (ih ok)
  | andMore _ word _ ihl ihr =>
      rw [List.map_append, List.map_cons, lexed_of_plain (plain_of_isAnd word)]
      exact .andMore (ihl (ok.mono (by simp))) word (ihr (ok.mono (by simp)))
  | notOne _ ih => exact .notOne (ih ok)
  | notMore word _ ih =>
      rw [List.map_cons, lexed_of_plain (plain_of_isNot word)]
      exact .notMore word (ih (ok.mono (by simp)))
  | paren _ ih =>
      rw [List.map_append, List.map_cons]
      exact .paren (ih (ok.mono (by simp)))
  | keyword known =>
      rw [(keyword_kept known).1]
      exact .keyword known
  | @number w field op n known kind =>
      have same : (Formula.atom (.cmp field op n)).map Atom.kept =
          .atom (.cmp field op (kept n).toNat) := by simp [Formula.map, Atom.kept, kind]
      rw [same]
      exact .number known kind
  | @addr w field op a b c d known kind =>
      have same (value : Nat) : (Formula.atom (.cmp field op value)).map Atom.kept =
          .atom (.cmp field op value) := by simp [Formula.map, Atom.kept, kind]
      rw [same, List.map_cons, List.map_cons, List.map_cons, lexed_addr (ok a b c d (by simp))]
      exact .addr known kind

/-! ## Comparisons of a derivation -/

theorem Compares.mono {ts us : List Terminal} {field : Field} {op : Op} {n : Nat}
    (compares : Compares us field op n) (inside : us <:+: ts) : Compares ts field op n := by
  obtain ⟨w, known, here⟩ := compares
  exact ⟨w, known, here.trans inside⟩

/-- An atom with a number of the text is a comparison of the text. -/
theorem Derives.atom_compares {level : Level} {ts : List Terminal} {φ : Formula Atom}
    (derives : Derives level ts φ) {a : Atom} (member : a ∈ φ.atoms) :
    a.kept = a ∨ ∃ field op n, a = .cmp field op n ∧ field.wantsAddr = false ∧
      Compares ts field op n := by
  have wider {us ts : List Terminal} (inside : us <:+: ts)
      (found : a.kept = a ∨ ∃ field op n, a = .cmp field op n ∧ field.wantsAddr = false ∧
        Compares us field op n) :
      a.kept = a ∨ ∃ field op n, a = .cmp field op n ∧ field.wantsAddr = false ∧
        Compares ts field op n := by
    rcases found with same | ⟨field, op, n, rfl, kind, compares⟩
    · exact .inl same
    · exact .inr ⟨field, op, n, rfl, kind, compares.mono inside⟩
  induction derives with
  | orOne _ ih | andOne _ ih | notOne _ ih => exact ih member
  | @orMore ts us t _ _ _ _ _ ihl ihr | @andMore ts us t _ _ _ _ _ ihl ihr =>
      rcases List.mem_append.1 member with h | h
      · exact wider (List.prefix_append _ _).isInfix (ihl h)
      · exact wider ((List.suffix_cons t us).trans (List.suffix_append ts _)).isInfix (ihr h)
  | notMore _ _ ih => exact wider (List.suffix_cons _ _).isInfix (ih member)
  | @paren ts _ _ ih => exact wider ⟨[.lparen], [.rparen], rfl⟩ (ih member)
  | keyword known => exact .inl ((keyword_kept known).2 a member)
  | @number w field op n known kind =>
      cases List.mem_singleton.1 member
      exact .inr ⟨field, op, n, rfl, kind, w, known, List.infix_rfl⟩
  | @addr w field op a b c d known kind =>
      cases List.mem_singleton.1 member
      left
      simp [Atom.kept, kind]

/-- Around an element it does not have, an infix lies on one side. -/
theorem infix_beside {α : Type} {l xs ys : List α} {t : α} (apart : t ∉ l)
    (inside : l <:+: xs ++ t :: ys) : l <:+: xs ∨ l <:+: ys := by
  have front {k : List α} (none : t ∉ k) (start : k <+: t :: ys) : k = [] := by
    cases k with
    | nil => rfl
    | cons u k =>
        cases (List.cons_prefix_cons.1 start).1
        exact absurd List.mem_cons_self none
  rcases List.infix_append_iff.1 inside with h | h | ⟨first, second, rfl, h, h'⟩
  · exact .inl h
  · rcases List.infix_cons_iff.1 h with h | h
    · rw [front apart h]
      exact .inl List.nil_infix
    · exact .inr h
  · rw [front (fun member => apart (by simp [member])) h', List.append_nil]
    exact .inl h.isInfix

/-- The words that join expressions are not in a comparison. -/
theorem joint_apart {t : Terminal} {w : List Char} {field : Field}
    (joint : t.isOr = true ∨ t.isAnd = true ∨ t.isNot = true) (known : lookup fields w = some field)
    (op : Op) (n : Nat) : t ∉ [.word w, .cmpOp op, .number n] := by
  have other {kw : String} (unknown : lookup fields kw.toList = none) : stricmp w kw = false := by
    by_contra same
    rw [lookup_congr fields (by simpa using same), unknown] at known
    cases known
  have noOr : stricmp w "or" = false := other (by decide)
  have noAnd : stricmp w "and" = false := other (by decide)
  have noNot : stricmp w "not" = false := other (by decide)
  simp only [List.mem_cons, List.not_mem_nil, or_false]
  rintro (rfl | rfl | rfl)
  · simp [Terminal.isOr, Terminal.isAnd, Terminal.isNot, noOr, noAnd, noNot] at joint
  · simp [Terminal.isOr, Terminal.isAnd, Terminal.isNot] at joint
  · simp [Terminal.isOr, Terminal.isAnd, Terminal.isNot] at joint

/-- A comparison of the text is an atom of every derivation of it. -/
theorem Compares.atom {level : Level} {ts : List Terminal} {φ : Formula Atom}
    (derives : Derives level ts φ) {field : Field} {op : Op} {n : Nat}
    (compares : Compares ts field op n) :
    .cmp field op n ∈ φ.atoms ∧ field.wantsAddr = false := by
  obtain ⟨w, known, inside⟩ := compares
  induction derives with
  | orOne _ ih | andOne _ ih | notOne _ ih => exact ih inside
  | orMore _ word _ ihl ihr =>
      rcases infix_beside (joint_apart (.inl word) known op n) inside with h | h
      · exact ⟨List.mem_append_left _ (ihl h).1, (ihl h).2⟩
      · exact ⟨List.mem_append_right _ (ihr h).1, (ihr h).2⟩
  | andMore _ word _ ihl ihr =>
      rcases infix_beside (joint_apart (.inr (.inl word)) known op n) inside with h | h
      · exact ⟨List.mem_append_left _ (ihl h).1, (ihl h).2⟩
      · exact ⟨List.mem_append_right _ (ihr h).1, (ihr h).2⟩
  | @notMore ts t _ word _ ih =>
      have apart := joint_apart (.inr (.inr word)) known op n
      rcases @infix_beside _ _ [] _ _ apart inside with h | h
      · simp at h
      · exact ih h
  | @paren ts _ _ ih =>
      rcases @infix_beside _ _ _ [] _ (by simp) inside with h | h
      · rcases @infix_beside _ _ [] _ _ (by simp) h with h | h
        · simp at h
        · exact ih h
      · simp at h
  | keyword => exact absurd inside.length_le (by simp)
  | number known' kind =>
      have same := inside.eq_of_length rfl
      simp only [List.cons.injEq, Terminal.word.injEq, Terminal.cmpOp.injEq,
        Terminal.number.injEq, and_true] at same
      obtain ⟨rfl, rfl, rfl⟩ := same
      cases known.symm.trans known'
      exact ⟨List.mem_singleton_self _, kind⟩
  | addr => simpa using inside.eq_of_length rfl

/-! ## Compiled texts -/

/-- A literal the lexer gave up on derives from nothing. -/
theorem Derives.no_junk {level : Level} {ts : List Terminal} {φ : Formula Atom}
    (derives : Derives level ts φ) : .junk ∉ ts := by
  induction derives with
  | orOne _ ih | andOne _ ih | notOne _ ih => exact ih
  | @orMore _ _ t _ _ _ word _ ihl ihr | @andMore _ _ t _ _ _ word _ ihl ihr =>
      simp only [List.mem_append, List.mem_cons, not_or]
      refine ⟨ihl, ?_, ihr⟩
      rintro rfl
      cases word
  | notMore word _ ih =>
      simp only [List.mem_cons, not_or]
      refine ⟨?_, ih⟩
      rintro rfl
      cases word
  | paren _ ih => simpa using ih
  | keyword => simp
  | number => simp
  | addr => simp

/-- The octets of an accepted text were at most 255 as far as they were kept. -/
theorem octetsOk_of_accepted {ts : List Terminal} {ψ : Formula Atom}
    (derives : Derives .or (ts.map Terminal.lexed) ψ)
    (small : ∀ a b c d, .addr a b c d ∈ ts → a < 2 ^ 32 ∧ b < 2 ^ 32 ∧ c < 2 ^ 32 ∧ d < 2 ^ 32) :
    OctetsOk ts := by
  intro a b c d here
  obtain ⟨ha, hb, hc, hd⟩ := small a b c d here
  have known : (Terminal.addr a b c d).lexed ≠ .junk := by
    intro junk
    exact derives.no_junk (List.mem_map.2 ⟨_, here, junk⟩)
  rw [Terminal.lexed] at known
  split at known
  · exact absurd rfl known
  · rename_i within
    simp only [not_or] at within
    have octet {n : Nat} (low : n < 2 ^ 32) (h : ¬kept n > 255) : n ≤ 255 :=
      (kept_of_lt low).ge.trans ((kept_le (k := 255) (by decide)).1 h)
    exact ⟨octet ha within.1, octet hb within.2.1, octet hc within.2.2.1, octet hd within.2.2.2⟩

theorem eq_nil_of_blank {s : List Char} {ts : List Terminal} (lexes : Lexes s ts)
    (blank : isBlank s = true) : ts = [] := by
  have none := terminals_blank blank
  rw [terminals_lexed lexes] at none
  exact List.map_eq_nil_iff.1 none

theorem literalsSurvive_nil : LiteralsSurvive [] :=
  ⟨fun here => absurd here List.not_mem_nil, fun ⟨_, _, inside⟩ => by simp at inside⟩

theorem meansValues_of_survive {s : List Char} {ts : List Terminal} {prog : FilterProgram}
    (lexes : Lexes s ts) (accepted : filterCompile s = .ok prog) (survive : LiteralsSurvive ts) :
    MeansValues s ts prog := by
  obtain ⟨ψ, denotes⟩ := (accepted_iff_denotes s).1 ⟨prog, accepted⟩
  have compiles := compiles_of_denotes accepted denotes
  rcases denotes with ⟨blank, rfl⟩ | derives
  · rw [eq_nil_of_blank lexes blank]
    exact ⟨fun _ _ _ _ here => absurd here List.not_mem_nil, .tt, .tt, .inl ⟨blank, rfl⟩, compiles,
      .tt⟩
  · rw [terminals_lexed lexes] at derives
    have ok := octetsOk_of_accepted derives fun _ _ _ _ => survive.octets
    obtain ⟨φ, valued, rfl⟩ := derives.of_lexed rfl ok
    refine ⟨ok, φ, _, .inr valued, compiles, Formula.alike_map.2 ?_⟩
    intro a member
    rcases valued.atom_compares member with same | ⟨field, op, n, rfl, kind, compares⟩
    · rw [same]
      exact fun _ _ => rfl
    · exact (sameOnPackets_kept_iff kind op n).2 (survive.numbers compares)

theorem survive_of_meansValues {s : List Char} {ts : List Terminal} {prog : FilterProgram}
    (lexes : Lexes s ts) (accepted : filterCompile s = .ok prog)
    (means : MeansValues s ts prog) : LiteralsSurvive ts := by
  obtain ⟨ok, φ, ψ, said, compiles, alike⟩ := means
  rcases said with ⟨blank, _⟩ | derives
  · rw [eq_nil_of_blank lexes blank]
    exact literalsSurvive_nil
  · have read := derives.lexed ok
    rw [← terminals_lexed lexes] at read
    obtain ⟨i, root, rep⟩ := compiles
    obtain ⟨j, root', rep'⟩ := compiles_of_denotes accepted (.inr read)
    cases Int.ofNat_inj.1 (root.symm.trans root')
    cases rep.unique rep'
    refine ⟨?_, ?_⟩
    · intro a b c d here
      have small := ok a b c d here
      omega
    · intro field op n compares
      obtain ⟨member, kind⟩ := compares.atom derives
      exact (sameOnPackets_kept_iff kind op n).1 (Formula.alike_map.1 alike _ member)

/-- **Literals mean what they say** in an accepted text exactly if they survive the lexer's
32 bits. -/
theorem filterCompile_literals_iff {s : List Char} {ts : List Terminal} {prog : FilterProgram}
    (lexes : Lexes s ts) (accepted : filterCompile s = .ok prog) :
    MeansValues s ts prog ↔ LiteralsSurvive ts :=
  ⟨survive_of_meansValues lexes accepted, meansValues_of_survive lexes accepted⟩

theorem lexes_comparison {name literal : List Char} {t : Terminal}
    (field : name ∈ ["tcp.DstPort".toList, "ip.SrcAddr".toList]) (lexes : Lexes literal [t]) :
    Lexes (name ++ " == ".toList ++ literal) [.word name, .cmpOp .eq, t] := by
  have word {c : Char} {w : List Char} (start : isIdentStart c = true)
      (inside : ∀ x ∈ w, isIdentChar x = true) :
      Lexes (c :: w ++ " == ".toList ++ literal) [.word (c :: w), .cmpOp .eq, t] := by
    rw [List.append_assoc]
    exact .word start inside (by simp [Ends]; decide)
      (.space (by decide) (.symbol2 (by decide) (.space (by decide) lexes)))
  simp only [List.mem_cons, List.not_mem_nil, or_false] at field
  rcases field with rfl | rfl
  · exact word (by decide) (List.all_eq_true.1 (by decide))
  · exact word (by decide) (List.all_eq_true.1 (by decide))

theorem lexes_number {digits : List Char} {n : Nat} (some : digits ≠ [])
    (inside : ∀ x ∈ digits, x.isDigit = true) (value : decimal digits = n) :
    Lexes digits [.number n] := by
  have number := Lexes.number some inside (s := []) (by simp [Ends]) .done
  rwa [List.append_nil, value] at number

/-- A text that reads as a derivable one is accepted. -/
theorem accepted_of_lexes {s : List Char} {ts : List Terminal} (lexes : Lexes s ts)
    {ψ : Formula Atom} (read : Derives .or (ts.map Terminal.lexed) ψ) :
    ∃ prog, filterCompile s = .ok prog ∧ prog.Compiles ψ := by
  rw [← terminals_lexed lexes] at read
  exact filterCompile_of_derives read

/-- `tcp.DstPort == 443`. -/
def plainText : List Char := "tcp.DstPort".toList ++ " == ".toList ++ "443".toList

theorem filterCompile_literals_iff_plain :
    ∃ prog, filterCompile plainText = .ok prog ∧
      MeansValues plainText [.word "tcp.DstPort".toList, .cmpOp .eq, .number 443] prog := by
  have lexes : Lexes plainText [.word "tcp.DstPort".toList, .cmpOp .eq, .number 443] :=
    lexes_comparison (by simp)
      (lexes_number (by decide) (List.all_eq_true.1 (by decide)) (by decide))
  obtain ⟨prog, accepted, _⟩ := @accepted_of_lexes _ _ lexes (.atom (.cmp .tcpDstPort .eq 443))
    (.orOne (.andOne (.notOne (.number (n := 443) (by decide) rfl))))
  refine ⟨prog, accepted, (filterCompile_literals_iff lexes accepted).2 ⟨by simp, ?_⟩⟩
  rintro field op n ⟨w, _, inside⟩
  have same := inside.eq_of_length rfl
  simp only [List.cons.injEq, Terminal.number.injEq, and_true] at same
  exact .inl (by omega)

/-- `tcp.DstPort == 4294967376`, which is 2^32 + 80. -/
def wideText : List Char := "tcp.DstPort".toList ++ " == ".toList ++ "4294967376".toList

/-- `ip.SrcAddr == 4294967297.0.0.0`; the first number is 2^32 + 1. -/
def wideAddr : List Char := "ip.SrcAddr".toList ++ " == ".toList ++ "4294967297.0.0.0".toList

/-- Both texts are accepted.  The first selects packets to port 80, the second those from
1.0.0.0. -/
theorem literals_wrap :
    (∃ prog, Lexes wideText [.word "tcp.DstPort".toList, .cmpOp .eq, .number 4294967376] ∧
        filterCompile wideText = .ok prog ∧
        ¬MeansValues wideText [.word "tcp.DstPort".toList, .cmpOp .eq, .number 4294967376] prog ∧
        prog.Compiles (.atom (.cmp .tcpDstPort .eq 80))) ∧
      ∃ prog, Lexes wideAddr [.word "ip.SrcAddr".toList, .cmpOp .eq, .addr 4294967297 0 0 0] ∧
        filterCompile wideAddr = .ok prog ∧
        ¬MeansValues wideAddr [.word "ip.SrcAddr".toList, .cmpOp .eq, .addr 4294967297 0 0 0] prog ∧
        prog.Compiles (.atom (.cmp .ipSrc .eq (2 ^ 24))) := by
  constructor
  · have lexes : Lexes wideText [.word "tcp.DstPort".toList, .cmpOp .eq, .number 4294967376] :=
      lexes_comparison (by simp)
        (lexes_number (by decide) (List.all_eq_true.1 (by decide)) (by decide))
    obtain ⟨prog, accepted, compiles⟩ := @accepted_of_lexes _ _ lexes (.atom (.cmp .tcpDstPort .eq 80))
      (.orOne (.andOne (.notOne (.number (n := 80) (by decide) rfl))))
    refine ⟨prog, lexes, accepted, ?_, compiles⟩
    intro means
    have here : Compares [.word "tcp.DstPort".toList, .cmpOp .eq, .number 4294967376] .tcpDstPort
        .eq 4294967376 := ⟨_, by decide, List.infix_rfl⟩
    have survive := (survive_of_meansValues lexes accepted means).numbers here
    exact absurd survive (by simp [Survives]; decide)
  · have addr : Lexes "4294967297.0.0.0".toList [.addr 4294967297 0 0 0] := by
      have dotted : Dotted "4294967297.0.0.0".toList "4294967297".toList ['0'] ['0'] ['0'] :=
        ⟨by decide, by simp⟩
      have one := Lexes.addr dotted (s := []) (by simp [Ends]) .done
      rw [List.append_nil] at one
      exact one
    have lexes : Lexes wideAddr [.word "ip.SrcAddr".toList, .cmpOp .eq, .addr 4294967297 0 0 0] :=
      lexes_comparison (by simp) addr
    have read : [.word "ip.SrcAddr".toList, .cmpOp .eq, .addr 4294967297 0 0 0].map Terminal.lexed =
        [.word "ip.SrcAddr".toList, .cmpOp .eq, .addr 1 0 0 0] := by decide
    have derives : Derives .or [.word "ip.SrcAddr".toList, .cmpOp .eq, .addr 1 0 0 0]
        (.atom (.cmp .ipSrc .eq (2 ^ 24))) :=
      .orOne (.andOne (.notOne (.addr (a := 1) (b := 0) (c := 0) (d := 0) (by decide) rfl)))
    obtain ⟨prog, accepted, compiles⟩ := accepted_of_lexes lexes (read ▸ derives)
    refine ⟨prog, lexes, accepted, ?_, compiles⟩
    intro means
    have octets := means.octets 4294967297 0 0 0 (by simp)
    omega

end Clumsy.Filter
