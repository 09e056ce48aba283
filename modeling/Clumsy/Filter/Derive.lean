/-
# Filter.Derive -- filterexpr.cpp: iptables rules for a filter

`filterDeriveIptables` splits the disjunctions at the top of a program and turns
each branch into the rules for what `collect` gathers from it.  The header promises
that the rules match whatever the filter matches.

A rule matches a packet if the terms gathered into it hold of the packet
(`collect_admits`, `emitRules_match`).  These are the terms under an even number of
negations, which a branch demands unless a conjunction under an odd number of them
has one below it, and no more than `SPLIT_BRANCH_LIMIT` branches are looked at.
Up to these two the promise holds: `derive_superset`.
-/
import Mathlib
import Clumsy.Filter.Correct
import Clumsy.Filter.Format

namespace Clumsy.Filter

open Clumsy.Theory
open Clumsy.Packet

set_option autoImplicit false

/-! ## Constraints -/

/-- `IPT_CHAIN_OUTPUT`. -/
def chainOutput : Nat := 1

/-- `IPT_CHAIN_INPUT`. -/
def chainInput : Nat := 2

/-- What one AND-chain asks for; the defaults leave a rule unconstrained. -/
structure Constraints where
  chains  : Nat := chainOutput ||| chainInput
  /-- 0 = any. -/
  proto   : Int := 0
  /-- -1 unknown, 0 = v4, 1 = v6. -/
  ipv6    : Int := -1
  dstPort : Int := -1
  srcPort : Int := -1
  /-- 0 = unconstrained. -/
  dstAddr : UInt32 := 0
  srcAddr : UInt32 := 0
  /-- Something could not be expressed. -/
  widened : Bool := false
  deriving DecidableEq, Repr

/-- `(int)value`. -/
def toInt32 (value : UInt32) : Int :=
  if value.toNat < 2 ^ 31 then value.toNat else (value.toNat : Int) - 2 ^ 32

/-- The inner `switch` of `collect`: an equality the rule can express. -/
def Constraints.pinField (c : Constraints) (field : Field) (value : UInt32) : Constraints :=
  match field with
  | .ipProto =>
      let proto := toInt32 value
      { c with
        proto
        ipv6 := if proto = 58 then 1 else if proto = 1 then 0 else c.ipv6 }
  | .tcpSrcPort => { c with proto := 6, srcPort := value.toNat }
  | .tcpDstPort => { c with proto := 6, dstPort := value.toNat }
  | .udpSrcPort => { c with proto := 17, srcPort := value.toNat }
  | .udpDstPort => { c with proto := 17, dstPort := value.toNat }
  | .ipSrc => { c with srcAddr := value, ipv6 := 0 }
  | .ipDst => { c with dstAddr := value, ipv6 := 0 }

def Constraints.widen (c : Constraints) : Constraints := { c with widened := true }

def collect (nodes : List Node) : Nat → Int → Constraints → Bool → Constraints
  | 0, _, c, _ => c
  | fuel + 1, idx, c, negated =>
      match nodeAt nodes idx with
      | none => c
      | some n =>
          match n.kind with
          | .nAnd =>
              collect nodes fuel n.right (collect nodes fuel n.left c negated) negated
          | .nNot => collect nodes fuel n.left c.widen !negated
          | .nOr => c.widen
          | .nTrue => c
          | .nFalse => c.widen
          | .nOutbound => if negated then c else { c with chains := chainOutput }
          | .nInbound => if negated then c else { c with chains := chainInput }
          | .nLoopback => c.widen
          | .nIpv4 => if negated then c else { c with ipv6 := 0 }
          | .nIpv6 => if negated then c else { c with ipv6 := 1 }
          | .nCmp =>
              if negated = true ∨ n.op ≠ .eq then c.widen else c.pinField n.field n.value

/-! ## Branches -/

/-- `SPLIT_BRANCH_LIMIT`. -/
def splitBranchLimit : Nat := 64

/-- The depth `splitOr` stops at. -/
def splitDepth : Nat := 16

def splitOr (nodes : List Node) : Nat → Int → List Int → Nat → List Int
  | 0, _, out, _ => out
  | fuel + 1, idx, out, depth =>
      match nodeAt nodes idx with
      | none => out
      | some n =>
          if out.length ≥ splitBranchLimit then out
          else if n.kind = .nOr ∧ depth < splitDepth then
            splitOr nodes fuel n.right (splitOr nodes fuel n.left out (depth + 1)) (depth + 1)
          else out ++ [idx]

/-! ## Rules -/

structure IptablesRule where
  /-- Bit mask of the chains. -/
  chains    : Nat
  /-- The match arguments. -/
  matchText : List Char
  /-- Install with `ip6tables` instead. -/
  ipv6      : Bool
  deriving DecidableEq, Repr

def octet (addr : UInt32) (shift : UInt32) : List Char := unsigned (addr >>> shift &&& 0xFF)

def formatAddr (addr : UInt32) : List Char :=
  octet addr 24 ++ '.' :: octet addr 16 ++ '.' :: octet addr 8 ++ '.' :: octet addr 0

def protoArg (c : Constraints) (ipv6 : Bool) : List (String × List Char) :=
  if c.proto = 6 then [("-p", "tcp".toList)]
  else if c.proto = 17 then [("-p", "udp".toList)]
  else if c.proto = 1 ∧ ipv6 = false then [("-p", "icmp".toList)]
  else if c.proto = 58 ∧ ipv6 = true then [("-p", "icmpv6".toList)]
  else if c.proto > 0 then [("-p", Nat.toDigits 10 c.proto.toNat)]
  else []

def portArg (flag : String) (port : Int) : List (String × List Char) :=
  if port ≥ 0 then [(flag, Nat.toDigits 10 port.toNat)] else []

def addrArg (flag : String) (addr : UInt32) : List (String × List Char) :=
  if addr ≠ 0 then [(flag, formatAddr addr)] else []

/-- The arguments `buildMatch` appends, flag and value; ports need a protocol. -/
def matchArgs (c : Constraints) (ipv6 : Bool) : List (String × List Char) :=
  protoArg c ipv6 ++
    (if c.proto = 6 ∨ c.proto = 17 then portArg "--dport" c.dstPort ++ portArg "--sport" c.srcPort
      else []) ++
    addrArg "-s" c.srcAddr ++ addrArg "-d" c.dstAddr

/-- One argument as `buildMatch` prints it, with a blank behind. -/
def argText (arg : String × List Char) : List Char := arg.1.toList ++ ' ' :: (arg.2 ++ [' '])

/-- Drop the blanks at the end. -/
def trimEnd (s : List Char) : List Char := s.rdropWhile (· = ' ')

/-- `sizeof(r.match)`, and the size of the buffer in `buildMatch`. -/
def matchBufsize : Nat := 256

def buildMatch (c : Constraints) (ipv6 : Bool) : List Char :=
  let buf := (matchArgs c ipv6).foldl (fun buf arg => appendf matchBufsize buf (argText arg)) []
  (trimEnd buf).take (matchBufsize - 1)

/-- `emitRules`: the rules of one branch, and whether they are exact. -/
def emitRules (prog : FilterProgram) (branch : Int) : List IptablesRule × Bool :=
  let c := collect prog.nodes prog.nodes.length branch {} false
  let versions := (if c.ipv6 ≠ 1 then [false] else []) ++ (if c.ipv6 ≠ 0 then [true] else [])
  (versions.map fun ipv6 => { chains := c.chains, matchText := buildMatch c ipv6, ipv6 },
    !c.widened)

/-- `dedupeRules`. -/
def dedupeRules (rules : List IptablesRule) : List IptablesRule :=
  rules.foldl (fun uniq r => if uniq.contains r then uniq else uniq ++ [r]) []

/-- `MAX_DERIVED_RULES`. -/
def maxDerivedRules : Nat := 8

/-- `branches` of `filterDeriveIptables`. -/
def orBranches (prog : FilterProgram) : List Int :=
  let split := if prog.root ≥ 0 then splitOr prog.nodes prog.nodes.length prog.root [] 0 else []
  if split.isEmpty then [prog.root] else split

/-- `filterDeriveIptables`: the rules, and whether they are exact. -/
def filterDeriveIptables (prog : FilterProgram) (maxRules : Nat) : List IptablesRule × Bool :=
  if maxRules = 0 then ([], true)
  else
    let branches := orBranches prog
    let derived := dedupeRules (branches.flatMap fun branch => (emitRules prog branch).1)
    if derived.length > maxRules then
      ((dedupeRules (emitRules prog prog.root).1).take maxRules, false)
    else (derived.take maxRules, branches.all fun branch => (emitRules prog branch).2)

/-! ## When a rule matches -/

/-- The version in the first byte of a packet. -/
def isIpv6 (packet : Bytes) : Bool := decide ((packet.byteAt 0).toNat / 16 = 6)

/-- The words of a text, which blanks separate. -/
def words : List Char → List (List Char)
  | [] => []
  | c :: s =>
      if c = ' ' then words s
      else if s.head?.all (· = ' ') then [c] :: words s
      else (words s).modifyHead (c :: ·)

/-- What a match argument asks of a packet. -/
def argHolds (f : PacketFields) (flag value : List Char) : Bool :=
  if flag = "-p".toList then
    lookup protos value == some f.protocol || value == unsigned f.protocol
  else if flag = "--dport".toList then f.hasPorts && value == unsigned f.dstPort
  else if flag = "--sport".toList then f.hasPorts && value == unsigned f.srcPort
  else if flag = "-s".toList then f.isV4 && value == formatAddr f.srcAddr
  else if flag = "-d".toList then f.isV4 && value == formatAddr f.dstAddr
  else false

/-- Every argument of a match text holds. -/
def argsHold (f : PacketFields) : List (List Char) → Bool
  | [] => true
  | [_] => false
  | flag :: value :: rest => argHolds f flag value && argsHold f rest

/-- A chain mask covers the direction of a packet. -/
def coversDirection (chains : Nat) (outbound : Bool) : Bool :=
  chains &&& (if outbound then chainOutput else chainInput) != 0

/-- A rule matches a packet. -/
def IptablesRule.matches (r : IptablesRule) (pktMeta : PacketMeta) (packet : Bytes) : Bool :=
  coversDirection r.chains pktMeta.outbound && r.ipv6 == isIpv6 packet &&
    argsHold (extractFields packet) (words r.matchText)

/-! ## Gathered terms hold -/

/-- The two protocols that live on one side of the family only. -/
def FamilyOk (packet : Bytes) : Prop :=
  (extractFields packet).valid = true →
    ((extractFields packet).protocol = 1 → isIpv6 packet = false) ∧
      ((extractFields packet).protocol = 58 → isIpv6 packet = true)

/-- Whatever the constraints pin is so in a packet. -/
structure Constraints.Admits (c : Constraints) (pktMeta : PacketMeta) (packet : Bytes) : Prop where
  chains  : coversDirection c.chains pktMeta.outbound = true
  proto   : c.proto ≤ 0 ∨ c.proto = (extractFields packet).protocol.toNat
  ipv6    : c.ipv6 = -1 ∨ c.ipv6 = if isIpv6 packet then 1 else 0
  dstPort : c.dstPort < 0 ∨
    (extractFields packet).hasPorts = true ∧ c.dstPort = (extractFields packet).dstPort.toNat
  srcPort : c.srcPort < 0 ∨
    (extractFields packet).hasPorts = true ∧ c.srcPort = (extractFields packet).srcPort.toNat
  dstAddr : c.dstAddr = 0 ∨
    (extractFields packet).isV4 = true ∧ c.dstAddr = (extractFields packet).dstAddr
  srcAddr : c.srcAddr = 0 ∨
    (extractFields packet).isV4 = true ∧ c.srcAddr = (extractFields packet).srcAddr

/-- The terms `collect` narrows a rule by.  A protocol of 0 means any, and one that an
`int` does not hold is no protocol either. -/
def Atom.narrows : Atom → Bool
  | .outbound | .inbound | .ipv4 | .ipv6 => true
  | .cmp .ipProto op value => op == .eq && decide (0 < value ∧ value < 2 ^ 31)
  | .cmp _ op _ => op == .eq
  | .loopback => false

theorem extractPorts_isV4 (p : Bytes) (offset : Nat) (f : PacketFields) :
    (extractPorts p offset f).isV4 = f.isV4 := by
  unfold extractPorts
  split <;> rfl

/-- Where the header can be read at all, its version is that of the first byte. -/
theorem isV4_eq {packet : Bytes} (valid : (extractFields packet).valid = true) :
    (extractFields packet).isV4 = !isIpv6 packet := by
  unfold extractFields at valid ⊢
  unfold isIpv6
  split at valid
  · cases valid
  rename_i long
  rw [if_neg long]
  simp only at valid ⊢
  by_cases v4 : (packet.byteAt 0).toNat / 16 = 4
  · rw [if_pos v4] at valid ⊢
    split at valid
    · cases valid
    rename_i header
    rw [if_neg header]
    split
    · simp [v4]
    · rw [extractPorts_isV4]
      simp [v4]
  rw [if_neg v4] at valid ⊢
  by_cases v6 : (packet.byteAt 0).toNat / 16 = 6
  · rw [if_pos v6] at valid ⊢
    split at valid
    · cases valid
    rename_i header
    rw [if_neg header, extractPorts_isV4]
    simp [v6]
  · rw [if_neg v6] at valid
    cases valid

theorem toInt32_eq {value : UInt32} {n : Nat} (same : n = value.toNat) :
    toInt32 value ≤ 0 ∨ toInt32 value = n := by
  have := value.toNat_lt
  unfold toInt32
  split
  · right
    omega
  · left
    omega

theorem Constraints.admits_default (pktMeta : PacketMeta) (packet : Bytes) :
    ({} : Constraints).Admits pktMeta packet where
  chains := by cases pktMeta.outbound <;> rfl
  proto := .inl (by decide)
  ipv6 := .inl rfl
  dstPort := .inl (by decide)
  srcPort := .inl (by decide)
  dstAddr := .inl rfl
  srcAddr := .inl rfl

theorem Constraints.Admits.widen {c : Constraints} {pktMeta : PacketMeta} {packet : Bytes}
    (h : c.Admits pktMeta packet) : c.widen.Admits pktMeta packet := { h with }

theorem any_eq {b : Bool} {x value : UInt32}
    (holds : ((if b then some x.toNat else none).any fun v => Op.eq.holds v value.toNat) = true) :
    b = true ∧ x = value := by
  cases b with
  | false => cases holds
  | true => exact ⟨rfl, by simpa [Op.holds, UInt32.toNat_inj] using holds⟩

/-- An equality that holds of the packet may be pinned. -/
theorem Constraints.Admits.pinField {c : Constraints} {pktMeta : PacketMeta} {packet : Bytes}
    (family : FamilyOk packet) (h : c.Admits pktMeta packet) {field : Field} {value : UInt32}
    (holds : (Atom.cmp field .eq value.toNat).holds pktMeta (extractFields packet) = true) :
    (c.pinField field value).Admits pktMeta packet := by
  simp only [Atom.holds, Bool.and_eq_true] at holds
  obtain ⟨valid, holds⟩ := holds
  have version := isV4_eq valid
  obtain ⟨icmp, icmpv6⟩ := family valid
  cases field with
  | ipSrc =>
      obtain ⟨v4, same⟩ := any_eq holds
      have no6 : isIpv6 packet = false := by simpa [v4] using version
      exact { h with ipv6 := .inr (by rw [no6]; rfl), srcAddr := .inr ⟨v4, same.symm⟩ }
  | ipDst =>
      obtain ⟨v4, same⟩ := any_eq holds
      have no6 : isIpv6 packet = false := by simpa [v4] using version
      exact { h with ipv6 := .inr (by rw [no6]; rfl), dstAddr := .inr ⟨v4, same.symm⟩ }
  | ipProto =>
      have same : (extractFields packet).protocol = value := (any_eq (b := true) holds).2
      refine { h with proto := toInt32_eq (by rw [same]), ipv6 := ?_ }
      have pinned {n : UInt32} (small : toInt32 value = n.toNat) :
          (extractFields packet).protocol = n := by
        rw [same, ← UInt32.toNat_inj]
        have := value.toNat_lt
        unfold toInt32 at small
        split at small <;> omega
      simp only [Constraints.pinField]
      split
      · rename_i is58
        rw [icmpv6 (pinned is58)]
        exact .inr rfl
      split
      · rename_i is1
        rw [icmp (pinned is1)]
        exact .inr rfl
      · exact h.ipv6
  | tcpSrcPort =>
      obtain ⟨tcp, same⟩ := any_eq holds
      simp only [Bool.and_eq_true, beq_iff_eq] at tcp
      exact { h with
        proto := .inr (by rw [tcp.2]; rfl), srcPort := .inr ⟨tcp.1, by rw [same]; rfl⟩ }
  | tcpDstPort =>
      obtain ⟨tcp, same⟩ := any_eq holds
      simp only [Bool.and_eq_true, beq_iff_eq] at tcp
      exact { h with
        proto := .inr (by rw [tcp.2]; rfl), dstPort := .inr ⟨tcp.1, by rw [same]; rfl⟩ }
  | udpSrcPort =>
      obtain ⟨udp, same⟩ := any_eq holds
      simp only [Bool.and_eq_true, beq_iff_eq] at udp
      exact { h with
        proto := .inr (by rw [udp.2]; rfl), srcPort := .inr ⟨udp.1, by rw [same]; rfl⟩ }
  | udpDstPort =>
      obtain ⟨udp, same⟩ := any_eq holds
      simp only [Bool.and_eq_true, beq_iff_eq] at udp
      exact { h with
        proto := .inr (by rw [udp.2]; rfl), dstPort := .inr ⟨udp.1, by rw [same]; rfl⟩ }

/-- A protocol that is none leaves the rule as wide as it is. -/
theorem Constraints.Admits.pinField_any {c : Constraints} {pktMeta : PacketMeta} {packet : Bytes}
    (h : c.Admits pktMeta packet) {field : Field} {value : UInt32}
    (any : ¬(Atom.cmp field .eq value.toNat).narrows = true) :
    (c.pinField field value).Admits pktMeta packet := by
  cases field with
  | ipProto =>
      have small := value.toNat_lt
      have none : toInt32 value ≤ 0 := by
        unfold toInt32
        split
        · rename_i low
          simp only [Atom.narrows, beq_self_eq_true, Bool.true_and, decide_eq_true_eq] at any
          omega
        · omega
      refine { h with proto := .inl none, ipv6 := ?_ }
      simp only [Constraints.pinField]
      rw [if_neg (by omega), if_neg (by omega)]
      exact h.ipv6
  | _ => exact absurd rfl any

theorem coversDirection_output : coversDirection chainOutput true = true := by decide

theorem coversDirection_input : coversDirection chainInput false = true := by decide

/-- The leaves of `collect`. -/
theorem collect_leaf_admits {nodes : List Node} {c : Constraints} {pktMeta : PacketMeta}
    {packet : Bytes} (family : FamilyOk packet) (h : c.Admits pktMeta packet) {i : Nat} {n : Node}
    {a : Atom} (here : nodes[i]? = some n) (leaf : n.atom? = some a) (fuel : Nat) {negated : Bool}
    (holds : ∀ b ∈ (Formula.atom a).demands negated, b.narrows = true →
      b.holds pktMeta (extractFields packet) = true) :
    (collect nodes (fuel + 1) i c negated).Admits pktMeta packet := by
  simp only [collect, nodeAt_natCast, here]
  cases kind : n.kind with
  | nTrue | nFalse | nAnd | nOr | nNot => simp [Node.atom?, kind] at leaf
  | nLoopback => exact h.widen
  | nOutbound =>
      simp only [Node.atom?, kind, Option.some.injEq] at leaf
      subst leaf
      cases negated with
      | true => exact h
      | false =>
          have out : pktMeta.outbound = true := holds _ (List.mem_singleton_self _) rfl
          simp only [Bool.false_eq_true, if_false]
          exact { h with chains := by rw [out]; exact coversDirection_output }
  | nInbound =>
      simp only [Node.atom?, kind, Option.some.injEq] at leaf
      subst leaf
      cases negated with
      | true => exact h
      | false =>
          have inward : (!pktMeta.outbound) = true := holds _ (List.mem_singleton_self _) rfl
          have out : pktMeta.outbound = false := by simpa using inward
          simp only [Bool.false_eq_true, if_false]
          exact { h with chains := by rw [out]; exact coversDirection_input }
  | nIpv4 =>
      simp only [Node.atom?, kind, Option.some.injEq] at leaf
      subst leaf
      cases negated with
      | true => exact h
      | false =>
          have v4 := holds _ (List.mem_singleton_self _) rfl
          simp only [Atom.holds, Bool.and_eq_true] at v4
          have no6 : isIpv6 packet = false := by simpa [v4.2] using isV4_eq v4.1
          simp only [Bool.false_eq_true, if_false]
          exact { h with ipv6 := .inr (by rw [no6]; rfl) }
  | nIpv6 =>
      simp only [Node.atom?, kind, Option.some.injEq] at leaf
      subst leaf
      cases negated with
      | true => exact h
      | false =>
          have v6 := holds _ (List.mem_singleton_self _) rfl
          simp only [Atom.holds, Bool.and_eq_true, Bool.not_eq_true'] at v6
          have is6 : isIpv6 packet = true := by simpa [v6.2] using isV4_eq v6.1
          simp only [Bool.false_eq_true, if_false]
          exact { h with ipv6 := .inr (by rw [is6]; rfl) }
  | nCmp =>
      simp only [Node.atom?, kind, Option.some.injEq] at leaf
      subst leaf
      show (if negated = true ∨ n.op ≠ Op.eq then c.widen
        else c.pinField n.field n.value).Admits pktMeta packet
      split
      · exact h.widen
      · rename_i plain
        obtain ⟨positive, eq⟩ := not_or.1 plain
        have isEq : n.op = .eq := not_not.1 eq
        have known : negated = false := by simpa using positive
        subst known
        rw [isEq] at holds
        by_cases narrow : (Atom.cmp n.field .eq n.value.toNat).narrows = true
        · exact h.pinField family (holds _ (List.mem_singleton_self _) narrow)
        · exact h.pinField_any narrow

/-- **What `collect` gathers holds** of a packet that the gathered terms are true of. -/
theorem collect_admits {nodes : List Node} {pktMeta : PacketMeta} {packet : Bytes}
    (family : FamilyOk packet) {i : Nat} {φ : Formula Atom} (rep : Represents nodes i φ)
    (fuel : Nat) {c : Constraints} (h : c.Admits pktMeta packet) {negated : Bool}
    (holds : ∀ a ∈ φ.demands negated, a.narrows = true →
      a.holds pktMeta (extractFields packet) = true) :
    (collect nodes fuel i c negated).Admits pktMeta packet := by
  induction rep generalizing fuel c negated with
  | tt here kind =>
      cases fuel with
      | zero => exact h
      | succ fuel => simpa [collect, nodeAt_natCast, here, kind] using h
  | ff here kind =>
      cases fuel with
      | zero => exact h
      | succ fuel => simpa [collect, nodeAt_natCast, here, kind] using h.widen
  | @atom i n a here leaf =>
      cases fuel with
      | zero => exact h
      | succ fuel => exact collect_leaf_admits family h here leaf fuel holds
  | and here kind left right _ _ _ _ ihl ihr =>
      cases fuel with
      | zero => exact h
      | succ fuel =>
          simp only [collect, nodeAt_natCast, here, kind, left, right]
          have first := ihl fuel h fun a member => holds a (List.mem_append_left _ member)
          exact ihr fuel first fun a member => holds a (List.mem_append_right _ member)
  | or here kind _ _ _ _ _ _ _ _ =>
      cases fuel with
      | zero => exact h
      | succ fuel => simpa [collect, nodeAt_natCast, here, kind] using h.widen
  | not here kind left _ _ ih =>
      cases fuel with
      | zero => exact h
      | succ fuel =>
          simp only [collect, nodeAt_natCast, here, kind, left]
          exact ih fuel h.widen holds

/-! ## Match texts -/

theorem words_append {w s : List Char} (some : w ≠ []) (plain : ' ' ∉ w) :
    words (w ++ ' ' :: s) = w :: words s := by
  induction w with
  | nil => exact absurd rfl some
  | cons c w ih =>
      obtain ⟨first, plain⟩ := not_or.1 (fun h => plain (List.mem_cons.2 h))
      have other : ¬c = ' ' := fun same => first same.symm
      cases w with
      | nil =>
          have blank : words (' ' :: s) = words s := by rw [words, if_pos rfl]
          rw [List.singleton_append, words, if_neg other, if_pos (by simp), blank]
      | cons d w =>
          have second : ¬d = ' ' := fun same => plain (by simp [same])
          rw [List.cons_append, words, if_neg other, if_neg (by simpa using second),
            ih (by simp) plain]
          rfl

theorem words_blank_end (s : List Char) : words (s ++ [' ']) = words s := by
  induction s with
  | nil => rfl
  | cons c s ih =>
      have next : (s ++ [' ']).head?.all (· = ' ') = s.head?.all (· = ' ') := by
        cases s <;> rfl
      rw [List.cons_append, words, words, ih, next]

theorem words_trimEnd (s : List Char) : words (trimEnd s) = words s := by
  induction s using List.reverseRecOn with
  | nil => rfl
  | append_singleton s c ih =>
      rw [trimEnd, List.rdropWhile_concat]
      split
      · rename_i blank
        rw [of_decide_eq_true blank, words_blank_end]
        exact ih
      · rfl

/-- An argument that is read back as two words and takes little room. -/
structure Proper (arg : String × List Char) : Prop where
  flag  : arg.1.toList ≠ [] ∧ ' ' ∉ arg.1.toList ∧ arg.1.toList.length ≤ 7
  value : arg.2 ≠ [] ∧ ' ' ∉ arg.2 ∧ arg.2.length ≤ 15

theorem words_args {args : List (String × List Char)} (proper : ∀ arg ∈ args, Proper arg) :
    words (args.flatMap argText) = args.flatMap fun arg => [arg.1.toList, arg.2] := by
  induction args with
  | nil => rfl
  | cons arg args ih =>
      obtain ⟨⟨someFlag, plainFlag, _⟩, someValue, plainValue, _⟩ := proper arg (by simp)
      have shape : (arg :: args).flatMap argText =
          arg.1.toList ++ ' ' :: (arg.2 ++ ' ' :: args.flatMap argText) := by
        simp [argText]
      rw [shape, words_append someFlag plainFlag, words_append someValue plainValue,
        ih fun other member => proper other (by simp [member])]
      simp

theorem argsHold_args (f : PacketFields) (args : List (String × List Char)) :
    argsHold f (args.flatMap fun arg => [arg.1.toList, arg.2]) =
      args.all fun arg => argHolds f arg.1.toList arg.2 := by
  induction args with
  | nil => rfl
  | cons arg args ih => simp [argsHold, ih]

theorem foldl_appendf_fits {size : Nat} {args : List (String × List Char)} {buf : List Char}
    (fits : buf.length + (args.flatMap argText).length < size) :
    args.foldl (fun buf arg => appendf size buf (argText arg)) buf =
      buf ++ args.flatMap argText := by
  induction args generalizing buf with
  | nil => simp
  | cons arg args ih =>
      rw [List.flatMap_cons, List.length_append] at fits
      rw [List.foldl_cons, appendf_fits (by omega),
        ih (by rw [List.length_append]; omega), List.append_assoc, List.flatMap_cons]

theorem length_args {args : List (String × List Char)} (proper : ∀ arg ∈ args, Proper arg) :
    (args.flatMap argText).length ≤ 24 * args.length := by
  induction args with
  | nil => simp
  | cons arg args ih =>
      have rest := ih fun other member => proper other (by simp [member])
      obtain ⟨⟨_, _, flag⟩, _, _, value⟩ := proper arg (by simp)
      simp only [List.flatMap_cons, List.length_append, List.length_cons, argText,
        List.length_nil]
      omega

/-- **A match text is read back as its arguments.** -/
theorem words_buildMatch {c : Constraints} {ipv6 : Bool}
    (proper : ∀ arg ∈ matchArgs c ipv6, Proper arg) (few : (matchArgs c ipv6).length ≤ 5) :
    words (buildMatch c ipv6) =
      (matchArgs c ipv6).flatMap fun arg => [arg.1.toList, arg.2] := by
  have size := length_args proper
  have trimmed : (trimEnd ((matchArgs c ipv6).flatMap argText)).length ≤
      ((matchArgs c ipv6).flatMap argText).length := (List.rdropWhile_prefix _ _).length_le
  rw [buildMatch, foldl_appendf_fits (by simp only [matchBufsize, List.length_nil]; omega)]
  rw [List.nil_append, List.take_of_length_le (by simp only [matchBufsize]; omega), words_trimEnd,
    words_args proper]

/-! ## Rules match -/

theorem space_not_mem_digits (n : Nat) : ' ' ∉ Nat.toDigits 10 n := fun member =>
  absurd (Nat.isDigit_of_mem_toDigits (by decide) (by decide) member) (by decide)

theorem octet_length (addr shift : UInt32) : (octet addr shift).length ≤ 3 := by
  have small : (addr >>> shift &&& 0xFF).toNat < 10 ^ 3 := by
    rw [UInt32.toNat_and]
    exact Nat.lt_of_le_of_lt Nat.and_le_right (by decide)
  exact (Nat.length_toDigits_le_iff (by decide) (by decide)).2 small

theorem formatAddr_plain (addr : UInt32) : ' ' ∉ formatAddr addr := by
  simp [formatAddr, octet, unsigned, space_not_mem_digits]

theorem formatAddr_length (addr : UInt32) : (formatAddr addr).length ≤ 15 := by
  have a := octet_length addr 24
  have b := octet_length addr 16
  have c := octet_length addr 8
  have d := octet_length addr 0
  simp only [formatAddr, List.length_append, List.length_cons]
  omega

theorem proper_addr {flag : String} (addr : UInt32)
    (short : flag.toList ≠ [] ∧ ' ' ∉ flag.toList ∧ flag.toList.length ≤ 7) :
    Proper (flag, formatAddr addr) :=
  ⟨short, by simp [formatAddr], formatAddr_plain addr, formatAddr_length addr⟩

theorem proper_number {flag : String} (n : UInt32)
    (short : flag.toList ≠ [] ∧ ' ' ∉ flag.toList ∧ flag.toList.length ≤ 7) :
    Proper (flag, unsigned n) := by
  have size := unsigned_length n
  exact ⟨short, Nat.toDigits_ne_nil, space_not_mem_digits _, Nat.le_trans size (by decide)⟩

theorem portArg_length (flag : String) (port : Int) : (portArg flag port).length ≤ 1 := by
  unfold portArg
  split <;> simp

theorem addrArg_length (flag : String) (addr : UInt32) : (addrArg flag addr).length ≤ 1 := by
  unfold addrArg
  split <;> simp

theorem protoArg_length (c : Constraints) (ipv6 : Bool) : (protoArg c ipv6).length ≤ 1 := by
  unfold protoArg
  split_ifs <;> simp

theorem matchArgs_length (c : Constraints) (ipv6 : Bool) : (matchArgs c ipv6).length ≤ 5 := by
  have proto := protoArg_length c ipv6
  have dport := portArg_length "--dport" c.dstPort
  have sport := portArg_length "--sport" c.srcPort
  have src := addrArg_length "-s" c.srcAddr
  have dst := addrArg_length "-d" c.dstAddr
  unfold matchArgs
  split <;> simp only [List.length_append, List.length_nil] <;> omega

theorem portArg_hold {flag : String} {port : Int} {value : UInt32} {f : PacketFields}
    (short : flag.toList ≠ [] ∧ ' ' ∉ flag.toList ∧ flag.toList.length ≤ 7)
    (h : port < 0 ∨ f.hasPorts = true ∧ port = value.toNat)
    (reads : f.hasPorts = true → argHolds f flag.toList (unsigned value) = true) :
    ∀ arg ∈ portArg flag port, Proper arg ∧ argHolds f arg.1.toList arg.2 = true := by
  intro arg member
  unfold portArg at member
  split at member
  · rename_i some
    cases List.mem_singleton.1 member
    obtain ⟨ports, rfl⟩ := h.resolve_left (by omega)
    exact ⟨proper_number value short, reads ports⟩
  · cases member

theorem addrArg_hold {flag : String} {addr value : UInt32} {f : PacketFields}
    (short : flag.toList ≠ [] ∧ ' ' ∉ flag.toList ∧ flag.toList.length ≤ 7)
    (h : addr = 0 ∨ f.isV4 = true ∧ addr = value)
    (reads : f.isV4 = true → argHolds f flag.toList (formatAddr value) = true) :
    ∀ arg ∈ addrArg flag addr, Proper arg ∧ argHolds f arg.1.toList arg.2 = true := by
  intro arg member
  unfold addrArg at member
  split at member
  · rename_i some
    cases List.mem_singleton.1 member
    obtain ⟨v4, rfl⟩ := h.resolve_left some
    exact ⟨proper_addr addr short, reads v4⟩
  · cases member

theorem protoArg_hold {c : Constraints} {f : PacketFields}
    (h : c.proto ≤ 0 ∨ c.proto = f.protocol.toNat) (ipv6 : Bool) :
    ∀ arg ∈ protoArg c ipv6, Proper arg ∧ argHolds f arg.1.toList arg.2 = true := by
  have flag : "-p".toList ≠ [] ∧ ' ' ∉ "-p".toList ∧ "-p".toList.length ≤ 7 := by decide
  have named {n : UInt32} {name : List Char} (pinned : c.proto = n.toNat) (some : 0 < n.toNat)
      (known : lookup protos name = .some n) (short : name ≠ [] ∧ ' ' ∉ name ∧ name.length ≤ 15) :
      Proper ("-p", name) ∧ argHolds f "-p".toList name = true := by
    have same : f.protocol = n := by
      rw [← UInt32.toNat_inj]
      omega
    refine ⟨⟨flag, short⟩, ?_⟩
    rw [argHolds, if_pos rfl, same, known]
    simp
  intro arg member
  unfold protoArg at member
  split at member
  · rename_i pinned
    cases List.mem_singleton.1 member
    exact named (n := 6) pinned (by decide) (by decide) (by decide)
  split at member
  · rename_i pinned
    cases List.mem_singleton.1 member
    exact named (n := 17) pinned (by decide) (by decide) (by decide)
  split at member
  · rename_i pinned
    cases List.mem_singleton.1 member
    exact named (n := 1) pinned.1 (by decide) (by decide) (by decide)
  split at member
  · rename_i pinned
    cases List.mem_singleton.1 member
    exact named (n := 58) pinned.1 (by decide) (by decide) (by decide)
  split at member
  · rename_i some
    cases List.mem_singleton.1 member
    have same : c.proto = f.protocol.toNat := h.resolve_left (by omega)
    have text : Nat.toDigits 10 c.proto.toNat = unsigned f.protocol := by
      rw [same]
      rfl
    rw [text]
    exact ⟨proper_number _ flag, by simp [argHolds]⟩
  · cases member

/-- Every argument of a rule is proper and holds of a packet the constraints admit. -/
theorem matchArgs_hold {c : Constraints} {pktMeta : PacketMeta} {packet : Bytes}
    (h : c.Admits pktMeta packet) (ipv6 : Bool) :
    ∀ arg ∈ matchArgs c ipv6,
      Proper arg ∧ argHolds (extractFields packet) arg.1.toList arg.2 = true := by
  intro arg member
  simp only [matchArgs, List.mem_append] at member
  rcases member with ((proto | ports) | src) | dst
  · exact protoArg_hold h.proto ipv6 arg proto
  · split at ports
    · rcases List.mem_append.1 ports with dport | sport
      · exact portArg_hold (by decide) h.dstPort (fun some => by simp [argHolds, some]) arg dport
      · exact portArg_hold (by decide) h.srcPort (fun some => by simp [argHolds, some]) arg sport
    · cases ports
  · exact addrArg_hold (by decide) h.srcAddr (fun v4 => by simp [argHolds, v4]) arg src
  · exact addrArg_hold (by decide) h.dstAddr (fun v4 => by simp [argHolds, v4]) arg dst

/-- A rule made from constraints that admit a packet of its version matches it. -/
theorem rule_matches {c : Constraints} {pktMeta : PacketMeta} {packet : Bytes}
    (h : c.Admits pktMeta packet) :
    IptablesRule.matches
      { chains := c.chains, matchText := buildMatch c (isIpv6 packet), ipv6 := isIpv6 packet }
      pktMeta packet = true := by
  have args := matchArgs_hold h (isIpv6 packet)
  have text := words_buildMatch (fun arg member => (args arg member).1)
    (matchArgs_length c (isIpv6 packet))
  have all : argsHold (extractFields packet) (words (buildMatch c (isIpv6 packet))) = true := by
    rw [text, argsHold_args, List.all_eq_true]
    exact fun arg member => (args arg member).2
  simp only [IptablesRule.matches, h.chains, all, beq_self_eq_true, Bool.and_self]

/-- **The rules of a branch match** whatever its narrowing terms are true of. -/
theorem emitRules_match {prog : FilterProgram} (pktMeta : PacketMeta) {packet : Bytes}
    (family : FamilyOk packet) {i : Nat} {φ : Formula Atom} (rep : Represents prog.nodes i φ)
    (holds : ∀ a ∈ φ.demands false, a.narrows = true →
      a.holds pktMeta (extractFields packet) = true) :
    ∃ r ∈ (emitRules prog i).1, r.matches pktMeta packet = true := by
  have h := collect_admits family rep prog.nodes.length
    (Constraints.admits_default pktMeta packet) holds
  refine ⟨_, List.mem_map.2 ⟨isIpv6 packet, ?_, rfl⟩, rule_matches h⟩
  have version := h.ipv6
  rw [List.mem_append]
  cases six : isIpv6 packet with
  | false =>
      left
      rw [six] at version
      rw [if_pos (by rcases version with h | h <;> rw [h] <;> decide)]
      exact List.mem_singleton_self _
  | true =>
      right
      rw [six] at version
      rw [if_pos (by rcases version with h | h <;> rw [h] <;> decide)]
      exact List.mem_singleton_self _

/-! ## Splitting -/

theorem take_append_take {α : Type} (n : Nat) (xs ys : List α) :
    (xs.take n ++ ys).take n = (xs ++ ys).take n := by
  by_cases long : n ≤ xs.length
  · have size : n ≤ (xs.take n).length := by
      rw [List.length_take]
      omega
    rw [List.take_append_of_le_length size, List.take_append_of_le_length long, List.take_take,
      Nat.min_self]
  · rw [List.take_of_length_le (by omega : xs.length ≤ n)]

/-- Index `k` stands for `ψ`. -/
def StandsFor (nodes : List Node) (k : Int) (ψ : Formula Atom) : Prop :=
  ∃ j : Nat, k = j ∧ Represents nodes j ψ

theorem branches_leaf {φ : Formula Atom} (leaf : ∀ ψ χ, φ ≠ .or ψ χ) (depth : Nat) :
    φ.branches depth = [φ] := by
  cases depth with
  | zero => rfl
  | succ depth =>
      cases φ with
      | or ψ χ => exact absurd rfl (leaf ψ χ)
      | _ => rfl

theorem splitOr_stop {nodes : List Node} {i fuel depth : Nat} {n : Node} (here : nodes[i]? = some n)
    (stop : ¬(n.kind = .nOr ∧ depth < splitDepth)) {out : List Int}
    (room : out.length ≤ splitBranchLimit) :
    splitOr nodes (fuel + 1) i out depth = (out ++ [(i : Int)]).take splitBranchLimit := by
  simp only [splitOr, nodeAt_natCast, here, if_neg stop]
  split
  · rename_i full
    rw [List.take_append_of_le_length full, List.take_of_length_le room]
  · rw [List.take_of_length_le]
    simp only [List.length_append, List.length_singleton]
    omega

/-- The branches a split yields from an index, whatever was split before. -/
def Splits (nodes : List Node) (fuel : Nat) (i : Int) (depth : Nat)
    (branches : List (Formula Atom)) : Prop :=
  ∃ idxs, List.Forall₂ (StandsFor nodes) idxs branches ∧
    ∀ out : List Int, out.length ≤ splitBranchLimit →
      splitOr nodes fuel i out depth = (out ++ idxs).take splitBranchLimit

theorem splits_single {nodes : List Node} {i fuel depth : Nat} {n : Node} {φ : Formula Atom}
    (rep : Represents nodes i φ) (here : nodes[i]? = some n)
    (stop : ¬(n.kind = .nOr ∧ depth < splitDepth)) : Splits nodes (fuel + 1) i depth [φ] :=
  ⟨[(i : Int)], .cons ⟨i, rfl, rep⟩ .nil, fun _ room => splitOr_stop here stop room⟩

/-- **Splitting keeps the first branches**, up to the limit. -/
theorem splits {nodes : List Node} {i : Nat} {φ : Formula Atom} (rep : Represents nodes i φ)
    (depth : Nat) {fuel : Nat} (enough : i < fuel) :
    Splits nodes fuel i depth (φ.branches (splitDepth - depth)) := by
  induction rep generalizing fuel depth with
  | tt here kind =>
      obtain ⟨fuel, rfl⟩ : ∃ k, fuel = k + 1 := ⟨fuel - 1, by omega⟩
      rw [branches_leaf (by simp)]
      exact splits_single (.tt here kind) here (by simp [kind])
  | ff here kind =>
      obtain ⟨fuel, rfl⟩ : ∃ k, fuel = k + 1 := ⟨fuel - 1, by omega⟩
      rw [branches_leaf (by simp)]
      exact splits_single (.ff here kind) here (by simp [kind])
  | @atom i n a here leaf =>
      obtain ⟨fuel, rfl⟩ : ∃ k, fuel = k + 1 := ⟨fuel - 1, by omega⟩
      rw [branches_leaf (by simp)]
      refine splits_single (.atom here leaf) here ?_
      rintro ⟨kind, _⟩
      simp [Node.atom?, kind] at leaf
  | and here kind left right lower lower' first second _ _ =>
      obtain ⟨fuel, rfl⟩ : ∃ k, fuel = k + 1 := ⟨fuel - 1, by omega⟩
      rw [branches_leaf (by simp)]
      exact splits_single (.and here kind left right lower lower' first second) here
        (by simp [kind])
  | not here kind left lower operand _ =>
      obtain ⟨fuel, rfl⟩ : ∃ k, fuel = k + 1 := ⟨fuel - 1, by omega⟩
      rw [branches_leaf (by simp)]
      exact splits_single (.not here kind left lower operand) here (by simp [kind])
  | @or i l r n φ ψ here kind left right lower lower' first second ihl ihr =>
      obtain ⟨fuel, rfl⟩ : ∃ k, fuel = k + 1 := ⟨fuel - 1, by omega⟩
      by_cases deep : depth < splitDepth
      · obtain ⟨ls, standL, runL⟩ := ihl (depth + 1) (show _ < fuel by omega)
        obtain ⟨rs, standR, runR⟩ := ihr (depth + 1) (show _ < fuel by omega)
        have more : splitDepth - depth = splitDepth - (depth + 1) + 1 := by omega
        rw [more]
        refine ⟨ls ++ rs, List.rel_append standL standR, ?_⟩
        intro out room
        simp only [splitOr, nodeAt_natCast, here, kind, deep, and_self, if_true, left, right]
        split
        · rename_i full
          rw [List.take_append_of_le_length full, List.take_of_length_le room]
        · rw [runL out room, runR _ (by rw [List.length_take]; omega), take_append_take,
            List.append_assoc]
      · have none : splitDepth - depth = 0 := by omega
        rw [none]
        exact splits_single (.or here kind left right lower lower' first second) here
          fun both => deep both.2

/-! ## Dropping duplicates -/

theorem mem_dedupeFrom {rules uniq : List IptablesRule} {r : IptablesRule} :
    r ∈ rules.foldl (fun uniq r => if uniq.contains r then uniq else uniq ++ [r]) uniq ↔
      r ∈ uniq ∨ r ∈ rules := by
  induction rules generalizing uniq with
  | nil => simp
  | cons s rules ih =>
      rw [List.foldl_cons, ih]
      split
      · rename_i seen
        have known : s ∈ uniq := by simpa using seen
        rw [List.mem_cons]
        constructor
        · rintro (h | h)
          · exact .inl h
          · exact .inr (.inr h)
        · rintro (h | rfl | h)
          · exact .inl h
          · exact .inl known
          · exact .inr h
      · rw [List.mem_append, List.mem_singleton, List.mem_cons, or_assoc]

theorem mem_dedupeRules {rules : List IptablesRule} {r : IptablesRule} :
    r ∈ dedupeRules rules ↔ r ∈ rules := by
  rw [dedupeRules, mem_dedupeFrom]
  simp

theorem length_dedupeFrom (rules uniq : List IptablesRule) :
    (rules.foldl (fun uniq r => if uniq.contains r then uniq else uniq ++ [r]) uniq).length ≤
      uniq.length + rules.length := by
  induction rules generalizing uniq with
  | nil => simp
  | cons s rules ih =>
      rw [List.foldl_cons, List.length_cons]
      split
      · have := ih uniq
        omega
      · have := ih (uniq ++ [s])
        rw [List.length_append, List.length_singleton] at this
        omega

theorem length_dedupeRules (rules : List IptablesRule) :
    (dedupeRules rules).length ≤ rules.length := by
  have := length_dedupeFrom rules []
  rwa [List.length_nil, Nat.zero_add] at this

theorem length_emitRules (prog : FilterProgram) (branch : Int) :
    (emitRules prog branch).1.length ≤ 2 := by
  simp only [emitRules, List.length_map, List.length_append]
  split <;> split <;> simp

/-! ## Specification -/

/-- A packet satisfies the narrowing terms of one of the branches that are looked at. -/
def Covered (φ : Formula Atom) (pktMeta : PacketMeta) (packet : Bytes) : Prop :=
  ∃ b ∈ (φ.branches splitDepth).take splitBranchLimit, ∀ a ∈ b.demands false, a.narrows = true →
    a.holds pktMeta (extractFields packet) = true

theorem exists_of_forall₂ {α β : Type} {R : α → β → Prop} {as : List α} {bs : List β}
    (all : List.Forall₂ R as bs) {b : β} (member : b ∈ bs) : ∃ a ∈ as, R a b := by
  induction all with
  | nil => cases member
  | cons head _ ih =>
      rcases List.mem_cons.1 member with rfl | h
      · exact ⟨_, List.mem_cons_self, head⟩
      · obtain ⟨a, inside, rel⟩ := ih h
        exact ⟨a, List.mem_cons_of_mem _ inside, rel⟩

/-- The branches `filterDeriveIptables` works on. -/
theorem split_branches {prog : FilterProgram} {φ : Formula Atom} (compiles : prog.Compiles φ) :
    ∃ idxs, List.Forall₂ (StandsFor prog.nodes) idxs
        ((φ.branches splitDepth).take splitBranchLimit) ∧ idxs ≠ [] ∧
      splitOr prog.nodes prog.nodes.length prog.root [] 0 = idxs := by
  obtain ⟨i, root, rep⟩ := compiles
  obtain ⟨idxs, stand, run⟩ := splits rep 0 rep.lt_length
  refine ⟨idxs.take splitBranchLimit, List.forall₂_take _ stand, ?_, ?_⟩
  · have some : φ.branches (splitDepth - 0) ≠ [] := Formula.branches_ne_nil _ φ
    have size := stand.length_eq
    intro none
    have short := congrArg List.length none
    rw [List.length_take, List.length_nil, size] at short
    have := List.length_pos_iff.2 some
    simp only [splitBranchLimit] at short
    omega
  · rw [root, run [] (by decide), List.nil_append]

/-- A looked-at branch whose terms hold has a rule that matches. -/
theorem derived_match {prog : FilterProgram} {φ : Formula Atom} {pktMeta : PacketMeta}
    {packet : Bytes} (family : FamilyOk packet) {idxs : List Int}
    (stand : List.Forall₂ (StandsFor prog.nodes) idxs
      ((φ.branches splitDepth).take splitBranchLimit))
    (covered : Covered φ pktMeta packet) :
    ∃ r ∈ dedupeRules (idxs.flatMap fun branch => (emitRules prog branch).1),
      r.matches pktMeta packet = true := by
  obtain ⟨b, member, holds⟩ := covered
  obtain ⟨k, inside, i, rfl, rep⟩ := exists_of_forall₂ stand member
  obtain ⟨r, emitted, hit⟩ := emitRules_match _ family rep holds
  exact ⟨r, mem_dedupeRules.2 (List.mem_flatMap.2 ⟨_, inside, emitted⟩), hit⟩

/-- More rules than one branch has come from a disjunction, which demands nothing. -/
theorem fallback_match {prog : FilterProgram} {φ : Formula Atom} {pktMeta : PacketMeta}
    {packet : Bytes} (family : FamilyOk packet) (compiles : prog.Compiles φ) {idxs : List Int}
    (stand : List.Forall₂ (StandsFor prog.nodes) idxs
      ((φ.branches splitDepth).take splitBranchLimit))
    (many : maxDerivedRules <
      (dedupeRules (idxs.flatMap fun branch => (emitRules prog branch).1)).length) :
    ∃ r ∈ (dedupeRules (emitRules prog prog.root).1).take maxDerivedRules,
      r.matches pktMeta packet = true := by
  have disjunction : ∃ ψ χ, φ = .or ψ χ := by
    by_contra leaf
    have one := branches_leaf (fun ψ χ same => leaf ⟨ψ, χ, same⟩) splitDepth
    have size := stand.length_eq
    rw [one] at size
    obtain ⟨k, rfl⟩ := List.length_eq_one_iff.1 size
    have few :=
      length_dedupeRules (([k] : List Int).flatMap fun branch => (emitRules prog branch).1)
    have two := length_emitRules prog k
    rw [List.flatMap_singleton] at few many
    simp only [maxDerivedRules] at many
    omega
  obtain ⟨ψ, χ, rfl⟩ := disjunction
  obtain ⟨i, root, rep⟩ := compiles
  obtain ⟨r, emitted, hit⟩ := emitRules_match pktMeta family rep
    (fun a member => absurd member List.not_mem_nil)
  refine ⟨r, ?_, hit⟩
  have few := length_dedupeRules (emitRules prog prog.root).1
  have two := length_emitRules prog prog.root
  rw [List.take_of_length_le (by simp only [maxDerivedRules]; omega), mem_dedupeRules, root]
  exact emitted

/-- The derived rules match every matched packet that satisfies the narrowing terms of
a branch that is looked at. -/
theorem derive_covered {s : List Char} {prog : FilterProgram} {φ : Formula Atom}
    (accepted : filterCompile s = .ok prog) (denotes : Denotes s φ) {pktMeta : PacketMeta}
    {packet : Bytes} (family : FamilyOk packet) (covered : Covered φ pktMeta packet) :
    ∃ r ∈ (filterDeriveIptables prog maxDerivedRules).1, r.matches pktMeta packet = true := by
  have compiles := compiles_of_denotes accepted denotes
  obtain ⟨idxs, stand, some, split⟩ := split_branches compiles
  have nonneg : prog.root ≥ 0 := by
    obtain ⟨i, root, _⟩ := compiles
    omega
  have notEmpty : ¬idxs.isEmpty = true := by simpa using some
  simp only [filterDeriveIptables, orBranches, if_pos nonneg, split, if_neg notEmpty]
  rw [if_neg (by decide)]
  split
  · rename_i many
    exact fallback_match family compiles stand many
  · rename_i few
    obtain ⟨r, member, hit⟩ := derived_match family stand covered
    refine ⟨r, ?_, hit⟩
    rw [List.take_of_length_le (by omega)]
    exact member

/-- Where the branches are few and steady, every matched packet is covered. -/
theorem covered_of_steady {φ : Formula Atom}
    (few : (φ.branches splitDepth).length ≤ splitBranchLimit)
    (steady : ∀ b ∈ φ.branches splitDepth, b.Steady Atom.narrows false) {pktMeta : PacketMeta}
    {packet : Bytes} (matched : denote φ pktMeta packet = true) : Covered φ pktMeta packet := by
  rw [denote, ← Formula.eval_branches _ splitDepth, List.any_eq_true] at matched
  obtain ⟨b, member, value⟩ := matched
  exact ⟨b, by rwa [List.take_of_length_le few], Formula.demands_hold _ (steady b member) value⟩

/-- **The derived rules are a superset** of what the filter matches, as long as all
branches are looked at and no narrowing term is gathered from a conjunction under an
odd number of negations. -/
theorem derive_superset {s : List Char} {prog : FilterProgram} {φ : Formula Atom}
    (accepted : filterCompile s = .ok prog) (denotes : Denotes s φ)
    (few : (φ.branches splitDepth).length ≤ splitBranchLimit)
    (steady : ∀ b ∈ φ.branches splitDepth, b.Steady Atom.narrows false) (pktMeta : PacketMeta)
    (packet : Bytes) (family : FamilyOk packet)
    (matched : filterMatch prog pktMeta packet = true) :
    ∃ r ∈ (filterDeriveIptables prog maxDerivedRules).1, r.matches pktMeta packet = true := by
  rw [filterMatch_eq_denote (compiles_of_denotes accepted denotes)] at matched
  exact derive_covered accepted denotes family (covered_of_steady few steady matched)

/-- A disjunction of two conjunctions. -/
def mixedFilter : List Char := "outbound and tcp or inbound and udp".toList

def mixedFormula : Formula Atom :=
  .or (.and (.atom .outbound) (.atom (.cmp .ipProto .eq 6)))
    (.and (.atom .inbound) (.atom (.cmp .ipProto .eq 17)))

theorem derives_mixed : Derives .or (terminals mixedFilter) mixedFormula := by
  have words : terminals mixedFilter =
      ([.word "outbound".toList] ++ .word "and".toList :: [.word "tcp".toList]) ++
        .word "or".toList ::
          ([.word "inbound".toList] ++ .word "and".toList :: [.word "udp".toList]) := by decide
  have outbound : Derives .not [.word "outbound".toList] (.atom .outbound) :=
    .notOne (.keyword (by decide))
  have tcp : Derives .not [.word "tcp".toList] (.atom (.cmp .ipProto .eq 6)) :=
    .notOne (.keyword (by decide))
  have inbound : Derives .not [.word "inbound".toList] (.atom .inbound) :=
    .notOne (.keyword (by decide))
  have udp : Derives .not [.word "udp".toList] (.atom (.cmp .ipProto .eq 17)) :=
    .notOne (.keyword (by decide))
  rw [words]
  exact .orMore (.orOne (.andMore (.andOne outbound) (by decide) tcp)) (by decide)
    (.andMore (.andOne inbound) (by decide) udp)

/-- An outbound IPv4 datagram of the protocol, with ports. -/
def sampleMeta : PacketMeta :=
  { outbound := true, ipVersion := 4, loopback := false, impostor := false, ifIdx := 0,
    subIfIdx := 0 }

def samplePacket (protocol : UInt8) : Bytes :=
  [0x45, 0, 0, 28, 0, 0, 0, 0, 64, protocol, 0, 0, 10, 0, 0, 1, 10, 0, 0, 2,
    0, 53, 0, 53, 0, 8, 0, 0]

theorem family_samplePacket {protocol : UInt8} (tcpOrUdp : protocol = 6 ∨ protocol = 17) :
    FamilyOk (samplePacket protocol) := by
  rcases tcpOrUdp with rfl | rfl <;> exact fun _ => ⟨by decide, by decide⟩

theorem derive_superset_mixed :
    ∃ prog, filterCompile mixedFilter = .ok prog ∧
      ∃ r ∈ (filterDeriveIptables prog maxDerivedRules).1,
        r.matches sampleMeta (samplePacket 6) = true := by
  obtain ⟨prog, accepted, compiles⟩ := filterCompile_of_derives derives_mixed
  refine ⟨prog, accepted, ?_⟩
  refine derive_superset accepted (.inr derives_mixed) (by decide) (by decide) sampleMeta
    (samplePacket 6) (family_samplePacket (.inl rfl)) ?_
  rw [filterMatch_eq_denote compiles]
  decide

/-- `not (inbound and not tcp)` matches outbound UDP, and its rules do not. -/
theorem derive_loses_outbound_udp :
    ∃ prog, filterCompile "not (inbound and not tcp)".toList = .ok prog ∧
      FamilyOk (samplePacket 17) ∧ filterMatch prog sampleMeta (samplePacket 17) = true ∧
        ¬∃ r ∈ (filterDeriveIptables prog maxDerivedRules).1,
          r.matches sampleMeta (samplePacket 17) = true := by
  have run : ((filterCompile "not (inbound and not tcp)".toList).toOption.any fun prog =>
      filterMatch prog sampleMeta (samplePacket 17) &&
        (filterDeriveIptables prog maxDerivedRules).1.all fun r =>
          !r.matches sampleMeta (samplePacket 17)) = true := by decide
  obtain ⟨prog, accepted, passed⟩ := exists_compiled run
  rw [Bool.and_eq_true, List.all_eq_true] at passed
  refine ⟨prog, accepted, family_samplePacket (.inr rfl), passed.1, ?_⟩
  rintro ⟨r, member, hit⟩
  have missed := passed.2 r member
  rw [hit] at missed
  cases missed

end Clumsy.Filter
