/-
# Filter.Program -- filterexpr.cpp: the compiled filter and its evaluation

A `FilterProgram` is an array of nodes that refer to each other by index.
`Represents` says which formula stands at an index; `evalNode`, which recurses
along the indices, computes that formula's value (`evalNode_represents`).  The
recursion of the source is bounded here by the number of nodes, which suffices
because a represented node refers to earlier ones only.
-/
import Clumsy.Packet.Util
import Clumsy.Theory.Formula

namespace Clumsy.Filter

open Clumsy.Theory
open Clumsy.Packet

set_option autoImplicit false

inductive NodeKind where
  | nTrue
  | nFalse
  | nAnd
  | nOr
  | nNot
  | nOutbound
  | nInbound
  | nLoopback
  | nIpv4
  | nIpv6
  | nCmp
  deriving DecidableEq, Repr

/-- Comparable packet fields. -/
inductive Field where
  | ipSrc
  | ipDst
  | ipProto
  | tcpSrcPort
  | tcpDstPort
  | udpSrcPort
  | udpDstPort
  deriving DecidableEq, Repr

inductive Op where
  | eq
  | ne
  | gt
  | lt
  | ge
  | le
  deriving DecidableEq, Repr

structure Node where
  kind  : NodeKind
  /-- Index into `FilterProgram.nodes`. -/
  left  : Int := -1
  right : Int := -1
  field : Field := .ipSrc
  op    : Op := .eq
  value : UInt32 := 0
  deriving DecidableEq, Repr

structure FilterProgram where
  nodes : List Node
  root  : Int
  deriving DecidableEq, Repr

/-! ## Reading a packet -/

/-- What can be read out of one packet. -/
structure PacketFields where
  valid    : Bool := false
  isV4     : Bool := false
  /-- Host byte order, IPv4 only. -/
  srcAddr  : UInt32 := 0
  dstAddr  : UInt32 := 0
  protocol : UInt32 := 0
  hasPorts : Bool := false
  srcPort  : UInt32 := 0
  dstPort  : UInt32 := 0
  deriving DecidableEq, Repr

def read32be (p : Bytes) (i : Nat) : UInt32 :=
  UInt32.ofNat (p.read16be i * 65536 + p.read16be (i + 2))

/-- The end of `extractFields`: the ports, if the packet is long enough. -/
def extractPorts (p : Bytes) (transportOffset : Nat) (f : PacketFields) : PacketFields :=
  if (f.protocol = 6 ∨ f.protocol = 17) ∧ p.length ≥ transportOffset + 4 then
    { f with
      hasPorts := true
      srcPort := UInt32.ofNat (p.read16be transportOffset)
      dstPort := UInt32.ofNat (p.read16be (transportOffset + 2))
      valid := true }
  else { f with valid := true }

def extractFields (p : Bytes) : PacketFields :=
  if p.length < 20 then {}
  else
    let version := (p.byteAt 0).toNat / 16
    if version = 4 then
      let ihl := (p.byteAt 0).toNat % 16 * 4
      if ihl < 20 ∨ p.length < ihl then {}
      else
        let f : PacketFields :=
          { isV4 := true
            protocol := (p.byteAt 9).toUInt32
            srcAddr := read32be p 12
            dstAddr := read32be p 16 }
        -- a fragment other than the first has no transport header to read
        if p.read16be 6 % 0x2000 ≠ 0 then { f with valid := true }
        else extractPorts p ihl f
    else if version = 6 then
      if p.length < 40 then {}
      else extractPorts p 40 { protocol := (p.byteAt 6).toUInt32 }
    else {}

/-! ## Evaluation -/

def compare (lhs : UInt32) (op : Op) (rhs : UInt32) : Bool :=
  match op with
  | .ne => lhs != rhs
  | .gt => decide (lhs > rhs)
  | .lt => decide (lhs < rhs)
  | .ge => decide (lhs ≥ rhs)
  | .le => decide (lhs ≤ rhs)
  | .eq => lhs == rhs

/-- The `N_CMP` case. -/
def evalCmp (f : PacketFields) (n : Node) : Bool :=
  if !f.valid then false
  else
    match n.field with
    | .ipSrc => f.isV4 && compare f.srcAddr n.op n.value
    | .ipDst => f.isV4 && compare f.dstAddr n.op n.value
    | .ipProto => compare f.protocol n.op n.value
    | .tcpSrcPort => f.hasPorts && f.protocol == 6 && compare f.srcPort n.op n.value
    | .tcpDstPort => f.hasPorts && f.protocol == 6 && compare f.dstPort n.op n.value
    | .udpSrcPort => f.hasPorts && f.protocol == 17 && compare f.srcPort n.op n.value
    | .udpDstPort => f.hasPorts && f.protocol == 17 && compare f.dstPort n.op n.value

def nodeAt (nodes : List Node) (idx : Int) : Option Node :=
  if idx < 0 then none else nodes[idx.toNat]?

def evalNode (nodes : List Node) (pktMeta : PacketMeta) (f : PacketFields) : Nat → Int → Bool
  | 0, _ => false
  | fuel + 1, idx =>
      match nodeAt nodes idx with
      | none => false
      | some n =>
          match n.kind with
          | .nTrue => true
          | .nFalse => false
          | .nAnd =>
              evalNode nodes pktMeta f fuel n.left && evalNode nodes pktMeta f fuel n.right
          | .nOr =>
              evalNode nodes pktMeta f fuel n.left || evalNode nodes pktMeta f fuel n.right
          | .nNot => !evalNode nodes pktMeta f fuel n.left
          | .nOutbound => pktMeta.outbound
          | .nInbound => !pktMeta.outbound
          | .nLoopback => pktMeta.loopback
          | .nIpv4 => f.valid && f.isV4
          | .nIpv6 => f.valid && !f.isV4
          | .nCmp => evalCmp f n

def filterMatch (prog : FilterProgram) (pktMeta : PacketMeta) (packet : Bytes) : Bool :=
  if prog.root < 0 then true
  else evalNode prog.nodes pktMeta (extractFields packet) prog.nodes.length prog.root

/-! ## What an index stands for -/

/-- The leaves of a filter formula. -/
inductive Atom where
  | outbound
  | inbound
  | loopback
  | ipv4
  | ipv6
  | cmp (field : Field) (op : Op) (value : Nat)
  deriving DecidableEq, Repr

def Op.holds : Op → Nat → Nat → Bool
  | .ne, l, r => l != r
  | .gt, l, r => decide (l > r)
  | .lt, l, r => decide (l < r)
  | .ge, l, r => decide (l ≥ r)
  | .le, l, r => decide (l ≤ r)
  | .eq, l, r => l == r

/-- The value of a field of a packet that has it. -/
def PacketFields.field? (f : PacketFields) : Field → Option Nat
  | .ipSrc => if f.isV4 then some f.srcAddr.toNat else none
  | .ipDst => if f.isV4 then some f.dstAddr.toNat else none
  | .ipProto => some f.protocol.toNat
  | .tcpSrcPort => if f.hasPorts && f.protocol == 6 then some f.srcPort.toNat else none
  | .tcpDstPort => if f.hasPorts && f.protocol == 6 then some f.dstPort.toNat else none
  | .udpSrcPort => if f.hasPorts && f.protocol == 17 then some f.srcPort.toNat else none
  | .udpDstPort => if f.hasPorts && f.protocol == 17 then some f.dstPort.toNat else none

/-- What an atom says about a packet. -/
def Atom.holds (pktMeta : PacketMeta) (f : PacketFields) : Atom → Bool
  | .outbound => pktMeta.outbound
  | .inbound => !pktMeta.outbound
  | .loopback => pktMeta.loopback
  | .ipv4 => f.valid && f.isV4
  | .ipv6 => f.valid && !f.isV4
  | .cmp field op value => f.valid && (f.field? field).any fun v => op.holds v value

/-- The value of a formula on a packet. -/
def denote (φ : Formula Atom) (pktMeta : PacketMeta) (packet : Bytes) : Bool :=
  φ.eval (Atom.holds pktMeta (extractFields packet))

namespace Node

/-- The atom a leaf node stands for. -/
def atom? (n : Node) : Option Atom :=
  match n.kind with
  | .nOutbound => some .outbound
  | .nInbound => some .inbound
  | .nLoopback => some .loopback
  | .nIpv4 => some .ipv4
  | .nIpv6 => some .ipv6
  | .nCmp => some (.cmp n.field n.op n.value.toNat)
  | _ => none

end Node

/-- Index `i` of `nodes` stands for a formula: the node there has its shape and
refers to earlier nodes that stand for its parts. -/
inductive Represents (nodes : List Node) : Nat → Formula Atom → Prop
  | tt {i : Nat} {n : Node} (here : nodes[i]? = some n) (kind : n.kind = .nTrue) :
      Represents nodes i .tt
  | ff {i : Nat} {n : Node} (here : nodes[i]? = some n) (kind : n.kind = .nFalse) :
      Represents nodes i .ff
  | atom {i : Nat} {n : Node} {a : Atom} (here : nodes[i]? = some n) (leaf : n.atom? = some a) :
      Represents nodes i (.atom a)
  | and {i l r : Nat} {n : Node} {φ ψ : Formula Atom} (here : nodes[i]? = some n)
      (kind : n.kind = .nAnd) (left : n.left = (l : Int)) (right : n.right = (r : Int))
      (lower : l < i) (lower' : r < i) (first : Represents nodes l φ)
      (second : Represents nodes r ψ) : Represents nodes i (.and φ ψ)
  | or {i l r : Nat} {n : Node} {φ ψ : Formula Atom} (here : nodes[i]? = some n)
      (kind : n.kind = .nOr) (left : n.left = (l : Int)) (right : n.right = (r : Int))
      (lower : l < i) (lower' : r < i) (first : Represents nodes l φ)
      (second : Represents nodes r ψ) : Represents nodes i (.or φ ψ)
  | not {i l : Nat} {n : Node} {φ : Formula Atom} (here : nodes[i]? = some n)
      (kind : n.kind = .nNot) (left : n.left = (l : Int)) (lower : l < i)
      (operand : Represents nodes l φ) : Represents nodes i (.not φ)

/-- A program whose root stands for `φ`. -/
def FilterProgram.Compiles (prog : FilterProgram) (φ : Formula Atom) : Prop :=
  ∃ i : Nat, prog.root = (i : Int) ∧ Represents prog.nodes i φ

/-! ## Specification -/

theorem nodeAt_natCast (nodes : List Node) (i : Nat) : nodeAt nodes (i : Int) = nodes[i]? := by
  unfold nodeAt
  rw [if_neg (by omega), Int.toNat_natCast]

theorem compare_eq_holds (lhs : UInt32) (op : Op) (rhs : UInt32) :
    compare lhs op rhs = op.holds lhs.toNat rhs.toNat := by
  cases op with
  | eq | ne =>
      rw [Bool.eq_iff_iff]
      simp [compare, Op.holds, ← UInt32.toNat_inj]
  | gt | lt | ge | le => simp [compare, Op.holds, UInt32.lt_iff_toNat_lt, UInt32.le_iff_toNat_le]

theorem evalCmp_eq_holds (pktMeta : PacketMeta) (f : PacketFields) (n : Node) :
    evalCmp f n = (Atom.cmp n.field n.op n.value.toNat).holds pktMeta f := by
  unfold evalCmp Atom.holds
  cases f.valid with
  | false => rfl
  | true =>
      simp only [compare_eq_holds]
      cases n.field with
      | ipSrc | ipDst => cases h : f.isV4 <;> simp [PacketFields.field?, h]
      | ipProto => simp [PacketFields.field?]
      | tcpSrcPort | tcpDstPort =>
          cases h : (f.hasPorts && f.protocol == 6) <;> simp [PacketFields.field?, h]
      | udpSrcPort | udpDstPort =>
          cases h : (f.hasPorts && f.protocol == 17) <;> simp [PacketFields.field?, h]

theorem Represents.lt_length {nodes : List Node} {i : Nat} {φ : Formula Atom}
    (rep : Represents nodes i φ) : i < nodes.length := by
  cases rep <;> rename_i here _ <;> exact (List.getElem?_eq_some_iff.1 ‹nodes[i]? = some _›).1

/-- Nodes are only ever appended, and that changes nothing that stands. -/
theorem Represents.extend {nodes more : List Node} {i : Nat} {φ : Formula Atom}
    (rep : Represents nodes i φ) : Represents (nodes ++ more) i φ := by
  have kept {j : Nat} {n : Node} (here : nodes[j]? = some n) : (nodes ++ more)[j]? = some n := by
    rw [List.getElem?_append_left (List.getElem?_eq_some_iff.1 here).1]
    exact here
  induction rep with
  | tt here kind => exact .tt (kept here) kind
  | ff here kind => exact .ff (kept here) kind
  | atom here leaf => exact .atom (kept here) leaf
  | and here kind left right lower lower' _ _ ihl ihr =>
      exact .and (kept here) kind left right lower lower' ihl ihr
  | or here kind left right lower lower' _ _ ihl ihr =>
      exact .or (kept here) kind left right lower lower' ihl ihr
  | not here kind left lower _ ih => exact .not (kept here) kind left lower ih

/-- A leaf stands for an atom, so it is no connective. -/
theorem Node.atom?_kind {n : Node} {a : Atom} (leaf : n.atom? = some a) :
    n.kind ≠ .nTrue ∧ n.kind ≠ .nFalse ∧ n.kind ≠ .nAnd ∧ n.kind ≠ .nOr ∧ n.kind ≠ .nNot := by
  cases kind : n.kind <;> simp [Node.atom?, kind] at leaf ⊢

/-- An index stands for one formula. -/
theorem Represents.unique {nodes : List Node} {i : Nat} {φ ψ : Formula Atom}
    (rep : Represents nodes i φ) (rep' : Represents nodes i ψ) : φ = ψ := by
  induction rep generalizing ψ with
  | tt here kind =>
      cases rep' <;> grind [Node.atom?_kind]
  | ff here kind =>
      cases rep' <;> grind [Node.atom?_kind]
  | atom here leaf =>
      cases rep' <;> grind [Node.atom?_kind]
  | and here kind left right lower lower' _ _ ihl ihr =>
      cases rep' <;> grind [Node.atom?_kind]
  | or here kind left right lower lower' _ _ ihl ihr =>
      cases rep' <;> grind [Node.atom?_kind]
  | not here kind left lower _ ih =>
      cases rep' <;> grind [Node.atom?_kind]

/-- **Evaluation computes the represented formula**, given a round for every
node at or below the index. -/
theorem evalNode_represents {nodes : List Node} (pktMeta : PacketMeta) (f : PacketFields) {i : Nat}
    {φ : Formula Atom} (rep : Represents nodes i φ) {fuel : Nat} (enough : i < fuel) :
    evalNode nodes pktMeta f fuel i = φ.eval (Atom.holds pktMeta f) := by
  induction rep generalizing fuel with
  | tt here kind =>
      obtain ⟨fuel, rfl⟩ : ∃ k, fuel = k + 1 := ⟨fuel - 1, by omega⟩
      simp [evalNode, nodeAt_natCast, here, kind]
  | ff here kind =>
      obtain ⟨fuel, rfl⟩ : ∃ k, fuel = k + 1 := ⟨fuel - 1, by omega⟩
      simp [evalNode, nodeAt_natCast, here, kind]
  | @atom i n a here leaf =>
      obtain ⟨fuel, rfl⟩ : ∃ k, fuel = k + 1 := ⟨fuel - 1, by omega⟩
      simp only [evalNode, nodeAt_natCast, here]
      cases kind : n.kind with
      | nTrue | nFalse | nAnd | nOr | nNot => simp [Node.atom?, kind] at leaf
      | nOutbound | nInbound | nLoopback | nIpv4 | nIpv6 =>
          simp only [Node.atom?, kind, Option.some.injEq] at leaf
          subst leaf
          rfl
      | nCmp =>
          simp only [Node.atom?, kind, Option.some.injEq] at leaf
          subst leaf
          exact evalCmp_eq_holds pktMeta f n
  | and here kind left right lower lower' _ _ ihl ihr =>
      obtain ⟨fuel, rfl⟩ : ∃ k, fuel = k + 1 := ⟨fuel - 1, by omega⟩
      simp only [evalNode, nodeAt_natCast, here, kind, left, right, Formula.eval_and]
      rw [ihl (by omega), ihr (by omega)]
  | or here kind left right lower lower' _ _ ihl ihr =>
      obtain ⟨fuel, rfl⟩ : ∃ k, fuel = k + 1 := ⟨fuel - 1, by omega⟩
      simp only [evalNode, nodeAt_natCast, here, kind, left, right, Formula.eval_or]
      rw [ihl (by omega), ihr (by omega)]
  | not here kind left lower _ ih =>
      obtain ⟨fuel, rfl⟩ : ∃ k, fuel = k + 1 := ⟨fuel - 1, by omega⟩
      simp only [evalNode, nodeAt_natCast, here, kind, left, Formula.eval_not]
      rw [ih (by omega)]

/-- **Matching is denotation** for a program that stands for a formula. -/
theorem filterMatch_eq_denote {prog : FilterProgram} {φ : Formula Atom}
    (compiles : prog.Compiles φ) (pktMeta : PacketMeta) (packet : Bytes) :
    filterMatch prog pktMeta packet = denote φ pktMeta packet := by
  obtain ⟨i, root, rep⟩ := compiles
  unfold filterMatch denote
  rw [root, if_neg (by omega)]
  exact evalNode_represents pktMeta (extractFields packet) rep rep.lt_length

end Clumsy.Filter
