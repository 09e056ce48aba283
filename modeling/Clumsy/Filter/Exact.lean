/-
# Filter.Exact -- when the exact flag tells the truth

`filterDeriveIptables` calls its rules exact if `collect` met nothing that it cannot
express.  It does not notice what it overwrites: of `outbound and inbound` only the
last is left, and of a protocol or an address that is 0 nothing, since 0 stands for
"any".

What a rule asks for is `asked`, the last term of each kind (`branch_selects_iff`).  The
flag is truthful exactly if this still implies the filter (`exact_iff`).  For a branch by
itself that comes down to its text: none of the terms is lost, or no packet is what is
left of them (`asksEnough_self_iff`).
-/
import Clumsy.Filter.Collected
import Clumsy.Filter.Vary

namespace Clumsy.Filter

open Clumsy.Theory
open Clumsy.Packet

set_option autoImplicit false

/-! ## What a rule selects -/

/-- A rule read as a conjunction over what can be read of a packet. -/
def IptablesRule.selects (r : IptablesRule) (pktMeta : PacketMeta) (packet : Bytes) : Bool :=
  coversDirection r.chains pktMeta.outbound && (extractFields packet).valid &&
    (r.ipv6 == !(extractFields packet).isV4) && argsHold (extractFields packet) (words r.matchText)

/-- On a packet with a header this is what it matches. -/
theorem selects_eq_matches {packet : Bytes} (valid : (extractFields packet).valid = true)
    (r : IptablesRule) (pktMeta : PacketMeta) :
    r.selects pktMeta packet = r.matches pktMeta packet := by
  rw [IptablesRule.selects, IptablesRule.matches, valid, isV4_eq valid, Bool.not_not,
    Bool.and_true]

/-- A port is kept with its protocol. -/
def askPort (field : Field) (port : Int) : List Atom :=
  if 0 ≤ port then [.cmp field .eq port.toNat] else []

def askAddr (field : Field) (addr : UInt32) : List Atom :=
  if addr ≠ 0 then [.cmp field .eq addr.toNat] else []

/-- The direction, the version and the protocol that are kept. -/
def askDirection (c : Constraints) : List Atom :=
  if c.chains = chainOutput then [.outbound]
  else if c.chains = chainInput then [.inbound] else []

def askVersion (c : Constraints) : List Atom :=
  if c.ipv6 = 0 then [.ipv4] else if c.ipv6 = 1 then [.ipv6] else []

def askProto (c : Constraints) : List Atom :=
  if 0 < c.proto then [.cmp .ipProto .eq c.proto.toNat] else []

def askPorts (c : Constraints) : List Atom :=
  if c.proto = 6 then askPort .tcpDstPort c.dstPort ++ askPort .tcpSrcPort c.srcPort
  else if c.proto = 17 then askPort .udpDstPort c.dstPort ++ askPort .udpSrcPort c.srcPort
  else []

/-- **What the rules of a branch ask**: the last direction, version and protocol,
the last ports if the protocol has any, and the last addresses, as far as they are more
than 0. -/
def asked (ts : List Atom) : List Atom :=
  let c := collected ts
  askDirection c ++ askVersion c ++ askProto c ++ askPorts c ++ askAddr .ipSrc c.srcAddr ++
    askAddr .ipDst c.dstAddr

/-! ## The arguments hold as the kept terms do -/

theorem octet_value (addr shift : UInt32) :
    (addr >>> shift &&& 0xFF).toNat = addr.toNat / 2 ^ (shift.toNat % 32) % 256 := by
  have mask : (0xFF : UInt32).toNat = 2 ^ 8 - 1 := rfl
  rw [UInt32.toNat_and, UInt32.toNat_shiftRight, mask, Nat.and_two_pow_sub_one_eq_mod,
    Nat.shiftRight_eq_div_pow]

theorem eq_of_append_sep {α : Type} {sep : α} {x y z w : List α} (plain : sep ∉ x)
    (plain' : sep ∉ y) (same : x ++ sep :: z = y ++ sep :: w) : x = y ∧ z = w := by
  induction x generalizing y with
  | nil =>
      cases y with
      | nil => exact ⟨rfl, List.tail_eq_of_cons_eq same⟩
      | cons b y =>
          cases same
          exact absurd List.mem_cons_self plain'
  | cons a x ih =>
      cases y with
      | nil =>
          cases same
          exact absurd List.mem_cons_self plain
      | cons b y =>
          obtain ⟨rfl, rest⟩ := List.cons.inj same
          obtain ⟨rfl, rfl⟩ := ih (fun h => plain (List.mem_cons_of_mem _ h))
            (fun h => plain' (List.mem_cons_of_mem _ h)) rest
          exact ⟨rfl, rfl⟩

theorem octet_plain (addr shift : UInt32) : '.' ∉ octet addr shift := by
  intro member
  have digit := Nat.isDigit_of_mem_toDigits (by decide) (by decide) member
  exact absurd digit (by decide)

theorem formatAddr_inj {a b : UInt32} : formatAddr a = formatAddr b ↔ a = b := by
  constructor
  · intro same
    have byte {shift : UInt32} (octets : octet a shift = octet b shift) :
        a.toNat / 2 ^ (shift.toNat % 32) % 256 = b.toNat / 2 ^ (shift.toNat % 32) % 256 := by
      rw [← octet_value, ← octet_value]
      exact digits_inj.1 octets
    simp only [formatAddr, List.append_assoc, List.cons_append] at same
    obtain ⟨first, same⟩ := eq_of_append_sep (octet_plain a 24) (octet_plain b 24) same
    obtain ⟨second, same⟩ := eq_of_append_sep (octet_plain a 16) (octet_plain b 16) same
    obtain ⟨third, fourth⟩ := eq_of_append_sep (octet_plain a 8) (octet_plain b 8) same
    have h₁ : a.toNat / 2 ^ 24 % 256 = b.toNat / 2 ^ 24 % 256 := byte first
    have h₂ : a.toNat / 2 ^ 16 % 256 = b.toNat / 2 ^ 16 % 256 := byte second
    have h₃ : a.toNat / 2 ^ 8 % 256 = b.toNat / 2 ^ 8 % 256 := byte third
    have h₄ : a.toNat / 2 ^ 0 % 256 = b.toNat / 2 ^ 0 % 256 := byte fourth
    have small := a.toNat_lt
    have small' := b.toNat_lt
    rw [← UInt32.toNat_inj]
    omega
  · rintro rfl
    rfl

theorem lookup_digits (n : Nat) : lookup protos (Nat.toDigits 10 n) = none := by
  have lower : (Nat.toDigits 10 n).map Char.toLower = Nat.toDigits 10 n := by
    rw [List.map_congr_left (g := id) ?_, List.map_id]
    intro d member
    have digit := Nat.isDigit_of_mem_toDigits (by decide) (by decide) member
    apply Char.toLower_eq_of_not_isUpper
    simp only [Char.isDigit, Char.isUpper, Bool.and_eq_true, decide_eq_true_eq,
      UInt32.le_iff_toNat_le] at digit ⊢
    have nine : '9'.val.toNat = 57 := rfl
    have letter : 'A'.val.toNat = 65 := rfl
    omega
  have letters : ∀ entry ∈ protos, ∃ c w,
      entry.1.toList.map Char.toLower = c :: w ∧ c.isDigit = false := by
    intro entry member
    simp only [protos, List.mem_cons, List.not_mem_nil, or_false] at member
    rcases member with rfl | rfl | rfl | rfl
    · exact ⟨'t', ['c', 'p'], by decide, by decide⟩
    · exact ⟨'u', ['d', 'p'], by decide, by decide⟩
    · exact ⟨'i', ['c', 'm', 'p'], by decide, by decide⟩
    · exact ⟨'i', ['c', 'm', 'p', 'v', '6'], by decide, by decide⟩
  rw [lookup, Option.map_eq_none_iff, List.find?_eq_none]
  intro entry member
  obtain ⟨c, w, name, letter⟩ := letters entry member
  rw [stricmp, lower, name, beq_iff_eq]
  exact digits_ne_name letter

/-- A name of a protocol. -/
theorem argHolds_name {f : PacketFields} {name : List Char} {n : UInt32}
    (known : lookup protos name = some n) (notNumber : ∀ k, name ≠ Nat.toDigits 10 k) :
    argHolds f "-p".toList name = true ↔ f.protocol.toNat = n.toNat := by
  have other : (name == unsigned f.protocol) = false :=
    beq_false_of_ne (notNumber f.protocol.toNat)
  rw [argHolds, if_pos rfl, known, other]
  simp only [Bool.or_false, beq_iff_eq, Option.some.injEq, UInt32.toNat_inj]
  exact eq_comm

theorem argHolds_number {f : PacketFields} {n : Nat} :
    argHolds f "-p".toList (Nat.toDigits 10 n) = true ↔ f.protocol.toNat = n := by
  rw [argHolds, if_pos rfl, lookup_digits]
  simp only [reduceCtorEq, beq_iff_eq, Bool.or_eq_true, false_or, unsigned, digits_inj]
  exact eq_comm

section Asked

variable {pktMeta : PacketMeta} {f : PacketFields} (valid : f.valid = true)
include valid

theorem holds_proto {n : Nat} :
    (Atom.cmp .ipProto .eq n).holds pktMeta f = true ↔ f.protocol.toNat = n := by
  simp [Atom.holds, valid, PacketFields.field?, Op.holds]

/-- The protocol of a rule holds as the term does. -/
theorem protoArg_iff {c : Constraints} {ipv6 : Bool} :
    (∀ arg ∈ protoArg c ipv6, argHolds f arg.1.toList arg.2 = true) ↔
      ∀ a ∈ askProto c, a.holds pktMeta f = true := by
  have named {name : List Char} {n : UInt32} (known : lookup protos name = some n)
      (notNumber : ∀ k, name ≠ Nat.toDigits 10 k) (pinned : c.proto = n.toNat)
      (some : 0 < n.toNat) :
      (∀ arg ∈ [("-p", name)], argHolds f arg.1.toList arg.2 = true) ↔
        ∀ a ∈ askProto c, a.holds pktMeta f = true := by
    have asks : askProto c = [.cmp .ipProto .eq n.toNat] := by
      rw [askProto, if_pos (by omega), pinned, Int.toNat_natCast]
    rw [asks, List.forall_mem_singleton, List.forall_mem_singleton, holds_proto valid]
    exact argHolds_name known notNumber
  have letters {c : Char} {name : List Char} (letter : c.isDigit = false) (k : Nat) :
      c :: name ≠ Nat.toDigits 10 k := (digits_ne_name letter).symm
  unfold protoArg
  split_ifs with h₁ h₂ h₃ h₄ h₅
  · exact named (n := 6) (by decide) (letters (by decide)) h₁ (by decide)
  · exact named (n := 17) (by decide) (letters (by decide)) h₂ (by decide)
  · exact named (n := 1) (by decide) (letters (by decide)) h₃.1 (by decide)
  · exact named (n := 58) (by decide) (letters (by decide)) h₄.1 (by decide)
  · rw [askProto, if_pos h₅, List.forall_mem_singleton, List.forall_mem_singleton,
      holds_proto valid]
    exact argHolds_number
  · simp [askProto, h₅]

omit valid in
/-- A port argument holds as its term does. -/
theorem portArg_iff {flag : String} {field : Field}
    (same : ∀ n, argHolds f flag.toList (Nat.toDigits 10 n) = true ↔
      (Atom.cmp field .eq n).holds pktMeta f = true) (port : Int) :
    (∀ arg ∈ portArg flag port, argHolds f arg.1.toList arg.2 = true) ↔
      ∀ a ∈ askPort field port, a.holds pktMeta f = true := by
  unfold portArg askPort
  by_cases some : 0 ≤ port
  · rw [if_pos some, if_pos some, List.forall_mem_singleton, List.forall_mem_singleton]
    exact same port.toNat
  · rw [if_neg some, if_neg some]
    simp

omit valid in
/-- An address argument holds as its term does. -/
theorem addrArg_iff {flag : String} {field : Field}
    (same : ∀ addr : UInt32, argHolds f flag.toList (formatAddr addr) = true ↔
      (Atom.cmp field .eq addr.toNat).holds pktMeta f = true) (addr : UInt32) :
    (∀ arg ∈ addrArg flag addr, argHolds f arg.1.toList arg.2 = true) ↔
      ∀ a ∈ askAddr field addr, a.holds pktMeta f = true := by
  unfold addrArg askAddr
  by_cases some : addr ≠ 0
  · rw [if_pos some, if_pos some, List.forall_mem_singleton, List.forall_mem_singleton]
    exact same addr
  · rw [if_neg some, if_neg some]
    simp

/-- An argument that compares what a packet of its kind has with a text. -/
theorem shown_iff {flag : String} {field : Field} {present : Bool} {value shown : List Char}
    {own n : Nat} (compares : argHolds f flag.toList value = (present && value == shown))
    (reads : f.field? field = if present then some own else none)
    (same : value = shown ↔ own = n) :
    argHolds f flag.toList value = true ↔ (Atom.cmp field .eq n).holds pktMeta f = true := by
  rw [compares]
  simp only [Atom.holds, valid, reads]
  cases present with
  | false => simp
  | true => simpa [Op.holds] using same

theorem srcAddr_iff (addr : UInt32) :
    argHolds f "-s".toList (formatAddr addr) = true ↔
      (Atom.cmp .ipSrc .eq addr.toNat).holds pktMeta f = true := by
  apply shown_iff valid rfl rfl
  rw [formatAddr_inj, UInt32.toNat_inj]
  exact eq_comm

theorem dstAddr_iff (addr : UInt32) :
    argHolds f "-d".toList (formatAddr addr) = true ↔
      (Atom.cmp .ipDst .eq addr.toNat).holds pktMeta f = true := by
  apply shown_iff valid rfl rfl
  rw [formatAddr_inj, UInt32.toNat_inj]
  exact eq_comm

/-- Under its protocol a port is a port of the rule. -/
theorem dstPort_iff {field : Field}
    (own : f.field? field = if f.hasPorts then some f.dstPort.toNat else none) (n : Nat) :
    argHolds f "--dport".toList (Nat.toDigits 10 n) = true ↔
      (Atom.cmp field .eq n).holds pktMeta f = true := by
  apply shown_iff valid rfl own
  rw [unsigned, digits_inj]
  exact eq_comm

theorem srcPort_iff {field : Field}
    (own : f.field? field = if f.hasPorts then some f.srcPort.toNat else none) (n : Nat) :
    argHolds f "--sport".toList (Nat.toDigits 10 n) = true ↔
      (Atom.cmp field .eq n).holds pktMeta f = true := by
  apply shown_iff valid rfl own
  rw [unsigned, digits_inj]
  exact eq_comm

/-- The ports of a rule hold as the terms do, on packets of its protocol. -/
theorem portArgs_iff {c : Constraints} (pinned : 0 < c.proto → f.protocol.toNat = c.proto.toNat) :
    (∀ arg ∈ (if c.proto = 6 ∨ c.proto = 17 then
        portArg "--dport" c.dstPort ++ portArg "--sport" c.srcPort else []),
      argHolds f arg.1.toList arg.2 = true) ↔
      ∀ a ∈ askPorts c, a.holds pktMeta f = true := by
  by_cases tcp : c.proto = 6
  · have six : f.protocol = 6 := by
      rw [← UInt32.toNat_inj, pinned (by omega), tcp]
      rfl
    rw [if_pos (.inl tcp), askPorts, if_pos tcp]
    simp only [List.mem_append, or_imp, forall_and]
    have dst := @dstPort_iff pktMeta f valid .tcpDstPort (by simp [PacketFields.field?, six])
    have src := @srcPort_iff pktMeta f valid .tcpSrcPort (by simp [PacketFields.field?, six])
    rw [portArg_iff dst, portArg_iff src]
  by_cases udp : c.proto = 17
  · have seventeen : f.protocol = 17 := by
      rw [← UInt32.toNat_inj, pinned (by omega), udp]
      rfl
    rw [if_pos (.inr udp), askPorts, if_neg tcp, if_pos udp]
    simp only [List.mem_append, or_imp, forall_and]
    have dst := @dstPort_iff pktMeta f valid .udpDstPort (by simp [PacketFields.field?, seventeen])
    have src := @srcPort_iff pktMeta f valid .udpSrcPort (by simp [PacketFields.field?, seventeen])
    rw [portArg_iff dst, portArg_iff src]
  · rw [if_neg (by tauto), askPorts, if_neg tcp, if_neg udp]
    simp

/-- **The arguments of a rule hold as the terms it keeps do.** -/
theorem matchArgs_iff (c : Constraints) (ipv6 : Bool) :
    (∀ arg ∈ matchArgs c ipv6, argHolds f arg.1.toList arg.2 = true) ↔
      ∀ a ∈ askProto c ++ askPorts c ++ askAddr .ipSrc c.srcAddr ++ askAddr .ipDst c.dstAddr,
        a.holds pktMeta f = true := by
  simp only [matchArgs, List.mem_append, or_imp, forall_and]
  rw [@protoArg_iff pktMeta f valid c ipv6, addrArg_iff (@srcAddr_iff pktMeta f valid),
    addrArg_iff (@dstAddr_iff pktMeta f valid)]
  apply and_congr_left
  intro _
  apply and_congr_left
  intro _
  apply and_congr_right
  intro proto
  apply portArgs_iff valid
  intro some
  rw [← @holds_proto pktMeta f valid]
  exact proto _ (by rw [askProto, if_pos some]; exact List.mem_singleton_self _)

end Asked

theorem chains_cases (ts : List Atom) :
    (collected ts).chains = chainOutput ∨ (collected ts).chains = chainInput ∨
      (collected ts).chains = chainOutput ||| chainInput := by
  show (lastWrite Atom.chains? ts).getD _ = _ ∨ (lastWrite Atom.chains? ts).getD _ = _ ∨
    (lastWrite Atom.chains? ts).getD _ = _
  cases last : lastWrite Atom.chains? ts with
  | none => exact .inr (.inr rfl)
  | some chains =>
      obtain ⟨a, _, set⟩ := exists_of_lastWrite last
      unfold Atom.chains? at set
      split at set
      · exact .inl (Option.some.inj set).symm
      · exact .inr (.inl (Option.some.inj set).symm)
      · cases set

/-- A rule is in the chains of its direction. -/
theorem askDirection_iff (ts : List Atom) (pktMeta : PacketMeta) (f : PacketFields) :
    coversDirection (collected ts).chains pktMeta.outbound = true ↔
      ∀ a ∈ askDirection (collected ts), a.holds pktMeta f = true := by
  rcases chains_cases ts with out | inward | both
  · rw [askDirection, if_pos out, out, List.forall_mem_singleton, Atom.holds]
    cases pktMeta.outbound <;> decide
  · rw [askDirection, if_neg (by rw [inward]; decide), if_pos inward, inward,
      List.forall_mem_singleton, Atom.holds]
    cases pktMeta.outbound <;> decide
  · rw [askDirection, if_neg (by rw [both]; decide), if_neg (by rw [both]; decide), both]
    cases pktMeta.outbound <;> simp [coversDirection, chainOutput, chainInput]

/-- There is a rule for the versions that are asked for. -/
theorem askVersion_iff (ts : List Atom) (pktMeta : PacketMeta) {f : PacketFields}
    (valid : f.valid = true) :
    (!f.isV4) ∈ versions (collected ts) ↔
      ∀ a ∈ askVersion (collected ts), a.holds pktMeta f = true := by
  have version : (collected ts).ipv6 = -1 ∨ (collected ts).ipv6 = 0 ∨ (collected ts).ipv6 = 1 := by
    show (lastWrite Atom.version? ts).getD (-1) = _ ∨ (lastWrite Atom.version? ts).getD (-1) = _ ∨
      (lastWrite Atom.version? ts).getD (-1) = _
    cases last : lastWrite Atom.version? ts with
    | none => exact .inl rfl
    | some version => exact .inr (version_cases last)
  rcases version with any | four | six
  · simp [versions, askVersion, any]
  · simp [versions, askVersion, four, Atom.holds, valid]
  · simp [versions, askVersion, six, Atom.holds, valid]

/-- **A branch has a rule for a packet exactly if** the packet is what the branch still
asks for. -/
theorem branch_selects_iff (b : Formula Atom) (pktMeta : PacketMeta) (packet : Bytes) :
    (∃ r ∈ branchRules b, r.selects pktMeta packet = true) ↔
      (extractFields packet).valid = true ∧
        ∀ a ∈ asked (b.demands false), a.holds pktMeta (extractFields packet) = true := by
  have small := collected_small (b.demands false)
  have rule (ipv6 : Bool) : argsHold (extractFields packet)
      (words (ruleFor (collected (b.demands false)) ipv6).matchText) = true ↔
        ∀ arg ∈ matchArgs (collected (b.demands false)) ipv6,
          argHolds (extractFields packet) arg.1.toList arg.2 = true := by
    rw [ruleFor, words_buildMatch (small.proper ipv6) (matchArgs_length _ ipv6), argsHold_args,
      List.all_eq_true]
  have parts (valid : (extractFields packet).valid = true) :
      (∀ a ∈ asked (b.demands false), a.holds pktMeta (extractFields packet) = true) ↔
        coversDirection (collected (b.demands false)).chains pktMeta.outbound = true ∧
          (!(extractFields packet).isV4) ∈ versions (collected (b.demands false)) ∧
            argsHold (extractFields packet) (words (ruleFor (collected (b.demands false))
              (!(extractFields packet).isV4)).matchText) = true := by
    rw [rule, @matchArgs_iff pktMeta _ valid, askVersion_iff _ pktMeta valid,
      askDirection_iff _ pktMeta (extractFields packet)]
    simp only [asked, List.mem_append, or_imp, forall_and]
    tauto
  constructor
  · rintro ⟨r, member, selected⟩
    obtain ⟨ipv6, wanted, rfl⟩ := List.mem_map.1 member
    simp only [IptablesRule.selects, Bool.and_eq_true, beq_iff_eq] at selected
    obtain ⟨⟨⟨covers, valid⟩, version⟩, args⟩ := selected
    have same : ipv6 = !(extractFields packet).isV4 := version
    subst same
    exact ⟨valid, (parts valid).2 ⟨covers, wanted, args⟩⟩
  · rintro ⟨valid, holds⟩
    obtain ⟨covers, wanted, args⟩ := (parts valid).1 holds
    refine ⟨_, List.mem_map.2 ⟨_, wanted, rfl⟩, ?_⟩
    simp only [IptablesRule.selects, Bool.and_eq_true, beq_iff_eq]
    exact ⟨⟨⟨covers, valid⟩, rfl⟩, args⟩

/-! ## The terms of an exact branch -/

/-- A branch that is expressed is the conjunction of its terms, and they are all of a
kind a rule has a place for. -/
theorem eval_of_exact {b : Formula Atom} (exact : widens false b = false) :
    (∀ v : Atom → Bool, b.eval v = true ↔ ∀ a ∈ b.demands false, v a = true) ∧
      ∀ a ∈ b.demands false, a.widens false = false := by
  induction b with
  | tt => simp [Formula.demands]
  | ff => cases exact
  | atom a =>
      refine ⟨by simp [Formula.demands], ?_⟩
      intro b member
      rw [List.mem_singleton.1 member]
      exact exact
  | and φ ψ ihφ ihψ =>
      obtain ⟨left, right⟩ := Bool.or_eq_false_iff.1 exact
      obtain ⟨evalL, kindL⟩ := ihφ left
      obtain ⟨evalR, kindR⟩ := ihψ right
      constructor
      · intro v
        rw [Formula.eval_and, Bool.and_eq_true, evalL, evalR]
        simp only [Formula.demands, List.mem_append, or_imp, forall_and]
      · intro a member
        exact (List.mem_append.1 member).elim (kindL a) (kindR a)
  | or φ ψ => cases exact
  | not φ => cases exact

/-! ## A lost term shows -/

/-- The field a term is about. -/
def Atom.field? : Atom → Option Field
  | .cmp field _ _ => some field
  | _ => none

theorem holds_other_src {a : Atom} (other : a.field? ≠ some .ipSrc) (pktMeta : PacketMeta)
    (f : PacketFields) (src : UInt32) :
    a.holds pktMeta { f with srcAddr := src } = a.holds pktMeta f := by
  cases a with
  | cmp field op value =>
      cases field with
      | ipSrc => exact absurd rfl other
      | _ => rfl
  | _ => rfl

theorem holds_other_dst {a : Atom} (other : a.field? ≠ some .ipDst) (pktMeta : PacketMeta)
    (f : PacketFields) (dst : UInt32) :
    a.holds pktMeta { f with dstAddr := dst } = a.holds pktMeta f := by
  cases a with
  | cmp field op value =>
      cases field with
      | ipDst => exact absurd rfl other
      | _ => rfl
  | _ => rfl

/-- A term about neither the protocol nor a port. -/
theorem holds_other_proto {a : Atom}
    (other : a.field? = none ∨ a.field? = some .ipSrc ∨ a.field? = some .ipDst)
    (pktMeta : PacketMeta) {f g : PacketFields} (valid : g.valid = f.valid)
    (version : g.isV4 = f.isV4) (src : g.srcAddr = f.srcAddr) (dst : g.dstAddr = f.dstAddr) :
    a.holds pktMeta g = a.holds pktMeta f := by
  cases a with
  | cmp field op value =>
      rcases other with none | src' | dst'
      · cases none
      · cases src'
        simp only [Atom.holds, PacketFields.field?, valid, version, src]
      · cases dst'
        simp only [Atom.holds, PacketFields.field?, valid, version, dst]
  | outbound => rfl
  | inbound => rfl
  | loopback => rfl
  | ipv4 => simp only [Atom.holds, valid, version]
  | ipv6 => simp only [Atom.holds, valid, version]

/-- What is asked about a field is asked by its constraint. -/
theorem asked_field {ts : List Atom} {a : Atom} (member : a ∈ asked ts) :
    a.field? = none ∨ a.field? = some .ipSrc ∧ (collected ts).srcAddr ≠ 0 ∨
      a.field? = some .ipDst ∧ (collected ts).dstAddr ≠ 0 ∨
      0 < (collected ts).proto ∧ a.field? ≠ some .ipSrc ∧ a.field? ≠ some .ipDst := by
  have port {field : Field} {port : Int} (asks : a ∈ askPort field port) :
      a.field? = some field := by
    unfold askPort at asks
    split_ifs at asks
    · cases List.mem_singleton.1 asks
      rfl
    · cases asks
  have address {field : Field} {addr : UInt32} (asks : a ∈ askAddr field addr) :
      a.field? = some field ∧ addr ≠ 0 := by
    unfold askAddr at asks
    split_ifs at asks with some
    · cases List.mem_singleton.1 asks
      exact ⟨rfl, some⟩
    · cases asks
  simp only [asked, List.mem_append] at member
  rcases member with ((((direction | version) | proto) | ports) | src) | dst
  · left
    unfold askDirection at direction
    split_ifs at direction
    · cases List.mem_singleton.1 direction
      rfl
    · cases List.mem_singleton.1 direction
      rfl
    · cases direction
  · left
    unfold askVersion at version
    split_ifs at version
    · cases List.mem_singleton.1 version
      rfl
    · cases List.mem_singleton.1 version
      rfl
    · cases version
  · right
    right
    right
    unfold askProto at proto
    split_ifs at proto with some
    · cases List.mem_singleton.1 proto
      exact ⟨some, by simp [Atom.field?], by simp [Atom.field?]⟩
    · cases proto
  · right
    right
    right
    unfold askPorts at ports
    split_ifs at ports with tcp udp
    · rcases List.mem_append.1 ports with asks | asks
      · simp [port asks, tcp]
      · simp [port asks, tcp]
    · rcases List.mem_append.1 ports with asks | asks
      · simp [port asks, udp]
      · simp [port asks, udp]
    · cases ports
  · exact .inr (.inl (address src))
  · exact .inr (.inr (.inl (address dst)))

/-- A comparison holds of the value of its field. -/
theorem field_of_holds {field : Field} {v : Nat} {pktMeta : PacketMeta} {f : PacketFields}
    (holds : (Atom.cmp field .eq v).holds pktMeta f = true) : f.field? field = some v := by
  simp only [Atom.holds, Bool.and_eq_true, Option.any_eq_true] at holds
  obtain ⟨_, x, there, same⟩ := holds
  rw [there, of_decide_eq_true same]

/-- A field has one value. -/
theorem eq_of_holds {field : Field} {v n : Nat} {pktMeta : PacketMeta} {f : PacketFields}
    (first : (Atom.cmp field .eq v).holds pktMeta f = true)
    (second : (Atom.cmp field .eq n).holds pktMeta f = true) : v = n :=
  Option.some.inj ((field_of_holds first).symm.trans (field_of_holds second))

/-- Addresses are those of IPv4. -/
theorem address_of_holds {field : Field} {own : UInt32} {v : Nat} {pktMeta : PacketMeta}
    {f : PacketFields} (reads : f.field? field = if f.isV4 then some own.toNat else none)
    (holds : (Atom.cmp field .eq v).holds pktMeta f = true) :
    f.isV4 = true ∧ own.toNat = v := by
  have there := field_of_holds holds
  rw [reads] at there
  split at there
  · next v4 => exact ⟨v4, Option.some.inj there⟩
  · cases there

/-- A port is one of its protocol. -/
theorem protocol_of_port {f : PacketFields} {x : UInt32} {port v : Nat}
    (some : (f.valid && (if f.hasPorts && f.protocol == x then some port else none).any
      fun w => Op.eq.holds w v) = true) : f.protocol = x := by
  by_cases known : f.hasPorts && f.protocol == x
  · simpa using (Bool.and_eq_true_iff.1 known).2
  · rw [if_neg known] at some
    simp at some

/-- A term that sets the protocol is true of packets of one protocol only. -/
theorem protocol_of_holds {a : Atom} {proto : Int} (sets : a.proto? = some proto)
    {pktMeta : PacketMeta} {f g : PacketFields} (first : a.holds pktMeta f = true)
    (second : a.holds pktMeta g = true) : f.protocol.toNat = g.protocol.toNat := by
  unfold Atom.proto? at sets
  split at sets
  · simp only [Atom.holds, PacketFields.field?, Option.any_some, Bool.and_eq_true] at first second
    rw [of_decide_eq_true first.2, of_decide_eq_true second.2]
  · rw [protocol_of_port first, protocol_of_port second]
  · rw [protocol_of_port first, protocol_of_port second]
  · rw [protocol_of_port first, protocol_of_port second]
  · rw [protocol_of_port first, protocol_of_port second]
  · cases sets

/-! A term that sets a constraint leaves it set. -/

theorem chains_of_mem {ts : List Atom} {a : Atom} (member : a ∈ ts) {chains : Nat}
    (sets : a.chains? = some chains) :
    (collected ts).chains = chainOutput ∨ (collected ts).chains = chainInput := by
  obtain ⟨last, written⟩ := exists_lastWrite member sets
  obtain ⟨b, _, set⟩ := exists_of_lastWrite written
  have there : (collected ts).chains = last := by simp [collected, written]
  rw [there]
  unfold Atom.chains? at set
  split at set
  · exact .inl (Option.some.inj set).symm
  · exact .inr (Option.some.inj set).symm
  · cases set

theorem version_of_mem {ts : List Atom} {a : Atom} (member : a ∈ ts) {version : Int}
    (sets : a.version? = some version) :
    (collected ts).ipv6 = 0 ∨ (collected ts).ipv6 = 1 := by
  obtain ⟨last, written⟩ := exists_lastWrite member sets
  have there : (collected ts).ipv6 = last := by simp [collected, written]
  rw [there]
  exact version_cases written

theorem srcPort_of_mem {ts : List Atom} {a : Atom} (member : a ∈ ts) {port : Int}
    (sets : a.srcPort? = some port) : 0 ≤ (collected ts).srcPort := by
  obtain ⟨last, written⟩ := exists_lastWrite member sets
  obtain ⟨b, _, set⟩ := exists_of_lastWrite written
  have there : (collected ts).srcPort = last := by simp [collected, written]
  rw [there]
  unfold Atom.srcPort? at set
  split at set
  · cases set
    exact Int.natCast_nonneg _
  · cases set
    exact Int.natCast_nonneg _
  · cases set

theorem dstPort_of_mem {ts : List Atom} {a : Atom} (member : a ∈ ts) {port : Int}
    (sets : a.dstPort? = some port) : 0 ≤ (collected ts).dstPort := by
  obtain ⟨last, written⟩ := exists_lastWrite member sets
  obtain ⟨b, _, set⟩ := exists_of_lastWrite written
  have there : (collected ts).dstPort = last := by simp [collected, written]
  rw [there]
  unfold Atom.dstPort? at set
  split at set
  · cases set
    exact Int.natCast_nonneg _
  · cases set
    exact Int.natCast_nonneg _
  · cases set

theorem mem_askPort {field : Field} {port : Int} (some : 0 ≤ port) :
    .cmp field .eq port.toNat ∈ askPort field port := by
  rw [askPort, if_pos some]
  exact List.mem_singleton_self _

theorem mem_askAddr {field : Field} {addr : UInt32} (some : addr ≠ 0) :
    .cmp field .eq addr.toNat ∈ askAddr field addr := by
  rw [askAddr, if_pos some]
  exact List.mem_singleton_self _

theorem mem_asked {ts : List Atom} {a : Atom} :
    a ∈ asked ts ↔ a ∈ askDirection (collected ts) ∨ a ∈ askVersion (collected ts) ∨
      a ∈ askProto (collected ts) ∨ a ∈ askPorts (collected ts) ∨
        a ∈ askAddr .ipSrc (collected ts).srcAddr ∨ a ∈ askAddr .ipDst (collected ts).dstAddr := by
  simp only [asked, List.mem_append, or_assoc]

/-! The keyword that is asked for. -/

section Keywords

variable {ts : List Atom}

theorem outbound_asked (out : (collected ts).chains = chainOutput) : .outbound ∈ asked ts := by
  refine mem_asked.2 (.inl ?_)
  rw [askDirection, if_pos out]
  exact List.mem_singleton_self _

theorem inbound_asked (inward : (collected ts).chains = chainInput) : .inbound ∈ asked ts := by
  refine mem_asked.2 (.inl ?_)
  rw [askDirection, if_neg (by rw [inward]; decide), if_pos inward]
  exact List.mem_singleton_self _

theorem ipv4_asked (four : (collected ts).ipv6 = 0) : .ipv4 ∈ asked ts := by
  refine mem_asked.2 (.inr (.inl ?_))
  rw [askVersion, if_pos four]
  exact List.mem_singleton_self _

theorem ipv6_asked (six : (collected ts).ipv6 = 1) : .ipv6 ∈ asked ts := by
  refine mem_asked.2 (.inr (.inl ?_))
  rw [askVersion, if_neg (by omega), if_pos six]
  exact List.mem_singleton_self _

end Keywords

section Lost

variable {ts : List Atom} {pktMeta : PacketMeta} {p : Bytes}
  (enough : ∀ q, (extractFields q).valid = true →
    (∀ a ∈ asked ts, a.holds pktMeta (extractFields q) = true) →
      ∀ a ∈ ts, a.holds pktMeta (extractFields q) = true)
  (valid : (extractFields p).valid = true)
  (holds : ∀ a ∈ asked ts, a.holds pktMeta (extractFields p) = true)
include enough valid holds

omit valid in
/-- A packet that no asked term tells from this one has all terms. -/
theorem terms_of_same {q : Bytes} {g : PacketFields} (fields : extractFields q = g)
    (valid' : g.valid = true)
    (same : ∀ b ∈ asked ts, b.holds pktMeta g = b.holds pktMeta (extractFields p)) :
    ∀ a ∈ ts, a.holds pktMeta g = true := by
  rw [← fields] at valid' same ⊢
  apply enough q valid'
  intro b asks
  rw [same b asks]
  exact holds b asks

/-- A lost protocol shows on the same packet with another one. -/
theorem proto_pos {a : Atom} (member : a ∈ ts) {proto : Int} (sets : a.proto? = some proto) :
    0 < (collected ts).proto := by
  by_contra lost
  obtain ⟨q, valid', version, src, dst, other⟩ := exists_other_protocol valid
  have there := terms_of_same enough holds (q := q) rfl valid' fun b asks => by
    apply holds_other_proto ?_ pktMeta (valid'.trans valid.symm) version src dst
    rcases asked_field asks with none | ⟨src, _⟩ | ⟨dst, _⟩ | ⟨some, _⟩
    · exact .inl none
    · exact .inr (.inl src)
    · exact .inr (.inr dst)
    · exact absurd some lost
  exact other (protocol_of_holds sets (there a member) (enough p valid holds a member))

/-- A lost source shows on the same packet with another one. -/
theorem src_ne_zero {value : Nat} (member : .cmp .ipSrc .eq value ∈ ts) :
    (collected ts).srcAddr ≠ 0 := by
  intro lost
  obtain ⟨v4, here⟩ := address_of_holds rfl (enough p valid holds _ member)
  obtain ⟨q, src, fields, other⟩ := exists_other_src valid v4
  have there := terms_of_same enough holds fields valid fun b asks => by
    apply holds_other_src ?_ pktMeta
    rcases asked_field asks with none | ⟨_, some⟩ | ⟨dst, _⟩ | ⟨_, notSrc, _⟩
    · simp [none]
    · exact absurd lost some
    · simp [dst]
    · exact notSrc
  obtain ⟨_, different⟩ := address_of_holds rfl (there _ member)
  exact other (different.trans here.symm)

/-- A lost destination likewise. -/
theorem dst_ne_zero {value : Nat} (member : .cmp .ipDst .eq value ∈ ts) :
    (collected ts).dstAddr ≠ 0 := by
  intro lost
  obtain ⟨v4, here⟩ := address_of_holds rfl (enough p valid holds _ member)
  obtain ⟨q, dst, fields, other⟩ := exists_other_dst valid v4
  have there := terms_of_same enough holds fields valid fun b asks => by
    apply holds_other_dst ?_ pktMeta
    rcases asked_field asks with none | ⟨src, _⟩ | ⟨_, some⟩ | ⟨_, _, notDst⟩
    · simp [none]
    · simp [src]
    · exact absurd lost some
    · exact notDst
  obtain ⟨_, different⟩ := address_of_holds rfl (there _ member)
  exact other (different.trans here.symm)

/-- A comparison is still asked for where its field is. -/
theorem cmp_asked {field : Field} {v n : Nat} (member : .cmp field .eq v ∈ ts)
    (asks : .cmp field .eq n ∈ asked ts) : .cmp field .eq v ∈ asked ts := by
  rw [eq_of_holds (enough p valid holds _ member) (holds _ asks)]
  exact asks

/-- The protocol that is asked for is the packet's. -/
theorem proto_asked {a : Atom} (member : a ∈ ts) {proto : Int} (sets : a.proto? = some proto) :
    .cmp .ipProto .eq (collected ts).proto.toNat ∈ asked ts ∧
      (collected ts).proto = (extractFields p).protocol.toNat := by
  have some := proto_pos enough valid holds member sets
  have asks : .cmp .ipProto .eq (collected ts).proto.toNat ∈ asked ts := by
    refine mem_asked.2 (.inr (.inr (.inl ?_)))
    rw [askProto, if_pos some]
    exact List.mem_singleton_self _
  have here := holds _ asks
  simp only [Atom.holds, PacketFields.field?, Option.any_some, Bool.and_eq_true] at here
  have same : (extractFields p).protocol.toNat = (collected ts).proto.toNat :=
    of_decide_eq_true here.2
  exact ⟨asks, by omega⟩

/-- A direction or a version other than the last one is not the packet's. -/
theorem keyword_asked {a b : Atom} (member : a ∈ ts) (asks : b ∈ asked ts)
    (apart : a.holds pktMeta (extractFields p) = true →
      b.holds pktMeta (extractFields p) = false) : False := by
  have other := apart (enough p valid holds a member)
  rw [holds b asks] at other
  cases other

/-- A comparison of a port is still asked for under its protocol. -/
theorem port_asked {field : Field} {value : Nat} {proto : Int}
    (member : .cmp field .eq value ∈ ts) (sets : (Atom.cmp field .eq value).proto? = some proto)
    {port : Int} (some : 0 ≤ port)
    (place : (collected ts).proto = (extractFields p).protocol.toNat →
      ∀ b ∈ askPort field port, b ∈ askPorts (collected ts)) :
    .cmp field .eq value ∈ asked ts := by
  have same := (proto_asked enough valid holds member sets).2
  exact cmp_asked enough valid holds member
    (mem_asked.2 (.inr (.inr (.inr (.inl (place same _ (mem_askPort some)))))))

/-- **No term is lost** where what is asked for implies all of them. -/
theorem term_asked {a : Atom} (member : a ∈ ts) (kind : a.widens false = false) :
    a ∈ asked ts := by
  have here := enough p valid holds a member
  cases a with
  | loopback => cases kind
  | outbound =>
      rcases chains_of_mem member rfl with out | inward
      · exact outbound_asked out
      · exact (keyword_asked enough valid holds member (inbound_asked inward)
          (by simp [Atom.holds])).elim
  | inbound =>
      rcases chains_of_mem member rfl with out | inward
      · exact (keyword_asked enough valid holds member (outbound_asked out)
          (by simp [Atom.holds])).elim
      · exact inbound_asked inward
  | ipv4 =>
      rcases version_of_mem member rfl with four | six
      · exact ipv4_asked four
      · exact (keyword_asked enough valid holds member (ipv6_asked six)
          (by simp +contextual [Atom.holds])).elim
  | ipv6 =>
      rcases version_of_mem member rfl with four | six
      · exact (keyword_asked enough valid holds member (ipv4_asked four)
          (by simp +contextual [Atom.holds])).elim
      · exact ipv6_asked six
  | cmp field op value =>
      have eq : op = .eq := by simpa [Atom.widens] using kind
      subst eq
      have tcp (known : (extractFields p).protocol = 6)
          (same : (collected ts).proto = (extractFields p).protocol.toNat) :
          (collected ts).proto = 6 := by
        rw [same, known]
        rfl
      have udp (known : (extractFields p).protocol = 17)
          (same : (collected ts).proto = (extractFields p).protocol.toNat) :
          (collected ts).proto = 17 := by
        rw [same, known]
        rfl
      cases field with
      | ipProto =>
          exact cmp_asked enough valid holds member (proto_asked enough valid holds member rfl).1
      | tcpSrcPort =>
          refine port_asked enough valid holds member rfl (srcPort_of_mem member rfl) ?_
          intro same b asks
          rw [askPorts, if_pos (tcp (protocol_of_port here) same)]
          exact List.mem_append_right _ asks
      | tcpDstPort =>
          refine port_asked enough valid holds member rfl (dstPort_of_mem member rfl) ?_
          intro same b asks
          rw [askPorts, if_pos (tcp (protocol_of_port here) same)]
          exact List.mem_append_left _ asks
      | udpSrcPort =>
          refine port_asked enough valid holds member rfl (srcPort_of_mem member rfl) ?_
          intro same b asks
          have known := udp (protocol_of_port here) same
          rw [askPorts, if_neg (by omega), if_pos known]
          exact List.mem_append_right _ asks
      | udpDstPort =>
          refine port_asked enough valid holds member rfl (dstPort_of_mem member rfl) ?_
          intro same b asks
          have known := udp (protocol_of_port here) same
          rw [askPorts, if_neg (by omega), if_pos known]
          exact List.mem_append_left _ asks
      | ipSrc =>
          exact cmp_asked enough valid holds member (mem_asked.2 (.inr (.inr (.inr (.inr
            (.inl (mem_askAddr (src_ne_zero enough valid holds member))))))))
      | ipDst =>
          exact cmp_asked enough valid holds member (mem_asked.2 (.inr (.inr (.inr (.inr
            (.inr (mem_askAddr (dst_ne_zero enough valid holds member))))))))

end Lost

/-! ## Specification -/

/-- Every term of the branch is still asked for: none is overwritten by another value or
dropped. -/
def Lossless (ts : List Atom) : Prop := ∀ a ∈ ts, a ∈ asked ts

instance (ts : List Atom) : Decidable (Lossless ts) := inferInstanceAs (Decidable (∀ a ∈ ts, _))

/-- What a branch still asks for implies the filter. -/
def AsksEnough (φ b : Formula Atom) : Prop :=
  ∀ (pktMeta : PacketMeta) (packet : Bytes), (extractFields packet).valid = true →
    (∀ a ∈ asked (b.demands false), a.holds pktMeta (extractFields packet) = true) →
      denote φ pktMeta packet = true

/-- Whatever one of the rules selects, the filter matches. -/
def SelectsOnlyMatched (prog : FilterProgram) (maxRules : Nat) : Prop :=
  ∀ (pktMeta : PacketMeta) (packet : Bytes),
    (∃ r ∈ (filterDeriveIptables prog maxRules).1, r.selects pktMeta packet = true) →
      filterMatch prog pktMeta packet = true

/-- No packet is what the branch asks for. -/
def AsksForNone (b : Formula Atom) : Prop :=
  ∀ (pktMeta : PacketMeta) (packet : Bytes), (extractFields packet).valid = true →
    ¬∀ a ∈ asked (b.demands false), a.holds pktMeta (extractFields packet) = true

theorem AsksEnough.of_branch {φ b : Formula Atom} (looked : b ∈ lookedAt φ)
    (enough : AsksEnough b b) : AsksEnough φ b := by
  intro pktMeta packet valid holds
  rw [denote, ← Formula.eval_branches _ splitDepth, List.any_eq_true]
  exact ⟨b, List.mem_of_mem_take looked, enough pktMeta packet valid holds⟩

/-- **A branch by itself asks enough exactly if** none of its terms is lost, or no packet
is what is left of them. -/
theorem asksEnough_self_iff {b : Formula Atom} (exact : widens false b = false) :
    AsksEnough b b ↔ Lossless (b.demands false) ∨ AsksForNone b := by
  obtain ⟨whole, kinds⟩ := eval_of_exact exact
  constructor
  · intro enough
    by_cases none : AsksForNone b
    · exact .inr none
    · left
      unfold AsksForNone at none
      push Not at none
      obtain ⟨pktMeta, packet, valid, holds⟩ := none
      intro a member
      refine @term_asked _ pktMeta packet ?_ valid holds a member (kinds a member)
      intro q valid' holds'
      exact (whole _).1 (enough pktMeta q valid' holds')
  · rintro (lossless | none) pktMeta packet valid holds
    · exact (whole _).2 fun a member => holds a (lossless a member)
    · exact absurd holds (none pktMeta packet valid)

/-- **Exact rules select only what the filter matches exactly if** there is room for
none, or what every branch that is looked at still asks for implies the filter.  A branch
does that by itself exactly if none of its terms is lost or no packet is what is left. -/
theorem exact_iff {s : List Char} {prog : FilterProgram} {φ : Formula Atom}
    (accepted : filterCompile s = .ok prog) (denotes : Denotes s φ) {maxRules : Nat}
    (exact : (filterDeriveIptables prog maxRules).2 = true) :
    (SelectsOnlyMatched prog maxRules ↔ maxRules = 0 ∨ ∀ b ∈ lookedAt φ, AsksEnough φ b) ∧
      (0 < maxRules → ∀ b ∈ lookedAt φ, (AsksEnough b b → AsksEnough φ b) ∧
        (AsksEnough b b ↔ Lossless (b.demands false) ∨ AsksForNone b)) ∧
      -- what a rule selects of the packets with a header is what it matches of them
      ∀ (r : IptablesRule) (pktMeta : PacketMeta) (packet : Bytes),
        (extractFields packet).valid = true →
          r.selects pktMeta packet = r.matches pktMeta packet := by
  have compiles := compiles_of_denotes accepted denotes
  unfold SelectsOnlyMatched
  rw [derive_eq compiles] at exact ⊢
  refine and_assoc.1 ⟨?_, fun r pktMeta packet valid => selects_eq_matches valid r pktMeta⟩
  split_ifs at exact ⊢ with none many
  · simp [none]
  · constructor
    · constructor
      · intro only
        right
        intro b looked pktMeta packet valid holds
        obtain ⟨r, member, selected⟩ := (branch_selects_iff b pktMeta packet).2 ⟨valid, holds⟩
        rw [← filterMatch_eq_denote compiles]
        exact only pktMeta packet
          ⟨r, mem_dedupeRules.2 (List.mem_flatMap.2 ⟨b, looked, member⟩), selected⟩
      · rintro (zero | enough) pktMeta packet ⟨r, member, selected⟩
        · exact absurd zero none
        · obtain ⟨b, looked, inside⟩ := List.mem_flatMap.1 (mem_dedupeRules.1 member)
          obtain ⟨valid, holds⟩ := (branch_selects_iff b pktMeta packet).1 ⟨r, inside, selected⟩
          rw [filterMatch_eq_denote compiles]
          exact enough b looked pktMeta packet valid holds
    · intro _ b looked
      have expressed := List.all_eq_true.1 exact b looked
      exact ⟨AsksEnough.of_branch looked, asksEnough_self_iff (by simpa using expressed)⟩

theorem exact_iff_mixed :
    ∃ prog, filterCompile mixedFilter = .ok prog ∧
      (filterDeriveIptables prog maxDerivedRules).2 = true ∧
        (SelectsOnlyMatched prog maxDerivedRules ↔ maxDerivedRules = 0 ∨
          ∀ b ∈ lookedAt mixedFormula, AsksEnough mixedFormula b) := by
  have run : ((filterCompile mixedFilter).toOption.any fun prog =>
      (filterDeriveIptables prog maxDerivedRules).2) = true := by decide
  obtain ⟨prog, accepted, exact⟩ := exists_compiled run
  exact ⟨prog, accepted, exact, (exact_iff accepted (.inr derives_mixed) exact).1⟩

/-- What is overwritten and what is dropped. -/
example : ¬Lossless [.inbound, .outbound] ∧ ¬Lossless [.cmp .ipProto .eq 0] ∧
    Lossless [.outbound, .cmp .tcpDstPort .eq 443] := by decide

/-- The rule of `outbound and inbound` is called exact and selects a packet that the
filter does not match. -/
theorem exact_overwritten :
    ∃ prog, filterCompile "inbound and outbound".toList = .ok prog ∧
      (filterDeriveIptables prog maxDerivedRules).2 = true ∧
        ¬SelectsOnlyMatched prog maxDerivedRules := by
  have run : ((filterCompile "inbound and outbound".toList).toOption.any fun prog =>
      (filterDeriveIptables prog maxDerivedRules).2 &&
        ((filterDeriveIptables prog maxDerivedRules).1.any fun r =>
          r.selects sampleMeta (samplePacket 6)) &&
        !filterMatch prog sampleMeta (samplePacket 6)) = true := by decide
  obtain ⟨prog, accepted, passed⟩ := exists_compiled run
  simp only [Bool.and_eq_true, List.any_eq_true, Bool.not_eq_true'] at passed
  obtain ⟨⟨exact, r, member, selected⟩, missed⟩ := passed
  refine ⟨prog, accepted, exact, ?_⟩
  intro only
  rw [only sampleMeta (samplePacket 6) ⟨r, member, selected⟩] at missed
  cases missed

end Clumsy.Filter
