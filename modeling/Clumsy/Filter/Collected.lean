/-
# Filter.Collected -- what the rules of a branch ask for

`collect` assigns to its constraints term by term, so each of them ends up as the last
term that sets it says (`collect_eq`, `Register.collected`): a later direction, version,
protocol, port or address overwrites an earlier one of its kind.  The match text is the
list of the arguments made from them (`ruleFor_args`), and these are all there is in a
rule.
-/
import Clumsy.Filter.Derive
import Clumsy.Theory.LastWrite

namespace Clumsy.Filter

open Clumsy.Theory
open Clumsy.Packet

set_option autoImplicit false

/-! ## One term after the other -/

/-- What `collect` does with a term that is not negated. -/
def Constraints.pin (c : Constraints) : Atom → Constraints
  | .outbound => { c with chains := chainOutput }
  | .inbound => { c with chains := chainInput }
  | .loopback => c
  | .ipv4 => { c with ipv6 := 0 }
  | .ipv6 => { c with ipv6 := 1 }
  | .cmp field op value => if op = .eq then c.pinField field (UInt32.ofNat value) else c

def Constraints.widenIf (c : Constraints) (b : Bool) : Constraints :=
  if b then c.widen else c

/-- A term no rule expresses. -/
def Atom.widens (negated : Bool) : Atom → Bool
  | .loopback => true
  | .cmp _ op _ => negated || op != .eq
  | _ => false

/-- Something in the formula is not expressed. -/
def widens (negated : Bool) : Formula Atom → Bool
  | .tt => false
  | .ff => true
  | .atom a => a.widens negated
  | .and φ ψ => widens negated φ || widens negated ψ
  | .or _ _ => true
  | .not _ => true

theorem Constraints.pin_widen (c : Constraints) (a : Atom) : c.widen.pin a = (c.pin a).widen := by
  cases a with
  | cmp field op value =>
      simp only [pin]
      split
      · cases field <;> rfl
      · rfl
  | _ => rfl

theorem Constraints.foldl_widenIf (as : List Atom) (c : Constraints) (b : Bool) :
    as.foldl pin (c.widenIf b) = (as.foldl pin c).widenIf b := by
  cases b with
  | false => rfl
  | true =>
      show as.foldl pin c.widen = (as.foldl pin c).widen
      induction as generalizing c with
      | nil => rfl
      | cons a as ih => rw [List.foldl_cons, pin_widen, ih, List.foldl_cons]

theorem Constraints.widenIf_widenIf (c : Constraints) (b b' : Bool) :
    (c.widenIf b).widenIf b' = c.widenIf (b || b') := by
  cases b <;> cases b' <;> rfl

/-- The leaves of `collect`. -/
theorem collect_leaf {nodes : List Node} {i : Nat} {n : Node} {a : Atom}
    (here : nodes[i]? = some n) (leaf : n.atom? = some a) (fuel : Nat) (c : Constraints)
    (negated : Bool) :
    collect nodes (fuel + 1) i c negated =
      (((Formula.atom a).demands negated).foldl Constraints.pin c).widenIf (a.widens negated) := by
  simp only [collect, nodeAt_natCast, here]
  cases kind : n.kind with
  | nTrue | nFalse | nAnd | nOr | nNot => simp [Node.atom?, kind] at leaf
  | nLoopback | nOutbound | nInbound | nIpv4 | nIpv6 =>
      simp only [Node.atom?, kind, Option.some.injEq] at leaf
      subst leaf
      cases negated <;> rfl
  | nCmp =>
      simp only [Node.atom?, kind, Option.some.injEq] at leaf
      subst leaf
      show (if negated = true ∨ n.op ≠ Op.eq then c.widen else c.pinField n.field n.value) = _
      cases negated with
      | true => rfl
      | false =>
          simp only [Bool.false_eq_true, false_or]
          by_cases eq : n.op = .eq
          · simp [Formula.demands, Atom.widens, Constraints.pin, Constraints.widenIf, eq]
          · simp [Formula.demands, Atom.widens, Constraints.pin, Constraints.widenIf, eq]

/-- **`collect` takes one demanded term after the other.** -/
theorem collect_eq {nodes : List Node} {i : Nat} {φ : Formula Atom} (rep : Represents nodes i φ)
    {fuel : Nat} (enough : i < fuel) (c : Constraints) (negated : Bool) :
    collect nodes fuel i c negated =
      ((φ.demands negated).foldl Constraints.pin c).widenIf (widens negated φ) := by
  induction rep generalizing fuel c negated with
  | tt here kind =>
      obtain ⟨fuel, rfl⟩ : ∃ k, fuel = k + 1 := ⟨fuel - 1, by omega⟩
      simp [collect, nodeAt_natCast, here, kind, Formula.demands, widens, Constraints.widenIf]
  | ff here kind =>
      obtain ⟨fuel, rfl⟩ : ∃ k, fuel = k + 1 := ⟨fuel - 1, by omega⟩
      simp [collect, nodeAt_natCast, here, kind, Formula.demands, widens, Constraints.widenIf]
  | atom here leaf =>
      obtain ⟨fuel, rfl⟩ : ∃ k, fuel = k + 1 := ⟨fuel - 1, by omega⟩
      exact collect_leaf here leaf fuel c negated
  | and here kind left right lower lower' _ _ ihl ihr =>
      obtain ⟨fuel, rfl⟩ : ∃ k, fuel = k + 1 := ⟨fuel - 1, by omega⟩
      simp only [collect, nodeAt_natCast, here, kind, left, right]
      rw [ihl (by omega), ihr (by omega), Constraints.foldl_widenIf,
        Constraints.widenIf_widenIf, ← List.foldl_append]
      rfl
  | or here kind _ _ _ _ _ _ _ _ =>
      obtain ⟨fuel, rfl⟩ : ∃ k, fuel = k + 1 := ⟨fuel - 1, by omega⟩
      simp [collect, nodeAt_natCast, here, kind, Formula.demands, widens, Constraints.widenIf]
  | @not _ _ _ ψ here kind left lower _ ih =>
      obtain ⟨fuel, rfl⟩ : ∃ k, fuel = k + 1 := ⟨fuel - 1, by omega⟩
      simp only [collect, nodeAt_natCast, here, kind, left]
      have inner := Constraints.foldl_widenIf (ψ.demands !negated) c true
      rw [show c.widen = c.widenIf true from rfl, ih (by omega), inner,
        Constraints.widenIf_widenIf, Bool.true_or]
      rfl

/-! ## The last term of a kind -/

/-- A field of the constraints and the terms that set it. -/
structure Register (β : Type) where
  get   : Constraints → β
  set?  : Atom → Option β
  sets  : ∀ (c : Constraints) (a : Atom), get (c.pin a) = (set? a).getD (get c)
  free  : ∀ c : Constraints, get c.widen = get c

/-- **A register ends up as the last term of its kind says.** -/
theorem Register.collected {β : Type} (r : Register β) {nodes : List Node} {i : Nat}
    {φ : Formula Atom} (rep : Represents nodes i φ) {fuel : Nat} (enough : i < fuel)
    (c : Constraints) :
    r.get (collect nodes fuel i c false) =
      (lastWrite r.set? (φ.demands false)).getD (r.get c) := by
  have free (c : Constraints) (b : Bool) : r.get (c.widenIf b) = r.get c := by
    cases b with
    | false => rfl
    | true => exact r.free c
  rw [collect_eq rep enough, free, foldl_lastWrite r.sets]

/-- The chains of a direction. -/
def Atom.chains? : Atom → Option Nat
  | .outbound => some chainOutput
  | .inbound => some chainInput
  | _ => none

/-- The protocol an equality asks for, as an `int`. -/
def Atom.proto? : Atom → Option Int
  | .cmp .ipProto .eq value => some (toInt32 (UInt32.ofNat value))
  | .cmp .tcpSrcPort .eq _ | .cmp .tcpDstPort .eq _ => some 6
  | .cmp .udpSrcPort .eq _ | .cmp .udpDstPort .eq _ => some 17
  | _ => none

/-- The IP version a term fixes, 1 for IPv6: a keyword, one of the two protocols of one
version only, or an address. -/
def Atom.version? : Atom → Option Int
  | .ipv4 => some 0
  | .ipv6 => some 1
  | .cmp .ipProto .eq value =>
      if toInt32 (UInt32.ofNat value) = 58 then some 1
      else if toInt32 (UInt32.ofNat value) = 1 then some 0 else none
  | .cmp .ipSrc .eq _ | .cmp .ipDst .eq _ => some 0
  | _ => none

def Atom.srcPort? : Atom → Option Int
  | .cmp .tcpSrcPort .eq value | .cmp .udpSrcPort .eq value => some (UInt32.ofNat value).toNat
  | _ => none

def Atom.dstPort? : Atom → Option Int
  | .cmp .tcpDstPort .eq value | .cmp .udpDstPort .eq value => some (UInt32.ofNat value).toNat
  | _ => none

def Atom.srcAddr? : Atom → Option UInt32
  | .cmp .ipSrc .eq value => some (UInt32.ofNat value)
  | _ => none

def Atom.dstAddr? : Atom → Option UInt32
  | .cmp .ipDst .eq value => some (UInt32.ofNat value)
  | _ => none

def chainsRegister : Register Nat where
  get := Constraints.chains
  set? := Atom.chains?
  sets c a := by
    cases a with
    | cmp field op value => cases op <;> cases field <;> rfl
    | _ => rfl
  free _ := rfl

def protoRegister : Register Int where
  get := Constraints.proto
  set? := Atom.proto?
  sets c a := by
    cases a with
    | cmp field op value => cases op <;> cases field <;> rfl
    | _ => rfl
  free _ := rfl

def versionRegister : Register Int where
  get := Constraints.ipv6
  set? := Atom.version?
  sets c a := by
    cases a with
    | cmp field op value =>
        cases op with
        | eq =>
            cases field with
            | ipProto =>
                simp only [Constraints.pin, if_true, Constraints.pinField, Atom.version?]
                split_ifs <;> rfl
            | _ => rfl
        | _ => cases field <;> rfl
    | _ => rfl
  free _ := rfl

def srcPortRegister : Register Int where
  get := Constraints.srcPort
  set? := Atom.srcPort?
  sets c a := by
    cases a with
    | cmp field op value => cases op <;> cases field <;> rfl
    | _ => rfl
  free _ := rfl

def dstPortRegister : Register Int where
  get := Constraints.dstPort
  set? := Atom.dstPort?
  sets c a := by
    cases a with
    | cmp field op value => cases op <;> cases field <;> rfl
    | _ => rfl
  free _ := rfl

def srcAddrRegister : Register UInt32 where
  get := Constraints.srcAddr
  set? := Atom.srcAddr?
  sets c a := by
    cases a with
    | cmp field op value => cases op <;> cases field <;> rfl
    | _ => rfl
  free _ := rfl

def dstAddrRegister : Register UInt32 where
  get := Constraints.dstAddr
  set? := Atom.dstAddr?
  sets c a := by
    cases a with
    | cmp field op value => cases op <;> cases field <;> rfl
    | _ => rfl
  free _ := rfl

/-- What is collected from the terms of a branch. -/
def collected (ts : List Atom) : Constraints where
  chains := (lastWrite Atom.chains? ts).getD (chainOutput ||| chainInput)
  proto := (lastWrite Atom.proto? ts).getD 0
  ipv6 := (lastWrite Atom.version? ts).getD (-1)
  dstPort := (lastWrite Atom.dstPort? ts).getD (-1)
  srcPort := (lastWrite Atom.srcPort? ts).getD (-1)
  dstAddr := (lastWrite Atom.dstAddr? ts).getD 0
  srcAddr := (lastWrite Atom.srcAddr? ts).getD 0

/-- The versions there are. -/
theorem version_cases {ts : List Atom} {version : Int}
    (last : lastWrite Atom.version? ts = some version) : version = 0 ∨ version = 1 := by
  obtain ⟨a, _, set⟩ := exists_of_lastWrite last
  unfold Atom.version? at set
  split at set
  · exact .inl (Option.some.inj set).symm
  · exact .inr (Option.some.inj set).symm
  · split_ifs at set
    · exact .inr (Option.some.inj set).symm
    · exact .inl (Option.some.inj set).symm
  · exact .inl (Option.some.inj set).symm
  · exact .inl (Option.some.inj set).symm
  · cases set

/-- The constraints of a branch, apart from the mark that something is missing. -/
theorem collect_branch {nodes : List Node} {i : Nat} {φ : Formula Atom}
    (rep : Represents nodes i φ) {fuel : Nat} (enough : i < fuel) :
    collect nodes fuel i {} false =
      { collected (φ.demands false) with widened := widens false φ } := by
  have widened : (collect nodes fuel i {} false).widened = widens false φ := by
    have kept (as : List Atom) (c : Constraints) :
        (as.foldl Constraints.pin c).widened = c.widened := by
      have step (c : Constraints) (a : Atom) :
          (c.pin a).widened = ((none : Option Bool)).getD c.widened := by
        cases a with
        | cmp field op value => cases op <;> cases field <;> rfl
        | _ => rfl
      rw [foldl_lastWrite step, lastWrite_eq_none.2 (by simp)]
      rfl
    rw [collect_eq rep enough]
    cases widens false φ with
    | false => exact kept _ _
    | true => rfl
  have chains := chainsRegister.collected rep enough {}
  have proto := protoRegister.collected rep enough {}
  have version := versionRegister.collected rep enough {}
  have dstPort := dstPortRegister.collected rep enough {}
  have srcPort := srcPortRegister.collected rep enough {}
  have dstAddr := dstAddrRegister.collected rep enough {}
  have srcAddr := srcAddrRegister.collected rep enough {}
  generalize collect nodes fuel i {} false = c at *
  cases c
  simp only [chainsRegister, protoRegister, versionRegister, dstPortRegister, srcPortRegister,
    dstAddrRegister, srcAddrRegister] at *
  subst chains proto version dstPort srcPort dstAddr srcAddr widened
  rfl

/-! ## The arguments of a rule -/

/-- The rule of one branch for one tool. -/
def ruleFor (c : Constraints) (ipv6 : Bool) : IptablesRule :=
  { chains := c.chains, matchText := buildMatch c ipv6, ipv6 }

/-- The tools a branch has a rule for: `iptables`, `ip6tables`, or both. -/
def versions (c : Constraints) : List Bool :=
  (if c.ipv6 ≠ 1 then [false] else []) ++ (if c.ipv6 ≠ 0 then [true] else [])

/-- Flags and values, in turn. -/
def argPairs : List (List Char) → List (List Char × List Char)
  | flag :: value :: rest => (flag, value) :: argPairs rest
  | _ => []

/-- The match arguments of a rule, as the tool reads them. -/
def IptablesRule.args (r : IptablesRule) : List (List Char × List Char) :=
  argPairs (words r.matchText)

/-- Numbers that fit where they come from. -/
structure Constraints.Small (c : Constraints) : Prop where
  proto   : c.proto < 2 ^ 32
  dstPort : c.dstPort < 2 ^ 32
  srcPort : c.srcPort < 2 ^ 32

theorem collected_small (ts : List Atom) : (collected ts).Small := by
  have bound {f : Atom → Option Int} (small : ∀ a x, f a = some x → x < 2 ^ 32) {d : Int}
      (default : d < 2 ^ 32) : (lastWrite f ts).getD d < 2 ^ 32 := by
    cases last : lastWrite f ts with
    | none => exact default
    | some x =>
        obtain ⟨a, _, set⟩ := exists_of_lastWrite last
        exact small a x set
  refine ⟨bound ?_ (by decide), bound ?_ (by decide), bound ?_ (by decide)⟩
  · intro a x set
    unfold Atom.proto? at set
    split at set
    · rename_i value
      have := (UInt32.ofNat value).toNat_lt
      cases set
      unfold toInt32
      split <;> omega
    all_goals cases set
    all_goals decide
  · intro a x set
    unfold Atom.dstPort? at set
    split at set
    · rename_i value
      have := (UInt32.ofNat value).toNat_lt
      cases set
      omega
    · rename_i value
      have := (UInt32.ofNat value).toNat_lt
      cases set
      omega
    · cases set
  · intro a x set
    unfold Atom.srcPort? at set
    split at set
    · rename_i value
      have := (UInt32.ofNat value).toNat_lt
      cases set
      omega
    · rename_i value
      have := (UInt32.ofNat value).toNat_lt
      cases set
      omega
    · cases set

theorem proper_digits {flag : String} {n : Nat} (small : n < 2 ^ 32)
    (short : flag.toList ≠ [] ∧ ' ' ∉ flag.toList ∧ flag.toList.length ≤ 7) :
    Proper (flag, Nat.toDigits 10 n) := by
  have whole := @proper_number flag (UInt32.ofNat n) short
  rwa [unsigned, UInt32.toNat_ofNat', Nat.mod_eq_of_lt small] at whole

theorem Constraints.Small.proper {c : Constraints} (small : c.Small) (ipv6 : Bool) :
    ∀ arg ∈ matchArgs c ipv6, Proper arg := by
  have protoSmall := small.proto
  have dstSmall := small.dstPort
  have srcSmall := small.srcPort
  intro arg member
  simp only [matchArgs, List.mem_append] at member
  rcases member with ((proto | ports) | src) | dst
  · unfold protoArg at proto
    split_ifs at proto with h₁ h₂ h₃ h₄ h₅
    · cases List.mem_singleton.1 proto
      exact ⟨by decide, by decide⟩
    · cases List.mem_singleton.1 proto
      exact ⟨by decide, by decide⟩
    · cases List.mem_singleton.1 proto
      exact ⟨by decide, by decide⟩
    · cases List.mem_singleton.1 proto
      exact ⟨by decide, by decide⟩
    · cases List.mem_singleton.1 proto
      exact proper_digits (by omega) (by decide)
    · cases proto
  · split at ports
    · rcases List.mem_append.1 ports with dport | sport
      · unfold portArg at dport
        split at dport
        · cases List.mem_singleton.1 dport
          exact proper_digits (by omega) (by decide)
        · cases dport
      · unfold portArg at sport
        split at sport
        · cases List.mem_singleton.1 sport
          exact proper_digits (by omega) (by decide)
        · cases sport
    · cases ports
  · unfold addrArg at src
    split at src
    · cases List.mem_singleton.1 src
      exact proper_addr c.srcAddr (by decide)
    · cases src
  · unfold addrArg at dst
    split at dst
    · cases List.mem_singleton.1 dst
      exact proper_addr c.dstAddr (by decide)
    · cases dst

theorem argPairs_flatMap (args : List (String × List Char)) :
    argPairs (args.flatMap fun arg => [arg.1.toList, arg.2]) =
      args.map fun arg => (arg.1.toList, arg.2) := by
  induction args with
  | nil => rfl
  | cons arg args ih => simp [argPairs, ih]

/-- **A rule has the arguments made from the constraints**, and no others. -/
theorem ruleFor_args {c : Constraints} (small : c.Small) (ipv6 : Bool) :
    (ruleFor c ipv6).args = (matchArgs c ipv6).map fun arg => (arg.1.toList, arg.2) := by
  rw [IptablesRule.args, ruleFor, words_buildMatch (small.proper ipv6) (matchArgs_length c ipv6),
    argPairs_flatMap]

theorem mem_portArg {flag : String} {port : Int} {arg : String × List Char} :
    arg ∈ portArg flag port ↔ 0 ≤ port ∧ arg = (flag, Nat.toDigits 10 port.toNat) := by
  unfold portArg
  split
  · rename_i some
    simp [some]
  · rename_i none
    simp only [List.not_mem_nil, false_iff]
    rintro ⟨some, _⟩
    exact none some

theorem mem_addrArg {flag : String} {addr : UInt32} {arg : String × List Char} :
    arg ∈ addrArg flag addr ↔ addr ≠ 0 ∧ arg = (flag, formatAddr addr) := by
  unfold addrArg
  split
  · rename_i some
    simp [some]
  · rename_i none
    simp only [List.not_mem_nil, false_iff]
    rintro ⟨some, _⟩
    exact none some

theorem protoArg_flag {c : Constraints} {ipv6 : Bool} {arg : String × List Char}
    (member : arg ∈ protoArg c ipv6) : arg.1 = "-p" := by
  unfold protoArg at member
  split_ifs at member
  all_goals first
    | cases List.mem_singleton.1 member
      rfl
    | cases member

/-- The arguments of a rule. -/
theorem mem_args {c : Constraints} (small : c.Small) {ipv6 : Bool} {flag value : List Char} :
    (flag, value) ∈ (ruleFor c ipv6).args ↔
      flag = "-p".toList ∧ ("-p", value) ∈ protoArg c ipv6 ∨
      (c.proto = 6 ∨ c.proto = 17) ∧
        (flag = "--dport".toList ∧ 0 ≤ c.dstPort ∧ value = Nat.toDigits 10 c.dstPort.toNat ∨
          flag = "--sport".toList ∧ 0 ≤ c.srcPort ∧ value = Nat.toDigits 10 c.srcPort.toNat) ∨
      flag = "-s".toList ∧ c.srcAddr ≠ 0 ∧ value = formatAddr c.srcAddr ∨
      flag = "-d".toList ∧ c.dstAddr ≠ 0 ∧ value = formatAddr c.dstAddr := by
  rw [ruleFor_args small, List.mem_map]
  constructor
  · rintro ⟨⟨name, text⟩, member, same⟩
    cases same
    simp only [matchArgs, List.mem_append] at member
    rcases member with ((proto | ports) | src) | dst
    · have flag := protoArg_flag proto
      simp only at flag
      subst flag
      exact .inl ⟨rfl, proto⟩
    · split at ports
      · rename_i known
        right
        left
        refine ⟨known, ?_⟩
        rcases List.mem_append.1 ports with dport | sport
        · obtain ⟨some, same⟩ := mem_portArg.1 dport
          cases same
          exact .inl ⟨rfl, some, rfl⟩
        · obtain ⟨some, same⟩ := mem_portArg.1 sport
          cases same
          exact .inr ⟨rfl, some, rfl⟩
      · cases ports
    · obtain ⟨some, same⟩ := mem_addrArg.1 src
      cases same
      exact .inr (.inr (.inl ⟨rfl, some, rfl⟩))
    · obtain ⟨some, same⟩ := mem_addrArg.1 dst
      cases same
      exact .inr (.inr (.inr ⟨rfl, some, rfl⟩))
  · simp only [matchArgs, List.mem_append]
    rintro (⟨rfl, proto⟩ | ⟨known, ⟨rfl, some, rfl⟩ | ⟨rfl, some, rfl⟩⟩ | ⟨rfl, some, rfl⟩ |
      ⟨rfl, some, rfl⟩)
    · exact ⟨("-p", value), .inl (.inl (.inl proto)), rfl⟩
    · refine ⟨("--dport", _), .inl (.inl (.inr ?_)), rfl⟩
      rw [if_pos known, List.mem_append]
      exact .inl (mem_portArg.2 ⟨some, rfl⟩)
    · refine ⟨("--sport", _), .inl (.inl (.inr ?_)), rfl⟩
      rw [if_pos known, List.mem_append]
      exact .inr (mem_portArg.2 ⟨some, rfl⟩)
    · exact ⟨("-s", _), .inl (.inr (mem_addrArg.2 ⟨some, rfl⟩)), rfl⟩
    · exact ⟨("-d", _), .inr (mem_addrArg.2 ⟨some, rfl⟩), rfl⟩

theorem digits_inj {m n : Nat} : Nat.toDigits 10 m = Nat.toDigits 10 n ↔ m = n := by
  constructor
  · intro same
    calc
      m = Nat.ofDigitChars 10 (Nat.toDigits 10 m) 0 := Nat.ofDigitChars_ten_toDigits.symm
      _ = Nat.ofDigitChars 10 (Nat.toDigits 10 n) 0 := by rw [same]
      _ = n := Nat.ofDigitChars_ten_toDigits
  · rintro rfl
    rfl

theorem digits_ne_name {n : Nat} {c : Char} {name : List Char} (letter : c.isDigit = false) :
    Nat.toDigits 10 n ≠ c :: name := by
  intro same
  have first : c ∈ Nat.toDigits 10 n := by simp [same]
  rw [Nat.isDigit_of_mem_toDigits (by decide) (by decide) first] at letter
  cases letter

/-! ## The rules of a filter -/

/-- The branches that are looked at. -/
def lookedAt (φ : Formula Atom) : List (Formula Atom) :=
  (φ.branches splitDepth).take splitBranchLimit

/-- The rules one branch asks for. -/
def branchRules (b : Formula Atom) : List IptablesRule :=
  (versions (collected (b.demands false))).map (ruleFor (collected (b.demands false)))

theorem emitRules_branch {prog : FilterProgram} {i : Nat} {φ : Formula Atom}
    (rep : Represents prog.nodes i φ) :
    emitRules prog i = (branchRules φ, !widens false φ) := by
  rw [emitRules, collect_branch rep rep.lt_length]
  rfl

theorem emitRules_branches {prog : FilterProgram} {idxs : List Int}
    {branches : List (Formula Atom)} (stand : List.Forall₂ (StandsFor prog.nodes) idxs branches) :
    (idxs.flatMap fun branch => (emitRules prog branch).1) = branches.flatMap branchRules ∧
      (idxs.all fun branch => (emitRules prog branch).2) =
        branches.all fun b => !widens false b := by
  induction stand with
  | nil => exact ⟨rfl, rfl⟩
  | cons head _ ih =>
      obtain ⟨j, rfl, rep⟩ := head
      rw [List.flatMap_cons, List.flatMap_cons, List.all_cons, List.all_cons, ih.1, ih.2,
        emitRules_branch rep]
      exact ⟨rfl, rfl⟩

/-- **The rules of a filter** are those of the branches that are looked at, or those of
the whole filter if there are more than fit. -/
theorem derive_eq {prog : FilterProgram} {φ : Formula Atom} (compiles : prog.Compiles φ)
    (maxRules : Nat) :
    filterDeriveIptables prog maxRules =
      if maxRules = 0 then ([], true)
      else if (dedupeRules ((lookedAt φ).flatMap branchRules)).length > maxRules then
        ((dedupeRules (branchRules φ)).take maxRules, false)
      else
        (dedupeRules ((lookedAt φ).flatMap branchRules),
          (lookedAt φ).all fun b => !widens false b) := by
  obtain ⟨idxs, stand, some, split⟩ := split_branches compiles
  obtain ⟨rules, exact⟩ := @emitRules_branches prog idxs (lookedAt φ) stand
  obtain ⟨i, root, rep⟩ := compiles
  have nonneg : prog.root ≥ 0 := by omega
  have notEmpty : ¬idxs.isEmpty = true := by simpa using some
  have whole : (emitRules prog prog.root).1 = branchRules φ := by
    rw [root, emitRules_branch rep]
  simp only [filterDeriveIptables, orBranches, if_pos nonneg, split, if_neg notEmpty, whole]
  rw [rules, exact]
  split_ifs with none many
  · rfl
  · rfl
  · rw [List.take_of_length_le (by omega)]

theorem nodup_dedupeFrom {rules uniq : List IptablesRule} (nodup : uniq.Nodup) :
    (rules.foldl (fun uniq r => if uniq.contains r then uniq else uniq ++ [r]) uniq).Nodup := by
  induction rules generalizing uniq with
  | nil => exact nodup
  | cons r rules ih =>
      rw [List.foldl_cons]
      apply ih
      split
      · exact nodup
      · rename_i new
        rw [← List.concat_eq_append]
        exact nodup.concat (by simpa using new)

/-- As many rules stay as are different. -/
theorem length_dedupeRules_eq (rules : List IptablesRule) :
    (dedupeRules rules).length = rules.toFinset.card := by
  have nodup : (dedupeRules rules).Nodup := nodup_dedupeFrom List.nodup_nil
  rw [← List.toFinset_card_of_nodup nodup]
  congr 1
  ext r
  rw [List.mem_toFinset, List.mem_toFinset, mem_dedupeRules]

end Clumsy.Filter
