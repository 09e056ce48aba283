/-
# Filter.Installable -- which derived rules the tools accept

`iptables` takes no rule with an address of the other IP version, no port without a
protocol that has ports, no port past 65535 and no protocol past 255; one refused rule
aborts the start of the capture.  `collect` lets a later term overwrite what an earlier
one fixed and takes any 32-bit value, so a filter can ask for all of these.

What makes a rule acceptable is a matter of the last terms of each kind
(`rules_wellFormed_iff`); `derive_wellFormed_iff` says it of a whole filter.
-/
import Clumsy.Filter.Collected

namespace Clumsy.Filter

open Clumsy.Theory
open Clumsy.Packet

set_option autoImplicit false

/-! ## Well-formed rules -/

/-- **A rule its tool accepts.** -/
structure IptablesRule.WellFormed (r : IptablesRule) : Prop where
  /-- The addresses are IPv4 addresses. -/
  addresses : r.ipv6 = true → ∀ arg ∈ r.args, arg.1 ≠ "-s".toList ∧ arg.1 ≠ "-d".toList
  /-- A port comes with a protocol that has ports, and is one. -/
  ports     : ∀ arg ∈ r.args, arg.1 = "--dport".toList ∨ arg.1 = "--sport".toList →
    (("-p".toList, "tcp".toList) ∈ r.args ∨ ("-p".toList, "udp".toList) ∈ r.args) ∧
      ∃ port ≤ 65535, arg.2 = Nat.toDigits 10 port
  /-- A protocol given by its number is one. -/
  protocol  : ∀ n, ("-p".toList, Nat.toDigits 10 n) ∈ r.args → n ≤ 255

/-- **The terms of a branch make acceptable rules**: the last term that fixes the IP
version fixes IPv4 if an address is asked for, the last ports of TCP or UDP are ports and
the last protocol is one.  An address 0.0.0.0 asks for nothing, and a protocol from 2^31
on is none. -/
structure Installable (ts : List Atom) : Prop where
  version  : lastWrite Atom.version? ts = some 1 →
    (lastWrite Atom.srcAddr? ts).getD 0 = 0 ∧ (lastWrite Atom.dstAddr? ts).getD 0 = 0
  ports    : lastWrite Atom.proto? ts = some 6 ∨ lastWrite Atom.proto? ts = some 17 →
    (∀ port, lastWrite Atom.dstPort? ts = some port → port ≤ 65535) ∧
      ∀ port, lastWrite Atom.srcPort? ts = some port → port ≤ 65535
  protocol : ∀ proto, lastWrite Atom.proto? ts = some proto → proto ≤ 255

/-! ## The rules of one branch -/

/-- A protocol other than the named ones is given by its number. -/
theorem protoArg_numeric {c : Constraints} {ipv6 : Bool} {n : Nat} :
    ("-p", Nat.toDigits 10 n) ∈ protoArg c ipv6 ↔
      (c.proto ≠ 6 ∧ c.proto ≠ 17 ∧ ¬(c.proto = 1 ∧ ipv6 = false) ∧
        ¬(c.proto = 58 ∧ ipv6 = true)) ∧ 0 < c.proto ∧ n = c.proto.toNat := by
  have named (c : Char) (name : List Char) (letter : c.isDigit = false) :
      ¬("-p", Nat.toDigits 10 n) ∈ [("-p", c :: name)] := by
    intro member
    exact digits_ne_name letter (congrArg Prod.snd (List.mem_singleton.1 member))
  unfold protoArg
  split_ifs with h₁ h₂ h₃ h₄ h₅
  · simpa [h₁] using named 't' ['c', 'p'] (by decide)
  · simpa [h₂] using named 'u' ['d', 'p'] (by decide)
  · simpa [h₃] using named 'i' ['c', 'm', 'p'] (by decide)
  · simpa [h₄] using named 'i' ['c', 'm', 'p', 'v', '6'] (by decide)
  · simp only [List.mem_singleton, Prod.mk.injEq, true_and, digits_inj]
    exact ⟨fun same => ⟨⟨h₁, h₂, h₃, h₄⟩, h₅, same⟩, fun h => h.2.2⟩
  · simp only [List.not_mem_nil, false_iff]
    rintro ⟨_, some, _⟩
    exact h₅ some

/-- **When a rule is acceptable**, by the constraints it is made of. -/
theorem ruleFor_wellFormed {c : Constraints} (small : c.Small) (ipv6 : Bool) :
    (ruleFor c ipv6).WellFormed ↔
      (ipv6 = true → c.srcAddr = 0 ∧ c.dstAddr = 0) ∧
        (c.proto = 6 ∨ c.proto = 17 → c.dstPort ≤ 65535 ∧ c.srcPort ≤ 65535) ∧
          c.proto ≤ 255 := by
  constructor
  · intro ok
    refine ⟨?_, ?_, ?_⟩
    · intro six
      have apart := ok.addresses six
      constructor
      · by_contra some
        exact (apart _ ((mem_args small).2
          (.inr (.inr (.inl ⟨rfl, some, rfl⟩))))).1 rfl
      · by_contra some
        exact (apart _ ((mem_args small).2
          (.inr (.inr (.inr ⟨rfl, some, rfl⟩))))).2 rfl
    · intro known
      constructor
      · by_contra large
        have member := (@mem_args _ small ipv6 _ _).2
          (.inr (.inl ⟨known, .inl ⟨rfl, by omega, rfl⟩⟩))
        obtain ⟨_, port, fits, same⟩ := ok.ports _ member (.inl rfl)
        have := digits_inj.1 same
        omega
      · by_contra large
        have member := (@mem_args _ small ipv6 _ _).2
          (.inr (.inl ⟨known, .inr ⟨rfl, by omega, rfl⟩⟩))
        obtain ⟨_, port, fits, same⟩ := ok.ports _ member (.inr rfl)
        have := digits_inj.1 same
        omega
    · by_contra large
      have member := (@mem_args _ small ipv6 _ _).2
        (.inl ⟨rfl, protoArg_numeric.2 ⟨by omega, by omega, rfl⟩⟩)
      have := ok.protocol _ member
      omega
  · rintro ⟨addresses, ports, protocol⟩
    refine ⟨?_, ?_, ?_⟩
    · rintro six ⟨flag, value⟩ member
      obtain ⟨noSrc, noDst⟩ := addresses six
      rcases (mem_args small).1 member with
        ⟨rfl, _⟩ | ⟨_, ⟨rfl, _⟩ | ⟨rfl, _⟩⟩ | ⟨_, some, _⟩ | ⟨_, some, _⟩
      · exact ⟨(by decide : "-p".toList ≠ _), (by decide : "-p".toList ≠ _)⟩
      · exact ⟨(by decide : "--dport".toList ≠ _), (by decide : "--dport".toList ≠ _)⟩
      · exact ⟨(by decide : "--sport".toList ≠ _), (by decide : "--sport".toList ≠ _)⟩
      · exact absurd noSrc some
      · exact absurd noDst some
    · rintro ⟨flag, value⟩ member port
      have isPort : ∀ flag' : List Char, flag = flag' →
          flag' ≠ "--dport".toList → flag' ≠ "--sport".toList → False := by
        rintro _ rfl noDst noSrc
        exact port.elim noDst noSrc
      rcases (mem_args small).1 member with
        ⟨same, _⟩ | ⟨known, rest⟩ | ⟨same, _⟩ | ⟨same, _⟩
      · exact (isPort _ same (by decide) (by decide)).elim
      · constructor
        · rcases known with tcp | udp
          · exact .inl ((mem_args small).2 (.inl ⟨rfl, by simp [protoArg, tcp]⟩))
          · exact .inr ((mem_args small).2 (.inl ⟨rfl, by simp [protoArg, udp]⟩))
        · obtain ⟨dst, src⟩ := ports known
          rcases rest with ⟨_, some, value⟩ | ⟨_, some, value⟩
          · exact ⟨_, by omega, value⟩
          · exact ⟨_, by omega, value⟩
      · exact (isPort _ same (by decide) (by decide)).elim
      · exact (isPort _ same (by decide) (by decide)).elim
    · intro n member
      have noFlag {flag' : List Char} (same : "-p".toList = flag')
          (other : "-p".toList ≠ flag') : n ≤ 255 := absurd same other
      rcases (mem_args small).1 member with
        ⟨_, proto⟩ | ⟨_, ⟨same, _⟩ | ⟨same, _⟩⟩ | ⟨same, _⟩ | ⟨same, _⟩
      · have := (protoArg_numeric.1 proto).2.2
        omega
      all_goals exact noFlag same (by decide)

theorem collected_version {ts : List Atom} :
    (collected ts).ipv6 = 1 ↔ lastWrite Atom.version? ts = some 1 := by
  show (lastWrite Atom.version? ts).getD (-1) = 1 ↔ _
  cases lastWrite Atom.version? ts with
  | none => simp
  | some version => simp

/-- Without a term that fixes the version there is no address either. -/
theorem no_address {ts : List Atom} (none : lastWrite Atom.version? ts = none) :
    (collected ts).srcAddr = 0 ∧ (collected ts).dstAddr = 0 := by
  have unset := lastWrite_eq_none.1 none
  have src : lastWrite Atom.srcAddr? ts = .none := by
    refine lastWrite_eq_none.2 ?_
    intro a member
    have := unset a member
    unfold Atom.srcAddr?
    split
    · cases this
    · rfl
  have dst : lastWrite Atom.dstAddr? ts = .none := by
    refine lastWrite_eq_none.2 ?_
    intro a member
    have := unset a member
    unfold Atom.dstAddr?
    split
    · cases this
    · rfl
  simp only [collected, src, dst]
  exact ⟨rfl, rfl⟩

/-- **Either rule of a branch is acceptable** exactly if its terms are. -/
theorem rule_wellFormed_iff {ts : List Atom} {ipv6 : Bool}
    (wanted : ipv6 ∈ versions (collected ts)) :
    (ruleFor (collected ts) ipv6).WellFormed ↔ Installable ts := by
  have port {last : Option Int} : last.getD (-1) ≤ 65535 ↔ ∀ port, last = some port →
      port ≤ 65535 := by
    cases last with
    | none => simp
    | some port => simp
  have proto {n : Int} (some : n ≠ 0) :
      (collected ts).proto = n ↔ lastWrite Atom.proto? ts = .some n := by
    show (lastWrite Atom.proto? ts).getD 0 = n ↔ _
    cases lastWrite Atom.proto? ts with
    | none => simp [some.symm]
    | some proto => simp
  have protocol : (collected ts).proto ≤ 255 ↔ ∀ proto, lastWrite Atom.proto? ts = some proto →
      proto ≤ 255 := by
    show (lastWrite Atom.proto? ts).getD 0 ≤ 255 ↔ _
    cases lastWrite Atom.proto? ts with
    | none => simp
    | some proto => simp
  have addresses : (ipv6 = true → (collected ts).srcAddr = 0 ∧ (collected ts).dstAddr = 0) ↔
      (lastWrite Atom.version? ts = some 1 →
        (collected ts).srcAddr = 0 ∧ (collected ts).dstAddr = 0) := by
    simp only [versions, List.mem_append] at wanted
    constructor
    · intro none one
      apply none
      rw [collected_version.2 one] at wanted
      simpa using wanted
    · rintro none rfl
      cases last : lastWrite Atom.version? ts with
      | none => exact no_address last
      | some version =>
          rcases version_cases last with rfl | rfl
          · have four : (collected ts).ipv6 = 0 := by simp [collected, last]
            simp [four] at wanted
          · exact none last
  rw [ruleFor_wellFormed (collected_small ts), proto (by decide), proto (by decide), protocol,
    addresses]
  constructor
  · rintro ⟨version, ports, protocol⟩
    exact ⟨version, fun known => ⟨port.1 (ports known).1, port.1 (ports known).2⟩, protocol⟩
  · rintro ⟨version, ports, protocol⟩
    exact ⟨version, fun known => ⟨port.2 (ports known).1, port.2 (ports known).2⟩, protocol⟩

theorem versions_ne_nil (c : Constraints) : versions c ≠ [] := by
  unfold versions
  split_ifs with h h' h'
  · simp
  · simp
  · simp
  · omega

theorem branchRules_ne_nil (b : Formula Atom) : branchRules b ≠ [] := by
  rw [branchRules, ne_eq, List.map_eq_nil_iff]
  exact versions_ne_nil _

/-- The rules of a branch are acceptable together. -/
theorem branchRules_wellFormed {b : Formula Atom} {r : IptablesRule} (member : r ∈ branchRules b) :
    r.WellFormed ↔ Installable (b.demands false) := by
  obtain ⟨ipv6, wanted, rfl⟩ := List.mem_map.1 member
  exact rule_wellFormed_iff wanted

/-! ## Specification -/

/-- A disjunction whose branches ask for more different rules than there is room for. -/
def Overflows (φ : Formula Atom) (maxRules : Nat) : Prop :=
  (∃ ψ χ, φ = .or ψ χ) ∧ maxRules < ((lookedAt φ).flatMap branchRules).toFinset.card

theorem installable_nil : Installable [] where
  version none := by cases none
  ports known := by rcases known with none | none <;> cases none
  protocol _ none := by cases none

/-- **The derived rules are all acceptable exactly if** there is no room for any, or one
wide rule stands for all, or every branch that is looked at is installable. -/
theorem derive_wellFormed_iff {s : List Char} {prog : FilterProgram} {φ : Formula Atom}
    (accepted : filterCompile s = .ok prog) (denotes : Denotes s φ) (maxRules : Nat) :
    (∀ r ∈ (filterDeriveIptables prog maxRules).1, r.WellFormed) ↔
      maxRules = 0 ∨ Overflows φ maxRules ∨ ∀ b ∈ lookedAt φ, Installable (b.demands false) := by
  rw [derive_eq (compiles_of_denotes accepted denotes), length_dedupeRules_eq]
  split_ifs with none many
  · simp [none]
  · by_cases disjunction : ∃ ψ χ, φ = .or ψ χ
    · have wide : ∀ r ∈ branchRules φ, r.WellFormed := by
        intro r member
        rw [branchRules_wellFormed member]
        obtain ⟨ψ, χ, rfl⟩ := disjunction
        exact installable_nil
      constructor
      · intro _
        exact .inr (.inl ⟨disjunction, many⟩)
      · intro _ r member
        exact wide r (mem_dedupeRules.1 (List.mem_of_mem_take member))
    · have one : lookedAt φ = [φ] := by
        rw [lookedAt, branches_leaf fun ψ χ same => disjunction ⟨ψ, χ, same⟩]
        rfl
      have alone : (∀ b ∈ lookedAt φ, Installable (b.demands false)) ↔
          Installable (φ.demands false) := by simp [one]
      rw [alone]
      constructor
      · intro ok
        right
        right
        obtain ⟨r, first⟩ : ∃ r, r ∈ (dedupeRules (branchRules φ)).take maxRules := by
          obtain ⟨r, there⟩ := List.exists_mem_of_ne_nil _ (branchRules_ne_nil φ)
          apply List.exists_mem_of_ne_nil
          have some : dedupeRules (branchRules φ) ≠ [] :=
            List.ne_nil_of_mem (mem_dedupeRules.2 there)
          simp [some, none]
        exact (branchRules_wellFormed (mem_dedupeRules.1 (List.mem_of_mem_take first))).1
          (ok r first)
      · rintro (zero | ⟨other, _⟩ | ok)
        · exact absurd zero none
        · exact absurd other disjunction
        · intro r member
          exact (branchRules_wellFormed (mem_dedupeRules.1 (List.mem_of_mem_take member))).2 ok
  · have rules : (∀ r ∈ dedupeRules ((lookedAt φ).flatMap branchRules), r.WellFormed) ↔
        ∀ b ∈ lookedAt φ, Installable (b.demands false) := by
      simp only [mem_dedupeRules, List.mem_flatMap]
      constructor
      · intro ok b looked
        obtain ⟨r, there⟩ := List.exists_mem_of_ne_nil _ (branchRules_ne_nil b)
        exact (branchRules_wellFormed there).1 (ok r ⟨b, looked, there⟩)
      · rintro ok r ⟨b, looked, there⟩
        exact (branchRules_wellFormed there).2 (ok b looked)
    rw [rules]
    constructor
    · intro ok
      exact .inr (.inr ok)
    · rintro (zero | ⟨_, more⟩ | ok)
      · exact absurd zero none
      · exact absurd more many
      · exact ok

theorem derive_wellFormed_iff_mixed :
    ∃ prog, filterCompile mixedFilter = .ok prog ∧
      ((∀ r ∈ (filterDeriveIptables prog maxDerivedRules).1, r.WellFormed) ↔
        maxDerivedRules = 0 ∨ Overflows mixedFormula maxDerivedRules ∨
          ∀ b ∈ lookedAt mixedFormula, Installable (b.demands false)) := by
  obtain ⟨prog, accepted, _⟩ := filterCompile_of_derives derives_mixed
  exact ⟨prog, accepted, derive_wellFormed_iff accepted (.inr derives_mixed) maxDerivedRules⟩

/-- An IPv4 address for `ip6tables`, a port past the last one, a protocol past the last
one. -/
def visiblyBad (r : IptablesRule) : Bool :=
  r.ipv6 && r.args.any (fun arg => arg.1 == "-s".toList) ||
    r.args.contains ("--dport".toList, Nat.toDigits 10 70000) ||
    r.args.contains ("-p".toList, Nat.toDigits 10 300)

theorem refused_of_visiblyBad {r : IptablesRule} (bad : visiblyBad r = true) :
    ¬r.WellFormed := by
  intro ok
  simp only [visiblyBad, Bool.or_eq_true, Bool.and_eq_true, List.any_eq_true, beq_iff_eq,
    List.contains_iff_mem] at bad
  rcases bad with (⟨six, arg, member, same⟩ | port) | proto
  · exact (ok.addresses six arg member).1 same
  · obtain ⟨_, n, fits, same⟩ := ok.ports _ port (.inl rfl)
    have large : 70000 = n := digits_inj.1 same
    omega
  · have := ok.protocol _ proto
    omega

/-- The text is a filter, and one of its rules is refused. -/
def DerivesRefused (s : String) : Prop :=
  ∃ prog, filterCompile s.toList = .ok prog ∧
    ¬∀ r ∈ (filterDeriveIptables prog maxDerivedRules).1, r.WellFormed

theorem derivesRefused_of_run {s : String}
    (bad : ((filterCompile s.toList).toOption.any fun prog =>
      (filterDeriveIptables prog maxDerivedRules).1.any visiblyBad) = true) :
    DerivesRefused s := by
  obtain ⟨prog, accepted, passed⟩ := exists_compiled bad
  obtain ⟨r, derived, visible⟩ := List.any_eq_true.1 passed
  refine ⟨prog, accepted, ?_⟩
  intro ok
  exact refused_of_visiblyBad visible (ok r derived)

/-- An address and `ipv6`, a port and a protocol that are none. -/
theorem derived_refused :
    DerivesRefused "ip.SrcAddr == 1.2.3.4 and ipv6" ∧ DerivesRefused "tcp.DstPort == 70000" ∧
      DerivesRefused "ip.Protocol == 300" := by
  refine ⟨?_, ?_, ?_⟩
  · exact derivesRefused_of_run (by decide)
  · exact derivesRefused_of_run (by decide)
  · exact derivesRefused_of_run (by decide)

end Clumsy.Filter
