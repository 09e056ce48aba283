/-
# Filter.Branches -- filterexpr.cpp: what the OR splitting looks at

`filterDeriveIptables` works on the branches that `splitOr` hands it (`orBranches`).
A branch at the depth limit stays whole and loses nothing; at `SPLIT_BRANCH_LIMIT` the walk
returns and leaves the rest of the disjunction out.  A packet satisfies one of the branches
exactly if it satisfies one of the first 64 of the expression (`orBranches_hold`), so the
list covers the expression exactly if what is left out adds nothing
(`orBranches_cover_iff`).
-/
import Clumsy.Filter.Derive

namespace Clumsy.Filter

open Clumsy.Theory
open Clumsy.Packet

set_option autoImplicit false

/-- `evalNode` at an index of a program. -/
def FilterProgram.evalAt (prog : FilterProgram) (idx : Int) (pktMeta : PacketMeta)
    (packet : Bytes) : Bool :=
  evalNode prog.nodes pktMeta (extractFields packet) prog.nodes.length idx

section Split

variable {prog : FilterProgram} {φ : Formula Atom}

theorem evalAt_root (compiles : prog.Compiles φ) (pktMeta : PacketMeta) (packet : Bytes) :
    prog.evalAt prog.root pktMeta packet = denote φ pktMeta packet := by
  obtain ⟨i, root, rep⟩ := compiles
  rw [FilterProgram.evalAt, root]
  exact evalNode_represents pktMeta (extractFields packet) rep rep.lt_length

theorem evalAt_standsFor {k : Int} {ψ : Formula Atom} (stands : StandsFor prog.nodes k ψ)
    (pktMeta : PacketMeta) (packet : Bytes) :
    prog.evalAt k pktMeta packet = denote ψ pktMeta packet := by
  obtain ⟨i, rfl, rep⟩ := stands
  exact evalNode_represents pktMeta (extractFields packet) rep rep.lt_length

/-- The branches stand for the first disjuncts of the expression. -/
theorem orBranches_stand (compiles : prog.Compiles φ) :
    List.Forall₂ (StandsFor prog.nodes) (orBranches prog)
      ((φ.branches splitDepth).take splitBranchLimit) := by
  obtain ⟨idxs, stand, some_, split⟩ := split_branches compiles
  have nonneg : prog.root ≥ 0 := by
    obtain ⟨i, root, _⟩ := compiles
    omega
  have notEmpty : ¬idxs.isEmpty = true := by simpa using some_
  simp only [orBranches, if_pos nonneg, split, if_neg notEmpty]
  exact stand

/-- What the branches hold of. -/
theorem orBranches_hold (compiles : prog.Compiles φ) (pktMeta : PacketMeta) (packet : Bytes) :
    (∃ k ∈ orBranches prog, prog.evalAt k pktMeta packet = true) ↔
      ∃ b ∈ (φ.branches splitDepth).take splitBranchLimit, denote b pktMeta packet = true := by
  have stand := orBranches_stand compiles
  constructor
  · rintro ⟨k, member, holds⟩
    obtain ⟨b, inside, stands⟩ := exists_of_forall₂ stand.flip member
    exact ⟨b, inside, (evalAt_standsFor stands pktMeta packet).symm.trans holds⟩
  · rintro ⟨b, member, holds⟩
    obtain ⟨k, inside, stands⟩ := exists_of_forall₂ stand member
    exact ⟨k, inside, (evalAt_standsFor stands pktMeta packet).trans holds⟩

/-- The expression holds of what one of its disjuncts holds of, looked at or left out. -/
theorem denote_iff_kept_or_left (φ : Formula Atom) (pktMeta : PacketMeta) (packet : Bytes) :
    denote φ pktMeta packet = true ↔
      (∃ b ∈ (φ.branches splitDepth).take splitBranchLimit, denote b pktMeta packet = true) ∨
        ∃ b ∈ (φ.branches splitDepth).drop splitBranchLimit, denote b pktMeta packet = true := by
  have all := Formula.eval_branches (Atom.holds pktMeta (extractFields packet)) splitDepth φ
  rw [denote, ← all, List.any_eq_true]
  constructor
  · rintro ⟨b, member, holds⟩
    rw [← List.take_append_drop splitBranchLimit (φ.branches splitDepth), List.mem_append] at member
    rcases member with kept | left
    · exact .inl ⟨b, kept, holds⟩
    · exact .inr ⟨b, left, holds⟩
  · rintro (⟨b, kept, holds⟩ | ⟨b, left, holds⟩)
    · exact ⟨b, List.mem_of_mem_take kept, holds⟩
    · exact ⟨b, List.mem_of_mem_drop left, holds⟩

/-- **When no branch is lost.**  The branches cover an accepted expression exactly if each of
its disjuncts from the 65th on holds only of packets that one of the first 64 holds of. -/
theorem orBranches_cover_iff {s : List Char} (accepted : filterCompile s = .ok prog)
    (denotes : Denotes s φ) :
    (∀ pktMeta packet, prog.evalAt prog.root pktMeta packet = true ↔
        ∃ k ∈ orBranches prog, prog.evalAt k pktMeta packet = true) ↔
      ∀ b ∈ (φ.branches splitDepth).drop splitBranchLimit, ∀ pktMeta packet,
        denote b pktMeta packet = true →
          ∃ b' ∈ (φ.branches splitDepth).take splitBranchLimit,
            denote b' pktMeta packet = true := by
  have compiles := compiles_of_denotes accepted denotes
  constructor
  · intro covers b left pktMeta packet holds
    rw [← orBranches_hold compiles, ← covers, evalAt_root compiles, denote_iff_kept_or_left]
    exact .inr ⟨b, left, holds⟩
  · intro adds pktMeta packet
    rw [orBranches_hold compiles, evalAt_root compiles, denote_iff_kept_or_left]
    constructor
    · rintro (kept | ⟨b, left, holds⟩)
      · exact kept
      · exact adds b left pktMeta packet holds
    · exact .inl

/-- Few branches are all looked at, however deep the disjunctions are nested. -/
theorem nothing_left {φ : Formula Atom} (few : (φ.branches splitDepth).length ≤ splitBranchLimit) :
    (φ.branches splitDepth).drop splitBranchLimit = [] := List.drop_eq_nil_of_le few

end Split

theorem orBranches_cover_iff_mixed :
    ∃ prog, filterCompile mixedFilter = .ok prog ∧
      ∀ pktMeta packet, prog.evalAt prog.root pktMeta packet = true ↔
        ∃ k ∈ orBranches prog, prog.evalAt k pktMeta packet = true := by
  obtain ⟨prog, accepted, _⟩ := filterCompile_of_derives derives_mixed
  refine ⟨prog, accepted, (orBranches_cover_iff accepted (.inr derives_mixed)).2 ?_⟩
  rw [nothing_left (by decide)]
  intro b left
  cases left

/-- `tcp` twice for every level, in parentheses. -/
def tcpTree : Nat → List Char
  | 0 => "tcp".toList
  | n + 1 => '(' :: tcpTree n ++ ")or(".toList ++ tcpTree n ++ [')']

/-- The 65th disjunct of this expression is `udp`, and no branch stands for it. -/
theorem orBranches_lose_udp :
    ∃ prog, filterCompile (tcpTree 6 ++ " or udp".toList) = .ok prog ∧
      prog.evalAt prog.root sampleMeta (samplePacket 17) = true ∧
        ¬∃ k ∈ orBranches prog, prog.evalAt k sampleMeta (samplePacket 17) = true := by
  have run : ((filterCompile (tcpTree 6 ++ " or udp".toList)).toOption.any fun prog =>
      prog.evalAt prog.root sampleMeta (samplePacket 17) &&
        (orBranches prog).all fun k => !prog.evalAt k sampleMeta (samplePacket 17)) = true := by
    decide +kernel
  obtain ⟨prog, accepted, passed⟩ := exists_compiled run
  rw [Bool.and_eq_true, List.all_eq_true] at passed
  refine ⟨prog, accepted, passed.1, ?_⟩
  rintro ⟨k, member, holds⟩
  have missed := passed.2 k member
  rw [holds] at missed
  cases missed

end Clumsy.Filter
