/-
# Modules.Duplicate -- duplicate.cpp: copies in front of the original

Each chosen packet gets `count - 1` clones inserted before it, fewer if memory
runs out.  Clones take fresh addresses, so no clone is any node that was there.
-/
import Clumsy.Modules.Basic

namespace Clumsy.Modules

open Clumsy.Theory
open Clumsy.Packet

set_option autoImplicit false

/-- The statics of `duplicate.cpp`. -/
structure Dup where
  dupInbound    : Bool
  dupOutbound   : Bool
  chance        : Chance
  count         : Clamped 2 50
  affectedCount : Nat

variable {β : Type}

namespace Dup

def initial : Dup where
  dupInbound := true
  dupOutbound := true
  chance := .literal 1000 (.refl true)
  count := .literal 2 (.refl true)
  affectedCount := 0

def handles (dup : Dup) (pac : PacketNode β) : Bool :=
  checkDirection pac.pktMeta.outbound dup.dupInbound dup.dupOutbound

end Dup

/-- What the walk carries: the next free address, the draws, and whether any
packet was chosen. -/
structure DupWalk where
  fresh : Nat
  draws : Draws
  duped : Bool

/-- `while (copies--)`: one clone for each round, until memory runs out. -/
def cloneLoop [CaptureBackend β] (src : PacketNode β) :
    Nat → DupWalk → DupWalk × List (PacketNode β)
  | 0, w => (w, [])
  | copies + 1, w =>
      if w.draws.alloc 0 then
        let rest := cloneLoop src copies
          { w with fresh := w.fresh + 1, draws := w.draws.afterAlloc }
        (rest.1, cloneNode w.fresh src :: rest.2)
      else ({ w with draws := w.draws.afterAlloc }, [])

/-- The body of `dupProcess`'s loop: the clones inserted before one packet. -/
def Dup.copiesOf [CaptureBackend β] (dup : Dup) (w : DupWalk) (pac : PacketNode β) :
    DupWalk × List (PacketNode β) :=
  if dup.handles pac then
    let coin := calcChance dup.chance.val w.draws
    if coin.1 then
      cloneLoop pac (dup.count.val - 1).toNat { w with draws := coin.2, duped := true }
    else ({ w with draws := coin.2 }, [])
  else (w, [])

def dupProcess [CaptureBackend β] (env : ProcEnv) (fresh : Nat) (main : List (PacketNode β))
    (dup : Dup) : Outcome Dup β :=
  let walked := precede dup.copiesOf { fresh, draws := env.draws, duped := false } main
  { state := { dup with affectedCount := dup.affectedCount + walked.2.2.length }
    main := walked.2.1
    clones := walked.2.2
    triggered := walked.1.duped }

/-- A control write to one of duplicate's parameters, after its value was
parsed. -/
inductive DupParam where
  | chance (v : Int)
  | count (v : Int)
  | inbound (on : Bool)
  | outbound (on : Bool)
  deriving Repr

def dupSetParam (dup : Dup) : DupParam → Dup
  | .chance v => { dup with chance := .set v }
  | .count v => { dup with count := .ofShort (.refl true) v }
  | .inbound on => { dup with dupInbound := on }
  | .outbound on => { dup with dupOutbound := on }

/-! ## Specification -/

section

variable [CaptureBackend β]

/-- A clone of `src`: its bytes, its metadata and the backend's clone blob, at
another address. -/
def IsCloneOf (src copy : PacketNode β) : Prop :=
  copy.packet = src.packet ∧ copy.pktMeta = src.pktMeta ∧
    copy.backend = CaptureBackend.packetBackendPrepareClone src.backend

/-- The clones of one packet occupy the addresses from `fresh` on, in order. -/
theorem cloneLoop_spec (src : PacketNode β) (copies : Nat) (w : DupWalk) :
    (cloneLoop src copies w).1.fresh = w.fresh + (cloneLoop src copies w).2.length ∧
      (cloneLoop src copies w).2.map PacketNode.addr =
        List.range' w.fresh (cloneLoop src copies w).2.length ∧
      ∀ copy ∈ (cloneLoop src copies w).2, IsCloneOf src copy := by
  induction copies generalizing w with
  | zero => simp [cloneLoop]
  | succ copies ih =>
      unfold cloneLoop
      split
      · obtain ⟨fresh, addrs, clones⟩ :=
          ih { w with fresh := w.fresh + 1, draws := w.draws.afterAlloc }
        refine ⟨?_, ?_, ?_⟩
        · simp only [fresh, List.length_cons]
          omega
        · simp only [List.map_cons, List.length_cons, addrs, List.range'_succ]
          rfl
        · intro copy member
          rcases List.mem_cons.1 member with rfl | inRest
          · exact ⟨rfl, rfl, rfl⟩
          · exact clones copy inRest
      · simp

theorem Dup.copiesOf_spec (dup : Dup) (w : DupWalk) (pac : PacketNode β) :
    (dup.copiesOf w pac).1.fresh = w.fresh + (dup.copiesOf w pac).2.length ∧
      (dup.copiesOf w pac).2.map PacketNode.addr =
        List.range' w.fresh (dup.copiesOf w pac).2.length ∧
      ∀ copy ∈ (dup.copiesOf w pac).2, IsCloneOf pac copy := by
  unfold Dup.copiesOf
  split
  · simp only
    split
    · exact cloneLoop_spec pac _ _
    · simp
  · simp

/-- All clones of one call occupy the addresses from `fresh` on, in order, and
each is a clone of a packet of the main queue. -/
theorem dupWalk_spec (dup : Dup) (main : List (PacketNode β)) (w : DupWalk) :
    (precede dup.copiesOf w main).2.2.map PacketNode.addr =
        List.range' w.fresh (precede dup.copiesOf w main).2.2.length ∧
      ∀ copy ∈ (precede dup.copiesOf w main).2.2, ∃ src ∈ main, IsCloneOf src copy := by
  induction main generalizing w with
  | nil => simp [precede]
  | cons pac main ih =>
      obtain ⟨fresh, addrs, clones⟩ := dup.copiesOf_spec w pac
      obtain ⟨restAddrs, restClones⟩ := ih (dup.copiesOf w pac).1
      refine ⟨?_, ?_⟩
      · simp only [precede, List.map_append, addrs, restAddrs, fresh, List.length_append]
        rw [List.range'_append_1]
      · intro copy member
        rcases List.mem_append.1 member with here | inRest
        · exact ⟨pac, List.mem_cons_self, clones copy here⟩
        · obtain ⟨src, source, clone⟩ := restClones copy inRest
          exact ⟨src, List.mem_cons_of_mem pac source, clone⟩

theorem dupProcess_clones_addr (env : ProcEnv) (fresh : Nat) (main : List (PacketNode β))
    (dup : Dup) :
    (dupProcess env fresh main dup).clones.map PacketNode.addr =
      List.range' fresh (dupProcess env fresh main dup).clones.length :=
  (dupWalk_spec dup main _).1

theorem dupProcess_clones (env : ProcEnv) (fresh : Nat) (main : List (PacketNode β)) (dup : Dup) :
    ∀ copy ∈ (dupProcess env fresh main dup).clones, ∃ src ∈ main, IsCloneOf src copy :=
  (dupWalk_spec dup main _).2

/-- The main queue afterwards is the old one and the clones. -/
theorem dupProcess_perm (env : ProcEnv) (fresh : Nat) (main : List (PacketNode β)) (dup : Dup) :
    (dupProcess env fresh main dup).main.Perm (main ++ (dupProcess env fresh main dup).clones) :=
  precede_perm _ _ _

theorem dupProcess_filter (env : ProcEnv) (fresh : Nat) (main : List (PacketNode β)) (dup : Dup)
    (out : Bool) (off : ∀ pac : PacketNode β, pac.travels out = true → dup.handles pac = false) :
    (dupProcess env fresh main dup).main.filter (PacketNode.travels out) =
        main.filter (PacketNode.travels out) ∧
      (dupProcess env fresh main dup).clones.filter (PacketNode.travels out) = [] := by
  refine precede_filter dup.copiesOf (PacketNode.travels out) (fun w pac => ?_) _ _
  rw [List.filter_eq_nil_iff]
  intro copy member travels
  have clone := (dup.copiesOf_spec w pac).2.2 copy member
  have same : pac.travels out = true := by
    unfold PacketNode.travels at travels ⊢
    rwa [clone.2.1] at travels
  simp [Dup.copiesOf, off pac same] at member

end

end Clumsy.Modules
