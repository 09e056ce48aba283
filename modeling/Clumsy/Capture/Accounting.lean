/-
# Capture.Accounting -- every packet and every verdict of a session is booked

`Linux.Booked` is the invariant of a session between two events: the main list is
empty, the buffers are sound, every packet ever captured or cloned was sent,
freed by a dropping module or is in a buffer, and every id given to the callback
was answered or belongs to a packet in a buffer.

`booked_step` carries it over one event, `booked_run` over a run.
-/
import Clumsy.Capture.Linux

namespace Clumsy.Capture

open Clumsy.Theory
open Clumsy.Packet
open Clumsy.Modules
open Clumsy.Filter

set_option autoImplicit false

/-! ## Who owes a verdict -/

/-- The id a node with this blob still has to be answered for. -/
def LinuxPacketMeta.owes (m : LinuxPacketMeta) : Option UInt32 :=
  if m.synthetic || m.verdictIssued || m.packetId == 0 then none else some m.packetId

def owed (nodes : List LinuxNode) : List UInt32 := nodes.filterMap fun pac => pac.backend.owes

theorem owed_append (as bs : List LinuxNode) : owed (as ++ bs) = owed as ++ owed bs :=
  List.filterMap_append

/-- What is owed depends on the tags only. -/
theorem owed_of_tags {as bs : List LinuxNode}
    (same : (as.map PacketNode.tag).Perm (bs.map PacketNode.tag)) : (owed as).Perm (owed bs) := by
  have tags : ∀ nodes : List LinuxNode,
      owed nodes = (nodes.map PacketNode.tag).filterMap fun tag => tag.2.2.2.owes := by
    intro nodes
    rw [List.filterMap_map]
    rfl
  rw [tags, tags]
  exact same.filterMap _

theorem owed_length_le (nodes : List LinuxNode) : (owed nodes).length ≤ nodes.length :=
  List.length_filterMap_le _ _

/-- Clones owe nothing. -/
theorem owed_clones {nodes : List LinuxNode}
    (clones : ∀ copy ∈ nodes, ∃ blob : LinuxPacketMeta,
      copy.backend = CaptureBackend.packetBackendPrepareClone blob) : owed nodes = [] := by
  unfold owed
  rw [List.filterMap_eq_nil_iff]
  intro copy member
  obtain ⟨blob, same⟩ := clones copy member
  rw [same]
  rfl

/-- **A first settlement answers what is owed, a second one nothing.** -/
theorem settleVerdict_spec (node : LinuxNode) (verdict : Verdict) :
    (settleVerdict node verdict).2.map Answer.packetId = node.backend.owes.toList ∧
      (settleVerdict (settleVerdict node verdict).1 .drop).2 = [] ∨
      node.backend.owes = none ∧ (settleVerdict node verdict).2 = [] ∧
        (settleVerdict node verdict).1 = node := by
  cases done : node.backend.synthetic || node.backend.verdictIssued ||
      node.backend.packetId == 0 with
  | true => exact Or.inr (by simp only [settleVerdict, LinuxPacketMeta.owes, done]; simp)
  | false =>
      refine Or.inl ⟨?_, ?_⟩
      · simp only [settleVerdict, LinuxPacketMeta.owes, done]
        rfl
      · simp only [settleVerdict, done]
        simp

theorem onFree_answers (node : LinuxNode) :
    (packetBackendOnFree node).map Answer.packetId = node.backend.owes.toList := by
  unfold packetBackendOnFree
  rcases settleVerdict_spec node .drop with ⟨answered, -⟩ | ⟨none, answers, -⟩
  · exact answered
  · rw [none, answers]
    rfl

theorem freed_answers (nodes : List LinuxNode) :
    (nodes.flatMap packetBackendOnFree).map Answer.packetId = owed nodes := by
  induction nodes with
  | nil => rfl
  | cons node nodes ih =>
      rw [List.flatMap_cons, List.map_append, onFree_answers, ih]
      unfold owed
      rw [List.filterMap_cons]
      cases node.backend.owes <;> rfl

namespace Linux

/-! ## Sending -/

/-- What sending leaves alone, and what it books. -/
structure Sends (nodes : List LinuxNode) (s s' : Linux) : Prop where
  pipe     : s'.pipe = s.pipe
  prog     : s'.filterProg = s.filterProg
  given    : s'.given = s.given
  captured : s'.captured = s.captured
  clones   : s'.clones = s.clones
  freed    : s'.freed = s.freed
  sent     : s'.sent = s.sent ++ nodes
  answers  : ∃ more, s'.answers = s.answers ++ more ∧ more.map Answer.packetId = owed nodes

theorem sendOne_sends (env : UInt32 × SendTo) (pnode : LinuxNode) (s : Linux) :
    Sends [pnode] s (s.sendOne env pnode) := by
  have owing : owed [pnode] = pnode.backend.owes.toList := by
    rw [owed, List.filterMap_cons]
    cases pnode.backend.owes <;> rfl
  unfold sendOne
  simp only
  split
  · refine ⟨rfl, rfl, rfl, rfl, rfl, rfl, rfl, _, rfl, ?_⟩
    rw [owing, onFree_answers]
  · refine ⟨rfl, rfl, rfl, rfl, rfl, rfl, rfl, (settleVerdict pnode .accept).2 ++
      packetBackendOnFree (settleVerdict pnode .accept).1, by simp only [List.append_assoc], ?_⟩
    rw [owing]
    rcases settleVerdict_spec pnode .accept with ⟨first, second⟩ | ⟨none, answers, same⟩
    · rw [packetBackendOnFree, second, List.append_nil, first]
    · rw [answers, same, List.nil_append, onFree_answers]

theorem Sends.trans {as bs : List LinuxNode} {s t u : Linux} (first : Sends as s t)
    (second : Sends bs t u) : Sends (as ++ bs) s u where
  pipe := second.pipe.trans first.pipe
  prog := second.prog.trans first.prog
  given := second.given.trans first.given
  captured := second.captured.trans first.captured
  clones := second.clones.trans first.clones
  freed := second.freed.trans first.freed
  sent := by rw [second.sent, first.sent, List.append_assoc]
  answers := by
    obtain ⟨more, eq, ids⟩ := first.answers
    obtain ⟨more', eq', ids'⟩ := second.answers
    refine ⟨more ++ more', by rw [eq', eq, List.append_assoc], ?_⟩
    rw [List.map_append, ids, ids', owed_append]

theorem sendEach_sends (nodes : List LinuxNode) (env : Nat → UInt32 × SendTo) (s : Linux) :
    Sends nodes s (sendEach env nodes s) := by
  induction nodes generalizing env s with
  | nil => exact ⟨rfl, rfl, rfl, rfl, rfl, rfl, by rw [sendEach, List.append_nil], [], by
      rw [sendEach, List.append_nil], rfl⟩
  | cons pnode nodes ih =>
      have first := sendOne_sends (env 0) pnode s
      exact first.trans (ih _ _)

/-! ## The invariant -/

/-- The addresses handed out so far are distinct and below the next one. -/
def Distinct (s : Linux) : Prop :=
  ((s.captured ++ s.clones).map PacketNode.addr).Nodup ∧
    ∀ pac ∈ s.captured ++ s.clones, pac.addr < s.pipe.nextAddr

/-- The freed nodes of the history. -/
def freedNodes (s : Linux) : List LinuxNode := s.freed.map Prod.snd

/-- Every packet is accounted for, given the packets inside the pipeline. -/
def PacketBooks (s : Linux) (inside : List LinuxNode) : Prop :=
  Balanced ((s.captured ++ s.clones).map PacketNode.tag)
    ((s.sent ++ s.freedNodes).map PacketNode.tag) (inside.map PacketNode.tag)

/-- Every id is accounted for; id 0 is never answered again by `settleVerdict`. -/
def VerdictBooks (s : Linux) (inside : List LinuxNode) : Prop :=
  Balanced (s.given.filter (· != 0)) ((s.answers.map Answer.packetId).filter (· != 0))
    (owed inside)

/-- What holds inside a step as well: everything but the empty main list. -/
structure Books (s : Linux) : Prop where
  inv      : s.pipe.Inv
  packets  : s.PacketBooks s.pipe.inside
  verdicts : s.VerdictBooks s.pipe.inside
  distinct : s.Distinct
  droppers : ∀ entry ∈ s.freed, entry.1.drops = true

/-- **The invariant of a session between two events.** -/
structure Booked (s : Linux) : Prop extends Books s where
  main : s.pipe.main = []

theorem owes_ne_zero {m : LinuxPacketMeta} {id : UInt32} (owes : m.owes = some id) : id ≠ 0 := by
  unfold LinuxPacketMeta.owes at owes
  split at owes
  · simp at owes
  · rename_i owing
    simp only [Bool.or_eq_true, beq_iff_eq, not_or] at owing
    rw [← Option.some.inj owes]
    exact owing.2

theorem owed_filter (nodes : List LinuxNode) : (owed nodes).filter (· != 0) = owed nodes := by
  rw [List.filter_eq_self]
  intro id member
  obtain ⟨pac, -, owes⟩ := List.mem_filterMap.1 member
  exact bne_iff_ne.2 (owes_ne_zero owes)

/-- Answering for nodes that leave the pipeline keeps the verdict books. -/
theorem VerdictBooks.settle {s s' : Linux} {inside inside' out : List LinuxNode}
    {more : List Answer} (books : s.VerdictBooks inside) (given : s'.given = s.given)
    (answers : s'.answers = s.answers ++ more) (ids : more.map Answer.packetId = owed out)
    (split : (owed inside).Perm (owed out ++ owed inside')) : s'.VerdictBooks inside' := by
  have settled := Balanced.settle books split
  unfold VerdictBooks
  rw [given, answers, List.map_append, List.filter_append, ids, owed_filter]
  exact settled

/-- Whatever the modules did, booking it keeps the books. -/
theorem Books.record {s : Linux} (books : s.Books)
    {out : Pipeline LinuxPacketMeta × Effects LinuxPacketMeta} (inv : out.1.Inv)
    (moves : s.pipe.Moves out) :
    ({ s with pipe := out.1 }.record out.2).Books where
  inv := inv
  packets := by
    have packets := books.packets
    have tags := moves.tags
    unfold PacketBooks Theory.Balanced at packets ⊢
    simp only [Linux.record, freedNodes, List.map_append, Effects.freedNodes,
      ← Multiset.coe_eq_coe, ← Multiset.coe_add] at packets tags ⊢
    rw [← add_assoc, packets, add_assoc, ← tags]
    abel
  verdicts := by
    refine books.verdicts.settle rfl rfl (freed_answers _) ?_
    have tags := owed_of_tags moves.tags
    rw [owed_append, owed_append, owed_clones moves.clones, List.append_nil] at tags
    exact tags.symm.trans List.perm_append_comm
  distinct := by
    obtain ⟨distinct, below⟩ := books.distinct
    have addrs := moves.addrs
    have next := moves.next
    have range : ∀ pac ∈ out.2.clones,
        s.pipe.nextAddr ≤ pac.addr ∧ pac.addr < s.pipe.nextAddr + out.2.clones.length := by
      intro pac member
      have : pac.addr ∈ out.2.clones.map PacketNode.addr := List.mem_map_of_mem member
      rw [addrs, List.mem_range'_1] at this
      exact this
    refine ⟨?_, ?_⟩
    · show ((s.captured ++ (s.clones ++ out.2.clones)).map PacketNode.addr).Nodup
      rw [← List.append_assoc, List.map_append, List.nodup_append']
      refine ⟨distinct, by rw [addrs]; exact List.nodup_range', ?_⟩
      intro a left right
      obtain ⟨pac, member, rfl⟩ := List.mem_map.1 left
      obtain ⟨copy, fresh, same⟩ := List.mem_map.1 right
      have old := below pac member
      have new := (range copy fresh).1
      omega
    · intro pac member
      show pac.addr < out.1.nextAddr
      rw [next]
      rcases List.mem_append.1 member with h | h
      · have := below pac (List.mem_append_left _ h)
        omega
      · rcases List.mem_append.1 h with h | h
        · have := below pac (List.mem_append_right _ h)
          omega
        · exact (range pac h).2
  droppers := by
    intro entry member
    rcases List.mem_append.1 member with h | h
    · exact books.droppers entry h
    · exact moves.droppers entry h

/-- Sending everything on the main list keeps the books and empties it. -/
theorem Books.sendAll {s : Linux} (books : s.Books) (env : Nat → UInt32 × SendTo) :
    (s.sendAllListPackets env).Booked ∧ (s.sendAllListPackets env).pipe.mods = s.pipe.mods ∧
      (s.sendAllListPackets env).pipe.enabled = s.pipe.enabled ∧
      (s.sendAllListPackets env).pipe.lastEnabled = s.pipe.lastEnabled ∧
      (s.sendAllListPackets env).given = s.given := by
  have sends := sendEach_sends s.pipe.main.reverse env { s with pipe := { s.pipe with main := [] } }
  have pipe : (s.sendAllListPackets env).pipe = { s.pipe with main := [] } := sends.pipe
  refine ⟨⟨⟨?_, ?_, ?_, ?_, ?_⟩, ?_⟩, ?_, ?_, ?_, sends.given⟩
  · rw [pipe]
    exact ⟨books.inv.sound, books.inv.linked, books.inv.alive⟩
  · have packets := books.packets
    have sent : (s.sendAllListPackets env).sent = s.sent ++ s.pipe.main.reverse := sends.sent
    have freed : (s.sendAllListPackets env).freedNodes = s.freedNodes :=
      congrArg (List.map Prod.snd) sends.freed
    have captured : (s.sendAllListPackets env).captured = s.captured := sends.captured
    have clones : (s.sendAllListPackets env).clones = s.clones := sends.clones
    unfold PacketBooks Theory.Balanced at packets ⊢
    rw [captured, clones, sent, freed, pipe]
    simp only [Pipeline.inside, List.map_append, List.nil_append, List.map_reverse,
      ← Multiset.coe_eq_coe, ← Multiset.coe_add, Multiset.coe_reverse] at packets ⊢
    rw [packets]
    abel
  · obtain ⟨more, answers, ids⟩ := sends.answers
    refine books.verdicts.settle sends.given answers ids ?_
    rw [pipe]
    show (owed (s.pipe.main ++ s.pipe.mods.held)).Perm
      (owed s.pipe.main.reverse ++ owed ([] ++ s.pipe.mods.held))
    rw [owed_append, List.nil_append]
    refine List.Perm.append_right _ ?_
    unfold owed
    rw [List.filterMap_reverse]
    exact (List.reverse_perm _).symm
  · have captured : (s.sendAllListPackets env).captured = s.captured := sends.captured
    have clones : (s.sendAllListPackets env).clones = s.clones := sends.clones
    obtain ⟨distinct, below⟩ := books.distinct
    unfold Distinct
    rw [captured, clones, pipe]
    exact ⟨distinct, below⟩
  · have freed : (s.sendAllListPackets env).freed = s.freed := sends.freed
    rw [freed]
    exact books.droppers
  · rw [pipe]
  · rw [pipe]
  · rw [pipe]
  · rw [pipe]

/-! ## One event -/

/-- On a booked state no module fails, so what they leave is recorded and sent. -/
theorem Books.consumeStep_eq {s : Linux} (books : s.Books) (env : LinuxEnv) :
    s.divertConsumeStep env =
      ({ s with pipe := (s.pipe.runModules env.step).1 }.record
        (s.pipe.runModules env.step).2).sendAllListPackets env.send := by
  have alive := (Pipeline.runModules_spec env.step books.inv).1.alive
  unfold divertConsumeStep
  simp only
  rw [if_neg (by simp [alive])]

/-- A step of the modules on a booked state, whatever is on the main list. -/
theorem Books.consumeStep {s : Linux} (books : s.Books) (env : LinuxEnv) :
    (s.divertConsumeStep env).Booked ∧ (s.divertConsumeStep env).given = s.given := by
  obtain ⟨inv, moves⟩ := Pipeline.runModules_spec env.step books.inv
  obtain ⟨booked, -, -, -, given⟩ := (books.record inv moves).sendAll env.send
  rw [books.consumeStep_eq env]
  exact ⟨booked, given⟩

/-- A packet that is let through at once. -/
theorem Booked.passThrough {s : Linux} (booked : s.Booked) (id : UInt32) :
    ({ s with given := s.given ++ [id] }.passThrough id).Booked where
  inv := booked.inv
  packets := booked.packets
  verdicts := by
    have verdicts := booked.verdicts
    unfold VerdictBooks Theory.Balanced at verdicts ⊢
    simp only [Linux.passThrough, List.map_append, List.map_cons, List.map_nil,
      List.filter_append, ← Multiset.coe_eq_coe, ← Multiset.coe_add] at verdicts ⊢
    rw [verdicts]
    abel
  distinct := booked.distinct
  droppers := booked.droppers
  main := booked.main

/-- A packet that is put on the list. -/
theorem Booked.capture {s : Linux} (booked : s.Booked) (id : UInt32) (pktMeta : PacketMeta)
    (payload : Bytes) : ({ s with given := s.given ++ [id] }.capture id pktMeta payload).Books where
  inv := booked.inv.appendNode _ _ _
  packets := by
    have packets := booked.packets
    unfold PacketBooks Theory.Balanced at packets ⊢
    simp only [Linux.capture, Pipeline.inside, Pipeline.appendNode, booked.main, List.nil_append,
      freedNodes, List.map_append, List.map_cons, List.map_nil, ← Multiset.coe_eq_coe,
      ← Multiset.coe_add] at packets ⊢
    rw [add_right_comm, packets]
    abel
  verdicts := by
    have verdicts := booked.verdicts
    unfold VerdictBooks Theory.Balanced at verdicts ⊢
    have node : owed [createNode s.pipe.nextAddr payload pktMeta
        { packetId := id, verdictIssued := false, synthetic := false }] =
        [id].filter (· != 0) := by
      by_cases zero : id = 0 <;>
        simp [owed, createNode, LinuxPacketMeta.owes, zero]
    simp only [Linux.capture, Pipeline.inside, Pipeline.appendNode, booked.main, List.nil_append,
      List.filter_append, owed_append, node, ← Multiset.coe_eq_coe, ← Multiset.coe_add]
      at verdicts ⊢
    rw [verdicts]
    abel
  distinct := by
    obtain ⟨distinct, below⟩ := booked.distinct
    refine ⟨?_, ?_⟩
    · have same : ((s.captured ++ [createNode s.pipe.nextAddr payload pktMeta
          (LinuxPacketMeta.mk id false false)] ++ s.clones).map PacketNode.addr).Perm
          (s.pipe.nextAddr :: (s.captured ++ s.clones).map PacketNode.addr) := by
        simp only [List.map_append, List.map_cons, List.append_assoc, List.singleton_append]
        exact List.perm_middle
      refine (same.nodup_iff).2 (List.nodup_cons.2 ⟨?_, distinct⟩)
      intro member
      obtain ⟨pac, inside, addr⟩ := List.mem_map.1 member
      have := below pac inside
      omega
    · intro pac member
      show pac.addr < s.pipe.nextAddr + 1
      rcases List.mem_append.1 member with h | h
      · rcases List.mem_append.1 h with h | h
        · have := below pac (List.mem_append_left _ h)
          omega
        · rw [List.mem_singleton.1 h]
          exact Nat.lt_succ_self _
      · have := below pac (List.mem_append_right _ h)
        omega
  droppers := booked.droppers

/-- **One event keeps the books**, and gives the callback at most its own id. -/
theorem booked_step {s : Linux} (booked : s.Booked) (e : Event) : (s.step e).Booked := by
  cases e with
  | packet env alloc nfa =>
      show (s.nfqCallback env alloc nfa).Booked
      unfold nfqCallback
      split
      · exact booked
      · rename_i id _
        simp only
        split
        · exact booked.passThrough id
        · exact booked.passThrough id
        · rename_i payload _ _
          split
          · exact booked.passThrough id
          · split
            · exact booked.passThrough id
            · exact ((booked.capture id (nfa.pktMeta payload) payload).consumeStep env).1
  | clock env => exact (booked.toBooks.consumeStep env).1
  | write w =>
      obtain ⟨main, held⟩ := s.pipe.applyWrite_inside w
      have inside : (s.pipe.applyWrite w).inside = s.pipe.inside := by
        unfold Pipeline.inside
        rw [main, held]
      have addr : (s.pipe.applyWrite w).nextAddr = s.pipe.nextAddr := by cases w <;> rfl
      refine ⟨⟨booked.inv.applyWrite w, ?_, ?_, ?_, booked.droppers⟩, main.trans booked.main⟩
      · show s.PacketBooks (s.pipe.applyWrite w).inside
        rw [inside]
        exact booked.packets
      · show s.VerdictBooks (s.pipe.applyWrite w).inside
        rw [inside]
        exact booked.verdicts
      · refine ⟨booked.distinct.1, fun pac member => ?_⟩
        show pac.addr < (s.pipe.applyWrite w).nextAddr
        rw [addr]
        exact booked.distinct.2 pac member

theorem Fresh.booked {s : Linux} (fresh : s.Fresh) : s.Booked := by
  have sound : s.pipe.mods.Sound := by
    intro m
    obtain ⟨nodes, size⟩ := fresh.buffers m
    refine ⟨⟨?_, fun _ => nodes⟩, ?_⟩
    · rw [nodes, size]
      rfl
    · rw [nodes]
      exact Nat.zero_le _
  have held : s.pipe.mods.held = [] := by
    unfold Statics.held
    rw [List.flatMap_eq_nil_iff]
    exact fun m _ => (fresh.buffers m).1
  have inside : s.pipe.inside = [] := by
    unfold Pipeline.inside
    rw [fresh.main, held]
    rfl
  refine ⟨⟨⟨sound, fun m on => ?_, fresh.alive⟩, ?_, ?_, ?_, ?_⟩, fresh.main⟩
  · rw [fresh.stopped m] at on
    exact absurd on Bool.false_ne_true
  · unfold PacketBooks freedNodes
    rw [inside, fresh.captured, fresh.clones, fresh.sent, fresh.freed]
    exact Balanced.empty
  · unfold VerdictBooks
    rw [inside, fresh.given, fresh.answers]
    exact Balanced.empty
  · unfold Distinct
    rw [fresh.captured, fresh.clones]
    exact ⟨List.nodup_nil, by simp⟩
  · rw [fresh.freed]
    simp

/-- **The books are right after every event of a session.** -/
theorem booked_run {s : Linux} (fresh : s.Fresh) (es : List Event) :
    (machine.run s es).Booked := by
  have once : ∀ s e, s.Booked → (machine.step s e).Booked := fun _ e booked => booked_step booked e
  exact machine.run_invariant' once es s fresh.booked

end Linux

end Clumsy.Capture
