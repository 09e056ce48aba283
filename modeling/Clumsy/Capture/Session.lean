/-
# Capture.Session -- verdicts, conservation and the outstanding bound

The three results about whole NFQUEUE sessions, each read off the books:

* `shutdown_answers_iff`: when the clock loop returns, every id was answered
  exactly once, if and only if the shutdown loop met a state it can close;
* `conservation`: captured packets and clones are sent, freed or held;
* `outstanding_lt`: unanswered ids stay below the kernel's queue length.
-/
import Clumsy.Capture.Accounting

namespace Clumsy.Capture

open Clumsy.Theory
open Clumsy.Packet
open Clumsy.Modules

set_option autoImplicit false

namespace Linux

/-! ## Every id exactly once -/

/-- Each id handed to `nfqCallback` has been given exactly one verdict. -/
def AnsweredOnce (s : Linux) : Prop :=
  ∀ id ∈ s.given, (s.answers.map Answer.packetId).count id = 1

instance (s : Linux) : Decidable s.AnsweredOnce :=
  List.decidableBAll _ _

/-- A state the shutdown loop can close: the modules whose flag is set have their
sentinels linked, and no module whose flag is clear holds a packet that still
owes a verdict. -/
structure Stoppable (s : Linux) : Prop where
  closable : s.pipe.Closable
  spared   : ∀ m, s.pipe.enabled m = false → owed (s.pipe.mods.buffer m).nodes = []

/-- The id an event hands to the callback. -/
def Event.given : Event → List UInt32
  | .packet _ _ nfa => nfa.packetId.toList
  | _ => []

theorem sendAll_given (env : Nat → UInt32 × SendTo) (s : Linux) :
    (s.sendAllListPackets env).given = s.given :=
  (sendEach_sends s.pipe.main.reverse env { s with pipe := { s.pipe with main := [] } }).given

theorem consumeStep_given (env : LinuxEnv) (s : Linux) :
    (s.divertConsumeStep env).given = s.given := by
  unfold divertConsumeStep
  simp only
  split
  · rfl
  · rw [sendAll_given]
    rfl

theorem shutdown_given (env : Nat → UInt32 × SendTo) (s : Linux) :
    (s.shutdown env).given = s.given := by
  unfold shutdown
  simp only
  split
  · rfl
  · rw [sendAll_given]
    rfl

theorem step_given (s : Linux) (e : Event) : (s.step e).given = s.given ++ e.given := by
  cases e with
  | packet env alloc nfa =>
      show (s.nfqCallback env alloc nfa).given = s.given ++ nfa.packetId.toList
      unfold nfqCallback
      split
      · rename_i none
        rw [none]
        exact (List.append_nil _).symm
      · rename_i id some
        rw [some]
        simp only
        split
        · rfl
        · rfl
        · split
          · rfl
          · split
            · rfl
            · exact consumeStep_given _ _
  | clock env => exact (consumeStep_given env s).trans (List.append_nil _).symm
  | write w => exact (List.append_nil _).symm

/-- Along an admissible run the ids are distinct, and none is 0. -/
theorem given_distinct {s : Linux} (fresh : s.Fresh) {es : List Event}
    (admissible : machine.Admissible s es) :
    (machine.run s es).given.Nodup ∧ 0 ∉ (machine.run s es).given := by
  have once : ∀ s e, s.given.Nodup ∧ 0 ∉ s.given → machine.admits s e →
      (machine.step s e).given.Nodup ∧ 0 ∉ (machine.step s e).given := by
    intro s e ⟨distinct, nonzero⟩ admits
    show (s.step e).given.Nodup ∧ 0 ∉ (s.step e).given
    rw [step_given]
    cases e with
    | packet env alloc nfa =>
        cases id : nfa.packetId with
        | none => simpa [Event.given, id] using ⟨distinct, nonzero⟩
        | some id' =>
            obtain ⟨positive, unused⟩ := admits id' id
            simp only [Event.given, id, Option.toList_some]
            refine ⟨?_, ?_⟩
            · rw [List.nodup_append']
              exact ⟨distinct, List.nodup_singleton _, by simpa using unused⟩
            · simpa using ⟨nonzero, Ne.symm positive⟩
    | clock env => simpa [Event.given] using ⟨distinct, nonzero⟩
    | write w => simpa [Event.given] using ⟨distinct, nonzero⟩
  have start : s.given.Nodup ∧ 0 ∉ s.given := by
    rw [fresh.given]
    exact ⟨List.nodup_nil, List.not_mem_nil⟩
  exact machine.run_invariant once es s start admissible

/-- What a shutdown of closable modules leaves. -/
theorem shutdown_books {s : Linux} (booked : s.Booked) (closable : s.pipe.Closable)
    (env : Nat → UInt32 × SendTo) :
    (s.shutdown env).Booked ∧
      ∀ m, ((s.shutdown env).pipe.mods.buffer m).nodes =
        if s.pipe.enabled m then [] else (s.pipe.mods.buffer m).nodes := by
  obtain ⟨inv, moves, buffers⟩ := Pipeline.closeModules_spec booked.inv closable
  have alive := inv.alive
  obtain ⟨sent, mods, -, -, -⟩ := (booked.toBooks.record inv moves).sendAll env
  unfold shutdown
  simp only
  rw [if_neg (by simp [alive])]
  refine ⟨sent, fun m => ?_⟩
  rw [mods]
  exact buffers m

theorem owed_held_eq_nil (mods : Statics LinuxPacketMeta) :
    owed mods.held = [] ↔ ∀ m, owed (mods.buffer m).nodes = [] := by
  have each : owed mods.held = modules.flatMap fun m => owed (mods.buffer m).nodes := by
    unfold owed Statics.held
    rw [List.filterMap_flatMap]
  rw [each, List.flatMap_eq_nil_iff]
  exact ⟨fun all m => all m (mem_modules m), fun all m _ => all m⟩

/-- With distinct ids and the books right, each was answered once exactly if no
buffered packet owes a verdict. -/
theorem answeredOnce_iff {s : Linux} (booked : s.Booked) (distinct : s.given.Nodup)
    (nonzero : 0 ∉ s.given) : s.AnsweredOnce ↔ owed s.pipe.mods.held = [] := by
  have books := booked.verdicts
  have all : s.given.filter (· != 0) = s.given := by
    rw [List.filter_eq_self]
    intro id member
    exact bne_iff_ne.2 (fun zero => nonzero (zero ▸ member))
  have inside : s.pipe.inside = s.pipe.mods.held := by
    unfold Pipeline.inside
    rw [booked.main, List.nil_append]
  unfold VerdictBooks at books
  rw [all, inside] at books
  have once : ∀ id ∈ s.given,
      (s.answers.map Answer.packetId).count id = 1 ↔ id ∉ owed s.pipe.mods.held := by
    intro id member
    have positive : (id != 0) = true := bne_iff_ne.2 (fun zero => nonzero (zero ▸ member))
    rw [← books.settled_once_iff distinct member, List.count_filter (p := (· != 0)) positive]
  constructor
  · intro answered
    rw [List.eq_nil_iff_forall_not_mem]
    intro id pending
    have member : id ∈ s.given := books.mem_iff.2 (List.mem_append_right _ pending)
    exact (once id member).1 (answered id member) pending
  · intro settled id member
    rw [once id member, settled]
    exact List.not_mem_nil

/-- **When `divertClockLoop` returns, every id of the session has exactly one
verdict if and only if the state it stopped in was `Stoppable`.**  The loop looks
at the enabled flags only, so a module switched on since the last step may kill
it, and one switched off since may keep its packets. -/
theorem shutdown_answers_iff {s : Linux} (fresh : s.Fresh) (es : List Event)
    (admissible : machine.Admissible s es) (env : Nat → UInt32 × SendTo) :
    (((machine.run s es).shutdown env).pipe.crashed = false ∧
        ((machine.run s es).shutdown env).AnsweredOnce) ↔ (machine.run s es).Stoppable := by
  have booked := booked_run fresh es
  obtain ⟨distinct, nonzero⟩ := given_distinct fresh admissible
  generalize machine.run s es = t at booked distinct nonzero ⊢
  by_cases closable : t.pipe.Closable
  · obtain ⟨closed, buffers⟩ := shutdown_books booked closable env
    have alive := closed.inv.alive
    have given := shutdown_given env t
    rw [answeredOnce_iff closed (by rw [given]; exact distinct) (by rw [given]; exact nonzero),
      owed_held_eq_nil]
    constructor
    · rintro ⟨-, settled⟩
      refine ⟨closable, fun m off => ?_⟩
      have here := settled m
      rw [buffers, off] at here
      exact here
    · intro stoppable
      refine ⟨alive, fun m => ?_⟩
      rw [buffers]
      cases on : t.pipe.enabled m with
      | true => rfl
      | false => exact stoppable.spared m on
  · have dies : (t.shutdown env).pipe.crashed = true := by
      have crashes := Pipeline.closeModules_crashes booked.inv.alive closable
      unfold shutdown
      simp only
      rw [if_pos crashes]
      exact crashes
    constructor
    · rintro ⟨returns, -⟩
      rw [dies] at returns
      exact absurd returns (by decide)
    · intro stoppable
      exact absurd stoppable.closable closable

/-- A clock that stands still, coins that all come up 0, memory and sockets that
never fail. -/
def stillEnv : LinuxEnv where
  step :=
    { proc := fun _ =>
        { ticks := fun _ => 0
          draws := { rand := fun _ => 0, alloc := fun _ => true }
          libm := { boxMuller := fun _ _ => 0, invSqrt := fun _ => 1, logRatio := fun _ _ => 0 } }
      startTick := fun _ => 0 }
  send := fun _ => (0, .sent)

/-- An outbound packet with NFQUEUE id 1. -/
def firstPacket : NfqData where
  packetId := some 1
  payload := some [0x45, 0x00, 0x00, 0x14]
  indev := 0
  outdev := 2
  physindev := 0
  physoutdev := 0

/-- A session with lag switched on. -/
def lagSession : Linux := initial (· == .lag) none

/-- Lag picks the packet up, and is switched off before the session stops. -/
def strandingRun : List Event := [.packet stillEnv true firstPacket, .write (.enable .lag false)]

theorem strandingRun_admissible : machine.Admissible lagSession strandingRun := by
  refine ⟨fun id given => ?_, trivial, trivial⟩
  obtain rfl := Option.some.inj given
  exact ⟨by decide, List.not_mem_nil⟩

/-- The packet of `strandingRun` is never answered. -/
theorem shutdown_strands_packet :
    ¬∀ (s : Linux) (es : List Event) (env : Nat → UInt32 × SendTo), s.Fresh →
      machine.Admissible s es →
        ((machine.run s es).shutdown env).pipe.crashed = false ∧
          ((machine.run s es).shutdown env).AnsweredOnce := by
  intro claim
  have answered := claim lagSession strandingRun stillEnv.send (initial_fresh _ _)
    strandingRun_admissible
  exact absurd answered.2 (by decide)

/-- The characterisation at that run. -/
theorem shutdown_answers_iff_stranding :
    machine.Admissible lagSession strandingRun ∧
      ((((machine.run lagSession strandingRun).shutdown stillEnv.send).pipe.crashed = false ∧
        ((machine.run lagSession strandingRun).shutdown stillEnv.send).AnsweredOnce) ↔
          (machine.run lagSession strandingRun).Stoppable) :=
  ⟨strandingRun_admissible,
    shutdown_answers_iff (initial_fresh _ _) strandingRun strandingRun_admissible stillEnv.send⟩

/-! ## Conservation -/

/-- Nothing is lost: the main list is empty, the counters are right, and what was
captured or cloned is the disjoint union of what was sent, freed or is held. -/
structure Conserved (s : Linux) : Prop where
  main     : s.pipe.main = []
  counters : ∀ m, (s.pipe.mods.buffer m).bufSize = (s.pipe.mods.buffer m).nodes.length
  distinct : ((s.captured ++ s.clones).map PacketNode.addr).Nodup
  union    : ((s.captured ++ s.clones).map PacketNode.tag).Perm
    ((s.sent ++ s.freedNodes ++ s.pipe.mods.held).map PacketNode.tag)
  droppers : ∀ entry ∈ s.freed,
    entry.1 ∈ [ModuleId.drop, .burstloss, .blackout, .throttle, .bandwidth]

/-- One call of a module neither changes a byte nor a length, unless the module
is tamper, corrupt or reset; what it frees, it frees as one of the five dropping
modules, and throttle only in its drop mode. -/
structure CallsConserve (m : ModuleId) : Prop where
  process  : m ∉ [ModuleId.tamper, .corrupt, .reset] →
    ∀ (env : ProcEnv) (fresh : Nat) (main : List LinuxNode) (mods : Statics LinuxPacketMeta),
      let out := Modules.process env fresh main mods m
      ((out.main ++ out.state.held ++ out.freed).map PacketNode.core).Perm
        ((main ++ mods.held ++ out.clones).map PacketNode.core)
  clones   : ∀ (env : ProcEnv) (fresh : Nat) (main : List LinuxNode)
      (mods : Statics LinuxPacketMeta), ∀ copy ∈ (Modules.process env fresh main mods m).clones,
      m = .dup ∧ ∃ src ∈ main, copy.packet = src.packet
  close    : ∀ (main : List LinuxNode) (mods : Statics LinuxPacketMeta),
      ((closeDown main mods m).main ++ (closeDown main mods m).state.held).Perm (main ++ mods.held)
  throttle : ∀ (env : ProcEnv) (fresh : Nat) (main : List LinuxNode)
      (mods : Statics LinuxPacketMeta), (Modules.process env fresh main mods m).freed ≠ [] →
      m = .throttle → mods.throttle.dropThrottled = true

theorem mem_droppers {m : ModuleId} (drops : m.drops = true) :
    m ∈ [ModuleId.drop, .burstloss, .blackout, .throttle, .bandwidth] := by
  cases m <;> first | exact absurd drops (by decide) | decide

theorem process_clones_dup (env : ProcEnv) (fresh : Nat) (main : List LinuxNode)
    (mods : Statics LinuxPacketMeta) (m : ModuleId)
    (cloned : (Modules.process env fresh main mods m).clones ≠ []) : m = .dup := by
  cases m with
  | dup => rfl
  | blackout => exact absurd (blackoutProcess_clones env main mods.blackout) cloned
  | throttle => exact absurd (throttleProcess_clones env main mods.throttle) cloned
  | _ => exact absurd rfl cloned

theorem callsConserve (m : ModuleId) : CallsConserve m where
  process others env fresh main mods := by
    refine process_cores env fresh main mods m ?_
    cases m <;> first | rfl | exact absurd (by decide) others
  clones env fresh main mods copy member := by
    refine ⟨process_clones_dup env fresh main mods m (List.ne_nil_of_mem member), ?_⟩
    obtain ⟨src, source, clone⟩ := (process_clones env fresh main mods m).2 copy member
    exact ⟨src, source, clone.1⟩
  close main mods := closeDown_perm main mods m
  throttle env fresh main mods freed := (process_freed env fresh main mods m freed).2

/-- **Packet conservation, after every event of every session**, and what each
module call contributes to it. -/
theorem conservation {s : Linux} (fresh : s.Fresh) (es : List Event) :
    (machine.run s es).Conserved ∧ ∀ m, CallsConserve m := by
  have booked := booked_run fresh es
  refine ⟨?_, callsConserve⟩
  have packets := booked.packets
  have inside : (machine.run s es).pipe.inside = (machine.run s es).pipe.mods.held := by
    unfold Pipeline.inside
    rw [booked.main, List.nil_append]
  unfold PacketBooks at packets
  rw [inside, Theory.Balanced, ← List.map_append] at packets
  exact
    { main := booked.main
      counters := fun m => (booked.inv.sound m).1.1
      distinct := booked.distinct.1
      union := packets
      droppers := fun entry member => mem_droppers (booked.droppers entry member) }

theorem conservation_stranding :
    (machine.run lagSession strandingRun).Conserved ∧ ∀ m, CallsConserve m :=
  conservation (initial_fresh _ _) strandingRun

/-! ## The outstanding bound -/

def NFQ_QUEUE_MAXLEN : Nat := 8192

/-- The ids handed to the callback that have no verdict yet. -/
def outstanding (s : Linux) : Finset UInt32 :=
  s.given.toFinset \ (s.answers.map Answer.packetId).toFinset

/-- The five buffers are within their own caps. -/
structure WithinCaps (mods : Statics LinuxPacketMeta) : Prop where
  lag       : mods.lag.buf.nodes.length < 2000
  jitter    : mods.jitter.buf.nodes.length < 2000
  throttle  : mods.throttle.buf.nodes.length < 1000
  ood       : mods.ood.buf.nodes.length < 50
  bandwidth : mods.bandwidth.buf.nodes.length ≤ 2000

/-- An outstanding id is 0 or belongs to a packet in a buffer. -/
theorem outstanding_subset {s : Linux} (booked : s.Booked) :
    s.outstanding ⊆ insert 0 (owed s.pipe.mods.held).toFinset := by
  have books := booked.verdicts
  have inside : s.pipe.inside = s.pipe.mods.held := by
    unfold Pipeline.inside
    rw [booked.main, List.nil_append]
  unfold VerdictBooks at books
  rw [inside] at books
  intro id open_
  unfold outstanding at open_
  rw [Finset.mem_sdiff, List.mem_toFinset, List.mem_toFinset] at open_
  rw [Finset.mem_insert]
  by_cases zero : id = 0
  · exact Or.inl zero
  · refine Or.inr (books.unsettled_subset ?_)
    rw [Finset.mem_sdiff, List.mem_toFinset, List.mem_toFinset, List.mem_filter, List.mem_filter]
    exact ⟨⟨open_.1, bne_iff_ne.2 zero⟩, fun answered => open_.2 answered.1⟩

/-- **After every event, fewer ids are outstanding than the kernel queues**,
because all buffers are within their caps at once. -/
theorem outstanding_lt {s : Linux} (fresh : s.Fresh) (es : List Event) :
    (machine.run s es).outstanding.card < NFQ_QUEUE_MAXLEN ∧
      WithinCaps (machine.run s es).pipe.mods := by
  have booked := booked_run fresh es
  have sound := booked.inv.sound
  refine ⟨?_, ?_⟩
  · have all := sound.held_length
    have owing := owed_length_le (machine.run s es).pipe.mods.held
    have ids := List.toFinset_card_le (owed (machine.run s es).pipe.mods.held)
    have inserted := Finset.card_insert_le 0 (owed (machine.run s es).pipe.mods.held).toFinset
    have bound := Finset.card_le_card (outstanding_subset booked)
    unfold NFQ_QUEUE_MAXLEN
    omega
  · exact
      { lag := Nat.lt_succ_of_le (sound .lag).2
        jitter := Nat.lt_succ_of_le (sound .jitter).2
        throttle := Nat.lt_succ_of_le (sound .throttle).2
        ood := Nat.lt_succ_of_le (sound .ood).2
        bandwidth := (sound .bandwidth).2 }

theorem outstanding_lt_stranding :
    (machine.run lagSession strandingRun).outstanding.card < NFQ_QUEUE_MAXLEN ∧
      WithinCaps (machine.run lagSession strandingRun).pipe.mods :=
  outstanding_lt (initial_fresh _ _) strandingRun

end Linux

end Clumsy.Capture
