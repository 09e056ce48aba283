/-
# Capture.LagOrder -- lag lets packets go in the order they came

Lag releases packets in three ways: when they are overdue, when its buffer is full, and
when it is switched off.  The first two put them in front of the main list, the last one
behind it, and the main list is sent from its end.  That this is first in, first out rests
on the main list being empty once lag has picked packets up: every captured packet gets
its own step, and after a call the buffer has room (`lagProcess_cap`).

`lag_keeps_order`: over every run of a session in which lag handles both directions while
it is on, the packets that left lag, then those it holds, are the captured packets in
order.
-/
import Clumsy.Capture.Session

namespace Clumsy.Capture

open Clumsy.Theory
open Clumsy.Packet
open Clumsy.Modules
open Clumsy.Filter

set_option autoImplicit false

/-! ## One call of lag -/

/-- **First in, first out**: what a call leaves on the main list, in sending order, and
what it holds are what was held and then what was on the main list. -/
theorem lagProcess_fifo {β : Type} (env : ProcEnv) (main : List (PacketNode β)) {lag : Lag β}
    (counted : lag.buf.Counted) (both : lag.lagInbound = true ∧ lag.lagOutbound = true)
    (fits : lag.buf.nodes.length + main.length ≤ 2000) :
    ((lagProcess env main lag).main.reverse ++
        (lagProcess env main lag).state.buf.nodes.reverse).map PacketNode.core =
      (lag.buf.nodes.reverse ++ main.reverse).map PacketNode.core := by
  have all : ∀ pac ∈ main, lag.handles pac = true := by
    intro pac _
    cases out : pac.pktMeta.outbound <;> simp [Lag.handles, checkDirection, both.1, both.2, out]
  have size := counted.1
  set picked := (lag.pick (env.ticks 0) main).2.1 with hPicked
  set sent := (lag.send (env.ticks 0) picked).2.1 with hSent
  have pick : (picked.buf.nodes.reverse ++ picked.main.reverse).map PacketNode.core =
      (lag.buf.nodes.reverse ++ main.reverse).map PacketNode.core :=
    pickUp_fifo _ _ _ () { main, buf := lag.buf } all fun _ _ => rfl
  have empty : picked.main = [] :=
    pickUp_main_nil _ _ _ () { main, buf := lag.buf } all
      (by simp only [Lag.KEEP_AT_MOST]; omega)
  rw [empty, List.reverse_nil, List.append_nil] at pick
  rw [← pick]
  have overdue : sent.main.reverse ++ sent.buf.nodes.reverse = picked.buf.nodes.reverse := by
    have split := releaseOldest_split
      (fun _ pac => if lag.overdue (env.ticks 0) pac then some () else none) () picked
    have queue : sent.main = _ ++ picked.main := releaseOldest_main _ () picked
    rw [queue, empty, List.append_nil, ← split, List.reverse_append]
    rfl
  have forced : (flushWhenFull Lag.KEEP_AT_MOST Lag.FLUSH_WHEN_FULL sent).1.main.reverse ++
      (flushWhenFull Lag.KEEP_AT_MOST Lag.FLUSH_WHEN_FULL sent).1.buf.nodes.reverse =
        sent.main.reverse ++ sent.buf.nodes.reverse := by
    unfold flushWhenFull
    split
    · rw [releaseOldest_main, ← releaseOldest_split countdown Lag.FLUSH_WHEN_FULL sent]
      simp only [List.reverse_append, List.append_assoc]
    · rfl
  rw [← overdue, ← forced]
  rfl

/-! ## One turn of lag -/

namespace Pipeline

variable {β : Type} [CaptureBackend β]

/-- The packets lag holds, oldest first. -/
def lagQueue (p : Pipeline β) : List (PacketNode β) := (p.mods.buffer .lag).nodes.reverse

/-- Lag handles both directions while it is on. -/
def LagBothWays (p : Pipeline β) : Prop :=
  p.enabled .lag = true → p.mods.lag.lagInbound = true ∧ p.mods.lag.lagOutbound = true

/-- While lag is not started it holds nothing. -/
def LagIdle (p : Pipeline β) : Prop :=
  p.lastEnabled .lag = false → (p.mods.buffer .lag).nodes = []

theorem turn_lag (env : StepEnv) {p : Pipeline β} (inv : p.Inv) (both : p.LagBothWays)
    (single : p.main.length ≤ 1) (idle : p.LagIdle) :
    ((p.turn env .lag).1.main.reverse ++ (p.turn env .lag).1.lagQueue).map PacketNode.core =
        (p.lagQueue ++ p.main.reverse).map PacketNode.core ∧
      (p.turn env .lag).1.LagIdle := by
  have alive := inv.alive
  have below : (p.mods.buffer .lag).nodes.length ≤ 1999 := (inv.sound .lag).2
  unfold turn
  rw [if_neg (by simp [alive])]
  cases on : p.enabled .lag with
  | true =>
      rw [if_pos rfl]
      obtain ⟨started, last, -⟩ := startModule_spec env .lag inv
      have same : ((p.startModule env .lag).1.mods.buffer .lag).nodes =
          (p.mods.buffer .lag).nodes := by
        unfold startModule
        split
        · rfl
        · exact startUp_nodes inv.sound (env.startTick .lag) .lag
      have queue := startModule_main env .lag p
      have ways : (p.startModule env .lag).1.mods.lag.lagInbound = true ∧
          (p.startModule env .lag).1.mods.lag.lagOutbound = true := by
        unfold startModule
        split <;> exact both on
      have same : (p.startModule env .lag).1.mods.lag.buf.nodes = (p.mods.buffer .lag).nodes := same
      have fifo := lagProcess_fifo (env.proc .lag) (p.startModule env .lag).1.main
        (started.sound .lag).1 ways (by rw [same, queue]; omega)
      rw [same, queue] at fifo
      refine ⟨?_, fun off => ?_⟩
      · rw [← queue] at fifo ⊢
        exact fifo
      · have off : (p.startModule env .lag).1.lastEnabled .lag = false := off
        exact absurd (off.symm.trans last) Bool.false_ne_true
  | false =>
      rw [if_neg Bool.false_ne_true]
      cases last : p.lastEnabled .lag with
      | true =>
          rw [if_pos rfl]
          have linked := inv.linked .lag last
          have emptied := (closeModule_spec inv linked).2.2.2.1
          refine ⟨?_, fun _ => emptied⟩
          have queue : (p.closeModule .lag).1.main = p.main ++ (p.mods.buffer .lag).nodes := by
            unfold closeModule
            rw [if_pos linked]
            show (flushBehind { main := p.main, buf := p.mods.lag.buf }).main = _
            rw [flushBehind_eq]
            rfl
          show ((p.closeModule .lag).1.main.reverse ++
            ((p.closeModule .lag).1.mods.buffer .lag).nodes.reverse).map _ = _
          rw [emptied, queue, List.reverse_append, List.reverse_nil, List.append_nil]
          rfl
      | false =>
          have nothing := idle last
          refine ⟨?_, idle⟩
          show (p.main.reverse ++ (p.mods.buffer .lag).nodes.reverse).map _ =
            ((p.mods.buffer .lag).nodes.reverse ++ p.main.reverse).map _
          rw [nothing, List.reverse_nil, List.append_nil, List.nil_append]

/-- The other modules leave lag's queue alone. -/
theorem runModules_lag (env : StepEnv) {p : Pipeline β} (inv : p.Inv) :
    (p.runModules env).1.mods.buffer .lag = (p.turn env .lag).1.mods.buffer .lag ∧
      (p.runModules env).1.lastEnabled .lag = (p.turn env .lag).1.lastEnabled .lag := by
  have others : ModuleId.lag ∉ modules.tail := by decide
  have rest : (p.runModules env).1 = (visit (turn env) modules.tail (p.turn env .lag).1).1 := rfl
  rw [rest]
  exact visit_frame env modules.tail others (turn_spec env .lag p inv).1

end Pipeline

/-! ## Sessions -/

namespace Linux

/-- The state in which `nfqCallback` hands a packet to the modules; none if it lets the
packet through. -/
def admitted (alloc : Bool) (nfa : NfqData) (s : Linux) : Option Linux :=
  match nfa.packetId, nfa.payload with
  | some id, some (b :: rest) =>
      let payload := b :: rest
      if (s.filterProg.any fun prog => !filterMatch prog (nfa.pktMeta payload) payload) || !alloc then
        none
      else some ({ s with given := s.given ++ [id] }.capture id (nfa.pktMeta payload) payload)
  | _, _ => none

/-- The state an event runs `divertConsumeStep` in, if it does. -/
def consumes (s : Linux) : Event → Option (LinuxEnv × Linux)
  | .packet env alloc nfa => (s.admitted alloc nfa).map fun captured => (env, captured)
  | .clock env => some (env, s)
  | .write _ => none

/-- The packets that leave lag in an event: what is on the main list once lag has run, in
the order `sendAllListPackets` takes them. -/
def leaving (s : Linux) (e : Event) : List LinuxNode :=
  match s.consumes e with
  | some (env, start) => (start.pipe.turn env.step .lag).1.main.reverse
  | none => []

/-- The packets captured in an event. -/
def arriving (s : Linux) (e : Event) : List LinuxNode :=
  match s.consumes e with
  | some (_, start) => start.pipe.main.reverse
  | none => []

/-- While lag is on it handles both directions, in every step. -/
def orderly : Machine Linux Event where
  step := step
  admits
    | _, .write _ => True
    | s, _ => s.pipe.LagBothWays

/-- What the order of lag rests on. -/
structure Ordered (s : Linux) : Prop extends Booked s where
  idle : s.pipe.LagIdle

theorem admitted_spec {alloc : Bool} {nfa : NfqData} {s start : Linux}
    (admits : s.admitted alloc nfa = some start) :
    ∃ id payload, start =
      { s with given := s.given ++ [id] }.capture id (nfa.pktMeta payload) payload := by
  unfold admitted at admits
  split at admits
  · simp only at admits
    split at admits
    · cases admits
    · exact ⟨_, _, (Option.some.inj admits).symm⟩
  · cases admits

/-- The callback runs a step of the modules on the packet, or lets it through. -/
theorem nfqCallback_cases (env : LinuxEnv) (alloc : Bool) (nfa : NfqData) (s : Linux) :
    (∃ start, s.admitted alloc nfa = some start ∧
        s.nfqCallback env alloc nfa = start.divertConsumeStep env) ∨
      (s.admitted alloc nfa = none ∧ (s.nfqCallback env alloc nfa).captured = s.captured ∧
        (s.nfqCallback env alloc nfa).pipe = s.pipe) := by
  unfold nfqCallback admitted
  cases nfa.packetId with
  | none => exact Or.inr ⟨rfl, rfl, rfl⟩
  | some id =>
      cases nfa.payload with
      | none => exact Or.inr ⟨rfl, rfl, rfl⟩
      | some bytes =>
          cases bytes with
          | nil => exact Or.inr ⟨rfl, rfl, rfl⟩
          | cons b rest =>
              simp only
              cases s.filterProg.any fun prog =>
                  !filterMatch prog (nfa.pktMeta (b :: rest)) (b :: rest) with
              | true => exact Or.inr ⟨rfl, rfl, rfl⟩
              | false =>
                  cases alloc with
                  | false => exact Or.inr ⟨rfl, rfl, rfl⟩
                  | true => exact Or.inl ⟨_, rfl, rfl⟩

/-- A captured packet is the only one on the main list when its step begins. -/
theorem consumes_spec {s start : Linux} {env : LinuxEnv} (booked : s.Booked) {e : Event}
    (consumes : s.consumes e = some (env, start)) :
    start.Books ∧ start.pipe.mods = s.pipe.mods ∧ start.pipe.lastEnabled = s.pipe.lastEnabled ∧
      start.pipe.enabled = s.pipe.enabled ∧ start.pipe.main.length ≤ 1 ∧
      start.captured = s.captured ++ start.pipe.main.reverse := by
  cases e with
  | write w => cases consumes
  | clock env' =>
      cases consumes
      refine ⟨booked.toBooks, rfl, rfl, rfl, ?_, ?_⟩ <;> simp [booked.main]
  | packet env' alloc nfa =>
      obtain ⟨captured, admits, same⟩ := Option.map_eq_some_iff.1 consumes
      obtain ⟨rfl, rfl⟩ := Prod.mk.inj same
      obtain ⟨id, payload, rfl⟩ := admitted_spec admits
      refine ⟨booked.capture id _ payload, rfl, rfl, rfl, ?_, ?_⟩ <;>
        simp [capture, Pipeline.appendNode, booked.main]

/-- An event that consumes is a step of the loop. -/
theorem step_of_consumes {s start : Linux} {env : LinuxEnv} {e : Event}
    (consumes : s.consumes e = some (env, start)) : s.step e = start.divertConsumeStep env := by
  cases e with
  | write w => cases consumes
  | clock _ =>
      cases consumes
      rfl
  | packet env' alloc nfa =>
      obtain ⟨start', admits', same⟩ := Option.map_eq_some_iff.1 consumes
      obtain ⟨rfl, rfl⟩ := Prod.mk.inj same
      rcases nfqCallback_cases env' alloc nfa s with ⟨start, admits, run⟩ | ⟨none, -, -⟩
      · obtain rfl := Option.some.inj (admits'.symm.trans admits)
        exact run
      · cases none.symm.trans admits'

/-- Any other event is a write, or a packet that is let through. -/
theorem step_of_not_consumes {s : Linux} {e : Event} (idle : s.consumes e = none) :
    (∃ w, e = .write w) ∨ ((s.step e).pipe = s.pipe ∧ (s.step e).captured = s.captured) := by
  cases e with
  | write w => exact .inl ⟨w, rfl⟩
  | clock _ => cases idle
  | packet env alloc nfa =>
      rcases nfqCallback_cases env alloc nfa s with ⟨start, admits, -⟩ | ⟨-, captured, pipe⟩
      · simp [Linux.consumes, admits] at idle
      · exact .inr ⟨pipe, captured⟩

/-- A step of the modules, as lag sees it. -/
theorem consumeStep_lag {start : Linux} (books : start.Books) (env : LinuxEnv)
    (both : start.pipe.LagBothWays) (single : start.pipe.main.length ≤ 1)
    (idle : start.pipe.LagIdle) :
    ((start.pipe.turn env.step .lag).1.main.reverse ++
          (start.divertConsumeStep env).pipe.lagQueue).map PacketNode.core =
        (start.pipe.lagQueue ++ start.pipe.main.reverse).map PacketNode.core ∧
      (start.divertConsumeStep env).pipe.LagIdle ∧
      (start.divertConsumeStep env).captured = start.captured := by
  obtain ⟨inv, moves⟩ := Pipeline.runModules_spec env.step books.inv
  have recorded := books.record inv moves
  obtain ⟨-, mods, -, last, -⟩ := recorded.sendAll env.send
  obtain ⟨buffer, started⟩ := Pipeline.runModules_lag env.step books.inv
  obtain ⟨fifo, idle'⟩ := Pipeline.turn_lag env.step books.inv both single idle
  have step := books.consumeStep_eq env
  have queue : (start.divertConsumeStep env).pipe.mods.buffer .lag =
      (start.pipe.turn env.step .lag).1.mods.buffer .lag := by
    rw [step, mods]
    exact buffer
  have mark : (start.divertConsumeStep env).pipe.lastEnabled .lag =
      (start.pipe.turn env.step .lag).1.lastEnabled .lag := by
    rw [step, last]
    exact started
  refine ⟨?_, fun off => ?_, ?_⟩
  · rw [Pipeline.lagQueue, queue]
    exact fifo
  · rw [queue]
    exact idle' (mark ▸ off)
  · rw [step]
    exact (sendEach_sends _ _ _).captured

/-- **One event** takes from the front of lag's queue and adds at its end. -/
theorem step_lag {s : Linux} (ordered : s.Ordered) (e : Event) (admits : orderly.admits s e) :
    (s.step e).Ordered ∧
      ((s.leaving e).map PacketNode.core ++ (s.step e).pipe.lagQueue.map PacketNode.core =
        s.pipe.lagQueue.map PacketNode.core ++ (s.arriving e).map PacketNode.core) ∧
      (s.step e).captured = s.captured ++ s.arriving e := by
  have booked := booked_step ordered.toBooked e
  cases consumes : s.consumes e with
  | some found =>
      obtain ⟨env, start⟩ := found
      obtain ⟨books, mods, last, enabled, single, captured⟩ := consumes_spec ordered.toBooked consumes
      have both : start.pipe.LagBothWays := by
        have admits : s.pipe.LagBothWays := by
          cases e with
          | write w => cases consumes
          | clock _ | packet _ _ _ => exact admits
        unfold Pipeline.LagBothWays at admits ⊢
        rwa [mods, enabled]
      have idle : start.pipe.LagIdle := by
        have idle := ordered.idle
        unfold Pipeline.LagIdle at idle ⊢
        rwa [mods, last]
      have queue : start.pipe.lagQueue = s.pipe.lagQueue := by
        unfold Pipeline.lagQueue
        rw [mods]
      have step := step_of_consumes consumes
      obtain ⟨fifo, idle', history⟩ := consumeStep_lag books env both single idle
      simp only [leaving, arriving, consumes]
      rw [step] at booked ⊢
      refine ⟨⟨booked, idle'⟩, ?_, history.trans captured⟩
      rw [← List.map_append, ← List.map_append, ← queue]
      exact fifo
  | none =>
      simp only [leaving, arriving, consumes, List.map_nil, List.nil_append, List.append_nil]
      rcases step_of_not_consumes consumes with ⟨w, rfl⟩ | ⟨pipe, captured⟩
      · have buffer : (s.pipe.applyWrite w).mods.buffer .lag = s.pipe.mods.buffer .lag := by
          cases w with
          | enable m on => rfl
          | param w => exact setParam_buffer s.pipe.enabled s.pipe.mods w .lag
        have last : (s.pipe.applyWrite w).lastEnabled = s.pipe.lastEnabled := by cases w <;> rfl
        refine ⟨⟨booked, fun off => ?_⟩, ?_, rfl⟩
        · show ((s.pipe.applyWrite w).mods.buffer .lag).nodes = []
          rw [buffer]
          exact ordered.idle (by rw [← last]; exact off)
        · show ((s.pipe.applyWrite w).mods.buffer .lag).nodes.reverse.map _ = _
          rw [buffer]
          rfl
      · refine ⟨⟨booked, ?_⟩, ?_, captured⟩
        · rw [pipe]
          exact ordered.idle
        · rw [pipe]

/-- **Lag keeps order.**  Over every run of a session: the packets that have left lag, in
the order they left it, and then the ones it holds are the packets captured, in the order
they were captured; and lag holds fewer than `KEEP_AT_MOST`. -/
theorem lag_keeps_order {s : Linux} (fresh : s.Fresh) (es : List Event)
    (admissible : orderly.Admissible s es) :
    ((orderly.outputs leaving s es).flatten ++ (orderly.run s es).pipe.lagQueue).map
        PacketNode.core = (orderly.run s es).captured.map PacketNode.core ∧
      ((orderly.run s es).pipe.mods.buffer .lag).nodes.length < 2000 := by
  have start : s.Ordered := ⟨fresh.booked, fun _ => (fresh.buffers .lag).1⟩
  have once : ∀ s e, s.Ordered → orderly.admits s e → (orderly.step s e).Ordered :=
    fun s e ordered admits => (step_lag ordered e admits).1
  have ordered := orderly.run_invariant once es s start admissible
  refine ⟨?_, ?_⟩
  · have fifo := orderly.outputs_fifo (fun s => s.pipe.lagQueue.map PacketNode.core)
      (fun s e => (s.leaving e).map PacketNode.core) (fun s e => (s.arriving e).map PacketNode.core)
      once (fun s e ordered admits => (step_lag ordered e admits).2.1) es start admissible
    have history := orderly.outputs_log Linux.captured arriving once
      (fun s e ordered admits => (step_lag ordered e admits).2.2) es start admissible
    have empty : s.pipe.lagQueue = [] := congrArg List.reverse (fresh.buffers .lag).1
    rw [orderly.outputs_comp, orderly.outputs_comp, ← List.map_flatten, ← List.map_flatten, empty,
      List.map_nil, List.nil_append, ← List.map_append] at fifo
    rw [fifo, history, fresh.captured, List.nil_append]
  · have capped := (ordered.inv.sound .lag).2
    exact Nat.lt_succ_of_le capped

/-- Another packet of the session. -/
def nextPacket (id : UInt32) : NfqData := { firstPacket with packetId := some id }

/-- Everything happens a minute later. -/
def minuteEnv : LinuxEnv :=
  { stillEnv with step := { stillEnv.step with proc := fun _ => .still 60000 } }

/-- Two packets come in and a minute passes; a third is held when lag is switched off. -/
def laggedRun : List Event :=
  [.packet stillEnv true firstPacket, .packet stillEnv true (nextPacket 2), .clock minuteEnv,
    .packet minuteEnv true (nextPacket 3), .write (.enable .lag false), .clock minuteEnv]

theorem laggedRun_admissible : orderly.Admissible lagSession laggedRun :=
  ⟨fun _ => ⟨rfl, rfl⟩, fun _ => ⟨rfl, rfl⟩, fun _ => ⟨rfl, rfl⟩, fun _ => ⟨rfl, rfl⟩,
    trivial, fun _ => ⟨rfl, rfl⟩, trivial⟩

theorem lag_keeps_order_laggedRun :
    (orderly.outputs leaving lagSession laggedRun).flatten.map (fun pac => pac.backend.packetId) =
        [1, 2, 3] ∧
      ((orderly.outputs leaving lagSession laggedRun).flatten ++
          (orderly.run lagSession laggedRun).pipe.lagQueue).map PacketNode.core =
        (orderly.run lagSession laggedRun).captured.map PacketNode.core :=
  ⟨by decide +kernel, (lag_keeps_order (initial_fresh _ _) laggedRun laggedRun_admissible).1⟩

end Linux

end Clumsy.Capture
