/-
# Modules.Overdue -- lag and jitter around the wrap of the tick

Both modules compare the 32-bit tick with an absolute instant: lag with the time a
packet came in plus `lag-time`, jitter with a release time it computed when the
packet came in.  Both mean the time a packet has waited.  The two are the same test
unless just one of the instant and the tick has wrapped since (`Clock`).

* `lagProcess_due_iff`: a call of lag releases, outside the flush of a full buffer,
  the packets that have waited longer than `lag-time` and have no younger one in
  front of them, if and only if that is so of every packet it looks at;
* `jitterProcess_due_iff`: a call of jitter releases the packets whose delay is over,
  and leaves none of them behind, if and only if it is so of every packet it holds.

The packets a call has just taken in count too: within one delay of the wrap they
are released at once.  What a call releases it puts on the main list, and what it neither
releases nor flushes it keeps (`Ends`).
-/
import Clumsy.Theory.Clock
import Clumsy.Modules.Lag
import Clumsy.Modules.Jitter

namespace Clumsy.Modules

open Clumsy.Theory
open Clumsy.Packet

set_option autoImplicit false

variable {β : Type}

/-! ## The end of a call -/

/-- What a buffer counted as `size` is flushed of, oldest first. -/
def forced (size : Int) (kept : List (PacketNode β)) : List (PacketNode β) :=
  if size ≥ 2000 then kept.take 800 else []

/-- How a call ends that released `released` and kept `kept`: the released packets stand on
the main list in front of the `passed` ones, which it did not pick up, and behind those a
full buffer is flushed of; the others are still held. -/
structure Ends (size : Int) (released kept passed main : List (PacketNode β))
    (buf : Buffer β) : Prop where
  main : main = (forced size kept).reverse ++ released.reverse ++ passed
  held : buf.nodes.reverse = kept.drop (forced size kept).length

theorem flushWhenFull_ends {sent : Queues β} {released passed : List (PacketNode β)}
    (main : sent.main = released.reverse ++ passed) :
    Ends sent.buf.bufSize released sent.buf.nodes.reverse passed
      (flushWhenFull 2000 800 sent).1.main (flushWhenFull 2000 800 sent).1.buf := by
  by_cases full : sent.buf.bufSize ≥ 2000
  · have split := congrArg List.reverse (releaseOldest_split countdown 800 sent)
    rw [List.reverse_append, List.reverse_reverse] at split
    obtain ⟨taken, left⟩ := List.append_inj
      (split.trans (List.take_append_drop 800 sent.buf.nodes.reverse).symm)
      (by rw [releaseOldest_countdown, List.length_take, List.length_reverse])
    have out : (flushWhenFull 2000 800 sent).1 = (releaseOldest countdown 800 sent).2.1 := by
      rw [flushWhenFull, if_pos full]
    have oldest : forced sent.buf.bufSize sent.buf.nodes.reverse =
        sent.buf.nodes.reverse.take 800 := if_pos full
    rw [out]
    constructor
    · rw [releaseOldest_main, oldest, taken, main, List.append_assoc]
    · rw [left, oldest, List.length_take]
      exact List.drop_eq_drop_iff.2 (by omega)
  · have out : (flushWhenFull 2000 800 sent).1 = sent := by rw [flushWhenFull, if_neg full]
    have none : forced sent.buf.bufSize sent.buf.nodes.reverse = [] := if_neg full
    rw [out]
    constructor
    · rw [none, main]
      rfl
    · rw [none]
      rfl

/-! ## Lag -/

namespace Lag

/-- The packet has waited longer than `lag-time`. -/
def due (lag : Lag β) (now : UInt32) (pac : PacketNode β) : Bool :=
  decide ((now - pac.timestamp).toNat > lag.lagTime.val)

/-- Of the end of the packet's delay and the tick, both have wrapped since it came in, or
neither has. -/
def Aligned (lag : Lag β) (now : UInt32) (pac : PacketNode β) : Prop :=
  Clock.Wraps pac.timestamp (UInt32.ofInt lag.lagTime.val) ↔ now < pac.timestamp

/-- The packets in the buffer while a call looks for overdue ones, oldest first. -/
def queue (now : UInt32) (main : List (PacketNode β)) (lag : Lag β) : List (PacketNode β) :=
  (lag.pick now main).2.1.buf.nodes.reverse

/-- What a call releases outside the flush of a full buffer, in the order of release. -/
def released (now : UInt32) (main : List (PacketNode β)) (lag : Lag β) : List (PacketNode β) :=
  (lag.send now (lag.pick now main).2.1).2.2

/-- A call releases exactly the packets that are due together with all older ones: its loop
takes them, and the call ends with them released. -/
structure ReleasesDue (env : ProcEnv) (main : List (PacketNode β)) (lag : Lag β) : Prop where
  loop : lag.released (env.ticks 0) main =
    (lag.queue (env.ticks 0) main).takeWhile (lag.due (env.ticks 0))
  ends :
    let picked := (lag.pick (env.ticks 0) main).2.1
    let due := (lag.queue (env.ticks 0) main).takeWhile (lag.due (env.ticks 0))
    Ends (picked.buf.bufSize - due.length) due
      ((lag.queue (env.ticks 0) main).dropWhile (lag.due (env.ticks 0))) picked.main
      (lagProcess env main lag).main (lagProcess env main lag).state.buf

/-- What a call can reach before the wrap gets in its way. -/
structure InStep (now : UInt32) (main : List (PacketNode β)) (lag : Lag β) : Prop where
  /-- Every held packet behind packets that are due. -/
  held : ∀ older pac newer, lag.buf.nodes.reverse = older ++ pac :: newer →
    (∀ p ∈ older, lag.due now p = true) → lag.Aligned now pac
  /-- The first packet taken in, if everything held is due. -/
  taken : (∀ p ∈ lag.buf.nodes, lag.due now p = true) → lag.buf.bufSize < 2000 →
    (∃ pac ∈ main, lag.handles pac = true) →
      ¬Clock.Wraps now (UInt32.ofInt lag.lagTime.val)

section Call

variable (lag : Lag β) (now : UInt32) (main : List (PacketNode β))

theorem due_eq (pac : PacketNode β) :
    lag.due now pac = decide (UInt32.ofInt lag.lagTime.val < now - pac.timestamp) := by
  have lower := lag.lagTime.lower
  have upper := lag.lagTime.upper
  have delay := @Clock.toNat_ofInt lag.lagTime.val (by omega) (by omega)
  simp only [due, gt_iff_lt, UInt32.lt_iff_toNat_lt]
  exact decide_eq_decide.2 (by omega)

theorem overdue_eq_due_iff (pac : PacketNode β) :
    lag.overdue now pac = lag.due now pac ↔ lag.Aligned now pac := by
  rw [due_eq, overdue, decide_eq_decide]
  exact Clock.add_lt_iff_iff _ _ _

/-- What the loop takes and what it leaves. -/
theorem send_eq :
    let late := (lag.queue now main).takeWhile (lag.overdue now)
    let sent := (lag.send now (lag.pick now main).2.1).2.1
    lag.released now main = late ∧
      sent.buf.nodes.reverse = (lag.queue now main).dropWhile (lag.overdue now) ∧
      sent.buf.bufSize = (lag.pick now main).2.1.buf.bufSize - late.length := by
  set spend := fun (_ : Unit) pac => if lag.overdue now pac then some () else none
  obtain ⟨taken, left⟩ := release_eq_takeWhile spend (lag.overdue now)
    (fun _ pac => by cases late : lag.overdue now pac <;> simp [spend, late])
    (lag.queue now main) ()
  obtain ⟨-, sent, kept⟩ := releaseOldest_eq spend () (lag.pick now main).2.1
  have taken := sent.trans taken
  refine ⟨taken, kept.trans left, ?_⟩
  rw [← taken]
  exact releaseOldest_bufSize spend () (lag.pick now main).2.1

theorem lagProcess_ends (env : ProcEnv) :
    let picked := (lag.pick (env.ticks 0) main).2.1
    let late := (lag.queue (env.ticks 0) main).takeWhile (lag.overdue (env.ticks 0))
    Ends (picked.buf.bufSize - late.length) late
      ((lag.queue (env.ticks 0) main).dropWhile (lag.overdue (env.ticks 0))) picked.main
      (lagProcess env main lag).main (lagProcess env main lag).state.buf := by
  intro picked late
  obtain ⟨taken, left, size⟩ := lag.send_eq (env.ticks 0) main
  rw [← left, ← size]
  refine flushWhenFull_ends ?_
  show (lag.released (env.ticks 0) main).reverse ++ picked.main = _
  rw [taken]

/-- The buffer a call looks through: what was held, then what it took in. -/
theorem queue_eq : ∃ taken, lag.queue now main = lag.buf.nodes.reverse ++ taken ∧
    (∀ pac ∈ taken, pac.timestamp = now) ∧
      (taken = [] ↔ ¬(lag.buf.bufSize < 2000 ∧ ∃ pac ∈ main, lag.handles pac = true)) := by
  obtain ⟨taken, nodes, stamped, count⟩ := @pickUp_nodes β Unit lag.handles KEEP_AT_MOST
    (fun _ pac => ((), { pac with timestamp := now, enqueueTime := now })) ()
    { main, buf := lag.buf } (fun pac => pac.timestamp = now) (fun _ _ => rfl)
  have nodes : (lag.pick now main).2.1.buf.nodes = taken ++ lag.buf.nodes := nodes
  refine ⟨taken.reverse, ?_, fun pac member => stamped pac (List.mem_reverse.1 member), ?_⟩
  · rw [queue, nodes, List.reverse_append]
  · rw [List.reverse_eq_nil_iff, ← List.length_eq_zero_iff, count, ← List.countP_pos_iff]
    simp only [KEEP_AT_MOST]
    omega

/-- A packet that has just come in is not due. -/
theorem not_due_fresh {pac : PacketNode β} (fresh : pac.timestamp = now) :
    lag.due now pac = false := by
  have lower := lag.lagTime.lower
  simp only [due, fresh, Clock.toNat_sub_self, decide_eq_false_iff_not]
  omega

/-- Releasing what is due is a matter of the loop's test. -/
theorem releasesDue_iff (env : ProcEnv) :
    lag.ReleasesDue env main ↔
      (lag.queue (env.ticks 0) main).takeWhile (lag.overdue (env.ticks 0)) =
        (lag.queue (env.ticks 0) main).takeWhile (lag.due (env.ticks 0)) := by
  obtain ⟨taken, -, -⟩ := lag.send_eq (env.ticks 0) main
  constructor
  · rintro ⟨loop, -⟩
    rwa [taken] at loop
  · intro same
    have rest : (lag.queue (env.ticks 0) main).dropWhile (lag.overdue (env.ticks 0)) =
        (lag.queue (env.ticks 0) main).dropWhile (lag.due (env.ticks 0)) := by
      refine List.append_cancel_left (List.takeWhile_append_dropWhile.trans ?_)
      rw [same]
      exact List.takeWhile_append_dropWhile.symm
    have ends := lag.lagProcess_ends main env
    simp only [same, rest] at ends
    exact ⟨taken.trans same, ends⟩

/-- **A call of lag releases what is due, if and only if nothing it can reach is out of
step with the tick.** -/
theorem lagProcess_due_iff (env : ProcEnv) :
    lag.ReleasesDue env main ↔ lag.InStep (env.ticks 0) main := by
  rw [releasesDue_iff]
  generalize env.ticks 0 = now
  obtain ⟨taken, queue, stamped, none⟩ := lag.queue_eq now main
  have fresh : ∀ pac ∈ taken, lag.due now pac = false := fun pac member =>
    lag.not_due_fresh now (stamped pac member)
  rw [takeWhile_eq_takeWhile_iff, queue]
  constructor
  · intro agree
    refine ⟨fun older pac newer split earlier => ?_, fun all room handled => ?_⟩
    · refine (lag.overdue_eq_due_iff now pac).1 (agree older pac (newer ++ taken) ?_ earlier)
      rw [split, List.append_assoc, List.cons_append]
    · cases taken with
      | nil => exact absurd ⟨room, handled⟩ (none.1 rfl)
      | cons pac taken =>
          have aligned := (lag.overdue_eq_due_iff now pac).1 (agree lag.buf.nodes.reverse pac taken rfl
            fun p member => all p (List.mem_reverse.1 member))
          rw [Aligned, stamped pac List.mem_cons_self] at aligned
          exact fun wraps => absurd (aligned.1 wraps) (UInt32.lt_irrefl now)
  · rintro ⟨held, first⟩ older pac newer split earlier
    rw [overdue_eq_due_iff]
    have youngest : pac ∈ taken → (∀ p ∈ lag.buf.nodes, lag.due now p = true) →
        lag.Aligned now pac := by
      intro here all
      have room := not_not.1 fun no => List.ne_nil_of_mem here (none.2 no)
      rw [Aligned, stamped pac here]
      exact iff_of_false (first all room.1 room.2) (UInt32.lt_irrefl now)
    rcases List.append_eq_append_iff.1 split with ⟨within, rfl, rest⟩ | ⟨within, before, rest⟩
    · -- `pac` was taken in, and only as the first is it behind nothing but due packets
      cases within with
      | cons p within =>
          have due := earlier p (by simp)
          rw [fresh p (by rw [rest]; simp)] at due
          exact absurd due Bool.false_ne_true
      | nil =>
          refine youngest (by rw [rest]; simp) fun p member => earlier p ?_
          simpa using member
    · cases within with
      | nil =>
          have whole : lag.buf.nodes.reverse = older := by simpa using before
          refine youngest (by rw [← List.nil_append taken, ← rest]; simp) fun p member => ?_
          exact earlier p (by rw [← whole]; simpa using member)
      | cons p within =>
          obtain ⟨rfl, -⟩ := List.cons.inj rest
          exact held older pac within before earlier

end Call

/-- 2^32 - 1 ms after the origin a packet comes in, and leaves in the same call, 50 ms
early. -/
theorem lagProcess_early :
    ¬∀ (env : ProcEnv) (main : List (PacketNode Unit)) (lag : Lag Unit),
      lag.ReleasesDue env main := by
  intro claim
  have due := claim (.still 0xffffffff) [outgoing 0] (lagStartUp .initial)
  exact absurd due.ends.main (by decide)

end Lag

/-! ## Jitter -/

namespace Jitter

/-- The packet's delay, from when it came in to its scheduled release. -/
def delay (pac : PacketNode β) : UInt32 := pac.timestamp - pac.enqueueTime

/-- The packet has waited out its delay. -/
def elapsed (now : UInt32) (pac : PacketNode β) : Bool :=
  decide ((now - pac.enqueueTime).toNat ≥ (delay pac).toNat)

def Aligned (now : UInt32) (pac : PacketNode β) : Prop :=
  Clock.Wraps pac.enqueueTime (delay pac) ↔ now < pac.enqueueTime

/-- The test of the release loop. -/
def due (now : UInt32) (pac : PacketNode β) : Bool := decide (now ≥ pac.timestamp)

/-- The delays the next `n` packets are given. -/
def delays (env : ProcEnv) (jitter : Jitter β) (n : Nat) : List UInt32 :=
  let lo := min jitter.jitterMin.val jitter.jitterMax.val
  let hi := max jitter.jitterMin.val jitter.jitterMax.val
  stream (fun d => (jitterSampleDelay env.libm lo hi jitter.jitterDist d).2)
    (fun d => (jitterSampleDelay env.libm lo hi jitter.jitterDist d).1) n env.draws

/-- How many packets a call takes in. -/
def takes (main : List (PacketNode β)) (jitter : Jitter β) : Nat :=
  min (2000 - jitter.buf.bufSize).toNat (main.countP jitter.handles)

/-- The packets in the buffer while a call scans it, oldest first. -/
def queue (env : ProcEnv) (main : List (PacketNode β)) (jitter : Jitter β) :
    List (PacketNode β) :=
  (jitter.pick env main).2.1.buf.nodes.reverse

/-- What a call releases outside the flush of a full buffer. -/
def released (env : ProcEnv) (main : List (PacketNode β)) (jitter : Jitter β) :
    List (PacketNode β) :=
  (releaseDue (due (env.ticks 0)) (jitter.pick env main).2.1).2

/-- A call releases exactly the packets whose delay is over: its scan takes them, the call
ends with them released, and none of them is left in the buffer. -/
structure ReleasesElapsed (env : ProcEnv) (main : List (PacketNode β)) (jitter : Jitter β) :
    Prop where
  scan : jitter.released env main = (jitter.queue env main).filter (elapsed (env.ticks 0))
  ends :
    let picked := (jitter.pick env main).2.1
    let waited := (jitter.queue env main).filter (elapsed (env.ticks 0))
    Ends (picked.buf.bufSize - waited.length) waited
      ((jitter.queue env main).filter fun pac => !elapsed (env.ticks 0) pac) picked.main
      (jitterProcess env main jitter).main (jitterProcess env main jitter).state.buf
  none_left : ∀ pac ∈ (jitterProcess env main jitter).state.buf.nodes,
    elapsed (env.ticks 0) pac = false

/-- Neither a held packet nor one that is taken in has the wrap in its way. -/
structure InStep (env : ProcEnv) (main : List (PacketNode β)) (jitter : Jitter β) : Prop where
  held  : ∀ pac ∈ jitter.buf.nodes, Aligned (env.ticks 0) pac
  taken : ∀ d ∈ jitter.delays env (jitter.takes main), ¬Clock.Wraps (env.ticks 0) d

section Call

variable (env : ProcEnv) (main : List (PacketNode β)) (jitter : Jitter β)

theorem due_eq_elapsed_iff (now : UInt32) (pac : PacketNode β) :
    due now pac = elapsed now pac ↔ Aligned now pac := by
  have scheduled : pac.timestamp = pac.enqueueTime + delay pac := by
    rw [delay, UInt32.add_comm, UInt32.sub_add_cancel]
  have compare := Clock.add_le_iff_iff pac.enqueueTime (delay pac) now
  rw [← scheduled] at compare
  rw [due, elapsed, decide_eq_decide]
  exact compare

/-- What the scan takes and what it leaves. -/
theorem released_eq :
    let late := (jitter.queue env main).filter (due (env.ticks 0))
    let sent := (releaseDue (due (env.ticks 0)) (jitter.pick env main).2.1).1
    jitter.released env main = late ∧
      sent.buf.nodes.reverse =
        ((jitter.queue env main).filter fun pac => !due (env.ticks 0) pac) ∧
      sent.buf.bufSize = (jitter.pick env main).2.1.buf.bufSize - late.length := by
  obtain ⟨held, kept⟩ := sweep_partition (due (env.ticks 0)) (fun (size : Int) _ => size - 1)
    (jitter.queue env main) (jitter.pick env main).2.1.buf.bufSize
  refine ⟨held, (List.reverse_reverse _).trans kept, ?_⟩
  rw [releaseDue_bufSize, ← held]
  rfl

theorem jitterProcess_ends :
    let picked := (jitter.pick env main).2.1
    let late := (jitter.queue env main).filter (due (env.ticks 0))
    Ends (picked.buf.bufSize - late.length) late
      ((jitter.queue env main).filter fun pac => !due (env.ticks 0) pac) picked.main
      (jitterProcess env main jitter).main (jitterProcess env main jitter).state.buf := by
  intro picked late
  obtain ⟨taken, left, size⟩ := jitter.released_eq env main
  rw [← left, ← size]
  refine flushWhenFull_ends ?_
  show (jitter.released env main).reverse ++ picked.main = _
  rw [taken]

/-- The buffer a call scans: what was held, then what it took in, each with the next
delay. -/
theorem queue_eq : ∃ taken, jitter.queue env main = jitter.buf.nodes.reverse ++ taken ∧
    (∀ pac ∈ taken, pac.enqueueTime = env.ticks 0) ∧
      taken.map delay = jitter.delays env (jitter.takes main) := by
  set lo := min jitter.jitterMin.val jitter.jitterMax.val with hLo
  set hi := max jitter.jitterMin.val jitter.jitterMax.val with hHi
  set stamp : Draws → PacketNode β → Draws × PacketNode β := fun d pac =>
    ((jitterSampleDelay env.libm lo hi jitter.jitterDist d).2,
      { pac with
        enqueueTime := env.ticks 0
        timestamp := env.ticks 0 + (jitterSampleDelay env.libm lo hi jitter.jitterDist d).1 })
    with hStamp
  obtain ⟨taken, nodes, stamped, count⟩ := @pickUp_nodes β Draws jitter.handles KEEP_AT_MOST stamp
    env.draws { main, buf := jitter.buf } (fun pac => pac.enqueueTime = env.ticks 0)
    (fun _ _ => rfl)
  obtain ⟨taken', nodes', delays⟩ := pickUp_stream jitter.handles KEEP_AT_MOST stamp env.draws
    { main, buf := jitter.buf }
    (fun d => (jitterSampleDelay env.libm lo hi jitter.jitterDist d).2)
    (fun d => (jitterSampleDelay env.libm lo hi jitter.jitterDist d).1) delay (fun _ _ => rfl)
    (fun _ _ => Clock.add_sub_self _ _)
  obtain rfl : taken = taken' := List.append_cancel_right (nodes.symm.trans nodes')
  have nodes : (jitter.pick env main).2.1.buf.nodes = taken ++ jitter.buf.nodes := nodes
  refine ⟨taken.reverse, by rw [queue, nodes, List.reverse_append], fun pac member => ?_, ?_⟩
  · exact stamped pac (List.mem_reverse.1 member)
  · rw [delays, count]
    rfl

/-- **A call of jitter releases the packets whose delay is over and leaves none behind, if
and only if nothing it holds is out of step with the tick.** -/
theorem jitterProcess_due_iff : jitter.ReleasesElapsed env main ↔ jitter.InStep env main := by
  obtain ⟨taken, queue, stamped, drawn⟩ := jitter.queue_eq env main
  obtain ⟨sent, -, -⟩ := jitter.released_eq env main
  have aligned : (∀ pac ∈ jitter.queue env main, due (env.ticks 0) pac =
      elapsed (env.ticks 0) pac) ↔ jitter.InStep env main := by
    simp only [due_eq_elapsed_iff, queue, List.mem_append, List.mem_reverse]
    constructor
    · intro all
      refine ⟨fun pac member => all pac (Or.inl member), fun d member wraps => ?_⟩
      rw [← drawn] at member
      obtain ⟨pac, here, rfl⟩ := List.mem_map.1 member
      have aligned := all pac (Or.inr here)
      rw [Aligned, stamped pac here] at aligned
      exact absurd (aligned.1 wraps) (UInt32.lt_irrefl _)
    · rintro ⟨held, fresh⟩ pac (member | member)
      · exact held pac member
      · rw [Aligned, stamped pac member]
        refine iff_of_false (fresh _ ?_) (UInt32.lt_irrefl _)
        rw [← drawn]
        exact List.mem_map_of_mem member
  rw [← aligned]
  constructor
  · rintro ⟨scan, -, -⟩
    exact (filter_eq_filter_iff _ _ _).1 (sent.symm.trans scan)
  · intro agree
    have ends := jitter.jitterProcess_ends env main
    have waited := (filter_eq_filter_iff _ _ _).2 agree
    have rest : ((jitter.queue env main).filter fun pac => !due (env.ticks 0) pac) =
        (jitter.queue env main).filter fun pac => !elapsed (env.ticks 0) pac :=
      List.filter_congr fun pac member => congrArg not (agree pac member)
    simp only [waited, rest] at ends
    refine ⟨sent.trans waited, ends, fun pac member => ?_⟩
    have member := List.mem_reverse.2 member
    rw [ends.held] at member
    simpa using (List.mem_filter.1 (List.mem_of_mem_drop member)).2

end Call

/-- Jitter with a fixed delay of 20 ms. -/
def fixedJitter : Jitter Unit :=
  { jitterStartUp .initial with jitterMax := .literal 20 (.refl true) }

/-- 2^32 - 1 ms after the origin a packet comes in and leaves in the same call, 20 ms
early. -/
theorem jitterProcess_early :
    ¬∀ (env : ProcEnv) (main : List (PacketNode Unit)) (jitter : Jitter Unit),
      jitter.ReleasesElapsed env main := by
  intro claim
  have elapsed := claim (.still 0xffffffff) [outgoing 0] fixedJitter
  exact absurd elapsed.ends.main (by decide +kernel)

end Jitter

end Clumsy.Modules
