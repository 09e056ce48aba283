/-
# Capture.Platforms -- one session, two platforms

What a capture backend has to do for the modules is little: put packets on the list, run the
loop, take off what is left.  `Tap` is a session with nothing else in it, no verdicts and no
addresses.  The session of either backend is a `Tap`'s, told what its events captured
(`linux_taps`, `windows_taps`).

The two backends come with different packet helpers, and only the modules that rewrite packets
(tamper, corrupt, reset) ask them anything.  So as long as these three are off, the same packets
at the same moments meet the same fate on both: the two sessions hold the same packets and send
the same bytes in the same order, whatever WinDivert's helpers do (`platforms_agree`).
-/
import Clumsy.Capture.Windows
import Clumsy.Theory.Refine

namespace Clumsy.Capture

open Clumsy.Theory
open Clumsy.Packet
open Clumsy.Modules
open Clumsy.Filter

set_option autoImplicit false

/-- A packet without a backend's blob. -/
def bare {β : Type} (node : PacketNode β) : PacketNode Unit := node.relabel fun _ => ()

instance : CaptureBackend Unit where
  packetBackendPrepareClone src := src

instance {β : Type} [CaptureBackend β] : Follows (fun _ : β => ()) where
  prepareClone _ := rfl

/-! ## A session without a platform -/

structure Tap where
  pipe     : Pipeline Unit
  captured : List (PacketNode Unit)
  sent     : List (PacketNode Unit)

namespace Tap

/-- What happens in it. -/
inductive Event where
  | packet (env : StepEnv) (packet : Bytes) (pktMeta : PacketMeta)
  | clock (env : StepEnv)
  | write (w : Pipeline.Write)
  | shutdown

variable (h : PacketHelpers)

/-- Take over what a loop over the modules left, and take it off the list. -/
def settle (out : Pipeline Unit) (s : Tap) : Tap :=
  if out.crashed then { s with pipe := out }
  else { s with pipe := { out with main := [] }, sent := s.sent ++ out.main.reverse }

def consumeStep (env : StepEnv) (s : Tap) : Tap := s.settle (s.pipe.runModulesOn h env).1

def capture (packet : Bytes) (pktMeta : PacketMeta) (s : Tap) : Tap :=
  { s with
    pipe := s.pipe.appendNode packet pktMeta ()
    captured := s.captured ++ [createNode s.pipe.nextAddr packet pktMeta ()] }

def step (s : Tap) : Event → Tap
  | .packet env packet pktMeta => (s.capture packet pktMeta).consumeStep h env
  | .clock env => s.consumeStep h env
  | .write w => { s with pipe := s.pipe.applyWrite w }
  | .shutdown => s.settle s.pipe.closeModules.1

def machine : Machine Tap Event where
  step := step h
  admits _ _ := True

theorem admissible (s : Tap) (es : List Event) : (machine h).Admissible s es := by
  induction es generalizing s with
  | nil => trivial
  | cons e es ih => exact ⟨trivial, ih _⟩

/-! ### Without the helpers -/

/-- The modules that rewrite packets are off. -/
def Plain (s : Tap) : Prop := ∀ m, m.rewrites = true → s.pipe.enabled m = false

/-- The event switches none of them on. -/
def Event.plain : Event → Prop
  | .write (.enable m on) => m.rewrites = true → on = false
  | _ => True

theorem settle_plain {out : Pipeline Unit} {s : Tap} (plain : s.Plain)
    (kept : out.enabled = s.pipe.enabled) : (s.settle out).Plain := by
  intro m rewrites
  have off := plain m rewrites
  rw [← kept] at off
  unfold settle
  split <;> exact off

theorem consumeStep_plain (env : StepEnv) {s : Tap} (plain : s.Plain) :
    s.consumeStep h env = s.consumeStep .linux env ∧ (s.consumeStep h env).Plain := by
  obtain ⟨same, kept⟩ := s.pipe.runModulesOn_plain h env plain
  have linux := (s.pipe.runModulesOn_plain .linux env plain).1
  unfold consumeStep
  rw [linux, same]
  exact ⟨rfl, settle_plain plain (by rw [kept])⟩

/-- One event is the same over any helpers, and leaves the three modules off. -/
theorem step_plain {s : Tap} (plain : s.Plain) {e : Event} (quiet : e.plain) :
    s.step h e = s.step .linux e ∧ (s.step h e).Plain := by
  cases e with
  | packet env packet pktMeta => exact consumeStep_plain h env (s := s.capture packet pktMeta) plain
  | clock env => exact consumeStep_plain h env plain
  | write w =>
      refine ⟨rfl, fun m rewrites => ?_⟩
      cases w with
      | param w => exact plain m rewrites
      | enable m' on =>
          show setFlag s.pipe.enabled m' on m = false
          by_cases here : m = m'
          · subst here
            rw [setFlag_same]
            exact quiet rewrites
          · rw [setFlag_other _ _ here]
            exact plain m rewrites
  | shutdown => exact ⟨rfl, settle_plain plain s.pipe.closeModules_enabled⟩

/-- **A run that never switches them on is the same over any helpers.** -/
theorem run_plain (es : List Event) {s : Tap} (plain : s.Plain) (quiet : ∀ e ∈ es, e.plain) :
    (machine h).run s es = (machine .linux).run s es := by
  induction es generalizing s with
  | nil => rw [Machine.run_nil, Machine.run_nil]
  | cons e es ih =>
      obtain ⟨same, next⟩ := step_plain h plain (quiet e List.mem_cons_self)
      have rest := ih next fun e member => quiet e (List.mem_cons_of_mem _ member)
      have here : (machine h).step s e = (machine .linux).step s e := same
      rw [Machine.run_cons, Machine.run_cons, ← here]
      exact rest

end Tap

/-! ## NFQUEUE -/

namespace Linux

/-- The session without its verdicts. -/
def tap (s : Linux) : Tap where
  pipe := s.pipe.relabel fun _ => ()
  captured := s.captured.map bare
  sent := s.sent.map bare

/-- The payload, if the callback captures the packet. -/
def captures (s : Linux) (alloc : Bool) (nfa : NfqData) : Option Bytes :=
  match nfa.packetId, nfa.payload with
  | some _, some payload =>
      if payload = [] ∨ s.filterProg.any (fun prog => !filterMatch prog (nfa.pktMeta payload) payload)
          ∨ alloc = false then none
      else some payload
  | _, _ => none

/-- What an event is to the modules. -/
def taps (s : Linux) : Event → List Tap.Event
  | .packet env alloc nfa =>
      match s.captures alloc nfa with
      | none => []
      | some payload => [.packet env.step payload (nfa.pktMeta payload)]
  | .clock env => [.clock env.step]
  | .write w => [.write w]

theorem sendAll_tap (env : Nat → UInt32 × SendTo) (s : Linux) :
    (s.sendAllListPackets env).tap =
      { s.tap with
        pipe := { s.tap.pipe with main := [] }
        sent := s.tap.sent ++ s.tap.pipe.main.reverse } := by
  have sends := sendEach_sends s.pipe.main.reverse env { s with pipe := { s.pipe with main := [] } }
  have pipe : (s.sendAllListPackets env).pipe = { s.pipe with main := [] } := sends.pipe
  have captured : (s.sendAllListPackets env).captured = s.captured := sends.captured
  have sent : (s.sendAllListPackets env).sent = s.sent ++ s.pipe.main.reverse := sends.sent
  rw [tap, pipe, captured, sent, List.map_append, List.map_reverse]
  rfl

theorem consumeStep_tap (env : LinuxEnv) (s : Linux) :
    (s.divertConsumeStep env).tap = s.tap.consumeStep .linux env.step := by
  have loop : s.tap.pipe.runModulesOn .linux env.step =
      ((s.pipe.runModules env.step).1.relabel (fun _ => ()),
        (s.pipe.runModules env.step).2.relabel (fun _ => ())) := by
    rw [← Pipeline.runModulesOn_linux]
    exact Pipeline.runModulesOn_relabel (fun _ => ()) .linux env.step s.pipe
  unfold divertConsumeStep Tap.consumeStep Tap.settle
  rw [loop]
  simp only
  by_cases crashed : (s.pipe.runModules env.step).1.crashed = true
  · have crashed' : ((s.pipe.runModules env.step).1.relabel fun _ => ()).crashed = true := crashed
    rw [if_pos crashed, if_pos crashed']
    rfl
  · have alive : ((s.pipe.runModules env.step).1.relabel fun _ => ()).crashed ≠ true := crashed
    rw [if_neg crashed, if_neg alive, sendAll_tap]
    rfl

theorem capture_tap (id : UInt32) (pktMeta : PacketMeta) (payload : Bytes) (s : Linux) :
    (s.capture id pktMeta payload).tap = s.tap.capture payload pktMeta := by
  have appended := Pipeline.appendNode_relabel (fun _ : LinuxPacketMeta => ()) s.pipe payload
    pktMeta { packetId := id, verdictIssued := false, synthetic := false }
  unfold capture tap Tap.capture
  simp only [← appended, List.map_append]
  rfl

/-- What the callback does to the tap: nothing, or a capture and a step. -/
theorem nfqCallback_tap (env : LinuxEnv) (alloc : Bool) (nfa : NfqData) (s : Linux) :
    (s.nfqCallback env alloc nfa).tap =
      match s.captures alloc nfa with
      | none => s.tap
      | some payload => (s.tap.capture payload (nfa.pktMeta payload)).consumeStep .linux env.step := by
  cases packetId : nfa.packetId with
  | none => simp only [nfqCallback, captures, packetId]
  | some id =>
      cases content : nfa.payload with
      | none =>
          simp only [nfqCallback, captures, packetId, content]
          rfl
      | some payload =>
          cases payload with
          | nil =>
              simp only [nfqCallback, captures, packetId, content, true_or, if_true]
              rfl
          | cons b bytes =>
              cases unmatched : s.filterProg.any fun prog =>
                  !filterMatch prog (nfa.pktMeta (b :: bytes)) (b :: bytes) with
              | true =>
                  simp only [nfqCallback, captures, packetId, content, unmatched, if_true, true_or,
                    or_true]
                  rfl
              | false =>
                  cases alloc with
                  | false =>
                      simp only [nfqCallback, captures, packetId, content, unmatched, or_true,
                        if_true, Bool.not_false]
                      rfl
                  | true =>
                      have here : s.captures true nfa = some (b :: bytes) := by
                        simp [captures, packetId, content, unmatched]
                      have runs : s.nfqCallback env true nfa =
                          ({ s with given := s.given ++ [id] }.capture id
                            (nfa.pktMeta (b :: bytes)) (b :: bytes)).divertConsumeStep env := by
                        simp [nfqCallback, packetId, content, unmatched]
                      rw [here, runs, consumeStep_tap, capture_tap]
                      rfl

/-- **An NFQUEUE session is a tap's.** -/
theorem linux_taps : Refines machine (Tap.machine .linux) (fun _ => True) tap taps where
  preserved _ _ _ _ := trivial
  admissible s e _ _ := Tap.admissible _ _ _
  commutes s e _ _ := by
    cases e with
    | packet env alloc nfa =>
        show (s.nfqCallback env alloc nfa).tap =
          (Tap.machine .linux).run s.tap (s.taps (.packet env alloc nfa))
        rw [nfqCallback_tap, taps]
        cases s.captures alloc nfa <;> rfl
    | clock env => exact consumeStep_tap env s
    | write w =>
        have written := Pipeline.applyWrite_relabel (fun _ : LinuxPacketMeta => ()) s.pipe w
        show tap { s with pipe := s.pipe.applyWrite w } =
          { s.tap with pipe := s.tap.pipe.applyWrite w }
        unfold tap
        rw [written]

end Linux

/-! ## WinDivert -/

namespace Windows

/-- The session without its addresses. -/
def tap (s : Windows) : Tap where
  pipe := s.pipe.relabel fun _ => ()
  captured := s.captured.map bare
  sent := s.popped.map bare

/-- What an event is to the modules. -/
def taps (s : Windows) : Event → List Tap.Event
  | .received env alloc packet addr =>
      if s.stopLooping ∨ alloc = false then [] else [.packet env.step packet (fillMetaFromAddr addr)]
  | .clock env => [.clock env.step]
  | .write c => [.write c]
  | .shutdown _ => [.shutdown]
  | .quit | .stop => []

variable (w : WinDivert)

theorem settle_tap (env : Nat → SendResult × SendResult)
    (out : Pipeline WinDivertAddress × Effects WinDivertAddress) (s : Windows) :
    (s.settle w env out).tap = s.tap.settle (out.1.relabel fun _ => ()) := by
  unfold settle Tap.settle
  simp only
  by_cases crashed : out.1.crashed = true
  · have crashed' : (out.1.relabel fun _ => ()).crashed = true := crashed
    rw [if_pos crashed, if_pos crashed']
    rfl
  · have alive : (out.1.relabel fun _ => ()).crashed ≠ true := crashed
    rw [if_neg crashed, if_neg alive]
    have sends := sendEach_sends w out.1.main.reverse env
      { { s with pipe := out.1 }.record out.2 with pipe := { out.1 with main := [] } }
    obtain ⟨more, sent, nodes, -⟩ := sends.sent
    have popped : ((({ s with pipe := out.1 }.record out.2).sendAllListPackets w env)).popped =
        s.popped ++ out.1.main.reverse := by
      rw [← nodes]
      exact (congrArg (List.map Transmission.node) sent).trans List.map_append
    have pipe : ((({ s with pipe := out.1 }.record out.2).sendAllListPackets w env)).pipe =
        { out.1 with main := [] } := sends.pipe
    have captured : ((({ s with pipe := out.1 }.record out.2).sendAllListPackets w env)).captured =
        s.captured := sends.captured.1
    rw [tap, pipe, captured, popped, List.map_append, List.map_reverse]
    rfl

theorem consumeStep_tap (env : WindowsEnv) (s : Windows) :
    (s.divertConsumeStep w env).tap = s.tap.consumeStep w.helpers env.step := by
  have loop := Pipeline.runModulesOn_relabel (fun _ : WinDivertAddress => ()) w.helpers env.step
    s.pipe
  have here : s.tap.pipe = s.pipe.relabel fun _ => () := rfl
  unfold divertConsumeStep Tap.consumeStep
  rw [settle_tap, here, loop]

theorem capture_tap (packet : Bytes) (addr : WinDivertAddress) (s : Windows) :
    (s.capture packet addr).tap = s.tap.capture packet (fillMetaFromAddr addr) := by
  have appended := Pipeline.appendNode_relabel (fun _ : WinDivertAddress => ()) s.pipe packet
    (fillMetaFromAddr addr) addr
  unfold capture tap Tap.capture
  simp only [← appended, List.map_append]
  rfl

/-- **A WinDivert session is a tap's.** -/
theorem windows_taps : Refines (machine w) (Tap.machine w.helpers) (fun _ => True) tap taps where
  preserved _ _ _ _ := trivial
  admissible s e _ _ := Tap.admissible _ _ _
  commutes s e _ _ := by
    cases e with
    | received env alloc packet addr =>
        show (s.received w env alloc packet addr).tap = (Tap.machine w.helpers).run s.tap
          (if s.stopLooping ∨ alloc = false then []
            else [.packet env.step packet (fillMetaFromAddr addr)])
        unfold received
        cases s.stopLooping with
        | true => rfl
        | false =>
            cases alloc with
            | false => rfl
            | true =>
                rw [if_neg (by decide), if_pos rfl, if_neg (by decide), consumeStep_tap,
                  capture_tap]
                rfl
    | quit => rfl
    | clock env => exact consumeStep_tap w env s
    | write c =>
        have written := Pipeline.applyWrite_relabel (fun _ : WinDivertAddress => ()) s.pipe c
        show tap { s with pipe := s.pipe.applyWrite c } =
          { s.tap with pipe := s.tap.pipe.applyWrite c }
        unfold tap
        rw [written]
        rfl
    | stop => rfl
    | shutdown env =>
        have loop := Pipeline.closeModules_relabel (fun _ : WinDivertAddress => ()) s.pipe
        have here : s.tap.pipe = s.pipe.relabel fun _ => () := rfl
        show (s.settle w env s.pipe.closeModules).tap = s.tap.settle s.tap.pipe.closeModules.1
        rw [settle_tap, here, loop]

end Windows

/-! ## Both -/

/-- **The same packets at the same moments meet the same fate on both platforms**: in step at
the start, two sessions whose events capture, tick and write alike are in step at the end, unless
a module that rewrites packets is on. -/
theorem platforms_agree (w : WinDivert) {l : Linux} {v : Windows} (start : l.tap = v.tap)
    (plain : l.tap.Plain) (es : List Linux.Event) (fs : List Windows.Event)
    (linux : Linux.machine.Admissible l es) (windows : (Windows.machine w).Admissible v fs)
    (same : (Linux.machine.outputs Linux.taps l es).flatten =
      ((Windows.machine w).outputs Windows.taps v fs).flatten)
    (quiet : ∀ e ∈ (Linux.machine.outputs Linux.taps l es).flatten, e.plain) :
    (Linux.machine.run l es).tap = ((Windows.machine w).run v fs).tap ∧
      (Linux.machine.run l es).sent.map (fun pac => (pac.packet, pac.pktMeta)) =
        ((Windows.machine w).run v fs).popped.map fun pac => (pac.packet, pac.pktMeta) := by
  obtain ⟨-, first⟩ := Linux.linux_taps.run es trivial linux
  obtain ⟨-, second⟩ := (Windows.windows_taps w).run fs trivial windows
  have step_ : (Linux.machine.run l es).tap = ((Windows.machine w).run v fs).tap := by
    rw [first, second, ← start, ← same, Tap.run_plain w.helpers _ plain quiet]
  refine ⟨step_, ?_⟩
  have sent := congrArg (fun t : Tap => t.sent.map fun pac => (pac.packet, pac.pktMeta)) step_
  simpa [Linux.tap, Windows.tap, bare, PacketNode.relabel, Function.comp_def] using sent

/-! ## Two sessions in step -/

/-- The address under which WinDivert hands over `Linux.firstPacket`. -/
def firstAddress : WinDivertAddress :=
  { Windows.inboundAddress with outbound := true, ipChecksum := false }

def stillWindows : WindowsEnv where
  step := Linux.stillEnv.step
  send := fun _ => (.sent 4, .failed)

/-- A step a second later. -/
def lateStep : StepEnv :=
  { Linux.stillEnv.step with
    proc := fun m => { Linux.stillEnv.step.proc m with ticks := fun _ => 1000 } }

/-- Lag takes a packet in and lets go of it, on either platform. -/
theorem platforms_agree_firstPacket :
    ((Linux.machine.run Linux.lagSession [.packet Linux.stillEnv true Linux.firstPacket,
        .clock { Linux.stillEnv with step := lateStep }]).sent.length = 1) ∧
      (Linux.machine.run Linux.lagSession [.packet Linux.stillEnv true Linux.firstPacket,
          .clock { Linux.stillEnv with step := lateStep }]).tap =
        ((Windows.machine Windows.plainLibrary).run (Windows.initial (· == .lag))
          [.received stillWindows true [0x45, 0x00, 0x00, 0x14] firstAddress,
            .clock { stillWindows with step := lateStep }]).tap := by
  have linux : Linux.machine.Admissible Linux.lagSession
      [.packet Linux.stillEnv true Linux.firstPacket,
        .clock { Linux.stillEnv with step := lateStep }] := by
    refine ⟨fun id given => ?_, trivial, trivial⟩
    obtain rfl := Option.some.inj given
    exact ⟨by decide, List.not_mem_nil⟩
  have windows : (Windows.machine Windows.plainLibrary).Admissible (Windows.initial (· == .lag))
      [.received stillWindows true [0x45, 0x00, 0x00, 0x14] firstAddress,
        .clock { stillWindows with step := lateStep }] :=
    ⟨⟨rfl, rfl⟩, ⟨rfl, rfl⟩, trivial⟩
  have plain : Linux.lagSession.tap.Plain := by
    intro m rewrites
    cases m <;> first | rfl | cases rewrites
  refine ⟨rfl, (platforms_agree Windows.plainLibrary rfl plain _ _ linux windows rfl ?_).1⟩
  intro e member
  have events := List.mem_pair.1 member
  rcases events with rfl | rfl <;> trivial

end Clumsy.Capture
