/-
# Capture.SentCount -- what the sent counter counts

`sendAllListPackets` counts every packet that it takes off the list, whatever becomes of
it.  An original is handed back by the accept verdict; a clone is handed back only if it
reaches its `sendto` and that succeeds (`injectRawPacket_iff`).

An `Offer` is a packet as the drain loop meets it, with the statics of injection at that
moment.  The counter is the number of offers, and what was handed back is the number of
those that went through (`Counts`); so the two agree exactly if every offer of the session
went through (`sent_honest_iff`).
-/
import Clumsy.Capture.Session
import Clumsy.Capture.StormGuard

namespace Clumsy.Capture

open Clumsy.Theory
open Clumsy.Packet
open Clumsy.Modules
open Clumsy.Filter

set_option autoImplicit false

/-! ## What the drain loop offers -/

/-- A packet the drain loop took off the list, with what `injectRawPacket` finds. -/
structure Offer where
  env    : UInt32 × SendTo
  pnode  : LinuxNode
  inject : RawInject

namespace Offer

/-- A clone `injectRawPacket` returns 1 for. -/
def injected (o : Offer) : Bool :=
  o.pnode.backend.synthetic && (injectRawPacket o.env.1 o.env.2 o.pnode o.inject).1

/-- An original with an id to answer. -/
def accepted (o : Offer) : Bool := !o.pnode.backend.synthetic && o.pnode.backend.packetId != 0

/-- **What it takes to be handed back**: a clone can be injected, an original has an id. -/
structure HandedBack (o : Offer) : Prop where
  clone    : o.pnode.backend.synthetic = true → Reaches o.env.1 o.pnode o.inject ∧ o.env.2 = .sent
  original : o.pnode.backend.synthetic = false → o.pnode.backend.packetId ≠ 0

theorem handedBack_iff (o : Offer) :
    o.HandedBack ↔ o.accepted = true ∨ o.injected = true := by
  unfold accepted injected
  cases synthetic : o.pnode.backend.synthetic with
  | true =>
      rw [Bool.not_true, Bool.false_and, Bool.true_and, injectRawPacket_iff]
      constructor
      · intro back
        exact Or.inr (back.clone synthetic)
      · rintro (never | takes)
        · cases never
        · refine ⟨fun _ => takes, ?_⟩
          intro real
          rw [synthetic] at real
          cases real
  | false =>
      rw [Bool.not_false, Bool.true_and, Bool.false_and, bne_iff_ne]
      constructor
      · intro back
        exact Or.inl (back.original synthetic)
      · rintro (id | never)
        · refine ⟨?_, fun _ => id⟩
          intro clone
          rw [synthetic] at clone
          cases clone
        · cases never

theorem not_both (o : Offer) (accepted : o.accepted = true) : ¬o.injected = true := by
  unfold Offer.accepted at accepted
  unfold injected
  cases synthetic : o.pnode.backend.synthetic with
  | true =>
      rw [synthetic] at accepted
      cases accepted
  | false => exact Bool.false_ne_true

/-- The statics of injection after the packet. -/
def after (o : Offer) : RawInject :=
  if o.pnode.backend.synthetic then (injectRawPacket o.env.1 o.env.2 o.pnode o.inject).2
  else o.inject

end Offer

/-- The offers of one pass of the drain loop. -/
def offers : (Nat → UInt32 × SendTo) → List LinuxNode → RawInject → List Offer
  | _, [], _ => []
  | env, pnode :: rest, inject =>
      ⟨env 0, pnode, inject⟩ ::
        offers (fun n => env (n + 1)) rest (Offer.after ⟨env 0, pnode, inject⟩)

/-- Of two things that exclude each other one is true throughout exactly if the counts add up
to the length. -/
theorem countP_add_eq_length_iff {α : Type} {p q : α → Bool}
    (exclude : ∀ a, p a = true → ¬q a = true) (l : List α) :
    l.length = l.countP p + l.countP q ↔ ∀ a ∈ l, p a = true ∨ q a = true := by
  have one : ∀ l : List α, l.countP p + l.countP q = l.countP fun a => p a || q a := by
    intro l
    induction l with
    | nil => rfl
    | cons a l ih =>
        have here := exclude a
        rw [List.countP_cons, List.countP_cons, List.countP_cons, ← ih]
        cases first : p a <;> cases second : q a
        · rfl
        · simp only [Bool.false_or, if_true, Bool.false_eq_true, if_false]
          omega
        · simp only [Bool.true_or, if_true, Bool.false_eq_true, if_false]
          omega
        · exact absurd second (here first)
  rw [one, eq_comm, List.countP_eq_length]
  simp only [Bool.or_eq_true]

/-! ## What the counters do -/

/-- An accept verdict for a packet of ours, with its bytes. -/
def Answer.handsBack (a : Answer) : Bool := a.verdict == .accept && a.packet.isSome

namespace Linux

/-- The accept verdicts `settleVerdict` issued. -/
def acceptedCount (s : Linux) : Nat := s.answers.countP Answer.handsBack

/-- No packet of ours was answered before. -/
def Unanswered (nodes : List LinuxNode) : Prop :=
  ∀ pac ∈ nodes, pac.backend.verdictIssued = false

/-- What a stretch of a session does to the counters when these were its offers. -/
structure Counts (s s' : Linux) (os : List Offer) : Prop where
  sent     : s'.statsSentTotal = s.statsSentTotal + os.length
  accepted : s'.acceptedCount = s.acceptedCount + os.countP Offer.accepted

theorem Counts.none {s s' : Linux} (sent : s'.statsSentTotal = s.statsSentTotal)
    (accepted : s'.acceptedCount = s.acceptedCount) : Counts s s' [] := ⟨sent, accepted⟩

theorem Counts.trans {s t u : Linux} {os os' : List Offer} (first : Counts s t os)
    (second : Counts t u os') : Counts s u (os ++ os') where
  sent := by rw [second.sent, first.sent, List.length_append, Nat.add_assoc]
  accepted := by rw [second.accepted, first.accepted, List.countP_append, Nat.add_assoc]

/-- Freeing a node hands nothing back. -/
theorem onFree_handsBack (node : LinuxNode) :
    (packetBackendOnFree node).countP Answer.handsBack = 0 := by
  unfold packetBackendOnFree settleVerdict
  simp only
  split <;> rfl

theorem freed_handsBack (nodes : List LinuxNode) :
    (nodes.flatMap packetBackendOnFree).countP Answer.handsBack = 0 := by
  rw [List.countP_flatMap]
  simp [Function.comp_def, onFree_handsBack]

/-- **One drained packet.** -/
theorem sendOne_counts (env : UInt32 × SendTo) {pnode : LinuxNode}
    (open_ : pnode.backend.verdictIssued = false) (s : Linux) :
    Counts s (s.sendOne env pnode) [⟨env, pnode, s.inject⟩] ∧
      (s.sendOne env pnode).inject = Offer.after ⟨env, pnode, s.inject⟩ := by
  have free := onFree_handsBack
  cases synthetic : pnode.backend.synthetic with
  | true =>
      refine ⟨⟨?_, ?_⟩, ?_⟩
      · simp [sendOne, synthetic]
      · simp [acceptedCount, sendOne, synthetic, Offer.accepted, free]
      · simp [sendOne, Offer.after, synthetic]
  | false =>
      refine ⟨⟨?_, ?_⟩, ?_⟩
      · simp [sendOne, synthetic]
      · by_cases zero : pnode.backend.packetId = 0
        · simp [acceptedCount, sendOne, synthetic, Offer.accepted, free, settleVerdict, zero]
        · simp [acceptedCount, sendOne, synthetic, Offer.accepted, free, settleVerdict, zero,
            open_, Answer.handsBack]
      · simp [sendOne, Offer.after, synthetic]

theorem sendEach_counts (nodes : List LinuxNode) (env : Nat → UInt32 × SendTo) (s : Linux)
    (open_ : Unanswered nodes) : Counts s (sendEach env nodes s) (offers env nodes s.inject) := by
  induction nodes generalizing env s with
  | nil => exact Counts.none rfl rfl
  | cons pnode nodes ih =>
      obtain ⟨here, inject⟩ := sendOne_counts (env 0) (open_ pnode List.mem_cons_self) s
      have rest := ih (fun n => env (n + 1)) (s.sendOne (env 0) pnode)
        fun pac member => open_ pac (List.mem_cons_of_mem _ member)
      rw [inject] at rest
      exact here.trans rest

/-! ## A session -/

/-- The offers of a send: the main list from its tail. -/
def sendOffers (env : Nat → UInt32 × SendTo) (s : Linux) : List Offer :=
  offers env s.pipe.main.reverse s.inject

/-- The offers of a step of the modules. -/
def stepOffers (env : LinuxEnv) (s : Linux) : List Offer :=
  let out := s.pipe.runModules env.step
  if out.1.crashed then [] else sendOffers env.send { s with pipe := out.1 }

/-- The offers of one event. -/
def eventOffers (s : Linux) : Event → List Offer
  | .packet env alloc nfa =>
      match nfa.packetId, nfa.payload with
      | some id, some (byte :: bytes) =>
          let pktMeta := nfa.pktMeta (byte :: bytes)
          if (s.filterProg.any fun prog => !filterMatch prog pktMeta (byte :: bytes)) || !alloc
          then []
          else (s.capture id pktMeta (byte :: bytes)).stepOffers env
      | _, _ => []
  | .clock env => s.stepOffers env
  | .write _ => []

/-- The session so far, or with its shutdown when the clock thread has seen the stop. -/
def finish (s : Linux) : Option (Nat → UInt32 × SendTo) → Linux
  | none => s
  | some env => s.shutdown env

/-- The offers of the shutdown. -/
def finishOffers (s : Linux) : Option (Nat → UInt32 × SendTo) → List Offer
  | none => []
  | some env =>
      let out := s.pipe.closeModules
      if out.1.crashed then [] else sendOffers env { s with pipe := out.1 }

/-- The offers of a session. -/
def sessionOffers (s : Linux) (es : List Event) (stop : Option (Nat → UInt32 × SendTo)) :
    List Offer :=
  (machine.outputs eventOffers s es).flatten ++ (machine.run s es).finishOffers stop

/-- What the modules move was unanswered before, and clones always are. -/
theorem Unanswered.moves {p : Pipeline LinuxPacketMeta}
    {out : Pipeline LinuxPacketMeta × Effects LinuxPacketMeta} (open_ : Unanswered p.inside)
    (moves : p.Moves out) : Unanswered out.1.inside := by
  intro pac member
  have tag : pac.tag ∈ (p.inside ++ out.2.clones).map PacketNode.tag := by
    refine moves.tags.subset ?_
    exact List.mem_map_of_mem (List.mem_append_left _ member)
  obtain ⟨source, from_, same⟩ := List.mem_map.1 tag
  have blob : source.backend = pac.backend := congrArg (fun tag => tag.2.2.2) same
  rw [← blob]
  rcases List.mem_append.1 from_ with old | new
  · exact open_ source old
  · obtain ⟨_, clone⟩ := moves.clones source new
    rw [clone]
    rfl

/-- **Booking the modules' work and sending what they left.** -/
theorem send_counts {s : Linux} (open_ : Unanswered s.pipe.inside)
    {out : Pipeline LinuxPacketMeta × Effects LinuxPacketMeta} (moves : s.pipe.Moves out)
    (env : Nat → UInt32 × SendTo) :
    Counts s (({ s with pipe := out.1 }.record out.2).sendAllListPackets env)
        (sendOffers env { s with pipe := out.1 }) ∧
      Unanswered (({ s with pipe := out.1 }.record out.2).sendAllListPackets env).pipe.inside := by
  have left := open_.moves moves
  have main : Unanswered out.1.main.reverse := by
    intro pac member
    exact left pac (List.mem_append_left _ (List.mem_reverse.1 member))
  have recorded : Counts s
      { { s with pipe := out.1 }.record out.2 with pipe := { out.1 with main := [] } } [] := by
    refine Counts.none rfl ?_
    simp [acceptedCount, record, freed_handsBack]
  refine ⟨recorded.trans (sendEach_counts out.1.main.reverse env _ main), ?_⟩
  have sends := sendEach_sends out.1.main.reverse env
    { { s with pipe := out.1 }.record out.2 with pipe := { out.1 with main := [] } }
  have pipe : (({ s with pipe := out.1 }.record out.2).sendAllListPackets env).pipe =
      { out.1 with main := [] } := sends.pipe
  rw [pipe]
  intro pac member
  exact left pac (List.mem_append_right _ member)

theorem consumeStep_counts {s : Linux} (inv : s.pipe.Inv) (open_ : Unanswered s.pipe.inside)
    (env : LinuxEnv) :
    Counts s (s.divertConsumeStep env) (s.stepOffers env) ∧
      Unanswered (s.divertConsumeStep env).pipe.inside := by
  obtain ⟨after, moves⟩ := Pipeline.runModules_spec env.step inv
  have alive := after.alive
  unfold divertConsumeStep stepOffers
  simp only
  rw [if_neg (by simp [alive]), if_neg (by simp [alive])]
  exact send_counts open_ moves env.send

/-- A packet that is let through at once is none of `settleVerdict`'s. -/
theorem passThrough_counts (id : UInt32) (s : Linux) :
    Counts s ({ s with given := s.given ++ [id] }.passThrough id) [] := by
  refine Counts.none rfl ?_
  simp [acceptedCount, passThrough, Answer.handsBack]

/-- A packet that is put on the list is the one packet there. -/
theorem capture_counts {s : Linux} (booked : s.Booked) (open_ : Unanswered s.pipe.inside)
    (id : UInt32) (pktMeta : PacketMeta) (payload : Bytes) (env : LinuxEnv) :
    Counts s (({ s with given := s.given ++ [id] }.capture id pktMeta payload).divertConsumeStep
        env) ((s.capture id pktMeta payload).stepOffers env) ∧
      Unanswered (({ s with given := s.given ++ [id] }.capture id pktMeta
        payload).divertConsumeStep env).pipe.inside := by
  have captured : Unanswered
      ({ s with given := s.given ++ [id] }.capture id pktMeta payload).pipe.inside := by
    intro pac member
    rcases List.mem_append.1 member with main | held
    · rcases List.mem_append.1 main with old | new
      · exact open_ pac (List.mem_append_left _ old)
      · rw [List.mem_singleton.1 new]
        rfl
    · exact open_ pac (List.mem_append_right _ held)
  obtain ⟨counts, after⟩ :=
    consumeStep_counts (booked.capture id pktMeta payload).inv captured env
  exact ⟨⟨counts.sent, counts.accepted⟩, after⟩

/-- **One event.** -/
theorem step_counts {s : Linux} (booked : s.Booked) (open_ : Unanswered s.pipe.inside)
    (e : Event) :
    Counts s (s.step e) (eventOffers s e) ∧ Unanswered (s.step e).pipe.inside := by
  cases e with
  | packet env alloc nfa =>
      show Counts s (s.nfqCallback env alloc nfa) _ ∧
        Unanswered (s.nfqCallback env alloc nfa).pipe.inside
      unfold nfqCallback eventOffers
      split
      · rename_i none
        simp only [none]
        exact ⟨Counts.none rfl rfl, open_⟩
      · rename_i id some
        simp only [some]
        split
        · rename_i none
          simp only [none]
          exact ⟨passThrough_counts id s, open_⟩
        · rename_i empty
          simp only [empty]
          exact ⟨passThrough_counts id s, open_⟩
        · rename_i payload nonempty full
          cases payload with
          | nil => exact absurd rfl nonempty
          | cons byte bytes =>
              simp only [full]
              split
              · rename_i unmatched
                rw [if_pos (by rw [unmatched, Bool.true_or])]
                exact ⟨passThrough_counts id s, open_⟩
              · rename_i matched
                split
                · rename_i noMemory
                  rw [if_pos (by rw [noMemory, Bool.or_true])]
                  exact ⟨passThrough_counts id s, open_⟩
                · rename_i memory
                  rw [if_neg (by rw [Bool.or_eq_true, not_or]; exact ⟨matched, memory⟩)]
                  exact capture_counts booked open_ id _ _ env
  | clock env => exact consumeStep_counts booked.inv open_ env
  | write w =>
      obtain ⟨main, held⟩ := s.pipe.applyWrite_inside w
      refine ⟨Counts.none rfl rfl, ?_⟩
      show Unanswered ((s.pipe.applyWrite w).main ++ (s.pipe.applyWrite w).mods.held)
      rw [main, held]
      exact open_

theorem shutdown_counts {s : Linux} (booked : s.Booked) (open_ : Unanswered s.pipe.inside)
    (stop : Option (Nat → UInt32 × SendTo)) :
    Counts s (s.finish stop) (s.finishOffers stop) := by
  cases stop with
  | none => exact Counts.none rfl rfl
  | some env =>
      unfold finish finishOffers shutdown
      simp only
      by_cases closable : s.pipe.Closable
      · obtain ⟨after, moves, -⟩ := Pipeline.closeModules_spec booked.inv closable
        have alive := after.alive
        rw [if_neg (by simp [alive]), if_neg (by simp [alive])]
        exact (send_counts open_ moves env).1
      · have dies := Pipeline.closeModules_crashes booked.inv.alive closable
        rw [if_pos dies, if_pos dies]
        refine Counts.none rfl ?_
        simp [acceptedCount, record, freed_handsBack]

/-- **A whole run.** -/
theorem run_counts (es : List Event) {s : Linux} (booked : s.Booked)
    (open_ : Unanswered s.pipe.inside) :
    Counts s (machine.run s es) (machine.outputs eventOffers s es).flatten ∧
      (machine.run s es).Booked ∧ Unanswered (machine.run s es).pipe.inside := by
  induction es generalizing s with
  | nil => exact ⟨Counts.none rfl rfl, booked, open_⟩
  | cons e es ih =>
      obtain ⟨here, next⟩ := step_counts booked open_ e
      obtain ⟨rest, final⟩ := ih (booked_step booked e) next
      exact ⟨here.trans rest, final⟩

/-- The clones `injectRawPacket` returned 1 for.  The offers are those of the run itself: it
counted one packet for each and issued an accept verdict for those it accepted (`run_counts`), and
each stands with the state of the guard its packet was drained in (`sendOne_counts`). -/
def injectedCount (os : List Offer) : Nat := os.countP Offer.injected

/-- **The sent counter is the number of packets handed back exactly if every packet the drain
loop took was handed back.** -/
theorem sent_honest_iff {s : Linux} (fresh : s.Fresh) (zero : s.statsSentTotal = 0)
    (es : List Event) (stop : Option (Nat → UInt32 × SendTo)) :
    ((machine.run s es).finish stop).statsSentTotal =
        ((machine.run s es).finish stop).acceptedCount +
          injectedCount (s.sessionOffers es stop) ↔
      ∀ o ∈ s.sessionOffers es stop, o.HandedBack := by
  have start : Unanswered s.pipe.inside := by
    unfold Pipeline.inside
    intro pac member
    rcases List.mem_append.1 member with main | held
    · rw [fresh.main] at main
      cases main
    · obtain ⟨m, -, inBuffer⟩ := List.mem_flatMap.1 held
      rw [(fresh.buffers m).1] at inBuffer
      cases inBuffer
  obtain ⟨ran, booked, open_⟩ := run_counts es fresh.booked start
  have counts : Counts s _ (s.sessionOffers es stop) :=
    ran.trans (shutdown_counts booked open_ stop)
  have none : s.acceptedCount = 0 := by
    unfold acceptedCount
    rw [fresh.answers]
    rfl
  rw [counts.sent, counts.accepted, zero, none, Nat.zero_add, Nat.zero_add, injectedCount,
    countP_add_eq_length_iff Offer.not_both]
  simp only [Offer.handedBack_iff]

/-! ## An inbound packet with duplicate on -/

/-- `firstPacket`, but received. -/
def inboundPacket : NfqData := { firstPacket with indev := 2, outdev := 0 }

/-- A session with duplicate switched on. -/
def dupSession : Linux := initial (· == .dup) none

/-- The packet, after which the session stops. -/
def inboundRun : List Event := [.packet stillEnv true inboundPacket]

/-- Two packets are counted; one was handed back, and the other is a clone that was dropped. -/
theorem sent_counts_dropped :
    ((machine.run dupSession inboundRun).finish (some stillEnv.send)).statsSentTotal = 2 ∧
      ((machine.run dupSession inboundRun).finish (some stillEnv.send)).statsSentTotal ≠
        ((machine.run dupSession inboundRun).finish (some stillEnv.send)).acceptedCount +
          injectedCount (dupSession.sessionOffers inboundRun (some stillEnv.send)) := by
  refine ⟨?_, ?_⟩ <;> decide

/-- The characterisation at that run. -/
theorem sent_honest_iff_inbound :
    ((machine.run dupSession inboundRun).finish (some stillEnv.send)).statsSentTotal =
        ((machine.run dupSession inboundRun).finish (some stillEnv.send)).acceptedCount +
          injectedCount (dupSession.sessionOffers inboundRun (some stillEnv.send)) ↔
      ∀ o ∈ dupSession.sessionOffers inboundRun (some stillEnv.send), o.HandedBack :=
  sent_honest_iff (initial_fresh _ _) rfl inboundRun (some stillEnv.send)

end Linux

end Clumsy.Capture
