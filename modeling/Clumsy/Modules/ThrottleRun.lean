/-
# Modules.ThrottleRun -- when a throttle strands packets

`throttleStartTick` is both the instant a throttle started and, as 0, the mark of
"not throttling".  `throttleRun_iff` says what comes of that, over every run: after
every call a zero tick means an empty buffer, and what a call leaves held is below
`KEEP_AT_MOST` and no older than the frame, if and only if no throttle starts at a
reading of 0 and then keeps packets, and no `startUp` meets a filled buffer (which
it asserts).
-/
import Clumsy.Theory.Run
import Clumsy.Theory.Clock
import Clumsy.Modules.Params

namespace Clumsy.Modules

open Clumsy.Theory
open Clumsy.Packet

set_option autoImplicit false

variable {β : Type}

inductive ThrottleEvent (β : Type) where
  | startUp
  | process (env : ProcEnv) (main : List (PacketNode β))
  | closeDown (main : List (PacketNode β))
  | setParam (key value : List Char)

namespace Throttle

/-- The first `startUp` of the process, under any parameters. -/
def started (throttle : Throttle β) : Throttle β :=
  throttleStartUp { throttle with buf := .unlinked }

def step (s : Throttle β) : ThrottleEvent β → Throttle β
  | .startUp => throttleStartUp s
  | .process env main => (throttleProcess env main s).state
  | .closeDown main => (throttleCloseDown main s).state
  | .setParam key value => ((throttleChain.read key value).map (throttleSetParam s)).getD s

/-- A new throttle starts in this call. -/
def starts (env : ProcEnv) (main : List (PacketNode β)) (s : Throttle β) : Bool :=
  decide (s.throttleStartTick = 0) && !main.isEmpty && (calcChance s.chance.val env.draws).1

/-- The reading a call compares with `throttleStartTick`. -/
def currentTick (env : ProcEnv) (main : List (PacketNode β)) (s : Throttle β) : UInt32 :=
  if s.starts env main then env.ticks 1 else env.ticks 0

/-- A throttle starts at a reading of 0, takes packets in and does not end at once. -/
def Strands (env : ProcEnv) (main : List (PacketNode β)) (s : Throttle β) : Prop :=
  s.starts env main = true ∧ env.ticks 0 = 0 ∧ 0 < main.countP s.handles ∧
    main.countP s.handles < 1000 ∧ ((env.ticks 1).toNat : Int) ≤ s.throttleFrame.val

instance (env : ProcEnv) (main : List (PacketNode β)) (s : Throttle β) :
    Decidable (s.Strands env main) := inferInstanceAs (Decidable (_ ∧ _))

def machine : Machine (Throttle β) (ThrottleEvent β) where
  step := step
  admits
    | s, .startUp => s.buf.nodes = []
    | s, .process env main => ¬s.Strands env main
    | _, _ => True

/-- Outside a throttle nothing is held. -/
def Quiet (s : Throttle β) : Prop := s.throttleStartTick = 0 → s.buf.nodes = []

instance (s : Throttle β) : Decidable s.Quiet := inferInstanceAs (Decidable (_ → _))

/-- What is held is below the cap, and the frame is not over. -/
def Framed (now : UInt32) (s : Throttle β) : Prop :=
  s.buf.nodes ≠ [] →
    s.buf.nodes.length < 1000 ∧ ((now - s.throttleStartTick).toNat : Int) ≤ s.throttleFrame.val

/-- What is promised of a call. -/
def Promised (s : Throttle β) (e : ThrottleEvent β) : Prop :=
  (s.step e).Quiet ∧ ∀ env main, e = .process env main →
    (s.step e).Framed (s.currentTick env main)

/-! ## One call -/

/-- What holds between the calls of a run that strands nothing. -/
structure Inv (s : Throttle β) : Prop where
  linked  : s.buf.linked = true
  counted : s.buf.Counted
  below   : s.buf.nodes.length < 1000
  quiet   : s.Quiet

theorem started_inv (throttle : Throttle β) : (started throttle).Inv := by
  have empty : (started throttle).buf.nodes = [] :=
    Buffer.startUp_nodes Buffer.counted_unlinked
  refine ⟨Buffer.startUp_linked _, Buffer.startUp_counted Buffer.counted_unlinked, ?_,
    fun _ => empty⟩
  rw [empty]
  exact Nat.zero_lt_succ 999

section Step

variable {s : Throttle β}

/-- A throttle step ends the throttle, or fills the buffer within the cap and the frame. -/
theorem throttleStep_ends (tick : UInt32) (throttled : Bool) (main : List (PacketNode β)) :
    let out := s.throttleStep tick throttled main
    (out.state.buf.nodes = [] ∧ out.state.throttleStartTick = 0 ∧
        (1000 ≤ (s.fill main).2.1.buf.bufSize ∨
          s.throttleFrame.val < (tick - s.throttleStartTick).toNat)) ∨
      (out.state.buf = (s.fill main).2.1.buf ∧ out.state.throttleStartTick = s.throttleStartTick ∧
        out.state.throttleFrame = s.throttleFrame ∧
        (s.fill main).2.1.buf.bufSize < 1000 ∧
        ((tick - s.throttleStartTick).toNat : Int) ≤ s.throttleFrame.val) := by
  have lower := s.throttleFrame.lower
  have upper := s.throttleFrame.upper
  have frame := @Clock.toNat_ofInt s.throttleFrame.val (by omega) (by omega)
  simp only [throttleStep]
  split
  · rename_i expired
    simp only [KEEP_AT_MOST, ge_iff_le, gt_iff_lt, UInt32.lt_iff_toNat_lt] at expired
    refine Or.inl ⟨?_, rfl, by omega⟩
    cases s.dropThrottled <;> rfl
  · rename_i lasting
    simp only [KEEP_AT_MOST, not_or, ge_iff_le, gt_iff_lt, not_le, UInt32.lt_iff_toNat_lt,
      not_lt] at lasting
    exact Or.inr ⟨rfl, rfl, rfl, lasting.1, by omega⟩

theorem fill_length (main : List (PacketNode β)) (counted : s.buf.Counted)
    (empty : s.buf.nodes = []) :
    (s.fill main).2.1.buf.nodes.length = min 1000 (main.countP s.handles) := by
  have size := counted.1
  obtain ⟨taken, nodes, -, count⟩ := @pickUp_nodes β Unit s.handles KEEP_AT_MOST
    (fun _ pac => ((), pac)) () { main, buf := s.buf } (fun _ => True) (fun _ _ => trivial)
  have nodes : (s.fill main).2.1.buf.nodes = taken ++ s.buf.nodes := nodes
  rw [nodes, empty, List.append_nil, count]
  simp [size, empty, KEEP_AT_MOST]

/-- The three ways a call goes: a throttle starts, none runs, one goes on. -/
theorem process_cases (env : ProcEnv) (main : List (PacketNode β)) :
    (s.starts env main = true ∧ s.throttleStartTick = 0 ∧
        throttleProcess env main s =
          (s.startedAt (env.ticks 0)).throttleStep (env.ticks 1) true main) ∨
      (s.starts env main = false ∧ s.throttleStartTick = 0 ∧
        (throttleProcess env main s).state = s) ∨
      (s.starts env main = false ∧ s.throttleStartTick ≠ 0 ∧
        throttleProcess env main s = s.throttleStep (env.ticks 0) false main) := by
  unfold throttleProcess
  by_cases idle : s.throttleStartTick = 0
  · rw [if_pos idle]
    cases coin : !main.isEmpty && (calcChance s.chance.val env.draws).1 with
    | true => exact Or.inl ⟨by simp [starts, idle, coin], idle, rfl⟩
    | false => exact Or.inr (Or.inl ⟨by simp [starts, idle, coin], idle, rfl⟩)
  · rw [if_neg idle]
    exact Or.inr (Or.inr ⟨by simp [starts, idle], idle, rfl⟩)

/-- **A call that starts a throttle** keeps its promise unless it strands packets. -/
theorem process_starting (inv : s.Inv) (env : ProcEnv) (main : List (PacketNode β))
    (starts : s.starts env main = true) (idle : s.throttleStartTick = 0) :
    let after := ((s.startedAt (env.ticks 0)).throttleStep (env.ticks 1) true main).state
    (after.Quiet ∧ after.Framed (env.ticks 1)) ↔ ¬s.Strands env main := by
  intro after
  have counted : (s.startedAt (env.ticks 0)).buf.Counted := inv.counted
  have filled := fill_length main counted (inv.quiet idle)
  have size := (@fill_counted β (s.startedAt (env.ticks 0)) inv.linked counted main).1
  have step := @throttleStep_ends β (s.startedAt (env.ticks 0)) (env.ticks 1) true main
  have handled : (s.startedAt (env.ticks 0)).handles = s.handles := rfl
  simp only [handled] at filled
  rcases step with ⟨empty, zero, expired⟩ | ⟨buffer, tick, frame, room, lasting⟩
  · have promised : after.Quiet ∧ after.Framed (env.ticks 1) :=
      ⟨fun _ => empty, fun held => absurd empty held⟩
    refine iff_of_true promised ?_
    rintro ⟨-, instant, -, few, short⟩
    rcases expired with full | late
    · omega
    · have late : s.throttleFrame.val < (env.ticks 1 - env.ticks 0).toNat := late
      rw [instant, UInt32.sub_zero] at late
      omega
  · have framed : after.Framed (env.ticks 1) := by
      intro _
      have buffer : after.buf = _ := buffer
      have tick : after.throttleStartTick = env.ticks 0 := tick
      have frame : after.throttleFrame = s.throttleFrame := frame
      rw [buffer, tick, frame]
      exact ⟨by omega, lasting⟩
    rw [and_iff_left framed]
    constructor
    · rintro quiet ⟨-, instant, some_, few, short⟩
      have nothing := quiet (tick.trans instant)
      have buffer : after.buf = _ := buffer
      rw [buffer] at nothing
      rw [nothing] at filled
      simp only [List.length_nil] at filled
      omega
    · intro kept zero
      have instant : env.ticks 0 = 0 := tick.symm.trans zero
      have lasting : ((env.ticks 1 - env.ticks 0).toNat : Int) ≤ s.throttleFrame.val := lasting
      rw [instant, UInt32.sub_zero] at lasting
      have buffer : after.buf = _ := buffer
      rw [buffer]
      apply List.eq_nil_of_length_eq_zero
      by_contra nonempty
      exact kept ⟨starts, instant, by omega, by omega, lasting⟩

/-- **A call while a throttle runs** always keeps its promise. -/
theorem process_running (inv : s.Inv) (env : ProcEnv) (main : List (PacketNode β))
    (running : s.throttleStartTick ≠ 0) :
    let after := (s.throttleStep (env.ticks 0) false main).state
    after.Quiet ∧ after.Framed (env.ticks 0) := by
  intro after
  have size := (fill_counted inv.linked inv.counted main).1
  rcases @throttleStep_ends β s (env.ticks 0) false main with
    ⟨empty, -, -⟩ | ⟨buffer, tick, frame, room, lasting⟩
  · exact ⟨fun _ => empty, fun held => absurd empty held⟩
  · refine ⟨fun zero => absurd (tick.symm.trans zero) running, fun _ => ?_⟩
    have buffer : after.buf = _ := buffer
    have tick : after.throttleStartTick = s.throttleStartTick := tick
    have frame : after.throttleFrame = s.throttleFrame := frame
    rw [buffer, tick, frame]
    exact ⟨by omega, lasting⟩

theorem setParam_kept (key value : List Char) :
    (s.step (.setParam key value)).buf = s.buf ∧
      (s.step (.setParam key value)).throttleStartTick = s.throttleStartTick := by
  simp only [step]
  cases throttleChain.read key value with
  | none => exact ⟨rfl, rfl⟩
  | some p => cases p <;> exact ⟨rfl, rfl⟩

/-- **A call keeps its promise exactly when it strands nothing.** -/
theorem promised_iff (inv : s.Inv) (e : ThrottleEvent β) :
    s.Promised e ↔ machine.admits s e := by
  unfold Promised
  cases e with
  | startUp =>
      have nodes : (s.step .startUp).buf.nodes = s.buf.nodes := Buffer.startUp_nodes inv.counted
      constructor
      · intro promised
        have empty := promised.1 rfl
        rw [nodes] at empty
        exact empty
      · intro empty
        exact ⟨fun _ => nodes.trans empty, fun _ _ other => by cases other⟩
  | closeDown main =>
      refine iff_of_true ⟨fun _ => ?_, fun _ _ other => by cases other⟩ trivial
      exact flushBehind_nodes { main, buf := s.buf }
  | setParam key value =>
      obtain ⟨buffer, tick⟩ := @setParam_kept β s key value
      refine iff_of_true ⟨fun zero => ?_, fun _ _ other => by cases other⟩ trivial
      rw [buffer]
      exact inv.quiet (tick ▸ zero)
  | process env main =>
      have one : (∀ env' main', ThrottleEvent.process env main = .process env' main' →
          (s.step (.process env main)).Framed (s.currentTick env' main')) ↔
            (s.step (.process env main)).Framed (s.currentTick env main) := by
        constructor
        · intro all
          exact all env main rfl
        · intro framed env' main' same
          cases same
          exact framed
      rw [one]
      show (throttleProcess env main s).state.Quiet ∧
        (throttleProcess env main s).state.Framed (s.currentTick env main) ↔ ¬s.Strands env main
      rcases @process_cases β s env main with
        ⟨starts, idle, out⟩ | ⟨starts, idle, out⟩ | ⟨starts, running, out⟩
      · rw [out, currentTick, if_pos starts]
        exact process_starting inv env main starts idle
      · have empty := inv.quiet idle
        rw [out]
        refine iff_of_true ⟨fun _ => empty, fun held => absurd empty held⟩ ?_
        rintro ⟨started, -⟩
        exact absurd (starts.symm.trans started) Bool.false_ne_true
      · rw [out, currentTick, if_neg (by simp [starts])]
        refine iff_of_true (process_running inv env main running) ?_
        rintro ⟨started, -⟩
        exact absurd (starts.symm.trans started) Bool.false_ne_true

theorem step_inv (inv : s.Inv) (e : ThrottleEvent β) (admits : machine.admits s e) :
    (s.step e).Inv := by
  have quiet : (s.step e).Quiet := ((promised_iff inv e).2 admits).1
  cases e with
  | startUp =>
      refine ⟨Buffer.startUp_linked _, Buffer.startUp_counted inv.counted, ?_, quiet⟩
      show s.buf.startUp.nodes.length < 1000
      rw [Buffer.startUp_nodes inv.counted]
      exact inv.below
  | closeDown main =>
      refine ⟨inv.linked, @flushBehind_counted β { main, buf := s.buf } inv.counted, ?_, quiet⟩
      exact Nat.zero_lt_succ 999
  | setParam key value =>
      obtain ⟨buffer, -⟩ := @setParam_kept β s key value
      obtain ⟨linked, counted, below, -⟩ := inv
      rw [← buffer] at linked counted below
      exact ⟨linked, counted, below, quiet⟩
  | process env main =>
      obtain ⟨counted, below⟩ := throttleProcess_sizes env main inv.linked inv.counted inv.below
      exact ⟨(throttleProcess_linked env main s).trans inv.linked, counted, below, quiet⟩

end Step

/-! ## Runs -/

/-- **Every call of a run keeps its promise, if and only if none strands packets.** -/
theorem throttleRun_iff (throttle : Throttle β) (es : List (ThrottleEvent β)) :
    (∀ before e, before ++ [e] <+: es → (machine.run (started throttle) before).Promised e) ↔
      machine.Admissible (started throttle) es :=
  machine.forall_step_iff_admissible (fun _ e inv => promised_iff inv e)
    (fun _ e inv admits => step_inv inv e admits) es (started_inv throttle)

/-- A throttle that starts when the tick is 0 takes a packet in and looks as if it had
not started. -/
theorem throttle_strands :
    ¬∀ (throttle : Throttle Unit) (es before : List (ThrottleEvent Unit)) (e : ThrottleEvent Unit),
      before ++ [e] <+: es → (machine.run (started throttle) before).Promised e := by
  intro claim
  have promised := claim .initial [.process (.still 0) [outgoing 0]] [] _ (List.prefix_refl _)
  exact absurd promised.1 (by decide)

end Throttle

end Clumsy.Modules
