/-
# Capture.OneShot -- what becomes of blackout-trigger and reset-next

Both actions are accepted by the enabled flag and kept in the module's statics until
`process` serves them.  The start-up clears them, and it is not run by the write that sets
the flag but by the next step; so an action accepted before that step is lost, and so is
one whose module is closed and started again before it is served.

`one_shots_kept`: in every run of a session an action is served if the module was started
when it was accepted and no step since then found its flag clear.  For blackout it is
served only then.
-/
import Clumsy.Theory.Clock
import Clumsy.Capture.View
import Clumsy.Modules.ResetRun

namespace Clumsy.Capture

open Clumsy.Theory
open Clumsy.Packet
open Clumsy.Modules

set_option autoImplicit false

/-- A call of `blackoutProcess` switches by hand: it turns the phase over and starts it anew,
however long the one before has lasted. -/
def SwitchesByHand {β : Type} (env : ProcEnv) (main : List (PacketNode β)) (blackout : Blackout) :
    Prop :=
  ∀ start, let out := (blackoutProcess env main { blackout with phaseStart := start }).state
    out.currentPhase = blackout.currentPhase.toggle ∧ out.phaseStart = env.ticks 0

/-- A phase that has just begun goes on: the shortest ones last 100 ms. -/
theorem periodic_fresh {now : UInt32} {blackout : Blackout} (fresh : blackout.phaseStart = now) :
    blackout.periodic now = blackout := by
  have gap := @Clock.toNat_ofInt blackout.gapMs.val
    (by have := blackout.gapMs.lower; omega) (by have := blackout.gapMs.upper; omega)
  have duration := @Clock.toNat_ofInt blackout.durationMs.val
    (by have := blackout.durationMs.lower; omega) (by have := blackout.durationMs.upper; omega)
  have long : ¬now - blackout.phaseStart ≥ blackout.phaseLength := by
    rw [fresh, ge_iff_le, UInt32.le_iff_toNat_le, Clock.toNat_sub_self]
    have gapLower := blackout.gapMs.lower
    have durationLower := blackout.durationMs.lower
    unfold Blackout.phaseLength
    cases blackout.currentPhase <;> simp only <;> omega
  exact if_neg long

/-- The phase a call leaves is the one after the two transitions. -/
theorem blackoutProcess_phase {β : Type} (env : ProcEnv) (main : List (PacketNode β))
    (blackout : Blackout) :
    let moved := (blackout.manual (env.ticks 0)).periodic (env.ticks 0)
    let out := (blackoutProcess env main blackout).state
    out.currentPhase = moved.currentPhase ∧ out.phaseStart = moved.phaseStart := by
  simp only [blackoutProcess]
  split <;> exact ⟨rfl, rfl⟩

theorem switchesByHand_iff {β : Type} (env : ProcEnv) (main : List (PacketNode β))
    (blackout : Blackout) :
    SwitchesByHand env main blackout ↔ blackout.triggerPending = true := by
  constructor
  · intro switches
    by_contra idle
    -- a phase that begins with the call is not turned over
    obtain ⟨phase, -⟩ := switches (env.ticks 0)
    obtain ⟨same, -⟩ := blackoutProcess_phase env main
      { blackout with phaseStart := env.ticks 0 }
    have still : Blackout.manual (env.ticks 0) { blackout with phaseStart := env.ticks 0 } =
        { blackout with phaseStart := env.ticks 0 } := if_neg idle
    simp only [still, periodic_fresh] at same
    have turned := same.symm.trans phase
    cases now : blackout.currentPhase <;> simp [now, Phase.toggle] at turned
  · intro pending start
    obtain ⟨phase, began⟩ := blackoutProcess_phase env main { blackout with phaseStart := start }
    have toggled : Blackout.manual (env.ticks 0) { blackout with phaseStart := start } =
        { blackout with
          triggerPending := false
          currentPhase := blackout.currentPhase.toggle
          phaseStart := env.ticks 0 } := if_pos pending
    simp only [toggled, periodic_fresh] at phase began
    exact ⟨phase, began⟩

namespace Linux

/-- `blackout-trigger=true`. -/
def blackoutTrigger : Event := .write (.param (.blackout (.trigger true)))

/-- `reset-next=true`. -/
def resetNext : Event := .write (.param (.reset (.next true)))

/-! ## What happens until an action is served -/

/-- No step serves the module. -/
def unserved (m : ModuleId) : Machine Linux Event where
  step := step
  admits s e := s.served m e = none

/-- No step finds the module's flag clear. -/
def running (m : ModuleId) : Machine Linux Event where
  step := step
  admits s e := s.consumes e = none ∨ s.pipe.enabled m = true

/-- `resetProcess` comes upon no eligible packet. -/
def packetless : Machine Linux Event where
  step := step
  admits s e := ∀ env q, s.served .reset e = some (env, q) →
    ∀ pac ∈ q.main, q.mods.reset.eligible pac = false

/-- No `reset-next` wraps the count to 0. -/
def unwrapped : Machine Linux Event where
  step := step
  admits
    | s, .write (.param (.reset (.next true))) =>
        s.pipe.enabled .reset = true → i2s (s.pipe.mods.reset.setNextCount + 1) ≠ 0
    | _, _ => True

variable {γ : Type} {m : ModuleId}

/-- A module nobody serves is started as long as no step closes it. -/
theorem started_iff_running (V : View LinuxPacketMeta m γ) (es : List Event) {s : Linux}
    (booked : s.Booked) (admissible : (unserved m).Admissible s es) :
    (machine.run s es).pipe.lastEnabled m = true ↔
      s.pipe.lastEnabled m = true ∧ (running m).Admissible s es := by
  induction es generalizing s with
  | nil => exact (and_iff_left trivial).symm
  | cons e es ih =>
      have rest := ih (booked_step booked e) admissible.2
      have here : s.served m e = none := admissible.1
      refine rest.trans ?_
      rcases step_view V booked e with ⟨env, q, served, -⟩ | ⟨-, consumes, closes⟩ |
        ⟨-, consumes, quiet⟩
      · cases here.symm.trans served
      · refine iff_of_false ?_ ?_
        · rintro ⟨started, -⟩
          exact absurd (closes.stopped.symm.trans started) Bool.false_ne_true
        · rintro ⟨-, runs, -⟩
          exact absurd (closes.off.symm.trans (runs.resolve_left consumes)) Bool.false_ne_true
      · have last : (s.step e).pipe.lastEnabled = s.pipe.lastEnabled := by
          rcases quiet with ⟨w, rfl⟩ | same
          · cases w <;> rfl
          · rw [same]
        rw [last]
        exact and_congr_right fun _ => ⟨fun runs => ⟨.inl consumes, runs⟩, And.right⟩

/-! ## blackout-trigger -/

/-- The trigger is pending if the module is started. -/
def TriggerPends (s : Linux) : Prop :=
  s.pipe.lastEnabled .blackout = true → s.pipe.mods.blackout.triggerPending = true

theorem triggerPends_step {s : Linux} (booked : s.Booked) (pends : s.TriggerPends) (e : Event)
    (unserved : s.served .blackout e = none) : (s.step e).TriggerPends := by
  rcases step_view (blackoutView LinuxPacketMeta) booked e with ⟨env, q, served, -⟩ |
    ⟨-, -, closes⟩ | ⟨-, -, quiet⟩
  · cases unserved.symm.trans served
  · exact fun started => absurd (closes.stopped.symm.trans started) Bool.false_ne_true
  · rcases quiet with ⟨w, rfl⟩ | same
    · intro started
      cases w with
      | enable _ _ => exact pends started
      | param w =>
          have pending := pends started
          show (setParam s.pipe.enabled s.pipe.mods w).blackout.triggerPending = true
          cases w with
          | blackout p =>
              show (blackoutSetParam _ s.pipe.mods.blackout p).triggerPending = true
              unfold blackoutSetParam
              cases p with
              | trigger on =>
                  simp only
                  split
                  · rfl
                  · exact pending
              | _ => exact pending
          | _ => exact pending
    · unfold TriggerPends
      rw [same]
      exact pends

theorem triggerPends_accepted {s : Linux} (accepted : s.pipe.enabled .blackout = true) :
    (s.step blackoutTrigger).TriggerPends := by
  intro _
  show (blackoutSetParam (s.pipe.enabled .blackout) s.pipe.mods.blackout
    (.trigger true)).triggerPending = true
  rw [accepted]
  rfl

/-- **A trigger that was accepted** is served exactly if the module was started and nothing
closed it since. -/
theorem blackoutTrigger_served {s : Linux} (booked : s.Booked)
    (accepted : s.pipe.enabled .blackout = true) (between : List Event)
    (waits : (unserved .blackout).Admissible (s.step blackoutTrigger) between) {e : Event}
    {env : ProcEnv} {q : Pipeline LinuxPacketMeta}
    (served : (machine.run (s.step blackoutTrigger) between).served .blackout e = some (env, q)) :
    ((machine.run (s.step blackoutTrigger) between).step e).pipe.mods.blackout =
        (blackoutProcess env q.main q.mods.blackout).state ∧
      (SwitchesByHand env q.main q.mods.blackout ↔
        s.pipe.lastEnabled .blackout = true ∧
          (running .blackout).Admissible (s.step blackoutTrigger) between) := by
  have booked' := booked_step booked blackoutTrigger
  have started := started_iff_running (blackoutView LinuxPacketMeta) between booked' waits
  have once : ∀ s e, s.Booked ∧ s.TriggerPends → (unserved .blackout).admits s e →
      (step s e).Booked ∧ (step s e).TriggerPends :=
    fun s e inv waits => ⟨booked_step inv.1 e, triggerPends_step inv.1 inv.2 e waits⟩
  obtain ⟨books, pends⟩ := (unserved .blackout).run_invariant once between _
    ⟨booked', triggerPends_accepted accepted⟩ waits
  change (machine.run (s.step blackoutTrigger) between).Booked at books
  change (machine.run (s.step blackoutTrigger) between).TriggerPends at pends
  have serves := serves_of_served (blackoutView LinuxPacketMeta) books served
  obtain ⟨tick, found⟩ := serves.found
  have found : q.mods.blackout = _ := found
  refine ⟨serves.worked, Iff.trans ?_ started⟩
  rw [switchesByHand_iff, found]
  cases last : (machine.run (s.step blackoutTrigger) between).pipe.lastEnabled .blackout with
  | true => exact iff_of_true (pends last) rfl
  | false => exact iff_of_false Bool.false_ne_true Bool.false_ne_true

/-! ## reset-next -/

/-- The module is started and has RSTs to set. -/
def ResetPends (s : Linux) : Prop :=
  s.pipe.lastEnabled .reset = true ∧ s.pipe.mods.reset.setNextCount ≠ 0

theorem resetPends_write {s : Linux} (pends : s.ResetPends) (w : Pipeline.Write)
    (room : unwrapped.admits s (.write w)) : (s.step (.write w)).ResetPends := by
  cases w with
  | enable _ _ => exact pends
  | param w =>
      refine ⟨pends.1, ?_⟩
      have pending := pends.2
      show (setParam s.pipe.enabled s.pipe.mods w).reset.setNextCount ≠ 0
      cases w with
      | reset p =>
          show (resetSetParam _ s.pipe.mods.reset p).setNextCount ≠ 0
          cases p with
          | next on =>
              unfold resetSetParam
              simp only
              split
              · rename_i accepted
                obtain ⟨rfl, on⟩ := Bool.and_eq_true_iff.1 accepted
                exact room on
              · exact pending
          | _ => exact pending
      | _ => exact pending

theorem resetPends_step {s : Linux} (booked : s.Booked) (pends : s.ResetPends) (e : Event)
    (runs : (running .reset).admits s e) (none : packetless.admits s e)
    (room : unwrapped.admits s e) : (s.step e).ResetPends := by
  rcases step_view (resetView LinuxPacketMeta) booked e with ⟨env, q, served, serves⟩ |
    ⟨-, consumes, closes⟩ | ⟨-, -, ⟨w, rfl⟩ | same⟩
  · obtain ⟨tick, found⟩ := serves.found
    rw [pends.1, if_pos rfl] at found
    have found : q.mods.reset = s.pipe.mods.reset := found
    have worked : (s.step e).pipe.mods.reset = (resetProcess env q.main q.mods.reset).state :=
      serves.worked
    refine ⟨serves.started, ?_⟩
    rw [worked]
    have counts := (Reset.rewriteEach_ineligible (none env q served)
      (env.draws, q.mods.reset.setNextCount, 0)).1
    have count : (resetProcess env q.main q.mods.reset).state.setNextCount =
        q.mods.reset.setNextCount := congrArg Prod.fst counts
    rw [count, found]
    exact pends.2
  · exact absurd (closes.off.symm.trans (runs.resolve_left consumes)) Bool.false_ne_true
  · exact resetPends_write pends w room
  · unfold ResetPends
    rw [same]
    exact pends

/-- **A reset-next that was accepted** is served if the module was started, nothing closed it
since, and the count was not wrapped to 0. -/
theorem resetNext_served {s : Linux} (booked : s.Booked) (accepted : s.pipe.enabled .reset = true)
    (started : s.pipe.lastEnabled .reset = true)
    (room : i2s (s.pipe.mods.reset.setNextCount + 1) ≠ 0) (between : List Event)
    (runs : (running .reset).Admissible (s.step resetNext) between)
    (none : packetless.Admissible (s.step resetNext) between)
    (rooms : unwrapped.Admissible (s.step resetNext) between) {e : Event}
    {env : ProcEnv} {q : Pipeline LinuxPacketMeta}
    (served : (machine.run (s.step resetNext) between).served .reset e = some (env, q))
    {xs ys : List LinuxNode} {pac : LinuxNode} (main : q.main = xs ++ pac :: ys)
    (before : ∀ pac ∈ xs, q.mods.reset.eligible pac = false)
    (eligible : q.mods.reset.eligible pac = true) :
    ∃ rest, (resetProcess env q.main q.mods.reset).main = xs ++ Reset.withRst pac :: rest := by
  have pends : (s.step resetNext).ResetPends := by
    refine ⟨started, ?_⟩
    show (resetSetParam (s.pipe.enabled .reset) s.pipe.mods.reset (.next true)).setNextCount ≠ 0
    rw [accepted]
    exact room
  have once : ∀ s e, s.Booked ∧ s.ResetPends →
      ((running .reset).admits s e ∧ packetless.admits s e) ∧ unwrapped.admits s e →
      (step s e).Booked ∧ (step s e).ResetPends :=
    fun s e inv admits => ⟨booked_step inv.1 e,
      resetPends_step inv.1 inv.2 e admits.1.1 admits.1.2 admits.2⟩
  have admissible := Machine.admissible_and _ between
    ((running .reset).admissible_and between runs none) rooms
  obtain ⟨books, pends⟩ := Machine.run_invariant _ once between _
    ⟨booked_step booked resetNext, pends⟩ admissible
  change (machine.run (s.step resetNext) between).Booked at books
  change (machine.run (s.step resetNext) between).ResetPends at pends
  obtain ⟨tick, found⟩ := (serves_of_served (resetView LinuxPacketMeta) books served).found
  rw [pends.1, if_pos rfl] at found
  have found : q.mods.reset = (machine.run (s.step resetNext) between).pipe.mods.reset := found
  rw [main]
  exact Reset.resetProcess_next (by rw [found]; exact pends.2) before eligible ys env

/-- **One-shot actions.**  In every run of a session, over any writes and steps: an accepted
blackout-trigger makes the next call of `blackoutProcess` switch by hand exactly if blackout
was started when it was accepted and no step before that call found its flag clear; an
accepted reset-next makes the next eligible packet carry RST under the same condition, while
the count is not brought to a multiple of 65536. -/
theorem one_shots_kept {s : Linux} (fresh : s.Fresh) (es between : List Event) (e : Event)
    (env : ProcEnv) (q : Pipeline LinuxPacketMeta) :
    ((machine.run s es).pipe.enabled .blackout = true →
      (unserved .blackout).Admissible ((machine.run s es).step blackoutTrigger) between →
      (machine.run ((machine.run s es).step blackoutTrigger) between).served .blackout e =
        some (env, q) →
      ((machine.run ((machine.run s es).step blackoutTrigger) between).step e).pipe.mods.blackout =
          (blackoutProcess env q.main q.mods.blackout).state ∧
        (SwitchesByHand env q.main q.mods.blackout ↔
          (machine.run s es).pipe.lastEnabled .blackout = true ∧
            (running .blackout).Admissible ((machine.run s es).step blackoutTrigger) between)) ∧
    ((machine.run s es).pipe.enabled .reset = true →
      (machine.run s es).pipe.lastEnabled .reset = true →
      i2s ((machine.run s es).pipe.mods.reset.setNextCount + 1) ≠ 0 →
      (running .reset).Admissible ((machine.run s es).step resetNext) between →
      unwrapped.Admissible ((machine.run s es).step resetNext) between →
      packetless.Admissible ((machine.run s es).step resetNext) between →
      (machine.run ((machine.run s es).step resetNext) between).served .reset e = some (env, q) →
      ∀ xs pac ys, q.main = xs ++ pac :: ys → (∀ pac ∈ xs, q.mods.reset.eligible pac = false) →
        q.mods.reset.eligible pac = true →
        ∃ rest, (resetProcess env q.main q.mods.reset).main = xs ++ Reset.withRst pac :: rest) := by
  have booked := booked_run fresh es
  refine ⟨?_, ?_⟩
  · intro accepted waits served
    exact blackoutTrigger_served booked accepted between waits served
  · intro accepted started room runs rooms none served xs pac ys main before eligible
    exact resetNext_served booked accepted started room between runs none rooms served main before
      eligible

/-- A session with blackout and reset switched on. -/
def armedSession : Linux := initial (fun m => m == .blackout || m == .reset) none

/-- A TCP segment from the queue. -/
def segmentPacket : NfqData := { firstPacket with payload := some bareAck }

/-- Once both modules are started a trigger toggles the phase, and a reset-next sets RST in
the next segment. -/
theorem one_shots_kept_started :
    (∃ env q, ((machine.run armedSession [.clock stillEnv]).step blackoutTrigger).served .blackout
        (.clock stillEnv) = some (env, q) ∧ SwitchesByHand env q.main q.mods.blackout) ∧
      ∃ env q, ((machine.run armedSession [.clock stillEnv]).step resetNext).served .reset
        (.packet stillEnv true segmentPacket) = some (env, q) ∧
        ∃ pac rest, q.main = [pac] ∧
          (resetProcess env q.main q.mods.reset).main = Reset.withRst pac :: rest := by
  refine ⟨?_, ?_⟩
  · obtain ⟨⟨env, q⟩, served⟩ := Option.isSome_iff_exists.1 (by decide :
      (((machine.run armedSession [.clock stillEnv]).step blackoutTrigger).served .blackout
        (.clock stillEnv)).isSome = true)
    refine ⟨env, q, served, ?_⟩
    exact ((one_shots_kept (initial_fresh _ _) [.clock stillEnv] [] (.clock stillEnv) env q).1
      (by decide) trivial served).2.2 ⟨by decide, trivial⟩
  · obtain ⟨⟨env, q⟩, served⟩ := Option.isSome_iff_exists.1 (by decide :
      (((machine.run armedSession [.clock stillEnv]).step resetNext).served .reset
        (.packet stillEnv true segmentPacket)).isSome = true)
    have facts : ((((machine.run armedSession [.clock stillEnv]).step resetNext).served .reset
        (.packet stillEnv true segmentPacket)).all fun found =>
          decide (found.2.main.length = 1) &&
            found.2.main.all found.2.mods.reset.eligible) = true := by decide
    rw [served] at facts
    obtain ⟨single, eligible⟩ := Bool.and_eq_true_iff.1 facts
    obtain ⟨pac, main⟩ := List.length_eq_one_iff.1 (of_decide_eq_true single)
    have eligible : q.main.all q.mods.reset.eligible = true := eligible
    rw [main, List.all_cons, List.all_nil, Bool.and_true] at eligible
    obtain ⟨rest, sent⟩ := (one_shots_kept (initial_fresh _ _) [.clock stillEnv] []
      (.packet stillEnv true segmentPacket) env q).2 (by decide) (by decide) (by decide) trivial
      trivial trivial served [] pac [] main (by simp) eligible
    exact ⟨env, q, served, pac, rest, main, sent⟩

/-- Switching blackout on and triggering it before the next step: the step's start-up clears
the trigger. -/
theorem one_shot_lost :
    ¬∀ (s : Linux) (es between : List Event) (e : Event) (env : ProcEnv)
        (q : Pipeline LinuxPacketMeta), s.Fresh →
      (machine.run s es).pipe.enabled .blackout = true →
      (unserved .blackout).Admissible ((machine.run s es).step blackoutTrigger) between →
      (machine.run ((machine.run s es).step blackoutTrigger) between).served .blackout e =
        some (env, q) →
      SwitchesByHand env q.main q.mods.blackout := by
  intro claim
  obtain ⟨⟨env, q⟩, served⟩ := Option.isSome_iff_exists.1 (by decide :
    (((machine.run (initial (fun _ => false) none) [.write (.enable .blackout true)]).step
      blackoutTrigger).served .blackout (.clock stillEnv)).isSome = true)
  have kept := (switchesByHand_iff _ _ _).1 (claim _ [.write (.enable .blackout true)] []
    (.clock stillEnv) env q (initial_fresh _ _) (by decide) trivial served)
  have lost : ((((machine.run (initial (fun _ => false) none)
      [.write (.enable .blackout true)]).step blackoutTrigger).served .blackout
        (.clock stillEnv)).all fun found => !found.2.mods.blackout.triggerPending) = true := by
    decide
  rw [served] at lost
  simp [kept] at lost

end Linux

end Clumsy.Capture
