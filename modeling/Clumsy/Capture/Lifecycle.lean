/-
# Capture.Lifecycle -- startUp, process and closeDown over many sessions

A process runs any number of capture sessions one after another.  Both backends
drive the modules the same way: `divertStart` forgets which modules were started,
each step starts and closes modules by their flags, and the shutdown closes
whatever is switched on.  How packets are sent plays no part, so a step here just
empties the main list.

`log` is the sequence of calls the modules received.  It is `Proper` when every
`process` and `closeDown` goes to a module that was started in the same session
and not closed since.  `lifecycle_iff` says which runs have a proper log.
-/
import Clumsy.Capture.Session

namespace Clumsy.Capture

open Clumsy.Theory
open Clumsy.Packet
open Clumsy.Modules

set_option autoImplicit false

/-! ## Call logs -/

inductive Entry where
  /-- A new session: nothing counts as started. -/
  | session
  | call (m : ModuleId) (c : Call)
  deriving DecidableEq, Repr

namespace Entry

/-- Which modules are started after an entry. -/
def track (started : ModuleId → Bool) : Entry → ModuleId → Bool
  | .session => fun _ => false
  | .call m .startUp => setFlag started m true
  | .call m .closeDown => setFlag started m false
  | .call _ .process => started

/-- `process` and `closeDown` are for started modules. -/
def Allowed (started : ModuleId → Bool) : Entry → Prop
  | .call m .process => started m = true
  | .call m .closeDown => started m = true
  | _ => True

instance (started : ModuleId → Bool) (e : Entry) : Decidable (e.Allowed started) := by
  unfold Allowed
  split <;> infer_instance

end Entry

def tracked (started : ModuleId → Bool) (log : List Entry) : ModuleId → Bool :=
  log.foldl Entry.track started

def Proper (started : ModuleId → Bool) : List Entry → Prop
  | [] => True
  | e :: log => e.Allowed started ∧ Proper (e.track started) log

instance Proper.decidable : (log : List Entry) → (started : ModuleId → Bool) →
    Decidable (Proper started log)
  | [], _ => inferInstanceAs (Decidable True)
  | e :: log, started =>
      have := Proper.decidable log (e.track started)
      inferInstanceAs (Decidable (_ ∧ _))

theorem proper_append (started : ModuleId → Bool) (log more : List Entry) :
    Proper started (log ++ more) ↔ Proper started log ∧ Proper (tracked started log) more := by
  induction log generalizing started with
  | nil => simp [Proper, tracked]
  | cons e log ih =>
      simp only [List.cons_append, Proper, ih, tracked, List.foldl_cons, and_assoc]

theorem tracked_append (started : ModuleId → Bool) (log more : List Entry) :
    tracked started (log ++ more) = tracked (tracked started log) more := by
  simp only [tracked, List.foldl_append]

/-- The log entries of a loop over the modules. -/
def entries (calls : List (ModuleId × Call)) : List Entry := calls.map fun c => .call c.1 c.2

/-- Closing distinct modules is proper exactly if all of them are started. -/
theorem proper_closing (ms : List ModuleId) (distinct : ms.Nodup) (started : ModuleId → Bool) :
    Proper started (entries (ms.map fun m => (m, Call.closeDown))) ↔
      ∀ m ∈ ms, started m = true := by
  induction ms generalizing started with
  | nil => simp [entries, Proper]
  | cons m ms ih =>
      obtain ⟨fresh, distinct⟩ := List.nodup_cons.1 distinct
      have rest := ih distinct (setFlag started m false)
      have others : (∀ m' ∈ ms, setFlag started m false m' = true) ↔
          ∀ m' ∈ ms, started m' = true := by
        refine forall₂_congr fun m' member => ?_
        have other : m' ≠ m := by
          rintro rfl
          exact fresh member
        rw [setFlag_other _ _ other]
      rw [others] at rest
      rw [List.forall_mem_cons, ← rest]
      exact Iff.rfl

namespace Pipeline

variable {β : Type}

/-- A loop's calls are proper and lead to the started modules it leaves. -/
def Logs (p : Pipeline β) (out : Pipeline β × Effects β) : Prop :=
  Proper p.lastEnabled (entries out.2.calls) ∧
    tracked p.lastEnabled (entries out.2.calls) = out.1.lastEnabled

theorem Logs.refl (p : Pipeline β) : p.Logs (p, {}) := ⟨trivial, rfl⟩

theorem Logs.trans {p q r : Pipeline β} {fx gx : Effects β} (first : p.Logs (q, fx))
    (second : q.Logs (r, gx)) : p.Logs (r, fx.append gx) := by
  obtain ⟨proper, flags⟩ := first
  obtain ⟨proper', flags'⟩ := second
  have split : entries (fx.append gx).calls = entries fx.calls ++ entries gx.calls :=
    List.map_append
  refine ⟨?_, ?_⟩
  · rw [split, proper_append, flags]
    exact ⟨proper, proper'⟩
  · rw [split, tracked_append, flags]
    exact flags'

theorem turn_logs [CaptureBackend β] (env : StepEnv) (m : ModuleId) {p : Pipeline β}
    (inv : p.Inv) : p.Logs (p.turn env m) := by
  have alive := inv.alive
  unfold turn
  rw [if_neg (by simp [alive])]
  split
  · have first : p.Logs (p.startModule env m) := by
      unfold startModule
      split
      · exact Logs.refl p
      · exact ⟨⟨trivial, trivial⟩, rfl⟩
    have on := (startModule_spec env m inv).2.1
    have second : (p.startModule env m).1.Logs ((p.startModule env m).1.processModule env m) :=
      ⟨⟨on, trivial⟩, rfl⟩
    exact first.trans second
  · split
    · rename_i started
      have linked := inv.linked m started
      unfold closeModule
      rw [if_pos linked]
      exact ⟨⟨started, trivial⟩, rfl⟩
    · exact Logs.refl p

theorem runModules_logs [CaptureBackend β] (env : StepEnv) {p : Pipeline β} (inv : p.Inv) :
    p.Logs (p.runModules env) :=
  (visit_spec Logs.refl Logs.trans
    (fun m p inv => ⟨(turn_spec env m p inv).1, turn_logs env m inv⟩) modules p inv).2

/-- What the shutdown loop calls on closable modules. -/
theorem closeModules_calls [CaptureBackend β] {p : Pipeline β} (inv : p.Inv)
    (closable : p.Closable) :
    p.closeModules.2.calls =
      (modules.filter p.enabled).map fun m => (m, Call.closeDown) := by
  have loop : ∀ (ms : List ModuleId) (q : Pipeline β), ms.Nodup → q.Inv →
      (∀ m ∈ ms, q.enabled m = true → (q.mods.buffer m).linked = true) →
      (visit closing ms q).2.calls = (ms.filter q.enabled).map fun m => (m, Call.closeDown) := by
    intro ms
    induction ms with
    | nil => exact fun _ _ _ _ => rfl
    | cons m ms ih =>
        intro q distinct inv closable
        obtain ⟨fresh, distinct⟩ := List.nodup_cons.1 distinct
        have alive := inv.alive
        have first : q.closing m = if q.enabled m then q.closeModule m else (q, {}) := by
          unfold closing
          rw [if_neg (by simp [alive])]
        show (q.closing m).2.calls ++ (visit closing ms (q.closing m).1).2.calls = _
        rw [first]
        cases on : q.enabled m with
        | false =>
            rw [List.filter_cons_of_neg (by simp [on]), if_neg Bool.false_ne_true]
            exact ih q distinct inv fun m' member => closable m' (List.mem_cons_of_mem m member)
        | true =>
            have linked := closable m List.mem_cons_self on
            obtain ⟨closed, moves, -, -, frame⟩ := closeModule_spec inv linked
            have calls : (q.closeModule m).2.calls = [(m, .closeDown)] := by
              unfold closeModule
              rw [if_pos linked]
            rw [List.filter_cons_of_pos on, if_pos rfl, calls,
              ih (q.closeModule m).1 distinct closed, moves.flags]
            · rfl
            · intro m' member on'
              rw [moves.flags] at on'
              rw [frame m' (fun same => fresh (same ▸ member))]
              exact closable m' (List.mem_cons_of_mem m member) on'
  exact loop modules p modules_nodup inv fun m _ => closable m

end Pipeline

/-! ## Sessions -/

/-- The process as its modules see it. -/
structure Process (β : Type) where
  pipe      : Pipeline β
  capturing : Bool
  log       : List Entry

namespace Process

variable {β : Type}

/-- What happens to the process. -/
inductive Event (β : Type) where
  | start
  | packet (payload : Bytes) (pktMeta : PacketMeta) (backend : β) (env : StepEnv)
  | clock (env : StepEnv)
  | write (w : Pipeline.Write)
  | stop

/-- Program start, with the flags a configuration set. -/
def initial (enabled : ModuleId → Bool) : Process β where
  pipe :=
    { main := []
      mods := .initial
      enabled
      lastEnabled := fun _ => false
      processTriggered := fun _ => 0
      nextAddr := 0
      crashed := false }
  capturing := false
  log := []

/-- A loop over the modules, then everything on the main list is sent. -/
def runLoop (out : Pipeline β × Effects β) (s : Process β) : Process β :=
  { s with pipe := { out.1 with main := [] }, log := s.log ++ entries out.2.calls }

def step [CaptureBackend β] (s : Process β) : Event β → Process β
  | .start =>
      if s.capturing || s.pipe.crashed then s
      else
        { pipe := { s.pipe with lastEnabled := fun _ => false }
          capturing := true
          log := s.log ++ [.session] }
  | .packet payload pktMeta backend env =>
      if s.capturing && !s.pipe.crashed then
        s.runLoop ((s.pipe.appendNode payload pktMeta backend).runModules env)
      else s
  | .clock env =>
      if s.capturing && !s.pipe.crashed then s.runLoop (s.pipe.runModules env) else s
  | .write w =>
      if s.pipe.crashed then s else { s with pipe := s.pipe.applyWrite w }
  | .stop =>
      if s.capturing && !s.pipe.crashed then
        { s.runLoop s.pipe.closeModules with capturing := false }
      else s

/-- A stop is clean if every module that is switched on was started in the
session. -/
def machine [CaptureBackend β] : Machine (Process β) (Event β) where
  step := step
  admits
    | s, .stop => s.capturing = true → ∀ m, s.pipe.enabled m = true → s.pipe.lastEnabled m = true
    | _, _ => True

/-- Calls only reach started modules, and no null pointer was followed. -/
def Orderly (s : Process β) : Prop := Proper (fun _ => false) s.log ∧ s.pipe.crashed = false

instance (s : Process β) : Decidable s.Orderly :=
  inferInstanceAs (Decidable (_ ∧ _))

/-- What holds between the events of an orderly run. -/
structure Inv (s : Process β) : Prop where
  pipe    : s.pipe.Inv
  proper  : Proper (fun _ => false) s.log
  started : s.capturing = true → tracked (fun _ => false) s.log = s.pipe.lastEnabled

theorem initial_inv (enabled : ModuleId → Bool) : (initial enabled : Process β).Inv where
  pipe := ⟨Statics.initial_sound, fun _ on => absurd on Bool.false_ne_true, rfl⟩
  proper := trivial
  started capturing := absurd capturing Bool.false_ne_true

section Step

variable [CaptureBackend β]

/-- A step of the modules in a session. -/
theorem Inv.runModules {s : Process β} (inv : s.Inv) (capturing : s.capturing = true)
    (env : StepEnv) {p : Pipeline β} (pinv : p.Inv) (same : p.lastEnabled = s.pipe.lastEnabled) :
    (s.runLoop (p.runModules env)).Inv := by
  obtain ⟨final, -⟩ := Pipeline.runModules_spec env pinv
  obtain ⟨proper, flags⟩ := Pipeline.runModules_logs env pinv
  have before := inv.started capturing
  rw [same, ← before] at proper flags
  refine ⟨⟨final.sound, final.linked, final.alive⟩, ?_, fun _ => ?_⟩
  · show Proper _ (s.log ++ _)
    rw [proper_append]
    exact ⟨inv.proper, proper⟩
  · show tracked _ (s.log ++ _) = _
    rw [tracked_append]
    exact flags

/-- **Every event but an unclean stop keeps the calls in order.** -/
theorem step_inv {s : Process β} (inv : s.Inv) (e : Event β) (admits : machine.admits s e) :
    (s.step e).Inv := by
  have alive := inv.pipe.alive
  cases e with
  | start =>
      unfold step
      simp only
      split
      · exact inv
      · refine ⟨⟨inv.pipe.sound, fun _ on => absurd on Bool.false_ne_true, alive⟩, ?_, fun _ => ?_⟩
        · show Proper _ (s.log ++ _)
          rw [proper_append]
          exact ⟨inv.proper, trivial, trivial⟩
        · show tracked _ (s.log ++ _) = _
          rw [tracked_append]
          rfl
  | packet payload pktMeta backend env =>
      unfold step
      simp only
      split
      · rename_i running
        simp only [Bool.and_eq_true] at running
        exact inv.runModules running.1 env (inv.pipe.appendNode payload pktMeta backend) rfl
      · exact inv
  | clock env =>
      unfold step
      simp only
      split
      · rename_i running
        simp only [Bool.and_eq_true] at running
        exact inv.runModules running.1 env inv.pipe rfl
      · exact inv
  | write w =>
      unfold step
      simp only
      rw [if_neg (by simp [alive])]
      refine ⟨inv.pipe.applyWrite w, inv.proper, fun capturing => ?_⟩
      have same : (s.pipe.applyWrite w).lastEnabled = s.pipe.lastEnabled := by cases w <;> rfl
      show tracked _ s.log = (s.pipe.applyWrite w).lastEnabled
      rw [same]
      exact inv.started capturing
  | stop =>
      unfold step
      simp only
      split
      · rename_i running
        simp only [Bool.and_eq_true] at running
        have clean := admits running.1
        have closable : s.pipe.Closable := fun m on => inv.pipe.linked m (clean m on)
        obtain ⟨closed, -, -⟩ := Pipeline.closeModules_spec inv.pipe closable
        refine ⟨⟨closed.sound, closed.linked, closed.alive⟩, ?_,
          fun capturing => absurd capturing Bool.false_ne_true⟩
        show Proper _ (s.log ++ _)
        rw [proper_append, inv.started running.1,
          Pipeline.closeModules_calls inv.pipe closable,
          proper_closing _ (modules_nodup.filter _)]
        refine ⟨inv.proper, fun m member => ?_⟩
        exact clean m (List.mem_filter.1 member).2
      · exact inv

/-- **An unclean stop does not.** -/
theorem stop_disorderly {s : Process β} (inv : s.Inv) (unclean : ¬machine.admits s .stop) :
    ¬(s.step .stop).Orderly := by
  have alive := inv.pipe.alive
  obtain ⟨capturing, dirty⟩ := Classical.not_imp.1 unclean
  have stopped : s.step .stop = { s.runLoop s.pipe.closeModules with capturing := false } := by
    unfold step
    simp only
    rw [if_pos (by simp [capturing, alive])]
  rw [stopped]
  rintro ⟨proper, lives⟩
  by_cases closable : s.pipe.Closable
  · have log : Proper (fun _ => false) (s.log ++ entries s.pipe.closeModules.2.calls) := proper
    rw [proper_append, inv.started capturing, Pipeline.closeModules_calls inv.pipe closable,
      proper_closing _ (modules_nodup.filter _)] at log
    refine dirty fun m on => log.2 m ?_
    exact List.mem_filter.2 ⟨mem_modules m, on⟩
  · have dies := Pipeline.closeModules_crashes alive closable
    have lives : s.pipe.closeModules.1.crashed = false := lives
    rw [dies] at lives
    exact absurd lives (by decide)

/-- Logs only grow, and a dead process stays dead. -/
theorem disorderly_stays {s : Process β} (e : Event β) (disorderly : ¬s.Orderly) :
    ¬(s.step e).Orderly := by
  have grows : ∀ (out : Pipeline β × Effects β), s.pipe.crashed = false →
      ¬Proper (fun _ => false) (s.runLoop out).log := by
    intro out alive proper
    have log : Proper (fun _ => false) (s.log ++ entries out.2.calls) := proper
    rw [proper_append] at log
    exact disorderly ⟨log.1, alive⟩
  cases alive : s.pipe.crashed with
  | true =>
      have same : s.step e = s := by
        cases e <;> simp [step, alive]
      rw [same]
      exact disorderly
  | false =>
      cases e with
      | start =>
          unfold step
          simp only
          split
          · exact disorderly
          · rintro ⟨proper, -⟩
            have log : Proper (fun _ => false) (s.log ++ [.session]) := proper
            rw [proper_append] at log
            exact disorderly ⟨log.1, alive⟩
      | packet payload pktMeta backend env =>
          unfold step
          simp only
          split
          · exact fun orderly => grows _ alive orderly.1
          · exact disorderly
      | clock env =>
          unfold step
          simp only
          split
          · exact fun orderly => grows _ alive orderly.1
          · exact disorderly
      | write w =>
          unfold step
          simp only
          rw [if_neg (by simp [alive])]
          rintro ⟨proper, -⟩
          exact disorderly ⟨proper, alive⟩
      | stop =>
          unfold step
          simp only
          split
          · exact fun orderly => grows _ alive orderly.1
          · exact disorderly

/-- From a state in order, a run is orderly exactly if its stops are clean. -/
theorem orderly_iff (es : List (Event β)) {s : Process β} (inv : s.Inv) :
    (machine.run s es).Orderly ↔ machine.Admissible s es := by
  induction es generalizing s with
  | nil => exact ⟨fun _ => trivial, fun _ => ⟨inv.proper, inv.pipe.alive⟩⟩
  | cons e es ih =>
      by_cases clean : machine.admits s e
      · rw [Machine.run_cons]
        exact (ih (step_inv inv e clean)).trans ⟨fun rest => ⟨clean, rest⟩, fun both => both.2⟩
      · have bad : ¬(machine.step s e).Orderly := by
          cases e with
          | stop => exact stop_disorderly inv clean
          | start | packet _ _ _ _ | clock _ | write _ => exact absurd trivial clean
        have once : ∀ (s : Process β) e, ¬s.Orderly → ¬(machine.step s e).Orderly :=
          fun _ e disorderly => disorderly_stays e disorderly
        have final := machine.run_invariant' once es _ bad
        constructor
        · intro orderly
          exact absurd orderly final
        · intro both
          exact absurd both.1 clean

/-- **Over any number of sessions, `process` and `closeDown` only reach started
modules, and no `closeDown` meets unlinked sentinels, if and only if at every stop
each module that is switched on had been started in that session.** -/
theorem lifecycle_iff (enabled : ModuleId → Bool) (es : List (Event β)) :
    (machine.run (initial enabled) es).Orderly ↔ machine.Admissible (initial enabled) es :=
  orderly_iff es (initial_inv enabled)

end Step

/-- Lag is switched on after the last step before the stop. -/
def lateSwitchRun : List (Event LinuxPacketMeta) :=
  [.start, .clock Linux.stillEnv.step, .write (.enable .lag true), .stop]

/-- `lateSwitchRun` calls `lagCloseDown` on sentinels that were never linked. -/
theorem stop_closes_unstarted :
    ¬∀ (enabled : ModuleId → Bool) (es : List (Event LinuxPacketMeta)),
      (machine.run (initial enabled) es).Orderly := by
  intro claim
  exact absurd (claim (fun _ => false) lateSwitchRun) (by decide)

end Process

end Clumsy.Capture
