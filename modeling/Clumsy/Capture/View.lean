/-
# Capture.View -- a session as one module's statics see it

A module's statics change in the module's own calls and in control writes, and nowhere
else; a `View` names the part of the statics and what the calls do to it.  `step_view`
is what one event of a session can mean for it:

* the step serves the module: it is started first if it was not, and `process` runs;
* the step finds the flag clear and closes the module if it was started;
* there is no step.

Whether the module is started when a step serves it is thus a matter of the steps that
found its flag clear.
-/
import Clumsy.Capture.LagOrder

namespace Clumsy.Capture

open Clumsy.Theory
open Clumsy.Packet
open Clumsy.Modules

set_option autoImplicit false

/-- A part of the statics that only the calls of one module change. -/
structure View (β : Type) [CaptureBackend β] (m : ModuleId) (γ : Type) where
  own   : Statics β → γ
  start : UInt32 → γ → γ
  work  : ProcEnv → List (PacketNode β) → γ → γ
  close : γ → γ
  startUp_own : ∀ tick mods m',
    own (startUp tick mods m') = if m' = m then start tick (own mods) else own mods
  process_own : ∀ env fresh main mods m',
    own (process env fresh main mods m').state =
      if m' = m then work env main (own mods) else own mods
  closeDown_own : ∀ main mods m',
    own (closeDown main mods m').state = if m' = m then close (own mods) else own mods

section Views

variable (β : Type) [CaptureBackend β]

def blackoutView : View β .blackout Blackout where
  own := Statics.blackout
  start := blackoutStartUp
  work env main blackout := (blackoutProcess env main blackout).state
  close blackout := (blackoutCloseDown ([] : List (PacketNode β)) blackout).state
  startUp_own _ _ m' := by cases m' <;> rfl
  process_own _ _ _ _ m' := by cases m' <;> rfl
  closeDown_own _ _ m' := by cases m' <;> rfl

def resetView : View β .reset Reset where
  own := Statics.reset
  start _ := resetStartUp
  work env main reset := (resetProcess env main reset).state
  close reset := (resetCloseDown ([] : List (PacketNode β)) reset).state
  startUp_own _ _ m' := by cases m' <;> rfl
  process_own _ _ _ _ m' := by cases m' <;> rfl
  closeDown_own _ _ m' := by cases m' <;> rfl

end Views

namespace Pipeline

variable {β γ : Type} {m : ModuleId}

/-! ## One step -/

theorem visit_append (body : ModuleId → Pipeline β → Pipeline β × Effects β)
    (ms ms' : List ModuleId) (p : Pipeline β) :
    (visit body (ms ++ ms') p).1 = (visit body ms' (visit body ms p).1).1 := by
  induction ms generalizing p with
  | nil => rfl
  | cons m ms ih => exact ih (body m p).1

variable [CaptureBackend β]

/-- The pipeline a module finds at its turn. -/
def atTurn (env : StepEnv) (m : ModuleId) (p : Pipeline β) : Pipeline β :=
  (visit (turn env) (modules.takeWhile fun m' => decide (m' ≠ m)) p).1

/-- The modules behind a module. -/
def behind (m : ModuleId) : List ModuleId := (modules.dropWhile fun m' => decide (m' ≠ m)).tail

theorem modules_eq (m : ModuleId) :
    modules = (modules.takeWhile fun m' => decide (m' ≠ m)) ++ m :: behind m ∧
      m ∉ (modules.takeWhile fun m' => decide (m' ≠ m)) ∧ m ∉ behind m := by
  cases m <;> decide

theorem runModules_eq (env : StepEnv) (m : ModuleId) (p : Pipeline β) :
    (p.runModules env).1 = (visit (turn env) (behind m) ((p.atTurn env m).turn env m).1).1 := by
  have split : (p.runModules env).1 = (visit (turn env)
      ((modules.takeWhile fun m' => decide (m' ≠ m)) ++ m :: behind m) p).1 := by
    rw [← (modules_eq m).1]
    rfl
  rw [split, visit_append]
  rfl

variable (V : View β m γ)

/-- The turn of another module. -/
theorem turn_own_other (env : StepEnv) {m' : ModuleId} (other : m' ≠ m) (p : Pipeline β) :
    V.own (p.turn env m').1.mods = V.own p.mods := by
  unfold turn
  split
  · rfl
  · split
    · refine (V.process_own _ _ _ _ _).trans ?_
      rw [if_neg other]
      unfold startModule
      split
      · rfl
      · exact (V.startUp_own _ _ _).trans (if_neg other)
    · split
      · show V.own (p.closeModule m').1.mods = V.own p.mods
        unfold closeModule
        split
        · exact (V.closeDown_own _ _ _).trans (if_neg other)
        · rfl
      · rfl

theorem visit_own (env : StepEnv) (ms : List ModuleId) (missing : m ∉ ms) (p : Pipeline β) :
    V.own (visit (turn env) ms p).1.mods = V.own p.mods := by
  induction ms generalizing p with
  | nil => rfl
  | cons m' ms ih =>
      rw [List.mem_cons, not_or] at missing
      exact (ih missing.2 (p.turn env m').1).trans (turn_own_other V env (Ne.symm missing.1) p)

theorem turns_spec (env : StepEnv) (ms : List ModuleId) {p : Pipeline β} (inv : p.Inv) :
    (visit (turn env) ms p).1.Inv ∧ (visit (turn env) ms p).1.enabled = p.enabled := by
  obtain ⟨inv', moves⟩ := visit_spec Moves.refl Moves.trans (fun m p => turn_spec env m p) ms p inv
  exact ⟨inv', moves.flags⟩

theorem atTurn_spec (env : StepEnv) {p : Pipeline β} (inv : p.Inv) :
    (p.atTurn env m).Inv ∧ (p.atTurn env m).enabled = p.enabled ∧
      V.own (p.atTurn env m).mods = V.own p.mods ∧
      (p.atTurn env m).lastEnabled m = p.lastEnabled m := by
  have missing := (modules_eq m).2.1
  obtain ⟨inv', enabled⟩ := turns_spec env _ inv
  exact ⟨inv', enabled, visit_own V env _ missing p, (visit_frame env _ missing inv).2⟩

/-- The module's own part after a step is what its turn left. -/
theorem runModules_own (env : StepEnv) {p : Pipeline β} (inv : p.Inv) :
    V.own (p.runModules env).1.mods = V.own ((p.atTurn env m).turn env m).1.mods ∧
      (p.runModules env).1.lastEnabled m = ((p.atTurn env m).turn env m).1.lastEnabled m ∧
      (p.runModules env).1.enabled = p.enabled := by
  have missing := (modules_eq m).2.2
  have inv' := (turn_spec env m _ (atTurn_spec V env inv).1).1
  rw [runModules_eq env m p]
  refine ⟨visit_own V env _ missing _, (visit_frame env _ missing inv').2, ?_⟩
  rw [← runModules_eq env m p]
  exact (runModules_spec env inv).2.flags

/-- A turn with the flag set. -/
theorem turn_own_on (env : StepEnv) {q : Pipeline β} (inv : q.Inv) (on : q.enabled m = true) :
    V.own (q.startModule env m).1.mods =
        (if q.lastEnabled m then V.own q.mods else V.start (env.startTick m) (V.own q.mods)) ∧
      V.own (q.turn env m).1.mods = V.work (env.proc m) q.main (V.own (q.startModule env m).1.mods) ∧
      (q.turn env m).1.lastEnabled m = true := by
  have alive := inv.alive
  have main := startModule_main env m q
  refine ⟨?_, ?_, ?_⟩
  · unfold startModule
    split
    · rfl
    · exact (V.startUp_own _ _ _).trans (if_pos rfl)
  · rw [turn, if_neg (by simp [alive]), if_pos on, ← main]
    exact (V.process_own _ _ _ _ _).trans (if_pos rfl)
  · rw [turn, if_neg (by simp [alive]), if_pos on]
    exact (startModule_spec env m inv).2.1

/-- A turn with the flag clear. -/
theorem turn_own_off (env : StepEnv) {q : Pipeline β} (inv : q.Inv) (off : q.enabled m = false) :
    V.own (q.turn env m).1.mods =
        (if q.lastEnabled m then V.close (V.own q.mods) else V.own q.mods) ∧
      (q.turn env m).1.lastEnabled m = false := by
  have alive := inv.alive
  rw [turn, if_neg (by simp [alive]), if_neg (by simp [off])]
  cases last : q.lastEnabled m with
  | true =>
      rw [if_pos rfl, if_pos rfl]
      refine ⟨?_, setFlag_same _ _ _⟩
      show V.own (q.closeModule m).1.mods = _
      rw [closeModule, if_pos (inv.linked m last)]
      exact (V.closeDown_own _ _ _).trans (if_pos rfl)
  | false => exact ⟨rfl, last⟩

end Pipeline

/-! ## One event -/

namespace Linux

variable {γ : Type} {m : ModuleId}

/-- What `process` of a module finds in an event, if it is called. -/
def served (m : ModuleId) (s : Linux) (e : Event) :
    Option (ProcEnv × Pipeline LinuxPacketMeta) :=
  (s.consumes e).bind fun (env, start) =>
    let q := start.pipe.atTurn env.step m
    if q.crashed || !q.enabled m then none
    else some (env.step.proc m, (q.startModule env.step m).1)

/-- A step serves the module. -/
structure Serves (V : View LinuxPacketMeta m γ) (s s' : Linux) (env : ProcEnv)
    (q : Pipeline LinuxPacketMeta) : Prop where
  on : s.pipe.enabled m = true
  found : ∃ tick, V.own q.mods =
    if s.pipe.lastEnabled m then V.own s.pipe.mods else V.start tick (V.own s.pipe.mods)
  worked : V.own s'.pipe.mods = V.work env q.main (V.own q.mods)
  started : s'.pipe.lastEnabled m = true

/-- A step finds the module's flag clear. -/
structure Closes (V : View LinuxPacketMeta m γ) (s s' : Linux) : Prop where
  off : s.pipe.enabled m = false
  closed : V.own s'.pipe.mods =
    if s.pipe.lastEnabled m then V.close (V.own s.pipe.mods) else V.own s.pipe.mods
  stopped : s'.pipe.lastEnabled m = false

theorem consumeStep_pipe {start : Linux} (books : start.Books) (env : LinuxEnv) :
    (start.divertConsumeStep env).pipe.mods = (start.pipe.runModules env.step).1.mods ∧
      (start.divertConsumeStep env).pipe.lastEnabled =
        (start.pipe.runModules env.step).1.lastEnabled := by
  obtain ⟨inv, moves⟩ := Pipeline.runModules_spec env.step books.inv
  obtain ⟨-, mods, -, last, -⟩ := (books.record inv moves).sendAll env.send
  rw [books.consumeStep_eq env]
  exact ⟨mods, last⟩

/-- **One event, seen from a module.** -/
theorem step_view (V : View LinuxPacketMeta m γ) {s : Linux} (booked : s.Booked) (e : Event) :
    (∃ env q, s.served m e = some (env, q) ∧ Serves V s (s.step e) env q) ∨
      (s.served m e = none ∧ s.consumes e ≠ none ∧ Closes V s (s.step e)) ∨
      (s.served m e = none ∧ s.consumes e = none ∧
        ((∃ w, e = .write w) ∨ (s.step e).pipe = s.pipe)) := by
  cases consumes : s.consumes e with
  | none =>
      refine .inr (.inr ⟨by simp [served, consumes], rfl, ?_⟩)
      exact (step_of_not_consumes consumes).imp id And.left
  | some found =>
      obtain ⟨env, start⟩ := found
      obtain ⟨books, mods, last, enabled, -, -⟩ := consumes_spec booked consumes
      obtain ⟨inv, flags, own, mark⟩ := Pipeline.atTurn_spec (m := m) V env.step books.inv
      obtain ⟨own', mark', -⟩ := Pipeline.runModules_own V env.step books.inv
      obtain ⟨pipe, pipeLast⟩ := consumeStep_pipe books env
      have alive := inv.alive
      have flag : (start.pipe.atTurn env.step m).enabled m = s.pipe.enabled m := by
        rw [flags, enabled]
      rw [mods] at own
      rw [last] at mark
      have event : served m s e = if s.pipe.enabled m
          then some (env.step.proc m, ((start.pipe.atTurn env.step m).startModule env.step m).1)
          else none := by
        simp only [served, consumes, Option.bind_some, alive, flag, Bool.false_or]
        cases s.pipe.enabled m <;> rfl
      rw [event, step_of_consumes consumes]
      cases on : s.pipe.enabled m with
      | true =>
          left
          obtain ⟨found, worked, started⟩ := Pipeline.turn_own_on V env.step inv (flag.trans on)
          have main := Pipeline.startModule_main env.step m (start.pipe.atTurn env.step m)
          refine ⟨env.step.proc m, _, rfl, on, ⟨env.step.startTick m, ?_⟩, ?_, ?_⟩
          · rw [found, own, mark]
          · rw [pipe, own', worked, main]
          · rw [pipeLast, mark', started]
      | false =>
          right
          left
          obtain ⟨closed, stopped⟩ := Pipeline.turn_own_off V env.step inv (flag.trans on)
          refine ⟨rfl, by simp, on, ?_, ?_⟩
          · rw [pipe, own', closed, own, mark]
          · rw [pipeLast, mark', stopped]

theorem serves_of_served (V : View LinuxPacketMeta m γ) {s : Linux} (booked : s.Booked) {e : Event}
    {env : ProcEnv} {q : Pipeline LinuxPacketMeta} (served : s.served m e = some (env, q)) :
    Serves V s (s.step e) env q := by
  rcases step_view V booked e with ⟨env', q', served', serves⟩ | ⟨none, -⟩ | ⟨none, -⟩
  · obtain ⟨rfl, rfl⟩ := Prod.mk.inj (Option.some.inj (served.symm.trans served'))
    exact serves
  · cases none.symm.trans served
  · cases none.symm.trans served

end Linux

end Clumsy.Capture
