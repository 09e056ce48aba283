/-
# Capture.Pipeline -- the module loop both backends share

`divert.cpp` and `divert_linux.cpp` run the same two loops over `modules[]`: the
one of `divertConsumeStep`, which starts and closes modules by comparing the
enabled flag with `lastEnabled`, and the one of `divertClockLoop`'s shutdown,
which closes every module whose enabled flag is set and looks at nothing else.

Enabled flags and parameters are written by other threads at any moment.  Each
loop reads a module's flag once and its parameters only inside its own calls, so
a write that lands in the middle of a loop has the effect of one before or after
it, and writes are events of their own (`applyWrite`).

A `closeDown` on sentinels that were never linked follows a null pointer
(`crashed`).  `Inv` is what every state between two events satisfies.
-/
import Clumsy.Modules.Table
import Clumsy.Theory.Run
import Clumsy.Theory.Ledger

namespace Clumsy.Capture

open Clumsy.Theory
open Clumsy.Packet
open Clumsy.Modules

set_option autoImplicit false

/-- What the calls of one pass over the modules find outside their own state. -/
structure StepEnv where
  proc      : ModuleId → ProcEnv
  /-- `timeGetTime()` inside `startUp`. -/
  startTick : ModuleId → UInt32

/-- The calls a module table entry receives. -/
inductive Call where
  | startUp
  | process
  | closeDown
  deriving DecidableEq, Repr

structure Pipeline (β : Type) where
  main             : List (PacketNode β)
  mods             : Statics β
  /-- `*(module->enabledFlag)`. -/
  enabled          : ModuleId → Bool
  lastEnabled      : ModuleId → Bool
  processTriggered : ModuleId → UInt16
  /-- The next heap address. -/
  nextAddr         : Nat
  /-- The process has died of a null pointer. -/
  crashed          : Bool

/-- What a loop did besides changing the pipeline. -/
structure Effects (β : Type) where
  calls  : List (ModuleId × Call) := []
  freed  : List (ModuleId × PacketNode β) := []
  clones : List (PacketNode β) := []

variable {β : Type}

namespace Effects

def append (a b : Effects β) : Effects β :=
  { calls := a.calls ++ b.calls, freed := a.freed ++ b.freed, clones := a.clones ++ b.clones }

/-- The freed nodes, without the module that freed them. -/
def freedNodes (fx : Effects β) : List (PacketNode β) := fx.freed.map Prod.snd

@[simp] theorem append_calls (a b : Effects β) : (a.append b).calls = a.calls ++ b.calls := rfl

@[simp] theorem append_freed (a b : Effects β) : (a.append b).freed = a.freed ++ b.freed := rfl

@[simp] theorem append_clones (a b : Effects β) : (a.append b).clones = a.clones ++ b.clones := rfl

@[simp] theorem append_freedNodes (a b : Effects β) :
    (a.append b).freedNodes = a.freedNodes ++ b.freedNodes := List.map_append

end Effects

/-- Set one module's entry. -/
def setFlag {α : Type} (flags : ModuleId → α) (m : ModuleId) (v : α) : ModuleId → α :=
  fun m' => if m' = m then v else flags m'

@[simp] theorem setFlag_same {α : Type} (flags : ModuleId → α) (m : ModuleId) (v : α) :
    setFlag flags m v m = v := if_pos rfl

theorem setFlag_other {α : Type} (flags : ModuleId → α) {m m' : ModuleId} (v : α)
    (other : m' ≠ m) : setFlag flags m v m' = flags m' := if_neg other

namespace Pipeline

/-! ## Events from other threads -/

/-- A control write: an enabled flag or a parameter. -/
inductive Write where
  | enable (m : ModuleId) (on : Bool)
  | param (w : ParamWrite)

def applyWrite (p : Pipeline β) : Write → Pipeline β
  | .enable m on => { p with enabled := setFlag p.enabled m on }
  | .param w => { p with mods := setParam p.enabled p.mods w }

/-- `appendNode(pnode)` with a freshly created node. -/
def appendNode (packet : Bytes) (pktMeta : PacketMeta) (backend : β) (p : Pipeline β) :
    Pipeline β :=
  { p with
    main := p.main ++ [createNode p.nextAddr packet pktMeta backend]
    nextAddr := p.nextAddr + 1 }

/-! ## One module -/

/-- `if (!module->lastEnabled) { module->startUp(); module->lastEnabled = 1; }`. -/
def startModule (env : StepEnv) (m : ModuleId) (p : Pipeline β) : Pipeline β × Effects β :=
  if p.lastEnabled m then (p, {})
  else
    ({ p with
        mods := startUp (env.startTick m) p.mods m
        lastEnabled := setFlag p.lastEnabled m true },
      { calls := [(m, .startUp)] })

/-- `module->process(head, tail)`, counting a TRUE answer. -/
def processModule [CaptureBackend β] (env : StepEnv) (m : ModuleId) (p : Pipeline β) :
    Pipeline β × Effects β :=
  let out := process (env.proc m) p.nextAddr p.main p.mods m
  ({ p with
      main := out.main
      mods := out.state
      nextAddr := p.nextAddr + out.clones.length
      processTriggered :=
        if out.triggered then setFlag p.processTriggered m (p.processTriggered m + 1)
        else p.processTriggered },
    { calls := [(m, .process)]
      freed := out.freed.map fun pac => (m, pac)
      clones := out.clones })

/-- `module->closeDown(head, tail)`. -/
def closeModule (m : ModuleId) (p : Pipeline β) : Pipeline β × Effects β :=
  if (p.mods.buffer m).linked then
    let out := closeDown p.main p.mods m
    ({ p with main := out.main, mods := out.state }, { calls := [(m, .closeDown)] })
  else ({ p with crashed := true }, { calls := [(m, .closeDown)] })

/-- The body of `divertConsumeStep`'s loop. -/
def turn [CaptureBackend β] (env : StepEnv) (m : ModuleId) (p : Pipeline β) :
    Pipeline β × Effects β :=
  if p.crashed then (p, {})
  else if p.enabled m then
    let started := p.startModule env m
    let processed := started.1.processModule env m
    (processed.1, started.2.append processed.2)
  else if p.lastEnabled m then
    let closed := p.closeModule m
    ({ closed.1 with lastEnabled := setFlag closed.1.lastEnabled m false }, closed.2)
  else (p, {})

/-- The body of the shutdown loop. -/
def closing (m : ModuleId) (p : Pipeline β) : Pipeline β × Effects β :=
  if p.crashed then (p, {})
  else if p.enabled m then p.closeModule m
  else (p, {})

/-! ## The two loops -/

/-- Visit the modules one after another. -/
def visit (body : ModuleId → Pipeline β → Pipeline β × Effects β) :
    List ModuleId → Pipeline β → Pipeline β × Effects β
  | [], p => (p, {})
  | m :: ms, p =>
      let first := body m p
      let rest := visit body ms first.1
      (rest.1, first.2.append rest.2)

/-- The loop of `divertConsumeStep`. -/
def runModules [CaptureBackend β] (env : StepEnv) (p : Pipeline β) : Pipeline β × Effects β :=
  visit (turn env) modules p

/-- The loop of `divertClockLoop`'s shutdown. -/
def closeModules (p : Pipeline β) : Pipeline β × Effects β := visit closing modules p

/-! ## What holds between two events -/

/-- Counters and caps are right, a started module has its sentinels linked, and
the process is alive. -/
structure Inv (p : Pipeline β) : Prop where
  sound  : p.mods.Sound
  linked : ∀ m, p.lastEnabled m = true → (p.mods.buffer m).linked = true
  alive  : p.crashed = false

/-- All packets in the pipeline. -/
def inside (p : Pipeline β) : List (PacketNode β) := p.main ++ p.mods.held

theorem Inv.applyWrite {p : Pipeline β} (inv : p.Inv) (w : Write) : (p.applyWrite w).Inv := by
  cases w with
  | enable m on => exact ⟨inv.sound, inv.linked, inv.alive⟩
  | param w =>
      refine ⟨inv.sound.congr (setParam_buffer p.enabled p.mods w), fun m started => ?_, inv.alive⟩
      show ((setParam p.enabled p.mods w).buffer m).linked = true
      rw [setParam_buffer]
      exact inv.linked m started

theorem applyWrite_inside (p : Pipeline β) (w : Write) :
    (p.applyWrite w).main = p.main ∧ (p.applyWrite w).mods.held = p.mods.held := by
  cases w with
  | enable m on => exact ⟨rfl, rfl⟩
  | param w =>
      refine ⟨rfl, ?_⟩
      show (setParam p.enabled p.mods w).held = p.mods.held
      unfold Statics.held
      simp only [setParam_buffer]

theorem Inv.appendNode {p : Pipeline β} (inv : p.Inv) (packet : Bytes) (pktMeta : PacketMeta)
    (backend : β) : (p.appendNode packet pktMeta backend).Inv :=
  ⟨inv.sound, inv.linked, inv.alive⟩

/-- What one visit did: nothing was lost or made up but the clones, the clones
occupy the next addresses, and only dropping modules freed anything. -/
structure Moves [CaptureBackend β] (p : Pipeline β) (out : Pipeline β × Effects β) : Prop where
  tags : ((out.1.inside ++ out.2.freedNodes).map PacketNode.tag).Perm
    ((p.inside ++ out.2.clones).map PacketNode.tag)
  addrs : out.2.clones.map PacketNode.addr = List.range' p.nextAddr out.2.clones.length
  next : out.1.nextAddr = p.nextAddr + out.2.clones.length
  droppers : ∀ entry ∈ out.2.freed, entry.1.drops = true
  clones : ∀ copy ∈ out.2.clones, ∃ blob : β, copy.backend =
    CaptureBackend.packetBackendPrepareClone blob
  flags : out.1.enabled = p.enabled

/-- A property of all visits follows from the same property of one visit. -/
theorem visit_spec {body : ModuleId → Pipeline β → Pipeline β × Effects β}
    {P : Pipeline β → Prop} {R : Pipeline β → Pipeline β × Effects β → Prop}
    (refl : ∀ p, R p (p, {}))
    (trans : ∀ {p q r : Pipeline β} {fx gx : Effects β}, R p (q, fx) → R q (r, gx) →
      R p (r, fx.append gx))
    (once : ∀ m p, P p → P (body m p).1 ∧ R p (body m p)) :
    ∀ (ms : List ModuleId) (p : Pipeline β), P p → P (visit body ms p).1 ∧ R p (visit body ms p)
  | [], p, inv => ⟨inv, refl p⟩
  | m :: ms, p, inv => by
      obtain ⟨inv', first⟩ := once m p inv
      obtain ⟨final, rest⟩ := visit_spec refl trans once ms (body m p).1 inv'
      exact ⟨final, trans first rest⟩

section Moves

variable [CaptureBackend β]

theorem Moves.refl (p : Pipeline β) : p.Moves (p, {}) where
  tags := by simp [Effects.freedNodes]
  addrs := rfl
  next := rfl
  droppers := by simp
  clones := by simp
  flags := rfl

theorem Moves.trans {p q r : Pipeline β} {fx gx : Effects β} (first : p.Moves (q, fx))
    (second : q.Moves (r, gx)) : p.Moves (r, fx.append gx) where
  tags := by
    have a := first.tags
    have b := second.tags
    simp only [Effects.append_freedNodes, Effects.append_clones, List.map_append,
      ← Multiset.coe_eq_coe, ← Multiset.coe_add] at a b ⊢
    rw [← add_assoc, add_right_comm, b, add_right_comm, a, add_assoc]
  addrs := by
    have next : q.nextAddr = p.nextAddr + fx.clones.length := first.next
    simp only [Effects.append_clones, List.map_append, first.addrs, second.addrs, next,
      List.length_append, List.range'_append_1]
  next := by
    have a := first.next
    have b := second.next
    simp only [Effects.append_clones, List.length_append] at a b ⊢
    omega
  droppers := by
    intro entry member
    rcases List.mem_append.1 member with h | h
    · exact first.droppers entry h
    · exact second.droppers entry h
  clones := by
    intro copy member
    rcases List.mem_append.1 member with h | h
    · exact first.clones copy h
    · exact second.clones copy h
  flags := second.flags.trans first.flags

end Moves

/-! ## One module, specified -/

theorem startModule_spec [CaptureBackend β] (env : StepEnv) (m : ModuleId) {p : Pipeline β}
    (inv : p.Inv) :
    (p.startModule env m).1.Inv ∧ (p.startModule env m).1.lastEnabled m = true ∧
      p.Moves (p.startModule env m) := by
  unfold startModule
  split
  · rename_i started
    exact ⟨inv, started, Moves.refl p⟩
  · refine ⟨⟨startUp_sound inv.sound _ m, fun m' started => ?_, inv.alive⟩, setFlag_same _ _ _, ?_⟩
    · by_cases same : m' = m
      · subst same
        exact startUp_linked _ _ _
      · have started : setFlag p.lastEnabled m true m' = true := started
        rw [setFlag_other _ _ same] at started
        show ((startUp (env.startTick m) p.mods m).buffer m').linked = true
        rw [startUp_frame _ _ m m' same]
        exact inv.linked m' started
    · refine { tags := ?_, addrs := rfl, next := rfl, droppers := by simp, clones := by simp,
               flags := rfl }
      simp only [inside, startUp_held inv.sound, Effects.freedNodes, List.map_nil, List.append_nil]
      exact List.Perm.refl _

/-- A start-up leaves the main list alone. -/
theorem startModule_main [CaptureBackend β] (env : StepEnv) (m : ModuleId) (p : Pipeline β) :
    (p.startModule env m).1.main = p.main := by
  unfold startModule
  split <;> rfl

theorem processModule_spec [CaptureBackend β] (env : StepEnv) (m : ModuleId) {p : Pipeline β}
    (inv : p.Inv) (started : p.lastEnabled m = true) :
    (p.processModule env m).1.Inv ∧ p.Moves (p.processModule env m) := by
  have linked := inv.linked m started
  have clones := process_clones (env.proc m) p.nextAddr p.main p.mods m
  have nodes : (p.processModule env m).2.freedNodes =
      (process (env.proc m) p.nextAddr p.main p.mods m).freed := by
    simp [processModule, Effects.freedNodes]
  refine ⟨⟨process_sound _ _ _ inv.sound linked, fun m' on => ?_, inv.alive⟩, ?_⟩
  · show ((process (env.proc m) p.nextAddr p.main p.mods m).state.buffer m').linked = true
    by_cases same : m' = m
    · subst same
      rw [process_linked]
      exact linked
    · rw [process_frame _ _ _ _ m m' same]
      exact inv.linked m' on
  · refine {
      tags := ?_, addrs := clones.1, next := rfl, droppers := ?_, clones := ?_, flags := rfl }
    · rw [nodes]
      exact process_tags (env.proc m) p.nextAddr p.main p.mods m
    · intro entry member
      obtain ⟨pac, freed, rfl⟩ := List.mem_map.1 member
      exact (process_freed _ _ _ _ _ (List.ne_nil_of_mem freed)).1
    · intro copy member
      obtain ⟨src, -, clone⟩ := clones.2 copy member
      exact ⟨src.backend, clone.2.2⟩

/-- Closing a module whose sentinels are linked. -/
theorem closeModule_spec [CaptureBackend β] {m : ModuleId} {p : Pipeline β} (inv : p.Inv)
    (linked : (p.mods.buffer m).linked = true) :
    (p.closeModule m).1.Inv ∧ p.Moves (p.closeModule m) ∧
      (p.closeModule m).1.lastEnabled = p.lastEnabled ∧
      ((p.closeModule m).1.mods.buffer m).nodes = [] ∧
      ∀ m', m' ≠ m → (p.closeModule m).1.mods.buffer m' = p.mods.buffer m' := by
  obtain ⟨-, emptied, sentinels, -, -⟩ := closeDown_queues p.main p.mods m
  unfold closeModule
  rw [if_pos linked]
  refine ⟨⟨closeDown_sound inv.sound _ m, fun m' on => ?_, inv.alive⟩, ?_, rfl, emptied,
    closeDown_frame p.main p.mods m⟩
  · by_cases same : m' = m
    · subst same
      exact sentinels.trans linked
    · show ((closeDown p.main p.mods m).state.buffer m').linked = true
      rw [closeDown_frame _ _ m m' same]
      exact inv.linked m' on
  · refine { tags := ?_, addrs := rfl, next := rfl, droppers := by simp, clones := by simp,
             flags := rfl }
    simp only [Effects.freedNodes, List.map_nil, List.append_nil]
    exact (closeDown_perm p.main p.mods m).map _

/-! ## The step loop, specified -/

theorem turn_spec [CaptureBackend β] (env : StepEnv) (m : ModuleId) (p : Pipeline β)
    (inv : p.Inv) : (p.turn env m).1.Inv ∧ p.Moves (p.turn env m) := by
  have alive := inv.alive
  unfold turn
  rw [if_neg (by simp [alive])]
  split
  · obtain ⟨started, on, first⟩ := startModule_spec env m inv
    obtain ⟨processed, second⟩ := processModule_spec env m started on
    exact ⟨processed, first.trans second⟩
  · split
    · rename_i started
      obtain ⟨closed, moves, last, -, -⟩ := closeModule_spec inv (inv.linked m started)
      refine ⟨⟨closed.sound, fun m' on => ?_, closed.alive⟩, ?_⟩
      · have on : setFlag (p.closeModule m).1.lastEnabled m false m' = true := on
        by_cases same : m' = m
        · subst same
          rw [setFlag_same] at on
          exact absurd on Bool.false_ne_true
        · rw [setFlag_other _ _ same] at on
          exact closed.linked m' on
      · exact ⟨moves.tags, moves.addrs, moves.next, moves.droppers, moves.clones, moves.flags⟩
    · exact ⟨inv, Moves.refl p⟩

/-- **The module loop of a step** keeps the invariant, crashes nothing, and
neither loses nor makes up a packet. -/
theorem runModules_spec [CaptureBackend β] (env : StepEnv) {p : Pipeline β} (inv : p.Inv) :
    (p.runModules env).1.Inv ∧ p.Moves (p.runModules env) :=
  visit_spec Moves.refl Moves.trans (fun m p => turn_spec env m p) modules p inv

/-- **A module's turn touches no other module's buffer or start mark.** -/
theorem turn_frame [CaptureBackend β] (env : StepEnv) {m m' : ModuleId} (other : m' ≠ m)
    {p : Pipeline β} (inv : p.Inv) :
    (p.turn env m).1.mods.buffer m' = p.mods.buffer m' ∧
      (p.turn env m).1.lastEnabled m' = p.lastEnabled m' := by
  have alive := inv.alive
  unfold turn
  rw [if_neg (by simp [alive])]
  cases on : p.enabled m with
  | true =>
      rw [if_pos rfl]
      constructor
      · refine (process_frame _ _ _ _ m m' other).trans ?_
        unfold startModule
        split
        · rfl
        · exact startUp_frame _ _ m m' other
      · show (p.startModule env m).1.lastEnabled m' = p.lastEnabled m'
        unfold startModule
        split
        · rfl
        · exact setFlag_other _ _ other
  | false =>
      rw [if_neg Bool.false_ne_true]
      cases last : p.lastEnabled m with
      | true =>
          rw [if_pos rfl]
          obtain ⟨-, -, started, -, buffers⟩ := closeModule_spec inv (inv.linked m last)
          refine ⟨buffers m' other, ?_⟩
          show setFlag (p.closeModule m).1.lastEnabled m false m' = p.lastEnabled m'
          rw [setFlag_other _ _ other, started]
      | false => exact ⟨rfl, rfl⟩

/-- The turns of some modules touch no other module's buffer or start mark. -/
theorem visit_frame [CaptureBackend β] (env : StepEnv) {m' : ModuleId} (ms : List ModuleId)
    (missing : m' ∉ ms) {p : Pipeline β} (inv : p.Inv) :
    (visit (turn env) ms p).1.mods.buffer m' = p.mods.buffer m' ∧
      (visit (turn env) ms p).1.lastEnabled m' = p.lastEnabled m' := by
  induction ms generalizing p with
  | nil => exact ⟨rfl, rfl⟩
  | cons m ms ih =>
      rw [List.mem_cons, not_or] at missing
      obtain ⟨buffer, last⟩ := turn_frame env missing.1 inv
      obtain ⟨buffer', last'⟩ := ih missing.2 (turn_spec env m p inv).1
      exact ⟨buffer'.trans buffer, last'.trans last⟩

/-! ## The shutdown loop, specified -/

/-- Every module whose flag is set has its sentinels linked. -/
def Closable (p : Pipeline β) : Prop :=
  ∀ m, p.enabled m = true → (p.mods.buffer m).linked = true

instance (p : Pipeline β) : Decidable p.Closable :=
  decidable_of_iff (∀ m ∈ modules, p.enabled m = true → (p.mods.buffer m).linked = true)
    ⟨fun all m => all m (mem_modules m), fun all m _ => all m⟩

/-- **The shutdown loop on closable modules** empties the buffers of the modules
whose flag is set and leaves the others' alone. -/
theorem closeModules_spec [CaptureBackend β] {p : Pipeline β} (inv : p.Inv)
    (closable : p.Closable) :
    (p.closeModules).1.Inv ∧ p.Moves p.closeModules ∧
      ∀ m, ((p.closeModules).1.mods.buffer m).nodes =
        if p.enabled m then [] else (p.mods.buffer m).nodes := by
  have loop : ∀ (ms : List ModuleId) (q : Pipeline β), ms.Nodup → q.Inv → q.Closable →
      (visit closing ms q).1.Inv ∧ q.Moves (visit closing ms q) ∧
        (∀ m ∈ ms, ((visit closing ms q).1.mods.buffer m).nodes =
          if q.enabled m then [] else (q.mods.buffer m).nodes) ∧
        ∀ m, m ∉ ms → (visit closing ms q).1.mods.buffer m = q.mods.buffer m := by
    intro ms
    induction ms with
    | nil => exact fun q _ inv _ => ⟨inv, Moves.refl q, by simp, fun _ _ => rfl⟩
    | cons m ms ih =>
        intro q distinct inv closable
        obtain ⟨fresh, distinct⟩ := List.nodup_cons.1 distinct
        have alive := inv.alive
        have once : (q.closing m).1.Inv ∧ q.Moves (q.closing m) ∧
            ((q.closing m).1.mods.buffer m).nodes =
              (if q.enabled m then [] else (q.mods.buffer m).nodes) ∧
            (∀ m', m' ≠ m → (q.closing m).1.mods.buffer m' = q.mods.buffer m') := by
          unfold closing
          rw [if_neg (by simp [alive])]
          cases on : q.enabled m with
          | true =>
              obtain ⟨closed, moves, -, emptied, frame⟩ := closeModule_spec inv (closable m on)
              exact ⟨closed, moves, emptied, frame⟩
          | false => exact ⟨inv, Moves.refl q, rfl, fun _ _ => rfl⟩
        obtain ⟨inv', moves, here, frame⟩ := once
        have closable' : (q.closing m).1.Closable := by
          intro m' on
          rw [moves.flags] at on
          by_cases same : m' = m
          · subst same
            have linked := closable m' on
            have closed := (closeDown_queues q.main q.mods m').2.2.1
            unfold closing
            rw [if_neg (by simp [alive]), if_pos on, closeModule, if_pos linked]
            exact closed.trans linked
          · rw [frame m' same]
            exact closable m' on
        obtain ⟨final, rest, inside, outside⟩ := ih (q.closing m).1 distinct inv' closable'
        refine ⟨final, moves.trans rest, fun m' member => ?_, fun m' missing => ?_⟩
        · rcases List.mem_cons.1 member with rfl | inRest
          · show ((visit closing ms (q.closing m').1).1.mods.buffer m').nodes = _
            rw [outside m' fresh, here]
          · have other : m' ≠ m := fun same => fresh (same ▸ inRest)
            show ((visit closing ms (q.closing m).1).1.mods.buffer m').nodes = _
            rw [inside m' inRest, moves.flags, frame m' other]
        · rw [List.mem_cons, not_or] at missing
          exact (outside m' missing.2).trans (frame m' missing.1)
  obtain ⟨final, moves, inside, -⟩ := loop modules p modules_nodup inv closable
  exact ⟨final, moves, fun m => inside m (mem_modules m)⟩

theorem visit_crashed (ms : List ModuleId) {p : Pipeline β} (dead : p.crashed = true) :
    visit closing ms p = (p, {}) := by
  induction ms with
  | nil => rfl
  | cons m ms ih =>
      have stays : p.closing m = (p, {}) := by
        unfold closing
        rw [if_pos dead]
      simp only [visit, stays, ih]
      rfl

/-- **The shutdown loop dies on a module that was never started.** -/
theorem closeModules_crashes {p : Pipeline β} (alive : p.crashed = false)
    (stuck : ¬p.Closable) : (p.closeModules).1.crashed = true := by
  have loop : ∀ (ms : List ModuleId) (q : Pipeline β), ms.Nodup → q.crashed = false →
      (∃ m ∈ ms, q.enabled m = true ∧ (q.mods.buffer m).linked = false) →
      (visit closing ms q).1.crashed = true := by
    intro ms
    induction ms with
    | nil => simp
    | cons m ms ih =>
        intro q distinct alive bad
        obtain ⟨fresh, distinct⟩ := List.nodup_cons.1 distinct
        show (visit closing ms (q.closing m).1).1.crashed = true
        by_cases here : q.enabled m = true ∧ (q.mods.buffer m).linked = false
        · have dead : (q.closing m).1.crashed = true := by
            unfold closing
            rw [if_neg (by simp [alive]), if_pos here.1, closeModule, if_neg (by simp [here.2])]
          rw [visit_crashed ms dead]
          exact dead
        · obtain ⟨m', member, on, unlinked⟩ := bad
          have other : m' ≠ m := by
            rintro rfl
            exact here ⟨on, unlinked⟩
          have inRest := (List.mem_cons.1 member).resolve_left other
          have closed : (q.closing m).1.crashed = false ∧ (q.closing m).1.enabled = q.enabled ∧
              (q.closing m).1.mods.buffer m' = q.mods.buffer m' := by
            unfold closing
            rw [if_neg (by simp [alive])]
            split
            · rename_i onHere
              have linked : (q.mods.buffer m).linked = true := by
                by_contra unlinkedHere
                exact here ⟨onHere, by simpa using unlinkedHere⟩
              rw [closeModule, if_pos linked]
              exact ⟨alive, rfl, closeDown_frame _ _ m m' other⟩
            · exact ⟨alive, rfl, rfl⟩
          obtain ⟨alive', flags, frame⟩ := closed
          exact ih (q.closing m).1 distinct alive'
            ⟨m', inRest, by rw [flags]; exact on, by rw [frame]; exact unlinked⟩
  have bad : ∃ m ∈ modules, p.enabled m = true ∧ (p.mods.buffer m).linked = false := by
    simp only [Closable, not_forall] at stuck
    obtain ⟨m, on, unlinked⟩ := stuck
    exact ⟨m, mem_modules m, on, by simpa using unlinked⟩
  exact loop modules p modules_nodup alive bad

end Pipeline

end Clumsy.Capture
