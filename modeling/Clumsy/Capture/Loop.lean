/-
# Capture.Loop -- the module loop over either platform

`divertConsumeStep` is the same loop in both backends; what differs is the helpers behind
`common.h` and the blob each packet carries.  Over any helpers the loop neither loses nor makes
up a packet (`runModulesOn_spec`), and what holds of every packet's metadata and blob and
survives cloning holds of all packets behind it (`runModulesOn_kind`).

It never looks into a blob: changing the blobs and running it is running it and changing the
blobs (`runModulesOn_relabel`, `closeModules_relabel`).
-/
import Clumsy.Capture.Pipeline
import Clumsy.Modules.Opaque

namespace Clumsy.Capture

open Clumsy.Theory
open Clumsy.Packet
open Clumsy.Modules

set_option autoImplicit false

variable {β γ : Type}

namespace Pipeline

section Loop

variable [CaptureBackend β] (h : PacketHelpers)

/-- `module->process(head, tail)`, counting a TRUE answer. -/
def processModuleOn (env : StepEnv) (m : ModuleId) (p : Pipeline β) : Pipeline β × Effects β :=
  let out := processOn h (env.proc m) p.nextAddr p.main p.mods m
  ({ p with
      main := out.main
      mods := out.state
      nextAddr := p.nextAddr + out.clones.length
      processTriggered :=
        if out.triggered then setFlag p.processTriggered m (p.processTriggered m + 1)
        else p.processTriggered },
    { calls := [(m, .process)]
      freed := out.freed.map fun pac => (m, pac)
      clones := out.clones })

/-- The body of `divertConsumeStep`'s loop. -/
def turnOn (env : StepEnv) (m : ModuleId) (p : Pipeline β) : Pipeline β × Effects β :=
  if p.crashed then (p, {})
  else if p.enabled m then
    let started := p.startModule env m
    let processed := started.1.processModuleOn h env m
    (processed.1, started.2.append processed.2)
  else if p.lastEnabled m then
    let closed := p.closeModule m
    ({ closed.1 with lastEnabled := setFlag closed.1.lastEnabled m false }, closed.2)
  else (p, {})

/-- The loop of `divertConsumeStep`. -/
def runModulesOn (env : StepEnv) (p : Pipeline β) : Pipeline β × Effects β :=
  visit (turnOn h env) modules p

theorem turnOn_linux (env : StepEnv) (m : ModuleId) (p : Pipeline β) :
    p.turnOn .linux env m = p.turn env m := by
  unfold turnOn turn processModuleOn processModule
  simp only [processOn_linux]

theorem runModulesOn_linux (env : StepEnv) (p : Pipeline β) :
    p.runModulesOn .linux env = p.runModules env := by
  have same : turnOn .linux env = (turn env : ModuleId → Pipeline β → _) := by
    funext m p
    exact turnOn_linux env m p
  unfold runModulesOn runModules
  rw [same]

/-! ## What the loop keeps -/

theorem processModuleOn_spec (env : StepEnv) (m : ModuleId) {p : Pipeline β} (inv : p.Inv)
    (started : p.lastEnabled m = true) :
    (p.processModuleOn h env m).1.Inv ∧ p.Moves (p.processModuleOn h env m) := by
  have linked := inv.linked m started
  have clones := processOn_clones h (env.proc m) p.nextAddr p.main p.mods m
  have nodes : (p.processModuleOn h env m).2.freedNodes =
      (processOn h (env.proc m) p.nextAddr p.main p.mods m).freed := by
    simp [processModuleOn, Effects.freedNodes]
  refine ⟨⟨processOn_sound h _ _ _ inv.sound linked, fun m' on => ?_, inv.alive⟩, ?_⟩
  · show ((processOn h (env.proc m) p.nextAddr p.main p.mods m).state.buffer m').linked = true
    by_cases same : m' = m
    · subst same
      rw [processOn_linked]
      exact linked
    · rw [processOn_frame h _ _ _ _ m m' same]
      exact inv.linked m' on
  · refine {
      tags := ?_, addrs := clones.1, next := rfl, droppers := ?_, clones := ?_, flags := rfl }
    · rw [nodes]
      exact processOn_tags h (env.proc m) p.nextAddr p.main p.mods m
    · intro entry member
      obtain ⟨pac, freed, rfl⟩ := List.mem_map.1 member
      exact processOn_freed h _ _ _ _ _ (List.ne_nil_of_mem freed)
    · intro copy member
      obtain ⟨src, -, clone⟩ := clones.2 copy member
      exact ⟨src.backend, clone.2.2⟩

/-- A module that is off has the same turn over any helpers. -/
theorem turnOn_off (env : StepEnv) {m : ModuleId} {p : Pipeline β} (off : p.enabled m = false) :
    p.turnOn h env m = p.turn env m := by
  unfold turnOn turn
  simp [off]

omit [CaptureBackend β] in
theorem closeModule_enabled (m : ModuleId) (p : Pipeline β) :
    (p.closeModule m).1.enabled = p.enabled := by
  unfold closeModule
  split <;> rfl

/-- No module sets a flag. -/
theorem turn_enabled (env : StepEnv) (m : ModuleId) (p : Pipeline β) :
    (p.turn env m).1.enabled = p.enabled := by
  unfold turn
  split
  · rfl
  · split
    · show (p.startModule env m).1.enabled = p.enabled
      unfold startModule
      split <;> rfl
    · split
      · exact closeModule_enabled m p
      · rfl

omit [CaptureBackend β] in
theorem closeModules_enabled (p : Pipeline β) : p.closeModules.1.enabled = p.enabled := by
  unfold closeModules
  induction modules generalizing p with
  | nil => rfl
  | cons m ms ih =>
      have here : (p.closing m).1.enabled = p.enabled := by
        unfold closing
        split
        · rfl
        · split
          · exact closeModule_enabled m p
          · rfl
      exact (ih _).trans here

/-- Only a module that rewrites packets asks a helper anything. -/
theorem turnOn_plain (env : StepEnv) {m : ModuleId} {p : Pipeline β}
    (off : m.rewrites = true → p.enabled m = false) : p.turnOn h env m = p.turn env m := by
  cases rewrites : m.rewrites with
  | true => exact turnOn_off h env (off rewrites)
  | false =>
      unfold turnOn turn processModuleOn processModule
      simp only [processOn_plain h _ _ _ _ rewrites]

/-- **With the rewriting modules off, the loop is the same over any helpers.** -/
theorem runModulesOn_plain (env : StepEnv) {p : Pipeline β}
    (off : ∀ m, m.rewrites = true → p.enabled m = false) :
    p.runModulesOn h env = p.runModules env ∧ (p.runModules env).1.enabled = p.enabled := by
  unfold runModulesOn runModules
  induction modules generalizing p with
  | nil => exact ⟨rfl, rfl⟩
  | cons m ms ih =>
      have kept := turn_enabled env m p
      obtain ⟨same, enabled⟩ := ih (p := (p.turn env m).1) (by rw [kept]; exact off)
      refine ⟨?_, enabled.trans kept⟩
      simp only [visit, turnOn_plain h env (off m), same]

theorem turnOn_on (env : StepEnv) {m : ModuleId} {p : Pipeline β} (alive : p.crashed = false)
    (on : p.enabled m = true) :
    p.turnOn h env m =
      (((p.startModule env m).1.processModuleOn h env m).1,
        (p.startModule env m).2.append ((p.startModule env m).1.processModuleOn h env m).2) := by
  unfold turnOn
  rw [if_neg (by simp [alive]), if_pos on]

theorem turnOn_spec (env : StepEnv) (m : ModuleId) (p : Pipeline β) (inv : p.Inv) :
    (p.turnOn h env m).1.Inv ∧ p.Moves (p.turnOn h env m) := by
  cases on : p.enabled m with
  | false =>
      rw [turnOn_off h env on]
      exact turn_spec env m p inv
  | true =>
      obtain ⟨started, last, first⟩ := startModule_spec env m inv
      obtain ⟨processed, second⟩ := processModuleOn_spec h env m started last
      rw [turnOn_on h env inv.alive on]
      exact ⟨processed, first.trans second⟩

/-- **The module loop of a step**, over any helpers. -/
theorem runModulesOn_spec (env : StepEnv) {p : Pipeline β} (inv : p.Inv) :
    (p.runModulesOn h env).1.Inv ∧ p.Moves (p.runModulesOn h env) :=
  visit_spec Moves.refl Moves.trans (fun m p => turnOn_spec h env m p) modules p inv

end Loop

/-! ## What holds of every packet -/

section Kind

variable [CaptureBackend β] (K : PacketMeta → β → Prop)

/-- All packets inside are of a kind. -/
def Kind (p : Pipeline β) : Prop := ∀ pac ∈ p.inside, K pac.pktMeta pac.backend

/-- All packets an effect names are of a kind. -/
def Shows (fx : Effects β) : Prop :=
  (∀ pac ∈ fx.freedNodes, K pac.pktMeta pac.backend) ∧ ∀ pac ∈ fx.clones, K pac.pktMeta pac.backend

omit [CaptureBackend β] in
theorem kind_of_tags {as bs : List (PacketNode β)}
    (same : (as.map PacketNode.tag).Perm (bs.map PacketNode.tag))
    (all : ∀ pac ∈ bs, K pac.pktMeta pac.backend) : ∀ pac ∈ as, K pac.pktMeta pac.backend := by
  intro pac member
  have tagged := same.mem_iff.1 (List.mem_map_of_mem member)
  obtain ⟨other, inside, tag⟩ := List.mem_map.1 tagged
  simp only [PacketNode.tag, Prod.mk.injEq] at tag
  obtain ⟨-, -, pktMeta, backend⟩ := tag
  rw [← pktMeta, ← backend]
  exact all other inside

/-- If the clones are of a kind as well, so is everything. -/
theorem Moves.kind {p : Pipeline β} {out : Pipeline β × Effects β} (moves : p.Moves out)
    (all : p.Kind K) (clones : ∀ pac ∈ out.2.clones, K pac.pktMeta pac.backend) :
    out.1.Kind K ∧ Shows K out.2 := by
  have both := kind_of_tags K moves.tags (fun pac member => by
    rcases List.mem_append.1 member with old | new
    · exact all pac old
    · exact clones pac new)
  exact ⟨fun pac member => both pac (List.mem_append_left _ member),
    fun pac member => both pac (List.mem_append_right _ member), clones⟩

/-- **A kind that cloning keeps is kept by the module loop.** -/
theorem runModulesOn_kind (h : PacketHelpers)
    (cloned : ∀ m b, K m b → K m (CaptureBackend.packetBackendPrepareClone b)) (env : StepEnv)
    {p : Pipeline β} (inv : p.Inv) (all : p.Kind K) :
    (p.runModulesOn h env).1.Kind K ∧ Shows K (p.runModulesOn h env).2 := by
  have once : ∀ m (q : Pipeline β), q.Inv ∧ q.Kind K →
      ((q.turnOn h env m).1.Inv ∧ (q.turnOn h env m).1.Kind K) ∧ Shows K (q.turnOn h env m).2 := by
    rintro m q ⟨inv, all⟩
    obtain ⟨inv', moves⟩ := turnOn_spec h env m q inv
    have clones : ∀ pac ∈ (q.turnOn h env m).2.clones, K pac.pktMeta pac.backend := by
      intro copy member
      cases on : q.enabled m with
      | false =>
          -- only a call of `process` clones
          rw [turnOn_off h env on] at member
          unfold turn at member
          rw [if_neg (by simp [inv.alive]), if_neg (by simp [on])] at member
          split at member
          · unfold closeModule at member
            split at member <;> exact absurd member List.not_mem_nil
          · exact absurd member List.not_mem_nil
      | true =>
          rw [turnOn_on h env inv.alive on] at member
          have started := startModule_main env m q
          have here : copy ∈ (processOn h (env.proc m) (q.startModule env m).1.nextAddr
              (q.startModule env m).1.main (q.startModule env m).1.mods m).clones := by
            rcases List.mem_append.1 member with first | second
            · unfold startModule at first
              split at first <;> exact absurd first List.not_mem_nil
            · exact second
          obtain ⟨src, source, -, pktMeta, blob⟩ := (processOn_clones h _ _ _ _ m).2 copy here
          rw [started] at source
          rw [pktMeta, blob]
          exact cloned _ _ (all src (List.mem_append_left _ source))
    obtain ⟨all', shows_⟩ := moves.kind K all clones
    exact ⟨⟨inv', all'⟩, shows_⟩
  obtain ⟨⟨-, all'⟩, shows_⟩ := visit_spec (R := fun _ out => Shows K out.2)
    (fun _ => ⟨by simp [Effects.freedNodes], by simp⟩)
    (fun first second => ⟨by
        rw [Effects.append_freedNodes]
        exact fun pac member => (List.mem_append.1 member).elim (first.1 pac) (second.1 pac),
      fun pac member => (List.mem_append.1 member).elim (first.2 pac) (second.2 pac)⟩)
    once modules p ⟨inv, all⟩
  exact ⟨all', shows_⟩

omit [CaptureBackend β] in
/-- Closing modules clones nothing. -/
theorem closeModules_clones (p : Pipeline β) : (p.closeModules).2.clones = [] := by
  have once : ∀ m (q : Pipeline β), (q.closing m).2.clones = [] := by
    intro m q
    unfold closing closeModule
    split_ifs <;> rfl
  have loop : ∀ (ms : List ModuleId) (q : Pipeline β), (visit closing ms q).2.clones = [] := by
    intro ms
    induction ms with
    | nil => exact fun _ => rfl
    | cons m ms ih =>
        intro q
        show (q.closing m).2.clones ++ (visit closing ms (q.closing m).1).2.clones = []
        rw [once, ih, List.append_nil]
  exact loop modules p

theorem closeModules_kind {p : Pipeline β} (inv : p.Inv) (closable : p.Closable)
    (all : p.Kind K) : (p.closeModules).1.Kind K := by
  obtain ⟨-, moves, -⟩ := closeModules_spec inv closable
  exact (moves.kind K all (by simp [closeModules_clones])).1

end Kind

/-! ## Blobs are carried along -/

section Relabel

variable (f : β → γ)

def relabel (p : Pipeline β) : Pipeline γ :=
  { main := p.main.map (PacketNode.relabel f)
    mods := p.mods.relabel f
    enabled := p.enabled
    lastEnabled := p.lastEnabled
    processTriggered := p.processTriggered
    nextAddr := p.nextAddr
    crashed := p.crashed }

end Relabel

end Pipeline

def Effects.relabel (f : β → γ) (fx : Effects β) : Effects γ :=
  { calls := fx.calls
    freed := fx.freed.map fun entry => (entry.1, entry.2.relabel f)
    clones := fx.clones.map (PacketNode.relabel f) }

theorem Effects.relabel_append (f : β → γ) (a b : Effects β) :
    (a.append b).relabel f = (a.relabel f).append (b.relabel f) := by
  simp [Effects.relabel, Effects.append]

namespace Pipeline

variable (f : β → γ)

theorem applyWrite_relabel (p : Pipeline β) (w : Write) :
    (p.relabel f).applyWrite w = (p.applyWrite w).relabel f := by
  cases w with
  | enable m on => rfl
  | param w => simp only [applyWrite, relabel, setParam_relabel]

theorem appendNode_relabel (p : Pipeline β) (packet : Bytes) (pktMeta : PacketMeta)
    (backend : β) :
    (p.relabel f).appendNode packet pktMeta (f backend) =
      (p.appendNode packet pktMeta backend).relabel f := by
  simp [appendNode, relabel, createNode, PacketNode.relabel]

theorem startModule_relabel (env : StepEnv) (m : ModuleId) (p : Pipeline β) :
    (p.relabel f).startModule env m =
      ((p.startModule env m).1.relabel f, (p.startModule env m).2.relabel f) := by
  unfold startModule
  show (if p.lastEnabled m then _ else _) = _
  split
  · rfl
  · simp only [relabel, startUp_relabel]
    rfl

theorem closeModule_relabel (m : ModuleId) (p : Pipeline β) :
    (p.relabel f).closeModule m =
      ((p.closeModule m).1.relabel f, (p.closeModule m).2.relabel f) := by
  have linked : ((p.relabel f).mods.buffer m).linked = (p.mods.buffer m).linked := by
    show ((p.mods.relabel f).buffer m).linked = _
    rw [Statics.relabel_buffer]
    rfl
  unfold closeModule
  rw [linked]
  split
  · simp only [relabel, closeDown_relabel]
    rfl
  · rfl

theorem closing_relabel (m : ModuleId) (p : Pipeline β) :
    (p.relabel f).closing m = ((p.closing m).1.relabel f, (p.closing m).2.relabel f) := by
  unfold closing
  show (if p.crashed then _ else if p.enabled m then _ else _) = _
  split
  · rfl
  · split
    · exact closeModule_relabel f m p
    · rfl

/-- A loop over the modules goes along if its body does. -/
theorem visit_relabel {body : ModuleId → Pipeline β → Pipeline β × Effects β}
    {body' : ModuleId → Pipeline γ → Pipeline γ × Effects γ}
    (once : ∀ m p, body' m (p.relabel f) = ((body m p).1.relabel f, (body m p).2.relabel f)) :
    ∀ (ms : List ModuleId) (p : Pipeline β), visit body' ms (p.relabel f) =
      ((visit body ms p).1.relabel f, (visit body ms p).2.relabel f)
  | [], _ => rfl
  | m :: ms, p => by
      simp only [visit, once, visit_relabel once ms, Effects.relabel_append]

theorem closeModules_relabel (p : Pipeline β) :
    (p.relabel f).closeModules =
      ((p.closeModules).1.relabel f, (p.closeModules).2.relabel f) :=
  visit_relabel f (closing_relabel f) modules p

variable [CaptureBackend β] [CaptureBackend γ] [Follows f] (h : PacketHelpers)

theorem processModuleOn_relabel (env : StepEnv) (m : ModuleId) (p : Pipeline β) :
    (p.relabel f).processModuleOn h env m =
      ((p.processModuleOn h env m).1.relabel f, (p.processModuleOn h env m).2.relabel f) := by
  unfold processModuleOn
  simp only [relabel, processOn_relabel]
  simp only [Outcome.relabel, Effects.relabel, List.length_map, List.map_map]
  rfl

theorem turnOn_relabel (env : StepEnv) (m : ModuleId) (p : Pipeline β) :
    (p.relabel f).turnOn h env m =
      ((p.turnOn h env m).1.relabel f, (p.turnOn h env m).2.relabel f) := by
  unfold turnOn
  show (if p.crashed then _ else if p.enabled m then _ else if p.lastEnabled m then _ else _) = _
  split
  · rfl
  · split
    · simp only [startModule_relabel, processModuleOn_relabel, Effects.relabel_append]
    · split
      · simp only [closeModule_relabel]
        rfl
      · rfl

/-- **The module loop does the same whatever the blobs are.** -/
theorem runModulesOn_relabel (env : StepEnv) (p : Pipeline β) :
    (p.relabel f).runModulesOn h env =
      ((p.runModulesOn h env).1.relabel f, (p.runModulesOn h env).2.relabel f) :=
  visit_relabel f (turnOn_relabel f h env) modules p

end Pipeline

end Clumsy.Capture
