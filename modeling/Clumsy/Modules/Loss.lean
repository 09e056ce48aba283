/-
# Modules.Loss -- drop.cpp, burstloss.cpp, blackout.cpp

Three modules that free packets of the main queue and hold none.  Each walks the
queue from the head with its own reason to drop: an independent coin, a
two-state chain, a phase of the clock.  They share one loop, `discardWhere`, and
its lemmas; what differs is the decision.
-/
import Clumsy.Modules.Basic

namespace Clumsy.Modules

open Clumsy.Theory
open Clumsy.Packet

set_option autoImplicit false

variable {β : Type}

/-! ## The shared loop -/

section Discard

variable {σ : Type} (drops : σ → PacketNode β → Bool × σ)

/-- Walk from `head->next` to `tail` and free every packet the decision drops. -/
def discardWhere (s : σ) (main : List (PacketNode β)) : Swept σ (PacketNode β) :=
  sweep (fun s pac => ((drops s pac).2, if (drops s pac).1 then .discard else .keep)) s main

theorem discardWhere_perm (s : σ) (main : List (PacketNode β)) :
    ((discardWhere drops s main).kept ++ (discardWhere drops s main).gone).Perm main := by
  have none_held := sweep_held_nil
    (fun s pac => ((drops s pac).2, if (drops s pac).1 then Fate.discard else .keep))
    (fun s a b => by simp only; split <;> simp) main s
  have split := sweep_perm
    (fun s pac => ((drops s pac).2, if (drops s pac).1 then Fate.discard else .keep)) id
    (fun s a b held => by simp only at held; split at held <;> simp at held) main s
  rw [none_held, List.append_nil, List.map_id, List.map_id] at split
  exact split

/-- Packets the decision never drops keep their places. -/
theorem discardWhere_filter (p : PacketNode β → Bool)
    (spared : ∀ s pac, p pac = true → (drops s pac).1 = false) (s : σ)
    (main : List (PacketNode β)) :
    (discardWhere drops s main).kept.filter p = main.filter p ∧
      (discardWhere drops s main).gone.filter p = [] := by
  obtain ⟨kept, -, gone⟩ := sweep_filter
    (fun s pac => ((drops s pac).2, if (drops s pac).1 then Fate.discard else .keep)) p
    (fun s a pa => by simp [spared s a pa])
    (fun s a b held => by simp only at held; split at held <;> simp at held) main s
  exact ⟨kept, gone⟩

end Discard

/-! ## drop.cpp -/

/-- The statics of `drop.cpp`. -/
structure Drop where
  dropInbound   : Bool
  dropOutbound  : Bool
  chance        : Chance
  affectedCount : Nat

namespace Drop

def initial : Drop where
  dropInbound := true
  dropOutbound := true
  chance := .literal 1000 (.refl true)
  affectedCount := 0

def handles (drop : Drop) (pac : PacketNode β) : Bool :=
  checkDirection pac.pktMeta.outbound drop.dropInbound drop.dropOutbound

/-- `checkDirection(..) && calcChance(chance)`. -/
def drops (drop : Drop) (d : Draws) (pac : PacketNode β) : Bool × Draws :=
  if drop.handles pac then calcChance drop.chance.val d else (false, d)

end Drop

def dropProcess (env : ProcEnv) (main : List (PacketNode β)) (drop : Drop) : Outcome Drop β :=
  let walked := discardWhere drop.drops env.draws main
  { state := { drop with affectedCount := drop.affectedCount + walked.gone.length }
    main := walked.kept
    freed := walked.gone
    triggered := decide (walked.gone.length > 0) }

/-- A control write to one of drop's parameters, after its value was parsed. -/
inductive DropParam where
  | chance (v : Int)
  | inbound (on : Bool)
  | outbound (on : Bool)
  deriving Repr

def dropSetParam (drop : Drop) : DropParam → Drop
  | .chance v => { drop with chance := .set v }
  | .inbound on => { drop with dropInbound := on }
  | .outbound on => { drop with dropOutbound := on }

theorem dropProcess_perm (env : ProcEnv) (main : List (PacketNode β)) (drop : Drop) :
    ((dropProcess env main drop).main ++ (dropProcess env main drop).freed).Perm main :=
  discardWhere_perm _ _ _

theorem dropProcess_filter (env : ProcEnv) (main : List (PacketNode β)) (drop : Drop)
    (p : PacketNode β → Bool) (off : ∀ pac, p pac = true → drop.handles pac = false) :
    (dropProcess env main drop).main.filter p = main.filter p ∧
      (dropProcess env main drop).freed.filter p = [] :=
  discardWhere_filter _ p (fun d pac pp => by simp [Drop.drops, off pac pp]) _ _

/-! ## burstloss.cpp -/

/-- `STATE_GOOD` and `STATE_BAD` of the Gilbert-Elliott chain. -/
inductive BurstState where
  | good
  | bad
  deriving DecidableEq, Repr

/-- The statics of `burstloss.cpp`. -/
structure Burstloss where
  burstlossInbound  : Bool
  burstlossOutbound : Bool
  chanceGood        : Chance
  chanceBad         : Chance
  chanceGB          : Chance
  chanceBG          : Chance
  currentState      : BurstState
  affectedCount     : Nat

namespace Burstloss

def initial : Burstloss where
  burstlossInbound := true
  burstlossOutbound := true
  chanceGood := .literal 200 (.refl true)
  chanceBad := .literal 8000 (.refl true)
  chanceGB := .literal 500 (.refl true)
  chanceBG := .literal 2000 (.refl true)
  currentState := .good
  affectedCount := 0

def handles (burst : Burstloss) (pac : PacketNode β) : Bool :=
  checkDirection pac.pktMeta.outbound burst.burstlossInbound burst.burstlossOutbound

/-- The drop decision of the current state, then the state's transition. -/
def drops (burst : Burstloss) (s : BurstState × Draws) (pac : PacketNode β) :
    Bool × BurstState × Draws :=
  if burst.handles pac then
    match s.1 with
    | .good =>
        let doDropped := calcChance burst.chanceGood.val s.2
        let flips := calcChance burst.chanceGB.val doDropped.2
        (doDropped.1, if flips.1 then .bad else .good, flips.2)
    | .bad =>
        let doDropped := calcChance burst.chanceBad.val s.2
        let flips := calcChance burst.chanceBG.val doDropped.2
        (doDropped.1, if flips.1 then .good else .bad, flips.2)
  else (false, s)

end Burstloss

def burstlossStartUp (burst : Burstloss) : Burstloss := { burst with currentState := .good }

def burstlossProcess (env : ProcEnv) (main : List (PacketNode β)) (burst : Burstloss) :
    Outcome Burstloss β :=
  let walked := discardWhere burst.drops (burst.currentState, env.draws) main
  { state := { burst with
      currentState := walked.state.1
      affectedCount := burst.affectedCount + walked.gone.length }
    main := walked.kept
    freed := walked.gone
    triggered := decide (walked.gone.length > 0) }

/-- A control write to one of burstloss's parameters, after its value was
parsed. -/
inductive BurstlossParam where
  | good (v : Int)
  | bad (v : Int)
  | gb (v : Int)
  | bg (v : Int)
  | inbound (on : Bool)
  | outbound (on : Bool)
  deriving Repr

def burstlossSetParam (burst : Burstloss) : BurstlossParam → Burstloss
  | .good v => { burst with chanceGood := .set v }
  | .bad v => { burst with chanceBad := .set v }
  | .gb v => { burst with chanceGB := .set v }
  | .bg v => { burst with chanceBG := .set v }
  | .inbound on => { burst with burstlossInbound := on }
  | .outbound on => { burst with burstlossOutbound := on }

theorem burstlossProcess_perm (env : ProcEnv) (main : List (PacketNode β)) (burst : Burstloss) :
    ((burstlossProcess env main burst).main ++ (burstlossProcess env main burst).freed).Perm main :=
  discardWhere_perm _ _ _

theorem burstlossProcess_filter (env : ProcEnv) (main : List (PacketNode β)) (burst : Burstloss)
    (p : PacketNode β → Bool) (off : ∀ pac, p pac = true → burst.handles pac = false) :
    (burstlossProcess env main burst).main.filter p = main.filter p ∧
      (burstlossProcess env main burst).freed.filter p = [] :=
  discardWhere_filter _ p (fun s pac pp => by simp [Burstloss.drops, off pac pp]) _ _

/-! ## blackout.cpp -/

/-- `PHASE_NORMAL` and `PHASE_BLACKOUT`. -/
inductive Phase where
  | normal
  | blackout
  deriving DecidableEq, Repr

def Phase.toggle : Phase → Phase
  | .normal => .blackout
  | .blackout => .normal

/-- The statics of `blackout.cpp`. -/
structure Blackout where
  blackoutInbound  : Bool
  blackoutOutbound : Bool
  triggerPending   : Bool
  durationMs       : Clamped 100 60000
  gapMs            : Clamped 1000 300000
  currentPhase     : Phase
  phaseStart       : UInt32
  affectedCount    : Nat

namespace Blackout

def initial : Blackout where
  blackoutInbound := true
  blackoutOutbound := true
  triggerPending := false
  durationMs := .literal 3000 (.refl true)
  gapMs := .literal 15000 (.refl true)
  currentPhase := .normal
  phaseStart := 0
  affectedCount := 0

def handles (blackout : Blackout) (pac : PacketNode β) : Bool :=
  checkDirection pac.pktMeta.outbound blackout.blackoutInbound blackout.blackoutOutbound

/-- A pending manual trigger toggles the phase at once. -/
def manual (now : UInt32) (blackout : Blackout) : Blackout :=
  if blackout.triggerPending then
    { blackout with
      triggerPending := false
      currentPhase := blackout.currentPhase.toggle
      phaseStart := now }
  else blackout

/-- How long the current phase lasts: the gap or the blackout's duration. -/
def phaseLength (blackout : Blackout) : UInt32 :=
  match blackout.currentPhase with
  | .normal => UInt32.ofInt blackout.gapMs.val
  | .blackout => UInt32.ofInt blackout.durationMs.val

/-- The periodic transition. -/
def periodic (now : UInt32) (blackout : Blackout) : Blackout :=
  if now - blackout.phaseStart ≥ blackout.phaseLength then
    { blackout with
      currentPhase := blackout.currentPhase.toggle
      phaseStart := now }
  else blackout

end Blackout

def blackoutStartUp (now : UInt32) (blackout : Blackout) : Blackout :=
  { blackout with currentPhase := .normal, phaseStart := now, triggerPending := false }

def blackoutCloseDown (main : List (PacketNode β)) (blackout : Blackout) : Outcome Blackout β :=
  { state := { blackout with currentPhase := .normal }, main, triggered := false }

def blackoutProcess (env : ProcEnv) (main : List (PacketNode β)) (blackout : Blackout) :
    Outcome Blackout β :=
  let now := env.ticks 0
  let moved := (blackout.manual now).periodic now
  match moved.currentPhase with
  | .blackout =>
      let walked := discardWhere (fun (_ : Unit) pac => (moved.handles pac, ())) () main
      { state := { moved with affectedCount := moved.affectedCount + walked.gone.length }
        main := walked.kept
        freed := walked.gone
        triggered := true }
  | .normal => { state := moved, main, triggered := false }

/-- A control write to one of blackout's parameters, after its value was
parsed. -/
inductive BlackoutParam where
  | duration (v : Int)
  | gap (v : Int)
  | inbound (on : Bool)
  | outbound (on : Bool)
  | trigger (on : Bool)
  deriving Repr

/-- The trigger only arms while the module's enabled flag is set. -/
def blackoutSetParam (blackoutEnabled : Bool) (blackout : Blackout) : BlackoutParam → Blackout
  | .duration v => { blackout with durationMs := .ofLong (.refl true) v }
  | .gap v => { blackout with gapMs := .ofLong (.refl true) v }
  | .inbound on => { blackout with blackoutInbound := on }
  | .outbound on => { blackout with blackoutOutbound := on }
  | .trigger on =>
      if on && blackoutEnabled then { blackout with triggerPending := true } else blackout

namespace Blackout

theorem manual_handles (now : UInt32) (blackout : Blackout) (pac : PacketNode β) :
    (blackout.manual now).handles pac = blackout.handles pac := by
  unfold manual
  split <;> rfl

theorem periodic_handles (now : UInt32) (blackout : Blackout) (pac : PacketNode β) :
    (blackout.periodic now).handles pac = blackout.handles pac := by
  unfold periodic
  split <;> rfl

end Blackout

theorem blackoutProcess_perm (env : ProcEnv) (main : List (PacketNode β)) (blackout : Blackout) :
    ((blackoutProcess env main blackout).main ++
      (blackoutProcess env main blackout).freed).Perm main := by
  unfold blackoutProcess
  simp only
  split
  · exact discardWhere_perm _ _ _
  · simp

@[simp] theorem blackoutProcess_clones (env : ProcEnv) (main : List (PacketNode β))
    (blackout : Blackout) : (blackoutProcess env main blackout).clones = [] := by
  unfold blackoutProcess
  simp only
  split <;> rfl

theorem blackoutProcess_filter (env : ProcEnv) (main : List (PacketNode β)) (blackout : Blackout)
    (p : PacketNode β → Bool) (off : ∀ pac, p pac = true → blackout.handles pac = false) :
    (blackoutProcess env main blackout).main.filter p = main.filter p ∧
      (blackoutProcess env main blackout).freed.filter p = [] := by
  unfold blackoutProcess
  simp only
  split
  · refine discardWhere_filter _ p (fun _ pac pp => ?_) _ _
    rw [Blackout.periodic_handles, Blackout.manual_handles]
    exact off pac pp
  · exact ⟨rfl, rfl⟩

end Clumsy.Modules
