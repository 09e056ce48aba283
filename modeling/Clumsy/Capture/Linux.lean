/-
# Capture.Linux -- divert_linux.cpp: the NFQUEUE capture session

Between `divertStart` and the return of `divertClockLoop` a session is a run of
events, each of which holds the capture mutex: the kernel hands a packet to
`nfqCallback`, the clock runs `divertConsumeStep`, another thread writes a flag
or a parameter.  `shutdown` is what the clock thread does once it has seen
`stopLooping`; the read thread handles no packet after that.

Next to the program's own state, `Linux` keeps the session's history: the ids
given to the callback, the verdicts sent, the packets captured, cloned, freed and
sent.  The queue handle is open for as long as the threads run, so the
`!nfqQueue` test of `settleVerdict` never fires here.
-/
import Clumsy.Capture.Pipeline
import Clumsy.Filter.Program

namespace Clumsy.Capture

open Clumsy.Theory
open Clumsy.Packet
open Clumsy.Modules
open Clumsy.Filter

set_option autoImplicit false

/-! ## Per-packet state -/

structure LinuxPacketMeta where
  /-- NFQUEUE id; 0 means "not from the queue". -/
  packetId      : UInt32
  verdictIssued : Bool
  /-- Injected by us, sent through the raw socket. -/
  synthetic     : Bool
  deriving DecidableEq, Repr

instance : CaptureBackend LinuxPacketMeta where
  packetBackendPrepareClone _ := { packetId := 0, verdictIssued := false, synthetic := true }

abbrev LinuxNode := PacketNode LinuxPacketMeta

inductive Verdict where
  | accept
  | drop
  deriving DecidableEq, Repr

/-- One call of `nfq_set_verdict`: the id, the verdict and the bytes handed back. -/
structure Answer where
  packetId : UInt32
  verdict  : Verdict
  packet   : Option Bytes
  deriving DecidableEq, Repr

/-- Answer the kernel for one queued packet; only the first call gets through. -/
def settleVerdict (node : LinuxNode) (verdict : Verdict) : LinuxNode × List Answer :=
  let m := node.backend
  if m.synthetic || m.verdictIssued || m.packetId == 0 then (node, [])
  else
    ({ node with backend := { m with verdictIssued := true } },
      [{ packetId := m.packetId
         verdict
         packet := match verdict with
           | .accept => some node.packet
           | .drop => none }])

def packetBackendOnFree (node : LinuxNode) : List Answer := (settleVerdict node .drop).2

/-! ## Raw socket injection -/

def INJECT_RATE_LIMIT : Nat := 5000

/-- The statics of raw-socket injection; a socket is there or not. -/
structure RawInject where
  rawSocket         : Bool
  rawSocket6        : Bool
  rawHdrIncl6       : Bool
  rawDropCount      : Nat
  injectWindowCount : Nat
  injectWindowStart : UInt32
  injectDisabled    : Bool
  deriving Repr

/-- How a `sendto` ends: `EAGAIN` and `ENOBUFS` are `full`. -/
inductive SendTo where
  | sent
  | full
  | failed
  deriving DecidableEq, Repr

namespace RawInject

/-- Count one injection in the current one-second window. -/
def countInWindow (now : UInt32) (inject : RawInject) : RawInject :=
  if inject.injectWindowStart = 0 ∨ now - inject.injectWindowStart ≥ 1000 then
    { inject with injectWindowStart := now, injectWindowCount := 1 }
  else { inject with injectWindowCount := inject.injectWindowCount + 1 }

/-- The `sendto` of an IPv4 or IPv6 clone. -/
def send (outcome : SendTo) (inject : RawInject) : Bool × RawInject :=
  match outcome with
  | .sent => (true, inject)
  | .full => (false, { inject with rawDropCount := inject.rawDropCount + 1 })
  | .failed => (false, inject)

end RawInject

def injectRawPacket (now : UInt32) (outcome : SendTo) (node : LinuxNode) (inject : RawInject) :
    Bool × RawInject :=
  if node.packetLen < 20 then (false, inject)
  else if !inject.rawSocket && !inject.rawSocket6 then (false, inject)
  else if !node.pktMeta.outbound then (false, inject)
  else if inject.injectDisabled then (false, inject)
  else
    let inject := inject.countInWindow now
    if inject.injectWindowCount > INJECT_RATE_LIMIT then
      (false, { inject with injectDisabled := true })
    else if (node.packet.byteAt 0).toNat / 16 = 6 then
      if !inject.rawSocket6 || decide (node.packetLen ≤ 40) then (false, inject)
      else inject.send outcome
    else if !inject.rawSocket then (false, inject)
    else inject.send outcome

/-! ## The session -/

inductive SendStatus where
  | none
  | send
  | fail
  deriving DecidableEq, Repr

structure Linux where
  pipe               : Pipeline LinuxPacketMeta
  filterProg         : Option FilterProgram
  inject             : RawInject
  statsCapturedTotal : Nat
  statsSentTotal     : Nat
  sendState          : SendStatus
  /-- History: every id handed to `nfqCallback`. -/
  given              : List UInt32
  answers            : List Answer
  captured           : List LinuxNode
  clones             : List LinuxNode
  freed              : List (ModuleId × LinuxNode)
  sent               : List LinuxNode

/-- What one step finds outside: what the modules see, and for each packet sent
the time and how its `sendto` ends. -/
structure LinuxEnv where
  step : StepEnv
  send : Nat → UInt32 × SendTo

namespace Linux

/-- Book what the modules did: freeing a node answers for it. -/
def record (fx : Effects LinuxPacketMeta) (s : Linux) : Linux :=
  { s with
    answers := s.answers ++ fx.freedNodes.flatMap packetBackendOnFree
    clones := s.clones ++ fx.clones
    freed := s.freed ++ fx.freed }

/-- The body of `sendAllListPackets`' loop, for the packet popped from the tail. -/
def sendOne (env : UInt32 × SendTo) (pnode : LinuxNode) (s : Linux) : Linux :=
  let s := { s with statsSentTotal := s.statsSentTotal + 1, sent := s.sent ++ [pnode] }
  if pnode.backend.synthetic then
    let injected := injectRawPacket env.1 env.2 pnode s.inject
    { s with
      inject := injected.2
      sendState := if injected.1 then .send else .fail
      answers := s.answers ++ packetBackendOnFree pnode }
  else
    let settled := settleVerdict pnode .accept
    { s with
      sendState := .send
      answers := s.answers ++ settled.2 ++ packetBackendOnFree settled.1 }

def sendEach : (Nat → UInt32 × SendTo) → List LinuxNode → Linux → Linux
  | _, [], s => s
  | env, pnode :: rest, s => sendEach (fun n => env (n + 1)) rest (s.sendOne (env 0) pnode)

def sendAllListPackets (env : Nat → UInt32 × SendTo) (s : Linux) : Linux :=
  sendEach env s.pipe.main.reverse { s with pipe := { s.pipe with main := [] } }

def divertConsumeStep (env : LinuxEnv) (s : Linux) : Linux :=
  let out := s.pipe.runModules env.step
  let s := { s with pipe := out.1 }.record out.2
  if out.1.crashed then s else s.sendAllListPackets env.send

/-- What `nfq_get_*` return for one queued packet. -/
structure NfqData where
  /-- `none` when the message carries no packet header. -/
  packetId   : Option UInt32
  /-- `none` when there is no payload. -/
  payload    : Option Bytes
  indev      : UInt32
  outdev     : UInt32
  physindev  : UInt32
  physoutdev : UInt32

/-- The metadata `nfqCallback` derives from a message. -/
def NfqData.pktMeta (nfa : NfqData) (payload : Bytes) : PacketMeta :=
  let outbound := nfa.indev == 0
  { outbound
    ipVersion := if (payload.byteAt 0).toNat / 16 = 6 then 6 else 4
    ifIdx := if outbound then nfa.outdev else nfa.indev
    subIfIdx := 0
    loopback := nfa.physindev == 1 || nfa.physoutdev == 1
    impostor := false }

/-- `nfq_set_verdict(qh, id, NF_ACCEPT, 0, NULL)`. -/
def passThrough (id : UInt32) (s : Linux) : Linux :=
  { s with answers := s.answers ++ [{ packetId := id, verdict := .accept, packet := none }] }

/-- Put a captured packet on the list. -/
def capture (id : UInt32) (pktMeta : PacketMeta) (payload : Bytes) (s : Linux) : Linux :=
  let backend : LinuxPacketMeta := { packetId := id, verdictIssued := false, synthetic := false }
  { s with
    pipe := s.pipe.appendNode payload pktMeta backend
    statsCapturedTotal := s.statsCapturedTotal + 1
    captured := s.captured ++ [createNode s.pipe.nextAddr payload pktMeta backend] }

/-- `nfqCallback`; `alloc` is whether `createNode` finds memory. -/
def nfqCallback (env : LinuxEnv) (alloc : Bool) (nfa : NfqData) (s : Linux) : Linux :=
  match nfa.packetId with
  | none => s
  | some id =>
      let s := { s with given := s.given ++ [id] }
      match nfa.payload with
      | none | some [] => s.passThrough id
      | some payload =>
          let pktMeta := nfa.pktMeta payload
          let unmatched :=
            s.filterProg.any fun prog => !filterMatch prog pktMeta payload
          if unmatched then s.passThrough id
          else if !alloc then s.passThrough id
          else (s.capture id pktMeta payload).divertConsumeStep env

/-- Closing all modules and sending what is left, in `divertClockLoop`. -/
def shutdown (env : Nat → UInt32 × SendTo) (s : Linux) : Linux :=
  let out := s.pipe.closeModules
  let s := { s with pipe := out.1 }.record out.2
  if out.1.crashed then s else s.sendAllListPackets env

/-- What happens in a session. -/
inductive Event where
  | packet (env : LinuxEnv) (alloc : Bool) (nfa : NfqData)
  | clock (env : LinuxEnv)
  | write (w : Pipeline.Write)

def step (s : Linux) : Event → Linux
  | .packet env alloc nfa => s.nfqCallback env alloc nfa
  | .clock env => s.divertConsumeStep env
  | .write w => { s with pipe := s.pipe.applyWrite w }

/-- NFQUEUE numbers the packets of a queue from 1 on. -/
def machine : Machine Linux Event where
  step := step
  admits
    | s, .packet _ _ nfa => ∀ id, nfa.packetId = some id → id ≠ 0 ∧ id ∉ s.given
    | _, _ => True

/-- The state `divertStart` leaves: nothing on the lists, every module marked as
not started, no history.  Flags, parameters and sentinels are as they come. -/
structure Fresh (s : Linux) : Prop where
  main     : s.pipe.main = []
  buffers  : ∀ m, (s.pipe.mods.buffer m).nodes = [] ∧ (s.pipe.mods.buffer m).bufSize = 0
  stopped  : ∀ m, s.pipe.lastEnabled m = false
  alive    : s.pipe.crashed = false
  given    : s.given = []
  answers  : s.answers = []
  captured : s.captured = []
  clones   : s.clones = []
  freed    : s.freed = []
  sent     : s.sent = []

/-- The first session of a process: linked nowhere, everything at its default,
with the flags a configuration set. -/
def initial (enabled : ModuleId → Bool) (filterProg : Option FilterProgram) : Linux where
  pipe :=
    { main := []
      mods := .initial
      enabled
      lastEnabled := fun _ => false
      processTriggered := fun _ => 0
      nextAddr := 0
      crashed := false }
  filterProg := filterProg
  inject :=
    { rawSocket := true
      rawSocket6 := true
      rawHdrIncl6 := true
      rawDropCount := 0
      injectWindowCount := 0
      injectWindowStart := 0
      injectDisabled := false }
  statsCapturedTotal := 0
  statsSentTotal := 0
  sendState := .none
  given := []
  answers := []
  captured := []
  clones := []
  freed := []
  sent := []

theorem initial_fresh (enabled : ModuleId → Bool) (filterProg : Option FilterProgram) :
    (initial enabled filterProg).Fresh where
  main := rfl
  buffers m := by cases m <;> exact ⟨rfl, rfl⟩
  stopped _ := rfl
  alive := rfl
  given := rfl
  answers := rfl
  captured := rfl
  clones := rfl
  freed := rfl
  sent := rfl

end Linux

end Clumsy.Capture
