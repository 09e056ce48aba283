/-
# Capture.Windows -- divert.cpp: the WinDivert capture session

The read thread takes a packet from the driver and, under the mutex, puts it through the
modules; the clock thread runs the modules every 40 ms and, once `stopLooping` is up, closes
them, sends what is left and closes the handle.  A packet that is not sent back is dropped, so
nothing has to be answered for; what a packet needs is the address it came with.

The driver and its helper library are not in the repository: `WinDivert` is what the code
uses of it, with what its documentation promises.

After every event of every session the packets are accounted for, every send is of a packet
that was captured or cloned, under the address it was captured with, and only a failed inbound
ICMP packet goes out a second time, turned round (`windows_accounts`).
-/
import Clumsy.Capture.Loop
import Clumsy.Capture.Session
import Clumsy.Stats.Latency

namespace Clumsy.Capture

open Clumsy.Theory
open Clumsy.Packet
open Clumsy.Modules
open Clumsy.Stats

set_option autoImplicit false

/-! ## The driver and its helpers -/

/-- `WINDIVERT_ADDRESS` of a network packet. -/
structure WinDivertAddress where
  timestamp   : UInt64
  sniffed     : Bool
  outbound    : Bool
  loopback    : Bool
  impostor    : Bool
  ipv6        : Bool
  ipChecksum  : Bool
  tcpChecksum : Bool
  udpChecksum : Bool
  ifIdx       : UInt32
  subIfIdx    : UInt32
  deriving DecidableEq, Repr

abbrev WinNode := PacketNode WinDivertAddress

/-- A clone re-injects through the same address as the original. -/
instance : CaptureBackend WinDivertAddress where
  packetBackendPrepareClone src := src

def fillMetaFromAddr (addr : WinDivertAddress) : PacketMeta where
  outbound := addr.outbound
  ipVersion := if addr.ipv6 then 6 else 4
  loopback := addr.loopback
  impostor := addr.impostor
  ifIdx := addr.ifIdx
  subIfIdx := addr.subIfIdx

/-- What `WinDivertHelperParsePacket` finds in a packet. -/
structure Headers where
  ip     : Bool
  ipv6   : Bool
  icmp   : Bool
  icmpv6 : Bool
  /-- Where the TCP header starts. -/
  tcp    : Option Nat
  /-- Where the payload starts and its length, if the call that asks for it succeeds. -/
  data   : Option (Nat × Nat)
  deriving DecidableEq, Repr

/-- The helper library.  An IP header starts its packet, headers and payload lie inside, and
checksums are calculated in place. -/
structure WinDivert where
  parse         : Bytes → Headers
  calcChecksums : Bytes → Bytes
  ip_room       : ∀ p, (parse p).ip = true → 20 ≤ p.length
  ipv6_room     : ∀ p, (parse p).ipv6 = true → 40 ≤ p.length
  tcp_room      : ∀ p offset, (parse p).tcp = some offset → offset + 20 ≤ p.length
  data_inside   : ∀ p data dataLen, (parse p).data = some (data, dataLen) →
    data + dataLen ≤ p.length
  calc_length   : ∀ p, (calcChecksums p).length = p.length

namespace WinDivert

variable (w : WinDivert)

/-! ### packetutil_win.cpp -/

def packetGetPayload (p : Bytes) : Option (Nat × Nat) :=
  if p = [] then none
  else
    match (w.parse p).data with
    | none => none
    | some (data, dataLen) => if dataLen = 0 then none else some (data, dataLen)

def packetRecalcChecksums (p : Bytes) : Bytes := if p = [] then p else w.calcChecksums p

def packetSetTcpRst (p : Bytes) : Option Bytes :=
  if p = [] then none
  else
    match (w.parse p).tcp with
    | none => none
    | some tcpHdr =>
        let flags := tcpHdr + TCP_FLAGS_OFFSET
        some (w.calcChecksums (p.set flags (p.byteAt flags ||| TCP_FLAG_RST)))

def packetMinTcpSize : Nat := 20 + 20

theorem packetGetPayload_inside {p : Bytes} {data dataLen : Nat}
    (found : w.packetGetPayload p = some (data, dataLen)) : data + dataLen ≤ p.length := by
  unfold packetGetPayload at found
  split_ifs at found
  split at found
  · cases found
  · rename_i there
    split_ifs at found
    obtain ⟨rfl, rfl⟩ := Prod.mk.inj (Option.some.inj found)
    exact w.data_inside p _ _ there

theorem packetSetTcpRst_length {p p' : Bytes} (set : w.packetSetTcpRst p = some p') :
    p'.length = p.length := by
  unfold packetSetTcpRst at set
  split_ifs at set
  split at set
  · cases set
  · obtain rfl := Option.some.inj set
    rw [w.calc_length, List.length_set]

/-- The four functions of `packetutil_win.cpp`. -/
def helpers : PacketHelpers where
  packetGetPayload := w.packetGetPayload
  packetRecalcChecksums := w.packetRecalcChecksums
  packetSetTcpRst := w.packetSetTcpRst
  packetMinTcpSize := packetMinTcpSize
  payload_inside := w.packetGetPayload_inside
  recalc_length p := by
    unfold packetRecalcChecksums
    split
    · rfl
    · exact w.calc_length p
  setTcpRst_length := w.packetSetTcpRst_length

end WinDivert

/-! ## Sending -/

/-- How a `WinDivertSend` ends; `sendLen` is what it says it sent. -/
inductive SendResult where
  | failed
  | sent (sendLen : Nat)
  deriving DecidableEq, Repr

/-- Swap the `n` bytes at `start` with the `n` behind them. -/
def swapFields (start n : Nat) (p : Bytes) : Bytes :=
  p.take start ++ ((p.drop (start + n)).take n ++ ((p.drop start).take n ++ p.drop (start + n + n)))

/-- Swap the source with the destination address. -/
def swapAddresses (hdr : Headers) (p : Bytes) : Bytes :=
  if hdr.ip then swapFields 12 4 p
  else if hdr.ipv6 then swapFields 8 16 p
  else p

/-- An inbound packet, turned into an outbound one. -/
def bounce (hdr : Headers) (pnode : WinNode) : WinNode :=
  { pnode with
    packet := swapAddresses hdr pnode.packet
    pktMeta := { pnode.pktMeta with outbound := true }
    backend := { pnode.backend with outbound := true } }

/-- One packet as it left the modules, and what became of it: the first `WinDivertSend` and,
where the code makes one, the second. -/
structure Transmission where
  node  : WinNode
  first : SendResult
  again : Option (WinNode × SendResult)

/-- A packet that may be sent again: ICMP, and inbound by its address. -/
def mayBounce (w : WinDivert) (pnode : WinNode) : Bool :=
  ((w.parse pnode.packet).icmp || (w.parse pnode.packet).icmpv6) && !pnode.backend.outbound

def transmit (w : WinDivert) (env : SendResult × SendResult) (pnode : WinNode) : Transmission where
  node := pnode
  first := env.1
  again :=
    match env.1 with
    | .failed =>
        if mayBounce w pnode then some (bounce (w.parse pnode.packet) pnode, env.2) else none
    | .sent _ => none

/-- What the icon shows after a packet; a second send counts whatever comes of it. -/
def Transmission.status (t : Transmission) : SendStatus :=
  match t.first with
  | .failed => if t.again.isSome then .send else .fail
  | .sent sendLen => if sendLen < t.node.packetLen then .fail else .send

/-! ## The session -/

structure Windows where
  pipe               : Pipeline WinDivertAddress
  stopLooping        : Bool
  /-- The threads that run. -/
  reader             : Bool
  clock              : Bool
  /-- `divertHandle` is open. -/
  handle             : Bool
  /-- `LONG`s, of 32 bits here. -/
  statsCapturedTotal : Int
  statsSentTotal     : Int
  sendState          : SendStatus
  /-- History: packets there was no memory for, and those that came too late. -/
  unallocated        : List (Bytes × WinDivertAddress)
  late               : List (Bytes × WinDivertAddress)
  captured           : List WinNode
  clones             : List WinNode
  freed              : List (ModuleId × WinNode)
  sent               : List Transmission

/-- What one step finds outside: what the modules see, and how each send ends. -/
structure WindowsEnv where
  step : StepEnv
  send : Nat → SendResult × SendResult

namespace Windows

variable (w : WinDivert)

/-- Book what the modules did. -/
def record (fx : Effects WinDivertAddress) (s : Windows) : Windows :=
  { s with clones := s.clones ++ fx.clones, freed := s.freed ++ fx.freed }

/-- The body of `sendAllListPackets`' loop, for the packet popped from the tail. -/
def sendOne (env : SendResult × SendResult) (pnode : WinNode) (s : Windows) : Windows :=
  { s with
    sent := s.sent ++ [transmit w env pnode]
    sendState := (transmit w env pnode).status
    statsSentTotal := long 32 (s.statsSentTotal + 1) }

def sendEach : (Nat → SendResult × SendResult) → List WinNode → Windows → Windows
  | _, [], s => s
  | env, pnode :: rest, s => sendEach (fun n => env (n + 1)) rest (s.sendOne w (env 0) pnode)

def sendAllListPackets (env : Nat → SendResult × SendResult) (s : Windows) : Windows :=
  sendEach w env s.pipe.main.reverse { s with pipe := { s.pipe with main := [] } }

/-- Take over what a loop over the modules left, and send it. -/
def settle (env : Nat → SendResult × SendResult)
    (out : Pipeline WinDivertAddress × Effects WinDivertAddress) (s : Windows) : Windows :=
  let s := { s with pipe := out.1 }.record out.2
  if out.1.crashed then s else s.sendAllListPackets w env

def divertConsumeStep (env : WindowsEnv) (s : Windows) : Windows :=
  s.settle w env.send (s.pipe.runModulesOn w.helpers env.step)

/-- Put a captured packet on the list. -/
def capture (packet : Bytes) (addr : WinDivertAddress) (s : Windows) : Windows :=
  { s with
    pipe := s.pipe.appendNode packet (fillMetaFromAddr addr) addr
    statsCapturedTotal := long 32 (s.statsCapturedTotal + 1)
    captured := s.captured ++ [createNode s.pipe.nextAddr packet (fillMetaFromAddr addr) addr] }

/-- The critical section of `divertReadLoop` with a received packet; `alloc` is whether
`createNode` finds memory. -/
def received (env : WindowsEnv) (alloc : Bool) (packet : Bytes) (addr : WinDivertAddress)
    (s : Windows) : Windows :=
  if s.stopLooping then { s with reader := false, late := s.late ++ [(packet, addr)] }
  else if alloc then (s.capture packet addr).divertConsumeStep w env
  else { s with unallocated := s.unallocated ++ [(packet, addr)] }

/-- The critical section of `divertClockLoop` once it has seen `stopLooping`. -/
def shutdown (env : Nat → SendResult × SendResult) (s : Windows) : Windows :=
  { s.settle w env s.pipe.closeModules with clock := false, handle := false }

/-- What happens in a session.  `quit` is the read thread finding its handle closed. -/
inductive Event where
  | received (env : WindowsEnv) (alloc : Bool) (packet : Bytes) (addr : WinDivertAddress)
  | quit
  | clock (env : WindowsEnv)
  | write (w : Pipeline.Write)
  | stop
  | shutdown (env : Nat → SendResult × SendResult)

def step (s : Windows) : Event → Windows
  | .received env alloc packet addr => s.received w env alloc packet addr
  | .quit => { s with reader := false }
  | .clock env => s.divertConsumeStep w env
  | .write c => { s with pipe := s.pipe.applyWrite c }
  | .stop => { s with stopLooping := true }
  | .shutdown env => s.shutdown w env

/-- A dead process does nothing more, and a thread moves only while it runs.  The clock thread
looks at `stopLooping` behind every step. -/
def machine : Machine Windows Event where
  step := step w
  admits s e :=
    s.pipe.crashed = false ∧
      match e with
      | .received .. => s.reader = true
      | .quit => s.reader = true ∧ s.handle = false
      | .clock _ => s.clock = true
      | .shutdown _ => s.clock = true ∧ s.stopLooping = true
      | .write _ | .stop => True

/-- The state `divertStart` leaves. -/
structure Fresh (s : Windows) : Prop where
  main        : s.pipe.main = []
  buffers     : ∀ m, (s.pipe.mods.buffer m).nodes = [] ∧ (s.pipe.mods.buffer m).bufSize = 0
  stopped     : ∀ m, s.pipe.lastEnabled m = false
  alive       : s.pipe.crashed = false
  running     : s.stopLooping = false ∧ s.reader = true ∧ s.clock = true ∧ s.handle = true
  counters    : s.statsCapturedTotal = 0 ∧ s.statsSentTotal = 0
  unallocated : s.unallocated = []
  late        : s.late = []
  captured    : s.captured = []
  clones      : s.clones = []
  freed       : s.freed = []
  sent        : s.sent = []

def initial (enabled : ModuleId → Bool) : Windows where
  pipe :=
    { main := []
      mods := .initial
      enabled
      lastEnabled := fun _ => false
      processTriggered := fun _ => 0
      nextAddr := 0
      crashed := false }
  stopLooping := false
  reader := true
  clock := true
  handle := true
  statsCapturedTotal := 0
  statsSentTotal := 0
  sendState := .none
  unallocated := []
  late := []
  captured := []
  clones := []
  freed := []
  sent := []

theorem initial_fresh (enabled : ModuleId → Bool) : (initial enabled).Fresh where
  main := rfl
  buffers m := by cases m <;> exact ⟨rfl, rfl⟩
  stopped _ := rfl
  alive := rfl
  running := ⟨rfl, rfl, rfl, rfl⟩
  counters := ⟨rfl, rfl⟩
  unallocated := rfl
  late := rfl
  captured := rfl
  clones := rfl
  freed := rfl
  sent := rfl

/-! ## What sending does -/

def freedNodes (s : Windows) : List WinNode := s.freed.map Prod.snd

/-- The packets that were popped, as they left the modules. -/
def popped (s : Windows) : List WinNode := s.sent.map Transmission.node

/-- What sending leaves alone, and what it books. -/
structure Sends (nodes : List WinNode) (s s' : Windows) : Prop where
  pipe     : s'.pipe = s.pipe
  threads  : s'.stopLooping = s.stopLooping ∧ s'.reader = s.reader ∧ s'.clock = s.clock ∧
    s'.handle = s.handle
  lost     : s'.unallocated = s.unallocated ∧ s'.late = s.late
  captured : s'.captured = s.captured ∧ s'.statsCapturedTotal = s.statsCapturedTotal
  clones   : s'.clones = s.clones
  freed    : s'.freed = s.freed
  sent     : ∃ more : List Transmission, s'.sent = s.sent ++ more ∧
    more.map Transmission.node = nodes ∧ ∀ t ∈ more, ∃ env, t = transmit w env t.node
  count    : ∀ n : Nat, s.statsSentTotal = long 32 n →
    s'.statsSentTotal = long 32 (n + nodes.length : Nat)

theorem sendEach_sends (nodes : List WinNode) (env : Nat → SendResult × SendResult)
    (s : Windows) : Sends w nodes s (sendEach w env nodes s) := by
  induction nodes generalizing env s with
  | nil =>
      exact ⟨rfl, ⟨rfl, rfl, rfl, rfl⟩, ⟨rfl, rfl⟩, ⟨rfl, rfl⟩, rfl, rfl,
        ⟨[], (List.append_nil _).symm, rfl, by simp⟩, fun _ before => before⟩
  | cons pnode nodes ih =>
      obtain ⟨pipe, threads, lost, captured, clones, freed, ⟨more, sent, here, made⟩, count⟩ :=
        ih (fun n => env (n + 1)) (s.sendOne w (env 0) pnode)
      refine ⟨pipe, threads, lost, captured, clones, freed,
        ⟨transmit w (env 0) pnode :: more, ?_, ?_, ?_⟩, fun n before => ?_⟩
      · rw [sendEach, sent]
        exact List.append_assoc s.sent [transmit w (env 0) pnode] more
      · rw [List.map_cons, here]
        rfl
      · intro t member
        rcases List.mem_cons.1 member with rfl | later
        · exact ⟨env 0, rfl⟩
        · exact made t later
      · have one : (s.sendOne w (env 0) pnode).statsSentTotal = long 32 (n + 1 : Nat) := by
          rw [← long_succ, ← before]
          rfl
        rw [sendEach, count _ one, List.length_cons, Nat.add_assoc, Nat.add_comm 1]

/-! ## The invariant -/

/-- The packet came with this address, and its metadata says the same. -/
def Came (s : Windows) (pktMeta : PacketMeta) (addr : WinDivertAddress) : Prop :=
  pktMeta = fillMetaFromAddr addr ∧ addr ∈ s.captured.map PacketNode.backend

/-- Captured packets and clones are sent, freed, or inside. -/
def PacketBooks (s : Windows) (inside : List WinNode) : Prop :=
  Balanced ((s.captured ++ s.clones).map PacketNode.tag)
    ((s.popped ++ s.freedNodes).map PacketNode.tag) (inside.map PacketNode.tag)

/-- The addresses handed out so far are distinct and below the next one. -/
def Distinct (s : Windows) : Prop :=
  ((s.captured ++ s.clones).map PacketNode.addr).Nodup ∧
    ∀ pac ∈ s.captured ++ s.clones, pac.addr < s.pipe.nextAddr

/-- What holds while the modules run. -/
structure Books (s : Windows) : Prop where
  inv      : s.pipe.Inv
  packets  : s.PacketBooks s.pipe.inside
  distinct : s.Distinct
  droppers : ∀ entry ∈ s.freed, entry.1.drops = true
  inside   : s.pipe.Kind s.Came
  gone     : ∀ t ∈ s.sent, s.Came t.node.pktMeta t.node.backend
  made     : ∀ t ∈ s.sent, ∃ env, t = transmit w env t.node
  counters : s.statsCapturedTotal = long 32 s.captured.length ∧
    s.statsSentTotal = long 32 s.sent.length
  late     : s.late.length ≤ 1 ∧ (s.reader = true → s.late = [])

/-- What holds between two events. -/
structure Booked (s : Windows) : Prop extends Books w s where
  main : s.pipe.main = []

/-- Booking what a loop over the modules did. -/
theorem Books.record {s : Windows} (books : s.Books w)
    {out : Pipeline WinDivertAddress × Effects WinDivertAddress} (inv : out.1.Inv)
    (moves : s.pipe.Moves out) (inside : out.1.Kind s.Came) :
    ({ s with pipe := out.1 }.record out.2).Books w where
  inv := inv
  packets := by
    have before := books.packets
    have moved := moves.tags
    show Balanced ((s.captured ++ (s.clones ++ out.2.clones)).map PacketNode.tag)
      ((s.popped ++ (s.freed ++ out.2.freed).map Prod.snd).map PacketNode.tag)
      (out.1.inside.map PacketNode.tag)
    unfold PacketBooks freedNodes at before
    unfold Theory.Balanced at before ⊢
    unfold Effects.freedNodes at moved
    simp only [List.map_append, ← Multiset.coe_eq_coe, ← Multiset.coe_add] at before moved ⊢
    rw [← add_assoc, before, add_assoc, ← moved]
    abel
  distinct := by
    obtain ⟨distinct, below⟩ := books.distinct
    have fresh : ∀ pac ∈ out.2.clones, s.pipe.nextAddr ≤ pac.addr ∧
        pac.addr < s.pipe.nextAddr + out.2.clones.length := by
      intro pac member
      have there : pac.addr ∈ out.2.clones.map PacketNode.addr := List.mem_map_of_mem member
      rw [moves.addrs, List.mem_range'_1] at there
      exact there
    show ((s.captured ++ (s.clones ++ out.2.clones)).map PacketNode.addr).Nodup ∧
      ∀ pac ∈ s.captured ++ (s.clones ++ out.2.clones), pac.addr < out.1.nextAddr
    rw [← List.append_assoc]
    refine ⟨?_, fun pac member => ?_⟩
    · rw [List.map_append, List.nodup_append']
      refine ⟨distinct, by rw [moves.addrs]; exact List.nodup_range', ?_⟩
      intro addr old new
      obtain ⟨pac, member, rfl⟩ := List.mem_map.1 old
      obtain ⟨copy, cloned, same⟩ := List.mem_map.1 new
      have := below pac member
      have := (fresh copy cloned).1
      omega
    · rw [moves.next]
      rcases List.mem_append.1 member with old | new
      · have := below pac old
        omega
      · exact (fresh pac new).2
  droppers := by
    intro entry member
    rcases List.mem_append.1 member with old | new
    · exact books.droppers entry old
    · exact moves.droppers entry new
  inside := inside
  gone := books.gone
  made := books.made
  counters := books.counters
  late := books.late

/-- Sending everything on the main list keeps the books and empties it. -/
theorem Books.sendAll {s : Windows} (books : s.Books w) (env : Nat → SendResult × SendResult) :
    (s.sendAllListPackets w env).Booked w := by
  have sends := sendEach_sends w s.pipe.main.reverse env { s with pipe := { s.pipe with main := [] } }
  obtain ⟨more, sent, nodes, made⟩ := sends.sent
  have pipe : (s.sendAllListPackets w env).pipe = { s.pipe with main := [] } := sends.pipe
  have captured : (s.sendAllListPackets w env).captured = s.captured := sends.captured.1
  have clones : (s.sendAllListPackets w env).clones = s.clones := sends.clones
  have freed : (s.sendAllListPackets w env).freed = s.freed := sends.freed
  have sent : (s.sendAllListPackets w env).sent = s.sent ++ more := sent
  have came : (s.sendAllListPackets w env).Came = s.Came := by
    unfold Came
    rw [captured]
  refine { inv := ?_, packets := ?_, distinct := ?_, droppers := ?_, inside := ?_, gone := ?_,
           made := ?_, counters := ?_, late := ?_, main := ?_ }
  · rw [pipe]
    exact ⟨books.inv.sound, books.inv.linked, books.inv.alive⟩
  · have packets := books.packets
    unfold PacketBooks freedNodes popped Theory.Balanced at packets ⊢
    rw [captured, clones, sent, freed, pipe]
    simp only [Pipeline.inside, List.map_append, nodes, List.nil_append, List.map_reverse,
      ← Multiset.coe_eq_coe, ← Multiset.coe_add, Multiset.coe_reverse] at packets ⊢
    rw [packets]
    abel
  · obtain ⟨distinct, below⟩ := books.distinct
    unfold Distinct
    rw [captured, clones, pipe]
    exact ⟨distinct, below⟩
  · rw [freed]
    exact books.droppers
  · rw [came, pipe]
    intro pac member
    exact books.inside pac (List.mem_append_right _ (by simpa [Pipeline.inside] using member))
  · rw [came, sent]
    intro t member
    rcases List.mem_append.1 member with old | new
    · exact books.gone t old
    · have there : t.node ∈ s.pipe.main.reverse := by
        rw [← nodes]
        exact List.mem_map_of_mem new
      exact books.inside t.node (List.mem_append_left _ (List.mem_reverse.1 there))
  · rw [sent]
    intro t member
    rcases List.mem_append.1 member with old | new
    · exact books.made t old
    · exact made t new
  · have count := sends.count
    have total : (s.sendAllListPackets w env).statsCapturedTotal = s.statsCapturedTotal :=
      sends.captured.2
    have popped : more.length = s.pipe.main.reverse.length := by
      rw [← nodes, List.length_map]
    refine ⟨?_, ?_⟩
    · rw [total, captured]
      exact books.counters.1
    · rw [sent, List.length_append, popped]
      exact count _ books.counters.2
  · have late : (s.sendAllListPackets w env).late = s.late := sends.lost.2
    have reader : (s.sendAllListPackets w env).reader = s.reader := sends.threads.2.1
    rw [late, reader]
    exact books.late
  · rw [pipe]

theorem Books.settle {s : Windows} (books : s.Books w) (env : Nat → SendResult × SendResult)
    {out : Pipeline WinDivertAddress × Effects WinDivertAddress} (inv : out.1.Inv)
    (moves : s.pipe.Moves out) (inside : out.1.Kind s.Came) : (s.settle w env out).Booked w := by
  unfold Windows.settle
  simp only
  rw [if_neg (by simp [inv.alive])]
  exact (books.record w inv moves inside).sendAll w env

/-- A step of the modules, whatever is on the main list. -/
theorem Books.consumeStep {s : Windows} (books : s.Books w) (env : WindowsEnv) :
    (s.divertConsumeStep w env).Booked w := by
  obtain ⟨inv, moves⟩ := Pipeline.runModulesOn_spec w.helpers env.step books.inv
  obtain ⟨inside, -⟩ := Pipeline.runModulesOn_kind s.Came w.helpers (fun _ _ came => came) env.step
    books.inv books.inside
  exact books.settle w env.send inv moves inside

/-- A packet that was just captured is on the books. -/
theorem Booked.capture {s : Windows} (booked : s.Booked w) (packet : Bytes)
    (addr : WinDivertAddress) : (s.capture packet addr).Books w := by
  have came : ∀ {m b}, s.Came m b → (s.capture packet addr).Came m b := by
    intro m b there
    refine ⟨there.1, ?_⟩
    show b ∈ (s.captured ++ [_]).map PacketNode.backend
    rw [List.map_append]
    exact List.mem_append_left _ there.2
  refine { inv := booked.inv.appendNode _ _ _, packets := ?_, distinct := ?_,
           droppers := booked.droppers, inside := ?_,
           gone := fun t member => came (booked.gone t member), made := booked.made,
           counters := ?_, late := booked.late }
  · have packets := booked.packets
    unfold PacketBooks Theory.Balanced at packets ⊢
    show ((s.captured ++ [createNode s.pipe.nextAddr packet (fillMetaFromAddr addr) addr] ++
        s.clones).map PacketNode.tag).Perm
      ((s.popped ++ s.freedNodes).map PacketNode.tag ++
        (s.pipe.main ++ [createNode s.pipe.nextAddr packet (fillMetaFromAddr addr) addr] ++
          s.pipe.mods.held).map PacketNode.tag)
    simp only [Pipeline.inside, List.map_append, ← Multiset.coe_eq_coe,
      ← Multiset.coe_add] at packets ⊢
    rw [add_right_comm, packets]
    abel
  · obtain ⟨distinct, below⟩ := booked.distinct
    have moved : (s.captured ++ [createNode s.pipe.nextAddr packet (fillMetaFromAddr addr) addr] ++
        s.clones).Perm (createNode s.pipe.nextAddr packet (fillMetaFromAddr addr) addr ::
          (s.captured ++ s.clones)) := by
      rw [List.append_assoc]
      exact List.perm_middle
    refine ⟨?_, ?_⟩
    · show ((s.captured ++ [_] ++ s.clones).map PacketNode.addr).Nodup
      rw [(moved.map PacketNode.addr).nodup_iff, List.map_cons, List.nodup_cons]
      refine ⟨fun there => ?_, distinct⟩
      obtain ⟨pac, member, same⟩ := List.mem_map.1 there
      have small := below pac member
      have here : pac.addr = s.pipe.nextAddr := same
      omega
    · intro pac member
      show pac.addr < s.pipe.nextAddr + 1
      rcases List.mem_cons.1 (moved.mem_iff.1 member) with rfl | old
      · exact Nat.lt_succ_self _
      · exact Nat.lt_succ_of_lt (below pac old)
  · intro pac member
    rcases List.mem_append.1 member with main | held
    · rcases List.mem_append.1 main with old | new
      · exact came (booked.inside pac (List.mem_append_left _ old))
      · obtain rfl := List.mem_singleton.1 new
        refine ⟨rfl, ?_⟩
        show addr ∈ (s.captured ++ [_]).map PacketNode.backend
        rw [List.map_append]
        exact List.mem_append_right _ List.mem_cons_self
    · exact came (booked.inside pac (List.mem_append_right _ held))
  · refine ⟨?_, booked.counters.2⟩
    have one : (s.capture packet addr).captured.length = s.captured.length + 1 :=
      List.length_append
    rw [one, ← long_succ, ← booked.counters.1]
    rfl

/-! ## Every event -/

/-- **One event keeps the books**, unless it kills the process. -/
theorem booked_step {s : Windows} (booked : s.Booked w) {e : Event}
    (admitted : (machine w).admits s e) :
    (s.step w e).pipe.crashed = false → (s.step w e).Booked w := by
  intro alive
  cases e with
  | received env alloc packet addr =>
      have reads : s.reader = true := admitted.2
      show (s.received w env alloc packet addr).Booked w
      unfold received
      split
      · refine { booked with late := ⟨?_, fun running => ?_⟩ }
        · show (s.late ++ [(packet, addr)]).length ≤ 1
          rw [booked.late.2 reads]
          exact Nat.le_refl 1
        · cases running
      · split
        · exact (booked.capture w packet addr).consumeStep w env
        · exact { booked with }
  | quit => exact { booked with late := ⟨booked.late.1, fun running => by cases running⟩ }
  | clock env => exact booked.toBooks.consumeStep w env
  | write c =>
      obtain ⟨main, held⟩ := s.pipe.applyWrite_inside c
      have inside : (s.pipe.applyWrite c).inside = s.pipe.inside := by
        unfold Pipeline.inside
        rw [main, held]
      have next : (s.pipe.applyWrite c).nextAddr = s.pipe.nextAddr := by cases c <;> rfl
      refine
        { booked with
          inv := booked.inv.applyWrite c
          packets := ?_
          distinct := ?_
          inside := ?_
          main := main.trans booked.main }
      · show PacketBooks _ (s.pipe.applyWrite c).inside
        rw [inside]
        exact booked.packets
      · refine ⟨booked.distinct.1, fun pac member => ?_⟩
        show pac.addr < (s.pipe.applyWrite c).nextAddr
        rw [next]
        exact booked.distinct.2 pac member
      · intro pac member
        have there : pac ∈ (s.pipe.applyWrite c).inside := member
        rw [inside] at there
        exact booked.inside pac there
  | stop => exact { booked with }
  | shutdown env =>
      by_cases closable : s.pipe.Closable
      · obtain ⟨inv, moves, -⟩ := Pipeline.closeModules_spec booked.inv closable
        have inside := Pipeline.closeModules_kind s.Came booked.inv closable booked.inside
        exact { booked.toBooks.settle w env inv moves inside with }
      · have dies := Pipeline.closeModules_crashes booked.inv.alive closable
        have crashed : (s.shutdown w env).pipe.crashed = true := by
          unfold shutdown settle
          simp only
          rw [if_pos dies]
          exact dies
        have alive : (s.shutdown w env).pipe.crashed = false := alive
        rw [crashed] at alive
        cases alive

theorem Fresh.booked {s : Windows} (fresh : s.Fresh) : s.Booked w := by
  have sound : s.pipe.mods.Sound := by
    intro m
    obtain ⟨nodes, size⟩ := fresh.buffers m
    refine ⟨⟨?_, fun _ => nodes⟩, ?_⟩
    · rw [nodes, size]
      rfl
    · rw [nodes]
      exact Nat.zero_le _
  have held : s.pipe.mods.held = [] := by
    unfold Statics.held
    rw [List.flatMap_eq_nil_iff]
    exact fun m _ => (fresh.buffers m).1
  have inside : s.pipe.inside = [] := by
    unfold Pipeline.inside
    rw [fresh.main, held]
    rfl
  refine
    { inv := ⟨sound, fun m on => ?_, fresh.alive⟩
      packets := ?_
      distinct := ?_
      droppers := by simp [fresh.freed]
      inside := by simp [Pipeline.Kind, inside]
      gone := by simp [fresh.sent]
      made := by simp [fresh.sent]
      counters := by simp [fresh.counters, fresh.captured, fresh.sent, long]
      late := by simp [fresh.late]
      main := fresh.main }
  · rw [fresh.stopped m] at on
    cases on
  · unfold PacketBooks popped freedNodes
    rw [inside, fresh.captured, fresh.clones, fresh.sent, fresh.freed]
    exact Balanced.empty
  · unfold Distinct
    rw [fresh.captured, fresh.clones]
    exact ⟨List.nodup_nil, by simp⟩

theorem booked_run {s : Windows} (fresh : s.Fresh) (es : List Event)
    (admissible : (machine w).Admissible s es) :
    ((machine w).run s es).pipe.crashed = false → ((machine w).run s es).Booked w := by
  have once : ∀ s e, (s.pipe.crashed = false → s.Booked w) → (machine w).admits s e →
      ((machine w).step s e).pipe.crashed = false → ((machine w).step s e).Booked w :=
    fun _ _ booked admitted => booked_step w (booked admitted.1) admitted
  exact (machine w).run_invariant once es s (fun _ => fresh.booked w) admissible

/-! ## Conservation -/

theorem swapFields_length {start n : Nat} {p : Bytes} (room : start + n + n ≤ p.length) :
    (swapFields start n p).length = p.length := by
  simp only [swapFields, List.length_append, List.length_take, List.length_drop]
  omega

theorem swapAddresses_length (p : Bytes) : (swapAddresses (w.parse p) p).length = p.length := by
  unfold swapAddresses
  split
  · rename_i ip
    exact swapFields_length (w.ip_room p ip)
  · split
    · rename_i ipv6
      exact swapFields_length (w.ipv6_room p ipv6)
    · rfl

/-- What was captured or cloned is the disjoint union of what was sent, freed by one of the
dropping modules, or is held; what was sent had the address of a captured packet and metadata
to match; and a packet went out a second time exactly if the first time failed and it was
inbound ICMP, as an outbound packet with its addresses swapped. -/
structure Accounts (s : Windows) : Prop where
  main     : s.pipe.main = []
  distinct : ((s.captured ++ s.clones).map PacketNode.addr).Nodup
  union    : ((s.captured ++ s.clones).map PacketNode.tag).Perm
    ((s.popped ++ s.freedNodes ++ s.pipe.mods.held).map PacketNode.tag)
  droppers : ∀ entry ∈ s.freed, entry.1.drops = true
  counters : s.statsCapturedTotal = long 32 s.captured.length ∧
    s.statsSentTotal = long 32 s.sent.length
  late     : s.late.length ≤ 1
  came     : ∀ t ∈ s.sent, t.node.pktMeta = fillMetaFromAddr t.node.backend ∧
    ∃ pac ∈ s.captured, pac.backend = t.node.backend
  again    : ∀ t ∈ s.sent, (t.again.isSome ↔ t.first = .failed ∧ mayBounce w t.node = true) ∧
    ∀ node result, t.again = some (node, result) →
      node.backend = { t.node.backend with outbound := true } ∧
        node.pktMeta = fillMetaFromAddr node.backend ∧
        node.packet = swapAddresses (w.parse t.node.packet) t.node.packet ∧
        node.packetLen = t.node.packetLen

theorem transmit_again (env : SendResult × SendResult) (pnode : WinNode) :
    ((transmit w env pnode).again.isSome ↔ env.1 = .failed ∧ mayBounce w pnode = true) ∧
      ∀ node result, (transmit w env pnode).again = some (node, result) →
        node = bounce (w.parse pnode.packet) pnode := by
  unfold transmit
  rcases env with ⟨first, second⟩
  cases first with
  | sent sendLen => simp
  | failed =>
      simp only
      split
      · rename_i bounces
        refine ⟨by simp [bounces], fun node result some => ?_⟩
        exact (Prod.mk.inj (Option.some.inj some)).1.symm
      · rename_i stays
        exact ⟨by simp [stays], fun node result some => by cases some⟩

/-- **Accounts of a session**, after every event. -/
theorem windows_accounts {s : Windows} (fresh : s.Fresh) (es : List Event)
    (admissible : (machine w).Admissible s es)
    (alive : ((machine w).run s es).pipe.crashed = false) :
    ((machine w).run s es).Accounts w := by
  have booked := booked_run w fresh es admissible alive
  have inside : ((machine w).run s es).pipe.inside = ((machine w).run s es).pipe.mods.held := by
    unfold Pipeline.inside
    rw [booked.main, List.nil_append]
  have packets := booked.packets
  unfold PacketBooks at packets
  rw [inside, Theory.Balanced, ← List.map_append] at packets
  refine
    { main := booked.main
      distinct := booked.distinct.1
      union := packets
      droppers := booked.droppers
      counters := booked.counters
      late := booked.late.1
      came := fun t member => ?_
      again := fun t member => ?_ }
  · obtain ⟨same, there⟩ := booked.gone t member
    obtain ⟨pac, captured, backend⟩ := List.mem_map.1 there
    exact ⟨same, pac, captured, backend⟩
  · obtain ⟨env, made⟩ := booked.made t member
    obtain ⟨same, -⟩ := booked.gone t member
    obtain ⟨when_, bounced⟩ := transmit_again w env t.node
    have first : t.first = env.1 := by rw [made]; rfl
    rw [← made] at when_ bounced
    refine ⟨by rw [first]; exact when_, fun node result some => ?_⟩
    obtain rfl := bounced node result some
    refine ⟨rfl, ?_, rfl, swapAddresses_length w t.node.packet⟩
    show { t.node.pktMeta with outbound := true } = _
    rw [same]
    rfl

/-! ## A session -/

/-- A helper library that knows IPv4 and the bare minimum about ICMP. -/
def plainLibrary : WinDivert where
  parse p :=
    { ip := decide (20 ≤ p.length), ipv6 := false, icmp := decide (p.byteAt 9 = 1)
      icmpv6 := false, tcp := none, data := none }
  calcChecksums p := p
  ip_room p ip := by simpa using ip
  ipv6_room p ipv6 := by cases ipv6
  tcp_room p offset tcp := by cases tcp
  data_inside p data dataLen found := by cases found
  calc_length _ := rfl

/-- An echo reply on its way in. -/
def echoReply : Bytes :=
  [0x45, 0, 0, 28, 0, 0, 0, 0, 64, 1, 0, 0, 10, 0, 0, 1, 10, 0, 0, 2, 0, 0, 0, 0, 0, 0, 0, 0]

def inboundAddress : WinDivertAddress where
  timestamp := 0
  sniffed := false
  outbound := false
  loopback := false
  impostor := false
  ipv6 := false
  ipChecksum := true
  tcpChecksum := false
  udpChecksum := false
  ifIdx := 2
  subIfIdx := 0

/-- The first send of every packet fails. -/
def failingEnv : WindowsEnv where
  step := Linux.stillEnv.step
  send := fun _ => (.failed, .sent 28)

/-- A packet that bounces, the stop, and one that comes too late. -/
def bouncingRun : List Event :=
  [.received failingEnv true echoReply inboundAddress, .stop,
    .received failingEnv true echoReply inboundAddress, .shutdown failingEnv.send]

theorem windows_accounts_bouncing :
    ((machine plainLibrary).run (initial fun _ => false) bouncingRun).late.length = 1 ∧
      ((machine plainLibrary).run (initial fun _ => false) bouncingRun).Accounts plainLibrary := by
  have admissible : (machine plainLibrary).Admissible (initial fun _ => false) bouncingRun :=
    ⟨⟨rfl, rfl⟩, ⟨rfl, trivial⟩, ⟨rfl, rfl⟩, ⟨rfl, rfl, rfl⟩, trivial⟩
  exact ⟨rfl, windows_accounts plainLibrary (initial_fresh _) bouncingRun admissible rfl⟩

end Windows

end Clumsy.Capture
