/-
# Capture.StormGuard -- how many clones a storm can inject

`injectRawPacket` counts the clones that get past its first checks in windows of a second,
and switches injection off for good when a window has more than `INJECT_RATE_LIMIT` of them.
The window's start is kept as a tick, and the tick 0 also means that there is no window yet.

If no call takes a window that began at tick 0 for none (`InOrder`), no interval of 1000 ms
sees more than two windows' worth of `sendto`s (`storm_bounded`).
-/
import Clumsy.Capture.Linux
import Clumsy.Theory.Clock
import Clumsy.Theory.FixedWindow

namespace Clumsy.Capture

open Clumsy.Theory
open Clumsy.Theory.Clock
open Clumsy.Theory.FixedWindow
open Clumsy.Packet
open Clumsy.Modules

set_option autoImplicit false

/-! ## One call -/

/-- A clone that gets as far as the counter: it has an IP header and the outbound
direction, there is a socket, and injection is not off. -/
structure Counted (node : LinuxNode) (inject : RawInject) : Prop where
  long     : 20 ≤ node.packetLen
  socket   : inject.rawSocket = true ∨ inject.rawSocket6 = true
  outbound : node.pktMeta.outbound = true
  enabled  : inject.injectDisabled = false

/-- **A clone that gets as far as its `sendto`**: it is counted, the window has room, and
there is a socket of its version. -/
structure Reaches (now : UInt32) (node : LinuxNode) (inject : RawInject) : Prop extends
    Counted node inject where
  room    : (inject.countInWindow now).injectWindowCount ≤ INJECT_RATE_LIMIT
  version : if (node.packet.byteAt 0).toNat / 16 = 6 then
    inject.rawSocket6 = true ∧ 40 < node.packetLen else inject.rawSocket = true

theorem countInWindow_sockets (now : UInt32) (inject : RawInject) :
    (inject.countInWindow now).rawSocket = inject.rawSocket ∧
      (inject.countInWindow now).rawSocket6 = inject.rawSocket6 := by
  unfold RawInject.countInWindow
  split <;> exact ⟨rfl, rfl⟩

theorem send_iff (outcome : SendTo) (inject : RawInject) :
    (inject.send outcome).1 = true ↔ outcome = .sent := by
  cases outcome <;> simp [RawInject.send]

/-- A clone that is not counted leaves everything as it is. -/
theorem injectRawPacket_uncounted {now : UInt32} {outcome : SendTo} {node : LinuxNode}
    {inject : RawInject} (not : ¬Counted node inject) :
    injectRawPacket now outcome node inject = (false, inject) := by
  unfold injectRawPacket
  split_ifs with short none inward disabled
  · rfl
  · rfl
  · rfl
  · rfl
  all_goals
    refine absurd ⟨by omega, ?_, by simpa using inward, by simpa using disabled⟩ not
    rw [Bool.and_eq_true, not_and_or] at none
    simpa using none

/-- A clone that is counted: the counter moves, and injection is off behind the limit. -/
theorem injectRawPacket_counted {now : UInt32} {outcome : SendTo} {node : LinuxNode}
    {inject : RawInject} (counted : Counted node inject) :
    injectRawPacket now outcome node inject =
      let inject := inject.countInWindow now
      if inject.injectWindowCount > INJECT_RATE_LIMIT then
        (false, { inject with injectDisabled := true })
      else if (node.packet.byteAt 0).toNat / 16 = 6 then
        if !inject.rawSocket6 || decide (node.packetLen ≤ 40) then (false, inject)
        else inject.send outcome
      else if !inject.rawSocket then (false, inject)
      else inject.send outcome := by
  obtain ⟨long, socket, outbound, enabled⟩ := counted
  have some : ¬(!inject.rawSocket && !inject.rawSocket6) = true := by
    rcases socket with four | six
    · simp [four]
    · simp [six]
  unfold injectRawPacket
  rw [if_neg (by omega), if_neg some, if_neg (by simp [outbound]), if_neg (by simp [enabled])]

/-- **`injectRawPacket` returns 1 exactly if the clone reaches its `sendto` and that
succeeds.** -/
theorem injectRawPacket_iff (now : UInt32) (outcome : SendTo) (node : LinuxNode)
    (inject : RawInject) :
    (injectRawPacket now outcome node inject).1 = true ↔
      Reaches now node inject ∧ outcome = .sent := by
  obtain ⟨four, six⟩ := countInWindow_sockets now inject
  by_cases counted : Counted node inject
  · rw [injectRawPacket_counted counted]
    simp only
    constructor
    · intro injected
      split_ifs at injected with storm version refused noFour
      · simp only [six, Bool.or_eq_true, Bool.not_eq_true', decide_eq_true_eq, not_or,
          Bool.not_eq_false] at refused
        exact ⟨⟨counted, by omega, by rw [if_pos version]; exact ⟨refused.1, by omega⟩⟩,
          (send_iff _ _).1 injected⟩
      · rw [four] at noFour
        exact ⟨⟨counted, by omega, by rw [if_neg version]; simpa using noFour⟩,
          (send_iff _ _).1 injected⟩
    · rintro ⟨⟨-, room, socket⟩, sends⟩
      rw [if_neg (by omega)]
      split_ifs at socket ⊢ with version refused noFour
      · simp only [six, Bool.or_eq_true, Bool.not_eq_true', decide_eq_true_eq] at refused
        rcases refused with none | short
        · rw [socket.1] at none
          cases none
        · omega
      · exact (send_iff _ _).2 sends
      · rw [four, socket] at noFour
        cases noFour
      · exact (send_iff _ _).2 sends
  · rw [injectRawPacket_uncounted counted]
    constructor
    · intro never
      cases never
    · intro takes
      exact absurd takes.1.toCounted counted

instance (now : UInt32) (node : LinuxNode) (inject : RawInject) :
    Decidable (Reaches now node inject) :=
  decidable_of_iff ((injectRawPacket now .sent node inject).1 = true)
    ((injectRawPacket_iff now .sent node inject).trans (and_iff_left rfl))

/-- What a counted clone leaves of the guard. -/
theorem counted_guard {now : UInt32} {outcome : SendTo} {node : LinuxNode} {inject : RawInject}
    (counted : Counted node inject) :
    (injectRawPacket now outcome node inject).2.injectWindowStart =
        (inject.countInWindow now).injectWindowStart ∧
      (injectRawPacket now outcome node inject).2.injectWindowCount =
        (inject.countInWindow now).injectWindowCount := by
  rw [injectRawPacket_counted counted]
  simp only
  split_ifs
  · exact ⟨rfl, rfl⟩
  · exact ⟨rfl, rfl⟩
  · cases outcome <;> exact ⟨rfl, rfl⟩
  · exact ⟨rfl, rfl⟩
  · cases outcome <;> exact ⟨rfl, rfl⟩

/-! ## A session's calls -/

/-- `divertStart`'s part in it: `four` and `six` are whether the sockets open, the second with
whether the kernel takes a header of ours.  The guard is reset with the IPv4 socket. -/
def RawInject.openSockets (four : Bool) (six : Option Bool) (inject : RawInject) : RawInject :=
  if four then
    { rawSocket := true
      rawSocket6 := six.isSome
      rawHdrIncl6 := six.getD inject.rawHdrIncl6
      rawDropCount := 0
      injectWindowCount := 0
      injectWindowStart := 0
      injectDisabled := false }
  else { inject with rawSocket := false }

/-- A call of `injectRawPacket`, by the millisecond it is made in. -/
structure InjectCall where
  time    : Nat
  outcome : SendTo
  node    : LinuxNode

namespace InjectCall

/-- `GetTickCount()`. -/
def now (c : InjectCall) : UInt32 := tickAt c.time

/-- **What the guard relies on**: a counted clone that finds a window begun at tick 0 finds it
run out. -/
def InOrder (inject : RawInject) (c : InjectCall) : Prop :=
  Counted c.node inject → inject.injectWindowStart = 0 → inject.injectWindowCount ≠ 0 →
    1000 ≤ c.now

end InjectCall

/-- The calls of a session, one after another. -/
def injector : Machine RawInject InjectCall where
  step inject c := (injectRawPacket c.now c.outcome c.node inject).2
  admits := InjectCall.InOrder

/-- The calls that reached their `sendto`. -/
def sendtos (inject : RawInject) (calls : List InjectCall) : List InjectCall :=
  (injector.outputs (fun inject c => if Reaches c.now c.node inject then [c] else [])
    inject calls).flatten

/-- How many were made in the closed interval from `a` to `b`. -/
def between (a b : Nat) (calls : List InjectCall) : Nat :=
  calls.countP fun c => decide (a ≤ c.time ∧ c.time ≤ b)

theorem sendtos_cons (inject : RawInject) (c : InjectCall) (calls : List InjectCall) :
    sendtos inject (c :: calls) =
      (if Reaches c.now c.node inject then [c] else []) ++
        sendtos (injector.step inject c) calls := rfl

theorem sendtos_append (inject : RawInject) (calls calls' : List InjectCall) :
    sendtos inject (calls ++ calls') =
      sendtos inject calls ++ sendtos (injector.run inject calls) calls' := by
  unfold sendtos
  rw [injector.outputs_append, List.flatten_append]

theorem between_append (a b : Nat) (calls calls' : List InjectCall) :
    between a b (calls ++ calls') = between a b calls + between a b calls' :=
  List.countP_append

/-! ## Switched off -/

/-- **Once injection is off, nothing reaches a `sendto`.** -/
theorem sendtos_disabled (calls : List InjectCall) {inject : RawInject}
    (off : inject.injectDisabled = true) : sendtos inject calls = [] := by
  induction calls with
  | nil => rfl
  | cons c calls ih =>
      have uncounted : ¬Counted c.node inject := by
        intro counted
        rw [counted.enabled] at off
        cases off
      have stays : injector.step inject c = inject :=
        congrArg Prod.snd (injectRawPacket_uncounted uncounted)
      rw [sendtos_cons, if_neg (fun reaches => uncounted reaches.toCounted), stays, ih]
      rfl

theorem sendtos_closed (calls : List InjectCall) {inject : RawInject}
    (four : inject.rawSocket = false) (six : inject.rawSocket6 = false) :
    sendtos inject calls = [] := by
  induction calls with
  | nil => rfl
  | cons c calls ih =>
      have uncounted : ¬Counted c.node inject := by
        intro counted
        rcases counted.socket with open_ | open_
        · rw [four] at open_
          cases open_
        · rw [six] at open_
          cases open_
      have stays : injector.step inject c = inject :=
        congrArg Prod.snd (injectRawPacket_uncounted uncounted)
      rw [sendtos_cons, if_neg (fun reaches => uncounted reaches.toCounted), stays, ih]
      rfl

/-! ## The sliding bound -/

/-- The guard, seen from the interval of 1000 ms from `a`: no window yet, or one whose last
clone was counted while it ran. -/
def Seen (a passed time : Nat) (inject : RawInject) : Prop :=
  (inject.injectWindowStart = 0 ∧ inject.injectWindowCount = 0 ∧ passed = 0) ∨
    ∃ start last, last ≤ time ∧ inject.injectWindowStart = tickAt start ∧
      inject.injectWindowCount ≠ 0 ∧ tickAt last - tickAt start < 1000 ∧
        Watched a 1000 INJECT_RATE_LIMIT start last inject.injectWindowCount passed

/-- What a call adds to the interval. -/
def adds (a : Nat) (inject : RawInject) (c : InjectCall) : Nat :=
  if Reaches c.now c.node inject then hit a 1000 c.time else 0

theorem adds_le (a : Nat) (inject : RawInject) (c : InjectCall) :
    adds a inject c ≤ hit a 1000 c.time := by
  unfold adds
  split
  · exact Nat.le_refl _
  · exact Nat.zero_le _

/-- The counter when a window begins, and when it goes on. -/
theorem countInWindow_restart {now : UInt32} {inject : RawInject}
    (old : inject.injectWindowStart = 0 ∨ now - inject.injectWindowStart ≥ 1000) :
    inject.countInWindow now = { inject with injectWindowStart := now, injectWindowCount := 1 } :=
  if_pos old

theorem countInWindow_stay {now : UInt32} {inject : RawInject}
    (running : ¬(inject.injectWindowStart = 0 ∨ now - inject.injectWindowStart ≥ 1000)) :
    inject.countInWindow now =
      { inject with injectWindowCount := inject.injectWindowCount + 1 } :=
  if_neg running

/-- A clone that reaches its `sendto` in a window that goes on finds room. -/
theorem room_of_adds {a : Nat} {inject : RawInject} {c : InjectCall}
    (running : ¬(inject.injectWindowStart = 0 ∨ c.now - inject.injectWindowStart ≥ 1000))
    (some : adds a inject c ≠ 0) : inject.injectWindowCount < INJECT_RATE_LIMIT := by
  unfold adds at some
  split at some
  · rename_i reaches
    have room := reaches.room
    rw [countInWindow_stay running] at room
    exact room
  · exact absurd rfl some

/-- **One call.** -/
theorem seen_step {a passed time : Nat} {inject : RawInject} (seen : Seen a passed time inject)
    {c : InjectCall} (later : time ≤ c.time) (sound : c.InOrder inject) :
    Seen a (passed + adds a inject c) c.time (injector.step inject c) := by
  by_cases counted : Counted c.node inject
  · obtain ⟨start', count'⟩ := @counted_guard c.now c.outcome c.node inject counted
    have small := adds_le a inject c
    have positive : 1 ≤ INJECT_RATE_LIMIT := by decide
    refine Or.inr ?_
    unfold injector
    simp only [start', count']
    rcases seen with ⟨none, zero, idle⟩ | ⟨start, last, before, begun, some, running, watched⟩
    · subst idle
      rw [countInWindow_restart (Or.inl none), Nat.zero_add]
      refine ⟨c.time, c.time, Nat.le_refl _, rfl, Nat.one_ne_zero, ?_, ?_⟩
      · simp
      · exact Watched.begin positive small
    · by_cases old : inject.injectWindowStart = 0 ∨ c.now - inject.injectWindowStart ≥ 1000
      · have full : 1000 ≤ tickAt c.time - tickAt start := by
          rcases old with zero | late
          · have late := sound counted zero some
            rw [← begun, zero]
            simpa [InjectCall.now] using late
          · rw [← begun]
            exact late
        have order := watched.order
        have gap : (tickAt c.time - tickAt start).toNat ≤ c.time - start := elapsed_le (by omega)
        rw [UInt32.le_iff_toNat_le] at full
        rw [UInt32.lt_iff_toNat_lt] at running
        have apart : last ≠ c.time := by
          rintro rfl
          omega
        rw [countInWindow_restart old]
        refine ⟨c.time, c.time, Nat.le_refl _, rfl, Nat.one_ne_zero, ?_, ?_⟩
        · simp
        · refine watched.restart positive (by omega) ?_ small
          simp only [UInt32.reduceToNat] at full
          omega
      · rw [countInWindow_stay old]
        refine ⟨start, c.time, Nat.le_refl _, begun, Nat.succ_ne_zero _, ?_, ?_⟩
        · rw [not_or, ge_iff_le, UInt32.not_le, begun] at old
          exact old.2
        · exact watched.stay (by omega) small (room_of_adds old)
  · have none : adds a inject c = 0 := if_neg fun reaches => counted reaches.toCounted
    have stays : injector.step inject c = inject :=
      congrArg Prod.snd (injectRawPacket_uncounted counted)
    rw [none, stays, Nat.add_zero]
    rcases seen with unused | ⟨start, last, before, window⟩
    · exact Or.inl unused
    · exact Or.inr ⟨start, last, before.trans later, window⟩

/-- **A run of calls in order.** -/
theorem seen_run (calls : List InjectCall) {a passed time : Nat} {inject : RawInject}
    (seen : Seen a passed time inject) (later : ∀ c ∈ calls, time ≤ c.time)
    (ordered : (calls.map InjectCall.time).Pairwise (· ≤ ·))
    (sound : injector.Admissible inject calls) :
    ∃ time', Seen a (passed + between a (a + 1000) (sendtos inject calls)) time'
      (injector.run inject calls) := by
  induction calls generalizing passed time inject with
  | nil => exact ⟨time, seen⟩
  | cons c calls ih =>
      obtain ⟨here, rest⟩ := sound
      rw [List.map_cons, List.pairwise_cons] at ordered
      have step := seen_step seen (later c List.mem_cons_self) here
      have behind : ∀ c' ∈ calls, c.time ≤ c'.time := by
        intro c' member
        exact ordered.1 c'.time (List.mem_map_of_mem member)
      obtain ⟨time', run⟩ := ih step behind ordered.2 rest
      have one : between a (a + 1000) (if Reaches c.now c.node inject then [c] else []) =
          adds a inject c := by
        unfold adds hit between
        split
        · simp [List.countP_cons]
        · rfl
      rw [Nat.add_assoc, ← one, ← between_append] at run
      exact ⟨time', run⟩

/-- The state after `openSockets` has no window, or no socket at all. -/
theorem openSockets_spec (four : Bool) (six : Option Bool) {inject : RawInject}
    (closed : inject.rawSocket6 = false) :
    ((inject.openSockets four six).injectWindowStart = 0 ∧
        (inject.openSockets four six).injectWindowCount = 0) ∨
      ((inject.openSockets four six).rawSocket = false ∧
        (inject.openSockets four six).rawSocket6 = false) := by
  cases four with
  | true => exact Or.inl ⟨rfl, rfl⟩
  | false => exact Or.inr ⟨rfl, closed⟩

/-- **In every session whose calls are all in order, at most `2 * INJECT_RATE_LIMIT` clones
reach their `sendto` in any 1000 ms; and in every session, none does once injection is
off.**  A call has reached it if `injectRawPacket` returns 1 whenever the `sendto` succeeds. -/
theorem storm_bounded (four : Bool) (six : Option Bool) {inject : RawInject}
    (closed : inject.rawSocket6 = false) (calls : List InjectCall)
    (ordered : (calls.map InjectCall.time).Pairwise (· ≤ ·)) :
    (injector.Admissible (inject.openSockets four six) calls →
      ∀ a b, b ≤ a + 1000 →
        between a b (sendtos (inject.openSockets four six) calls) ≤ 2 * INJECT_RATE_LIMIT) ∧
      (∀ earlier later, earlier ++ later = calls →
        (injector.run (inject.openSockets four six) earlier).injectDisabled = true →
          sendtos (injector.run (inject.openSockets four six) earlier) later = []) ∧
      ∀ (inject : RawInject) (c : InjectCall),
        (injectRawPacket c.now c.outcome c.node inject).1 = true ↔
          Reaches c.now c.node inject ∧ c.outcome = .sent := by
  refine ⟨?_, fun _ later _ off => sendtos_disabled later off,
    fun inject c => injectRawPacket_iff c.now c.outcome c.node inject⟩
  intro sound a b within
  have fewer : ∀ sent : List InjectCall, between a b sent ≤ between a (a + 1000) sent := by
    intro sent
    refine List.countP_mono_left ?_
    intro c _ inside
    simp only [decide_eq_true_eq] at inside ⊢
    omega
  rcases openSockets_spec four six closed with ⟨none, zero⟩ | ⟨noFour, noSix⟩
  · have start : Seen a 0 0 (inject.openSockets four six) := Or.inl ⟨none, zero, rfl⟩
    obtain ⟨time, seen⟩ := seen_run calls start (fun _ _ => Nat.zero_le _) ordered sound
    rw [Nat.zero_add] at seen
    refine (fewer _).trans ?_
    rcases seen with ⟨-, -, idle⟩ | ⟨start, last, -, -, -, -, watched⟩
    · rw [idle]
      exact Nat.zero_le _
    · exact watched.le
  · rw [sendtos_closed calls noFour noSix]
    exact Nat.zero_le _

/-! ## A storm across tick 0 -/

/-- An outbound IPv4 clone of 20 bytes. -/
def stormClone : LinuxNode :=
  createNode 0 (0x45 :: List.replicate 19 0)
    { outbound := true, ipVersion := 4, loopback := false, impostor := false, ifIdx := 0
      subIfIdx := 0 }
    { packetId := 0, verdictIssued := false, synthetic := true }

/-- `n` clones in the same millisecond, every `sendto` succeeding. -/
def burst (time n : Nat) : List InjectCall :=
  List.replicate n { time, outcome := .sent, node := stormClone }

/-- The guard of an IPv4 session. -/
def guardAt (start : UInt32) (count : Nat) : RawInject where
  rawSocket := true
  rawSocket6 := false
  rawHdrIncl6 := false
  rawDropCount := 0
  injectWindowCount := count
  injectWindowStart := start
  injectDisabled := false

theorem stormClone_counted (start : UInt32) (count : Nat) :
    Counted stormClone (guardAt start count) :=
  ⟨by decide, Or.inl rfl, rfl, rfl⟩

/-- All these calls reach their `sendto`, and leave the guard so. -/
structure AllSent (inject : RawInject) (calls : List InjectCall) (inject' : RawInject) :
    Prop where
  sent  : sendtos inject calls = calls
  state : injector.run inject calls = inject'

theorem AllSent.trans {s t u : RawInject} {calls calls' : List InjectCall}
    (first : AllSent s calls t) (second : AllSent t calls' u) : AllSent s (calls ++ calls') u where
  sent := by rw [sendtos_append, first.sent, first.state, second.sent]
  state := by rw [injector.run_append, first.state, second.state]

/-- A clone the window has room for is sent. -/
theorem burst_one {time count : Nat} {start start' : UInt32} {count' : Nat}
    (window : (guardAt start count).countInWindow (tickAt time) = guardAt start' count')
    (room : count' ≤ INJECT_RATE_LIMIT) :
    AllSent (guardAt start count) (burst time 1) (guardAt start' count') := by
  have four : ¬(stormClone.packet.byteAt 0).toNat / 16 = 6 := by decide
  have reaches : Reaches (tickAt time) stormClone (guardAt start count) :=
    ⟨stormClone_counted start count, by rw [window]; exact room, by rw [if_neg four]; rfl⟩
  refine ⟨?_, ?_⟩
  · show (if Reaches (tickAt time) stormClone (guardAt start count) then _ else _) ++ [] = _
    rw [if_pos reaches]
    rfl
  · show (injectRawPacket (tickAt time) .sent stormClone (guardAt start count)).2 = _
    rw [injectRawPacket_counted (stormClone_counted start count), window]
    simp only
    rw [if_neg (by exact Nat.not_lt.2 room), if_neg four]
    rfl

/-- Clones in a window that goes on are sent until it is full. -/
theorem burst_stay (n : Nat) {time count : Nat} {start : UInt32} (begun : start ≠ 0)
    (running : tickAt time - start < 1000) (room : count + n ≤ INJECT_RATE_LIMIT) :
    AllSent (guardAt start count) (burst time n) (guardAt start (count + n)) := by
  induction n generalizing count with
  | zero => exact ⟨rfl, rfl⟩
  | succ n ih =>
      have goes : ¬((guardAt start count).injectWindowStart = 0 ∨
          tickAt time - (guardAt start count).injectWindowStart ≥ 1000) := by
        rw [not_or, ge_iff_le, UInt32.not_le]
        exact ⟨begun, running⟩
      have first := burst_one (countInWindow_stay goes) (by show count + 1 ≤ _; omega)
      have rest := @ih (count + 1) (by omega)
      rw [Nat.add_right_comm] at rest
      exact first.trans rest

/-- A window begins a second before tick 0 and is used up half a second later; two clones come
at tick 0, and another window's worth in the next millisecond. -/
def stormCalls : List InjectCall :=
  burst (2 ^ 32 - 1000) 1 ++ burst (2 ^ 32 - 500) 4999 ++ burst (2 ^ 32) 1 ++ burst (2 ^ 32) 1 ++
    burst (2 ^ 32 + 1) 1 ++ burst (2 ^ 32 + 1) 4999

theorem stormCalls_sent : AllSent (guardAt 0 0) stormCalls (guardAt 1 5000) := by
  have first : AllSent (guardAt 0 0) (burst (2 ^ 32 - 1000) 1) (guardAt 4294966296 1) :=
    burst_one rfl (by decide)
  have old : AllSent (guardAt 4294966296 1) (burst (2 ^ 32 - 500) 4999)
      (guardAt 4294966296 5000) :=
    burst_stay 4999 (by decide) (by decide) (by decide)
  have zero : AllSent (guardAt 4294966296 5000) (burst (2 ^ 32) 1) (guardAt 0 1) :=
    burst_one rfl (by decide)
  have again : AllSent (guardAt 0 1) (burst (2 ^ 32) 1) (guardAt 0 1) :=
    burst_one rfl (by decide)
  have next : AllSent (guardAt 0 1) (burst (2 ^ 32 + 1) 1) (guardAt 1 1) :=
    burst_one rfl (by decide)
  have new : AllSent (guardAt 1 1) (burst (2 ^ 32 + 1) 4999) (guardAt 1 5000) :=
    burst_stay 4999 (by decide) (by decide) (by decide)
  exact ((((first.trans old).trans zero).trans again).trans next).trans new

theorem between_burst (a b time n : Nat) :
    between a b (burst time n) = if a ≤ time ∧ time ≤ b then n else 0 := by
  unfold between burst
  rw [List.countP_replicate]
  simp only [decide_eq_true_eq]

/-- **More than two windows' worth in 1000 ms around tick 0.** -/
theorem storm_across_zero :
    (stormCalls.map InjectCall.time).Pairwise (· ≤ ·) ∧
      between (2 ^ 32 - 500) (2 ^ 32 + 500)
          (sendtos ((guardAt 0 0).openSockets true none) stormCalls) = 10001 ∧
        2 * INJECT_RATE_LIMIT < 10001 := by
  refine ⟨?_, ?_, by decide⟩
  · simp only [stormCalls, burst, List.map_append, List.map_replicate, List.pairwise_append,
      List.pairwise_replicate, List.mem_append, List.mem_replicate]
    grind
  · have opened : (guardAt 0 0).openSockets true none = guardAt 0 0 := rfl
    rw [opened, stormCalls_sent.sent]
    unfold stormCalls
    simp only [between_append, between_burst]
    decide

/-- A clone that finds a window begun at another tick is in order. -/
theorem burst_inOrder {time count : Nat} {start : UInt32} (begun : count ≠ 0 → start ≠ 0) :
    injector.Admissible (guardAt start count) (burst time 1) :=
  ⟨fun _ zero some => absurd zero (begun some), trivial⟩

/-- Two clones of one window and two of the next. -/
def windowCalls : List InjectCall := burst 5 1 ++ burst 900 1 ++ burst 1010 1 ++ burst 1010 1

/-- The bound at these four. -/
theorem storm_bounded_burst :
    injector.Admissible (guardAt 0 0) windowCalls ∧
      between 900 1900 (sendtos ((guardAt 0 0).openSockets true none) windowCalls) = 3 ∧
        between 900 1900 (sendtos ((guardAt 0 0).openSockets true none) windowCalls) ≤
          2 * INJECT_RATE_LIMIT := by
  have opened : (guardAt 0 0).openSockets true none = guardAt 0 0 := rfl
  have first : AllSent (guardAt 0 0) (burst 5 1) (guardAt 5 1) := burst_one rfl (by decide)
  have stays : AllSent (guardAt 5 1) (burst 900 1) (guardAt 5 2) := burst_one rfl (by decide)
  have next : AllSent (guardAt 5 2) (burst 1010 1) (guardAt 1010 1) := burst_one rfl (by decide)
  have again : AllSent (guardAt 1010 1) (burst 1010 1) (guardAt 1010 2) :=
    burst_one rfl (by decide)
  have inOrder : injector.Admissible (guardAt 0 0) windowCalls := by
    unfold windowCalls
    rw [injector.admissible_append, injector.admissible_append, injector.admissible_append,
      ((first.trans stays).trans next).state, (first.trans stays).state, first.state]
    exact ⟨⟨⟨burst_inOrder (by decide), burst_inOrder (by decide)⟩, burst_inOrder (by decide)⟩,
      burst_inOrder (by decide)⟩
  refine ⟨inOrder, ?_, (@storm_bounded true none (guardAt 0 0) rfl windowCalls (by decide)).1
    inOrder 900 1900 (by decide)⟩
  have sent : sendtos (guardAt 0 0) windowCalls = windowCalls :=
    (((first.trans stays).trans next).trans again).sent
  rw [opened, sent]
  decide

end Clumsy.Capture
