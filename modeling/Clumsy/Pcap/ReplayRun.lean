/-
# Pcap.ReplayRun -- what a replay injects and what it counts

The counters of a replay are `LONG`s.  `Tally` counts the same without a bound, and the
`LONG`s are the tally modulo 2^32 (`tallied_run`).  Whatever the calls and threads do, the
tally of what was read is that of what was sent and failed, or one more: the record that the
thread is busy with.

A thread that nobody stops takes the records from the front of the file, one by one, and
injects their IP parts: what was injected and what is left to inject (`Pc.queue`) is always
the same.
-/
import Clumsy.Pcap.Records
import Clumsy.Pcap.ReplayWait

namespace Clumsy.Pcap.ReplayThread

open Clumsy.Theory
open Clumsy.Packet
open Clumsy.Pcap

set_option autoImplicit false

/-! ## Counting without a bound -/

structure Tally where
  read   : Nat := 0
  sent   : Nat := 0
  failed : Nat := 0
  deriving DecidableEq

/-- The `LONG`s that hold it. -/
def Tally.counts (t : Tally) : Counts :=
  { read := .ofNat t.read, sent := .ofNat t.sent, failed := .ofNat t.failed }

/-- What a step of a thread adds. -/
def Pc.tally (s : State) (env : Env) (t : Tally) : Pc → Tally
  | .reading pass =>
      if s.stop then t
      else if (readRecord pass.file.swapped pass.rest).isNone then t
      else { t with read := t.read + 1 }
  | .pacing pass buf waitMs =>
      if Fp.lt (.finite 0) waitMs ∧ ¬s.stop then t
      else if s.stop then t
      else if (ipOffsetFor pass.file.linkType buf).isSome then t
      else { t with failed := t.failed + 1 }
  | .injecting _ _ =>
      if env.sent then { t with sent := t.sent + 1 } else { t with failed := t.failed + 1 }
  | _ => t

/-- A start that gets as far as clearing the counters. -/
def Clears (s : State) (call : StartCall) : Bool :=
  !call.path.isEmpty && s.ready && !s.active && (openAndValidate call.probe).toOption.isSome

def tallyStep (s : State) (t : Tally) : Event → Tally
  | .start call => if Clears s call then {} else t
  | .thread k env =>
      match s.threads[k]? with
      | none => t
      | some pc => pc.tally s env t
  | _ => t

/-- The replays with their tally. -/
def counted : Machine (State × Tally) Event where
  step x e := (step x.1 e, tallyStep x.1 x.2 e)
  admits _ _ := True

theorem ofNat_succ (n : Nat) : Int32.ofNat (n + 1) = Int32.ofNat n + 1 := by
  rw [Int32.ofNat_add]
  rfl

/-- **The counters are the tally.** -/
theorem replayThreadStep_counts {s : State} {t : Tally} (same : s.counts = t.counts) (env : Env)
    (pc : Pc) : (replayThreadStep s env pc).1.counts = (pc.tally s env t).counts := by
  cases pc with
  | opening own =>
      simp only [replayThreadStep, Pc.tally]
      cases openAndValidate (env.file own.path) <;> exact same
  | reading pass =>
      simp only [replayThreadStep, Pc.tally]
      split_ifs with stop none
      · exact same
      · rw [Option.isNone_iff_eq_none] at none
        simp only [none]
        exact same
      · cases read : readRecord pass.file.swapped pass.rest with
        | none => exact absurd (by rw [read]; rfl) none
        | some record => simp only [same, Tally.counts, ofNat_succ]
  | pacing pass buf waitMs =>
      simp only [replayThreadStep, Pc.tally]
      split_ifs with sleeps stop ip
      · exact same
      · exact same
      · obtain ⟨off, found⟩ := Option.isSome_iff_exists.1 ip
        simp only [found]
        exact same
      · rw [Bool.not_eq_true, Option.isSome_eq_false_iff, Option.isNone_iff_eq_none] at ip
        simp only [ip, same, Tally.counts, ofNat_succ]
  | injecting pass packet =>
      simp only [replayThreadStep, Pc.tally]
      split_ifs
      · simp only [same, Tally.counts, ofNat_succ]
      · simp only [same, Tally.counts, ofNat_succ]
  | created | passed =>
      simp only [replayThreadStep, Pc.tally]
      exact same
  | allocated | closing | clearing | finished => exact same

/-! ## At every moment -/

/-- How far a live thread may be behind with what it read. -/
def Pc.Behind (stop : Bool) (t : Tally) : Pc → Prop
  | .pacing _ _ _ | .injecting _ _ => t.read = t.sent + t.failed + 1
  | .passed _ => stop = false → t.read = t.sent + t.failed
  | .closing | .clearing | .finished => True
  | _ => t.read = t.sent + t.failed

/-- The tally is kept, nothing is missing from it, and a live thread is not behind. -/
structure Tallied (x : State × Tally) : Prop where
  inv    : Inv x.1
  counts : x.1.counts = x.2.counts
  low    : x.2.sent + x.2.failed ≤ x.2.read
  high   : x.2.read ≤ x.2.sent + x.2.failed + 1
  behind : ∀ (k : Nat) (pc : Pc), x.1.threads[k]? = some pc → pc.Behind x.1.stop x.2

/-- **One step of a live thread.** -/
theorem behind_step {s : State} {t : Tally} (env : Env) {pc : Pc} (low : t.sent + t.failed ≤ t.read)
    (high : t.read ≤ t.sent + t.failed + 1) (behind : pc.Behind s.stop t) :
    (pc.tally s env t).sent + (pc.tally s env t).failed ≤ (pc.tally s env t).read ∧
      (pc.tally s env t).read ≤ (pc.tally s env t).sent + (pc.tally s env t).failed + 1 ∧
        (replayThreadStep s env pc).2.Behind s.stop (pc.tally s env t) := by
  cases pc with
  | opening own =>
      refine ⟨low, high, ?_⟩
      simp only [replayThreadStep]
      cases openAndValidate (env.file own.path) with
      | error e => exact trivial
      | ok f => exact behind
  | reading pass =>
      have even : t.read = t.sent + t.failed := behind
      simp only [replayThreadStep, Pc.tally]
      cases stop : s.stop with
      | true =>
          simp only [if_true]
          exact ⟨low, high, fun off => by cases off⟩
      | false =>
          simp only [Bool.false_eq_true, if_false]
          cases read : readRecord pass.file.swapped pass.rest with
          | none => exact ⟨low, high, fun _ => even⟩
          | some record =>
              simp only [Option.isNone_some, Bool.false_eq_true, if_false, Pc.Behind]
              omega
  | pacing pass buf waitMs =>
      have ahead : t.read = t.sent + t.failed + 1 := behind
      simp only [replayThreadStep, Pc.tally]
      split_ifs with sleeps stop ip
      · exact ⟨low, high, ahead⟩
      · exact ⟨low, high, fun off => by rw [stop] at off; cases off⟩
      · obtain ⟨off, found⟩ := Option.isSome_iff_exists.1 ip
        simp only [found]
        exact ⟨low, high, ahead⟩
      · rw [Bool.not_eq_true, Option.isSome_eq_false_iff, Option.isNone_iff_eq_none] at ip
        simp only [ip, Pc.Behind]
        omega
  | injecting pass packet =>
      have ahead : t.read = t.sent + t.failed + 1 := behind
      simp only [replayThreadStep, Pc.tally]
      split_ifs
      · simp only [Pc.Behind]
        omega
      · simp only [Pc.Behind]
        omega
  | created =>
      refine ⟨low, high, ?_⟩
      simp only [replayThreadStep]
      split_ifs
      · exact behind
      · exact trivial
  | passed own =>
      refine ⟨low, high, ?_⟩
      simp only [replayThreadStep]
      split_ifs with again
      · exact behind (Bool.not_eq_true _ |>.mp again.2)
      · exact trivial
  | allocated => exact ⟨low, high, behind⟩
  | closing | clearing | finished => exact ⟨low, high, trivial⟩

/-- A start that does not clear the counters changes nothing. -/
theorem pcapReplayStart_kept {s : State} {call : StartCall} (keeps : Clears s call = false) :
    (pcapReplayStart s call).2 = s := by
  by_cases path : call.path = []
  · simp only [pcapReplayStart, if_pos path]
  · cases ready : s.ready with
    | false => simp [pcapReplayStart, path, ready]
    | true =>
        cases active : s.active with
        | true => simp [pcapReplayStart, path, ready, active]
        | false =>
            cases probe : openAndValidate call.probe with
            | error e => simp [pcapReplayStart, path, ready, active, probe]
            | ok f => simp [Clears, path, ready, active, probe, Except.toOption] at keeps

/-- A start that clears them found no live thread, and creates one or fails to. -/
theorem pcapReplayStart_cleared {s : State} {call : StartCall} (clears : Clears s call = true) :
    s.active = false ∧ (pcapReplayStart s call).2 =
      { releaseSlot s with
        own := { path := call.path.take (MSG_BUFSIZE - 1)
                 speed := effective call.speed
                 loop := call.loop }
        counts := {}
        stop := false
        active := call.created
        slot := if call.created then some s.threads.length else none
        threads := if call.created then s.threads ++ [.created] else s.threads } := by
  unfold Clears at clears
  simp only [Bool.and_eq_true, Bool.not_eq_true', List.isEmpty_eq_false_iff] at clears
  obtain ⟨⟨⟨path, ready⟩, idle⟩, valid⟩ := clears
  refine ⟨idle, ?_⟩
  cases probe : openAndValidate call.probe with
  | error e =>
      rw [probe] at valid
      cases valid
  | ok f =>
      unfold pcapReplayStart
      rw [if_neg path, if_neg (by simp [ready]), if_neg (by simp [idle]), probe]
      cases created : call.created with
      | true => simp [releaseSlot]
      | false => simp [releaseSlot]

/-- A step that keeps the threads and the counters, and at most asks to stop. -/
theorem Tallied.kept {s s' : State} {t : Tally} (tallied : Tallied (s, t)) (inv : Inv s')
    (counts : s'.counts = s.counts) (threads : s'.threads = s.threads)
    (stops : s'.stop = s.stop ∨ s'.stop = true) : Tallied (s', t) := by
  refine ⟨inv, counts.trans tallied.counts, tallied.low, tallied.high, ?_⟩
  intro k pc here
  have before : pc.Behind s.stop t := tallied.behind k pc (by rw [← threads]; exact here)
  show pc.Behind s'.stop t
  rcases stops with same | set
  · rw [same]
    exact before
  · rw [set]
    cases pc with
    | passed own =>
        intro off
        cases off
    | _ => exact before

theorem joined_kept (s : State) (h : Nat) (timedOut : Bool) :
    (joined s h timedOut).counts = s.counts ∧ (joined s h timedOut).threads = s.threads ∧
      (joined s h timedOut).stop = s.stop := by
  unfold joined
  split_ifs <;> exact ⟨rfl, rfl, rfl⟩

theorem pcapReplayStop_kept (s : State) :
    (pcapReplayStop s).counts = s.counts ∧ (pcapReplayStop s).threads = s.threads ∧
      ((pcapReplayStop s).stop = s.stop ∨ (pcapReplayStop s).stop = true) := by
  unfold pcapReplayStop
  split_ifs
  · exact ⟨rfl, rfl, .inr rfl⟩
  · exact ⟨rfl, rfl, .inl rfl⟩

/-- A start that clears the counters finds no live thread, and the thread it creates has
nothing to count. -/
theorem Tallied.cleared {s : State} {t : Tally} (tallied : Tallied (s, t)) {call : StartCall}
    (clears : Clears s call = true) : Tallied ((pcapReplayStart s call).2, {}) := by
  obtain ⟨idle, after⟩ := pcapReplayStart_cleared clears
  have quiet : ∀ (k : Nat) (pc : Pc), s.threads[k]? = some pc → pc.live = false := by
    intro k pc here
    by_contra live
    have active : s.active = true := tallied.inv.active.2 ⟨k, pc, here, by simpa using live⟩
    rw [idle] at active
    cases active
  refine ⟨inv_step s (.start call) tallied.inv, ?_, Nat.le_refl 0, Nat.zero_le 1, ?_⟩
  · rw [after]
    rfl
  · rw [after]
    intro k pc here
    simp only at here
    have old : s.threads[k]? = some pc ∨ pc = .created := by
      split_ifs at here
      · rw [List.getElem?_append] at here
        split_ifs at here
        · exact Or.inl here
        · rw [List.getElem?_singleton] at here
          split_ifs at here
          exact Or.inr (Option.some.inj here).symm
      · exact Or.inl here
    rcases old with there | rfl
    · have done := quiet k pc there
      cases pc with
      | finished => exact trivial
      | _ => cases done
    · exact rfl

/-- A step of a thread.  The others are finished if it lives, and if it does not it counts
nothing. -/
theorem Tallied.thread {s : State} {t : Tally} (tallied : Tallied (s, t)) {k : Nat} {pc : Pc}
    (here : s.threads[k]? = some pc) (env : Env) :
    Tallied (counted.step (s, t) (.thread k env)) := by
  obtain ⟨inv, counts, low, high, behind⟩ := tallied
  obtain ⟨low', high', behind'⟩ := behind_step env low high (behind k pc here)
  have inside : k < s.threads.length := (List.getElem?_eq_some_iff.1 here).1
  have stops : (replayThreadStep s env pc).1.stop = s.stop := by
    by_cases last : pc = .clearing
    · rw [last]
      rfl
    · obtain ⟨counts', frame⟩ := replayThreadStep_frame s env last
      rw [frame]
  have same : counted.step (s, t) (.thread k env) =
      ({ (replayThreadStep s env pc).1 with
         threads := s.threads.set k (replayThreadStep s env pc).2 },
       pc.tally s env t) := by
    simp only [counted, step, tallyStep, threadStep, here]
  have inv' : Inv (counted.step (s, t) (.thread k env)).1 := inv_step s (.thread k env) inv
  rw [same] at inv' ⊢
  refine ⟨inv', replayThreadStep_counts counts env pc, low', high', ?_⟩
  intro j pc' there
  show pc'.Behind (replayThreadStep s env pc).1.stop (pc.tally s env t)
  rw [stops]
  have there : (s.threads.set k (replayThreadStep s env pc).2)[j]? = some pc' := there
  by_cases other : k = j
  · subst other
    rw [List.getElem?_set_self inside] at there
    obtain rfl := Option.some.inj there
    exact behind'
  · rw [List.getElem?_set_ne other] at there
    cases live : pc.live with
    | false =>
        have kept : pc.tally s env t = t := by
          cases pc with
          | finished => rfl
          | _ => cases live
        rw [kept]
        exact behind j pc' there
    | true =>
        cases pc' with
        | finished => exact trivial
        | _ => exact absurd (inv.one k j ⟨pc, here, live⟩ ⟨_, there, rfl⟩) other

/-- **One event.** -/
theorem tallied_step (x : State × Tally) (e : Event) (tallied : Tallied x) :
    Tallied (counted.step x e) := by
  obtain ⟨s, t⟩ := x
  have inv := inv_step s e tallied.inv
  cases e with
  | init => exact tallied.kept inv rfl rfl (.inl rfl)
  | joined h timedOut =>
      obtain ⟨counts, threads, stops⟩ := joined_kept s h timedOut
      exact tallied.kept inv counts threads (.inl stops)
  | stop =>
      obtain ⟨counts, threads, stops⟩ := pcapReplayStop_kept s
      exact tallied.kept inv counts threads stops
  | start call =>
      cases clears : Clears s call with
      | false =>
          have same : counted.step (s, t) (.start call) = (s, t) := by
            simp only [counted, step, tallyStep, clears, pcapReplayStart_kept clears,
              Bool.false_eq_true, if_false]
          rw [same]
          exact tallied
      | true =>
          have same : counted.step (s, t) (.start call) = ((pcapReplayStart s call).2, {}) := by
            simp only [counted, step, tallyStep, clears, if_true]
          rw [same]
          exact tallied.cleared clears
  | thread k env =>
      cases here : s.threads[k]? with
      | none =>
          have same : counted.step (s, t) (.thread k env) = (s, t) := by
            simp only [counted, step, tallyStep, here, threadStep_none here]
          rw [same]
          exact tallied
      | some pc => exact tallied.thread here env

theorem tallied_initial : Tallied (.initial, {}) where
  inv := inv_initial
  counts := rfl
  low := Nat.le_refl 0
  high := Nat.zero_le 1
  behind := by
    intro k pc here
    cases here

/-- **The tally of every run.** -/
theorem tallied_run (es : List Event) : Tallied (counted.run (.initial, {}) es) :=
  counted.run_invariant' tallied_step es _ tallied_initial

/-- Below 2^31 a `LONG` holds a number. -/
theorem toInt_ofNat_small {n : Nat} (small : n < 2 ^ 31) : (Int32.ofNat n).toInt = n := by
  rw [Int32.toInt_ofNat']
  exact Int.bmod_eq_of_le (by simp only [Int32.size]; omega) (by simp only [Int32.size]; omega)

/-! ## A thread that nobody stops -/

namespace Pc

variable (f : Opened)

/-- The records a pass over the file still has to read. -/
def left : Pc → List (RecordHeader × Bytes)
  | .created | .allocated | .opening _ => records f.swapped f.rest
  | .reading pass | .pacing pass _ _ | .injecting pass _ => records f.swapped pass.rest
  | _ => []

/-- What of the record that was read last is still to be injected. -/
def inHand : Pc → List Bytes
  | .pacing _ buf _ => (ipPart f.linkType buf).toList
  | .injecting _ packet => [packet]
  | _ => []

/-- What the thread still has to inject. -/
def queue (pc : Pc) : List Bytes :=
  pc.inHand f ++ (pc.left f).filterMap fun r => ipPart f.linkType r.2

/-- Whether a record was read and neither sent nor failed. -/
def busy : Pc → Nat
  | .pacing _ _ _ | .injecting _ _ => 1
  | _ => 0

/-- What a step passes to `packetBackendInject`. -/
def emits : Pc → List Bytes
  | .injecting _ packet => [packet]
  | _ => []

/-- The thread plays this file, once. -/
def Fits (path : List Char) : Pc → Prop
  | .opening own | .passed own => own.path = path ∧ own.loop = false
  | .reading pass | .pacing pass _ _ | .injecting pass _ =>
      pass.own.path = path ∧ pass.own.loop = false ∧ pass.file.swapped = f.swapped ∧
        pass.file.linkType = f.linkType
  | _ => True

end Pc

/-- Where an undisturbed thread stands: what was read and what is left make up the file, and so
do what was sent or failed, what is being injected and what is left. -/
structure At (k : Nat) (path : List Char) (f : Opened) (total : Nat) (x : State × Tally) (pc : Pc) :
    Prop where
  here    : x.1.threads[k]? = some pc
  running : x.1.stop = false
  own     : x.1.own.path = path ∧ x.1.own.loop = false
  counts  : x.1.counts = x.2.counts
  begun   : pc ≠ .created
  fits    : pc.Fits f path
  read    : x.2.read + (pc.left f).length = total
  done    : x.2.sent + x.2.failed + pc.busy + (pc.left f).length = total

/-- What one step of such a thread does. -/
structure Advances (path : List Char) (f : Opened) (t t' : Tally) (pc pc' : Pc) : Prop where
  begun : pc' ≠ .created
  fits  : pc'.Fits f path
  read  : t'.read + (pc'.left f).length = t.read + (pc.left f).length
  done  : t'.sent + t'.failed + pc'.busy + (pc'.left f).length =
    t.sent + t.failed + pc.busy + (pc.left f).length
  fifo  : pc.emits ++ pc'.queue f = pc.queue f

/-- **One step of an undisturbed thread.** -/
theorem advances {s : State} {path : List Char} {file : Bytes} {f : Opened} {env : Env} {pc : Pc}
    (running : s.stop = false) (own : s.own.path = path ∧ s.own.loop = false)
    (accepted : openAndValidate (some file) = .ok f) (same : env.file path = some file)
    (begun : pc ≠ .created) (fits : pc.Fits f path) (t : Tally) :
    Advances path f t (pc.tally s env t) pc (replayThreadStep s env pc).2 := by
  cases pc with
  | created => exact absurd rfl begun
  | allocated => exact ⟨by simp [replayThreadStep], own, rfl, rfl, rfl⟩
  | opening settings =>
      simp only [replayThreadStep, Pc.tally, fits.1, same, accepted]
      exact ⟨by simp, ⟨fits.1, fits.2, rfl, rfl⟩, rfl, rfl, rfl⟩
  | reading pass =>
      obtain ⟨samePath, once, order, link⟩ := fits
      simp only [replayThreadStep, Pc.tally, running, Bool.false_eq_true, if_false, order]
      cases read : readRecord f.swapped pass.rest with
      | none =>
          have last := records_none read
          simp only [Option.isNone_none, if_true]
          exact ⟨by simp, ⟨samePath, once⟩, by simp [Pc.left, last],
            by simp [Pc.left, Pc.busy, last], by simp [Pc.queue, Pc.emits, Pc.inHand, Pc.left, last]⟩
      | some front =>
          obtain ⟨⟨rh, buf⟩, rest⟩ := front
          have next := records_some read
          simp only [Option.isNone_some, Bool.false_eq_true, if_false]
          refine ⟨by simp, ⟨samePath, once, order, link⟩, ?_, ?_, ?_⟩
          · simp only [Pc.left, next, List.length_cons]
            omega
          · simp only [Pc.left, Pc.busy, next, List.length_cons]
            omega
          · simp only [Pc.queue, Pc.emits, Pc.inHand, Pc.left, next, List.filterMap_cons,
              List.nil_append]
            cases ipPart f.linkType buf <;> rfl
  | pacing pass buf waitMs =>
      obtain ⟨samePath, once, order, link⟩ := fits
      simp only [replayThreadStep, Pc.tally, running, Bool.false_eq_true, if_false, not_false_eq_true,
        and_true, link]
      split_ifs with sleeps ip
      · exact ⟨by simp, ⟨samePath, once, order, link⟩, rfl, rfl, rfl⟩
      · obtain ⟨off, found⟩ := Option.isSome_iff_exists.1 ip
        have part : ipPart f.linkType buf = some (buf.drop off) := by
          rw [← ipOffsetFor_drop, found]
          rfl
        simp only [found]
        exact ⟨by simp, ⟨samePath, once, order, link⟩, rfl, rfl,
          by simp [Pc.queue, Pc.emits, Pc.inHand, Pc.left, part]⟩
      · rw [Bool.not_eq_true, Option.isSome_eq_false_iff, Option.isNone_iff_eq_none] at ip
        have part : ipPart f.linkType buf = none := by
          rw [← ipOffsetFor_drop, ip]
          rfl
        simp only [ip]
        refine ⟨by simp, ⟨samePath, once, order, link⟩, rfl, ?_, ?_⟩
        · simp only [Pc.busy, Pc.left]
          omega
        · simp [Pc.queue, Pc.emits, Pc.inHand, Pc.left, part]
  | injecting pass packet =>
      refine ⟨by simp [replayThreadStep], fits, ?_, ?_, rfl⟩
      · simp only [replayThreadStep, Pc.tally]
        split_ifs <;> rfl
      · simp only [replayThreadStep, Pc.tally, Pc.busy, Pc.left]
        split_ifs
        · simp only
          omega
        · simp only
          omega
  | passed settings =>
      have last : ¬(settings.loop = true ∧ ¬s.stop = true) := by simp [fits.2]
      simp only [replayThreadStep, Pc.tally, if_neg last]
      exact ⟨by simp, trivial, rfl, rfl, rfl⟩
  | closing => exact ⟨by simp [replayThreadStep], trivial, rfl, rfl, rfl⟩
  | clearing => exact ⟨by simp [replayThreadStep], trivial, rfl, rfl, rfl⟩
  | finished => exact ⟨by simp [replayThreadStep], trivial, rfl, rfl, rfl⟩

/-- A thread's step leaves the stop flag and the settings as they are. -/
theorem replayThreadStep_kept (s : State) (env : Env) (pc : Pc) :
    (replayThreadStep s env pc).1.stop = s.stop ∧ (replayThreadStep s env pc).1.own = s.own ∧
      (replayThreadStep s env pc).1.threads = s.threads := by
  by_cases last : pc = .clearing
  · rw [last]
    exact ⟨rfl, rfl, rfl⟩
  · obtain ⟨counts, frame⟩ := replayThreadStep_frame s env last
    rw [frame]
    exact ⟨rfl, rfl, rfl⟩

/-- The step of a thread that is there, with its tally. -/
theorem counted_thread {s : State} {k : Nat} {pc : Pc} (here : s.threads[k]? = some pc)
    (t : Tally) (env : Env) :
    counted.step (s, t) (.thread k env) =
      ({ (replayThreadStep s env pc).1 with
         threads := s.threads.set k (replayThreadStep s env pc).2 }, pc.tally s env t) := by
  simp only [counted, step, tallyStep, threadStep, here]

/-- The calls of `packetBackendInject` at an event. -/
def injection (x : State × Tally) : Event → List Bytes
  | .thread k _ =>
      match x.1.threads[k]? with
      | none => []
      | some pc => pc.emits
  | _ => []

/-- All that a run passes to `packetBackendInject`. -/
def injections (x : State × Tally) (es : List Event) : List Bytes :=
  (counted.outputs injection x es).flatten

/-- The steps of one thread, in a world that keeps the file. -/
def undisturbed (k : Nat) (path : List Char) (file : Bytes) : Machine (State × Tally) Event where
  step := counted.step
  admits _ e := ∃ env, e = .thread k env ∧ env.file path = some file

section Undisturbed

variable {k : Nat} {path : List Char} {file : Bytes} {f : Opened} {total : Nat}

theorem at_step (accepted : openAndValidate (some file) = .ok f) {x : State × Tally} {pc : Pc}
    (at_ : At k path f total x pc) {env : Env} (same : env.file path = some file) :
    At k path f total (counted.step x (.thread k env)) (replayThreadStep x.1 env pc).2 ∧
      pc.emits ++ (replayThreadStep x.1 env pc).2.queue f = pc.queue f := by
  obtain ⟨s, t⟩ := x
  obtain ⟨here, running, own, counts, begun, fits, read, done⟩ := at_
  have step := advances running own accepted same begun fits t
  obtain ⟨stop', own', -⟩ := replayThreadStep_kept s env pc
  have inside : k < s.threads.length := (List.getElem?_eq_some_iff.1 here).1
  refine ⟨?_, step.fifo⟩
  rw [counted_thread here]
  exact {
    here := List.getElem?_set_self inside
    running := stop'.trans running
    own := by
      show (replayThreadStep s env pc).1.own.path = path ∧
        (replayThreadStep s env pc).1.own.loop = false
      rw [own']
      exact own
    counts := replayThreadStep_counts counts env pc
    begun := step.begun
    fits := step.fits
    read := step.read.trans read
    done := step.done.trans done }

/-- Somewhere, undisturbed. -/
def Along (k : Nat) (path : List Char) (f : Opened) (total : Nat) (x : State × Tally) : Prop :=
  ∃ pc, At k path f total x pc

/-- What the thread with this handle still has to inject. -/
def queueOf (k : Nat) (f : Opened) (x : State × Tally) : List Bytes :=
  match x.1.threads[k]? with
  | none => []
  | some pc => pc.queue f

theorem along_step (accepted : openAndValidate (some file) = .ok f) (x : State × Tally) (e : Event)
    (along : Along k path f total x) (admits : (undisturbed k path file).admits x e) :
    Along k path f total ((undisturbed k path file).step x e) := by
  obtain ⟨pc, at_⟩ := along
  obtain ⟨env, rfl, same⟩ := admits
  exact ⟨_, (at_step accepted at_ same).1⟩

/-- **First in, first out**: what was injected and what is left are what there was. -/
theorem injections_queue (accepted : openAndValidate (some file) = .ok f) (es : List Event)
    {x : State × Tally} (along : Along k path f total x)
    (admissible : (undisturbed k path file).Admissible x es) :
    injections x es ++ queueOf k f (counted.run x es) = queueOf k f x := by
  induction es generalizing x with
  | nil => rfl
  | cons e es ih =>
      have next := along_step accepted x e along admissible.1
      obtain ⟨pc, at_⟩ := along
      obtain ⟨env, rfl, same⟩ := admissible.1
      obtain ⟨after, queue⟩ := at_step accepted at_ same
      have split : injections x (.thread k env :: es) =
          injection x (.thread k env) ++ injections (counted.step x (.thread k env)) es := rfl
      have here : queueOf k f x = pc.queue f := by
        simp only [queueOf, at_.here]
      have there : queueOf k f (counted.step x (.thread k env)) =
          (replayThreadStep x.1 env pc).2.queue f := by
        simp only [queueOf, after.here]
      have first : injection x (.thread k env) = pc.emits := by
        simp only [injection, at_.here]
      have rest := ih next admissible.2
      rw [split, Machine.run_cons, List.append_assoc]
      show injection x (.thread k env) ++ (injections (counted.step x (.thread k env)) es ++
        queueOf k f (counted.run (counted.step x (.thread k env)) es)) = _
      have rest : injections (counted.step x (.thread k env)) es ++
          queueOf k f (counted.run (counted.step x (.thread k env)) es) =
            queueOf k f (counted.step x (.thread k env)) := rest
      rw [rest, first, there, queue, here]

end Undisturbed

/-! ## Waiting for the records -/

/-- The thread paces its records by this speed and the first record of the file, and has
records of the file left. -/
structure Pass.OnTime (f : Opened) (speed : Fp) (pass : Pass) : Prop where
  speed : pass.own.speed = speed
  rest  : records f.swapped pass.rest ⊆ records f.swapped f.rest
  first : pass.firstTs = none ∧ records f.swapped pass.rest = records f.swapped f.rest ∨
    ∃ first ∈ (records f.swapped f.rest).head?, pass.firstTs = some first.1.ts

/-- If it waits, the end of that is in sight. -/
def Pc.OnTime (f : Opened) (speed : Fp) : Pc → Prop
  | .opening own => own.speed = speed
  | .reading pass | .injecting pass _ => pass.OnTime f speed
  | .pacing pass _ waitMs => pass.OnTime f speed ∧ Short waitMs
  | _ => True

/-- **One step of a thread that has no long wait before it.** -/
theorem onTime_step {s : State} {path : List Char} {file : Bytes} {f : Opened} {env : Env} {pc : Pc}
    {speed : Fp} (running : s.stop = false) (own : effective s.own.speed = speed)
    (accepted : openAndValidate (some file) = .ok f) (same : env.file path = some file)
    (begun : pc ≠ .created) (fits : pc.Fits f path)
    (prompt : Prompt speed (records f.swapped f.rest)) (onTime : pc.OnTime f speed) :
    (replayThreadStep s env pc).2.OnTime f speed := by
  cases pc with
  | created => exact absurd rfl begun
  | allocated => exact own
  | opening settings =>
      simp only [replayThreadStep, fits.1, same, accepted]
      exact ⟨onTime, List.Subset.refl _, .inl ⟨rfl, rfl⟩⟩
  | reading pass =>
      obtain ⟨-, -, order, -⟩ := fits
      simp only [replayThreadStep, running, Bool.false_eq_true, if_false, order]
      cases read : readRecord f.swapped pass.rest with
      | none => exact trivial
      | some front =>
          obtain ⟨⟨rh, buf⟩, rest⟩ := front
          have next := records_some read
          obtain ⟨speed', inFile, first⟩ := onTime
          rw [next] at inFile
          have here : (rh, buf) ∈ records f.swapped f.rest := inFile List.mem_cons_self
          -- the time it is paced by is that of the first record
          obtain ⟨head, isHead, dated⟩ : ∃ head ∈ (records f.swapped f.rest).head?,
              pass.firstTs.getD rh.ts = head.1.ts := by
            rcases first with ⟨unset, whole⟩ | ⟨head, isHead, set⟩
            · refine ⟨(rh, buf), ?_, by rw [unset]; rfl⟩
              rw [← whole, next]
              rfl
            · exact ⟨head, isHead, by rw [set]; rfl⟩
          have due := prompt head isHead (rh, buf) here
          refine ⟨⟨speed', fun r member => inFile (List.mem_cons_of_mem _ member),
            .inr ⟨head, isHead, congrArg some dated⟩⟩, short_waitMs ?_⟩
          show Short (targetMs pass.own.speed (pass.firstTs.getD rh.ts) rh.ts)
          rw [speed', dated]
          exact due
  | pacing pass buf waitMs =>
      simp only [replayThreadStep, running, Bool.false_eq_true, if_false, not_false_eq_true,
        and_true]
      split_ifs with sleeps
      · exact ⟨onTime.1, (rounds_fall sleeps onTime.2).2⟩
      · cases ipOffsetFor pass.file.linkType buf <;> exact onTime.1
  | injecting pass packet => exact onTime
  | passed settings =>
      have last : ¬(settings.loop = true ∧ ¬s.stop = true) := by simp [fits.2]
      simp only [replayThreadStep, if_neg last]
      exact trivial
  | closing | clearing | finished => exact trivial

section Prompt

variable {k : Nat} {path : List Char} {file : Bytes} {f : Opened} {total : Nat} {speed : Fp}

/-- Where an undisturbed thread stands that has no long wait before it. -/
structure AtEase (k : Nat) (path : List Char) (f : Opened) (total : Nat) (speed : Fp)
    (x : State × Tally) (pc : Pc) : Prop extends At k path f total x pc where
  onTime : pc.OnTime f speed
  pace   : effective x.1.own.speed = speed

theorem atEase_step (accepted : openAndValidate (some file) = .ok f)
    (prompt : Prompt speed (records f.swapped f.rest)) {x : State × Tally} {pc : Pc}
    (ease : AtEase k path f total speed x pc) {env : Env} (same : env.file path = some file) :
    AtEase k path f total speed (counted.step x (.thread k env))
      (replayThreadStep x.1 env pc).2 := by
  have at_ := ease.toAt
  refine ⟨(at_step accepted at_ same).1,
    onTime_step at_.running ease.pace accepted same at_.begun at_.fits prompt ease.onTime, ?_⟩
  rw [counted_thread at_.here]
  show effective (replayThreadStep x.1 env pc).1.own.speed = speed
  rw [(replayThreadStep_kept x.1 env pc).2.1]
  exact ease.pace

/-- How far a thread is from its end: the stage and what it still sleeps. -/
def rank (f : Opened) (pc : Pc) : Nat × Nat :=
  match pc with
  | .finished => (0, 0)
  | .clearing => (1, 0)
  | .closing => (2, 0)
  | .passed _ => (3, 0)
  | .reading pass => (4 + 3 * (records f.swapped pass.rest).length, 0)
  | .injecting pass _ => (5 + 3 * (records f.swapped pass.rest).length, 0)
  | .pacing pass _ waitMs => (6 + 3 * (records f.swapped pass.rest).length, rounds waitMs)
  | .opening _ => (5 + 3 * (records f.swapped f.rest).length, 0)
  | .allocated => (6 + 3 * (records f.swapped f.rest).length, 0)
  | .created => (7 + 3 * (records f.swapped f.rest).length, 0)

/-- The rank of the thread with this handle. -/
def rankOf (k : Nat) (f : Opened) (x : State × Tally) : Nat × Nat :=
  match x.1.threads[k]? with
  | none => (0, 0)
  | some pc => rank f pc

/-- **Every step of an undisturbed thread brings its end nearer.** -/
theorem rank_falls (accepted : openAndValidate (some file) = .ok f) {s : State} {env : Env}
    {pc : Pc} (running : s.stop = false) (same : env.file path = some file)
    (begun : pc ≠ .created) (fits : pc.Fits f path) (onTime : pc.OnTime f speed)
    (goesOn : pc ≠ .finished) :
    Prod.Lex (· < ·) (· < ·) (rank f (replayThreadStep s env pc).2) (rank f pc) := by
  cases pc with
  | created => exact absurd rfl begun
  | finished => exact absurd rfl goesOn
  | allocated => exact Prod.Lex.left _ _ (by omega)
  | opening settings =>
      simp only [replayThreadStep, fits.1, same, accepted]
      refine Prod.Lex.left _ _ ?_
      dsimp only
      omega
  | reading pass =>
      obtain ⟨-, -, order, -⟩ := fits
      simp only [replayThreadStep, running, Bool.false_eq_true, if_false, order]
      cases read : readRecord f.swapped pass.rest with
      | none => exact Prod.Lex.left _ _ (by omega)
      | some front =>
          refine Prod.Lex.left _ _ ?_
          have next : records f.swapped pass.rest = front.1 :: records f.swapped front.2 :=
            records_some read
          rw [next, List.length_cons]
          dsimp only
          omega
  | pacing pass buf waitMs =>
      simp only [replayThreadStep, running, Bool.false_eq_true, if_false, not_false_eq_true,
        and_true]
      split_ifs with sleeps
      · exact Prod.Lex.right _ (rounds_fall sleeps onTime.2).1
      · cases ipOffsetFor pass.file.linkType buf with
        | none => exact Prod.Lex.left _ _ (by omega)
        | some off => exact Prod.Lex.left _ _ (by omega)
  | injecting pass packet => exact Prod.Lex.left _ _ (by omega)
  | passed settings =>
      have last : ¬(settings.loop = true ∧ ¬s.stop = true) := by simp [fits.2]
      simp only [replayThreadStep, if_neg last]
      exact Prod.Lex.left _ _ (by omega)
  | closing => exact Prod.Lex.left _ _ (by omega)
  | clearing => exact Prod.Lex.left _ _ (by omega)

theorem undisturbed_admissible (env : Nat → Env) (same : ∀ n, (env n).file path = some file)
    (is : List Nat) (x : State × Tally) :
    (undisturbed k path file).Admissible x (is.map fun i => .thread k (env i)) := by
  induction is generalizing x with
  | nil => trivial
  | cons i is ih => exact ⟨⟨env i, rfl, same i⟩, ih _⟩

/-- **An undisturbed thread comes to its end**, if it has no long wait before it. -/
theorem exists_finished (accepted : openAndValidate (some file) = .ok f)
    (prompt : Prompt speed (records f.swapped f.rest)) (env : Nat → Env)
    (same : ∀ n, (env n).file path = some file) {x : State × Tally}
    (begins : ∃ pc, AtEase k path f total speed x pc) :
    ∃ n, At k path f total (counted.run x ((List.range n).map fun i => .thread k (env i)))
      .finished := by
  have admissible : ∀ n, (undisturbed k path file).Admissible x
      ((List.range n).map fun i => Event.thread k (env i)) :=
    fun n => undisturbed_admissible env same _ x
  have preserved : ∀ (y : State × Tally) (e : Event), (∃ pc, AtEase k path f total speed y pc) →
      (undisturbed k path file).admits y e →
        ∃ pc, AtEase k path f total speed ((undisturbed k path file).step y e) pc := by
    rintro y e ⟨pc, ease⟩ ⟨env, rfl, same⟩
    exact ⟨_, atEase_step accepted prompt ease same⟩
  have falls : ∀ (y : State × Tally) (e : Event), (∃ pc, AtEase k path f total speed y pc) →
      (undisturbed k path file).admits y e → ¬y.1.threads[k]? = some .finished →
        Prod.Lex (· < ·) (· < ·) (rankOf k f ((undisturbed k path file).step y e))
          (rankOf k f y) := by
    rintro y e ⟨pc, ease⟩ ⟨env, rfl, same⟩ goesOn
    have at_ := ease.toAt
    have after := (at_step accepted at_ same).1
    have here : rankOf k f y = rank f pc := by
      simp only [rankOf, at_.here]
    have there : rankOf k f ((undisturbed k path file).step y (.thread k env)) =
        rank f (replayThreadStep y.1 env pc).2 := by
      have next : ((undisturbed k path file).step y (.thread k env)).1.threads[k]? =
          some (replayThreadStep y.1 env pc).2 := after.here
      simp only [rankOf, next]
    rw [here, there]
    refine rank_falls accepted at_.running same at_.begun at_.fits ease.onTime ?_
    rintro rfl
    exact goesOn at_.here
  obtain ⟨n, ends⟩ := @Machine.exists_run_done _ _ (undisturbed k path file)
    (fun y => ∃ pc, AtEase k path f total speed y pc)
    (fun y => y.1.threads[k]? = some .finished) _ _
    (WellFounded.prod_lex Nat.lt_wfRel.wf Nat.lt_wfRel.wf) (rankOf k f) preserved falls
    (fun i => .thread k (env i)) x begins admissible
  refine ⟨n, ?_⟩
  obtain ⟨pc, ease⟩ := (undisturbed k path file).run_invariant preserved _ x begins (admissible n)
  have last : some pc = some Pc.finished := ease.here.symm.trans ends
  obtain rfl := Option.some.inj last
  exact ease.toAt

end Prompt

/-! ## A replay from its start -/

/-- The steps of a thread. -/
def threadSteps (k : Nat) (env : Nat → Env) (n : Nat) : List Event :=
  (List.range n).map fun i => .thread k (env i)

/-- A start that succeeds has created a thread. -/
theorem started_clears {s : State} {call : StartCall}
    (started : (pcapReplayStart s call).1 = .ok ()) :
    Clears s call = true ∧ call.created = true := by
  by_cases path : call.path = []
  · simp [pcapReplayStart, path] at started
  · cases ready : s.ready with
    | false => simp [pcapReplayStart, path, ready] at started
    | true =>
        cases active : s.active with
        | true => simp [pcapReplayStart, path, ready, active] at started
        | false =>
            cases probe : openAndValidate call.probe with
            | error e => simp [pcapReplayStart, path, ready, active, probe] at started
            | ok f =>
                cases created : call.created with
                | false => simp [pcapReplayStart, path, ready, active, probe, created] at started
                | true => simp [Clears, path, ready, active, probe, Except.toOption]

/-- So many records were read, and each of them was sent or failed: modulo 2^32, and exactly
while the number fits. -/
structure Counts.AddUp (c : Counts) (total : Nat) : Prop where
  tally : ∃ sent failed, sent + failed = total ∧ c = Tally.counts { read := total, sent, failed }
  fits  : total < 2 ^ 31 → c.read.toInt = total ∧ c.sent.toInt + c.failed.toInt = total

theorem addUp_of_tally {c : Counts} {total sent failed : Nat} (done : sent + failed = total)
    (same : c = Tally.counts { read := total, sent, failed }) : c.AddUp total := by
  refine ⟨⟨sent, failed, done, same⟩, ?_⟩
  intro small
  rw [same]
  simp only [Tally.counts]
  rw [toInt_ofNat_small small, toInt_ofNat_small (by omega), toInt_ofNat_small (by omega)]
  omega

/-- **What a replay that nobody stops does with these packets and so many records**: it
injects them in order, none of them empty, and, if the records are prompt, ends when all are
injected and all records are counted. -/
structure Plays (x : State × Tally) (k : Nat) (env : Nat → Env) (packets : List Bytes)
    (total : Nat) (prompt : Prop) : Prop where
  inOrder  : ∀ n, injections x (threadSteps k env n) <+: packets
  nonempty : ∀ n, ∀ packet ∈ injections x (threadSteps k env n), packet ≠ []
  ends     : prompt → ∃ n,
    (counted.run x (threadSteps k env n)).1.threads[k]? = some .finished ∧
      injections x (threadSteps k env n) = packets ∧
        (counted.run x (threadSteps k env n)).1.counts.AddUp total

theorem threadSteps_succ (k : Nat) (env : Nat → Env) (n : Nat) :
    threadSteps k env (n + 1) = .thread k (env 0) :: threadSteps k (fun i => env (i + 1)) n := by
  unfold threadSteps
  rw [List.range_succ_eq_map, List.map_cons, List.map_map]
  rfl

theorem effective_effective (speed : Fp) : effective (effective speed) = effective speed := by
  by_cases positive : Fp.lt (.finite 0) speed = true
  · have same : effective speed = speed := if_pos positive
    rw [same, same]
  · have one : effective speed = .finite 1 := if_neg positive
    rw [one]
    decide

/-- **A started thread stands in front of the file** after its first step. -/
theorem started_at {f : Opened} {s : State} {call : StartCall}
    (started : (pcapReplayStart s call).1 = .ok ()) (once : call.loop = false) {env : Env}
    (memory : env.memory = true) :
    (pcapReplayStart s call).2.threads[s.threads.length]? = some .created ∧
      AtEase s.threads.length (call.path.take (MSG_BUFSIZE - 1)) f
        (records f.swapped f.rest).length (effective call.speed)
        (counted.step ((pcapReplayStart s call).2, {}) (.thread s.threads.length env))
        .allocated := by
  obtain ⟨clears, created⟩ := started_clears started
  have after := (pcapReplayStart_cleared clears).2
  rw [if_pos created, if_pos created] at after
  set k := s.threads.length with length
  set x := ((pcapReplayStart s call).2, ({} : Tally)) with start
  have here : x.1.threads[k]? = some .created := by
    rw [start, after]
    simp [length]
  refine ⟨here, ?_⟩
  have inside : k < x.1.threads.length := (List.getElem?_eq_some_iff.1 here).1
  have next : replayThreadStep x.1 env .created = (x.1, .allocated) := by
    simp only [replayThreadStep, memory, if_true]
  have step := counted_thread here x.2 env
  rw [next] at step
  rw [step]
  refine ⟨⟨List.getElem?_set_self inside, ?_, ?_, ?_, by simp, trivial, Nat.zero_add _,
    Nat.zero_add _⟩, trivial, ?_⟩
  · rw [start, after]
  · rw [start, after]
    exact ⟨rfl, once⟩
  · rw [start, after]
    rfl
  · rw [start, after]
    exact effective_effective call.speed

/-- **One pass over a file.** -/
theorem plays_records {file : Bytes} {f : Opened} (accepted : openAndValidate (some file) = .ok f)
    {s : State} {call : StartCall} (started : (pcapReplayStart s call).1 = .ok ())
    (once : call.loop = false) {env : Nat → Env} (memory : (env 0).memory = true)
    (same : ∀ n, (env n).file (call.path.take (MSG_BUFSIZE - 1)) = some file) :
    Plays ((pcapReplayStart s call).2, {}) s.threads.length env
      ((records f.swapped f.rest).filterMap fun r => ipPart f.linkType r.2)
      (records f.swapped f.rest).length
      (Prompt (effective call.speed) (records f.swapped f.rest)) := by
  obtain ⟨created, ease⟩ := started_at (f := f) started once memory
  have first := ease.toAt
  set k := s.threads.length
  set x := ((pcapReplayStart s call).2, ({} : Tally))
  set packets := (records f.swapped f.rest).filterMap fun r => ipPart f.linkType r.2
  have here : x.1.threads[k]? = some .created := created
  have silent : injection x (.thread k (env 0)) = [] := by
    simp only [injection, here, Pc.emits]
  have admissible : ∀ n, (undisturbed k (call.path.take (MSG_BUFSIZE - 1)) file).Admissible
      (counted.step x (.thread k (env 0))) (threadSteps k (fun i => env (i + 1)) n) := by
    intro n
    exact undisturbed_admissible (fun i => env (i + 1)) (fun i => same (i + 1)) _ _
  have whole : ∀ n, injections x (threadSteps k env (n + 1)) ++
      queueOf k f (counted.run x (threadSteps k env (n + 1))) = packets := by
    intro n
    have fifo := injections_queue accepted _ ⟨_, first⟩ (admissible n)
    have begun : queueOf k f (counted.step x (.thread k (env 0))) = packets := by
      simp only [queueOf, first.here]
      rfl
    have split : injections x (threadSteps k env (n + 1)) =
        injections (counted.step x (.thread k (env 0)))
          (threadSteps k (fun i => env (i + 1)) n) := by
      rw [threadSteps_succ]
      show injection x (.thread k (env 0)) ++ _ = _
      rw [silent]
      rfl
    rw [split, threadSteps_succ, Machine.run_cons, fifo, begun]
  have inOrder : ∀ n, injections x (threadSteps k env n) <+: packets := by
    intro n
    cases n with
    | zero => exact List.nil_prefix
    | succ n => exact ⟨_, whole n⟩
  refine ⟨inOrder, ?_, ?_⟩
  · intro n packet member
    have among := (inOrder n).subset member
    obtain ⟨r, inFile, part⟩ := List.mem_filterMap.1 among
    obtain ⟨tail, longest⟩ := records_longest f.swapped f.rest
    exact ipPart_ne_nil (longest.complete r inFile).ne_nil part
  · intro prompt
    obtain ⟨n, last⟩ := exists_finished accepted prompt (fun i => env (i + 1))
      (fun i => same (i + 1)) ⟨_, ease⟩
    have final : At k (call.path.take (MSG_BUFSIZE - 1)) f (records f.swapped f.rest).length
        (counted.run x (threadSteps k env (n + 1))) .finished := by
      rw [threadSteps_succ]
      exact last
    refine ⟨n + 1, final.here, ?_, ?_⟩
    · have all := whole n
      have none : queueOf k f (counted.run x (threadSteps k env (n + 1))) = [] := by
        simp only [queueOf, final.here]
        rfl
      rw [none, List.append_nil] at all
      exact all
    · have read := final.read
      have done := final.done
      simp only [Pc.left, Pc.busy, List.length_nil, Nat.add_zero] at read done
      refine addUp_of_tally done (final.counts.trans ?_)
      rw [← read]

/-- The `LONG`s against the tally: the tally modulo 2^32, and in step while the number of
records read fits. -/
structure InStep (x : State × Tally) : Prop where
  counts : x.1.counts = x.2.counts
  low    : x.2.sent + x.2.failed ≤ x.2.read
  high   : x.2.read ≤ x.2.sent + x.2.failed + 1
  fits   : x.2.read < 2 ^ 31 →
    x.1.counts.sent.toInt + x.1.counts.failed.toInt ≤ x.1.counts.read.toInt ∧
      x.1.counts.read.toInt ≤ x.1.counts.sent.toInt + x.1.counts.failed.toInt + 1

theorem Tallied.inStep {x : State × Tally} (tallied : Tallied x) : InStep x := by
  obtain ⟨-, counts, low, high, -⟩ := tallied
  refine ⟨counts, low, high, ?_⟩
  intro small
  rw [counts]
  simp only [Tally.counts]
  rw [toInt_ofNat_small small, toInt_ofNat_small (by omega), toInt_ofNat_small (by omega)]
  omega

/-- **The replay reader.**  Of every file that is accepted, a replay that nobody stops injects
the IP parts of the longest prefix of complete records, and counts these records and ends if
none of them is due more than 2^60 ms behind the first, as none is at a speed of 2^-18 or
more; with all header fields turned round it does the same.  And whatever the calls and the
threads do, what was read is what was sent or failed, or one more. -/
theorem replay_reader {file : Bytes} {f : Opened}
    (accepted : openAndValidate (some file) = .ok f) :
    (∃ rs tail, LongestPrefix f.swapped f.rest rs tail ∧
      (∀ rs' tail', LongestPrefix f.swapped f.rest rs' tail' → rs' = rs) ∧
      ∀ file' ∈ [file, swapFields file], ∀ (s : State) (call : StartCall),
        (pcapReplayStart s call).1 = .ok () → call.loop = false → ∀ env : Nat → Env,
          (env 0).memory = true →
            (∀ n, (env n).file (call.path.take (MSG_BUFSIZE - 1)) = some file') →
              Plays ((pcapReplayStart s call).2, {}) s.threads.length env
                (rs.filterMap fun r => ipPart f.linkType r.2) rs.length
                (Prompt (effective call.speed) rs)) ∧
      (∀ speed rs, Fp.le (.finite (1 / 2 ^ 18)) speed = true → Prompt (effective speed) rs) ∧
      ∀ es, InStep (counted.run (.initial, {}) es) := by
  refine ⟨?_, fun speed rs fast => prompt_effective fast rs, fun es => (tallied_run es).inStep⟩
  obtain ⟨tail, longest⟩ := records_longest f.swapped f.rest
  refine ⟨_, tail, longest, fun _ _ other => other.unique, ?_⟩
  intro file' either s call started once env memory same
  rcases List.mem_cons.1 either with rfl | turned
  · exact plays_records accepted started once memory same
  · obtain rfl := List.mem_singleton.1 turned
    obtain ⟨f', accepted', link, all⟩ := records_swapFields accepted
    have plays := plays_records accepted' started once memory same
    rw [link, all] at plays
    exact plays

/-! ## A replay that loops -/

/-- One record of one byte. -/
def loopFile : Bytes :=
  fileBytes
    { magic := PCAP_MAGIC, versionMajor := 2, versionMinor := 4, thisZone := 0, sigFigs := 0
      snapLen := 65535, network := LINKTYPE_RAW }
    [({ tsSec := 0, tsUsec := 0, inclLen := 1, origLen := 1 }, [0x45])]

def loopOpened : Opened :=
  { swapped := false, linkType := LINKTYPE_RAW, rest := loopFile.drop GlobalHeader.size }

theorem loopFile_opens : openAndValidate (some loopFile) = .ok loopOpened := by decide +kernel

/-- Every injection succeeds, and the clock stands still. -/
def loopEnv : Env where
  memory := true
  file := fun _ => some loopFile
  tick := 0
  sent := true

/-- A step of the thread. -/
def loopTick : Event := .thread 0 loopEnv

def loopStart : StartCall :=
  { path := ['a'], speed := .finite 1, loop := true, probe := some loopFile, created := true }

/-- A replay of the file that does not loop: its eight steps inject the record, and the reader
has it end. -/
theorem replay_reader_loopFile :
    let x := ((pcapReplayStart { State.initial with ready := true }
      { loopStart with loop := false }).2, ({} : Tally))
    let steps := threadSteps 0 (fun _ => loopEnv)
    injections x (steps 8) = [[0x45]] ∧
      ∃ rs tail, LongestPrefix loopOpened.swapped loopOpened.rest rs tail ∧
        [[0x45]] <+: (rs.filterMap fun r => ipPart loopOpened.linkType r.2) ∧
        ∃ n, (counted.run x (steps n)).1.threads[0]? = some .finished ∧
          injections x (steps n) = (rs.filterMap fun r => ipPart loopOpened.linkType r.2) ∧
          (counted.run x (steps n)).1.counts.AddUp rs.length := by
  intro x steps
  have eight : injections x (steps 8) = [[0x45]] := by decide +kernel
  obtain ⟨⟨rs, tail, longest, -, all⟩, fast, -⟩ := replay_reader loopFile_opens
  have plays := all loopFile List.mem_cons_self { State.initial with ready := true }
    { loopStart with loop := false } (by decide +kernel) rfl (fun _ => loopEnv) rfl fun _ => rfl
  refine ⟨eight, rs, tail, longest, ?_, plays.ends (fast _ rs (by decide +kernel))⟩
  rw [← eight]
  exact plays.inOrder 8

def loopSettings : Settings := { path := ['a'], speed := .finite 1, loop := true }

/-- The replay with these counters and its thread here. -/
def looping (counts : Counts) (pc : Pc) : State :=
  { State.initial with
    ready := true
    active := true
    slot := some 0
    own := loopSettings
    counts
    threads := [pc] }

theorem loop_step {counts counts' : Counts} {pc pc' : Pc}
    (next : replayThreadStep (looping counts pc) loopEnv pc = (looping counts' pc, pc')) :
    replay.step (looping counts pc) loopTick = looping counts' pc' := by
  have here : (looping counts pc).threads[0]? = some pc := rfl
  simp only [replay, loopTick, step, threadStep, here, next]
  rfl

theorem loop_speed : effective (.finite 1) = .finite 1 := by decide

theorem loop_begins :
    replay.run .initial [.init, .start loopStart, loopTick, loopTick] =
      looping {} (.opening loopSettings) := by
  have started : replay.run .initial [.init, .start loopStart] = looping {} .created := by
    simp [replay, step, pcapReplayInit, pcapReplayStart, loopStart, loopFile_opens, looping,
      releaseSlot, State.initial, loopSettings, MSG_BUFSIZE, loop_speed]
  have first := @loop_step {} {} .created .allocated rfl
  have second := @loop_step {} {} .allocated (.opening loopSettings)
    (by simp [replayThreadStep, looping, loopSettings, loop_speed])
  have split : replay.run .initial [.init, .start loopStart, loopTick,
      loopTick] = replay.run (replay.run .initial [.init, .start loopStart])
        [loopTick, loopTick] := rfl
  rw [split, started, Machine.run_cons, first, Machine.run_cons, second, Machine.run_nil]

/-- The pass at its start, and with the record read. -/
def loopPass (firstTs : Option Nat) (rest : Bytes) : Pass :=
  { own := loopSettings, file := loopOpened, wallStart := 0, firstTs, rest }

/-- The counters after `n` passes. -/
def afterPasses (n : Nat) : Counts := { read := .ofNat n, sent := .ofNat n }

theorem loopRecord_read : readRecord false loopOpened.rest =
    some (({ tsSec := 0, tsUsec := 0, inclLen := 1, origLen := 1 }, [0x45]), []) := by
  decide +kernel

/-- Two steps of a pass, until its record is read. -/
theorem pass_reads (n : Nat) :
    replay.run (looping (afterPasses n) (.opening loopSettings))
        [loopTick, loopTick] =
      looping { read := .ofNat (n + 1), sent := .ofNat n }
        (.pacing (loopPass (some 0) []) [0x45] (.finite 0)) := by
  have opens : replayThreadStep (looping (afterPasses n) (.opening loopSettings)) loopEnv
      (.opening loopSettings) = (looping (afterPasses n) (.opening loopSettings),
        .reading (loopPass none loopOpened.rest)) := by
    simp only [replayThreadStep, loopEnv, loopFile_opens, loopPass]
  have reads : replayThreadStep
      (looping (afterPasses n) (.reading (loopPass none loopOpened.rest))) loopEnv
        (.reading (loopPass none loopOpened.rest)) =
      (looping { read := .ofNat (n + 1), sent := .ofNat n }
          (.reading (loopPass none loopOpened.rest)),
        .pacing (loopPass (some 0) []) [0x45] (.finite 0)) := by
    have first : RecordHeader.ts { tsSec := 0, tsUsec := 0, inclLen := 1, origLen := 1 } = 0 := rfl
    have now : (loopPass none loopOpened.rest).waitMs loopEnv.tick 0 0 = .finite 0 := by
      decide +kernel
    have order : (loopPass none loopOpened.rest).file.swapped = false := rfl
    have from_ : (loopPass none loopOpened.rest).rest = loopOpened.rest := rfl
    have none_ : (loopPass none loopOpened.rest).firstTs = none := rfl
    have running : (looping (afterPasses n) (.reading (loopPass none loopOpened.rest))).stop =
        false := rfl
    simp only [replayThreadStep, running, Bool.false_eq_true, if_false, order, from_, none_,
      loopRecord_read, Option.getD_none, first, now, ofNat_succ]
    rfl
  rw [Machine.run_cons, loop_step opens, Machine.run_cons, loop_step reads, Machine.run_nil]

/-- The other four. -/
theorem pass_sends (n : Nat) :
    replay.run (looping { read := .ofNat (n + 1), sent := .ofNat n }
        (.pacing (loopPass (some 0) []) [0x45] (.finite 0))) (List.replicate 4 loopTick) =
      looping (afterPasses (n + 1)) (.opening loopSettings) := by
  have goes : replayThreadStep (looping { read := .ofNat (n + 1), sent := .ofNat n }
      (.pacing (loopPass (some 0) []) [0x45] (.finite 0))) loopEnv
        (.pacing (loopPass (some 0) []) [0x45] (.finite 0)) =
      (looping { read := .ofNat (n + 1), sent := .ofNat n }
          (.pacing (loopPass (some 0) []) [0x45] (.finite 0)),
        .injecting (loopPass (some 0) []) [0x45]) := by
    have bare : ipOffsetFor (loopPass (some 0) []).file.linkType [0x45] = some 0 := by decide
    have running : (looping { read := .ofNat (n + 1), sent := .ofNat n }
      (.pacing (loopPass (some 0) []) [0x45] (.finite 0))).stop = false := rfl
    have awake : Fp.lt (.finite 0) (.finite 0) = false := by decide
    simp only [replayThreadStep, running, awake, false_and, if_false, Bool.false_eq_true, bare,
      List.drop_zero]
  have sends : replayThreadStep (looping { read := .ofNat (n + 1), sent := .ofNat n }
      (.injecting (loopPass (some 0) []) [0x45])) loopEnv
        (.injecting (loopPass (some 0) []) [0x45]) =
      (looping (afterPasses (n + 1)) (.injecting (loopPass (some 0) []) [0x45]),
        .reading (loopPass (some 0) [])) := by
    simp [replayThreadStep, looping, loopEnv, afterPasses]
  have ends : replayThreadStep (looping (afterPasses (n + 1)) (.reading (loopPass (some 0) [])))
      loopEnv (.reading (loopPass (some 0) [])) =
      (looping (afterPasses (n + 1)) (.reading (loopPass (some 0) [])), .passed loopSettings) := by
    rfl
  have again : replayThreadStep (looping (afterPasses (n + 1)) (.passed loopSettings)) loopEnv
      (.passed loopSettings) =
      (looping (afterPasses (n + 1)) (.passed loopSettings), .opening loopSettings) := by
    rfl
  show replay.run _ [loopTick, loopTick, loopTick,
    loopTick] = _
  rw [Machine.run_cons, loop_step goes, Machine.run_cons, loop_step sends, Machine.run_cons,
    loop_step ends, Machine.run_cons, loop_step again, Machine.run_nil]

/-- Any number of passes. -/
theorem passes_run (n : Nat) :
    replay.run (looping {} (.opening loopSettings)) (List.replicate (6 * n) loopTick) =
      looping (afterPasses n) (.opening loopSettings) := by
  induction n with
  | zero => rfl
  | succ n ih =>
      have split : List.replicate (6 * (n + 1)) loopTick =
          List.replicate (6 * n) loopTick ++
            ([loopTick, loopTick] ++ List.replicate 4 loopTick) := by
        show _ = List.replicate (6 * n) loopTick ++
          List.replicate 6 loopTick
        rw [List.replicate_append_replicate]
        congr 1
      rw [split, replay.run_append, ih, replay.run_append, pass_reads, pass_sends]

/-- A looping replay of one record: `n` passes, and the next record is read. -/
def loopRun (n : Nat) : List Event :=
  [.init, .start loopStart, loopTick, loopTick] ++
    (List.replicate (6 * n) loopTick ++ [loopTick, loopTick])

theorem loopRun_counts (n : Nat) :
    (replay.run .initial (loopRun n)).counts = { read := .ofNat (n + 1), sent := .ofNat n } := by
  have last : replay.run .initial (loopRun n) =
      looping { read := .ofNat (n + 1), sent := .ofNat n }
        (.pacing (loopPass (some 0) []) [0x45] (.finite 0)) := by
    unfold loopRun
    rw [replay.run_append, loop_begins, replay.run_append, passes_run, pass_reads]
  rw [last]
  rfl

/-! ## A replay that sleeps for ever -/

/-- Two records, a second apart. -/
def slowFile : Bytes :=
  fileBytes
    { magic := PCAP_MAGIC, versionMajor := 2, versionMinor := 4, thisZone := 0, sigFigs := 0
      snapLen := 65535, network := LINKTYPE_RAW }
    [({ tsSec := 0, tsUsec := 0, inclLen := 1, origLen := 1 }, [0x45]),
      ({ tsSec := 1, tsUsec := 0, inclLen := 1, origLen := 1 }, [0x45])]

def slowEnv : Env := { loopEnv with file := fun _ => some slowFile }

/-- At a speed of `2 ^ -60`. -/
def slowStart : StartCall :=
  { path := ['a'], speed := .finite (1 / 2 ^ 60), loop := false, probe := some slowFile
    created := true }

/-- The replay when its thread is created. -/
def slowReplay : State × Tally :=
  ((pcapReplayStart { State.initial with ready := true } slowStart).2, {})

/-- The pass when both records are read. -/
def slowPass : Pass where
  own := { path := ['a'], speed := .finite (1 / 2 ^ 60), loop := false }
  file := { swapped := false, linkType := LINKTYPE_RAW, rest := slowFile.drop GlobalHeader.size }
  wallStart := 0
  firstTs := some 0
  rest := []

/-- The thread waits `1000 * 2 ^ 60` ms for the second one. -/
def Asleep (x : State × Tally) : Prop :=
  x.1.threads[0]? = some (.pacing slowPass [0x45] (.finite (1000 * 2 ^ 60))) ∧ x.1.stop = false

/-- A round of that sleep is rounded away. -/
theorem asleep_step {x : State × Tally} (asleep : Asleep x) :
    Asleep (counted.step x (.thread 0 slowEnv)) := by
  obtain ⟨s, t⟩ := x
  obtain ⟨here, running⟩ := asleep
  have inside : 0 < s.threads.length := (List.getElem?_eq_some_iff.1 here).1
  have long : Fp.lt (.finite 0) (.finite (1000 * 2 ^ 60)) = true := by decide +kernel
  have stays : binary64.lift (· - chunk (.finite (1000 * 2 ^ 60))) (.finite (1000 * 2 ^ 60)) =
      .finite (1000 * 2 ^ 60) := by decide +kernel
  have running : s.stop = false := running
  have same : replayThreadStep s slowEnv (.pacing slowPass [0x45] (.finite (1000 * 2 ^ 60))) =
      (s, .pacing slowPass [0x45] (.finite (1000 * 2 ^ 60))) := by
    simp only [replayThreadStep, long, running, Bool.false_eq_true, not_false_eq_true, and_self,
      if_true, stays]
  have step := counted_thread here t slowEnv
  rw [same] at step
  rw [step]
  exact ⟨List.getElem?_set_self inside, running⟩

/-- Seven steps, and it falls asleep; until then it is not finished either. -/
theorem falls_asleep :
    (∀ n < 7, (counted.run slowReplay (threadSteps 0 (fun _ => slowEnv) n)).1.threads[0]? ≠
        some .finished) ∧
      Asleep (counted.run slowReplay (threadSteps 0 (fun _ => slowEnv) 7)) := by
  unfold Asleep
  decide +kernel

theorem never_finished (n : Nat) :
    (counted.run slowReplay (threadSteps 0 (fun _ => slowEnv) n)).1.threads[0]? ≠
      some .finished := by
  rcases Nat.lt_or_ge n 7 with early | late
  · exact falls_asleep.1 n early
  obtain ⟨m, rfl⟩ := Nat.exists_eq_add_of_le late
  have asleep : Asleep (counted.run slowReplay (threadSteps 0 (fun _ => slowEnv) (7 + m))) := by
    induction m with
    | zero => exact falls_asleep.2
    | succ m ih =>
        have next : threadSteps 0 (fun _ => slowEnv) (7 + (m + 1)) =
            threadSteps 0 (fun _ => slowEnv) (7 + m) ++ [.thread 0 slowEnv] := by
          rw [threadSteps, ← Nat.add_assoc, List.range_succ, List.map_append]
          rfl
        rw [next, counted.run_append]
        exact asleep_step (ih (Nat.le_add_right 7 m))
  rw [asleep.1]
  simp

/-- **The counters are out of step when `replayReadCount` has gone round**, and a replay may be
so slow that it does not end. -/
theorem replay_counts_wrap :
    ¬((replay.run .initial (loopRun 2147483647)).counts.sent.toInt +
        (replay.run .initial (loopRun 2147483647)).counts.failed.toInt ≤
      (replay.run .initial (loopRun 2147483647)).counts.read.toInt) ∧
    (pcapReplayStart { State.initial with ready := true } slowStart).1 = .ok () ∧
      ¬∃ n, (counted.run slowReplay (threadSteps 0 (fun _ => slowEnv) n)).1.threads[0]? =
        some .finished := by
  refine ⟨?_, by decide +kernel, fun ⟨n, finished⟩ => never_finished n finished⟩
  rw [loopRun_counts]
  decide

end Clumsy.Pcap.ReplayThread
