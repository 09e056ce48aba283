/-
# Capture.Threads -- divert_linux.cpp: the two threads and the mutex

`Capture.Linux` takes what happens inside the capture mutex as one event each and says that
the read thread handles no packet after the shutdown.  Here are the threads themselves, with
every look at `stopLooping` and every taking and giving back of the mutex a step of its own.
A callback and a step of the modules are one step each: what another thread writes meanwhile,
without the mutex, falls before it or behind it.

At no time are both threads inside (`Ok`), so whatever the interleaving, what the threads do
to the packets is a run of the session's events, closed at most once by the shutdown and
followed by control writes only (`threads_refine`).  Once a stop is requested, the threads
have only so many steps left, and one of them can always go on until both are gone
(`stop_ends`).
-/
import Clumsy.Capture.Session
import Clumsy.Theory.Refine

namespace Clumsy.Capture

open Clumsy.Theory
open Clumsy.Packet
open Clumsy.Modules
open Clumsy.Filter

set_option autoImplicit false

namespace Threads

/-! ## Where the threads are -/

/-- One message of a netlink buffer, with what its callback finds outside. -/
structure Message where
  env   : LinuxEnv
  alloc : Bool
  nfa   : Linux.NfqData

/-- `divertReadLoop`: before it looks at `stopLooping`, before `recv`, before the mutex with a
buffer of messages, inside before it looks again, in `nfq_handle_packet`, before it gives the
mutex back (and returns, if it saw the stop), done. -/
inductive Reader where
  | polling
  | receiving
  | waiting (msgs : List Message)
  | entered (msgs : List Message)
  | handling (msgs : List Message)
  | leaving (stopped : Bool)
  | gone

/-- `divertClockLoop`: before the bounded wait for the mutex, inside before the step, before it
gives the mutex back, before it looks at `stopLooping`, before the wait without a bound, inside
before the shutdown, before it gives the mutex back for good, done. -/
inductive Clock where
  | trying
  | stepping
  | unlocking
  | looking
  | closing
  | shutting
  | finishing
  | gone
  deriving DecidableEq

inductive Who where
  | reader
  | clock
  deriving DecidableEq

def Reader.inside : Reader → Bool
  | .entered _ | .handling _ | .leaving _ => true
  | _ => false

/-- The messages read and not handled yet. -/
def Reader.pending : Reader → List Message
  | .waiting msgs | .entered msgs | .handling msgs => msgs
  | _ => []

def Clock.inside : Clock → Bool
  | .stepping | .unlocking | .shutting | .finishing => true
  | _ => false

/-- The session between two sections of the mutex, and whether it was shut down. -/
structure Session where
  linux  : Linux
  closed : Bool

end Threads

structure Threads where
  session     : Threads.Session
  stopLooping : Bool
  /-- Who has the mutex. -/
  owner       : Option Threads.Who
  reader      : Threads.Reader
  clock       : Threads.Clock

namespace Threads

/-! ## The steps -/

inductive Recv where
  /-- `EINTR`, `EAGAIN` or `ENOBUFS`. -/
  | again
  | failed
  | got (msgs : List Message)

inductive Wait where
  | object
  | timeout
  | failed
  deriving DecidableEq

inductive Event where
  /-- `poll` has returned; whether there is something to read. -/
  | poll (ready : Bool)
  | recv (outcome : Recv)
  /-- The mutex is there, or the wait has failed. -/
  | readLock (acquired : Bool)
  | readCheck
  /-- `nfqCallback` for the next message. -/
  | callback
  /-- `nfq_handle_packet` returns. -/
  | handled
  | readUnlock
  | clockWait (outcome : Wait)
  | clockStep (env : LinuxEnv)
  | clockUnlock
  | clockCheck
  | closeLock (acquired : Bool)
  | closeStep (env : Nat → UInt32 × SendTo)
  | closeUnlock
  /-- Another thread writes a flag or a parameter. -/
  | write (w : Pipeline.Write)
  /-- `divertStop` raises `stopLooping`. -/
  | stop

def readStep (t : Threads) : Event → Threads
  | .poll ready =>
      { t with reader := if t.stopLooping then .gone else if ready then .receiving else .polling }
  | .recv outcome =>
      { t with reader := match outcome with
          | .again => .polling
          | .failed => .gone
          | .got msgs => .waiting msgs }
  | .readLock acquired =>
      match t.reader with
      | .waiting msgs =>
          if acquired then { t with owner := some .reader, reader := .entered msgs }
          else { t with reader := .gone }
      | _ => t
  | .readCheck =>
      match t.reader with
      | .entered msgs =>
          { t with reader := if t.stopLooping then .leaving true else .handling msgs }
      | _ => t
  | .callback =>
      match t.reader with
      | .handling (m :: msgs) =>
          { t with
            session := { t.session with linux := t.session.linux.nfqCallback m.env m.alloc m.nfa }
            reader := .handling msgs }
      | _ => t
  | .handled => { t with reader := .leaving false }
  | .readUnlock =>
      match t.reader with
      | .leaving stopped =>
          { t with owner := none, reader := if stopped then .gone else .polling }
      | _ => t
  | _ => t

def clockStep (t : Threads) : Event → Threads
  | .clockWait .object => { t with owner := some .clock, clock := .stepping }
  | .clockWait .timeout => { t with clock := .looking }
  | .clockWait .failed => { t with stopLooping := true, clock := .looking }
  | .clockStep env =>
      { t with
        session := { t.session with linux := t.session.linux.divertConsumeStep env }
        clock := .unlocking }
  | .clockUnlock => { t with owner := none, clock := .looking }
  | .clockCheck => { t with clock := if t.stopLooping then .closing else .trying }
  | .closeLock acquired =>
      if acquired then { t with owner := some .clock, clock := .shutting }
      else { t with clock := .gone }
  | .closeStep env =>
      { t with
        session := { linux := t.session.linux.shutdown env, closed := true }
        clock := .finishing }
  | .closeUnlock => { t with owner := none, clock := .gone }
  | _ => t

def step (t : Threads) (e : Event) : Threads :=
  match e with
  | .write w => { t with session := { t.session with linux := t.session.linux.step (.write w) } }
  | .stop => { t with stopLooping := true }
  | .clockWait _ | .clockStep _ | .clockUnlock | .clockCheck | .closeLock _ | .closeStep _
  | .closeUnlock => t.clockStep e
  | _ => t.readStep e

def numbers (msgs : List Message) : List UInt32 := msgs.filterMap fun m => m.nfa.packetId

/-- NFQUEUE numbers the packets of a queue from 1 on. -/
def Numbered (linux : Linux) (msgs : List Message) : Prop :=
  (numbers msgs).Nodup ∧ ∀ id ∈ numbers msgs, id ≠ 0 ∧ id ∉ linux.given

/-- Each thread goes its own way, and the mutex is there for who asks while nobody has it. -/
def admits (t : Threads) : Event → Prop
  | .poll _ => t.reader = .polling
  | .recv outcome => t.reader = .receiving ∧
      ∀ msgs, outcome = .got msgs → Numbered t.session.linux msgs
  | .readLock acquired => (∃ msgs, t.reader = .waiting msgs) ∧ (acquired = true → t.owner = none)
  | .readCheck => ∃ msgs, t.reader = .entered msgs
  | .callback => ∃ m msgs, t.reader = .handling (m :: msgs)
  | .handled => t.reader = .handling []
  | .readUnlock => ∃ stopped, t.reader = .leaving stopped
  | .clockWait outcome => t.clock = .trying ∧ (outcome = .object → t.owner = none)
  | .clockStep _ => t.clock = .stepping
  | .clockUnlock => t.clock = .unlocking
  | .clockCheck => t.clock = .looking
  | .closeLock acquired => t.clock = .closing ∧ (acquired = true → t.owner = none)
  | .closeStep _ => t.clock = .shutting
  | .closeUnlock => t.clock = .finishing
  | .write _ | .stop => True

def machine : Machine Threads Event where
  step := step
  admits := admits

/-- `divertStart` has created both threads. -/
def started (linux : Linux) : Threads where
  session := { linux, closed := false }
  stopLooping := false
  owner := none
  reader := .polling
  clock := .trying

/-! ## The sections -/

/-- What happens to the session, seen from outside of the mutex. -/
inductive Section where
  | event (e : Linux.Event)
  | shutdown (env : Nat → UInt32 × SendTo)

/-- The shutdown comes once, and nothing but control writes behind it. -/
def sections : Machine Session Section where
  step
    | s, .event e => { s with linux := s.linux.step e }
    | s, .shutdown env => { linux := s.linux.shutdown env, closed := true }
  admits
    | _, .event (.write _) => True
    | s, .event e => s.closed = false ∧ Linux.machine.admits s.linux e
    | s, .shutdown _ => s.closed = false

/-- The section an event of the threads is. -/
def performed (t : Threads) : Event → List Section
  | .callback =>
      match t.reader with
      | .handling (m :: _) => [.event (.packet m.env m.alloc m.nfa)]
      | _ => []
  | .clockStep env => [.event (.clock env)]
  | .closeStep env => [.shutdown env]
  | .write w => [.event (.write w)]
  | _ => []

/-- Who has the mutex is inside, and only the clock thread shuts down, after it saw the stop. -/
structure Ok (t : Threads) : Prop where
  reader  : t.reader.inside = true ↔ t.owner = some .reader
  clock   : t.clock.inside = true ↔ t.owner = some .clock
  /-- No packet is handled once the session was shut down. -/
  apart   : ∀ msgs, t.reader = .handling msgs → t.session.closed = false
  closed  : t.session.closed = true → t.clock = .finishing ∨ t.clock = .gone
  stopped : t.session.closed = true → t.stopLooping = true
  closing : t.clock = .closing ∨ t.clock = .shutting → t.stopLooping = true
  numbered : Numbered t.session.linux t.reader.pending

theorem numbered_nil (linux : Linux) : Numbered linux [] :=
  ⟨List.nodup_nil, fun _ member => absurd member List.not_mem_nil⟩

theorem started_ok (linux : Linux) : (started linux).Ok := by
  constructor <;> simp [started, Reader.inside, Clock.inside, Reader.pending, numbered_nil]

/-- **The two threads are never inside at once.** -/
theorem Ok.exclusive {t : Threads} (ok : t.Ok) :
    ¬(t.reader.inside = true ∧ t.clock.inside = true) := by
  rintro ⟨reader, clock⟩
  have both := (ok.reader.1 reader).symm.trans (ok.clock.1 clock)
  cases both

/-! ## One step -/

section Steps

variable {t : Threads}

/-- The reader goes on without the mutex changing hands. -/
theorem Ok.reads (ok : t.Ok) {reader : Reader} (same : reader.inside = t.reader.inside)
    (apart : ∀ msgs, reader = .handling msgs → t.session.closed = false)
    (numbered : Numbered t.session.linux reader.pending) :
    ({ t with reader } : Threads).Ok where
  reader := by
    show reader.inside = true ↔ _
    rw [same]
    exact ok.reader
  clock := ok.clock
  apart := apart
  closed := ok.closed
  stopped := ok.stopped
  closing := ok.closing
  numbered := numbered

/-- The clock thread goes on without the mutex changing hands. -/
theorem Ok.ticks (ok : t.Ok) {clock : Clock} (same : clock.inside = t.clock.inside)
    (closed : t.session.closed = true → clock = .finishing ∨ clock = .gone)
    (closing : clock = .closing ∨ clock = .shutting → t.stopLooping = true) :
    ({ t with clock } : Threads).Ok where
  reader := ok.reader
  clock := by
    show clock.inside = true ↔ _
    rw [same]
    exact ok.clock
  apart := ok.apart
  closed := closed
  stopped := ok.stopped
  closing := closing
  numbered := ok.numbered

/-- The session changes, and no packet comes in. -/
theorem Ok.works (ok : t.Ok) {linux : Linux} (given : linux.given = t.session.linux.given) :
    ({ t with session := { t.session with linux } } : Threads).Ok where
  reader := ok.reader
  clock := ok.clock
  apart := ok.apart
  closed := ok.closed
  stopped := ok.stopped
  closing := ok.closing
  numbered := by
    show Numbered linux t.reader.pending
    rw [Numbered, given]
    exact ok.numbered

/-- Nobody has the mutex while nobody is inside. -/
theorem Ok.free (ok : t.Ok) (free : t.owner = none) :
    t.reader.inside = false ∧ t.clock.inside = false := by
  refine ⟨?_, ?_⟩
  · rw [← Bool.not_eq_true, ok.reader, free]
    exact Option.some_ne_none _ ∘ Eq.symm
  · rw [← Bool.not_eq_true, ok.clock, free]
    exact Option.some_ne_none _ ∘ Eq.symm

/-- The reader takes the mutex or gives it back. -/
theorem Ok.readerOwns (ok : t.Ok) {owner : Option Who} {reader : Reader}
    (clock : t.clock.inside = false) (owns : owner = some .reader ∨ owner = none)
    (inside : reader.inside = true ↔ owner = some .reader)
    (apart : ∀ msgs, reader = .handling msgs → t.session.closed = false)
    (numbered : Numbered t.session.linux reader.pending) :
    ({ t with owner, reader } : Threads).Ok where
  reader := inside
  clock := by
    show t.clock.inside = true ↔ owner = some .clock
    rw [clock]
    rcases owns with rfl | rfl <;> simp
  apart := apart
  closed := ok.closed
  stopped := ok.stopped
  closing := ok.closing
  numbered := numbered

/-- The clock thread takes the mutex or gives it back. -/
theorem Ok.clockOwns (ok : t.Ok) {owner : Option Who} {clock : Clock}
    (reader : t.reader.inside = false) (owns : owner = some .clock ∨ owner = none)
    (inside : clock.inside = true ↔ owner = some .clock)
    (closed : t.session.closed = true → clock = .finishing ∨ clock = .gone)
    (closing : clock = .closing ∨ clock = .shutting → t.stopLooping = true) :
    ({ t with owner, clock } : Threads).Ok where
  reader := by
    show t.reader.inside = true ↔ owner = some .reader
    rw [reader]
    rcases owns with rfl | rfl <;> simp
  clock := inside
  apart := ok.apart
  closed := closed
  stopped := ok.stopped
  closing := closing
  numbered := ok.numbered

/-- Raising `stopLooping` promises less. -/
theorem Ok.stops (ok : t.Ok) : ({ t with stopLooping := true } : Threads).Ok where
  reader := ok.reader
  clock := ok.clock
  apart := ok.apart
  closed := ok.closed
  stopped _ := rfl
  closing _ := rfl
  numbered := ok.numbered

/-- Before the shutdown the session is open. -/
theorem Ok.open_ (ok : t.Ok) (early : t.clock ≠ .finishing ∧ t.clock ≠ .gone) :
    t.session.closed = false := by
  rw [← Bool.not_eq_true]
  intro closed
  rcases ok.closed closed with last | last
  · exact early.1 last
  · exact early.2 last

/-- One callback: the number it takes is gone from those to come. -/
theorem Ok.handles (ok : t.Ok) {m : Message} {msgs : List Message}
    (here : t.reader = .handling (m :: msgs)) :
    ({ t with
        session := { t.session with linux := t.session.linux.nfqCallback m.env m.alloc m.nfa }
        reader := .handling msgs } : Threads).Ok where
  reader := by
    have inside : t.reader.inside = true := by rw [here]; rfl
    exact iff_of_true rfl (ok.reader.1 inside)
  clock := ok.clock
  apart := fun _ _ => ok.apart _ here
  closed := ok.closed
  stopped := ok.stopped
  closing := ok.closing
  numbered := by
    have given := Linux.step_given t.session.linux (.packet m.env m.alloc m.nfa)
    have numbered := ok.numbered
    rw [here] at numbered
    obtain ⟨distinct, fresh⟩ := numbered
    have split : numbers (m :: msgs) = m.nfa.packetId.toList ++ numbers msgs := by
      cases known : m.nfa.packetId <;> simp [numbers, known]
    rw [Reader.pending, split] at distinct fresh
    refine ⟨distinct.of_append_right, fun id member => ?_⟩
    have old := fresh id (List.mem_append_right _ member)
    refine ⟨old.1, ?_⟩
    show id ∉ (t.session.linux.step (.packet m.env m.alloc m.nfa)).given
    rw [given, List.mem_append, not_or]
    refine ⟨old.2, fun again => ?_⟩
    exact List.disjoint_of_nodup_append distinct again member

theorem readStep_ok (ok : t.Ok) {e : Event} (admitted : machine.admits t e) :
    (t.readStep e).Ok := by
  cases e with
  | poll ready =>
      have here : t.reader = .polling := admitted
      simp only [readStep]
      apply ok.reads
      · rw [here]
        split_ifs <;> rfl
      · intro msgs handling
        split_ifs at handling
      · split_ifs <;> exact numbered_nil _
  | recv outcome =>
      obtain ⟨here, numbered⟩ : t.reader = .receiving ∧ _ := admitted
      simp only [readStep]
      apply ok.reads
      · rw [here]
        cases outcome <;> rfl
      · intro msgs handling
        cases outcome <;> cases handling
      · cases outcome with
        | got msgs => exact numbered msgs rfl
        | again | failed => exact numbered_nil _
  | readLock acquired =>
      obtain ⟨⟨msgs, here⟩, free⟩ := admitted
      have numbered := ok.numbered
      rw [here] at numbered
      simp only [readStep, here]
      cases acquired with
      | true =>
          have outside := ok.free (free rfl)
          refine ok.readerOwns outside.2 (.inl rfl) (by simp [Reader.inside]) ?_ numbered
          intro msgs handling
          cases handling
      | false =>
          refine ok.reads (by rw [here]; rfl) ?_ (numbered_nil _)
          intro msgs handling
          cases handling
  | readCheck =>
      obtain ⟨msgs, here⟩ := admitted
      have numbered := ok.numbered
      rw [here] at numbered
      simp only [readStep, here]
      refine ok.reads ?_ ?_ ?_
      · rw [here]
        split_ifs <;> rfl
      · intro msgs handling
        split_ifs at handling with stopping
        rw [← Bool.not_eq_true]
        exact fun closed => stopping (ok.stopped closed)
      · split_ifs
        · exact numbered_nil _
        · exact numbered
  | callback =>
      obtain ⟨m, msgs, here⟩ := admitted
      simp only [readStep, here]
      exact ok.handles here
  | handled =>
      have here : t.reader = .handling [] := admitted
      simp only [readStep]
      refine ok.reads (by rw [here]; rfl) ?_ (numbered_nil _)
      intro msgs handling
      cases handling
  | readUnlock =>
      obtain ⟨stopped, here⟩ := admitted
      simp only [readStep, here]
      have inside : t.reader.inside = true := by rw [here]; rfl
      have clock : t.clock.inside = false := by
        rw [← Bool.not_eq_true]
        exact fun both => ok.exclusive ⟨inside, both⟩
      refine ok.readerOwns clock (.inr rfl) ?_ ?_ ?_
      · cases stopped <;> simp [Reader.inside]
      · intro msgs handling
        cases stopped <;> cases handling
      · cases stopped <;> exact numbered_nil _
  | _ => exact ok

theorem clockStep_ok (ok : t.Ok) {e : Event} (admitted : machine.admits t e) :
    (t.clockStep e).Ok := by
  cases e with
  | clockWait outcome =>
      obtain ⟨here, free⟩ : t.clock = .trying ∧ (outcome = .object → t.owner = none) := admitted
      have opened := ok.open_ (by rw [here]; decide)
      have shut : ∀ {P : Prop}, t.session.closed = true → P := by
        intro P closed
        rw [opened] at closed
        cases closed
      cases outcome with
      | object =>
          refine ok.clockOwns (ok.free (free rfl)).1 (.inl rfl) (by simp [Clock.inside]) shut ?_
          rintro (closing | closing) <;> cases closing
      | timeout =>
          refine ok.ticks (by rw [here]; rfl) shut ?_
          rintro (closing | closing) <;> cases closing
      | failed =>
          refine ok.stops.ticks (by show _ = t.clock.inside; rw [here]; rfl) shut ?_
          exact fun _ => rfl
  | clockStep env =>
      have here : t.clock = .stepping := admitted
      have opened := ok.open_ (by rw [here]; decide)
      have works := ok.works (Linux.consumeStep_given env _)
      refine works.ticks (by show _ = t.clock.inside; rw [here]; rfl) ?_ ?_
      · intro closed
        exact absurd (opened.symm.trans closed) Bool.false_ne_true
      · rintro (closing | closing) <;> cases closing
  | clockUnlock =>
      have here : t.clock = .unlocking := admitted
      have opened := ok.open_ (by rw [here]; decide)
      have reader : t.reader.inside = false := by
        rw [← Bool.not_eq_true]
        exact fun both => ok.exclusive ⟨both, by rw [here]; rfl⟩
      refine ok.clockOwns reader (.inr rfl) (by simp [Clock.inside]) ?_ ?_
      · intro closed
        exact absurd (opened.symm.trans closed) Bool.false_ne_true
      · rintro (closing | closing) <;> cases closing
  | clockCheck =>
      have here : t.clock = .looking := admitted
      have opened := ok.open_ (by rw [here]; decide)
      simp only [clockStep]
      refine ok.ticks ?_ ?_ ?_
      · rw [here]
        split_ifs <;> rfl
      · intro closed
        exact absurd (opened.symm.trans closed) Bool.false_ne_true
      · split_ifs with stopping
        · exact fun _ => stopping
        · rintro (closing | closing) <;> cases closing
  | closeLock acquired =>
      obtain ⟨here, free⟩ : t.clock = .closing ∧ (acquired = true → t.owner = none) := admitted
      have opened := ok.open_ (by rw [here]; decide)
      have stopping := ok.closing (.inl here)
      simp only [clockStep]
      cases acquired with
      | true =>
          refine ok.clockOwns (ok.free (free rfl)).1 (.inl rfl) (by simp [Clock.inside]) ?_ ?_
          · intro closed
            exact absurd (opened.symm.trans closed) Bool.false_ne_true
          · exact fun _ => stopping
      | false => exact ok.ticks (by rw [here]; rfl) (fun _ => .inr rfl) fun _ => stopping
  | closeStep env =>
      have here : t.clock = .shutting := admitted
      have stopping := ok.closing (.inr here)
      have inside : t.clock.inside = true := by rw [here]; rfl
      have numbered := ok.numbered
      rw [Numbered, ← Linux.shutdown_given env] at numbered
      refine ⟨ok.reader, ?_, ?_, fun _ => .inl rfl, fun _ => stopping, fun _ => stopping, numbered⟩
      · exact iff_of_true rfl (ok.clock.1 inside)
      · intro msgs handling
        have reading : t.reader = .handling msgs := handling
        exact absurd ⟨by rw [reading]; rfl, inside⟩ ok.exclusive
  | closeUnlock =>
      have here : t.clock = .finishing := admitted
      have reader : t.reader.inside = false := by
        rw [← Bool.not_eq_true]
        exact fun both => ok.exclusive ⟨both, by rw [here]; rfl⟩
      refine ok.clockOwns reader (.inr rfl) (by simp [Clock.inside]) (fun _ => .inr rfl) ?_
      rintro (closing | closing) <;> cases closing
  | _ => exact ok

/-- **Every step keeps the threads apart.** -/
theorem step_ok (ok : t.Ok) {e : Event} (admitted : machine.admits t e) : (t.step e).Ok := by
  cases e with
  | write w => exact ok.works ((Linux.step_given _ (.write w)).trans (List.append_nil _))
  | stop => exact ok.stops
  | clockWait _ | clockStep _ | clockUnlock | clockCheck | closeLock _ | closeStep _
  | closeUnlock => exact clockStep_ok ok admitted
  | poll _ | recv _ | readLock _ | readCheck | callback | handled | readUnlock =>
      exact readStep_ok ok admitted

end Steps

/-! ## The threads are a session -/

theorem performed_admissible {t : Threads} {e : Event} (ok : t.Ok) (admitted : machine.admits t e) :
    sections.Admissible t.session (performed t e) := by
  cases e with
  | callback =>
      obtain ⟨m, msgs, here⟩ := admitted
      have numbered := ok.numbered
      rw [here] at numbered
      simp only [performed, here]
      refine ⟨⟨ok.apart _ here, fun id known => numbered.2 id ?_⟩, trivial⟩
      exact List.mem_filterMap.2 ⟨m, List.mem_cons_self, known⟩
  | clockStep env =>
      have here : t.clock = .stepping := admitted
      exact ⟨⟨ok.open_ (by rw [here]; decide), trivial⟩, trivial⟩
  | closeStep env =>
      have here : t.clock = .shutting := admitted
      exact ⟨ok.open_ (by rw [here]; decide), trivial⟩
  | write w => exact ⟨trivial, trivial⟩
  | _ => exact trivial

theorem performed_commutes {t : Threads} {e : Event} (admitted : machine.admits t e) :
    (t.step e).session = sections.run t.session (performed t e) := by
  cases e with
  | readLock acquired =>
      obtain ⟨⟨msgs, here⟩, -⟩ := admitted
      cases acquired <;> simp [step, readStep, performed, here]
  | readCheck =>
      obtain ⟨msgs, here⟩ := admitted
      simp [step, readStep, performed, here]
  | callback =>
      obtain ⟨m, msgs, here⟩ := admitted
      simp only [step, readStep, performed, here]
      rfl
  | readUnlock =>
      obtain ⟨stopped, here⟩ := admitted
      simp [step, readStep, performed, here]
  | clockWait outcome => cases outcome <;> rfl
  | closeLock acquired => cases acquired <;> rfl
  | _ => rfl

theorem refines : Refines machine sections Ok session performed where
  preserved _ _ ok admitted := step_ok ok admitted
  admissible _ _ := performed_admissible
  commutes _ _ _ := performed_commutes

/-- Once shut down, only writes are left. -/
theorem sections_closed (ss : List Section) {s : Session} (closed : s.closed = true)
    (admissible : sections.Admissible s ss) :
    ∃ writes : List Pipeline.Write, ss = writes.map fun w => .event (.write w) := by
  induction ss generalizing s with
  | nil => exact ⟨[], rfl⟩
  | cons a ss ih =>
      cases a with
      | event e =>
          have still : (sections.step s (.event e)).closed = true := closed
          obtain ⟨writes, rest⟩ := ih still admissible.2
          cases e with
          | write w => exact ⟨w :: writes, congrArg (List.cons _) rest⟩
          | packet _ _ _ | clock _ => exact absurd (closed.symm.trans admissible.1.1) (by decide)
      | shutdown env => exact absurd (closed.symm.trans admissible.1) (by decide)

/-- An admissible list of sections is a run of the session, shut down at most once. -/
theorem sections_shape (ss : List Section) {linux : Linux}
    (admissible : sections.Admissible { linux, closed := false } ss) :
    ∃ es, Linux.machine.Admissible linux es ∧
      (ss = es.map .event ∨ ∃ env, ∃ writes : List Pipeline.Write,
        ss = es.map .event ++ .shutdown env :: writes.map fun w => .event (.write w)) := by
  induction ss generalizing linux with
  | nil => exact ⟨[], trivial, .inl rfl⟩
  | cons a ss ih =>
      cases a with
      | event e =>
          obtain ⟨es, rest, shape⟩ := ih admissible.2
          have here : Linux.machine.admits linux e := by
            cases e with
            | write w => exact trivial
            | packet _ _ _ | clock _ => exact admissible.1.2
          refine ⟨e :: es, ⟨here, rest⟩, ?_⟩
          rcases shape with rfl | ⟨env, writes, rfl⟩
          · exact .inl rfl
          · exact .inr ⟨env, writes, rfl⟩
      | shutdown env =>
          obtain ⟨writes, rfl⟩ := sections_closed ss rfl admissible.2
          exact ⟨[], trivial, .inr ⟨env, writes, rfl⟩⟩

theorem run_event (es : List Linux.Event) (s : Session) :
    sections.run s (es.map .event) = { s with linux := Linux.machine.run s.linux es } := by
  induction es generalizing s with
  | nil => rfl
  | cons e es ih => exact ih _

/-- **The threads are a session.**  Whatever the interleaving of the two threads and of
control writes, never both threads are inside the mutex, and what happened to the packets is
what the session's events make of them, in the order of the sections: a run of packets, clock
ticks and writes, then at most one shutdown, then writes only. -/
theorem threads_refine (linux : Linux) (es : List Event)
    (admissible : machine.Admissible (started linux) es) :
    let t := machine.run (started linux) es
    let done := (machine.outputs performed (started linux) es).flatten
    ¬(t.reader.inside = true ∧ t.clock.inside = true) ∧
      ∃ before, Linux.machine.Admissible linux before ∧
        ((done = before.map .event ∧
            t.session = { linux := Linux.machine.run linux before, closed := false }) ∨
          ∃ env, ∃ writes : List Pipeline.Write,
            done = before.map .event ++ .shutdown env :: writes.map (fun w => .event (.write w)) ∧
            t.session =
              { linux := Linux.machine.run ((Linux.machine.run linux before).shutdown env)
                  (writes.map .write)
                closed := true }) := by
  intro t done
  have ok : t.Ok :=
    machine.run_invariant (fun _ _ ok admitted => step_ok ok admitted) es _ (started_ok linux)
      admissible
  obtain ⟨allowed, final⟩ := refines.run es (started_ok linux) admissible
  obtain ⟨before, run, shape⟩ := sections_shape _ allowed
  refine ⟨ok.exclusive, before, run, ?_⟩
  rcases shape with events | ⟨env, writes, split⟩
  · refine .inl ⟨events, ?_⟩
    rw [final, events]
    exact run_event before _
  · refine .inr ⟨env, writes, split, ?_⟩
    have asEvents : (writes.map fun w => Section.event (.write w)) =
        (writes.map Linux.Event.write).map .event := by
      rw [List.map_map]
      rfl
    rw [final, split, Machine.run_append, Machine.run_cons, asEvents, run_event, run_event]
    rfl

/-- One packet is read and handled while the clock thread waits in vain for the mutex; both
threads see the stop, and the clock thread shuts the session down. -/
def onePacket : List Event :=
  [.poll true, .recv (.got [⟨Linux.stillEnv, true, Linux.firstPacket⟩]), .readLock true,
    .readCheck, .clockWait .timeout, .callback, .clockCheck, .handled, .readUnlock,
    .clockWait .object, .clockStep Linux.stillEnv, .clockUnlock]

def closing : List Event :=
  [.clockCheck, .closeLock true, .closeStep Linux.stillEnv.send, .poll false, .closeUnlock]

theorem onePacket_admissible :
    machine.Admissible (started Linux.lagSession) (onePacket ++ .stop :: closing) := by
  have fresh : Numbered Linux.lagSession [⟨Linux.stillEnv, true, Linux.firstPacket⟩] := by
    refine ⟨List.nodup_singleton _, fun id member => ?_⟩
    obtain rfl : id = 1 := List.mem_singleton.1 member
    exact ⟨by decide, List.not_mem_nil⟩
  refine ⟨rfl, ⟨rfl, ?_⟩, ⟨⟨_, rfl⟩, fun _ => rfl⟩, ⟨_, rfl⟩, ⟨rfl, ?_⟩, ⟨_, _, rfl⟩, rfl, rfl,
    ⟨_, rfl⟩, ⟨rfl, fun _ => rfl⟩, rfl, rfl, trivial, rfl, ⟨rfl, fun _ => rfl⟩, rfl, rfl, rfl,
    trivial⟩
  · rintro msgs ⟨⟩
    exact fresh
  · rintro ⟨⟩

theorem threads_refine_onePacket :
    let es := onePacket ++ .stop :: closing
    let t := machine.run (started Linux.lagSession) es
    ¬(t.reader.inside = true ∧ t.clock.inside = true) ∧
      ∃ before, Linux.machine.Admissible Linux.lagSession before ∧
        ∃ env, ∃ writes : List Pipeline.Write,
          (machine.outputs performed (started Linux.lagSession) es).flatten =
            before.map .event ++ .shutdown env :: writes.map (fun w => .event (.write w)) ∧
          t.session =
            { linux := Linux.machine.run ((Linux.machine.run Linux.lagSession before).shutdown env)
                (writes.map .write)
              closed := true } := by
  intro es t
  obtain ⟨exclusive, before, run, shape⟩ :=
    threads_refine Linux.lagSession es onePacket_admissible
  refine ⟨exclusive, before, run, ?_⟩
  rcases shape with ⟨-, still⟩ | shut
  · have closed : t.session.closed = true := rfl
    have open_ : t.session.closed = false := congrArg Session.closed still
    cases closed.symm.trans open_
  · exact shut

/-! ## The stop -/

/-- How many steps the reader has left once a stop is requested. -/
def Reader.rank : Reader → Nat
  | .gone => 0
  | .polling => 1
  | .leaving _ => 2
  | .handling msgs => msgs.length + 3
  | .entered _ => 3
  | .waiting _ => 4
  | .receiving => 5

def Clock.rank : Clock → Nat
  | .gone => 0
  | .finishing => 1
  | .shutting => 2
  | .closing => 3
  | .looking => 4
  | .unlocking => 5
  | .stepping => 6
  | .trying => 7

def rank (t : Threads) : Nat := t.reader.rank + t.clock.rank

/-- A step of one of the two threads. -/
def Event.own : Event → Bool
  | .write _ | .stop => false
  | _ => true

/-- A stop is requested. -/
def Stopping (t : Threads) : Prop := t.Ok ∧ t.stopLooping = true

def Gone (t : Threads) : Prop := t.reader = .gone ∧ t.clock = .gone

theorem step_stopping {t : Threads} {e : Event} (stopping : t.Stopping)
    (admitted : machine.admits t e) : (t.step e).Stopping := by
  obtain ⟨ok, requested⟩ := stopping
  refine ⟨step_ok ok admitted, ?_⟩
  cases e with
  | clockWait outcome => cases outcome <;> first | exact requested | rfl
  | closeLock acquired => cases acquired <;> exact requested
  | readLock acquired =>
      obtain ⟨⟨msgs, here⟩, -⟩ := admitted
      cases acquired <;> simpa [step, readStep, here] using requested
  | readCheck =>
      obtain ⟨msgs, here⟩ := admitted
      simpa [step, readStep, here] using requested
  | callback =>
      obtain ⟨m, msgs, here⟩ := admitted
      simpa [step, readStep, here] using requested
  | readUnlock =>
      obtain ⟨stopped, here⟩ := admitted
      simpa [step, readStep, here] using requested
  | stop => rfl
  | _ => exact requested

/-- Once a stop is requested, every step of a thread brings the end nearer. -/
theorem rank_falls {t : Threads} {e : Event} (requested : t.stopLooping = true)
    (admitted : machine.admits t e) (own : e.own = true) : (t.step e).rank < t.rank := by
  cases e with
  | poll ready =>
      have here : t.reader = .polling := admitted
      simp [step, readStep, rank, here, requested, Reader.rank]
  | recv outcome =>
      have here : t.reader = .receiving := admitted.1
      cases outcome <;> simp [step, readStep, rank, here, Reader.rank]
  | readLock acquired =>
      obtain ⟨⟨msgs, here⟩, -⟩ := admitted
      cases acquired <;> simp [step, readStep, rank, here, Reader.rank]
  | readCheck =>
      obtain ⟨msgs, here⟩ := admitted
      simp [step, readStep, rank, here, requested, Reader.rank]
  | callback =>
      obtain ⟨m, msgs, here⟩ := admitted
      simp [step, readStep, rank, here, Reader.rank]
  | handled =>
      have here : t.reader = .handling [] := admitted
      simp [step, readStep, rank, here, Reader.rank]
  | readUnlock =>
      obtain ⟨stopped, here⟩ := admitted
      cases stopped <;> simp [step, readStep, rank, here, Reader.rank]
  | clockWait outcome =>
      have here : t.clock = .trying := admitted.1
      cases outcome <;> simp [step, clockStep, rank, here, Clock.rank]
  | clockStep env =>
      have here : t.clock = .stepping := admitted
      simp [step, clockStep, rank, here, Clock.rank]
  | clockUnlock =>
      have here : t.clock = .unlocking := admitted
      simp [step, clockStep, rank, here, Clock.rank]
  | clockCheck =>
      have here : t.clock = .looking := admitted
      simp [step, clockStep, rank, here, requested, Clock.rank]
  | closeLock acquired =>
      have here : t.clock = .closing := admitted.1
      cases acquired <;> simp [step, clockStep, rank, here, Clock.rank]
  | closeStep env =>
      have here : t.clock = .shutting := admitted
      simp [step, clockStep, rank, here, Clock.rank]
  | closeUnlock =>
      have here : t.clock = .finishing := admitted
      simp [step, clockStep, rank, here, Clock.rank]
  | write w => cases own
  | stop => cases own

theorem rank_stays {t : Threads} {e : Event} (others : e.own = false) :
    (t.step e).rank ≤ t.rank := by
  cases e with
  | write w => exact Nat.le_refl _
  | stop => exact Nat.le_refl _
  | _ => cases others

/-- What the clock thread can do next, while it has something to do and does not wait for the
reader to give the mutex back. -/
theorem clock_moves {t : Threads} (alive : t.clock ≠ .gone)
    (free : t.clock = .closing → t.owner = none) :
    ∃ e, e.own = true ∧ machine.admits t e := by
  cases here : t.clock with
  | trying => exact ⟨.clockWait .timeout, rfl, here, fun object => by cases object⟩
  | stepping => exact ⟨.clockStep Linux.stillEnv, rfl, here⟩
  | unlocking => exact ⟨.clockUnlock, rfl, here⟩
  | looking => exact ⟨.clockCheck, rfl, here⟩
  | closing => exact ⟨.closeLock true, rfl, here, fun _ => free here⟩
  | shutting => exact ⟨.closeStep Linux.stillEnv.send, rfl, here⟩
  | finishing => exact ⟨.closeUnlock, rfl, here⟩
  | gone => exact absurd here alive

/-- The same for the reader. -/
theorem reader_moves {t : Threads} (alive : t.reader ≠ .gone)
    (free : ∀ msgs, t.reader = .waiting msgs → t.owner = none) :
    ∃ e, e.own = true ∧ machine.admits t e := by
  cases here : t.reader with
  | polling => exact ⟨.poll false, rfl, here⟩
  | receiving => exact ⟨.recv .again, rfl, here, fun msgs got => by cases got⟩
  | waiting msgs => exact ⟨.readLock true, rfl, ⟨msgs, here⟩, fun _ => free msgs here⟩
  | entered msgs => exact ⟨.readCheck, rfl, msgs, here⟩
  | handling msgs =>
      cases msgs with
      | nil => exact ⟨.handled, rfl, here⟩
      | cons m msgs => exact ⟨.callback, rfl, m, msgs, here⟩
  | leaving stopped => exact ⟨.readUnlock, rfl, stopped, here⟩
  | gone => exact absurd here alive

/-- **No deadlock.**  While one of the threads is there, one of them can go on: who waits for
the mutex waits for a thread inside, which never waits. -/
theorem can_move {t : Threads} (ok : t.Ok) (alive : ¬t.Gone) :
    ∃ e, e.own = true ∧ machine.admits t e := by
  cases owner : t.owner with
  | none =>
      by_cases reader : t.reader = .gone
      · exact clock_moves (fun clock => alive ⟨reader, clock⟩) fun _ => owner
      · exact reader_moves reader fun _ _ => owner
  | some who =>
      cases who with
      | reader =>
          have inside := ok.reader.2 owner
          refine reader_moves ?_ ?_
          · intro gone
            rw [gone] at inside
            cases inside
          · intro msgs waiting
            rw [waiting] at inside
            cases inside
      | clock =>
          have inside := ok.clock.2 owner
          refine clock_moves ?_ ?_
          · intro gone
            rw [gone] at inside
            cases inside
          · intro closing
            rw [closing] at inside
            cases inside

/-- **A stop ends.**  Once `stopLooping` is raised in a run, whatever happens then, the two
threads take at most `rank` steps more, and while one of them is there one can take a step. -/
theorem stop_ends (linux : Linux) (before after : List Event)
    (admissible : machine.Admissible (started linux) (before ++ .stop :: after)) :
    let t := machine.run (started linux) before
    let t' := machine.run (started linux) (before ++ .stop :: after)
    after.countP Event.own ≤ t.rank ∧
      (t'.Gone ∨ ∃ e, e.own = true ∧ machine.admits t' e) := by
  intro t t'
  obtain ⟨first, -, second⟩ := (machine.admissible_append _ _ _).1 admissible
  have once : ∀ t e, t.Ok → machine.admits t e → (machine.step t e).Ok :=
    fun _ _ ok admitted => step_ok ok admitted
  have ok : t.Ok := machine.run_invariant once before _ (started_ok linux) first
  have stopping : (machine.step t .stop).Stopping := ⟨ok.stops, rfl⟩
  have last : t'.Ok := machine.run_invariant once _ _ (started_ok linux) admissible
  refine ⟨?_, or_iff_not_imp_left.2 fun alive => can_move last alive⟩
  have bound := machine.countP_le_rank rank Event.own
    (fun _ _ stopping admitted => step_stopping stopping admitted)
    (fun _ _ stopping admitted own => rank_falls stopping.2 admitted own)
    (fun _ _ _ _ others => rank_stays others) after stopping second
  exact Nat.le_trans (Nat.le_add_right _ _) bound

theorem stop_ends_onePacket : closing.countP Event.own ≤ 5 :=
  (stop_ends Linux.lagSession onePacket closing onePacket_admissible).1

end Threads

end Clumsy.Capture
