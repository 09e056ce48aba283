/-
# Http.Connections -- httpserver.cpp: the accept thread, the connection threads and the stop

Every look at `serverStop` or `activeConnections`, every change of the counter and every
`accept` and `closesocket` is a step of its own, and the threads take them in any order.  A
socket is a number that the system gives out again once it is closed, so a `closesocket` too
many would close somebody else's connection.

Whatever the interleaving, the counter is the number of connections being served, no more than
32, and an open socket belongs to exactly one thread, which closes it once (`connections_safe`).
After the stop at most one more client is accepted, and the threads are at an end after so many
steps (`stop_drains`).
-/
import Clumsy.Theory.Ledger
import Clumsy.Theory.Refine

namespace Clumsy.Http

open Clumsy.Theory

set_option autoImplicit false

namespace Connections

abbrev Socket := Nat

/-- `MAX_CONNECTIONS`. -/
def maxConnections : Int := 32

/-- How often `httpServerStop` looks whether the connections are gone. -/
def waitSteps : Nat := (15000 + 1000) / 50

/-! ## Where the threads are -/

/-- `acceptLoop`: before it looks at `serverStop`, in `accept`, behind an `accept` that failed,
then with a client: before it looks at the counter, before the busy answer and `closesocket`,
before the increment, before `CreateThread`, before the decrement and before `closesocket` if
that failed; done. -/
inductive Acceptor where
  | looking
  | accepting
  | failed
  | counting (client : Socket)
  | refusing (client : Socket)
  | incrementing (client : Socket)
  | creating (client : Socket)
  | undoing (client : Socket)
  | dropping (client : Socket)
  | gone
  deriving DecidableEq

/-- `connectionThread`: before the answer is out, before `closesocket`, before the decrement. -/
inductive Worker where
  | serving (s : Socket)
  | closing (s : Socket)
  | leaving
  deriving DecidableEq

/-- `httpServerStop`: not called, before it waits for the accept thread, in the loop that waits
for the connections, before the last look at the counter, done and what it saw there. -/
inductive Stopper where
  | idle
  | joining
  | waiting (looked : Nat)
  | checking
  | done (quiet : Bool)
  deriving DecidableEq

/-- The sockets a thread has to close. -/
def Acceptor.sockets : Acceptor → List Socket
  | .counting s | .refusing s | .incrementing s | .creating s | .undoing s | .dropping s => [s]
  | _ => []

/-- What it has added to the counter for a connection without a thread. -/
def Acceptor.counted : Acceptor → Int
  | .creating _ | .undoing _ => 1
  | _ => 0

def Worker.sockets : Worker → List Socket
  | .serving s | .closing s => [s]
  | .leaving => []

end Connections

open Connections in
structure Connections where
  serverStop        : Bool
  activeConnections : Int
  acceptor          : Acceptor
  /-- The connection threads that are not at an end. -/
  workers           : List Worker
  stopper           : Stopper
  /-- The wait for the accept thread has seen its end. -/
  joined            : Bool
  /-- The sockets of connections that are open. -/
  opened            : List Socket
  /-- History: what `accept` gave and what `closesocket` was called with. -/
  accepted          : List Socket
  closed            : List Socket

namespace Connections

/-! ## The steps -/

inductive Event where
  | look
  | accept (client : Option Socket)
  | recheck
  | count
  | refuse
  | increment
  | create (ok : Bool)
  | undo
  | drop
  /-- The answer is out, or was given up. -/
  | serve (s : Socket)
  | close (s : Socket)
  | leave
  | stop
  | join (ended : Bool)
  | glance
  | check

def closesocket (s : Socket) (c : Connections) : Connections :=
  { c with opened := c.opened.erase s, closed := c.closed ++ [s] }

def acceptStep (c : Connections) : Event → Connections
  | .look => { c with acceptor := if c.serverStop then .gone else .accepting }
  | .accept none => { c with acceptor := .failed }
  | .accept (some s) =>
      { c with
        acceptor := .counting s
        opened := s :: c.opened
        accepted := c.accepted ++ [s] }
  | .recheck => { c with acceptor := if c.serverStop then .gone else .looking }
  | .count =>
      match c.acceptor with
      | .counting s =>
          { c with
            acceptor :=
              if c.activeConnections ≥ maxConnections then .refusing s else .incrementing s }
      | _ => c
  | .refuse =>
      match c.acceptor with
      | .refusing s => { closesocket s c with acceptor := .looking }
      | _ => c
  | .increment =>
      match c.acceptor with
      | .incrementing s =>
          { c with
            acceptor := .creating s
            activeConnections := c.activeConnections + 1 }
      | _ => c
  | .create ok =>
      match c.acceptor with
      | .creating s =>
          if ok then { c with acceptor := .looking, workers := .serving s :: c.workers }
          else { c with acceptor := .undoing s }
      | _ => c
  | .undo =>
      match c.acceptor with
      | .undoing s =>
          { c with
            acceptor := .dropping s
            activeConnections := c.activeConnections - 1 }
      | _ => c
  | .drop =>
      match c.acceptor with
      | .dropping s => { closesocket s c with acceptor := .looking }
      | _ => c
  | _ => c

attribute [local simp] acceptStep

def workStep (c : Connections) : Event → Connections
  | .serve s =>
      { c with workers := .closing s :: c.workers.erase (.serving s) }
  | .close s =>
      { closesocket s c with workers := .leaving :: c.workers.erase (.closing s) }
  | .leave =>
      { c with
        workers := c.workers.erase .leaving
        activeConnections := c.activeConnections - 1 }
  | _ => c

attribute [local simp] workStep

def stopStep (c : Connections) : Event → Connections
  | .stop => { c with serverStop := true, stopper := .joining }
  | .join ended => { c with stopper := .waiting 0, joined := ended }
  | .glance =>
      match c.stopper with
      | .waiting looked =>
          { c with
            stopper :=
              if looked < waitSteps ∧ c.activeConnections > 0 then .waiting (looked + 1)
              else .checking }
      | _ => c
  | .check => { c with stopper := .done (!decide (c.activeConnections > 0)) }
  | _ => c

attribute [local simp] stopStep

def step (c : Connections) (e : Event) : Connections :=
  match e with
  | .serve _ | .close _ | .leave => workStep c e
  | .stop | .join _ | .glance | .check => stopStep c e
  | _ => acceptStep c e

attribute [local simp] step

/-- Each thread goes its own way; `accept` gives a number that is not in use. -/
def admits (c : Connections) : Event → Prop
  | .look => c.acceptor = .looking
  | .accept client => c.acceptor = .accepting ∧ ∀ s, client = some s → s ∉ c.opened
  | .recheck => c.acceptor = .failed
  | .count => ∃ s, c.acceptor = .counting s
  | .refuse => ∃ s, c.acceptor = .refusing s
  | .increment => ∃ s, c.acceptor = .incrementing s
  | .create _ => ∃ s, c.acceptor = .creating s
  | .undo => ∃ s, c.acceptor = .undoing s
  | .drop => ∃ s, c.acceptor = .dropping s
  | .serve s => .serving s ∈ c.workers
  | .close s => .closing s ∈ c.workers
  | .leave => .leaving ∈ c.workers
  | .stop => c.stopper = .idle
  | .join ended => c.stopper = .joining ∧ (ended = true → c.acceptor = .gone)
  | .glance => ∃ looked, c.stopper = .waiting looked
  | .check => c.stopper = .checking

def machine : Machine Connections Event where
  step := step
  admits := admits

/-- What `httpServerStart` leaves once the accept thread is there. -/
def started : Connections where
  serverStop := false
  activeConnections := 0
  acceptor := .looking
  workers := []
  stopper := .idle
  joined := false
  opened := []
  accepted := []
  closed := []

/-! ## What holds between two steps -/

/-- The open sockets, by the thread that has to close them. -/
def owned (c : Connections) : List Socket :=
  c.acceptor.sockets ++ c.workers.flatMap Worker.sockets

structure Ok (c : Connections) : Prop where
  counter  : c.activeConnections = c.workers.length + c.acceptor.counted
  bound    : c.activeConnections ≤ maxConnections
  /-- Nobody else adds to the counter after the look at it. -/
  room     : ∀ s, c.acceptor = .incrementing s → c.activeConnections < maxConnections
  owners   : c.opened.Perm (owned c)
  distinct : c.opened.Nodup
  books    : Balanced c.accepted c.closed c.opened
  stopped  : c.stopper ≠ .idle → c.serverStop = true
  joined   : c.joined = true → c.acceptor = .gone
  quiet    : c.stopper = .done true → c.joined = true → c.workers = []

theorem started_ok : Ok started where
  counter := rfl
  bound := by decide
  room _ incrementing := by cases incrementing
  owners := .nil
  distinct := List.nodup_nil
  books := Balanced.empty
  stopped running := absurd rfl running
  joined ended := by cases ended
  quiet finished := by cases finished

section Steps

variable {c : Connections}

/-- The accept thread goes on with the same socket and the same share of the counter. -/
theorem Ok.accepts (ok : Ok c) {acceptor : Acceptor}
    (sockets : acceptor.sockets = c.acceptor.sockets)
    (counted : acceptor.counted = c.acceptor.counted) (alive : c.acceptor ≠ .gone)
    (room : ∀ s, acceptor = .incrementing s → c.activeConnections < maxConnections) :
    Ok { c with acceptor } where
  counter := by
    show c.activeConnections = c.workers.length + acceptor.counted
    rw [counted]
    exact ok.counter
  bound := ok.bound
  room := room
  owners := by
    show c.opened.Perm (acceptor.sockets ++ _)
    rw [sockets]
    exact ok.owners
  distinct := ok.distinct
  books := ok.books
  stopped := ok.stopped
  joined ended := absurd (ok.joined ended) alive
  quiet := ok.quiet

/-- A client comes in. -/
theorem Ok.opens (ok : Ok c) {s : Socket} (here : c.acceptor = .accepting)
    (fresh : s ∉ c.opened) :
    Ok { c with
      acceptor := .counting s
      opened := s :: c.opened
      accepted := c.accepted ++ [s] } where
  counter := by
    have counter := ok.counter
    rw [here] at counter
    exact counter
  bound := ok.bound
  room _ incrementing := by cases incrementing
  owners := by
    have owners := ok.owners
    rw [owned, here] at owners
    exact owners.cons s
  distinct := List.nodup_cons.2 ⟨fresh, ok.distinct⟩
  books := by
    have books := ok.books
    unfold Theory.Balanced at books ⊢
    refine (books.append_right [s]).trans ?_
    rw [List.append_assoc]
    exact (List.perm_append_singleton s c.opened).append_left _
  stopped := ok.stopped
  joined ended := by
    have gone := ok.joined ended
    rw [here] at gone
    cases gone
  quiet := ok.quiet

/-- The accept thread closes its client and starts anew. -/
theorem Ok.closes (ok : Ok c) {s : Socket} (sockets : c.acceptor.sockets = [s])
    (counted : c.acceptor.counted = 0) (alive : c.acceptor ≠ .gone) :
    Ok { closesocket s c with acceptor := .looking } where
  counter := by
    have counter := ok.counter
    rw [counted] at counter
    exact counter
  bound := ok.bound
  room _ incrementing := by cases incrementing
  owners := by
    have owners := ok.owners.erase s
    rw [owned, sockets, List.singleton_append, List.erase_cons_head] at owners
    exact owners
  distinct := ok.distinct.erase s
  books := by
    have member : s ∈ c.opened := ok.owners.mem_iff.2 (by simp [owned, sockets])
    exact ok.books.settle (List.perm_cons_erase member)
  stopped := ok.stopped
  joined ended := absurd (ok.joined ended) alive
  quiet := ok.quiet

/-- The counter and what is counted change together. -/
theorem Ok.counts (ok : Ok c) {acceptor : Acceptor} {change : Int}
    (sockets : acceptor.sockets = c.acceptor.sockets)
    (counted : acceptor.counted = c.acceptor.counted + change)
    (alive : c.acceptor ≠ .gone) (bound : c.activeConnections + change ≤ maxConnections)
    (resting : ∀ s, acceptor ≠ .incrementing s) :
    Ok { c with acceptor, activeConnections := c.activeConnections + change } where
  counter := by
    show c.activeConnections + change = c.workers.length + acceptor.counted
    rw [counted, ok.counter, add_assoc]
  bound := bound
  room s incrementing := absurd incrementing (resting s)
  owners := by
    show c.opened.Perm (acceptor.sockets ++ _)
    rw [sockets]
    exact ok.owners
  distinct := ok.distinct
  books := ok.books
  stopped := ok.stopped
  joined ended := absurd (ok.joined ended) alive
  quiet := ok.quiet

/-- The accept thread ends. -/
theorem Ok.ends (ok : Ok c) (sockets : c.acceptor.sockets = []) (counted : c.acceptor.counted = 0) :
    Ok { c with acceptor := .gone } where
  counter := by
    have counter := ok.counter
    rw [counted] at counter
    exact counter
  bound := ok.bound
  room _ incrementing := by cases incrementing
  owners := by
    have owners := ok.owners
    rw [owned, sockets] at owners
    exact owners
  distinct := ok.distinct
  books := ok.books
  stopped := ok.stopped
  joined _ := rfl
  quiet := ok.quiet

/-- `CreateThread` has made a thread of the client. -/
theorem Ok.handsOver (ok : Ok c) {s : Socket} (here : c.acceptor = .creating s) :
    Ok { c with acceptor := .looking, workers := .serving s :: c.workers } where
  counter := by
    have counter := ok.counter
    rw [here] at counter
    show c.activeConnections = ((c.workers.length + 1 : Nat) : Int) + 0
    simp only [Acceptor.counted] at counter
    omega
  bound := ok.bound
  room _ incrementing := by cases incrementing
  owners := by
    have owners := ok.owners
    rw [owned, here] at owners
    exact owners
  distinct := ok.distinct
  books := ok.books
  stopped := ok.stopped
  joined ended := by
    have gone := ok.joined ended
    rw [here] at gone
    cases gone
  quiet _ ended := by
    have gone := ok.joined ended
    rw [here] at gone
    cases gone

theorem acceptStep_ok (ok : Ok c) {e : Event} (admitted : machine.admits c e) :
    Ok (acceptStep c e) := by
  cases e with
  | look =>
      have here : c.acceptor = .looking := admitted
      simp only [acceptStep]
      split_ifs with stopping
      · exact ok.ends (by rw [here]; rfl) (by rw [here]; rfl)
      · refine ok.accepts (by rw [here]; rfl) (by rw [here]; rfl) (by rw [here]; decide) ?_
        exact fun _ incrementing => by cases incrementing
  | accept client =>
      obtain ⟨here, fresh⟩ := admitted
      cases client with
      | none =>
          refine ok.accepts (by rw [here]; rfl) (by rw [here]; rfl) (by rw [here]; decide) ?_
          exact fun _ incrementing => by cases incrementing
      | some s => exact ok.opens here (fresh s rfl)
  | recheck =>
      have here : c.acceptor = .failed := admitted
      simp only [acceptStep]
      split_ifs with stopping
      · exact ok.ends (by rw [here]; rfl) (by rw [here]; rfl)
      · refine ok.accepts (by rw [here]; rfl) (by rw [here]; rfl) (by rw [here]; decide) ?_
        exact fun _ incrementing => by cases incrementing
  | count =>
      obtain ⟨s, here⟩ := admitted
      simp only [acceptStep, here]
      refine ok.accepts ?_ ?_ (by simp [here]) ?_
      · rw [here]
        split_ifs <;> rfl
      · rw [here]
        split_ifs <;> rfl
      · intro s' incrementing
        split_ifs at incrementing with full
        exact not_le.1 full
  | refuse =>
      obtain ⟨s, here⟩ := admitted
      simp only [acceptStep, here]
      exact ok.closes (by rw [here]; rfl) (by rw [here]; rfl) (by simp [here])
  | increment =>
      obtain ⟨s, here⟩ := admitted
      have room := ok.room s here
      simp only [acceptStep, here]
      refine ok.counts (by rw [here]; rfl) (by rw [here]; rfl) (by simp [here]) ?_ ?_
      · omega
      · exact fun _ incrementing => by cases incrementing
  | create made =>
      obtain ⟨s, here⟩ := admitted
      simp only [acceptStep, here]
      cases made with
      | true => exact ok.handsOver here
      | false =>
          refine ok.accepts (by rw [here]; rfl) (by rw [here]; rfl) (by simp [here]) ?_
          exact fun _ incrementing => by cases incrementing
  | undo =>
      obtain ⟨s, here⟩ := admitted
      have bound := ok.bound
      simp only [acceptStep, here]
      refine ok.counts (by rw [here]; rfl) (by rw [here]; rfl) (by simp [here]) ?_ ?_
      · omega
      · exact fun _ incrementing => by cases incrementing
  | drop =>
      obtain ⟨s, here⟩ := admitted
      simp only [acceptStep, here]
      exact ok.closes (by rw [here]; rfl) (by rw [here]; rfl) (by simp [here])
  | _ => exact ok

/-- A connection thread goes on. -/
theorem Ok.busy (ok : Ok c) {w : Worker} (member : w ∈ c.workers) :
    ¬(c.stopper = .done true ∧ c.joined = true) := by
  rintro ⟨finished, ended⟩
  rw [ok.quiet finished ended] at member
  exact List.not_mem_nil member

theorem owned_perm {w : Worker} (member : w ∈ c.workers) :
    (owned c).Perm
      (w.sockets ++ (c.acceptor.sockets ++ (c.workers.erase w).flatMap Worker.sockets)) := by
  have split := (List.perm_cons_erase member).flatMap_right Worker.sockets
  rw [List.flatMap_cons] at split
  refine (split.append_left c.acceptor.sockets).trans ?_
  rw [← List.append_assoc, ← List.append_assoc]
  exact List.perm_append_comm.append_right _

theorem workStep_ok (ok : Ok c) {e : Event} (admitted : machine.admits c e) :
    Ok (workStep c e) := by
  cases e with
  | serve s =>
      have member : .serving s ∈ c.workers := admitted
      have length := (List.perm_cons_erase member).length_eq
      exact { ok with
        counter := by
          show c.activeConnections = ((c.workers.erase (.serving s)).length + 1 : Nat) + _
          rw [ok.counter, length]
          rfl
        owners := by
          have owners := ok.owners.trans (owned_perm member)
          refine owners.trans ?_
          exact List.perm_append_comm_assoc [s] c.acceptor.sockets _
        quiet := fun finished ended => absurd ⟨finished, ended⟩ (ok.busy member) }
  | close s =>
      have member : .closing s ∈ c.workers := admitted
      have length := (List.perm_cons_erase member).length_eq
      have owners := ok.owners.trans (owned_perm member)
      exact {
        counter := by
          show c.activeConnections = ((c.workers.erase (.closing s)).length + 1 : Nat) + _
          rw [ok.counter, length]
          rfl
        bound := ok.bound
        room := ok.room
        owners := by
          have rest := owners.erase s
          rw [Worker.sockets, List.singleton_append, List.erase_cons_head] at rest
          exact rest
        distinct := ok.distinct.erase s
        books := by
          have inside : s ∈ c.opened := owners.mem_iff.2 (by simp [Worker.sockets])
          exact ok.books.settle (List.perm_cons_erase inside)
        stopped := ok.stopped
        joined := ok.joined
        quiet := fun finished ended => absurd ⟨finished, ended⟩ (ok.busy member) }
  | leave =>
      have member : .leaving ∈ c.workers := admitted
      have length := (List.perm_cons_erase member).length_eq
      rw [List.length_cons] at length
      have counter := ok.counter
      have bound := ok.bound
      exact {
        counter := by
          show c.activeConnections - 1 =
            ((c.workers.erase .leaving).length : Int) + c.acceptor.counted
          omega
        bound := by
          show c.activeConnections - 1 ≤ maxConnections
          omega
        room := fun s incrementing => by
          have room := ok.room s incrementing
          show c.activeConnections - 1 < maxConnections
          omega
        owners := ok.owners.trans (owned_perm member)
        distinct := ok.distinct
        books := ok.books
        stopped := ok.stopped
        joined := ok.joined
        quiet := fun finished ended => absurd ⟨finished, ended⟩ (ok.busy member) }
  | _ => exact ok

theorem stopStep_ok (ok : Ok c) {e : Event} (admitted : machine.admits c e) :
    Ok (stopStep c e) := by
  cases e with
  | stop => exact { ok with stopped := fun _ => rfl, quiet := fun finished => by cases finished }
  | join ended =>
      obtain ⟨here, gone⟩ := admitted
      exact { ok with
        stopped := fun _ => ok.stopped (by rw [here]; decide)
        joined := gone
        quiet := fun finished => by cases finished }
  | glance =>
      obtain ⟨looked, here⟩ := admitted
      have stopped := ok.stopped (by simp [here])
      simp only [stopStep, here]
      exact { ok with
        stopped := fun _ => stopped
        quiet := fun finished => by
          have finished : (if looked < waitSteps ∧ c.activeConnections > 0 then
            Stopper.waiting (looked + 1) else Stopper.checking) = .done true := finished
          split_ifs at finished }
  | check =>
      have here : c.stopper = .checking := admitted
      have stopped := ok.stopped (by rw [here]; decide)
      exact { ok with
        stopped := fun _ => stopped
        quiet := fun finished ended => by
          have none : c.activeConnections ≤ 0 := by
            simpa using Stopper.done.inj finished
          have counter := ok.counter
          rw [ok.joined ended] at counter
          simp only [Acceptor.counted] at counter
          have empty : c.workers.length = 0 := by omega
          exact List.length_eq_zero_iff.1 empty }
  | _ => exact ok

/-- **Every step of every thread keeps the books.** -/
theorem step_ok (ok : Ok c) {e : Event} (admitted : machine.admits c e) : Ok (step c e) := by
  cases e with
  | serve _ | close _ | leave => exact workStep_ok ok admitted
  | stop | join _ | glance | check => exact stopStep_ok ok admitted
  | look | accept _ | recheck | count | refuse | increment | create _ | undo | drop =>
      exact acceptStep_ok ok admitted

end Steps

theorem run_ok (es : List Event) (admissible : machine.Admissible started es) :
    Ok (machine.run started es) :=
  machine.run_invariant (fun _ _ ok admitted => step_ok ok admitted) es _ started_ok admissible

/-- **No connection is lost, and none is closed twice.**  However the accept thread, the
connection threads and the stop come to interleave, the counter is what is being served and
stays in its bounds; the sockets that are open belong to one thread each; what was accepted is
closed or open, once each.  If the stop has seen the accept thread end and no connection left,
then there is none, and everything accepted was closed. -/
theorem connections_safe (es : List Event) (admissible : machine.Admissible started es) :
    let c := machine.run started es
    (c.activeConnections = c.workers.length + c.acceptor.counted ∧
        0 ≤ c.activeConnections ∧ c.activeConnections ≤ maxConnections) ∧
      ((c.acceptor.sockets ++ c.workers.flatMap Worker.sockets).Nodup ∧
        c.opened.Perm (c.acceptor.sockets ++ c.workers.flatMap Worker.sockets)) ∧
      c.accepted.Perm (c.closed ++ c.opened) ∧
      (c.stopper = .done true → c.joined = true →
        c.acceptor = .gone ∧ c.workers = [] ∧ c.opened = [] ∧ c.closed.Perm c.accepted) := by
  intro c
  have ok : Ok c := run_ok es admissible
  have counter := ok.counter
  have nonneg : 0 ≤ c.acceptor.counted := by cases c.acceptor <;> simp [Acceptor.counted]
  have distinct := ok.owners.nodup_iff.1 ok.distinct
  refine ⟨⟨counter, by omega, ok.bound⟩, ⟨distinct, ok.owners⟩, ok.books, ?_⟩
  intro finished ended
  have gone := ok.joined ended
  have none := ok.quiet finished ended
  have opened : c.opened = [] := by
    have owners := ok.owners
    rw [owned, gone, none] at owners
    exact owners.eq_nil
  refine ⟨gone, none, opened, ?_⟩
  have books := ok.books
  rw [Theory.Balanced, opened, List.append_nil] at books
  exact books.symm

/-- A client is served while another one is accepted; the stop comes, and waits for both. -/
def twoClients : List Event :=
  [.look, .accept (some 5), .count, .increment, .create true, .look, .serve 5, .accept (some 7),
    .close 5, .count, .increment, .stop, .create true, .look, .join true, .glance, .leave,
    .serve 7, .close 7, .leave, .glance, .check]

theorem twoClients_admissible : machine.Admissible started twoClients := by
  have free5 : ∀ s, some 5 = some s → s ∉ ([] : List Socket) := fun _ _ => List.not_mem_nil
  have free7 : ∀ s, some 7 = some s → s ∉ [5] := by
    rintro s ⟨⟩
    decide
  exact ⟨rfl, ⟨rfl, free5⟩, ⟨5, rfl⟩, ⟨5, rfl⟩, ⟨5, rfl⟩, rfl, List.mem_cons_self, ⟨rfl, free7⟩,
    List.mem_cons_self, ⟨7, rfl⟩, ⟨7, rfl⟩, rfl, ⟨7, rfl⟩, rfl, ⟨rfl, fun _ => rfl⟩, ⟨0, rfl⟩,
    List.mem_cons_of_mem _ List.mem_cons_self, List.mem_cons_self, List.mem_cons_self,
    List.mem_cons_self, ⟨1, rfl⟩, rfl, trivial⟩

theorem connections_safe_twoClients :
    (machine.run started twoClients).closed.Perm (machine.run started twoClients).accepted :=
  ((connections_safe twoClients twoClients_admissible).2.2.2 rfl rfl).2.2.2

/-! ## The stop -/

/-- How many steps are left once the stop is seen, those of a thread yet to be made among
them. -/
def Acceptor.rank : Acceptor → Nat
  | .gone => 0
  | .looking => 1
  | .failed => 1
  | .dropping _ | .refusing _ => 2
  | .undoing _ => 3
  | .creating _ => 5
  | .incrementing _ => 6
  | .counting _ => 7
  | .accepting => 8

def Worker.rank : Worker → Nat
  | .serving _ => 3
  | .closing _ => 2
  | .leaving => 1

def rank (c : Connections) : Nat := c.acceptor.rank + (c.workers.map Worker.rank).sum

/-- A step of the accept thread or of a connection thread. -/
def Event.own : Event → Bool
  | .stop | .join _ | .glance | .check => false
  | _ => true

/-- A client comes in. -/
def Event.admitsClient : Event → Bool
  | .accept (some _) => true
  | _ => false

section Stop

variable {c : Connections}

theorem step_stopping {e : Event} (stopping : Ok c ∧ c.serverStop = true)
    (admitted : machine.admits c e) : Ok (step c e) ∧ (step c e).serverStop = true := by
  obtain ⟨ok, requested⟩ := stopping
  refine ⟨step_ok ok admitted, ?_⟩
  cases e with
  | accept client => cases client <;> exact requested
  | create made =>
      obtain ⟨s, here⟩ := admitted
      cases made <;> simpa [step, acceptStep, here] using requested
  | count | refuse | increment | undo | drop =>
      obtain ⟨s, here⟩ := admitted
      simpa [step, acceptStep, closesocket, here] using requested
  | glance =>
      obtain ⟨looked, here⟩ := admitted
      simpa [step, stopStep, here] using requested
  | stop => rfl
  | _ => exact requested

theorem sum_rank_erase {w : Worker} (member : w ∈ c.workers) :
    (c.workers.map Worker.rank).sum = w.rank + ((c.workers.erase w).map Worker.rank).sum := by
  rw [((List.perm_cons_erase member).map Worker.rank).sum_eq, List.map_cons, List.sum_cons]

theorem rank_falls {e : Event} (requested : c.serverStop = true) (admitted : machine.admits c e)
    (own : e.own = true) : rank (step c e) < rank c := by
  cases e with
  | look =>
      have here : c.acceptor = .looking := admitted
      simp [step, acceptStep, rank, here, requested, Acceptor.rank]
  | accept client =>
      have here : c.acceptor = .accepting := admitted.1
      cases client <;> simp [step, acceptStep, rank, here, Acceptor.rank]
  | recheck =>
      have here : c.acceptor = .failed := admitted
      simp [step, acceptStep, rank, here, requested, Acceptor.rank]
  | count =>
      obtain ⟨s, here⟩ := admitted
      simp only [step, acceptStep, rank, here]
      split_ifs <;> simp [Acceptor.rank]
  | create made =>
      obtain ⟨s, here⟩ := admitted
      cases made with
      | true =>
          simp only [step, acceptStep, rank, here, if_true, Acceptor.rank, Worker.rank,
            List.map_cons, List.sum_cons]
          omega
      | false => simp [step, acceptStep, rank, here, Acceptor.rank]
  | refuse | increment | undo | drop =>
      obtain ⟨s, here⟩ := admitted
      simp [step, acceptStep, closesocket, rank, here, Acceptor.rank]
  | serve s =>
      have split := sum_rank_erase admitted
      simp only [step, workStep, rank, List.map_cons, List.sum_cons, split, Worker.rank]
      omega
  | close s =>
      have split := sum_rank_erase admitted
      simp only [step, workStep, closesocket, rank, List.map_cons, List.sum_cons, split,
        Worker.rank]
      omega
  | leave =>
      have split := sum_rank_erase admitted
      simp only [step, workStep, rank, split, Worker.rank]
      omega
  | stop | join _ | glance | check => cases own

theorem rank_stays {e : Event} (admitted : machine.admits c e) (others : e.own = false) :
    rank (step c e) ≤ rank c := by
  cases e with
  | glance =>
      obtain ⟨looked, here⟩ := admitted
      simp [step, stopStep, rank, here]
  | stop | join _ | check => exact Nat.le_refl _
  | _ => cases others

/-- Whether a client may still come in. -/
def Acceptor.open_ : Acceptor → Nat
  | .accepting => 1
  | _ => 0

theorem open_falls {e : Event} (admitted : machine.admits c e) (comes : e.admitsClient = true) :
    (step c e).acceptor.open_ < c.acceptor.open_ := by
  cases e with
  | accept client =>
      have here : c.acceptor = .accepting := admitted.1
      cases client with
      | none => cases comes
      | some s => simp [step, acceptStep, here, Acceptor.open_]
  | _ => cases comes

theorem open_stays {e : Event} (requested : c.serverStop = true) (admitted : machine.admits c e) :
    (step c e).acceptor.open_ ≤ c.acceptor.open_ := by
  cases e with
  | look => simp [step, acceptStep, requested, Acceptor.open_]
  | recheck => simp [step, acceptStep, requested, Acceptor.open_]
  | accept client => cases client <;> simp [step, acceptStep, Acceptor.open_]
  | count =>
      obtain ⟨s, here⟩ := admitted
      simp only [step, acceptStep, here]
      split_ifs <;> simp [Acceptor.open_]
  | create made =>
      obtain ⟨s, here⟩ := admitted
      cases made <;> simp [step, acceptStep, here, Acceptor.open_]
  | refuse | increment | undo | drop =>
      obtain ⟨s, here⟩ := admitted
      simp [step, acceptStep, here, Acceptor.open_]
  | glance =>
      obtain ⟨looked, here⟩ := admitted
      simp [step, stopStep, here]
  | serve _ | close _ | leave | stop | join _ | check => exact Nat.le_refl _

end Stop

theorem sum_rank_le (ws : List Worker) : (ws.map Worker.rank).sum ≤ 3 * ws.length := by
  induction ws with
  | nil => rfl
  | cons w ws ih =>
      have three : w.rank ≤ 3 := by cases w <;> simp [Worker.rank]
      rw [List.map_cons, List.sum_cons, List.length_cons]
      omega

/-- **The stop drains the server.**  From the moment `serverStop` is raised, whatever the
threads have been doing, at most one more client is accepted, and the accept thread and the
connection threads are left with 104 steps of their own at most. -/
theorem stop_drains (before after : List Event)
    (admissible : machine.Admissible started (before ++ .stop :: after)) :
    after.countP Event.admitsClient ≤ 1 ∧ after.countP Event.own ≤ 104 := by
  obtain ⟨first, admitted, second⟩ := (machine.admissible_append _ _ _).1 admissible
  have ok := run_ok before first
  have stopping : Ok (machine.step (machine.run started before) .stop) ∧
      (machine.step (machine.run started before) .stop).serverStop = true :=
    ⟨step_ok ok admitted, rfl⟩
  refine ⟨?_, ?_⟩
  · have bound := machine.countP_le_rank (fun c => c.acceptor.open_) Event.admitsClient
      (fun _ _ stopping admitted => step_stopping stopping admitted)
      (fun _ _ _ admitted comes => open_falls admitted comes)
      (fun _ _ stopping admitted _ => open_stays stopping.2 admitted) after stopping second
    have one : ∀ a : Acceptor, a.open_ ≤ 1 := by
      intro a
      cases a <;> simp [Acceptor.open_]
    have := one (machine.step (machine.run started before) .stop).acceptor
    omega
  · have bound := machine.countP_le_rank rank Event.own
      (fun _ _ stopping admitted => step_stopping stopping admitted)
      (fun _ _ stopping admitted own => rank_falls stopping.2 admitted own)
      (fun _ _ _ admitted others => rank_stays admitted others) after stopping second
    have counter := stopping.1.counter
    have most := stopping.1.bound
    have ranks := sum_rank_le (machine.step (machine.run started before) .stop).workers
    have acceptor : ∀ a : Acceptor, (a.rank : Int) + 3 * (maxConnections - a.counted) ≤ 104 := by
      intro a
      cases a <;> simp [Acceptor.rank, Acceptor.counted, maxConnections]
    have least := acceptor (machine.step (machine.run started before) .stop).acceptor
    unfold rank at bound
    omega

theorem stop_drains_twoClients : (twoClients.drop 12).countP Event.own ≤ 104 := by
  have split : twoClients = twoClients.take 11 ++ .stop :: twoClients.drop 12 := rfl
  have admissible := twoClients_admissible
  rw [split] at admissible
  exact (stop_drains _ _ admissible).2

end Connections

end Clumsy.Http
