/-
# Platform.Handle -- platform_linux.cpp: who owns a thread handle

A thread handle has two owners, the caller that created the thread and the thread itself.
Each lets go once, in either order, and the one that finds nobody left frees the storage.
The machine here takes every access to the handle as a step of its own, so any interleaving
of `WaitForSingleObject`, `CloseHandle` and the trampoline is a run of it; an access after the
storage is gone is marked (`strayed`), and so is every call of `free`, `pthread_join` and
`pthread_detach`.

`Live` says what the handle holds while it is there: a reference for each side that has not
let go, and a side about to free it only if the other is done.  It is kept by every step
(`step_ok`), and what holds of every run follows (`handle_ownership`).
-/
import Clumsy.Theory.Run

namespace Clumsy.Platform

open Clumsy.Theory

set_option autoImplicit false

/-- The fields of a thread handle that change. -/
structure PlatformHandle where
  joined   : Bool
  finished : Bool
  refs     : Int
  deriving DecidableEq, Repr

/-- Where the creator is: between two calls, in `waitForThread` before it loads `finished`,
asleep after finding it unset, before it looks at `joined`, in `pthread_join`, before it sets
`joined`; in `CloseHandle` before it looks at `joined`, in `pthread_detach`, before the
decrement, in `free`; done. -/
inductive Creator
  | idle
  | waiting (bounded : Bool)
  | sleeping (bounded : Bool)
  | testing
  | joining
  | marking
  | closing
  | detaching
  | releasing
  | freeing
  | closed
  deriving DecidableEq, Repr

/-- Where the thread is: before it reads its function, in the function, before the decrement,
in `free`, done. -/
inductive Thread
  | starting
  | running
  | releasing
  | freeing
  | exited
  deriving DecidableEq, Repr

structure State where
  /-- `none` once it was freed. -/
  storage  : Option PlatformHandle
  creator  : Creator
  thread   : Thread
  /-- The handle was used or freed when it was no longer there. -/
  strayed  : Bool
  frees    : Nat
  joins    : Nat
  detaches : Nat
  deriving DecidableEq, Repr

/-- `CreateThread` has returned the handle. -/
def created : State where
  storage  := some { joined := false, finished := false, refs := 2 }
  creator  := .idle
  thread   := .starting
  strayed  := false
  frees    := 0
  joins    := 0
  detaches := 0

inductive Event
  /-- The creator calls `WaitForSingleObject`, with a timeout or with `INFINITE`. -/
  | wait (bounded : Bool)
  /-- The timeout of the wait has passed. -/
  | giveUp
  /-- The creator calls `CloseHandle`. -/
  | close
  /-- The creator goes on inside a call. -/
  | creator
  /-- The thread goes on. -/
  | thread
  deriving DecidableEq, Repr

/-! ## The steps -/

/-- An access to the handle. -/
def State.use (s : State) (access : PlatformHandle → State) : State :=
  match s.storage with
  | none => { s with strayed := true }
  | some h => access h

/-- `free(h)`. -/
def State.free (s : State) : State :=
  { s.use fun _ => { s with storage := none } with frees := s.frees + 1 }

def creatorStep (s : State) : State :=
  match s.creator with
  -- waitForThread
  | .waiting bounded => s.use fun h =>
      { s with creator := if h.finished then .testing else .sleeping bounded }
  | .sleeping bounded => { s with creator := .waiting bounded }
  | .testing => s.use fun h => { s with creator := if h.joined then .idle else .joining }
  | .joining => s.use fun _ => { s with joins := s.joins + 1, creator := .marking }
  | .marking => s.use fun h =>
      { s with storage := some { h with joined := true }, creator := .idle }
  -- CloseHandle
  | .closing => s.use fun h => { s with creator := if h.joined then .releasing else .detaching }
  | .detaching => s.use fun _ => { s with detaches := s.detaches + 1, creator := .releasing }
  | .releasing => s.use fun h =>
      { s with
        storage := some { h with refs := h.refs - 1 }
        creator := if h.refs - 1 = 0 then .freeing else .closed }
  | .freeing => { s.free with creator := .closed }
  | .idle | .closed => s

/-- `threadTrampoline`. -/
def threadStep (s : State) : State :=
  match s.thread with
  | .starting => s.use fun _ => { s with thread := .running }
  | .running => s.use fun h =>
      { s with storage := some { h with finished := true }, thread := .releasing }
  | .releasing => s.use fun h =>
      { s with
        storage := some { h with refs := h.refs - 1 }
        thread := if h.refs - 1 = 0 then .freeing else .exited }
  | .freeing => { s.free with thread := .exited }
  | .exited => s

/-- A call reads `kind` first; a timeout is noticed without the handle. -/
def step (s : State) : Event → State
  | .wait bounded => s.use fun _ => { s with creator := .waiting bounded }
  | .giveUp => { s with creator := .idle }
  | .close => s.use fun _ => { s with creator := .closing }
  | .creator => creatorStep s
  | .thread => threadStep s

/-- Calls come one after the other, `CloseHandle` last; a wait without a timeout does not give
up; `pthread_join` returns when the thread has returned. -/
def admits (s : State) : Event → Prop
  | .wait _ => s.creator = .idle
  | .giveUp => s.creator = .sleeping true
  | .close => s.creator = .idle
  | .creator => s.creator ≠ .idle ∧ s.creator ≠ .closed ∧
      (s.creator = .joining → s.thread = .exited)
  | .thread => s.thread ≠ .exited

def handle : Machine State Event where
  step := step
  admits := admits

instance (s : State) : (e : Event) → Decidable (handle.admits s e)
  | .wait _ => inferInstanceAs (Decidable (s.creator = .idle))
  | .giveUp => inferInstanceAs (Decidable (s.creator = .sleeping true))
  | .close => inferInstanceAs (Decidable (s.creator = .idle))
  | .creator => inferInstanceAs (Decidable
      (s.creator ≠ .idle ∧ s.creator ≠ .closed ∧ (s.creator = .joining → s.thread = .exited)))
  | .thread => inferInstanceAs (Decidable (s.thread ≠ .exited))

/-! ## What the handle holds -/

/-- The side's own reference. -/
def Creator.share : Creator → Int
  | .freeing | .closed => 0
  | _ => 1

def Thread.share : Thread → Int
  | .freeing | .exited => 0
  | _ => 1

/-- Letting go is the decrement. -/
def Creator.LetGo (c : Creator) : Prop := c.share = 0

def Thread.LetGo (t : Thread) : Prop := t.share = 0

/-- How often the pthread was joined and detached, by how far the creator is. -/
def Creator.Settled (joined : Bool) (joins detaches : Nat) : Creator → Prop
  | .joining | .detaching => joined = false ∧ joins = 0 ∧ detaches = 0
  | .marking => joins = 1 ∧ detaches = 0
  | .releasing | .freeing | .closed => joins + detaches = 1
  | _ => joins = joined.toNat ∧ detaches = 0

/-- The handle while it is there. -/
structure Live (s : State) (h : PlatformHandle) : Prop where
  there   : s.storage = some h
  refs    : h.refs = s.creator.share + s.thread.share
  settled : s.creator.Settled h.joined s.joins s.detaches
  unfreed : s.frees = 0
  /-- Who is about to free it is the last. -/
  creator : s.creator = .freeing → s.thread = .exited
  thread  : s.thread = .freeing → s.creator = .closed
  /-- Somebody still has to let go or to free it. -/
  owned   : s.creator = .closed → s.thread ≠ .exited

/-- The handle is there, or both sides are done and it was freed once. -/
def Ok (s : State) : Prop :=
  s.strayed = false ∧ ((∃ h, Live s h) ∨
    (s.storage = none ∧ s.creator = .closed ∧ s.thread = .exited ∧ s.frees = 1 ∧
      s.joins + s.detaches = 1))

/-! ## One step -/

theorem created_ok : Ok created := by
  refine ⟨rfl, .inl ⟨_, rfl, rfl, ⟨rfl, rfl⟩, rfl, ?_, ?_, ?_⟩⟩ <;> simp [created]

section Steps

variable {s : State} {h : PlatformHandle}

theorem Live.use (live : Live s h) (access : PlatformHandle → State) : s.use access = access h := by
  rw [State.use, live.there]

/-- The creator goes on and keeps its reference. -/
theorem Live.keeps (live : Live s h) {c : Creator} {joined : Bool} {joins detaches : Nat}
    (own : s.creator.share = 1) (own' : c.share = 1) (settled : c.Settled joined joins detaches) :
    Live { s with storage := some { h with joined }, creator := c, joins, detaches }
      { h with joined } := by
  refine ⟨rfl, ?_, settled, live.unfreed, ?_, ?_, ?_⟩
  · rw [live.refs, own, own']
  · intro freeing
    rw [show c = .freeing from freeing] at own'
    cases own'
  · intro freeing
    rw [live.thread freeing] at own
    cases own
  · intro closed
    rw [show c = .closed from closed] at own'
    cases own'

/-- A step of the creator that leaves the handle as it is; the pthread may be joined or
detached in it. -/
theorem Live.moves (live : Live s h) (kept : s.strayed = false) {c c' : Creator}
    {joins detaches : Nat} (here : s.creator = c) (own : c.share = 1) (own' : c'.share = 1)
    (settled : c.Settled h.joined s.joins s.detaches → c'.Settled h.joined joins detaches) :
    Ok { s with creator := c', joins, detaches } := by
  have after : c'.Settled h.joined joins detaches := by
    apply settled
    rw [← here]
    exact live.settled
  have same : { s with creator := c', joins, detaches } =
      { s with storage := some h, creator := c', joins, detaches } := by
    rw [← live.there]
  rw [same]
  exact ⟨kept, .inl ⟨h, live.keeps (here ▸ own) own' after⟩⟩

/-- The thread goes on and keeps its reference. -/
theorem Live.runs (live : Live s h) {t : Thread} {finished : Bool} (own : s.thread.share = 1)
    (own' : t.share = 1) :
    Live { s with storage := some { h with finished }, thread := t } { h with finished } := by
  refine ⟨rfl, ?_, live.settled, live.unfreed, ?_, ?_, ?_⟩
  · rw [live.refs, own, own']
  · intro freeing
    rw [live.creator freeing] at own
    cases own
  · intro freeing
    rw [show t = .freeing from freeing] at own'
    cases own'
  · intro _ exited
    rw [show t = .exited from exited] at own'
    cases own'

/-- A side that let go is about to free the storage or done. -/
theorem creator_letGo {c : Creator} : c.LetGo ↔ c = .freeing ∨ c = .closed := by
  cases c <;> simp [Creator.LetGo, Creator.share]

theorem thread_letGo {t : Thread} : t.LetGo ↔ t = .freeing ∨ t = .exited := by
  cases t <;> simp [Thread.LetGo, Thread.share]

/-- `releaseHandle` of the creator: who finds the thread done frees the storage. -/
theorem creator_releases (kept : s.strayed = false) (live : Live s h)
    (here : s.creator = .releasing) : Ok (creatorStep s) := by
  have own : s.creator.share = 1 := by rw [here]; rfl
  have refs : h.refs - 1 = s.thread.share := by
    rw [live.refs, own]
    omega
  have settled : s.joins + s.detaches = 1 := by
    have settled := live.settled
    rwa [here] at settled
  rw [creatorStep, here]
  simp only [live.use]
  refine ⟨kept, .inl ⟨_, rfl, ?_, ?_, live.unfreed, ?_, ?_, ?_⟩⟩
  · rw [refs]
    simp only
    split <;> simp [Creator.share]
  · simp only
    split <;> exact settled
  · simp only [refs]
    split
    · rename_i last
      intro _
      rcases thread_letGo.1 last with freeing | exited
      · rw [live.thread freeing] at here
        cases here
      · exact exited
    · intro freeing
      cases freeing
  · intro freeing
    rw [live.thread freeing] at here
    cases here
  · simp only [refs]
    split
    · intro closed
      cases closed
    · rename_i last
      intro _ exited
      exact last (thread_letGo.2 (.inr exited))

/-- `free` by the creator. -/
theorem creator_frees (kept : s.strayed = false) (live : Live s h) (here : s.creator = .freeing) :
    Ok (creatorStep s) := by
  have settled := live.settled
  rw [here] at settled
  rw [creatorStep, here]
  simp only [State.free, live.use]
  exact ⟨kept, .inr ⟨rfl, rfl, live.creator here, by rw [live.unfreed], settled⟩⟩

/-- `waitForThread` joins what was not joined. -/
theorem testing_settled {joined : Bool} {joins detaches : Nat}
    (settled : Creator.Settled joined joins detaches .testing) :
    (if joined then Creator.idle else .joining).Settled joined joins detaches := by
  cases joined with
  | true => exact settled
  | false => exact ⟨rfl, settled⟩

/-- `CloseHandle` detaches what was not joined. -/
theorem closing_settled {joined : Bool} {joins detaches : Nat}
    (settled : Creator.Settled joined joins detaches .closing) :
    (if joined then Creator.releasing else .detaching).Settled joined joins detaches := by
  cases joined with
  | true =>
      simp only [Creator.Settled, Bool.toNat_true] at settled
      simp only [if_true, Creator.Settled]
      omega
  | false => exact ⟨rfl, settled⟩

theorem creatorStep_ok (kept : s.strayed = false) (live : Live s h)
    (admitted : admits s .creator) : Ok (creatorStep s) := by
  cases here : s.creator with
  | idle => exact absurd here admitted.1
  | closed => exact absurd here admitted.2.1
  | releasing => exact creator_releases kept live here
  | freeing => exact creator_frees kept live here
  | sleeping bounded =>
      rw [creatorStep, here]
      exact live.moves kept here rfl rfl id
  | waiting bounded =>
      rw [creatorStep, here]
      simp only [live.use]
      apply live.moves kept here rfl
      · split <;> rfl
      · intro settled
        split <;> exact settled
  | testing =>
      rw [creatorStep, here]
      simp only [live.use]
      apply live.moves kept here rfl
      · split <;> rfl
      · exact testing_settled
  | joining =>
      rw [creatorStep, here]
      simp only [live.use]
      apply live.moves kept here rfl rfl
      rintro ⟨_, joins, detaches⟩
      exact ⟨by rw [joins], detaches⟩
  | marking =>
      have settled := live.settled
      rw [here] at settled
      rw [creatorStep, here]
      simp only [live.use]
      exact ⟨kept, .inl ⟨_, live.keeps (by rw [here]; rfl) rfl settled⟩⟩
  | closing =>
      rw [creatorStep, here]
      simp only [live.use]
      apply live.moves kept here rfl
      · split <;> rfl
      · exact closing_settled
  | detaching =>
      rw [creatorStep, here]
      simp only [live.use]
      apply live.moves kept here rfl rfl
      rintro ⟨_, joins, detaches⟩
      simp only [Creator.Settled]
      omega

/-- `releaseHandle` of the thread: who finds the creator done frees the storage. -/
theorem thread_releases (kept : s.strayed = false) (live : Live s h)
    (here : s.thread = .releasing) : Ok (threadStep s) := by
  have own : s.thread.share = 1 := by rw [here]; rfl
  have refs : h.refs - 1 = s.creator.share := by
    rw [live.refs, own]
    omega
  rw [threadStep, here]
  simp only [live.use]
  refine ⟨kept, .inl ⟨_, rfl, ?_, live.settled, live.unfreed, ?_, ?_, ?_⟩⟩
  · rw [refs]
    simp only
    split <;> simp [Thread.share]
  · intro freeing
    rw [live.creator freeing] at here
    cases here
  · simp only [refs]
    split
    · rename_i last
      intro _
      rcases creator_letGo.1 last with freeing | closed
      · rw [live.creator freeing] at here
        cases here
      · exact closed
    · intro freeing
      cases freeing
  · simp only [refs]
    split
    · intro _ exited
      cases exited
    · rename_i last
      intro closed _
      exact last (creator_letGo.2 (.inr closed))

theorem threadStep_ok (kept : s.strayed = false) (live : Live s h)
    (admitted : s.thread ≠ .exited) : Ok (threadStep s) := by
  cases here : s.thread with
  | exited => exact absurd here admitted
  | releasing => exact thread_releases kept live here
  | starting =>
      rw [threadStep, here]
      simp only [live.use]
      have same : { s with thread := .running } =
          { s with storage := some h, thread := .running } := by
        rw [← live.there]
      rw [same]
      exact ⟨kept, .inl ⟨h, live.runs (by rw [here]; rfl) rfl⟩⟩
  | running =>
      rw [threadStep, here]
      simp only [live.use]
      exact ⟨kept, .inl ⟨_, live.runs (by rw [here]; rfl) rfl⟩⟩
  | freeing =>
      have closed := live.thread here
      have settled := live.settled
      rw [closed] at settled
      rw [threadStep, here]
      simp only [State.free, live.use]
      exact ⟨kept, .inr ⟨rfl, closed, rfl, by rw [live.unfreed], settled⟩⟩

end Steps

/-- Every step keeps the handle in order; when it is gone nobody takes one. -/
theorem step_ok {s : State} {e : Event} (ok : Ok s) (admitted : admits s e) : Ok (step s e) := by
  obtain ⟨kept, ⟨h, live⟩ | ⟨_, closed, exited, _⟩⟩ := ok
  · cases e with
    | wait bounded =>
        rw [step, live.use]
        exact live.moves kept admitted rfl rfl id
    | giveUp => exact live.moves kept admitted rfl rfl id
    | close =>
        rw [step, live.use]
        exact live.moves kept admitted rfl rfl id
    | creator => exact creatorStep_ok kept live admitted
    | thread => exact threadStep_ok kept live admitted
  · cases e <;> simp [admits, closed, exited] at admitted

/-! ## Runs -/

theorem run_ok {es : List Event} (admissible : handle.Admissible created es) :
    Ok (handle.run created es) :=
  handle.run_invariant (fun _ _ => step_ok) es created created_ok admissible

/-- What two owners of one handle come to. -/
structure Owned (s : State) : Prop where
  /-- Nothing was read, written or freed after the storage was gone. -/
  kept    : s.strayed = false
  once    : s.frees ≤ 1
  /-- Freed only after both sides let go. -/
  last    : s.frees = 1 → s.creator.LetGo ∧ s.thread.LetGo
  /-- Joined or detached, not both, and not twice. -/
  pthread : s.joins + s.detaches ≤ 1
  /-- Both happened once when both sides are done. -/
  done    : s.creator = .closed → s.thread = .exited → s.frees = 1 ∧ s.joins + s.detaches = 1
  /-- No side waits for ever on the other. -/
  ends    : (∀ e, ¬handle.admits s e) → s.creator = .closed ∧ s.thread = .exited

theorem settled_le {c : Creator} {joined : Bool} {joins detaches : Nat}
    (settled : c.Settled joined joins detaches) : joins + detaches ≤ 1 := by
  have small := Bool.toNat_le joined
  cases c <;> simp only [Creator.Settled] at settled <;> omega

theorem Ok.owned {s : State} (ok : Ok s) : Owned s := by
  have ends : (∀ e, ¬handle.admits s e) → s.creator = .closed ∧ s.thread = .exited := by
    intro stuck
    have exited : s.thread = .exited := by
      by_contra running
      exact stuck .thread running
    refine ⟨?_, exited⟩
    by_contra open_
    by_cases idle : s.creator = .idle
    · exact stuck .close idle
    · exact stuck .creator ⟨idle, open_, fun _ => exited⟩
  obtain ⟨kept, ⟨h, live⟩ | ⟨_, closed, exited, once, settled⟩⟩ := ok
  · refine ⟨kept, by rw [live.unfreed]; omega, ?_, settled_le live.settled, ?_, ends⟩
    · intro freed
      rw [live.unfreed] at freed
      cases freed
    · intro closed exited
      exact absurd exited (live.owned closed)
  · refine ⟨kept, by omega, ?_, by omega, fun _ _ => ⟨once, settled⟩, ends⟩
    intro _
    exact ⟨creator_letGo.2 (.inr closed), thread_letGo.2 (.inr exited)⟩

/-- **The handle has two owners and one end.**  Whatever the order of the creator's and the
thread's steps, with any number of waits before the handle is closed. -/
theorem handle_ownership (es : List Event) (admissible : handle.Admissible created es) :
    Owned (handle.run created es) := (run_ok admissible).owned

/-- A wait that gives up, the handle closed while the thread runs, and the thread the last. -/
theorem handle_ownership_detached :
    Owned (handle.run created [.thread, .wait true, .creator, .giveUp, .close, .creator, .creator,
      .thread, .creator, .thread, .thread]) ∧
    (handle.run created [.thread, .wait true, .creator, .giveUp, .close, .creator, .creator,
      .thread, .creator, .thread, .thread]).detaches = 1 :=
  ⟨handle_ownership _ (by decide), by decide⟩

end Clumsy.Platform
