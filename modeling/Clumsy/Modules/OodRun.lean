/-
# Modules.OodRun -- what out-of-order holds, and the orders it lets go in

Two results about `ood.cpp`:

* `releaseBufShuffled_unbiased`: the choices the shuffle draws and the orders of
  the released packets correspond one to one, whatever their number;
* `oodRun_holds`: over every run of calls and parameter writes, the counter never
  passes 50 and a release puts back the held packets, each once.  As long as the
  tick does not go all the way around while a packet is held, what a call leaves
  behind is fewer packets than `ood-buffer`, all younger than `ood-delay`.

`oodProcess` looks at the age of the oldest packet only.  That the others are
younger is `Aged`, which the tick carries from one call to the next while waiting
times add up (`Clock.elapsed_add`).
-/
import Clumsy.Theory.Run
import Clumsy.Theory.Clock
import Clumsy.Modules.Params

namespace Clumsy.Modules

open Clumsy.Theory
open Clumsy.Packet

set_option autoImplicit false

variable {β : Type}

/-! ## The shuffle -/

/-- What the loop can draw for `n` held packets: `n - 1` choices, each at most its
index. -/
def sequences (n : Nat) : Set (List Nat) := {js | js.length = n - 1 ∧ Choosable js}

/-- Which of `n` held packets, by its place in the buffer, stands where on the main
list after a release that drew `js`. -/
def releaseOrder (n : Nat) (js : List Nat) : List (Fin n) :=
  (shuffleBy js (List.finRange n).reverse.toArray).toList.reverse

theorem releaseBufShuffled_main (d : Draws) {q : Queues β} (counted : q.buf.Counted) :
    (releaseBufShuffled d q).main =
      (releaseOrder q.buf.nodes.length (choices (q.buf.nodes.length - 1) d)).map q.buf.nodes.get ++
        q.main := by
  have count : q.buf.bufSize.toNat = q.buf.nodes.length := by
    rw [counted.1]
    exact Int.toNat_natCast _
  have places : q.buf.nodes.reverse = (List.finRange q.buf.nodes.length).reverse.map
      q.buf.nodes.get := by
    rw [List.map_reverse, List.map_get_finRange]
  simp only [releaseBufShuffled, count]
  split
  · rename_i empty
    have nothing : q.buf.nodes = [] := List.eq_nil_of_length_eq_zero empty
    have none : (releaseOrder q.buf.nodes.length (choices (q.buf.nodes.length - 1) d)) = [] := by
      apply List.eq_nil_of_length_eq_zero
      rw [releaseOrder, List.length_reverse, (shuffleBy_perm _ _).length_eq]
      simpa using empty
    rw [none]
    rfl
  · have all : q.buf.nodes.reverse.take q.buf.nodes.length = q.buf.nodes.reverse :=
      List.take_of_length_le (by rw [List.length_reverse])
    rw [all, fisherYates_eq, places, ← List.map_toArray, shuffleBy_map, Array.toList_map,
      ← List.map_reverse]
    rfl

theorem choices_onto {n : Nat} {js : List Nat} (fits : Choosable js) (long : js.length = n) :
    ∃ d, choices n d = js := by
  induction n generalizing js with
  | zero => exact ⟨⟨fun _ => 0, fun _ => true⟩, (List.eq_nil_of_length_eq_zero long).symm⟩
  | succ n ih =>
      cases js with
      | nil => exact absurd long.symm (Nat.succ_ne_zero n)
      | cons j js =>
          have long : js.length = n := Nat.succ.inj long
          obtain ⟨d, drawn⟩ := ih fits.2 long
          refine ⟨⟨fun k => if k = 0 then j else d.rand (k - 1), d.alloc⟩, ?_⟩
          have small : j % (n + 2) = j := Nat.mod_eq_of_lt (by have := fits.1; omega)
          have rest :
              Draws.afterRand ⟨fun k => if k = 0 then j else d.rand (k - 1), d.alloc⟩ = d := by
            cases d
            rfl
          rw [choices, rest, drawn]
          exact congrArg (· :: js) small

/-- **Unbiased.**  The released packets stand in the order the drawn choices name;
every choice sequence can be drawn; and choice sequences and orders correspond one
to one, so each of the `n!` orders arises from exactly one of them. -/
theorem releaseBufShuffled_unbiased (q : Queues β) (counted : q.buf.Counted) :
    let n := q.buf.nodes.length
    (∀ d, choices (n - 1) d ∈ sequences n ∧
        (releaseBufShuffled d q).main =
          (releaseOrder n (choices (n - 1) d)).map q.buf.nodes.get ++ q.main) ∧
      (∀ js ∈ sequences n, ∃ d, choices (n - 1) d = js) ∧
      Set.BijOn (releaseOrder n) (sequences n) {order | order.Perm (List.finRange n)} ∧
      {order : List (Fin n) | order.Perm (List.finRange n)}.ncard = n.factorial := by
  intro n
  have distinct : (List.finRange n).reverse.toArray.toList.Nodup :=
    List.nodup_reverse.2 (List.nodup_finRange n)
  have shuffled := shuffleBy_bijOn (List.finRange n).reverse.toArray distinct
  have size : (List.finRange n).reverse.toArray.size = n := by simp
  rw [size] at shuffled
  refine ⟨fun d => ⟨⟨choices_length _ d, choices_choosable _ d⟩,
    releaseBufShuffled_main d counted⟩, fun js member => choices_onto member.2 member.1, ?_, ?_⟩
  · -- the main list holds the array back to front
    have flipped : Set.BijOn List.reverse
        {order : List (Fin n) | order.Perm (List.finRange n).reverse.toArray.toList}
        {order | order.Perm (List.finRange n)} := by
      refine ⟨fun order perm => ?_, List.reverse_injective.injOn, fun order perm => ?_⟩
      · exact (List.reverse_perm order).trans (List.Perm.trans perm (List.reverse_perm _))
      · refine ⟨order.reverse, ?_, List.reverse_reverse order⟩
        exact (List.reverse_perm order).trans (List.Perm.trans perm (List.reverse_perm _).symm)
    exact flipped.comp shuffled
  · rw [orders_ncard (List.nodup_finRange n), List.length_finRange]

/-- Two held packets, the newer one first. -/
def twoHeld : Queues Unit where
  main := []
  buf := { linked := true, nodes := [outgoing 1, outgoing 0], bufSize := 2 }

/-- Either order of two packets, from exactly one choice. -/
theorem releaseBufShuffled_unbiased_pair :
    twoHeld.buf.Counted ∧
      Set.BijOn (releaseOrder 2) (sequences 2) {order | order.Perm (List.finRange 2)} := by
  have counted : twoHeld.buf.Counted := ⟨rfl, by decide⟩
  exact ⟨counted, (releaseBufShuffled_unbiased twoHeld counted).2.2.1⟩

/-! ## Runs -/

/-- Out-of-order, with the tick of its last call. -/
structure OodRun (β : Type) where
  ood      : Ood β
  lastCall : UInt32

inductive OodEvent (β : Type) where
  | startUp
  | process (env : ProcEnv) (main : List (PacketNode β))
  | closeDown (main : List (PacketNode β))
  | setParam (key value : List Char)

namespace OodRun

/-- The first `startUp` of the process, under any parameters. -/
def started (ood : Ood β) : OodRun β where
  ood := oodStartUp { ood with buf := .unlinked }
  lastCall := 0

def step (s : OodRun β) : OodEvent β → OodRun β
  | .startUp => { s with ood := oodStartUp s.ood }
  | .process env main => { ood := (oodProcess env main s.ood).state, lastCall := env.ticks 0 }
  | .closeDown main => { s with ood := (oodCloseDown main s.ood).state }
  | .setParam key value =>
      { s with ood := ((oodChain.read key value).map (oodSetParam s.ood)).getD s.ood }

/-- At a call, the tick has not gone all the way around since a packet still held was
captured. -/
def machine : Machine (OodRun β) (OodEvent β) where
  step := step
  admits
    | s, .process env _ => ∀ pac ∈ s.ood.buf.nodes,
        (s.lastCall - pac.timestamp).toNat + (env.ticks 0 - s.lastCall).toNat < 2 ^ 32
    | _, _ => True

instance (s : OodRun β) : ∀ e, Decidable (machine.admits s e)
  | .process _ _ => inferInstanceAs (Decidable (∀ pac ∈ s.ood.buf.nodes, _ < _))
  | .startUp | .closeDown _ | .setParam _ _ => isTrue trivial

/-- What every run keeps, whatever the clock does. -/
structure Inv (s : OodRun β) : Prop where
  linked  : s.ood.buf.linked = true
  counted : s.ood.buf.Counted
  below   : s.ood.buf.nodes.length < 50

theorem started_inv (ood : Ood β) : (started ood).Inv where
  linked := Buffer.startUp_linked _
  counted := Buffer.startUp_counted Buffer.counted_unlinked
  below := by
    show (Buffer.unlinked.startUp : Buffer β).nodes.length < 50
    rw [Buffer.startUp_nodes Buffer.counted_unlinked]
    exact Nat.zero_lt_succ 49

theorem oodSetParam_buf (ood : Ood β) (p : OodParam) : (oodSetParam ood p).buf = ood.buf := by
  cases p <;> rfl

theorem setParam_buf (s : OodRun β) (key value : List Char) :
    (s.step (.setParam key value)).ood.buf = s.ood.buf := by
  simp only [step]
  cases oodChain.read key value with
  | none => rfl
  | some p => exact oodSetParam_buf s.ood p

theorem closeDown_nodes (s : OodRun β) (main : List (PacketNode β)) :
    (s.step (.closeDown main)).ood.buf.nodes = [] :=
  flushBehind_nodes { main, buf := s.ood.buf }

theorem step_inv {s : OodRun β} (inv : s.Inv) (e : OodEvent β) : (s.step e).Inv := by
  cases e with
  | startUp =>
      refine ⟨Buffer.startUp_linked _, Buffer.startUp_counted inv.counted, ?_⟩
      show s.ood.buf.startUp.nodes.length < 50
      rw [Buffer.startUp_nodes inv.counted]
      exact inv.below
  | process env main =>
      obtain ⟨counted, below⟩ := oodProcess_sizes env main inv.linked inv.counted
      exact ⟨(oodProcess_linked env main s.ood).trans inv.linked, counted, below⟩
  | closeDown main =>
      refine ⟨inv.linked, @flushBehind_counted β { main, buf := s.ood.buf } inv.counted, ?_⟩
      rw [closeDown_nodes]
      exact Nat.zero_lt_succ 49
  | setParam key value =>
      obtain ⟨linked, counted, below⟩ := inv
      rw [← setParam_buf s key value] at linked counted below
      exact ⟨linked, counted, below⟩

theorem run_inv (ood : Ood β) (es : List (OodEvent β)) : (machine.run (started ood) es).Inv := by
  have once : ∀ (s : OodRun β) e, s.Inv → (machine.step s e).Inv := fun _ e inv => step_inv inv e
  exact machine.run_invariant' once es _ (started_inv ood)

/-! ## Ages -/

/-- Along the buffer, newest first, packets get older. -/
def Aged (tick : UInt32) (nodes : List (PacketNode β)) : Prop :=
  nodes.Pairwise fun newer older =>
    (tick - newer.timestamp).toNat ≤ (tick - older.timestamp).toNat

theorem Aged.later {tick now : UInt32} {nodes : List (PacketNode β)} (aged : Aged tick nodes)
    (once : ∀ pac ∈ nodes, (tick - pac.timestamp).toNat + (now - tick).toNat < 2 ^ 32) :
    Aged now nodes := by
  refine List.Pairwise.imp_of_mem (fun {newer older} newerIn olderIn younger => ?_) aged
  rw [Clock.elapsed_add (once newer newerIn), Clock.elapsed_add (once older olderIn)]
  exact Nat.add_le_add_right younger _

/-- Packets captured now are younger than all others. -/
theorem Aged.capture {now : UInt32} {taken nodes : List (PacketNode β)} (aged : Aged now nodes)
    (fresh : ∀ pac ∈ taken, pac.timestamp = now) : Aged now (taken ++ nodes) := by
  have zero : ∀ pac ∈ taken, (now - pac.timestamp).toNat = 0 := by
    intro pac member
    rw [fresh pac member, Clock.toNat_sub_self]
  refine List.pairwise_append.2 ⟨?_, aged, ?_⟩
  · refine List.Pairwise.imp_of_mem (fun {newer _} newerIn _ _ => ?_)
      (List.pairwise_of_forall fun _ _ => trivial : taken.Pairwise fun _ _ => True)
    rw [zero newer newerIn]
    exact Nat.zero_le _
  · intro newer newerIn older _
    rw [zero newer newerIn]
    exact Nat.zero_le _

/-- No packet is older than the last one. -/
theorem Aged.oldest {now : UInt32} {nodes : List (PacketNode β)} (aged : Aged now nodes)
    {oldest : PacketNode β} (last : nodes.getLast? = some oldest) :
    ∀ pac ∈ nodes, (now - pac.timestamp).toNat ≤ (now - oldest.timestamp).toNat := by
  obtain ⟨newer, rfl⟩ := List.getLast?_eq_some_iff.1 last
  have pairs := (List.pairwise_append.1 aged).2.2
  intro pac member
  rcases List.mem_append.1 member with before | same
  · exact pairs pac before oldest (List.mem_singleton_self oldest)
  · rw [List.mem_singleton.1 same]

/-! ## One call -/

section Call

variable {s : OodRun β} (inv : s.Inv) (env : ProcEnv) (main : List (PacketNode β))

include inv in
/-- While packets are captured the counter stays within the release's array. -/
theorem capture_bufSize_le : (s.ood.capture env main).2.1.buf.bufSize ≤ 50 := by
  have size := inv.counted.1
  have below := inv.below
  refine takeIn_bufSize_le _ _ _ 50 (fun d size a b held => ?_) ?_
  · have room := (Ood.judge_hold held).1
    have upper := s.ood.maxBuffer.upper
    omega
  · show s.ood.buf.bufSize ≤ 50
    omega

include inv in
/-- A call ends with all held packets on the main list, or with none of them. -/
theorem oodProcess_release :
    let captured := s.ood.capture env main
    let out := oodProcess env main s.ood
    if s.ood.ripe (env.ticks 0) captured.2.1.buf then
      ∃ released, out.main = released ++ captured.2.1.main ∧
        released.Perm captured.2.1.buf.nodes ∧ out.state.buf.nodes = []
    else out.main = captured.2.1.main ∧ out.state.buf = captured.2.1.buf := by
  intro captured out
  have counted : captured.2.1.buf.Counted := takeIn_counted _ _ _ inv.linked inv.counted
  cases ripe : s.ood.ripe (env.ticks 0) captured.2.1.buf with
  | true =>
      obtain ⟨released, queue, perm, -⟩ := releaseBufShuffled_split captured.1 captured.2.1
      have emptied := (releaseBufShuffled_nodes captured.1 counted).1
      rw [emptied, List.append_nil] at perm
      simp only [if_true, out, oodProcess]
      rw [ripe]
      exact ⟨released, queue, perm, emptied⟩
  | false =>
      simp only [Bool.false_eq_true, if_false, out, oodProcess]
      rw [ripe]
      exact ⟨rfl, rfl⟩

/-- What is held after a call is less than `ood-buffer` and younger than `ood-delay`. -/
def Holds (now : UInt32) (ood : Ood β) (nodes : List (PacketNode β)) : Prop :=
  nodes = [] ∨ ((nodes.length : Int) < ood.maxBuffer.val ∧
    ∀ pac ∈ nodes, ((now - pac.timestamp).toNat : Int) < ood.maxDelay.val)

instance (now : UInt32) (ood : Ood β) (nodes : List (PacketNode β)) :
    Decidable (Holds now ood nodes) := inferInstanceAs (Decidable (_ ∨ _))

theorem capture_aged (aged : Aged s.lastCall s.ood.buf.nodes)
    (admits : machine.admits s (.process env main)) :
    Aged (env.ticks 0) (s.ood.capture env main).2.1.buf.nodes := by
  obtain ⟨taken, nodes, fresh⟩ :=
    @takeIn_nodes β Draws (s.ood.judge (env.ticks 0)) env.draws { main, buf := s.ood.buf }
      (fun pac => pac.timestamp = env.ticks 0)
      (fun d size a b held => by rw [(Ood.judge_hold held).2])
  have same : (s.ood.capture env main).2.1.buf.nodes = taken ++ s.ood.buf.nodes := nodes
  rw [same]
  exact (aged.later admits).capture fresh

include inv in
theorem oodProcess_holds (aged : Aged s.lastCall s.ood.buf.nodes)
    (admits : machine.admits s (.process env main)) :
    Holds (env.ticks 0) s.ood (oodProcess env main s.ood).state.buf.nodes ∧
      Aged (env.ticks 0) (oodProcess env main s.ood).state.buf.nodes := by
  have captured : Aged (env.ticks 0) (s.ood.capture env main).2.1.buf.nodes :=
    capture_aged env main aged admits
  have counted : (s.ood.capture env main).2.1.buf.Counted :=
    takeIn_counted _ _ _ inv.linked inv.counted
  have ended := oodProcess_release inv env main
  simp only at ended
  split at ended
  · obtain ⟨-, -, -, emptied⟩ := ended
    rw [emptied]
    exact ⟨Or.inl rfl, List.Pairwise.nil⟩
  · rename_i unripe
    rw [ended.2]
    refine ⟨?_, captured⟩
    cases last : (s.ood.capture env main).2.1.buf.nodes.getLast? with
    | none => exact Or.inl (List.getLast?_eq_none_iff.1 last)
    | some oldest =>
        have size := counted.1
        have lower := s.ood.maxDelay.lower
        have upper := s.ood.maxDelay.upper
        simp only [Ood.ripe, last, Bool.or_eq_true, decide_eq_true_eq, not_or, ge_iff_le,
          UInt32.le_iff_toNat_le, not_le] at unripe
        have delay := @Clock.toNat_ofInt s.ood.maxDelay.val (by omega) (by omega)
        refine Or.inr ⟨by omega, fun pac member => ?_⟩
        have younger := captured.oldest last pac member
        omega

end Call

theorem step_aged {s : OodRun β} (inv : s.Inv) (aged : Aged s.lastCall s.ood.buf.nodes)
    (e : OodEvent β) (admits : machine.admits s e) :
    Aged (s.step e).lastCall (s.step e).ood.buf.nodes := by
  cases e with
  | startUp =>
      show Aged s.lastCall s.ood.buf.startUp.nodes
      rwa [Buffer.startUp_nodes inv.counted]
  | process env main => exact (oodProcess_holds inv env main aged admits).2
  | closeDown main =>
      rw [closeDown_nodes]
      exact List.Pairwise.nil
  | setParam key value =>
      rw [setParam_buf]
      exact aged

theorem run_aged (ood : Ood β) (es : List (OodEvent β))
    (admissible : machine.Admissible (started ood) es) :
    Aged (machine.run (started ood) es).lastCall (machine.run (started ood) es).ood.buf.nodes := by
  have once : ∀ (s : OodRun β) e, (s.Inv ∧ Aged s.lastCall s.ood.buf.nodes) →
      machine.admits s e →
        (machine.step s e).Inv ∧
          Aged (machine.step s e).lastCall (machine.step s e).ood.buf.nodes :=
    fun s e held admits => ⟨step_inv held.1 e, step_aged held.1 held.2 e admits⟩
  have start : Aged (started ood).lastCall (started ood).ood.buf.nodes := by
    show Aged 0 (Buffer.unlinked.startUp : Buffer β).nodes
    rw [Buffer.startUp_nodes Buffer.counted_unlinked]
    exact List.Pairwise.nil
  exact (machine.run_invariant once es _ ⟨started_inv ood, start⟩ admissible).2

/-- **The hold rule.**  See the header. -/
theorem oodRun_holds (ood : Ood β) (es : List (OodEvent β)) (env : ProcEnv)
    (main : List (PacketNode β)) :
    let s := machine.run (started ood) es
    let captured := s.ood.capture env main
    let out := oodProcess env main s.ood
    (s.ood.buf.bufSize ≤ 50 ∧ captured.2.1.buf.bufSize ≤ 50) ∧
      (if s.ood.ripe (env.ticks 0) captured.2.1.buf then
        ∃ released, out.main = released ++ captured.2.1.main ∧
          released.Perm captured.2.1.buf.nodes ∧ out.state.buf.nodes = []
      else out.main = captured.2.1.main ∧ out.state.buf = captured.2.1.buf) ∧
      (machine.Admissible (started ood) (es ++ [.process env main]) →
        Holds (env.ticks 0) s.ood out.state.buf.nodes) := by
  intro s captured out
  have inv : s.Inv := run_inv ood es
  refine ⟨⟨?_, capture_bufSize_le inv env main⟩, oodProcess_release inv env main, ?_⟩
  · have size := inv.counted.1
    have below := inv.below
    omega
  · intro admissible
    obtain ⟨before, admits, -⟩ := (machine.admissible_append (started ood) es _).1 admissible
    have aged : Aged s.lastCall s.ood.buf.nodes := run_aged ood es before
    exact (oodProcess_holds inv env main aged admits).1

/-- Two packets captured 100 ms apart. -/
def twoCalls : List (OodEvent Unit) :=
  [.process (.still 100) [outgoing 0], .process (.still 200) [outgoing 1]]

/-- The hold rule 50 ms later. -/
theorem oodRun_holds_twoCalls :
    machine.Admissible (started .initial) (twoCalls ++ [.process (.still 250) []]) ∧
      Holds 250 (machine.run (started .initial) twoCalls).ood
        (oodProcess (.still 250) []
          (machine.run (started .initial) twoCalls).ood).state.buf.nodes := by
  have admissible :
      machine.Admissible (started .initial) (twoCalls ++ [.process (.still 250) []]) := by decide
  exact ⟨admissible, (oodRun_holds .initial twoCalls (.still 250) []).2.2 admissible⟩

/-- The next call comes when the tick has gone around to 150: the first packet seems
50 ms old, and the second, 2^32 - 50 ms old, stays. -/
theorem oodProcess_lapped :
    ¬∀ (ood : Ood Unit) (es : List (OodEvent Unit)) (env : ProcEnv) (main : List (PacketNode Unit)),
      Holds (env.ticks 0) (machine.run (started ood) es).ood
        (oodProcess env main (machine.run (started ood) es).ood).state.buf.nodes := by
  intro claim
  exact absurd (claim .initial twoCalls (.still 150) []) (by decide)

end OodRun

end Clumsy.Modules
