/-
# Modules.ResetRun -- the budget of reset-next

Every accepted `reset-next` grants one RST, and `setNextCount` holds what has been granted
and not been set yet.  It is a `short` that `resetProcess` tests for non-zero and counts
down only while it is positive, so with 32768 outstanding it turns negative and every
packet gets RST; and the start-up in the first step clears it, with whatever was granted
before.  `reset_budget`: over every run in which neither happens the module stays within
its budget, and uses it up as soon as there are packets for it.

The RSTs of a call are counted by the module itself (`affectedCount`); `markFirst` says where
they stand on the main list, and `newRsts` reads off that list what carries RST only now.
-/
import Clumsy.Theory.Budget
import Clumsy.Modules.Rewrite
import Clumsy.Packet.Checksum

namespace Clumsy.Modules

open Clumsy.Theory
open Clumsy.Packet

set_option autoImplicit false

variable {β : Type}

namespace Reset

/-! ## One packet -/

/-- A packet `resetProcess` sets RST in, if it is to. -/
def eligible (reset : Reset) (pac : PacketNode β) : Bool :=
  reset.handles pac && decide (pac.packetLen ≥ packetMinTcpSize) &&
    (packetSetTcpRst pac.packet).isSome

theorem eligible_setNextCount (reset : Reset) (count : Int) (pac : PacketNode β) :
    ({ reset with setNextCount := count } : Reset).eligible pac = reset.eligible pac := rfl

/-- The packet with RST set, where that can be done. -/
def withRst (pac : PacketNode β) : PacketNode β :=
  (packetSetTcpRst pac.packet).elim pac (withPacket pac)

/-- The packets with RST set in the first `n` that are eligible. -/
def markFirst (reset : Reset) : Nat → List (PacketNode β) → List (PacketNode β)
  | _, [] => []
  | 0, main => main
  | n + 1, pac :: main =>
      if reset.eligible pac then withRst pac :: reset.markFirst n main
      else pac :: reset.markFirst (n + 1) main

/-- A TCP segment with the RST flag. -/
def carriesRst (pac : PacketNode β) : Bool :=
  let L := parse pac.packet
  decide L.IsTcp && decide (pac.packet.byteAt L.flagsOffset &&& TCP_FLAG_RST = TCP_FLAG_RST)

/-- The packets of a main list that carry RST after a call and did not before it. -/
def newRsts (main main' : List (PacketNode β)) : Nat :=
  (main.zip main').countP fun pacs => !carriesRst pacs.1 && carriesRst pacs.2

/-- `setNextCount` after one RST. -/
def countDown (setNextCount : Int) : Int :=
  if setNextCount > 0 then i2s (setNextCount - 1) else setNextCount

/-- **One packet.**  RST is set exactly in an eligible packet that was chosen; any other is
left alone, and so are the counts. -/
theorem rewrite_eq (reset : Reset) (s : Draws × Int × Nat) (pac : PacketNode β) :
    (reset.rewrite s pac).1.2 =
        (if reset.eligible pac && (reset.chosen s.1 s.2.1).1 then (countDown s.2.1, s.2.2 + 1)
        else s.2) ∧
      (reset.rewrite s pac).2 =
        if reset.eligible pac && (reset.chosen s.1 s.2.1).1 then withRst pac else pac := by
  obtain ⟨d, setNextCount, affected⟩ := s
  cases inside : reset.handles pac && decide (pac.packetLen ≥ packetMinTcpSize) with
  | false => simp [rewrite, eligible, inside]
  | true =>
      cases chosen : (reset.chosen d setNextCount).1 with
      | false => simp [rewrite, inside, chosen]
      | true =>
          cases set : packetSetTcpRst pac.packet with
          | none => simp [rewrite, eligible, inside, chosen, set]
          | some packet =>
              simp [rewrite, eligible, withRst, countDown, inside, chosen, set]

theorem isTcp_of_eligible {reset : Reset} {pac : PacketNode β}
    (eligible : reset.eligible pac = true) :
    (parse pac.packet).IsTcp ∧
      packetSetTcpRst pac.packet =
        some (packetRecalcChecksums ((parse pac.packet).flagged pac.packet)) := by
  have set := (Bool.and_eq_true_iff.1 eligible).2
  by_cases tcp : (parse pac.packet).IsTcp
  · refine ⟨tcp, ?_⟩
    rw [packetSetTcpRst_eq, setTcpRst_of_tcp tcp]
    rfl
  · rw [packetSetTcpRst_eq, setTcpRst_of_not_tcp tcp] at set
    cases set

/-- An eligible packet carries RST once it was set. -/
theorem carriesRst_withRst {reset : Reset} {pac : PacketNode β}
    (eligible : reset.eligible pac = true) : carriesRst (withRst pac) = true := by
  obtain ⟨tcp, set⟩ := isTcp_of_eligible eligible
  have packet : (withRst pac).packet =
      packetRecalcChecksums ((parse pac.packet).flagged pac.packet) := by
    rw [withRst, set]
    rfl
  have same := (parse_packetRecalcChecksums ((parse pac.packet).flagged pac.packet)).trans
    (parse_flagged tcp)
  have flag : ∀ b : UInt8, (b ||| TCP_FLAG_RST) &&& TCP_FLAG_RST = TCP_FLAG_RST := by decide +kernel
  simp only [carriesRst, packet, same, byteAt_flags tcp, flag, tcp, decide_true, Bool.and_self]

theorem markFirst_zero (reset : Reset) (main : List (PacketNode β)) :
    reset.markFirst 0 main = main := by
  cases main <;> rfl

/-- More than there are eligible packets cannot be marked. -/
theorem markFirst_min (reset : Reset) (n : Nat) (main : List (PacketNode β)) :
    reset.markFirst (min n (main.countP reset.eligible)) main = reset.markFirst n main := by
  induction main generalizing n with
  | nil => rfl
  | cons pac main ih =>
      cases n with
      | zero => rw [Nat.zero_min]
      | succ n =>
          cases eligible : reset.eligible pac with
          | true =>
              rw [List.countP_cons_of_pos eligible, Nat.succ_min_succ]
              simp only [markFirst, eligible, if_true, ih n]
          | false =>
              rw [List.countP_cons_of_neg (by simp [eligible])]
              have rest := ih (n + 1)
              cases fewer : min (n + 1) (main.countP reset.eligible) with
              | zero =>
                  rw [fewer, markFirst_zero] at rest
                  simp only [markFirst, eligible, Bool.false_eq_true, if_false, ← rest]
              | succ m =>
                  rw [fewer] at rest
                  simp only [markFirst, eligible, Bool.false_eq_true, if_false, rest]

/-- **What can be read off the list**: the marked packets that did not carry RST before. -/
theorem newRsts_markFirst (reset : Reset) (n : Nat) (main : List (PacketNode β)) :
    newRsts main (reset.markFirst n main) =
      ((main.filter reset.eligible).take n).countP fun pac => !carriesRst pac := by
  have unchanged : ∀ main : List (PacketNode β), newRsts main main = 0 := by
    intro main
    rw [newRsts, List.countP_eq_zero]
    intro pacs member
    obtain ⟨i, inside, rfl⟩ := List.getElem_of_mem member
    simp
  induction main generalizing n with
  | nil => cases n <;> rfl
  | cons pac main ih =>
      cases n with
      | zero => rw [markFirst_zero, unchanged, List.take_zero, List.countP_nil]
      | succ n =>
          cases eligible : reset.eligible pac with
          | true =>
              have marked := ih n
              simp only [newRsts] at marked
              simp only [markFirst, eligible, if_true, newRsts, List.zip_cons_cons,
                List.countP_cons, List.filter_cons, List.take_succ_cons, marked,
                carriesRst_withRst eligible, Bool.and_true]
          | false =>
              have marked := ih (n + 1)
              simp only [newRsts] at marked
              simp [markFirst, eligible, newRsts, marked]

theorem chosen_of_pending (reset : Reset) (d : Draws) {setNextCount : Int}
    (pending : setNextCount ≠ 0) : reset.chosen d setNextCount = (true, d) := by
  rw [chosen, if_pos pending]

/-- With a chance of 0 only triggers choose a packet. -/
theorem chosen_of_zero {reset : Reset} (zero : reset.chance.val = 0) (d : Draws)
    (setNextCount : Int) : (reset.chosen d setNextCount).1 = decide (setNextCount ≠ 0) := by
  unfold chosen
  split
  · rename_i pending
    simp [pending]
  · rename_i none
    simp only [calcChance, zero]
    rw [if_neg (by omega)]
    simp only [none, decide_false, decide_eq_false_iff_not]
    omega

/-! ## One call -/

theorem rewriteEach_ineligible {reset : Reset} {main : List (PacketNode β)}
    (none : ∀ pac ∈ main, reset.eligible pac = false) (s : Draws × Int × Nat) :
    (rewriteEach reset.rewrite s main).1.2 = s.2 ∧ (rewriteEach reset.rewrite s main).2 = main := by
  refine rewriteEach_idle reset.rewrite Prod.snd main s fun s pac member => ?_
  obtain ⟨counts, packet⟩ := reset.rewrite_eq s pac
  rw [none pac member, Bool.false_and, if_neg Bool.false_ne_true] at counts packet
  exact ⟨counts, packet⟩

/-- **The next eligible packet** gets RST if a trigger is outstanding. -/
theorem resetProcess_next {reset : Reset} (pending : reset.setNextCount ≠ 0)
    {xs : List (PacketNode β)} (none : ∀ pac ∈ xs, reset.eligible pac = false)
    {pac : PacketNode β} (eligible : reset.eligible pac = true) (ys : List (PacketNode β))
    (env : ProcEnv) :
    ∃ rest, (resetProcess env (xs ++ pac :: ys) reset).main = xs ++ withRst pac :: rest := by
  obtain ⟨counts, same⟩ := rewriteEach_ineligible none (env.draws, reset.setNextCount, 0)
  have outstanding := congrArg Prod.fst counts
  have chosen := (reset.rewrite_eq
    (rewriteEach reset.rewrite (env.draws, reset.setNextCount, 0) xs).1 pac).2
  rw [eligible, outstanding, reset.chosen_of_pending _ pending, Bool.and_self, if_pos rfl] at chosen
  generalize walked : rewriteEach reset.rewrite (env.draws, reset.setNextCount, 0) xs = first
    at same chosen
  refine ⟨(rewriteEach reset.rewrite (reset.rewrite first.1 pac).1 ys).2, ?_⟩
  show (rewriteEach reset.rewrite _ (xs ++ pac :: ys)).2 = _
  rw [rewriteEach_append, walked, same, rewriteEach, chosen]

/-- The number of packets a call sets RST in, by its own count. -/
def rstsSet (env : ProcEnv) (main : List (PacketNode β)) (reset : Reset) : Nat :=
  (resetProcess env main reset).state.affectedCount - reset.affectedCount

theorem rstsSet_eq (env : ProcEnv) (main : List (PacketNode β)) (reset : Reset) :
    reset.rstsSet env main =
      (rewriteEach reset.rewrite (env.draws, reset.setNextCount, 0) main).1.2.2 :=
  Nat.add_sub_cancel_left ..

/-- **A call spends what is outstanding**, on the first eligible packets. -/
theorem rewriteEach_spends {reset : Reset} (zero : reset.chance.val = 0)
    (main : List (PacketNode β)) (d : Draws) {count : Nat} (short : count ≤ 32767)
    (affected : Nat) :
    let used := min count (main.countP reset.eligible)
    let walked := rewriteEach reset.rewrite (d, (count : Int), affected) main
    walked.1.2 = (((count - used : Nat) : Int), affected + used) ∧
      walked.2 = reset.markFirst count main := by
  induction main generalizing d count affected with
  | nil => cases count <;> simp [rewriteEach, markFirst]
  | cons pac main ih =>
      obtain ⟨counts, packet⟩ := reset.rewrite_eq (d, (count : Int), affected) pac
      rw [chosen_of_zero zero] at counts packet
      rw [rewriteEach, packet]
      generalize (reset.rewrite (d, (count : Int), affected) pac).1 = s at counts ⊢
      obtain ⟨d', s⟩ := s
      rw [List.countP_cons]
      simp only at counts ⊢
      subst counts
      cases eligible : reset.eligible pac with
      | false =>
          obtain ⟨used, marked⟩ := ih d' short affected
          refine ⟨by simpa using used, ?_⟩
          cases count with
          | zero => simpa [markFirst, markFirst_zero] using marked
          | succ count => simpa [markFirst, eligible] using marked
      | true =>
          cases count with
          | zero =>
              obtain ⟨used, marked⟩ := ih d' (Nat.zero_le _) affected
              exact ⟨by simpa using used, by simpa [markFirst, markFirst_zero] using marked⟩
          | succ count =>
              have less : countDown ((count + 1 : Nat) : Int) = count := by
                rw [countDown, if_pos (by omega), i2s_of_range (by omega) (by omega)]
                omega
              have chosen : (true && decide (((count + 1 : Nat) : Int) ≠ 0)) = true := by
                simp only [Bool.true_and, decide_eq_true_eq]
                omega
              obtain ⟨used, marked⟩ := ih d' (show count ≤ 32767 by omega) (affected + 1)
              simp only [chosen, if_true, less, used, marked, markFirst, eligible, and_true,
                Prod.mk.injEq]
              omega

end Reset

/-! ## Runs -/

/-- What happens to the module while its enabled flag is set: steps of the capture loop, with
what `resetProcess` finds on the main list, and control writes. -/
inductive ResetEvent (β : Type) where
  | step (env : ProcEnv) (main : List (PacketNode β))
  | param (v : ResetParam)

/-- The module with its `lastEnabled`. -/
structure ResetRun where
  reset   : Reset
  started : Bool

namespace ResetRun

/-- The enabled flag has just been set. -/
def enabled (reset : Reset) : ResetRun := { reset, started := false }

/-- The statics `resetProcess` finds in a step. -/
def atProcess (s : ResetRun) : Reset := if s.started then s.reset else resetStartUp s.reset

def step (s : ResetRun) : ResetEvent β → ResetRun
  | .step env main => { reset := (resetProcess env main s.atProcess).state, started := true }
  | .param v => { s with reset := resetSetParam true s.reset v }

/-- Runs with a chance of 0. -/
def chanceless : Machine ResetRun (ResetEvent β) where
  step := step
  admits s _ := s.reset.chance.val = 0

/-- Triggers come after the start-up, and the count has room for them. -/
def roomy : Machine ResetRun (ResetEvent β) where
  step := step
  admits
    | s, .param (.next true) => s.started = true ∧ s.reset.setNextCount < 32767
    | _, _ => True

/-- An accepted trigger. -/
def triggers (_ : ResetRun) : ResetEvent β → Nat
  | .param (.next true) => 1
  | _ => 0

/-- The packets an event sets RST in. -/
def rsts (s : ResetRun) : ResetEvent β → Nat
  | .step env main => s.atProcess.rstsSet env main
  | .param _ => 0

/-- The packets that carry RST behind an event and did not before it. -/
def marked (s : ResetRun) : ResetEvent β → Nat
  | .step env main => Reset.newRsts main (resetProcess env main s.atProcess).main
  | .param _ => 0

/-- The eligible packets an event processes. -/
def eligibles (s : ResetRun) : ResetEvent β → Nat
  | .step _ main => main.countP s.atProcess.eligible
  | .param _ => 0

/-- Once started the count has not wrapped. -/
def Counting (s : ResetRun) : Prop :=
  s.started = true → 0 ≤ s.reset.setNextCount ∧ s.reset.setNextCount ≤ 32767

/-- The triggers still to be used; those from before the start-up never will be. -/
def outstanding (s : ResetRun) : Nat := if s.started then s.reset.setNextCount.toNat else 0

/-- **A step of the loop** uses what is outstanding. -/
theorem step_spends {s : ResetRun} (counting : s.Counting) (zero : s.reset.chance.val = 0)
    (env : ProcEnv) (main : List (PacketNode β)) :
    s.rsts (.step env main) = min s.outstanding (s.eligibles (.step env main)) ∧
      (s.step (.step env main)).reset.setNextCount =
        (s.outstanding - s.rsts (.step env main) : Nat) ∧
      s.outstanding ≤ 32767 ∧
      (resetProcess env main s.atProcess).main =
        s.atProcess.markFirst (s.rsts (.step env main)) main := by
  have found : s.atProcess.setNextCount = (s.outstanding : Nat) ∧ s.outstanding ≤ 32767 ∧
      s.atProcess.chance.val = 0 := by
    unfold atProcess outstanding
    cases started : s.started with
    | false => exact ⟨rfl, Nat.zero_le _, zero⟩
    | true =>
        obtain ⟨low, high⟩ := counting started
        simp only [if_true]
        omega
  obtain ⟨count, short, zero⟩ := found
  obtain ⟨spends, marks⟩ := Reset.rewriteEach_spends zero main env.draws short 0
  rw [← count] at spends marks
  have used : s.rsts (.step env main) = min s.outstanding (s.eligibles (.step env main)) := by
    have counted := congrArg Prod.snd spends
    rw [Nat.zero_add] at counted
    exact (s.atProcess.rstsSet_eq env main).trans counted
  refine ⟨used, ?_, short, ?_⟩
  · rw [used]
    exact congrArg Prod.fst spends
  · rw [used]
    exact marks.trans (s.atProcess.markFirst_min s.outstanding main).symm

theorem step_trigger {s : ResetRun} (counting : s.Counting) (started : s.started = true)
    (room : s.reset.setNextCount < 32767) :
    (s.step (.param (.next true) : ResetEvent β)).reset.setNextCount = s.reset.setNextCount + 1 := by
  have low := (counting started).1
  exact i2s_of_range (by omega) (by omega)

/-- Any other write leaves the count alone. -/
theorem step_param (s : ResetRun) {v : ResetParam} (other : v ≠ .next true) :
    (s.step (.param v : ResetEvent β)).reset.setNextCount = s.reset.setNextCount := by
  cases v with
  | next on =>
      cases on with
      | true => exact absurd rfl other
      | false => rfl
  | chance _ | inbound _ | outbound _ => rfl

/-- **The step lemma.**  The count does not wrap, and the books are kept. -/
theorem step_books {s : ResetRun} (counting : s.Counting) (e : ResetEvent β)
    (zero : chanceless.admits s e) (room : roomy.admits s e) :
    (s.step e).Counting ∧
      (s.step e).outstanding + s.rsts e = s.outstanding + s.triggers e := by
  cases e with
  | step env main =>
      obtain ⟨used, count, short, -⟩ := step_spends counting zero env main
      generalize next : s.step (.step env main) = t at count
      have started : t.started = true := by rw [← next]; rfl
      refine ⟨fun _ => by omega, ?_⟩
      show t.outstanding + _ = s.outstanding + 0
      rw [outstanding, if_pos started]
      omega
  | param v =>
      by_cases trigger : v = .next true
      · subst trigger
        obtain ⟨started, fits⟩ := room
        have count := @step_trigger β s counting started fits
        have low := (counting started).1
        generalize next : s.step (.param (.next true) : ResetEvent β) = t at count
        have still : t.started = true := by rw [← next]; exact started
        refine ⟨fun _ => by omega, ?_⟩
        show t.outstanding + 0 = s.outstanding + 1
        rw [outstanding, outstanding, if_pos still, if_pos started]
        omega
      · have count := @step_param β s v trigger
        have nothing : s.triggers (.param v : ResetEvent β) = 0 := by
          unfold triggers
          split
          · rename_i same
            cases same
            exact absurd rfl trigger
          · rfl
        generalize next : s.step (.param v : ResetEvent β) = t at count
        have same : t.started = s.started := by rw [← next]; rfl
        refine ⟨fun started => by rw [count]; exact counting (same ▸ started), ?_⟩
        rw [outstanding, outstanding, same, count, nothing]
        rfl

/-- Both at once. -/
def budgeted : Machine ResetRun (ResetEvent β) where
  step := step
  admits s e := chanceless.admits s e ∧ roomy.admits s e

/-- **Reset's budget**: triggers grant, eligible packets are the chances. -/
def budget : Budget (budgeted : Machine ResetRun (ResetEvent β)) Counting where
  balance := outstanding
  granted := triggers
  spent := rsts
  offered := eligibles
  preserved _ e counting admits := (step_books counting e admits.1 admits.2).1
  books _ e counting admits := (step_books counting e admits.1 admits.2).2
  spends s e counting admits _ := by
    cases e with
    | step env main => exact (step_spends counting admits.1 env main).1
    | param v => exact (Nat.min_zero _).symm

/-- **A step's packets**: those it set RST in are the first eligible ones. -/
theorem step_marks {s : ResetRun} (counting : s.Counting) (zero : s.reset.chance.val = 0)
    (env : ProcEnv) (main : List (PacketNode β)) :
    let n := s.rsts (.step env main)
    n ≤ main.countP s.atProcess.eligible ∧
      (resetProcess env main s.atProcess).main = s.atProcess.markFirst n main ∧
      s.marked (.step env main) =
        ((main.filter s.atProcess.eligible).take n).countP fun pac => !Reset.carriesRst pac := by
  obtain ⟨used, -, -, marks⟩ := step_spends counting zero env main
  refine ⟨by rw [used]; exact Nat.min_le_right _ _, marks, ?_⟩
  show Reset.newRsts main (resetProcess env main s.atProcess).main = _
  rw [marks, Reset.newRsts_markFirst]

theorem marked_le {s : ResetRun} (counting : s.Counting) (e : ResetEvent β)
    (zero : chanceless.admits s e) : s.marked e ≤ s.rsts e := by
  cases e with
  | step env main =>
      rw [(step_marks counting zero env main).2.2]
      exact List.countP_le_length.trans (List.length_take_le ..)
  | param v => exact le_refl 0

theorem marked_eq {s : ResetRun} (counting : s.Counting) (e : ResetEvent β)
    (zero : chanceless.admits s e)
    (plain : ∀ env main, e = .step env main → ∀ pac ∈ main, Reset.carriesRst pac = false) :
    s.marked e = s.rsts e := by
  cases e with
  | step env main =>
      obtain ⟨most, -, marked⟩ := step_marks counting zero env main
      have all : ∀ pac ∈ (main.filter s.atProcess.eligible).take (s.rsts (.step env main)),
          (!Reset.carriesRst pac) = true := by
        intro pac member
        have member := (List.mem_filter.1 (List.mem_of_mem_take member)).1
        rw [plain env main rfl pac member]
        rfl
      rw [marked, List.countP_eq_length.2 all, List.length_take, ← List.countP_eq_length_filter]
      exact Nat.min_eq_left most
  | param v => rfl

/-- What can be seen of a run's RSTs. -/
theorem run_marked (es : List (ResetEvent β)) {s : ResetRun} (counting : s.Counting)
    (admissible : budgeted.Admissible s es) :
    (chanceless.outputs marked s es).sum ≤ (chanceless.outputs rsts s es).sum ∧
      ((∀ env main, .step env main ∈ es → ∀ pac ∈ main, Reset.carriesRst pac = false) →
        chanceless.outputs marked s es = chanceless.outputs rsts s es) := by
  induction es generalizing s with
  | nil => exact ⟨le_refl 0, fun _ => rfl⟩
  | cons e es ih =>
      have zero := admissible.1.1
      obtain ⟨most, all⟩ := ih (step_books counting e zero admissible.1.2).1 admissible.2
      refine ⟨Nat.add_le_add (marked_le counting e zero) most, fun plain => ?_⟩
      have here := marked_eq counting e zero fun env main this =>
        plain env main (this ▸ List.mem_cons_self)
      have rest := all fun env main member => plain env main (List.mem_cons_of_mem e member)
      exact congrArg₂ List.cons here rest

/-- **The RST budget.**  From the moment reset is switched on, with a chance of 0 and while
the triggers come after the start-up and find room: no more packets get RST than triggers
were accepted, and as many once that many eligible packets came after the last trigger. -/
theorem reset_budget (reset : Reset) (es : List (ResetEvent β))
    (zero : chanceless.Admissible (enabled reset) es) (room : roomy.Admissible (enabled reset) es) :
    -- the packets of a call: RST is set in the first ones that are eligible
    (∀ before env main after, es = before ++ .step env main :: after →
      let s : ResetRun := chanceless.run (enabled reset) before
      let n := s.rsts (.step env main)
      n ≤ main.countP s.atProcess.eligible ∧
        (resetProcess env main s.atProcess).main = s.atProcess.markFirst n main ∧
        s.marked (.step env main) =
          ((main.filter s.atProcess.eligible).take n).countP fun pac => !Reset.carriesRst pac) ∧
      -- what can be seen on the main lists
      (chanceless.outputs marked (enabled reset) es).sum ≤
        (chanceless.outputs rsts (enabled reset) es).sum ∧
      ((∀ env main, .step env main ∈ es → ∀ pac ∈ main, Reset.carriesRst pac = false) →
        chanceless.outputs marked (enabled reset) es =
          chanceless.outputs rsts (enabled reset) es) ∧
      -- the budget
      (chanceless.outputs rsts (enabled reset) es).sum ≤
        (chanceless.outputs triggers (enabled reset) es).sum ∧
      ∀ before after, es = before ++ after →
        (chanceless.outputs triggers (chanceless.run (enabled reset) before) after).sum = 0 →
        (chanceless.outputs triggers (enabled reset) es).sum ≤
          (chanceless.outputs eligibles (chanceless.run (enabled reset) before) after).sum →
        (chanceless.outputs rsts (enabled reset) es).sum =
          (chanceless.outputs triggers (enabled reset) es).sum := by
  have counting : (enabled reset).Counting := fun started => absurd started Bool.false_ne_true
  have admissible : budgeted.Admissible (enabled reset) es := chanceless.admissible_and es zero room
  obtain ⟨most, all⟩ := run_marked es counting admissible
  refine ⟨?_, most, all, ?_⟩
  · rintro before env main after rfl
    obtain ⟨first, second⟩ := (budgeted.admissible_append _ before _).1 admissible
    exact step_marks (budgeted.run_invariant budget.preserved before _ counting first)
      second.1.1 env main
  have same (out : ResetRun → ResetEvent β → Nat) (s : ResetRun) (es : List (ResetEvent β)) :
      chanceless.outputs out s es = budgeted.outputs out s es :=
    (chanceless.outputs_free out s es).symm.trans (budgeted.outputs_free out s es)
  simp only [same]
  refine ⟨budget.spent_le_granted es counting admissible rfl, ?_⟩
  rintro before after rfl last enough
  rw [budgeted.outputs_append triggers, List.sum_append] at enough
  refine budget.spent_eq_granted before after counting admissible rfl last (le_trans ?_ enough)
  exact Nat.le_add_right _ _

/-- An outbound TCP segment. -/
def segment : PacketNode Unit :=
  createNode 0 bareAck { outbound := true, ipVersion := 4, loopback := false, impostor := false,
                         ifIdx := 2, subIfIdx := 0 } ()

theorem segment_eligible : Reset.initial.eligible segment = true := by decide

/-- A start-up, a trigger and a segment. -/
def onceRun : List (ResetEvent Unit) :=
  [.step (.still 0) [], .param (.next true), .step (.still 0) [segment]]

theorem segment_plain : Reset.carriesRst segment = false := by decide

theorem reset_budget_once :
    (chanceless.outputs marked (enabled .initial) onceRun).sum =
      (chanceless.outputs triggers (enabled .initial) onceRun).sum := by
  obtain ⟨-, -, seen, -, equal⟩ := reset_budget .initial onceRun ⟨rfl, rfl, rfl, trivial⟩
    ⟨trivial, ⟨rfl, by decide⟩, trivial, trivial⟩
  have plain : ∀ env main, .step env main ∈ onceRun →
      ∀ pac ∈ main, Reset.carriesRst pac = false := by
    intro env main member pac
    simp only [onceRun, List.mem_cons, List.not_mem_nil, or_false, reduceCtorEq, false_or,
      ResetEvent.step.injEq] at member
    rcases member with ⟨-, rfl⟩ | ⟨-, rfl⟩
    · exact fun none => absurd none List.not_mem_nil
    · intro one
      rw [List.mem_singleton.1 one]
      exact segment_plain
  rw [seen plain]
  exact equal [.step (.still 0) [], .param (.next true)] [.step (.still 0) [segment]] rfl rfl
    (by decide)

/-! ## More triggers than a short counts -/

/-- With a negative count every eligible packet is chosen. -/
theorem rewriteEach_negative (reset : Reset) (main : List (PacketNode β)) (d : Draws) {count : Int}
    (negative : count < 0) (affected : Nat) :
    (rewriteEach reset.rewrite (d, count, affected) main).2 =
      main.map fun pac => if reset.eligible pac then Reset.withRst pac else pac := by
  induction main generalizing d affected with
  | nil => rfl
  | cons pac main ih =>
      obtain ⟨counts, packet⟩ := reset.rewrite_eq (d, count, affected) pac
      rw [reset.chosen_of_pending d negative.ne, Bool.and_true] at counts packet
      rw [rewriteEach, packet]
      generalize (reset.rewrite (d, count, affected) pac).1 = s at counts ⊢
      obtain ⟨d', s⟩ := s
      -- nothing is counted down
      have stays : Reset.countDown count = count := if_neg (by omega)
      simp only [stays] at counts ⊢
      subst counts
      rw [List.map_cons]
      cases reset.eligible pac with
      | false => exact congrArg (_ :: ·) (ih d' affected)
      | true => exact congrArg (_ :: ·) (ih d' (affected + 1))

theorem i2s_add (a b : Int) : i2s (i2s a + b) = i2s (a + b) := Int.bmod_add_bmod

/-- Triggers add up in the count as far as a `short` holds them. -/
theorem run_triggers (n : Nat) (reset : Reset) :
    (chanceless : Machine ResetRun (ResetEvent β)).run
        { reset := { reset with setNextCount := i2s reset.setNextCount }, started := true }
        (List.replicate n (.param (.next true))) =
      { reset := { reset with setNextCount := i2s (reset.setNextCount + n) }, started := true } := by
  induction n generalizing reset with
  | zero => simp
  | succ n ih =>
      have once := ih { reset with setNextCount := reset.setNextCount + 1 }
      rw [List.replicate_succ, Machine.run_cons]
      have next : (chanceless : Machine ResetRun (ResetEvent β)).step
          { reset := { reset with setNextCount := i2s reset.setNextCount }, started := true }
          (.param (.next true)) =
          { reset := { reset with setNextCount := i2s (reset.setNextCount + 1) }
            started := true } := by
        show ({ reset := { reset with
            setNextCount := i2s (i2s reset.setNextCount + 1) }, started := true } : ResetRun) = _
        rw [i2s_add]
      rw [next, once]
      congr 3
      push_cast
      ring

/-- A run without writes to the chance keeps it. -/
theorem chanceless_of_unwritten (es : List (ResetEvent β)) {s : ResetRun}
    (zero : s.reset.chance.val = 0) (unwritten : ∀ v, .param (.chance v) ∉ es) :
    chanceless.Admissible s es := by
  induction es generalizing s with
  | nil => trivial
  | cons e es ih =>
      refine ⟨zero, ih ?_ fun v member => unwritten v (List.mem_cons_of_mem e member)⟩
      cases e with
      | step env main =>
          show s.atProcess.chance.val = 0
          unfold atProcess
          split <;> exact zero
      | param v =>
          show (resetSetParam true s.reset v).chance.val = 0
          unfold resetSetParam
          split
          · rename_i written
            exact absurd List.mem_cons_self (unwritten written)
          · exact zero
          · exact zero
          · split <;> exact zero

/-- A start-up, `n` triggers, and a step that finds `n + 1` segments. -/
def manyRun (n : Nat) : List (ResetEvent Unit) :=
  .step (.still 0) [] :: (List.replicate n (.param (.next true)) ++
    [.step (.still 0) (List.replicate (n + 1) segment)])

/-- With a negative count all of them are marked. -/
theorem marked_segments (n : Nat) {reset : Reset} (below : reset.setNextCount < 0)
    (all : reset.eligible segment = true) :
    marked { reset, started := true } (.step (.still 0) (List.replicate n segment)) = n := by
  have main : (resetProcess (.still 0) (List.replicate n segment) reset).main =
      List.replicate n (Reset.withRst segment) := by
    refine (rewriteEach_negative reset _ _ below _).trans ?_
    rw [List.map_replicate, if_pos all]
  show Reset.newRsts _ (resetProcess _ _ reset).main = n
  rw [main, Reset.newRsts, List.zip_replicate', List.countP_replicate, segment_plain,
    Reset.carriesRst_withRst all]
  rfl

theorem outputs_manyRun (n : Nat) (negative : i2s (n : Int) < 0) :
    (chanceless.outputs marked (enabled .initial) (manyRun n)).sum = n + 1 ∧
      (chanceless.outputs triggers (enabled .initial) (manyRun n)).sum = n := by
  have ones (s : ResetRun) : chanceless.outputs triggers s
      (List.replicate n (.param (.next true) : ResetEvent Unit)) = List.replicate n 1 := by
    clear negative
    induction n generalizing s with
    | zero => rfl
    | succ n ih => exact congrArg (1 :: ·) (ih _)
  have zeros (s : ResetRun) : chanceless.outputs marked s
      (List.replicate n (.param (.next true) : ResetEvent Unit)) = List.replicate n 0 := by
    clear negative ones
    induction n generalizing s with
    | zero => rfl
    | succ n ih => exact congrArg (0 :: ·) (ih _)
  have first : chanceless.step (enabled .initial) (.step (.still 0) [] : ResetEvent Unit) =
      { reset := { Reset.initial with setNextCount := i2s (0 : Int) }, started := true } := rfl
  have later := @run_triggers Unit n { Reset.initial with setNextCount := 0 }
  rw [Int.zero_add] at later
  generalize i2s (n : Int) = count at negative later
  have all := (Reset.initial.eligible_setNextCount count segment).trans segment_eligible
  have final := @marked_segments (n + 1) { Reset.initial with setNextCount := count } negative all
  constructor
  · have total : ∀ a b : Nat, (a :: (List.replicate n 0 ++ [b])).sum = a + b := by simp
    have none : marked (enabled .initial) (.step (.still 0) [] : ResetEvent Unit) = 0 := rfl
    rw [manyRun, Machine.outputs, chanceless.outputs_append, zeros, first, later, none]
    refine (total 0 _).trans ?_
    rw [final, Nat.zero_add]
  · rw [manyRun, Machine.outputs, chanceless.outputs_append, ones]
    simp [Machine.outputs, triggers]

/-- With 32768 triggers outstanding the count is negative, and 32769 packets get RST. -/
theorem reset_overspends :
    ¬∀ (reset : Reset) (es : List (ResetEvent Unit)), chanceless.Admissible (enabled reset) es →
      (chanceless.outputs marked (enabled reset) es).sum ≤
        (chanceless.outputs triggers (enabled reset) es).sum := by
  intro claim
  -- a numeral would be unfolded
  obtain ⟨n, many⟩ : ∃ n : Nat, n = 32768 := ⟨_, rfl⟩
  have negative : i2s (n : Int) < 0 := by
    rw [many]
    decide
  have quiet : chanceless.Admissible (enabled .initial) (manyRun n) := by
    refine chanceless_of_unwritten _ rfl fun v member => ?_
    simp [manyRun] at member
  have within := claim .initial (manyRun n) quiet
  obtain ⟨set, granted⟩ := outputs_manyRun n negative
  omega

end ResetRun

end Clumsy.Modules
