/-
# Console.Counts -- main.cpp: whose packets a report counts

A stop resets the counters when it has long released the lock, so the reset may fall into the
next session.  It can only take counts away, and only from a session that began while a stop was
still to end (`Ended.late`): any other is reported with exactly what its backend counted.  The
page a stop writes is written before that reset, and shows the session that was stopped unless a
new one has begun by then.  Counters are integers here, so on Windows, where they are LONGs, this
is about sessions of less than 2^31 packets.
-/
import Clumsy.Console.Coherent

namespace Clumsy.Console

open Clumsy.Theory
open Clumsy.Report

set_option autoImplicit false

/-- Counted less or the same, everywhere. -/
structure Totals.Within (t u : Totals) : Prop where
  captured : t.captured ≤ u.captured
  sent     : t.sent ≤ u.sent
  affected : ∀ m, t.affected m ≤ u.affected m

theorem Totals.Within.refl (t : Totals) : Totals.Within t t :=
  ⟨le_refl _, le_refl _, fun _ => le_refl _⟩

def Totals.Nonneg (t : Totals) : Prop := Totals.Within .zero t

/-- A place from which nothing follows for the books. -/
def Place.plain : Place → Bool
  | .startBackend .. | .stopLeave => false
  | _ => true

namespace Program

variable {args : Args} {s : Program}

theorem Work.count_within (work : Work) {t u : Totals} (within : Totals.Within t u) :
    Totals.Within (work.count t) (work.count u) where
  captured := Int.add_le_add_right within.captured _
  sent := Int.add_le_add_right within.sent _
  affected m := Int.add_le_add_right (within.affected m) _

theorem Work.count_grows (work : Work) (t : Totals) : Totals.Within t (work.count t) where
  captured := Int.le_add_of_nonneg_right (Int.natCast_nonneg _)
  sent := Int.le_add_of_nonneg_right (Int.natCast_nonneg _)
  affected _ := Int.le_add_of_nonneg_right (Int.natCast_nonneg _)

/-- The backend of a session has been started, and its report not closed. -/
def Counting (s : Program) : Prop := s.backend = true ∨ s.report.sessionActive = true

/-- A report of a session is honest: it shows at most what the backend counted, and all of it
unless the session began too early. -/
def Honest (final seen : Totals) (late : Bool) : Prop :=
  Totals.Within final seen ∧ (late = false → final = seen)

structure Counted (s : Program) : Prop where
  nonneg  : Totals.Nonneg s.totals
  seen    : Totals.Nonneg s.seen
  now     : s.Counting → Honest s.totals s.seen s.late
  quiet   : s.Counting → s.late = false → ∀ tail ∈ s.tails, tail.ofStop = false
  fresh   : ∀ filter procName combined,
    s.inside = some (.startBackend filter procName combined) → s.totals = .zero
  ended   : ∀ e ∈ s.ended, Honest e.final e.seen e.late
  final   : s.report.sessionActive = false → ∀ e ∈ s.ended.getLast?, s.report.final = e.final
  order   : s.ended.map Ended.number = List.range' 1 s.ended.length
  behind  : ∀ number, Tail.report number ∈ s.tails → 1 ≤ number ∧ number ≤ s.ended.length
  leaving : s.inside = some .stopLeave → s.ended ≠ []
  pages   : ∀ page ∈ s.pages, page.1 ≤ page.2.number ∧
    (page.1 = page.2.number → ∃ e ∈ s.ended, e.number = page.1 ∧ page.2.totals = e.final)

/-! ## What leaves the books alone -/

/-- All that the books are about. -/
def ledger (s : Program) : Totals × Totals × Bool × Totals × List Tail × List Ended ×
    List (Nat × Page) :=
  (s.totals, s.seen, s.late, s.report.final, s.tails, s.ended, s.pages)

theorem Counted.move (c : s.Counted) {s' : Program} (same : s'.ledger = s.ledger)
    (counting : s'.Counting → s.Counting)
    (idle : s'.report.sessionActive = false → s.report.sessionActive = false)
    (inside : s'.inside = s.inside ∨ ∀ place, s'.inside = some place → place.plain = true) :
    s'.Counted := by
  simp only [ledger, Prod.mk.injEq] at same
  obtain ⟨totals, seen, late, final, tails, ended, pages⟩ := same
  refine ⟨?_, ?_, ?_, ?_, ?_, ?_, ?_, ?_, ?_, ?_, ?_⟩
  · rw [totals]
    exact c.nonneg
  · rw [seen]
    exact c.seen
  · rw [totals, seen, late]
    exact fun now => c.now (counting now)
  · rw [late, tails]
    exact fun now => c.quiet (counting now)
  · rw [totals]
    intro filter procName combined here
    rcases inside with same | plain
    · exact c.fresh filter procName combined (same ▸ here)
    · exact absurd (plain _ here) Bool.false_ne_true
  · rw [ended]
    exact c.ended
  · rw [final, ended]
    exact fun quiet => c.final (idle quiet)
  · rw [ended]
    exact c.order
  · rw [tails, ended]
    exact c.behind
  · rw [ended]
    intro here
    rcases inside with same | plain
    · exact c.leaving (same ▸ here)
    · exact absurd (plain _ here) Bool.false_ne_true
  · rw [pages, ended]
    exact c.pages

/-- A statement with nothing to book that goes on to a plain place. -/
theorem Counted.pass (c : s.Counted) {s' : Program} (same : s'.ledger = s.ledger)
    (backend : s'.backend = true → s.Counting)
    (active : s'.report.sessionActive = s.report.sessionActive) {place : Place}
    (there : s'.inside = some place) (plain : place.plain = true) : s'.Counted := by
  refine c.move same (fun now => ?_) (by rw [active]; exact id) (.inr fun place' here => ?_)
  · rcases now with running | reporting
    · exact backend running
    · exact .inr (active ▸ reporting)
  · obtain rfl : place = place' := Option.some.inj (there.symm.trans here)
    exact plain

theorem notes_final (clock : Nat) (notes : List (List Char)) (r : Session) :
    (notes.foldl (fun r text => reportNoteEvent text clock r) r).final = r.final := by
  induction notes generalizing r with
  | nil => rfl
  | cons text notes ih =>
      refine (ih (reportNoteEvent text clock r)).trans ?_
      unfold reportNoteEvent
      split <;> rfl

theorem reportTick_final (totals : Totals) (clock : Nat) (r : Session) :
    (reportTick clock totals r).final = r.final := by
  unfold reportTick
  split_ifs <;> rfl

/-! ## The statements that book -/

theorem Counted.startReset (c : s.Counted) (ok : s.Steady) {filter procName combined : List Char}
    (here : s.inside = some (.startReset filter procName combined)) (env : Env) :
    (s.advance args env (.startReset filter procName combined)).Counted := by
  obtain ⟨-, backend, reporting⟩ := ok.switched here rfl
  have still : ¬s.Counting := by
    unfold Counting
    simp [backend, reporting]
  exact { c with
    nonneg := .refl _
    now := fun now => absurd now still
    quiet := fun now => absurd now still
    fresh := fun _ _ _ _ => rfl
    leaving := nofun }

theorem Counted.startBackend (c : s.Counted) {filter procName combined : List Char}
    (here : s.inside = some (.startBackend filter procName combined)) (env : Env) :
    (s.advance args env (.startBackend filter procName combined)).Counted := by
  have zero := c.fresh _ _ _ here
  unfold Program.advance
  cases env.failure with
  | some message => exact c.pass rfl .inl rfl rfl rfl
  | none =>
      refine { c with
        seen := .refl _
        now := fun _ => ?_
        quiet := fun _ early => ?_
        fresh := nofun
        leaving := nofun }
      · show Honest s.totals .zero _
        rw [zero]
        exact ⟨.refl _, fun _ => rfl⟩
      · exact fun tail member => by simpa using List.any_eq_false.1 early tail member

theorem Counted.startReport (c : s.Counted) (ok : s.Steady) {filter combined : List Char}
    (here : s.inside = some (.startReport filter combined)) (env : Env) :
    (s.advance args env (.startReport filter combined)).Counted := by
  obtain ⟨-, backend, -⟩ := ok.switched here rfl
  have active : (s.advance args env (.startReport filter combined)).report.sessionActive = true :=
    reportNoteEvent_active _ _ _
  exact { c with
    now := fun _ => c.now (.inl backend)
    quiet := fun _ => c.quiet (.inl backend)
    fresh := nofun
    final := fun over_ => by rw [active] at over_; cases over_
    leaving := nofun }

theorem Counted.startLeave (c : s.Counted) (filter : List Char) (env : Env) :
    (s.advance args env (.startLeave filter)).Counted := by
  refine { c with
    quiet := fun now early tail member => ?_
    fresh := nofun
    behind := fun number member => ?_
    leaving := nofun }
  · rcases List.mem_append.1 member with old | new
    · exact c.quiet now early tail old
    · rw [List.mem_singleton.1 new]
      rfl
  · rcases List.mem_append.1 member with old | new
    · exact c.behind number old
    · cases List.mem_singleton.1 new

theorem Counted.stopReport (c : s.Counted) (ok : s.Steady)
    (here : s.inside = some .stopReport) (env : Env) :
    (s.advance args env .stopReport).Counted := by
  obtain ⟨-, backend, reporting⟩ := ok.switched here rfl
  have honest := c.now (.inr reporting)
  have stopped : (s.advance args env .stopReport).report =
      { reportNoteEvent "session stopped".toList s.clock s.report with
        sessionEndTick := Theory.Clock.tickAt (s.clock + env.pause)
        final := s.totals
        sessionActive := false } := by
    show reportSessionStop _ _ _ _ = _
    rw [reportSessionStop, if_neg (by simp [reporting])]
  have still : ¬(s.advance args env .stopReport).Counting := by
    unfold Counting
    rw [stopped]
    rintro (running | active)
    · exact absurd (backend.symm.trans running) Bool.false_ne_true
    · exact absurd active Bool.false_ne_true
  refine ⟨c.nonneg, c.seen, fun now => absurd now still, fun now => absurd now still, ?_, ?_, ?_,
    ?_, ?_, ?_, ?_⟩
  · intro _ _ _ starting
    cases starting
  · intro e member
    rcases List.mem_append.1 member with old | new
    · exact c.ended e old
    · rw [List.mem_singleton.1 new]
      exact honest
  · intro _ e last
    have same : (s.ended ++ [_]).getLast? = some e := last
    rw [List.getLast?_concat] at same
    rw [stopped, ← Option.some.inj same]
  · show (s.ended ++ [_]).map Ended.number = List.range' 1 (s.ended ++ [_]).length
    rw [List.map_append, c.order, List.length_append, List.map_singleton, List.length_singleton,
      List.range'_concat, ok.numbered, reporting, if_pos rfl]
    show _ ++ [s.ended.length + 1] = _ ++ [1 + 1 * s.ended.length]
    rw [Nat.one_mul, Nat.add_comm]
  · intro number member
    obtain ⟨low, high⟩ := c.behind number member
    exact ⟨low, high.trans (by show _ ≤ (s.ended ++ [_]).length; simp)⟩
  · intro _
    exact List.append_ne_nil_of_right_ne_nil _ (List.cons_ne_nil _ _)
  · intro page member
    obtain ⟨le, same⟩ := c.pages page member
    refine ⟨le, fun this => ?_⟩
    obtain ⟨e, there, number, totals⟩ := same this
    exact ⟨e, List.mem_append_left _ there, number, totals⟩

theorem Counted.stopLeave (c : s.Counted) (ok : s.Steady) (here : s.inside = some .stopLeave)
    (env : Env) : (s.advance args env .stopLeave).Counted := by
  obtain ⟨-, backend, reporting⟩ := ok.switched here rfl
  have still : ¬s.Counting := by
    unfold Counting
    simp [backend, reporting]
  refine { c with
    now := fun now => absurd now still
    quiet := fun now => absurd now still
    fresh := nofun
    behind := fun number member => ?_
    leaving := nofun }
  rcases List.mem_append.1 member with old | new
  · exact c.behind number old
  · obtain rfl := Tail.report.inj (List.mem_singleton.1 new)
    have some_ := List.length_pos_iff.2 (c.leaving here)
    have numbered := ok.numbered
    rw [reporting] at numbered
    show 1 ≤ s.report.number ∧ s.report.number ≤ s.ended.length
    simp only [Bool.false_eq_true, if_false] at numbered
    omega

theorem Counted.advance (c : s.Counted) (ok : s.Steady) {place : Place}
    (here : s.inside = some place) (env : Env) : (s.advance args env place).Counted := by
  cases place with
  | startReset filter procName combined => exact c.startReset ok here env
  | startBackend filter procName combined => exact c.startBackend here env
  | startFlag filter procName combined => exact c.pass rfl .inl rfl rfl rfl
  | startReport filter combined => exact c.startReport ok here env
  | startLog filter => exact c.pass rfl .inl rfl rfl rfl
  | startPcap filter => exact c.pass rfl .inl rfl rfl rfl
  | startScenario filter => exact c.pass rfl .inl rfl rfl rfl
  | startLeave filter => exact c.startLeave filter env
  | stopScenario => exact c.pass rfl .inl rfl rfl rfl
  | stopBackend => exact c.pass rfl nofun rfl rfl rfl
  | stopFlag => exact c.pass rfl .inl rfl rfl rfl
  | stopModules => exact c.pass rfl .inl rfl rfl rfl
  | stopLog => exact c.pass rfl .inl rfl rfl rfl
  | stopPcap => exact c.pass rfl .inl rfl rfl rfl
  | stopReport => exact c.stopReport ok here env
  | stopLeave => exact c.stopLeave ok here env
  | tickScenario =>
      refine c.pass ?_ .inl (notes_same _ _ _).1 rfl rfl
      show (_, _, _, Session.final _, _) = s.ledger
      rw [show (s.advance args env .tickScenario).report.final = s.report.final from
        notes_final _ _ _]
      rfl
  | tickLog => exact c.pass rfl .inl rfl rfl rfl
  | tickReport =>
      refine c.pass ?_ .inl (reportTick_same _ _ _).1 rfl rfl
      show (_, _, _, Session.final _, _) = s.ledger
      rw [show (s.advance args env .tickReport).report.final = s.report.final from
        reportTick_final _ _ _]
      rfl
  | leave => exact c.move rfl id id (.inr nofun)

/-! ## Outside the sections -/

theorem Counted.works (c : s.Counted) (ok : s.Steady) (running : s.backend = true) (work : Work) :
    (s.work args work).Counted := by
  obtain ⟨within, all⟩ := c.now (.inl running)
  exact { c with
    nonneg := ⟨c.nonneg.captured.trans (Work.count_grows work _).captured,
      c.nonneg.sent.trans (Work.count_grows work _).sent,
      fun m => (c.nonneg.affected m).trans ((Work.count_grows work _).affected m)⟩
    seen := ⟨c.seen.captured.trans (Work.count_grows work _).captured,
      c.seen.sent.trans (Work.count_grows work _).sent,
      fun m => (c.seen.affected m).trans ((Work.count_grows work _).affected m)⟩
    now := fun _ => ⟨Work.count_within work within, fun early => congrArg work.count (all early)⟩
    fresh := fun _ _ _ here => absurd ((ok.switched here rfl).2.1.symm.trans running)
      Bool.false_ne_true }

/-- A thread that goes on has nothing left to do that it had not before. -/
theorem Counted.shorten (c : s.Counted) {tails : List Tail}
    (stops : ∀ tail ∈ tails, tail.ofStop = true → ∃ old ∈ s.tails, old.ofStop = true)
    (reports : ∀ number, Tail.report number ∈ tails → Tail.report number ∈ s.tails) :
    Counted { s with tails } :=
  { c with
    quiet := fun now early tail member => by
      by_contra ofStop
      obtain ⟨old, there, also⟩ := stops tail member (Bool.not_eq_false _ ▸ ofStop)
      exact absurd ((c.quiet now early old there).symm.trans also) Bool.false_ne_true
    behind := fun number member => c.behind number (reports number member) }

theorem next_ofStop {tail next : Tail} (member : next ∈ tail.next) :
    tail.ofStop = true ∧ ∀ number, next ≠ .report number := by
  cases tail with
  | announce filter => cases member
  | report number =>
      rw [List.mem_singleton.1 member]
      exact ⟨rfl, nofun⟩
  | stopped =>
      rw [List.mem_singleton.1 member]
      exact ⟨rfl, nofun⟩
  | reset => cases member

theorem Counted.resets (c : s.Counted) (pending : Tail.reset ∈ s.tails) : s.statsReset.Counted :=
  { c with
    nonneg := .refl _
    now := fun now => by
      refine ⟨c.seen, fun early => ?_⟩
      -- a session that began with no stop to end has none of them to wait for
      exact absurd (c.quiet now early _ pending).symm (by decide)
    fresh := fun _ _ _ _ => rfl }

/-- The page of a stop, with the session it finds. -/
theorem Counted.page (c : s.Counted) (ok : s.Steady) {number : Nat}
    (pending : Tail.report number ∈ s.tails) :
    number ≤ (s.report.page s.clock s.totals).number ∧
      (number = (s.report.page s.clock s.totals).number →
        ∃ e ∈ s.ended, e.number = number ∧ (s.report.page s.clock s.totals).totals = e.final) := by
  obtain ⟨low, high⟩ := c.behind number pending
  have numbered := ok.numbered
  have known : (s.report.page s.clock s.totals).number = s.report.number := rfl
  rw [known]
  refine ⟨by split at numbered <;> omega, fun same => ?_⟩
  have over_ : s.report.sessionActive = false := by
    by_contra active
    rw [if_pos (Bool.not_eq_false _ ▸ active)] at numbered
    omega
  simp only [over_, Bool.false_eq_true, if_false] at numbered
  have whole : number = s.ended.length := same.trans numbered
  have some_ : s.ended ≠ [] := List.length_pos_iff.1 (by omega)
  have last := List.getLast?_eq_some_getLast some_
  refine ⟨s.ended.getLast some_, List.getLast_mem some_, ?_, ?_⟩
  · have numbers := congrArg List.getLast? c.order
    rw [List.getLast?_map, last, Option.map_some, List.getLast?_range'] at numbers
    split at numbers
    · cases numbers
    · have this := Option.some.inj numbers
      omega
  · show (if s.report.sessionActive = true then s.totals else s.report.final) = _
    rw [over_]
    exact c.final over_ _ last

theorem Counted.perform (c : s.Counted) (ok : s.Steady) (opens : Bool) {tail : Tail}
    (pending : tail ∈ s.tails) : (s.perform args opens tail).Counted := by
  cases tail with
  | announce filter => exact c.move rfl id id (.inl rfl)
  | report number =>
      unfold Program.perform writeReport
      cases args.reportOut with
      | none => exact c
      | some path =>
          simp only
          split_ifs
          · exact c
          · refine { c with pages := fun page member => ?_ }
            rcases List.mem_append.1 member with old | new
            · exact c.pages page old
            · rw [List.mem_singleton.1 new]
              exact c.page ok pending
  | stopped => exact c.move rfl id id (.inl rfl)
  | reset => exact c.resets pending

theorem perform_tails (opens : Bool) (tail : Tail) :
    (s.perform args opens tail).tails = s.tails := by
  cases tail with
  | announce filter => rfl
  | report number =>
      unfold Program.perform writeReport
      cases args.reportOut with
      | none => rfl
      | some path =>
          simp only
          split_ifs <;> rfl
  | stopped => rfl
  | reset => rfl

theorem Counted.finish (c : s.Counted) (ok : s.Steady) (opens : Bool) (i : Nat) :
    (s.finish args opens i).Counted := by
  unfold Program.finish
  cases found : s.tails[i]? with
  | none => exact c
  | some tail =>
      have pending : tail ∈ s.tails := List.mem_of_getElem? found
      have performed : (s.perform args opens tail).Counted := c.perform ok opens pending
      refine performed.shorten ?_ ?_
      · rw [perform_tails]
        intro next member ofStop
        rcases List.mem_append.1 member with front | behind
        · rcases List.mem_append.1 front with old | new
          · exact ⟨next, List.mem_of_mem_take old, ofStop⟩
          · exact ⟨tail, pending, (next_ofStop new).1⟩
        · exact ⟨next, List.mem_of_mem_drop behind, ofStop⟩
      · rw [perform_tails]
        intro number member
        rcases List.mem_append.1 member with front | behind
        · rcases List.mem_append.1 front with old | new
          · exact List.mem_of_mem_take old
          · exact absurd rfl ((next_ofStop new).2 number)
        · exact List.mem_of_mem_drop behind

theorem Counted.step (c : s.Counted) (ok : s.Steady) (e : Event)
    (admitted : (machine args).admits s e) : (s.step args e).Counted := by
  cases e with
  | start filter procName isAdmin scan =>
      refine c.move rfl id id (.inr fun place here => ?_)
      obtain rfl := Option.some.inj here
      unfold startsAt
      split <;> rfl
  | stop =>
      refine c.move rfl id id (.inr fun place here => ?_)
      obtain rfl := Option.some.inj here
      unfold stopsAt
      split <;> rfl
  | loop =>
      refine c.move rfl id id (.inr fun place here => ?_)
      obtain rfl := Option.some.inj here
      unfold loopsAt
      split <;> rfl
  | advance env =>
      unfold Program.step
      cases here : s.inside with
      | none => exact c
      | some place => exact c.advance ok here env
  | finish opens i => exact c.finish ok opens i
  | work work => exact c.works ok admitted work
  | scenarioLoad json => exact c.move rfl id id (.inl rfl)
  | scenarioStart => exact c.move rfl id id (.inl rfl)
  | scenarioStop => exact c.move rfl id id (.inl rfl)
  | pcapStart path maxPackets maxBytes disk => exact c.move rfl id id (.inl rfl)
  | pcapStop => exact c.move rfl id id (.inl rfl)
  | wait ms => exact c.move rfl id id (.inl rfl)

theorem initial_counted (clock : Nat) (player : Scenario.Player) :
    (initial clock player).Counted where
  nonneg := .refl _
  seen := .refl _
  now := by rintro (running | active) <;> contradiction
  quiet := by rintro (running | active) <;> contradiction
  fresh := nofun
  ended _ member := absurd member List.not_mem_nil
  final _ _ last := nomatch last
  order := rfl
  behind _ member := absurd member List.not_mem_nil
  leaving := nofun
  pages _ member := absurd member List.not_mem_nil

/-- **Whose packets a report counts.**  In every interleaving, a session that began with no stop
still to end is reported with exactly what its backend counted, any other with at most that; and
the page that a stop writes shows the session it stopped with these counters, or a later one. -/
theorem sessions_counted (clock : Nat) (player : Scenario.Player) (es : List Event)
    (admissible : (machine args).Admissible (initial clock player) es) :
    (∀ e ∈ ((machine args).run (initial clock player) es).ended, Honest e.final e.seen e.late) ∧
      ∀ page ∈ ((machine args).run (initial clock player) es).pages, page.1 ≤ page.2.number ∧
        (page.1 = page.2.number →
          ∃ e ∈ ((machine args).run (initial clock player) es).ended,
            e.number = page.1 ∧ page.2.totals = e.final) := by
  have preserved : ∀ s e, Steady s ∧ Counted s → (machine args).admits s e →
      Steady ((machine args).step s e) ∧ Counted ((machine args).step s e) :=
    fun _ e ok admitted => ⟨ok.1.step e admitted, ok.2.step ok.1 e admitted⟩
  have both := (machine args).run_invariant preserved es _
    ⟨initial_steady clock player, initial_counted clock player⟩ admissible
  exact ⟨both.2.ended, both.2.pages⟩

theorem sessions_counted_late :
    (((machine reporting).run (initial 0 .initial) lateRun).ended.map fun e =>
        (e.late, e.seen.captured, e.final.captured)) = [(false, 5, 5), (true, 3, 0)] ∧
      ∀ e ∈ ((machine reporting).run (initial 0 .initial) lateRun).ended,
        Honest e.final e.seen e.late :=
  ⟨rfl, (sessions_counted 0 .initial lateRun lateRun_admissible).1⟩

end Program

end Clumsy.Console
