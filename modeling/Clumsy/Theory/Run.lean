/-
# Theory.Run -- runs of a guarded machine

A `Machine` is a deterministic step function together with the side condition an
event must meet at the state where it happens (a packet id is fresh, a session
is open).  `Admissible` is that condition along a whole run.  Both are stated
over arbitrary states and events; the capture pipeline and the module
lifecycle instantiate them.

An invariant is proved once, for one step (`run_invariant`); a two-state
relation that every step respects is carried along a run by `run_relation`, and a
relation between two machines by `run_simulates`.
-/
import Mathlib

namespace Clumsy.Theory

set_option autoImplicit false

universe u v

structure Machine (State : Type u) (Event : Type v) where
  step : State → Event → State
  /-- What an event promises about the state it meets. -/
  admits : State → Event → Prop

namespace Machine

variable {State : Type u} {Event : Type v} (M : Machine State Event)

def run (s : State) (es : List Event) : State := es.foldl M.step s

def Admissible : State → List Event → Prop
  | _, [] => True
  | s, e :: es => M.admits s e ∧ Admissible (M.step s e) es

instance decidableAdmissible [∀ s e, Decidable (M.admits s e)] :
    ∀ (s : State) (es : List Event), Decidable (M.Admissible s es)
  | _, [] => isTrue trivial
  | s, e :: es =>
      have := decidableAdmissible (M.step s e) es
      inferInstanceAs (Decidable (_ ∧ _))

@[simp] theorem run_nil (s : State) : M.run s [] = s := rfl

@[simp] theorem run_cons (s : State) (e : Event) (es : List Event) :
    M.run s (e :: es) = M.run (M.step s e) es := rfl

theorem run_append (s : State) (es fs : List Event) :
    M.run s (es ++ fs) = M.run (M.run s es) fs := List.foldl_append

theorem admissible_append (s : State) (es fs : List Event) :
    M.Admissible s (es ++ fs) ↔ M.Admissible s es ∧ M.Admissible (M.run s es) fs := by
  induction es generalizing s with
  | nil => simp [Admissible]
  | cons e es ih => simp only [List.cons_append, Admissible, ih, run_cons, and_assoc]

/-- Two side conditions at once. -/
theorem admissible_and {admits : State → Event → Prop} (es : List Event) {s : State}
    (first : M.Admissible s es) (second : Admissible ⟨M.step, admits⟩ s es) :
    Admissible ⟨M.step, fun s e => M.admits s e ∧ admits s e⟩ s es := by
  induction es generalizing s with
  | nil => trivial
  | cons e es ih => exact ⟨⟨first.1, second.1⟩, ih first.2 second.2⟩

/-- **The run lemma.**  What one admissible step preserves, a run preserves. -/
theorem run_invariant {Inv : State → Prop}
    (preserved : ∀ s e, Inv s → M.admits s e → Inv (M.step s e)) :
    ∀ (es : List Event) (s : State), Inv s → M.Admissible s es → Inv (M.run s es)
  | [], _, inv, _ => inv
  | e :: es, s, inv, admissible =>
      run_invariant preserved es (M.step s e) (preserved s e inv admissible.1) admissible.2

/-- The machine without its side condition. -/
def free : Machine State Event := { step := M.step, admits := fun _ _ => True }

@[simp] theorem run_free (s : State) (es : List Event) : M.free.run s es = M.run s es := rfl

theorem free_admissible (s : State) (es : List Event) : M.free.Admissible s es := by
  induction es generalizing s with
  | nil => trivial
  | cons e es ih => exact ⟨trivial, ih (M.step s e)⟩

/-- An invariant that needs nothing of the events holds along every run. -/
theorem run_invariant' {Inv : State → Prop} (preserved : ∀ s e, Inv s → Inv (M.step s e))
    (es : List Event) (s : State) (inv : Inv s) : Inv (M.run s es) := by
  induction es generalizing s with
  | nil => exact inv
  | cons e es ih => exact ih (M.step s e) (preserved s e inv)

/-- A reflexive and transitive relation that every step respects relates the two
ends of a run. -/
theorem run_relation {R : State → State → Prop} (refl : ∀ s, R s s)
    (trans : ∀ {s t u}, R s t → R t u → R s u) (respected : ∀ s e, R s (M.step s e))
    (es : List Event) (s : State) : R s (M.run s es) := by
  induction es generalizing s with
  | nil => exact refl s
  | cons e es ih => exact trans (respected s e) (ih (M.step s e))

/-- If, from a state in order, an event turns out well exactly when it was admitted, and
admitted events keep the order, then a run turns out well throughout exactly when it is
admissible. -/
theorem forall_step_iff_admissible {Inv : State → Prop} {Ok : State → Event → Prop}
    (exact_ : ∀ s e, Inv s → (Ok s e ↔ M.admits s e))
    (preserved : ∀ s e, Inv s → M.admits s e → Inv (M.step s e)) (es : List Event) {s : State}
    (inv : Inv s) :
    (∀ before e, before ++ [e] <+: es → Ok (M.run s before) e) ↔ M.Admissible s es := by
  induction es generalizing s with
  | nil => simp [Admissible]
  | cons e es ih =>
      constructor
      · intro well
        have here := (exact_ s e inv).1 (well [] e (by simp))
        refine ⟨here, (ih (preserved s e inv here)).1 fun before e' within => ?_⟩
        exact well (e :: before) e' (List.cons_prefix_cons.2 ⟨rfl, within⟩)
      · rintro ⟨here, rest⟩ before e' within
        cases before with
        | nil =>
            obtain rfl : e' = e := (List.cons_prefix_cons.1 within).1
            exact (exact_ s e' inv).2 here
        | cons e₀ before =>
            obtain ⟨rfl, later⟩ := List.cons_prefix_cons.1 within
            exact (ih (preserved s e₀ inv here)).2 rest before e' later

/-- **Sooner or later.**  If every event that finds the run not done lowers a rank, an endless
supply of events gets it done. -/
theorem exists_run_done {Inv Done : State → Prop} {α : Type*} {r : α → α → Prop}
    (wf : WellFounded r) (rank : State → α)
    (preserved : ∀ s e, Inv s → M.admits s e → Inv (M.step s e))
    (falls : ∀ s e, Inv s → M.admits s e → ¬Done s → r (rank (M.step s e)) (rank s))
    (events : Nat → Event) {s : State} (inv : Inv s)
    (admissible : ∀ n, M.Admissible s ((List.range n).map events)) :
    ∃ n, Done (M.run s ((List.range n).map events)) := by
  have from_ : ∀ (a : α) (events : Nat → Event) (s : State), rank s = a → Inv s →
      (∀ n, M.Admissible s ((List.range n).map events)) →
      ∃ n, Done (M.run s ((List.range n).map events)) := by
    intro a
    induction a using wf.induction with
    | _ a ih =>
        intro events s same inv admissible
        by_cases done : Done s
        · exact ⟨0, done⟩
        · have shift : ∀ n, (List.range (n + 1)).map events =
              events 0 :: (List.range n).map fun i => events (i + 1) := by
            intro n
            rw [List.range_succ_eq_map, List.map_cons, List.map_map]
            rfl
          have first := admissible 1
          rw [shift] at first
          have admitted := first.1
          have rest : ∀ n, M.Admissible (M.step s (events 0))
              ((List.range n).map fun i => events (i + 1)) := by
            intro n
            have whole := admissible (n + 1)
            rw [shift] at whole
            exact whole.2
          have lower := falls s (events 0) inv admitted done
          rw [same] at lower
          obtain ⟨n, ends⟩ := ih _ lower (fun i => events (i + 1)) (M.step s (events 0)) rfl
            (preserved s (events 0) inv admitted) rest
          refine ⟨n + 1, ?_⟩
          rw [shift]
          exact ends
  exact from_ (rank s) events s rfl inv admissible

/-- Two machines fed the same events stay related if every step relates them. -/
theorem run_simulates {State' : Type u} (N : Machine State' Event) {R : State → State' → Prop}
    (respected : ∀ s t e, R s t → R (M.step s e) (N.step t e)) (es : List Event) {s : State}
    {t : State'} (start : R s t) : R (M.run s es) (N.run t es) := by
  induction es generalizing s t with
  | nil => exact start
  | cons e es ih => exact ih (respected s t e start)

/-! ## Outputs -/

section Outputs

variable {α : Type*} (out : State → Event → α)

/-- What the events of a run give out, one by one. -/
def outputs : State → List Event → List α
  | _, [] => []
  | s, e :: es => out s e :: outputs (M.step s e) es

@[simp] theorem outputs_length (s : State) (es : List Event) :
    (M.outputs out s es).length = es.length := by
  induction es generalizing s with
  | nil => rfl
  | cons e es ih => simp [outputs, ih]

@[simp] theorem outputs_free (s : State) (es : List Event) :
    M.free.outputs out s es = M.outputs out s es := by
  induction es generalizing s with
  | nil => rfl
  | cons e es ih => exact congrArg (out s e :: ·) (ih (M.step s e))

/-- The output of an event is the one at the state its predecessors lead to. -/
theorem outputs_getElem? (s : State) (es : List Event) (k : Nat) :
    (M.outputs out s es)[k]? = es[k]?.map (out (M.run s (es.take k))) := by
  induction es generalizing s k with
  | nil => rfl
  | cons e es ih =>
      cases k with
      | zero => rfl
      | succ k => simpa [outputs] using ih (M.step s e) k

theorem outputs_take (s : State) (es : List Event) (k : Nat) :
    M.outputs out s (es.take k) = (M.outputs out s es).take k := by
  induction es generalizing s k with
  | nil => simp [outputs]
  | cons e es ih =>
      cases k with
      | zero => rfl
      | succ k => simp [outputs, ih]

theorem outputs_append (s : State) (es fs : List Event) :
    M.outputs out s (es ++ fs) = M.outputs out s es ++ M.outputs out (M.run s es) fs := by
  induction es generalizing s with
  | nil => rfl
  | cons e es ih => exact congrArg (out s e :: ·) (ih (M.step s e))

theorem outputs_comp {γ : Type*} (f : α → γ) (s : State) (es : List Event) :
    M.outputs (fun s e => f (out s e)) s es = (M.outputs out s es).map f := by
  induction es generalizing s with
  | nil => rfl
  | cons e es ih => simp [outputs, ih]

/-- A log every step adds to is in the end all that was added. -/
theorem outputs_log {γ : Type*} {Inv : State → Prop} (log : State → List γ)
    (adds : State → Event → List γ)
    (preserved : ∀ s e, Inv s → M.admits s e → Inv (M.step s e))
    (grows : ∀ s e, Inv s → M.admits s e → log (M.step s e) = log s ++ adds s e)
    (es : List Event) {s : State} (inv : Inv s) (admissible : M.Admissible s es) :
    log (M.run s es) = log s ++ (M.outputs adds s es).flatten := by
  induction es generalizing s with
  | nil => simp [outputs]
  | cons e es ih =>
      have rest := ih (preserved s e inv admissible.1) admissible.2
      simp only [outputs, List.flatten_cons, run_cons]
      rw [rest, grows s e inv admissible.1, List.append_assoc]

/-- **First in, first out.**  If every step takes from the front of a queue and adds at its
end, then over a run what came out and what is left are what was there and what came in. -/
theorem outputs_fifo {γ : Type*} {Inv : State → Prop} (queue : State → List γ)
    (sent queued : State → Event → List γ)
    (preserved : ∀ s e, Inv s → M.admits s e → Inv (M.step s e))
    (fifo : ∀ s e, Inv s → M.admits s e →
      sent s e ++ queue (M.step s e) = queue s ++ queued s e) (es : List Event) {s : State}
    (inv : Inv s) (admissible : M.Admissible s es) :
    (M.outputs sent s es).flatten ++ queue (M.run s es) =
      queue s ++ (M.outputs queued s es).flatten := by
  induction es generalizing s with
  | nil => simp [outputs]
  | cons e es ih =>
      have rest := ih (preserved s e inv admissible.1) admissible.2
      simp only [outputs, List.flatten_cons, run_cons, List.append_assoc]
      rw [rest, ← List.append_assoc, fifo s e inv admissible.1, List.append_assoc]

/-- **The amortised bound.**  If every step pays its cost out of a potential and what it
gains, the costs of a run are paid by what was there and what was gained. -/
theorem outputs_amortised {K : Type*} [AddCommGroup K] [LinearOrder K] [IsOrderedAddMonoid K]
    {Inv : State → Prop} (potential : State → K) (cost gain : State → Event → K)
    (nonneg : ∀ s, Inv s → 0 ≤ potential s)
    (preserved : ∀ s e, Inv s → M.admits s e → Inv (M.step s e))
    (pays : ∀ s e, Inv s → M.admits s e → potential (M.step s e) + cost s e ≤
      potential s + gain s e) (es : List Event) {s : State} (inv : Inv s)
    (admissible : M.Admissible s es) :
    (M.outputs cost s es).sum ≤ potential s + (M.outputs gain s es).sum := by
  induction es generalizing s with
  | nil => simpa [outputs] using nonneg s inv
  | cons e es ih =>
      have rest := ih (preserved s e inv admissible.1) admissible.2
      have here := pays s e inv admissible.1
      simp only [outputs, List.sum_cons]
      calc cost s e + (M.outputs cost (M.step s e) es).sum
          ≤ cost s e + (potential (M.step s e) + (M.outputs gain (M.step s e) es).sum) := by
            gcongr
        _ = potential (M.step s e) + cost s e + (M.outputs gain (M.step s e) es).sum := by abel
        _ ≤ potential s + gain s e + (M.outputs gain (M.step s e) es).sum := by gcongr
        _ = potential s + (gain s e + (M.outputs gain (M.step s e) es).sum) := by abel

end Outputs

end Machine

/-! ## First times -/

/-- If something happens by its cause until it has happened once, the first time it happens
is the first time its cause is there. -/
theorem first_iff_first {Happens Cause : Nat → Prop}
    (caused : ∀ k, (∀ j < k, ¬Happens j) → (Happens k ↔ Cause k)) (k : Nat) :
    (Happens k ∧ ∀ j < k, ¬Happens j) ↔ (Cause k ∧ ∀ j < k, ¬Cause j) := by
  have before : ∀ k, (∀ j < k, ¬Happens j) ↔ ∀ j < k, ¬Cause j := by
    intro k
    induction k with
    | zero => simp
    | succ k ih =>
        rw [Nat.forall_lt_succ_right, Nat.forall_lt_succ_right, ← ih]
        exact and_congr_right fun none => not_congr (caused k none)
  rw [← before k]
  exact and_congr_left (caused k)

end Clumsy.Theory
