/-
# Profiles.Names -- profile.cpp: what a name stands for

`profileSaveCurrent` looks a name up in full and stores what fits of it.  A name that was cut
is not found again: saving it twice makes two profiles of one name, and `profileApply` and
`profileDelete` do not know it.  The names identify the profiles along a run just if no save
stores a name that was cut (`names_identify_iff`).
-/
import Clumsy.Profiles.File
import Clumsy.Theory.Keyed
import Clumsy.Theory.Run

namespace Clumsy.Profiles

open Clumsy.Theory
open Clumsy.Theory.Keyed (put Splits splits_or split_put put_splits put_absent put_distinct
  eraseIdx_distinct length_put)
open Clumsy.Modules

set_option autoImplicit false

variable {β : Type}

/-- A call that changes the array. -/
inductive Call (β : Type) where
  | save (name : List Char) (s : Settings β)
  | delete (name : List Char)

/-- A call that fails leaves the array as it is. -/
def called (profiles : List Profile) : Call β → List Profile
  | .save name s => (profileSaveCurrent name s profiles).getD profiles
  | .delete name => (profileDelete name profiles).getD profiles

/-- The array has no two profiles of one name. -/
def DistinctNames (profiles : List Profile) : Prop := Keyed.Distinct Profile.name profiles

/-- Both `profileApply` and `profileDelete` take the name for this profile. -/
def Finds (name : List Char) (p : Profile) (profiles : List Profile) : Prop :=
  (∀ later : Settings β, profileApply name profiles later = some (applyAll p.params later)) ∧
    ∃ before after, profiles = before ++ p :: after ∧
      profileDelete name profiles = some (before ++ after)

/-- Saving again under the same name makes no further profile. -/
def SavesOnce (name : List Char) (s : Settings β) (profiles : List Profile) : Prop :=
  ∀ again : Settings β,
    (called (called profiles (.save name s)) (.save name again)).length =
      (called profiles (.save name s)).length

/-- What a call promises of the names. -/
def Identifies (profiles : List Profile) : Call β → Prop
  | .save name s => DistinctNames (called profiles (.save name s)) ∧ SavesOnce name s profiles ∧
      ∀ profiles', profileSaveCurrent name s profiles = some profiles' →
        Finds (β := β) name (snapshot name s) profiles'
  | .delete name => DistinctNames (called (β := β) profiles (.delete name))

/-- The name is stored whole, or there is no room for it. -/
def Fits (profiles : List Profile) : Call β → Prop
  | .save name _ => name.length < PROFILE_NAME_SIZE ∨ MAX_PROFILES ≤ profiles.length
  | .delete _ => True

def registry (β : Type) : Machine (List Profile) (Call β) := { step := called, admits := Fits }

/-! ## One call -/

/-- A save that succeeds writes over the profile of that name or behind all others. -/
theorem profileSaveCurrent_put {name : List Char} {s : Settings β}
    {profiles profiles' : List Profile}
    (done : profileSaveCurrent name s profiles = some profiles') :
    profiles' = put Profile.name name (snapshot name s) profiles := by
  rw [profileSaveCurrent] at done
  rw [put]
  cases found : profiles.findIdx? fun p => p.name == name with
  | some i =>
      rw [found] at done
      simp only
      exact (Option.some.inj done).symm
  | none =>
      rw [found] at done
      simp only at done ⊢
      split at done
      · cases done
      · exact (Option.some.inj done).symm

/-- It fails just for a new name that finds the array full. -/
theorem profileSaveCurrent_eq_none {name : List Char} {s : Settings β}
    {profiles : List Profile} :
    profileSaveCurrent name s profiles = none ↔
      (∀ p ∈ profiles, p.name ≠ name) ∧ MAX_PROFILES ≤ profiles.length := by
  have absent : (profiles.findIdx? fun p => p.name == name) = none ↔
      ∀ p ∈ profiles, p.name ≠ name := by
    simp
  rw [profileSaveCurrent, ← absent]
  cases profiles.findIdx? fun p => p.name == name <;> simp

/-- A name that is too long is new to the array. -/
theorem absent_long {name : List Char} (long : PROFILE_NAME_SIZE ≤ name.length)
    (profiles : List Profile) : ∀ p ∈ profiles, p.name ≠ name := by
  simpa using find?_long long profiles

theorem finds_of_splits {name : List Char} {p : Profile} {profiles before after : List Profile}
    (splits : Splits Profile.name name before p after profiles) :
    Finds (β := β) name p profiles := by
  refine ⟨fun later => ?_, before, after, splits.whole, ?_⟩
  · rw [profileApply, splits.find?]
    rfl
  · rw [profileDelete, splits.findIdx?, Option.map_some, splits.eraseIdx]

/-- A name that is too long is found nowhere. -/
theorem not_finds_long {name : List Char} (long : PROFILE_NAME_SIZE ≤ name.length) (p : Profile)
    (profiles : List Profile) (later : Settings β) : ¬Finds (β := β) name p profiles := by
  rintro ⟨applies, -⟩
  have applied := applies later
  rw [profileApply, find?_long long] at applied
  cases applied

theorem profileDelete_distinct {name : List Char} {profiles : List Profile}
    (distinct : DistinctNames profiles) :
    DistinctNames (called (β := β) profiles (.delete name)) := by
  rw [called, profileDelete]
  cases profiles.findIdx? fun p => p.name == name with
  | some i => exact eraseIdx_distinct distinct i
  | none => exact distinct

/-- A save under a name that is stored whole. -/
theorem identifies_short {name : List Char} {s : Settings β} {profiles profiles' : List Profile}
    (short : name.length < PROFILE_NAME_SIZE) (distinct : DistinctNames profiles)
    (done : profileSaveCurrent name s profiles = some profiles') :
    Identifies profiles (.save name s) := by
  have own (s : Settings β) : (snapshot name s).name = name := snapshot_name short s
  have once : called profiles (.save name s) = profiles' := by
    rw [called, done]
    rfl
  have written := profileSaveCurrent_put done
  obtain ⟨before, after, splits⟩ := split_put (own s) profiles
  rw [← written] at splits
  refine ⟨?_, fun again => ?_, fun profiles'' done' => ?_⟩
  · rw [once, written]
    exact put_distinct (own s) distinct
  · rw [once, called]
    cases twice : profileSaveCurrent name again profiles' with
    | none => rfl
    | some profiles'' =>
        rw [Option.getD_some, profileSaveCurrent_put twice]
        exact length_put splits
  · rw [done] at done'
    rw [← Option.some.inj done']
    exact finds_of_splits splits

/-- A save that fails. -/
theorem identifies_full {name : List Char} {s : Settings β} {profiles : List Profile}
    (distinct : DistinctNames profiles) (failed : profileSaveCurrent name s profiles = none) :
    Identifies profiles (.save name s) := by
  have once : called profiles (.save name s) = profiles := by
    rw [called, failed]
    rfl
  refine ⟨?_, fun again => ?_, fun profiles' done => ?_⟩
  · rwa [once]
  · rw [once, called, profileSaveCurrent_eq_none.2 (profileSaveCurrent_eq_none.1 failed)]
    rfl
  · rw [failed] at done
    cases done

theorem identifies_iff {profiles : List Profile} (distinct : DistinctNames profiles)
    (call : Call β) : Identifies profiles call ↔ Fits profiles call := by
  cases call with
  | delete name => exact iff_of_true (profileDelete_distinct distinct) trivial
  | save name s =>
      by_cases short : name.length < PROFILE_NAME_SIZE
      · refine iff_of_true ?_ (.inl short)
        cases done : profileSaveCurrent name s profiles with
        | none => exact identifies_full distinct done
        | some profiles' => exact identifies_short short distinct done
      · have absent := absent_long (Nat.not_lt.1 short) profiles
        rw [Fits, or_iff_right short]
        constructor
        · rintro ⟨-, -, finds⟩
          by_contra room
          cases done : profileSaveCurrent name s profiles with
          | none => exact room (profileSaveCurrent_eq_none.1 done).2
          | some profiles' => exact not_finds_long (Nat.not_lt.1 short) _ _ s (finds _ done)
        · intro full
          exact identifies_full distinct (profileSaveCurrent_eq_none.2 ⟨absent, full⟩)

theorem distinct_called {profiles : List Profile} (call : Call β)
    (distinct : DistinctNames profiles) (fits : Fits profiles call) :
    DistinctNames (called profiles call) := by
  have identifies := (identifies_iff distinct call).2 fits
  cases call with
  | save name s => exact identifies.1
  | delete name => exact identifies

/-- **The names identify the profiles** after every call of a run just if no save of it stores a
name that was cut. -/
theorem names_identify_iff (calls : List (Call β)) {profiles : List Profile}
    (distinct : DistinctNames profiles) :
    (∀ before call, before ++ [call] <+: calls →
        Identifies ((registry β).run profiles before) call) ↔
      (registry β).Admissible profiles calls :=
  @Machine.forall_step_iff_admissible _ _ (registry β) DistinctNames _
    (fun _ call distinct => identifies_iff distinct call)
    (fun _ call distinct fits => distinct_called call distinct fits) calls _ distinct

/-- The same profile saved twice. -/
theorem names_identify_lag :
    Identifies ((registry Unit).run [] [.save "lag".toList (started (· == .lag))])
      (.save "lag".toList (started (· == .lag))) := by
  have short : "lag".toList.length < PROFILE_NAME_SIZE := by decide
  exact (@names_identify_iff Unit [.save "lag".toList (started (· == .lag)),
    .save "lag".toList (started (· == .lag))] [] List.nodup_nil).2
      ⟨.inl short, .inl short, trivial⟩ _ _ (List.prefix_refl _)

/-- One character more than fits. -/
def longName : List Char := List.replicate PROFILE_NAME_SIZE 'a'

/-- **A long name is saved twice** and found neither time. -/
theorem names_collide :
    (profileSaveCurrent longName (started (· == .lag)) []).isSome = true ∧
      (profileApply longName (called [] (.save longName (started (· == .lag))))
        (started fun _ => false)).isSome = false ∧
      (profileDelete longName (called [] (.save longName (started (· == .lag))))).isSome = false ∧
      ¬DistinctNames ((registry Unit).run []
        [.save longName (started (· == .lag)), .save longName (started (· == .lag))]) := by
  refine ⟨rfl, rfl, rfl, ?_⟩
  rw [DistinctNames, Keyed.Distinct, List.nodup_iff_sublist]
  intro nodup
  exact nodup (longName.take (PROFILE_NAME_SIZE - 1)) (List.Sublist.refl _)

end Clumsy.Profiles
