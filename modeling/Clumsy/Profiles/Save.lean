/-
# Profiles.Save -- profile.cpp: saving the modules and applying what was saved

A profile is a list of at most 32 keys with their values.  Saving walks over the modules,
writes the short name of every enabled one and lets it add its parameters; a module that
finds too little room for all of them adds none.  Applying gives every key to
`applyModuleKV`.

What is saved comes back exactly when all of it fits (`profileApply_restores_iff`).
-/
import Clumsy.Modules.Settings

namespace Clumsy.Profiles

open Clumsy.Modules

set_option autoImplicit false

variable {β : Type}

def MAX_PROFILE_PARAMS : Nat := 32
def MAX_PROFILES : Nat := 32
def PROFILE_NAME_SIZE : Nat := 48

/-- The arrays of the source hold a terminated name and a bounded number of pairs. -/
structure Profile where
  name   : List Char
  params : List ParamKV
  short  : name.length < PROFILE_NAME_SIZE
  few    : params.length ≤ MAX_PROFILE_PARAMS

/-! ## Saving -/

/-- The loop over the modules; `kv` is what was written so far. -/
def collect (s : Settings β) : List ModuleId → List ParamKV → List ParamKV
  | [], kv => kv
  | m :: ms, kv =>
      if s.enabled m then
        if kv.length ≥ MAX_PROFILE_PARAMS then kv
        else
          let kv := kv ++ [(m.shortName, "true".toList)]
          collect s ms (kv ++ m.getParams (MAX_PROFILE_PARAMS - kv.length) s.mods)
      else collect s ms kv

theorem getParams_length_le (m : ModuleId) (maxKv : Nat) (mods : Statics β) :
    (m.getParams maxKv mods).length ≤ maxKv := by
  rcases Nat.lt_or_ge maxKv m.paramCount with full | room
  · rw [ModuleId.getParams_full full]
    exact Nat.zero_le _
  · rw [ModuleId.getParams_room room, ModuleId.getParams_length]
    exact room

theorem collect_length (s : Settings β) (ms : List ModuleId) {kv : List ParamKV}
    (few : kv.length ≤ MAX_PROFILE_PARAMS) : (collect s ms kv).length ≤ MAX_PROFILE_PARAMS := by
  induction ms generalizing kv with
  | nil => exact few
  | cons m ms ih =>
      rw [collect]
      split
      · split
        · exact few
        · apply ih
          have written := getParams_length_le m
            (MAX_PROFILE_PARAMS - (kv ++ [(m.shortName, "true".toList)]).length) s.mods
          simp only [List.length_append, List.length_singleton] at written ⊢
          omega
      · exact ih few

/-- The profile of the modules as they are, under a name that is cut to fit. -/
def snapshot (name : List Char) (s : Settings β) : Profile where
  name := name.take (PROFILE_NAME_SIZE - 1)
  params := collect s modules []
  short := Nat.lt_of_le_of_lt (List.length_take_le _ _) (Nat.lt_succ_self _)
  few := collect_length s modules (Nat.zero_le _)

/-- Nothing if there is no room for another profile. -/
def profileSaveCurrent (name : List Char) (s : Settings β) (profiles : List Profile) :
    Option (List Profile) :=
  match profiles.findIdx? fun p => p.name == name with
  | some i => some (profiles.set i (snapshot name s))
  | none =>
      if profiles.length ≥ MAX_PROFILES then none else some (profiles ++ [snapshot name s])

/-- Nothing if there is no profile of that name. -/
def profileApply (name : List Char) (profiles : List Profile) (s : Settings β) :
    Option (Settings β) :=
  (profiles.find? fun p => p.name == name).map fun p => applyAll p.params s

/-! ## What is written -/

/-- All there is to write of a module. -/
def whole (s : Settings β) (m : ModuleId) : List ParamKV :=
  (m.shortName, "true".toList) :: m.getParams m.paramCount s.mods

/-- How many pairs the enabled modules take. -/
def size (s : Settings β) (ms : List ModuleId) : Nat :=
  ((ms.filter s.enabled).map fun m => 1 + m.paramCount).sum

@[simp] theorem whole_length (s : Settings β) (m : ModuleId) :
    (whole s m).length = 1 + m.paramCount := by
  rw [whole, List.length_cons, ModuleId.getParams_length, Nat.add_comm]

theorem length_flatMap_whole (s : Settings β) (ms : List ModuleId) :
    ((ms.filter s.enabled).flatMap (whole s)).length = size s ms := by
  rw [List.length_flatMap, size]
  simp only [whole_length]

/-- A module is written whole, without its parameters, or not at all. -/
inductive IsPart (s : Settings β) (m : ModuleId) : List ParamKV → Prop
  | whole : IsPart s m (whole s m)
  | bare  : IsPart s m [(m.shortName, "true".toList)]
  | none  : IsPart s m []

theorem isPart_getParams (s : Settings β) (m : ModuleId) (maxKv : Nat) :
    IsPart s m ((m.shortName, "true".toList) :: m.getParams maxKv s.mods) := by
  rcases Nat.lt_or_ge maxKv m.paramCount with full | room
  · rw [ModuleId.getParams_full full]
    exact .bare
  · rw [ModuleId.getParams_room room]
    exact .whole

theorem collect_parts (s : Settings β) {ms : List ModuleId} (distinct : ms.Nodup)
    (kv : List ParamKV) :
    ∃ part : ModuleId → List ParamKV, (∀ m, IsPart s m (part m)) ∧
      collect s ms kv = kv ++ (ms.filter s.enabled).flatMap part := by
  induction ms generalizing kv with
  | nil => exact ⟨fun _ => [], fun _ => .none, (List.append_nil kv).symm⟩
  | cons m ms ih =>
      obtain ⟨fresh, distinct⟩ := List.nodup_cons.1 distinct
      rw [collect]
      split
      · rename_i on
        split
        · refine ⟨fun _ => [], fun _ => .none, ?_⟩
          rw [List.flatMap_eq_nil_iff.2 fun _ _ => rfl, List.append_nil]
        · set kv' := kv ++ [(m.shortName, "true".toList)] with name
          set params := m.getParams (MAX_PROFILE_PARAMS - kv'.length) s.mods
          obtain ⟨part, isPart, collected⟩ := ih distinct (kv' ++ params)
          refine ⟨Function.update part m ((m.shortName, "true".toList) :: params), fun m' => ?_, ?_⟩
          · by_cases same : m' = m
            · rw [same, Function.update_self]
              exact isPart_getParams s m _
            · rw [Function.update_of_ne same]
              exact isPart m'
          · have behind : (ms.filter s.enabled).flatMap
                (Function.update part m ((m.shortName, "true".toList) :: params)) =
                  (ms.filter s.enabled).flatMap part := by
              apply List.flatMap_congr
              intro m' member
              apply Function.update_of_ne
              rintro rfl
              exact fresh (List.mem_of_mem_filter member)
            rw [collected, List.filter_cons_of_pos on, List.flatMap_cons, Function.update_self,
              behind, name]
            simp
      · rename_i off
        obtain ⟨part, isPart, collected⟩ := ih distinct kv
        exact ⟨part, isPart, by rw [collected, List.filter_cons_of_neg off]⟩

/-- With room for all of them every module is written whole. -/
theorem collect_whole (s : Settings β) (ms : List ModuleId) (kv : List ParamKV)
    (room : kv.length + size s ms ≤ MAX_PROFILE_PARAMS) :
    collect s ms kv = kv ++ (ms.filter s.enabled).flatMap (whole s) := by
  induction ms generalizing kv with
  | nil => exact (List.append_nil kv).symm
  | cons m ms ih =>
      rw [collect]
      split
      · rename_i on
        have sum : size s (m :: ms) = 1 + m.paramCount + size s ms := by
          rw [size, List.filter_cons_of_pos on, List.map_cons, List.sum_cons]
          rfl
        rw [if_neg (by omega)]
        simp only [List.length_append, List.length_singleton]
        rw [ModuleId.getParams_room (by omega), ih, List.filter_cons_of_pos on, List.flatMap_cons]
        · simp [whole]
        · simp only [List.length_append, List.length_singleton, ModuleId.getParams_length]
          omega
      · rename_i off
        rw [ih, List.filter_cons_of_neg off]
        rwa [size, List.filter_cons_of_neg off] at room

/-! ## What applying does to one module -/

/-- A module's enabled flag and its parameters. -/
def view (m : ModuleId) (s : Settings β) : Bool × List ParamKV :=
  (s.enabled m, m.getParams m.paramCount s.mods)

theorem applyAll_bare (m : ModuleId) (s : Settings β) :
    applyAll [(m.shortName, "true".toList)] s =
      { s with enabled := Function.update s.enabled m true } := by
  show (applyModuleKV m.shortName "true".toList s).getD s = _
  rw [applyModuleKV_shortName]
  rfl

theorem applyAll_whole (m : ModuleId) (saved s : Settings β) :
    applyAll (whole saved m) s =
      { enabled := Function.update s.enabled m true, mods := m.restored saved.mods s.mods } := by
  have split := applyAll_append [(m.shortName, "true".toList)]
    (m.getParams m.paramCount saved.mods) s
  rw [applyAll_bare, applyAll_params] at split
  exact split

theorem view_whole (m : ModuleId) (saved s : Settings β) :
    view m (applyAll (whole saved m) s) = (true, m.getParams m.paramCount saved.mods) := by
  simp only [applyAll_whole, view, ModuleId.getParams_restored, Function.update_self]

theorem view_bare (m : ModuleId) (s : Settings β) :
    view m (applyAll [(m.shortName, "true".toList)] s) =
      (true, m.getParams m.paramCount s.mods) := by
  simp only [applyAll_bare, view, Function.update_self]

theorem view_other {saved : Settings β} {m m' : ModuleId} {part : List ParamKV}
    (isPart : IsPart saved m part) (other : m' ≠ m) (s : Settings β) :
    view m' (applyAll part s) = view m' s := by
  cases isPart with
  | whole =>
      simp only [applyAll_whole, view, ModuleId.getParams_frame other,
        Function.update_of_ne other]
  | bare => simp only [applyAll_bare, view, Function.update_of_ne other]
  | none => rfl

section

variable {saved : Settings β} {part : ModuleId → List ParamKV}
  (isPart : ∀ m, IsPart saved m (part m))

include isPart

theorem view_absent {ms : List ModuleId} {m : ModuleId} (absent : m ∉ ms) (s : Settings β) :
    view m (applyAll (ms.flatMap part) s) = view m s := by
  induction ms generalizing s with
  | nil => rfl
  | cons m' ms ih =>
      have other : m ≠ m' := fun same => absent (same ▸ List.mem_cons_self)
      have rest : m ∉ ms := fun member => absent (List.mem_cons_of_mem _ member)
      rw [List.flatMap_cons, applyAll_append, ih rest, view_other (isPart m') other]

/-- Only a module's own part matters to it. -/
theorem view_present {ms : List ModuleId} (distinct : ms.Nodup) {m : ModuleId} (present : m ∈ ms)
    (s : Settings β) :
    ∃ s' : Settings β, view m s' = view m s ∧
      view m (applyAll (ms.flatMap part) s) = view m (applyAll (part m) s') := by
  induction ms generalizing s with
  | nil => cases present
  | cons m' ms ih =>
      obtain ⟨fresh, distinct⟩ := List.nodup_cons.1 distinct
      rw [List.flatMap_cons, applyAll_append]
      by_cases same : m = m'
      · subst same
        exact ⟨s, rfl, view_absent isPart fresh _⟩
      · obtain ⟨s', before, after⟩ :=
          ih distinct ((List.mem_cons.1 present).resolve_left same) (applyAll (part m') s)
        exact ⟨s', before.trans (view_other (isPart m') same s), after⟩

end

/-! ## Saved and applied -/

/-- Every module that was enabled is, and writes the parameters it wrote. -/
def Restored (saved s : Settings β) : Prop :=
  ∀ m, saved.enabled m = true →
    s.enabled m = true ∧ ∀ maxKv, m.getParams maxKv s.mods = m.getParams maxKv saved.mods

theorem restored_iff (saved s : Settings β) :
    Restored saved s ↔ ∀ m, saved.enabled m = true → view m s = view m saved := by
  constructor
  · intro restored m on
    obtain ⟨enabled, params⟩ := restored m on
    rw [view, view, enabled, on, params]
  · intro same m on
    obtain ⟨enabled, params⟩ := Prod.mk.inj (same m on)
    refine ⟨enabled.trans on, fun maxKv => ?_⟩
    rcases Nat.lt_or_ge maxKv m.paramCount with full | room
    · rw [ModuleId.getParams_full full, ModuleId.getParams_full full]
    · rw [ModuleId.getParams_room room, ModuleId.getParams_room room, params]

theorem find?_set_of_findIdx? {α : Type} {p : α → Bool} {xs : List α} {i : Nat} {a : α}
    (found : xs.findIdx? p = some i) (here : p a = true) : (xs.set i a).find? p = some a := by
  induction xs generalizing i with
  | nil => cases found
  | cons x xs ih =>
      rw [List.findIdx?_cons] at found
      split at found
      · cases found
        exact List.find?_cons_of_pos here
      · rename_i other
        obtain ⟨j, later, rfl⟩ := Option.map_eq_some_iff.1 found
        rw [List.set_cons_succ, List.find?_cons_of_neg other, ih later]

/-- The array holds no longer name, so a name that does not fit is never found. -/
theorem find?_long {name : List Char} (long : PROFILE_NAME_SIZE ≤ name.length)
    (profiles : List Profile) : profiles.find? (fun p => p.name == name) = none := by
  rw [List.find?_eq_none]
  intro p _ same
  have short := p.short
  rw [beq_iff_eq.1 same] at short
  omega

theorem snapshot_name {name : List Char} (short : name.length < PROFILE_NAME_SIZE)
    (s : Settings β) : (snapshot name s).name = name :=
  List.take_of_length_le (Nat.le_of_lt_succ short)

/-- Saving puts the snapshot where a name that fits is found first. -/
theorem profileSaveCurrent_find {name : List Char} {s : Settings β}
    {profiles profiles' : List Profile} (done : profileSaveCurrent name s profiles = some profiles')
    (short : name.length < PROFILE_NAME_SIZE) :
    profiles'.find? (fun p => p.name == name) = some (snapshot name s) := by
  have here : ((snapshot name s).name == name) = true := beq_iff_eq.2 (snapshot_name short s)
  rw [profileSaveCurrent] at done
  cases found : profiles.findIdx? fun p => p.name == name with
  | some i =>
      rw [found] at done
      cases done
      exact find?_set_of_findIdx? found here
  | none =>
      rw [found] at done
      simp only at done
      split at done
      · cases done
      · cases done
        have absent : profiles.find? (fun p => p.name == name) = none := by
          rw [List.find?_eq_none]
          exact fun p member => by simpa using List.findIdx?_eq_none_iff.1 found p member
        rw [List.find?_append, absent, Option.none_or]
        exact List.find?_cons_of_pos here

/-- No module takes inbound packets. -/
def inboundOff : Statics β :=
  { Statics.initial with
    lag.lagInbound := false
    jitter.jitterInbound := false
    drop.dropInbound := false
    burstloss.burstlossInbound := false
    blackout.blackoutInbound := false
    throttle.throttleInbound := false
    dup.dupInbound := false
    ood.oodInbound := false
    tamper.tamperInbound := false
    corrupt.corruptInbound := false
    reset.resetInbound := false
    bandwidth.bandwidthInbound := false }

theorem getParams_inbound (m : ModuleId) (mods : Statics β) :
    (m.getParams m.paramCount mods).lookup (m.shortName ++ "-inbound".toList) =
      some (boolText (mods.direction m false)) := by
  cases m <;> rfl

/-- Of every module there is a state that writes other parameters. -/
theorem exists_otherParams (m : ModuleId) (mods : Statics β) :
    ∃ mods' : Statics β, m.getParams m.paramCount mods' ≠ m.getParams m.paramCount mods := by
  have differs {mods' : Statics β} (other : mods'.direction m false ≠ mods.direction m false) :
      m.getParams m.paramCount mods' ≠ m.getParams m.paramCount mods := by
    intro same
    have text := getParams_inbound m mods'
    rw [same, getParams_inbound, Option.some.injEq] at text
    apply other
    rw [← parseBoolValue_boolText (mods'.direction m false), ← text, parseBoolValue_boolText]
  cases on : mods.direction m false with
  | true =>
      have off : (inboundOff : Statics β).direction m false = false := by cases m <;> rfl
      exact ⟨inboundOff, differs (by rw [on, off]; decide)⟩
  | false =>
      have start : (Statics.initial : Statics β).direction m false = true := by cases m <;> rfl
      exact ⟨Statics.initial, differs (by rw [on, start]; decide)⟩

/-- A module that is not written whole can be left off or with other parameters. -/
theorem exists_differs {saved : Settings β} {m : ModuleId} (on : saved.enabled m = true) :
    ∃ later : Settings β, ∀ s : Settings β, view m s = view m later →
      ∀ part, IsPart saved m part → part ≠ whole saved m →
        view m (applyAll part s) ≠ view m saved := by
  obtain ⟨other, differs⟩ := exists_otherParams m saved.mods
  refine ⟨{ enabled := fun _ => false, mods := other }, fun s same part isPart cut back => ?_⟩
  obtain ⟨off, params⟩ := Prod.mk.inj same
  cases isPart with
  | whole => exact cut rfl
  | bare =>
      rw [view_bare] at back
      exact differs (params.symm.trans (Prod.mk.inj back).2)
  | none =>
      have enabled : s.enabled m = saved.enabled m := (Prod.mk.inj back).1
      rw [on, off] at enabled
      cases enabled

/-- A module cut short is not restored, whatever stands around its part. -/
theorem exists_cutShort {saved : Settings β} {part : ModuleId → List ParamKV}
    (isPart : ∀ m, IsPart saved m (part m)) {m : ModuleId} (on : saved.enabled m = true)
    (cut : part m ≠ whole saved m) :
    ∃ later, ¬Restored saved (applyAll ((modules.filter saved.enabled).flatMap part) later) := by
  obtain ⟨later, differs⟩ := exists_differs on
  have present : m ∈ modules.filter saved.enabled := List.mem_filter.2 ⟨mem_modules m, on⟩
  obtain ⟨s, before, after⟩ := view_present isPart (modules_nodup.filter _) present later
  refine ⟨later, fun restored => differs s before (part m) (isPart m) cut ?_⟩
  rw [← after]
  exact (restored_iff saved _).1 restored m on

/-- What the snapshot writes restores every state exactly when it all fits. -/
theorem applyAll_collect_iff (saved : Settings β) :
    (∀ later, Restored saved (applyAll (collect saved modules []) later)) ↔
      size saved modules ≤ MAX_PROFILE_PARAMS := by
  constructor
  · intro restored
    obtain ⟨part, isPart, collected⟩ := collect_parts saved modules_nodup []
    rw [List.nil_append] at collected
    by_contra full
    have cut : ∃ m ∈ modules.filter saved.enabled, part m ≠ whole saved m := by
      by_contra none
      push Not at none
      have few : (collect saved modules []).length ≤ MAX_PROFILE_PARAMS :=
        collect_length saved modules (Nat.zero_le _)
      rw [collected, List.flatMap_congr none, length_flatMap_whole] at few
      exact full few
    obtain ⟨m, member, cut⟩ := cut
    obtain ⟨later, fails⟩ := exists_cutShort isPart (List.mem_filter.1 member).2 cut
    apply fails
    rw [← collected]
    exact restored later
  · intro room later
    rw [collect_whole saved modules [] (by simpa using room), List.nil_append, restored_iff]
    intro m on
    have present : m ∈ modules.filter saved.enabled := List.mem_filter.2 ⟨mem_modules m, on⟩
    obtain ⟨s, -, after⟩ :=
      view_present (fun m => .whole) (modules_nodup.filter _) present later
    rw [after, view_whole, view, on]

/-- **Applying a profile brings back what saving found exactly when no module was enabled, or
the name fits and the pairs of all enabled modules do.** -/
theorem profileApply_restores_iff {name : List Char} {saved : Settings β}
    {profiles profiles' : List Profile}
    (done : profileSaveCurrent name saved profiles = some profiles') :
    (∀ later, Restored saved ((profileApply name profiles' later).getD later)) ↔
      (∀ m, saved.enabled m = false) ∨
        name.length < PROFILE_NAME_SIZE ∧ size saved modules ≤ MAX_PROFILE_PARAMS := by
  by_cases idle : ∀ m, saved.enabled m = false
  · refine iff_of_true (fun later m on => ?_) (.inl idle)
    rw [idle m] at on
    cases on
  · rw [or_iff_right idle]
    obtain ⟨m, on⟩ := not_forall.1 idle
    rw [Bool.not_eq_false] at on
    by_cases short : name.length < PROFILE_NAME_SIZE
    · rw [and_iff_right short, ← applyAll_collect_iff]
      simp only [profileApply, profileSaveCurrent_find done short]
      rfl
    · refine iff_of_false (fun restored => ?_) fun fits => short fits.1
      obtain ⟨later, differs⟩ := exists_differs on
      have missing : profileApply name profiles' later = none := by
        rw [profileApply, find?_long (Nat.not_lt.1 short)]
        rfl
      have back := restored later
      rw [missing] at back
      exact differs later rfl [] .none (List.cons_ne_nil _ _).symm
        ((restored_iff saved _).1 back m on)

/-- The start state with these modules enabled. -/
def started (enabled : ModuleId → Bool) : Settings Unit := { enabled, mods := .initial }

theorem profileApply_restores_lag :
    Restored (started (· == .lag))
      ((profileApply "lag".toList [snapshot "lag".toList (started (· == .lag))]
        (started fun _ => false)).getD (started fun _ => false)) :=
  (@profileApply_restores_iff Unit "lag".toList _ [] _ rfl).2 (.inr ⟨by decide, by decide⟩) _

/-- With all modules enabled 32 pairs reach as far as throttle.  What comes behind it stays
off. -/
theorem profileApply_forgets :
    profileSaveCurrent "all".toList (started fun _ => true) [] =
        some [snapshot "all".toList (started fun _ => true)] ∧
      ¬Restored (started fun _ => true)
        ((profileApply "all".toList [snapshot "all".toList (started fun _ => true)]
          (started fun _ => false)).getD (started fun _ => false)) := by
  refine ⟨rfl, fun restored => ?_⟩
  have off : ((profileApply "all".toList [snapshot "all".toList (started fun _ => true)]
      (started fun _ => false)).getD (started fun _ => false)).enabled .bandwidth = false := by
    decide +kernel
  have on := (restored .bandwidth rfl).1
  rw [off] at on
  cases on

end Clumsy.Profiles
