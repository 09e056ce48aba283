/-
# Modules.Settings -- one key for all modules

`applyModuleKV` is the way in for profiles, scenarios and the control API: a short name
switches a module on or off, any other key goes to the first module that knows it.  No two
modules know the same key (`applyModuleKV_param`), so that one is its owner.
-/
import Clumsy.Modules.Params

namespace Clumsy.Modules

set_option autoImplicit false

variable {β : Type}

/-- The enabled flags and the statics of the modules. -/
structure Settings (β : Type) where
  enabled : ModuleId → Bool
  mods    : Statics β

/-- Nothing where no module knows the key. -/
def applyModuleKV (key value : List Char) (s : Settings β) : Option (Settings β) :=
  match modules.find? fun m => m.shortName == key with
  | some m => some { s with enabled := Function.update s.enabled m (parseBoolValue value) }
  | none =>
      (modules.findSome? fun m => m.setParam s.enabled key value s.mods).map fun mods =>
        { s with mods }

/-- One key after the other, unknown ones skipped. -/
def applyAll (kv : List ParamKV) (s : Settings β) : Settings β :=
  kv.foldl (fun s pair => (applyModuleKV pair.1 pair.2 s).getD s) s

theorem applyAll_append (kv kv' : List ParamKV) (s : Settings β) :
    applyAll (kv ++ kv') s = applyAll kv' (applyAll kv s) := List.foldl_append

namespace ModuleId

/-! ## Whose key is it -/

def keys : ModuleId → List (List Char)
  | .lag => lagChain.map Prod.fst
  | .jitter => jitterChain.map Prod.fst
  | .drop => dropChain.map Prod.fst
  | .burstloss => burstlossChain.map Prod.fst
  | .blackout => blackoutChain.map Prod.fst
  | .throttle => throttleChain.map Prod.fst
  | .dup => dupChain.map Prod.fst
  | .ood => oodChain.map Prod.fst
  | .tamper => tamperChain.map Prod.fst
  | .corrupt => corruptChain.map Prod.fst
  | .reset => resetChain.map Prod.fst
  | .bandwidth => bandwidthChain.map Prod.fst

/-- No key is a short name or another module's key. -/
theorem keys_distinct :
    modules.all (fun m => m.keys.all fun key =>
      (modules.all fun m' => m'.shortName != key) &&
        (modules.all fun m' => m' == m || !m'.keys.contains key)) = true := by
  decide +kernel

theorem keys_owned {m : ModuleId} {key : List Char} (known : key ∈ m.keys) :
    (∀ m' : ModuleId, m'.shortName ≠ key) ∧ ∀ m' : ModuleId, m' ≠ m → key ∉ m'.keys := by
  have distinct := List.all_eq_true.1 keys_distinct m (mem_modules m)
  have alone := List.all_eq_true.1 distinct key known
  rw [Bool.and_eq_true, List.all_eq_true, List.all_eq_true] at alone
  refine ⟨fun m' => ?_, fun m' other => ?_⟩
  · simpa using alone.1 m' (mem_modules m')
  · simpa [other] using alone.2 m' (mem_modules m')

theorem read_eq_none {α : Type} {chain : Chain α} {key : List Char} (value : List Char)
    (unknown : key ∉ chain.map Prod.fst) : chain.read key value = none := by
  have missing : chain.lookup key = none := by
    rw [List.lookup_eq_none_iff]
    intro entry member
    exact bne_iff_ne.2 fun same => unknown (List.mem_map.2 ⟨entry, member, same.symm⟩)
  rw [Chain.read, missing]
  rfl

theorem readParam_eq_none {m : ModuleId} {key : List Char} (value : List Char)
    (unknown : key ∉ m.keys) : m.readParam key value = none := by
  cases m <;> exact Option.map_eq_none_iff.2 (read_eq_none value unknown)

theorem getParams_keys (m : ModuleId) (mods : Statics β) :
    ∀ pair ∈ m.getParams m.paramCount mods, pair.1 ∈ m.keys := by
  intro pair member
  have written : pair.1 ∈ (m.getParams m.paramCount mods).map Prod.fst :=
    List.mem_map_of_mem member
  have listed : ((m.getParams m.paramCount mods).map Prod.fst).all m.keys.contains = true := by
    cases m <;> rfl
  simpa using List.all_eq_true.1 listed _ written

end ModuleId

/-! ## Applied -/

theorem applyModuleKV_shortName (m : ModuleId) (value : List Char) (s : Settings β) :
    applyModuleKV m.shortName value s =
      some { s with enabled := Function.update s.enabled m (parseBoolValue value) } := by
  cases m <;> rfl

theorem findSome?_only {α : Type} {f : ModuleId → Option α} {m : ModuleId}
    (others : ∀ m', m' ≠ m → f m' = none) : modules.findSome? f = f m := by
  have front (ms : List ModuleId) (member : m ∈ ms) : ms.findSome? f = f m := by
    induction ms with
    | nil => cases member
    | cons m' ms ih =>
        rw [List.findSome?_cons]
        by_cases same : m' = m
        · rw [same]
          cases here : f m with
          | some _ => rfl
          | none =>
              rw [List.findSome?_eq_none_iff]
              intro x _
              by_cases again : x = m
              · rw [again, here]
              · exact others x again
        · rw [others m' same]
          exact ih ((List.mem_cons.1 member).resolve_left (Ne.symm same))
  exact front modules (mem_modules m)

/-- A parameter's key goes to its module. -/
theorem applyModuleKV_param {m : ModuleId} {key : List Char} (known : key ∈ m.keys)
    (value : List Char) (s : Settings β) :
    applyModuleKV key value s =
      (m.setParam s.enabled key value s.mods).map fun mods => { s with mods } := by
  obtain ⟨noName, owned⟩ := ModuleId.keys_owned known
  have notName : modules.find? (fun m' => m'.shortName == key) = none := by
    rw [List.find?_eq_none]
    intro m' _
    simpa using noName m'
  rw [applyModuleKV, notName]
  simp only
  rw [findSome?_only fun m' other => ?_]
  rw [ModuleId.setParam, ModuleId.readParam_eq_none value (owned m' other)]
  rfl

/-- What a module wrote goes back to it. -/
theorem applyAll_params (m : ModuleId) (saved : Statics β) (s : Settings β) :
    applyAll (m.getParams m.paramCount saved) s = { s with mods := m.restored saved s.mods } := by
  have fed (kv : List ParamKV) (known : ∀ pair ∈ kv, pair.1 ∈ m.keys) (s : Settings β) :
      applyAll kv s = { s with mods := m.feed s.enabled kv s.mods } := by
    induction kv generalizing s with
    | nil => rfl
    | cons pair kv ih =>
        have first := known pair List.mem_cons_self
        have rest := ih fun pair member => known pair (List.mem_cons_of_mem _ member)
        show applyAll kv ((applyModuleKV pair.1 pair.2 s).getD s) = _
        rw [applyModuleKV_param first, rest, ModuleId.feed, ModuleId.feed, List.foldl_cons]
        cases m.setParam s.enabled pair.1 pair.2 s.mods <;> rfl
  rw [fed _ (ModuleId.getParams_keys m saved), ModuleId.feed_getParams]

end Clumsy.Modules
