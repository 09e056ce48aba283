/-
# Backend.Iptables -- iptables_linux.cpp: installing and removing the rules

A chain is the list of its rules.  `-I` puts a rule in front and may fail at any
point, which `permit` decides by the number of the attempt; `-D` drops the first rule
with the same text.  What is recorded is what was installed (`Recorded`), so removing
the record from its end restores every chain (`autoInstall_exact`).
-/
import Clumsy.Filter.Derive
import Clumsy.Theory.Journal

namespace Clumsy.Backend

open Clumsy.Filter
open Clumsy.Theory

set_option autoImplicit false

/-- The two programs, each with its own table. -/
inductive Tool where
  | iptables
  | ip6tables
  deriving DecidableEq, Repr

inductive Chain where
  | output
  | input
  deriving DecidableEq, Repr

/-- The rules of the four chains, first rule first. -/
abbrev Chains := Tool → Chain → List (List Char)

/-- What `-I` was called with. -/
structure InstalledRule where
  tool  : Tool
  chain : Chain
  spec  : List Char
  deriving DecidableEq, Repr

/-- The chains of the machine and the variables of the file. -/
structure Tables where
  chains      : Chains
  installed   : List InstalledRule
  autoEnabled : Bool
  /-- How many times `-I` was tried. -/
  attempts    : Nat

/-- `MAX_INSTALLED`. -/
def maxInstalled : Nat := 24

/-! ## One rule -/

def Chains.edit (chains : Chains) (tool : Tool) (chain : Chain)
    (change : List (List Char) → List (List Char)) : Chains :=
  fun tool' chain' =>
    if tool' = tool ∧ chain' = chain then change (chains tool' chain') else chains tool' chain'

/-- A successful `-I`. -/
def InstalledRule.insert (r : InstalledRule) (chains : Chains) : Chains :=
  chains.edit r.tool r.chain (r.spec :: ·)

/-- `-D`: the first equal rule goes. -/
def InstalledRule.delete (r : InstalledRule) (chains : Chains) : Chains :=
  chains.edit r.tool r.chain (·.erase r.spec)

def recordAndInstall (permit : Nat → Bool) (tool : Tool) (chain : Chain) (spec : List Char)
    (t : Tables) : Bool × Tables :=
  if t.installed.length ≥ maxInstalled then (false, t)
  else if permit t.attempts then
    let r : InstalledRule := { tool, chain, spec }
    (true, { t with
      chains := r.insert t.chains
      installed := t.installed ++ [r]
      attempts := t.attempts + 1 })
  else (false, { t with attempts := t.attempts + 1 })

/-- Go on after a successful step; a failed one is a `goto rollback`. -/
def orRollback (step : Bool × Tables) (next : Tables → Bool × Tables) : Bool × Tables :=
  if step.1 then next step.2 else step

/-! ## All rules -/

/-- `sizeof(spec)`. -/
def specSize : Nat := 320

def nfqueueSpec (r : IptablesRule) (queueNum : Int) : List Char :=
  (r.matchText ++ " -j NFQUEUE --queue-num ".toList ++ (toString queueNum).toList ++
    " --queue-bypass".toList).take (specSize - 1)

def bypassSpec (injectMark : UInt32) : List Char :=
  ("-m mark --mark 0x".toList ++ Nat.toDigits 16 injectMark.toNat ++ " -j ACCEPT".toList).take
    (specSize - 1)

def toolOf (r : IptablesRule) : Tool := if r.ipv6 then .ip6tables else .iptables

/-- The body of the loop of `iptablesAutoInstall`. -/
def installRule (permit : Nat → Bool) (queueNum : Int) (r : IptablesRule) (t : Tables) :
    Bool × Tables :=
  let spec := nfqueueSpec r queueNum
  orRollback
    (if r.chains &&& chainOutput ≠ 0 then recordAndInstall permit (toolOf r) .output spec t
      else (true, t))
    fun t =>
      if r.chains &&& chainInput ≠ 0 then recordAndInstall permit (toolOf r) .input spec t
      else (true, t)

def installRules (permit : Nat → Bool) (queueNum : Int) :
    List IptablesRule → Tables → Bool × Tables
  | [], t => (true, t)
  | r :: rules, t =>
      orRollback (installRule permit queueNum r t) fun t => installRules permit queueNum rules t

/-- The mark bypass, into the tables that were used, after the rules it must stand
above. -/
def installBypass (permit : Nat → Bool) (injectMark : UInt32) (anyV4 anyV6 : Bool) (t : Tables) :
    Bool × Tables :=
  let spec := bypassSpec injectMark
  orRollback (if anyV4 then recordAndInstall permit .iptables .output spec t else (true, t))
    fun t => if anyV6 then recordAndInstall permit .ip6tables .output spec t else (true, t)

/-- The loop of `iptablesAutoInstall` and the bypass behind it. -/
def installAll (permit : Nat → Bool) (queueNum : Int) (injectMark : UInt32)
    (rules : List IptablesRule) (t : Tables) : Bool × Tables :=
  orRollback (installRules permit queueNum rules t)
    (installBypass permit injectMark (rules.any fun r => !r.ipv6) (rules.any fun r => r.ipv6))

def iptablesAutoRemove (t : Tables) : Tables :=
  if t.installed = [] then t
  else
    { t with
      chains := Journal.replay InstalledRule.delete t.installed.reverse t.chains
      installed := []
      autoEnabled := false }

/-- Where the install starts. -/
def cleared (t : Tables) : Tables := { t with installed := [], autoEnabled := true }

/-- `iptablesAutoInstall`; `requested` is the switch `--auto-iptables`. -/
def iptablesAutoInstall (permit : Nat → Bool) (requested : Bool) (prog : FilterProgram)
    (queueNum : Int) (injectMark : UInt32) (t : Tables) : Bool × Tables :=
  if !requested then (true, { t with autoEnabled := false })
  else
    let rules := (filterDeriveIptables prog maxDerivedRules).1
    if rules = [] then (false, t)
    else
      let done := installAll permit queueNum injectMark rules (cleared t)
      if done.1 then done
      else (false, { iptablesAutoRemove done.2 with autoEnabled := false })

/-! ## The record -/

/-- The chains are those of the start with the recorded rules put in front. -/
def Recorded (start : Chains) (t : Tables) : Prop :=
  t.chains = Journal.replay InstalledRule.insert t.installed start

theorem delete_insert (r : InstalledRule) (chains : Chains) :
    r.delete (r.insert chains) = chains := by
  funext tool chain
  simp only [InstalledRule.delete, InstalledRule.insert, Chains.edit]
  by_cases same : tool = r.tool ∧ chain = r.chain
  · simp only [if_pos same, List.erase_cons_head]
  · simp only [if_neg same]

/-- **Removing the record restores the chains.** -/
theorem autoRemove_chains {start : Chains} {t : Tables} (h : Recorded start t) :
    (iptablesAutoRemove t).chains = start := by
  rw [iptablesAutoRemove]
  split
  · rename_i none
    rw [h, none]
    rfl
  · show Journal.replay InstalledRule.delete t.installed.reverse t.chains = start
    rw [h]
    exact Journal.undo_replay delete_insert t.installed start

theorem recordAndInstall_recorded {start : Chains} {t : Tables} (h : Recorded start t)
    (permit : Nat → Bool) (tool : Tool) (chain : Chain) (spec : List Char) :
    Recorded start (recordAndInstall permit tool chain spec t).2 := by
  rw [recordAndInstall]
  split
  · exact h
  split
  · show _ = Journal.replay InstalledRule.insert (t.installed ++ [_]) start
    rw [Journal.replay_snoc, ← h]
  · exact h

/-- Every recorded rule is in a table that one of `rules` is for. -/
def Drawn (rules : List IptablesRule) (t : Tables) : Prop :=
  ∀ i ∈ t.installed, ∃ r ∈ rules, toolOf r = i.tool

theorem recordAndInstall_drawn {rules : List IptablesRule} {t : Tables} (h : Drawn rules t)
    {tool : Tool} (used : ∃ r ∈ rules, toolOf r = tool) (permit : Nat → Bool) (chain : Chain)
    (spec : List Char) : Drawn rules (recordAndInstall permit tool chain spec t).2 := by
  rw [recordAndInstall]
  split
  · exact h
  split
  · intro i member
    rcases List.mem_append.1 member with old | new
    · exact h i old
    · obtain rfl := List.mem_singleton.1 new
      exact used
  · exact h

/-! ## What the steps keep -/

section Keeps

variable {P : Tables → Prop} {permit : Nat → Bool}

theorem orRollback_keeps {step : Bool × Tables} {next : Tables → Bool × Tables} (first : P step.2)
    (second : ∀ t, P t → P (next t).2) : P (orRollback step next).2 := by
  rw [orRollback]
  split
  · exact second _ first
  · exact first

theorem installRule_keeps {queueNum : Int} {r : IptablesRule}
    (keeps : ∀ chain spec t, P t → P (recordAndInstall permit (toolOf r) chain spec t).2)
    {t : Tables} (h : P t) : P (installRule permit queueNum r t).2 := by
  refine orRollback_keeps ?_ ?_
  · split
    · exact keeps _ _ _ h
    · exact h
  · intro t h
    split
    · exact keeps _ _ _ h
    · exact h

theorem installRules_keeps {queueNum : Int} {rules : List IptablesRule}
    (keeps : ∀ r ∈ rules, ∀ chain spec t, P t →
      P (recordAndInstall permit (toolOf r) chain spec t).2)
    {t : Tables} (h : P t) : P (installRules permit queueNum rules t).2 := by
  induction rules generalizing t with
  | nil => exact h
  | cons r rules ih =>
      refine orRollback_keeps (installRule_keeps (keeps r List.mem_cons_self) h) ?_
      exact fun _ h => ih (fun r member => keeps r (List.mem_cons_of_mem _ member)) h

theorem installBypass_keeps {injectMark : UInt32} {anyV4 anyV6 : Bool}
    (v4 : anyV4 = true → ∀ spec t, P t → P (recordAndInstall permit .iptables .output spec t).2)
    (v6 : anyV6 = true → ∀ spec t, P t → P (recordAndInstall permit .ip6tables .output spec t).2)
    {t : Tables} (h : P t) : P (installBypass permit injectMark anyV4 anyV6 t).2 := by
  refine orRollback_keeps ?_ ?_
  · split
    · rename_i used
      exact v4 used _ _ h
    · exact h
  · intro t h
    split
    · rename_i used
      exact v6 used _ _ h
    · exact h

end Keeps

theorem recordAndInstall_other {permit : Nat → Bool} {tool other : Tool} (apart : other ≠ tool)
    (chain : Chain) (spec : List Char) (t : Tables) :
    (recordAndInstall permit tool chain spec t).2.chains other = t.chains other := by
  rw [recordAndInstall]
  split
  · rfl
  split
  · funext chain'
    exact if_neg fun same => apart same.1
  · rfl

theorem recordAndInstall_head {permit : Nat → Bool} {tool : Tool} {chain : Chain}
    {spec : List Char} {t : Tables} (ok : (recordAndInstall permit tool chain spec t).1 = true) :
    ((recordAndInstall permit tool chain spec t).2.chains tool chain).head? = some spec := by
  unfold recordAndInstall at ok ⊢
  split at ok
  · cases ok
  rename_i room
  rw [if_neg room]
  split at ok
  · rename_i granted
    rw [if_pos granted]
    simp [InstalledRule.insert, Chains.edit]
  · cases ok

theorem orRollback_ok {step : Bool × Tables} {next : Tables → Bool × Tables}
    (ok : (orRollback step next).1 = true) :
    step.1 = true ∧ orRollback step next = next step.2 := by
  unfold orRollback at ok ⊢
  split at ok
  · rename_i first
    exact ⟨first, if_pos first⟩
  · rename_i first
    exact absurd ok first

/-- After the bypass it is the first rule of `OUTPUT` in every table that was used. -/
theorem installBypass_head {permit : Nat → Bool} {injectMark : UInt32} {anyV4 anyV6 : Bool}
    {t : Tables} (ok : (installBypass permit injectMark anyV4 anyV6 t).1 = true) :
    let t' := (installBypass permit injectMark anyV4 anyV6 t).2
    (anyV4 = true → (t'.chains .iptables .output).head? = some (bypassSpec injectMark)) ∧
      (anyV6 = true → (t'.chains .ip6tables .output).head? = some (bypassSpec injectMark)) := by
  unfold installBypass at ok ⊢
  obtain ⟨first, same⟩ := orRollback_ok ok
  rw [same] at ok ⊢
  refine ⟨?_, ?_⟩
  · intro used
    rw [if_pos used] at first ok ⊢
    have head := recordAndInstall_head first
    split
    · rw [recordAndInstall_other (by decide)]
      exact head
    · exact head
  · intro used
    simp only [if_pos used] at ok ⊢
    exact recordAndInstall_head ok

/-! ## Specification -/

theorem installAll_recorded {start : Chains} {t : Tables} (h : Recorded start t)
    (permit : Nat → Bool) (queueNum : Int) (injectMark : UInt32) (rules : List IptablesRule) :
    Recorded start (installAll permit queueNum injectMark rules t).2 := by
  have step (tool : Tool) (chain : Chain) (spec : List Char) (t : Tables) (h : Recorded start t) :=
    recordAndInstall_recorded h permit tool chain spec
  refine orRollback_keeps (installRules_keeps (fun r _ => step (toolOf r)) h) ?_
  exact fun _ h => installBypass_keeps (fun _ => step .iptables .output)
    (fun _ => step .ip6tables .output) h

theorem installAll_drawn {rules : List IptablesRule} {t : Tables} (h : Drawn rules t)
    (permit : Nat → Bool) (queueNum : Int) (injectMark : UInt32) :
    Drawn rules (installAll permit queueNum injectMark rules t).2 := by
  have step {tool : Tool} (used : ∃ r ∈ rules, toolOf r = tool) (chain : Chain)
      (spec : List Char) (t : Tables) (h : Drawn rules t) :=
    recordAndInstall_drawn h used permit chain spec
  refine orRollback_keeps (installRules_keeps (fun r member => step ⟨r, member, rfl⟩) h) ?_
  intro t h
  refine installBypass_keeps ?_ ?_ h
  · intro any
    obtain ⟨r, member, version⟩ := List.any_eq_true.1 any
    exact step ⟨r, member, if_neg (by simpa using version)⟩ .output
  · intro any
    obtain ⟨r, member, version⟩ := List.any_eq_true.1 any
    exact step ⟨r, member, if_pos version⟩ .output

/-- The bypass is in front in every table that one of the rules is for. -/
theorem installAll_head {permit : Nat → Bool} {queueNum : Int} {injectMark : UInt32}
    {rules : List IptablesRule} {t : Tables}
    (ok : (installAll permit queueNum injectMark rules t).1 = true) {r : IptablesRule}
    (member : r ∈ rules) :
    ((installAll permit queueNum injectMark rules t).2.chains (toolOf r) .output).head? =
      some (bypassSpec injectMark) := by
  unfold installAll at ok ⊢
  obtain ⟨_, same⟩ := orRollback_ok ok
  rw [same] at ok ⊢
  obtain ⟨v4, v6⟩ := installBypass_head ok
  cases version : r.ipv6 with
  | false =>
      rw [show toolOf r = .iptables by simp [toolOf, version]]
      exact v4 (List.any_eq_true.2 ⟨r, member, by simp [version]⟩)
  | true =>
      rw [show toolOf r = .ip6tables by simp [toolOf, version]]
      exact v6 (List.any_eq_true.2 ⟨r, member, version⟩)

section AutoInstall

variable (permit : Nat → Bool) (prog : FilterProgram) (queueNum : Int) (injectMark : UInt32)
  (t : Tables)

/-- What a requested install comes to. -/
theorem autoInstall_cases :
    let rules := (filterDeriveIptables prog maxDerivedRules).1
    let done := installAll permit queueNum injectMark rules (cleared t)
    let result := iptablesAutoInstall permit true prog queueNum injectMark t
    (rules = [] ∧ result = (false, t)) ∨ (done.1 = true ∧ result = done) ∨
      result = (false, { iptablesAutoRemove done.2 with autoEnabled := false }) := by
  intro rules done result
  by_cases none : rules = []
  · exact .inl ⟨none, if_pos none⟩
  right
  by_cases ok : done.1 = true
  · exact .inl ⟨ok, (if_neg none).trans (if_pos ok)⟩
  · exact .inr ((if_neg none).trans (if_neg ok))

theorem installAll_cleared (rules : List IptablesRule) :
    Recorded t.chains (installAll permit queueNum injectMark rules (cleared t)).2 := by
  have start : Recorded t.chains (cleared t) := rfl
  exact installAll_recorded start permit queueNum injectMark rules

/-- A failed install leaves every chain as it was. -/
theorem autoInstall_failed
    (failed : (iptablesAutoInstall permit true prog queueNum injectMark t).1 = false) :
    (iptablesAutoInstall permit true prog queueNum injectMark t).2.chains = t.chains := by
  rcases autoInstall_cases permit prog queueNum injectMark t with ⟨_, same⟩ | ⟨ok, same⟩ | same
  · rw [same]
  · rw [same, ok] at failed
    cases failed
  · rw [same]
    exact autoRemove_chains (installAll_cleared permit queueNum injectMark t _)

/-- After a successful install the bypass is in front where rules were installed, and a
removal restores every chain. -/
theorem autoInstall_succeeded
    (ok : (iptablesAutoInstall permit true prog queueNum injectMark t).1 = true) :
    let done := (iptablesAutoInstall permit true prog queueNum injectMark t).2
    (∀ i ∈ done.installed, (done.chains i.tool .output).head? = some (bypassSpec injectMark)) ∧
      (iptablesAutoRemove done).chains = t.chains := by
  rcases autoInstall_cases permit prog queueNum injectMark t with ⟨_, same⟩ | ⟨all, same⟩ | same
  · rw [same] at ok
    cases ok
  · rw [same]
    refine ⟨?_, autoRemove_chains (installAll_cleared permit queueNum injectMark t _)⟩
    intro i member
    have start : Drawn (filterDeriveIptables prog maxDerivedRules).1 (cleared t) := nofun
    obtain ⟨r, used, same⟩ := installAll_drawn start permit queueNum injectMark i member
    rw [← same]
    exact installAll_head all used
  · rw [same] at ok
    cases ok

end AutoInstall

/-- **Installing and removing are inverses.**  A failed install leaves every chain as it
was.  After a successful one the bypass is the first rule of `OUTPUT` in every table
that received a rule, and a removal restores every chain. -/
theorem autoInstall_exact (permit : Nat → Bool) (prog : FilterProgram) (queueNum : Int)
    (injectMark : UInt32) (t : Tables) (requested : Bool)
    (fresh : requested = true ∨ t.installed = []) :
    let done := iptablesAutoInstall permit requested prog queueNum injectMark t
    (done.1 = false → done.2.chains = t.chains) ∧
      (done.1 = true →
        (∀ i ∈ done.2.installed,
          (done.2.chains i.tool .output).head? = some (bypassSpec injectMark)) ∧
        (iptablesAutoRemove done.2).chains = t.chains) := by
  cases requested with
  | true =>
      exact ⟨autoInstall_failed permit prog queueNum injectMark t,
        autoInstall_succeeded permit prog queueNum injectMark t⟩
  | false =>
      have empty : t.installed = [] := fresh.resolve_left (by simp)
      have recorded : Recorded t.chains { t with autoEnabled := false } := by
        show t.chains = Journal.replay InstalledRule.insert t.installed t.chains
        rw [empty, Journal.replay_nil]
      refine ⟨nofun, fun _ => ⟨?_, autoRemove_chains recorded⟩⟩
      intro i member
      have held : i ∈ t.installed := member
      rw [empty] at held
      cases held

/-- No rules anywhere. -/
def noRules : Tables :=
  { chains := fun _ _ => [], installed := [], autoEnabled := false, attempts := 0 }

theorem autoInstall_exact_everything :
    let prog : FilterProgram := { nodes := [{ kind := .nTrue }], root := 0 }
    let done := iptablesAutoInstall (fun _ => true) true prog 0 0xC1 noRules
    done.1 = true ∧ (iptablesAutoRemove done.2).chains = noRules.chains := by
  intro prog done
  have ok : done.1 = true := by decide
  exact ⟨ok, ((autoInstall_exact (fun _ => true) prog 0 0xC1 noRules true (.inl rfl)).2 ok).2⟩

end Clumsy.Backend
