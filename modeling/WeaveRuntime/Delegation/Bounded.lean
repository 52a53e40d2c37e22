/-
Delegation never escalates: what a policy may do bounds every policy below
it, at any depth.

`Within` is the bound, one clause for each thing a policy limits; it is a
preorder, so it is enough that every single delegation moves along it
(`delegate_within`). Every way to narrow a pool filters what is there, and
every scope and mode is narrowed by its own order.

# The empty pool

A pool narrowed to nothing stays that way down the chain. The gate in front
of a tool call, however, takes an empty pool for no pool: it lets every
registered tool pass. `escalation_iff` gives the chains that never meet
that case: those in which no delegation selects nothing.
-/
import WeaveRuntime.Delegation.Policy

namespace WeaveRuntime.Delegation

open Definitions
open Lib (Dict System)

-- ============== bounds

structure Within (upper lower : ExecutionPolicy) : Prop where
  tools : lower.toolPool ⊆ upper.toolPool
  skills : lower.skillPool ⊆ upper.skillPool
  memory : ∀ scope, upper.memoryScope = some scope →
    ∃ scope', lower.memoryScope = some scope'
      ∧ memoryOrder scope' ≤ memoryOrder scope
  isolation :
    isolationOrder upper.isolationMode ≤ isolationOrder lower.isolationMode
  bypass : lower.permissionContext.mode = .bypassPermissions →
    upper.permissionContext.mode = .bypassPermissions
  dontAsk : upper.permissionContext.mode = .dontAsk →
    lower.permissionContext.mode = .dontAsk

/-- What a policy lets pass is in its pools: a call of a tool, and the start
of a skill. An empty pool lets nothing pass. -/
structure Gated (services : Services) (policy : ExecutionPolicy) : Prop where
  tools : ∀ name definition,
    resolveToolCall services policy name = some definition →
      toolAvailableInPool name policy.toolPool = true
  skills : ∀ name authorized below,
    delegate services policy (.skill name authorized) = some below →
      policyAllowsSkill name policy.skillPool = true

theorem Within.refl (policy : ExecutionPolicy) : Within policy policy where
  tools := List.Subset.refl _
  skills := List.Subset.refl _
  memory scope h := ⟨scope, h, Nat.le_refl _⟩
  isolation := Nat.le_refl _
  bypass h := h
  dontAsk h := h

theorem Within.trans {p q r : ExecutionPolicy} (hpq : Within p q)
    (hqr : Within q r) : Within p r where
  tools := List.Subset.trans hqr.tools hpq.tools
  skills := List.Subset.trans hqr.skills hpq.skills
  memory := by
    intro scope hp
    obtain ⟨scope', hq, hle⟩ := hpq.memory scope hp
    obtain ⟨scope'', hr, hle'⟩ := hqr.memory scope' hq
    exact ⟨scope'', hr, Nat.le_trans hle' hle⟩
  isolation := Nat.le_trans hpq.isolation hqr.isolation
  bypass h := hpq.bypass (hqr.bypass h)
  dontAsk h := hqr.dontAsk (hpq.dontAsk h)

-- =============== pools

theorem byName_from (tools : List ToolDefinition)
    (d : Dict String ToolDefinition) :
    (∀ tool ∈ (tools.foldl (fun d tool => d.insert tool.name tool) d).values,
        tool ∈ tools ∨ tool ∈ d.values)
      ∧ ∀ name, name ∈ d.keys ∨ (∃ tool ∈ tools, tool.name = name)
        → name ∈ (tools.foldl
            (fun d tool => d.insert tool.name tool) d).keys := by
  induction tools generalizing d with
  | nil =>
    refine ⟨fun tool h => Or.inr h, ?_⟩
    intro name h
    rcases h with h | ⟨tool, h, -⟩
    · exact h
    · cases h
  | cons t tools ih =>
    obtain ⟨hval, hkey⟩ := ih (d.insert t.name t)
    refine ⟨?_, ?_⟩
    · intro tool h
      rcases hval tool h with h | h
      · exact Or.inl (List.mem_cons_of_mem _ h)
      · obtain ⟨name, hentry⟩ := Dict.mem_values_iff.1 h
        rw [Dict.get?_insert] at hentry
        split at hentry
        · cases hentry
          exact Or.inl List.mem_cons_self
        · exact Or.inr (Dict.mem_values_iff.2 ⟨name, hentry⟩)
    · intro name h
      refine hkey name ?_
      rcases h with h | ⟨tool, h, hname⟩
      · exact Or.inl (Dict.mem_keys_insert.2 (Or.inr h))
      · rcases List.mem_cons.1 h with rfl | h
        · exact Or.inl (Dict.mem_keys_insert.2 (Or.inl hname.symm))
        · exact Or.inr ⟨tool, h, hname⟩

theorem mem_narrowToolPool {basePool : List ToolDefinition}
    {allowedTools disallowedTools : List String} {tool : ToolDefinition}
    (h : tool ∈ narrowToolPool basePool allowedTools disallowedTools) :
    tool ∈ basePool := by
  unfold narrowToolPool byName at h
  rw [List.mem_mergeSort] at h
  rcases (byName_from _ Dict.empty).1 tool h with h | h
  · exact (List.mem_filter.1 h).1
  · cases h

theorem narrowToolPool_ne_nil_iff {basePool : List ToolDefinition}
    {allowedTools disallowedTools : List String} :
    narrowToolPool basePool allowedTools disallowedTools ≠ []
      ↔ ∃ tool ∈ basePool,
        selects allowedTools disallowedTools tool = true := by
  refine ⟨?_, ?_⟩
  · intro h
    obtain ⟨tool, hmem⟩ := List.exists_mem_of_ne_nil _ h
    unfold narrowToolPool byName at hmem
    rw [List.mem_mergeSort] at hmem
    rcases (byName_from _ Dict.empty).1 tool hmem with hmem | hmem
    · obtain ⟨hbase, hsel⟩ := List.mem_filter.1 hmem
      exact ⟨tool, hbase, hsel⟩
    · cases hmem
  · intro ⟨tool, hbase, hsel⟩ hnil
    have hkey := (byName_from (basePool.filter
      (selects allowedTools disallowedTools)) Dict.empty).2 tool.name
      (Or.inr ⟨tool, List.mem_filter.2 ⟨hbase, hsel⟩, rfl⟩)
    obtain ⟨kept, hkept⟩ := Dict.mem_keys_iff.1 hkey
    have hmem : kept ∈ narrowToolPool basePool allowedTools
        disallowedTools := by
      unfold narrowToolPool byName
      rw [List.mem_mergeSort]
      exact Dict.mem_values_iff.2 ⟨_, hkept⟩
    rw [hnil] at hmem
    cases hmem

theorem resolveSkillPool_subset (basePool : List SkillDefinition)
    (selectors : List String) :
    resolveSkillPool basePool selectors ⊆ basePool := by
  unfold resolveSkillPool
  split
  · exact List.Subset.refl _
  · exact List.filter_sublist.subset

theorem givenOr_self {α : Type} (given : List α) :
    givenOr given given = given := by
  unfold givenOr
  split
  · rfl
  · rfl

-- ==== scopes and modes

theorem narrowMemoryScope_le {scope : MemoryScope}
    (requested : Option MemoryScope) :
    ∃ scope', narrowMemoryScope (some scope) requested = some scope'
      ∧ memoryOrder scope' ≤ memoryOrder scope := by
  cases requested with
  | none => exact ⟨scope, rfl, Nat.le_refl _⟩
  | some requested =>
    show ∃ scope', (if memoryOrder scope ≤ memoryOrder requested then
      some scope else some requested) = some scope' ∧ _
    split
    · exact ⟨scope, rfl, Nat.le_refl _⟩
    · refine ⟨requested, rfl, ?_⟩
      omega

theorem narrowIsolationMode_le (parent : IsolationMode)
    (requested : Option IsolationMode) :
    isolationOrder parent
      ≤ isolationOrder (narrowIsolationMode (some parent) requested) := by
  show isolationOrder parent ≤ isolationOrder
    (if isolationOrder (requested.getD .none) ≤ isolationOrder parent then
      parent else requested.getD .none)
  split
  · exact Nat.le_refl _
  · omega

theorem narrowPermissionMode_bypass {parent : PermissionMode}
    {requested : Option PermissionMode}
    (h : narrowPermissionMode parent requested = .bypassPermissions) :
    parent = .bypassPermissions := by
  cases requested with
  | none => exact h
  | some requested =>
    simp only [narrowPermissionMode] at h
    split at h
    · next hp => exact hp
    · split at h
      · -- a default mode is left for any other one
        split at h
        · exact h
        · next hne => exact absurd h hne
      · split at h
        · split at h
          · next hreq =>
            rw [h] at hreq
            rcases hreq with hreq | hreq
            · cases hreq
            · cases hreq
          · exact h
        · split at h
          · cases h
          · split at h
            · next heq => exact heq ▸ h
            · exact h

theorem narrowPermissionMode_dontAsk (requested : Option PermissionMode) :
    narrowPermissionMode .dontAsk requested = .dontAsk := by
  cases requested with
  | none => rfl
  | some requested => rfl

-- ====== one delegation

variable {services : Services} {policy below : ExecutionPolicy}

theorem within_withEffective (h : Within policy below) :
    Within policy (withEffectivePermissionPolicies services below) := by
  unfold withEffectivePermissionPolicies
  split
  · exact h
  · exact ⟨h.tools, h.skills, h.memory, h.isolation, h.bypass, h.dontAsk⟩

theorem toolPool_withEffective :
    (withEffectivePermissionPolicies services below).toolPool
      = below.toolPool := by
  unfold withEffectivePermissionPolicies
  split
  · rfl
  · rfl

theorem delegate_agent {agent : AgentDefinition}
    {executionSpec : Option AgentExecutionSpec} :
    delegate services policy (.agent agent executionSpec)
      = some (withEffectivePermissionPolicies services
        (resolveAgentExecutionPolicy
          (applyExecutionOverrides agent executionSpec) (some policy)
          policy.toolPool policy.skillPool policy.permissionContext)) := by
  show some (withEffectivePermissionPolicies services
    (resolveAgentExecutionPolicy _ (some policy)
      (givenOr policy.toolPool policy.toolPool)
      (givenOr policy.skillPool policy.skillPool)
      policy.permissionContext)) = _
  rw [givenOr_self, givenOr_self]

theorem delegate_skill {name : String} {authorized : Bool}
    (h : delegate services policy (.skill name authorized) = some below) :
    ∃ skill ∈ policy.skillPool, skill.name = name
      ∧ policy.skillPool.find? (fun s => s.name == name) = some skill
      ∧ below = withEffectivePermissionPolicies services
        (resolveSkillExecutionPolicy skill (some policy) policy.toolPool
          policy.skillPool policy.permissionContext) := by
  have hex : (execute services policy.invocation name authorized).toOption
      = some below := h
  unfold execute at hex
  simp only [ExecutionPolicy.invocation, givenOr_self, Option.isSome_some,
    Bool.true_or, Bool.true_and, Option.getD_some] at hex
  split at hex
  · cases hex
  · next skill hskill =>
    split at hex
    · cases hex
    · next hallowed =>
      split at hex
      · cases hex
        have hin : policyAllowsSkill skill.name policy.skillPool = true := by
          simpa using hallowed
        obtain ⟨member, hmem, hmember⟩ := List.any_eq_true.1 hin
        unfold resolveSkill at hskill
        cases hfind : policy.skillPool.find? (fun s => s.name == name) with
        | some found =>
          rw [hfind] at hskill
          cases hskill
          exact ⟨skill, List.mem_of_find?_eq_some hfind,
            by simpa using List.find?_some hfind, rfl, rfl⟩
        | none =>
          -- a registered skill outside the pool is not let through
          rw [hfind] at hskill
          have hname := services.skillRegistry.named name skill hskill
          rw [hname] at hmember
          exact absurd hmember (List.find?_eq_none.1 hfind member hmem)
      · cases hex

theorem delegate_within {child : ChildExecution}
    (h : delegate services policy child = some below) :
    Within policy below := by
  cases child with
  | agent agent executionSpec =>
    rw [delegate_agent] at h
    cases h
    refine within_withEffective ?_
    refine ⟨fun _ => mem_narrowToolPool, resolveSkillPool_subset _ _, ?_,
      narrowIsolationMode_le _ _, narrowPermissionMode_bypass, ?_⟩
    · intro scope hscope
      show ∃ scope', narrowMemoryScope policy.memoryScope _ = _ ∧ _
      rw [hscope]
      exact narrowMemoryScope_le _
    · intro hmode
      show narrowPermissionMode policy.permissionContext.mode _ = _
      rw [hmode, narrowPermissionMode_dontAsk]
  | skill name authorized =>
    obtain ⟨skill, -, -, -, rfl⟩ := delegate_skill h
    refine within_withEffective ?_
    exact ⟨fun _ => mem_narrowToolPool, List.Subset.refl _,
      fun scope hscope => ⟨scope, hscope, Nat.le_refl _⟩, Nat.le_refl _,
      fun hmode => hmode, fun hmode => hmode⟩

-- ============ the gate

/-- The delegation selects some tool of the pool it starts from. -/
def Leaves (policy : ExecutionPolicy) : ChildExecution → Prop
  | .agent agent _ =>
    ∃ tool ∈ policy.toolPool,
      selects agent.tools agent.disallowedTools tool = true
  | .skill name _ =>
    ∀ skill, policy.skillPool.find? (fun s => s.name == name) = some skill →
      ∃ tool ∈ policy.toolPool, selects skill.allowedTools [] tool = true

theorem delegate_leaves {child : ChildExecution}
    (h : delegate services policy child = some below) :
    below.toolPool ≠ [] ↔ Leaves policy child := by
  cases child with
  | agent agent executionSpec =>
    rw [delegate_agent] at h
    cases h
    rw [toolPool_withEffective]
    have hsame : (applyExecutionOverrides agent executionSpec).tools
          = agent.tools
        ∧ (applyExecutionOverrides agent executionSpec).disallowedTools
          = agent.disallowedTools := by
      cases executionSpec with
      | none => exact ⟨rfl, rfl⟩
      | some spec => exact ⟨rfl, rfl⟩
    show narrowToolPool policy.toolPool
      (applyExecutionOverrides agent executionSpec).tools
      (applyExecutionOverrides agent executionSpec).disallowedTools ≠ []
        ↔ _
    rw [hsame.1, hsame.2, narrowToolPool_ne_nil_iff]
    rfl
  | skill name authorized =>
    obtain ⟨skill, -, -, hfind, rfl⟩ := delegate_skill h
    rw [toolPool_withEffective]
    show narrowToolPool policy.toolPool skill.allowedTools [] ≠ [] ↔ _
    rw [narrowToolPool_ne_nil_iff]
    refine ⟨?_, fun hl => hl skill hfind⟩
    intro hsel skill' hfind'
    cases hfind.symm.trans hfind'
    exact hsel

theorem gated_iff :
    Gated services policy
      ↔ services.toolRegistry.definitions = [] ∨ policy.toolPool ≠ [] := by
  refine ⟨?_, ?_⟩
  · intro h
    by_cases hnil : policy.toolPool = []
    · -- a registered tool passes the gate of an empty pool
      refine Or.inl ?_
      by_contra hreg
      obtain ⟨tool, hmem⟩ := List.exists_mem_of_ne_nil _ hreg
      obtain ⟨name, hget⟩ := Dict.mem_values_iff.1 hmem
      have hname := services.toolRegistry.named name tool hget
      have hfound : services.toolRegistry.get name = some tool := by
        unfold ToolRegistry.get
        rw [hget]
      have hpass : resolveToolCall services policy name = some tool := by
        unfold resolveToolCall canonicalToolName
        rw [hfound]
        simp only [Option.bind_some, hname, hfound, hnil, List.isEmpty_nil]
        rfl
      have hin := h.tools name tool hpass
      rw [hnil] at hin
      cases hin
    · exact Or.inr hnil
  · intro h
    refine ⟨?_, ?_⟩
    · intro name definition hpass
      unfold resolveToolCall at hpass
      split at hpass
      · cases hpass
      · next found hfound =>
        split at hpass
        · cases hpass
        · next hgate =>
          rcases h with hreg | hne
          · -- nothing is registered
            obtain ⟨canonical, -, hget⟩ := Option.bind_eq_some_iff.1 hfound
            have hentries : ∀ k, services.toolRegistry.entries.get? k
                = none := by
              intro k
              by_contra hk
              obtain ⟨tool, ht⟩ := Option.ne_none_iff_exists'.1 hk
              have hmem : tool ∈ services.toolRegistry.definitions :=
                Dict.mem_values_iff.2 ⟨k, ht⟩
              rw [hreg] at hmem
              cases hmem
            unfold ToolRegistry.get at hget
            rw [hentries] at hget
            obtain ⟨owner, -, howner⟩ := Option.bind_eq_some_iff.1 hget
            rw [hentries] at howner
            cases howner
          · simpa [hne] using hgate
    · intro name authorized below hbelow
      obtain ⟨skill, hmem, hname, -, -⟩ := delegate_skill hbelow
      refine List.any_eq_true.2 ⟨skill, hmem, ?_⟩
      rw [hname]
      exact beq_self_eq_true name

-- ============== result

/-- Along a chain of delegations no policy reaches beyond one above it, and
every pool admits only what is in it, exactly if no tool is registered or no
delegation of the chain selects nothing. -/
theorem escalation_iff (services : Services) (policy : ExecutionPolicy)
    (chain : List ChildExecution) :
    ((∀ upper lower,
        (delegation services).Passes policy chain upper lower →
          Within upper lower)
      ∧ ∀ lower, (delegation services).Visits policy chain lower →
        Gated services lower)
      ↔ services.toolRegistry.definitions = []
        ∨ (policy.toolPool ≠ []
          ∧ ∀ upper child lower,
            (delegation services).Takes policy chain upper child lower →
              Leaves upper child) := by
  have hwithin : ∀ upper lower,
      (delegation services).Passes policy chain upper lower →
        Within upper lower := by
    refine (System.passes_iff_takes Within.refl
      fun _ _ _ => Within.trans).2 ?_
    intro upper child lower htake
    obtain ⟨p, q, -, -, hstep⟩ := htake
    exact delegate_within hstep
  have hpools : policy.toolPool ≠ []
      → ((∀ lower, (delegation services).Visits policy chain lower →
          lower.toolPool ≠ [])
        ↔ ∀ upper child lower,
          (delegation services).Takes policy chain upper child lower →
            Leaves upper child) :=
    fun hne => System.visits_iff_takes (I := fun _ => True)
      (fun _ _ _ _ _ => trivial)
      (fun _ _ _ _ _ hstep => delegate_leaves hstep) trivial hne
  refine ⟨?_, ?_⟩
  · intro ⟨_, hgated⟩
    by_cases hreg : services.toolRegistry.definitions = []
    · exact Or.inl hreg
    · refine Or.inr ?_
      have hne : ∀ lower, (delegation services).Visits policy chain lower →
          lower.toolPool ≠ [] := by
        intro lower hv
        exact (gated_iff.1 (hgated lower hv)).resolve_left hreg
      have hstart := hne policy (System.Visits.start policy chain)
      exact ⟨hstart, (hpools hstart).1 hne⟩
  · intro h
    refine ⟨hwithin, ?_⟩
    intro lower hv
    refine gated_iff.2 ?_
    rcases h with hreg | ⟨hne, hleaves⟩
    · exact Or.inl hreg
    · exact Or.inr ((hpools hne).2 hleaves lower hv)

/-- One registered tool. -/
def shellRegistry : ToolRegistry where
  entries := ⟨[("bash", ⟨"bash", []⟩)], List.nodup_singleton _⟩
  aliases := Dict.empty
  named := by
    intro name tool h
    obtain ⟨rfl, rfl⟩ : name = "bash" ∧ tool = ⟨"bash", []⟩ := by
      have hmem := Dict.get?_eq_some_iff.1 h
      simpa using hmem
    rfl

def shellServices : Services where
  toolRegistry := shellRegistry
  skillRegistry := ⟨Dict.empty, Dict.empty, by intro name skill h; cases h⟩
  resolvePolicies := none

/-- An agent that rules out every tool may call them all. -/
theorem empty_pool_admits :
    ¬ ∀ (services : Services) (policy : ExecutionPolicy)
      (chain : List ChildExecution),
      (∀ upper lower,
        (delegation services).Passes policy chain upper lower →
          Within upper lower)
      ∧ ∀ lower, (delegation services).Visits policy chain lower →
        Gated services lower := by
  intro h
  have hgated := (h shellServices
    { toolPool := [⟨"bash", []⟩], skillPool := []
      permissionContext := { sessionId := "s" } }
    [.agent ⟨"reader", [], ["*"], none, none, none, []⟩ none]).2 _
    (System.Visits.finish rfl)
  rcases gated_iff.1 hgated with hreg | hne
  · exact absurd hreg (by decide)
  · obtain ⟨tool, hmem, hsel⟩ := narrowToolPool_ne_nil_iff.1 hne
    cases List.mem_singleton.1 hmem
    exact absurd hsel (by decide)

end WeaveRuntime.Delegation
