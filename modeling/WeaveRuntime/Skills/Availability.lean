/-
Which skills a turn has seen.

The pool that the paths of an iteration call for is `available`: the skills
that are active, open to the model and matched by the context, narrowed to
what the agent asks for. It depends on the context alone. What the turn
offers is that pool filtered by the pool it offered before
(`iterationSkillPool_eq`), so the pools only shrink, and a turn offers what
is available at every iteration just when availability itself only shrinks
(`offered_iff_shrinking`).
-/
import WeaveRuntime.Skills.Catalog

namespace WeaveRuntime.Skills

open Definitions
open Delegation (policyAllowsSkill resolveSkillPool)
open Jobs (Fields)
open Lib (Dict)
open Messages
open Python

variable (paths : Paths) (registry : SkillCatalog) (agent : AgentDefinition)

-- ======== availability

/-- The skill is active, open to the model, and its patterns match the
paths of the context. -/
def matchesContext (context : InvocationResolutionContext)
    (definition : InvocationDefinition) : Bool :=
  definition.activationEnabled && definition.modelInvocable
    && (evaluatePathState paths definition.paths context).1 = .matched

/-- The pool a context calls for, whatever was offered before. -/
def available (context : InvocationResolutionContext) :
    List SkillDefinition :=
  resolveSkillPool
    ((registry.definitions.filter (matchesContext paths context)).map
      (·.skill.toSkillDefinition)) agent.skills

variable {paths registry agent}

-- ============ one step

theorem resolveSkillPool_filter (keep : SkillDefinition → Bool)
    (pool : List SkillDefinition) (selectors : List String) :
    resolveSkillPool (pool.filter keep) selectors
      = (resolveSkillPool pool selectors).filter keep := by
  unfold resolveSkillPool
  split
  · rfl
  · rw [List.filter_filter, List.filter_filter]
    exact List.filter_congr fun skill _ => Bool.and_comm ..

/-- What is visible to the model is what matches, narrowed to the pool of
the policy. -/
theorem visibleSkillDefinitions_eq (context : InvocationResolutionContext)
    (entries : List InvocationDefinition) (pool : List SkillDefinition) :
    (resolveInvocationCatalog paths entries context
        (some pool)).visibleSkillDefinitions none (some true)
      = ((entries.filter (matchesContext paths context)).map
          (·.skill.toSkillDefinition)).filter
            fun skill => policyAllowsSkill skill.name pool := by
  unfold ResolvedInvocationCatalog.visibleSkillDefinitions
    resolveInvocationCatalog
  rw [List.filter_filter, List.filter_map, List.map_map, List.filter_map,
    List.filter_filter]
  refine congrArg₂ List.map rfl (List.filter_congr fun definition _ => ?_)
  rw [Bool.eq_iff_iff]
  simp only [Option.all_none, Option.all_some, Bool.decide_eq_true,
    Bool.true_and, Function.comp_apply, resolveInvocation, policyVisibility,
    Bool.and_eq_true, decide_eq_true_eq, matchesContext]
  tauto

theorem iterationSkillPool_eq (pool : List SkillDefinition)
    (context : InvocationResolutionContext) :
    iterationSkillPool paths registry agent pool context
      = (available paths registry agent context).filter
          fun skill => policyAllowsSkill skill.name pool := by
  unfold iterationSkillPool resolveIterationSkillPool available
  rw [if_pos rfl, visibleSkillDefinitions_eq, resolveSkillPool_filter]

variable {context : InvocationResolutionContext} {skill : SkillDefinition}

/-- So it offers what is available just when all of it was offered
before. -/
theorem iterationSkillPool_eq_available_iff {pool : List SkillDefinition} :
    iterationSkillPool paths registry agent pool context
        = available paths registry agent context
      ↔ ∀ skill ∈ available paths registry agent context,
        policyAllowsSkill skill.name pool = true := by
  rw [iterationSkillPool_eq]
  exact List.filter_eq_self

-- =========== the names

theorem mem_resolveSkillPool {pool : List SkillDefinition}
    {selectors : List String} :
    skill ∈ resolveSkillPool pool selectors
      ↔ skill ∈ pool ∧ (selectors.isEmpty || selectors == ["*"]
        || selectors.contains skill.name) = true := by
  unfold resolveSkillPool
  cases h : selectors.isEmpty || selectors == ["*"] with
  | true => simp
  | false => simp

theorem exists_of_mem_available
    (h : skill ∈ available paths registry agent context) :
    ∃ entry ∈ registry.entries.values, entry.toSkillDefinition = skill
      ∧ registry.isActive entry.name = true := by
  obtain ⟨definition, hdefinition, hskill⟩ :=
    List.mem_map.1 (mem_resolveSkillPool.1 h).1
  obtain ⟨hmem, hmatching⟩ := List.mem_filter.1 hdefinition
  unfold SkillCatalog.definitions at hmem
  obtain ⟨entry, hentry, heq⟩ := List.mem_map.1 hmem
  cases heq
  have hvalues : entry ∈ registry.entries.values :=
    (List.perm_insertionSort _ _).mem_iff.1 hentry
  refine ⟨entry, hvalues, hskill, ?_⟩
  unfold matchesContext at hmatching
  simp only [Bool.and_eq_true] at hmatching
  exact hmatching.1.1

theorem eq_of_name_eq {a b : InvocationResolutionContext}
    {s t : SkillDefinition} (hs : s ∈ available paths registry agent a)
    (ht : t ∈ available paths registry agent b) (hname : s.name = t.name) :
    s = t := by
  obtain ⟨entry, hentry, rfl, -⟩ := exists_of_mem_available hs
  obtain ⟨other, hother, rfl, -⟩ := exists_of_mem_available ht
  obtain ⟨key, hkey⟩ := Dict.mem_values_iff.1 hentry
  obtain ⟨key', hkey'⟩ := Dict.mem_values_iff.1 hother
  have hn := registry.named key entry hkey
  have hn' := registry.named key' other hkey'
  have heq : key = key' := by
    rw [← hn, ← hn']
    exact hname
  rw [heq, hkey'] at hkey
  cases hkey
  rfl

/-- What is available was offered before just when it was available
before. -/
theorem allowed_available_iff {a b : InvocationResolutionContext}
    (hskill : skill ∈ available paths registry agent b) :
    policyAllowsSkill skill.name (available paths registry agent a) = true
      ↔ skill ∈ available paths registry agent a := by
  unfold policyAllowsSkill
  rw [List.any_eq_true]
  refine ⟨fun h => ?_, fun h => ⟨skill, h, beq_self_eq_true _⟩⟩
  obtain ⟨other, hother, hname⟩ := h
  rw [← eq_of_name_eq hother hskill (beq_iff_eq.1 hname)]
  exact hother

theorem allowed_rootSkillPool
    (hskill : skill ∈ available paths registry agent context) :
    policyAllowsSkill skill.name (rootSkillPool registry agent) = true := by
  obtain ⟨entry, hentry, heq, hactive⟩ := exists_of_mem_available hskill
  unfold policyAllowsSkill rootSkillPool
  rw [List.any_eq_true]
  refine ⟨skill, mem_resolveSkillPool.2 ⟨?_, ?_⟩, beq_self_eq_true _⟩
  · refine List.mem_map.2 ⟨entry, ?_, heq⟩
    exact List.mem_filter.2 ⟨hentry, hactive⟩
  · exact (mem_resolveSkillPool.1 hskill).2

-- ============ the runs

/-- What is available at the later context was available at the earlier
one. -/
def Shrinks (paths : Paths) (registry : SkillCatalog)
    (agent : AgentDefinition) (a b : InvocationResolutionContext) : Prop :=
  ∀ skill ∈ available paths registry agent b,
    skill ∈ available paths registry agent a

/-- From a pool that was available, the iterations offer what is available
just when availability shrinks along them. -/
theorem iterationSkillPools_eq_iff (a : InvocationResolutionContext)
    (contexts : List InvocationResolutionContext) :
    iterationSkillPools paths registry agent
        (available paths registry agent a) contexts
        = contexts.map (available paths registry agent)
      ↔ List.IsChain (Shrinks paths registry agent) (a :: contexts) := by
  induction contexts generalizing a with
  | nil => exact iff_of_true rfl (.singleton a)
  | cons b contexts ih =>
    have hstep : iterationSkillPool paths registry agent
        (available paths registry agent a) b
          = available paths registry agent b
        ↔ Shrinks paths registry agent a b := by
      rw [iterationSkillPool_eq_available_iff]
      exact forall₂_congr fun skill hskill => allowed_available_iff hskill
    unfold iterationSkillPools
    rw [List.map_cons, List.cons_eq_cons, List.isChain_cons_cons]
    refine (and_congr_right fun heq => ?_).trans (and_congr_left' hstep)
    rw [heq]
    exact ih b

/-- A turn offers what is available at every iteration just when
availability shrinks from each to the next. -/
theorem offered_iff_shrinking (paths : Paths) (registry : SkillCatalog)
    (agent : AgentDefinition) (contexts : List InvocationResolutionContext) :
    turnSkillPools paths registry agent contexts
        = contexts.map (available paths registry agent)
      ↔ List.IsChain (Shrinks paths registry agent) contexts := by
  cases contexts with
  | nil => exact iff_of_true rfl .nil
  | cons a contexts =>
    have hfirst : iterationSkillPool paths registry agent
        (rootSkillPool registry agent) a
          = available paths registry agent a :=
      iterationSkillPool_eq_available_iff.2
        fun _ hskill => allowed_rootSkillPool hskill
    unfold turnSkillPools iterationSkillPools
    rw [hfirst, List.map_cons, List.cons_eq_cons]
    exact (and_iff_right rfl).trans (iterationSkillPools_eq_iff a contexts)

-- ======== a late match

/-- A skill for the files of one kind. -/
def reviewSkill : CatalogSkill where
  name := "review"
  content := []
  allowedTools := []
  shell := none
  source := .project
  directory := none
  paths := ["*.py"]
  userInvocable := true
  disableModelInvocation := false

def reviewCatalog : SkillCatalog where
  entries := Dict.empty.insert "review" reviewSkill
  activationOverrides := Dict.empty
  named name skill h := by
    rw [Dict.get?_insert] at h
    split at h
    · next hname =>
      cases h
      exact hname.symm
    · rw [Dict.get?_empty] at h
      cases h

def reviewAgent : AgentDefinition where
  name := "main"
  tools := []
  disallowedTools := []
  permissionMode := none
  memory := none
  isolation := none
  skills := []

def plainPaths : Paths where
  resolve := id
  variants _ _ candidate := [candidate]

def userMessage (messageId text : String) (metadata : Fields) :
    RuntimeMessage where
  messageId := messageId
  role := .user
  content := [.text text]
  createdAt := newYear
  attachments := []
  metadata := metadata

/-- The prompt alone, and then with a tool result that saw a file. -/
def lateMatch : List IterationInput :=
  [⟨"/work", [userMessage "prompt" "go on" []], [], []⟩,
    ⟨"/work", [userMessage "prompt" "go on" [],
      userMessage "result" "read" [(.str "tool_results", .list [.none]),
        (.str "observed_paths", .list [.str "main.py"])]], [], []⟩]

/-- The skill that the file calls for is not offered. -/
theorem late_match_stays_hidden : ¬ ∀ (paths : Paths)
    (dumps : Payload → Option String) (registry : SkillCatalog)
    (agent : AgentDefinition) (inputs : List IterationInput)
    (contexts : List InvocationResolutionContext),
    inputs.mapM (buildInvocationResolutionContext paths dumps)
      = some contexts →
    turnSkillPools paths registry agent contexts
      = contexts.map (available paths registry agent) := by
  intro hall
  have htest : (lateMatch.mapM (buildInvocationResolutionContext plainPaths
      fun _ => none)).any (fun contexts =>
        decide ((turnSkillPools plainPaths reviewCatalog reviewAgent
          contexts).map (·.length) = [0, 0])
        && decide ((contexts.map (available plainPaths reviewCatalog
          reviewAgent)).map (·.length) = [0, 1])) = true := by
    decide +kernel
  obtain ⟨contexts, hcontexts, htest⟩ := (Option.any_eq_true ..).1 htest
  obtain ⟨hoffered, havailable⟩ := (Bool.and_eq_true ..).mp htest
  have heq := hall plainPaths (fun _ => none) reviewCatalog reviewAgent
    lateMatch contexts hcontexts
  rw [heq] at hoffered
  have hlengths := (of_decide_eq_true hoffered).symm.trans
    (of_decide_eq_true havailable)
  exact absurd hlengths (by decide)

end WeaveRuntime.Skills
