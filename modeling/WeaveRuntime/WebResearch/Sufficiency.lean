/-
Whether sufficiency is earned.

`stop_reason` says that the evidence is sufficient when enough sources
were inspected, and counts as inspected whatever key occurs in the
evidence: the handle of the source, else of the page, else the URL. So a
promoted snippet counts, an entry without a URL counts under its handle,
and one page counts twice under two handles.

Where an operation adds a new key only for a page it was passed, and all
entries of that page share it (`Earned`), every key has a page of its own
among those that were passed (`Attributed`), and the count is at most the
number of distinct pages.
-/
import WeaveRuntime.WebResearch.LoopState
import Mathlib.Data.Finset.Card

namespace WeaveRuntime.WebResearch

open Jobs (Fields getField)
open Lib
open Python

-- =========== the pages

/-- The page and match URLs an operation is passed. -/
def inspectedUrls : LoopOperation → List String
  | .recordFetch result =>
    [identityValue (getField result "url")].filter (· ≠ "")
  | .recordFind result =>
    (identityValue (getField result "url")
      :: (listOfMappings (getField result "matches")).map fun item =>
        identityValue (getField item "url")).filter (· ≠ "")
  | _ => []

/-- The distinct pages a run has inspected. -/
def pagesInspected (as : List LoopOperation) : List String :=
  (as.flatMap inspectedUrls).dedup

-- ======= the condition

/-- An entry counts for nothing new, or it is for a page whose entries all
have its key. -/
def Earns (evidence : List Evidence) (urls : List String)
    (entry : Evidence) : Prop :=
  entry.key = "" ∨ entry.key ∈ countedKeys evidence
    ∨ entry.url ∈ urls
      ∧ ∀ existing ∈ evidence, existing.url = entry.url →
        existing.key = entry.key

def EarnsAll (urls : List String) : List Evidence → List Fields → Prop
  | _, [] => True
  | evidence, item :: items =>
    (addEvidence evidence item ≠ evidence →
      Earns evidence urls (evidenceOf item))
    ∧ EarnsAll urls (addEvidence evidence item) items

/-- The condition on an operation: what it adds is earned. A snippet may
only be promoted under a key that counts already. -/
def Earned (s : WebResearchLoopState) : LoopOperation → Prop
  | .recordFetch result =>
    EarnsAll (inspectedUrls (.recordFetch result)) s.evidence
      [fetchedItem result]
  | .recordFind result =>
    EarnsAll (inspectedUrls (.recordFind result)) s.evidence
      (listOfMappings (getField result "matches"))
  | .recordSnippetEvidence results limit =>
    ∀ item ∈ sliceTo limit results, (snippetOf item).1 = ""
      ∨ (snippetOf item).2 = ""
      ∨ (snippetOf item).1 ∈ s.evidence.map (·.url)
      ∨ Earns s.evidence [] (evidenceOf
          (snippetItem item (snippetOf item).1 (snippetOf item).2))
  | _ => True

-- ======= the invariant

/-- Every key that counts has a page of its own: one of those inspected,
with an entry for it under the key. -/
def Attributed (evidence : List Evidence) (pages : List String) : Prop :=
  ∃ page : String → String,
    (∀ key ∈ countedKeys evidence, page key ∈ pages
      ∧ ∃ entry ∈ evidence, entry.key = key ∧ entry.url = page key)
    ∧ ∀ key ∈ countedKeys evidence, ∀ key' ∈ countedKeys evidence,
      page key = page key' → key = key'

variable {evidence : List Evidence} {pages : List String}
  {s : WebResearchLoopState} {urls : List String}

theorem mem_countedKeys {key : String} :
    key ∈ countedKeys evidence
      ↔ key ≠ "" ∧ ∃ entry ∈ evidence, entry.key = key := by
  unfold countedKeys
  rw [List.mem_filter, List.mem_map, decide_eq_true_eq]
  exact and_comm

theorem Attributed.count_le (h : Attributed evidence pages) :
    inspectedSourceCount evidence ≤ pages.dedup.length := by
  obtain ⟨page, hpages, hinj⟩ := h
  unfold inspectedSourceCount
  rw [← List.card_toFinset, ← List.card_toFinset]
  refine Finset.card_le_card_of_injOn page ?_ ?_
  · intro key hkey
    have hmem := List.mem_toFinset.1 (Finset.mem_coe.1 hkey)
    exact Finset.mem_coe.2 (List.mem_toFinset.2 (hpages key hmem).1)
  · intro key hkey key' hkey' heq
    exact hinj key (List.mem_toFinset.1 (Finset.mem_coe.1 hkey)) key'
      (List.mem_toFinset.1 (Finset.mem_coe.1 hkey')) heq

theorem attributed_nil (pages : List String) : Attributed [] pages := by
  refine ⟨id, ?_, ?_⟩
  · intro key hkey
    cases hkey
  · intro key hkey
    cases hkey

theorem Attributed.mono {pages' : List String} (h : Attributed evidence pages)
    (hsub : ∀ url ∈ pages, url ∈ pages') : Attributed evidence pages' := by
  obtain ⟨page, hpages, hinj⟩ := h
  refine ⟨page, fun key hkey => ⟨?_, (hpages key hkey).2⟩, hinj⟩
  exact hsub _ (hpages key hkey).1

theorem Attributed.append (h : Attributed evidence pages)
    (hurls : ∀ url ∈ urls, url ∈ pages) {entry : Evidence}
    (hearns : Earns evidence urls entry) :
    Attributed (evidence ++ [entry]) pages := by
  obtain ⟨page, hpages, hinj⟩ := h
  have hkeys : ∀ key, key ∈ countedKeys (evidence ++ [entry]) →
      key ∈ countedKeys evidence ∨ key ≠ "" ∧ entry.key = key := by
    intro key hkey
    obtain ⟨hne, e, he, hek⟩ := mem_countedKeys.1 hkey
    obtain he | he := List.mem_append.1 he
    · exact Or.inl (mem_countedKeys.2 ⟨hne, e, he, hek⟩)
    · cases List.mem_singleton.1 he
      exact Or.inr ⟨hne, hek⟩
  by_cases hnew : entry.key = "" ∨ entry.key ∈ countedKeys evidence
  · -- no key is new
    have hsame : ∀ key, key ∈ countedKeys (evidence ++ [entry]) →
        key ∈ countedKeys evidence := by
      intro key hkey
      obtain hkey | ⟨hne, rfl⟩ := hkeys key hkey
      · exact hkey
      · exact hnew.resolve_left hne
    refine ⟨page, fun key hkey => ?_, fun key hkey key' hkey' =>
      hinj key (hsame key hkey) key' (hsame key' hkey')⟩
    obtain ⟨hpage, e, he, heq⟩ := hpages key (hsame key hkey)
    exact ⟨hpage, e, List.mem_append_left _ he, heq⟩
  · obtain ⟨hne, hfresh⟩ := not_or.1 hnew
    obtain hempty | hcounted | ⟨hurl, hshared⟩ := hearns
    · exact absurd hempty hne
    · exact absurd hcounted hfresh
    -- the page is not another key's: its entries all have the new key
    have hapart : ∀ key ∈ countedKeys evidence, page key ≠ entry.url := by
      intro key hkey heq
      obtain ⟨-, e, he, hek, heu⟩ := hpages key hkey
      have hshare := hshared e he (heu.trans heq)
      rw [hek] at hshare
      exact hfresh (hshare ▸ hkey)
    have hother : ∀ key ∈ countedKeys evidence, key ≠ entry.key :=
      fun key hkey heq => hfresh (heq ▸ hkey)
    refine ⟨Function.update page entry.key entry.url, ?_, ?_⟩
    · intro key hkey
      obtain hkey | ⟨-, rfl⟩ := hkeys key hkey
      · rw [Function.update_of_ne (hother key hkey)]
        obtain ⟨hpage, e, he, heq⟩ := hpages key hkey
        exact ⟨hpage, e, List.mem_append_left _ he, heq⟩
      · rw [Function.update_self]
        exact ⟨hurls _ hurl, entry,
          List.mem_append_right _ List.mem_cons_self, rfl, rfl⟩
    · intro key hkey key' hkey' heq
      obtain hkey | ⟨-, rfl⟩ := hkeys key hkey
      · rw [Function.update_of_ne (hother key hkey)] at heq
        obtain hkey' | ⟨-, rfl⟩ := hkeys key' hkey'
        · rw [Function.update_of_ne (hother key' hkey')] at heq
          exact hinj key hkey key' hkey' heq
        · rw [Function.update_self] at heq
          exact absurd heq (hapart key hkey)
      · rw [Function.update_self] at heq
        obtain hkey' | ⟨-, rfl⟩ := hkeys key' hkey'
        · rw [Function.update_of_ne (hother key' hkey')] at heq
          exact absurd heq.symm (hapart key' hkey')
        · rfl

theorem addEvidence_cases (evidence : List Evidence) (item : Fields) :
    addEvidence evidence item = evidence
      ∨ addEvidence evidence item = evidence ++ [evidenceOf item] := by
  unfold addEvidence
  dsimp only
  split
  · exact Or.inl rfl
  · split
    · exact Or.inl rfl
    · exact Or.inr rfl

theorem Attributed.addEvidence (h : Attributed evidence pages)
    (hurls : ∀ url ∈ urls, url ∈ pages) {item : Fields}
    (hearns : addEvidence evidence item ≠ evidence →
      Earns evidence urls (evidenceOf item)) :
    Attributed (addEvidence evidence item) pages := by
  by_cases hsame : WebResearch.addEvidence evidence item = evidence
  · rw [hsame]
    exact h
  · rw [(addEvidence_cases evidence item).resolve_left hsame]
    exact h.append hurls (hearns hsame)

theorem Attributed.foldl (h : Attributed evidence pages)
    (hurls : ∀ url ∈ urls, url ∈ pages) {items : List Fields}
    (hearns : EarnsAll urls evidence items) :
    Attributed (items.foldl WebResearch.addEvidence evidence) pages := by
  induction items generalizing evidence with
  | nil => exact h
  | cons item items ih =>
    obtain ⟨hhead, htail⟩ := hearns
    rw [List.foldl_cons]
    exact ih (h.addEvidence hurls hhead) htail

theorem countedKeys_addEvidence (item : Fields) {key : String}
    (h : key ∈ countedKeys evidence) :
    key ∈ countedKeys (addEvidence evidence item) := by
  obtain heq | heq := addEvidence_cases evidence item
  · rw [heq]
    exact h
  · rw [heq]
    obtain ⟨hne, e, he, hek⟩ := mem_countedKeys.1 h
    exact mem_countedKeys.2 ⟨hne, e, List.mem_append_left _ he, hek⟩

theorem Attributed.promote (h : Attributed evidence pages)
    {existingUrls : List String} {items : List Fields}
    (hearns : ∀ item ∈ items, (snippetOf item).1 = ""
      ∨ (snippetOf item).2 = "" ∨ (snippetOf item).1 ∈ existingUrls
      ∨ Earns evidence [] (evidenceOf
          (snippetItem item (snippetOf item).1 (snippetOf item).2))) :
    Attributed (promoteSnippets evidence existingUrls items) pages := by
  induction items generalizing evidence existingUrls with
  | nil => exact h
  | cons item items ih =>
    have hrest := fun it hit => hearns it (List.mem_cons_of_mem item hit)
    unfold promoteSnippets
    dsimp only
    split
    · exact ih h hrest
    · next hnot =>
      have hhead := hearns item List.mem_cons_self
      have hearn : Earns evidence [] (evidenceOf
          (snippetItem item (snippetOf item).1 (snippetOf item).2)) := by
        obtain hurl | hsnippet | hknown | hearn := hhead
        · exact absurd (Or.inl hurl) hnot
        · exact absurd (Or.inr (Or.inl hsnippet)) hnot
        · exact absurd (Or.inr (Or.inr hknown)) hnot
        · exact hearn
      have hurls : ∀ url ∈ ([] : List String), url ∈ pages := by
        intro url hurl
        cases hurl
      refine ih (h.addEvidence hurls fun _ => hearn) fun it hit => ?_
      obtain hurl | hsnippet | hknown | hlater := hrest it hit
      · exact Or.inl hurl
      · exact Or.inr (Or.inl hsnippet)
      · refine Or.inr (Or.inr (Or.inl ?_))
        split
        · exact List.mem_cons_of_mem _ hknown
        · exact hknown
      · refine Or.inr (Or.inr (Or.inr ?_))
        obtain hempty | hcounted | ⟨hurl, -⟩ := hlater
        · exact Or.inl hempty
        · exact Or.inr (Or.inl (countedKeys_addEvidence _ hcounted))
        · cases hurl

-- ================ runs

theorem attributed_step {a : LoopOperation} (h : Attributed s.evidence pages)
    (hok : Earned s a) :
    Attributed (loopStep s a).evidence (pages ++ inspectedUrls a) := by
  have hmono : Attributed s.evidence (pages ++ inspectedUrls a) :=
    h.mono fun url hurl => List.mem_append_left _ hurl
  have hurls : ∀ url ∈ inspectedUrls a, url ∈ pages ++ inspectedUrls a :=
    fun url hurl => List.mem_append_right _ hurl
  cases a with
  | reserve kind =>
    have hsame : (s.reserve kind).evidence = s.evidence := by
      unfold WebResearchLoopState.reserve
      split
      · rfl
      · split
        · rfl
        · cases kind <;> rfl
    show Attributed (s.reserve kind).evidence _
    rw [hsame]
    exact hmono
  | recordSearch result => exact hmono
  | recordFetch result =>
    have hearns : EarnsAll (inspectedUrls (.recordFetch result)) s.evidence
      [fetchedItem result] := hok
    simp only [loopStep, WebResearchLoopState.recordFetch]
    exact hmono.addEvidence hurls hearns.1
  | recordFind result =>
    have hearns : EarnsAll (inspectedUrls (.recordFind result)) s.evidence
      (listOfMappings (getField result "matches")) := hok
    simp only [loopStep, WebResearchLoopState.recordFind]
    exact hmono.foldl hurls hearns
  | recordSnippetEvidence results limit =>
    simp only [loopStep, WebResearchLoopState.recordSnippetEvidence]
    exact hmono.promote hok
  | recordRejection error =>
    have hsame : (s.recordRejection error).evidence = s.evidence := by
      unfold WebResearchLoopState.recordRejection
      split
      · rfl
      · rfl
    show Attributed (s.recordRejection error).evidence _
    rw [hsame]
    exact hmono
  | recordOperationFailure => exact hmono

theorem reserve_request (s : WebResearchLoopState) (kind : BudgetKind) :
    (s.reserve kind).request = s.request := by
  unfold WebResearchLoopState.reserve
  split
  · rfl
  · split
    · rfl
    · cases kind <;> rfl

theorem recordRejection_request (s : WebResearchLoopState)
    (error : String) : (s.recordRejection error).request = s.request := by
  unfold WebResearchLoopState.recordRejection
  split
  · rfl
  · rfl

theorem request_step (s : WebResearchLoopState) (a : LoopOperation) :
    (loopStep s a).request = s.request := by
  cases a with
  | reserve kind => exact reserve_request s kind
  | recordRejection error => exact recordRejection_request s error
  | recordSearch result =>
    simp only [loopStep, WebResearchLoopState.recordSearch,
      WebResearchLoopState.recordProviderAndFreshness]
  | recordFetch result =>
    simp only [loopStep, WebResearchLoopState.recordFetch,
      WebResearchLoopState.recordProviderAndFreshness]
  | recordFind result =>
    simp only [loopStep, WebResearchLoopState.recordFind,
      WebResearchLoopState.recordProviderAndFreshness]
  | recordSnippetEvidence results limit =>
    simp only [loopStep, WebResearchLoopState.recordSnippetEvidence]
  | recordOperationFailure => rfl

theorem attributed_run {t : WebResearchLoopState} {as : List LoopOperation}
    (h : Attributed s.evidence pages) (hrun : loopSystem.run s as = some t)
    (hok : ∀ u a u', loopSystem.Takes s as u a u' → Earned u a) :
    Attributed t.evidence (pages ++ as.flatMap inspectedUrls) := by
  induction as generalizing s pages with
  | nil =>
    cases hrun
    rw [List.flatMap_nil, List.append_nil]
    exact h
  | cons a as ih =>
    obtain ⟨m, hstep, hrest⟩ := System.run_cons_eq_some.1 hrun
    have hfirst := hok s a m ⟨[], as, rfl, rfl, hstep⟩
    cases hstep
    rw [List.flatMap_cons, ← List.append_assoc]
    refine ih (attributed_step h hfirst) hrest fun u b u' htake => ?_
    exact hok u b u' ((System.takes_cons rfl).2 (Or.inr htake))

theorem request_run {t : WebResearchLoopState} {as : List LoopOperation}
    (hrun : loopSystem.run s as = some t) : t.request = s.request := by
  induction as generalizing s with
  | nil =>
    cases hrun
    rfl
  | cons a as ih =>
    obtain ⟨m, hstep, hrest⟩ := System.run_cons_eq_some.1 hrun
    cases hstep
    rw [ih hrest, request_step]

theorem enough_of_sufficient {childStatus : PyVal}
    (h : s.stopReason childStatus = "sufficient_evidence") :
    s.request.desiredSources ≤ inspectedSourceCount s.evidence := by
  unfold WebResearchLoopState.stopReason at h
  split at h
  · -- without evidence a claim of sufficiency is turned down
    split at h
    · exact absurd h (by decide)
    split at h
    · exact absurd h (by decide)
    split at h
    · exact absurd h (by decide)
    split at h
    · exact absurd h (by decide)
    split at h
    · exact absurd h (by decide)
    · next hnot => exact absurd h hnot
  · split at h
    · exact absurd h (by decide)
    split at h
    · exact absurd h (by decide)
    split at h
    · exact absurd h (by decide)
    split at h
    · exact absurd h (by decide)
    · next henough => exact not_lt.1 henough

/-- **Sufficiency.** In a run whose steps are earned, the sources that
count as inspected are never more than the distinct pages inspected, and
sufficiency means as many of those as were asked for. -/
theorem sufficiency_earned {s₀ : WebResearchLoopState}
    {as : List LoopOperation} (hstart : s₀.evidence = [])
    (hok : ∀ s a s', loopSystem.Takes s₀ as s a s' → Earned s a) :
    ∀ p q, as = p ++ q → ∀ t, loopSystem.run s₀ p = some t →
      inspectedSourceCount t.evidence ≤ (pagesInspected p).length
        ∧ ∀ childStatus, t.stopReason childStatus = "sufficient_evidence" →
          s₀.request.desiredSources ≤ (pagesInspected p).length := by
  intro p q has t hrun
  have hok' : ∀ s a s', loopSystem.Takes s₀ p s a s' → Earned s a := by
    intro s a s' htake
    obtain ⟨front, back, rfl, hfront, hstep⟩ := htake
    refine hok s a s' ⟨front, back ++ q, ?_, hfront, hstep⟩
    rw [has, List.append_assoc, List.cons_append]
  have hattributed := attributed_run (hstart ▸ attributed_nil []) hrun hok'
  have hcount : inspectedSourceCount t.evidence ≤ (pagesInspected p).length :=
    hattributed.count_le
  refine ⟨hcount, fun childStatus h => ?_⟩
  have henough := enough_of_sufficient h
  rw [request_run hrun] at henough
  exact le_trans henough (Int.ofNat_le.2 hcount)

-- ====== budgets

def LoopOperation.reserves (kind : BudgetKind) : LoopOperation → Bool
  | .reserve other => other = kind
  | _ => false

/-- Only a reservation of the kind takes from its budget, while it lasts. -/
theorem used_step {kind : BudgetKind} {b : Int} (a : LoopOperation)
    (hbudget : s.request.budget kind = some b) :
    (loopStep s a).used kind
      = if a.reserves kind ∧ s.used kind < b then s.used kind + 1
        else s.used kind := by
  cases a with
  | reserve other =>
    simp only [loopStep, WebResearchLoopState.reserve,
      LoopOperation.reserves, decide_eq_true_eq]
    by_cases hkind : other = kind
    · subst hkind
      rw [hbudget]
      dsimp only
      by_cases hleft : s.used other < b
      · rw [if_neg hleft.not_ge, if_pos ⟨rfl, hleft⟩]
        cases other <;> rfl
      · rw [if_pos (not_lt.1 hleft), if_neg fun h => hleft h.2]
        cases other <;> rfl
    · rw [if_neg fun h => hkind h.1]
      split
      · rfl
      · split <;> cases other <;> cases kind <;> simp_all <;> rfl
  | recordRejection error =>
    show (s.recordRejection error).used kind = s.used kind
    unfold WebResearchLoopState.recordRejection
    split <;> cases kind <;> rfl
  | recordOperationFailure => cases kind <;> rfl
  | _ =>
    cases kind <;>
      simp only [loopStep, WebResearchLoopState.used,
        WebResearchLoopState.recordSearch, WebResearchLoopState.recordFetch,
        WebResearchLoopState.recordFind,
        WebResearchLoopState.recordSnippetEvidence,
        WebResearchLoopState.recordProviderAndFreshness,
        LoopOperation.reserves] <;> rfl

/-- Of the reservations of a kind just the first ones are granted, as many
as its budget: what a run has used is never more. -/
theorem budgets_hold {t : WebResearchLoopState} {as : List LoopOperation}
    {kind : BudgetKind} {b : Int} (hrun : loopSystem.run s as = some t)
    (hbudget : s.request.budget kind = some b) :
    t.used kind = max (s.used kind)
      (min (s.used kind + as.countP (·.reserves kind)) b.toNat) := by
  induction as generalizing s with
  | nil =>
    cases hrun
    simp
  | cons a as ih =>
    obtain ⟨m, hstep, hrest⟩ := System.run_cons_eq_some.1 hrun
    cases hstep
    rw [ih hrest (request_step s a ▸ hbudget), used_step a hbudget,
      List.countP_cons]
    by_cases hkind : a.reserves kind = true
    · simp only [hkind, true_and, if_true]
      split <;> omega
    · simp only [hkind, Bool.false_eq_true, false_and, if_false]
      rfl

-- ====== two short runs

/-- A run that wants some number of sources. -/
def freshState (desired : Int) : WebResearchLoopState where
  request :=
    { freshnessDays := none
      freshnessRequired := false
      desiredSourceCount := some desired
      searchBudget := none
      fetchBudget := none
      findBudget := none }

/-- A page or a search result, with the handle of its source. -/
def shortItem (url handle excerpt : String) : Fields :=
  [(.str "url", .str url), (.str "source_handle", .str handle),
    (.str "excerpt", .str excerpt)]

def snippetRun : List LoopOperation :=
  [.recordSearch [], .recordSnippetEvidence [shortItem "u" "h" "x"] 3]

def handlesRun : List LoopOperation :=
  [.recordFetch (shortItem "u" "h1" "x"),
    .recordFetch (shortItem "u" "h2" "y")]

/-- Two searches are asked for under a budget of one. -/
def searchTwice : WebResearchLoopState where
  request := { (freshState 1).request with searchBudget := some 1 }

theorem budgets_hold_searches : ∃ t, loopSystem.run searchTwice
      [.reserve .search, .reserve .search] = some t
    ∧ t.used .search = 1 := by
  have hrun : loopSystem.run searchTwice
      [.reserve .search, .reserve .search] = some _ := rfl
  have hbudget : searchTwice.request.budget .search = some 1 := rfl
  exact ⟨_, hrun, budgets_hold hrun hbudget⟩

/-- A snippet alone suffices, and one page counts for two. -/
theorem sufficient_without_pages :
    (∃ t, loopSystem.run (freshState 1) snippetRun = some t
        ∧ t.stopReason .none = "sufficient_evidence"
        ∧ pagesInspected snippetRun = [])
      ∧ ∃ t, loopSystem.run (freshState 2) handlesRun = some t
        ∧ t.stopReason .none = "sufficient_evidence"
        ∧ pagesInspected handlesRun = ["u"] := by
  refine ⟨⟨_, rfl, ?_, rfl⟩, ⟨_, rfl, ?_, ?_⟩⟩
  · decide +kernel
  · decide +kernel
  · decide +kernel

/-- One page under one handle. -/
theorem sufficiency_earned_fetch : ∃ t,
    loopSystem.run (freshState 1) [.recordFetch (shortItem "u" "h" "x")]
      = some t
    ∧ t.stopReason .none = "sufficient_evidence"
    ∧ inspectedSourceCount t.evidence
      ≤ (pagesInspected [.recordFetch (shortItem "u" "h" "x")]).length := by
  have hok : ∀ s a s', loopSystem.Takes (freshState 1)
      [.recordFetch (shortItem "u" "h" "x")] s a s' → Earned s a := by
    intro s a s' htake
    obtain ⟨rfl, rfl, -⟩ | htake := (System.takes_cons rfl).1 htake
    · refine ⟨fun _ => Or.inr (Or.inr ⟨?_, ?_⟩), trivial⟩
      · decide +kernel
      · intro existing hexisting
        cases hexisting
    · obtain ⟨p, q, heq, -⟩ := htake
      cases p with
      | nil => cases heq
      | cons _ _ => cases heq
  refine ⟨_, rfl, ?_, ?_⟩
  · decide +kernel
  · exact (sufficiency_earned rfl hok _ [] (List.append_nil _).symm _
      rfl).1

end WeaveRuntime.WebResearch
