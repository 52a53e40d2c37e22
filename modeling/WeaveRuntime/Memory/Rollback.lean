/-
The rollback of a failed consolidation, with other writers of the same
documents.

The run works on a worker thread, one file operation at a time: it reads
every document into a snapshot, the merge writes documents, and when the
merge raises every document of the snapshot is written back and every other
document that is there is removed (`Phase`). Between two of its operations
the foreground may write any document; its writes are taken as they come.
What the merge writes is left open, and so are the orders in which the two
directory listings come.

A document's content is its text as `read_text` returns it. Beside the
documents the state keeps what they would be without the run
(`undisturbed`), which is the foreground's writes and nothing else.

# The argument

Until a path is restored, the snapshot has to hold what the path would
hold without the run: `Agrees`. A write to a path between its snapshot and
its restore breaks this, and nothing else does (`Settled`).
-/
import WeaveRuntime.Lib.Dict
import WeaveRuntime.Lib.System

namespace WeaveRuntime.Memory

open Lib

-- =========== the model

/-- The documents of the long-term memory, by their relative path. -/
abbrev Documents := Dict String String

/-- Where `_execute_background_consolidation` is. -/
inductive Phase where
  /-- before the snapshot -/
  | preparing
  /-- the paths still to be read -/
  | snapshotting (unread : List String) (snapshot : Documents)
  | merging (snapshot : Documents)
  /-- the documents still to be written back, and those to be removed -/
  | restoring (unwritten : List (String × String)) (surplus : List String)
  | failed
  /-- the sessions still to be marked -/
  | marking (unmarked : List String)
  | succeeded

structure Rollback where
  documents : Documents
  undisturbed : Documents
  phase : Phase
  /-- `last_consolidated_at` of the sessions -/
  lastConsolidatedAt : Dict String String

inductive RollbackAction where
  /-- a write of the foreground -/
  | foreground (path content : String)
  /-- `sorted(context.documents_dir.rglob("*.md"))` -/
  | listDocuments (paths : List String)
  /-- the next path of the listing is read -/
  | readDocument
  | mergeWrites (path content : String)
  /-- the merge raises, and the handler lists the documents that are there -/
  | mergeRaises (paths : List String)
  /-- the next document of the snapshot is written back -/
  | writeBack
  /-- the next document that is not in the snapshot is removed -/
  | remove
  /-- the rest of the handler -/
  | giveUp
  /-- the merge returns, for these pending sessions -/
  | mergeReturns (sessions : List String)
  | markSession (completedAt : String)

namespace Rollback

/-- `_snapshot_long_term_documents`, for one path of the listing. -/
def readDocument (documents : Documents) (path : String)
    (snapshot : Documents) : Documents :=
  match documents.get? path with
  | some content => snapshot.insert path content
  | none => snapshot

/-- One operation of the run, or of the foreground. -/
def step (s : Rollback) : RollbackAction → Option Rollback
  | .foreground path content => some { s with
      documents := s.documents.insert path content
      undisturbed := s.undisturbed.insert path content }
  | .listDocuments paths =>
    match s.phase with
    | .preparing =>
      if paths.isPerm s.documents.keys then
        some { s with phase := .snapshotting paths .empty }
      else none
    | _ => none
  | .readDocument =>
    match s.phase with
    | .snapshotting (path :: unread) snapshot => some { s with
        phase := .snapshotting unread
          (readDocument s.documents path snapshot) }
    | .snapshotting [] snapshot => some { s with phase := .merging snapshot }
    | _ => none
  | .mergeWrites path content =>
    match s.phase with
    | .merging _ => some { s with
        documents := s.documents.insert path content }
    | _ => none
  | .mergeRaises paths =>
    match s.phase with
    | .merging snapshot =>
      if paths.isPerm s.documents.keys then
        some { s with
          phase := .restoring snapshot.entries
            (paths.filter fun path => !snapshot.contains path) }
      else none
    | _ => none
  | .writeBack =>
    match s.phase with
    | .restoring ((path, content) :: unwritten) surplus => some { s with
        documents := s.documents.insert path content
        phase := .restoring unwritten surplus }
    | _ => none
  | .remove =>
    match s.phase with
    | .restoring [] (path :: surplus) => some { s with
        documents := s.documents.erase path
        phase := .restoring [] surplus }
    | _ => none
  | .giveUp =>
    match s.phase with
    | .restoring [] [] => some { s with phase := .failed }
    | _ => none
  | .mergeReturns sessions =>
    match s.phase with
    | .merging _ => some { s with phase := .marking sessions }
    | _ => none
  | .markSession completedAt =>
    match s.phase with
    | .marking (session :: unmarked) => some { s with
        lastConsolidatedAt :=
          s.lastConsolidatedAt.insert session completedAt
        phase := .marking unmarked }
    | .marking [] => some { s with phase := .succeeded }
    | _ => none

/-- Before the run. -/
def start (documents : Documents) (marks : Dict String String) :
    Rollback where
  documents := documents
  undisturbed := documents
  phase := .preparing
  lastConsolidatedAt := marks

end Rollback

/-- A consolidation and the foreground. -/
def rollbackSystem : System Rollback RollbackAction where
  step := Rollback.step

/-- A failed merge leaves what was there, and none of what it added. -/
example : (rollbackSystem.run
      (Rollback.start (Dict.empty.insert "a.md" "old") .empty)
      [.listDocuments ["a.md"], .readDocument, .readDocument,
        .mergeWrites "a.md" "new", .mergeWrites "b.md" "new",
        .mergeRaises ["a.md", "b.md"], .writeBack, .remove, .giveUp]).map
      (·.documents.entries) = some [("a.md", "old")] := by
  decide +kernel

-- ======= the invariant

/-- The foreground writes no path that the run has snapshot and not yet
restored, except for what the snapshot holds. -/
def Rollback.Settled (s : Rollback) : RollbackAction → Prop
  | .foreground path content =>
    match s.phase with
    | .snapshotting unread snapshot =>
      path ∈ unread ∨ snapshot.get? path = some content
    | .merging snapshot => snapshot.get? path = some content
    | .restoring unwritten surplus =>
      (∀ text, (path, text) ∈ unwritten → text = content)
        ∧ path ∉ surplus
    | .preparing => True
    | .failed => True
    | .marking _ => True
    | .succeeded => True
  | _ => True

/-- Two directories with the same documents. -/
def Agrees (d e : Documents) : Prop := ∀ path, d.get? path = e.get? path

/-- In each phase, what is to be restored is what the documents would be
without the run, and what is not is there already. -/
def Rollback.Sound (marks : Dict String String) (s : Rollback) : Prop :=
  match s.phase with
  | .preparing =>
    Agrees s.documents s.undisturbed ∧ s.lastConsolidatedAt = marks
  | .snapshotting unread snapshot =>
    Agrees s.documents s.undisturbed ∧ s.lastConsolidatedAt = marks
      ∧ (∀ path ∈ unread, path ∈ s.documents.keys)
      ∧ ∀ path, path ∉ unread →
        snapshot.get? path = s.undisturbed.get? path
  | .merging snapshot =>
    Agrees snapshot s.undisturbed ∧ s.lastConsolidatedAt = marks
  | .restoring unwritten surplus =>
    s.lastConsolidatedAt = marks
      ∧ (∀ path text, (path, text) ∈ unwritten →
        s.undisturbed.get? path = some text)
      ∧ (∀ path ∈ surplus, s.undisturbed.get? path = none)
      ∧ ∀ path, path ∉ unwritten.map Prod.fst → path ∉ surplus →
        s.documents.get? path = s.undisturbed.get? path
  | .failed =>
    Agrees s.documents s.undisturbed ∧ s.lastConsolidatedAt = marks
  | .marking _ => True
  | .succeeded => True

theorem Agrees.insert {d e : Documents} (h : Agrees d e)
    (path content : String) :
    Agrees (d.insert path content) (e.insert path content) := by
  intro p
  rw [Dict.get?_insert, Dict.get?_insert, h p]

theorem Agrees.insert_right {d e : Documents} (h : Agrees d e)
    {path content : String} (hd : d.get? path = some content) :
    Agrees d (e.insert path content) := by
  intro p
  rw [Dict.get?_insert]
  split
  · next hp => rw [hp, hd]
  · exact h p

namespace Rollback

variable {marks : Dict String String} {s s' : Rollback}

theorem sound_start (documents : Documents) (marks : Dict String String) :
    (start documents marks).Sound marks :=
  ⟨fun _ => rfl, rfl⟩

section

variable (h : s.Sound marks)
include h

theorem Sound.foreground {path content : String}
    (hsettled : s.Settled (.foreground path content)) :
    Sound marks { s with
      documents := s.documents.insert path content
      undisturbed := s.undisturbed.insert path content } := by
  unfold Sound at h ⊢
  unfold Settled at hsettled
  cases hphase : s.phase with
  | preparing =>
    simp only [hphase] at h ⊢
    exact ⟨h.1.insert path content, h.2⟩
  | snapshotting unread snapshot =>
    simp only [hphase] at h hsettled ⊢
    obtain ⟨hdocs, hmarks, hlisted, hread⟩ := h
    refine ⟨hdocs.insert path content, hmarks, fun p hp =>
      Dict.mem_keys_insert.2 (Or.inr (hlisted p hp)), fun p hp => ?_⟩
    rw [Dict.get?_insert]
    split
    · next heq =>
        rw [heq] at hp ⊢
        rcases hsettled with hunread | hcontent
        · exact absurd hunread hp
        · exact hcontent
    · exact hread p hp
  | merging snapshot =>
    simp only [hphase] at h hsettled ⊢
    exact ⟨h.1.insert_right hsettled, h.2⟩
  | restoring unwritten surplus =>
    simp only [hphase] at h hsettled ⊢
    obtain ⟨hmarks, hunwritten, hsurplus, hrest⟩ := h
    obtain ⟨hsame, hkept⟩ := hsettled
    refine ⟨hmarks, fun p text hp => ?_, fun p hp => ?_, fun p hp hp' => ?_⟩
    · rw [Dict.get?_insert]
      split
      · next heq => rw [hsame text (heq ▸ hp)]
      · exact hunwritten p text hp
    · have hne : p ≠ path := fun heq => hkept (heq ▸ hp)
      rw [Dict.get?_insert_of_ne _ _ hne]
      exact hsurplus p hp
    · rw [Dict.get?_insert, Dict.get?_insert, hrest p hp hp']
  | failed =>
    simp only [hphase] at h ⊢
    exact ⟨h.1.insert path content, h.2⟩
  | _ => trivial

theorem Sound.readDocument {path : String} {unread : List String}
    {snapshot : Documents}
    (hphase : s.phase = .snapshotting (path :: unread) snapshot) :
    Sound marks { s with
      phase := .snapshotting unread
        (Rollback.readDocument s.documents path snapshot) } := by
  unfold Sound at h ⊢
  simp only [hphase] at h
  obtain ⟨hdocs, hmarks, hlisted, hread⟩ := h
  refine ⟨hdocs, hmarks, fun p hp => hlisted p (List.mem_cons_of_mem _ hp),
    fun p hp => ?_⟩
  obtain ⟨content, hcontent⟩ :=
    Dict.mem_keys_iff.1 (hlisted path (List.mem_cons_self ..))
  unfold Rollback.readDocument
  rw [hcontent]
  dsimp only
  rw [Dict.get?_insert]
  split
  · next heq => rw [heq, ← hdocs path, hcontent]
  · next hne => exact hread p (List.not_mem_cons_of_ne_of_not_mem hne hp)

theorem Sound.mergeRaises {paths : List String} {snapshot : Documents}
    (hphase : s.phase = .merging snapshot)
    (hperm : paths.isPerm s.documents.keys = true) :
    Sound marks { s with
      phase := .restoring snapshot.entries
        (paths.filter fun path => !snapshot.contains path) } := by
  unfold Sound at h ⊢
  simp only [hphase] at h
  obtain ⟨hsnapshot, hmarks⟩ := h
  have hmem : ∀ p, p ∈ paths ↔ p ∈ s.documents.keys :=
    fun p => (List.isPerm_iff.1 hperm).mem_iff
  refine ⟨hmarks, fun p text hp => ?_, fun p hp => ?_, fun p hp hp' => ?_⟩
  · rw [← hsnapshot p]
    exact Dict.get?_eq_some_iff.2 hp
  · have hnot := (List.mem_filter.1 hp).2
    rw [← hsnapshot p]
    simpa [Dict.contains] using hnot
  · have hnone : snapshot.get? p = none := Dict.get?_eq_none_iff.2 hp
    have hgone : p ∉ paths := by
      intro hmem
      refine hp' (List.mem_filter.2 ⟨hmem, ?_⟩)
      simp [Dict.contains, hnone]
    rw [← hsnapshot p, hnone]
    exact Dict.get?_eq_none_iff.2 (mt (hmem p).2 hgone)

theorem Sound.writeBack {path content : String}
    {unwritten : List (String × String)} {surplus : List String}
    (hphase : s.phase = .restoring ((path, content) :: unwritten) surplus) :
    Sound marks { s with
      documents := s.documents.insert path content
      phase := .restoring unwritten surplus } := by
  unfold Sound at h ⊢
  simp only [hphase] at h
  obtain ⟨hmarks, hunwritten, hsurplus, hrest⟩ := h
  refine ⟨hmarks, fun p text hp =>
    hunwritten p text (List.mem_cons_of_mem _ hp), hsurplus,
    fun p hp hp' => ?_⟩
  rw [Dict.get?_insert]
  split
  · next heq =>
      rw [heq]
      exact (hunwritten path content (List.mem_cons_self ..)).symm
  · next hne =>
      refine hrest p ?_ hp'
      rw [List.map_cons]
      exact List.not_mem_cons_of_ne_of_not_mem hne hp

theorem Sound.remove {path : String} {surplus : List String}
    (hphase : s.phase = .restoring [] (path :: surplus)) :
    Sound marks { s with
      documents := s.documents.erase path
      phase := .restoring [] surplus } := by
  unfold Sound at h ⊢
  simp only [hphase] at h
  obtain ⟨hmarks, hunwritten, hsurplus, hrest⟩ := h
  refine ⟨hmarks, hunwritten,
    fun p hp => hsurplus p (List.mem_cons_of_mem _ hp), fun p hp hp' => ?_⟩
  rw [Dict.get?_erase]
  split
  · next heq =>
      rw [heq]
      exact (hsurplus path (List.mem_cons_self ..)).symm
  · next hne => exact hrest p hp (List.not_mem_cons_of_ne_of_not_mem hne hp')

theorem Sound.step {a : RollbackAction}
    (hstep : rollbackSystem.step s a = some s') (hsettled : s.Settled a) :
    s'.Sound marks := by
  simp only [rollbackSystem] at hstep
  cases a with
  | foreground path content =>
    cases hstep
    exact h.foreground hsettled
  | listDocuments paths =>
    simp only [Rollback.step] at hstep
    split at hstep
    · next hphase =>
        split at hstep
        · next hperm =>
            cases hstep
            unfold Sound at h
            simp only [hphase] at h
            have hmem : ∀ p, p ∈ paths ↔ p ∈ s.documents.keys :=
              fun p => (List.isPerm_iff.1 hperm).mem_iff
            refine ⟨h.1, h.2, fun p hp => (hmem p).1 hp, fun p hp => ?_⟩
            rw [← h.1 p]
            exact (Dict.get?_eq_none_iff.2 (mt (hmem p).2 hp)).symm
        · cases hstep
    · cases hstep
  | readDocument =>
    simp only [Rollback.step] at hstep
    split at hstep
    · next hphase =>
        cases hstep
        exact h.readDocument hphase
    · next hphase =>
        cases hstep
        unfold Sound at h
        simp only [hphase] at h
        exact ⟨fun p => h.2.2.2 p List.not_mem_nil, h.2.1⟩
    · cases hstep
  | mergeWrites path content =>
    simp only [Rollback.step] at hstep
    split at hstep
    · next hphase =>
        cases hstep
        unfold Sound at h ⊢
        simp only [hphase] at h ⊢
        exact h
    · cases hstep
  | mergeRaises paths =>
    simp only [Rollback.step] at hstep
    split at hstep
    · next hphase =>
        split at hstep
        · next hperm =>
            cases hstep
            exact h.mergeRaises hphase hperm
        · cases hstep
    · cases hstep
  | writeBack =>
    simp only [Rollback.step] at hstep
    split at hstep
    · next hphase =>
        cases hstep
        exact h.writeBack hphase
    · cases hstep
  | remove =>
    simp only [Rollback.step] at hstep
    split at hstep
    · next hphase =>
        cases hstep
        exact h.remove hphase
    · cases hstep
  | giveUp =>
    simp only [Rollback.step] at hstep
    split at hstep
    · next hphase =>
        cases hstep
        unfold Sound at h
        simp only [hphase] at h
        exact ⟨fun p => h.2.2.2 p List.not_mem_nil List.not_mem_nil, h.1⟩
    · cases hstep
  | mergeReturns sessions =>
    simp only [Rollback.step] at hstep
    split at hstep
    · cases hstep
      trivial
    · cases hstep
  | markSession completedAt =>
    simp only [Rollback.step] at hstep
    split at hstep
    · cases hstep
      trivial
    · cases hstep
      trivial
    · cases hstep

end

end Rollback

/-- In every run whose foreground writes are settled, a failed
consolidation leaves the documents as they would be without it, and no
session marked. -/
theorem failedConsolidation_undisturbed (documents : Documents)
    (marks : Dict String String) (actions : List RollbackAction)
    (hsettled : ∀ s a s', rollbackSystem.Takes (.start documents marks)
      actions s a s' → s.Settled a) {s : Rollback}
    (hs : rollbackSystem.Visits (.start documents marks) actions s)
    (hfailed : s.phase = .failed) :
    Agrees s.documents s.undisturbed ∧ s.lastConsolidatedAt = marks := by
  have hsound : s.Sound marks :=
    System.invariant_of_takes (I := Rollback.Sound marks)
      (fun _ _ _ h hstep ha => h.step hstep ha)
      (Rollback.sound_start documents marks) hsettled hs
  unfold Rollback.Sound at hsound
  simp only [hfailed] at hsound
  exact hsound

-- ==== a write during the merge

def sampleDocuments : Documents :=
  Dict.empty.insert "documents/preferences/a.md" "prefers tabs"

def mergeSample : List RollbackAction :=
  [.listDocuments ["documents/preferences/a.md"], .readDocument,
    .readDocument, .mergeWrites "documents/topics/t.md" "a topic"]

def writeBefore : List RollbackAction :=
  .foreground "documents/preferences/a.md" "prefers spaces" ::
    (mergeSample ++
      [.mergeRaises ["documents/preferences/a.md", "documents/topics/t.md"],
        .writeBack, .remove, .giveUp])

/-- The foreground updates a document and adds another during the merge,
and the merge raises. -/
def writeDuring : List RollbackAction :=
  mergeSample ++
    [.foreground "documents/preferences/a.md" "prefers spaces",
      .foreground "documents/shared/b.md" "ships weekly",
      .mergeRaises ["documents/preferences/a.md", "documents/shared/b.md",
        "documents/topics/t.md"],
      .writeBack, .remove, .remove, .giveUp]

def Phase.isFailed : Phase → Bool
  | .failed => true
  | _ => false

/-- What is looked at in the end. -/
def Rollback.outlook (s : Rollback) :
    Bool × List (String × String) × List (String × String) :=
  (s.phase.isFailed, s.documents.entries, s.undisturbed.entries)

theorem isFailed_iff {phase : Phase} :
    phase.isFailed = true ↔ phase = .failed := by
  cases phase <;> simp [Phase.isFailed]

theorem outlook_writeBefore :
    (rollbackSystem.run (.start sampleDocuments .empty) writeBefore).map
      Rollback.outlook
      = some (true, [("documents/preferences/a.md", "prefers spaces")],
        [("documents/preferences/a.md", "prefers spaces")]) := by
  decide

theorem outlook_writeDuring :
    (rollbackSystem.run (.start sampleDocuments .empty) writeDuring).map
      Rollback.outlook
      = some (true, [("documents/preferences/a.md", "prefers tabs")],
        [("documents/preferences/a.md", "prefers spaces"),
          ("documents/shared/b.md", "ships weekly")]) := by
  decide

theorem failedConsolidation_writeBefore :
    ∃ s, rollbackSystem.run (.start sampleDocuments .empty) writeBefore
        = some s
      ∧ s.phase = .failed ∧ Agrees s.documents s.undisturbed
      ∧ s.lastConsolidatedAt = .empty := by
  obtain ⟨s, hs, hlook⟩ := Option.map_eq_some_iff.1 outlook_writeBefore
  have hfailed : s.phase = .failed :=
    isFailed_iff.1 (congrArg Prod.fst hlook)
  refine ⟨s, hs, hfailed, failedConsolidation_undisturbed sampleDocuments
    .empty writeBefore ?_ (System.Visits.finish hs) hfailed⟩
  intro u a u' htake
  obtain ⟨p, q, heq, hp, -⟩ := htake
  cases p with
  | nil =>
    cases heq
    cases hp
    trivial
  | cons b p =>
    -- the foreground writes once, before the run
    have htail : writeBefore.tail = p ++ a :: q := congrArg List.tail heq
    have hmem : a ∈ writeBefore.tail :=
      htail ▸ List.mem_append_right p (List.mem_cons_self ..)
    simp only [writeBefore, mergeSample, List.tail_cons, List.mem_append,
      List.mem_cons, List.not_mem_nil, or_false] at hmem
    rcases hmem with (rfl | rfl | rfl | rfl) | rfl | rfl | rfl | rfl
    all_goals trivial

/-- A failed consolidation takes back an update of the foreground and
removes a document that the foreground has added. -/
theorem failedConsolidation_loses_writes :
    ∃ s, rollbackSystem.run (.start sampleDocuments .empty) writeDuring
        = some s
      ∧ s.phase = .failed
      ∧ s.undisturbed.get? "documents/preferences/a.md"
        = some "prefers spaces"
      ∧ s.documents.get? "documents/preferences/a.md" = some "prefers tabs"
      ∧ s.undisturbed.get? "documents/shared/b.md" = some "ships weekly"
      ∧ s.documents.get? "documents/shared/b.md" = none := by
  obtain ⟨s, hs, hlook⟩ := Option.map_eq_some_iff.1 outlook_writeDuring
  simp only [Rollback.outlook, Prod.mk.injEq] at hlook
  obtain ⟨hfailed, hdocuments, hundisturbed⟩ := hlook
  refine ⟨s, hs, isFailed_iff.1 hfailed, ?_, ?_, ?_, ?_⟩
  · simp only [Dict.get?, hundisturbed]
    decide
  · simp only [Dict.get?, hdocuments]
    decide
  · simp only [Dict.get?, hundisturbed]
    decide
  · simp only [Dict.get?, hdocuments]
    decide

end WeaveRuntime.Memory
