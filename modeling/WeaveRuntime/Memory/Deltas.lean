/-
How often a long-term document is recorded in the metadata of a session.

Within a call a path is recorded once: `recordDocuments` adds the text it
looks for. Between calls the texts that are read back are those of paths
from the memory root (`Stored`), and none of them is the text of a path
with a root, so a call records again whatever an earlier call recorded.
The paths in the file are those of the calls, one call after the other
(`storedPaths_afterCalls`), and each is there once exactly where no two
calls share one.
-/
import Mathlib.Data.List.Nodup
import WeaveRuntime.Memory.SessionArtifacts

namespace WeaveRuntime.Memory

open Jobs (Fields getField setField lookupKey_setField)
open Lib
open Python

variable {context : ResolvedMemoryScope}

-- ============= reports

def LongTerm (context : ResolvedMemoryScope) (path : PurePath) : Prop :=
  (path.relativeTo context.documentsDir).isSome

instance (path : PurePath) : Decidable (LongTerm context path) :=
  inferInstanceAs (Decidable (_ = true))

def reportedPaths (context : ResolvedMemoryScope) (call : DeltaCall) :
    List PurePath :=
  (call.persisted.map (·.path)).filter fun path => LongTerm context path

/-- The two calls share no long-term document. -/
def Apart (context : ResolvedMemoryScope) (call other : DeltaCall) : Prop :=
  (reportedPaths context call).Disjoint (reportedPaths context other)

def entryPath (context : ResolvedMemoryScope) (path : PurePath) : PyVal :=
  .str ((path.relativeTo context.memoryRoot).elim "" (·.text))

def fileDeltas (files : SessionFiles) : List Fields :=
  storedDeltas (files.metadata.getD [])

def fileDeltaCount (files : SessionFiles) : PyVal :=
  (lookupKey (files.metadata.getD []) "durable_memory_delta_count").getD
    (.int 0)

/-- The paths of the entries. -/
def storedPaths (files : SessionFiles) : List PyVal :=
  (fileDeltas files).map fun entry => getField entry "path"

def ManifestCount (context : ResolvedMemoryScope) (files : SessionFiles)
    (count : PyVal) : Prop :=
  ∀ entry ∈ manifestSessions files.manifest,
    textOf (getField entry "session_id")
        = some (metadataSessionId context (files.metadata.getD [])) →
      getField entry "durable_memory_delta_count" = count

/-- A session with nothing recorded yet. -/
structure Fresh (context : ResolvedMemoryScope) (files : SessionFiles) :
    Prop where
  deltas : fileDeltas files = []
  count : fileDeltaCount files = .int 0
  manifest : ManifestCount context files (.int 0)

/-- One entry for each path of the long-term documents that were
reported, and their number is what the two counts say. -/
def RecordedOnce (context : ResolvedMemoryScope) (calls : List DeltaCall)
    (files : SessionFiles) : Prop :=
  ∃ paths : List PurePath, paths.Nodup
    ∧ (∀ path, path ∈ paths
      ↔ ∃ call ∈ calls, path ∈ reportedPaths context call)
    ∧ storedPaths files = paths.map (entryPath context)
    ∧ fileDeltaCount files = .int paths.length
    ∧ ManifestCount context files (.int paths.length)

-- =============== paths

variable {calls : List DeltaCall} {files : SessionFiles} {known : List String}
  {path : PurePath} {paths seen : List PurePath}

theorem LongTerm.absolute (h : LongTerm context path) :
    path.absolute = true := by
  obtain ⟨rest, hrest⟩ := Option.isSome_iff_exists.1 h
  obtain ⟨hroot, -⟩ := PurePath.relativeTo_eq_some.1 hrest
  exact hroot.trans context.rooted

theorem LongTerm.relative (h : LongTerm context path) :
    ∃ rest, path.relativeTo context.memoryRoot = some rest := by
  obtain ⟨rest, hrest⟩ := Option.isSome_iff_exists.1 h
  exact ⟨_, PurePath.relativeTo_of_child hrest⟩

theorem entryPath_of_relative {rest : PurePath}
    (h : path.relativeTo context.memoryRoot = some rest) :
    entryPath context path = .str rest.text := by
  unfold entryPath
  rw [h]
  rfl

theorem entryPath_injOn {other : PurePath} (h : LongTerm context path)
    (h' : LongTerm context other)
    (heq : entryPath context path = entryPath context other) :
    path = other := by
  obtain ⟨rest, hrest⟩ := h.relative
  obtain ⟨rest', hrest'⟩ := h'.relative
  rw [entryPath_of_relative hrest, entryPath_of_relative hrest',
    PyVal.str.injEq] at heq
  cases PurePath.text_injective heq
  exact PurePath.relativeTo_injective hrest hrest'

theorem mem_reportedPaths {call : DeltaCall} :
    path ∈ reportedPaths context call
      ↔ path ∈ call.persisted.map (·.path) ∧ LongTerm context path := by
  unfold reportedPaths
  rw [List.mem_filter, decide_eq_true_eq]

-- ============ one call

def firstPaths (context : ResolvedMemoryScope) :
    List PurePath → List MemoryDocument → List PurePath
  | _, [] => []
  | seen, document :: documents =>
    if LongTerm context document.path ∧ document.path ∉ seen then
      document.path
        :: firstPaths context (document.path :: seen) documents
    else firstPaths context seen documents

theorem mem_firstPaths {documents : List MemoryDocument} :
    path ∈ firstPaths context seen documents
      ↔ path ∈ documents.map (·.path) ∧ LongTerm context path
        ∧ path ∉ seen := by
  induction documents generalizing seen with
  | nil => simp [firstPaths]
  | cons document documents ih =>
    unfold firstPaths
    split
    · next h =>
      rw [List.mem_cons, ih, List.map_cons, List.mem_cons, List.mem_cons,
        not_or]
      constructor
      · rintro (rfl | ⟨hmem, hlong, -, hseen⟩)
        · exact ⟨Or.inl rfl, h⟩
        · exact ⟨Or.inr hmem, hlong, hseen⟩
      · rintro ⟨hmem, hlong, hseen⟩
        by_cases heq : path = document.path
        · exact Or.inl heq
        · exact Or.inr ⟨hmem.resolve_left heq, hlong, heq, hseen⟩
    · next h =>
      rw [ih, List.map_cons, List.mem_cons]
      constructor
      · rintro ⟨hmem, hrest⟩
        exact ⟨Or.inr hmem, hrest⟩
      · rintro ⟨rfl | hmem, hrest⟩
        · exact absurd hrest h
        · exact ⟨hmem, hrest⟩

theorem nodup_firstPaths (seen : List PurePath)
    (documents : List MemoryDocument) :
    (firstPaths context seen documents).Nodup := by
  induction documents generalizing seen with
  | nil => exact List.nodup_nil
  | cons document documents ih =>
    unfold firstPaths
    split
    · refine List.nodup_cons.2 ⟨fun hmem => ?_, ih _⟩
      exact (mem_firstPaths.1 hmem).2.2 List.mem_cons_self
    · exact ih seen

/-- The known texts of paths with a root are those seen in the call. -/
def Knows (known : List String) (seen : List PurePath) : Prop :=
  ∀ path : PurePath, path.absolute = true →
    (path.text ∈ known ↔ path ∈ seen)

theorem Knows.cons (h : Knows known seen) (path : PurePath) :
    Knows (path.text :: known) (path :: seen) := by
  intro other hother
  rw [List.mem_cons, List.mem_cons, h other hother]
  exact or_congr_left PurePath.text_injective.eq_iff

theorem paths_recordDocuments {receipts : List MemoryWriteReceipt}
    {deltas : List Fields} (h : Knows known seen)
    (documents : List MemoryDocument) :
    (recordDocuments context receipts deltas known documents).map
        (fun entry => getField entry "path")
      = deltas.map (fun entry => getField entry "path")
        ++ (firstPaths context seen documents).map (entryPath context) := by
  induction documents generalizing deltas known seen with
  | nil => simp [recordDocuments, firstPaths]
  | cons document documents ih =>
    by_cases hlong : LongTerm context document.path
    · obtain ⟨rest, hrest⟩ := hlong.relative
      obtain ⟨inner, hinner⟩ := Option.isSome_iff_exists.1 hlong
      unfold recordDocuments firstPaths
      rw [hinner, hrest]
      dsimp only
      by_cases hknown : document.path.text ∈ known
      · have hseen := (h document.path hlong.absolute).1 hknown
        rw [if_pos hknown, if_neg fun hand => hand.2 hseen]
        exact ih h
      · have hfresh : document.path ∉ seen := fun hseen =>
          hknown ((h document.path hlong.absolute).2 hseen)
        rw [if_neg hknown, if_pos ⟨hlong, hfresh⟩, ih (h.cons _),
          List.map_append, List.append_assoc]
        refine congrArg _ (congrArg (· :: _) ?_)
        exact (entryPath_of_relative hrest).symm
    · have hnone : document.path.relativeTo context.documentsDir = none :=
        Option.not_isSome_iff_eq_none.1 hlong
      unfold recordDocuments firstPaths
      rw [hnone, if_neg fun hand => hlong hand.1]
      exact ih h

theorem recordDocuments_of_none {receipts : List MemoryWriteReceipt}
    {deltas : List Fields} {documents : List MemoryDocument}
    (h : ∀ document ∈ documents, ¬LongTerm context document.path) :
    recordDocuments context receipts deltas known documents = deltas := by
  induction documents with
  | nil => rfl
  | cons document documents ih =>
    have hnone : document.path.relativeTo context.documentsDir = none :=
      Option.not_isSome_iff_eq_none.1 (h document List.mem_cons_self)
    unfold recordDocuments
    rw [hnone]
    exact ih fun other hother => h other (List.mem_cons_of_mem _ hother)

theorem mappingsOf_dicts (entries : List Fields) :
    mappingsOf (.list (entries.map .dict)) = entries := by
  show (entries.map PyVal.dict).filterMap mappingOf = entries
  rw [List.filterMap_map]
  exact List.filterMap_some

theorem record_cases (context : ResolvedMemoryScope) (files : SessionFiles)
    (call : DeltaCall) :
    (call.persisted = []
        ∧ recordSessionMemoryDeltas context files call = files)
      ∨ ∃ deltas metadata,
        deltas = recordDocuments context call.receipts (fileDeltas files)
          (knownPaths (fileDeltas files)) call.persisted
        ∧ storedDeltas metadata = deltas
        ∧ lookupKey metadata "durable_memory_delta_count"
          = some (.int deltas.length)
        ∧ metadataSessionId context metadata
          = metadataSessionId context (files.metadata.getD [])
        ∧ recordSessionMemoryDeltas context files call
          = { files with
              metadata := some metadata
              manifest := (upsertSessionManifest context files metadata
                call.now).or files.manifest } := by
  unfold recordSessionMemoryDeltas
  split
  · next hempty => exact Or.inl ⟨List.isEmpty_iff.1 hempty, rfl⟩
  · have hdeltas : storedDeltas (files.metadata.getD
        (defaultSessionMetadata context.sessionId "active" call.now))
        = fileDeltas files := by
      unfold fileDeltas
      cases files.metadata with
      | none => rfl
      | some metadata => rfl
    have hid : metadataSessionId context (files.metadata.getD
        (defaultSessionMetadata context.sessionId "active" call.now))
        = metadataSessionId context (files.metadata.getD []) := by
      cases files.metadata with
      | none => rfl
      | some metadata => rfl
    dsimp only
    rw [hdeltas]
    generalize files.metadata.getD
      (defaultSessionMetadata context.sessionId "active" call.now)
        = metadata at hdeltas hid
    refine Or.inr ⟨_, setField (setField metadata _ _) _ _, rfl, ?_, ?_, ?_,
      rfl⟩
    · unfold storedDeltas getField
      rw [lookupKey_setField, if_neg (by decide), lookupKey_setField,
        if_pos rfl, Option.getD_some, mappingsOf_dicts]
    · rw [lookupKey_setField, if_pos rfl]
    · rw [← hid]
      unfold metadataSessionId
      rw [lookupKey_setField, if_neg (by decide), lookupKey_setField,
        if_neg (by decide)]

theorem manifest_written (context : ResolvedMemoryScope)
    (files : SessionFiles) {metadata : Fields} {count : Int}
    (hcount : lookupKey metadata "durable_memory_delta_count"
      = some (.int count)) (now : String) :
    ∃ manifest, upsertSessionManifest context files metadata now
        = some manifest
      ∧ ∀ entry ∈ manifestSessions (some manifest),
        textOf (getField entry "session_id")
            = some (metadataSessionId context metadata) →
          getField entry "durable_memory_delta_count" = .int count := by
  unfold upsertSessionManifest
  rw [hcount]
  refine ⟨_, rfl, fun entry hentry hid => ?_⟩
  have hsessions : ∀ sessions : List Fields, manifestSessions
      (some (manifestEnvelope context now sessions)) = sessions :=
    fun sessions => mappingsOf_dicts sessions
  rw [hsessions, List.mem_mergeSort, List.mem_append] at hentry
  obtain hother | hown := hentry
  · exact absurd hid (of_decide_eq_true (List.mem_filter.1 hother).2)
  · rw [List.mem_singleton.1 hown]
    rfl

-- ================ runs

/-- What is recorded: these paths, written from the memory root. -/
structure Stored (context : ResolvedMemoryScope) (paths : List PurePath)
    (files : SessionFiles) : Prop where
  longTerm : ∀ path ∈ paths, LongTerm context path
  stored : storedPaths files = paths.map (entryPath context)
  count : fileDeltaCount files = .int paths.length
  manifest : ManifestCount context files (.int paths.length)

theorem Stored.knows (h : Stored context paths files) :
    Knows (knownPaths (fileDeltas files)) [] := by
  intro path habs
  refine iff_of_false (fun hmem => ?_) List.not_mem_nil
  obtain ⟨entry, hentry, htext⟩ := List.mem_filterMap.1 hmem
  have hpath : getField entry "path" ∈ storedPaths files :=
    List.mem_map_of_mem hentry
  rw [h.stored] at hpath
  obtain ⟨recorded, hrecorded, heq⟩ := List.mem_map.1 hpath
  obtain ⟨rest, hrest⟩ := (h.longTerm recorded hrecorded).relative
  obtain ⟨-, hrelative, -⟩ := PurePath.relativeTo_eq_some.1 hrest
  rw [← heq, entryPath_of_relative hrest] at htext
  have hsame : rest = path :=
    PurePath.text_injective (Option.some.inj htext)
  rw [hsame, habs] at hrelative
  cases hrelative

theorem Stored.record (h : Stored context paths files) (call : DeltaCall) :
    Stored context (paths ++ firstPaths context [] call.persisted)
      (recordSessionMemoryDeltas context files call) := by
  obtain ⟨hempty, hsame⟩ | ⟨deltas, metadata, hdeltas, hstored, hcount, hid,
    hwritten⟩ := record_cases context files call
  · rw [hsame, hempty]
    exact (List.append_nil paths).symm ▸ h
  · have hpaths : deltas.map (fun entry => getField entry "path")
        = (paths ++ firstPaths context [] call.persisted).map
          (entryPath context) := by
      rw [hdeltas, paths_recordDocuments h.knows, List.map_append]
      exact congrArg (· ++ _) h.stored
    have hlength : deltas.length
        = (paths ++ firstPaths context [] call.persisted).length := by
      rw [← List.length_map (fun entry => getField entry "path"), hpaths,
        List.length_map]
    obtain ⟨manifest, hmanifest, hentries⟩ :=
      manifest_written context files hcount call.now
    rw [hwritten, hmanifest]
    refine ⟨?_, ?_, ?_, ?_⟩
    · intro path hpath
      obtain hold | hnew := List.mem_append.1 hpath
      · exact h.longTerm path hold
      · exact (mem_firstPaths.1 hnew).2.1
    · rw [← hpaths, ← hstored]
      rfl
    · rw [← hlength]
      exact congrArg (·.getD (.int 0)) hcount
    · rw [← hlength]
      exact hentries

theorem mem_firstPaths_nil {call : DeltaCall} :
    path ∈ firstPaths context [] call.persisted
      ↔ path ∈ reportedPaths context call := by
  rw [mem_firstPaths, mem_reportedPaths]
  exact ⟨fun ⟨hmem, hlong, _⟩ => ⟨hmem, hlong⟩,
    fun ⟨hmem, hlong⟩ => ⟨hmem, hlong, List.not_mem_nil⟩⟩

def recordedPaths (context : ResolvedMemoryScope) (calls : List DeltaCall) :
    List PurePath :=
  calls.flatMap fun call => firstPaths context [] call.persisted

theorem mem_recordedPaths :
    path ∈ recordedPaths context calls
      ↔ ∃ call ∈ calls, path ∈ reportedPaths context call := by
  unfold recordedPaths
  rw [List.mem_flatMap]
  exact exists_congr fun call => and_congr_right fun _ => mem_firstPaths_nil

theorem recordedPaths_concat (calls : List DeltaCall) (call : DeltaCall) :
    recordedPaths context (calls ++ [call]) = recordedPaths context calls
      ++ firstPaths context [] call.persisted := by
  simp [recordedPaths]

theorem stored_afterCalls (h : Fresh context files) (calls : List DeltaCall) :
    Stored context (recordedPaths context calls)
      (afterCalls context files calls) := by
  induction calls using List.reverseRecOn with
  | nil =>
    refine ⟨fun path hpath => absurd hpath List.not_mem_nil, ?_, h.count,
      h.manifest⟩
    show (fileDeltas files).map _ = []
    rw [h.deltas]
    rfl
  | append_singleton calls call ih =>
    have hrun : afterCalls context files (calls ++ [call])
        = recordSessionMemoryDeltas context
          (afterCalls context files calls) call := List.foldl_concat ..
    rw [hrun, recordedPaths_concat]
    exact ih.record call

theorem nodup_recordedPaths_iff :
    (recordedPaths context calls).Nodup ↔ calls.Pairwise (Apart context) := by
  unfold recordedPaths
  rw [List.nodup_flatMap]
  have hapart : ∀ call other : DeltaCall,
      (firstPaths context [] call.persisted).Disjoint
          (firstPaths context [] other.persisted)
        ↔ Apart context call other := by
    intro call other
    unfold Apart List.Disjoint
    simp only [mem_firstPaths_nil]
  constructor
  · rintro ⟨-, hpairs⟩
    exact hpairs.imp fun hdisjoint => (hapart _ _).1 hdisjoint
  · intro hpairs
    exact ⟨fun call _ => nodup_firstPaths _ _,
      hpairs.imp fun hdisjoint => (hapart _ _).2 hdisjoint⟩

theorem Stored.recordedOnce_iff
    (h : Stored context (recordedPaths context calls) files) :
    RecordedOnce context calls files ↔ calls.Pairwise (Apart context) := by
  rw [← nodup_recordedPaths_iff]
  constructor
  · rintro ⟨paths, hnodup, hmem, hstored, -⟩
    have hinj : ∀ path ∈ paths, ∀ other ∈ paths,
        entryPath context path = entryPath context other → path = other := by
      intro path hpath other hother
      refine entryPath_injOn (h.longTerm path ?_) (h.longTerm other ?_)
      · exact mem_recordedPaths.2 ((hmem path).1 hpath)
      · exact mem_recordedPaths.2 ((hmem other).1 hother)
    have hvalues := hnodup.map_on hinj
    rw [← hstored, h.stored] at hvalues
    exact hvalues.of_map
  · intro hnodup
    exact ⟨_, hnodup, fun path => mem_recordedPaths, h.stored, h.count,
      h.manifest⟩

theorem Stored.same (h : Stored context paths files) {call : DeltaCall}
    (hnone : reportedPaths context call = []) :
    fileDeltas (recordSessionMemoryDeltas context files call)
        = fileDeltas files
      ∧ fileDeltaCount (recordSessionMemoryDeltas context files call)
        = fileDeltaCount files := by
  have hdocuments : ∀ document ∈ call.persisted,
      ¬LongTerm context document.path := by
    intro document hdocument hlong
    have hmem := mem_reportedPaths.2
      ⟨List.mem_map_of_mem (f := (·.path)) hdocument, hlong⟩
    rw [hnone] at hmem
    cases hmem
  have hfirst : firstPaths context [] call.persisted = [] := by
    refine List.eq_nil_iff_forall_not_mem.2 fun path hpath => ?_
    have hmem := mem_firstPaths_nil.1 hpath
    rw [hnone] at hmem
    cases hmem
  constructor
  · obtain ⟨-, hsame⟩ | ⟨deltas, metadata, hdeltas, hstored, -, -,
      hwritten⟩ := record_cases context files call
    · rw [hsame]
    · rw [hwritten]
      exact hstored.trans (hdeltas.trans (recordDocuments_of_none hdocuments))
  · have hafter := (h.record call).count
    rw [hfirst, List.append_nil] at hafter
    exact hafter.trans h.count.symm

/-- **Deltas recorded once.** From a session with nothing recorded, every
path is recorded once after each of the calls, under the right counts,
and repeating a call changes neither, exactly if no two of the calls
share a long-term document. -/
theorem deltas_recorded_once_iff {files : SessionFiles}
    {calls : List DeltaCall} (hfresh : Fresh context files) :
    ((∀ p q, calls = p ++ q →
        RecordedOnce context p (afterCalls context files p))
      ∧ ∀ p call q, calls = p ++ call :: q → call ∈ p →
        fileDeltas (afterCalls context files (p ++ [call]))
            = fileDeltas (afterCalls context files p)
          ∧ fileDeltaCount (afterCalls context files (p ++ [call]))
            = fileDeltaCount (afterCalls context files p))
      ↔ calls.Pairwise (Apart context) := by
  constructor
  · rintro ⟨honce, -⟩
    have hwhole := honce calls [] (List.append_nil calls).symm
    exact (stored_afterCalls hfresh calls).recordedOnce_iff.1 hwhole
  · intro hapart
    constructor
    · rintro p q rfl
      refine (stored_afterCalls hfresh p).recordedOnce_iff.2 ?_
      exact (List.pairwise_append.1 hapart).1
    · rintro p call q rfl hagain
      -- a call that comes twice is apart from itself
      have hself : Apart context call call :=
        (List.pairwise_append.1 hapart).2.2 call hagain call
          List.mem_cons_self
      have hnone : reportedPaths context call = [] :=
        List.eq_nil_iff_forall_not_mem.2 fun path hpath => hself hpath hpath
      have hrun : afterCalls context files (p ++ [call])
          = recordSessionMemoryDeltas context (afterCalls context files p)
            call := List.foldl_concat ..
      rw [hrun]
      exact (stored_afterCalls hfresh p).same hnone

-- ======== two sessions

def smallContext : ResolvedMemoryScope where
  sessionId := "s1"
  scope := .project
  memoryRoot := ⟨true, [⟨"m", by decide, by decide, by decide +kernel⟩]⟩
  sessionSegment := ⟨"s1", by decide, by decide, by decide +kernel⟩
  rooted := rfl

def smallDocument (name : Component) : MemoryDocument where
  path := smallContext.documentsDir.child name
  title := "t"
  kind := "document"
  metadata := []

def noteName : Component := ⟨"a.md", by decide, by decide, by decide +kernel⟩

def otherName : Component :=
  ⟨"b.md", by decide, by decide, by decide +kernel⟩

def smallCall (name : Component) : DeltaCall :=
  ⟨[smallDocument name], [], "2026-01-01T00:00:00Z"⟩

def noFiles : SessionFiles := ⟨none, none, 0, 0, false⟩

theorem fresh_noFiles : Fresh smallContext noFiles := by
  refine ⟨rfl, rfl, fun entry hentry => ?_⟩
  cases hentry

theorem delta_recorded_twice :
    storedPaths (afterCalls smallContext noFiles
        [smallCall noteName, smallCall noteName])
      = [.str "documents/a.md", .str "documents/a.md"]
    ∧ fileDeltaCount (afterCalls smallContext noFiles
        [smallCall noteName, smallCall noteName]) = .int 2
    ∧ ¬RecordedOnce smallContext [smallCall noteName, smallCall noteName]
        (afterCalls smallContext noFiles
          [smallCall noteName, smallCall noteName]) := by
  have hstored := stored_afterCalls fresh_noFiles
    [smallCall noteName, smallCall noteName]
  have hpaths : recordedPaths smallContext
      [smallCall noteName, smallCall noteName]
      = [(smallDocument noteName).path, (smallDocument noteName).path] := by
    decide +kernel
  have hnodup : ¬(recordedPaths smallContext
      [smallCall noteName, smallCall noteName]).Nodup := by
    decide +kernel
  refine ⟨?_, ?_, fun honce => ?_⟩
  · rw [hstored.stored, hpaths]
    rfl
  · rw [hstored.count, hpaths]
    rfl
  · exact hnodup
      (nodup_recordedPaths_iff.2 (hstored.recordedOnce_iff.1 honce))

/-- Two documents, each reported once. -/
theorem deltas_recorded_once_two :
    RecordedOnce smallContext [smallCall noteName, smallCall otherName]
      (afterCalls smallContext noFiles
        [smallCall noteName, smallCall otherName]) := by
  have hapart : [smallCall noteName, smallCall otherName].Pairwise
      (Apart smallContext) :=
    nodup_recordedPaths_iff.1 (by decide +kernel)
  exact ((deltas_recorded_once_iff fresh_noFiles).2 hapart).1 _ []
    (List.append_nil _).symm

end WeaveRuntime.Memory
