/-
The metadata file of a session and its entry in the session manifest, as
far as the long-term documents of the session are recorded in them.

`record_session_memory_deltas` reads the metadata file, adds an entry for
each document it does not know, and writes the file and the manifest. A
path is known under the text of an entry's `path`, and the text written
there is that of the path from the memory root; the text looked for is
that of the path itself.

The values of a file are JSON values, so a file reads back as it was
written; its session id and its status are texts. What the manifest entry
says of other files (open threads, checkpoints, the summary) is counted
elsewhere and taken as it is.
-/
import WeaveRuntime.Definitions
import WeaveRuntime.Jobs.Fields
import WeaveRuntime.Lib.PurePath

namespace WeaveRuntime.Memory

open Definitions (MemoryScope)
open Jobs (Fields getField setField)
open Lib
open Python

-- ============= context

structure ResolvedMemoryScope where
  sessionId : String
  scope : MemoryScope
  memoryRoot : PurePath
  /-- `normalize_memory_segment(session_id)` -/
  sessionSegment : Component
  rooted : memoryRoot.absolute = true

namespace ResolvedMemoryScope

def documentsDir (context : ResolvedMemoryScope) : PurePath :=
  context.memoryRoot.child
    ⟨"documents", by decide, by decide, by decide +kernel⟩

def sessionRoot (context : ResolvedMemoryScope) : PurePath :=
  (context.memoryRoot.child
    ⟨"sessions", by decide, by decide, by decide +kernel⟩).child
      context.sessionSegment

end ResolvedMemoryScope

def scopeValue : MemoryScope → String
  | .user => "user"
  | .project => "project"
  | .local => "local"

structure MemoryDocument where
  path : PurePath
  title : String
  kind : String
  metadata : Fields

structure MemoryWriteReceipt where
  path : Option PurePath
  sourcePathway : Option String

structure SessionFiles where
  metadata : Option Fields
  manifest : Option Fields
  openThreadCount : Nat
  checkpointCount : Nat
  hasSummary : Bool

-- ============ metadata

def defaultSessionMetadata (sessionId status now : String) : Fields :=
  [(.str "session_id", .str sessionId), (.str "status", .str status),
    (.str "created_at", .str now), (.str "updated_at", .str now),
    (.str "summary_version", .int 0), (.str "open_thread_count", .int 0),
    (.str "last_compaction_at", .none),
    (.str "last_summary_refresh_at", .none),
    (.str "last_consolidated_at", .none),
    (.str "turns_since_summary", .int 0),
    (.str "chars_since_summary", .int 0),
    (.str "tool_calls_since_summary", .int 0),
    (.str "durable_memory_delta_count", .int 0),
    (.str "durable_memory_deltas", .list [])]

/-- The mapping, if the value is one. -/
def mappingOf : PyVal → Option Fields
  | .dict fields => some fields
  | _ => none

/-- The mappings of a list; of anything else there are none. -/
def mappingsOf : PyVal → List Fields
  | .list items => items.filterMap mappingOf
  | _ => []

def storedDeltas (metadata : Fields) : List Fields :=
  mappingsOf (getField metadata "durable_memory_deltas")

/-- The text, if the value is one. -/
def textOf : PyVal → Option String
  | .str text => some text
  | _ => none

-- ============ manifest

def metadataSessionId (context : ResolvedMemoryScope) (metadata : Fields) :
    String :=
  ((lookupKey metadata "session_id").bind textOf).getD context.sessionId

/-- The optional fields of a manifest entry. -/
def reachedField (metadata : Fields) (name : String) : Fields :=
  if (getField metadata name).truthy then
    [(.str name, getField metadata name)]
  else []

/-- The manifest entry of a session. -/
def sessionRecord (context : ResolvedMemoryScope) (files : SessionFiles)
    (metadata : Fields) (count : Int) (now : String) : Fields :=
  [(.str "session_id", .str (metadataSessionId context metadata)),
    (.str "status", (lookupKey metadata "status").getD (.str "active")),
    (.str "path", .str
      ((context.sessionRoot.relativeTo context.memoryRoot).elim ""
        (·.text ++ "/"))),
    (.str "has_summary", .bool files.hasSummary),
    (.str "has_open_threads", .bool (decide (0 < files.openThreadCount))),
    (.str "open_thread_count", .int files.openThreadCount),
    (.str "checkpoint_count", .int files.checkpointCount),
    (.str "last_updated_at", pyOr (getField metadata "updated_at")
      (.str now)),
    (.str "ready_for_consolidation", .bool
      (match textOf (getField metadata "status") with
      | some status => status != "active" && status != "waiting"
      | none => true)),
    (.str "durable_memory_delta_count", .int count)]
    ++ reachedField metadata "last_compaction_at"
    ++ reachedField metadata "last_consolidated_at"

def manifestSessions (manifest : Option Fields) : List Fields :=
  mappingsOf (getField (manifest.getD []) "sessions")

def sessionSortKey (entry : Fields) : String :=
  pyStr ((lookupKey entry "session_id").getD (.str ""))

def manifestEnvelope (context : ResolvedMemoryScope) (now : String)
    (sessions : List Fields) : Fields :=
  [(.str "schema_version", .str "memory.v2"),
    (.str "manifest_kind", .str "session"),
    (.str "boundary_scope", .str (scopeValue context.scope)),
    (.str "generated_at", .str now),
    (.str "stats", .dict [(.str "entry_count", .int sessions.length),
      (.str "stale_entry_count", .int 0)]),
    (.str "sessions", .list (sessions.map .dict))]

def upsertSessionManifest (context : ResolvedMemoryScope)
    (files : SessionFiles) (metadata : Fields) (now : String) :
    Option Fields :=
  (pyInt ((lookupKey metadata "durable_memory_delta_count").getD
    (.int 0))).map fun count =>
      let record := sessionRecord context files metadata count now
      let others := (manifestSessions files.manifest).filter fun entry =>
        textOf (getField entry "session_id")
          ≠ some (metadataSessionId context metadata)
      manifestEnvelope context now ((others ++ [record]).mergeSort
        fun a b => decide (sessionSortKey a ≤ sessionSortKey b))

-- ============== deltas

/-- The receipt of a path: of several the last. -/
def receiptFor (receipts : List MemoryWriteReceipt) (path : String) :
    Option MemoryWriteReceipt :=
  receipts.reverse.find? fun receipt =>
    receipt.path.map (·.text) = some path

def deltaEntry (receipt : Option MemoryWriteReceipt)
    (document : MemoryDocument) (path : PurePath) : Fields :=
  [(.str "path", .str path.text), (.str "memory_kind", .str document.kind),
    (.str "title", .str document.title),
    (.str "conflict_key", getField document.metadata "conflict_key"),
    (.str "source_pathway", match receipt with
      | some receipt => receipt.sourcePathway.elim .none .str
      | none => getField document.metadata "source_pathway")]

/-- `known_paths`, as it is read from the entries. -/
def knownPaths (deltas : List Fields) : List String :=
  deltas.filterMap fun entry => textOf (getField entry "path")

/-- The loop over the persisted documents. -/
def recordDocuments (context : ResolvedMemoryScope)
    (receipts : List MemoryWriteReceipt) :
    List Fields → List String → List MemoryDocument → List Fields
  | deltas, _, [] => deltas
  | deltas, known, document :: documents =>
    match document.path.relativeTo context.documentsDir,
        document.path.relativeTo context.memoryRoot with
    | some _, some path =>
      if document.path.text ∈ known then
        recordDocuments context receipts deltas known documents
      else
        recordDocuments context receipts
          (deltas ++ [deltaEntry
            (receiptFor receipts document.path.text) document path])
          (document.path.text :: known) documents
    -- what is among the documents is under the root
    | _, _ => recordDocuments context receipts deltas known documents

/-- A call of `record_session_memory_deltas`, and the time of it. -/
structure DeltaCall where
  persisted : List MemoryDocument
  receipts : List MemoryWriteReceipt
  now : String

def recordSessionMemoryDeltas (context : ResolvedMemoryScope)
    (files : SessionFiles) (call : DeltaCall) : SessionFiles :=
  if call.persisted.isEmpty then files
  else
    let metadata := files.metadata.getD
      (defaultSessionMetadata context.sessionId "active" call.now)
    let existing := storedDeltas metadata
    let deltas := recordDocuments context call.receipts existing
      (knownPaths existing) call.persisted
    let written := setField (setField metadata (.str "durable_memory_deltas")
        (.list (deltas.map .dict)))
      (.str "durable_memory_delta_count") (.int deltas.length)
    -- an exception of the manifest leaves the metadata written
    { files with
      metadata := some written
      manifest := (upsertSessionManifest context files written
        call.now).or files.manifest }

def afterCalls (context : ResolvedMemoryScope) (files : SessionFiles)
    (calls : List DeltaCall) : SessionFiles :=
  calls.foldl (recordSessionMemoryDeltas context) files

end WeaveRuntime.Memory
