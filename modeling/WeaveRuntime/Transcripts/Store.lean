/-
The two transcript stores.

`InMemoryTranscriptStore` keeps the entries, the metadata, the manifest
and the payloads of a session as the caller gave them;
`FileTranscriptStore` keeps what the codec has written. The files of a
session are addressed by its id: `{id}.jsonl`, `{id}.meta.json`, and under
`{id}.artifacts` the manifest and one file per artifact. Each file is kept
by the document it holds, a transcript by the documents of its lines.

`handle` gives each store one call and its outcome. What differs from run
to run is an input of the call: the time `utc_now()` reads, and the
suffixes `uuid4()` draws while a reference is taken.

The file system is a parameter (`Host`): which names it takes as names of
files in one directory, and what a call does when it is given another.
-/
import WeaveRuntime.Lib.Dict
import WeaveRuntime.Lib.System
import WeaveRuntime.Transcripts.Codec
import Mathlib.Data.List.Sort

namespace WeaveRuntime.Transcripts

open Lib Python Messages
open Jobs (Fields updateFields)

-- ========== references

mutual

def payloadRepr : Payload → String
  | .scalar value => pyRepr (scalarVal value)
  | .list items => "[" ++ ", ".intercalate (payloadReprItems items) ++ "]"
  | .tuple [item] => "(" ++ payloadRepr item ++ ",)"
  | .tuple items => "(" ++ ", ".intercalate (payloadReprItems items) ++ ")"
  | .mapping fields =>
    "\x7b" ++ ", ".intercalate (payloadReprFields fields) ++ "\x7d"

def payloadReprItems : List Payload → List String
  | [] => []
  | value :: items => payloadRepr value :: payloadReprItems items

def payloadReprFields : List (PyKey × Payload) → List String
  | [] => []
  | (key, value) :: fields =>
    (key.repr ++ ": " ++ payloadRepr value) :: payloadReprFields fields

end

def payloadStr : Payload → String
  | .scalar (.str s) => s
  | value => payloadRepr value

/-- The reference a mapping holds under `artifact_ref`, unless `None`. -/
def ownRef (fields : List (PyKey × Payload)) : List String :=
  match (fields.find? fun e => e.1 = .str "artifact_ref").map Prod.snd with
  | none => []
  | some (.scalar .none) => []
  | some value => [payloadStr value]

mutual

def collectArtifactRefs : Payload → List String
  | .mapping fields => ownRef fields ++ collectFieldRefs fields
  | .list items => collectItemRefs items
  | .tuple items => collectItemRefs items
  | .scalar _ => []

def collectItemRefs : List Payload → List String
  | [] => []
  | value :: items => collectArtifactRefs value ++ collectItemRefs items

def collectFieldRefs : List (PyKey × Payload) → List String
  | [] => []
  | (_, value) :: fields =>
    collectArtifactRefs value ++ collectFieldRefs fields

end

/-- The references of one message: its metadata, and the contents of its
tool results. -/
def messageRefs (m : RuntimeMessage) : List String :=
  collectArtifactRefs (ofVal (.dict m.metadata))
    ++ m.content.flatMap fun block =>
      match block with
      | .toolResult _ content _ => collectArtifactRefs content
      | _ => []

def referencedArtifactRefs (entries : List TranscriptEntry)
    (metadata : Option Fields) : List String :=
  entries.flatMap (fun e => messageRefs e.message)
    ++ match metadata with
      | some fields => collectArtifactRefs (ofVal (.dict fields))
      | none => []

def artifactRef (kind digest : String) (suffix : Option String) : String :=
  let base := kind ++ "-" ++ (digest.take 12).toString
  match suffix with
  | some suffix => base ++ "-" ++ suffix
  | none => base

/-- The loop that draws suffixes while the reference is taken: nothing
when the draws given run out first. -/
def drawRef (taken : String → Bool) (kind digest : String) :
    String → List String → Option String
  | ref, [] => if taken ref then none else some ref
  | ref, suffix :: draws =>
    if taken ref then
      drawRef taken kind digest (artifactRef kind digest (some suffix)) draws
    else some ref

/-- `{str(key): value for key, value in mapping.items()}`. -/
def strKeys (fields : Fields) : Fields :=
  updateFields [] (fields.map fun e => (.str e.1.text, e.2))

/-- `sorted(references)`. -/
def sortedRefs (refs : List String) : List String :=
  refs.insertionSort (· ≤ ·)

-- =============== calls

/-- The arguments of `persist_artifact`, the time it reads and the suffixes
it draws. -/
structure PersistArtifact where
  sessionId : String
  turnId : Option String
  kind : String
  payload : Payload
  metadata : Option Fields
  retentionClass : String
  now : Datetime
  draws : List String

inductive Call where
  | append (entry : TranscriptEntry)
  | load (sessionId : String)
  | replace (session : TranscriptSession)
  | loadSessionMetadata (sessionId : String)
  | saveSessionMetadata (sessionId : String) (metadata : Fields)
  | persistArtifact (request : PersistArtifact)
  | loadArtifact (sessionId artifactRef : String)
  | listArtifacts (sessionId : String)
  | purgeUnreferencedArtifacts (sessionId : String)

/-- What a call gives back. -/
inductive Outcome where
  | done
  | session (session : TranscriptSession)
  | metadata (fields : Option Fields)
  | manifestEntry (entry : ArtifactManifestEntry)
  | artifact (artifact : Option TranscriptArtifact)
  | manifestEntries (entries : List ArtifactManifestEntry)
  | removed (refs : List String)
  | raised (error : CodecError)
  /-- still drawing suffixes -/
  | drawing

def PersistArtifact.entry (r : PersistArtifact) (artifactRef digest : String) :
    ArtifactManifestEntry :=
  { artifactRef, digest
    producingTurn := r.turnId
    kind := r.kind
    createdAt := r.now
    retentionClass := r.retentionClass
    metadata := strKeys (r.metadata.getD []) }

-- ====== the two stores

structure InMemoryTranscriptStore where
  sessions : Dict String (List TranscriptEntry)
  metadata : Dict String Fields
  artifacts : Dict String (Dict String PyVal)
  artifactManifests : Dict String (Dict String ArtifactManifestEntry)

/-- The files, by session id; the payload files by id and reference. -/
structure FileTranscriptStore where
  transcripts : Dict String (List PyVal)
  metadata : Dict String PyVal
  manifests : Dict String PyVal
  payloads : Dict (String × String) PyVal

/-- What is outside the stores: how `json.dumps` writes a key that is no
string, the digest of a payload, the names that are names of files in one
directory, and what the file store does with a call that gives another
name. -/
structure Host where
  keyText : String → Option String
  artifactDigest : PyVal → String
  plain : String → Bool
  elsewhere : FileTranscriptStore → Call → FileTranscriptStore × Outcome

/-- Change the value of a key, if there is one. -/
def updateEntry {ν : Type} (d : Dict String ν) (key : String) (f : ν → ν) :
    Dict String ν :=
  match d.get? key with
  | some value => d.insert key (f value)
  | none => d

namespace InMemoryTranscriptStore

def empty : InMemoryTranscriptStore := ⟨.empty, .empty, .empty, .empty⟩

def entries (s : InMemoryTranscriptStore) (sessionId : String) :
    List TranscriptEntry := (s.sessions.get? sessionId).getD []

def manifest (s : InMemoryTranscriptStore) (sessionId : String) :
    Dict String ArtifactManifestEntry :=
  (s.artifactManifests.get? sessionId).getD .empty

def payloads (s : InMemoryTranscriptStore) (sessionId : String) :
    Dict String PyVal := (s.artifacts.get? sessionId).getD .empty

def persistArtifact (host : Host) (s : InMemoryTranscriptStore)
    (r : PersistArtifact) : InMemoryTranscriptStore × Outcome :=
  match jsonDumps host.keyText true r.payload with
  | none => (s, .raised .typeError)
  | some payloadCopy =>
    let digest := host.artifactDigest payloadCopy
    let manifest := s.manifest r.sessionId
    match drawRef manifest.contains r.kind digest
        (artifactRef r.kind digest none) r.draws with
    | none => (s, .drawing)
    | some ref =>
      let entry := r.entry ref digest
      ({ s with
          artifactManifests := s.artifactManifests.insert r.sessionId
            (manifest.insert ref entry)
          artifacts := s.artifacts.insert r.sessionId
            ((s.payloads r.sessionId).insert ref payloadCopy) },
        .manifestEntry entry)

def loadArtifact (host : Host) (s : InMemoryTranscriptStore)
    (sessionId ref : String) : Outcome :=
  match (s.manifest sessionId).get? ref with
  | none => .artifact none
  | some entry =>
    match (s.payloads sessionId).get? ref with
    | none => .artifact none
    | some .none => .artifact none
    | some payload =>
      match jsonDumps host.keyText true (ofVal payload) with
      | none => .raised .typeError
      | some copy => .artifact (some ⟨entry, ofVal copy⟩)

def listArtifacts (s : InMemoryTranscriptStore) (sessionId : String) :
    List ArtifactManifestEntry :=
  (sortedRefs (s.manifest sessionId).keys).filterMap
    (s.manifest sessionId).get?

def unreferenced (s : InMemoryTranscriptStore) (sessionId : String) :
    List String :=
  let referenced := referencedArtifactRefs (s.entries sessionId)
    (s.metadata.get? sessionId)
  (s.manifest sessionId).keys.filter (· ∉ referenced)

def purgeUnreferencedArtifacts (s : InMemoryTranscriptStore)
    (sessionId : String) : InMemoryTranscriptStore × Outcome :=
  let removed := s.unreferenced sessionId
  ({ s with
      artifactManifests := updateEntry s.artifactManifests sessionId
        fun manifest => manifest.filter fun ref _ => ref ∉ removed
      artifacts := updateEntry s.artifacts sessionId
        fun payloads => payloads.filter fun ref _ => ref ∉ removed },
    .removed (sortedRefs removed))

def handle (host : Host) (s : InMemoryTranscriptStore) :
    Call → InMemoryTranscriptStore × Outcome
  | .append entry =>
    ({ s with
        sessions := s.sessions.insert entry.sessionId
          (s.entries entry.sessionId ++ [entry]) }, .done)
  | .load sessionId => (s, .session ⟨sessionId, s.entries sessionId⟩)
  | .replace session =>
    ({ s with
        sessions := s.sessions.insert session.sessionId session.entries },
      .done)
  | .loadSessionMetadata sessionId =>
    (s, .metadata (s.metadata.get? sessionId))
  | .saveSessionMetadata sessionId metadata =>
    ({ s with
        metadata := s.metadata.insert sessionId (strKeys metadata) }, .done)
  | .persistArtifact request => s.persistArtifact host request
  | .loadArtifact sessionId ref => (s, s.loadArtifact host sessionId ref)
  | .listArtifacts sessionId =>
    (s, .manifestEntries (s.listArtifacts sessionId))
  | .purgeUnreferencedArtifacts sessionId =>
    s.purgeUnreferencedArtifacts sessionId

end InMemoryTranscriptStore

namespace FileTranscriptStore

def empty : FileTranscriptStore := ⟨.empty, .empty, .empty, .empty⟩

def lines (s : FileTranscriptStore) (sessionId : String) : List PyVal :=
  (s.transcripts.get? sessionId).getD []

/-- Opening for appending makes the file; the line is dumped after it. -/
def append (host : Host) (s : FileTranscriptStore) (entry : TranscriptEntry) :
    FileTranscriptStore × Outcome :=
  match jsonDumps host.keyText false (serializeEntry entry) with
  | none =>
    ({ s with
        transcripts := s.transcripts.insert entry.sessionId
          (s.lines entry.sessionId) }, .raised .typeError)
  | some line =>
    ({ s with
        transcripts := s.transcripts.insert entry.sessionId
          (s.lines entry.sessionId ++ [line]) }, .done)

def load (s : FileTranscriptStore) (sessionId : String) :
    Except CodecError TranscriptSession := do
  let entries ← (s.lines sessionId).mapM deserializeEntry
  return ⟨sessionId, entries⟩

/-- The lines written before the first entry that cannot be, and whether
all could. -/
def writeLines (host : Host) : List TranscriptEntry → List PyVal × Bool
  | [] => ([], true)
  | entry :: entries =>
    match jsonDumps host.keyText false (serializeEntry entry) with
    | none => ([], false)
    | some line =>
      let (rest, all) := writeLines host entries
      (line :: rest, all)

def replace (host : Host) (s : FileTranscriptStore)
    (session : TranscriptSession) : FileTranscriptStore × Outcome :=
  let (written, all) := writeLines host session.entries
  ({ s with transcripts := s.transcripts.insert session.sessionId written },
    if all then .done else .raised .typeError)

def loadSessionMetadata (s : FileTranscriptStore) (sessionId : String) :
    Option Fields :=
  match s.metadata.get? sessionId with
  | some (.dict fields) => some (strKeys fields)
  | _ => none

def saveSessionMetadata (host : Host) (s : FileTranscriptStore)
    (sessionId : String) (metadata : Fields) :
    FileTranscriptStore × Outcome :=
  match jsonDumps host.keyText true (ofVal (.dict (strKeys metadata))) with
  | none => (s, .raised .typeError)
  | some document =>
    ({ s with metadata := s.metadata.insert sessionId document }, .done)

def readArtifactManifest (s : FileTranscriptStore) (sessionId : String) :
    Dict String ArtifactManifestEntry :=
  match s.manifests.get? sessionId with
  | some (.list items) =>
    (items.filterMap deserializeArtifactManifestEntry).foldl
      (fun manifest entry => manifest.insert entry.artifactRef entry) .empty
  | _ => .empty

def writeArtifactManifest (host : Host) (s : FileTranscriptStore)
    (sessionId : String) (manifest : Dict String ArtifactManifestEntry)
    (outcome : Outcome) : FileTranscriptStore × Outcome :=
  let sorted := manifest.values.insertionSort fun a b =>
    a.artifactRef ≤ b.artifactRef
  match jsonDumps host.keyText true
      (.list (sorted.map serializeArtifactManifestEntry)) with
  | none => (s, .raised .typeError)
  | some document =>
    ({ s with manifests := s.manifests.insert sessionId document }, outcome)

def persistArtifact (host : Host) (s : FileTranscriptStore)
    (r : PersistArtifact) : FileTranscriptStore × Outcome :=
  match jsonDumps host.keyText true r.payload with
  | none => (s, .raised .typeError)
  | some payloadCopy =>
    let digest := host.artifactDigest payloadCopy
    let manifest := s.readArtifactManifest r.sessionId
    match drawRef manifest.contains r.kind digest
        (artifactRef r.kind digest none) r.draws with
    | none => (s, .drawing)
    | some ref =>
      let entry := r.entry ref digest
      match jsonDumps host.keyText true (ofVal payloadCopy) with
      | none => (s, .raised .typeError)
      | some document =>
        let written := { s with
          payloads := s.payloads.insert (r.sessionId, ref) document }
        written.writeArtifactManifest host r.sessionId
          (manifest.insert ref entry) (.manifestEntry entry)

def loadArtifact (s : FileTranscriptStore) (sessionId ref : String) :
    Option TranscriptArtifact := do
  let entry ← (s.readArtifactManifest sessionId).get? ref
  let payload ← s.payloads.get? (sessionId, ref)
  return ⟨entry, ofVal payload⟩

def listArtifacts (s : FileTranscriptStore) (sessionId : String) :
    List ArtifactManifestEntry :=
  (sortedRefs (s.readArtifactManifest sessionId).keys).filterMap
    (s.readArtifactManifest sessionId).get?

def purgeUnreferencedArtifacts (host : Host) (s : FileTranscriptStore)
    (sessionId : String) : FileTranscriptStore × Outcome :=
  match s.load sessionId with
  | .error error => (s, .raised error)
  | .ok transcript =>
    let referenced := referencedArtifactRefs transcript.entries
      (s.loadSessionMetadata sessionId)
    let manifest := s.readArtifactManifest sessionId
    let removed := manifest.keys.filter (· ∉ referenced)
    let unlinked := { s with
      payloads := s.payloads.filter fun key _ =>
        ¬ (key.1 = sessionId ∧ key.2 ∈ removed) }
    unlinked.writeArtifactManifest host sessionId
      (manifest.filter fun ref _ => ref ∉ removed)
      (.removed (sortedRefs removed))

end FileTranscriptStore

def Call.names : Call → List String
  | .append entry => [entry.sessionId]
  | .load sessionId => [sessionId]
  | .replace session => [session.sessionId]
  | .loadSessionMetadata sessionId => [sessionId]
  | .saveSessionMetadata sessionId _ => [sessionId]
  | .persistArtifact r => [r.sessionId, r.kind]
  | .loadArtifact sessionId _ => [sessionId]
  | .listArtifacts sessionId => [sessionId]
  | .purgeUnreferencedArtifacts sessionId => [sessionId]

/-- A call whose names are names of files. -/
def FileTranscriptStore.perform (host : Host) (s : FileTranscriptStore) :
    Call → FileTranscriptStore × Outcome
  | .append entry => s.append host entry
  | .load sessionId =>
    match s.load sessionId with
    | .ok session => (s, .session session)
    | .error error => (s, .raised error)
  | .replace session => s.replace host session
  | .loadSessionMetadata sessionId =>
    (s, .metadata (s.loadSessionMetadata sessionId))
  | .saveSessionMetadata sessionId metadata =>
    s.saveSessionMetadata host sessionId metadata
  | .persistArtifact request => s.persistArtifact host request
  | .loadArtifact sessionId ref =>
    (s, .artifact (s.loadArtifact sessionId ref))
  | .listArtifacts sessionId =>
    (s, .manifestEntries (s.listArtifacts sessionId))
  | .purgeUnreferencedArtifacts sessionId =>
    s.purgeUnreferencedArtifacts host sessionId

def FileTranscriptStore.handle (host : Host) (s : FileTranscriptStore)
    (call : Call) : FileTranscriptStore × Outcome :=
  if call.names.all host.plain then s.perform host call
  else host.elsewhere s call

end WeaveRuntime.Transcripts
