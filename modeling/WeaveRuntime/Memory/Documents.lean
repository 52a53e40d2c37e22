/-
The file store of long-term memory, over the memory files of its scope.

Every operation reads all the files of a directory, so one file that
raises while it is read, or while the manifest is made of it, makes the
operation raise whatever the other files are. A failure names the file.

# The files that break the store

A file is `Harmless` if it can be read (`Loads`), if the artifact it holds
can be listed in a manifest, and, for the manifest of an agent namespace,
if its entries can be gone through. The store survives its files if and
only if each of them is harmless (`store_survives_iff`).

The manifests directory is written and never read into a result, so only
the manifest of the namespaces is kept as a file.
-/
import Mathlib.Data.List.Dedup
import Mathlib.Data.List.Lex
import Mathlib.Data.String.Basic
import WeaveRuntime.Lib.SortedMap
import WeaveRuntime.Memory.Artifacts

namespace WeaveRuntime.Memory.Documents

open Compaction (pyJoin pyRstrip splitWords)
open Definitions (MemoryScope)
open Jobs (Fields getField setField)
open Lib
open Memory (scopeValue)
open Python

structure Failure where
  file : MemoryFile
  raised : Raised

-- =========== the scans

/-- `rglob("*.md")`. -/
def isMarkdown (path : List String) : Bool :=
  ".md".toList.isSuffixOf (path.getLastD "").toList

/-- Each run of other characters becomes one dash; `gap` inside of one. -/
def subRuns (keep : Char → Bool) (gap : Bool) : List Char → List Char
  | [] => []
  | c :: cs =>
    if keep c then c :: subRuns keep false cs
    else if gap then subRuns keep true cs
    else '-' :: subRuns keep true cs

def stripOf (chars : List Char) (cs : List Char) : List Char :=
  ((cs.dropWhile (· ∈ chars)).reverse.dropWhile (· ∈ chars)).reverse

/-- The characters `_MEMORY_SEGMENT_PATTERN` keeps. -/
def segmentChar (c : Char) : Bool := c.isAlphanum || c ∈ ['.', '_', '-']

def normalizeMemorySegment (value : String) : String :=
  let normalized := (stripOf ['.', '-']
    (subRuns segmentChar false (pyStrip value).toList)).map Char.toLower
  if normalized.isEmpty then "agent" else String.ofList normalized

def namespaceRoot (agentName : String) : List String :=
  ["agents", normalizeMemorySegment agentName]

def namespaceDocumentsDir (agentName : String) : List String :=
  namespaceRoot agentName ++ ["documents"]

def namespaceManifestPath (agentName : String) : List String :=
  namespaceRoot agentName ++ ["namespace-manifest.json"]

def isDocument (directory path : List String) : Bool :=
  directory.isPrefixOf path && decide (directory.length < path.length)
    && isMarkdown path

/-- The documents in a directory, in the order of their paths. -/
def documentFiles (files : List MemoryFile) (directory : List String) :
    List MemoryFile :=
  files.filter fun f => isDocument directory f.1

-- ============ segments

theorem segmentChar_lt {c : Char} (h : segmentChar c = true) :
    c.toNat < 128 := by
  have hrange : ((decide (c.val ≥ 'A'.val ∧ c.val ≤ 'Z'.val)
      || (decide (c.val ≥ 'a'.val) && decide (c.val ≤ 'z'.val)))
      || c.isDigit || decide (c ∈ ['.', '_', '-'])) = true := h
  simp only [Char.isDigit, Bool.or_eq_true, Bool.and_eq_true,
    decide_eq_true_eq, List.mem_cons, List.not_mem_nil, or_false] at hrange
  have hn : c.toNat = c.val.toNat := rfl
  rcases hrange with ((⟨-, h⟩ | ⟨-, h⟩) | ⟨-, h⟩) | rfl | rfl | rfl
  · have := UInt32.le_iff_toNat_le.1 h
    exact lt_of_le_of_lt this (by decide)
  · have := UInt32.le_iff_toNat_le.1 h
    exact lt_of_le_of_lt this (by decide)
  · have := UInt32.le_iff_toNat_le.1 h
    exact lt_of_le_of_lt this (by decide)
  · decide
  · decide
  · decide

theorem lower_segmentChar {c : Char} (h : segmentChar c = true) :
    segmentChar c.toLower = true
      ∧ (c.toLower ∈ ['.', '-'] ↔ c ∈ ['.', '-'])
      ∧ isPySpace c.toLower = false ∧ c.toLower.toLower = c.toLower := by
  have hall : ∀ n : Fin 128, segmentChar (Char.ofNat n) = true →
      segmentChar (Char.ofNat n).toLower = true
        ∧ ((Char.ofNat n).toLower ∈ ['.', '-'] ↔ Char.ofNat n ∈ ['.', '-'])
        ∧ isPySpace (Char.ofNat n).toLower = false
        ∧ (Char.ofNat n).toLower.toLower = (Char.ofNat n).toLower := by
    decide
  have hc := hall ⟨c.toNat, segmentChar_lt h⟩
  rw [Char.ofNat_toNat] at hc
  exact hc h

theorem subRuns_eq_self {keep : Char → Bool} {cs : List Char}
    (h : ∀ c ∈ cs, keep c = true) : subRuns keep false cs = cs := by
  induction cs with
  | nil => rfl
  | cons c cs ih =>
    rw [subRuns, if_pos (h c List.mem_cons_self),
      ih fun d hd => h d (List.mem_cons_of_mem _ hd)]

theorem segmentChar_subRuns {cs : List Char} {gap : Bool} {c : Char}
    (h : c ∈ subRuns segmentChar gap cs) : segmentChar c = true := by
  induction cs generalizing gap with
  | nil => cases h
  | cons d cs ih =>
    rw [subRuns] at h
    split at h
    · next hd =>
      rcases List.mem_cons.1 h with rfl | h
      · exact hd
      · exact ih h
    · split at h
      · exact ih h
      · rcases List.mem_cons.1 h with rfl | h
        · rfl
        · exact ih h

theorem mem_of_mem_stripOf {chars cs : List Char} {c : Char}
    (h : c ∈ stripOf chars cs) : c ∈ cs := by
  have h := (List.dropWhile_sublist _).mem (List.mem_reverse.1 h)
  exact (List.dropWhile_sublist _).mem (List.mem_reverse.1 h)

theorem stripOf_stripOf (chars cs : List Char) :
    stripOf chars (stripOf chars cs) = stripOf chars cs := by
  unfold stripOf
  rw [dropWhile_rdrop (dropWhile_dropWhile _ cs), List.reverse_reverse,
    dropWhile_dropWhile]

theorem dropDots_lower {cs : List Char} (h : ∀ c ∈ cs, segmentChar c = true) :
    (cs.map Char.toLower).dropWhile (· ∈ ['.', '-'])
      = (cs.dropWhile (· ∈ ['.', '-'])).map Char.toLower := by
  induction cs with
  | nil => rfl
  | cons c cs ih =>
    have hc := (lower_segmentChar (h c List.mem_cons_self)).2.1
    have hcs := ih fun d hd => h d (List.mem_cons_of_mem _ hd)
    rw [List.map_cons, List.dropWhile_cons, List.dropWhile_cons]
    by_cases hdot : c ∈ ['.', '-']
    · rw [if_pos (decide_eq_true (hc.2 hdot)),
        if_pos (decide_eq_true hdot), hcs]
    · rw [if_neg (mt of_decide_eq_true (mt hc.1 hdot)),
        if_neg (mt of_decide_eq_true hdot), List.map_cons]

theorem stripOf_lower {cs : List Char} (h : ∀ c ∈ cs, segmentChar c = true) :
    stripOf ['.', '-'] (cs.map Char.toLower)
      = (stripOf ['.', '-'] cs).map Char.toLower := by
  unfold stripOf
  rw [dropDots_lower h, ← List.map_reverse, dropDots_lower,
    ← List.map_reverse]
  intro c hc
  exact h c ((List.dropWhile_sublist _).mem (List.mem_reverse.1 hc))

theorem normalizeMemorySegment_normalize (value : String) :
    normalizeMemorySegment (normalizeMemorySegment value)
      = normalizeMemorySegment value := by
  have hchars : ∀ c ∈ stripOf ['.', '-']
      (subRuns segmentChar false (pyStrip value).toList),
      segmentChar c = true :=
    fun c hc => segmentChar_subRuns (mem_of_mem_stripOf hc)
  unfold normalizeMemorySegment
  dsimp only
  generalize hr : stripOf ['.', '-']
    (subRuns segmentChar false (pyStrip value).toList) = r at hchars ⊢
  have hstrip : stripOf ['.', '-'] r = r := by
    rw [← hr, stripOf_stripOf]
  by_cases hempty : (r.map Char.toLower).isEmpty
  · rw [if_pos hempty]
    decide
  · have hlower : ∀ c ∈ r.map Char.toLower,
        segmentChar c = true ∧ isPySpace c = false ∧ c.toLower = c := by
      intro c hc
      obtain ⟨d, hd, rfl⟩ := List.mem_map.1 hc
      obtain ⟨hkept, -, hspace, hagain⟩ := lower_segmentChar (hchars d hd)
      exact ⟨hkept, hspace, hagain⟩
    rw [if_neg hempty, pyStrip, String.toList_ofList, String.toList_ofList,
      stripChars_of_no_space fun c hc => (hlower c hc).2.1,
      subRuns_eq_self fun c hc => (hlower c hc).1,
      stripOf_lower hchars, hstrip,
      List.map_congr_left fun c hc => (hlower c hc).2.2, List.map_id',
      if_neg hempty]

theorem namespaceRoot_normalize (agentName : String) :
    namespaceRoot (normalizeMemorySegment agentName)
      = namespaceRoot agentName := by
  unfold namespaceRoot
  rw [normalizeMemorySegment_normalize]

-- ============= reading

variable (p : Platform) (scope : MemoryScope)

def readFile (f : MemoryFile) : Except Failure (Option MemoryDocument) :=
  (readMemoryDocument p scope f).mapError fun raised => ⟨f, raised⟩

/-- `_scan_long_term_documents`, `_scan_agent_namespace_documents`: the
documents of a directory, and how many of its files are none. -/
def scanDocuments (files : List MemoryFile) (directory : List String) :
    Except Failure (List (MemoryFile × MemoryDocument) × Nat) := do
  let found ← (documentFiles files directory).mapM fun f =>
    (readFile p scope f).map fun document => (f, document)
  return (found.filterMap fun e => e.2.map fun d => (e.1, d),
    (found.filter fun e => e.2.isNone).length)

-- ======= the manifests

def supersededDocumentPaths (documents : List MemoryDocument) :
    List String :=
  let known := documents.map fun d => pyJoin "/" d.path
  ((documents.flatMap fun d => d.metadata.supersedes.getD []).filter
    (· ∈ known)).dedup

def isStale (staleAfter : Option String) : Except Raised Bool :=
  match staleAfter with
  | none => .ok false
  | some text =>
    if pyStrip text = "" then .ok false
    else
      match p.fromisoformat (withOffset (pyStrip text)) with
      | none => .ok false
      | some stamp => do
        raiseIf (stamp.aware = false) .typeError
        return stamp.past

def normalizeContent (content : String) : String :=
  pyJoin " " (splitWords [] content.toList)

def summarizeContent (content : String) : String :=
  let summary := normalizeContent content
  if summary.length ≤ 160 then summary
  else pyRstrip (String.ofList (summary.toList.take 157)) ++ "..."

def tokenCount (d : MemoryDocument) : Int :=
  let estimate : Int := max 1 (((normalizeContent d.content).length + 3) / 4)
  match d.metadata.tokenEstimate with
  | some (.int n) => if n = 0 then estimate else n
  | some (.bool true) => 1
  | _ => estimate

structure ManifestEntry where
  docId : String
  document : MemoryDocument
  summary : String
  tokenEstimate : Int
  superseded : Bool

def longTermManifestEntry (superseded : List String) (d : MemoryDocument) :
    ManifestEntry :=
  let path := pyJoin "/" d.path
  { docId := String.ofList
      ((p.sha1 (path ++ ":" ++ d.title ++ ":" ++ d.content)).toList.take 12)
    document := d
    summary :=
      match d.metadata.summary with
      | some summary => summary
      | none => summarizeContent d.content
    tokenEstimate := tokenCount d
    superseded := path ∈ superseded }

/-- A manifest, without what it says of itself. -/
structure Manifest where
  entries : List ManifestEntry
  invalidEntryCount : Nat
  staleEntryCount : Nat
  supersededEntryCount : Nat

/-- The manifest of a directory: the stale documents are counted, and each
entry is written as JSON, where an integer needs a text. -/
def buildManifest (files : List MemoryFile) (directory : List String) :
    Except Failure (Manifest × List MemoryDocument) := do
  let (found, invalid) ← scanDocuments p scope files directory
  let stale ← found.mapM fun e =>
    (isStale p e.2.metadata.staleAfter).mapError (Failure.mk e.1)
  let _ ← found.mapM fun e =>
    (p.str (.int (tokenCount e.2))).mapError (Failure.mk e.1)
  let documents := found.map Prod.snd
  let superseded := supersededDocumentPaths documents
  return ({ entries := documents.map (longTermManifestEntry p superseded)
            invalidEntryCount := invalid
            staleEntryCount := (stale.filter id).length
            supersededEntryCount := superseded.length }, documents)

/-- The values a `for` takes from `entries`; a number, a truth value and
null are not gone through. -/
def iterated : PyVal → Except Raised (List PyVal)
  | .list items => .ok items
  | .str text => .ok (text.toList.map fun c => .str (String.singleton c))
  | .dict items => .ok (items.map fun e => .str e.1.text)
  | _ => .error .typeError

def manifestConflictKeys (text : String) : Except Raised (List String) :=
  match p.loads text with
  | .error .decodeError => .ok []
  | .error .valueError => .error .valueError
  | .ok (.dict payload) =>
    (iterated ((lookupKey payload "entries").getD (.list []))).map
      fun entries => entries.filterMap fun
        | .dict entry => givenText (getField entry "conflict_key")
        | _ => none
  | .ok _ => .ok []

/-- The directories of `agents`. -/
def agentNames (files : List MemoryFile) : List String :=
  (files.filterMap fun f =>
    match f.1 with
    | "agents" :: name :: _ :: _ => some name
    | _ => none).dedup

def namedConflictKeys (files : List MemoryFile) (agentName : String) :
    Except Failure (List String) :=
  match files.find? fun f => f.1 = namespaceManifestPath agentName with
  | none => .ok []
  | some f => (manifestConflictKeys p f.2).mapError (Failure.mk f)

def agentNamespace (files : List MemoryFile) (agentName : String) :
    Except Failure (String × Nat × List String) := do
  let (documents, _) ← scanDocuments p scope files
    (namespaceDocumentsDir agentName)
  let named ← namedConflictKeys p files agentName
  let keys := if named.isEmpty then
    documents.filterMap fun e => e.2.metadata.conflictKey else named
  return (agentName, documents.length, keys)

def refreshManifests (files : List MemoryFile) :
    Except Failure (Manifest × List MemoryDocument) := do
  let (manifest, documents) ← buildManifest p scope files ["documents"]
  let _ ← (agentNames files).mapM (agentNamespace p scope files)
  return (manifest, documents)

-- ====== the operations

def listDocuments (files : List MemoryFile) :
    Except Failure (List MemoryDocument) :=
  (refreshManifests p scope files).map Prod.snd

def loadLongTermManifest (files : List MemoryFile) :
    Except Failure Manifest :=
  (refreshManifests p scope files).map Prod.fst

def materializeDocuments (files : List MemoryFile)
    (paths : List (List String)) : Except Failure (List MemoryDocument) := do
  let found ← paths.mapM fun path =>
    match files.find? fun f => f.1 = path with
    | none => Except.ok none
    | some f => readFile p scope f
  return found.reduceOption

def refreshAgentNamespaceManifest (text : Manifest → String)
    (files : List MemoryFile) (agentName : String) :
    Except Failure (List MemoryFile) := do
  let agent := normalizeMemorySegment agentName
  let (manifest, _) ← buildManifest p scope files
    (namespaceDocumentsDir agent)
  return SortedMap.set files (namespaceManifestPath agent) (text manifest)

structure MemoryEntry where
  title : String
  content : String
  metadata : Fields

/-- A document is not read or not listed, or an entry is refused. -/
inductive PersistFailure where
  | file (failure : Failure)
  | entry (raised : Raised)

def setDefault (key : String) (value : PyVal) (metadata : Fields) : Fields :=
  if (lookupKey metadata key).isSome then metadata
  else metadata ++ [(.str key, value)]

def nameAgent (raw : Fields) : Fields :=
  match givenText (getField raw "namespace") with
  | some text =>
    if "agent:".isPrefixOf text && afterColon text != ""
        && !(getField raw "agent_namespace").truthy then
      setField raw (.str "agent_namespace") (.str (afterColon text))
    else raw
  | none => raw

def buildMemoryArtifactMetadata (entry : MemoryEntry) :
    Except Raised ArtifactMetadata := do
  let raw := renameSource entry.metadata
  let source ← match pyOr (getField raw "source_pathway") (.str "rule") with
    | .str text => Except.ok text
    | value => p.str value
  let raw := nameAgent (raw |> setDefault "memory_kind" (.str "note")
    |> setDefault "scope" (.str (scopeValue scope))
    |> setDefault "namespace" (.str "shared"))
  let raw := raw |> setDefault "retention" (.str "durable_until_superseded")
    |> setDefault "source_pathway" (.str (pyStrip source))
    |> setDefault "created_at" (.str p.now)
    |> setDefault "last_confirmed_at" (.str p.now)
    |> setDefault "tags" (.list [])
  let (metadata, _) ← normalizeMemoryArtifactMetadata p scope raw p.now
  return metadata

def directoryForMetadata (metadata : ArtifactMetadata) :
    Option String → List String
  | some agent =>
    namespaceDocumentsDir agent ++
      [if metadata.memoryKind ∈ ["agent_workflow", "heuristic"] then
        "heuristics"
      else if metadata.memoryKind ∈ ["workflow", "agent_workflow_step"] then
        "workflows"
      else "durable-notes"]
  | none =>
    ["documents",
      if metadata.memoryKind = "preference" then "preferences"
      else if metadata.memoryKind ∈
          ["project_convention", "convention", "workflow_command"] then
        "conventions"
      else if metadata.memoryKind ∈ ["topic", "topic_memory"] then "topics"
      else "shared"]

/-- `_persistence_target_for_metadata`: the metadata, and the agent whose
namespace the document goes to. -/
def persistenceTargetForMetadata (metadata : ArtifactMetadata) :
    Except Raised (ArtifactMetadata × Option String) := do
  let declared := metadata.agentNamespace.getD ""
  if metadata.namespace_ = "shared" then
    raiseIf (declared ≠ "") .valueError
    return ({ metadata with agentNamespace := none }, none)
  else if "agent:".isPrefixOf metadata.namespace_ then
    let requested := afterColon metadata.namespace_
    raiseIf (pyStrip declared ≠ "" ∧ requested ≠ ""
      ∧ pyStrip declared ≠ requested) .valueError
    let agent := normalizeMemorySegment
      (if declared = "" then requested else declared)
    return ({ metadata with
      namespace_ := "agent:" ++ agent, agentNamespace := some agent },
      some agent)
  else .error .valueError

/-- The keys that are written, in their order. -/
def frontmatterFields (m : ArtifactMetadata) : Fields :=
  let texts := fun items : List String => PyVal.list (items.map .str)
  [("memory_kind", some (.str m.memoryKind)), ("scope", some (.str m.scope)),
    ("namespace", some (.str m.namespace_)),
    ("agent_namespace", m.agentNamespace.map .str),
    ("retention", some (.str m.retention)),
    ("source_pathway", some (.str m.sourcePathway)),
    ("source_message_ids", m.sourceMessageIds.map texts),
    ("source_roles", m.sourceRoles.map texts),
    ("created_at", some (.str m.createdAt)),
    ("last_confirmed_at", some (.str m.lastConfirmedAt)),
    ("supersedes", m.supersedes.map texts), ("tags", some (texts m.tags)),
    ("confidence", m.confidence), ("embedding_ref", m.embeddingRef.map .str),
    ("summary", m.summary.map .str), ("token_estimate", m.tokenEstimate),
    ("stale_after", m.staleAfter.map .str),
    ("conflict_key", m.conflictKey.map .str),
    ("contested", m.contested.map .bool),
    ("merge_policy", m.mergePolicy.map .str)].filterMap
      fun e => e.2.map fun value => (PyKey.str e.1, value)

def serializeMemoryArtifact (title content : String)
    (metadata : ArtifactMetadata) : String :=
  "---\n" ++ pyStrip (p.safeDump (frontmatterFields metadata)) ++ "\n---\n# "
    ++ title ++ "\n\n" ++ content ++ "\n"

def fingerprint (content : String) : String :=
  String.ofList ((p.sha1 content).toList.take 12)

def existingFingerprints (documents : List MemoryDocument) : List String :=
  documents.filterMap fun d =>
    if normalizeContent d.content = "" then none
    else some (fingerprint p (normalizeContent d.content))

def slugify (value : String) : String :=
  String.ofList ((stripOf ['-'] (subRuns
    (fun c => c.isLower || c.isDigit) false (p.lower value).toList)).take 48)

/-- The locals of the loop of `persist_entries`. -/
structure Persisting where
  files : List MemoryFile
  known : List (Option String × List String)
  persisted : List MemoryDocument

/-- The fingerprints of a target, which is scanned when it is first met. -/
def knownFingerprints (s : Persisting) (target : Option String) :
    Except Failure (List String) :=
  match s.known.lookup target with
  | some known => .ok known
  | none =>
    (scanDocuments p scope s.files
      (target.elim ["documents"] namespaceDocumentsDir)).map
        fun found => existingFingerprints p (found.1.map Prod.snd)

/-- One round of the loop. -/
def persistEntry (s : Persisting) (e : MemoryEntry × Nat) :
    Except PersistFailure Persisting :=
  let normalized := normalizeContent e.1.content
  if normalized = "" then .ok s
  else do
    let metadata ← (buildMemoryArtifactMetadata p scope e.1).mapError .entry
    let (metadata, target) ←
      (persistenceTargetForMetadata metadata).mapError .entry
    let known ← (knownFingerprints p scope s target).mapError .file
    if fingerprint p normalized ∈ known then
      return { s with known := (target, known) :: s.known }
    else
      let slug := slugify p e.1.title
      let name := p.timestamp ++ "-"
        ++ (if slug = "" then s!"memory-{e.2 + 1}" else slug) ++ "-"
        ++ fingerprint p normalized ++ ".md"
      let path := directoryForMetadata metadata target ++ [name]
      let title := if pyStrip e.1.title = "" then "Memory note"
        else pyStrip e.1.title
      return {
        files := SortedMap.set s.files path
          (serializeMemoryArtifact p title normalized metadata)
        known :=
          (target, fingerprint p normalized :: known) :: s.known
        persisted := s.persisted ++ [⟨path, title, normalized,
          if metadata.memoryKind = "" then "document"
          else metadata.memoryKind, metadata⟩] }

def touchedAgents (documents : List MemoryDocument) : List String :=
  (documents.filterMap fun d => d.metadata.agentNamespace).dedup
    |>.insertionSort (· ≤ ·)

def persistEntries (text : Manifest → String) (files : List MemoryFile)
    (entries : List MemoryEntry) :
    Except PersistFailure (List MemoryFile × List MemoryDocument) :=
  if entries.isEmpty then .ok (files, [])
  else do
    let s ← entries.zipIdx.foldlM (persistEntry p scope) ⟨files, [], []⟩
    let refreshed ← ((touchedAgents s.persisted).foldlM
      (refreshAgentNamespaceManifest p scope text) s.files).mapError .file
    let _ ← (refreshManifests p scope refreshed).mapError .file
    return (refreshed, s.persisted)

-- ==== what is harmless

/-- The artifact a file holds, if it is valid. -/
def artifact (f : MemoryFile) : Option MemoryDocument :=
  (readMemoryDocument p scope f).toOption.join

/-- No time without an offset. -/
def Aware (text : String) : Prop :=
  ∀ stamp, p.fromisoformat (withOffset (pyStrip text)) = some stamp →
    pyStrip text = "" ∨ stamp.aware = true

/-- A document that a manifest can list: its `stale_after` is compared,
and its token count has a text. -/
structure Listable (d : MemoryDocument) : Prop where
  aware : ∀ text, d.metadata.staleAfter = some text → Aware p text
  counted : Printable p (.int (tokenCount d))

/-- The text of a namespace manifest whose entries can be gone through. -/
structure NamesEntries (text : String) : Prop where
  loads : p.loads text ≠ .error .valueError
  entries : ∀ payload value, p.loads text = .ok (.dict payload) →
    lookupKey payload "entries" = some value →
    ∃ items, iterated value = .ok items

/-- The directories a manifest is made of. -/
def Listed (directory : List String) : Prop :=
  directory = ["documents"]
    ∨ ∃ agent, directory = namespaceDocumentsDir agent

/-- A file that breaks no operation. -/
structure Harmless (f : MemoryFile) : Prop where
  loads : Loads p f.2.toList
  listable : ∀ directory, Listed directory →
    isDocument directory f.1 = true → ∀ d, artifact p scope f = some d →
    Listable p d
  entries : ∀ agent, f.1 = namespaceManifestPath agent → NamesEntries p f.2

variable {p scope} {files : List MemoryFile} {directory : List String}

theorem readFile_returns_iff (f : MemoryFile) :
    (∃ r, readFile p scope f = .ok r) ↔ Loads p f.2.toList := by
  rw [← readMemoryDocument_returns_iff scope]
  unfold readFile
  cases readMemoryDocument p scope f with
  | error raised => simp [Except.mapError]
  | ok d => simp [Except.mapError]

theorem artifact_of_readFile {f : MemoryFile} {d : Option MemoryDocument}
    (h : readFile p scope f = .ok d) : artifact p scope f = d := by
  unfold readFile at h
  unfold artifact
  cases hread : readMemoryDocument p scope f with
  | error raised =>
    rw [hread] at h
    cases h
  | ok d' =>
    rw [hread] at h
    cases h
    exact Option.join_some

theorem isStale_returns_iff (staleAfter : Option String) :
    (∃ b, isStale p staleAfter = .ok b)
      ↔ ∀ text, staleAfter = some text → Aware p text := by
  unfold isStale Aware
  cases staleAfter with
  | none => simp
  | some text =>
    dsimp only
    by_cases hblank : pyStrip text = ""
    · simp [hblank]
    · cases hstamp : p.fromisoformat (withOffset (pyStrip text)) with
      | none => simp [hblank, hstamp]
      | some stamp =>
        simp only [if_neg hblank]
        refine (exists_bind_iff (P := True) fun _ =>
          iff_true_intro ⟨_, rfl⟩).trans ?_
        simp [raiseIf_eq_ok, hblank, hstamp]

/-- What a scan finds, each file of the directory being read. -/
theorem scanDocuments_eq_ok_iff
    {r : List (MemoryFile × MemoryDocument) × Nat} :
    scanDocuments p scope files directory = .ok r
      ↔ (∀ f ∈ documentFiles files directory, Loads p f.2.toList)
        ∧ r = ((documentFiles files directory).filterMap fun f =>
            (artifact p scope f).map fun d => (f, d),
          ((documentFiles files directory).filter fun f =>
            (artifact p scope f).isNone).length) := by
  have hread : ∀ f r, ((readFile p scope f).map fun d => (f, d)) = .ok r →
      Loads p f.2.toList ∧ r = (f, artifact p scope f) := by
    intro f r h
    cases hf : readFile p scope f with
    | error failure =>
      rw [hf] at h
      cases h
    | ok d =>
      rw [hf] at h
      cases h
      rw [artifact_of_readFile hf]
      exact ⟨(readFile_returns_iff f).1 ⟨d, hf⟩, rfl⟩
  have hall : (∀ f ∈ documentFiles files directory, Loads p f.2.toList) →
      ((documentFiles files directory).mapM fun f =>
        (readFile p scope f).map fun d => (f, d))
        = .ok ((documentFiles files directory).map fun f =>
          (f, artifact p scope f)) := by
    intro h
    apply mapM_eq_ok_of
    intro f hf
    obtain ⟨d, hd⟩ := (readFile_returns_iff f).2 (h f hf)
    rw [hd, artifact_of_readFile hd]
    rfl
  unfold scanDocuments
  constructor
  · intro h
    obtain ⟨found, hfound, h⟩ := bind_eq_ok.1 h
    have hloads : ∀ f ∈ documentFiles files directory,
        Loads p f.2.toList := by
      intro f hf
      obtain ⟨r, hr⟩ := exists_mapM_iff.1 ⟨found, hfound⟩ f hf
      exact (hread f r hr).1
    rw [hall hloads] at hfound
    cases hfound
    cases h
    refine ⟨hloads, ?_⟩
    rw [List.filterMap_map, List.filter_map, List.length_map]
    rfl
  · rintro ⟨hloads, rfl⟩
    rw [hall hloads, ok_bind, List.filterMap_map, List.filter_map,
      List.length_map]
    rfl

-- =============== blame

variable (p scope) in
/-- What is raised is raised for a file that is not harmless. -/
def Blames (files : List MemoryFile) (x : Except Failure α) : Prop :=
  ∀ e, x = .error e → e.file ∈ files ∧ ¬ Harmless p scope e.file

theorem mem_documentFiles {f : MemoryFile} :
    f ∈ documentFiles files directory
      ↔ f ∈ files ∧ isDocument directory f.1 = true := List.mem_filter

theorem readFile_error {f : MemoryFile} {e : Failure}
    (h : readFile p scope f = .error e) :
    e.file = f ∧ ¬ Harmless p scope f := by
  obtain ⟨raised, -, rfl⟩ := mapError_eq_error.1 h
  refine ⟨rfl, fun hf => ?_⟩
  obtain ⟨r, hr⟩ := (readFile_returns_iff f).2 hf.loads
  rw [h] at hr
  cases hr

theorem blames_scanDocuments :
    Blames p scope files (scanDocuments p scope files directory) := by
  intro e h
  rcases bind_eq_error.1 h with h | ⟨found, -, h⟩
  · obtain ⟨f, hf, h⟩ := mapM_eq_error h
    obtain ⟨rfl, hbad⟩ := readFile_error (map_eq_error.1 h)
    exact ⟨(mem_documentFiles.1 hf).1, hbad⟩
  · cases h

theorem scanDocuments_mem {r : List (MemoryFile × MemoryDocument) × Nat}
    (h : scanDocuments p scope files directory = .ok r)
    {e : MemoryFile × MemoryDocument} (he : e ∈ r.1) :
    e.1 ∈ files ∧ isDocument directory e.1.1 = true
      ∧ artifact p scope e.1 = some e.2 := by
  obtain ⟨-, rfl⟩ := scanDocuments_eq_ok_iff.1 h
  obtain ⟨f, hf, he⟩ := List.mem_filterMap.1 he
  obtain ⟨d, hd, rfl⟩ := Option.map_eq_some_iff.1 he
  obtain ⟨hmem, hdoc⟩ := mem_documentFiles.1 hf
  exact ⟨hmem, hdoc, hd⟩

theorem blames_buildManifest (hdir : Listed directory) :
    Blames p scope files (buildManifest p scope files directory) := by
  intro e h
  rcases bind_eq_error.1 h with h | ⟨r, hr, h⟩
  · exact blames_scanDocuments e h
  · -- a file whose document is not listed is not harmless
    have hlisted : ∀ x ∈ r.1, ¬ Listable p x.2 →
        x.1 ∈ files ∧ ¬ Harmless p scope x.1 := by
      intro x hx hbad
      obtain ⟨hmem, hdoc, hd⟩ := scanDocuments_mem hr hx
      exact ⟨hmem, fun hf => hbad (hf.listable _ hdir hdoc _ hd)⟩
    rcases bind_eq_error.1 h with h | ⟨stale, -, h⟩
    · obtain ⟨x, hx, h⟩ := mapM_eq_error h
      obtain ⟨raised, hraised, rfl⟩ := mapError_eq_error.1 h
      refine hlisted x hx fun hx => ?_
      obtain ⟨b, hb⟩ := (isStale_returns_iff _).2 hx.aware
      rw [hraised] at hb
      cases hb
    · rcases bind_eq_error.1 h with h | ⟨texts, -, h⟩
      · obtain ⟨x, hx, h⟩ := mapM_eq_error h
        obtain ⟨raised, hraised, rfl⟩ := mapError_eq_error.1 h
        refine hlisted x hx fun hx => ?_
        obtain ⟨text, ht⟩ := hx.counted
        rw [hraised] at ht
        cases ht
      · cases h

theorem manifestConflictKeys_returns_iff (text : String) :
    (∃ keys, manifestConflictKeys p text = .ok keys)
      ↔ NamesEntries p text := by
  have hiff : NamesEntries p text ↔ p.loads text ≠ .error .valueError
      ∧ ∀ payload value, p.loads text = .ok (.dict payload) →
        lookupKey payload "entries" = some value →
        ∃ items, iterated value = .ok items :=
    ⟨fun h => ⟨h.loads, h.entries⟩, fun h => ⟨h.1, h.2⟩⟩
  rw [hiff]
  unfold manifestConflictKeys
  cases hload : p.loads text with
  | error failure =>
    cases failure with
    | decodeError => simp
    | valueError => simp
  | ok value =>
    cases value with
    | dict payload =>
      refine exists_map_iff.trans ?_
      cases hentries : lookupKey payload "entries" with
      | none =>
        refine iff_of_true ⟨_, rfl⟩ ⟨by simp, ?_⟩
        intro payload' value h h'
        cases h
        rw [hentries] at h'
        cases h'
      | some value =>
        constructor
        · intro h
          refine ⟨by simp, ?_⟩
          intro payload' value' h' hvalue
          cases h'
          rw [hentries] at hvalue
          cases hvalue
          exact h
        · exact fun h => h.2 payload value rfl hentries
    | _ => simp

theorem blames_agentNamespace (agentName : String) :
    Blames p scope files (agentNamespace p scope files agentName) := by
  intro e h
  rcases bind_eq_error.1 h with h | ⟨r, -, h⟩
  · exact blames_scanDocuments e h
  · rcases bind_eq_error.1 h with h | ⟨keys, -, h⟩
    · unfold namedConflictKeys at h
      cases hfind : files.find?
          fun f => f.1 = namespaceManifestPath agentName with
      | none =>
        rw [hfind] at h
        cases h
      | some f =>
        rw [hfind] at h
        obtain ⟨raised, hraised, rfl⟩ := mapError_eq_error.1 h
        refine ⟨List.mem_of_find?_eq_some hfind, fun hf => ?_⟩
        have hpath : f.1 = namespaceManifestPath agentName := by
          simpa using List.find?_some hfind
        obtain ⟨keys, hkeys⟩ := (manifestConflictKeys_returns_iff _).2
          (hf.entries agentName hpath)
        rw [hraised] at hkeys
        cases hkeys
    · cases h

theorem blames_refreshManifests :
    Blames p scope files (refreshManifests p scope files) := by
  intro e h
  rcases bind_eq_error.1 h with h | ⟨r, -, h⟩
  · exact blames_buildManifest (Or.inl rfl) e h
  · rcases bind_eq_error.1 h with h | ⟨namespaces, -, h⟩
    · obtain ⟨agentName, -, h⟩ := mapM_eq_error h
      exact blames_agentNamespace agentName e h
    · cases h

theorem Blames.returns {x : Except Failure α} (h : Blames p scope files x)
    (hall : ∀ f ∈ files, Harmless p scope f) : ∃ r, x = .ok r := by
  cases x with
  | ok r => exact ⟨r, rfl⟩
  | error e =>
    obtain ⟨hmem, hbad⟩ := h e rfl
    exact absurd (hall _ hmem) hbad

-- ========= the results

variable (p scope files directory) in
def artifacts : List MemoryDocument :=
  (documentFiles files directory).filterMap (artifact p scope)

variable (p scope files directory) in
/-- How many of its files hold none. -/
def invalidCount : Nat :=
  ((documentFiles files directory).filter fun f =>
    (artifact p scope f).isNone).length

theorem buildManifest_ok {r : Manifest × List MemoryDocument}
    (h : buildManifest p scope files directory = .ok r) :
    (∀ f ∈ documentFiles files directory, Loads p f.2.toList
        ∧ ∀ d, artifact p scope f = some d → Listable p d)
      ∧ r.2 = artifacts p scope files directory
      ∧ r.1.entries.map (·.document) = artifacts p scope files directory
      ∧ r.1.invalidEntryCount = invalidCount p scope files directory := by
  obtain ⟨found, hfound, h⟩ := bind_eq_ok.1 h
  obtain ⟨stale, hstale, h⟩ := bind_eq_ok.1 h
  obtain ⟨texts, htexts, h⟩ := bind_eq_ok.1 h
  obtain ⟨hloads, hscan⟩ := scanDocuments_eq_ok_iff.1 hfound
  have hdocuments : found.1.map Prod.snd
      = artifacts p scope files directory := by
    rw [hscan, List.map_filterMap]
    unfold artifacts
    congr 1
    funext f
    rw [Option.map_map]
    exact Option.map_id'
  cases h
  refine ⟨fun f hf => ⟨hloads f hf, fun d hd => ?_⟩, hdocuments, ?_, ?_⟩
  · have hmem : (f, d) ∈ found.1 := by
      rw [hscan]
      exact List.mem_filterMap.2 ⟨f, hf, by rw [hd]; rfl⟩
    obtain ⟨b, hb⟩ := exists_mapM_iff.1 ⟨stale, hstale⟩ _ hmem
    obtain ⟨text, ht⟩ := exists_mapM_iff.1 ⟨texts, htexts⟩ _ hmem
    exact ⟨(isStale_returns_iff _).1 ⟨b, mapError_eq_ok.1 hb⟩,
      ⟨text, mapError_eq_ok.1 ht⟩⟩
  · rw [List.map_map, ← hdocuments]
    exact List.map_id' _
  · rw [hscan]
    rfl

theorem refreshManifests_ok {r : Manifest × List MemoryDocument}
    (h : refreshManifests p scope files = .ok r) :
    buildManifest p scope files ["documents"] = .ok r
      ∧ ∀ name ∈ agentNames files, ∃ keys,
        namedConflictKeys p files name = .ok keys := by
  obtain ⟨built, hbuilt, h⟩ := bind_eq_ok.1 h
  obtain ⟨namespaces, hnamespaces, h⟩ := bind_eq_ok.1 h
  cases h
  refine ⟨hbuilt, fun name hname => ?_⟩
  obtain ⟨x, hx⟩ := exists_mapM_iff.1 ⟨namespaces, hnamespaces⟩ name hname
  obtain ⟨found, -, hx⟩ := bind_eq_ok.1 hx
  obtain ⟨keys, hkeys, -⟩ := bind_eq_ok.1 hx
  exact ⟨keys, hkeys⟩

-- ========== persisting

theorem persistEntry_error {s : Persisting} {e : MemoryEntry × Nat}
    {failure : Failure}
    (h : persistEntry p scope s e = .error (.file failure)) :
    ¬ Harmless p scope failure.file := by
  unfold persistEntry at h
  dsimp only at h
  split at h
  · cases h
  · rcases bind_eq_error.1 h with h | ⟨metadata, -, h⟩
    · obtain ⟨raised, -, h⟩ := mapError_eq_error.1 h
      cases h
    · rcases bind_eq_error.1 h with h | ⟨target, -, h⟩
      · obtain ⟨raised, -, h⟩ := mapError_eq_error.1 h
        cases h
      · rcases bind_eq_error.1 h with h | ⟨known, -, h⟩
        · obtain ⟨e', hknown, h⟩ := mapError_eq_error.1 h
          cases h
          unfold knownFingerprints at hknown
          split at hknown
          · cases hknown
          · exact (blames_scanDocuments _ (map_eq_error.1 hknown)).2
        · split at h
          · cases h
          · cases h

theorem blames_refreshAgentNamespaceManifest (text : Manifest → String)
    (agentName : String) :
    Blames p scope files
      (refreshAgentNamespaceManifest p scope text files agentName) := by
  intro e h
  rcases bind_eq_error.1 h with h | ⟨built, -, h⟩
  · exact blames_buildManifest (Or.inr ⟨_, rfl⟩) e h
  · cases h

/-- What `persist_entries` raises for a file, it raises for a file that is
not harmless, whether it was there or was written by the call. -/
theorem persistEntries_error {text : Manifest → String}
    {entries : List MemoryEntry} {failure : Failure}
    (h : persistEntries p scope text files entries = .error (.file failure)) :
    ¬ Harmless p scope failure.file := by
  unfold persistEntries at h
  split at h
  · cases h
  · rcases bind_eq_error.1 h with h | ⟨s, -, h⟩
    · obtain ⟨s, e, -, h⟩ := foldlM_eq_error h
      exact persistEntry_error h
    · rcases bind_eq_error.1 h with h | ⟨refreshed, -, h⟩
      · obtain ⟨e, hfold, h⟩ := mapError_eq_error.1 h
        cases h
        obtain ⟨current, agentName, -, h⟩ := foldlM_eq_error hfold
        exact (blames_refreshAgentNamespaceManifest text agentName _ h).2
      · rcases bind_eq_error.1 h with h | ⟨r, -, h⟩
        · obtain ⟨e, hrefresh, h⟩ := mapError_eq_error.1 h
          cases h
          exact (blames_refreshManifests _ hrefresh).2
        · cases h

-- =========== the store

variable (p scope files) in
/-- No operation raises for a file of the store; the valid artifacts are
returned and the other files are counted. `persist_entries` refreshes the
manifest of a namespace it writes to. -/
structure Survives : Prop where
  lists : listDocuments p scope files
    = .ok (artifacts p scope files ["documents"])
  loads : ∃ m, loadLongTermManifest p scope files = .ok m
    ∧ m.entries.map (·.document) = artifacts p scope files ["documents"]
    ∧ m.invalidEntryCount = invalidCount p scope files ["documents"]
  materializes : ∀ paths, materializeDocuments p scope files paths
    = .ok (paths.filterMap fun path =>
      (files.find? fun f => f.1 = path).bind (artifact p scope))
  refreshes : ∀ text agentName, ∃ files',
    refreshAgentNamespaceManifest p scope text files agentName = .ok files'
  persists : ∀ text entries failure,
    persistEntries p scope text files entries = .error (.file failure) →
    failure.file ∉ files

theorem survives_of_harmless (hall : ∀ f ∈ files, Harmless p scope f) :
    Survives p scope files := by
  obtain ⟨r, hr⟩ := blames_refreshManifests.returns hall
  obtain ⟨-, hlist, hentries, hcount⟩ :=
    buildManifest_ok (refreshManifests_ok hr).1
  refine ⟨?_, ⟨r.1, ?_, hentries, hcount⟩, fun paths => ?_,
    fun text agentName => ?_, fun text entries failure h hmem => ?_⟩
  · unfold listDocuments
    rw [hr, ← hlist]
    rfl
  · unfold loadLongTermManifest
    rw [hr]
    rfl
  · unfold materializeDocuments
    rw [mapM_eq_ok_of (g := fun path =>
      (files.find? fun f => f.1 = path).bind (artifact p scope)), ok_bind]
    · show Except.ok (paths.map _).reduceOption = _
      unfold List.reduceOption
      rw [List.filterMap_map]
      rfl
    · intro path hpath
      cases hfind : files.find? fun f => f.1 = path with
      | none => rfl
      | some f =>
        obtain ⟨d, hd⟩ := (readFile_returns_iff f).2
          (hall f (List.mem_of_find?_eq_some hfind)).loads
        dsimp only
        rw [hd, ← artifact_of_readFile hd]
        rfl
  · exact (blames_refreshAgentNamespaceManifest text agentName).returns hall
  · exact persistEntries_error h (hall _ hmem)

/-- The store survives its files exactly where each of them is harmless. -/
theorem store_survives_iff (p : Platform) (scope : MemoryScope)
    (store : SortedMap (List String) String) :
    Survives p scope store.entries
      ↔ ∀ f ∈ store.entries, Harmless p scope f := by
  refine ⟨fun h f hf => ?_, survives_of_harmless⟩
  have hfind : ∀ path, f.1 = path →
      (store.entries.find? fun g => g.1 = path) = some f := by
    rintro path rfl
    exact SortedMap.find?_of_mem store.sorted hf
  obtain ⟨r, hr⟩ := exists_map_iff.1 ⟨_, h.lists⟩
  obtain ⟨hbuilt, hnames⟩ := refreshManifests_ok hr
  refine ⟨?_, fun directory hdir hdoc d hd => ?_, fun agent hpath => ?_⟩
  · -- the file is asked for by its path
    obtain ⟨found, hfound, -⟩ := bind_eq_ok.1 (h.materializes [f.1])
    obtain ⟨d, hd⟩ := exists_mapM_iff.1 ⟨found, hfound⟩ f.1
      List.mem_cons_self
    rw [hfind f.1 rfl] at hd
    exact (readFile_returns_iff f).1 ⟨d, hd⟩
  · have hmem := mem_documentFiles.2 ⟨hf, hdoc⟩
    rcases hdir with rfl | ⟨agent, rfl⟩
    · exact ((buildManifest_ok hbuilt).1 f hmem).2 d hd
    · obtain ⟨files', hrefresh⟩ := h.refreshes (fun _ => "") agent
      obtain ⟨built, hbuilt, -⟩ := bind_eq_ok.1 hrefresh
      rw [namespaceDocumentsDir, namespaceRoot_normalize] at hbuilt
      exact ((buildManifest_ok hbuilt).1 f hmem).2 d hd
  · have hname : normalizeMemorySegment agent ∈ agentNames store.entries := by
      refine List.mem_dedup.2 (List.mem_filterMap.2 ⟨f, hf, ?_⟩)
      rw [hpath]
      rfl
    obtain ⟨keys, hkeys⟩ := hnames _ hname
    rw [namedConflictKeys, namespaceManifestPath, namespaceRoot_normalize,
      ← namespaceManifestPath, hfind _ hpath] at hkeys
    exact (manifestConflictKeys_returns_iff _).1
      ⟨keys, mapError_eq_ok.1 hkeys⟩

-- ========== a bad date

/-- PyYAML on two frontmatters: that of a shared note, and one with a date
that no calendar has. -/
def datePlatform : Platform where
  safeLoad raw :=
    if raw = "\ncreated_at: 2024-02-30\n" then .error .valueError
    else .ok (.dict [(.str "namespace", .str "shared")])
  safeDump _ := "memory_kind: note"
  fromisoformat _ := some ⟨true, false⟩
  utcText _ := none
  str _ := .ok ""
  loads _ := .error .decodeError
  float _ := "0.0"
  lower := id
  sha1 := id
  now := "2024-03-01T00:00:00Z"
  timestamp := "20240301T000000Z"
  fileTimestamp _ := "2024-03-01T00:00:00Z"

def goodFile : MemoryFile :=
  (["documents", "good.md"], "---\nnamespace: shared\n---\nkept\n")

def datedFile : MemoryFile :=
  (["documents", "dated.md"], "---\ncreated_at: 2024-02-30\n---\nlost\n")

/-- One file with such a date, and the note beside it is not listed. -/
theorem dated_file_breaks :
    (artifact datePlatform .project goodFile).isSome = true
      ∧ ¬ Survives datePlatform .project [datedFile, goodFile] := by
  refine ⟨by decide +kernel, fun h => ?_⟩
  obtain ⟨r, hr⟩ := exists_map_iff.1 ⟨_, h.lists⟩
  have hraises : (refreshManifests datePlatform .project
      [datedFile, goodFile]).toOption.isNone = true := by decide +kernel
  rw [hr] at hraises
  cases hraises

end WeaveRuntime.Memory.Documents
