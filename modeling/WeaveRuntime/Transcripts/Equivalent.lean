/-
The two transcript stores behave alike, and where they do not.

`Related` says what the files hold of what the memory store holds: each
line decodes to its entry, the metadata and the payloads are the same, and
the manifest is the one in memory as the codec gives it back. Every call
whose data is JSON and whose names are names of files keeps it
(`Related.handle`), from two empty stores on.

What a related pair of stores returns differs in two calls only
(`Related.handle_eq_iff`): the memory store takes a stored `null` for no
artifact, and the file store reads an empty retention class as the
default. So over a run every result agrees exactly when no call loads a
null artifact and none loads or lists an entry of an empty class
(`stores_agree_iff`).
-/
import WeaveRuntime.Transcripts.Store

namespace WeaveRuntime.Transcripts

open Lib Python Messages
open Jobs (Fields updateFields)

-- ========= small facts

theorem strKeys_of_json {fields : Fields} (h : fieldsJson fields = true) :
    strKeys fields = fields := by
  obtain ⟨hstr, hnodup⟩ := fieldsJson_iff.1 h
  have hmap : (fields.map fun e => (PyKey.str e.1.text, e.2)) = fields := by
    refine (List.map_congr_left fun e he => ?_).trans (List.map_id _)
    exact Prod.ext (hstr e he).1.symm rfl
  unfold strKeys
  rw [hmap]
  exact updateFields_append hnodup

theorem sortedRefs_perm {l l' : List String} (h : l.Perm l') :
    sortedRefs l = sortedRefs l' := by
  unfold sortedRefs
  refine List.Perm.eq_of_pairwise' (List.pairwise_insertionSort _ _)
    (List.pairwise_insertionSort _ _) ?_
  exact ((List.perm_insertionSort _ l).trans h).trans
    (List.perm_insertionSort _ l').symm

@[simp] theorem readBack_artifactRef (e : ArtifactManifestEntry) :
    e.readBack.artifactRef = e.artifactRef := rfl

@[simp] theorem readBack_readBack (e : ArtifactManifestEntry) :
    e.readBack.readBack = e.readBack := by
  unfold ArtifactManifestEntry.readBack
  by_cases h : e.retentionClass = ""
  · simp [h]
  · simp [h]

theorem readBack_eq_self {e : ArtifactManifestEntry} :
    e.readBack = e ↔ e.retentionClass ≠ "" := by
  refine ⟨fun h hempty => ?_, fun h => ?_⟩
  · have hclass := congrArg ArtifactManifestEntry.retentionClass h
    unfold ArtifactManifestEntry.readBack at hclass
    rw [if_pos hempty, hempty] at hclass
    have hlit : "session_lifetime" = "" := hclass
    exact absurd hlit (by decide)
  · unfold ArtifactManifestEntry.readBack
    rw [if_neg h]

theorem get?_updateEntry {ν : Type} (d : Dict String ν) (key key' : String)
    (f : ν → ν) :
    (updateEntry d key f).get? key'
      = if key' = key then (d.get? key).map f else d.get? key' := by
  unfold updateEntry
  cases hd : d.get? key with
  | none =>
    by_cases h : key' = key
    · rw [if_pos h, h]
      exact hd
    · rw [if_neg h]
  | some value =>
    show (d.insert key (f value)).get? key' = _
    rw [Dict.get?_insert]
    rfl

-- ======== the manifest

/-- A manifest that keeps its entries under their references, with
metadata JSON can hold. -/
structure KeyedManifest (d : Dict String ArtifactManifestEntry) : Prop where
  keyed : ∀ ref e, d.get? ref = some e → e.artifactRef = ref
  json : ∀ ref e, d.get? ref = some e → fieldsJson e.metadata = true

variable {d : Dict String ArtifactManifestEntry}

theorem KeyedManifest.map_values (h : KeyedManifest d) :
    d.values.map ArtifactManifestEntry.artifactRef = d.keys := by
  unfold Dict.values Dict.keys
  rw [List.map_map]
  refine List.map_congr_left fun e he => ?_
  exact h.keyed e.1 e.2 (Dict.get?_eq_some_iff.2 he)

/-- Writing such a manifest succeeds, and reading it gives each entry
back. -/
theorem KeyedManifest.write (h : KeyedManifest d) (host : Host)
    (s : FileTranscriptStore) (sessionId : String) :
    ∃ document, (∀ outcome, s.writeArtifactManifest host sessionId d outcome
        = ({ s with manifests := s.manifests.insert sessionId document },
          outcome))
      ∧ ∀ s' : FileTranscriptStore,
        s'.manifests.get? sessionId = some document →
        ∀ ref, (s'.readArtifactManifest sessionId).get? ref
          = (d.get? ref).map ArtifactManifestEntry.readBack := by
  generalize hsorted : (d.values.insertionSort fun a b =>
    a.artifactRef ≤ b.artifactRef) = sorted
  have hperm : sorted.Perm d.values := by
    rw [← hsorted]
    exact List.perm_insertionSort _ _
  have hmem : ∀ e ∈ sorted, d.get? e.artifactRef = some e := by
    intro e he
    obtain ⟨ref, href⟩ := Dict.mem_values_iff.1 (hperm.mem_iff.1 he)
    rw [h.keyed ref e href]
    exact href
  have hread : ∃ vs, jsonDumpsItems host.keyText true
      (sorted.map serializeArtifactManifestEntry) = some vs
      ∧ vs.filterMap deserializeArtifactManifestEntry
        = sorted.map ArtifactManifestEntry.readBack := by
    have hjson : ∀ e ∈ sorted, fieldsJson e.metadata = true :=
      fun e he => h.json _ e (hmem e he)
    clear hsorted hperm hmem
    induction sorted with
    | nil => exact ⟨[], rfl, rfl⟩
    | cons e es ih =>
      have hback : ∃ v, jsonDumps host.keyText true
          (serializeArtifactManifestEntry e) = some v
          ∧ deserializeArtifactManifestEntry v = some e.readBack :=
        manifestEntry_roundTrip (hjson e (List.mem_cons_self ..))
      obtain ⟨v, hv, hve⟩ := hback
      obtain ⟨vs, hvs, hvses⟩ := ih fun e' he' =>
        hjson e' (List.mem_cons_of_mem _ he')
      refine ⟨v :: vs, ?_, ?_⟩
      · rw [List.map_cons, jsonDumpsItems, hv, hvs]
        rfl
      · rw [List.filterMap_cons_some hve, hvses, List.map_cons]
  obtain ⟨vs, hvs, hentries⟩ := hread
  refine ⟨.list vs, fun outcome => ?_, fun s' hs' ref => ?_⟩
  · have hdumps : jsonDumps host.keyText true
        (.list (sorted.map serializeArtifactManifestEntry))
        = some (.list vs) := by
      rw [jsonDumps, hvs]
      rfl
    unfold FileTranscriptStore.writeArtifactManifest
    rw [hsorted]
    simp only [hdumps]
  · have hnodup : ((sorted.map ArtifactManifestEntry.readBack).map
        ArtifactManifestEntry.artifactRef).Nodup := by
      rw [List.map_map]
      have hcomp : ArtifactManifestEntry.artifactRef
          ∘ ArtifactManifestEntry.readBack
          = ArtifactManifestEntry.artifactRef := rfl
      rw [hcomp, (hperm.map _).nodup_iff, h.map_values]
      exact Dict.nodup_keys d
    unfold FileTranscriptStore.readArtifactManifest
    rw [hs']
    show ((vs.filterMap deserializeArtifactManifestEntry).foldl
      (fun manifest entry => manifest.insert entry.artifactRef entry)
      Dict.empty).get? ref = _
    rw [hentries]
    refine Option.ext fun e => ?_
    rw [Dict.get?_foldl_insert hnodup, Option.map_eq_some_iff]
    refine ⟨fun hfound => ?_, fun hfound => ?_⟩
    · rcases hfound with ⟨e', he', href, rfl⟩ | ⟨-, hnone⟩
      · obtain ⟨e, he, rfl⟩ := List.mem_map.1 he'
        refine ⟨e, ?_, rfl⟩
        rw [← href]
        exact hmem e he
      · cases hnone
    · obtain ⟨e', he', rfl⟩ := hfound
      refine Or.inl ⟨e'.readBack, List.mem_map_of_mem ?_, ?_, rfl⟩
      · exact hperm.mem_iff.2 (Dict.mem_values_iff.2 ⟨ref, he'⟩)
      · exact h.keyed ref e' he'

theorem KeyedManifest.insert (h : KeyedManifest d) {ref : String}
    {entry : ArtifactManifestEntry} (href : entry.artifactRef = ref)
    (hjson : fieldsJson entry.metadata = true) :
    KeyedManifest (d.insert ref entry) := by
  refine ⟨fun ref' e he => ?_, fun ref' e he => ?_⟩
  · rw [Dict.get?_insert] at he
    split at he
    · next heq =>
      cases he
      rw [href, heq]
    · exact h.keyed ref' e he
  · rw [Dict.get?_insert] at he
    split at he
    · cases he
      exact hjson
    · exact h.json ref' e he

theorem KeyedManifest.filter (h : KeyedManifest d)
    (p : String → ArtifactManifestEntry → Bool) :
    KeyedManifest (d.filter p) := by
  refine ⟨fun ref e he => ?_, fun ref e he => ?_⟩
  · exact h.keyed ref e (Dict.get?_filter_eq_some.1 he).1
  · exact h.json ref e (Dict.get?_filter_eq_some.1 he).1

theorem readArtifactManifest_congr {s s' : FileTranscriptStore}
    {sessionId : String}
    (h : s'.manifests.get? sessionId = s.manifests.get? sessionId) :
    s'.readArtifactManifest sessionId = s.readArtifactManifest sessionId := by
  unfold FileTranscriptStore.readArtifactManifest
  rw [h]

-- ======== the relation

/-- What the files hold of what the memory store holds. -/
structure Related (m : InMemoryTranscriptStore) (f : FileTranscriptStore) :
    Prop where
  entries : ∀ sessionId, (f.lines sessionId).mapM deserializeEntry
    = .ok (m.entries sessionId)
  metadata : ∀ sessionId, f.loadSessionMetadata sessionId
    = m.metadata.get? sessionId
  manifest : ∀ sessionId ref, (f.readArtifactManifest sessionId).get? ref
    = ((m.manifest sessionId).get? ref).map ArtifactManifestEntry.readBack
  payloads : ∀ sessionId ref, f.payloads.get? (sessionId, ref)
    = (m.payloads sessionId).get? ref
  keyed : ∀ sessionId, KeyedManifest (m.manifest sessionId)
  held : ∀ sessionId ref e, (m.manifest sessionId).get? ref = some e →
    ∃ v, (m.payloads sessionId).get? ref = some v ∧ isJson (ofVal v) = true

theorem Related.start :
    Related InMemoryTranscriptStore.empty FileTranscriptStore.empty where
  entries _ := rfl
  metadata _ := rfl
  manifest _ _ := rfl
  payloads _ _ := rfl
  keyed _ := by
    refine ⟨fun ref e h => ?_, fun ref e h => ?_⟩
    · cases h
    · cases h
  held _ _ _ h := by cases h

section Related

variable {host : Host} {m : InMemoryTranscriptStore}
  {f : FileTranscriptStore}

theorem Related.keyedFile (h : Related m f) (sessionId : String) :
    KeyedManifest (f.readArtifactManifest sessionId) := by
  refine ⟨fun ref e he => ?_, fun ref e he => ?_⟩
  · rw [h.manifest, Option.map_eq_some_iff] at he
    obtain ⟨e', he', rfl⟩ := he
    exact (h.keyed sessionId).keyed ref e' he'
  · rw [h.manifest, Option.map_eq_some_iff] at he
    obtain ⟨e', he', rfl⟩ := he
    exact (h.keyed sessionId).json ref e' he'

theorem Related.contains (h : Related m f) (sessionId : String) :
    (f.readArtifactManifest sessionId).contains
      = (m.manifest sessionId).contains := by
  funext ref
  unfold Dict.contains
  rw [h.manifest, Option.isSome_map]

theorem Related.keys (h : Related m f) (sessionId : String) :
    (f.readArtifactManifest sessionId).keys.Perm
      (m.manifest sessionId).keys := by
  refine (List.perm_ext_iff_of_nodup (Dict.nodup_keys _)
    (Dict.nodup_keys _)).2 fun ref => ?_
  rw [← Dict.contains_iff, ← Dict.contains_iff, h.contains]

-- =========== each call

theorem Related.append (host : Host) (h : Related m f) {entry : TranscriptEntry}
    (hjson : messageJson entry.message = true) :
    ∃ f', f.append host entry = (f', .done)
      ∧ Related { m with
          sessions := m.sessions.insert entry.sessionId
            (m.entries entry.sessionId ++ [entry]) } f' := by
  have hback : ∃ v, jsonDumps host.keyText false (serializeEntry entry)
      = some v ∧ deserializeEntry v = .ok entry := entry_roundTrip hjson
  obtain ⟨line, hline, hread⟩ := hback
  unfold FileTranscriptStore.append
  rw [hline]
  refine ⟨_, rfl, { h with entries := fun sessionId => ?_ }⟩
  unfold FileTranscriptStore.lines InMemoryTranscriptStore.entries
  rw [Dict.get?_insert, Dict.get?_insert]
  by_cases hid : sessionId = entry.sessionId
  · have hold : (f.lines entry.sessionId).mapM deserializeEntry
        = .ok (m.entries entry.sessionId) := h.entries entry.sessionId
    rw [if_pos hid, if_pos hid]
    show (f.lines entry.sessionId ++ [line]).mapM deserializeEntry
      = .ok (m.entries entry.sessionId ++ [entry])
    rw [List.mapM_append, hold, ok_bind, List.mapM_cons, hread]
    rfl
  · rw [if_neg hid, if_neg hid]
    exact h.entries sessionId

theorem writeLines_of_json {entries : List TranscriptEntry}
    (hjson : ∀ e ∈ entries, messageJson e.message = true) :
    ∃ lines, FileTranscriptStore.writeLines host entries = (lines, true)
      ∧ lines.mapM deserializeEntry = .ok entries := by
  induction entries with
  | nil => exact ⟨[], rfl, rfl⟩
  | cons e es ih =>
    have hback : ∃ v, jsonDumps host.keyText false (serializeEntry e)
        = some v ∧ deserializeEntry v = .ok e :=
      entry_roundTrip (hjson e (List.mem_cons_self ..))
    obtain ⟨line, hline, hread⟩ := hback
    obtain ⟨lines, hlines, hreads⟩ :=
      ih fun e' he' => hjson e' (List.mem_cons_of_mem _ he')
    refine ⟨line :: lines, ?_, ?_⟩
    · rw [FileTranscriptStore.writeLines, hline, hlines]
    · rw [List.mapM_cons, hread, hreads]
      rfl

theorem Related.replace (host : Host) (h : Related m f) {session : TranscriptSession}
    (hjson : ∀ e ∈ session.entries, messageJson e.message = true) :
    ∃ f', f.replace host session = (f', .done)
      ∧ Related { m with
          sessions := m.sessions.insert session.sessionId session.entries }
          f' := by
  have hback : ∃ lines, FileTranscriptStore.writeLines host session.entries
      = (lines, true) ∧ lines.mapM deserializeEntry = .ok session.entries :=
    writeLines_of_json hjson
  obtain ⟨lines, hlines, hreads⟩ := hback
  unfold FileTranscriptStore.replace
  rw [hlines]
  refine ⟨_, rfl, { h with entries := fun sessionId => ?_ }⟩
  unfold FileTranscriptStore.lines InMemoryTranscriptStore.entries
  rw [Dict.get?_insert, Dict.get?_insert]
  by_cases hid : sessionId = session.sessionId
  · rw [if_pos hid, if_pos hid]
    exact hreads
  · rw [if_neg hid, if_neg hid]
    exact h.entries sessionId

theorem Related.load (h : Related m f) (sessionId : String) :
    f.load sessionId = .ok ⟨sessionId, m.entries sessionId⟩ := by
  unfold FileTranscriptStore.load
  rw [h.entries]
  rfl

theorem Related.saveSessionMetadata (host : Host) (h : Related m f)
    (sessionId : String) {metadata : Fields} (hjson : fieldsJson metadata = true) :
    ∃ f', f.saveSessionMetadata host sessionId metadata = (f', .done)
      ∧ Related { m with
          metadata := m.metadata.insert sessionId (strKeys metadata) } f' := by
  have hback : jsonDumps host.keyText true (ofVal (.dict metadata))
      = some (.dict metadata) := dumps_fields hjson
  unfold FileTranscriptStore.saveSessionMetadata
  rw [strKeys_of_json hjson, hback]
  refine ⟨_, rfl, { h with metadata := fun sessionId' => ?_ }⟩
  unfold FileTranscriptStore.loadSessionMetadata
  rw [Dict.get?_insert, Dict.get?_insert]
  by_cases hid : sessionId' = sessionId
  · rw [if_pos hid, if_pos hid]
    exact congrArg some (strKeys_of_json hjson)
  · rw [if_neg hid, if_neg hid]
    exact h.metadata sessionId'

theorem json_entryMetadata {metadata : Option Fields}
    (h : ∀ fields, metadata = some fields → fieldsJson fields = true) :
    fieldsJson (strKeys (metadata.getD [])) = true := by
  cases metadata with
  | none => rfl
  | some fields =>
    rw [Option.getD_some, strKeys_of_json (h fields rfl)]
    exact h fields rfl

theorem Related.persistArtifact (h : Related m f) {r : PersistArtifact}
    (hjson : ∀ fields, r.metadata = some fields → fieldsJson fields = true) :
    (f.persistArtifact host r).2 = (m.persistArtifact host r).2
      ∧ Related (m.persistArtifact host r).1
          (f.persistArtifact host r).1 := by
  unfold FileTranscriptStore.persistArtifact
    InMemoryTranscriptStore.persistArtifact
  cases hcopy : jsonDumps host.keyText true r.payload with
  | none => exact ⟨rfl, h⟩
  | some payloadCopy =>
    simp only [h.contains]
    cases hdraw : drawRef (m.manifest r.sessionId).contains r.kind
        (host.artifactDigest payloadCopy)
        (artifactRef r.kind (host.artifactDigest payloadCopy) none)
        r.draws with
    | none => exact ⟨rfl, h⟩
    | some ref =>
      have hagain : jsonDumps host.keyText true (ofVal payloadCopy)
          = some payloadCopy := jsonDumps_jsonDumps hcopy
      simp only [hagain]
      generalize hentry : r.entry ref (host.artifactDigest payloadCopy)
        = entry
      have href : entry.artifactRef = ref := by
        rw [← hentry]
        rfl
      have hmetadata : fieldsJson entry.metadata = true := by
        rw [← hentry]
        exact json_entryMetadata hjson
      have hwrite := ((h.keyedFile r.sessionId).insert href hmetadata).write
        host { f with
          payloads := f.payloads.insert (r.sessionId, ref) payloadCopy }
        r.sessionId
      obtain ⟨document, hdocument, hread⟩ := hwrite
      rw [hdocument]
      refine ⟨rfl, ⟨h.entries, h.metadata, fun sessionId ref' => ?_,
        fun sessionId ref' => ?_, fun sessionId => ?_,
        fun sessionId ref' e he => ?_⟩⟩
      · unfold InMemoryTranscriptStore.manifest
        rw [Dict.get?_insert]
        by_cases hid : sessionId = r.sessionId
        · rw [if_pos hid, hid, Option.getD_some,
            hread _ (Dict.get?_insert_self ..), Dict.get?_insert,
            Dict.get?_insert, h.manifest]
          by_cases hr : ref' = ref
          · rw [if_pos hr, if_pos hr]
          · rw [if_neg hr, if_neg hr, Option.map_map]
            congr 1
            funext e
            exact readBack_readBack e
        · rw [if_neg hid, readArtifactManifest_congr
            (Dict.get?_insert_of_ne _ _ hid)]
          exact h.manifest sessionId ref'
      · unfold InMemoryTranscriptStore.payloads
        rw [Dict.get?_insert, Dict.get?_insert]
        by_cases hid : sessionId = r.sessionId
        · rw [if_pos hid, Option.getD_some, Dict.get?_insert, hid]
          by_cases hr : ref' = ref
          · rw [if_pos hr, if_pos (by rw [hr])]
          · rw [if_neg hr, if_neg (fun heq => hr (Prod.mk.inj heq).2)]
            exact h.payloads r.sessionId ref'
        · rw [if_neg hid, if_neg (fun heq => hid (Prod.mk.inj heq).1)]
          exact h.payloads sessionId ref'
      · unfold InMemoryTranscriptStore.manifest
        rw [Dict.get?_insert]
        by_cases hid : sessionId = r.sessionId
        · rw [if_pos hid, Option.getD_some]
          exact (h.keyed r.sessionId).insert href hmetadata
        · rw [if_neg hid]
          exact h.keyed sessionId
      · unfold InMemoryTranscriptStore.manifest at he
        unfold InMemoryTranscriptStore.payloads
        rw [Dict.get?_insert] at he ⊢
        by_cases hid : sessionId = r.sessionId
        · rw [if_pos hid, Option.getD_some, Dict.get?_insert] at he ⊢
          by_cases hr : ref' = ref
          · rw [if_pos hr]
            exact ⟨payloadCopy, rfl, isJson_of_jsonDumps hcopy⟩
          · rw [if_neg hr] at he ⊢
            exact h.held r.sessionId ref' e he
        · rw [if_neg hid] at he ⊢
          exact h.held sessionId ref' e he

/-- Both stores list the same artifacts, the file store as it reads
them. -/
theorem Related.listArtifacts (h : Related m f) (sessionId : String) :
    f.listArtifacts sessionId
      = (m.listArtifacts sessionId).map ArtifactManifestEntry.readBack := by
  unfold FileTranscriptStore.listArtifacts
    InMemoryTranscriptStore.listArtifacts
  rw [sortedRefs_perm (h.keys sessionId), List.map_filterMap]
  refine List.filterMap_congr fun ref _ => ?_
  exact h.manifest sessionId ref

variable {sessionId : String}

theorem mem_listArtifacts {e : ArtifactManifestEntry} :
    e ∈ m.listArtifacts sessionId
      ↔ ∃ ref, (m.manifest sessionId).get? ref = some e := by
  unfold InMemoryTranscriptStore.listArtifacts sortedRefs
  rw [List.mem_filterMap]
  refine ⟨fun hmem => ?_, fun hmem => ?_⟩
  · obtain ⟨ref, -, href⟩ := hmem
    exact ⟨ref, href⟩
  · obtain ⟨ref, href⟩ := hmem
    refine ⟨ref, ?_, href⟩
    rw [List.mem_insertionSort]
    exact Dict.mem_keys_iff.2 ⟨e, href⟩

/-- What is left of a session's entries after a purge of it. -/
theorem getD_updateEntry_filter {ν : Type} (d : Dict String (Dict String ν))
    (sessionId sessionId' : String) (p : String → ν → Bool) :
    ((updateEntry d sessionId fun inner => inner.filter p).get?
        sessionId').getD .empty
      = if sessionId' = sessionId
        then ((d.get? sessionId).getD .empty).filter p
        else (d.get? sessionId').getD .empty := by
  rw [get?_updateEntry]
  by_cases hid : sessionId' = sessionId
  · rw [if_pos hid, if_pos hid]
    cases d.get? sessionId with
    | none => rfl
    | some inner => rfl
  · rw [if_neg hid, if_neg hid]

theorem Related.purgeUnreferencedArtifacts (h : Related m f)
    (sessionId : String) :
    (f.purgeUnreferencedArtifacts host sessionId).2
        = (m.purgeUnreferencedArtifacts sessionId).2
      ∧ Related (m.purgeUnreferencedArtifacts sessionId).1
          (f.purgeUnreferencedArtifacts host sessionId).1 := by
  unfold FileTranscriptStore.purgeUnreferencedArtifacts
  rw [h.load]
  simp only [h.metadata]
  generalize hremoved : (f.readArtifactManifest sessionId).keys.filter
    (· ∉ referencedArtifactRefs (m.entries sessionId)
      (m.metadata.get? sessionId)) = removed
  have hperm : removed.Perm (m.unreferenced sessionId) := by
    rw [← hremoved]
    exact (h.keys sessionId).filter _
  have hwrite := ((h.keyedFile sessionId).filter
    fun ref _ => ref ∉ removed).write host { f with
      payloads := f.payloads.filter fun key _ =>
        ¬ (key.1 = sessionId ∧ key.2 ∈ removed) } sessionId
  obtain ⟨document, hdocument, hread⟩ := hwrite
  rw [hdocument]
  unfold InMemoryTranscriptStore.purgeUnreferencedArtifacts
  refine ⟨congrArg Outcome.removed (sortedRefs_perm hperm),
    ⟨h.entries, h.metadata, fun id ref => ?_, fun id ref => ?_, fun id => ?_,
      fun id ref e he => ?_⟩⟩
  · unfold InMemoryTranscriptStore.manifest
    rw [getD_updateEntry_filter]
    by_cases hid : id = sessionId
    · rw [if_pos hid, hid, hread _ (Dict.get?_insert_self ..),
        Dict.get?_filter, Dict.get?_filter, h.manifest]
      show _ = (Option.filter _ ((m.manifest sessionId).get? ref)).map _
      cases (m.manifest sessionId).get? ref with
      | none => rfl
      | some e =>
        rw [Option.map_some, Option.filter_some, Option.filter_some]
        by_cases hmem : ref ∈ removed
        · rw [if_neg (by simpa using hmem),
            if_neg (by simpa using hperm.mem_iff.1 hmem)]
        · rw [if_pos (by simpa using hmem), if_pos (by
            simpa using fun hin => hmem (hperm.mem_iff.2 hin))]
          exact congrArg some (readBack_readBack e)
    · rw [if_neg hid, readArtifactManifest_congr
        (Dict.get?_insert_of_ne _ _ hid)]
      exact h.manifest id ref
  · unfold InMemoryTranscriptStore.payloads
    rw [getD_updateEntry_filter, Dict.get?_filter, h.payloads]
    by_cases hid : id = sessionId
    · rw [if_pos hid, hid, Dict.get?_filter]
      refine congrArg (fun p => Option.filter p _) ?_
      funext _
      simp [hperm.mem_iff]
    · rw [if_neg hid]
      show Option.filter _ ((m.payloads id).get? ref)
        = (m.payloads id).get? ref
      cases (m.payloads id).get? ref with
      | none => rfl
      | some v =>
        rw [Option.filter_some, if_pos (by simp [hid])]
  · unfold InMemoryTranscriptStore.manifest
    rw [getD_updateEntry_filter]
    split
    · exact (h.keyed sessionId).filter _
    · exact h.keyed id
  · unfold InMemoryTranscriptStore.manifest at he
    unfold InMemoryTranscriptStore.payloads
    rw [getD_updateEntry_filter] at he ⊢
    by_cases hid : id = sessionId
    · rw [if_pos hid] at he ⊢
      obtain ⟨hold, hkept⟩ := Dict.get?_filter_eq_some.1 he
      obtain ⟨v, hv, hjson⟩ := h.held sessionId ref e hold
      exact ⟨v, Dict.get?_filter_eq_some.2 ⟨hv, hkept⟩, hjson⟩
    · rw [if_neg hid] at he ⊢
      exact h.held id ref e he

-- ============== a step

/-- What the codec needs of a call: names that are names of files, and
JSON for what goes into a message, the metadata of a session or of an
artifact. -/
def Portable (host : Host) (call : Call) : Prop :=
  call.names.all host.plain = true ∧
    match call with
    | .append entry => messageJson entry.message = true
    | .replace session => ∀ e ∈ session.entries, messageJson e.message = true
    | .saveSessionMetadata _ metadata => fieldsJson metadata = true
    | .persistArtifact r =>
      ∀ fields, r.metadata = some fields → fieldsJson fields = true
    | _ => True

/-- Whether a call reads back only what both stores keep alike: no `null`
artifact, and no empty retention class. -/
def Faithful (m : InMemoryTranscriptStore) : Call → Prop
  | .loadArtifact sessionId ref =>
    ∀ e, (m.manifest sessionId).get? ref = some e →
      (m.payloads sessionId).get? ref ≠ some .none ∧ e.retentionClass ≠ ""
  | .listArtifacts sessionId =>
    ∀ ref e, (m.manifest sessionId).get? ref = some e →
      e.retentionClass ≠ ""
  | _ => True

theorem Related.handle (h : Related m f) {call : Call}
    (hcall : Portable host call) :
    Related (m.handle host call).1 (f.handle host call).1 := by
  obtain ⟨hplain, hjson⟩ := hcall
  unfold FileTranscriptStore.handle
  rw [if_pos hplain]
  unfold FileTranscriptStore.perform InMemoryTranscriptStore.handle
  cases call with
  | append entry =>
    obtain ⟨f', hf', hrel⟩ := h.append host hjson
    simp only [hf']
    exact hrel
  | load sessionId =>
    simp only [h.load]
    exact h
  | replace session =>
    obtain ⟨f', hf', hrel⟩ := h.replace host hjson
    simp only [hf']
    exact hrel
  | loadSessionMetadata sessionId => exact h
  | saveSessionMetadata sessionId metadata =>
    obtain ⟨f', hf', hrel⟩ := h.saveSessionMetadata host sessionId hjson
    simp only [hf']
    exact hrel
  | persistArtifact r => exact (h.persistArtifact hjson).2
  | purgeUnreferencedArtifacts sessionId =>
    exact (h.purgeUnreferencedArtifacts sessionId).2
  | _ => exact h

theorem loadArtifact_null {ref : String}
    (hnull : (m.payloads sessionId).get? ref = some .none) :
    m.loadArtifact host sessionId ref = .artifact none := by
  unfold InMemoryTranscriptStore.loadArtifact
  cases (m.manifest sessionId).get? ref with
  | none => rfl
  | some e => simp only [hnull]

theorem loadArtifact_of_json {ref : String} {e : ArtifactManifestEntry}
    {v : PyVal} (hentry : (m.manifest sessionId).get? ref = some e)
    (hv : (m.payloads sessionId).get? ref = some v) (hnull : v ≠ .none)
    (hjson : isJson (ofVal v) = true) :
    m.loadArtifact host sessionId ref = .artifact (some ⟨e, ofVal v⟩) := by
  have hcopy : jsonDumps host.keyText true (ofVal v) = some v :=
    jsonDumps_ofVal hjson
  unfold InMemoryTranscriptStore.loadArtifact
  simp only [hentry, hv]
  cases v with
  | none => exact absurd rfl hnull
  | _ => simp only [hcopy]

/-- Both stores load the same artifact, unless its payload is `null` or its
retention class empty. -/
theorem Related.loadArtifact_iff (h : Related m f) (sessionId ref : String) :
    .artifact (f.loadArtifact sessionId ref)
        = m.loadArtifact host sessionId ref
      ↔ Faithful m (.loadArtifact sessionId ref) := by
  have hfile : f.loadArtifact sessionId ref
      = ((m.manifest sessionId).get? ref).bind fun e =>
        ((m.payloads sessionId).get? ref).map fun v =>
          ⟨e.readBack, ofVal v⟩ := by
    unfold FileTranscriptStore.loadArtifact
    rw [h.manifest, h.payloads]
    cases (m.manifest sessionId).get? ref with
    | none => rfl
    | some e =>
      cases (m.payloads sessionId).get? ref with
      | none => rfl
      | some v => rfl
  rw [hfile]
  unfold Faithful
  cases hentry : (m.manifest sessionId).get? ref with
  | none =>
    refine iff_of_true ?_ fun e he => absurd (hentry.symm.trans he) (by simp)
    unfold InMemoryTranscriptStore.loadArtifact
    simp only [hentry]
    rfl
  | some e =>
    obtain ⟨v, hv, hjson⟩ := h.held sessionId ref e hentry
    rw [hv, Option.bind_some, Option.map_some]
    by_cases hnull : v = .none
    · rw [hnull] at hv
      rw [loadArtifact_null hv]
      refine iff_of_false (fun heq => by cases heq) fun hall => ?_
      exact (hall e hentry).1 hv
    · rw [loadArtifact_of_json hentry hv hnull hjson]
      refine ⟨fun heq e' he' => ?_, fun hall => ?_⟩
      · rw [hentry] at he'
        cases he'
        have hloaded := Option.some.inj (Outcome.artifact.inj heq)
        refine ⟨fun hn => hnull ?_, ?_⟩
        · rw [hv] at hn
          exact Option.some.inj hn
        · exact readBack_eq_self.1
            (congrArg TranscriptArtifact.entry hloaded)
      · rw [readBack_eq_self.2 (hall e hentry).2]

/-- What the two stores return to a call is the same exactly when the call
is faithful. -/
theorem Related.handle_eq_iff (h : Related m f) {call : Call}
    (hcall : Portable host call) :
    (f.handle host call).2 = (m.handle host call).2 ↔ Faithful m call := by
  obtain ⟨hplain, hjson⟩ := hcall
  unfold FileTranscriptStore.handle
  rw [if_pos hplain]
  unfold FileTranscriptStore.perform InMemoryTranscriptStore.handle
  cases call with
  | append entry =>
    obtain ⟨f', hf', -⟩ := h.append host hjson
    simp only [hf']
    exact iff_of_true trivial trivial
  | load sessionId =>
    simp only [h.load]
    exact iff_of_true trivial trivial
  | replace session =>
    obtain ⟨f', hf', -⟩ := h.replace host hjson
    simp only [hf']
    exact iff_of_true trivial trivial
  | loadSessionMetadata sessionId =>
    simp only [h.metadata]
    exact iff_of_true trivial trivial
  | saveSessionMetadata sessionId metadata =>
    obtain ⟨f', hf', -⟩ := h.saveSessionMetadata host sessionId hjson
    simp only [hf']
    exact iff_of_true trivial trivial
  | persistArtifact r =>
    exact iff_of_true (h.persistArtifact hjson).1 trivial
  | loadArtifact sessionId ref => exact h.loadArtifact_iff sessionId ref
  | listArtifacts sessionId =>
    simp only [h.listArtifacts]
    refine ⟨fun heq ref e he => ?_, fun hall => ?_⟩
    · have hlist := Outcome.manifestEntries.inj heq
      have hself := List.map_inj_left.1
        (hlist.trans (List.map_id _).symm) e
        (mem_listArtifacts.2 ⟨ref, he⟩)
      exact readBack_eq_self.1 hself
    · refine congrArg Outcome.manifestEntries ?_
      refine (List.map_congr_left fun e he => ?_).trans (List.map_id _)
      obtain ⟨ref, href⟩ := mem_listArtifacts.1 he
      exact readBack_eq_self.2 (hall ref e href)
  | purgeUnreferencedArtifacts sessionId =>
    exact iff_of_true (h.purgeUnreferencedArtifacts sessionId).1 trivial

end Related

-- =============== a run

/-- The two stores side by side, given the same calls. -/
def storePair (host : Host) :
    System (InMemoryTranscriptStore × FileTranscriptStore) Call where
  step s call := some ((s.1.handle host call).1, (s.2.handle host call).1)

/-- Two stores nothing has been given to yet. -/
def freshStores : InMemoryTranscriptStore × FileTranscriptStore :=
  (.empty, .empty)

/-- A written message is read as it was, and over every run of calls the
two stores return the same exactly when no call reads a `null` artifact or
an empty retention class back. -/
theorem stores_agree_iff (host : Host) :
    (∀ entry : TranscriptEntry, messageJson entry.message = true →
      ∃ line, jsonDumps host.keyText false (serializeEntry entry) = some line
        ∧ deserializeEntry line = .ok entry)
    ∧ ∀ calls : List Call, (∀ call ∈ calls, Portable host call) →
      ((∀ s call s', (storePair host).Takes freshStores calls s call s' →
          (s.2.handle host call).2 = (s.1.handle host call).2)
        ↔ ∀ s call s', (storePair host).Takes freshStores calls s call s' →
          Faithful s.1 call) := by
  refine ⟨fun entry h => entry_roundTrip h, fun calls hcalls => ?_⟩
  have hstep : ∀ s call s', (storePair host).Takes freshStores calls s call s'
      → ((s.2.handle host call).2 = (s.1.handle host call).2
        ↔ Faithful s.1 call) := by
    intro s call s' htake
    have hrelated : Related s.1 s.2 := by
      refine System.invariant_of_takes (I := fun s => Related s.1 s.2)
        (G := fun _ call => Portable host call) ?_ Related.start ?_
        htake.visits.1
      · intro u a u' hu hua ha
        cases hua
        exact hu.handle ha
      · intro u a u' hu
        obtain ⟨p, q, heq, -⟩ := hu
        exact hcalls a (heq ▸ List.mem_append_right _ (List.mem_cons_self ..))
    obtain ⟨p, q, heq, -⟩ := htake
    exact hrelated.handle_eq_iff
      (hcalls call (heq ▸ List.mem_append_right _ (List.mem_cons_self ..)))
  refine ⟨fun hall s call s' htake => ?_, fun hall s call s' htake => ?_⟩
  · exact (hstep s call s' htake).1 (hall s call s' htake)
  · exact (hstep s call s' htake).2 (hall s call s' htake)

-- ==== the null payload

/-- A host on which every name is the name of a file and every payload has
the digest of `null`. -/
def nullHost : Host where
  keyText _ := none
  artifactDigest _ :=
    "74234e98afe7498fb5daf1f36ac2d78acc339464f950703b8c019892f982b90b"
  plain _ := true
  elsewhere s _ := (s, .done)

/-- An artifact whose payload is `None`, at the first of the year 2025. -/
def nullRequest : PersistArtifact where
  sessionId := "s"
  turnId := some "t"
  kind := "result"
  payload := .scalar .none
  metadata := none
  retentionClass := "session_lifetime"
  now := ⟨⟨2025, 1, 1, 0, 0, 0, 0⟩, by decide⟩
  draws := []

/-- The reference the artifact gets. -/
def nullRef : String :=
  artifactRef "result" (nullHost.artifactDigest .none) none

def resultEntry : TranscriptEntry where
  sessionId := "s"
  turnId := some "t"
  message :=
    { messageId := "m"
      role := .user
      content := [.toolResult "u" (.mapping [(.str "ok",
        .scalar (.bool true))]) false]
      createdAt := nullRequest.now
      attachments := []
      metadata := [(.str "source", .none)] }
  createdAt := nullRequest.now

theorem stores_agree_resultEntry :
    (∃ line, jsonDumps nullHost.keyText false (serializeEntry resultEntry)
      = some line ∧ deserializeEntry line = .ok resultEntry)
    ∧ ∀ s call s', (storePair nullHost).Takes freshStores
        [.append resultEntry, .load "s"] s call s' →
        (s.2.handle nullHost call).2 = (s.1.handle nullHost call).2 := by
  have hjson : messageJson resultEntry.message = true := by decide
  refine ⟨(stores_agree_iff nullHost).1 resultEntry hjson,
    ((stores_agree_iff nullHost).2 [.append resultEntry, .load "s"]
      fun call hcall => ?_).2 fun s call s' htake => ?_⟩
  · rcases List.mem_cons.1 hcall with rfl | hcall
    · exact ⟨rfl, hjson⟩
    · rw [List.mem_singleton.1 hcall]
      exact ⟨rfl, trivial⟩
  · obtain ⟨p, q, heq, -⟩ := htake
    have hcall : call ∈ [Call.append resultEntry, .load "s"] :=
      heq ▸ List.mem_append_right _ (List.mem_cons_self ..)
    rcases List.mem_cons.1 hcall with rfl | hcall
    · trivial
    · rw [List.mem_singleton.1 hcall]
      trivial

/-- The memory store has no artifact where the file store has one whose
payload is `null`. -/
theorem stores_disagree_on_null :
    (∀ call ∈ [Call.persistArtifact nullRequest, .loadArtifact "s" nullRef],
      Portable nullHost call)
    ∧ ¬ ∀ s call s', (storePair nullHost).Takes freshStores
        [.persistArtifact nullRequest, .loadArtifact "s" nullRef] s call s' →
        (s.2.handle nullHost call).2 = (s.1.handle nullHost call).2 := by
  have hportable : ∀ call ∈ [Call.persistArtifact nullRequest,
      .loadArtifact "s" nullRef], Portable nullHost call := by
    intro call hcall
    rcases List.mem_cons.1 hcall with rfl | hcall
    · exact ⟨rfl, fun fields h => by cases h⟩
    · rw [List.mem_singleton.1 hcall]
      exact ⟨rfl, trivial⟩
  refine ⟨hportable, fun hall => ?_⟩
  have hrelated := Related.start.handle
    (hportable _ (List.mem_cons_self ..))
  have hagree := hall _ (.loadArtifact "s" nullRef) _
    ⟨[.persistArtifact nullRequest], [], rfl, rfl, rfl⟩
  have hfaithful := (hrelated.handle_eq_iff
    (hportable _ (List.mem_cons_of_mem _ (List.mem_cons_self ..)))).1 hagree
  exact (hfaithful _ rfl).1 rfl

end WeaveRuntime.Transcripts
