/-
Team records and their JSON documents.

A team, its members and the binding of a leader session are written by
`toDict` and read by `fromDict`. The document of a record is what
`json.load` makes of it; a metadata mapping that is kept in canonical
form comes back as it was, and so do the times.

What does not come back are the empty edges of the codec: an optional
text is stripped, and an empty one is read as absent; the schema version 0
is read as the current one. `readBack` is the record as the file gives it
back (`TeamRecord.fromDict_document`, `TeamMemberRecord.fromDict_document`),
and reading it back once more changes nothing.
-/
import WeaveRuntime.Transcripts.Documents

namespace WeaveRuntime.Teams

open Lib Python
open Jobs (Fields getField updateFields)
open Transcripts (updateFields_append)

-- =============== times

def timeText (t : Datetime) : List Char :=
  let f := t.fields
  pad 4 f.year ++ '-' :: (pad 2 f.month ++ '-' :: (pad 2 f.day ++ 'T' ::
    (pad 2 f.hour ++ ':' :: (pad 2 f.minute ++ ':' :: (pad 2 f.second
      ++ fractionText f.microsecond)))))

def utcIsoformat (t : Datetime) : String := String.ofList (timeText t ++ ['Z'])

/-- `_parse_utc_timestamp`: nothing where it raises, `none` inside where
there is no time. -/
def parseUtcTimestamp : PyVal → Option (Option Datetime)
  | .str text =>
    let normalized := stripChars text.toList
    if normalized = [] then some none
    else if normalized.getLast? = some 'Z' then
      (fromisoformat (String.ofList (normalized.dropLast
        ++ ['+', '0', '0', ':', '0', '0']))).map some
    else (fromisoformat (String.ofList normalized)).map some
  | _ => some none

theorem isoformat_eq (t : Datetime) :
    t.isoformat = String.ofList (timeText t
      ++ ['+', '0', '0', ':', '0', '0']) := by
  unfold Datetime.isoformat timeText
  simp only [List.append_assoc, List.cons_append]

theorem isPySpace_pad {k n : Nat} : ∀ c ∈ pad k n, isPySpace c = false := by
  have hdigit : ∀ d < 10, isPySpace (Nat.digitChar d) = false := by decide
  induction k generalizing n with
  | zero =>
    intro c hc
    cases hc
  | succ k ih =>
    intro c hc
    rw [pad, List.mem_append, List.mem_singleton] at hc
    rcases hc with hc | rfl
    · exact ih c hc
    · exact hdigit (n % 10) (by omega)

theorem isPySpace_timeText {t : Datetime} :
    ∀ c ∈ timeText t ++ ['Z'], isPySpace c = false := by
  intro c hc
  have hfraction : ∀ n, ∀ c ∈ fractionText n, isPySpace c = false := by
    intro n c hc
    unfold fractionText at hc
    split at hc
    · cases hc
    · rcases List.mem_cons.1 hc with rfl | hc
      · decide
      · exact isPySpace_pad c hc
  unfold timeText at hc
  simp only [List.mem_append, List.mem_cons, List.not_mem_nil,
    or_false] at hc
  rcases hc with (hc | rfl | hc | rfl | hc | rfl | hc | rfl | hc | rfl | hc
    | hc) | rfl
  · exact isPySpace_pad c hc
  · decide
  · exact isPySpace_pad c hc
  · decide
  · exact isPySpace_pad c hc
  · decide
  · exact isPySpace_pad c hc
  · decide
  · exact isPySpace_pad c hc
  · decide
  · exact isPySpace_pad c hc
  · exact hfraction _ c hc
  · decide

@[simp] theorem parseUtcTimestamp_utcIsoformat (t : Datetime) :
    parseUtcTimestamp (.str (utcIsoformat t)) = some (some t) := by
  have hstrip : stripChars (utcIsoformat t).toList = timeText t ++ ['Z'] := by
    unfold utcIsoformat
    rw [String.toList_ofList, stripChars_of_no_space isPySpace_timeText]
  unfold parseUtcTimestamp
  simp only [hstrip, List.append_eq_nil_iff, List.cons_ne_nil, and_false,
    if_false, List.getLast?_concat, if_true, List.dropLast_concat,
    ← isoformat_eq, fromisoformat_isoformat, Option.map_some]

-- ============= records

inductive TeamRole where
  | leader | teammate
  deriving DecidableEq, Repr

def TeamRole.value : TeamRole → String
  | .leader => "leader"
  | .teammate => "teammate"

def TeamRole.ofValue (text : String) : Option TeamRole :=
  [TeamRole.leader, .teammate].find? fun r => r.value = text

inductive TeamStatus where
  | active | deleted
  deriving DecidableEq, Repr

def TeamStatus.value : TeamStatus → String
  | .active => "active"
  | .deleted => "deleted"

def TeamStatus.ofValue (text : String) : Option TeamStatus :=
  [TeamStatus.active, .deleted].find? fun s => s.value = text

inductive TeamMemberStatus where
  | active | removed
  deriving DecidableEq, Repr

def TeamMemberStatus.value : TeamMemberStatus → String
  | .active => "active"
  | .removed => "removed"

def TeamMemberStatus.ofValue (text : String) : Option TeamMemberStatus :=
  [TeamMemberStatus.active, .removed].find? fun s => s.value = text

structure TeamRecord where
  teamId : String
  leaderSessionId : String
  leaderMemberId : String
  name : Option String
  status : TeamStatus
  createdAt : Datetime
  updatedAt : Datetime
  deletedAt : Option Datetime
  contextMetadata : Fields
  schemaVersion : Int

def TeamRecord.active (t : TeamRecord) : Bool := t.status = .active

structure TeamMemberRecord where
  teamId : String
  memberId : String
  name : String
  role : TeamRole
  status : TeamMemberStatus
  agentName : Option String
  sessionId : Option String
  createdAt : Datetime
  updatedAt : Datetime
  removedAt : Option Datetime
  executionDefaults : Fields
  metadata : Fields
  schemaVersion : Int

def TeamMemberRecord.active (m : TeamMemberRecord) : Bool :=
  m.status = .active

/-- `member.with_status(status)`, `removedAt` and `now` the two readings
of the clock. -/
def TeamMemberRecord.withStatus (m : TeamMemberRecord)
    (status : TeamMemberStatus) (removedAt now : Datetime) :
    TeamMemberRecord :=
  { m with
    status := status
    removedAt := if status = .removed then some removedAt else none
    updatedAt := now }

structure TeamLeaderBinding where
  leaderSessionId : String
  teamId : String
  createdAt : Datetime
  schemaVersion : Int

-- =========== documents

def optText : Option String → PyVal
  | none => .none
  | some s => .str s

def optTime : Option Datetime → PyVal
  | none => .none
  | some t => .str (utcIsoformat t)

def TeamRecord.toDict (t : TeamRecord) : Fields :=
  [(.str "schema_version", .int t.schemaVersion),
    (.str "team_id", .str t.teamId),
    (.str "leader_session_id", .str t.leaderSessionId),
    (.str "leader_member_id", .str t.leaderMemberId),
    (.str "name", optText t.name), (.str "status", .str t.status.value),
    (.str "created_at", .str (utcIsoformat t.createdAt)),
    (.str "updated_at", .str (utcIsoformat t.updatedAt)),
    (.str "deleted_at", optTime t.deletedAt),
    (.str "context_metadata", .dict t.contextMetadata)]

def TeamMemberRecord.toDict (m : TeamMemberRecord) : Fields :=
  [(.str "schema_version", .int m.schemaVersion),
    (.str "team_id", .str m.teamId), (.str "member_id", .str m.memberId),
    (.str "name", .str m.name), (.str "role", .str m.role.value),
    (.str "status", .str m.status.value),
    (.str "agent_name", optText m.agentName),
    (.str "session_id", optText m.sessionId),
    (.str "created_at", .str (utcIsoformat m.createdAt)),
    (.str "updated_at", .str (utcIsoformat m.updatedAt)),
    (.str "removed_at", optTime m.removedAt),
    (.str "execution_defaults", .dict m.executionDefaults),
    (.str "metadata", .dict m.metadata)]

def TeamLeaderBinding.toDict (b : TeamLeaderBinding) : Fields :=
  [(.str "schema_version", .int b.schemaVersion),
    (.str "leader_session_id", .str b.leaderSessionId),
    (.str "team_id", .str b.teamId),
    (.str "created_at", .str (utcIsoformat b.createdAt))]

def textOr (payload : Fields) (key fallback : String) : String :=
  pyStr (pyOr (getField payload key) (.str fallback))

def schemaVersionOf (payload : Fields) : Option Int :=
  pyInt (pyOr (getField payload "schema_version") (.int 1))

def coerceMapping : PyVal → Fields
  | .dict fields => updateFields [] (fields.map fun e => (.str e.1.text, e.2))
  | _ => []

def timeOrNow (payload : Fields) (key : String) (now : Datetime) :
    Option Datetime := do
  let parsed ← parseUtcTimestamp (getField payload key)
  return parsed.getD now

def TeamRecord.fromDict (now : Datetime) (payload : Fields) :
    Option TeamRecord := do
  let status ← TeamStatus.ofValue (textOr payload "status" "active")
  let schemaVersion ← schemaVersionOf payload
  let createdAt ← timeOrNow payload "created_at" now
  let updatedAt ← timeOrNow payload "updated_at" now
  let deletedAt ← parseUtcTimestamp (getField payload "deleted_at")
  return {
    schemaVersion, status, createdAt, updatedAt, deletedAt
    teamId := textOr payload "team_id" ""
    leaderSessionId := textOr payload "leader_session_id" ""
    leaderMemberId := textOr payload "leader_member_id" ""
    name := coerceOptionalString (getField payload "name")
    contextMetadata := coerceMapping (getField payload "context_metadata") }

def TeamMemberRecord.fromDict (now : Datetime) (payload : Fields) :
    Option TeamMemberRecord := do
  let schemaVersion ← schemaVersionOf payload
  let role ← TeamRole.ofValue (textOr payload "role" "teammate")
  let status ← TeamMemberStatus.ofValue (textOr payload "status" "active")
  let createdAt ← timeOrNow payload "created_at" now
  let updatedAt ← timeOrNow payload "updated_at" now
  let removedAt ← parseUtcTimestamp (getField payload "removed_at")
  return {
    schemaVersion, role, status, createdAt, updatedAt, removedAt
    teamId := textOr payload "team_id" ""
    memberId := textOr payload "member_id" ""
    name := textOr payload "name" ""
    agentName := coerceOptionalString (getField payload "agent_name")
    sessionId := coerceOptionalString (getField payload "session_id")
    executionDefaults :=
      coerceMapping (getField payload "execution_defaults")
    metadata := coerceMapping (getField payload "metadata") }

def TeamLeaderBinding.fromDict (now : Datetime) (payload : Fields) :
    Option TeamLeaderBinding := do
  let schemaVersion ← schemaVersionOf payload
  let createdAt ← timeOrNow payload "created_at" now
  return {
    schemaVersion, createdAt
    leaderSessionId := textOr payload "leader_session_id" ""
    teamId := textOr payload "team_id" "" }

-- ======= JSON metadata

/-- A mapping of JSON values, kept in canonical form: Python compares
mappings without looking at their order, and the files forget it. -/
def JsonFields (fields : Fields) : Prop :=
  (PyVal.dict fields).isJson = true
    ∧ (PyVal.dict fields).canon = .dict fields

theorem JsonFields.sorted {fields : Fields} (h : JsonFields fields) :
    SortedMap.Sorted fields := by
  have hcanon := h.2
  rw [PyVal.canon] at hcanon
  rw [← PyVal.dict.inj hcanon]
  exact SortedMap.sorted_ofList _

theorem coerceMapping_of_json {fields : Fields} (h : JsonFields fields) :
    coerceMapping (.dict fields) = fields := by
  have hkeys := isJsonFields_iff.1 h.1
  have hmap : (fields.map fun e => (PyKey.str e.1.text, e.2)) = fields := by
    refine (List.map_congr_left fun e he => ?_).trans (List.map_id _)
    exact Prod.ext (hkeys e he).1.symm rfl
  have hnodup : (fields.map Prod.fst).Nodup := by
    refine List.pairwise_map.2 (h.sorted.imp ?_)
    intro a b hab heq
    exact absurd (heq ▸ hab) (lt_irrefl _)
  show updateFields [] (fields.map fun e => (PyKey.str e.1.text, e.2)) = _
  rw [hmap]
  exact updateFields_append hnodup

def TeamRecord.Json (t : TeamRecord) : Prop := JsonFields t.contextMetadata

def TeamMemberRecord.Json (m : TeamMemberRecord) : Prop :=
  JsonFields m.executionDefaults ∧ JsonFields m.metadata

-- ======== reading back

def schemaReadBack (version : Int) : Int := if version = 0 then 1 else version

/-- The team as its document gives it back. -/
def TeamRecord.readBack (t : TeamRecord) : TeamRecord :=
  { t with
    name := coerceOptional t.name
    schemaVersion := schemaReadBack t.schemaVersion }

/-- The member as its document gives it back. -/
def TeamMemberRecord.readBack (m : TeamMemberRecord) : TeamMemberRecord :=
  { m with
    agentName := coerceOptional m.agentName
    sessionId := coerceOptional m.sessionId
    schemaVersion := schemaReadBack m.schemaVersion }

-- ==== a field's reading

section Reading

variable {fields : Fields} {key : String}

theorem getField_document (h : (fields.map Prod.fst).Nodup) (key : String) :
    getField (SortedMap.ofList (canonFields fields)) key
      = ((lookupKey fields key).map PyVal.canon).getD .none := by
  unfold getField
  rw [lookupKey_canon h]

theorem textOr_str {payload : Fields} {text fallback : String}
    (h : getField payload key = .str text) (hne : text ≠ "" ∨ fallback = "") :
    textOr payload key fallback = text := by
  unfold textOr
  rw [h, pyOr]
  by_cases hempty : text = ""
  · rcases hne with hne | rfl
    · exact absurd hempty hne
    · rw [hempty]
      rfl
  · rw [if_pos (by simpa [PyVal.truthy] using hempty)]
    rfl

theorem schemaVersionOf_int {payload : Fields} {version : Int}
    (h : getField payload "schema_version" = .int version) :
    schemaVersionOf payload = some (schemaReadBack version) := by
  unfold schemaVersionOf schemaReadBack
  rw [h, pyOr]
  by_cases hzero : version = 0
  · rw [if_pos hzero, hzero]
    rfl
  · rw [if_neg hzero, if_pos (by simpa [PyVal.truthy] using hzero)]
    rfl

theorem timeOrNow_utcIsoformat {payload : Fields} {t now : Datetime}
    (h : getField payload key = .str (utcIsoformat t)) :
    timeOrNow payload key now = some t := by
  unfold timeOrNow
  rw [h, parseUtcTimestamp_utcIsoformat]
  rfl

theorem parseUtcTimestamp_optTime (t : Option Datetime) :
    parseUtcTimestamp (optTime t) = some t := by
  cases t with
  | none => rfl
  | some t => exact parseUtcTimestamp_utcIsoformat t

theorem coerceOptionalString_optText (o : Option String) :
    coerceOptionalString (optText o) = coerceOptional o := by
  cases o <;> rfl

theorem canon_optText (o : Option String) : (optText o).canon = optText o := by
  cases o <;> rfl

theorem canon_optTime (t : Option Datetime) :
    (optTime t).canon = optTime t := by
  cases t <;> rfl

end Reading

theorem TeamRecord.nodup_toDict (t : TeamRecord) :
    (t.toDict.map Prod.fst).Nodup := by
  have hkeys : t.toDict.map Prod.fst
      = ["schema_version", "team_id", "leader_session_id",
        "leader_member_id", "name", "status", "created_at", "updated_at",
        "deleted_at", "context_metadata"].map PyKey.str := rfl
  rw [hkeys]
  decide

theorem TeamMemberRecord.nodup_toDict (m : TeamMemberRecord) :
    (m.toDict.map Prod.fst).Nodup := by
  have hkeys : m.toDict.map Prod.fst
      = ["schema_version", "team_id", "member_id", "name", "role", "status",
        "agent_name", "session_id", "created_at", "updated_at",
        "removed_at", "execution_defaults", "metadata"].map PyKey.str := rfl
  rw [hkeys]
  decide

theorem TeamLeaderBinding.nodup_toDict (b : TeamLeaderBinding) :
    (b.toDict.map Prod.fst).Nodup := by
  have hkeys : b.toDict.map Prod.fst
      = ["schema_version", "leader_session_id", "team_id",
        "created_at"].map PyKey.str := rfl
  rw [hkeys]
  decide

theorem TeamRecord.fromDict_document {t : TeamRecord} (h : t.Json)
    (now : Datetime) :
    TeamRecord.fromDict now (SortedMap.ofList (canonFields t.toDict))
      = some t.readBack := by
  generalize hdoc : SortedMap.ofList (canonFields t.toDict) = document
  have hget : ∀ key, getField document key
      = ((lookupKey t.toDict key).map PyVal.canon).getD .none := by
    intro key
    rw [← hdoc]
    exact getField_document t.nodup_toDict key
  have hstatus : textOr document "status" "active" = t.status.value :=
    textOr_str (hget "status") (Or.inl (by cases t.status <;> decide))
  have hparse : TeamStatus.ofValue t.status.value = some t.status := by
    cases t.status <;> rfl
  have hdeleted : getField document "deleted_at" = optTime t.deletedAt :=
    (hget "deleted_at").trans (canon_optTime _)
  have hname : getField document "name" = optText t.name :=
    (hget "name").trans (canon_optText _)
  have hmetadata : getField document "context_metadata"
      = .dict t.contextMetadata := (hget "context_metadata").trans h.2
  unfold TeamRecord.fromDict
  rw [hstatus, hparse, schemaVersionOf_int (hget "schema_version"),
    timeOrNow_utcIsoformat (hget "created_at"),
    timeOrNow_utcIsoformat (hget "updated_at"), hdeleted,
    parseUtcTimestamp_optTime, textOr_str (hget "team_id") (Or.inr rfl),
    textOr_str (hget "leader_session_id") (Or.inr rfl),
    textOr_str (hget "leader_member_id") (Or.inr rfl), hname,
    coerceOptionalString_optText, hmetadata, coerceMapping_of_json h]
  rfl

theorem TeamMemberRecord.fromDict_document {m : TeamMemberRecord}
    (h : m.Json) (now : Datetime) :
    TeamMemberRecord.fromDict now (SortedMap.ofList (canonFields m.toDict))
      = some m.readBack := by
  generalize hdoc : SortedMap.ofList (canonFields m.toDict) = document
  have hget : ∀ key, getField document key
      = ((lookupKey m.toDict key).map PyVal.canon).getD .none := by
    intro key
    rw [← hdoc]
    exact getField_document m.nodup_toDict key
  have hrole : textOr document "role" "teammate" = m.role.value :=
    textOr_str (hget "role") (Or.inl (by cases m.role <;> decide))
  have hparseRole : TeamRole.ofValue m.role.value = some m.role := by
    cases m.role <;> rfl
  have hstatus : textOr document "status" "active" = m.status.value :=
    textOr_str (hget "status") (Or.inl (by cases m.status <;> decide))
  have hparse : TeamMemberStatus.ofValue m.status.value = some m.status := by
    cases m.status <;> rfl
  have hremoved : getField document "removed_at" = optTime m.removedAt :=
    (hget "removed_at").trans (canon_optTime _)
  have hagent : getField document "agent_name" = optText m.agentName :=
    (hget "agent_name").trans (canon_optText _)
  have hsession : getField document "session_id" = optText m.sessionId :=
    (hget "session_id").trans (canon_optText _)
  have hdefaults : getField document "execution_defaults"
      = .dict m.executionDefaults := (hget "execution_defaults").trans h.1.2
  have hmetadata : getField document "metadata" = .dict m.metadata :=
    (hget "metadata").trans h.2.2
  unfold TeamMemberRecord.fromDict
  rw [schemaVersionOf_int (hget "schema_version"), hrole, hparseRole, hstatus,
    hparse, timeOrNow_utcIsoformat (hget "created_at"),
    timeOrNow_utcIsoformat (hget "updated_at"), hremoved,
    parseUtcTimestamp_optTime, textOr_str (hget "team_id") (Or.inr rfl),
    textOr_str (hget "member_id") (Or.inr rfl),
    textOr_str (hget "name") (Or.inr rfl), hagent, hsession,
    coerceOptionalString_optText, coerceOptionalString_optText, hdefaults,
    hmetadata, coerceMapping_of_json h.1, coerceMapping_of_json h.2]
  rfl

theorem TeamLeaderBinding.fromDict_document (b : TeamLeaderBinding)
    (now : Datetime) :
    ∃ read, TeamLeaderBinding.fromDict now
        (SortedMap.ofList (canonFields b.toDict)) = some read
      ∧ read.teamId = b.teamId := by
  generalize hdoc : SortedMap.ofList (canonFields b.toDict) = document
  have hget : ∀ key, getField document key
      = ((lookupKey b.toDict key).map PyVal.canon).getD .none := by
    intro key
    rw [← hdoc]
    exact getField_document b.nodup_toDict key
  unfold TeamLeaderBinding.fromDict
  rw [schemaVersionOf_int (hget "schema_version"),
    timeOrNow_utcIsoformat (hget "created_at"),
    textOr_str (hget "leader_session_id") (Or.inr rfl),
    textOr_str (hget "team_id") (Or.inr rfl)]
  exact ⟨_, rfl, rfl⟩

end WeaveRuntime.Teams
