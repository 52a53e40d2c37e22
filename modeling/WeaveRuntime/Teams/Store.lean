/-
The two team stores.

`InMemoryTeamStore` keeps the records it is given; `FileBackedTeamStore`
keeps their documents, one file per team, member and leader binding. The
ids are names of files, so the files are kept by the ids their paths are
made of: `teams/{team_id}/team.json`, `teams/{team_id}/members/{id}.json`,
`leaders/{leader_session_id}.json`.

`handle` gives each store one operation of `TeamStore` and its outcome;
`utc_now()` may be read twice in one operation (`Clock`). What
`json.dump` makes of a document that is no JSON value is a parameter of
the file store.
-/
import WeaveRuntime.Lib.Dict
import WeaveRuntime.Teams.Records
import Mathlib.Data.List.Sort

namespace WeaveRuntime.Teams

open Lib Python
open Jobs (Fields)

-- ========== operations

/-- The readings of the clock in one operation. -/
structure Clock where
  first : Datetime
  second : Datetime

inductive StoreCall where
  | loadTeam (teamId : String)
  | createTeam (team : TeamRecord) (leader : TeamMemberRecord)
  | saveTeam (team : TeamRecord)
  | activeTeamForLeaderSession (leaderSessionId : String)
  | deleteLeaderBinding (leaderSessionId : String)
  | saveMember (member : TeamMemberRecord)
  | loadMember (teamId memberId : String)
  | listMembers (teamId : String) (activeOnly includeLeader : Bool)
  | findMemberByName (teamId name : String)
  | tombstoneTeam (team : TeamRecord)
  | removeMember (teamId memberId : String)
  | purgeTeam (teamId : String)

/-- The exceptions of the stores, without their arguments. -/
inductive StoreError where
  | fileExists
  /-- `json.dump` raises -/
  | unserializable
  /-- `from_dict` raises -/
  | malformed
  deriving DecidableEq

inductive StoreOutcome where
  | done
  | team (team : Option TeamRecord)
  | member (member : Option TeamMemberRecord)
  | members (members : List TeamMemberRecord)
  | raised (error : StoreError)

def TeamRecord.tombstone (t : TeamRecord) (clock : Clock) : TeamRecord :=
  { t with
    status := .deleted
    deletedAt := some clock.first
    updatedAt := clock.second }

def newBinding (team : TeamRecord) (clock : Clock) : TeamLeaderBinding where
  leaderSessionId := team.leaderSessionId
  teamId := team.teamId
  createdAt := clock.first
  schemaVersion := 1

/-- The two filters of `list_members`. -/
def listed (activeOnly includeLeader : Bool) (m : TeamMemberRecord) : Bool :=
  (!activeOnly || m.active) && (includeLeader || m.role ≠ .leader)

-- =========== in memory

structure InMemoryTeamStore where
  teams : Dict String TeamRecord
  members : Dict (String × String) TeamMemberRecord
  leaderBindings : Dict String TeamLeaderBinding

namespace InMemoryTeamStore

def empty : InMemoryTeamStore := ⟨.empty, .empty, .empty⟩

def NotAfter (a b : TeamMemberRecord) : Prop :=
  a.createdAt.stamp < b.createdAt.stamp
    ∨ (a.createdAt.stamp = b.createdAt.stamp ∧ a.memberId ≤ b.memberId)

instance (a b : TeamMemberRecord) : Decidable (NotAfter a b) :=
  inferInstanceAs (Decidable (_ ∨ _))

/-- The members of a team, as they were first saved. -/
def membersOf (s : InMemoryTeamStore) (teamId : String) :
    List TeamMemberRecord :=
  (s.members.entries.filter fun e => e.1.1 = teamId).map Prod.snd

def saveMember (s : InMemoryTeamStore) (member : TeamMemberRecord) :
    InMemoryTeamStore :=
  { s with
    members := s.members.insert (member.teamId, member.memberId) member }

def deleteLeaderBinding (s : InMemoryTeamStore) (leaderSessionId : String) :
    InMemoryTeamStore :=
  { s with leaderBindings := s.leaderBindings.erase leaderSessionId }

def listMembers (s : InMemoryTeamStore) (teamId : String)
    (activeOnly includeLeader : Bool) : List TeamMemberRecord :=
  ((s.membersOf teamId).insertionSort NotAfter).filter
    (listed activeOnly includeLeader)

def findMemberByName (s : InMemoryTeamStore) (teamId name : String) :
    Option TeamMemberRecord :=
  (s.listMembers teamId true true).find? fun m => m.name = name

theorem findMemberByName_eq (m : InMemoryTeamStore) (teamId name : String) :
    m.findMemberByName teamId name
      = ((m.membersOf teamId).insertionSort NotAfter).find?
        fun x => x.active && x.name = name := by
  unfold findMemberByName listMembers
  rw [List.find?_filter]
  refine congrArg (fun p => List.find? p _) ?_
  funext x
  rw [Bool.eq_iff_iff, decide_eq_true_iff, Bool.and_eq_true]
  refine and_congr ?_ Iff.rfl
  simp [listed]

def createTeam (s : InMemoryTeamStore) (clock : Clock) (team : TeamRecord)
    (leader : TeamMemberRecord) : InMemoryTeamStore × StoreOutcome :=
  if s.teams.contains team.teamId then (s, .raised .fileExists)
  else if s.leaderBindings.contains team.leaderSessionId then
    (s, .raised .fileExists)
  else
    let saved := { s with teams := s.teams.insert team.teamId team }
    let led := saved.saveMember leader
    ({ led with
        leaderBindings := led.leaderBindings.insert team.leaderSessionId
          (newBinding team clock) }, .team (some team))

def activeTeamForLeaderSession (s : InMemoryTeamStore)
    (leaderSessionId : String) : InMemoryTeamStore × Option TeamRecord :=
  match s.leaderBindings.get? leaderSessionId with
  | none => (s, none)
  | some binding =>
    match s.teams.get? binding.teamId with
    | none => (s.deleteLeaderBinding leaderSessionId, none)
    | some team =>
      if team.active then (s, some team)
      else (s.deleteLeaderBinding leaderSessionId, none)

def tombstoneTeam (s : InMemoryTeamStore) (clock : Clock)
    (team : TeamRecord) : InMemoryTeamStore :=
  let saved := { s with
    teams := s.teams.insert team.teamId (team.tombstone clock) }
  saved.deleteLeaderBinding team.leaderSessionId

def removeMember (s : InMemoryTeamStore) (clock : Clock)
    (teamId memberId : String) :
    InMemoryTeamStore × Option TeamMemberRecord :=
  match s.members.get? (teamId, memberId) with
  | none => (s, none)
  | some member =>
    let removed := member.withStatus .removed clock.first clock.second
    (s.saveMember removed, some removed)

def purgeTeam (s : InMemoryTeamStore) (teamId : String) :
    InMemoryTeamStore where
  teams := s.teams.erase teamId
  members := s.members.filter fun key _ => key.1 ≠ teamId
  leaderBindings := s.leaderBindings.filter fun _ b => b.teamId ≠ teamId

def handle (s : InMemoryTeamStore) (clock : Clock) :
    StoreCall → InMemoryTeamStore × StoreOutcome
  | .loadTeam teamId => (s, .team (s.teams.get? teamId))
  | .createTeam team leader => s.createTeam clock team leader
  | .saveTeam team =>
    ({ s with teams := s.teams.insert team.teamId team },
      .team (some team))
  | .activeTeamForLeaderSession leaderSessionId =>
    let (next, team) := s.activeTeamForLeaderSession leaderSessionId
    (next, .team team)
  | .deleteLeaderBinding leaderSessionId =>
    (s.deleteLeaderBinding leaderSessionId, .done)
  | .saveMember member => (s.saveMember member, .member (some member))
  | .loadMember teamId memberId =>
    (s, .member (s.members.get? (teamId, memberId)))
  | .listMembers teamId activeOnly includeLeader =>
    (s, .members (s.listMembers teamId activeOnly includeLeader))
  | .findMemberByName teamId name =>
    (s, .member (s.findMemberByName teamId name))
  | .tombstoneTeam team =>
    (s.tombstoneTeam clock team, .team (some (team.tombstone clock)))
  | .removeMember teamId memberId =>
    let (next, removed) := s.removeMember clock teamId memberId
    (next, .member removed)
  | .purgeTeam teamId => (s.purgeTeam teamId, .done)

end InMemoryTeamStore

-- ============= on disk

/-- The documents on disk, by the ids their paths are made of. -/
structure FileBackedTeamStore where
  teams : Dict String PyVal
  members : Dict (String × String) PyVal
  leaders : Dict String PyVal

namespace FileBackedTeamStore

def empty : FileBackedTeamStore := ⟨.empty, .empty, .empty⟩

/-- The name of a member's file. -/
def memberFile (memberId : String) : String := memberId ++ ".json"

/-- What `json.load` reads from what `json.dump` wrote with sorted keys;
`foreign` is for what is no JSON value. -/
def dumpDocument (foreign : PyVal → Option PyVal) (document : PyVal) :
    Option PyVal :=
  if document.isJson then some (jsonReadBack document) else foreign document

def memberDocuments (s : FileBackedTeamStore) (teamId : String) :
    List PyVal :=
  (((s.members.entries.filter fun e => e.1.1 = teamId).insertionSort
    fun a b => memberFile a.1.2 ≤ memberFile b.1.2)).map Prod.snd

def readTeam (now : Datetime) : PyVal → Except StoreError TeamRecord
  | .dict payload => orRaise (TeamRecord.fromDict now payload) .malformed
  | _ => .error .malformed

def readMember (now : Datetime) :
    PyVal → Except StoreError TeamMemberRecord
  | .dict payload =>
    orRaise (TeamMemberRecord.fromDict now payload) .malformed
  | _ => .error .malformed

def readBinding (now : Datetime) :
    PyVal → Except StoreError TeamLeaderBinding
  | .dict payload =>
    orRaise (TeamLeaderBinding.fromDict now payload) .malformed
  | _ => .error .malformed

section Writing

variable (foreign : PyVal → Option PyVal)

def writeTeam (s : FileBackedTeamStore) (team : TeamRecord) :
    Option FileBackedTeamStore := do
  let document ← dumpDocument foreign (.dict team.toDict)
  return { s with teams := s.teams.insert team.teamId document }

def writeMember (s : FileBackedTeamStore) (member : TeamMemberRecord) :
    Option FileBackedTeamStore := do
  let document ← dumpDocument foreign (.dict member.toDict)
  return { s with
    members := s.members.insert (member.teamId, member.memberId) document }

def writeBinding (s : FileBackedTeamStore) (binding : TeamLeaderBinding) :
    Option FileBackedTeamStore := do
  let document ← dumpDocument foreign (.dict binding.toDict)
  return { s with
    leaders := s.leaders.insert binding.leaderSessionId document }

end Writing

/-- `shutil.rmtree` of the directory of a team. -/
def rmtree (s : FileBackedTeamStore) (teamId : String) :
    FileBackedTeamStore :=
  { s with
    teams := s.teams.erase teamId
    members := s.members.filter fun key _ => key.1 ≠ teamId }

def deleteLeaderBinding (s : FileBackedTeamStore)
    (leaderSessionId : String) : FileBackedTeamStore :=
  { s with leaders := s.leaders.erase leaderSessionId }

def loadTeam (s : FileBackedTeamStore) (now : Datetime) (teamId : String) :
    Except StoreError (Option TeamRecord) :=
  match s.teams.get? teamId with
  | none => .ok none
  | some document => (readTeam now document).map some

def loadMember (s : FileBackedTeamStore) (now : Datetime)
    (teamId memberId : String) :
    Except StoreError (Option TeamMemberRecord) :=
  match s.members.get? (teamId, memberId) with
  | none => .ok none
  | some document => (readMember now document).map some

/-- Three files are written; when one cannot be, what the call has written
is deleted. -/
def createTeam (foreign : PyVal → Option PyVal) (s : FileBackedTeamStore)
    (clock : Clock) (team : TeamRecord) (leader : TeamMemberRecord) :
    FileBackedTeamStore × StoreOutcome :=
  if s.teams.contains team.teamId then (s, .raised .fileExists)
  else if s.leaders.contains team.leaderSessionId then
    (s, .raised .fileExists)
  else
    let undo := fun t : FileBackedTeamStore =>
      (t.rmtree team.teamId).deleteLeaderBinding team.leaderSessionId
    match s.writeTeam foreign team with
    | none => (undo s, .raised .unserializable)
    | some saved =>
      match saved.writeMember foreign leader with
      | none => (undo saved, .raised .unserializable)
      | some led =>
        match led.writeBinding foreign (newBinding team clock) with
        | none => (undo led, .raised .unserializable)
        | some next => (next, .team (some team))

def activeTeamForLeaderSession (s : FileBackedTeamStore) (clock : Clock)
    (leaderSessionId : String) : FileBackedTeamStore × StoreOutcome :=
  match s.leaders.get? leaderSessionId with
  | none => (s, .team none)
  | some document =>
    match readBinding clock.first document with
    | .error error => (s, .raised error)
    | .ok binding =>
      match s.loadTeam clock.second binding.teamId with
      | .error error => (s, .raised error)
      | .ok none => (s.deleteLeaderBinding leaderSessionId, .team none)
      | .ok (some team) =>
        if team.active then (s, .team (some team))
        else (s.deleteLeaderBinding leaderSessionId, .team none)

def listMembers (s : FileBackedTeamStore) (now : Datetime) (teamId : String)
    (activeOnly includeLeader : Bool) :
    Except StoreError (List TeamMemberRecord) := do
  let members ← (s.memberDocuments teamId).mapM (readMember now)
  return members.filter (listed activeOnly includeLeader)

def findMemberByName (s : FileBackedTeamStore) (now : Datetime)
    (teamId name : String) : Except StoreError (Option TeamMemberRecord) := do
  let members ← s.listMembers now teamId true true
  return members.find? fun m => m.name = name

/-- A store and the outcome of a write, or the exception of `json.dump`. -/
def afterWrite (s : FileBackedTeamStore) (written : Option FileBackedTeamStore)
    (outcome : StoreOutcome) : FileBackedTeamStore × StoreOutcome :=
  match written with
  | none => (s, .raised .unserializable)
  | some next => (next, outcome)

def outcomeOf {α : Type} (read : Except StoreError α)
    (outcome : α → StoreOutcome) : StoreOutcome :=
  match read with
  | .ok value => outcome value
  | .error error => .raised error

def tombstoneTeam (foreign : PyVal → Option PyVal) (s : FileBackedTeamStore)
    (clock : Clock) (team : TeamRecord) :
    FileBackedTeamStore × StoreOutcome :=
  match s.writeTeam foreign (team.tombstone clock) with
  | none => (s, .raised .unserializable)
  | some saved => (saved.deleteLeaderBinding team.leaderSessionId,
      .team (some (team.tombstone clock)))

def removeMember (foreign : PyVal → Option PyVal) (s : FileBackedTeamStore)
    (clock : Clock) (teamId memberId : String) :
    FileBackedTeamStore × StoreOutcome :=
  match s.loadMember clock.first teamId memberId with
  | .error error => (s, .raised error)
  | .ok none => (s, .member none)
  | .ok (some member) =>
    let removed := member.withStatus .removed clock.first clock.second
    s.afterWrite (s.writeMember foreign removed) (.member (some removed))

def handle (foreign : PyVal → Option PyVal) (s : FileBackedTeamStore)
    (clock : Clock) : StoreCall → FileBackedTeamStore × StoreOutcome
  | .loadTeam teamId =>
    (s, outcomeOf (s.loadTeam clock.first teamId) .team)
  | .createTeam team leader => s.createTeam foreign clock team leader
  | .saveTeam team =>
    s.afterWrite (s.writeTeam foreign team) (.team (some team))
  | .activeTeamForLeaderSession leaderSessionId =>
    s.activeTeamForLeaderSession clock leaderSessionId
  | .deleteLeaderBinding leaderSessionId =>
    (s.deleteLeaderBinding leaderSessionId, .done)
  | .saveMember member =>
    s.afterWrite (s.writeMember foreign member) (.member (some member))
  | .loadMember teamId memberId =>
    (s, outcomeOf (s.loadMember clock.first teamId memberId) .member)
  | .listMembers teamId activeOnly includeLeader =>
    (s, outcomeOf (s.listMembers clock.first teamId activeOnly
      includeLeader) .members)
  | .findMemberByName teamId name =>
    (s, outcomeOf (s.findMemberByName clock.first teamId name) .member)
  | .tombstoneTeam team => s.tombstoneTeam foreign clock team
  | .removeMember teamId memberId =>
    s.removeMember foreign clock teamId memberId
  | .purgeTeam teamId => (s.rmtree teamId, .done)

end FileBackedTeamStore

end WeaveRuntime.Teams
