/-
The control plane of the teams, as operations that interleave at their
awaits.

`create_team`, `register_member`, `remove_member` and `delete_team` work on
a team store and on the runner manager, which knows the registered
teammates and their drain tasks. An operation runs from one await to the
next without a break (`Plane.start`, `Plane.resume`); `Progress` is where
it is suspended and what it goes on with. What an await gives back (an
exception, or what the workflow service and the teammate's snapshot say)
is part of the action, and so are the clock and the ids drawn.

`remove_member` and `delete_team` wait for the shutdown of the teammates
they remove (`Stage`). `delete_team` goes through the members it listed at
its start and closes the team when the last of them is gone
(`closeTeam`).

The store is the one in memory. The messages of the errors and the events
are left out.
-/
import WeaveRuntime.Teams.Store
import WeaveRuntime.Lib.System

namespace WeaveRuntime.Teams

open Lib Python
open Jobs (Fields getField)

-- ============ requests

inductive ControlError where
  | authorityDenied
  | invalidTeamState
  | duplicateMemberName
  | invalidRequest
  | notFound
  /-- an execution default is no member of its enumeration -/
  | valueError
  | fileExists
  /-- what an await raised -/
  | awaited
  deriving DecidableEq

/-- A character of a member name after the first. -/
def isNameChar (c : Char) : Bool :=
  c.isAlphanum || c = '.' || c = '_' || c = '-'

def memberNamePattern : List Char → Bool
  | [] => false
  | c :: cs => c.isAlphanum && cs.length ≤ 63 && cs.all isNameChar

def validateMemberName (name : String) : Except ControlError String :=
  let normalized := pyStrip name
  if normalized = "" then .error .invalidRequest
  else if normalized = "leader" ∨ normalized = "*" then
    .error .invalidRequest
  else if !memberNamePattern normalized.toList then .error .invalidRequest
  else .ok normalized

def optionalInt : PyVal → Option Int
  | .none => none
  | value => pyInt value

def permissionModes : List String :=
  ["default", "plan", "acceptEdits", "bypassPermissions", "dontAsk", "auto",
    "bubble"]

def isolationModes : List String := ["none", "worktree", "remote"]

def textDefault (key : String) (text : Option String) : Fields :=
  match text with
  | none => []
  | some text => [(.str key, .str text)]

/-- Such a text that has to be a value of an enumeration. -/
def enumDefault (key : String) (values : List String)
    (text : Option String) : Except ControlError Fields :=
  match text with
  | none => .ok []
  | some text =>
    if text ∈ values then .ok [(.str key, .str text)]
    else .error .valueError

def normalizeExecutionDefaults (value : Fields) :
    Except ControlError Fields := do
  let text := fun key => coerceOptionalString (getField value key)
  let mode ← enumDefault "permission_mode" permissionModes
    (text "permission_mode")
  let isolation ← enumDefault "isolation" isolationModes (text "isolation")
  let turns := match optionalInt (getField value "max_turns") with
    | none => []
    | some turns => [(.str "max_turns", .int turns)]
  return textDefault "cwd" (text "cwd") ++ textDefault "model" (text "model")
    ++ textDefault "model_route" (text "model_route") ++ mode ++ isolation
    ++ turns

inductive PlaneCall where
  | createTeam (sessionId : String) (extensions : Fields)
      (name : Option String)
  | registerMember (sessionId : String) (extensions : Fields)
      (name agentName : String) (executionDefaults : Fields)
  | removeMember (sessionId : String) (extensions : Fields)
      (memberId : String)
  | deleteTeam (sessionId : String) (extensions : Fields)

-- =========== the actor

structure TeamActor where
  team : Option TeamRecord
  member : Option TeamMemberRecord

def TeamActor.isTeammate (a : TeamActor) : Bool :=
  match a.member with
  | none => false
  | some member => member.role = .teammate

def activeMember (store : InMemoryTeamStore) (teamId memberId : String) :
    Option TeamMemberRecord :=
  (store.members.get? (teamId, memberId)).filter TeamMemberRecord.active

def actingMember (store : InMemoryTeamStore) (sessionId : String)
    (extensions : Fields) (team : TeamRecord) : Option TeamMemberRecord :=
  let text := fun key => coerceOptionalString (getField extensions key)
  let named := (text "team_member_id").orElse fun _ => text "teammate_id"
  (named.bind (activeMember store team.teamId)).orElse fun _ =>
    if team.leaderSessionId = sessionId ∨ text "team_role" = some "leader" then
      activeMember store team.teamId team.leaderMemberId
    else none

/-- `resolve_actor`; looking for the session's team may drop a binding. -/
def resolveActor (store : InMemoryTeamStore) (sessionId : String)
    (extensions : Fields) : InMemoryTeamStore × TeamActor :=
  let named := (coerceOptionalString (getField extensions "team_id")).bind
    fun teamId => (store.teams.get? teamId).filter TeamRecord.active
  let (next, team) := match named with
    | some team => (store, some team)
    | none => store.activeTeamForLeaderSession sessionId
  (next, { team, member := team.bind (actingMember next sessionId extensions) })

def requireLeader (a : TeamActor) :
    Except ControlError (TeamRecord × TeamMemberRecord) :=
  match a.team, a.member with
  | some team, some member =>
    if member.role = .leader then .ok (team, member)
    else .error .authorityDenied
  | _, _ => .error .invalidTeamState

-- ==== the shutdown of a teammate

/-- What the workflow service and the snapshot of the teammate say after
an await of a shutdown. -/
structure ShutdownView where
  /-- the workflow is still pending -/
  pending : Bool
  /-- there is a snapshot, with current work -/
  attached : Bool
  /-- the workflow was closed by force or timed out -/
  forced : Bool

/-- What an await gives back. -/
inductive Answer where
  | raises
  | returns (view : ShutdownView)

/-- Where `RuntimeTeamRunnerManager.remove_member` is suspended. -/
inductive Stage where
  /-- the cancelled drain task, without a workflow service -/
  | cancelling
  /-- `create_shutdown_workflow` -/
  | requesting
  /-- `acknowledge_shutdown` -/
  | acknowledging (attached : Bool)
  /-- `complete_shutdown` -/
  | completing
  /-- `wait_for_terminal` -/
  | waiting
  /-- the drain task of a forced shutdown -/
  | reaping
  /-- `_stop_heartbeat` of `remove_teammate` -/
  | stopping
  deriving DecidableEq

/-- The drain task of the teammate is off the manager's table. -/
def Stage.detached : Stage → Bool
  | .cancelling | .reaping | .stopping => true
  | _ => false

/-- The registered teammates and the drain tasks that are alive, by team
and member. -/
structure Runner where
  registered : List (String × String)
  drainTasks : List (String × String)

def hasKey (keys : List (String × String)) (key : String × String) : Bool :=
  keys.any fun k => k = key

theorem hasKey_iff {keys : List (String × String)} {key : String × String} :
    hasKey keys key = true ↔ key ∈ keys := by
  unfold hasKey
  rw [List.any_eq_true]
  simp

namespace Runner

def dropDrain (r : Runner) (key : String × String) : Runner :=
  { r with drainTasks := r.drainTasks.filter (· ≠ key) }

def unregister (r : Runner) (key : String × String) : Runner :=
  { r with registered := r.registered.filter (· ≠ key) }

def register (r : Runner) (key : String × String) : Runner :=
  { r with registered := key :: r.registered }

def ensureRunner (r : Runner) (key : String × String) : Runner :=
  if hasKey r.drainTasks key then r
  else { r with drainTasks := key :: r.drainTasks }

/-- `remove_member` up to its first await; `workflows` tells whether there
is a workflow service. -/
def beginRemoval (workflows : Bool) (r : Runner) (key : String × String) :
    Runner × Stage :=
  if workflows then (r, .requesting)
  else if hasKey r.drainTasks key then (r.dropDrain key, .cancelling)
  else (r, .stopping)

/-- After `begin_shutdown`, when the workflow is acknowledged. -/
def afterAcknowledged (attached : Bool) : Stage :=
  if attached then .waiting else .completing

/-- `remove_member` from one await to the next; nothing is left to wait
for when the teammate is gone. -/
def resumeRemoval (r : Runner) (key : String × String)
    (view : ShutdownView) : Stage → Runner × Option Stage
  | .cancelling => (r, some .stopping)
  | .requesting =>
    if view.pending then (r, some (.acknowledging view.attached))
    else (r, some (afterAcknowledged view.attached))
  | .acknowledging attached => (r, some (afterAcknowledged attached))
  | .completing => (r, some .waiting)
  | .waiting =>
    if hasKey r.drainTasks key && view.forced then
      (r.dropDrain key, some .reaping)
    else (r.dropDrain key, some .stopping)
  | .reaping => (r, some .stopping)
  | .stopping => (r.unregister key, none)

end Runner

-- ========== operations

inductive OpResult where
  | team (team : TeamRecord) (created : Bool)
  | member (member : TeamMemberRecord)
  | deleted (team : TeamRecord)
  | raised (error : ControlError)

/-- Where an operation is suspended. -/
inductive Progress where
  /-- `create_team`, the event of a new team -/
  | announcing (team : TeamRecord)
  /-- `create_team`, the private context of the leader -/
  | syncing (team : TeamRecord) (created : Bool)
  /-- `create_team`, the event of a team found -/
  | reusing (team : TeamRecord)
  /-- `register_member`, its event -/
  | spawning (member : TeamMemberRecord)
  /-- `remove_member`, the shutdown -/
  | removing (team : TeamRecord) (member : TeamMemberRecord) (stage : Stage)
  /-- `remove_member`, its event -/
  | removed (member : TeamMemberRecord)
  /-- `delete_team`, the shutdown of `member`; `rest` come after it -/
  | deleting (team : TeamRecord) (members : List TeamMemberRecord)
      (member : TeamMemberRecord) (rest : List TeamMemberRecord)
      (stage : Stage)
  /-- `delete_team`, the private context of the leader -/
  | clearing (team : TeamRecord)
  /-- `delete_team`, its event -/
  | farewell (team : TeamRecord)
  | returned (result : OpResult)

/-- The operation has returned or raised. -/
def Progress.ended : Progress → Bool
  | .returned _ => true
  | _ => false

structure Plane where
  store : InMemoryTeamStore
  runner : Runner
  ops : Dict Nat Progress

namespace Plane

def empty : Plane := ⟨.empty, ⟨[], []⟩, .empty⟩

/-- What one section of an operation leaves: the store, the runner and
where the operation is. -/
abbrev Section := InMemoryTeamStore × Runner × Progress

-- --------- create_team

def loadLeader (store : InMemoryTeamStore) (runner : Runner)
    (team : TeamRecord) (created : Bool) : Section :=
  match store.members.get? (team.teamId, team.leaderMemberId) with
  | none => (store, runner, .returned (.raised .invalidTeamState))
  | some _ => (store, runner, .syncing team created)

def newTeam (clocks : Nat → Clock) (teamId leaderId sessionId : String)
    (name : Option String) : TeamRecord where
  teamId := teamId
  leaderSessionId := sessionId
  leaderMemberId := leaderId
  name := name
  status := .active
  createdAt := (clocks 0).first
  updatedAt := (clocks 0).second
  deletedAt := none
  contextMetadata := [(.str "team_scope", .str "runtime")]
  schemaVersion := 1

def newLeader (clocks : Nat → Clock) (teamId leaderId sessionId : String) :
    TeamMemberRecord where
  teamId := teamId
  memberId := leaderId
  name := "leader"
  role := .leader
  status := .active
  agentName := none
  sessionId := some sessionId
  createdAt := (clocks 1).first
  updatedAt := (clocks 1).second
  removedAt := none
  executionDefaults := []
  metadata := [(.str "leader_session_id", .str sessionId)]
  schemaVersion := 1

def startCreate (store : InMemoryTeamStore) (runner : Runner)
    (clocks : Nat → Clock) (teamId leaderId sessionId : String)
    (extensions : Fields) (name : Option String) : Section :=
  let (resolved, actor) := resolveActor store sessionId extensions
  if actor.isTeammate then
    (resolved, runner, .returned (.raised .authorityDenied))
  else
    match resolved.activeTeamForLeaderSession sessionId with
    | (found, some team) => loadLeader found runner team false
    | (found, none) =>
      let team := newTeam clocks teamId leaderId sessionId name
      match found.createTeam (clocks 2) team
          (newLeader clocks teamId leaderId sessionId) with
      | (made, .raised _) =>
        match made.activeTeamForLeaderSession sessionId with
        | (again, some team) => loadLeader again runner team false
        | (again, none) => (again, runner, .returned (.raised .fileExists))
      | (made, _) => (made, runner, .announcing team)

-- ----- register_member

/-- The member `register_member` saves. -/
def newMember (clocks : Nat → Clock) (team : TeamRecord)
    (memberId name agentName : String) (executionDefaults : Fields) :
    TeamMemberRecord where
  teamId := team.teamId
  memberId := memberId
  name := name
  role := .teammate
  status := .active
  agentName := some agentName
  sessionId := some team.leaderSessionId
  createdAt := (clocks 0).first
  updatedAt := (clocks 0).second
  removedAt := none
  executionDefaults := executionDefaults
  metadata := [(.str "leader_session_id", .str team.leaderSessionId)]
  schemaVersion := 1

/-- `register_member` for a resolved leader; `fails` tells whether
`register_teammate` raises after it has kept the registration. -/
def register (store : InMemoryTeamStore) (runner : Runner)
    (clocks : Nat → Clock) (memberId : String) (fails : Bool)
    (team : TeamRecord) (name agentName : String)
    (executionDefaults : Fields) : Section :=
  match validateMemberName name with
  | .error error => (store, runner, .returned (.raised error))
  | .ok normalized =>
    if (store.findMemberByName team.teamId normalized).isSome then
      (store, runner, .returned (.raised .duplicateMemberName))
    else
      match normalizeExecutionDefaults executionDefaults with
      | .error error => (store, runner, .returned (.raised error))
      | .ok defaults =>
        let member := newMember clocks team memberId normalized agentName
          defaults
        (store.saveMember member,
          runner.register (team.teamId, memberId),
          if fails then .returned (.raised .awaited)
          else .spawning member)

-- --------- delete_team

/-- `remove_member` of the store for the members listed, the leader's
record apart. -/
def removeListed (teamId leaderId : String) (clocks : Nat → Clock)
    (store : InMemoryTeamStore) :
    List TeamMemberRecord → InMemoryTeamStore
  | [] => store
  | member :: members =>
    let next := if member.memberId = leaderId then store
      else (store.removeMember (clocks 0) teamId member.memberId).1
    removeListed teamId leaderId (fun n => clocks (n + 1)) next members

/-- `delete_team` after the shutdown of the team. -/
def closeTeam (store : InMemoryTeamStore) (clocks : Nat → Clock)
    (team : TeamRecord) (members : List TeamMemberRecord) :
    InMemoryTeamStore :=
  let emptied := removeListed team.teamId team.leaderMemberId clocks store
    members
  let closed := emptied.tombstoneTeam (clocks members.length) team
  (closed.removeMember (clocks (members.length + 1)) team.teamId
    team.leaderMemberId).1

/-- `shutdown_team` from its next teammate on, and the closing of the
team after the last. -/
def shutdownRest (workflows : Bool) (store : InMemoryTeamStore)
    (runner : Runner) (clocks : Nat → Clock) (team : TeamRecord)
    (members : List TeamMemberRecord) :
    List TeamMemberRecord → Section
  | [] =>
    (closeTeam store clocks team members, runner,
      .clearing (team.tombstone (clocks members.length)))
  | member :: rest =>
    let (next, stage) := runner.beginRemoval workflows
      (team.teamId, member.memberId)
    (store, next, .deleting team members member rest stage)

-- ---------- the system

/-- The ids and the clock readings of one section of an operation, and
whether a registration raises. -/
structure Draws where
  teamId : String
  memberId : String
  clocks : Nat → Clock
  registrationFails : Bool

/-- An operation up to its first await. -/
def start (workflows : Bool) (store : InMemoryTeamStore) (runner : Runner)
    (draws : Draws) : PlaneCall → Section
  | .createTeam sessionId extensions name =>
    startCreate store runner draws.clocks draws.teamId draws.memberId
      sessionId extensions name
  | .registerMember sessionId extensions name agentName defaults =>
    let (resolved, actor) := resolveActor store sessionId extensions
    match requireLeader actor with
    | .error error => (resolved, runner, .returned (.raised error))
    | .ok (team, _) =>
      register resolved runner draws.clocks draws.memberId
        draws.registrationFails team name agentName defaults
  | .removeMember sessionId extensions memberId =>
    let (resolved, actor) := resolveActor store sessionId extensions
    match requireLeader actor with
    | .error error => (resolved, runner, .returned (.raised error))
    | .ok (team, _) =>
      if memberId = team.leaderMemberId then
        (resolved, runner, .returned (.raised .authorityDenied))
      else
        match activeMember resolved team.teamId memberId with
        | none => (resolved, runner, .returned (.raised .notFound))
        | some member =>
          let (next, stage) := runner.beginRemoval workflows
            (team.teamId, member.memberId)
          (resolved, next, .removing team member stage)
  | .deleteTeam sessionId extensions =>
    let (resolved, actor) := resolveActor store sessionId extensions
    match requireLeader actor with
    | .error error => (resolved, runner, .returned (.raised error))
    | .ok (team, _) =>
      let members := resolved.listMembers team.teamId true true
      shutdownRest workflows resolved runner draws.clocks team members
        (members.filter fun m => m.role = .teammate)

/-- An operation from one await to the next. -/
def resume (workflows : Bool) (store : InMemoryTeamStore) (runner : Runner)
    (clocks : Nat → Clock) (view : ShutdownView) : Progress → Section
  | .announcing team => loadLeader store runner team true
  | .syncing team true => (store, runner, .returned (.team team true))
  | .syncing team false => (store, runner, .reusing team)
  | .reusing team => (store, runner, .returned (.team team false))
  | .spawning member => (store, runner, .returned (.member member))
  | .removing team member stage =>
    match runner.resumeRemoval (team.teamId, member.memberId) view stage with
    | (next, some stage) => (store, next, .removing team member stage)
    | (next, none) =>
      let (kept, removed) := store.removeMember (clocks 0) team.teamId
        member.memberId
      (kept, next, .removed (removed.getD member))
  | .removed member => (store, runner, .returned (.member member))
  | .deleting team members member rest stage =>
    match runner.resumeRemoval (team.teamId, member.memberId) view stage with
    | (next, some stage) =>
      (store, next, .deleting team members member rest stage)
    | (next, none) =>
      shutdownRest workflows store next clocks team members rest
  | .clearing team => (store, runner, .farewell team)
  | .farewell team => (store, runner, .returned (.deleted team))
  | .returned result => (store, runner, .returned result)

/-- What a section leaves, with its operation. -/
def put (s : Plane) (op : Nat) (left : Section) : Plane :=
  ⟨left.1, left.2.1, s.ops.insert op left.2.2⟩

/-- The ids drawn are new. -/
def fresh (s : Plane) (draws : Draws) : Bool :=
  !s.store.teams.contains draws.teamId
    && s.store.members.keys.all fun key =>
      key.1 ≠ draws.teamId && key.2 ≠ draws.memberId

end Plane

inductive PlaneAction where
  /-- an operation is called; `op` names the call -/
  | call (op : Nat) (call : PlaneCall) (draws : Plane.Draws)
  /-- an await of the operation ends -/
  | resume (op : Nat) (answer : Answer) (clocks : Nat → Clock)
  /-- a message is dispatched to a teammate -/
  | dispatch (key : String × String)
  /-- a drain task ends -/
  | drained (key : String × String)

/-- The control plane; `workflows` tells whether there is a workflow
service. -/
def planeSystem (workflows : Bool) : System Plane PlaneAction where
  step s
    | .call op call draws =>
      if s.ops.contains op || !s.fresh draws then none
      else some (s.put op
        (Plane.start workflows s.store s.runner draws call))
    | .resume op answer clocks =>
      match s.ops.get? op with
      | none => none
      | some progress =>
        if progress.ended then none
        else
          match answer with
          | .raises => some (s.put op
              (s.store, s.runner, .returned (.raised .awaited)))
          | .returns view => some (s.put op
              (Plane.resume workflows s.store s.runner clocks view
                progress))
    | .dispatch key =>
      if hasKey s.runner.registered key then
        some { s with runner := s.runner.ensureRunner key }
      else none
    | .drained key => some { s with runner := s.runner.dropDrain key }

end WeaveRuntime.Teams
