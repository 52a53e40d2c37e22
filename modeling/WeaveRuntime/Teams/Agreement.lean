/-
Where the two team stores agree.

`Related` says what the files hold of what the memory store holds: the
document of every team and every member, and of every leader binding.
A binding file may be there without a binding in memory: `purge_team`
drops the bindings of its team in memory and leaves their files.

An operation on a related pair returns the same from both stores exactly
when it is `Agreeable`: it does not run into a binding file left behind,
what it reads back the codec leaves alone, and the members it lists are in
the order of their files as they are in the order of their creation.
-/
import WeaveRuntime.Lib.Sorting
import WeaveRuntime.Lib.System
import WeaveRuntime.Teams.Store

namespace WeaveRuntime.Teams

open Lib Python
open Jobs (Fields)

-- =========== documents

def teamDocument (t : TeamRecord) : PyVal := jsonReadBack (.dict t.toDict)

def memberDocument (m : TeamMemberRecord) : PyVal :=
  jsonReadBack (.dict m.toDict)

def bindingDocument (b : TeamLeaderBinding) : PyVal :=
  jsonReadBack (.dict b.toDict)

theorem isJson_optText (o : Option String) : (optText o).isJson = true := by
  cases o <;> rfl

theorem isJson_optTime (t : Option Datetime) : (optTime t).isJson = true := by
  cases t <;> rfl

theorem TeamRecord.isJson {t : TeamRecord} (h : t.Json) :
    (PyVal.dict t.toDict).isJson = true := by
  have hmetadata : isJsonFields t.contextMetadata = true := h.1
  simp [TeamRecord.toDict, PyVal.isJson, isJsonFields, isJson_optText,
    isJson_optTime, hmetadata]

theorem TeamMemberRecord.isJson {m : TeamMemberRecord} (h : m.Json) :
    (PyVal.dict m.toDict).isJson = true := by
  have hdefaults : isJsonFields m.executionDefaults = true := h.1.1
  have hmetadata : isJsonFields m.metadata = true := h.2.1
  simp [TeamMemberRecord.toDict, PyVal.isJson, isJsonFields, isJson_optText,
    isJson_optTime, hdefaults, hmetadata]

section Documents

variable (foreign : PyVal → Option PyVal)

theorem dump_team {t : TeamRecord} (h : t.Json) :
    FileBackedTeamStore.dumpDocument foreign (.dict t.toDict)
      = some (teamDocument t) := if_pos (TeamRecord.isJson h)

theorem dump_member {m : TeamMemberRecord} (h : m.Json) :
    FileBackedTeamStore.dumpDocument foreign (.dict m.toDict)
      = some (memberDocument m) := if_pos (TeamMemberRecord.isJson h)

theorem dump_binding (b : TeamLeaderBinding) :
    FileBackedTeamStore.dumpDocument foreign (.dict b.toDict)
      = some (bindingDocument b) := if_pos rfl

theorem readTeam_document {t : TeamRecord} (h : t.Json) (now : Datetime) :
    FileBackedTeamStore.readTeam now (teamDocument t) = .ok t.readBack := by
  rw [teamDocument, jsonReadBack, PyVal.canon, FileBackedTeamStore.readTeam,
    TeamRecord.fromDict_document h now, orRaise_some]

theorem readMember_document {m : TeamMemberRecord} (h : m.Json)
    (now : Datetime) :
    FileBackedTeamStore.readMember now (memberDocument m)
      = .ok m.readBack := by
  rw [memberDocument, jsonReadBack, PyVal.canon, FileBackedTeamStore.readMember,
    TeamMemberRecord.fromDict_document h now, orRaise_some]

theorem mapM_readMember {now : Datetime} {xs : List TeamMemberRecord}
    (h : ∀ x ∈ xs, x.Json) :
    (xs.map memberDocument).mapM (FileBackedTeamStore.readMember now)
      = .ok (xs.map TeamMemberRecord.readBack) := by
  induction xs with
  | nil => rfl
  | cons x xs ih =>
    rw [List.forall_mem_cons] at h
    rw [List.map_cons, List.mapM_cons, readMember_document h.1, ih h.2]
    rfl

theorem readBinding_document (b : TeamLeaderBinding) (now : Datetime) :
    ∃ read, FileBackedTeamStore.readBinding now (bindingDocument b)
      = .ok read ∧ read.teamId = b.teamId := by
  obtain ⟨read, hread, hteam⟩ := b.fromDict_document now
  refine ⟨read, ?_, hteam⟩
  rw [bindingDocument, jsonReadBack, PyVal.canon,
    FileBackedTeamStore.readBinding, hread, orRaise_some]

end Documents

-- ======== the relation

/-- What the files hold of what the memory store holds. -/
structure Related (m : InMemoryTeamStore) (f : FileBackedTeamStore) :
    Prop where
  teams : f.teams = m.teams.mapValues teamDocument
  members : f.members = m.members.mapValues memberDocument
  leaders : ∀ leader b, m.leaderBindings.get? leader = some b →
    f.leaders.get? leader = some (bindingDocument b)
  bindings : ∀ leader document, f.leaders.get? leader = some document →
    ∃ b, document = bindingDocument b
  teamJson : ∀ teamId t, m.teams.get? teamId = some t → t.Json
  memberJson : ∀ key x, m.members.get? key = some x → x.Json
  memberKey : ∀ key x, m.members.get? key = some x →
    key = (x.teamId, x.memberId)

theorem Related.start :
    Related InMemoryTeamStore.empty FileBackedTeamStore.empty where
  teams := rfl
  members := rfl
  leaders _ _ h := by cases h
  bindings _ _ h := by cases h
  teamJson _ _ h := by cases h
  memberJson _ _ h := by cases h
  memberKey _ _ h := by cases h

-- ======= the condition

/-- The records of an operation hold JSON metadata. -/
def StoreCall.Json : StoreCall → Prop
  | .createTeam team leader => team.Json ∧ leader.Json
  | .saveTeam team => team.Json
  | .saveMember member => member.Json
  | .tombstoneTeam team => team.Json
  | _ => True

def FileOrder (a b : TeamMemberRecord) : Prop :=
  FileBackedTeamStore.memberFile a.memberId
    ≤ FileBackedTeamStore.memberFile b.memberId

instance (a b : TeamMemberRecord) : Decidable (FileOrder a b) :=
  inferInstanceAs (Decidable (_ ≤ _))

/-- Whether an operation runs into nothing the two stores keep
differently. -/
def Agreeable (m : InMemoryTeamStore) (f : FileBackedTeamStore) :
    StoreCall → Prop
  | .loadTeam teamId =>
    ∀ t, m.teams.get? teamId = some t → t.readBack = t
  | .createTeam team _ =>
    team.teamId ∈ m.teams.keys
      ∨ team.leaderSessionId ∈ m.leaderBindings.keys
      ∨ team.leaderSessionId ∉ f.leaders.keys
  | .activeTeamForLeaderSession leader =>
    (∀ b t, m.leaderBindings.get? leader = some b →
      m.teams.get? b.teamId = some t → t.active = true → t.readBack = t)
    ∧ (leader ∉ m.leaderBindings.keys →
      ∀ b t, f.leaders.get? leader = some (bindingDocument b) →
        m.teams.get? b.teamId = some t → t.active = false)
  | .loadMember teamId memberId =>
    ∀ x, m.members.get? (teamId, memberId) = some x → x.readBack = x
  | .removeMember teamId memberId =>
    ∀ x, m.members.get? (teamId, memberId) = some x → x.readBack = x
  | .listMembers teamId activeOnly includeLeader =>
    (∀ x ∈ m.membersOf teamId, listed activeOnly includeLeader x = true →
      x.readBack = x)
    ∧ ∀ x ∈ m.membersOf teamId, ∀ y ∈ m.membersOf teamId,
      listed activeOnly includeLeader x = true →
      listed activeOnly includeLeader y = true →
      FileOrder x y → InMemoryTeamStore.NotAfter x y
  | .findMemberByName teamId name =>
    ∀ x ∈ m.membersOf teamId, x.active = true → x.name = name →
      (∀ y ∈ m.membersOf teamId, y.active = true → y.name = name →
        FileOrder x y) →
      x.readBack = x ∧ ∀ y ∈ m.membersOf teamId, y.active = true →
        y.name = name → InMemoryTeamStore.NotAfter x y
  | _ => True

-- ============= reading

section Reading

variable {m : InMemoryTeamStore} {f : FileBackedTeamStore}

theorem Related.loadTeam (h : Related m f) (now : Datetime)
    (teamId : String) :
    f.loadTeam now teamId
      = .ok ((m.teams.get? teamId).map TeamRecord.readBack) := by
  unfold FileBackedTeamStore.loadTeam
  rw [h.teams, Dict.get?_mapValues]
  cases ht : m.teams.get? teamId with
  | none => rfl
  | some t =>
    rw [Option.map_some]
    show Except.map some (FileBackedTeamStore.readTeam now (teamDocument t))
      = _
    rw [readTeam_document (h.teamJson teamId t ht)]
    rfl

theorem Related.loadMember (h : Related m f) (now : Datetime)
    (teamId memberId : String) :
    f.loadMember now teamId memberId
      = .ok ((m.members.get? (teamId, memberId)).map
        TeamMemberRecord.readBack) := by
  unfold FileBackedTeamStore.loadMember
  rw [h.members, Dict.get?_mapValues]
  cases hx : m.members.get? (teamId, memberId) with
  | none => rfl
  | some x =>
    rw [Option.map_some]
    show Except.map some
      (FileBackedTeamStore.readMember now (memberDocument x)) = _
    rw [readMember_document (h.memberJson _ x hx)]
    rfl

theorem map_eq_self_iff {α : Type} {g : α → α} {o : Option α} :
    o.map g = o ↔ ∀ a, o = some a → g a = a := by
  cases o with
  | none => simp
  | some a => simp

theorem Related.mem_membersOf (h : Related m f) {teamId : String}
    {x : TeamMemberRecord} :
    x ∈ m.membersOf teamId
      ↔ x.teamId = teamId
        ∧ m.members.get? (teamId, x.memberId) = some x := by
  unfold InMemoryTeamStore.membersOf
  rw [List.mem_map]
  refine ⟨fun hx => ?_, fun hx => ?_⟩
  · obtain ⟨e, he, rfl⟩ := hx
    rw [List.mem_filter, decide_eq_true_iff] at he
    have hget := Dict.get?_eq_some_iff.2 he.1
    have hkey := h.memberKey e.1 e.2 hget
    rw [hkey] at hget he
    have hteam : e.2.teamId = teamId := he.2
    rw [← hteam]
    exact ⟨rfl, hget⟩
  · refine ⟨((teamId, x.memberId), x), ?_, rfl⟩
    rw [List.mem_filter, decide_eq_true_iff]
    exact ⟨Dict.get?_eq_some_iff.1 hx.2, rfl⟩

theorem Related.memberId_injective (h : Related m f) {teamId : String} :
    ∀ a ∈ m.membersOf teamId, ∀ b ∈ m.membersOf teamId,
      a.memberId = b.memberId → a = b := by
  intro a ha b hb hab
  have hgetA := (h.mem_membersOf.1 ha).2
  have hgetB := (h.mem_membersOf.1 hb).2
  rw [hab, hgetB] at hgetA
  exact (Option.some.inj hgetA).symm

instance : Std.Total FileOrder := ⟨fun _ _ => le_total _ _⟩

instance : IsTrans TeamMemberRecord FileOrder :=
  ⟨fun _ _ _ hab hbc => le_trans hab hbc⟩

instance : Std.Total InMemoryTeamStore.NotAfter := by
  refine ⟨fun a b => ?_⟩
  unfold InMemoryTeamStore.NotAfter
  rcases Nat.lt_trichotomy a.createdAt.stamp b.createdAt.stamp
    with hlt | heq | hgt
  · exact Or.inl (Or.inl hlt)
  · rcases le_total a.memberId b.memberId with hle | hle
    · exact Or.inl (Or.inr ⟨heq, hle⟩)
    · exact Or.inr (Or.inr ⟨heq.symm, hle⟩)
  · exact Or.inr (Or.inl hgt)

instance : IsTrans TeamMemberRecord InMemoryTeamStore.NotAfter := by
  refine ⟨fun a b c hab hbc => ?_⟩
  unfold InMemoryTeamStore.NotAfter at *
  rcases hab with hab | ⟨hab, habId⟩
  · rcases hbc with hbc | ⟨hbc, -⟩
    · exact Or.inl (Nat.lt_trans hab hbc)
    · exact Or.inl (by omega)
  · rcases hbc with hbc | ⟨hbc, hbcId⟩
    · exact Or.inl (by omega)
    · exact Or.inr ⟨hab.trans hbc, le_trans habId hbcId⟩

theorem memberFile_injective {a b : String}
    (h : FileBackedTeamStore.memberFile a
      = FileBackedTeamStore.memberFile b) : a = b := by
  have hlist := congrArg String.toList h
  unfold FileBackedTeamStore.memberFile at hlist
  rw [String.toList_append, String.toList_append] at hlist
  exact String.toList_inj.1 (List.append_cancel_right hlist)

theorem Related.keyedFile (h : Related m f) (teamId : String) :
    Sorting.Keyed TeamMemberRecord.memberId (m.membersOf teamId)
      FileOrder where
  injective := h.memberId_injective
  antisymm _ _ _ _ hab hba := memberFile_injective (le_antisymm hab hba)

theorem Related.keyedCreation (h : Related m f) (teamId : String) :
    Sorting.Keyed TeamMemberRecord.memberId (m.membersOf teamId)
      InMemoryTeamStore.NotAfter where
  injective := h.memberId_injective
  antisymm a _ b _ hab hba := by
    unfold InMemoryTeamStore.NotAfter at hab hba
    rcases hab with hab | ⟨hab, habId⟩
    · rcases hba with hba | ⟨hba, -⟩
      · omega
      · omega
    · rcases hba with hba | ⟨-, hbaId⟩
      · omega
      · exact le_antisymm habId hbaId

theorem Related.memberDocuments (h : Related m f) (teamId : String) :
    f.memberDocuments teamId
      = ((m.membersOf teamId).insertionSort FileOrder).map
        memberDocument := by
  have hentries : f.members.entries.filter (fun e => e.1.1 = teamId)
      = (m.members.entries.filter fun e => e.1.1 = teamId).map
        fun e => (e.1, memberDocument e.2) := by
    rw [h.members, Dict.entries_mapValues, List.filter_map]
    rfl
  have hkey : ∀ e ∈ m.members.entries.filter (fun e => e.1.1 = teamId),
      e.1.2 = e.2.memberId := by
    intro e he
    have hget := Dict.get?_eq_some_iff.2 (List.mem_filter.1 he).1
    exact congrArg Prod.snd (h.memberKey e.1 e.2 hget)
  unfold FileBackedTeamStore.memberDocuments InMemoryTeamStore.membersOf
  rw [hentries]
  generalize m.members.entries.filter (fun e => e.1.1 = teamId) = es at hkey
  -- sorting the documents is sorting the records, by the same file names
  have hdocuments : (es.insertionSort fun a b =>
      FileBackedTeamStore.memberFile a.1.2
        ≤ FileBackedTeamStore.memberFile b.1.2).map
        (fun e => (e.1, memberDocument e.2))
      = (es.map fun e => (e.1, memberDocument e.2)).insertionSort fun a b =>
        FileBackedTeamStore.memberFile a.1.2
          ≤ FileBackedTeamStore.memberFile b.1.2 :=
    List.map_insertionSort _ _ _ _ fun a _ b _ => Iff.rfl
  have hrecords : (es.insertionSort fun a b =>
      FileBackedTeamStore.memberFile a.1.2
        ≤ FileBackedTeamStore.memberFile b.1.2).map Prod.snd
      = (es.map Prod.snd).insertionSort FileOrder := by
    refine List.map_insertionSort _ _ _ _ fun a ha b hb => ?_
    rw [hkey a ha, hkey b hb]
    exact Iff.rfl
  rw [← hdocuments, ← hrecords, List.map_map, List.map_map]
  rfl

theorem Related.memberJson_of_mem (h : Related m f) {teamId : String}
    {x : TeamMemberRecord} (hx : x ∈ m.membersOf teamId) : x.Json :=
  h.memberJson _ x (h.mem_membersOf.1 hx).2

theorem Related.listMembers (h : Related m f) (now : Datetime)
    (teamId : String) (activeOnly includeLeader : Bool) :
    f.listMembers now teamId activeOnly includeLeader
      = .ok ((((m.membersOf teamId).insertionSort FileOrder).filter
        (listed activeOnly includeLeader)).map
        TeamMemberRecord.readBack) := by
  have hread : (((m.membersOf teamId).insertionSort FileOrder).map
      memberDocument).mapM (FileBackedTeamStore.readMember now)
      = .ok (((m.membersOf teamId).insertionSort FileOrder).map
        TeamMemberRecord.readBack) := by
    refine mapM_readMember fun x hx => ?_
    exact h.memberJson_of_mem ((List.mem_insertionSort _).1 hx)
  unfold FileBackedTeamStore.listMembers
  rw [h.memberDocuments, hread]
  show Except.ok (List.filter _ _) = _
  rw [List.filter_map]
  rfl

theorem Related.findMemberByName (h : Related m f) (now : Datetime)
    (teamId name : String) :
    f.findMemberByName now teamId name
      = .ok ((((m.membersOf teamId).insertionSort FileOrder).find?
        fun x => x.active && x.name = name).map
        TeamMemberRecord.readBack) := by
  unfold FileBackedTeamStore.findMemberByName
  rw [h.listMembers]
  show Except.ok (List.find? _ _) = _
  rw [List.find?_map, List.find?_filter]
  refine congrArg (fun p => Except.ok (Option.map _ (List.find? p _))) ?_
  funext x
  rw [Bool.eq_iff_iff, decide_eq_true_iff, Bool.and_eq_true]
  refine and_congr ?_ ?_
  · simp [listed]
  · exact Iff.rfl

end Reading

-- ============= writing

section Writing

variable {m : InMemoryTeamStore} {f : FileBackedTeamStore}

theorem Related.insertTeam (h : Related m f) {t : TeamRecord} (ht : t.Json) :
    Related { m with teams := m.teams.insert t.teamId t }
      { f with teams := f.teams.insert t.teamId (teamDocument t) } where
  teams := by
    show f.teams.insert t.teamId (teamDocument t) = _
    rw [h.teams]
    exact (Dict.mapValues_insert ..).symm
  members := h.members
  leaders := h.leaders
  bindings := h.bindings
  teamJson teamId t' hget := by
    rw [Dict.get?_insert] at hget
    split at hget
    · cases hget
      exact ht
    · exact h.teamJson teamId t' hget
  memberJson := h.memberJson
  memberKey := h.memberKey

theorem Related.insertMember (h : Related m f) {x : TeamMemberRecord}
    (hx : x.Json) :
    Related (m.saveMember x)
      { f with
        members := f.members.insert (x.teamId, x.memberId)
          (memberDocument x) } where
  teams := h.teams
  members := by
    show f.members.insert (x.teamId, x.memberId) (memberDocument x) = _
    rw [h.members]
    exact (Dict.mapValues_insert ..).symm
  leaders := h.leaders
  bindings := h.bindings
  teamJson := h.teamJson
  memberJson key x' hget := by
    unfold InMemoryTeamStore.saveMember at hget
    rw [Dict.get?_insert] at hget
    split at hget
    · cases hget
      exact hx
    · exact h.memberJson key x' hget
  memberKey key x' hget := by
    unfold InMemoryTeamStore.saveMember at hget
    rw [Dict.get?_insert] at hget
    split at hget
    · next hkey =>
      cases hget
      exact hkey
    · exact h.memberKey key x' hget

theorem Related.insertBinding (h : Related m f) (leader : String)
    (b : TeamLeaderBinding) :
    Related { m with leaderBindings := m.leaderBindings.insert leader b }
      { f with leaders := f.leaders.insert leader (bindingDocument b) } where
  teams := h.teams
  members := h.members
  leaders leader' b' hget := by
    rw [Dict.get?_insert] at hget ⊢
    split at hget
    · next hleader =>
      cases hget
      rw [if_pos hleader]
    · next hleader =>
      rw [if_neg hleader]
      exact h.leaders leader' b' hget
  bindings leader' document hget := by
    rw [Dict.get?_insert] at hget
    split at hget
    · cases hget
      exact ⟨b, rfl⟩
    · exact h.bindings leader' document hget
  teamJson := h.teamJson
  memberJson := h.memberJson
  memberKey := h.memberKey

theorem Related.deleteLeaderBinding (h : Related m f) (leader : String) :
    Related (m.deleteLeaderBinding leader)
      (f.deleteLeaderBinding leader) where
  teams := h.teams
  members := h.members
  leaders leader' b hget := by
    unfold InMemoryTeamStore.deleteLeaderBinding at hget
    unfold FileBackedTeamStore.deleteLeaderBinding
    rw [Dict.get?_erase] at hget ⊢
    split at hget
    · cases hget
    · next hleader =>
      rw [if_neg hleader]
      exact h.leaders leader' b hget
  bindings leader' document hget := by
    unfold FileBackedTeamStore.deleteLeaderBinding at hget
    rw [Dict.get?_erase] at hget
    split at hget
    · cases hget
    · exact h.bindings leader' document hget
  teamJson := h.teamJson
  memberJson := h.memberJson
  memberKey := h.memberKey

theorem Related.purgeTeam (h : Related m f) (teamId : String) :
    Related (m.purgeTeam teamId) (f.rmtree teamId) where
  teams := by
    show f.teams.erase teamId = _
    rw [h.teams]
    exact (Dict.mapValues_erase ..).symm
  members := by
    show (f.members.filter fun key _ => key.1 ≠ teamId) = _
    rw [h.members]
    exact (Dict.mapValues_filter_keys ..).symm
  leaders leader b hget := h.leaders leader b
    (Dict.get?_filter_eq_some.1 hget).1
  bindings := h.bindings
  teamJson teamId' t hget := by
    unfold InMemoryTeamStore.purgeTeam at hget
    rw [Dict.get?_erase] at hget
    split at hget
    · cases hget
    · exact h.teamJson teamId' t hget
  memberJson key x hget := h.memberJson key x
    (Dict.get?_filter_eq_some.1 hget).1
  memberKey key x hget := h.memberKey key x
    (Dict.get?_filter_eq_some.1 hget).1

end Writing

-- ========== operations

section Operations

variable {m : InMemoryTeamStore} {f : FileBackedTeamStore}
  (foreign : PyVal → Option PyVal) (clock : Clock)

theorem writeTeam_eq (f : FileBackedTeamStore) {t : TeamRecord}
    (ht : t.Json) :
    f.writeTeam foreign t
      = some { f with
        teams := f.teams.insert t.teamId (teamDocument t) } := by
  unfold FileBackedTeamStore.writeTeam
  rw [dump_team foreign ht]
  rfl

theorem writeMember_eq (f : FileBackedTeamStore) {x : TeamMemberRecord}
    (hx : x.Json) :
    f.writeMember foreign x
      = some { f with
        members := f.members.insert (x.teamId, x.memberId)
          (memberDocument x) } := by
  unfold FileBackedTeamStore.writeMember
  rw [dump_member foreign hx]
  rfl

theorem writeBinding_eq (f : FileBackedTeamStore) (b : TeamLeaderBinding) :
    f.writeBinding foreign b
      = some { f with
        leaders := f.leaders.insert b.leaderSessionId
          (bindingDocument b) } := by
  unfold FileBackedTeamStore.writeBinding
  rw [dump_binding foreign b]
  rfl

theorem Related.leader_mem (h : Related m f) {leader : String}
    (hmem : leader ∈ m.leaderBindings.keys) : leader ∈ f.leaders.keys := by
  obtain ⟨b, hb⟩ := Dict.mem_keys_iff.1 hmem
  exact Dict.mem_keys_iff.2 ⟨_, h.leaders leader b hb⟩

/-- What `create_team` leaves in both stores, and when it returns the same
from both. -/
theorem Related.createTeam (h : Related m f) {t : TeamRecord}
    {leader : TeamMemberRecord} (ht : t.Json) (hleader : leader.Json) :
    ((f.createTeam foreign clock t leader).2
        = (m.createTeam clock t leader).2
      ↔ Agreeable m f (.createTeam t leader))
    ∧ (Agreeable m f (.createTeam t leader) →
      Related (m.createTeam clock t leader).1
        (f.createTeam foreign clock t leader).1) := by
  have hteams : f.teams.contains t.teamId = m.teams.contains t.teamId := by
    rw [h.teams, Dict.contains_mapValues]
  have hcondition : Agreeable m f (.createTeam t leader)
      ↔ m.teams.contains t.teamId = true
        ∨ m.leaderBindings.contains t.leaderSessionId = true
        ∨ ¬ f.leaders.contains t.leaderSessionId = true := by
    rw [Dict.contains_iff, Dict.contains_iff, Dict.contains_iff]
    exact Iff.rfl
  rw [hcondition]
  unfold FileBackedTeamStore.createTeam InMemoryTeamStore.createTeam
  rw [hteams]
  by_cases hteam : m.teams.contains t.teamId = true
  · rw [if_pos hteam, if_pos hteam]
    exact ⟨iff_of_true rfl (Or.inl hteam), fun _ => h⟩
  rw [if_neg hteam, if_neg hteam]
  by_cases hbound : m.leaderBindings.contains t.leaderSessionId = true
  · have hfile := Dict.contains_iff.2
      (h.leader_mem (Dict.contains_iff.1 hbound))
    rw [if_pos hbound, if_pos hfile]
    exact ⟨iff_of_true rfl (Or.inr (Or.inl hbound)), fun _ => h⟩
  rw [if_neg hbound]
  by_cases hfile : f.leaders.contains t.leaderSessionId = true
  · -- a binding file without its binding in memory
    rw [if_pos hfile]
    have hnot : ¬ (m.teams.contains t.teamId = true
        ∨ m.leaderBindings.contains t.leaderSessionId = true
        ∨ ¬ f.leaders.contains t.leaderSessionId = true) := by
      simp [hteam, hbound, hfile]
    refine ⟨iff_of_false (fun heq => ?_) hnot, fun hor => absurd hor hnot⟩
    cases heq
  · rw [if_neg hfile]
    simp only [writeTeam_eq foreign _ ht, writeMember_eq foreign _ hleader,
      writeBinding_eq]
    refine ⟨iff_of_true trivial (Or.inr (Or.inr hfile)), fun _ => ?_⟩
    exact ((h.insertTeam ht).insertMember hleader).insertBinding
      t.leaderSessionId (newBinding t clock)

theorem Related.activeTeam_of_bound (h : Related m f) {leader : String}
    {b : TeamLeaderBinding} (hb : m.leaderBindings.get? leader = some b) :
    ((f.activeTeamForLeaderSession clock leader).2
        = .team (m.activeTeamForLeaderSession leader).2
      ↔ ∀ t, m.teams.get? b.teamId = some t → t.active = true →
        t.readBack = t)
    ∧ Related (m.activeTeamForLeaderSession leader).1
        (f.activeTeamForLeaderSession clock leader).1 := by
  obtain ⟨read, hread, hteamId⟩ := readBinding_document b clock.first
  unfold FileBackedTeamStore.activeTeamForLeaderSession
    InMemoryTeamStore.activeTeamForLeaderSession
  simp only [hb, h.leaders leader b hb, hread, hteamId, h.loadTeam]
  cases ht : m.teams.get? b.teamId with
  | none =>
    refine ⟨iff_of_true rfl fun t ht' => ?_, h.deleteLeaderBinding leader⟩
    cases ht'
  | some t =>
    simp only [Option.map_some]
    by_cases hactive : t.active = true
    · have hback : t.readBack.active = true := hactive
      rw [if_pos hactive, if_pos hback]
      refine ⟨⟨fun heq t' ht' _ => ?_, fun hall => ?_⟩, h⟩
      · cases ht'
        exact Option.some.inj (StoreOutcome.team.inj heq)
      · exact congrArg (fun t => StoreOutcome.team (some t))
          (hall t rfl hactive)
    · have hback : ¬ t.readBack.active = true := hactive
      rw [if_neg hactive, if_neg hback]
      refine ⟨iff_of_true rfl fun t' ht' hactive' => ?_,
        h.deleteLeaderBinding leader⟩
      cases ht'
      exact absurd hactive' hactive

/-- `active_team_for_leader_session` on a session that is not bound in
memory. -/
theorem Related.activeTeam_of_unbound (h : Related m f) {leader : String}
    (hb : m.leaderBindings.get? leader = none) :
    ((f.activeTeamForLeaderSession clock leader).2
        = .team (m.activeTeamForLeaderSession leader).2
      ↔ ∀ b t, f.leaders.get? leader = some (bindingDocument b) →
          m.teams.get? b.teamId = some t → t.active = false)
    ∧ Related (m.activeTeamForLeaderSession leader).1
        (f.activeTeamForLeaderSession clock leader).1 := by
  have hdelete : Related m (f.deleteLeaderBinding leader) := by
    have herase : m.deleteLeaderBinding leader = m := by
      unfold InMemoryTeamStore.deleteLeaderBinding
      rw [Dict.erase_of_not_mem (Dict.get?_eq_none_iff.1 hb)]
    rw [← herase]
    exact h.deleteLeaderBinding leader
  unfold FileBackedTeamStore.activeTeamForLeaderSession
    InMemoryTeamStore.activeTeamForLeaderSession
  simp only [hb]
  cases hfile : f.leaders.get? leader with
  | none =>
    refine ⟨iff_of_true rfl fun b t hget => ?_, h⟩
    cases hget
  | some document =>
    obtain ⟨b, rfl⟩ := h.bindings leader document hfile
    obtain ⟨read, hread, hteamId⟩ := readBinding_document b clock.first
    -- the document tells which team it leads to
    have hsame : ∀ b', some (bindingDocument b)
        = some (bindingDocument b') → b'.teamId = b.teamId := by
      intro b' hget
      obtain ⟨read', hread', hteamId'⟩ :=
        readBinding_document b' clock.first
      rw [← Option.some.inj hget, hread] at hread'
      cases hread'
      exact hteamId'.symm.trans hteamId
    simp only [hread, hteamId, h.loadTeam]
    cases ht : m.teams.get? b.teamId with
    | none =>
      refine ⟨iff_of_true rfl fun b' t hget ht' => ?_, hdelete⟩
      rw [hsame b' hget, ht] at ht'
      cases ht'
    | some t =>
      simp only [Option.map_some]
      by_cases hactive : t.active = true
      · have hback : t.readBack.active = true := hactive
        rw [if_pos hback]
        refine ⟨iff_of_false (fun heq => ?_) fun hall => ?_, h⟩
        · cases heq
        · have hinactive := hall b t rfl ht
          rw [hactive] at hinactive
          cases hinactive
      · have hback : ¬ t.readBack.active = true := hactive
        rw [if_neg hback]
        refine ⟨iff_of_true rfl fun b' t' hget ht' => ?_, hdelete⟩
        rw [hsame b' hget, ht] at ht'
        cases ht'
        exact Bool.eq_false_iff.2 hactive

/-- What `active_team_for_leader_session` leaves in both stores, and when
it returns the same from both. -/
theorem Related.activeTeam (h : Related m f) (leader : String) :
    ((f.activeTeamForLeaderSession clock leader).2
        = .team (m.activeTeamForLeaderSession leader).2
      ↔ Agreeable m f (.activeTeamForLeaderSession leader))
    ∧ Related (m.activeTeamForLeaderSession leader).1
        (f.activeTeamForLeaderSession clock leader).1 := by
  cases hb : m.leaderBindings.get? leader with
  | some b =>
    obtain ⟨hiff, hrelated⟩ := h.activeTeam_of_bound clock hb
    have hbound : leader ∈ m.leaderBindings.keys :=
      Dict.mem_keys_iff.2 ⟨b, hb⟩
    refine ⟨hiff.trans ⟨fun hall => ?_, fun hag t => ?_⟩, hrelated⟩
    · refine ⟨fun b' t hb' => ?_, fun hnot => absurd hbound hnot⟩
      cases hb.symm.trans hb'
      exact hall t
    · exact hag.1 b t hb
  | none =>
    obtain ⟨hiff, hrelated⟩ := h.activeTeam_of_unbound clock hb
    refine ⟨hiff.trans ⟨fun hall => ?_, fun hag => ?_⟩, hrelated⟩
    · refine ⟨fun b t hb' => ?_, fun _ => hall⟩
      cases hb.symm.trans hb'
    · exact hag.2 (Dict.get?_eq_none_iff.1 hb)

theorem TeamMemberRecord.withStatus_inj {x y : TeamMemberRecord}
    {status : TeamMemberStatus} {removedAt now : Datetime}
    (hsaved : x.status = y.status ∧ x.removedAt = y.removedAt
      ∧ x.updatedAt = y.updatedAt)
    (h : x.withStatus status removedAt now
      = y.withStatus status removedAt now) : x = y := by
  obtain ⟨hstatus, hremoved, hupdated⟩ := hsaved
  cases x
  cases y
  simp only [TeamMemberRecord.withStatus, TeamMemberRecord.mk.injEq] at *
  exact ⟨h.1, h.2.1, h.2.2.1, h.2.2.2.1, hstatus, h.2.2.2.2.2.1,
    h.2.2.2.2.2.2.1, h.2.2.2.2.2.2.2.1, hupdated, hremoved,
    h.2.2.2.2.2.2.2.2.2.2.1, h.2.2.2.2.2.2.2.2.2.2.2.1,
    h.2.2.2.2.2.2.2.2.2.2.2.2⟩

/-- What `remove_member` leaves in both stores, and when it returns the
same from both. -/
theorem Related.removeMember (h : Related m f) (teamId memberId : String) :
    ((f.removeMember foreign clock teamId memberId).2
        = .member (m.removeMember clock teamId memberId).2
      ↔ Agreeable m f (.removeMember teamId memberId))
    ∧ (Agreeable m f (.removeMember teamId memberId) →
      Related (m.removeMember clock teamId memberId).1
        (f.removeMember foreign clock teamId memberId).1) := by
  have hcondition : Agreeable m f (.removeMember teamId memberId)
      ↔ ∀ x, m.members.get? (teamId, memberId) = some x → x.readBack = x :=
    Iff.rfl
  rw [hcondition]
  unfold FileBackedTeamStore.removeMember InMemoryTeamStore.removeMember
  simp only [h.loadMember]
  cases hx : m.members.get? (teamId, memberId) with
  | none =>
    refine ⟨iff_of_true rfl fun x hx' => ?_, fun _ => h⟩
    cases hx'
  | some x =>
    have hjson : (x.withStatus .removed clock.first clock.second).Json :=
      h.memberJson _ x hx
    have hback : (x.readBack.withStatus .removed clock.first
        clock.second).Json := h.memberJson _ x hx
    simp only [Option.map_some, writeMember_eq foreign _ hback,
      FileBackedTeamStore.afterWrite]
    refine ⟨⟨fun heq x' hx' => ?_, fun hall => ?_⟩, fun hall => ?_⟩
    · cases hx'
      exact TeamMemberRecord.withStatus_inj ⟨rfl, rfl, rfl⟩
        (Option.some.inj (StoreOutcome.member.inj heq))
    · rw [hall x rfl]
    · rw [hall x rfl]
      exact h.insertMember hjson

theorem outcomeOf_ok {α : Type} {a b : α} {wrap : α → StoreOutcome}
    (hinj : Function.Injective wrap) :
    FileBackedTeamStore.outcomeOf (.ok a) wrap = wrap b ↔ a = b :=
  ⟨fun h => hinj h, congrArg wrap⟩

theorem Related.outcome_eq_iff (h : Related m f) {call : StoreCall}
    (hcall : call.Json) :
    (f.handle foreign clock call).2 = (m.handle clock call).2
      ↔ Agreeable m f call := by
  cases call with
  | loadTeam teamId =>
    show FileBackedTeamStore.outcomeOf _ _ = StoreOutcome.team _ ↔ _
    rw [h.loadTeam, outcomeOf_ok fun _ _ => StoreOutcome.team.inj]
    exact map_eq_self_iff
  | createTeam t leader =>
    exact (h.createTeam foreign clock hcall.1 hcall.2).1
  | saveTeam t =>
    show (f.afterWrite (f.writeTeam foreign t) _).2 = _ ↔ _
    rw [writeTeam_eq foreign f hcall]
    exact iff_of_true rfl trivial
  | activeTeamForLeaderSession leader => exact (h.activeTeam clock leader).1
  | deleteLeaderBinding leader => exact iff_of_true rfl trivial
  | saveMember x =>
    show (f.afterWrite (f.writeMember foreign x) _).2 = _ ↔ _
    rw [writeMember_eq foreign f hcall]
    exact iff_of_true rfl trivial
  | loadMember teamId memberId =>
    show FileBackedTeamStore.outcomeOf _ _ = StoreOutcome.member _ ↔ _
    rw [h.loadMember, outcomeOf_ok fun _ _ => StoreOutcome.member.inj]
    exact map_eq_self_iff
  | listMembers teamId activeOnly includeLeader =>
    show FileBackedTeamStore.outcomeOf _ _ = StoreOutcome.members _ ↔ _
    rw [h.listMembers, outcomeOf_ok fun _ _ => StoreOutcome.members.inj]
    exact Sorting.insertionSort_filter_eq_iff (h.keyedCreation teamId)
      (h.keyedFile teamId) fun _ => rfl
  | findMemberByName teamId name =>
    show FileBackedTeamStore.outcomeOf _ _ = StoreOutcome.member _ ↔ _
    rw [h.findMemberByName, m.findMemberByName_eq,
      outcomeOf_ok fun _ _ => StoreOutcome.member.inj,
      Sorting.find?_insertionSort_eq_iff (f := TeamMemberRecord.readBack)
        (h.keyedCreation teamId) (h.keyedFile teamId) fun _ => rfl]
    simp only [Bool.and_eq_true, decide_eq_true_iff, and_imp]
    exact Iff.rfl
  | tombstoneTeam t =>
    show (f.tombstoneTeam foreign clock t).2 = _ ↔ _
    unfold FileBackedTeamStore.tombstoneTeam
    rw [writeTeam_eq foreign f (t := t.tombstone clock) hcall]
    exact iff_of_true rfl trivial
  | removeMember teamId memberId =>
    exact (h.removeMember foreign clock teamId memberId).1
  | purgeTeam teamId => exact iff_of_true rfl trivial

theorem Related.handle (h : Related m f) {call : StoreCall}
    (hcall : call.Json) (hag : Agreeable m f call) :
    Related (m.handle clock call).1 (f.handle foreign clock call).1 := by
  cases call with
  | loadTeam teamId => exact h
  | createTeam t leader =>
    exact (h.createTeam foreign clock hcall.1 hcall.2).2 hag
  | saveTeam t =>
    show Related _ (f.afterWrite (f.writeTeam foreign t) _).1
    rw [writeTeam_eq foreign f hcall]
    exact h.insertTeam hcall
  | activeTeamForLeaderSession leader => exact (h.activeTeam clock leader).2
  | deleteLeaderBinding leader => exact h.deleteLeaderBinding leader
  | saveMember x =>
    show Related _ (f.afterWrite (f.writeMember foreign x) _).1
    rw [writeMember_eq foreign f hcall]
    exact h.insertMember hcall
  | tombstoneTeam t =>
    show Related _ (f.tombstoneTeam foreign clock t).1
    unfold FileBackedTeamStore.tombstoneTeam
    rw [writeTeam_eq foreign f (t := t.tombstone clock) hcall]
    exact (h.insertTeam (t := t.tombstone clock) hcall).deleteLeaderBinding
      t.leaderSessionId
  | removeMember teamId memberId =>
    exact (h.removeMember foreign clock teamId memberId).2 hag
  | purgeTeam teamId => exact h.purgeTeam teamId
  | _ => exact h

end Operations

-- =============== a run

/-- A digit of a hexadecimal id. -/
def isHexDigit (c : Char) : Bool :=
  c.isDigit || ('a' ≤ c && c ≤ 'f') || ('A' ≤ c && c ≤ 'F')

/-- A hexadecimal id, as `uuid4().hex` is one. -/
def isHex (id : String) : Bool :=
  id ≠ "" && id.toList.all isHexDigit

/-- The ids an operation names files with. -/
def StoreCall.ids : StoreCall → List String
  | .loadTeam teamId => [teamId]
  | .createTeam team leader =>
    [team.teamId, team.leaderSessionId, leader.teamId, leader.memberId]
  | .saveTeam team => [team.teamId]
  | .activeTeamForLeaderSession leaderSessionId => [leaderSessionId]
  | .deleteLeaderBinding leaderSessionId => [leaderSessionId]
  | .saveMember member => [member.teamId, member.memberId]
  | .loadMember teamId memberId => [teamId, memberId]
  | .listMembers teamId _ _ => [teamId]
  | .findMemberByName teamId _ => [teamId]
  | .tombstoneTeam team => [team.teamId, team.leaderSessionId]
  | .removeMember teamId memberId => [teamId, memberId]
  | .purgeTeam teamId => [teamId]

/-- The operations the stores are compared on: hexadecimal ids and JSON
metadata. -/
def Comparable (call : Clock × StoreCall) : Prop :=
  call.2.Json ∧ ∀ id ∈ call.2.ids, isHex id = true

/-- The two stores side by side, given the same operations at the same
times. -/
def storePair (foreign : PyVal → Option PyVal) :
    System (InMemoryTeamStore × FileBackedTeamStore) (Clock × StoreCall) where
  step s call := some ((s.1.handle call.1 call.2).1,
    (s.2.handle foreign call.1 call.2).1)

/-- Two stores nothing has been given to yet. -/
def freshStores : InMemoryTeamStore × FileBackedTeamStore := (.empty, .empty)

/-- Both stores return the same, or raise the same. -/
def SameOutcome (foreign : PyVal → Option PyVal)
    (s : InMemoryTeamStore × FileBackedTeamStore)
    (call : Clock × StoreCall) : Prop :=
  (s.2.handle foreign call.1 call.2).2 = (s.1.handle call.1 call.2).2

/-- Over every run of operations the two stores return the same exactly
when every operation is agreeable. -/
theorem teamStores_agree_iff (foreign : PyVal → Option PyVal)
    (calls : List (Clock × StoreCall))
    (hcalls : ∀ call ∈ calls, Comparable call) :
    (∀ s call s', (storePair foreign).Takes freshStores calls s call s' →
        SameOutcome foreign s call)
      ↔ ∀ s call s', (storePair foreign).Takes freshStores calls s call s' →
        Agreeable s.1 s.2 call.2 := by
  refine System.takes_iff_takes_of_mem (D := Comparable)
    (I := fun s => Related s.1 s.2) ?_ ?_ Related.start hcalls
  · intro s call s' hs hcall hstep hag
    cases hstep
    exact hs.handle foreign call.1 hcall.1 hag
  · intro s call s' hs hcall _
    exact hs.outcome_eq_iff foreign call.1 hcall.1

-- ==== a purged team's leader

def newYearClock : Clock := ⟨newYear, newYear⟩

def sampleTeam (teamId : String) : TeamRecord where
  teamId := teamId
  leaderSessionId := "c1"
  leaderMemberId := "b1"
  name := none
  status := .active
  createdAt := newYear
  updatedAt := newYear
  deletedAt := none
  contextMetadata := []
  schemaVersion := 1

def sampleLeader (teamId : String) : TeamMemberRecord where
  teamId := teamId
  memberId := "b1"
  name := "lead"
  role := .leader
  status := .active
  agentName := none
  sessionId := some "c1"
  createdAt := newYear
  updatedAt := newYear
  removedAt := none
  executionDefaults := []
  metadata := []
  schemaVersion := 1

def createSample (teamId : String) : Clock × StoreCall :=
  (newYearClock, .createTeam (sampleTeam teamId) (sampleLeader teamId))

def purgeSample (teamId : String) : Clock × StoreCall :=
  (newYearClock, .purgeTeam teamId)

theorem isHex_sample : isHex "a1" = true ∧ isHex "a2" = true := by decide

theorem comparable_createSample {teamId : String} (h : isHex teamId = true) :
    Comparable (createSample teamId) := by
  have hempty : JsonFields [] := ⟨rfl, rfl⟩
  have hleader : isHex "c1" = true ∧ isHex "b1" = true := by decide
  refine ⟨⟨hempty, hempty, hempty⟩, fun id hid => ?_⟩
  simp only [createSample, StoreCall.ids, sampleTeam, sampleLeader,
    List.mem_cons, List.not_mem_nil, or_false] at hid
  rcases hid with rfl | rfl | rfl | rfl
  · exact h
  · exact hleader.1
  · exact h
  · exact hleader.2

theorem comparable_purgeSample {teamId : String} (h : isHex teamId = true) :
    Comparable (purgeSample teamId) := by
  refine ⟨trivial, fun id hid => ?_⟩
  rw [List.mem_singleton.1 hid]
  exact h

theorem teamStores_agree_sample :
    (∀ call ∈ [createSample "a1", purgeSample "a1"], Comparable call)
    ∧ ∀ s call s', (storePair fun _ => none).Takes freshStores
        [createSample "a1", purgeSample "a1"] s call s' →
        SameOutcome (fun _ => none) s call := by
  have hcalls : ∀ call ∈ [createSample "a1", purgeSample "a1"],
      Comparable call := by
    intro call hcall
    rcases List.mem_cons.1 hcall with rfl | hcall
    · exact comparable_createSample isHex_sample.1
    · rw [List.mem_singleton.1 hcall]
      exact comparable_purgeSample isHex_sample.1
  refine ⟨hcalls, (teamStores_agree_iff (fun _ => none) _ hcalls).2 ?_⟩
  intro s call s' htake
  rcases (System.takes_cons rfl).1 htake with ⟨rfl, rfl, -⟩ | htake
  · exact Or.inr (Or.inr List.not_mem_nil)
  rcases (System.takes_cons rfl).1 htake with ⟨rfl, rfl, -⟩ | htake
  · trivial
  · obtain ⟨p, q, heq, -⟩ := htake
    cases p <;> cases heq

/-- After a purge the leader's session leads no team in memory, and its
binding file stays. -/
theorem teamStores_disagree_after_purge :
    (∀ call ∈ [createSample "a1", purgeSample "a1", createSample "a2"],
      Comparable call)
    ∧ ¬ ∀ s call s', (storePair fun _ => none).Takes freshStores
        [createSample "a1", purgeSample "a1", createSample "a2"] s call s' →
        SameOutcome (fun _ => none) s call := by
  have hfirst : Comparable (createSample "a1") :=
    comparable_createSample isHex_sample.1
  have hsecond : Comparable (createSample "a2") :=
    comparable_createSample isHex_sample.2
  refine ⟨fun call hcall => ?_, fun hall => ?_⟩
  · rcases List.mem_cons.1 hcall with rfl | hcall
    · exact hfirst
    · rcases List.mem_cons.1 hcall with rfl | hcall
      · exact comparable_purgeSample isHex_sample.1
      · rw [List.mem_singleton.1 hcall]
        exact hsecond
  · have hcreated := Related.start.handle (fun _ => none) newYearClock
      hfirst.1
      (Or.inr (Or.inr List.not_mem_nil))
    have hpurged := hcreated.purgeTeam "a1"
    have hag := (hpurged.outcome_eq_iff (fun _ => none) newYearClock
      hsecond.1).1
      (hall _ (createSample "a2") _
        ⟨[createSample "a1", purgeSample "a1"], [], rfl, rfl, rfl⟩)
    -- the binding file of the purged team is still there
    rcases hag with hteam | hbound | hfile
    · exact List.not_mem_nil hteam
    · exact List.not_mem_nil hbound
    · exact hfile (List.mem_singleton.2 rfl)

end WeaveRuntime.Teams
