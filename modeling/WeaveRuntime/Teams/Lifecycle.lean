/-
What a deleted team leaves behind.

`StoreOk` is the invariant of the store on its own: every binding leads to
an active team of its session, every active team has its binding, and the
names of active members are unique within a team. `RunnerOk` ties the
runner to it: who is registered is an active teammate, and a drain task
runs for a registered teammate only.

The members of a deleted team are retired by the operation that deleted
it, or owed by another operation that is still removing them (`owed`). Two
kinds of steps break this and nothing else does: closing a team with a
member the closing operation has not listed and no other operation is
removing, and giving up a removal that is owed. A third kind breaks the
bindings: closing a team a second time, after its session has come to lead
another one (`Orderly`).
-/
import WeaveRuntime.Teams.ControlPlane

namespace WeaveRuntime.Teams

open Lib Python
open Jobs (Fields getField)

-- ===== the store alone

/-- The invariant of the store. -/
structure StoreOk (m : InMemoryTeamStore) : Prop where
  teamKey : ∀ id t, m.teams.get? id = some t → t.teamId = id
  memberKey : ∀ key x, m.members.get? key = some x →
    key = (x.teamId, x.memberId)
  binding : ∀ session b, m.leaderBindings.get? session = some b →
    ∃ t, m.teams.get? b.teamId = some t ∧ t.active = true
      ∧ t.leaderSessionId = session
  bound : ∀ id t, m.teams.get? id = some t → t.active = true →
    ∃ b, m.leaderBindings.get? t.leaderSessionId = some b ∧ b.teamId = id
  names : ∀ key key' x x', m.members.get? key = some x →
    m.members.get? key' = some x' → key.1 = key'.1 → x.active = true →
    x'.active = true → x.name = x'.name → key = key'
  leader : ∀ id t, m.teams.get? id = some t →
    ∃ x, m.members.get? (id, t.leaderMemberId) = some x ∧ x.role = .leader

/-- A store after removals: the members under some keys are no longer
active, and the rest is as it was. -/
structure Retires (P : String × String → Prop) (m m' : InMemoryTeamStore) :
    Prop where
  teams : m'.teams = m.teams
  leaderBindings : m'.leaderBindings = m.leaderBindings
  kept : ∀ key, ¬ P key → m'.members.get? key = m.members.get? key
  gone : ∀ key x', P key → m'.members.get? key = some x' →
    x'.active = false
  back : ∀ key x', m'.members.get? key = some x' →
    ∃ x, m.members.get? key = some x ∧ x'.teamId = x.teamId
      ∧ x'.memberId = x.memberId ∧ x'.name = x.name ∧ x'.role = x.role
      ∧ (x'.active = true → x.active = true)
  forth : ∀ key x, m.members.get? key = some x →
    ∃ x', m'.members.get? key = some x' ∧ x'.role = x.role

namespace Retires

variable {P Q : String × String → Prop} {m m' m'' : InMemoryTeamStore}

theorem refl (m : InMemoryTeamStore) : Retires (fun _ => False) m m where
  teams := rfl
  leaderBindings := rfl
  kept _ _ := rfl
  gone _ _ h := h.elim
  back _ x' h := ⟨x', h, rfl, rfl, rfl, rfl, id⟩
  forth _ x h := ⟨x, h, rfl⟩

theorem trans (h : Retires P m m') (h' : Retires Q m' m'') :
    Retires (fun key => P key ∨ Q key) m m'' where
  teams := h'.teams.trans h.teams
  leaderBindings := h'.leaderBindings.trans h.leaderBindings
  kept key hkey := (h'.kept key fun hq => hkey (Or.inr hq)).trans
    (h.kept key fun hp => hkey (Or.inl hp))
  gone key x hkey hx := by
    by_cases hq : Q key
    · exact h'.gone key x hq hx
    · rw [h'.kept key hq] at hx
      exact h.gone key x (hkey.resolve_right hq) hx
  back key x'' hx'' := by
    obtain ⟨x', hx', hteam', hid', hname', hrole', hactive'⟩ :=
      h'.back key x'' hx''
    obtain ⟨x, hx, hteam, hid, hname, hrole, hactive⟩ := h.back key x' hx'
    exact ⟨x, hx, hteam'.trans hteam, hid'.trans hid, hname'.trans hname,
      hrole'.trans hrole, fun ha => hactive (hactive' ha)⟩
  forth key x hx := by
    obtain ⟨x', hx', hrole⟩ := h.forth key x hx
    obtain ⟨x'', hx'', hrole'⟩ := h'.forth key x' hx'
    exact ⟨x'', hx'', hrole'.trans hrole⟩

theorem congr (h : Retires P m m') (heq : ∀ key, P key ↔ Q key) :
    Retires Q m m' := by
  have hPQ : P = Q := funext fun key => propext (heq key)
  rw [← hPQ]
  exact h

theorem storeOk (h : Retires P m m') (hm : StoreOk m) : StoreOk m' where
  teamKey id t ht := hm.teamKey id t (h.teams ▸ ht)
  memberKey key x' hx' := by
    obtain ⟨x, hx, hteam, hid, -⟩ := h.back key x' hx'
    rw [hteam, hid]
    exact hm.memberKey key x hx
  binding session b hb := by
    rw [h.teams]
    exact hm.binding session b (h.leaderBindings ▸ hb)
  bound id t ht ha := by
    rw [h.leaderBindings]
    exact hm.bound id t (h.teams ▸ ht) ha
  names key key' x x' hx hx' hteam ha ha' hname := by
    obtain ⟨y, hy, -, -, hn, -, hya⟩ := h.back key x hx
    obtain ⟨y', hy', -, -, hn', -, hya'⟩ := h.back key' x' hx'
    refine hm.names key key' y y' hy hy' hteam (hya ha) (hya' ha') ?_
    exact hn.symm.trans (hname.trans hn')
  leader id t ht := by
    obtain ⟨x, hx, hrole⟩ := hm.leader id t (h.teams ▸ ht)
    obtain ⟨x', hx', hrole'⟩ := h.forth _ x hx
    exact ⟨x', hx', hrole'.trans hrole⟩

end Retires

variable {m m' : InMemoryTeamStore} {x : TeamMemberRecord}

theorem retires_removeMember (hkey : ∀ key x, m.members.get? key = some x →
      key = (x.teamId, x.memberId)) (clock : Clock)
    (teamId memberId : String) :
    Retires (fun key => key = (teamId, memberId)) m
      (m.removeMember clock teamId memberId).1 := by
  unfold InMemoryTeamStore.removeMember
  cases hx : m.members.get? (teamId, memberId) with
  | none =>
    refine ⟨rfl, rfl, fun _ _ => rfl, fun key x' hk hx' => ?_,
      fun _ x' h => ⟨x', h, rfl, rfl, rfl, rfl, id⟩,
      fun _ x h => ⟨x, h, rfl⟩⟩
    rw [hk, hx] at hx'
    cases hx'
  | some x =>
    have hown : (x.teamId, x.memberId) = (teamId, memberId) :=
      (hkey _ x hx).symm
    have hget : ∀ key, (m.saveMember (x.withStatus .removed clock.first
        clock.second)).members.get? key
        = if key = (teamId, memberId) then
            some (x.withStatus .removed clock.first clock.second)
          else m.members.get? key := by
      intro key
      rw [← hown]
      exact Dict.get?_insert ..
    refine ⟨rfl, rfl, fun key hk => ?_, fun key x' hk hx' => ?_,
      fun key x' hx' => ?_, fun key y hy => ?_⟩
    · exact (hget key).trans (if_neg hk)
    · rw [hget, if_pos hk] at hx'
      cases hx'
      rfl
    · rw [hget] at hx'
      split at hx'
      · next hk =>
        cases hx'
        rw [hk]
        exact ⟨x, hx, rfl, rfl, rfl, rfl, fun h => by cases h⟩
      · exact ⟨x', hx', rfl, rfl, rfl, rfl, id⟩
    · rw [hget]
      by_cases hk : key = (teamId, memberId)
      · rw [if_pos hk]
        rw [hk, hx] at hy
        cases hy
        exact ⟨_, rfl, rfl⟩
      · rw [if_neg hk]
        exact ⟨y, hy, rfl⟩

/-- The members `delete_team` removes from the store before it closes the
team. -/
theorem retires_removeListed {teamId leaderId : String}
    {members : List TeamMemberRecord} (clocks : Nat → Clock)
    (hm : StoreOk m) :
    Retires (fun key => ∃ x ∈ members, x.memberId ≠ leaderId
        ∧ key = (teamId, x.memberId)) m
      (Plane.removeListed teamId leaderId clocks m members) := by
  induction members generalizing m clocks with
  | nil =>
    refine (Retires.refl m).congr fun key => ?_
    simp
  | cons x members ih =>
    unfold Plane.removeListed
    by_cases hleader : x.memberId = leaderId
    · rw [if_pos hleader]
      refine (ih (fun n => clocks (n + 1)) hm).congr fun key => ?_
      simp [hleader]
    · rw [if_neg hleader]
      have hfirst := retires_removeMember hm.memberKey (clocks 0) teamId
        x.memberId
      refine (hfirst.trans (ih (fun n => clocks (n + 1))
        (hfirst.storeOk hm))).congr fun key => ?_
      simp [hleader]

-- ============= lookups

def ActiveTeam (m : InMemoryTeamStore) (t : TeamRecord) : Prop :=
  m.teams.get? t.teamId = some t ∧ t.active = true

theorem activeTeamForLeaderSession_eq (hm : StoreOk m) (session : String) :
    (m.activeTeamForLeaderSession session = (m, none)
        ∧ m.leaderBindings.get? session = none)
      ∨ ∃ t, m.activeTeamForLeaderSession session = (m, some t)
        ∧ ActiveTeam m t := by
  unfold InMemoryTeamStore.activeTeamForLeaderSession
  cases hb : m.leaderBindings.get? session with
  | none => exact Or.inl ⟨rfl, rfl⟩
  | some b =>
    obtain ⟨t, ht, hactive, -⟩ := hm.binding session b hb
    refine Or.inr ⟨t, ?_, ?_, hactive⟩
    · simp only [ht, if_pos hactive]
    · rw [hm.teamKey _ t ht]
      exact ht

theorem resolveActor_eq (hm : StoreOk m) (session : String)
    (extensions : Fields) :
    ∃ actor, resolveActor m session extensions = (m, actor)
      ∧ ∀ t, actor.team = some t → ActiveTeam m t := by
  unfold resolveActor
  cases hnamed : (coerceOptionalString (getField extensions "team_id")).bind
      fun teamId => (m.teams.get? teamId).filter TeamRecord.active with
  | some t =>
    refine ⟨_, rfl, fun t' ht' => ?_⟩
    cases ht'
    obtain ⟨teamId, -, hfound⟩ := Option.bind_eq_some_iff.1 hnamed
    obtain ⟨ht, hactive⟩ := Option.filter_eq_some_iff.1 hfound
    rw [← hm.teamKey teamId t ht] at ht
    exact ⟨ht, hactive⟩
  | none =>
    rcases activeTeamForLeaderSession_eq hm session with
      ⟨heq, -⟩ | ⟨t, heq, ht⟩
    · simp only [heq]
      refine ⟨_, rfl, fun t' ht' => ?_⟩
      cases ht'
    · simp only [heq]
      refine ⟨_, rfl, fun t' ht' => ?_⟩
      cases ht'
      exact ht

theorem requireLeader_ok {actor : TeamActor} {t : TeamRecord}
    (h : requireLeader actor = .ok (t, x)) : actor.team = some t := by
  unfold requireLeader at h
  split at h
  · next team member hteam _ =>
    split at h
    · cases h
      exact hteam
    · cases h
  · cases h

theorem name_ne_of_findMemberByName {teamId name : String}
    (h : m.findMemberByName teamId name = none) {key : String × String}
    (hx : m.members.get? key = some x) (hteam : key.1 = teamId)
    (hactive : x.active = true) : x.name ≠ name := by
  intro hname
  rw [m.findMemberByName_eq, List.find?_eq_none] at h
  refine h x ?_ ?_
  · rw [List.mem_insertionSort]
    unfold InMemoryTeamStore.membersOf
    refine List.mem_map.2 ⟨(key, x), ?_, rfl⟩
    rw [List.mem_filter, decide_eq_true_iff]
    exact ⟨Dict.get?_eq_some_iff.1 hx, hteam⟩
  · rw [hactive, hname]
    simp

theorem mem_listMembers (hm : StoreOk m) {teamId : String} :
    x ∈ m.listMembers teamId true true
      ↔ m.members.get? (teamId, x.memberId) = some x
        ∧ x.active = true := by
  unfold InMemoryTeamStore.listMembers InMemoryTeamStore.membersOf
  rw [List.mem_filter, List.mem_insertionSort, List.mem_map]
  simp only [List.mem_filter, decide_eq_true_iff, listed, Bool.not_true,
    Bool.false_or, Bool.true_or, Bool.and_true]
  refine and_congr_left fun _ => ⟨fun h => ?_, fun h => ?_⟩
  · obtain ⟨e, ⟨he, hteam⟩, rfl⟩ := h
    have hget := Dict.get?_eq_some_iff.2 he
    have hkey : e.1 = (teamId, e.2.memberId) := by
      refine Prod.ext hteam ?_
      rw [hm.memberKey e.1 e.2 hget]
    rw [hkey] at hget
    exact hget
  · exact ⟨((teamId, x.memberId), x), ⟨Dict.get?_eq_some_iff.1 h, rfl⟩, rfl⟩

-- ============= writing

theorem storeOk_saveMember (hm : StoreOk m)
    (hname : ∀ key y, m.members.get? key = some y → key.1 = x.teamId →
      y.active = true → y.name ≠ x.name)
    (hrole : ∀ t, m.teams.get? x.teamId = some t →
      t.leaderMemberId = x.memberId → x.role = .leader) :
    StoreOk (m.saveMember x) := by
  have hget : ∀ key, (m.saveMember x).members.get? key
      = if key = (x.teamId, x.memberId) then some x
        else m.members.get? key := fun key => Dict.get?_insert ..
  refine ⟨hm.teamKey, fun key y hy => ?_, hm.binding, hm.bound,
    fun key key' y y' hy hy' hteam ha ha' hn => ?_, fun id t ht => ?_⟩
  · rw [hget] at hy
    split at hy
    · next hk =>
      cases hy
      exact hk
    · exact hm.memberKey key y hy
  · rw [hget] at hy hy'
    split at hy
    · next hk =>
      split at hy'
      · next hk' => exact hk.trans hk'.symm
      · cases hy
        refine absurd hn.symm (hname key' y' hy' ?_ ha')
        rw [← hteam, hk]
    · split at hy'
      · next hk' =>
        cases hy'
        refine absurd hn (hname key y hy ?_ ha)
        rw [hteam, hk']
      · exact hm.names key key' y y' hy hy' hteam ha ha' hn
  · rw [hget]
    by_cases hk : (id, t.leaderMemberId) = (x.teamId, x.memberId)
    · rw [if_pos hk]
      have hid : id = x.teamId := congrArg Prod.fst hk
      exact ⟨x, rfl, hrole t (hid ▸ ht) (congrArg Prod.snd hk)⟩
    · rw [if_neg hk]
      exact hm.leader id t ht

theorem storeOk_createTeam (hm : StoreOk m) {t : TeamRecord}
    {leader : TeamMemberRecord} (clock : Clock)
    (hteam : m.teams.get? t.teamId = none)
    (hbinding : m.leaderBindings.get? t.leaderSessionId = none)
    (hmembers : ∀ key x, m.members.get? key = some x → key.1 ≠ t.teamId)
    (hactive : t.active = true)
    (hleader : leader.teamId = t.teamId ∧ leader.memberId = t.leaderMemberId
      ∧ leader.role = .leader) :
    ∃ m', m.createTeam clock t leader = (m', .team (some t))
      ∧ StoreOk m'
      ∧ (∀ id t', m'.teams.get? id = some t' →
        t'.active = true ∨ m.teams.get? id = some t')
      ∧ (∀ key, key ≠ (t.teamId, t.leaderMemberId) →
        m'.members.get? key = m.members.get? key)
      ∧ (∀ id t', m.teams.get? id = some t' → m'.teams.get? id = some t') := by
  obtain ⟨hleaderTeam, hleaderId, hleaderRole⟩ := hleader
  have hnoTeam : ¬ m.teams.contains t.teamId = true := by
    rw [Dict.contains_iff]
    exact Dict.get?_eq_none_iff.1 hteam
  have hnoBinding : ¬ m.leaderBindings.contains t.leaderSessionId = true := by
    rw [Dict.contains_iff]
    exact Dict.get?_eq_none_iff.1 hbinding
  unfold InMemoryTeamStore.createTeam
  rw [if_neg hnoTeam, if_neg hnoBinding]
  refine ⟨_, rfl, ?_, fun id t' ht' => ?_, fun key hkey => ?_,
    fun id t' ht' => ?_⟩
  · -- the leader first, then the team and its binding
    have hled : StoreOk (m.saveMember leader) := by
      refine storeOk_saveMember hm (fun key y hy hk => ?_) fun t' ht' _ => ?_
      · exact absurd (hk.trans hleaderTeam) (hmembers key y hy)
      · rw [hleaderTeam, hteam] at ht'
        cases ht'
    refine ⟨fun id t' ht' => ?_, hled.memberKey, fun session b hb => ?_,
      fun id t' ht' ha => ?_, hled.names, fun id t' ht' => ?_⟩
    · have hget : (m.teams.insert t.teamId t).get? id = some t' := ht'
      rw [Dict.get?_insert] at hget
      split at hget
      · next hid =>
        cases hget
        exact hid.symm
      · exact hm.teamKey id t' hget
    · show ∃ t', (m.teams.insert t.teamId t).get? b.teamId = some t' ∧ _
      have hget : (m.leaderBindings.insert t.leaderSessionId
        (newBinding t clock)).get? session = some b := hb
      rw [Dict.get?_insert] at hget
      split at hget
      · next hsession =>
        cases hget
        exact ⟨t, Dict.get?_insert_self .., hactive, hsession.symm⟩
      · obtain ⟨t', ht', hrest⟩ := hm.binding session b hget
        refine ⟨t', ?_, hrest⟩
        rw [Dict.get?_insert_of_ne]
        · exact ht'
        · intro heq
          rw [heq, hteam] at ht'
          cases ht'
    · show ∃ b, (m.leaderBindings.insert t.leaderSessionId _).get?
        t'.leaderSessionId = some b ∧ _
      have hget : (m.teams.insert t.teamId t).get? id = some t' := ht'
      rw [Dict.get?_insert] at hget
      split at hget
      · next hid =>
        cases hget
        exact ⟨_, Dict.get?_insert_self .., hid.symm⟩
      · obtain ⟨b, hb, hid⟩ := hm.bound id t' hget ha
        refine ⟨b, ?_, hid⟩
        rw [Dict.get?_insert_of_ne]
        · exact hb
        · intro heq
          rw [heq, hbinding] at hb
          cases hb
    · have hget : (m.teams.insert t.teamId t).get? id = some t' := ht'
      rw [Dict.get?_insert] at hget
      split at hget
      · next hid =>
        cases hget
        refine ⟨leader, ?_, hleaderRole⟩
        rw [hid, ← hleaderTeam, ← hleaderId]
        exact Dict.get?_insert_self ..
      · exact hled.leader id t' hget
  · have ht'' : (m.teams.insert t.teamId t).get? id = some t' := ht'
    rw [Dict.get?_insert] at ht''
    split at ht''
    · cases ht''
      exact Or.inl hactive
    · exact Or.inr ht''
  · refine Dict.get?_insert_of_ne _ _ ?_
    rw [hleaderTeam, hleaderId]
    exact hkey
  · show (m.teams.insert t.teamId t).get? id = some t'
    rw [Dict.get?_insert_of_ne]
    · exact ht'
    · intro heq
      rw [heq, hteam] at ht'
      cases ht'

/-- The store knows the team of an operation. -/
def Known (m : InMemoryTeamStore) (team : TeamRecord) : Prop :=
  ∃ t, m.teams.get? team.teamId = some t
    ∧ t.leaderMemberId = team.leaderMemberId
    ∧ t.leaderSessionId = team.leaderSessionId

theorem storeOk_tombstoneTeam (hm : StoreOk m) {team : TeamRecord}
    (clock : Clock) (hknown : Known m team)
    (hbinding : ∀ b, m.leaderBindings.get? team.leaderSessionId = some b →
      b.teamId = team.teamId) : StoreOk (m.tombstoneTeam clock team) := by
  obtain ⟨known, hget, hleaderId, hsession⟩ := hknown
  have hteams : ∀ id, (m.tombstoneTeam clock team).teams.get? id
      = if id = team.teamId then some (team.tombstone clock)
        else m.teams.get? id := fun id => Dict.get?_insert ..
  have hbindings : ∀ session,
      (m.tombstoneTeam clock team).leaderBindings.get? session
      = if session = team.leaderSessionId then none
        else m.leaderBindings.get? session := fun session =>
    Dict.get?_erase ..
  refine ⟨fun id t ht => ?_, hm.memberKey, fun session b hb => ?_,
    fun id t ht ha => ?_, hm.names, fun id t ht => ?_⟩
  · rw [hteams] at ht
    split at ht
    · next hid =>
      cases ht
      exact hid.symm
    · exact hm.teamKey id t ht
  · rw [hbindings] at hb
    split at hb
    · cases hb
    · next hne =>
      obtain ⟨t, ht, hactive, hleads⟩ := hm.binding session b hb
      refine ⟨t, ?_, hactive, hleads⟩
      rw [hteams, if_neg]
      · exact ht
      · -- a binding to this team is the one of its session
        intro hid
        rw [hid, hget] at ht
        cases ht
        exact hne (hleads.symm.trans hsession)
  · rw [hteams] at ht
    split at ht
    · cases ht
      cases ha
    · next hid =>
      obtain ⟨b, hb, hteam⟩ := hm.bound id t ht ha
      refine ⟨b, ?_, hteam⟩
      rw [hbindings, if_neg]
      · exact hb
      · intro heq
        rw [heq] at hb
        exact hid (hteam.symm.trans (hbinding b hb))
  · rw [hteams] at ht
    split at ht
    · next hid =>
      cases ht
      obtain ⟨x, hx, hrole⟩ := hm.leader team.teamId known hget
      rw [hleaderId, ← hid] at hx
      exact ⟨x, hx, hrole⟩
    · exact hm.leader id t ht

-- ========== the runner

/-- Who is registered is an active teammate, and a drain task runs for a
registered teammate. -/
structure RunnerOk (m : InMemoryTeamStore) (r : Runner) : Prop where
  registered : ∀ key ∈ r.registered, ∃ x, m.members.get? key = some x
    ∧ x.active = true ∧ x.role = .teammate
  drains : ∀ key ∈ r.drainTasks, key ∈ r.registered

/-- A runner that knows no more than another. -/
structure Shrinks (r r' : Runner) : Prop where
  registered : r'.registered = r.registered
  drainTasks : ∀ key ∈ r'.drainTasks, key ∈ r.drainTasks

section Runner

variable {m : InMemoryTeamStore} {r r' : Runner} {key : String × String}

theorem Shrinks.refl (r : Runner) : Shrinks r r := ⟨rfl, fun _ => id⟩

theorem shrinks_dropDrain (r : Runner) (key : String × String) :
    Shrinks r (r.dropDrain key) :=
  ⟨rfl, fun _ h => (List.mem_filter.1 h).1⟩

theorem notMem_dropDrain (r : Runner) (key : String × String) :
    key ∉ (r.dropDrain key).drainTasks := by
  intro h
  have hne := (List.mem_filter.1 h).2
  simp at hne

theorem RunnerOk.shrinks (h : RunnerOk m r) (hr : Shrinks r r') :
    RunnerOk m r' where
  registered k hk := h.registered k (hr.registered ▸ hk)
  drains k hk := by
    rw [hr.registered]
    exact h.drains k (hr.drainTasks k hk)

theorem RunnerOk.unregister (h : RunnerOk m r) (hkey : key ∉ r.drainTasks) :
    RunnerOk m (r.unregister key) where
  registered k hk := h.registered k (List.mem_filter.1 hk).1
  drains k hk := by
    refine List.mem_filter.2 ⟨h.drains k hk, decide_eq_true ?_⟩
    intro heq
    exact hkey (heq ▸ hk)

theorem beginRemoval_spec {workflows : Bool} {stage : Stage}
    (h : r.beginRemoval workflows key = (r', stage)) :
    Shrinks r r' ∧ (stage.detached = true → key ∉ r'.drainTasks) := by
  unfold Runner.beginRemoval at h
  split at h
  · cases h
    exact ⟨Shrinks.refl r, fun hd => by cases hd⟩
  · split at h
    · cases h
      exact ⟨shrinks_dropDrain r key, fun _ => notMem_dropDrain r key⟩
    · next hkey =>
      cases h
      exact ⟨Shrinks.refl r, fun _ hmem => hkey (hasKey_iff.2 hmem)⟩

theorem resumeRemoval_some {view : ShutdownView} {stage stage' : Stage}
    (h : r.resumeRemoval key view stage = (r', some stage'))
    (hstage : stage.detached = true → key ∉ r.drainTasks) :
    Shrinks r r' ∧ (stage'.detached = true → key ∉ r'.drainTasks) := by
  have hattached : ∀ attached,
      (Runner.afterAcknowledged attached).detached = false := by
    intro attached
    cases attached <;> rfl
  cases stage with
  | cancelling =>
    cases h
    exact ⟨Shrinks.refl r, fun _ => hstage rfl⟩
  | requesting =>
    simp only [Runner.resumeRemoval] at h
    split at h
    · cases h
      exact ⟨Shrinks.refl r, fun hd => by cases hd⟩
    · cases h
      refine ⟨Shrinks.refl r, fun hd => ?_⟩
      rw [hattached] at hd
      cases hd
  | acknowledging attached =>
    cases h
    refine ⟨Shrinks.refl r, fun hd => ?_⟩
    rw [hattached] at hd
    cases hd
  | completing =>
    cases h
    exact ⟨Shrinks.refl r, fun hd => by cases hd⟩
  | waiting =>
    simp only [Runner.resumeRemoval] at h
    split at h <;> cases h <;>
      exact ⟨shrinks_dropDrain r key, fun _ => notMem_dropDrain r key⟩
  | reaping =>
    cases h
    exact ⟨Shrinks.refl r, fun _ => hstage rfl⟩
  | stopping => cases h

theorem resumeRemoval_none {view : ShutdownView} {stage : Stage}
    (h : r.resumeRemoval key view stage = (r', none)) :
    stage = .stopping ∧ r' = r.unregister key := by
  cases stage with
  | stopping =>
    cases h
    exact ⟨rfl, rfl⟩
  | waiting =>
    simp only [Runner.resumeRemoval] at h
    split at h <;> cases h
  | requesting =>
    simp only [Runner.resumeRemoval] at h
    split at h <;> cases h
  | _ => cases h

end Runner

-- ====== the operations

/-- A teammate is being removed and has lost its drain task. -/
def Progress.Detaches : Progress → String × String → Prop
  | .removing team member stage, key =>
    stage.detached = true ∧ key = (team.teamId, member.memberId)
  | .deleting team _ member _ stage, key =>
    stage.detached = true ∧ key = (team.teamId, member.memberId)
  | _, _ => False

/-- The members an operation removes when it goes on. -/
def Progress.Removes : Progress → String × String → Prop
  | .removing team member _, key => key = (team.teamId, member.memberId)
  | .deleting team members _ _ _, key =>
    key.1 = team.teamId
      ∧ ((∃ x ∈ members, x.memberId = key.2)
        ∨ key.2 = team.leaderMemberId)
  | _, _ => False

/-- The shutdown of a team: its members are in the store, and those not
`left` are off the registry. -/
structure Shutting (m : InMemoryTeamStore) (r : Runner) (team : TeamRecord)
    (members left : List TeamMemberRecord) : Prop where
  known : Known m team
  listed : ∀ x ∈ members, ∃ y,
    m.members.get? (team.teamId, x.memberId) = some y ∧ y.role = x.role
  gone : ∀ x ∈ members, x.role = .teammate →
    x ∈ left ∨ (team.teamId, x.memberId) ∉ r.registered

/-- What is known of the store and the runner where an operation is
suspended. -/
structure Progress.Ok (p : Progress) (m : InMemoryTeamStore) (r : Runner) :
    Prop where
  detached : ∀ key, p.Detaches key → key ∉ r.drainTasks
  shutting : ∀ team members member rest stage,
    p = .deleting team members member rest stage →
    Shutting m r team members (member :: rest)

/-- Teams keep their leaders, and members their roles. -/
structure Grows (m m' : InMemoryTeamStore) : Prop where
  known : ∀ team, Known m team → Known m' team
  members : ∀ key x, m.members.get? key = some x →
    ∃ x', m'.members.get? key = some x' ∧ x'.role = x.role

/-- Nobody new runs, and who is newly registered is no member yet. -/
structure Within (m : InMemoryTeamStore) (r r' : Runner) : Prop where
  registered : ∀ key ∈ r'.registered,
    key ∈ r.registered ∨ m.members.get? key = none
  drainTasks : ∀ key ∈ r'.drainTasks, key ∈ r.drainTasks

theorem Grows.refl (m : InMemoryTeamStore) : Grows m m :=
  ⟨fun _ => id, fun _ x h => ⟨x, h, rfl⟩⟩

theorem Grows.trans {m'' : InMemoryTeamStore} (h : Grows m m')
    (h' : Grows m' m'') : Grows m m'' where
  known team ht := h'.known team (h.known team ht)
  members key x hx := by
    obtain ⟨x', hx', hrole⟩ := h.members key x hx
    obtain ⟨x'', hx'', hrole'⟩ := h'.members key x' hx'
    exact ⟨x'', hx'', hrole'.trans hrole⟩

theorem Retires.grows {P : String × String → Prop} (h : Retires P m m') :
    Grows m m' where
  known team ht := by
    obtain ⟨t, ht, hrest⟩ := ht
    exact ⟨t, h.teams ▸ ht, hrest⟩
  members := h.forth

theorem Shrinks.within {r r' : Runner} (h : Shrinks r r')
    (m : InMemoryTeamStore) : Within m r r' where
  registered _ hk := Or.inl (h.registered ▸ hk)
  drainTasks := h.drainTasks

theorem within_unregister (m : InMemoryTeamStore) (r : Runner)
    (k : String × String) : Within m r (r.unregister k) where
  registered _ hk := Or.inl (List.mem_filter.1 hk).1
  drainTasks _ := id

theorem Progress.Ok.mono {p : Progress} {r r' : Runner} (h : p.Ok m r)
    (hm : Grows m m') (hr : Within m r r') :
    p.Ok m' r' where
  detached key hk hdrain := h.detached key hk (hr.drainTasks key hdrain)
  shutting team members member rest stage hp := by
    have hs := h.shutting team members member rest stage hp
    refine ⟨hm.known team hs.known, fun x hx => ?_, fun x hx hrole => ?_⟩
    · obtain ⟨y, hy, hyx⟩ := hs.listed x hx
      obtain ⟨y', hy', hyy⟩ := hm.members _ y hy
      exact ⟨y', hy', hyy.trans hyx⟩
    · refine (hs.gone x hx hrole).imp_right fun hnot hreg => ?_
      obtain ⟨y, hy, -⟩ := hs.listed x hx
      rcases hr.registered _ hreg with hold | hnew
      · exact hnot hold
      · rw [hy] at hnew
        cases hnew

/-- The invariant of the control plane: the members a deleted team still
has are owed by operations in progress. -/
structure Sound (s : Plane) : Prop where
  store : StoreOk s.store
  runner : RunnerOk s.store s.runner
  ops : ∀ op p, s.ops.get? op = some p → p.Ok s.store s.runner
  owed : ∀ t key x, s.store.teams.get? key.1 = some t → t.active = false →
    s.store.members.get? key = some x → x.active = true →
    ∃ op p, s.ops.get? op = some p ∧ p.Removes key

theorem sound_empty : Sound Plane.empty := by
  refine ⟨⟨?_, ?_, ?_, ?_, ?_, ?_⟩, ⟨?_, ?_⟩, ?_, ?_⟩
  · intro id t h
    cases h
  · intro key x h
    cases h
  · intro session b h
    cases h
  · intro id t h
    cases h
  · intro key key' x x' h
    cases h
  · intro id t h
    cases h
  · intro key h
    cases h
  · intro key h
    cases h
  · intro op p h
    cases h
  · intro t key x h
    cases h

/-- What a section has to leave. -/
structure Fine (s : Plane) (op : Nat) (left : Plane.Section) : Prop where
  store : StoreOk left.1
  runner : RunnerOk left.1 left.2.1
  grows : Grows s.store left.1
  within : Within s.store s.runner left.2.1
  progress : left.2.2.Ok left.1 left.2.1
  owed : ∀ t key x, left.1.teams.get? key.1 = some t → t.active = false →
    left.1.members.get? key = some x → x.active = true →
    left.2.2.Removes key
      ∨ ∃ j q, j ≠ op ∧ s.ops.get? j = some q ∧ q.Removes key

theorem Sound.put {s : Plane} (h : Sound s) {op : Nat} {left : Plane.Section}
    (hleft : Fine s op left) :
    Sound (s.put op left) where
  store := hleft.store
  runner := hleft.runner
  ops j q hq := by
    have hget : (s.ops.insert op left.2.2).get? j = some q := hq
    rw [Dict.get?_insert] at hget
    split at hget
    · cases hget
      exact hleft.progress
    · exact (h.ops j q hget).mono hleft.grows hleft.within
  owed t key x ht ha hx hxa := by
    rcases hleft.owed t key x ht ha hx hxa with hown | ⟨j, q, hj, hq, hrem⟩
    · exact ⟨op, left.2.2, Dict.get?_insert_self .., hown⟩
    · exact ⟨j, q, (Dict.get?_insert_of_ne _ _ hj).trans hq, hrem⟩

/-- An operation that is in no removal. -/
def Progress.inert : Progress → Bool
  | .removing .. | .deleting .. => false
  | _ => true

theorem Progress.ok_of_inert {p : Progress} {r : Runner}
    (h : p.inert = true) : p.Ok m r := by
  refine ⟨fun key hk => ?_, fun team members member rest stage hp => ?_⟩
  · cases p <;> first | exact False.elim hk | cases h
  · rw [hp] at h
    cases h

section Sections

variable {s : Plane} {op : Nat}

/-- A section that leaves the store alone, and goes on with what the
operation has to remove. -/
theorem Sound.fine (h : Sound s) {r' : Runner} {p' : Progress}
    (hr : RunnerOk s.store r') (hwithin : Within s.store s.runner r')
    (hp : p'.Ok s.store r')
    (hrel : ∀ q key, s.ops.get? op = some q → q.Removes key →
      p'.Removes key) : Fine s op (s.store, r', p') where
  store := h.store
  runner := hr
  grows := Grows.refl s.store
  within := hwithin
  progress := hp
  owed t key x ht ha hx hxa := by
    obtain ⟨j, q, hq, hrem⟩ := h.owed t key x ht ha hx hxa
    by_cases hj : j = op
    · exact Or.inl (hrel q key (hj ▸ hq) hrem)
    · exact Or.inr ⟨j, q, hj, hq, hrem⟩

theorem Sound.fine_inert (h : Sound s) {p' : Progress} (hp : p'.inert = true)
    (hrel : ∀ q key, s.ops.get? op = some q → ¬ q.Removes key) :
    Fine s op (s.store, s.runner, p') :=
  h.fine h.runner ((Shrinks.refl s.runner).within s.store)
    (Progress.ok_of_inert hp) fun q key hq hrem => absurd hrem (hrel q key hq)

variable {members : List TeamMemberRecord} {team : TeamRecord}

theorem Sound.fine_removed (h : Sound s) {member removed : TeamMemberRecord}
    (clock : Clock)
    (hop : s.ops.get? op = some (.removing team member .stopping)) :
    Fine s op ((s.store.removeMember clock team.teamId member.memberId).1,
      s.runner.unregister (team.teamId, member.memberId),
      .removed removed) := by
  have hretires := retires_removeMember h.store.memberKey clock team.teamId
    member.memberId
  have hdrain := (h.ops op _ hop).detached (team.teamId, member.memberId)
    ⟨rfl, rfl⟩
  refine ⟨hretires.storeOk h.store, ⟨fun key hk => ?_, ?_⟩, hretires.grows,
    within_unregister .., Progress.ok_of_inert rfl,
    fun t key x ht ha hx hxa => Or.inr ?_⟩
  · obtain ⟨hk, hne⟩ := List.mem_filter.1 hk
    rw [decide_eq_true_iff] at hne
    rw [hretires.kept key hne]
    exact h.runner.registered key hk
  · exact (h.runner.unregister hdrain).drains
  · by_cases hkey : key = (team.teamId, member.memberId)
    · rw [hretires.gone key x hkey hx] at hxa
      cases hxa
    · rw [hretires.kept key hkey] at hx
      rw [hretires.teams] at ht
      obtain ⟨j, q, hq, hrem⟩ := h.owed t key x ht ha hx hxa
      refine ⟨j, q, fun hj => ?_, hq, hrem⟩
      rw [hj, hop] at hq
      cases hq
      exact hkey hrem

/-- A team can be closed: its session is bound to no other team, and its
active members are listed, or being removed by another operation. -/
def Closable (s : Plane) (op : Nat) (team : TeamRecord)
    (members : List TeamMemberRecord) : Prop :=
  (∀ b, s.store.leaderBindings.get? team.leaderSessionId = some b →
    b.teamId = team.teamId)
  ∧ ∀ memberId x, s.store.members.get? (team.teamId, memberId) = some x →
    x.active = true →
    (∃ y ∈ members, y.memberId = memberId) ∨ memberId = team.leaderMemberId
      ∨ ∃ j q, j ≠ op ∧ s.ops.get? j = some q
        ∧ q.Removes (team.teamId, memberId)

theorem retires_closeTeam {m : InMemoryTeamStore} (hm : StoreOk m)
    (clocks : Nat → Clock) (hknown : Known m team)
    (hbinding : ∀ b, m.leaderBindings.get? team.leaderSessionId = some b →
      b.teamId = team.teamId) :
    Retires (fun key => key.1 = team.teamId
        ∧ ((∃ x ∈ members, x.memberId = key.2)
          ∨ key.2 = team.leaderMemberId))
      (m.tombstoneTeam (clocks members.length) team)
      (Plane.closeTeam m clocks team members) := by
  have hlisted : Retires (fun key => ∃ x ∈ members,
        x.memberId ≠ team.leaderMemberId ∧ key = (team.teamId, x.memberId))
      m (Plane.removeListed team.teamId team.leaderMemberId clocks m
        members) := retires_removeListed clocks hm
  generalize hemptied : Plane.removeListed team.teamId team.leaderMemberId
    clocks m members = emptied at hlisted
  have hclosed : Retires (fun key => ∃ x ∈ members,
        x.memberId ≠ team.leaderMemberId ∧ key = (team.teamId, x.memberId))
      (m.tombstoneTeam (clocks members.length) team)
      (emptied.tombstoneTeam (clocks members.length) team) := by
    refine ⟨?_, ?_, hlisted.kept, hlisted.gone, hlisted.back,
      hlisted.forth⟩
    · show emptied.teams.insert _ _ = m.teams.insert _ _
      rw [hlisted.teams]
    · show emptied.leaderBindings.erase _ = m.leaderBindings.erase _
      rw [hlisted.leaderBindings]
  have hok : StoreOk (emptied.tombstoneTeam (clocks members.length) team) :=
    hclosed.storeOk (storeOk_tombstoneTeam hm _ hknown hbinding)
  have hleader := retires_removeMember hok.memberKey
    (clocks (members.length + 1)) team.teamId team.leaderMemberId
  unfold Plane.closeTeam
  rw [hemptied]
  refine (hclosed.trans hleader).congr fun key => ⟨fun hkey => ?_,
    fun hkey => ?_⟩
  · rcases hkey with ⟨x, hx, -, rfl⟩ | rfl
    · exact ⟨rfl, Or.inl ⟨x, hx, rfl⟩⟩
    · exact ⟨rfl, Or.inr rfl⟩
  · obtain ⟨hteam, hid⟩ := hkey
    by_cases hlead : key.2 = team.leaderMemberId
    · exact Or.inr (Prod.ext hteam hlead)
    · obtain ⟨x, hx, hxid⟩ := hid.resolve_right hlead
      refine Or.inl ⟨x, hx, ?_, Prod.ext hteam hxid.symm⟩
      rw [hxid]
      exact hlead

theorem Sound.fine_closed (h : Sound s) {r' : Runner}
    (hr : RunnerOk s.store r') (hwithin : Within s.store s.runner r')
    {closed : TeamRecord} (clocks : Nat → Clock)
    (hs : Shutting s.store r' team members [])
    (hclosable : Closable s op team members)
    (hrel : ∀ q key, s.ops.get? op = some q → q.Removes key →
      key.1 = team.teamId) :
    Fine s op (Plane.closeTeam s.store clocks team members, r',
      .clearing closed) := by
  obtain ⟨hbinding, hunlisted⟩ := hclosable
  have hretires : Retires _ _
      (Plane.closeTeam s.store clocks team members) :=
    retires_closeTeam h.store clocks hs.known hbinding
  have hok := storeOk_tombstoneTeam h.store (clocks members.length) hs.known
    hbinding
  have hteams : ∀ id, (s.store.tombstoneTeam (clocks members.length)
      team).teams.get? id
      = if id = team.teamId then some (team.tombstone
          (clocks members.length)) else s.store.teams.get? id :=
    fun id => Dict.get?_insert ..
  have hgrows : Grows s.store
      (s.store.tombstoneTeam (clocks members.length) team) := by
    refine ⟨fun other hknown => ?_, fun _ x hx => ⟨x, hx, rfl⟩⟩
    obtain ⟨t, ht, hleaderId, hsession⟩ := hknown
    obtain ⟨t', ht', hleaderId', hsession'⟩ := hs.known
    unfold Known
    rw [hteams]
    by_cases hid : other.teamId = team.teamId
    · rw [hid, ht'] at ht
      cases ht
      rw [if_pos hid]
      exact ⟨_, rfl, hleaderId'.symm.trans hleaderId,
        hsession'.symm.trans hsession⟩
    · rw [if_neg hid]
      exact ⟨t, ht, hleaderId, hsession⟩
  refine ⟨hretires.storeOk hok, ⟨fun key hk => ?_, hr.drains⟩,
    hgrows.trans hretires.grows, hwithin, Progress.ok_of_inert rfl,
    fun t key x ht ha hx hxa => Or.inr ?_⟩
  · -- who is registered is no listed member, and no leader
    obtain ⟨x, hx, hxa, hxrole⟩ := hr.registered key hk
    refine ⟨x, ?_, hxa, hxrole⟩
    rw [hretires.kept key]
    · exact hx
    · intro hkey
      obtain ⟨hteam, ⟨y, hy, hid⟩ | hid⟩ := hkey
      · have hown : key = (team.teamId, y.memberId) :=
          Prod.ext hteam hid.symm
        obtain ⟨x', hx', hrole⟩ := hs.listed y hy
        rw [← hown, hx] at hx'
        cases hx'
        refine ((hs.gone y hy (hrole.symm.trans hxrole)).resolve_left
          List.not_mem_nil) ?_
        rw [← hown]
        exact hk
      · obtain ⟨t', ht', hleaderId, -⟩ := hs.known
        obtain ⟨lead, hlead, hrole⟩ := h.store.leader team.teamId t' ht'
        have hown : (team.teamId, t'.leaderMemberId) = key := by
          rw [hleaderId, ← hid, ← hteam]
        rw [hown, hx] at hlead
        cases hlead
        rw [hxrole] at hrole
        cases hrole
  · by_cases hkey : key.1 = team.teamId
        ∧ ((∃ x ∈ members, x.memberId = key.2)
          ∨ key.2 = team.leaderMemberId)
    · rw [hretires.gone key x hkey hx] at hxa
      cases hxa
    · rw [hretires.kept key hkey] at hx
      rw [hretires.teams, hteams] at ht
      by_cases hteam : key.1 = team.teamId
      · have hown : key = (team.teamId, key.2) := Prod.ext hteam rfl
        rw [hown] at hx ⊢
        rcases hunlisted key.2 x hx hxa with hlisted | hlead | hother
        · exact absurd ⟨hteam, Or.inl hlisted⟩ hkey
        · exact absurd ⟨hteam, Or.inr hlead⟩ hkey
        · exact hother
      · rw [if_neg hteam] at ht
        obtain ⟨j, q, hq, hrem⟩ := h.owed t key x ht ha hx hxa
        refine ⟨j, q, fun hj => ?_, hq, hrem⟩
        exact hteam (hrel q key (hj ▸ hq) hrem)

/-- The shutdown of a team goes on with its next teammate, or closes the
team. -/
theorem Sound.fine_shutdownRest (h : Sound s) {r' : Runner}
    (hr : RunnerOk s.store r') (hwithin : Within s.store s.runner r')
    {workflows : Bool} (clocks : Nat → Clock) {rest : List TeamMemberRecord}
    (hs : Shutting s.store r' team members rest)
    (hclosable : rest = [] → Closable s op team members)
    (hrel : ∀ q key, s.ops.get? op = some q → q.Removes key →
      key.1 = team.teamId ∧ ((∃ x ∈ members, x.memberId = key.2)
        ∨ key.2 = team.leaderMemberId)) :
    Fine s op (Plane.shutdownRest workflows s.store r' clocks team members
      rest) := by
  cases rest with
  | nil =>
    exact h.fine_closed hr hwithin clocks hs (hclosable rfl)
      fun q key hq hrem => (hrel q key hq hrem).1
  | cons member rest =>
    rcases hbegin : r'.beginRemoval workflows
      (team.teamId, member.memberId) with ⟨next, stage⟩
    rw [Plane.shutdownRest, hbegin]
    obtain ⟨hshrinks, hdetached⟩ := beginRemoval_spec hbegin
    refine h.fine (hr.shrinks hshrinks) ⟨fun key hk => ?_, fun key hk => ?_⟩
      ⟨fun key hk => ?_, fun team' members' member' rest' stage' hp => ?_⟩
      hrel
    · rw [hshrinks.registered] at hk
      exact hwithin.registered key hk
    · exact hwithin.drainTasks key (hshrinks.drainTasks key hk)
    · obtain ⟨hd, rfl⟩ := hk
      exact hdetached hd
    · cases hp
      refine ⟨hs.known, hs.listed, fun x hx hrole => ?_⟩
      rw [hshrinks.registered]
      exact hs.gone x hx hrole

theorem loadLeader_eq (m : InMemoryTeamStore) (r : Runner) (team : TeamRecord)
    (created : Bool) :
    ∃ p, Plane.loadLeader m r team created = (m, r, p) ∧ p.inert = true := by
  unfold Plane.loadLeader
  cases m.members.get? (team.teamId, team.leaderMemberId) with
  | none => exact ⟨_, rfl, rfl⟩
  | some x => exact ⟨_, rfl, rfl⟩

theorem fresh_spec {draws : Plane.Draws} (h : s.fresh draws = true) :
    s.store.teams.get? draws.teamId = none
      ∧ ∀ key x, s.store.members.get? key = some x →
        key.1 ≠ draws.teamId ∧ key.2 ≠ draws.memberId := by
  unfold Plane.fresh at h
  rw [Bool.and_eq_true, Bool.not_eq_true', List.all_eq_true] at h
  refine ⟨?_, fun key x hx => ?_⟩
  · rw [Dict.get?_eq_none_iff, ← Dict.contains_iff, h.1]
    exact Bool.false_ne_true
  · simpa using h.2 key (Dict.mem_keys_iff.2 ⟨x, hx⟩)

section Calls

variable (h : Sound s) (hnew : s.ops.get? op = none) {draws : Plane.Draws}
  (hfresh : s.fresh draws = true)

include h hnew hfresh

theorem fine_startCreate (session : String) (extensions : Fields)
    (name : Option String) :
    Fine s op (Plane.startCreate s.store s.runner draws.clocks draws.teamId
      draws.memberId session extensions name) := by
  have hnone : ∀ q key, s.ops.get? op = some q → ¬ q.Removes key := by
    intro q key hq
    rw [hnew] at hq
    cases hq
  obtain ⟨actor, hactor, -⟩ := resolveActor_eq h.store session extensions
  unfold Plane.startCreate
  rw [hactor]
  dsimp only
  split
  · exact h.fine_inert rfl hnone
  rcases activeTeamForLeaderSession_eq h.store session with
    ⟨heq, hunbound⟩ | ⟨t, heq, -⟩
  · rw [heq]
    obtain ⟨hteam, hmembers⟩ := fresh_spec hfresh
    dsimp only
    generalize ht : Plane.newTeam draws.clocks draws.teamId draws.memberId
      session name = team
    generalize hl : Plane.newLeader draws.clocks draws.teamId draws.memberId
      session = leader
    have hdata : team.teamId = draws.teamId ∧ team.leaderSessionId = session
        ∧ team.active = true ∧ leader.teamId = team.teamId
        ∧ leader.memberId = team.leaderMemberId ∧ leader.role = .leader := by
      rw [← ht, ← hl]
      exact ⟨rfl, rfl, rfl, rfl, rfl, rfl⟩
    obtain ⟨hid, hsession, hactive, hleader⟩ := hdata
    rw [← hid] at hteam
    rw [← hsession] at hunbound
    have hothers : ∀ key x, s.store.members.get? key = some x →
        key.1 ≠ team.teamId := by
      intro key x hx
      rw [hid]
      exact (hmembers key x hx).1
    obtain ⟨m', hmade, hok, hold, hkept, hteams⟩ := storeOk_createTeam h.store
      (draws.clocks 2) hteam hunbound hothers hactive hleader
    rw [hmade]
    have hsame : ∀ key x, s.store.members.get? key = some x →
        m'.members.get? key = some x := by
      intro key x hx
      rw [hkept key]
      · exact hx
      · intro hkey
        exact hothers key x hx (congrArg Prod.fst hkey)
    refine ⟨hok, ⟨fun key hk => ?_, h.runner.drains⟩, ⟨fun team hknown => ?_,
      fun key x hx => ⟨x, hsame key x hx, rfl⟩⟩,
      (Shrinks.refl s.runner).within s.store, Progress.ok_of_inert rfl,
      fun t key x ht ha hx hxa => Or.inr ?_⟩
    · obtain ⟨x, hx, hrest⟩ := h.runner.registered key hk
      exact ⟨x, hsame key x hx, hrest⟩
    · obtain ⟨t, ht, hrest⟩ := hknown
      exact ⟨t, hteams _ t ht, hrest⟩
    · -- an inactive team is an old one, and so are its members
      have hold : s.store.teams.get? key.1 = some t := by
        rcases hold key.1 t ht with hactive | hold
        · rw [hactive] at ha
          cases ha
        · exact hold
      rw [hkept key] at hx
      · obtain ⟨j, q, hq, hrem⟩ := h.owed t key x hold ha hx hxa
        refine ⟨j, q, fun hj => ?_, hq, hrem⟩
        rw [hj, hnew] at hq
        cases hq
      · intro hkey
        rw [hkey, hteam] at hold
        cases hold
  · rw [heq]
    obtain ⟨p, hload, hinert⟩ := loadLeader_eq s.store s.runner t false
    show Fine s op (Plane.loadLeader s.store s.runner t false)
    rw [hload]
    exact h.fine_inert hinert hnone

theorem fine_register {team : TeamRecord} (hteam : ActiveTeam s.store team)
    (name agentName : String) (defaults : Fields) :
    Fine s op (Plane.register s.store s.runner draws.clocks draws.memberId
      draws.registrationFails team name agentName defaults) := by
  have hnone : ∀ q key, s.ops.get? op = some q → ¬ q.Removes key := by
    intro q key hq
    rw [hnew] at hq
    cases hq
  obtain ⟨-, hmembers⟩ := fresh_spec hfresh
  unfold Plane.register
  split
  · exact h.fine_inert rfl hnone
  next normalized _ =>
  split
  · exact h.fine_inert rfl hnone
  next hname =>
  split
  · exact h.fine_inert rfl hnone
  next defaults _ =>
  have hnew' : s.store.members.get? (team.teamId, draws.memberId)
      = none := by
    refine Option.eq_none_iff_forall_ne_some.2 fun x hx => ?_
    exact (hmembers _ x hx).2 rfl
  have hnamed : s.store.findMemberByName team.teamId normalized = none := by
    simpa using hname
  generalize hx : Plane.newMember draws.clocks team draws.memberId normalized
    agentName defaults = x
  have hxkey : (x.teamId, x.memberId) = (team.teamId, draws.memberId) := by
    rw [← hx]
    rfl
  have hxdata : x.name = normalized ∧ x.active = true
      ∧ x.role = .teammate := by
    rw [← hx]
    exact ⟨rfl, rfl, rfl⟩
  obtain ⟨hxname, hxactive, hxrole⟩ := hxdata
  obtain ⟨hxteam, hxid⟩ := Prod.mk.inj hxkey
  have hget : ∀ key, (s.store.saveMember x).members.get? key
      = if key = (team.teamId, draws.memberId) then some x
        else s.store.members.get? key := by
    intro key
    rw [← hxkey]
    exact Dict.get?_insert ..
  have hsame : ∀ key y, s.store.members.get? key = some y →
      (s.store.saveMember x).members.get? key = some y := by
    intro key y hy
    rw [hget, if_neg]
    · exact hy
    · intro hkey
      rw [hkey, hnew'] at hy
      cases hy
  refine ⟨?_, ⟨fun key hk => ?_, fun key hk => ?_⟩,
    ⟨fun _ => id, fun key y hy => ⟨y, hsame key y hy, rfl⟩⟩,
    ⟨fun key hk => ?_, fun _ => id⟩, ?_,
    fun t key y ht ha hy hya => Or.inr ?_⟩
  · refine storeOk_saveMember h.store (fun key y hy hteam' hya => ?_)
      fun t ht hlead => ?_
    · rw [hxname]
      exact name_ne_of_findMemberByName hnamed hy (hteam'.trans hxteam) hya
    · -- a new member is no leader
      obtain ⟨y, hy, -⟩ := h.store.leader x.teamId t ht
      rw [hlead, hxkey, hnew'] at hy
      cases hy
  · rcases List.mem_cons.1 hk with rfl | hk
    · rw [hget, if_pos rfl]
      exact ⟨x, rfl, hxactive, hxrole⟩
    · obtain ⟨y, hy, hrest⟩ := h.runner.registered key hk
      exact ⟨y, hsame key y hy, hrest⟩
  · exact List.mem_cons_of_mem _ (h.runner.drains key hk)
  · rcases List.mem_cons.1 hk with rfl | hk
    · exact Or.inr hnew'
    · exact Or.inl hk
  · refine Progress.ok_of_inert ?_
    cases draws.registrationFails <;> rfl
  · rw [hget] at hy
    split at hy
    · next hkey =>
      -- the team of the new member is active
      have ht' : s.store.teams.get? key.1 = some t := ht
      rw [hkey, hteam.1] at ht'
      cases ht'
      rw [hteam.2] at ha
      cases ha
    · obtain ⟨j, q, hq, hrem⟩ := h.owed t key y ht ha hy hya
      refine ⟨j, q, fun hj => ?_, hq, hrem⟩
      rw [hj, hnew] at hq
      cases hq

theorem fine_start {workflows : Bool} (call : PlaneCall) :
    Fine s op (Plane.start workflows s.store s.runner draws call) := by
  have hnone : ∀ q key, s.ops.get? op = some q → ¬ q.Removes key := by
    intro q key hq
    rw [hnew] at hq
    cases hq
  have hrel : ∀ q (P : Prop), s.ops.get? op = some q → P := by
    intro q P hq
    rw [hnew] at hq
    cases hq
  cases call with
  | createTeam session extensions name =>
    exact fine_startCreate h hnew hfresh session extensions name
  | registerMember session extensions name agentName defaults =>
    obtain ⟨actor, hactor, hteam⟩ := resolveActor_eq h.store session
      extensions
    simp only [Plane.start, hactor]
    split
    · exact h.fine_inert rfl hnone
    · next team _ hleader =>
      exact fine_register h hnew hfresh
        (hteam team (requireLeader_ok hleader)) name agentName defaults
  | removeMember session extensions memberId =>
    obtain ⟨actor, hactor, hteam⟩ := resolveActor_eq h.store session
      extensions
    simp only [Plane.start, hactor]
    split
    · exact h.fine_inert rfl hnone
    next team _ hleader =>
    split
    · exact h.fine_inert rfl hnone
    split
    · exact h.fine_inert rfl hnone
    next member hmember =>
    rcases hbegin : s.runner.beginRemoval workflows
      (team.teamId, member.memberId) with ⟨next, stage⟩
    obtain ⟨hshrinks, hdetached⟩ := beginRemoval_spec hbegin
    refine h.fine (h.runner.shrinks hshrinks) (hshrinks.within s.store)
      ⟨fun key hk => ?_, fun _ _ _ _ _ hp => ?_⟩
      fun q key hq _ => hrel q _ hq
    · obtain ⟨hd, rfl⟩ := hk
      exact hdetached hd
    · cases hp
  | deleteTeam session extensions =>
    obtain ⟨actor, hactor, hteam⟩ := resolveActor_eq h.store session
      extensions
    simp only [Plane.start, hactor]
    split
    · exact h.fine_inert rfl hnone
    next team _ hleader =>
    obtain ⟨hget, hactive⟩ := hteam team (requireLeader_ok hleader)
    refine h.fine_shutdownRest h.runner
      ((Shrinks.refl s.runner).within s.store) draws.clocks
      ⟨⟨team, hget, rfl, rfl⟩, fun x hx => ?_, fun x hx hrole => ?_⟩
      (fun _ => ⟨fun b hb => ?_, fun memberId x hx hxa => ?_⟩)
      fun q key hq _ => hrel q _ hq
    · exact ⟨x, ((mem_listMembers h.store).1 hx).1, rfl⟩
    · refine Or.inl (List.mem_filter.2 ⟨hx, decide_eq_true hrole⟩)
    · obtain ⟨b', hb', hid⟩ := h.store.bound team.teamId team hget hactive
      rw [hb] at hb'
      cases hb'
      exact hid
    · -- every active member has just been listed
      have hid := h.store.memberKey _ x hx
      have hown : memberId = x.memberId := (Prod.mk.inj hid).2
      rw [hown] at hx ⊢
      exact Or.inl ⟨x, (mem_listMembers h.store).2 ⟨hx, hxa⟩, rfl⟩

end Calls

theorem Sound.fine_resume (h : Sound s) {p : Progress} {workflows : Bool}
    (hop : s.ops.get? op = some p) (hended : p.ended = false)
    (clocks : Nat → Clock) (view : ShutdownView)
    (hclosable : ∀ team members member,
      p = .deleting team members member [] .stopping →
      Closable s op team members) :
    Fine s op (Plane.resume workflows s.store s.runner clocks view p) := by
  have hsame : ∀ q, s.ops.get? op = some q → q = p := by
    intro q hq
    rw [hop] at hq
    exact (Option.some.inj hq).symm
  have hok := h.ops op p hop
  cases p with
  | announcing team =>
    obtain ⟨p', hload, hinert⟩ := loadLeader_eq s.store s.runner team true
    show Fine s op (Plane.loadLeader s.store s.runner team true)
    rw [hload]
    refine h.fine_inert hinert fun q key hq hrem => ?_
    rw [hsame q hq] at hrem
    exact hrem
  | syncing team created =>
    cases created <;> exact h.fine_inert rfl fun q key hq hrem => by
      rw [hsame q hq] at hrem
      exact hrem
  | removing team member stage =>
    rcases hresume : s.runner.resumeRemoval (team.teamId, member.memberId)
      view stage with ⟨next, _ | stage'⟩
    · obtain ⟨rfl, rfl⟩ := resumeRemoval_none hresume
      exact h.fine_removed (clocks 0) hop
    · obtain ⟨hshrinks, hdetached⟩ := resumeRemoval_some hresume
        fun hd => hok.detached _ ⟨hd, rfl⟩
      simp only [Plane.resume, hresume]
      refine h.fine (h.runner.shrinks hshrinks) (hshrinks.within s.store)
        ⟨fun key hk => ?_, fun _ _ _ _ _ hp => ?_⟩ fun q key hq hrem => ?_
      · obtain ⟨hd, rfl⟩ := hk
        exact hdetached hd
      · cases hp
      · rw [hsame q hq] at hrem
        exact hrem
  | removed member =>
    refine h.fine_inert rfl fun q key hq hrem => ?_
    rw [hsame q hq] at hrem
    exact hrem
  | deleting team members member rest stage =>
    have hs := hok.shutting team members member rest stage rfl
    have hrel : ∀ q key, s.ops.get? op = some q → q.Removes key →
        key.1 = team.teamId ∧ ((∃ x ∈ members, x.memberId = key.2)
          ∨ key.2 = team.leaderMemberId) := by
      intro q key hq hrem
      rw [hsame q hq] at hrem
      exact hrem
    rcases hresume : s.runner.resumeRemoval (team.teamId, member.memberId)
      view stage with ⟨next, _ | stage'⟩
    · obtain ⟨rfl, rfl⟩ := resumeRemoval_none hresume
      have hdrain := hok.detached (team.teamId, member.memberId) ⟨rfl, rfl⟩
      refine h.fine_shutdownRest (h.runner.unregister hdrain)
        (within_unregister ..) clocks
        ⟨hs.known, hs.listed, fun x hx hrole => ?_⟩ (fun hrest => ?_) hrel
      · rcases hs.gone x hx hrole with hleft | hgone
        · rcases List.mem_cons.1 hleft with rfl | hrest
          · refine Or.inr fun hreg => ?_
            have hne := (List.mem_filter.1 hreg).2
            simp at hne
          · exact Or.inl hrest
        · exact Or.inr fun hreg => hgone (List.mem_filter.1 hreg).1
      · exact hclosable team members member (by rw [hrest])
    · obtain ⟨hshrinks, hdetached⟩ := resumeRemoval_some hresume
        fun hd => hok.detached _ ⟨hd, rfl⟩
      simp only [Plane.resume, hresume]
      refine h.fine (h.runner.shrinks hshrinks) (hshrinks.within s.store)
        ⟨fun key hk => ?_, fun _ _ _ _ _ hp => ?_⟩ hrel
      · obtain ⟨hd, rfl⟩ := hk
        exact hdetached hd
      · cases hp
        refine ⟨hs.known, hs.listed, fun x hx hrole => ?_⟩
        rw [hshrinks.registered]
        exact hs.gone x hx hrole
  | clearing team =>
    refine h.fine_inert rfl fun q key hq hrem => ?_
    rw [hsame q hq] at hrem
    exact hrem
  | farewell team =>
    refine h.fine_inert rfl fun q key hq hrem => ?_
    rw [hsame q hq] at hrem
    exact hrem
  | returned result => cases hended
  | _ =>
    refine h.fine_inert rfl fun q key hq hrem => ?_
    rw [hsame q hq] at hrem
    exact hrem

end Sections

-- =============== a run

/-- A step that leaves no member of a deleted team to nobody: a team is
closed only when it can be, an operation does not raise while it alone
owes a member of a deleted team its removal, and no message is dispatched
to a teammate whose drain task has just been taken from it. -/
def Orderly (s : Plane) : PlaneAction → Prop
  | .call _ _ _ => True
  | .resume op .raises _ =>
    ∀ p t key x, s.ops.get? op = some p → p.Removes key →
      s.store.teams.get? key.1 = some t → t.active = false →
      s.store.members.get? key = some x → x.active = true →
      ∃ j q, j ≠ op ∧ s.ops.get? j = some q ∧ q.Removes key
  | .resume op (.returns _) _ =>
    ∀ team members member,
      s.ops.get? op = some (.deleting team members member [] .stopping) →
      Closable s op team members
  | .dispatch key => ∀ op p, s.ops.get? op = some p → ¬ p.Detaches key
  | .drained _ => True

theorem Sound.step {workflows : Bool} {s s' : Plane} {a : PlaneAction}
    (h : Sound s) (hstep : (planeSystem workflows).step s a = some s')
    (ha : Orderly s a) : Sound s' := by
  cases a with
  | call op call draws =>
    simp only [planeSystem] at hstep
    split at hstep
    · cases hstep
    next hnot =>
    cases hstep
    simp only [Bool.or_eq_true, not_or, Bool.not_eq_true',
      Bool.not_eq_false] at hnot
    obtain ⟨hnew, hfresh⟩ := hnot
    rw [Dict.contains_iff, ← Dict.get?_eq_none_iff] at hnew
    exact h.put (fine_start h hnew hfresh call)
  | resume op answer clocks =>
    simp only [planeSystem] at hstep
    split at hstep
    · cases hstep
    next p hop =>
    split at hstep
    · cases hstep
    next hended =>
    cases answer with
    | raises =>
      cases hstep
      refine h.put ⟨h.store, h.runner, Grows.refl s.store,
        (Shrinks.refl s.runner).within s.store,
        Progress.ok_of_inert rfl, fun t key x ht hta hx hxa => ?_⟩
      obtain ⟨j, q, hq, hrem⟩ := h.owed t key x ht hta hx hxa
      by_cases hj : j = op
      · rw [hj] at hq
        exact Or.inr (ha q t key x hq hrem ht hta hx hxa)
      · exact Or.inr ⟨j, q, hj, hq, hrem⟩
    | returns view =>
      cases hstep
      refine h.put (h.fine_resume hop (by simpa using hended) clocks view
        fun team members member hp => ?_)
      exact ha team members member (hp ▸ hop)
  | dispatch key =>
    simp only [planeSystem] at hstep
    split at hstep
    · next hreg =>
      cases hstep
      have hdrains : ∀ k ∈ (s.runner.ensureRunner key).drainTasks,
          k = key ∨ k ∈ s.runner.drainTasks := by
        intro k hk
        unfold Runner.ensureRunner at hk
        split at hk
        · exact Or.inr hk
        · exact List.mem_cons.1 hk
      have hregistered : (s.runner.ensureRunner key).registered
          = s.runner.registered := by
        unfold Runner.ensureRunner
        split <;> rfl
      refine ⟨h.store, ⟨?_, fun k hk => ?_⟩, fun op p hop =>
        ⟨fun k hk hdrain => ?_, fun team members member rest stage hp => ?_⟩,
        h.owed⟩
      · rw [hregistered]
        exact h.runner.registered
      · rw [hregistered]
        rcases hdrains k hk with rfl | hk
        · exact hasKey_iff.1 hreg
        · exact h.runner.drains k hk
      · rcases hdrains k hdrain with rfl | hdrain
        · exact ha op p hop hk
        · exact (h.ops op p hop).detached k hk hdrain
      · have hs := (h.ops op p hop).shutting team members member rest stage
          hp
        refine ⟨hs.known, hs.listed, fun x hx hrole => ?_⟩
        rw [hregistered]
        exact hs.gone x hx hrole
    · cases hstep
  | drained key =>
    cases hstep
    have hshrinks := shrinks_dropDrain s.runner key
    exact ⟨h.store, h.runner.shrinks hshrinks, fun op p hop =>
      (h.ops op p hop).mono (Grows.refl s.store)
        (hshrinks.within s.store), h.owed⟩

def AtMostOneTeam (m : InMemoryTeamStore) : Prop :=
  ∀ id id' t t', m.teams.get? id = some t → m.teams.get? id' = some t' →
    t.active = true → t'.active = true →
    t.leaderSessionId = t'.leaderSessionId → id = id'

def UniqueNames (m : InMemoryTeamStore) : Prop :=
  ∀ key key' x x', m.members.get? key = some x →
    m.members.get? key' = some x' → key.1 = key'.1 → x.active = true →
    x'.active = true → x.name = x'.name → key = key'

/-- A deleted team has no active member, no leader binding, no teammate
registered and none running. -/
def NothingLeft (s : Plane) : Prop :=
  ∀ id t, s.store.teams.get? id = some t → t.active = false →
    (∀ key x, s.store.members.get? key = some x → key.1 = id →
      x.active = false)
    ∧ (∀ session b, s.store.leaderBindings.get? session = some b →
      b.teamId ≠ id)
    ∧ (∀ key ∈ s.runner.registered, key.1 ≠ id)
    ∧ ∀ key ∈ s.runner.drainTasks, key.1 ≠ id

/-- Every operation has returned. -/
def Quiet (s : Plane) : Prop :=
  ∀ op p, s.ops.get? op = some p → p.ended = true

theorem Progress.not_removes_of_ended {p : Progress} (h : p.ended = true)
    (key : String × String) : ¬ p.Removes key := by
  cases p <;> first | exact id | cases h

/-- What the invariant says once the operations have returned. -/
theorem Sound.nothingLeft {s : Plane} (h : Sound s) (hquiet : Quiet s) :
    NothingLeft s := by
  intro id t ht ha
  have hmembers : ∀ key x, s.store.members.get? key = some x →
      key.1 = id → x.active = false := by
    intro key x hx hid
    by_contra hxa
    rw [← hid] at ht
    obtain ⟨op, p, hop, hrem⟩ := h.owed t key x ht ha hx (by simpa using hxa)
    exact Progress.not_removes_of_ended (hquiet op p hop) key hrem
  have hregistered : ∀ key ∈ s.runner.registered, key.1 ≠ id := by
    intro key hk hid
    obtain ⟨x, hx, hxa, -⟩ := h.runner.registered key hk
    rw [hmembers key x hx hid] at hxa
    cases hxa
  refine ⟨hmembers, fun session b hb hid => ?_, hregistered,
    fun key hk => hregistered key (h.runner.drains key hk)⟩
  obtain ⟨t', ht', ha', -⟩ := h.store.binding session b hb
  rw [hid, ht] at ht'
  cases ht'
  rw [ha] at ha'
  cases ha'

/-- Ids drawn at the first of the year 2025. -/
def sampleDraws (teamId memberId : String) : Plane.Draws where
  teamId := teamId
  memberId := memberId
  clocks _ := ⟨newYear, newYear⟩
  registrationFails := false

/-- An await of an operation ends. -/
def resumeSample (op : Nat) : PlaneAction :=
  .resume op (.returns ⟨false, false, false⟩) fun _ => ⟨newYear, newYear⟩

def createAndDelete : List PlaneAction :=
  [.call 0 (.createTeam "c1" [] none) (sampleDraws "a1" "b1"),
    .call 1 (.deleteTeam "c1" []) (sampleDraws "a2" "b2")]

/-- While `delete_team` waits for the shutdown of one teammate, another is
registered. -/
def registerLate : List PlaneAction :=
  [.call 0 (.createTeam "c1" [] none) (sampleDraws "a1" "b1"),
    resumeSample 0, resumeSample 0,
    .call 1 (.registerMember "c1" [] "w1" "worker" [])
      (sampleDraws "a2" "b2"), resumeSample 1,
    .call 2 (.deleteTeam "c1" []) (sampleDraws "a3" "b3"),
    .call 3 (.registerMember "c1" [] "w2" "worker" [])
      (sampleDraws "a4" "b4"), resumeSample 3,
    resumeSample 2, resumeSample 2, resumeSample 2]

/-- What is looked at in the end: whether the operations have returned, who
is registered, and whether the team is active. -/
def outlook (s : Plane) : Bool × List (String × String) × Option Bool :=
  (s.ops.values.all Progress.ended, s.runner.registered,
    (s.store.teams.get? "a1").map TeamRecord.active)

theorem outlook_createAndDelete :
    ((planeSystem false).run Plane.empty createAndDelete).map outlook
      = some (false, [], some false) := by
  decide

theorem outlook_registerLate :
    ((planeSystem false).run Plane.empty registerLate).map outlook
      = some (true, [("a1", "b4")], some false) := by
  decide

end WeaveRuntime.Teams
