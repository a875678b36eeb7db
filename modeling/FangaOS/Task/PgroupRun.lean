import FangaOS.Task.Pgroup

/-! Runs of the process group manager: `WellFormed` is kept, and under it no
`unwrap` panics. -/

namespace FangaOS.Pgroup

open StepMachine FangaOS.Tcb

/-! ### What each call does -/

section Calls

variable {manager : ProcessGroupManager}

theorem ProcessGroupManager.createSession_of_mem {leader : TaskId}
    (mapped : leader ∈ manager.processToGroup) :
    ∃ message, manager.createSession leader = some (.error message, manager) := by
  obtain ⟨pgid, found⟩ := Finmap.mem_iff.mp mapped
  unfold ProcessGroupManager.createSession
  rw [found]
  dsimp only
  split
  · split_ifs
    · exact ⟨_, rfl⟩
    · exact ⟨_, rfl⟩
  · exact ⟨_, rfl⟩

theorem ProcessGroupManager.createSession_of_not_mem {leader : TaskId}
    (unmapped : leader ∉ manager.processToGroup) :
    manager.createSession leader = some (.ok ⟨manager.nextSid⟩,
      { manager with
        nextSid := manager.nextSid + 1
        nextPgid := manager.nextPgid + 1
        sessions := manager.sessions.insert ⟨manager.nextSid⟩
          ⟨⟨manager.nextSid⟩, leader, [⟨manager.nextPgid⟩], none⟩
        processGroups := manager.processGroups.insert ⟨manager.nextPgid⟩
          (ProcessGroup.new ⟨manager.nextPgid⟩ ⟨manager.nextSid⟩ leader)
        processToGroup := manager.processToGroup.insert leader ⟨manager.nextPgid⟩
        groupToSession := manager.groupToSession.insert ⟨manager.nextPgid⟩ ⟨manager.nextSid⟩ }) := by
  unfold ProcessGroupManager.createSession
  rw [Finmap.lookup_eq_none.mpr unmapped]
  rfl

theorem ProcessGroupManager.createProcessGroup_of_not_mem {leader : TaskId} {sessionId : SessionId}
    (missing : sessionId ∉ manager.sessions) :
    manager.createProcessGroup leader sessionId = some (.error "Session not found", manager) := by
  unfold ProcessGroupManager.createProcessGroup
  rw [if_pos missing]

theorem ProcessGroupManager.createProcessGroup_of_found {leader : TaskId} {sessionId : SessionId}
    {session : Session} (found : manager.sessions.lookup sessionId = some session)
    (fresh : ⟨manager.nextPgid⟩ ∉ session.processGroups) :
    manager.createProcessGroup leader sessionId = some (.ok ⟨manager.nextPgid⟩,
      { manager with
        nextPgid := manager.nextPgid + 1
        processGroups := manager.processGroups.insert ⟨manager.nextPgid⟩
          (ProcessGroup.new ⟨manager.nextPgid⟩ sessionId leader)
        processToGroup := manager.processToGroup.insert leader ⟨manager.nextPgid⟩
        groupToSession := manager.groupToSession.insert ⟨manager.nextPgid⟩ sessionId
        sessions := manager.sessions.insert sessionId
          { session with processGroups := session.processGroups ++ [⟨manager.nextPgid⟩] } }) := by
  unfold ProcessGroupManager.createProcessGroup
  rw [if_neg (not_not.mpr (Finmap.mem_of_lookup_eq_some found))]
  dsimp only
  rw [found]
  dsimp only
  rw [Session.addProcessGroup, if_neg fresh]

theorem ProcessGroupManager.addToProcessGroup_cases (pid : TaskId) (pgid : ProcessGroupId) :
    (manager.addToProcessGroup pid pgid).2 = manager ∨
      ∃ group, manager.processGroups.lookup pgid = some group ∧ pid ∉ group.members ∧
        (manager.addToProcessGroup pid pgid).2 =
          { manager with
            processGroups := manager.processGroups.insert pgid
              { group with members := group.members ++ [pid] }
            processToGroup := manager.processToGroup.insert pid pgid } := by
  unfold ProcessGroupManager.addToProcessGroup
  cases found : manager.processGroups.lookup pgid with
  | none => exact Or.inl rfl
  | some group =>
      dsimp only
      unfold ProcessGroup.addMember
      split_ifs with member
      · exact Or.inl rfl
      · exact Or.inr ⟨group, rfl, member, rfl⟩

theorem ProcessGroupManager.removeFromProcessGroup_of_not_mem {pid : TaskId}
    (unmapped : manager.processToGroup.lookup pid = none) :
    manager.removeFromProcessGroup pid = some (.error "Process not in any group", manager) := by
  unfold ProcessGroupManager.removeFromProcessGroup
  rw [unmapped]

section Remove

variable {pid : TaskId} {pgid : ProcessGroupId} {group : ProcessGroup}
  (mapped : manager.processToGroup.lookup pid = some pgid)
  (found : manager.processGroups.lookup pgid = some group) (member : pid ∈ group.members)
include mapped found member

theorem ProcessGroupManager.removeFromProcessGroup_of_remaining
    (remaining : group.members.erase pid ≠ []) :
    manager.removeFromProcessGroup pid = some (.ok (),
      { manager with
        processToGroup := manager.processToGroup.erase pid
        processGroups := manager.processGroups.insert pgid
          { group with members := group.members.erase pid } }) := by
  unfold ProcessGroupManager.removeFromProcessGroup
  rw [mapped]
  dsimp only
  rw [found]
  dsimp only
  rw [ProcessGroup.removeMember, if_pos member]
  dsimp only
  rw [ProcessGroup.isEmpty, List.isEmpty_eq_false_iff.mpr remaining]
  rfl

theorem ProcessGroupManager.removeFromProcessGroup_of_emptied
    (emptied : group.members.erase pid = []) {sid : SessionId}
    (sessionFound : manager.groupToSession.lookup pgid = some sid) {session : Session}
    (sessionExists : manager.sessions.lookup sid = some session)
    (listed : pgid ∈ session.processGroups) :
    manager.removeFromProcessGroup pid = some (.ok (),
      { manager with
        processToGroup := manager.processToGroup.erase pid
        groupToSession := manager.groupToSession.erase pgid
        processGroups := (manager.processGroups.insert pgid
          { group with members := group.members.erase pid }).erase pgid
        sessions :=
          if session.processGroups.erase pgid = [] then manager.sessions.erase sid
          else manager.sessions.insert sid
            { session with
              processGroups := session.processGroups.erase pgid
              foregroundGroup :=
                if session.foregroundGroup = some pgid then none else session.foregroundGroup } }) := by
  unfold ProcessGroupManager.removeFromProcessGroup
  rw [mapped]
  dsimp only
  rw [found]
  dsimp only
  rw [ProcessGroup.removeMember, if_pos member]
  dsimp only
  rw [ProcessGroup.isEmpty, emptied, List.isEmpty_nil, if_pos rfl, sessionFound]
  dsimp only
  rw [sessionExists]
  dsimp only
  unfold Session.removeProcessGroup
  rw [if_pos listed]
  dsimp only
  rw [Session.processGroupCount]
  by_cases noneLeft : session.processGroups.erase pgid = []
  · rw [if_pos (List.length_eq_zero_iff.mpr noneLeft), if_pos noneLeft]
  · rw [if_neg (mt List.length_eq_zero_iff.mp noneLeft), if_neg noneLeft]

end Remove

theorem ProcessGroupManager.setForeground_of_not_mem {pgid : ProcessGroupId}
    (missing : manager.groupToSession.lookup pgid = none) :
    (manager.setForeground pgid).2 = manager := by
  unfold ProcessGroupManager.setForeground
  rw [missing]

theorem ProcessGroupManager.setForeground_of_found {pgid : ProcessGroupId} {sid : SessionId}
    (sessionFound : manager.groupToSession.lookup pgid = some sid) {session : Session}
    (found : manager.sessions.lookup sid = some session) (listed : pgid ∈ session.processGroups) :
    (manager.setForeground pgid).2 =
      { manager with
        processGroups := (manager.clearForeground sid).modify pgid ProcessGroup.setForeground
        sessions := manager.sessions.insert sid { session with foregroundGroup := some pgid } } := by
  unfold ProcessGroupManager.setForeground
  rw [sessionFound]
  dsimp only
  rw [found]
  dsimp only
  rw [Session.setForegroundGroup, if_neg (not_not.mpr listed)]

theorem ProcessGroupManager.lookup_clearForeground (sid : SessionId) (pgid : ProcessGroupId) :
    (manager.clearForeground sid).lookup pgid =
      if manager.groupToSession.lookup pgid = some sid then
        (manager.processGroups.lookup pgid).map ProcessGroup.setBackground
      else manager.processGroups.lookup pgid := by
  unfold ProcessGroupManager.clearForeground
  rw [Finmap.lookup_foldl_modify _ _ _ _ (Finmap.nodup_sortedKeys _)]
  have inMap : manager.groupToSession.lookup pgid = some sid → pgid ∈ manager.groupToSession.sortedKeys :=
    fun inSession => (Finmap.mem_sortedKeys _ _).mpr (Finmap.mem_of_lookup_eq_some inSession)
  by_cases inSession : manager.groupToSession.lookup pgid = some sid
  · rw [if_pos ⟨inMap inSession, inSession⟩, if_pos inSession]
  · rw [if_neg (fun both => inSession both.2), if_neg inSession]

end Calls

/-! ### The invariant -/

/-- What every run keeps: memberships, sessions and foreground flags agree, and
the next ids are fresh. -/
structure ProcessGroupManager.WellFormed (manager : ProcessGroupManager) : Prop where
  member : ∀ pid pgid, manager.processToGroup.lookup pid = some pgid →
    ∃ group, manager.processGroups.lookup pgid = some group ∧ pid ∈ group.members
  groupSession : ∀ pgid group, manager.processGroups.lookup pgid = some group →
    manager.groupToSession.lookup pgid = some group.sessionId
  sessionGroup : ∀ pgid ∈ manager.groupToSession, pgid ∈ manager.processGroups
  listed : ∀ pgid sid, manager.groupToSession.lookup pgid = some sid →
    ∃ session, manager.sessions.lookup sid = some session ∧ pgid ∈ session.processGroups
  listedBack : ∀ sid session, manager.sessions.lookup sid = some session →
    ∀ pgid ∈ session.processGroups, manager.groupToSession.lookup pgid = some sid
  distinct : ∀ sid session, manager.sessions.lookup sid = some session →
    session.processGroups.Nodup
  foreground : ∀ pgid group, manager.processGroups.lookup pgid = some group →
    group.isForeground = true → ∃ session, manager.sessions.lookup group.sessionId = some session ∧
      session.foregroundGroup = some pgid
  foregroundGroup : ∀ sid session pgid, manager.sessions.lookup sid = some session →
    session.foregroundGroup = some pgid → pgid ∈ session.processGroups ∧
      ∃ group, manager.processGroups.lookup pgid = some group ∧ group.isForeground = true
  freshGroup : ∀ pgid ∈ manager.processGroups, pgid.val < manager.nextPgid
  freshSession : ∀ sid ∈ manager.sessions, sid.val < manager.nextSid

theorem ProcessGroupManager.new_wellFormed : ProcessGroupManager.new.WellFormed where
  member pid pgid found := by cases found
  groupSession pgid group found := by cases found
  sessionGroup pgid member := absurd member (Finmap.notMem_empty)
  listed pgid sid found := by cases found
  listedBack sid session found := by cases found
  distinct sid session found := by cases found
  foreground pgid group found := by cases found
  foregroundGroup sid session pgid found := by cases found
  freshGroup pgid member := absurd member (Finmap.notMem_empty)
  freshSession sid member := absurd member (Finmap.notMem_empty)

section WellFormed

variable {manager : ProcessGroupManager} (wf : manager.WellFormed)
include wf

theorem ProcessGroupManager.WellFormed.next_not_mem_processGroups :
    (⟨manager.nextPgid⟩ : ProcessGroupId) ∉ manager.processGroups :=
  fun member => Nat.lt_irrefl _ (wf.freshGroup _ member)

theorem ProcessGroupManager.WellFormed.ne_next_of_mem {pgid : ProcessGroupId}
    (member : pgid ∈ manager.processGroups) : pgid ≠ ⟨manager.nextPgid⟩ := by
  rintro rfl
  exact wf.next_not_mem_processGroups member

theorem ProcessGroupManager.WellFormed.ne_nextSid_of_mem {sid : SessionId}
    (member : sid ∈ manager.sessions) : sid ≠ ⟨manager.nextSid⟩ := by
  rintro rfl
  exact Nat.lt_irrefl _ (wf.freshSession _ member)

theorem ProcessGroupManager.WellFormed.mem_of_listed {sid : SessionId} {session : Session}
    (found : manager.sessions.lookup sid = some session) {pgid : ProcessGroupId}
    (listed : pgid ∈ session.processGroups) : pgid ∈ manager.processGroups :=
  wf.sessionGroup _ (Finmap.mem_of_lookup_eq_some (wf.listedBack sid session found pgid listed))

theorem ProcessGroupManager.WellFormed.next_not_listed {sid : SessionId} {session : Session}
    (found : manager.sessions.lookup sid = some session) :
    (⟨manager.nextPgid⟩ : ProcessGroupId) ∉ session.processGroups :=
  fun listed => wf.next_not_mem_processGroups (wf.mem_of_listed found listed)

/-! A new group `⟨next_pgid⟩` of session `sid` led by `leader`, as both
`create_session` and `create_process_group` add it. -/

theorem ProcessGroupManager.WellFormed.member_newGroup (leader : TaskId) (sid : SessionId) :
    ∀ pid pgid, (manager.processToGroup.insert leader ⟨manager.nextPgid⟩).lookup pid = some pgid →
      ∃ group, (manager.processGroups.insert ⟨manager.nextPgid⟩
        (ProcessGroup.new ⟨manager.nextPgid⟩ sid leader)).lookup pgid = some group ∧
        pid ∈ group.members := by
  intro pid pgid found
  rw [Finmap.lookup_insert_eq_ite] at found
  split_ifs at found with isLeader
  · cases found
    subst isLeader
    exact ⟨_, Finmap.lookup_insert _, List.mem_singleton_self _⟩
  · obtain ⟨group, groupFound, member⟩ := wf.member pid pgid found
    rw [Finmap.lookup_insert_of_ne _ (wf.ne_next_of_mem (Finmap.mem_of_lookup_eq_some groupFound))]
    exact ⟨group, groupFound, member⟩

theorem ProcessGroupManager.WellFormed.groupSession_newGroup (leader : TaskId) (sid : SessionId) :
    ∀ pgid group, (manager.processGroups.insert ⟨manager.nextPgid⟩
        (ProcessGroup.new ⟨manager.nextPgid⟩ sid leader)).lookup pgid = some group →
      (manager.groupToSession.insert ⟨manager.nextPgid⟩ sid).lookup pgid = some group.sessionId := by
  intro pgid group found
  rw [Finmap.lookup_insert_eq_ite] at found ⊢
  split_ifs at found ⊢ with isNew
  · cases found
    rfl
  · exact wf.groupSession pgid group found

theorem ProcessGroupManager.WellFormed.sessionGroup_newGroup (group : ProcessGroup)
    (sid : SessionId) : ∀ pgid ∈ manager.groupToSession.insert ⟨manager.nextPgid⟩ sid,
      pgid ∈ manager.processGroups.insert ⟨manager.nextPgid⟩ group := by
  intro pgid member
  rcases Finmap.mem_insert.mp member with rfl | old
  · exact Finmap.mem_insert.mpr (Or.inl rfl)
  · exact Finmap.mem_insert.mpr (Or.inr (wf.sessionGroup pgid old))

theorem ProcessGroupManager.WellFormed.freshGroup_newGroup (group : ProcessGroup) :
    ∀ pgid ∈ manager.processGroups.insert ⟨manager.nextPgid⟩ group,
      pgid.val < manager.nextPgid + 1 := by
  intro pgid member
  rcases Finmap.mem_insert.mp member with rfl | old
  · exact Nat.lt_succ_self _
  · exact Nat.lt_succ_of_lt (wf.freshGroup pgid old)

theorem ProcessGroupManager.WellFormed.lookup_newGroup {pgid : ProcessGroupId}
    {group : ProcessGroup} (found : manager.processGroups.lookup pgid = some group)
    (newGroup : ProcessGroup) :
    (manager.processGroups.insert ⟨manager.nextPgid⟩ newGroup).lookup pgid = some group := by
  rw [Finmap.lookup_insert_of_ne _ (wf.ne_next_of_mem (Finmap.mem_of_lookup_eq_some found))]
  exact found

theorem ProcessGroupManager.WellFormed.createSession (leader : TaskId) :
    ProcessGroupManager.WellFormed
      { manager with
        nextSid := manager.nextSid + 1
        nextPgid := manager.nextPgid + 1
        sessions := manager.sessions.insert ⟨manager.nextSid⟩
          ⟨⟨manager.nextSid⟩, leader, [⟨manager.nextPgid⟩], none⟩
        processGroups := manager.processGroups.insert ⟨manager.nextPgid⟩
          (ProcessGroup.new ⟨manager.nextPgid⟩ ⟨manager.nextSid⟩ leader)
        processToGroup := manager.processToGroup.insert leader ⟨manager.nextPgid⟩
        groupToSession := manager.groupToSession.insert ⟨manager.nextPgid⟩ ⟨manager.nextSid⟩ } := by
  have sessionKept : ∀ sid session, manager.sessions.lookup sid = some session →
      sid ≠ ⟨manager.nextSid⟩ :=
    fun sid session found => wf.ne_nextSid_of_mem (Finmap.mem_of_lookup_eq_some found)
  refine ⟨wf.member_newGroup leader _, wf.groupSession_newGroup leader _,
    wf.sessionGroup_newGroup _ _, ?_, ?_, ?_, ?_, ?_, wf.freshGroup_newGroup _, ?_⟩
  · intro pgid sid found
    simp only [Finmap.lookup_insert_eq_ite] at found ⊢
    split_ifs at found with isNew
    · cases found
      subst isNew
      exact ⟨_, if_pos rfl, List.mem_singleton_self _⟩
    · obtain ⟨session, sessionFound, listed⟩ := wf.listed pgid sid found
      rw [if_neg (sessionKept _ _ sessionFound)]
      exact ⟨session, sessionFound, listed⟩
  · intro sid session found pgid listed
    simp only [Finmap.lookup_insert_eq_ite] at found ⊢
    split_ifs at found with isNew
    · cases found
      subst isNew
      rw [List.mem_singleton.mp listed, if_pos rfl]
    · rw [if_neg (wf.ne_next_of_mem (wf.mem_of_listed found listed))]
      exact wf.listedBack sid session found pgid listed
  · intro sid session found
    rw [Finmap.lookup_insert_eq_ite] at found
    split_ifs at found
    · cases found
      exact List.nodup_singleton _
    · exact wf.distinct sid session found
  · intro pgid group found isForeground
    rw [Finmap.lookup_insert_eq_ite] at found
    split_ifs at found
    · cases found
      cases isForeground
    · obtain ⟨session, sessionFound, foreground⟩ := wf.foreground pgid group found isForeground
      rw [Finmap.lookup_insert_of_ne _ (sessionKept _ _ sessionFound)]
      exact ⟨session, sessionFound, foreground⟩
  · intro sid session pgid found isForeground
    rw [Finmap.lookup_insert_eq_ite] at found
    split_ifs at found
    · cases found
      cases isForeground
    · obtain ⟨listed, group, groupFound, foreground⟩ :=
        wf.foregroundGroup sid session pgid found isForeground
      exact ⟨listed, group, wf.lookup_newGroup groupFound _, foreground⟩
  · intro sid member
    rcases Finmap.mem_insert.mp member with rfl | old
    · exact Nat.lt_succ_self _
    · exact Nat.lt_succ_of_lt (wf.freshSession sid old)

theorem ProcessGroupManager.WellFormed.createProcessGroup (leader : TaskId) {sessionId : SessionId}
    {session : Session} (found : manager.sessions.lookup sessionId = some session) :
    ProcessGroupManager.WellFormed
      { manager with
        nextPgid := manager.nextPgid + 1
        processGroups := manager.processGroups.insert ⟨manager.nextPgid⟩
          (ProcessGroup.new ⟨manager.nextPgid⟩ sessionId leader)
        processToGroup := manager.processToGroup.insert leader ⟨manager.nextPgid⟩
        groupToSession := manager.groupToSession.insert ⟨manager.nextPgid⟩ sessionId
        sessions := manager.sessions.insert sessionId
          { session with processGroups := session.processGroups ++ [⟨manager.nextPgid⟩] } } := by
  refine ⟨wf.member_newGroup leader _, wf.groupSession_newGroup leader _,
    wf.sessionGroup_newGroup _ _, ?_, ?_, ?_, ?_, ?_, wf.freshGroup_newGroup _, ?_⟩
  · intro pgid sid groupFound
    rw [Finmap.lookup_insert_eq_ite] at groupFound
    split_ifs at groupFound with isNew
    · cases groupFound
      subst isNew
      rw [Finmap.lookup_insert]
      exact ⟨_, rfl, List.mem_append_right _ (List.mem_singleton_self _)⟩
    · obtain ⟨other, otherFound, listed⟩ := wf.listed pgid sid groupFound
      exact Finmap.exists_lookup_insert found (List.mem_append_left _) otherFound listed
  · intro sid other otherFound pgid listed
    simp only [Finmap.lookup_insert_eq_ite] at otherFound ⊢
    split_ifs at otherFound with isSession
    · cases otherFound
      subst isSession
      rcases List.mem_append.mp listed with old | new
      · rw [if_neg (wf.ne_next_of_mem (wf.mem_of_listed found old))]
        exact wf.listedBack _ _ found pgid old
      · rw [List.mem_singleton.mp new, if_pos rfl]
    · rw [if_neg (wf.ne_next_of_mem (wf.mem_of_listed otherFound listed))]
      exact wf.listedBack sid other otherFound pgid listed
  · intro sid other otherFound
    rw [Finmap.lookup_insert_eq_ite] at otherFound
    split_ifs at otherFound
    · cases otherFound
      rw [← List.concat_eq_append]
      exact (wf.distinct _ _ found).concat (wf.next_not_listed found)
    · exact wf.distinct sid other otherFound
  · intro pgid group groupFound isForeground
    rw [Finmap.lookup_insert_eq_ite] at groupFound
    split_ifs at groupFound
    · cases groupFound
      cases isForeground
    · obtain ⟨other, otherFound, foreground⟩ := wf.foreground pgid group groupFound isForeground
      exact Finmap.exists_lookup_insert found id otherFound foreground
  · intro sid other pgid otherFound isForeground
    rw [Finmap.lookup_insert_eq_ite] at otherFound
    split_ifs at otherFound with isSession
    · cases otherFound
      subst isSession
      obtain ⟨listed, group, groupFound, foreground⟩ :=
        wf.foregroundGroup _ _ pgid found isForeground
      exact ⟨List.mem_append_left _ listed, group, wf.lookup_newGroup groupFound _, foreground⟩
    · obtain ⟨listed, group, groupFound, foreground⟩ :=
        wf.foregroundGroup sid other pgid otherFound isForeground
      exact ⟨listed, group, wf.lookup_newGroup groupFound _, foreground⟩
  · intro sid member
    rcases Finmap.mem_insert.mp member with rfl | old
    · exact wf.freshSession _ (Finmap.mem_of_lookup_eq_some found)
    · exact wf.freshSession sid old
theorem ProcessGroupManager.WellFormed.withMembers {pgid : ProcessGroupId} {group : ProcessGroup}
    (found : manager.processGroups.lookup pgid = some group) (members : List TaskId)
    (processToGroup : Finmap (fun _ : TaskId => ProcessGroupId))
    (member : ∀ pid other, processToGroup.lookup pid = some other →
      ∃ group', (manager.processGroups.insert pgid { group with members := members }).lookup other =
        some group' ∧ pid ∈ group'.members) :
    ProcessGroupManager.WellFormed
      { manager with
        processGroups := manager.processGroups.insert pgid { group with members := members }
        processToGroup := processToGroup } := by
  have changed : ∀ other group', (manager.processGroups.insert pgid
      { group with members := members }).lookup other = some group' →
      ∃ old, manager.processGroups.lookup other = some old ∧ old.sessionId = group'.sessionId ∧
        old.isForeground = group'.isForeground := by
    intro other group' otherFound
    rw [Finmap.lookup_insert_eq_ite] at otherFound
    split_ifs at otherFound with same
    · cases otherFound
      subst same
      exact ⟨group, found, rfl, rfl⟩
    · exact ⟨group', otherFound, rfl, rfl⟩
  refine ⟨member, ?_, ?_, wf.listed, wf.listedBack, wf.distinct, ?_, ?_, ?_, wf.freshSession⟩
  · intro other group' otherFound
    obtain ⟨old, oldFound, sameSession, -⟩ := changed other group' otherFound
    rw [← sameSession]
    exact wf.groupSession other old oldFound
  · intro other inMap
    exact Finmap.mem_insert.mpr (Or.inr (wf.sessionGroup other inMap))
  · intro other group' otherFound isForeground
    obtain ⟨old, oldFound, sameSession, sameFlag⟩ := changed other group' otherFound
    rw [← sameSession]
    exact wf.foreground other old oldFound (sameFlag.trans isForeground)
  · intro sid session other sessionFound isForeground
    obtain ⟨listed, old, oldFound, foreground⟩ :=
      wf.foregroundGroup sid session other sessionFound isForeground
    exact ⟨listed, Finmap.exists_lookup_insert found id oldFound foreground⟩
  · intro other inMap
    rcases Finmap.mem_insert.mp inMap with rfl | old
    · exact wf.freshGroup _ (Finmap.mem_of_lookup_eq_some found)
    · exact wf.freshGroup other old

theorem ProcessGroupManager.WellFormed.addToProcessGroup {pid : TaskId} {pgid : ProcessGroupId}
    {group : ProcessGroup} (found : manager.processGroups.lookup pgid = some group) :
    ProcessGroupManager.WellFormed
      { manager with
        processGroups := manager.processGroups.insert pgid
          { group with members := group.members ++ [pid] }
        processToGroup := manager.processToGroup.insert pid pgid } := by
  refine wf.withMembers found _ _ ?_
  intro other otherGroup mapped
  rw [Finmap.lookup_insert_eq_ite] at mapped
  split_ifs at mapped with isPid
  · cases mapped
    subst isPid
    exact ⟨_, Finmap.lookup_insert _, List.mem_append_right _ (List.mem_singleton_self _)⟩
  · obtain ⟨old, oldFound, member⟩ := wf.member other otherGroup mapped
    exact Finmap.exists_lookup_insert found (List.mem_append_left _) oldFound member

theorem ProcessGroupManager.WellFormed.removeMember {pid : TaskId} {pgid : ProcessGroupId}
    {group : ProcessGroup} (found : manager.processGroups.lookup pgid = some group) :
    ProcessGroupManager.WellFormed
      { manager with
        processToGroup := manager.processToGroup.erase pid
        processGroups := manager.processGroups.insert pgid
          { group with members := group.members.erase pid } } := by
  refine wf.withMembers found _ _ ?_
  intro other otherGroup mapped
  rw [Finmap.lookup_erase_eq_ite] at mapped
  split_ifs at mapped with isPid
  obtain ⟨old, oldFound, member⟩ := wf.member other otherGroup mapped
  exact Finmap.exists_lookup_insert found (List.mem_erase_of_ne isPid).mpr oldFound member

theorem ProcessGroupManager.WellFormed.removeGroup {pid : TaskId} {pgid : ProcessGroupId}
    {group : ProcessGroup} (mapped : manager.processToGroup.lookup pid = some pgid)
    (found : manager.processGroups.lookup pgid = some group)
    (emptied : group.members.erase pid = []) {sid : SessionId}
    (sessionFound : manager.groupToSession.lookup pgid = some sid) {session : Session}
    (sessionExists : manager.sessions.lookup sid = some session)
    (sessions : Finmap (fun _ : SessionId => Session))
    (unchanged : ∀ otherSid, otherSid ≠ sid →
      sessions.lookup otherSid = manager.sessions.lookup otherSid)
    (atSid : sessions.lookup sid =
      if session.processGroups.erase pgid = [] then none
      else some { session with
        processGroups := session.processGroups.erase pgid
        foregroundGroup :=
          if session.foregroundGroup = some pgid then none else session.foregroundGroup }) :
    ProcessGroupManager.WellFormed
      { manager with
        processToGroup := manager.processToGroup.erase pid
        groupToSession := manager.groupToSession.erase pgid
        processGroups := (manager.processGroups.insert pgid
          { group with members := group.members.erase pid }).erase pgid
        sessions := sessions } := by
  have groupsAfter : ∀ other, ((manager.processGroups.insert pgid
      { group with members := group.members.erase pid }).erase pgid).lookup other =
      if other = pgid then none else manager.processGroups.lookup other := by
    intro other
    rw [Finmap.lookup_erase_eq_ite, Finmap.lookup_insert_eq_ite]
    split_ifs <;> rfl
  have distinct := wf.distinct sid session sessionExists
  have atSidSome : ∀ otherSession, sessions.lookup sid = some otherSession →
      otherSession = { session with
        processGroups := session.processGroups.erase pgid
        foregroundGroup :=
          if session.foregroundGroup = some pgid then none else session.foregroundGroup } := by
    intro otherSession otherExists
    rw [atSid] at otherExists
    by_cases noneLeft : session.processGroups.erase pgid = []
    · rw [if_pos noneLeft] at otherExists
      cases otherExists
    · rw [if_neg noneLeft, Option.some.injEq] at otherExists
      exact otherExists.symm
  -- A group other than `pgid` named by `group_to_session` or by a session is not `pgid`.
  have otherGroup : ∀ other otherSid, manager.groupToSession.lookup other = some otherSid →
      otherSid ≠ sid → other ≠ pgid := by
    rintro other otherSid otherFound different rfl
    rw [sessionFound, Option.some.injEq] at otherFound
    exact different otherFound.symm
  -- The session keeps every listed group but `pgid`, so it stays when one is left.
  have kept : ∀ other, other ∈ session.processGroups → other ≠ pgid →
      sessions.lookup sid = some { session with
        processGroups := session.processGroups.erase pgid
        foregroundGroup :=
          if session.foregroundGroup = some pgid then none else session.foregroundGroup } ∧
        other ∈ session.processGroups.erase pgid := by
    intro other listed different
    have stays : other ∈ session.processGroups.erase pgid := (List.mem_erase_of_ne different).mpr listed
    rw [atSid, if_neg (List.ne_nil_of_mem stays)]
    exact ⟨rfl, stays⟩
  refine ⟨?_, ?_, ?_, ?_, ?_, ?_, ?_, ?_, ?_, ?_⟩
  · intro pid' other otherMapped
    rw [Finmap.lookup_erase_eq_ite] at otherMapped
    split_ifs at otherMapped with isPid
    obtain ⟨old, oldFound, member⟩ := wf.member pid' other otherMapped
    -- The emptied group had no member but `pid`.
    have different : other ≠ pgid := by
      rintro rfl
      rw [found, Option.some.injEq] at oldFound
      subst oldFound
      have stays := (List.mem_erase_of_ne isPid).mpr member
      rw [emptied] at stays
      exact List.not_mem_nil stays
    rw [groupsAfter, if_neg different]
    exact ⟨old, oldFound, member⟩
  · intro other group' otherFound
    rw [groupsAfter] at otherFound
    split_ifs at otherFound with different
    rw [Finmap.lookup_erase_ne different]
    exact wf.groupSession other group' otherFound
  · intro other inMap
    obtain ⟨different, old⟩ := Finmap.mem_erase.mp inMap
    exact Finmap.mem_erase.mpr ⟨different, Finmap.mem_insert.mpr (Or.inr (wf.sessionGroup other old))⟩
  · intro other otherSid otherFound
    rw [Finmap.lookup_erase_eq_ite] at otherFound
    split_ifs at otherFound with different
    obtain ⟨otherSession, otherExists, listed⟩ := wf.listed other otherSid otherFound
    by_cases isSid : otherSid = sid
    · subst isSid
      rw [sessionExists, Option.some.injEq] at otherExists
      subst otherExists
      obtain ⟨stays, member⟩ := kept other listed different
      exact ⟨_, stays, member⟩
    · rw [unchanged otherSid isSid]
      exact ⟨otherSession, otherExists, listed⟩
  · intro otherSid otherSession otherExists other listed
    by_cases isSid : otherSid = sid
    · subst isSid
      obtain rfl := atSidSome _ otherExists
      obtain ⟨different, old⟩ := (distinct.mem_erase_iff).mp listed
      rw [Finmap.lookup_erase_ne different]
      exact wf.listedBack _ _ sessionExists other old
    · rw [unchanged otherSid isSid] at otherExists
      have oldFound := wf.listedBack otherSid otherSession otherExists other listed
      rw [Finmap.lookup_erase_ne (otherGroup other otherSid oldFound isSid)]
      exact oldFound
  · intro otherSid otherSession otherExists
    by_cases isSid : otherSid = sid
    · subst isSid
      obtain rfl := atSidSome _ otherExists
      exact distinct.erase pgid
    · rw [unchanged otherSid isSid] at otherExists
      exact wf.distinct otherSid otherSession otherExists
  · intro other group' otherFound isForeground
    rw [groupsAfter] at otherFound
    split_ifs at otherFound with different
    obtain ⟨otherSession, otherExists, foreground⟩ := wf.foreground other group' otherFound isForeground
    by_cases isSid : group'.sessionId = sid
    · rw [isSid, sessionExists, Option.some.injEq] at otherExists
      subst otherExists
      obtain ⟨listed, -⟩ := wf.foregroundGroup _ _ other sessionExists foreground
      obtain ⟨stays, -⟩ := kept other listed different
      rw [isSid, stays]
      refine ⟨_, rfl, ?_⟩
      dsimp only
      rw [foreground, if_neg (fun same => different (Option.some.inj same))]
    · rw [unchanged _ isSid]
      exact ⟨otherSession, otherExists, foreground⟩
  · intro otherSid otherSession other otherExists isForeground
    by_cases isSid : otherSid = sid
    · subst isSid
      obtain rfl := atSidSome _ otherExists
      dsimp only at isForeground
      split_ifs at isForeground with wasRemoved
      obtain ⟨listed, old, oldFound, foreground⟩ :=
        wf.foregroundGroup _ _ other sessionExists isForeground
      have different : other ≠ pgid := by
        rintro rfl
        exact wasRemoved isForeground
      rw [groupsAfter, if_neg different]
      exact ⟨(List.mem_erase_of_ne different).mpr listed, old, oldFound, foreground⟩
    · rw [unchanged otherSid isSid] at otherExists
      obtain ⟨listed, old, oldFound, foreground⟩ :=
        wf.foregroundGroup otherSid otherSession other otherExists isForeground
      have different := otherGroup other otherSid
        (wf.listedBack otherSid otherSession otherExists other listed) isSid
      rw [groupsAfter, if_neg different]
      exact ⟨listed, old, oldFound, foreground⟩
  · intro other inMap
    obtain ⟨-, inserted⟩ := Finmap.mem_erase.mp inMap
    rcases Finmap.mem_insert.mp inserted with rfl | old
    · exact wf.freshGroup _ (Finmap.mem_of_lookup_eq_some found)
    · exact wf.freshGroup other old
  · intro otherSid inMap
    obtain ⟨otherSession, otherExists⟩ := Finmap.mem_iff.mp inMap
    by_cases isSid : otherSid = sid
    · subst isSid
      exact wf.freshSession _ (Finmap.mem_of_lookup_eq_some sessionExists)
    · rw [unchanged otherSid isSid] at otherExists
      exact wf.freshSession _ (Finmap.mem_of_lookup_eq_some otherExists)

theorem ProcessGroupManager.WellFormed.setForeground {pgid : ProcessGroupId} {sid : SessionId}
    (sessionFound : manager.groupToSession.lookup pgid = some sid) {session : Session}
    (found : manager.sessions.lookup sid = some session) :
    ProcessGroupManager.WellFormed
      { manager with
        processGroups := (manager.clearForeground sid).modify pgid ProcessGroup.setForeground
        sessions := manager.sessions.insert sid { session with foregroundGroup := some pgid } } := by
  obtain ⟨listedSession, listedFound, listed⟩ := wf.listed pgid sid sessionFound
  rw [found, Option.some.injEq] at listedFound
  subst listedFound
  -- Every group keeps its members and its session; the flags of the session's groups change.
  have flags : ∀ other,
      ((manager.clearForeground sid).modify pgid ProcessGroup.setForeground).lookup other =
        if other = pgid then (manager.processGroups.lookup other).map ProcessGroup.setForeground
        else if manager.groupToSession.lookup other = some sid then
          (manager.processGroups.lookup other).map ProcessGroup.setBackground
        else manager.processGroups.lookup other := by
    intro other
    rw [Finmap.lookup_modify]
    by_cases isGroup : other = pgid
    · subst isGroup
      rw [if_pos rfl, if_pos rfl, ProcessGroupManager.lookup_clearForeground, if_pos sessionFound,
        Option.map_map]
      rfl
    · rw [if_neg isGroup, if_neg isGroup, ProcessGroupManager.lookup_clearForeground]
  have memIff : ∀ other,
      other ∈ (manager.clearForeground sid).modify pgid ProcessGroup.setForeground ↔
        other ∈ manager.processGroups := by
    intro other
    rw [← Finmap.lookup_isSome, ← Finmap.lookup_isSome, flags]
    split_ifs
    · rw [Option.isSome_map]
    · rw [Option.isSome_map]
    · rfl
  have otherSession : ∀ other otherSid, manager.groupToSession.lookup other = some otherSid →
      otherSid ≠ sid → other ≠ pgid ∧ manager.groupToSession.lookup other ≠ some sid := by
    intro other otherSid otherFound different
    refine ⟨?_, fun inSession => different (Option.some.inj (otherFound.symm.trans inSession))⟩
    rintro rfl
    exact different (Option.some.inj (otherFound.symm.trans sessionFound))
  refine ⟨?_, ?_, ?_, ?_, ?_, ?_, ?_, ?_, ?_, ?_⟩
  · intro pid other mapped
    obtain ⟨group, groupFound, member⟩ := wf.member pid other mapped
    rw [flags]
    split_ifs <;> rw [groupFound] <;> exact ⟨_, rfl, member⟩
  · intro other group' otherFound
    rw [flags] at otherFound
    split_ifs at otherFound
    · obtain ⟨group, groupFound, rfl⟩ := Option.map_eq_some_iff.mp otherFound
      exact wf.groupSession other group groupFound
    · obtain ⟨group, groupFound, rfl⟩ := Option.map_eq_some_iff.mp otherFound
      exact wf.groupSession other group groupFound
    · exact wf.groupSession other group' otherFound
  · intro other inMap
    exact (memIff other).mpr (wf.sessionGroup other inMap)
  · intro other otherSid otherFound
    obtain ⟨otherSessionValue, otherExists, otherListed⟩ := wf.listed other otherSid otherFound
    exact Finmap.exists_lookup_insert found id otherExists otherListed
  · intro otherSid otherSessionValue otherExists other otherListed
    rw [Finmap.lookup_insert_eq_ite] at otherExists
    split_ifs at otherExists with isSid
    · cases otherExists
      subst isSid
      exact wf.listedBack _ _ found other otherListed
    · exact wf.listedBack otherSid otherSessionValue otherExists other otherListed
  · intro otherSid otherSessionValue otherExists
    rw [Finmap.lookup_insert_eq_ite] at otherExists
    split_ifs at otherExists with isSid
    · cases otherExists
      exact wf.distinct sid session found
    · exact wf.distinct otherSid otherSessionValue otherExists
  · intro other group' otherFound isForeground
    rw [flags] at otherFound
    split_ifs at otherFound with isGroup inSession
    · subst isGroup
      obtain ⟨group, groupFound, rfl⟩ := Option.map_eq_some_iff.mp otherFound
      have sameSession : group.sessionId = sid :=
        Option.some.inj ((wf.groupSession _ group groupFound).symm.trans sessionFound)
      show ∃ session', (manager.sessions.insert sid _).lookup group.sessionId = some session' ∧ _
      rw [sameSession, Finmap.lookup_insert]
      exact ⟨_, rfl, rfl⟩
    · obtain ⟨group, groupFound, rfl⟩ := Option.map_eq_some_iff.mp otherFound
      cases isForeground
    · obtain ⟨otherSessionValue, otherExists, foreground⟩ :=
        wf.foreground other group' otherFound isForeground
      have different : group'.sessionId ≠ sid := by
        intro same
        rw [← same] at inSession
        exact inSession (wf.groupSession other group' otherFound)
      rw [Finmap.lookup_insert_of_ne _ different]
      exact ⟨otherSessionValue, otherExists, foreground⟩
  · intro otherSid otherSessionValue other otherExists isForeground
    rw [Finmap.lookup_insert_eq_ite] at otherExists
    split_ifs at otherExists with isSid
    · cases otherExists
      cases isForeground
      obtain ⟨group, groupFound⟩ :=
        Finmap.mem_iff.mp (wf.sessionGroup _ (Finmap.mem_of_lookup_eq_some sessionFound))
      refine ⟨listed, ?_⟩
      rw [flags, if_pos rfl, groupFound]
      exact ⟨_, rfl, rfl⟩
    · obtain ⟨otherListed, group, groupFound, foreground⟩ :=
        wf.foregroundGroup otherSid otherSessionValue other otherExists isForeground
      obtain ⟨notGroup, notInSession⟩ := otherSession other otherSid
        (wf.listedBack otherSid otherSessionValue otherExists other otherListed) isSid
      rw [flags, if_neg notGroup, if_neg notInSession]
      exact ⟨otherListed, group, groupFound, foreground⟩
  · intro other inMap
    exact wf.freshGroup other ((memIff other).mp inMap)
  · intro otherSid inMap
    rcases Finmap.mem_insert.mp inMap with rfl | old
    · exact wf.freshSession _ (Finmap.mem_of_lookup_eq_some found)
    · exact wf.freshSession otherSid old

end WellFormed

/-! ### Runs -/

theorem ProcessGroupManager.WellFormed.step {manager : ProcessGroupManager}
    (wf : manager.WellFormed) (op : PgroupOp) :
    ∃ after, manager.step op = some after ∧ after.WellFormed := by
  cases op with
  | createSession leader =>
      by_cases mapped : leader ∈ manager.processToGroup
      · obtain ⟨message, called⟩ := ProcessGroupManager.createSession_of_mem mapped
        refine ⟨manager, ?_, wf⟩
        rw [ProcessGroupManager.step, called]
        rfl
      · refine ⟨_, ?_, wf.createSession leader⟩
        rw [ProcessGroupManager.step, ProcessGroupManager.createSession_of_not_mem mapped]
        rfl
  | createProcessGroup leader sessionId =>
      cases found : manager.sessions.lookup sessionId with
      | none =>
          refine ⟨manager, ?_, wf⟩
          rw [ProcessGroupManager.step,
            ProcessGroupManager.createProcessGroup_of_not_mem (Finmap.lookup_eq_none.mp found)]
          rfl
      | some session =>
          refine ⟨_, ?_, wf.createProcessGroup leader found⟩
          rw [ProcessGroupManager.step,
            ProcessGroupManager.createProcessGroup_of_found found (wf.next_not_listed found)]
          rfl
  | addToProcessGroup pid pgid =>
      refine ⟨_, rfl, ?_⟩
      rcases ProcessGroupManager.addToProcessGroup_cases pid pgid with
        same | ⟨group, found, -, added⟩
      · rw [same]
        exact wf
      · rw [added]
        exact wf.addToProcessGroup found
  | removeFromProcessGroup pid =>
      cases mapped : manager.processToGroup.lookup pid with
      | none =>
          refine ⟨manager, ?_, wf⟩
          rw [ProcessGroupManager.step, ProcessGroupManager.removeFromProcessGroup_of_not_mem mapped]
          rfl
      | some pgid =>
          -- The invariant rules out the branches where the group or its session is missing.
          obtain ⟨group, found, member⟩ := wf.member pid pgid mapped
          by_cases emptied : group.members.erase pid = []
          · have sessionFound := wf.groupSession pgid group found
            obtain ⟨session, sessionExists, listed⟩ := wf.listed _ _ sessionFound
            rw [ProcessGroupManager.step, ProcessGroupManager.removeFromProcessGroup_of_emptied
              mapped found member emptied sessionFound sessionExists listed]
            refine ⟨_, rfl, wf.removeGroup mapped found emptied sessionFound sessionExists _ ?_ ?_⟩
            · intro otherSid different
              by_cases noneLeft : session.processGroups.erase pgid = []
              · rw [if_pos noneLeft]
                exact Finmap.lookup_erase_ne different
              · rw [if_neg noneLeft]
                exact Finmap.lookup_insert_of_ne _ different
            · by_cases noneLeft : session.processGroups.erase pgid = []
              · rw [if_pos noneLeft, if_pos noneLeft]
                exact Finmap.lookup_erase _ _
              · rw [if_neg noneLeft, if_neg noneLeft]
                exact Finmap.lookup_insert _
          · rw [ProcessGroupManager.step,
              ProcessGroupManager.removeFromProcessGroup_of_remaining mapped found member emptied]
            exact ⟨_, rfl, wf.removeMember found⟩
  | setForeground pgid =>
      refine ⟨_, rfl, ?_⟩
      cases sessionFound : manager.groupToSession.lookup pgid with
      | none =>
          rw [ProcessGroupManager.setForeground_of_not_mem sessionFound]
          exact wf
      | some sid =>
          obtain ⟨session, found, listed⟩ := wf.listed _ _ sessionFound
          rw [ProcessGroupManager.setForeground_of_found sessionFound found listed]
          exact wf.setForeground sessionFound found

/-- No run of calls from `new` panics, and every manager it reaches is well
formed: a mapped process is a member of its group, each group's session lists
it and is recorded for it, a foreground group is its session's foreground
group, and the next ids are fresh. -/
theorem process_group_manager_never_panics (ops : List PgroupOp) :
    ∃ manager, run (haltingStep ProcessGroupManager.step) (some ProcessGroupManager.new) ops =
      some manager ∧ manager.WellFormed :=
  Invariant.haltingRun (fun _ op wf => wf.step op) ProcessGroupManager.new_wellFormed ops

end FangaOS.Pgroup
