import FangaOS.Lib.Run
import FangaOS.Lib.MapUpdate
import FangaOS.Task.Tcb

/-! Process groups and sessions of `task/pgroup.rs`.  Each call returns its result
with the manager it leaves, since two calls fail after changing it; a call that
reaches one of the three `unwrap`s returns `none`. -/

namespace FangaOS.Pgroup

open StepMachine FangaOS.Tcb

/-- `ProcessGroupId(usize)`, ordered by its number as the derived `Ord` does;
the order also gives its equality test. -/
structure ProcessGroupId where
  val : Nat
  deriving Repr

instance : LinearOrder ProcessGroupId :=
  LinearOrder.lift' ProcessGroupId.val fun first second same => by
    cases first
    cases second
    cases same
    rfl

structure SessionId where
  val : Nat
  deriving DecidableEq, Repr

structure ProcessGroup where
  id : ProcessGroupId
  sessionId : SessionId
  leader : TaskId
  members : List TaskId
  isForeground : Bool
  deriving DecidableEq, Repr

def ProcessGroup.new (id : ProcessGroupId) (sessionId : SessionId) (leader : TaskId) :
    ProcessGroup :=
  { id := id, sessionId := sessionId, leader := leader, members := [leader],
    isForeground := false }

def ProcessGroup.addMember (group : ProcessGroup) (pid : TaskId) : Except String ProcessGroup :=
  if pid ∈ group.members then .error "Process already in group"
  else .ok { group with members := group.members ++ [pid] }

/-- `remove_member`: the first position holding `pid` is removed. -/
def ProcessGroup.removeMember (group : ProcessGroup) (pid : TaskId) :
    Except String ProcessGroup :=
  if pid ∈ group.members then .ok { group with members := group.members.erase pid }
  else .error "Process not in group"

def ProcessGroup.isEmpty (group : ProcessGroup) : Bool :=
  group.members.isEmpty

def ProcessGroup.setForeground (group : ProcessGroup) : ProcessGroup :=
  { group with isForeground := true }

def ProcessGroup.setBackground (group : ProcessGroup) : ProcessGroup :=
  { group with isForeground := false }

/-- A session, without its controlling terminal, which no operation of the
manager reads. -/
structure Session where
  id : SessionId
  leader : TaskId
  processGroups : List ProcessGroupId
  foregroundGroup : Option ProcessGroupId
  deriving DecidableEq, Repr

def Session.new (id : SessionId) (leader : TaskId) : Session :=
  { id := id, leader := leader, processGroups := [], foregroundGroup := none }

def Session.addProcessGroup (session : Session) (pgid : ProcessGroupId) :
    Except String Session :=
  if pgid ∈ session.processGroups then .error "Process group already in session"
  else .ok { session with processGroups := session.processGroups ++ [pgid] }

/-- `remove_process_group`: the foreground group is cleared when it is the
removed one. -/
def Session.removeProcessGroup (session : Session) (pgid : ProcessGroupId) :
    Except String Session :=
  if pgid ∈ session.processGroups then
    .ok { session with
      processGroups := session.processGroups.erase pgid
      foregroundGroup :=
        if session.foregroundGroup = some pgid then none else session.foregroundGroup }
  else .error "Process group not in session"

def Session.setForegroundGroup (session : Session) (pgid : ProcessGroupId) :
    Except String Session :=
  if pgid ∉ session.processGroups then .error "Process group not in session"
  else .ok { session with foregroundGroup := some pgid }

def Session.processGroupCount (session : Session) : Nat :=
  session.processGroups.length

structure ProcessGroupManager where
  processGroups : Finmap (fun _ : ProcessGroupId => ProcessGroup)
  sessions : Finmap (fun _ : SessionId => Session)
  processToGroup : Finmap (fun _ : TaskId => ProcessGroupId)
  groupToSession : Finmap (fun _ : ProcessGroupId => SessionId)
  nextPgid : Nat
  nextSid : Nat

def ProcessGroupManager.new : ProcessGroupManager :=
  { processGroups := ∅, sessions := ∅, processToGroup := ∅, groupToSession := ∅,
    nextPgid := 1, nextSid := 1 }

/-- `create_session`; `none` is the panic of the `unwrap` of `add_process_group`. -/
def ProcessGroupManager.createSession (manager : ProcessGroupManager) (leader : TaskId) :
    Option (Except String SessionId × ProcessGroupManager) :=
  match manager.processToGroup.lookup leader with
  | some pgid =>
      match manager.processGroups.lookup pgid with
      | some group =>
          if group.leader = leader then
            some (.error "Process is already a process group leader", manager)
          else some (.error "Process is already in a process group", manager)
      | none => some (.error "Process is already in a process group", manager)
  | none =>
      let sid : SessionId := ⟨manager.nextSid⟩
      let pgid : ProcessGroupId := ⟨manager.nextPgid⟩
      match (Session.new sid leader).addProcessGroup pgid with
      | .error _ => none
      | .ok session =>
          some (.ok sid,
            { manager with
              nextSid := manager.nextSid + 1
              nextPgid := manager.nextPgid + 1
              sessions := manager.sessions.insert sid session
              processGroups := manager.processGroups.insert pgid (ProcessGroup.new pgid sid leader)
              processToGroup := manager.processToGroup.insert leader pgid
              groupToSession := manager.groupToSession.insert pgid sid })

/-- `create_process_group`; the leader is remapped whatever group it was in, and
`none` is the panic of the `unwrap` of `add_process_group`. -/
def ProcessGroupManager.createProcessGroup (manager : ProcessGroupManager) (leader : TaskId)
    (sessionId : SessionId) : Option (Except String ProcessGroupId × ProcessGroupManager) :=
  if sessionId ∉ manager.sessions then some (.error "Session not found", manager)
  else
    let pgid : ProcessGroupId := ⟨manager.nextPgid⟩
    let manager := { manager with
      nextPgid := manager.nextPgid + 1
      processGroups := manager.processGroups.insert pgid (ProcessGroup.new pgid sessionId leader)
      processToGroup := manager.processToGroup.insert leader pgid
      groupToSession := manager.groupToSession.insert pgid sessionId }
    match manager.sessions.lookup sessionId with
    | some session =>
        match session.addProcessGroup pgid with
        | .ok session =>
            some (.ok pgid, { manager with sessions := manager.sessions.insert sessionId session })
        | .error _ => none
    | none => some (.ok pgid, manager)

/-- `add_to_process_group`: the process joins the group and is remapped to it,
whatever group it was in. -/
def ProcessGroupManager.addToProcessGroup (manager : ProcessGroupManager) (pid : TaskId)
    (pgid : ProcessGroupId) : Except String Unit × ProcessGroupManager :=
  match manager.processGroups.lookup pgid with
  | none => (.error "Process group not found", manager)
  | some group =>
      match group.addMember pid with
      | .error message => (.error message, manager)
      | .ok group =>
          (.ok (), { manager with
            processGroups := manager.processGroups.insert pgid group
            processToGroup := manager.processToGroup.insert pid pgid })

/-- `remove_from_process_group`: the mapping stays removed when `remove_member`
fails; `none` is the panic of the `unwrap` of the group's session. -/
def ProcessGroupManager.removeFromProcessGroup (manager : ProcessGroupManager) (pid : TaskId) :
    Option (Except String Unit × ProcessGroupManager) :=
  match manager.processToGroup.lookup pid with
  | none => some (.error "Process not in any group", manager)
  | some pgid =>
      let manager := { manager with processToGroup := manager.processToGroup.erase pid }
      match manager.processGroups.lookup pgid with
      | none => some (.ok (), manager)
      | some group =>
          match group.removeMember pid with
          | .error message => some (.error message, manager)
          | .ok group =>
              let manager := { manager with
                processGroups := manager.processGroups.insert pgid group }
              if group.isEmpty then
                match manager.groupToSession.lookup pgid with
                | none => none
                | some sid =>
                    let manager := { manager with
                      groupToSession := manager.groupToSession.erase pgid
                      processGroups := manager.processGroups.erase pgid }
                    match manager.sessions.lookup sid with
                    | none => some (.ok (), manager)
                    | some session =>
                        -- `let _ = session.remove_process_group(pgid)`: a failure
                        -- leaves the session as it was.
                        let session :=
                          match session.removeProcessGroup pgid with
                          | .ok session => session
                          | .error _ => session
                        if session.processGroupCount = 0 then
                          some (.ok (), { manager with sessions := manager.sessions.erase sid })
                        else
                          some (.ok (), { manager with
                            sessions := manager.sessions.insert sid session })
              else some (.ok (), manager)

/-- The loop of `set_foreground` over the session map, in key order: every
group of the session `sid` is set to the background. -/
def ProcessGroupManager.clearForeground (manager : ProcessGroupManager) (sid : SessionId) :
    Finmap (fun _ : ProcessGroupId => ProcessGroup) :=
  manager.groupToSession.sortedKeys.foldl
    (fun groups groupPgid =>
      if manager.groupToSession.lookup groupPgid = some sid then
        groups.modify groupPgid ProcessGroup.setBackground
      else groups)
    manager.processGroups

/-- `set_foreground`; a failure of `set_foreground_group` comes after the flags
have changed. -/
def ProcessGroupManager.setForeground (manager : ProcessGroupManager) (pgid : ProcessGroupId) :
    Except String Unit × ProcessGroupManager :=
  match manager.groupToSession.lookup pgid with
  | none => (.error "Process group not found", manager)
  | some sid =>
      let manager := { manager with
        processGroups := (manager.clearForeground sid).modify pgid ProcessGroup.setForeground }
      match manager.sessions.lookup sid with
      | none => (.ok (), manager)
      | some session =>
          match session.setForegroundGroup pgid with
          | .error message => (.error message, manager)
          | .ok session => (.ok (), { manager with sessions := manager.sessions.insert sid session })

inductive PgroupOp
  | createSession (leader : TaskId)
  | createProcessGroup (leader : TaskId) (sessionId : SessionId)
  | addToProcessGroup (pid : TaskId) (pgid : ProcessGroupId)
  | removeFromProcessGroup (pid : TaskId)
  | setForeground (pgid : ProcessGroupId)

/-- One call, successful or not; `none` when it panics. -/
def ProcessGroupManager.step (manager : ProcessGroupManager) :
    PgroupOp → Option ProcessGroupManager
  | .createSession leader => (manager.createSession leader).map Prod.snd
  | .createProcessGroup leader sessionId =>
      (manager.createProcessGroup leader sessionId).map Prod.snd
  | .addToProcessGroup pid pgid => some (manager.addToProcessGroup pid pgid).2
  | .removeFromProcessGroup pid => (manager.removeFromProcessGroup pid).map Prod.snd
  | .setForeground pgid => some (manager.setForeground pgid).2

/-- A process added to a second group stays a member of its first: after
`create_session(1)`, `create_session(2)` and `add_to_process_group(2, 1)`,
process 2 is mapped to group 1 and listed by groups 1 and 2. -/
theorem addToProcessGroup_keeps_old_membership :
    let manager : Option ProcessGroupManager := run (haltingStep ProcessGroupManager.step)
      (some ProcessGroupManager.new)
      [.createSession ⟨1⟩, .createSession ⟨2⟩, .addToProcessGroup ⟨2⟩ ⟨1⟩]
    manager.map (fun manager => (manager.processToGroup.lookup ⟨2⟩,
      (manager.processGroups.lookup ⟨1⟩).map ProcessGroup.members,
      (manager.processGroups.lookup ⟨2⟩).map ProcessGroup.members)) =
      some (some ⟨1⟩, some [⟨1⟩, ⟨2⟩], some [⟨2⟩]) := by
  decide

end FangaOS.Pgroup
