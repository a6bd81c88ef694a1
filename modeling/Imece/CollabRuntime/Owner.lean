import Imece.Lib.Machine
import Imece.Lib.Transaction

/-!
# The owner's server

One owner session: its configuration, the loopback server that is started for it and the
credentials of its members. Starting and stopping hold one lock from their first to their
last section, and another one only inside each of them; what an answer shows is revealed
under the second lock alone.
-/
namespace Imece.CollabRuntime

open Lib

inductive OwnerState where
  | unconfigured
  | configured
  | starting
  | running
  | stopping
  | stopped
  | cleanupFailed
  | creationFailed
deriving DecidableEq, Repr

structure OwnerError where
  code : String
deriving DecidableEq, Repr

/-- The configuration of a session; `validate_members` asks for one member at least. -/
structure OwnerConfig where
  projectRoot : String
  sessionId : String
  baseCommit : String
  targetVersion : String
  ownerId : String
  memberIds : List String
  tasks : List (String × String)
  storePath : String
  hubPath : String
  members_nonempty : memberIds ≠ []
deriving DecidableEq, Repr

/-- The fields of `OwnerSessionManager`. A server is known by the number of its
construction. -/
structure Manager where
  state : OwnerState
  config : Option OwnerConfig
  server : Option ℕ
  credentials : List (String × String)
  exported : List String
  epoch : ℕ
  endpoint : Option String
deriving DecidableEq, Repr

/-- What the holder of `_op_lock` is at, between two sections under `_lock`. -/
inductive OwnerOp where
  | start (config : OwnerConfig)
  | stop (server : ℕ)
deriving DecidableEq, Repr

/-- The manager, the call that holds its lock, the servers whose listener may be bound,
and what the calls have shown so far. -/
structure OwnerWorld where
  manager : Manager
  busy : Option OwnerOp
  listeners : List ℕ
  built : ℕ
  revealed : List (ℕ × String)
  started : List ℕ
deriving DecidableEq, Repr

def OwnerWorld.initial : OwnerWorld where
  manager := ⟨.unconfigured, none, none, [], [], 0, none⟩
  busy := none
  listeners := []
  built := 0
  revealed := []
  started := []

section Configuring

/-- What a configuring call ends in: nothing written, a session half created, or a
session. -/
inductive Configured where
  | refused (error : OwnerError)
  | broken (error : OwnerError)
  | made (config : OwnerConfig)
deriving DecidableEq, Repr

/-- What `create` and `select_existing` share; `early` is what they ask before they look at
the manager. -/
def configure (early : Except OwnerError Unit) (outcome : Configured) :
    EStateM OwnerError Manager Unit := fun m =>
  match early with
  | .error e => .error e m
  | .ok () =>
      if m.server.isSome ∨ m.state = .starting ∨ m.state = .stopping ∨ m.state = .cleanupFailed then
        .error ⟨"stop_required"⟩ m
      else if m.config.isSome ∧ m.state ≠ .stopped ∧ m.state ≠ .unconfigured ∧
          m.state ≠ .creationFailed then
        .error ⟨"stop_required"⟩ m
      else match outcome with
        | .refused e => .error e m
        | .broken e => .error e { m with state := .creationFailed }
        | .made config => .ok () { m with config := some config, state := .configured }

def create (early : Except OwnerError Unit) (outcome : Configured) :
    EStateM OwnerError Manager Unit :=
  configure early outcome

/-- `select_existing` writes nothing, so nothing is left half done. -/
def selectExisting (early : Except OwnerError Unit) (outcome : Except OwnerError OwnerConfig) :
    EStateM OwnerError Manager Unit :=
  configure early (match outcome with | .ok config => .made config | .error e => .refused e)

end Configuring

section Starting

/-- What a start meets outside the manager: the project before and after the fetch, the
fetched session, and whether the coordinator and the server can be built. Whatever raises
but an owner error is an error `start_failed`. -/
structure StartSeen where
  project : Except OwnerError (String × String)
  fetched : Except OwnerError ((String × String × String) × List (String × String))
  checked : Except OwnerError (String × String)
  tokens : String → String
  coordinator : Except OwnerError Unit
  baseUrl : Option String
  starts : Bool
  closes : Bool

def startFailed : OwnerError := ⟨"start_failed"⟩

/-- The first section of `start`. -/
def startBegin (port : Int) : EStateM OwnerError Manager OwnerConfig := fun m =>
  if ¬ (0 ≤ port ∧ port ≤ 65535) then .error ⟨"invalid_port"⟩ m
  else match m.config with
    | none => .error ⟨"not_configured"⟩ m
    | some config =>
        if m.state = .configured ∨ m.state = .stopped then
          .ok config { m with state := .starting }
        else .error ⟨"not_configured"⟩ m

/-- The checks of `start` against the project and the hub, and the refreshed configuration. -/
def startChecks (config : OwnerConfig) (seen : StartSeen) : Except OwnerError OwnerConfig := do
  let (root, head) ← seen.project
  if root ≠ config.projectRoot ∨ head ≠ config.baseCommit then
    .error ⟨"source_head_mismatch"⟩
  else do
    let (identity, tasks) ← seen.fetched
    let checked ← seen.checked
    if checked ≠ (root, head) then .error ⟨"source_head_mismatch"⟩
    else if identity ≠ (config.sessionId, config.baseCommit, config.targetVersion) then
      .error ⟨"session_identity_mismatch"⟩
    else if tasks.any (fun task => task.2 ∉ config.memberIds) then .error ⟨"invalid_members"⟩
    else return { config with tasks := tasks }

def credentialsOf (config : OwnerConfig) (tokens : String → String) : List (String × String) :=
  config.memberIds.map fun member => (member, tokens member)

/-- The rest of `start`. A coordinator has nothing to close, so a start that fails before
its server is built leaves nothing behind. -/
def startEnd (config : OwnerConfig) (seen : StartSeen) : EStateM OwnerError OwnerWorld Unit :=
  fun w =>
    let failed (m : Manager) : Manager := { m with state := .configured }
    match startChecks config seen with
    | .error e => .error e { w with manager := failed w.manager, busy := none }
    | .ok config =>
        let m := { w.manager with config := some config }
        match seen.coordinator, seen.baseUrl with
        | .ok (), some baseUrl =>
            let server := w.built + 1
            let credentials := credentialsOf config seen.tokens
            let w := { w with built := server, busy := none }
            if seen.starts then
              .ok () { w with
                manager := { m with
                  state := .running
                  server := some server
                  credentials := credentials
                  exported := []
                  epoch := m.epoch + 1
                  endpoint := some baseUrl }
                listeners := server :: w.listeners
                started := (m.epoch + 1) :: w.started }
            else if seen.closes then .error startFailed { w with manager := failed m }
            else .error startFailed { w with
              manager := { m with
                state := .cleanupFailed
                server := some server
                credentials := credentials }
              listeners := server :: w.listeners }
        | _, _ => .error startFailed { w with manager := failed m, busy := none }

end Starting

section Stopping

/-- The first section of `stop`: none if there is nothing to close. -/
def stopBegin : EStateM OwnerError Manager (Option ℕ) := fun m =>
  match m.server with
  | none =>
      .ok none (if m.state = .configured then { m with state := .stopped } else m)
  | some server => .ok (some server) { m with state := .stopping }

/-- The rest of `stop`, by whether the server's close returns. -/
def stopEnd (server : ℕ) (closes : Bool) : EStateM OwnerError OwnerWorld Unit := fun w =>
  if closes then
    .ok () { w with
      manager := { w.manager with
        state := .stopped
        server := none
        credentials := []
        exported := []
        endpoint := none }
      busy := none
      listeners := w.listeners.erase server }
  else
    .error ⟨"cleanup_failed"⟩ { w with
      manager := { w.manager with state := .cleanupFailed }
      busy := none }

end Stopping

/-- What `reveal_member_once` hands over. -/
structure MemberAccess where
  endpoint : Option String
  sessionId : String
  baseCommit : String
  targetVersion : String
  memberId : String
  credential : String
  storePath : String
  hubPath : String
  taskIds : List String
  epoch : ℕ
deriving DecidableEq, Repr

def revealMemberOnce (member : String) : EStateM OwnerError Manager MemberAccess := fun m =>
  match m.state, m.credentials.lookup member, m.config with
  | .running, some credential, some config =>
      if member ∈ m.exported then .error ⟨"already_shared"⟩ m
      else .ok {
          endpoint := m.endpoint
          sessionId := config.sessionId
          baseCommit := config.baseCommit
          targetVersion := config.targetVersion
          memberId := member
          credential := credential
          storePath := config.storePath
          hubPath := config.hubPath
          taskIds := (config.tasks.filter fun task => task.2 = member).map (·.1)
          epoch := m.epoch }
        { m with exported := member :: m.exported }
  | _, _, _ => .error ⟨"not_running_or_member"⟩ m

section Calls

/-- A call, or the rest of one that waits for something outside. -/
inductive OwnerCall where
  | create (early : Except OwnerError Unit) (outcome : Configured)
  | selectExisting (early : Except OwnerError Unit) (outcome : Except OwnerError OwnerConfig)
  | start (port : Int)
  | started (seen : StartSeen)
  | stop
  | stopped (closes : Bool)
  | reveal (member : String)

/-- One section of a call. Who needs the lock of a call under way waits: its section does
nothing yet. -/
def OwnerWorld.step (w : OwnerWorld) : OwnerCall → OwnerWorld
  | .create early outcome =>
      if w.busy.isSome then w
      else { w with manager := after (Imece.CollabRuntime.create early outcome) w.manager }
  | .selectExisting early outcome =>
      if w.busy.isSome then w
      else { w with manager := after (Imece.CollabRuntime.selectExisting early outcome) w.manager }
  | .start port =>
      if w.busy.isSome then w
      else match startBegin port w.manager with
        | .ok config m => { w with manager := m, busy := some (.start config) }
        | .error _ m => { w with manager := m }
  | .started seen =>
      match w.busy with
      | some (.start config) => after (startEnd config seen) w
      | _ => w
  | .stop =>
      if w.busy.isSome then w
      else match stopBegin w.manager with
        | .ok server m => { w with manager := m, busy := server.map .stop }
        | .error _ m => { w with manager := m }
  | .stopped closes =>
      match w.busy with
      | some (.stop server) => after (stopEnd server closes) w
      | _ => w
  | .reveal member =>
      match revealMemberOnce member w.manager with
      | .ok access m => { w with manager := m, revealed := (access.epoch, member) :: w.revealed }
      | .error _ m => { w with manager := m }

end Calls

end Imece.CollabRuntime
