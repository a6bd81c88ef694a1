import Imece.CollabRuntime.Coordination
import Imece.Lib.Text

/-!
# The calls that write to the hub

The coordinator knows the members of its session by the digests of their credentials, and
each of its calls authenticates before it reads the hub. A proposal is published together
with the session commit that announces it. Beside them stand the calls of clients that
have a store of their own.
-/
namespace Imece.CollabRuntime

open Lib

def maxMembers : ℕ := 256
def maxProposalJsonBytes : ℕ := 2 * 1024 * 1024
def proposalPath : String := "proposal.json"

section Members

/-- `[A-Za-z0-9_-]{32,256}` -/
def isCredential (credential : String) : Bool :=
  decide (32 ≤ credential.length) && decide (credential.length ≤ 256) &&
    credential.toList.all fun c => c.isAlphanum || c == '_' || c == '-'

def accessDenied : CollabError :=
  .accessDenied "access denied: a valid member credential and permission are required."

variable {δ : Type} [DecidableEq δ] (sha256 : String → δ)

def credentialHash (credential : String) : Option δ :=
  if isCredential credential then some (sha256 credential) else none

/-- One turn of the loop over the member credentials of the constructor. -/
def addMember (hashes : List (String × δ)) (member : String × String) :
    Except CollabError (List (String × δ)) := do
  let principal ← safeId (.str member.1) "member id"
  match credentialHash sha256 member.2 with
  | none =>
      .error (.validation "member credentials must be 32-256 URL-safe ASCII characters.")
  | some digest =>
      if digest ∈ hashes.map (·.2) then
        .error (.validation "each member must have a distinct credential.")
      else .ok (hashes ++ [(principal, digest)])

/-- What a coordinator keeps: of the credentials only the digests. -/
structure Coordinator (δ : Type) where
  ownerId : String
  credentialHashes : List (String × δ)
  identity : String × String × String

def newCoordinator (store : ℕ) (sessionId ownerId : String)
    (memberCredentials : List (String × String)) : StoreProg (Coordinator δ) := do
  let expectedId ← Prog.check (safeId (.str sessionId) "session_id")
  let owner ← Prog.check (safeId (.str ownerId) "owner id")
  if memberCredentials.length < 1 ∨ maxMembers < memberCredentials.length then
    Prog.throw (.validation
      "member credentials must be a mapping of 1-256 principals including the owner.")
  else
    let hashes ← Prog.check (memberCredentials.foldlM (addMember sha256) [])
    if owner ∉ hashes.map (·.1) then
      Prog.throw (.validation "the owner must be included in member credentials.")
    else
      let (revision, raw) ← fetchState store
      let _ ← Prog.check (shaHex (.str revision) "session revision")
      let state ← Prog.check (parseStateDict raw.toDict)
      if state.sessionId ≠ expectedId then
        Prog.throw (.validation "the hub session does not match the configured session_id.")
      else return ⟨owner, hashes, state.pinnedIdentity⟩

/-- The loop of `_authenticate` goes on after a match. -/
def Coordinator.authenticate (coordinator : Coordinator δ) (credential : String) :
    Except CollabError String :=
  match credentialHash sha256 credential with
  | none => .error accessDenied
  | some digest =>
      match (coordinator.credentialHashes.filter fun member => member.2 = digest).getLast? with
      | none => .error accessDenied
      | some member => .ok member.1

end Members

section Inputs

/-- What `update_context` is given: a context, or a dict. -/
inductive ContextInput where
  | shared (context : SharedContext)
  | dict (raw : Json)

/-- `build_context` of three values that may be anything. -/
def buildContextOf (goal decisions interfaces : Json) : Except CollabError SharedContext := do
  let _ ← requireList decisions "context.decisions must be a list."
  let _ ← requireDict interfaces "context.interfaces"
  parseContext (.obj [("goal", goal), ("decisions", decisions), ("interfaces", interfaces)])

/-- `_validated_context` -/
def validatedContext (input : ContextInput) : Except CollabError SharedContext :=
  match input with
  | .shared context =>
      if (Json.dictOf context.interfaces).length ≠ context.interfaces.length then
        .error (.validation "context interface names must be distinct.")
      else buildContext context.goal context.decisions context.interfaces
  | .dict raw =>
      let refused : CollabError :=
        .validation "context must contain exactly goal, decisions and interfaces fields."
      match raw with
      | .obj members =>
          let members := Json.dictOf members
          if members.all (fun member => member.1 ∈ contextKeys) ∧
              contextKeys.all (fun key => key ∈ members.map (·.1)) then
            buildContextOf (Json.field members "goal") (Json.field members "decisions")
              (Json.field members "interfaces")
          else .error refused
      | _ => .error refused

end Inputs

section Calls

variable {δ : Type} [DecidableEq δ] (sha256 : String → δ) (coordinator : Coordinator δ)

def Coordinator.fetchState (store : ℕ) : StoreProg (String × SessionState) := do
  let (revision, raw) ← CollabRuntime.fetchState store
  let revision ← Prog.check (shaHex (.str revision) "session revision")
  let state ← Prog.check (checkedState coordinator.identity raw)
  return (revision, state)

def requireCurrent (revision expected : String) : Except CollabError Unit :=
  if revision ≠ expected then
    .error (.staleRevision
      "expected_revision is no longer current; fetch a new snapshot and retry.")
  else .ok ()

/-- Only the owner goes on. -/
def Coordinator.requireOwner (credential : String) : Except CollabError Unit := do
  let principal ← coordinator.authenticate sha256 credential
  if principal ≠ coordinator.ownerId then .error accessDenied else .ok ()

def Coordinator.updateContext (store : ℕ) (credential : String) (context : ContextInput)
    (expectedRevision : String) : StoreProg String := do
  Prog.check (coordinator.requireOwner sha256 credential)
  let expected ← Prog.check (shaHex (.str expectedRevision) "expected_revision")
  let validated ← Prog.check (validatedContext context)
  let (revision, current) ← coordinator.fetchState store
  Prog.check (requireCurrent revision expected)
  publish store (current.withContext validated) expected

/-- The task whose status a principal may change. -/
def Coordinator.permitted (principal identifier : String) (current : SessionState) :
    Except CollabError Task :=
  match current.tasks[identifier]? with
  | none => .error (.validation "task status can only be changed for an existing task.")
  | some task =>
      if principal ≠ coordinator.ownerId ∧ principal ≠ task.owner then .error accessDenied
      else .ok task

def Coordinator.updateTaskStatus (store : ℕ) (credential taskId status : String)
    (expectedRevision : String) : StoreProg String := do
  let principal ← Prog.check (coordinator.authenticate sha256 credential)
  let identifier ← Prog.check (safeId (.str taskId) "task id")
  let status ← Prog.check (parseStatus (.str status))
  let expected ← Prog.check (shaHex (.str expectedRevision) "expected_revision")
  let (revision, current) ← coordinator.fetchState store
  let task ← Prog.check (coordinator.permitted principal identifier current)
  Prog.check (requireCurrent revision expected)
  let known ← Prog.call .read (isAncestor task.contextRevision revision)
  if ¬ known then
    Prog.throw (.validation
      "task context_revision must be an existing revision of this session's published history.")
  else
    let updated ← Prog.check
      (buildTask task.id task.owner task.goal task.scopes status task.contextRevision)
    publish store (current.withTask updated) expected

/-- A new task fits into a session. -/
def hasRoom (current : SessionState) (task : Task) : Except CollabError Unit :=
  if task.id ∈ current.tasks then .error .taskExists
  else if maxTasks ≤ current.tasks.size then .error .taskCapacity
  else if maxJsonBytes < (canonicalJsonBytes (current.withTask task).toDict).size then
    .error .taskCapacity
  else .ok ()

/-- The part of `create_task` before the hub is read. -/
def Coordinator.newTask (credential taskId owner goal : String) (scopes : List String)
    (expectedRevision : String) : Except CollabError Task := do
  coordinator.requireOwner sha256 credential
  let identifier ← safeId (.str taskId) "task id"
  let assignee ← safeId (.str owner) "owner id"
  if assignee ∉ coordinator.credentialHashes.map (·.1) then
    .error (.validation "task owner must be a configured member.")
  else if blankText goal then .error (.validation "task goal must not be empty.")
  else
    let expected ← shaHex (.str expectedRevision) "expected_revision"
    buildTask identifier assignee goal scopes "queued" expected

def Coordinator.createTask (store : ℕ) (credential taskId owner goal : String)
    (scopes : List String) (expectedRevision : String) : StoreProg String := do
  let task ← Prog.check
    (coordinator.newTask sha256 credential taskId owner goal scopes expectedRevision)
  let (revision, current) ← coordinator.fetchState store
  Prog.check (requireCurrent revision expectedRevision)
  Prog.check (hasRoom current task)
  publish store (current.withTask task) expectedRevision

end Calls

section Proposals

/-- A captured proposal; its files have any form. -/
structure Proposal (φ : Type) where
  proposalId : String
  taskId : String
  owner : String
  sessionId : String
  baseCommit : String
  contextRevision : String
  contextHash : String
  files : φ

/-- How proposals are checked and written: `parse_proposal_dict` of the proposal's own dict,
`proposal_bytes`, and the digest of bytes. -/
structure ProposalFormat (φ : Type) where
  validated : Proposal φ → Except CollabError (Proposal φ)
  bytes : Proposal φ → ByteArray
  sha256Hex : ByteArray → String

variable {φ : Type} (format : ProposalFormat φ)

def ProposalFormat.contextHashOf (context : SharedContext) : String :=
  format.sha256Hex (canonicalJsonBytes context.toDict)

/-- The payload that is published of a proposal. -/
def ProposalFormat.payload (proposal : Proposal φ) :
    Except CollabError (Proposal φ × ByteArray) := do
  let validated ← format.validated proposal
  if maxProposalJsonBytes < (format.bytes validated).size then
    .error (.validation
      s!"proposal artifact exceeds the {maxProposalJsonBytes}-byte limit.")
  else return (validated, format.bytes validated)

/-- What git refuses in the last part of a ref, beyond what a safe id excludes. -/
def refNameOk (identifier : String) : Bool :=
  decide (¬ "..".toList <:+: identifier.toList) && decide (¬ ".lock".toList <:+ identifier.toList) &&
    decide (¬ ".".toList <:+ identifier.toList)

/-- `_proposal_ref`, whose git command looks at the name only. -/
def proposalRef (proposalId : String) : GitCommand String := fun w =>
  match safeId (.str proposalId) "proposal_id" with
  | .error e => .error e w
  | .ok identifier =>
      match w.answer false (refNameOk identifier) with
      | .error e => .error e w
      | .ok false => .error (.validation "proposal_id does not form a valid git refname.") w
      | .ok true => .ok identifier w

def lsProposal (identifier : String) : GitCommand (Option String) := fun w =>
  match w.failure "could not reach the collaboration hub." with
  | some e => .error e w
  | none => .ok w.proposals[identifier]? w

def remoteProposalHead (proposalId : String) : StoreProg (Option String) := do
  let identifier ← Prog.call .read (proposalRef proposalId)
  Prog.call .fetch (lsProposal identifier)

/-- `_atomic_push` of a session commit and a proposal: the hub takes both or none. -/
def atomicPush (child root identifier staleMessage : String) : GitCommand Unit := fun w =>
  match w.failure transportFailed with
  | some e => .error e w
  | none =>
      if h : child ∈ w.commits.names ∧ root ∈ w.commits.names then
        if w.fastForward w.head child && w.fastForward w.proposals[identifier]? root then
          .ok () ((w.setHead child h.1).setProposal identifier root h.2)
        else .error (.staleRevision staleMessage) w
      else .error (.gitOperation transportFailed) w

/-- The session at the recorded revision is the one the proposal was captured in. -/
def ProposalFormat.recorded (proposal : Proposal φ) (historic current : SessionState) :
    Except CollabError Unit := do
  if format.contextHashOf historic.context ≠ proposal.contextHash then
    .error (.validation
      "the recorded context_hash does not match the historical state at the recorded revision.")
  else
    match historic.tasks[proposal.taskId]? with
    | none =>
        .error (.validation
          "the recorded task/owner does not match the historical session state.")
    | some past =>
        if past.owner ≠ proposal.owner then
          .error (.validation
            "the recorded task/owner does not match the historical session state.")
        else
          match current.tasks[proposal.taskId]? with
          | none =>
              .error (.validation "the proposal's task no longer exists in the session.")
          | some live =>
              if (past.owner, past.goal, past.scopes) ≠ (live.owner, live.goal, live.scopes) then
                .error (.staleRevision
                  "the selected task was superseded (owner, goal or scopes changed); re-capture.")
              else .ok ()

/-- `_validate_recorded_provenance` of a publication. -/
def ProposalFormat.validateRecorded (proposal : Proposal φ) (head : String)
    (current : SessionState) : StoreProg Unit := do
  let known ← Prog.call .read (isAncestor proposal.contextRevision head)
  if ¬ known then
    Prog.throw (.validation
      "the recorded context_revision is not part of this session's published history.")
  else
    let historic ← Prog.call .read (readState proposal.contextRevision)
    Prog.check (format.recorded proposal historic current)

/-- What must hold of a validated proposal before its provenance is looked up. -/
def ProposalFormat.admitted (proposal : Proposal φ) (head expected : String)
    (current : SessionState) : Except CollabError Unit :=
  if expected ≠ head then
    .error (.staleRevision
      s!"expected_revision is no longer current (the hub is at {shortRevision head}); sync and retry.")
  else if (proposal.sessionId, proposal.baseCommit) ≠ (current.sessionId, current.baseCommit) then
    .error (.validation "the proposal belongs to a different session or base commit.")
  else if proposal.contextHash ≠ format.contextHashOf current.context then
    .error (.staleRevision
      "the shared context changed since the proposal was captured; re-capture.")
  else .ok ()

def Proposal.message (proposal : Proposal φ) : String :=
  s!"imece-collab: proposal {proposal.proposalId} {proposal.contextHash}"

/-- The push of `publish_proposal`, with the name of its ref made again. -/
def pushProposal (child root proposalId : String) : StoreProg Unit := do
  let identifier ← Prog.call .read (proposalRef proposalId)
  Prog.call .push (atomicPush child root identifier
    "publication rejected: the session moved on the hub; sync and retry.")

def publishProposal (store : ℕ) (proposal : Proposal φ) (expectedRevision : String) :
    StoreProg (String × String) := do
  let expected ← Prog.check (shaHex (.str expectedRevision) "expected_revision")
  let (validated, payload) ← Prog.check (format.payload proposal)
  let (head, current) ← fetchState store
  Prog.check (format.admitted validated head expected current)
  format.validateRecorded validated head current
  match ← remoteProposalHead validated.proposalId with
  | some _ =>
      Prog.throw (.validation
        "a proposal with this id already exists on the hub; choose a new id.")
  | none =>
      let child ← commitState current (some head) validated.message
      let root ← Prog.call .object
        (commitPayload payload proposalPath none validated.message)
      let advanced ← casAdvance store child
      if ¬ advanced then
        Prog.throw (.staleRevision "the local store moved concurrently; re-sync and retry.")
      else
        match ← (pushProposal child root validated.proposalId).attempt with
        | .ok () => return (child, root)
        | .error e =>
            let _ ← Prog.call .mirror (casRef store head (some child))
            Prog.throw e

end Proposals

section Hub

/-- The calls of clients that end in a push to the hub, and the fetch alone. A client that
changes the context or a task on its own store expects the revision it has fetched. -/
inductive HubCall (δ φ : Type) where
  | sync
  | initSession (state : SessionState)
  | publish (state : SessionState) (expectedRevision : String)
  | updateContext (context : SharedContext)
  | upsertTask (task : Task)
  | ownerContext (coordinator : Coordinator δ) (credential : String) (context : ContextInput)
      (expectedRevision : String)
  | taskStatus (coordinator : Coordinator δ) (credential taskId status expectedRevision : String)
  | createTask (coordinator : Coordinator δ) (credential taskId owner goal : String)
      (scopes : List String) (expectedRevision : String)
  | publishProposal (proposal : Proposal φ) (expectedRevision : String)

variable {δ φ : Type} [DecidableEq δ] (sha256 : String → δ) (format : ProposalFormat φ)

/-- A call on a store; it returns the revision that it published, or that it found. -/
def HubCall.program (store : ℕ) : HubCall δ φ → StoreProg String
  | .sync => do
      let (head, _) ← fetchState store
      return head
  | .initSession state => CollabRuntime.initSession store state
  | .publish state expected => CollabRuntime.publish store state expected
  | .updateContext context => do
      let (seen, _) ← fetchState store
      CollabRuntime.updateContext store context seen
  | .upsertTask task => do
      let (seen, _) ← fetchState store
      CollabRuntime.upsertTask store task seen
  | .ownerContext coordinator credential context expected =>
      coordinator.updateContext sha256 store credential context expected
  | .taskStatus coordinator credential taskId status expected =>
      coordinator.updateTaskStatus sha256 store credential taskId status expected
  | .createTask coordinator credential taskId owner goal scopes expected =>
      coordinator.createTask sha256 store credential taskId owner goal scopes expected
  | .publishProposal proposal expected => do
      let (child, _) ← CollabRuntime.publishProposal format store proposal expected
      return child

end Hub

end Imece.CollabRuntime
