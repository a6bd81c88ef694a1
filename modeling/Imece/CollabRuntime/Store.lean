import Mathlib
import Imece.Lib.Interleaving
import Imece.Lib.Versions
import Imece.CollabRuntime.StateDocuments

/-!
# The metadata store

A hub with the session branch and the proposal refs, the mirror refs of its clients,
and the git commands they run against them. Commits are shared by all repositories: git
has what it fetched, and nothing is ever removed. Every command may run into trouble,
and a command that reports failure has changed nothing.
-/
namespace Imece.CollabRuntime

open Lib

/-- The content of a commit, whose tree has one file. -/
structure CommitContent where
  path : String
  payload : ByteArray
  message : String
deriving DecidableEq

abbrev Commits := Versions String CommitContent

def statePath : String := "session.json"

/-- How a git command fails before it does anything. -/
inductive GitTrouble where
  | missing
  | timeout
  | exit
deriving DecidableEq, Repr

/-- What the next git commands meet: trouble or none, the name a new commit gets, and
whether a spelling that is no full SHA happens to name an ancestor. -/
structure Weather where
  trouble : Option GitTrouble
  fresh : String
  odd : Bool
deriving DecidableEq, Repr

/-- The hub and its clients' mirrors of the session branch. -/
structure World where
  commits : Commits
  head : Option String
  proposals : Std.ExtTreeMap String String compare
  mirror : ℕ → Option String
  weather : Weather
  named : ∀ name ∈ commits.names, isSha name = true
  head_known : ∀ name ∈ head, name ∈ commits.names
  proposals_known : ∀ (id name : String), proposals[id]? = some name → name ∈ commits.names

namespace World

variable (w : World)

def setWeather (weather : Weather) : World := { w with weather := weather }

def setMirror (store : ℕ) (value : Option String) : World :=
  { w with mirror := fun other => if other = store then value else w.mirror other }

def setHead (name : String) (h : name ∈ w.commits.names) : World :=
  { w with
    head := some name
    head_known := fun other hother => by
      cases hother
      exact h }

def addCommit (version : Version String CommitContent) (hname : isSha version.name = true)
    (hfresh : version.name ∉ w.commits.names)
    (hparents : ∀ p ∈ version.parents, p ∈ w.commits.names) : World :=
  { w with
    commits := w.commits.add version hfresh hparents
    named := by
      intro name hmem
      rcases List.mem_cons.mp hmem with rfl | hmem
      · exact hname
      · exact w.named name hmem
    head_known := fun name hmem => (Versions.extends_add hfresh hparents).known (w.head_known name hmem)
    proposals_known := fun id name hproposal =>
      (Versions.extends_add hfresh hparents).known (w.proposals_known id name hproposal) }

def setProposal (id name : String) (h : name ∈ w.commits.names) : World :=
  { w with
    proposals := w.proposals.insert id name
    proposals_known := fun other found hfound => by
      rw [Std.ExtTreeMap.getElem?_insert] at hfound
      split_ifs at hfound
      · cases hfound
        exact h
      · exact w.proposals_known other found hfound }

/-- Whether a ref may be moved to a commit without force. -/
def fastForward (current : Option String) (name : String) : Bool :=
  match current with
  | none => true
  | some current => w.commits.isAncestor current name

end World

section Commands

abbrev GitCommand (α : Type) := EStateM CollabError World α

def notOnPath : CollabError := .gitOperation "git is not available on PATH."
def timedOut : CollabError := .gitOperation "a git operation timed out (30s limit)."

/-- The message of `_run_git` itself. -/
def gitFailed : String := "a git operation failed; the hub or store may be inaccessible."

/-- What a command raises when it meets trouble; `message` says what its failure means. -/
def World.failure (w : World) (message : String) : Option CollabError :=
  w.weather.trouble.map fun trouble =>
    match trouble with
    | .missing => notOnPath
    | .timeout => timedOut
    | .exit => .gitOperation message

/-- A command that stands for no where it fails, and raises only if git does not run. -/
def World.answer {α : Type} (w : World) (no yes : α) : Except CollabError α :=
  match w.weather.trouble with
  | none => .ok yes
  | some .exit => .ok no
  | some .missing => .error notOnPath
  | some .timeout => .error timedOut

def missingState : String := "the session state object is missing; the hub session is corrupt."

/-- What `_read_state` makes of a commit. -/
def World.stateAt (w : World) (commit : String) : Except CollabError SessionState :=
  match w.commits.find commit with
  | some version =>
      if version.content.path = statePath then readPayload version.content.payload
      else .error (.gitOperation missingState)
  | none => .error (.gitOperation missingState)

def readState (commit : String) : GitCommand SessionState := fun w =>
  match w.failure missingState with
  | some e => .error e w
  | none => check (w.stateAt commit) w

/-- `remote_head`: what the hub says. -/
def remoteHead : GitCommand (Option String) := fun w =>
  match w.failure "could not reach the collaboration hub." with
  | some e => .error e w
  | none => .ok w.head w

/-- The fetch of the session branch into a temporary ref, and the state found there. -/
def fetchBranch : GitCommand (String × SessionState) := fun w =>
  match w.failure "could not fetch the session from the collaboration hub." with
  | some e => .error e w
  | none =>
      match w.head with
      | none =>
          .error (.sessionNotFound
            "no session exists on the hub yet; initialize one first.") w
      | some fetched => check ((w.stateAt fetched).map fun state => (fetched, state)) w

def localHead (store : ℕ) : GitCommand (Option String) := fun w =>
  check (w.answer none (w.mirror store)) w

/-- `_cas_ref`: the mirror moves if it holds the old value; none is the zero SHA. -/
def casRef (store : ℕ) (new : String) (old : Option String) : GitCommand Bool := fun w =>
  match w.answer false (decide (w.mirror store = old)) with
  | .error e => .error e w
  | .ok false => .ok false w
  | .ok true => .ok true (w.setMirror store (some new))

/-- `_delete_ref`: the mirror goes if it holds the expected value. -/
def deleteRef (store : ℕ) (expected : String) : GitCommand Unit := fun w =>
  match w.answer false (decide (w.mirror store = some expected)) with
  | .error e => .error e w
  | .ok false => .ok () w
  | .ok true => .ok () (w.setMirror store none)

/-- `is_ancestor`: any failure of git counts as no. -/
def isAncestor (revision head : String) : GitCommand Bool := fun w =>
  let found := if isSha revision then w.commits.isAncestor revision head else w.weather.odd
  check (w.answer false found) w

/-- `_commit_payload`: git names the commit by its content, so it is either there already
or new. -/
def commitPayload (payload : ByteArray) (path : String) (parent : Option String)
    (message : String) : GitCommand String := fun w =>
  match w.failure gitFailed with
  | some e => .error e w
  | none =>
      let version : Version String CommitContent :=
        ⟨w.weather.fresh, parent.toList, ⟨path, payload, message⟩⟩
      if hname : isSha version.name = true then
        match w.commits.find version.name with
        | some found =>
            if found = version then .ok version.name w else .error (.gitOperation gitFailed) w
        | none =>
            if h : version.name ∉ w.commits.names ∧ ∀ p ∈ version.parents, p ∈ w.commits.names then
              .ok version.name (w.addCommit version hname h.1 h.2)
            else .error (.gitOperation gitFailed) w
      else .error (.gitOperation "git commit-tree returned an unexpected value.") w

def transportFailed : String :=
  "could not publish to the collaboration hub (transport failure)."

/-- `_push_commit`: an ordinary push of one commit to the session branch. -/
def pushCommit (commit staleMessage : String) : GitCommand Unit := fun w =>
  match w.failure transportFailed with
  | some e => .error e w
  | none =>
      if h : commit ∈ w.commits.names then
        if w.fastForward w.head commit then .ok () (w.setHead commit h)
        else .error (.staleRevision staleMessage) w
      else .error (.gitOperation transportFailed) w

end Commands

section Operations

/-- The kinds of accesses the store's operations make. -/
inductive GitStep where
  | fetch
  | mirror
  | object
  | read
  | push
deriving DecidableEq, Repr

abbrev StoreProg (α : Type) := Prog GitStep World CollabError α

/-- `_refresh_mirror`: never overwrites what another operation put there meanwhile. -/
def refreshMirror (store : ℕ) (sha : String) : StoreProg Unit := do
  let current ← Prog.call .mirror (localHead store)
  let _ ← Prog.call .mirror (casRef store sha current)
  return ()

def fetchState (store : ℕ) : StoreProg (String × SessionState) := do
  let (fetched, state) ← Prog.call .fetch fetchBranch
  refreshMirror store fetched
  return (fetched, state)

def casAdvance (store : ℕ) (new : String) : StoreProg Bool := do
  let current ← Prog.call .mirror (localHead store)
  Prog.call .mirror (casRef store new current)

/-- `_commit`: the state is validated again, so no built-by-hand state is published as it
is. -/
def commitState (state : SessionState) (parent : Option String) (message : String) :
    StoreProg String := do
  let payload ← Prog.check (statePayload state)
  Prog.call .object (commitPayload payload statePath parent message)

/-- The first twelve digits of a revision, as the messages show it. -/
def shortRevision (revision : String) : String := String.ofList (revision.toList.take 12)

def initSession (store : ℕ) (state : SessionState) : StoreProg String := do
  match ← Prog.call .fetch remoteHead with
  | some _ =>
      Prog.throw (.sessionAlreadyExists "a session already exists on this hub; join it instead.")
  | none =>
      let commit ← commitState state none "imece-collab: init session"
      let advanced ← casAdvance store commit
      if ¬ advanced then
        Prog.throw (.gitOperation "local store conflict while creating the session branch.")
      else
        match ← (Prog.call .push (pushCommit commit
            "another client created the session concurrently; join instead.")).attempt with
        | .ok () => return commit
        | .error e =>
            let _ ← Prog.call .mirror (deleteRef store commit)
            Prog.throw e

def publish (store : ℕ) (state : SessionState) (expectedRevision : String) :
    StoreProg String := do
  let expected ← Prog.check (shaHex (.str expectedRevision) "expected_revision")
  let (head, current) ← fetchState store
  if (state.sessionId, state.baseCommit, state.targetVersion) ≠
      (current.sessionId, current.baseCommit, current.targetVersion) then
    Prog.throw (.validation
      "session_id, base_commit and target_version are immutable; publication cannot change them.")
  else if head ≠ expected then
    Prog.throw (.staleRevision
      s!"expected_revision is no longer current (the hub is at {shortRevision head}); sync and retry.")
  else
    let commit ← commitState state (some head) "imece-collab: update session"
    let advanced ← casAdvance store commit
    if ¬ advanced then
      Prog.throw (.staleRevision "the local store moved concurrently; re-sync and retry.")
    else
      match ← (Prog.call .push (pushCommit commit
          "publication rejected: the session moved on the hub; sync and retry.")).attempt with
      | .ok () => return commit
      | .error e =>
          let _ ← Prog.call .mirror (casRef store head (some commit))
          Prog.throw e

def updateContext (store : ℕ) (context : SharedContext) (expectedRevision : String) :
    StoreProg String := do
  let (_, current) ← fetchState store
  publish store (current.withContext context) expectedRevision

def upsertTask (store : ℕ) (task : Task) (expectedRevision : String) : StoreProg String := do
  let (head, current) ← fetchState store
  if task.id ∉ current.tasks ∧ maxTasks ≤ current.tasks.size then
    Prog.throw (.validation s!"at most {maxTasks} tasks are allowed.")
  else
    let known ← Prog.call .read (isAncestor task.contextRevision head)
    if ¬ known then
      Prog.throw (.validation
        "task context_revision must be an existing revision of this session's published history.")
    else publish store (current.withTask task) expectedRevision

end Operations

end Imece.CollabRuntime
