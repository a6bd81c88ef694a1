import Imece.CollabRuntime.HubRuns

/-!
# Reading a hub's history

A reader asks for the history after a revision page by page, or is streamed it, while
others publish. The chain that a page is cut from hangs on the head that one fetch pins,
and is bounded by a window.
-/
namespace Imece.CollabRuntime

open Lib

def replayWindow : ℕ := 64
def maxReplayPage : ℕ := 32

structure StateReplay where
  headRevision : String
  cursor : String
  previousState : SessionState
  states : List (String × SessionState)
  hasMore : Bool

structure ReplayPage where
  headRevision : String
  nextRevision : String
  events : List ReplayEvent
  hasMore : Bool

section Reading

/-- The lines of `rev-list --first-parent --parents`: each commit with its parents. -/
def revList (commits : Commits) (head : String) (maxCount : ℕ) : List (String × List String) :=
  ((commits.firstParents head).take maxCount).map fun name =>
    (name, ((commits.find name).map (·.parents)).getD [])

def unexpectedOutput : CollabError :=
  .gitOperation "the session history could not be enumerated (unexpected rev-list output)."

/-- The loop over the chain: no merges, and each commit's parent comes next. -/
def checkChain : List (String × List String) → Except CollabError Unit
  | [] => .ok ()
  | (_, parents) :: rest =>
      if 1 < parents.length then
        .error (.gitOperation "the session history is corrupt (merge commits are not allowed).")
      else
        match rest with
        | [] => .ok ()
        | next :: _ =>
            if parents ≠ [next.1] then
              .error (.gitOperation
                "the session history is corrupt (noncontiguous first-parent history).")
            else checkChain rest

/-- `_first_parent_chain` -/
def firstParentChain (head : String) : GitCommand (List (String × List String)) := fun w =>
  match w.failure gitFailed with
  | some e => .error e w
  | none =>
      let chain := revList w.commits head (replayWindow + 1)
      if chain.any fun line => (line.1 :: line.2).any fun token => !isSha token then
        .error unexpectedOutput w
      else if chain.isEmpty ∨ replayWindow + 1 < chain.length ∨
          chain.head?.map (·.1) ≠ some head then
        .error unexpectedOutput w
      else check ((checkChain chain).map fun _ => chain) w

/-- What a limit counts, if it is an integer in range. -/
def pageLimit (limit : Json) : Except CollabError ℕ :=
  let refused : CollabError := .validation "limit must be an integer between 1 and 32."
  match limit with
  | .int count => if 1 ≤ count ∧ count ≤ maxReplayPage then .ok count.toNat else .error refused
  | _ => .error refused

/-- The state at a commit of a page; the head's is there already. -/
def pageState (head : String) (headState : SessionState) (commit : String) :
    StoreProg SessionState :=
  if commit = head then return headState else Prog.call .read (readState commit)

def pageStates (head : String) (headState : SessionState) :
    List String → StoreProg (List (String × SessionState))
  | [] => return []
  | commit :: rest => do
      let state ← pageState head headState commit
      let states ← pageStates head headState rest
      return (commit, state) :: states

/-- `replay_states` -/
def replayStates (store : ℕ) (afterRevision limit : Json) : StoreProg StateReplay := do
  let cursor ← Prog.check (shaHex afterRevision "after_revision")
  let count ← Prog.check (pageLimit limit)
  let (head, headState) ← fetchState store
  let chain ← Prog.call .object (firstParentChain head)
  let window := chain.map (·.1)
  if cursor ∉ window then
    Prog.throw (.replayUnavailable
      "the requested revision is not in the recent session history; fetch a new snapshot and retry.")
  else
    let chronological := window.reverse
    let index := chronological.idxOf cursor
    if cursor = head then return ⟨head, cursor, headState, [], false⟩
    else
      let hasMore := decide (index + count < chronological.length - 1)
      let previousState ← Prog.call .read (readState cursor)
      let states ← pageStates head headState ((chronological.drop (index + 1)).take count)
      if (previousState :: states.map (·.2)).any
          fun state => decide (state.pinnedIdentity ≠ headState.pinnedIdentity) then
        Prog.throw (.validation ("replayed history changed session_id, base_commit or " ++
          "target_version; the hub session is corrupt."))
      else return ⟨head, cursor, previousState, states, hasMore⟩

variable {δ : Type} [DecidableEq δ] (sha256 : String → δ) (coordinator : Coordinator δ)

def Coordinator.replay (store : ℕ) (credential : String) (afterRevision limit : Json) :
    StoreProg ReplayPage := do
  let _ ← Prog.check (coordinator.authenticate sha256 credential)
  let cursor ← Prog.check (shaHex afterRevision "after_revision")
  let _ ← Prog.check (pageLimit limit)
  let page ← replayStates store (.str cursor) limit
  let head ← Prog.check (shaHex (.str page.headRevision) "replay head revision")
  let previous ← Prog.check (checkedState coordinator.identity page.previousState)
  let events ← Prog.check (replayEvents coordinator.identity cursor previous page.states)
  return ⟨head, ((events.getLast?).map (·.revision)).getD cursor, events, page.hasMore⟩

end Reading

section Streaming

/-- What a subscriber is sent. -/
inductive Frame where
  | ready
  | heartbeat
  | revision (event : ReplayEvent)
  | failure (name : String) (error : CollabError)

/-- How the pause before the next page ends: the stream stops before the heartbeat is out,
or after it, or goes on. -/
inductive Pause where
  | stopped
  | beaten
  | resumed
deriving DecidableEq

/-- One turn of the loop of `_stream`: the number of events after which the host stops or
the subscriber is gone, if so; the pause; and whether a failure of the next page is still
sent. -/
structure Turn where
  breaks : Option ℕ
  pause : Pause
  failing : Bool

def failureName : CollabError → String
  | .replayUnavailable _ => "resnapshot_required"
  | _ => "error"

/-- `_stream_error` -/
def streamError (turn : Turn) (e : CollabError) : List Frame :=
  if turn.failing then [.failure (failureName e) e] else []

variable {δ : Type} [DecidableEq δ] (sha256 : String → δ) (coordinator : Coordinator δ)

/-- What the loop of `_stream` writes of a page before it fetches the next one. -/
def sentOf (turn : Turn) (page : ReplayPage) : List Frame :=
  page.events.map .revision ++
    if page.hasMore ∨ turn.pause = .stopped then [] else [.heartbeat]

/-- The loop of `_stream`: it ends where it is stopped, with the turns. -/
def streamTurns (store : ℕ) (credential : String) : List Turn → ReplayPage → StoreProg (List Frame)
  | [], _ => return []
  | turn :: turns, page =>
      match turn.breaks with
      | some count => return (page.events.take count).map .revision
      | none =>
          if turn.pause ≠ .resumed then return sentOf turn page
          else do
            match ← (coordinator.replay sha256 store credential (.str page.nextRevision)
                (.int maxReplayPage)).attempt with
            | .ok next => do
                let sent ← streamTurns store credential turns next
                return sentOf turn page ++ sent
            | .error e => return sentOf turn page ++ streamError turn e

/-- `_stream`: the frames that a subscriber is sent; without turns the stream stops before
it is ready. -/
def stream (store : ℕ) (credential : String) (afterRevision : Json) (turns : Option (List Turn)) :
    StoreProg (List Frame) := do
  let page ← coordinator.replay sha256 store credential afterRevision (.int maxReplayPage)
  match turns with
  | none => return []
  | some turns => do
      let sent ← streamTurns sha256 coordinator store credential turns page
      return .ready :: sent

end Streaming

section Requests

variable {δ φ : Type} [DecidableEq δ] (sha256 : String → δ) (format : ProposalFormat φ)

/-- What is asked of a hub: a call, a page of its history, or a stream of it. -/
inductive HubRequest (δ φ : Type) where
  | call (call : HubCall δ φ)
  | replay (coordinator : Coordinator δ) (credential : String) (afterRevision limit : Json)
  | subscribe (coordinator : Coordinator δ) (credential : String) (afterRevision : Json)
      (turns : Option (List Turn))

inductive HubAnswer where
  | revision (revision : String)
  | page (page : ReplayPage)
  | frames (frames : List Frame)

def HubRequest.program (store : ℕ) : HubRequest δ φ → StoreProg HubAnswer
  | .call asked => do
      let revision ← asked.program sha256 format store
      return .revision revision
  | .replay coordinator credential afterRevision limit => do
      let page ← coordinator.replay sha256 store credential afterRevision limit
      return .page page
  | .subscribe coordinator credential afterRevision turns => do
      let frames ← stream sha256 coordinator store credential afterRevision turns
      return .frames frames

/-- What a request may do to the hub; one that only reads does what a fetch does. -/
def HubRequest.hubCall : HubRequest δ φ → HubCall δ φ
  | .call asked => asked
  | _ => .sync

end Requests

end Imece.CollabRuntime
