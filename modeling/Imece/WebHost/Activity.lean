import Imece.Lib.Latest
import Imece.Lib.JsonFields
import Imece.RunRuntime.ActivityLifecycle
import Imece.RunRuntime.FixLoop
import Imece.RunRuntime.StoreHistory

/-!
# The activity feed

`ActivityStreamer` tails the events of a run and emits the items they show, the newest of
each identifier at a time.
-/
namespace Imece.WebHost

open Imece.Lib Imece.RunRuntime

/-- What a call of `next_page` comes back with. -/
inductive PageReply where
  | page (events : List RunEvent)
  | nothing
  | raised

/-- The events of the pages read before the stop was seen. -/
def polledLog : List (PageReply × Bool) → List RunEvent
  | [] => []
  | (.raised, _) :: _ => []
  | (.nothing, _) :: rest => polledLog rest
  | (.page events, _) :: rest => events ++ polledLog rest

/-- The events of the pages of the final catch-up. -/
def drainedLog : List PageReply → List RunEvent
  | [] => []
  | .nothing :: _ => []
  | .raised :: _ => []
  | .page events :: rest => events ++ drainedLog rest

/-- The log the feed is given: nothing, if the tail could not be opened. -/
def streamedLog (opened : Bool) (turns : List (PageReply × Bool)) (backlog : List PageReply) :
    List RunEvent :=
  if opened then polledLog turns ++ drainedLog backlog else []

/-- The streaming thread: its buffer, and what it has emitted. -/
structure ActivityStreamer where
  pending : List (String × ActivityItem)
  emitted : List ActivityItem

namespace ActivityStreamer

def initial : ActivityStreamer where
  pending := []
  emitted := []

def collectEvent (formats : PyFormats) (streamer : ActivityStreamer) (event : RunEvent) :
    ActivityStreamer :=
  { streamer with
    pending := match shownItem formats event with
      | some item => Json.dictSet streamer.pending (item.id, item)
      | none => streamer.pending }

/-- `_collect` -/
def collect (formats : PyFormats) (streamer : ActivityStreamer) (events : List RunEvent) :
    ActivityStreamer :=
  events.foldl (collectEvent formats) streamer

/-- `_flush` -/
def flush (streamer : ActivityStreamer) : ActivityStreamer :=
  { streamer with
    pending := []
    emitted := streamer.emitted ++ streamer.pending.map (·.2) }

/-- The end of one turn of the loop; `due` tells whether the interval has passed. -/
def tick (streamer : ActivityStreamer) (due : Bool) : ActivityStreamer :=
  if !streamer.pending.isEmpty && due then streamer.flush else streamer

/-- The loop, until it sees that a stop was requested or a read raises. -/
def poll (formats : PyFormats) : List (PageReply × Bool) → ActivityStreamer → ActivityStreamer
  | [], streamer => streamer
  | (.raised, _) :: _, streamer => streamer
  | (.nothing, due) :: rest, streamer => poll formats rest (streamer.tick due)
  | (.page events, due) :: rest, streamer =>
      poll formats rest ((streamer.collect formats events).tick due)

/-- The final catch-up, until a read finds nothing or raises. -/
def drain (formats : PyFormats) : List PageReply → ActivityStreamer → ActivityStreamer
  | [], streamer => streamer
  | .nothing :: _, streamer => streamer
  | .raised :: _, streamer => streamer
  | .page events :: rest, streamer => drain formats rest (streamer.collect formats events)

/-- `run`: the turns up to the stop and the reads after it. -/
def run (formats : PyFormats) (opened : Bool) (turns : List (PageReply × Bool))
    (backlog : List PageReply) : ActivityStreamer :=
  if opened then ((initial.poll formats turns).drain formats backlog).flush else initial

end ActivityStreamer

/-- The last of the items with the identifier: what the row shows. -/
def latestItem (id : String) (items : List ActivityItem) : Option ActivityItem :=
  latest (fun item => decide (item.id = id)) items

/-- The buffered items are under their identifiers, one of each. -/
def Keyed (pending : List (String × ActivityItem)) : Prop :=
  (pending.map (·.1)).Nodup ∧ ∀ pair ∈ pending, pair.2.id = pair.1

section Buffer

variable {pending : List (String × ActivityItem)} {item : ActivityItem} {id : String}

lemma Keyed.set (h : Keyed pending) : Keyed (Json.dictSet pending (item.id, item)) := by
  refine ⟨Json.dictSet_nodup h.1 _, fun pair hpair => ?_⟩
  unfold Json.dictSet at hpair
  split_ifs at hpair with hkey
  · obtain ⟨old, hold, rfl⟩ := List.mem_map.mp hpair
    split_ifs
    · rfl
    · exact h.2 old hold
  · rcases List.mem_append.mp hpair with hold | hnew
    · exact h.2 pair hold
    · rw [List.mem_singleton] at hnew
      subst hnew
      rfl

lemma Keyed.latestItem (h : Keyed pending) {pair : String × ActivityItem} (hpair : pair ∈ pending) :
    latestItem pair.1 (pending.map (·.2)) = some pair.2 := by
  cases hlatest : WebHost.latestItem pair.1 (pending.map (·.2)) with
  | none =>
      have hnone := latest_eq_none.mp hlatest pair.2 (List.mem_map_of_mem hpair)
      exact absurd (h.2 pair hpair) (of_decide_eq_false hnone)
  | some last =>
      obtain ⟨pre, post, heq, hid, -⟩ := latest_eq_some.mp hlatest
      have hmem : last ∈ pending.map (·.2) := heq ▸ by simp
      obtain ⟨other, hother, rfl⟩ := List.mem_map.mp hmem
      have hkey : other.1 = pair.1 := (h.2 other hother).symm.trans (of_decide_eq_true hid)
      rw [List.inj_on_of_nodup_map h.1 hother hpair hkey]

lemma mem_dictSet : (item.id, item) ∈ Json.dictSet pending (item.id, item) := by
  unfold Json.dictSet
  split_ifs with hkey
  · obtain ⟨old, hold, heq⟩ := List.mem_map.mp hkey
    exact List.mem_map.mpr ⟨old, hold, if_pos heq⟩
  · simp

/-- Another row keeps what it shows. -/
lemma Keyed.latestItem_set_ne (h : Keyed pending) (hid : item.id ≠ id) :
    WebHost.latestItem id ((Json.dictSet pending (item.id, item)).map (·.2)) =
      WebHost.latestItem id (pending.map (·.2)) := by
  unfold Json.dictSet
  split_ifs with hkey
  · have hfilter : ∀ pairs ⊆ pending,
        ((pairs.map fun other => if other.1 = item.id then (item.id, item) else other).map
          (·.2)).filter (fun item => decide (item.id = id)) =
        (pairs.map (·.2)).filter (fun item => decide (item.id = id)) := by
      intro pairs hpairs
      induction pairs with
      | nil => rfl
      | cons first rest ih =>
          rw [List.cons_subset] at hpairs
          simp only [List.map_cons, List.filter_cons, ih hpairs.2]
          by_cases hfirst : first.1 = item.id
          · have hold : first.2.id ≠ id := by
              rw [h.2 first hpairs.1, hfirst]
              exact hid
            simp [hfirst, hid, hold]
          · rw [if_neg hfirst]
    rw [WebHost.latestItem, latest, hfilter pending (List.Subset.refl _)]
    rfl
  · rw [List.map_append, WebHost.latestItem, latest_append]
    have hnone : latest (fun item => decide (item.id = id)) ([(item.id, item)].map (·.2)) = none := by
      rw [latest_eq_none]
      simp [hid]
    rw [hnone, Option.none_or]
    rfl

end Buffer

namespace ActivityStreamer

/-- What has been emitted or waits to be emitted last is what was shown last. -/
structure Coalesced (formats : PyFormats) (log : List RunEvent) (streamer : ActivityStreamer) :
    Prop where
  keyed : Keyed streamer.pending
  last_shown : ∀ id,
    latestItem id (streamer.emitted ++ streamer.pending.map (·.2)) =
      latestItem id (log.filterMap (shownItem formats))

variable {formats : PyFormats} {log : List RunEvent} {streamer : ActivityStreamer}

lemma Coalesced.initial : Coalesced formats [] initial where
  keyed := ⟨List.nodup_nil, fun _ h => absurd h (List.not_mem_nil)⟩
  last_shown _ := rfl

lemma Coalesced.collectEvent (h : Coalesced formats log streamer) (event : RunEvent) :
    Coalesced formats (log ++ [event]) (streamer.collectEvent formats event) := by
  cases hitem : shownItem formats event with
  | none =>
      have hfilter : (log ++ [event]).filterMap (shownItem formats) =
          log.filterMap (shownItem formats) := by
        rw [List.filterMap_append, List.filterMap_cons_none hitem]
        simp
      refine ⟨?_, fun id => ?_⟩
      · simp only [ActivityStreamer.collectEvent, hitem]
        exact h.keyed
      · simp only [ActivityStreamer.collectEvent, hitem, hfilter]
        exact h.last_shown id
  | some item =>
      have hfilter : (log ++ [event]).filterMap (shownItem formats) =
          log.filterMap (shownItem formats) ++ [item] := by
        rw [List.filterMap_append, List.filterMap_cons_some hitem]
        rfl
      refine ⟨?_, fun id => ?_⟩
      · simp only [ActivityStreamer.collectEvent, hitem]
        exact h.keyed.set
      · simp only [ActivityStreamer.collectEvent, hitem, hfilter]
        have hold := h.last_shown id
        rw [latestItem, latestItem, latest_append] at hold
        rw [latestItem, latestItem, latest_append, latest_append]
        by_cases hid : item.id = id
        · subst hid
          have hnew := h.keyed.set.latestItem (@mem_dictSet streamer.pending item)
          have hitem : latest (fun other => decide (other.id = item.id)) [item] = some item := by
            simp [latest]
          rw [latestItem] at hnew
          rw [hnew, hitem]
          rfl
        · have hsame := h.keyed.latestItem_set_ne hid
          have hnone : latest (fun item => decide (item.id = id)) [item] = none := by
            simp [latest, hid]
          rw [latestItem, latestItem] at hsame
          rw [hsame, hnone, hold]
          rfl

lemma Coalesced.collect (h : Coalesced formats log streamer) (events : List RunEvent) :
    Coalesced formats (log ++ events) (streamer.collect formats events) := by
  induction events generalizing log streamer with
  | nil =>
      rw [List.append_nil]
      exact h
  | cons event rest ih =>
      have hrest := ih (h.collectEvent event)
      rwa [List.append_assoc, List.singleton_append] at hrest

lemma Coalesced.flush (h : Coalesced formats log streamer) :
    Coalesced formats log streamer.flush where
  keyed := ⟨List.nodup_nil, fun _ hpair => absurd hpair List.not_mem_nil⟩
  last_shown id := by
    have hold := h.last_shown id
    simpa [ActivityStreamer.flush] using hold

lemma Coalesced.tick (h : Coalesced formats log streamer) (due : Bool) :
    Coalesced formats log (streamer.tick due) := by
  unfold ActivityStreamer.tick
  split_ifs
  · exact h.flush
  · exact h

theorem Coalesced.poll (h : Coalesced formats log streamer) (turns : List (PageReply × Bool)) :
    Coalesced formats (log ++ polledLog turns) (streamer.poll formats turns) := by
  induction turns generalizing log streamer with
  | nil =>
      rw [polledLog, List.append_nil]
      exact h
  | cons turn rest ih =>
      obtain ⟨reply, due⟩ := turn
      cases reply with
      | page events =>
          have hrest := ih ((h.collect events).tick due)
          rwa [List.append_assoc] at hrest
      | nothing => exact ih (h.tick due)
      | raised =>
          rw [polledLog, List.append_nil]
          exact h

theorem Coalesced.drain (h : Coalesced formats log streamer) (backlog : List PageReply) :
    Coalesced formats (log ++ drainedLog backlog) (streamer.drain formats backlog) := by
  induction backlog generalizing log streamer with
  | nil =>
      rw [drainedLog, List.append_nil]
      exact h
  | cons reply rest ih =>
      cases reply with
      | page events =>
          have hrest := ih (h.collect events)
          rwa [List.append_assoc] at hrest
      | nothing =>
          rw [drainedLog, List.append_nil]
          exact h
      | raised =>
          rw [drainedLog, List.append_nil]
          exact h

/-- However the pages come and whenever the stop is requested, a row ends at what was shown
last of it. -/
theorem run_coalesced (formats : PyFormats) (opened : Bool) (turns : List (PageReply × Bool))
    (backlog : List PageReply) (id : String) :
    latestItem id (run formats opened turns backlog).emitted =
      latestItem id ((streamedLog opened turns backlog).filterMap (shownItem formats)) := by
  cases opened with
  | false => rfl
  | true =>
      have hrun : Coalesced formats (streamedLog true turns backlog)
          (run formats true turns backlog) :=
        ((Coalesced.initial.poll turns).drain backlog).flush
      have hlast := hrun.last_shown id
      have hpending : (run formats true turns backlog).pending = [] := rfl
      rwa [hpending, List.map_nil, List.append_nil] at hlast

end ActivityStreamer

section Settled

variable {formats : PyFormats} {id : String} {log : List RunEvent}

/-- The log holds an event that ends the lifecycle of the row, with an outcome or not. -/
def Terminated (formats : PyFormats) (id : String) (log : List RunEvent) : Prop :=
  ∃ event ∈ log, event.lifecycle formats = some (id, .closes) ∨
    event.lifecycle formats = some (id, .interrupts)

/-- Each event that opens the row is followed by one that closes it with an outcome. -/
def ReopenedClosed (formats : PyFormats) (id : String) (log : List RunEvent) : Prop :=
  ∀ pre event post, log = pre ++ event :: post → event.lifecycle formats = some (id, .opens) →
    ∃ later ∈ post, later.lifecycle formats = some (id, .closes)

lemma Terminated.isLifecycleId (h : Terminated formats id log) : isLifecycleId id = true := by
  obtain ⟨event, -, hcloses | hinterrupts⟩ := h
  · have hshows := shows formats event
    rw [Shows, hcloses] at hshows
    exact hshows.1
  · have hshows := shows formats event
    rw [Shows, hinterrupts] at hshows
    exact hshows.1

/-- An event that shows a row of a lifecycle opens it or closes it. -/
lemma shows_row {event : RunEvent} {item : ActivityItem} (hid : isLifecycleId item.id = true)
    (hshown : shownItem formats event = some item) :
    (event.lifecycle formats = some (item.id, .opens) ∧ item.status = "running") ∨
      (event.lifecycle formats = some (item.id, .closes) ∧ item.status ≠ "running") := by
  have hshows := shows formats event
  rw [Shows] at hshows
  cases hlife : event.lifecycle formats with
  | none =>
      rw [hlife] at hshows
      have hother := hshows item hshown
      rw [hid] at hother
      cases hother
  | some row =>
      obtain ⟨id, phase⟩ := row
      rw [hlife] at hshows
      cases phase with
      | opens =>
          obtain ⟨-, shown, heq, rfl, hstatus⟩ := hshows
          obtain rfl := Option.some.inj (hshown.symm.trans heq)
          exact .inl ⟨rfl, hstatus⟩
      | closes =>
          obtain ⟨-, shown, heq, rfl, hstatus⟩ := hshows
          obtain rfl := Option.some.inj (hshown.symm.trans heq)
          exact .inr ⟨rfl, hstatus⟩
      | interrupts =>
          rw [hshows.2] at hshown
          cases hshown

lemma shown_of_opens {event : RunEvent} (h : event.lifecycle formats = some (id, .opens)) :
    ∃ item, shownItem formats event = some item ∧ item.id = id := by
  have hshows := shows formats event
  rw [Shows, h] at hshows
  obtain ⟨-, item, hshown, hitem, -⟩ := hshows
  exact ⟨item, hshown, hitem⟩

lemma shown_of_closes {event : RunEvent} (h : event.lifecycle formats = some (id, .closes)) :
    ∃ item, shownItem formats event = some item ∧ item.id = id := by
  have hshows := shows formats event
  rw [Shows, h] at hshows
  obtain ⟨-, item, hshown, hitem, -⟩ := hshows
  exact ⟨item, hshown, hitem⟩

/-- The row is not left running, if and only if no event opens it for good. -/
theorem not_running_iff (hid : isLifecycleId id = true) :
    (∀ item, latestItem id (log.filterMap (shownItem formats)) = some item →
      item.status ≠ "running") ↔ ReopenedClosed formats id log := by
  constructor
  · rintro h pre event post rfl hopens
    by_contra hopen
    have hopen : ∀ later ∈ post, later.lifecycle formats ≠ some (id, .closes) :=
      fun later hlater hcloses => hopen ⟨later, hlater, hcloses⟩
    obtain ⟨first, hfirst, hfirstId⟩ := shown_of_opens hopens
    cases hlast : latestItem id ((event :: post).filterMap (shownItem formats)) with
    | none =>
        have hnone := latest_eq_none.mp hlast first
          (List.mem_filterMap.mpr ⟨event, List.mem_cons_self, hfirst⟩)
        exact of_decide_eq_false hnone hfirstId
    | some item =>
        have hwhole : latestItem id ((pre ++ event :: post).filterMap (shownItem formats)) =
            some item := by
          rw [latestItem] at hlast
          rw [List.filterMap_append, latestItem, latest_append, hlast]
          rfl
        obtain ⟨between, entry, rest, heq, hentry, hitem, -⟩ := latest_filterMap_eq_some hlast
        obtain rfl : item.id = id := of_decide_eq_true hitem
        rcases shows_row hid hentry with ⟨-, hrunning⟩ | ⟨hcloses, -⟩
        · exact h item hwhole hrunning
        · have hmem : entry ∈ event :: post := heq ▸ by simp
          rcases List.mem_cons.mp hmem with rfl | hmem
          · rw [hopens] at hcloses
            cases hcloses
          · exact hopen entry hmem hcloses
  · intro h item hitem hrunning
    obtain ⟨pre, event, post, rfl, hshown, hid', hpost⟩ := latest_filterMap_eq_some hitem
    obtain rfl : item.id = id := of_decide_eq_true hid'
    rcases shows_row hid hshown with ⟨hopens, -⟩ | ⟨-, hstatus⟩
    · obtain ⟨later, hlater, hcloses⟩ := h pre event post rfl hopens
      obtain ⟨last, hlast, hlastId⟩ := shown_of_closes hcloses
      exact of_decide_eq_false (hpost later hlater last hlast) hlastId
    · exact hstatus hrunning

end Settled

/-- The feed settles: a row ends at what was shown last of it, and no row whose lifecycle
was ended in the log is left running. -/
def Settles (formats : PyFormats) (log : List RunEvent) (emitted : List ActivityItem) : Prop :=
  (∀ id, latestItem id emitted = latestItem id (log.filterMap (shownItem formats))) ∧
  ∀ id, Terminated formats id log →
    ∀ item, latestItem id emitted = some item → item.status ≠ "running"

/-- The feed settles, however the log is paged and whenever the stop is requested, if and
only if each event that opens an ended row is followed by one that closes it. -/
theorem activity_settles_iff (formats : PyFormats) (opened : Bool)
    (turns : List (PageReply × Bool)) (backlog : List PageReply) :
    Settles formats (streamedLog opened turns backlog)
        (ActivityStreamer.run formats opened turns backlog).emitted ↔
      ∀ id, Terminated formats id (streamedLog opened turns backlog) →
        ReopenedClosed formats id (streamedLog opened turns backlog) := by
  have hlast := ActivityStreamer.run_coalesced formats opened turns backlog
  constructor
  · rintro ⟨-, h⟩ id hterminated
    rw [← not_running_iff hterminated.isLifecycleId, ← hlast]
    exact h id hterminated
  · intro h
    refine ⟨hlast, fun id hterminated => ?_⟩
    rw [hlast, not_running_iff hterminated.isLifecycleId]
    exact h id hterminated

section Sample

/-- A fix loop starts and is cancelled by the user. -/
def cancelledLoop : RunProg Unit := do
  let recorder ← CanonicalFixLoopRecorder.new "r" "loop"
  let started ← recorder.start 1 ⟨"e2", 0⟩
  let _ ← started.object.interrupted "cancelled" [] ⟨"e3", 0⟩
  return ()

/-- The log of the run of the fix loop. -/
def cancelledLoopLog : List RunEvent :=
  let calls : List RunStore.StoreCall := [
    .createTask { projectRoot := "/p", prompt := "fix", taskId := some "t" } ⟨"u0", 0⟩,
    .createRun { taskId := "t", runId := some "r" } ⟨"u1", 0⟩,
    .appendEvent "r" { type := RunEventType.runCreated.value, payload := payloadOf [] } .none
      ⟨"e0", 0⟩,
    .appendEvent "r" { type := RunEventType.runStarted.value, payload := payloadOf [] } .none
      ⟨"e1", 0⟩]
  let store := calls.foldl (fun store call => after call.run store) .initial
  (cancelledLoop.alone store).2.log "r"

def textFormats : PyFormats where
  str := fun
    | .str text => text
    | _ => "None"
  fixed4 _ := none
  percent _ := none

/-- The page with the start comes first, and the stop is requested before the next read. -/
def cancelledTurns : List (PageReply × Bool) := [(.page (cancelledLoopLog.take 3), true)]

def cancelledBacklog : List PageReply := [.page (cancelledLoopLog.drop 3), .nothing]

theorem cancelled_loop_left_running :
    ¬ Settles textFormats (streamedLog true cancelledTurns cancelledBacklog)
      (ActivityStreamer.run textFormats true cancelledTurns cancelledBacklog).emitted := by
  intro h
  have hended : ∃ event ∈ streamedLog true cancelledTurns cancelledBacklog,
      event.lifecycle textFormats = some ("fix_loop:loop", .interrupts) := by decide +kernel
  have hrunning : (latestItem "fix_loop:loop" (ActivityStreamer.run textFormats true cancelledTurns
      cancelledBacklog).emitted).map (·.status) = some "running" := by decide +kernel
  obtain ⟨event, hevent, hinterrupts⟩ := hended
  obtain ⟨item, hitem, hstatus⟩ := Option.map_eq_some_iff.mp hrunning
  exact h.2 _ ⟨event, hevent, .inr hinterrupts⟩ item hitem hstatus

end Sample

end Imece.WebHost
