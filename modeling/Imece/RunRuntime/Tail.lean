import Imece.Lib.Machine
import Imece.RunRuntime.ReadModels

/-!
# Event tails

`RunRuntime.record` commits and then wakes the subscriptions of the run;
`DurableEventTail.next_page` reads the store and then waits on its subscription. The
threads of the process may interleave between any two of these steps.
-/
namespace Imece.RunRuntime

open Lib

structure EventNotice where
  runId : String
  latestSeq : ℕ

/-- `EventSubscription`: a flag and the newest number seen, no queue. -/
structure EventSubscription where
  runId : String
  dirty : Bool
  latestSeq : ℕ
  closed : Bool

/-- `_notify`. -/
def EventSubscription.notify (s : EventSubscription) (latestSeq : ℕ) : EventSubscription :=
  if s.closed then s else { s with latestSeq := max s.latestSeq latestSeq, dirty := true }

/-- `wait(timeout)`: `none` as long as it blocks. A waiter that finds the flag clears it. -/
def EventSubscription.wait (s : EventSubscription) (timedOut : Bool) :
    Option (Option EventNotice × EventSubscription) :=
  if s.dirty then some (some ⟨s.runId, s.latestSeq⟩, { s with dirty := false })
  else if s.closed || timedOut then some (none, s)
  else none

/-- A committed write of `record` or `record_many` and where its `publish` stands: the
subscribers still to be woken, once the list of them has been copied under the lock. -/
structure Publication where
  runId : String
  events : List RunEvent
  pending : Option (List ℕ)

/-- The number in the notice: `events[-1].seq`. -/
def Publication.latestSeq (p : Publication) : ℕ := (p.events.getLast?.map (·.seq)).getD 0

/-- `publish` has returned. -/
def Publication.Finished (p : Publication) : Prop := p.pending = some []

/-- Where a call of `next_page` stands: before the check of `closed`, before the query,
with the page it was given, or in `wait`. -/
inductive CallPhase where
  | top
  | checked
  | holding (page : EventPage)
  | waiting

structure PageCall where
  limit : ℤ
  phase : CallPhase

/-- A tail, the calls of `next_page` under way on it, and the pages returned so far.
`opened` tells that `open_event_tail` has found the run and returned. -/
structure DurableEventTail where
  subscription : EventSubscription
  afterSeq : ℕ
  cursor : ℕ
  opened : Bool
  closed : Bool
  calls : List PageCall
  pages : List EventPage

/-- The steps of one call of `next_page`. A query may fail in SQLite; whether the deadline
is past is up to the clock. -/
inductive CallStep where
  | check
  | query (fails : Bool)
  | settle (expired : Bool)
  | wait (timedOut : Bool)

namespace DurableEventTail

def runId (t : DurableEventTail) : String := t.subscription.runId

/-- The events of the returned pages, one after another. -/
def delivered (t : DurableEventTail) : List RunEvent := t.pages.flatMap (·.events)

/-- The call returns or raises. -/
def finish (t : DurableEventTail) (c : ℕ) : DurableEventTail :=
  { t with calls := t.calls.eraseIdx c }

def move (t : DurableEventTail) (c : ℕ) (call : PageCall) (phase : CallPhase) :
    DurableEventTail :=
  { t with calls := t.calls.set c { call with phase := phase } }

/-- The page is returned if it has events; without any, the call gives up or waits. -/
def settle (t : DurableEventTail) (c : ℕ) (call : PageCall) (page : EventPage)
    (expired : Bool) : DurableEventTail :=
  match page.events.getLast? with
  | some last => { t.finish c with cursor := last.seq, pages := t.pages ++ [page] }
  | none => if expired then t.finish c else t.move c call .waiting

/-- One step of the call number `c` of a tail. -/
def advance (store : RunStore) (t : DurableEventTail) (c : ℕ) (step : CallStep) :
    DurableEventTail :=
  match t.calls[c]? with
  | none => t
  | some call =>
      match call.phase, step with
      | .top, .check => if t.closed then t.finish c else t.move c call .checked
      | .checked, .query fails =>
          match RunStore.events t.runId t.cursor call.limit store with
          | .ok page _ => if fails then t.finish c else t.move c call (.holding page)
          | .error _ _ => t.finish c
      | .holding page, .settle expired => t.settle c call page expired
      | .waiting, .wait timedOut =>
          match t.subscription.wait timedOut with
          | some (_, s) => { t.move c call .top with subscription := s }
          | none => t
      | _, _ => t

/-- `get_run` in `open_event_tail`; when it raises, the new subscription is closed. -/
def verify (store : RunStore) (t : DurableEventTail) (fails : Bool) : DurableEventTail :=
  if t.opened || t.subscription.closed then t
  else
    match RunStore.getRun t.runId store with
    | .ok _ _ =>
        if fails then { t with subscription := { t.subscription with closed := true } }
        else { t with opened := true }
    | .error _ _ => { t with subscription := { t.subscription with closed := true } }

def notify (t : DurableEventTail) (latestSeq : ℕ) : DurableEventTail :=
  { t with subscription := t.subscription.notify latestSeq }

end DurableEventTail

/-- The store, the tails ever opened, the subscriptions of the bus in their order (the
subscription of a tail is known by the tail's number), and the publications. -/
structure TailWorld where
  store : RunStore
  subscriptions : List (String × ℕ)
  tails : List DurableEventTail
  publications : List Publication

/-- One step of a thread: a write past the runtime, a `record` up to its commit, the two
kinds of steps of `publish`, the steps of `open_event_tail`, of `next_page` and of `close`. -/
inductive TailEvent where
  | write (call : RunStore.StoreCall)
  | record (runId : String) (args : EventArgs) (expected : PyValue) (fresh : Fresh)
  | recordMany (runId : String) (specs : List (RunEventSpec × Fresh)) (expected : PyValue)
  | publish (p : ℕ)
  | wake (p : ℕ)
  | subscribe (runId : String) (afterSeq : ℤ)
  | verify (i : ℕ) (fails : Bool)
  | call (i : ℕ) (limit : ℤ)
  | advance (i c : ℕ) (step : CallStep)
  | close (i : ℕ)
  | closeSubscription (i : ℕ)
  | unsubscribe (i : ℕ)

namespace TailWorld

def initial : TailWorld where
  store := .initial
  subscriptions := []
  tails := []
  publications := []

/-- `self._subscriptions.get(run_id, ())`. -/
def subscribers (w : TailWorld) (runId : String) : List ℕ :=
  (w.subscriptions.filter (·.1 = runId)).map (·.2)

def modifyTail (w : TailWorld) (i : ℕ) (f : DurableEventTail → DurableEventTail) : TailWorld :=
  { w with tails := w.tails.modify i f }

/-- A write through the runtime: `publish` is reached only when the append has returned. -/
def committed (w : TailWorld) (runId : String) :
    EStateM.Result RunRuntimeError RunStore (List RunEvent) → TailWorld
  | .ok events next =>
      { w with store := next, publications := w.publications ++ [⟨runId, events, none⟩] }
  | .error _ next => { w with store := next }

/-- `publish` copies the subscriptions of its run. `EventNotice` refuses an empty run id. -/
def publish (w : TailWorld) (p : ℕ) : TailWorld :=
  { w with
    publications := w.publications.modify p fun q =>
      if q.pending = none ∧ q.runId ≠ "" then { q with pending := some (w.subscribers q.runId) }
      else q }

/-- `publish` wakes the next of the subscriptions it has copied. -/
def wake (w : TailWorld) (p : ℕ) : TailWorld :=
  match w.publications[p]? with
  | some ⟨runId, events, some (i :: rest)⟩ =>
      { w.modifyTail i (·.notify (Publication.latestSeq ⟨runId, events, none⟩)) with
        publications := w.publications.set p ⟨runId, events, some rest⟩ }
  | _ => w

/-- `open_event_tail` up to `subscribe`. -/
def subscribe (w : TailWorld) (runId : String) (afterSeq : ℤ) : TailWorld :=
  if afterSeq < 0 ∨ runId = "" then w
  else
    { w with
      subscriptions := w.subscriptions ++ [(runId, w.tails.length)]
      tails := w.tails ++ [
        { subscription := { runId, dirty := false, latestSeq := 0, closed := false }
          afterSeq := afterSeq.toNat
          cursor := afterSeq.toNat
          opened := false
          closed := false
          calls := []
          pages := [] }] }

/-- `_unsubscribe`, once the subscription is closed. -/
def unsubscribe (w : TailWorld) (i : ℕ) : TailWorld :=
  match w.tails[i]? with
  | some t =>
      if t.subscription.closed then
        { w with subscriptions := w.subscriptions.filter (· ≠ (t.runId, i)) }
      else w
  | none => w

def step (w : TailWorld) : TailEvent → TailWorld
  | .write call => { w with store := after call.run w.store }
  | .record runId args expected fresh =>
      w.committed runId
        (((fun recorded => [recorded.1]) <$> RunStore.appendEvent runId args expected fresh)
          w.store)
  | .recordMany runId specs expected =>
      w.committed runId ((Prod.fst <$> RunStore.appendEvents runId specs expected) w.store)
  | .publish p => w.publish p
  | .wake p => w.wake p
  | .subscribe runId afterSeq => w.subscribe runId afterSeq
  | .verify i fails => w.modifyTail i (·.verify w.store fails)
  | .call i limit =>
      w.modifyTail i fun t =>
        if t.opened then { t with calls := t.calls ++ [⟨limit, .top⟩] } else t
  | .advance i c step => w.modifyTail i (·.advance w.store c step)
  | .close i => w.modifyTail i fun t => if t.opened then { t with closed := true } else t
  | .closeSubscription i =>
      w.modifyTail i fun t =>
        if t.closed then { t with subscription := { t.subscription with closed := true } } else t
  | .unsubscribe i => w.unsubscribe i

abbrev run (w : TailWorld) (events : List TailEvent) : TailWorld := Machine.run step w events

/-- The tail on which an event begins a call. -/
def caller (w : TailWorld) : TailEvent → Option DurableEventTail
  | .call i _ => w.tails[i]?
  | _ => none

/-- A tail has one consumer: it asks for a page when its last call has ended. -/
def OneConsumer (w : TailWorld) (event : TailEvent) : Prop :=
  ((w.caller event).all (·.calls.isEmpty)) = true

instance (w : TailWorld) (event : TailEvent) : Decidable (w.OneConsumer event) :=
  inferInstanceAs (Decidable (_ = true))

end TailWorld

end Imece.RunRuntime
