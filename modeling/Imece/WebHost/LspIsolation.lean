import Imece.Lib.Ledger
import Imece.WebHost.Lsp

/-!
# Language server sessions are isolated

Over every run of the bridge in which no exit of a replaced server is handled while
another one runs, no response of one under an id that is waited for, and every request can
be encoded: a replaced server's signals touch nothing of the current one, the current
server's `initialize` is answered, and every call of `lsp.request` is replied to once.
-/
namespace Imece.WebHost

open Lib

variable {π : Type}

section Logs

def LspEntry.called? : LspEntry π → Option ℕ
  | .called context _ => some context
  | _ => none

def LspEntry.replied? : LspEntry π → Option ℕ
  | .replied context _ => some context
  | _ => none

def Waiter.context? : Waiter → Option ℕ
  | .context call => some call
  | .initialized => none

def calledContexts (log : List (LspEntry π)) : List ℕ := log.filterMap LspEntry.called?

def repliedContexts (log : List (LspEntry π)) : List ℕ := log.filterMap LspEntry.replied?

def waitingContexts (pending : List (ℕ × Waiter)) : List ℕ :=
  pending.filterMap fun item => item.2.context?

/-- An entry that is no part of a call, no exit, and no `initialize`. -/
def LspEntry.Neutral : LspEntry π → Prop
  | .sent _ (.initializeRequest _ _) => False
  | .called _ _ => False
  | .replied _ _ => False
  | .exited _ => False
  | _ => True

end Logs

/-- The signals of a server reach another server's session. -/
def Lsp.Replaced (ls : Lsp π) (server : ℕ) : Prop :=
  ∃ current, ls.proc = some current ∧ current.id ≠ server

/-- Nothing of the current session changed. -/
structure Lsp.Untouched (before after : Lsp π) : Prop where
  ready : after.ready = before.ready
  pending : after.pending = before.pending
  replies : repliedContexts after.log = repliedContexts before.log

/-- A server's exit signal was handled, or another server took its place. -/
def Lsp.Gone (ls : Lsp π) (server : ℕ) : Prop :=
  ls.proc.map Server.id ≠ some server ∨ LspEntry.exited server ∈ ls.log

/-- What a run of the bridge is to keep. -/
structure Isolated (events : List (LspEvent π)) : Prop where
  stale : ∀ before server after, events = before ++ .deliver server :: after →
    (Machine.run Lsp.step {} before).Replaced server →
    Lsp.Untouched (Machine.run Lsp.step {} before)
      (Machine.run Lsp.step {} (before ++ [.deliver server]))
  handshake : ∀ before current after id root error result rest,
    events = before ++ .deliver current.id :: after →
    (Machine.run Lsp.step {} before).proc = some current →
    LspEntry.sent current.id (.initializeRequest id root) ∈ (Machine.run Lsp.step {} before).log →
    (Machine.run Lsp.step {} before).queued current.id =
      .message (.response (some id) error result) :: rest →
    LspEntry.initialized current.id ∈
      (Machine.run Lsp.step {} (before ++ [.deliver current.id])).log
  once : ∀ context,
    (repliedContexts (Machine.run Lsp.step ({} : Lsp π) events).log).count context ≤ 1
  gone : ∀ context server,
    LspEntry.called context server ∈ (Machine.run Lsp.step ({} : Lsp π) events).log →
    (∀ id, server = some id → (Machine.run Lsp.step ({} : Lsp π) events).Gone id) →
    (repliedContexts (Machine.run Lsp.step ({} : Lsp π) events).log).count context = 1

/-- What of a signal reaches another session: an exit, before the current server's own
was handled, or a response under an id that is waited for. An error that is no object is
sent for no call, and no call is asked of a running server that `encode` refuses. -/
def Lsp.InOrder (ls : Lsp π) : LspEvent π → Prop
  | .deliver server =>
      match (ls.queued server).head? with
      | some .exited =>
          ∀ current, ls.proc = some current → current.id = server ∨
            LspEntry.exited current.id ∈ ls.log
      | some (.message (.response (some id) error _)) =>
          (∀ current, ls.proc = some current → current.id = server ∨
            id ∉ ls.pending.map Prod.fst) ∧
          (error = some .malformed → ∀ context, (id, Waiter.context context) ∉ ls.pending)
      | _ => True
  | .request method _ refusal => ls.ready = true → method ≠ "" → ls.raised refusal = none
  | _ => True

/-! ## The invariant -/

/-- Where a server's reader is: the exit signal is its last. -/
inductive Lsp.ReaderAt (ls : Lsp π) (server : ℕ) : Prop where
  | unborn (born : ls.nextServer ≤ server) (reading : ls.reading server = false)
      (queued : ls.queued server = []) (exited : LspEntry.exited server ∉ ls.log)
  | reads (born : server < ls.nextServer) (queued : LspSignal.exited ∉ ls.queued server)
      (exited : LspEntry.exited server ∉ ls.log)
  | ended (born : server < ls.nextServer) (reading : ls.reading server = false)
      (front : List (LspSignal π)) (queued : ls.queued server = front ++ [.exited])
      (silent : LspSignal.exited ∉ front) (exited : LspEntry.exited server ∉ ls.log)
  | handled (born : server < ls.nextServer) (reading : ls.reading server = false)
      (queued : ls.queued server = []) (exited : LspEntry.exited server ∈ ls.log)

/-- The calls' part: who waits, and for whom. -/
structure Lsp.CallsKept (ls : Lsp π) : Prop where
  ledger : Ledger (calledContexts ls.log) (waitingContexts ls.pending) (repliedContexts ls.log)
  fresh : ∀ context ∈ calledContexts ls.log, context < ls.nextContext
  ids : (ls.pending.map Prod.fst).Nodup
  bound : ∀ id ∈ ls.pending.map Prod.fst, id ≤ ls.nextId
  waiting : ∀ context server, LspEntry.called context server ∈ ls.log →
    context ∈ waitingContexts ls.pending → server = ls.proc.map Server.id

/-- The sessions' part: the table is empty where no server is served. -/
structure Lsp.SessionKept (ls : Lsp π) : Prop where
  idle : (∀ current, ls.proc = some current → LspEntry.exited current.id ∈ ls.log) →
    ls.ready = false ∧ ls.pending = []
  starting : ∀ current id root, ls.proc = some current →
    LspEntry.exited current.id ∉ ls.log →
    LspEntry.sent current.id (.initializeRequest id root) ∈ ls.log →
    LspEntry.initialized current.id ∈ ls.log ∨ (id, Waiter.initialized) ∈ ls.pending
  born : ∀ current, ls.proc = some current → current.id < ls.nextServer
  sent : ∀ server id root, LspEntry.sent server (.initializeRequest id root) ∈ ls.log →
    server < ls.nextServer
  reader : ∀ server, ls.ReaderAt server

structure Lsp.Kept (ls : Lsp π) : Prop where
  calls : ls.CallsKept
  session : ls.SessionKept

section Entries

variable {log entries : List (LspEntry π)}

@[simp] lemma calledContexts_append (log more : List (LspEntry π)) :
    calledContexts (log ++ more) = calledContexts log ++ calledContexts more :=
  List.filterMap_append

@[simp] lemma repliedContexts_append (log more : List (LspEntry π)) :
    repliedContexts (log ++ more) = repliedContexts log ++ repliedContexts more :=
  List.filterMap_append

lemma mem_calledContexts {context : ℕ} :
    context ∈ calledContexts log ↔ ∃ server, LspEntry.called context server ∈ log := by
  rw [calledContexts, List.mem_filterMap]
  constructor
  · rintro ⟨entry, hentry, hcalled⟩
    cases entry <;> cases hcalled
    exact ⟨_, hentry⟩
  · rintro ⟨server, hentry⟩
    exact ⟨_, hentry, rfl⟩

end Entries

namespace Lsp

variable {ls ls' : Lsp π}

/-- The parts of the record the invariant reads, but for the log. -/
structure Same (ls ls' : Lsp π) : Prop where
  proc : ls'.proc = ls.proc
  ready : ls'.ready = ls.ready
  nextId : ls'.nextId = ls.nextId
  pending : ls'.pending = ls.pending
  nextServer : ls'.nextServer = ls.nextServer
  nextContext : ls'.nextContext = ls.nextContext
  reading : ls'.reading = ls.reading
  queued : ls'.queued = ls.queued

lemma ReaderAt.of_eq {server : ℕ} (h : ls.ReaderAt server)
    (hnext : ls'.nextServer = ls.nextServer) (hreading : ls'.reading server = ls.reading server)
    (hqueued : ls'.queued server = ls.queued server)
    (hexited : LspEntry.exited server ∈ ls'.log ↔ LspEntry.exited server ∈ ls.log) :
    ls'.ReaderAt server := by
  cases h with
  | unborn born reading queued exited =>
      exact .unborn (hnext ▸ born) (hreading.trans reading) (hqueued.trans queued)
        (mt hexited.mp exited)
  | reads born queued exited =>
      exact .reads (hnext ▸ born) (by rwa [hqueued]) (mt hexited.mp exited)
  | ended born reading front queued silent exited =>
      exact .ended (hnext ▸ born) (hreading.trans reading) front (hqueued.trans queued) silent
        (mt hexited.mp exited)
  | handled born reading queued exited =>
      exact .handled (hnext ▸ born) (hreading.trans reading) (hqueued.trans queued)
        (hexited.mpr exited)

lemma CallsKept.frame (h : ls.CallsKept) (hproc : ls'.proc = ls.proc)
    (hpending : ls'.pending = ls.pending) (hnextId : ls'.nextId = ls.nextId)
    (hnextContext : ls'.nextContext = ls.nextContext) {entries : List (LspEntry π)}
    (hlog : ls'.log = ls.log ++ entries)
    (hentries : ∀ entry ∈ entries, entry.called? = none ∧ entry.replied? = none) :
    ls'.CallsKept := by
  have hcalled : calledContexts ls'.log = calledContexts ls.log := by
    have hnone : calledContexts entries = [] :=
      List.filterMap_eq_nil_iff.mpr fun entry hentry => (hentries entry hentry).1
    rw [hlog, calledContexts_append, hnone, List.append_nil]
  have hreplied : repliedContexts ls'.log = repliedContexts ls.log := by
    have hnone : repliedContexts entries = [] :=
      List.filterMap_eq_nil_iff.mpr fun entry hentry => (hentries entry hentry).2
    rw [hlog, repliedContexts_append, hnone, List.append_nil]
  refine ⟨?_, ?_, ?_, ?_, ?_⟩
  · rw [hcalled, hreplied, hpending]
    exact h.ledger
  · rw [hcalled, hnextContext]
    exact h.fresh
  · rw [hpending]
    exact h.ids
  · rw [hpending, hnextId]
    exact h.bound
  · intro context server hentry hwaiting
    rw [hpending] at hwaiting
    rw [hproc]
    rw [hlog] at hentry
    rcases List.mem_append.mp hentry with hentry | hentry
    · exact h.waiting context server hentry hwaiting
    · cases (hentries _ hentry).1

/-- Once the table is emptied and its calls have failed, nobody waits for any server. -/
lemma CallsKept.cleared (h : ls.CallsKept) (message : String) (hpending : ls'.pending = [])
    (hnextContext : ls'.nextContext = ls.nextContext)
    (hlog : ls'.log = (ls.failPending message).log) : ls'.CallsKept := by
  obtain ⟨failures, hfailures, hentries⟩ : ∃ failures : List (LspEntry π),
      failures = ls.pending.filterMap _ ∧ (ls.failPending message).log = ls.log ++ failures :=
    ⟨_, rfl, rfl⟩
  have hcalled : calledContexts failures = [] := by
    rw [calledContexts, List.filterMap_eq_nil_iff]
    intro entry hentry
    rw [hfailures, List.mem_filterMap] at hentry
    obtain ⟨⟨id, waiter⟩, -, hentry⟩ := hentry
    cases waiter <;> cases hentry
    rfl
  have hreplied : repliedContexts failures = waitingContexts ls.pending := by
    rw [repliedContexts, hfailures, List.filterMap_filterMap, waitingContexts]
    congr 1
    funext item
    obtain ⟨id, waiter⟩ := item
    cases waiter <;> rfl
  replace hentries : ls'.log = ls.log ++ failures := hlog.trans hentries
  refine ⟨?_, ?_, ?_, ?_, ?_⟩
  · rw [hentries, calledContexts_append, repliedContexts_append, hcalled, hreplied, hpending,
      List.append_nil]
    exact h.ledger.settledAll
  · rw [hentries, calledContexts_append, hcalled, List.append_nil, hnextContext]
    exact h.fresh
  · rw [hpending]
    exact List.nodup_nil
  · rw [hpending]
    intro id hid
    cases hid
  · intro context server _ hwaiting
    rw [hpending] at hwaiting
    cases hwaiting

lemma SessionKept.frame (h : ls.SessionKept) (hsame : ls.Same ls')
    {entries : List (LspEntry π)} (hlog : ls'.log = ls.log ++ entries)
    (hexited : ∀ server, LspEntry.exited server ∉ entries)
    (hsent : ∀ server id root, LspEntry.sent server (.initializeRequest id root) ∉ entries) :
    ls'.SessionKept := by
  have hexits (server : ℕ) :
      LspEntry.exited server ∈ ls'.log ↔ LspEntry.exited server ∈ ls.log := by
    rw [hlog, List.mem_append]
    exact or_iff_left (hexited server)
  have hsents (server id : ℕ) (root : String) :
      LspEntry.sent server (.initializeRequest id root) ∈ ls'.log ↔
        LspEntry.sent server (.initializeRequest id root) ∈ ls.log := by
    rw [hlog, List.mem_append]
    exact or_iff_left (hsent server id root)
  refine ⟨?_, ?_, ?_, ?_, ?_⟩
  · intro hserved
    rw [hsame.ready, hsame.pending]
    refine h.idle fun current hcurrent => (hexits _).mp (hserved current ?_)
    rw [hsame.proc]
    exact hcurrent
  · intro current id root hcurrent hlive hinit
    rw [hsame.proc] at hcurrent
    rw [hsame.pending, hlog]
    refine (h.starting current id root hcurrent (mt (hexits _).mpr hlive)
      ((hsents _ _ _).mp hinit)).imp_left ?_
    exact List.mem_append_left _
  · intro current hcurrent
    rw [hsame.proc] at hcurrent
    rw [hsame.nextServer]
    exact h.born current hcurrent
  · intro server id root hinit
    rw [hsame.nextServer]
    exact h.sent server id root ((hsents _ _ _).mp hinit)
  · intro server
    exact (h.reader server).of_eq hsame.nextServer (congrFun hsame.reading server)
      (congrFun hsame.queued server) (hexits server)

lemma Kept.frame (h : ls.Kept) (hsame : ls.Same ls') {entries : List (LspEntry π)}
    (hlog : ls'.log = ls.log ++ entries) (hneutral : ∀ entry ∈ entries, entry.Neutral) :
    ls'.Kept := by
  refine ⟨h.calls.frame hsame.proc hsame.pending hsame.nextId hsame.nextContext hlog ?_,
    h.session.frame hsame hlog ?_ ?_⟩
  · intro entry hentry
    cases entry with
    | called context server => exact (hneutral _ hentry).elim
    | replied context reply => exact (hneutral _ hentry).elim
    | _ => exact ⟨rfl, rfl⟩
  · intro server hentry
    exact hneutral _ hentry
  · intro server id root hentry
    exact hneutral _ hentry

lemma Kept.record (h : ls.Kept) {entry : LspEntry π} (hneutral : entry.Neutral) :
    (ls.record entry).Kept := by
  have hlog : (ls.record entry).log = ls.log ++ [entry] := rfl
  refine h.frame ⟨rfl, rfl, rfl, rfl, rfl, rfl, rfl, rfl⟩ hlog ?_
  intro found hfound
  rwa [List.mem_singleton.mp hfound]

/-- A message written, or not, that is no `initialize`. -/
lemma Kept.send (h : ls.Kept) {message : ClientMessage π} {refusal : Option String}
    (hneutral : ∀ server, (LspEntry.sent server message).Neutral) :
    (ls.send message refusal).Kept := by
  unfold Lsp.send
  cases hproc : ls.proc with
  | none => exact h
  | some server =>
      dsimp only
      split_ifs
      · exact h.record (hneutral server.id)
      · exact h

/-- A response takes its waiter out of the table, and settles the call that waited. -/
lemma CallsKept.pop (h : ls.CallsKept) {id : ℕ} {waiter : Waiter}
    (hmem : (id, waiter) ∈ ls.pending) (hproc : ls'.proc = ls.proc)
    (hpending : ls'.pending = ls.pending.filter (·.1 ≠ id)) (hnextId : ls'.nextId = ls.nextId)
    (hnextContext : ls'.nextContext = ls.nextContext) {entries : List (LspEntry π)}
    (hlog : ls'.log = ls.log ++ entries) (hcalled : calledContexts entries = [])
    (hreplied : repliedContexts entries = waiter.context?.toList) : ls'.CallsKept := by
  have hwaits : (waitingContexts ls.pending).Perm
      (waitingContexts ls'.pending ++ waiter.context?.toList) := by
    have hperm := (perm_pop h.ids hmem).filterMap fun item => item.2.context?
    rw [← hpending] at hperm
    refine hperm.trans ?_
    cases waiter with
    | initialized => simp [waitingContexts, Waiter.context?]
    | context call =>
        have hcons : List.filterMap (fun item : ℕ × Waiter => item.2.context?)
            ((id, Waiter.context call) :: ls'.pending) =
              call :: waitingContexts ls'.pending := rfl
        rw [hcons]
        exact (List.perm_append_singleton call _).symm
  have hsublist : ls'.pending.Sublist ls.pending := by
    rw [hpending]
    exact List.filter_sublist
  refine ⟨?_, ?_, ?_, ?_, ?_⟩
  · rw [hlog, calledContexts_append, repliedContexts_append, hcalled, hreplied, List.append_nil]
    exact h.ledger.settled hwaits
  · rw [hlog, calledContexts_append, hcalled, List.append_nil, hnextContext]
    exact h.fresh
  · exact h.ids.sublist (hsublist.map Prod.fst)
  · intro key hkey
    rw [hnextId]
    exact h.bound key ((hsublist.map Prod.fst).subset hkey)
  · intro context server hentry hwaiting
    rw [hproc]
    rw [hlog] at hentry
    rcases List.mem_append.mp hentry with hentry | hentry
    · exact h.waiting context server hentry ((hsublist.filterMap _).subset hwaiting)
    · have hcontext := mem_calledContexts.mpr ⟨server, hentry⟩
      rw [hcalled] at hcontext
      cases hcontext

/-- Someone waits only for a server that is there. -/
lemma SessionKept.served (h : ls.SessionKept) {item : ℕ × Waiter} (hmem : item ∈ ls.pending) :
    ∃ current, ls.proc = some current ∧ LspEntry.exited current.id ∉ ls.log := by
  by_contra hnone
  push Not at hnone
  rw [(h.idle hnone).2] at hmem
  cases hmem

lemma SessionKept.pop (h : ls.SessionKept) (hids : (ls.pending.map Prod.fst).Nodup) {id : ℕ}
    {waiter : Waiter} (hmem : (id, waiter) ∈ ls.pending) (hproc : ls'.proc = ls.proc)
    (hpending : ls'.pending = ls.pending.filter (·.1 ≠ id))
    (hnextServer : ls'.nextServer = ls.nextServer) (hreading : ls'.reading = ls.reading)
    (hqueued : ls'.queued = ls.queued) {entries : List (LspEntry π)}
    (hlog : ls'.log = ls.log ++ entries) (hexited : ∀ server, LspEntry.exited server ∉ entries)
    (hsent : ∀ server id root, LspEntry.sent server (.initializeRequest id root) ∉ entries)
    (hinit : waiter = .initialized → ∀ current, ls.proc = some current →
      LspEntry.initialized current.id ∈ entries) : ls'.SessionKept := by
  have hexits (server : ℕ) :
      LspEntry.exited server ∈ ls'.log ↔ LspEntry.exited server ∈ ls.log := by
    rw [hlog, List.mem_append]
    exact or_iff_left (hexited server)
  have hsents (server id : ℕ) (root : String) :
      LspEntry.sent server (.initializeRequest id root) ∈ ls'.log ↔
        LspEntry.sent server (.initializeRequest id root) ∈ ls.log := by
    rw [hlog, List.mem_append]
    exact or_iff_left (hsent server id root)
  refine ⟨?_, ?_, ?_, ?_, ?_⟩
  · intro hserved
    obtain ⟨current, hcurrent, hlive⟩ := h.served hmem
    exact absurd ((hexits _).mp (hserved current (hproc.trans hcurrent))) hlive
  · intro current key root hcurrent hlive hentry
    rw [hproc] at hcurrent
    have hbefore := h.starting current key root hcurrent (mt (hexits _).mpr hlive)
      ((hsents _ _ _).mp hentry)
    rw [hlog, hpending]
    rcases hbefore with hdone | hwaits
    · exact Or.inl (List.mem_append_left _ hdone)
    · by_cases hkey : key = id
      · have hsame := (find_key hids (hkey ▸ hwaits)).symm.trans (find_key hids hmem)
        injection hsame with hsame
        injection hsame with _ hwaiter
        exact Or.inl (List.mem_append_right _ (hinit hwaiter.symm current hcurrent))
      · exact Or.inr (List.mem_filter.mpr ⟨hwaits, by simpa using hkey⟩)
  · intro current hcurrent
    rw [hproc] at hcurrent
    rw [hnextServer]
    exact h.born current hcurrent
  · intro server key root hentry
    rw [hnextServer]
    exact h.sent server key root ((hsents _ _ _).mp hentry)
  · intro server
    exact (h.reader server).of_eq hnextServer (congrFun hreading server)
      (congrFun hqueued server) (hexits server)

/-- What the continuation of `initialize` leaves. -/
lemma onMessage_handshake (ls : Lsp π) {id : ℕ} (error : Option ServerError) (result : Option π)
    (hfind : ls.pending.find? (·.1 = id) = some (id, .initialized)) :
    ∃ entries, (ls.onMessage (.response (some id) error result)) =
        { ls with
          ready := true
          pending := ls.pending.filter (·.1 ≠ id)
          log := ls.log ++ entries } ∧
      (∀ entry ∈ entries, entry.Neutral) ∧
      ∀ current, ls.proc = some current → LspEntry.initialized current.id ∈ entries := by
  have hpop : ls.pop id = (some .initialized, { ls with
      pending := ls.pending.filter (·.1 ≠ id) }) := by
    rw [Lsp.pop, hfind]
    rfl
  cases hproc : ls.proc with
  | none =>
      refine ⟨[.event "$/imeceReady" none], ?_, ?_, ?_⟩
      · simp [onMessage, hpop, send, hproc, record]
      · intro entry hentry
        rw [List.mem_singleton.mp hentry]
        trivial
      · intro current hcurrent
        cases hcurrent
  | some server =>
      by_cases halive : ls.alive server.id = true
      · refine ⟨[.sent server.id .initialized, .initialized server.id,
          .event "$/imeceReady" none], ?_, ?_, ?_⟩
        · simp [onMessage, hpop, send, hproc, record, halive]
        · intro entry hentry
          simp only [List.mem_cons, List.not_mem_nil, or_false] at hentry
          rcases hentry with rfl | rfl | rfl <;> trivial
        · intro current hcurrent
          cases hcurrent
          simp
      · refine ⟨[.initialized server.id, .event "$/imeceReady" none], ?_, ?_, ?_⟩
        · simp [onMessage, hpop, send, hproc, record, halive]
        · intro entry hentry
          simp only [List.mem_cons, List.not_mem_nil, or_false] at hentry
          rcases hentry with rfl | rfl <;> trivial
        · intro current hcurrent
          cases hcurrent
          simp

lemma Kept.response (h : ls.Kept) {id : ℕ} {error : Option ServerError} {result : Option π}
    (hok : error = some .malformed → ∀ context, (id, Waiter.context context) ∉ ls.pending) :
    (ls.onMessage (.response (some id) error result)).Kept := by
  cases hfind : ls.pending.find? (·.1 = id) with
  | none =>
      have hkept : ls.onMessage (.response (some id) error result) = ls := by
        have hfilter := filter_key_of_not_mem (not_mem_of_find_key hfind)
        have hpop : ls.pop id = (none, ls) := by
          rw [Lsp.pop, hfind, hfilter]
          rfl
        simp only [onMessage, hpop]
      rw [hkept]
      exact h
  | some item =>
      have hmem := mem_of_find_key hfind
      have hkey : item = (id, item.2) := by
        have hid : item.1 = id := by simpa using List.find?_some hfind
        rw [← hid]
      rw [hkey] at hfind
      cases hwaiter : item.2 with
      | initialized =>
          rw [hwaiter] at hfind hmem
          obtain ⟨entries, hafter, hneutral, hinit⟩ :=
            onMessage_handshake _ error result hfind
          rw [hafter]
          refine ⟨h.calls.pop hmem rfl rfl rfl rfl rfl ?_ ?_,
            h.session.pop h.calls.ids hmem rfl rfl rfl rfl rfl rfl ?_ ?_ fun _ => hinit⟩
          · rw [calledContexts, List.filterMap_eq_nil_iff]
            intro entry hentry
            cases entry with
            | called context server => exact (hneutral _ hentry).elim
            | _ => rfl
          · rw [repliedContexts, Waiter.context?, Option.toList_none, List.filterMap_eq_nil_iff]
            intro entry hentry
            cases entry with
            | replied context reply => exact (hneutral _ hentry).elim
            | _ => rfl
          · intro server hentry
            exact hneutral _ hentry
          · intro server key root hentry
            exact hneutral _ hentry
      | context call =>
          rw [hwaiter] at hfind hmem
          have hpop : ls.pop id = (some (.context call), { ls with
              pending := ls.pending.filter (·.1 ≠ id) }) := by
            rw [Lsp.pop, hfind]
            rfl
          have hreply (reply : LspReply π) : Lsp.Kept { ls with
              pending := ls.pending.filter (·.1 ≠ id)
              log := ls.log ++ [.replied call reply] } := by
            refine ⟨h.calls.pop hmem rfl rfl rfl rfl rfl rfl rfl,
              h.session.pop h.calls.ids hmem rfl rfl rfl rfl rfl rfl ?_ ?_ ?_⟩
            · simp
            · simp
            · intro hnot
              cases hnot
          cases error with
          | none =>
              simp only [onMessage, hpop]
              exact hreply _
          | some error =>
              cases error with
              | object message =>
                  simp only [onMessage, hpop]
                  exact hreply _
              | malformed => exact absurd hmem (hok rfl call)

lemma Kept.message (h : ls.Kept) {message : ServerMessage π}
    (hok : ∀ id error result, message = .response (some id) error result →
      error = some .malformed → ∀ context, (id, Waiter.context context) ∉ ls.pending) :
    (ls.onMessage message).Kept := by
  cases message with
  | request method items refusal =>
      simp only [onMessage]
      split_ifs
      · cases items with
        | none => exact h
        | some count => exact h.send fun _ => trivial
      · exact h.send fun _ => trivial
  | response id error result =>
      cases id with
      | none => exact h
      | some id => exact h.response (hok id error result rfl)
  | notification method params => exact h.record trivial

/-! ### The queues -/

lemma Kept.requeue (h : ls.Kept) {reading : ℕ → Bool} {queued : ℕ → List (LspSignal π)}
    (hreader : ∀ server, ReaderAt { ls with reading, queued } server) :
    Kept { ls with reading, queued } :=
  ⟨⟨h.calls.ledger, h.calls.fresh, h.calls.ids, h.calls.bound, h.calls.waiting⟩,
    ⟨h.session.idle, h.session.starting, h.session.born, h.session.sent, hreader⟩⟩

lemma ReaderAt.dequeued {server : ℕ} (h : ls.ReaderAt server) {message : ServerMessage π}
    {rest : List (LspSignal π)} (hqueued : ls.queued server = .message message :: rest) :
    ReaderAt { ls with queued := Function.update ls.queued server rest } server := by
  have hrest : (Function.update ls.queued server rest) server = rest :=
    Function.update_self server rest ls.queued
  cases h with
  | unborn born reading queued exited => simp [hqueued] at queued
  | handled born reading queued exited => simp [hqueued] at queued
  | reads born queued exited =>
      refine .reads born ?_ exited
      rw [hqueued] at queued
      show LspSignal.exited ∉ Function.update ls.queued server rest server
      rw [hrest]
      exact fun hmem => queued (List.mem_cons_of_mem _ hmem)
  | ended born reading front queued silent exited =>
      rw [hqueued] at queued
      cases front with
      | nil => simp at queued
      | cons first front =>
          refine .ended born reading front ?_ (fun hmem => silent (List.mem_cons_of_mem _ hmem))
            exited
          show Function.update ls.queued server rest server = front ++ [.exited]
          rw [hrest]
          exact (List.cons.inj queued).2

lemma Kept.dequeued (h : ls.Kept) {server : ℕ} {message : ServerMessage π}
    {rest : List (LspSignal π)} (hqueued : ls.queued server = .message message :: rest) :
    Kept { ls with queued := Function.update ls.queued server rest } := by
  refine h.requeue fun other => ?_
  by_cases hother : other = server
  · rw [hother]
    exact (h.session.reader server).dequeued hqueued
  · exact (h.session.reader other).of_eq rfl rfl (Function.update_of_ne hother rest ls.queued)
      Iff.rfl

lemma failPending_log (ls : Lsp π) (message : String) :
    ∃ failures, (ls.failPending message).log = ls.log ++ failures ∧
      ∀ entry ∈ failures, ∃ context reply, entry = .replied context reply := by
  refine ⟨_, rfl, ?_⟩
  intro entry hentry
  obtain ⟨⟨id, waiter⟩, -, hfailed⟩ := List.mem_filterMap.mp hentry
  cases waiter with
  | initialized => cases hfailed
  | context call =>
      injection hfailed with hfailed
      exact ⟨call, _, hfailed.symm⟩

/-- The exit signal of a reader is its last. -/
lemma ReaderAt.exits {server : ℕ} (h : ls.ReaderAt server) {rest : List (LspSignal π)}
    (hqueued : ls.queued server = .exited :: rest) :
    server < ls.nextServer ∧ ls.reading server = false ∧ rest = [] := by
  cases h with
  | unborn born reading queued exited => simp [hqueued] at queued
  | handled born reading queued exited => simp [hqueued] at queued
  | reads born queued exited =>
      rw [hqueued] at queued
      exact absurd List.mem_cons_self queued
  | ended born reading front queued silent exited =>
      rw [hqueued] at queued
      cases front with
      | nil => exact ⟨born, reading, (List.cons.inj queued).2⟩
      | cons first front =>
          have hfirst := (List.cons.inj queued).1
          rw [← hfirst] at silent
          exact absurd List.mem_cons_self silent

lemma Kept.exited (h : ls.Kept) {server : ℕ} {rest : List (LspSignal π)}
    (hqueued : ls.queued server = .exited :: rest)
    (hok : ∀ current, ls.proc = some current → current.id = server ∨
      LspEntry.exited current.id ∈ ls.log) :
    ((onExited { ls with queued := Function.update ls.queued server rest }).record
      (.exited server)).Kept := by
  obtain ⟨hborn, hreading, hrest⟩ := (h.session.reader server).exits hqueued
  obtain ⟨failures, hfailures, hreplies⟩ :=
    failPending_log { ls with
      ready := false
      queued := Function.update ls.queued server rest } "Dil sunucusu kapandı."
  set after := (onExited { ls with queued := Function.update ls.queued server rest }).record
    (.exited server)
  have hlog : after.log = ls.log ++ (failures ++ [.event "$/imeceExited" none, .exited server]) := by
    show ((failPending _ _).log ++ [_]) ++ [_] = _
    rw [hfailures]
    simp
  have hexits (other : ℕ) : LspEntry.exited other ∈ after.log ↔
      other = server ∨ LspEntry.exited other ∈ ls.log := by
    rw [hlog]
    have hnone : LspEntry.exited other ∉ failures := by
      intro hmem
      obtain ⟨context, reply, hentry⟩ := hreplies _ hmem
      cases hentry
    simp [hnone, or_comm]
  have hsents (other id : ℕ) (root : String) :
      LspEntry.sent other (.initializeRequest id root) ∈ after.log ↔
        LspEntry.sent other (.initializeRequest id root) ∈ ls.log := by
    rw [hlog]
    have hnone : LspEntry.sent other (.initializeRequest id root) ∉ failures := by
      intro hmem
      obtain ⟨context, reply, hentry⟩ := hreplies _ hmem
      cases hentry
    simp [hnone]
  have hcalls : (failPending { ls with
      ready := false
      queued := Function.update ls.queued server rest } "Dil sunucusu kapandı.").CallsKept :=
    h.calls.cleared "Dil sunucusu kapandı." rfl rfl rfl
  have hfailed : after.log = (failPending { ls with
      ready := false
      queued := Function.update ls.queued server rest } "Dil sunucusu kapandı.").log ++
        [.event "$/imeceExited" none, .exited server] := by
    rw [hlog, hfailures, List.append_assoc]
  refine ⟨hcalls.frame rfl rfl rfl rfl hfailed ?_, ⟨?_, ?_, ?_, ?_, ?_⟩⟩
  · intro entry hentry
    simp only [List.mem_cons, List.not_mem_nil, or_false] at hentry
    rcases hentry with rfl | rfl <;> exact ⟨rfl, rfl⟩
  · intro _
    exact ⟨rfl, rfl⟩
  · intro current id root hcurrent hlive hsent
    rw [hexits, not_or] at hlive
    exact absurd (hok current hcurrent) (by simp [hlive.1, hlive.2])
  · exact h.session.born
  · intro other id root hsent
    exact h.session.sent other id root ((hsents other id root).mp hsent)
  · intro other
    by_cases hother : other = server
    · rw [hother]
      refine .handled hborn hreading ?_ ((hexits server).mpr (Or.inl rfl))
      show Function.update ls.queued server rest server = []
      rw [Function.update_self, hrest]
    · have hother_queued : after.queued other = ls.queued other := by
        show Function.update ls.queued server rest other = ls.queued other
        exact Function.update_of_ne hother rest ls.queued
      refine (h.session.reader other).of_eq rfl rfl hother_queued ?_
      rw [hexits]
      exact or_iff_right hother

lemma Kept.deliver (h : ls.Kept) {server : ℕ} (hok : ls.InOrder (.deliver server)) :
    (ls.deliver server).Kept := by
  unfold Lsp.deliver
  cases hqueued : ls.queued server with
  | nil => exact h
  | cons signal rest =>
      simp only [InOrder, hqueued, List.head?_cons] at hok
      cases signal with
      | exited => exact h.exited hqueued hok
      | message message =>
          refine (h.dequeued hqueued).message ?_
          intro id error result hmessage
          subst hmessage
          exact hok.2

/-! ### The handlers -/

lemma Kept.stopCurrent (h : ls.Kept) : ls.stopCurrent.Kept := by
  obtain ⟨failures, hfailures, hreplies⟩ :=
    failPending_log { ls with proc := none, ready := false }
      "Dil sunucusu yeniden başlıyor."
  have hcleared : (failPending { ls with proc := none, ready := false }
      "Dil sunucusu yeniden başlıyor.").Kept := by
    have hexited (server : ℕ) : LspEntry.exited server ∉ failures := by
      intro hmem
      obtain ⟨context, reply, hentry⟩ := hreplies _ hmem
      cases hentry
    have hexits (server : ℕ) : LspEntry.exited server ∈ ls.log ++ failures ↔
        LspEntry.exited server ∈ ls.log := by
      rw [List.mem_append]
      exact or_iff_left (hexited server)
    refine ⟨h.calls.cleared "Dil sunucusu yeniden başlıyor." rfl rfl rfl, ⟨?_, ?_, ?_, ?_, ?_⟩⟩
    · intro _
      exact ⟨rfl, rfl⟩
    · intro current id root hcurrent
      cases hcurrent
    · intro current hcurrent
      cases hcurrent
    · intro server id root hsent
      rw [hfailures] at hsent
      rcases List.mem_append.mp hsent with hsent | hsent
      · exact h.session.sent server id root hsent
      · obtain ⟨context, reply, hentry⟩ := hreplies _ hsent
        cases hentry
    · intro server
      refine (h.session.reader server).of_eq rfl rfl rfl ?_
      rw [hfailures]
      exact hexits server
  unfold Lsp.stopCurrent
  cases hproc : ls.proc with
  | none => exact hcleared
  | some server =>
      dsimp only
      split_ifs
      · refine hcleared.frame ⟨rfl, rfl, rfl, rfl, rfl, rfl, rfl, rfl⟩ rfl ?_
        intro entry hentry
        simp only [List.mem_cons, List.not_mem_nil, or_false] at hentry
        rcases hentry with rfl | rfl <;> trivial
      · exact hcleared

lemma stopCurrent_proc (ls : Lsp π) : ls.stopCurrent.proc = none := by
  unfold Lsp.stopCurrent
  cases hproc : ls.proc with
  | none => rfl
  | some server =>
      dsimp only
      split_ifs <;> rfl

/-- A waiter under a new id. -/
lemma CallsKept.pending_concat (h : ls.CallsKept) (waiter : Waiter) :
    ((ls.pending ++ [(ls.nextId + 1, waiter)]).map Prod.fst).Nodup ∧
      ∀ id ∈ (ls.pending ++ [(ls.nextId + 1, waiter)]).map Prod.fst, id ≤ ls.nextId + 1 := by
  rw [List.map_append]
  refine ⟨?_, ?_⟩
  · rw [List.nodup_append]
    refine ⟨h.ids, List.nodup_singleton _, ?_⟩
    intro id hid other hother
    have hbound := h.bound id hid
    rw [List.mem_singleton.mp hother]
    omega
  · intro id hid
    rcases List.mem_append.mp hid with hid | hid
    · exact Nat.le_succ_of_le (h.bound id hid)
    · exact Nat.le_of_eq (List.mem_singleton.mp hid)

lemma Kept.spawn (h : ls.Kept) (hproc : ls.proc = none) (root : String)
    (refusal : Option String) : (ls.spawn root refusal).Kept := by
  have hidle : ls.ready = false ∧ ls.pending = [] := by
    refine h.session.idle fun current hcurrent => ?_
    rw [hproc] at hcurrent
    cases hcurrent
  have hexited : LspEntry.exited ls.nextServer ∉ ls.log := by
    cases h.session.reader ls.nextServer with
    | unborn born reading queued exited => exact exited
    | reads born queued exited => exact absurd born (Nat.lt_irrefl _)
    | ended born reading front queued silent exited => exact absurd born (Nat.lt_irrefl _)
    | handled born reading queued exited => exact absurd born (Nat.lt_irrefl _)
  obtain ⟨entries, hentries, hspawned⟩ : ∃ entries : List (LspEntry π),
      (∀ entry ∈ entries,
        entry = .sent ls.nextServer (.initializeRequest (ls.nextId + 1) root)) ∧
      ls.spawn root refusal = { ls with
        proc := some { id := ls.nextServer, root }
        ready := false
        nextId := ls.nextId + 1
        pending := ls.pending ++ [(ls.nextId + 1, .initialized)]
        nextServer := ls.nextServer + 1
        alive := Function.update ls.alive ls.nextServer true
        reading := Function.update ls.reading ls.nextServer true
        log := ls.log ++ entries } := by
    cases refusal with
    | none =>
        refine ⟨[.sent ls.nextServer (.initializeRequest (ls.nextId + 1) root)],
          fun entry => List.mem_singleton.mp, ?_⟩
        simp [Lsp.spawn, Lsp.request, Lsp.send, Lsp.record]
    | some text =>
        refine ⟨[], fun entry hentry => absurd hentry List.not_mem_nil, ?_⟩
        simp [Lsp.spawn, Lsp.request, Lsp.send]
  have hexits (server : ℕ) : LspEntry.exited server ∈ ls.log ++ entries ↔
      LspEntry.exited server ∈ ls.log := by
    rw [List.mem_append]
    exact or_iff_left fun hentry => by cases hentries _ hentry
  have hcalled : calledContexts (ls.log ++ entries) = calledContexts ls.log := by
    have hnone : calledContexts entries = [] :=
      List.filterMap_eq_nil_iff.mpr fun entry hentry => by rw [hentries entry hentry]; rfl
    rw [calledContexts_append, hnone, List.append_nil]
  have hreplied : repliedContexts (ls.log ++ entries) = repliedContexts ls.log := by
    have hnone : repliedContexts entries = [] :=
      List.filterMap_eq_nil_iff.mpr fun entry hentry => by rw [hentries entry hentry]; rfl
    rw [repliedContexts_append, hnone, List.append_nil]
  obtain ⟨hids, hbound⟩ := h.calls.pending_concat .initialized
  rw [hspawned]
  refine ⟨⟨?_, ?_, hids, hbound, ?_⟩, ⟨?_, ?_, ?_, ?_, ?_⟩⟩
  · have hwaits : waitingContexts (ls.pending ++ [(ls.nextId + 1, .initialized)]) =
        waitingContexts ls.pending := by
      rw [waitingContexts, List.filterMap_append]
      exact List.append_nil _
    rw [hcalled, hreplied, hwaits]
    exact h.calls.ledger
  · rw [hcalled]
    exact h.calls.fresh
  · intro context server _ hwaiting
    simp [waitingContexts, hidle.2, Waiter.context?] at hwaiting
  · intro hserved
    exact absurd ((hexits _).mp (hserved _ rfl)) hexited
  · intro current id found hcurrent hlive hsent
    cases hcurrent
    rcases List.mem_append.mp hsent with hsent | hsent
    · exact absurd (h.session.sent _ id found hsent) (Nat.lt_irrefl _)
    · cases hentries _ hsent
      exact Or.inr (List.mem_append_right _ (List.mem_singleton.mpr rfl))
  · intro current hcurrent
    cases hcurrent
    exact Nat.lt_succ_self _
  · intro server id found hsent
    rcases List.mem_append.mp hsent with hsent | hsent
    · exact Nat.lt_succ_of_lt (h.session.sent server id found hsent)
    · cases hentries _ hsent
      exact Nat.lt_succ_self _
  · intro server
    by_cases hserver : server = ls.nextServer
    · rw [hserver]
      refine .reads (Nat.lt_succ_self _) ?_ (mt (hexits _).mp hexited)
      cases h.session.reader ls.nextServer with
      | unborn born reading queued exited => simp [queued]
      | reads born queued exited => exact queued
      | ended born reading front queued silent exited => exact absurd born (Nat.lt_irrefl _)
      | handled born reading queued exited => exact absurd born (Nat.lt_irrefl _)
    · have hreading : Function.update ls.reading ls.nextServer true server = ls.reading server :=
        Function.update_of_ne hserver true ls.reading
      cases h.session.reader server with
      | unborn born reading queued exited =>
          exact .unborn (Nat.succ_le_of_lt (Nat.lt_of_le_of_ne born (Ne.symm hserver)))
            (hreading.trans reading) queued (mt (hexits _).mp exited)
      | reads born queued exited =>
          exact .reads (Nat.lt_succ_of_lt born) queued (mt (hexits _).mp exited)
      | ended born reading front queued silent exited =>
          exact .ended (Nat.lt_succ_of_lt born) (hreading.trans reading) front queued silent
            (mt (hexits _).mp exited)
      | handled born reading queued exited =>
          exact .handled (Nat.lt_succ_of_lt born) (hreading.trans reading) queued
            ((hexits _).mpr exited)

lemma Kept.start (h : ls.Kept) (outcome : SpawnOutcome) : (ls.start outcome).Kept := by
  unfold Lsp.start
  cases ls.project with
  | none => exact h
  | some root =>
      dsimp only
      split_ifs
      · exact h
      · cases outcome with
        | spawned refusal => exact h.stopCurrent.spawn (stopCurrent_proc ls) root refusal
        | noServer => exact h.stopCurrent
        | raised => exact h.stopCurrent

lemma CallsKept.not_called (h : ls.CallsKept) : ls.nextContext ∉ calledContexts ls.log :=
  fun hmem => Nat.lt_irrefl _ (h.fresh _ hmem)

/-- A call answered in its handler waits for nobody. -/
lemma Kept.answeredAtOnce (h : ls.Kept) (reply : LspReply π) :
    Kept { ls with
      nextContext := ls.nextContext + 1
      log := ls.log ++ [.called ls.nextContext none, .replied ls.nextContext reply] } := by
  have hsession : SessionKept { ls with nextContext := ls.nextContext + 1 } :=
    ⟨h.session.idle, h.session.starting, h.session.born, h.session.sent,
      fun server => (h.session.reader server).of_eq rfl rfl rfl Iff.rfl⟩
  refine ⟨⟨?_, ?_, h.calls.ids, h.calls.bound, ?_⟩,
    hsession.frame ⟨rfl, rfl, rfl, rfl, rfl, rfl, rfl, rfl⟩ rfl (by simp) (by simp)⟩
  · rw [calledContexts_append, repliedContexts_append]
    exact h.calls.ledger.answeredAtOnce h.calls.not_called
  · intro context hcontext
    rw [calledContexts_append] at hcontext
    rcases List.mem_append.mp hcontext with hcontext | hcontext
    · exact Nat.lt_succ_of_lt (h.calls.fresh context hcontext)
    · rw [List.mem_singleton.mp hcontext]
      exact Nat.lt_succ_self _
  · intro context server hentry hwaiting
    have hcalled := h.calls.ledger.mem_calls.mpr (Or.inl hwaiting)
    rcases List.mem_append.mp hentry with hentry | hentry
    · exact h.calls.waiting context server hentry hwaiting
    · simp only [List.mem_cons, List.not_mem_nil, or_false] at hentry
      rcases hentry with hentry | hentry
      · cases hentry
        exact absurd hcalled h.calls.not_called
      · cases hentry

/-- A call sent to the server waits for it. -/
lemma Kept.asked (h : ls.Kept) (hready : ls.ready = true) :
    Kept { ls with
      nextContext := ls.nextContext + 1
      nextId := ls.nextId + 1
      pending := ls.pending ++ [(ls.nextId + 1, .context ls.nextContext)]
      log := ls.log ++ [.called ls.nextContext (ls.proc.map Server.id)] } := by
  obtain ⟨hids, hbound⟩ := h.calls.pending_concat (.context ls.nextContext)
  have hwaits : waitingContexts (ls.pending ++ [(ls.nextId + 1, .context ls.nextContext)]) =
      waitingContexts ls.pending ++ [ls.nextContext] := by
    rw [waitingContexts, List.filterMap_append]
    rfl
  have hreplied : repliedContexts (ls.log ++
      [.called ls.nextContext (ls.proc.map Server.id)]) = repliedContexts ls.log := by
    rw [repliedContexts_append]
    exact List.append_nil _
  have hexits (server : ℕ) : LspEntry.exited server ∈ ls.log ++
      [.called ls.nextContext (ls.proc.map Server.id)] ↔ LspEntry.exited server ∈ ls.log := by
    simp
  refine ⟨⟨?_, ?_, hids, hbound, ?_⟩, ⟨?_, ?_, h.session.born, ?_, ?_⟩⟩
  · rw [calledContexts_append, hreplied, hwaits]
    exact h.calls.ledger.opened h.calls.not_called
  · intro context hcontext
    rw [calledContexts_append] at hcontext
    rcases List.mem_append.mp hcontext with hcontext | hcontext
    · exact Nat.lt_succ_of_lt (h.calls.fresh context hcontext)
    · rw [List.mem_singleton.mp hcontext]
      exact Nat.lt_succ_self _
  · intro context server hentry hwaiting
    dsimp only at hwaiting
    rw [hwaits] at hwaiting
    rcases List.mem_append.mp hentry with hentry | hentry
    · rcases List.mem_append.mp hwaiting with hwaiting | hwaiting
      · exact h.calls.waiting context server hentry hwaiting
      · rw [List.mem_singleton.mp hwaiting] at hentry
        exact absurd (mem_calledContexts.mpr ⟨server, hentry⟩) h.calls.not_called
    · cases List.mem_singleton.mp hentry
      rfl
  · intro hserved
    have hidle := h.session.idle fun current hcurrent => (hexits _).mp (hserved current hcurrent)
    rw [hready] at hidle
    cases hidle.1
  · intro current id root hcurrent hlive hsent
    have hsent' : LspEntry.sent current.id (.initializeRequest id root) ∈ ls.log := by
      simpa using hsent
    exact (h.session.starting current id root hcurrent (mt (hexits _).mpr hlive) hsent').imp
      (List.mem_append_left _) (List.mem_append_left _)
  · intro server id root hsent
    exact h.session.sent server id root (by simpa using hsent)
  · intro server
    exact (h.session.reader server).of_eq rfl rfl rfl (hexits server)

lemma Kept.lspRequest (h : ls.Kept) (method : String) (params : Option π)
    {refusal : Option String} (hok : ls.ready = true → method ≠ "" → ls.raised refusal = none) :
    (ls.lspRequest method params refusal).Kept := by
  unfold Lsp.lspRequest
  dsimp only
  by_cases hready : ls.ready = true
  · rw [if_neg (by simp [hready])]
    by_cases hmethod : method = ""
    · rw [if_pos hmethod]
      exact h.answeredAtOnce _
    · rw [if_neg hmethod]
      have hraised : Lsp.raised { ls with nextContext := ls.nextContext + 1 } refusal = none :=
        hok hready hmethod
      rw [hraised]
      exact (h.asked hready).send fun _ => trivial
  · rw [if_pos (by simpa using hready)]
    exact h.answeredAtOnce _

lemma Kept.queue (h : ls.Kept) {server : ℕ} {message : ServerMessage π}
    (hreading : ls.reading server = true) : (ls.queue server (.message message)).Kept := by
  refine h.requeue fun other => ?_
  by_cases hother : other = server
  · rw [hother]
    cases h.session.reader server with
    | unborn born reading queued exited => simp [hreading] at reading
    | ended born reading front queued silent exited => simp [hreading] at reading
    | handled born reading queued exited => simp [hreading] at reading
    | reads born queued exited =>
        refine .reads born ?_ exited
        show LspSignal.exited ∉ Function.update ls.queued server _ server
        rw [Function.update_self]
        simpa using queued
  · exact (h.session.reader other).of_eq rfl rfl (Function.update_of_ne hother _ ls.queued)
      Iff.rfl

lemma Kept.readerEnds (h : ls.Kept) {server : ℕ} (hreading : ls.reading server = true) :
    (Lsp.queue { ls with reading := Function.update ls.reading server false } server
      .exited).Kept := by
  refine h.requeue fun other => ?_
  by_cases hother : other = server
  · rw [hother]
    cases h.session.reader server with
    | unborn born reading queued exited => simp [hreading] at reading
    | ended born reading front queued silent exited => simp [hreading] at reading
    | handled born reading queued exited => simp [hreading] at reading
    | reads born queued exited =>
        exact .ended born (Function.update_self server false ls.reading) (ls.queued server)
          (Function.update_self server _ ls.queued) queued exited
  · exact (h.session.reader other).of_eq rfl (Function.update_of_ne hother _ ls.reading)
      (Function.update_of_ne hother _ ls.queued) Iff.rfl

lemma Kept.step (h : ls.Kept) {event : LspEvent π} (hok : ls.InOrder event) :
    (ls.step event).Kept := by
  have hframe {ls' : Lsp π} (hsame : ls.Same ls') (hlog : ls'.log = ls.log ++ []) : ls'.Kept :=
    h.frame hsame hlog fun _ hentry => absurd hentry List.not_mem_nil
  cases event with
  | openProject root =>
      exact hframe ⟨rfl, rfl, rfl, rfl, rfl, rfl, rfl, rfl⟩ (List.append_nil _).symm
  | start outcome => exact h.start outcome
  | stop => exact h.stopCurrent
  | request method params refusal => exact h.lspRequest method params hok
  | notify method params refusal =>
      simp only [Lsp.step, Lsp.lspNotify]
      split_ifs
      · exact h.send fun _ => trivial
      · exact h
  | deliver server => exact h.deliver hok
  | emits server message =>
      simp only [Lsp.step]
      split_ifs with hreading
      · exact h.queue hreading
      · exact h
  | dies server =>
      exact hframe ⟨rfl, rfl, rfl, rfl, rfl, rfl, rfl, rfl⟩ (List.append_nil _).symm
  | readerEnds server =>
      simp only [Lsp.step]
      split_ifs with hreading
      · exact h.readerEnds hreading
      · exact h

lemma kept_new : ({} : Lsp π).Kept where
  calls :=
    { ledger := Ledger.empty
      fresh := fun _ h => absurd h List.not_mem_nil
      ids := List.nodup_nil
      bound := fun _ h => absurd h List.not_mem_nil
      waiting := fun _ _ h => absurd h List.not_mem_nil }
  session :=
    { idle := fun _ => ⟨rfl, rfl⟩
      starting := fun _ _ _ h => by cases h
      born := fun _ h => by cases h
      sent := fun _ _ _ h => absurd h List.not_mem_nil
      reader := fun server => .unborn (Nat.zero_le server) rfl rfl List.not_mem_nil }

/-! ### Signals of replaced servers -/

lemma Untouched.of_log (entries : List (LspEntry π)) (hready : ls'.ready = ls.ready)
    (hpending : ls'.pending = ls.pending) (hlog : ls'.log = ls.log ++ entries)
    (hreplied : repliedContexts entries = []) : ls.Untouched ls' := by
  refine ⟨hready, hpending, ?_⟩
  rw [hlog, repliedContexts_append, hreplied, List.append_nil]

lemma Untouched.refl (ls : Lsp π) : ls.Untouched ls := ⟨rfl, rfl, rfl⟩

lemma send_untouched (message : ClientMessage π) (refusal : Option String) :
    ls.Untouched (ls.send message refusal) := by
  unfold Lsp.send
  cases ls.proc with
  | none => exact .refl ls
  | some server =>
      dsimp only
      split_ifs
      · exact .of_log [.sent server.id message] rfl rfl rfl rfl
      · exact .refl ls

/-- A message that answers nobody who waits. -/
lemma message_untouched {message : ServerMessage π}
    (hother : ∀ id error result, message = .response (some id) error result →
      id ∉ ls.pending.map Prod.fst) : ls.Untouched (ls.onMessage message) := by
  cases message with
  | request method items refusal =>
      simp only [onMessage]
      split_ifs
      · cases items with
        | none => exact .refl ls
        | some count => exact send_untouched _ _
      · exact send_untouched _ _
  | notification method params =>
      exact .of_log [.event method params] rfl rfl rfl rfl
  | response id error result =>
      cases id with
      | none => exact .refl ls
      | some id =>
          have hkey := hother id error result rfl
          have hpop : ls.pop id = (none, ls) := by
            have hnone : ls.pending.find? (·.1 = id) = none := by
              rw [List.find?_eq_none]
              intro entry hentry
              have hne : entry.1 ≠ id := fun hsame => hkey (hsame ▸ List.mem_map_of_mem hentry)
              simpa using hne
            rw [Lsp.pop, hnone, filter_key_of_not_mem hkey]
            rfl
          simp only [onMessage, hpop]
          exact .refl ls

lemma Kept.replaced_untouched (h : ls.Kept) {server : ℕ} (hok : ls.InOrder (.deliver server))
    (hreplaced : ls.Replaced server) : ls.Untouched (ls.deliver server) := by
  obtain ⟨current, hcurrent, hne⟩ := hreplaced
  unfold Lsp.deliver
  cases hqueued : ls.queued server with
  | nil => exact .refl ls
  | cons signal rest =>
      simp only [InOrder, hqueued, List.head?_cons] at hok
      cases signal with
      | exited =>
          have hexited := (hok current hcurrent).resolve_left hne
          obtain ⟨hready, hpending⟩ := h.session.idle fun found hfound => by
            rw [hcurrent] at hfound
            cases hfound
            exact hexited
          refine .of_log [.event "$/imeceExited" none, .exited server] hready.symm
            hpending.symm ?_ rfl
          show (ls.log ++ ls.pending.filterMap _ ++ [_]) ++ [_] = _
          rw [hpending]
          simp
      | message message =>
          have huntouched : Untouched { ls with queued := Function.update ls.queued server rest }
              (onMessage { ls with queued := Function.update ls.queued server rest } message) := by
            refine message_untouched ?_
            intro id error result hmessage
            subst hmessage
            exact (hok.1 current hcurrent).resolve_left hne
          exact ⟨huntouched.ready, huntouched.pending, huntouched.replies⟩

lemma onMessage_log (ls : Lsp π) (message : ServerMessage π) :
    ∃ entries, (ls.onMessage message).log = ls.log ++ entries := by
  have hsend (ls : Lsp π) (message : ClientMessage π) (refusal : Option String) :
      ∃ entries, (ls.send message refusal).log = ls.log ++ entries := by
    unfold Lsp.send
    cases ls.proc with
    | none => exact ⟨[], (List.append_nil _).symm⟩
    | some server =>
        dsimp only
        split_ifs
        · exact ⟨_, rfl⟩
        · exact ⟨[], (List.append_nil _).symm⟩
  cases message with
  | request method items refusal =>
      simp only [onMessage]
      split_ifs
      · cases items with
        | none => exact ⟨[], (List.append_nil _).symm⟩
        | some count => exact hsend ls _ _
      · exact hsend ls _ _
  | notification method params => exact ⟨_, rfl⟩
  | response id error result =>
      cases id with
      | none => exact ⟨[], (List.append_nil _).symm⟩
      | some id =>
          cases hfind : ls.pending.find? (·.1 = id) with
          | none => exact ⟨[], by simp [onMessage, Lsp.pop, hfind]⟩
          | some item =>
              have hkey : item = (id, item.2) := by
                have hid : item.1 = id := by simpa using List.find?_some hfind
                rw [← hid]
              rw [hkey] at hfind
              cases hwaiter : item.2 with
              | initialized =>
                  rw [hwaiter] at hfind
                  obtain ⟨entries, hafter, -, -⟩ :=
                    onMessage_handshake _ error result hfind
                  exact ⟨entries, by rw [hafter]⟩
              | context call =>
                  rw [hwaiter] at hfind
                  rcases error with _ | _ | _
                  · exact ⟨_, by simp [onMessage, Lsp.pop, hfind, record]; rfl⟩
                  · exact ⟨_, by simp [onMessage, Lsp.pop, hfind, record]; rfl⟩
                  · exact ⟨[], by simp [onMessage, Lsp.pop, hfind]⟩

/-- The current server's `initialize` reply finds its continuation, or has found it. -/
lemma Kept.handshake (h : ls.Kept) {current : Server} {id : ℕ} {root : String}
    {error : Option ServerError} {result : Option π} {rest : List (LspSignal π)}
    (hcurrent : ls.proc = some current)
    (hsent : LspEntry.sent current.id (.initializeRequest id root) ∈ ls.log)
    (hqueued : ls.queued current.id = .message (.response (some id) error result) :: rest) :
    LspEntry.initialized current.id ∈ (ls.deliver current.id).log := by
  have hlive : LspEntry.exited current.id ∉ ls.log := by
    cases h.session.reader current.id with
    | unborn born reading queued exited => exact exited
    | reads born queued exited => exact exited
    | ended born reading front queued silent exited => exact exited
    | handled born reading queued exited => simp [hqueued] at queued
  have hdeliver : ls.deliver current.id = onMessage
      { ls with queued := Function.update ls.queued current.id rest }
      (.response (some id) error result) := by
    rw [Lsp.deliver, hqueued]
  rw [hdeliver]
  rcases h.session.starting current id root hcurrent hlive hsent with hdone | hwaits
  · obtain ⟨entries, hlog⟩ := onMessage_log
      { ls with queued := Function.update ls.queued current.id rest }
      (.response (some id) error result)
    rw [hlog]
    exact List.mem_append_left _ hdone
  · obtain ⟨entries, hafter, -, hinit⟩ := onMessage_handshake
      { ls with queued := Function.update ls.queued current.id rest } error result (find_key h.calls.ids hwaits)
    rw [hafter]
    exact List.mem_append_right _ (hinit current hcurrent)

lemma Kept.replied_once (h : ls.Kept) (context : ℕ) :
    (repliedContexts ls.log).count context ≤ 1 :=
  h.calls.ledger.answered_le_one

lemma Kept.replied_gone (h : ls.Kept) {context : ℕ} {server : Option ℕ}
    (hcalled : LspEntry.called context server ∈ ls.log)
    (hgone : ∀ id, server = some id → ls.Gone id) :
    (repliedContexts ls.log).count context = 1 := by
  refine h.calls.ledger.answered_once (mem_calledContexts.mpr ⟨server, hcalled⟩) fun hwaiting => ?_
  have hserver := h.calls.waiting context server hcalled hwaiting
  obtain ⟨item, hitem, -⟩ := List.mem_filterMap.mp hwaiting
  obtain ⟨current, hcurrent, hlive⟩ := h.session.served hitem
  rw [hcurrent] at hserver
  rcases hgone current.id hserver with hother | hexited
  · rw [hcurrent] at hother
    exact hother rfl
  · exact hlive hexited

end Lsp

/-- A server is replaced while a call waits for it. Its answer is handled while its successor
starts, and its exit after that of its successor. -/
def replacedServer : List (LspEvent Unit) :=
  [.openProject "/a", .start (.spawned none), .emits 0 (.response (some 1) none none), .deliver 0,
    .request "textDocument/hover" none none, .emits 0 (.response (some 2) none none),
    .openProject "/b", .start (.spawned none), .deliver 0, .readerEnds 0,
    .emits 1 (.response (some 3) none none), .deliver 1, .dies 1, .readerEnds 1, .deliver 1,
    .deliver 0]

/-- A second server takes the place of the first, whose reader ends. -/
def restarted : List (LspEvent Unit) :=
  [.openProject "/a", .start (.spawned none), .openProject "/b", .start (.spawned none),
    .readerEnds 0]

/-- A call with a lone surrogate is answered by the bridge, waits all the same, and fails again
when the server is stopped. -/
def refusedCall : List (LspEvent Unit) :=
  [.openProject "/a", .start (.spawned none), .emits 0 (.response (some 1) none none), .deliver 0,
    .request "textDocument/hover" none (some "surrogates not allowed"), .stop]

end Imece.WebHost
