import Imece.Lib.Ledger
import Imece.WebHost.Debug

/-!
# Debug sessions are isolated

Over every run of the bridge in which a session's last signals come when nobody waits,
and those of an earlier session have no effect on the open one: a session's signals touch
nothing of the next, and every call is replied to once by the time its session is over.
-/
namespace Imece.WebHost

open Lib
open ToolRuntime (Value)

def DebugEntry.called? : DebugEntry → Option ℕ
  | .called context _ => some context
  | _ => none

def DebugEntry.replied? : DebugEntry → Option ℕ
  | .replied context _ => some context
  | _ => none

namespace Debug

def calledIn (log : List DebugEntry) : List ℕ := log.filterMap DebugEntry.called?

def repliedIn (log : List DebugEntry) : List ℕ := log.filterMap DebugEntry.replied?

/-- The contexts in the table. -/
def contexts (d : Debug) : List ℕ := d.pending.filterMap fun item => item.2.context?

/-- The contexts that wait: the unresolved start, then those in the table that the bridge has
not answered itself. -/
def waiting (d : Debug) : List ℕ :=
  d.startCtx.toList ++ d.contexts.filter (· ∉ repliedIn d.log)

/-- No context waits in the table. -/
def TableIdle (d : Debug) : Prop := ∀ context ∈ d.contexts, context ∈ repliedIn d.log

def NobodyWaits (d : Debug) : Prop := d.startCtx = none ∧ d.TableIdle

/-- Nothing changed, but that the debuggee may be shown as going on. -/
structure Untouched (before after : Debug) : Prop where
  record : { after with log := before.log } = before
  log : ∃ entries, after.log = before.log ++ entries ∧ ∀ entry ∈ entries, entry = .continued

/-- What a run of the bridge is to keep. -/
structure SessionsKept (host : DebugHost) (events : List DebugEvent) : Prop where
  stale : ∀ before session signal after current,
    events = before ++ .signal session signal :: after →
    (Machine.run (step host) {} before).proc = some current → current ≠ session →
    Untouched (Machine.run (step host) {} before)
      (Machine.run (step host) {} (before ++ [.signal session signal]))
  once : ∀ context,
    (repliedIn (Machine.run (step host) {} events).log).count context ≤ 1
  finished : ∀ context session,
    DebugEntry.called context session ∈ (Machine.run (step host) {} events).log →
    (∀ id, session = some id → (Machine.run (step host) {} events).proc ≠ some id) →
    (repliedIn (Machine.run (step host) {} events).log).count context = 1

/-- A signal that no handler acts on: a response nobody waits for, an event without
effect, the end of a socket when the table is empty. -/
def Harmless (d : Debug) : DebugSignal → Prop
  | .message (.response (some seq) _) => seq ∉ d.pending.map Prod.fst
  | .message (.event event _) =>
      event ≠ "initialized" ∧ event ≠ "stopped" ∧ event ≠ "exited" ∧ event ≠ "terminated"
  | .message _ => True
  | .closed => d.pending = []
  | _ => False

/-- Nobody waits when a session ends: with its process, its socket or a new start; a
response can be read by the call that waits for it, and comes to no call that was answered
when its request was not sent; and no signal of another session has an effect on the current
one. -/
def InOrder (host : DebugHost) (d : Debug) : DebugEvent → Prop
  | .start rel _ spawned =>
      d.project.isSome = true → ".py".toList.isSuffixOf rel.toList = true →
        d.active = true ∨ spawned = true → d.NobodyWaits
  | .signal session signal =>
      (∀ current, d.proc = some current → current ≠ session → d.Harmless signal) ∧
      match signal with
      | .exited _ => d.NobodyWaits
      | .closed => d.TableIdle
      | .message (.response (some seq) response) =>
          ∀ waiter context, (seq, waiter) ∈ d.pending → waiter.context? = some context →
            context ∉ repliedIn d.log ∧
              (response.reply (host.toRel d.root) waiter).isSome = true
      | _ => True
  | _ => True

/-! ## The invariant -/

/-- Every call is in the ledger, and those that wait are the current session's. -/
structure Kept (d : Debug) : Prop where
  ledger : Ledger (calledIn d.log) d.waiting (repliedIn d.log)
  fresh : ∀ context ∈ calledIn d.log, context < d.nextContext
  ids : (d.pending.map Prod.fst).Nodup
  bound : ∀ id ∈ d.pending.map Prod.fst, id ≤ d.seq
  current : ∀ context session, DebugEntry.called context session ∈ d.log →
    context ∈ d.waiting → session = d.proc ∧ d.proc.isSome = true

section Lists

variable {log : List DebugEntry}

@[simp] lemma calledIn_append (log more : List DebugEntry) :
    calledIn (log ++ more) = calledIn log ++ calledIn more :=
  List.filterMap_append

@[simp] lemma repliedIn_append (log more : List DebugEntry) :
    repliedIn (log ++ more) = repliedIn log ++ repliedIn more :=
  List.filterMap_append

lemma repliedIn_called (log : List DebugEntry) (context : ℕ) (session : Option ℕ) :
    repliedIn (log ++ [.called context session]) = repliedIn log := by
  rw [repliedIn_append]
  exact List.append_nil _

lemma mem_calledIn {context : ℕ} :
    context ∈ calledIn log ↔ ∃ session, DebugEntry.called context session ∈ log := by
  rw [calledIn, List.mem_filterMap]
  constructor
  · rintro ⟨entry, hentry, hcalled⟩
    cases entry <;> cases hcalled
    exact ⟨_, hentry⟩
  · rintro ⟨session, hentry⟩
    exact ⟨_, hentry, rfl⟩

end Lists

variable {host : DebugHost} {d d' : Debug}

lemma mem_contexts {context : ℕ} :
    context ∈ d.contexts ↔ ∃ item ∈ d.pending, item.2.context? = some context :=
  List.mem_filterMap

lemma TableIdle.unanswered (h : d.TableIdle) : d.contexts.filter (· ∉ repliedIn d.log) = [] :=
  List.filter_eq_nil_iff.mpr fun context hcontext => by simpa using h context hcontext

lemma NobodyWaits.waiting (h : d.NobodyWaits) : d.waiting = [] := by
  rw [Debug.waiting, h.1, h.2.unanswered]
  rfl

/-- Nobody waits still, with more in the log. -/
lemma NobodyWaits.frame (h : d.NobodyWaits) (hpending : d'.pending = d.pending)
    (hstart : d'.startCtx = d.startCtx) {entries : List DebugEntry}
    (hlog : d'.log = d.log ++ entries) : d'.NobodyWaits := by
  refine ⟨hstart.trans h.1, fun context hcontext => ?_⟩
  rw [Debug.contexts, hpending] at hcontext
  rw [hlog, repliedIn_append]
  exact List.mem_append_left _ (h.2 context hcontext)

/-- A change that leaves who waits, and for whom. -/
lemma Kept.frame (h : d.Kept) (hproc : d'.proc = d.proc) (hpending : d'.pending = d.pending)
    (hstart : d'.startCtx = d.startCtx) (hseq : d'.seq = d.seq)
    (hnext : d'.nextContext = d.nextContext) {entries : List DebugEntry}
    (hlog : d'.log = d.log ++ entries)
    (hentries : ∀ entry ∈ entries, entry.called? = none ∧ entry.replied? = none) : d'.Kept := by
  have hcalled : calledIn d'.log = calledIn d.log := by
    have hnone : calledIn entries = [] :=
      List.filterMap_eq_nil_iff.mpr fun entry hentry => (hentries entry hentry).1
    rw [hlog, calledIn_append, hnone, List.append_nil]
  have hreplied : repliedIn d'.log = repliedIn d.log := by
    have hnone : repliedIn entries = [] :=
      List.filterMap_eq_nil_iff.mpr fun entry hentry => (hentries entry hentry).2
    rw [hlog, repliedIn_append, hnone, List.append_nil]
  have hwaiting : d'.waiting = d.waiting := by
    rw [Debug.waiting, Debug.waiting, Debug.contexts, Debug.contexts, hpending, hstart, hreplied]
  refine ⟨?_, ?_, ?_, ?_, ?_⟩
  · rw [hcalled, hreplied, hwaiting]
    exact h.ledger
  · rw [hcalled, hnext]
    exact h.fresh
  · rw [hpending]
    exact h.ids
  · rw [hpending, hseq]
    exact h.bound
  · intro context session hentry hwaits
    rw [hproc]
    rw [hwaiting] at hwaits
    rw [hlog] at hentry
    rcases List.mem_append.mp hentry with hentry | hentry
    · exact h.current context session hentry hwaits
    · cases (hentries _ hentry).1

lemma Kept.same (h : d.Kept) (hproc : d'.proc = d.proc) (hpending : d'.pending = d.pending)
    (hstart : d'.startCtx = d.startCtx) (hseq : d'.seq = d.seq)
    (hnext : d'.nextContext = d.nextContext) (hlog : d'.log = d.log) : d'.Kept :=
  have hlog' : d'.log = d.log ++ [] := by rw [hlog, List.append_nil]
  h.frame hproc hpending hstart hseq hnext hlog' fun _ hentry => absurd hentry List.not_mem_nil

lemma Kept.record (h : d.Kept) (entry : DebugEntry) (hcalled : entry.called? = none)
    (hreplied : entry.replied? = none) : (d.record entry).Kept := by
  have hlog : (d.record entry).log = d.log ++ [entry] := rfl
  refine h.frame rfl rfl rfl rfl rfl hlog ?_
  intro found hfound
  rw [List.mem_singleton.mp hfound]
  exact ⟨hcalled, hreplied⟩

/-- Where nobody waits, the table and the process may change at will. -/
lemma Kept.idle (h : d.Kept) (hidle : d.waiting = []) (hwaiting : d'.waiting = [])
    (hids : (d'.pending.map Prod.fst).Nodup) (hbound : ∀ id ∈ d'.pending.map Prod.fst, id ≤ d'.seq)
    (hnext : d'.nextContext = d.nextContext) (hlog : d'.log = d.log) : d'.Kept := by
  refine ⟨?_, ?_, hids, hbound, ?_⟩
  · rw [hlog, hwaiting, ← hidle]
    exact h.ledger
  · rw [hlog, hnext]
    exact h.fresh
  · intro context session _ hwaits
    rw [hwaiting] at hwaits
    cases hwaits

lemma Kept.cleanup (h : d.Kept) (hidle : d.NobodyWaits) : d.cleanup.Kept :=
  h.idle hidle.waiting rfl List.nodup_nil (fun _ hid => absurd hid List.not_mem_nil) rfl rfl

lemma Kept.killProc (h : d.Kept) : d.killProc.Kept := by
  unfold Debug.killProc
  cases hproc : d.proc with
  | none => exact h.same rfl rfl rfl rfl rfl rfl
  | some session =>
      dsimp only
      split_ifs
      · exact (h.record (.killed session) rfl rfl).same rfl rfl rfl rfl rfl rfl
      · exact h.same rfl rfl rfl rfl rfl rfl

lemma Kept.flushOut (h : d.Kept) : d.flushOut.Kept := by
  unfold Debug.flushOut
  split_ifs
  · exact h
  · have hemptied : Kept { d with outBuf := [] } := h.same rfl rfl rfl rfl rfl rfl
    exact hemptied.record _ rfl rfl

lemma NobodyWaits.killProc (h : d.NobodyWaits) : d.killProc.NobodyWaits := by
  unfold Debug.killProc
  cases d.proc with
  | none => exact h
  | some session =>
      dsimp only
      split_ifs
      · exact h.frame rfl rfl rfl
      · exact h

lemma NobodyWaits.flushOut (h : d.NobodyWaits) : d.flushOut.NobodyWaits := by
  unfold Debug.flushOut
  split_ifs
  · exact h
  · exact h.frame rfl rfl rfl

lemma pending_concat (h : d.Kept) (waiter : DapWaiter) :
    ((d.pending ++ [(d.seq + 1, waiter)]).map Prod.fst).Nodup ∧
      ∀ id ∈ (d.pending ++ [(d.seq + 1, waiter)]).map Prod.fst, id ≤ d.seq + 1 := by
  rw [List.map_append]
  refine ⟨?_, ?_⟩
  · rw [List.nodup_append]
    refine ⟨h.ids, List.nodup_singleton _, ?_⟩
    intro id hid other hother
    have hbound := h.bound id hid
    rw [List.mem_singleton.mp hother]
    omega
  · intro id hid
    rcases List.mem_append.mp hid with hid | hid
    · exact Nat.le_succ_of_le (h.bound id hid)
    · exact Nat.le_of_eq (List.mem_singleton.mp hid)

/-- What a request adds: a number, at most a waiter, and what goes out on the socket. -/
lemma request_eq (host : DebugHost) (d : Debug) (request : DapRequest)
    (waiter : Option DapWaiter) :
    ∃ entries, d.request host request waiter = { d with
        seq := d.seq + 1
        pending := d.pending ++ (waiter.map fun waiter => (d.seq + 1, waiter)).toList
        log := d.log ++ entries } ∧
      ∀ entry ∈ entries, entry.called? = none ∧ entry.replied? = none := by
  unfold Debug.request
  cases hsock : d.sock with
  | none =>
      refine ⟨[], ?_, fun _ hentry => absurd hentry List.not_mem_nil⟩
      simp
  | some session =>
      by_cases hrefused : (host.refusal (d.seq + 1) request).isSome = true
      · refine ⟨[], ?_, fun _ hentry => absurd hentry List.not_mem_nil⟩
        simp [hrefused]
      · refine ⟨[.sent session request], ?_, ?_⟩
        · simp [hrefused, Debug.record]
        · intro entry hentry
          rw [List.mem_singleton.mp hentry]
          exact ⟨rfl, rfl⟩

/-- A request of the bridge's own lets no context wait. -/
lemma Kept.request (h : d.Kept) (request : DapRequest) {waiter : Option DapWaiter}
    (hwaiter : ∀ found, waiter = some found → found.context? = none) :
    (d.request host request waiter).Kept := by
  obtain ⟨entries, hrequest, hentries⟩ := request_eq host d request waiter
  rw [hrequest]
  have hnumbered : Kept { d with
      seq := d.seq + 1
      pending := d.pending ++ (waiter.map fun waiter => (d.seq + 1, waiter)).toList } := by
    cases waiter with
    | none =>
        have hpending : d.pending ++
            ((none : Option DapWaiter).map fun waiter => (d.seq + 1, waiter)).toList =
              d.pending :=
          List.append_nil _
        rw [hpending]
        exact ⟨h.ledger, h.fresh, h.ids, fun id hid => Nat.le_succ_of_le (h.bound id hid),
          h.current⟩
    | some found =>
        obtain ⟨hids, hbound⟩ := pending_concat h found
        have hwaiting : Debug.waiting { d with
            seq := d.seq + 1
            pending := d.pending ++ [(d.seq + 1, found)] } = d.waiting := by
          simp [Debug.waiting, Debug.contexts, hwaiter found rfl]
        refine ⟨?_, h.fresh, hids, hbound, ?_⟩
        · show Ledger _ (Debug.waiting { d with
              seq := d.seq + 1
              pending := d.pending ++ [(d.seq + 1, found)] }) _
          rw [hwaiting]
          exact h.ledger
        · intro context session hentry hwaits
          have hwaits' : context ∈ d.waiting := hwaiting ▸ hwaits
          exact h.current context session hentry hwaits'
  exact hnumbered.frame rfl rfl rfl rfl rfl rfl hentries

lemma Kept.not_called (h : d.Kept) : d.nextContext ∉ calledIn d.log :=
  fun hmem => Nat.lt_irrefl _ (h.fresh _ hmem)

lemma Kept.fresh_concat (h : d.Kept) {entries : List DebugEntry}
    (hcalled : calledIn entries = [d.nextContext]) :
    ∀ context ∈ calledIn (d.log ++ entries), context < d.nextContext + 1 := by
  intro context hcontext
  rw [calledIn_append, hcalled] at hcontext
  rcases List.mem_append.mp hcontext with hcontext | hcontext
  · exact Nat.lt_succ_of_lt (h.fresh context hcontext)
  · rw [List.mem_singleton.mp hcontext]
    exact Nat.lt_succ_self _

lemma Kept.not_replied (h : d.Kept) : d.nextContext ∉ repliedIn d.log :=
  fun hmem => h.not_called (h.ledger.mem_calls.mpr (Or.inr hmem))

/-- An answer to a fresh call leaves who waits. -/
lemma Kept.unanswered_fresh (h : d.Kept) :
    d.contexts.filter (· ∉ repliedIn d.log ++ [d.nextContext]) =
      d.contexts.filter (· ∉ repliedIn d.log) :=
  Ledger.filter_unanswered_concat fun hmem =>
    h.not_called (h.ledger.mem_calls.mpr (Or.inl (List.mem_append_right _ hmem)))

/-- A call answered in its handler waits for nobody. -/
lemma Kept.answered (h : d.Kept) (reply : DebugReply) : (d.answered reply).Kept := by
  have hwaiting : (d.answered reply).waiting = d.waiting := by
    show d.startCtx.toList ++ d.contexts.filter (· ∉ repliedIn (d.log ++ _)) = d.waiting
    have hone : repliedIn [.called d.nextContext none, .replied d.nextContext reply] =
        [d.nextContext] := rfl
    rw [repliedIn_append, hone, h.unanswered_fresh, Debug.waiting]
  refine ⟨?_, h.fresh_concat rfl, h.ids, h.bound, ?_⟩
  · rw [hwaiting]
    show Ledger (calledIn (d.log ++ _)) d.waiting (repliedIn (d.log ++ _))
    rw [calledIn_append, repliedIn_append]
    exact h.ledger.answeredAtOnce h.not_called
  · intro context session hentry hwaits
    rw [hwaiting] at hwaits
    have hcalled := h.ledger.mem_calls.mpr (Or.inl hwaits)
    rcases List.mem_append.mp hentry with hentry | hentry
    · exact h.current context session hentry hwaits
    · simp only [List.mem_cons, List.not_mem_nil, or_false] at hentry
      rcases hentry with hentry | hentry
      · cases hentry
        exact absurd hcalled h.not_called
      · cases hentry

/-- A call that waits in the table is answered. -/
lemma Kept.replied (h : d.Kept) {context : ℕ} (hmem : context ∈ d.contexts)
    (hwaits : context ∉ repliedIn d.log) (reply : DebugReply) :
    (d.record (.replied context reply)).Kept := by
  have hnodup : (d.contexts.filter (· ∉ repliedIn d.log)).Nodup :=
    (List.nodup_append.mp h.ledger.waiting_nodup).2.1
  have hfound : context ∈ d.contexts.filter (· ∉ repliedIn d.log) :=
    List.mem_filter.mpr ⟨hmem, by simpa using hwaits⟩
  have hwaiting : (d.record (.replied context reply)).waiting =
      d.startCtx.toList ++ (d.contexts.filter (· ∉ repliedIn d.log)).erase context := by
    have hone : repliedIn [.replied context reply] = [context] := rfl
    rw [hnodup.erase_eq_filter, List.filter_filter]
    show d.startCtx.toList ++
      d.contexts.filter (· ∉ repliedIn (d.log ++ [.replied context reply])) = _
    rw [repliedIn_append, hone]
    refine congrArg _ (List.filter_congr fun other _ => ?_)
    rw [Bool.eq_iff_iff]
    simp [not_or, and_comm]
  have hperm : d.waiting.Perm ((d.record (.replied context reply)).waiting ++ [context]) := by
    rw [hwaiting, Debug.waiting, List.append_assoc]
    refine List.Perm.append_left _ ?_
    exact (List.perm_cons_erase hfound).trans (List.perm_append_singleton context _).symm
  refine ⟨?_, ?_, h.ids, h.bound, ?_⟩
  · show Ledger (calledIn (d.log ++ [.replied context reply])) _
      (repliedIn (d.log ++ [.replied context reply]))
    rw [calledIn_append, repliedIn_append]
    exact (List.append_nil (calledIn d.log)).symm ▸ h.ledger.settled hperm
  · show ∀ found ∈ calledIn (d.log ++ [.replied context reply]), found < d.nextContext
    rw [calledIn_append]
    exact (List.append_nil (calledIn d.log)).symm ▸ h.fresh
  · intro found session hentry hfound
    have hbefore := hperm.symm.subset (List.mem_append_left _ hfound)
    rcases List.mem_append.mp hentry with hentry | hentry
    · exact h.current found session hentry hbefore
    · cases List.mem_singleton.mp hentry

/-- A waiter leaves the table when nobody waits for it. -/
lemma Kept.dropped (h : d.Kept) {seq : ℕ} {waiter : DapWaiter} (hmem : (seq, waiter) ∈ d.pending)
    (hanswered : ∀ context, waiter.context? = some context → context ∈ repliedIn d.log) :
    Kept { d with pending := d.pending.filter (·.1 ≠ seq) } := by
  set after : Debug := { d with pending := d.pending.filter (·.1 ≠ seq) }
  have hsublist : after.pending.Sublist d.pending := List.filter_sublist
  have hwaits : d.waiting.Perm after.waiting := by
    have hcontexts : d.contexts.Perm (waiter.context?.toList ++ after.contexts) := by
      have hperm := (perm_pop h.ids hmem).filterMap fun item => item.2.context?
      cases hcontext : waiter.context? with
      | none => simpa [hcontext, Debug.contexts, after] using hperm
      | some context => simpa [hcontext, Debug.contexts, after] using hperm
    have hnone : waiter.context?.toList.filter (· ∉ repliedIn d.log) = [] := by
      refine List.filter_eq_nil_iff.mpr fun context hcontext => ?_
      simpa using hanswered context (Option.mem_toList.mp hcontext)
    have hfilter := hcontexts.filter (· ∉ repliedIn d.log)
    rw [List.filter_append, hnone, List.nil_append] at hfilter
    exact hfilter.append_left d.startCtx.toList
  refine ⟨⟨h.ledger.nodup, h.ledger.perm.trans (hwaits.append_right _)⟩, h.fresh,
    h.ids.sublist (hsublist.map Prod.fst), ?_, ?_⟩
  · intro id hid
    exact h.bound id ((hsublist.map Prod.fst).subset hid)
  · intro context session hentry hcontext
    exact h.current context session hentry (hwaits.symm.subset hcontext)

/-- A call goes into the table, for the adapter of the current session. -/
lemma Kept.listed (h : d.Kept) (hproc : d.proc.isSome = true) {waiter : DapWaiter}
    (hwaiter : waiter.context? = some d.nextContext) :
    Kept { d with
      seq := d.seq + 1
      pending := d.pending ++ [(d.seq + 1, waiter)]
      nextContext := d.nextContext + 1
      log := d.log ++ [.called d.nextContext d.proc] } := by
  obtain ⟨hids, hbound⟩ := pending_concat h waiter
  have hwaiting : Debug.waiting { d with
      seq := d.seq + 1
      pending := d.pending ++ [(d.seq + 1, waiter)]
      nextContext := d.nextContext + 1
      log := d.log ++ [.called d.nextContext d.proc] } = d.waiting ++ [d.nextContext] := by
    have hreplied := repliedIn_called d.log d.nextContext d.proc
    simp [Debug.waiting, Debug.contexts, hwaiter, hreplied, h.not_replied]
  refine ⟨?_, h.fresh_concat rfl, hids, hbound, ?_⟩
  · rw [hwaiting, calledIn_append, repliedIn_called]
    exact h.ledger.opened h.not_called
  · intro context session hentry hwaits
    rw [hwaiting] at hwaits
    rcases List.mem_append.mp hentry with hentry | hentry
    · rcases List.mem_append.mp hwaits with hwaits | hwaits
      · exact h.current context session hentry hwaits
      · rw [List.mem_singleton.mp hwaits] at hentry
        exact absurd (mem_calledIn.mpr ⟨session, hentry⟩) h.not_called
    · cases List.mem_singleton.mp hentry
      exact ⟨rfl, hproc⟩

/-- A call sent to the adapter waits for it, and one that cannot be sent has been answered. -/
lemma Kept.asked (h : d.Kept) (hproc : d.proc.isSome = true) (request : DapRequest)
    {waiter : ℕ → DapWaiter} (hwaiter : (waiter d.nextContext).context? = some d.nextContext) :
    (d.asked host request waiter).Kept := by
  unfold Debug.asked
  obtain ⟨entries, hrequest, hentries⟩ := request_eq host { d with
    nextContext := d.nextContext + 1
    log := d.log ++ [.called d.nextContext d.proc] } request (some (waiter d.nextContext))
  have hlisted : Kept (Debug.request host { d with
      nextContext := d.nextContext + 1
      log := d.log ++ [.called d.nextContext d.proc] } request (some (waiter d.nextContext))) := by
    rw [hrequest]
    exact (h.listed hproc hwaiter).frame rfl rfl rfl rfl rfl rfl hentries
  dsimp only
  cases d.raised host request with
  | none => exact hlisted
  | some text =>
      refine hlisted.replied ?_ ?_ _
      · rw [hrequest]
        exact mem_contexts.mpr ⟨_, List.mem_append_right _ (List.mem_singleton_self _), hwaiter⟩
      · have hnone : repliedIn entries = [] :=
          List.filterMap_eq_nil_iff.mpr fun entry hentry => (hentries entry hentry).2
        rw [hrequest, repliedIn_append, repliedIn_append, hnone, List.append_nil]
        exact (List.append_nil (repliedIn d.log)).symm ▸ h.not_replied

/-- The start's context is answered, with whatever else changes of the session. -/
lemma Kept.startAnswered (h : d.Kept) {context : ℕ} (hstart : d.startCtx = some context)
    (entries : List DebugEntry)
    (hproc : d'.proc = d.proc) (hpending : d'.pending = d.pending)
    (hstart' : d'.startCtx = none) (hseq : d'.seq = d.seq)
    (hnext : d'.nextContext = d.nextContext)
    (hlog : d'.log = d.log ++ entries) (hcalled : calledIn entries = [])
    (hreplied : repliedIn entries = [context]) : d'.Kept := by
  have hwaits : d.waiting.Perm (d'.waiting ++ [context]) := by
    have hnot : context ∉ d.contexts.filter (· ∉ repliedIn d.log) := by
      have hnodup := h.ledger.waiting_nodup
      rw [Debug.waiting, hstart, Option.toList_some, List.singleton_append,
        List.nodup_cons] at hnodup
      exact hnodup.1
    have hkept : d'.contexts.filter (· ∉ repliedIn d'.log) =
        d.contexts.filter (· ∉ repliedIn d.log) := by
      rw [Debug.contexts, hpending, hlog, repliedIn_append, hreplied]
      exact Ledger.filter_unanswered_concat hnot
    rw [Debug.waiting, Debug.waiting, hkept, hstart, hstart', Option.toList_some,
      Option.toList_none, List.nil_append]
    exact List.perm_append_comm
  refine ⟨?_, ?_, ?_, ?_, ?_⟩
  · rw [hlog, calledIn_append, repliedIn_append, hcalled, hreplied, List.append_nil]
    exact h.ledger.settled hwaits
  · rw [hlog, calledIn_append, hcalled, List.append_nil, hnext]
    exact h.fresh
  · rw [hpending]
    exact h.ids
  · rw [hpending, hseq]
    exact h.bound
  · intro found session hentry hfound
    rw [hproc]
    have hbefore : found ∈ d.waiting := hwaits.symm.subset (List.mem_append_left _ hfound)
    rw [hlog] at hentry
    rcases List.mem_append.mp hentry with hentry | hentry
    · exact h.current found session hentry hbefore
    · have hnew := mem_calledIn.mpr ⟨session, hentry⟩
      rw [hcalled] at hnew
      cases hnew

/-! ### Messages -/

lemma continuation_context {waiter : DapWaiter} {response : DapResponse} {context : ℕ}
    {reply : DebugReply} (hcontext : waiter.context? = some context)
    (hreply : response.reply (host.toRel d.root) waiter = some reply) :
    d.continuation host waiter response = d.record (.replied context reply) := by
  cases waiter <;> cases hcontext <;> simp [Debug.continuation, DapWaiter.context?, hreply]

/-- A continuation of the bridge's own, on a table it has left. -/
lemma Kept.continuation (h : d.Kept) {waiter : DapWaiter} (hwaiter : waiter.context? = none)
    (response : DapResponse) : (d.continuation host waiter response).Kept := by
  cases waiter with
  | afterInit => exact h.request .attach fun _ hnone => by cases hnone
  | cfgDone =>
      simp only [Debug.continuation]
      cases hstart : d.startCtx with
      | none => exact h
      | some context =>
          exact h.startAnswered hstart [.replied context .started] rfl rfl rfl rfl rfl rfl rfl rfl
  | withStack reason =>
      simp only [Debug.continuation]
      cases response.frames (host.toRel d.root) with
      | none => exact h
      | some frames => exact h.record _ rfl rfl
  | breakpoints context => cases hwaiter
  | stack context => cases hwaiter
  | scopes context => cases hwaiter
  | vars context => cases hwaiter
  | evaluate context => cases hwaiter

lemma pop_none {seq : ℕ} (h : seq ∉ d.pending.map Prod.fst) : d.pop seq = (none, d) := by
  have hnone : d.pending.find? (·.1 = seq) = none := by
    rw [List.find?_eq_none]
    intro entry hentry
    have hne : entry.1 ≠ seq := fun hsame => h (hsame ▸ List.mem_map_of_mem hentry)
    simpa using hne
  rw [Debug.pop, hnone, filter_key_of_not_mem h]
  rfl

lemma pop_some (h : d.Kept) {seq : ℕ} {waiter : DapWaiter} (hmem : (seq, waiter) ∈ d.pending) :
    d.pop seq = (some waiter, { d with pending := d.pending.filter (·.1 ≠ seq) }) := by
  rw [Debug.pop, find_key h.ids hmem]
  rfl

lemma Kept.response (h : d.Kept) {seq : ℕ} {response : DapResponse}
    (hok : ∀ waiter context, (seq, waiter) ∈ d.pending → waiter.context? = some context →
      context ∉ repliedIn d.log ∧ (response.reply (host.toRel d.root) waiter).isSome = true) :
    (d.onMessage host (.response (some seq) response)).Kept := by
  by_cases hseq : seq ∈ d.pending.map Prod.fst
  · obtain ⟨⟨key, waiter⟩, hmem, hkey⟩ := List.mem_map.mp hseq
    have hkey : key = seq := hkey
    subst hkey
    simp only [Debug.onMessage, pop_some h hmem]
    cases hcontext : waiter.context? with
    | none =>
        exact (h.dropped hmem fun _ hsome => by simp [hcontext] at hsome).continuation hcontext
          response
    | some context =>
        obtain ⟨hwaits, hread⟩ := hok waiter context hmem hcontext
        obtain ⟨reply, hreply⟩ := Option.isSome_iff_exists.mp hread
        rw [continuation_context (d := { d with pending := d.pending.filter (·.1 ≠ key) })
          hcontext hreply]
        have hreplied := h.replied (mem_contexts.mpr ⟨_, hmem, hcontext⟩) hwaits reply
        refine hreplied.dropped hmem fun found hfound => ?_
        obtain rfl := Option.some.inj (hcontext.symm.trans hfound)
        exact List.mem_filterMap.mpr ⟨_, List.mem_append_right _ (List.mem_singleton_self _), rfl⟩
  · simp only [Debug.onMessage, pop_none hseq]
    exact h

lemma Kept.handshake (h : d.Kept) (bp : List Breakpoints) : (d.handshake host bp).Kept := by
  induction bp generalizing d with
  | nil =>
      refine h.request .configurationDone ?_
      intro found hfound
      cases hfound
      rfl
  | cons src rest ih =>
      have hsent : Kept
          (d.request host (.setBreakpoints (host.toAbs d.root src.path) src.lines) none) :=
        h.request _ fun _ hnone => by cases hnone
      rw [Debug.handshake]
      split_ifs
      · exact hsent
      · exact ih hsent

lemma Kept.onEvent (h : d.Kept) (event : String) (body : Value) :
    (d.onEvent host event body).Kept := by
  unfold Debug.onEvent
  split_ifs
  · exact h.handshake d.bp
  · cases asDict body with
    | none => exact h
    | some body =>
        have hstopped : Kept { d with threadId := (dictGet body "threadId").getD .none } :=
          h.same rfl rfl rfl rfl rfl rfl
        refine hstopped.request _ ?_
        intro found hfound
        cases hfound
        rfl
  · exact h.record _ rfl rfl
  · cases asDict body with
    | none => exact h
    | some body => exact h.same rfl rfl rfl rfl rfl rfl
  · exact h.same rfl rfl rfl rfl rfl rfl
  · exact h

/-! ### Signals and calls -/

lemma Kept.onSignal (h : d.Kept) {session : ℕ} {signal : DebugSignal}
    (hok : d.InOrder host (.signal session signal)) :
    (d.onSignal host session signal).Kept := by
  cases signal with
  | chunk data =>
      simp only [Debug.onSignal]
      have hbuffered : Kept { d with outBuf := d.outBuf ++ [data] } :=
        h.same rfl rfl rfl rfl rfl rfl
      split_ifs
      · exact hbuffered.flushOut
      · exact hbuffered
  | exited code =>
      simp only [Debug.onSignal]
      have hidle : d.NobodyWaits := hok.2
      exact (h.flushOut.record _ rfl rfl).cleanup (hidle.flushOut.frame rfl rfl rfl)
  | connected =>
      have hconnected : Kept { d with sock := some session } := h.same rfl rfl rfl rfl rfl rfl
      refine hconnected.request .initializeRequest ?_
      intro found hfound
      cases hfound
      rfl
  | failed message =>
      simp only [Debug.onSignal]
      cases hstart : d.startCtx with
      | none => exact h.killProc
      | some context =>
          have hkilled : ∃ entries, Debug.killProc { d with startCtx := none } =
              ({ d with startCtx := none, sock := none, log := d.log ++ entries } : Debug) ∧
              calledIn entries = [] ∧ repliedIn entries = [] := by
            unfold Debug.killProc
            cases hproc : d.proc with
            | none => exact ⟨[], by simp, rfl, rfl⟩
            | some current =>
                by_cases halive : d.alive current = true
                · exact ⟨[.killed current], by simp [halive, Debug.record], rfl, rfl⟩
                · exact ⟨[], by simp [halive], rfl, rfl⟩
          obtain ⟨entries, hkilled, hcalled, hreplied⟩ := hkilled
          rw [hkilled]
          dsimp only [Debug.record]
          refine h.startAnswered hstart (entries ++
            [.replied context (.failed "connect_failed" (.str (Points.ofString message)))])
            rfl rfl rfl rfl rfl (List.append_assoc _ _ _) ?_ ?_
          · rw [calledIn_append, hcalled]
            rfl
          · rw [repliedIn_append, hreplied]
            rfl
  | message message =>
      cases message with
      | response seq response =>
          cases seq with
          | none => exact h
          | some seq => exact h.response hok.2
      | event event body => exact h.onEvent event body
      | other => exact h
  | closed =>
      have hwaiting : Debug.waiting { d with pending := [] } = d.waiting := by
        have hidle : d.TableIdle := hok.2
        rw [Debug.waiting, Debug.waiting, hidle.unanswered]
        rfl
      refine ⟨?_, h.fresh, List.nodup_nil, fun _ hid => absurd hid List.not_mem_nil, ?_⟩
      · show Ledger _ (Debug.waiting { d with pending := [] }) _
        rw [hwaiting]
        exact h.ledger
      · intro context found hentry hwaits
        exact h.current context found hentry (hwaiting ▸ hwaits)
  | killTimer => exact h.killProc

lemma proc_of_active (h : d.active = true) : d.proc.isSome = true := by
  unfold Debug.active at h
  cases hproc : d.proc with
  | none => simp [hproc] at h
  | some session => rfl

/-- A session is opened where nobody waits; its start is the one that waits. -/
lemma Kept.opened (h : d.Kept) (hidle : d.NobodyWaits) {root : String}
    {breakpoints : List Breakpoints} :
    Kept { d with
      proc := some d.nextSession
      root
      startCtx := some d.nextContext
      threadId := .none
      exitCode := .none
      bp := breakpoints
      alive := Function.update d.alive d.nextSession true
      nextSession := d.nextSession + 1
      nextContext := d.nextContext + 1
      log := d.log ++ [.called d.nextContext (some d.nextSession)] } := by
  have hwaiting : ([d.nextContext] : List ℕ) ++ d.contexts.filter
      (· ∉ repliedIn (d.log ++ [.called d.nextContext (some d.nextSession)])) =
        [d.nextContext] := by
    rw [repliedIn_called, hidle.2.unanswered]
    rfl
  have hledger := h.ledger.opened h.not_called
  rw [hidle.waiting, List.nil_append] at hledger
  refine ⟨?_, h.fresh_concat rfl, h.ids, h.bound, ?_⟩
  · show Ledger (calledIn (d.log ++ _)) (([d.nextContext] : List ℕ) ++ d.contexts.filter
      (· ∉ repliedIn (d.log ++ _))) (repliedIn (d.log ++ _))
    rw [hwaiting, calledIn_append, repliedIn_called]
    exact hledger
  · intro context session hentry hwaits
    have hcontext : context ∈ [d.nextContext] := hwaiting ▸ hwaits
    rw [List.mem_singleton.mp hcontext] at hentry
    rcases List.mem_append.mp hentry with hentry | hentry
    · exact absurd (mem_calledIn.mpr ⟨session, hentry⟩) h.not_called
    · cases List.mem_singleton.mp hentry
      exact ⟨rfl, rfl⟩

lemma Kept.start (h : d.Kept) {rel : String} {breakpoints : List Breakpoints} {spawned : Bool}
    (hok : d.InOrder host (.start rel breakpoints spawned)) :
    (d.start rel breakpoints spawned).Kept := by
  unfold Debug.start
  cases hproject : d.project with
  | none => exact h.answered _
  | some root =>
      dsimp only
      by_cases hpython : ".py".toList.isSuffixOf rel.toList = true
      · rw [if_neg (by rw [hpython]; exact Bool.false_ne_true)]
        have hwaits := hok (by simp [hproject]) hpython
        have hcleared : Kept (if d.active then d.killProc.cleanup else d) ∧
            (spawned = true → NobodyWaits (if d.active then d.killProc.cleanup else d)) := by
          by_cases hactive : d.active = true
          · rw [if_pos hactive]
            have hidle := hwaits (Or.inl hactive)
            refine ⟨h.killProc.cleanup hidle.killProc, fun _ => ⟨rfl, ?_⟩⟩
            intro item hitem
            cases hitem
          · rw [if_neg hactive]
            exact ⟨h, fun hspawned => hwaits (Or.inr hspawned)⟩
        cases spawned with
        | false =>
            rw [if_pos (show (!false) = true from rfl)]
            exact hcleared.1.answered _
        | true =>
            rw [if_neg (show ¬ (!true) = true from Bool.false_ne_true)]
            exact hcleared.1.opened (hcleared.2 rfl)
      · rw [Bool.not_eq_true] at hpython
        rw [if_pos (by rw [hpython]; rfl)]
        exact h.answered _

lemma Kept.step (h : d.Kept) {event : DebugEvent} (hok : d.InOrder host event) :
    (d.step host event).Kept := by
  cases event with
  | openProject root => exact h.same rfl rfl rfl rfl rfl rfl
  | start rel breakpoints spawned => exact h.start hok
  | setBreakpoints path lines =>
      simp only [Debug.step, Debug.setBreakpoints]
      cases lines with
      | none => exact h.answered _
      | some lines =>
          dsimp only
          split_ifs with hgate
          · exact h.answered _
          · exact h.asked (proc_of_active (by simp_all)) _ rfl
  | stepping command =>
      simp only [Debug.step]
      split_ifs
      · exact h
      · exact h.request _ fun _ hnone => by cases hnone
      · have hsent : Kept (d.request host (.stepping command d.threadId) none) :=
          h.request _ fun _ hnone => by cases hnone
        exact hsent.record _ rfl rfl
  | stack =>
      simp only [Debug.step]
      split_ifs with hgate
      · exact h.answered _
      · exact h.asked (proc_of_active (by simp_all)) _ rfl
  | scopes frameId =>
      simp only [Debug.step]
      split_ifs with hgate
      · exact h.answered _
      · exact h.asked (proc_of_active (by simpa using hgate)) _ rfl
  | vars ref =>
      simp only [Debug.step]
      split_ifs with hgate
      · exact h.answered _
      · exact h.asked (proc_of_active (by simpa using hgate)) _ rfl
  | evaluate expression frameId =>
      simp only [Debug.step]
      split_ifs with hgate
      · exact h.answered _
      · exact h.asked (proc_of_active (by simpa using hgate)) _ rfl
  | stop =>
      simp only [Debug.step]
      split_ifs
      · exact h.request _ fun _ hnone => by cases hnone
      · exact h
  | flush => exact h.flushOut
  | dies session => exact h.same rfl rfl rfl rfl rfl rfl
  | signal session signal => exact h.onSignal hok

lemma kept_init : ({} : Debug).Kept where
  ledger := Ledger.empty
  fresh := fun _ h => absurd h List.not_mem_nil
  ids := List.nodup_nil
  bound := fun _ h => absurd h List.not_mem_nil
  current := fun _ _ h => absurd h List.not_mem_nil

/-- A harmless signal leaves the record as it is. -/
lemma Harmless.untouched {session : ℕ} {signal : DebugSignal} (h : d.Harmless signal) :
    Untouched d (d.onSignal host session signal) := by
  have hsame : Untouched d d := ⟨rfl, [], (List.append_nil _).symm, by simp⟩
  cases signal with
  | chunk data => exact h.elim
  | exited code => exact h.elim
  | connected => exact h.elim
  | failed message => exact h.elim
  | killTimer => exact h.elim
  | closed =>
      have hclosed : { d with pending := [] } = d := by
        have hpending : d.pending = [] := h
        rw [← hpending]
      show Untouched d { d with pending := [] }
      rw [hclosed]
      exact hsame
  | message message =>
      cases message with
      | other => exact hsame
      | response seq response =>
          cases seq with
          | none => exact hsame
          | some seq =>
              simp only [Debug.onSignal, Debug.onMessage, pop_none h]
              exact hsame
      | event event body =>
          obtain ⟨hinit, hstopped, hexited, hterminated⟩ := h
          simp only [Debug.onSignal, Debug.onMessage, Debug.onEvent, hinit, hstopped, hexited,
            hterminated, if_false]
          split_ifs
          · exact ⟨rfl, [.continued], rfl, by simp⟩
          · exact hsame

lemma Kept.replied_once (h : d.Kept) (context : ℕ) : (repliedIn d.log).count context ≤ 1 :=
  h.ledger.answered_le_one

lemma Kept.replied_finished (h : d.Kept) {context : ℕ} {session : Option ℕ}
    (hcalled : DebugEntry.called context session ∈ d.log)
    (hfinished : ∀ id, session = some id → d.proc ≠ some id) :
    (repliedIn d.log).count context = 1 := by
  refine h.ledger.answered_once (mem_calledIn.mpr ⟨session, hcalled⟩) fun hwaits => ?_
  obtain ⟨hsession, hproc⟩ := h.current context session hcalled hwaits
  obtain ⟨id, hid⟩ := Option.isSome_iff_exists.mp hproc
  exact hfinished id (hsession.trans hid) hid

/-- **Debug sessions.** While nobody waits when a session ends, and no signal of another
session has an effect on the current one, every run of the bridge keeps its sessions. -/
theorem debug_sessions (host : DebugHost) (events : List DebugEvent)
    (h : Machine.Meets (step host) (InOrder host) {} events) : SessionsKept host events := by
  have hkept : (Machine.run (step host) {} events).Kept :=
    @Machine.Meets.invariant _ _ _ Kept _ (fun _ _ hkept hok => hkept.step hok) _ kept_init _ h
  refine ⟨?_, hkept.replied_once, fun _ _ => hkept.replied_finished⟩
  intro before session signal after current hsplit hcurrent hne
  rw [hsplit] at h
  obtain ⟨-, hok⟩ := h.split
  rw [Machine.run_append]
  exact (hok.1 current hcurrent hne).untouched

/-- UTF-8 has no bytes for the texts of a request. -/
def surrogateIn : DapRequest → Bool
  | .setBreakpoints path _ => path.hasSurrogate
  | .stackTrace threadId | .stepping _ threadId => threadId.hasSurrogate
  | .scopes frameId => frameId.hasSurrogate
  | .vars ref => ref.hasSurrogate
  | .evaluate expression frameId => expression.hasSurrogate || frameId.hasSurrogate
  | .initializeRequest | .attach | .configurationDone | .disconnect => false

/-- A POSIX host, for files under the root. -/
def sampleHost : DebugHost where
  toAbs root rel := Points.ofString (root ++ "/") ++ rel
  toRel _ path := path
  refusal _ request := if surrogateIn request then some "surrogates not allowed" else none

/-- A session is asked for what cannot be encoded and is replaced by one whose adapter never
listens. The socket of the first ends late. -/
def unreachable : List DebugEvent :=
  [.openProject "/p", .start "main.py" [] true, .signal 0 .connected,
    .signal 0 (.message (.response (some 1) ⟨true, .none, .none⟩)),
    .signal 0 (.message (.event "initialized" .none)),
    .signal 0 (.message (.response (some 3) ⟨true, .none, .none⟩)),
    .evaluate (.str [.surrogate (Fin.last 2047)]) .none, .start "other.py" [] true,
    .signal 0 .closed, .signal 1 (.failed "debugpy'a bağlanılamadı (zaman aşımı)."), .dies 1,
    .signal 1 (.exited 1)]

/-- The only session's signals may be any. -/
lemma own_signal {session : ℕ} {signal : DebugSignal} (hproc : d.proc = some session) :
    ∀ current, d.proc = some current → current ≠ session → d.Harmless signal := by
  intro current hcurrent hne
  exact absurd (Option.some.inj (hcurrent.symm.trans hproc)) hne

/-- A response to a continuation of the bridge's own may be any. -/
lemma own_response {seq : ℕ} {waiter : DapWaiter} (hpending : d.pending = [(seq, waiter)])
    (hwaiter : waiter.context? = none) {response : DapResponse} :
    ∀ found context, (seq, found) ∈ d.pending → found.context? = some context →
      context ∉ repliedIn d.log ∧ (response.reply (host.toRel d.root) found).isSome = true := by
  intro found context hmem hcontext
  rw [hpending, List.mem_singleton] at hmem
  cases hmem
  rw [hwaiter] at hcontext
  cases hcontext

theorem debug_sessions_unreachable : SessionsKept sampleHost unreachable :=
  debug_sessions sampleHost unreachable (by
    refine ⟨trivial, fun _ _ _ => ⟨rfl, ?_⟩, ⟨own_signal rfl, trivial⟩,
      ⟨own_signal rfl, own_response rfl rfl⟩, ⟨own_signal rfl, trivial⟩,
      ⟨own_signal rfl, own_response rfl rfl⟩, trivial, fun _ _ _ => ⟨rfl, ?_⟩,
      ⟨fun _ _ _ => rfl, ?_⟩, ⟨own_signal rfl, trivial⟩, trivial, ⟨own_signal rfl, rfl, ?_⟩,
      trivial⟩
    · exact fun _ hitem => absurd hitem List.not_mem_nil
    -- the call that could not be sent is in the table, and answered
    · exact fun _ hitem => List.mem_cons_of_mem 0 hitem
    · exact fun _ hitem => absurd hitem List.not_mem_nil
    · exact fun _ hitem => absurd hitem List.not_mem_nil)

/-- The process ends before the adapter listens. -/
def earlyExit : List DebugEvent :=
  [.openProject "/p", .start "main.py" [] true, .dies 0, .signal 0 (.exited 1)]

/-- The start of such a session is never answered. -/
theorem debug_start_forgotten : ¬ SessionsKept sampleHost earlyExit := by
  intro h
  have hlog : (Machine.run (step sampleHost) {} earlyExit).log =
      [.called 0 (some 0), .terminated (.int 1)] := rfl
  have hproc : (Machine.run (step sampleHost) {} earlyExit).proc = none := rfl
  have hanswered := h.finished 0 (some 0) (by simp [hlog]) (by simp [hproc])
  rw [hlog] at hanswered
  cases hanswered

end Debug

end Imece.WebHost
