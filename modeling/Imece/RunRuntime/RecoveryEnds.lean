import Imece.RunRuntime.RunWrites
import Imece.RunRuntime.Trails

/-!
# What a recovery writes

Recovery decides from the history of a run what a crash left open, and writes an end
for each of it. After the batch nothing that was started is left without an end: the
window of each attempt reaches to the next start of its identifier, and what is open
in the last window is ended by the batch.
-/
namespace Imece.RunRuntime

open Lib

mutual

/-- A canonical value equals itself; a NaN, which would not, is not canonical. -/
theorem pyEq_self (value : PyValue) (h : isJson value = true) : pyEq value value = true := by
  cases value with
  | none => rfl
  | bool b => simp [pyEq, asNumber]
  | int n => simp [pyEq, asNumber]
  | float x =>
      cases x with
      | finite q => simp [pyEq, asNumber]
      | inf negative => simp [isJson, PyFloat.isFinite] at h
      | nan => simp [isJson, PyFloat.isFinite] at h
  | str s => simp [pyEq]
  | list items =>
      simp only [isJson] at h
      simpa only [pyEq] using pyEqItems_self items h
  | dict entries =>
      simp only [isJson] at h
      simp only [pyEq, beq_self_eq_true, Bool.true_and]
      exact pyEqEntries_sub entries entries h fun _ hentry => hentry
  | object _ => simp [isJson] at h

theorem pyEqItems_self (items : List PyValue) (h : isJsonItems items = true) :
    pyEqItems items items = true := by
  cases items with
  | nil => rfl
  | cons item rest =>
      simp only [isJsonItems, Bool.and_eq_true] at h
      simp only [pyEqItems, Bool.and_eq_true]
      exact ⟨pyEq_self item h.1, pyEqItems_self rest h.2⟩

theorem pyEqEntries_sub (entries all : List (PyValue × PyValue))
    (h : isJsonEntries entries = true) (hsub : ∀ entry ∈ entries, entry ∈ all) :
    pyEqEntries entries all = true := by
  cases entries with
  | nil => rfl
  | cons entry rest =>
      obtain ⟨key, item⟩ := entry
      cases key with
      | str key =>
          simp only [isJsonEntries, Bool.and_eq_true] at h
          simp only [pyEqEntries, Bool.and_eq_true, List.any_eq_true]
          refine ⟨⟨(.str key, item), hsub _ List.mem_cons_self, ?_⟩, ?_⟩
          · simp [PyValue.eqStr, pyEq_self item h.1]
          · exact pyEqEntries_sub rest all h.2 fun e he => hsub e (List.mem_cons_of_mem _ he)
      | _ => simp [isJsonEntries] at h

end

/-- A value read from a payload is canonical. -/
lemma JsonDict.isJson_get (d : JsonDict) (key : String) : isJson (d.get key) = true := by
  obtain ⟨entries, hcanonical⟩ := d
  unfold JsonDict.get
  induction entries with
  | nil => rfl
  | cons entry rest ih =>
      obtain ⟨k, item⟩ := entry
      cases k with
      | str k =>
          simp only [isJsonEntries, Bool.and_eq_true] at hcanonical
          simp only [JsonDict.get.go]
          split
          · exact hcanonical.1
          · exact ih hcanonical.2
      | _ => simp [isJsonEntries] at hcanonical

/-- Each element has its partner in the related list. -/
lemma exists_partner {α β : Type} {R : α → β → Prop} {xs : List α} {ys : List β}
    (h : List.Forall₂ R xs ys) : ∀ x ∈ xs, ∃ y ∈ ys, R x y := by
  induction h with
  | nil => simp
  | @cons a b xs ys hfirst _ ih =>
      intro x hx
      rcases List.mem_cons.mp hx with rfl | hx
      · exact ⟨b, List.mem_cons_self, hfirst⟩
      · obtain ⟨y, hy, hrelated⟩ := ih x hx
        exact ⟨y, List.mem_cons_of_mem _ hy, hrelated⟩

namespace Recovery

/-- The event carries the identifier under a key of its payload. -/
def names (event : RunEvent) (key id : String) : Bool := (event.payload.get key).eqStr id

/-- Every start of a type is followed by a terminal with its identifier. -/
def AttemptsClosed (log : List RunEvent) (started : RunEventType) (key : String)
    (terminals : List RunEventType) : Prop :=
  ∀ start ∈ log, start.isType started = true → ∀ id, textAt start key = some id →
    ∃ event ∈ log, start.seq < event.seq ∧ isOneOf event terminals = true ∧
      names event key id = true

/-- Every part that follows the start of its attempt is followed by an event that closes it. -/
def PartsClosed (log : List RunEvent) (started : RunEventType) (key : String)
    (part : RunEvent → Bool) (closes : RunEvent → RunEvent → Bool) : Prop :=
  ∀ start ∈ log, start.isType started = true → ∀ id, textAt start key = some id →
    ∀ opened ∈ log, part opened = true → start.seq < opened.seq → names opened key id = true →
      ∃ event ∈ log, opened.seq < event.seq ∧ closes opened event = true ∧
        names event key id = true

def planEnds : List RunEventType := [.planCompleted, .planFailed, .planInterrupted]

def verificationEnds : List RunEventType := [.verificationCompleted, .verificationInterrupted]

def reviewEnds : List RunEventType := [.reviewCompleted, .reviewFailed, .reviewInterrupted]

def fixLoopEnds : List RunEventType :=
  [.fixLoopCompleted, .fixLoopExhausted, .fixLoopFailed, .fixLoopInterrupted]

def toolEnds : List RunEventType := [.toolCompleted, .toolFailed, .toolInterrupted]

def isCheck (event : RunEvent) : Bool :=
  event.isType .verificationCheckStarted && nonemptyId event.itemId

def closesCheck (opened event : RunEvent) : Bool :=
  event.itemId == opened.itemId &&
    isOneOf event [.verificationCheckCompleted, .verificationCheckFailed,
      .verificationCheckInterrupted]

def isFixAttempt (event : RunEvent) : Bool := event.isType .fixAttemptStarted

def closesFixAttempt (opened event : RunEvent) : Bool :=
  pyEq (event.payload.get "fix_attempt_id") (opened.payload.get "fix_attempt_id") &&
    isOneOf event [.fixAttemptCompleted, .fixAttemptInterrupted]

/-- Nothing that was started is left without an end. A tool's end is looked for anywhere
in the log, as recovery does. -/
structure Settled (log : List RunEvent) : Prop where
  tools : ∀ start ∈ log, start.isType .toolStarted = true → nonemptyId start.itemId = true →
    ∃ event ∈ log, isOneOf event toolEnds = true ∧ event.itemId = start.itemId
  plans : AttemptsClosed log .planStarted "plan_id" planEnds
  verifications : AttemptsClosed log .verificationStarted "verification_id" verificationEnds
  checks : PartsClosed log .verificationStarted "verification_id" isCheck closesCheck
  reviews : AttemptsClosed log .reviewStarted "review_id" reviewEnds
  fixLoops : AttemptsClosed log .fixLoopStarted "fix_loop_id" fixLoopEnds
  fixAttempts : PartsClosed log .fixLoopStarted "fix_loop_id" isFixAttempt closesFixAttempt

section Attempts

variable {history batch : List RunEvent} {started : RunEventType} {key : String}

/-- An event of one type is of no other. -/
lemma isType_other {event : RunEvent} {type other : RunEventType} (h : event.isType type = true)
    (hne : type ≠ other) : event.isType other = false := by
  by_contra hother
  rw [Bool.not_eq_false] at hother
  have hkind := RunEvent.kind_of_isType h
  rw [RunEvent.kind_of_isType hother, Option.some.injEq] at hkind
  exact hne hkind.symm

/-- The starts that `attempts` goes through. -/
lemma mem_starts {start : RunEvent} {id : String} (hmem : start ∈ history)
    (htype : start.isType started = true) (hid : textAt start key = some id) :
    (start, id) ∈ (history.filter (·.isType started)).filterMap fun event =>
      (textAt event key).map fun id => (event, id) := by
  rw [List.mem_filterMap]
  exact ⟨start, List.mem_filter.mpr ⟨hmem, htype⟩, by rw [hid]; rfl⟩

lemma of_mem_starts {pair : RunEvent × String}
    (h : pair ∈ (history.filter (·.isType started)).filterMap fun event =>
      (textAt event key).map fun id => (event, id)) :
    pair.1 ∈ history ∧ pair.1.isType started = true := by
  obtain ⟨event, hevent, hpair⟩ := List.mem_filterMap.mp h
  obtain ⟨id, -, rfl⟩ := Option.map_eq_some_iff.mp hpair
  exact List.mem_filter.mp hevent

lemma exists_attempt {starts : List (RunEvent × String)} {start : RunEvent} {id : String}
    (h : (start, id) ∈ starts) :
    ∃ attempt ∈ attempts.go starts, attempt.started = start ∧ attempt.id = id := by
  induction starts with
  | nil => cases h
  | cons head later ih =>
      obtain ⟨first, firstId⟩ := head
      simp only [attempts.go, List.mem_cons]
      rcases List.mem_cons.mp h with hhead | hlater
      · cases hhead
        exact ⟨_, Or.inl rfl, rfl, rfl⟩
      · obtain ⟨attempt, hattempt, heq⟩ := ih hlater
        exact ⟨attempt, Or.inr hattempt, heq⟩

/-- The last start of an identifier before a number: its window reaches up to it. By
induction on the starts, from the first one that has no successor below the number. -/
lemma exists_window {starts : List (RunEvent × String)} {start : RunEvent} {id : String} {n : ℕ}
    (h : (start, id) ∈ starts) (hbefore : start.seq < n) :
    ∃ attempt ∈ attempts.go starts, attempt.id = id ∧ attempt.started.seq < n ∧
      ∀ next, attempt.nextStartSeq = some next → n ≤ next ∧ ∃ later ∈ starts, later.1.seq = next := by
  induction starts generalizing start with
  | nil => cases h
  | cons head later ih =>
      obtain ⟨first, firstId⟩ := head
      simp only [attempts.go, List.mem_cons]
      by_cases hnext : ∃ event, (event, id) ∈ later ∧ event.seq < n
      · obtain ⟨event, hevent, hseq⟩ := hnext
        obtain ⟨attempt, hattempt, hid, hstarted, hwindow⟩ := ih hevent hseq
        refine ⟨attempt, Or.inr hattempt, hid, hstarted, fun next hsome => ?_⟩
        obtain ⟨hle, other, hother, heq⟩ := hwindow next hsome
        exact ⟨hle, other, Or.inr hother, heq⟩
      · have hhead : (start, id) = (first, firstId) := by
          rcases List.mem_cons.mp h with hhead | hlater
          · exact hhead
          · exact absurd ⟨start, hlater, hbefore⟩ hnext
        cases hhead
        refine ⟨_, Or.inl rfl, rfl, hbefore, fun next hsome => ?_⟩
        obtain ⟨other, hfound, rfl⟩ := Option.map_eq_some_iff.mp hsome
        have hother := List.mem_of_find?_eq_some hfound
        have hid : other.2 = id := by simpa using List.find?_some hfound
        refine ⟨?_, other, Or.inr hother, rfl⟩
        by_contra hlt
        exact hnext ⟨other.1, hid ▸ hother, by omega⟩

/-- Where every attempt that recovery finds open is answered by the batch, all attempts of
the log are closed. -/
lemma attemptsClosed {terminals : List RunEventType}
    (hlater : ∀ old ∈ history, ∀ event ∈ batch, old.seq < event.seq)
    (hquiet : ∀ event ∈ batch, event.isType started = false)
    (hanswer : ∀ attempt ∈ attempts history started key,
      attempt.settled history key terminals = false →
        ∃ event ∈ batch, isOneOf event terminals = true ∧ names event key attempt.id = true) :
    AttemptsClosed (history ++ batch) started key terminals := by
  intro start hstart htype id hid
  have hold : start ∈ history := by
    rcases List.mem_append.mp hstart with hold | hnew
    · exact hold
    · rw [hquiet start hnew] at htype
      cases htype
  obtain ⟨attempt, hattempt, rfl, rfl⟩ := exists_attempt (mem_starts hold htype hid)
  by_cases hsettled : attempt.settled history key terminals = true
  · obtain ⟨event, hevent, hends⟩ := List.any_eq_true.mp hsettled
    simp only [Attempt.holds, Bool.and_eq_true, decide_eq_true_eq] at hends
    exact ⟨event, List.mem_append_left _ hevent, hends.2.1.1, hends.1, hends.2.2⟩
  · obtain ⟨event, hevent, hends⟩ := hanswer attempt hattempt (by simpa using hsettled)
    exact ⟨event, List.mem_append_right _ hevent, hlater _ hold event hevent, hends⟩

/-- The same for the parts of attempts: the window that holds a part is the one of the last
start before it. -/
lemma partsClosed {part : RunEvent → Bool} {closes : RunEvent → RunEvent → Bool}
    (hnumbered : Numbered (·.seq) history)
    (hlater : ∀ old ∈ history, ∀ event ∈ batch, old.seq < event.seq)
    (hquiet : ∀ event ∈ batch, event.isType started = false ∧ part event = false)
    (hpart : ∀ event, part event = true → event.isType started = false)
    (hanswer : ∀ attempt ∈ attempts history started key, ∀ opened ∈ history,
      part opened = true → attempt.holds key attempt.started.seq opened = true →
        (history.any fun event => closes opened event && attempt.holds key opened.seq event) =
          false →
        ∃ event ∈ batch, closes opened event = true ∧ names event key attempt.id = true) :
    PartsClosed (history ++ batch) started key part closes := by
  intro start hstart htype id hid opened hopened hispart hbefore hnames
  have hold : start ∈ history := by
    rcases List.mem_append.mp hstart with hold | hnew
    · exact hold
    · rw [(hquiet start hnew).1] at htype
      cases htype
  have hopen : opened ∈ history := by
    rcases List.mem_append.mp hopened with hold | hnew
    · exact hold
    · rw [(hquiet opened hnew).2] at hispart
      cases hispart
  obtain ⟨attempt, hattempt, rfl, hstarted, hwindow⟩ :=
    exists_window (mem_starts hold htype hid) hbefore
  have hholds : attempt.holds key attempt.started.seq opened = true := by
    simp only [Attempt.holds, Bool.and_eq_true, decide_eq_true_eq]
    refine ⟨⟨hstarted, ?_⟩, hnames⟩
    rw [Option.all_eq_true]
    intro next hnext
    obtain ⟨hle, other, hother, hseq⟩ := hwindow next hnext
    obtain ⟨hmem, hotherType⟩ := of_mem_starts hother
    have hne : opened.seq ≠ next := by
      intro heq
      have hpairwise : (history.map (·.seq)).Nodup := by
        rw [show history.map (·.seq) = List.range' 1 history.length from hnumbered]
        exact List.nodup_range'
      have hsame := List.inj_on_of_nodup_map hpairwise hopen hmem (heq.trans hseq.symm)
      rw [← hsame, hpart opened hispart] at hotherType
      cases hotherType
    exact decide_eq_true (by omega)
  by_cases hclosed : (history.any fun event =>
      closes opened event && attempt.holds key opened.seq event) = true
  · obtain ⟨event, hevent, hends⟩ := List.any_eq_true.mp hclosed
    simp only [Attempt.holds, Bool.and_eq_true, decide_eq_true_eq] at hends
    exact ⟨event, List.mem_append_left _ hevent, hends.2.1.1, hends.1, hends.2.2⟩
  · obtain ⟨event, hevent, hends⟩ :=
      hanswer attempt hattempt opened hopen hispart hholds (by simpa using hclosed)
    exact ⟨event, List.mem_append_right _ hevent, hlater _ hopen event hevent, hends⟩

end Attempts

section Batches

/-- The event was built from these arguments, its item included. -/
structure WrittenAs (args : EventArgs) (event : RunEvent) : Prop extends BuiltFrom args event where
  itemId : event.itemId = args.itemId

lemma writtenAs_of_build (seq : ℕ) (args : EventArgs) (fresh : Fresh) (event : RunEvent)
    {runId : String} (h : buildEvent runId seq args fresh = .ok event) :
    WrittenAs args event := by
  refine ⟨builtFrom_of_build h, ?_⟩
  unfold buildEvent at h
  repeat' split at h
  all_goals cases h
  rfl

lemma WrittenAs.isType {args : EventArgs} {event : RunEvent} (h : WrittenAs args event)
    (type : RunEventType) : event.isType type = (args.type == type.value) := by
  rw [RunEvent.isType, h.type]

lemma WrittenAs.isOneOf {args : EventArgs} {event : RunEvent} (h : WrittenAs args event)
    (type : RunEventType) {types : List RunEventType} (htype : args.type = type.value)
    (hmem : type ∈ types) : isOneOf event types = true := by
  rw [Recovery.isOneOf, List.any_eq_true]
  exact ⟨type, hmem, by rw [h.isType, htype]; exact beq_self_eq_true _⟩

/-- What the event's payload holds under a key of the fields it was given. -/
lemma WrittenAs.get {args : EventArgs} {event : RunEvent} (h : WrittenAs args event)
    {fields : List (String × PyValue)} (hfields : args.payload = payloadOf fields) (key : String) :
    event.payload.get key =
      JsonDict.get.go key .none (fields.map fun field => (.str field.1, field.2)) := by
  have hentries := h.payload
  rw [hfields, payloadOf, PyValue.dict.injEq] at hentries
  rw [JsonDict.get, ← hentries]

lemma written_types {specs : List EventArgs} {batch : List RunEvent}
    (h : List.Forall₂ WrittenAs specs batch) : batch.map (·.type) = specs.map (·.type) := by
  induction h with
  | nil => rfl
  | cons hfirst _ ih => rw [List.map_cons, List.map_cons, hfirst.type, ih]

variable {history batch : List RunEvent}

/-- The interruption of an open attempt is in the batch, and names it. -/
lemma attempt_answered {key : String} {terminals : List RunEventType} {attempt : Attempt}
    (interrupted : RunEventType) (hmem : interrupted ∈ terminals)
    (hwritten : ∀ spec ∈ attemptSpec history key terminals interrupted attempt,
      ∃ event ∈ batch, WrittenAs spec event)
    (hopen : attempt.settled history key terminals = false) :
    ∃ event ∈ batch, isOneOf event terminals = true ∧ names event key attempt.id = true := by
  unfold attemptSpec at hwritten
  rw [hopen, if_neg Bool.false_ne_true] at hwritten
  obtain ⟨event, hevent, hspec⟩ := hwritten _ (List.mem_singleton_self _)
  refine ⟨event, hevent, hspec.isOneOf interrupted rfl hmem, ?_⟩
  rw [names, hspec.get rfl key]
  simp [JsonDict.get.go, PyValue.eqStr]

lemma fixLoop_answered {attempt : Attempt}
    (hwritten : ∀ spec ∈ fixLoopSpec history attempt, ∃ event ∈ batch, WrittenAs spec event)
    (hopen : attempt.settled history "fix_loop_id" fixLoopEnds = false) :
    ∃ event ∈ batch, isOneOf event fixLoopEnds = true ∧
      names event "fix_loop_id" attempt.id = true := by
  unfold fixLoopSpec at hwritten
  rw [fixLoopEnds] at hopen
  rw [hopen, if_neg Bool.false_ne_true] at hwritten
  obtain ⟨event, hevent, hspec⟩ := hwritten _ (List.mem_singleton_self _)
  refine ⟨event, hevent, hspec.isOneOf .fixLoopInterrupted rfl (by decide), ?_⟩
  rw [names, hspec.get rfl]
  simp [JsonDict.get.go, PyValue.eqStr]

lemma check_answered {attempt : Attempt} {opened : RunEvent} (hopened : opened ∈ history)
    (hwritten : ∀ spec ∈ checkSpecs history attempt, ∃ event ∈ batch, WrittenAs spec event)
    (hcheck : isCheck opened = true)
    (hholds : attempt.holds "verification_id" attempt.started.seq opened = true)
    (hopen : (history.any fun event =>
      closesCheck opened event && attempt.holds "verification_id" opened.seq event) = false) :
    ∃ event ∈ batch, closesCheck opened event = true ∧
      names event "verification_id" attempt.id = true := by
  have hstarted : opened ∈ history.filter fun event =>
      event.isType .verificationCheckStarted && nonemptyId event.itemId &&
        attempt.holds "verification_id" attempt.started.seq event := by
    rw [List.mem_filter, hholds, Bool.and_true]
    exact ⟨hopened, hcheck⟩
  have hunended : opened ∈ (history.filter fun event =>
      event.isType .verificationCheckStarted && nonemptyId event.itemId &&
        attempt.holds "verification_id" attempt.started.seq event).filter fun start =>
          !history.any fun event =>
            closesCheck start event && attempt.holds "verification_id" start.seq event := by
    rw [List.mem_filter, hopen]
    exact ⟨hstarted, rfl⟩
  obtain ⟨event, hevent, hspec⟩ := hwritten _ (List.mem_map_of_mem hunended)
  refine ⟨event, hevent, ?_, ?_⟩
  · rw [closesCheck, Bool.and_eq_true, hspec.itemId]
    exact ⟨beq_self_eq_true _,
      hspec.isOneOf .verificationCheckInterrupted rfl (by decide)⟩
  · rw [names, hspec.get rfl]
    simp [JsonDict.get.go, PyValue.eqStr]

lemma fixAttempt_answered {attempt : Attempt} {opened : RunEvent} (hopened : opened ∈ history)
    (hwritten : ∀ spec ∈ fixAttemptSpecs history attempt, ∃ event ∈ batch, WrittenAs spec event)
    (hstart : isFixAttempt opened = true)
    (hholds : attempt.holds "fix_loop_id" attempt.started.seq opened = true)
    (hopen : (history.any fun event =>
      closesFixAttempt opened event && attempt.holds "fix_loop_id" opened.seq event) = false) :
    ∃ event ∈ batch, closesFixAttempt opened event = true ∧
      names event "fix_loop_id" attempt.id = true := by
  have hstarted : opened ∈ history.filter fun event =>
      event.isType .fixAttemptStarted && attempt.holds "fix_loop_id" attempt.started.seq event := by
    rw [List.mem_filter, hholds, Bool.and_true]
    exact ⟨hopened, hstart⟩
  have hunended : opened ∈ (history.filter fun event =>
      event.isType .fixAttemptStarted &&
        attempt.holds "fix_loop_id" attempt.started.seq event).filter fun start =>
          !history.any fun event =>
            closesFixAttempt start event && attempt.holds "fix_loop_id" start.seq event := by
    rw [List.mem_filter, hopen]
    exact ⟨hstarted, rfl⟩
  obtain ⟨event, hevent, hspec⟩ := hwritten _ (List.mem_map_of_mem hunended)
  have hcopied : event.payload.get "fix_attempt_id" = opened.payload.get "fix_attempt_id" := by
    rw [hspec.get rfl]
    simp [JsonDict.get.go]
  refine ⟨event, hevent, ?_, ?_⟩
  · rw [closesFixAttempt, Bool.and_eq_true, hcopied]
    exact ⟨pyEq_self _ (opened.payload.isJson_get _),
      hspec.isOneOf .fixAttemptInterrupted rfl (by decide)⟩
  · rw [names, hspec.get rfl]
    simp [JsonDict.get.go, PyValue.eqStr]

lemma nonemptyId_eq {id : Option String} (h : nonemptyId id = true) : id = some (id.getD "") := by
  cases id with
  | none => simp [nonemptyId] at h
  | some id => rfl

/-- What `started_items` holds after a history: an entry for each started item, and under
each item a start of it. -/
structure ItemsOf (history : List RunEvent) (items : List (String × RunEvent)) : Prop where
  known : ∀ start ∈ history, start.isType .toolStarted = true → nonemptyId start.itemId = true →
    ∃ latest, (start.itemId.getD "", latest) ∈ items
  own : ∀ item ∈ items, item.2.itemId = some item.1

lemma startedItems_of (history : List RunEvent) : ItemsOf history (startedItems history) := by
  induction history using List.reverseRecOn with
  | nil => exact ⟨by simp, by simp [startedItems]⟩
  | append_singleton history event ih =>
      rw [startedItems, List.foldl_append, ← startedItems, List.foldl_cons, List.foldl_nil]
      generalize startedItems history = items at ih
      by_cases hstart : (event.isType .toolStarted && nonemptyId event.itemId) = true
      · rw [if_pos hstart]
        rw [Bool.and_eq_true] at hstart
        have hid := nonemptyId_eq hstart.2
        by_cases hknown : items.any (·.1 = event.itemId.getD "") = true
        · simp only [if_pos hknown]
          constructor
          · intro start hmem htype hnonempty
            obtain ⟨entry, hentry, hsame⟩ : ∃ entry ∈ items, entry.1 = start.itemId.getD "" := by
              rcases List.mem_append.mp hmem with hold | hnew
              · obtain ⟨latest, hlatest⟩ := ih.known start hold htype hnonempty
                exact ⟨_, hlatest, rfl⟩
              · rw [List.mem_singleton.mp hnew]
                simpa using List.any_eq_true.mp hknown
            refine ⟨(if entry.1 = event.itemId.getD "" then (event.itemId.getD "", event)
              else entry).2, List.mem_map.mpr ⟨entry, hentry, ?_⟩⟩
            split
            · rename_i hevent
              rw [← hevent, hsame]
            · rw [← hsame]
          · intro item hitem
            obtain ⟨entry, hentry, rfl⟩ := List.mem_map.mp hitem
            split
            · exact hid
            · exact ih.own entry hentry
        · simp only [if_neg hknown]
          constructor
          · intro start hmem htype hnonempty
            rcases List.mem_append.mp hmem with hold | hnew
            · obtain ⟨latest, hlatest⟩ := ih.known start hold htype hnonempty
              exact ⟨latest, List.mem_append_left _ hlatest⟩
            · rw [List.mem_singleton.mp hnew]
              exact ⟨event, List.mem_append_right _ (List.mem_singleton_self _)⟩
          · intro item hitem
            rcases List.mem_append.mp hitem with hold | hnew
            · exact ih.own item hold
            · rw [List.mem_singleton.mp hnew]
              exact hid
      · rw [if_neg hstart]
        refine ⟨fun start hmem htype hnonempty => ?_, ih.own⟩
        rcases List.mem_append.mp hmem with hold | hnew
        · exact ih.known start hold htype hnonempty
        · rw [List.mem_singleton.mp hnew] at htype hnonempty
          simp [htype, hnonempty] at hstart

/-- The batch ends every tool that was started and has no end in the history. -/
lemma tools_answered
    (hwritten : ∀ spec ∈ toolSpecs history, ∃ event ∈ batch, WrittenAs spec event)
    {start : RunEvent} (hstart : start ∈ history) (htype : start.isType .toolStarted = true)
    (hid : nonemptyId start.itemId = true) :
    ∃ event ∈ history ++ batch, isOneOf event toolEnds = true ∧ event.itemId = start.itemId := by
  have hitems := startedItems_of history
  obtain ⟨latest, hlatest⟩ := hitems.known start hstart htype hid
  have hown := hitems.own _ hlatest
  rw [← nonemptyId_eq hid] at hown
  by_cases hended : start.itemId.getD "" ∈ terminalItems history
  · obtain ⟨event, hevent, hsame⟩ := List.mem_map.mp hended
    obtain ⟨hmem, hends⟩ := List.mem_filter.mp hevent
    rw [Bool.and_eq_true] at hends
    refine ⟨event, List.mem_append_left _ hmem, hends.1, ?_⟩
    rw [nonemptyId_eq hends.2, nonemptyId_eq hid, hsame]
  · have hopen : (start.itemId.getD "", latest) ∈
        (startedItems history).filter fun item => item.1 ∉ terminalItems history := by
      rw [List.mem_filter]
      exact ⟨hlatest, by simpa using hended⟩
    obtain ⟨event, hevent, hspec⟩ := hwritten _ (List.mem_map_of_mem hopen)
    exact ⟨event, List.mem_append_right _ hevent,
      hspec.isOneOf .toolInterrupted rfl (by decide), hspec.itemId.trans hown⟩

/-- What recovery writes after a history leaves nothing of it open. -/
theorem settled_of_batch (hnumbered : Numbered (·.seq) (history ++ batch))
    (hbatch : List.Forall₂ WrittenAs (openSpecs history ++ [runInterrupted]) batch) :
    Settled (history ++ batch) := by
  have hlater : ∀ old ∈ history, ∀ event ∈ batch, old.seq < event.seq :=
    fun old hold event hevent =>
      (List.pairwise_append.mp (numbered_pairwise hnumbered)).2.2 old hold event hevent
  have hold : Numbered (·.seq) history := by
    have htake := numbered_take hnumbered history.length
    rwa [List.take_left] at htake
  have hwritten : ∀ spec ∈ openSpecs history, ∃ event ∈ batch, WrittenAs spec event :=
    fun spec hspec => exists_partner hbatch spec (List.mem_append_left _ hspec)
  have hquiet : ∀ type : RunEventType, type ∉ RunEventType.runInterrupted :: interruptions →
      ∀ event ∈ batch, event.isType type = false := by
    intro type htype event hevent
    obtain ⟨spec, hspec, hwrote⟩ := exists_partner hbatch.flip event hevent
    have hkind : ∃ kind ∈ RunEventType.runInterrupted :: interruptions, spec.type = kind.value := by
      rcases List.mem_append.mp hspec with hopen | hlast
      · obtain ⟨kind, hkind, hvalue⟩ := openSpecs_types history spec hopen
        exact ⟨kind, List.mem_cons_of_mem _ hkind, hvalue⟩
      · rw [List.mem_singleton.mp hlast]
        exact ⟨.runInterrupted, List.mem_cons_self, rfl⟩
    obtain ⟨kind, hkind, hvalue⟩ := hkind
    by_contra hsame
    rw [Bool.not_eq_false, hwrote.isType, hvalue, beq_iff_eq] at hsame
    exact htype (RunEventType.value_injective hsame ▸ hkind)
  have hplan : ∀ attempt ∈ attempts history .planStarted "plan_id",
      attemptSpec history "plan_id" planEnds .planInterrupted attempt ⊆ openSpecs history := by
    intro attempt hattempt spec hspec
    simp only [openSpecs, planSpecs, List.mem_append, List.mem_flatMap]
    exact Or.inl (Or.inl (Or.inl (Or.inr ⟨attempt, hattempt, hspec⟩)))
  have hverification : ∀ attempt ∈ attempts history .verificationStarted "verification_id",
      checkSpecs history attempt ++ attemptSpec history "verification_id" verificationEnds
        .verificationInterrupted attempt ⊆ openSpecs history := by
    intro attempt hattempt spec hspec
    simp only [openSpecs, verificationSpecs, List.mem_append, List.mem_flatMap] at hspec ⊢
    exact Or.inl (Or.inl (Or.inr ⟨attempt, hattempt, hspec⟩))
  have hreview : ∀ attempt ∈ attempts history .reviewStarted "review_id",
      attemptSpec history "review_id" reviewEnds .reviewInterrupted attempt ⊆
        openSpecs history := by
    intro attempt hattempt spec hspec
    simp only [openSpecs, reviewSpecs, List.mem_append, List.mem_flatMap]
    exact Or.inl (Or.inr ⟨attempt, hattempt, hspec⟩)
  have hloop : ∀ attempt ∈ attempts history .fixLoopStarted "fix_loop_id",
      fixAttemptSpecs history attempt ++ fixLoopSpec history attempt ⊆ openSpecs history := by
    intro attempt hattempt spec hspec
    simp only [openSpecs, fixLoopSpecs, List.mem_append, List.mem_flatMap] at hspec ⊢
    exact Or.inr ⟨attempt, hattempt, hspec⟩
  constructor
  · intro start hstart htype hid
    rcases List.mem_append.mp hstart with hmem | hnew
    · refine tools_answered (fun spec hspec => hwritten spec ?_) hmem htype hid
      simp [openSpecs, hspec]
    · rw [hquiet .toolStarted (by decide) start hnew] at htype
      cases htype
  · apply attemptsClosed hlater (hquiet _ (by decide))
    intro attempt hattempt hopen
    exact attempt_answered .planInterrupted (by decide)
      (fun spec hspec => hwritten spec (hplan attempt hattempt hspec)) hopen
  · apply attemptsClosed hlater (hquiet _ (by decide))
    intro attempt hattempt hopen
    exact attempt_answered .verificationInterrupted (by decide) (fun spec hspec =>
      hwritten spec (hverification attempt hattempt (List.mem_append_right _ hspec))) hopen
  · apply partsClosed hold hlater
    · exact fun event hevent => ⟨hquiet _ (by decide) event hevent, by
        rw [isCheck, hquiet .verificationCheckStarted (by decide) event hevent, Bool.false_and]⟩
    · intro event hcheck
      rw [isCheck, Bool.and_eq_true] at hcheck
      exact isType_other hcheck.1 (by decide)
    · intro attempt hattempt opened hopened hcheck hholds hopen
      exact check_answered hopened (fun spec hspec =>
        hwritten spec (hverification attempt hattempt (List.mem_append_left _ hspec)))
        hcheck hholds hopen
  · apply attemptsClosed hlater (hquiet _ (by decide))
    intro attempt hattempt hopen
    exact attempt_answered .reviewInterrupted (by decide)
      (fun spec hspec => hwritten spec (hreview attempt hattempt hspec)) hopen
  · apply attemptsClosed hlater (hquiet _ (by decide))
    intro attempt hattempt hopen
    exact fixLoop_answered (fun spec hspec =>
      hwritten spec (hloop attempt hattempt (List.mem_append_right _ hspec))) hopen
  · apply partsClosed hold hlater
    · exact fun event hevent => ⟨hquiet _ (by decide) event hevent,
        hquiet .fixAttemptStarted (by decide) event hevent⟩
    · exact fun event hstart => isType_other hstart (by decide)
    · intro attempt hattempt opened hopened hstart hholds hopen
      exact fixAttempt_answered hopened (fun spec hspec =>
        hwritten spec (hloop attempt hattempt (List.mem_append_left _ hspec)))
        hstart hholds hopen

end Batches

end Recovery

end Imece.RunRuntime
