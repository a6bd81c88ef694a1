import Imece.AcpRuntime.Client
import Mathlib.Algebra.GroupWithZero.Nat

/-!
# Permissions under one fatal signal

Over every run of a client's callbacks: nothing reaches the sink and nothing is granted
after the first fatal error, the limits bound what is emitted, and a foreign session's
call is not processed. A grant whose resolved event the sink refused is the exception.
-/
namespace Imece.AcpRuntime

open Lib

variable {ω ρ : Type}

namespace Entry

def error? : Entry ρ → Option AcpRuntimeError
  | .triggered error => some error
  | _ => none

/-- An event handed to the sink, or a permission granted. -/
def Acts : Entry ρ → Prop
  | .emitted _ _ => True
  | .answered _ _ (.selected _) => True
  | _ => False

def updateSize? : Entry ρ → Option ℕ
  | .emitted (.sessionUpdateObserved _ _ serializedChars) _ => some serializedChars
  | _ => none

/-- The size an update is emitted with is the length of its dump. -/
def Measured : Entry ρ → Prop
  | .emitted (.sessionUpdateObserved _ update serializedChars) _ => update.dump = .ok serializedChars
  | _ => True

end Entry

def errors (trace : List (Entry ρ)) : List AcpRuntimeError := trace.filterMap Entry.error?

def updateSizes (trace : List (Entry ρ)) : List ℕ := trace.filterMap Entry.updateSize?

/-- Nothing acts once an error was triggered. -/
def Quiet (before : List (Entry ρ)) (entry : Entry ρ) : Prop := entry.Acts → errors before = []

/-- A grant comes right after the two events of its request, both accepted. -/
def Recorded (before : List (Entry ρ)) : Entry ρ → Prop
  | .answered sessionId toolCallId (.selected _) =>
      ∃ earlier title optionIds outcome reason,
        before = earlier ++ [
          .emitted (.permissionRequested sessionId toolCallId title optionIds) true,
          .emitted (.permissionResolved sessionId toolCallId outcome reason) true]
  | _ => True

structure WithinLimits (limits : AcpClientLimits) (trace : List (Entry ρ)) : Prop where
  measured : ∀ entry ∈ trace, entry.Measured
  each : ∀ size ∈ updateSizes trace, size ≤ limits.maxUpdateChars
  count : (updateSizes trace).length ≤ limits.maxUpdates
  total : (updateSizes trace).sum ≤ limits.maxTotalUpdateChars

structure Orderly (limits : AcpClientLimits) (trace : List (Entry ρ)) : Prop where
  quiet : Machine.Justified Quiet trace
  recorded : Machine.Justified Recorded trace
  within : WithinLimits limits trace

/-- The session a callback names. -/
def Callback.Foreign (client : Client ω ρ) : Callback ρ → Prop
  | .bindSession _ => False
  | .sessionUpdate sessionId _ => client.sessionId ≠ some sessionId
  | .requestPermission sessionId _ _ => client.sessionId ≠ some sessionId

/-- Neither the sink nor the policy was called, and nothing was counted, remembered or
granted. -/
structure Unprocessed (before after : Client ω ρ) : Prop where
  world : after.world = before.world
  counts : (after.updateCount, after.updateChars, after.permissionRequestCount) =
    (before.updateCount, before.updateChars, before.permissionRequestCount)
  toolCalls : after.toolCalls = before.toolCalls
  trace : ∃ entries, after.trace = before.trace ++ entries ∧ ∀ entry ∈ entries, ¬ entry.Acts

/-- What a client's run of callbacks is to keep. -/
structure Guarded (limits : AcpClientLimits) (env : Surroundings ω ρ) (world : ω)
    (callbacks : List (Callback ρ)) : Prop where
  orderly : Orderly limits (Machine.run (Client.step limits env) { world } callbacks).trace
  first : (Machine.run (Client.step limits env) { world } callbacks).fatal.error =
    (errors (Machine.run (Client.step limits env) { world } callbacks).trace).head?
  foreign : ∀ before callback after, callbacks = before ++ callback :: after →
    callback.Foreign (Machine.run (Client.step limits env) { world } before) →
    Unprocessed (Machine.run (Client.step limits env) { world } before)
      (Machine.run (Client.step limits env) { world } (before ++ [callback]))

/-- A request whose requested event the sink accepts and that the policy answers with an
option has its resolved event accepted as well. -/
def ResolvedAccepted (env : Surroundings ω ρ) (client : Client ω ρ) : Callback ρ → Prop
  | .requestPermission sessionId toolCall options =>
      client.fatal.event = false → client.sessionId = some sessionId →
        ∀ world decidedWorld optionId named reason reasoned,
          env.emit client.world (Client.requestedEvent sessionId toolCall options) =
              (world, none) →
          env.decide world (client.merged toolCall options) =
              (decidedWorld, .ok (.selected optionId named reason reasoned)) →
          (env.emit decidedWorld (Client.resolvedEvent sessionId toolCall options
            (.selected optionId named reason reasoned))).2 = none
  | _ => True

section Traces

variable {limits : AcpClientLimits} {trace : List (Entry ρ)}

@[simp] lemma errors_append (trace more : List (Entry ρ)) :
    errors (trace ++ more) = errors trace ++ errors more :=
  List.filterMap_append

@[simp] lemma updateSizes_append (trace more : List (Entry ρ)) :
    updateSizes (trace ++ more) = updateSizes trace ++ updateSizes more :=
  List.filterMap_append

lemma WithinLimits.still (h : WithinLimits limits trace) {entry : Entry ρ}
    (hentry : entry.updateSize? = none) (hmeasured : entry.Measured) :
    WithinLimits limits (trace ++ [entry]) := by
  have hsizes : updateSizes (trace ++ [entry]) = updateSizes trace := by
    rw [updateSizes_append]
    simp [updateSizes, hentry]
  refine ⟨?_, hsizes ▸ h.each, hsizes ▸ h.count, hsizes ▸ h.total⟩
  intro found hfound
  rcases List.mem_append.mp hfound with hfound | hfound
  · exact h.measured found hfound
  · rw [List.mem_singleton.mp hfound]
    exact hmeasured

lemma Orderly.triggered (h : Orderly limits trace) (error : AcpRuntimeError) :
    Orderly limits (trace ++ [.triggered error]) where
  quiet := h.quiet.append fun hacts => hacts.elim
  recorded := h.recorded.append trivial
  within := h.within.still rfl trivial

lemma Orderly.cancelled (h : Orderly limits trace) (sessionId toolCallId : String) :
    Orderly limits (trace ++ [.answered sessionId toolCallId .cancelled]) where
  quiet := h.quiet.append fun hacts => hacts.elim
  recorded := h.recorded.append trivial
  within := h.within.still rfl trivial

lemma Orderly.emitted (h : Orderly limits trace) (hnone : errors trace = [])
    {event : AcpRuntimeEvent ρ} {accepted : Bool}
    (hwithin : WithinLimits limits (trace ++ [.emitted event accepted])) :
    Orderly limits (trace ++ [.emitted event accepted]) where
  quiet := h.quiet.append fun _ => hnone
  recorded := h.recorded.append trivial
  within := hwithin

lemma Orderly.selected (h : Orderly limits trace) (hnone : errors trace = [])
    {sessionId toolCallId optionId : String}
    (hrecorded : Recorded trace (.answered sessionId toolCallId (.selected optionId))) :
    Orderly limits (trace ++ [.answered sessionId toolCallId (.selected optionId)]) where
  quiet := h.quiet.append fun _ => hnone
  recorded := h.recorded.append hrecorded
  within := h.within.still rfl trivial

/-- An update within the limits, after those counted before it. -/
lemma WithinLimits.update (h : WithinLimits limits trace) {sessionId : String}
    {update : SessionUpdate ρ} {size : ℕ} {accepted : Bool} (hdump : update.dump = .ok size)
    (heach : size ≤ limits.maxUpdateChars)
    (hcount : (updateSizes trace).length + 1 ≤ limits.maxUpdates)
    (htotal : (updateSizes trace).sum + size ≤ limits.maxTotalUpdateChars) :
    WithinLimits limits
      (trace ++ [.emitted (.sessionUpdateObserved sessionId update size) accepted]) := by
  have hsizes : updateSizes
      (trace ++ [.emitted (.sessionUpdateObserved sessionId update size) accepted]) =
        updateSizes trace ++ [size] := by
    rw [updateSizes_append]
    rfl
  refine ⟨?_, ?_, ?_, ?_⟩
  · intro found hfound
    rcases List.mem_append.mp hfound with hfound | hfound
    · exact h.measured found hfound
    · rw [List.mem_singleton.mp hfound]
      exact hdump
  · rw [hsizes]
    intro found hfound
    rcases List.mem_append.mp hfound with hfound | hfound
    · exact h.each found hfound
    · rw [List.mem_singleton.mp hfound]
      exact heach
  · rw [hsizes, List.length_append]
    exact hcount
  · rw [hsizes, List.sum_append, List.sum_singleton]
    exact htotal

end Traces

/-- The invariant of a client's runs: its counters cover the updates emitted. -/
structure Kept (limits : AcpClientLimits) (client : Client ω ρ) : Prop where
  orderly : Orderly limits client.trace
  first : client.fatal.error = (errors client.trace).head?
  event : client.fatal.event = client.fatal.error.isSome
  count : (updateSizes client.trace).length ≤ client.updateCount
  chars : (updateSizes client.trace).sum ≤ client.updateChars

section Steps

variable {limits : AcpClientLimits} {env : Surroundings ω ρ} {client : Client ω ρ}

lemma Kept.new (world : ω) : Kept limits ({ world } : Client ω ρ) where
  orderly :=
    { quiet := Machine.Justified.of_forall fun _ h => absurd h List.not_mem_nil
      recorded := Machine.Justified.of_forall fun _ h => absurd h List.not_mem_nil
      within :=
        { measured := fun _ h => absurd h List.not_mem_nil
          each := fun _ h => absurd h List.not_mem_nil
          count := Nat.zero_le _
          total := Nat.zero_le _ } }
  first := rfl
  event := rfl
  count := Nat.le_refl 0
  chars := Nat.le_refl 0

lemma Kept.no_errors (h : Kept limits client) (hevent : client.fatal.event = false) :
    errors client.trace = [] := by
  have hnone : client.fatal.error = none := by
    rw [h.event] at hevent
    exact Option.not_isSome_iff_eq_none.mp (by simp [hevent])
  rw [h.first, List.head?_eq_none_iff] at hnone
  exact hnone

lemma Kept.trigger (h : Kept limits client) (error : AcpRuntimeError) :
    Kept limits (client.trigger error) where
  orderly := h.orderly.triggered error
  first := by
    show (if client.fatal.error.isNone then some error else client.fatal.error) =
      (errors (client.trace ++ [.triggered error])).head?
    rw [errors_append, List.head?_append, ← h.first]
    cases client.fatal.error <;> rfl
  event := by
    show true = (if client.fatal.error.isNone then some error else client.fatal.error).isSome
    cases client.fatal.error <;> rfl
  count := by
    have hsizes : updateSizes (client.trigger error).trace = updateSizes client.trace := by
      simp [Client.trigger, updateSizes, Entry.updateSize?]
    rw [hsizes]
    exact h.count
  chars := by
    have hsizes : updateSizes (client.trigger error).trace = updateSizes client.trace := by
      simp [Client.trigger, updateSizes, Entry.updateSize?]
    rw [hsizes]
    exact h.chars

lemma Kept.cancelled (h : Kept limits client) (sessionId toolCallId : String) :
    Kept limits (client.answer sessionId toolCallId .cancelled) := by
  have hsizes : updateSizes (client.answer sessionId toolCallId .cancelled).trace =
      updateSizes client.trace := by
    simp [Client.answer, updateSizes, Entry.updateSize?]
  have herrors : errors (client.answer sessionId toolCallId .cancelled).trace =
      errors client.trace := by
    simp [Client.answer, errors, Entry.error?]
  refine ⟨h.orderly.cancelled sessionId toolCallId, ?_, h.event, ?_, ?_⟩
  · rw [herrors]
    exact h.first
  · rw [hsizes]
    exact h.count
  · rw [hsizes]
    exact h.chars

lemma Kept.selected (h : Kept limits client) (hevent : client.fatal.event = false)
    {sessionId toolCallId optionId : String}
    (hrecorded : Recorded client.trace (.answered sessionId toolCallId (.selected optionId))) :
    Kept limits (client.answer sessionId toolCallId (.selected optionId)) := by
  have hsizes : updateSizes (client.answer sessionId toolCallId (.selected optionId)).trace =
      updateSizes client.trace := by
    simp [Client.answer, updateSizes, Entry.updateSize?]
  have herrors : errors (client.answer sessionId toolCallId (.selected optionId)).trace =
      errors client.trace := by
    simp [Client.answer, errors, Entry.error?]
  refine ⟨h.orderly.selected (h.no_errors hevent) hrecorded, ?_, h.event, ?_, ?_⟩
  · rw [herrors]
    exact h.first
  · rw [hsizes]
    exact h.count
  · rw [hsizes]
    exact h.chars

/-- What an emission does, by the sink's answer. -/
lemma emit_cases (env : Surroundings ω ρ) (client : Client ω ρ) (event : AcpRuntimeEvent ρ) :
    (∃ world, env.emit client.world event = (world, none) ∧
      client.emit env event =
        ({ client with world, trace := client.trace ++ [.emitted event true] }, true)) ∨
    (∃ world exc, env.emit client.world event = (world, some exc) ∧
      client.emit env event =
        (Client.trigger { client with world, trace := client.trace ++ [.emitted event false] }
          (.eventSink ("AcpEventSink.emit failed: " ++ exc)), false)) := by
  rcases hemit : env.emit client.world event with ⟨world, _ | exc⟩
  · exact Or.inl ⟨world, rfl, by rw [Client.emit, hemit]⟩
  · exact Or.inr ⟨world, exc, rfl, by rw [Client.emit, hemit]⟩

lemma Kept.emitted (h : Kept limits client) (hevent : client.fatal.event = false)
    {event : AcpRuntimeEvent ρ} {accepted : Bool} (world : ω)
    (hwithin : WithinLimits limits (client.trace ++ [.emitted event accepted]))
    (hcount : (updateSizes (client.trace ++ [.emitted event accepted])).length ≤
      client.updateCount)
    (hchars : (updateSizes (client.trace ++ [.emitted event accepted])).sum ≤
      client.updateChars) :
    Kept limits
      { client with world, trace := client.trace ++ [.emitted event accepted] } where
  orderly := h.orderly.emitted (h.no_errors hevent) hwithin
  first := by
    show client.fatal.error = (errors (client.trace ++ [.emitted event accepted])).head?
    rw [errors_append, h.first]
    simp [errors, Entry.error?]
  event := h.event
  count := hcount
  chars := hchars

/-- An event of a permission request counts nothing. -/
lemma Kept.emit_permission (h : Kept limits client) (env : Surroundings ω ρ)
    (event : AcpRuntimeEvent ρ) (hevent : client.fatal.event = false)
    (hsize : ∀ accepted, (Entry.emitted event accepted).updateSize? = none)
    (hmeasured : ∀ accepted, (Entry.emitted event accepted).Measured) :
    Kept limits (client.emit env event).1 := by
  have hsizes (accepted : Bool) : updateSizes (client.trace ++ [.emitted event accepted]) =
      updateSizes client.trace := by
    simp [updateSizes, hsize accepted]
  have hkept (world : ω) (accepted : Bool) : Kept limits
      { client with world, trace := client.trace ++ [.emitted event accepted] } := by
    refine h.emitted hevent world ?_ ?_ ?_
    · exact h.orderly.within.still (hsize accepted) (hmeasured accepted)
    · rw [hsizes]
      exact h.count
    · rw [hsizes]
      exact h.chars
  rcases emit_cases env client event with ⟨world, -, hemit⟩ | ⟨world, exc, -, hemit⟩
  · rw [hemit]
    exact hkept world true
  · rw [hemit]
    exact (hkept world false).trigger _

lemma trackToolCall_frame (client : Client ω ρ) (update : SessionUpdate ρ) :
    ∃ toolCalls, client.trackToolCall update = { client with toolCalls } := by
  unfold Client.trackToolCall
  split_ifs
  · exact ⟨client.toolCalls, rfl⟩
  · cases update.toolCallId with
    | none => exact ⟨client.toolCalls, rfl⟩
    | some toolCallId =>
        by_cases hempty : toolCallId = ""
        · exact ⟨client.toolCalls, by simp [hempty]⟩
        · simp only [hempty, if_false]
          exact ⟨_, rfl⟩

lemma Kept.sessionUpdate (h : Kept limits client) (sessionId : String)
    (update : SessionUpdate ρ) :
    Kept limits (client.sessionUpdate limits env sessionId update) := by
  unfold Client.sessionUpdate
  by_cases hevent : client.fatal.event = true
  · rw [if_pos hevent]
    exact h
  rw [if_neg hevent]
  by_cases hforeign : client.sessionId ≠ some sessionId
  · rw [if_pos hforeign]
    exact h.trigger _
  rw [if_neg hforeign]
  cases hdump : update.dump with
  | error exc => exact h.trigger _
  | ok size =>
      by_cases heach : limits.maxUpdateChars < size
      · simp only [heach, if_true]
        exact h.trigger _
      simp only [heach, if_false]
      have hcounted : Kept limits { client with
          updateCount := client.updateCount + 1
          updateChars := client.updateChars + size } :=
        ⟨h.orderly, h.first, h.event, Nat.le_succ_of_le h.count,
          Nat.le_add_right_of_le h.chars⟩
      by_cases hcount : limits.maxUpdates < client.updateCount + 1
      · simp only [hcount, if_true]
        exact hcounted.trigger _
      simp only [hcount, if_false]
      by_cases htotal : limits.maxTotalUpdateChars < client.updateChars + size
      · simp only [htotal, if_true]
        exact hcounted.trigger _
      simp only [htotal, if_false]
      set counted : Client ω ρ := { client with
        updateCount := client.updateCount + 1
        updateChars := client.updateChars + size }
      obtain ⟨toolCalls, htracked⟩ := trackToolCall_frame counted update
      rw [htracked]
      have htrack : Kept limits { counted with toolCalls } :=
        ⟨hcounted.orderly, hcounted.first, hcounted.event, hcounted.count, hcounted.chars⟩
      have hsizes (accepted : Bool) : updateSizes (client.trace ++
          [.emitted (.sessionUpdateObserved sessionId update size) accepted]) =
            updateSizes client.trace ++ [size] := by
        rw [updateSizes_append]
        rfl
      have hfits : (updateSizes client.trace).length + 1 ≤ client.updateCount + 1 ∧
          (updateSizes client.trace).sum + size ≤ client.updateChars + size :=
        ⟨Nat.succ_le_succ h.count, Nat.add_le_add_right h.chars size⟩
      have hkept (world : ω) (accepted : Bool) : Kept limits
          { counted with
            toolCalls, world
            trace := client.trace ++
              [.emitted (.sessionUpdateObserved sessionId update size) accepted] } := by
        refine htrack.emitted (by simpa using hevent) world ?_ ?_ ?_
        · exact h.orderly.within.update hdump (by omega) (by omega) (by omega)
        · show (updateSizes (client.trace ++ _)).length ≤ client.updateCount + 1
          rw [hsizes, List.length_append]
          exact hfits.1
        · show (updateSizes (client.trace ++ _)).sum ≤ client.updateChars + size
          rw [hsizes, List.sum_append, List.sum_singleton]
          exact hfits.2
      rcases emit_cases env { counted with toolCalls }
        (.sessionUpdateObserved sessionId update size) with
          ⟨world, -, hemit⟩ | ⟨world, exc, -, hemit⟩
      · rw [hemit]
        exact hkept world true
      · rw [hemit]
        exact (hkept world false).trigger _

lemma emit_accepted (client : Client ω ρ) {event : AcpRuntimeEvent ρ} {world : ω}
    (h : env.emit client.world event = (world, none)) :
    client.emit env event =
      ({ client with world, trace := client.trace ++ [.emitted event true] }, true) := by
  rw [Client.emit, h]

lemma emit_refused {event : AcpRuntimeEvent ρ} {world : ω} {exc : String}
    (h : env.emit client.world event = (world, some exc)) :
    (client.emit env event).2 = false := by
  rw [Client.emit, h]

/-- Once the requested event is the last entry, a decision the sink records is kept. -/
lemma Kept.settle (h : Kept limits client) (hevent : client.fatal.event = false)
    {sessionId : String} {toolCall : ToolCall ρ} {options : List PermissionOption}
    {earlier : List (Entry ρ)}
    (htrace : client.trace =
      earlier ++ [.emitted (Client.requestedEvent sessionId toolCall options) true])
    (hok : ∀ world optionId named reason reasoned,
      env.decide client.world (client.merged toolCall options) =
          (world, .ok (.selected optionId named reason reasoned)) →
        (env.emit world (Client.resolvedEvent sessionId toolCall options
          (.selected optionId named reason reasoned))).2 = none) :
    Kept limits (client.settle env sessionId toolCall options) := by
  unfold Client.settle
  rcases hdecide : env.decide client.world (client.merged toolCall options) with ⟨world, outcome⟩
  have hasked : Kept limits { client with world } :=
    ⟨h.orderly, h.first, h.event, h.count, h.chars⟩
  have hresolved := hasked.emit_permission env
    (Client.resolvedEvent sessionId toolCall options (Client.decided outcome)) hevent
    (fun _ => rfl) fun _ => trivial
  cases hdecided : Client.decided outcome with
  | cancelled reason reasoned =>
      rw [hdecided] at hresolved
      simp only [hdecided]
      exact hresolved.cancelled _ _
  | selected optionId named reason reasoned =>
      have houtcome : outcome = .ok (.selected optionId named reason reasoned) := by
        cases outcome with
        | error className => cases hdecided
        | ok decision => exact congrArg _ hdecided
      rw [houtcome] at hdecide
      have haccepted := hok world optionId named reason reasoned hdecide
      simp only [hdecided]
      rcases hsecond : env.emit world (Client.resolvedEvent sessionId toolCall options
        (.selected optionId named reason reasoned)) with ⟨last, _ | exc⟩
      · rw [hdecided, emit_accepted { client with world } hsecond] at hresolved
        rw [emit_accepted { client with world } hsecond]
        refine hresolved.selected hevent ⟨earlier, toolCall.title,
          options.map PermissionOption.optionId,
          Client.outcomeOf options (.selected optionId named reason reasoned), reason, ?_⟩
        show client.trace ++ [_] = _
        rw [htrace, List.append_assoc]
        rfl
      · rw [hsecond] at haccepted
        cases haccepted

lemma Kept.requestPermission (h : Kept limits client) {sessionId : String}
    {toolCall : ToolCall ρ} {options : List PermissionOption}
    (hok : ResolvedAccepted env client (.requestPermission sessionId toolCall options)) :
    Kept limits (client.requestPermission env sessionId toolCall options) := by
  unfold Client.requestPermission
  by_cases hevent : client.fatal.event = true
  · rw [if_pos hevent]
    exact h.cancelled _ _
  rw [if_neg hevent]
  rw [Bool.not_eq_true] at hevent
  by_cases hforeign : client.sessionId ≠ some sessionId
  · rw [if_pos hforeign]
    exact (h.trigger _).cancelled _ _
  rw [if_neg hforeign]
  rw [not_not] at hforeign
  have hrequested := h.emit_permission env
    (Client.requestedEvent sessionId toolCall options) hevent (fun _ => rfl) fun _ => trivial
  rcases hemit : env.emit client.world (Client.requestedEvent sessionId toolCall options) with
    ⟨world, _ | exc⟩
  · rw [emit_accepted client hemit] at hrequested ⊢
    have hcounted : Kept limits { client with
        world
        permissionRequestCount := client.permissionRequestCount + 1
        trace := client.trace ++
          [.emitted (Client.requestedEvent sessionId toolCall options) true] } :=
      ⟨hrequested.orderly, hrequested.first, hrequested.event, hrequested.count,
        hrequested.chars⟩
    refine hcounted.settle hevent rfl ?_
    intro decidedWorld optionId named reason reasoned hdecide
    exact hok hevent hforeign world decidedWorld optionId named reason reasoned hemit hdecide
  · have hrefused := emit_refused hemit
    rcases hfirst : client.emit env (Client.requestedEvent sessionId toolCall options) with
      ⟨refused, accepted⟩
    rw [hfirst] at hrequested hrefused
    subst hrefused
    exact hrequested.cancelled _ _

lemma Kept.step (h : Kept limits client) {callback : Callback ρ}
    (hok : ResolvedAccepted env client callback) :
    Kept limits (client.step limits env callback) := by
  cases callback with
  | bindSession sessionId => exact ⟨h.orderly, h.first, h.event, h.count, h.chars⟩
  | sessionUpdate sessionId update => exact h.sessionUpdate sessionId update
  | requestPermission sessionId toolCall options => exact h.requestPermission hok

/-- A callback of another session, or of none yet, is turned away. -/
lemma step_foreign {callback : Callback ρ} (h : callback.Foreign client) :
    Unprocessed client (client.step limits env callback) := by
  have hsilent (entries : List (Entry ρ)) {after : Client ω ρ}
      (htrace : after.trace = client.trace ++ entries) (hacts : ∀ entry ∈ entries, ¬ entry.Acts) :
      ∃ entries, after.trace = client.trace ++ entries ∧ ∀ entry ∈ entries, ¬ entry.Acts :=
    ⟨entries, htrace, hacts⟩
  cases callback with
  | bindSession sessionId => exact h.elim
  | sessionUpdate sessionId update =>
      show Unprocessed client (client.sessionUpdate limits env sessionId update)
      unfold Client.sessionUpdate
      by_cases hevent : client.fatal.event = true
      · rw [if_pos hevent]
        exact ⟨rfl, rfl, rfl, hsilent [] (by simp) (by simp)⟩
      · have hforeign : client.sessionId ≠ some sessionId := h
        rw [if_neg hevent, if_pos hforeign]
        refine ⟨rfl, rfl, rfl, hsilent _ rfl ?_⟩
        simp [Entry.Acts]
  | requestPermission sessionId toolCall options =>
      show Unprocessed client (client.requestPermission env sessionId toolCall options)
      unfold Client.requestPermission
      by_cases hevent : client.fatal.event = true
      · rw [if_pos hevent]
        refine ⟨rfl, rfl, rfl, hsilent _ rfl ?_⟩
        simp [Entry.Acts]
      · have hforeign : client.sessionId ≠ some sessionId := h
        rw [if_neg hevent, if_pos hforeign]
        refine ⟨rfl, rfl, rfl, hsilent _ (List.append_assoc _ _ _) ?_⟩
        simp [Entry.Acts]

end Steps

/-- **Permissions.** While the sink accepts the resolved event of every permission the
policy grants, a client's run of callbacks is guarded. -/
theorem permissions (limits : AcpClientLimits) (env : Surroundings ω ρ) (world : ω)
    (callbacks : List (Callback ρ))
    (h : Machine.Meets (Client.step limits env) (ResolvedAccepted env) { world } callbacks) :
    Guarded limits env world callbacks := by
  have hkept : Kept limits (Machine.run (Client.step limits env) { world } callbacks) :=
    @Machine.Meets.invariant _ _ _ (Kept limits) _ (fun _ _ hkept hok => hkept.step hok) _
      (Kept.new world) _ h
  refine ⟨hkept.orderly, hkept.first, ?_⟩
  intro before callback after hsplit hforeign
  rw [Machine.run_append]
  exact step_foreign hforeign

/-- A sink that refuses its `n`th event, and a policy that grants the first option. -/
def refusing (n : ℕ) : Surroundings ℕ Unit where
  emit count _ := (count + 1, if count = n then some "disk full" else none)
  decide count request :=
    match request.options with
    | option :: _ =>
        if h : option.optionId ≠ "" then
          (count, .ok (.selected option.optionId h "inside the worktree" (by decide)))
        else (count, .error "ValueError")
    | [] => (count, .error "IndexError")
  repr text := "'" ++ text ++ "'"

def oneRequest : List (Callback Unit) :=
  [.bindSession "s1",
    .requestPermission "s1" { toolCallId := "t1", kind := some "edit" }
      [{ optionId := "allow", kind := some "allow_once" }]]

theorem permissions_one_request : Guarded {} (refusing 2) 0 oneRequest :=
  permissions {} (refusing 2) 0 oneRequest (by
    refine ⟨trivial, ?_, trivial⟩
    intro _ _ world decidedWorld optionId named reason reasoned hemit hdecide
    cases hemit
    cases hdecide
    rfl)

/-- The sink refuses the resolved event, and the permission is granted all the same. -/
theorem permissions_refused : ¬ Guarded {} (refusing 1) 0 oneRequest := by
  intro h
  have hquiet := h.orderly.quiet _ (.answered "s1" "t1" (.selected "allow")) [] rfl trivial
  cases hquiet

end Imece.AcpRuntime
