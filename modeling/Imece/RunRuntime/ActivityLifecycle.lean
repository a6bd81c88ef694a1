import Imece.RunRuntime.ActivityProjection
import Imece.RunRuntime.CompletionEvidence

/-!
# The lifecycles behind the activity feed

What a tool call, check, plan, review, fix loop, fix attempt or verification goes through,
read from the events alone, and what the projection shows of it.
-/
namespace Imece.RunRuntime

/-- An event opens a lifecycle, closes it with an outcome, or records that it was
interrupted. -/
inductive Phase where
  | opens
  | closes
  | interrupts
deriving DecidableEq, Repr

def hashable : PyValue → Bool
  | .list _ | .dict _ => false
  | _ => true

def iterable : PyValue → Bool
  | .list _ | .dict _ | .str _ => true
  | _ => false

section Lifecycles

variable (formats : PyFormats) (event : RunEvent)

/-- A tool event without a call identifier is of no tool call. -/
def toolLifecycle (phase : Phase) : Option (String × Phase) :=
  match event.payload.get "call_id" with
  | .str callId => some (toolItemId event callId, phase)
  | _ => none

/-- A check whose command is unreadable is not shown as started. -/
def checkStartLifecycle : Option (String × Phase) :=
  let argv := event.payload.get "argv"
  if !argv.truthy || iterable argv then some (checkItemId formats event, .opens) else none

/-- A tool call of an ACP session: each update tells the status of the call. -/
def acpLifecycle : Option (String × Phase) :=
  let update := event.payload.get "update"
  let status := payloadGet update "status"
  if (event.payload.get "transport").eqStr "acp" && isDict update &&
      ((payloadGet update "sessionUpdate").eqStr "tool_call" ||
        (payloadGet update "sessionUpdate").eqStr "tool_call_update") &&
      hashable status && hashable ((payloadGet update "kind").orElse (.str "other")) then
    match payloadGet update "toolCallId" with
    | .str toolCallId =>
        some (toolItemId event toolCallId,
          if status.eqStr "completed" || status.eqStr "failed" then .closes else .opens)
    | _ => none
  else none

/-- A tool call of an ACP planner or reviewer, which is told in notices: one that runs, and
one with its outcome. -/
def activityLifecycle : Option (String × Phase) :=
  match event.payload.get "role", event.payload.get "kind", event.payload.get "status",
      event.payload.get "title", event.payload.get "tool_call_id" with
  | .str role, .str _, .str status, .str _, .str toolCallId =>
      some (activityToolItemId event role toolCallId,
        if status = "running" then .opens else .closes)
  | _, _, _, _, _ => none

/-- The lifecycle an event belongs to, by the identifier of its row, and its part in it. -/
def RunEvent.lifecycle : Option (String × Phase) :=
  match event.kind with
  | some .toolRequested | some .toolStarted => toolLifecycle event .opens
  | some .toolCompleted | some .toolFailed => toolLifecycle event .closes
  | some .toolInterrupted => toolLifecycle event .interrupts
  | some .executionOutput => acpLifecycle event
  | some .agentActivity => activityLifecycle event
  | some .verificationCheckStarted => checkStartLifecycle formats event
  | some .verificationCheckCompleted | some .verificationCheckFailed =>
      some (checkItemId formats event, .closes)
  | some .verificationCheckInterrupted => some (checkItemId formats event, .interrupts)
  | some .verificationStarted => some (verificationItemId formats event, .opens)
  | some .verificationCompleted => some (verificationItemId formats event, .closes)
  | some .verificationInterrupted => some (verificationItemId formats event, .interrupts)
  | some .planStarted => some (planItemId formats event, .opens)
  | some .planCompleted | some .planFailed => some (planItemId formats event, .closes)
  | some .planInterrupted => some (planItemId formats event, .interrupts)
  | some .reviewStarted => some (reviewItemId formats event, .opens)
  | some .reviewCompleted | some .reviewFailed => some (reviewItemId formats event, .closes)
  | some .reviewInterrupted => some (reviewItemId formats event, .interrupts)
  | some .fixLoopStarted => some (fixLoopItemId formats event, .opens)
  | some .fixLoopCompleted | some .fixLoopExhausted | some .fixLoopFailed =>
      some (fixLoopItemId formats event, .closes)
  | some .fixLoopInterrupted => some (fixLoopItemId formats event, .interrupts)
  | some .fixAttemptStarted => some (fixAttemptItemId formats event, .opens)
  | some .fixAttemptCompleted => some (fixAttemptItemId formats event, .closes)
  | some .fixAttemptInterrupted => some (fixAttemptItemId formats event, .interrupts)
  | _ => none

/-- How the identifiers of the rows of lifecycles start. -/
def lifecycleNames : List String :=
  ["tool:", "activity_tool:", "check:", "verification:", "plan:", "review:", "fix_loop:",
    "fix_attempt:"]

def isLifecycleId (id : String) : Bool :=
  lifecycleNames.any fun name => name.toList.isPrefixOf id.toList

end Lifecycles

variable {formats : PyFormats} {event : RunEvent}

lemma isType_of_kind {t : RunEventType} (h : event.kind = some t) (s : RunEventType) :
    event.isType s = decide (t = s) := by
  have htype := RunEventType.eq_value_of_ofString? h
  rw [Bool.eq_iff_iff, decide_eq_true_eq, RunEvent.isType, beq_iff_eq, htype]
  constructor
  · intro hvalue
    have hsome := congrArg RunEventType.ofString? hvalue
    rw [RunEventType.ofString?_value, RunEventType.ofString?_value] at hsome
    exact Option.some.inj hsome
  · exact congrArg _

/-- An identifier that starts with the name of a kind of lifecycle. -/
lemma isLifecycleId_append {name : String} (hname : name ∈ lifecycleNames) (rest : String) :
    isLifecycleId (name ++ rest) = true := by
  refine List.any_eq_true.mpr ⟨name, hname, ?_⟩
  rw [String.toList_append, List.isPrefixOf_iff_prefix]
  exact List.prefix_append _ _

/-- An identifier with a front that no name of a lifecycle agrees with. -/
lemma isLifecycleId_append_false {front : String}
    (hfront : ∀ name ∈ lifecycleNames,
      ¬ name.toList <+: front.toList ∧ ¬ front.toList <+: name.toList) (rest : String) :
    isLifecycleId (front ++ rest) = false := by
  refine List.any_eq_false.mpr fun name hname hprefix => ?_
  rw [String.toList_append, List.isPrefixOf_iff_prefix] at hprefix
  rcases List.prefix_or_prefix_of_prefix hprefix (List.prefix_append front.toList rest.toList)
    with hshort | hlong
  · exact (hfront name hname).1 hshort
  · exact (hfront name hname).2 hlong

lemma toolItemId_isLifecycleId (callId : String) :
    isLifecycleId (toolItemId event callId) = true := by
  rw [toolItemId, String.append_assoc, String.append_assoc]
  exact isLifecycleId_append (by decide) _

lemma activityToolItemId_isLifecycleId (role toolCallId : String) :
    isLifecycleId (activityToolItemId event role toolCallId) = true := by
  unfold activityToolItemId
  simp only [String.append_assoc]
  exact isLifecycleId_append (by decide) _

/-- What the feed shows of an event, by the event's part in its lifecycle. -/
def Shows (formats : PyFormats) (event : RunEvent) : Prop :=
  match event.lifecycle formats with
  | some (id, .opens) => isLifecycleId id = true ∧
      ∃ item, shownItem formats event = some item ∧ item.id = id ∧ item.status = "running"
  | some (id, .closes) => isLifecycleId id = true ∧
      ∃ item, shownItem formats event = some item ∧ item.id = id ∧ item.status ≠ "running"
  | some (id, .interrupts) => isLifecycleId id = true ∧ shownItem formats event = none
  | none => ∀ item, shownItem formats event = some item → isLifecycleId item.id = false

/-- What a projector's answer shows. -/
def FeedResult.shown (result : FeedResult) : Option ActivityItem :=
  match result with
  | .ok item => item
  | .error _ => none

lemma shownItem_eq {t : RunEventType} (h : event.kind = some t)
    {handler : RunEvent → FeedResult} (hhandler : projector formats t = some handler) :
    shownItem formats event = FeedResult.shown (handler event) := by
  rw [shownItem, projectEvent, h, Option.bind_some, hhandler]
  rfl

lemma shownItem_none {t : RunEventType} (h : event.kind = some t)
    (hhandler : projector formats t = none) : shownItem formats event = none := by
  rw [shownItem, projectEvent, h, Option.bind_some, hhandler]

/-- An item with the identifier of an event's lifecycle. -/
lemma shows_item {id : String} {phase : Phase} {item : ActivityItem}
    (hlife : event.lifecycle formats = some (id, phase)) (hid : isLifecycleId id = true)
    (hshown : shownItem formats event = some item) (hitem : item.id = id)
    (hphase : phase = .opens ∧ item.status = "running" ∨
      phase = .closes ∧ item.status ≠ "running") : Shows formats event := by
  rw [Shows, hlife]
  obtain ⟨rfl, hstatus⟩ | ⟨rfl, hstatus⟩ := hphase
  · exact ⟨hid, item, hshown, hitem, hstatus⟩
  · exact ⟨hid, item, hshown, hitem, hstatus⟩

lemma shows_interrupted {id : String} {t : RunEventType} (h : event.kind = some t)
    (hlife : event.lifecycle formats = some (id, .interrupts)) (hid : isLifecycleId id = true)
    (hhandler : projector formats t = none) : Shows formats event := by
  rw [Shows, hlife]
  exact ⟨hid, shownItem_none h hhandler⟩

lemma shows_nothing (hlife : event.lifecycle formats = none)
    (hshown : shownItem formats event = none) : Shows formats event := by
  rw [Shows, hlife]
  intro item hitem
  rw [hshown] at hitem
  cases hitem

lemma shows_other {id : String} {item : ActivityItem} (hlife : event.lifecycle formats = none)
    (hid : isLifecycleId id = false) (hshown : shownItem formats event = some item)
    (hitem : item.id = id) : Shows formats event := by
  rw [Shows, hlife]
  intro other hother
  rw [hshown] at hother
  obtain rfl := Option.some.inj hother
  rw [hitem]
  exact hid

lemma checkCommand_ok {argv : PyValue} (h : (!argv.truthy || iterable argv) = true) :
    ∃ detail, checkCommand formats argv = .ok detail := by
  unfold checkCommand
  by_cases htruthy : argv.truthy = true
  · rw [htruthy, Bool.not_true, Bool.false_or] at h
    rw [htruthy, Bool.not_true, if_neg Bool.false_ne_true]
    cases argv with
    | list items => exact ⟨_, rfl⟩
    | dict entries => exact ⟨_, rfl⟩
    | str text => exact ⟨_, rfl⟩
    | none | bool | int | float | object => cases h
  · exact ⟨none, if_pos (by simpa using htruthy)⟩

lemma checkCommand_error {argv : PyValue} (h : ¬(!argv.truthy || iterable argv) = true) :
    checkCommand formats argv = .error .raised := by
  rw [Bool.or_eq_true, not_or] at h
  rw [checkCommand, if_neg h.1]
  cases argv with
  | list | dict | str => exact absurd rfl h.2
  | none | bool | int | float | object => rfl

lemma tableGet_ok {key : PyValue} (h : hashable key = true) (table : List (String × String))
    (default : String) : ∃ value, tableGet table key default = .ok value := by
  cases key with
  | list | dict => cases h
  | none | bool | int | float | str | object => exact ⟨_, rfl⟩

lemma tableGet_error {key : PyValue} (h : hashable key = false) (table : List (String × String))
    (default : String) : tableGet table key default = .error .raised := by
  cases key with
  | list | dict => rfl
  | none | bool | int | float | str | object => cases h

lemma acpToolTitle_ok {kind : PyValue} (h : hashable (kind.orElse (.str "other")) = true)
    (title : PyValue) : ∃ text, acpToolTitle formats kind title = .ok text := by
  obtain ⟨verb, hverb⟩ := tableGet_ok h acpKindVerbs "İşlem"
  rw [acpToolTitle, hverb]
  by_cases htitle : title.truthy = true
  · exact ⟨_, if_pos htitle⟩
  · exact ⟨_, if_neg htitle⟩

/-- Only a completed or failed call is not running. -/
lemma acpStatus_running {status : PyValue} {value : String}
    (h : tableGet acpStatuses status "running" = .ok value) :
    value = "running" ↔ (status.eqStr "completed" || status.eqStr "failed") = false := by
  cases status with
  | list | dict => cases h
  | str text =>
      obtain rfl := Except.ok.inj h
      by_cases hcompleted : text = "completed"
      · subst hcompleted
        decide
      · by_cases hfailed : text = "failed"
        · subst hfailed
          decide
        · have hlookup : (acpStatuses.lookup text).getD "running" = "running" := by
            simp only [acpStatuses, List.lookup_cons, List.lookup_nil]
            grind
          simp [hlookup, PyValue.eqStr, hcompleted, hfailed]
  | none | bool | int | float | object =>
      obtain rfl := Except.ok.inj h
      simp [PyValue.eqStr]

section Families

variable {t : RunEventType} (h : event.kind = some t)
include h

lemma shows_plan
    (ht : t = .planStarted ∨ t = .planCompleted ∨ t = .planFailed ∨ t = .planInterrupted) :
    Shows formats event := by
  have hid : isLifecycleId (planItemId formats event) = true :=
    isLifecycleId_append (by decide) _
  have htype := isType_of_kind h
  obtain rfl | rfl | rfl | rfl := ht
  · exact shows_item (by simp only [RunEvent.lifecycle, h]) hid
      ((shownItem_eq h rfl).trans (by simp [projectPlan, htype, FeedResult.shown]; rfl)) rfl
      (.inl ⟨rfl, rfl⟩)
  · exact shows_item (by simp only [RunEvent.lifecycle, h]) hid
      ((shownItem_eq h rfl).trans (by simp [projectPlan, htype, FeedResult.shown]; rfl)) rfl
      (.inr ⟨rfl, by simp [baseItem]⟩)
  · exact shows_item (by simp only [RunEvent.lifecycle, h]) hid
      ((shownItem_eq h rfl).trans (by simp [projectPlan, htype, FeedResult.shown]; rfl)) rfl
      (.inr ⟨rfl, by simp [baseItem]⟩)
  · exact shows_interrupted h (by simp only [RunEvent.lifecycle, h]) hid rfl

lemma shows_review
    (ht : t = .reviewStarted ∨ t = .reviewCompleted ∨ t = .reviewFailed ∨ t = .reviewInterrupted) :
    Shows formats event := by
  have hid : isLifecycleId (reviewItemId formats event) = true :=
    isLifecycleId_append (by decide) _
  have htype := isType_of_kind h
  obtain rfl | rfl | rfl | rfl := ht
  · exact shows_item (by simp only [RunEvent.lifecycle, h]) hid
      ((shownItem_eq h rfl).trans (by simp [projectReview, htype, FeedResult.shown]; rfl)) rfl
      (.inl ⟨rfl, rfl⟩)
  · exact shows_item (by simp only [RunEvent.lifecycle, h]) hid
      ((shownItem_eq h rfl).trans (by simp [projectReview, htype, FeedResult.shown]; rfl)) rfl
      (.inr ⟨rfl, by simp [baseItem]⟩)
  · exact shows_item (by simp only [RunEvent.lifecycle, h]) hid
      ((shownItem_eq h rfl).trans (by simp [projectReview, htype, FeedResult.shown]; rfl)) rfl
      (.inr ⟨rfl, by simp [baseItem]⟩)
  · exact shows_interrupted h (by simp only [RunEvent.lifecycle, h]) hid rfl

lemma shows_fixLoop
    (ht : t = .fixLoopStarted ∨ t = .fixLoopCompleted ∨ t = .fixLoopExhausted ∨
      t = .fixLoopFailed ∨ t = .fixLoopInterrupted) :
    Shows formats event := by
  have hid : isLifecycleId (fixLoopItemId formats event) = true :=
    isLifecycleId_append (by decide) _
  have htype := isType_of_kind h
  obtain rfl | rfl | rfl | rfl | rfl := ht
  · exact shows_item (by simp only [RunEvent.lifecycle, h]) hid
      ((shownItem_eq h rfl).trans (by simp [projectFix, htype, FeedResult.shown]; rfl)) rfl
      (.inl ⟨rfl, rfl⟩)
  · exact shows_item (by simp only [RunEvent.lifecycle, h]) hid
      ((shownItem_eq h rfl).trans (by simp [projectFix, htype, FeedResult.shown]; rfl)) rfl
      (.inr ⟨rfl, by simp [baseItem]⟩)
  · exact shows_item (by simp only [RunEvent.lifecycle, h]) hid
      ((shownItem_eq h rfl).trans (by simp [projectFix, htype, FeedResult.shown]; rfl)) rfl
      (.inr ⟨rfl, by simp [baseItem]⟩)
  · exact shows_item (by simp only [RunEvent.lifecycle, h]) hid
      ((shownItem_eq h rfl).trans (by simp [projectFix, htype, FeedResult.shown]; rfl)) rfl
      (.inr ⟨rfl, by simp [baseItem]⟩)
  · exact shows_interrupted h (by simp only [RunEvent.lifecycle, h]) hid rfl

lemma shows_fixAttempt
    (ht : t = .fixAttemptStarted ∨ t = .fixAttemptCompleted ∨ t = .fixAttemptInterrupted) :
    Shows formats event := by
  have hid : isLifecycleId (fixAttemptItemId formats event) = true := by
    unfold fixAttemptItemId
    simp only [String.append_assoc]
    exact isLifecycleId_append (by decide) _
  have htype := isType_of_kind h
  obtain rfl | rfl | rfl := ht
  · exact shows_item (by simp only [RunEvent.lifecycle, h]) hid
      ((shownItem_eq h rfl).trans (by simp [projectFix, htype, FeedResult.shown]; rfl)) rfl
      (.inl ⟨rfl, rfl⟩)
  · exact shows_item (by simp only [RunEvent.lifecycle, h]) hid
      ((shownItem_eq h rfl).trans (by simp [projectFix, htype, FeedResult.shown]; rfl)) rfl
      (.inr ⟨rfl, by simp [baseItem]⟩)
  · exact shows_interrupted h (by simp only [RunEvent.lifecycle, h]) hid rfl

lemma shows_verification
    (ht : t = .verificationStarted ∨ t = .verificationCompleted ∨ t = .verificationInterrupted) :
    Shows formats event := by
  have hid : isLifecycleId (verificationItemId formats event) = true :=
    isLifecycleId_append (by decide) _
  have htype := isType_of_kind h
  obtain rfl | rfl | rfl := ht
  · exact shows_item (by simp only [RunEvent.lifecycle, h]) hid
      ((shownItem_eq h rfl).trans
        (by simp [projectVerificationStage, htype, FeedResult.shown]; rfl)) rfl
      (.inl ⟨rfl, rfl⟩)
  · exact shows_item (by simp only [RunEvent.lifecycle, h]) hid
      ((shownItem_eq h rfl).trans
        (by simp [projectVerificationStage, htype, FeedResult.shown]; rfl)) rfl
      (.inr ⟨rfl, by dsimp only [baseItem]; split <;> decide⟩)
  · exact shows_interrupted h (by simp only [RunEvent.lifecycle, h]) hid rfl

lemma shows_check
    (ht : t = .verificationCheckStarted ∨ t = .verificationCheckCompleted ∨
      t = .verificationCheckFailed ∨ t = .verificationCheckInterrupted) :
    Shows formats event := by
  have hid : isLifecycleId (checkItemId formats event) = true := by
    unfold checkItemId
    rw [String.append_assoc, String.append_assoc]
    exact isLifecycleId_append (by decide) _
  have htype := isType_of_kind h
  obtain rfl | rfl | rfl | rfl := ht
  · have hproject : projectVerificationCheck formats event = do
        let detail ← checkCommand formats (event.payload.get "argv")
        return some (baseItem event (checkItemId formats event) "verification" "check" "running"
          ("Kontrol: " ++ formats.str ((event.payload.get "name").orElse
            ((event.payload.get "check_id").orElse (.str "check")))) detail) := by
      simp [projectVerificationCheck, htype]
    have hlife : event.lifecycle formats = checkStartLifecycle formats event := by
      simp only [RunEvent.lifecycle, h]
    by_cases hargv : (!(event.payload.get "argv").truthy || iterable (event.payload.get "argv")) =
        true
    · obtain ⟨detail, hdetail⟩ := checkCommand_ok hargv
      rw [hdetail] at hproject
      have hopens : event.lifecycle formats = some (checkItemId formats event, .opens) :=
        hlife.trans (if_pos hargv)
      exact shows_item hopens hid ((shownItem_eq h rfl).trans (congrArg FeedResult.shown hproject))
        rfl (.inl ⟨rfl, rfl⟩)
    · rw [checkCommand_error hargv] at hproject
      exact shows_nothing (hlife.trans (if_neg hargv))
        ((shownItem_eq h rfl).trans (congrArg FeedResult.shown hproject))
  · exact shows_item (by simp only [RunEvent.lifecycle, h]) hid
      ((shownItem_eq h rfl).trans
        (by simp [projectVerificationCheck, htype, FeedResult.shown]; rfl)) rfl
      (.inr ⟨rfl, by simp [baseItem]⟩)
  · exact shows_item (by simp only [RunEvent.lifecycle, h]) hid
      ((shownItem_eq h rfl).trans
        (by simp [projectVerificationCheck, htype, FeedResult.shown]; rfl)) rfl
      (.inr ⟨rfl, by simp [baseItem]⟩)
  · exact shows_interrupted h (by simp only [RunEvent.lifecycle, h]) hid rfl

lemma shows_tool
    (ht : t = .toolRequested ∨ t = .toolStarted ∨ t = .toolCompleted ∨ t = .toolFailed ∨
      t = .toolInterrupted) : Shows formats event := by
  have htype := isType_of_kind h
  by_cases hcall : ∃ callId, event.payload.get "call_id" = .str callId
  · obtain ⟨callId, hcall⟩ := hcall
    have hid : isLifecycleId (toolItemId event callId) = true := toolItemId_isLifecycleId callId
    obtain rfl | rfl | rfl | rfl | rfl := ht
    · exact shows_item (by simp only [RunEvent.lifecycle, h, toolLifecycle, hcall]) hid
        ((shownItem_eq h rfl).trans (by simp [projectTool, hcall, htype, FeedResult.shown]; rfl))
        rfl (.inl ⟨rfl, rfl⟩)
    · exact shows_item (by simp only [RunEvent.lifecycle, h, toolLifecycle, hcall]) hid
        ((shownItem_eq h rfl).trans (by simp [projectTool, hcall, htype, FeedResult.shown]; rfl))
        rfl (.inl ⟨rfl, rfl⟩)
    · exact shows_item (by simp only [RunEvent.lifecycle, h, toolLifecycle, hcall]) hid
        ((shownItem_eq h rfl).trans (by simp [projectTool, hcall, htype, FeedResult.shown]; rfl))
        rfl (.inr ⟨rfl, by simp [baseItem]⟩)
    · exact shows_item (by simp only [RunEvent.lifecycle, h, toolLifecycle, hcall]) hid
        ((shownItem_eq h rfl).trans (by simp [projectTool, hcall, htype, FeedResult.shown]; rfl))
        rfl (.inr ⟨rfl, by simp [baseItem]⟩)
    · exact shows_interrupted h (by simp only [RunEvent.lifecycle, h, toolLifecycle, hcall]) hid
        rfl
  · have hlife (phase : Phase) : toolLifecycle event phase = none := by
      unfold toolLifecycle
      split
      · exact absurd ⟨_, ‹_›⟩ hcall
      · rfl
    have hproject : projectTool formats event = .ok none := by
      unfold projectTool
      split
      · exact absurd ⟨_, ‹_›⟩ hcall
      · rfl
    have hshown (hhandler : projector formats t = some (projectTool formats)) :
        shownItem formats event = none :=
      (shownItem_eq h hhandler).trans (congrArg FeedResult.shown hproject)
    obtain rfl | rfl | rfl | rfl | rfl := ht
    · exact shows_nothing (by simp only [RunEvent.lifecycle, h, hlife]) (hshown rfl)
    · exact shows_nothing (by simp only [RunEvent.lifecycle, h, hlife]) (hshown rfl)
    · exact shows_nothing (by simp only [RunEvent.lifecycle, h, hlife]) (hshown rfl)
    · exact shows_nothing (by simp only [RunEvent.lifecycle, h, hlife]) (hshown rfl)
    · exact shows_nothing (by simp only [RunEvent.lifecycle, h, hlife]) (shownItem_none h rfl)

lemma shows_acp (ht : t = .executionOutput) : Shows formats event := by
  subst ht
  have hlife : event.lifecycle formats = acpLifecycle event := by
    simp only [RunEvent.lifecycle, h]
  have hshown : shownItem formats event = FeedResult.shown (projectAcpOutput formats event) :=
    shownItem_eq h rfl
  simp only [acpLifecycle] at hlife
  simp only [projectAcpOutput] at hshown
  generalize event.payload.get "update" = update at hlife hshown
  by_cases htransport : (event.payload.get "transport").eqStr "acp" = true
  swap
  · exact shows_nothing (hlife.trans (by simp [htransport]))
      (hshown.trans (by simp [htransport, FeedResult.shown]))
  by_cases hdict : isDict update = true
  swap
  · exact shows_nothing (hlife.trans (by simp [hdict]))
      (hshown.trans (by simp [htransport, hdict, FeedResult.shown]))
  by_cases hkind : ((payloadGet update "sessionUpdate").eqStr "tool_call" ||
      (payloadGet update "sessionUpdate").eqStr "tool_call_update") = true
  swap
  · exact shows_nothing (hlife.trans (by simp [hkind]))
      (hshown.trans (by simp only [htransport, hdict, hkind]; rfl))
  simp only [htransport, hdict, hkind, Bool.not_true, Bool.false_eq_true, if_false,
    Bool.true_and] at hlife hshown
  by_cases hcall : ∃ callId, payloadGet update "toolCallId" = .str callId
  swap
  · have hnone : shownItem formats event = none := by
      rw [hshown]
      split
      · exact absurd ⟨_, ‹_›⟩ hcall
      · rfl
    refine shows_nothing ?_ hnone
    rw [hlife]
    split
    · split
      · exact absurd ⟨_, ‹_›⟩ hcall
      · rfl
    · rfl
  obtain ⟨callId, hcall⟩ := hcall
  rw [hcall] at hlife hshown
  cases hstatus : hashable (payloadGet update "status") with
  | false =>
      rw [tableGet_error hstatus] at hshown
      exact shows_nothing (hlife.trans (by simp [hstatus])) hshown
  | true =>
      cases hverb : hashable ((payloadGet update "kind").orElse (.str "other")) with
      | false =>
          obtain ⟨value, hvalue⟩ := tableGet_ok hstatus acpStatuses "running"
          rw [hvalue, acpToolTitle, tableGet_error hverb] at hshown
          exact shows_nothing (hlife.trans (by simp [hverb])) hshown
      | true =>
          obtain ⟨value, hvalue⟩ := tableGet_ok hstatus acpStatuses "running"
          obtain ⟨title, htitle⟩ := @acpToolTitle_ok formats _ hverb (payloadGet update "title")
          rw [hvalue, htitle] at hshown
          simp only [hstatus, hverb, Bool.and_self, if_true] at hlife
          refine shows_item hlife (toolItemId_isLifecycleId callId) hshown rfl ?_
          have hrunning := acpStatus_running hvalue
          cases hend : ((payloadGet update "status").eqStr "completed" ||
              (payloadGet update "status").eqStr "failed") with
          | false => exact .inl ⟨rfl, hrunning.mpr hend⟩
          | true =>
              refine .inr ⟨rfl, fun heq => ?_⟩
              rw [hrunning.mp heq] at hend
              cases hend

lemma shows_execution
    (ht : t = .executionStarted ∨ t = .executionCompleted ∨ t = .executionFailed) :
    Shows formats event := by
  have hid : isLifecycleId ("execution:" ++ formatOption event.executionId) = false :=
    isLifecycleId_append_false (by decide) _
  have htype := isType_of_kind h
  obtain rfl | rfl | rfl := ht
  · exact shows_other (by simp only [RunEvent.lifecycle, h]) hid
      ((shownItem_eq h rfl).trans (by simp [projectExecutionStage, htype, FeedResult.shown]; rfl))
      rfl
  · exact shows_other (by simp only [RunEvent.lifecycle, h]) hid
      ((shownItem_eq h rfl).trans (by simp [projectExecutionStage, htype, FeedResult.shown]; rfl))
      rfl
  · exact shows_other (by simp only [RunEvent.lifecycle, h]) hid
      ((shownItem_eq h rfl).trans (by simp [projectExecutionStage, htype, FeedResult.shown]; rfl))
      rfl

lemma shows_usage (ht : t = .usageRecorded) : Shows formats event := by
  subst ht
  have hlife : event.lifecycle formats = none := by
    simp only [RunEvent.lifecycle, h]
  have hshown : shownItem formats event = FeedResult.shown (projectUsage formats event) :=
    shownItem_eq h rfl
  have hid : isLifecycleId ("usage:" ++ event.eventId) = false :=
    isLifecycleId_append_false (by decide) _
  simp only [projectUsage] at hshown
  by_cases hcost : (event.payload.get "cost_usd").truthy = true
  · simp only [hcost, Bool.not_true, Bool.false_eq_true, if_false] at hshown
    cases hfixed : formats.fixed4 (event.payload.get "cost_usd") with
    | none =>
        rw [hfixed] at hshown
        exact shows_nothing hlife hshown
    | some text =>
        rw [hfixed] at hshown
        exact shows_other hlife hid hshown rfl
  · simp only [hcost, Bool.not_false, if_true] at hshown
    exact shows_other hlife hid hshown rfl

lemma shows_activity (ht : t = .agentActivity) : Shows formats event := by
  subst ht
  have hlife : event.lifecycle formats = activityLifecycle event := by
    simp only [RunEvent.lifecycle, h]
  have hshown : shownItem formats event = FeedResult.shown (projectAgentActivity event) :=
    shownItem_eq h rfl
  unfold activityLifecycle at hlife
  unfold projectAgentActivity at hshown
  split at hshown
  case h_2 hunread =>
    refine shows_nothing (hlife.trans ?_) hshown
    split
    · exact (hunread _ _ _ _ ‹_› ‹_› ‹_› ‹_›).elim
    · rfl
  case h_1 role kind status title hrole hkind hstatus htitle =>
    rw [hrole, hkind, hstatus, htitle] at hlife
    by_cases hcall : ∃ toolCallId, event.payload.get "tool_call_id" = .str toolCallId
    · obtain ⟨toolCallId, hcall⟩ := hcall
      rw [hcall] at hlife hshown
      refine shows_item hlife (activityToolItemId_isLifecycleId role toolCallId) hshown rfl ?_
      by_cases hrunning : status = "running"
      · exact .inl ⟨if_pos hrunning, hrunning⟩
      · exact .inr ⟨if_neg hrunning, hrunning⟩
    · have hnotice : shownItem formats event = some (baseItem event ("activity:" ++ event.eventId)
          role kind status title (stringOf (event.payload.get "detail"))) := by
        rw [hshown]
        split
        · exact absurd ⟨_, ‹_›⟩ hcall
        · rfl
      refine shows_other (hlife.trans ?_) (isLifecycleId_append_false (by decide) _) hnotice rfl
      split
      · exact absurd ⟨_, ‹_›⟩ hcall
      · rfl

lemma shows_decision (ht : t = .decisionMade) : Shows formats event := by
  subst ht
  have hlife : event.lifecycle formats = none := by
    simp only [RunEvent.lifecycle, h]
  have hshown : shownItem formats event = FeedResult.shown (projectDecision formats event) :=
    shownItem_eq h rfl
  have hid : isLifecycleId ("decision:" ++ event.eventId) = false :=
    isLifecycleId_append_false (by decide) _
  simp only [projectDecision] at hshown
  generalize payloadGet (event.payload.get "answers") "failure_kind" = answer at hshown
  split at hshown
  · exact shows_nothing hlife hshown
  split at hshown
  · by_cases hnumber : isNumber (payloadGet answer "confidence") = true
    · simp only [hnumber, Bool.not_true, Bool.false_eq_true, if_false] at hshown
      cases hpercent : formats.percent (payloadGet answer "confidence") with
      | none =>
          rw [hpercent] at hshown
          exact shows_nothing hlife hshown
      | some text =>
          rw [hpercent] at hshown
          exact shows_other hlife hid hshown rfl
    · simp only [hnumber, Bool.not_false, if_true] at hshown
      exact shows_other hlife hid hshown rfl
  · exact shows_nothing hlife hshown

end Families

/-- Each event shows its part in its lifecycle, except that it was interrupted. -/
theorem shows (formats : PyFormats) (event : RunEvent) : Shows formats event := by
  cases h : event.kind with
  | none =>
      refine shows_nothing (by simp only [RunEvent.lifecycle, h]) ?_
      rw [shownItem, projectEvent, h]
      rfl
  | some t =>
      cases t
      case toolRequested | toolStarted | toolCompleted | toolFailed | toolInterrupted =>
        exact shows_tool h (by simp)
      case planStarted | planCompleted | planFailed | planInterrupted =>
        exact shows_plan h (by simp)
      case reviewStarted | reviewCompleted | reviewFailed | reviewInterrupted =>
        exact shows_review h (by simp)
      case fixLoopStarted | fixLoopCompleted | fixLoopExhausted | fixLoopFailed
          | fixLoopInterrupted =>
        exact shows_fixLoop h (by simp)
      case fixAttemptStarted | fixAttemptCompleted | fixAttemptInterrupted =>
        exact shows_fixAttempt h (by simp)
      case verificationStarted | verificationCompleted | verificationInterrupted =>
        exact shows_verification h (by simp)
      case verificationCheckStarted | verificationCheckCompleted | verificationCheckFailed
          | verificationCheckInterrupted =>
        exact shows_check h (by simp)
      case executionOutput => exact shows_acp h rfl
      case executionStarted | executionCompleted | executionFailed =>
        exact shows_execution h (by simp)
      case usageRecorded => exact shows_usage h rfl
      case agentActivity => exact shows_activity h rfl
      case decisionMade => exact shows_decision h rfl
      all_goals exact shows_nothing (by simp only [RunEvent.lifecycle, h]) (shownItem_none h rfl)

end Imece.RunRuntime
