import Imece.RunRuntime.Legacy
import Imece.RunRuntime.Trails

/-!
# The projection of events to activity items

What one event shows in the live feed: an item with a stable identifier, so that the events
of one tool call, check or attempt change the same row.
-/
namespace Imece.RunRuntime

def maxTitleChars : ℕ := 300
def maxDetailChars : ℕ := 4096
def maxVerificationTailChars : ℕ := 4096

/-- How Python writes values: `str(value)`, and the two number formats, which some values
do not have. -/
structure PyFormats where
  str : PyValue → String
  fixed4 : PyValue → Option String
  percent : PyValue → Option String

/-- An item of the feed; the time of its event stands for the text of it. -/
structure ActivityItem where
  id : String
  runId : String
  seq : ℕ
  ts : Instant
  role : String
  kind : String
  status : String
  title : String
  detail : Option String

/-- A projector raised. -/
inductive ProjectionError where
  | raised
deriving DecidableEq, Repr

abbrev FeedResult := Except ProjectionError (Option ActivityItem)

section Titles

variable (formats : PyFormats)

def isDict : PyValue → Bool
  | .dict _ => true
  | _ => false

/-- `_arg` -/
def argText (arguments : PyValue) (key default : String) : String :=
  if !isDict arguments then default
  else match payloadGet arguments key with
    | .none => default
    | value => formats.str value

def joinTexts (values : List PyValue) : String := " ".intercalate (values.map formats.str)

def toolTitle (toolName arguments : PyValue) : String :=
  if toolName.eqStr "read_file" then "Okundu: " ++ argText formats arguments "path" "?"
  else if toolName.eqStr "list_files" then "Listelendi: " ++ argText formats arguments "path" "."
  else if toolName.eqStr "search_text" then "Arandı: " ++ argText formats arguments "query" "?"
  else if toolName.eqStr "write_file" then "Düzenlendi: " ++ argText formats arguments "path" "?"
  else if toolName.eqStr "delete_path" then "Silindi: " ++ argText formats arguments "path" "?"
  else if toolName.eqStr "run_process" then
    match payloadGet arguments "argv" with
    | .list (first :: rest) => "Komut çalıştırıldı: " ++ joinTexts formats (first :: rest)
    | _ => "Komut çalıştırıldı: " ++ argText formats arguments "command" "?"
  else if toolName.eqStr "repo_map" then
    "Depo haritası: " ++ argText formats arguments "query" "(genel)"
  else if toolName.eqStr "search_code" then "Kod arandı: " ++ argText formats arguments "query" "?"
  else "Araç: " ++ formats.str toolName

def acpKindVerbs : List (String × String) :=
  [("read", "Okundu"), ("edit", "Düzenlendi"), ("delete", "Silindi"), ("move", "Taşındı"),
    ("search", "Arandı"), ("execute", "Çalıştırıldı"), ("fetch", "Getirildi"),
    ("switch_mode", "Mod değişti"), ("think", "Düşünüldü"), ("other", "İşlem")]

def acpStatuses : List (String × String) :=
  [("pending", "running"), ("in_progress", "running"), ("completed", "ok"), ("failed", "error")]

/-- `table.get(key, default)`; lists and dicts cannot be keys. -/
def tableGet (table : List (String × String)) (key : PyValue) (default : String) :
    Except ProjectionError String :=
  match key with
  | .list _ | .dict _ => .error .raised
  | .str key => .ok ((table.lookup key).getD default)
  | _ => .ok default

def acpToolTitle (kind title : PyValue) : Except ProjectionError String := do
  let verb ← tableGet acpKindVerbs (kind.orElse (.str "other")) "İşlem"
  if title.truthy then return verb ++ ": " ++ formats.str title else return verb

end Titles

section Projectors

variable (formats : PyFormats) (event : RunEvent)

/-- `_base` -/
def baseItem (itemId role kind status title : String) (detail : Option String) : ActivityItem where
  id := itemId
  runId := event.runId
  seq := event.seq
  ts := event.createdAt
  role := role
  kind := kind
  status := status
  title := takeChars title maxTitleChars
  detail := detail.map fun text => takeChars text maxDetailChars

/-- `_tail` -/
def tailText (value : PyValue) : Option String :=
  match value with
  | .str text =>
      if text = "" then none
      else some (String.ofList (text.toList.drop (text.toList.length - maxVerificationTailChars)))
  | _ => none

/-- `f"{value}"` of an optional string. -/
def formatOption (value : Option String) : String := value.getD "None"

def payloadText (key : String) : String := formats.str (event.payload.get key)

def toolItemId (callId : String) : String :=
  "tool:" ++ formatOption event.executionId ++ ":" ++ callId

def projectTool : FeedResult :=
  match event.payload.get "call_id" with
  | .str callId =>
      let toolName := event.payload.get "tool_name" (.str "?")
      let itemId := toolItemId event callId
      if event.isType .toolRequested ∨ event.isType .toolStarted then
        .ok (some (baseItem event itemId "worker" "tool" "running"
          (toolTitle formats toolName (event.payload.get "arguments")) none))
      else if event.isType .toolCompleted then
        .ok (some (baseItem event itemId "worker" "tool" "ok"
          (toolTitle formats toolName (event.payload.get "metadata"))
          (tailText (event.payload.get "content"))))
      else if event.isType .toolFailed then
        .ok (some (baseItem event itemId "worker" "tool" "error"
          (toolTitle formats toolName (event.payload.get "metadata"))
          (tailText (event.payload.get "message"))))
      else .ok none
  | _ => .ok none

def checkItemId : String :=
  "check:" ++ payloadText formats event "verification_id" ++ ":" ++
    payloadText formats event "check_id"

/-- The command of a check: what is not iterable raises. -/
def checkCommand (argv : PyValue) : Except ProjectionError (Option String) :=
  if !argv.truthy then .ok none
  else match pyList argv with
    | .error _ => .error .raised
    | .ok items =>
        let cmd := joinTexts formats items
        .ok (if cmd = "" then none else some cmd)

def projectVerificationCheck : FeedResult := do
  let name := formats.str ((event.payload.get "name").orElse
    ((event.payload.get "check_id").orElse (.str "check")))
  let itemId := checkItemId formats event
  if event.isType .verificationCheckStarted then
    let detail ← checkCommand formats (event.payload.get "argv")
    return some (baseItem event itemId "verification" "check" "running" ("Kontrol: " ++ name) detail)
  else if event.isType .verificationCheckCompleted then
    return some (baseItem event itemId "verification" "check" "ok" ("Kontrol geçti: " ++ name)
      (tailText ((event.payload.get "stdout").orElse (event.payload.get "stderr"))))
  else if event.isType .verificationCheckFailed then
    return some (baseItem event itemId "verification" "check" "error"
      ("Kontrol başarısız: " ++ name)
      (tailText ((event.payload.get "stderr").orElse
        ((event.payload.get "stdout").orElse (event.payload.get "error_message")))))
  else return none

def planItemId : String := "plan:" ++ payloadText formats event "plan_id"

def projectPlan : FeedResult :=
  let itemId := planItemId formats event
  if event.isType .planStarted then
    .ok (some (baseItem event itemId "planner" "stage" "running" "Planlanıyor…" none))
  else if event.isType .planCompleted then
    .ok (some (baseItem event itemId "planner" "stage" "ok" "Plan tamamlandı"
      (tailText (event.payload.get "summary"))))
  else if event.isType .planFailed then
    .ok (some (baseItem event itemId "planner" "stage" "error" "Plan başarısız"
      (tailText (event.payload.get "error_message"))))
  else .ok none

def reviewItemId : String := "review:" ++ payloadText formats event "review_id"

def projectReview : FeedResult :=
  let itemId := reviewItemId formats event
  if event.isType .reviewStarted then
    .ok (some (baseItem event itemId "reviewer" "stage" "running" "İnceleniyor…" none))
  else if event.isType .reviewCompleted then
    let verdict := formats.str ((event.payload.get "verdict").orElse (.str "?"))
    .ok (some (baseItem event itemId "reviewer" "stage" "ok" ("İnceleme sonucu: " ++ verdict)
      (tailText (event.payload.get "summary"))))
  else if event.isType .reviewFailed then
    .ok (some (baseItem event itemId "reviewer" "stage" "error" "İnceleme başarısız"
      (tailText (event.payload.get "error_message"))))
  else .ok none

def fixLoopItemId : String := "fix_loop:" ++ payloadText formats event "fix_loop_id"

def fixAttemptItemId : String :=
  "fix_attempt:" ++ payloadText formats event "fix_loop_id" ++ ":" ++
    payloadText formats event "fix_attempt_id"

def projectFix : FeedResult :=
  let index := payloadText formats event "attempt_index"
  if event.isType .fixLoopStarted then
    .ok (some (baseItem event (fixLoopItemId formats event) "fix" "stage" "running"
      "Otomatik düzeltme döngüsü başladı" none))
  else if event.isType .fixLoopCompleted ∨ event.isType .fixLoopExhausted ∨
      event.isType .fixLoopFailed then
    let ok := event.isType .fixLoopCompleted
    .ok (some (baseItem event (fixLoopItemId formats event) "fix" "stage"
      (if ok then "ok" else "error")
      (if ok then "Düzeltme döngüsü tamamlandı" else "Düzeltme döngüsü bitti (başarısız)") none))
  else if event.isType .fixAttemptStarted then
    .ok (some (baseItem event (fixAttemptItemId formats event) "fix" "stage" "running"
      ("Düzeltme denemesi " ++ index) none))
  else if event.isType .fixAttemptCompleted then
    .ok (some (baseItem event (fixAttemptItemId formats event) "fix" "stage" "ok"
      ("Düzeltme denemesi " ++ index ++ " tamamlandı" ++
        if (event.payload.get "changed").truthy then "" else " (değişiklik yok)") none))
  else .ok none

def projectExecutionStage : FeedResult :=
  let itemId := "execution:" ++ formatOption event.executionId
  if event.isType .executionStarted then
    .ok (some (baseItem event itemId "worker" "stage" "running" "Çalışıyor…" none))
  else if event.isType .executionCompleted then
    .ok (some (baseItem event itemId "worker" "stage" "ok" "Çalışma tamamlandı" none))
  else if event.isType .executionFailed then
    .ok (some (baseItem event itemId "worker" "stage" "error" "Çalışma başarısız"
      (tailText (event.payload.get "message"))))
  else .ok none

def verificationItemId : String := "verification:" ++ payloadText formats event "verification_id"

def projectVerificationStage : FeedResult :=
  let itemId := verificationItemId formats event
  if event.isType .verificationStarted then
    .ok (some (baseItem event itemId "verification" "stage" "running" "Doğrulama çalıştırılıyor…"
      none))
  else if event.isType .verificationCompleted then
    let statusValue := (event.payload.get "status").orElse (.str "?")
    .ok (some (baseItem event itemId "verification" "stage"
      (if statusValue.eqStr "pass" then "ok" else "error")
      ("Doğrulama: " ++ formats.str statusValue) none))
  else .ok none

def projectUsage : FeedResult := do
  let title := "Kullanım: " ++ formats.str ((event.payload.get "total_tokens").orElse (.int 0)) ++
    " token"
  let cost := event.payload.get "cost_usd"
  let title ← if !cost.truthy then .ok title
    else match formats.fixed4 cost with
      | none => .error .raised
      | some text => .ok (title ++ ", $" ++ text)
  return some (baseItem event ("usage:" ++ event.eventId) "worker" "usage" "info" title none)

/-- The text of a block of an update's content. -/
def blockText? (block : PyValue) : Option String :=
  let text := if isDict (payloadGet block "content") then
      (payloadGet block "text").orElse (payloadGet (payloadGet block "content") "text")
    else payloadGet block "text"
  match text with
  | .str text => some text
  | _ => none

def acpDetail (content : PyValue) : Option String :=
  match content with
  | .list blocks =>
      let pieces := (blocks.filter isDict).filterMap blockText?
      if pieces.isEmpty then none else tailText (.str ("\n".intercalate pieces))
  | _ => none

def projectAcpOutput : FeedResult :=
  let update := event.payload.get "update"
  if !(event.payload.get "transport").eqStr "acp" then .ok none
  else if !isDict update then .ok none
  else
    let kind := payloadGet update "sessionUpdate"
    if !(kind.eqStr "tool_call" || kind.eqStr "tool_call_update") then .ok none
    else match payloadGet update "toolCallId" with
      | .str toolCallId => do
          let status ← tableGet acpStatuses (payloadGet update "status") "running"
          let title ← acpToolTitle formats (payloadGet update "kind") (payloadGet update "title")
          return some (baseItem event (toolItemId event toolCallId) "worker" "tool" status title
            (acpDetail (payloadGet update "content")))
      | _ => .ok none

def stringOf : PyValue → Option String
  | .str text => some text
  | _ => none

def activityToolItemId (role toolCallId : String) : String :=
  "activity_tool:" ++ formatOption event.executionId ++ ":" ++ role ++ ":" ++ toolCallId

def projectAgentActivity : FeedResult :=
  match event.payload.get "role", event.payload.get "kind", event.payload.get "status",
      event.payload.get "title" with
  | .str role, .str kind, .str status, .str title =>
      let itemId := match event.payload.get "tool_call_id" with
        | .str toolCallId => activityToolItemId event role toolCallId
        | _ => "activity:" ++ event.eventId
      .ok (some (baseItem event itemId role kind status title
        (stringOf (event.payload.get "detail"))))
  | _, _, _, _ => .ok none

def isNumber : PyValue → Bool
  | .bool _ | .int _ | .float _ => true
  | _ => false

def projectDecision : FeedResult :=
  let answer := payloadGet (event.payload.get "answers") "failure_kind"
  if !isDict answer then .ok none
  else match payloadGet answer "choice" with
    | .str kind => do
        let confidence := payloadGet answer "confidence"
        let title ← if !isNumber confidence then .ok ("Karar: " ++ kind)
          else match formats.percent confidence with
            | none => .error .raised
            | some text => .ok ("Karar: " ++ kind ++ " (güven %" ++ text ++ ")")
        return some (baseItem event ("decision:" ++ event.eventId) "system" "note" "info" title none)
    | _ => .ok none

/-- `_PROJECTORS` -/
def projector : RunEventType → Option (RunEvent → FeedResult)
  | .toolRequested | .toolStarted | .toolCompleted | .toolFailed => some (projectTool formats)
  | .verificationCheckStarted | .verificationCheckCompleted | .verificationCheckFailed =>
      some (projectVerificationCheck formats)
  | .verificationStarted | .verificationCompleted => some (projectVerificationStage formats)
  | .planStarted | .planCompleted | .planFailed => some (projectPlan formats)
  | .reviewStarted | .reviewCompleted | .reviewFailed => some (projectReview formats)
  | .fixLoopStarted | .fixLoopCompleted | .fixLoopExhausted | .fixLoopFailed
  | .fixAttemptStarted | .fixAttemptCompleted => some (projectFix formats)
  | .executionStarted | .executionCompleted | .executionFailed => some projectExecutionStage
  | .usageRecorded => some (projectUsage formats)
  | .executionOutput => some (projectAcpOutput formats)
  | .agentActivity => some projectAgentActivity
  | .decisionMade => some (projectDecision formats)
  | _ => none

def projectEvent : FeedResult :=
  match event.kind.bind (projector formats) with
  | none => .ok none
  | some handler => handler event

/-- What the feed makes of an event: one that raises shows nothing. -/
def shownItem : Option ActivityItem :=
  match projectEvent formats event with
  | .ok item => item
  | .error _ => none

end Projectors

end Imece.RunRuntime
