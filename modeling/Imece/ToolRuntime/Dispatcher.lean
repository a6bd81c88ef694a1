import Imece.Lib.Machine
import Imece.ToolRuntime.Policy

/-!
# The dispatcher

Validation, authorization and single use of tool calls. A call is prepared by one thread
and executed by another; the state that threads share is what the dispatcher's lock
guards, and a thread can be interrupted before it takes the lock and after it has left
it. `μ` is what else a resolver, or an executor, sees of the world when it runs.
-/
namespace Imece.ToolRuntime

open Lib Lib.Points

/-- The workspace is known by its identity. -/
structure ToolExecutionContext where
  workspace : ℕ
  runId : Option Points
  executionId : Option Points
deriving DecidableEq, Repr

structure ToolCall where
  callId : Points
  toolName : Points
  arguments : Value

structure ToolObservation where
  content : Points
  metadata : Value

/-- What a resolver returns, as `tuple` takes it: an item that is no
`PermissionRequest` is `none`. -/
inductive Resolved where
  | raises (message : Points)
  | notIterable (message : Points)
  | breaks (className : String)
  | items (found : List (Option PermissionRequest))

/-- What an executor does: `other` is a result that is no `ToolObservation`. -/
inductive Executed where
  | raises (message : Points)
  | other
  | observation (result : ToolObservation)

structure ToolSpec (μ : Type) where
  name : Points
  inputSchema : Value
  permissionResolver : μ → Value → ToolExecutionContext → Resolved

structure ToolExecutor (μ : Type) where
  execute : μ → Value → ToolExecutionContext → Executed

/-- What is registered, under its name. -/
structure ToolRegistry (μ : Type) where
  entries : List (Points × ToolSpec μ × ToolExecutor μ)

namespace ToolRegistry

variable {μ : Type} (registry : ToolRegistry μ)

def empty : ToolRegistry μ := ⟨[]⟩

def find (name : Points) : Option (ToolSpec μ × ToolExecutor μ) :=
  (registry.entries.find? fun entry => entry.1 = name).map (·.2)

def register (spec : ToolSpec μ) (executor : ToolExecutor μ) : Except Raised (ToolRegistry μ) :=
  match registry.find spec.name with
  | some _ => .error (.tool .registration (ofString "Tool zaten kayıtlı: " ++ spec.name))
  | none => .ok ⟨registry.entries ++ [(spec.name, spec, executor)]⟩

def notFound (name : Points) : Raised :=
  .tool .notFound (ofString "Tool bulunamadı: " ++ name)

def get (name : Points) : Except Raised (ToolSpec μ) :=
  match registry.find name with
  | some (spec, _) => .ok spec
  | none => .error (notFound name)

def executorFor (name : Points) : Except Raised (ToolExecutor μ) :=
  match registry.find name with
  | some (_, executor) => .ok executor
  | none => .error (notFound name)

end ToolRegistry

structure ApprovalGrant where
  callId : Points
  fingerprint : Points
deriving DecidableEq, Repr

structure PreparedToolCall where
  callId : Points
  toolName : Points
  argumentsJson : Points
  permissionRequests : List PermissionRequest
  policyDecision : PolicyDecision
  approvalFingerprint : Points
deriving DecidableEq, Repr

/-! ## Preparing -/

/-- The object whose digest an approval names. -/
def fingerprintPayload (toolName argumentsJson : Points)
    (requests : List PermissionRequest) : Value :=
  let sorted := (requests.map fun request => (request.action, request.resource)).insertionSort
    fun a b => decide (a.1 ≠ b.1 ∧ a.1.le b.1 ∨ a.1 = b.1 ∧ a.2.le b.2)
  .dict [
    (.str (ofString "tool_name"), .str toolName),
    (.str (ofString "arguments_json"), .str argumentsJson),
    (.str (ofString "permission_requests"),
      .list (sorted.map fun pair => .list [.str pair.1, .str pair.2]))]

def fingerprint (kit : Toolkit) (toolName argumentsJson : Points)
    (requests : List PermissionRequest) : Except Raised Points :=
  match dumps (fingerprintPayload toolName argumentsJson requests) with
  | .error _ => .error (.other "ValueError")
  | .ok raw =>
      match encodeUtf8 raw with
      | none => .error (.other "UnicodeEncodeError")
      | some bytes => .ok (kit.sha256 bytes)

section Prepare

variable {μ : Type} (kit : Toolkit) (policy : PolicyEvaluator)

/-- The permission requests of a call, from what its tool's resolver returns. -/
def permissionRequests (toolName : Points) :
    Resolved → Except Raised (List PermissionRequest)
  | .raises exc =>
      .error (.tool .policy
        (ofString "Tool izinleri çözümlenemedi (" ++ toolName ++ ofString "): " ++ exc))
  | .notIterable exc =>
      .error (.tool .policy (ofString "Tool izin resolver sonucu iterable olmalı: " ++ exc))
  | .breaks className => .error (.other className)
  | .items found =>
      if found = [] then
        .error (.tool .policy
          (ofString "Tool en az bir PermissionRequest bildirmeli: " ++ toolName))
      else
        match found.mapM id with
        | some requests => .ok requests
        | none =>
            .error (.tool .policy
              (ofString "Tool resolver yalnızca PermissionRequest döndürmeli: " ++ toolName))

/-- `prepare` up to the lock. -/
def prepareCall (registry : ToolRegistry μ) (moment : μ) (call : ToolCall)
    (context : ToolExecutionContext) : Except Raised PreparedToolCall := do
  let spec ← registry.get call.toolName
  let (argumentsJson, decoded) ← validateArguments kit spec.inputSchema call.arguments
  -- The resolver has a copy of its own, decoded from the same text.
  let resolved := spec.permissionResolver moment decoded context
  let requests ← permissionRequests call.toolName resolved
  let decision ← policy.evaluate requests
  let approvalFingerprint ← fingerprint kit call.toolName argumentsJson requests
  return ⟨call.callId, call.toolName, argumentsJson, requests, decision, approvalFingerprint⟩

end Prepare

/-! ## Records -/

/-- A prepared call is known by its identity, its place among all such objects. -/
structure PreparedRecord where
  callId : Points
  prepared : ℕ
  context : ToolExecutionContext
  consumed : Bool

def recordFor (records : List PreparedRecord) (callId : Points) : Option PreparedRecord :=
  records.find? fun record => record.callId = callId

/-- `prepare` under the lock. -/
def recordPrepared (records : List PreparedRecord) (callId : Points) (prepared : ℕ)
    (context : ToolExecutionContext) : Except Raised (List PreparedRecord) :=
  match recordFor records callId with
  | some _ =>
      .error (.tool .preparedCall
        (ofString "call_id bu Dispatcher içinde zaten hazırlanmış: " ++ callId))
  | none => .ok (records ++ [⟨callId, prepared, context, false⟩])

/-- The check of `execute`'s context; `none` is an object that is no
`ToolExecutionContext`. -/
def executionContext : Option ToolExecutionContext → Except Raised ToolExecutionContext
  | none => .error (.text .preparedCall "Yürütme bağlamı ToolExecutionContext olmalı.")
  | some context => .ok context

def sameContext (left right : ToolExecutionContext) : Bool :=
  left.workspace == right.workspace && left.runId == right.runId &&
    left.executionId == right.executionId

def foreign : Raised := .text .preparedCall "PreparedToolCall bu Dispatcher tarafından üretilmemiş."

/-- The record of a prepared call, for an execution in a context. -/
def recordForLocked (records : List PreparedRecord) (callId : Points) (prepared : ℕ)
    (context : ToolExecutionContext) : Except Raised PreparedRecord :=
  match recordFor records callId with
  | none => .error foreign
  | some record =>
      if record.prepared ≠ prepared then .error foreign
      else if sameContext record.context context = false then
        .error (.text .preparedCall
          "PreparedToolCall farklı bir ToolExecutionContext ile yürütülemez.")
      else if record.consumed then
        .error (.tool .callConsumed (ofString "PreparedToolCall zaten tüketilmiş: " ++ callId))
      else .ok record

/-- What the policy's decision and the grant come to. -/
def authorize (prepared : PreparedToolCall) (grant : Option ApprovalGrant) :
    Except Raised Unit :=
  match prepared.policyDecision.effect with
  | .deny =>
      .error (.tool .denied
        (ofString "Tool çağrısı policy tarafından reddedildi: " ++ prepared.toolName))
  | .ask =>
      match grant with
      | none =>
          .error (.tool .approvalRequired
            (ofString "Tool çağrısı için açık onay gerekli: " ++ prepared.toolName))
      | some grant =>
          if grant.callId ≠ prepared.callId ∨ grant.fingerprint ≠ prepared.approvalFingerprint then
            .error (.text .approvalMismatch
              "ApprovalGrant hazırlanan tool çağrısıyla eşleşmiyor.")
          else .ok ()
  | .allow => .ok ()

/-- `record.consumed = True` -/
def consume (records : List PreparedRecord) (callId : Points) : List PreparedRecord :=
  records.map fun record =>
    if record.callId = callId then { record with consumed := true } else record

/-- A thread that has left the lock of `execute` and is about to enter an executor. -/
structure Entry (μ : Type) where
  prepared : ℕ
  callId : Points
  toolName : Points
  executor : ToolExecutor μ
  arguments : Value
  context : ToolExecutionContext
  grant : Option ApprovalGrant

/-- `execute` under the lock, for the object `prepared` and its fields. -/
def claimPrepared {μ : Type} (registry : ToolRegistry μ) (records : List PreparedRecord)
    (ref : ℕ) (prepared : PreparedToolCall) (context : Option ToolExecutionContext)
    (grant : Option ApprovalGrant) : Except Raised (Entry μ × List PreparedRecord) := do
  let context ← executionContext context
  let _ ← recordForLocked records prepared.callId ref context
  authorize prepared grant
  match loads prepared.argumentsJson with
  | none => throw (.other "JSONDecodeError")
  | some arguments =>
      let executor ← registry.executorFor prepared.toolName
      return (⟨ref, prepared.callId, prepared.toolName, executor, arguments, context, grant⟩,
        consume records prepared.callId)

/-- What `execute` makes of what the executor does. -/
def observed (toolName : Points) : Executed → Except Raised ToolObservation
  | .raises exc =>
      .error (.tool .execution
        (ofString "Tool yürütmesi başarısız (" ++ toolName ++ ofString "): " ++ exc))
  | .other =>
      .error (.tool .execution
        (ofString "Tool geçersiz sonuç döndürdü (" ++ toolName ++
          ofString "); ToolObservation gerekli."))
  | .observation result => .ok result

/-! ## Interleavings -/

/-- A call of `prepare`: what it was given, the registry it found, and what it came to. -/
structure PrepareAttempt (μ : Type) where
  registry : ToolRegistry μ
  moment : μ
  call : ToolCall
  context : ToolExecutionContext
  outcome : Except Raised ℕ

/-- A thread of `prepare` before the lock, with the object it has made. -/
structure Preparation (μ : Type) where
  registry : ToolRegistry μ
  moment : μ
  call : ToolCall
  context : ToolExecutionContext
  prepared : ℕ

/-- A dispatcher, the objects that look like prepared calls, the threads that are outside
the lock, and what has happened. -/
structure DispatchWorld (μ : Type) where
  registry : ToolRegistry μ
  records : List PreparedRecord
  objects : List PreparedToolCall
  preparing : List (Preparation μ)
  claimed : List (Entry μ)
  entered : List (Entry μ)
  attempts : List (PrepareAttempt μ)
  executions : List (Except Raised ToolObservation)

def DispatchWorld.start {μ : Type} (registry : ToolRegistry μ) : DispatchWorld μ :=
  ⟨registry, [], [], [], [], [], [], []⟩

/-- What happens next. Whoever has an object, a context and a grant can call `execute`
with them, and anyone can build an object that looks like a prepared call. -/
inductive DispatchEvent (μ : Type) where
  | register (spec : ToolSpec μ) (executor : ToolExecutor μ)
  | forge (prepared : PreparedToolCall)
  | prepare (moment : μ) (call : ToolCall) (context : ToolExecutionContext)
  | record (thread : ℕ)
  | execute (prepared : ℕ) (context : Option ToolExecutionContext) (grant : Option ApprovalGrant)
  | enter (thread : ℕ) (moment : μ)

namespace DispatchWorld

variable {μ : Type} (kit : Toolkit) (policy : PolicyEvaluator) (world : DispatchWorld μ)

def attempt (thread : Preparation μ) (outcome : Except Raised ℕ) : PrepareAttempt μ :=
  ⟨thread.registry, thread.moment, thread.call, thread.context, outcome⟩

def prepare (moment : μ) (call : ToolCall) (context : ToolExecutionContext) : DispatchWorld μ :=
  let thread : Preparation μ := ⟨world.registry, moment, call, context, world.objects.length⟩
  match prepareCall kit policy world.registry moment call context with
  | .error raised => { world with attempts := world.attempts ++ [attempt thread (.error raised)] }
  | .ok prepared =>
      { world with
        objects := world.objects ++ [prepared]
        preparing := world.preparing ++ [thread] }

def record (thread : Preparation μ) (rest : List (Preparation μ)) : DispatchWorld μ :=
  match recordPrepared world.records thread.call.callId thread.prepared thread.context with
  | .error raised =>
      { world with
        preparing := rest
        attempts := world.attempts ++ [attempt thread (.error raised)] }
  | .ok records =>
      { world with
        preparing := rest
        records := records
        attempts := world.attempts ++ [attempt thread (.ok thread.prepared)] }

def execute (ref : ℕ) (context : Option ToolExecutionContext) (grant : Option ApprovalGrant) :
    DispatchWorld μ :=
  match world.objects[ref]? with
  | none => world
  | some prepared =>
      match claimPrepared world.registry world.records ref prepared context grant with
      | .error raised => { world with executions := world.executions ++ [.error raised] }
      | .ok (entry, records) =>
          { world with records := records, claimed := world.claimed ++ [entry] }

def enter (entry : Entry μ) (rest : List (Entry μ)) (moment : μ) : DispatchWorld μ :=
  let result := observed entry.toolName (entry.executor.execute moment entry.arguments entry.context)
  { world with
    claimed := rest
    entered := world.entered ++ [entry]
    executions := world.executions ++ [result] }

def step : DispatchEvent μ → DispatchWorld μ
  | .register spec executor =>
      match world.registry.register spec executor with
      | .error _ => world
      | .ok registry => { world with registry := registry }
  | .forge prepared => { world with objects := world.objects ++ [prepared] }
  | .prepare moment call context => world.prepare kit policy moment call context
  | .record thread =>
      match world.preparing[thread]? with
      | none => world
      | some found => world.record found (world.preparing.eraseIdx thread)
  | .execute prepared context grant => world.execute prepared context grant
  | .enter thread moment =>
      match world.claimed[thread]? with
      | none => world
      | some entry => world.enter entry (world.claimed.eraseIdx thread) moment

end DispatchWorld

end Imece.ToolRuntime
