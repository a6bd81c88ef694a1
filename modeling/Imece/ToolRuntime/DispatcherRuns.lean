import Imece.ToolRuntime.Dispatcher

/-!
# Runs of a dispatcher

Whatever threads prepare and execute, in whatever order, an executor is entered at most
once for a prepared call, with the arguments its fingerprint covers, in its context, and
with the policy's leave. What leaves `prepare` is typed unless the text to be hashed
holds a surrogate, or code outside the dispatcher breaks its own contract.
-/
namespace Imece.ToolRuntime

open Lib Lib.Points

section Prepare

variable {μ : Type} {kit : Toolkit} {policy : PolicyEvaluator} {registry : ToolRegistry μ}
  {moment : μ} {call : ToolCall} {context : ToolExecutionContext}

lemma canonicalObject_loads {kind : ToolErrorKind} {value : Value} {raw : Points}
    {decoded : Value} (h : canonicalObject kind value = .ok (raw, decoded)) :
    loads raw = some decoded := by
  cases value with
  | dict entries =>
      rw [canonicalObject, except_bind_eq_ok] at h
      obtain ⟨text, -, h⟩ := h
      split at h
      · rename_i copy hloads
        cases h
        exact hloads
      · cases h
  | _ => cases h

lemma mapM_id_eq_some {found : List (Option PermissionRequest)}
    {requests : List PermissionRequest} :
    found.mapM id = some requests ↔ found = requests.map some := by
  induction found generalizing requests with
  | nil => cases requests <;> simp
  | cons first rest ih =>
      rw [List.mapM_cons]
      cases first with
      | none => cases requests <;> simp
      | some request =>
          cases hrest : rest.mapM id with
          | none =>
              have hne (others : List PermissionRequest) : rest ≠ others.map some := by
                intro hfound
                rw [ih.mpr hfound] at hrest
                cases hrest
              cases requests <;> simp [hne]
          | some others =>
              have hfound := ih.mp hrest
              cases requests with
              | nil => simp
              | cons first others' => simp [hfound, List.map_inj_right]

lemma permissionRequests_eq_ok {toolName : Points} {resolved : Resolved}
    {requests : List PermissionRequest} :
    permissionRequests toolName resolved = .ok requests ↔
      resolved = .items (requests.map some) ∧ requests ≠ [] := by
  cases resolved with
  | items found =>
      rw [permissionRequests]
      split_ifs with hempty
      · subst hempty
        cases requests <;> simp
      · constructor
        · intro h
          split at h
          · rename_i others hothers
            cases h
            have hfound := mapM_id_eq_some.mp hothers
            refine ⟨congrArg Resolved.items hfound, ?_⟩
            intro hnil
            rw [hnil] at hfound
            exact hempty hfound
          · cases h
        · intro h
          have hfound : found = requests.map some := by
            cases h.1
            rfl
          rw [mapM_id_eq_some.mpr hfound]
  | _ => simp [permissionRequests]

lemma permissionRequests_untyped {toolName : Points} {resolved : Resolved} {raised : Raised}
    (h : permissionRequests toolName resolved = .error raised) :
    raised.untyped = true ↔ ∃ className, resolved = .breaks className := by
  cases resolved with
  | items found =>
      rw [permissionRequests] at h
      split_ifs at h
      · cases h
        simp [Raised.untyped]
      · split at h
        · cases h
        · cases h
          simp [Raised.untyped]
  | breaks className =>
      cases h
      simp [Raised.untyped]
  | _ =>
      cases h
      simp [Raised.untyped]

lemma dumpsItems_pairs (pairs : List (Points × Points)) :
    ∃ texts, dumpsItems (pairs.map fun pair => .list [.str pair.1, .str pair.2]) = .ok texts := by
  induction pairs with
  | nil => exact ⟨[], rfl⟩
  | cons pair rest ih =>
      obtain ⟨texts, htexts⟩ := ih
      rw [List.map_cons, dumpsItems, htexts]
      exact ⟨_, rfl⟩

lemma itemsHaveSurrogate_pairs (pairs : List (Points × Points)) :
    itemsHaveSurrogate (pairs.map fun pair => .list [.str pair.1, .str pair.2]) =
      pairs.any fun pair => pair.1.hasSurrogate || pair.2.hasSurrogate := by
  induction pairs with
  | nil => rfl
  | cons pair rest ih =>
      rw [List.map_cons, itemsHaveSurrogate, ih]
      simp [Value.hasSurrogate, itemsHaveSurrogate]

/-- What a fingerprint hashes holds a surrogate. -/
@[grind =] def payloadHasSurrogate (toolName argumentsJson : Points)
    (requests : List PermissionRequest) : Bool :=
  toolName.hasSurrogate || argumentsJson.hasSurrogate ||
    requests.any fun request => request.action.hasSurrogate || request.resource.hasSurrogate

lemma fingerprintPayload_hasSurrogate (toolName argumentsJson : Points)
    (requests : List PermissionRequest) :
    (fingerprintPayload toolName argumentsJson requests).hasSurrogate =
      payloadHasSurrogate toolName argumentsJson requests := by
  have hsorted := List.Perm.any_eq
    (List.perm_insertionSort (fun a b : Points × Points =>
        decide (a.1 ≠ b.1 ∧ a.1.le b.1 ∨ a.1 = b.1 ∧ a.2.le b.2))
      (requests.map fun request => (request.action, request.resource)))
    (f := fun pair => pair.1.hasSurrogate || pair.2.hasSurrogate)
  rw [List.any_map] at hsorted
  simp only [fingerprintPayload, payloadHasSurrogate, Value.hasSurrogate, entriesHaveSurrogate,
    itemsHaveSurrogate_pairs, hsorted, hasSurrogate_ofString, Bool.false_or, Bool.or_false,
    Bool.or_assoc]
  rfl

/-- A fingerprint fails exactly on a payload with a surrogate, and then not by a typed
error. -/
theorem fingerprint_eq_error {toolName argumentsJson : Points}
    {requests : List PermissionRequest} {raised : Raised} :
    fingerprint kit toolName argumentsJson requests = .error raised ↔
      raised = .other "UnicodeEncodeError" ∧
        payloadHasSurrogate toolName argumentsJson requests = true := by
  have hdumps : ∃ raw, dumps (fingerprintPayload toolName argumentsJson requests) = .ok raw := by
    obtain ⟨texts, htexts⟩ := dumpsItems_pairs
      ((requests.map fun request => (request.action, request.resource)).insertionSort
        fun a b => decide (a.1 ≠ b.1 ∧ a.1.le b.1 ∨ a.1 = b.1 ∧ a.2.le b.2))
    simp only [fingerprintPayload, dumps, dumpsEntries, htexts]
    exact ⟨_, rfl⟩
  obtain ⟨raw, hraw⟩ := hdumps
  have hsurrogate := dumps_hasSurrogate hraw
  rw [fingerprintPayload_hasSurrogate] at hsurrogate
  rw [fingerprint, hraw, ← hsurrogate, ← encodeUtf8_eq_none]
  cases hbytes : encodeUtf8 raw with
  | none => simp [hbytes, eq_comm]
  | some bytes => simp [hbytes]

/-- What a call comes to when it is prepared. -/
theorem prepareCall_eq_ok {prepared : PreparedToolCall}
    (h : prepareCall kit policy registry moment call context = .ok prepared) :
    ∃ spec decoded, registry.get call.toolName = .ok spec ∧
      validateArguments kit spec.inputSchema call.arguments =
        .ok (prepared.argumentsJson, decoded) ∧
      spec.permissionResolver moment decoded context =
        .items (prepared.permissionRequests.map some) ∧
      policy.evaluate prepared.permissionRequests = .ok prepared.policyDecision ∧
      fingerprint kit call.toolName prepared.argumentsJson prepared.permissionRequests =
        .ok prepared.approvalFingerprint ∧
      prepared.callId = call.callId ∧ prepared.toolName = call.toolName := by
  simp only [prepareCall, except_bind_eq_ok] at h
  obtain ⟨spec, hspec, ⟨raw, decoded⟩, harguments, requests, hrequests, decision, hdecision,
    print, hprint, h⟩ := h
  cases h
  exact ⟨spec, decoded, hspec, harguments, (permissionRequests_eq_ok.mp hrequests).1, hdecision,
    hprint, rfl, rfl⟩

/-- What leads a call past the typed errors. -/
inductive PrepareEscapes (kit : Toolkit) (registry : ToolRegistry μ) (moment : μ)
    (call : ToolCall) (context : ToolExecutionContext) : Prop where
  | validator (spec : ToolSpec μ) (raw : Points) (decoded : Value) (className : String)
      (registered : registry.get call.toolName = .ok spec)
      (canonical : canonicalObject .inputValidation call.arguments = .ok (raw, decoded))
      (raises : kit.validate spec.inputSchema decoded = .raises className)
  | resolver (spec : ToolSpec μ) (raw : Points) (decoded : Value) (className : String)
      (registered : registry.get call.toolName = .ok spec)
      (valid : validateArguments kit spec.inputSchema call.arguments = .ok (raw, decoded))
      (breaks : spec.permissionResolver moment decoded context = .breaks className)
  | surrogate (spec : ToolSpec μ) (raw : Points) (decoded : Value)
      (requests : List PermissionRequest)
      (registered : registry.get call.toolName = .ok spec)
      (valid : validateArguments kit spec.inputSchema call.arguments = .ok (raw, decoded))
      (declares : spec.permissionResolver moment decoded context = .items (requests.map some))
      (some : requests ≠ [])
      (surrogate : call.toolName.hasSurrogate = true ∨ call.arguments.hasSurrogate = true ∨
        ∃ request ∈ requests, request.action.hasSurrogate = true ∨
          request.resource.hasSurrogate = true)

lemma get_untyped {name : Points} {raised : Raised} (h : registry.get name = .error raised) :
    raised.untyped = false := by
  rw [ToolRegistry.get] at h
  split at h <;> cases h
  rfl

lemma evaluate_ok {requests : List PermissionRequest} (h : requests ≠ []) :
    ∃ decision, policy.evaluate requests = .ok decision := by
  rw [PolicyEvaluator.evaluate, if_neg h]
  exact ⟨_, rfl⟩

lemma payloadHasSurrogate_iff {spec : ToolSpec μ} {raw : Points} {decoded : Value}
    {requests : List PermissionRequest}
    (hvalid : validateArguments kit spec.inputSchema call.arguments = .ok (raw, decoded)) :
    payloadHasSurrogate call.toolName raw requests = true ↔
      call.toolName.hasSurrogate = true ∨ call.arguments.hasSurrogate = true ∨
        ∃ request ∈ requests, request.action.hasSurrogate = true ∨
          request.resource.hasSurrogate = true := by
  rw [← canonicalObject_hasSurrogate (validateArguments_eq_ok.mp hvalid).1]
  simp [payloadHasSurrogate, or_assoc]

/-- Preparing raises something untyped exactly where the call escapes. -/
theorem prepareCall_untyped :
    (∃ raised, prepareCall kit policy registry moment call context = .error raised ∧
      raised.untyped = true) ↔ PrepareEscapes kit registry moment call context := by
  constructor
  · intro h
    obtain ⟨raised, h, huntyped⟩ := h
    rw [prepareCall] at h
    cases hspec : registry.get call.toolName with
    | error e =>
        rw [hspec] at h
        cases h
        rw [get_untyped hspec] at huntyped
        cases huntyped
    | ok spec =>
        rw [hspec] at h
        cases hvalid : validateArguments kit spec.inputSchema call.arguments with
        | error e =>
            simp only [bind, Except.bind, hvalid] at h
            cases h
            obtain ⟨raw, decoded, className, hcanonical, hraises⟩ :=
              validateArguments_untyped hvalid huntyped
            exact .validator spec raw decoded className hspec hcanonical hraises
        | ok found =>
            obtain ⟨raw, decoded⟩ := found
            simp only [bind, Except.bind, hvalid] at h
            cases hrequests : permissionRequests call.toolName
                (spec.permissionResolver moment decoded context) with
            | error e =>
                simp only [hrequests] at h
                cases h
                obtain ⟨className, hbreaks⟩ := (permissionRequests_untyped hrequests).mp huntyped
                exact .resolver spec raw decoded className hspec hvalid hbreaks
            | ok requests =>
                obtain ⟨hdeclares, hsome⟩ := permissionRequests_eq_ok.mp hrequests
                obtain ⟨decision, hdecision⟩ := @evaluate_ok policy requests hsome
                simp only [hrequests, hdecision] at h
                cases hprint : fingerprint kit call.toolName raw requests with
                | error e =>
                    have hsurrogate := (fingerprint_eq_error.mp hprint).2
                    exact .surrogate spec raw decoded requests hspec hvalid hdeclares hsome
                      ((payloadHasSurrogate_iff hvalid).mp hsurrogate)
                | ok print =>
                    simp only [hprint] at h
                    cases h
  · intro h
    cases h with
    | validator spec raw decoded className hspec hcanonical hraises =>
        refine ⟨.other className, ?_, rfl⟩
        rw [prepareCall, hspec]
        simp only [bind, Except.bind, validateArguments_raises hcanonical hraises]
    | resolver spec raw decoded className hspec hvalid hbreaks =>
        refine ⟨.other className, ?_, rfl⟩
        rw [prepareCall, hspec]
        simp only [bind, Except.bind, hvalid, hbreaks, permissionRequests]
    | surrogate spec raw decoded requests hspec hvalid hdeclares hsome hsurrogate =>
        refine ⟨.other "UnicodeEncodeError", ?_, rfl⟩
        have hrequests : permissionRequests call.toolName
            (spec.permissionResolver moment decoded context) = .ok requests :=
          permissionRequests_eq_ok.mpr ⟨hdeclares, hsome⟩
        obtain ⟨decision, hdecision⟩ := @evaluate_ok policy requests hsome
        have hprint : fingerprint kit call.toolName raw requests =
            .error (.other "UnicodeEncodeError") :=
          fingerprint_eq_error.mpr ⟨rfl, (payloadHasSurrogate_iff hvalid).mpr hsurrogate⟩
        rw [prepareCall, hspec]
        simp only [bind, Except.bind, hvalid, hrequests, hdecision, hprint]

end Prepare

section Runs

variable {μ : Type} {kit : Toolkit} {policy : PolicyEvaluator} {world : DispatchWorld μ}

/-- What is registered stays registered as it is. -/
def Extends (old new : ToolRegistry μ) : Prop :=
  ∀ name found, old.find name = some found → new.find name = some found

lemma register_extends {registry next : ToolRegistry μ} {spec : ToolSpec μ}
    {executor : ToolExecutor μ} (h : registry.register spec executor = .ok next) :
    Extends registry next := by
  intro name found hfound
  rw [ToolRegistry.register] at h
  split at h
  · cases h
  · cases h
    rw [ToolRegistry.find, Option.map_eq_some_iff] at hfound ⊢
    obtain ⟨entry, hentry, hsecond⟩ := hfound
    refine ⟨entry, ?_, hsecond⟩
    rw [List.find?_append, hentry]
    rfl

lemma executorFor_extends {old new : ToolRegistry μ} (h : Extends old new) {name : Points}
    {spec : ToolSpec μ} (hget : old.get name = .ok spec) {executor : ToolExecutor μ}
    (hexecutor : new.executorFor name = .ok executor) : old.executorFor name = .ok executor := by
  rw [ToolRegistry.get] at hget
  split at hget
  · rename_i other found hfind
    rw [ToolRegistry.executorFor, h name _ hfind] at hexecutor
    rw [ToolRegistry.executorFor, hfind]
    exact hexecutor
  · cases hget

/-- The object that preparing a call has made, among all objects, and the registry since. -/
structure Made (kit : Toolkit) (policy : PolicyEvaluator) (objects : List PreparedToolCall)
    (current registry : ToolRegistry μ) (moment : μ) (call : ToolCall)
    (context : ToolExecutionContext) (ref : ℕ) (prepared : PreparedToolCall) : Prop where
  object : objects[ref]? = some prepared
  call : prepareCall kit policy registry moment call context = .ok prepared
  registry : Extends registry current

/-- What an execution has behind it: the call that was prepared, which its tool's schema
accepts, with its arguments, its context and its executor, and the leave of the policy. -/
structure EntryAuthorised (kit : Toolkit) (policy : PolicyEvaluator) (attempt : PrepareAttempt μ)
    (entry : Entry μ) : Prop where
  outcome : attempt.outcome = .ok entry.prepared
  callId : attempt.call.callId = entry.callId
  context : attempt.context = entry.context
  executor : attempt.registry.executorFor attempt.call.toolName = .ok entry.executor
  authorised : ∃ spec raw requests print effect,
    attempt.registry.get attempt.call.toolName = .ok spec ∧
    validateArguments kit spec.inputSchema attempt.call.arguments = .ok (raw, entry.arguments) ∧
    spec.permissionResolver attempt.moment entry.arguments attempt.context =
      .items (requests.map some) ∧
    fingerprint kit attempt.call.toolName raw requests = .ok print ∧
    policy.Decides requests effect ∧
    (effect = .allow ∨ effect = .ask ∧ entry.grant = some ⟨entry.callId, print⟩)

/-- A record and the attempt that made it. -/
structure RecordOf (kit : Toolkit) (policy : PolicyEvaluator) (objects : List PreparedToolCall)
    (current : ToolRegistry μ) (record : PreparedRecord) (attempt : PrepareAttempt μ)
    (prepared : PreparedToolCall) : Prop where
  outcome : attempt.outcome = .ok record.prepared
  callId : attempt.call.callId = record.callId
  context : attempt.context = record.context
  made : Made kit policy objects current attempt.registry attempt.moment attempt.call
    attempt.context record.prepared prepared

/-- What holds after every run. -/
structure DispatchSound (kit : Toolkit) (policy : PolicyEvaluator) (world : DispatchWorld μ) :
    Prop where
  preparing : ∀ thread ∈ world.preparing, ∃ prepared, Made kit policy world.objects
    world.registry thread.registry thread.moment thread.call thread.context thread.prepared
    prepared
  records : ∀ record ∈ world.records, ∃ attempt ∈ world.attempts, ∃ prepared,
    RecordOf kit policy world.objects world.registry record attempt prepared
  callIds : (world.records.map (·.callId)).Nodup
  consumed : ∀ entry ∈ world.claimed ++ world.entered, ∃ record ∈ world.records,
    record.prepared = entry.prepared ∧ record.consumed = true
  authorised : ∀ entry ∈ world.claimed ++ world.entered, ∃ attempt ∈ world.attempts,
    EntryAuthorised kit policy attempt entry
  once : ((world.claimed ++ world.entered).map (·.prepared)).Nodup
  attempts : ∀ attempt ∈ world.attempts,
    (∃ raised, attempt.outcome = .error raised ∧ raised.untyped = true) ↔
      PrepareEscapes kit attempt.registry attempt.moment attempt.call attempt.context

section Growing

variable {objects more : List PreparedToolCall} {current next : ToolRegistry μ}

lemma Made.grows {registry : ToolRegistry μ} {moment : μ} {call : ToolCall}
    {context : ToolExecutionContext} {ref : ℕ} {prepared : PreparedToolCall}
    (h : Made kit policy objects current registry moment call context ref prepared)
    (hobjects : objects <+: more) (hregistry : Extends current next) :
    Made kit policy more next registry moment call context ref prepared := by
  obtain ⟨rest, hrest⟩ := hobjects
  refine ⟨?_, h.call, fun name found hfound => hregistry name found (h.registry name found hfound)⟩
  rw [← hrest, List.getElem?_append_left (List.getElem?_eq_some_iff.mp h.object).1]
  exact h.object

lemma RecordOf.grows {record : PreparedRecord} {attempt : PrepareAttempt μ}
    {prepared : PreparedToolCall}
    (h : RecordOf kit policy objects current record attempt prepared)
    (hobjects : objects <+: more) (hregistry : Extends current next) :
    RecordOf kit policy more next record attempt prepared :=
  ⟨h.outcome, h.callId, h.context, h.made.grows hobjects hregistry⟩

end Growing

lemma Extends.refl (registry : ToolRegistry μ) : Extends registry registry :=
  fun _ _ hfound => hfound

/-- The objects and the registry may grow. -/
lemma DispatchSound.grows (h : DispatchSound kit policy world) {more : List PreparedToolCall}
    {next : ToolRegistry μ} (hobjects : world.objects <+: more)
    (hregistry : Extends world.registry next) :
    DispatchSound kit policy { world with objects := more, registry := next } := by
  refine ⟨fun thread hthread => ?_, fun record hrecord => ?_, h.callIds, h.consumed,
    h.authorised, h.once, h.attempts⟩
  · obtain ⟨prepared, hmade⟩ := h.preparing thread hthread
    exact ⟨prepared, hmade.grows hobjects hregistry⟩
  · obtain ⟨attempt, hattempt, prepared, hof⟩ := h.records record hrecord
    exact ⟨attempt, hattempt, prepared, hof.grows hobjects hregistry⟩

lemma start_sound (registry : ToolRegistry μ) :
    DispatchSound kit policy (DispatchWorld.start registry) :=
  ⟨by simp [DispatchWorld.start], by simp [DispatchWorld.start], List.nodup_nil,
    by simp [DispatchWorld.start], by simp [DispatchWorld.start], List.nodup_nil,
    by simp [DispatchWorld.start]⟩

/-- One more attempt, which leaves the rest as it is. -/
lemma DispatchSound.attempted (h : DispatchSound kit policy world) {attempt : PrepareAttempt μ}
    (hattempt : (∃ raised, attempt.outcome = .error raised ∧ raised.untyped = true) ↔
      PrepareEscapes kit attempt.registry attempt.moment attempt.call attempt.context) :
    DispatchSound kit policy { world with attempts := world.attempts ++ [attempt] } := by
  refine ⟨h.preparing, fun record hrecord => ?_, h.callIds, h.consumed,
    fun entry hentry => ?_, h.once, fun other hother => ?_⟩
  · obtain ⟨found, hmem, hof⟩ := h.records record hrecord
    exact ⟨found, List.mem_append_left _ hmem, hof⟩
  · obtain ⟨found, hmem, hof⟩ := h.authorised entry hentry
    exact ⟨found, List.mem_append_left _ hmem, hof⟩
  · rcases List.mem_append.mp hother with hother | hother
    · exact h.attempts other hother
    · rw [List.mem_singleton.mp hother]
      exact hattempt

lemma prepare_sound (h : DispatchSound kit policy world) (moment : μ) (call : ToolCall)
    (context : ToolExecutionContext) :
    DispatchSound kit policy (world.prepare kit policy moment call context) := by
  rw [DispatchWorld.prepare]
  cases hprepare : prepareCall kit policy world.registry moment call context with
  | error raised =>
      refine h.attempted ?_
      simp only [DispatchWorld.attempt]
      rw [← @prepareCall_untyped _ kit policy, hprepare]
      simp only [Except.error.injEq]
  | ok prepared =>
      have hgrown := h.grows (List.prefix_append world.objects [prepared]) (Extends.refl _)
      refine ⟨fun thread hthread => ?_, hgrown.records, hgrown.callIds, hgrown.consumed,
        hgrown.authorised, hgrown.once, hgrown.attempts⟩
      rcases List.mem_append.mp hthread with hthread | hthread
      · exact hgrown.preparing thread hthread
      · rw [List.mem_singleton.mp hthread]
        exact ⟨prepared, List.getElem?_concat_length, hprepare, Extends.refl _⟩

/-- A thread of `prepare` that has the lock. -/
lemma record_sound (h : DispatchSound kit policy world) {thread : Preparation μ}
    (hthread : thread ∈ world.preparing) {rest : List (Preparation μ)}
    (hrest : ∀ other ∈ rest, other ∈ world.preparing) :
    DispatchSound kit policy (world.record thread rest) := by
  obtain ⟨prepared, hmade⟩ := h.preparing thread hthread
  have hleft : DispatchSound kit policy { world with preparing := rest } :=
    ⟨fun other hother => h.preparing other (hrest other hother), h.records, h.callIds, h.consumed,
      h.authorised, h.once, h.attempts⟩
  have hescapes : ¬ PrepareEscapes kit thread.registry thread.moment thread.call
      thread.context := by
    intro hescapes
    obtain ⟨raised, hraised, -⟩ := (@prepareCall_untyped _ kit policy).mpr hescapes
    rw [hmade.call] at hraised
    cases hraised
  rw [DispatchWorld.record, recordPrepared]
  cases hfound : recordFor world.records thread.call.callId with
  | some found =>
      refine hleft.attempted ?_
      simp only [DispatchWorld.attempt, hescapes, iff_false, not_exists]
      intro raised hraised
      cases hraised.1
      cases hraised.2
  | none =>
      have htyped : (∃ raised, (DispatchWorld.attempt thread (.ok thread.prepared)).outcome =
            .error raised ∧ raised.untyped = true) ↔
          PrepareEscapes kit thread.registry thread.moment thread.call thread.context := by
        simp only [DispatchWorld.attempt, hescapes, iff_false, not_exists]
        intro raised hraised
        cases hraised.1
      have hattempted := hleft.attempted htyped
      refine ⟨hattempted.preparing, fun record hrecord => ?_, ?_, fun entry hentry => ?_,
        hattempted.authorised, hattempted.once, hattempted.attempts⟩
      · rcases List.mem_append.mp hrecord with hrecord | hrecord
        · exact hattempted.records record hrecord
        · rw [List.mem_singleton.mp hrecord]
          exact ⟨_, List.mem_append_right _ (List.mem_singleton_self _), prepared, rfl, rfl, rfl,
            hmade⟩
      · rw [List.map_append, List.nodup_append]
        refine ⟨h.callIds, List.nodup_singleton _, fun callId hold other hnew => ?_⟩
        rw [List.map_singleton, List.mem_singleton] at hnew
        obtain ⟨record, hrecord, hcallId⟩ := List.mem_map.mp hold
        rintro rfl
        rw [recordFor, List.find?_eq_none] at hfound
        have hne := hfound record hrecord
        simp only [decide_eq_true_eq] at hne
        exact hne (hcallId.trans hnew)
      · obtain ⟨record, hrecord, hentry⟩ := hattempted.consumed entry hentry
        exact ⟨record, List.mem_append_left _ hrecord, hentry⟩

/-! ### Executing -/

lemma sameContext_iff {left right : ToolExecutionContext} :
    sameContext left right = true ↔ left = right := by
  cases left
  cases right
  simp [sameContext, and_assoc]

lemma recordForLocked_eq_ok {records : List PreparedRecord} {callId : Points} {ref : ℕ}
    {context : ToolExecutionContext} {record : PreparedRecord}
    (h : recordForLocked records callId ref context = .ok record) :
    record ∈ records ∧ record.callId = callId ∧ record.prepared = ref ∧
      record.context = context ∧ record.consumed = false := by
  rw [recordForLocked] at h
  split at h
  · cases h
  · rename_i found hfound
    split_ifs at h with hprepared hcontext hconsumed
    cases h
    have hcallId := List.find?_some hfound
    rw [Bool.not_eq_false, sameContext_iff] at hcontext
    exact ⟨List.mem_of_find?_eq_some hfound, by simpa using hcallId, not_not.mp hprepared,
      hcontext, by simpa using hconsumed⟩

lemma authorize_eq_ok {prepared : PreparedToolCall} {grant : Option ApprovalGrant}
    (h : authorize prepared grant = .ok ()) :
    prepared.policyDecision.effect = .allow ∨ prepared.policyDecision.effect = .ask ∧
      grant = some ⟨prepared.callId, prepared.approvalFingerprint⟩ := by
  unfold authorize at h
  split at h
  · cases h
  · rename_i heffect
    split at h
    · cases h
    · rename_i given
      split_ifs at h with hmismatch
      rw [not_or, not_not, not_not] at hmismatch
      refine Or.inr ⟨heffect, ?_⟩
      cases given
      simp only [Option.some.injEq, ApprovalGrant.mk.injEq]
      exact hmismatch
  · rename_i heffect
    exact Or.inl heffect

/-- What a thread that has left the lock of `execute` has seen. -/
lemma claimPrepared_eq_ok {registry : ToolRegistry μ} {records left : List PreparedRecord}
    {ref : ℕ} {prepared : PreparedToolCall} {context : Option ToolExecutionContext}
    {grant : Option ApprovalGrant} {entry : Entry μ}
    (h : claimPrepared registry records ref prepared context grant = .ok (entry, left)) :
    (∃ record ∈ records, record.callId = prepared.callId ∧ record.prepared = ref ∧
      record.context = entry.context ∧ record.consumed = false) ∧
    entry.prepared = ref ∧ entry.callId = prepared.callId ∧
    (prepared.policyDecision.effect = .allow ∨ prepared.policyDecision.effect = .ask ∧
      entry.grant = some ⟨prepared.callId, prepared.approvalFingerprint⟩) ∧
    loads prepared.argumentsJson = some entry.arguments ∧
    registry.executorFor prepared.toolName = .ok entry.executor ∧
    left = consume records prepared.callId := by
  simp only [claimPrepared, except_bind_eq_ok] at h
  obtain ⟨given, -, record, hrecord, _, hauthorize, h⟩ := h
  obtain ⟨hmem, hcallId, hprepared, hcontext, hconsumed⟩ := recordForLocked_eq_ok hrecord
  split at h
  · cases h
  · rename_i arguments harguments
    rw [except_bind_eq_ok] at h
    obtain ⟨executor, hexecutor, h⟩ := h
    cases h
    exact ⟨⟨record, hmem, hcallId, hprepared, hcontext, hconsumed⟩, rfl, rfl,
      authorize_eq_ok hauthorize, harguments, hexecutor, rfl⟩

lemma consume_callIds (records : List PreparedRecord) (callId : Points) :
    (consume records callId).map (·.callId) = records.map (·.callId) := by
  rw [consume, List.map_map]
  refine List.map_congr_left fun record _ => ?_
  simp only [Function.comp_apply]
  split_ifs <;> rfl

lemma mem_consume {records : List PreparedRecord} {callId : Points} {record : PreparedRecord}
    (h : record ∈ consume records callId) :
    ∃ old ∈ records, record.callId = old.callId ∧ record.prepared = old.prepared ∧
      record.context = old.context := by
  obtain ⟨old, hold, rfl⟩ := List.mem_map.mp h
  refine ⟨old, hold, ?_⟩
  split_ifs <;> exact ⟨rfl, rfl, rfl⟩

lemma consume_consumed {records : List PreparedRecord} {callId : Points} {old : PreparedRecord}
    (hold : old ∈ records) (hconsumed : old.callId = callId ∨ old.consumed = true) :
    ∃ record ∈ consume records callId, record.prepared = old.prepared ∧
      record.consumed = true := by
  refine ⟨_, List.mem_map_of_mem hold, ?_⟩
  split_ifs with hcallId
  · exact ⟨rfl, rfl⟩
  · exact ⟨rfl, hconsumed.resolve_left hcallId⟩

/-- A thread that gets past the lock of `execute`. -/
lemma execute_sound (h : DispatchSound kit policy world) (ref : ℕ)
    (context : Option ToolExecutionContext) (grant : Option ApprovalGrant) :
    DispatchSound kit policy (world.execute ref context grant) := by
  rw [DispatchWorld.execute]
  cases hobject : world.objects[ref]? with
  | none => exact h
  | some prepared =>
      cases hclaim : claimPrepared world.registry world.records ref prepared context grant with
      | error raised =>
          simp only [hclaim]
          exact ⟨h.preparing, h.records, h.callIds, h.consumed, h.authorised, h.once, h.attempts⟩
      | ok found =>
          obtain ⟨entry, records⟩ := found
          simp only [hclaim]
          obtain ⟨⟨record, hrecord, hcallId, hprepared, hcontext, hconsumed⟩, hentry, hid, hleave,
            harguments, hexecutor, rfl⟩ := claimPrepared_eq_ok hclaim
          obtain ⟨attempt, hattempt, made, hof⟩ := h.records record hrecord
          have hmade : made = prepared := by
            have hsame := hof.made.object
            rw [hprepared, hobject] at hsame
            exact (Option.some.inj hsame).symm
          subst hmade
          obtain ⟨spec, decoded, hspec, hvalid, hresolved, hdecision, hprint, hcall, htool⟩ :=
            prepareCall_eq_ok hof.made.call
          have hdecoded : decoded = entry.arguments := by
            have hloads := canonicalObject_loads (validateArguments_eq_ok.mp hvalid).1
            rw [harguments] at hloads
            exact (Option.some.inj hloads).symm
          subst hdecoded
          have hauthorised : EntryAuthorised kit policy attempt entry := by
            rw [htool] at hexecutor
            refine ⟨hentry ▸ hprepared ▸ hof.outcome, ?_, hof.context.trans hcontext,
              executorFor_extends hof.made.registry hspec hexecutor, spec, made.argumentsJson,
              made.permissionRequests, made.approvalFingerprint, made.policyDecision.effect,
              hspec, hvalid, hresolved, hprint, PolicyEvaluator.evaluate_decides hdecision, ?_⟩
            · rw [hid, hcall]
            · rw [hid]
              exact hleave
          have hfresh : ∀ other ∈ world.claimed ++ world.entered,
              other.prepared ≠ entry.prepared := by
            intro other hother hsame
            obtain ⟨found, hfound, hfoundPrepared, hfoundConsumed⟩ := h.consumed other hother
            obtain ⟨_, _, foundMade, hfoundOf⟩ := h.records found hfound
            have hobjects := hfoundOf.made.object
            rw [hfoundPrepared, hsame, hentry, hobject] at hobjects
            cases hobjects
            obtain ⟨-, -, -, -, -, -, -, hfoundCall, -⟩ := prepareCall_eq_ok hfoundOf.made.call
            have hids : found.callId = record.callId := by
              rw [← hfoundOf.callId, ← hfoundCall, hcallId]
            have hrecords := List.inj_on_of_nodup_map h.callIds hfound hrecord hids
            rw [hrecords, hconsumed] at hfoundConsumed
            cases hfoundConsumed
          refine ⟨h.preparing, fun record hrecord => ?_, ?_, fun other hother => ?_,
            fun other hother => ?_, ?_, h.attempts⟩
          · obtain ⟨old, hold, hcallId, hprepared, hcontext⟩ := mem_consume hrecord
            obtain ⟨attempt, hattempt, made, hof⟩ := h.records old hold
            exact ⟨attempt, hattempt, made, hprepared ▸ hof.outcome, hof.callId.trans hcallId.symm,
              hof.context.trans hcontext.symm, hprepared ▸ hof.made⟩
          · rw [consume_callIds]
            exact h.callIds
          · rw [List.append_assoc, List.mem_append, List.singleton_append, List.mem_cons] at hother
            rcases hother with hother | rfl | hother
            · obtain ⟨found, hfound, hsame, hused⟩ :=
                h.consumed other (List.mem_append_left _ hother)
              rw [← hsame]
              exact consume_consumed hfound (Or.inr hused)
            · rw [hentry, ← hprepared]
              exact consume_consumed hrecord (Or.inl hcallId)
            · obtain ⟨found, hfound, hsame, hused⟩ :=
                h.consumed other (List.mem_append_right _ hother)
              rw [← hsame]
              exact consume_consumed hfound (Or.inr hused)
          · rw [List.append_assoc, List.mem_append, List.singleton_append, List.mem_cons] at hother
            rcases hother with hother | rfl | hother
            · exact h.authorised other (List.mem_append_left _ hother)
            · exact ⟨attempt, hattempt, hauthorised⟩
            · exact h.authorised other (List.mem_append_right _ hother)
          · have hperm : (world.claimed ++ [entry] ++ world.entered).Perm
                (entry :: (world.claimed ++ world.entered)) := by
              rw [List.append_assoc]
              exact List.perm_middle
            rw [(hperm.map _).nodup_iff, List.map_cons, List.nodup_cons]
            refine ⟨fun hmem => ?_, h.once⟩
            obtain ⟨other, hother, hsame⟩ := List.mem_map.mp hmem
            exact hfresh other hother hsame

lemma getElem?_eraseIdx_perm {α : Type} {items : List α} {i : ℕ} {item : α}
    (h : items[i]? = some item) : (item :: items.eraseIdx i).Perm items := by
  obtain ⟨hi, rfl⟩ := List.getElem?_eq_some_iff.mp h
  exact List.getElem_cons_eraseIdx_perm hi

/-- A thread that enters its executor. -/
lemma enter_sound (h : DispatchSound kit policy world) {entry : Entry μ} {rest : List (Entry μ)}
    (hrest : (entry :: rest).Perm world.claimed) (moment : μ) :
    DispatchSound kit policy (world.enter entry rest moment) := by
  have hperm : (rest ++ (world.entered ++ [entry])).Perm (world.claimed ++ world.entered) := by
    rw [← List.append_assoc]
    calc (rest ++ world.entered ++ [entry]).Perm (entry :: (rest ++ world.entered)) :=
          List.perm_append_singleton entry _
      List.Perm _ (world.claimed ++ world.entered) := hrest.append_right world.entered
  refine ⟨h.preparing, h.records, h.callIds, fun other hother => ?_, fun other hother => ?_, ?_,
    h.attempts⟩
  · exact h.consumed other (hperm.mem_iff.mp hother)
  · exact h.authorised other (hperm.mem_iff.mp hother)
  · exact (hperm.map _).nodup_iff.mpr h.once

theorem step_sound (h : DispatchSound kit policy world) (event : DispatchEvent μ) :
    DispatchSound kit policy (world.step kit policy event) := by
  cases event with
  | register spec executor =>
      rw [DispatchWorld.step]
      cases hregister : world.registry.register spec executor with
      | error raised => exact h
      | ok registry => exact h.grows List.prefix_rfl (register_extends hregister)
  | forge prepared => exact h.grows (List.prefix_append _ _) (Extends.refl _)
  | prepare moment call context => exact prepare_sound h moment call context
  | record thread =>
      rw [DispatchWorld.step]
      cases hthread : world.preparing[thread]? with
      | none => exact h
      | some found =>
          exact record_sound h (List.mem_of_getElem? hthread)
            fun other hother => List.mem_of_mem_eraseIdx hother
  | execute prepared context grant => exact execute_sound h prepared context grant
  | enter thread moment =>
      rw [DispatchWorld.step]
      cases hthread : world.claimed[thread]? with
      | none => exact h
      | some entry => exact enter_sound h (getElem?_eraseIdx_perm hthread) moment

/-- After every run, no prepared call has entered an executor twice, all that have were
authorised, and what `prepare` has raised is typed except for the calls that escape. -/
theorem dispatcher (kit : Toolkit) (policy : PolicyEvaluator) (registry : ToolRegistry μ)
    (events : List (DispatchEvent μ)) :
    let world := Machine.run (DispatchWorld.step kit policy) (.start registry) events
    (world.entered.map (·.prepared)).Nodup ∧
    (∀ entry ∈ world.entered, ∃ attempt ∈ world.attempts,
      EntryAuthorised kit policy attempt entry) ∧
    ∀ attempt ∈ world.attempts,
      (∀ raised, attempt.outcome = .error raised → raised.untyped = false) ↔
        ¬ PrepareEscapes kit attempt.registry attempt.moment attempt.call attempt.context := by
  intro world
  have hsound : DispatchSound kit policy world :=
    @Machine.run_invariant _ _ _ (DispatchSound kit policy) (fun _ event h => step_sound h event) _
      (start_sound registry) events
  refine ⟨?_, fun entry hentry => ?_, fun attempt hattempt => ?_⟩
  · have honce := hsound.once
    rw [List.map_append] at honce
    exact honce.of_append_right
  · exact hsound.authorised entry (List.mem_append_right _ hentry)
  · rw [← hsound.attempts attempt hattempt]
    simp only [not_exists, not_and, Bool.not_eq_true]

end Runs

section Samples

/-- A validator that accepts every object, as for the schema `{"type": "object"}`. -/
def sampleKit : Toolkit := ⟨fun _ _ => .valid, fun _ => ofString "digest"⟩

def sampleSpec : ToolSpec Unit where
  name := ofString "workspace_edit"
  inputSchema := .dict [(.str (ofString "type"), .str (ofString "object"))]
  permissionResolver := fun _ _ _ =>
    .items [some ⟨ofString "workspace.edit", ofString "notes.txt"⟩]

def sampleRegistry : ToolRegistry Unit :=
  ⟨[(sampleSpec.name, sampleSpec, ⟨fun _ _ _ => .observation ⟨[], .dict []⟩⟩)]⟩

/-- The text of the edit is the one string that JSON's escape `"\ud800"` denotes. -/
def surrogateCall : ToolCall where
  callId := ofString "call-1"
  toolName := sampleSpec.name
  arguments := .dict [(.str (ofString "content"), .str [.surrogate 0])]

/-- A call whose arguments hold a lone surrogate, under any policy that allows edits. -/
theorem dispatcher_surrogate :
    let world := Machine.run
      (DispatchWorld.step sampleKit ⟨[⟨ofString "*", ofString "*", .allow⟩], .ask⟩)
      (.start sampleRegistry) [.prepare () surrogateCall ⟨0, none, none⟩]
    world.attempts.map (·.outcome) = [.error (.other "UnicodeEncodeError")] := by
  decide +kernel

/-- With a text that can be encoded, the same call is prepared and its executor entered. -/
example :
    let call : ToolCall := { surrogateCall with
      arguments := .dict [(.str (ofString "content"), .str (ofString "a"))] }
    let world := Machine.run
      (DispatchWorld.step sampleKit ⟨[⟨ofString "*", ofString "*", .allow⟩], .ask⟩)
      (.start sampleRegistry)
      [.prepare () call ⟨0, none, none⟩, .record 0, .execute 0 (some ⟨0, none, none⟩) none,
        .enter 0 (), .execute 0 (some ⟨0, none, none⟩) none]
    world.entered.map (·.prepared) = [0] ∧ world.executions.length = 2 := by
  decide +kernel

end Samples

end Imece.ToolRuntime
