import Imece.AcpRuntime.Permissions
import Imece.AcpRuntime.Run

/-!
# How a run of the ACP client ends

The check after the prompt's wait settles which fatal error the run raises, and teardown
runs once from whichever await the body left. For each stage it is said what has been
done when the run is at it.
-/
namespace Imece.AcpRuntime

open Lib

section Callbacks

variable {ω ρ : Type} {env : Surroundings ω ρ} {client : Client ω ρ} {error : AcpRuntimeError}

lemma trigger_keeps (h : client.fatal.error = some error) (other : AcpRuntimeError) :
    (client.trigger other).fatal.error = some error := by
  show (if client.fatal.error.isNone then some other else client.fatal.error) = some error
  rw [h]
  rfl

lemma emit_keeps (h : client.fatal.error = some error) (event : AcpRuntimeEvent ρ) :
    (client.emit env event).1.fatal.error = some error := by
  unfold Client.emit
  cases env.emit client.world event with
  | mk world failure =>
      cases failure with
      | none => exact h
      | some exc => exact trigger_keeps h _

lemma trackToolCall_keeps (h : client.fatal.error = some error) (update : SessionUpdate ρ) :
    (client.trackToolCall update).fatal.error = some error := by
  obtain ⟨toolCalls, heq⟩ := trackToolCall_frame client update
  rw [heq]
  exact h

/-- A fatal error stays the first one, whatever the agent sends. -/
lemma sessionUpdate_keeps (h : client.fatal.error = some error) (limits : AcpClientLimits)
    (sessionId : String) (update : SessionUpdate ρ) :
    (client.sessionUpdate limits env sessionId update).fatal.error = some error := by
  unfold Client.sessionUpdate
  by_cases hevent : client.fatal.event = true
  · rw [if_pos hevent]
    exact h
  rw [if_neg hevent]
  by_cases hforeign : client.sessionId ≠ some sessionId
  · rw [if_pos hforeign]
    exact trigger_keeps h _
  rw [if_neg hforeign]
  cases update.dump with
  | error exc => exact trigger_keeps h _
  | ok size =>
      simp only
      split_ifs
      · exact trigger_keeps h _
      · exact trigger_keeps h _
      · exact trigger_keeps h _
      · refine emit_keeps ?_ _
        refine trackToolCall_keeps ?_ _
        exact h

lemma settle_keeps (h : client.fatal.error = some error) (sessionId : String)
    (toolCall : ToolCall ρ) (options : List PermissionOption) :
    (client.settle env sessionId toolCall options).fatal.error = some error := by
  unfold Client.settle
  cases env.decide client.world (client.merged toolCall options) with
  | mk world outcome =>
      show (Client.emit env { client with world }
        (Client.resolvedEvent sessionId toolCall options (Client.decided outcome))).1.fatal.error = _
      refine emit_keeps ?_ _
      exact h

lemma requestPermission_keeps (h : client.fatal.error = some error) (sessionId : String)
    (toolCall : ToolCall ρ) (options : List PermissionOption) :
    (client.requestPermission env sessionId toolCall options).fatal.error = some error := by
  unfold Client.requestPermission
  by_cases hevent : client.fatal.event = true
  · rw [if_pos hevent]
    exact h
  rw [if_neg hevent]
  by_cases hforeign : client.sessionId ≠ some sessionId
  · rw [if_pos hforeign]
    exact trigger_keeps h _
  rw [if_neg hforeign]
  have hemitted := @emit_keeps _ _ env _ _ h (Client.requestedEvent sessionId toolCall options)
  cases hemit : client.emit env (Client.requestedEvent sessionId toolCall options) with
  | mk after accepted =>
      rw [hemit] at hemitted
      cases accepted with
      | false => exact hemitted
      | true =>
          show (Client.settle env { after with
            permissionRequestCount := after.permissionRequestCount + 1 } sessionId toolCall
              options).fatal.error = _
          refine settle_keeps ?_ _ _ _
          exact hemitted

end Callbacks

namespace Run

variable {ω ρ : Type} (setting : RunSetting ω ρ) (run : Run ω ρ)

/-- The stages of teardown before the connection is closed. -/
def closing : List Teardown := if run.hasSessionClose then [.closeSession] else []

/-- The body is still running: nothing of teardown is done. -/
structure Running : Prop where
  connected : run.connected = true
  teardown : run.teardown = []
  cleanupError : run.cleanupError = none

/-- Teardown has come to some stage. -/
structure Torn (stages : List Teardown) : Prop where
  connected : run.connected = true
  teardown : run.teardown = run.closing ++ stages

/-- The prompt has ended, and the check after its wait saw no fatal error. -/
structure Completed : Prop where
  checked : run.checked = some none
  prompt : (run.ends .prompt).isSome = true
  sessionId : run.sessionId.isSome = true

/-- What the check saw, by what it decided on. -/
def Decided : Verdict → Prop
  | .fatal => ∃ error, run.checked = some (some error)
  | _ => run.checked = some none

/-- What the body may end with, by what the check saw. -/
def Fits : Body → Prop
  | .result found => run.checked = some none ∧
      run.ends .prompt = some (.result found.stopReason) ∧ run.sessionId = some found.sessionId
  | .failed error => ∀ fatal, run.checked = some (some fatal) → error = fatal
  | .cancelled => ∀ fatal, run.checked = some (some fatal) → run.callerCancelled = true
  | .escaped _ => ∀ fatal, run.checked ≠ some (some fatal)

/-- What has been done when the run has ended with an outcome. -/
structure Settled (outcome : Outcome) : Prop where
  teardown : run.teardown = if run.connected then
    run.closing ++ [.closeConnection, .terminateTree, .drain] else []
  cleanup : ∀ text, run.cleanupError = some text → outcome = .raised (.cleanup text)
  fatal : ∀ error, run.checked = some (some error) → outcome = .raised error ∨
    (∃ text, run.cleanupError = some text) ∨ outcome = .cancelled ∧ run.callerCancelled = true
  returned : ∀ result, outcome = .returned result → run.checked = some none ∧
    run.ends .prompt = some (.result result.stopReason) ∧ run.sessionId = some result.sessionId
  owned : run.cleanupError = none → run.owned = []

/-- What has been done when the run is at a stage. -/
def At : Stage → Prop
  | .connecting => run.connected = false ∧ run.teardown = [] ∧ run.cleanupError = none ∧
      run.checked = none ∧ run.owned = []
  | .initializing => run.Running ∧ run.checked = none
  | .openingSession => run.Running ∧ run.checked = none
  | .waiting => run.Running ∧ run.checked = none ∧ run.sessionId.isSome = true
  | .sendingCancel verdict => run.Running ∧ run.Decided verdict
  | .settlingPrompt verdict => run.Running ∧ run.Decided verdict
  | .retiringFatal => run.Running ∧ run.Completed
  | .retiringWatch => run.Running ∧ run.Completed
  | .closingSession body => run.Torn [] ∧ run.Fits body
  | .closingConnection body => run.Torn [.closeConnection] ∧ run.Fits body
  | .terminating body => run.Torn [.closeConnection, .terminateTree] ∧ run.Fits body
  | .draining body _ => run.Torn [.closeConnection, .terminateTree, .drain] ∧ run.Fits body
  | .cleaned error body => run.Torn [.closeConnection, .terminateTree, .drain] ∧ run.Fits body ∧
      error = run.cleanupError ∧ (error = none → run.owned = [])
  | .finished outcome => run.Settled outcome

/-- A fatal error that the check saw is still there, and cleanup is cancelled by the caller. -/
structure Steady : Prop where
  seen : ∀ error, run.checked = some (some error) → run.client.fatal.error = some error
  cancelled : run.cleanupCancelled = true → run.callerCancelled = true

/-- What holds at every point of a run. -/
structure Standing : Prop where
  steady : run.Steady
  here : run.At run.stage

variable {setting run} {body : Body}

/-- The steps of teardown change what the body may end with no more than other tasks do. -/
lemma Fits.moved {other : Run ω ρ} (h : run.Fits body) (hchecked : other.checked = run.checked)
    (hprompt : other.ends .prompt = run.ends .prompt) (hsession : other.sessionId = run.sessionId)
    (hcaller : other.callerCancelled = run.callerCancelled) : other.Fits body := by
  cases body with
  | result found => exact ⟨hchecked.trans h.1, hprompt.trans h.2.1, hsession.trans h.2.2⟩
  | failed error => exact fun fatal hfatal => h fatal (hchecked.symm.trans hfatal)
  | cancelled => exact fun fatal hfatal => hcaller.trans (h fatal (hchecked.symm.trans hfatal))
  | escaped className => exact fun fatal hfatal => h fatal (hchecked.symm.trans hfatal)

lemma Fits.closed (h : run.Fits body) (succeeded : Option Bool) :
    run.Fits (body.closed succeeded) := by
  cases body <;> exact h

lemma Fits.disconnected (h : run.Fits body) (failure : Option String) :
    run.Fits (body.disconnected failure) := by
  cases failure with
  | none => exact h
  | some text =>
      cases body with
      | result found =>
          intro fatal hfatal
          rw [h.1] at hfatal
          cases hfatal
      | failed error => exact h
      | cancelled => exact h
      | escaped className => exact h

lemma own_prompt (task : RunTask) (h : task ≠ .prompt) :
    (run.own task).ends .prompt = run.ends .prompt := by
  show Function.update run.ends task none .prompt = run.ends .prompt
  exact Function.update_of_ne h.symm _ _

lemma finish_standing {error : Option String} (h : run.Steady)
    (hat : run.At (.cleaned error body)) : (run.finish error body).Standing := by
  obtain ⟨htorn, hfits, rfl, howned⟩ := hat
  refine ⟨⟨h.seen, h.cancelled⟩, ?_, ?_, ?_, ?_, howned⟩
  · show run.teardown = if run.connected = true then
      run.closing ++ [.closeConnection, .terminateTree, .drain] else []
    rw [if_pos htorn.connected]
    exact htorn.teardown
  · intro text htext
    replace htext : run.cleanupError = some text := htext
    simp only [htext]
  · intro error herror
    replace herror : run.checked = some (some error) := herror
    cases hcleanup : run.cleanupError with
    | some text => exact .inr (.inl ⟨text, hcleanup⟩)
    | none =>
        cases body with
        | result found =>
            rw [hfits.1] at herror
            cases herror
        | escaped className => exact absurd herror (hfits error)
        | cancelled => exact .inr (.inr ⟨rfl, hfits error herror⟩)
        | failed raised =>
            obtain rfl := hfits error herror
            by_cases hcancelled : run.cleanupCancelled = true
            · exact .inr (.inr ⟨if_pos hcancelled, h.cancelled hcancelled⟩)
            · exact .inl (if_neg hcancelled)
  · intro result hresult
    cases hcleanup : run.cleanupError with
    | some text =>
        simp only [hcleanup] at hresult
        cases hresult
    | none =>
        cases body with
        | result found =>
            simp only [hcleanup] at hresult
            by_cases hcancelled : run.cleanupCancelled = true
            · rw [if_pos hcancelled] at hresult
              cases hresult
            · rw [if_neg hcancelled] at hresult
              cases hresult
              exact hfits
        | escaped className =>
            simp only [hcleanup] at hresult
            cases hresult
        | cancelled =>
            simp only [hcleanup] at hresult
            cases hresult
        | failed raised =>
            simp only [hcleanup] at hresult
            split_ifs at hresult

lemma drained_standing (h : run.Steady) {pending : List RunTask}
    (htorn : run.Torn [.closeConnection, .terminateTree, .drain]) (hfits : run.Fits body) :
    (run.drained body pending).Standing := by
  refine ⟨⟨h.seen, h.cancelled⟩, ⟨htorn.connected, htorn.teardown⟩, ?_, rfl, ?_⟩
  · exact hfits.moved rfl rfl rfl rfl
  · intro hnone
    simp only at hnone
    split_ifs at hnone with hempty
    · rw [Bool.and_eq_true, List.isEmpty_iff, List.isEmpty_iff] at hempty
      exact hempty.2
    · cases hcleanup : run.cleanupError <;> rw [hcleanup] at hnone <;> cases hnone

lemma drain_standing (h : run.Steady) (htorn : run.Torn [.closeConnection, .terminateTree])
    (hfits : run.Fits body) : (run.drain body).Standing := by
  have hdone : run.teardown ++ [Teardown.drain] =
      run.closing ++ [.closeConnection, .terminateTree, .drain] := by
    rw [htorn.teardown, List.append_assoc]
    rfl
  unfold drain
  simp only
  split_ifs
  · apply drained_standing
    · exact ⟨h.seen, h.cancelled⟩
    · exact ⟨htorn.connected, hdone⟩
    · exact hfits.moved rfl rfl rfl rfl
  · exact ⟨⟨h.seen, h.cancelled⟩, ⟨htorn.connected, hdone⟩, hfits.moved rfl rfl rfl rfl⟩

lemma terminated_standing (h : run.Steady)
    (htorn : run.Torn [.closeConnection, .terminateTree]) (hfits : run.Fits body) :
    (terminated setting run body).Standing := by
  unfold terminated
  cases setting.terminate with
  | ok done => exact drain_standing h htorn hfits
  | error text =>
      refine drain_standing ⟨h.seen, h.cancelled⟩ ⟨htorn.connected, htorn.teardown⟩ ?_
      exact hfits.moved rfl rfl rfl rfl

lemma awaitBounded_eq (task : RunTask) :
    run.awaitBounded task = { run with owned := (run.awaitBounded task).owned } := by
  unfold awaitBounded
  split_ifs <;> rfl

lemma connectionClosed_standing (h : run.Steady) (htorn : run.Torn [.closeConnection])
    (hfits : run.Fits body) : (run.connectionClosed body).Standing := by
  have hdone : run.teardown ++ [Teardown.terminateTree] =
      run.closing ++ [.closeConnection, .terminateTree] := by
    rw [htorn.teardown, List.append_assoc]
    rfl
  unfold connectionClosed
  rw [awaitBounded_eq]
  refine ⟨⟨h.seen, h.cancelled⟩, ⟨htorn.connected, hdone⟩, ?_⟩
  exact (hfits.disconnected _).moved rfl rfl rfl rfl

lemma closeConnection_standing (h : run.Steady) (htorn : run.Torn []) (hfits : run.Fits body) :
    (run.closeConnection body).Standing := by
  have hdone : run.teardown ++ [Teardown.closeConnection] = run.closing ++ [.closeConnection] := by
    rw [htorn.teardown, List.append_nil]
  refine ⟨⟨h.seen, h.cancelled⟩, ⟨htorn.connected, hdone⟩, hfits.moved rfl ?_ rfl rfl⟩
  exact own_prompt .closeConnection (by decide)

lemma sessionClosed_standing (h : run.Steady) (htorn : run.Torn []) (hfits : run.Fits body) :
    (run.sessionClosed body).Standing := by
  unfold sessionClosed
  rw [awaitBounded_eq]
  refine closeConnection_standing ⟨h.seen, h.cancelled⟩ ⟨htorn.connected, htorn.teardown⟩ ?_
  exact (hfits.closed _).moved rfl rfl rfl rfl

lemma closeSession_standing (h : run.Steady) (hconnected : run.connected = true)
    (hteardown : run.teardown = []) (hfits : run.Fits body) :
    (run.closeSession body).Standing := by
  unfold closeSession
  by_cases hclose : run.hasSessionClose = true
  · rw [if_pos hclose]
    have hclosing : run.teardown ++ [Teardown.closeSession] = run.closing ++ [] := by
      rw [hteardown, closing, if_pos hclose]
      rfl
    refine ⟨⟨h.seen, h.cancelled⟩, ⟨hconnected, hclosing⟩, hfits.moved rfl ?_ rfl rfl⟩
    exact own_prompt .closeSession (by decide)
  · rw [if_neg hclose]
    refine closeConnection_standing h ⟨hconnected, ?_⟩ (hfits.closed none)
    rw [hteardown, closing, if_neg hclose]
    rfl

/-- From whichever await the body is left, teardown begins. -/
lemma cleanup_standing (h : run.Steady) (hrunning : run.Running) (hfits : run.Fits body) :
    (cleanup setting run body).Standing := by
  unfold cleanup
  cases setting.capture with
  | ok done => exact closeSession_standing h hrunning.connected hrunning.teardown hfits
  | error text =>
      apply closeSession_standing
      · exact ⟨h.seen, h.cancelled⟩
      · exact hrunning.connected
      · exact hrunning.teardown
      · exact hfits.moved rfl rfl rfl rfl

lemma callFailed_fits {α : Type} (what : String) (reply : TaskEnd α)
    (hchecked : run.checked = none) : run.Fits (callFailed what reply) := by
  have hunseen (error : AcpRuntimeError) : run.checked ≠ some (some error) := by
    rw [hchecked]
    simp
  cases reply with
  | result value => exact fun fatal hfatal => absurd hfatal (hunseen fatal)
  | requestError code text => exact fun fatal hfatal => absurd hfatal (hunseen fatal)
  | failed text => exact fun fatal hfatal => absurd hfatal (hunseen fatal)
  | cancelled => exact fun fatal hfatal => absurd hfatal (hunseen fatal)

lemma initialized_standing (h : run.Steady) (hrunning : run.Running) (hchecked : run.checked = none)
    (reply : TaskEnd InitializeResponse) : (initialized setting run reply).Standing := by
  have hunseen (error : AcpRuntimeError) : run.checked ≠ some (some error) := by
    rw [hchecked]
    simp
  cases reply with
  | result response =>
      simp only [initialized]
      cases response.agentCapabilities with
      | none =>
          apply cleanup_standing
          · exact ⟨h.seen, h.cancelled⟩
          · exact ⟨hrunning.connected, hrunning.teardown, hrunning.cleanupError⟩
          · exact hunseen
      | some capabilities =>
          exact ⟨⟨h.seen, h.cancelled⟩,
            ⟨hrunning.connected, hrunning.teardown, hrunning.cleanupError⟩, hchecked⟩
  | requestError code text => exact cleanup_standing h hrunning (callFailed_fits _ _ hchecked)
  | failed text => exact cleanup_standing h hrunning (callFailed_fits _ _ hchecked)
  | cancelled => exact cleanup_standing h hrunning (callFailed_fits _ _ hchecked)

lemma runPrompt_standing (h : run.Steady) (hrunning : run.Running) (hchecked : run.checked = none)
    (hsession : run.sessionId.isSome = true) : (runPrompt setting run).Standing := by
  unfold runPrompt
  simp only
  split_ifs
  · exact ⟨⟨h.seen, h.cancelled⟩,
      ⟨hrunning.connected, hrunning.teardown, hrunning.cleanupError⟩, hchecked, hsession⟩
  · exact ⟨⟨h.seen, h.cancelled⟩,
      ⟨hrunning.connected, hrunning.teardown, hrunning.cleanupError⟩, hchecked, hsession⟩

lemma sessionOpened_standing (h : run.Steady) (hrunning : run.Running)
    (hchecked : run.checked = none) (reply : TaskEnd (Option String)) :
    (sessionOpened setting run reply).Standing := by
  have hunseen (error : AcpRuntimeError) : run.checked ≠ some (some error) := by
    rw [hchecked]
    simp
  cases reply with
  | result sessionId =>
      have hempty : (cleanup setting { run with sessionId } (.failed emptySession)).Standing := by
        apply cleanup_standing
        · exact ⟨h.seen, h.cancelled⟩
        · exact ⟨hrunning.connected, hrunning.teardown, hrunning.cleanupError⟩
        · exact fun fatal hfatal => absurd hfatal (hunseen fatal)
      simp only [sessionOpened]
      cases sessionId with
      | none => exact hempty
      | some sessionId =>
          by_cases hblank : sessionId = ""
          · simp only [if_pos hblank]
            exact hempty
          · simp only [if_neg hblank]
            apply runPrompt_standing
            · exact ⟨h.seen, h.cancelled⟩
            · exact ⟨hrunning.connected, hrunning.teardown, hrunning.cleanupError⟩
            · exact hchecked
            · rfl
  | requestError code text => exact cleanup_standing h hrunning (callFailed_fits _ _ hchecked)
  | failed text => exact cleanup_standing h hrunning (callFailed_fits _ _ hchecked)
  | cancelled => exact cleanup_standing h hrunning (callFailed_fits _ _ hchecked)

lemma retireIfDone_eq (task : RunTask) :
    run.retireIfDone task = { run with owned := (run.retireIfDone task).owned } := by
  unfold retireIfDone
  split_ifs <;> rfl

lemma conclude_standing (h : run.Steady) (hrunning : run.Running) {verdict : Verdict}
    (hdecided : run.Decided verdict) : (conclude setting run verdict).Standing := by
  unfold conclude
  rw [retireIfDone_eq .watchCancel, retireIfDone_eq .fatal]
  apply cleanup_standing
  · exact ⟨h.seen, h.cancelled⟩
  · exact ⟨hrunning.connected, hrunning.teardown, hrunning.cleanupError⟩
  · cases verdict with
    | fatal =>
        obtain ⟨error, hchecked⟩ := hdecided
        have hfatal := h.seen error hchecked
        simp only [hfatal]
        intro fatal hsame
        replace hsame : run.checked = some (some fatal) := hsame
        rw [hchecked] at hsame
        exact Option.some.inj (Option.some.inj hsame)
    | cancelled =>
        intro fatal hfatal
        cases hdecided.symm.trans hfatal
    | timedOut =>
        intro fatal hfatal
        cases hdecided.symm.trans hfatal

lemma Decided.moved {other : Run ω ρ} {verdict : Verdict} (h : run.Decided verdict)
    (hchecked : other.checked = run.checked) : other.Decided verdict := by
  cases verdict with
  | fatal =>
      obtain ⟨error, herror⟩ := h
      exact ⟨error, hchecked.trans herror⟩
  | cancelled => exact hchecked.trans h
  | timedOut => exact hchecked.trans h

lemma cancelSent_standing (h : run.Steady) (hrunning : run.Running) {verdict : Verdict}
    (hdecided : run.Decided verdict) : (cancelSent setting run verdict).Standing := by
  unfold cancelSent
  rw [retireIfDone_eq]
  simp only
  split_ifs
  · exact ⟨⟨h.seen, h.cancelled⟩,
      ⟨hrunning.connected, hrunning.teardown, hrunning.cleanupError⟩, hdecided.moved rfl⟩
  · apply conclude_standing
    · exact ⟨h.seen, h.cancelled⟩
    · exact ⟨hrunning.connected, hrunning.teardown, hrunning.cleanupError⟩
    · exact hdecided.moved rfl

lemma promptEnded_standing (h : run.Steady) (hrunning : run.Running) (hcompleted : run.Completed) :
    (promptEnded setting run).Standing := by
  have hunseen (error : AcpRuntimeError) : run.checked ≠ some (some error) := by
    rw [hcompleted.checked]
    simp
  obtain ⟨sessionId, hsession⟩ := Option.isSome_iff_exists.mp hcompleted.sessionId
  unfold promptEnded
  apply cleanup_standing
  · exact ⟨h.seen, h.cancelled⟩
  · exact ⟨hrunning.connected, hrunning.teardown, hrunning.cleanupError⟩
  · simp only [discard]
    cases hprompt : run.ends .prompt with
    | none =>
        have hsome := hcompleted.prompt
        rw [hprompt] at hsome
        cases hsome
    | some ended =>
        cases ended with
        | result stopReason =>
            refine ⟨hcompleted.checked, hprompt, ?_⟩
            simp only [hsession, Option.getD_some]
        | requestError code text => exact fun fatal hfatal => absurd hfatal (hunseen fatal)
        | failed text => exact fun fatal hfatal => absurd hfatal (hunseen fatal)
        | cancelled => exact fun fatal hfatal => absurd hfatal (hunseen fatal)

lemma retireWatch_standing (h : run.Steady) (hrunning : run.Running) (hcompleted : run.Completed) :
    (retireWatch setting run).Standing := by
  have heq : retireWatch setting run =
      if (setting.hasCancelToken && (run.ends .watchCancel).isNone) = true then
        { (run.discard .fatal).discard .prompt with stage := .retiringWatch }
      else promptEnded setting ((run.discard .fatal).discard .prompt) := rfl
  rw [heq]
  by_cases hwatch : (setting.hasCancelToken && (run.ends .watchCancel).isNone) = true
  · rw [if_pos hwatch]
    exact ⟨⟨h.seen, h.cancelled⟩,
      ⟨hrunning.connected, hrunning.teardown, hrunning.cleanupError⟩,
      ⟨hcompleted.checked, hcompleted.prompt, hcompleted.sessionId⟩⟩
  · rw [if_neg hwatch]
    apply promptEnded_standing
    · exact ⟨h.seen, h.cancelled⟩
    · exact ⟨hrunning.connected, hrunning.teardown, hrunning.cleanupError⟩
    · exact ⟨hcompleted.checked, hcompleted.prompt, hcompleted.sessionId⟩

/-- The checks after the prompt's wait: a fatal error comes before everything else. -/
lemma promptWaited_standing (h : run.Steady) (hrunning : run.Running)
    (hsession : run.sessionId.isSome = true) : (promptWaited setting run).Standing := by
  have hrunningThen (checked : Option (Option AcpRuntimeError)) :
      ({ run with checked } : Run ω ρ).Running :=
    ⟨hrunning.connected, hrunning.teardown, hrunning.cleanupError⟩
  have hsteady (error : Option AcpRuntimeError) (heq : run.client.fatal.error = error) :
      ({ run with checked := some error } : Run ω ρ).Steady := by
    refine ⟨fun seen hseen => ?_, h.cancelled⟩
    rw [← Option.some.inj hseen]
    exact heq
  have hcancel (checked : Option AcpRuntimeError) (heq : run.client.fatal.error = checked)
      (verdict : Verdict) (hdecided : ({ run with checked := some checked } : Run ω ρ).Decided verdict) :
      (({ run with checked := some checked } : Run ω ρ).cancelAndSettle verdict).Standing :=
    ⟨⟨(hsteady checked heq).seen, (hsteady checked heq).cancelled⟩,
      ⟨hrunning.connected, hrunning.teardown, hrunning.cleanupError⟩, hdecided.moved rfl⟩
  unfold promptWaited
  cases hfatal : run.client.fatal.error with
  | some error =>
      simp only [hfatal, Option.isSome_some, if_true]
      exact hcancel _ hfatal .fatal ⟨error, rfl⟩
  | none =>
      simp only [hfatal, Option.isSome_none, Bool.false_eq_true, if_false]
      split_ifs with htoken hprompt hwatch
      · exact hcancel _ hfatal .cancelled rfl
      · exact hcancel _ hfatal .timedOut rfl
      · refine ⟨⟨(hsteady _ hfatal).seen, h.cancelled⟩,
          ⟨hrunning.connected, hrunning.teardown, hrunning.cleanupError⟩, rfl, ?_, hsession⟩
        cases hended : run.ends .prompt with
        | none => exact absurd (by rw [hended]; rfl) hprompt
        | some ended => rfl
      · apply retireWatch_standing
        · exact hsteady _ hfatal
        · exact hrunningThen _
        · refine ⟨rfl, ?_, hsession⟩
          cases hended : run.ends .prompt with
          | none => exact absurd (by rw [hended]; rfl) hprompt
          | some ended => rfl

lemma wake_standing (h : run.Standing) : (wake setting run).Standing := by
  have hhere := h.here
  unfold wake
  cases hstage : run.stage with
  | waiting =>
      rw [hstage] at hhere
      exact promptWaited_standing h.steady hhere.1 hhere.2.2
  | sendingCancel verdict =>
      rw [hstage] at hhere
      exact cancelSent_standing h.steady hhere.1 hhere.2
  | settlingPrompt verdict =>
      rw [hstage] at hhere
      exact conclude_standing h.steady hhere.1 hhere.2
  | retiringFatal =>
      rw [hstage] at hhere
      exact retireWatch_standing h.steady hhere.1 hhere.2
  | retiringWatch =>
      rw [hstage] at hhere
      exact promptEnded_standing h.steady hhere.1 hhere.2
  | closingSession body =>
      rw [hstage] at hhere
      exact sessionClosed_standing h.steady hhere.1 hhere.2
  | closingConnection body =>
      rw [hstage] at hhere
      exact connectionClosed_standing h.steady hhere.1 hhere.2
  | terminating body =>
      rw [hstage] at hhere
      exact terminated_standing h.steady hhere.1 hhere.2
  | draining body pending =>
      rw [hstage] at hhere
      exact drained_standing h.steady hhere.1 hhere.2
  | cleaned error body =>
      rw [hstage] at hhere
      exact finish_standing h.steady hhere
  | connecting => exact h
  | initializing => exact h
  | openingSession => exact h
  | finished outcome => exact h

/-- What the agent sends, and what tasks do, moves no run on. -/
lemma At.moved {other : Run ω ρ} {stage : Stage} (h : run.At stage)
    (hlive : ∀ outcome, stage ≠ .finished outcome) (hconnected : other.connected = run.connected)
    (hteardown : other.teardown = run.teardown) (hcleanup : other.cleanupError = run.cleanupError)
    (hchecked : other.checked = run.checked) (howned : other.owned = run.owned)
    (hsession : other.sessionId = run.sessionId)
    (hsupported : other.sessionCloseSupported = run.sessionCloseSupported)
    (hprompt : ∀ ended, run.ends .prompt = some ended → other.ends .prompt = some ended)
    (hcaller : run.callerCancelled = true → other.callerCancelled = true) :
    other.At stage := by
  have hrunning (hold : run.Running) : other.Running :=
    ⟨hconnected.trans hold.connected, hteardown.trans hold.teardown,
      hcleanup.trans hold.cleanupError⟩
  have hclosing : other.closing = run.closing := by
    unfold closing hasSessionClose
    rw [hsession, hsupported]
  have htorn {stages : List Teardown} (hold : run.Torn stages) : other.Torn stages :=
    ⟨hconnected.trans hold.connected, by rw [hteardown, hclosing, hold.teardown]⟩
  have hfits {body : Body} (hold : run.Fits body) : other.Fits body := by
    cases body with
    | result found => exact ⟨hchecked.trans hold.1, hprompt _ hold.2.1, hsession.trans hold.2.2⟩
    | failed error => exact fun fatal hfatal => hold fatal (hchecked.symm.trans hfatal)
    | cancelled => exact fun fatal hfatal => hcaller (hold fatal (hchecked.symm.trans hfatal))
    | escaped className => exact fun fatal hfatal => hold fatal (hchecked.symm.trans hfatal)
  have hcompleted (hold : run.Completed) : other.Completed := by
    obtain ⟨ended, hended⟩ := Option.isSome_iff_exists.mp hold.prompt
    refine ⟨hchecked.trans hold.checked, ?_, by rw [hsession, hold.sessionId]⟩
    rw [hprompt ended hended]
    rfl
  cases stage with
  | connecting =>
      obtain ⟨h1, h2, h3, h4, h5⟩ := h
      exact ⟨hconnected.trans h1, hteardown.trans h2, hcleanup.trans h3, hchecked.trans h4,
        howned.trans h5⟩
  | initializing => exact ⟨hrunning h.1, hchecked.trans h.2⟩
  | openingSession => exact ⟨hrunning h.1, hchecked.trans h.2⟩
  | waiting => exact ⟨hrunning h.1, hchecked.trans h.2.1, by rw [hsession, h.2.2]⟩
  | sendingCancel verdict => exact ⟨hrunning h.1, h.2.moved hchecked⟩
  | settlingPrompt verdict => exact ⟨hrunning h.1, h.2.moved hchecked⟩
  | retiringFatal => exact ⟨hrunning h.1, hcompleted h.2⟩
  | retiringWatch => exact ⟨hrunning h.1, hcompleted h.2⟩
  | closingSession body => exact ⟨htorn h.1, hfits h.2⟩
  | closingConnection body => exact ⟨htorn h.1, hfits h.2⟩
  | terminating body => exact ⟨htorn h.1, hfits h.2⟩
  | draining body pending => exact ⟨htorn h.1, hfits h.2⟩
  | cleaned error body =>
      obtain ⟨h1, h2, h3, h4⟩ := h
      exact ⟨htorn h1, hfits h2, h3.trans hcleanup.symm, fun hnone => howned.trans (h4 hnone)⟩
  | finished outcome => exact absurd rfl (hlive outcome)

lemma callerCancels_standing (h : run.Standing) : (callerCancels setting run).Standing := by
  have hsteady : ({ run with callerCancelled := true } : Run ω ρ).Steady :=
    ⟨h.steady.seen, fun _ => rfl⟩
  have hhere := h.here
  have hleave (hrunning : run.Running) :
      (cleanup setting { run with callerCancelled := true } .cancelled).Standing := by
    apply cleanup_standing hsteady
    · exact ⟨hrunning.connected, hrunning.teardown, hrunning.cleanupError⟩
    · exact fun _ _ => rfl
  have hlater (stage : Stage) (hat : run.At stage) (hlive : ∀ outcome, stage ≠ .finished outcome) :
      ({ run with stage, callerCancelled := true, cleanupCancelled := true } : Run ω ρ).Standing := by
    refine ⟨⟨h.steady.seen, fun _ => rfl⟩, ?_⟩
    exact hat.moved hlive rfl rfl rfl rfl rfl rfl rfl (fun _ hended => hended) fun _ => rfl
  unfold callerCancels
  cases hstage : run.stage with
  | connecting =>
      rw [hstage] at hhere
      obtain ⟨hconnected, hteardown, hcleanup, hchecked, howned⟩ := hhere
      refine ⟨⟨h.steady.seen, fun _ => rfl⟩, ?_, ?_, ?_, ?_, fun _ => howned⟩
      · show run.teardown = if run.connected = true then
          run.closing ++ [.closeConnection, .terminateTree, .drain] else []
        rw [hconnected, hteardown]
        rfl
      · exact fun text htext => absurd (hcleanup.symm.trans htext) (by simp)
      · exact fun error herror => absurd (hchecked.symm.trans herror) (by simp)
      · intro result hresult
        cases hresult
  | initializing =>
      rw [hstage] at hhere
      exact hleave hhere.1
  | openingSession =>
      rw [hstage] at hhere
      exact hleave hhere.1
  | waiting =>
      rw [hstage] at hhere
      exact hleave hhere.1
  | sendingCancel verdict =>
      rw [hstage] at hhere
      exact hleave hhere.1
  | settlingPrompt verdict =>
      rw [hstage] at hhere
      exact hleave hhere.1
  | retiringFatal =>
      rw [hstage] at hhere
      refine wake_standing ⟨⟨h.steady.seen, fun _ => rfl⟩, ?_⟩
      exact hhere.moved (by simp) rfl rfl rfl rfl rfl rfl rfl (fun _ hended => hended) fun _ => rfl
  | retiringWatch =>
      rw [hstage] at hhere
      refine wake_standing ⟨⟨h.steady.seen, fun _ => rfl⟩, ?_⟩
      exact hhere.moved (by simp) rfl rfl rfl rfl rfl rfl rfl (fun _ hended => hended) fun _ => rfl
  | closingSession body =>
      rw [hstage] at hhere
      exact hlater _ hhere (by simp)
  | closingConnection body =>
      rw [hstage] at hhere
      exact hlater _ hhere (by simp)
  | terminating body =>
      rw [hstage] at hhere
      exact hlater _ hhere (by simp)
  | draining body pending =>
      rw [hstage] at hhere
      exact hlater _ hhere (by simp)
  | cleaned error body =>
      apply finish_standing
      · exact ⟨h.steady.seen, fun _ => rfl⟩
      · rw [hstage] at hhere
        exact hhere.moved (by simp) rfl rfl rfl rfl rfl rfl rfl (fun _ hended => hended) fun _ => rfl
  | finished outcome =>
      rw [hstage] at hhere
      refine ⟨⟨h.steady.seen, fun _ => rfl⟩, ?_⟩
      refine ⟨hhere.teardown, hhere.cleanup, fun error herror => ?_, hhere.returned, hhere.owned⟩
      rcases hhere.fatal error herror with hraised | hcleanup | hcancelled
      · exact .inl hraised
      · exact .inr (.inl hcleanup)
      · exact .inr (.inr ⟨hcancelled.1, rfl⟩)

lemma stepLive_standing (h : run.Standing) (hlive : ∀ outcome, run.stage ≠ .finished outcome)
    (event : RunEvent ρ) : (stepLive setting run event).Standing := by
  have hhere := h.here
  cases event with
  | sessionUpdate sessionId update =>
      refine ⟨⟨fun error hseen => ?_, h.steady.cancelled⟩, ?_⟩
      · exact sessionUpdate_keeps (h.steady.seen error hseen) _ _ _
      · exact hhere.moved hlive rfl rfl rfl rfl rfl rfl rfl (fun _ hended => hended) id
  | requestPermission sessionId toolCall options =>
      refine ⟨⟨fun error hseen => ?_, h.steady.cancelled⟩, ?_⟩
      · exact requestPermission_keeps (h.steady.seen error hseen) _ _ _
      · exact hhere.moved hlive rfl rfl rfl rfl rfl rfl rfl (fun _ hended => hended) id
  | settles task taskEnd =>
      refine ⟨⟨h.steady.seen, h.steady.cancelled⟩, ?_⟩
      refine hhere.moved hlive rfl rfl rfl rfl rfl rfl rfl (fun ended hended => ?_) id
      by_cases htask : task = .prompt
      · subst htask
        simp only [stepLive, Function.update_self, hended, Option.some_or]
      · simp only [stepLive, Function.update_of_ne (Ne.symm htask), hended]
  | cancelToken =>
      refine ⟨⟨h.steady.seen, h.steady.cancelled⟩, ?_⟩
      exact hhere.moved hlive rfl rfl rfl rfl rfl rfl rfl (fun _ hended => hended) id
  | callerCancels => exact callerCancels_standing h
  | connected outcome =>
      simp only [stepLive]
      cases hstage : run.stage with
      | connecting =>
          rw [hstage] at hhere
          obtain ⟨hconnected, hteardown, hcleanup, hchecked, howned⟩ := hhere
          cases outcome with
          | ok done =>
              exact ⟨⟨h.steady.seen, h.steady.cancelled⟩, ⟨rfl, hteardown, hcleanup⟩, hchecked⟩
          | error failure =>
              refine ⟨⟨h.steady.seen, h.steady.cancelled⟩, ?_, ?_, ?_, ?_, fun _ => howned⟩
              · show run.teardown = if run.connected = true then
                  run.closing ++ [.closeConnection, .terminateTree, .drain] else []
                rw [hconnected, hteardown]
                rfl
              · exact fun text htext => absurd (hcleanup.symm.trans htext) (by simp)
              · exact fun error herror => absurd (hchecked.symm.trans herror) (by simp)
              · intro result hresult
                cases hresult
      | _ => exact h
  | initialized reply =>
      simp only [stepLive]
      cases hstage : run.stage with
      | initializing =>
          rw [hstage] at hhere
          exact initialized_standing h.steady hhere.1 hhere.2 reply
      | _ => exact h
  | sessionOpened reply =>
      simp only [stepLive]
      cases hstage : run.stage with
      | openingSession =>
          rw [hstage] at hhere
          exact sessionOpened_standing h.steady hhere.1 hhere.2 reply
      | _ => exact h
  | wake => exact wake_standing h

lemma step_standing (h : run.Standing) (event : RunEvent ρ) :
    (step setting run event).Standing := by
  unfold step
  cases hstage : run.stage with
  | finished outcome => exact h
  | _ => exact stepLive_standing h (by simp [hstage]) event

lemma start_standing (setting : RunSetting ω ρ) (world : ω) (promptChars : ℕ) (cwd : String)
    (cwdIsDir : Bool) : (start setting world promptChars cwd cwdIsDir).Standing := by
  have hnew (stage : Stage)
      (hat : ({ client := { world }, stage } : Run ω ρ).At stage) :
      ({ client := { world }, stage } : Run ω ρ).Standing :=
    ⟨⟨by simp, by simp⟩, hat⟩
  have hrefused (error : AcpRuntimeError) :
      ({ client := { world }, stage := .finished (.raised error) } : Run ω ρ).Standing :=
    hnew _ ⟨rfl, by simp, by simp, by simp, fun _ => rfl⟩
  unfold start
  simp only
  split_ifs
  · exact hrefused _
  · exact hrefused _
  · exact hnew _ ⟨rfl, rfl, rfl, rfl, rfl⟩

/-- At every point of every run of the client, in particular at its end: once connected, the
run has gone through each stage of teardown exactly once and in order, whoever cancels; a
cleanup failure is raised before anything else; otherwise a fatal error that the check after
the prompt's wait saw is raised, unless the caller has cancelled; and a result is returned
only if the check saw no fatal error, the prompt ended with it, and no task is left. -/
theorem run_standing (setting : RunSetting ω ρ) (world : ω) (promptChars : ℕ) (cwd : String)
    (cwdIsDir : Bool) (events : List (RunEvent ρ)) :
    (Machine.run (step setting) (start setting world promptChars cwd cwdIsDir) events).Standing :=
  @Machine.run_invariant _ _ _ Standing (fun _ event h => step_standing h event) _
    (start_standing setting world promptChars cwd cwdIsDir) events

end Run

end Imece.AcpRuntime
