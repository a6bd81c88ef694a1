import Imece.CollabRuntime.Owner
import Mathlib.Data.List.Basic

/-!
# Who owns the listener

At every moment between two sections the manager holds a server exactly in the states that
say so, and no listener is bound but that server's.
-/
namespace Imece.CollabRuntime

open Lib

/-- The states in which a server is held. -/
def OwnerState.Holds (state : OwnerState) : Prop :=
  state = .running ∨ state = .stopping ∨ state = .cleanupFailed

instance (state : OwnerState) : Decidable state.Holds :=
  inferInstanceAs (Decidable (_ ∨ _))

/-- What the fields of the manager say of each other. -/
structure Manager.Ordered (m : Manager) : Prop where
  held : m.server.isSome = true ↔ m.state.Holds
  credentials : m.credentials ≠ [] ↔ m.server.isSome = true

/-- What the lock's holder has made of the state. -/
def OwnerWorld.Placed (w : OwnerWorld) : Prop :=
  match w.busy with
  | none => w.manager.state ≠ .starting ∧ w.manager.state ≠ .stopping
  | some (.start config) => w.manager.state = .starting ∧ w.manager.config = some config
  | some (.stop server) => w.manager.state = .stopping ∧ w.manager.server = some server

/-- What holds between any two sections. -/
structure OwnerWorld.Owned (w : OwnerWorld) : Prop where
  ordered : w.manager.Ordered
  placed : w.Placed
  listeners : w.listeners = w.manager.server.toList
  shown : ∀ entry ∈ w.revealed, entry.1 ≤ w.manager.epoch ∧
    (entry.1 = w.manager.epoch → w.manager.state = .running → entry.2 ∈ w.manager.exported)
  once : w.revealed.Nodup
  epochs : w.started.Pairwise (· > ·)
  latest : ∀ epoch ∈ w.started, epoch ≤ w.manager.epoch

section Sections

variable {w : OwnerWorld}

lemma OwnerWorld.initial_owned : OwnerWorld.initial.Owned where
  ordered := ⟨by decide, by decide⟩
  placed := by simp [OwnerWorld.Placed, OwnerWorld.initial]
  listeners := rfl
  shown := nofun
  once := List.nodup_nil
  epochs := List.Pairwise.nil
  latest := nofun

/-- A section that only moves the manager between states without a server. -/
lemma OwnerWorld.Owned.idle (h : w.Owned) {m : Manager} {busy : Option OwnerOp}
    (hserver : m.server = w.manager.server) (hcredentials : m.credentials = w.manager.credentials)
    (hepoch : m.epoch = w.manager.epoch) (hnone : w.manager.server = none)
    (hstate : ¬ m.state.Holds) (hplaced : OwnerWorld.Placed { w with manager := m, busy := busy }) :
    OwnerWorld.Owned { w with manager := m, busy := busy } where
  ordered := by
    constructor
    · rw [hserver, hnone]
      exact iff_of_false (by simp) hstate
    · rw [hserver, hcredentials]
      exact h.ordered.credentials
  placed := hplaced
  listeners := by rw [h.listeners, hserver]
  shown entry hentry := by
    refine ⟨hepoch ▸ (h.shown entry hentry).1, fun _ hrunning => ?_⟩
    exact absurd (Or.inl hrunning) hstate
  once := h.once
  epochs := h.epochs
  latest epoch hmem := hepoch ▸ h.latest epoch hmem

lemma OwnerWorld.Owned.server_none (h : w.Owned) (hstate : ¬ w.manager.state.Holds) :
    w.manager.server = none := by
  rw [← Option.not_isSome_iff_eq_none, h.ordered.held]
  exact hstate

/-- Configuring is refused, or leaves one of two states without a server. -/
lemma configure_cases (early : Except OwnerError Unit) (outcome : Configured) (m : Manager) :
    after (configure early outcome) m = m ∨
      m.server = none ∧ ((after (configure early outcome) m) = { m with state := .creationFailed } ∨
        ∃ config, after (configure early outcome) m =
          { m with config := some config, state := .configured }) := by
  unfold configure after
  cases early with
  | error e => exact Or.inl rfl
  | ok =>
      dsimp only
      split_ifs with hstop hconfig
      · exact Or.inl rfl
      · exact Or.inl rfl
      · rw [not_or, Option.not_isSome_iff_eq_none] at hstop
        cases outcome with
        | refused e => exact Or.inl rfl
        | broken e => exact Or.inr ⟨hstop.1, Or.inl rfl⟩
        | made config => exact Or.inr ⟨hstop.1, Or.inr ⟨config, rfl⟩⟩

lemma OwnerWorld.Owned.configure (h : w.Owned) (hbusy : w.busy = none)
    (early : Except OwnerError Unit) (outcome : Configured) :
    OwnerWorld.Owned { w with manager := after (configure early outcome) w.manager } := by
  rcases configure_cases early outcome w.manager with hsame | ⟨hnone, hbroken | ⟨config, hmade⟩⟩
  · rw [hsame]
    exact h
  · rw [hbroken]
    refine h.idle rfl rfl rfl hnone (by simp [OwnerState.Holds]) ?_
    simp [OwnerWorld.Placed, hbusy]
  · rw [hmade]
    refine h.idle rfl rfl rfl hnone (by simp [OwnerState.Holds]) ?_
    simp [OwnerWorld.Placed, hbusy]

lemma startBegin_cases (port : Int) (m : Manager) :
    (∃ e, startBegin port m = .error e m) ∨
      ∃ config, m.config = some config ∧ (m.state = .configured ∨ m.state = .stopped) ∧
        startBegin port m = .ok config { m with state := .starting } := by
  unfold startBegin
  split
  · exact Or.inl ⟨_, rfl⟩
  · split
    · exact Or.inl ⟨_, rfl⟩
    · rename_i config hconfig
      split
      · rename_i hstate
        exact Or.inr ⟨config, hconfig, hstate, rfl⟩
      · exact Or.inl ⟨_, rfl⟩

lemma OwnerWorld.Owned.starting (h : w.Owned) {config : OwnerConfig}
    (hconfig : w.manager.config = some config)
    (hstate : w.manager.state = .configured ∨ w.manager.state = .stopped) :
    OwnerWorld.Owned { w with
      manager := { w.manager with state := .starting }
      busy := some (.start config) } := by
  have hnone : w.manager.server = none := by
    refine h.server_none ?_
    rcases hstate with hstate | hstate <;> simp [OwnerState.Holds, hstate]
  exact h.idle rfl rfl rfl hnone (by simp [OwnerState.Holds]) ⟨rfl, hconfig⟩

lemma credentialsOf_ne_nil (config : OwnerConfig) (tokens : String → String) :
    credentialsOf config tokens ≠ [] := by
  rw [credentialsOf, ne_eq, List.map_eq_nil_iff]
  exact config.members_nonempty

/-- How the rest of a start can end. -/
lemma startEnd_cases (config : OwnerConfig) (seen : StartSeen) (w : OwnerWorld) :
    (∃ config', after (startEnd config seen) w =
        { w with
          manager := { w.manager with config := config', state := .configured }
          busy := none
          built := (after (startEnd config seen) w).built }) ∨
      ∃ config' : OwnerConfig, ∃ credentials, credentials ≠ [] ∧
        (after (startEnd config seen) w =
          { w with
            manager := { w.manager with
              config := some config'
              state := .cleanupFailed
              server := some (w.built + 1)
              credentials := credentials }
            busy := none
            built := w.built + 1
            listeners := (w.built + 1) :: w.listeners } ∨
        ∃ endpoint, after (startEnd config seen) w =
          { w with
            manager :=
              ⟨.running, some config', some (w.built + 1), credentials, [], w.manager.epoch + 1,
                endpoint⟩
            busy := none
            built := w.built + 1
            listeners := (w.built + 1) :: w.listeners
            started := (w.manager.epoch + 1) :: w.started }) := by
  unfold after startEnd
  cases startChecks config seen with
  | error e => exact Or.inl ⟨w.manager.config, rfl⟩
  | ok config' =>
      cases seen.coordinator with
      | error e => exact Or.inl ⟨some config', rfl⟩
      | ok =>
          cases seen.baseUrl with
          | none => exact Or.inl ⟨some config', rfl⟩
          | some baseUrl =>
              have hne := credentialsOf_ne_nil config' seen.tokens
              cases seen.starts with
              | true => exact Or.inr ⟨config', _, hne, Or.inr ⟨some baseUrl, rfl⟩⟩
              | false =>
                  cases seen.closes with
                  | true => exact Or.inl ⟨some config', rfl⟩
                  | false => exact Or.inr ⟨config', _, hne, Or.inl rfl⟩

lemma OwnerWorld.Owned.started (h : w.Owned) {config : OwnerConfig} (seen : StartSeen)
    (hbusy : w.busy = some (.start config)) : (after (startEnd config seen) w).Owned := by
  have hplaced := h.placed
  rw [OwnerWorld.Placed, hbusy] at hplaced
  have hnone : w.manager.server = none := h.server_none (by simp [OwnerState.Holds, hplaced.1])
  have hlisteners : w.listeners = [] := by rw [h.listeners, hnone, Option.toList_none]
  obtain ⟨config', hend⟩ | ⟨config', credentials, hne, hend | ⟨endpoint, hend⟩⟩ :=
    startEnd_cases config seen w
  · rw [hend]
    have hidle := @OwnerWorld.Owned.idle w h
      { w.manager with config := config', state := .configured } none rfl rfl rfl hnone
      (by simp [OwnerState.Holds]) (by simp [OwnerWorld.Placed])
    exact { hidle with }
  · rw [hend]
    exact {
      ordered := ⟨by simp [OwnerState.Holds], by simp [hne]⟩
      placed := by simp [OwnerWorld.Placed]
      listeners := by simp [hlisteners]
      shown := fun entry hentry => ⟨(h.shown entry hentry).1, fun _ hrunning => by cases hrunning⟩
      once := h.once
      epochs := h.epochs
      latest := h.latest }
  · rw [hend]
    exact {
      ordered := ⟨by simp [OwnerState.Holds], by simp [hne]⟩
      placed := by simp [OwnerWorld.Placed]
      listeners := by simp [hlisteners]
      shown := fun entry hentry => by
        have hle := (h.shown entry hentry).1
        exact ⟨Nat.le_succ_of_le hle, fun heq => by simp only at heq; omega⟩
      once := h.once
      epochs := by
        rw [List.pairwise_cons]
        refine ⟨fun epoch hmem => ?_, h.epochs⟩
        have hle := h.latest epoch hmem
        omega
      latest := fun epoch hmem => by
        rcases List.mem_cons.mp hmem with rfl | hmem
        · exact Nat.le_refl _
        · exact Nat.le_succ_of_le (h.latest epoch hmem) }

lemma stopBegin_cases (m : Manager) :
    (m.server = none ∧ stopBegin m =
        .ok none (if m.state = .configured then { m with state := .stopped } else m)) ∨
      ∃ server, m.server = some server ∧
        stopBegin m = .ok (some server) { m with state := .stopping } := by
  unfold stopBegin
  split
  · rename_i hserver
    exact Or.inl ⟨hserver, rfl⟩
  · rename_i server hserver
    exact Or.inr ⟨server, hserver, rfl⟩

lemma OwnerWorld.Owned.stopping (h : w.Owned) {server : ℕ} (hserver : w.manager.server = some server) :
    OwnerWorld.Owned { w with
      manager := { w.manager with state := .stopping }
      busy := some (.stop server) } where
  ordered := ⟨by simp [OwnerState.Holds, hserver], h.ordered.credentials⟩
  placed := ⟨rfl, hserver⟩
  listeners := h.listeners
  shown entry hentry := ⟨(h.shown entry hentry).1, fun _ hrunning => by cases hrunning⟩
  once := h.once
  epochs := h.epochs
  latest := h.latest

lemma OwnerWorld.Owned.stopped (h : w.Owned) {server : ℕ} (closes : Bool)
    (hbusy : w.busy = some (.stop server)) : (after (stopEnd server closes) w).Owned := by
  have hplaced := h.placed
  rw [OwnerWorld.Placed, hbusy] at hplaced
  have hlisteners := h.listeners
  rw [hplaced.2] at hlisteners
  unfold after stopEnd
  cases closes with
  | true => exact {
      ordered := ⟨by simp [OwnerState.Holds], by simp⟩
      placed := by simp [OwnerWorld.Placed]
      listeners := by simp [hlisteners]
      shown := fun entry hentry => ⟨(h.shown entry hentry).1, fun _ hrunning => by cases hrunning⟩
      once := h.once
      epochs := h.epochs
      latest := h.latest }
  | false => exact {
      ordered := ⟨by simp [OwnerState.Holds, hplaced.2], h.ordered.credentials⟩
      placed := by simp [OwnerWorld.Placed]
      listeners := h.listeners
      shown := fun entry hentry => ⟨(h.shown entry hentry).1, fun _ hrunning => by cases hrunning⟩
      once := h.once
      epochs := h.epochs
      latest := h.latest }

lemma revealMemberOnce_cases (member : String) (m : Manager) :
    (∃ e, revealMemberOnce member m = .error e m) ∨
      m.state = .running ∧ member ∉ m.exported ∧ ∃ access, access.epoch = m.epoch ∧
        revealMemberOnce member m = .ok access { m with exported := member :: m.exported } := by
  unfold revealMemberOnce
  split
  · rename_i hstate _ _
    split
    · exact Or.inl ⟨_, rfl⟩
    · rename_i hnew
      exact Or.inr ⟨hstate, hnew, _, rfl, rfl⟩
  · exact Or.inl ⟨_, rfl⟩

lemma OwnerWorld.Owned.reveal (h : w.Owned) {member : String} {m : Manager}
    (hrunning : w.manager.state = .running) (hnew : member ∉ w.manager.exported)
    (hm : m = { w.manager with exported := member :: w.manager.exported }) :
    OwnerWorld.Owned { w with
      manager := m
      revealed := (w.manager.epoch, member) :: w.revealed } := by
  subst hm
  refine ⟨⟨h.ordered.held, h.ordered.credentials⟩, h.placed, h.listeners, ?_, ?_, h.epochs,
    h.latest⟩
  · intro entry hentry
    rcases List.mem_cons.mp hentry with rfl | hentry
    · exact ⟨Nat.le_refl _, fun _ _ => List.mem_cons_self⟩
    · obtain ⟨hle, hexported⟩ := h.shown entry hentry
      exact ⟨hle, fun heq hstate => List.mem_cons_of_mem _ (hexported heq hstate)⟩
  · refine List.nodup_cons.mpr ⟨fun hmem => ?_, h.once⟩
    exact hnew ((h.shown _ hmem).2 rfl hrunning)

end Sections

/-- Every section keeps it. -/
theorem OwnerWorld.Owned.step {w : OwnerWorld} (h : w.Owned) (call : OwnerCall) :
    (w.step call).Owned := by
  cases call with
  | create early outcome =>
      rw [OwnerWorld.step]
      split
      · exact h
      · rename_i hbusy
        exact h.configure (Option.not_isSome_iff_eq_none.mp hbusy) early outcome
  | selectExisting early outcome =>
      rw [OwnerWorld.step]
      split
      · exact h
      · rename_i hbusy
        exact h.configure (Option.not_isSome_iff_eq_none.mp hbusy) early _
  | start port =>
      rw [OwnerWorld.step]
      split
      · exact h
      · obtain ⟨e, herror⟩ | ⟨config, hconfig, hstate, hok⟩ := startBegin_cases port w.manager
        · rw [herror]
          exact h
        · rw [hok]
          exact h.starting hconfig hstate
  | started seen =>
      rw [OwnerWorld.step]
      split
      · rename_i config hbusy
        exact h.started seen hbusy
      · exact h
  | stop =>
      rw [OwnerWorld.step]
      split
      · exact h
      · rename_i hbusy
        have hnobody : w.busy = none := Option.not_isSome_iff_eq_none.mp hbusy
        obtain ⟨hserver, hbegin⟩ | ⟨server, hserver, hbegin⟩ := stopBegin_cases w.manager
        · rw [hbegin]
          by_cases hconfigured : w.manager.state = .configured
          · rw [if_pos hconfigured]
            exact h.idle rfl rfl rfl hserver (by simp [OwnerState.Holds])
              (by simp [OwnerWorld.Placed])
          · rw [if_neg hconfigured]
            exact { h with placed := by simpa [OwnerWorld.Placed, hnobody] using h.placed }
        · rw [hbegin]
          exact h.stopping hserver
  | stopped closes =>
      rw [OwnerWorld.step]
      split
      · rename_i server hbusy
        exact h.stopped closes hbusy
      · exact h
  | reveal member =>
      rw [OwnerWorld.step]
      obtain ⟨e, herror⟩ | ⟨hrunning, hnew, access, hepoch, hok⟩ :=
        revealMemberOnce_cases member w.manager
      · rw [herror]
        exact h
      · rw [hok]
        dsimp only
        rw [hepoch]
        exact h.reveal hrunning hnew rfl

/-- After any calls: a server is held exactly in the three states that say so, and the
credentials are there exactly with it; no two answers showed one member's credential in
one epoch; every start that succeeded made a later epoch than all before it; the only
listener is the server's that is held, and a stop that fails keeps that server. -/
theorem owner_lifecycle (calls : List OwnerCall) :
    let w := Machine.run OwnerWorld.step OwnerWorld.initial calls
    (w.manager.server.isSome = true ↔ w.manager.state.Holds) ∧
      (w.manager.credentials ≠ [] ↔ w.manager.state.Holds) ∧
      w.revealed.Nodup ∧ w.started.Pairwise (· > ·) ∧
      w.listeners = w.manager.server.toList ∧
      (w.step (.stopped false)).manager.server = w.manager.server ∧
      (w.step (.stopped false)).listeners = w.listeners := by
  intro w
  have h : w.Owned := Machine.run_invariant (fun _ call h => h.step call)
    OwnerWorld.initial_owned calls
  refine ⟨h.ordered.held, h.ordered.credentials.trans h.ordered.held, h.once, h.epochs,
    h.listeners, ?_⟩
  rw [OwnerWorld.step]
  split
  · exact ⟨rfl, rfl⟩
  · exact ⟨rfl, rfl⟩

end Imece.CollabRuntime
