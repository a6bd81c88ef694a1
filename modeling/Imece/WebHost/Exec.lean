import Imece.Lib.Machine
import Imece.WebHost.Runconfig

/-!
# Running a project's command

The `exec.*` handlers: a command that comes from the project's own files runs once its
fingerprint is trusted. Each call resolves the command anew from what its reads find.
-/
namespace Imece.WebHost

open Lib

/-- What a handler answers with instead of a result. -/
inductive Failure where
  | bridge (code : String) (message : Points)
  | raised (error : PyError)
deriving DecidableEq

structure CommandInfo (δ : Type) extends Resolved where
  cwd : Points
  fingerprint : δ

/-- What shows of the handlers: a command returned by a preflight, one whose fingerprint
an approval recorded, one started. -/
inductive ExecEntry where
  | shown (root : Points) (resolved : Resolved)
  | approved (root : Points) (resolved : Resolved)
  | started (root : Points) (resolved : Resolved)
deriving DecidableEq

/-- The open project, the trusted commands of the preferences file, and the one active
execution. -/
structure Exec (δ : Type) where
  root : Option Points := none
  trustedRunCommands : List (Points × δ) := []
  active : Option ℕ := none
  nextId : ℕ := 0
  log : List ExecEntry := []

/-- The parameters of a call, and what its reads of the project's files find. -/
structure ExecParams where
  view : ProjectView
  rel : Option Points := none
  command : Option Points := none
  /-- the preferences file can be read -/
  prefsRead : Bool := true

inductive ExecCall where
  | openProject (root : Points)
  | preflight (params : ExecParams)
  | approveCommand (params : ExecParams) (saved : Bool)
  | run (params : ExecParams) (spawned : Bool)
  | exited (execId : ℕ)

def ExecParams.explicit (params : ExecParams) : Option Points :=
  (params.command.map strip).filter (· ≠ [])

def noCommand (rel : Option Points) : Points :=
  match rel.filter (· ≠ []) with
  | some rel =>
      Points.ofString "'" ++ rel ++ Points.ofString ("' için koşu komutu bilinmiyor — paletten " ++
        "'Çalıştırma Komutunu Değiştir' ile tanımla.")
  | none =>
      Points.ofString ("Proje için koşu komutu bulunamadı — paletten " ++
        "'Çalıştırma Komutunu Değiştir' ile tanımla.")

namespace Exec

variable {δ : Type} (platform : Platform) (sha256 : List UInt8 → δ)

def requireProject (exec : Exec δ) : Except Failure Points :=
  match exec.root with
  | some root => .ok root
  | none => .error (.bridge "no_project" (Points.ofString "Önce bir proje aç."))

/-- `_command_info` -/
def commandInfo (root : Points) (params : ExecParams) : Except Failure (CommandInfo δ) :=
  match resolve platform params.view params.rel params.explicit with
  | .error e => .error (.raised e)
  | .ok none => .error (.bridge "no_command" (noCommand params.rel))
  | .ok (some resolved) =>
      match fingerprint sha256 root resolved.command resolved.source with
      | .error e => .error (.raised e)
      | .ok print => .ok { resolved with cwd := root, fingerprint := print }

/-- The trusted commands a call reads; an unreadable file holds none. -/
def prefs (exec : Exec δ) (params : ExecParams) : List (Points × δ) :=
  if params.prefsRead then exec.trustedRunCommands else []

variable [DecidableEq δ]

/-- `_trusted`: a command typed out, or the active file's, is the user's own action. -/
def trusted (exec : Exec δ) (params : ExecParams) (info : CommandInfo δ) : Bool :=
  match info.source with
  | .explicit | .file => true
  | _ => (exec.prefs params).any fun item =>
      decide (item.1 = info.cwd) && decide (item.2 = info.fingerprint)

def preflight (exec : Exec δ) (params : ExecParams) :
    Except Failure (Exec δ × CommandInfo δ × Bool) := do
  let root ← exec.requireProject
  let info ← commandInfo platform sha256 root params
  return ({ exec with log := exec.log ++ [.shown root info.toResolved] },
    info, !exec.trusted params info)

/-- The command's fingerprint replaces the root's earlier one; the last hundred are kept. -/
def approveCommand (exec : Exec δ) (params : ExecParams) (saved : Bool) :
    Except Failure (Exec δ) := do
  let root ← exec.requireProject
  let info ← commandInfo platform sha256 root params
  let existing := (exec.prefs params).filter (·.1 ≠ root) ++ [(root, info.fingerprint)]
  return { exec with
    trustedRunCommands :=
      if saved then existing.drop (existing.length - 100) else exec.trustedRunCommands
    log := exec.log ++ [.approved root info.toResolved] }

/-- The command runs as it was resolved and found trusted in this call. -/
def run (exec : Exec δ) (params : ExecParams) (spawned : Bool) :
    Except Failure (Exec δ) := do
  let root ← exec.requireProject
  let info ← commandInfo platform sha256 root params
  if !exec.trusted params info then
    throw (.bridge "command_confirmation"
      (Points.ofString "Bu proje komutu önce onaylanmalı."))
  if !spawned then throw (.bridge "spawn_failed" (Points.ofString "Komut başlatılamadı: "))
  return { exec with
    nextId := exec.nextId + 1
    active := some (exec.nextId + 1)
    log := exec.log ++ [.started root info.toResolved] }

def step (exec : Exec δ) : ExecCall → Exec δ
  | .openProject root => { exec with root := some root }
  | .preflight params =>
      match exec.preflight platform sha256 params with
      | .ok (exec, _, _) => exec
      | .error _ => exec
  | .approveCommand params saved =>
      match exec.approveCommand platform sha256 params saved with
      | .ok exec => exec
      | .error _ => exec
  | .run params spawned =>
      match exec.run platform sha256 params spawned with
      | .ok exec => exec
      | .error _ => exec
  | .exited execId =>
      { exec with active := if exec.active = some execId then none else exec.active }

end Exec

/-! ## Only an approved command runs -/

/-- The command comes from the project's files. -/
def CommandSource.fromProject : CommandSource → Bool
  | .projectConfig | .detected => true
  | _ => false

/-- A preflight's entry for one root and command. -/
def ExecEntry.shows (root command : Points) : ExecEntry → Bool
  | .shown found resolved => found = root && resolved.command = command
  | _ => false

/-- A preflight returned the command for the root. -/
abbrev Shown (log : List ExecEntry) (root command : Points) : Prop :=
  log.any (ExecEntry.shows root command) = true

/-- The command was returned by a preflight and then approved, both for the root. -/
def ApprovedAfterShown (log : List ExecEntry) (root command : Points) : Prop :=
  ∃ before source after, log = before ++ .approved root ⟨command, source⟩ :: after ∧
    Shown before root command

def StartsApproved (before : List ExecEntry) : ExecEntry → Prop
  | .started root resolved =>
      resolved.source.fromProject = true → ApprovedAfterShown before root resolved.command
  | _ => True

/-- What a run of the handlers is to keep. -/
abbrev OnlyApproved (log : List ExecEntry) : Prop := Machine.Justified StartsApproved log

section Runs

variable {δ : Type} {platform : Platform} {sha256 : List UInt8 → δ} {exec : Exec δ}

/-- The project command that a root's files resolve to was returned by a preflight. -/
def ShownFor (log : List ExecEntry) :
    Option Points → Except PyError (Option Resolved) → Prop
  | some root, .ok (some resolved) =>
      resolved.source.fromProject = true → Shown log root resolved.command
  | _, _ => True

instance (log : List ExecEntry) : (root : Option Points) →
    (found : Except PyError (Option Resolved)) → Decidable (ShownFor log root found)
  | some root, .ok (some resolved) =>
      inferInstanceAs (Decidable (_ = true → Shown log root resolved.command))
  | none, _ => isTrue trivial
  | some _, .error _ => isTrue trivial
  | some _, .ok none => isTrue trivial

/-- An approval that resolves a project command resolves one that a preflight returned. -/
def ShownBefore (platform : Platform) (exec : Exec δ) : ExecCall → Prop
  | .approveCommand params _ =>
      ShownFor exec.log exec.root (resolve platform params.view params.rel params.explicit)
  | _ => True

instance (platform : Platform) (exec : Exec δ) : (call : ExecCall) →
    Decidable (ShownBefore platform exec call)
  | .approveCommand params _ => inferInstanceAs (Decidable (ShownFor exec.log exec.root
      (resolve platform params.view params.rel params.explicit)))
  | .openProject _ => isTrue trivial
  | .preflight _ => isTrue trivial
  | .run _ _ => isTrue trivial
  | .exited _ => isTrue trivial

/-- What a trusted item stands for. -/
def Backed (sha256 : List UInt8 → δ) (log : List ExecEntry) (item : Points × δ) : Prop :=
  ∃ resolved : Resolved,
    fingerprint sha256 item.1 resolved.command resolved.source = .ok item.2 ∧
    (resolved.source.fromProject = true → ApprovedAfterShown log item.1 resolved.command)

structure ExecKept (sha256 : List UInt8 → δ) (exec : Exec δ) : Prop where
  only : OnlyApproved exec.log
  backed : ∀ item ∈ exec.trustedRunCommands, Backed sha256 exec.log item

lemma ApprovedAfterShown.append {log : List ExecEntry} {root command : Points}
    (h : ApprovedAfterShown log root command) (entry : ExecEntry) :
    ApprovedAfterShown (log ++ [entry]) root command := by
  obtain ⟨before, source, after, rfl, hshown⟩ := h
  exact ⟨before, source, after ++ [entry], by simp, hshown⟩

lemma Backed.append {log : List ExecEntry} {item : Points × δ} (h : Backed sha256 log item)
    (entry : ExecEntry) : Backed sha256 (log ++ [entry]) item := by
  obtain ⟨resolved, hprint, happroved⟩ := h
  exact ⟨resolved, hprint, fun hproject => (happroved hproject).append entry⟩

lemma commandInfo_ok {root : Points} {params : ExecParams} {info : CommandInfo δ}
    (h : Exec.commandInfo platform sha256 root params = .ok info) :
    resolve platform params.view params.rel params.explicit = .ok (some info.toResolved) ∧
      info.cwd = root ∧
      fingerprint sha256 root info.command info.source = .ok info.fingerprint := by
  unfold Exec.commandInfo at h
  cases hresolve : resolve platform params.view params.rel params.explicit with
  | error e => simp [hresolve] at h
  | ok found =>
      cases found with
      | none => simp [hresolve] at h
      | some resolved =>
          rw [hresolve] at h
          dsimp only at h
          cases hprint : fingerprint sha256 root resolved.command resolved.source with
          | error e => simp [hprint] at h
          | ok print =>
              rw [hprint] at h
              cases h
              exact ⟨rfl, rfl, hprint⟩

lemma requireProject_ok {root : Points} (h : exec.requireProject = .ok root) :
    exec.root = some root := by
  unfold Exec.requireProject at h
  cases hroot : exec.root with
  | none => simp [hroot] at h
  | some found =>
      rw [hroot] at h
      cases h
      rfl

/-- A handler that gets past its project and its command. -/
lemma handler_ok {α : Type} {params : ExecParams}
    {rest : Points → CommandInfo δ → Except Failure α} {result : α}
    (h : (do
      let root ← exec.requireProject
      let info ← Exec.commandInfo platform sha256 root params
      rest root info) = .ok result) :
    ∃ root info, exec.root = some root ∧
      Exec.commandInfo platform sha256 root params = .ok info ∧ rest root info = .ok result := by
  cases hroot : exec.requireProject with
  | error e => simp [hroot, bind, Except.bind] at h
  | ok root =>
      cases hinfo : Exec.commandInfo platform sha256 root params with
      | error e => simp [hroot, hinfo, bind, Except.bind] at h
      | ok info =>
          refine ⟨root, info, requireProject_ok hroot, hinfo, ?_⟩
          simpa [hroot, hinfo, bind, Except.bind] using h

lemma prefs_backed (h : ExecKept sha256 exec) (params : ExecParams) :
    ∀ item ∈ exec.prefs params, Backed sha256 exec.log item := by
  intro item hitem
  unfold Exec.prefs at hitem
  split_ifs at hitem
  · exact h.backed item hitem
  · cases hitem

lemma ExecKept.approveCommand (h : ExecKept sha256 exec) {params : ExecParams} {saved : Bool}
    {result : Exec δ} (hok : ShownBefore platform exec (.approveCommand params saved))
    (hresult : exec.approveCommand platform sha256 params saved = .ok result) :
    ExecKept sha256 result := by
  obtain ⟨root, info, hroot, hinfo, hrest⟩ := handler_ok hresult
  obtain ⟨hresolve, -, hprint⟩ := commandInfo_ok hinfo
  cases hrest
  refine ⟨h.only.append trivial, ?_⟩
  have hnew : Backed sha256 (exec.log ++ [.approved root info.toResolved])
      (root, info.fingerprint) := by
    refine ⟨info.toResolved, hprint, fun hproject => ?_⟩
    simp only [ShownBefore, hroot, hresolve] at hok
    exact ⟨exec.log, info.source, [], rfl, hok hproject⟩
  intro item hitem
  dsimp only at hitem
  split_ifs at hitem with hsaved
  · have hitem := List.mem_of_mem_drop hitem
    rcases List.mem_append.mp hitem with hitem | hitem
    · exact (prefs_backed h params item (List.mem_filter.mp hitem).1).append _
    · rw [List.mem_singleton.mp hitem]
      exact hnew
  · exact (h.backed item hitem).append _

variable [DecidableEq δ]

lemma ExecKept.preflight (h : ExecKept sha256 exec) {params : ExecParams}
    {result : Exec δ × CommandInfo δ × Bool}
    (hresult : exec.preflight platform sha256 params = .ok result) :
    ExecKept sha256 result.1 := by
  obtain ⟨root, info, -, -, hrest⟩ := handler_ok hresult
  cases hrest
  exact ⟨h.only.append trivial, fun item hitem => (h.backed item hitem).append _⟩

/-- A trusted project command was shown and approved. -/
lemma approved_of_trusted (hsha : Function.Injective sha256) (h : ExecKept sha256 exec)
    {params : ExecParams} {info : CommandInfo δ}
    (hprint : fingerprint sha256 info.cwd info.command info.source = .ok info.fingerprint)
    (hproject : info.source.fromProject = true)
    (htrusted : exec.trusted params info = true) :
    ApprovedAfterShown exec.log info.cwd info.command := by
  have hany : ∃ item ∈ exec.prefs params, item.1 = info.cwd ∧ item.2 = info.fingerprint := by
    unfold Exec.trusted at htrusted
    cases hsource : info.source <;> rw [hsource] at htrusted hproject
    · cases hproject
    · cases hproject
    · simpa using htrusted
    · simpa using htrusted
  obtain ⟨item, hitem, hroot, hfingerprint⟩ := hany
  obtain ⟨resolved, hresolved, happroved⟩ := prefs_backed h params item hitem
  rw [hroot, hfingerprint] at hresolved
  obtain ⟨hcommand, hsource⟩ := fingerprint_injective sha256 hsha hresolved hprint
  rw [← hcommand, ← hroot]
  exact happroved (hsource ▸ hproject)

lemma ExecKept.run (hsha : Function.Injective sha256) (h : ExecKept sha256 exec)
    {params : ExecParams} {spawned : Bool} {result : Exec δ}
    (hresult : exec.run platform sha256 params spawned = .ok result) :
    ExecKept sha256 result := by
  obtain ⟨root, info, -, hinfo, hrest⟩ := handler_ok hresult
  obtain ⟨-, hcwd, hprint⟩ := commandInfo_ok hinfo
  rw [← hcwd] at hprint
  by_cases htrusted : exec.trusted params info = true
  · cases spawned with
    | false => simp [htrusted, throw, throwThe, MonadExceptOf.throw, bind, Except.bind] at hrest
    | true =>
        simp only [htrusted, Bool.not_true, Bool.false_eq_true, if_false] at hrest
        cases hrest
        refine ⟨h.only.append fun hproject => ?_, fun item hitem => (h.backed item hitem).append _⟩
        rw [← hcwd]
        exact approved_of_trusted hsha h hprint hproject htrusted
  · simp [htrusted, throw, throwThe, MonadExceptOf.throw, bind, Except.bind] at hrest

lemma ExecKept.step (hsha : Function.Injective sha256) (h : ExecKept sha256 exec)
    {call : ExecCall} (hok : ShownBefore platform exec call) :
    ExecKept sha256 (exec.step platform sha256 call) := by
  cases call with
  | openProject root => exact ⟨h.only, h.backed⟩
  | exited execId => exact ⟨h.only, h.backed⟩
  | preflight params =>
      simp only [Exec.step]
      cases hresult : exec.preflight platform sha256 params with
      | error e => exact h
      | ok result => exact h.preflight hresult
  | approveCommand params saved =>
      simp only [Exec.step]
      cases hresult : exec.approveCommand platform sha256 params saved with
      | error e => exact h
      | ok result => exact h.approveCommand hok hresult
  | run params spawned =>
      simp only [Exec.step]
      cases hresult : exec.run platform sha256 params spawned with
      | error e => exact h
      | ok result => exact h.run hsha hresult

end Runs

/-- **Only an approved command runs.** While every approval of a project command resolves
a command that a preflight returned, only commands shown and then approved are started. -/
theorem exec_only_approved {δ : Type} [DecidableEq δ] (platform : Platform)
    (sha256 : List UInt8 → δ) (hsha : Function.Injective sha256) (calls : List ExecCall)
    (h : Machine.Meets (Exec.step platform sha256) (ShownBefore platform) {} calls) :
    OnlyApproved (Machine.run (Exec.step platform sha256) {} calls).log := by
  have hinit : ExecKept sha256 ({} : Exec δ) :=
    ⟨Machine.Justified.of_forall fun _ h => absurd h List.not_mem_nil,
      fun _ h => absurd h List.not_mem_nil⟩
  exact (@Machine.Meets.invariant _ _ _ (ExecKept sha256) _
    (fun _ _ hkept hok => hkept.step hsha hok) _ hinit _ h).only

/-- The digest of the text the sample run approves; no two texts share one. -/
def sampleSha256 (raw : List UInt8) : List UInt8 :=
  if some raw = (fingerprintText (Points.ofString "/p") (Points.ofString "make")
      .projectConfig).encodeUtf8 then
    [58, 81, 38, 214, 25, 70, 168, 100, 172, 96, 165, 152, 166, 230, 102, 243, 98, 73, 188, 26,
      128, 196, 145, 204, 145, 89, 83, 202, 85, 80, 157, 64]
  else 0 :: raw

lemma sampleSha256_injective : Function.Injective sampleSha256 := by
  intro raw other h
  unfold sampleSha256 at h
  split_ifs at h with hraw hother hother
  · exact Option.some.inj (hraw.trans hother.symm)
  · exact absurd (List.head_eq_of_cons_eq h) (by decide)
  · exact absurd (List.head_eq_of_cons_eq h) (by decide)
  · exact List.tail_eq_of_cons_eq h

/-- A project whose saved command is the one given. -/
def saving (command : String) : ProjectView := fun path =>
  if path = runJson then
    .text (Points.ofString "\x7b\"project\": \"" ++ Points.ofString command ++
      Points.ofString "\"\x7d")
  else .missing

/-- The saved command is shown, approved and run, each time as the files have it then. -/
def savedRun (shown approved started : String) : List ExecCall :=
  [.openProject (Points.ofString "/p"),
    .preflight { view := saving shown },
    .approveCommand { view := saving approved } true,
    .run { view := saving started } true]

theorem exec_only_approved_make :
    OnlyApproved (Machine.run (Exec.step posix sampleSha256) {}
      (savedRun "make" "make" "make")).log :=
  exec_only_approved posix sampleSha256 sampleSha256_injective _ (by decide +kernel)

/-- The saved command changes between the preflight and the approval. -/
theorem exec_unshown_command :
    ¬ OnlyApproved (Machine.run (Exec.step posix sampleSha256) {}
      (savedRun "make" "rm -rf ." "rm -rf .")).log := by
  intro h
  have hlog : (Machine.run (Exec.step posix sampleSha256) {}
      (savedRun "make" "rm -rf ." "rm -rf .")).log =
        [.shown (Points.ofString "/p") ⟨Points.ofString "make", .projectConfig⟩,
          .approved (Points.ofString "/p") ⟨Points.ofString "rm -rf .", .projectConfig⟩] ++
        .started (Points.ofString "/p") ⟨Points.ofString "rm -rf .", .projectConfig⟩ :: [] := by
    decide +kernel
  obtain ⟨before, source, after, hsplit, hshown⟩ := h _ _ _ hlog rfl
  have hany : Shown (before ++ .approved (Points.ofString "/p")
      ⟨Points.ofString "rm -rf .", source⟩ :: after) (Points.ofString "/p")
      (Points.ofString "rm -rf .") := by
    rw [Shown, List.any_append, hshown, Bool.true_or]
  rw [← hsplit] at hany
  exact absurd hany (by decide)

end Imece.WebHost
