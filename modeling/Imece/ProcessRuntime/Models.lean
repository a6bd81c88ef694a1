import Imece.Lib.CodePoints
import Mathlib.Algebra.GroupWithZero.Nat

/-!
# Process requests

The contract of a process request: what its constructor accepts. The request is one of the
default directory, and adds nothing to the environment.
-/
namespace Imece.ProcessRuntime

open Lib

def maxTimeoutMs : ℤ := 600000

def maxArgv : ℕ := 128

def maxArgumentLength : ℕ := 16384

def maxTotalArgumentLength : ℕ := 256 * 1024

/-- `ProcessInputError`, with its message. -/
structure ProcessInputError where
  message : String
deriving DecidableEq, Repr

/-- The checks of one argument, and the length of the arguments so far. -/
def addArgument (field : String) (index total : ℕ) (argument : Points) :
    Except ProcessInputError ℕ :=
  if CodePoint.char '\x00' ∈ argument then
    .error ⟨s!"Every {field} element must be a NUL-free string"⟩
  else if index = 0 ∧ argument = [] then .error ⟨s!"{field}[0] must be non-empty"⟩
  else if maxArgumentLength < argument.length then .error ⟨s!"A {field} argument is too long"⟩
  else .ok (total + argument.length)

def argumentsTotal (field : String) : ℕ → ℕ → List Points → Except ProcessInputError ℕ
  | _, total, [] => .ok total
  | index, total, argument :: rest => do
      let total ← addArgument field index total argument
      argumentsTotal field (index + 1) total rest

/-- `_validated_argv` -/
def validatedArgv (field : String) (argv : List Points) : Except ProcessInputError (List Points) :=
  if argv = [] then .error ⟨s!"{field} must not be empty"⟩
  else if maxArgv < argv.length then .error ⟨s!"{field} exceeds {maxArgv} arguments"⟩
  else
    match argumentsTotal field 0 0 argv with
    | .error e => .error e
    | .ok total =>
        if maxTotalArgumentLength < total then .error ⟨s!"Total {field} length is too large"⟩
        else .ok argv

/-- An argument vector within the limits. -/
structure ValidArgv (argv : List Points) : Prop where
  nonempty : argv ≠ []
  count : argv.length ≤ maxArgv
  nulFree : ∀ argument ∈ argv, CodePoint.char '\x00' ∉ argument
  program : argv.head? ≠ some []
  lengths : ∀ argument ∈ argv, argument.length ≤ maxArgumentLength
  total : (argv.map List.length).sum ≤ maxTotalArgumentLength

lemma addArgument_ok {field : String} {index total sum : ℕ} {argument : Points} :
    addArgument field index total argument = .ok sum ↔
      sum = total + argument.length ∧ CodePoint.char '\x00' ∉ argument ∧
        (index = 0 → argument ≠ []) ∧ argument.length ≤ maxArgumentLength := by
  unfold addArgument
  by_cases hnul : CodePoint.char '\x00' ∈ argument
  · simp [hnul]
  by_cases hempty : index = 0 ∧ argument = []
  · simp [hempty]
  by_cases hlong : maxArgumentLength < argument.length
  · simp [hnul, hempty, hlong]
  · have hprogram : index = 0 → argument ≠ [] := fun hindex hnil => hempty ⟨hindex, hnil⟩
    simp only [hnul, hempty, hlong, if_false, Except.ok.injEq, not_false_eq_true, true_and]
    exact ⟨fun h => ⟨h.symm, hprogram, by omega⟩, fun h => h.1.symm⟩

lemma argumentsTotal_ok {field : String} {argv : List Points} {index total sum : ℕ} :
    argumentsTotal field index total argv = .ok sum ↔
      sum = total + (argv.map List.length).sum ∧
        (∀ argument ∈ argv, CodePoint.char '\x00' ∉ argument) ∧
        (index = 0 → argv.head? ≠ some []) ∧
        ∀ argument ∈ argv, argument.length ≤ maxArgumentLength := by
  induction argv generalizing index total with
  | nil => simp [argumentsTotal, eq_comm]
  | cons argument rest ih =>
      rw [argumentsTotal]
      cases hadd : addArgument field index total argument with
      | error e =>
          have hnot : ¬ ∃ sum, addArgument field index total argument = .ok sum := by simp [hadd]
          simp only [addArgument_ok, exists_and_right, exists_eq, true_and] at hnot
          constructor
          · intro h
            cases h
          · rintro ⟨-, hnul, hprogram, hlong⟩
            have hfirst : index = 0 → argument ≠ [] := by simpa using hprogram
            exact (hnot ⟨hnul argument (by simp), hfirst, hlong argument (by simp)⟩).elim
      | ok next =>
          obtain ⟨rfl, hnul, hprogram, hlong⟩ := addArgument_ok.mp hadd
          have hstep : (Except.ok (total + argument.length) >>= fun total =>
              argumentsTotal field (index + 1) total rest) =
                argumentsTotal field (index + 1) (total + argument.length) rest := rfl
          rw [hstep, ih]
          simp only [List.map_cons, List.sum_cons, List.forall_mem_cons, List.head?_cons, ne_eq,
            Option.some.injEq, Nat.add_eq_zero_iff, one_ne_zero, and_false, false_imp_iff,
            true_and, hnul, hlong, not_false_eq_true, Nat.add_assoc]
          constructor
          · intro h
            exact ⟨h.1, h.2.1, hprogram, h.2.2⟩
          · intro h
            exact ⟨h.1, h.2.1, h.2.2.2⟩

theorem validatedArgv_ok {field : String} {argv out : List Points} :
    validatedArgv field argv = .ok out ↔ out = argv ∧ ValidArgv argv := by
  unfold validatedArgv
  by_cases hnil : argv = []
  · rw [if_pos hnil]
    constructor
    · intro h
      cases h
    · intro h
      exact (h.2.nonempty hnil).elim
  by_cases hcount : maxArgv < argv.length
  · rw [if_neg hnil, if_pos hcount]
    constructor
    · intro h
      cases h
    · intro h
      have := h.2.count
      omega
  rw [if_neg hnil, if_neg hcount]
  cases htotal : argumentsTotal field 0 0 argv with
  | error e =>
      constructor
      · intro h
        cases h
      · rintro ⟨-, hvalid⟩
        have hok := (@argumentsTotal_ok field argv 0 0 _).mpr
          ⟨rfl, hvalid.nulFree, fun _ => hvalid.program, hvalid.lengths⟩
        rw [htotal] at hok
        cases hok
  | ok total =>
      obtain ⟨rfl, hnul, hprogram, hlong⟩ := argumentsTotal_ok.mp htotal
      simp only [Nat.zero_add]
      by_cases hsum : maxTotalArgumentLength < (argv.map List.length).sum
      · have hinvalid : ¬ ValidArgv argv := fun hvalid => by
          have := hvalid.total
          omega
        simp [hsum, hinvalid]
      · have hvalid : ValidArgv argv :=
          ⟨hnil, by omega, hnul, hprogram rfl, hlong, by omega⟩
        simp [hsum, hvalid, eq_comm]

/-- A request that the constructor accepts. -/
structure ProcessRequest where
  argv : List Points
  timeoutMs : ℤ
  validArgv : ValidArgv argv
  positive : 0 < timeoutMs
  bounded : timeoutMs ≤ maxTimeoutMs

/-- `ProcessRequest(argv=…, timeout_ms=…)` -/
def ProcessRequest.make (argv : List Points) (timeoutMs : ℤ) :
    Except ProcessInputError ProcessRequest :=
  match hargv : validatedArgv "ProcessRequest.argv" argv with
  | .error e => .error e
  | .ok _ =>
      if htimeout : 0 < timeoutMs ∧ timeoutMs ≤ maxTimeoutMs then
        .ok ⟨argv, timeoutMs, (validatedArgv_ok.mp hargv).2, htimeout.1, htimeout.2⟩
      else .error ⟨s!"timeout_ms must be a positive integer <= {maxTimeoutMs}"⟩

/-- A request is made exactly of what is within the limits, and keeps it. -/
theorem ProcessRequest.make_ok {argv : List Points} {timeoutMs : ℤ} {request : ProcessRequest} :
    ProcessRequest.make argv timeoutMs = .ok request ↔
      request.argv = argv ∧ request.timeoutMs = timeoutMs := by
  unfold ProcessRequest.make
  constructor
  · intro h
    split at h
    · cases h
    · split at h
      · cases h
        exact ⟨rfl, rfl⟩
      · cases h
  · rintro ⟨rfl, rfl⟩
    split
    · next e hargv =>
        rw [validatedArgv_ok.mpr ⟨rfl, request.validArgv⟩] at hargv
        cases hargv
    · rw [dif_pos ⟨request.positive, request.bounded⟩]

end Imece.ProcessRuntime
