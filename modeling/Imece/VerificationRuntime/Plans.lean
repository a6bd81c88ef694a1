import Imece.Lib.Text
import Imece.ProcessRuntime.Models
import Mathlib.Algebra.BigOperators.Group.List.Basic
import Mathlib.Algebra.Ring.Int.Defs

/-!
# The constructors of a verification plan

What the constructors of a check and of a plan accept. Checks are made with the default exit
codes.
-/
namespace Imece.VerificationRuntime

open Lib

def maxIdLength : ℕ := 128

def maxCheckNameLength : ℕ := 512

def maxChecks : ℕ := 16

def maxTotalTimeoutMs : ℤ := 1800000

/-- `VerificationInputError`, with its message. -/
structure VerificationInputError where
  message : String
deriving DecidableEq, Repr

/-- A character of `_ID_RE`. -/
def idPoint : CodePoint → Bool
  | .char c => c.isAlphanum || c = '.' || c = '_' || c = '-'
  | .surrogate _ => false

/-- What `_id` accepts. -/
def validId (id : Points) : Bool := id ≠ [] && id.length ≤ maxIdLength && id.all idPoint

def spacePoint : CodePoint → Bool
  | .char c => isSpaceChar c
  | .surrogate _ => false

/-- What `_name` accepts. -/
def validName (name : Points) : Bool := !name.all spacePoint && name.length ≤ maxCheckNameLength

/-- `VerificationCheck`, as its constructor accepts it. -/
structure Check where
  checkId : Points
  name : Points
  request : ProcessRuntime.ProcessRequest
  idOk : validId checkId = true
  nameOk : validName name = true

/-- `VerificationCheck(check_id, name, request)` -/
def Check.make (checkId name : Points) (request : ProcessRuntime.ProcessRequest) :
    Except VerificationInputError Check :=
  if hid : validId checkId = true then
    if hname : validName name = true then .ok ⟨checkId, name, request, hid, hname⟩
    else .error ⟨"VerificationCheck.name must be a non-empty bounded string"⟩
  else .error ⟨"VerificationCheck.check_id must be a bounded stable identifier"⟩

/-- `VerificationPlan`, as its constructor accepts it. -/
structure Plan where
  planId : Points
  checks : List Check
  idOk : validId planId = true
  nonempty : checks ≠ []
  count : checks.length ≤ maxChecks
  unique : (checks.map (·.checkId)).Nodup
  budget : (checks.map (·.request.timeoutMs)).sum ≤ maxTotalTimeoutMs

/-- `VerificationPlan(plan_id=…, checks=…)` -/
def Plan.make (planId : Points) (checks : List Check) : Except VerificationInputError Plan :=
  if hid : validId planId = true then
    if hnil : checks = [] then .error ⟨"VerificationPlan must contain at least one check"⟩
    else if hcount : checks.length ≤ maxChecks then
      if hunique : (checks.map (·.checkId)).Nodup then
        if hbudget : (checks.map (·.request.timeoutMs)).sum ≤ maxTotalTimeoutMs then
          .ok ⟨planId, checks, hid, hnil, hcount, hunique, hbudget⟩
        else .error ⟨s!"VerificationPlan timeout budget exceeds {maxTotalTimeoutMs} ms"⟩
      else .error ⟨"VerificationPlan check_id values must be unique"⟩
    else .error ⟨s!"VerificationPlan exceeds {maxChecks} checks"⟩
  else .error ⟨"VerificationPlan.plan_id must be a bounded stable identifier"⟩

/-- A check is made exactly of an id and a name that are valid. -/
theorem Check.make_ok {checkId name : Points} {request : ProcessRuntime.ProcessRequest}
    {check : Check} :
    Check.make checkId name request = .ok check ↔
      check.checkId = checkId ∧ check.name = name ∧ check.request = request := by
  unfold Check.make
  constructor
  · intro h
    split at h
    · split at h
      · cases h
        exact ⟨rfl, rfl, rfl⟩
      · cases h
    · cases h
  · rintro ⟨rfl, rfl, rfl⟩
    rw [dif_pos check.idOk, dif_pos check.nameOk]

/-- What the constructor of a plan asks of its checks. -/
structure PlanLimits (ids : List Points) (timeouts : List ℤ) : Prop where
  count : ids.length ≤ maxChecks
  unique : ids.Nodup
  budget : timeouts.sum ≤ maxTotalTimeoutMs

/-- A plan is made exactly of checks within the limits. -/
theorem Plan.make_isOk {planId : Points} {checks : List Check} (hid : validId planId = true)
    (hne : checks ≠ []) :
    (∃ plan, Plan.make planId checks = .ok plan) ↔
      PlanLimits (checks.map (·.checkId)) (checks.map (·.request.timeoutMs)) := by
  unfold Plan.make
  rw [dif_pos hid, dif_neg hne]
  by_cases hcount : checks.length ≤ maxChecks
  · by_cases hunique : (checks.map (·.checkId)).Nodup
    · by_cases hbudget : (checks.map (·.request.timeoutMs)).sum ≤ maxTotalTimeoutMs
      · rw [dif_pos hcount, dif_pos hunique, dif_pos hbudget]
        exact ⟨fun _ => ⟨by simpa using hcount, hunique, hbudget⟩, fun _ => ⟨_, rfl⟩⟩
      · rw [dif_pos hcount, dif_pos hunique, dif_neg hbudget]
        constructor
        · rintro ⟨plan, h⟩
          cases h
        · intro h
          exact (hbudget h.budget).elim
    · rw [dif_pos hcount, dif_neg hunique]
      constructor
      · rintro ⟨plan, h⟩
        cases h
      · intro h
        exact (hunique h.unique).elim
  · rw [dif_neg hcount]
    constructor
    · rintro ⟨plan, h⟩
      cases h
    · intro h
      have hlength := h.count
      rw [List.length_map] at hlength
      exact (hcount hlength).elim

end Imece.VerificationRuntime
