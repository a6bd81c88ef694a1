import Imece.ToolRuntime.Schema

/-!
# The permission policy

Rules over actions and resources with shell patterns, and the effect of a policy on the
requests of a call: the strongest of the effects of its requests, each of which has the
strongest effect of the rules that match it.
-/
namespace Imece.ToolRuntime

open Lib Lib.CodePoint

inductive PermissionEffect where
  | allow
  | ask
  | deny
deriving DecidableEq, Repr

structure PermissionRequest where
  action : Points
  resource : Points
deriving DecidableEq, Repr

section Patterns

/-- One element of a shell pattern. A set is given by the parts between its ranges: the
last point of a part and the first of the next one bound a range. -/
inductive PatternItem where
  | star
  | any
  | never
  | literal (point : CodePoint)
  | set (negated : Bool) (parts : List Points)

/-- The parts of a bracket's text. A hyphen that bounds a range has a point before it,
and the two points after it bound no other range. -/
def rangeParts (skip : ℕ) (current : Points) : Points → List Points
  | [] => [current]
  | point :: rest =>
      if skip = 0 ∧ point = char '-' then current :: rangeParts 2 [] rest
      else rangeParts (skip - 1) (current ++ [point]) rest

/-- A hyphen at the end of a bracket stands for itself. -/
def closeParts : List Points → List Points
  | [part, []] => [part ++ [char '-']]
  | part :: rest => part :: closeParts rest
  | [] => []

/-- Empty ranges go, from the last one on. -/
def joinPart (part : Points) : List Points → List Points
  | [] => [part]
  | next :: rest =>
      match part.getLast?, next.head? with
      | some last, some first =>
          if first.value < last.value then (part.dropLast ++ next.tail) :: rest
          else part :: next :: rest
      | _, _ => part :: next :: rest

def setOf (text : Points) : PatternItem :=
  let skip := if text.head? = some (char '!') then 2 else 1
  match (closeParts (rangeParts skip [] text)).foldr joinPart [] with
  | [[]] => .never
  | [[char '!']] => .any
  | (char '!' :: part) :: rest => .set true (part :: rest)
  | parts => .set false parts

/-- The text of a bracket and what follows its end, if it has one. -/
def closeBracket (text : Points) : Option (Points × Points) :=
  let skipped := if text.head? = some (char '!') then 1 else 0
  let start := if text[skipped]? = some (char ']') then skipped + 1 else skipped
  let inside := (text.drop start).takeWhile (· ≠ char ']')
  let stop := start + inside.length
  if stop < text.length then some (text.take stop, text.drop (stop + 1)) else none

/-- `fnmatch.translate`; the length of the pattern is enough fuel. -/
def translate : ℕ → Points → List PatternItem
  | 0, _ => []
  | _, [] => []
  | fuel + 1, point :: rest =>
      if point = char '*' then .star :: translate fuel rest
      else if point = char '?' then .any :: translate fuel rest
      else if point = char '[' then
        match closeBracket rest with
        | some (text, after) => setOf text :: translate fuel after
        | none => .literal point :: translate fuel rest
      else .literal point :: translate fuel rest

def inRanges (point : CodePoint) : List Points → Bool
  | part :: next :: rest =>
      (match part.getLast?, next.head? with
        | some low, some high => decide (low.value ≤ point.value ∧ point.value ≤ high.value)
        | _, _ => false) || inRanges point (next :: rest)
  | _ => false

def PatternItem.accepts (point : CodePoint) : PatternItem → Bool
  | .star | .never => false
  | .any => true
  | .literal other => point == other
  | .set negated parts => negated != (parts.any (·.contains point) || inRanges point parts)

def matchItems : List PatternItem → Points → Bool
  | [], text => text.isEmpty
  | .star :: rest, text => text.tails.any fun tail => matchItems rest tail
  | item :: rest, point :: text => item.accepts point && matchItems rest text
  | _ :: _, [] => false

/-- `fnmatch.fnmatchcase` -/
def fnmatchcase (name pattern : Points) : Bool :=
  matchItems (translate pattern.length pattern) name

end Patterns

structure PermissionRule where
  actionPattern : Points
  resourcePattern : Points
  effect : PermissionEffect
deriving DecidableEq, Repr

def PermissionRule.matches (rule : PermissionRule) (request : PermissionRequest) : Bool :=
  fnmatchcase request.action rule.actionPattern && fnmatchcase request.resource rule.resourcePattern

structure PermissionEvaluation where
  request : PermissionRequest
  effect : PermissionEffect
  matchedRules : List PermissionRule
deriving DecidableEq, Repr

structure PolicyDecision where
  effect : PermissionEffect
  evaluations : List PermissionEvaluation
deriving DecidableEq, Repr

structure PolicyEvaluator where
  rules : List PermissionRule
  defaultEffect : PermissionEffect := .ask

namespace PolicyEvaluator

variable (policy : PolicyEvaluator)

def evaluateOne (request : PermissionRequest) : PermissionEvaluation :=
  let found := policy.rules.filter (·.matches request)
  let effects : List PermissionEffect := found.map (·.effect)
  let effect : PermissionEffect :=
    if .deny ∈ effects then .deny
    else if .ask ∈ effects then .ask
    else if .allow ∈ effects then .allow
    else policy.defaultEffect
  ⟨request, effect, found⟩

def evaluate (requests : List PermissionRequest) : Except Raised PolicyDecision :=
  if requests = [] then .error (.text .policy "En az bir PermissionRequest gerekli.")
  else
    let evaluations := requests.map policy.evaluateOne
    let effects : List PermissionEffect := evaluations.map (·.effect)
    let effect : PermissionEffect :=
      if .deny ∈ effects then .deny
      else if .ask ∈ effects then .ask
      else .allow
    .ok ⟨effect, evaluations⟩

end PolicyEvaluator

/-- How strong an effect is: one that is stronger prevails. -/
def PermissionEffect.rank : PermissionEffect → ℕ
  | .allow => 0
  | .ask => 1
  | .deny => 2

namespace PolicyEvaluator

variable {policy : PolicyEvaluator}

/-- What the requests of a call come to: the strongest of their effects. -/
structure Decides (policy : PolicyEvaluator) (requests : List PermissionRequest)
    (effect : PermissionEffect) : Prop where
  upper : ∀ request ∈ requests, (policy.evaluateOne request).effect.rank ≤ effect.rank
  attained : ∃ request ∈ requests, (policy.evaluateOne request).effect = effect

theorem evaluate_decides {requests : List PermissionRequest} {decision : PolicyDecision}
    (h : policy.evaluate requests = .ok decision) : policy.Decides requests decision.effect := by
  rw [evaluate] at h
  split_ifs at h with hempty
  cases h
  have hmem {effect : PermissionEffect} :
      effect ∈ ((requests.map policy.evaluateOne).map (·.effect)) ↔
        ∃ request ∈ requests, (policy.evaluateOne request).effect = effect := by
    simp
  simp only [hmem]
  constructor
  · intro request hrequest
    split_ifs with hdeny hask
    · cases (policy.evaluateOne request).effect <;> simp [PermissionEffect.rank]
    · cases heffect : (policy.evaluateOne request).effect with
      | deny => exact absurd ⟨request, hrequest, heffect⟩ hdeny
      | _ => simp [PermissionEffect.rank]
    · cases heffect : (policy.evaluateOne request).effect with
      | deny => exact absurd ⟨request, hrequest, heffect⟩ hdeny
      | ask => exact absurd ⟨request, hrequest, heffect⟩ hask
      | allow => simp [PermissionEffect.rank]
  · split_ifs with hdeny hask
    · exact hdeny
    · exact hask
    · obtain ⟨request, hrequest⟩ := List.exists_mem_of_ne_nil requests hempty
      refine ⟨request, hrequest, ?_⟩
      cases heffect : (policy.evaluateOne request).effect with
      | deny => exact absurd ⟨request, hrequest, heffect⟩ hdeny
      | ask => exact absurd ⟨request, hrequest, heffect⟩ hask
      | allow => rfl

end PolicyEvaluator

end Imece.ToolRuntime
