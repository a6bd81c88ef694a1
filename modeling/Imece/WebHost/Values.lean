import Imece.ToolRuntime.Json

/-!
# Reading JSON values

Python's ways into a decoded JSON value: `get`, truth, and iteration. `none` where the
code raises.
-/
namespace Imece.WebHost

open Lib
open ToolRuntime (Value)

def dictGet (entries : List (Value × Value)) (key : String) : Option Value :=
  (entries.find? fun
    | (.str found, _) => found = Points.ofString key
    | _ => false).map Prod.snd

def falsy : Value → Bool
  | .none => true
  | .bool b => !b
  | .int n => n = 0
  | .float repr => repr = "0.0" || repr = "-0.0"
  | .nonFinite _ => false
  | .str text => text.isEmpty
  | .list items => items.isEmpty
  | .dict entries => entries.isEmpty
  | .object _ => false

/-- `entries.get(key) or default` -/
def getOr (entries : List (Value × Value)) (key : String) (default : Value) : Value :=
  match dictGet entries key with
  | some value => if falsy value then default else value
  | none => default

/-- `value or {}`, as a dict. -/
def asDict (value : Value) : Option (List (Value × Value)) :=
  if falsy value then some []
  else
    match value with
    | .dict entries => some entries
    | _ => none

/-- `for item in value or []` -/
def asItems (value : Value) : Option (List Value) :=
  if falsy value then some []
  else
    match value with
    | .list items => some items
    | .dict entries => some (entries.map Prod.fst)
    | .str text => some (text.map fun point => .str [point])
    | _ => none

/-- The dict an item is; anything else has no `get`. -/
def itemDict : Value → Option (List (Value × Value))
  | .dict entries => some entries
  | _ => none

end Imece.WebHost
