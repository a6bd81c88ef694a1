import Imece.Lib.Text
import Imece.WebHost.Values
import Mathlib.Data.List.Infix

/-!
# The run command of a project

`runconfig.py`: the command an explicit text, the active file or the project's own files
give, and the fingerprint trust is kept under. The project's files are what each read of
a call finds.
-/
namespace Imece.WebHost

open Lib Lib.CodePoint
open ToolRuntime (Value loads)

/-- What a read of one path finds. `unreadable` exists and cannot be read as UTF-8 text. -/
inductive FileView where
  | missing
  | unreadable
  | text (content : Points)

/-- What the reads of one call find; `.imece/run.json`, `package.json` and the like are
each looked at once. -/
abbrev ProjectView := String → FileView

/-- The platform: the name of the Python executable, and what separates path components. -/
structure Platform where
  py : String
  separator : CodePoint → Bool

def posix : Platform where
  py := "python3"
  separator := (· = CodePoint.char '/')

/-- The class of an exception the code does not catch. -/
inductive PyError where
  | attributeError
  | typeError
  | unicodeEncodeError
deriving DecidableEq, Repr

inductive CommandSource where
  | explicit
  | file
  | projectConfig
  | detected
deriving DecidableEq, Repr

def CommandSource.value : CommandSource → String
  | .explicit => "explicit"
  | .file => "file"
  | .projectConfig => "project_config"
  | .detected => "detected"

structure Resolved where
  command : Points
  source : CommandSource
deriving DecidableEq

def runJson : String := ".imece/run.json"

def isSpacePoint : CodePoint → Bool
  | char c => isSpaceChar c
  | surrogate _ => false

/-- `not text.strip()` -/
def blank (text : Points) : Bool := text.all isSpacePoint

/-- `text.strip()` -/
def strip (text : Points) : Points :=
  ((text.dropWhile isSpacePoint).reverse.dropWhile isSpacePoint).reverse

section Files

variable (platform : Platform)

/-- `Path(rel).suffix.lower()` -/
def suffix (rel : Points) : Points :=
  let name := ((rel.splitOnP platform.separator).filter
    fun part => part ≠ [] && part ≠ [char '.']).getLastD []
  let ext := (name.reverse.takeWhile (· ≠ char '.')).reverse
  let stem := name.length - (ext.length + 1)
  if ext = [] || stem = 0 then []
  else
    char '.' :: ext.map fun
      | char c => char c.toLower
      | point => point

/-- `file_command`: the command of the active file, by its extension. -/
def fileCommand (rel : Points) : Option Points :=
  let quoted := [char '"'] ++ rel ++ [char '"']
  let ext := suffix platform rel
  if ext = Points.ofString ".py" then some (Points.ofString (platform.py ++ " ") ++ quoted)
  else if ext = Points.ofString ".js" || ext = Points.ofString ".mjs" then
    some (Points.ofString "node " ++ quoted)
  else none

end Files

/-- `json.loads` of a file; `none` is an error the callers catch. -/
def readJson (view : ProjectView) (path : String) : Option Value :=
  match view path with
  | .text content => loads content
  | _ => none

/-- The command saved for the project. -/
def loadProjectCommand (view : ProjectView) : Except PyError (Option Points) :=
  match readJson view runJson with
  | none => .ok none
  | some (.dict entries) =>
      match dictGet entries "project" with
      | some (.str command) => .ok (if blank command then none else some command)
      | _ => .ok none
  | some _ => .error .attributeError

/-- `name in scripts` -/
def holdsScript (name : String) : Value → Except PyError Bool
  | .dict entries => .ok (dictGet entries name).isSome
  | .list items => .ok (items.any fun
      | .str text => text = Points.ofString name
      | _ => false)
  | .str text => .ok (decide (Points.ofString name <:+: text))
  | _ => .error .typeError

/-- The command `package.json` names; `none` when the file is not one. -/
def packageCommand (view : ProjectView) : Except PyError (Option String) :=
  match readJson view "package.json" with
  | none => .ok none
  | some (.dict entries) => do
      let scripts := (dictGet entries "scripts").getD .none
      let scripts := if falsy scripts then .dict [] else scripts
      if ← holdsScript "dev" scripts then return some "npm run dev"
      if ← holdsScript "start" scripts then return some "npm start"
      return none
  | some _ => .error .attributeError

def present (view : ProjectView) (path : String) : Bool :=
  match view path with
  | .missing => false
  | _ => true

/-- `detect_project_command`: what the project's own files suggest. -/
def detectProjectCommand (platform : Platform) (view : ProjectView) :
    Except PyError (Option String) := do
  match ← packageCommand view with
  | some command => return some command
  | none =>
      if present view "Cargo.toml" then return some "cargo run"
      else if present view "go.mod" then return some "go run ."
      else if present view "main.py" then return some (platform.py ++ " \"main.py\"")
      else if present view "app.py" then return some (platform.py ++ " \"app.py\"")
      else return none

/-- `resolve`: the command and where it comes from. -/
def resolve (platform : Platform) (view : ProjectView) (rel command : Option Points) :
    Except PyError (Option Resolved) :=
  match command.filter (· ≠ []), rel.filter (· ≠ []) with
  | some command, _ => .ok (some { command, source := .explicit })
  | none, some rel =>
      .ok ((fileCommand platform rel).map fun command => { command, source := .file })
  | none, none => do
      match ← loadProjectCommand view with
      | some saved => return some { command := saved, source := .projectConfig }
      | none =>
          return (← detectProjectCommand platform view).map fun detected =>
            { command := Points.ofString detected, source := .detected }

section Fingerprints

variable {δ : Type} (sha256 : List UInt8 → δ)

/-- The text a fingerprint is taken of. -/
def fingerprintText (root : Points) (command : Points) (source : CommandSource) : Points :=
  root ++ char '\x00' :: (Points.ofString source.value ++ char '\x00' :: command)

def fingerprint (root : Points) (command : Points) (source : CommandSource) :
    Except PyError δ :=
  match (fingerprintText root command source).encodeUtf8 with
  | some raw => .ok (sha256 raw)
  | none => .error .unicodeEncodeError

lemma fingerprintText_injective {root command other : Points} {source source' : CommandSource}
    (h : fingerprintText root command source = fingerprintText root other source') :
    command = other ∧ source = source' := by
  have htail : Points.ofString source.value ++ char '\x00' :: command =
      Points.ofString source'.value ++ char '\x00' :: other :=
    (List.cons_inj_right _).mp (List.append_cancel_left h)
  cases source <;> cases source' <;>
    simp [CommandSource.value, Points.ofString, Points.ofChars] at htail ⊢ <;> exact htail

/-- Under one root, a fingerprint names its command and the command's source. -/
theorem fingerprint_injective (hsha : Function.Injective sha256) {root command other : Points}
    {source source' : CommandSource} {print : δ}
    (h : fingerprint sha256 root command source = .ok print)
    (h' : fingerprint sha256 root other source' = .ok print) :
    command = other ∧ source = source' := by
  unfold fingerprint at h h'
  cases hraw : (fingerprintText root command source).encodeUtf8 with
  | none => simp [hraw] at h
  | some raw =>
      cases hraw' : (fingerprintText root other source').encodeUtf8 with
      | none => simp [hraw'] at h'
      | some raw' =>
          rw [hraw] at h
          rw [hraw'] at h'
          injection h with h
          injection h' with h'
          have hbytes : raw = raw' := hsha (h.trans h'.symm)
          subst hbytes
          exact fingerprintText_injective (Points.encodeUtf8_injective hraw hraw')

end Fingerprints

end Imece.WebHost
