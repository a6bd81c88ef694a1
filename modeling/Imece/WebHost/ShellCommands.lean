import Imece.Lib.ShellWords
import Imece.WebHost.Runconfig

/-!
# The command of a file, as the shell reads it

The command of the active file goes to a POSIX shell as one text, with the file's name between
double quotes.
-/
namespace Imece.WebHost

open Lib Lib.CodePoint Lib.Shell

/-- The program that runs a file. -/
def interpreter (platform : Platform) (rel : Points) : String :=
  if suffix platform rel = Points.ofString ".py" then platform.py else "node"

/-- The shell reads a command as a program and one file, which is no option. -/
def RunsFile (command : Points) (program : String) (rel : Points) : Prop :=
  plainWords command = some [Points.ofString program, rel] ∧ rel.head? ≠ some (char '-')

lemma fileCommand_eq {platform : Platform} {rel command : Points}
    (h : fileCommand platform rel = some command) :
    command = Points.ofString (interpreter platform rel) ++
      char ' ' :: char '"' :: (rel ++ [char '"']) := by
  rw [fileCommand] at h
  rw [interpreter]
  split at h
  · rename_i hpy
    rw [if_pos hpy, ← Option.some.inj h]
    simp [Points.ofString, Points.ofChars]
  · rename_i hpy
    split at h
    · rw [if_neg hpy, ← Option.some.inj h]
      rfl
    · cases h

/-- Running a file runs that file exactly if its name is literal between double quotes and does
not begin like an option. -/
theorem runs_file_iff {rel command : Points} (h : fileCommand posix rel = some command) :
    RunsFile command (interpreter posix rel) rel ↔
      literal rel = true ∧ rel.head? ≠ some (char '-') := by
  have hname : (Points.ofString (interpreter posix rel)).all isOrdinary = true ∧
      Points.ofString (interpreter posix rel) ≠ [] := by
    rw [interpreter]
    split <;> decide
  rw [RunsFile, fileCommand_eq h, plainWords_quoted hname.1 hname.2]

theorem runs_file_sample :
    RunsFile (Points.ofString "python3 \"src/my file.py\"") "python3"
      (Points.ofString "src/my file.py") :=
  (@runs_file_iff (Points.ofString "src/my file.py") (Points.ofString "python3 \"src/my file.py\"")
    (by decide +kernel)).mpr (by decide +kernel)

/-- A command in the name of a file is run. -/
theorem name_substituted :
    ¬ ∀ rel command : Points, fileCommand posix rel = some command →
      RunsFile command (interpreter posix rel) rel := by
  intro h
  have hruns := h (Points.ofString "$(id).py") (Points.ofString "python3 \"$(id).py\"")
    (by decide +kernel)
  have hnone : plainWords (Points.ofString "python3 \"$(id).py\"") = none := by
    decide +kernel
  rw [RunsFile, hnone] at hruns
  cases hruns.1

end Imece.WebHost
