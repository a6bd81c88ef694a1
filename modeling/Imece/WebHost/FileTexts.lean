import Imece.Lib.UnifiedDiff
import Imece.Project

/-!
# Texts of project files

The diff that a proposal shows and the text that is then written; the editor, which reads a whole
file and writes it back.
-/
namespace Imece

open Lib Lib.LinkTree

namespace Project

variable (project : Project)

/-- Writing over a file without a backup. -/
lemma apply_over {tree : LinkTree (List UInt8)} {rel : String} {old : List UInt8}
    (hroot : project.root <+: joined project.root rel)
    (h : tree.contents (joined project.root rel) = some old) (newContent : List Char) :
    (project.apply rel newContent false tree).result = .ok () ∧
      (project.apply rel newContent false tree).tree.contents (joined project.root rel) =
        some (Utf8.encode (ended newContent)) := by
  obtain ⟨loc, hplace⟩ := Os.contents_iff.mp h
  obtain ⟨dir, hdir⟩ := Os.parent_of_file hplace
  have hplain := joined_plain project rel
  have hparent : ∀ name ∈ (joined project.root rel).dropLast.reverse, name ≠ "." ∧ name ≠ ".." :=
    fun name hname => hplain name (List.dropLast_subset _ (List.mem_reverse.mp hname))
  have hrun := Os.makedirs_run tree true _ hparent
  rw [Os.missing_found hparent (by rwa [List.reverse_reverse])] at hrun
  rw [apply, safe, within, if_pos hroot, Os.bind_ok (Os.pure_run _ tree),
    Os.bind_ok (Os.run_result (hrun.ok dir rfl (Or.inl rfl))), hrun.made.same]
  exact Os.writeFile_over h _

/-- `exists` -/
def isFile (rel : String) : Disk Bool := do
  let p ← project.safe rel
  return (← Os.tree).isfile p

end Project

namespace Project

variable (project : Project)

/-- `make_diff`: the parts of the diff, joined. -/
def makeDiff (difflib : Difflib) (rel : String) (newContent : List Char) : Disk (List Char) := do
  let there ← project.isFile rel
  let old ← if there then project.readFile rel else pure []
  let diff := difflib.unifiedDiff ("a/" ++ rel).toList ("b/" ++ rel).toList (keptLines old)
    (keptLines newContent)
  return diff.flatten

/-- The diff that is shown, applied to the text of the file, gives what `apply` writes. -/
def ShowsChange (difflib : Difflib) (tree : LinkTree (List UInt8)) (rel : String)
    (newContent : List Char) : Prop :=
  ∃ bytes diff text, tree.contents (joined project.root rel) = some bytes ∧
    (project.makeDiff difflib rel newContent tree).result = .ok diff ∧
    difflib.patch diff (fileText bytes) = some text ∧
    (project.apply rel newContent false tree).tree.contents (joined project.root rel) =
      some (Utf8.encode text)

variable {project}

section Shown

variable {tree : LinkTree (List UInt8)} {rel : String} {bytes : List UInt8}
  (hroot : project.root <+: joined project.root rel)
  (hfile : tree.contents (joined project.root rel) = some bytes)
include hroot hfile

lemma readFile_result :
    project.readFile rel tree =
      ⟨.ok ((fileText bytes).take maxReadChars), tree, (project.readFile rel tree).effects⟩ := by
  obtain ⟨loc, hplace⟩ := Os.contents_iff.mp hfile
  rw [readFile, safe, within, if_pos hroot, Os.bind_ok (Os.pure_run _ tree),
    Os.bind_ok (Os.readFile_found tree hplace)]
  rfl

lemma isFile_result : project.isFile rel tree = ⟨.ok true, tree, []⟩ := by
  obtain ⟨loc, hplace⟩ := Os.contents_iff.mp hfile
  rw [isFile, safe, within, if_pos hroot, Os.bind_ok (Os.pure_run _ tree), Os.tree_bind,
    Os.isfile_iff.mpr ⟨loc, bytes, hplace⟩]
  rfl

/-- The diff is made of the first characters of the file only. -/
lemma makeDiff_result (difflib : Difflib) (newContent : List Char) :
    (project.makeDiff difflib rel newContent tree).result =
      .ok (difflib.unifiedDiff ("a/" ++ rel).toList ("b/" ++ rel).toList
        (keptLines ((fileText bytes).take maxReadChars)) (keptLines newContent)).flatten := by
  rw [makeDiff, Os.bind_ok (isFile_result hroot hfile)]
  simp only [if_true]
  rw [Os.bind_ok (readFile_result hroot hfile)]
  rfl

/-- A shown change is one of the texts. -/
lemma showsChange_iff_patch (difflib : Difflib) (newContent : List Char) :
    project.ShowsChange difflib tree rel newContent ↔
      difflib.patch (difflib.unifiedDiff ("a/" ++ rel).toList ("b/" ++ rel).toList
          (keptLines ((fileText bytes).take maxReadChars)) (keptLines newContent)).flatten
        (fileText bytes) = some (ended newContent) := by
  rw [ShowsChange, hfile, makeDiff_result hroot hfile,
    (project.apply_over hroot hfile newContent).2]
  constructor
  · rintro ⟨_, _, text, hbytes, hdiff, hpatch, hwritten⟩
    obtain rfl := Option.some.inj hbytes
    obtain rfl := Except.ok.inj hdiff
    rw [hpatch, Utf8.encode_injective (Option.some.inj hwritten)]
  · intro hpatch
    exact ⟨bytes, _, ended newContent, rfl, rfl, hpatch, rfl⟩

end Shown

lemma ended_eq_self {newContent : List Char} :
    ended newContent = newContent ↔ newContent.getLast? = some '\n' := by
  rw [ended]
  split
  · rename_i h
    exact iff_of_true rfl h
  · rename_i h
    exact iff_of_false (by simp) h

lemma keptLines_injective : Function.Injective keptLines := by
  intro text other h
  rw [← flatten_keptLines text, h, flatten_keptLines]

/-- The diff shows nothing, and the file stays as it is. -/
def Unmoved (text newContent : List Char) : Prop :=
  text.take maxReadChars = newContent ∧ text = ended newContent

/-- Neither the cut of the read nor the newline of the write tells, and the diff is one of whole
lines. -/
structure Told (rel : String) (text newContent : List Char) : Prop where
  whole : text.length ≤ maxReadChars
  ended : newContent.getLast? = some '\n'
  name : '\n' ∉ rel.toList
  old : WholeLines text
  new : WholeLines newContent

/-- A project with one file, of one line. -/
def lineTree : LinkTree (List UInt8) :=
  (LinkTree.bare.put [] "p" .dir).put ["p"] "f" (.file [97, 10])

/-- A project with one file, whose line is not ended. -/
def openTree : LinkTree (List UInt8) :=
  (LinkTree.bare.put [] "p" .dir).put ["p"] "f" (.file [97])

end Project

/-- What the editor gets of a file. -/
inductive EditorFile where
  | opened (content : List Char)
  | tooLarge
deriving DecidableEq

namespace WebHost

/-- More bytes than this the editor does not open. -/
def editorMaxBytes : ℕ := 5000000

/-- `fs.readFile` -/
def readFile (project : Project) (rel : String) : Disk EditorFile := do
  let p ← project.safe rel
  match (← Os.tree).contents p with
  | none => Os.throw .fileNotFound
  | some bytes =>
      if bytes.length > editorMaxBytes then return .tooLarge
      else
        let content ← Os.readFile p
        return .opened (Project.fileText content)

/-- `fs.writeFile`, which makes no backup. -/
def writeFile (project : Project) (rel : String) (content : List Char) : Disk Unit :=
  project.apply rel content false

section RoundTrip

lemma no_return (text : List Char) : '\r' ∉ Project.universalNewlines text := by
  fun_induction Project.universalNewlines text with
  | case1 rest ih => simpa using ih
  | case2 rest hother ih => simpa using ih
  | case3 c rest hpair hreturn ih =>
      intro hmem
      rcases List.mem_cons.mp hmem with rfl | hmem
      · exact hreturn rfl
      · exact ih hmem
  | case4 => simp

lemma universalNewlines_self {text : List Char} (h : '\r' ∉ text) :
    Project.universalNewlines text = text := by
  fun_induction Project.universalNewlines text with
  | case1 rest ih => simp at h
  | case2 rest hother ih => simp at h
  | case3 c rest hpair hreturn ih => rw [ih fun hmem => h (List.mem_cons_of_mem _ hmem)]
  | case4 => rfl

/-- The bytes of a text whose lines end as the editor ends them, the last one too. -/
def LineText (bytes : List UInt8) : Prop :=
  ∃ text, bytes = Utf8.encode text ∧ '\r' ∉ text ∧ text.getLast? = some '\n'

lemma ended_getLast (text : List Char) : (Project.ended text).getLast? = some '\n' := by
  rw [Project.ended]
  split
  · assumption
  · simp

/-- What is read and written back is the same exactly for texts of ended lines. -/
lemma written_back (bytes : List UInt8) :
    Utf8.encode (Project.ended (Project.fileText bytes)) = bytes ↔ LineText bytes := by
  constructor
  · intro h
    refine ⟨_, h.symm, ?_, ended_getLast _⟩
    have htext := no_return (Utf8.decodeReplace bytes)
    rw [Project.ended, Project.fileText]
    split
    · exact htext
    · simpa using htext
  · intro ⟨text, hbytes, hreturn, hlast⟩
    rw [Project.fileText, hbytes, Utf8.decodeReplace_encode, universalNewlines_self hreturn,
      Project.ended_eq_self.mpr hlast]

variable {project : Project} {tree : LinkTree (List UInt8)} {rel : String} {content : List Char}

/-- What the editor opens is the text of a file of the project. -/
lemma readFile_opened (h : (readFile project rel tree).result = .ok (.opened content)) :
    project.root <+: Project.joined project.root rel ∧ (readFile project rel tree).tree = tree ∧
      ∃ bytes, tree.contents (Project.joined project.root rel) = some bytes ∧
        content = Project.fileText bytes := by
  rw [readFile, Project.safe, Project.within] at h ⊢
  by_cases hroot : project.root <+: Project.joined project.root rel
  · rw [if_pos hroot, Os.bind_ok (Os.pure_run _ tree), Os.tree_bind] at h ⊢
    cases hfile : tree.contents (Project.joined project.root rel) with
    | none =>
        simp only [hfile] at h
        cases h
    | some bytes =>
        simp only [hfile] at h ⊢
        obtain ⟨loc, hplace⟩ := Os.contents_iff.mp hfile
        split at h
        · cases h
        · rename_i hsize
          rw [Os.bind_ok (Os.readFile_found tree hplace)] at h
          rw [if_neg hsize, Os.bind_ok (Os.readFile_found tree hplace)]
          cases h
          exact ⟨hroot, rfl, bytes, rfl, rfl⟩
  · rw [if_neg hroot, Os.bind_error (Os.throw_run _ tree)] at h
    cases h

/-- A file that the editor opens keeps its bytes when its text is written back, exactly if they are
those of a text of ended lines. -/
theorem editor_round_trip (h : (readFile project rel tree).result = .ok (.opened content)) :
    (writeFile project rel content (readFile project rel tree).tree).tree.contents
          (Project.joined project.root rel) =
        tree.contents (Project.joined project.root rel) ↔
      ∃ bytes, tree.contents (Project.joined project.root rel) = some bytes ∧ LineText bytes := by
  obtain ⟨hroot, hsame, bytes, hfile, rfl⟩ := readFile_opened h
  rw [hsame, writeFile, (project.apply_over hroot hfile _).2, hfile, Option.some.injEq, written_back]
  constructor
  · intro hlines
    exact ⟨bytes, rfl, hlines⟩
  · intro ⟨other, hother, hlines⟩
    rwa [Option.some.inj hother]

theorem editor_round_trip_sample :
    (writeFile Project.linkedProject "f" ['a', '\n']
        (readFile Project.linkedProject "f" Project.lineTree).tree).tree.contents ["p", "f"] =
      Project.lineTree.contents ["p", "f"] :=
  (@editor_round_trip Project.linkedProject Project.lineTree "f" ['a', '\n'] (by rfl)).mpr
    ⟨[97, 10], by rfl, ['a', '\n'], by decide, by decide, by decide⟩

/-- A file without a newline at its end gets one. -/
theorem newline_added :
    ¬ ∀ (project : Project) (tree : LinkTree (List UInt8)) (rel : String) (content : List Char),
      (readFile project rel tree).result = .ok (.opened content) →
        (writeFile project rel content (readFile project rel tree).tree).tree.contents
            (Project.joined project.root rel) =
          tree.contents (Project.joined project.root rel) := by
  intro h
  have hsame := h Project.linkedProject Project.openTree "f" ['a'] (by rfl)
  have hafter : (writeFile Project.linkedProject "f" ['a']
      (readFile Project.linkedProject "f" Project.openTree).tree).tree.contents
        (Project.joined Project.linkedProject.root "f") = some [97, 10] := by rfl
  have hbefore :
      Project.openTree.contents (Project.joined Project.linkedProject.root "f") = some [97] := by
    rfl
  rw [hafter, hbefore] at hsame
  exact absurd hsame (by decide)

end RoundTrip

end WebHost

end Imece
