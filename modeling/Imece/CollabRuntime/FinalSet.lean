import Imece.CollabRuntime.CanonicalJson
import Imece.Lib.PathTree
import Mathlib.Algebra.GroupWithZero.Nat

/-!
# The merged file set of a candidate

Before any write, one walk over the sorted files refuses a path that is both a file and a
directory, two names that fold to one, and a set that is too large.
-/
namespace Imece.CollabRuntime

open Lib

def maxBaselineFiles : ℕ := 5000
def maxBaselineTotal : ℕ := 64 * 1024 * 1024

/-- A file of the merged candidate: its path, its bytes and its mode bits. -/
structure FinalFile where
  path : List Char
  content : List UInt8
  mode : ℕ

/-- The merged files under their paths, with the git mode of each. -/
abbrev MergedFiles := Std.ExtTreeMap (List Char) (String × List UInt8) compare

/-- The merged set as a list sorted by path. -/
def MergedFiles.sorted (final : MergedFiles) : List FinalFile :=
  final.toList.map fun entry =>
    ⟨entry.1, entry.2.2, if entry.2.1 = "100755" then 0o755 else 0o644⟩

/-- What the walk has met: the bytes so far, the file paths and the folded names. -/
structure FinalScan where
  total : ℕ
  realPaths : List (List Char)
  caseKeys : Holders (List Char) (List Char)

section Walk

variable (casefold : List Char → List Char)

/-- A directory above a file is no file, and no other name folds to its folded name. -/
def FinalScan.directory (scan : FinalScan) (front : List Char) : Except CollabError FinalScan :=
  if front ∈ scan.realPaths then
    .error (.validation (s!"the merged candidate mixes the file and directory prefix " ++
      s!"{String.ofList front}; refusing ambiguous writes."))
  else if scan.caseKeys.taken casefold front then
    .error (.validation ("the merged candidate has a platform case collision in a directory " ++
      "prefix; refusing ambiguous writes."))
  else .ok { scan with caseKeys := scan.caseKeys.enter casefold front }

def FinalScan.file (scan : FinalScan) (file : FinalFile) : Except CollabError FinalScan :=
  let total := scan.total + file.content.length
  if maxBaselineTotal < total then
    .error (.validation s!"the merged candidate exceeds the {maxBaselineTotal}-byte limit.")
  else if scan.caseKeys.taken casefold file.path then
    .error (.validation ("the merged candidate has a platform case collision; refusing " ++
      "ambiguous writes."))
  else (properPrefixes '/' file.path).foldlM (FinalScan.directory casefold)
    ⟨total, file.path :: scan.realPaths, scan.caseKeys.enter casefold file.path⟩

/-- Directory and file prefix conflicts, platform case collisions and output limits, all
before any write. -/
def validateFinalSet (files : List FinalFile) : Except CollabError Unit :=
  if maxBaselineFiles < files.length then
    .error (.validation s!"the merged candidate exceeds the {maxBaselineFiles}-file limit.")
  else do
    let _ ← files.foldlM (FinalScan.file casefold) ⟨0, [], []⟩
    return ()

end Walk

section Trees

/-- One path is a directory on the way to the other. -/
def IsAbove (front path : List Char) : Prop := ∃ back, path = front ++ '/' :: back

/-- A file of the set, with the directories it lies in. -/
def FinalFile.nodes (file : FinalFile) : List (List Char) :=
  file.path :: properPrefixes '/' file.path

/-- Every file and directory path of the set. -/
def nodes (files : List FinalFile) : List (List Char) := files.flatMap FinalFile.nodes

/-- No file lies below another. -/
def Unnested (files : List FinalFile) : Prop :=
  ∀ f ∈ files, ∀ g ∈ files, ¬ IsAbove f.path g.path

def totalBytes (files : List FinalFile) : ℕ := (files.map fun file => file.content.length).sum

end Trees

section Files

variable {casefold : List Char → List Char}

/-- What the walk knows after these files and these further names. -/
structure FinalScan.Knows (casefold : List Char → List Char) (scan : FinalScan)
    (files : List FinalFile) (names : List (List Char)) : Prop where
  total : scan.total = totalBytes files
  paths : ∀ path, path ∈ scan.realPaths ↔ ∃ f ∈ files, f.path = path
  holds : scan.caseKeys.Holds casefold names

/-- The directories of one file: the walk goes on exactly past names that fit, and stops at
one that is a file or folds to another name. -/
lemma FinalScan.Knows.directories {scan : FinalScan} {files : List FinalFile}
    {names fronts : List (List Char)} (h : scan.Knows casefold files names) :
    (∀ scan', fronts.foldlM (FinalScan.directory casefold) scan = .ok scan' →
      scan'.Knows casefold files (names ++ fronts) ∧
        ∀ front ∈ fronts, ¬ ∃ f ∈ files, f.path = front) ∧
    (∀ e, fronts.foldlM (FinalScan.directory casefold) scan = .error e →
      (∃ front ∈ fronts, ∃ f ∈ files, f.path = front) ∨
        ¬ Consistent casefold (names ++ fronts)) := by
  induction fronts generalizing scan names with
  | nil =>
      refine ⟨?_, ?_⟩
      · intro scan' hok
        cases hok
        exact ⟨by simpa using h, by simp⟩
      · intro e herror
        cases herror
  | cons front rest ih =>
      rw [List.foldlM_cons]
      by_cases hfile : front ∈ scan.realPaths
      · have hstep : FinalScan.directory casefold scan front = .error _ := if_pos hfile
        rw [hstep]
        refine ⟨nofun, fun _ _ => Or.inl ⟨front, List.mem_cons_self, (h.paths front).mp hfile⟩⟩
      · by_cases htaken : scan.caseKeys.taken casefold front = true
        · have hstep : FinalScan.directory casefold scan front = .error _ :=
            (if_neg hfile).trans (if_pos htaken)
          rw [hstep]
          refine ⟨nofun, fun _ _ => Or.inr ?_⟩
          intro hconsistent
          obtain ⟨other, hother, hkey, hne⟩ := h.holds.taken htaken
          exact hne (hconsistent other (List.mem_append_left _ hother) front
            (List.mem_append_right _ List.mem_cons_self) hkey)
        · have hfree : scan.caseKeys.taken casefold front = false := by simpa using htaken
          have hstep : FinalScan.directory casefold scan front =
              .ok { scan with caseKeys := scan.caseKeys.enter casefold front } :=
            (if_neg hfile).trans (if_neg htaken)
          have hnext : FinalScan.Knows casefold
              { scan with caseKeys := scan.caseKeys.enter casefold front } files
              (names ++ [front]) := ⟨h.total, h.paths, h.holds.enter hfree⟩
          obtain ⟨hok, herror⟩ := ih hnext
          rw [hstep]
          rw [List.append_assoc, List.singleton_append] at hok herror
          refine ⟨?_, ?_⟩
          · intro scan' heq
            obtain ⟨hknows, hrest⟩ := hok scan' heq
            refine ⟨hknows, ?_⟩
            intro other hother
            rcases List.mem_cons.mp hother with rfl | hother
            · exact fun hmem => hfile ((h.paths other).mpr hmem)
            · exact hrest other hother
          · intro e heq
            rcases herror e heq with ⟨other, hother, hmem⟩ | hcollide
            · exact Or.inl ⟨other, List.mem_cons_of_mem front hother, hmem⟩
            · exact Or.inr hcollide

lemma totalBytes_append (front back : List FinalFile) :
    totalBytes (front ++ back) = totalBytes front + totalBytes back := by
  simp [totalBytes]

/-- One file: the walk goes on exactly past a file that keeps the set small, lies below no
file met so far and brings no name that folds to another. -/
lemma FinalScan.Knows.file {scan : FinalScan} {files : List FinalFile} {names : List (List Char)}
    (h : scan.Knows casefold files names) (file : FinalFile) :
    (∀ scan', FinalScan.file casefold scan file = .ok scan' →
      scan'.Knows casefold (files ++ [file]) (names ++ file.nodes) ∧
        ∀ f ∈ files, ¬ IsAbove f.path file.path) ∧
    (∀ e, FinalScan.file casefold scan file = .error e →
      maxBaselineTotal < totalBytes (files ++ [file]) ∨
        (∃ f ∈ files, IsAbove f.path file.path) ∨
        ¬ Consistent casefold (names ++ file.nodes)) := by
  have htotal : scan.total + file.content.length = totalBytes (files ++ [file]) := by
    rw [totalBytes_append, h.total]
    simp [totalBytes]
  by_cases hlarge : maxBaselineTotal < scan.total + file.content.length
  · have hstep : FinalScan.file casefold scan file = .error _ := if_pos hlarge
    rw [hstep]
    exact ⟨nofun, fun _ _ => Or.inl (htotal ▸ hlarge)⟩
  · by_cases htaken : scan.caseKeys.taken casefold file.path = true
    · have hstep : FinalScan.file casefold scan file = .error _ :=
        (if_neg hlarge).trans (if_pos htaken)
      rw [hstep]
      refine ⟨nofun, fun _ _ => Or.inr (Or.inr ?_)⟩
      intro hconsistent
      obtain ⟨other, hother, hkey, hne⟩ := h.holds.taken htaken
      exact hne (hconsistent other (List.mem_append_left _ hother) file.path
        (List.mem_append_right _ List.mem_cons_self) hkey)
    · have hfree : scan.caseKeys.taken casefold file.path = false := by simpa using htaken
      have hstep : FinalScan.file casefold scan file =
          (properPrefixes '/' file.path).foldlM (FinalScan.directory casefold)
            ⟨scan.total + file.content.length, file.path :: scan.realPaths,
              scan.caseKeys.enter casefold file.path⟩ :=
        (if_neg hlarge).trans (if_neg htaken)
      have hentered : FinalScan.Knows casefold
          ⟨scan.total + file.content.length, file.path :: scan.realPaths,
            scan.caseKeys.enter casefold file.path⟩ (files ++ [file]) (names ++ [file.path]) := by
        refine ⟨htotal, ?_, h.holds.enter hfree⟩
        intro path
        simp only [List.mem_cons, h.paths, List.mem_append, List.not_mem_nil, or_false, or_and_right,
          exists_or, exists_eq_left]
        constructor
        · rintro (rfl | hold)
          · exact Or.inr rfl
          · exact Or.inl hold
        · rintro (hold | hnew)
          · exact Or.inr hold
          · exact Or.inl hnew.symm
      obtain ⟨hok, herror⟩ := @Knows.directories casefold _ _ _ (properPrefixes '/' file.path) hentered
      rw [hstep]
      rw [List.append_assoc, List.singleton_append] at hok herror
      refine ⟨?_, ?_⟩
      · intro scan' heq
        obtain ⟨hknows, hfronts⟩ := hok scan' heq
        refine ⟨hknows, ?_⟩
        intro f hf habove
        exact hfronts f.path (mem_properPrefixes.mpr habove)
          ⟨f, List.mem_append_left _ hf, rfl⟩
      · intro e heq
        rcases herror e heq with ⟨front, hfront, f, hf, rfl⟩ | hcollide
        · rcases List.mem_append.mp hf with hf | hf
          · exact Or.inr (Or.inl ⟨f, hf, mem_properPrefixes.mp hfront⟩)
          · rw [List.mem_singleton.mp hf] at hfront
            exact absurd hfront (self_not_mem_properPrefixes file.path)
        · exact Or.inr (Or.inr hcollide)

lemma nodes_cons (file : FinalFile) (files : List FinalFile) :
    nodes (file :: files) = file.nodes ++ nodes files := rfl

/-- The whole walk. What it accepts has no file below an earlier one. -/
lemma FinalScan.Knows.walk {scan : FinalScan} {files rest : List FinalFile}
    {names : List (List Char)} (h : scan.Knows casefold files names) :
    (∀ scan', rest.foldlM (FinalScan.file casefold) scan = .ok scan' →
      scan'.Knows casefold (files ++ rest) (names ++ nodes rest) ∧
        rest.Pairwise (fun f g => ¬ IsAbove f.path g.path) ∧
          ∀ f ∈ files, ∀ g ∈ rest, ¬ IsAbove f.path g.path) ∧
    (∀ e, rest.foldlM (FinalScan.file casefold) scan = .error e →
      maxBaselineTotal < totalBytes (files ++ rest) ∨ ¬ Unnested (files ++ rest) ∨
        ¬ Consistent casefold (names ++ nodes rest)) := by
  induction rest generalizing scan files names with
  | nil =>
      refine ⟨?_, ?_⟩
      · intro scan' hok
        cases hok
        exact ⟨by simpa [nodes] using h, List.Pairwise.nil, by simp⟩
      · intro e herror
        cases herror
  | cons file rest ih =>
      obtain ⟨hfileOk, hfileError⟩ := h.file file
      rw [List.foldlM_cons]
      cases hstep : FinalScan.file casefold scan file with
      | error e =>
          refine ⟨nofun, fun _ _ => ?_⟩
          rcases hfileError e hstep with hlarge | ⟨f, hf, habove⟩ | hcollide
          · refine Or.inl (hlarge.trans_le ?_)
            rw [show files ++ file :: rest = files ++ [file] ++ rest by simp,
              totalBytes_append (files ++ [file]) rest]
            omega
          · refine Or.inr (Or.inl fun hunnested => ?_)
            exact hunnested f (List.mem_append_left _ hf) file
              (List.mem_append_right _ List.mem_cons_self) habove
          · refine Or.inr (Or.inr fun hconsistent => hcollide ?_)
            intro a ha b hb
            have hmore : ∀ name, name ∈ names ++ file.nodes →
                name ∈ names ++ nodes (file :: rest) := by
              intro name hname
              rw [nodes_cons, ← List.append_assoc]
              exact List.mem_append_left _ hname
            exact hconsistent a (hmore a ha) b (hmore b hb)
      | ok next =>
          obtain ⟨hknows, hbelow⟩ := hfileOk next hstep
          obtain ⟨hok, herror⟩ := ih hknows
          rw [List.append_assoc, List.append_assoc, List.singleton_append, ← nodes_cons] at hok herror
          refine ⟨?_, herror⟩
          intro scan' heq
          obtain ⟨hknows', hpairwise, hlater⟩ := hok scan' heq
          refine ⟨hknows', List.pairwise_cons.mpr ⟨?_, hpairwise⟩, ?_⟩
          · exact hlater file (List.mem_append_right _ List.mem_cons_self)
          · intro f hf g hg
            rcases List.mem_cons.mp hg with rfl | hg
            · exact hbelow f hf
            · exact hlater f (List.mem_append_left _ hf) g hg

end Files

section Sorted

/-- A directory sorts before what lies in it. -/
lemma IsAbove.compare_lt {front path : List Char} (h : IsAbove front path) :
    compare front path = .lt := by
  obtain ⟨back, rfl⟩ := h
  rw [List.compare_eq_compareLex]
  induction front with
  | nil => rfl
  | cons c rest ih =>
      rw [List.cons_append, List.compareLex_cons_cons, ih, Std.ReflOrd.compare_self]
      rfl

lemma MergedFiles.sorted_pairwise (final : MergedFiles) :
    final.sorted.Pairwise fun f g => compare f.path g.path = .lt := by
  rw [MergedFiles.sorted, List.pairwise_map]
  exact Std.ExtTreeMap.ordered_keys_toList

/-- In a sorted list, no file below an earlier one is no file below another. -/
lemma unnested_of_pairwise {files : List FinalFile}
    (hsorted : files.Pairwise fun f g => compare f.path g.path = .lt)
    (hbelow : files.Pairwise fun f g => ¬ IsAbove f.path g.path) : Unnested files := by
  induction files with
  | nil => simp [Unnested]
  | cons file rest ih =>
      obtain ⟨hfirst, hsorted⟩ := List.pairwise_cons.mp hsorted
      obtain ⟨hfile, hbelow⟩ := List.pairwise_cons.mp hbelow
      intro f hf g hg habove
      have hlt := habove.compare_lt
      rcases List.mem_cons.mp hf with rfl | hrest
      · rcases List.mem_cons.mp hg with rfl | hrest
        · rw [Std.ReflOrd.compare_self] at hlt
          cases hlt
        · exact hfile g hrest habove
      · rcases List.mem_cons.mp hg with rfl | hlater
        · have hgt := hfirst f hrest
          rw [Std.OrientedCmp.gt_of_lt hlt] at hgt
          cases hgt
        · exact ih hsorted hbelow f hrest g hlater habove

/-- Within the limits, a merged set is accepted exactly if no file lies below another and
no two of its file and directory paths fold to one name. -/
theorem validateFinalSet_ok_iff (casefold : List Char → List Char) (final : MergedFiles)
    (hcount : final.sorted.length ≤ maxBaselineFiles)
    (hbytes : totalBytes final.sorted ≤ maxBaselineTotal) :
    validateFinalSet casefold final.sorted = .ok () ↔
      (∀ f ∈ final.sorted, ∀ g ∈ final.sorted, ¬ IsAbove f.path g.path) ∧
      ∀ a ∈ nodes final.sorted, ∀ b ∈ nodes final.sorted, casefold a = casefold b → a = b := by
  have hstart : FinalScan.Knows casefold ⟨0, [], []⟩ [] [] :=
    ⟨rfl, by simp, Holders.holds_nil casefold⟩
  obtain ⟨hok, herror⟩ := @FinalScan.Knows.walk casefold _ _ final.sorted _ hstart
  rw [validateFinalSet, if_neg (by omega)]
  cases hwalk : final.sorted.foldlM (FinalScan.file casefold) ⟨0, [], []⟩ with
  | ok scan =>
      obtain ⟨hknows, hbelow, -⟩ := hok scan hwalk
      refine ⟨fun _ => ⟨?_, ?_⟩, fun _ => rfl⟩
      · exact unnested_of_pairwise final.sorted_pairwise hbelow
      · exact hknows.holds.consistent
  | error e =>
      refine ⟨nofun, ?_⟩
      rintro ⟨hunnested, hconsistent⟩
      rcases herror e hwalk with hlarge | hnested | hcollide
      · rw [List.nil_append] at hlarge
        omega
      · exact absurd hunnested hnested
      · exact absurd hconsistent hcollide

/-- `readme` and `Readme/a` fold to one name. -/
def foldedFiles : MergedFiles :=
  .ofList [("Readme/a".toList, "100644", []), ("readme".toList, "100755", [])]

theorem validateFinalSet_folded :
    validateFinalSet (List.map Char.toLower) foldedFiles.sorted ≠ .ok () := by
  intro hok
  have hnames := ((validateFinalSet_ok_iff (List.map Char.toLower) foldedFiles (by decide +kernel)
    (by decide +kernel)).mp hok).2
  have hsame := hnames "Readme".toList (by decide +kernel) "readme".toList (by decide +kernel)
    (by decide +kernel)
  exact absurd hsame (by decide +kernel)

end Sorted

end Imece.CollabRuntime
