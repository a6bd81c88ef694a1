import Imece.Workspace.Worktree

/-!
# Rendering a change

The two sides of a path, and the text a change of it is rendered to. A block is never
empty for a path that is on one side at least, and holds no NUL.
-/
namespace Imece.ChangeRuntime

open Lib Workspace

inductive SideKind where
  | file
  | symlink
deriving DecidableEq, Repr

/-- One side of a single path; `kind` is `none` for an absent one. -/
structure Side (Raw : Type) where
  kind : Option SideKind := none
  mode : Option GitMode := none
  text : Option String := none
  bytes : Option Raw := none
  target : Option String := none

section Rendering

def joinLines (lines : List String) : String := "\n".intercalate lines

/-- `content.split("\n")` without the empty end, and whether there was one. -/
def renderedLines (content : String) : List String × Bool :=
  let lines := (content.toList.splitOn '\n').map String.ofList
  let trailing := content.toList.getLast? == some '\n'
  (if trailing then lines.dropLast else lines, trailing)

def noNewline : String := "\\ No newline at end of file"

def diffHunk (old new : List String × Bool) : List String :=
  let start (lines : List String) : String := if lines.isEmpty then "0" else "1"
  let mark (side : List String × Bool) : List String :=
    if !side.1.isEmpty && !side.2 then [noNewline] else []
  ["@@ -" ++ start old.1 ++ "," ++ toString old.1.length ++ " +" ++ start new.1 ++ "," ++
      toString new.1.length ++ " @@"] ++
    old.1.map ("-" ++ ·) ++ mark old ++ new.1.map ("+" ++ ·) ++ mark new

def header (path : String) : String := "diff --git a/" ++ path ++ " b/" ++ path

/-- A mode in an f-string. -/
def modeText (mode : Option GitMode) : String := (mode.map GitMode.text).getD "None"

def modeLines (modeA modeB : Option GitMode) : List String :=
  if modeA ≠ modeB then ["old mode " ++ modeText modeA, "new mode " ++ modeText modeB] else []

def renderTextChange (path : String) (modeA modeB : Option GitMode)
    (contentA contentB : Option String) : String :=
  match contentA, contentB with
  | none, contentB =>
      joinLines (header path :: ["new file mode " ++ modeText modeB, "--- /dev/null",
        "+++ b/" ++ path] ++ diffHunk ([], true) (renderedLines (contentB.getD "")))
  | some contentA, none =>
      joinLines (header path :: ["deleted file mode " ++ modeText modeA, "--- a/" ++ path,
        "+++ /dev/null"] ++ diffHunk (renderedLines contentA) ([], true))
  | some contentA, some contentB =>
      joinLines (header path :: modeLines modeA modeB ++ ["--- a/" ++ path, "+++ b/" ++ path] ++
        diffHunk (renderedLines contentA) (renderedLines contentB))

def renderBinaryChange {Raw : Type} (host : Host Raw) (path : String)
    (modeA modeB : Option GitMode) (dataA dataB : Option Raw) : String :=
  let sha (data : Option Raw) : String := (data.map host.sha256).getD ""
  let size (data : Option Raw) : String := (data.map fun raw => toString (host.size raw)).getD ""
  match dataA, dataB with
  | none, dataB =>
      joinLines [header path, "new file mode " ++ modeText modeB,
        "Binary file added: sha256=" ++ sha dataB ++ " bytes=" ++ size dataB]
  | some dataA, none =>
      joinLines [header path, "deleted file mode " ++ modeText modeA,
        "Binary file removed: sha256=" ++ sha dataA ++ " bytes=" ++ size dataA]
  | some dataA, some dataB =>
      joinLines (header path :: modeLines modeA modeB ++
        ["Binary file changed: sha256=" ++ sha dataA ++ "->" ++ sha dataB ++
          " bytes=" ++ size dataA ++ "->" ++ size dataB])

def renderSymlinkChange (path : String) : Option String → Option String → String
  | none, targetB =>
      joinLines [header path, "new file mode " ++ GitMode.symlink.text, "symlink target: " ++ targetB.getD "None"]
  | some targetA, none =>
      joinLines [header path, "deleted file mode " ++ GitMode.symlink.text, "symlink target removed: " ++ targetA]
  | some targetA, some targetB =>
      joinLines [header path, "symlink target changed", "old target: " ++ targetA,
        "new target: " ++ targetB]

variable {Raw : Type} (host : Host Raw)

def renderOneSided (path : String) (side : Side Raw) (present : Bool) : String :=
  let old {α : Type} (value : Option α) : Option α := if present then none else value
  let new {α : Type} (value : Option α) : Option α := if present then value else none
  if side.kind = some .symlink then
    renderSymlinkChange path (old side.target) (new side.target)
  else if side.text.isNone then
    renderBinaryChange host path side.mode side.mode (old side.bytes) (new side.bytes)
  else renderTextChange path side.mode side.mode (old side.text) (new side.text)

/-- The value of a side that is of a given kind. -/
def ofKind {α : Type} (side : Side Raw) (kind : SideKind) (value : Option α) : Option α :=
  if side.kind = some kind then value else none

/-- A change of kind is a removal and an addition. -/
def renderPair (path : String) (a b : Side Raw) : String :=
  if a.kind.isNone ∧ b.kind.isNone then ""
  else if a.kind = some .symlink ∨ b.kind = some .symlink then
    if a.kind = some .file ∨ b.kind = some .file then
      joinLines ([renderOneSided host path a false, renderOneSided host path b true])
    else renderSymlinkChange path (ofKind a .symlink a.target) (ofKind b .symlink b.target)
  else if (a.kind = some .file ∧ a.text.isNone) ∨ (b.kind = some .file ∧ b.text.isNone) then
    renderBinaryChange host path a.mode b.mode (ofKind a .file a.bytes) (ofKind b .file b.bytes)
  else
    renderTextChange path a.mode b.mode (ofKind a .file a.text) (ofKind b .file b.text)

lemma joinLines_ne_empty {first : String} {rest : List String} (h : first ≠ "") :
    joinLines (first :: rest) ≠ "" := by
  cases rest with
  | nil => rwa [joinLines, String.intercalate_singleton]
  | cons next rest =>
      rw [joinLines, String.intercalate_cons_cons]
      simp [h]

lemma header_ne_empty (path : String) : header path ≠ "" := by
  unfold header
  simp

lemma renderTextChange_ne_empty (path : String) (modeA modeB : Option GitMode)
    (contentA contentB : Option String) :
    renderTextChange path modeA modeB contentA contentB ≠ "" := by
  unfold renderTextChange
  split <;> exact joinLines_ne_empty (header_ne_empty path)

lemma renderBinaryChange_ne_empty (path : String) (modeA modeB : Option GitMode)
    (dataA dataB : Option Raw) :
    renderBinaryChange host path modeA modeB dataA dataB ≠ "" := by
  unfold renderBinaryChange
  dsimp only
  split <;> exact joinLines_ne_empty (header_ne_empty path)

lemma renderSymlinkChange_ne_empty (path : String) (targetA targetB : Option String) :
    renderSymlinkChange path targetA targetB ≠ "" := by
  unfold renderSymlinkChange
  split <;> exact joinLines_ne_empty (header_ne_empty path)

lemma renderOneSided_ne_empty (path : String) (side : Side Raw) (present : Bool) :
    renderOneSided host path side present ≠ "" := by
  unfold renderOneSided
  dsimp only
  split
  · exact renderSymlinkChange_ne_empty path _ _
  · split
    · exact renderBinaryChange_ne_empty host path _ _ _ _
    · exact renderTextChange_ne_empty path _ _ _ _

/-- A block is empty only for a path that is absent on both sides. -/
theorem renderPair_eq_empty {path : String} {a b : Side Raw} :
    renderPair host path a b = "" ↔ a.kind = none ∧ b.kind = none := by
  unfold renderPair
  split
  · rename_i h
    simpa [Option.isNone_iff_eq_none] using h
  · rename_i h
    rw [Option.isNone_iff_eq_none, Option.isNone_iff_eq_none] at h
    refine iff_of_false ?_ h
    split
    · split
      · exact joinLines_ne_empty (renderOneSided_ne_empty host path a false)
      · exact renderSymlinkChange_ne_empty path _ _
    · split
      · exact renderBinaryChange_ne_empty host path _ _ _ _
      · exact renderTextChange_ne_empty path _ _ _ _

/-- Texts a change set accepts. -/
structure Side.NulFree (side : Side Raw) : Prop where
  text : ∀ text ∈ side.text, Avoids nul text
  target : ∀ target ∈ side.target, Avoids nul target

lemma joinLines_nul {lines : List String} (h : ∀ line ∈ lines, Avoids nul line) :
    Avoids nul (joinLines lines) :=
  avoids_intercalate (by decide) h

lemma header_nul {path : String} (h : Avoids nul path) : Avoids nul (header path) := by
  unfold header
  simp only [avoids_append]
  exact ⟨⟨⟨by decide, h⟩, by decide⟩, h⟩

lemma modeText_nul (mode : Option GitMode) : Avoids nul (modeText mode) := by
  rcases mode with _ | _ | _ | _ <;> decide

lemma modeLines_nul (modeA modeB : Option GitMode) :
    ∀ line ∈ modeLines modeA modeB, Avoids nul line := by
  unfold modeLines
  split
  · simp only [List.forall_mem_cons, avoids_append]
    exact ⟨⟨by decide, modeText_nul _⟩, ⟨by decide, modeText_nul _⟩, by simp⟩
  · simp

lemma renderedLines_nul {content : String} (h : Avoids nul content) :
    ∀ line ∈ (renderedLines content).1, Avoids nul line := by
  intro line hline
  refine avoids_split h '\n' line ?_
  unfold renderedLines at hline
  dsimp only at hline
  split at hline
  · exact (List.dropLast_sublist _).subset hline
  · exact hline

lemma diffHunk_nul {old new : List String × Bool} (hold : ∀ line ∈ old.1, Avoids nul line)
    (hnew : ∀ line ∈ new.1, Avoids nul line) : ∀ line ∈ diffHunk old new, Avoids nul line := by
  have hstart : ∀ lines : List String, Avoids nul (if lines.isEmpty then "0" else "1") := by
    intro lines
    split <;> decide
  have hmarked : ∀ (sign : String) (lines : List String), Avoids nul sign →
      (∀ line ∈ lines, Avoids nul line) → ∀ line ∈ lines.map (sign ++ ·), Avoids nul line := by
    intro sign lines hsign hlines line hline
    obtain ⟨content, hcontent, rfl⟩ := List.mem_map.mp hline
    exact avoids_append.mpr ⟨hsign, hlines content hcontent⟩
  have hmark : ∀ side : List String × Bool,
      ∀ line ∈ (if !side.1.isEmpty && !side.2 then [noNewline] else []), Avoids nul line := by
    intro side line hline
    split at hline
    · rw [List.mem_singleton.mp hline]
      decide
    · cases hline
  unfold diffHunk
  dsimp only
  simp only [List.forall_mem_append]
  refine ⟨⟨⟨⟨?_, hmarked "-" _ (by decide) hold⟩, hmark old⟩,
    hmarked "+" _ (by decide) hnew⟩, hmark new⟩
  simp only [List.forall_mem_singleton, avoids_append]
  exact ⟨⟨⟨⟨⟨⟨⟨⟨by decide, hstart _⟩, by decide⟩, avoids_toString (by decide) _⟩, by decide⟩,
    hstart _⟩, by decide⟩, avoids_toString (by decide) _⟩, by decide⟩

lemma renderTextChange_nul {path : String} (hpath : Avoids nul path)
    (modeA modeB : Option GitMode) {contentA contentB : Option String}
    (hA : ∀ text ∈ contentA, Avoids nul text) (hB : ∀ text ∈ contentB, Avoids nul text) :
    Avoids nul (renderTextChange path modeA modeB contentA contentB) := by
  have hmode : ∀ mode, Avoids nul (modeText mode) := modeText_nul
  have hempty : ∀ line ∈ (([], true) : List String × Bool).1, Avoids nul line := by simp
  have hlines : ∀ content : Option String, (∀ text ∈ content, Avoids nul text) →
      ∀ line ∈ (renderedLines (content.getD "")).1, Avoids nul line := by
    intro content hcontent
    cases content with
    | none => exact renderedLines_nul (by decide)
    | some text => exact renderedLines_nul (hcontent text rfl)
  unfold renderTextChange
  split
  · refine joinLines_nul ?_
    simp only [List.cons_append, List.nil_append, List.forall_mem_cons, avoids_append]
    exact ⟨header_nul hpath, ⟨by decide, hmode _⟩, by decide, ⟨by decide, hpath⟩,
      diffHunk_nul hempty (hlines _ hB)⟩
  · refine joinLines_nul ?_
    simp only [List.cons_append, List.nil_append, List.forall_mem_cons, avoids_append]
    exact ⟨header_nul hpath, ⟨by decide, hmode _⟩, ⟨by decide, hpath⟩, by decide,
      diffHunk_nul (renderedLines_nul (hA _ rfl)) hempty⟩
  · refine joinLines_nul ?_
    simp only [List.cons_append, List.nil_append, List.append_assoc, List.forall_mem_cons,
      List.forall_mem_append, avoids_append]
    exact ⟨header_nul hpath, modeLines_nul _ _, ⟨by decide, hpath⟩, ⟨by decide, hpath⟩,
      diffHunk_nul (renderedLines_nul (hA _ rfl)) (renderedLines_nul (hB _ rfl))⟩

lemma sha256_nul (raw : Raw) : Avoids nul (host.sha256 raw) := by
  intro hmem
  exact absurd (host.sha256_hex raw nul hmem) (by decide)

lemma renderBinaryChange_nul {path : String} (hpath : Avoids nul path)
    (modeA modeB : Option GitMode) (dataA dataB : Option Raw) :
    Avoids nul (renderBinaryChange host path modeA modeB dataA dataB) := by
  have hmode : ∀ mode, Avoids nul (modeText mode) := modeText_nul
  have hsha : ∀ data : Option Raw, Avoids nul ((data.map host.sha256).getD "") := by
    intro data
    cases data with
    | none => exact List.not_mem_nil
    | some raw => exact sha256_nul host raw
  have hsize : ∀ data : Option Raw,
      Avoids nul ((data.map fun raw => toString (host.size raw)).getD "") := by
    intro data
    cases data with
    | none => exact List.not_mem_nil
    | some raw => exact avoids_toString (by decide) _
  unfold renderBinaryChange
  dsimp only
  split
  · refine joinLines_nul ?_
    simp only [List.forall_mem_cons, avoids_append]
    exact ⟨header_nul hpath, ⟨by decide, hmode _⟩,
      ⟨⟨⟨by decide, hsha _⟩, by decide⟩, hsize _⟩, by simp⟩
  · refine joinLines_nul ?_
    simp only [List.forall_mem_cons, avoids_append]
    exact ⟨header_nul hpath, ⟨by decide, hmode _⟩,
      ⟨⟨⟨by decide, hsha _⟩, by decide⟩, hsize _⟩, by simp⟩
  · refine joinLines_nul ?_
    simp only [List.cons_append, List.forall_mem_cons, List.forall_mem_append, avoids_append]
    exact ⟨header_nul hpath, modeLines_nul _ _,
      ⟨⟨⟨⟨⟨⟨⟨by decide, hsha _⟩, by decide⟩, hsha _⟩, by decide⟩, hsize _⟩, by decide⟩,
        hsize _⟩, by simp⟩

lemma renderSymlinkChange_nul {path : String} (hpath : Avoids nul path)
    {targetA targetB : Option String} (hA : ∀ target ∈ targetA, Avoids nul target)
    (hB : ∀ target ∈ targetB, Avoids nul target) :
    Avoids nul (renderSymlinkChange path targetA targetB) := by
  have hvalue : ∀ target : Option String, (∀ text ∈ target, Avoids nul text) →
      Avoids nul (target.getD "None") := by
    intro target htarget
    cases target with
    | none => decide
    | some text => exact htarget text rfl
  unfold renderSymlinkChange
  split
  · refine joinLines_nul ?_
    simp only [List.forall_mem_cons, avoids_append]
    exact ⟨header_nul hpath, ⟨by decide, by decide⟩, ⟨by decide, hvalue _ hB⟩, by simp⟩
  · refine joinLines_nul ?_
    simp only [List.forall_mem_cons, avoids_append]
    exact ⟨header_nul hpath, ⟨by decide, by decide⟩, ⟨by decide, hA _ rfl⟩, by simp⟩
  · refine joinLines_nul ?_
    simp only [List.forall_mem_cons, avoids_append]
    exact ⟨header_nul hpath, by decide, ⟨by decide, hA _ rfl⟩, ⟨by decide, hB _ rfl⟩, by simp⟩

lemma ofKind_mem {α : Type} {side : Side Raw} {kind : SideKind} {value : Option α} {a : α}
    (h : a ∈ ofKind side kind value) : a ∈ value := by
  unfold ofKind at h
  split at h
  · exact h
  · cases h

lemma renderOneSided_nul {path : String} (hpath : Avoids nul path) {side : Side Raw}
    (hside : side.NulFree) (present : Bool) :
    Avoids nul (renderOneSided host path side present) := by
  have hgate : ∀ (keep : Bool) (value : Option String), (∀ text ∈ value, Avoids nul text) →
      ∀ text ∈ (if keep then value else none), Avoids nul text := by
    intro keep value hvalue text htext
    cases keep with
    | false => cases htext
    | true => exact hvalue text htext
  have hflip : ∀ value : Option String, (if present then none else value) =
      if !present then value else none := by
    intro value
    cases present <;> rfl
  unfold renderOneSided
  dsimp only
  split
  · rw [hflip]
    exact renderSymlinkChange_nul hpath (hgate _ _ hside.target) (hgate _ _ hside.target)
  · split
    · exact renderBinaryChange_nul host hpath _ _ _ _
    · rw [hflip]
      exact renderTextChange_nul hpath _ _ (hgate _ _ hside.text) (hgate _ _ hside.text)

/-- Every block is text that a change set accepts. -/
theorem renderPair_nul {path : String} (hpath : Avoids nul path) {a b : Side Raw}
    (ha : a.NulFree) (hb : b.NulFree) : Avoids nul (renderPair host path a b) := by
  unfold renderPair
  split
  · decide
  · split
    · split
      · refine joinLines_nul ?_
        simp only [List.forall_mem_cons]
        exact ⟨renderOneSided_nul host hpath ha false, renderOneSided_nul host hpath hb true,
          by simp⟩
      · exact renderSymlinkChange_nul hpath (fun t ht => ha.target t (ofKind_mem ht))
          (fun t ht => hb.target t (ofKind_mem ht))
    · split
      · exact renderBinaryChange_nul host hpath _ _ _ _
      · exact renderTextChange_nul hpath _ _ (fun t ht => ha.text t (ofKind_mem ht))
          (fun t ht => hb.text t (ofKind_mem ht))

end Rendering

end Imece.ChangeRuntime
