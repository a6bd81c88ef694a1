import Imece.ChangeRuntime.Git

/-!
# What a capture reports

The paths a capture reports against the paths that really differ. The two come apart
in two ways only: the capture judges a file executable by any of its bits where the
snapshot asked for the owner's, and it lists untracked files against an index that
still holds what the user had deleted.
-/
namespace Imece.ChangeRuntime

open Lib Workspace

section Comparison

variable {Raw : Type} [DecidableEq Raw] {host : Host Raw}
  (workspace : GitWorktreeWorkspace host) (tree : WorkTree host)

/-- A path at creation, and now: the mode and bytes Git would record for it. -/
def before (path : List Raw) : Option (GitMode × Raw) :=
  visible workspace.sourceHead workspace.overlaid path

def now (path : List Raw) : Option (GitMode × Raw) :=
  (tree.nodes.leaf? path).bind (materialized host (originalMode workspace.sourceHead path))

/-- What the capture makes of a node. -/
def captured : Node Raw → Option (GitMode × Raw)
  | .link target => some (.symlink, target)
  | .file mode bytes => some (currentFileMode mode, bytes)
  | .dir | .other => none

/-- A tracked or non-ignored path whose kind, mode or bytes are not what they were. -/
structure Differs (path : List Raw) : Prop where
  notIgnored : (before workspace path).isSome ∨ host.ignored tree.nodes path = false
  changed : before workspace path ≠ now workspace tree path

/-- The paths a capture looks at. -/
def Listed (path : List Raw) : Prop :=
  (before workspace path).isSome ∨ path ∈ lsFilesOthers workspace.sourceHead.keys tree

/-- A file with the bytes it had, whose mode the capture and the snapshot judge
differently: there is an executable bit, but not the owner's (on NT: there is one
where the tracked mode has none, or none where it has one). -/
def ModeClash (path : List Raw) : Prop :=
  ∃ frozen mode bytes, before workspace path = some (frozen, bytes) ∧
    tree.nodes.leaf? path = some (.file mode bytes) ∧
    ¬(frozen = currentFileMode mode ↔
      frozen = gitMode host (originalMode workspace.sourceHead path) mode)

/-- A path of the source HEAD that the user had deleted, and that is there again. -/
structure Revived (path : List Raw) : Prop where
  tracked : path ∈ workspace.sourceHead
  deleted : before workspace path = none
  present : (tree.nodes.leaf? path).isSome
  notIgnored : host.ignored tree.nodes path = false

/-- A listed path of which the capture's record is not the frozen one. -/
structure Reported (path : List Raw) : Prop where
  listed : Listed workspace tree path
  changed : before workspace path ≠ (tree.nodes.leaf? path).bind captured

/-- A path the capture refuses to read. -/
def Refused (path : List Raw) : Prop :=
  looksAbsolute (host.pathText path) = true ∨ tree.nodes.find path = .behindLink ∨
    ∃ target, tree.nodes.find path = .node (.link target) ∧ ¬host.Valid target

/-- Names and link targets that text stands for without loss: valid UTF-8, without the
backslashes that a path would read as slashes. -/
structure PlainNames : Prop where
  names : ∀ path, Listed workspace tree path ∨ path ∈ workspace.sourceHead →
    ∀ name ∈ path, host.Valid name ∧ Avoids '\\' (host.decode name)
  targets : ∀ path target, before workspace path = some (.symlink, target) →
    host.Valid target ∧ Avoids nul (host.decode target)

/-- The baseline of a workspace by decoded path, and the paths the loop visits. -/
abbrev baselineOf : AList fun _ : String => GitMode × String :=
  lsTreeBaseline host (writeSyntheticSnapshot workspace.sourceHead workspace.overlaid)

abbrev visited : List String :=
  allPaths host (baselineOf workspace) (lsFilesOthers workspace.sourceHead.keys tree)

/-- The loop of a capture collects these blocks. -/
abbrev Collects (tracked : AList fun _ : String => GitMode × String) (paths : List String)
    (blocks : List (Option (String × String))) : Prop :=
  List.Forall₂ (fun text block => capturePath tracked tree text = .ok block) paths blocks

/-- The reported paths are the ones that differ. -/
structure Exact (set : WorkspaceChangeSet) : Prop where
  sound : ∀ text ∈ set.changedPaths, ∃ path, Differs workspace tree path ∧
    host.pathText path = text
  complete : ∀ path, Differs workspace tree path → host.pathText path ∈ set.changedPaths

section Paths

variable {workspace tree} {path : List Raw}

lemma leaf_legal {worktree : WorkTree host} (h : (worktree.nodes.leaf? path).isSome) :
    host.legalPath path = true := by
  obtain ⟨node, hnode⟩ := Option.isSome_iff_exists.mp h
  exact (WorkTree.legal_of_find (FileTree.leaf?_eq_some.mp hnode).1).1

lemma isSome_of_bind {α β : Type} {value : Option α} {f : α → Option β}
    (h : (value.bind f).isSome) : value.isSome := by
  cases value with
  | none => cases h
  | some a => rfl

lemma before_legal (h : (before workspace path).isSome) : host.legalPath path = true := by
  unfold before visible at h
  split at h
  · rename_i htracked
    exact workspace.headLegal path (AList.mem_keys.mp htracked)
  · split at h
    · cases h
    · exact leaf_legal (isSome_of_bind h)

lemma listed_legal (h : Listed workspace tree path ∨ path ∈ workspace.sourceHead) :
    host.legalPath path = true := by
  rcases h with (h | h) | h
  · exact before_legal h
  · exact leaf_legal (mem_lsFilesOthers.mp h).1
  · exact workspace.headLegal path (AList.mem_keys.mp h)

lemma PlainNames.plainPath (hplain : PlainNames workspace tree)
    (h : Listed workspace tree path ∨ path ∈ workspace.sourceHead) :
    PlainPath (path.map host.decode) := by
  have hlegal := listed_legal h
  simp only [Host.legalPath, Bool.and_eq_true, Bool.not_eq_true', List.isEmpty_eq_false_iff,
    List.all_eq_true] at hlegal
  refine ⟨by simpa using hlegal.1, fun text htext => ?_⟩
  obtain ⟨name, hname, rfl⟩ := List.mem_map.mp htext
  have hok := hlegal.2 name hname
  simp only [Workspace.legalName, Bool.and_eq_true, decide_eq_true_eq, Bool.not_eq_true',
    Bool.eq_false_iff, ne_eq, List.contains_iff_mem] at hok
  obtain ⟨⟨⟨⟨⟨hnonempty, hdot⟩, hparent⟩, hgit⟩, hslash⟩, hnul⟩ := hok
  exact ⟨hnonempty, hdot, hparent, by simpa using hgit, hslash,
    (hplain.names path h name hname).2, hnul⟩

lemma PlainNames.encode (hplain : PlainNames workspace tree)
    (h : Listed workspace tree path ∨ path ∈ workspace.sourceHead) :
    (path.map host.decode).map host.encode = path := by
  rw [List.map_map]
  exact (List.map_congr_left fun name hname => (hplain.names path h name hname).1).trans
    (List.map_id path)

/-- Two plain paths with one text are one path. -/
lemma PlainNames.injective (hplain : PlainNames workspace tree) {other : List Raw}
    (h : Listed workspace tree path ∨ path ∈ workspace.sourceHead)
    (hother : Listed workspace tree other ∨ other ∈ workspace.sourceHead)
    (htext : host.pathText path = host.pathText other) : path = other := by
  have hparts := congrArg pathParts htext
  rw [Host.pathText, (hplain.plainPath h).pathParts, Host.pathText,
    (hplain.plainPath hother).pathParts] at hparts
  rw [← hplain.encode h, ← hplain.encode hother, hparts]

lemma mem_snapshot : path ∈ writeSyntheticSnapshot workspace.sourceHead workspace.overlaid ↔
    (before workspace path).isSome := by
  rw [← AList.lookup_isSome, lookup_writeSyntheticSnapshot, Option.isSome_map]
  rfl

/-- The baseline by decoded path is the snapshot by path. -/
lemma PlainNames.lookup_baseline (hplain : PlainNames workspace tree)
    (h : Listed workspace tree path ∨ path ∈ workspace.sourceHead) :
    (baselineOf workspace).lookup (host.pathText path) =
      (before workspace path).map fun entry => (entry.1, host.oid entry.2) := by
  rw [baselineOf, lsTreeBaseline, lookup_foldl_insert host.pathText path _ ∅ ?_ (AList.nodupKeys _)]
  · rw [AList.lookup_empty, Option.or_none]
    exact lookup_writeSyntheticSnapshot path
  · intro entry hentry htext
    have hkey : entry.1 ∈ writeSyntheticSnapshot workspace.sourceHead workspace.overlaid :=
      AList.mem_keys.mpr (List.mem_keys_of_mem hentry)
    exact hplain.injective (Or.inl (Or.inl (mem_snapshot.mp hkey))) h htext

lemma mem_visited {text : String} :
    text ∈ visited workspace tree ↔ ∃ path, Listed workspace tree path ∧ host.pathText path = text := by
  rw [visited, allPaths, List.mem_insertionSort, List.mem_dedup, List.mem_append, ← AList.mem_keys,
    baselineOf, lsTreeBaseline, mem_foldl_insert, List.mem_map]
  simp only [AList.notMem_empty, false_or]
  constructor
  · rintro (⟨path, hpath, rfl⟩ | ⟨path, hpath, rfl⟩)
    · exact ⟨path, Or.inl (mem_snapshot.mp (AList.mem_keys.mpr hpath)), rfl⟩
    · exact ⟨path, Or.inr hpath, rfl⟩
  · rintro ⟨path, hpath | hpath, rfl⟩
    · exact Or.inl ⟨path, AList.mem_keys.mp (mem_snapshot.mpr hpath), rfl⟩
    · exact Or.inr ⟨path, hpath, rfl⟩

end Paths

section Sides

omit [DecidableEq Raw] in
lemma oid_injective {raw other : Raw} (h : host.oid raw = host.oid other) : raw = other := by
  rw [← host.blob_oid raw, h, host.blob_oid]

/-- A path that still is a file counts as unchanged exactly if the capture's mode and
its bytes are the recorded ones. -/
lemma unchanged_file (mode : GitMode) {current : GitMode} (raw data : Raw) (hfile : current ≠ .symlink) :
    unchanged host mode (host.oid raw) (fileSide host current data) (some data) = true ↔
      (mode, raw) = (current, data) := by
  rw [unchanged, Bool.or_eq_true, Prod.mk.injEq]
  constructor
  · rintro (hfast | hsides)
    · simp only [fileSide, Option.map_some, Bool.and_eq_true, beq_iff_eq,
        Option.some.injEq] at hfast
      exact ⟨hfast.1, (oid_injective hfast.2).symm⟩
    · unfold sidesExactlyEqual baselineSide at hsides
      by_cases hmode : mode = .symlink
      · simp [hmode, symlinkSide, fileSide] at hsides
      · simp only [hmode, if_false, host.blob_oid, fileSide, ne_eq, not_true_eq_false,
          Option.some.injEq, false_or, ite_not] at hsides
        split at hsides
        · rename_i heq
          exact ⟨heq, by simpa using hsides⟩
        · cases hsides
  · rintro ⟨rfl, rfl⟩
    simp [fileSide]

/-- The same for a link, whose target is compared as text. -/
lemma unchanged_symlink (mode : GitMode) (raw : Raw) {target : Raw} (htarget : host.Valid target)
    (hraw : mode = .symlink → host.Valid raw) :
    unchanged host mode (host.oid raw) (symlinkSide (host.decode target)) (some target) = true ↔
      (mode, raw) = (.symlink, target) := by
  rw [unchanged, Bool.or_eq_true, Prod.mk.injEq]
  constructor
  · rintro (hfast | hsides)
    · simp only [symlinkSide, Option.map_some, Bool.and_eq_true, beq_iff_eq,
        Option.some.injEq] at hfast
      exact ⟨hfast.1, (oid_injective hfast.2).symm⟩
    · unfold sidesExactlyEqual baselineSide at hsides
      by_cases hmode : mode = .symlink
      · simp only [hmode, if_true, host.blob_oid, symlinkSide, ne_eq, not_true_eq_false,
          or_self, if_false, beq_iff_eq, Option.some.injEq] at hsides
        exact ⟨hmode, by rw [← hraw hmode, hsides, htarget]⟩
      · simp [hmode, symlinkSide, fileSide] at hsides
  · rintro ⟨rfl, rfl⟩
    simp [symlinkSide]

lemma currentFileMode_ne (mode : ℕ) : currentFileMode mode ≠ .symlink := by
  unfold currentFileMode
  split <;> simp

lemma decodeText_nul (data : Raw) : ∀ text ∈ decodeText host data, Avoids nul text := by
  intro text htext
  unfold decodeText at htext
  dsimp only at htext
  split at htext
  · rename_i hok
    cases htext
    simpa [Avoids] using hok.2
  · cases htext

lemma fileSide_nul (mode : GitMode) (data : Raw) : (fileSide host mode data).NulFree :=
  ⟨decodeText_nul data, by simp [fileSide]⟩

omit [DecidableEq Raw] in
lemma symlinkSide_nul {target : String} (h : Avoids nul target) :
    (symlinkSide target : Side Raw).NulFree :=
  ⟨by simp [symlinkSide], by simpa [symlinkSide] using h⟩

variable {workspace tree} {path : List Raw}

/-- What one turn of the loop does with a path it does not refuse. -/
theorem capturePath_spec (hplain : PlainNames workspace tree)
    (hlisted : Listed workspace tree path) (hread : ¬Refused tree path) :
    ∃ block, Avoids nul block ∧
      capturePath (baselineOf workspace) tree (host.pathText path) =
        .ok (if before workspace path = (tree.nodes.leaf? path).bind captured then none
          else some (host.pathText path, block)) := by
  have hpath := hplain.plainPath (Or.inl hlisted)
  simp only [Refused, not_or, not_exists, not_and, not_not] at hread
  obtain ⟨hrelative, hlink, htarget⟩ := hread
  have hlookup := hplain.lookup_baseline (Or.inl hlisted)
  have hnul : Avoids nul (host.pathText path) :=
    avoids_intercalate (by decide) fun name hname => (hpath.names name hname).nul
  -- what the current side is, and that it compares as the capture's own record of it
  obtain ⟨current, bytes, hcurrent, hside, hkind, hsame⟩ :
      ∃ (current : Side Raw) (bytes : Option Raw),
        currentSide tree (host.pathText path) = .ok (current, bytes) ∧ current.NulFree ∧
        (current.kind = none ↔ (tree.nodes.leaf? path).bind captured = none) ∧
        ∀ mode raw, before workspace path = some (mode, raw) →
          ((current.kind.isSome && unchanged host mode (host.oid raw) current bytes) = true ↔
            some (mode, raw) = (tree.nodes.leaf? path).bind captured) := by
    unfold currentSide
    rw [Host.pathText, hpath.lexicalParts, if_neg (by simpa [Host.pathText] using hrelative)]
    simp only [hplain.encode (Or.inl hlisted)]
    unfold FileTree.leaf?
    cases hfind : tree.nodes.find path with
    | behindLink => exact absurd hfind hlink
    | absent => exact ⟨_, _, rfl, ⟨by simp, by simp⟩, by simp, by simp⟩
    | node node =>
        cases node with
        | dir => exact ⟨_, _, rfl, ⟨by simp, by simp⟩, by simp [Node.isLeaf], by simp [Node.isLeaf]⟩
        | other => exact ⟨_, _, rfl, ⟨by simp, by simp⟩, by simp [Node.isLeaf], by simp [Node.isLeaf]⟩
        | file mode data =>
            refine ⟨_, _, rfl, fileSide_nul _ _, by simp [fileSide, Node.isLeaf, captured], ?_⟩
            intro frozen raw _
            have hfile := @unchanged_file _ _ host frozen _ raw data (currentFileMode_ne mode)
            simpa [fileSide, Node.isLeaf, captured] using hfile
        | link target =>
            have hvalid := htarget target hfind
            have hlegal := (WorkTree.legal_of_find hfind).2
            simp only [Host.legalNode, Bool.not_eq_true', Bool.eq_false_iff, ne_eq,
              List.contains_iff_mem] at hlegal
            have hencode : host.encode (host.decode target) = target := hvalid
            refine ⟨symlinkSide (host.decode target), some target, by simp [hencode],
              symlinkSide_nul hlegal, by simp [symlinkSide, Node.isLeaf, captured], ?_⟩
            intro frozen raw hbefore
            have hsymlink := unchanged_symlink frozen raw hvalid
              fun hmode => (hplain.targets path raw (hmode ▸ hbefore)).1
            simpa [symlinkSide, Node.isLeaf, captured] using hsymlink
  unfold capturePath
  rw [hcurrent]
  cases hbefore : before workspace path with
  | none =>
      rw [hbefore, Option.map_none] at hlookup
      refine ⟨_, renderPair_nul host hnul (a := {}) ⟨by simp, by simp⟩ hside, ?_⟩
      simp only [hlookup, bind, Except.bind, pure, Except.pure, Bool.false_eq_true, false_or,
        renderPair_eq_empty, true_and, hkind, eq_comm (a := none)]
  | some entry =>
      obtain ⟨mode, raw⟩ := entry
      rw [hbefore, Option.map_some] at hlookup
      have hbaseline : (baselineSide host mode (host.oid raw)).NulFree := by
        unfold baselineSide
        rw [host.blob_oid]
        split
        · rename_i hmode
          exact symlinkSide_nul (hplain.targets path raw (hmode ▸ hbefore)).2
        · exact fileSide_nul _ _
      have hpresent : (baselineSide host mode (host.oid raw)).kind ≠ none := by
        unfold baselineSide
        split <;> simp [symlinkSide, fileSide]
      refine ⟨_, renderPair_nul host hnul hbaseline hside, ?_⟩
      simp only [hlookup, bind, Except.bind, pure, Except.pure, renderPair_eq_empty, hpresent,
        false_and, or_false, hsame mode raw hbefore]

/-- A refused path makes the loop raise. -/
theorem capturePath_refused (hplain : PlainNames workspace tree)
    (hlisted : Listed workspace tree path) (hrefused : Refused tree path)
    (tracked : AList fun _ : String => GitMode × String) :
    ∀ result, capturePath tracked tree (host.pathText path) ≠ .ok result := by
  have hpath := hplain.plainPath (Or.inl hlisted)
  have hcurrent : ∃ e, currentSide tree (host.pathText path) = .error e := by
    unfold currentSide
    rw [Host.pathText, hpath.lexicalParts]
    by_cases habsolute : looksAbsolute (joinParts (path.map host.decode)) = true
    · rw [if_pos habsolute]
      exact ⟨_, rfl⟩
    · rw [if_neg habsolute]
      simp only [hplain.encode (Or.inl hlisted)]
      rcases hrefused with h | h | ⟨target, h, hinvalid⟩
      · exact absurd h habsolute
      · rw [h]
        exact ⟨_, rfl⟩
      · rw [h]
        exact ⟨_, if_neg hinvalid⟩
  obtain ⟨e, he⟩ := hcurrent
  intro result hresult
  rw [capturePath, he] at hresult
  cases hresult

end Sides

section Reports

variable {workspace tree} {path : List Raw}

/-- The two ways of recording a path disagree exactly on a clash of modes. -/
lemma modeClash_iff : ModeClash workspace tree path ↔
    ¬(before workspace path = (tree.nodes.leaf? path).bind captured ↔
      before workspace path = now workspace tree path) := by
  unfold now
  constructor
  · rintro ⟨frozen, mode, bytes, hbefore, hleaf, hclash⟩ hagree
    rw [hbefore, hleaf] at hagree
    simp only [Option.bind_some, captured, materialized, Option.some.injEq, Prod.mk.injEq,
      and_true] at hagree
    exact hclash hagree
  · intro hdisagree
    cases hleaf : tree.nodes.leaf? path with
    | none => simp [hleaf] at hdisagree
    | some node =>
        have hkind := (FileTree.leaf?_eq_some.mp hleaf).2
        cases node with
        | dir => cases hkind
        | other => cases hkind
        | link target => simp [hleaf, captured, materialized] at hdisagree
        | file mode bytes =>
            rw [hleaf] at hdisagree
            simp only [Option.bind_some, captured, materialized] at hdisagree
            cases hbefore : before workspace path with
            | none => simp [hbefore] at hdisagree
            | some entry =>
                obtain ⟨frozen, raw⟩ := entry
                simp only [hbefore, Option.some.injEq, Prod.mk.injEq] at hdisagree
                have hraw : raw = bytes := by
                  by_contra hother
                  simp [hother] at hdisagree
                subst hraw
                simp only [and_true] at hdisagree
                exact ⟨frozen, mode, raw, hbefore, hleaf, hdisagree⟩

/-- A path that differs is looked at, unless it is a revived one. -/
lemma Differs.known (h : Differs workspace tree path) :
    Listed workspace tree path ∨ Revived workspace tree path := by
  rcases h.notIgnored with hbefore | hignored
  · exact Or.inl (Or.inl hbefore)
  · cases hbefore : before workspace path with
    | some entry => exact Or.inl (Or.inl (by rw [hbefore]; rfl))
    | none =>
        have hpresent : (tree.nodes.leaf? path).isSome := by
          have hnow := h.changed
          rw [hbefore, ne_comm, Option.ne_none_iff_isSome] at hnow
          exact isSome_of_bind hnow
        by_cases htracked : path ∈ workspace.sourceHead
        · exact Or.inr ⟨htracked, hbefore, hpresent, hignored⟩
        · refine Or.inl (Or.inr (mem_lsFilesOthers.mpr ⟨hpresent, hignored, ?_⟩))
          exact fun hmem => htracked (AList.mem_keys.mpr hmem)

lemma Revived.differs (h : Revived workspace tree path) : Differs workspace tree path where
  notIgnored := Or.inr h.notIgnored
  changed := by
    obtain ⟨node, hnode⟩ := Option.isSome_iff_exists.mp h.present
    have hkind := (FileTree.leaf?_eq_some.mp hnode).2
    rw [h.deleted, now, hnode]
    cases node with
    | dir => cases hkind
    | other => cases hkind
    | file mode bytes => simp [materialized]
    | link target => simp [materialized]

lemma Revived.not_listed (h : Revived workspace tree path) : ¬Listed workspace tree path := by
  rintro (hbefore | hothers)
  · rw [h.deleted] at hbefore
    cases hbefore
  · exact (mem_lsFilesOthers.mp hothers).2.2 (AList.mem_keys.mp h.tracked)

lemma Listed.notIgnored (h : Listed workspace tree path) :
    (before workspace path).isSome ∨ host.ignored tree.nodes path = false :=
  h.imp_right fun hothers => (mem_lsFilesOthers.mp hothers).2.1

section Loop

variable {tracked : AList fun _ : String => GitMode × String} {paths : List String}
  {blocks : List (Option (String × String))}

lemma capturePath_text {text : String} {change : String × String}
    (h : capturePath tracked tree text = .ok (some change)) : change.1 = text := by
  simp only [capturePath, except_bind_eq_ok, except_pure_eq_ok] at h
  obtain ⟨⟨current, bytes⟩, -, h⟩ := h
  rw [Option.ite_none_left_eq_some, Option.some.injEq] at h
  rw [← h.2]

/-- The changed paths are among the listed ones, in the same order. -/
lemma changed_sublist
    (h : Collects tree tracked paths blocks) :
    ((blocks.filterMap id).map (·.1)).Sublist paths := by
  induction h with
  | nil => exact .slnil
  | @cons text block texts rest hblock hrest ih =>
      cases block with
      | none => exact ih.cons text
      | some change =>
          rw [List.filterMap_cons_some (f := id) (b := change) rfl, List.map_cons, capturePath_text hblock]
          exact ih.cons_cons text

lemma mem_changed {text : String}
    (h : Collects tree tracked paths blocks) :
    text ∈ (blocks.filterMap id).map (·.1) ↔
      text ∈ paths ∧ ∃ change, capturePath tracked tree text = .ok (some change) := by
  induction h with
  | nil => simp
  | @cons first block texts rest hblock hrest ih =>
      rw [List.mem_cons]
      cases block with
      | none =>
          rw [List.filterMap_cons_none (f := id) rfl, ih]
          constructor
          · exact fun h => ⟨Or.inr h.1, h.2⟩
          · rintro ⟨rfl | hmem, change, hchange⟩
            · rw [hblock] at hchange
              cases hchange
            · exact ⟨hmem, change, hchange⟩
      | some change =>
          rw [List.filterMap_cons_some (f := id) (b := change) rfl, List.map_cons,
            List.mem_cons, ih, capturePath_text hblock]
          constructor
          · rintro (rfl | h)
            · exact ⟨Or.inl rfl, change, hblock⟩
            · exact ⟨Or.inr h.1, h.2⟩
          · rintro ⟨rfl | hmem, h⟩
            · exact Or.inl rfl
            · exact Or.inr ⟨hmem, h⟩

lemma blocks_nul (hnul : ∀ text ∈ paths, ∀ change,
      capturePath tracked tree text = .ok (some change) → Avoids nul change.2)
    (h : Collects tree tracked paths blocks) :
    ∀ block ∈ (blocks.filterMap id).map (·.2), Avoids nul block := by
  induction h with
  | nil => simp
  | @cons text block texts rest hblock hrest ih =>
      have htail := ih fun t ht => hnul t (List.mem_cons_of_mem _ ht)
      cases block with
      | none => exact htail
      | some change =>
          rw [List.filterMap_cons_some (f := id) (b := change) rfl, List.map_cons,
            List.forall_mem_cons]
          exact ⟨hnul text List.mem_cons_self change hblock, htail⟩

end Loop

lemma validatedPath_eq {text normalized : String} (h : validatedPath text = .ok normalized) :
    normalized = text := by
  unfold validatedPath at h
  split at h
  · cases h
  · rename_i found _
    split at h
    · cases h
    · rename_i hsame
      cases h
      rwa [ne_eq, not_not] at hsame

lemma mapM_validatedPath {texts normalized : List String}
    (h : texts.mapM validatedPath = .ok normalized) : normalized = texts := by
  rw [mapM_eq_ok] at h
  induction h with
  | nil => rfl
  | cons hfirst _ ih => rw [validatedPath_eq hfirst, ih]

omit [DecidableEq Raw] in
lemma changeSet_paths {diff : String} {texts : List String} {set : WorkspaceChangeSet}
    (h : WorkspaceChangeSet.new host diff texts = .ok set) : set.changedPaths = texts := by
  unfold WorkspaceChangeSet.new at h
  split at h
  · cases h
  · split at h
    · cases h
    · rename_i normalized hmap
      split at h
      · cases h
      · split at h
        · cases h
        · cases h
          exact mapM_validatedPath hmap

omit [DecidableEq Raw] in
/-- A change set of sorted, distinct paths is refused only for one of its paths. -/
lemma changeSet_returns {diff : String} {texts : List String} (hdiff : Avoids nul diff)
    (hnodup : texts.Nodup) (hsorted : texts.Pairwise (· ≤ ·)) :
    (∃ set, WorkspaceChangeSet.new host diff texts = .ok set) ↔
      ∀ text ∈ texts, ∃ normalized, validatedPath text = .ok normalized := by
  rw [← mapM_returns]
  have hcontains : diff.toList.contains nul = false := by
    rwa [Bool.eq_false_iff, ne_eq, List.contains_iff_mem]
  unfold WorkspaceChangeSet.new
  rw [hcontains, if_neg Bool.false_ne_true]
  cases hmap : texts.mapM validatedPath with
  | error e => simp
  | ok normalized =>
      rw [mapM_validatedPath hmap]
      simp [hnodup, hsorted.insertionSort_eq]

lemma validatedPath_returns (hplain : PlainNames workspace tree)
    (hlisted : Listed workspace tree path) (hread : ¬Refused tree path) :
    (∃ normalized, validatedPath (host.pathText path) = .ok normalized) ↔
      isExpandable (host.pathText path) = false := by
  have hpath := hplain.plainPath (Or.inl hlisted)
  have hrelative : looksAbsolute (host.pathText path) = false := by
    rw [Bool.eq_false_iff]
    exact fun h => hread (Or.inl h)
  unfold validatedPath
  rw [Host.pathText, hpath.normalize, ← Host.pathText, if_neg (by simp [hrelative])]
  cases isExpandable (host.pathText path) <;> simp

section Loops

variable {blocks : List (Option (String × String))} (hplain : PlainNames workspace tree)

include hplain

lemma Collects.not_refused (h : Collects tree (baselineOf workspace) (visited workspace tree)
    blocks) : ∀ path, Listed workspace tree path → ¬Refused tree path := by
  intro path hlisted hrefused
  obtain ⟨block, hblock⟩ := mapM_returns.mp ⟨blocks, mapM_eq_ok.mpr h⟩ (host.pathText path)
    (mem_visited.mpr ⟨path, hlisted, rfl⟩)
  exact capturePath_refused hplain hlisted hrefused _ block hblock

/-- The changed paths of a capture are the reported ones. -/
lemma Collects.mem_iff (h : Collects tree (baselineOf workspace) (visited workspace tree) blocks)
    {text : String} : text ∈ (blocks.filterMap id).map (·.1) ↔
      ∃ path, Reported workspace tree path ∧ host.pathText path = text := by
  have hread := h.not_refused hplain
  rw [mem_changed h, mem_visited]
  constructor
  · rintro ⟨⟨path, hlisted, rfl⟩, change, hchange⟩
    obtain ⟨block, -, hspec⟩ := capturePath_spec hplain hlisted (hread path hlisted)
    rw [hspec, Except.ok.injEq] at hchange
    split at hchange
    · cases hchange
    · rename_i hchanged
      exact ⟨path, ⟨hlisted, hchanged⟩, rfl⟩
  · rintro ⟨path, hreported, rfl⟩
    obtain ⟨block, -, hspec⟩ :=
      capturePath_spec hplain hreported.listed (hread path hreported.listed)
    rw [if_neg hreported.changed] at hspec
    exact ⟨⟨path, hreported.listed, rfl⟩, _, hspec⟩

/-- The change set of a finished loop is refused only for a path a shell would expand. -/
lemma Collects.returns (h : Collects tree (baselineOf workspace) (visited workspace tree)
    blocks) :
    (∃ set, WorkspaceChangeSet.new host (joinLines ((blocks.filterMap id).map (·.2)))
        ((blocks.filterMap id).map (·.1)) = .ok set) ↔
      ∀ path, Reported workspace tree path → isExpandable (host.pathText path) = false := by
  have hread := h.not_refused hplain
  have hdiff : ∀ block ∈ (blocks.filterMap id).map (·.2), Avoids nul block := by
    refine blocks_nul (fun text htext change hchange => ?_) h
    obtain ⟨path, hlisted, rfl⟩ := mem_visited.mp htext
    obtain ⟨block, hnul, hspec⟩ := capturePath_spec hplain hlisted (hread path hlisted)
    rw [hspec, Except.ok.injEq, Option.ite_none_left_eq_some, Option.some.injEq] at hchange
    rwa [← hchange.2]
  have hsublist := changed_sublist h
  have hnodup : (visited workspace tree).Nodup :=
    (List.perm_insertionSort _ _).nodup_iff.mpr (List.nodup_dedup _)
  have hsorted : (visited workspace tree).Pairwise (· ≤ ·) := List.pairwise_insertionSort _ _
  rw [changeSet_returns (joinLines_nul hdiff) (hnodup.sublist hsublist)
    (hsorted.sublist hsublist)]
  simp only [h.mem_iff hplain]
  constructor
  · intro hvalid path hreported
    exact (validatedPath_returns hplain hreported.listed (hread path hreported.listed)).mp
      (hvalid _ ⟨path, hreported, rfl⟩)
  · rintro hexpand text ⟨path, hreported, rfl⟩
    exact (validatedPath_returns hplain hreported.listed (hread path hreported.listed)).mpr
      (hexpand path hreported)

end Loops

/-- Where reported and differing paths agree. -/
lemma exact_iff (hplain : PlainNames workspace tree) {set : WorkspaceChangeSet}
    (hmem : ∀ text, text ∈ set.changedPaths ↔
      ∃ path, Reported workspace tree path ∧ host.pathText path = text) :
    Exact workspace tree set ↔
      ∀ path, ¬ModeClash workspace tree path ∧ ¬Revived workspace tree path := by
  constructor
  · intro hexact path
    constructor
    · intro hclash
      have hlisted : Listed workspace tree path := by
        obtain ⟨_, _, _, hbefore, -, -⟩ := hclash
        exact Or.inl (by rw [hbefore]; rfl)
      rw [modeClash_iff] at hclash
      by_cases hcaptured : before workspace path = (tree.nodes.leaf? path).bind captured
      · have hdiffers : Differs workspace tree path :=
          ⟨hlisted.notIgnored, fun hnow => hclash (iff_of_true hcaptured hnow)⟩
        obtain ⟨other, hreported, htext⟩ := (hmem _).mp (hexact.complete path hdiffers)
        obtain rfl := hplain.injective (Or.inl hreported.listed) (Or.inl hlisted) htext
        exact hreported.changed hcaptured
      · obtain ⟨other, hdiffers, htext⟩ := hexact.sound _
          ((hmem _).mpr ⟨path, ⟨hlisted, hcaptured⟩, rfl⟩)
        have hother := hdiffers.known.imp_right Revived.tracked
        obtain rfl := hplain.injective hother (Or.inl hlisted) htext
        exact hclash (iff_of_false hcaptured hdiffers.changed)
    · intro hrevived
      obtain ⟨other, hreported, htext⟩ := (hmem _).mp (hexact.complete path hrevived.differs)
      obtain rfl := hplain.injective (Or.inl hreported.listed) (Or.inr hrevived.tracked) htext
      exact hrevived.not_listed hreported.listed
  · intro hfree
    constructor
    · intro text htext
      obtain ⟨path, hreported, rfl⟩ := (hmem text).mp htext
      refine ⟨path, ⟨hreported.listed.notIgnored, fun hnow => ?_⟩, rfl⟩
      exact (hfree path).1 (modeClash_iff.mpr fun hagree =>
        hreported.changed (hagree.mpr hnow))
    · intro path hdiffers
      have hlisted := hdiffers.known.resolve_right (hfree path).2
      refine (hmem _).mpr ⟨path, ⟨hlisted, fun hcaptured => ?_⟩, rfl⟩
      exact (hfree path).1 (modeClash_iff.mpr fun hagree =>
        hdiffers.changed (hagree.mp hcaptured))

end Reports

section Captures

variable {workspace tree}

/-- The loop of a capture, and the change set that is made of its blocks. -/
lemma capture_loop {set : WorkspaceChangeSet} :
    capture workspace tree = .ok set ↔ ∃ blocks,
      Collects tree (baselineOf workspace) (visited workspace tree) blocks ∧
        WorkspaceChangeSet.new host (joinLines ((blocks.filterMap id).map (·.2)))
          ((blocks.filterMap id).map (·.1)) = .ok set := by
  simp only [capture, except_bind_eq_ok, mapM_eq_ok]

lemma capture_returns (hplain : PlainNames workspace tree) :
    (∃ set, capture workspace tree = .ok set) ↔
      (∀ path, Listed workspace tree path → ¬Refused tree path) ∧
        ∀ path, Reported workspace tree path → isExpandable (host.pathText path) = false := by
  constructor
  · rintro ⟨set, hset⟩
    obtain ⟨blocks, hblocks, hset⟩ := capture_loop.mp hset
    exact ⟨hblocks.not_refused hplain, (hblocks.returns hplain).mp ⟨set, hset⟩⟩
  · rintro ⟨hread, hexpand⟩
    have hturns : ∀ text ∈ visited workspace tree,
        ∃ block, capturePath (baselineOf workspace) tree text = .ok block := by
      intro text htext
      obtain ⟨path, hlisted, rfl⟩ := mem_visited.mp htext
      obtain ⟨block, -, hspec⟩ := capturePath_spec hplain hlisted (hread path hlisted)
      exact ⟨_, hspec⟩
    obtain ⟨blocks, hblocks⟩ := mapM_returns.mpr hturns
    rw [mapM_eq_ok] at hblocks
    obtain ⟨set, hset⟩ := (Collects.returns hplain hblocks).mpr hexpand
    exact ⟨set, capture_loop.mpr ⟨blocks, hblocks, hset⟩⟩

lemma capture_exact_of_ok (hplain : PlainNames workspace tree) {set : WorkspaceChangeSet}
    (hset : capture workspace tree = .ok set) :
    Exact workspace tree set ↔
      ∀ path, ¬ModeClash workspace tree path ∧ ¬Revived workspace tree path := by
  obtain ⟨blocks, hblocks, hset⟩ := capture_loop.mp hset
  refine exact_iff hplain fun text => ?_
  rw [changeSet_paths hset]
  exact hblocks.mem_iff hplain

end Captures

end Comparison

section Keys

variable {Raw : Type} [DecidableEq Raw] {host : Host Raw}
  {workspace : GitWorktreeWorkspace host} {tree : WorkTree host} {path : List Raw}

lemma leaf_mem_keys {worktree : WorkTree host} (h : (worktree.nodes.leaf? path).isSome) :
    path ∈ worktree.nodes.keys := by
  obtain ⟨node, hnode⟩ := Option.isSome_iff_exists.mp h
  exact FileTree.mem_keys_of_find (FileTree.leaf?_eq_some.mp hnode).1

lemma known_mem_keys (h : Listed workspace tree path ∨ path ∈ workspace.sourceHead) :
    path ∈ workspace.sourceHead.keys ++ workspace.overlaid.nodes.keys ++ tree.nodes.keys := by
  simp only [List.mem_append]
  rcases h with (hbefore | hothers) | htracked
  · unfold before visible at hbefore
    split at hbefore
    · exact Or.inl (Or.inl (AList.mem_keys.mp ‹_›))
    · split at hbefore
      · cases hbefore
      · exact Or.inl (Or.inr (leaf_mem_keys (isSome_of_bind hbefore)))
  · exact Or.inr (leaf_mem_keys (mem_lsFilesOthers.mp hothers).1)
  · exact Or.inl (Or.inl (AList.mem_keys.mp htracked))

/-- Off NT only a link is frozen as one. -/
lemma link_target_nul (hposix : host.nt = false) {target : Raw}
    (h : before workspace path = some (.symlink, target)) : Avoids nul (host.decode target) := by
  have hlink : ∀ original node, materialized host original node = some (.symlink, target) →
      host.legalNode node = true → Avoids nul (host.decode target) := by
    intro original node hnode hlegal
    cases node with
    | dir => cases hnode
    | other => cases hnode
    | link found =>
        cases hnode
        simpa [Host.legalNode, Avoids] using hlegal
    | file mode bytes =>
        simp only [materialized, gitMode, hposix, Bool.false_eq_true, if_false,
          Option.some.injEq, Prod.mk.injEq] at hnode
        have hmode := hnode.1
        split at hmode <;> cases hmode
  unfold before visible at h
  split at h
  · obtain ⟨node, hseen, hnode⟩ := Option.bind_eq_some_iff.mp h
    refine hlink _ node hnode ?_
    unfold WorkTree.seen at hseen
    split at hseen
    · rename_i found hfind
      cases hseen
      exact (WorkTree.legal_of_find hfind).2
    · cases hseen
    · have hbeyond := workspace.overlaid.beyondLegal path
      rw [hseen] at hbeyond
      exact hbeyond
  · split at h
    · cases h
    · obtain ⟨node, hleaf, hnode⟩ := Option.bind_eq_some_iff.mp h
      exact hlink _ node hnode (WorkTree.legal_of_find (FileTree.leaf?_eq_some.mp hleaf).1).2

end Keys

section Sample

/-- A POSIX host with texts for byte strings, whose ignore rules exclude nothing. The
digest is that of the change below. -/
def sampleHost : Host String where
  decode := id
  encode := id
  decode_encode _ := rfl
  oid := id
  blob := id
  blob_oid _ := rfl
  sha256 _ := "0ffc3a78b5628eb6a085d22d92faf7c8bacc7cfd49ce28220f309bcf610635b6"
  sha256_hex _ := List.all_eq_true.mp (by decide)
  size raw := raw.utf8ByteSize
  nt := false
  ignored _ _ := false

/-- A worktree of files without links. -/
def sampleTree (entries : List (Sigma fun _ : List String => Node String))
    (hnodup : entries.keys.Nodup)
    (hlegal : ∀ entry ∈ entries, sampleHost.legalPath entry.1 && sampleHost.legalNode entry.2) :
    WorkTree sampleHost :=
  ⟨⟨entries, hnodup⟩, fun _ => none, hlegal, fun _ => rfl⟩

/-- The source HEAD has two files, of which the user has deleted the second. -/
def sampleWorkspace (overlaid : WorkTree sampleHost) : GitWorktreeWorkspace sampleHost where
  sourceHead := ⟨[⟨["a.py"], .regular, "x\n"⟩, ⟨["b.py"], .regular, "y\n"⟩],
    (by decide : List.Nodup [["a.py"], ["b.py"]])⟩
  headLegal := by decide
  overlaid

def overlaidTree : WorkTree sampleHost :=
  sampleTree [⟨["a.py"], .file 0o644 "x\n"⟩] (by decide) (by decide)

def editedTree : WorkTree sampleHost :=
  sampleTree [⟨["a.py"], .file 0o644 "x = 1\n"⟩, ⟨["n.py"], .file 0o755 "z\n"⟩] (by decide)
    (by decide)

/-- The user has edited `a.py`, and its group may execute it, its owner may not. -/
def groupExecTree : WorkTree sampleHost :=
  sampleTree [⟨["a.py"], .file 0o654 "x = 2\n"⟩] (by decide) (by decide)

/-- The agent has written `b.py` again. -/
def revivedTree : WorkTree sampleHost :=
  sampleTree [⟨["a.py"], .file 0o644 "x\n"⟩, ⟨["b.py"], .file 0o644 "new\n"⟩] (by decide)
    (by decide)

lemma sample_plain {overlaid tree : WorkTree sampleHost}
    (h : ∀ path ∈ (sampleWorkspace overlaid).sourceHead.keys ++ overlaid.nodes.keys ++
      tree.nodes.keys, ∀ name ∈ path, Avoids '\\' name) :
    PlainNames (sampleWorkspace overlaid) tree where
  names path hpath name hname := ⟨rfl, h path (known_mem_keys hpath) name hname⟩
  targets _ _ hbefore := ⟨rfl, link_target_nul rfl hbefore⟩

lemma changedPaths_of_eval (overlaid tree : WorkTree sampleHost) (paths : List String)
    (h : (capture (sampleWorkspace overlaid) tree).toOption.map (·.changedPaths) = some paths) :
    ∃ set, capture (sampleWorkspace overlaid) tree = .ok set ∧ set.changedPaths = paths := by
  cases hcapture : capture (sampleWorkspace overlaid) tree with
  | error e =>
      rw [hcapture] at h
      cases h
  | ok set =>
      rw [hcapture] at h
      exact ⟨set, rfl, Option.some.inj h⟩

end Sample

end Imece.ChangeRuntime
