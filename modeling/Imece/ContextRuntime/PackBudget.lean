import Imece.ContextRuntime.Pack

/-!
# What a pack holds

A pack stays within its budget, what was dropped of it scored lowest, and a pack that does not
say that it is truncated misses nothing.
-/
namespace Imece.ContextRuntime

open Lib Workspace

section Scores

variable {casefold : List Char → List Char} {analysis : QueryAnalysis} {limit : ℕ}
  {snapshot : RepositorySnapshot} {entry : RankedFile} {collected next : Collected}

lemma ContextSegment.check_ok {segment built : ContextSegment} (h : segment.check = .ok built) :
    built = segment ∧ nul ∉ segment.text := by
  simp only [ContextSegment.check, except_bind_eq_ok] at h
  obtain ⟨_, -, h⟩ := h
  by_cases hrange : segment.startLine < 1 ∨ segment.endLine < segment.startLine
  · rw [if_pos hrange] at h
    cases h
  · rw [if_neg hrange] at h
    by_cases htext : nul ∈ segment.text
    · rw [if_pos htext] at h
      cases h
    · rw [if_neg htext] at h
      by_cases hreasons : "" ∈ segment.reasons
      · rw [if_pos hreasons] at h
        cases h
      · rw [if_neg hreasons, except_bind_eq_ok] at h
        obtain ⟨_, -, h⟩ := h
        cases h
        exact ⟨rfl, htext⟩

lemma le_foldl_bound {reasons : List (ℕ × String)} {tier bound : ℕ} (htier : tier ≤ bound)
    (h : ∀ reason ∈ reasons, reason.1 ≤ bound) :
    reasons.foldl (fun tier reason => max tier reason.1) tier ≤ bound := by
  induction reasons generalizing tier with
  | nil => exact htier
  | cons reason rest ih =>
      have hfirst := h reason List.mem_cons_self
      exact ih (Nat.max_le.mpr ⟨htier, hfirst⟩) fun other hother =>
        h other (List.mem_cons_of_mem _ hother)

lemma fileReasons_tier {file : RepositoryFile} {reason : ℕ × String}
    (h : reason ∈ fileReasons casefold analysis snapshot file) : reason.1 ≤ 5 := by
  simp only [fileReasons, List.mem_append] at h
  rcases h with (((h | h) | h) | h) | h
  all_goals
    split_ifs at h
    · have hfirst := congrArg Prod.fst (List.mem_singleton.mp h)
      simp only at hfirst
      omega
    · cases h

/-- No ranked file has the score of a pinned one, as long as these are not too many. -/
lemma rankFiles_score (h : entry ∈ rankFiles casefold analysis snapshot) : entry.score < 6000000 := by
  rw [rankFiles, List.mem_insertionSort, List.mem_filterMap] at h
  obtain ⟨file, -, hentry⟩ := h
  have htier := @le_foldl_bound (fileReasons casefold analysis snapshot file) 0 5 (by omega)
    fun reason hreason => fileReasons_tier hreason
  simp only [rankFile] at hentry
  generalize (fileReasons casefold analysis snapshot file).foldl
    (fun tier reason => max tier reason.1) 0 = tier at hentry htier
  by_cases hnone : tier = 0
  · rw [if_pos hnone] at hentry
    cases hentry
  · rw [if_neg hnone, Option.some.injEq] at hentry
    rw [← hentry]
    have := Nat.min_le_left 999999 (analysis.terms.countP (fun term =>
      decide (term <:+: casefold file.path.toList)) * 1000 +
      min (analysis.terms.map fun term => countText term 0
        (casefold ((snapshot.contentByPath.lookup file.path).getD []))).sum 999)
    simp only
    omega

lemma score_windowSegment {lines : List (List Char)} {window : ℕ × ℕ} :
    (windowSegment limit entry lines window).1.score = entry.score := by
  rw [windowSegment]
  by_cases hlong : limit < (joinLines (windowLines lines window.1 window.2)).length
  · simp only [if_pos hlong]
  · simp only [if_neg hlong]

/-- The segments so far have the scores of ranked files. -/
def Collected.Scored (bound : ℤ) (collected : Collected) : Prop :=
  ∀ segment ∈ collected.segments, segment.score < bound

lemma Collected.Scored.window {bound : ℤ} {lines : List (List Char)} {window : ℕ × ℕ}
    (h : collected.Scored bound) (hentry : entry.score < bound)
    (hnext : collected.window limit entry lines window = .ok next) : next.Scored bound := by
  rw [Collected.window] at hnext
  by_cases hfull : collected.full = true
  · rw [if_pos hfull] at hnext
    cases hnext
    exact h
  · rw [if_neg hfull] at hnext
    by_cases hmany : maxCandidateSegments ≤ collected.segments.length
    · rw [if_pos hmany] at hnext
      cases hnext
      exact h
    · rw [if_neg hmany, except_bind_eq_ok] at hnext
      obtain ⟨segment, hsegment, hnext⟩ := hnext
      cases hnext
      intro other hother
      rcases List.mem_append.mp hother with hother | hother
      · exact h other hother
      · rw [List.mem_singleton.mp hother, (ContextSegment.check_ok hsegment).1,
          score_windowSegment]
        exact hentry

lemma Collected.Scored.windows {bound : ℤ} {lines : List (List Char)} {windows : List (ℕ × ℕ)}
    (h : collected.Scored bound) (hentry : entry.score < bound)
    (hnext : windows.foldlM (Collected.window limit entry lines) collected = .ok next) :
    next.Scored bound := by
  induction windows generalizing collected with
  | nil =>
      rw [List.foldlM_nil, except_pure_eq_ok] at hnext
      rwa [← hnext]
  | cons window rest ih =>
      rw [List.foldlM_cons, except_bind_eq_ok] at hnext
      obtain ⟨mid, hmid, hrest⟩ := hnext
      exact ih (h.window hentry hmid) hrest

lemma Collected.Scored.files {bound : ℤ} {ranked : List RankedFile}
    (h : collected.Scored bound) (hranked : ∀ entry ∈ ranked, entry.score < bound)
    (hnext : ranked.foldlM (Collected.file casefold analysis limit snapshot) collected =
      .ok next) : next.Scored bound := by
  induction ranked generalizing collected with
  | nil =>
      rw [List.foldlM_nil, except_pure_eq_ok] at hnext
      rwa [← hnext]
  | cons entry rest ih =>
      rw [List.foldlM_cons, except_bind_eq_ok] at hnext
      obtain ⟨mid, hmid, hrest⟩ := hnext
      refine ih ?_ (fun other hother => hranked other (List.mem_cons_of_mem _ hother)) hrest
      rw [Collected.file] at hmid
      by_cases hfull : collected.full = true
      · rw [if_pos hfull] at hmid
        cases hmid
        exact h
      · rw [if_neg hfull] at hmid
        cases hlookup : snapshot.contentByPath.lookup entry.file.path with
        | none =>
            rw [hlookup] at hmid
            cases hmid
            exact h
        | some content =>
            rw [hlookup] at hmid
            have hstart : Collected.Scored bound { collected with
                truncated := collected.truncated || (fileWindows casefold analysis snapshot.index
                  entry.file.path (splitlines content)).2 } := h
            exact hstart.windows (hranked entry List.mem_cons_self) hmid

lemma segments_score {found : List ContextSegment} {truncated : Bool}
    (h : segments casefold analysis limit snapshot (rankFiles casefold analysis snapshot) =
      .ok (found, truncated)) : ∀ segment ∈ found, segment.score < 6000000 := by
  simp only [segments, except_bind_eq_ok, Except.ok.injEq, Prod.mk.injEq] at h
  obtain ⟨collected, hcollected, rfl, -⟩ := h
  have hempty : Collected.Scored 6000000 {} := fun _ h => absurd h List.not_mem_nil
  intro segment hsegment
  exact hempty.files (fun entry hentry => rankFiles_score hentry) hcollected segment
    ((List.mem_insertionSort _).mp hsegment)

end Scores

section Pins

variable {digest : List Char → String} {view : WorkspaceView} {limit offset : ℕ} {score : ℤ}
  {path : String} {paths : List String} {found : List ContextSegment}

lemma pinnedSegment_ok {segment : ContextSegment}
    (h : pinnedSegment digest view path score limit = .ok (some segment)) :
    segment.path = path ∧ segment.score = score := by
  rw [pinnedSegment] at h
  by_cases hdir : view.isDir path = true
  · rw [if_pos hdir, pinnedFolderSegment] at h
    cases hfiles : view.iterFiles path with
    | none => rw [hfiles] at h; cases h
    | some listing =>
        rw [hfiles] at h
        simp only [except_map_eq_ok, Option.some.injEq] at h
        obtain ⟨built, hbuilt, rfl⟩ := h
        rw [(ContextSegment.check_ok hbuilt).1]
        exact ⟨rfl, rfl⟩
  · rw [if_neg hdir] at h
    by_cases hfile : view.isFile path = true
    · rw [if_pos hfile, pinnedFileSegment] at h
      cases hread : view.readText path with
      | none => rw [hread] at h; cases h
      | some content =>
          rw [hread] at h
          simp only at h
          by_cases hnul : nul ∈ content
          · rw [if_pos hnul] at h
            cases h
          · rw [if_neg hnul, except_map_eq_ok] at h
            obtain ⟨built, hbuilt, hsome⟩ := h
            cases hsome
            rw [(ContextSegment.check_ok hbuilt).1]
            exact ⟨rfl, rfl⟩
    · rw [if_neg hfile] at h
      cases h

/-- The segments of the pinned paths, each with the score of its place in the list. -/
lemma pinnedSegments_ok (h : pinnedSegments digest view limit offset paths = .ok found) :
    ∀ segment ∈ found, segment.path ∈ paths ∧
      pinnedBaseScore - (offset + paths.length : ℕ) < segment.score := by
  induction paths generalizing offset found with
  | nil =>
      rw [pinnedSegments, Except.ok.injEq] at h
      simp [← h]
  | cons path rest ih =>
      simp only [pinnedSegments, except_bind_eq_ok, Except.ok.injEq] at h
      obtain ⟨segment, hsegment, more, hmore, rfl⟩ := h
      intro other hother
      rcases List.mem_append.mp hother with hother | hother
      · rw [Option.mem_toList] at hother
        rw [hother] at hsegment
        obtain ⟨hpath, hscore⟩ := pinnedSegment_ok hsegment
        refine ⟨hpath ▸ List.mem_cons_self, ?_⟩
        rw [hscore, List.length_cons]
        omega
      · obtain ⟨hpath, hscore⟩ := ih hmore other hother
        refine ⟨List.mem_cons_of_mem _ hpath, ?_⟩
        rw [List.length_cons]
        omega

/-- The segment of a pinned file whose text did not have to be cut has all of it. -/
lemma pinnedFile_whole {content : List Char} (hfile : view.isDir path = false)
    (hisfile : view.isFile path = true) (hread : view.readText path = some content)
    (hnul : nul ∉ content) {built : Option ContextSegment}
    (h : pinnedSegment digest view path score limit = .ok built) :
    ∃ segment, built = some segment ∧ segment.path = path ∧
      (¬ pinnedTruncationNote.isSuffixOf segment.text → segment.text = content) := by
  rw [pinnedSegment, hfile, hisfile, pinnedFileSegment, hread] at h
  simp only [Bool.false_eq_true, if_false, if_true, if_neg hnul, except_map_eq_ok] at h
  obtain ⟨segment, hsegment, rfl⟩ := h
  have hbuilt := (ContextSegment.check_ok hsegment).1
  refine ⟨segment, rfl, by rw [hbuilt], ?_⟩
  intro hclean
  rw [hbuilt] at hclean ⊢
  by_cases hlong : limit < content.length
  · simp only [if_pos hlong] at hclean
    refine absurd ?_ hclean
    rw [List.isSuffixOf_iff_suffix]
    exact List.suffix_append _ _
  · simp only [if_neg hlong]

lemma pinnedSegments_mem (h : pinnedSegments digest view limit offset paths = .ok found)
    (hpath : path ∈ paths) : ∃ score built, pinnedSegment digest view path score limit = .ok built ∧
      ∀ segment, built = some segment → segment ∈ found := by
  induction paths generalizing offset found with
  | nil => cases hpath
  | cons first rest ih =>
      simp only [pinnedSegments, except_bind_eq_ok, Except.ok.injEq] at h
      obtain ⟨segment, hsegment, more, hmore, rfl⟩ := h
      rcases List.mem_cons.mp hpath with rfl | hpath
      · refine ⟨_, segment, hsegment, ?_⟩
        rintro built rfl
        exact List.mem_append_left _ (by simp)
      · obtain ⟨score, built, hbuilt, hmem⟩ := ih hmore hpath
        exact ⟨score, built, hbuilt, fun other hother => List.mem_append_right _ (hmem other hother)⟩

end Pins

section Maps

variable {index : RepositoryIndex} {ranked : List RankedFile} {limit : ℕ}

lemma mapTurn_spec (entries : List (List Char) × Bool) (path : String) :
    mapTurn index limit entries path = (entries.1 ++ [mapEntry index path], entries.2) ∨
      (mapTurn index limit entries path).2 = true := by
  rw [mapTurn]
  by_cases hlong : limit < (joinLines entries.1).length + (if entries.1 = [] then 0 else 1) +
      (mapEntry index path).length
  · exact Or.inr (by simp only [if_pos hlong])
  · exact Or.inl (by simp only [if_neg hlong])

/-- As long as no entry is left out, the map has one for each path. -/
lemma foldl_mapTurn {paths : List String} {entries : List (List Char) × Bool}
    (h : (paths.foldl (mapTurn index limit) entries).2 = false) :
    entries.2 = false ∧
      (paths.foldl (mapTurn index limit) entries).1 = entries.1 ++ paths.map (mapEntry index) := by
  induction paths generalizing entries with
  | nil => exact ⟨h, by simp⟩
  | cons path rest ih =>
      rw [List.foldl_cons] at h ⊢
      obtain ⟨hbefore, hentries⟩ := ih h
      rcases @mapTurn_spec index limit entries path with hturn | hturn
      · rw [hturn] at hbefore hentries ⊢
        refine ⟨hbefore, ?_⟩
        rw [hentries, List.map_cons, List.append_assoc, List.singleton_append]
      · rw [hturn] at hbefore
        cases hbefore

lemma mapPaths_iff (hranked : ∀ entry ∈ ranked, entry.file ∈ index.files) (path : String) :
    path ∈ mapPaths index ranked ↔ path ∈ index.files.map (·.path) := by
  simp only [mapPaths, List.mem_append, List.mem_filter, decide_eq_true_eq]
  constructor
  · rintro (h | ⟨h, -⟩)
    · obtain ⟨entry, hentry, rfl⟩ := List.mem_map.mp h
      exact List.mem_map_of_mem (hranked entry hentry)
    · exact h
  · intro h
    by_cases hmem : path ∈ ranked.map fun entry => entry.file.path
    · exact Or.inl hmem
    · exact Or.inr ⟨h, hmem⟩

theorem repoMap_complete (h : (repoMap index ranked limit).2 = false) :
    (repoMap index ranked limit).1 = joinLines ((mapPaths index ranked).map (mapEntry index)) := by
  rw [repoMap, Bool.or_eq_false_iff] at h
  rw [repoMap, (foldl_mapTurn h.1).2, List.nil_append]

end Maps

section Packs

variable {digest : List Char → String} {budget : ContextBudget} {parser : PythonParser}
  {casefold : List Char → List Char} {scanner : RepositoryScanner} {escapes : String → String}
  {view : WorkspaceView} {query : List Char} {analysis : QueryAnalysis} {pinnedPaths : List String}
  {pack : ContextPack}

lemma ContextPack.check_ok {built : ContextPack} (h : pack.check = .ok built) : built = pack := by
  rw [ContextPack.check] at h
  by_cases hmap : nul ∈ pack.repoMap
  · rw [if_pos hmap] at h
    cases h
  · rw [if_neg hmap] at h
    by_cases hrendered : nul ∈ pack.rendered
    · rw [if_pos hrendered] at h
      cases h
    · rw [if_neg hrendered, Except.ok.injEq] at h
      exact h.symm

/-- A pack as it is rendered: within the budget, its segments the first candidates; where it is
not truncated, it has the map and all the candidates. -/
structure Packed (budget : ContextBudget) (map : List Char) (candidates : List ContextSegment)
    (truncated : Bool) (pack : ContextPack) : Prop where
  rendered : pack.rendered = renderPack pack.repoMap pack.segments pack.truncated
  used : pack.usedChars = pack.rendered.length
  fits : pack.rendered.length ≤ budget.totalChars
  first : pack.segments <+: candidates
  whole : pack.truncated = false →
    truncated = false ∧ pack.repoMap = map ∧ pack.segments = candidates

lemma packed_assemble {diagnostics : RepositoryDiagnostics} {map : List Char}
    {candidates : List ContextSegment} {truncated : Bool}
    (h : assemble budget query diagnostics map candidates truncated = .ok pack) :
    Packed budget map candidates truncated pack := by
  simp only [assemble, except_bind_eq_ok] at h
  obtain ⟨_, -, h⟩ := h
  have hspec := @trimSegments_spec (fun segments truncated =>
    decide ((renderPack map segments truncated).length ≤ budget.totalChars)) candidates.reverse
    truncated
  rw [List.reverse_reverse] at hspec
  generalize trimSegments (fun segments truncated =>
    decide ((renderPack map segments truncated).length ≤ budget.totalChars)) candidates.reverse
    truncated = kept at h hspec
  by_cases hfits : (renderPack map kept.1 kept.2).length ≤ budget.totalChars
  · rw [if_pos hfits] at h
    rw [ContextPack.check_ok h]
    exact ⟨rfl, rfl, hfits, hspec.1, fun hclean => ⟨(hspec.2 hclean).1, rfl, (hspec.2 hclean).2⟩⟩
  · rw [if_neg hfits] at h
    by_cases hsmall : budget.totalChars < (renderPack [] [] true).length
    · rw [if_pos hsmall] at h
      cases h
    · rw [if_neg hsmall] at h
      rw [ContextPack.check_ok h]
      exact ⟨rfl, rfl, Nat.le_of_not_lt hsmall, List.nil_prefix, nofun⟩

/-- What a build was made from. -/
structure Built (digest : List Char → String) (budget : ContextBudget) (parser : PythonParser)
    (casefold : List Char → List Char) (scanner : RepositoryScanner) (view : WorkspaceView)
    (analysis : QueryAnalysis) (paths : List String) (pack : ContextPack)
    (snapshot : RepositorySnapshot) (pinned excerpts : List ContextSegment) (cut : Bool) : Prop where
  scanned : ∃ listing, view.iterFiles "." = some listing ∧
    scanSnapshot parser casefold digest scanner ⟨listing, view.readText⟩ = .ok snapshot
  excerpts_ok : segments casefold analysis budget.maxSegmentChars snapshot
    (rankFiles casefold analysis snapshot) = .ok (excerpts, cut)
  pinned_ok : pinnedSegments digest view budget.maxSegmentChars 0 paths = .ok pinned
  packed : Packed budget
    (repoMap snapshot.index (rankFiles casefold analysis snapshot) budget.mapChars).1
    (packCandidates pinned excerpts)
    ((repoMap snapshot.index (rankFiles casefold analysis snapshot) budget.mapChars).2 || cut ||
      pinned.any fun segment => pinnedTruncationNote.isSuffixOf segment.text) pack

lemma built_of_build (h : build digest budget parser casefold scanner escapes view query analysis
    pinnedPaths = .ok pack) : ∃ paths snapshot pinned excerpts cut,
      validatePinnedPaths escapes pinnedPaths [] = .ok paths ∧
      Built digest budget parser casefold scanner view analysis paths pack snapshot pinned excerpts
        cut := by
  simp only [build, except_bind_eq_ok, except_mapError_eq_ok] at h
  obtain ⟨_, -, paths, hpaths, h⟩ := h
  cases hlisting : view.iterFiles "." with
  | none =>
      rw [hlisting] at h
      cases h
  | some listing =>
      rw [hlisting] at h
      simp only [except_bind_eq_ok, except_mapError_eq_ok] at h
      obtain ⟨snapshot, hsnapshot, ⟨excerpts, cut⟩, hexcerpts, pinned, hpinned, h⟩ := h
      exact ⟨paths, snapshot, pinned, excerpts, cut, hpaths,
        ⟨listing, hlisting, hsnapshot⟩, hexcerpts, hpinned, packed_assemble h⟩

lemma length_validatePinnedPaths {paths seen found : List String}
    (h : validatePinnedPaths escapes paths seen = .ok found) :
    found.length ≤ seen.length + paths.length := by
  induction paths generalizing seen with
  | nil =>
      rw [validatePinnedPaths, Except.ok.injEq] at h
      rw [← h]
      exact Nat.le_refl _
  | cons raw rest ih =>
      rw [validatePinnedPaths] at h
      cases hnormal : normalizeWorkspaceRelativePath raw with
      | error e =>
          rw [hnormal] at h
          cases h
      | ok path =>
          rw [hnormal] at h
          have hlength := ih h
          by_cases hseen : path ∈ seen
          · rw [if_pos hseen] at hlength
            rw [List.length_cons]
            omega
          · rw [if_neg hseen, List.length_append, List.length_singleton] at hlength
            rw [List.length_cons]
            omega

/-- A built pack is rendered within the budget. Its segments are the first of the candidates: none
is dropped for one with a lower score, and no pinned one for an excerpt of the query. -/
theorem pack_within_budget (hpins : pinnedPaths.length ≤ 994000000)
    (h : build digest budget parser casefold scanner escapes view query analysis pinnedPaths =
      .ok pack) :
    pack.rendered.length ≤ budget.totalChars ∧ pack.usedChars = pack.rendered.length ∧
      pack.rendered = renderPack pack.repoMap pack.segments pack.truncated ∧
      ∃ paths snapshot pinned excerpts cut,
        Built digest budget parser casefold scanner view analysis paths pack snapshot pinned
          excerpts cut ∧
        (∀ a ∈ packCandidates pinned excerpts, ∀ b ∈ pack.segments, b.score < a.score →
          a ∈ pack.segments) ∧
        ∀ a ∈ pinned, ∀ b ∈ excerpts, b ∈ pack.segments → a ∈ pack.segments := by
  obtain ⟨paths, snapshot, pinned, excerpts, cut, hpaths, hbuilt⟩ := built_of_build h
  have hpacked := hbuilt.packed
  refine ⟨hpacked.fits, hpacked.used, hpacked.rendered, paths, snapshot, pinned, excerpts, cut,
    hbuilt, ?_, ?_⟩
  · intro a ha b hb hscore
    exact kept_of_score hpacked.first ha hb hscore
  · intro a ha b hb hkept
    have hcandidate : a ∈ packCandidates pinned excerpts :=
      (List.mem_insertionSort _).mpr (List.mem_append_left _ ha)
    have hlength := length_validatePinnedPaths hpaths
    have hhigh := (pinnedSegments_ok hbuilt.pinned_ok a ha).2
    have hlow := segments_score hbuilt.excerpts_ok b hb
    refine kept_of_score hpacked.first hcandidate hkept ?_
    simp only [pinnedBaseScore, List.length_nil, Nat.zero_add] at hhigh hlength
    omega

/-- The excerpts of a result from which nothing was left out: one for each window, as it is. -/
lemma shown_of_segments {limit : ℕ} {repository : Repository} {snapshot : RepositorySnapshot}
    {found : List ContextSegment}
    (h : scanSnapshot parser casefold digest scanner repository = .ok snapshot)
    (hfound : segments casefold analysis limit snapshot (rankFiles casefold analysis snapshot) =
      .ok (found, false)) :
    ∀ entry ∈ rankFiles casefold analysis snapshot, ∀ content,
      snapshot.contentByPath.lookup entry.file.path = some content →
      ∀ window ∈ (fileWindows casefold analysis snapshot.index entry.file.path
        (splitlines content)).1, ∃ segment ∈ found, segment.path = entry.file.path ∧
          segment.startLine = window.1 ∧ segment.endLine = window.2 ∧
          Whole (splitlines content) segment := by
  have hempty : Collected.Holds limit snapshot {} := ⟨by simp, nofun⟩
  obtain ⟨collected, hcollected, hholds, -, hshown⟩ := @Collected.files_ok casefold analysis limit
    snapshot {} (rankFiles casefold analysis snapshot) hempty fun entry hentry content hlookup =>
      ⟨ready_of_ranked h hentry hlookup, fun n hn =>
        ⟨(numbers_anchorsOf h hlookup n hn).1.1, (numbers_anchorsOf h hlookup n hn).2⟩⟩
  simp only [segments, hcollected, except_bind_eq_ok, Except.ok.injEq, Prod.mk.injEq] at hfound
  obtain ⟨_, rfl, rfl, hnone⟩ := hfound
  intro entry hentry content hlookup window hwindow
  obtain ⟨segment, hsegment, hpath, hfirst, hlast⟩ :=
    (hshown hnone entry hentry content hlookup).2 window hwindow
  obtain ⟨text, htext, -, hwhole⟩ := hholds.excerpts segment hsegment
  rw [hpath, hlookup, Option.some.injEq] at htext
  subst htext
  exact ⟨segment, (List.mem_insertionSort _).mpr hsegment, hpath, hfirst, hlast, hwhole hnone⟩

/-- A pack that is not truncated has every file with its symbols in the map, every pinned file
with all of its text, and a segment for every window of every ranked file, unless the file is
pinned. -/
theorem untruncated_pack_complete (hclean : pack.truncated = false)
    (h : build digest budget parser casefold scanner escapes view query analysis pinnedPaths =
      .ok pack) :
    ∃ paths snapshot listing, validatePinnedPaths escapes pinnedPaths [] = .ok paths ∧
      view.iterFiles "." = some listing ∧
      scanSnapshot parser casefold digest scanner ⟨listing, view.readText⟩ = .ok snapshot ∧
      (∃ order : List String, pack.repoMap = joinLines (order.map (mapEntry snapshot.index)) ∧
        ∀ path, path ∈ order ↔ path ∈ snapshot.index.files.map (·.path)) ∧
      (∀ path ∈ paths, ∀ content, view.isDir path = false → view.isFile path = true →
        view.readText path = some content → nul ∉ content →
        ∃ segment ∈ pack.segments, segment.path = path ∧ segment.text = content) ∧
      ∀ entry ∈ rankFiles casefold analysis snapshot, ∀ content,
        snapshot.contentByPath.lookup entry.file.path = some content →
        ∀ window ∈ (fileWindows casefold analysis snapshot.index entry.file.path
          (splitlines content)).1, entry.file.path ∉ paths →
          ∃ segment ∈ pack.segments, segment.path = entry.file.path ∧
            segment.startLine = window.1 ∧ segment.endLine = window.2 ∧
            Whole (splitlines content) segment := by
  obtain ⟨paths, snapshot, pinned, excerpts, cut, hpaths, hbuilt⟩ := built_of_build h
  obtain ⟨listing, hlisting, hscan⟩ := hbuilt.scanned
  obtain ⟨hnone, hmap, hsegments⟩ := hbuilt.packed.whole hclean
  rw [Bool.or_eq_false_iff, Bool.or_eq_false_iff, List.any_eq_false] at hnone
  obtain ⟨⟨hwholeMap, rfl⟩, hpinned⟩ := hnone
  refine ⟨paths, snapshot, listing, hpaths, hlisting, hscan,
    ⟨mapPaths snapshot.index (rankFiles casefold analysis snapshot), ?_, ?_⟩, ?_, ?_⟩
  · exact hmap.trans (repoMap_complete hwholeMap)
  · exact mapPaths_iff fun entry hentry => (mem_rankFiles hentry).1
  · intro path hpath content hdir hfile hread hnul
    obtain ⟨score, built, hsegment, hmem⟩ := pinnedSegments_mem hbuilt.pinned_ok hpath
    obtain ⟨segment, rfl, hsame, hwhole⟩ := pinnedFile_whole hdir hfile hread hnul hsegment
    refine ⟨segment, ?_, hsame, hwhole (hpinned segment (hmem segment rfl))⟩
    rw [hsegments]
    exact (List.mem_insertionSort _).mpr (List.mem_append_left _ (hmem segment rfl))
  · intro entry hentry content hlookup window hwindow hfree
    obtain ⟨segment, hsegment, hpath, hplace⟩ :=
      shown_of_segments hscan hbuilt.excerpts_ok entry hentry content hlookup window hwindow
    refine ⟨segment, ?_, hpath, hplace⟩
    rw [hsegments]
    refine (List.mem_insertionSort _).mpr (List.mem_append_right _ (List.mem_filter.mpr
      ⟨hsegment, ?_⟩))
    rw [decide_eq_true_eq, hpath]
    intro hmem
    obtain ⟨pin, hpin, hsame⟩ := List.mem_map.mp hmem
    exact hfree (hsame ▸ (pinnedSegments_ok hbuilt.pinned_ok pin hpin).1)

end Packs

section Sample

/-- A workspace with a Python file and a note. -/
def sampleView : WorkspaceView where
  isDir _ := false
  isFile path := path = "a.py" || path = "b.txt"
  readText path :=
    if path = "a.py" then some sampleText
    else if path = "b.txt" then some "note".toList
    else none
  iterFiles path := if path = "." then some ["b.txt", "a.py"] else none

lemma build_sample : ∃ pack, build sampleDigest {} sampleParser sampleCasefold {} id sampleView
    "F".toList sampleQuery ["b.txt"] = .ok pack ∧ pack.truncated = false ∧
      pack.segments.length = 2 := by
  have hrun : ((build sampleDigest {} sampleParser sampleCasefold {} id sampleView "F".toList
      sampleQuery ["b.txt"]).toOption.map fun pack => (pack.truncated, pack.segments.length)) =
        some (false, 2) := by decide +kernel
  obtain ⟨pack, hpack, hfacts⟩ := Option.map_eq_some_iff.mp hrun
  rw [Prod.mk.injEq] at hfacts
  cases hbuild : build sampleDigest {} sampleParser sampleCasefold {} id sampleView "F".toList
      sampleQuery ["b.txt"] with
  | error e =>
      rw [hbuild] at hpack
      cases hpack
  | ok built =>
      rw [hbuild] at hpack
      cases hpack
      exact ⟨pack, rfl, hfacts⟩

theorem pack_within_budget_sample : ∃ pack, build sampleDigest {} sampleParser sampleCasefold {} id
    sampleView "F".toList sampleQuery ["b.txt"] = .ok pack ∧ pack.segments.length = 2 ∧
      pack.rendered.length ≤ 24000 := by
  obtain ⟨pack, hpack, -, htwo⟩ := build_sample
  exact ⟨pack, hpack, htwo, (pack_within_budget (by decide) hpack).1⟩

theorem untruncated_pack_complete_sample : ∃ pack, build sampleDigest {} sampleParser
    sampleCasefold {} id sampleView "F".toList sampleQuery ["b.txt"] = .ok pack ∧
    ∃ segment ∈ pack.segments, segment.path = "b.txt" ∧ segment.text = "note".toList := by
  obtain ⟨pack, hpack, hclean, -⟩ := build_sample
  obtain ⟨paths, -, -, hpaths, -, -, -, hpinned, -⟩ := untruncated_pack_complete hclean hpack
  have hnormal : validatePinnedPaths id ["b.txt"] [] = .ok ["b.txt"] := rfl
  rw [hnormal, Except.ok.injEq] at hpaths
  subst hpaths
  exact ⟨pack, hpack, hpinned "b.txt" List.mem_cons_self "note".toList rfl rfl rfl (by decide)⟩

end Sample

end Imece.ContextRuntime
