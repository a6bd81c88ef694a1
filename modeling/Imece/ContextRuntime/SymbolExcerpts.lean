import Imece.ContextRuntime.Excerpts

/-!
# Excerpts around symbols

From a scan of a repository to the segments of a query: what every segment holds, and where the
symbols are that the query names.
-/
namespace Imece.ContextRuntime

open Lib Workspace

section Ranked

variable {casefold : List Char → List Char} {analysis : QueryAnalysis}
  {snapshot : RepositorySnapshot} {file : RepositoryFile} {entry : RankedFile}

lemma rankFile_file (h : rankFile casefold analysis snapshot file = some entry) :
    entry.file = file ∧ "" ∉ entry.reasons := by
  simp only [rankFile] at h
  by_cases hnone : (fileReasons casefold analysis snapshot file).foldl
      (fun tier reason => max tier reason.1) 0 = 0
  · rw [if_pos hnone] at h
    cases h
  · rw [if_neg hnone, Option.some.injEq] at h
    subst h
    refine ⟨rfl, ?_⟩
    intro hempty
    obtain ⟨reason, hreason, hname⟩ := List.mem_map.mp hempty
    simp only [fileReasons, List.mem_append] at hreason
    rcases hreason with (((hreason | hreason) | hreason) | hreason) | hreason
    all_goals
      split_ifs at hreason
      · rw [List.mem_singleton.mp hreason] at hname
        revert hname
        decide
      · cases hreason

theorem mem_rankFiles (h : entry ∈ rankFiles casefold analysis snapshot) :
    entry.file ∈ snapshot.index.files ∧ "" ∉ entry.reasons := by
  rw [rankFiles, List.mem_insertionSort, List.mem_filterMap] at h
  obtain ⟨file, hfile, hentry⟩ := h
  obtain ⟨rfl, hreasons⟩ := rankFile_file hentry
  exact ⟨hfile, hreasons⟩

lemma le_foldl_max {reasons : List (ℕ × String)} {reason : ℕ × String} (tier : ℕ)
    (h : reason ∈ reasons) :
    reason.1 ≤ reasons.foldl (fun tier reason => max tier reason.1) tier := by
  have hgrow : ∀ (reasons : List (ℕ × String)) (tier : ℕ),
      tier ≤ reasons.foldl (fun tier reason => max tier reason.1) tier := by
    intro reasons
    induction reasons with
    | nil => exact fun tier => Nat.le_refl tier
    | cons first rest ih => exact fun tier => Nat.le_trans (Nat.le_max_left _ _) (ih _)
  induction reasons generalizing tier with
  | nil => cases h
  | cons first rest ih =>
      rcases List.mem_cons.mp h with rfl | h
      · exact Nat.le_trans (Nat.le_max_right _ _) (hgrow rest _)
      · exact ih _ h

/-- A file with a symbol that the query names is ranked. -/
theorem ranked_of_referenced (hfile : file ∈ snapshot.index.files) {found : RepositorySymbol}
    (hfound : found ∈ snapshot.index.symbols) (hpath : found.path = file.path)
    (hnamed : referenced casefold analysis found = true) :
    ∃ entry ∈ rankFiles casefold analysis snapshot, entry.file = file := by
  have hany : ((snapshot.index.symbols.filter fun symbol => symbol.path = file.path).any
      (referenced casefold analysis)) = true := by
    rw [List.any_eq_true]
    exact ⟨found, List.mem_filter.mpr ⟨hfound, by simpa using hpath⟩, hnamed⟩
  have hreason : (4, "symbol") ∈ fileReasons casefold analysis snapshot file := by
    simp [fileReasons, hany]
  have htier := le_foldl_max 0 hreason
  have hranked : ∃ entry, rankFile casefold analysis snapshot file = some entry := by
    simp only [rankFile]
    rw [if_neg (by omega)]
    exact ⟨_, rfl⟩
  obtain ⟨entry, hentry⟩ := hranked
  refine ⟨entry, ?_, (rankFile_file hentry).1⟩
  rw [rankFiles, List.mem_insertionSort, List.mem_filterMap]
  exact ⟨file, hfile, hentry⟩

end Ranked

section Collecting

variable {casefold : List Char → List Char} {analysis : QueryAnalysis} {limit : ℕ}
  {snapshot : RepositorySnapshot} {entry : RankedFile} {content : List Char}
  {collected next : Collected} {window : ℕ × ℕ}

/-- The segments so far, and that only a truncated result stops early. -/
structure Collected.Holds (limit : ℕ) (snapshot : RepositorySnapshot) (collected : Collected) :
    Prop where
  excerpts : ∀ segment ∈ collected.segments, ∃ content,
    snapshot.contentByPath.lookup segment.path = some content ∧
      Excerpt limit (splitlines content) segment ∧
      (collected.truncated = false → Whole (splitlines content) segment)
  full : collected.full = true → collected.truncated = true

/-- As long as nothing is left out, the segments only grow. -/
def Collected.Keeps (collected next : Collected) : Prop :=
  next.truncated = false → collected.truncated = false ∧ collected.segments ⊆ next.segments

/-- A window has its segment. -/
def Shown (entry : RankedFile) (collected : Collected) (window : ℕ × ℕ) : Prop :=
  ∃ segment ∈ collected.segments, segment.path = entry.file.path ∧
    segment.startLine = window.1 ∧ segment.endLine = window.2

/-- A ranked file whose segments pass their checks. -/
structure Ready (snapshot : RepositorySnapshot) (entry : RankedFile) (content : List Char) :
    Prop where
  found : snapshot.contentByPath.lookup entry.file.path = some content
  path : repositoryPath entry.file.path "ContextSegment.path" = .ok ()
  sha : sha256 entry.file.contentSha256 "ContextSegment.content_sha256" = .ok ()
  text : nul ∉ content
  reasons : "" ∉ entry.reasons

lemma Collected.Keeps.refl (collected : Collected) : collected.Keeps collected :=
  fun h => ⟨h, List.Subset.refl _⟩

lemma Collected.Keeps.trans {first second third : Collected} (h : first.Keeps second)
    (h' : second.Keeps third) : first.Keeps third := by
  intro hthird
  obtain ⟨hsecond, hsub⟩ := h' hthird
  obtain ⟨hfirst, hsub'⟩ := h hsecond
  exact ⟨hfirst, List.Subset.trans hsub' hsub⟩

lemma Collected.Keeps.shown (h : collected.Keeps next) (hnext : next.truncated = false)
    (hshown : Shown entry collected window) : Shown entry next window := by
  obtain ⟨segment, hsegment, hplace⟩ := hshown
  exact ⟨segment, (h hnext).2 hsegment, hplace⟩

/-- A turn of the loop over the windows. -/
lemma Collected.window_ok (h : collected.Holds limit snapshot) (hready : Ready snapshot entry content)
    (hwindow : Proper (splitlines content).length window) :
    ∃ next, collected.window limit entry (splitlines content) window = .ok next ∧
      next.Holds limit snapshot ∧ collected.Keeps next ∧
      (next.truncated = false → Shown entry next window) := by
  rw [Collected.window]
  by_cases hfull : collected.full = true
  · rw [if_pos hfull]
    refine ⟨collected, rfl, h, Keeps.refl _, fun hnone => ?_⟩
    rw [h.full hfull] at hnone
    cases hnone
  · rw [if_neg hfull]
    by_cases hmany : maxCandidateSegments ≤ collected.segments.length
    · rw [if_pos hmany]
      refine ⟨_, rfl, ⟨?_, fun _ => rfl⟩, nofun, nofun⟩
      intro segment hsegment
      obtain ⟨text, htext, hexcerpt, -⟩ := h.excerpts segment hsegment
      exact ⟨text, htext, hexcerpt, nofun⟩
    · rw [if_neg hmany]
      have hplain := plain_splitlines content
      have hcheck := @check_windowSegment limit entry _ window hplain hwindow hready.path hready.sha
        (fun line hline hnul => hready.text (mem_splitlines hline hnul).1) hready.reasons
      have hexcerpt := @excerpt_windowSegment limit entry _ window hplain hwindow
      have hfound : snapshot.contentByPath.lookup
          (windowSegment limit entry (splitlines content) window).1.path = some content := by
        rw [path_windowSegment]
        exact hready.found
      have hwhole := @windowSegment_whole limit entry (splitlines content) window
      have hpath := @path_windowSegment limit entry (splitlines content) window
      generalize windowSegment limit entry (splitlines content) window = cut at *
      simp only [hcheck, bind, Except.bind]
      refine ⟨_, rfl, ⟨?_, fun hnow => absurd hnow hfull⟩, ?_, ?_⟩
      · intro segment hsegment
        rcases List.mem_append.mp hsegment with hsegment | hsegment
        · obtain ⟨text, htext, hold, hclean⟩ := h.excerpts segment hsegment
          exact ⟨text, htext, hold, fun hnone => hclean (Bool.or_eq_false_iff.mp hnone).1⟩
        · rw [List.mem_singleton.mp hsegment]
          exact ⟨content, hfound, hexcerpt,
            fun hnone => (hwhole (Bool.or_eq_false_iff.mp hnone).2).1⟩
      · intro hnone
        exact ⟨(Bool.or_eq_false_iff.mp hnone).1, List.subset_append_left _ _⟩
      · intro hnone
        obtain ⟨-, hfirst, hlast⟩ := hwhole (Bool.or_eq_false_iff.mp hnone).2
        exact ⟨cut.1, List.mem_append_right _ List.mem_cons_self, hpath, hfirst, hlast⟩

/-- The loop over the windows of a file. -/
lemma Collected.windows_ok {windows : List (ℕ × ℕ)} (h : collected.Holds limit snapshot)
    (hready : Ready snapshot entry content)
    (hwindows : ∀ window ∈ windows, Proper (splitlines content).length window) :
    ∃ next, windows.foldlM (Collected.window limit entry (splitlines content)) collected =
        .ok next ∧ next.Holds limit snapshot ∧ collected.Keeps next ∧
      (next.truncated = false → ∀ window ∈ windows, Shown entry next window) := by
  induction windows generalizing collected with
  | nil => exact ⟨collected, rfl, h, Keeps.refl _, by simp⟩
  | cons window rest ih =>
      obtain ⟨mid, hmid, hholds, hkeeps, hshown⟩ :=
        Collected.window_ok h hready (hwindows window List.mem_cons_self)
      obtain ⟨next, hnext, hholds', hkeeps', hshown'⟩ := ih hholds fun other hother =>
        hwindows other (List.mem_cons_of_mem _ hother)
      refine ⟨next, ?_, hholds', hkeeps.trans hkeeps', ?_⟩
      · rw [List.foldlM_cons, hmid]
        exact hnext
      · intro hnone
        refine List.forall_mem_cons.mpr ⟨?_, hshown' hnone⟩
        exact hkeeps'.shown hnone (hshown (hkeeps' hnone).1)

/-- A turn of the loop over the ranked files. -/
lemma Collected.file_ok (h : collected.Holds limit snapshot)
    (hready : ∀ content, snapshot.contentByPath.lookup entry.file.path = some content →
      Ready snapshot entry content ∧
        Numbers (splitlines content).length
          (anchorsOf casefold analysis snapshot.index entry.file.path)) :
    ∃ next, collected.file casefold analysis limit snapshot entry = .ok next ∧
      next.Holds limit snapshot ∧ collected.Keeps next ∧
      (next.truncated = false → ∀ content,
        snapshot.contentByPath.lookup entry.file.path = some content →
        (fileWindows casefold analysis snapshot.index entry.file.path (splitlines content)).2 =
          false ∧
        ∀ window ∈ (fileWindows casefold analysis snapshot.index entry.file.path
          (splitlines content)).1, Shown entry next window) := by
  rw [Collected.file]
  by_cases hfull : collected.full = true
  · rw [if_pos hfull]
    refine ⟨collected, rfl, h, Keeps.refl _, fun hnone => ?_⟩
    rw [h.full hfull] at hnone
    cases hnone
  · rw [if_neg hfull]
    cases hlookup : snapshot.contentByPath.lookup entry.file.path with
    | none => exact ⟨collected, rfl, h, Keeps.refl _, nofun⟩
    | some content =>
        obtain ⟨hentry, hanchors⟩ := hready content hlookup
        have hproper : ∀ window ∈ (fileWindows casefold analysis snapshot.index entry.file.path
            (splitlines content)).1, Proper (splitlines content).length window := by
          intro window hwindow
          refine proper_lineWindow ?_ window (mem_prioritizedWindows hwindow)
          intro line hline
          rcases List.mem_append.mp hline with hline | hline
          · exact hanchors line hline
          · exact numbers_matchedLines analysis line hline
        have hstart : Collected.Holds limit snapshot
            { collected with truncated := collected.truncated || (fileWindows casefold analysis
              snapshot.index entry.file.path (splitlines content)).2 } := by
          refine ⟨?_, fun hnow => absurd hnow hfull⟩
          intro segment hsegment
          obtain ⟨text, htext, hold, hclean⟩ := h.excerpts segment hsegment
          exact ⟨text, htext, hold, fun hnone => hclean (Bool.or_eq_false_iff.mp hnone).1⟩
        obtain ⟨next, hnext, hholds, hkeeps, hshown⟩ := Collected.windows_ok hstart hentry hproper
        refine ⟨next, hnext, hholds, ?_, ?_⟩
        · intro hnone
          obtain ⟨hbefore, hsub⟩ := hkeeps hnone
          exact ⟨(Bool.or_eq_false_iff.mp hbefore).1, hsub⟩
        · intro hnone text htext
          rw [Option.some.injEq] at htext
          subst htext
          exact ⟨(Bool.or_eq_false_iff.mp (hkeeps hnone).1).2, hshown hnone⟩

/-- The loop over the ranked files. -/
lemma Collected.files_ok {ranked : List RankedFile} (h : collected.Holds limit snapshot)
    (hready : ∀ entry ∈ ranked, ∀ content,
      snapshot.contentByPath.lookup entry.file.path = some content →
      Ready snapshot entry content ∧
        Numbers (splitlines content).length
          (anchorsOf casefold analysis snapshot.index entry.file.path)) :
    ∃ next, ranked.foldlM (Collected.file casefold analysis limit snapshot) collected = .ok next ∧
      next.Holds limit snapshot ∧ collected.Keeps next ∧
      (next.truncated = false → ∀ entry ∈ ranked, ∀ content,
        snapshot.contentByPath.lookup entry.file.path = some content →
        (fileWindows casefold analysis snapshot.index entry.file.path (splitlines content)).2 =
          false ∧
        ∀ window ∈ (fileWindows casefold analysis snapshot.index entry.file.path
          (splitlines content)).1, Shown entry next window) := by
  induction ranked generalizing collected with
  | nil => exact ⟨collected, rfl, h, Keeps.refl _, by simp⟩
  | cons entry rest ih =>
      obtain ⟨mid, hmid, hholds, hkeeps, hshown⟩ :=
        Collected.file_ok h (hready entry List.mem_cons_self)
      obtain ⟨next, hnext, hholds', hkeeps', hshown'⟩ := ih hholds fun other hother =>
        hready other (List.mem_cons_of_mem _ hother)
      refine ⟨next, ?_, hholds', hkeeps.trans hkeeps', ?_⟩
      · rw [List.foldlM_cons, hmid]
        exact hnext
      · intro hnone
        refine List.forall_mem_cons.mpr ⟨?_, hshown' hnone⟩
        intro content hcontent
        obtain ⟨hall, hwindows⟩ := hshown (hkeeps' hnone).1 content hcontent
        exact ⟨hall, fun window hwindow => hkeeps'.shown hnone (hwindows window hwindow)⟩

end Collecting

section Snapshots

variable {parser : PythonParser} {casefold : List Char → List Char} {digest : List Char → String}
  {scanner : RepositoryScanner} {repository : Repository} {snapshot : RepositorySnapshot}
  {analysis : QueryAnalysis} {path : String} {content : List Char}

lemma lookup_of_mem {contents : List (String × List Char)} (h : (contents.map (·.1)).Nodup)
    (hmem : (path, content) ∈ contents) : contents.lookup path = some content := by
  induction contents with
  | nil => cases hmem
  | cons entry rest ih =>
      obtain ⟨hfresh, hrest⟩ := List.nodup_cons.mp h
      rcases List.mem_cons.mp hmem with rfl | hmem
      · exact List.lookup_cons_self
      · have hne : path ≠ entry.1 := by
          rintro rfl
          exact hfresh (List.mem_map.mpr ⟨_, hmem, rfl⟩)
        rw [List.lookup_cons, beq_false_of_ne hne]
        exact ih hrest hmem

lemma mem_of_lookup {contents : List (String × List Char)}
    (h : contents.lookup path = some content) : (path, content) ∈ contents := by
  obtain ⟨before, after, heq, -⟩ := List.lookup_eq_some_iff.mp h
  rw [heq]
  simp

/-- The anchors of a scanned text are among the lines that are cut out of it. -/
lemma numbers_anchorsOf (h : scanSnapshot parser casefold digest scanner repository = .ok snapshot)
    (hfound : snapshot.contentByPath.lookup path = some content) :
    ∀ n ∈ anchorsOf casefold analysis snapshot.index path,
      (1 ≤ n ∧ n ≤ (sourceLines content).length) ∧ n ≤ (splitlines content).length := by
  obtain ⟨hnodup, files, hfiles, hscanned⟩ := scanned_scanSnapshot h
  intro n hn
  obtain ⟨found, hmem, rfl⟩ := List.mem_map.mp hn
  obtain ⟨hmem, -⟩ := List.mem_filter.mp hmem
  obtain ⟨hmem, hpath⟩ := List.mem_filter.mp hmem
  obtain ⟨text, htext, hline⟩ := hscanned.symbols_of found hmem
  rw [decide_eq_true_eq] at hpath
  rw [hpath] at htext
  have hsame := lookup_of_mem hnodup htext
  rw [hfound, Option.some.injEq] at hsame
  subst hsame
  have hlines := (length_flatMap_splitlines fun line hline =>
    @sourceLine_of_mem_sourceLines content line hline).1
  rw [← splitlines_sourceLines] at hlines
  exact ⟨hline.line, Nat.le_trans hline.line.2 hlines⟩

lemma ready_of_ranked (h : scanSnapshot parser casefold digest scanner repository = .ok snapshot)
    {entry : RankedFile} (hentry : entry ∈ rankFiles casefold analysis snapshot)
    (hfound : snapshot.contentByPath.lookup entry.file.path = some content) :
    Ready snapshot entry content := by
  obtain ⟨-, files, hfiles, hscanned⟩ := scanned_scanSnapshot h
  obtain ⟨hfile, hreasons⟩ := mem_rankFiles hentry
  obtain ⟨hpath, hsha⟩ := hscanned.files_ok entry.file ((hfiles _).mp hfile)
  exact ⟨hfound, hpath, hsha, hscanned.texts_ok _ (mem_of_lookup hfound), hreasons⟩

/-- Every segment of a scanned repository has the text of the lines it names up to where it is
cut. Around a symbol that the query names, the windows have the line on which the parser says it
begins, when at most three separators that the parser does not count stand up to its end. -/
theorem symbol_excerpts (limit : ℕ)
    (h : scanSnapshot parser casefold digest scanner repository = .ok snapshot) :
    ∃ found truncated,
      segments casefold analysis limit snapshot (rankFiles casefold analysis snapshot) =
        .ok (found, truncated) ∧
      (∀ segment ∈ found, ∃ content,
        snapshot.contentByPath.lookup segment.path = some content ∧
          Excerpt limit (splitlines content) segment ∧
          (truncated = false → Whole (splitlines content) segment)) ∧
      ∀ path content symbols, (path, content) ∈ snapshot.contentByPath →
        detectLanguage casefold path = "python" → extract parser path content = .ok symbols →
        ∀ symbol ∈ symbols, referenced casefold analysis symbol = true →
          otherEnds ((sourceLines content).take symbol.startLine).flatten ≤ 3 →
          Anchored content (anchorsOf casefold analysis snapshot.index path)
            (fileWindows casefold analysis snapshot.index path (splitlines content)).1
            symbol.startLine ∧
          (truncated = false → ∃ segment ∈ found, segment.path = path ∧
            Covers content symbol.startLine (segment.startLine, segment.endLine)) := by
  obtain ⟨hnodup, files, hfiles, hscanned⟩ := scanned_scanSnapshot h
  have hnumbers : ∀ {path content}, snapshot.contentByPath.lookup path = some content →
      Numbers (splitlines content).length (anchorsOf casefold analysis snapshot.index path) := by
    intro path content hfound n hn
    have := numbers_anchorsOf h hfound n hn
    exact ⟨this.1.1, this.2⟩
  have hempty : Collected.Holds limit snapshot {} := ⟨by simp, nofun⟩
  obtain ⟨collected, hcollected, hholds, -, hshown⟩ := @Collected.files_ok casefold analysis limit
    snapshot {} (rankFiles casefold analysis snapshot) hempty
    fun entry hentry content hfound => ⟨ready_of_ranked h hentry hfound, hnumbers hfound⟩
  refine ⟨collected.segments.insertionSort fun a b => segmentLe a b = true, collected.truncated,
    ?_, ?_, ?_⟩
  · rw [segments, hcollected]
    rfl
  · intro segment hsegment
    exact hholds.excerpts segment ((List.mem_insertionSort _).mp hsegment)
  · intro path content symbols hmem hpython hextract symbol hsymbol hnamed hothers
    have hfound := lookup_of_mem hnodup hmem
    have hline := symbolOf_extract hextract symbol hsymbol
    have hindex := hscanned.extracted _ hmem hpython symbols hextract symbol hsymbol
    have hanchor : symbol.startLine ∈ anchorsOf casefold analysis snapshot.index path := by
      refine List.mem_map.mpr ⟨symbol, List.mem_filter.mpr ⟨?_, hnamed⟩, rfl⟩
      exact List.mem_filter.mpr ⟨hindex, by simpa using hline.path_eq⟩
    have hanchored := anchored_fileWindows (hnumbers hfound) hanchor hline.line hothers
    refine ⟨hanchored, ?_⟩
    intro hnone
    have hpath : path ∈ files.map (·.path) := by
      rw [← hscanned.paths_eq]
      exact List.mem_map_of_mem hmem
    obtain ⟨file, hfile, rfl⟩ := List.mem_map.mp hpath
    obtain ⟨entry, hentry, rfl⟩ := ranked_of_referenced ((hfiles file).mpr hfile) hindex
      hline.path_eq hnamed
    obtain ⟨hall, hwindows⟩ := hshown hnone entry hentry content hfound
    obtain ⟨window, hwindow, hwithin⟩ := held_fileWindows (hnumbers hfound) hanchor hall
    obtain ⟨segment, hsegment, hsame, hfirst, hlast⟩ := hwindows window hwindow
    refine ⟨segment, (List.mem_insertionSort _).mpr hsegment, hsame, ?_⟩
    rw [hfirst, hlast]
    exact hanchored.covers window hwindow hwithin

end Snapshots

section Sample

def sampleText : List Char := "def F(): pass\n".toList

/-- A form feed stands before the definition, on the parser's first line. -/
def fedText : List Char := "\x0cdef F(): pass\n".toList

def sampleParser : PythonParser where
  parse content :=
    if content = sampleText ∨ content = fedText then .ok [.functionDef "F" 1 1]
    else .error .syntaxError
  placed := by
    intro content body h stmt hstmt
    by_cases hcontent : content = sampleText ∨ content = fedText
    · rw [if_pos hcontent, Except.ok.injEq] at h
      subst h
      rw [List.mem_singleton.mp hstmt]
      rcases hcontent with rfl | rfl
      · exact .functionDef (by decide) (by decide)
      · exact .functionDef (by decide) (by decide)
    · rw [if_neg hcontent] at h
      cases h

def sampleCasefold (text : List Char) : List Char := text.map Char.toLower

def sampleDigest (_ : List Char) : String := String.ofList (List.replicate 64 'a')

def sampleRepository (text : List Char) : Repository := ⟨["a.py"], fun _ => some text⟩

/-- The query `F`. -/
def sampleQuery : QueryAnalysis := ⟨["f".toList], [], ["f".toList], by decide⟩

/-- The scan of a file of so many characters and lines that defines `F` on the parser's first
line. -/
def sampleSnapshot (text : List Char) (chars lines : ℕ) : RepositorySnapshot where
  index := ⟨[⟨"a.py", "python", chars, lines, sampleDigest []⟩],
    [⟨"a.py", "F", "F", "function", 1, 1⟩], { filesConsidered := 1, symbolsFound := 1 },
    List.nodup_singleton _⟩
  contentByPath := [("a.py", text)]

lemma scan_fed :
    scanSnapshot sampleParser sampleCasefold sampleDigest {} (sampleRepository fedText) =
      .ok (sampleSnapshot fedText 15 2) := by
  rfl

theorem symbol_excerpts_sample : ∃ found,
    segments sampleCasefold sampleQuery 6000 (sampleSnapshot fedText 15 2)
      (rankFiles sampleCasefold sampleQuery (sampleSnapshot fedText 15 2)) = .ok (found, false) ∧
    ∃ segment ∈ found, segment.path = "a.py" ∧ segment.text = "\ndef F(): pass".toList ∧
      Covers fedText 1 (segment.startLine, segment.endLine) := by
  obtain ⟨found, truncated, hsegments, -, hsymbols⟩ :=
    @symbol_excerpts _ _ _ _ _ _ sampleQuery 6000 scan_fed
  have hclean : segments sampleCasefold sampleQuery 6000 (sampleSnapshot fedText 15 2)
      (rankFiles sampleCasefold sampleQuery (sampleSnapshot fedText 15 2)) =
        .ok ([⟨"a.py", 1, 2, "\ndef F(): pass".toList, 4000002, ["symbol", "content"],
          sampleDigest []⟩], false) := rfl
  rw [hclean, Except.ok.injEq, Prod.mk.injEq] at hsegments
  obtain ⟨rfl, rfl⟩ := hsegments
  obtain ⟨segment, hsegment, hpath, hcovers⟩ :=
    (hsymbols "a.py" fedText [⟨"a.py", "F", "F", "function", 1, 1⟩] (by decide) (by decide)
      rfl _ List.mem_cons_self (by decide) (by decide)).2 rfl
  obtain rfl := List.mem_singleton.mp hsegment
  exact ⟨_, hclean, _, List.mem_cons_self, rfl, rfl, hcovers⟩

lemma scan_sample :
    scanSnapshot sampleParser sampleCasefold sampleDigest {} (sampleRepository sampleText) =
      .ok (sampleSnapshot sampleText 14 1) := by
  rfl

/-- A segment of at most four characters names the line it is cut in. -/
theorem cut_segment_not_whole :
    ¬ ∀ (parser : PythonParser) (casefold : List Char → List Char) (digest : List Char → String)
      (scanner : RepositoryScanner) (repository : Repository) (snapshot : RepositorySnapshot)
      (analysis : QueryAnalysis) (limit : ℕ) (found : List ContextSegment) (truncated : Bool),
      scanSnapshot parser casefold digest scanner repository = .ok snapshot →
      segments casefold analysis limit snapshot (rankFiles casefold analysis snapshot) =
        .ok (found, truncated) →
      ∀ segment ∈ found, ∀ content, snapshot.contentByPath.lookup segment.path = some content →
        Whole (splitlines content) segment := by
  intro h
  have hsegments : segments sampleCasefold sampleQuery 4 (sampleSnapshot sampleText 14 1)
      (rankFiles sampleCasefold sampleQuery (sampleSnapshot sampleText 14 1)) =
        .ok ([⟨"a.py", 1, 1, "def ".toList, 4000002, ["symbol", "content"], sampleDigest []⟩],
          true) := by
    rfl
  have hwhole := h _ _ _ _ _ _ _ _ _ _ scan_sample hsegments _ List.mem_cons_self sampleText rfl
  revert hwhole
  rw [Whole]
  decide

end Sample

end Imece.ContextRuntime
