import Imece.ContextRuntime.Models
import Imece.Lib.SourceLines
import Mathlib.Data.List.Sort

/-!
# Scanning a repository

The files of a workspace with their texts, and the symbols of those that are Python: the classes
and functions of a module and the methods of its classes, each with the lines of the parser.
-/
namespace Imece.ContextRuntime

open Lib Workspace

/-- A statement of a module, as far as the extractor reads it. -/
inductive Stmt where
  | classDef (name : String) (lineno endLineno : ℕ) (body : List Stmt)
  | functionDef (name : String) (lineno endLineno : ℕ)
  | asyncFunctionDef (name : String) (lineno endLineno : ℕ)
  | other

/-- The line numbers of a statement and of those in it number the given lines. -/
inductive Stmt.Placed (lines : ℕ) : Stmt → Prop where
  | classDef {name : String} {lineno endLineno : ℕ} {body : List Stmt} (first : 1 ≤ lineno)
      (last : lineno ≤ lines) (children : ∀ child ∈ body, Stmt.Placed lines child) :
      Stmt.Placed lines (.classDef name lineno endLineno body)
  | functionDef {name : String} {lineno endLineno : ℕ} (first : 1 ≤ lineno)
      (last : lineno ≤ lines) : Stmt.Placed lines (.functionDef name lineno endLineno)
  | asyncFunctionDef {name : String} {lineno endLineno : ℕ} (first : 1 ≤ lineno)
      (last : lineno ≤ lines) : Stmt.Placed lines (.asyncFunctionDef name lineno endLineno)
  | other : Stmt.Placed lines .other

/-- How the symbols of a text can fail: a `SyntaxError`, another exception of the parser, or a
symbol that fails its checks. -/
inductive ExtractError where
  | syntaxError
  | raised
  | validation (error : ContextValidationError)
deriving DecidableEq, Repr

/-- `ast.parse`: its line numbers count `\n`, `\r` and `\r\n`. -/
structure PythonParser where
  parse : List Char → Except ExtractError (List Stmt)
  placed : ∀ content body, parse content = .ok body →
    ∀ stmt ∈ body, stmt.Placed (sourceLines content).length

section Symbols

variable (path : String)

/-- `_symbol` -/
def symbol (name qualifiedName kind : String) (lineno endLineno : ℕ) :
    Except ExtractError RepositorySymbol :=
  (RepositorySymbol.check ⟨path, name, qualifiedName, kind, lineno, endLineno⟩).mapError .validation

/-- The symbols of a statement in the body of a class. -/
def childSymbols (className : String) : Stmt → Except ExtractError (List RepositorySymbol)
  | .functionDef name lineno endLineno => do
      let method ← symbol path name (className ++ "." ++ name) "method" lineno endLineno
      .ok [method]
  | .asyncFunctionDef name lineno endLineno => do
      let method ← symbol path name (className ++ "." ++ name) "async_method" lineno endLineno
      .ok [method]
  | _ => .ok []

/-- The symbols of a statement of the module. -/
def nodeSymbols : Stmt → Except ExtractError (List RepositorySymbol)
  | .classDef name lineno endLineno body => do
      let own ← symbol path name name "class" lineno endLineno
      let methods ← body.mapM (childSymbols path name)
      .ok (own :: methods.flatten)
  | .functionDef name lineno endLineno => do
      let own ← symbol path name name "function" lineno endLineno
      .ok [own]
  | .asyncFunctionDef name lineno endLineno => do
      let own ← symbol path name name "async_function" lineno endLineno
      .ok [own]
  | .other => .ok []

end Symbols

/-- The order of `(path, start_line, qualified_name)`. -/
def symbolLe (a b : RepositorySymbol) : Bool :=
  a.path < b.path || (a.path == b.path && (a.startLine < b.startLine ||
    (a.startLine == b.startLine && !(b.qualifiedName < a.qualifiedName : Bool))))

def extract (parser : PythonParser) (path : String) (content : List Char) :
    Except ExtractError (List RepositorySymbol) := do
  let body ← parser.parse content
  let symbols ← body.mapM (nodeSymbols path)
  .ok (symbols.flatten.insertionSort fun a b => symbolLe a b = true)

/-- A symbol of a file, on one of so many lines. -/
structure SymbolOf (path : String) (lines : ℕ) (found : RepositorySymbol) : Prop where
  path_eq : found.path = path
  line : 1 ≤ found.startLine ∧ found.startLine ≤ lines

section Placed

variable {path className : String} {lines : ℕ} {stmt : Stmt} {found : List RepositorySymbol}

lemma symbolOf_symbol {name qualifiedName kind : String} {lineno endLineno : ℕ}
    {built : RepositorySymbol} (hline : 1 ≤ lineno ∧ lineno ≤ lines)
    (h : symbol path name qualifiedName kind lineno endLineno = .ok built) :
    SymbolOf path lines built := by
  rw [symbol, except_mapError_eq_ok] at h
  rw [RepositorySymbol.check_ok h]
  exact ⟨rfl, hline⟩

lemma symbolOf_child (hplaced : stmt.Placed lines)
    (h : childSymbols path className stmt = .ok found) : ∀ s ∈ found, SymbolOf path lines s := by
  cases hplaced with
  | classDef hfirst hlast hchildren =>
      simp only [childSymbols, Except.ok.injEq] at h
      simp [← h]
  | functionDef hfirst hlast =>
      simp only [childSymbols, except_bind_eq_ok, Except.ok.injEq] at h
      obtain ⟨method, hmethod, rfl⟩ := h
      simpa using symbolOf_symbol ⟨hfirst, hlast⟩ hmethod
  | asyncFunctionDef hfirst hlast =>
      simp only [childSymbols, except_bind_eq_ok, Except.ok.injEq] at h
      obtain ⟨method, hmethod, rfl⟩ := h
      simpa using symbolOf_symbol ⟨hfirst, hlast⟩ hmethod
  | other =>
      simp only [childSymbols, Except.ok.injEq] at h
      simp [← h]

lemma symbolOf_node (hplaced : stmt.Placed lines) (h : nodeSymbols path stmt = .ok found) :
    ∀ s ∈ found, SymbolOf path lines s := by
  cases hplaced with
  | classDef hfirst hlast hchildren =>
      simp only [nodeSymbols, except_bind_eq_ok, Except.ok.injEq] at h
      obtain ⟨own, hown, methods, hmethods, rfl⟩ := h
      refine List.forall_mem_cons.mpr ⟨symbolOf_symbol ⟨hfirst, hlast⟩ hown, ?_⟩
      intro s hs
      obtain ⟨some, hsome, hs⟩ := List.mem_flatten.mp hs
      obtain ⟨child, hchild, hfound⟩ := mapM_mem hmethods some hsome
      exact symbolOf_child (hchildren child hchild) hfound s hs
  | functionDef hfirst hlast =>
      simp only [nodeSymbols, except_bind_eq_ok, Except.ok.injEq] at h
      obtain ⟨own, hown, rfl⟩ := h
      simpa using symbolOf_symbol ⟨hfirst, hlast⟩ hown
  | asyncFunctionDef hfirst hlast =>
      simp only [nodeSymbols, except_bind_eq_ok, Except.ok.injEq] at h
      obtain ⟨own, hown, rfl⟩ := h
      simpa using symbolOf_symbol ⟨hfirst, hlast⟩ hown
  | other =>
      rw [nodeSymbols, Except.ok.injEq] at h
      simp [← h]

end Placed

/-- Every symbol of a text begins on one of the parser's lines. -/
theorem symbolOf_extract {parser : PythonParser} {path : String} {content : List Char}
    {found : List RepositorySymbol} (h : extract parser path content = .ok found) :
    ∀ s ∈ found, SymbolOf path (sourceLines content).length s := by
  simp only [extract, except_bind_eq_ok, Except.ok.injEq] at h
  obtain ⟨body, hbody, symbols, hsymbols, rfl⟩ := h
  intro s hs
  rw [List.mem_insertionSort] at hs
  obtain ⟨some, hsome, hs⟩ := List.mem_flatten.mp hs
  obtain ⟨node, hnode, hfound⟩ := mapM_mem hsymbols some hsome
  exact symbolOf_node (parser.placed content body hbody node hnode) hfound s hs

section Languages

variable (casefold : List Char → List Char)

def pathName (path : List Char) : List Char :=
  ((path.splitOn '/').filter fun part => part ≠ [] && part ≠ ['.']).getLastD []

def pathSuffix (path : List Char) : List Char :=
  let name := pathName path
  let ext := (name.reverse.takeWhile (· ≠ '.')).reverse
  if ext = [] || name.length ≤ ext.length + 1 then [] else '.' :: ext

def pathStem (path : List Char) : List Char :=
  (pathName path).take ((pathName path).length - (pathSuffix path).length)

def languages : List (String × String) :=
  [(".py", "python"), (".ts", "typescript"), (".tsx", "tsx"), (".js", "javascript"),
    (".jsx", "jsx"), (".c", "c"), (".h", "c"), (".cc", "cpp"), (".cpp", "cpp"), (".cxx", "cpp"),
    (".hpp", "cpp"), (".cs", "csharp"), (".rs", "rust"), (".go", "go"), (".java", "java"),
    (".md", "markdown"), (".json", "json"), (".yaml", "yaml"), (".yml", "yaml"),
    (".toml", "toml"), (".sh", "shell"), (".bash", "shell")]

def detectLanguage (path : String) : String :=
  (languages.lookup (String.ofList (casefold (pathSuffix path.toList)))).getD "text"

def binarySuffixes : List String :=
  [".7z", ".bmp", ".class", ".dll", ".dylib", ".exe", ".gif", ".gz", ".ico", ".jar", ".jpeg",
    ".jpg", ".lock", ".mov", ".mp3", ".mp4", ".o", ".pdf", ".png", ".pyc", ".so", ".tar", ".ttf",
    ".woff", ".woff2", ".zip"]

end Languages

structure RepositoryDiagnostics where
  skippedUnreadable : ℕ := 0
  skippedBinary : ℕ := 0
  skippedOversize : ℕ := 0
  symbolParseFailures : ℕ := 0
  filesConsidered : ℕ := 0
  symbolsFound : ℕ := 0
  fileLimitReached : Bool := false
deriving DecidableEq, Repr

/-- The files of a scan, each path once, and the symbols in them. -/
structure RepositoryIndex where
  files : List RepositoryFile
  symbols : List RepositorySymbol
  diagnostics : RepositoryDiagnostics
  paths_nodup : (files.map (·.path)).Nodup

structure RepositorySnapshot where
  index : RepositoryIndex
  contentByPath : List (String × List Char)

structure RepositoryScanner where
  maxFiles : ℕ := 2000
  maxFileChars : ℕ := 250000
  maxTotalChars : ℕ := 4000000

/-- What a scan meets: the listed files, and the text of each; none is a read that fails. -/
structure Repository where
  iterFiles : List String
  readText : String → Option (List Char)

/-- The loop variables of `scan_snapshot`. -/
structure ScanState where
  files : List RepositoryFile := []
  symbols : List RepositorySymbol := []
  contentByPath : List (String × List Char) := []
  diagnostics : RepositoryDiagnostics := {}
  totalProcessed : ℕ := 0

section Scan

variable (parser : PythonParser) (casefold : List Char → List Char)
  (digest : List Char → String) (scanner : RepositoryScanner)

/-- The file with its text, and the symbols of a Python text that parses. -/
def ScanState.keep (state : ScanState) (path : String) (content : List Char) :
    Except ExtractError ScanState := do
  let file ← (RepositoryFile.check ⟨path, detectLanguage casefold path, content.length,
    (splitlines content).length, digest content⟩).mapError .validation
  let state := { state with
    files := state.files ++ [file]
    contentByPath := state.contentByPath ++ [(path, content)]
    totalProcessed := state.totalProcessed + content.length }
  if file.language = "python" then
    match extract parser path content with
    | .ok found => .ok { state with symbols := state.symbols ++ found }
    | .error .syntaxError => .ok { state with diagnostics := { state.diagnostics with
        symbolParseFailures := state.diagnostics.symbolParseFailures + 1 } }
    | .error e => .error e
  else .ok state

def ScanState.scanFile (repository : Repository) (state : ScanState) (path : String) :
    Except ExtractError ScanState :=
  let diagnostics := state.diagnostics
  let binary : ScanState := { state with
    diagnostics := { diagnostics with skippedBinary := diagnostics.skippedBinary + 1 } }
  if String.ofList (casefold (pathSuffix path.toList)) ∈ binarySuffixes then .ok binary
  else
    match repository.readText path with
    | none => .ok { state with diagnostics := { diagnostics with
        skippedUnreadable := diagnostics.skippedUnreadable + 1 } }
    | some content =>
        if nul ∈ content then .ok binary
        else if scanner.maxFileChars < content.length ∨
            scanner.maxTotalChars < state.totalProcessed + content.length then
          .ok { state with diagnostics := { diagnostics with
            skippedOversize := diagnostics.skippedOversize + 1 } }
        else state.keep parser casefold digest path content

def scanSnapshot (repository : Repository) : Except ExtractError RepositorySnapshot := do
  let bounded := repository.iterFiles.take (scanner.maxFiles + 1)
  let paths := (bounded.take scanner.maxFiles).insertionSort fun a b => ¬ b < a
  let state ← paths.foldlM (ScanState.scanFile parser casefold digest scanner repository) {}
  let files := state.files.insertionSort fun a b : RepositoryFile => ¬ b.path < a.path
  if h : (files.map (·.path)).Nodup then
    .ok ⟨⟨files, state.symbols.insertionSort fun a b => symbolLe a b = true,
      { state.diagnostics with
        filesConsidered := paths.length
        symbolsFound := state.symbols.length
        fileLimitReached := decide (scanner.maxFiles < bounded.length) }, h⟩,
      state.contentByPath⟩
  else .error (.validation ⟨"RepositoryIndex contains duplicate file paths."⟩)

end Scan

section Scanned

variable {parser : PythonParser} {casefold : List Char → List Char}
  {digest : List Char → String} {scanner : RepositoryScanner}

/-- The files, texts and symbols of a scan belong together. -/
structure Scanned (parser : PythonParser) (casefold : List Char → List Char)
    (files : List RepositoryFile) (contents : List (String × List Char))
    (symbols : List RepositorySymbol) : Prop where
  paths_eq : contents.map (·.1) = files.map (·.path)
  files_ok : ∀ file ∈ files, repositoryPath file.path "ContextSegment.path" = .ok () ∧
    sha256 file.contentSha256 "ContextSegment.content_sha256" = .ok ()
  texts_ok : ∀ entry ∈ contents, nul ∉ entry.2
  symbols_of : ∀ s ∈ symbols, ∃ content, (s.path, content) ∈ contents ∧
    SymbolOf s.path (sourceLines content).length s
  extracted : ∀ entry ∈ contents, detectLanguage casefold entry.1 = "python" →
    ∀ found, extract parser entry.1 entry.2 = .ok found → ∀ s ∈ found, s ∈ symbols

variable {state next : ScanState} {path : String}

def ScanState.Holds (parser : PythonParser) (casefold : List Char → List Char)
    (state : ScanState) : Prop :=
  Scanned parser casefold state.files state.contentByPath state.symbols

/-- One more file, with the symbols found in its text. -/
lemma Scanned.add {files : List RepositoryFile} {contents : List (String × List Char)}
    {symbols found : List RepositorySymbol} {file : RepositoryFile} {content : List Char}
    (h : Scanned parser casefold files contents symbols)
    (hfile : repositoryPath file.path "ContextSegment.path" = .ok () ∧
      sha256 file.contentSha256 "ContextSegment.content_sha256" = .ok ())
    (htext : nul ∉ content)
    (hfound : ∀ s ∈ found, SymbolOf file.path (sourceLines content).length s)
    (hall : detectLanguage casefold file.path = "python" →
      ∀ others, extract parser file.path content = .ok others → others = found) :
    Scanned parser casefold (files ++ [file]) (contents ++ [(file.path, content)])
      (symbols ++ found) where
  paths_eq := by simp [h.paths_eq]
  files_ok := by
    intro other hother
    rcases List.mem_append.mp hother with hother | hother
    · exact h.files_ok other hother
    · rw [List.mem_singleton.mp hother]
      exact hfile
  texts_ok := by
    intro entry hentry
    rcases List.mem_append.mp hentry with hentry | hentry
    · exact h.texts_ok entry hentry
    · rw [List.mem_singleton.mp hentry]
      exact htext
  symbols_of := by
    intro s hs
    rcases List.mem_append.mp hs with hs | hs
    · obtain ⟨text, htext, hline⟩ := h.symbols_of s hs
      exact ⟨text, List.mem_append_left _ htext, hline⟩
    · have hline := hfound s hs
      refine ⟨content, List.mem_append_right _ ?_, ?_⟩
      · rw [hline.path_eq]
        exact List.mem_cons_self
      · rw [hline.path_eq]
        exact hline
  extracted := by
    intro entry hentry hpython others hothers s hs
    rcases List.mem_append.mp hentry with hentry | hentry
    · exact List.mem_append_left _ (h.extracted entry hentry hpython others hothers s hs)
    · rw [List.mem_singleton.mp hentry] at hpython hothers
      rw [hall hpython others hothers] at hs
      exact List.mem_append_right _ hs

lemma ScanState.Holds.keep {content : List Char} (h : state.Holds parser casefold)
    (htext : nul ∉ content)
    (hnext : state.keep parser casefold digest path content = .ok next) :
    next.Holds parser casefold := by
  simp only [ScanState.keep, except_bind_eq_ok, except_mapError_eq_ok] at hnext
  obtain ⟨file, hfile, hnext⟩ := hnext
  obtain ⟨rfl, hpath, hsha⟩ := RepositoryFile.check_ok hfile
  have hadd := fun found => @Scanned.add parser casefold _ _ _ found _ content h ⟨hpath, hsha⟩ htext
  by_cases hpython : detectLanguage casefold path = "python"
  · rw [if_pos hpython] at hnext
    cases hextract : extract parser path content with
    | ok found =>
        rw [hextract] at hnext
        cases hnext
        refine hadd found (symbolOf_extract hextract) ?_
        intro _ others hothers
        rw [hextract, Except.ok.injEq] at hothers
        exact hothers.symm
    | error e =>
        cases e with
        | syntaxError =>
            rw [hextract] at hnext
            cases hnext
            have hnone := hadd [] (by simp) fun _ others hothers => by
              rw [hextract] at hothers
              cases hothers
            simpa [ScanState.Holds] using hnone
        | raised => rw [hextract] at hnext; cases hnext
        | validation e => rw [hextract] at hnext; cases hnext
  · rw [if_neg hpython, Except.ok.injEq] at hnext
    subst hnext
    have hnone := hadd [] (by simp) fun hlanguage => absurd hlanguage hpython
    simpa [ScanState.Holds] using hnone

lemma ScanState.Holds.scanFile {repository : Repository} (h : state.Holds parser casefold)
    (hnext : state.scanFile parser casefold digest scanner repository path = .ok next) :
    next.Holds parser casefold := by
  rw [ScanState.scanFile] at hnext
  by_cases hsuffix : String.ofList (casefold (pathSuffix path.toList)) ∈ binarySuffixes
  · rw [if_pos hsuffix] at hnext
    cases hnext
    exact h
  · rw [if_neg hsuffix] at hnext
    cases hread : repository.readText path with
    | none =>
        rw [hread] at hnext
        cases hnext
        exact h
    | some content =>
        rw [hread] at hnext
        simp only at hnext
        by_cases hnul : nul ∈ content
        · rw [if_pos hnul] at hnext
          cases hnext
          exact h
        · rw [if_neg hnul] at hnext
          by_cases hsize : scanner.maxFileChars < content.length ∨
              scanner.maxTotalChars < state.totalProcessed + content.length
          · rw [if_pos hsize] at hnext
            cases hnext
            exact h
          · rw [if_neg hsize] at hnext
            exact h.keep hnul hnext

lemma ScanState.Holds.scanFiles {repository : Repository} {paths : List String}
    (h : state.Holds parser casefold)
    (hnext : paths.foldlM (ScanState.scanFile parser casefold digest scanner repository) state =
      .ok next) : next.Holds parser casefold := by
  induction paths generalizing state with
  | nil =>
      rw [List.foldlM_nil, except_pure_eq_ok] at hnext
      rwa [← hnext]
  | cons path paths ih =>
      rw [List.foldlM_cons, except_bind_eq_ok] at hnext
      obtain ⟨mid, hmid, hrest⟩ := hnext
      exact ih (h.scanFile hmid) hrest

/-- What a scan of a repository gives. -/
theorem scanned_scanSnapshot {repository : Repository} {snapshot : RepositorySnapshot}
    (h : scanSnapshot parser casefold digest scanner repository = .ok snapshot) :
    (snapshot.contentByPath.map (·.1)).Nodup ∧ ∃ files,
      (∀ file, file ∈ snapshot.index.files ↔ file ∈ files) ∧
      Scanned parser casefold files snapshot.contentByPath snapshot.index.symbols := by
  simp only [scanSnapshot, except_bind_eq_ok] at h
  obtain ⟨state, hstate, h⟩ := h
  have hempty : ScanState.Holds parser casefold {} :=
    ⟨rfl, by simp, by simp, by simp, by simp⟩
  have hscanned := hempty.scanFiles hstate
  have hperm := List.perm_insertionSort (fun a b : RepositoryFile => ¬ b.path < a.path) state.files
  by_cases hnodup : ((state.files.insertionSort fun a b => ¬ b.path < a.path).map (·.path)).Nodup
  · rw [dif_pos hnodup, Except.ok.injEq] at h
    subst h
    refine ⟨?_, state.files, fun file => hperm.mem_iff, ?_⟩
    · show (state.contentByPath.map (·.1)).Nodup
      rw [hscanned.paths_eq]
      exact (hperm.map _).nodup_iff.mp hnodup
    · exact { hscanned with
        symbols_of := fun s hs => hscanned.symbols_of s ((List.mem_insertionSort _).mp hs)
        extracted := fun entry hentry hpython found hfound s hs =>
          (List.mem_insertionSort _).mpr (hscanned.extracted entry hentry hpython found hfound s hs) }
  · rw [dif_neg hnodup] at h
    cases h

end Scanned

end Imece.ContextRuntime
