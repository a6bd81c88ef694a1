import Imece.Lib.LinkDirs

/-!
# Where calls act

The places that calls on a tree read and change, in terms of the tree before the call.
-/
namespace Imece.Lib

namespace LinkTree

variable {δ : Type} (tree : LinkTree δ)

/-- The contents of the file that a path leads to. -/
def contents (path : List String) : Option δ :=
  match tree.place true path with
  | .found _ (.file content) => some content
  | _ => none

/-- The file that opening a path for reading opens. -/
def opened (path : List String) : List Loc :=
  match tree.place true path with
  | .found loc (.file _) => [loc]
  | _ => []

/-- The file that opening a path for writing opens or creates. -/
def written (path : List String) : List Loc :=
  match tree.place true path with
  | .found loc (.file _) => [loc]
  | .absent dir name => if legalName name then [dir ++ [name]] else []
  | _ => []

/-- The files that `copy2` reads and writes. -/
def copied (source dest : List String) : List Loc :=
  if tree.samefile source (tree.copyDest source dest) then []
  else
    match tree.place true source with
    | .found loc (.file _) => loc :: tree.written (tree.copyDest source dest)
    | _ => []

/-- The place that `rename` takes an entry from, and the place it brings it to. -/
def renamed (source dest : List String) : Option (Loc × Loc) :=
  match tree.place false source, tree.place false dest with
  | .found loc _, .absent dir name =>
      if legalName name = true ∧ ¬ loc <+: dir then some (loc, dir ++ [name]) else none
  | .found loc entry, .found loc' entry' =>
      match entry, entry' with
      | _, .dir => none
      | .dir, _ => none
      | _, _ => some (loc, loc')
  | _, _ => none

/-- The directories and the file that making a file with its directories makes or opens. -/
def madeFile (path : List String) : List Loc :=
  match tree.missing path.dropLast.reverse with
  | (made, none) => made
  | ([], some _) => tree.written path
  | (made, some dir) =>
      if legalName (path.getLastD "") then made ++ [dir ++ [path.getLastD ""]] else made

/-- The entry that `os.remove` removes. -/
def removed (path : List String) : Option Loc :=
  match tree.place false path with
  | .found _ .dir => none
  | .found loc _ => some loc
  | _ => none

/-- The directory that `rmtree` removes. -/
def cleared (path : List String) : Option Loc :=
  match tree.place false path with
  | .found loc .dir => some loc
  | _ => none

end LinkTree

/-- Effects that take nothing away and have their places in a list. -/
structure Touches (effects : List OsEffect) (places : List Loc) : Prop where
  places : ∀ loc, loc ∈ effects.flatMap OsEffect.places ↔ loc ∈ places
  taken : effects.flatMap OsEffect.taken = []

lemma Touches.confined {effects : List OsEffect} {places : List Loc} (h : Touches effects places)
    (root : Loc) : Confined root effects ↔ ∀ loc ∈ places, root <+: loc := by
  rw [Confined, h.taken]
  simp only [h.places]
  simp

lemma confined_move {root loc loc' : Loc} :
    Confined root [.move loc loc'] ↔ root <+: loc ∧ root <+: loc' ∧ loc ≠ root := by
  simp [Confined, OsEffect.places, OsEffect.taken, and_assoc]

lemma confined_remove {root : Loc} {loc : Option Loc} :
    Confined root (loc.toList.map .remove) ↔ ∀ found, loc = some found →
      root <+: found ∧ found ≠ root := by
  cases loc <;> simp [Confined, OsEffect.places, OsEffect.taken]

lemma confined_nil (root : Loc) : Confined root [] := by simp [Confined]

lemma Touches.none : Touches [] [] := ⟨by simp, rfl⟩

lemma Touches.read (loc : Loc) : Touches [.read loc] [loc] := ⟨by simp [OsEffect.places], rfl⟩

lemma Touches.create (loc : Loc) : Touches [.create loc] [loc] := ⟨by simp [OsEffect.places], rfl⟩

lemma Touches.write (loc : Loc) : Touches [.write loc] [loc] := ⟨by simp [OsEffect.places], rfl⟩

lemma Touches.created (made : List Loc) : Touches (made.map .create) made := by
  constructor
  · intro loc
    simp [List.mem_flatMap, OsEffect.places]
  · simp [OsEffect.taken]

lemma Touches.append {first second : List OsEffect} {front back : List Loc}
    (hfirst : Touches first front) (hsecond : Touches second back) :
    Touches (first ++ second) (front ++ back) := by
  constructor
  · intro loc
    rw [List.flatMap_append, List.mem_append, hfirst.places, hsecond.places, List.mem_append]
  · rw [List.flatMap_append, hfirst.taken, hsecond.taken, List.append_nil]

namespace Os

open LinkTree

variable {δ : Type} (tree : LinkTree δ)

lemma readFile_found {path : List String} {loc : Loc} {content : δ}
    (h : tree.place true path = .found loc (.file content)) :
    readFile path tree = ⟨.ok content, tree, [.read loc]⟩ := by
  rw [readFile, tree_bind, h]
  rfl

lemma readFile_touches (path : List String) :
    Touches (readFile path tree).effects (tree.opened path) := by
  rw [readFile, tree_bind, opened]
  cases tree.place true path with
  | found loc entry =>
      cases entry with
      | file content => exact Touches.read loc
      | dir => exact Touches.none
      | link target => exact Touches.none
  | absent dir name => exact Touches.none
  | failed e => exact Touches.none

lemma writeFile_touches (path : List String) (content : δ) :
    Touches (writeFile path content tree).effects (tree.written path) := by
  rw [writeFile, tree_bind, written]
  cases tree.place true path with
  | found loc entry =>
      cases entry with
      | file content => exact Touches.write loc
      | dir => exact Touches.none
      | link target => exact Touches.none
  | absent dir name =>
      simp only
      split
      · exact Touches.create (dir ++ [name])
      · exact Touches.none
  | failed e => exact Touches.none

lemma readFile_failed {path : List String}
    (h : ∀ loc content, tree.place true path ≠ .found loc (.file content)) :
    ∃ e, readFile path tree = ⟨.error e, tree, []⟩ := by
  rw [readFile, tree_bind]
  cases hplace : tree.place true path with
  | found loc entry =>
      cases entry with
      | file content => exact absurd hplace (h loc content)
      | dir => exact ⟨_, rfl⟩
      | link target => exact ⟨_, rfl⟩
  | absent dir name => exact ⟨_, rfl⟩
  | failed e => exact ⟨_, rfl⟩

lemma copy2_touches (source dest : List String) :
    Touches (copy2 source dest tree).effects (tree.copied source dest) := by
  rw [copy2, tree_bind, copied]
  split
  · exact Touches.none
  · split
    · rename_i loc content hsource
      rw [bind_ok (readFile_found tree hsource)]
      exact (Touches.read loc).append (writeFile_touches tree _ content)
    · rename_i hno
      obtain ⟨e, he⟩ := readFile_failed tree fun loc content hsource => hno loc content hsource
      rw [bind_error he]
      exact Touches.none

lemma rename_takes (source dest : List String) :
    (rename source dest tree).effects =
      match tree.renamed source dest with
      | some (loc, loc') => [.move loc loc']
      | none => [] := by
  rw [rename, tree_bind, renamed]
  cases tree.place false source with
  | found loc entry =>
      cases tree.place false dest with
      | found loc' entry' => cases entry <;> cases entry' <;> rfl
      | absent dir name =>
          simp only
          by_cases hbelow : loc <+: dir
          · rw [if_pos hbelow, if_neg fun h => h.2 hbelow]
            rfl
          · by_cases hname : legalName name = true
            · rw [if_neg hbelow, if_pos hname, if_pos ⟨hname, hbelow⟩]
              rfl
            · rw [if_neg hbelow, if_neg hname, if_neg fun h => hname h.1]
              rfl
      | failed e => rfl
  | absent dir name => rfl
  | failed e => rfl

lemma removeEntry_takes (path : List String) :
    (removeEntry path tree).effects = (tree.removed path).toList.map .remove := by
  rw [removeEntry, tree_bind, removed]
  cases tree.place false path with
  | found loc entry => cases entry <;> rfl
  | absent dir name => rfl
  | failed e => rfl

lemma rmtree_takes (path : List String) :
    (rmtree path tree).effects = (tree.cleared path).toList.map .remove := by
  rw [rmtree, tree_bind, cleared]
  cases tree.place false path with
  | found loc entry => cases entry <;> rfl
  | absent dir name => rfl
  | failed e => rfl

/-- Files that are written over keep their places, and so does all the rest. -/
lemma writeFile_grows (path : List String) (content : δ) :
    Grows tree (writeFile path content tree).tree := by
  have hsound := place_sound tree true path
  rw [writeFile, tree_bind]
  cases hplace : tree.place true path with
  | found loc entry =>
      rw [hplace] at hsound
      cases entry with
      | file old =>
          obtain ⟨dir, name, rfl⟩ : ∃ dir name, loc = dir ++ [name] := by
            induction loc using List.reverseRecOn with
            | nil => cases hsound.1.symm.trans tree.top
            | append_singleton dir name _ => exact ⟨dir, name, rfl⟩
          simp only [act, List.dropLast_concat, List.getLastD_concat]
          exact put_file_grows hsound.1
      | dir => exact Grows.refl tree
      | link target => exact Grows.refl tree
  | absent dir name =>
      rw [hplace] at hsound
      simp only
      split
      · rename_i hname
        exact put_grows hsound.1 hname hsound.2.2.2
      · exact Grows.refl tree
  | failed e => exact Grows.refl tree

lemma copy2_grows (source dest : List String) : Grows tree (copy2 source dest tree).tree := by
  rw [copy2, tree_bind]
  split
  · exact Grows.refl tree
  · by_cases hfound : ∃ loc content, tree.place true source = .found loc (.file content)
    · obtain ⟨loc, content, hsource⟩ := hfound
      rw [bind_ok (readFile_found tree hsource)]
      exact writeFile_grows tree _ content
    · obtain ⟨e, he⟩ := readFile_failed tree fun loc content hsource =>
        hfound ⟨loc, content, hsource⟩
      rw [bind_error he]
      exact Grows.refl tree

lemma contents_iff {tree : LinkTree δ} {path : List String} {content : δ} :
    tree.contents path = some content ↔ ∃ loc, tree.place true path = .found loc (.file content) := by
  rw [contents]
  split
  · rename_i loc found hfound
    rw [Option.some.injEq]
    constructor
    · rintro rfl
      exact ⟨loc, hfound⟩
    · intro ⟨loc', hfound'⟩
      rw [hfound] at hfound'
      cases hfound'
      rfl
  · rename_i hno
    exact iff_of_false (by simp) fun ⟨loc, hfound⟩ => hno loc content hfound

lemma isfile_iff {tree : LinkTree δ} {path : List String} :
    tree.isfile path = true ↔ ∃ loc content, tree.place true path = .found loc (.file content) := by
  rw [isfile]
  split
  · rename_i loc content hfound
    exact iff_of_true rfl ⟨loc, content, hfound⟩
  · rename_i hno
    exact iff_of_false Bool.false_ne_true fun ⟨loc, content, hfound⟩ => hno loc content hfound

/-- A file lies in a directory. -/
lemma parent_of_file {tree : LinkTree δ} {path : List String} {loc : Loc} {content : δ}
    (h : tree.place true path = .found loc (.file content)) :
    ∃ dir, tree.place true path.dropLast = .found dir .dir := by
  rcases List.eq_nil_or_concat path with rfl | ⟨above, name, rfl⟩
  · rw [place, walk, advance] at h
    simp only [tree.top] at h
    cases h
  · rw [List.concat_eq_append, List.dropLast_concat]
    by_contra hno
    obtain ⟨e, he⟩ := place_snoc_failed true name fun dir hdir => hno ⟨dir, hdir⟩
    rw [List.concat_eq_append, he] at h
    cases h

/-- A copy that is made reads its source. -/
lemma copied_source {tree : LinkTree δ} {source dest : List String} {loc : Loc} {content : δ}
    (hplace : tree.place true source = .found loc (.file content))
    (hok : (copy2 source dest tree).result = .ok ()) : loc ∈ tree.copied source dest := by
  rw [copy2, tree_bind] at hok
  split at hok
  · cases hok
  · rename_i hsame
    rw [copied, if_neg hsame, hplace]
    exact List.mem_cons_self ..

/-- A file is made in its directories, or in those that stand there. -/
theorem makeFile_touches {path : List String} (content : δ)
    (hplain : ∀ name ∈ path, name ≠ "." ∧ name ≠ "..") :
    Touches ((makedirs true path.dropLast.reverse >>= fun _ => writeFile path content) tree).effects
      (tree.madeFile path) := by
  have hrun := makedirs_run tree true path.dropLast.reverse fun name hname =>
    hplain name (List.dropLast_subset path (List.mem_reverse.mp hname))
  rw [List.reverse_reverse] at hrun
  rw [madeFile]
  rcases hmissing : tree.missing path.dropLast.reverse with ⟨made, last⟩
  rw [hmissing] at hrun
  cases last with
  | none =>
      obtain ⟨⟨e, he⟩, -⟩ := hrun.fails rfl
      rw [bind_error (run_result he), hrun.effects]
      exact Touches.created made
  | some dir =>
      rw [bind_ok (run_result (hrun.ok dir rfl (Or.inl rfl))), hrun.effects]
      cases made with
      | nil =>
          rw [hrun.made.same]
          exact Touches.none.append (writeFile_touches tree path content)
      | cons first made =>
          have hfree := hrun.free rfl (List.cons_ne_nil _ _)
          obtain ⟨hplace, -, -⟩ := hrun.leads dir rfl
          rcases List.eq_nil_or_concat path with rfl | ⟨above, name, rfl⟩
          · cases hmissing
          · simp only [List.concat_eq_append, List.dropLast_concat] at hplain hplace hfree ⊢
            obtain ⟨hdot, hparent⟩ := hplain name (by simp)
            generalize (makedirs true above.reverse tree).tree = tree' at hplace hfree ⊢
            have hwritten : tree'.written (above ++ [name]) =
                if legalName name then [dir ++ [name]] else [] := by
              rw [written, place_snoc_plain hplace hdot hparent (by rw [hfree name]; simp),
                hfree name]
            have htouches := (Touches.created (first :: made)).append
              (writeFile_touches tree' (above ++ [name]) content)
            rw [hwritten] at htouches
            simp only [List.getLastD_concat]
            split
            · rename_i hname
              rwa [if_pos hname] at htouches
            · rename_i hname
              rwa [if_neg hname, List.append_nil] at htouches

/-- Directories that are made bring no file and take none. -/
theorem makedirs_isfile {path : List String} (hplain : ∀ name ∈ path, name ≠ "." ∧ name ≠ "..") :
    (makedirs true path.dropLast.reverse tree).tree.isfile path = tree.isfile path := by
  have hrun := makedirs_run tree true path.dropLast.reverse fun name hname =>
    hplain name (List.dropLast_subset path (List.mem_reverse.mp hname))
  rw [List.reverse_reverse] at hrun
  rw [Bool.eq_iff_iff, isfile_iff, isfile_iff]
  constructor
  · intro ⟨loc, content, hfile⟩
    obtain ⟨dir, hdir⟩ := parent_of_file hfile
    have hlast : (tree.missing path.dropLast.reverse).2 = some dir := by
      cases hlast : (tree.missing path.dropLast.reverse).2 with
      | none => exact absurd hdir ((hrun.fails hlast).2 dir)
      | some other =>
          have hother := (hrun.leads other hlast).1
          rw [hdir] at hother
          cases hother
          rfl
    by_cases hmade : (tree.missing path.dropLast.reverse).1 = []
    · have hsame := hrun.made
      rw [hmade] at hsame
      rw [hsame.same] at hfile
      exact ⟨loc, content, hfile⟩
    · have hfree := hrun.free hlast hmade
      rcases List.eq_nil_or_concat path with rfl | ⟨above, name, rfl⟩
      · exact absurd rfl hmade
      · simp only [List.concat_eq_append, List.dropLast_concat] at hplain hdir hfree hfile
        obtain ⟨hdot, hparent⟩ := hplain name (by simp)
        rw [place_snoc_plain hdir hdot hparent (by rw [hfree name]; simp), hfree name] at hfile
        cases hfile
  · intro ⟨loc, content, hfile⟩
    obtain ⟨entry', hfile', hkind⟩ := place_grows hrun.made.grows hfile
    cases entry' with
    | file content' => exact ⟨loc, content', hfile'⟩
    | dir => exact hkind.elim
    | link target => exact hkind.elim

/-- A file that is written over holds what was written. -/
lemma writeFile_over {tree : LinkTree δ} {path : List String} {old : δ}
    (h : tree.contents path = some old) (content : δ) :
    (writeFile path content tree).result = .ok () ∧
      (writeFile path content tree).tree.contents path = some content := by
  obtain ⟨loc, hplace⟩ := contents_iff.mp h
  have hsound := place_sound tree true path
  rw [hplace] at hsound
  obtain ⟨dir, name, rfl⟩ : ∃ dir name, loc = dir ++ [name] := by
    rcases List.eq_nil_or_concat loc with rfl | ⟨dir, name, rfl⟩
    · cases hsound.1.symm.trans tree.top
    · exact ⟨dir, name, List.concat_eq_append⟩
  have hsome : tree.entry (dir ++ [name]) ≠ none := by
    rw [hsound.1]
    simp
  have hrun : writeFile path content tree =
      ⟨.ok (), tree.put dir name (.file content), [.write (dir ++ [name])]⟩ := by
    rw [writeFile, tree_bind, hplace]
    simp only [act, List.dropLast_concat, List.getLastD_concat]
  rw [hrun]
  refine ⟨rfl, contents_iff.mpr ⟨dir ++ [name], ?_⟩⟩
  obtain ⟨entry', hplace', -⟩ := place_grows (@put_file_grows _ _ _ _ _ content hsound.1) hplace
  have hsound' := place_sound (tree.put dir name (.file content)) true path
  rw [hplace'] at hsound'
  have hentry' := hsound'.1
  rw [put_entry (tree.above dir name hsome) (tree.legal dir name hsome)
    (by rw [hsound.1]; simp), if_pos rfl] at hentry'
  rw [hplace', Option.some.inj hentry']

end Os

end Imece.Lib
