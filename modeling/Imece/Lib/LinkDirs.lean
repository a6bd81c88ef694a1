import Imece.Lib.LinkOps

/-!
# Making missing directories

What `os.makedirs` makes, in terms of the tree before the call.
-/
namespace Imece.Lib

namespace LinkTree

variable {δ : Type}

/-- The directories that are missing on a path, from the last name to the first, and where the path
then leads to if that is a directory. -/
def missing (tree : LinkTree δ) : List String → List Loc × Option Loc
  | [] => ([], some [])
  | name :: above =>
      match tree.place true above.reverse with
      | .found loc .dir =>
          match tree.entry (loc ++ [name]) with
          | none => if legalName name then ([loc ++ [name]], some (loc ++ [name])) else ([], none)
          | some _ =>
              match tree.place true (above.reverse ++ [name]) with
              | .found loc' .dir => ([], some loc')
              | _ => ([], none)
      | .found _ _ => ([], none)
      | _ =>
          match tree.missing above with
          | (made, none) => (made, none)
          | (made, some loc) =>
              if legalName name then (made ++ [loc ++ [name]], some (loc ++ [name]))
              else (made, none)

/-- A tree with new directories. -/
structure Made (tree : LinkTree δ) (made : List Loc) (tree' : LinkTree δ) : Prop where
  entries : ∀ loc, tree'.entry loc = if loc ∈ made then some .dir else tree.entry loc
  fresh : ∀ loc ∈ made, tree.entry loc = none

lemma Made.none (tree : LinkTree δ) : Made tree [] tree :=
  ⟨fun _ => by simp, by simp⟩

lemma Made.grows {tree tree' : LinkTree δ} {made : List Loc} (h : Made tree made tree') :
    Grows tree tree' := by
  intro loc found hfound
  have hold : loc ∉ made := by
    intro hmem
    rw [h.fresh loc hmem] at hfound
    cases hfound
  refine ⟨found, ?_, ?_⟩
  · rw [h.entries, if_neg hold]
    exact hfound
  · cases found <;> trivial

lemma Made.shrinks {tree tree' : LinkTree δ} {made : List Loc} (h : Made tree made tree')
    (hempty : made = []) : Grows tree' tree := by
  intro loc found hfound
  rw [h.entries, hempty, if_neg (List.not_mem_nil)] at hfound
  refine ⟨found, hfound, ?_⟩
  cases found <;> trivial

lemma Made.same {tree tree' : LinkTree δ} (h : Made tree [] tree') : tree' = tree := by
  obtain ⟨entry, top, above, legal⟩ := tree
  obtain ⟨entry', top', above', legal'⟩ := tree'
  have hentry : entry' = entry := by
    ext1 loc
    have := h.entries loc
    simpa using this
  subst hentry
  rfl

lemma Made.snoc {tree tree' : LinkTree δ} {made : List Loc} {dir : Loc} {name : String}
    (h : Made tree made tree') (hdir : tree'.entry dir = some .dir) (hname : legalName name = true)
    (hfree : tree'.entry (dir ++ [name]) = .none) :
    Made tree (made ++ [dir ++ [name]]) (tree'.put dir name .dir) := by
  have hnew : dir ++ [name] ∉ made ∧ tree.entry (dir ++ [name]) = .none := by
    rw [h.entries] at hfree
    split at hfree
    · cases hfree
    · rename_i hmem
      exact ⟨hmem, hfree⟩
  constructor
  · intro loc
    rw [put_entry hdir hname (by rw [hfree]; simp)]
    by_cases hloc : loc = dir ++ [name]
    · rw [if_pos hloc, if_pos (by simp [hloc])]
    · rw [if_neg hloc, h.entries]
      simp [hloc]
  · intro loc hmem
    rcases List.mem_append.mp hmem with hmem | hmem
    · exact h.fresh loc hmem
    · rw [List.mem_singleton.mp hmem]
      exact hnew.2

/-- How `missing` describes a run of `makedirs`. -/
structure Makes (tree : LinkTree δ) (existOk : Bool) (path : List String)
    (expected : List Loc × Option Loc) (run : OsRun δ Unit) : Prop where
  effects : run.effects = expected.1.map .create
  made : Made tree expected.1 run.tree
  leads : ∀ loc, expected.2 = some loc → run.tree.place true path = .found loc .dir ∧
    (∀ made ∈ expected.1, made.length ≤ loc.length) ∧ (expected.1 ≠ [] → loc ∈ expected.1)
  ok : ∀ loc, expected.2 = some loc → existOk = true ∨ expected.1 ≠ [] → run.result = .ok ()
  exists' : ∀ loc, expected.2 = some loc → existOk = false → expected.1 = [] →
    run.result = .error .fileExists
  fails : expected.2 = none → (∃ e, run.result = .error e) ∧
    ∀ loc, run.tree.place true path ≠ .found loc .dir

/-- Nothing is below a directory that was made last. -/
lemma Makes.free {tree : LinkTree δ} {existOk : Bool} {path : List String}
    {expected : List Loc × Option Loc} {run : OsRun δ Unit}
    (h : Makes tree existOk path expected run) {loc : Loc} (hlast : expected.2 = some loc)
    (hmade : expected.1 ≠ []) (name : String) : run.tree.entry (loc ++ [name]) = none := by
  obtain ⟨-, hlength, hmem⟩ := h.leads loc hlast
  rw [h.made.entries, if_neg]
  · by_contra hentry
    have hdir := tree.above loc name hentry
    rw [h.made.fresh loc (hmem hmade)] at hdir
    cases hdir
  · intro hnew
    have := hlength _ hnew
    simp at this

end LinkTree

namespace Os

open LinkTree

variable {δ : Type} {tree : LinkTree δ} {existOk : Bool} {path above : List String} {name : String}
  {loc : Loc}

section Last

lemma makeLast_ok {tree' : LinkTree δ} {effects : List OsEffect}
    (h : mkdir path tree = ⟨.ok (), tree', effects⟩) :
    makeLast existOk path tree = ⟨.ok (), tree', effects⟩ := by
  rw [makeLast, bind_ok (attempt_run h)]
  simp

lemma makeLast_error {e : OsError} (h : mkdir path tree = ⟨.error e, tree, []⟩)
    (hvalue : e ≠ .value) :
    makeLast existOk path tree =
      if existOk && tree.isdir path then ⟨.ok (), tree, []⟩ else ⟨.error e, tree, []⟩ := by
  rw [makeLast, bind_ok (attempt_run h)]
  cases e <;> first | exact absurd rfl hvalue | (simp only [tree_bind]; split <;> simp)

variable (h : tree.place true above = .found loc .dir) (hdot : name ≠ ".") (hparent : name ≠ "..")
include h hdot hparent

lemma makeLast_fresh (hfree : tree.entry (loc ++ [name]) = none) (hname : legalName name = true) :
    makeLast existOk (above ++ [name]) tree =
      ⟨.ok (), tree.put loc name .dir, [.create (loc ++ [name])]⟩ := by
  apply makeLast_ok
  rw [mkdir, tree_bind, place_snoc h hdot hparent, hfree]
  simp only [hname, if_true]
  rfl

lemma makeLast_illegal (hfree : tree.entry (loc ++ [name]) = none) (hname : legalName name = false) :
    makeLast existOk (above ++ [name]) tree = ⟨.error .value, tree, []⟩ := by
  have hmkdir : mkdir (above ++ [name]) tree = ⟨.error .value, tree, []⟩ := by
    rw [mkdir, tree_bind, place_snoc h hdot hparent, hfree]
    simp [hname]
  rw [makeLast, bind_ok (attempt_run hmkdir)]
  simp

lemma makeLast_there {entry : LinkEntry δ} (hentry : tree.entry (loc ++ [name]) = some entry) :
    makeLast existOk (above ++ [name]) tree =
      if existOk && tree.isdir (above ++ [name]) then ⟨.ok (), tree, []⟩
      else ⟨.error .fileExists, tree, []⟩ := by
  apply makeLast_error
  · rw [mkdir, tree_bind, place_snoc h hdot hparent, hentry]
    rfl
  · simp

omit h hdot hparent in
lemma makeLast_failed (h : ∀ loc, tree.place true above ≠ .found loc .dir) :
    ∃ e, makeLast existOk (above ++ [name]) tree = ⟨.error e, tree, []⟩ := by
  obtain ⟨e, he⟩ := place_snoc_failed false name h
  obtain ⟨e', he'⟩ := place_snoc_failed true name h
  have hmkdir : mkdir (above ++ [name]) tree = ⟨.error e, tree, []⟩ := by
    rw [mkdir, tree_bind, he]
    rfl
  by_cases hvalue : e = .value
  · refine ⟨.value, ?_⟩
    subst hvalue
    rw [makeLast, bind_ok (attempt_run hmkdir)]
    simp
  · refine ⟨e, ?_⟩
    rw [makeLast_error hmkdir hvalue, if_neg]
    simp [isdir, he']

end Last

lemma makedirs_exists (h : tree.pathExists above.reverse = true) :
    makedirs existOk (name :: above) tree = makeLast existOk (above.reverse ++ [name]) tree := by
  rw [makedirs, tree_bind, if_pos h]

lemma makedirs_on {above : List String} {run : OsRun δ Unit}
    (hexists : tree.pathExists above.reverse = false) (hrun : makedirs existOk above tree = run)
    (h : run.result = .ok () ∨ run.result = .error .fileExists) :
    makedirs existOk (name :: above) tree =
      { makeLast existOk (above.reverse ++ [name]) run.tree with
        effects := run.effects ++ (makeLast existOk (above.reverse ++ [name]) run.tree).effects } := by
  rw [makedirs, tree_bind, if_neg (by rw [hexists]; decide),
    bind_ok (attempt_run hrun)]
  rcases h with h | h <;> rw [h]

lemma makedirs_stop {above : List String} {run : OsRun δ Unit} {e : OsError}
    (hexists : tree.pathExists above.reverse = false) (hrun : makedirs existOk above tree = run)
    (h : run.result = .error e) (he : e ≠ .fileExists) :
    makedirs existOk (name :: above) tree = run := by
  rw [makedirs, tree_bind, if_neg (by rw [hexists]; decide),
    bind_ok (attempt_run hrun)]
  rw [h]
  cases e <;> first | exact absurd rfl he | simp [← h]

/-- A step that makes nothing and fails. -/
lemma makes_failed {expected : List Loc × Option Loc} {made : List Loc} {run : OsRun δ Unit}
    (hexpected : expected = (made, none)) (heffects : run.effects = made.map .create)
    (hmade : Made tree made run.tree) (hresult : ∃ e, run.result = .error e)
    (hleads : ∀ loc, run.tree.place true path ≠ .found loc .dir) :
    Makes tree existOk path expected run := by
  subst hexpected
  exact ⟨heffects, hmade, nofun, nofun, nofun, fun _ => ⟨hresult, hleads⟩⟩

/-- A step that makes a directory. -/
lemma makes_fresh {expected : List Loc × Option Loc} {made : List Loc} {tree' : LinkTree δ}
    {run : OsRun δ Unit} (hmade : Made tree made tree') (hloc : tree'.place true above = .found loc .dir)
    (hlength : ∀ other ∈ made, other.length ≤ loc.length)
    (hfree : tree'.entry (loc ++ [name]) = none) (hname : legalName name = true)
    (hexpected : expected = (made ++ [loc ++ [name]], some (loc ++ [name])))
    (hrun : run = ⟨.ok (), tree'.put loc name .dir, made.map .create ++ [.create (loc ++ [name])]⟩) :
    Makes tree existOk (above ++ [name]) expected run := by
  subst hexpected hrun
  have hdir : tree'.entry loc = some .dir := by
    have hsound := place_sound tree' true above
    rw [hloc] at hsound
    exact hsound.1
  have hnot : tree'.entry (loc ++ [name]) ≠ some .dir := by
    rw [hfree]
    simp
  have hput := @put_entry _ _ _ _ .dir hdir hname hnot
  have hlegal := hname
  simp only [legalName, decide_not, Bool.and_eq_true, Bool.not_eq_true', decide_eq_false_iff_not]
    at hlegal
  refine ⟨by simp, hmade.snoc hdir hname hfree, ?_, fun _ _ _ => rfl, ?_, nofun⟩
  · intro other hother
    obtain rfl := Option.some.inj hother
    obtain ⟨entry', hplace, hkind⟩ := place_grows (@put_grows _ _ _ _ .dir hdir hname hfree) hloc
    have hentry' : entry' = .dir := by
      cases entry' with
      | dir => rfl
      | file content => exact hkind.elim
      | link target => exact hkind.elim
    subst hentry'
    refine ⟨?_, ?_, fun _ => by simp⟩
    · rw [place_snoc_plain hplace hlegal.1.1.2 hlegal.1.2, hput, if_pos rfl]
      rw [hput, if_pos rfl]
      simp
    · intro other hmem
      rcases List.mem_append.mp hmem with hmem | hmem
      · have := hlength other hmem
        simp only [List.length_append, List.length_singleton]
        omega
      · rw [List.mem_singleton.mp hmem]
  · intro _ _ _ hempty
    simp at hempty

/-- A step on a directory that is there. -/
lemma makes_there {expected : List Loc × Option Loc} {run : OsRun δ Unit}
    (hloc : tree.place true path = .found loc .dir) (hexpected : expected = ([], some loc))
    (hrun : run = if existOk then ⟨.ok (), tree, []⟩ else ⟨.error .fileExists, tree, []⟩) :
    Makes tree existOk path expected run := by
  subst hexpected hrun
  refine ⟨?_, ?_, ?_, ?_, ?_, nofun⟩
  · cases existOk <;> rfl
  · cases existOk <;> exact Made.none tree
  · intro other hother
    obtain rfl := Option.some.inj hother
    refine ⟨?_, by simp, fun hempty => absurd rfl hempty⟩
    cases existOk <;> exact hloc
  · intro _ _ hok
    rcases hok with rfl | hempty
    · rfl
    · exact absurd rfl hempty
  · intro _ _ hno _
    subst hno
    rfl

/-- A step behind what is no directory. -/
lemma makes_blocked {expected : List Loc × Option Loc} {made : List Loc} {tree' : LinkTree δ}
    {run : OsRun δ Unit} (hmade : Made tree made tree')
    (hleads : ∀ loc, tree'.place true above ≠ .found loc .dir) (hexpected : expected = (made, none))
    (hrun : run = { makeLast existOk (above ++ [name]) tree' with
      effects := made.map .create ++ (makeLast existOk (above ++ [name]) tree').effects }) :
    Makes tree existOk (above ++ [name]) expected run := by
  obtain ⟨e, he⟩ := @makeLast_failed _ _ existOk _ name hleads
  obtain ⟨e', he'⟩ := place_snoc_failed true name hleads
  rw [he] at hrun
  subst hrun
  apply makes_failed hexpected (by simp) hmade ⟨_, rfl⟩
  intro other hother
  rw [he'] at hother
  cases hother

lemma isdir_iff : tree.isdir path = true ↔ ∃ loc, tree.place true path = .found loc .dir := by
  rw [isdir]
  split
  · rename_i loc hloc
    exact iff_of_true rfl ⟨loc, hloc⟩
  · rename_i hno
    exact iff_of_false Bool.false_ne_true fun ⟨loc, hloc⟩ => hno loc hloc

/-- A step below a directory that is there. -/
lemma makes_below (hplace : tree.place true above.reverse = .found loc .dir) (hdot : name ≠ ".")
    (hparent : name ≠ "..") :
    Makes tree existOk (above.reverse ++ [name]) (tree.missing (name :: above))
      (makedirs existOk (name :: above) tree) := by
  rw [makedirs_exists (by rw [pathExists, hplace]), missing, hplace]
  simp only
  cases hentry : tree.entry (loc ++ [name]) with
  | none =>
      cases hname : legalName name with
      | true =>
          apply makes_fresh (Made.none tree) hplace (by simp) hentry hname
          · rfl
          · exact makeLast_fresh hplace hdot hparent hentry hname
      | false =>
          rw [makeLast_illegal hplace hdot hparent hentry hname]
          apply @makes_failed _ _ _ _ _ [] _ (by simp) rfl (Made.none tree) ⟨_, rfl⟩
          intro other hother
          rw [place_snoc_plain hplace hdot hparent (by rw [hentry]; simp), hentry] at hother
          cases hother
  | some entry =>
      have hlast := @makeLast_there _ _ existOk _ _ _ hplace hdot hparent _ hentry
      by_cases hdir : tree.isdir (above.reverse ++ [name]) = true
      · obtain ⟨loc', hloc'⟩ := isdir_iff.mp hdir
        rw [hdir, Bool.and_true] at hlast
        apply makes_there hloc' _ hlast
        simp only [hloc']
      · have hno : ∀ loc', tree.place true (above.reverse ++ [name]) ≠ .found loc' .dir :=
          fun loc' hloc' => hdir (isdir_iff.mpr ⟨loc', hloc'⟩)
        rw [Bool.not_eq_true] at hdir
        rw [hdir, Bool.and_false, if_neg Bool.false_ne_true] at hlast
        rw [hlast]
        apply @makes_failed _ _ _ _ _ [] _ ?_ rfl (Made.none tree) ⟨_, rfl⟩ hno
        cases hfound : tree.place true (above.reverse ++ [name]) with
        | found loc' entry' =>
            cases entry' with
            | dir => exact absurd hfound (hno loc')
            | file content => rfl
            | link target => rfl
        | absent dir last => rfl
        | failed e => rfl

/-- A step below directories that are missing themselves. -/
lemma makes_missing (hdot : name ≠ ".") (hparent : name ≠ "..")
    (hexists : tree.pathExists above.reverse = false)
    (ih : Makes tree existOk above.reverse (tree.missing above) (makedirs existOk above tree)) :
    Makes tree existOk (above.reverse ++ [name])
      (match tree.missing above with
        | (made, none) => (made, none)
        | (made, some loc) =>
            if legalName name then (made ++ [loc ++ [name]], some (loc ++ [name]))
            else (made, none))
      (makedirs existOk (name :: above) tree) := by
  rcases hmissing : tree.missing above with ⟨made, last⟩
  rw [hmissing] at ih
  cases last with
  | none =>
      simp only
      obtain ⟨⟨e, he⟩, hleads⟩ := ih.fails rfl
      by_cases hignored : e = .fileExists
      · rw [makedirs_on hexists rfl (Or.inr (by rw [he, hignored])), ih.effects]
        exact makes_blocked ih.made hleads rfl rfl
      · rw [makedirs_stop hexists rfl he hignored]
        obtain ⟨e', he'⟩ := place_snoc_failed true name hleads
        apply makes_failed rfl ih.effects ih.made ⟨e, he⟩
        intro other hother
        rw [he'] at hother
        cases hother
  | some loc =>
      obtain ⟨hplace, hlength, -⟩ := ih.leads loc rfl
      have hmade : made ≠ [] := by
        intro hempty
        obtain ⟨_, hthere, -⟩ := place_grows (ih.made.shrinks hempty) hplace
        rw [pathExists, hthere] at hexists
        cases hexists
      have hfree := ih.free rfl hmade name
      rw [makedirs_on hexists rfl (Or.inl (ih.ok loc rfl (Or.inr hmade))), ih.effects]
      cases hname : legalName name with
      | true =>
          apply makes_fresh ih.made hplace hlength hfree hname
          · simp
          · rw [makeLast_fresh hplace hdot hparent hfree hname]
      | false =>
          rw [makeLast_illegal hplace hdot hparent hfree hname]
          refine @makes_failed _ _ _ _ _ made _ (by simp) (by simp) ih.made ⟨_, rfl⟩ ?_
          intro other hother
          rw [place_snoc_plain hplace hdot hparent (by rw [hfree]; simp), hfree] at hother
          cases hother

/-- What `makedirs` does on a path of plain names, whatever links stand on it. -/
theorem makedirs_run (tree : LinkTree δ) (existOk : Bool) (path : List String)
    (hplain : ∀ name ∈ path, name ≠ "." ∧ name ≠ "..") :
    Makes tree existOk path.reverse (tree.missing path) (makedirs existOk path tree) := by
  induction path with
  | nil =>
      have hplace : tree.place true [] = .found [] .dir := by
        simp [place, walk, advance, tree.top]
      apply makes_there hplace rfl
      cases existOk <;> rfl
  | cons name above ih =>
      obtain ⟨hdot, hparent⟩ := hplain name (List.mem_cons_self ..)
      specialize ih fun other hmem => hplain other (List.mem_cons_of_mem _ hmem)
      rw [List.reverse_cons]
      cases hplace : tree.place true above.reverse with
      | found loc entry =>
          by_cases hentry : entry = .dir
          · subst hentry
            exact makes_below hplace hdot hparent
          · rw [makedirs_exists (by rw [pathExists, hplace])]
            apply @makes_blocked _ _ _ _ _ _ [] tree _ (Made.none tree)
            · intro other hother
              rw [hplace] at hother
              cases hother
              exact hentry rfl
            · rw [missing, hplace]
              cases entry with
              | dir => exact absurd rfl hentry
              | file content => rfl
              | link target => rfl
            · rfl
      | absent dir last =>
          rw [missing, hplace]
          exact makes_missing hdot hparent (by rw [pathExists, hplace]) ih
      | failed e =>
          rw [missing, hplace]
          exact makes_missing hdot hparent (by rw [pathExists, hplace]) ih

/-- Nothing is missing on a path to a directory. -/
lemma missing_found {path : List String} (hplain : ∀ name ∈ path, name ≠ "." ∧ name ≠ "..")
    (h : tree.place true path.reverse = .found loc .dir) :
    tree.missing path = ([], some loc) := by
  cases path with
  | nil =>
      have hplace : tree.place true [] = .found [] .dir := by
        simp [place, walk, advance, tree.top]
      rw [List.reverse_nil, hplace] at h
      cases h
      rfl
  | cons name above =>
      rw [List.reverse_cons] at h
      obtain ⟨hdot, hparent⟩ := hplain name (List.mem_cons_self ..)
      by_cases habove : ∃ dir, tree.place true above.reverse = .found dir .dir
      · obtain ⟨dir, hdir⟩ := habove
        rw [missing, hdir]
        simp only
        cases hentry : tree.entry (dir ++ [name]) with
        | none =>
            rw [place_snoc_plain hdir hdot hparent (by rw [hentry]; simp), hentry] at h
            cases h
        | some entry => simp only [h]
      · obtain ⟨e, he⟩ := place_snoc_failed true name fun dir hdir => habove ⟨dir, hdir⟩
        rw [he] at h
        cases h

end Os

end Imece.Lib
