import Mathlib.Data.List.Induction
import Mathlib.Data.String.Basic

/-!
# File systems with symbolic links

What stands at each place of a file system, and how the system walks a path: a link on the way is
followed, a link at the end where the walk asks for it. The parent of an entry is a directory.
-/
namespace Imece.Lib

/-- The names that lead from the top to a place, through directories only. -/
abbrev Loc := List String

/-- The path that a link holds. -/
structure LinkTarget where
  absolute : Bool
  parts : List String
deriving DecidableEq

inductive LinkEntry (δ : Type) where
  | file (content : δ)
  | dir
  | link (target : LinkTarget)

/-- A name that an entry may have. -/
def legalName (name : String) : Bool :=
  name ≠ "" && name ≠ "." && name ≠ ".." && name.toList.all fun c => c ≠ '/' && c ≠ Char.ofNat 0

structure LinkTree (δ : Type) where
  entry : Loc → Option (LinkEntry δ)
  top : entry [] = some .dir
  above : ∀ loc name, entry (loc ++ [name]) ≠ none → entry loc = some .dir
  legal : ∀ loc name, entry (loc ++ [name]) ≠ none → legalName name = true

/-- Why a call of the system fails. -/
inductive OsError where
  | fileNotFound
  | fileExists
  | notADirectory
  | isADirectory
  | loop
  | invalid
  | value
deriving DecidableEq, Repr

/-- Where a walk over directories stops. -/
inductive Stop where
  | arrived (loc : Loc)
  | missing (loc : Loc) (rest : List String)
  | notDir (rest : List String)
  | link (dir : Loc) (name : String) (target : LinkTarget) (rest : List String)

/-- What a path leads to. -/
inductive Place (δ : Type) where
  | found (loc : Loc) (entry : LinkEntry δ)
  | absent (dir : Loc) (name : String)
  | failed (error : OsError)

/-- How many links the system follows on one walk. -/
def maxLinks : ℕ := 40

namespace LinkTree

variable {δ : Type}

section Walking

variable (tree : LinkTree δ)

/-- The walk from a directory up to the first link. -/
@[grind =] def advance : Loc → List String → Stop
  | dir, [] => .arrived dir
  | dir, part :: rest =>
      if part = "." then advance dir rest
      else if part = ".." then advance dir.dropLast rest
      else
        match tree.entry (dir ++ [part]) with
        | none => .missing dir (part :: rest)
        | some .dir => advance (dir ++ [part]) rest
        | some (.file _) => if rest = [] then .arrived (dir ++ [part]) else .notDir rest
        | some (.link target) => .link dir part target rest

/-- The walk from a directory. The last part is followed if it is a link and `follow` says so. -/
@[grind =] def walk (follow : Bool) : ℕ → Loc → List String → Place δ
  | 0, _, _ => .failed .loop
  | links + 1, dir, parts =>
      match tree.advance dir parts with
      | .arrived loc =>
          match tree.entry loc with
          | some entry => .found loc entry
          | none => .failed .fileNotFound
      | .missing dir [name] => .absent dir name
      | .missing _ _ => .failed .fileNotFound
      | .notDir _ => .failed .notADirectory
      | .link dir name target rest =>
          if rest = [] ∧ follow = false then .found (dir ++ [name]) (.link target)
          else walk follow links (if target.absolute then [] else dir) (target.parts ++ rest)

/-- What an absolute path leads to. -/
def place (follow : Bool) (path : List String) : Place δ := tree.walk follow (maxLinks + 1) [] path

end Walking

/-- Entries of one kind; links also have the same target. -/
def SameKind : LinkEntry δ → LinkEntry δ → Prop
  | .file _, .file _ => True
  | .dir, .dir => True
  | .link target, .link target' => target = target'
  | _, _ => False

/-- The entries stay, up to the contents of files. -/
def Grows (tree tree' : LinkTree δ) : Prop :=
  ∀ loc entry, tree.entry loc = some entry → ∃ entry', tree'.entry loc = some entry' ∧
    SameKind entry entry'

section Places

variable {tree tree' : LinkTree δ} {follow : Bool}

lemma entry_dropLast {dir : Loc} (h : tree.entry dir = some .dir) :
    tree.entry dir.dropLast = some .dir := by
  induction dir using List.reverseRecOn with
  | nil => exact h
  | append_singleton dir name _ =>
      rw [List.dropLast_concat]
      exact tree.above dir name (by simp [h])

/-- What a stop says about the tree. -/
def Stop.Sound (tree : LinkTree δ) : Stop → Prop
  | .arrived loc => ∃ entry, tree.entry loc = some entry ∧ ∀ target, entry ≠ .link target
  | .missing dir rest => tree.entry dir = some .dir ∧ ∃ name more, rest = name :: more ∧
      name ≠ "." ∧ name ≠ ".." ∧ tree.entry (dir ++ [name]) = none
  | .notDir _ => True
  | .link dir name target _ => tree.entry dir = some .dir ∧
      tree.entry (dir ++ [name]) = some (.link target)

lemma advance_sound {dir : Loc} (h : tree.entry dir = some .dir) (parts : List String) :
    Stop.Sound tree (tree.advance dir parts) := by
  induction parts generalizing dir with
  | nil => exact ⟨.dir, h, nofun⟩
  | cons part rest ih =>
      rw [advance]
      split
      · exact ih h
      split
      · exact ih (entry_dropLast h)
      rename_i hdot hparent
      split
      · rename_i hnone
        exact ⟨h, part, rest, rfl, hdot, hparent, hnone⟩
      · rename_i hdir
        exact ih hdir
      · rename_i content hfile
        split
        · exact ⟨_, hfile, nofun⟩
        · trivial
      · rename_i target hlink
        exact ⟨h, hlink⟩

/-- What a place says about the tree. -/
def Place.Sound (tree : LinkTree δ) (follow : Bool) : Place δ → Prop
  | .found loc entry => tree.entry loc = some entry ∧
      (follow = true → ∀ target, entry ≠ .link target)
  | .absent dir name => tree.entry dir = some .dir ∧ name ≠ "." ∧ name ≠ ".." ∧
      tree.entry (dir ++ [name]) = none
  | .failed _ => True

theorem walk_sound {links : ℕ} {dir : Loc} (h : tree.entry dir = some .dir)
    (parts : List String) : Place.Sound tree follow (tree.walk follow links dir parts) := by
  induction links generalizing dir parts with
  | zero => trivial
  | succ links ih =>
      have hstop := advance_sound h parts
      rw [walk]
      split
      · rename_i loc hloc
        rw [hloc] at hstop
        obtain ⟨entry, hentry, hlink⟩ := hstop
        rw [hentry]
        exact ⟨hentry, fun _ => hlink⟩
      · rename_i missing name hmissing
        rw [hmissing] at hstop
        obtain ⟨hdir, _, _, hrest, hdot, hparent, hnone⟩ := hstop
        obtain ⟨rfl, rfl⟩ := List.cons.inj hrest
        exact ⟨hdir, hdot, hparent, hnone⟩
      · trivial
      · trivial
      · rename_i dir' name target rest hlink
        rw [hlink] at hstop
        obtain ⟨hdir, hentry⟩ := hstop
        split
        · rename_i hlast
          exact ⟨hentry, fun hfollow => by rw [hlast.2] at hfollow; cases hfollow⟩
        · split
          · exact ih tree.top _
          · exact ih hdir _

theorem place_sound (tree : LinkTree δ) (follow : Bool) (path : List String) :
    Place.Sound tree follow (tree.place follow path) :=
  walk_sound tree.top path

lemma advance_grows (h : Grows tree tree') {dir : Loc} {parts : List String} {stop : Stop}
    (hstop : tree.advance dir parts = stop) (hmissing : ∀ dir rest, stop ≠ .missing dir rest) :
    tree'.advance dir parts = stop := by
  induction parts generalizing dir with
  | nil => exact hstop
  | cons part rest ih =>
      rw [advance] at hstop ⊢
      split at hstop
      · rename_i hdot
        rw [if_pos hdot]
        exact ih hstop
      rename_i hdot
      rw [if_neg hdot]
      split at hstop
      · rename_i hparent
        rw [if_pos hparent]
        exact ih hstop
      rename_i hparent
      rw [if_neg hparent]
      split at hstop
      · exact absurd hstop.symm (hmissing _ _)
      · rename_i hdir
        obtain ⟨entry', hentry', hkind⟩ := h _ _ hdir
        cases entry' with
        | dir =>
            rw [hentry']
            exact ih hstop
        | file content => exact hkind.elim
        | link target => exact hkind.elim
      · rename_i content hfile
        obtain ⟨entry', hentry', hkind⟩ := h _ _ hfile
        cases entry' with
        | file content' =>
            rw [hentry']
            exact hstop
        | dir => exact hkind.elim
        | link target => exact hkind.elim
      · rename_i target hlink
        obtain ⟨entry', hentry', hkind⟩ := h _ _ hlink
        cases entry' with
        | link target' =>
            rw [hentry']
            cases hkind
            exact hstop
        | dir => exact hkind.elim
        | file content => exact hkind.elim

/-- What a path leads to it still leads to after the tree has grown. -/
theorem walk_grows (h : Grows tree tree') {links : ℕ} {dir : Loc} {parts : List String} {loc : Loc}
    {entry : LinkEntry δ} (hwalk : tree.walk follow links dir parts = .found loc entry) :
    ∃ entry', tree'.walk follow links dir parts = .found loc entry' ∧ SameKind entry entry' := by
  induction links generalizing dir parts with
  | zero => cases hwalk
  | succ links ih =>
      rw [walk] at hwalk ⊢
      split at hwalk
      · rename_i loc' hloc
        rw [advance_grows h hloc nofun]
        split at hwalk
        · rename_i found hfound
          cases hwalk
          obtain ⟨entry', hentry', hkind⟩ := h _ _ hfound
          refine ⟨entry', ?_, hkind⟩
          simp only [hentry']
        · cases hwalk
      · cases hwalk
      · cases hwalk
      · cases hwalk
      · rename_i dir' name target rest hlink
        rw [advance_grows h hlink nofun]
        simp only at hwalk ⊢
        split at hwalk
        · rename_i hlast
          cases hwalk
          rw [if_pos hlast]
          exact ⟨_, rfl, rfl⟩
        · rename_i hlast
          rw [if_neg hlast]
          exact ih hwalk

/-- The walk over a longer path goes on where the walk over its front stops. -/
lemma advance_append {dir : Loc} (h : tree.entry dir = some .dir) (parts : List String)
    (name : String) :
    tree.advance dir (parts ++ [name]) =
      match tree.advance dir parts with
      | .arrived loc =>
          match tree.entry loc with
          | some .dir => tree.advance loc [name]
          | _ => .notDir [name]
      | .missing loc rest => .missing loc (rest ++ [name])
      | .notDir rest => .notDir (rest ++ [name])
      | .link loc link target rest => .link loc link target (rest ++ [name]) := by
  induction parts generalizing dir with
  | nil =>
      rw [List.nil_append]
      simp only [advance.eq_1, h]
  | cons part rest ih =>
      rw [List.cons_append, advance, advance]
      split
      · exact ih h
      split
      · exact ih (entry_dropLast h)
      cases hentry : tree.entry (dir ++ [part]) with
      | none => rfl
      | some entry =>
          cases entry with
          | dir => exact ih hentry
          | link target => rfl
          | file content =>
              cases rest with
              | nil => simp [hentry]
              | cons next rest => simp

variable {parts path : List String} {name : String} {dir : Loc} {loc : Loc} {links : ℕ}

/-- A walk on from a directory. -/
lemma walk_snoc_dir (hdir : tree.entry dir = some .dir)
    (h : tree.walk true links dir parts = .found loc .dir) (hdot : name ≠ ".")
    (hparent : name ≠ "..")
    (hlink : follow = false ∨ ∀ target, tree.entry (loc ++ [name]) ≠ some (.link target)) :
    tree.walk follow links dir (parts ++ [name]) =
      match tree.entry (loc ++ [name]) with
      | none => .absent loc name
      | some entry => .found (loc ++ [name]) entry := by
  induction links generalizing dir parts with
  | zero => cases h
  | succ links ih =>
      have hsound := advance_sound hdir parts
      rw [walk, advance_append hdir]
      rw [walk] at h
      cases hstop : tree.advance dir parts with
      | arrived stop =>
          rw [hstop] at h
          simp only at h
          split at h
          · rename_i found hfound
            cases h
            simp only [hfound]
            rw [advance, if_neg hdot, if_neg hparent]
            cases hentry : tree.entry (loc ++ [name]) with
            | none => rfl
            | some entry =>
                cases entry with
                | file content => simp [hentry]
                | dir => simp [advance, hentry]
                | link target =>
                    rcases hlink with rfl | hlink
                    · simp
                    · exact absurd hentry (hlink target)
          · cases h
      | missing stop rest =>
          rw [hstop] at h
          cases rest with
          | nil => cases h
          | cons first rest => cases rest <;> cases h
      | notDir rest =>
          rw [hstop] at h
          cases h
      | link stop link target rest =>
          rw [hstop] at h hsound
          simp only [Bool.true_eq_false, and_false, if_false] at h
          simp only
          rw [if_neg (by simp), ← List.append_assoc]
          split
          · rename_i habsolute
            rw [if_pos habsolute] at h
            exact ih tree.top h
          · rename_i habsolute
            rw [if_neg habsolute] at h
            exact ih hsound.1 h

/-- Behind a path that leads to no directory there is nothing. -/
lemma walk_snoc_failed (hdir : tree.entry dir = some .dir)
    (h : ∀ loc, tree.walk true links dir parts ≠ .found loc .dir) :
    ∃ e, tree.walk follow links dir (parts ++ [name]) = .failed e := by
  induction links generalizing dir parts with
  | zero => exact ⟨_, rfl⟩
  | succ links ih =>
      have hsound := advance_sound hdir parts
      rw [walk, advance_append hdir]
      rw [walk] at h
      cases hstop : tree.advance dir parts with
      | arrived stop =>
          rw [hstop] at h hsound
          obtain ⟨entry, hentry, -⟩ := hsound
          simp only [hentry] at h ⊢
          cases entry with
          | dir => exact absurd rfl (h stop)
          | file content => exact ⟨_, rfl⟩
          | link target => exact ⟨_, rfl⟩
      | missing stop rest =>
          rw [hstop] at hsound
          obtain ⟨-, first, more, rfl, -⟩ := hsound
          cases more <;> exact ⟨_, rfl⟩
      | notDir rest => exact ⟨_, rfl⟩
      | link stop link target rest =>
          rw [hstop] at h hsound
          simp only [Bool.true_eq_false, and_false, if_false] at h
          simp only
          rw [if_neg (by simp), ← List.append_assoc]
          split
          · rename_i habsolute
            rw [if_pos habsolute] at h
            exact ih tree.top h
          · rename_i habsolute
            rw [if_neg habsolute] at h
            exact ih hsound.1 h

lemma place_snoc (h : tree.place true path = .found loc .dir) (hdot : name ≠ ".")
    (hparent : name ≠ "..") :
    tree.place false (path ++ [name]) =
      match tree.entry (loc ++ [name]) with
      | none => .absent loc name
      | some entry => .found (loc ++ [name]) entry :=
  walk_snoc_dir tree.top h hdot hparent (Or.inl rfl)

lemma place_snoc_plain (h : tree.place true path = .found loc .dir) (hdot : name ≠ ".")
    (hparent : name ≠ "..") (hlink : ∀ target, tree.entry (loc ++ [name]) ≠ some (.link target)) :
    tree.place true (path ++ [name]) =
      match tree.entry (loc ++ [name]) with
      | none => .absent loc name
      | some entry => .found (loc ++ [name]) entry :=
  walk_snoc_dir tree.top h hdot hparent (Or.inr hlink)

lemma place_snoc_failed (follow : Bool) (name : String)
    (h : ∀ loc, tree.place true path ≠ .found loc .dir) :
    ∃ e, tree.place follow (path ++ [name]) = .failed e :=
  walk_snoc_failed tree.top h

lemma place_grows (h : Grows tree tree') {entry : LinkEntry δ}
    (hplace : tree.place follow path = .found loc entry) :
    ∃ entry', tree'.place follow path = .found loc entry' ∧ SameKind entry entry' :=
  walk_grows h hplace

end Places

/-- Nothing but the top. -/
def bare : LinkTree δ where
  entry loc := if loc = [] then some .dir else none
  top := rfl
  above := by simp
  legal := by simp

section Updates

variable (tree : LinkTree δ)

def isDir (loc : Loc) : Bool :=
  match tree.entry loc with
  | some .dir => true
  | _ => false

lemma isDir_iff {loc : Loc} : tree.isDir loc = true ↔ tree.entry loc = some .dir := by
  unfold isDir
  split <;> simp_all

/-- A directory, or a file with its contents, in a directory. -/
def put (dir : Loc) (name : String) (entry : LinkEntry δ) : LinkTree δ :=
  if h : tree.isDir dir = true ∧ legalName name = true ∧ tree.isDir (dir ++ [name]) = false then
    { entry := fun loc => if loc = dir ++ [name] then some entry else tree.entry loc
      top := by
        rw [if_neg (by simp)]
        exact tree.top
      above := by
        have hdir := tree.isDir_iff.mp h.1
        intro loc below hentry
        have hloc : tree.entry loc = some .dir := by
          split at hentry
          · rename_i hsame
            rw [(List.append_inj' hsame rfl).1]
            exact hdir
          · exact tree.above loc below hentry
        rw [if_neg ?_, hloc]
        rintro rfl
        rw [tree.isDir_iff.mpr hloc] at h
        exact Bool.noConfusion h.2.2
      legal := by
        intro loc below hentry
        split at hentry
        · rename_i hsame
          rw [List.singleton_inj.mp (List.append_inj' hsame rfl).2]
          exact h.2.1
        · exact tree.legal loc below hentry }
  else tree

/-- Without an entry and all that is below it. -/
def remove (loc : Loc) : LinkTree δ :=
  if h : loc = [] then tree
  else
    { entry := fun other => if loc <+: other then none else tree.entry other
      top := by
        rw [if_neg (by simpa using h)]
        exact tree.top
      above := by
        intro other below hentry
        split at hentry
        · exact absurd rfl hentry
        · rename_i hother
          rw [if_neg fun hfront => hother (hfront.trans (List.prefix_append _ _))]
          exact tree.above other below hentry
      legal := by
        intro other below hentry
        split at hentry
        · exact absurd rfl hentry
        · exact tree.legal other below hentry }

/-- An entry and all that is below it at another name. -/
def move (source dir : Loc) (name : String) : LinkTree δ :=
  if h : source ≠ [] ∧ tree.isDir dir = true ∧ legalName name = true ∧ ¬ source <+: dir then
    { entry := fun loc =>
        if dir ++ [name] <+: loc then tree.entry (source ++ loc.drop (dir.length + 1))
        else if source <+: loc then none
        else tree.entry loc
      top := by
        rw [if_neg (by simp), if_neg (by simpa using h.1)]
        exact tree.top
      above := by
        intro loc below hentry
        by_cases hdest : dir ++ [name] <+: loc
        · have hlength : dir.length + 1 ≤ loc.length := by
            have := hdest.length_le
            simpa using this
          rw [if_pos (hdest.trans (List.prefix_append _ _)),
            List.drop_append_of_le_length hlength, ← List.append_assoc] at hentry
          rw [if_pos hdest]
          exact tree.above _ below hentry
        · rw [if_neg hdest]
          by_cases hwhole : dir ++ [name] <+: loc ++ [below]
          · have hsame : dir ++ [name] = loc ++ [below] :=
              (List.prefix_concat_iff.mp hwhole).resolve_right hdest
            obtain ⟨rfl, -⟩ := List.append_inj' hsame rfl
            rw [if_neg h.2.2.2]
            exact tree.isDir_iff.mp h.2.1
          · rw [if_neg hwhole] at hentry
            split at hentry
            · exact absurd rfl hentry
            · rename_i hsource
              rw [if_neg fun hfront => hsource (hfront.trans (List.prefix_append _ _))]
              exact tree.above loc below hentry
      legal := by
        intro loc below hentry
        split at hentry
        · rename_i hdest
          rcases List.prefix_concat_iff.mp hdest with hsame | hdest
          · rw [← List.singleton_inj.mp (List.append_inj' hsame rfl).2]
            exact h.2.2.1
          · have hlength : dir.length + 1 ≤ loc.length := by
              have := hdest.length_le
              simpa using this
            rw [List.drop_append_of_le_length hlength, ← List.append_assoc] at hentry
            exact tree.legal _ below hentry
        · split at hentry
          · exact absurd rfl hentry
          · exact tree.legal loc below hentry }
  else tree

end Updates

section Updated

variable {tree : LinkTree δ} {dir : Loc} {name : String} {entry : LinkEntry δ}

lemma put_entry (hdir : tree.entry dir = some .dir) (hname : legalName name = true)
    (hfree : tree.entry (dir ++ [name]) ≠ some .dir) (loc : Loc) :
    (tree.put dir name entry).entry loc =
      if loc = dir ++ [name] then some entry else tree.entry loc := by
  have hnot : tree.isDir (dir ++ [name]) = false := by
    rw [← Bool.not_eq_true, isDir_iff]
    exact hfree
  rw [put, dif_pos ⟨tree.isDir_iff.mpr hdir, hname, hnot⟩]

/-- A new entry disturbs no other. -/
lemma put_grows (hdir : tree.entry dir = some .dir) (hname : legalName name = true)
    (hfree : tree.entry (dir ++ [name]) = none) : Grows tree (tree.put dir name entry) := by
  intro loc found hfound
  rw [put_entry hdir hname (by rw [hfree]; simp)]
  have hother : loc ≠ dir ++ [name] := by
    rintro rfl
    rw [hfree] at hfound
    cases hfound
  rw [if_neg hother]
  refine ⟨found, hfound, ?_⟩
  cases found <;> trivial

lemma put_file_grows {old content : δ} (hfile : tree.entry (dir ++ [name]) = some (.file old)) :
    Grows tree (tree.put dir name (.file content)) := by
  have hsome : tree.entry (dir ++ [name]) ≠ none := by
    rw [hfile]
    simp
  intro loc found hfound
  rw [put_entry (tree.above dir name hsome) (tree.legal dir name hsome) (by rw [hfile]; simp)]
  by_cases hloc : loc = dir ++ [name]
  · subst hloc
    rw [hfile] at hfound
    cases hfound
    exact ⟨_, if_pos rfl, trivial⟩
  · rw [if_neg hloc]
    refine ⟨found, hfound, ?_⟩
    cases found <;> trivial

lemma Grows.refl (tree : LinkTree δ) : Grows tree tree := by
  intro loc found hfound
  refine ⟨found, hfound, ?_⟩
  cases found <;> trivial

end Updated

end LinkTree

end Imece.Lib
