import Imece.CollabRuntime.Models
import Imece.Lib.PathTree
import Mathlib.Data.Set.Basic

/-!
# Overlapping scopes

A scope stands for a set of paths: the file it names, or every path below the directory it
names. Two scopes overlap if these sets meet, and two active tasks conflict if scopes of
theirs overlap.
-/
namespace Imece.CollabRuntime

section Scopes

/-- `scope.endswith("/") and text.startswith(scope)` -/
def covers (scope text : String) : Bool :=
  namesDirectory scope.toList && scope.toList.isPrefixOf text.toList

def scopesOverlap (a b : String) : Bool := a == b || covers a b || covers b a

def sharedScope (a b : String) : String :=
  if a = b then a else if covers a b then a else b

/-- Some scope names the path or a directory above it. -/
def inScope (path : String) (scopes : List String) : Bool :=
  scopes.any fun s => s == path || covers s path

/-- What cleaning a scope can leave. -/
def IsScope (scope : String) : Prop := ∃ value, scopePath value = .ok scope

/-- A relative file path in its one spelling. -/
def IsPath (path : String) : Prop := ∃ parts, CleanParts parts ∧ path.toList = joinParts parts

/-- The paths a scope stands for. -/
def denotes (scope : String) : Set String := {path | IsPath path ∧ inScope path [scope] = true}

lemma mem_denotes {scope path : String} :
    path ∈ denotes scope ↔ IsPath path ∧ (scope = path ∨ covers scope path = true) := by
  simp [denotes, inScope]

lemma covers_iff {scope text : String} :
    covers scope text = true ↔ namesDirectory scope.toList = true ∧ scope.toList <+: text.toList := by
  rw [covers, Bool.and_eq_true, List.isPrefixOf_iff_prefix]

lemma IsScope.spelled {scope : String} (h : IsScope scope) :
    ∃ parts directory, CleanParts parts ∧ scope.toList = cleanPath parts directory := by
  obtain ⟨value, hvalue⟩ := h
  obtain ⟨text, -, haccepts, hscope⟩ := scopePath_eq_ok.mp hvalue
  exact ⟨_, _, cleanParts_pathParts haccepts.nonempty, hscope⟩

/-- Every scope stands for some path: a file for itself, a directory for a file in it. -/
lemma IsScope.denotes_nonempty {scope : String} (h : IsScope scope) : (denotes scope).Nonempty := by
  obtain ⟨parts, directory, hparts, hscope⟩ := h.spelled
  cases directory with
  | false => exact ⟨scope, mem_denotes.mpr ⟨⟨parts, hparts, hscope⟩, Or.inl rfl⟩⟩
  | true =>
      have hbelow : CleanParts (parts ++ [['a']]) := by
        refine ⟨by simp, ?_, ?_, ?_⟩
        · intro p hp
          rcases List.mem_append.mp hp with hp | hp
          · exact hparts.named p hp
          · rw [List.mem_singleton.mp hp]
            decide
        · intro p hp
          rcases List.mem_append.mp hp with hp | hp
          · exact hparts.whole p hp
          · rw [List.mem_singleton.mp hp]
            decide
        · intro p hp
          rcases List.mem_append.mp hp with hp | hp
          · exact hparts.folded p hp
          · rw [List.mem_singleton.mp hp]
            decide
      refine ⟨String.ofList (joinParts (parts ++ [['a']])), mem_denotes.mpr ⟨?_, Or.inr ?_⟩⟩
      · exact ⟨_, hbelow, String.toList_ofList⟩
      · rw [covers_iff, String.toList_ofList, hscope, hparts.namesDirectory_cleanPath, cleanPath,
          if_pos rfl]
        refine ⟨rfl, ⟨['a'], ?_⟩⟩
        rw [joinParts, joinParts, Lib.intercalate_append hparts.nonempty (List.cons_ne_nil _ _),
          List.append_assoc]
        rfl

lemma covers_trans {a b c : String} (hab : covers a b = true) (hbc : covers b c = true) :
    covers a c = true := by
  rw [covers_iff] at hab hbc ⊢
  exact ⟨hab.1, hab.2.trans hbc.2⟩

/-- What lies in a scope lies in every directory scope around it. -/
lemma denotes_of_covers {a b path : String} (hcovers : covers a b = true)
    (hpath : path ∈ denotes b) : path ∈ denotes a := by
  obtain ⟨hispath, hin⟩ := mem_denotes.mp hpath
  refine mem_denotes.mpr ⟨hispath, Or.inr ?_⟩
  rcases hin with rfl | hin
  · exact hcovers
  · exact covers_trans hcovers hin

lemma scopesOverlap_iff {a b : String} :
    scopesOverlap a b = true ↔ a = b ∨ covers a b = true ∨ covers b a = true := by
  simp [scopesOverlap, or_assoc]

/-- Two scopes overlap exactly if some path lies in both. -/
lemma scopesOverlap_iff_meet {a b : String} (ha : IsScope a) (hb : IsScope b) :
    scopesOverlap a b = true ↔ (denotes a ∩ denotes b).Nonempty := by
  rw [scopesOverlap_iff]
  constructor
  · rintro (rfl | hcovers | hcovers)
    · obtain ⟨path, hpath⟩ := ha.denotes_nonempty
      exact ⟨path, hpath, hpath⟩
    · obtain ⟨path, hpath⟩ := hb.denotes_nonempty
      exact ⟨path, denotes_of_covers hcovers hpath, hpath⟩
    · obtain ⟨path, hpath⟩ := ha.denotes_nonempty
      exact ⟨path, hpath, denotes_of_covers hcovers hpath⟩
  · rintro ⟨path, hpatha, hpathb⟩
    obtain ⟨-, hina⟩ := mem_denotes.mp hpatha
    obtain ⟨-, hinb⟩ := mem_denotes.mp hpathb
    rcases hina with rfl | hina
    · rcases hinb with rfl | hinb
      · exact Or.inl rfl
      · exact Or.inr (Or.inr hinb)
    · rcases hinb with rfl | hinb
      · exact Or.inr (Or.inl hina)
      · -- two directories above one path: the shorter is above the longer
        rw [covers_iff] at hina hinb
        right
        rcases List.prefix_or_prefix_of_prefix hina.2 hinb.2 with hab | hba
        · exact Or.inl (covers_iff.mpr ⟨hina.1, hab⟩)
        · exact Or.inr (covers_iff.mpr ⟨hinb.1, hba⟩)

end Scopes

section Reports

/-- An entry of the advisory report: two tasks and the scopes they share. -/
structure Overlap where
  tasks : String × String
  shared : List String
deriving DecidableEq, Repr

def isActive (task : Task) : Bool := activeStatuses.contains task.status

/-- `sorted(set)` -/
def sortedScopes (items : List String) : List String := (Std.ExtTreeSet.ofList items compare).toList

def sharedScopes (a b : Task) : List String :=
  sortedScopes (a.scopes.flatMap fun sa => (b.scopes.filter (scopesOverlap sa)).map (sharedScope sa))

/-- One task against the tasks after it. -/
def overlapsWith (first : String × Task) (later : List (String × Task)) : List Overlap :=
  later.filterMap fun second =>
    let shared := sharedScopes first.2 second.2
    if shared = [] then none else some ⟨(first.1, second.1), shared⟩

def overlapPairs : List (String × Task) → List Overlap
  | [] => []
  | first :: later => overlapsWith first later ++ overlapPairs later

/-- The overlaps among the active tasks; never a lock. -/
def computeOverlaps (tasks : Tasks) : List Overlap :=
  overlapPairs (tasks.toList.filter fun entry => isActive entry.2)

/-- The tasks in conflict with each task. -/
abbrev Conflicts := Std.ExtTreeMap String (Std.ExtTreeSet String compare) compare

/-- `conflicts[a].add(b)`, which needs `a` to be there. -/
def Conflicts.add (conflicts : Conflicts) (a b : String) : Option Conflicts :=
  match conflicts[a]? with
  | none => none
  | some others => some (conflicts.insert a (others.insert b))

def Conflicts.addPair (conflicts : Conflicts) (pair : Overlap) : Option Conflicts := do
  let conflicts ← conflicts.add pair.tasks.1 pair.tasks.2
  conflicts.add pair.tasks.2 pair.tasks.1

/-- For every task the other active tasks that share a scope with it. -/
def taskConflicts (tasks : Tasks) : Option (List (String × List String)) := do
  let conflicts ← (computeOverlaps tasks).foldlM Conflicts.addPair (tasks.map fun _ _ => ∅)
  return conflicts.toList.map fun entry => (entry.1, entry.2.toList)

lemma mem_sortedScopes {item : String} {items : List String} :
    item ∈ sortedScopes items ↔ item ∈ items := by
  rw [sortedScopes, Std.ExtTreeSet.mem_toList, Std.ExtTreeSet.mem_ofList, List.contains_iff_mem]

lemma sharedScopes_ne_nil {a b : Task} :
    sharedScopes a b ≠ [] ↔ ∃ sa ∈ a.scopes, ∃ sb ∈ b.scopes, scopesOverlap sa sb = true := by
  constructor
  · intro hshared
    obtain ⟨shared, hshared⟩ := List.exists_mem_of_ne_nil _ hshared
    rw [sharedScopes, mem_sortedScopes, List.mem_flatMap] at hshared
    obtain ⟨sa, hsa, hmap⟩ := hshared
    obtain ⟨sb, hsb, -⟩ := List.mem_map.mp hmap
    exact ⟨sa, hsa, sb, (List.mem_filter.mp hsb).1, (List.mem_filter.mp hsb).2⟩
  · rintro ⟨sa, hsa, sb, hsb, hoverlap⟩
    refine List.ne_nil_of_mem (a := sharedScope sa sb) ?_
    rw [sharedScopes, mem_sortedScopes, List.mem_flatMap]
    exact ⟨sa, hsa, List.mem_map.mpr ⟨sb, List.mem_filter.mpr ⟨hsb, hoverlap⟩, rfl⟩⟩

/-- In a list sorted by id, the pairs reported are those of an earlier and a later task that
share a scope. -/
lemma mem_overlapPairs {entries : List (String × Task)}
    (hsorted : entries.Pairwise fun x y => compare x.1 y.1 = .lt) {pair : Overlap} :
    pair ∈ overlapPairs entries ↔ ∃ x ∈ entries, ∃ y ∈ entries, compare x.1 y.1 = .lt ∧
      sharedScopes x.2 y.2 ≠ [] ∧ pair = ⟨(x.1, y.1), sharedScopes x.2 y.2⟩ := by
  induction entries with
  | nil => simp [overlapPairs]
  | cons first later ih =>
      obtain ⟨hfirst, hlater⟩ := List.pairwise_cons.mp hsorted
      have hwith : pair ∈ overlapsWith first later ↔ ∃ y ∈ later, sharedScopes first.2 y.2 ≠ [] ∧
          pair = ⟨(first.1, y.1), sharedScopes first.2 y.2⟩ := by
        simp only [overlapsWith, List.mem_filterMap, Option.ite_none_left_eq_some, Option.some.injEq,
          ne_eq, eq_comm (a := pair)]
      rw [overlapPairs, List.mem_append, hwith, ih hlater]
      constructor
      · rintro (⟨y, hy, hshared, hpair⟩ | ⟨x, hx, y, hy, hrest⟩)
        · exact ⟨first, List.mem_cons_self, y, List.mem_cons_of_mem _ hy, hfirst y hy, hshared, hpair⟩
        · exact ⟨x, List.mem_cons_of_mem _ hx, y, List.mem_cons_of_mem _ hy, hrest⟩
      · rintro ⟨x, hx, y, hy, hlt, hshared, hpair⟩
        rcases List.mem_cons.mp hx with rfl | hxlater
        · rcases List.mem_cons.mp hy with rfl | hylater
          · rw [Std.ReflOrd.compare_self] at hlt
            cases hlt
          · exact Or.inl ⟨y, hylater, hshared, hpair⟩
        · rcases List.mem_cons.mp hy with rfl | hylater
          · have hgt := Std.OrientedCmp.gt_of_lt (hfirst x hxlater)
            rw [hlt] at hgt
            cases hgt
          · exact Or.inr ⟨x, hxlater, y, hylater, hlt, hshared, hpair⟩

/-- No two entries of the report are about the same tasks. -/
lemma overlapPairs_distinct {entries : List (String × Task)}
    (hsorted : entries.Pairwise fun x y => compare x.1 y.1 = .lt) :
    (overlapPairs entries).Pairwise fun o p => o.tasks ≠ p.tasks := by
  induction entries with
  | nil => exact List.Pairwise.nil
  | cons first later ih =>
      obtain ⟨hfirst, hlater⟩ := List.pairwise_cons.mp hsorted
      rw [overlapPairs, List.pairwise_append]
      refine ⟨?_, ih hlater, ?_⟩
      · rw [overlapsWith, List.pairwise_filterMap]
        refine hlater.imp ?_
        intro x y hlt o ho p hp htasks
        simp only [Option.ite_none_left_eq_some, Option.some.injEq] at ho hp
        obtain ⟨-, rfl⟩ := ho
        obtain ⟨-, rfl⟩ := hp
        rw [(Prod.mk.inj htasks).2, Std.ReflOrd.compare_self] at hlt
        cases hlt
      · intro o ho p hp htasks
        rw [overlapsWith, List.mem_filterMap] at ho
        obtain ⟨z, -, hz⟩ := ho
        simp only [Option.ite_none_left_eq_some, Option.some.injEq] at hz
        obtain ⟨-, rfl⟩ := hz
        obtain ⟨x, hx, y, -, -, -, rfl⟩ := (mem_overlapPairs hlater).mp hp
        have hlt := hfirst x hx
        rw [(Prod.mk.inj htasks).1, Std.ReflOrd.compare_self] at hlt
        cases hlt

end Reports

section Conflicts

/-- Two active tasks have scopes that some path lies in both of. -/
def Contend (tasks : Tasks) (a b : String) : Prop :=
  ∃ ta tb, tasks[a]? = some ta ∧ tasks[b]? = some tb ∧ isActive ta = true ∧ isActive tb = true ∧
    ∃ sa ∈ ta.scopes, ∃ sb ∈ tb.scopes, (denotes sa ∩ denotes sb).Nonempty

/-- Every scope of every task is normalised. -/
def Normalised (tasks : Tasks) : Prop :=
  ∀ (id : String) (task : Task), tasks[id]? = some task → ∀ scope ∈ task.scopes, IsScope scope

lemma Contend.symm {tasks : Tasks} {a b : String} (h : Contend tasks a b) : Contend tasks b a := by
  obtain ⟨ta, tb, ha, hb, hactive, hactive', sa, hsa, sb, hsb, hmeet⟩ := h
  exact ⟨tb, ta, hb, ha, hactive', hactive, sb, hsb, sa, hsa, Set.inter_comm _ _ ▸ hmeet⟩

lemma activeTasks_sorted (tasks : Tasks) :
    (tasks.toList.filter fun entry => isActive entry.2).Pairwise
      fun x y => compare x.1 y.1 = .lt :=
  List.Pairwise.filter _ Std.ExtTreeMap.ordered_keys_toList

/-- The report has an entry for a pair, in the order of the ids, exactly if the two contend. -/
lemma computeOverlaps_iff {tasks : Tasks} (h : Normalised tasks) {a b : String} :
    (∃ pair ∈ computeOverlaps tasks, pair.tasks = (a, b)) ↔
      compare a b = .lt ∧ Contend tasks a b := by
  have hmem {id : String} {task : Task} :
      (id, task) ∈ tasks.toList.filter (fun entry => isActive entry.2) ↔
        tasks[id]? = some task ∧ isActive task = true := by
    rw [List.mem_filter, Std.ExtTreeMap.mem_toList_iff_getElem?_eq_some]
  constructor
  · rintro ⟨pair, hpair, htasks⟩
    obtain ⟨⟨x, tx⟩, hx, ⟨y, ty⟩, hy, hlt, hshared, rfl⟩ :=
      (mem_overlapPairs (activeTasks_sorted tasks)).mp hpair
    obtain ⟨rfl, rfl⟩ := Prod.mk.inj htasks
    obtain ⟨hfound, hactive⟩ := hmem.mp hx
    obtain ⟨hfound', hactive'⟩ := hmem.mp hy
    obtain ⟨sa, hsa, sb, hsb, hoverlap⟩ := sharedScopes_ne_nil.mp hshared
    have hmeet := (scopesOverlap_iff_meet (h x tx hfound sa hsa) (h y ty hfound' sb hsb)).mp hoverlap
    exact ⟨hlt, tx, ty, hfound, hfound', hactive, hactive', sa, hsa, sb, hsb, hmeet⟩
  · rintro ⟨hlt, ta, tb, hfound, hfound', hactive, hactive', sa, hsa, sb, hsb, hmeet⟩
    have hoverlap := (scopesOverlap_iff_meet (h a ta hfound sa hsa) (h b tb hfound' sb hsb)).mpr hmeet
    have hshared := sharedScopes_ne_nil.mpr ⟨sa, hsa, sb, hsb, hoverlap⟩
    refine ⟨⟨(a, b), sharedScopes ta tb⟩, ?_, rfl⟩
    exact (mem_overlapPairs (activeTasks_sorted tasks)).mpr
      ⟨(a, ta), hmem.mpr ⟨hfound, hactive⟩, (b, tb), hmem.mpr ⟨hfound', hactive'⟩, hlt, hshared, rfl⟩

/-- The report has an entry for two tasks, in one order or the other, exactly if they are
two and contend. -/
lemma reported_iff {tasks : Tasks} (h : Normalised tasks) {a b : String} :
    (∃ pair ∈ computeOverlaps tasks, pair.tasks = (a, b) ∨ pair.tasks = (b, a)) ↔
      a ≠ b ∧ Contend tasks a b := by
  constructor
  · rintro ⟨pair, hpair, htasks | htasks⟩
    · obtain ⟨hlt, hcontend⟩ := (computeOverlaps_iff h).mp ⟨pair, hpair, htasks⟩
      refine ⟨?_, hcontend⟩
      rintro rfl
      rw [Std.ReflOrd.compare_self] at hlt
      cases hlt
    · obtain ⟨hlt, hcontend⟩ := (computeOverlaps_iff h).mp ⟨pair, hpair, htasks⟩
      refine ⟨?_, hcontend.symm⟩
      rintro rfl
      rw [Std.ReflOrd.compare_self] at hlt
      cases hlt
  · rintro ⟨hne, hcontend⟩
    cases hcompare : compare a b with
    | lt =>
        obtain ⟨pair, hpair, htasks⟩ := (computeOverlaps_iff h).mpr ⟨hcompare, hcontend⟩
        exact ⟨pair, hpair, Or.inl htasks⟩
    | eq => exact absurd (Std.LawfulEqCmp.eq_of_compare hcompare) hne
    | gt =>
        obtain ⟨pair, hpair, htasks⟩ := (computeOverlaps_iff h).mpr
          ⟨Std.OrientedCmp.lt_of_gt hcompare, hcontend.symm⟩
        exact ⟨pair, hpair, Or.inr htasks⟩

/-- The table notes the second task under the first. -/
def Conflicts.Has (conflicts : Conflicts) (a b : String) : Prop :=
  ∃ others, conflicts[a]? = some others ∧ b ∈ others

/-- Adding to an id that is there keeps the ids and notes one task more. -/
lemma Conflicts.add_spec {conflicts : Conflicts} {a : String} (ha : a ∈ conflicts) (b : String) :
    ∃ after, conflicts.add a b = some after ∧ (∀ k, k ∈ after ↔ k ∈ conflicts) ∧
      ∀ k x, after.Has k x ↔ conflicts.Has k x ∨ (k = a ∧ x = b) := by
  have hsome : (conflicts[a]?).isSome = true := Std.ExtTreeMap.mem_iff_isSome_getElem?.mp ha
  obtain ⟨others, hothers⟩ := Option.isSome_iff_exists.mp hsome
  refine ⟨conflicts.insert a (others.insert b), by rw [Conflicts.add, hothers], ?_, ?_⟩
  · intro k
    rw [Std.ExtTreeMap.mem_insert, Std.LawfulEqCmp.compare_eq_iff_eq]
    constructor
    · rintro (rfl | hk)
      · exact ha
      · exact hk
    · exact Or.inr
  · intro k x
    rw [Has, Has, Std.ExtTreeMap.getElem?_insert]
    by_cases hk : a = k
    · subst hk
      rw [if_pos Std.ReflCmp.compare_self, hothers]
      simp only [Option.some.injEq, exists_eq_left', Std.ExtTreeSet.mem_insert, true_and,
        Std.LawfulEqCmp.compare_eq_iff_eq]
      tauto
    · rw [if_neg (by rwa [Std.LawfulEqCmp.compare_eq_iff_eq])]
      simp only [Ne.symm hk, false_and, or_false]

/-- Noting both directions of every entry needs only that their ids are there. -/
lemma Conflicts.foldl_spec {pairs : List Overlap} {conflicts : Conflicts}
    (h : ∀ pair ∈ pairs, pair.tasks.1 ∈ conflicts ∧ pair.tasks.2 ∈ conflicts) :
    ∃ after, pairs.foldlM Conflicts.addPair conflicts = some after ∧
      (∀ k, k ∈ after ↔ k ∈ conflicts) ∧
      ∀ a b, after.Has a b ↔ conflicts.Has a b ∨
        ∃ pair ∈ pairs, pair.tasks = (a, b) ∨ pair.tasks = (b, a) := by
  induction pairs generalizing conflicts with
  | nil => exact ⟨conflicts, rfl, by simp, by simp⟩
  | cons pair pairs ih =>
      obtain ⟨hfirst, hsecond⟩ := h pair List.mem_cons_self
      obtain ⟨middle, hadd, hkeys, hhas⟩ := add_spec hfirst pair.tasks.2
      obtain ⟨next, hadd', hkeys', hhas'⟩ := add_spec ((hkeys _).mpr hsecond) pair.tasks.1
      have hpairs : ∀ other ∈ pairs, other.tasks.1 ∈ next ∧ other.tasks.2 ∈ next := by
        intro other hother
        rw [hkeys', hkeys', hkeys, hkeys]
        exact h other (List.mem_cons_of_mem _ hother)
      obtain ⟨after, hrun, hkeysAfter, hhasAfter⟩ := ih hpairs
      have hstep : conflicts.addPair pair = some next := by
        rw [Conflicts.addPair, hadd]
        exact hadd'
      refine ⟨after, ?_, ?_, ?_⟩
      · rw [List.foldlM_cons, hstep]
        exact hrun
      · intro k
        rw [hkeysAfter, hkeys', hkeys]
      · intro a b
        rw [hhasAfter, hhas', hhas]
        simp only [List.mem_cons, exists_eq_or_imp, Prod.ext_iff, or_assoc, eq_comm (a := a),
          eq_comm (a := b), and_comm (a := pair.tasks.2 = a)]

/-- The table of conflicts has every task, and under each task the others it contends with. -/
lemma taskConflicts_spec {tasks : Tasks} (h : Normalised tasks) :
    ∃ table, taskConflicts tasks = some table ∧
      (∀ a others, (a, others) ∈ table → ∀ b, b ∈ others ↔ a ≠ b ∧ Contend tasks a b) ∧
      ∀ a, (∃ others, (a, others) ∈ table) ↔ a ∈ tasks := by
  have hids : ∀ pair ∈ computeOverlaps tasks,
      pair.tasks.1 ∈ tasks.map (fun _ _ => (∅ : Std.ExtTreeSet String compare)) ∧
        pair.tasks.2 ∈ tasks.map (fun _ _ => (∅ : Std.ExtTreeSet String compare)) := by
    intro pair hpair
    obtain ⟨-, ta, tb, ha, hb, -⟩ := (computeOverlaps_iff h).mp ⟨pair, hpair, rfl⟩
    rw [Std.ExtTreeMap.mem_map, Std.ExtTreeMap.mem_map, Std.ExtTreeMap.mem_iff_isSome_getElem?,
      Std.ExtTreeMap.mem_iff_isSome_getElem?, ha, hb]
    exact ⟨rfl, rfl⟩
  obtain ⟨conflicts, hrun, hkeys, hhas⟩ := Conflicts.foldl_spec hids
  refine ⟨conflicts.toList.map fun entry => (entry.1, entry.2.toList), ?_, ?_, ?_⟩
  · rw [taskConflicts, hrun]
    rfl
  · intro a others hentry b
    obtain ⟨⟨id, set⟩, hmem, heq⟩ := List.mem_map.mp hentry
    obtain ⟨rfl, rfl⟩ := Prod.mk.inj heq
    rw [Std.ExtTreeMap.mem_toList_iff_getElem?_eq_some] at hmem
    have hset : b ∈ set.toList ↔ conflicts.Has id b := by
      rw [Std.ExtTreeSet.mem_toList, Conflicts.Has, hmem]
      simp only [Option.some.injEq, exists_eq_left']
    have hstart : ¬ Conflicts.Has (tasks.map fun _ _ => ∅) id b := by
      rintro ⟨others, hothers, hb⟩
      rw [Std.ExtTreeMap.getElem?_map, Option.map_eq_some_iff] at hothers
      obtain ⟨-, -, rfl⟩ := hothers
      exact Std.ExtTreeSet.not_mem_empty hb
    rw [hset, hhas, reported_iff h]
    exact or_iff_right hstart
  · intro a
    have hmem : a ∈ tasks ↔ a ∈ conflicts := by
      rw [hkeys, Std.ExtTreeMap.mem_map]
    rw [hmem, Std.ExtTreeMap.mem_iff_isSome_getElem?, Option.isSome_iff_exists]
    constructor
    · rintro ⟨others, hentry⟩
      obtain ⟨⟨id, set⟩, hin, heq⟩ := List.mem_map.mp hentry
      obtain ⟨rfl, rfl⟩ := Prod.mk.inj heq
      exact ⟨set, Std.ExtTreeMap.mem_toList_iff_getElem?_eq_some.mp hin⟩
    · rintro ⟨set, hset⟩
      exact ⟨set.toList, List.mem_map.mpr
        ⟨(a, set), Std.ExtTreeMap.mem_toList_iff_getElem?_eq_some.mpr hset, rfl⟩⟩

/-- Scopes overlap exactly if some path lies in both. The report has every pair of contending
tasks once, and the table of conflicts has each of them under the other. -/
theorem overlaps_are_exact :
    (∀ a b, IsScope a → IsScope b →
      (scopesOverlap a b = true ↔ (denotes a ∩ denotes b).Nonempty)) ∧
    ∀ tasks : Tasks, Normalised tasks →
      (∀ a b, (∃ pair ∈ computeOverlaps tasks, pair.tasks = (a, b) ∨ pair.tasks = (b, a)) ↔
        a ≠ b ∧ Contend tasks a b) ∧
      ((computeOverlaps tasks).Pairwise fun o p =>
        o.tasks ≠ p.tasks ∧ o.tasks ≠ (p.tasks.2, p.tasks.1)) ∧
      ∃ table, taskConflicts tasks = some table ∧
        (∀ a, (∃ others, (a, others) ∈ table) ↔ a ∈ tasks) ∧
        (∀ a others, (a, others) ∈ table → ∀ b, b ∈ others ↔ a ≠ b ∧ Contend tasks a b) ∧
        ∀ a others b others', (a, others) ∈ table → (b, others') ∈ table →
          (b ∈ others ↔ a ∈ others') := by
  refine ⟨fun a b ha hb => scopesOverlap_iff_meet ha hb, ?_⟩
  intro tasks h
  refine ⟨fun a b => reported_iff h, ?_, ?_⟩
  · have hordered {pair : Overlap} (hpair : pair ∈ computeOverlaps tasks) :
        compare pair.tasks.1 pair.tasks.2 = .lt :=
      ((computeOverlaps_iff h).mp ⟨pair, hpair, rfl⟩).1
    refine List.Pairwise.imp_of_mem ?_ (overlapPairs_distinct (activeTasks_sorted tasks))
    intro o p ho hp hne
    refine ⟨hne, ?_⟩
    intro hswapped
    have hgt := Std.OrientedCmp.gt_of_lt (hordered hp)
    rw [← (Prod.mk.inj hswapped).1, ← (Prod.mk.inj hswapped).2, hordered ho] at hgt
    cases hgt
  · obtain ⟨table, htable, hothers, hkeys⟩ := taskConflicts_spec h
    refine ⟨table, htable, hkeys, hothers, ?_⟩
    intro a others b others' ha hb
    rw [hothers a others ha, hothers b others' hb]
    exact ⟨fun ⟨hne, hcontend⟩ => ⟨hne.symm, hcontend.symm⟩,
      fun ⟨hne, hcontend⟩ => ⟨hne.symm, hcontend.symm⟩⟩

def uiTask : Task := ⟨"ui", "ada", "", ["web/"], "running", ""⟩

def formTask : Task := ⟨"form", "bob", "", ["web/form.ts"], "queued", ""⟩

/-- A directory and a file in it: the two tasks are reported to each other. -/
theorem overlaps_are_exact_sample :
    ∃ table, taskConflicts ((∅ : Tasks).insert "ui" uiTask |>.insert "form" formTask) = some table ∧
      ∀ others, ("ui", others) ∈ table →
        ("form" ∈ others ↔ "ui" ≠ "form" ∧
          Contend ((∅ : Tasks).insert "ui" uiTask |>.insert "form" formTask) "ui" "form") := by
  have hnormalised : Normalised ((∅ : Tasks).insert "ui" uiTask |>.insert "form" formTask) := by
    intro id task htask scope hscope
    rw [Std.ExtTreeMap.getElem?_insert, Std.ExtTreeMap.getElem?_insert] at htask
    split_ifs at htask
    · cases htask
      rw [formTask, List.mem_singleton] at hscope
      exact ⟨.str scope, hscope ▸ by decide +kernel⟩
    · cases htask
      rw [uiTask, List.mem_singleton] at hscope
      exact ⟨.str scope, hscope ▸ by decide +kernel⟩
    · simp at htask
  obtain ⟨-, -, table, htable, -, hothers, -⟩ := overlaps_are_exact.2 _ hnormalised
  exact ⟨table, htable, fun others hmem => hothers "ui" others hmem "form"⟩

end Conflicts

end Imece.CollabRuntime
