import Imece.CollabRuntime.Models

/-!
# States and their documents

What the parser makes of the document of a state: it accepts exactly the admissible
ones, and returns their normal form. A normal form is admissible again exactly if none
of its scopes starts with a drive letter.
-/
namespace Imece.CollabRuntime

open Lib

section Scopes

/-- The spelling a scope is read back with. -/
def normalScope (scope : String) : String := String.ofList (cleanScope scope.toList)

lemma scopePath_str {scope cleaned : String} :
    scopePath (.str scope) = .ok cleaned ↔
      scopePolicy.Accepts scope.toList ∧ cleaned = normalScope scope := by
  rw [scopePath_eq_ok]
  constructor
  · rintro ⟨_, heq, haccepts, hcleaned⟩
    cases heq
    exact ⟨haccepts, by rw [normalScope, ← hcleaned, String.ofList_toList]⟩
  · rintro ⟨haccepts, rfl⟩
    exact ⟨scope, rfl, haccepts, by rw [normalScope, String.toList_ofList]⟩

/-- The scopes of a task without repetitions. -/
def normalScopes (scopes : List String) : List String :=
  (scopes.map normalScope).foldl addScope []

lemma foldl_addScope_nodup {scopes more : List String} (h : scopes.Nodup) :
    (more.foldl addScope scopes).Nodup := by
  induction more generalizing scopes with
  | nil => exact h
  | cons scope more ih =>
      refine ih ?_
      unfold addScope
      split_ifs with hmem
      · exact h
      · rw [List.nodup_append]
        refine ⟨h, List.nodup_singleton _, ?_⟩
        intro a ha b hb
        rw [List.mem_singleton] at hb
        rintro rfl
        exact hmem (hb ▸ ha)

lemma foldl_addScope_eq {scopes more : List String} (h : (scopes ++ more).Nodup) :
    more.foldl addScope scopes = scopes ++ more := by
  induction more generalizing scopes with
  | nil => rw [List.foldl_nil, List.append_nil]
  | cons scope more ih =>
      have hfresh : scope ∉ scopes := by
        rw [List.nodup_append] at h
        exact fun hmem => h.2.2 _ hmem _ List.mem_cons_self rfl
      rw [List.foldl_cons, addScope, if_neg hfresh, ih, List.append_assoc, List.singleton_append]
      rwa [List.append_assoc, List.singleton_append]

lemma foldl_addScope_length (scopes more : List String) :
    (more.foldl addScope scopes).length ≤ scopes.length + more.length := by
  induction more generalizing scopes with
  | nil => exact le_rfl
  | cons scope more ih =>
      rw [List.foldl_cons, List.length_cons]
      have hrest := ih (addScope scopes scope)
      have hone : (addScope scopes scope).length ≤ scopes.length + 1 := by
        unfold addScope
        split_ifs
        · omega
        · rw [List.length_append, List.length_singleton]
      omega

lemma mem_foldl_addScope {scopes more : List String} {scope : String}
    (h : scope ∈ more.foldl addScope scopes) : scope ∈ scopes ∨ scope ∈ more := by
  induction more generalizing scopes with
  | nil => exact Or.inl h
  | cons first more ih =>
      rcases ih h with h | h
      · unfold addScope at h
        split_ifs at h with hmem
        · exact Or.inl h
        · rcases List.mem_append.mp h with h | h
          · exact Or.inl h
          · exact Or.inr (List.mem_singleton.mp h ▸ List.mem_cons_self)
      · exact Or.inr (List.mem_cons_of_mem first h)

/-- Scopes as a task is read back with: cleaned, and each once. -/
structure ValidScopes (scopes : List String) : Prop where
  count : scopes.length ≤ maxScopesPerTask
  nodup : scopes.Nodup
  cleaned : ∀ scope ∈ scopes, ∃ raw, scopePolicy.Accepts raw ∧ scope.toList = cleanScope raw

lemma validScopes_foldl {cleaned : List String} (hcount : cleaned.length ≤ maxScopesPerTask)
    (hcleaned : ∀ scope ∈ cleaned, ∃ raw, scopePolicy.Accepts raw ∧ scope.toList = cleanScope raw) :
    ValidScopes (cleaned.foldl addScope []) where
  count := by
    have hlength := foldl_addScope_length [] cleaned
    rw [List.length_nil] at hlength
    omega
  nodup := foldl_addScope_nodup List.nodup_nil
  cleaned scope hscope := by
    rcases mem_foldl_addScope hscope with hnil | hmem
    · cases hnil
    · exact hcleaned scope hmem

lemma ValidScopes.normalScopes {scopes : List String} (h : ValidScopes scopes) :
    normalScopes scopes = scopes := by
  have hmap : scopes.map normalScope = scopes := by
    refine (List.map_congr_left fun scope hscope => ?_).trans (List.map_id scopes)
    obtain ⟨raw, haccepts, hclean⟩ := h.cleaned scope hscope
    rw [normalScope, hclean, (cleanScope_again haccepts).2, ← hclean, String.ofList_toList, id]
  rw [CollabRuntime.normalScopes, hmap]
  exact foldl_addScope_eq h.nodup

/-- No scope starts with a drive letter. -/
def NoDriveScopes (scopes : List String) : Prop := ∀ scope ∈ scopes, hasDrive scope.toList = false

lemma ValidScopes.accepts_iff {scopes : List String} (h : ValidScopes scopes) :
    (∀ scope ∈ scopes, scopePolicy.Accepts scope.toList) ↔ NoDriveScopes scopes := by
  constructor
  · intro haccepts scope hscope
    obtain ⟨raw, hraw, hclean⟩ := h.cleaned scope hscope
    have hdrive := (haccepts scope hscope).noDrive
    rwa [hclean, (cleanScope_again hraw).1, ← hclean] at hdrive
  · intro hdrive scope hscope
    obtain ⟨raw, hraw, hclean⟩ := h.cleaned scope hscope
    have hfree := hdrive scope hscope
    rw [hclean] at hfree ⊢
    exact hraw.clean hfree

end Scopes

section Tasks

/-- The data of a task, under the keys of its document. -/
structure TaskFields (task : Task) (get : String → Json) : Prop where
  owner : get "owner" = .str task.owner
  goal : get "goal" = .str task.goal
  scopes : get "scopes" = .arr (task.scopes.map .str)
  status : get "status" = .str task.status
  contextRevision : get "context_revision" = .str task.contextRevision

/-- The tasks whose documents the parser accepts under a key. -/
structure Task.Admissible (task : Task) (id : String) : Prop where
  owner : isSafeId task.owner = true
  goal : Bounded task.goal maxTaskGoalChars
  scopesCount : task.scopes.length ≤ maxScopesPerTask
  scopes : ∀ scope ∈ task.scopes, scopePolicy.Accepts scope.toList
  status : task.status ∈ allStatuses
  id : isSafeId id = true
  contextRevision : isSha task.contextRevision = true

/-- What a task is read back as under a key. -/
def Task.normal (task : Task) (id : String) : Task :=
  { task with id := id, scopes := normalScopes task.scopes }

theorem parseTask_document {task : Task} {get : String → Json} {obj : Json} {id : String}
    {parsed : Task} (hobj : Json.ObjectOf taskKeys get obj) (hfields : TaskFields task get) :
    parseTask id obj = .ok parsed ↔ task.Admissible id ∧ parsed = task.normal id := by
  obtain ⟨members, hexact, hget⟩ := exactKeys_objectOf "task entry" hobj
  have hscopes (results : List String) :
      (task.scopes.map Json.str).mapM scopePath = .ok results ↔ (∀ scope ∈ task.scopes, scopePolicy.Accepts scope.toList) ∧
        results = task.scopes.map normalScope :=
    mapM_map_eq_ok task.scopes Json.str fun scope _ cleaned => scopePath_str
  simp only [parseTask, except_bind_eq_ok, hexact, Except.ok.injEq, exists_eq_left',
    hget _ (show "owner" ∈ taskKeys by decide), hget _ (show "goal" ∈ taskKeys by decide),
    hget _ (show "scopes" ∈ taskKeys by decide), hget _ (show "status" ∈ taskKeys by decide),
    hget _ (show "context_revision" ∈ taskKeys by decide), hfields.owner, hfields.goal,
    hfields.scopes, hfields.status, hfields.contextRevision, safeId_eq_ok, boundedText_eq_ok,
    requireList_eq_ok, atMost_eq_ok, parseStatus_eq_ok, shaHex_eq_ok, except_pure_eq_ok,
    hscopes, Json.str.injEq, Json.arr.injEq, List.length_map]
  constructor
  · rintro ⟨_, ⟨rfl, howner⟩, _, ⟨rfl, hgoal⟩, _, hcount, _, ⟨haccepts, rfl⟩, _,
      ⟨rfl, hstatus⟩, _, ⟨rfl, hid⟩, _, ⟨rfl, hrevision⟩, rfl⟩
    exact ⟨⟨howner, hgoal, hcount, haccepts, hstatus, hid, hrevision⟩, rfl⟩
  · rintro ⟨h, rfl⟩
    exact ⟨_, ⟨rfl, h.owner⟩, _, ⟨rfl, h.goal⟩, (), h.scopesCount, _, ⟨h.scopes, rfl⟩, _,
      ⟨rfl, h.status⟩, _, ⟨rfl, h.id⟩, _, ⟨rfl, h.contextRevision⟩, rfl⟩

/-- An object with the keys of a task's document and its data. -/
def TaskDocument (task : Task) (obj : Json) : Prop :=
  ∃ get, Json.ObjectOf taskKeys get obj ∧ TaskFields task get

lemma taskDocument_toDict (task : Task) : TaskDocument task task.toDict :=
  ⟨_, Json.objectOf_obj (show taskKeys.Nodup by decide), rfl, rfl, rfl, rfl, rfl⟩

lemma sortKeys_strings (texts : List String) :
    (Json.arr (texts.map .str)).sortKeys = .arr (texts.map .str) := by
  rw [Json.sortKeys, Json.sortItems_eq_map, List.map_map]
  rfl

lemma TaskDocument.sortKeys {task : Task} {obj : Json} (h : TaskDocument task obj) :
    TaskDocument task obj.sortKeys := by
  obtain ⟨get, hobj, hfields⟩ := h
  refine ⟨_, hobj.sortKeys, ?_, ?_, ?_, ?_, ?_⟩
  · rw [hfields.owner, Json.sortKeys_str]
  · rw [hfields.goal, Json.sortKeys_str]
  · rw [hfields.scopes, sortKeys_strings]
  · rw [hfields.status, Json.sortKeys_str]
  · rw [hfields.contextRevision, Json.sortKeys_str]

/-- A task as the parser returns it. -/
structure Task.Valid (task : Task) : Prop where
  owner : isSafeId task.owner = true
  goal : Bounded task.goal maxTaskGoalChars
  scopes : ValidScopes task.scopes
  status : task.status ∈ allStatuses
  id : isSafeId task.id = true
  contextRevision : isSha task.contextRevision = true

lemma Task.Valid.normal {task : Task} (h : task.Valid) : task.normal task.id = task := by
  rw [Task.normal, h.scopes.normalScopes]

lemma Task.Valid.admissible_iff {task : Task} (h : task.Valid) :
    task.Admissible task.id ↔ NoDriveScopes task.scopes := by
  rw [← h.scopes.accepts_iff]
  exact ⟨fun hadmissible => hadmissible.scopes, fun haccepts =>
    ⟨h.owner, h.goal, h.scopes.count, haccepts, h.status, h.id, h.contextRevision⟩⟩

/-- Whatever the parser returns is valid, and has the key it was under. -/
theorem parseTask_valid {id : String} {obj : Json} {parsed : Task}
    (h : parseTask id obj = .ok parsed) : parsed.Valid ∧ parsed.id = id := by
  simp only [parseTask, except_bind_eq_ok, safeId_eq_ok, boundedText_eq_ok, requireList_eq_ok,
    atMost_eq_ok, parseStatus_eq_ok, shaHex_eq_ok, except_pure_eq_ok] at h
  obtain ⟨members, -, owner, ⟨-, howner⟩, goal, ⟨-, hgoal⟩, items, -, -, hcount, cleaned,
    hcleaned, status, ⟨-, hstatus⟩, _, ⟨hkey, hid⟩, revision, ⟨-, hrevision⟩, rfl⟩ := h
  cases hkey
  refine ⟨⟨howner, hgoal, validScopes_foldl ?_ ?_, hstatus, hid, hrevision⟩, rfl⟩
  · rw [← (mapM_eq_ok.mp hcleaned).length_eq]
    exact hcount
  · intro scope hscope
    obtain ⟨item, -, hitem⟩ := mapM_mem hcleaned scope hscope
    obtain ⟨raw, -, haccepts, hclean⟩ := scopePath_eq_ok.mp hitem
    exact ⟨raw.toList, haccepts, hclean⟩

end Tasks

section Contexts

/-- A loop over members that keeps their keys. -/
lemma mapM_keys {α β : Type} {f : String × α → Except CollabError (String × β)}
    (hf : ∀ a b, f a = .ok b → b.1 = a.1) {items : List (String × α)}
    {results : List (String × β)} (h : items.mapM f = .ok results) :
    results.map (·.1) = items.map (·.1) := by
  rw [mapM_eq_ok] at h
  induction h with
  | nil => rfl
  | cons hhead _ ih => rw [List.map_cons, List.map_cons, ih, hf _ _ hhead]

/-- What an entry of the interfaces becomes, and which ones are accepted. -/
lemma parseInterface_eq_ok {name text : String} {pair : String × String} :
    parseInterface (name, .str text) = .ok pair ↔
      (isSafeId name = true ∧ Bounded text maxInterfaceValueChars) ∧ pair = (name, text) := by
  simp only [parseInterface, except_bind_eq_ok, safeId_eq_ok, boundedText_eq_ok,
    except_pure_eq_ok, Json.str.injEq]
  constructor
  · rintro ⟨_, ⟨rfl, hname⟩, _, ⟨rfl, htext⟩, rfl⟩
    exact ⟨⟨hname, htext⟩, rfl⟩
  · rintro ⟨⟨hname, htext⟩, rfl⟩
    exact ⟨name, ⟨rfl, hname⟩, text, ⟨rfl, htext⟩, rfl⟩

/-- The interfaces of a context as the members of an object, in some order. -/
def InterfaceMembers (context : SharedContext) (value : Json) : Prop :=
  ∃ pairs, value = .obj pairs ∧ (pairs.map (·.1)).Nodup ∧
    pairs.Perm ((Json.dictOf context.interfaces).map fun pair => (pair.1, .str pair.2))

/-- The data of a context, under the keys of its document. -/
structure ContextFields (context : SharedContext) (get : String → Json) : Prop where
  goal : get "goal" = .str context.goal
  decisions : get "decisions" = .arr (context.decisions.map .str)
  interfaces : InterfaceMembers context (get "interfaces")

def ContextDocument (context : SharedContext) (obj : Json) : Prop :=
  ∃ get, Json.ObjectOf contextKeys get obj ∧ ContextFields context get

/-- The contexts whose documents the parser accepts. -/
structure SharedContext.Admissible (context : SharedContext) : Prop where
  goal : Bounded context.goal maxGoalChars
  decisionsCount : context.decisions.length ≤ maxDecisions
  decisions : ∀ decision ∈ context.decisions, Bounded decision maxDecisionChars
  interfacesCount : (Json.dictOf context.interfaces).length ≤ maxInterfaces
  interfaces : ∀ pair ∈ Json.dictOf context.interfaces,
    isSafeId pair.1 = true ∧ Bounded pair.2 maxInterfaceValueChars

/-- What a context is read back as. -/
def SharedContext.normal (context : SharedContext) : SharedContext :=
  { context with interfaces := Json.sortPairs (Json.dictOf context.interfaces) }

theorem parseContext_document {context parsed : SharedContext} {obj : Json}
    (h : ContextDocument context obj) :
    parseContext obj = .ok parsed ↔ context.Admissible ∧ parsed = context.normal := by
  obtain ⟨get, hobj, hfields⟩ := h
  obtain ⟨members, hexact, hget⟩ := exactKeys_objectOf "context" hobj
  obtain ⟨pairs, hpairs, hnodup, hperm⟩ := hfields.interfaces
  rw [← Json.dictOf_eq_self hnodup] at hperm
  have hdecisions (results : List String) :
      (context.decisions.map Json.str).mapM
          (fun d => boundedText d "context decision" maxDecisionChars) = .ok results ↔
        (∀ decision ∈ context.decisions, Bounded decision maxDecisionChars) ∧
          results = context.decisions.map id := by
    refine mapM_map_eq_ok context.decisions Json.str fun decision _ text => ?_
    rw [boundedText_eq_ok, Json.str.injEq]
    constructor
    · rintro ⟨rfl, hbounded⟩
      exact ⟨hbounded, rfl⟩
    · rintro ⟨hbounded, rfl⟩
      exact ⟨rfl, hbounded⟩
  have hparse : ∀ pair ∈ Json.dictOf context.interfaces, ∀ parsed, parseInterface (pair.1, Json.str pair.2) = .ok parsed ↔
      (isSafeId pair.1 = true ∧ Bounded pair.2 maxInterfaceValueChars) ∧ parsed = id pair :=
    fun pair _ parsed => parseInterface_eq_ok
  obtain ⟨hinterfaces, hreturns⟩ := mapM_perm_eq_ok hparse hperm
  have hlength := hperm.length_eq
  rw [List.length_map] at hlength
  have hsorted {results : List (String × String)}
      (h : results.Perm ((Json.dictOf context.interfaces).map id)) :
      Json.sortPairs results = Json.sortPairs (Json.dictOf context.interfaces) := by
    rw [List.map_id] at h
    refine Json.sortPairs_eq ?_ (h.trans (Json.sortPairs_perm _).symm)
      (Json.pairwise_sortPairs _)
    rw [(h.map _).nodup_iff]
    exact Json.dictOf_nodup _
  simp only [parseContext, except_bind_eq_ok, hexact, Except.ok.injEq, exists_eq_left',
    hget _ (show "goal" ∈ contextKeys by decide),
    hget _ (show "decisions" ∈ contextKeys by decide),
    hget _ (show "interfaces" ∈ contextKeys by decide), hfields.goal, hfields.decisions, hpairs,
    boundedText_eq_ok, requireList_eq_ok, requireDict_eq_ok, atMost_eq_ok, except_pure_eq_ok,
    hdecisions, Json.str.injEq, Json.arr.injEq, Json.obj.injEq, List.length_map]
  constructor
  · rintro ⟨_, ⟨rfl, hgoal⟩, _, hcount, _, ⟨hbounded, rfl⟩, _, rfl, _, hnumber,
      results, hresults, rfl⟩
    obtain ⟨hfine, hfound⟩ := hinterfaces results hresults
    refine ⟨⟨hgoal, hcount, hbounded, by rwa [← hlength], hfine⟩, ?_⟩
    rw [hsorted hfound, List.map_id, SharedContext.normal]
  · rintro ⟨h, rfl⟩
    obtain ⟨results, hresults⟩ := hreturns h.interfaces
    refine ⟨_, ⟨rfl, h.goal⟩, (), h.decisionsCount, _, ⟨h.decisions, rfl⟩, _, rfl, (),
      by rw [hlength]; exact h.interfacesCount, results, hresults, ?_⟩
    rw [hsorted (hinterfaces results hresults).2, List.map_id, SharedContext.normal]

lemma contextDocument_toDict (context : SharedContext) :
    ContextDocument context context.toDict := by
  refine ⟨_, Json.objectOf_obj (show contextKeys.Nodup by decide), rfl, rfl, _, rfl,
    Json.dictOf_nodup _, ?_⟩
  rw [Json.dictOf_map]

lemma ContextDocument.sortKeys {context : SharedContext} {obj : Json}
    (h : ContextDocument context obj) : ContextDocument context obj.sortKeys := by
  obtain ⟨get, hobj, hfields⟩ := h
  obtain ⟨pairs, hpairs, hnodup, hperm⟩ := hfields.interfaces
  refine ⟨_, hobj.sortKeys, ?_, ?_, ?_⟩
  · rw [hfields.goal, Json.sortKeys_str]
  · rw [hfields.decisions, sortKeys_strings]
  · obtain ⟨sorted, hsorted, hpermSorted⟩ := Json.sortKeys_obj_perm pairs
    have hstrings : pairs.map (fun member => (member.1, member.2.sortKeys)) = pairs := by
      refine (List.map_congr_left fun member hmember => ?_).trans (List.map_id pairs)
      obtain ⟨pair, -, rfl⟩ := List.mem_map.mp (hperm.mem_iff.mp hmember)
      rfl
    rw [hstrings] at hpermSorted
    refine ⟨sorted, by rw [hpairs, hsorted], ?_, hpermSorted.trans hperm⟩
    rw [(hpermSorted.map _).nodup_iff]
    exact hnodup

/-- A context as the parser returns it. -/
structure SharedContext.Valid (context : SharedContext) : Prop where
  goal : Bounded context.goal maxGoalChars
  decisionsCount : context.decisions.length ≤ maxDecisions
  decisions : ∀ decision ∈ context.decisions, Bounded decision maxDecisionChars
  interfacesCount : context.interfaces.length ≤ maxInterfaces
  interfaces : ∀ pair ∈ context.interfaces,
    isSafeId pair.1 = true ∧ Bounded pair.2 maxInterfaceValueChars
  distinct : (context.interfaces.map (·.1)).Nodup
  sorted : context.interfaces.Pairwise fun a b => a.1 ≤ b.1

lemma SharedContext.Valid.normal {context : SharedContext} (h : context.Valid) :
    context.normal = context := by
  rw [SharedContext.normal, Json.dictOf_eq_self h.distinct,
    Json.sortPairs_eq h.distinct (List.Perm.refl _) h.sorted]

lemma SharedContext.Valid.admissible {context : SharedContext} (h : context.Valid) :
    context.Admissible where
  goal := h.goal
  decisionsCount := h.decisionsCount
  decisions := h.decisions
  interfacesCount := by
    rw [Json.dictOf_eq_self h.distinct]
    exact h.interfacesCount
  interfaces := by
    rw [Json.dictOf_eq_self h.distinct]
    exact h.interfaces

theorem parseContext_valid {obj : Json} {parsed : SharedContext}
    (h : parseContext obj = .ok parsed) : parsed.Valid := by
  simp only [parseContext, except_bind_eq_ok, boundedText_eq_ok, requireList_eq_ok,
    requireDict_eq_ok, atMost_eq_ok, except_pure_eq_ok] at h
  obtain ⟨members, -, goal, ⟨-, hgoal⟩, items, -, -, hcount, decisions, hdecisions, _,
    ⟨pairs, -, rfl⟩, -, hnumber, interfaces, hinterfaces, rfl⟩ := h
  have hperm := Json.sortPairs_perm interfaces
  have hkeys : interfaces.map (·.1) = (Json.dictOf pairs).map (·.1) := by
    refine mapM_keys (fun entry pair hentry => ?_) hinterfaces
    simp only [parseInterface, except_bind_eq_ok, safeId_eq_ok, except_pure_eq_ok] at hentry
    obtain ⟨_, ⟨hname, -⟩, _, -, rfl⟩ := hentry
    exact (Json.str.inj hname).symm
  refine ⟨hgoal, ?_, ?_, ?_, ?_, ?_, Json.pairwise_sortPairs _⟩
  · rw [← (mapM_eq_ok.mp hdecisions).length_eq]
    exact hcount
  · intro decision hdecision
    obtain ⟨item, -, hitem⟩ := mapM_mem hdecisions decision hdecision
    exact (boundedText_eq_ok.mp hitem).2
  · rw [hperm.length_eq, ← (mapM_eq_ok.mp hinterfaces).length_eq]
    exact hnumber
  · intro pair hpair
    obtain ⟨entry, -, hentry⟩ := mapM_mem hinterfaces pair (hperm.mem_iff.mp hpair)
    simp only [parseInterface, except_bind_eq_ok, safeId_eq_ok, boundedText_eq_ok,
      except_pure_eq_ok] at hentry
    obtain ⟨_, ⟨-, hname⟩, _, ⟨-, htext⟩, rfl⟩ := hentry
    exact ⟨hname, htext⟩
  · rw [(hperm.map _).nodup_iff, hkeys]
    exact Json.dictOf_nodup pairs

end Contexts

section States

/-- The tasks of a state as the members of an object, in some order, each with a document
of its own. -/
def TaskMembers (tasks : Tasks) (value : Json) : Prop :=
  ∃ (pairs : List (String × Json)) (documents : Task → Json), value = .obj pairs ∧
    (∀ task, TaskDocument task (documents task)) ∧
    (pairs.map (·.1)).Nodup ∧
    pairs.Perm (tasks.toList.map fun entry => (entry.1, documents entry.2))

/-- The data of a state, under the keys of its document. -/
structure StateFields (state : SessionState) (get : String → Json) : Prop where
  schema : get "schema" = .int 1
  sessionId : get "session_id" = .str state.sessionId
  targetVersion : get "target_version" = .str state.targetVersion
  baseCommit : get "base_commit" = .str state.baseCommit
  context : ContextDocument state.context (get "context")
  tasks : TaskMembers state.tasks (get "tasks")

def StateDocument (state : SessionState) (obj : Json) : Prop :=
  ∃ get, Json.ObjectOf stateKeys get obj ∧ StateFields state get

/-- The states whose documents the parser accepts. -/
structure SessionState.Admissible (state : SessionState) : Prop where
  sessionId : isSafeId state.sessionId = true
  targetVersion : Bounded state.targetVersion maxTargetVersionChars
  baseCommit : isSha state.baseCommit = true
  context : state.context.Admissible
  tasksCount : state.tasks.size ≤ maxTasks
  tasks : ∀ id (task : Task), state.tasks[id]? = some task → task.Admissible id

/-- What a state is read back as. -/
def SessionState.normal (state : SessionState) : SessionState :=
  { state with
    context := state.context.normal
    tasks := state.tasks.map fun id task => task.normal id }

lemma distinct_of_nodup {entries : List (String × Task)} (h : (entries.map (·.1)).Nodup) :
    entries.Pairwise fun a b => ¬ compare a.1 b.1 = .eq := by
  rw [List.Nodup, List.pairwise_map] at h
  refine h.imp fun hne heq => hne ?_
  exact Std.LawfulEqCmp.eq_of_compare heq

lemma nodup_keys (tasks : Tasks) : (tasks.toList.map (·.1)).Nodup := by
  rw [List.Nodup, List.pairwise_map]
  refine tasks.distinct_keys_toList.imp fun hne heq => hne ?_
  rw [heq]
  exact Std.ReflCmp.compare_self

lemma getElem?_ofList {entries : List (String × Task)} (h : (entries.map (·.1)).Nodup)
    {id : String} {task : Task} :
    (Std.ExtTreeMap.ofList entries : Tasks)[id]? = some task ↔ (id, task) ∈ entries := by
  have hsome {task : Task} (hmem : (id, task) ∈ entries) :
      (Std.ExtTreeMap.ofList entries : Tasks)[id]? = some task :=
    Std.ExtTreeMap.getElem?_ofList_of_mem Std.ReflCmp.compare_self (distinct_of_nodup h) hmem
  refine ⟨fun htask => ?_, hsome⟩
  by_cases hkey : id ∈ entries.map (·.1)
  · obtain ⟨⟨key, other⟩, hmem, rfl⟩ := List.mem_map.mp hkey
    rw [hsome hmem] at htask
    cases htask
    exact hmem
  · rw [Std.ExtTreeMap.getElem?_ofList_of_contains_eq_false] at htask
    · cases htask
    · rw [← Bool.not_eq_true, List.contains_iff_mem]
      exact hkey

lemma ofList_eq {entries : List (String × Task)} {tasks : Tasks}
    (h : entries.Perm tasks.toList) : (Std.ExtTreeMap.ofList entries : Tasks) = tasks := by
  have hnodup : (entries.map (·.1)).Nodup := (h.map _).nodup_iff.mpr (nodup_keys tasks)
  refine Std.ExtTreeMap.ext_getElem? fun id => Option.ext fun task => ?_
  rw [getElem?_ofList hnodup, h.mem_iff, Std.ExtTreeMap.mem_toList_iff_getElem?_eq_some]

theorem parseStateDict_document {state parsed : SessionState} {obj : Json}
    (h : StateDocument state obj) :
    parseStateDict obj = .ok parsed ↔ state.Admissible ∧ parsed = state.normal := by
  obtain ⟨get, hobj, hfields⟩ := h
  obtain ⟨members, hexact, hget⟩ := exactKeys_objectOf "session state" hobj
  obtain ⟨pairs, documents, hpairs, hdocuments, hnodup, hperm⟩ := hfields.tasks
  rw [← Json.dictOf_eq_self hnodup] at hperm
  have hentry : ∀ entry ∈ state.tasks.toList, ∀ parsed,
      parseEntry (entry.1, documents entry.2) = .ok parsed ↔
        entry.2.Admissible entry.1 ∧ parsed = (entry.1, entry.2.normal entry.1) := by
    intro entry _ parsed
    obtain ⟨get, hobj, hfields⟩ := hdocuments entry.2
    simp only [parseEntry, except_bind_eq_ok, safeId_eq_ok, except_pure_eq_ok,
      parseTask_document hobj hfields, Json.str.injEq]
    constructor
    · rintro ⟨_, ⟨rfl, hid⟩, _, ⟨hadmissible, rfl⟩, rfl⟩
      exact ⟨hadmissible, rfl⟩
    · rintro ⟨hadmissible, rfl⟩
      exact ⟨entry.1, ⟨rfl, hadmissible.id⟩, _, ⟨hadmissible, rfl⟩, rfl⟩
  obtain ⟨htasks, hreturns⟩ := mapM_perm_eq_ok hentry hperm
  have hlength : (Json.dictOf pairs).length = state.tasks.size := by
    rw [hperm.length_eq, List.length_map, Std.ExtTreeMap.length_toList]
  have hfine : (∀ entry ∈ state.tasks.toList, entry.2.Admissible entry.1) ↔
      ∀ id (task : Task), state.tasks[id]? = some task → task.Admissible id := by
    simp only [Prod.forall, Std.ExtTreeMap.mem_toList_iff_getElem?_eq_some]
  have hparsed {results : List (String × Task)} (h : results.Perm
      (state.tasks.toList.map fun entry => (entry.1, entry.2.normal entry.1))) :
      (Std.ExtTreeMap.ofList results : Tasks) = state.tasks.map fun id task => task.normal id := by
    refine ofList_eq ?_
    rw [Std.ExtTreeMap.toList_map]
    exact h
  simp only [parseStateDict, except_bind_eq_ok, hexact, Except.ok.injEq, exists_eq_left',
    hget _ (show "schema" ∈ stateKeys by decide),
    hget _ (show "session_id" ∈ stateKeys by decide),
    hget _ (show "target_version" ∈ stateKeys by decide),
    hget _ (show "base_commit" ∈ stateKeys by decide),
    hget _ (show "context" ∈ stateKeys by decide),
    hget _ (show "tasks" ∈ stateKeys by decide), hfields.schema, hfields.sessionId,
    hfields.targetVersion, hfields.baseCommit, hpairs, safeId_eq_ok, boundedText_eq_ok,
    shaHex_eq_ok, requireDict_eq_ok, atMost_eq_ok, parseSchema_eq_ok, except_pure_eq_ok,
    parseContext_document hfields.context, Json.str.injEq, Json.obj.injEq]
  constructor
  · rintro ⟨_, -, _, ⟨rfl, hsession⟩, _, ⟨rfl, htarget⟩, _, ⟨rfl, hbase⟩, _, ⟨hcontext, rfl⟩, _,
      rfl, _, hcount, results, hresults, rfl⟩
    obtain ⟨hadmissible, hfound⟩ := htasks results hresults
    refine ⟨⟨hsession, htarget, hbase, hcontext, by rwa [← hlength], hfine.mp hadmissible⟩, ?_⟩
    rw [hparsed hfound, SessionState.normal]
  · rintro ⟨h, rfl⟩
    obtain ⟨results, hresults⟩ := hreturns (hfine.mpr h.tasks)
    refine ⟨(), trivial, _, ⟨rfl, h.sessionId⟩, _, ⟨rfl, h.targetVersion⟩, _, ⟨rfl, h.baseCommit⟩, _,
      ⟨h.context, rfl⟩, _, rfl, (), by rw [hlength]; exact h.tasksCount, results, hresults, ?_⟩
    rw [hparsed (htasks results hresults).2, SessionState.normal]

lemma stateDocument_toDict (state : SessionState) : StateDocument state state.toDict := by
  refine ⟨_, Json.objectOf_obj (show stateKeys.Nodup by decide), rfl, rfl, rfl, rfl,
    contextDocument_toDict state.context, _, Task.toDict, rfl, taskDocument_toDict, ?_,
    List.Perm.refl _⟩
  rw [List.map_map]
  exact nodup_keys state.tasks

lemma StateDocument.sortKeys {state : SessionState} {obj : Json} (h : StateDocument state obj) :
    StateDocument state obj.sortKeys := by
  obtain ⟨get, hobj, hfields⟩ := h
  obtain ⟨pairs, documents, hpairs, hdocuments, hnodup, hperm⟩ := hfields.tasks
  refine ⟨_, hobj.sortKeys, ?_, ?_, ?_, ?_, hfields.context.sortKeys, ?_⟩
  · rw [hfields.schema, Json.sortKeys_int]
  · rw [hfields.sessionId, Json.sortKeys_str]
  · rw [hfields.targetVersion, Json.sortKeys_str]
  · rw [hfields.baseCommit, Json.sortKeys_str]
  · obtain ⟨sorted, hsorted, hpermSorted⟩ := Json.sortKeys_obj_perm pairs
    refine ⟨sorted, fun task => (documents task).sortKeys, by rw [hpairs, hsorted],
      fun task => (hdocuments task).sortKeys, ?_, ?_⟩
    · rw [(hpermSorted.map _).nodup_iff, List.map_map]
      exact hnodup
    · have hmap := hperm.map fun member : String × Json => (member.1, member.2.sortKeys)
      rw [List.map_map] at hmap
      exact hpermSorted.trans hmap

/-- A state as the parser returns it. -/
structure SessionState.Valid (state : SessionState) : Prop where
  sessionId : isSafeId state.sessionId = true
  targetVersion : Bounded state.targetVersion maxTargetVersionChars
  baseCommit : isSha state.baseCommit = true
  context : state.context.Valid
  tasksCount : state.tasks.size ≤ maxTasks
  tasks : ∀ (id : String) (task : Task), state.tasks[id]? = some task → task.Valid ∧ task.id = id

/-- No scope of any task starts with a drive letter. -/
def SessionState.NoDrive (state : SessionState) : Prop :=
  ∀ (id : String) (task : Task), state.tasks[id]? = some task → NoDriveScopes task.scopes

lemma SessionState.Valid.normal {state : SessionState} (h : state.Valid) :
    state.normal = state := by
  have htasks : (state.tasks.map fun id task => task.normal id) = state.tasks := by
    refine Std.ExtTreeMap.ext_getElem? fun id => ?_
    rw [Std.ExtTreeMap.getElem?_map]
    cases htask : state.tasks[id]? with
    | none => rfl
    | some task =>
        obtain ⟨hvalid, hid⟩ := h.tasks id task htask
        rw [Option.map_some, ← hid, hvalid.normal]
  rw [SessionState.normal, h.context.normal, htasks]

lemma SessionState.Valid.admissible_iff {state : SessionState} (h : state.Valid) :
    state.Admissible ↔ state.NoDrive := by
  have htask {id : String} {task : Task} (htask : state.tasks[id]? = some task) :
      task.Admissible id ↔ NoDriveScopes task.scopes := by
    obtain ⟨hvalid, hid⟩ := h.tasks id task htask
    rw [← hid, hvalid.admissible_iff]
  constructor
  · exact fun hadmissible id task hsome => (htask hsome).mp (hadmissible.tasks id task hsome)
  · exact fun hdrive => ⟨h.sessionId, h.targetVersion, h.baseCommit, h.context.admissible,
      h.tasksCount, fun id task hsome => (htask hsome).mpr (hdrive id task hsome)⟩

theorem parseStateDict_valid {obj : Json} {parsed : SessionState}
    (h : parseStateDict obj = .ok parsed) : parsed.Valid := by
  simp only [parseStateDict, except_bind_eq_ok, safeId_eq_ok, boundedText_eq_ok, shaHex_eq_ok,
    requireDict_eq_ok, atMost_eq_ok, parseSchema_eq_ok, except_pure_eq_ok] at h
  obtain ⟨members, -, -, -, session, ⟨-, hsession⟩, target, ⟨-, htarget⟩, base, ⟨-, hbase⟩,
    context, hcontext, _, ⟨pairs, -, rfl⟩, -, hcount, entries, hentries, rfl⟩ := h
  have hentry {a : String × Json} {b : String × Task} (h : parseEntry a = .ok b) :
      b.1 = a.1 ∧ b.2.Valid ∧ b.2.id = b.1 := by
    simp only [parseEntry, except_bind_eq_ok, safeId_eq_ok, except_pure_eq_ok,
      Json.str.injEq] at h
    obtain ⟨_, ⟨rfl, -⟩, task, htask, rfl⟩ := h
    exact ⟨rfl, parseTask_valid htask⟩
  have hkeys := mapM_keys (fun a b hab => (hentry hab).1) hentries
  have hnodup : (entries.map (·.1)).Nodup := by
    rw [hkeys]
    exact Json.dictOf_nodup pairs
  refine ⟨hsession, htarget, hbase, parseContext_valid hcontext, ?_, ?_⟩
  · show (Std.ExtTreeMap.ofList entries : Tasks).size ≤ maxTasks
    rw [Std.ExtTreeMap.size_ofList (distinct_of_nodup hnodup),
      ← (mapM_eq_ok.mp hentries).length_eq]
    exact hcount
  · intro id task htask
    obtain ⟨entry, -, hparsed⟩ := mapM_mem hentries _ ((getElem?_ofList hnodup).mp htask)
    exact (hentry hparsed).2

lemma SessionState.Admissible.valid {state : SessionState} (h : state.Admissible) :
    state.normal.Valid :=
  parseStateDict_valid ((parseStateDict_document (stateDocument_toDict state)).mpr ⟨h, rfl⟩)

end States

section Payloads

/-- The part of `_commit` before git: the bytes that a state is published as. -/
def statePayload (state : SessionState) : Except CollabError ByteArray := do
  let validated ← parseStateDict state.toDict
  let payload := canonicalJsonBytes validated.toDict
  if maxJsonBytes < payload.size then
    .error (.validation s!"session state exceeds the {maxJsonBytes}-byte limit.")
  else .ok payload

/-- The part of `_read_state` after git. -/
def readPayload (payload : ByteArray) : Except CollabError SessionState :=
  if maxJsonBytes < payload.size then
    .error (.validation s!"session state exceeds the {maxJsonBytes}-byte limit.")
  else do parseStateDict (← parseJsonBytes payload "session state")

theorem statePayload_eq_ok {state : SessionState} {payload : ByteArray} :
    statePayload state = .ok payload ↔ state.Admissible ∧
      payload = canonicalJsonBytes state.normal.toDict ∧ payload.size ≤ maxJsonBytes := by
  simp only [statePayload, except_bind_eq_ok,
    parseStateDict_document (stateDocument_toDict state)]
  constructor
  · rintro ⟨_, ⟨hadmissible, rfl⟩, h⟩
    split_ifs at h with hsize
    have hpayload := Except.ok.inj h
    exact ⟨hadmissible, hpayload.symm, by rw [← hpayload]; omega⟩
  · rintro ⟨hadmissible, hpayload, hsize⟩
    rw [hpayload] at hsize ⊢
    exact ⟨_, ⟨hadmissible, rfl⟩, if_neg (by omega)⟩

lemma plain_strings (texts : List String) : (Json.arr (texts.map .str)).plain = true := by
  rw [Json.plain, Json.plainItems_iff]
  intro item hitem
  obtain ⟨text, -, rfl⟩ := List.mem_map.mp hitem
  rfl

lemma plain_obj {members : List (String × Json)} (hnodup : (members.map (·.1)).Nodup)
    (hplain : ∀ member ∈ members, member.2.plain = true) : (Json.obj members).plain = true := by
  rw [Json.plain, Bool.and_eq_true, decide_eq_true_eq, Json.plainMembers_iff]
  exact ⟨hnodup, hplain⟩

lemma Task.plain_toDict (task : Task) : task.toDict.plain = true := by
  refine plain_obj (show taskKeys.Nodup by decide) ?_
  simp only [List.forall_mem_cons, List.not_mem_nil, false_implies, implies_true, and_true]
  exact ⟨rfl, rfl, plain_strings _, rfl, rfl⟩

lemma SharedContext.plain_toDict (context : SharedContext) : context.toDict.plain = true := by
  refine plain_obj (show contextKeys.Nodup by decide) ?_
  simp only [List.forall_mem_cons, List.not_mem_nil, false_implies, implies_true, and_true]
  refine ⟨rfl, plain_strings _, plain_obj (Json.dictOf_nodup _) ?_⟩
  rw [Json.dictOf_map]
  intro member hmember
  obtain ⟨pair, -, rfl⟩ := List.mem_map.mp hmember
  rfl

lemma SessionState.plain_toDict (state : SessionState) : state.toDict.plain = true := by
  refine plain_obj (show stateKeys.Nodup by decide) ?_
  simp only [List.forall_mem_cons, List.not_mem_nil, false_implies, implies_true, and_true]
  refine ⟨rfl, rfl, rfl, rfl, state.context.plain_toDict, plain_obj ?_ ?_⟩
  · rw [List.map_map]
    exact nodup_keys state.tasks
  · intro member hmember
    obtain ⟨entry, -, rfl⟩ := List.mem_map.mp hmember
    exact entry.2.plain_toDict

lemma nesting_obj_le {members : List (String × Json)} {n : ℕ}
    (h : ∀ member ∈ members, nesting member.2 ≤ n) : nesting (.obj members) ≤ n + 1 := by
  rw [nesting]
  have hmembers := nestingMembers_le.mpr h
  omega

lemma nesting_strings_le (texts : List String) : nesting (.arr (texts.map .str)) ≤ 1 := by
  rw [nesting]
  have hitems : nestingItems (texts.map .str) ≤ 0 := nestingItems_le.mpr fun item hitem => by
    obtain ⟨text, -, rfl⟩ := List.mem_map.mp hitem
    exact le_rfl
  omega

lemma Task.nesting_toDict_le (task : Task) : nesting task.toDict ≤ 2 := by
  refine nesting_obj_le ?_
  simp only [List.forall_mem_cons, List.not_mem_nil, false_implies, implies_true, and_true]
  exact ⟨Nat.zero_le 1, Nat.zero_le 1, nesting_strings_le _, Nat.zero_le 1, Nat.zero_le 1⟩

lemma SharedContext.nesting_toDict_le (context : SharedContext) : nesting context.toDict ≤ 2 := by
  refine nesting_obj_le ?_
  simp only [List.forall_mem_cons, List.not_mem_nil, false_implies, implies_true, and_true]
  refine ⟨Nat.zero_le 1, nesting_strings_le _, nesting_obj_le ?_⟩
  rw [Json.dictOf_map]
  intro member hmember
  obtain ⟨pair, -, rfl⟩ := List.mem_map.mp hmember
  exact le_rfl

lemma SessionState.nesting_toDict_le (state : SessionState) : nesting state.toDict ≤ 4 := by
  refine nesting_obj_le ?_
  simp only [List.forall_mem_cons, List.not_mem_nil, false_implies, implies_true, and_true]
  refine ⟨Nat.zero_le 3, Nat.zero_le 3, Nat.zero_le 3, Nat.zero_le 3,
    state.context.nesting_toDict_le.trans (by omega), nesting_obj_le ?_⟩
  intro member hmember
  obtain ⟨entry, -, rfl⟩ := List.mem_map.mp hmember
  exact entry.2.nesting_toDict_le

/-- A published state is read back if and only if none of its scopes starts with a drive
letter, and then as it was published. -/
theorem readPayload_normal {state read : SessionState} (h : state.Admissible)
    (hsize : (canonicalJsonBytes state.normal.toDict).size ≤ maxJsonBytes) :
    readPayload (canonicalJsonBytes state.normal.toDict) = .ok read ↔
      state.normal.NoDrive ∧ read = state.normal := by
  have hvalid := h.valid
  have hnesting := state.normal.nesting_toDict_le
  rw [readPayload, if_neg (by omega), parseJsonBytes_canonical state.normal.plain_toDict
    (hnesting.trans (by decide)) hsize]
  simp only [except_bind_eq_ok, Except.ok.injEq, exists_eq_left']
  rw [parseStateDict_document (stateDocument_toDict state.normal).sortKeys, hvalid.admissible_iff,
    hvalid.normal]

lemma readPayload_valid {payload : ByteArray} {state : SessionState}
    (h : readPayload payload = .ok state) : state.Valid := by
  unfold readPayload at h
  split_ifs at h
  rw [except_bind_eq_ok] at h
  obtain ⟨value, -, hparsed⟩ := h
  exact parseStateDict_valid hparsed

end Payloads

end Imece.CollabRuntime
