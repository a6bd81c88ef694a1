import Imece.CollabRuntime.Replay

/-!
# What readers are told

The history of a hub grows at its head only. So a page that is read while others publish
goes on exactly where its reader stands, and so does a stream of pages.
-/
namespace Imece.CollabRuntime

open Lib

section Histories

/-- A hub's history: its head and the first parents of it, latest first. -/
def World.history (w : World) : List String := (w.head.map w.commits.firstParents).getD []

/-- A commit with another one as its only parent. -/
def World.StepsTo (w : World) (parent commit : String) : Prop :=
  ∃ version, w.commits.find commit = some version ∧ version.parents = [parent]

/-- An event tells a step of the history, and what it changes. -/
def World.Tells (w : World) (event : ReplayEvent) : Prop :=
  ∃ previous state, w.StepsTo event.previousRevision event.revision ∧
    w.stateAt event.previousRevision = .ok previous ∧ w.stateAt event.revision = .ok state ∧
    event = replayEvent event.previousRevision event.revision previous state

/-- Events that tell one step after the other, from one revision to another. -/
inductive World.Replays (w : World) : String → List ReplayEvent → String → Prop
  | here (cursor : String) : w.Replays cursor [] cursor
  | next {event : ReplayEvent} {events : List ReplayEvent} {last : String}
      (told : w.Tells event) (rest : w.Replays event.revision events last) :
      w.Replays event.previousRevision (event :: events) last

variable {w t : World} {cursor last head : String} {events more : List ReplayEvent}
  {event : ReplayEvent}

lemma World.history_of_head (h : w.head = some head) :
    w.history = w.commits.firstParents head := by
  rw [World.history, h]
  rfl

lemma known_of_mem_history {revision : String} (h : revision ∈ w.history) :
    revision ∈ w.commits.names := by
  rw [World.history] at h
  cases hhead : w.head with
  | none =>
      rw [hhead] at h
      cases h
  | some head =>
      rw [hhead] at h
      exact known_of_mem_firstParents h

/-- From each of its revisions a history goes on with the first parents of that one. -/
lemma history_split {revision : String} (h : revision ∈ w.history) :
    ∃ newer, w.history = newer ++ w.commits.firstParents revision := by
  rw [World.history] at h ⊢
  cases hhead : w.head with
  | none =>
      rw [hhead] at h
      cases h
  | some head =>
      rw [hhead] at h
      exact firstParents_split w.commits.grown h

lemma mem_history {revision : String} (h : last ∈ w.history)
    (hrevision : revision ∈ w.commits.firstParents last) : revision ∈ w.history := by
  obtain ⟨newer, hnewer⟩ := history_split h
  rw [hnewer]
  exact List.mem_append_right _ hrevision

lemma mem_firstParents_self {revision : String} (h : revision ∈ w.commits.names) :
    revision ∈ w.commits.firstParents revision := by
  obtain ⟨older, holder⟩ := firstParents_self h
  rw [Versions.firstParents, holder]
  exact List.mem_cons_self

lemma World.StepsTo.firstParents {parent commit : String} (h : w.StepsTo parent commit) :
    w.commits.firstParents commit = commit :: w.commits.firstParents parent := by
  obtain ⟨version, hfind, hparents⟩ := h
  exact Versions.firstParents_child hfind hparents

lemma World.StepsTo.later {parent commit : String} (h : w.StepsTo parent commit)
    (hgrows : w.commits.Extends t.commits) : t.StepsTo parent commit := by
  obtain ⟨version, hfind, hparents⟩ := h
  exact ⟨version, by rw [hgrows.find (Versions.find_some hfind).2, hfind], hparents⟩

lemma World.Tells.later (h : w.Tells event) (hgrows : w.commits.Extends t.commits) :
    t.Tells event := by
  obtain ⟨previous, state, hsteps, hprevious, hstate, hevent⟩ := h
  exact ⟨previous, state, hsteps.later hgrows, World.stateAt_later hprevious hgrows,
    World.stateAt_later hstate hgrows, hevent⟩

lemma World.Replays.later (h : w.Replays cursor events last)
    (hgrows : w.commits.Extends t.commits) : t.Replays cursor events last := by
  induction h with
  | here cursor => exact .here cursor
  | next told rest ih => exact .next (told.later hgrows) ih

/-- The first parents of where a replay ends are the revisions it told, and those of where
it began. -/
lemma World.Replays.firstParents (h : w.Replays cursor events last) :
    w.commits.firstParents last =
      (events.map (·.revision)).reverse ++ w.commits.firstParents cursor := by
  induction h with
  | here cursor => rfl
  | @next event events last told rest ih =>
      obtain ⟨_, _, hsteps, -⟩ := told
      rw [ih, hsteps.firstParents, List.map_cons, List.reverse_cons, List.append_assoc]
      rfl

/-- A replay of a hub's history begins in it. -/
lemma World.Replays.mem_history (h : w.Replays cursor events last) (hlast : last ∈ w.history) :
    cursor ∈ w.history := by
  induction h with
  | here cursor => exact hlast
  | @next event events last told rest ih =>
      obtain ⟨_, _, hsteps, hprevious, -⟩ := told
      refine CollabRuntime.mem_history (ih hlast) ?_
      rw [hsteps.firstParents]
      exact List.mem_cons_of_mem _ (mem_firstParents_self (World.stateAt_known hprevious))

/-- What was told first of a replay is a replay. -/
lemma World.Replays.split (h : w.Replays cursor (events ++ more) last) :
    ∃ middle, w.Replays cursor events middle ∧ w.Replays middle more last := by
  induction events generalizing cursor with
  | nil => exact ⟨cursor, .here cursor, h⟩
  | cons event events ih =>
      rw [List.cons_append] at h
      cases h with
      | next told rest =>
          obtain ⟨middle, hfirst, hrest⟩ := ih rest
          exact ⟨middle, .next told hfirst, hrest⟩

end Histories

section Advances

variable {δ φ : Type} [DecidableEq δ] {sha256 : String → δ} {format : ProposalFormat φ}

/-- What happens to the hub around a reader: its history grows at its head. -/
structure HubAdvance (format : ProposalFormat φ) (w t : World) : Prop where
  move : HubMove format w t
  history : ∃ newer, t.history = newer ++ w.history

variable {w t u : World} {call : HubCall δ φ}

lemma HubAdvance.refl (w : World) : HubAdvance format w w := ⟨.refl w, [], rfl⟩

lemma HubAdvance.trans (h : HubAdvance format w t) (h' : HubAdvance format t u) :
    HubAdvance format w u := by
  obtain ⟨newer, hnewer⟩ := h.history
  obtain ⟨latest, hlatest⟩ := h'.history
  exact ⟨h.move.trans h'.move, latest ++ newer, by rw [hlatest, hnewer, List.append_assoc]⟩

lemma HubStep.advance (h : HubStep sha256 format call w t) : HubAdvance format w t := by
  refine ⟨h.move, ?_⟩
  have hold (head : String) (hhead : w.head = some head) :
      t.commits.firstParents head = w.commits.firstParents head :=
    h.grows.firstParents (w.head_known head hhead)
  rcases h.head with hsame | ⟨commit, message, source, hcommit, ⟨payload, -, hfind⟩, -⟩
  · refine ⟨[], ?_⟩
    rw [World.history, World.history, hsame]
    cases hhead : w.head with
    | none => rfl
    | some head => exact hold head hhead
  · refine ⟨[commit], ?_⟩
    rw [World.history_of_head hcommit, World.history]
    cases hhead : w.head with
    | none =>
        rw [hhead] at hfind
        exact Versions.firstParents_root hfind rfl
    | some head =>
        rw [hhead] at hfind
        rw [Versions.firstParents_child hfind rfl, hold head hhead]
        rfl

lemma HubAdvance.mem_history {revision : String} (h : HubAdvance format w t)
    (hrevision : revision ∈ w.history) : revision ∈ t.history := by
  obtain ⟨newer, hnewer⟩ := h.history
  rw [hnewer]
  exact List.mem_append_right _ hrevision

variable (sha256 format) in
/-- Whatever the hub's clients do in between, every access of the program is a quiet one. -/
structure ReadSafe {α : Type} (post : Except CollabError α → World → Prop) (p : StoreProg α)
    (w : World) : Prop where
  safe : Prog.Safe (HubAdvance format) (fun _ => HubStep sha256 format .sync) post p w

variable {α β : Type} {P : Except CollabError α → World → Prop}
  {Q : Except CollabError β → World → Prop}

lemma HubSafe.reads {p : StoreProg α} (h : HubSafe sha256 format .sync P p w) :
    ReadSafe sha256 format P p w := by
  refine ⟨Prog.Safe.narrow h.safe ?_⟩
  exact fun _ _ hadvance => hadvance.move

lemma ReadSafe.reached {p : StoreProg α} (h : ReadSafe sha256 format P p w) :
    ReadSafe sha256 format (fun result t => P result t ∧ HubAdvance format w t) p w := by
  refine ⟨Prog.Safe.reached ?_ ?_ h.safe⟩
  · exact fun _ _ _ => .trans
  · exact fun _ _ _ hstep => hstep.advance

lemma ReadSafe.bind {p : StoreProg α} {f : α → StoreProg β} (hp : ReadSafe sha256 format P p w)
    (hok : ∀ a t, P (.ok a) t → HubAdvance format w t → ReadSafe sha256 format Q (f a) t)
    (herror : ∀ e t, Q (.error e) t) : ReadSafe sha256 format Q (p >>= f) w :=
  ⟨hp.reached.safe.bind .refl (fun a t h => (hok a t h.1 h.2).safe) fun e t _ => herror e t⟩

lemma ReadSafe.read {label : GitStep} {body : GitCommand α} {f : α → StoreProg β}
    (hafter : ∀ t, after body t = t)
    (hok : ∀ t a, HubAdvance format w t → result body t = .ok a →
      ReadSafe sha256 format Q (f a) t)
    (herror : ∀ e t, Q (.error e) t) :
    ReadSafe sha256 format Q (Prog.call label body >>= f) w := by
  refine ⟨Prog.Safe.call_bind (fun t _ => .same (hafter t)) (fun t a ht ha => ?_)
    fun t e u _ _ _ => herror e u⟩
  rw [hafter t]
  exact (hok t a ht ha).safe

lemma ReadSafe.check {value : Except CollabError α} {f : α → StoreProg β}
    (hok : ∀ a, value = .ok a → ReadSafe sha256 format Q (f a) w)
    (herror : ∀ e t, Q (.error e) t) :
    ReadSafe sha256 format Q (Prog.check value >>= f) w :=
  ⟨Prog.Safe.check_bind (fun a ha => (hok a ha).safe) fun e t _ _ => herror e t⟩

lemma ReadSafe.throw {e : CollabError} (herror : ∀ e t, Q (.error e) t) :
    ReadSafe sha256 format Q (Prog.throw e) w :=
  ⟨fun t _ => herror e t⟩

lemma ReadSafe.pure {b : β} (hok : ∀ t, HubAdvance format w t → Q (.ok b) t) :
    ReadSafe sha256 format Q (pure b) w :=
  ⟨hok⟩

lemma ReadSafe.attempt {p : StoreProg α} {f : Except CollabError α → StoreProg β}
    (hp : ReadSafe sha256 format P p w)
    (hf : ∀ outcome t, P outcome t → HubAdvance format w t →
      ReadSafe sha256 format Q (f outcome) t) :
    ReadSafe sha256 format Q (p.attempt >>= f) w :=
  ⟨Prog.Safe.attempt_bind .refl hp.reached.safe fun outcome t h => (hf outcome t h.1 h.2).safe⟩

end Advances

section Chains

variable {w t : World} {head cursor : String}

lemma firstParentChain_after : after (firstParentChain head) w = w := by
  simp only [firstParentChain, check, after]
  cases w.failure gitFailed with
  | some e => rfl
  | none =>
      simp only
      split_ifs
      · rfl
      · rfl
      · cases (checkChain (revList w.commits head (replayWindow + 1))).map fun _ =>
          revList w.commits head (replayWindow + 1) <;> rfl

lemma checkChain_ok {chain : List (String × List String)} (h : checkChain chain = .ok ()) :
    chain.IsChain fun newer older => newer.2 = [older.1] := by
  induction chain with
  | nil => exact List.isChain_nil
  | cons line rest ih =>
      cases rest with
      | nil => exact List.isChain_singleton _
      | cons next rest =>
          obtain ⟨name, parents⟩ := line
          rw [checkChain] at h
          split_ifs at h with hmerge hnext
          exact List.isChain_cons_cons.mpr ⟨not_not.mp hnext, ih h⟩

/-- A chain that is returned: the window of the history, every commit with its parent next. -/
lemma firstParentChain_ok {chain : List (String × List String)}
    (h : result (firstParentChain head) w = .ok chain) :
    chain.map (·.1) = (w.commits.firstParents head).take (replayWindow + 1) ∧
      (chain.map (·.1)).reverse.IsChain w.StepsTo := by
  have hnames : (revList w.commits head (replayWindow + 1)).map (·.1) =
      (w.commits.firstParents head).take (replayWindow + 1) := by
    rw [revList, List.map_map]
    exact List.map_id _
  have hlines : ∀ line ∈ revList w.commits head (replayWindow + 1),
      line.2 = ((w.commits.find line.1).map (·.parents)).getD [] := by
    intro line hline
    obtain ⟨name, -, rfl⟩ := List.mem_map.mp hline
    rfl
  simp only [firstParentChain, check, result] at h
  cases hfailure : w.failure gitFailed with
  | some e =>
      rw [hfailure] at h
      cases h
  | none =>
      simp only [hfailure] at h
      split_ifs at h
      cases hcheck : checkChain (revList w.commits head (replayWindow + 1)) with
      | error e => simp [hcheck, Except.map] at h
      | ok done =>
          simp only [hcheck, Except.map, Except.ok.injEq] at h
          subst h
          refine ⟨hnames, ?_⟩
          rw [List.isChain_reverse, List.isChain_map]
          refine (checkChain_ok hcheck).imp_of_mem_imp fun newer older hnewer _ hparents => ?_
          rw [hlines newer hnewer] at hparents
          cases hfind : w.commits.find newer.1 with
          | none =>
              rw [hfind] at hparents
              cases hparents
          | some version =>
              rw [hfind] at hparents
              exact ⟨version, hfind, hparents⟩

end Chains

section Pages

/-- A page cut from a chain after one of its names: it goes on along the chain, and there is
more if it does not end where the chain ends. -/
lemma page_of_chain {names : List String} {steps : String → String → Prop} {cursor head : String}
    {count : ℕ} (hnodup : names.Nodup) (hchain : names.IsChain steps) (hmem : cursor ∈ names)
    (hlast : names.getLast? = some head) (hcount : 1 ≤ count) :
    let page := (names.drop (names.idxOf cursor + 1)).take count
    (cursor :: page).IsChain steps ∧ page.getLast?.getD cursor ∈ names ∧
      (names.idxOf cursor + count < names.length - 1 ↔ page.getLast?.getD cursor ≠ head) := by
  obtain ⟨older, newer, rfl, hfirst⟩ := List.eq_append_cons_of_mem hmem
  have hindex : (older ++ cursor :: newer).idxOf cursor = older.length := by
    rw [List.idxOf_append_of_notMem hfirst, List.idxOf_cons_self, Nat.add_zero]
  have hdrop : (older ++ cursor :: newer).drop (older.length + 1) = newer := by
    rw [List.append_cons]
    exact List.drop_left' (by simp)
  intro page
  have hpage : page = newer.take count := by
    rw [← hdrop, ← hindex]
  have hline : (cursor :: newer).IsChain steps := hchain.right_of_append
  refine ⟨?_, ?_, ?_⟩
  · rw [hpage, ← List.take_succ_cons]
    exact hline.take _
  · rw [hpage]
    cases hend : (newer.take count).getLast? with
    | none => exact hmem
    | some name =>
        have hname := List.mem_of_mem_take (List.mem_of_getLast? hend)
        exact List.mem_append_right _ (List.mem_cons_of_mem _ hname)
  · rw [hindex, hpage, List.length_append, List.length_cons]
    have htip : newer.getLast?.getD cursor = head := by
      rw [List.getLast?_append_cons, List.getLast?_cons] at hlast
      exact Option.some.inj hlast
    by_cases hmore : count < newer.length
    · refine ⟨fun _ hsame => ?_, fun _ => by omega⟩
      have htaken : newer.take count ≠ [] := by
        intro hnil
        have hlength := congrArg List.length hnil
        rw [List.length_take, List.length_nil] at hlength
        omega
      have hleft : newer.drop count ≠ [] := by
        rw [Ne, List.drop_eq_nil_iff]
        omega
      rw [← List.take_append_drop count newer, List.getLast?_append_of_ne_nil _ hleft,
        List.getLast?_eq_some_getLast hleft, Option.getD_some] at htip
      rw [List.getLast?_eq_some_getLast htaken, Option.getD_some] at hsame
      have hdistinct : (newer.take count ++ newer.drop count).Nodup := by
        rw [List.take_append_drop]
        exact (List.nodup_cons.mp (List.nodup_append.mp hnodup).2.1).2
      refine (List.nodup_append.mp hdistinct).2.2 head ?_ head ?_ rfl
      · rw [← hsame]
        exact List.getLast_mem htaken
      · rw [← htip]
        exact List.getLast_mem hleft
    · rw [List.take_of_length_le (by omega)]
      exact ⟨fun hlt => by omega, fun hne => absurd htip hne⟩

variable {δ φ : Type} [DecidableEq δ] {sha256 : String → δ} {format : ProposalFormat φ}
  {w : World} {store : ℕ}

/-- What a fetch tells a reader: the head of the moment, above whatever was there before. -/
def Pinned (s : World) (found : Except CollabError (String × SessionState)) (w : World) : Prop :=
  ∀ head state, found = .ok (head, state) → w.stateAt head = .ok state ∧ head ∈ w.history ∧
    ∃ newer, w.commits.firstParents head = newer ++ s.history

lemma refreshMirror_safe {call : HubCall δ φ} {sha : String} :
    HubSafe sha256 format call (fun _ _ => True) (refreshMirror store sha) w := by
  refine HubSafe.read (fun t => localHead_after) (fun t current _ _ => ?_) fun e t => trivial
  exact HubSafe.mirror (fun t => casRef_frame) (fun t _ _ => .pure fun _ _ => trivial)
    fun e t => trivial

theorem fetchState_reads : ReadSafe sha256 format (Pinned w) (fetchState store) w := by
  unfold fetchState
  refine ReadSafe.read (fun t => fetchBranch_after) (fun t found ht hfound => ?_) fun e t => nofun
  obtain ⟨head, state⟩ := found
  obtain ⟨hat, hseen⟩ := fetchBranch_ok hfound
  have hhistory := World.history_of_head hat
  refine ReadSafe.bind refreshMirror_safe.reads (fun _ u _ hu => ?_) fun e t => nofun
  refine .pure fun v hv other read heq => ?_
  cases heq
  have hlater := hu.trans hv
  have hknown := t.head_known head hat
  refine ⟨World.stateAt_later hseen.state hlater.move.grows, hlater.mem_history ?_, ?_⟩
  · rw [hhistory]
    exact mem_firstParents_self hknown
  · rw [hlater.move.grows.firstParents hknown, ← hhistory]
    exact ht.history

lemma pageLimit_ok {limit : Json} {count : ℕ} (h : pageLimit limit = .ok count) :
    limit = .int count ∧ 1 ≤ count := by
  unfold pageLimit at h
  cases limit with
  | int n =>
      simp only at h
      split_ifs at h with hn
      have hcount := Except.ok.inj h
      refine ⟨congrArg Json.int ?_, ?_⟩ <;> omega
  | null => cases h
  | bool value => cases h
  | float text => cases h
  | str text => cases h
  | arr items => cases h
  | obj members => cases h

theorem pageStates_reads {head : String} {headState : SessionState} (commits : List String)
    (hhead : w.stateAt head = .ok headState) :
    ReadSafe sha256 format (fun found t => ∀ states, found = .ok states →
      states.map (·.1) = commits ∧ ∀ entry ∈ states, t.stateAt entry.1 = .ok entry.2)
      (pageStates head headState commits) w := by
  induction commits generalizing w with
  | nil =>
      refine .pure fun t _ states heq => ?_
      cases heq
      exact ⟨rfl, by simp⟩
  | cons commit rest ih =>
      have hstate : ReadSafe sha256 format (fun found t => ∀ state, found = .ok state →
          t.stateAt commit = .ok state) (pageState head headState commit) w := by
        by_cases hsame : commit = head
        · rw [pageState, if_pos hsame, hsame]
          refine .pure fun t ht state heq => ?_
          cases heq
          exact World.stateAt_later hhead ht.move.grows
        · have hread : ReadSafe sha256 format (fun found t => ∀ state, found = .ok state →
              t.stateAt commit = .ok state)
              (Prog.call .read (readState commit) >>= fun state => pure state) w := by
            refine ReadSafe.read (fun t => readState_after) (fun t state _ hstate => ?_)
              fun e t => nofun
            refine .pure fun u hu found heq => ?_
            cases heq
            exact World.stateAt_later (readState_ok hstate) hu.move.grows
          rwa [pageState, if_neg hsame, ← bind_pure (Prog.call _ _)]
      refine ReadSafe.bind hstate (fun state t hfound ht => ?_) fun e t => nofun
      refine ReadSafe.bind (ih (World.stateAt_later hhead ht.move.grows))
        (fun states u hstates hu => ?_) fun e t => nofun
      refine .pure fun v hv all heq => ?_
      cases heq
      obtain ⟨hnames, hall⟩ := hstates states rfl
      refine ⟨by rw [List.map_cons, hnames], fun entry hentry => ?_⟩
      rcases List.mem_cons.mp hentry with rfl | hentry
      · exact World.stateAt_later (hfound state rfl) (hu.trans hv).move.grows
      · exact World.stateAt_later (hall entry hentry) hv.move.grows

/-- The last revision of a page, or the one after which it was asked for. -/
def lastOf (cursor : String) (revisions : List String) : String := revisions.getLast?.getD cursor

/-- What a page of states says of the hub; `s` is the hub before the page was asked for. -/
structure StatesTold (s w : World) (cursor : String) (count : ℕ) (page : StateReplay) : Prop where
  previous : w.stateAt cursor = .ok page.previousState
  chain : (cursor :: page.states.map (·.1)).IsChain w.StepsTo
  states : ∀ entry ∈ page.states, w.stateAt entry.1 = .ok entry.2
  count : page.states.length ≤ count
  last : lastOf cursor (page.states.map (·.1)) ∈ w.history
  head : page.headRevision ∈ w.history
  recent : ∃ newer, w.commits.firstParents page.headRevision = newer ++ s.history
  more : page.hasMore = true ↔ lastOf cursor (page.states.map (·.1)) ≠ page.headRevision

lemma StatesTold.later {s t : World} {cursor : String} {count : ℕ} {page : StateReplay}
    (h : StatesTold s w cursor count page) (ht : HubAdvance format w t) :
    StatesTold s t cursor count page where
  previous := World.stateAt_later h.previous ht.move.grows
  chain := h.chain.imp fun _ _ hsteps => hsteps.later ht.move.grows
  states entry hentry := World.stateAt_later (h.states entry hentry) ht.move.grows
  count := h.count
  last := ht.mem_history h.last
  head := ht.mem_history h.head
  recent := by
    rw [ht.move.grows.firstParents (known_of_mem_history h.head)]
    exact h.recent
  more := h.more

theorem replayStates_reads {afterRevision limit : Json} :
    ReadSafe sha256 format (fun found t => ∀ page, found = .ok page → ∃ (cursor : String) (count : ℕ),
      afterRevision = .str cursor ∧ limit = .int count ∧ StatesTold w t cursor count page)
      (replayStates store afterRevision limit) w := by
  unfold replayStates
  refine ReadSafe.check (fun cursor hcursor => ?_) fun e t => nofun
  refine ReadSafe.check (fun count hcount => ?_) fun e t => nofun
  obtain ⟨hcursor, -⟩ := shaHex_eq_ok.mp hcursor
  obtain ⟨hlimit, hpositive⟩ := pageLimit_ok hcount
  suffices hpage : ReadSafe sha256 format (fun found t => ∀ page, found = .ok page →
      StatesTold w t cursor count page) _ w by
    exact ⟨hpage.safe.weaken fun found t h page heq => ⟨cursor, count, hcursor, hlimit, h page heq⟩⟩
  refine ReadSafe.bind fetchState_reads (fun found t hpinned ht => ?_) fun e t => nofun
  obtain ⟨head, headState⟩ := found
  obtain ⟨hhead, hhistory, hrecent⟩ := hpinned head headState rfl
  refine ReadSafe.read (fun t => firstParentChain_after) (fun u chain hu hchain => ?_)
    fun e t => nofun
  obtain ⟨hwindow, hsteps⟩ := firstParentChain_ok hchain
  have hknown := known_of_mem_history hhistory
  have hparents := hu.move.grows.firstParents hknown
  have hheadThen := hu.mem_history hhistory
  have hstateThen := World.stateAt_later hhead hu.move.grows
  by_cases hmem : cursor ∉ chain.map (·.1)
  · rw [if_pos hmem]
    exact .throw fun e t => nofun
  rw [if_neg hmem]
  have hin : ∀ name ∈ (chain.map (·.1)).reverse, name ∈ u.history := by
    intro name hname
    rw [List.mem_reverse, hwindow] at hname
    exact mem_history hheadThen (List.mem_of_mem_take hname)
  have hlast : (chain.map (·.1)).reverse.getLast? = some head := by
    obtain ⟨older, holder⟩ := firstParents_self hknown
    rw [List.getLast?_reverse, hwindow, hparents, Versions.firstParents, holder]
    rfl
  have hnodup : (chain.map (·.1)).reverse.Nodup := by
    rw [List.nodup_reverse, hwindow]
    exact (firstParents_nodup u.commits.grown).sublist (List.take_sublist _ _)
  have hcursorIn : cursor ∈ (chain.map (·.1)).reverse := by
    rw [List.mem_reverse]
    exact not_not.mp hmem
  obtain ⟨hline, hend, hmore⟩ := page_of_chain hnodup hsteps hcursorIn hlast hpositive
  by_cases hcaught : cursor = head
  · rw [if_pos hcaught]
    refine .pure fun v hv page heq => ?_
    cases heq
    refine StatesTold.later ?_ hv
    subst hcaught
    exact ⟨hstateThen, List.isChain_singleton _, by simp, Nat.zero_le _, hheadThen, hheadThen,
      by rwa [hparents], by simp [lastOf]⟩
  rw [if_neg hcaught]
  refine ReadSafe.read (fun t => readState_after) (fun v previous hv hprevious => ?_)
    fun e t => nofun
  refine ReadSafe.bind (pageStates_reads _ (World.stateAt_later hstateThen hv.move.grows))
    (fun states x hstates hx => ?_) fun e t => nofun
  obtain ⟨hnames, hall⟩ := hstates states rfl
  by_cases hidentity : ((previous :: states.map (·.2)).any
      fun state => decide (state.pinnedIdentity ≠ headState.pinnedIdentity)) = true
  · rw [if_pos hidentity]
    exact .throw fun e t => nofun
  rw [if_neg hidentity]
  refine .pure fun y hy page heq => ?_
  cases heq
  have hlater := (hv.trans hx).trans hy
  refine ⟨World.stateAt_later (readState_ok hprevious) (hx.trans hy).move.grows, ?_,
    fun entry hentry => World.stateAt_later (hall entry hentry) hy.move.grows, ?_, ?_,
    hlater.mem_history hheadThen, ?_, ?_⟩
  · rw [hnames]
    exact hline.imp fun _ _ h => h.later hlater.move.grows
  · rw [← List.length_map (f := Prod.fst), hnames]
    exact List.length_take_le _ _
  · rw [hnames, lastOf]
    exact hlater.mem_history (hin _ hend)
  · rw [hlater.move.grows.firstParents (known_of_mem_history hheadThen), hparents]
    exact hrecent
  · rw [hnames, lastOf, decide_eq_true_eq]
    exact hmore

/-- The events of a chain of states tell it. -/
lemma replayEvents_replays {identity : String × String × String} {cursor : String}
    {previous : SessionState} {states : List (String × SessionState)} {events : List ReplayEvent}
    (hprevious : w.stateAt cursor = .ok previous)
    (hchain : (cursor :: states.map (·.1)).IsChain w.StepsTo)
    (hstates : ∀ entry ∈ states, w.stateAt entry.1 = .ok entry.2)
    (h : replayEvents identity cursor previous states = .ok events) :
    w.Replays cursor events (lastOf cursor (states.map (·.1))) ∧
      events.map (·.revision) = states.map (·.1) := by
  induction states generalizing cursor previous events with
  | nil =>
      cases h
      exact ⟨.here cursor, rfl⟩
  | cons entry states ih =>
      obtain ⟨revision, raw⟩ := entry
      simp only [replayEvents, except_bind_eq_ok, shaHex_eq_ok, Json.str.injEq,
        except_pure_eq_ok] at h
      obtain ⟨_, ⟨rfl, -⟩, state, hstate, rest, hrest, rfl⟩ := h
      have hraw := hstates _ List.mem_cons_self
      obtain rfl := checkedState_ok (World.stateAt_valid hraw) hstate
      rw [List.map_cons, List.isChain_cons_cons] at hchain
      obtain ⟨hreplays, hrevisions⟩ := ih hraw hchain.2
        (fun entry hentry => hstates entry (List.mem_cons_of_mem _ hentry)) hrest
      have htells : w.Tells (replayEvent cursor revision previous state) :=
        ⟨previous, state, hchain.1, hprevious, hraw, rfl⟩
      refine ⟨?_, by rw [List.map_cons, List.map_cons, hrevisions]; rfl⟩
      have hlast : lastOf cursor ((revision :: states.map (·.1))) =
          lastOf revision (states.map (·.1)) := by
        rw [lastOf, lastOf, List.getLast?_cons, Option.getD_some]
      rw [List.map_cons, hlast]
      exact .next htells hreplays

/-- What a page says of the hub; `s` is the hub before the page was asked for. -/
structure PageTold (s w : World) (cursor : String) (count : ℕ) (page : ReplayPage) : Prop where
  replays : w.Replays cursor page.events page.nextRevision
  count : page.events.length ≤ count
  next : page.nextRevision ∈ w.history
  head : page.headRevision ∈ w.history
  recent : ∃ newer, w.commits.firstParents page.headRevision = newer ++ s.history
  more : page.hasMore = true ↔ page.nextRevision ≠ page.headRevision

lemma PageTold.later {s t : World} {cursor : String} {count : ℕ} {page : ReplayPage}
    (h : PageTold s w cursor count page) (ht : HubAdvance format w t) :
    PageTold s t cursor count page where
  replays := h.replays.later ht.move.grows
  count := h.count
  next := ht.mem_history h.next
  head := ht.mem_history h.head
  recent := by
    rw [ht.move.grows.firstParents (known_of_mem_history h.head)]
    exact h.recent
  more := h.more

/-- What a page replies to a request. -/
def PageReply (coordinator : Coordinator δ) (sha256 : String → δ) (credential : String)
    (afterRevision limit : Json) (s w : World) (page : ReplayPage) : Prop :=
  (∃ member, coordinator.authenticate sha256 credential = .ok member) ∧
    ∃ (cursor : String) (count : ℕ), afterRevision = .str cursor ∧ limit = .int count ∧
      PageTold s w cursor count page

theorem replay_reads {coordinator : Coordinator δ} {credential : String}
    {afterRevision limit : Json} :
    ReadSafe sha256 format (fun found t => ∀ page, found = .ok page →
      PageReply coordinator sha256 credential afterRevision limit w t page)
      (coordinator.replay sha256 store credential afterRevision limit) w := by
  unfold Coordinator.replay
  refine ReadSafe.check (fun member hmember => ?_) fun e t => nofun
  refine ReadSafe.check (fun cursor hcursor => ?_) fun e t => nofun
  obtain ⟨hcursor, -⟩ := shaHex_eq_ok.mp hcursor
  refine ReadSafe.check (fun _ _ => ?_) fun e t => nofun
  refine ReadSafe.bind replayStates_reads (fun page t hpage ht => ?_) fun e t => nofun
  obtain ⟨asked, count, hasked, hlimit, htold⟩ := hpage page rfl
  obtain rfl := Json.str.inj hasked
  refine ReadSafe.check (fun head hhead => ?_) fun e t => nofun
  obtain rfl := Json.str.inj (shaHex_eq_ok.mp hhead).1
  refine ReadSafe.check (fun previous hprevious => ?_) fun e t => nofun
  obtain rfl := checkedState_ok (World.stateAt_valid htold.previous) hprevious
  refine ReadSafe.check (fun events hevents => ?_) fun e t => nofun
  obtain ⟨hreplays, hrevisions⟩ :=
    replayEvents_replays htold.previous htold.chain htold.states hevents
  have hnext : (events.getLast?.map (·.revision)).getD cursor =
      lastOf cursor (page.states.map (·.1)) := by
    rw [← hrevisions, lastOf, List.getLast?_map]
  refine .pure fun u hu reply heq => ?_
  cases heq
  refine ⟨⟨member, hmember⟩, cursor, count, hcursor, hlimit, PageTold.later ?_ hu⟩
  refine ⟨?_, ?_, ?_, htold.head, htold.recent, ?_⟩
  · exact hnext ▸ hreplays
  · have hlength := congrArg List.length hrevisions
    rw [List.length_map, List.length_map] at hlength
    exact hlength ▸ htold.count
  · exact hnext ▸ htold.last
  · exact hnext ▸ htold.more

end Pages

section Streams

variable {δ φ ι : Type} [DecidableEq δ] {sha256 : String → δ} {format : ProposalFormat φ}
  {s w t : World} {store : ℕ} {cursor last : String} {frames : List Frame}

/-- The frames that a subscriber who stands at a revision is sent: one step of the history
after the other; a heartbeat when all that was there before is told; a failure at the end. -/
inductive StreamTold (s w : World) : String → List Frame → Prop
  | stop {cursor : String} (reached : cursor ∈ w.history) : StreamTold s w cursor []
  | failure {cursor name : String} {e : CollabError} (reached : cursor ∈ w.history) :
      StreamTold s w cursor [.failure name e]
  | heartbeat {cursor : String} {frames : List Frame}
      (caught : ∃ newer, w.commits.firstParents cursor = newer ++ s.history)
      (rest : StreamTold s w cursor frames) : StreamTold s w cursor (.heartbeat :: frames)
  | revision {event : ReplayEvent} {frames : List Frame} (told : w.Tells event)
      (rest : StreamTold s w event.revision frames) :
      StreamTold s w event.previousRevision (.revision event :: frames)

lemma StreamTold.reached (h : StreamTold s w cursor frames) : cursor ∈ w.history := by
  induction h with
  | stop reached => exact reached
  | failure reached => exact reached
  | heartbeat caught rest ih => exact ih
  | revision told rest ih => exact (World.Replays.next told (.here _)).mem_history ih

lemma StreamTold.later (h : StreamTold s w cursor frames) (ht : HubAdvance format w t) :
    StreamTold s t cursor frames := by
  induction h with
  | stop reached => exact .stop (ht.mem_history reached)
  | failure reached => exact .failure (ht.mem_history reached)
  | heartbeat caught rest ih =>
      refine .heartbeat ?_ ih
      rw [ht.move.grows.firstParents (known_of_mem_history rest.reached)]
      exact caught
  | revision told rest ih => exact .revision (told.later ht.move.grows) ih

lemma World.Replays.told {events : List ReplayEvent} (h : w.Replays cursor events last)
    (hrest : StreamTold s w last frames) :
    StreamTold s w cursor (events.map .revision ++ frames) := by
  induction h with
  | here cursor => exact hrest
  | next told rest ih => exact .revision told (ih hrest)

def Frame.event : Frame → Option ReplayEvent
  | .revision event => some event
  | _ => none

/-- The revisions of events, latest first, stand in the history right after a revision. -/
def World.Continues (w : World) (cursor : String) (events : List ReplayEvent) : Prop :=
  ∃ newer, w.history = newer ++ (events.map (·.revision)).reverse ++ w.commits.firstParents cursor

lemma World.Replays.continues {events : List ReplayEvent} (h : w.Replays cursor events last)
    (hlast : last ∈ w.history) : w.Continues cursor events := by
  obtain ⟨newer, hnewer⟩ := history_split hlast
  exact ⟨newer, by rw [hnewer, h.firstParents, List.append_assoc]⟩

/-- A stream tells a part of the history without gaps. -/
lemma StreamTold.replays (h : StreamTold s w cursor frames) :
    ∃ last ∈ w.history, w.Replays cursor (frames.filterMap Frame.event) last := by
  induction h with
  | stop reached => exact ⟨_, reached, .here _⟩
  | failure reached => exact ⟨_, reached, .here _⟩
  | heartbeat caught rest ih => exact ih
  | revision told rest ih =>
      obtain ⟨last, hlast, hreplays⟩ := ih
      exact ⟨last, hlast, .next told hreplays⟩

/-- What is sent of a page before the next one. -/
lemma PageTold.sent {count : ℕ} {page : ReplayPage} (h : PageTold s w cursor count page)
    (turn : Turn) (hrest : StreamTold s w page.nextRevision frames) :
    StreamTold s w cursor (sentOf turn page ++ frames) := by
  rw [sentOf, List.append_assoc]
  refine h.replays.told ?_
  by_cases hquiet : page.hasMore = true ∨ turn.pause = .stopped
  · rw [if_pos hquiet]
    exact hrest
  · rw [if_neg hquiet]
    have hcaught : page.nextRevision = page.headRevision := by
      by_contra hne
      exact hquiet (.inl (h.more.mpr hne))
    refine .heartbeat ?_ hrest
    rw [hcaught]
    exact h.recent

variable {coordinator : Coordinator δ} {credential : String}

theorem streamTurns_told (turns : List Turn) {count : ℕ} {page : ReplayPage}
    (hpage : PageTold s w cursor count page) (hs : ∃ newer, w.history = newer ++ s.history) :
    ReadSafe sha256 format (fun found t => ∀ frames, found = .ok frames →
      StreamTold s t cursor frames)
      (streamTurns sha256 coordinator store credential turns page) w := by
  induction turns generalizing w cursor count page with
  | nil =>
      refine .pure fun t ht frames heq => ?_
      cases heq
      exact .stop (ht.mem_history (hpage.replays.mem_history hpage.next))
  | cons turn turns ih =>
      rw [streamTurns]
      cases turn.breaks with
      | some sent =>
          refine .pure fun t ht frames heq => ?_
          cases heq
          have hreplays := hpage.replays
          rw [← List.take_append_drop sent page.events] at hreplays
          obtain ⟨middle, hsent, hleft⟩ := hreplays.split
          have htold := hsent.told (s := s) (.stop (hleft.mem_history hpage.next))
          rw [List.append_nil] at htold
          exact htold.later ht
      | none =>
          simp only
          by_cases hpause : turn.pause ≠ .resumed
          · rw [if_pos hpause]
            refine .pure fun t ht frames heq => ?_
            cases heq
            have htold := hpage.sent turn (.stop hpage.next)
            rw [List.append_nil] at htold
            exact htold.later ht
          · rw [if_neg hpause]
            refine ReadSafe.attempt replay_reads (fun outcome t hreply ht => ?_)
            have hpageThen := hpage.later ht
            obtain ⟨grown, hgrown⟩ := ht.history
            obtain ⟨newer, hnewer⟩ := hs
            cases outcome with
            | error e =>
                refine .pure fun u hu frames heq => ?_
                cases heq
                refine StreamTold.later (hpageThen.sent turn ?_) hu
                rw [streamError]
                by_cases hfailing : turn.failing = true
                · rw [if_pos hfailing]
                  exact .failure hpageThen.next
                · rw [if_neg hfailing]
                  exact .stop hpageThen.next
            | ok next =>
                obtain ⟨-, asked, _, hasked, -, htold⟩ := hreply next rfl
                obtain rfl := Json.str.inj hasked
                have hsince : PageTold s t page.nextRevision _ next :=
                  ⟨htold.replays, htold.count, htold.next, htold.head, by
                    obtain ⟨latest, hlatest⟩ := htold.recent
                    exact ⟨latest ++ newer, by rw [hlatest, hnewer, List.append_assoc]⟩,
                    htold.more⟩
                refine ReadSafe.bind (ih hsince ⟨grown ++ newer, by
                  rw [hgrown, hnewer, List.append_assoc]⟩) (fun sent u hsent hu => ?_)
                  fun e t => nofun
                refine .pure fun v hv frames heq => ?_
                cases heq
                exact StreamTold.later ((hpageThen.later hu).sent turn (hsent sent rfl)) hv

/-- What a stream replies to a subscriber. -/
def StreamReply (coordinator : Coordinator δ) (sha256 : String → δ) (credential : String)
    (afterRevision : Json) (s w : World) (frames : List Frame) : Prop :=
  (∃ member, coordinator.authenticate sha256 credential = .ok member) ∧
    ∃ cursor sent, afterRevision = .str cursor ∧ StreamTold s w cursor sent ∧
      (frames = .ready :: sent ∨ frames = [])

theorem stream_reads {afterRevision : Json} {turns : Option (List Turn)} :
    ReadSafe sha256 format (fun found t => ∀ frames, found = .ok frames →
      StreamReply coordinator sha256 credential afterRevision w t frames)
      (stream sha256 coordinator store credential afterRevision turns) w := by
  unfold stream
  refine ReadSafe.bind replay_reads (fun page t hreply ht => ?_) fun e t => nofun
  obtain ⟨hmember, cursor, count, hcursor, -, hpage⟩ := hreply page rfl
  cases turns with
  | none =>
      refine .pure fun u hu frames heq => ?_
      cases heq
      have hreached := hu.mem_history (hpage.replays.mem_history hpage.next)
      exact ⟨hmember, cursor, [], hcursor, .stop hreached, .inr rfl⟩
  | some turns =>
      refine ReadSafe.bind (streamTurns_told turns hpage ht.history) (fun sent u hsent hu => ?_)
        fun e t => nofun
      refine .pure fun v hv frames heq => ?_
      cases heq
      exact ⟨hmember, cursor, sent, hcursor, (hsent sent rfl).later hv, .inl rfl⟩

/-- What a request replies: a revision that the hub has from then on, a page, or the frames
of a stream; the events of either stand in the history without gaps. -/
def HubRequest.Replied (sha256 : String → δ) (s w : World) : HubRequest δ φ → HubAnswer → Prop
  | .call _, .revision revision =>
      ∃ head, w.head = some head ∧ w.commits.isAncestor revision head = true
  | .replay coordinator credential afterRevision limit, .page page =>
      PageReply coordinator sha256 credential afterRevision limit s w page ∧
        ∀ cursor, afterRevision = .str cursor → w.Continues cursor page.events
  | .subscribe coordinator credential afterRevision _, .frames frames =>
      StreamReply coordinator sha256 credential afterRevision s w frames ∧
        ∀ cursor, afterRevision = .str cursor → w.Continues cursor (frames.filterMap Frame.event)
  | _, _ => False

lemma PageReply.replied {afterRevision limit : Json} {page : ReplayPage}
    (h : PageReply coordinator sha256 credential afterRevision limit s w page) :
    (HubRequest.replay coordinator credential afterRevision limit : HubRequest δ φ).Replied sha256
      s w (.page page) := by
  refine ⟨h, ?_⟩
  obtain ⟨-, cursor, count, hcursor, -, htold⟩ := h
  intro asked hasked
  obtain rfl := Json.str.inj (hcursor.symm.trans hasked)
  exact htold.replays.continues htold.next

lemma StreamReply.replied {afterRevision : Json} {turns : Option (List Turn)}
    (h : StreamReply coordinator sha256 credential afterRevision s w frames) :
    (HubRequest.subscribe coordinator credential afterRevision turns : HubRequest δ φ).Replied
      sha256 s w (.frames frames) := by
  refine ⟨h, ?_⟩
  obtain ⟨-, cursor, sent, hcursor, htold, hframes⟩ := h
  intro asked hasked
  obtain rfl := Json.str.inj (hcursor.symm.trans hasked)
  rcases hframes with rfl | rfl
  · obtain ⟨last, hlast, hreplays⟩ := htold.replays
    exact hreplays.continues hlast
  · exact (World.Replays.here cursor).continues htold.reached

/-- Each request is safe among any others, and replies what it stands for. -/
theorem request_safe (request : HubRequest δ φ) :
    Prog.Safe (HubAdvance format) (fun _ => HubStep sha256 format request.hubCall)
      (fun found t => ∀ answer, found = .ok answer → request.Replied sha256 w t answer)
      (request.program sha256 format store) w := by
  cases request with
  | call asked =>
      have hsafe : Prog.Safe (HubAdvance format) (fun _ => HubStep sha256 format asked)
          Acknowledged (asked.program sha256 format store) w := by
        refine Prog.Safe.narrow (program_safe asked w).safe ?_
        exact fun _ _ hadvance => hadvance.move
      refine Prog.Safe.bind .refl hsafe (fun revision t hdone => ?_) fun e t _ => nofun
      refine fun u hu answer heq => ?_
      cases heq
      exact Acknowledged.later hdone hu.move revision rfl
  | replay coordinator credential afterRevision limit =>
      refine Prog.Safe.bind .refl replay_reads.safe (fun page t hreply => ?_) fun e t _ => nofun
      refine fun u hu answer heq => ?_
      cases heq
      obtain ⟨hmember, cursor, count, hcursor, hlimit, htold⟩ := hreply page rfl
      exact PageReply.replied ⟨hmember, cursor, count, hcursor, hlimit, htold.later hu⟩
  | subscribe coordinator credential afterRevision turns =>
      refine Prog.Safe.bind .refl stream_reads.safe (fun frames t hreply => ?_) fun e t _ => nofun
      refine fun u hu answer heq => ?_
      cases heq
      obtain ⟨hmember, cursor, sent, hcursor, htold, hframes⟩ := hreply frames rfl
      exact StreamReply.replied ⟨hmember, cursor, sent, hcursor, htold.later hu, hframes⟩

variable (sha256 format) in
/-- A run of a hub with its readers. -/
abbrev readRun (client : ι → ℕ × HubRequest δ φ)
    (pool : Pool ι GitStep World CollabError HubAnswer) (choices : List (Choice ι Weather)) :
    Pool ι GitStep World CollabError HubAnswer :=
  (Pool.play changeWeather
    (fun name => (client name).2.program sha256 format (client name).1) pool choices).2

variable (sha256 format) in
theorem readPool (client : ι → ℕ × HubRequest δ φ) :
    SafePool changeWeather
      (fun name => (client name).2.program sha256 format (client name).1) (HubAdvance format)
      (fun name (_ : GitStep) => HubStep sha256 format (client name).2.hubCall) (fun _ => True)
      (fun _ _ => True) where
  refl := .refl
  trans _ _ _ := .trans
  keeps _ _ _ _ := trivial
  env_rely weather s _ := by
    have hstep : HubStep sha256 format HubCall.sync s (changeWeather weather s) :=
      .quiet (.refl _) rfl rfl
    exact hstep.advance
  guar_rely _ _ _ _ h := h.advance
  safe name s _ := (request_safe (client name).2).weaken fun _ _ _ => trivial

/-- However the requests of readers and the calls of writers are interleaved, and whatever git
commands fail: the history of the hub grows at its head, and each reader who is replied to is
told the steps that follow its revision, each once and in order, up to the head of some moment
after the request. -/
theorem readers_told (sha256 : String → δ) (format : ProposalFormat φ)
    (client : ι → ℕ × HubRequest δ φ) (start : World) (earlier later : List (Choice ι Weather))
    (name : ι) :
    let before := readRun sha256 format client ⟨start, []⟩ earlier
    let final := readRun sha256 format client before (.spawn name :: later)
    (∃ newer, final.shared.history = newer ++ before.shared.history) ∧
      ∃ rest, final.threads[before.threads.length]? = some (name, rest) ∧
        ∀ answer, rest = .done (.ok answer) →
          (client name).2.Replied sha256 before.shared final.shared answer := by
  intro before final
  have hstart : PoolInvariant (HubAdvance format)
      (fun name (_ : GitStep) => HubStep sha256 format (client name).2.hubCall) (fun _ => True)
      (fun _ _ => True) (⟨start, []⟩ : Pool ι GitStep World CollabError HubAnswer) :=
    PoolInvariant.start trivial
  have hpool := readPool sha256 format client
  obtain ⟨-, hbefore⟩ := Pool.play_safe hpool hstart earlier
  obtain ⟨-, hgrown⟩ := Pool.play_reaches hpool hbefore (.spawn name :: later)
  obtain ⟨-, hspawned⟩ := Pool.step_safe hpool hbefore (.spawn name)
  have hat : (before.threads ++ [(name, (client name).2.program sha256 format (client name).1)])[
      before.threads.length]? = some (name, (client name).2.program sha256 format (client name).1) :=
    List.getElem?_concat_length
  obtain ⟨rest, hrest, hsafe⟩ := Pool.play_at hpool hspawned later hat (request_safe _)
  refine ⟨hgrown.history, rest, hrest, fun answer heq => ?_⟩
  rw [heq] at hsafe
  exact hsafe _ (.refl _) answer rfl

end Streams

end Imece.CollabRuntime
