import Imece.CollabRuntime.Store

/-!
# What is committed is read back

A commit that the store accepts is read back, now and at any later time, as the normal
form of the state it was made from.
-/
namespace Imece.CollabRuntime

open Lib

lemma World.stateAt_of_extends {w later : World} (h : w.commits.Extends later.commits)
    {commit : String} (hknown : commit ∈ w.commits.names) :
    later.stateAt commit = w.stateAt commit := by
  rw [World.stateAt, World.stateAt, h.find hknown]

lemma World.stateAt_of_find {w : World} {commit : String} {version : Version String CommitContent}
    (h : w.commits.find commit = some version) (hpath : version.content.path = statePath) :
    w.stateAt commit = readPayload version.content.payload := by
  rw [World.stateAt, h]
  exact if_pos hpath

/-- What a commit command leaves: the commit, and everything that was there before. -/
theorem commitPayload_spec {payload : ByteArray} {path message commit : String}
    {parent : Option String} {w : World}
    (h : result (commitPayload payload path parent message) w = .ok commit) :
    w.commits.Extends (after (commitPayload payload path parent message) w).commits ∧
      (after (commitPayload payload path parent message) w).commits.find commit =
        some ⟨commit, parent.toList, ⟨path, payload, message⟩⟩ := by
  rw [result_eq_ok] at h
  revert h
  generalize after (commitPayload payload path parent message) w = left
  intro h
  simp only [commitPayload] at h
  split at h
  · cases h
  · split at h
    · split at h
      · rename_i found hfound
        split at h
        · rename_i hsame
          cases h
          exact ⟨Versions.Extends.refl _, hsame ▸ hfound⟩
        · cases h
      · split at h
        · rename_i hadd
          cases h
          exact ⟨Versions.extends_add hadd.1 hadd.2,
            Versions.find_add hadd.1 hadd.2⟩
        · cases h
    · cases h

lemma commitPayload_stateAt {state : SessionState} {payload : ByteArray}
    {parent : Option String} {message commit : String} {w : World}
    (hpayload : statePayload state = .ok payload)
    (hcommit : result (commitPayload payload statePath parent message) w = .ok commit)
    {read : SessionState} :
    (after (commitPayload payload statePath parent message) w).stateAt commit = .ok read ↔
      state.normal.NoDrive ∧ read = state.normal := by
  obtain ⟨hadmissible, heq, hsize⟩ := statePayload_eq_ok.mp hpayload
  have hread : (after (commitPayload payload statePath parent message) w).stateAt commit =
      readPayload payload :=
    World.stateAt_of_find (commitPayload_spec hcommit).2 rfl
  rw [hread, heq]
  rw [heq] at hsize
  exact readPayload_normal hadmissible hsize

/-- A parsed state without drive letters is parsed from its own document again. -/
theorem parseStateDict_again {obj : Json} {state : SessionState}
    (h : parseStateDict obj = .ok state) (hdrive : state.NoDrive) :
    parseStateDict state.toDict = .ok state := by
  have hvalid := parseStateDict_valid h
  exact (parseStateDict_document (stateDocument_toDict state)).mpr
    ⟨hvalid.admissible_iff.mpr hdrive, hvalid.normal.symm⟩

/-- Whatever state `_commit` accepts is read back in its normal form, so as itself where it
already is in that form; and what the parser returns it returns again from the state's own
document. Left out are the states with a scope whose normal form starts with a drive
letter. -/
theorem accepted_state_read_back :
    (∀ (state : SessionState) (payload : ByteArray) (parent : Option String)
      (message commit : String) (w later : World), statePayload state = .ok payload →
      result (commitPayload payload statePath parent message) w = .ok commit →
      (after (commitPayload payload statePath parent message) w).commits.Extends later.commits →
      state.normal.NoDrive →
        later.stateAt commit = .ok state.normal ∧
          (state.normal = state → later.stateAt commit = .ok state)) ∧
    ∀ (obj : Json) (state : SessionState), parseStateDict obj = .ok state → state.NoDrive →
      parseStateDict state.toDict = .ok state := by
  refine ⟨?_, fun obj state => parseStateDict_again⟩
  intro state payload parent message commit w later hpayload hcommit hlater hdrive
  obtain ⟨-, hfind⟩ := commitPayload_spec hcommit
  have hread : later.stateAt commit = .ok state.normal := by
    rw [World.stateAt_of_extends hlater (Versions.find_some hfind).2]
    exact (commitPayload_stateAt hpayload hcommit).mpr ⟨hdrive, rfl⟩
  exact ⟨hread, fun hnormal => by rw [hread, hnormal]⟩

/-- A hub on which nothing was published yet. -/
def emptyWorld (fresh : String) : World where
  commits := ⟨[], trivial⟩
  head := none
  proposals := ∅
  mirror _ := none
  weather := ⟨none, fresh, false⟩
  named := by simp [Versions.names]
  head_known := by simp
  proposals_known := by simp

def sampleSha : String := "0123456789abcdef0123456789abcdef01234567"

/-- A session whose only task has the given scopes. -/
def scopedState (scopes : List String) : SessionState where
  sessionId := "s"
  targetVersion := "main"
  baseCommit := sampleSha
  context := ⟨"goal", ["decision"], [("b", "text"), ("a", "")]⟩
  tasks := (∅ : Tasks).insert "t" ⟨"t", "alice", "task goal", scopes, "queued", sampleSha⟩

lemma scopedState_payload (scopes : List String)
    (haccepted : (parseStateDict (scopedState scopes).toDict).isOk = true)
    (hsize : Json.bytes (Json.render (scopedState scopes).normal.toDict) ≤ maxJsonBytes) :
    ∃ payload, statePayload (scopedState scopes) = .ok payload := by
  refine ⟨_, statePayload_eq_ok.mpr ⟨?_, rfl, ?_⟩⟩
  · cases hparsed : parseStateDict (scopedState scopes).toDict with
    | ok parsed => exact ((parseStateDict_document (stateDocument_toDict _)).mp hparsed).1
    | error e =>
        rw [hparsed] at haccepted
        cases haccepted
  · rw [canonicalJsonBytes, size_toUTF8, Json.bytes_canonical]
    exact hsize

lemma scopedState_twice : ∃ payload, statePayload (scopedState ["./src", "src"]) = .ok payload :=
  scopedState_payload _ (by decide +kernel) (by decide +kernel)

lemma scopedState_src : ∃ payload, statePayload (scopedState ["src"]) = .ok payload :=
  scopedState_payload _ (by decide +kernel) (by decide +kernel)

lemma isSha_sampleSha : isSha sampleSha = true := by decide +kernel

lemma commitPayload_empty (payload : ByteArray) (message : String) :
    result (commitPayload payload statePath none message) (emptyWorld sampleSha) =
      .ok sampleSha := by
  have hfind : (emptyWorld sampleSha).commits.find sampleSha = none := rfl
  have hweather : (emptyWorld sampleSha).weather = ⟨none, sampleSha, false⟩ := rfl
  rw [result]
  unfold commitPayload
  simp only [World.failure, hweather, Option.map_none, isSha_sampleSha, dite_true, hfind,
    Option.toList_none]
  rw [dif_pos ⟨by simp [emptyWorld, Versions.names], by simp⟩]

lemma scopedState_noDrive (scopes : List String)
    (h : ∀ scope ∈ normalScopes scopes, hasDrive scope.toList = false) :
    (scopedState scopes).normal.NoDrive := by
  intro id task htask
  simp only [SessionState.normal, scopedState, Std.ExtTreeMap.getElem?_map,
    Std.ExtTreeMap.getElem?_insert] at htask
  split_ifs at htask
  · simp only [Option.map_some, Option.some.injEq] at htask
    rw [← htask]
    exact h
  · simp at htask

theorem accepted_state_read_back_sample :
    ∃ payload, statePayload (scopedState ["./src", "src"]) = .ok payload ∧
      (after (commitPayload payload statePath none "m") (emptyWorld sampleSha)).stateAt sampleSha =
        .ok (scopedState ["./src", "src"]).normal ∧
      parseStateDict (scopedState ["./src", "src"]).normal.toDict =
        .ok (scopedState ["./src", "src"]).normal := by
  have hdrive := scopedState_noDrive ["./src", "src"] (by decide +kernel)
  obtain ⟨payload, hpayload⟩ := scopedState_twice
  have hcommit := commitPayload_empty payload "m"
  refine ⟨payload, hpayload, ?_, ?_⟩
  · exact (accepted_state_read_back.1 _ _ none "m" sampleSha (emptyWorld sampleSha) _ hpayload
      hcommit (Versions.Extends.refl _) hdrive).1
  · exact accepted_state_read_back.2 (scopedState ["./src", "src"]).toDict _ (by decide +kernel)
      hdrive

/-- The scopes `./src` and `src` are accepted and read back as one. -/
theorem accepted_state_read_differently :
    ∃ payload, statePayload (scopedState ["./src", "src"]) = .ok payload ∧
      result (commitPayload payload statePath none "m") (emptyWorld sampleSha) = .ok sampleSha ∧
      (after (commitPayload payload statePath none "m") (emptyWorld sampleSha)).stateAt sampleSha ≠
        .ok (scopedState ["./src", "src"]) := by
  obtain ⟨payload, hpayload⟩ := scopedState_twice
  have hcommit := commitPayload_empty payload "m"
  refine ⟨payload, hpayload, hcommit, fun hread => ?_⟩
  obtain ⟨-, hsame⟩ := (commitPayload_stateAt hpayload hcommit).mp hread
  exact absurd hsame (by decide +kernel)

end Imece.CollabRuntime
