import Imece.CollabRuntime.SafePoint
import Imece.CollabRuntime.ReadBack
import Imece.Lib.Budget
import Imece.Lib.Text

/-!
# The block of a snapshot

How a snapshot is shown in a prompt. Whatever a member has written is encoded and cut to a
limit of its own, the teammates share a limit, and the whole is cut to a budget; a flag
tells whether anything was cut.
-/
namespace Imece.CollabRuntime

open Lib

def maxSnapshotSectionChars : ℕ := 6000
def snapshotTruncationMarker : String := "\n[shared collaboration snapshot truncated]"
def ellipsisMark : String := " …[truncated]"
def goalChars : ℕ := 800
def listChars : ℕ := 800
def provenanceChars : ℕ := 900
def teammateChars : ℕ := 1600

section Display

/-- `{0:04x}` -/
def hex4Text (n : ℕ) : List Char :=
  [Json.hexDigit (n / 4096 % 16), Json.hexDigit (n / 256 % 16), Json.hexDigit (n / 16 % 16),
    Json.hexDigit (n % 16)]

def unicodeEscape (n : ℕ) : List Char := '\\' :: 'u' :: hex4Text n

/-- How a character stands in a string when only ASCII may be written. -/
def escapeAscii (c : Char) : List Char :=
  if c = '"' then ['\\', '"']
  else if c = '\\' then ['\\', '\\']
  else if c = '\n' then ['\\', 'n']
  else if c = '\r' then ['\\', 'r']
  else if c = '\t' then ['\\', 't']
  else if c = Char.ofNat 12 then ['\\', 'f']
  else if c = Char.ofNat 8 then ['\\', 'b']
  else if 32 ≤ c.toNat ∧ c.toNat ≤ 126 then [c]
  else if c.toNat < 0x10000 then unicodeEscape c.toNat
  else
    let n := c.toNat - 0x10000
    unicodeEscape (0xD800 + n / 0x400) ++ unicodeEscape (0xDC00 + n % 0x400)

def dumpsText (text : String) : String :=
  "\"" ++ String.ofList (text.toList.flatMap escapeAscii) ++ "\""

/-- What a field of the block can be. -/
inductive FieldValue where
  | text (text : String)
  | list (texts : List String)
  | dict (pairs : List (String × String))

/-- `json.dumps(value, ensure_ascii=True)` -/
def jDisplay : FieldValue → String
  | .text text => dumpsText text
  | .list texts => "[" ++ ", ".intercalate (texts.map dumpsText) ++ "]"
  | .dict pairs => "\x7b" ++ ", ".intercalate
      (pairs.map fun pair => dumpsText pair.1 ++ ": " ++ dumpsText pair.2) ++ "\x7d"

end Display

section Rendering

def clipFlagged (text : String) (limit : ℕ) : String × Bool :=
  if text.length ≤ limit then (text, false)
  else (firstChars (limit - ellipsisMark.length) text ++ ellipsisMark, true)

/-- Rendering keeps the flag that something was cut. -/
abbrev Rendering := StateM Bool

def takeClipped (encoded : String) (limit : ℕ) : Rendering String := do
  let (clipped, cut) := clipFlagged encoded limit
  modify fun truncated => truncated || cut
  return clipped

def showField (value : FieldValue) (limit : ℕ) : Rendering String :=
  takeClipped (jDisplay value) limit

def renderTeammate (t : Task) : Rendering String := do
  return "- id=" ++ (← showField (.text t.id) 128) ++ " owner=" ++ (← showField (.text t.owner) 128) ++
    " status=" ++ (← showField (.text t.status) 16) ++ " goal=" ++ (← showField (.text t.goal) 300) ++
    " scopes=" ++ (← showField (.list t.scopes) 300)

def omittedLine : String := "…[more teammate tasks truncated]"

/-- The loop over the teammates. -/
def renderTeammates : ℕ → List Task → Rendering (List String)
  | _, [] => return []
  | used, t :: rest => do
      let entry ← renderTeammate t
      if teammateChars < used + entry.length then do
        modify fun truncated => truncated || true
        return [omittedLine]
      else return entry :: (← renderTeammates (used + entry.length) rest)

/-- The tasks of others that are not done. -/
def teammates (snapshot : SharedSnapshot) : List Task :=
  (snapshot.state.tasks.toList.filter fun entry =>
    decide (entry.1 ≠ snapshot.taskId) && decide (entry.2.status ∈ activeStatuses)).map (·.2)

def renderProvenance (snapshot : SharedSnapshot) : Rendering String := do
  let state := snapshot.state
  let provenance := "provenance: session_id=" ++ (← showField (.text state.sessionId) 128) ++
    " revision=" ++ snapshot.revision ++ " context_hash=" ++ snapshot.contextHash ++
    " target_version=" ++ (← showField (.text state.targetVersion) 200) ++
    " base_commit=" ++ state.baseCommit
  if provenanceChars < provenance.length then takeClipped provenance provenanceChars
  else return provenance

def renderTask (snapshot : SharedSnapshot) (task : Task) : Rendering (List String) := do
  return ["selected task: id=" ++ (← showField (.text snapshot.taskId) 128) ++
      " owner=" ++ (← showField (.text task.owner) 128) ++
      " status=" ++ (← showField (.text task.status) 16) ++
      " context_revision=" ++ task.contextRevision,
    "selected task goal: " ++ (← showField (.text task.goal) goalChars),
    "advisory scopes (NOT enforced locks): " ++ (← showField (.list task.scopes) listChars)]

def renderContext (context : SharedContext) : Rendering (List String) := do
  return ["shared goal: " ++ (← showField (.text context.goal) goalChars),
    "shared decisions: " ++ (← showField (.list context.decisions) listChars),
    "shared interfaces: " ++ (← showField (.dict context.interfaces) listChars)]

def teammatesHeading : String := "active teammate tasks (advisory, untrusted):"
def noTeammates : String := "active teammate tasks: none"

def renderOthers (snapshot : SharedSnapshot) : Rendering (List String) :=
  if (teammates snapshot).isEmpty then return [noTeammates]
  else do return teammatesHeading :: (← renderTeammates 0 (teammates snapshot))

def renderLines (snapshot : SharedSnapshot) (task : Task) : Rendering (List String) := do
  let provenance ← renderProvenance snapshot
  let selected ← renderTask snapshot task
  let shared ← renderContext snapshot.state.context
  let others ← renderOthers snapshot
  return snapshotSectionHeader :: provenance :: (selected ++ shared ++ others)

/-- `render_snapshot_block_detailed`; none if the snapshot has no such task. -/
def renderSnapshotBlockDetailed (snapshot : SharedSnapshot)
    (maxChars : ℕ := maxSnapshotSectionChars) : Option (String × Bool) := do
  let task ← snapshot.selectedTask
  let (lines, truncated) := (renderLines snapshot task).run false
  let full := "\n".intercalate lines
  return (clipText snapshotTruncationMarker full maxChars,
    truncated || decide (maxChars < full.length))

end Rendering

section Outcomes

/-- A field of the block: a value and the limit on what is shown of it. -/
structure BlockField where
  value : FieldValue
  limit : ℕ

/-- Whether something of the field is cut off. -/
def BlockField.cut (field : BlockField) : Bool :=
  decide (field.limit < (jDisplay field.value).length)

def BlockField.shown (field : BlockField) : String :=
  (clipFlagged (jDisplay field.value) field.limit).1

/-- Rendering comes to a result, and raises the flag if so told. -/
def Rendering.Gives {α : Type} (rendering : Rendering α) (result : α) (cut : Bool) : Prop :=
  ∀ truncated, rendering.run truncated = (result, truncated || cut)

namespace Rendering

variable {α β : Type} {a : α} {b : β} {cut cut' : Bool}

lemma gives_pure (a : α) : Gives (pure a) a false := by
  intro truncated
  rw [Bool.or_false]
  rfl

lemma Gives.bind {rendering : Rendering α} {next : α → Rendering β} (h : rendering.Gives a cut)
    (hnext : (next a).Gives b cut') : (rendering >>= next).Gives b (cut || cut') := by
  intro truncated
  show (next (rendering.run truncated).1).run (rendering.run truncated).2 = _
  rw [h truncated, hnext, Bool.or_assoc]

lemma Gives.of_eq {rendering : Rendering α} (h : rendering.Gives a cut) (heq : cut = cut') :
    rendering.Gives a cut' := heq ▸ h

lemma gives_takeClipped (encoded : String) (limit : ℕ) :
    (takeClipped encoded limit).Gives (clipFlagged encoded limit).1
      (decide (limit < encoded.length)) := by
  intro truncated
  have hcut : (clipFlagged encoded limit).2 = decide (limit < encoded.length) := by
    unfold clipFlagged
    split_ifs with h
    · rw [decide_eq_false (by omega)]
    · rw [decide_eq_true (by omega)]
  rw [← hcut]
  rfl

lemma gives_showField (value : FieldValue) (limit : ℕ) :
    (showField value limit).Gives (BlockField.shown ⟨value, limit⟩)
      (BlockField.cut ⟨value, limit⟩) := gives_takeClipped _ _

end Rendering

end Outcomes

section Texts

open Rendering

def teammateFields (t : Task) : List BlockField :=
  [⟨.text t.id, 128⟩, ⟨.text t.owner, 128⟩, ⟨.text t.status, 16⟩, ⟨.text t.goal, 300⟩,
    ⟨.list t.scopes, 300⟩]

def teammateText (t : Task) : String :=
  "- id=" ++ BlockField.shown ⟨.text t.id, 128⟩ ++ " owner=" ++
    BlockField.shown ⟨.text t.owner, 128⟩ ++ " status=" ++ BlockField.shown ⟨.text t.status, 16⟩ ++
    " goal=" ++ BlockField.shown ⟨.text t.goal, 300⟩ ++ " scopes=" ++
    BlockField.shown ⟨.list t.scopes, 300⟩

lemma renderTeammate_gives (t : Task) :
    (renderTeammate t).Gives (teammateText t) ((teammateFields t).any BlockField.cut) := by
  unfold renderTeammate teammateText
  simp only [teammateFields, List.any_cons, List.any_nil]
  exact (gives_showField _ _).bind ((gives_showField _ _).bind ((gives_showField _ _).bind
    ((gives_showField _ _).bind ((gives_showField _ _).bind (gives_pure _)))))

/-- The teammates that the loop shows: a beginning of them that stays within its limit. -/
def shownTeammates : ℕ → List Task → List Task
  | _, [] => []
  | used, t :: rest =>
      if teammateChars < used + (teammateText t).length then []
      else t :: shownTeammates (used + (teammateText t).length) rest

def teammateLines (used : ℕ) (ts : List Task) : List String :=
  (shownTeammates used ts).map teammateText ++
    if (shownTeammates used ts).length < ts.length then [omittedLine] else []

lemma shownTeammates_prefix (used : ℕ) (ts : List Task) : shownTeammates used ts <+: ts := by
  induction ts generalizing used with
  | nil => exact List.prefix_rfl
  | cons t rest ih =>
      unfold shownTeammates
      split_ifs
      · exact List.nil_prefix
      · exact List.cons_prefix_cons.mpr ⟨rfl, ih _⟩

theorem renderTeammates_gives (used : ℕ) (ts : List Task) :
    (renderTeammates used ts).Gives (teammateLines used ts)
      (((shownTeammates used ts).any fun t => (teammateFields t).any BlockField.cut) ||
        decide ((shownTeammates used ts).length < ts.length)) := by
  induction ts generalizing used with
  | nil => exact gives_pure _
  | cons t rest ih =>
      unfold renderTeammates teammateLines
      by_cases homitted : teammateChars < used + (teammateText t).length
      · -- whatever was cut of the entry, it is left out
        have hshown : shownTeammates used (t :: rest) = [] := by
          rw [shownTeammates, if_pos homitted]
        have hcut : (([] : List Task).any (fun t => (teammateFields t).any BlockField.cut) ||
            decide (([] : List Task).length < (t :: rest).length)) =
              ((teammateFields t).any BlockField.cut || true) := by simp
        rw [hshown, hcut]
        refine (renderTeammate_gives t).bind ?_
        rw [if_pos homitted]
        exact fun truncated => rfl
      · have hshown : shownTeammates used (t :: rest) =
            t :: shownTeammates (used + (teammateText t).length) rest := by
          rw [shownTeammates, if_neg homitted]
        rw [hshown]
        simp only [List.map_cons, List.cons_append, List.length_cons, List.any_cons,
          Nat.add_lt_add_iff_right, Bool.or_assoc]
        refine (renderTeammate_gives t).bind ?_
        rw [if_neg homitted, ← Bool.or_false (_ || decide _)]
        exact (ih (used + (teammateText t).length)).bind (gives_pure _)

/-- The provenance before it is cut as a whole. -/
def provenanceFull (snapshot : SharedSnapshot) : String :=
  "provenance: session_id=" ++ BlockField.shown ⟨.text snapshot.state.sessionId, 128⟩ ++
    " revision=" ++ snapshot.revision ++ " context_hash=" ++ snapshot.contextHash ++
    " target_version=" ++ BlockField.shown ⟨.text snapshot.state.targetVersion, 200⟩ ++
    " base_commit=" ++ snapshot.state.baseCommit

def provenanceText (snapshot : SharedSnapshot) : String :=
  (clipFlagged (provenanceFull snapshot) provenanceChars).1

lemma renderProvenance_gives (snapshot : SharedSnapshot) :
    (renderProvenance snapshot).Gives (provenanceText snapshot)
      (BlockField.cut ⟨.text snapshot.state.sessionId, 128⟩ ||
        (BlockField.cut ⟨.text snapshot.state.targetVersion, 200⟩ ||
          decide (provenanceChars < (provenanceFull snapshot).length))) := by
  unfold renderProvenance
  refine (gives_showField _ _).bind ((gives_showField _ _).bind ?_)
  show Rendering.Gives (if provenanceChars < (provenanceFull snapshot).length then
    takeClipped (provenanceFull snapshot) provenanceChars else pure (provenanceFull snapshot)) _ _
  split_ifs with hlong
  · exact gives_takeClipped _ _
  · have htext : provenanceText snapshot = provenanceFull snapshot := by
      rw [provenanceText, clipFlagged, if_pos (by omega)]
    rw [htext, decide_eq_false hlong]
    exact gives_pure _

def taskFields (snapshot : SharedSnapshot) (task : Task) : List BlockField :=
  [⟨.text snapshot.taskId, 128⟩, ⟨.text task.owner, 128⟩, ⟨.text task.status, 16⟩,
    ⟨.text task.goal, goalChars⟩, ⟨.list task.scopes, listChars⟩]

def taskLines (snapshot : SharedSnapshot) (task : Task) : List String :=
  ["selected task: id=" ++ BlockField.shown ⟨.text snapshot.taskId, 128⟩ ++ " owner=" ++
      BlockField.shown ⟨.text task.owner, 128⟩ ++ " status=" ++
      BlockField.shown ⟨.text task.status, 16⟩ ++ " context_revision=" ++ task.contextRevision,
    "selected task goal: " ++ BlockField.shown ⟨.text task.goal, goalChars⟩,
    "advisory scopes (NOT enforced locks): " ++ BlockField.shown ⟨.list task.scopes, listChars⟩]

lemma renderTask_gives (snapshot : SharedSnapshot) (task : Task) :
    (renderTask snapshot task).Gives (taskLines snapshot task)
      ((taskFields snapshot task).any BlockField.cut) := by
  unfold renderTask
  simp only [taskFields, List.any_cons, List.any_nil, taskLines]
  exact (gives_showField _ _).bind ((gives_showField _ _).bind ((gives_showField _ _).bind
    ((gives_showField _ _).bind ((gives_showField _ _).bind (gives_pure _)))))

def contextBlockFields (context : SharedContext) : List BlockField :=
  [⟨.text context.goal, goalChars⟩, ⟨.list context.decisions, listChars⟩,
    ⟨.dict context.interfaces, listChars⟩]

def contextLines (context : SharedContext) : List String :=
  ["shared goal: " ++ BlockField.shown ⟨.text context.goal, goalChars⟩,
    "shared decisions: " ++ BlockField.shown ⟨.list context.decisions, listChars⟩,
    "shared interfaces: " ++ BlockField.shown ⟨.dict context.interfaces, listChars⟩]

lemma renderContext_gives (context : SharedContext) :
    (renderContext context).Gives (contextLines context)
      ((contextBlockFields context).any BlockField.cut) := by
  unfold renderContext
  simp only [contextBlockFields, List.any_cons, List.any_nil, contextLines]
  exact (gives_showField _ _).bind ((gives_showField _ _).bind ((gives_showField _ _).bind
    (gives_pure _)))

end Texts

section Lines

open Rendering

def otherLines (snapshot : SharedSnapshot) : List String :=
  if (teammates snapshot).isEmpty then [noTeammates]
  else teammatesHeading :: teammateLines 0 (teammates snapshot)

/-- The lines of the block, before the whole is cut. -/
def blockLines (snapshot : SharedSnapshot) (task : Task) : List String :=
  snapshotSectionHeader :: provenanceText snapshot ::
    (taskLines snapshot task ++ contextLines snapshot.state.context ++ otherLines snapshot)

def blockText (snapshot : SharedSnapshot) (task : Task) : String :=
  "\n".intercalate (blockLines snapshot task)

def provenanceFields (snapshot : SharedSnapshot) : List BlockField :=
  [⟨.text snapshot.state.sessionId, 128⟩, ⟨.text snapshot.state.targetVersion, 200⟩]

def headFields (snapshot : SharedSnapshot) (task : Task) : List BlockField :=
  provenanceFields snapshot ++ taskFields snapshot task ++ contextBlockFields snapshot.state.context

/-- Something of the lines is cut: a field, the provenance, or an entry of the list. -/
def linesCut (snapshot : SharedSnapshot) (task : Task) : Bool :=
  (provenanceFields snapshot).any BlockField.cut ||
    decide (provenanceChars < (provenanceFull snapshot).length) ||
    (taskFields snapshot task).any BlockField.cut ||
    (contextBlockFields snapshot.state.context).any BlockField.cut ||
    ((shownTeammates 0 (teammates snapshot)).any fun t => (teammateFields t).any BlockField.cut) ||
    decide ((shownTeammates 0 (teammates snapshot)).length < (teammates snapshot).length)

theorem renderLines_gives (snapshot : SharedSnapshot) (task : Task) :
    (renderLines snapshot task).Gives (blockLines snapshot task) (linesCut snapshot task) := by
  have hothers : (renderOthers snapshot).Gives (otherLines snapshot)
      (((shownTeammates 0 (teammates snapshot)).any fun t =>
          (teammateFields t).any BlockField.cut) ||
        decide ((shownTeammates 0 (teammates snapshot)).length < (teammates snapshot).length)) := by
    unfold renderOthers otherLines
    by_cases hempty : (teammates snapshot).isEmpty = true
    · have hnil := List.isEmpty_iff.mp hempty
      rw [if_pos hempty, if_pos hempty, hnil]
      exact gives_pure _
    · rw [if_neg hempty, if_neg hempty, ← Bool.or_false (_ || decide _)]
      exact (renderTeammates_gives 0 (teammates snapshot)).bind (gives_pure _)
  refine Gives.of_eq ((renderProvenance_gives snapshot).bind ((renderTask_gives snapshot task).bind
    ((renderContext_gives snapshot.state.context).bind (hothers.bind (gives_pure _))))) ?_
  rw [linesCut, provenanceFields, List.any_cons, List.any_cons, List.any_nil]
  simp only [Bool.or_false, Bool.or_assoc]

/-- Something of the block is cut, for a budget: a field, an entry, or the block itself. -/
def SomethingCut (snapshot : SharedSnapshot) (task : Task) (maxChars : ℕ) : Prop :=
  (∃ field ∈ headFields snapshot task, field.limit < (jDisplay field.value).length) ∨
    provenanceChars < (provenanceFull snapshot).length ∨
    (∃ t ∈ shownTeammates 0 (teammates snapshot), ∃ field ∈ teammateFields t,
      field.limit < (jDisplay field.value).length) ∨
    shownTeammates 0 (teammates snapshot) ≠ teammates snapshot ∨
    maxChars < (blockText snapshot task).length

theorem flag_iff (snapshot : SharedSnapshot) (task : Task) (maxChars : ℕ) :
    (linesCut snapshot task || decide (maxChars < (blockText snapshot task).length)) = true ↔
      SomethingCut snapshot task maxChars := by
  have homitted : (shownTeammates 0 (teammates snapshot)).length < (teammates snapshot).length ↔
      shownTeammates 0 (teammates snapshot) ≠ teammates snapshot := by
    have hstart := shownTeammates_prefix 0 (teammates snapshot)
    have hle := hstart.length_le
    constructor
    · intro hlt heq
      rw [heq] at hlt
      exact absurd hlt (lt_irrefl _)
    · intro hne
      have hlength : (shownTeammates 0 (teammates snapshot)).length ≠
          (teammates snapshot).length := fun h => hne (hstart.eq_of_length h)
      omega
  have hfields (cut : BlockField → Prop) : (∃ field ∈ headFields snapshot task, cut field) ↔
      (∃ field ∈ provenanceFields snapshot, cut field) ∨
        (∃ field ∈ taskFields snapshot task, cut field) ∨
          ∃ field ∈ contextBlockFields snapshot.state.context, cut field := by
    simp only [headFields, List.mem_append, or_and_right, exists_or, or_assoc]
  have horder {a p t c r : Prop} : a ∨ p ∨ t ∨ c ∨ r ↔ (a ∨ t ∨ c) ∨ p ∨ r := by tauto
  simp only [linesCut, Bool.or_eq_true, List.any_eq_true, decide_eq_true_eq, BlockField.cut,
    homitted, SomethingCut, hfields, or_assoc]
  rw [horder, or_assoc, or_assoc]

end Lines

section Characters

/-- A printable ASCII character, or the ellipsis of the marks. -/
def isBlockChar (c : Char) : Bool := (32 ≤ c.toNat && c.toNat ≤ 126) || c == '…'

/-- A text without line ends and other control characters. -/
def BlockChars (text : String) : Prop := ∀ c ∈ text.toList, isBlockChar c = true

instance (text : String) : Decidable (BlockChars text) :=
  List.decidableBAll (fun c => isBlockChar c = true) text.toList

@[simp] lemma blockChars_append {a b : String} :
    BlockChars (a ++ b) ↔ BlockChars a ∧ BlockChars b := by
  simp only [BlockChars, String.toList_append, List.mem_append, or_imp, forall_and]

lemma BlockChars.intercalate {sep : String} {parts : List String} (hsep : BlockChars sep)
    (hparts : ∀ part ∈ parts, BlockChars part) : BlockChars (sep.intercalate parts) := by
  intro c hc
  rcases mem_toList_intercalate hc with h | ⟨part, hpart, h⟩
  · exact hsep c h
  · exact hparts part hpart c h

lemma hex4Text_blockChar (n : ℕ) : ∀ c ∈ hex4Text n, isBlockChar c = true := by
  have hdigit (m : ℕ) (hm : m < 16) : isBlockChar (Json.hexDigit m) = true := by
    revert m
    decide
  intro c hc
  simp only [hex4Text, List.mem_cons, List.not_mem_nil, or_false] at hc
  rcases hc with rfl | rfl | rfl | rfl <;> exact hdigit _ (Nat.mod_lt _ (by omega))

lemma unicodeEscape_blockChar (n : ℕ) : ∀ c ∈ unicodeEscape n, isBlockChar c = true := by
  intro c hc
  rcases List.mem_cons.mp hc with rfl | hc
  · rfl
  · rcases List.mem_cons.mp hc with rfl | hc
    · rfl
    · exact hex4Text_blockChar n c hc

/-- Whatever a character is, it is written without line ends. -/
theorem escapeAscii_blockChar (c : Char) : ∀ d ∈ escapeAscii c, isBlockChar d = true := by
  have hpair (d : Char) (hd : isBlockChar d = true) :
      ∀ e ∈ ['\\', d], isBlockChar e = true := by
    intro e he
    rcases List.mem_cons.mp he with rfl | he
    · rfl
    · rwa [List.mem_singleton.mp he]
  have hite {p : Prop} [Decidable p] {a b : List Char} (ha : ∀ d ∈ a, isBlockChar d = true)
      (hb : ¬ p → ∀ d ∈ b, isBlockChar d = true) :
      ∀ d ∈ (if p then a else b), isBlockChar d = true := by
    by_cases hp : p
    · rwa [if_pos hp]
    · rw [if_neg hp]
      exact hb hp
  unfold escapeAscii
  iterate 7 refine hite (hpair _ rfl) fun _ => ?_
  by_cases hplain : 32 ≤ c.toNat ∧ c.toNat ≤ 126
  · rw [if_pos hplain]
    intro d hd
    rw [List.mem_singleton] at hd
    rw [hd, isBlockChar, decide_eq_true hplain.1, decide_eq_true hplain.2]
    rfl
  · rw [if_neg hplain]
    refine hite (unicodeEscape_blockChar _) fun _ d hd => ?_
    rcases List.mem_append.mp hd with hd | hd
    · exact unicodeEscape_blockChar _ d hd
    · exact unicodeEscape_blockChar _ d hd

lemma dumpsText_blockChars (text : String) : BlockChars (dumpsText text) := by
  have hquote : BlockChars "\"" := by decide
  have hbody : BlockChars (String.ofList (text.toList.flatMap escapeAscii)) := by
    intro c hc
    rw [String.toList_ofList, List.mem_flatMap] at hc
    obtain ⟨d, -, hd⟩ := hc
    exact escapeAscii_blockChar d c hd
  rw [dumpsText, blockChars_append, blockChars_append]
  exact ⟨⟨hquote, hbody⟩, hquote⟩

lemma jDisplay_blockChars (value : FieldValue) : BlockChars (jDisplay value) := by
  have hcomma : BlockChars ", " := by decide
  cases value with
  | text text => exact dumpsText_blockChars text
  | list texts =>
      have hitems : BlockChars (", ".intercalate (texts.map dumpsText)) := by
        refine hcomma.intercalate fun part hpart => ?_
        obtain ⟨text, -, rfl⟩ := List.mem_map.mp hpart
        exact dumpsText_blockChars text
      rw [jDisplay, blockChars_append, blockChars_append]
      exact ⟨⟨by decide, hitems⟩, by decide⟩
  | dict pairs =>
      have hitems : BlockChars (", ".intercalate
          (pairs.map fun pair => dumpsText pair.1 ++ ": " ++ dumpsText pair.2)) := by
        refine hcomma.intercalate fun part hpart => ?_
        obtain ⟨pair, -, rfl⟩ := List.mem_map.mp hpart
        rw [blockChars_append, blockChars_append]
        exact ⟨⟨dumpsText_blockChars pair.1, by decide⟩, dumpsText_blockChars pair.2⟩
      rw [jDisplay, blockChars_append, blockChars_append]
      exact ⟨⟨by decide, hitems⟩, by decide⟩

lemma clipFlagged_blockChars {text : String} (h : BlockChars text) (limit : ℕ) :
    BlockChars (clipFlagged text limit).1 := by
  unfold clipFlagged
  split_ifs
  · exact h
  · rw [blockChars_append]
    refine ⟨fun c hc => ?_, by decide⟩
    rw [firstChars, String.toList_ofList] at hc
    exact h c (List.mem_of_mem_take hc)

lemma BlockField.shown_blockChars (field : BlockField) : BlockChars field.shown :=
  clipFlagged_blockChars (jDisplay_blockChars field.value) field.limit

end Characters

section Snapshots

/-- A snapshot as the parser returns it. -/
structure SharedSnapshot.Valid (snapshot : SharedSnapshot) : Prop where
  revision : isSha snapshot.revision = true
  contextHash : isContextHash snapshot.contextHash = true
  state : snapshot.state.Valid
  selected : ∃ task, snapshot.selectedTask = some task

lemma isLowerHex_blockChar {c : Char} (h : isLowerHex c = true) : isBlockChar c = true := by
  rw [isLowerHex, Bool.or_eq_true, Bool.and_eq_true, decide_eq_true_eq, decide_eq_true_eq,
    Char.isDigit, Bool.and_eq_true, decide_eq_true_eq, decide_eq_true_eq] at h
  have hrange : 32 ≤ c.toNat ∧ c.toNat ≤ 126 := by
    rcases h with ⟨hlow, hhigh⟩ | ⟨hlow, hhigh⟩
    · exact ⟨le_trans (by decide) (show 48 ≤ c.toNat from hlow),
        le_trans (show c.toNat ≤ 57 from hhigh) (by decide)⟩
    · exact ⟨le_trans (by decide) (show 97 ≤ c.toNat from hlow),
        le_trans (show c.toNat ≤ 102 from hhigh) (by decide)⟩
  rw [isBlockChar, decide_eq_true hrange.1, decide_eq_true hrange.2]
  rfl

lemma isSha_blockChars {text : String} (h : isSha text = true) : BlockChars text := by
  rw [isSha, Bool.and_eq_true] at h
  exact fun c hc => isLowerHex_blockChar (List.all_eq_true.mp h.2 c hc)

lemma isContextHash_blockChars {text : String} (h : isContextHash text = true) :
    BlockChars text := by
  rw [isContextHash, Bool.and_eq_true] at h
  exact fun c hc => isLowerHex_blockChar (List.all_eq_true.mp h.2 c hc)

variable {snapshot : SharedSnapshot} {task : Task}

lemma SharedSnapshot.Valid.validTask (h : snapshot.Valid) (htask : snapshot.selectedTask = some task) :
    task.Valid := (h.state.tasks _ _ htask).1

def taskLabels : List String :=
  ["selected task: ", "selected task goal: ", "advisory scopes (NOT enforced locks): "]

def contextLabels : List String := ["shared goal: ", "shared decisions: ", "shared interfaces: "]

/-- The labels of the lines, in their order. What is shown has no part in them, but for the
number of teammates. -/
def blockLabels (snapshot : SharedSnapshot) : List String :=
  snapshotSectionHeader :: "provenance: " :: (taskLabels ++ contextLabels ++
    if (teammates snapshot).isEmpty then [noTeammates]
    else teammatesHeading ::
      (List.replicate (shownTeammates 0 (teammates snapshot)).length "- id=" ++
        if (shownTeammates 0 (teammates snapshot)).length < (teammates snapshot).length then
          [omittedLine] else []))

/-- A line that starts with its label and has no line end. -/
def LabelledLine (label line : String) : Prop := label.toList <+: line.toList ∧ BlockChars line

lemma LabelledLine.append {label line body : String} (h : LabelledLine label line)
    (hbody : BlockChars body) : LabelledLine label (line ++ body) := by
  refine ⟨?_, blockChars_append.mpr ⟨h.2, hbody⟩⟩
  rw [String.toList_append]
  exact h.1.trans (List.prefix_append _ _)

lemma blockChars_header : BlockChars snapshotSectionHeader := by
  unfold BlockChars snapshotSectionHeader
  rw [String.toList_ofList, ← List.all_eq_true]
  rfl

lemma header_head : ∃ chars, snapshotSectionHeader.toList = 'S' :: chars := by
  unfold snapshotSectionHeader
  rw [String.toList_ofList]
  exact ⟨_, rfl⟩

/-- A line keeps its label when it is cut behind it. -/
lemma LabelledLine.clipFlagged {label line : String} {limit : ℕ} (h : LabelledLine label line)
    (hlimit : label.length ≤ limit - ellipsisMark.length) :
    LabelledLine label (clipFlagged line limit).1 := by
  refine ⟨?_, clipFlagged_blockChars h.2 limit⟩
  unfold CollabRuntime.clipFlagged
  split_ifs
  · exact h.1
  · rw [String.toList_append, firstChars, String.toList_ofList]
    refine (List.prefix_take_iff.mpr ⟨h.1, ?_⟩).trans (List.prefix_append _ _)
    rw [String.length_toList]
    exact hlimit

lemma teammateText_labelled (t : Task) : LabelledLine "- id=" (teammateText t) := by
  have hbase : LabelledLine "- id=" "- id=" := ⟨by decide, by decide⟩
  have hshown := BlockField.shown_blockChars
  exact ((((((((hbase.append (hshown _)).append (by decide)).append (hshown _)).append
    (by decide)).append (hshown _)).append (by decide)).append (hshown _)).append
      (by decide)).append (hshown _)

lemma provenanceText_labelled (h : snapshot.Valid) :
    LabelledLine "provenance: " (provenanceText snapshot) := by
  have hbase : LabelledLine "provenance: " "provenance: session_id=" := ⟨by decide, by decide⟩
  have hshown := BlockField.shown_blockChars
  have hfull : LabelledLine "provenance: " (provenanceFull snapshot) :=
    ((((((((hbase.append (hshown _)).append (by decide)).append
      (isSha_blockChars h.revision)).append (by decide)).append
        (isContextHash_blockChars h.contextHash)).append (by decide)).append (hshown _)).append
          (by decide)).append (isSha_blockChars h.state.baseCommit)
  exact hfull.clipFlagged (by decide)

lemma taskLines_labelled (htask : task.Valid) :
    List.Forall₂ LabelledLine taskLabels (taskLines snapshot task) := by
  have hshown := BlockField.shown_blockChars
  have hfirst : LabelledLine "selected task: " "selected task: id=" := ⟨by decide, by decide⟩
  have hsecond : LabelledLine "selected task goal: " "selected task goal: " :=
    ⟨by decide, by decide⟩
  have hthird : LabelledLine "advisory scopes (NOT enforced locks): "
      "advisory scopes (NOT enforced locks): " := ⟨by decide, by decide⟩
  refine .cons ?_ (.cons (hsecond.append (hshown _)) (.cons (hthird.append (hshown _)) .nil))
  exact ((((((hfirst.append (hshown _)).append (by decide)).append (hshown _)).append
    (by decide)).append (hshown _)).append (by decide)).append
      (isSha_blockChars htask.contextRevision)

lemma contextLines_labelled (context : SharedContext) :
    List.Forall₂ LabelledLine contextLabels (contextLines context) := by
  have hshown := BlockField.shown_blockChars
  have hfirst : LabelledLine "shared goal: " "shared goal: " := ⟨by decide, by decide⟩
  have hsecond : LabelledLine "shared decisions: " "shared decisions: " := ⟨by decide, by decide⟩
  have hthird : LabelledLine "shared interfaces: " "shared interfaces: " :=
    ⟨by decide, by decide⟩
  exact .cons (hfirst.append (hshown _)) (.cons (hsecond.append (hshown _))
    (.cons (hthird.append (hshown _)) .nil))

/-- Every line of the block has its own label. -/
theorem blockLines_labelled (h : snapshot.Valid) (htask : task.Valid) :
    List.Forall₂ LabelledLine (blockLabels snapshot) (blockLines snapshot task) := by
  have hheader : LabelledLine snapshotSectionHeader snapshotSectionHeader :=
    ⟨List.prefix_rfl, blockChars_header⟩
  have hothers : List.Forall₂ LabelledLine (if (teammates snapshot).isEmpty then [noTeammates]
      else teammatesHeading ::
        (List.replicate (shownTeammates 0 (teammates snapshot)).length "- id=" ++
          if (shownTeammates 0 (teammates snapshot)).length < (teammates snapshot).length then
            [omittedLine] else [])) (otherLines snapshot) := by
    unfold otherLines teammateLines
    by_cases hempty : (teammates snapshot).isEmpty = true
    · rw [if_pos hempty, if_pos hempty]
      exact .cons ⟨List.prefix_rfl, by decide⟩ .nil
    · rw [if_neg hempty, if_neg hempty]
      refine .cons ⟨List.prefix_rfl, by decide⟩ (List.rel_append ?_ ?_)
      · induction shownTeammates 0 (teammates snapshot) with
        | nil => exact .nil
        | cons t rest ih => exact .cons (teammateText_labelled t) ih
      · split_ifs
        · exact .cons ⟨List.prefix_rfl, by decide⟩ .nil
        · exact .nil
  exact .cons hheader (.cons (provenanceText_labelled h)
    (List.rel_append (List.rel_append (taskLines_labelled htask)
      (contextLines_labelled snapshot.state.context)) hothers))

end Snapshots

section Blocks

variable {snapshot : SharedSnapshot} {task : Task}

def markerLine : List Char := "[shared collaboration snapshot truncated]".toList

/-- The labels of all lines but the header and the entries. -/
def otherLabels : List String :=
  "provenance: " :: (taskLabels ++ contextLabels ++ [noTeammates, teammatesHeading, omittedLine])

lemma exists_label {labels lines : List String} (h : List.Forall₂ LabelledLine labels lines)
    {line : String} (hline : line ∈ lines) : ∃ label ∈ labels, LabelledLine label line := by
  induction h with
  | nil => cases hline
  | cons hlabel _ ih =>
      rcases List.mem_cons.mp hline with rfl | hline
      · exact ⟨_, List.mem_cons_self, hlabel⟩
      · obtain ⟨label, hmem, h⟩ := ih hline
        exact ⟨label, List.mem_cons_of_mem _ hmem, h⟩

/-- A line after the header is the entry of a teammate, or has a label of its own. -/
lemma blockLines_tail (h : snapshot.Valid) (htask : task.Valid) :
    ∀ line ∈ (blockLines snapshot task).tail,
      (∃ t ∈ shownTeammates 0 (teammates snapshot), line = teammateText t) ∨
        ∃ label ∈ otherLabels, LabelledLine label line := by
  intro line hline
  have hlast {label : String} (hlabel : label ∈ [noTeammates, teammatesHeading, omittedLine])
      (hchars : BlockChars label) : ∃ other ∈ otherLabels, LabelledLine other label :=
    ⟨label, List.mem_cons_of_mem _ (List.mem_append_right _ hlabel), List.prefix_rfl, hchars⟩
  rw [blockLines, List.tail_cons, List.mem_cons, List.mem_append, List.mem_append] at hline
  rcases hline with hline | (hline | hline) | hline
  · exact Or.inr ⟨"provenance: ", List.mem_cons_self, hline ▸ provenanceText_labelled h⟩
  · obtain ⟨label, hmem, hlabel⟩ := exists_label (taskLines_labelled htask) hline
    exact Or.inr ⟨label, List.mem_cons_of_mem _ (List.mem_append_left _
      (List.mem_append_left _ hmem)), hlabel⟩
  · obtain ⟨label, hmem, hlabel⟩ := exists_label (contextLines_labelled _) hline
    exact Or.inr ⟨label, List.mem_cons_of_mem _ (List.mem_append_left _
      (List.mem_append_right _ hmem)), hlabel⟩
  · unfold otherLines teammateLines at hline
    by_cases hempty : (teammates snapshot).isEmpty = true
    · rw [if_pos hempty, List.mem_singleton] at hline
      rw [hline]
      exact Or.inr (hlast List.mem_cons_self (by decide))
    · rw [if_neg hempty, List.mem_cons, List.mem_append, List.mem_map] at hline
      rcases hline with hline | ⟨t, ht, hline⟩ | hline
      · rw [hline]
        exact Or.inr (hlast (List.mem_cons_of_mem _ List.mem_cons_self) (by decide))
      · exact Or.inl ⟨t, ht, hline.symm⟩
      · split_ifs at hline
        · rw [List.mem_singleton] at hline
          rw [hline]
          exact Or.inr (hlast (List.mem_cons_of_mem _ (List.mem_cons_of_mem _ List.mem_cons_self))
            (by decide))
        · cases hline

/-- The lines of a text. -/
def linesOf (text : String) : List (List Char) := text.toList.splitOn '\n'

/-- The lines that are left of a block: all, or those before a cut, what is left of one more,
and the marker if it fits. -/
def CutLines (all : List String) (lines : List (List Char)) : Prop :=
  lines = all.map String.toList ∨
    ∃ k line part, all[k]? = some line ∧ part <+: line.toList ∧
      (lines = (all.take k).map String.toList ++ [part] ∨
        lines = (all.take k).map String.toList ++ [part, markerLine])

/-- The budget has room for the header. -/
def HeaderRoom (snapshot : SharedSnapshot) (task : Task) (maxChars : ℕ) : Prop :=
  (blockText snapshot task).length ≤ maxChars ∨
    snapshotSectionHeader.length + snapshotTruncationMarker.length ≤ maxChars

/-- What is promised of the block of a snapshot for a budget. -/
structure FaithfulBlock (snapshot : SharedSnapshot) (task : Task) (maxChars : ℕ) (text : String)
    (truncated : Bool) : Prop where
  bounded : text.length ≤ maxChars
  placed : CutLines (blockLines snapshot task) (linesOf text)
  labelled : List.Forall₂ LabelledLine (blockLabels snapshot) (blockLines snapshot task)
  header : (linesOf text).head? = some snapshotSectionHeader.toList ↔
    HeaderRoom snapshot task maxChars
  headerOnce : snapshotSectionHeader.toList ∉ (linesOf text).tail
  entries : ∀ line ∈ linesOf text, "- id=".toList <+: line →
    ∃ t ∈ shownTeammates 0 (teammates snapshot), line <+: (teammateText t).toList
  flag : truncated = true ↔ SomethingCut snapshot task maxChars

lemma blockChars_no_newline {text : String} (h : BlockChars text) : '\n' ∉ text.toList := by
  intro hmem
  exact absurd (h _ hmem) (by decide)

lemma blockLines_no_newline (h : snapshot.Valid) (htask : task.Valid) :
    ∀ line ∈ blockLines snapshot task, '\n' ∉ line.toList := by
  intro line hline
  obtain ⟨label, -, hlabel⟩ := exists_label (blockLines_labelled h htask) hline
  exact blockChars_no_newline hlabel.2

/-- A beginning of a line after the header that has a first character has that of an entry or
that of a label. -/
lemma head_of_tail (h : snapshot.Valid) (htask : task.Valid) {line : String}
    (hline : line ∈ (blockLines snapshot task).tail) {c : Char} {rest : List Char}
    (hbegins : c :: rest <+: line.toList) :
    (∃ t ∈ shownTeammates 0 (teammates snapshot), line = teammateText t) ∧ c = '-' ∨
      c ≠ '-' ∧ c ≠ 'S' := by
  have hsame {label : String} {d : Char} (hlabel : LabelledLine label line)
      (hd : label.toList.head? = some d) : c = d := by
    obtain ⟨after, hafter⟩ := hbegins
    obtain ⟨body, hbody⟩ := hlabel.1
    rw [← hafter] at hbody
    cases hchars : label.toList with
    | nil =>
        rw [hchars] at hd
        cases hd
    | cons e others =>
        rw [hchars] at hd hbody
        cases hd
        exact (List.cons.inj hbody).1.symm
  rcases blockLines_tail h htask line hline with ⟨t, ht, heq⟩ | ⟨label, hlabel, hline⟩
  · exact Or.inl ⟨⟨t, ht, heq⟩, hsame (heq ▸ teammateText_labelled t) rfl⟩
  · right
    have hheads : ∀ label ∈ otherLabels, ∃ d, label.toList.head? = some d ∧ d ≠ '-' ∧ d ≠ 'S' := by
      have hcheck : otherLabels.all (fun label => label.toList.head?.any fun d =>
          decide (d ≠ '-') && decide (d ≠ 'S')) = true := by decide +kernel
      intro label hlabel
      have hone := List.all_eq_true.mp hcheck label hlabel
      obtain ⟨d, hd, hne⟩ := (Option.any_eq_true _ _).mp hone
      rw [Bool.and_eq_true, decide_eq_true_eq, decide_eq_true_eq] at hne
      exact ⟨d, hd, hne⟩
    obtain ⟨d, hd, hne⟩ := hheads label hlabel
    rw [hsame hline hd]
    exact hne

/-- The lines of a block: the header or a beginning of it, and then lines that are each a
beginning of a line of the block after the header, or the marker. -/
lemma cut_shape (h : snapshot.Valid) (htask : task.Valid) (maxChars : ℕ) :
    CutLines (blockLines snapshot task)
        (linesOf (clipText snapshotTruncationMarker (blockText snapshot task) maxChars)) ∧
      ((linesOf (clipText snapshotTruncationMarker (blockText snapshot task) maxChars)).head? =
        some snapshotSectionHeader.toList ↔ HeaderRoom snapshot task maxChars) ∧
      ∃ first rest, linesOf (clipText snapshotTruncationMarker (blockText snapshot task) maxChars) =
          first :: rest ∧ first <+: snapshotSectionHeader.toList ∧
        ∀ line ∈ rest, line = markerLine ∨
          ∃ whole ∈ (blockLines snapshot task).tail, line <+: whole.toList := by
  have hnewline := blockLines_no_newline h htask
  obtain ⟨tail, htail⟩ : ∃ tail, blockLines snapshot task = snapshotSectionHeader :: tail :=
    ⟨_, rfl⟩
  by_cases hfits : (blockText snapshot task).length ≤ maxChars
  · have hlines : linesOf (clipText snapshotTruncationMarker (blockText snapshot task) maxChars) =
        (blockLines snapshot task).map String.toList := by
      rw [clipText_of_le hfits, linesOf, blockText, String.toList_intercalate]
      refine List.splitOn_intercalate '\n' ?_ (by rw [htail]; simp)
      intro line hline
      obtain ⟨whole, hwhole, rfl⟩ := List.mem_map.mp hline
      exact hnewline whole hwhole
    rw [hlines, htail]
    refine ⟨Or.inl rfl, iff_of_true rfl (Or.inl hfits), _, _, rfl, List.prefix_rfl, ?_⟩
    intro line hline
    obtain ⟨whole, hwhole, rfl⟩ := List.mem_map.mp hline
    exact Or.inr ⟨whole, hwhole, List.prefix_rfl⟩
  · have hmarker : snapshotTruncationMarker.toList = '\n' :: markerLine := by
      unfold snapshotTruncationMarker markerLine
      rw [String.toList_ofList, String.toList_ofList]
    have hmark : '\n' ∉ markerLine := by decide
    have hshort : snapshotTruncationMarker.length < snapshotSectionHeader.length := by
      unfold snapshotTruncationMarker snapshotSectionHeader
      rw [← String.length_toList, ← String.length_toList, String.toList_ofList,
        String.toList_ofList]
      decide
    rw [htail] at hnewline
    have hcut : maxChars < ("\n".intercalate (snapshotSectionHeader :: tail)).length := by
      rw [← htail]
      exact Nat.lt_of_not_le hfits
    obtain ⟨k, whole, part, hwhole, hpart, hzero, hfirst, hlines⟩ :=
      clipText_lines hmarker hmark hnewline hcut
    have htext : linesOf (clipText snapshotTruncationMarker (blockText snapshot task) maxChars) =
        ((snapshotSectionHeader :: tail).take k).map String.toList ++
          part :: if snapshotTruncationMarker.length < maxChars then [markerLine] else [] := by
      rw [linesOf, blockText, htail]
      exact hlines
    -- so many characters are left before the marker
    have hroom : HeaderRoom snapshot task maxChars ↔ snapshotSectionHeader.length ≤
        if snapshotTruncationMarker.length < maxChars then
          maxChars - snapshotTruncationMarker.length else maxChars := by
      rw [HeaderRoom, or_iff_right hfits]
      split_ifs <;> omega
    have hplaced : CutLines (snapshotSectionHeader :: tail)
        (((snapshotSectionHeader :: tail).take k).map String.toList ++
          part :: if snapshotTruncationMarker.length < maxChars then [markerLine] else []) := by
      refine Or.inr ⟨k, whole, part, hwhole, hpart, ?_⟩
      split_ifs
      · exact Or.inr rfl
      · exact Or.inl rfl
    have hmarked {line : List Char} (hline : line ∈
        if snapshotTruncationMarker.length < maxChars then [markerLine] else []) :
        line = markerLine := by
      split_ifs at hline
      · exact List.mem_singleton.mp hline
      · cases hline
    rw [htext, htail]
    refine ⟨hplaced, ?_⟩
    cases k with
    | zero =>
        have hheader : whole = snapshotSectionHeader := (Option.some.inj hwhole).symm
        have hpartHeader := hzero rfl
        rw [hheader] at hpart hpartHeader
        refine ⟨?_, part, _, rfl, hpart, fun line hline => Or.inl (hmarked hline)⟩
        rw [List.take_zero, List.map_nil, List.nil_append, List.head?_cons, Option.some.injEq,
          hroom, hpartHeader, List.take_eq_self_iff, String.length_toList]
    | succ k =>
        have hlong := mt hfirst (Nat.succ_ne_zero k)
        refine ⟨iff_of_true rfl (hroom.mpr (Nat.le_of_not_le hlong)), _, _, rfl,
          List.prefix_rfl, ?_⟩
        intro line hline
        rcases List.mem_append.mp hline with hline | hline
        · obtain ⟨other, hother, rfl⟩ := List.mem_map.mp hline
          exact Or.inr ⟨other, List.mem_of_mem_take hother, List.prefix_rfl⟩
        · rcases List.mem_cons.mp hline with rfl | hline
          · exact Or.inr ⟨whole, List.mem_of_getElem? hwhole, hpart⟩
          · exact Or.inl (hmarked hline)

lemma renderSnapshotBlockDetailed_eq (htask : snapshot.selectedTask = some task) (maxChars : ℕ) :
    renderSnapshotBlockDetailed snapshot maxChars =
      some (clipText snapshotTruncationMarker (blockText snapshot task) maxChars,
        linesCut snapshot task || decide (maxChars < (blockText snapshot task).length)) := by
  rw [renderSnapshotBlockDetailed, htask, Option.bind_eq_bind, Option.bind_some,
    renderLines_gives snapshot task false, Bool.false_or]
  rfl

/-- Every snapshot has a block, for every budget. It is within the budget, its lines are the
block's own, the header comes first and once if there is room for it, and the flag tells
whether anything is cut. -/
theorem every_block_faithful (snapshot : SharedSnapshot) (h : snapshot.Valid) (maxChars : ℕ) :
    ∃ task text truncated, snapshot.selectedTask = some task ∧
      renderSnapshotBlockDetailed snapshot maxChars = some (text, truncated) ∧
      FaithfulBlock snapshot task maxChars text truncated := by
  obtain ⟨task, htask⟩ := h.selected
  have hvalid := h.validTask htask
  obtain ⟨hplaced, hheader, first, rest, hlines, hfirst, hrest⟩ := cut_shape h hvalid maxChars
  refine ⟨task, _, _, htask, renderSnapshotBlockDetailed_eq htask maxChars, length_clipText_le,
    hplaced, blockLines_labelled h hvalid, hheader, ?_, ?_, flag_iff snapshot task maxChars⟩
  · rw [hlines, List.tail_cons]
    intro hmem
    obtain ⟨chars, hchars⟩ := header_head
    rcases hrest _ hmem with heq | ⟨whole, hwhole, hbegins⟩
    · rw [hchars] at heq
      exact absurd (List.cons.inj heq).1 (by decide)
    · rw [hchars] at hbegins
      rcases head_of_tail h hvalid hwhole hbegins with ⟨-, hc⟩ | ⟨-, hc⟩
      · exact absurd hc (by decide)
      · exact hc rfl
  · intro line hline hentry
    rw [hlines] at hline
    obtain ⟨body, hbody⟩ := hentry
    have hcons : line = '-' :: (" id=".toList ++ body) := hbody.symm
    rcases List.mem_cons.mp hline with heq | hline
    · rw [← heq, hcons] at hfirst
      obtain ⟨after, hafter⟩ := hfirst
      exact absurd (List.cons.inj hafter).1 (by decide)
    · rcases hrest line hline with heq | ⟨whole, hwhole, hbegins⟩
      · rw [hcons] at heq
        exact absurd (List.cons.inj heq).1 (by decide)
      · rw [hcons] at hbegins
        rcases head_of_tail h hvalid hwhole hbegins with ⟨⟨t, ht, heq⟩, -⟩ | ⟨hc, -⟩
        · exact ⟨t, ht, by rw [hcons, ← heq]; exact hbegins⟩
        · exact absurd rfl hc

/-- A snapshot of a session with one task. -/
def blockSample : SharedSnapshot :=
  ⟨sampleSha, String.ofList (List.replicate 64 'a'), (scopedState ["src"]).normal, "t"⟩

lemma blockSample_valid : blockSample.Valid := by
  obtain ⟨payload, hpayload⟩ := scopedState_src
  have hstate := (statePayload_eq_ok.mp hpayload).1.valid
  have hselected : ∃ task, blockSample.selectedTask = some task := by
    simp [SharedSnapshot.selectedTask, blockSample, SessionState.normal, scopedState]
  have hhash : isContextHash (String.ofList (List.replicate 64 'a')) = true := by
    rw [isContextHash, String.toList_ofList]
    decide
  exact ⟨isSha_sampleSha, hhash, hstate, hselected⟩

theorem every_block_faithful_sample :
    ∃ task text truncated, blockSample.selectedTask = some task ∧
      renderSnapshotBlockDetailed blockSample 6000 = some (text, truncated) ∧
      FaithfulBlock blockSample task 6000 text truncated :=
  every_block_faithful blockSample blockSample_valid 6000

/-- A budget of nothing leaves no header. -/
theorem block_without_header :
    blockSample.Valid ∧ ∃ truncated, renderSnapshotBlockDetailed blockSample 0 = some ("", truncated) ∧
      ¬ snapshotSectionHeader.toList <+: "".toList := by
  refine ⟨blockSample_valid, ?_⟩
  obtain ⟨task, htask⟩ := blockSample_valid.selected
  obtain ⟨chars, hchars⟩ := header_head
  exact ⟨_, renderSnapshotBlockDetailed_eq htask 0, by simp [hchars]⟩

end Blocks

end Imece.CollabRuntime
