import Imece.RunRuntime.Recorders

/-!
# What recorders do to the trails

Every access of every recorder moves what the recorder holds. A sink starts an
attempt at the number it remembered before it searched the log; the fix-loop
recorder at the number of a row it reads after its search.
-/
namespace Imece.RunRuntime

open Lib AgentRuntime VerificationRuntime

/-- A program that moves tokens, under the recorders' rules. -/
abbrev Moving (fair : List (Access StoreAccess RunStore) → Access StoreAccess RunStore → Prop)
    {α : Type} (p : RunProg α)
    (post : Except RunRuntimeError α → List (Access StoreAccess RunStore) → Token → RunStore → Prop)
    (past : List (Access StoreAccess RunStore)) (token : Token) (store : RunStore) : Prop :=
  p.Holds RunStore.Grows Agrees fair RecorderMove post past token store

section Appends

variable {fair : List (Access StoreAccess RunStore) → Access StoreAccess RunStore → Prop}
  {past : List (Access StoreAccess RunStore)} {token token₂ : Token} {store : RunStore}
  {runId : String}

lemma RecorderMove.still (past : List (Access StoreAccess RunStore)) (label : StoreAccess)
    (token : Token) (store : RunStore) : RecorderMove past ⟨label, store, store⟩ token token :=
  ⟨.quiet (.refl _) fun _ => rfl, fun _ _ _ h => absurd rfl h⟩

/-- Specs that no trail marks. -/
def Unmarked (specs : List EventArgs) : Prop := ∀ args ∈ specs, args.type ∉ trailTypes

lemma TrailKey.mem_trailTypes {key : TrailKey} {type : String} {payload : PyValue}
    (h : key.marks type payload = true) : type ∈ trailTypes := by
  rw [marks, Bool.and_eq_true] at h
  have hmem := List.contains_iff_mem.mp h.1
  rw [trailTypes, List.mem_flatMap]
  exact ⟨key.kind, by cases key.kind <;> simp, hmem⟩

lemma TrailKind.started_mem (kind : TrailKind) : kind.started.value ∈ trailTypes := by
  rw [trailTypes, List.mem_flatMap]
  exact ⟨kind, by cases kind <;> simp, List.mem_cons_self⟩

lemma Unmarked.quiet {specs : List EventArgs} {next : RunStore} (h : Unmarked specs)
    (happended : AppendedArgs store next runId specs) :
    RecorderMove past ⟨.append runId (specs.map (·.type)), store, next⟩ token token := by
  constructor
  · refine .quiet happended.grows fun key => happended.trail_same key fun _ args hargs => ?_
    by_contra hmarks
    rw [Bool.not_eq_false] at hmarks
    exact h args hargs (TrailKey.mem_trailTypes hmarks)
  · intro run kind hlabel
    have hmem : kind.started.value ∈ specs.map (·.type) := by
      rw [(StoreAccess.append.inj hlabel).2]
      exact List.mem_singleton_self _
    obtain ⟨args, hargs, htype⟩ := List.mem_map.mp hmem
    exact absurd (htype ▸ kind.started_mem) (h args hargs)

/-- What an appending program leaves: its number, or nothing at all. -/
def Appended? (runId : String) (token token₂ : Token) (store : RunStore)
    (r : Except RunRuntimeError ℕ) (_ : List (Access StoreAccess RunStore)) (token' : Token)
    (t : RunStore) : Prop :=
  RunStore.Grows store t ∧ ((∃ seq, r = .ok seq ∧ token' = token₂ ∧ seq ≤ (t.log runId).length) ∨
    (∃ e, r = .error e) ∧ token' = token)

/-- The accesses made since are reads. -/
def ReadSince (past past' : List (Access StoreAccess RunStore)) : Prop :=
  ∃ reads, past' = reads ++ past ∧ ∀ access ∈ reads, access.label = .read

lemma ReadSince.refl (past : List (Access StoreAccess RunStore)) : ReadSince past past :=
  ⟨[], rfl, fun _ h => absurd h List.not_mem_nil⟩

lemma ReadSince.read {past past' : List (Access StoreAccess RunStore)} {met : RunStore}
    (h : ReadSince (⟨.read, met, met⟩ :: past) past') : ReadSince past past' := by
  obtain ⟨reads, rfl, hreads⟩ := h
  refine ⟨reads ++ [⟨.read, met, met⟩], by simp, fun access haccess => ?_⟩
  rcases List.mem_append.mp haccess with haccess | haccess
  · exact hreads access haccess
  · rw [List.mem_singleton.mp haccess]

/-- The accesses of an append: one that lengthens the log, or none that changes anything. -/
def TriedOnce {α : Type} (past : List (Access StoreAccess RunStore)) (runId : String)
    (types : List String) (r : Except RunRuntimeError α)
    (past' : List (Access StoreAccess RunStore)) : Prop :=
  (∃ a, r = .ok a) ∧ (∃ met left, past' = ⟨.append runId types, met, left⟩ :: past ∧
      (met.log runId).length < (left.log runId).length) ∨
    (∃ e, r = .error e) ∧
      (past' = past ∨ ∃ met, past' = ⟨.append runId types, met, met⟩ :: past)

lemma batch_args {specs : List EventArgs} {built : List RunEventSpec}
    (h : specs.mapM RunEventSpec.ofArgs = .ok built) (fresh : ℕ → Fresh) :
    (built.zipIdx.map fun (spec, i) => (spec, fresh i)).map (·.1.args) = specs := by
  rw [← mapM_ofArgs_args h, List.map_map]
  conv_rhs => rw [← List.zipIdx_map_fst 0 built, List.map_map]
  rfl

/-- A batch at an expected number: it moves the token as its events do, or stands still. -/
theorem commitSpecs_moving {specs : List EventArgs} {expected : ℕ} {fresh : ℕ → Fresh}
    (hmove : ∀ t next, RunStore.Grows store t → Agrees token t →
      fair past ⟨.append runId (specs.map (·.type)), t, next⟩ →
        expected = (t.log runId).length → AppendedArgs t next runId specs →
          RecorderMove past ⟨.append runId (specs.map (·.type)), t, next⟩ token token₂) :
    Moving fair (commitSpecs runId specs expected fresh)
      (fun r past' token' t => Appended? runId token token₂ store r past' token' t ∧
        TriedOnce past runId (specs.map (·.type)) r past') past token store := by
  unfold commitSpecs
  cases hbuilt : specs.mapM RunEventSpec.ofArgs with
  | error e => exact fun t ht => ⟨⟨ht, Or.inr ⟨⟨e, rfl⟩, rfl⟩⟩, Or.inr ⟨⟨e, rfl⟩, Or.inl rfl⟩⟩
  | ok built =>
      have hargs := batch_args hbuilt fresh
      change Moving fair (recordMany runId _ (some expected) >>= _) _ _ _ _
      generalize List.map _ built.zipIdx = batch at hargs
      refine Prog.Holds.bind RunStore.Grows.refl
        (Q := fun r past' token' t => (RunStore.Grows store t ∧
          ((∃ events row, r = .ok (events, row) ∧ token' = token₂ ∧
            (events.getLast?.map (·.seq)).getD expected ≤ (t.log runId).length) ∨
            (∃ e, r = .error e) ∧ token' = token)) ∧
          TriedOnce past runId (specs.map (·.type)) r past')
        (Prog.Holds.call fun t ht hagrees hfair => ?_) ?_ ?_
      · cases hresult : result (RunStore.appendEvents runId batch (expectedSeq (some expected))) t with
        | error e =>
            have hsame : after (RunStore.appendEvents runId batch (expectedSeq (some expected))) t =
                t := by
              have herror := result_eq_error.mp hresult
              exact RunStore.appendEvents_failsClean runId batch _ t e _ herror
            have htypes : batch.map (·.1.type) = specs.map (·.type) := by
              rw [← hargs, List.map_map]
              rfl
            rw [hsame, htypes]
            exact ⟨token, .still _ _ token t, fun u hu =>
              ⟨⟨ht.trans hu, Or.inr ⟨⟨e, rfl⟩, rfl⟩⟩, Or.inr ⟨⟨e, rfl⟩, Or.inr ⟨t, rfl⟩⟩⟩⟩
        | ok appended =>
            have hok := result_eq_ok.mp hresult
            have happended := RunStore.appendEvents_args (hagrees.1.sound runId) hok
            obtain ⟨hseq, hextends, hlog, hnonempty⟩ :=
              RunStore.appendEvents_extends (hagrees.1.sound runId) hok
            rw [hargs] at happended
            have htypes : batch.map (·.1.type) = specs.map (·.type) := by
              rw [← hargs, List.map_map]
              rfl
            refine ⟨token₂, ?_, fun u hu => ?_⟩
            · rw [htypes] at hfair ⊢
              exact hmove t _ ht hagrees hfair (hseq _ rfl) happended
            refine ⟨⟨(ht.trans happended.grows).trans hu, Or.inl ⟨_, _, rfl, rfl, ?_⟩⟩,
              Or.inl ⟨⟨_, rfl⟩, _, _, by rw [htypes], ?_⟩⟩
            swap
            · rw [hlog, List.length_append]
              exact Nat.lt_add_of_pos_right (List.length_pos_iff.mpr hnonempty)
            have hnext := (hagrees.1.sound.grow happended.grows) runId
            rw [lastSeq_append hnext hlog hnonempty, Option.getD_some, ← hlog]
            exact (hu.log runId).length_le
      · rintro ⟨events, row⟩ past' token' t
          ⟨⟨hgrows, ⟨_, _, hok, rfl, hle⟩ | ⟨⟨e, herror⟩, -⟩⟩, ⟨-, htried⟩ | ⟨⟨e, herror'⟩, -⟩⟩
        · cases hok
          exact fun u hu => ⟨⟨hgrows.trans hu,
            Or.inl ⟨_, rfl, rfl, hle.trans (hu.log runId).length_le⟩⟩, Or.inl ⟨⟨_, rfl⟩, htried⟩⟩
        · cases herror'
        · cases herror
        · cases herror
      · rintro e past' token' t
          ⟨⟨hgrows, ⟨_, _, hok, -⟩ | ⟨⟨e', herror⟩, htoken⟩⟩, ⟨⟨_, hok'⟩, -⟩ | ⟨-, htried⟩⟩
        · cases hok
        · cases hok
        · cases hok'
        · exact ⟨⟨hgrows, Or.inr ⟨⟨e, rfl⟩, htoken⟩⟩, Or.inr ⟨⟨e, rfl⟩, htried⟩⟩

/-- One event, expected at a number or not. -/
theorem record_moving (token₂ : Token) {args : EventArgs} {expected : Option ℕ} {fresh : Fresh}
    (hmove : ∀ t next, RunStore.Grows store t → Agrees token t →
      fair past ⟨.append runId [args.type], t, next⟩ →
        (∀ n ∈ expected, n = (t.log runId).length) → AppendedArgs t next runId [args] →
          RecorderMove past ⟨.append runId [args.type], t, next⟩ token token₂) :
    Moving fair (record runId args expected fresh)
      (fun r past' => Appended? runId token token₂ store (r.map fun made => made.1.seq) past')
      past token store := by
  refine Prog.Holds.call fun t ht hagrees hfair => ?_
  cases hresult : result (RunStore.appendEvent runId args (expectedSeq expected) fresh) t with
  | error e =>
      have hsame : after (RunStore.appendEvent runId args (expectedSeq expected) fresh) t = t :=
        RunStore.appendEvent_failsClean runId args _ fresh t e _ (result_eq_error.mp hresult)
      rw [hsame]
      exact ⟨token, .still _ _ token t, fun u hu => ⟨ht.trans hu, Or.inr ⟨⟨e, rfl⟩, rfl⟩⟩⟩
  | ok appended =>
      have hok := result_eq_ok.mp hresult
      obtain ⟨happended, hlast⟩ := RunStore.appendEvent_args (hagrees.1.sound runId) hok
      obtain ⟨hseq, -, -⟩ := RunStore.appendEvent_extends (hagrees.1.sound runId) hok
      refine ⟨token₂, hmove t _ ht hagrees hfair hseq happended, fun u hu =>
        ⟨(ht.trans happended.grows).trans hu, Or.inl ⟨_, rfl, rfl, ?_⟩⟩⟩
      change appended.1.seq ≤ _
      rw [hlast]
      exact (hu.log runId).length_le

/-- The row that is read shows the length of the log. -/
theorem runningSeq_moving (what : String) :
    Moving fair (runningSeq runId what)
      (fun r past' token' t => token' = token ∧ RunStore.Grows store t ∧ ∀ seq, r = .ok seq →
        ∃ row, past' = ⟨.read, row, row⟩ :: past ∧ RunStore.Grows store row ∧
          RunStore.Grows row t ∧ seq = (row.log runId).length) past token store := by
  refine Prog.Holds.bind RunStore.Grows.refl
    (Q := fun r past' token' t => token' = token ∧ RunStore.Grows store t ∧ ∀ run, r = .ok run →
      ∃ row, past' = ⟨.read, row, row⟩ :: past ∧ RunStore.Grows store row ∧
        RunStore.Grows row t ∧ run.lastEventSeq = (row.log runId).length)
    (Prog.Holds.call fun t ht hagrees _ => ?_) ?_ ?_
  · rw [RunStore.getRun_after]
    refine ⟨token, .still _ _ token t, fun u hu => ⟨rfl, ht.trans hu, fun run hrun => ?_⟩⟩
    refine ⟨t, rfl, ht, hu, ?_⟩
    exact ((hagrees.1.sound runId).history run (RunStore.getRun_result hrun)).lastEventSeq
  · rintro run past' token' t ⟨htoken, hgrows, hrow⟩
    split
    · exact fun u hu => ⟨htoken, hgrows.trans hu, fun _ h => by cases h⟩
    · refine fun u hu => ⟨htoken, hgrows.trans hu, ?_⟩
      rintro seq ⟨⟩
      obtain ⟨row, hpast, hstore, hrowt, hseq⟩ := hrow run rfl
      exact ⟨row, hpast, hstore, hrowt.trans hu, hseq⟩
  · exact fun e _ _ _ h => ⟨h.1, h.2.1, fun _ h => by cases h⟩

/-- The search met, at its last page, a log without a start of the identifier. -/
theorem rejectReused_moving (key : TrailKey) {pages afterSeq : ℕ}
    (hnone : ∀ event ∈ (store.log key.runId).take afterSeq,
      (key.isStart event && (event.payload.get key.kind.idKey).eqStr key.id) = false)
    (hcursor : afterSeq ≤ (store.log key.runId).length) :
    Moving fair (rejectReused key.runId key.kind.started key.kind.idKey key.id pages afterSeq)
      (fun r past' token' t => token' = token ∧ RunStore.Grows store t ∧ (r = .ok () →
        ∃ page rest, past' = ⟨.read, page, page⟩ :: rest ∧ RunStore.Grows store page ∧
          RunStore.Grows page t ∧ page.starts key = []) ∧ ReadSince past past') past token store := by
  induction pages generalizing afterSeq store past token with
  | zero => exact fun t ht => ⟨rfl, ht, fun h => (by cases h), .refl past⟩
  | succ pages ih =>
      unfold rejectReused
      refine Prog.Holds.bind RunStore.Grows.refl
        (Q := fun r past' token' t => token' = token ∧ RunStore.Grows store t ∧
          ∃ met, past' = ⟨.read, met, met⟩ :: past ∧ RunStore.Grows store met ∧
            RunStore.Grows met t ∧ met.Sound ∧
            ∀ page, r = .ok page → result (RunStore.events key.runId afterSeq 200) met = .ok page)
        (Prog.Holds.call fun t ht hagrees _ => ?_) ?_ ?_
      · rw [RunStore.events_after]
        exact ⟨token, .still _ _ token t, fun u hu =>
          ⟨rfl, ht.trans hu, t, rfl, ht, hu, hagrees.1.sound, fun page hpage => hpage⟩⟩
      · rintro page past' token' t ⟨rfl, hgrows, met, rfl, hstore, hmet, hsound, hpage⟩
        have hresult := hpage page rfl
        have hrun : (met.findRun key.runId).isSome := by
          cases hfind : met.findRun key.runId with
          | some row => rfl
          | none =>
              unfold result RunStore.events at hresult
              rw [if_neg (by decide), if_pos (by simp [hfind])] at hresult
              cases hresult
        rw [RunStore.events_page hrun (hsound key.runId) (by decide)] at hresult
        have hsize : (min 200 maxEventPageLimit).toNat = 200 := rfl
        simp only [hsize, Except.ok.injEq] at hresult
        have hlength := (hstore.log key.runId).length_le
        have htake := take_of_grows (hstore.log key.runId) hcursor
        split
        · exact fun u hu => ⟨rfl, hgrows.trans hu, fun h => (by cases h), (ReadSince.refl _).read⟩
        · rename_i hclear
          rw [Bool.not_eq_true, List.any_eq_false] at hclear
          have hseen : ∀ event ∈ (met.log key.runId).take (afterSeq + 200),
              (key.isStart event && (event.payload.get key.kind.idKey).eqStr key.id) = false := by
            intro event hevent
            rw [List.take_add, List.mem_append] at hevent
            rcases hevent with hold | hnew
            · exact hnone event (htake ▸ hold)
            · rw [← Bool.not_eq_true]
              exact hclear event (by rw [← hresult]; exact hnew)
          split
          · rename_i hdone
            rw [← hresult, Bool.not_eq_true', decide_eq_false_iff_not] at hdone
            refine fun u hu => ⟨rfl, hgrows.trans hu, fun _ => ⟨met, past, rfl, hstore,
              hmet.trans hu, ?_⟩, (ReadSince.refl _).read⟩
            rw [List.take_of_length_le (by omega)] at hseen
            rw [RunStore.starts, List.filter_eq_nil_iff]
            intro event hevent
            rw [hseen event hevent]
            exact Bool.false_ne_true
          · rename_i hmore
            rw [← hresult, Bool.not_eq_true', Bool.not_eq_false, decide_eq_true_eq] at hmore
            have hlast : ((page.events.getLast?.map (·.seq)).getD afterSeq) = afterSeq + 200 := by
              obtain ⟨row, hrow⟩ := Option.isSome_iff_exists.mp hrun
              have hnumbered := ((hsound key.runId).history row hrow).numbered
              have hseq := lastSeq_take hnumbered (n := afterSeq + 200) (by omega) (by omega)
              rw [List.take_add, List.getLast?_append_of_ne_nil] at hseq
              · rw [← hresult, hseq]
                rfl
              · simp only [ne_eq, List.take_eq_nil_iff, List.drop_eq_nil_iff, not_or]
                omega
            rw [hlast]
            have htgrow := hmet.log key.runId
            have hseen' : ∀ event ∈ (t.log key.runId).take (afterSeq + 200),
                (key.isStart event && (event.payload.get key.kind.idKey).eqStr key.id) = false := by
              rw [take_of_grows htgrow (by omega)]
              exact hseen
            have hle' : afterSeq + 200 ≤ (t.log key.runId).length := by
              have := htgrow.length_le
              omega
            refine (ih hseen' hle').weaken ?_
            rintro r past'' token'' u ⟨rfl, hu, hok, hreads⟩
            refine ⟨rfl, hgrows.trans hu, fun h => ?_, hreads.read⟩
            obtain ⟨page', rest, hpast, htpage, hpageu, hempty⟩ := hok h
            exact ⟨page', rest, hpast, hgrows.trans htpage, hpageu, hempty⟩
      · rintro e past' token' t ⟨htoken, hgrows, met, rfl, -⟩
        exact ⟨htoken, hgrows, fun h => (by cases h), (ReadSince.refl _).read⟩

lemma TrailKind.started_inj {kind other : TrailKind}
    (h : kind.started.value = other.started.value) : kind = other := by
  have hstarted := RunEventType.value_injective h
  cases kind <;> cases other <;> first | rfl | cases hstarted

/-- The first event of an attempt, at a log without a start of its identifier that the
search for it has met. -/
lemma starts_of_append (key : TrailKey) {args : EventArgs} {next page : RunStore}
    (hagrees : Agrees none store) (hempty : page.starts key = [])
    (hpage : past[key.kind.between]? = some ⟨.read, page, page⟩)
    (hlog : page.log key.runId = store.log key.runId)
    (htype : args.type = key.kind.started.value)
    (hid : payloadGet args.payload key.kind.idKey = .str key.id)
    (happended : AppendedArgs store next key.runId [args]) :
    RecorderMove past ⟨.append key.runId [args.type], store, next⟩ none (some key) := by
  have hmarks : key.marks args.type args.payload = true := by
    rw [TrailKey.marks, htype, hid, Bool.and_eq_true]
    exact ⟨List.contains_iff_mem.mpr (by simp [TrailKind.types]), by simp⟩
  obtain ⟨event, hevent, htrail⟩ := happended.trail_snoc hmarks
  rw [RunStore.starts, hlog] at hempty
  have hnew := (hagrees.1.form key).eq_nil (TrailKey.marks_starts hempty)
  rw [hnew, List.nil_append] at htrail
  constructor
  · refine .starts happended.grows hnew ?_ htrail fun other hother =>
      happended.trail_same other fun hrun spec hspec => ?_
    · rw [TrailKey.isStart, RunEvent.isType, hevent, htype]
      exact beq_self_eq_true _
    · rw [List.mem_singleton.mp hspec]
      by_contra hmark
      rw [Bool.not_eq_false] at hmark
      exact hother (TrailKey.marks_unique hrun.symm hmarks hmark)
  · intro run kind hlabel _
    obtain ⟨rfl, htypes⟩ := StoreAccess.append.inj hlabel
    obtain rfl := TrailKind.started_inj (htype.symm.trans (List.singleton_inj.mp htypes))
    exact ⟨_, hpage, rfl, hlog⟩

/-- The terminal of the attempt that is held. -/
lemma ends_of_append (key : TrailKey) {args : EventArgs} {next : RunStore}
    (htype : args.type ∈ key.kind.terminals.map (·.value))
    (hid : payloadGet args.payload key.kind.idKey = .str key.id)
    (happended : AppendedArgs store next key.runId [args]) :
    RecorderMove past ⟨.append key.runId [args.type], store, next⟩ (some key) none := by
  have hmarks : key.marks args.type args.payload = true := by
    rw [TrailKey.marks, hid, Bool.and_eq_true]
    exact ⟨List.contains_iff_mem.mpr (List.mem_cons_of_mem _ htype), by simp⟩
  obtain ⟨event, hevent, htrail⟩ := happended.trail_snoc hmarks
  constructor
  · refine .ends happended.grows ?_ htrail fun other hother =>
      happended.trail_same other fun hrun spec hspec => ?_
    · obtain ⟨type, hmem, hvalue⟩ := List.mem_map.mp htype
      rw [TrailKey.isTerminal, List.any_eq_true]
      refine ⟨type, hmem, ?_⟩
      rw [RunEvent.isType, hevent, ← hvalue]
      exact beq_self_eq_true _
    · rw [List.mem_singleton.mp hspec]
      by_contra hmark
      rw [Bool.not_eq_false] at hmark
      exact hother (TrailKey.marks_unique hrun.symm hmarks hmark)
  · intro run kind hlabel _
    obtain ⟨-, htypes⟩ := StoreAccess.append.inj hlabel
    rw [List.singleton_inj.mp htypes] at htype
    obtain ⟨type, hmem, hvalue⟩ := List.mem_map.mp htype
    rw [RunEventType.value_injective hvalue] at hmem
    cases hkind : key.kind <;> cases kind <;>
      simp [hkind, TrailKind.started, TrailKind.terminals] at hmem

/-- A log that has the length it had earlier has not changed since. -/
lemma log_of_length {page t : RunStore} {expected : ℕ}
    (hpage : RunStore.Grows page t) (hseen : expected ≤ (page.log runId).length)
    (hseq : expected = (t.log runId).length) : page.log runId = t.log runId :=
  snapshot_eq_of_length (hpage.log runId) (by omega)

end Appends

end Imece.RunRuntime
