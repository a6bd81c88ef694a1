import Imece.Lib.Ownership

/-!
# What one program adds to a shared log

A program works on a shared state among others, and any of its accesses may fail without
effect. What its accesses add to a log of the state is its journal. A program is specified by
what its journal is after every access and at its end, whatever states it meets.
-/
namespace Imece.Lib

/-- What comes before an access: the moves of others, and whether the access then fails. -/
structure Turn (κ : Type) where
  moves : List κ := []
  outage : Bool := false

/-- What an access adds to a log that it only extends. -/
def Access.added {ℓ σ β : Type} (log : σ → List β) (access : Access ℓ σ) : List β :=
  (log access.left).drop (log access.met).length

/-- What a list of accesses adds, in order. -/
def journal {ℓ σ β : Type} (log : σ → List β) (accesses : List (Access ℓ σ)) : List β :=
  accesses.flatMap (·.added log)

@[simp] lemma journal_nil {ℓ σ β : Type} (log : σ → List β) :
    journal log ([] : List (Access ℓ σ)) = [] := rfl

@[simp] lemma journal_cons {ℓ σ β : Type} (log : σ → List β) (access : Access ℓ σ)
    (rest : List (Access ℓ σ)) :
    journal log (access :: rest) = access.added log ++ journal log rest := rfl

namespace Prog

variable {ℓ σ ε α β γ κ : Type}

/-- A run of a program by itself gives its accesses, its result and the last state. -/
structure Attended (ℓ σ ε α : Type) where
  accesses : List (Access ℓ σ)
  result : Option (Except ε α)
  last : σ

/-- A program among the moves of others. An access that fails raises what it raises at
`refusing` and leaves the state alone. The program is unfinished where the turns end. -/
def attended (step : σ → κ → σ) (refusing : σ) :
    Prog ℓ σ ε α → List (Turn κ) → σ → Attended ℓ σ ε α
  | done result, _, s => ⟨[], some result, s⟩
  | act _ _ _, [], s => ⟨[], none, s⟩
  | act label effect next, turn :: rest, s =>
      let met := Machine.run step s turn.moves
      if turn.outage then
        let after := attended step refusing (next refusing) rest met
        { after with accesses := ⟨label, met, met⟩ :: after.accesses }
      else
        let after := attended step refusing (next met) rest (effect met)
        { after with accesses := ⟨label, met, effect met⟩ :: after.accesses }

/-- From every state of `inv`, every access extends the log, so that the journal keeps `always`,
and the result meets `post` together with the journal. A failing access adds nothing. -/
def Writes (log : σ → List β) (refusing : σ) (inv : σ → Prop) (always : List β → Prop)
    (post : Except ε α → List β → Prop) : Prog ℓ σ ε α → List β → Prop
  | done result, own => post result own
  | act _ effect next, own =>
      Writes log refusing inv always post (next refusing) own ∧
        ∀ t, inv t → inv (effect t) ∧ ∃ more, log (effect t) = log t ++ more ∧
          always (own ++ more) ∧ Writes log refusing inv always post (next t) (own ++ more)

section Rules

variable {log : σ → List β} {refusing : σ} {inv : σ → Prop} {always : List β → Prop}
  {Q : Except ε α → List β → Prop} {R : Except ε γ → List β → Prop} {own : List β}

theorem Writes.bind {p : Prog ℓ σ ε α} {f : α → Prog ℓ σ ε γ}
    (hp : p.Writes log refusing inv always Q own)
    (hok : ∀ a own, Q (.ok a) own → (f a).Writes log refusing inv always R own)
    (herror : ∀ e own, Q (.error e) own → R (.error e) own) :
    (p >>= f).Writes log refusing inv always R own := by
  induction p generalizing own with
  | done result =>
      cases result with
      | ok a => exact hok a own hp
      | error e => exact herror e own hp
  | act label effect next ih =>
      refine ⟨ih refusing hp.1, fun t ht => ?_⟩
      obtain ⟨hinv, more, hlog, halways, hnext⟩ := hp.2 t ht
      exact ⟨hinv, more, hlog, halways, ih t hnext⟩

theorem Writes.attempt_bind {p : Prog ℓ σ ε α} {f : Except ε α → Prog ℓ σ ε γ}
    (hp : p.Writes log refusing inv always Q own)
    (hf : ∀ r own, Q r own → (f r).Writes log refusing inv always R own) :
    (p.attempt >>= f).Writes log refusing inv always R own := by
  induction p generalizing own with
  | done result => exact hf result own hp
  | act label effect next ih =>
      refine ⟨ih refusing hp.1, fun t ht => ?_⟩
      obtain ⟨hinv, more, hlog, halways, hnext⟩ := hp.2 t ht
      exact ⟨hinv, more, hlog, halways, ih t hnext⟩

/-- One call: at the refusing state its result is an answer without effect. -/
theorem Writes.call {label : ℓ} {body : EStateM ε σ α}
    (hrefused : Q (result body refusing) own)
    (h : ∀ t, inv t → inv (after body t) ∧ ∃ more, log (after body t) = log t ++ more ∧
      always (own ++ more) ∧ Q (result body t) (own ++ more)) :
    (Prog.call label body).Writes log refusing inv always Q own :=
  ⟨hrefused, h⟩

/-- A program that only reads adds nothing, however it ends. -/
theorem ReadOnly.writes {p : Prog ℓ σ ε α} (hp : p.ReadOnly) (halways : always own)
    (hpost : ∀ r, Q r own) : p.Writes log refusing inv always Q own := by
  induction p with
  | done result => exact hpost result
  | act label effect next ih =>
      refine ⟨ih refusing (hp refusing).2, fun t ht => ?_⟩
      obtain ⟨hsame, hnext⟩ := hp t
      rw [hsame]
      refine ⟨ht, [], (List.append_nil _).symm, ?_⟩
      rw [List.append_nil]
      exact ⟨halways, ih t hnext⟩

end Rules

section Runs

variable {step : σ → κ → σ} {log : σ → List β} {refusing : σ} {inv : σ → Prop}
  {always : List β → Prop} {Q : Except ε α → List β → Prop} {own : List β}

lemma added_of_append {access : Access ℓ σ} {more : List β}
    (h : log access.left = log access.met ++ more) : access.added log = more := by
  rw [Access.added, h, List.drop_left]

lemma added_same (label : ℓ) (s : σ) : (⟨label, s, s⟩ : Access ℓ σ).added log = [] :=
  List.drop_length

/-- What a run leaves: its journal kept `always` after each access, and its result meets `post`
together with the journal. -/
structure Attended.Journaled (log : σ → List β) (inv : σ → Prop) (always : List β → Prop)
    (post : Except ε α → List β → Prop) (own : List β) (run : Attended ℓ σ ε α) : Prop where
  inv : inv run.last
  always : ∀ front, front <+: run.accesses → always (own ++ journal log front)
  post : ∀ r, run.result = some r → post r (own ++ journal log run.accesses)

lemma Attended.Journaled.stop {result : Option (Except ε α)} {s : σ} (hs : inv s)
    (halways : always own) (hpost : ∀ r, result = some r → Q r own) :
    Attended.Journaled log inv always Q own (⟨[], result, s⟩ : Attended ℓ σ ε α) where
  inv := hs
  always front hfront := by
    rw [List.prefix_nil.mp hfront, journal_nil, List.append_nil]
    exact halways
  post r hr := by
    rw [journal_nil, List.append_nil]
    exact hpost r hr

lemma Attended.Journaled.cons {run : Attended ℓ σ ε α} {access : Access ℓ σ}
    (halways : always own)
    (h : Attended.Journaled log inv always Q (own ++ access.added log) run) :
    Attended.Journaled log inv always Q own { run with accesses := access :: run.accesses } where
  inv := h.inv
  always front hfront := by
    cases front with
    | nil =>
        rw [journal_nil, List.append_nil]
        exact halways
    | cons first front =>
        obtain ⟨rfl, hrest⟩ := List.cons_prefix_cons.mp hfront
        rw [journal_cons, ← List.append_assoc]
        exact h.always front hrest
  post r hr := by
    rw [journal_cons, ← List.append_assoc]
    exact h.post r hr

/-- A program that writes as specified keeps its journal among any moves and outages. -/
theorem Writes.run (hmoves : ∀ s move, inv s → inv (step s move)) {p : Prog ℓ σ ε α}
    (h : p.Writes log refusing inv always Q own) (halways : always own) {s : σ} (hs : inv s)
    (turns : List (Turn κ)) :
    (p.attended step refusing turns s).Journaled log inv always Q own := by
  induction p generalizing own s turns with
  | done result =>
      refine .stop hs halways fun r hr => ?_
      cases hr
      exact h
  | act label effect next ih =>
      cases turns with
      | nil => exact .stop hs halways nofun
      | cons turn rest =>
          let met := Machine.run step s turn.moves
          have hmet : inv met := Machine.run_invariant hmoves hs turn.moves
          simp only [attended]
          split
          · refine .cons halways ?_
            rw [added_same, List.append_nil]
            exact ih refusing h.1 halways hmet rest
          · obtain ⟨hinv, more, hlog, halways', hnext⟩ := h.2 met hmet
            refine .cons halways ?_
            rw [@added_of_append ℓ σ β log ⟨label, met, effect met⟩ more hlog]
            exact ih met hnext halways' hinv rest

/-- Where the others add nothing that counts, the log shows of it what the journal shows. -/
theorem Writes.run_filter {counts : β → Bool} (hmoves : ∀ s move, inv s → inv (step s move))
    (hothers : ∀ s move, inv s → (log (step s move)).filter counts = (log s).filter counts)
    {p : Prog ℓ σ ε α} (h : p.Writes log refusing inv always Q own) {s : σ} (hs : inv s)
    (turns : List (Turn κ)) :
    let run := p.attended step refusing turns s
    (log run.last).filter counts =
      (log s).filter counts ++ (journal log run.accesses).filter counts := by
  have hquiet : ∀ s moves, inv s →
      (log (Machine.run step s moves)).filter counts = (log s).filter counts := by
    intro s moves hs
    have hkept := Machine.run_invariant
      (I := fun t => inv t ∧ (log t).filter counts = (log s).filter counts)
      (fun t move ht => ⟨hmoves t move ht.1, (hothers t move ht.1).trans ht.2⟩)
      (⟨hs, rfl⟩ : inv s ∧ _) moves
    exact hkept.2
  induction p generalizing own s turns with
  | done result => simp [attended]
  | act label effect next ih =>
      cases turns with
      | nil => simp [attended]
      | cons turn rest =>
          let met := Machine.run step s turn.moves
          have hmet : inv met := Machine.run_invariant hmoves hs turn.moves
          simp only [attended]
          split
          · rw [ih refusing h.1 hmet rest, hquiet s turn.moves hs, journal_cons, added_same,
              List.nil_append]
          · obtain ⟨hinv, more, hlog, -, hnext⟩ := h.2 met hmet
            rw [ih met hnext hinv rest, hlog, List.filter_append, hquiet s turn.moves hs,
              journal_cons, @added_of_append ℓ σ β log ⟨label, met, effect met⟩ more hlog,
              List.filter_append, List.append_assoc]

end Runs

end Prog

end Imece.Lib
