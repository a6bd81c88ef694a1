import Imece.Lib.Interleaving

/-!
# Programs that hold something

In a pool each program may hold a private token: what it, and no other program, is
entitled to do next. An access moves the token of the program that makes it, and
the invariant speaks of the shared state and of all tokens together; each program
knows what it implies for its own token. What else an access may rely on can depend
on the program's own earlier accesses.
-/
namespace Imece.Lib

/-- One access of a program: what it asked for, the state it met and the one it left. -/
structure Access (ℓ σ : Type) where
  label : ℓ
  met : σ
  left : σ

namespace Prog

variable {ℓ σ ε α β τ : Type}

/-- Every access moves the token, from any state that interference leads to, that
agrees with the token and is fair after the accesses made so far (latest first); the
result meets `post`. -/
def Holds (rely : σ → σ → Prop) (agrees : τ → σ → Prop)
    (fair : List (Access ℓ σ) → Access ℓ σ → Prop)
    (moves : List (Access ℓ σ) → Access ℓ σ → τ → τ → Prop)
    (post : Except ε α → List (Access ℓ σ) → τ → σ → Prop) :
    Prog ℓ σ ε α → List (Access ℓ σ) → τ → σ → Prop
  | done result, past, token, s => ∀ t, rely s t → post result past token t
  | act label effect next, past, token, s =>
      ∀ t, rely s t → agrees token t → fair past ⟨label, t, effect t⟩ →
        ∃ token', moves past ⟨label, t, effect t⟩ token token' ∧
          Holds rely agrees fair moves post (next t) (⟨label, t, effect t⟩ :: past) token'
            (effect t)

section Rules

variable {rely : σ → σ → Prop} {agrees : τ → σ → Prop}
  {fair : List (Access ℓ σ) → Access ℓ σ → Prop}
  {moves : List (Access ℓ σ) → Access ℓ σ → τ → τ → Prop}
  {Q : Except ε α → List (Access ℓ σ) → τ → σ → Prop}
  {R : Except ε β → List (Access ℓ σ) → τ → σ → Prop} {past : List (Access ℓ σ)} {token : τ}

theorem Holds.interfere (htrans : ∀ a b c, rely a b → rely b c → rely a c) {p : Prog ℓ σ ε α}
    {s t : σ} (h : p.Holds rely agrees fair moves Q past token s) (hst : rely s t) :
    p.Holds rely agrees fair moves Q past token t := by
  cases p with
  | done result => exact fun u hu => h u (htrans s t u hst hu)
  | act label effect next => exact fun u hu => h u (htrans s t u hst hu)

theorem Holds.weaken {Q₂ : Except ε α → List (Access ℓ σ) → τ → σ → Prop}
    {p : Prog ℓ σ ε α} {s : σ} (h : p.Holds rely agrees fair moves Q past token s)
    (hpost : ∀ r past' token' t, Q r past' token' t → Q₂ r past' token' t) :
    p.Holds rely agrees fair moves Q₂ past token s := by
  induction p generalizing past token s with
  | done result => exact fun t ht => hpost _ _ _ _ (h t ht)
  | act label effect next ih =>
      intro t ht hagrees hfair
      obtain ⟨token', hmoves, hnext⟩ := h t ht hagrees hfair
      exact ⟨token', hmoves, ih t hnext⟩

theorem Holds.bind (hrefl : ∀ s, rely s s) {p : Prog ℓ σ ε α} {f : α → Prog ℓ σ ε β} {s : σ}
    (hp : p.Holds rely agrees fair moves Q past token s)
    (hok : ∀ a past' token' t, Q (.ok a) past' token' t →
      (f a).Holds rely agrees fair moves R past' token' t)
    (herror : ∀ e past' token' t, Q (.error e) past' token' t →
      R (.error e) past' token' t) :
    (p >>= f).Holds rely agrees fair moves R past token s := by
  induction p generalizing past token s with
  | done result =>
      cases result with
      | ok a => exact hok a past token s (hp s (hrefl s))
      | error e => exact fun t ht => herror e past token t (hp t ht)
  | act label effect next ih =>
      intro t ht hagrees hfair
      obtain ⟨token', hmoves, hnext⟩ := hp t ht hagrees hfair
      exact ⟨token', hmoves, ih t hnext⟩

theorem Holds.attempt_bind (hrefl : ∀ s, rely s s) {p : Prog ℓ σ ε α}
    {f : Except ε α → Prog ℓ σ ε β} {s : σ} (hp : p.Holds rely agrees fair moves Q past token s)
    (hf : ∀ r past' token' t, Q r past' token' t →
      (f r).Holds rely agrees fair moves R past' token' t) :
    (p.attempt >>= f).Holds rely agrees fair moves R past token s := by
  induction p generalizing past token s with
  | done result => exact hf result past token s (hp s (hrefl s))
  | act label effect next ih =>
      intro t ht hagrees hfair
      obtain ⟨token', hmoves, hnext⟩ := hp t ht hagrees hfair
      exact ⟨token', hmoves, ih t hnext⟩

/-- One call: the token moves with its effect, and the result meets `post`. -/
theorem Holds.call {label : ℓ} {body : EStateM ε σ α} {s : σ}
    (h : ∀ t, rely s t → agrees token t → fair past ⟨label, t, after body t⟩ →
      ∃ token', moves past ⟨label, t, after body t⟩ token token' ∧
        ∀ u, rely (after body t) u →
          Q (result body t) (⟨label, t, after body t⟩ :: past) token' u) :
    (Prog.call label body).Holds rely agrees fair moves Q past token s := by
  intro t ht hagrees hfair
  obtain ⟨token', hmoves, hpost⟩ := h t ht hagrees hfair
  exact ⟨token', hmoves, hpost⟩

/-- A program that only reads keeps what interference and standing still keep. -/
theorem ReadOnly.holds_keeps {I : List (Access ℓ σ) → σ → Prop}
    (hstill : ∀ past label token s, moves past ⟨label, s, s⟩ token token)
    (hrely : ∀ past s t, I past s → rely s t → I past t)
    (hread : ∀ past label s, I past s → I (⟨label, s, s⟩ :: past) s) {p : Prog ℓ σ ε α}
    (hp : p.ReadOnly) {s : σ} (h : I past s) :
    p.Holds rely agrees fair moves (fun _ past' _ t => I past' t) past token s := by
  induction p generalizing past s with
  | done result => exact fun t ht => hrely past s t h ht
  | act label effect next ih =>
      intro t ht _ _
      obtain ⟨hsame, hnext⟩ := hp t
      rw [hsame]
      exact ⟨token, hstill past label token t, ih t hnext (hread past label t (hrely past s t h ht))⟩

end Rules

end Prog

section Pools

variable {ι κ ℓ σ ε α τ : Type}

/-- The access an event of a pool is, and whose. -/
def PoolEvent.access? (event : PoolEvent ι κ ℓ σ) : Option (ι × Access ℓ σ) :=
  match event.cause with
  | .access name label => some (name, ⟨label, event.before, event.after⟩)
  | _ => none

/-- The accesses of the program at a position, in order. -/
def accessesAt (position : ℕ) :
    List (Choice ι κ) → List (PoolEvent ι κ ℓ σ) → List (ι × Access ℓ σ)
  | .act chosen :: choices, event :: events =>
      if chosen = position then event.access?.toList ++ accessesAt position choices events
      else accessesAt position choices events
  | _ :: choices, _ :: events => accessesAt position choices events
  | _, _ => []

/-- Each access is as `fair` says after the ones before it. -/
def FairAccesses (fair : ι → List (Access ℓ σ) → Access ℓ σ → Prop) :
    List (Access ℓ σ) → List (ι × Access ℓ σ) → Prop
  | _, [] => True
  | past, (name, access) :: rest =>
      fair name past access ∧ FairAccesses fair (access :: past) rest

instance FairAccesses.decidable {fair : ι → List (Access ℓ σ) → Access ℓ σ → Prop}
    [∀ name past access, Decidable (fair name past access)] :
    (past : List (Access ℓ σ)) → (accesses : List (ι × Access ℓ σ)) →
      Decidable (FairAccesses fair past accesses)
  | _, [] => isTrue trivial
  | past, (_, access) :: rest =>
      @instDecidableAnd _ _ _ (FairAccesses.decidable (access :: past) rest)

theorem FairAccesses.imp {fair fair' : ι → List (Access ℓ σ) → Access ℓ σ → Prop}
    {past : List (Access ℓ σ)} {accesses : List (ι × Access ℓ σ)}
    (h : FairAccesses fair past accesses)
    (himp : ∀ name past access, fair name past access → fair' name past access) :
    FairAccesses fair' past accesses := by
  induction accesses generalizing past with
  | nil => trivial
  | cons first rest ih => exact ⟨himp _ _ _ h.1, ih h.2⟩

lemma FairAccesses.last {fair : ι → List (Access ℓ σ) → Access ℓ σ → Prop}
    {past : List (Access ℓ σ)} {accesses : List (ι × Access ℓ σ)} {name : ι}
    {access : Access ℓ σ} (h : FairAccesses fair past (accesses ++ [(name, access)])) :
    fair name ((accesses.map (·.2)).reverse ++ past) access := by
  induction accesses generalizing past with
  | nil => exact h.1
  | cons first rest ih =>
      rw [List.map_cons, List.reverse_cons, List.append_assoc]
      exact ih h.2

/-- A program that is never chosen makes no access. -/
lemma accessesAt_eq_nil {position : ℕ} {choices : List (Choice ι κ)}
    {events : List (PoolEvent ι κ ℓ σ)} (h : ∀ chosen, .act chosen ∈ choices → chosen ≠ position) :
    accessesAt position choices events = [] := by
  induction choices generalizing events with
  | nil => cases events <;> rfl
  | cons choice choices ih =>
      have hrest : ∀ events : List (PoolEvent ι κ ℓ σ), accessesAt position choices events = [] :=
        fun _ => ih fun chosen hmem => h chosen (List.mem_cons_of_mem _ hmem)
      cases events with
      | nil => cases choice <;> rfl
      | cons event events =>
          cases choice with
          | act chosen =>
              rw [accessesAt, if_neg (h chosen List.mem_cons_self)]
              exact hrest events
          | env move => exact hrest events
          | spawn name => exact hrest events

variable (environment : κ → σ → σ) (program : ι → Prog ℓ σ ε α) (rely : σ → σ → Prop)
  (agrees : τ → σ → Prop) (fair : ι → List (Access ℓ σ) → Access ℓ σ → Prop)
  (moves : ι → List (Access ℓ σ) → Access ℓ σ → τ → τ → Prop)
  (post : ι → Except ε α → List (Access ℓ σ) → τ → σ → Prop)
  (inv : σ → List τ → Prop) (first : ι → τ)

/-- What a pool of programs with tokens is built from. -/
structure TokenPool : Prop where
  refl : ∀ s, rely s s
  trans : ∀ s t u, rely s t → rely t u → rely s u
  env_keeps : ∀ move s tokens, inv s tokens →
    rely s (environment move s) ∧ inv (environment move s) tokens
  spawn_keeps : ∀ name s tokens, inv s tokens → inv s (tokens ++ [first name])
  own : ∀ s token front back, inv s (front ++ token :: back) → agrees token s
  move_keeps : ∀ name past access token token' front back,
    inv access.met (front ++ token :: back) → moves name past access token token' →
      rely access.met access.left ∧ inv access.left (front ++ token' :: back)
  program_holds : ∀ name s tokens, inv s tokens →
    (program name).Holds rely agrees (fair name) (moves name) (post name) [] (first name) s

/-- What holds between two steps: the invariant of the state with the tokens of the
programs in flight, and what each of them still does after its own accesses. -/
structure TokenInvariant (pool : Pool ι ℓ σ ε α) (tokens : List τ)
    (past : ℕ → List (Access ℓ σ)) : Prop where
  invariant : inv pool.shared tokens
  length : tokens.length = pool.threads.length
  holds : ∀ i name (p : Prog ℓ σ ε α), pool.threads[i]? = some (name, p) → ∃ token, tokens[i]? = some token ∧
    p.Holds rely agrees (fair name) (moves name) (post name) (past i) token pool.shared
  unborn : ∀ i, pool.threads.length ≤ i → past i = []

variable {environment program rely agrees fair moves post inv first}

/-- The accesses after one step of a pool. -/
def nextPast (past : ℕ → List (Access ℓ σ)) (choice : Choice ι κ)
    (event : PoolEvent ι κ ℓ σ) (i : ℕ) : List (Access ℓ σ) :=
  match choice with
  | .act position =>
      if position = i then event.access?.toList.map (·.2) ++ past i else past i
  | _ => past i

/-- The accesses of a schedule are fair if and only if those of its first step are and
the rest are fair after it. -/
lemma fairAccesses_cons {past : ℕ → List (Access ℓ σ)} {choice : Choice ι κ}
    {choices : List (Choice ι κ)} {event : PoolEvent ι κ ℓ σ}
    {events : List (PoolEvent ι κ ℓ σ)} :
    (∀ i, FairAccesses fair (past i) (accessesAt i (choice :: choices) (event :: events))) ↔
      (∀ position, choice = .act position → ∀ name access, event.access? = some (name, access) →
        fair name (past position) access) ∧
      ∀ i, FairAccesses fair (nextPast past choice event i) (accessesAt i choices events) := by
  cases choice with
  | env move => simp [accessesAt, nextPast]
  | spawn name => simp [accessesAt, nextPast]
  | act position =>
      have hsplit (i : ℕ) :
          FairAccesses fair (past i) (accessesAt i (.act position :: choices) (event :: events)) ↔
            (position = i → ∀ name access, event.access? = some (name, access) →
              fair name (past i) access) ∧
            FairAccesses fair (nextPast past (.act position : Choice ι κ) event i)
              (accessesAt i choices events) := by
        by_cases hposition : position = i
        · subst hposition
          cases haccess : event.access? with
          | none => simp [accessesAt, nextPast, haccess]
          | some made =>
              obtain ⟨name, access⟩ := made
              simp [accessesAt, nextPast, haccess, FairAccesses]
        · simp [accessesAt, nextPast, hposition]
      rw [forall_congr' hsplit, forall_and]
      refine and_congr_left' ⟨fun h i hchoice => ?_, fun h i hposition => ?_⟩
      · obtain rfl := Choice.act.inj hchoice
        exact h position rfl
      · exact h i (congrArg Choice.act hposition)

lemma split_at_position {items : List τ} {i : ℕ} {item : τ} (h : items[i]? = some item) :
    ∃ front back, items = front ++ item :: back ∧ front.length = i ∧
      ∀ other, items.set i other = front ++ other :: back := by
  obtain ⟨hi, rfl⟩ := List.getElem?_eq_some_iff.mp h
  refine ⟨items.take i, items.drop (i + 1), ?_, by rw [List.length_take]; omega, fun other => ?_⟩
  · rw [List.getElem_cons_drop, List.take_append_drop]
  · rw [List.set_eq_take_append_cons_drop, if_pos hi]

/-- One step whose access is fair is a move, and keeps the invariant with some tokens. -/
theorem Pool.step_tokens
    (hpool : TokenPool environment program rely agrees fair moves post inv first)
    {pool : Pool ι ℓ σ ε α} {tokens : List τ} {past : ℕ → List (Access ℓ σ)}
    (h : TokenInvariant rely agrees fair moves post inv pool tokens past) (choice : Choice ι κ)
    (hfair : ∀ position, choice = .act position → ∀ name access,
      (pool.step environment program choice).1.access? = some (name, access) →
        fair name (past position) access) :
    (∀ position, choice = .act position → ∀ name access,
      (pool.step environment program choice).1.access? = some (name, access) →
        ∃ token token', moves name (past position) access token token') ∧
    ∃ tokens', TokenInvariant rely agrees fair moves post inv
      (pool.step environment program choice).2 tokens'
      (nextPast past choice (pool.step environment program choice).1) := by
  cases choice with
  | env move =>
      obtain ⟨hrely, hinv⟩ := hpool.env_keeps move _ _ h.invariant
      refine ⟨nofun, tokens, hinv, h.length, fun i name p hthread => ?_, h.unborn⟩
      obtain ⟨token, htoken, hholds⟩ := h.holds i name p hthread
      exact ⟨token, htoken, hholds.interfere hpool.trans hrely⟩
  | spawn name =>
      refine ⟨nofun, tokens ++ [first name], hpool.spawn_keeps name _ _ h.invariant,
        by simp [Pool.step, h.length], fun i other p hthread => ?_, fun i hi => ?_⟩
      · simp only [Pool.step] at hthread
        rcases Nat.lt_or_ge i pool.threads.length with hlt | hge
        · rw [List.getElem?_append_left hlt] at hthread
          obtain ⟨token, htoken, hholds⟩ := h.holds i other p hthread
          exact ⟨token, by rw [List.getElem?_append_left (h.length ▸ hlt), htoken], hholds⟩
        · rw [List.getElem?_append_right hge] at hthread
          have hzero : i - pool.threads.length = 0 := by
            by_contra hne
            rw [List.getElem?_eq_none (by simp; omega)] at hthread
            cases hthread
          rw [hzero] at hthread
          cases hthread
          refine ⟨first name, ?_, ?_⟩
          · rw [List.getElem?_append_right (h.length ▸ hge), h.length, hzero]
            rfl
          · have hpast : nextPast past (.spawn name)
                (pool.step environment program (.spawn name)).1 i = [] := h.unborn i hge
            rw [hpast]
            exact hpool.program_holds name _ _ h.invariant
      · refine h.unborn i ?_
        simp only [Pool.step, List.length_append, List.length_singleton] at hi
        omega
  | act position =>
      cases hthread : pool.threads[position]? with
      | none =>
          refine ⟨fun _ _ name access haccess => ?_, tokens, ?_⟩
          · simp [Pool.step, hthread, PoolEvent.access?] at haccess
          have hpast : nextPast past (Choice.act position : Choice ι κ)
              (pool.step environment program (.act position)).1 = past := by
            funext i
            simp [nextPast, Pool.step, hthread, PoolEvent.access?]
          rw [hpast]
          simpa only [Pool.step, hthread] using h
      | some thread =>
          obtain ⟨name, p⟩ := thread
          cases p with
          | done result =>
              refine ⟨fun _ _ name access haccess => ?_, tokens, ?_⟩
              · simp [Pool.step, hthread, PoolEvent.access?] at haccess
              have hpast : nextPast past (Choice.act position : Choice ι κ)
                  (pool.step environment program (.act position)).1 = past := by
                funext i
                simp [nextPast, Pool.step, hthread, PoolEvent.access?]
              rw [hpast]
              simpa only [Pool.step, hthread] using h
          | act label effect next =>
              obtain ⟨token, htoken, hholds⟩ := h.holds position name _ hthread
              have hevent : (pool.step environment program (.act position)).1.access? =
                  some (name, ⟨label, pool.shared, effect pool.shared⟩) := by
                simp [Pool.step, hthread, PoolEvent.access?]
              obtain ⟨front, back, hsplit, hfront, hset⟩ := split_at_position htoken
              have hinv := h.invariant
              rw [hsplit] at hinv
              obtain ⟨token', hmoves, hnext⟩ := hholds _ (hpool.refl _)
                (hpool.own _ _ _ _ hinv) (hfair position rfl name _ hevent)
              obtain ⟨hrely, hinv'⟩ := hpool.move_keeps _ _ _ _ _ _ _ hinv hmoves
              refine ⟨?_, ?_⟩
              · rintro _ ⟨⟩ other access haccess
                rw [hevent] at haccess
                cases haccess
                exact ⟨token, token', hmoves⟩
              have hlt : position < pool.threads.length :=
                (List.getElem?_eq_some_iff.mp hthread).1
              refine ⟨tokens.set position token', ?_, ?_, fun i other p hother => ?_,
                fun i hi => ?_⟩
              · rw [hset]
                simpa only [Pool.step, hthread] using hinv'
              · simp [Pool.step, hthread, h.length]
              · simp only [Pool.step, hthread] at hother ⊢
                by_cases hi : position = i
                · subst hi
                  rw [List.getElem?_set_self hlt] at hother
                  cases hother
                  refine ⟨token', List.getElem?_set_self (h.length ▸ hlt), ?_⟩
                  simpa [nextPast, PoolEvent.access?] using hnext
                · rw [List.getElem?_set_ne hi] at hother
                  obtain ⟨token₂, htoken₂, hholds₂⟩ := h.holds i other p hother
                  refine ⟨token₂, by rw [List.getElem?_set_ne hi, htoken₂], ?_⟩
                  simpa [nextPast, hi] using hholds₂.interfere hpool.trans hrely
              · simp only [Pool.step, hthread, List.length_set] at hi
                simpa [nextPast, show position ≠ i by omega] using h.unborn i hi

/-- The accesses of a program after a schedule, latest first. -/
def pastAfter (past : ℕ → List (Access ℓ σ)) (choices : List (Choice ι κ))
    (events : List (PoolEvent ι κ ℓ σ)) (i : ℕ) : List (Access ℓ σ) :=
  ((accessesAt i choices events).map (·.2)).reverse ++ past i

lemma pastAfter_cons (past : ℕ → List (Access ℓ σ)) (choice : Choice ι κ)
    (choices : List (Choice ι κ)) (event : PoolEvent ι κ ℓ σ) (events : List (PoolEvent ι κ ℓ σ)) :
    pastAfter past (choice :: choices) (event :: events) =
      pastAfter (nextPast past choice event) choices events := by
  funext i
  cases choice with
  | env move => rfl
  | spawn name => rfl
  | act position =>
      simp only [pastAfter, accessesAt, nextPast]
      split_ifs with h
      · cases event.access? <;> simp
      · rfl

/-- Over a schedule in which all accesses are fair, the invariant holds, with some
tokens, before and after every event, every access is a move, and the programs in flight
at the end hold what they held. -/
theorem Pool.play_tokens
    (hpool : TokenPool environment program rely agrees fair moves post inv first)
    {pool : Pool ι ℓ σ ε α} {tokens : List τ} {past : ℕ → List (Access ℓ σ)}
    (h : TokenInvariant rely agrees fair moves post inv pool tokens past)
    (choices : List (Choice ι κ))
    (hfair : ∀ i, FairAccesses fair (past i)
      (accessesAt i choices (pool.play environment program choices).1)) :
    (∀ event ∈ (pool.play environment program choices).1,
      (∃ tokens, inv event.before tokens) ∧ ∃ tokens, inv event.after tokens) ∧
    (∀ i, FairAccesses (fun name past access => ∃ token token', moves name past access token token')
      (past i) (accessesAt i choices (pool.play environment program choices).1)) ∧
    ∃ tokens', TokenInvariant rely agrees fair moves post inv
      (pool.play environment program choices).2 tokens'
      (pastAfter past choices (pool.play environment program choices).1) := by
  induction choices generalizing pool tokens past with
  | nil => exact ⟨by simp [Pool.play], fun i => trivial, tokens, h⟩
  | cons choice choices ih =>
      obtain ⟨hfirst, hrest⟩ := fairAccesses_cons.mp hfair
      obtain ⟨hmoves, tokens', hnext⟩ := Pool.step_tokens hpool h choice hfirst
      obtain ⟨hbefore, hafter⟩ := pool.step_shared environment program choice
      obtain ⟨hevents, haccesses, hlast⟩ := ih hnext hrest
      refine ⟨fun event hevent => ?_, fairAccesses_cons.mpr ⟨hmoves, haccesses⟩, ?_⟩
      · simp only [Pool.play, List.mem_cons] at hevent
        rcases hevent with rfl | hevent
        · exact ⟨⟨tokens, by rw [hbefore]; exact h.invariant⟩, tokens',
            by rw [hafter]; exact hnext.invariant⟩
        · exact hevents event hevent
      · simp only [Pool.play]
        rw [pastAfter_cons]
        exact hlast

/-- A pool in which nothing is in flight yet. -/
theorem TokenInvariant.start {s : σ} (h : inv s []) :
    TokenInvariant rely agrees fair moves post inv (⟨s, []⟩ : Pool ι ℓ σ ε α) [] fun _ => [] :=
  ⟨h, rfl, by simp, fun _ _ => rfl⟩

end Pools

end Imece.Lib
