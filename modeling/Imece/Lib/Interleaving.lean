import Imece.Lib.Machine
import Imece.Lib.Transaction
import Mathlib.Data.List.Chain

/-!
# Programs over a shared state, and their interleavings

A program is a sequence of atomic accesses to a shared state, each of which may
look at the state it meets and carries a label that says what it asks for.
Between two accesses other parties may change the state. A program is safe when
each of its accesses meets its guarantee under any interference the rely relation
allows; in a pool of safe programs whose guarantees are interference the others
allow, every access of every run meets its guarantee.
-/
namespace Imece.Lib

/-- Atomic accesses to a state `σ`, ending in a result or an exception. -/
inductive Prog (ℓ σ ε α : Type) where
  | done (result : Except ε α)
  | act (label : ℓ) (effect : σ → σ) (next : σ → Prog ℓ σ ε α)

namespace Prog

variable {ℓ σ ε α β : Type}

def bind : Prog ℓ σ ε α → (α → Prog ℓ σ ε β) → Prog ℓ σ ε β
  | done (.ok a), f => f a
  | done (.error e), _ => done (.error e)
  | act label effect next, f => act label effect fun s => bind (next s) f

instance : Monad (Prog ℓ σ ε) where
  pure a := done (.ok a)
  bind := bind

theorem bind_pure' (p : Prog ℓ σ ε α) : p.bind (fun a => done (.ok a)) = p := by
  induction p with
  | done result => cases result <;> rfl
  | act label effect next ih => exact congrArg _ (funext ih)

theorem bind_assoc' {γ : Type} (p : Prog ℓ σ ε α) (f : α → Prog ℓ σ ε β)
    (g : β → Prog ℓ σ ε γ) : (p.bind f).bind g = p.bind fun a => (f a).bind g := by
  induction p with
  | done result => cases result <;> rfl
  | act label effect next ih => exact congrArg _ (funext ih)

instance : LawfulMonad (Prog ℓ σ ε) :=
  LawfulMonad.mk' _ bind_pure' (fun _ _ => rfl) bind_assoc'

/-- One call of the shared object, as a single access. -/
def call (label : ℓ) (body : EStateM ε σ α) : Prog ℓ σ ε α :=
  act label (after body) fun s => done (result body s)

/-- An access that leaves the state as it is. -/
def look (label : ℓ) (read : σ → Except ε α) : Prog ℓ σ ε α :=
  act label id fun s => done (read s)

/-- A pure check between two accesses. -/
def check (result : Except ε α) : Prog ℓ σ ε α := done result

def throw (e : ε) : Prog ℓ σ ε α := done (.error e)

/-- `try` without a handler: an exception of the body becomes a value. -/
def attempt : Prog ℓ σ ε α → Prog ℓ σ ε (Except ε α)
  | done result => done (.ok result)
  | act label effect next => act label effect fun s => attempt (next s)

/-- Every access meets the guarantee, whatever the rely relation does to the
state in between, and the result meets `post`. -/
def Safe (rely : σ → σ → Prop) (guar : ℓ → σ → σ → Prop) (post : Except ε α → σ → Prop) :
    Prog ℓ σ ε α → σ → Prop
  | done result, s => ∀ t, rely s t → post result t
  | act label effect next, s => ∀ t, rely s t →
      guar label t (effect t) ∧ Safe rely guar post (next t) (effect t)

section Rules

variable {rely : σ → σ → Prop} {G : ℓ → σ → σ → Prop} {Q : Except ε α → σ → Prop}
  {R : Except ε β → σ → Prop}

/-- Interference that has already happened is interference still allowed. -/
theorem Safe.interfere (htrans : ∀ a b c, rely a b → rely b c → rely a c) {p : Prog ℓ σ ε α}
    {s t : σ} (h : Safe rely G Q p s) (hst : rely s t) : Safe rely G Q p t := by
  cases p with
  | done result => exact fun u hu => h u (htrans s t u hst hu)
  | act label effect next => exact fun u hu => h u (htrans s t u hst hu)

theorem Safe.weaken {Q₂ : Except ε α → σ → Prop} {p : Prog ℓ σ ε α} {s : σ}
    (h : Safe rely G Q p s) (hpost : ∀ r t, Q r t → Q₂ r t) :
    Safe rely G Q₂ p s := by
  induction p generalizing s with
  | done result => exact fun t ht => hpost result t (h t ht)
  | act label effect next ih => exact fun t ht => ⟨(h t ht).1, ih t (h t ht).2⟩

/-- A guarantee may be widened. -/
theorem Safe.widen {G₂ : ℓ → σ → σ → Prop} {p : Prog ℓ σ ε α} {s : σ}
    (h : Safe rely G Q p s) (hguar : ∀ label a b, G label a b → G₂ label a b) :
    Safe rely G₂ Q p s := by
  induction p generalizing s with
  | done result => exact h
  | act label effect next ih =>
      exact fun t ht => ⟨hguar label t _ (h t ht).1, ih t (h t ht).2⟩

/-- A program that is safe is safe among less interference. -/
theorem Safe.narrow {rely₂ : σ → σ → Prop} {p : Prog ℓ σ ε α} {s : σ} (h : Safe rely G Q p s)
    (hrely : ∀ a b, rely₂ a b → rely a b) : Safe rely₂ G Q p s := by
  induction p generalizing s with
  | done result => exact fun t ht => h t (hrely s t ht)
  | act label effect next ih =>
      intro t ht
      obtain ⟨hact, hnext⟩ := h t (hrely s t ht)
      exact ⟨hact, ih t hnext⟩

/-- A guarantee that every access meets asks nothing of a program. -/
theorem Safe.of_guar (hguar : ∀ label a b, G label a b) (p : Prog ℓ σ ε α) (s : σ) :
    Safe rely G (fun _ _ => True) p s := by
  induction p generalizing s with
  | done result => exact fun _ _ => trivial
  | act label effect next ih => exact fun t _ => ⟨hguar label t _, ih t _⟩

/-- Two guarantees of one program hold together. -/
theorem Safe.and {G₂ : ℓ → σ → σ → Prop} {Q₂ : Except ε α → σ → Prop}
    {p : Prog ℓ σ ε α} {s : σ} (h : Safe rely G Q p s) (h₂ : Safe rely G₂ Q₂ p s) :
    Safe rely (fun label a b => G label a b ∧ G₂ label a b)
      (fun r t => Q r t ∧ Q₂ r t) p s := by
  induction p generalizing s with
  | done result => exact fun t ht => ⟨h t ht, h₂ t ht⟩
  | act label effect next ih =>
      exact fun t ht => ⟨⟨(h t ht).1, (h₂ t ht).1⟩, ih t (h t ht).2 (h₂ t ht).2⟩

/-- The state in which a program ends is reached by interference from its start. -/
theorem Safe.reached (htrans : ∀ a b c, rely a b → rely b c → rely a c)
    (hguar : ∀ label a b, G label a b → rely a b) {p : Prog ℓ σ ε α} {s : σ}
    (h : Safe rely G Q p s) :
    Safe rely G (fun r t => Q r t ∧ rely s t) p s := by
  induction p generalizing s with
  | done result => exact fun t ht => ⟨h t ht, ht⟩
  | act label effect next ih =>
      intro t ht
      obtain ⟨hact, hnext⟩ := h t ht
      refine ⟨hact, (ih t hnext).weaken fun r u hu => ⟨hu.1, ?_⟩⟩
      exact htrans s t u ht (htrans t (effect t) u (hguar label t _ hact) hu.2)

theorem Safe.bind (hrefl : ∀ a, rely a a) {p : Prog ℓ σ ε α} {f : α → Prog ℓ σ ε β} {s : σ}
    (hp : Safe rely G Q p s)
    (hok : ∀ a t, Q (.ok a) t → Safe rely G R (f a) t)
    (herror : ∀ e t, Q (.error e) t → R (.error e) t) :
    Safe rely G R (p >>= f) s := by
  induction p generalizing s with
  | done result =>
      cases result with
      | ok a => exact hok a s (hp s (hrefl s))
      | error e => exact fun t ht => herror e t (hp t ht)
  | act label effect next ih => exact fun t ht => ⟨(hp t ht).1, ih t (hp t ht).2⟩

/-- One call followed by the rest of the program. -/
theorem Safe.call_bind {label : ℓ} {body : EStateM ε σ α} {f : α → Prog ℓ σ ε β} {s : σ}
    (hguar : ∀ t, rely s t → G label t (after body t))
    (hok : ∀ t a, rely s t → result body t = .ok a →
      Safe rely G R (f a) (after body t))
    (herror : ∀ t e u, rely s t → result body t = .error e → rely (after body t) u →
      R (.error e) u) :
    Safe rely G R (call label body >>= f) s := by
  intro t ht
  refine ⟨hguar t ht, ?_⟩
  cases hresult : result body t with
  | ok a =>
      simpa only [hresult, Prog.bind] using hok t a ht hresult
  | error e =>
      simp only [hresult, Prog.bind]
      exact fun u hu => herror t e u ht hresult hu

theorem Safe.call {label : ℓ} {body : EStateM ε σ α} {s : σ}
    (hguar : ∀ t, rely s t → G label t (after body t))
    (hpost : ∀ t u, rely s t → rely (after body t) u → Q (result body t) u) :
    Safe rely G Q (Prog.call label body) s :=
  fun t ht => ⟨hguar t ht, fun u hu => hpost t u ht hu⟩

theorem Safe.look_bind {label : ℓ} {read : σ → Except ε α} {f : α → Prog ℓ σ ε β} {s : σ}
    (hguar : ∀ t, G label t t)
    (hok : ∀ t a, rely s t → read t = .ok a → Safe rely G R (f a) t)
    (herror : ∀ t e u, rely s t → read t = .error e → rely t u → R (.error e) u) :
    Safe rely G R (look label read >>= f) s := by
  intro t ht
  refine ⟨hguar t, ?_⟩
  show Safe rely G R ((done (read t) : Prog ℓ σ ε α).bind f) t
  cases hread : read t with
  | ok a => exact hok t a ht hread
  | error e => exact fun u hu => herror t e u ht hread hu

/-- After an attempt the program goes on with the outcome, whichever it is. -/
theorem Safe.attempt_bind (hrefl : ∀ a, rely a a) {p : Prog ℓ σ ε α}
    {f : Except ε α → Prog ℓ σ ε β} {s : σ} (hp : Safe rely G Q p s)
    (hf : ∀ result t, Q result t → Safe rely G R (f result) t) :
    Safe rely G R (p.attempt >>= f) s := by
  induction p generalizing s with
  | done result => exact hf result s (hp s (hrefl s))
  | act label effect next ih => exact fun t ht => ⟨(hp t ht).1, ih t (hp t ht).2⟩

theorem Safe.check_bind {result : Except ε α} {f : α → Prog ℓ σ ε β} {s : σ}
    (hok : ∀ a, result = .ok a → Safe rely G R (f a) s)
    (herror : ∀ e t, result = .error e → rely s t → R (.error e) t) :
    Safe rely G R (check result >>= f) s := by
  cases result with
  | ok a => exact hok a rfl
  | error e => exact fun t ht => herror e t rfl ht

/-- Every access leaves the state as it is. -/
def ReadOnly : Prog ℓ σ ε α → Prop
  | done _ => True
  | act _ effect next => ∀ s, effect s = s ∧ ReadOnly (next s)

theorem ReadOnly.call {label : ℓ} {body : EStateM ε σ α} (h : ∀ s, after body s = s) :
    (Prog.call label body).ReadOnly :=
  fun s => ⟨h s, trivial⟩

theorem ReadOnly.look (label : ℓ) (read : σ → Except ε α) :
    (Prog.look label read).ReadOnly :=
  fun _ => ⟨rfl, trivial⟩

theorem ReadOnly.bind {p : Prog ℓ σ ε α} {f : α → Prog ℓ σ ε β} (hp : p.ReadOnly)
    (hf : ∀ a, (f a).ReadOnly) : (p >>= f).ReadOnly := by
  induction p with
  | done result =>
      cases result with
      | ok a => exact hf a
      | error e => trivial
  | act label effect next ih => exact fun s => ⟨(hp s).1, ih s (hp s).2⟩

/-- A program that only reads is safe whatever happens around it. -/
theorem ReadOnly.safe (htrans : ∀ a b c, rely a b → rely b c → rely a c)
    (hguar : ∀ label a, G label a a) {p : Prog ℓ σ ε α} (hp : p.ReadOnly) (s : σ) :
    Safe rely G (fun _ t => rely s t) p s := by
  induction p generalizing s with
  | done result => exact fun t ht => ht
  | act label effect next ih =>
      intro t ht
      obtain ⟨hsame, hnext⟩ := hp t
      rw [hsame]
      exact ⟨hguar label t, (ih t hnext t).weaken fun _ u hu => htrans s t u ht hu⟩

end Rules

section Alone

/-- A program that runs with nothing in between. -/
def alone : Prog ℓ σ ε α → σ → Except ε α × σ
  | done result, s => (result, s)
  | act _ effect next, s => alone (next s) (effect s)

theorem alone_bind (p : Prog ℓ σ ε α) (f : α → Prog ℓ σ ε β) (s : σ) :
    (p >>= f).alone s =
      match p.alone s with
      | (.ok a, t) => (f a).alone t
      | (.error e, t) => (.error e, t) := by
  induction p generalizing s with
  | done result => cases result <;> rfl
  | act label effect next ih => exact ih s (effect s)

theorem alone_call (label : ℓ) (body : EStateM ε σ α) (s : σ) :
    (Prog.call label body).alone s = (result body s, after body s) :=
  rfl

variable {rely : σ → σ → Prop} {G : ℓ → σ → σ → Prop} {Q : Except ε α → σ → Prop}

/-- What a safe program returns when nothing interferes. -/
theorem Safe.alone (hrefl : ∀ a, rely a a) {p : Prog ℓ σ ε α} {s : σ}
    (h : Safe rely G Q p s) : Q (p.alone s).1 (p.alone s).2 := by
  induction p generalizing s with
  | done result => exact h s (hrefl s)
  | act label effect next ih => exact ih s (h s (hrefl s)).2

/-- A program whose accesses change nothing leaves the state as it was. -/
theorem Safe.alone_same (hrefl : ∀ a, rely a a) (hguar : ∀ label a b, G label a b → b = a)
    {p : Prog ℓ σ ε α} {s : σ} (h : Safe rely G Q p s) : (p.alone s).2 = s := by
  induction p generalizing s with
  | done result => rfl
  | act label effect next ih =>
      have hact := h s (hrefl s)
      exact (ih s hact.2).trans (hguar label s _ hact.1)

end Alone

section Among

variable {κ : Type} {step : σ → κ → σ}

/-- A program among the moves of others: before each of its accesses come the moves of the
next list. It is unfinished where the lists end. -/
def among (step : σ → κ → σ) : Prog ℓ σ ε α → List (List κ) → σ → Option (Except ε α) × σ
  | done result, _, s => (some result, s)
  | act _ _ _, [], s => (none, s)
  | act _ effect next, moves :: rest, s =>
      among step (next (Machine.run step s moves)) rest (effect (Machine.run step s moves))

/-- What a safe program returns among moves that it is safe against. -/
theorem Safe.among {rely : σ → σ → Prop} {G : ℓ → σ → σ → Prop} {Q : Except ε α → σ → Prop}
    (hmoves : ∀ s moves, rely s (Machine.run step s moves)) {p : Prog ℓ σ ε α} {s : σ}
    (h : Safe rely G Q p s) (schedule : List (List κ)) :
    ∀ result, (p.among step schedule s).1 = some result →
      Q result (p.among step schedule s).2 := by
  induction p generalizing s schedule with
  | done result =>
      intro found hfound
      cases hfound
      exact h s (hmoves s [])
  | act label effect next ih =>
      cases schedule with
      | nil => exact nofun
      | cons moves rest => exact ih _ (h _ (hmoves s moves)).2 rest

/-- Who only reads leaves the state to the others. -/
theorem ReadOnly.among {p : Prog ℓ σ ε α} (hp : p.ReadOnly) (schedule : List (List κ)) (s : σ) :
    ∃ moves, (p.among step schedule s).2 = Machine.run step s moves := by
  induction p generalizing s schedule with
  | done result => exact ⟨[], rfl⟩
  | act label effect next ih =>
      cases schedule with
      | nil => exact ⟨[], rfl⟩
      | cons moves rest =>
          obtain ⟨hsame, hnext⟩ := hp (Machine.run step s moves)
          obtain ⟨more, hmore⟩ := ih _ hnext rest (effect (Machine.run step s moves))
          refine ⟨moves ++ more, ?_⟩
          rw [Machine.run_append]
          exact hmore.trans (congrArg (Machine.run step · more) hsame)

/-- The program makes at most so many accesses. -/
def Within : ℕ → Prog ℓ σ ε α → Prop
  | _, done _ => True
  | 0, act _ _ _ => False
  | bound + 1, act _ _ next => ∀ s, Within bound (next s)

/-- One call, and then at most `bound` accesses. -/
theorem Within.call_bind {bound : ℕ} {label : ℓ} {body : EStateM ε σ α}
    {f : α → Prog ℓ σ ε β} (h : ∀ a, (f a).Within bound) :
    (call label body >>= f).Within (bound + 1) := by
  intro s
  show Within bound ((done (result body s) : Prog ℓ σ ε α).bind f)
  cases result body s with
  | ok a => exact h a
  | error e => cases bound <;> trivial

/-- A program of at most `bound` accesses has ended after as many lists of moves. -/
theorem Within.finishes {bound : ℕ} {p : Prog ℓ σ ε α} (h : p.Within bound)
    {schedule : List (List κ)} (hlength : bound ≤ schedule.length) (s : σ) :
    ∃ result, (p.among step schedule s).1 = some result := by
  induction p generalizing bound schedule s with
  | done result => exact ⟨result, rfl⟩
  | act label effect next ih =>
      cases bound with
      | zero => exact h.elim
      | succ bound =>
          cases schedule with
          | nil => simp at hlength
          | cons moves rest =>
              exact ih _ (h _) (by simpa using hlength) _

/-- A run of a program that looks first: it stops there, or goes on with what it has seen. -/
theorem among_look_bind {β : Type} {label : ℓ} {read : σ → Except ε α} {f : α → Prog ℓ σ ε β}
    {schedule : List (List κ)} {s : σ} {Q : Option (Except ε β) × σ → Prop}
    (hstop : ∀ moves result, (∀ b, result ≠ some (.ok b)) → Q (result, Machine.run step s moves))
    (hgo : ∀ moves a rest, read (Machine.run step s moves) = .ok a →
      Q ((f a).among step rest (Machine.run step s moves))) :
    Q ((look label read >>= f).among step schedule s) := by
  cases schedule with
  | nil => exact hstop [] none nofun
  | cons moves rest =>
      show Q (Prog.among step ((done (read (Machine.run step s moves)) : Prog ℓ σ ε α).bind f) rest
        (Machine.run step s moves))
      cases hread : read (Machine.run step s moves) with
      | ok a => exact hgo moves a rest hread
      | error e => exact hstop moves (some (.error e)) nofun

end Among

end Prog

section Pools

variable {ι κ ℓ σ ε α : Type}

/-- A shared state and the programs in flight over it, each under its name. -/
structure Pool (ι ℓ σ ε α : Type) where
  shared : σ
  threads : List (ι × Prog ℓ σ ε α)

/-- What happens next: the environment moves, a program starts, or the program
at a position makes its next access. -/
inductive Choice (ι κ : Type) where
  | env (move : κ)
  | spawn (name : ι)
  | act (position : ℕ)

/-- Why a state changed: a move of the environment, an access of a program that
asked for something, or nothing at all. -/
inductive Cause (ι κ ℓ : Type) where
  | env (move : κ)
  | access (name : ι) (label : ℓ)
  | idle

/-- What one step of a pool did to the shared state, and why. -/
structure PoolEvent (ι κ ℓ σ : Type) where
  cause : Cause ι κ ℓ
  before : σ
  after : σ

variable (environment : κ → σ → σ) (program : ι → Prog ℓ σ ε α)

/-- One step. A finished program has no next access. -/
def Pool.step (pool : Pool ι ℓ σ ε α) : Choice ι κ → PoolEvent ι κ ℓ σ × Pool ι ℓ σ ε α
  | .env move =>
      let next := environment move pool.shared
      (⟨.env move, pool.shared, next⟩, ⟨next, pool.threads⟩)
  | .spawn name =>
      (⟨.idle, pool.shared, pool.shared⟩,
        ⟨pool.shared, pool.threads ++ [(name, program name)]⟩)
  | .act position =>
      match pool.threads[position]? with
      | some (name, .act label effect next) =>
          (⟨.access name label, pool.shared, effect pool.shared⟩,
            ⟨effect pool.shared, pool.threads.set position (name, next pool.shared)⟩)
      | _ => (⟨.idle, pool.shared, pool.shared⟩, pool)

/-- The events of a whole schedule, and the pool it ends in. -/
def Pool.play (pool : Pool ι ℓ σ ε α) :
    List (Choice ι κ) → List (PoolEvent ι κ ℓ σ) × Pool ι ℓ σ ε α
  | [] => ([], pool)
  | choice :: choices =>
      let (event, next) := pool.step environment program choice
      let (events, last) := next.play choices
      (event :: events, last)

variable {environment program}

theorem Pool.step_shared (environment : κ → σ → σ) (program : ι → Prog ℓ σ ε α) (pool : Pool ι ℓ σ ε α) (choice : Choice ι κ) :
    (pool.step environment program choice).1.before = pool.shared ∧
      (pool.step environment program choice).1.after =
        (pool.step environment program choice).2.shared := by
  cases choice with
  | env move => exact ⟨rfl, rfl⟩
  | spawn name => exact ⟨rfl, rfl⟩
  | act position =>
      simp only [Pool.step]
      split <;> exact ⟨rfl, rfl⟩

lemma Pool.play_head (pool : Pool ι ℓ σ ε α) (choices : List (Choice ι κ)) :
    ∀ event ∈ (pool.play environment program choices).1.head?, event.before = pool.shared := by
  cases choices with
  | nil => simp [Pool.play]
  | cons choice choices =>
      intro event hevent
      simp only [Pool.play, List.head?_cons, Option.mem_def, Option.some.injEq] at hevent
      rw [← hevent]
      exact (pool.step_shared environment program choice).1

/-- The state after one event is the state before the next one. -/
theorem Pool.play_chain (environment : κ → σ → σ) (program : ι → Prog ℓ σ ε α) (pool : Pool ι ℓ σ ε α) (choices : List (Choice ι κ)) :
    (pool.play environment program choices).1.IsChain (fun a b => a.after = b.before) := by
  induction choices generalizing pool with
  | nil => exact List.isChain_nil
  | cons choice choices ih =>
      simp only [Pool.play]
      rw [List.isChain_cons]
      refine ⟨fun event hevent => ?_, ih _⟩
      rw [Pool.play_head _ choices event hevent]
      exact (pool.step_shared environment program choice).2

/-- What the steps of a trace preserve holds throughout the trace. -/
theorem trace_invariant {I : σ → Prop} {trace : List (PoolEvent ι κ ℓ σ)}
    (hchain : trace.IsChain (fun a b => a.after = b.before))
    (hfirst : ∀ event ∈ trace.head?, I event.before)
    (hstep : ∀ event ∈ trace, I event.before → I event.after) :
    ∀ event ∈ trace, I event.before ∧ I event.after := by
  induction trace with
  | nil => simp
  | cons first rest ih =>
      have hbefore := hfirst first (by simp)
      have hafter := hstep first (by simp) hbefore
      rw [List.isChain_cons] at hchain
      have hrest := ih hchain.2 (fun event hevent => hchain.1 event hevent ▸ hafter)
        (fun event hevent => hstep event (List.mem_cons_of_mem _ hevent))
      intro event hevent
      rcases List.mem_cons.mp hevent with rfl | hevent
      · exact ⟨hbefore, hafter⟩
      · exact hrest event hevent

variable {rely : σ → σ → Prop} {guar : ι → ℓ → σ → σ → Prop} {inv : σ → Prop}
  {post : Except ε α → σ → Prop}

/-- What a pool of safe programs is built from: interference composes, keeps the
invariant, and covers the environment and every program's guarantee; and every
program is safe from any state of the invariant. -/
structure SafePool (environment : κ → σ → σ) (program : ι → Prog ℓ σ ε α)
    (rely : σ → σ → Prop) (guar : ι → ℓ → σ → σ → Prop) (inv : σ → Prop)
    (post : Except ε α → σ → Prop) : Prop where
  refl : ∀ s, rely s s
  trans : ∀ s t u, rely s t → rely t u → rely s u
  keeps : ∀ s t, inv s → rely s t → inv t
  env_rely : ∀ move s, inv s → rely s (environment move s)
  guar_rely : ∀ name label s t, guar name label s t → rely s t
  safe : ∀ name s, inv s → (program name).Safe rely (guar name) post s

/-- What holds at every point of a run of a safe pool. -/
structure PoolInvariant (rely : σ → σ → Prop) (guar : ι → ℓ → σ → σ → Prop) (inv : σ → Prop)
    (post : Except ε α → σ → Prop) (pool : Pool ι ℓ σ ε α) : Prop where
  inv : inv pool.shared
  safe : ∀ thread ∈ pool.threads, thread.2.Safe rely (guar thread.1) post pool.shared

/-- A pool in which nothing is in flight yet. -/
theorem PoolInvariant.start {s : σ} (h : inv s) :
    PoolInvariant rely guar inv post (⟨s, []⟩ : Pool ι ℓ σ ε α) :=
  ⟨h, by simp⟩

/-- What one event of a safe pool satisfies. -/
structure EventOk (environment : κ → σ → σ) (rely : σ → σ → Prop)
    (guar : ι → ℓ → σ → σ → Prop) (inv : σ → Prop) (event : PoolEvent ι κ ℓ σ) : Prop where
  inv : inv event.before
  rely : rely event.before event.after
  env : ∀ move, event.cause = .env move → event.after = environment move event.before
  access : ∀ name label, event.cause = .access name label →
    guar name label event.before event.after
  idle : event.cause = .idle → event.after = event.before

theorem Pool.step_safe (hsafe : SafePool environment program rely guar inv post)
    {pool : Pool ι ℓ σ ε α} (hpool : PoolInvariant rely guar inv post pool)
    (choice : Choice ι κ) :
    EventOk environment rely guar inv (pool.step environment program choice).1 ∧
      PoolInvariant rely guar inv post (pool.step environment program choice).2 := by
  cases choice with
  | env move =>
      have hrely := hsafe.env_rely move _ hpool.inv
      refine ⟨⟨hpool.inv, hrely, ?_, by simp [Pool.step], by simp [Pool.step]⟩,
        hsafe.keeps _ _ hpool.inv hrely, ?_⟩
      · rintro other hother
        cases hother
        rfl
      · exact fun thread hthread => (hpool.safe thread hthread).interfere hsafe.trans hrely
  | spawn name =>
      refine ⟨⟨hpool.inv, hsafe.refl _, by simp [Pool.step], by simp [Pool.step], fun _ => rfl⟩,
        hpool.inv, ?_⟩
      intro thread hthread
      rcases List.mem_append.mp hthread with hold | hnew
      · exact hpool.safe thread hold
      · rw [List.mem_singleton.mp hnew]
        exact hsafe.safe name _ hpool.inv
  | act position =>
      simp only [Pool.step]
      split
      · rename_i name label effect next hthread
        obtain ⟨hguar, hnext⟩ := hpool.safe (name, .act label effect next)
          (List.mem_of_getElem? hthread) _ (hsafe.refl _)
        have hrely := hsafe.guar_rely name label _ _ hguar
        refine ⟨⟨hpool.inv, hrely, by simp, ?_, by simp⟩, hsafe.keeps _ _ hpool.inv hrely, ?_⟩
        · rintro other asked hother
          cases hother
          exact hguar
        · intro thread hmem
          rcases List.mem_or_eq_of_mem_set hmem with hold | rfl
          · exact (hpool.safe thread hold).interfere hsafe.trans hrely
          · exact hnext
      · exact ⟨⟨hpool.inv, hsafe.refl _, by simp, by simp, fun _ => rfl⟩, hpool⟩

/-- Every access of every run meets the guarantee of the program that made it,
in a state of the invariant. -/
theorem Pool.play_safe (hsafe : SafePool environment program rely guar inv post)
    {pool : Pool ι ℓ σ ε α} (hpool : PoolInvariant rely guar inv post pool)
    (choices : List (Choice ι κ)) :
    (∀ event ∈ (pool.play environment program choices).1,
      EventOk environment rely guar inv event) ∧
      PoolInvariant rely guar inv post (pool.play environment program choices).2 := by
  induction choices generalizing pool with
  | nil => exact ⟨by simp [Pool.play], hpool⟩
  | cons choice choices ih =>
      obtain ⟨hevent, hnext⟩ := Pool.step_safe hsafe hpool choice
      obtain ⟨hevents, hlast⟩ := ih hnext
      refine ⟨fun event hmem => ?_, hlast⟩
      simp only [Pool.play, List.mem_cons] at hmem
      rcases hmem with rfl | hmem
      · exact hevent
      · exact hevents event hmem

/-- From every point of a run the rest of it is interference. -/
theorem Pool.play_reaches (hsafe : SafePool environment program rely guar inv post)
    {pool : Pool ι ℓ σ ε α} (hpool : PoolInvariant rely guar inv post pool)
    (choices : List (Choice ι κ)) :
    (∀ event ∈ (pool.play environment program choices).1,
      rely event.after (pool.play environment program choices).2.shared) ∧
      rely pool.shared (pool.play environment program choices).2.shared := by
  induction choices generalizing pool with
  | nil => exact ⟨by simp [Pool.play], hsafe.refl _⟩
  | cons choice choices ih =>
      obtain ⟨hevent, hnext⟩ := Pool.step_safe hsafe hpool choice
      obtain ⟨hbefore, hafter⟩ := pool.step_shared environment program choice
      obtain ⟨hevents, hlast⟩ := ih hnext
      have hfirst := hevent.rely
      rw [hbefore, hafter] at hfirst
      refine ⟨fun event hmem => ?_, hsafe.trans _ _ _ hfirst hlast⟩
      simp only [Pool.play, List.mem_cons] at hmem
      rcases hmem with rfl | hmem
      · rw [hafter]
        exact hlast
      · exact hevents event hmem

/-- A step of a safe pool leaves each thread safe for a postcondition of its own. -/
theorem Pool.step_at (hsafe : SafePool environment program rely guar inv post)
    {pool : Pool ι ℓ σ ε α} (hpool : PoolInvariant rely guar inv post pool) (choice : Choice ι κ)
    {own : Except ε α → σ → Prop} {position : ℕ} {name : ι} {p : Prog ℓ σ ε α}
    (hat : pool.threads[position]? = some (name, p))
    (hp : p.Safe rely (guar name) own pool.shared) :
    ∃ rest, (pool.step environment program choice).2.threads[position]? = some (name, rest) ∧
      rest.Safe rely (guar name) own (pool.step environment program choice).2.shared := by
  obtain ⟨hevent, -⟩ := Pool.step_safe hsafe hpool choice
  obtain ⟨hbefore, hafter⟩ := pool.step_shared environment program choice
  have hrely := hevent.rely
  rw [hbefore, hafter] at hrely
  have hstays := hp.interfere hsafe.trans hrely
  have hlength := (List.getElem?_eq_some_iff.mp hat).1
  cases choice with
  | env move => exact ⟨p, hat, hstays⟩
  | spawn started => exact ⟨p, (List.getElem?_append_left hlength).trans hat, hstays⟩
  | act other =>
      by_cases hsame : other = position
      · subst hsame
        cases p with
        | done result =>
            refine ⟨_, ?_, hstays⟩
            simp only [Pool.step, hat]
        | act label effect next =>
            refine ⟨next pool.shared, ?_, ?_⟩
            · simp only [Pool.step, hat]
              exact List.getElem?_set_self hlength
            · simp only [Pool.step, hat]
              exact (hp _ (hsafe.refl _)).2
      · refine ⟨p, ?_, hstays⟩
        rw [← hat]
        simp only [Pool.step]
        split
        · exact List.getElem?_set_ne hsame
        · rfl

/-- A thread of a safe pool keeps a postcondition of its own, whatever the others do. -/
theorem Pool.play_at (hsafe : SafePool environment program rely guar inv post)
    {pool : Pool ι ℓ σ ε α} (hpool : PoolInvariant rely guar inv post pool)
    (choices : List (Choice ι κ)) {own : Except ε α → σ → Prop} {position : ℕ} {name : ι}
    {p : Prog ℓ σ ε α} (hat : pool.threads[position]? = some (name, p))
    (hp : p.Safe rely (guar name) own pool.shared) :
    ∃ rest, (pool.play environment program choices).2.threads[position]? = some (name, rest) ∧
      rest.Safe rely (guar name) own (pool.play environment program choices).2.shared := by
  induction choices generalizing pool p with
  | nil => exact ⟨p, hat, hp⟩
  | cons choice choices ih =>
      obtain ⟨next, hnextAt, hnext⟩ := Pool.step_at hsafe hpool choice hat hp
      exact ih (Pool.step_safe hsafe hpool choice).2 hnextAt hnext

end Pools

end Imece.Lib
