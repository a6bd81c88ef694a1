import Mathlib.Data.List.Basic
import Mathlib.Logic.Relation

/-!
# Decoders fed in pieces

A decoder keeps the input that it has not read. A call appends a piece to it and makes one round
after the other until a round waits for more, or raises. If a round does the same before more
input, the messages do not depend on the pieces.
-/
namespace Imece.Lib

open Relation

/-- What one round does with the input that is kept. -/
inductive Round (α β ε : Type) where
  | wait
  | read (messages : List α) (left : List β)
  | raised (error : ε) (left : List β)

/-- A call that has ended: the input that is kept, and the messages or the exception. -/
structure Fed (α β ε : Type) where
  left : List β
  result : Except ε (List α)

namespace Feeding

variable {α β ε : Type} (round : List β → Round α β ε)

/-- Rounds until one waits or raises; none if there are more of them than `fuel`. -/
@[grind =] def drain : ℕ → List β → Option (Fed α β ε)
  | 0, _ => none
  | fuel + 1, input =>
      match round input with
      | .wait => some ⟨input, .ok []⟩
      | .raised e left => some ⟨left, .error e⟩
      | .read messages left =>
          (drain fuel left).map fun fed => { fed with result := fed.result.map (messages ++ ·) }

/-- The messages of each call, one call for each piece. -/
def feedAll (fuel : ℕ) : List β → List (List β) → Option (Except ε (List (List α)))
  | _, [] => some (.ok [])
  | kept, piece :: rest =>
      match drain round fuel (kept ++ piece) with
      | none => none
      | some ⟨_, .error e⟩ => some (.error e)
      | some ⟨left, .ok messages⟩ => (feedAll fuel left rest).map (·.map (messages :: ·))

/-- A round leads from one input to another. -/
def Step (input left : List β) : Prop := ∃ messages, round input = .read messages left

/-- The input is kept after some rounds. -/
abbrev Reached : List β → List β → Prop := ReflTransGen (Step round)

/-- Where `ok` holds, a round that reads does the same before more input and leaves less. -/
structure Steady (ok : List β → Prop) : Prop where
  ok_front : ∀ input more, ok (input ++ more) → ok input
  append : ∀ input more messages left, ok input → round input = .read messages left →
    round (input ++ more) = .read messages (left ++ more)
  raised_append : ∀ input more e left, ok input → round input = .raised e left →
    ∃ left', round (input ++ more) = .raised e left'
  shorter : ∀ input messages left, ok input → round input = .read messages left →
    left.length < input.length

/-- Whatever the decoder reaches is `ok`, and no round raises. -/
def Readable (ok : List β → Prop) (input : List β) : Prop :=
  ∀ kept, Reached round input kept → ok kept ∧ ∀ e left, round kept ≠ .raised e left

/-- All rounds of the input: their messages, and what is kept at the end. -/
inductive Drains : List β → List α → List β → Prop
  | wait {input : List β} (h : round input = .wait) : Drains input [] input
  | read {input left last : List β} {messages more : List α}
      (h : round input = .read messages left) (hrest : Drains left more last) :
      Drains input (messages ++ more) last

variable {round} {ok : List β → Prop} {input more left : List β} {messages : List α}

lemma Readable.step (h : Readable round ok input) (hround : round input = .read messages left) :
    Readable round ok left :=
  fun kept hkept => h kept (.head ⟨messages, hround⟩ hkept)

lemma Readable.here (h : Readable round ok input) :
    ok input ∧ ∀ e left, round input ≠ .raised e left :=
  h input .refl

/-- What a prefix reaches, the whole reaches before the rest. -/
lemma reached_append (hsteady : Steady round ok) (hinput : Readable round ok (input ++ more))
    {kept : List β} (h : Reached round input kept) : Reached round (input ++ more) (kept ++ more) := by
  induction h with
  | refl => exact .refl
  | tail _ hstep ih =>
      obtain ⟨messages, hround⟩ := hstep
      have hok := hsteady.ok_front _ _ (hinput _ ih).1
      exact ih.tail ⟨messages, hsteady.append _ more _ _ hok hround⟩

lemma Readable.front (hsteady : Steady round ok) (hinput : Readable round ok (input ++ more)) :
    Readable round ok input := by
  intro kept hkept
  obtain ⟨hok, hraised⟩ := hinput _ (reached_append hsteady hinput hkept)
  have hfront := hsteady.ok_front _ _ hok
  refine ⟨hfront, fun e left hround => ?_⟩
  obtain ⟨left', hround'⟩ := hsteady.raised_append kept more e left hfront hround
  exact hraised e left' hround'

/-- A readable input is drained, in at most as many rounds as it is long. -/
theorem Readable.drains (hsteady : Steady round ok) (h : Readable round ok input) :
    ∃ messages last, Drains round input messages last := by
  induction hlength : input.length using Nat.strongRecOn generalizing input with
  | ind n ih =>
      subst hlength
      obtain ⟨hok, hraised⟩ := h.here
      cases hround : round input with
      | wait => exact ⟨_, _, .wait hround⟩
      | raised e left => exact absurd hround (hraised e left)
      | read messages left =>
          obtain ⟨more, last, hrest⟩ := ih left.length (hsteady.shorter _ _ _ hok hround)
            (h.step hround) rfl
          exact ⟨_, _, .read hround hrest⟩

lemma Drains.waits {last : List β} (h : Drains round input messages last) :
    round last = .wait := by
  induction h with
  | wait hround => exact hround
  | read _ _ ih => exact ih

lemma Drains.unique {last last' : List β} {messages' : List α}
    (h : Drains round input messages last) (h' : Drains round input messages' last') :
    messages = messages' ∧ last = last' := by
  induction h generalizing messages' with
  | wait hround =>
      cases h' with
      | wait _ => exact ⟨rfl, rfl⟩
      | read hread _ =>
          rw [hround] at hread
          cases hread
  | read hround _ ih =>
      cases h' with
      | wait hwait =>
          rw [hround] at hwait
          cases hwait
      | read hread hrest =>
          rw [hround] at hread
          cases hread
          obtain ⟨rfl, rfl⟩ := ih hrest
          exact ⟨rfl, rfl⟩

/-- Rounds go on where the rounds of a prefix have ended. -/
theorem Drains.append (hsteady : Steady round ok) {last last' : List β} {messages' : List α}
    (hinput : Readable round ok (input ++ more)) (h : Drains round input messages last)
    (hlast : Drains round (last ++ more) messages' last') :
    Drains round (input ++ more) (messages ++ messages') last' := by
  induction h with
  | wait _ => exact hlast
  | read hround _ ih =>
      have hwhole := hsteady.append _ more _ _ (hsteady.ok_front _ _ hinput.here.1) hround
      rw [List.append_assoc]
      exact .read hwhole (ih (hinput.step hwhole) hlast)

lemma Readable.last (hsteady : Steady round ok) {last : List β}
    (hinput : Readable round ok (input ++ more)) (h : Drains round input messages last) :
    Readable round ok (last ++ more) := by
  induction h with
  | wait _ => exact hinput
  | read hround _ ih =>
      exact ih (hinput.step (hsteady.append _ more _ _ (hsteady.ok_front _ _ hinput.here.1) hround))

/-- The rounds end within any fuel that exceeds the length. -/
lemma Drains.drain (hsteady : Steady round ok) {last : List β} (hinput : Readable round ok input)
    (h : Drains round input messages last) {fuel : ℕ} (hfuel : input.length < fuel) :
    drain round fuel input = some ⟨last, .ok messages⟩ := by
  induction h generalizing fuel with
  | wait hround =>
      obtain ⟨fuel, rfl⟩ := Nat.exists_eq_add_of_lt (Nat.lt_of_le_of_lt (Nat.zero_le _) hfuel)
      rw [Nat.zero_add, Feeding.drain]
      simp only [hround]
  | read hround _ ih =>
      obtain ⟨fuel, rfl⟩ := Nat.exists_eq_add_of_lt (Nat.lt_of_le_of_lt (Nat.zero_le _) hfuel)
      have hshorter := hsteady.shorter _ _ _ hinput.here.1 hround
      rw [Nat.zero_add, Feeding.drain]
      simp only [hround]
      rw [ih (hinput.step hround) (by omega)]
      rfl

lemma Drains.length_le (hsteady : Steady round ok) {last : List β}
    (hinput : Readable round ok input) (h : Drains round input messages last) :
    last.length ≤ input.length := by
  induction h with
  | wait _ => exact Nat.le_refl _
  | read hround _ ih =>
      have hshorter := hsteady.shorter _ _ _ hinput.here.1 hround
      have hrest := ih (hinput.step hround)
      omega

/-- Every cutting of a readable input into pieces gives the messages of the whole, and every
call ends. -/
theorem feedAll_messages (hsteady : Steady round ok) {kept last : List β} {pieces : List (List β)}
    (hinput : Readable round ok (kept ++ pieces.flatten)) (hkept : round kept = .wait)
    (h : Drains round (kept ++ pieces.flatten) messages last) {fuel : ℕ}
    (hfuel : kept.length + pieces.flatten.length < fuel) :
    ∃ outs, feedAll round fuel kept pieces = some (.ok outs) ∧ outs.flatten = messages := by
  induction pieces generalizing kept messages with
  | nil =>
      rw [List.flatten_nil, List.append_nil] at h
      exact ⟨[], rfl, (h.unique (.wait hkept)).1.symm⟩
  | cons piece rest ih =>
      rw [List.flatten_cons, ← List.append_assoc] at hinput h
      rw [List.flatten_cons, List.length_append] at hfuel
      have hfront := hinput.front hsteady
      obtain ⟨first, left, hfirst⟩ := hfront.drains hsteady
      have hrest := hinput.last hsteady hfirst
      obtain ⟨others, last', hothers⟩ := hrest.drains hsteady
      obtain ⟨rfl, rfl⟩ := h.unique (hfirst.append hsteady hinput hothers)
      have hleft := hfirst.length_le hsteady hfront
      rw [List.length_append] at hleft
      obtain ⟨outs, houts, hflatten⟩ := ih hrest hfirst.waits hothers (by omega)
      refine ⟨first :: outs, ?_, by rw [List.flatten_cons, hflatten]⟩
      have hsize : (kept ++ piece).length < fuel := by
        rw [List.length_append]
        omega
      have hdrain := hfirst.drain hsteady hfront hsize
      rw [feedAll]
      simp only [hdrain, houts]
      rfl

/-- A round that leaves all of its input is never the last one. -/
theorem drain_stuck (h : round input = .read messages input) (fuel : ℕ) :
    drain round fuel input = none := by
  induction fuel with
  | zero => rfl
  | succ fuel ih =>
      rw [drain]
      simp only [h, ih]
      rfl

/-- A piece that is read as one message, whatever follows it. -/
structure Frame (round : List β → Round α β ε) (ok : List β → Prop) (frame : List β)
    (message : α) : Prop where
  ok : ∀ more, ok (frame ++ more)
  read : ∀ more, round (frame ++ more) = .read [message] more

/-- A stream of frames is readable, and its messages are theirs. -/
theorem frames_drain {frames : List (List β)} (hempty : round [] = .wait) (hok : ok [])
    (h : List.Forall₂ (Frame round ok) frames messages) :
    Readable round ok frames.flatten ∧ Drains round frames.flatten messages [] := by
  induction h with
  | nil =>
      refine ⟨fun kept hkept => ?_, .wait hempty⟩
      rcases hkept.cases_head with rfl | ⟨left, ⟨messages, hround⟩, -⟩
      · refine ⟨hok, fun e left hround => ?_⟩
        rw [List.flatten_nil, hempty] at hround
        cases hround
      · rw [List.flatten_nil, hempty] at hround
        cases hround
  | @cons frame message frames messages hframe _ ih =>
      have hround := hframe.read frames.flatten
      rw [List.flatten_cons]
      refine ⟨fun kept hkept => ?_, .read hround ih.2⟩
      rcases hkept.cases_head with rfl | ⟨left, ⟨messages, hstep⟩, hrest⟩
      · refine ⟨hframe.ok _, fun e left hraised => ?_⟩
        rw [hround] at hraised
        cases hraised
      · rw [hround] at hstep
        cases hstep
        exact ih.1 kept hrest

end Feeding

end Imece.Lib
