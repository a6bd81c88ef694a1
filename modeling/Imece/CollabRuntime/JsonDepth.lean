import Imece.CollabRuntime.CanonicalJson
import Imece.Lib.JsonGrammar

/-!
# The nesting check against the grammar

The scan of `_validate_json_depth` counts the brackets of a JSON text and no character of its
strings, so it refuses the texts that are nested deeper than the limit and no others.
-/
namespace Imece.CollabRuntime

open Lib Lib.JsonGrammar

/-- What the scan does with a piece from a depth: it comes back to it, or it stops in the piece. -/
structure Weighs (what : String) (start depth : ℕ) (cs : List Char) : Prop where
  kept : start + depth ≤ maxJsonDepth → Balanced what start cs
  refused : maxJsonDepth < start + depth → ∀ rest, (DepthScan.outside start).run what (cs ++ rest) =
    .error (.validation s!"{what} is nested too deeply.")

section Pieces

variable {what : String} {start : ℕ}

lemma Balanced.weighs {cs : List Char} (hstart : start ≤ maxJsonDepth)
    (h : Balanced what start cs) : Weighs what start 0 cs := by
  constructor
  · intro _
    exact h
  · intro hdeep
    omega

lemma Weighs.append {depth more : ℕ} {cs rest : List Char} (h : Weighs what start depth cs)
    (hrest : Weighs what start more rest) : Weighs what start (max depth more) (cs ++ rest) := by
  constructor
  · intro hdepth
    have hcs := h.kept (by omega)
    have hmore := hrest.kept (by omega)
    exact hcs.append hmore
  · intro hdeep after
    rw [List.append_assoc]
    by_cases hcs : start + depth ≤ maxJsonDepth
    · rw [DepthScan.run_append (h.kept hcs)]
      exact hrest.refused (by omega) after
    · exact h.refused (by omega) (rest ++ after)

lemma Weighs.before {depth : ℕ} {cs rest : List Char} (hstart : start ≤ maxJsonDepth)
    (h : Balanced what start cs) (hrest : Weighs what start depth rest) :
    Weighs what start depth (cs ++ rest) := by
  have hboth := (h.weighs hstart).append hrest
  rwa [Nat.zero_max] at hboth

lemma Weighs.after {depth : ℕ} {cs rest : List Char} (hstart : start ≤ maxJsonDepth)
    (h : Weighs what start depth cs) (hrest : Balanced what start rest) :
    Weighs what start depth (cs ++ rest) := by
  have hboth := h.append (hrest.weighs hstart)
  rwa [Nat.max_zero] at hboth

/-- Brackets add one to what stands between them. At the limit the opening one is refused. -/
lemma Weighs.brackets {depth : ℕ} {opening closing : Char} {cs : List Char}
    (hopening : opening = '[' ∨ opening = '\x7b') (hclosing : closing = ']' ∨ closing = '\x7d')
    (h : ∀ start ≤ maxJsonDepth, Weighs what start depth cs) :
    Weighs what start (depth + 1) (opening :: (cs ++ [closing])) := by
  constructor
  · intro hdepth
    have hinside := (h (start + 1) (by omega)).kept (by omega)
    exact Balanced.brackets hopening hclosing (by omega) hinside
  · intro hdeep rest
    by_cases hlimit : start + 1 ≤ maxJsonDepth
    · have hopen : (DepthScan.outside start).next what opening =
          .ok (DepthScan.outside (start + 1)) := by
        rcases hopening with rfl | rfl <;>
          simp [DepthScan.next, DepthScan.outside, show ¬ maxJsonDepth < start + 1 by omega]
      have hinside := (h (start + 1) hlimit).refused (by omega) ([closing] ++ rest)
      rw [List.cons_append, DepthScan.run, hopen, List.append_assoc]
      exact hinside
    · have hopen : (DepthScan.outside start).next what opening =
          .error (.validation s!"{what} is nested too deeply.") := by
        rcases hopening with rfl | rfl <;>
          simp [DepthScan.next, DepthScan.outside, show maxJsonDepth < start + 1 by omega]
      rw [List.cons_append, DepthScan.run, hopen]
      rfl

lemma balanced_blanks {blanks : List Char} (h : Blanks blanks) : Balanced what start blanks := by
  induction blanks with
  | nil => exact Balanced.nil what start
  | cons c rest ih =>
      have hrest := ih fun d hd => h d (List.mem_cons_of_mem c hd)
      have hc : Blank c := h c List.mem_cons_self
      rcases hc with rfl | rfl | rfl | rfl <;>
        exact hrest.cons (by decide) (by decide) (by decide)

lemma run_hexDigits {digits : List Char} (h : ∀ c ∈ digits, HexDigit c) :
    DepthScan.run what ⟨start, true, false⟩ digits = .ok ⟨start, true, false⟩ := by
  induction digits with
  | nil => rfl
  | cons c rest ih =>
      have hc : HexDigit c := h c List.mem_cons_self
      have hplain : c ≠ '\\' ∧ c ≠ '"' := by
        constructor <;> rintro rfl <;> revert hc <;> unfold HexDigit <;> decide
      have hnext : DepthScan.next what ⟨start, true, false⟩ c = .ok ⟨start, true, false⟩ := by
        simp [DepthScan.next, hplain]
      rw [DepthScan.run, hnext]
      exact ih fun d hd => h d (List.mem_cons_of_mem c hd)

/-- The scan comes back to the string after what follows a backslash. -/
lemma run_escapeText {escape : List Char} (h : Escape escape) :
    DepthScan.run what ⟨start, true, false⟩ ('\\' :: escape) = .ok ⟨start, true, false⟩ := by
  have hback : DepthScan.next what ⟨start, true, false⟩ '\\' = .ok ⟨start, true, true⟩ := rfl
  have hskip (c : Char) :
      DepthScan.next what ⟨start, true, true⟩ c = .ok ⟨start, true, false⟩ := rfl
  rw [DepthScan.run, hback]
  change DepthScan.run what ⟨start, true, true⟩ escape = _
  cases h with
  | short c _ =>
      rw [DepthScan.run, hskip]
      rfl
  | unicode digits _ hdigits =>
      rw [DepthScan.run, hskip]
      exact run_hexDigits hdigits

/-- Over the text of a string the scan stays in it, whatever its characters are. -/
lemma run_body {body : List Char} (h : Body body) :
    DepthScan.run what ⟨start, true, false⟩ body = .ok ⟨start, true, false⟩ := by
  induction h with
  | nil => rfl
  | @char c rest hquote hback _ _ ih =>
      have hnext : DepthScan.next what ⟨start, true, false⟩ c = .ok ⟨start, true, false⟩ := by
        simp [DepthScan.next, hquote, hback]
      rw [DepthScan.run, hnext]
      exact ih
  | @escape escape rest hescape _ ih =>
      rw [← List.cons_append, DepthScan.run_append (run_escapeText hescape)]
      exact ih

lemma balanced_string {body rest : List Char} (h : Body body) (hrest : Balanced what start rest) :
    Balanced what start ('"' :: (body ++ '"' :: rest)) := by
  have hopen : (DepthScan.outside start).next what '"' = .ok ⟨start, true, false⟩ := rfl
  have hclose : DepthScan.next what ⟨start, true, false⟩ '"' = .ok (DepthScan.outside start) := rfl
  rw [Balanced, DepthScan.run, hopen]
  change DepthScan.run what ⟨start, true, false⟩ (body ++ '"' :: rest) = _
  rw [DepthScan.run_append (run_body h), DepthScan.run, hclose]
  exact hrest

lemma balanced_whole {cs : List Char} (h : Whole cs) : Balanced what start cs := by
  cases h with
  | zero => exact (Balanced.nil what start).cons (by decide) (by decide) (by decide)
  | digits hc _ hrest =>
      apply balanced_digits
      intro d hd
      rcases List.mem_cons.mp hd with rfl | hd
      · exact hc
      · exact hrest d hd

lemma balanced_fraction {cs : List Char} (h : Fraction cs) : Balanced what start cs := by
  cases h with
  | none => exact Balanced.nil what start
  | digits _ hdigits =>
      exact (balanced_digits what start hdigits).cons (by decide) (by decide) (by decide)

lemma balanced_sign {sign : List Char} (h : sign = [] ∨ sign = ['+'] ∨ sign = ['-']) :
    Balanced what start sign := by
  rcases h with rfl | rfl | rfl
  · exact Balanced.nil what start
  · exact (Balanced.nil what start).cons (by decide) (by decide) (by decide)
  · exact (Balanced.nil what start).cons (by decide) (by decide) (by decide)

lemma balanced_exponent {cs : List Char} (h : Exponent cs) : Balanced what start cs := by
  cases h with
  | none => exact Balanced.nil what start
  | digits hmark hsign _ hdigits =>
      have hrest := (balanced_sign hsign).append (balanced_digits what start hdigits)
      rcases hmark with rfl | rfl <;>
        exact hrest.cons (by decide) (by decide) (by decide)

lemma balanced_number {cs : List Char} (h : Number cs) : Balanced what start cs := by
  cases h with
  | mk hsign hwhole hfraction hexponent =>
      have hend : Balanced what start _ := (balanced_whole hwhole).append
        ((balanced_fraction hfraction).append (balanced_exponent hexponent))
      exact (balanced_sign (hsign.imp_right Or.inr)).append hend

end Pieces

/-- The scan weighs every piece of a text by the depth that the grammar gives it. -/
lemma weighs_text (what : String) {part : Part} {cs : List Char} {depth : ℕ}
    (h : Text part cs depth) : ∀ start ≤ maxJsonDepth, Weighs what start depth cs := by
  induction h with
  | true | false | null =>
      intro start hstart
      exact Balanced.weighs hstart rfl
  | number hnumber =>
      intro start hstart
      exact (balanced_number hnumber).weighs hstart
  | string hbody =>
      intro start hstart
      exact (balanced_string hbody (Balanced.nil what start)).weighs hstart
  | emptyArray hblanks =>
      intro start _
      apply Weighs.brackets (Or.inl rfl) (Or.inl rfl)
      intro inner hinner
      exact (balanced_blanks hblanks).weighs hinner
  | array _ ih =>
      intro start _
      exact Weighs.brackets (Or.inl rfl) (Or.inl rfl) ih
  | emptyObject hblanks =>
      intro start _
      apply Weighs.brackets (Or.inr rfl) (Or.inr rfl)
      intro inner hinner
      exact (balanced_blanks hblanks).weighs hinner
  | object _ ih =>
      intro start _
      exact Weighs.brackets (Or.inr rfl) (Or.inr rfl) ih
  | element hbefore _ hafter ih =>
      intro start hstart
      have hvalue := (ih start hstart).after hstart (balanced_blanks hafter)
      exact hvalue.before hstart (balanced_blanks hbefore)
  | lastElement _ ih | lastMember _ ih => exact ih
  | moreElements _ _ ih ihrest | moreMembers _ _ ih ihrest =>
      intro start hstart
      have hcomma : Balanced what start [','] := rfl
      exact (ih start hstart).append ((ihrest start hstart).before hstart hcomma)
  | @member before key colon cs depth hbefore hkey hcolon _ ih =>
      intro start hstart
      have hmark : Balanced what start [':'] := rfl
      have hlabel := (balanced_blanks hbefore).append
        (balanced_string hkey ((balanced_blanks hcolon).append hmark))
      have hmember := (ih start hstart).before hstart hlabel
      simpa using hmember

/-- The scan ends on every text: it passes it, or raises its one error. -/
lemma depthScan_outcome (what : String) (scan : DepthScan) (cs : List Char) :
    (∃ scan', scan.run what cs = .ok scan') ∨
      scan.run what cs = .error (.validation s!"{what} is nested too deeply.") := by
  induction cs generalizing scan with
  | nil => exact Or.inl ⟨scan, rfl⟩
  | cons c rest ih =>
      have hnext : (∃ scan', scan.next what c = .ok scan') ∨
          scan.next what c = .error (.validation s!"{what} is nested too deeply.") := by
        unfold DepthScan.next
        split_ifs <;> simp
      rw [DepthScan.run]
      rcases hnext with ⟨next, hnext⟩ | hnext
      · rw [hnext]
        exact ih next
      · rw [hnext]
        exact Or.inr rfl

lemma validateJsonDepth_of_run {text what : String} {scan : DepthScan}
    (h : (DepthScan.outside 0).run what text.toList = .ok scan) :
    validateJsonDepth text what = .ok () := by
  change (do let _ ← (DepthScan.outside 0).run what text.toList; return ()) = _
  rw [h]
  rfl

lemma validateJsonDepth_of_error {text what : String} {error : CollabError}
    (h : (DepthScan.outside 0).run what text.toList = .error error) :
    validateJsonDepth text what = .error error := by
  change (do let _ ← (DepthScan.outside 0).run what text.toList; return ()) = _
  rw [h]
  rfl

/-- A JSON text is refused exactly when it is nested deeper than the limit, and every text is
accepted or refused. -/
theorem validateJsonDepth_iff (text what : String) :
    (∀ depth, Text .element text.toList depth →
      (validateJsonDepth text what = .error (.validation s!"{what} is nested too deeply.") ↔
        maxJsonDepth < depth)) ∧
    (validateJsonDepth text what = .ok () ∨
      validateJsonDepth text what = .error (.validation s!"{what} is nested too deeply.")) := by
  constructor
  · intro depth htext
    have hweighs := weighs_text what htext 0 (Nat.zero_le _)
    by_cases hdeep : maxJsonDepth < depth
    · have hrefused := hweighs.refused (by omega) []
      rw [List.append_nil] at hrefused
      simp only [validateJsonDepth_of_error hrefused, hdeep]
    · have hkept := hweighs.kept (by omega)
      simp only [validateJsonDepth_of_run hkept, hdeep, reduceCtorEq]
  · rcases depthScan_outcome what (.outside 0) text.toList with ⟨scan, hscan⟩ | herror
    · exact Or.inl (validateJsonDepth_of_run hscan)
    · exact Or.inr (validateJsonDepth_of_error herror)

lemma sample_text : Text .element "[\"\\\"[[\", []]".toList 2 := by
  rw [String.toList_ofList]
  have hnone : Blanks [] := by simp [Blanks]
  have hblank : Blanks [' '] := by simp [Blanks, Blank]
  have hstring : Text .value _ 0 := Text.string (Body.escape (Escape.short '"' (by decide))
    ((Body.nil.char (c := '[') (by decide) (by decide) (by decide)).char (c := '[')
      (by decide) (by decide) (by decide)))
  have hfirst := Text.element hnone hstring hnone
  have hlast := Text.element hblank (Text.emptyArray hnone) hnone
  have harray := Text.array (Text.moreElements hfirst (Text.lastElement hlast))
  exact Text.element hnone harray hnone

/-- A text of depth two whose string holds an escaped quote and two brackets. -/
theorem validateJsonDepth_iff_sample : Text .element "[\"\\\"[[\", []]".toList 2 ∧
    (validateJsonDepth "[\"\\\"[[\", []]" "A message" =
      .error (.validation "A message is nested too deeply.") ↔ maxJsonDepth < 2) :=
  ⟨sample_text, (validateJsonDepth_iff "[\"\\\"[[\", []]" "A message").1 2 sample_text⟩

end Imece.CollabRuntime
