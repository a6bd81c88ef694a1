import Imece.WebHost.Search

/-!
# What the reports of a search name

A match that ripgrep prints is read back from its line. It names where the match stands as long as
the path, the line and the text before the match keep to what the parse takes for granted.
-/
namespace Imece.WebHost.Search

open Lib

section Newlines

lemma universalNewlines_append {before : List Char} (h : before.getLast? ≠ some '\r')
    (after : List Char) : Project.universalNewlines (before ++ after) =
      Project.universalNewlines before ++ Project.universalNewlines after := by
  fun_induction Project.universalNewlines before with
  | case1 rest ih =>
      have hrest : rest.getLast? ≠ some '\r' := by
        intro hlast
        cases rest with
        | nil => simp at hlast
        | cons c more => simp [List.getLast?_cons_cons, hlast] at h
      rw [List.cons_append, List.cons_append, Project.universalNewlines, ih hrest, List.cons_append]
  | case2 rest hpair ih =>
      have hne : rest ≠ [] := by
        rintro rfl
        simp at h
      have hrest : rest.getLast? ≠ some '\r' := by
        rwa [List.getLast?_cons_of_ne_nil hne] at h
      rw [List.cons_append, Project.universalNewlines, ih hrest, List.cons_append]
      intro more hmore
      cases rest with
      | nil => exact hne rfl
      | cons c others =>
          rw [List.cons_append, List.cons.injEq] at hmore
          exact hpair others (by rw [hmore.1])
  | case3 c rest hpair hreturn ih =>
      rw [List.cons_append, Project.universalNewlines, List.cons_append]
      · cases rest with
        | nil => rfl
        | cons d more =>
            rw [ih (by rwa [List.getLast?_cons_cons] at h)]
      · intro more hc _
        exact hreturn hc
      · exact hreturn
  | case4 => rfl

lemma loneReturns_last {before : List Char} (h : loneReturns before = 0) :
    before.getLast? ≠ some '\r' := by
  fun_induction loneReturns before with
  | case1 => simp
  | case2 rest ih =>
      intro hlast
      cases rest with
      | nil => simp at hlast
      | cons c more =>
          rw [List.getLast?_cons_cons, List.getLast?_cons_cons] at hlast
          exact ih h hlast
  | case3 c rest hpair ih =>
      have hc : c ≠ '\r' := by
        intro hc
        rw [if_pos hc] at h
        omega
      intro hlast
      cases rest with
      | nil => exact hc (by simpa using hlast)
      | cons d more =>
          rw [List.getLast?_cons_cons] at hlast
          exact ih (by omega) hlast

/-- Each lone return is a line end more. -/
lemma count_universalNewlines (before : List Char) :
    (Project.universalNewlines before).count '\n' = before.count '\n' + loneReturns before := by
  fun_induction Project.universalNewlines before with
  | case1 rest ih =>
      rw [loneReturns, List.count_cons_self, ih]
      simp
      omega
  | case2 rest hpair ih =>
      rw [loneReturns, List.count_cons_self, ih]
      · simp
        omega
      · intro more _ hmore
        exact hpair more hmore
  | case3 c rest hpair hreturn ih =>
      rw [loneReturns, List.count_cons, List.count_cons, ih, if_neg hreturn]
      · omega
      · intro more hc _
        exact hreturn hc
  | case4 => rfl

lemma openLine_universalNewlines {before : List Char} (h : loneReturns before = 0)
    (front : List Char) :
    openLine front (Project.universalNewlines before) = openLine front before := by
  fun_induction Project.universalNewlines before generalizing front with
  | case1 rest ih =>
      rw [loneReturns] at h
      rw [openLine, openLine, openLine, ih h]
      decide
  | case2 rest hpair ih =>
      rw [loneReturns] at h
      · rw [if_pos rfl] at h
        omega
      · intro more _ hmore
        exact hpair more hmore
  | case3 c rest hpair hreturn ih =>
      have hrest : loneReturns rest = 0 := by
        rw [loneReturns, if_neg hreturn] at h
        · omega
        · intro more hc _
          exact hreturn hc
      by_cases hc : c = '\n'
      · subst hc
        rw [openLine, openLine, ih hrest]
      · rw [openLine, openLine, ih hrest]
        · exact hc
        · exact hc
  | case4 => rfl

lemma universalNewlines_last {text : List Char} (hne : text ≠ []) (h : text.getLast? = some '\n') :
    (Project.universalNewlines text).getLast? = some '\n' := by
  obtain ⟨front, rfl⟩ := List.getLast?_eq_some_iff.mp h
  induction front using Project.universalNewlines.induct with
  | case1 rest ih =>
      have hrest := ih (by simp) List.getLast?_concat
      rw [List.cons_append, List.cons_append, Project.universalNewlines, List.getLast?_cons, hrest]
      rfl
  | case2 rest hpair ih =>
      cases rest with
      | nil => rfl
      | cons c more =>
          have hrest := ih (by simp) List.getLast?_concat
          rw [List.cons_append, Project.universalNewlines, List.getLast?_cons, hrest]
          · rfl
          · intro others hmore
            rw [List.cons_append, List.cons.injEq] at hmore
            exact hpair more (by rw [hmore.1])
  | case3 c rest hpair hreturn ih =>
      have hrest := ih (by simp) List.getLast?_concat
      rw [List.cons_append, Project.universalNewlines, List.getLast?_cons, hrest]
      · rfl
      · intro more hc _
        exact hreturn hc
      · exact hreturn
  | case4 => rfl

end Newlines

section Numbers

variable (decimals : Decimals)

lemma intDigits_ascii {cs : List Char} (h : ∀ c ∈ cs, c.isDigit = true) (hne : cs ≠ []) :
    intDigits decimals cs = some (cs.map fun c => c.toNat - '0'.toNat) := by
  induction cs with
  | nil => exact absurd rfl hne
  | cons c rest ih =>
      have hc := decimals.ascii c (h c List.mem_cons_self)
      cases rest with
      | nil =>
          rw [intDigits, hc]
          rfl
      | cons d more =>
          have hd : d.isDigit = true := h d (by simp)
          have hunder : d ≠ '_' := by
            rintro rfl
            exact absurd hd (by decide)
          have hmore := ih (fun e he => h e (List.mem_cons_of_mem c he)) (List.cons_ne_nil d more)
          rw [intDigits, hc]
          dsimp only
          split
          · next heq => exact absurd heq (List.cons_ne_nil d more)
          · next heq => exact absurd (List.cons.inj heq).1 hunder
          · rw [hmore]
            rfl

lemma foldl_digits (cs : List Char) (value : ℕ) :
    (cs.map fun c => c.toNat - '0'.toNat).foldl (fun value digit => 10 * value + digit) value =
      Nat.ofDigitChars 10 cs value := by
  rw [List.foldl_map, Nat.ofDigitChars_eq_foldl]

lemma strip_self {cs : List Char} (h : ∀ c ∈ cs, isSpaceChar c = false) : strip cs = cs := by
  have hfront : cs.dropWhile isSpaceChar = cs := by
    cases cs with
    | nil => rfl
    | cons c rest => rw [List.dropWhile_cons_of_neg (by simp [h c List.mem_cons_self])]
  rw [strip, hfront, List.rdropWhile_eq_self_iff]
  intro hne
  simp [h _ (List.getLast_mem hne)]

lemma isSpaceChar_digit {c : Char} (h : c.isDigit = true) : isSpaceChar c = false := by
  rw [Char.isDigit, Bool.and_eq_true, decide_eq_true_eq, decide_eq_true_eq] at h
  have hlow : 48 ≤ c.toNat := UInt32.le_iff_toNat_le.mp h.1
  have hhigh : c.toNat ≤ 57 := UInt32.le_iff_toNat_le.mp h.2
  have hother : [0x85, 0xa0, 0x1680, 0x2028, 0x2029, 0x202f, 0x205f, 0x3000].contains c.toNat =
      false := by
    simp
    omega
  rw [isSpaceChar, hother]
  simp
  omega

/-- `int` reads the digits of a number that are not too many. -/
lemma intOf_toDigits {n : ℕ} (h : (Nat.toDigits 10 n).length ≤ Json.maxIntDigits) :
    intOf decimals (Nat.toDigits 10 n) = some (n : ℤ) := by
  have hdigits : ∀ c ∈ Nat.toDigits 10 n, c.isDigit = true := fun c hc =>
    Nat.isDigit_of_mem_toDigits (by omega) (by omega) hc
  have hne : Nat.toDigits 10 n ≠ [] := List.ne_nil_of_length_pos Nat.length_toDigits_pos
  have hnat : natOf decimals (Nat.toDigits 10 n) = some n := by
    rw [natOf, intDigits_ascii decimals hdigits hne]
    simp only [List.length_map, foldl_digits, Nat.ofDigitChars_ten_toDigits]
    rw [if_neg (by omega)]
  rw [intOf, strip_self fun c hc => isSpaceChar_digit (hdigits c hc)]
  cases hcs : Nat.toDigits 10 n with
  | nil => exact absurd hcs hne
  | cons c rest =>
      have hc : c.isDigit = true := hdigits c (by rw [hcs]; exact List.mem_cons_self)
      have hminus : c ≠ '-' := by
        rintro rfl
        exact absurd hc (by decide)
      have hplus : c ≠ '+' := by
        rintro rfl
        exact absurd hc (by decide)
      rw [hcs] at hnat
      split
      · next heq => exact absurd (List.cons.inj heq).1 hminus
      · next heq => exact absurd (List.cons.inj heq).1 hplus
      · rw [hnat]
        rfl

end Numbers

section Parsing

variable (decimals : Decimals)

lemma splitColons_append {head : List Char} (h : ':' ∉ head) (n : ℕ) (rest : List Char) :
    splitColons (n + 1) (head ++ ':' :: rest) = head :: splitColons n rest := by
  have hkeep : ∀ c ∈ head, decide (c ≠ ':') = true := by
    intro c hc
    simp only [decide_eq_true_eq]
    rintro rfl
    exact h hc
  have hmem : ':' ∈ head ++ ':' :: rest := by simp
  rw [splitColons, if_pos hmem, List.takeWhile_append_of_pos hkeep,
    List.dropWhile_append_of_pos hkeep, List.takeWhile_cons_of_neg (by decide),
    List.dropWhile_cons_of_neg (by decide), List.append_nil]
  rfl

lemma length_splitColons (n : ℕ) (text : List Char) :
    (splitColons n text).length = min n (text.count ':') + 1 := by
  induction n generalizing text with
  | zero => rw [splitColons, List.length_singleton, Nat.zero_min]
  | succ n ih =>
      by_cases hmem : ':' ∈ text
      · obtain ⟨head, rest, rfl, hhead⟩ := List.eq_append_cons_of_mem hmem
        rw [splitColons_append hhead, List.length_cons, ih, List.count_append,
          List.count_eq_zero_of_not_mem hhead, List.count_cons_self]
        omega
      · rw [splitColons, if_neg hmem, List.count_eq_zero_of_not_mem hmem]
        simp

lemma count_rdropWhile (raw : List Char) :
    (raw.rdropWhile (· = '\n')).count ':' = raw.count ':' := by
  induction raw using List.reverseRecOn with
  | nil => rfl
  | append_singleton front c ih =>
      rw [List.rdropWhile_concat]
      split
      · next hc =>
          have hcolon : c ≠ ':' := by
            rintro rfl
            exact absurd hc (by decide)
          rw [ih, List.count_append, List.count_singleton, if_neg (by simpa using hcolon)]
          rfl
      · rfl

lemma rdropWhile_newline {line : List Char} (h : '\n' ∉ line) :
    (line ++ ['\n']).rdropWhile (· = '\n') = line := by
  rw [List.rdropWhile_concat_pos _ _ _ (by decide), List.rdropWhile_eq_self_iff]
  intro hne
  have hlast : line.getLast hne ≠ '\n' := fun hlast => h (hlast ▸ List.getLast_mem hne)
  simpa using hlast

/-- A line is passed over exactly when it has too few colons. -/
lemma parseLine_skip {raw : List Char} :
    parseLine decimals raw = .skip ↔ raw.count ':' < 3 := by
  have hlength := length_splitColons 3 (raw.rdropWhile (· = '\n'))
  rw [count_rdropWhile] at hlength
  rw [parseLine]
  split
  · next path line col text heq =>
      rw [heq] at hlength
      have hmany : ¬ raw.count ':' < 3 := by
        simp only [List.length_cons, List.length_nil] at hlength
        omega
      simp only [hmany, iff_false]
      split <;> simp
  · next hother =>
      simp only [true_iff]
      by_contra hmany
      rw [Nat.min_eq_left (by omega)] at hlength
      obtain ⟨path, line, col, text, hparts⟩ := List.length_eq_four.mp hlength
      exact hother path line col text hparts

/-- The path of a report is what stands before the first colon. -/
lemma parseLine_found {raw : List Char} {found : SearchMatch}
    (h : parseLine decimals raw = .found found) :
    ∃ path, (∀ c ∈ path, c ≠ ':' ∧ c ∈ raw.rdropWhile (· = '\n')) ∧
      found.path = reportedPath path := by
  rw [parseLine] at h
  split at h
  · next path line col text heq =>
      have hmem : ':' ∈ raw.rdropWhile (· = '\n') := by
        by_contra hmem
        rw [splitColons, if_neg hmem] at heq
        simp at heq
      obtain ⟨head, rest, htext, hhead⟩ := List.eq_append_cons_of_mem hmem
      rw [htext, splitColons_append hhead, List.cons.injEq] at heq
      refine ⟨path, ?_, ?_⟩
      · intro c hc
        rw [← heq.1] at hc
        constructor
        · rintro rfl
          exact hhead hc
        · rw [htext]
          exact List.mem_append_left _ hc
      · split at h
        · cases h
          rfl
        · cases h
  · cases h

lemma mem_reportedPath {path : List Char} {c : Char} (h : c ∈ reportedPath path) :
    c ≠ '\\' ∧ (c ∈ path ∨ c = '/') := by
  obtain ⟨d, hd, rfl⟩ := List.mem_map.mp (List.dropWhile_subset _ h)
  by_cases hback : d = '\\'
  · rw [if_pos hback]
    exact ⟨by decide, Or.inr rfl⟩
  · rw [if_neg hback]
    exact ⟨hback, Or.inl hd⟩

lemma head_reportedPath {path : List Char} {c : Char} (h : c ∈ (reportedPath path).head?) :
    c ≠ '.' ∧ c ≠ '/' := by
  have hhead := List.head?_dropWhile_not (fun c => decide (c = '.') || decide (c = '/'))
    (path.map fun c => if c = '\\' then '/' else c)
  have hc : ((path.map fun c => if c = '\\' then '/' else c).dropWhile
      fun c => decide (c = '.') || decide (c = '/')).head? = some c := h
  rw [hc] at hhead
  simpa using hhead

/-- A path that the parse leaves as it is. -/
def KeepsPath (path : List Char) : Prop :=
  (∀ c ∈ path, c ≠ ':' ∧ c ≠ '\\' ∧ c ≠ '\n' ∧ c ≠ '\r') ∧ ∀ c ∈ path.head?, c ≠ '.' ∧ c ≠ '/'

lemma reportedPath_keeps {path : List Char} (h : KeepsPath path) :
    reportedPath ('.' :: '/' :: path) = path := by
  have hmap : (path.map fun c => if c = '\\' then '/' else c) = path := by
    conv_rhs => rw [← List.map_id path]
    apply List.map_congr_left
    intro c hc
    rw [if_neg (h.1 c hc).2.1]
    rfl
  rw [reportedPath, List.map_cons, List.map_cons, hmap, if_neg (by decide), if_neg (by decide),
    List.dropWhile_cons_of_pos (by decide), List.dropWhile_cons_of_pos (by decide)]
  cases path with
  | nil => rfl
  | cons c rest =>
      rw [List.dropWhile_cons_of_neg]
      have hc := h.2 c rfl
      simp [hc]

lemma digit_plain {n : ℕ} {c : Char} (h : c ∈ Nat.toDigits 10 n) :
    c ≠ ':' ∧ c ≠ '\n' ∧ c ≠ '\r' := by
  have hdigit := Nat.isDigit_of_mem_toDigits (by omega) (by omega) h
  refine ⟨?_, ?_, ?_⟩ <;> rintro rfl <;> exact absurd hdigit (by decide)

/-- A line of the tool's form is read as the match that it names. -/
lemma parseLine_form {path body : List Char} {line col : ℕ} (hpath : KeepsPath path)
    (hline : (Nat.toDigits 10 line).length ≤ Json.maxIntDigits)
    (hcol : (Nat.toDigits 10 col).length ≤ Json.maxIntDigits) (hbody : '\n' ∉ body) :
    parseLine decimals ('.' :: '/' :: (path ++ ':' :: (Nat.toDigits 10 line ++ ':' ::
      (Nat.toDigits 10 col ++ ':' :: body))) ++ ['\n']) =
        .found ⟨path, line, col, preview body⟩ := by
  have hplain : '\n' ∉ '.' :: '/' :: (path ++ ':' :: (Nat.toDigits 10 line ++ ':' ::
      (Nat.toDigits 10 col ++ ':' :: body))) := by
    intro hmem
    simp only [List.mem_cons, List.mem_append] at hmem
    rcases hmem with hmem | hmem | hmem | hmem | hmem | hmem | hmem | hmem | hmem
    · exact absurd hmem (by decide)
    · exact absurd hmem (by decide)
    · exact (hpath.1 _ hmem).2.2.1 rfl
    · exact absurd hmem (by decide)
    · exact (digit_plain hmem).2.1 rfl
    · exact absurd hmem (by decide)
    · exact (digit_plain hmem).2.1 rfl
    · exact absurd hmem (by decide)
    · exact hbody hmem
  have hhead : ':' ∉ '.' :: '/' :: path := by
    intro hmem
    simp only [List.mem_cons] at hmem
    rcases hmem with hmem | hmem | hmem
    · exact absurd hmem (by decide)
    · exact absurd hmem (by decide)
    · exact (hpath.1 _ hmem).1 rfl
  have hsplit := splitColons_append hhead 2 (Nat.toDigits 10 line ++ ':' ::
    (Nat.toDigits 10 col ++ ':' :: body))
  rw [splitColons_append (fun hmem => (digit_plain hmem).1 rfl),
    splitColons_append (fun hmem => (digit_plain hmem).1 rfl), splitColons] at hsplit
  rw [parseLine, rdropWhile_newline hplain]
  simp only [List.cons_append] at hsplit
  rw [hsplit]
  simp only [intOf_toDigits decimals hline, intOf_toDigits decimals hcol, reportedPath_keeps hpath]

end Parsing

section Bytes

lemma length_encode_cons (c : Char) (text : List Char) :
    (Utf8.encode (c :: text)).length = c.utf8Size + (Utf8.encode text).length := by
  rw [Utf8.encode, List.flatMap_cons, List.length_append, String.length_utf8EncodeChar]
  rfl

lemma length_encode_append (text more : List Char) :
    (Utf8.encode (text ++ more)).length =
      (Utf8.encode text).length + (Utf8.encode more).length := by
  rw [Utf8.encode, List.flatMap_append, List.length_append]
  rfl

lemma length_le_encode (text : List Char) : text.length ≤ (Utf8.encode text).length := by
  induction text with
  | nil => exact Nat.zero_le _
  | cons c rest ih =>
      have hpos := Char.utf8Size_pos c
      rw [length_encode_cons, List.length_cons]
      omega

/-- The bytes of a text are as many as its characters exactly when they are all ASCII. -/
lemma length_encode_iff (text : List Char) :
    (Utf8.encode text).length = text.length ↔ ∀ c ∈ text, c.toNat < 128 := by
  induction text with
  | nil => simp [Utf8.encode]
  | cons c rest ih =>
      have hsize : c.utf8Size = 1 ↔ c.toNat < 128 := by
        rw [Char.utf8Size_eq_one_iff]
        exact UInt32.le_iff_toNat_le.trans Nat.lt_succ_iff.symm
      have hpos := Char.utf8Size_pos c
      have hrest := length_le_encode rest
      rw [length_encode_cons, List.length_cons, List.forall_mem_cons, ← ih, ← hsize]
      omega

end Bytes

namespace RgMatch

variable {letters : Letters} {query : List Char}
variable {read : List Char → Except ReadFault (List UInt8)} {found : RgMatch letters query read}

/-- What is printed in front of the text. -/
def front (found : RgMatch letters query read) : List Char :=
  '.' :: '/' :: (found.path ++ ':' :: (Nat.toDigits 10 found.line ++ ':' ::
    (Nat.toDigits 10 found.column ++ [':'])))

lemma printed_eq (found : RgMatch letters query read) :
    found.printed = found.front ++ (found.text ++ ['\n']) := by
  simp [printed, front]

lemma mem_front {c : Char} (h : c ∈ found.front) :
    c ∈ found.path ∨ (c ≠ '\n' ∧ c ≠ '\r') := by
  simp only [front, List.mem_cons, List.mem_append, List.not_mem_nil, or_false] at h
  rcases h with rfl | rfl | h | rfl | h | rfl | h | rfl
  · exact Or.inr (by decide)
  · exact Or.inr (by decide)
  · exact Or.inl h
  · exact Or.inr (by decide)
  · exact Or.inr (digit_plain h).2
  · exact Or.inr (by decide)
  · exact Or.inr (digit_plain h).2
  · exact Or.inr (by decide)

lemma before_bounded (found : RgMatch letters query read) :
    (Utf8.encode found.before).length ≤ maxFileSize := by
  have hbounded := found.bounded
  rw [length_encode_append] at hbounded
  omega

lemma digits_bounded {n : ℕ} (h : n ≤ maxFileSize + 1) :
    (Nat.toDigits 10 n).length ≤ Json.maxIntDigits := by
  have hshort : (Nat.toDigits 10 n).length ≤ 20 := by
    rw [Nat.length_toDigits_le_iff (by omega) (by omega)]
    unfold maxFileSize at h
    omega
  unfold Json.maxIntDigits
  omega

lemma line_bounded (found : RgMatch letters query read) : found.line ≤ maxFileSize + 1 := by
  have hcount := @List.count_le_length Char _ '\n' found.before
  have hlength := length_le_encode found.before
  have hbounded := found.before_bounded
  rw [line]
  omega

lemma column_bounded (found : RgMatch letters query read) : found.column ≤ maxFileSize + 1 := by
  obtain ⟨closed, hsuffix⟩ := openLine_suffix [] found.before
  have hbounded := found.before_bounded
  rw [List.nil_append] at hsuffix
  rw [← hsuffix, length_encode_append] at hbounded
  rw [column]
  omega

/-- The printed lines of a match with a path that the parse keeps: the first names the match. -/
lemma outcomes_keeps (decimals : Decimals) (h : KeepsPath found.path) :
    ∃ first others text, fileLines (Project.universalNewlines (found.text ++ ['\n'])) =
        first :: others ∧
      found.outcomes decimals = .found ⟨found.path, found.line, found.column, text⟩ ::
        (others.map (parseLine decimals)).filter (· ≠ .skip) := by
  have hfront : '\n' ∉ found.front ∧ '\r' ∉ found.front := by
    constructor <;> intro hmem <;> rcases mem_front hmem with hpath | hother
    · exact (h.1 _ hpath).2.2.1 rfl
    · exact hother.1 rfl
    · exact (h.1 _ hpath).2.2.2 rfl
    · exact hother.2 rfl
  have hlast : found.front.getLast? ≠ some '\r' := by
    intro hlast
    exact hfront.2 (List.mem_of_getLast? hlast)
  have hend := universalNewlines_last (by simp)
    (@List.getLast?_concat Char found.text '\n')
  obtain ⟨body, more, hlines, hbody⟩ := List.eq_append_cons_of_mem (List.mem_of_getLast? hend)
  have hprinted : Project.universalNewlines found.printed =
      (found.front ++ body) ++ '\n' :: more := by
    rw [printed_eq, universalNewlines_append hlast, universalNewlines_self hfront.2, hlines,
      List.append_assoc]
  have hplain : '\n' ∉ found.front ++ body := by
    intro hmem
    rcases List.mem_append.mp hmem with hmem | hmem
    · exact hfront.1 hmem
    · exact hbody hmem
  refine ⟨body ++ ['\n'], fileLinesFrom [] more, preview body, ?_, ?_⟩
  · rw [hlines, fileLines, fileLinesFrom_line hbody, List.nil_append]
  · have hparse := parseLine_form decimals h (digits_bounded found.line_bounded)
      (digits_bounded found.column_bounded) hbody
    have hfirst : found.front ++ body ++ ['\n'] = '.' :: '/' :: (found.path ++ ':' ::
        (Nat.toDigits 10 found.line ++ ':' :: (Nat.toDigits 10 found.column ++ ':' :: body))) ++
          ['\n'] := by
      simp [front]
    rw [outcomes, hprinted, fileLines, fileLinesFrom_line hplain, List.nil_append, List.map_cons,
      hfirst, hparse, List.filter_cons_of_pos (by simp)]

end RgMatch

section Queries

variable {letters : Letters}

/-- What begins with a query is the matched text and what follows it, which may be another. -/
lemma begins_take {query text : List Char} (h : letters.begins query text = true)
    (more : List Char) :
    letters.begins query (text.take query.length ++ more) = true := by
  induction query generalizing text with
  | nil => rfl
  | cons q query ih =>
      cases text with
      | nil => cases h
      | cons c text =>
          rw [Letters.begins, Bool.and_eq_true] at h
          rw [List.length_cons, List.take_succ_cons, List.cons_append, Letters.begins,
            Bool.and_eq_true]
          exact ⟨h.1, ih h.2⟩

lemma begins_length {query text : List Char} (h : letters.begins query text = true) :
    query.length ≤ text.length := by
  induction query generalizing text with
  | nil => exact Nat.zero_le _
  | cons q query ih =>
      cases text with
      | nil => cases h
      | cons c text =>
          rw [Letters.begins, Bool.and_eq_true] at h
          exact Nat.succ_le_succ (ih h.2)

lemma begins_mem {query text : List Char} (h : letters.begins query text = true) {c : Char}
    (hc : c ∈ text.take query.length) : ∃ q ∈ query, letters.same q c = true := by
  induction query generalizing text with
  | nil => simp at hc
  | cons q query ih =>
      cases text with
      | nil => simp at hc
      | cons d text =>
          rw [Letters.begins, Bool.and_eq_true] at h
          rw [List.length_cons, List.take_succ_cons] at hc
          rcases List.mem_cons.mp hc with rfl | hc
          · exact ⟨q, List.mem_cons_self, h.1⟩
          · obtain ⟨p, hp, hsame⟩ := ih h.2 hc
            exact ⟨p, List.mem_cons_of_mem q hp, hsame⟩

lemma begins_query_mem {query text : List Char} (h : letters.begins query text = true) {q : Char}
    (hq : q ∈ query) : ∃ c ∈ text, letters.same q c = true := by
  induction query generalizing text with
  | nil => simp at hq
  | cons p query ih =>
      cases text with
      | nil => cases h
      | cons d text =>
          rw [Letters.begins, Bool.and_eq_true] at h
          rcases List.mem_cons.mp hq with rfl | hq
          · exact ⟨d, List.mem_cons_self, h.1⟩
          · obtain ⟨c, hc, hsame⟩ := ih h.2 hq
            exact ⟨c, List.mem_cons_of_mem d hc, hsame⟩

end Queries

namespace RgMatch

variable {letters : Letters} {query : List Char}
variable {read : List Char → Except ReadFault (List UInt8)} {found : RgMatch letters query read}

/-- The query stands where the match is, among the lines of the open file. -/
lemma occurs (hreturns : loneReturns found.before = 0) (hquery : '\r' ∉ query) :
    Occurs letters query read found.path found.fileLine found.fileColumn := by
  have hmatched : '\r' ∉ found.rest.take query.length ∧ '\n' ∉ found.rest.take query.length := by
    constructor <;> intro hmem <;> obtain ⟨q, hq, hsame⟩ := begins_mem found.begins hmem
    · have hline := (letters.lineEnds q '\r' hsame).1.mpr rfl
      exact hquery (hline ▸ hq)
    · have hline := (letters.lineEnds q '\n' hsame).2.mpr rfl
      exact found.oneLine (hline ▸ hq)
  have hlast : (found.rest.take query.length).getLast? ≠ some '\r' := by
    intro hlast
    exact hmatched.1 (List.mem_of_getLast? hlast)
  have htext : Project.fileText (Utf8.encode (found.before ++ found.rest)) =
      Project.universalNewlines found.before ++ (found.rest.take query.length ++
        Project.universalNewlines (found.rest.drop query.length)) := by
    rw [Project.fileText, Utf8.decodeReplace_encode,
      universalNewlines_append (loneReturns_last hreturns)]
    conv_lhs => rw [← List.take_append_drop query.length found.rest]
    rw [universalNewlines_append hlast, universalNewlines_self hmatched.1]
  have hne : openLine [] (Project.universalNewlines found.before) ++
      found.rest.take query.length ≠ [] := by
    have hlength := begins_length found.begins
    have hpos := List.length_pos_iff.mpr found.nonempty
    intro hnil
    have hzero := congrArg List.length hnil
    rw [List.length_append, List.length_take, List.length_nil] at hzero
    omega
  obtain ⟨closed, hclosed, hlines⟩ :=
    fileLinesFrom_append [] (Project.universalNewlines found.before)
  obtain ⟨more, others, hfirst⟩ := fileLinesFrom_first hmatched.2 hne
    (Project.universalNewlines (found.rest.drop query.length))
  refine ⟨_, openLine [] (Project.universalNewlines found.before) ++
    found.rest.take query.length ++ more, found.opened, ?_, ?_, ?_, ?_⟩
  · rw [fileLine]
    omega
  · rw [fileColumn]
    omega
  · rw [htext, fileLines, hlines, hfirst, Int.toNat_natCast, fileLine, Nat.add_sub_cancel,
      ← hclosed, List.getElem?_append_right (Nat.le_refl _), Nat.sub_self]
    rfl
  · rw [Int.toNat_natCast, fileColumn, Nat.add_sub_cancel, List.append_assoc, List.drop_left]
    exact begins_take found.begins more

/-- A report with the path of the match shows that the parse kept the path. -/
lemma keeps_of_reported {decimals : Decimals} {report : SearchMatch}
    (hreport : .found report ∈ found.outcomes decimals) (hpath : report.path = found.path) :
    KeepsPath found.path := by
  obtain ⟨raw, hraw, hparse⟩ := List.mem_map.mp (List.mem_of_mem_filter hreport)
  obtain ⟨path, hchars, heq⟩ := parseLine_found decimals hparse
  rw [← hpath, heq]
  constructor
  · intro c hc
    obtain ⟨hback, hc⟩ := mem_reportedPath hc
    rcases hc with hc | rfl
    · obtain ⟨hcolon, hmem⟩ := hchars c hc
      have hline : c ∈ raw := (List.rdropWhile_prefix _ _).subset hmem
      refine ⟨hcolon, hback, ?_, ?_⟩
      · rintro rfl
        rcases fileLinesFrom_mem List.not_mem_nil hraw with hnone | ⟨body, rfl, hbody⟩
        · exact hnone hline
        · rw [rdropWhile_newline hbody] at hmem
          exact hbody hmem
      · rintro rfl
        rcases mem_of_mem_fileLinesFrom hraw hline with hnil | htext
        · cases hnil
        · exact no_return _ htext
    · decide
  · intro c hc
    exact head_reportedPath hc

/-- A match is reported by its place exactly when the parse can read the line of it. -/
theorem reported_iff (decimals : Decimals) (found : RgMatch letters query read) :
    found.Reported decimals ↔ found.Readable := by
  constructor
  · rintro ⟨⟨text, houtcomes⟩, bytes, line, _, _, _, hline, hbegins⟩
    have hkeeps : KeepsPath found.path :=
      keeps_of_reported (houtcomes ▸ List.mem_singleton_self _) rfl
    obtain ⟨first, others, shown, hlines, hprinted⟩ := outcomes_keeps decimals hkeeps
    rw [houtcomes, List.cons.injEq, Parsed.found.injEq, SearchMatch.mk.injEq] at hprinted
    obtain ⟨⟨_, hrow, hcol, _⟩, hothers⟩ := hprinted
    have hreturns : loneReturns found.before = 0 := by
      rw [fileLine, RgMatch.line, count_universalNewlines] at hrow
      omega
    have hascii : ∀ c ∈ openLine [] found.before, c.toNat < 128 := by
      rw [← length_encode_iff]
      rw [fileColumn, RgMatch.column, openLine_universalNewlines hreturns] at hcol
      omega
    have hquery : '\r' ∉ query := by
      intro hq
      obtain ⟨c, hc, hsame⟩ := begins_query_mem hbegins hq
      have hreturn : c = '\r' := (letters.lineEnds '\r' c hsame).1.mp rfl
      have hmem := List.mem_of_mem_drop hc
      rcases mem_of_mem_fileLinesFrom (List.mem_of_getElem? hline) hmem with hnil | htext
      · cases hnil
      · exact no_return _ (hreturn ▸ htext)
    refine ⟨hkeeps.1, hkeeps.2, hreturns, hquery, hascii, ?_⟩
    intro piece hpiece
    rw [hlines, List.tail_cons] at hpiece
    have hskip := List.filter_eq_nil_iff.mp hothers.symm (parseLine decimals piece)
      (List.mem_map.mpr ⟨piece, hpiece, rfl⟩)
    exact (parseLine_skip decimals).mp (by simpa using hskip)
  · intro h
    have hkeeps : KeepsPath found.path := ⟨h.path, h.head⟩
    obtain ⟨first, others, text, hlines, hprinted⟩ := outcomes_keeps decimals hkeeps
    have hline : found.fileLine = found.line := by
      rw [fileLine, RgMatch.line, count_universalNewlines, h.returns, Nat.add_zero]
    have hcolumn : found.fileColumn = found.column := by
      rw [fileColumn, RgMatch.column, openLine_universalNewlines h.returns,
        (length_encode_iff _).mpr h.ascii]
    have hothers : (others.map (parseLine decimals)).filter (· ≠ .skip) = [] := by
      rw [List.filter_eq_nil_iff]
      intro outcome houtcome
      obtain ⟨piece, hpiece, rfl⟩ := List.mem_map.mp houtcome
      have hcount := h.pieces piece (by rw [hlines]; exact hpiece)
      simp [(parseLine_skip decimals).mpr hcount]
    refine ⟨⟨text, ?_⟩, occurs h.returns h.query⟩
    rw [hprinted, hothers, hline, hcolumn]

end RgMatch

section Runs

/-- The matches of a tally, emitted or not. -/
def Tally.held (tally : Tally) : List SearchMatch := tally.results.flatten ++ tally.batch

lemma Tally.held_add (tally : Tally) (found : SearchMatch) :
    (tally.add found).held = tally.held ++ [found] := by
  unfold Tally.add Tally.held
  by_cases hbatch : batchSize ≤ (tally.batch ++ [found]).length
  · simp only [hbatch, if_true]
    simp
  · simp only [hbatch, if_false]
    simp

lemma Tally.finish_results (tally : Tally) (limitHit : Bool) :
    (tally.finish limitHit).results.flatten = tally.held := by
  unfold Tally.finish Tally.held
  by_cases hbatch : tally.batch = []
  · simp [hbatch]
  · simp [hbatch]

lemma Tally.failed_results {tally : Tally} {report : SearchMatch}
    (h : report ∈ tally.failed.results.flatten) : report ∈ tally.held :=
  List.mem_append_left _ h

lemma rgLoop_mem {decimals : Decimals} {cancelled : ℕ → Bool} {turn : ℕ} {tally : Tally}
    {lines : List (List Char)} {report : SearchMatch}
    (h : report ∈ (rgLoop decimals cancelled turn tally lines).results.flatten) :
    report ∈ tally.held ∨ ∃ raw ∈ lines, parseLine decimals raw = .found report := by
  induction lines generalizing turn tally with
  | nil =>
      rw [rgLoop, Tally.finish_results] at h
      exact Or.inl h
  | cons raw rest ih =>
      have hlater (found : Tally) (hrest : report ∈ found.held ∨
          ∃ raw ∈ rest, parseLine decimals raw = .found report)
          (hfound : report ∈ found.held → report ∈ tally.held ∨
            parseLine decimals raw = .found report) :
          report ∈ tally.held ∨ ∃ raw' ∈ raw :: rest, parseLine decimals raw' = .found report := by
        rcases hrest with hmem | ⟨other, hother, hparse⟩
        · rcases hfound hmem with hmem | hparse
          · exact Or.inl hmem
          · exact Or.inr ⟨raw, List.mem_cons_self, hparse⟩
        · exact Or.inr ⟨other, List.mem_cons_of_mem raw hother, hparse⟩
      rw [rgLoop] at h
      by_cases hcancel : cancelled turn = true
      · rw [if_pos hcancel, Tally.finish_results] at h
        exact Or.inl h
      · rw [if_neg hcancel] at h
        cases hparse : parseLine decimals raw with
        | skip =>
            rw [hparse] at h
            exact hlater tally (ih h) Or.inl
        | raises =>
            rw [hparse] at h
            exact Or.inl (Tally.failed_results h)
        | found found =>
            rw [hparse] at h
            have hadd : report ∈ (tally.add found).held →
                report ∈ tally.held ∨ parseLine decimals raw = .found report := by
              intro hmem
              rw [Tally.held_add] at hmem
              rcases List.mem_append.mp hmem with hmem | hmem
              · exact Or.inl hmem
              · rw [List.mem_singleton.mp hmem]
                exact Or.inr hparse
            by_cases hlimit : maxResults ≤ (tally.add found).total
            · simp only [hlimit, if_true, Tally.finish_results] at h
              exact hlater (tally.add found) (Or.inl h) hadd
            · simp only [hlimit, if_false] at h
              exact hlater (tally.add found) (ih h) hadd

/-- The lines of what is printed are those of each match. -/
lemma lines_vimgrep {letters : Letters} {query : List Char}
    {read : List Char → Except ReadFault (List UInt8)}
    (found : List (RgMatch letters query read)) :
    fileLines (Project.universalNewlines (found.flatMap RgMatch.printed)) =
      found.flatMap fun m => fileLines (Project.universalNewlines m.printed) := by
  induction found with
  | nil => rfl
  | cons m rest ih =>
      have hlast : m.printed.getLast? = some '\n' := by
        rw [RgMatch.printed_eq, ← List.append_assoc]
        exact List.getLast?_concat
      have hreturn : m.printed.getLast? ≠ some '\r' := by
        rw [hlast]
        decide
      have hne : m.printed ≠ [] := List.cons_ne_nil _ _
      rw [List.flatMap_cons, List.flatMap_cons, universalNewlines_append hreturn,
        fileLines_append (Or.inr (universalNewlines_last hne hlast)), ih]

lemma search_some {letters : Letters} {query text : List Char} {start : ℕ}
    (h : letters.search query text = some start) :
    letters.begins query (text.drop start) = true ∧
      ∀ before < start, letters.begins query (text.drop before) = false := by
  induction text generalizing start with
  | nil =>
      rw [Letters.search] at h
      split at h
      · next hbegins =>
          cases h
          exact ⟨hbegins, fun before hbefore => absurd hbefore (Nat.not_lt_zero before)⟩
      · cases h
  | cons c text ih =>
      rw [Letters.search] at h
      split at h
      · next hbegins =>
          cases h
          exact ⟨hbegins, fun before hbefore => absurd hbefore (Nat.not_lt_zero before)⟩
      · next hbegins =>
          obtain ⟨later, hlater, rfl⟩ := Option.map_eq_some_iff.mp h
          obtain ⟨hfound, hfirst⟩ := ih hlater
          refine ⟨hfound, ?_⟩
          intro before hbefore
          cases before with
          | zero => simpa using hbegins
          | succ before => exact hfirst before (by omega)

/-- Where a query stands, the search ends there or before. -/
lemma search_of_begins {letters : Letters} {query text : List Char} {n : ℕ} (hne : query ≠ [])
    (h : letters.begins query (text.drop n) = true) :
    ∃ start ≤ n, letters.search query text = some start := by
  induction text generalizing n with
  | nil =>
      rw [List.drop_nil] at h
      cases query with
      | nil => exact absurd rfl hne
      | cons q query => cases h
  | cons c text ih =>
      rw [Letters.search]
      by_cases hbegins : letters.begins query (c :: text) = true
      · rw [if_pos hbegins]
        exact ⟨0, Nat.zero_le n, rfl⟩
      · cases n with
        | zero => exact absurd h hbegins
        | succ n =>
            obtain ⟨start, hstart, hsearch⟩ := ih h
            rw [if_neg hbegins, hsearch]
            exact ⟨start + 1, by omega, rfl⟩

/-- Both ways report the column of a match exactly when it is the first of its line. -/
lemma RgMatch.scanned_iff {letters : Letters} {query : List Char}
    {read : List Char → Except ReadFault (List UInt8)} (found : RgMatch letters query read)
    (h : Occurs letters query read found.path found.fileLine found.fileColumn) :
    found.Scanned ↔ found.Leads := by
  obtain ⟨bytes, text, hread, -, hpos, hline, hbegins⟩ := h
  rw [Int.toNat_natCast] at hline hbegins
  constructor
  · rintro ⟨bytes', text', hread', hline', hsearch⟩
    rintro col ⟨bytes'', text'', hread'', -, hcol, hline'', hbegins''⟩
    rw [hread'] at hread''
    cases hread''
    rw [Int.toNat_natCast, hline'] at hline''
    cases hline''
    by_contra hless
    rw [(search_some hsearch).2 (col.toNat - 1) (by omega)] at hbegins''
    cases hbegins''
  · intro hleads
    obtain ⟨start, hstart, hsearch⟩ := search_of_begins found.nonempty hbegins
    have hoccurs : Occurs letters query read found.path found.fileLine ((start : ℤ) + 1) := by
      have hcol : ((start : ℤ) + 1).toNat - 1 = start := by omega
      refine ⟨bytes, text, hread, ?_, by omega, ?_, ?_⟩
      · rw [RgMatch.fileLine]
        omega
      · rwa [Int.toNat_natCast]
      · rw [hcol]
        exact (search_some hsearch).1
    have hle := hleads _ hoccurs
    have hsame : start = found.fileColumn - 1 := by omega
    exact ⟨bytes, text, hread, hline, by rw [hsearch, hsame]⟩

section Scanning

variable {letters : Letters} {query : List Char}
variable {read : List Char → Except ReadFault (List UInt8)}

/-- The query stands where a report says, and in that line nowhere before. -/
def First (letters : Letters) (query : List Char)
    (read : List Char → Except ReadFault (List UInt8)) (report : SearchMatch) : Prop :=
  Occurs letters query read report.path report.line report.col ∧
    ∀ col, Occurs letters query read report.path report.line col → report.col ≤ col

lemma fileLoop_mem {rel : List Char} {bytes : List UInt8} (hread : read rel = .ok bytes)
    {before lines : List (List Char)} {tally : Tally} {report : SearchMatch}
    (hlines : fileLines (Project.fileText bytes) = before ++ lines)
    (h : report ∈ (fileLoop (letters.search query) rel (before.length + 1) tally lines).1.held) :
    report ∈ tally.held ∨ First letters query read report := by
  induction lines generalizing before tally with
  | nil => exact Or.inl h
  | cons text rest ih =>
      have hnext : fileLines (Project.fileText bytes) = (before ++ [text]) ++ rest := by
        rw [hlines, List.append_assoc]
        rfl
      have hcount : (before ++ [text]).length + 1 = before.length + 1 + 1 := by
        rw [List.length_append, List.length_singleton]
      rw [fileLoop] at h
      cases hsearch : letters.search query text with
      | none =>
          rw [hsearch] at h
          exact ih hnext (by rw [hcount]; exact h)
      | some start =>
          obtain ⟨hbegins, hfirst⟩ := search_some hsearch
          have hat : (fileLines (Project.fileText bytes))[before.length]? = some text := by
            rw [hlines, List.getElem?_append_right (Nat.le_refl _), Nat.sub_self]
            rfl
          have hreport : First letters query read
              ⟨rel, ((before.length + 1 : ℕ) : ℤ), (start : ℤ) + 1, preview text⟩ := by
            have hcol : ((start : ℤ) + 1).toNat - 1 = start := by omega
            constructor
            · have hline : (0 : ℤ) < (before.length + 1 : ℕ) := by omega
              have hpositive : (0 : ℤ) < (start : ℤ) + 1 := by omega
              refine ⟨bytes, text, hread, hline, hpositive, ?_, ?_⟩
              · rw [Int.toNat_natCast, Nat.add_sub_cancel]
                exact hat
              · rw [hcol]
                exact hbegins
            · rintro col ⟨bytes', text', hread', _, hpos, hat', hbegins'⟩
              rw [hread] at hread'
              cases hread'
              rw [Int.toNat_natCast, Nat.add_sub_cancel, hat] at hat'
              cases hat'
              change (start : ℤ) + 1 ≤ col
              by_contra hless
              rw [hfirst (col.toNat - 1) (by omega)] at hbegins'
              cases hbegins'
          have hadd {more : SearchMatch} (hmore : more ∈ (tally.add
              ⟨rel, ((before.length + 1 : ℕ) : ℤ), (start : ℤ) + 1, preview text⟩).held) :
              more ∈ tally.held ∨ First letters query read more := by
            rw [Tally.held_add] at hmore
            rcases List.mem_append.mp hmore with hmore | hmore
            · exact Or.inl hmore
            · rw [List.mem_singleton.mp hmore]
              exact Or.inr hreport
          rw [hsearch] at h
          dsimp only at h
          split at h
          · exact hadd h
          · rcases ih hnext (by rw [hcount]; exact h) with hmem | hfound
            · exact hadd hmem
            · exact Or.inr hfound

lemma pythonLoop_mem {cancelled : ℕ → Bool} {turn : ℕ} {tally : Tally} {files : List (List Char)}
    {report : SearchMatch} (h : report ∈ (pythonLoop (letters.search query) read cancelled turn
      tally files).results.flatten) :
    report ∈ tally.held ∨ First letters query read report := by
  induction files generalizing turn tally with
  | nil =>
      rw [pythonLoop, Tally.finish_results] at h
      exact Or.inl h
  | cons rel rest ih =>
      rw [pythonLoop] at h
      by_cases hcancel : cancelled turn = true
      · rw [if_pos hcancel, Tally.finish_results] at h
        exact Or.inl h
      · rw [if_neg hcancel] at h
        cases hread : read rel with
        | error fault =>
            rw [hread] at h
            cases fault with
            | os => exact ih h
            | other => exact Or.inl (Tally.failed_results h)
        | ok bytes =>
            rw [hread] at h
            dsimp only at h
            split at h
            · rw [Tally.finish_results] at h
              exact @fileLoop_mem letters query read rel bytes hread [] _ tally report rfl h
            · rcases ih h with hmem | hfound
              · exact @fileLoop_mem letters query read rel bytes hread [] _ tally report rfl hmem
              · exact Or.inr hfound

/-- A report of a run of ripgrep, whose matches can all be read, is that of one of them. -/
lemma rgRun_mem {decimals : Decimals} {cancelled : ℕ → Bool}
    {found : List (RgMatch letters query read)} (hreadable : ∀ m ∈ found, m.Readable)
    {report : SearchMatch}
    (h : report ∈ (runRg decimals cancelled (vimgrep found)).results.flatten) :
    ∃ m ∈ found, report.path = m.path ∧ report.line = m.fileLine ∧ report.col = m.fileColumn := by
  rcases rgLoop_mem h with hmem | ⟨raw, hraw, hparse⟩
  · cases hmem
  · rw [Project.fileText, vimgrep, Utf8.decodeReplace_encode, lines_vimgrep] at hraw
    obtain ⟨m, hm, hline⟩ := List.mem_flatMap.mp hraw
    obtain ⟨⟨text, houtcomes⟩, -⟩ := (RgMatch.reported_iff decimals m).mpr (hreadable m hm)
    have hmem : Parsed.found report ∈ m.outcomes decimals := by
      rw [RgMatch.outcomes, List.mem_filter]
      exact ⟨List.mem_map.mpr ⟨raw, hline, hparse⟩, by simp⟩
    rw [houtcomes, List.mem_singleton] at hmem
    cases hmem
    exact ⟨m, hm, rfl, rfl, rfl⟩

end Scanning

end Runs

section Samples

/-- The digits of ASCII alone. -/
def asciiDecimals : Decimals where
  value c := if c.isDigit then some (c.toNat - '0'.toNat) else none
  ascii _ hc := if_pos hc

def exactLetters : Letters where
  same c d := c = d
  lineEnds _ _ h := by
    rw [of_decide_eq_true h]
    exact ⟨Iff.rfl, Iff.rfl⟩

/-- One file, with a letter of two bytes in front of the query or without it. -/
def sampleFile (text : String) (path : List Char) : Except ReadFault (List UInt8) :=
  if path = "a.txt".toList then .ok (Utf8.encode text.toList) else .error .os

end Samples

end Imece.WebHost.Search
