import Mathlib
import Imece.CollabRuntime.Stream
import Imece.CollabRuntime.StateDocuments
import Imece.Lib.JsonLines

/-!
# One format of revision events

What a server writes for an event is what the consumer's parser reads, as long as the
event's text fits into the parser's bound.
-/
namespace Imece.CollabRuntime

open Lib

section Bytes

lemma utf8_eq_flatMap (text : String) : utf8 text = text.toList.flatMap String.utf8EncodeChar := by
  rw [utf8, String.toUTF8_eq_toByteArray, ← String.utf8Encode_toList, List.utf8Encode]
  simp

lemma utf8_append (text more : String) : utf8 (text ++ more) = utf8 text ++ utf8 more := by
  rw [utf8_eq_flatMap, utf8_eq_flatMap, utf8_eq_flatMap, String.toList_append, List.flatMap_append]

lemma fromUTF8?_utf8 (text : String) : String.fromUTF8? ⟨(utf8 text).toArray⟩ = some text := by
  have hbytes : (⟨(utf8 text).toArray⟩ : ByteArray) = text.toUTF8 := rfl
  rw [hbytes, fromUTF8?_toUTF8]

lemma length_utf8 (text : String) : (utf8 text).length = Json.bytes text.toList :=
  size_toUTF8 text

/-- Only the bytes above the ASCII range belong to more than one character. -/
lemma toNat_of_mem_utf8EncodeChar {c : Char} {byte : UInt8}
    (h : byte ∈ String.utf8EncodeChar c) (hbyte : byte.toNat < 128) :
    c.toNat = byte.toNat := by
  have hc : c.val.toNat = c.toNat := rfl
  unfold String.utf8EncodeChar at h
  dsimp only at h
  split_ifs at h with h1 h2 h3
  · simp only [List.mem_cons, List.not_mem_nil, or_false] at h
    subst h
    simp only [UInt8.toNat_ofNat'] at hbyte ⊢
    omega
  · simp only [List.mem_cons, List.not_mem_nil, or_false] at h
    rcases h with rfl | rfl <;> simp only [UInt8.toNat_ofNat'] at hbyte <;> omega
  · simp only [List.mem_cons, List.not_mem_nil, or_false] at h
    rcases h with rfl | rfl | rfl <;> simp only [UInt8.toNat_ofNat'] at hbyte <;> omega
  · simp only [List.mem_cons, List.not_mem_nil, or_false] at h
    rcases h with rfl | rfl | rfl | rfl <;> simp only [UInt8.toNat_ofNat'] at hbyte <;> omega

/-- A text without control characters. -/
def PrintableText (text : String) : Prop := ∀ c ∈ text.toList, Json.Printable c

instance (text : String) : Decidable (PrintableText text) :=
  List.decidableBAll Json.Printable text.toList

lemma PrintableText.append {text more : String} (h : PrintableText text)
    (hmore : PrintableText more) : PrintableText (text ++ more) := by
  rw [PrintableText, String.toList_append, List.forall_mem_append]
  exact ⟨h, hmore⟩

lemma PrintableText.not_mem {text : String} (h : PrintableText text) {byte : UInt8}
    (hbyte : byte.toNat < 32) : byte ∉ utf8 text := by
  intro hmem
  rw [utf8_eq_flatMap, List.mem_flatMap] at hmem
  obtain ⟨c, hc, hmem⟩ := hmem
  have htoNat := toNat_of_mem_utf8EncodeChar hmem (by omega)
  have hprintable : 32 ≤ c.toNat := h c hc
  omega

end Bytes

section Lines

lemma readline_line {line : List UInt8} (hline : 10 ∉ line) {limit : ℕ}
    (hlimit : line.length < limit) (rest : List UInt8) :
    readline limit (line ++ 10 :: rest) = (line ++ [10], rest) := by
  induction line generalizing limit with
  | nil =>
      obtain ⟨limit, rfl⟩ := Nat.exists_eq_succ_of_ne_zero (by omega : limit ≠ 0)
      rfl
  | cons byte line ih =>
      obtain ⟨limit, rfl⟩ := Nat.exists_eq_succ_of_ne_zero (by omega : limit ≠ 0)
      rw [List.mem_cons, not_or] at hline
      rw [List.length_cons] at hlimit
      rw [List.cons_append, readline, if_neg (Ne.symm hline.1), ih hline.2 (by omega)]
      rfl

/-- A line that is too long is cut. -/
lemma readline_cut {line : List UInt8} (hline : 10 ∉ line) {limit : ℕ}
    (hlimit : limit ≤ line.length) (rest : List UInt8) :
    (readline limit (line ++ rest)).1.length = limit := by
  induction line generalizing limit with
  | nil =>
      rw [List.length_nil, Nat.le_zero] at hlimit
      rw [hlimit]
      simp [readline]
  | cons byte line ih =>
      cases limit with
      | zero => simp [readline]
      | succ limit =>
          rw [List.mem_cons, not_or] at hline
          rw [List.length_cons] at hlimit
          rw [List.cons_append, readline, if_neg (Ne.symm hline.1)]
          exact congrArg (· + 1) (ih hline.2 (by omega))

lemma lineText_utf8 {text : String} (h : PrintableText text) :
    lineText (utf8 text ++ [10]) = some text := by
  have hreturn : (utf8 text).getLast? ≠ some 13 := fun hlast =>
    h.not_mem (by decide) (List.mem_of_getLast? hlast)
  rw [lineText, List.dropLast_concat, if_neg hreturn, fromUTF8?_utf8, Option.filter_some]
  rw [if_pos]
  rw [Bool.not_eq_true', List.any_eq_false]
  intro c hc
  have hprintable : 32 ≤ c.toNat := h c hc
  rw [Bool.or_eq_true, beq_iff_eq, beq_iff_eq]
  rintro (rfl | rfl)
  · exact absurd hprintable (by decide)
  · exact absurd hprintable (by decide)

lemma partitionField_field {name : String} (hname : ':' ∉ name.toList) (value : String) :
    partitionField (name ++ ": " ++ value) = some (name, value) := by
  have htext : (name ++ ": " ++ value).toList = name.toList ++ ':' :: ' ' :: value.toList := by
    simp [String.toList_append]
  have hspan : (name.toList ++ ':' :: ' ' :: value.toList).span (· ≠ ':') =
      (name.toList, ':' :: ' ' :: value.toList) := by
    rw [List.span_eq_takeWhile_dropWhile, List.takeWhile_append_of_pos, List.dropWhile_append_of_pos]
    · simp
    · intro c hc
      rw [decide_eq_true_eq]
      rintro rfl
      exact hname hc
    · intro c hc
      rw [decide_eq_true_eq]
      rintro rfl
      exact hname hc
  rw [partitionField, htext, hspan]
  simp only [String.ofList_toList]

/-- A field of a frame, as its line. -/
def fieldLine (name value : String) : List UInt8 := utf8 (name ++ ": " ++ value)

lemma feed_field {parser : StreamParser} {fields : StreamFields} {name value : String}
    (hname : name.toList ≠ [] ∧ ':' ∉ name.toList) (hprintable : PrintableText name)
    (hvalue : PrintableText value) (hcomment : parser.comment = false)
    (hset : parser.fields.set name value = some fields)
    (hsize : parser.frameBytes + (fieldLine name value).length + 1 ≤ maxFrameBytes) :
    parser.feed (fieldLine name value ++ [10]) =
      .more ⟨fields, false, parser.frameBytes + (fieldLine name value).length + 1⟩ := by
  have hlength : (fieldLine name value ++ [10]).length = (fieldLine name value).length + 1 := by
    rw [List.length_append, List.length_singleton]
  have htext : PrintableText (name ++ ": " ++ value) :=
    (hprintable.append (by decide)).append hvalue
  have hhead : (name ++ ": " ++ value).toList.head? = name.toList.head? := by
    obtain ⟨c, rest, hcons⟩ := List.exists_cons_of_ne_nil hname.1
    simp [String.toList_append, hcons]
  have hcolon : name.toList.head? ≠ some ':' := fun h => hname.2 (List.mem_of_head? h)
  have hempty : (name ++ ": " ++ value).toList.isEmpty = false := by
    simp [String.toList_append]
  rw [StreamParser.feed, hlength, if_neg (by omega), List.getLast?_concat, if_neg (by simp),
    if_neg (by omega), fieldLine, lineText_utf8 htext]
  simp only [hempty, Bool.false_eq_true, if_false, hhead, if_neg hcolon, hcomment,
    partitionField_field hname.2, hset]
  rfl

lemma feed_blank {parser : StreamParser} (hsize : parser.frameBytes + 1 ≤ maxFrameBytes) :
    parser.feed [10] = parser.fields.dispatch := by
  have htext : lineText [10] = some "" := @lineText_utf8 "" (by decide)
  have hlength : ([10] : List UInt8).length = 1 := rfl
  rw [StreamParser.feed, hlength, if_neg (by decide), if_neg (by decide), if_neg (by omega), htext]
  rfl

end Lines

section Events

variable {event : ReplayEvent}

/-- An event as a server makes it. -/
structure ReplayEvent.Formed (event : ReplayEvent) : Prop where
  previousRevision : isSha event.previousRevision = true
  revision : isSha event.revision = true
  distinct : event.previousRevision ≠ event.revision
  ids : ∀ id ∈ event.changedTaskIds, isSafeId id = true
  sorted : event.changedTaskIds.Pairwise (· < ·)
  count : event.changedTaskIds.length ≤ maxChangedTaskIds

lemma sortedSet_eq {ids : List String} (h : ids.Pairwise (· < ·)) : sortedSet ids = ids := by
  have hnodup : ids.Nodup := h.imp fun hlt => ne_of_lt hlt
  rw [sortedSet, hnodup.dedup]
  exact (h.imp fun hlt => le_of_lt hlt).insertionSort_eq

lemma ReplayEvent.plain_toDict (event : ReplayEvent) : event.toDict.plain = true := by
  refine plain_obj (show eventKeys.Nodup by decide) ?_
  simp only [List.forall_mem_cons, List.not_mem_nil, false_implies, implies_true, and_true]
  exact ⟨rfl, rfl, rfl, plain_strings _⟩

lemma ReplayEvent.nesting_toDict_le (event : ReplayEvent) : nesting event.toDict ≤ 2 := by
  refine nesting_obj_le ?_
  simp only [List.forall_mem_cons, List.not_mem_nil, false_implies, implies_true, and_true]
  exact ⟨Nat.zero_le 1, Nat.zero_le 1, Nat.zero_le 1, nesting_strings_le _⟩

lemma mapM_safeId {ids : List String} (h : ∀ id ∈ ids, isSafeId id = true) (what : String) :
    (ids.map Json.str).mapM (fun value => safeId value what) = .ok ids := by
  rw [mapM_eq_ok, List.forall₂_map_left_iff, List.forall₂_same]
  intro id hid
  exact safeId_eq_ok.mpr ⟨rfl, h id hid⟩

/-- A text that fits is read as the event it was made from, a longer one is refused. -/
theorem revisionEvent_canonical (h : event.Formed) :
    revisionEvent (canonicalJsonBytes event.toDict) event.revision =
      if (canonicalJsonBytes event.toDict).size ≤ maxJsonBytes then some event else none := by
  split
  · rename_i hsize
    have hparse := @parseJsonBytes_canonical _ "consumer data" event.plain_toDict
      (event.nesting_toDict_le.trans (by decide)) hsize
    have hobject := (@Json.objectOf_obj
      [("previous_revision", .str event.previousRevision), ("revision", .str event.revision),
        ("context_changed", .bool event.contextChanged),
        ("changed_task_ids", .arr (event.changedTaskIds.map .str))]
      (show eventKeys.Nodup by decide)).sortKeys
    obtain ⟨members, hexact, hget⟩ := @exactKeys_objectOf eventKeys _ _ "revision event" hobject
    have hprevious : Json.field members "previous_revision" = .str event.previousRevision :=
      hget _ (by decide)
    have hrevision : Json.field members "revision" = .str event.revision := hget _ (by decide)
    have hcontext : Json.field members "context_changed" = .bool event.contextChanged :=
      hget _ (by decide)
    have hids : Json.field members "changed_task_ids" =
        .arr (event.changedTaskIds.map .str) :=
      (hget _ (show "changed_task_ids" ∈ eventKeys by decide)).trans
        (sortKeys_strings event.changedTaskIds)
    have hfound : exactKeys event.toDict.sortKeys eventKeys "revision event" = .ok members :=
      hexact
    rw [revisionEvent, strictJson, hparse]
    have hsha (text what : String) (htext : isSha text = true) :
        shaHex (.str text) what = .ok text := shaHex_eq_ok.mpr ⟨rfl, htext⟩
    simp only [Except.toOption, Option.bind_eq_bind, Option.bind_some, hfound, hprevious, hrevision,
      hsha _ _ h.previousRevision, hsha _ _ h.revision, hcontext, hids]
    rw [if_neg (by simp [h.distinct]), List.length_map, if_neg (by have := h.count; omega),
      mapM_safeId h.ids]
    simp only [Option.bind_some, sortedSet_eq h.sorted, ne_eq, not_true_eq_false, if_false]
  · rename_i hsize
    obtain ⟨e, herror⟩ : ∃ e,
        parseJsonBytes (canonicalJsonBytes event.toDict) "consumer data" = .error e := by
      rw [parseJsonBytes, if_neg (by decide), if_pos (Nat.lt_of_not_le hsize)]
      exact ⟨_, rfl⟩
    rw [revisionEvent, strictJson, herror]
    rfl

/-! ## Frames -/

lemma printable_of_isSha {text : String} (h : isSha text = true) : PrintableText text := by
  intro c hc
  rw [isSha, Bool.and_eq_true, List.all_eq_true] at h
  have hhex := h.2 c hc
  rw [isLowerHex, Bool.or_eq_true, Bool.and_eq_true, decide_eq_true_eq] at hhex
  rcases hhex with hdigit | ⟨hlow, -⟩
  · exact Json.printable_of_isDigit hdigit
  · have hle : (97 : ℕ) ≤ c.toNat := hlow
    show 32 ≤ c.toNat
    omega

lemma bytes_of_ascii {cs : List Char} (h : ∀ c ∈ cs, c.toNat < 128) :
    Json.bytes cs = cs.length := by
  induction cs with
  | nil => rfl
  | cons c cs ih =>
      rw [List.forall_mem_cons] at h
      have hsize : c.utf8Size = 1 := by
        rw [Char.utf8Size_eq_one_iff]
        have hc : c.val.toNat < 128 := h.1
        rw [UInt32.le_iff_toNat_le]
        show c.val.toNat ≤ 127
        omega
      rw [Json.bytes_cons, hsize, ih h.2, List.length_cons]
      omega


lemma ascii_of_isSha {text : String} (h : isSha text = true) :
    text.toList.length = 40 ∧ ∀ c ∈ text.toList, c.toNat < 128 := by
  rw [isSha, Bool.and_eq_true, beq_iff_eq, List.all_eq_true] at h
  refine ⟨h.1, fun c hc => ?_⟩
  have hhex := h.2 c hc
  rw [isLowerHex, Bool.or_eq_true, Bool.and_eq_true, decide_eq_true_eq, decide_eq_true_eq,
    Char.isDigit, Bool.and_eq_true, decide_eq_true_eq, decide_eq_true_eq] at hhex
  rcases hhex with ⟨-, hhigh⟩ | ⟨-, hhigh⟩
  · have hle : c.toNat ≤ 57 := hhigh
    omega
  · have hle : c.toNat ≤ 102 := hhigh
    omega

lemma length_fieldLine (name value : String) :
    (fieldLine name value).length = Json.bytes name.toList + 2 + Json.bytes value.toList := by
  have hcolon : Json.bytes ": ".toList = 2 := by decide
  rw [fieldLine, length_utf8, String.toList_append, String.toList_append, Json.bytes_append,
    Json.bytes_append, hcolon]

/-- The parser after the first line of a revision frame. -/
def namedParser : StreamParser := ⟨⟨some "revision", none, none⟩, false, 16⟩

/-- The parser after its second line. -/
def identifiedParser (revision : String) : StreamParser :=
  ⟨⟨some "revision", some revision, none⟩, false, 61⟩

/-- The parser after its third line. -/
def filledParser (event : ReplayEvent) : StreamParser :=
  ⟨⟨some "revision", some event.revision, some (Json.canonical event.toDict)⟩, false,
    61 + (fieldLine "data" (Json.canonical event.toDict)).length + 1⟩

lemma feed_name : StreamParser.fresh.feed (fieldLine "event" "revision" ++ [10]) =
    .more namedParser := by
  have hlength : (fieldLine "event" "revision").length = 15 := by
    rw [length_fieldLine]
    decide
  have hfeed := @feed_field .fresh namedParser.fields "event" "revision" (by decide) (by decide)
    (by decide) rfl rfl
    (by rw [hlength]; decide)
  rw [hfeed, hlength]
  rfl

lemma length_idLine {revision : String} (h : isSha revision = true) :
    (fieldLine "id" revision).length = 44 := by
  have hname : Json.bytes "id".toList = 2 := by decide
  obtain ⟨hlength, hascii⟩ := ascii_of_isSha h
  rw [length_fieldLine, bytes_of_ascii hascii, hlength, hname]

lemma feed_id {revision : String} (h : isSha revision = true) :
    namedParser.feed (fieldLine "id" revision ++ [10]) = .more (identifiedParser revision) := by
  have hlength := length_idLine h
  have hfeed := @feed_field namedParser (identifiedParser revision).fields "id" revision
    (by decide) (by decide) (printable_of_isSha h) rfl rfl (by rw [hlength]; decide)
  rw [hfeed, hlength]
  rfl

lemma feed_data (event : ReplayEvent)
    (hsize : 61 + (fieldLine "data" (Json.canonical event.toDict)).length + 1 ≤ maxFrameBytes) :
    (identifiedParser event.revision).feed
      (fieldLine "data" (Json.canonical event.toDict) ++ [10]) = .more (filledParser event) :=
  @feed_field (identifiedParser event.revision) (filledParser event).fields "data" _ (by decide)
    (by decide)
    (Json.printable_canonical event.plain_toDict) rfl rfl hsize

lemma dispatch_filled (h : event.Formed) :
    (filledParser event).fields.dispatch =
      if (canonicalJsonBytes event.toDict).size ≤ maxJsonBytes then .event event
      else .ends .protocolError := by
  have hevent := revisionEvent_canonical h
  rw [canonicalJsonBytes] at hevent ⊢
  rw [filledParser, StreamFields.dispatch, hevent]
  split_ifs <;> rfl

/-- A frame that fits is read as its event. -/
theorem feed_frame (h : event.Formed)
    (hsize : (canonicalJsonBytes event.toDict).size ≤ maxJsonBytes) :
    StreamParser.fresh.feed (fieldLine "event" "revision" ++ [10]) = .more namedParser ∧
      namedParser.feed (fieldLine "id" event.revision ++ [10]) =
        .more (identifiedParser event.revision) ∧
      (identifiedParser event.revision).feed
        (fieldLine "data" (Json.canonical event.toDict) ++ [10]) = .more (filledParser event) ∧
      (filledParser event).feed [10] = .event event := by
  have hlength : (fieldLine "data" (Json.canonical event.toDict)).length =
      6 + (canonicalJsonBytes event.toDict).size := by
    have hname : Json.bytes "data".toList = 4 := by decide
    rw [length_fieldLine, canonicalJsonBytes, size_toUTF8, hname]
  have hroom : 61 + (fieldLine "data" (Json.canonical event.toDict)).length + 1 + 1 ≤
      maxFrameBytes := by
    rw [hlength]
    simp only [maxJsonBytes, maxFrameBytes] at hsize ⊢
    omega
  refine ⟨feed_name, feed_id h.revision, feed_data event (by omega), ?_⟩
  rw [feed_blank hroom, dispatch_filled h, if_pos hsize]

lemma utf8_newline : utf8 "\n" = [10] := by
  rw [utf8_eq_flatMap]
  decide

lemma writeEvent_eq (event : ReplayEvent) :
    writeEvent "revision" event.toDict (some event.revision) =
      fieldLine "event" "revision" ++ 10 :: (fieldLine "id" event.revision ++
        10 :: (fieldLine "data" (Json.canonical event.toDict) ++ [10, 10])) := by
  have hdata : (canonicalJsonBytes event.toDict).data.toList =
      utf8 (Json.canonical event.toDict) := by rw [canonicalJsonBytes, utf8]
  have hevent : utf8 "event: " = utf8 "event" ++ utf8 ": " := utf8_append "event" ": "
  have hid : utf8 "id: " = utf8 "id" ++ utf8 ": " := utf8_append "id" ": "
  have hdataName : utf8 "data: " = utf8 "data" ++ utf8 ": " := utf8_append "data" ": "
  have hend : utf8 "\n\n" = utf8 "\n" ++ utf8 "\n" := utf8_append "\n" "\n"
  simp only [writeEvent, fieldLine, hdata, toString, utf8_append, hevent, hid, hdataName, hend,
    utf8_newline, Option.map_some, Option.getD_some, List.append_assoc, List.cons_append,
    List.nil_append]

lemma StreamParser.read_succ (parser : StreamParser) (lines : ℕ) (stream : List UInt8) :
    parser.read (lines + 1) stream =
      match parser.feed (readline (maxFrameBytes + 1) stream).1 with
      | .more parser => parser.read lines (readline (maxFrameBytes + 1) stream).2
      | fed => (fed, (readline (maxFrameBytes + 1) stream).2) :=
  rfl

lemma StreamParser.read_more {parser parser' : StreamParser} {line rest : List UInt8}
    (hline : 10 ∉ line) (hlength : line.length ≤ maxFrameBytes)
    (hfeed : parser.feed (line ++ [10]) = .more parser') (lines : ℕ) :
    parser.read (lines + 1) (line ++ 10 :: rest) = parser'.read lines rest := by
  rw [StreamParser.read, readline_line hline (Nat.lt_succ_of_le hlength)]
  simp only [hfeed]

/-- Nothing comes of a line with which its frame is too long. -/
lemma feed_too_long {parser : StreamParser} {line : List UInt8}
    (h : maxFrameBytes < parser.frameBytes + line.length) :
    ∃ outcome, parser.feed line = .ends outcome := by
  unfold StreamParser.feed
  split
  · exact ⟨_, rfl⟩
  · split
    · exact ⟨_, rfl⟩
    · exact ⟨_, rfl⟩

lemma fieldLine_no_newline {name value : String} (hname : PrintableText name)
    (hvalue : PrintableText value) : 10 ∉ fieldLine name value :=
  ((hname.append (show PrintableText ": " by decide)).append hvalue).not_mem (by decide)

lemma filledParser_feed (h : event.Formed)
    (hsize : ¬ (canonicalJsonBytes event.toDict).size ≤ maxJsonBytes) :
    ∃ outcome, (filledParser event).feed [10] = .ends outcome := by
  by_cases hroom : (filledParser event).frameBytes + 1 ≤ maxFrameBytes
  · rw [feed_blank hroom, dispatch_filled h, if_neg hsize]
    exact ⟨_, rfl⟩
  · exact feed_too_long (Nat.lt_of_not_le hroom)

lemma read_data (h : event.Formed) (rest : List UInt8) :
    (identifiedParser event.revision).read 2
        (fieldLine "data" (Json.canonical event.toDict) ++ 10 :: 10 :: rest) =
      (.event event, rest) ↔
        (canonicalJsonBytes event.toDict).size ≤ maxJsonBytes := by
  have hline : 10 ∉ fieldLine "data" (Json.canonical event.toDict) :=
    fieldLine_no_newline (by decide) (Json.printable_canonical event.plain_toDict)
  have hblank (lines : ℕ) (parser : StreamParser) : parser.read (lines + 1) (10 :: rest) =
      match parser.feed [10] with
      | .more parser => parser.read lines rest
      | fed => (fed, rest) := parser.read_succ lines (10 :: rest)
  constructor
  · intro hread
    by_contra hsize
    by_cases hroom : 61 + (fieldLine "data" (Json.canonical event.toDict)).length + 1 ≤
        maxFrameBytes
    · obtain ⟨outcome, hends⟩ := filledParser_feed h hsize
      rw [StreamParser.read_more hline (by omega) (feed_data event hroom), hblank, hends] at hread
      cases hread
    · have hends : ∃ outcome, (identifiedParser event.revision).feed
          (readline (maxFrameBytes + 1)
            (fieldLine "data" (Json.canonical event.toDict) ++ 10 :: 10 :: rest)).1 =
          .ends outcome := by
        refine feed_too_long ?_
        by_cases hcut : maxFrameBytes + 1 ≤
            (fieldLine "data" (Json.canonical event.toDict)).length
        · rw [readline_cut hline hcut]
          omega
        · rw [readline_line hline (by omega), List.length_append, List.length_singleton]
          show maxFrameBytes < 61 + _
          omega
      obtain ⟨outcome, hends⟩ := hends
      rw [StreamParser.read_succ, hends] at hread
      cases hread
  · intro hsize
    obtain ⟨-, -, hdata, hend⟩ := feed_frame h hsize
    have hlength : (fieldLine "data" (Json.canonical event.toDict)).length ≤ maxFrameBytes := by
      by_contra hlong
      obtain ⟨outcome, hends⟩ := @feed_too_long (identifiedParser event.revision)
        (fieldLine "data" (Json.canonical event.toDict) ++ [10])
        (by rw [List.length_append, List.length_singleton]; omega)
      rw [hdata] at hends
      cases hends
    rw [StreamParser.read_more hline hlength hdata, hblank, hend]

/-- A frame is read as its event if and only if the text of the event is within the bound. -/
theorem read_frame (h : event.Formed) (rest : List UInt8) :
    StreamParser.fresh.read 4
        (writeEvent "revision" event.toDict (some event.revision) ++ rest) =
      (.event event, rest) ↔
        (canonicalJsonBytes event.toDict).size ≤ maxJsonBytes := by
  have hname : 10 ∉ fieldLine "event" "revision" :=
    fieldLine_no_newline (by decide) (by decide)
  have hid : 10 ∉ fieldLine "id" event.revision :=
    fieldLine_no_newline (by decide) (printable_of_isSha h.revision)
  have hnameLength : (fieldLine "event" "revision").length ≤ maxFrameBytes := by
    rw [length_fieldLine]
    decide
  have hidLength : (fieldLine "id" event.revision).length ≤ maxFrameBytes := by
    rw [length_idLine h.revision]
    decide
  rw [writeEvent_eq]
  simp only [List.append_assoc, List.cons_append, List.nil_append]
  rw [StreamParser.read_more hname hnameLength feed_name,
    StreamParser.read_more hid hidLength (feed_id h.revision)]
  exact read_data h rest

end Events

section States

variable {previous state : SessionState} {previousRevision revision : String}

lemma isSafeId_of_mem_keys (h : state.Valid) {id : String} (hid : id ∈ state.tasks.keys) :
    isSafeId id = true := by
  rw [Std.ExtTreeMap.mem_keys, Std.ExtTreeMap.mem_iff_isSome_getElem?, Option.isSome_iff_exists]
    at hid
  obtain ⟨task, htask⟩ := hid
  obtain ⟨hvalid, heq⟩ := h.tasks id task htask
  exact heq ▸ hvalid.id

lemma replayEvent_formed (hprevious : previous.Valid) (hstate : state.Valid)
    (hpreviousSha : isSha previousRevision = true) (hsha : isSha revision = true)
    (hne : previousRevision ≠ revision) :
    (replayEvent previousRevision revision previous state).Formed where
  previousRevision := hpreviousSha
  revision := hsha
  distinct := hne
  ids id hid := by
    rw [replayEvent, List.mem_insertionSort, changedTasks, List.mem_filter, List.mem_dedup,
      List.mem_append] at hid
    rcases hid.1 with hid | hid
    · exact isSafeId_of_mem_keys hprevious hid
    · exact isSafeId_of_mem_keys hstate hid
  sorted := by
    have hsorted := List.pairwise_insertionSort (· ≤ ·) (changedTasks previous state)
    have hnodup : ((changedTasks previous state).insertionSort (· ≤ ·)).Nodup :=
      (List.perm_insertionSort _ _).nodup_iff.mpr ((List.nodup_dedup _).filter _)
    exact (hsorted.and hnodup).imp fun h => lt_of_le_of_ne h.1 h.2
  count := by
    have hfilter := List.length_filter_le
      (fun taskId => decide (previous.tasks[taskId]? ≠ state.tasks[taskId]?))
      (previous.tasks.keys ++ state.tasks.keys).dedup
    have hdedup := (List.dedup_sublist (previous.tasks.keys ++ state.tasks.keys)).length_le
    have hpreviousCount := hprevious.tasksCount
    have hstateCount := hstate.tasksCount
    rw [List.length_append, Std.ExtTreeMap.length_keys, Std.ExtTreeMap.length_keys] at hdedup
    rw [replayEvent, List.length_insertionSort, changedTasks]
    simp only [maxTasks, maxChangedTaskIds] at *
    omega

/-- The characters of ids and revisions lie in two ranges, without quotes and backslashes. -/
def IdChar (c : Char) : Prop := (45 ≤ c.toNat ∧ c.toNat ≤ 90) ∨ (95 ≤ c.toNat ∧ c.toNat ≤ 122)

lemma idChar_of_isAlphanum {c : Char} (h : c.isAlphanum = true) : IdChar c := by
  rw [Char.isAlphanum, Char.isAlpha, Char.isUpper, Char.isLower, Char.isDigit, Bool.or_eq_true,
    Bool.or_eq_true] at h
  simp only [Bool.and_eq_true, decide_eq_true_eq] at h
  rcases h with (⟨hlow, hhigh⟩ | ⟨hlow, hhigh⟩) | ⟨hlow, hhigh⟩
  · exact Or.inl ⟨Nat.le_trans (by decide) hlow, hhigh⟩
  · exact Or.inr ⟨Nat.le_trans (by decide) hlow, hhigh⟩
  · exact Or.inl ⟨Nat.le_trans (by decide) hlow, Nat.le_trans hhigh (by decide)⟩

lemma idChar_of_isSafeId {text : String} (h : isSafeId text = true) :
    ∀ c ∈ text.toList, IdChar c := by
  unfold isSafeId at h
  split at h
  · cases h
  · rename_i first rest heq
    rw [Bool.and_eq_true, Bool.and_eq_true, List.all_eq_true] at h
    rw [heq, List.forall_mem_cons]
    refine ⟨idChar_of_isAlphanum h.1.1, fun c hc => ?_⟩
    have hchar := h.2 c hc
    simp only [Bool.or_eq_true, beq_iff_eq] at hchar
    rcases hchar with ((hchar | rfl) | rfl) | rfl
    · exact idChar_of_isAlphanum hchar
    · exact Or.inl ⟨by decide, by decide⟩
    · exact Or.inr ⟨by decide, by decide⟩
    · exact Or.inl ⟨by decide, by decide⟩

lemma idChar_of_isSha {text : String} (h : isSha text = true) : ∀ c ∈ text.toList, IdChar c := by
  intro c hc
  rw [isSha, Bool.and_eq_true, List.all_eq_true] at h
  have hhex := h.2 c hc
  rw [isLowerHex, Bool.or_eq_true, Bool.and_eq_true, decide_eq_true_eq, decide_eq_true_eq] at hhex
  rcases hhex with hdigit | ⟨hlow, hhigh⟩
  · refine idChar_of_isAlphanum ?_
    rw [Char.isAlphanum, hdigit, Bool.or_true]
  · exact Or.inr ⟨Nat.le_trans (by decide) hlow, Nat.le_trans hhigh (by decide)⟩

lemma bytes_renderString_id {text : String} (h : ∀ c ∈ text.toList, IdChar c) :
    Json.bytes (Json.renderString text) = text.toList.length + 2 := by
  have hescape : text.toList.flatMap Json.escape = text.toList := by
    rw [List.flatMap_congr (g := fun c => [c]), List.flatMap_singleton']
    intro c hc
    refine Json.escape_of_plain ?_ ?_ ?_
    · rintro rfl
      exact absurd (h _ hc) (by unfold IdChar; decide)
    · rintro rfl
      exact absurd (h _ hc) (by unfold IdChar; decide)
    · have hrange := h c hc
      unfold IdChar at hrange
      omega
  have hascii : ∀ c ∈ text.toList, c.toNat < 128 := by
    intro c hc
    have hrange := h c hc
    unfold IdChar at hrange
    omega
  rw [Json.bytes_renderString, hescape, bytes_of_ascii hascii]

/-- What the text of the event between two states takes. -/
def eventBytes (previous state : SessionState) : ℕ :=
  ((changedTasks previous state).map fun id => id.toList.length + 3).sum +
    if previous.context = state.context then 163 else 162

lemma bytes_renderString_sha {text : String} (h : isSha text = true) :
    Json.bytes (Json.renderString text) = 42 := by
  rw [bytes_renderString_id (idChar_of_isSha h), (ascii_of_isSha h).1]

lemma sum_renderString {ids : List String} (h : ∀ id ∈ ids, isSafeId id = true) :
    (ids.map fun id => Json.bytes (Json.render (.str id))).sum + ids.length =
      (ids.map fun id => id.toList.length + 3).sum := by
  induction ids with
  | nil => rfl
  | cons id ids ih =>
      rw [List.forall_mem_cons] at h
      have hid := bytes_renderString_id (idChar_of_isSafeId h.1)
      have hrest := ih h.2
      simp only [List.map_cons, List.sum_cons, List.length_cons, Json.render] at hrest ⊢
      omega

/-- The bytes of an event's text, but for the list of ids. -/
theorem ReplayEvent.Formed.size {event : ReplayEvent} (h : event.Formed) :
    (canonicalJsonBytes event.toDict).size =
      Json.bytes (Json.render (.arr (event.changedTaskIds.map .str))) + 157 +
        if event.contextChanged then 4 else 5 := by
  have hkeys : Json.bytes (Json.renderString "previous_revision") = 19 ∧
      Json.bytes (Json.renderString "revision") = 10 ∧
      Json.bytes (Json.renderString "context_changed") = 17 ∧
      Json.bytes (Json.renderString "changed_task_ids") = 18 := by decide +kernel
  have hcontext : Json.bytes (Json.render (.bool event.contextChanged)) =
      if event.contextChanged then 4 else 5 := by
    cases event.contextChanged <;> decide
  rw [canonicalJsonBytes, size_toUTF8, Json.bytes_canonical, ReplayEvent.toDict,
    Json.bytes_render_obj]
  simp only [List.map_cons, List.map_nil, List.sum_cons, List.sum_nil, List.length_cons,
    List.length_nil, Json.memberBytes, hkeys, hcontext]
  rw [Json.render, Json.render, bytes_renderString_sha h.previousRevision,
    bytes_renderString_sha h.revision]
  omega

lemma size_replayEvent (hprevious : previous.Valid) (hstate : state.Valid)
    (hpreviousSha : isSha previousRevision = true) (hsha : isSha revision = true)
    (hne : previousRevision ≠ revision) :
    (canonicalJsonBytes
      (replayEvent previousRevision revision previous state).toDict).size ≤ maxJsonBytes ↔
        eventBytes previous state ≤ maxJsonBytes := by
  have hformed := replayEvent_formed hprevious hstate hpreviousSha hsha hne
  have hids := sum_renderString hformed.ids
  have harr := Json.bytes_render_arr
    ((replayEvent previousRevision revision previous state).changedTaskIds.map .str)
  have hcontext : (if (replayEvent previousRevision revision previous state).contextChanged then
      4 else 5) = if previous.context = state.context then 5 else 4 := by
    simp only [replayEvent, decide_eq_true_eq, ne_eq, ite_not]
  have hsum : ((replayEvent previousRevision revision previous state).changedTaskIds.map
      fun id => id.toList.length + 3).sum =
        ((changedTasks previous state).map fun id => id.toList.length + 3).sum :=
    ((List.perm_insertionSort _ _).map _).sum_eq
  rw [List.map_map, List.length_map] at harr
  rw [hformed.size, harr, hcontext, eventBytes, ← hsum, ← hids]
  simp only [Function.comp_def, maxJsonBytes]
  by_cases hnone : (replayEvent previousRevision revision previous state).changedTaskIds = []
  · rw [hnone]
    simp only [List.map_nil, List.sum_nil, List.length_nil]
    split_ifs <;> omega
  · have hpositive := List.length_pos_iff.mpr hnone
    split_ifs <;> omega

/-- The frame of the event between two valid states is read as that event if and only if
the ids of the changed tasks are short enough. -/
theorem revision_frame_decoded (hprevious : previous.Valid) (hstate : state.Valid)
    (hpreviousSha : isSha previousRevision = true) (hsha : isSha revision = true)
    (hne : previousRevision ≠ revision) (rest : List UInt8) :
    let event := replayEvent previousRevision revision previous state
    StreamParser.fresh.read 4
        (writeEvent "revision" event.toDict (some event.revision) ++ rest) =
      (.event event, rest) ↔ eventBytes previous state ≤ maxJsonBytes := by
  have hformed := replayEvent_formed hprevious hstate hpreviousSha hsha hne
  exact (read_frame hformed rest).trans
    (size_replayEvent hprevious hstate hpreviousSha hsha hne)

end States

section Wide

def stateSha : String := "0123456789abcdef0123456789abcdef01234567"
def laterSha : String := "123456789abcdef0123456789abcdef012345678"

lemma isSha_stateSha : isSha stateSha = true := by decide

lemma isSha_laterSha : isSha laterSha = true := by decide

lemma stateSha_ne : stateSha ≠ laterSha := by decide

/-- Ids of the greatest length. -/
def wideId (mark : Char) (n : ℕ) : String :=
  String.ofList (mark :: (List.replicate n 'a' ++ List.replicate (127 - n) 'b'))

def wideIds (marks : List Char) : List String :=
  marks.flatMap fun mark => (List.range 128).map (wideId mark)

def wideTask (id : String) : Task := ⟨id, "o", "", [], "done", stateSha⟩

/-- A session with 128 tasks for each mark. -/
def wideState (marks : List Char) : SessionState where
  sessionId := "s"
  targetVersion := ""
  baseCommit := stateSha
  context := ⟨"", [], []⟩
  tasks := .ofList ((wideIds marks).map fun id => (id, wideTask id))

variable {marks : List Char}

lemma mem_wideIds {id : String} :
    id ∈ wideIds marks ↔ ∃ mark ∈ marks, ∃ n < 128, wideId mark n = id := by
  simp [wideIds]

lemma toList_wideId (mark : Char) (n : ℕ) :
    (wideId mark n).toList = mark :: (List.replicate n 'a' ++ List.replicate (127 - n) 'b') :=
  String.toList_ofList

lemma length_wideId {mark : Char} {n : ℕ} (hn : n < 128) :
    (wideId mark n).toList.length = 128 := by
  rw [toList_wideId]
  simp only [List.length_cons, List.length_append, List.length_replicate]
  omega

lemma isSafeId_wideId {mark : Char} (hmark : mark.isAlphanum = true) {n : ℕ} (hn : n < 128) :
    isSafeId (wideId mark n) = true := by
  unfold isSafeId
  rw [toList_wideId]
  simp only [hmark, Bool.true_and, Bool.and_eq_true, decide_eq_true_eq, List.length_append,
    List.length_replicate, List.all_append, List.all_replicate]
  refine ⟨by omega, ?_, ?_⟩
  · split_ifs <;> decide
  · split_ifs <;> decide

lemma wideId_injective {mark mark' : Char} {n n' : ℕ} (h : wideId mark n = wideId mark' n') : mark = mark' ∧ n = n' := by
  have hlist := congrArg String.toList h
  rw [toList_wideId, toList_wideId] at hlist
  refine ⟨(List.cons_eq_cons.mp hlist).1, ?_⟩
  have hcount := congrArg (List.count 'a') (List.cons_eq_cons.mp hlist).2
  simpa [List.count_replicate] using hcount

lemma nodup_wideIds (hnodup : marks.Nodup) : (wideIds marks).Nodup := by
  rw [wideIds, List.nodup_flatMap]
  refine ⟨fun mark _ => ?_, ?_⟩
  · refine List.Nodup.map_on (fun n _ n' _ h => ?_) List.nodup_range
    exact (wideId_injective h).2
  · refine (List.pairwise_iff_forall_sublist.mpr fun {mark mark'} hsub => ?_)
    have hpair := hsub.nodup hnodup
    intro id hid hid'
    obtain ⟨n, -, rfl⟩ := List.mem_map.mp hid
    obtain ⟨n', -, hn'⟩ := List.mem_map.mp hid'
    simp [(wideId_injective hn').1] at hpair

lemma length_wideIds (marks : List Char) : (wideIds marks).length = marks.length * 128 := by
  simp [wideIds, List.length_flatMap]

lemma toList_ofList_perm {entries : List (String × Task)} (h : (entries.map (·.1)).Nodup) :
    (Std.ExtTreeMap.ofList entries : Tasks).toList.Perm entries := by
  refine (List.perm_ext_iff_of_nodup ?_ (List.Nodup.of_map _ h)).mpr fun entry => ?_
  · exact List.Nodup.of_map _ (nodup_keys _)
  · obtain ⟨id, task⟩ := entry
    rw [Std.ExtTreeMap.mem_toList_iff_getElem?_eq_some, getElem?_ofList h]

lemma wideEntries_nodup (hnodup : marks.Nodup) :
    (((wideIds marks).map fun id => (id, wideTask id)).map (·.1)).Nodup := by
  rw [List.map_map]
  exact (List.map_id (wideIds marks)).symm ▸ nodup_wideIds hnodup

lemma wideTasks_perm (hnodup : marks.Nodup) :
    (wideState marks).tasks.toList.Perm ((wideIds marks).map fun id => (id, wideTask id)) :=
  toList_ofList_perm (wideEntries_nodup hnodup)

lemma wideTasks_getElem? (hnodup : marks.Nodup) {id : String} {task : Task} :
    (wideState marks).tasks[id]? = some task ↔ id ∈ wideIds marks ∧ task = wideTask id := by
  rw [wideState, getElem?_ofList (wideEntries_nodup hnodup), List.mem_map]
  constructor
  · rintro ⟨other, hmem, heq⟩
    cases heq
    exact ⟨hmem, rfl⟩
  · rintro ⟨hmem, rfl⟩
    exact ⟨id, hmem, rfl⟩

lemma bounded_empty (limit : ℕ) : Bounded "" limit := ⟨nofun, Nat.zero_le limit⟩

lemma wideState_valid (hnodup : marks.Nodup) (hmarks : marks.all Char.isAlphanum = true)
    (hcount : marks.length ≤ 2) : (wideState marks).Valid where
  sessionId := show isSafeId "s" = true by decide
  targetVersion := bounded_empty _
  baseCommit := isSha_stateSha
  context := {
    goal := bounded_empty _
    decisionsCount := Nat.zero_le _
    decisions := nofun
    interfacesCount := Nat.zero_le _
    interfaces := nofun
    distinct := List.nodup_nil
    sorted := List.Pairwise.nil }
  tasksCount := by
    have hlength := (wideTasks_perm hnodup).length_eq
    rw [Std.ExtTreeMap.length_toList, List.length_map, length_wideIds] at hlength
    rw [hlength, maxTasks]
    omega
  tasks id task htask := by
    obtain ⟨hid, rfl⟩ := (wideTasks_getElem? hnodup).mp htask
    obtain ⟨mark, hmark, n, hn, rfl⟩ := mem_wideIds.mp hid
    exact ⟨{
      owner := show isSafeId "o" = true by decide
      goal := bounded_empty _
      scopes := ⟨Nat.zero_le _, List.nodup_nil, nofun⟩
      status := show "done" ∈ allStatuses by decide
      id := isSafeId_wideId (List.all_eq_true.mp hmarks mark hmark) hn
      contextRevision := isSha_stateSha }, rfl⟩

lemma size_wideState (hnodup : marks.Nodup) (hmarks : marks.all Char.isAlphanum = true)
    (hcount : marks.length ≤ 2) :
    (canonicalJsonBytes (wideState marks).toDict).size ≤ maxJsonBytes := by
  have htask (id : String) : Json.bytes (Json.render (wideTask id).toDict) = 113 := by
    have hdict : (wideTask id).toDict = (wideTask "").toDict := rfl
    rw [hdict]
    decide +kernel
  have hmember : ∀ id ∈ wideIds marks,
      (Json.memberBytes ∘ (fun entry : String × Task => (entry.1, entry.2.toDict)) ∘
        fun id => (id, wideTask id)) id = 244 := by
    intro id hid
    show Json.memberBytes (id, (wideTask id).toDict) = 244
    obtain ⟨mark, hmark, n, hn, rfl⟩ := mem_wideIds.mp hid
    have hsafe := isSafeId_wideId (List.all_eq_true.mp hmarks mark hmark) hn
    rw [Json.memberBytes, bytes_renderString_id (idChar_of_isSafeId hsafe), length_wideId hn, htask]
  obtain ⟨tasks, htasks⟩ : ∃ tasks : Json, tasks = .obj ((wideState marks).tasks.toList.map
      fun entry => (entry.1, entry.2.toDict)) := ⟨_, rfl⟩
  have hdict : (wideState marks).toDict = .obj [("schema", .int 1), ("session_id", .str "s"),
      ("target_version", .str ""), ("base_commit", .str stateSha),
      ("context", SharedContext.toDict ⟨"", [], []⟩), ("tasks", tasks)] := by
    rw [htasks]
    rfl
  have hbytes : Json.bytes (Json.render tasks) ≤ 62721 := by
    have hlength := length_wideIds marks
    rw [htasks, Json.bytes_render_obj_perm ((wideTasks_perm hnodup).map _), List.map_map,
      Json.bytes_render_obj, List.map_map, List.length_map,
      List.map_congr_left (g := fun _ => 244) hmember, List.map_const', List.sum_replicate_nat]
    omega
  have hrest : Json.bytes (Json.renderString "schema") + Json.bytes (Json.render (.int 1)) +
      Json.bytes (Json.renderString "session_id") + Json.bytes (Json.render (.str "s")) +
      Json.bytes (Json.renderString "target_version") + Json.bytes (Json.render (.str "")) +
      Json.bytes (Json.renderString "base_commit") +
      Json.bytes (Json.renderString "context") +
      Json.bytes (Json.render (SharedContext.toDict ⟨"", [], []⟩)) +
      Json.bytes (Json.renderString "tasks") ≤ 160 := by decide +kernel
  have hbase : Json.bytes (Json.render (.str stateSha)) = 42 :=
    bytes_renderString_sha isSha_stateSha
  rw [canonicalJsonBytes, size_toUTF8, Json.bytes_canonical, hdict, Json.bytes_render_obj]
  simp only [List.map_cons, List.map_nil, List.sum_cons, List.sum_nil, List.length_cons,
    List.length_nil, Json.memberBytes, maxJsonBytes]
  omega

lemma wideState_published (hnodup : marks.Nodup)
    (hmarks : marks.all Char.isAlphanum = true) (hcount : marks.length ≤ 2) :
    ∃ payload, statePayload (wideState marks) = .ok payload := by
  have hvalid := wideState_valid hnodup hmarks hcount
  have hdrive : (wideState marks).NoDrive := by
    intro id task htask
    obtain ⟨-, rfl⟩ := (wideTasks_getElem? hnodup).mp htask
    exact nofun
  have hsize := size_wideState hnodup hmarks hcount
  rw [← hvalid.normal] at hsize
  exact ⟨_, statePayload_eq_ok.mpr ⟨hvalid.admissible_iff.mpr hdrive, rfl, hsize⟩⟩

lemma wideKeys_perm (hnodup : marks.Nodup) :
    (wideState marks).tasks.keys.Perm (wideIds marks) := by
  have hperm := (wideTasks_perm hnodup).map (·.1)
  rw [Std.ExtTreeMap.map_fst_toList_eq_keys, List.map_map] at hperm
  rwa [show (fun entry : String × Task => entry.1) ∘ (fun id => (id, wideTask id)) = id from rfl,
    List.map_id] at hperm

/-- Sessions without a common task differ in all of them. -/
lemma eventBytes_wideState {marks' : List Char} (hnodup : (marks ++ marks').Nodup) :
    eventBytes (wideState marks) (wideState marks') =
      (marks.length + marks'.length) * 128 * 131 + 163 := by
  obtain ⟨hmarks, hmarks', -⟩ := List.nodup_append.mp hnodup
  have hids : (wideIds marks ++ wideIds marks').Nodup := by
    rw [wideIds, wideIds, ← List.flatMap_append]
    exact nodup_wideIds hnodup
  have hperm : ((wideState marks).tasks.keys ++ (wideState marks').tasks.keys).Perm
      (wideIds marks ++ wideIds marks') := (wideKeys_perm hmarks).append (wideKeys_perm hmarks')
  have hdisjoint := (List.nodup_append.mp hids).2.2
  have hchanged : (changedTasks (wideState marks) (wideState marks')).Perm
      (wideIds marks ++ wideIds marks') := by
    rw [changedTasks, (hperm.nodup_iff.mpr hids).dedup, List.filter_eq_self.mpr]
    · exact hperm
    · intro id hid
      rw [decide_eq_true_eq]
      intro heq
      rcases List.mem_append.mp (hperm.mem_iff.mp hid) with hfirst | hsecond
      · have htask := (wideTasks_getElem? hmarks).mpr ⟨hfirst, rfl⟩
        rw [heq] at htask
        exact hdisjoint id hfirst id ((wideTasks_getElem? hmarks').mp htask).1 rfl
      · have htask := (wideTasks_getElem? hmarks').mpr ⟨hsecond, rfl⟩
        rw [← heq] at htask
        exact hdisjoint id ((wideTasks_getElem? hmarks).mp htask).1 id hsecond rfl
  have hlength : ∀ id ∈ wideIds marks ++ wideIds marks', id.toList.length + 3 = 131 := by
    intro id hid
    rw [wideIds, wideIds, ← List.flatMap_append] at hid
    obtain ⟨mark, -, n, hn, rfl⟩ := mem_wideIds.mp hid
    rw [length_wideId hn]
  have hcontext : (wideState marks).context = (wideState marks').context := rfl
  rw [eventBytes, (hchanged.map _).sum_eq, List.map_congr_left hlength, List.map_const',
    List.sum_replicate_nat, List.length_append, length_wideIds, length_wideIds, if_pos hcontext]
  omega

/-- Two sessions whose documents are within the bound, and an event between them that is
not: all tasks of the first are gone, and all of the second are new. -/
theorem wide_frame_refused :
    (∃ payload, statePayload (wideState ['c', 'd']) = .ok payload) ∧
      (∃ payload, statePayload (wideState ['e', 'f']) = .ok payload) ∧
      (let event := replayEvent stateSha laterSha (wideState ['c', 'd']) (wideState ['e', 'f'])
      StreamParser.fresh.read 4
        (writeEvent "revision" event.toDict (some event.revision) ++ []) ≠ (.event event, [])) := by
  have hfirst := @wideState_valid ['c', 'd'] (by decide) (by decide) (by decide)
  have hsecond := @wideState_valid ['e', 'f'] (by decide) (by decide) (by decide)
  refine ⟨wideState_published (by decide) (by decide) (by decide),
    wideState_published (by decide) (by decide) (by decide), fun hread => ?_⟩
  have hformed := replayEvent_formed hfirst hsecond isSha_stateSha isSha_laterSha stateSha_ne
  have hsize := (size_replayEvent hfirst hsecond isSha_stateSha isSha_laterSha stateSha_ne).mp
    ((read_frame hformed []).mp hread)
  rw [eventBytes_wideState (by decide)] at hsize
  exact absurd hsize (by decide)

theorem revision_frame_decoded_sample :
    let event := replayEvent stateSha laterSha (wideState ['c']) (wideState ['d'])
    StreamParser.fresh.read 4
      (writeEvent "revision" event.toDict (some event.revision) ++ []) = (.event event, []) := by
  have hfirst := @wideState_valid ['c'] (by decide) (by decide) (by decide)
  have hsecond := @wideState_valid ['d'] (by decide) (by decide) (by decide)
  refine (revision_frame_decoded hfirst hsecond isSha_stateSha isSha_laterSha stateSha_ne
    []).mpr ?_
  rw [eventBytes_wideState (by decide)]
  decide

end Wide

end Imece.CollabRuntime
