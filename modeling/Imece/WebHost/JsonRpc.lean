import Imece.Lib.Feeding
import Imece.Lib.JsonDataRoundTrip
import Imece.Lib.Transaction
import Imece.Lib.Utf8

/-!
# Framed JSON messages

A message travels behind a header with the length of its body. The decoder reads headers and
bodies off the bytes that arrive; the length is whatever integer the header spells.
-/
namespace Imece.WebHost.JsonRpc

open Lib Lib.CodePoint Lib.Feeding

abbrev Bytes := List UInt8

def byteOf (c : Char) : UInt8 := UInt8.ofNat c.toNat

/-- The bytes of a text of ASCII characters. -/
def ascii (text : String) : Bytes := text.toList.map byteOf

def crlf : Bytes := [13, 10]

def headerEnd : Bytes := crlf ++ crlf

/-- `buf.find(pattern)` -/
def find (pattern : Bytes) : Bytes → Option ℕ
  | [] => if pattern.isEmpty then some 0 else none
  | byte :: rest =>
      if pattern.isPrefixOf (byte :: rest) then some 0 else (find pattern rest).map (· + 1)

/-- `head.split(b"\r\n")` -/
def splitLines : Bytes → List Bytes
  | [] => [[]]
  | 13 :: 10 :: rest => [] :: splitLines rest
  | byte :: rest =>
      match splitLines rest with
      | [] => [[byte]]
      | line :: lines => (byte :: line) :: lines

def isSpace (byte : UInt8) : Bool := byte == 32 || (9 ≤ byte && byte ≤ 13)

def strip (bytes : Bytes) : Bytes :=
  ((bytes.dropWhile isSpace).reverse.dropWhile isSpace).reverse

def lower (byte : UInt8) : UInt8 := if 65 ≤ byte && byte ≤ 90 then byte + 32 else byte

/-- `line.partition(b":")`, without the separator. -/
def partitionColon (line : Bytes) : Bytes × Bytes :=
  (line.takeWhile (· != 58), (line.dropWhile (· != 58)).drop 1)

def isDigit (byte : UInt8) : Bool := 48 ≤ byte && byte ≤ 57

/-- Digits with at most one underscore between two of them. -/
def intDigits : Bytes → Option (List Char)
  | [] => none
  | byte :: rest =>
      if isDigit byte then
        match rest with
        | [] => some [Char.ofNat byte.toNat]
        | 95 :: rest => (intDigits rest).map (Char.ofNat byte.toNat :: ·)
        | rest => (intDigits rest).map (Char.ofNat byte.toNat :: ·)
      else none

def natOf (bytes : Bytes) : Option ℕ :=
  match intDigits bytes with
  | none => none
  | some digits =>
      if Json.maxIntDigits < digits.length then none else some (Nat.ofDigitChars 10 digits 0)

/-- `int(bytes)`; none is its `ValueError`. -/
def intOf (bytes : Bytes) : Option ℤ :=
  match bytes with
  | 45 :: rest => (natOf rest).map fun n => -(n : ℤ)
  | 43 :: rest => (natOf rest).map fun n => (n : ℤ)
  | rest => (natOf rest).map fun n => (n : ℤ)

/-- The last length that a header block spells. -/
def contentLength (head : Bytes) : Option ℤ :=
  (splitLines head).foldl (fun length line =>
    let (key, val) := partitionColon line
    if (strip key).map lower = ascii "content-length" then
      match intOf (strip val) with
      | some n => some n
      | none => length
    else length) none

/-- Where a slice's bound stands in a sequence of `length` items. -/
def sliceIndex (length : ℕ) (bound : ℤ) : ℕ :=
  if bound < 0 then (length + bound).toNat else bound.toNat

/-- `buf[start:stop]` -/
def slice (buf : Bytes) (start stop : ℤ) : Bytes :=
  (buf.take (sliceIndex buf.length stop)).drop (sliceIndex buf.length start)

/-- `buf[start:]` -/
def sliceFrom (buf : Bytes) (start : ℤ) : Bytes := buf.drop (sliceIndex buf.length start)

inductive EncodeError where
  | json (error : JsonDataError)
  | unicode
deriving DecidableEq, Repr

section Codec

variable {φ : Type} (codec : FloatCodec φ)

/-- A message in its frame. `levels` of recursion are left to the call. -/
def encode (levels : ℕ) (msg : JsonData φ) : Except EncodeError Bytes :=
  match JsonData.dumps codec true levels msg with
  | .error e => .error (.json e)
  | .ok text =>
      match text.encodeUtf8 with
      | none => .error .unicode
      | some body =>
          if Json.fitsInt body.length then
            .ok (ascii "Content-Length: " ++ ((Nat.toDigits 10 body.length).map byteOf ++
              (headerEnd ++ body)))
          else .error (.json .digits)

def encodeAll (levels : ℕ) : List (JsonData φ) → Except EncodeError (List Bytes)
  | [] => .ok []
  | msg :: rest => do
      let frame ← encode codec levels msg
      return frame :: (← encodeAll levels rest)

/-- One round of `feed`'s loop over the buffer. A body that is no JSON is dropped; other
exceptions than a `ValueError` leave the call. -/
def round (levels : ℕ) (buf : Bytes) : Round (JsonData φ) UInt8 JsonDataError :=
  match find headerEnd buf with
  | none => .wait
  | some headEnd =>
      match contentLength (buf.take headEnd) with
      | none => .read [] (buf.drop (headEnd + 4))
      | some length =>
          let start := headEnd + 4
          if (buf.length : ℤ) < start + length then .wait
          else
            let body := slice buf start (start + length)
            let left := sliceFrom buf (start + length)
            match JsonData.loads codec levels (Points.ofChars (Utf8.decodeReplace body)) with
            | .ok msg => .read [msg] left
            | .error .recursion => .raised .recursion left
            | .error _ => .read [] left

structure FrameDecoder where
  buf : Bytes := []

/-- `feed(data)`: the buffer it leaves, and the messages or the exception. None is a call with
more rounds than `fuel`. -/
def FrameDecoder.feed (levels fuel : ℕ) (decoder : FrameDecoder) (data : Bytes) :
    Option (Fed (JsonData φ) UInt8 JsonDataError) :=
  drain (round codec levels) fuel (decoder.buf ++ data)

/-- The messages of each of the calls, one for each chunk. -/
def FrameDecoder.feeds (levels fuel : ℕ) (decoder : FrameDecoder) (chunks : List Bytes) :
    Option (Except JsonDataError (List (List (JsonData φ)))) :=
  feedAll (round codec levels) fuel decoder.buf chunks

end Codec

/-- No header block at the front spells a length that takes back the whole block. -/
def InBounds (buf : Bytes) : Prop :=
  ∀ headEnd length, find headerEnd buf = some headEnd →
    contentLength (buf.take headEnd) = some length → 0 < (headEnd + 4 : ℤ) + length

section Finding

variable {buf more : Bytes} {headEnd : ℕ}

lemma find_bound (h : find headerEnd buf = some headEnd) : headEnd + 4 ≤ buf.length := by
  induction buf generalizing headEnd with
  | nil => cases h
  | cons byte rest ih =>
      rw [find] at h
      split at h
      · rename_i hprefix
        cases h
        have hlength := (List.isPrefixOf_iff_prefix.mp hprefix).length_le
        change 4 ≤ _ at hlength
        omega
      · obtain ⟨n, hn, rfl⟩ := Option.map_eq_some_iff.mp h
        have := ih hn
        rw [List.length_cons]
        omega

lemma isPrefixOf_append {pattern : Bytes} (h : pattern.length ≤ buf.length) :
    pattern.isPrefixOf (buf ++ more) = pattern.isPrefixOf buf := by
  rw [Bool.eq_iff_iff, List.isPrefixOf_iff_prefix, List.isPrefixOf_iff_prefix]
  constructor
  · exact fun hprefix => List.prefix_of_prefix_length_le hprefix (List.prefix_append _ _) h
  · exact fun hprefix => hprefix.trans (List.prefix_append _ _)

/-- A header end that is found stays the first one before more bytes. -/
lemma find_append (h : find headerEnd buf = some headEnd) :
    find headerEnd (buf ++ more) = some headEnd := by
  induction buf generalizing headEnd with
  | nil => cases h
  | cons byte rest ih =>
      have hlength := find_bound h
      have hprefix := @isPrefixOf_append (byte :: rest) more headerEnd (by
        change 4 ≤ _
        omega)
      rw [List.cons_append] at hprefix ⊢
      rw [find, hprefix]
      rw [find] at h
      split at h
      · rename_i hfront
        cases h
        rw [if_pos hfront]
      · rename_i hfront
        obtain ⟨n, hn, rfl⟩ := Option.map_eq_some_iff.mp h
        rw [if_neg hfront, ih hn]
        rfl

/-- The first header end behind bytes without a carriage return. -/
lemma find_header {header : Bytes} (h : ∀ byte ∈ header, byte ≠ 13) (rest : Bytes) :
    find headerEnd (header ++ (headerEnd ++ rest)) = some header.length := by
  induction header with
  | nil => rfl
  | cons byte header ih =>
      rw [List.forall_mem_cons] at h
      have hprefix : headerEnd.isPrefixOf (byte :: (header ++ (headerEnd ++ rest))) = false := by
        change ((13 : UInt8) == byte && _) = false
        rw [beq_eq_false_iff_ne.mpr (Ne.symm h.1), Bool.false_and]
      rw [List.cons_append, find, hprefix, ih h.2]
      rfl

end Finding

section Rounds

variable {φ : Type} {codec : FloatCodec φ} {levels : ℕ} {buf more : Bytes} {headEnd : ℕ}
  {length : ℤ}

/-- What a round makes of a body, which `stop` bytes of the buffer end. -/
def readBody (codec : FloatCodec φ) (levels : ℕ) (body left : Bytes) :
    Round (JsonData φ) UInt8 JsonDataError :=
  match JsonData.loads codec levels (Points.ofChars (Utf8.decodeReplace body)) with
  | .ok msg => .read [msg] left
  | .error .recursion => .raised .recursion left
  | .error _ => .read [] left

lemma round_wait (hfind : find headerEnd buf = none) : round codec levels buf = .wait := by
  simp only [round, hfind]

lemma round_junk (hfind : find headerEnd buf = some headEnd)
    (hlength : contentLength (buf.take headEnd) = none) :
    round codec levels buf = .read [] (buf.drop (headEnd + 4)) := by
  simp only [round, hfind, hlength]

/-- A body whose end lies in the buffer, `stop` bytes from its front. -/
lemma round_body {stop : ℕ} (hfind : find headerEnd buf = some headEnd)
    (hlength : contentLength (buf.take headEnd) = some length)
    (hstop : (headEnd + 4 : ℤ) + length = stop) (hfits : stop ≤ buf.length) :
    round codec levels buf =
      readBody codec levels ((buf.take stop).drop (headEnd + 4)) (buf.drop stop) := by
  have hsum : ((headEnd + 4 : ℕ) : ℤ) + length = (stop : ℤ) := by
    rw [← hstop]
    push_cast
    rfl
  have hindex : sliceIndex buf.length (stop : ℤ) = stop := by
    rw [sliceIndex, if_neg (by omega), Int.toNat_natCast]
  have hstart : sliceIndex buf.length ((headEnd + 4 : ℕ) : ℤ) = headEnd + 4 := by
    rw [sliceIndex, if_neg (by omega), Int.toNat_natCast]
  simp only [round, hfind, hlength, hsum]
  rw [if_neg (by omega)]
  simp only [slice, sliceFrom, hindex, hstart, readBody]

lemma round_short (hfind : find headerEnd buf = some headEnd)
    (hlength : contentLength (buf.take headEnd) = some length)
    (hshort : (buf.length : ℤ) < (headEnd + 4 : ℤ) + length) :
    round codec levels buf = .wait := by
  have hsum : (buf.length : ℤ) < ((headEnd + 4 : ℕ) : ℤ) + length := by
    push_cast
    exact hshort
  simp only [round, hfind, hlength]
  rw [if_pos hsum]

/-- What a round does with a buffer in bounds. -/
inductive Shape (codec : FloatCodec φ) (levels : ℕ) (buf : Bytes) : Prop
  | wait (h : round codec levels buf = .wait)
  | junk (headEnd : ℕ) (hfind : find headerEnd buf = some headEnd)
      (hlength : contentLength (buf.take headEnd) = none)
  | body (headEnd stop : ℕ) (length : ℤ) (hfind : find headerEnd buf = some headEnd)
      (hlength : contentLength (buf.take headEnd) = some length)
      (hstop : (headEnd + 4 : ℤ) + length = stop) (hpos : 0 < stop) (hfits : stop ≤ buf.length)

lemma shape_of_inBounds (h : InBounds buf) : Shape codec levels buf := by
  cases hfind : find headerEnd buf with
  | none => exact .wait (round_wait hfind)
  | some headEnd =>
      cases hlength : contentLength (buf.take headEnd) with
      | none => exact .junk headEnd hfind hlength
      | some length =>
          have hpos := h headEnd length hfind hlength
          by_cases hshort : (buf.length : ℤ) < (headEnd + 4 : ℤ) + length
          · exact .wait (round_short hfind hlength hshort)
          · obtain ⟨stop, hstop⟩ := Int.eq_ofNat_of_zero_le (le_of_lt hpos)
            exact .body headEnd stop length hfind hlength hstop (by omega) (by omega)

lemma take_append_of_find (hfind : find headerEnd buf = some headEnd) :
    (buf ++ more).take headEnd = buf.take headEnd := by
  have hbound := find_bound hfind
  exact List.take_append_of_le_length (by omega)

/-- A round that does not wait does the same before more bytes. -/
theorem steady (codec : FloatCodec φ) (levels : ℕ) : Steady (round codec levels) InBounds := by
  have hbody : ∀ {buf more : Bytes} {headEnd stop : ℕ} {length : ℤ},
      find headerEnd buf = some headEnd → contentLength (buf.take headEnd) = some length →
      (headEnd + 4 : ℤ) + length = stop → stop ≤ buf.length →
      round codec levels (buf ++ more) = readBody codec levels
        ((buf.take stop).drop (headEnd + 4)) (buf.drop stop ++ more) := by
    intro buf more headEnd stop length hfind hlength hstop hfits
    rw [round_body (find_append hfind) (by rw [take_append_of_find hfind]; exact hlength) hstop
      (by rw [List.length_append]; omega), List.take_append_of_le_length hfits,
      List.drop_append_of_le_length hfits]
  constructor
  · intro input more h headEnd length hfind hlength
    exact h headEnd length (find_append hfind) (by rw [take_append_of_find hfind]; exact hlength)
  · intro input more messages left hok hread
    rcases @shape_of_inBounds φ codec levels _ hok with
      hwait | ⟨headEnd, hfind, hlength⟩ | ⟨headEnd, stop, length, hfind, hlength, hstop, -, hfits⟩
    · rw [hwait] at hread
      cases hread
    · rw [round_junk hfind hlength] at hread
      cases hread
      have hbound := find_bound hfind
      rw [round_junk (find_append hfind) (by rw [take_append_of_find hfind]; exact hlength),
        List.drop_append_of_le_length hbound]
    · rw [round_body hfind hlength hstop hfits] at hread
      rw [hbody hfind hlength hstop hfits]
      unfold readBody at hread ⊢
      split at hread
      all_goals cases hread
      all_goals rfl
  · intro input more e left hok hraised
    rcases @shape_of_inBounds φ codec levels _ hok with
      hwait | ⟨headEnd, hfind, hlength⟩ | ⟨headEnd, stop, length, hfind, hlength, hstop, -, hfits⟩
    · rw [hwait] at hraised
      cases hraised
    · rw [round_junk hfind hlength] at hraised
      cases hraised
    · rw [round_body hfind hlength hstop hfits] at hraised
      rw [hbody hfind hlength hstop hfits]
      unfold readBody at hraised ⊢
      split at hraised
      all_goals cases hraised
      exact ⟨_, rfl⟩
  · intro input messages left hok hread
    rcases @shape_of_inBounds φ codec levels _ hok with
      hwait | ⟨headEnd, hfind, hlength⟩ | ⟨headEnd, stop, length, hfind, hlength, hstop, hpos, hfits⟩
    · rw [hwait] at hread
      cases hread
    · rw [round_junk hfind hlength] at hread
      cases hread
      have hbound := find_bound hfind
      rw [List.length_drop]
      omega
    · rw [round_body hfind hlength hstop hfits] at hread
      have hleft : left = input.drop stop := by
        unfold readBody at hread
        split at hread
        all_goals cases hread
        all_goals rfl
      rw [hleft, List.length_drop]
      omega

end Rounds

section Headers

lemma digit_byte {c : Char} (h : c.isDigit = true) :
    isDigit (byteOf c) = true ∧ Char.ofNat (byteOf c).toNat = c ∧ isSpace (byteOf c) = false ∧
      byteOf c ≠ 13 ∧ byteOf c ≠ 95 ∧ byteOf c ≠ 45 ∧ byteOf c ≠ 43 := by
  rw [Char.isDigit, Bool.and_eq_true, decide_eq_true_eq, decide_eq_true_eq] at h
  obtain ⟨d, hd, hc⟩ : ∃ d < 10, c.toNat = 48 + d := by
    have hlow : (48 : ℕ) ≤ c.val.toNat := h.1
    have hhigh : c.val.toNat ≤ (57 : ℕ) := h.2
    refine ⟨c.val.toNat - 48, by omega, ?_⟩
    change c.val.toNat = _
    omega
  have hchar : c = Char.ofNat (48 + d) := by rw [← hc, Char.ofNat_toNat]
  subst hchar
  clear h hc
  revert d
  decide

lemma intDigits_digits {cs : List Char} (hne : cs ≠ []) (h : ∀ c ∈ cs, c.isDigit = true) :
    intDigits (cs.map byteOf) = some cs := by
  induction cs with
  | nil => exact absurd rfl hne
  | cons c cs ih =>
      rw [List.forall_mem_cons] at h
      obtain ⟨hdigit, hchar, -⟩ := digit_byte h.1
      cases cs with
      | nil =>
          change (if isDigit (byteOf c) then some [Char.ofNat (byteOf c).toNat] else none) = _
          rw [if_pos hdigit, hchar]
      | cons d cs =>
          have hrest := ih (by simp) h.2
          obtain ⟨-, -, -, -, hunderscore, -⟩ := digit_byte (h.2 d (List.mem_cons_self))
          rw [List.map_cons, intDigits, if_pos hdigit, hchar, hrest]
          · rfl
          · simp
          · intro rest heq
            exact absurd (List.cons.inj heq).1 hunderscore

variable {n : ℕ}

lemma digits_spec (n : ℕ) : Nat.toDigits 10 n ≠ [] ∧ ∀ c ∈ Nat.toDigits 10 n, c.isDigit = true := by
  refine ⟨?_, fun c hc => Nat.isDigit_of_mem_toDigits (by omega) (by omega) hc⟩
  rcases Nat.eq_zero_or_pos n with rfl | hpos
  · decide
  · obtain ⟨c, more, hdigits, -⟩ := Json.toDigits_head hpos
    rw [hdigits]
    simp

lemma intOf_digits (hn : Json.fitsInt n = true) :
    intOf ((Nat.toDigits 10 n).map byteOf) = some (n : ℤ) := by
  obtain ⟨hne, hdigits⟩ := digits_spec n
  have hnat : natOf ((Nat.toDigits 10 n).map byteOf) = some n := by
    rw [Json.fitsInt, decide_eq_true_eq, Int.natAbs_natCast] at hn
    rw [natOf, intDigits_digits hne hdigits]
    simp only
    rw [if_neg (by omega), Nat.ofDigitChars_ten_toDigits]
  obtain ⟨c, more, hcs⟩ := List.exists_cons_of_ne_nil hne
  obtain ⟨-, -, -, -, -, hminus, hplus⟩ := digit_byte (hdigits c (by rw [hcs]; simp))
  unfold intOf
  split
  · rename_i heq
    rw [hcs, List.map_cons] at heq
    exact absurd (List.cons.inj heq).1 hminus
  · rename_i heq
    rw [hcs, List.map_cons] at heq
    exact absurd (List.cons.inj heq).1 hplus
  · rw [hnat]
    rfl

lemma strip_digits {cs : List Char} (h : ∀ c ∈ cs, c.isDigit = true) :
    strip (32 :: cs.map byteOf) = cs.map byteOf := by
  have hkeep : ∀ bytes : Bytes, (∀ byte ∈ bytes, isSpace byte = false) →
      bytes.dropWhile isSpace = bytes := by
    intro bytes hbytes
    cases bytes with
    | nil => rfl
    | cons byte rest => rw [List.dropWhile_cons_of_neg (by simp [hbytes byte])]
  have hspaces : ∀ byte ∈ cs.map byteOf, isSpace byte = false := by
    intro byte hbyte
    obtain ⟨c, hc, rfl⟩ := List.mem_map.mp hbyte
    exact (digit_byte (h c hc)).2.2.1
  rw [strip, List.dropWhile_cons_of_pos rfl, hkeep _ hspaces, hkeep _ (by simpa using hspaces),
    List.reverse_reverse]

lemma splitLines_line {line : Bytes} (h : ∀ byte ∈ line, byte ≠ 13) : splitLines line = [line] := by
  induction line with
  | nil => rfl
  | cons byte rest ih =>
      rw [List.forall_mem_cons] at h
      rw [splitLines, ih h.2]
      intro more hbyte
      exact absurd hbyte h.1

def header (n : ℕ) : Bytes := ascii "Content-Length: " ++ (Nat.toDigits 10 n).map byteOf

lemma header_bytes (n : ℕ) : ∀ byte ∈ header n, byte ≠ 13 := by
  have hname : (ascii "Content-Length: ").all (· != 13) = true := by decide
  rw [header, List.forall_mem_append]
  refine ⟨fun byte hbyte => by simpa using List.all_eq_true.mp hname byte hbyte,
    fun byte hbyte => ?_⟩
  obtain ⟨c, hc, rfl⟩ := List.mem_map.mp hbyte
  exact (digit_byte ((digits_spec n).2 c hc)).2.2.2.1

/-- The header of a body of `n` bytes spells `n`. -/
lemma contentLength_header (hn : Json.fitsInt n = true) :
    contentLength (header n) = some (n : ℤ) := by
  have hparts : partitionColon (header n) =
      (ascii "Content-Length", 32 :: (Nat.toDigits 10 n).map byteOf) := rfl
  have hkey : (strip (ascii "Content-Length")).map lower = ascii "content-length" := by decide
  rw [contentLength, splitLines_line (header_bytes n)]
  simp only [List.foldl_cons, List.foldl_nil, hparts, hkey, if_true,
    strip_digits (digits_spec n).2, intOf_digits hn]

end Headers

section Messages

variable {φ : Type} {codec : FloatCodec φ} {levels written : ℕ}

/-- A message that can be read again: an object with finite floats and distinct keys, nested no
deeper than the reader can go. -/
structure Readable (codec : FloatCodec φ) (levels : ℕ) (msg : JsonData φ) : Prop where
  isObject : ∃ members, msg = .obj members
  valid : JsonData.valid codec msg = true
  nesting : JsonData.nesting msg ≤ levels

/-- A message that is written: integers that `str` prints, nested no deeper than the writer can
go, no lone surrogate, and a body whose length can be printed. -/
structure Writable (codec : FloatCodec φ) (written : ℕ) (msg : JsonData φ) : Prop where
  plain : JsonData.plain codec msg = true
  nesting : JsonData.nesting msg ≤ written
  surrogates : msg.hasSurrogate = false
  size : ∀ body, (JsonData.render codec msg).encodeUtf8 = some body →
    Json.fitsInt body.length = true

/-- Of the messages that can be read again these are the ones that `encode` does not refuse. -/
lemma encode_iff {msg : JsonData φ} (hmsg : Readable codec levels msg) :
    (∃ frame, encode codec written msg = .ok frame) ↔ Writable codec written msg := by
  constructor
  · rintro ⟨frame, h⟩
    unfold encode at h
    split at h
    · cases h
    · rename_i text htext
      obtain ⟨⟨hplain, hnesting⟩, rfl⟩ := (JsonData.dumps_eq_ok hmsg.valid).mp htext
      split at h
      · cases h
      · rename_i body hbody
        split at h
        · rename_i hfits
          refine ⟨hplain, hnesting, ?_, ?_⟩
          · rw [← @JsonData.render_hasSurrogate _ codec, ← Bool.not_eq_true,
              ← Points.encodeUtf8_eq_none, hbody]
            simp
          · intro other hother
            rw [hbody] at hother
            cases hother
            exact hfits
        · cases h
  · intro h
    have htext : JsonData.dumps codec true written msg = .ok (JsonData.render codec msg) :=
      (JsonData.dumps_eq_ok hmsg.valid).mpr ⟨⟨h.plain, h.nesting⟩, rfl⟩
    have hsome : (JsonData.render codec msg).encodeUtf8 ≠ none := by
      rw [ne_eq, Points.encodeUtf8_eq_none, JsonData.render_hasSurrogate, h.surrogates]
      decide
    obtain ⟨body, hbody⟩ := Option.ne_none_iff_exists'.mp hsome
    simp only [encode, htext, hbody]
    rw [if_pos (h.size body hbody)]
    exact ⟨_, rfl⟩

lemma encodeAll_iff {msgs : List (JsonData φ)} (hmsgs : ∀ msg ∈ msgs, Readable codec levels msg) :
    (∃ frames, encodeAll codec written msgs = .ok frames) ↔
      ∀ msg ∈ msgs, Writable codec written msg := by
  induction msgs with
  | nil => simp [encodeAll]
  | cons msg rest ih =>
      rw [List.forall_mem_cons] at hmsgs
      rw [List.forall_mem_cons, ← encode_iff hmsgs.1, ← ih hmsgs.2]
      simp only [encodeAll, except_bind_eq_ok, pure, Except.pure, Except.ok.injEq]
      constructor
      · rintro ⟨_, frame, hframe, frames, hframes, rfl⟩
        exact ⟨⟨frame, hframe⟩, ⟨frames, hframes⟩⟩
      · rintro ⟨⟨frame, hframe⟩, ⟨frames, hframes⟩⟩
        exact ⟨_, frame, hframe, frames, hframes, rfl⟩

/-- A frame is read as its message, whatever follows it. -/
lemma encode_frame {msg : JsonData φ} {frame : Bytes} (hmsg : Readable codec levels msg)
    (h : encode codec written msg = .ok frame) :
    Frame (round codec levels) InBounds frame msg := by
  unfold encode at h
  split at h
  · cases h
  · rename_i text htext
    split at h
    · cases h
    · rename_i body hbody
      split at h
      · rename_i hfits
        have hframe : frame = header body.length ++ (headerEnd ++ body) := by
          rw [header, List.append_assoc]
          exact (Except.ok.inj h).symm
        have hfind (more : Bytes) : find headerEnd (frame ++ more) =
            some (header body.length).length := by
          rw [hframe, List.append_assoc, List.append_assoc]
          exact find_header (header_bytes _) (body ++ more)
        have htake (more : Bytes) : (frame ++ more).take (header body.length).length =
            header body.length := by
          rw [hframe, List.append_assoc, List.take_left]
        have hlength (more : Bytes) : contentLength ((frame ++ more).take
            (header body.length).length) = some (body.length : ℤ) := by
          rw [htake, contentLength_header hfits]
        constructor
        · intro more headEnd length hfound hspelled
          rw [hfind] at hfound
          cases hfound
          rw [hlength] at hspelled
          cases hspelled
          omega
        · intro more
          have hsize : frame.length = (header body.length).length + 4 + body.length := by
            rw [hframe, List.length_append, List.length_append]
            change _ + (4 + _) = _
            omega
          have hfront : frame.drop ((header body.length).length + 4) = body := by
            rw [hframe, ← List.append_assoc]
            exact List.drop_left' (by rw [List.length_append]; rfl)
          have hloads : JsonData.loads codec levels (Points.ofChars (Utf8.decodeReplace body)) =
              .ok msg := by
            rw [Utf8.decodeReplace_encodeUtf8 hbody]
            exact JsonData.loads_dumps hmsg.valid htext hmsg.nesting
          have hstop : ((header body.length).length + 4 : ℤ) + body.length = frame.length := by
            omega
          rw [round_body (hfind more) (hlength more) hstop (by rw [List.length_append]; omega),
            List.take_left, List.drop_left, hfront, readBody, hloads]
      · cases h

lemma encodeAll_frames {msgs : List (JsonData φ)} {frames : List Bytes}
    (hmsgs : ∀ msg ∈ msgs, Readable codec levels msg)
    (h : encodeAll codec written msgs = .ok frames) :
    List.Forall₂ (Frame (round codec levels) InBounds) frames msgs := by
  induction msgs generalizing frames with
  | nil =>
      cases h
      exact .nil
  | cons msg rest ih =>
      rw [List.forall_mem_cons] at hmsgs
      rw [encodeAll] at h
      cases hframe : encode codec written msg with
      | error e =>
          rw [hframe] at h
          cases h
      | ok frame =>
          cases hrest : encodeAll codec written rest with
          | error e =>
              rw [hframe, hrest] at h
              cases h
          | ok others =>
              rw [hframe, hrest] at h
              cases h
              exact .cons (encode_frame hmsgs.1 hframe) (ih hmsgs.2 hrest)

/-- A header that takes back exactly its block, or the whole buffer and more, is read again and
again. -/
lemma round_stuck {buf : Bytes} {headEnd : ℕ} {length : ℤ}
    (hfind : find headerEnd buf = some headEnd)
    (hlength : contentLength (buf.take headEnd) = some length)
    (hback : (headEnd + 4 : ℤ) + length = 0 ∨ (headEnd + 4 : ℤ) + length ≤ -buf.length) :
    round codec levels buf = .read [] buf := by
  have hindex : sliceIndex buf.length (((headEnd + 4 : ℕ) : ℤ) + length) = 0 := by
    rw [sliceIndex]
    push_cast
    split <;> omega
  simp only [round, hfind, hlength]
  rw [if_neg (by push_cast; omega)]
  simp only [slice, sliceFrom, hindex, List.take_zero, List.drop_nil, List.drop_zero]
  rfl

/-- Where no header block takes itself back and no body exceeds the recursion limit, every call
ends and the messages do not depend on the chunks; messages are encoded exactly if each is
writable, and they come back, however they are cut; and a buffer that a header takes back is never
left. -/
theorem frames_delivered (codec : FloatCodec φ) (levels : ℕ) :
    (∀ stream, Feeding.Readable (round codec levels) InBounds stream → ∃ msgs, ∀ chunks,
      chunks.flatten = stream → ∀ fuel, stream.length < fuel → ∃ outs,
        FrameDecoder.feeds codec levels fuel {} chunks = some (.ok outs) ∧ outs.flatten = msgs) ∧
    (∀ written msgs, (∀ msg ∈ msgs, Readable codec levels msg) →
      ((∃ frames, encodeAll codec written msgs = .ok frames) ↔
        ∀ msg ∈ msgs, Writable codec written msg) ∧
      ∀ frames, encodeAll codec written msgs = .ok frames →
        ∀ chunks, chunks.flatten = frames.flatten → ∀ fuel, frames.flatten.length < fuel →
          ∃ outs, FrameDecoder.feeds codec levels fuel {} chunks = some (.ok outs) ∧
            outs.flatten = msgs) ∧
    (∀ decoder data headEnd length,
      let buf := FrameDecoder.buf decoder ++ data
      find headerEnd buf = some headEnd → contentLength (buf.take headEnd) = some length →
      ((headEnd + 4 : ℤ) + length = 0 ∨ (headEnd + 4 : ℤ) + length ≤ -buf.length) →
        ∀ fuel, decoder.feed codec levels fuel data = none) := by
  have hempty : round codec levels [] = .wait := rfl
  have hsteady := steady codec levels
  have hfeeds : ∀ {stream : Bytes} {msgs : List (JsonData φ)} {last : Bytes},
      Feeding.Readable (round codec levels) InBounds stream →
      Drains (round codec levels) stream msgs last → ∀ chunks, chunks.flatten = stream →
        ∀ fuel, stream.length < fuel → ∃ outs,
          FrameDecoder.feeds codec levels fuel {} chunks = some (.ok outs) ∧
            outs.flatten = msgs := by
    rintro stream msgs last hstream hdrains chunks rfl fuel hfuel
    exact feedAll_messages hsteady hstream hempty hdrains (by simpa using hfuel)
  refine ⟨fun stream hstream => ?_, fun written msgs hmsgs => ⟨encodeAll_iff hmsgs, ?_⟩, ?_⟩
  · obtain ⟨msgs, last, hdrains⟩ := hstream.drains hsteady
    exact ⟨msgs, hfeeds hstream hdrains⟩
  · intro frames hframes
    obtain ⟨hstream, hdrains⟩ := frames_drain hempty (fun _ _ h => by cases h)
      (encodeAll_frames hmsgs hframes)
    exact hfeeds hstream hdrains
  · intro decoder data headEnd length buf hfind hlength hback fuel
    exact drain_stuck (round_stuck hfind hlength hback) fuel

end Messages

section Sample

lemma noFloats_literal : ∀ x : Unit, (fun _ : Unit => false) x = true →
    FloatLiteral ((fun _ : Unit => "NaN".toList) x) := by
  intro _ h
  cases h

lemma noFloats_parse : ∀ x : Unit, (fun _ : Unit => false) x = true →
    (fun _ : List Char => ()) ((fun _ : Unit => "NaN".toList) x) = x := by
  intro _ h
  cases h

/-- Floats that are all not a number. -/
def noFloats : FloatCodec Unit where
  isFinite _ := false
  text _ := "NaN".toList
  parse _ := ()
  constant _ := ()
  literal := noFloats_literal
  parse_text := noFloats_parse

/-- Two messages, cut inside a header and inside a character of two bytes. -/
theorem frames_delivered_sample :
    let first : JsonData Unit := .obj [(Points.ofString "a", .str (Points.ofString "é"))]
    let frames : List Bytes :=
      [ascii "Content-Length: 11\r\n\r\n\x7b\"a\": \"" ++ ([0xc3, 0xa9] ++ ascii "\"\x7d"),
        ascii "Content-Length: 2\r\n\r\n\x7b\x7d"]
    ∃ outs, FrameDecoder.feeds noFloats 100 100 {}
      [frames.flatten.take 5, (frames.flatten.drop 5).take 25, frames.flatten.drop 30] =
        some (.ok outs) ∧ outs.flatten = [first, .obj []] := by
  intro first frames
  have hmsgs : ∀ msg ∈ [first, .obj []], Readable noFloats 100 msg := by
    intro msg hmsg
    simp only [List.mem_cons, List.not_mem_nil, or_false] at hmsg
    rcases hmsg with rfl | rfl
    · exact ⟨⟨_, rfl⟩, by decide, by decide⟩
    · exact ⟨⟨[], rfl⟩, by decide, by decide⟩
  have hframes : encodeAll noFloats 100 [first, .obj []] = .ok frames := by decide +kernel
  exact ((frames_delivered noFloats 100).2.1 100 [first, .obj []] hmsgs).2 frames hframes _
    (by decide) 100 (by decide)

/-- A header whose length takes back its 23 bytes, and a message that is not written. -/
theorem negative_length_loops :
    (¬ ∃ fuel, (FrameDecoder.feed noFloats 100 fuel {}
      (ascii "Content-Length: -23\r\n\r\n")).isSome = true) ∧
    encode noFloats 100 (.obj [(Points.ofString "a", .str [.surrogate 0])]) = .error .unicode := by
  refine ⟨?_, by decide +kernel⟩
  rintro ⟨fuel, h⟩
  have hfind : find headerEnd (ascii "Content-Length: -23\r\n\r\n") = some 19 := by decide
  have hlength : contentLength ((ascii "Content-Length: -23\r\n\r\n").take 19) = some (-23) := by
    decide +kernel
  have hround := @round_stuck Unit noFloats 100 _ _ _ hfind hlength (Or.inl rfl)
  rw [FrameDecoder.feed, List.nil_append, drain_stuck hround] at h
  cases h

end Sample

end Imece.WebHost.JsonRpc
