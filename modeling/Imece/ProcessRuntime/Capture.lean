import Imece.Lib.Utf8Cuts
import Mathlib.Data.List.DropRight

/-!
# Bounded capture of a pipe

The reads of a pipe fill a head and then a tail that drops its oldest bytes. The text depends on
the bytes that came, not on how the reads cut them.
-/
namespace Imece.ProcessRuntime

open Lib

def captureLimit : ℕ := 64 * 1024

/-- What one read of a pipe gives. An empty chunk is the end of the stream. -/
inductive Read (ε : Type) where
  | chunk (bytes : List UInt8)
  | raised (error : ε)

structure BoundedCapture (ε : Type) where
  limit : ℕ
  head : List UInt8 := []
  tail : List UInt8 := []
  total : ℕ := 0
  error : Option ε := none
  positive : 0 < limit

namespace BoundedCapture

variable {ε : Type}

/-- `BoundedCapture(limit)`; the message is the one of a `ValueError`. -/
def make (limit : ℤ := captureLimit) : Except String (BoundedCapture ε) :=
  if h : 0 < limit.toNat then .ok { limit := limit.toNat, positive := h }
  else .error "BoundedCapture.limit must be a positive integer"

section Consuming

variable (capture : BoundedCapture ε)

def headLimit : ℕ := capture.limit / 2

def tailLimit : ℕ := capture.limit - capture.headLimit

/-- The tail with the bytes that the head did not take. -/
def extended (rest : List UInt8) : List UInt8 :=
  if rest = [] then capture.tail
  else
    let tail := capture.tail ++ rest
    if capture.tailLimit < tail.length then tail.drop (tail.length - capture.tailLimit) else tail

/-- One turn of the loop of `consume`. -/
def add (chunk : List UInt8) : BoundedCapture ε :=
  let take :=
    if capture.head.length < capture.headLimit then
      min (capture.headLimit - capture.head.length) chunk.length
    else 0
  { capture with
    total := capture.total + chunk.length
    head := capture.head ++ chunk.take take
    tail := capture.extended (chunk.drop take) }

def consume (capture : BoundedCapture ε) : List (Read ε) → BoundedCapture ε
  | [] => capture
  | .raised error :: _ => { capture with error := some error }
  | .chunk [] :: _ => capture
  | .chunk (byte :: bytes) :: rest => (capture.add (byte :: bytes)).consume rest

def truncated : Bool := capture.limit < capture.total

/-- The line that stands for the bytes left out. -/
def marker (omitted : ℕ) : List Char := s!"\n... <{omitted} bytes omitted> ...\n".toList

def text : List Char :=
  let data :=
    if capture.truncated then
      let omitted := capture.total - capture.head.length - capture.tail.length
      capture.head ++ Utf8.encode (marker omitted) ++ capture.tail
    else capture.head ++ capture.tail
  Utf8.decodeReplace data

end Consuming

/-- The bytes that the reads of a pipe give, up to its end or to the read that raises. -/
def received : List (Read ε) → List UInt8
  | [] => []
  | .raised _ :: _ => []
  | .chunk [] :: _ => []
  | .chunk (byte :: bytes) :: rest => byte :: bytes ++ received rest

/-- A capture holds the beginning and the end of what it has consumed. -/
structure Holds (capture : BoundedCapture ε) (stream : List UInt8) : Prop where
  head : capture.head = stream.take capture.headLimit
  tail : capture.tail = (stream.drop capture.headLimit).rtake capture.tailLimit
  total : capture.total = stream.length

lemma rtake_rtake_append (stream more : List UInt8) (n : ℕ) :
    (stream.rtake n ++ more).rtake n = (stream ++ more).rtake n := by
  rw [List.rtake, List.rtake, List.rtake, List.length_append, List.length_append,
    List.length_drop, List.drop_append, List.drop_append, List.drop_drop, List.length_drop]
  congr 2
  · omega
  · omega

lemma extended_eq {capture : BoundedCapture ε} (h : capture.tail.length ≤ capture.tailLimit)
    (rest : List UInt8) :
    capture.extended rest = (capture.tail ++ rest).rtake capture.tailLimit := by
  unfold extended List.rtake
  by_cases hrest : rest = []
  · rw [if_pos hrest, hrest, List.append_nil, Nat.sub_eq_zero_of_le h, List.drop_zero]
  · rw [if_neg hrest]
    by_cases hlong : capture.tailLimit < (capture.tail ++ rest).length
    · simp only [hlong, if_true]
    · simp only [hlong, if_false]
      rw [Nat.sub_eq_zero_of_le (by omega), List.drop_zero]

lemma Holds.tail_length {capture : BoundedCapture ε} {stream : List UInt8}
    (h : capture.Holds stream) : capture.tail.length ≤ capture.tailLimit := by
  rw [h.tail, List.rtake, List.length_drop]
  omega

lemma Holds.add {capture : BoundedCapture ε} {stream : List UInt8} (h : capture.Holds stream)
    (chunk : List UInt8) : (capture.add chunk).Holds (stream ++ chunk) := by
  have hhead : capture.head.length = min capture.headLimit stream.length := by
    rw [h.head, List.length_take]
  -- what the head takes is what it still has room for
  have htake : (if capture.head.length < capture.headLimit then
      min (capture.headLimit - capture.head.length) chunk.length else 0) =
        min (capture.headLimit - stream.length) chunk.length := by
    split <;> omega
  constructor
  · change capture.head ++ chunk.take _ = (stream ++ chunk).take capture.headLimit
    rw [htake, h.head, List.take_append, ← List.take_eq_take_min]
  · change capture.extended (chunk.drop _) =
      ((stream ++ chunk).drop capture.headLimit).rtake capture.tailLimit
    rw [htake, extended_eq h.tail_length, h.tail, rtake_rtake_append, List.drop_append]
    congr 2
    rcases Nat.le_total (capture.headLimit - stream.length) chunk.length with hle | hle
    · rw [min_eq_left hle]
    · rw [min_eq_right hle, List.drop_length, List.drop_eq_nil_of_le hle]
  · change capture.total + chunk.length = (stream ++ chunk).length
    rw [h.total, List.length_append]

lemma Holds.consume {capture : BoundedCapture ε} {stream : List UInt8} (h : capture.Holds stream)
    (reads : List (Read ε)) :
    (capture.consume reads).limit = capture.limit ∧
      (capture.consume reads).Holds (stream ++ received reads) := by
  induction reads generalizing capture stream with
  | nil => exact ⟨rfl, by rw [received, List.append_nil]; exact h⟩
  | cons read rest ih =>
      cases read with
      | raised error =>
          rw [received, List.append_nil]
          exact ⟨rfl, h.head, h.tail, h.total⟩
      | chunk bytes =>
          cases bytes with
          | nil =>
              rw [received, List.append_nil]
              exact ⟨rfl, h⟩
          | cons byte bytes =>
              have hrest := ih (h.add (byte :: bytes))
              rw [received, ← List.append_assoc]
              exact hrest

lemma marker_head (omitted : ℕ) : ∃ rest, marker omitted = '\n' :: rest := by
  have hfirst : "\n... <".toList = ['\n', '.', '.', '.', ' ', '<'] := String.toList_ofList
  change ∃ rest, (("\n... <" ++ toString omitted) ++ " bytes omitted> ...\n").toList = '\n' :: rest
  rw [String.toList_append, String.toList_append, hfirst, List.cons_append, List.cons_append]
  exact ⟨_, rfl⟩

/-- The marker is decoded to itself, and cuts no character of what is around it. -/
lemma decode_marked (head tail : List UInt8) (omitted : ℕ) :
    Utf8.decodeReplace (head ++ Utf8.encode (marker omitted) ++ tail) =
      Utf8.decodeReplace head ++ (marker omitted ++ Utf8.decodeReplace tail) := by
  obtain ⟨rest, hmarker⟩ := marker_head omitted
  have hbytes : head ++ Utf8.encode (marker omitted) ++ tail =
      head ++ (10 :: (Utf8.encode rest ++ tail)) := by
    rw [List.append_assoc, hmarker]
    rfl
  have hlength : head.length < (head ++ (10 :: (Utf8.encode rest ++ tail))).length := by
    rw [List.length_append, List.length_cons]
    omega
  have hboundary : Utf8.Boundary (head ++ (10 :: (Utf8.encode rest ++ tail))) head.length := by
    apply Utf8.boundary_of_first hlength
    rw [List.getElem_append_right (le_refl _)]
    simp only [Nat.sub_self, List.getElem_cons_zero]
    decide
  have hback : (10 :: (Utf8.encode rest ++ tail)) = Utf8.encode (marker omitted) ++ tail := by
    rw [hmarker]
    rfl
  rw [hbytes, (Utf8.decode_cut _ _).1 hboundary, hback, Utf8.decodeReplace_encode_append]

/-- A capture that holds a stream gives the text of it, with what it left out. -/
lemma Holds.text {capture : BoundedCapture ε} {stream : List UInt8} (h : capture.Holds stream) :
    capture.text =
      if stream.length ≤ capture.limit then Utf8.decodeReplace stream
      else Utf8.decodeReplace (stream.take (capture.limit / 2)) ++
        (marker (stream.length - capture.limit) ++ Utf8.decodeReplace
          (stream.drop (stream.length - (capture.limit - capture.limit / 2)))) := by
  have hhead : capture.headLimit = capture.limit / 2 := rfl
  have htail : capture.tailLimit = capture.limit - capture.limit / 2 := rfl
  unfold BoundedCapture.text truncated
  rw [h.total]
  by_cases hlong : stream.length ≤ capture.limit
  · have hwhole : (stream.drop capture.headLimit).rtake capture.tailLimit =
        stream.drop capture.headLimit := by
      rw [List.rtake, List.length_drop, Nat.sub_eq_zero_of_le (by omega), List.drop_zero]
    rw [if_pos hlong, if_neg (by simpa using hlong), h.head, h.tail, hwhole, List.take_append_drop]
  · have hback : (stream.drop capture.headLimit).rtake capture.tailLimit =
        stream.drop (stream.length - (capture.limit - capture.limit / 2)) := by
      rw [List.rtake, List.length_drop, List.drop_drop]
      congr 1
      omega
    have homitted : stream.length - capture.head.length - capture.tail.length =
        stream.length - capture.limit := by
      rw [h.head, h.tail, hback, List.length_take, List.length_drop]
      omega
    rw [if_neg hlong, if_pos (by simpa using hlong)]
    simp only [homitted]
    rw [decode_marked, h.head, h.tail, hback, hhead]

/-- The text of a capture is a function of its limit and of the bytes that came: all of them, or
the first half of the limit, a line with the exact number left out, and the rest of the limit from
the end. -/
theorem text_of_stream {limit : ℤ} {capture : BoundedCapture ε} (hmake : make limit = .ok capture)
    (reads : List (Read ε)) :
    let stream := received reads
    let limit := limit.toNat
    (capture.consume reads).text =
      if stream.length ≤ limit then Utf8.decodeReplace stream
      else Utf8.decodeReplace (stream.take (limit / 2)) ++
        (marker (stream.length - limit) ++
          Utf8.decodeReplace (stream.drop (stream.length - (limit - limit / 2)))) := by
  intro stream bound
  unfold make at hmake
  split at hmake
  · cases hmake
    have hempty : (⟨limit.toNat, [], [], 0, none, ‹_›⟩ : BoundedCapture ε).Holds [] := by
      constructor
      · rw [List.take_nil]
      · rw [List.drop_nil, List.rtake_nil]
      · rfl
    obtain ⟨hlimit, hholds⟩ := hempty.consume reads
    rw [List.nil_append] at hholds
    have htext := hholds.text
    rw [hlimit] at htext
    exact htext
  · cases hmake

/-- Six bytes in two reads, of which a capture of four keeps two and two. -/
theorem text_of_stream_sample :
    ∃ capture : BoundedCapture Unit, make 4 = .ok capture ∧
      (capture.consume [.chunk [97, 98, 99], .chunk [100, 101, 102]]).text =
        "ab\n... <2 bytes omitted> ...\nef".toList := by
  have hmake : (make 4 : Except String (BoundedCapture Unit)) =
      .ok ⟨4, [], [], 0, none, by decide⟩ := rfl
  refine ⟨_, hmake, ?_⟩
  rw [text_of_stream hmake]
  decide +kernel

end BoundedCapture

end Imece.ProcessRuntime
