import Imece.Lib.Utf8Cuts

/-!
# The output of a program

A thread reads the output and decodes each read by itself; the main thread buffers the texts and
emits them when a timer fires, when the buffer is full, and before the exit.
-/
namespace Imece.WebHost

open Lib

/-- Whose output it is: `exec.*` or `debug.*`. -/
inductive Channel where
  | exec
  | debug
deriving DecidableEq, Repr

inductive Emitted where
  | output (data : List Char)
  | exited (code : ℤ)
deriving DecidableEq

/-- The code of the exit event; a debug adapter may have reported one before. -/
def Channel.final : Channel → ℤ → Option ℤ → ℤ
  | .exec, code, _ => code
  | .debug, code, reported => reported.getD code

structure OutputBuffer where
  buf : List (List Char) := []
  bufLen : ℕ := 0
  timer : Bool := false
  emitted : List Emitted := []

namespace OutputBuffer

/-- A buffer of this many characters is emitted at once. -/
def flushMax : ℕ := 256 * 1024

variable (buffer : OutputBuffer)

def emit (event : Emitted) : OutputBuffer := { buffer with emitted := buffer.emitted ++ [event] }

/-- `_flush`, `_flush_out` -/
def flush : OutputBuffer :=
  if buffer.buf = [] then { buffer with timer := false }
  else ({ buffer with buf := [], bufLen := 0, timer := false } : OutputBuffer).emit
    (.output buffer.buf.flatten)

/-- `_on_chunk`, `_on_out_chunk` -/
def onChunk (data : List Char) : OutputBuffer :=
  let buffer := { buffer with buf := buffer.buf ++ [data], bufLen := buffer.bufLen + data.length }
  if buffer.bufLen ≥ flushMax then buffer.flush else { buffer with timer := true }

/-- The timer's `timeout`. -/
def onTimeout : OutputBuffer := if buffer.timer then buffer.flush else buffer

/-- `_on_exit`, `_on_proc_exited` -/
def onExit (channel : Channel) (code : ℤ) (reported : Option ℤ) : OutputBuffer :=
  buffer.flush.emit (.exited (channel.final code reported))

end OutputBuffer

/-- What reaches the main thread: the reader's signals in their order, and the timer between them. -/
inductive StreamMove where
  | chunk (data : List Char)
  | timeout
  | exited (code : ℤ) (reported : Option ℤ)

def StreamMove.isSignal : StreamMove → Bool
  | .timeout => false
  | _ => true

/-- The reader: each read decoded by itself, then the exit. -/
def signals (reads : List (List UInt8)) (code : ℤ) (reported : Option ℤ) : List StreamMove :=
  reads.map (fun data => .chunk (Utf8.decodeReplace data)) ++ [.exited code reported]

def streamStep (channel : Channel) (buffer : OutputBuffer) : StreamMove → OutputBuffer
  | .chunk data => buffer.onChunk data
  | .timeout => buffer.onTimeout
  | .exited code reported => buffer.onExit channel code reported

def stream (channel : Channel) (moves : List StreamMove) : OutputBuffer :=
  moves.foldl (streamStep channel) {}

section Runs

variable {buffer : OutputBuffer} {text : List Char} {channel : Channel}

/-- What was received is emitted or kept, in order. -/
def Streams (buffer : OutputBuffer) (text : List Char) : Prop :=
  ∃ parts : List (List Char), buffer.emitted = parts.map .output ∧
    parts.flatten ++ buffer.buf.flatten = text

lemma Streams.flush (h : Streams buffer text) :
    Streams buffer.flush text ∧ buffer.flush.buf = [] := by
  obtain ⟨parts, hemitted, htext⟩ := h
  rw [OutputBuffer.flush]
  by_cases hbuf : buffer.buf = []
  · rw [if_pos hbuf]
    exact ⟨⟨parts, hemitted, htext⟩, hbuf⟩
  · rw [if_neg hbuf]
    refine ⟨⟨parts ++ [buffer.buf.flatten], ?_, ?_⟩, rfl⟩
    · simp [OutputBuffer.emit, hemitted]
    · simpa [OutputBuffer.emit] using htext

lemma Streams.onChunk (h : Streams buffer text) (data : List Char) :
    Streams (buffer.onChunk data) (text ++ data) := by
  obtain ⟨parts, hemitted, htext⟩ := h
  have hkept (bufLen : ℕ) (timer : Bool) :
      Streams ⟨buffer.buf ++ [data], bufLen, timer, buffer.emitted⟩ (text ++ data) := by
    refine ⟨parts, hemitted, ?_⟩
    rw [← htext]
    simp
  rw [OutputBuffer.onChunk]
  dsimp only
  split
  · exact (hkept _ _).flush.1
  · exact hkept _ _

lemma Streams.onTimeout (h : Streams buffer text) : Streams buffer.onTimeout text := by
  rw [OutputBuffer.onTimeout]
  split
  · exact h.flush.1
  · exact h

/-- The exit event comes after all that was received. -/
lemma Streams.onExit (h : Streams buffer text) (code : ℤ) (reported : Option ℤ) :
    (buffer.onExit channel code reported).buf = [] ∧
      ∃ parts : List (List Char), (buffer.onExit channel code reported).emitted =
        parts.map .output ++ [.exited (channel.final code reported)] ∧ parts.flatten = text := by
  obtain ⟨⟨parts, hemitted, htext⟩, hbuf⟩ := h.flush
  rw [hbuf, List.flatten_nil, List.append_nil] at htext
  refine ⟨hbuf, parts, ?_, htext⟩
  rw [OutputBuffer.onExit, OutputBuffer.emit, hemitted]

/-- With an empty buffer the timer emits nothing. -/
lemma timeouts_silent {moves : List StreamMove} (hmoves : moves.filter StreamMove.isSignal = [])
    (hbuf : buffer.buf = []) :
    (moves.foldl (streamStep channel) buffer).emitted = buffer.emitted := by
  induction moves generalizing buffer with
  | nil => rfl
  | cons move moves ih =>
      cases move with
      | timeout =>
          have hquiet : buffer.onTimeout.buf = [] ∧ buffer.onTimeout.emitted = buffer.emitted := by
            rw [OutputBuffer.onTimeout, OutputBuffer.flush, if_pos hbuf]
            split
            · exact ⟨hbuf, rfl⟩
            · exact ⟨hbuf, rfl⟩
          rw [List.foldl_cons, streamStep, ih (by simpa [StreamMove.isSignal] using hmoves) hquiet.1, hquiet.2]
      | chunk data => simp [StreamMove.isSignal] at hmoves
      | exited code reported => simp [StreamMove.isSignal] at hmoves

/-- In any order of signals and timeouts, all is emitted before the exit, read by read. -/
theorem stream_emitted {moves : List StreamMove} {reads : List (List UInt8)} {code : ℤ}
    {reported : Option ℤ} (h : Streams buffer text)
    (hmoves : moves.filter StreamMove.isSignal = signals reads code reported) :
    ∃ parts : List (List Char), (moves.foldl (streamStep channel) buffer).emitted =
        parts.map .output ++ [.exited (channel.final code reported)] ∧
      parts.flatten = text ++ (reads.map Utf8.decodeReplace).flatten := by
  induction moves generalizing buffer text reads with
  | nil => cases reads <;> cases hmoves
  | cons move moves ih =>
      rw [List.foldl_cons]
      cases move with
      | timeout => exact ih h.onTimeout (by simpa [StreamMove.isSignal] using hmoves)
      | chunk data =>
          rw [List.filter_cons_of_pos rfl] at hmoves
          cases reads with
          | nil => cases hmoves
          | cons read reads =>
              rw [signals, List.map_cons, List.cons_append] at hmoves
              obtain ⟨hdata, hrest⟩ := List.cons.inj hmoves
              obtain rfl := StreamMove.chunk.inj hdata
              rw [List.map_cons, List.flatten_cons, ← List.append_assoc]
              exact ih (h.onChunk _) hrest
      | exited code' reported' =>
          rw [List.filter_cons_of_pos rfl] at hmoves
          cases reads with
          | cons read reads => cases hmoves
          | nil =>
              obtain ⟨hexit, hrest⟩ := List.cons.inj hmoves
              obtain ⟨rfl, rfl⟩ := StreamMove.exited.inj hexit
              obtain ⟨hbuf, parts, hemitted, htext⟩ := @Streams.onExit _ _ channel h code' reported'
              refine ⟨parts, ?_, by simpa using htext⟩
              exact (timeouts_silent hrest hbuf).trans hemitted

/-- All output is emitted before the exit, and decodes as a whole exactly if every read ends between
two units of the decoder. -/
theorem stream_decodes_iff {moves : List StreamMove} {reads : List (List UInt8)} {code : ℤ}
    {reported : Option ℤ} (channel : Channel)
    (hmoves : moves.filter StreamMove.isSignal = signals reads code reported) :
    (∃ parts : List (List Char), (stream channel moves).emitted =
        parts.map .output ++ [.exited (channel.final code reported)] ∧
      parts.flatten = Utf8.decodeReplace reads.flatten) ↔
    ∀ front back, reads = front ++ back → Utf8.Boundary reads.flatten front.flatten.length := by
  have hempty : Streams {} [] := ⟨[], rfl, rfl⟩
  obtain ⟨parts, hemitted, htext⟩ := @stream_emitted _ _ channel _ _ _ _ hempty hmoves
  rw [List.nil_append] at htext
  rw [← Utf8.decode_pieces, ← htext]
  constructor
  · intro ⟨other, hother, hwhole⟩
    rw [stream, hemitted] at hother
    have hsame : other = parts := by
      have hmap := List.append_cancel_right hother
      exact (List.map_injective_iff.mpr (fun _ _ h => Emitted.output.inj h) hmap).symm
    rwa [hsame] at hwhole
  · intro hwhole
    exact ⟨parts, hemitted, hwhole⟩

/-- Two reads, cut between a character of two bytes and one of three. -/
def sampleReads : List (List UInt8) := [[0xC3, 0xA9], [0xE2, 0x82, 0xAC]]

theorem stream_decodes_sample :
    ∃ parts : List (List Char),
      (stream .exec [.chunk ['é'], .timeout, .chunk ['€'], .exited 0 none]).emitted =
        parts.map .output ++ [.exited 0] ∧
      parts.flatten = Utf8.decodeReplace [0xC3, 0xA9, 0xE2, 0x82, 0xAC] :=
  (@stream_decodes_iff _ sampleReads 0 none .exec (by rfl)).mpr (by
    intro front back hreads
    have htwo : Utf8.unit [0xC3, 0xA9, 0xE2, 0x82, 0xAC] = 2 := by decide +kernel
    have hthree : Utf8.unit [0xE2, 0x82, 0xAC] = 3 := by decide +kernel
    have hlast : Utf8.Boundary [0xE2, 0x82, 0xAC] 3 := by
      rw [← hthree]
      exact Utf8.Boundary.next (by simp) (Utf8.Boundary.start _)
    have hnext {i : ℕ} (h : Utf8.Boundary [0xE2, 0x82, 0xAC] i) :
        Utf8.Boundary [0xC3, 0xA9, 0xE2, 0x82, 0xAC] (2 + i) := by
      rw [← htwo]
      refine Utf8.Boundary.next (by simp) ?_
      rw [htwo]
      exact h
    cases front with
    | nil => exact Utf8.Boundary.start _
    | cons first front =>
        obtain ⟨rfl, hrest⟩ := List.cons.inj hreads
        cases front with
        | nil => exact hnext (Utf8.Boundary.start _)
        | cons second front =>
            obtain ⟨rfl, hnone⟩ := List.cons.inj hrest
            obtain ⟨rfl, -⟩ := List.append_eq_nil_iff.mp hnone.symm
            exact hnext hlast)

/-- A character that two reads share comes out as replacements. -/
theorem character_split :
    ¬ ∀ (channel : Channel) (moves : List StreamMove) (reads : List (List UInt8)) (code : ℤ)
      (reported : Option ℤ), moves.filter StreamMove.isSignal = signals reads code reported →
        ∃ parts : List (List Char), (stream channel moves).emitted =
            parts.map .output ++ [.exited (channel.final code reported)] ∧
          parts.flatten = Utf8.decodeReplace reads.flatten := by
  intro h
  obtain ⟨parts, hemitted, htext⟩ := h .exec (signals [[0xC3], [0xA9]] 0 none) [[0xC3], [0xA9]] 0
    none (by rfl)
  have hstream : (stream .exec (signals [[0xC3], [0xA9]] 0 none)).emitted =
      [.output [Char.ofNat 0xFFFD, Char.ofNat 0xFFFD]] ++ [.exited 0] := by decide +kernel
  have hwhole : Utf8.decodeReplace [[0xC3], [0xA9]].flatten = [Char.ofNat 0xE9] := by decide +kernel
  rw [hstream] at hemitted
  have hparts := List.append_cancel_right hemitted
  have hsame : parts = [[Char.ofNat 0xFFFD, Char.ofNat 0xFFFD]] := by
    apply List.map_injective_iff.mpr (fun _ _ h => Emitted.output.inj h)
    exact hparts.symm
  rw [hwhole, hsame] at htext
  exact absurd htext (by decide)

end Runs

end Imece.WebHost
