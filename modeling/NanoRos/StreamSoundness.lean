import Mathlib.Data.List.Forall2
import NanoRos.StreamRoundTrip

/-!
# Parser soundness

Whatever bytes arrive, each delivered frame is a contiguous piece of the
input, equal to its own encoding, and the pieces do not overlap.
-/

namespace NanoRos

open NrosStreamParser

/-- The encoder, given a large enough buffer, writes exactly `bytes` for the
frame. -/
def EncoderWrites (frame : Frame) (bytes : List UInt8) : Prop :=
  ∀ (capacity : Nat) (outBuf : Buffer UInt8 capacity),
    bytes.length ≤ capacity →
      (nrosStreamEncodeFrame frame.header (some frame.payload)
          frame.payload.length outBuf).1 = bytes.length ∧
        (nrosStreamEncodeFrame frame.header (some frame.payload)
          frame.payload.length outBuf).2.take bytes.length = bytes

theorem Frame.Deliverable.encoderWrites {frame : Frame}
    (deliverable : frame.Deliverable) :
    EncoderWrites frame frame.encoded := by
  intro capacity outBuf large
  have fits :
      frameHeaderSize + frame.payload.length + nrosCrcLen ≤ capacity := by
    rwa [← Frame.length_encoded]
  have written := nrosStreamEncodeFrame_take frame.header frame.payload
    outBuf fits
  have length : (nrosStreamEncodeFrame frame.header (some frame.payload)
      frame.payload.length outBuf).1 = frame.encoded.length := by
    rw [nrosStreamEncodeFrame_of_fits _ _ _ fits, Frame.length_encoded]
  refine ⟨length, ?_⟩
  rw [length] at written
  rw [written]
  exact congrArg Frame.encoded deliverable.onWire_eq_self

/-- The encoder writes one byte string for a frame. -/
theorem EncoderWrites.eq_encoded {frame : Frame} {bytes : List UInt8}
    (writes : EncoderWrites frame bytes) : bytes = frame.onWire.encoded := by
  let capacity :=
    bytes.length + (frameHeaderSize + frame.payload.length + nrosCrcLen)
  have fits :
      frameHeaderSize + frame.payload.length + nrosCrcLen ≤ capacity :=
    Nat.le_add_left _ _
  obtain ⟨length, written⟩ :=
    writes capacity (.filled capacity 0) (Nat.le_add_right _ _)
  rw [← written, ← length]
  exact nrosStreamEncodeFrame_take frame.header frame.payload _ fits

/-- A stretch of input before a delivered frame, and the frame's bytes. -/
structure Piece where
  gap : List UInt8
  bytes : List UInt8

def Piece.whole (piece : Piece) : List UInt8 := piece.gap ++ piece.bytes

/-- The pieces carry the frames, in order: each frame counts its payload in
its header, and its piece is what the encoder writes for it. -/
def Carries (pieces : List Piece) (frames : List Frame) : Prop :=
  List.Forall₂
    (fun piece frame =>
      frame.payload.length = frame.header.length.toNat ∧
        EncoderWrites frame piece.bytes)
    pieces frames

/-- The input not yet delivered, as the parser state remembers it: its last
byte while hunting, the frame begun in it otherwise. -/
inductive Remembers (parser : NrosStreamParser) (tail : List UInt8) : Prop
  | hunting (state : parser.state = .huntSync)
      (window : parser.headerByte 1 = nrosMagic0 →
        ∃ before, tail = before ++ [nrosMagic0])
  | holding (gap bytes : List UInt8) (split : tail = gap ++ bytes)
      (inside : parser.Holding bytes)

/-- The input read so far is cut into pieces for the delivered frames and a
tail the parser state remembers. -/
def Accounted (input : List UInt8) (events : List FrameEvent)
    (parser : NrosStreamParser) : Prop :=
  ∃ pieces tail, input = pieces.flatMap Piece.whole ++ tail ∧
    Carries pieces (events.map FrameEvent.frame) ∧ Remembers parser tail

theorem accounted_init : Accounted [] [] nrosStreamParserInit := by
  refine ⟨[], [], rfl, .nil, .hunting rfl ?_⟩
  intro window
  exact absurd window (by decide)

theorem accounted_step (input : List UInt8) (events : List FrameEvent)
    (parser : NrosStreamParser) (byte : UInt8)
    (accounted : Accounted input events parser) :
    Accounted (input ++ [byte]) (events ++ (parser.feedByte byte).2.toList)
      (parser.feedByte byte).1 := by
  obtain ⟨pieces, tail, rfl, carried, remembers⟩ := accounted
  cases remembers with
  | hunting state window =>
      rcases feedByte_hunting parser byte state with
        ⟨⟨locked, same⟩, silent, holding, _⟩ |
          ⟨_, silent, stillHunting, newWindow, _⟩
      · obtain ⟨before, rfl⟩ := window locked
        refine ⟨pieces, before ++ [nrosMagic0] ++ [byte], by simp, ?_,
          .holding before [nrosMagic0, nrosMagic1] (by simp [same])
            holding⟩
        simpa [silent] using carried
      · refine ⟨pieces, tail ++ [byte], by simp, ?_,
          .hunting stillHunting ?_⟩
        · simpa [silent] using carried
        · intro magic
          exact ⟨tail, by rw [← magic, newWindow]⟩
  | holding gap bytes split inside =>
      have step := feedByte_holding inside byte
      generalize parser.feedByte byte = outcome at step ⊢
      cases step with
      | continues stillInside _ =>
          refine ⟨pieces, tail ++ [byte], by simp, by simpa using carried,
            .holding gap (bytes ++ [byte]) ?_ stillInside⟩
          rw [split, List.append_assoc]
      | rejected header _ _ hunting window _ _ =>
          refine ⟨pieces, tail ++ [byte], by simp, by simpa using carried,
            .hunting hunting ?_⟩
          intro magic
          exact ⟨tail, by rw [← magic, window]⟩
      | corrupted frame low high _ _ _ hunting window _ _ =>
          refine ⟨pieces, tail ++ [byte], by simp, by simpa using carried,
            .hunting hunting ?_⟩
          intro magic
          exact absurd (window.symm.trans magic) (by decide)
      | delivered event consumed deliverable hunting window _ =>
          refine ⟨pieces ++ [⟨gap, bytes ++ [byte]⟩], [], ?_, ?_,
            .hunting hunting ?_⟩
          · rw [split]
            simp [Piece.whole]
          · have last : Carries [⟨gap, bytes ++ [byte]⟩] [event.frame] := by
              refine .cons ⟨deliverable.counts, ?_⟩ .nil
              show EncoderWrites event.frame (bytes ++ [byte])
              rw [consumed]
              exact deliverable.encoderWrites
            simpa [Carries] using List.rel_append carried last
          · intro magic
            exact absurd (window.symm.trans magic) (by decide)

/-- Any byte stream, fed in any chunks to a fresh parser, is made of the
encodings of the delivered frames, in order, and of the gaps around them. -/
theorem parser_sound (chunks : List (List UInt8)) :
    ∃ pieces last,
      chunks.flatten = pieces.flatMap Piece.whole ++ last ∧
        Carries pieces
          (feedChunks recordFrame nrosStreamParserInit [] chunks).2 := by
  have accounted := Transducer.run_invariant feedByte Accounted
    accounted_init accounted_step chunks.flatten
  obtain ⟨pieces, last, split, carried, _⟩ := accounted
  rw [feedChunks_recordFrame]
  exact ⟨pieces, last, split, carried⟩

end NanoRos
