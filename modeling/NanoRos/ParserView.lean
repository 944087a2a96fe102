import NanoRos.ParserStep

/-!
# What a parser remembers

Seen from outside, a parser either hunts, remembering whether the last byte
was the first magic one, or holds the bytes of the frame it is reading.  The
reader below works on that view alone, and the parser of the source refines
it: two parsers with one view deliver the same frames for ever.
-/

namespace NanoRos

open Transducer (after emitted)

/-- What matters of a parser for all that follows. -/
inductive ParserView where
  | hunting (armed : Bool)
  | inside (bytes : List UInt8)
  deriving DecidableEq, Repr

namespace ParserView

/-- The frame in `bytes`, if they are a whole one with a matching CRC. -/
def completed (header : NrosFrameHeader) (bytes : List UInt8) :
    Option Frame :=
  let size := frameHeaderSize + header.length.toNat
  if getU16 (bytes.getD size 0) (bytes.getD (size + 1) 0) =
      crc16Buf (bytes.take size) then
    some { header, payload := (bytes.take size).drop frameHeaderSize }
  else
    none

/-- Read one byte. -/
def read : ParserView → UInt8 → ParserView × Option Frame
  | .hunting armed, byte =>
      if armed ∧ byte = nrosMagic1 then
        (.inside [nrosMagic0, nrosMagic1], none)
      else
        (.hunting (decide (byte = nrosMagic0)), none)
  | .inside held, byte =>
      let bytes := held ++ [byte]
      let header := NrosFrameHeader.ofBytes (bytes.take frameHeaderSize)
      if bytes.length < frameHeaderSize then
        (.inside bytes, none)
      else if header.length.toNat > nrosBufferSize then
        (.hunting (decide (byte = nrosMagic0)), none)
      else if bytes.length <
          frameHeaderSize + header.length.toNat + nrosCrcLen then
        (.inside bytes, none)
      else
        (.hunting false, completed header bytes)

/-- The header at the start of the bytes read. -/
theorem ofBytes_take_toBytes (header : NrosFrameHeader) (rest : List UInt8) :
    NrosFrameHeader.ofBytes
      ((header.toBytes ++ rest).take frameHeaderSize) = header := by
  rcases header with ⟨magic0, magic1, type, topicId, length⟩
  simp [NrosFrameHeader.ofBytes, NrosFrameHeader.toBytes, frameHeaderSize]

/-- A frame of which something is missing is held on to. -/
theorem read_inside_unfinished {held : List UInt8} {byte : UInt8}
    (unfinished : (held ++ [byte]).length < frameHeaderSize ∨
      ∃ (header : NrosFrameHeader) (rest : List UInt8),
        held ++ [byte] = header.toBytes ++ rest ∧
          header.length.toNat ≤ nrosBufferSize ∧
          rest.length < header.length.toNat + nrosCrcLen) :
    (inside held).read byte = (.inside (held ++ [byte]), none) := by
  simp only [read]
  rcases unfinished with short | ⟨header, rest, split, bounded, missing⟩
  · rw [if_pos short]
  · have counted : (held ++ [byte]).length = frameHeaderSize + rest.length := by
      rw [split]
      simp [frameHeaderSize]
    rw [if_neg (by omega), split, ofBytes_take_toBytes, if_neg (by omega),
      ← split, if_pos (by omega)]

/-- The sixth byte completes a header with too large a length. -/
theorem read_inside_overlong {held : List UInt8} {byte : UInt8}
    {header : NrosFrameHeader} (whole : held ++ [byte] = header.toBytes)
    (overlong : nrosBufferSize < header.length.toNat) :
    (inside held).read byte =
      (.hunting (decide (byte = nrosMagic0)), none) := by
  have front := ofBytes_take_toBytes header []
  rw [List.append_nil] at front
  have counted : (held ++ [byte]).length = frameHeaderSize := by
    rw [whole]
    rfl
  simp only [read]
  rw [if_neg (by omega), whole, front, if_pos overlong]

/-- The last byte of a frame decides on its CRC. -/
theorem read_inside_last {held : List UInt8} {byte : UInt8} {frame : Frame}
    {low high : UInt8} (whole : held ++ [byte] = frame.body ++ [low, high])
    (counts : frame.payload.length = frame.header.length.toNat)
    (short : frame.header.length.toNat ≤ nrosBufferSize) :
    (inside held).read byte =
      (.hunting false,
        if getU16 low high = crc16Buf frame.body then some frame
        else none) := by
  have size : frame.body.length =
      frameHeaderSize + frame.header.length.toNat := by
    rw [Frame.length_body, counts]
  have counted : (held ++ [byte]).length = frameHeaderSize +
      frame.header.length.toNat + nrosCrcLen := by
    rw [whole, List.length_append, size]
    rfl
  have front : NrosFrameHeader.ofBytes
      ((held ++ [byte]).take frameHeaderSize) = frame.header := by
    rw [whole, Frame.body, List.append_assoc]
    exact ofBytes_take_toBytes _ _
  have payload : frame.body.drop frameHeaderSize = frame.payload := rfl
  have cut : (frame.body ++ [low, high]).take frame.body.length =
      frame.body := List.take_left
  have lowCell : (frame.body ++ [low, high]).getD frame.body.length 0 =
      low := by simp
  have highCell : (frame.body ++ [low, high]).getD
      (frame.body.length + 1) 0 = high := by simp
  simp only [read]
  rw [if_neg (by omega), front, if_neg (by omega), if_neg (by omega)]
  simp only [completed, ← size, whole, lowCell, highCell, cut, payload]

end ParserView

namespace NrosStreamParser

/-- The view of a parser. -/
inductive Shows (parser : NrosStreamParser) : ParserView → Prop
  | hunting {armed : Bool} (state : parser.state = .huntSync)
      (window : armed = decide (parser.headerByte 1 = nrosMagic0)) :
      Shows parser (.hunting armed)
  | inside {bytes : List UInt8} (holding : parser.Holding bytes) :
      Shows parser (.inside bytes)

theorem shows_init : nrosStreamParserInit.Shows (.hunting false) :=
  .hunting rfl (by decide)

/-- The bytes held are fewer than a frame has: the header announces more. -/
theorem Holding.unfinished {parser : NrosStreamParser} {bytes : List UInt8}
    (holding : parser.Holding bytes) :
    bytes.length < frameHeaderSize ∨
      ∃ (header : NrosFrameHeader) (rest : List UInt8),
        bytes = header.toBytes ++ rest ∧
        header.length.toNat ≤ nrosBufferSize ∧
        rest.length < header.length.toNat + nrosCrcLen := by
  cases holding with
  | header _ _ _ unfinished consumed =>
      left
      rw [consumed, Buffer.length_take]
      omega
  | payload _ _ _ short unfinished _ consumed _ =>
      right
      refine ⟨parser.header, _, consumed, short, ?_⟩
      rw [Buffer.length_take]
      omega
  | crc _ _ _ short unfinished consumed _ =>
      right
      rw [List.append_assoc] at consumed
      refine ⟨parser.header, _, consumed, short, ?_⟩
      simp only [List.length_append, Buffer.length_take, nrosCrcLen]
      omega

/-- A frame the parser has read up to its last byte has passed the length
check. -/
theorem Holding.short_of_last {parser : NrosStreamParser}
    {bytes : List UInt8} (holding : parser.Holding bytes) {byte : UInt8}
    {frame : Frame} {low high : UInt8}
    (whole : bytes ++ [byte] = frame.body ++ [low, high]) :
    frame.header.length.toNat ≤ nrosBufferSize := by
  rcases holding.unfinished with few | ⟨header, rest, split, bounded, _⟩
  · have lengths := congrArg List.length whole
    simp only [List.length_append, Frame.length_body, List.length_cons,
      List.length_nil] at lengths
    omega
  · rw [split, List.append_assoc, Frame.body, List.append_assoc] at whole
    rw [← (NrosFrameHeader.toBytes_append_inj whole).1]
    exact bounded

/-- The parser refines the reader, byte by byte. -/
theorem shows_feedByte {parser : NrosStreamParser} {view : ParserView}
    (shows_ : parser.Shows view) (byte : UInt8) :
    (parser.feedByte byte).1.Shows (view.read byte).1 ∧
      (parser.feedByte byte).2.map FrameEvent.frame = (view.read byte).2 := by
  cases shows_ with
  | hunting state window =>
      rcases feedByte_hunting parser byte state with
        ⟨⟨locked, same⟩, silent, holding, _⟩ |
          ⟨missed, silent, stillHunting, newWindow, _⟩
      · simp only [ParserView.read, window, locked, same, decide_true,
          and_self, if_true]
        rw [same] at silent holding
        exact ⟨.inside holding, by rw [silent]; rfl⟩
      · have unarmed : ¬(decide (parser.headerByte 1 = nrosMagic0) = true ∧
            byte = nrosMagic1) := by
          rw [decide_eq_true_iff]
          exact missed
        simp only [ParserView.read, window, if_neg unarmed]
        exact ⟨.hunting stillHunting (by rw [newWindow]),
          by rw [silent]; rfl⟩
  | inside holding =>
      have step := feedByte_holding holding byte
      generalize parser.feedByte byte = outcome at step ⊢
      cases step with
      | continues stillHolding _ =>
          rw [ParserView.read_inside_unfinished stillHolding.unfinished]
          exact ⟨.inside stillHolding, rfl⟩
      | rejected header consumed overlong hunting window _ _ =>
          rw [ParserView.read_inside_overlong consumed overlong]
          exact ⟨.hunting hunting (by rw [window]), rfl⟩
      | corrupted frame low high consumed counted mismatch hunting window _ _ =>
          have short := holding.short_of_last consumed
          rw [ParserView.read_inside_last consumed counted short,
            if_neg mismatch]
          exact ⟨.hunting hunting (by rw [window]; decide), rfl⟩
      | delivered event consumed deliverable hunting window _ =>
          rw [ParserView.read_inside_last consumed deliverable.counts
            deliverable.short, if_pos (getU16_lowByte_highByte _)]
          exact ⟨.hunting hunting (by rw [window]; decide), rfl⟩

/-- The parser refines the reader on every stream. -/
theorem shows_after {parser : NrosStreamParser} {view : ParserView}
    (shows_ : parser.Shows view) (bytes : List UInt8) :
    (after feedByte parser bytes).Shows (after ParserView.read view bytes) ∧
      (emitted feedByte parser bytes).map FrameEvent.frame =
        emitted ParserView.read view bytes :=
  Transducer.simulates feedByte ParserView.read Shows FrameEvent.frame
    (fun _ _ byte related => shows_feedByte related byte) shows_ bytes

/-- The view of a parser that has read `input` from the start. -/
theorem shows_reachable (input : List UInt8) :
    (after feedByte nrosStreamParserInit input).Shows
      (after ParserView.read (.hunting false) input) :=
  (shows_after shows_init input).1

end NrosStreamParser

end NanoRos
