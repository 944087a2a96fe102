import NanoRos.StreamParser

/-!
# Encoded frames

The bytes of a frame as one list, and the connection to the encoder of the
source, which writes them piecewise into a buffer.
-/

namespace NanoRos

namespace NrosFrameHeader

/-- A header as the encoder puts it on the wire: the magic bytes are its own,
whatever the caller's header holds. -/
def onWire (header : NrosFrameHeader) : NrosFrameHeader :=
  { header with magic0 := nrosMagic0, magic1 := nrosMagic1 }

/-- The header starts with the magic number. -/
def HasMagic (header : NrosFrameHeader) : Prop :=
  header.magic0 = nrosMagic0 ∧ header.magic1 = nrosMagic1

theorem onWire_hasMagic (header : NrosFrameHeader) :
    header.onWire.HasMagic := ⟨rfl, rfl⟩

theorem onWire_eq_self {header : NrosFrameHeader} (magic : header.HasMagic) :
    header.onWire = header := by
  rcases header with ⟨magic0, magic1, type, topicId, length⟩
  obtain ⟨rfl, rfl⟩ := magic
  rfl

/-- A header is determined by any byte string it starts. -/
theorem toBytes_append_inj {left right : NrosFrameHeader}
    {leftRest rightRest : List UInt8}
    (equality : left.toBytes ++ leftRest = right.toBytes ++ rightRest) :
    left = right ∧ leftRest = rightRest := by
  have split := List.append_inj equality rfl
  refine ⟨?_, split.2⟩
  have bytes := split.1
  rcases left with ⟨leftMagic0, leftMagic1, leftType, leftTopic, leftLength⟩
  rcases right with
    ⟨rightMagic0, rightMagic1, rightType, rightTopic, rightLength⟩
  simp only [toBytes, List.cons.injEq, and_true] at bytes
  obtain ⟨rfl, rfl, rfl, rfl, low, high⟩ := bytes
  have lengths : leftLength = rightLength := by
    rw [← getU16_lowByte_highByte leftLength, low, high,
      getU16_lowByte_highByte]
  rw [lengths]

end NrosFrameHeader

namespace Frame

/-- The bytes a frame's CRC is taken over. -/
def body (frame : Frame) : List UInt8 :=
  frame.header.toBytes ++ frame.payload

/-- The wire bytes of a frame: header, payload, CRC. -/
def encoded (frame : Frame) : List UInt8 :=
  frame.body ++ putU16 (crc16Buf frame.body)

/-- The frame a receiver sees for what was handed to the encoder. -/
def onWire (frame : Frame) : Frame :=
  { frame with header := frame.header.onWire }

/-- What the parser delivers: magic number, and a length that counts the
payload and passes the parser's check. -/
structure Deliverable (frame : Frame) : Prop where
  magic : frame.header.HasMagic
  counts : frame.payload.length = frame.header.length.toNat
  short : frame.header.length.toNat ≤ nrosBufferSize

/-- What a sender can put into one buffer: the length field counts the
payload, and the whole frame fits. -/
structure Sendable (frame : Frame) : Prop where
  counts : frame.header.length.toNat = frame.payload.length
  fits : frame.payload.length ≤ nrosMaxPayload

@[simp] theorem length_body (frame : Frame) :
    frame.body.length = frameHeaderSize + frame.payload.length := by
  simp [body, frameHeaderSize]

@[simp] theorem length_encoded (frame : Frame) :
    frame.encoded.length =
      frameHeaderSize + frame.payload.length + nrosCrcLen := by
  simp [encoded, nrosCrcLen]

theorem encoded_ne_nil (frame : Frame) : frame.encoded ≠ [] := by
  intro empty
  have := congrArg List.length empty
  simp [frameHeaderSize] at this

theorem Sendable.onWire_deliverable {frame : Frame}
    (sendable : frame.Sendable) : frame.onWire.Deliverable where
  magic := frame.header.onWire_hasMagic
  counts := sendable.counts.symm
  short := by
    have := sendable.fits
    have := sendable.counts
    simp only [nrosMaxPayload, nrosBufferSize] at *
    show frame.header.length.toNat ≤ _
    omega

theorem Deliverable.onWire_eq_self {frame : Frame}
    (deliverable : frame.Deliverable) : frame.onWire = frame := by
  rcases frame with ⟨header, payload⟩
  simp only [onWire, NrosFrameHeader.onWire_eq_self deliverable.magic]

/-- Two frames that count their payloads and whose bodies start the same
string are equal. -/
theorem body_append_inj {left right : Frame}
    (leftCounts : left.payload.length = left.header.length.toNat)
    (rightCounts : right.payload.length = right.header.length.toNat)
    {leftRest rightRest : List UInt8}
    (equality : left.body ++ leftRest = right.body ++ rightRest) :
    left = right ∧ leftRest = rightRest := by
  rcases left with ⟨leftHeader, leftPayload⟩
  rcases right with ⟨rightHeader, rightPayload⟩
  simp only [body, List.append_assoc] at equality
  obtain ⟨rfl, tails⟩ := NrosFrameHeader.toBytes_append_inj equality
  obtain ⟨rfl, rests⟩ :=
    List.append_inj tails (leftCounts.trans rightCounts.symm)
  exact ⟨rfl, rests⟩

/-- Two deliverable frames whose encodings start the same string are equal. -/
theorem encoded_append_inj {left right : Frame}
    (leftCounts : left.payload.length = left.header.length.toNat)
    (rightCounts : right.payload.length = right.header.length.toNat)
    {leftRest rightRest : List UInt8}
    (equality : left.encoded ++ leftRest = right.encoded ++ rightRest) :
    left = right ∧ leftRest = rightRest := by
  simp only [encoded, List.append_assoc] at equality
  obtain ⟨rfl, rests⟩ := body_append_inj leftCounts rightCounts equality
  exact ⟨rfl, List.append_cancel_left rests⟩

end Frame

/-! ## The encoder of the source -/

section Encoder

variable {capacity : Nat}

/-- With room for the whole frame, the encoder writes exactly the frame's
wire bytes at the start of the buffer. -/
theorem nrosStreamEncodeFrame_of_fits (header : NrosFrameHeader)
    (payload : List UInt8) (outBuf : Buffer UInt8 capacity)
    (fits : frameHeaderSize + payload.length + nrosCrcLen ≤ capacity) :
    nrosStreamEncodeFrame header (some payload) payload.length outBuf =
      (frameHeaderSize + payload.length + nrosCrcLen,
        outBuf.copy 0 (Frame.onWire ⟨header, payload⟩).encoded) := by
  let wire : NrosFrameHeader := header.onWire
  have headerBytes :
      [nrosMagic0, nrosMagic1, header.type, header.topicId] ++
        putU16 header.length = wire.toBytes := rfl
  have headerFits : 0 + wire.toBytes.length ≤ capacity := by
    simp only [NrosFrameHeader.length_toBytes]
    simp only [frameHeaderSize] at fits
    omega
  have bodyFits : 0 + (wire.toBytes.length + payload.length) ≤ capacity := by
    simp only [NrosFrameHeader.length_toBytes]
    simp only [frameHeaderSize] at fits
    omega
  -- an empty payload skips the copy; copying nothing changes nothing
  have withPayload :
      (if payload.length > 0 then
          ((outBuf.copy 0 wire.toBytes).copy frameHeaderSize
            (payload.take payload.length), frameHeaderSize + payload.length)
        else (outBuf.copy 0 wire.toBytes, frameHeaderSize)) =
        (outBuf.copy 0 (wire.toBytes ++ payload),
          frameHeaderSize + payload.length) := by
    cases payload with
    | nil => simp
    | cons byte rest =>
        have joined := outBuf.copy_copy 0 wire.toBytes (byte :: rest) bodyFits
        simp only [NrosFrameHeader.length_toBytes, Nat.zero_add] at joined
        simpa [frameHeaderSize] using joined
  have crcInput :
      (outBuf.copy 0 (wire.toBytes ++ payload)).take
          (frameHeaderSize + payload.length) = wire.toBytes ++ payload := by
    have taken := outBuf.take_copy 0 (wire.toBytes ++ payload)
      (by simpa using bodyFits)
    simpa [frameHeaderSize, Nat.zero_add] using taken
  have whole := outBuf.copy_copy 0 (wire.toBytes ++ payload)
    (putU16 (crc16Buf (wire.toBytes ++ payload))) (by
      simp only [List.length_append, NrosFrameHeader.length_toBytes,
        length_putU16]
      simp only [frameHeaderSize, nrosCrcLen] at fits
      omega)
  unfold nrosStreamEncodeFrame
  rw [if_neg (Nat.not_lt.mpr fits)]
  simp only [headerBytes, withPayload, crcInput]
  refine Prod.ext rfl ?_
  simp only [List.length_append, NrosFrameHeader.length_toBytes,
    Nat.zero_add] at whole
  simpa [frameHeaderSize, Frame.encoded, Frame.body, Frame.onWire, wire]
    using whole

/-- Without room for the whole frame, nothing is written. -/
theorem nrosStreamEncodeFrame_of_overflow (header : NrosFrameHeader)
    (payload : Option (List UInt8)) (payloadLen : Nat)
    (outBuf : Buffer UInt8 capacity)
    (overflow : capacity < frameHeaderSize + payloadLen + nrosCrcLen) :
    nrosStreamEncodeFrame header payload payloadLen outBuf = (0, outBuf) := by
  unfold nrosStreamEncodeFrame
  rw [if_pos overflow]

/-- The bytes an accepted call leaves at the start of the buffer. -/
theorem nrosStreamEncodeFrame_take (header : NrosFrameHeader)
    (payload : List UInt8) (outBuf : Buffer UInt8 capacity)
    (fits : frameHeaderSize + payload.length + nrosCrcLen ≤ capacity) :
    (nrosStreamEncodeFrame header (some payload) payload.length outBuf).2.take
        (nrosStreamEncodeFrame header (some payload) payload.length outBuf).1 =
      (Frame.onWire ⟨header, payload⟩).encoded := by
  rw [nrosStreamEncodeFrame_of_fits header payload outBuf fits]
  have taken := outBuf.take_copy 0
    (Frame.onWire ⟨header, payload⟩).encoded (by simpa [Frame.onWire] using fits)
  simpa [Frame.onWire] using taken

end Encoder

/-- A DISCOVER, as the agent sends it. -/
def discoverFrame : Frame :=
  { header :=
      { magic0 := nrosMagic0
        magic1 := nrosMagic1
        type := NrosPacketType.discover.toByte
        topicId := 0
        length := 0 }
    payload := [] }

end NanoRos
