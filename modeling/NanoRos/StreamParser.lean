import NanoRos.Protocol
import NanoRos.Foundation.Transducer

/-!
# Stream parser

The byte-wise frame parser and the frame encoder of `nros_stream_parser.c`.
Counters of type `size_t` are natural numbers: the parser compares them with
sizes of at most `nrosBufferSize`, and the two statistics are only counted up.
-/

namespace NanoRos

/-! ## CRC -/

def nrosCrc16Poly : UInt16 := 0x1021
def nrosCrc16Init : UInt16 := 0xFFFF

/-- One round of the shift register. -/
def crc16Shift (crc : UInt16) : UInt16 :=
  if crc &&& 0x8000 ≠ 0 then (crc <<< 1) ^^^ nrosCrc16Poly else crc <<< 1

def crc16Update (crc : UInt16) (byte : UInt8) : UInt16 :=
  Nat.repeat crc16Shift 8 (crc ^^^ (byte.toUInt16 <<< 8))

def crc16Buf (data : List UInt8) : UInt16 :=
  data.foldl crc16Update nrosCrc16Init

@[simp] theorem crc16Buf_append (data more : List UInt8) :
    crc16Buf (data ++ more) = more.foldl crc16Update (crc16Buf data) := by
  simp [crc16Buf]

/-! ## Parser state -/

/-- `parse_state_t`. -/
inductive ParseState where
  | huntSync
  | waitHeader
  | waitPayload
  | waitCrc
  deriving DecidableEq, Repr

/-- `nros_stream_parser_t`.  Its counters are natural numbers here; the code
counts modulo `SIZE_MAX + 1`, and no decision depends on them. -/
structure NrosStreamParser where
  state : ParseState
  headerBuf : Buffer UInt8 frameHeaderSize
  headerBytesHave : Nat
  header : NrosFrameHeader
  runningCrc : UInt16
  payloadBuf : NrosBuffer
  payloadBytesHave : Nat
  crcBuf : Buffer UInt8 2
  crcBytesHave : Nat
  resyncCount : Nat
  crcFailCount : Nat
  deriving DecidableEq

/-- What the callback is given: the header and the whole payload buffer. -/
structure FrameEvent where
  header : NrosFrameHeader
  payloadBuf : NrosBuffer
  deriving DecidableEq

/-- The payload a callback may read: as many bytes as the header announces. -/
def FrameEvent.frame (event : FrameEvent) : Frame :=
  { header := event.header
    payload := event.payloadBuf.take event.header.length.toNat }

def nrosStreamParserInit : NrosStreamParser :=
  { state := .huntSync
    headerBuf := .filled _ 0
    headerBytesHave := 0
    header := .zeroed
    runningCrc := 0
    payloadBuf := .filled _ 0
    payloadBytesHave := 0
    crcBuf := .filled _ 0
    crcBytesHave := 0
    resyncCount := 0
    crcFailCount := 0 }

namespace NrosStreamParser

/-- `header_buf[index]`. -/
def headerByte (parser : NrosStreamParser) (index : Nat) : UInt8 :=
  (parser.headerBuf.load? index).getD 0

def resetToHunt (parser : NrosStreamParser) (countAsResync : Bool) :
    NrosStreamParser :=
  { parser with
    resyncCount :=
      if countAsResync then parser.resyncCount + 1 else parser.resyncCount
    state := .huntSync
    headerBytesHave := 0 }

/-! ### The four cases of the parser's switch -/

/-- `HUNT_SYNC`: a two-byte sliding window looks for the magic number. -/
def huntSync (parser : NrosStreamParser) (byte : UInt8) : NrosStreamParser :=
  let shifted :=
    { parser with
      headerBuf := (parser.headerBuf.store 0 (parser.headerByte 1)).store 1 byte }
  if shifted.headerByte 0 = nrosMagic0 ∧ shifted.headerByte 1 = nrosMagic1 then
    { shifted with headerBytesHave := 2, state := .waitHeader }
  else
    shifted

/-- The overlong-length branch of `WAIT_HEADER`, after the header is copied. -/
def rejectLength (parser : NrosStreamParser) (byte : UInt8) :
    NrosStreamParser :=
  -- memmove(header_buf, header_buf + 1, sizeof(header_buf) - 1)
  let moved :=
    { parser with
      headerBuf := parser.headerBuf.copy 0
        (parser.headerBuf.slice 1 (frameHeaderSize - 1))
      headerBytesHave := frameHeaderSize - 1 }
  let hunting := moved.resetToHunt true
  { hunting with
    headerBuf :=
      (hunting.headerBuf.store 0 (hunting.headerByte (frameHeaderSize - 2))).store
        1 byte }

/-- The accepting branch of `WAIT_HEADER`. -/
def acceptHeader (parser : NrosStreamParser) : NrosStreamParser :=
  { parser with
    runningCrc := crc16Buf parser.header.toBytes
    payloadBytesHave := 0
    crcBytesHave := 0
    state := if parser.header.length = 0 then .waitCrc else .waitPayload }

/-- `WAIT_HEADER`. -/
def waitHeader (parser : NrosStreamParser) (byte : UInt8) : NrosStreamParser :=
  let stored :=
    { parser with
      headerBuf := parser.headerBuf.store parser.headerBytesHave byte
      headerBytesHave := parser.headerBytesHave + 1 }
  if stored.headerBytesHave < frameHeaderSize then
    stored
  else
    let copied :=
      { stored with header := .ofBytes (stored.headerBuf.take frameHeaderSize) }
    if copied.header.length.toNat > nrosBufferSize then
      copied.rejectLength byte
    else
      copied.acceptHeader

/-- `WAIT_PAYLOAD`. -/
def waitPayload (parser : NrosStreamParser) (byte : UInt8) :
    NrosStreamParser :=
  let stored :=
    { parser with
      payloadBuf := parser.payloadBuf.store parser.payloadBytesHave byte
      payloadBytesHave := parser.payloadBytesHave + 1
      runningCrc := crc16Update parser.runningCrc byte }
  if stored.payloadBytesHave < stored.header.length.toNat then
    stored
  else
    { stored with state := .waitCrc }

/-- `WAIT_CRC`; the callback fires when the received CRC is the running one. -/
def waitCrc (parser : NrosStreamParser) (byte : UInt8) :
    NrosStreamParser × Option FrameEvent :=
  let stored :=
    { parser with
      crcBuf := parser.crcBuf.store parser.crcBytesHave byte
      crcBytesHave := parser.crcBytesHave + 1 }
  if stored.crcBytesHave < 2 then
    (stored, none)
  else
    let receivedCrc :=
      getU16 ((stored.crcBuf.load? 0).getD 0) ((stored.crcBuf.load? 1).getD 0)
    if receivedCrc ≠ stored.runningCrc then
      ({ stored with crcFailCount := stored.crcFailCount + 1 }.resetToHunt false,
        none)
    else
      (stored.resetToHunt false,
        some { header := stored.header, payloadBuf := stored.payloadBuf })

/-- One iteration of the feed loop. -/
def feedByte (parser : NrosStreamParser) (byte : UInt8) :
    NrosStreamParser × Option FrameEvent :=
  match parser.state with
  | .huntSync => (parser.huntSync byte, none)
  | .waitHeader => (parser.waitHeader byte, none)
  | .waitPayload => (parser.waitPayload byte, none)
  | .waitCrc => parser.waitCrc byte

end NrosStreamParser

/-- `nros_stream_parser_feed`: `callback` is `cb`, `userData` what
`user_data` points to. -/
def nrosStreamParserFeed {υ : Type*} (callback : υ → FrameEvent → υ)
    (parser : NrosStreamParser) (userData : υ) (data : List UInt8) :
    NrosStreamParser × υ :=
  Transducer.runWith NrosStreamParser.feedByte callback parser userData data

/-- Successive feed calls on one parser, one for each chunk. -/
def feedChunks {υ : Type*} (callback : υ → FrameEvent → υ)
    (parser : NrosStreamParser) (userData : υ) (chunks : List (List UInt8)) :
    NrosStreamParser × υ :=
  chunks.foldl
    (fun progress chunk =>
      nrosStreamParserFeed callback progress.1 progress.2 chunk)
    (parser, userData)

/-- A callback that keeps every frame it is given, in order. -/
def recordFrame (frames : List Frame) (event : FrameEvent) : List Frame :=
  frames ++ [event.frame]

/-! ## Encoder -/

/-- `nros_stream_encode_frame`: the returned length and the output buffer.
`payload` is `none` for a NULL pointer. -/
def nrosStreamEncodeFrame {capacity : Nat} (header : NrosFrameHeader)
    (payload : Option (List UInt8)) (payloadLen : Nat)
    (outBuf : Buffer UInt8 capacity) : Nat × Buffer UInt8 capacity :=
  let total := frameHeaderSize + payloadLen + nrosCrcLen
  if capacity < total then
    (0, outBuf)
  else
    let withHeader := outBuf.copy 0
      ([nrosMagic0, nrosMagic1, header.type, header.topicId] ++
        putU16 header.length)
    let (withPayload, cursor) :=
      match payload with
      | some bytes =>
          if payloadLen > 0 then
            (withHeader.copy frameHeaderSize (bytes.take payloadLen),
              frameHeaderSize + payloadLen)
          else
            (withHeader, frameHeaderSize)
      | none => (withHeader, frameHeaderSize)
    let crc := crc16Buf (withPayload.take (frameHeaderSize + payloadLen))
    (total, withPayload.copy cursor (putU16 crc))

end NanoRos
