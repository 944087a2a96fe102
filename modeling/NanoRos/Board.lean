import NanoRos.StreamParser

/-!
# Board

The firmware library `nano_ros.c`: topic registration, dispatch of received
frames, the transmit buffer and publishing.  The transport, the message
serializers and the topic handlers are outside; what they return is an
argument here.
-/

namespace NanoRos

/-- Address of a function in flash. -/
abbrev CodePointer := Nat

/-- `nros_topic_t`; a name is the bytes before its terminating NUL, a NULL
`cb` is `none`. -/
structure NrosTopic where
  qos : UInt8
  topicId : UInt8
  topicName : List UInt8
  topicType : List UInt8
  cb : Option CodePointer
  deriving DecidableEq

/-- `nros_topics` with its `uint8_t` count. -/
structure TopicTable where
  topics : List NrosTopic
  count_le : topics.length ≤ 255

/-- `nros_tx_state_t`. -/
inductive NrosTxState where
  | idle
  | sendingHeader
  | sendingPayload
  | sendingFrame
  deriving DecidableEq, Repr

/-- `nros_tx_ctx_t`, less the fields nothing reads. -/
structure NrosTxCtx where
  state : NrosTxState
  header : NrosFrameHeader
  topicRegistrationIdx : UInt8
  isRegistration : Bool
  sendingRegDoneFrame : Bool
  buffer : NrosBuffer
  payloadBuffer : NrosBuffer
  frameLen : Nat
  bytesSent : Nat
  deriving DecidableEq

/-- `nros_rx_ctx_t`, less the fields nothing reads. -/
structure NrosRxCtx where
  awaitingAck : Bool
  deriving DecidableEq

/-- The static variables of the library. -/
structure Board where
  tx : NrosTxCtx
  rx : NrosRxCtx
  registrationComplete : Bool
  topicMap : Buffer (Option NrosTopic) 256
  parser : NrosStreamParser
  deriving DecidableEq

/-- Undefined behaviour the library can run into. -/
inductive BoardFault where
  | topicIndexOutOfRange
  | nullTopic
  | nullHandler
  deriving DecidableEq, Repr

namespace Board

/-! ## Registration -/

/-- The fixed part of a topic's registration; the lengths are `uint8_t`. -/
def registrationPayload (topic : NrosTopic) : NrosRegistrationPayload :=
  { topicId := topic.topicId
    qos := topic.qos
    typeNameLen := UInt8.ofNat topic.topicType.length
    topicNameLen := UInt8.ofNat topic.topicName.length }

def loadNextRegistrationFrame (table : TopicTable) (board : Board) :
    Except BoardFault Board :=
  if board.tx.sendingRegDoneFrame then
    let header :=
      { board.tx.header with
        type := NrosPacketType.registerDone.toByte, length := 0, topicId := 0 }
    let (frameLen, buffer) :=
      nrosStreamEncodeFrame header none 0 board.tx.buffer
    .ok { board with
      tx := { board.tx with
        header, frameLen, buffer, bytesSent := 0, state := .sendingFrame } }
  else
    match table.topics[board.tx.topicRegistrationIdx.toNat]? with
    | none => .error .topicIndexOutOfRange
    | some topic =>
        let nameLen := topic.topicName.length
        let typeLen := topic.topicType.length
        if typeLen > nrosMaxStrSize ∨ nameLen > nrosMaxStrSize then
          -- "STRING TOO BIG": returns without loading anything
          .ok board
        else
          let payloadSize := registrationPayloadSize + nameLen + typeLen
          let payloadBuffer :=
            ((board.tx.payloadBuffer.copy 0
                (registrationPayload topic).toBytes).copy
              registrationPayloadSize topic.topicType).copy
              (registrationPayloadSize + typeLen) topic.topicName
          let header :=
            { board.tx.header with
              length := UInt16.ofNat payloadSize
              topicId := topic.topicId
              type := NrosPacketType.register.toByte }
          let (frameLen, buffer) :=
            nrosStreamEncodeFrame header (some payloadBuffer.cells) payloadSize
              board.tx.buffer
          .ok { board with
            tx := { board.tx with
              header, payloadBuffer, frameLen, buffer
              state := .sendingFrame, bytesSent := 0 }
            rx := { board.rx with awaitingAck := true } }

/-- The session variables as `register_topics_start` sets them. -/
def startRegistration (board : Board) : Board :=
  { board with
    tx := { board.tx with
      isRegistration := true
      topicRegistrationIdx := 0
      sendingRegDoneFrame := false } }

/-- `register_topics_start`; `false` when a frame is being sent. -/
def registerTopicsStart (table : TopicTable) (board : Board) :
    Except BoardFault (Bool × Board) :=
  if board.tx.state ≠ .idle then
    .ok (false, board)
  else
    match loadNextRegistrationFrame table board.startRegistration with
    | .error fault => .error fault
    | .ok loaded => .ok (true, loaded)

def txFrameComplete (board : Board) : Board :=
  if !board.tx.isRegistration then
    { board with tx := { board.tx with state := .idle } }
  else if board.tx.sendingRegDoneFrame then
    { board with
      tx := { board.tx with state := .idle }, registrationComplete := true }
  else
    { board with tx := { board.tx with state := .idle } }

/-! ## Received frames -/

/-- A call of a topic handler with the received payload. -/
structure HandlerCall where
  handler : CodePointer
  payload : List UInt8
  deriving DecidableEq, Repr

/-- The DATA case: `topic_map[topic_id]->cb(&buf)`. -/
def dispatchData (board : Board) (frame : Frame) :
    Except BoardFault HandlerCall :=
  match (board.topicMap.load? frame.header.topicId.toNat).join with
  | none => .error .nullTopic
  | some topic =>
      match topic.cb with
      | none => .error .nullHandler
      | some handler => .ok { handler, payload := frame.payload }

/-- The session variables after an ACK that is acted on. -/
def advanceRegistration (table : TopicTable) (board : Board) : Board :=
  let idx := board.tx.topicRegistrationIdx + 1
  { board with
    tx := { board.tx with
      topicRegistrationIdx := idx
      sendingRegDoneFrame :=
        if idx.toNat ≥ table.topics.length then true
        else board.tx.sendingRegDoneFrame }
    rx := { board.rx with awaitingAck := false } }

/-- The ACK case.  The payload is only printed. -/
def dispatchAck (table : TopicTable) (board : Board) :
    Except BoardFault Board :=
  if !board.rx.awaitingAck then
    .ok board
  else if !board.tx.isRegistration then
    .ok { board with rx := { board.rx with awaitingAck := false } }
  else
    loadNextRegistrationFrame table (board.advanceRegistration table)

/-- `nros_dispatch`.  The library's own state is untouched by a handler; one
that publishes is the same run with the received chunk cut after its frame. -/
def nrosDispatch (table : TopicTable) (board : Board) (frame : Frame) :
    Except BoardFault Board :=
  match NrosPacketType.ofByte? frame.header.type with
  | some .data =>
      match dispatchData board frame with
      | .error fault => .error fault
      | .ok _ => .ok board
  | some .ack => dispatchAck table board
  | some .discover =>
      match registerTopicsStart table board with
      | .error fault => .error fault
      | .ok (_, started) => .ok started
  | some .register => .ok board
  | some .registerDone => .ok board
  | none => .ok board

/-- `on_frame_cb`, the parser's callback. -/
def onFrameCb (table : TopicTable) (progress : Except BoardFault Board)
    (event : FrameEvent) : Except BoardFault Board :=
  match progress with
  | .error fault => .error fault
  | .ok board => nrosDispatch table board event.frame

/-- `rx_poll`, given what `transport->read` returned (at most 64 bytes). -/
def rxPoll (table : TopicTable) (board : Board) (chunk : List UInt8) :
    Except BoardFault Board :=
  if chunk.length > 0 then
    let (parser, dispatched) :=
      nrosStreamParserFeed (onFrameCb table) board.parser (.ok board) chunk
    match dispatched with
    | .error fault => .error fault
    | .ok board => .ok { board with parser }
  else
    .ok board

/-! ## Transmission -/

/-- `tx_poll` and the bytes `transport->write` took.  The transport may take
any number of the bytes it is offered. -/
def txPoll (board : Board) (accepted : Nat) : Board × List UInt8 :=
  match board.tx.state with
  | .sendingFrame =>
      let n := min accepted (board.tx.frameLen - board.tx.bytesSent)
      let bytes := board.tx.buffer.slice board.tx.bytesSent n
      let advanced :=
        { board with
          tx := { board.tx with bytesSent := board.tx.bytesSent + n } }
      if advanced.tx.bytesSent < advanced.tx.frameLen then
        (advanced, bytes)
      else
        (advanced.txFrameComplete, bytes)
  | _ => (board, [])

/-- `CDR_ENCAP_HEADER`. -/
def cdrEncapHeader : List UInt8 := [0x00, 0x01, 0x00, 0x00]

/-- What a serializer did with the rest of `payload_buffer`: its result, and
the bytes it wrote. -/
structure SerializeResult where
  ok : Bool
  bytes : List UInt8
  fits : bytes.length ≤ nrosBufferSize - cdrEncapHeader.length

def nrosPublish (board : Board) (topicId : UInt8)
    (serialized : SerializeResult) : Bool × Board :=
  if board.tx.state ≠ .idle ∨ !board.registrationComplete then
    (false, board)
  else
    let payloadBuffer :=
      (board.tx.payloadBuffer.copy 0 cdrEncapHeader).copy
        cdrEncapHeader.length serialized.bytes
    let board := { board with tx := { board.tx with payloadBuffer } }
    if !serialized.ok then
      (false, board)
    else
      let payloadLen := cdrEncapHeader.length + serialized.bytes.length
      let header :=
        { NrosFrameHeader.zeroed with
          length := UInt16.ofNat payloadLen
          topicId
          type := NrosPacketType.data.toByte }
      let (frameLen, buffer) :=
        nrosStreamEncodeFrame header (some payloadBuffer.cells) payloadLen
          board.tx.buffer
      let board :=
        { board with tx := { board.tx with header, frameLen, buffer } }
      if frameLen = 0 then
        (false, board)
      else
        (true,
          { board with
            tx := { board.tx with
              bytesSent := 0
              isRegistration := false
              state := .sendingFrame } })

/-! ## Start-up -/

/-- The static variables before any call. -/
def powerUp : Board :=
  { tx :=
      { state := .idle
        header := .zeroed
        topicRegistrationIdx := 0
        isRegistration := false
        sendingRegDoneFrame := false
        buffer := .filled _ 0
        payloadBuffer := .filled _ 0
        frameLen := 0
        bytesSent := 0 }
    rx := { awaitingAck := false }
    registrationComplete := false
    topicMap := .filled _ none
    parser := nrosStreamParserInit }

/-- `nros_init`, given what the transport's `init` and `open` returned. -/
def nrosInit (table : TopicTable) (board : Board) (initOk openOk : Bool) :
    Bool × Board :=
  let board := { board with parser := nrosStreamParserInit }
  if !openOk || !initOk then
    (false, board)
  else
    (true,
      { board with
        topicMap := table.topics.foldl
          (fun map topic => map.store topic.topicId.toNat (some topic))
          board.topicMap })

/-- The board as the firmware starts using it. -/
def initial (table : TopicTable) : Board :=
  (nrosInit table powerUp true true).2

end Board

end NanoRos
