import NanoRos.FrameEncoding
import NanoRos.Board

/-!
# What one call does to the board

For each entry point of the library, the cases it can take and what each of
them leaves in the transmit buffer and in the session variables.
-/

namespace NanoRos

/-! ## The frames of the two parties -/

def registrationFrame (topic : NrosTopic) : Frame :=
  { header :=
      { magic0 := nrosMagic0
        magic1 := nrosMagic1
        type := NrosPacketType.register.toByte
        topicId := topic.topicId
        length := UInt16.ofNat (registrationPayloadSize +
          topic.topicName.length + topic.topicType.length) }
    payload := (Board.registrationPayload topic).toBytes ++
      topic.topicType ++ topic.topicName }

def registerDoneFrame : Frame :=
  { header :=
      { magic0 := nrosMagic0
        magic1 := nrosMagic1
        type := NrosPacketType.registerDone.toByte
        topicId := 0
        length := 0 }
    payload := [] }

def dataFrame (topicId : UInt8) (bytes : List UInt8) : Frame :=
  { header :=
      { magic0 := nrosMagic0
        magic1 := nrosMagic1
        type := NrosPacketType.data.toByte
        topicId
        length := UInt16.ofNat (Board.cdrEncapHeader.length + bytes.length) }
    payload := Board.cdrEncapHeader ++ bytes }

def ackFrame (ack : NrosAckPayload) : Frame :=
  { header :=
      { magic0 := nrosMagic0
        magic1 := nrosMagic1
        type := NrosPacketType.ack.toByte
        topicId := ack.topicId
        length := 2 }
    payload := ack.toBytes }

/-- The names pass the check of `load_next_registration_frame`. -/
def NrosTopic.NamesFit (topic : NrosTopic) : Prop :=
  topic.topicType.length ≤ nrosMaxStrSize ∧
    topic.topicName.length ≤ nrosMaxStrSize

instance (topic : NrosTopic) : Decidable topic.NamesFit :=
  inferInstanceAs (Decidable (_ ∧ _))

theorem NrosTopic.NamesFit.length_payload {topic : NrosTopic}
    (fit : topic.NamesFit) :
    (registrationFrame topic).payload.length ≤ nrosMaxPayload := by
  have := fit.1
  have := fit.2
  simp only [registrationFrame, List.length_append,
    NrosRegistrationPayload.length_toBytes]
  simp only [nrosMaxStrSize, nrosMaxPayload, nrosBufferSize, frameHeaderSize,
    nrosCrcLen] at *
  omega

theorem registrationFrame_sendable {topic : NrosTopic}
    (fit : topic.NamesFit) : (registrationFrame topic).Sendable where
  counts := by
    have := fit.1
    have := fit.2
    simp only [registrationFrame, List.length_append,
      NrosRegistrationPayload.length_toBytes, UInt16.toNat_ofNat']
    simp only [nrosMaxStrSize, registrationPayloadSize] at *
    omega
  fits := fit.length_payload

theorem registrationFrame_deliverable {topic : NrosTopic}
    (fit : topic.NamesFit) : (registrationFrame topic).Deliverable :=
  (registrationFrame_sendable fit).onWire_deliverable

theorem registerDoneFrame_sendable : registerDoneFrame.Sendable :=
  ⟨rfl, Nat.zero_le _⟩

theorem registerDoneFrame_deliverable : registerDoneFrame.Deliverable :=
  registerDoneFrame_sendable.onWire_deliverable

theorem dataFrame_sendable {topicId : UInt8} {bytes : List UInt8}
    (fits : (dataFrame topicId bytes).payload.length ≤ nrosMaxPayload) :
    (dataFrame topicId bytes).Sendable where
  counts := by
    simp only [dataFrame, List.length_append] at fits ⊢
    simp only [nrosMaxPayload, nrosBufferSize, frameHeaderSize, nrosCrcLen]
      at fits
    simp only [UInt16.toNat_ofNat']
    omega
  fits := fits

theorem dataFrame_deliverable {topicId : UInt8} {bytes : List UInt8}
    (fits : (dataFrame topicId bytes).payload.length ≤ nrosMaxPayload) :
    (dataFrame topicId bytes).Deliverable :=
  (dataFrame_sendable fits).onWire_deliverable

namespace Board

/-- The transmit buffer holds `frame`, and not all of it is sent yet. -/
structure Sending (board : Board) (frame : Frame) : Prop where
  deliverable : frame.Deliverable
  state : board.tx.state = .sendingFrame
  length : board.tx.frameLen = frame.encoded.length
  bytes : board.tx.buffer.take frame.encoded.length = frame.encoded
  unfinished : board.tx.bytesSent < board.tx.frameLen

/-- The bytes of the current frame that no write has taken yet. -/
def unsent (board : Board) : List UInt8 :=
  match board.tx.state with
  | .sendingFrame =>
      board.tx.buffer.slice board.tx.bytesSent
        (board.tx.frameLen - board.tx.bytesSent)
  | _ => []

/-- Everything but the transmit buffer and the ACK flag is as before. -/
structure SameSession (before after : Board) : Prop where
  idx : after.tx.topicRegistrationIdx = before.tx.topicRegistrationIdx
  isRegistration : after.tx.isRegistration = before.tx.isRegistration
  regDone : after.tx.sendingRegDoneFrame = before.tx.sendingRegDoneFrame
  complete : after.registrationComplete = before.registrationComplete
  topicMap : after.topicMap = before.topicMap
  parser : after.parser = before.parser

theorem registrationFrame_ne_registerDone (topic : NrosTopic) :
    registrationFrame topic ≠ registerDoneFrame := by
  intro same
  have type := congrArg (fun frame => frame.header.type) same
  exact absurd type (by decide : NrosPacketType.register.toByte ≠
    NrosPacketType.registerDone.toByte)

theorem dataFrame_ne_registerDone (topicId : UInt8) (bytes : List UInt8) :
    dataFrame topicId bytes ≠ registerDoneFrame := by
  intro same
  have type := congrArg (fun frame => frame.header.type) same
  exact absurd type (by decide : NrosPacketType.data.toByte ≠
    NrosPacketType.registerDone.toByte)

theorem not_idle_of_sending {board : Board} {frame : Frame}
    (sending : board.Sending frame) : board.tx.state ≠ .idle := by
  rw [sending.state]
  decide

theorem unsent_of_idle {board : Board} (idle : board.tx.state = .idle) :
    board.unsent = [] := by
  simp only [unsent, idle]

/-- The buffer holds one frame only. -/
theorem Sending.unique {board : Board} {left right : Frame}
    (sendsLeft : board.Sending left) (sendsRight : board.Sending right) :
    left = right := by
  have lengths := sendsLeft.length.symm.trans sendsRight.length
  have bytes : left.encoded ++ [] = right.encoded ++ [] := by
    rw [List.append_nil, List.append_nil, ← sendsLeft.bytes,
      ← sendsRight.bytes, lengths]
  exact (Frame.encoded_append_inj sendsLeft.deliverable.counts
    sendsRight.deliverable.counts bytes).1

/-- A frame loaded and not begun is unsent as a whole. -/
theorem Sending.unsent_eq {board : Board} {frame : Frame}
    (sending : board.Sending frame) (start : board.tx.bytesSent = 0) :
    board.unsent = frame.encoded := by
  simp only [unsent, sending.state, start, Buffer.slice_zero_offset,
    Nat.sub_zero, sending.length]
  exact sending.bytes

/-- The part of a frame that was sent, followed by the rest, is the frame. -/
theorem Sending.take_append_unsent {board : Board} {frame : Frame}
    (sending : board.Sending frame) :
    board.tx.buffer.take board.tx.bytesSent ++ board.unsent =
      frame.encoded := by
  have bound := Nat.le_of_lt sending.unfinished
  have joined := board.tx.buffer.slice_append 0 board.tx.bytesSent
    (board.tx.frameLen - board.tx.bytesSent)
  rw [Nat.zero_add, Nat.add_sub_cancel' bound, Buffer.slice_zero_offset,
    Buffer.slice_zero_offset, sending.length, sending.bytes] at joined
  simpa only [unsent, sending.state, sending.length] using joined

/-- A freshly loaded frame is being sent. -/
theorem sending_of_loaded {board : Board} {frame : Frame}
    (deliverable : frame.Deliverable)
    (state : board.tx.state = .sendingFrame)
    (length : board.tx.frameLen = frame.encoded.length)
    (bytes : board.tx.buffer.take frame.encoded.length = frame.encoded)
    (start : board.tx.bytesSent = 0) : board.Sending frame := by
  refine ⟨deliverable, state, length, bytes, ?_⟩
  rw [start, length]
  exact List.length_pos_iff.mpr frame.encoded_ne_nil

theorem Sending.unsent_ne_nil {board : Board} {frame : Frame}
    (sending : board.Sending frame) : board.unsent ≠ [] := by
  intro empty
  have whole := sending.take_append_unsent
  rw [empty, List.append_nil] at whole
  have lengths := congrArg List.length whole
  rw [Buffer.length_take, ← sending.length] at lengths
  have := sending.unfinished
  omega

/-- The encoder reads only as much of the payload as it is told to. -/
theorem encode_take_payload (header : NrosFrameHeader) (bytes : List UInt8)
    (count : Nat) (buffer : NrosBuffer) :
    nrosStreamEncodeFrame header (some bytes) count buffer =
      nrosStreamEncodeFrame header (some (bytes.take count)) count buffer := by
  simp only [nrosStreamEncodeFrame, List.take_take, Nat.min_self]

/-- An accepted encoding leaves the frame's bytes in the buffer. -/
theorem encode_buffer (header : NrosFrameHeader) (bytes : List UInt8)
    (buffer : NrosBuffer) {frame : Frame} (sendable : frame.Sendable)
    (wire : header.onWire = frame.header)
    (payload : bytes.take frame.payload.length = frame.payload) :
    (nrosStreamEncodeFrame header (some bytes) frame.payload.length
        buffer).1 = frame.encoded.length ∧
      (nrosStreamEncodeFrame header (some bytes) frame.payload.length
        buffer).2.take frame.encoded.length = frame.encoded := by
  have fits := sendable.fits
  have room :
      frameHeaderSize + frame.payload.length + nrosCrcLen ≤ nrosBufferSize := by
    simp only [nrosMaxPayload, nrosBufferSize, frameHeaderSize, nrosCrcLen]
      at fits ⊢
    omega
  have same : Frame.onWire ⟨header, frame.payload⟩ = frame := by
    cases frame
    simp only [Frame.onWire, wire]
  rw [encode_take_payload, payload]
  have length := congrArg Prod.fst
    (nrosStreamEncodeFrame_of_fits header frame.payload buffer room)
  have written := nrosStreamEncodeFrame_take header frame.payload buffer room
  rw [same, length] at written
  rw [← Frame.length_encoded] at length written
  exact ⟨length, written⟩

/-! ## Loading a registration frame -/

/-- `load_next_registration_frame` puts a frame into the buffer. -/
def LoadsFrame (board : Board) (table : TopicTable) : Prop :=
  board.tx.sendingRegDoneFrame = true ∨
    ∃ topic ∈ table.topics[board.tx.topicRegistrationIdx.toNat]?,
      topic.NamesFit

instance (table : TopicTable) (board : Board) :
    Decidable (board.LoadsFrame table) :=
  inferInstanceAs (Decidable (_ ∨ ∃ topic ∈ _, NrosTopic.NamesFit topic))

/-- What `load_next_registration_frame` does when it returns. -/
inductive LoadStep (table : TopicTable) (before after : Board) : Prop
  | done (regDone : before.tx.sendingRegDoneFrame = true)
      (sending : after.Sending registerDoneFrame)
      (start : after.tx.bytesSent = 0) (same : before.SameSession after)
      (acks : after.rx = before.rx)
  | tooLong (topic : NrosTopic)
      (found : table.topics[before.tx.topicRegistrationIdx.toNat]? =
        some topic)
      (regDone : before.tx.sendingRegDoneFrame = false)
      (long : ¬topic.NamesFit) (same : after = before)
  | register (topic : NrosTopic)
      (found : table.topics[before.tx.topicRegistrationIdx.toNat]? =
        some topic)
      (regDone : before.tx.sendingRegDoneFrame = false)
      (fit : topic.NamesFit)
      (sending : after.Sending (registrationFrame topic))
      (start : after.tx.bytesSent = 0) (same : before.SameSession after)
      (awaiting : after.rx.awaitingAck = true)

/-- The payload buffer holds a topic's registration. -/
private theorem registration_take (buffer : NrosBuffer) {topic : NrosTopic}
    (fit : topic.NamesFit) :
    (((buffer.copy 0 (registrationPayload topic).toBytes).copy
          registrationPayloadSize topic.topicType).copy
        (registrationPayloadSize + topic.topicType.length)
        topic.topicName).take (registrationFrame topic).payload.length =
      (registrationFrame topic).payload := by
  have short := fit.length_payload
  simp only [registrationFrame, List.length_append,
    NrosRegistrationPayload.length_toBytes, nrosMaxPayload, nrosBufferSize]
    at short
  have typeJoined := buffer.copy_copy 0 (registrationPayload topic).toBytes
    topic.topicType (by
      simp only [NrosRegistrationPayload.length_toBytes, nrosBufferSize]
      omega)
  have nameJoined := buffer.copy_copy 0
    ((registrationPayload topic).toBytes ++ topic.topicType) topic.topicName (by
      simp only [List.length_append, NrosRegistrationPayload.length_toBytes,
        nrosBufferSize]
      omega)
  simp only [List.length_append, NrosRegistrationPayload.length_toBytes,
    Nat.zero_add] at typeJoined nameJoined
  simp only [registrationPayloadSize]
  rw [typeJoined, nameJoined]
  have taken := buffer.take_copy 0 (registrationFrame topic).payload (by
    simp only [registrationFrame, List.length_append,
      NrosRegistrationPayload.length_toBytes, nrosBufferSize]
    omega)
  rw [Nat.zero_add, Buffer.take_zero, List.nil_append] at taken
  exact taken

theorem registrationFrame_length {topic : NrosTopic} :
    (registrationFrame topic).payload.length =
      registrationPayloadSize + topic.topicName.length +
        topic.topicType.length := by
  simp only [registrationFrame, List.length_append,
    NrosRegistrationPayload.length_toBytes, registrationPayloadSize]
  omega

theorem loadStep {table : TopicTable} {before after : Board}
    (loaded : loadNextRegistrationFrame table before = .ok after) :
    before.LoadStep table after := by
  unfold loadNextRegistrationFrame at loaded
  split at loaded
  next regDone =>
    cases loaded
    have encoded := encode_buffer
      { before.tx.header with
        type := NrosPacketType.registerDone.toByte, length := 0, topicId := 0 }
      [] before.tx.buffer registerDoneFrame_sendable rfl rfl
    apply LoadStep.done regDone
    · exact sending_of_loaded registerDoneFrame_deliverable rfl encoded.1
        encoded.2 rfl
    · rfl
    · exact ⟨rfl, rfl, rfl, rfl, rfl, rfl⟩
    · rfl
  next notDone =>
    have regDone : before.tx.sendingRegDoneFrame = false := by
      simpa using notDone
    split at loaded
    · cases loaded
    next topic found =>
      dsimp only at loaded
      split at loaded
      next long =>
        cases loaded
        apply LoadStep.tooLong topic found regDone _ rfl
        intro fit
        rcases long with typeLong | nameLong
        · exact absurd fit.1 (Nat.not_le.mpr typeLong)
        · exact absurd fit.2 (Nat.not_le.mpr nameLong)
      next short =>
        have fit : topic.NamesFit := by
          simp only [not_or, Nat.not_lt] at short
          exact short
        cases loaded
        have encoded := encode_buffer
          { before.tx.header with
            length := UInt16.ofNat (registrationPayloadSize +
              topic.topicName.length + topic.topicType.length)
            topicId := topic.topicId
            type := NrosPacketType.register.toByte }
          _ before.tx.buffer (registrationFrame_sendable fit) rfl
          (registration_take before.tx.payloadBuffer fit)
        rw [registrationFrame_length] at encoded
        apply LoadStep.register topic found regDone fit
        · exact sending_of_loaded (registrationFrame_deliverable fit) rfl
            encoded.1 encoded.2 rfl
        · rfl
        · exact ⟨rfl, rfl, rfl, rfl, rfl, rfl⟩
        · rfl

/-! ## Dispatching a frame -/

/-- What `nros_dispatch` does when it returns. -/
inductive DispatchStep (table : TopicTable) (before : Board) (frame : Frame)
    (after : Board) : Prop
  | passed (notAck : frame.header.type ≠ NrosPacketType.ack.toByte)
      (notDiscover : frame.header.type ≠ NrosPacketType.discover.toByte)
      (same : after = before)
  | ackIgnored (ack : frame.header.type = NrosPacketType.ack.toByte)
      (notAwaiting : before.rx.awaitingAck = false) (same : after = before)
  | ackOutside (ack : frame.header.type = NrosPacketType.ack.toByte)
      (awaiting : before.rx.awaitingAck = true)
      (outside : before.tx.isRegistration = false)
      (cleared : after = { before with rx := { awaitingAck := false } })
  | ackTaken (ack : frame.header.type = NrosPacketType.ack.toByte)
      (awaiting : before.rx.awaitingAck = true)
      (registering : before.tx.isRegistration = true)
      (loaded : (before.advanceRegistration table).LoadStep table after)
  | discoverDropped
      (discover : frame.header.type = NrosPacketType.discover.toByte)
      (busy : before.tx.state ≠ .idle) (same : after = before)
  | discoverTaken
      (discover : frame.header.type = NrosPacketType.discover.toByte)
      (idle : before.tx.state = .idle)
      (loaded : before.startRegistration.LoadStep table after)

theorem dispatchStep {table : TopicTable} {before after : Board}
    {frame : Frame} (dispatched : nrosDispatch table before frame = .ok after) :
    before.DispatchStep table frame after := by
  have passes (packet : NrosPacketType) (notAck : packet ≠ .ack)
      (notDiscover : packet ≠ .discover)
      (kind : NrosPacketType.ofByte? frame.header.type = some packet)
      (same : after = before) : before.DispatchStep table frame after := by
    have type := NrosPacketType.ofByte?_eq_some_iff.mp kind
    apply DispatchStep.passed _ _ same
    · rw [type]
      intro equal
      exact notAck (NrosPacketType.toByte_injective equal)
    · rw [type]
      intro equal
      exact notDiscover (NrosPacketType.toByte_injective equal)
  unfold nrosDispatch at dispatched
  split at dispatched
  next kind =>
    split at dispatched
    · cases dispatched
    · cases dispatched
      exact passes .data nofun nofun kind rfl
  next kind =>
    have ack := NrosPacketType.ofByte?_eq_some_iff.mp kind
    unfold dispatchAck at dispatched
    split at dispatched
    next notAwaiting =>
      cases dispatched
      exact .ackIgnored ack (by simpa using notAwaiting) rfl
    next awaiting =>
      have awaiting : before.rx.awaitingAck = true := by
        simpa using awaiting
      split at dispatched
      next outside =>
        cases dispatched
        exact .ackOutside ack awaiting (by simpa using outside) rfl
      next registering =>
        exact .ackTaken ack awaiting (by simpa using registering)
          (loadStep dispatched)
  next kind =>
    have discover := NrosPacketType.ofByte?_eq_some_iff.mp kind
    unfold registerTopicsStart at dispatched
    split at dispatched
    · cases dispatched
    next started =>
      cases dispatched
      split at started
      next busy =>
        cases started
        exact .discoverDropped discover busy rfl
      next idle =>
        split at started
        · cases started
        next loaded =>
          cases started
          exact .discoverTaken discover (by simpa using idle) (loadStep loaded)
  next kind =>
    cases dispatched
    exact passes .register nofun nofun kind rfl
  next kind =>
    cases dispatched
    exact passes .registerDone nofun nofun kind rfl
  next kind =>
    cases dispatched
    apply DispatchStep.passed _ _ rfl
    · intro equal
      rw [equal, NrosPacketType.ofByte?_toByte] at kind
      cases kind
    · intro equal
      rw [equal, NrosPacketType.ofByte?_toByte] at kind
      cases kind

/-- An ACK that is awaited in a registration is acted on. -/
theorem DispatchStep.taken {table : TopicTable} {before after : Board}
    {frame : Frame} (step : before.DispatchStep table frame after)
    (ack : frame.header.type = NrosPacketType.ack.toByte)
    (awaiting : before.rx.awaitingAck = true)
    (inside : before.tx.isRegistration = true) :
    (before.advanceRegistration table).LoadStep table after := by
  have notDiscover :
      frame.header.type ≠ NrosPacketType.discover.toByte := by
    rw [ack]
    decide
  cases step with
  | passed notAck _ _ => exact absurd ack notAck
  | ackIgnored _ notAwaiting _ =>
      rw [notAwaiting] at awaiting
      cases awaiting
  | ackOutside _ _ outside _ =>
      rw [outside] at inside
      cases inside
  | ackTaken _ _ _ loaded => exact loaded
  | discoverDropped discover _ _ => exact absurd discover notDiscover
  | discoverTaken discover _ _ => exact absurd discover notDiscover

/-! ## Writing -/

/-- Nothing is being sent, or a frame is and part of it is still unsent. -/
def Settled (board : Board) : Prop :=
  board.tx.state = .idle ∨ ∃ frame, board.Sending frame

/-- The frame being sent, and how much of it is sent, are as before. -/
structure SameTransmission (before after : Board) : Prop where
  state : after.tx.state = before.tx.state
  buffer : after.tx.buffer = before.tx.buffer
  frameLen : after.tx.frameLen = before.tx.frameLen
  bytesSent : after.tx.bytesSent = before.tx.bytesSent

theorem SameTransmission.sending {before after : Board} {frame : Frame}
    (same : before.SameTransmission after) (sending : before.Sending frame) :
    after.Sending frame := by
  constructor
  · exact sending.deliverable
  · rw [same.state, sending.state]
  · rw [same.frameLen, sending.length]
  · rw [same.buffer, sending.bytes]
  · rw [same.bytesSent, same.frameLen]
    exact sending.unfinished

theorem SameTransmission.unsent {before after : Board}
    (same : before.SameTransmission after) : after.unsent = before.unsent := by
  simp only [Board.unsent, same.state, same.buffer, same.frameLen,
    same.bytesSent]

theorem SameTransmission.settled {before after : Board}
    (same : before.SameTransmission after) (settled : before.Settled) :
    after.Settled := by
  rcases settled with idle | ⟨frame, sending⟩
  · exact .inl (same.state.trans idle)
  · exact .inr ⟨frame, same.sending sending⟩

theorem advanceRegistration_transmission (table : TopicTable)
    (board : Board) :
    board.SameTransmission (board.advanceRegistration table) :=
  ⟨rfl, rfl, rfl, rfl⟩

theorem Settled.of_sending {board : Board} {frame : Frame}
    (sending : board.Sending frame) : board.Settled :=
  .inr ⟨frame, sending⟩

/-- The session variables after a frame's last byte was taken. -/
structure Completed (before after : Board) : Prop where
  idle : after.tx.state = .idle
  idx : after.tx.topicRegistrationIdx = before.tx.topicRegistrationIdx
  isRegistration : after.tx.isRegistration = before.tx.isRegistration
  regDone : after.tx.sendingRegDoneFrame = before.tx.sendingRegDoneFrame
  complete : after.registrationComplete =
    (before.registrationComplete ||
      (before.tx.isRegistration && before.tx.sendingRegDoneFrame))
  topicMap : after.topicMap = before.topicMap
  parser : after.parser = before.parser
  rx : after.rx = before.rx

/-- What `tx_poll` does. -/
inductive TxStep (before after : Board) (bytes : List UInt8) : Prop
  | quiet (idle : before.tx.state = .idle) (same : after = before)
      (nothing : bytes = [])
  | partly (frame : Frame) (sending : before.Sending frame)
      (still : after.Sending frame)
      (sent : after.tx.buffer.take after.tx.bytesSent =
        before.tx.buffer.take before.tx.bytesSent ++ bytes)
      (split : before.unsent = bytes ++ after.unsent)
      (same : before.SameSession after) (rx : after.rx = before.rx)
  | finished (frame : Frame) (sending : before.Sending frame)
      (whole : bytes = before.unsent) (completed : before.Completed after)

theorem txFrameComplete_completed (board : Board) :
    board.Completed board.txFrameComplete := by
  unfold txFrameComplete
  cases registering : board.tx.isRegistration with
  | false =>
      constructor <;> simp [registering]
  | true =>
      cases regDone : board.tx.sendingRegDoneFrame with
      | false => constructor <;> simp [registering, regDone]
      | true => constructor <;> simp [registering, regDone]

theorem txStep {board : Board} (settled : board.Settled) (accepted : Nat) :
    board.TxStep (board.txPoll accepted).1 (board.txPoll accepted).2 := by
  rcases settled with idle | ⟨frame, sending⟩
  · simp only [txPoll, idle]
    exact .quiet idle rfl rfl
  · simp only [txPoll, sending.state]
    have unfinished := sending.unfinished
    generalize count : min accepted (board.tx.frameLen - board.tx.bytesSent) = n
    have bound : n ≤ board.tx.frameLen - board.tx.bytesSent := by omega
    have joined := board.tx.buffer.slice_append 0 board.tx.bytesSent n
    rw [Nat.zero_add, Buffer.slice_zero_offset, Buffer.slice_zero_offset]
      at joined
    have cut := board.tx.buffer.slice_append board.tx.bytesSent n
      (board.tx.frameLen - (board.tx.bytesSent + n))
    have total :
        n + (board.tx.frameLen - (board.tx.bytesSent + n)) =
          board.tx.frameLen - board.tx.bytesSent := by omega
    rw [total] at cut
    split
    next short =>
      refine .partly frame sending ⟨sending.deliverable, rfl, sending.length,
        sending.bytes, short⟩ ?_ ?_ ?_ ?_
      · exact joined.symm
      · simp only [unsent, sending.state]
        exact cut.symm
      · exact ⟨rfl, rfl, rfl, rfl, rfl, rfl⟩
      · rfl
    next finished =>
      have whole : n = board.tx.frameLen - board.tx.bytesSent := by
        have := Nat.not_lt.mp finished
        omega
      refine .finished frame sending ?_ ?_
      · simp only [unsent, sending.state, whole]
      · have completed := txFrameComplete_completed { board with
          tx := { board.tx with bytesSent := board.tx.bytesSent + n } }
        exact ⟨completed.idle, completed.idx, completed.isRegistration,
          completed.regDone, completed.complete, completed.topicMap,
          completed.parser, completed.rx⟩

/-! ## Publishing -/

/-- The serializer succeeded and the DATA frame fits in a buffer. -/
def SerializeResult.Fits (serialized : SerializeResult) : Prop :=
  serialized.ok = true ∧
    cdrEncapHeader.length + serialized.bytes.length ≤ nrosMaxPayload

instance (serialized : SerializeResult) : Decidable serialized.Fits :=
  inferInstanceAs (Decidable (_ ∧ _))

/-- What `nros_publish` does. -/
inductive PublishStep (before : Board) (topicId : UInt8)
    (serialized : SerializeResult) : Bool × Board → Prop
  | busy {after : Board}
      (closed : before.tx.state ≠ .idle ∨ before.registrationComplete = false)
      (same : after = before) :
      PublishStep before topicId serialized (false, after)
  | failed {after : Board} (idle : before.tx.state = .idle)
      (unfit : ¬serialized.Fits) (stillIdle : after.tx.state = .idle)
      (same : before.SameSession after) (rx : after.rx = before.rx) :
      PublishStep before topicId serialized (false, after)
  | loaded {after : Board} (idle : before.tx.state = .idle)
      (complete : before.registrationComplete = true)
      (fits : serialized.Fits)
      (sending : after.Sending (dataFrame topicId serialized.bytes))
      (start : after.tx.bytesSent = 0)
      (outside : after.tx.isRegistration = false)
      (same : SameSession
        { before with tx := { before.tx with isRegistration := false } } after)
      (rx : after.rx = before.rx) :
      PublishStep before topicId serialized (true, after)

/-- The payload buffer holds the encapsulation header and the message. -/
private theorem data_take (buffer : NrosBuffer) (topicId : UInt8)
    (serialized : SerializeResult) :
    ((buffer.copy 0 cdrEncapHeader).copy cdrEncapHeader.length
        serialized.bytes).take
      (dataFrame topicId serialized.bytes).payload.length =
        (dataFrame topicId serialized.bytes).payload := by
  have room := serialized.fits
  simp only [cdrEncapHeader, nrosBufferSize, List.length_cons,
    List.length_nil] at room
  have joined := buffer.copy_copy 0 cdrEncapHeader serialized.bytes (by
    simp only [cdrEncapHeader, nrosBufferSize, List.length_cons,
      List.length_nil]
    omega)
  rw [Nat.zero_add] at joined
  rw [joined]
  have taken := buffer.take_copy 0
    (dataFrame topicId serialized.bytes).payload (by
      simp only [dataFrame, cdrEncapHeader, nrosBufferSize, List.length_append,
        List.length_cons, List.length_nil]
      omega)
  rw [Nat.zero_add, Buffer.take_zero, List.nil_append] at taken
  exact taken

theorem publishStep (board : Board) (topicId : UInt8)
    (serialized : SerializeResult) :
    board.PublishStep topicId serialized
      (board.nrosPublish topicId serialized) := by
  unfold nrosPublish
  split
  next closed =>
    exact .busy (by simpa using closed) rfl
  next opened =>
    simp only [not_or, ne_eq, not_not, Bool.not_eq_true',
      Bool.not_eq_false] at opened
    obtain ⟨idle, complete⟩ := opened
    have length : (dataFrame topicId serialized.bytes).payload.length =
        cdrEncapHeader.length + serialized.bytes.length := by
      simp only [dataFrame, List.length_append]
    dsimp only
    split
    next failed =>
      refine .failed idle ?_ idle ⟨rfl, rfl, rfl, rfl, rfl, rfl⟩ rfl
      intro fits
      rw [fits.1] at failed
      cases failed
    next serializedOk =>
      have serializedOk : serialized.ok = true := by simpa using serializedOk
      have payload := data_take board.tx.payloadBuffer topicId serialized
      by_cases fits : cdrEncapHeader.length + serialized.bytes.length ≤
          nrosMaxPayload
      · have sendable : (dataFrame topicId serialized.bytes).Sendable :=
          dataFrame_sendable (length ▸ fits)
        have encoded := encode_buffer
          { NrosFrameHeader.zeroed with
            length := UInt16.ofNat
              (cdrEncapHeader.length + serialized.bytes.length)
            topicId
            type := NrosPacketType.data.toByte }
          _ board.tx.buffer sendable rfl payload
        rw [length] at encoded
        have nonzero :
            (dataFrame topicId serialized.bytes).encoded.length ≠ 0 := by
          intro zero
          exact Frame.encoded_ne_nil _ (List.length_eq_zero_iff.mp zero)
        rw [if_neg (by rw [encoded.1]; exact nonzero)]
        apply PublishStep.loaded idle complete ⟨serializedOk, fits⟩
        · exact sending_of_loaded (dataFrame_deliverable (length ▸ fits)) rfl
            encoded.1 encoded.2 rfl
        · rfl
        · rfl
        · exact ⟨rfl, rfl, rfl, rfl, rfl, rfl⟩
        · rfl
      · have overflow :
            nrosBufferSize < frameHeaderSize + (cdrEncapHeader.length +
              serialized.bytes.length) + nrosCrcLen := by
          simp only [nrosMaxPayload, nrosBufferSize, frameHeaderSize,
            nrosCrcLen] at fits ⊢
          omega
        rw [nrosStreamEncodeFrame_of_overflow _ _ _ _ overflow, if_pos rfl]
        refine .failed idle ?_ idle ⟨rfl, rfl, rfl, rfl, rfl, rfl⟩ rfl
        intro fit
        exact fits fit.2

/-- A call of `nros_publish` returns true exactly when it finds the library
idle and registered, and its message fits. -/
theorem publish_eq_true_iff (board : Board) (topicId : UInt8)
    (serialized : SerializeResult) :
    (board.nrosPublish topicId serialized).1 = true ↔
      board.tx.state = .idle ∧ board.registrationComplete = true ∧
        serialized.Fits := by
  have published := publishStep board topicId serialized
  generalize board.nrosPublish topicId serialized = outcome at published ⊢
  cases published with
  | busy closed _ =>
      simp only [Bool.false_eq_true, false_iff]
      rintro ⟨idle, complete, _⟩
      rcases closed with busy | incomplete
      · exact busy idle
      · rw [complete] at incomplete
        cases incomplete
  | failed _ unfit _ _ _ =>
      simp only [Bool.false_eq_true, false_iff]
      exact fun ⟨_, _, fits⟩ => unfit fits
  | loaded idle complete fits _ _ _ _ _ =>
      simp only [true_iff]
      exact ⟨idle, complete, fits⟩

/-! ## The index after every call -/

theorem LoadStep.idx {table : TopicTable} {before after : Board}
    (step : before.LoadStep table after) :
    after.tx.topicRegistrationIdx = before.tx.topicRegistrationIdx := by
  cases step with
  | done _ _ _ same _ => exact same.idx
  | tooLong _ _ _ _ same => rw [same]
  | register _ _ _ _ _ _ same _ => exact same.idx

theorem TxStep.idx {before after : Board} {bytes : List UInt8}
    (step : before.TxStep after bytes) :
    after.tx.topicRegistrationIdx = before.tx.topicRegistrationIdx := by
  cases step with
  | quiet _ same _ => rw [same]
  | partly _ _ _ _ _ same _ => exact same.idx
  | finished _ _ _ completed => exact completed.idx

theorem PublishStep.idx {before after : Board} {topicId : UInt8}
    {serialized : SerializeResult} {result : Bool}
    (step : before.PublishStep topicId serialized (result, after)) :
    after.tx.topicRegistrationIdx = before.tx.topicRegistrationIdx := by
  cases step with
  | busy _ same => rw [same]
  | failed _ _ _ same _ => exact same.idx
  | loaded _ _ _ _ _ _ same _ => exact same.idx

/-! ## The transmit buffer is settled after every call -/

theorem LoadStep.settled {table : TopicTable} {before after : Board}
    (step : before.LoadStep table after) (settled : before.Settled) :
    after.Settled := by
  cases step with
  | done _ sending _ _ _ => exact .of_sending sending
  | tooLong _ _ _ _ same =>
      rw [same]
      exact settled
  | register _ _ _ _ sending _ _ _ => exact .of_sending sending

theorem DispatchStep.settled {table : TopicTable} {before after : Board}
    {frame : Frame} (step : before.DispatchStep table frame after)
    (settled : before.Settled) : after.Settled := by
  cases step with
  | passed _ _ same =>
      rw [same]
      exact settled
  | ackIgnored _ _ same =>
      rw [same]
      exact settled
  | ackOutside _ _ _ cleared =>
      rw [cleared]
      have same : before.SameTransmission
          { before with rx := { awaitingAck := false } } :=
        ⟨rfl, rfl, rfl, rfl⟩
      exact same.settled settled
  | ackTaken _ _ _ loaded =>
      apply loaded.settled
      exact (advanceRegistration_transmission table before).settled settled
  | discoverDropped _ _ same =>
      rw [same]
      exact settled
  | discoverTaken _ idle loaded =>
      apply loaded.settled
      exact .inl idle

theorem TxStep.settled {before after : Board} {bytes : List UInt8}
    (step : before.TxStep after bytes) (settled : before.Settled) :
    after.Settled := by
  cases step with
  | quiet _ same _ =>
      rw [same]
      exact settled
  | partly _ _ still _ _ _ _ => exact .of_sending still
  | finished _ _ _ completed => exact .inl completed.idle

theorem PublishStep.settled {before after : Board} {topicId : UInt8}
    {serialized : SerializeResult} {result : Bool}
    (step : before.PublishStep topicId serialized (result, after))
    (settled : before.Settled) : after.Settled := by
  cases step with
  | busy _ same =>
      rw [same]
      exact settled
  | failed _ _ stillIdle _ _ => exact .inl stillIdle
  | loaded _ _ _ sending _ _ _ _ => exact .of_sending sending

theorem initial_settled (table : TopicTable) : (initial table).Settled :=
  .inl rfl

end Board

end NanoRos
