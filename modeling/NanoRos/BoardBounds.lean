import NanoRos.RegistrationLog

/-!
# Memory bounds of the board

Every copy the library makes into its transmit buffer and its payload buffer
is listed, with the offset the source uses.  The lists account for all that
changes in the two arrays, and no copy leaves its array, whatever the names of
the topics.  With the state invariant, neither does what `tx_poll` hands to
the transport.
-/

namespace NanoRos

open Board PartialRun

/-- The arrays of `nros_tx_ctx_t`, of `nrosBufferSize` bytes each. -/
inductive TxArray where
  | buffer
  | payloadBuffer
  deriving DecidableEq, Repr

/-- Some bytes copied into an array, from an offset on. -/
structure TxCopy where
  array : TxArray
  offset : Nat
  bytes : List UInt8
  deriving DecidableEq, Repr

/-- The copy does not leave its array. -/
def TxCopy.Inside (copy : TxCopy) : Prop :=
  copy.offset + copy.bytes.length ≤ nrosBufferSize

namespace Board

def applyCopy (board : Board) (copy : TxCopy) : Board :=
  match copy.array with
  | .buffer =>
      { board with
        tx := { board.tx with
          buffer := board.tx.buffer.copy copy.offset copy.bytes } }
  | .payloadBuffer =>
      { board with
        tx := { board.tx with
          payloadBuffer :=
            board.tx.payloadBuffer.copy copy.offset copy.bytes } }

/-! ## The copies of each function -/

/-- The copies of `nros_stream_encode_frame` into `tx.buffer`. -/
def encodeCopies (header : NrosFrameHeader) (payload : Option (List UInt8))
    (payloadLen : Nat) (buffer : NrosBuffer) : List TxCopy :=
  if nrosBufferSize < frameHeaderSize + payloadLen + nrosCrcLen then
    []
  else
    let headerBytes := [nrosMagic0, nrosMagic1, header.type, header.topicId] ++
      putU16 header.length
    let withHeader := buffer.copy 0 headerBytes
    let (payloadCopies, withPayload, cursor) :=
      match payload with
      | some bytes =>
          if payloadLen > 0 then
            ([{ array := .buffer
                offset := frameHeaderSize
                bytes := bytes.take payloadLen : TxCopy }],
              withHeader.copy frameHeaderSize (bytes.take payloadLen),
              frameHeaderSize + payloadLen)
          else
            ([], withHeader, frameHeaderSize)
      | none => ([], withHeader, frameHeaderSize)
    let crc := crc16Buf (withPayload.take (frameHeaderSize + payloadLen))
    { array := .buffer, offset := 0, bytes := headerBytes } ::
      payloadCopies ++
        [{ array := .buffer, offset := cursor, bytes := putU16 crc }]

/-- The copies of `load_next_registration_frame`. -/
def loadCopies (table : TopicTable) (board : Board) : List TxCopy :=
  if board.tx.sendingRegDoneFrame then
    encodeCopies
      { board.tx.header with
        type := NrosPacketType.registerDone.toByte, length := 0, topicId := 0 }
      none 0 board.tx.buffer
  else
    match board.currentTopic? table with
    | none => []
    | some topic =>
        let nameLen := topic.topicName.length
        let typeLen := topic.topicType.length
        if typeLen > nrosMaxStrSize ∨ nameLen > nrosMaxStrSize then
          []
        else
          let payloadSize := registrationPayloadSize + nameLen + typeLen
          let payloadCopies : List TxCopy :=
            [{ array := .payloadBuffer
               offset := 0
               bytes := (registrationPayload topic).toBytes },
              { array := .payloadBuffer
                offset := registrationPayloadSize
                bytes := topic.topicType },
              { array := .payloadBuffer
                offset := registrationPayloadSize + typeLen
                bytes := topic.topicName }]
          let header :=
            { board.tx.header with
              length := UInt16.ofNat payloadSize
              topicId := topic.topicId
              type := NrosPacketType.register.toByte }
          let payloadBuffer :=
            (payloadCopies.foldl applyCopy board).tx.payloadBuffer
          payloadCopies ++
            encodeCopies header (some payloadBuffer.cells) payloadSize
              board.tx.buffer

/-- The copies of `nros_publish`; those of the serializer are one. -/
def publishCopies (board : Board) (topicId : UInt8)
    (serialized : SerializeResult) : List TxCopy :=
  if board.tx.state ≠ .idle ∨ !board.registrationComplete then
    []
  else
    let payloadCopies : List TxCopy :=
      [{ array := .payloadBuffer, offset := 0, bytes := cdrEncapHeader },
        { array := .payloadBuffer
          offset := cdrEncapHeader.length
          bytes := serialized.bytes }]
    if !serialized.ok then
      payloadCopies
    else
      let payloadLen := cdrEncapHeader.length + serialized.bytes.length
      let header :=
        { NrosFrameHeader.zeroed with
          length := UInt16.ofNat payloadLen
          topicId
          type := NrosPacketType.data.toByte }
      let payloadBuffer :=
        (payloadCopies.foldl applyCopy board).tx.payloadBuffer
      payloadCopies ++
        encodeCopies header (some payloadBuffer.cells) payloadLen
          board.tx.buffer

/-- The copies of `nros_dispatch`. -/
def dispatchCopies (table : TopicTable) (board : Board) (frame : Frame) :
    List TxCopy :=
  match NrosPacketType.ofByte? frame.header.type with
  | some .ack =>
      if !board.rx.awaitingAck || !board.tx.isRegistration then []
      else (board.advanceRegistration table).loadCopies table
  | some .discover =>
      if board.tx.state ≠ .idle then []
      else board.startRegistration.loadCopies table
  | _ => []

/-- The copies of one event; `tx_poll` only reads. -/
def copies (table : TopicTable) (board : Board) : BoardEvent → List TxCopy
  | .receive frame => board.dispatchCopies table frame
  | .txPoll _ => []
  | .publish topicId serialized => board.publishCopies topicId serialized

/-! ## The copies are all that happens to the arrays -/

/-- The two libraries hold the same bytes in their arrays. -/
def SameArrays (left right : Board) : Prop :=
  left.tx.buffer = right.tx.buffer ∧
    left.tx.payloadBuffer = right.tx.payloadBuffer

theorem encodeCopies_apply (header : NrosFrameHeader)
    (payload : Option (List UInt8)) (payloadLen : Nat) (board : Board) :
    (encodeCopies header payload payloadLen board.tx.buffer).foldl applyCopy
        board =
      { board with
        tx := { board.tx with
          buffer := (nrosStreamEncodeFrame header payload payloadLen
            board.tx.buffer).2 } } := by
  unfold encodeCopies nrosStreamEncodeFrame
  by_cases overflow :
      nrosBufferSize < frameHeaderSize + payloadLen + nrosCrcLen
  · simp only [if_pos overflow]
    rfl
  · simp only [if_neg overflow]
    cases payload with
    | none => rfl
    | some bytes =>
        by_cases some_ : payloadLen > 0
        · simp only [if_pos some_]
          rfl
        · simp only [if_neg some_]
          rfl

/-- Copies into the payload buffer, then those of the encoder. -/
theorem SameArrays.of_encode {board after : Board} {copies : List TxCopy}
    {header : NrosFrameHeader} {payload : Option (List UInt8)}
    {payloadLen : Nat}
    (untouched : (copies.foldl applyCopy board).tx.buffer = board.tx.buffer)
    (buffer : after.tx.buffer =
      (nrosStreamEncodeFrame header payload payloadLen board.tx.buffer).2)
    (payloadBuffer : after.tx.payloadBuffer =
      (copies.foldl applyCopy board).tx.payloadBuffer) :
    after.SameArrays
      ((copies ++ encodeCopies header payload payloadLen
        board.tx.buffer).foldl applyCopy board) := by
  rw [List.foldl_append, ← untouched, encodeCopies_apply, untouched]
  exact ⟨buffer, payloadBuffer⟩

theorem loadCopies_arrays {table : TopicTable} {before after : Board}
    (loaded : loadNextRegistrationFrame table before = .ok after) :
    after.SameArrays
      ((before.loadCopies table).foldl applyCopy before) := by
  unfold loadNextRegistrationFrame at loaded
  unfold loadCopies
  split at loaded
  next regDone =>
    cases loaded
    rw [if_pos regDone, ← List.nil_append (encodeCopies _ _ _ _)]
    exact .of_encode rfl rfl rfl
  next notDone =>
    rw [if_neg notDone, currentTopic?]
    cases found : table.topics[before.tx.topicRegistrationIdx.toNat]? with
    | none =>
        rw [found] at loaded
        cases loaded
    | some topic =>
        rw [found] at loaded
        dsimp only at loaded ⊢
        split at loaded
        next long =>
          cases loaded
          rw [if_pos long]
          exact ⟨rfl, rfl⟩
        next short =>
          cases loaded
          rw [if_neg short]
          exact .of_encode rfl rfl rfl

theorem publishCopies_arrays (board : Board) (topicId : UInt8)
    (serialized : SerializeResult) :
    (board.nrosPublish topicId serialized).2.SameArrays
      ((board.publishCopies topicId serialized).foldl applyCopy board) := by
  unfold nrosPublish publishCopies
  split
  · exact ⟨rfl, rfl⟩
  · dsimp only
    split
    · exact ⟨rfl, rfl⟩
    · split
      · exact .of_encode rfl rfl rfl
      · exact .of_encode rfl rfl rfl

/-- What copies make of the arrays depends on the arrays alone. -/
theorem SameArrays.foldl {left right : Board} (same : left.SameArrays right)
    (copies : List TxCopy) :
    (copies.foldl applyCopy left).SameArrays
      (copies.foldl applyCopy right) := by
  induction copies generalizing left right with
  | nil => exact same
  | cons copy copies induction =>
      apply induction
      obtain ⟨buffer, payloadBuffer⟩ := same
      rcases copy with ⟨array, offset, bytes⟩
      cases array with
      | buffer => exact ⟨congrArg (Buffer.copy · offset bytes) buffer,
          payloadBuffer⟩
      | payloadBuffer => exact ⟨buffer,
          congrArg (Buffer.copy · offset bytes) payloadBuffer⟩

theorem SameArrays.trans {first second third : Board}
    (left : first.SameArrays second) (right : second.SameArrays third) :
    first.SameArrays third :=
  ⟨left.1.trans right.1, left.2.trans right.2⟩

theorem dispatchCopies_arrays {table : TopicTable} {before after : Board}
    {frame : Frame} (dispatched : nrosDispatch table before frame = .ok after) :
    after.SameArrays
      ((before.dispatchCopies table frame).foldl applyCopy before) := by
  unfold nrosDispatch at dispatched
  unfold dispatchCopies
  split at dispatched
  next kind =>
    split at dispatched
    · cases dispatched
    · cases dispatched
      simp only [kind]
      exact ⟨rfl, rfl⟩
  next kind =>
    simp only [kind]
    unfold dispatchAck at dispatched
    split at dispatched
    next notAwaiting =>
      cases dispatched
      rw [notAwaiting, Bool.true_or, if_pos rfl]
      exact ⟨rfl, rfl⟩
    next awaiting =>
      split at dispatched
      next outside =>
        cases dispatched
        rw [outside, Bool.or_true, if_pos rfl]
        exact ⟨rfl, rfl⟩
      next inside =>
        rw [if_neg (by simp [awaiting, inside])]
        have same : (before.advanceRegistration table).SameArrays before :=
          ⟨rfl, rfl⟩
        exact (loadCopies_arrays dispatched).trans (same.foldl _)
  next kind =>
    simp only [kind]
    unfold registerTopicsStart at dispatched
    split at dispatched
    · cases dispatched
    next started =>
      cases dispatched
      split at started
      next busy =>
        cases started
        rw [if_pos busy]
        exact ⟨rfl, rfl⟩
      next idle =>
        rw [if_neg idle]
        split at started
        · cases started
        next loaded =>
          cases started
          have same : before.startRegistration.SameArrays before :=
            ⟨rfl, rfl⟩
          exact (loadCopies_arrays loaded).trans (same.foldl _)
  next kind =>
    cases dispatched
    simp only [kind]
    exact ⟨rfl, rfl⟩
  next kind =>
    cases dispatched
    simp only [kind]
    exact ⟨rfl, rfl⟩
  next kind =>
    cases dispatched
    simp only [kind]
    exact ⟨rfl, rfl⟩

theorem txPoll_arrays (board : Board) (accepted : Nat) :
    (board.txPoll accepted).1.SameArrays board := by
  unfold txPoll
  split
  · dsimp only
    split
    · exact ⟨rfl, rfl⟩
    · unfold txFrameComplete
      split_ifs <;> exact ⟨rfl, rfl⟩
  · exact ⟨rfl, rfl⟩

/-! ## No copy leaves its array -/

theorem encodeCopies_inside (header : NrosFrameHeader)
    (payload : Option (List UInt8)) (payloadLen : Nat) (buffer : NrosBuffer) :
    ∀ copy ∈ encodeCopies header payload payloadLen buffer, copy.Inside := by
  intro copy member
  unfold encodeCopies at member
  split at member
  · exact absurd member List.not_mem_nil
  next fits =>
    have room :
        frameHeaderSize + payloadLen + nrosCrcLen ≤ nrosBufferSize :=
      Nat.not_lt.mp fits
    have headerInside : TxCopy.Inside
        { array := .buffer
          offset := 0
          bytes := [nrosMagic0, nrosMagic1, header.type, header.topicId] ++
            putU16 header.length } := by
      show 0 + frameHeaderSize ≤ nrosBufferSize
      omega
    have crcInside (cursor : Nat) (crc : UInt16)
        (below : cursor ≤ frameHeaderSize + payloadLen) : TxCopy.Inside
          { array := .buffer, offset := cursor, bytes := putU16 crc } := by
      show cursor + nrosCrcLen ≤ nrosBufferSize
      omega
    cases payload with
    | none =>
        simp only [List.cons_append, List.nil_append, List.mem_cons,
          List.not_mem_nil, or_false] at member
        rcases member with rfl | rfl
        · exact headerInside
        · exact crcInside _ _ (Nat.le_add_right _ _)
    | some bytes =>
        by_cases some_ : payloadLen > 0
        · simp only [if_pos some_, List.cons_append, List.nil_append,
            List.mem_cons, List.not_mem_nil, or_false] at member
          rcases member with rfl | rfl | rfl
          · exact headerInside
          · simp only [TxCopy.Inside, List.length_take]
            omega
          · exact crcInside _ _ (Nat.le_refl _)
        · simp only [if_neg some_, List.cons_append, List.nil_append,
            List.mem_cons, List.not_mem_nil, or_false] at member
          rcases member with rfl | rfl
          · exact headerInside
          · exact crcInside _ _ (Nat.le_add_right _ _)

theorem loadCopies_inside (table : TopicTable) (board : Board) :
    ∀ copy ∈ board.loadCopies table, copy.Inside := by
  intro copy member
  unfold loadCopies at member
  split at member
  · exact encodeCopies_inside _ _ _ _ copy member
  · split at member
    · exact absurd member List.not_mem_nil
    · dsimp only at member
      split at member
      · exact absurd member List.not_mem_nil
      next short =>
        simp only [not_or, Nat.not_lt] at short
        rcases List.mem_append.mp member with payload | encoded
        · simp only [List.mem_cons, List.not_mem_nil, or_false] at payload
          simp only [nrosMaxStrSize] at short
          rcases payload with rfl | rfl | rfl
          · simp only [TxCopy.Inside,
              NrosRegistrationPayload.length_toBytes, nrosBufferSize]
            omega
          · simp only [TxCopy.Inside, registrationPayloadSize,
              nrosBufferSize]
            omega
          · simp only [TxCopy.Inside, registrationPayloadSize,
              nrosBufferSize]
            omega
        · exact encodeCopies_inside _ _ _ _ copy encoded

theorem publishCopies_inside (board : Board) (topicId : UInt8)
    (serialized : SerializeResult) :
    ∀ copy ∈ board.publishCopies topicId serialized, copy.Inside := by
  have payloadInside (copy : TxCopy) (member : copy ∈
      [{ array := .payloadBuffer, offset := 0, bytes := cdrEncapHeader },
        { array := .payloadBuffer
          offset := cdrEncapHeader.length
          bytes := serialized.bytes : TxCopy }]) : copy.Inside := by
    have room := serialized.fits
    simp only [List.mem_cons, List.not_mem_nil, or_false] at member
    simp only [cdrEncapHeader, List.length_cons, List.length_nil,
      nrosBufferSize] at room
    rcases member with rfl | rfl
    · simp only [TxCopy.Inside, cdrEncapHeader, List.length_cons,
        List.length_nil, nrosBufferSize]
      omega
    · simp only [TxCopy.Inside, cdrEncapHeader, List.length_cons,
        List.length_nil, nrosBufferSize]
      omega
  intro copy member
  unfold publishCopies at member
  split at member
  · exact absurd member List.not_mem_nil
  · dsimp only at member
    split at member
    · exact payloadInside copy member
    · rcases List.mem_append.mp member with payload | encoded
      · exact payloadInside copy payload
      · exact encodeCopies_inside _ _ _ _ copy encoded

theorem dispatchCopies_inside (table : TopicTable) (board : Board)
    (frame : Frame) :
    ∀ copy ∈ board.dispatchCopies table frame, copy.Inside := by
  intro copy member
  unfold dispatchCopies at member
  split at member
  · split at member
    · exact absurd member List.not_mem_nil
    · exact loadCopies_inside _ _ copy member
  · split at member
    · exact absurd member List.not_mem_nil
    · exact loadCopies_inside _ _ copy member
  · exact absurd member List.not_mem_nil

theorem copies_inside (table : TopicTable) (board : Board)
    (event : BoardEvent) :
    ∀ copy ∈ board.copies table event, copy.Inside := by
  cases event with
  | receive frame => exact dispatchCopies_inside table board frame
  | txPoll accepted => exact fun _ member => absurd member List.not_mem_nil
  | publish topicId serialized =>
      exact publishCopies_inside board topicId serialized

/-! ## What is read -/

/-- With a topic in the table, no frame makes the library read a topic the
table does not have. -/
theorem dispatch_reads {table : TopicTable}
    (nonempty : 1 ≤ table.topics.length) (board : Board) (frame : Frame) :
    nrosDispatch table board frame ≠ .error .topicIndexOutOfRange := by
  intro failed
  unfold nrosDispatch at failed
  split at failed
  next kind =>
    unfold dispatchData at failed
    split at failed
    next unmapped =>
      cases failed
      split at unmapped
      · cases unmapped
      · split at unmapped <;> cases unmapped
    · cases failed
  next kind =>
    have ack := NrosPacketType.ofByte?_eq_some_iff.mp kind
    obtain ⟨after, returned⟩ := ack_returns table board ack
    simp only [nrosDispatch, kind] at returned
    rw [returned] at failed
    cases failed
  next kind =>
    unfold registerTopicsStart at failed
    by_cases busy : board.tx.state ≠ .idle
    · rw [if_pos busy] at failed
      cases failed
    · have returns : ∃ after,
          loadNextRegistrationFrame table board.startRegistration =
            .ok after :=
        load_returns (.inr nonempty)
      obtain ⟨after, loaded⟩ := returns
      rw [if_neg busy, loaded] at failed
      cases failed
  · cases failed
  · cases failed
  · cases failed

/-- The frame being sent lies in its buffer, and so does what was sent. -/
theorem Settled.bounds {board : Board} (settled : board.Settled)
    (state : board.tx.state = .sendingFrame) :
    board.tx.bytesSent ≤ board.tx.frameLen ∧
      board.tx.frameLen ≤ nrosBufferSize := by
  rcases settled with idle | ⟨frame, sending⟩
  · rw [idle] at state
    cases state
  · refine ⟨Nat.le_of_lt sending.unfinished, ?_⟩
    have length := congrArg List.length sending.bytes
    rw [Buffer.length_take] at length
    rw [sending.length, ← length]
    exact Nat.min_le_right _ _

end Board

namespace RegistrationLog

/-- The index, the flags and the lengths stay in their bounds, and so does
whatever the library does next to its arrays and to the topics. -/
structure WithinBounds (table : TopicTable) (log : RegistrationLog) :
    Prop where
  idx_le : log.board.tx.topicRegistrationIdx.toNat ≤ table.topics.length
  topicRead : ∀ frame,
    nrosDispatch table log.board frame ≠ .error .topicIndexOutOfRange
  awaited : log.board.rx.awaitingAck = true → log.doneLoaded = false
  lengths : log.board.tx.state = .sendingFrame →
    log.board.tx.bytesSent ≤ log.board.tx.frameLen ∧
      log.board.tx.frameLen ≤ nrosBufferSize
  copies : ∀ event, ∀ copy ∈ log.board.copies table event, copy.Inside
  arrays : ∀ event next, log.step table event = some next →
    next.board.SameArrays
      ((log.board.copies table event).foldl applyCopy log.board)

/-- The copies listed for an event are all it does to the arrays. -/
theorem step_arrays {table : TopicTable} {log next : RegistrationLog}
    {event : BoardEvent} (stepped : log.step table event = some next) :
    next.board.SameArrays
      ((log.board.copies table event).foldl applyCopy log.board) := by
  cases event with
  | receive frame =>
      obtain ⟨board, dispatched, rfl⟩ := step_receive stepped
      rw [hear_board]
      exact dispatchCopies_arrays dispatched
  | txPoll accepted =>
      cases stepped
      rw [write_board]
      exact txPoll_arrays log.board accepted
  | publish topicId serialized =>
      cases stepped
      exact publishCopies_arrays log.board topicId serialized

/-- For every table with a topic and every run, whatever the names of the
topics: index, flags and lengths are in bounds, and no copy of the next event
leaves its array. -/
theorem board_within_bounds (table : TopicTable)
    (nonempty : 1 ≤ table.topics.length) (events : List BoardEvent)
    (final : RegistrationLog)
    (run : exec (step table) (initial table) events = some final) :
    final.WithinBounds table := by
  have sound := sound_run run
  have registration := sound.registration
  constructor
  · exact registration.idx_le
  · exact dispatch_reads nonempty final.board
  · exact sound.awaited
  · exact registration.settled.bounds
  · exact copies_inside table final.board
  · exact fun event next stepped => step_arrays stepped

theorem board_within_bounds_promptAck :
    ∃ final, exec (step BoardHistory.onePublisher)
        (initial BoardHistory.onePublisher) BoardHistory.promptAck =
          some final ∧
      final.WithinBounds BoardHistory.onePublisher := by
  have returns : (exec (step BoardHistory.onePublisher)
      (initial BoardHistory.onePublisher)
      BoardHistory.promptAck).isSome := by
    decide +kernel
  obtain ⟨final, run⟩ := Option.isSome_iff_exists.mp returns
  exact ⟨final, run, board_within_bounds BoardHistory.onePublisher
    (Nat.le_refl 1) BoardHistory.promptAck final run⟩

end RegistrationLog

end NanoRos
