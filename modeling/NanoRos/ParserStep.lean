import NanoRos.FrameEncoding

/-!
# What one byte does to the parser

Outside a frame only the last byte of the window matters.  Inside a frame the
parser state is described by the bytes consumed since the sync pair.  Every
later fact about the parser is derived from the two step lemmas below.
-/

namespace NanoRos

namespace NrosStreamParser

/-- Neither statistic has moved. -/
def SameCounts (before after : NrosStreamParser) : Prop :=
  after.resyncCount = before.resyncCount ∧
    after.crcFailCount = before.crcFailCount

theorem SameCounts.refl (parser : NrosStreamParser) :
    parser.SameCounts parser := ⟨rfl, rfl⟩

theorem SameCounts.trans {first second third : NrosStreamParser}
    (left : first.SameCounts second) (right : second.SameCounts third) :
    first.SameCounts third :=
  ⟨right.1.trans left.1, right.2.trans left.2⟩

/-- The window still shows the sync pair of the frame being read. -/
def SyncWindow (parser : NrosStreamParser) : Prop :=
  parser.headerBuf.take 2 = [nrosMagic0, nrosMagic1]

/-- The parser is inside a frame and has consumed exactly `bytes` of it. -/
inductive Holding (parser : NrosStreamParser) (bytes : List UInt8) : Prop
  | header
      (state : parser.state = .waitHeader)
      (window : parser.SyncWindow)
      (started : 2 ≤ parser.headerBytesHave)
      (unfinished : parser.headerBytesHave < frameHeaderSize)
      (consumed : bytes = parser.headerBuf.take parser.headerBytesHave)
  | payload
      (state : parser.state = .waitPayload)
      (window : parser.SyncWindow)
      (magic : parser.header.HasMagic)
      (short : parser.header.length.toNat ≤ nrosBufferSize)
      (unfinished : parser.payloadBytesHave < parser.header.length.toNat)
      (noCrcYet : parser.crcBytesHave = 0)
      (consumed : bytes = parser.header.toBytes ++
        parser.payloadBuf.take parser.payloadBytesHave)
      (crc : parser.runningCrc = crc16Buf bytes)
  | crc
      (state : parser.state = .waitCrc)
      (window : parser.SyncWindow)
      (magic : parser.header.HasMagic)
      (short : parser.header.length.toNat ≤ nrosBufferSize)
      (unfinished : parser.crcBytesHave < 2)
      (consumed : bytes = parser.header.toBytes ++
        parser.payloadBuf.take parser.header.length.toNat ++
          parser.crcBuf.take parser.crcBytesHave)
      (crc : parser.runningCrc = crc16Buf (parser.header.toBytes ++
        parser.payloadBuf.take parser.header.length.toNat))

@[simp] theorem headerByte_zero_store (parser : NrosStreamParser)
    (value other : UInt8) :
    ({ parser with
      headerBuf := (parser.headerBuf.store 0 value).store 1 other }
        : NrosStreamParser).headerByte 0 = value := by
  simp only [headerByte]
  rw [Buffer.load?_store_ne _ (by decide), Buffer.load?_store_self _ (by decide)]
  rfl

@[simp] theorem headerByte_one_store (parser : NrosStreamParser)
    (value other : UInt8) :
    ({ parser with
      headerBuf := (parser.headerBuf.store 0 value).store 1 other }
        : NrosStreamParser).headerByte 1 = other := by
  simp only [headerByte]
  rw [Buffer.load?_store_self _ (by decide)]
  rfl

theorem SyncWindow.headerByte_one {parser : NrosStreamParser}
    (window : parser.SyncWindow) : parser.headerByte 1 = nrosMagic1 := by
  have cell := congrArg (fun cells => cells[1]?) window
  simp only [Buffer.take, List.getElem?_take] at cell
  simp only [headerByte, Buffer.load?]
  simpa using congrArg (Option.getD · 0) cell

theorem SyncWindow.store {parser : NrosStreamParser}
    (window : parser.SyncWindow) {index : Nat} (beyond : 2 ≤ index)
    (byte : UInt8) :
    (parser.headerBuf.store index byte).take 2 =
      [nrosMagic0, nrosMagic1] := by
  rw [Buffer.take_store_of_le _ beyond]
  exact window

/-! ### Hunting -/

/-- One byte while hunting: lock on when the window shows the sync pair,
otherwise remember the byte. -/
theorem feedByte_hunting (parser : NrosStreamParser) (byte : UInt8)
    (hunting : parser.state = .huntSync) :
    ((parser.headerByte 1 = nrosMagic0 ∧ byte = nrosMagic1) ∧
        (parser.feedByte byte).2 = none ∧
        (parser.feedByte byte).1.Holding [nrosMagic0, nrosMagic1] ∧
        parser.SameCounts (parser.feedByte byte).1) ∨
      (¬(parser.headerByte 1 = nrosMagic0 ∧ byte = nrosMagic1) ∧
        (parser.feedByte byte).2 = none ∧
        (parser.feedByte byte).1.state = .huntSync ∧
        (parser.feedByte byte).1.headerByte 1 = byte ∧
        parser.SameCounts (parser.feedByte byte).1) := by
  have unfolded : parser.feedByte byte = (parser.huntSync byte, none) := by
    simp only [feedByte, hunting]
  rw [unfolded]
  simp only [huntSync, headerByte_zero_store, headerByte_one_store]
  by_cases locks : parser.headerByte 1 = nrosMagic0 ∧ byte = nrosMagic1
  · left
    have window :
        ((parser.headerBuf.store 0 (parser.headerByte 1)).store 1 byte).take 2 =
          [nrosMagic0, nrosMagic1] := by
      rw [Buffer.take_succ_store _ (by decide), Buffer.take_succ_store _
        (by decide), locks.1, locks.2]
      simp
    refine ⟨locks, trivial, ?_, ?_⟩
    · rw [if_pos locks]
      exact .header rfl window (Nat.le_refl 2) (by simp [frameHeaderSize])
        window.symm
    · rw [if_pos locks]
      exact ⟨rfl, rfl⟩
  · right
    refine ⟨locks, trivial, ?_, ?_, ?_⟩
    · rw [if_neg locks]
      exact hunting
    · rw [if_neg locks]
      exact headerByte_one_store parser _ byte
    · rw [if_neg locks]
      exact ⟨rfl, rfl⟩

/-! ### Inside a frame -/

/-- What one byte inside a frame can do, in terms of the bytes consumed
since the sync pair. -/
inductive FrameStep (parser : NrosStreamParser) (bytes : List UInt8)
    (byte : UInt8) : NrosStreamParser × Option FrameEvent → Prop
  | continues {next : NrosStreamParser}
      (holding : next.Holding (bytes ++ [byte]))
      (counts : parser.SameCounts next) :
      FrameStep parser bytes byte (next, none)
  | rejected {next : NrosStreamParser} (header : NrosFrameHeader)
      (consumed : bytes ++ [byte] = header.toBytes)
      (overlong : nrosBufferSize < header.length.toNat)
      (hunting : next.state = .huntSync)
      (window : next.headerByte 1 = byte)
      (resync : next.resyncCount = parser.resyncCount + 1)
      (crcFail : next.crcFailCount = parser.crcFailCount) :
      FrameStep parser bytes byte (next, none)
  | corrupted {next : NrosStreamParser} (frame : Frame) (low high : UInt8)
      (consumed : bytes ++ [byte] = frame.body ++ [low, high])
      (counted : frame.payload.length = frame.header.length.toNat)
      (mismatch : getU16 low high ≠ crc16Buf frame.body)
      (hunting : next.state = .huntSync)
      (window : next.headerByte 1 = nrosMagic1)
      (resync : next.resyncCount = parser.resyncCount)
      (crcFail : next.crcFailCount = parser.crcFailCount + 1) :
      FrameStep parser bytes byte (next, none)
  | delivered {next : NrosStreamParser} (event : FrameEvent)
      (consumed : bytes ++ [byte] = event.frame.encoded)
      (deliverable : event.frame.Deliverable)
      (hunting : next.state = .huntSync)
      (window : next.headerByte 1 = nrosMagic1)
      (counts : parser.SameCounts next) :
      FrameStep parser bytes byte (next, some event)

private theorem crcBuf_bytes (crcBuf : Buffer UInt8 2) :
    crcBuf.take 2 =
      [(crcBuf.load? 0).getD 0, (crcBuf.load? 1).getD 0] := by
  rcases crcBuf with ⟨cells, size⟩
  match cells, size with
  | [_, _], _ => rfl

theorem feedByte_holding_header {parser : NrosStreamParser}
    {bytes : List UInt8} (byte : UInt8)
    (state : parser.state = .waitHeader) (window : parser.SyncWindow)
    (started : 2 ≤ parser.headerBytesHave)
    (unfinished : parser.headerBytesHave < frameHeaderSize)
    (consumed : bytes = parser.headerBuf.take parser.headerBytesHave) :
    FrameStep parser bytes byte (parser.feedByte byte) := by
  have unfolded : parser.feedByte byte = (parser.waitHeader byte, none) := by
    simp only [feedByte, state]
  have extended :
      (parser.headerBuf.store parser.headerBytesHave byte).take
          (parser.headerBytesHave + 1) = bytes ++ [byte] := by
    rw [Buffer.take_succ_store _ unfinished, consumed]
  have stillSync := window.store started byte
  rw [unfolded]
  unfold waitHeader
  by_cases more : parser.headerBytesHave + 1 < frameHeaderSize
  · simp only [more, if_true]
    exact .continues
      (.header state stillSync (Nat.le_succ_of_le started) more
        extended.symm) ⟨rfl, rfl⟩
  · have complete : parser.headerBytesHave + 1 = frameHeaderSize :=
      Nat.le_antisymm unfinished (Nat.le_of_not_lt more)
    rw [complete] at extended
    have size : (bytes ++ [byte]).length = 6 := by
      rw [← extended, Buffer.length_take]
      rfl
    have headerBytes := NrosFrameHeader.toBytes_ofBytes size
    have magic : (NrosFrameHeader.ofBytes (bytes ++ [byte])).HasMagic := by
      have prefixTwo : (bytes ++ [byte]).take 2 = [nrosMagic0, nrosMagic1] := by
        rw [← extended, ← stillSync]
        simp [Buffer.take, List.take_take, frameHeaderSize]
      rw [← headerBytes] at prefixTwo
      simpa [NrosFrameHeader.toBytes, NrosFrameHeader.HasMagic]
        using prefixTwo
    simp only [more, if_false, extended]
    generalize NrosFrameHeader.ofBytes (bytes ++ [byte]) = header
      at headerBytes magic ⊢
    by_cases overlong : header.length.toNat > nrosBufferSize
    · simp only [overlong, if_true]
      exact .rejected header headerBytes.symm overlong rfl
        (headerByte_one_store _ _ byte) rfl rfl
    · simp only [overlong, if_false, acceptHeader]
      have short := Nat.le_of_not_lt overlong
      refine .continues ?_ ⟨rfl, rfl⟩
      by_cases empty : header.length = 0
      · refine .crc (by simp [empty]) stillSync magic short Nat.two_pos ?_ ?_
        · simp [empty, headerBytes]
        · simp [empty]
      · have positive : 0 < header.length.toNat := by
          rw [Nat.pos_iff_ne_zero]
          intro zero
          exact empty (UInt16.toNat_inj.mp zero)
        refine .payload (by simp [empty]) stillSync magic short positive rfl ?_ ?_
        · simp [headerBytes]
        · simp [headerBytes]

theorem feedByte_holding_payload {parser : NrosStreamParser}
    {bytes : List UInt8} (byte : UInt8)
    (state : parser.state = .waitPayload) (window : parser.SyncWindow)
    (magic : parser.header.HasMagic)
    (short : parser.header.length.toNat ≤ nrosBufferSize)
    (unfinished : parser.payloadBytesHave < parser.header.length.toNat)
    (noCrcYet : parser.crcBytesHave = 0)
    (consumed : bytes = parser.header.toBytes ++
      parser.payloadBuf.take parser.payloadBytesHave)
    (crc : parser.runningCrc = crc16Buf bytes) :
    FrameStep parser bytes byte (parser.feedByte byte) := by
  have unfolded : parser.feedByte byte = (parser.waitPayload byte, none) := by
    simp only [feedByte, state]
  have extended : bytes ++ [byte] = parser.header.toBytes ++
      (parser.payloadBuf.store parser.payloadBytesHave byte).take
        (parser.payloadBytesHave + 1) := by
    rw [Buffer.take_succ_store _ (Nat.lt_of_lt_of_le unfinished short),
      consumed, List.append_assoc]
  have newCrc : crc16Update parser.runningCrc byte =
      crc16Buf (bytes ++ [byte]) := by
    simp [crc]
  rw [unfolded]
  unfold waitPayload
  by_cases more :
      parser.payloadBytesHave + 1 < parser.header.length.toNat
  · simp only [more, if_true]
    exact .continues
      (.payload state window magic short more noCrcYet extended newCrc)
      ⟨rfl, rfl⟩
  · have complete :
        parser.payloadBytesHave + 1 = parser.header.length.toNat := by
      omega
    simp only [more, if_false]
    rw [complete] at extended
    refine .continues
      (.crc rfl window magic short (by simp [noCrcYet]) ?_ ?_) ⟨rfl, rfl⟩
    · simpa [noCrcYet] using extended
    · rw [← extended]
      exact newCrc

theorem feedByte_holding_crc {parser : NrosStreamParser}
    {bytes : List UInt8} (byte : UInt8)
    (state : parser.state = .waitCrc) (window : parser.SyncWindow)
    (magic : parser.header.HasMagic)
    (short : parser.header.length.toNat ≤ nrosBufferSize)
    (unfinished : parser.crcBytesHave < 2)
    (consumed : bytes = parser.header.toBytes ++
      parser.payloadBuf.take parser.header.length.toNat ++
        parser.crcBuf.take parser.crcBytesHave)
    (crc : parser.runningCrc = crc16Buf (parser.header.toBytes ++
      parser.payloadBuf.take parser.header.length.toNat)) :
    FrameStep parser bytes byte (parser.feedByte byte) := by
  have unfolded : parser.feedByte byte = parser.waitCrc byte := by
    simp only [feedByte, state]
  have extended : bytes ++ [byte] = parser.header.toBytes ++
      parser.payloadBuf.take parser.header.length.toNat ++
        (parser.crcBuf.store parser.crcBytesHave byte).take
          (parser.crcBytesHave + 1) := by
    rw [Buffer.take_succ_store _ unfinished, consumed, List.append_assoc]
  rw [unfolded]
  unfold waitCrc
  by_cases more : parser.crcBytesHave + 1 < 2
  · simp only [more, if_true]
    exact .continues (.crc state window magic short more extended crc)
      ⟨rfl, rfl⟩
  · have complete : parser.crcBytesHave + 1 = 2 := by omega
    let event : FrameEvent :=
      { header := parser.header, payloadBuf := parser.payloadBuf }
    have body : event.frame.body = parser.header.toBytes ++
        parser.payloadBuf.take parser.header.length.toNat := rfl
    have counted :
        event.frame.payload.length = event.frame.header.length.toNat := by
      simp only [event, FrameEvent.frame, Buffer.length_take]
      exact Nat.min_eq_left short
    rw [complete, crcBuf_bytes, ← body] at extended
    rw [← body] at crc
    simp only [more, if_false]
    generalize ((parser.crcBuf.store parser.crcBytesHave byte).load? 0).getD 0
      = low at extended ⊢
    generalize ((parser.crcBuf.store parser.crcBytesHave byte).load? 1).getD 0
      = high at extended ⊢
    by_cases mismatch : getU16 low high ≠ parser.runningCrc
    · simp only [mismatch, ne_eq, not_false_eq_true, if_true]
      exact .corrupted event.frame low high extended counted
        (by rwa [← crc]) rfl window.headerByte_one rfl rfl
    · have match_ : getU16 low high = parser.runningCrc :=
        not_not.mp mismatch
      simp only [match_, ne_eq, not_true_eq_false, if_false]
      refine .delivered event ?_ ⟨magic, counted, short⟩ rfl
        window.headerByte_one ⟨rfl, rfl⟩
      rw [extended, Frame.encoded, ← crc, ← match_]
      simp [putU16]

/-- One byte inside a frame. -/
theorem feedByte_holding {parser : NrosStreamParser} {bytes : List UInt8}
    (holding : parser.Holding bytes) (byte : UInt8) :
    FrameStep parser bytes byte (parser.feedByte byte) := by
  cases holding with
  | header state window started unfinished consumed =>
      exact feedByte_holding_header byte state window started unfinished
        consumed
  | payload state window magic short unfinished noCrcYet consumed crc =>
      exact feedByte_holding_payload byte state window magic short unfinished
        noCrcYet consumed crc
  | crc state window magic short unfinished consumed crc =>
      exact feedByte_holding_crc byte state window magic short unfinished
        consumed crc

end NrosStreamParser

end NanoRos
