import NanoRos.CrcRegister
import NanoRos.ParserView
import NanoRos.StreamSoundness

/-!
# Errors the CRC catches

A frame damaged in its type, topic id, payload or CRC still shows its sync
pair and its length, so the parser reads it to the end and only the CRC can
tell.  The shift register tells every burst of sixteen bits, and every one,
two or three bits of a frame that fits into one buffer.
-/

namespace NanoRos

open Transducer (after emitted)
open ShiftRegister (feed pack)

/-! ## A frame that fails its CRC -/

namespace NrosStreamParser

/-- Reading `bytes` delivers nothing, fails one CRC and ends in the hunt. -/
structure FailedRun (parser : NrosStreamParser) (bytes : List UInt8) :
    Prop where
  silent : emitted feedByte parser bytes = []
  hunting : (after feedByte parser bytes).state = .huntSync
  crcFail : (after feedByte parser bytes).crcFailCount =
    parser.crcFailCount + 1

/-- The rest of a frame whose CRC does not match, read by a parser that holds
its beginning. -/
theorem failedRun_of_holding {parser : NrosStreamParser}
    {bytes rest : List UInt8} {frame : Frame} {low high : UInt8}
    (holding : parser.Holding bytes)
    (counts : frame.payload.length = frame.header.length.toNat)
    (short : frame.header.length.toNat ≤ nrosBufferSize)
    (mismatch : getU16 low high ≠ crc16Buf frame.body)
    (split : bytes ++ rest = frame.body ++ [low, high]) :
    parser.FailedRun rest := by
  induction rest generalizing parser bytes with
  | nil =>
      rw [List.append_nil] at split
      rcases holding.unfinished with few | ⟨header, tail, rfl, _, missing⟩
      · rw [split, List.length_append, Frame.length_body] at few
        omega
      · rw [Frame.body, List.append_assoc] at split
        obtain ⟨rfl, tails⟩ := NrosFrameHeader.toBytes_append_inj split
        rw [tails, List.length_append, counts] at missing
        exact absurd missing (Nat.lt_irrefl _)
  | cons byte rest induction =>
      have step := feedByte_holding holding byte
      have shifted : (bytes ++ [byte]) ++ rest = frame.body ++ [low, high] := by
        rw [← split]
        simp
      rcases outcome : parser.feedByte byte with ⟨next, event⟩
      rw [outcome] at step
      cases step with
      | continues stillHolding counters =>
          have later := induction stillHolding shifted
          refine ⟨?_, ?_, ?_⟩
          · simpa [Transducer.emitted_cons, outcome] using later.silent
          · simpa [Transducer.after_cons, outcome] using later.hunting
          · have counted := later.crcFail
            rw [counters.2] at counted
            simpa [Transducer.after_cons, outcome] using counted
      | rejected header consumed overlong _ _ _ _ =>
          rw [consumed, Frame.body, List.append_assoc] at shifted
          have headers := (NrosFrameHeader.toBytes_append_inj shifted).1
          rw [headers] at overlong
          omega
      | corrupted received _ _ consumed counted _ hunting _ _ crcFail =>
          rw [consumed, List.append_assoc] at shifted
          have tails := (Frame.body_append_inj counted counts shifted).2
          have nothing : rest = [] := by
            simpa using congrArg List.length tails
          subst nothing
          refine ⟨?_, ?_, ?_⟩
          · simp [Transducer.emitted_cons, outcome]
          · simpa [Transducer.after_cons, outcome] using hunting
          · simpa [Transducer.after_cons, outcome] using crcFail
      | delivered event consumed arrived _ _ _ =>
          rw [consumed, Frame.encoded, List.append_assoc] at shifted
          obtain ⟨same, tails⟩ :=
            Frame.body_append_inj arrived.counts counts shifted
          simp only [putU16, List.cons_append, List.nil_append,
            List.cons.injEq] at tails
          rw [← tails.1, ← tails.2.1, same, getU16_lowByte_highByte]
            at mismatch
          exact absurd rfl mismatch

/-- A hunting parser reads a frame whose CRC does not match to its end. -/
theorem failedRun_frame {parser : NrosStreamParser} {frame : Frame}
    {low high : UInt8} (hunting : parser.state = .huntSync)
    (deliverable : frame.Deliverable)
    (mismatch : getU16 low high ≠ crc16Buf frame.body) :
    parser.FailedRun (frame.body ++ [low, high]) := by
  obtain ⟨_, silent, holding, counters⟩ := lock_on hunting
  have split : frame.body ++ [low, high] =
      [nrosMagic0, nrosMagic1] ++ (frame.body ++ [low, high]).drop 2 := by
    simp [Frame.body, NrosFrameHeader.toBytes, deliverable.magic.1,
      deliverable.magic.2]
  have run := failedRun_of_holding holding deliverable.counts
    deliverable.short mismatch split.symm
  rw [split]
  refine ⟨?_, ?_, ?_⟩
  · rw [Transducer.emitted_append, silent, run.silent]
    rfl
  · rw [Transducer.after_append]
    exact run.hunting
  · rw [Transducer.after_append, run.crcFail, counters.2]

end NrosStreamParser

/-! ## Damage -/

/-- `received` has the bytes of `sent`, but for some at `touched` places. -/
structure ChangedOnly (touched : Nat → Prop) (sent received : List UInt8) :
    Prop where
  sameLength : received.length = sent.length
  others : ∀ index, ¬touched index → received[index]? = sent[index]?

/-- The places of the type and topic id bytes, and all behind the header. -/
def BesidesSyncAndLength (index : Nat) : Prop :=
  index = 2 ∨ index = 3 ∨ frameHeaderSize ≤ index

instance (index : Nat) : Decidable (BesidesSyncAndLength index) :=
  inferInstanceAs (Decidable (_ ∨ _))

/-- A frame damaged elsewhere than in its sync pair and length is read as a
frame of the same length. -/
theorem ChangedOnly.damaged_frame {frame : Frame}
    (deliverable : frame.Deliverable) {received : List UInt8}
    (changed : ChangedOnly BesidesSyncAndLength frame.encoded received) :
    ∃ (damaged : Frame) (low high : UInt8),
      received = damaged.body ++ [low, high] ∧ damaged.Deliverable ∧
        damaged.body.length = frame.body.length := by
  have size := changed.sameLength
  rw [Frame.length_encoded] at size
  have header : (received.take frameHeaderSize).length = 6 := by
    rw [List.length_take, size]
    simp only [frameHeaderSize, nrosCrcLen]
    omega
  let damaged : Frame :=
    { header := .ofBytes (received.take frameHeaderSize)
      payload :=
        (received.drop frameHeaderSize).take frame.payload.length }
  have kept (index : Nat) (inHeader : index < frameHeaderSize)
      (untouched : ¬BesidesSyncAndLength index) :
      (received.take frameHeaderSize).getD index 0 =
        frame.header.toBytes.getD index 0 := by
    have inside : index < frame.header.toBytes.length := inHeader
    rw [List.getD_eq_getElem?_getD, List.getElem?_take, if_pos inHeader,
      changed.others index untouched, Frame.encoded, Frame.body,
      List.append_assoc, List.getElem?_append_left inside,
      List.getD_eq_getElem?_getD]
  have magic : damaged.header.HasMagic := by
    refine ⟨?_, ?_⟩
    · exact (kept 0 (by decide) (by decide)).trans deliverable.magic.1
    · exact (kept 1 (by decide) (by decide)).trans deliverable.magic.2
  have length : damaged.header.length = frame.header.length := by
    have low := kept 4 (by decide) (by decide)
    have high := kept 5 (by decide) (by decide)
    show getU16 _ _ = _
    rw [low, high]
    exact getU16_lowByte_highByte frame.header.length
  have payload : damaged.payload.length = frame.payload.length := by
    simp only [damaged, List.length_take, List.length_drop, size]
    omega
  have crc : (received.drop
      (frameHeaderSize + frame.payload.length)).length = 2 := by
    rw [List.length_drop, size]
    simp only [nrosCrcLen]
    omega
  have parts : received = damaged.body ++
      received.drop (frameHeaderSize + frame.payload.length) := by
    rw [Frame.body, NrosFrameHeader.toBytes_ofBytes header,
      List.append_assoc, ← List.drop_drop, List.take_append_drop,
      List.take_append_drop]
  obtain ⟨low, high, rest⟩ := List.length_eq_two.mp crc
  rw [rest] at parts
  refine ⟨damaged, low, high, parts, ⟨magic, ?_, ?_⟩, ?_⟩
  · rw [payload, length]
    exact deliverable.counts
  · rw [length]
    exact deliverable.short
  · rw [Frame.length_body, Frame.length_body, payload]

/-! ## Few bits -/

/-- How many bits of two messages of one length differ. -/
def bitErrors (sent received : List UInt8) : Nat :=
  (List.zipWith xor (messageBits sent) (messageBits received)).count true

theorem bitErrors_append {front front' : List UInt8}
    (sameLength : front.length = front'.length) (back back' : List UInt8) :
    bitErrors (front ++ back) (front' ++ back') =
      bitErrors front front' + bitErrors back back' := by
  have bits : (messageBits front).length = (messageBits front').length := by
    simp [sameLength]
  simp only [bitErrors, messageBits_append, List.zipWith_append bits,
    List.count_append]

/-- The order in which the two bytes of a CRC are sent does not matter. -/
theorem bitErrors_swap {front front' : List UInt8}
    (sameLength : front.length = front'.length)
    (low high low' high' : UInt8) :
    bitErrors (front ++ [high, low]) (front' ++ [high', low']) =
      bitErrors (front ++ [low, high]) (front' ++ [low', high']) := by
  have two (first second first' second' : UInt8) :
      bitErrors [first, second] [first', second'] =
        bitErrors [first] [first'] + bitErrors [second] [second'] := by
    have sameLength : [first].length = [first'].length := rfl
    exact bitErrors_append sameLength [second] [second']
  rw [bitErrors_append sameLength, bitErrors_append sameLength, two, two]
  omega

theorem pack_two_bytes (low high : UInt8) :
    (pack (messageBits [high, low]) : BitVec 16) =
      (getU16 low high).toBitVec := by
  apply BitVec.eq_of_getMsbD_eq
  intro place bound
  have bits : messageBits [high, low] = byteBits high ++ byteBits low := by
    simp [messageBits]
  have joined : (getU16 low high).toBitVec =
      low.toBitVec.setWidth 16 ||| high.toBitVec.setWidth 16 <<< 8 := rfl
  rw [ShiftRegister.getMsbD_pack _ bound, bits, joined, BitVec.getMsbD_or,
    BitVec.getMsbD_shiftLeft, BitVec.getMsbD_setWidth,
    BitVec.getMsbD_setWidth]
  by_cases first : place < 8
  · rw [List.getD_append _ _ _ _ (by rwa [length_byteBits]), getD_byteBits]
    have unreached : ¬8 ≤ place := by omega
    simp [unreached, Nat.add_assoc]
  · rw [List.getD_append_right _ _ _ _ (by rw [length_byteBits]; omega),
      getD_byteBits, length_byteBits]
    have reached : 8 ≤ place := by omega
    simp [reached, Nat.add_assoc]

/-- A message followed by its CRC, high byte first, clears the register. -/
theorem feed_crc {data : List UInt8} {low high : UInt8}
    (crc : getU16 low high = crc16Buf data) :
    feed crcPoly nrosCrc16Init.toBitVec (messageBits (data ++ [high, low])) =
      0#16 := by
  rw [messageBits_append, ShiftRegister.feed_append, ← crc16Buf_toBitVec,
    ShiftRegister.feed_eq_shifts_pack _ _ _ (by simp), pack_two_bytes, crc,
    BitVec.xor_self, ShiftRegister.shifts_zero]

/-- Up to three wrong bits in a message of at most a buffer's size, its CRC
counted in, are seen. -/
theorem crc_mismatch_of_few {body damaged : List UInt8}
    {low high low' high' : UInt8} (sameLength : body.length = damaged.length)
    (fits : body.length + nrosCrcLen ≤ nrosBufferSize)
    (crc : getU16 low high = crc16Buf body)
    (some_ : 1 ≤ bitErrors (body ++ [low, high]) (damaged ++ [low', high']))
    (few : bitErrors (body ++ [low, high]) (damaged ++ [low', high']) ≤ 3) :
    getU16 low' high' ≠ crc16Buf damaged := by
  intro match_
  have lengths : (messageBits (body ++ [high, low])).length =
      (messageBits (damaged ++ [high', low'])).length := by
    simp [sameLength]
  have difference := ShiftRegister.feed_xor crcPoly nrosCrc16Init.toBitVec
    nrosCrc16Init.toBitVec lengths
  rw [feed_crc crc, feed_crc match_, BitVec.xor_self, BitVec.xor_self]
    at difference
  have short : (List.zipWith xor (messageBits (body ++ [high, low]))
      (messageBits (damaged ++ [high', low']))).length ≤
        8 * nrosBufferSize := by
    simp only [List.length_zipWith, length_messageBits, List.length_append,
      List.length_cons, List.length_nil, nrosCrcLen] at fits ⊢
    omega
  rw [← bitErrors_swap sameLength] at some_ few
  exact ShiftRegister.feed_ne_zero_of_few crcPoly crcPoly_odd crcPoly_even
    crcPoly_order short some_ few difference

open NrosStreamParser

theorem EncodeCall.body_fits (call : EncodeCall) :
    call.frame.onWire.body.length + nrosCrcLen ≤ nrosBufferSize := by
  have fits := call.fits
  rw [Frame.length_body]
  simp only [nrosMaxPayload, nrosBufferSize, frameHeaderSize, nrosCrcLen,
    Frame.onWire, EncodeCall.frame] at fits ⊢
  omega

/-- One, two or three wrong bits anywhere in the type, topic id, payload or
CRC of an encoded frame: a hunting parser delivers nothing, counts one CRC
failure, hunts again and delivers the next intact frame. -/
theorem bit_errors_caught (call : EncodeCall) {received : List UInt8}
    (changed : ChangedOnly BesidesSyncAndLength call.bytes received)
    (some_ : 1 ≤ bitErrors call.bytes received)
    (few : bitErrors call.bytes received ≤ 3)
    (parser : NrosStreamParser) (hunting : parser.state = .huntSync) :
    let (next, frames) := nrosStreamParserFeed recordFrame parser [] received
    frames = [] ∧ next.crcFailCount = parser.crcFailCount + 1 ∧
      next.state = .huntSync ∧
        ∀ other : EncodeCall,
          (nrosStreamParserFeed recordFrame next [] other.bytes).2 =
            [other.frame.onWire] := by
  rw [call.bytes_eq_encoded] at changed some_ few
  obtain ⟨damaged, low, high, rfl, deliverable, sameLength⟩ :=
    changed.damaged_frame call.sendable.onWire_deliverable
  have mismatch := crc_mismatch_of_few sameLength.symm call.body_fits
    (getU16_lowByte_highByte _) some_ few
  have run := failedRun_frame hunting deliverable mismatch
  simp only [nrosStreamParserFeed, Transducer.runWith_eq, foldl_recordFrame,
    run.silent]
  refine ⟨rfl, run.crcFail, run.hunting, fun other => ?_⟩
  have nextRun :=
    (cleanRun_frame run.hunting other.sendable.onWire_deliverable).1
  rw [other.bytes_eq_encoded, nextRun.delivered]
  rfl

/-- The frame of the sync pair with one bit of its payload flipped. -/
theorem bit_errors_caught_syncPair :
    (nrosStreamParserFeed recordFrame nrosStreamParserInit []
      (syncPairCall.bytes.set 6 0xAB)).2 = [] :=
  (bit_errors_caught syncPairCall
    ⟨by rw [List.length_set], by
      intro index untouched
      rw [List.getElem?_set_ne]
      rintro rfl
      exact untouched (by decide)⟩
    (by decide +kernel) (by decide +kernel) nrosStreamParserInit rfl).1

/-! ## Bursts -/

/-- All bits in which the messages differ lie within `window` consecutive
places. -/
def DifferWithin (window : Nat) (left right : List UInt8) : Prop :=
  ∃ start, ∀ place, (messageBits left)[place]? ≠ (messageBits right)[place]? →
    start ≤ place ∧ place < start + window

theorem crc16Buf_ne_of_burst {left right : List UInt8}
    (sameLength : left.length = right.length) (different : left ≠ right)
    (burst : DifferWithin 16 left right) : crc16Buf left ≠ crc16Buf right := by
  obtain ⟨start, inside⟩ := burst
  have bits : (messageBits left).length = (messageBits right).length := by
    simp [sameLength]
  intro equal
  have registers := congrArg UInt16.toBitVec equal
  rw [crc16Buf_toBitVec, crc16Buf_toBitVec] at registers
  exact ShiftRegister.feed_ne_of_burst crcPoly crcPoly_odd _ bits
    (fun same => different (messageBits_injective same)) inside registers

/-- The places of the type, topic id and payload bytes of a frame. -/
def TypeIdOrPayload (call : EncodeCall) (index : Nat) : Prop :=
  index = 2 ∨ index = 3 ∨
    frameHeaderSize ≤ index ∧ index < frameHeaderSize + call.payload.length

theorem ChangedOnly.weaken {touched more : Nat → Prop}
    {sent received : List UInt8} (changed : ChangedOnly touched sent received)
    (weaker : ∀ index, touched index → more index) :
    ChangedOnly more sent received :=
  ⟨changed.sameLength, fun index untouched =>
    changed.others index fun here => untouched (weaker index here)⟩

theorem DifferWithin.of_append {window : Nat}
    {front front' back back' : List UInt8}
    (sameLength : front.length = front'.length)
    (within : DifferWithin window (front ++ back) (front' ++ back')) :
    DifferWithin window front front' := by
  obtain ⟨start, inside⟩ := within
  refine ⟨start, fun place differ => inside place ?_⟩
  have bits : (messageBits front).length = (messageBits front').length := by
    simp [sameLength]
  rw [messageBits_append, messageBits_append]
  by_cases bound : place < (messageBits front).length
  · rwa [List.getElem?_append_left bound,
      List.getElem?_append_left (bits ▸ bound)]
  · rw [List.getElem?_eq_none (Nat.le_of_not_lt bound),
      List.getElem?_eq_none (bits ▸ Nat.le_of_not_lt bound)] at differ
    exact absurd rfl differ

/-- Two neighbouring bytes are one burst. -/
theorem differWithin_two_bytes (front back : List UInt8)
    (first second first' second' : UInt8) :
    DifferWithin 16 (front ++ [first, second] ++ back)
      (front ++ [first', second'] ++ back) := by
  refine ⟨(messageBits front).length, fun place differ => ?_⟩
  by_contra outside
  rw [messageBits_append, messageBits_append, messageBits_append,
    messageBits_append] at differ
  apply differ
  rcases Nat.lt_or_ge place (messageBits front).length with before | after_
  · simp [List.getElem?_append_left before, List.append_assoc]
  · have beyond (one two : UInt8) :
        (messageBits front ++ messageBits [one, two]).length ≤ place := by
      simp only [List.length_append, length_messageBits, List.length_cons,
        List.length_nil] at outside after_ ⊢
      omega
    rw [List.getElem?_append_right (beyond first second),
      List.getElem?_append_right (beyond first' second')]
    simp

/-- A frame with a burst in its type, topic id and payload keeps its CRC, and
the CRC of its body is another one. -/
theorem ChangedOnly.burst_mismatch {call : EncodeCall}
    {received : List UInt8}
    (changed : ChangedOnly (TypeIdOrPayload call) call.bytes received)
    (hit : received ≠ call.bytes)
    (burst : DifferWithin 16 call.bytes received) :
    ∃ (damaged : Frame) (low high : UInt8),
      received = damaged.body ++ [low, high] ∧ damaged.Deliverable ∧
        getU16 low high ≠ crc16Buf damaged.body := by
  have outside : ChangedOnly BesidesSyncAndLength call.bytes received := by
    apply changed.weaken
    rintro index (type | id | ⟨payload, _⟩)
    · exact .inl type
    · exact .inr (.inl id)
    · exact .inr (.inr payload)
  rw [call.bytes_eq_encoded] at outside
  obtain ⟨damaged, low, high, rfl, deliverable, sameLength⟩ :=
    outside.damaged_frame call.sendable.onWire_deliverable
  refine ⟨damaged, low, high, rfl, deliverable, ?_⟩
  have size : call.frame.onWire.body.length =
      frameHeaderSize + call.payload.length :=
    Frame.length_body _
  have crc : [low, high] = putU16 (crc16Buf call.frame.onWire.body) := by
    apply List.ext_getElem?
    intro index
    have untouched :
        ¬TypeIdOrPayload call (call.frame.onWire.body.length + index) := by
      have header : frameHeaderSize = 6 := rfl
      rintro (type | id | ⟨_, payload⟩) <;> omega
    have kept := changed.others _ untouched
    rw [call.bytes_eq_encoded, Frame.encoded,
      List.getElem?_append_right (Nat.le_add_right _ _),
      List.getElem?_append_right (by omega), sameLength,
      Nat.add_sub_cancel_left] at kept
    exact kept
  rw [crc, call.bytes_eq_encoded, Frame.encoded] at hit burst
  have different : call.frame.onWire.body ≠ damaged.body := by
    intro same
    exact hit (by rw [same])
  have crcs := crc16Buf_ne_of_burst sameLength.symm different
    (DifferWithin.of_append sameLength.symm burst)
  simp only [putU16, List.cons.injEq] at crc
  rw [crc.1, crc.2.1, getU16_lowByte_highByte]
  exact crcs

/-- Bursts of up to sixteen bits change the CRC of a message of any length.
So a frame hit by one in its type, topic id and payload is not delivered: a
hunting parser that reads it delivers nothing, and no frame, whatever parser
delivers it, has these bytes as its encoding. -/
theorem bursts_caught :
    (∀ left right : List UInt8, left.length = right.length → left ≠ right →
      DifferWithin 16 left right → crc16Buf left ≠ crc16Buf right) ∧
    ∀ (call : EncodeCall) (received : List UInt8),
      ChangedOnly (TypeIdOrPayload call) call.bytes received →
      received ≠ call.bytes → DifferWithin 16 call.bytes received →
        (∀ parser : NrosStreamParser, parser.state = .huntSync →
          (nrosStreamParserFeed recordFrame parser [] received).2 = []) ∧
        ∀ frame : Frame, ¬EncoderWrites frame received := by
  refine ⟨fun _ _ => crc16Buf_ne_of_burst, ?_⟩
  intro call received changed hit burst
  obtain ⟨damaged, low, high, rfl, deliverable, mismatch⟩ :=
    changed.burst_mismatch hit burst
  constructor
  · intro parser hunting
    have run := failedRun_frame hunting deliverable mismatch
    simp [nrosStreamParserFeed, Transducer.runWith_eq, run.silent]
  · intro frame writes
    have parts := writes.eq_encoded
    rw [Frame.encoded] at parts
    obtain ⟨bodies, crcs⟩ := List.append_inj' parts rfl
    simp only [putU16, List.cons.injEq] at crcs
    rw [crcs.1, crcs.2.1, getU16_lowByte_highByte, bodies] at mismatch
    exact mismatch rfl

/-- The frame of the sync pair with both payload bytes cleared. -/
theorem bursts_caught_syncPair :
    crc16Buf [0xAA, 0x55] ≠ crc16Buf [0, 0] ∧
      (nrosStreamParserFeed recordFrame nrosStreamParserInit []
        (syncPairCall.bytes.take 6 ++ [0, 0] ++
          syncPairCall.bytes.drop 8)).2 = [] := by
  have split : syncPairCall.bytes = syncPairCall.bytes.take 6 ++
      [0xAA, 0x55] ++ syncPairCall.bytes.drop 8 := by
    decide +kernel
  refine ⟨bursts_caught.1 [0xAA, 0x55] [0, 0] rfl (by decide)
    (differWithin_two_bytes [] [] _ _ _ _), ?_⟩
  refine (bursts_caught.2 syncPairCall _ ⟨by decide +kernel, ?_⟩
    (by decide +kernel) ?_).1 nrosStreamParserInit rfl
  · intro index untouched
    have size : (syncPairCall.bytes.take 6).length = 6 := by decide +kernel
    have outside : index < 6 ∨ 8 ≤ index := by
      by_contra inside
      exact untouched (.inr (.inr ⟨by
        simp only [frameHeaderSize]
        omega, by
        show index < 6 + 2
        omega⟩))
    conv => rhs; rw [split]
    generalize syncPairCall.bytes.take 6 = front at size
    grind
  · have burst := differWithin_two_bytes (syncPairCall.bytes.take 6)
      (syncPairCall.bytes.drop 8) 0xAA 0x55 0 0
    rwa [← split] at burst

end NanoRos
