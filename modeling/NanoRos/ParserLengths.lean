import NanoRos.ParserRejection

/-!
# Lengths the parser accepts

A sender puts a whole frame into one buffer, so its payload is at most
`nrosMaxPayload` bytes long.  The parser compares the announced length with
the size of the buffer itself and accepts eight lengths more.  A frame of such
a length is delivered exactly where its header completes and a payload and a
matching CRC follow.
-/

namespace NanoRos

open Transducer (after emitted)

/-- The length is one a sender can announce, and encoding the frame again
into a buffer of `nrosBufferSize` bytes succeeds. -/
structure Frame.Reencodable (frame : Frame) : Prop where
  length : frame.header.length.toNat ≤ nrosMaxPayload
  encodes : ∀ outBuf : NrosBuffer,
    (nrosStreamEncodeFrame frame.header (some frame.payload)
      frame.payload.length outBuf).1 ≠ 0

theorem Frame.Deliverable.reencodable_iff {frame : Frame}
    (deliverable : frame.Deliverable) :
    frame.Reencodable ↔ frame.header.length.toNat ≤ nrosMaxPayload := by
  refine ⟨Reencodable.length, fun short => ⟨short, fun outBuf => ?_⟩⟩
  have fits : frameHeaderSize + frame.payload.length + nrosCrcLen ≤
      nrosBufferSize := by
    rw [deliverable.counts]
    simp only [nrosMaxPayload, nrosBufferSize, frameHeaderSize,
      nrosCrcLen] at short ⊢
    omega
  rw [nrosStreamEncodeFrame_of_fits _ _ _ fits]
  simp [nrosCrcLen]

namespace NrosStreamParser

/-- The next byte completes a header that the parser accepts, with a length
above every sender's. -/
def AcceptsOverlong (parser : NrosStreamParser) (byte : UInt8) : Prop :=
  parser.state = .waitHeader ∧
    parser.headerBytesHave + 1 = frameHeaderSize ∧
      nrosMaxPayload < (parser.nextHeader byte).length.toNat ∧
        (parser.nextHeader byte).length.toNat ≤ nrosBufferSize

/-- The next byte completes such a header, and the announced payload and its
CRC follow. -/
def OverlongFollows (parser : NrosStreamParser) (byte : UInt8)
    (rest : List UInt8) : Prop :=
  parser.AcceptsOverlong byte ∧
    ∃ payload behind,
      payload.length = (parser.nextHeader byte).length.toNat ∧
        rest = payload ++
          putU16 (crc16Buf ((parser.nextHeader byte).toBytes ++ payload)) ++
            behind

/-! ### Where a delivered frame was read -/

/-- From two bytes on, each beginning of `bytes` was held when the rest of
them was still to come. -/
def WasHeld (input bytes : List UInt8) : Prop :=
  ∀ front back, bytes = front ++ back → back ≠ [] → 2 ≤ front.length →
    ∃ gap, input = gap ++ back ∧
      (after feedByte nrosStreamParserInit gap).Holding front

theorem WasHeld.snoc {input bytes : List UInt8} (was : WasHeld input bytes)
    (holding : (after feedByte nrosStreamParserInit input).Holding bytes)
    (byte : UInt8) : WasHeld (input ++ [byte]) (bytes ++ [byte]) := by
  intro front back split some_ started
  rcases List.eq_nil_or_concat back with rfl | ⟨back, last, rfl⟩
  · exact absurd rfl some_
  · rw [List.concat_eq_append, ← List.append_assoc] at split
    obtain ⟨bytesSplit, lastSplit⟩ := List.append_inj' split rfl
    rw [List.concat_eq_append, ← lastSplit]
    by_cases empty : back = []
    · subst empty
      rw [List.append_nil] at bytesSplit
      subst bytesSplit
      exact ⟨input, by simp, holding⟩
    · obtain ⟨gap, rfl, held⟩ := was front back bytesSplit empty started
      exact ⟨gap, by simp, held⟩

/-- What is held now and what was delivered has been held byte by byte. -/
structure Traced (input : List UInt8) (events : List FrameEvent)
    (parser : NrosStreamParser) : Prop where
  reached : parser = after feedByte nrosStreamParserInit input
  inside : parser.state = .huntSync ∨
    ∃ bytes, parser.Holding bytes ∧ WasHeld input bytes
  delivered : ∀ event ∈ events, event.frame.Deliverable ∧
    ∃ before rest, input = before ++ rest ∧
      WasHeld before event.frame.encoded

theorem traced_init : Traced [] [] nrosStreamParserInit :=
  ⟨rfl, .inl rfl, by simp⟩

theorem traced_step (input : List UInt8) (events : List FrameEvent)
    (parser : NrosStreamParser) (byte : UInt8)
    (traced : Traced input events parser) :
    Traced (input ++ [byte]) (events ++ (parser.feedByte byte).2.toList)
      (parser.feedByte byte).1 := by
  have reached : (parser.feedByte byte).1 =
      after feedByte nrosStreamParserInit (input ++ [byte]) := by
    rw [Transducer.after_append, ← traced.reached]
    rfl
  have earlier : ∀ event ∈ events, event.frame.Deliverable ∧
      ∃ before rest, input ++ [byte] = before ++ rest ∧
        WasHeld before event.frame.encoded := by
    intro event member
    obtain ⟨deliverable, before, rest, rfl, was⟩ :=
      traced.delivered event member
    exact ⟨deliverable, before, rest ++ [byte], by simp, was⟩
  rcases traced.inside with state | ⟨bytes, holding, was⟩
  · rcases feedByte_hunting parser byte state with
      ⟨_, silent, holding, _⟩ | ⟨_, silent, hunting, _⟩
    · refine ⟨reached, .inr ⟨_, holding, ?_⟩, ?_⟩
      · intro front back split some_ started
        have lengths := congrArg List.length split
        rw [List.length_append] at lengths
        have positive := List.length_pos_iff.mpr some_
        simp only [List.length_cons, List.length_nil] at lengths
        omega
      · simpa [silent] using earlier
    · exact ⟨reached, .inl hunting, by simpa [silent] using earlier⟩
  · have whole := was.snoc (traced.reached ▸ holding) byte
    have step := feedByte_holding holding byte
    rcases outcome : parser.feedByte byte with ⟨next, event⟩
    rw [outcome] at step reached
    cases step with
    | continues stillHolding _ =>
        exact ⟨reached, .inr ⟨_, stillHolding, whole⟩, by simpa using earlier⟩
    | rejected _ _ _ hunting _ _ _ =>
        exact ⟨reached, .inl hunting, by simpa using earlier⟩
    | corrupted _ _ _ _ _ _ hunting _ _ _ =>
        exact ⟨reached, .inl hunting, by simpa using earlier⟩
    | delivered event consumed deliverable hunting _ _ =>
        refine ⟨reached, .inl hunting, ?_⟩
        intro other member
        rcases List.mem_append.mp member with old | new
        · exact earlier other old
        · have same : other = event := by simpa using new
          subst same
          exact ⟨deliverable, input ++ [byte], [], by simp,
            consumed ▸ whole⟩

theorem traced_reachable (input : List UInt8) :
    Traced input (emitted feedByte nrosStreamParserInit input)
      (after feedByte nrosStreamParserInit input) :=
  Transducer.run_invariant feedByte Traced traced_init traced_step input

/-- A parser that lacks one byte of a header. -/
theorem Holding.lacks_one {parser : NrosStreamParser} {bytes : List UInt8}
    (holding : parser.Holding bytes) {byte : UInt8}
    {header : NrosFrameHeader} (whole : bytes ++ [byte] = header.toBytes) :
    parser.state = .waitHeader ∧
      parser.headerBytesHave + 1 = frameHeaderSize ∧
        parser.nextHeader byte = header := by
  have size := congrArg List.length whole
  rw [List.length_append, NrosFrameHeader.length_toBytes] at size
  cases holding with
  | header state _ _ unfinished consumed =>
      have have_ : parser.headerBytesHave = 5 := by
        rw [consumed, Buffer.length_take] at size
        simp only [frameHeaderSize, List.length_singleton] at size unfinished
        omega
      refine ⟨state, by rw [have_]; rfl, ?_⟩
      have front := ParserView.ofBytes_take_toBytes header []
      rw [List.append_nil] at front
      rw [nextHeader, ← consumed, whole]
      exact front
  | payload _ _ _ _ _ _ consumed _ =>
      rw [consumed, List.length_append, NrosFrameHeader.length_toBytes] at size
      simp only [List.length_singleton] at size
      omega
  | crc _ _ _ _ _ consumed _ =>
      rw [consumed, List.length_append, List.length_append,
        NrosFrameHeader.length_toBytes] at size
      simp only [List.length_singleton] at size
      omega

end NrosStreamParser

open NrosStreamParser

/-- Where an overlong header is completed and followed by its payload and CRC,
a frame is delivered that cannot be encoded again. -/
theorem overlong_delivered {before rest : List UInt8} {byte : UInt8}
    (follows : (after feedByte nrosStreamParserInit before).OverlongFollows
      byte rest) :
    ∃ frame ∈ (emitted feedByte nrosStreamParserInit
        (before ++ byte :: rest)).map FrameEvent.frame,
      ¬frame.Reencodable := by
  obtain ⟨accepts, payload, behind, counts, rfl⟩ := follows
  obtain ⟨bytes, holding, whole, magic⟩ :=
    held_of_lacks_one (shows_reachable before) accepts.1 accepts.2.1 byte
  let frame : Frame :=
    { header := (after feedByte nrosStreamParserInit before).nextHeader byte
      payload }
  have deliverable : frame.Deliverable :=
    ⟨magic, counts, accepts.2.2.2⟩
  have read : bytes ++ (byte :: (payload ++
      putU16 (crc16Buf (frame.header.toBytes ++ payload)))) =
        frame.encoded := by
    rw [Frame.encoded, Frame.body]
    simp only [frame, ← whole, List.append_assoc, List.cons_append,
      List.nil_append]
  have run := (cleanRun_of_holding holding deliverable read).1
  refine ⟨frame, ?_, fun short => ?_⟩
  · rw [← List.cons_append, Transducer.emitted_append,
      Transducer.emitted_append, List.map_append, List.map_append,
      run.delivered]
    simp
  · exact Nat.not_lt.mpr short.length accepts.2.2.1

/-- A delivered frame that cannot be encoded again came in behind such a
header. -/
theorem overlongFollows_of_delivered {input : List UInt8} {event : FrameEvent}
    (fired : event ∈ emitted feedByte nrosStreamParserInit input)
    (overlong : ¬event.frame.Reencodable) :
    ∃ before byte rest, input = before ++ byte :: rest ∧
      (after feedByte nrosStreamParserInit before).OverlongFollows
        byte rest := by
  obtain ⟨deliverable, front, behind, rfl, was⟩ :=
    (traced_reachable input).delivered event fired
  rw [deliverable.reencodable_iff] at overlong
  have whole : event.frame.encoded =
      event.frame.header.toBytes.take 5 ++
        (highByte event.frame.header.length :: (event.frame.payload ++
          putU16 (crc16Buf event.frame.body))) := by
    simp [Frame.encoded, Frame.body, NrosFrameHeader.toBytes]
  obtain ⟨before, rfl, holding⟩ :=
    was _ _ whole (List.cons_ne_nil _ _) (Nat.le_add_left 2 3)
  have lastByte : event.frame.header.toBytes.take 5 ++
      [highByte event.frame.header.length] = event.frame.header.toBytes :=
    rfl
  obtain ⟨state, last, header⟩ := holding.lacks_one lastByte
  refine ⟨before, _, _, List.append_assoc _ _ _,
    ⟨state, last, ?_, ?_⟩, event.frame.payload, behind, ?_, ?_⟩
  · rw [header]
    exact Nat.lt_of_not_le overlong
  · rw [header]
    exact deliverable.short
  · rw [header]
    exact deliverable.counts
  · rw [header]
    rfl

/-- All frames delivered from a stream can be encoded again if and only if
nowhere in it an accepted header with a length above every sender's is
completed and followed by its payload and CRC. -/
theorem delivered_reencodable_iff (chunks : List (List UInt8)) :
    (∀ frame ∈ (feedChunks recordFrame nrosStreamParserInit [] chunks).2,
      frame.Reencodable) ↔
    ∀ (before : List UInt8) (byte : UInt8) (rest : List UInt8),
      chunks.flatten = before ++ byte :: rest →
        ¬(feedChunks recordFrame nrosStreamParserInit []
            [before]).1.OverlongFollows byte rest := by
  rw [feedChunks_recordFrame]
  simp only [feedChunks_recordFrame, List.flatten_singleton]
  constructor
  · intro reencodable before byte rest split follows
    obtain ⟨frame, delivered, overlong⟩ := overlong_delivered follows
    rw [← split] at delivered
    exact overlong (reencodable frame delivered)
  · intro never frame member
    obtain ⟨event, fired, rfl⟩ := List.mem_map.mp member
    by_contra overlong
    obtain ⟨before, byte, rest, split, follows⟩ :=
      overlongFollows_of_delivered fired overlong
    exact never before byte rest split follows

/-- A DATA frame for topic 7, one payload byte longer than a buffer takes. -/
def overlongFrame : Frame where
  header :=
    { magic0 := nrosMagic0, magic1 := nrosMagic1, type := 2, topicId := 7
      length := 1017 }
  payload := List.replicate 1017 0

theorem overlongFrame_deliverable : overlongFrame.Deliverable where
  magic := ⟨rfl, rfl⟩
  counts := List.length_replicate
  short := by decide

/-- A fresh parser delivers the overlong frame. -/
theorem not_delivered_reencodable :
    ¬∀ (chunks : List (List UInt8)),
      ∀ frame ∈ (feedChunks recordFrame nrosStreamParserInit [] chunks).2,
        frame.Reencodable := by
  intro always
  have hunting : nrosStreamParserInit.state = .huntSync := rfl
  have run := (cleanRun_frame hunting overlongFrame_deliverable).1
  have delivered : overlongFrame ∈ (feedChunks recordFrame
      nrosStreamParserInit [] [overlongFrame.encoded]).2 := by
    rw [feedChunks_recordFrame, List.flatten_singleton, run.delivered]
    exact List.mem_singleton_self _
  have short := (always _ _ delivered).length
  exact absurd short (by decide)

end NanoRos
