import NanoRos.ParserStep

/-!
# Framing round trip

A hunting parser delivers an encoded frame as the frame it encodes and hunts
on; noise without a sync pair passes through it without a trace.  Whole
streams of frames and noise follow by induction, however they are cut.
-/

namespace NanoRos

open Transducer (after emitted)

namespace NrosStreamParser

/-- Reading `bytes` delivers exactly `frames`, ends in the hunt and moves
neither statistic. -/
structure CleanRun (parser : NrosStreamParser) (bytes : List UInt8)
    (frames : List Frame) : Prop where
  delivered : (emitted feedByte parser bytes).map FrameEvent.frame = frames
  hunting : (after feedByte parser bytes).state = .huntSync
  counts : parser.SameCounts (after feedByte parser bytes)

theorem CleanRun.append {parser : NrosStreamParser}
    {leftBytes rightBytes : List UInt8} {leftFrames rightFrames : List Frame}
    (left : parser.CleanRun leftBytes leftFrames)
    (right : (after feedByte parser leftBytes).CleanRun rightBytes
      rightFrames) :
    parser.CleanRun (leftBytes ++ rightBytes) (leftFrames ++ rightFrames) where
  delivered := by
    rw [Transducer.emitted_append, List.map_append, left.delivered,
      right.delivered]
  hunting := by
    rw [Transducer.after_append]
    exact right.hunting
  counts := by
    rw [Transducer.after_append]
    exact left.counts.trans right.counts

/-! ### One frame -/

/-- A parser inside a frame has not seen all of it. -/
theorem Holding.rest_ne_nil {parser : NrosStreamParser}
    {bytes rest : List UInt8} {frame : Frame}
    (holding : parser.Holding bytes) (deliverable : frame.Deliverable)
    (split : bytes ++ rest = frame.encoded) : rest ≠ [] := by
  rintro rfl
  rw [List.append_nil] at split
  cases holding with
  | header _ _ _ unfinished consumed =>
      have lengths := congrArg List.length split
      rw [consumed, Buffer.length_take, Frame.length_encoded] at lengths
      omega
  | payload _ _ _ _ unfinished _ consumed _ =>
      rw [consumed, Frame.encoded, Frame.body, List.append_assoc] at split
      obtain ⟨headers, tails⟩ := NrosFrameHeader.toBytes_append_inj split
      have lengths := congrArg List.length tails
      rw [Buffer.length_take, List.length_append, length_putU16,
        deliverable.counts, ← headers] at lengths
      omega
  | crc _ _ _ short unfinished consumed _ =>
      rw [consumed, Frame.encoded, Frame.body, List.append_assoc,
        List.append_assoc] at split
      obtain ⟨headers, tails⟩ := NrosFrameHeader.toBytes_append_inj split
      have lengths := congrArg List.length tails
      rw [List.length_append, List.length_append, Buffer.length_take,
        Buffer.length_take, length_putU16, deliverable.counts, ← headers]
        at lengths
      omega

/-- One byte of a frame whose beginning the parser holds: the parser holds one
byte more, or it was the last byte and the frame is delivered. -/
theorem feedByte_inside {parser : NrosStreamParser} {bytes rest : List UInt8}
    {byte : UInt8} {frame : Frame} (holding : parser.Holding bytes)
    (deliverable : frame.Deliverable)
    (split : bytes ++ byte :: rest = frame.encoded) :
    (rest ≠ [] ∧ (parser.feedByte byte).2 = none ∧
        (parser.feedByte byte).1.Holding (bytes ++ [byte]) ∧
        parser.SameCounts (parser.feedByte byte).1) ∨
      (rest = [] ∧ ∃ event, (parser.feedByte byte).2 = some event ∧
        event.frame = frame ∧ (parser.feedByte byte).1.state = .huntSync ∧
        (parser.feedByte byte).1.headerByte 1 = nrosMagic1 ∧
        parser.SameCounts (parser.feedByte byte).1) := by
  have step := feedByte_holding holding byte
  have shifted : (bytes ++ [byte]) ++ rest = frame.encoded := by
    rw [← split]
    simp
  generalize parser.feedByte byte = outcome at step ⊢
  cases step with
  | continues holding counts =>
      exact .inl ⟨holding.rest_ne_nil deliverable shifted, rfl, holding, counts⟩
  | rejected header consumed overlong _ _ _ _ =>
      -- the frame's own length passes the check
      rw [consumed, Frame.encoded, Frame.body, List.append_assoc] at shifted
      have headers := (NrosFrameHeader.toBytes_append_inj shifted).1
      have short := deliverable.short
      rw [headers] at overlong
      omega
  | corrupted received low high consumed counted mismatch _ _ _ _ =>
      -- the frame's own CRC is the one computed over its body
      have parts : received.header.toBytes ++
          (received.payload ++ ([low, high] ++ rest)) =
            frame.header.toBytes ++
              (frame.payload ++ putU16 (crc16Buf frame.body)) := by
        rw [consumed] at shifted
        simpa [Frame.encoded, Frame.body] using shifted
      obtain ⟨headers, tails⟩ := NrosFrameHeader.toBytes_append_inj parts
      obtain ⟨payloads, crcs⟩ := List.append_inj tails (by
        rw [counted, deliverable.counts, headers])
      have frames : received = frame := by
        cases received
        cases frame
        simp only at headers payloads
        rw [headers, payloads]
      rw [frames] at mismatch
      simp only [putU16, List.cons_append, List.nil_append,
        List.cons.injEq] at crcs
      rw [crcs.1, crcs.2.1, getU16_lowByte_highByte] at mismatch
      exact absurd rfl mismatch
  | delivered event consumed arrived hunting window counts =>
      have whole : event.frame.encoded ++ rest = frame.encoded ++ [] := by
        rw [← consumed, shifted, List.append_nil]
      obtain ⟨frames, nothing⟩ := Frame.encoded_append_inj
        arrived.counts deliverable.counts whole
      exact .inr ⟨nothing, event, rfl, frames, hunting, window, counts⟩

/-- The rest of a frame, read by a parser that holds its beginning. -/
theorem cleanRun_of_holding {parser : NrosStreamParser}
    {bytes rest : List UInt8} {frame : Frame}
    (holding : parser.Holding bytes) (deliverable : frame.Deliverable)
    (split : bytes ++ rest = frame.encoded) :
    parser.CleanRun rest [frame] ∧
      (after feedByte parser rest).headerByte 1 = nrosMagic1 := by
  induction rest generalizing parser bytes with
  | nil => exact absurd rfl (holding.rest_ne_nil deliverable split)
  | cons byte rest induction =>
      rcases feedByte_inside holding deliverable split with
        ⟨_, silent, stillHolding, counts⟩ |
          ⟨nothing, event, fires, same, hunting, window, counts⟩
      · obtain ⟨run, window⟩ := induction stillHolding (by
          rw [← split]
          simp)
        refine ⟨⟨?_, ?_, ?_⟩, ?_⟩
        · simpa [Transducer.emitted_cons, silent] using run.delivered
        · simpa [Transducer.after_cons] using run.hunting
        · simpa [Transducer.after_cons] using counts.trans run.counts
        · simpa [Transducer.after_cons] using window
      · subst nothing
        refine ⟨⟨?_, ?_, ?_⟩, ?_⟩
        · simpa [Transducer.emitted_cons, fires] using same
        · simpa [Transducer.after_cons] using hunting
        · simpa [Transducer.after_cons] using counts
        · simpa [Transducer.after_cons] using window

/-- Nothing is delivered before a frame's last byte. -/
theorem emitted_of_holding {parser : NrosStreamParser}
    {bytes front rest : List UInt8} {frame : Frame}
    (holding : parser.Holding bytes) (deliverable : frame.Deliverable)
    (split : bytes ++ (front ++ rest) = frame.encoded)
    (unfinished : rest ≠ []) : emitted feedByte parser front = [] := by
  induction front generalizing parser bytes with
  | nil => rfl
  | cons byte front induction =>
      rcases feedByte_inside holding deliverable split with
        ⟨_, silent, stillHolding, _⟩ | ⟨nothing, _⟩
      · rw [Transducer.emitted_cons, silent]
        apply induction stillHolding
        rw [← split]
        simp
      · exact absurd (List.append_eq_nil_iff.mp nothing).2 unfinished

/-- A hunting parser locks on to the two magic bytes. -/
theorem lock_on {parser : NrosStreamParser}
    (hunting : parser.state = .huntSync) :
    emitted feedByte parser [nrosMagic0] = [] ∧
      emitted feedByte parser [nrosMagic0, nrosMagic1] = [] ∧
      (after feedByte parser [nrosMagic0, nrosMagic1]).Holding
        [nrosMagic0, nrosMagic1] ∧
      parser.SameCounts (after feedByte parser [nrosMagic0, nrosMagic1]) := by
  have different : nrosMagic0 ≠ nrosMagic1 := by decide
  rcases feedByte_hunting parser nrosMagic0 hunting with
    ⟨⟨_, same⟩, _⟩ | ⟨_, silent, stillHunting, window, firstCounts⟩
  · exact absurd same different
  rcases feedByte_hunting (parser.feedByte nrosMagic0).1 nrosMagic1
    stillHunting with
    ⟨_, locked, holding, secondCounts⟩ | ⟨missed, _⟩
  · refine ⟨?_, ?_, holding, firstCounts.trans secondCounts⟩
    · simp [Transducer.emitted_cons, silent]
    · simp [Transducer.emitted_cons, silent, locked]
  · exact absurd ⟨window, rfl⟩ missed

theorem encoded_starts {frame : Frame} (deliverable : frame.Deliverable) :
    ∃ tail, frame.encoded = [nrosMagic0, nrosMagic1] ++ tail := by
  refine ⟨frame.encoded.drop 2, ?_⟩
  simp [Frame.encoded, Frame.body, NrosFrameHeader.toBytes,
    deliverable.magic.1, deliverable.magic.2]

/-- A hunting parser, whatever its window shows, delivers an encoded frame
exactly once and is hunting again. -/
theorem cleanRun_frame {parser : NrosStreamParser}
    (hunting : parser.state = .huntSync) {frame : Frame}
    (deliverable : frame.Deliverable) :
    parser.CleanRun frame.encoded [frame] ∧
      (after feedByte parser frame.encoded).headerByte 1 = nrosMagic1 := by
  obtain ⟨tail, split⟩ := encoded_starts deliverable
  obtain ⟨_, silent, holding, counts⟩ := lock_on hunting
  obtain ⟨run, window⟩ := cleanRun_of_holding holding deliverable split.symm
  rw [split]
  refine ⟨⟨?_, ?_, ?_⟩, ?_⟩
  · rw [Transducer.emitted_append, silent]
    exact run.delivered
  · rw [Transducer.after_append]
    exact run.hunting
  · rw [Transducer.after_append]
    exact counts.trans run.counts
  · rw [Transducer.after_append]
    exact window

/-- A hunting parser delivers nothing before a frame's last byte. -/
theorem emitted_frame_prefix {parser : NrosStreamParser}
    (hunting : parser.state = .huntSync) {frame : Frame}
    (deliverable : frame.Deliverable) {front rest : List UInt8}
    (split : front ++ rest = frame.encoded) (unfinished : rest ≠ []) :
    emitted feedByte parser front = [] := by
  obtain ⟨tail, starts⟩ := encoded_starts deliverable
  obtain ⟨silent, locked, holding, _⟩ := lock_on hunting
  cases front with
  | nil => rfl
  | cons first front =>
      cases front with
      | nil =>
          have same : first = nrosMagic0 := by
            rw [starts] at split
            exact (List.cons.inj split).1
          rw [same]
          exact silent
      | cons second front =>
          rw [starts] at split
          simp only [List.cons_append, List.nil_append, List.cons.injEq]
            at split
          obtain ⟨rfl, rfl, tails⟩ := split
          have inside : [nrosMagic0, nrosMagic1] ++ (front ++ rest) =
              frame.encoded := by
            rw [starts, tails]
          have quiet := emitted_of_holding holding deliverable inside unfinished
          have joined : nrosMagic0 :: nrosMagic1 :: front =
              [nrosMagic0, nrosMagic1] ++ front := rfl
          rw [joined, Transducer.emitted_append, locked, quiet]
          rfl

/-! ### Noise -/

/-- No adjacent pair of bytes is the magic number. -/
def NoSyncPair (noise : List UInt8) : Prop :=
  ¬[nrosMagic0, nrosMagic1] <:+: noise

instance (noise : List UInt8) : Decidable (NoSyncPair noise) :=
  inferInstanceAs (Decidable (¬_))

theorem NoSyncPair.cons {noise : List UInt8} (quiet : NoSyncPair noise)
    {byte : UInt8} (different : byte ≠ nrosMagic0) :
    NoSyncPair (byte :: noise) := by
  intro found
  rcases List.infix_cons_iff.mp found with atHead | inside
  · exact different (List.cons_prefix_cons.mp atHead).1.symm
  · exact quiet inside

/-- A byte that does not complete the pair leaves the noise without one. -/
theorem NoSyncPair.concat {noise : List UInt8} (quiet : NoSyncPair noise)
    {byte : UInt8}
    (incomplete : ¬(noise.getLast? = some nrosMagic0 ∧ byte = nrosMagic1)) :
    NoSyncPair (noise ++ [byte]) := by
  intro found
  rcases List.infix_concat_iff.mp found with atEnd | inside
  · rcases List.suffix_concat_iff.mp atEnd with
      nothing | ⟨front, split, suffix⟩
    · exact absurd nothing (List.cons_ne_nil _ _)
    · have parts : [nrosMagic0] ++ [nrosMagic1] = front ++ [byte] := split
      obtain ⟨rfl, same⟩ := List.append_inj' parts rfl
      obtain ⟨others, rfl⟩ := suffix
      exact incomplete ⟨by simp, (List.cons.inj same).1.symm⟩
  · exact quiet inside

theorem NoSyncPair.of_infix {noise part : List UInt8}
    (quiet : NoSyncPair noise) (inside : part <:+: noise) :
    NoSyncPair part := fun found => quiet (found.trans inside)

/-- Noise read in the hunt is skipped, the window's last byte counted in. -/
theorem cleanRun_noise {parser : NrosStreamParser} {noise : List UInt8}
    (hunting : parser.state = .huntSync)
    (quiet : NoSyncPair (parser.headerByte 1 :: noise)) :
    parser.CleanRun noise [] := by
  induction noise generalizing parser with
  | nil => exact ⟨rfl, hunting, .refl parser⟩
  | cons byte noise induction =>
      rcases feedByte_hunting parser byte hunting with
        ⟨⟨window, same⟩, _⟩ | ⟨_, silent, stillHunting, window, counts⟩
      · refine absurd ?_ quiet
        rw [window, same]
        exact ⟨[], noise, rfl⟩
      · have rest : (parser.feedByte byte).1.CleanRun noise [] := by
          apply induction stillHunting
          rw [window]
          exact quiet.of_infix (List.suffix_cons _ _).isInfix
        refine ⟨?_, ?_, ?_⟩
        · simpa [Transducer.emitted_cons, silent] using rest.delivered
        · simpa [Transducer.after_cons] using rest.hunting
        · simpa [Transducer.after_cons] using counts.trans rest.counts

end NrosStreamParser

/-! ## Whole streams -/

open NrosStreamParser

/-- One accepted call of the encoder: what it is given, and an output buffer
of `nrosBufferSize` bytes with arbitrary old contents. -/
structure EncodeCall where
  header : NrosFrameHeader
  payload : List UInt8
  outBuf : NrosBuffer
  counts : header.length.toNat = payload.length
  fits : payload.length ≤ nrosMaxPayload

namespace EncodeCall

def frame (call : EncodeCall) : Frame :=
  { header := call.header, payload := call.payload }

/-- The bytes the call returns in its buffer. -/
def bytes (call : EncodeCall) : List UInt8 :=
  let (length, written) := nrosStreamEncodeFrame call.header
    (some call.payload) call.payload.length call.outBuf
  written.take length

theorem sendable (call : EncodeCall) : call.frame.Sendable :=
  ⟨call.counts, call.fits⟩

theorem bytes_eq_encoded (call : EncodeCall) :
    call.bytes = call.frame.onWire.encoded := by
  have fits := call.fits
  simp only [nrosMaxPayload, nrosBufferSize] at fits
  exact nrosStreamEncodeFrame_take call.header call.payload call.outBuf (by
    simp only [nrosBufferSize, frameHeaderSize, nrosCrcLen] at fits ⊢
    omega)

end EncodeCall

/-- Noise, frame, noise, frame, ... and a last stretch of noise. -/
def noisyStream : List (List UInt8 × EncodeCall) → List UInt8 → List UInt8
  | [], last => last
  | (noise, call) :: rest, last => noise ++ call.bytes ++ noisyStream rest last

theorem cleanRun_noisyStream {parser : NrosStreamParser}
    (segments : List (List UInt8 × EncodeCall)) (last : List UInt8)
    (hunting : parser.state = .huntSync)
    (window : parser.headerByte 1 ≠ nrosMagic0)
    (quiet : ∀ segment ∈ segments, NoSyncPair segment.1)
    (lastQuiet : NoSyncPair last) :
    parser.CleanRun (noisyStream segments last)
      (segments.map fun segment => segment.2.frame.onWire) := by
  induction segments generalizing parser with
  | nil => exact cleanRun_noise hunting (lastQuiet.cons window)
  | cons segment segments induction =>
      rcases segment with ⟨noise, call⟩
      have noiseQuiet : NoSyncPair noise := quiet (noise, call) (by simp)
      have noiseRun := cleanRun_noise hunting (noiseQuiet.cons window)
      obtain ⟨frameRun, frameWindow⟩ :=
        cleanRun_frame noiseRun.hunting call.sendable.onWire_deliverable
      rw [← call.bytes_eq_encoded] at frameRun frameWindow
      have notMagic : (after feedByte (after feedByte parser noise)
          call.bytes).headerByte 1 ≠ nrosMagic0 := by
        rw [frameWindow]
        decide
      have restRun := induction frameRun.hunting notMagic
        (fun other member => quiet other (by simp [member]))
      have whole := (noiseRun.append frameRun).append
        (by rwa [Transducer.after_append])
      simpa [noisyStream] using whole

theorem foldl_recordFrame (events : List FrameEvent) (frames : List Frame) :
    events.foldl recordFrame frames =
      frames ++ events.map FrameEvent.frame := by
  induction events generalizing frames with
  | nil => simp
  | cons event events induction =>
      rw [List.foldl_cons, induction]
      simp [recordFrame]

/-- Feeding in chunks: parser state and recorded frames of the whole. -/
theorem feedChunks_recordFrame (parser : NrosStreamParser)
    (chunks : List (List UInt8)) :
    feedChunks recordFrame parser [] chunks =
      (after feedByte parser chunks.flatten,
        (emitted feedByte parser chunks.flatten).map FrameEvent.frame) := by
  have whole := Transducer.runWith_flatten feedByte recordFrame parser
    [] chunks
  rw [foldl_recordFrame, List.nil_append] at whole
  exact whole

/-- Frames encoded into `nrosBufferSize` buffers, with noise free of sync
pairs around them, come out of a fresh parser as they went in, however the
stream is cut into chunks. -/
theorem stream_round_trip (segments : List (List UInt8 × EncodeCall))
    (last : List UInt8)
    (quiet : ∀ segment ∈ segments, NoSyncPair segment.1)
    (lastQuiet : NoSyncPair last) (chunks : List (List UInt8))
    (cut : chunks.flatten = noisyStream segments last) :
    (feedChunks recordFrame nrosStreamParserInit [] chunks).2 =
        segments.map (fun segment => segment.2.frame.onWire) ∧
      (feedChunks recordFrame nrosStreamParserInit [] chunks).1.resyncCount =
        0 ∧
      (feedChunks recordFrame nrosStreamParserInit [] chunks).1.crcFailCount =
        0 := by
  have hunting : nrosStreamParserInit.state = .huntSync := rfl
  have window : nrosStreamParserInit.headerByte 1 ≠ nrosMagic0 := by decide
  have run := cleanRun_noisyStream segments last hunting window quiet lastQuiet
  rw [feedChunks_recordFrame, cut]
  exact ⟨run.delivered, run.counts.1, run.counts.2⟩

/-- A DATA frame whose payload is the sync pair itself. -/
def syncPairCall : EncodeCall where
  header := { NrosFrameHeader.zeroed with type := 2, topicId := 127, length := 2 }
  payload := [0xAA, 0x55]
  outBuf := .filled _ 0
  counts := rfl
  fits := by decide

theorem stream_round_trip_syncPair :
    (feedChunks recordFrame nrosStreamParserInit []
        [noisyStream [([0x55, 0xAA], syncPairCall)] [0x55]]).2 =
      [syncPairCall.frame.onWire] :=
  (stream_round_trip [([0x55, 0xAA], syncPairCall)] [0x55] (by decide)
    (by decide) [noisyStream [([0x55, 0xAA], syncPairCall)] [0x55]]
    (by simp)).1

end NanoRos
