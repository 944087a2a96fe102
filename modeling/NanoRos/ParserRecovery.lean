import NanoRos.ParserView
import NanoRos.StreamRoundTrip

/-!
# Recovery of a desynchronised parser

Whatever a parser believes to be reading, it is back in the hunt after at most
one longest frame.  In a stream of frames that show the sync pair only at
their start it then finds the next start and stays in step.
-/

namespace NanoRos

open Transducer (after emitted)

/-- A header, the longest payload the parser accepts, and the CRC. -/
def longestFrame : Nat := frameHeaderSize + nrosBufferSize + nrosCrcLen

namespace NrosStreamParser

/-! ### Back to the hunt -/

theorem Holding.length_lt {parser : NrosStreamParser} {bytes : List UInt8}
    (holding : parser.Holding bytes) : bytes.length < longestFrame := by
  rcases holding.unfinished with few | ⟨header, rest, rfl, bounded, missing⟩
  · simp only [longestFrame]
    omega
  · simp only [List.length_append, NrosFrameHeader.length_toBytes,
      longestFrame, frameHeaderSize]
    omega

theorem Holding.two_le_length {parser : NrosStreamParser}
    {bytes : List UInt8} (holding : parser.Holding bytes) :
    2 ≤ bytes.length := by
  cases holding with
  | header _ _ started unfinished consumed =>
      rw [consumed, Buffer.length_take]
      omega
  | payload _ _ _ _ _ _ consumed _ =>
      rw [consumed, List.length_append, NrosFrameHeader.length_toBytes]
      omega
  | crc _ _ _ _ _ consumed _ =>
      rw [consumed, List.length_append, List.length_append,
        NrosFrameHeader.length_toBytes]
      omega

/-- The window's last byte is stale, or the last of the bytes just read. -/
def Trails (parser : NrosStreamParser) (front : List UInt8) : Prop :=
  parser.headerByte 1 = nrosMagic1 ∨
    front.getLast? = some (parser.headerByte 1)

/-- A parser inside a frame hunts again before it has held more bytes than the
longest frame has. -/
theorem hunts_again {parser : NrosStreamParser} {held : List UInt8}
    (holding : parser.Holding held) (stream : List UInt8)
    (enough : longestFrame ≤ held.length + stream.length) :
    ∃ front back, stream = front ++ back ∧ front ≠ [] ∧
      held.length + front.length ≤ longestFrame ∧
      (after feedByte parser front).state = .huntSync ∧
      (after feedByte parser front).Trails front := by
  induction stream generalizing parser held with
  | nil =>
      have short := holding.length_lt
      rw [List.length_nil] at enough
      omega
  | cons byte stream induction =>
      have short := holding.length_lt
      have step := feedByte_holding holding byte
      have first : after feedByte parser [byte] = (parser.feedByte byte).1 :=
        rfl
      have one : held.length + [byte].length ≤ longestFrame := short
      rcases outcome : parser.feedByte byte with ⟨next, event⟩
      rw [outcome] at step first
      have stops (hunting : next.state = .huntSync)
          (trails : next.Trails [byte]) :
          ∃ front back, byte :: stream = front ++ back ∧ front ≠ [] ∧
            held.length + front.length ≤ longestFrame ∧
            (after feedByte parser front).state = .huntSync ∧
            (after feedByte parser front).Trails front := by
        refine ⟨[byte], stream, rfl, List.cons_ne_nil _ _, one, ?_⟩
        rw [first]
        exact ⟨hunting, trails⟩
      cases step with
      | continues stillHolding _ =>
          obtain ⟨front, back, split, some_, bounded, hunting, trails⟩ :=
            induction stillHolding (by
              simp only [List.length_append, List.length_cons,
                List.length_nil] at enough ⊢
              omega)
          have stepped : after feedByte parser (byte :: front) =
              after feedByte next front := by
            rw [Transducer.after_cons, outcome]
          refine ⟨byte :: front, back, by rw [split, List.cons_append],
            List.cons_ne_nil _ _, ?_, ?_, ?_⟩
          · simp only [List.length_append, List.length_cons,
              List.length_nil] at bounded ⊢
            omega
          · rw [stepped]
            exact hunting
          · rw [stepped]
            refine trails.imp_right fun last => ?_
            rw [List.getLast?_cons, last]
            rfl
      | rejected _ _ _ hunting window _ _ =>
          exact stops hunting (.inr (by rw [window]; rfl))
      | corrupted _ _ _ _ _ _ hunting window _ _ =>
          exact stops hunting (.inl window)
      | delivered _ _ _ hunting window _ =>
          exact stops hunting (.inl window)

/-! ### Back in step -/

/-- Frames back to back, read by a hunting parser. -/
theorem cleanRun_frames {parser : NrosStreamParser}
    (hunting : parser.state = .huntSync) (calls : List EncodeCall) :
    parser.CleanRun (calls.flatMap EncodeCall.bytes)
      (calls.map fun call => call.frame.onWire) := by
  induction calls generalizing parser with
  | nil => exact ⟨rfl, hunting, .refl parser⟩
  | cons call calls induction =>
      have frameRun :=
        (cleanRun_frame hunting call.sendable.onWire_deliverable).1
      rw [← call.bytes_eq_encoded] at frameRun
      exact frameRun.append (induction frameRun.hunting)

/-- A hunting parser that has seen the first magic byte finds the frame it
starts. -/
theorem cleanRun_armed {parser : NrosStreamParser}
    (hunting : parser.state = .huntSync)
    (window : parser.headerByte 1 = nrosMagic0) {frame : Frame}
    (deliverable : frame.Deliverable) {first : UInt8} {rest : List UInt8}
    (split : frame.encoded = first :: rest) :
    parser.CleanRun rest [frame] := by
  obtain ⟨body, starts⟩ := encoded_starts deliverable
  rw [split] at starts
  obtain ⟨rfl, rfl⟩ := List.cons.inj starts
  rcases feedByte_hunting parser nrosMagic1 hunting with
    ⟨_, silent, holding, counts⟩ | ⟨missed, _⟩
  · have run := (cleanRun_of_holding holding deliverable split.symm).1
    refine ⟨?_, run.hunting, counts.trans run.counts⟩
    have delivered := run.delivered
    simpa [Transducer.emitted_cons, silent] using delivered
  · exact absurd ⟨window, rfl⟩ missed

/-- The rest of a frame, read in the hunt: either its first byte is still in
the window and the frame is found after all, or the rest is noise. -/
theorem hunting_after_rest {parser : NrosStreamParser} {call : EncodeCall}
    {first : UInt8} {front tail : List UInt8}
    (hunting : parser.state = .huntSync)
    (trails : parser.Trails (first :: front))
    (split : call.bytes = first :: front ++ tail)
    (unambiguous : NoSyncPair (call.bytes.drop 1)) :
    (after feedByte parser tail).state = .huntSync := by
  have later : NoSyncPair (front ++ tail) := by
    rw [split] at unambiguous
    exact unambiguous
  have noise : NoSyncPair tail :=
    later.of_infix (List.suffix_append _ _).isInfix
  rcases trails with stale | last
  · refine (cleanRun_noise hunting ?_).hunting
    rw [stale]
    exact noise.cons (by decide)
  · rcases List.eq_nil_or_concat front with rfl | ⟨others, last_, rfl⟩
    · have starts : call.frame.onWire.encoded = first :: tail := by
        rw [← call.bytes_eq_encoded, split]
        rfl
      obtain ⟨body, magic⟩ := encoded_starts call.sendable.onWire_deliverable
      have window : parser.headerByte 1 = nrosMagic0 := by
        rw [starts] at magic
        rw [← (List.cons.inj magic).1]
        exact (Option.some.inj last).symm
      exact (cleanRun_armed hunting window call.sendable.onWire_deliverable
        starts).hunting
    · refine (cleanRun_noise hunting ?_).hunting
      have same : last_ = parser.headerByte 1 := by
        rw [List.concat_eq_append, ← List.cons_append,
          List.getLast?_append] at last
        exact Option.some.inj last
      rw [← same]
      exact later.of_infix ⟨others, [], by simp⟩

/-- From any cut in a stream of frames on, a hunting parser is in step at the
stream's end. -/
theorem hunting_after_frames {parser : NrosStreamParser}
    {calls : List EncodeCall} {front back : List UInt8}
    (hunting : parser.state = .huntSync)
    (trails : front ≠ [] → parser.Trails front)
    (split : calls.flatMap EncodeCall.bytes = front ++ back)
    (unambiguous : ∀ call ∈ calls, NoSyncPair (call.bytes.drop 1)) :
    (after feedByte parser back).state = .huntSync := by
  induction calls generalizing front with
  | nil =>
      obtain ⟨_, rfl⟩ := List.append_eq_nil_iff.mp split.symm
      exact hunting
  | cons call calls induction =>
      rw [List.flatMap_cons] at split
      rcases List.append_eq_append_iff.mp split with
        ⟨rest, frontSplit, callsSplit⟩ | ⟨tail, callSplit, backSplit⟩
      · -- the cut lies in a later frame
        refine induction (fun some_ => ?_) callsSplit
          (fun other member => unambiguous other (by simp [member]))
        refine (trails (by simp [frontSplit, some_])).imp_right fun last => ?_
        rw [frontSplit, List.getLast?_append_of_ne_nil _ some_] at last
        exact last
      · cases front with
        | nil =>
            have whole : back = (call :: calls).flatMap EncodeCall.bytes := by
              rw [List.flatMap_cons, callSplit, backSplit]
              rfl
            rw [whole]
            exact (cleanRun_frames hunting _).hunting
        | cons first front =>
            have resumed := hunting_after_rest hunting
              (trails (List.cons_ne_nil _ _)) callSplit
              (unambiguous call List.mem_cons_self)
            rw [backSplit, Transducer.after_append]
            exact (cleanRun_frames resumed calls).hunting

/-- At an offset of one longest frame, less the sync pair, a reachable parser
is in step with a stream of frames. -/
theorem hunting_after_early {parser : NrosStreamParser} {view : ParserView}
    (shows_ : parser.Shows view) (early : List EncodeCall)
    (unambiguous : ∀ call ∈ early, NoSyncPair (call.bytes.drop 1))
    (reached : 1030 ≤ (early.flatMap EncodeCall.bytes).length) :
    (after feedByte parser (early.flatMap EncodeCall.bytes)).state =
      .huntSync := by
  cases shows_ with
  | hunting state _ => exact (cleanRun_frames state early).hunting
  | inside holding =>
      have started := holding.two_le_length
      obtain ⟨front, back, split, _, _, hunting, trails⟩ :=
        hunts_again holding (early.flatMap EncodeCall.bytes) (by
          simp only [longestFrame, frameHeaderSize, nrosBufferSize,
            nrosCrcLen]
          omega)
      have resumed := hunting_after_frames hunting (fun _ => trails) split
        unambiguous
      rw [split, Transducer.after_append]
      exact resumed

end NrosStreamParser

open NrosStreamParser

/-- Self-stabilisation: whatever bytes came before, and however the stream is
cut into chunks, the frames that start at offset 1030 or later are delivered
in order, and from the first of them on nothing else is. -/
theorem parser_stabilises (before chunks : List (List UInt8))
    (early late : List EncodeCall)
    (unambiguous : ∀ call ∈ early ++ late, NoSyncPair (call.bytes.drop 1))
    (reached : 1030 ≤ (early.flatMap EncodeCall.bytes).length)
    (cut : chunks.flatten = (early ++ late).flatMap EncodeCall.bytes) :
    let parser := (feedChunks recordFrame nrosStreamParserInit [] before).1
    (feedChunks recordFrame parser [] chunks).2 =
      (feedChunks recordFrame parser []
          [early.flatMap EncodeCall.bytes]).2 ++
        late.map (fun call => call.frame.onWire) := by
  intro parser
  have hunting := hunting_after_early (shows_reachable before.flatten) early
    (fun call member => unambiguous call (by simp [member])) reached
  have lateRun := cleanRun_frames hunting late
  have reachedBy : parser =
      after feedByte nrosStreamParserInit before.flatten := by
    simp only [parser, feedChunks_recordFrame]
  rw [feedChunks_recordFrame, feedChunks_recordFrame, cut, reachedBy,
    List.flatMap_append, List.flatten_singleton, Transducer.emitted_append,
    List.map_append, lateRun.delivered]

/-- A frame without payload. -/
def emptyCall : EncodeCall where
  header := { NrosFrameHeader.zeroed with type := 2, topicId := 7 }
  payload := []
  outBuf := .filled _ 0
  counts := rfl
  fits := by decide

/-- A parser that has just locked on to a false sync pair. -/
theorem parser_stabilises_false_sync :
    let parser :=
      (feedChunks recordFrame nrosStreamParserInit [] [[0xAA, 0x55]]).1
    (feedChunks recordFrame parser []
        [(List.replicate 129 emptyCall ++ [emptyCall]).flatMap
          EncodeCall.bytes]).2 =
      (feedChunks recordFrame parser []
          [(List.replicate 129 emptyCall).flatMap EncodeCall.bytes]).2 ++
        [emptyCall].map (fun call => call.frame.onWire) := by
  have length : emptyCall.bytes.length = 8 := by
    rw [emptyCall.bytes_eq_encoded, Frame.length_encoded]
    rfl
  have quiet : NoSyncPair (emptyCall.bytes.drop 1) := by
    rw [emptyCall.bytes_eq_encoded]
    decide +kernel
  refine parser_stabilises [[0xAA, 0x55]] _ (List.replicate 129 emptyCall)
    [emptyCall] ?_ ?_ (List.flatten_singleton)
  · intro call member
    simp only [List.mem_append, List.mem_replicate, List.mem_singleton]
      at member
    rcases member with ⟨_, rfl⟩ | rfl <;> exact quiet
  · simp [length]

end NanoRos
