import NanoRos.ParserRecovery

/-!
# Rejected headers

A header whose length is too large sends the parser back to the hunt with only
its last byte in the window.  The bytes before it are not searched again, so a
sync pair that lies wholly inside the rejected header is passed over.
-/

namespace NanoRos

open Transducer (after emitted)

namespace ParserView

/-! ### Few bytes -/

/-- How many bytes of a frame the view may be counting on. -/
def held : ParserView → Nat
  | .hunting armed => if armed then 1 else 0
  | .inside bytes => bytes.length

/-- One byte is at most one byte more of a frame, and completes no frame
shorter than a header and a CRC. -/
theorem held_read (view : ParserView) (byte : UInt8) :
    (view.read byte).1.held ≤ view.held + 1 ∧
      (view.held + 1 < frameHeaderSize + nrosCrcLen →
        (view.read byte).2 = none) := by
  cases view with
  | hunting armed =>
      by_cases locks : armed ∧ byte = nrosMagic1
      · simp [read, locks, held]
      · simp only [read, if_neg locks, held, implies_true, and_true]
        split_ifs <;> omega
  | inside bytes =>
      have counted : (bytes ++ [byte]).length = bytes.length + 1 := by simp
      simp only [read]
      split_ifs with few overlong missing
      · exact ⟨Nat.le_of_eq counted, fun _ => rfl⟩
      · refine ⟨?_, fun _ => rfl⟩
        simp only [held]
        split_ifs <;> omega
      · exact ⟨Nat.le_of_eq counted, fun _ => rfl⟩
      · refine ⟨by simp [held], fun small => ?_⟩
        simp only [held] at small
        omega

theorem emitted_few (view : ParserView) (bytes : List UInt8)
    (few : view.held + bytes.length < frameHeaderSize + nrosCrcLen) :
    emitted read view bytes = [] := by
  induction bytes generalizing view with
  | nil => rfl
  | cons byte bytes induction =>
      obtain ⟨grows, silent⟩ := held_read view byte
      rw [List.length_cons] at few
      rw [Transducer.emitted_cons, silent (by omega),
        induction _ (by omega)]
      rfl

/-- What the hunt makes of fewer bytes than a header has: they show no sync
pair and the last byte is remembered, or a frame has begun in them. -/
theorem after_few (bytes : List UInt8)
    (few : bytes.length < frameHeaderSize) :
    (NrosStreamParser.NoSyncPair bytes ∧ after read (.hunting false) bytes =
        .hunting (decide (bytes.getLast? = some nrosMagic0))) ∨
      (¬NrosStreamParser.NoSyncPair bytes ∧ ∃ front begun,
        bytes = front ++ begun ∧
          after read (.hunting false) bytes = .inside begun) := by
  induction bytes using List.reverseRecOn with
  | nil => exact .inl ⟨by decide, rfl⟩
  | append_singleton bytes byte induction =>
      rw [List.length_append, List.length_singleton] at few
      have stepped : after read (.hunting false) (bytes ++ [byte]) =
          ((after read (.hunting false) bytes).read byte).1 := by
        rw [Transducer.after_append]
        rfl
      rw [stepped]
      rcases induction (by omega) with
        ⟨quiet, hunting⟩ | ⟨pair, front, begun, rfl, inside⟩
      · rw [hunting]
        by_cases locks : bytes.getLast? = some nrosMagic0 ∧ byte = nrosMagic1
        · obtain ⟨last, rfl⟩ := locks
          obtain ⟨front, rfl⟩ := List.getLast?_eq_some_iff.mp last
          refine .inr ⟨fun none_ => none_ ⟨front, [], by simp⟩, front,
            [nrosMagic0, nrosMagic1], by simp, ?_⟩
          simp [read]
        · refine .inl ⟨quiet.concat locks, ?_⟩
          have unarmed : ¬(decide (bytes.getLast? = some nrosMagic0) = true ∧
              byte = nrosMagic1) := by
            rw [decide_eq_true_iff]
            exact locks
          simp only [read, if_neg unarmed, List.getLast?_append,
            List.getLast?_singleton, Option.some_or, Option.some.injEq]
      · right
        refine ⟨fun quiet =>
          pair (quiet.of_infix (List.prefix_append _ _).isInfix),
          front, begun ++ [byte], List.append_assoc _ _ _, ?_⟩
        rw [List.length_append] at few
        have unfinished : (begun ++ [byte]).length < frameHeaderSize := by
          rw [List.length_append, List.length_singleton]
          omega
        rw [inside, read_inside_unfinished (.inl unfinished)]

end ParserView

namespace NrosStreamParser

/-- The header the parser has with its next byte. -/
def nextHeader (parser : NrosStreamParser) (byte : UInt8) :
    NrosFrameHeader :=
  .ofBytes (parser.headerBuf.take parser.headerBytesHave ++ [byte])

/-- The next byte completes a header whose length is too large. -/
def RejectsHeader (parser : NrosStreamParser) (byte : UInt8) : Prop :=
  parser.state = .waitHeader ∧
    parser.headerBytesHave + 1 = frameHeaderSize ∧
      nrosBufferSize < (parser.nextHeader byte).length.toNat

instance (parser : NrosStreamParser) (byte : UInt8) :
    Decidable (parser.RejectsHeader byte) :=
  inferInstanceAs (Decidable (_ ∧ _))

/-- The frames a parser delivers from `rest`. -/
def framesFrom (parser : NrosStreamParser) (rest : List UInt8) : List Frame :=
  (feedChunks recordFrame parser [] [rest]).2

theorem framesFrom_eq (parser : NrosStreamParser) (rest : List UInt8) :
    parser.framesFrom rest =
      (emitted feedByte parser rest).map FrameEvent.frame := by
  rw [framesFrom, feedChunks_recordFrame, List.flatten_singleton]

theorem framesFrom_eq_view {parser : NrosStreamParser} {view : ParserView}
    (shows_ : parser.Shows view) (rest : List UInt8) :
    parser.framesFrom rest = emitted ParserView.read view rest := by
  rw [framesFrom_eq, (shows_after shows_ rest).2]

/-- A parser in the hunt that has read the rejected header but for its first
byte. -/
def huntedAgain (header : NrosFrameHeader) : NrosStreamParser :=
  after feedByte nrosStreamParserInit (header.toBytes.drop 1)

/-- After the rejecting byte the parser goes on as if it had hunted from the
second byte of the header on, and it delivers a frame that begins inside the
header. -/
structure RecoversFrom (parser : NrosStreamParser) (byte : UInt8) :
    Prop where
  continues : ∀ rest, (parser.feedByte byte).1.framesFrom rest =
    (huntedAgain (parser.nextHeader byte)).framesFrom rest
  keeps : ∀ (outer inner rest : List UInt8) (call : EncodeCall),
    outer ≠ [] → inner ≠ [] →
      (parser.nextHeader byte).toBytes = outer ++ inner →
        call.bytes = inner ++ rest →
          (parser.feedByte byte).1.framesFrom rest = [call.frame.onWire]

/-! ### The rejecting step -/

/-- What is held starts with the sync pair. -/
theorem Holding.take_two {parser : NrosStreamParser} {bytes : List UInt8}
    (holding : parser.Holding bytes) :
    bytes.take 2 = [nrosMagic0, nrosMagic1] := by
  cases holding with
  | header _ window started _ consumed =>
      rw [consumed, Buffer.take, List.take_take, Nat.min_eq_left started]
      exact window
  | payload _ _ magic _ _ _ consumed _ =>
      rw [consumed]
      simp [NrosFrameHeader.toBytes, magic.1, magic.2]
  | crc _ _ magic _ _ consumed _ =>
      rw [consumed]
      simp [NrosFrameHeader.toBytes, magic.1, magic.2]

/-- A reachable parser that lacks one byte of a header has held the others,
the sync pair first. -/
theorem held_of_lacks_one {parser : NrosStreamParser} {view : ParserView}
    (shows_ : parser.Shows view) (state : parser.state = .waitHeader)
    (last : parser.headerBytesHave + 1 = frameHeaderSize) (byte : UInt8) :
    ∃ bytes, parser.Holding bytes ∧
      bytes ++ [byte] = (parser.nextHeader byte).toBytes ∧
        (parser.nextHeader byte).HasMagic := by
  cases shows_ with
  | hunting hunting _ => exact absurd (hunting.symm.trans state) (by decide)
  | inside holding =>
      refine ⟨_, holding, ?_⟩
      have starts := holding.take_two
      cases holding with
      | payload payload =>
          exact absurd (payload.symm.trans state) (by decide)
      | crc crc => exact absurd (crc.symm.trans state) (by decide)
      | header _ _ started _ consumed =>
          subst consumed
          have five : parser.headerBytesHave = 5 := Nat.succ.inj last
          have held : (parser.headerBuf.take
              parser.headerBytesHave).length = 5 := by
            rw [Buffer.length_take, five]
            rfl
          have bytes : (parser.nextHeader byte).toBytes =
              parser.headerBuf.take parser.headerBytesHave ++ [byte] :=
            NrosFrameHeader.toBytes_ofBytes (by
              rw [List.length_append, held]
              rfl)
          refine ⟨bytes.symm, ?_⟩
          have front : (parser.nextHeader byte).toBytes.take 2 =
              [nrosMagic0, nrosMagic1] := by
            rw [bytes, List.take_append_of_le_length (by omega)]
            exact starts
          simpa [NrosFrameHeader.toBytes, NrosFrameHeader.HasMagic]
            using front

/-- The step of a reachable parser that rejects a header. -/
theorem RejectsHeader.step {parser : NrosStreamParser} {view : ParserView}
    (shows_ : parser.Shows view) {byte : UInt8}
    (rejects : parser.RejectsHeader byte) :
    (parser.nextHeader byte).HasMagic ∧
      (parser.nextHeader byte).toBytes.getLast? = some byte ∧
        (parser.feedByte byte).1.Shows
          (.hunting (decide (byte = nrosMagic0))) := by
  obtain ⟨state, last, overlong⟩ := rejects
  obtain ⟨bytes, holding, whole, magic⟩ :=
    held_of_lacks_one shows_ state last byte
  have after_ := (shows_feedByte (.inside holding) byte).1
  rw [ParserView.read_inside_overlong whole overlong] at after_
  refine ⟨magic, ?_, after_⟩
  rw [← whole]
  simp

/-- The frame without payload that `begun` starts. -/
def shortFrame (begun : List UInt8) : Frame :=
  { header :=
      { NrosFrameHeader.ofBytes begun with
        magic0 := nrosMagic0, magic1 := nrosMagic1, length := 0 }
    payload := [] }

theorem shortFrame_deliverable (begun : List UInt8) :
    (shortFrame begun).Deliverable where
  magic := ⟨rfl, rfl⟩
  counts := rfl
  short := Nat.zero_le _

/-- At most four bytes of a header are the beginning of a whole frame. -/
theorem shortFrame_starts {parser : NrosStreamParser} {begun : List UInt8}
    (holding : parser.Holding begun) (few : begun.length ≤ 4) :
    ∃ rest, begun ++ rest = (shortFrame begun).encoded ∧
      begun.length + rest.length = 8 := by
  have magic := holding.take_two
  have started := holding.two_le_length
  refine ⟨(shortFrame begun).encoded.drop begun.length, ?_, ?_⟩
  · have front : begun =
        (shortFrame begun).encoded.take begun.length := by
      match begun, magic, few, started with
      | [_, _], magic, _, _ =>
          simpa [shortFrame, Frame.encoded, Frame.body,
            NrosFrameHeader.toBytes, NrosFrameHeader.ofBytes] using magic
      | [_, _, _], magic, _, _ =>
          simpa [shortFrame, Frame.encoded, Frame.body,
            NrosFrameHeader.toBytes, NrosFrameHeader.ofBytes] using magic
      | [_, _, _, _], magic, _, _ =>
          simpa [shortFrame, Frame.encoded, Frame.body,
            NrosFrameHeader.toBytes, NrosFrameHeader.ofBytes] using magic
    calc begun ++ (shortFrame begun).encoded.drop begun.length
        = (shortFrame begun).encoded.take begun.length ++
            (shortFrame begun).encoded.drop begun.length := by rw [← front]
      _ = (shortFrame begun).encoded := List.take_append_drop _ _
  · rw [List.length_drop, Frame.length_encoded]
    simp only [shortFrame, frameHeaderSize, nrosCrcLen, List.length_nil]
    omega

/-! ### What is lost -/

/-- Without a second sync pair only the window's last byte matters, and the
parser has kept that. -/
theorem recoversFrom_of_noSyncPair {parser : NrosStreamParser}
    {view : ParserView} (shows_ : parser.Shows view) {byte : UInt8}
    (rejects : parser.RejectsHeader byte)
    (quiet : NoSyncPair ((parser.nextHeader byte).toBytes.drop 1)) :
    parser.RecoversFrom byte := by
  obtain ⟨_, last, actual⟩ := rejects.step shows_
  have lastOfRest :
      ((parser.nextHeader byte).toBytes.drop 1).getLast? = some byte := by
    rw [← last]
    rfl
  constructor
  · intro rest
    have ideal := (shows_after shows_init
      ((parser.nextHeader byte).toBytes.drop 1)).1
    rcases ParserView.after_few ((parser.nextHeader byte).toBytes.drop 1)
        Nat.le.refl with ⟨_, hunting⟩ | ⟨pair, _⟩
    · rw [hunting, lastOfRest] at ideal
      simp only [Option.some.injEq] at ideal
      rw [framesFrom_eq_view actual, huntedAgain, framesFrom_eq_view ideal]
    · exact absurd quiet pair
  · intro outer inner rest call outerSome innerSome split callSplit
    obtain ⟨body, starts⟩ := encoded_starts call.sendable.onWire_deliverable
    rw [← call.bytes_eq_encoded, callSplit] at starts
    obtain ⟨_, outer, rfl⟩ := List.exists_cons_of_ne_nil outerSome
    have rejected : (parser.nextHeader byte).toBytes.drop 1 =
        outer ++ inner := by rw [split]; rfl
    match inner, innerSome with
    | [first], _ =>
        have same : first = byte := by
          rw [rejected, List.getLast?_append] at lastOfRest
          exact Option.some.inj lastOfRest
        have magic : first = nrosMagic0 := (List.cons.inj starts).1
        have armed : decide (byte = nrosMagic0) = true :=
          decide_eq_true (same.symm.trans magic)
        rw [armed] at actual
        cases actual with
        | hunting state window =>
            rw [framesFrom_eq]
            exact (cleanRun_armed state (of_decide_eq_true window.symm)
              call.sendable.onWire_deliverable (by
                rw [← call.bytes_eq_encoded, callSplit]
                rfl)).delivered
    | first :: second :: inner, _ =>
        obtain ⟨rfl, tail⟩ := List.cons.inj starts
        obtain ⟨rfl, _⟩ := List.cons.inj tail
        exact absurd ⟨outer, inner, by rw [rejected]; simp⟩ quiet

/-- With a second sync pair in the rejected header, a frame without payload
that starts there is lost. -/
theorem noSyncPair_of_recoversFrom {parser : NrosStreamParser}
    {view : ParserView} (shows_ : parser.Shows view) {byte : UInt8}
    (rejects : parser.RejectsHeader byte)
    (recovers : parser.RecoversFrom byte) :
    NoSyncPair ((parser.nextHeader byte).toBytes.drop 1) := by
  obtain ⟨magic, _, actual⟩ := rejects.step shows_
  have ideal := (shows_after shows_init
    ((parser.nextHeader byte).toBytes.drop 1)).1
  rcases ParserView.after_few ((parser.nextHeader byte).toBytes.drop 1)
      Nat.le.refl with ⟨quiet, _⟩ | ⟨_, front, begun, split, inside⟩
  · exact quiet
  · rw [inside] at ideal
    cases ideal with
    | inside holding =>
        -- the header's second byte is the false pair's own second byte
        have few : begun.length ≤ 4 := by
          have lengths := congrArg List.length split
          rw [List.length_append] at lengths
          cases front with
          | nil =>
              have starts := holding.take_two
              rw [List.nil_append] at split
              rw [← split] at starts
              simp [NrosFrameHeader.toBytes, magic.2] at starts
              exact absurd starts.1 (by decide)
          | cons first front =>
              rw [List.length_cons, List.length_drop,
                NrosFrameHeader.length_toBytes] at lengths
              omega
        obtain ⟨rest, whole, size⟩ := shortFrame_starts holding few
        have idealFrames :
            (huntedAgain (parser.nextHeader byte)).framesFrom rest =
              [shortFrame begun] := by
          rw [framesFrom_eq]
          exact (cleanRun_of_holding holding (shortFrame_deliverable begun)
            whole).1.delivered
        have actualFrames : (parser.feedByte byte).1.framesFrom rest = [] := by
          rw [framesFrom_eq_view actual]
          apply ParserView.emitted_few
          have started := holding.two_le_length
          simp only [ParserView.held, frameHeaderSize, nrosCrcLen]
          split_ifs <;> omega
        have same := recovers.continues rest
        rw [actualFrames, idealFrames] at same
        exact absurd same.symm (List.cons_ne_nil _ _)

end NrosStreamParser

open NrosStreamParser

/-- At every point of every stream where a header is rejected: the parser
recovers if and only if no sync pair lies in the header after its own. -/
theorem rejection_recovers_iff (before : List (List UInt8)) (byte : UInt8)
    (rejects :
      (feedChunks recordFrame nrosStreamParserInit [] before).1.RejectsHeader
        byte) :
    let parser := (feedChunks recordFrame nrosStreamParserInit [] before).1
    parser.RecoversFrom byte ↔
      NoSyncPair ((parser.nextHeader byte).toBytes.drop 1) := by
  intro parser
  have shows_ := shows_reachable before.flatten
  have reachedBy : parser =
      after feedByte nrosStreamParserInit before.flatten := by
    simp only [parser, feedChunks_recordFrame]
  rw [← reachedBy] at shows_
  exact ⟨noSyncPair_of_recoversFrom shows_ rejects,
    recoversFrom_of_noSyncPair shows_ rejects⟩

/-- A false sync pair whose header ends in the first byte of a true one. -/
theorem rejection_recovers_armed :
    (feedChunks recordFrame nrosStreamParserInit []
      [[0xAA, 0x55, 0x01, 0x02, 0x03]]).1.RecoversFrom 0xAA :=
  (rejection_recovers_iff [[0xAA, 0x55, 0x01, 0x02, 0x03]] 0xAA
    (by decide +kernel)).mpr (by decide +kernel)

/-- A DATA frame without payload for topic 127. -/
def lostCall : EncodeCall where
  header := { NrosFrameHeader.zeroed with type := 2, topicId := 127 }
  payload := []
  outBuf := .filled _ 0
  counts := rfl
  fits := Nat.zero_le nrosMaxPayload

/-- The frame right after a stray sync pair is not delivered. -/
theorem not_rejection_recovers :
    ¬∀ (before : List (List UInt8)) (byte : UInt8),
      (feedChunks recordFrame nrosStreamParserInit [] before).1.RejectsHeader
          byte →
        (feedChunks recordFrame nrosStreamParserInit [] before).1.RecoversFrom
          byte := by
  intro always
  have rest : ∃ rest, lostCall.bytes = [0xAA, 0x55, 0x02, 0x7F] ++ rest ∧
      ((feedChunks recordFrame nrosStreamParserInit []
        [[0xAA, 0x55, 0xAA, 0x55, 0x02]]).1.feedByte 0x7F).1.framesFrom
          rest = [] := by
    refine ⟨lostCall.bytes.drop 4, ?_, ?_⟩
    · rw [lostCall.bytes_eq_encoded]
      decide +kernel
    · rw [lostCall.bytes_eq_encoded]
      decide +kernel
  obtain ⟨rest, split, lost⟩ := rest
  have kept := (always [[0xAA, 0x55, 0xAA, 0x55, 0x02]] 0x7F
    (by decide +kernel)).keeps [0xAA, 0x55] [0xAA, 0x55, 0x02, 0x7F] rest
      lostCall (List.cons_ne_nil _ _) (List.cons_ne_nil _ _)
      (by decide +kernel) split
  exact absurd (lost.symm.trans kept) (List.cons_ne_nil _ _).symm

end NanoRos
