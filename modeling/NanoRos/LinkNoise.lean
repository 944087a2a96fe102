import NanoRos.CrcErrors
import NanoRos.InFlight
import NanoRos.ParserView

/-!
# Noise on a link

Noise changes the bytes that are on a link.  The parser at its end detects it
when no frame comes out that was not there, and when it ends up reading what
it would have been reading.  Damage that the CRC catches is detected.
-/

namespace NanoRos

open Transducer (after emitted)

namespace NrosStreamParser

/-! ## What a parser shows -/

/-- The view of a parser, from its fields. -/
def view (parser : NrosStreamParser) : ParserView :=
  match parser.state with
  | .huntSync => .hunting (decide (parser.headerByte 1 = nrosMagic0))
  | .waitHeader => .inside (parser.headerBuf.take parser.headerBytesHave)
  | .waitPayload =>
      .inside (parser.header.toBytes ++
        parser.payloadBuf.take parser.payloadBytesHave)
  | .waitCrc =>
      .inside (parser.header.toBytes ++
        parser.payloadBuf.take parser.header.length.toNat ++
          parser.crcBuf.take parser.crcBytesHave)

/-- The fields agree with each other: the parser shows its view. -/
def Legible (parser : NrosStreamParser) : Prop := parser.Shows parser.view

theorem Shows.view_eq {parser : NrosStreamParser} {view : ParserView}
    (shows_ : parser.Shows view) : parser.view = view := by
  unfold NrosStreamParser.view
  cases shows_ with
  | hunting state window => rw [state, window]
  | inside holding =>
      cases holding with
      | header state _ _ _ consumed => rw [state, consumed]
      | payload state _ _ _ _ _ consumed _ => rw [state, consumed]
      | crc state _ _ _ _ consumed _ => rw [state, consumed]

theorem Shows.legible {parser : NrosStreamParser} {view : ParserView}
    (shows_ : parser.Shows view) : parser.Legible := by
  rw [Legible, shows_.view_eq]
  exact shows_

theorem legible_init : nrosStreamParserInit.Legible := shows_init.legible

theorem Legible.feed {parser : NrosStreamParser} (legible : parser.Legible)
    (bytes : List UInt8) :
    (after feedByte parser bytes).Legible :=
  (shows_after legible bytes).1.legible

section View

variable {parser other : NrosStreamParser}

/-- The view is all that matters of what comes. -/
theorem Legible.view_after (legible : parser.Legible) (bytes : List UInt8) :
    (after feedByte parser bytes).view =
      after ParserView.read parser.view bytes :=
  (shows_after legible bytes).1.view_eq

theorem Legible.framesOf_eq (legible : parser.Legible) (bytes : List UInt8) :
    parser.framesOf bytes = emitted ParserView.read parser.view bytes :=
  (shows_after legible bytes).2

theorem hunting_iff :
    parser.state = .huntSync ↔ ∃ armed, parser.view = .hunting armed := by
  unfold NrosStreamParser.view
  cases parser.state <;> simp

theorem Legible.clears_iff (legible : parser.Legible) (bytes : List UInt8) :
    parser.Clears bytes ↔
      ∃ armed, after ParserView.read parser.view bytes = .hunting armed := by
  rw [Clears, hunting_iff, legible.view_after]

theorem Legible.completes_iff (legible : parser.Legible)
    (bytes : List UInt8) :
    parser.Completes bytes ↔
      ∀ front rest, bytes = front ++ rest → rest ≠ [] →
        emitted ParserView.read
          (after ParserView.read parser.view front) rest ≠ [] := by
  have same (front rest : List UInt8) :
      (after feedByte parser front).framesOf rest =
        emitted ParserView.read (after ParserView.read parser.view front)
          rest := by
    rw [(legible.feed front).framesOf_eq, legible.view_after]
  simp only [Completes, same]

end View

/-! ## Detection -/

/-- Reading `noisy` in place of `clean`, the parser delivers no frame that was
not there, and ends up where it would have been. -/
structure Detects (parser : NrosStreamParser) (clean noisy : List UInt8) :
    Prop where
  frames : (parser.framesOf noisy).Sublist (parser.framesOf clean)
  rejoins : (after feedByte parser noisy).view =
    (after feedByte parser clean).view

instance (parser : NrosStreamParser) (clean noisy : List UInt8) :
    Decidable (parser.Detects clean noisy) :=
  decidable_of_iff
    ((parser.framesOf noisy).Sublist (parser.framesOf clean) ∧
      (after feedByte parser noisy).view = (after feedByte parser clean).view)
    ⟨fun ⟨frames, rejoins⟩ => ⟨frames, rejoins⟩,
      fun detects => ⟨detects.frames, detects.rejoins⟩⟩

section Detects

variable {parser : NrosStreamParser} {clean noisy : List UInt8}

/-- What is behind the noise is read as before. -/
theorem Detects.behind (detects : parser.Detects clean noisy)
    (legible : parser.Legible) (rest : List UInt8) :
    (parser.framesOf (noisy ++ rest)).Sublist
        (parser.framesOf (clean ++ rest)) ∧
      (parser.Clears (noisy ++ rest) ↔ parser.Clears (clean ++ rest)) := by
  have rejoins := detects.rejoins
  rw [legible.view_after, legible.view_after] at rejoins
  constructor
  · rw [framesOf_append, framesOf_append,
      (legible.feed noisy).framesOf_eq, (legible.feed clean).framesOf_eq,
      detects.rejoins]
    exact detects.frames.append_right _
  · rw [legible.clears_iff, legible.clears_iff, Transducer.after_append,
      Transducer.after_append, rejoins]

theorem Detects.completes (detects : parser.Detects clean noisy)
    (legible : parser.Legible) (rest : List UInt8) :
    (after feedByte parser noisy).Completes rest ↔
      (after feedByte parser clean).Completes rest := by
  rw [(legible.feed noisy).completes_iff, (legible.feed clean).completes_iff,
    detects.rejoins]

end Detects

end NrosStreamParser

/-! ## Damage to one frame -/

namespace ParserView

/-- The bytes of a frame but the last one, read by a parser that holds its
beginning. -/
theorem after_unfinished {frame : Frame} {low : UInt8}
    (counts : frame.payload.length = frame.header.length.toNat)
    (short : frame.header.length.toNat ≤ nrosBufferSize)
    {held rest : List UInt8} (split : held ++ rest = frame.body ++ [low]) :
    after read (.inside held) rest = .inside (held ++ rest) ∧
      emitted read (.inside held) rest = [] := by
  induction rest generalizing held with
  | nil => simp
  | cons byte rest induction =>
      have shifted : (held ++ [byte]) ++ rest = frame.body ++ [low] := by
        rw [← split]
        simp
      -- what is held so far is the header's beginning, or has a rest to come
      have unfinished : (held ++ [byte]).length < frameHeaderSize ∨
          ∃ (header : NrosFrameHeader) (tail : List UInt8),
            held ++ [byte] = header.toBytes ++ tail ∧
              header.length.toNat ≤ nrosBufferSize ∧
              tail.length < header.length.toNat + nrosCrcLen := by
        rw [or_iff_not_imp_left, Nat.not_lt]
        intro whole
        have parts : (held ++ [byte]) ++ rest =
            frame.header.toBytes ++ (frame.payload ++ [low]) := by
          rw [shifted, Frame.body, List.append_assoc]
        have header : frame.header.toBytes <+: held ++ [byte] := by
          apply List.prefix_of_prefix_length_le (parts ▸
            List.prefix_append _ _) (List.prefix_append _ rest)
          rw [NrosFrameHeader.length_toBytes]
          exact whole
        obtain ⟨tail, same⟩ := header
        refine ⟨frame.header, tail, same.symm, short, ?_⟩
        rw [← same, List.append_assoc] at parts
        have lengths := congrArg List.length (List.append_cancel_left parts)
        simp only [List.length_append, counts, List.length_singleton]
          at lengths
        simp only [nrosCrcLen]
        omega
      have step := read_inside_unfinished unfinished
      obtain ⟨holds, silent⟩ := induction shifted
      rw [Transducer.after_cons, Transducer.emitted_cons, step]
      exact ⟨by rw [holds]; simp, by rw [silent]; rfl⟩

/-- A whole frame, read by a hunting parser: it hunts again, and has delivered
the frame if its CRC matches. -/
theorem read_frame (armed : Bool) {frame : Frame}
    (deliverable : frame.Deliverable) (low high : UInt8) :
    after read (.hunting armed) (frame.body ++ [low, high]) =
        .hunting false ∧
      emitted read (.hunting armed) (frame.body ++ [low, high]) =
        (if getU16 low high = crc16Buf frame.body then some frame
          else none).toList := by
  have start : frame.body = [nrosMagic0, nrosMagic1] ++ frame.body.drop 2 := by
    simp [Frame.body, NrosFrameHeader.toBytes, deliverable.magic.1,
      deliverable.magic.2]
  have locks : after read (.hunting armed) [nrosMagic0, nrosMagic1] =
        .inside [nrosMagic0, nrosMagic1] ∧
      emitted read (.hunting armed) [nrosMagic0, nrosMagic1] = [] := by
    cases armed <;> decide
  have split : [nrosMagic0, nrosMagic1] ++ (frame.body.drop 2 ++ [low]) =
      frame.body ++ [low] := by
    rw [← List.append_assoc, ← start]
  obtain ⟨holds, silent⟩ :=
    after_unfinished deliverable.counts deliverable.short split
  have whole : (frame.body ++ [low]) ++ [high] = frame.body ++ [low, high] := by
    simp
  have last :=
    read_inside_last whole deliverable.counts deliverable.short
  rw [split] at holds
  rw [← whole, ← split]
  generalize frame.body.drop 2 ++ [low] = rest at holds silent
  simp only [Transducer.after_append, Transducer.emitted_append, locks, holds,
    silent, Transducer.after_cons, Transducer.emitted_cons, last]
  exact ⟨rfl, List.append_nil _⟩

end ParserView

/-- How the bytes of an encoded frame arrive, if not as they were sent: with
up to three wrong bits, or a burst of up to sixteen that spares the CRC.  Its
sync pair and length are unharmed. -/
inductive Damaged (call : EncodeCall) (received : List UInt8) : Prop
  | fewBits
      (changed : ChangedOnly BesidesSyncAndLength call.bytes received)
      (some_ : 1 ≤ bitErrors call.bytes received)
      (few : bitErrors call.bytes received ≤ 3)
  | burst (changed : ChangedOnly (TypeIdOrPayload call) call.bytes received)
      (hit : received ≠ call.bytes)
      (within : DifferWithin 16 call.bytes received)

/-- The CRC of a damaged frame does not match. -/
theorem Damaged.mismatch {call : EncodeCall} {received : List UInt8}
    (damaged : Damaged call received) :
    ∃ (frame : Frame) (low high : UInt8),
      received = frame.body ++ [low, high] ∧ frame.Deliverable ∧
        getU16 low high ≠ crc16Buf frame.body := by
  cases damaged with
  | burst changed hit within => exact changed.burst_mismatch hit within
  | fewBits changed some_ few =>
      rw [call.bytes_eq_encoded] at changed some_ few
      obtain ⟨frame, low, high, rfl, deliverable, sameLength⟩ :=
        changed.damaged_frame call.sendable.onWire_deliverable
      exact ⟨frame, low, high, rfl, deliverable,
        crc_mismatch_of_few sameLength.symm call.body_fits
          (getU16_lowByte_highByte _) some_ few⟩

/-- An encoded frame and its bytes as they arrive. -/
structure Transmission where
  call : EncodeCall
  received : List UInt8
  arrives : received = call.bytes ∨ Damaged call received

namespace Transmission

def intact (sent : Transmission) : Bool := sent.received = sent.call.bytes

theorem intact_iff {sent : Transmission} :
    sent.intact = true ↔ sent.received = sent.call.bytes :=
  decide_eq_true_iff

theorem damaged {sent : Transmission} (broken : sent.intact = false) :
    Damaged sent.call sent.received :=
  sent.arrives.resolve_left (of_decide_eq_false broken)

/-- The frame that arrives, if it is intact. -/
def frame? (sent : Transmission) : Option Frame :=
  if sent.intact then some sent.call.frame.onWire else none

open ParserView in
/-- A frame is delivered if it arrives intact, and afterwards the parser hunts
in any case. -/
theorem read (sent : Transmission) (armed : Bool) :
    after ParserView.read (.hunting armed) sent.received = .hunting false ∧
      emitted ParserView.read (.hunting armed) sent.received =
        sent.frame?.toList := by
  cases whole : sent.intact with
  | true =>
      have crc := getU16_lowByte_highByte
        (crc16Buf sent.call.frame.onWire.body)
      have frame := read_frame armed sent.call.sendable.onWire_deliverable
        (lowByte (crc16Buf sent.call.frame.onWire.body))
        (highByte (crc16Buf sent.call.frame.onWire.body))
      rw [if_pos crc] at frame
      rw [intact_iff.mp whole, sent.call.bytes_eq_encoded, frame?, if_pos whole]
      exact frame
  | false =>
      obtain ⟨frame, low, high, same, deliverable, mismatch⟩ :=
        (damaged whole).mismatch
      have read := read_frame armed deliverable low high
      rw [if_neg mismatch] at read
      rw [same, frame?, if_neg (by rw [whole]; exact Bool.false_ne_true)]
      exact read

end Transmission

/-- What is sent and what arrives, one frame after the other, looks the same
to a hunting parser, but for the frames that are missing. -/
theorem read_transmissions (armed : Bool) (stream : List Transmission) :
    after ParserView.read (.hunting armed)
        (stream.flatMap Transmission.received) =
      after ParserView.read (.hunting armed)
        (stream.flatMap fun sent => sent.call.bytes) ∧
    (emitted ParserView.read (.hunting armed)
        (stream.flatMap Transmission.received)).Sublist
      (emitted ParserView.read (.hunting armed)
        (stream.flatMap fun sent => sent.call.bytes)) := by
  induction stream generalizing armed with
  | nil => exact ⟨rfl, List.Sublist.refl _⟩
  | cons sent stream induction =>
      obtain ⟨same, fewer⟩ := induction false
      obtain ⟨hunts, delivered⟩ := sent.read armed
      obtain ⟨clean, all⟩ :=
        Transmission.read ⟨sent.call, sent.call.bytes, .inl rfl⟩ armed
      dsimp only at clean all
      simp only [List.flatMap_cons, Transducer.after_append,
        Transducer.emitted_append, hunts, clean, delivered, all]
      refine ⟨same, List.Sublist.append ?_ fewer⟩
      have whole : Transmission.intact ⟨sent.call, sent.call.bytes, .inl rfl⟩ =
          true := Transmission.intact_iff.mpr rfl
      rw [Transmission.frame?, Transmission.frame?, if_pos whole]
      split
      · exact List.Sublist.refl _
      · exact List.nil_sublist _

namespace NrosStreamParser

/-- Damage to frames on a link is detected. -/
theorem detects_damage {parser : NrosStreamParser}
    (legible : parser.Legible) {front : List UInt8}
    (clears : parser.Clears front) (stream : List Transmission)
    (back : List UInt8) :
    parser.Detects
      (front ++ (stream.flatMap fun sent => sent.call.bytes) ++ back)
      (front ++ stream.flatMap Transmission.received ++ back) := by
  obtain ⟨armed, hunting⟩ := (legible.clears_iff front).mp clears
  obtain ⟨same, fewer⟩ := read_transmissions armed stream
  constructor
  · simp only [legible.framesOf_eq, Transducer.emitted_append,
      Transducer.after_append, hunting, same]
    exact (fewer.append_left _).append_right _
  · rw [legible.view_after, legible.view_after]
    simp only [Transducer.after_append, hunting, same]

/-- After a frame, whatever its CRC, the window does not end in the first magic
byte. -/
theorem window_after_frame {parser : NrosStreamParser}
    (legible : parser.Legible) (hunting : parser.state = .huntSync)
    {frame : Frame} (deliverable : frame.Deliverable) (low high : UInt8) :
    (after feedByte parser (frame.body ++ [low, high])).headerByte 1 ≠
      nrosMagic0 := by
  obtain ⟨armed, view⟩ := hunting_iff.mp hunting
  have shows_ := legible.feed (frame.body ++ [low, high])
  rw [Legible, legible.view_after, view,
    (ParserView.read_frame armed deliverable low high).1] at shows_
  cases shows_ with
  | hunting _ window => exact of_decide_eq_false window.symm

end NrosStreamParser

/-! ## Streams with damaged frames -/

/-- Noise, frame, noise, frame, ... and a last stretch of noise, the frames as
they arrive. -/
def damagedStream : List (List UInt8 × Transmission) → List UInt8 → List UInt8
  | [], last => last
  | (noise, sent) :: rest, last =>
      noise ++ sent.received ++ damagedStream rest last

open NrosStreamParser

/-- What a hunting parser makes of one transmission. -/
theorem read_transmission {parser : NrosStreamParser}
    (legible : parser.Legible) (hunting : parser.state = .huntSync)
    (sent : Transmission) :
    (emitted feedByte parser sent.received).map FrameEvent.frame =
        sent.frame?.toList ∧
      (after feedByte parser sent.received).state = .huntSync ∧
      (after feedByte parser sent.received).headerByte 1 ≠ nrosMagic0 ∧
      (after feedByte parser sent.received).crcFailCount =
        parser.crcFailCount + if sent.intact then 0 else 1 := by
  cases whole : sent.intact with
  | true =>
      obtain ⟨run, window⟩ :=
        cleanRun_frame hunting sent.call.sendable.onWire_deliverable
      rw [Transmission.intact_iff.mp whole, sent.call.bytes_eq_encoded,
        Transmission.frame?, if_pos whole]
      refine ⟨run.delivered, run.hunting, ?_, run.counts.2⟩
      rw [window]
      decide
  | false =>
      obtain ⟨frame, low, high, same, deliverable, mismatch⟩ :=
        (Transmission.damaged whole).mismatch
      have run := failedRun_frame hunting deliverable mismatch
      have window := window_after_frame legible hunting deliverable low high
      rw [same, Transmission.frame?,
        if_neg (by rw [whole]; exact Bool.false_ne_true)]
      exact ⟨by rw [run.silent]; rfl, run.hunting, window, run.crcFail⟩

theorem read_damagedStream {parser : NrosStreamParser}
    (segments : List (List UInt8 × Transmission)) (last : List UInt8)
    (legible : parser.Legible) (hunting : parser.state = .huntSync)
    (window : parser.headerByte 1 ≠ nrosMagic0)
    (quiet : ∀ segment ∈ segments, NoSyncPair segment.1)
    (lastQuiet : NoSyncPair last) :
    (emitted feedByte parser (damagedStream segments last)).map
        FrameEvent.frame =
      segments.filterMap (fun segment => segment.2.frame?) ∧
    (after feedByte parser (damagedStream segments last)).crcFailCount =
      parser.crcFailCount +
        (segments.filter fun segment => !segment.2.intact).length := by
  induction segments generalizing parser with
  | nil =>
      have run := cleanRun_noise hunting (lastQuiet.cons window)
      exact ⟨run.delivered, run.counts.2⟩
  | cons segment segments induction =>
      rcases segment with ⟨noise, sent⟩
      have noiseQuiet : NoSyncPair noise := quiet (noise, sent) (by simp)
      have noiseRun := cleanRun_noise hunting (noiseQuiet.cons window)
      obtain ⟨delivered, hunts, notMagic, counted⟩ :=
        read_transmission (legible.feed noise) noiseRun.hunting sent
      obtain ⟨later, failed⟩ := induction
        ((legible.feed noise).feed sent.received) hunts notMagic
        (fun other member => quiet other (by simp [member]))
      rw [noiseRun.counts.2] at counted
      simp only [damagedStream, Transducer.emitted_append,
        Transducer.after_append, List.map_append, noiseRun.delivered,
        delivered, later, failed, counted]
      constructor
      · cases here : sent.frame? <;> simp [here]
      · cases whole : sent.intact
        · simp only [whole, Bool.not_false, List.filter_cons_of_pos,
            List.length_cons, Bool.false_eq_true, if_false]
          omega
        · simp [whole]

/-- Frames that arrive intact come out of a fresh parser as they went in, and
no others, however many are damaged, whatever noise free of sync pairs is
around them and however the stream is cut into chunks; each damaged one is
counted. -/
theorem damaged_frames_dropped
    (segments : List (List UInt8 × Transmission)) (last : List UInt8)
    (quiet : ∀ segment ∈ segments, NoSyncPair segment.1)
    (lastQuiet : NoSyncPair last) (chunks : List (List UInt8))
    (cut : chunks.flatten = damagedStream segments last) :
    (feedChunks recordFrame nrosStreamParserInit [] chunks).2 =
        segments.filterMap (fun segment => segment.2.frame?) ∧
      (feedChunks recordFrame nrosStreamParserInit [] chunks).1.crcFailCount =
        (segments.filter fun segment => !segment.2.intact).length := by
  have window : nrosStreamParserInit.headerByte 1 ≠ nrosMagic0 := by decide
  obtain ⟨delivered, counted⟩ := read_damagedStream segments last legible_init
    (by rfl) window quiet lastQuiet
  rw [feedChunks_recordFrame, cut]
  exact ⟨delivered, counted.trans (Nat.zero_add _)⟩

/-- The frame of the sync pair with one bit of its payload flipped. -/
def flippedPair : Transmission where
  call := syncPairCall
  received := syncPairCall.bytes.set 6 0xAB
  arrives := by
    right
    apply Damaged.fewBits
    · refine ⟨List.length_set, ?_⟩
      intro index untouched
      rw [List.getElem?_set_ne]
      rintro rfl
      exact untouched (by decide)
    · decide +kernel
    · decide +kernel

/-- A damaged frame and an intact one, with a lone magic byte between them. -/
def flippedThenWhole : List (List UInt8 × Transmission) :=
  [([], flippedPair),
    ([0xAA], ⟨syncPairCall, syncPairCall.bytes, .inl rfl⟩)]

theorem damaged_frames_dropped_flippedThenWhole :
    (feedChunks recordFrame nrosStreamParserInit []
        [damagedStream flippedThenWhole [0x55]]).2 =
        flippedThenWhole.filterMap (fun segment => segment.2.frame?) ∧
      flippedThenWhole.filterMap (fun segment => segment.2.frame?) =
        [syncPairCall.frame.onWire] :=
  ⟨(damaged_frames_dropped flippedThenWhole [0x55] (by decide) (by decide)
    [damagedStream flippedThenWhole [0x55]] (by simp)).1, by decide +kernel⟩

end NanoRos
