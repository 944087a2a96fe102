import NanoRos.ParserView
import NanoRos.StreamRoundTrip

/-!
# Memory bounds of the parser

Every write the feed loop makes to one of its three arrays is listed, with the
index the source uses.  The lists account for all that changes in the arrays,
and a trace of them shows that every index is inside its array and that a
delivered payload was written cell by cell during its own frame.
-/

namespace NanoRos

open Transducer (after emitted)

/-- The arrays of `nros_stream_parser_t`. -/
inductive ParserArray where
  | headerBuf
  | payloadBuf
  | crcBuf
  deriving DecidableEq, Repr

def ParserArray.size : ParserArray → Nat
  | .headerBuf => frameHeaderSize
  | .payloadBuf => nrosBufferSize
  | .crcBuf => 2

/-- One byte written to one of the arrays. -/
structure ArrayWrite where
  array : ParserArray
  index : Nat
  value : UInt8
  deriving DecidableEq, Repr

/-- Consecutive bytes written from the start of an array on. -/
def storesFrom (array : ParserArray) (bytes : List UInt8) :
    List ArrayWrite :=
  bytes.zipIdx.map fun cell => { array, index := cell.2, value := cell.1 }

namespace NrosStreamParser

def applyWrite (parser : NrosStreamParser) (write : ArrayWrite) :
    NrosStreamParser :=
  match write.array with
  | .headerBuf =>
      { parser with
        headerBuf := parser.headerBuf.store write.index write.value }
  | .payloadBuf =>
      { parser with
        payloadBuf := parser.payloadBuf.store write.index write.value }
  | .crcBuf =>
      { parser with crcBuf := parser.crcBuf.store write.index write.value }

/-- The writes of `WAIT_HEADER`'s overlong-length branch: the `memmove`, then
the two window bytes. -/
def rejectWrites (headerBuf : Buffer UInt8 frameHeaderSize) (byte : UInt8) :
    List ArrayWrite :=
  let tail := headerBuf.slice 1 (frameHeaderSize - 1)
  let moved := headerBuf.copy 0 tail
  storesFrom .headerBuf tail ++
    [{ array := .headerBuf, index := 0
       value := (moved.load? (frameHeaderSize - 2)).getD 0 },
      { array := .headerBuf, index := 1, value := byte }]

/-- The array writes of one iteration of the feed loop, in order. -/
def writes (parser : NrosStreamParser) (byte : UInt8) : List ArrayWrite :=
  match parser.state with
  | .huntSync =>
      [{ array := .headerBuf, index := 0, value := parser.headerByte 1 },
        { array := .headerBuf, index := 1, value := byte }]
  | .waitHeader =>
      let headerBuf := parser.headerBuf.store parser.headerBytesHave byte
      let header := NrosFrameHeader.ofBytes (headerBuf.take frameHeaderSize)
      { array := .headerBuf, index := parser.headerBytesHave, value := byte } ::
        if parser.headerBytesHave + 1 < frameHeaderSize then []
        else if header.length.toNat > nrosBufferSize then
          rejectWrites headerBuf byte
        else []
  | .waitPayload =>
      [{ array := .payloadBuf, index := parser.payloadBytesHave
         value := byte }]
  | .waitCrc =>
      [{ array := .crcBuf, index := parser.crcBytesHave, value := byte }]

/-- A run of stores from the start of an array on is a copy. -/
theorem applyWrite_storesFrom (parser : NrosStreamParser)
    (bytes : List UInt8) (inside : bytes.length ≤ frameHeaderSize) :
    (storesFrom .headerBuf bytes).foldl applyWrite parser =
      { parser with headerBuf := parser.headerBuf.copy 0 bytes } := by
  rw [← Buffer.foldl_store _ 0 bytes (by omega), storesFrom, List.foldl_map]
  generalize bytes.zipIdx = cells
  induction cells generalizing parser with
  | nil => rfl
  | cons cell cells induction => exact induction _

/-- The two parsers hold the same bytes in their arrays. -/
def SameArrays (left right : NrosStreamParser) : Prop :=
  left.headerBuf = right.headerBuf ∧ left.payloadBuf = right.payloadBuf ∧
    left.crcBuf = right.crcBuf

/-- The listed writes are all that happens to the arrays. -/
theorem feedByte_arrays (parser : NrosStreamParser) (byte : UInt8) :
    (parser.feedByte byte).1.SameArrays
      ((parser.writes byte).foldl applyWrite parser) := by
  cases state : parser.state with
  | huntSync =>
      simp only [feedByte, writes, state, huntSync]
      split_ifs <;> exact ⟨rfl, rfl, rfl⟩
  | waitHeader =>
      simp only [feedByte, writes, state, waitHeader]
      by_cases more : parser.headerBytesHave + 1 < frameHeaderSize
      · simp only [more, if_true]
        exact ⟨rfl, rfl, rfl⟩
      · simp only [more, if_false]
        split_ifs with overlong
        · rw [List.foldl_cons, rejectWrites, List.foldl_append,
            applyWrite_storesFrom]
          · exact ⟨rfl, rfl, rfl⟩
          · simp only [Buffer.slice, List.length_take]
            omega
        · exact ⟨rfl, rfl, rfl⟩
  | waitPayload =>
      simp only [feedByte, writes, state, waitPayload]
      split_ifs <;> exact ⟨rfl, rfl, rfl⟩
  | waitCrc =>
      simp only [feedByte, writes, state, waitCrc]
      split_ifs <;> exact ⟨rfl, rfl, rfl⟩

/-- A reachable parser writes inside its arrays. -/
theorem writes_inside {parser : NrosStreamParser} {view : ParserView}
    (shows_ : parser.Shows view) (byte : UInt8) :
    ∀ write ∈ parser.writes byte, write.index < write.array.size := by
  intro write member
  cases shows_ with
  | hunting state _ =>
      simp only [writes, state, List.mem_cons, List.not_mem_nil, or_false]
        at member
      rcases member with rfl | rfl
      · exact (by decide : 0 < frameHeaderSize)
      · exact (by decide : 1 < frameHeaderSize)
  | inside holding =>
      cases holding with
      | header state _ _ unfinished _ =>
          simp only [writes, state, List.mem_cons] at member
          rcases member with rfl | later
          · exact unfinished
          · split_ifs at later
            · exact absurd later List.not_mem_nil
            · simp only [rejectWrites, storesFrom, List.mem_append,
                List.mem_map, List.mem_cons, List.not_mem_nil, or_false]
                at later
              rcases later with ⟨cell, moved, rfl⟩ | rfl | rfl
              · have bound := List.snd_lt_of_mem_zipIdx moved
                simp only [Buffer.slice, List.length_take] at bound
                show cell.2 < frameHeaderSize
                omega
              · exact (by decide : 0 < frameHeaderSize)
              · exact (by decide : 1 < frameHeaderSize)
            · exact absurd later List.not_mem_nil
      | payload state _ _ short unfinished _ _ _ =>
          simp only [writes, state, List.mem_singleton] at member
          subst member
          exact Nat.lt_of_lt_of_le unfinished short
      | crc state _ _ _ unfinished _ _ =>
          simp only [writes, state, List.mem_singleton] at member
          subst member
          exact unfinished

end NrosStreamParser

/-! ## Trace -/

open NrosStreamParser

/-- A parser with the writes made since its last byte in the hunt. -/
structure TracedParser where
  parser : NrosStreamParser
  frameWrites : List ArrayWrite

/-- One byte read: the parser around it, its writes, and the callback with
all writes of its frame. -/
structure TracedByte where
  before : NrosStreamParser
  next : NrosStreamParser
  writes : List ArrayWrite
  called : Option (FrameEvent × List ArrayWrite)

namespace TracedParser

def init : TracedParser :=
  { parser := nrosStreamParserInit, frameWrites := [] }

def feedByte (traced : TracedParser) (byte : UInt8) :
    TracedParser × Option TracedByte :=
  let writes := traced.parser.writes byte
  let (next, event) := traced.parser.feedByte byte
  let frameWrites :=
    if traced.parser.state = .huntSync then []
    else traced.frameWrites ++ writes
  ({ parser := next, frameWrites },
    some
      { before := traced.parser
        next
        writes
        called := event.map fun event => (event, frameWrites) })

end TracedParser

/-- The bytes of payload among some writes, as they were written. -/
def payloadWrites (writes : List ArrayWrite) : List ArrayWrite :=
  writes.filter (·.array = .payloadBuf)

@[simp] theorem payloadWrites_append (earlier later : List ArrayWrite) :
    payloadWrites (earlier ++ later) =
      payloadWrites earlier ++ payloadWrites later := by
  simp [payloadWrites]

theorem storesFrom_concat (array : ParserArray) (bytes : List UInt8)
    (byte : UInt8) :
    storesFrom array (bytes ++ [byte]) =
      storesFrom array bytes ++
        [{ array, index := bytes.length, value := byte }] := by
  simp [storesFrom, List.zipIdx_append]

theorem payloadWrites_storesFrom_header (bytes : List UInt8) :
    payloadWrites (storesFrom .headerBuf bytes) = [] := by
  apply List.filter_eq_nil_iff.mpr
  intro write member
  obtain ⟨cell, _, rfl⟩ := List.mem_map.mp member
  simp

namespace NrosStreamParser

/-- Only `WAIT_PAYLOAD` writes to the payload buffer. -/
theorem payloadWrites_writes (parser : NrosStreamParser) (byte : UInt8) :
    payloadWrites (parser.writes byte) =
      if parser.state = .waitPayload then
        [{ array := .payloadBuf, index := parser.payloadBytesHave
           value := byte }]
      else [] := by
  cases state : parser.state with
  | huntSync => simp [writes, state, payloadWrites]
  | waitHeader =>
      have reject (headerBuf : Buffer UInt8 frameHeaderSize) :
          payloadWrites (rejectWrites headerBuf byte) = [] := by
        rw [rejectWrites, payloadWrites_append,
          payloadWrites_storesFrom_header]
        rfl
      simp only [writes, state, reduceCtorEq, if_false]
      split_ifs with more overlong
      · rfl
      · exact reject _
      · rfl
  | waitPayload => simp [writes, state, payloadWrites]
  | waitCrc => simp [writes, state, payloadWrites]

end NrosStreamParser

/-- What the log shows of the frame being read: each payload byte taken so
far was stored in its own cell, in order, and no other was. -/
inductive TracedParser.FrameLog (traced : TracedParser) : Prop
  | hunting (state : traced.parser.state = .huntSync)
  | header (state : traced.parser.state = .waitHeader)
      (stored : payloadWrites traced.frameWrites = [])
  | payload (state : traced.parser.state = .waitPayload)
      (stored : payloadWrites traced.frameWrites = storesFrom .payloadBuf
        (traced.parser.payloadBuf.take traced.parser.payloadBytesHave))
  | crc (state : traced.parser.state = .waitCrc)
      (stored : payloadWrites traced.frameWrites = storesFrom .payloadBuf
        (traced.parser.payloadBuf.take traced.parser.header.length.toNat))

/-- The listed writes are all there were and stay inside their arrays; a
callback is given a length that passed the check, and the payload it may read
is what was stored since the sync pair. -/
structure TracedByte.InBounds (traced : TracedByte) : Prop where
  complete :
    traced.next.SameArrays
      (traced.writes.foldl NrosStreamParser.applyWrite traced.before)
  inside : ∀ write ∈ traced.writes, write.index < write.array.size
  called : ∀ event frameWrites, traced.called = some (event, frameWrites) →
    event.header.length.toNat ≤ nrosBufferSize ∧
      (payloadWrites frameWrites).length = event.header.length.toNat ∧
        payloadWrites frameWrites =
          storesFrom .payloadBuf event.frame.payload

namespace NrosStreamParser

theorem Shows.payload_bounds {parser : NrosStreamParser} {view : ParserView}
    (shows_ : parser.Shows view) (state : parser.state = .waitPayload) :
    parser.payloadBytesHave < parser.header.length.toNat ∧
      parser.header.length.toNat ≤ nrosBufferSize := by
  cases shows_ with
  | hunting other _ => exact absurd (other.symm.trans state) (by decide)
  | inside holding =>
      cases holding with
      | header other => exact absurd (other.symm.trans state) (by decide)
      | payload _ _ _ short unfinished => exact ⟨unfinished, short⟩
      | crc other => exact absurd (other.symm.trans state) (by decide)

theorem Shows.crc_bounds {parser : NrosStreamParser} {view : ParserView}
    (shows_ : parser.Shows view) (state : parser.state = .waitCrc) :
    parser.header.length.toNat ≤ nrosBufferSize := by
  cases shows_ with
  | hunting other _ => exact absurd (other.symm.trans state) (by decide)
  | inside holding =>
      cases holding with
      | header other => exact absurd (other.symm.trans state) (by decide)
      | payload other => exact absurd (other.symm.trans state) (by decide)
      | crc _ _ _ short => exact short

/-- The callback fires in `WAIT_CRC`, with the parser's own header and
payload buffer. -/
theorem feedByte_event {parser : NrosStreamParser} {byte : UInt8}
    {event : FrameEvent} (fires : (parser.feedByte byte).2 = some event) :
    parser.state = .waitCrc ∧
      event = { header := parser.header, payloadBuf := parser.payloadBuf } := by
  cases state : parser.state with
  | huntSync => simp [feedByte, state] at fires
  | waitHeader => simp [feedByte, state] at fires
  | waitPayload => simp [feedByte, state] at fires
  | waitCrc =>
      simp only [feedByte, state, waitCrc] at fires
      split_ifs at fires
      exact ⟨rfl, (Option.some.inj fires).symm⟩

end NrosStreamParser

namespace TracedParser

theorem feedByte_log {traced : TracedParser} {view : ParserView}
    (shows_ : traced.parser.Shows view) (log : traced.FrameLog)
    (byte : UInt8) : (traced.feedByte byte).1.FrameLog := by
  rcases traced with ⟨parser, frameWrites⟩
  have written := parser.payloadWrites_writes byte
  cases log with
  | hunting state =>
      simp only at state
      simp only [feedByte, NrosStreamParser.feedByte, state, if_true,
        NrosStreamParser.huntSync]
      split_ifs with locks
      · exact .header rfl rfl
      · exact .hunting rfl
  | header state stored =>
      simp only at state stored
      rw [if_neg (by rw [state]; decide)] at written
      have still : payloadWrites (frameWrites ++ parser.writes byte) = [] := by
        rw [payloadWrites_append, stored, written]
        rfl
      simp only [feedByte, NrosStreamParser.feedByte, state, reduceCtorEq,
        if_false, NrosStreamParser.waitHeader]
      split_ifs with more overlong
      · exact .header rfl still
      · exact .hunting rfl
      · by_cases empty : (NrosFrameHeader.ofBytes
            ((parser.headerBuf.store parser.headerBytesHave byte).take
              frameHeaderSize)).length = 0
        · refine .crc (if_pos empty) ?_
          simp [NrosStreamParser.acceptHeader, empty, still, storesFrom]
        · refine .payload (if_neg empty) ?_
          simp [NrosStreamParser.acceptHeader, still, storesFrom]
  | payload state stored =>
      simp only at state stored
      obtain ⟨unfinished, short⟩ := shows_.payload_bounds state
      simp only at unfinished short
      rw [if_pos state] at written
      have extended : payloadWrites (frameWrites ++ parser.writes byte) =
          storesFrom .payloadBuf
            ((parser.payloadBuf.store parser.payloadBytesHave byte).take
              (parser.payloadBytesHave + 1)) := by
        rw [payloadWrites_append, stored, written, Buffer.take_succ_store _
          (Nat.lt_of_lt_of_le unfinished short), storesFrom_concat,
          Buffer.length_take, Nat.min_eq_left (by omega)]
      simp only [feedByte, NrosStreamParser.feedByte, state, reduceCtorEq,
        if_false, NrosStreamParser.waitPayload]
      split_ifs with more
      · exact .payload rfl extended
      · have complete : parser.payloadBytesHave + 1 =
            parser.header.length.toNat := by omega
        rw [complete] at extended
        exact .crc rfl extended
  | crc state stored =>
      simp only at state stored
      rw [if_neg (by rw [state]; decide)] at written
      simp only [feedByte, NrosStreamParser.feedByte, state, reduceCtorEq,
        if_false, NrosStreamParser.waitCrc]
      split_ifs with more mismatch
      · refine .crc rfl ?_
        rw [payloadWrites_append, stored, written, List.append_nil]
      · exact .hunting rfl
      · exact .hunting rfl

/-- One byte: its writes are inside their arrays, and a callback is given
what was stored for it. -/
theorem feedByte_inBounds {traced : TracedParser} {view : ParserView}
    (shows_ : traced.parser.Shows view) (log : traced.FrameLog)
    (byte : UInt8) :
    ∀ output ∈ (traced.feedByte byte).2, output.InBounds := by
  rcases traced with ⟨parser, logged⟩
  rintro output ⟨⟩
  refine ⟨parser.feedByte_arrays byte,
    NrosStreamParser.writes_inside shows_ byte, ?_⟩
  intro event frameWrites called
  obtain ⟨fired, fires, pair⟩ := Option.map_eq_some_iff.mp called
  obtain ⟨rfl, rfl⟩ := Prod.mk.inj pair
  obtain ⟨state, rfl⟩ := NrosStreamParser.feedByte_event fires
  have short := shows_.crc_bounds state
  cases log with
  | hunting other => exact absurd (other.symm.trans state) (by decide)
  | header other => exact absurd (other.symm.trans state) (by decide)
  | payload other => exact absurd (other.symm.trans state) (by decide)
  | crc _ stored =>
      simp only at state stored short
      have written := parser.payloadWrites_writes byte
      rw [if_neg (by rw [state]; decide)] at written
      have kept : payloadWrites (logged ++ parser.writes byte) =
          storesFrom .payloadBuf
            (parser.payloadBuf.take parser.header.length.toNat) := by
        rw [payloadWrites_append, stored, written, List.append_nil]
      refine ⟨short, ?_, ?_⟩
      · simp only [state, reduceCtorEq, if_false, kept, storesFrom,
          List.length_map, List.length_zipIdx, Buffer.length_take]
        exact Nat.min_eq_left short
      · simp only [state, reduceCtorEq, if_false, kept, FrameEvent.frame]

/-- The callbacks of the trace are those of the parser. -/
theorem emitted_called (traced : TracedParser) (bytes : List UInt8) :
    (emitted feedByte traced bytes).filterMap
        (fun output => output.called.map Prod.fst) =
      emitted NrosStreamParser.feedByte traced.parser bytes := by
  induction bytes generalizing traced with
  | nil => rfl
  | cons byte bytes induction =>
      rw [Transducer.emitted_cons, Transducer.emitted_cons,
        List.filterMap_append, induction]
      congr 1
      simp only [feedByte, Option.toList_some, List.filterMap_cons,
        List.filterMap_nil, Option.map_map]
      rcases traced.parser.feedByte byte with ⟨next, event⟩
      cases event <;> rfl

end TracedParser

/-- What holds of the trace of every stream. -/
def Bounded (_ : List UInt8) (outputs : List TracedByte)
    (traced : TracedParser) : Prop :=
  (∃ view, traced.parser.Shows view) ∧ traced.FrameLog ∧
    ∀ output ∈ outputs, output.InBounds

theorem bounded_init : Bounded [] [] TracedParser.init :=
  ⟨⟨_, shows_init⟩, .hunting rfl, fun _ member =>
    absurd member List.not_mem_nil⟩

theorem bounded_step (bytes : List UInt8) (outputs : List TracedByte)
    (traced : TracedParser) (byte : UInt8)
    (bounded : Bounded bytes outputs traced) :
    Bounded (bytes ++ [byte]) (outputs ++ (traced.feedByte byte).2.toList)
      (traced.feedByte byte).1 := by
  obtain ⟨⟨view, shows_⟩, log, inside⟩ := bounded
  refine ⟨⟨_, (shows_feedByte shows_ byte).1⟩,
    TracedParser.feedByte_log shows_ log byte, ?_⟩
  intro output member
  rcases List.mem_append.mp member with earlier | now
  · exact inside output earlier
  · exact TracedParser.feedByte_inBounds shows_ log byte output
      (Option.mem_toList.mp now)

/-- Whatever bytes a fresh parser is fed, in whatever chunks: every write is
inside its array, and every callback is given a length of at most the buffer
size that counts the payload bytes stored, one a cell, since its sync pair. -/
theorem parser_inBounds (chunks : List (List UInt8)) :
    let trace := emitted TracedParser.feedByte .init chunks.flatten
    (∀ output ∈ trace, output.InBounds) ∧
      (feedChunks recordFrame nrosStreamParserInit [] chunks).2 =
        (trace.filterMap fun output =>
          output.called.map Prod.fst).map FrameEvent.frame := by
  intro trace
  have bounded := Transducer.run_invariant TracedParser.feedByte Bounded
    bounded_init bounded_step chunks.flatten
  refine ⟨bounded.2.2, ?_⟩
  rw [feedChunks_recordFrame, TracedParser.emitted_called]
  rfl

end NanoRos
