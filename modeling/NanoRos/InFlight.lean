import NanoRos.SerialFrames

/-!
# Frames in flight

What is under way on a link is bytes.  Here they are seen as the frames that
the parser at the end of the link will deliver.
-/

namespace NanoRos

open Transducer (after emitted)

namespace NrosStreamParser

/-- The frames the parser delivers while it reads `bytes`. -/
def framesOf (parser : NrosStreamParser) (bytes : List UInt8) : List Frame :=
  (emitted feedByte parser bytes).map FrameEvent.frame

/-- The parser is hunting again after `bytes`. -/
def Clears (parser : NrosStreamParser) (bytes : List UInt8) : Prop :=
  (after feedByte parser bytes).state = .huntSync

instance (parser : NrosStreamParser) (bytes : List UInt8) :
    Decidable (parser.Clears bytes) :=
  inferInstanceAs (Decidable (_ = _))

theorem framesOf_cons (parser : NrosStreamParser) (byte : UInt8)
    (rest : List UInt8) :
    parser.framesOf (byte :: rest) =
      ((parser.feedByte byte).2.map FrameEvent.frame).toList ++
        (parser.feedByte byte).1.framesOf rest := by
  rw [framesOf, Transducer.emitted_cons, List.map_append]
  cases (parser.feedByte byte).2 <;> rfl

theorem framesOf_append (parser : NrosStreamParser)
    (left right : List UInt8) :
    parser.framesOf (left ++ right) = parser.framesOf left ++
      (after feedByte parser left).framesOf right := by
  rw [framesOf, Transducer.emitted_append, List.map_append]
  rfl

/-- A frame put on the link behind others. -/
theorem Clears.append_frame {parser : NrosStreamParser}
    {bytes : List UInt8} (clears : parser.Clears bytes) {frame : Frame}
    (deliverable : frame.Deliverable) :
    parser.Clears (bytes ++ frame.encoded) ∧
      parser.framesOf (bytes ++ frame.encoded) =
        parser.framesOf bytes ++ [frame] := by
  have run := (cleanRun_frame clears deliverable).1
  constructor
  · rw [Clears, Transducer.after_append]
    exact run.hunting
  · rw [framesOf_append]
    exact congrArg (parser.framesOf bytes ++ ·) run.delivered

/-- The bytes complete a frame, and no beginning of them does. -/
def Completes (parser : NrosStreamParser) (bytes : List UInt8) : Prop :=
  ∀ front rest, bytes = front ++ rest → rest ≠ [] →
    (after feedByte parser front).framesOf rest ≠ []

theorem completes_nil (parser : NrosStreamParser) : parser.Completes [] := by
  intro front rest split more
  exact absurd (List.append_eq_nil_iff.mp split.symm).2 more

theorem Completes.advance {parser : NrosStreamParser}
    {front rest : List UInt8} (completes : parser.Completes (front ++ rest)) :
    (after feedByte parser front).Completes rest := by
  intro middle back split more
  rw [← Transducer.after_append]
  apply completes _ _ _ more
  rw [split, List.append_assoc]

theorem completes_frame {parser : NrosStreamParser}
    (hunting : parser.state = .huntSync) {frame : Frame}
    (deliverable : frame.Deliverable) : parser.Completes frame.encoded := by
  intro front rest split more
  have silent := emitted_frame_prefix hunting deliverable split.symm more
  have whole := (cleanRun_frame hunting deliverable).1.delivered
  rw [split, Transducer.emitted_append, silent, List.nil_append] at whole
  rw [framesOf, whole]
  exact List.cons_ne_nil frame []

end NrosStreamParser

/-! ## The agent's end -/

/-- What a read takes from the link. -/
def ReadOutcome.bytes : ReadOutcome → List UInt8
  | .data chunk => chunk
  | .closed | .wouldBlock _ _ | .interrupted | .failed => []

namespace SerialTransport

open NrosStreamParser

/-- The frames that `recv_frame` will return, `bytes` being on the link. -/
def pending (transport : SerialTransport) (bytes : List UInt8) : List Frame :=
  transport.completedFrames ++ transport.parser.framesOf bytes

theorem parser_feed (transport : SerialTransport) (chunk : List UInt8) :
    (transport.feed chunk).parser = after feedByte transport.parser chunk := by
  simp only [feed, nrosStreamParserFeed, Transducer.runWith_eq]

theorem completedFrames_feed (transport : SerialTransport)
    (chunk : List UInt8) :
    (transport.feed chunk).completedFrames =
      transport.completedFrames ++ transport.parser.framesOf chunk := by
  simp only [feed, nrosStreamParserFeed, Transducer.runWith_eq,
    foldl_recordFrame]
  rfl

theorem pending_feed (transport : SerialTransport)
    (chunk bytes : List UInt8) :
    (transport.feed chunk).pending bytes =
      transport.pending (chunk ++ bytes) := by
  rw [pending, pending, completedFrames_feed, parser_feed, framesOf_append,
    List.append_assoc]

theorem waitFd_transport (transport : SerialTransport) (poll : PollOutcome) :
    ∃ connected,
      (transport.waitFd poll).2 = { transport with connected } := by
  induction poll with
  | interrupted again induction => exact induction
  | failed => exact ⟨transport.connected, rfl⟩
  | timedOut => exact ⟨transport.connected, rfl⟩
  | ready portError requested =>
      cases portError with
      | true => exact ⟨false, rfl⟩
      | false => exact ⟨transport.connected, rfl⟩

/-! ## One call of `recv_frame` -/

/-- What `recv_frame` makes of one outcome while no frame is complete. -/
inductive Round where
  | goesOn (transport : SerialTransport)
  | ends (transport : SerialTransport)

def recvRound (timeout : Int) (transport : SerialTransport) :
    ReadOutcome → Round
  | .data chunk => .goesOn (transport.feed chunk)
  | .interrupted => .goesOn transport
  | .wouldBlock elapsed poll =>
      if 0 ≤ timeout ∧ timeout - elapsed ≤ 0 then .ends transport
      else if (transport.waitFd poll).1 then
        .goesOn (transport.waitFd poll).2
      else .ends (transport.waitFd poll).2
  | .closed | .failed => .ends { transport with connected := false }

/-- The transport after a round. -/
def Round.transport : Round → SerialTransport
  | .goesOn transport => transport
  | .ends transport => transport

theorem recvFrame_of_completed {timeout : Int}
    {transport other : SerialTransport} {frame : Frame}
    (popped : transport.popCompleted = some (frame, other))
    (outcomes : List ReadOutcome) :
    recvFrame timeout transport outcomes =
      some { frame := some frame, transport := other, unread := outcomes } := by
  unfold recvFrame
  simp only [popped]

theorem recvFrame_cons {timeout : Int} {transport : SerialTransport}
    (popped : transport.popCompleted = none) (outcome : ReadOutcome)
    (rest : List ReadOutcome) :
    recvFrame timeout transport (outcome :: rest) =
      match recvRound timeout transport outcome with
      | .goesOn transport => recvFrame timeout transport rest
      | .ends transport => some { frame := none, transport, unread := rest } := by
  cases outcome with
  | wouldBlock elapsed poll =>
      rw [recvFrame, recvRound]
      simp only [popped]
      by_cases late : 0 ≤ timeout ∧ timeout - elapsed ≤ 0
      · rw [if_pos late, if_pos late]
      · rw [if_neg late, if_neg late]
        by_cases ready : (transport.waitFd poll).1 = true
        · rw [if_pos ready, if_pos ready]
        · rw [if_neg ready, if_neg ready]
  | _ =>
      rw [recvFrame]
      simp only [popped]
      rfl

/-- A call that returns has a frame to take, or goes on after its first round,
or ends with it. -/
@[elab_as_elim]
theorem recvFrame_induction {timeout : Int}
    {motive : (transport : SerialTransport) → (outcomes : List ReadOutcome) →
      (result : RecvResult) →
        recvFrame timeout transport outcomes = some result → Prop}
    (completed : ∀ {transport other frame}
      (popped : transport.popCompleted = some (frame, other)) outcomes,
        motive transport outcomes
          { frame := some frame, transport := other, unread := outcomes }
          (recvFrame_of_completed popped outcomes))
    (goesOn : ∀ {transport outcome other rest result}
      (popped : transport.popCompleted = none)
      (round : recvRound timeout transport outcome = .goesOn other)
      (later : recvFrame timeout other rest = some result),
        motive other rest result later →
          motive transport (outcome :: rest) result
            (by rw [recvFrame_cons popped, round]; exact later))
    (ends : ∀ {transport outcome other} (popped : transport.popCompleted = none)
      (round : recvRound timeout transport outcome = .ends other) rest,
        motive transport (outcome :: rest)
          { frame := none, transport := other, unread := rest }
          (by rw [recvFrame_cons popped, round]))
    {transport : SerialTransport} {outcomes : List ReadOutcome}
    {result : RecvResult}
    (returned : recvFrame timeout transport outcomes = some result) :
    motive transport outcomes result returned := by
  induction outcomes generalizing transport with
  | nil =>
      cases popped : transport.popCompleted with
      | none =>
          unfold recvFrame at returned
          simp only [popped] at returned
          cases returned
      | some pair =>
          obtain rfl := Option.some.inj
            ((recvFrame_of_completed popped []).symm.trans returned)
          exact completed popped []
  | cons outcome rest induction =>
      cases popped : transport.popCompleted with
      | some pair =>
          obtain rfl := Option.some.inj
            ((recvFrame_of_completed popped _).symm.trans returned)
          exact completed popped _
      | none =>
          have unrolled := returned
          rw [recvFrame_cons popped] at unrolled
          cases round : recvRound timeout transport outcome with
          | goesOn other =>
              rw [round] at unrolled
              exact goesOn popped round unrolled (induction unrolled)
          | ends other =>
              rw [round] at unrolled
              obtain rfl := Option.some.inj unrolled
              exact ends popped round rest

/-- What one call of `recv_frame` does to what is in flight: it takes the
first frame or none, and leaves the rest for later calls. -/
structure Receives (transport : SerialTransport) (bytes : List UInt8)
    (result : RecvResult) (left : List UInt8) : Prop where
  pending : transport.pending bytes =
    result.frame.toList ++ result.transport.pending left
  parser : after feedByte result.transport.parser left =
    after feedByte transport.parser bytes

theorem Receives.of_completed {transport other : SerialTransport}
    {frame : WireFrame} (popped : transport.popCompleted = some (frame, other))
    (bytes : List UInt8) (unread : List ReadOutcome) :
    Receives transport bytes
      { frame := some frame, transport := other, unread } bytes := by
  unfold popCompleted at popped
  cases completed : transport.completedFrames with
  | nil =>
      rw [completed] at popped
      cases popped
  | cons front rest =>
      rw [completed] at popped
      cases popped
      have front : transport.pending bytes = frame ::
          { transport with completedFrames := rest }.pending bytes := by
        rw [SerialTransport.pending, completed]
        rfl
      exact ⟨front, rfl⟩

/-- A round only moves what it reads into the transport. -/
theorem pending_recvRound (timeout : Int) (transport : SerialTransport)
    (outcome : ReadOutcome) (bytes : List UInt8) :
    (recvRound timeout transport outcome).transport.pending bytes =
        transport.pending (outcome.bytes ++ bytes) ∧
      after feedByte (recvRound timeout transport outcome).transport.parser
          bytes =
        after feedByte transport.parser (outcome.bytes ++ bytes) := by
  cases outcome with
  | data chunk =>
      constructor
      · exact pending_feed transport chunk bytes
      · rw [recvRound, Round.transport, parser_feed, Transducer.after_append]
        rfl
  | wouldBlock elapsed poll =>
      obtain ⟨connected, same⟩ := waitFd_transport transport poll
      rw [recvRound]
      split
      · exact ⟨rfl, rfl⟩
      · rw [same]
        split <;> exact ⟨rfl, rfl⟩
  | _ => exact ⟨rfl, rfl⟩

theorem recvFrame_receives {timeout : Int} {transport : SerialTransport}
    {outcomes : List ReadOutcome} {result : RecvResult}
    (returned : recvFrame timeout transport outcomes = some result)
    (behind : List UInt8) :
    Receives transport (outcomes.flatMap ReadOutcome.bytes ++ behind) result
      (result.unread.flatMap ReadOutcome.bytes ++ behind) := by
  induction returned using recvFrame_induction with
  | completed popped outcomes => exact .of_completed popped _ _
  | @goesOn transport outcome other rest result popped round later induction =>
      have moved := pending_recvRound timeout transport outcome
        (rest.flatMap ReadOutcome.bytes ++ behind)
      rw [round] at moved
      rw [List.flatMap_cons, List.append_assoc]
      exact ⟨moved.1.symm.trans induction.pending,
        induction.parser.trans moved.2⟩
  | @ends transport outcome other popped round rest =>
      have moved := pending_recvRound timeout transport outcome
        (rest.flatMap ReadOutcome.bytes ++ behind)
      rw [round] at moved
      rw [List.flatMap_cons, List.append_assoc]
      exact ⟨moved.1.symm, moved.2⟩

/-- A frame that fits announces its payload's length. -/
def Counted (frame : WireFrame) : Prop :=
  frame.payload.length ≤ nrosMaxPayload →
    frame.header.length.toNat = frame.payload.length

/-- What arrives of a frame that is sent: nothing if it does not fit. -/
def onLink (frame : WireFrame) : List Frame :=
  if frame.payload.length ≤ nrosMaxPayload then [frame.onWire] else []

/-- Frames sent whole arrive in order behind those already under way. -/
theorem append_sent {parser : NrosStreamParser} (sent : List WireFrame)
    {bytes : List UInt8} (clears : parser.Clears bytes)
    (counted : ∀ frame ∈ sent, Counted frame) :
    parser.Clears (bytes ++ sent.flatMap frameBytes) ∧
      parser.framesOf (bytes ++ sent.flatMap frameBytes) =
        parser.framesOf bytes ++ sent.flatMap onLink := by
  induction sent generalizing bytes with
  | nil => simpa using clears
  | cons frame sent induction =>
      have others : ∀ other ∈ sent, Counted other := by
        intro other member
        exact counted other (List.mem_cons_of_mem frame member)
      rw [List.flatMap_cons, List.flatMap_cons, ← List.append_assoc,
        ← List.append_assoc]
      by_cases fits : frame.payload.length ≤ nrosMaxPayload
      · have sendable : frame.Sendable :=
          ⟨counted frame List.mem_cons_self fits, fits⟩
        obtain ⟨stillClears, frames⟩ :=
          clears.append_frame sendable.onWire_deliverable
        rw [frameBytes_of_fits fits, onLink, if_pos fits, ← frames]
        exact induction stillClears others
      · rw [frameBytes_of_long fits, onLink, if_neg fits, List.append_nil,
          List.append_nil]
        exact induction clears others

end SerialTransport

end NanoRos
