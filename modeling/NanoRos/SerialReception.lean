import NanoRos.InFlight

/-!
# Serial reception

What a sequence of `recv_frame` calls returns, and what they leave behind, is
what the parser delivers on all bytes that were read.
-/

namespace NanoRos

open PartialRun
open Transducer (after emitted)

/-- The agent's end of a link: what its reads will return, the bytes they have
returned so far, and the frames `recv_frame` has handed out. -/
structure SerialReception where
  transport : SerialTransport
  unread : List ReadOutcome
  read : List UInt8
  returned : List WireFrame

namespace SerialReception

/-- After `init`. -/
def start (connected : Bool) (outcomes : List ReadOutcome) :
    SerialReception :=
  { transport := .opened connected
    unread := outcomes
    read := []
    returned := [] }

/-- One call of `recv_frame` with a timeout. -/
def step (reception : SerialReception) (timeout : Int) :
    Option SerialReception :=
  match reception.transport.recvFrame timeout reception.unread with
  | none => none
  | some result =>
      let used := reception.unread.length - result.unread.length
      some
        { transport := result.transport
          unread := result.unread
          read := reception.read ++
            (reception.unread.take used).flatMap ReadOutcome.bytes
          returned := reception.returned ++ result.frame.toList }

end SerialReception

namespace SerialTransport

/-- A call does the same if nothing is left after what it reads. -/
theorem recvFrame_used {timeout : Int} {transport : SerialTransport}
    {outcomes : List ReadOutcome} {result : RecvResult}
    (returned : recvFrame timeout transport outcomes = some result) :
    ∃ used, outcomes = used ++ result.unread ∧
      recvFrame timeout transport used =
        some { result with unread := [] } := by
  induction returned using recvFrame_induction with
  | completed popped outcomes =>
      exact ⟨[], rfl, recvFrame_of_completed popped []⟩
  | @goesOn transport outcome other rest result popped round later induction =>
      obtain ⟨used, split, run⟩ := induction
      refine ⟨outcome :: used, ?_, ?_⟩
      · rw [split, List.cons_append]
      · rw [recvFrame_cons popped, round]
        exact run
  | @ends transport outcome other popped round rest =>
      refine ⟨[outcome], rfl, ?_⟩
      rw [recvFrame_cons popped, round]

end SerialTransport

namespace SerialReception

open NrosStreamParser

/-- What holds between the calls. -/
structure InOrder (outcomes : List ReadOutcome)
    (reception : SerialReception) : Prop where
  used : ∃ used, outcomes = used ++ reception.unread ∧
    reception.read = used.flatMap ReadOutcome.bytes
  parser : reception.transport.parser =
    after feedByte nrosStreamParserInit reception.read
  frames : reception.returned ++ reception.transport.completedFrames =
    nrosStreamParserInit.framesOf reception.read

theorem inOrder_start (connected : Bool) (outcomes : List ReadOutcome) :
    InOrder outcomes (start connected outcomes) where
  used := ⟨[], rfl, rfl⟩
  parser := rfl
  frames := rfl

/-- What one call does with the outcomes it uses. -/
theorem step_cases {before next : SerialReception} {timeout : Int}
    (stepped : before.step timeout = some next) :
    ∃ used frame, before.unread = used ++ next.unread ∧
      next.read = before.read ++ used.flatMap ReadOutcome.bytes ∧
      next.returned = before.returned ++ Option.toList frame ∧
      before.transport.pending (used.flatMap ReadOutcome.bytes) =
        frame.toList ++ next.transport.completedFrames ∧
      next.transport.parser = after feedByte before.transport.parser
        (used.flatMap ReadOutcome.bytes) := by
  unfold step at stepped
  split at stepped
  · cases stepped
  next result returned =>
    cases stepped
    obtain ⟨used, split, run⟩ := SerialTransport.recvFrame_used returned
    have receives := SerialTransport.recvFrame_receives run []
    simp only [List.flatMap_nil, List.append_nil] at receives
    have count : before.unread.length - result.unread.length =
        used.length := by
      rw [split, List.length_append]
      omega
    refine ⟨used, result.frame, split, ?_, rfl, ?_, receives.parser⟩
    · show before.read ++ (before.unread.take
        (before.unread.length - result.unread.length)).flatMap
          ReadOutcome.bytes = _
      rw [count, split, List.take_left]
    · rw [receives.pending]
      simp [SerialTransport.pending, framesOf]

theorem inOrder_step {outcomes : List ReadOutcome}
    {before next : SerialReception} {timeout : Int}
    (inOrder : InOrder outcomes before)
    (stepped : before.step timeout = some next) :
    InOrder outcomes next := by
  obtain ⟨used, frame, unread, read, returned, pending, parser⟩ :=
    step_cases stepped
  obtain ⟨past, split, pastRead⟩ := inOrder.used
  refine ⟨⟨past ++ used, ?_, ?_⟩, ?_, ?_⟩
  · rw [split, unread, List.append_assoc]
  · rw [read, pastRead, List.flatMap_append]
  · rw [parser, inOrder.parser, ← Transducer.after_append, read]
  · rw [returned, List.append_assoc, ← pending, SerialTransport.pending,
      ← List.append_assoc, inOrder.frames, inOrder.parser, read,
      framesOf_append]

theorem inOrder_exec {connected : Bool} {outcomes : List ReadOutcome}
    {timeouts : List Int} {final : SerialReception}
    (run : exec step (start connected outcomes) timeouts = some final) :
    InOrder outcomes final := by
  have preserved (before : SerialReception) (timeout : Int)
      (next : SerialReception) (inOrder : InOrder outcomes before)
      (stepped : before.step timeout = some next) : InOrder outcomes next :=
    inOrder_step inOrder stepped
  exact exec_preserved preserved (inOrder_start connected outcomes) run

/-- After any calls, the frames handed out and then those still kept are what
one `nros_stream_parser_feed` delivers on all bytes read so far; a call that
hands out none keeps those it found. -/
theorem reception_in_order (connected : Bool) (outcomes : List ReadOutcome)
    (timeouts : List Int) (final : SerialReception)
    (run : exec step (start connected outcomes) timeouts = some final) :
    (∃ used, outcomes = used ++ final.unread ∧
      final.read = used.flatMap ReadOutcome.bytes) ∧
    final.returned ++ final.transport.completedFrames =
      (nrosStreamParserFeed recordFrame nrosStreamParserInit []
        final.read).2 ∧
    ∀ timeout next, final.step timeout = some next →
      next.returned = final.returned →
        final.transport.completedFrames <+:
          next.transport.completedFrames := by
  have inOrder := inOrder_exec run
  refine ⟨inOrder.used, ?_, ?_⟩
  · rw [inOrder.frames, nrosStreamParserFeed, Transducer.runWith_eq,
      foldl_recordFrame]
    rfl
  · intro timeout next stepped same
    obtain ⟨used, frame, _, _, returned, pending, _⟩ := step_cases stepped
    have none_ : frame.toList = [] := by
      rw [same] at returned
      exact List.append_cancel_left (returned.symm.trans
        (List.append_nil _).symm)
    rw [none_, List.nil_append] at pending
    rw [← pending]
    exact List.prefix_append _ _

/-- Two frames cut after three bytes, with a timeout at the cut. -/
def cutReads : List ReadOutcome :=
  let bytes := SerialTransport.frameBytes discoverFrame
  [.data (bytes.take 3), .wouldBlock 2 .timedOut, .interrupted,
    .data (bytes.drop 3 ++ bytes)]

theorem reception_in_order_cutReads :
    ∃ final, exec step (start false cutReads) [10, 10, 0] = some final ∧
      final.returned ++ final.transport.completedFrames =
        (nrosStreamParserFeed recordFrame nrosStreamParserInit []
          final.read).2 := by
  have returns :
      (exec step (start false cutReads) [10, 10, 0]).isSome := by
    decide +kernel
  obtain ⟨final, run⟩ := Option.isSome_iff_exists.mp returns
  exact ⟨final, run,
    (reception_in_order false cutReads [10, 10, 0] final run).2.1⟩

end SerialReception

end NanoRos
