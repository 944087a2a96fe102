import NanoRos.Foundation.PartialRun
import NanoRos.BoardStep

/-!
# Runs of the board

The board takes received frames, calls of `tx_poll` and calls of
`nros_publish` in any order.  A history keeps, beside the board, the bytes
the transport took and whether a registration session is open.
-/

namespace NanoRos

open Board PartialRun

/-- What can happen to the board.  Frames come one at a time: a `rx_poll` that
completes several of them is as many events. -/
inductive BoardEvent where
  | receive (frame : Frame)
  | txPoll (accepted : Nat)
  | publish (topicId : UInt8) (serialized : SerializeResult)

structure BoardHistory where
  board : Board
  written : List UInt8
  /-- A DISCOVER was accepted, and the REGISTER_DONE is not out yet. -/
  sessionOpen : Bool

namespace BoardHistory

/-- The frame is a DISCOVER for which `register_topics_start` is true. -/
def acceptsDiscover (table : TopicTable) (board : Board) (frame : Frame) :
    Bool :=
  match NrosPacketType.ofByte? frame.header.type,
    registerTopicsStart table board with
  | some .discover, .ok (started, _) => started
  | _, _ => false

/-- The last byte of a REGISTER_DONE was taken. -/
def finishesSession (before after : Board) : Bool :=
  before.tx.state = .sendingFrame ∧ after.tx.state = .idle ∧
    before.tx.buffer.take before.tx.frameLen = registerDoneFrame.encoded

def initial (table : TopicTable) : BoardHistory :=
  { board := .initial table, written := [], sessionOpen := false }

def step (table : TopicTable) (history : BoardHistory) :
    BoardEvent → Option BoardHistory
  | .receive frame =>
      match nrosDispatch table history.board frame with
      | .error _ => none
      | .ok board =>
          some { history with
            board
            sessionOpen :=
              history.sessionOpen || acceptsDiscover table history.board frame }
  | .txPoll accepted =>
      let (board, bytes) := history.board.txPoll accepted
      some
        { board
          written := history.written ++ bytes
          sessionOpen :=
            history.sessionOpen && !finishesSession history.board board }
  | .publish topicId serialized =>
      some { history with
        board := (history.board.nrosPublish topicId serialized).2 }

/-! ## The three kinds of step -/

/-- A DISCOVER is accepted exactly when nothing is being sent. -/
theorem acceptsDiscover_iff {table : TopicTable} {board after : Board}
    {frame : Frame} (dispatched : nrosDispatch table board frame = .ok after) :
    acceptsDiscover table board frame = true ↔
      frame.header.type = NrosPacketType.discover.toByte ∧
        board.tx.state = .idle := by
  unfold acceptsDiscover
  split
  next discover result =>
    have type := NrosPacketType.ofByte?_eq_some_iff.mp discover
    unfold registerTopicsStart at result
    split at result
    next busy =>
      cases result
      simp [busy]
    next idle =>
      split at result
      · cases result
      · cases result
        simpa [type] using idle
  next other =>
    constructor
    · intro impossible
      cases impossible
    · rintro ⟨type, idle⟩
      have discover : NrosPacketType.ofByte? frame.header.type =
          some .discover := by
        rw [type, NrosPacketType.ofByte?_toByte]
      simp only [nrosDispatch, discover] at dispatched
      cases result : registerTopicsStart table board with
      | error fault =>
          rw [result] at dispatched
          cases dispatched
      | ok started => exact (other started.1 started.2 discover result).elim

theorem step_receive {table : TopicTable} {before after : BoardHistory}
    {frame : Frame} (stepped : before.step table (.receive frame) = some after) :
    ∃ board accepted, before.board.DispatchStep table frame board ∧
      (accepted = true ↔
        frame.header.type = NrosPacketType.discover.toByte ∧
          before.board.tx.state = .idle) ∧
      after = { before with
        board, sessionOpen := before.sessionOpen || accepted } := by
  simp only [step] at stepped
  split at stepped
  · cases stepped
  next board dispatched =>
    exact ⟨board, _, dispatchStep dispatched, acceptsDiscover_iff dispatched,
      (Option.some.inj stepped).symm⟩

theorem step_txPoll {table : TopicTable} {before after : BoardHistory}
    {accepted : Nat} (settled : before.board.Settled)
    (stepped : before.step table (.txPoll accepted) = some after) :
    ∃ board bytes, before.board.TxStep board bytes ∧
      after =
        { board
          written := before.written ++ bytes
          sessionOpen :=
            before.sessionOpen && !finishesSession before.board board } :=
  ⟨_, _, txStep settled accepted, (Option.some.inj stepped).symm⟩

theorem step_publish {table : TopicTable} {before after : BoardHistory}
    {topicId : UInt8} {serialized : SerializeResult}
    (stepped : before.step table (.publish topicId serialized) = some after) :
    ∃ result board,
      before.board.nrosPublish topicId serialized = (result, board) ∧
        before.board.PublishStep topicId serialized (result, board) ∧
        after = { before with board } := by
  have published := publishStep before.board topicId serialized
  exact ⟨_, _, rfl, published, (Option.some.inj stepped).symm⟩

/-! ## Whole frames -/

/-- The written bytes are complete encoded frames, then at most a proper
prefix of the frame that is in the transmit buffer. -/
def WholeFrames (history : BoardHistory) : Prop :=
  ∃ (frames : List Frame) (begun : List UInt8),
    (∀ frame ∈ frames, frame.Deliverable) ∧
      history.written = frames.flatMap Frame.encoded ++ begun ∧
      (begun ≠ [] →
        begun <+: history.board.tx.buffer.take history.board.tx.frameLen ∧
          begun.length < history.board.tx.frameLen)

/-- No ACK makes the library load a frame over one that is partly sent. -/
def NoOverwrite (table : TopicTable) (history : BoardHistory) :
    BoardEvent → Prop
  | .receive frame =>
      ¬(frame.header.type = NrosPacketType.ack.toByte ∧
        history.board.rx.awaitingAck = true ∧
        history.board.tx.isRegistration = true ∧
        (history.board.advanceRegistration table).LoadsFrame table ∧
        history.board.tx.state = .sendingFrame ∧
        0 < history.board.tx.bytesSent)
  | _ => True

instance (table : TopicTable) (history : BoardHistory) :
    ∀ event, Decidable (NoOverwrite table history event)
  | .receive _ => inferInstanceAs (Decidable (¬_))
  | .txPoll _ => isTrue trivial
  | .publish _ _ => isTrue trivial

/-- The sent part of the frame being sent. -/
def begun (board : Board) : List UInt8 :=
  match board.tx.state with
  | .sendingFrame => board.tx.buffer.take board.tx.bytesSent
  | _ => []

/-- The written bytes are whole frames and the sent part of the current one. -/
structure Framed (history : BoardHistory) : Prop where
  settled : history.board.Settled
  whole : ∃ frames : List Frame, (∀ frame ∈ frames, frame.Deliverable) ∧
    history.written = frames.flatMap Frame.encoded ++ begun history.board

theorem begun_of_idle {board : Board} (idle : board.tx.state = .idle) :
    begun board = [] := by
  simp only [begun, idle]

theorem begun_of_start {board : Board} (start : board.tx.bytesSent = 0) :
    begun board = [] := by
  unfold begun
  split
  · rw [start, Buffer.take_zero]
  · rfl

theorem begun_of_sending {board : Board} {frame : Frame}
    (sending : board.Sending frame) :
    begun board = board.tx.buffer.take board.tx.bytesSent := by
  simp only [begun, sending.state]

theorem begun_of_sameTransmission {before after : Board}
    (same : before.SameTransmission after) : begun after = begun before := by
  simp only [begun, same.state, same.buffer, same.bytesSent]

theorem Framed.wholeFrames {history : BoardHistory}
    (framed : history.Framed) : history.WholeFrames := by
  obtain ⟨frames, deliverable, written⟩ := framed.whole
  refine ⟨frames, begun history.board, deliverable, written, ?_⟩
  intro started
  rcases framed.settled with idle | ⟨frame, sending⟩
  · exact absurd (begun_of_idle idle) started
  · have unfinished := sending.unfinished
    rw [begun_of_sending sending]
    constructor
    · exact List.take_prefix_take_left (Nat.le_of_lt unfinished)
    · rw [Buffer.length_take]
      omega

/-- Loading a frame keeps the written bytes whole if none of the frame it
replaces was sent. -/
theorem LoadStep.begun_eq {table : TopicTable} {before after : Board}
    (step : before.LoadStep table after)
    (clear : before.LoadsFrame table → begun before = []) :
    begun after = begun before := by
  cases step with
  | done regDone _ start _ _ =>
      rw [begun_of_start start, clear (.inl regDone)]
  | tooLong _ _ _ _ same => rw [same]
  | register topic found _ fit _ start _ _ =>
      rw [begun_of_start start, clear (.inr ⟨topic, found, fit⟩)]

theorem DispatchStep.begun_eq {table : TopicTable}
    {history : BoardHistory} {after : Board} {frame : Frame}
    (step : history.board.DispatchStep table frame after)
    (kept : NoOverwrite table history (.receive frame)) :
    begun after = begun history.board := by
  cases step with
  | passed _ _ same => rw [same]
  | ackIgnored _ _ same => rw [same]
  | ackOutside _ _ _ cleared => rw [cleared]; rfl
  | ackTaken ack awaiting registering loaded =>
      have same := begun_of_sameTransmission
        (advanceRegistration_transmission table history.board)
      rw [LoadStep.begun_eq loaded, same]
      intro loads
      rw [same]
      unfold begun
      split
      next sending =>
        have none : ¬0 < history.board.tx.bytesSent := fun some =>
          kept ⟨ack, awaiting, registering, loads, sending, some⟩
        rw [Nat.eq_zero_of_not_pos none, Buffer.take_zero]
      · rfl
  | discoverDropped _ _ same => rw [same]
  | discoverTaken _ idle loaded =>
      rw [LoadStep.begun_eq loaded]
      · rfl
      · intro _
        exact begun_of_idle idle

theorem framed_initial (table : TopicTable) : (initial table).Framed :=
  ⟨initial_settled table, [], by simp, rfl⟩

theorem framed_step {table : TopicTable} {before after : BoardHistory}
    {event : BoardEvent} (framed : before.Framed)
    (kept : NoOverwrite table before event)
    (stepped : before.step table event = some after) : after.Framed := by
  obtain ⟨frames, deliverable, written⟩ := framed.whole
  cases event with
  | receive frame =>
      obtain ⟨board, accepted, dispatch, _, rfl⟩ := step_receive stepped
      refine ⟨dispatch.settled framed.settled, frames, deliverable, ?_⟩
      rw [written, DispatchStep.begun_eq dispatch kept]
  | txPoll accepted =>
      obtain ⟨board, bytes, wrote, rfl⟩ := step_txPoll framed.settled stepped
      refine ⟨wrote.settled framed.settled, ?_⟩
      simp only [written]
      cases wrote with
      | quiet _ same nothing =>
          refine ⟨frames, deliverable, ?_⟩
          rw [same, nothing, List.append_nil]
      | partly frame sending still sent _ _ _ =>
          refine ⟨frames, deliverable, ?_⟩
          rw [begun_of_sending sending, begun_of_sending still, sent,
            List.append_assoc]
      | finished frame sending whole completed =>
          refine ⟨frames ++ [frame], ?_, ?_⟩
          · intro other member
            rcases List.mem_append.mp member with earlier | last
            · exact deliverable other earlier
            · rw [List.mem_singleton.mp last]
              exact sending.deliverable
          · rw [begun_of_sending sending, begun_of_idle completed.idle, whole,
              List.append_assoc, sending.take_append_unsent]
            simp
  | publish topicId serialized =>
      obtain ⟨result, board, _, published, rfl⟩ := step_publish stepped
      refine ⟨published.settled framed.settled, frames, deliverable, ?_⟩
      rw [written]
      cases published with
      | busy _ same => rw [same]
      | failed idle _ stillIdle _ _ =>
          rw [begun_of_idle idle, begun_of_idle stillIdle]
      | loaded idle _ _ _ start _ _ _ =>
          rw [begun_of_idle idle, begun_of_start start]

/-- As long as no ACK replaces a partly sent frame, what the transport took
is whole frames and the beginning of the current one. -/
theorem whole_frames (table : TopicTable) (events : List BoardEvent)
    (final : BoardHistory)
    (kept : Along (step table) (NoOverwrite table) (initial table) events)
    (run : exec (step table) (initial table) events = some final) :
    final.WholeFrames :=
  (exec_invariant
    (fun _ _ _ framed kept stepped => framed_step framed kept stepped)
    (framed_initial table) kept run).wholeFrames

/-- A table with one publisher. -/
def onePublisher : TopicTable where
  topics :=
    [{ qos := 0
       topicId := 127
       topicName := [0x2F, 0x74]
       topicType := [0x73, 0x2F, 0x54]
       cb := none }]
  count_le := by decide

/-- The ACK comes when the REGISTER is completely sent. -/
def promptAck : List BoardEvent :=
  [.receive discoverFrame, .txPoll 3, .txPoll 1024,
    .receive (ackFrame ⟨127, .ok⟩), .txPoll 5]

theorem whole_frames_promptAck :
    ∃ final, exec (step onePublisher) (initial onePublisher) promptAck =
      some final ∧ final.WholeFrames := by
  have returns :
      (exec (step onePublisher) (initial onePublisher) promptAck).isSome := by
    decide +kernel
  obtain ⟨final, run⟩ := Option.isSome_iff_exists.mp returns
  exact ⟨final, run,
    whole_frames onePublisher promptAck final (by decide +kernel) run⟩

/-- The first bytes of a frame, if there is not room for a whole one. -/
theorem WholeFrames.prefix_of_short {history : BoardHistory}
    (whole : history.WholeFrames) (short : history.written.length < 8) :
    history.written <+:
      history.board.tx.buffer.take history.board.tx.frameLen := by
  obtain ⟨frames, begun, _, written, begins⟩ := whole
  cases frames with
  | nil =>
      rw [List.flatMap_nil, List.nil_append] at written
      rw [written]
      by_cases nothing : begun = []
      · rw [nothing]
        exact List.nil_prefix
      · exact (begins nothing).1
  | cons frame frames =>
      rw [written] at short
      simp only [List.flatMap_cons, List.length_append, Frame.length_encoded,
        frameHeaderSize, nrosCrcLen] at short
      omega

/-- An ACK of an earlier session comes when three bytes of the REGISTER are
sent. -/
def lateAck : List BoardEvent :=
  [.receive discoverFrame, .txPoll 3, .receive (ackFrame ⟨127, .ok⟩),
    .txPoll 1]

/-- The REGISTER is cut short: `AA 55 01` is followed by a new `AA`. -/
theorem not_wholeFrames_lateAck :
    ∃ final, exec (step onePublisher) (initial onePublisher) lateAck =
      some final ∧ ¬final.WholeFrames := by
  have torn :
      ∃ final ∈ exec (step onePublisher) (initial onePublisher) lateAck,
        final.written.length < 8 ∧ ¬final.written <+:
          final.board.tx.buffer.take final.board.tx.frameLen := by
    decide +kernel
  obtain ⟨final, run, short, notBegun⟩ := torn
  exact ⟨final, run, fun whole => notBegun (whole.prefix_of_short short)⟩

end BoardHistory

end NanoRos
