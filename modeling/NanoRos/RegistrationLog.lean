import NanoRos.BoardInvariant
import NanoRos.BoardPublishes

/-!
# What a session has done

The library forgets which frames it sent and which ACKs it acted on.  A log
beside the board remembers them for the current session: from one accepted
DISCOVER to the next.
-/

namespace NanoRos

open Board PartialRun

structure RegistrationLog where
  board : Board
  /-- The bytes written since a frame was last loaded. -/
  current : List UInt8
  /-- The bytes written for each frame that was completed. -/
  sent : List (List UInt8)
  /-- The topic ids of the ACKs that were acted on. -/
  acked : List UInt8
  /-- A REGISTER_DONE was loaded. -/
  doneLoaded : Bool

namespace RegistrationLog

/-- The buffer holds a REGISTER_DONE that is being sent. -/
def holdsRegisterDone (board : Board) : Bool :=
  board.tx.state = .sendingFrame ∧
    board.tx.buffer.take board.tx.frameLen = registerDoneFrame.encoded

/-- An ACK that makes the registration go on. -/
def actsOnAck (board : Board) (frame : Frame) : Bool :=
  frame.header.type = NrosPacketType.ack.toByte ∧
    board.rx.awaitingAck = true ∧ board.tx.isRegistration = true

def initial (table : TopicTable) : RegistrationLog :=
  { board := .initial table
    current := []
    sent := []
    acked := []
    doneLoaded := false }

/-- A received frame has made `board` of the library's state. -/
def hear (table : TopicTable) (log : RegistrationLog) (frame : Frame)
    (board : Board) : RegistrationLog :=
  if BoardHistory.acceptsDiscover table log.board frame then
    { board
      current := []
      sent := []
      acked := []
      doneLoaded := holdsRegisterDone board }
  else
    { log with
      board
      current := PublishLedger.sinceLoad board log.current
      acked :=
        if actsOnAck log.board frame then log.acked ++ [frame.header.topicId]
        else log.acked
      doneLoaded := log.doneLoaded || holdsRegisterDone board }

/-- `bytes` were written, which has made `board` of the library's state. -/
def write (log : RegistrationLog) (board : Board) (bytes : List UInt8) :
    RegistrationLog :=
  if log.board.tx.state = .sendingFrame ∧ board.tx.state = .idle then
    { log with
      board, current := [], sent := log.sent ++ [log.current ++ bytes] }
  else
    { log with board, current := log.current ++ bytes }

def step (table : TopicTable) (log : RegistrationLog) :
    BoardEvent → Option RegistrationLog
  | .receive frame =>
      match nrosDispatch table log.board frame with
      | .error _ => none
      | .ok board => some (log.hear table frame board)
  | .txPoll accepted =>
      let (board, bytes) := log.board.txPoll accepted
      some (log.write board bytes)
  | .publish topicId serialized =>
      let (result, board) := log.board.nrosPublish topicId serialized
      some { log with
        board, current := if result then [] else log.current }

/-! ## The three kinds of step -/

theorem step_receive {table : TopicTable} {before after : RegistrationLog}
    {frame : Frame}
    (stepped : before.step table (.receive frame) = some after) :
    ∃ board, nrosDispatch table before.board frame = .ok board ∧
      after = before.hear table frame board := by
  simp only [step] at stepped
  split at stepped
  · cases stepped
  next board dispatched =>
    exact ⟨board, dispatched, (Option.some.inj stepped).symm⟩

theorem step_txPoll {table : TopicTable} {before after : RegistrationLog}
    {accepted : Nat} (settled : before.board.Settled)
    (stepped : before.step table (.txPoll accepted) = some after) :
    ∃ board bytes, before.board.TxStep board bytes ∧
      after = before.write board bytes :=
  ⟨_, _, txStep settled accepted, (Option.some.inj stepped).symm⟩

theorem step_publish {table : TopicTable} {before after : RegistrationLog}
    {topicId : UInt8} {serialized : SerializeResult}
    (stepped : before.step table (.publish topicId serialized) = some after) :
    ∃ result board,
      before.board.PublishStep topicId serialized (result, board) ∧
        after = { before with
          board, current := if result then [] else before.current } := by
  have published := publishStep before.board topicId serialized
  exact ⟨_, _, published, (Option.some.inj stepped).symm⟩

section Hear

variable {table : TopicTable} {log : RegistrationLog} {frame : Frame}
  {board : Board}

theorem hear_of_accepted
    (dispatched : nrosDispatch table log.board frame = .ok board)
    (discover : frame.header.type = NrosPacketType.discover.toByte)
    (idle : log.board.tx.state = .idle) :
    log.hear table frame board =
      { board
        current := []
        sent := []
        acked := []
        doneLoaded := holdsRegisterDone board } := by
  have accepted := (BoardHistory.acceptsDiscover_iff dispatched).mpr
    ⟨discover, idle⟩
  simp only [hear, accepted, if_true]

theorem hear_of_other
    (dispatched : nrosDispatch table log.board frame = .ok board)
    (other : ¬(frame.header.type = NrosPacketType.discover.toByte ∧
      log.board.tx.state = .idle)) :
    log.hear table frame board =
      { log with
        board
        current := PublishLedger.sinceLoad board log.current
        acked :=
          if actsOnAck log.board frame then
            log.acked ++ [frame.header.topicId]
          else log.acked
        doneLoaded := log.doneLoaded || holdsRegisterDone board } := by
  have refused :
      BoardHistory.acceptsDiscover table log.board frame = false := by
    rw [Bool.eq_false_iff]
    intro accepted
    exact other ((BoardHistory.acceptsDiscover_iff dispatched).mp accepted)
  simp only [hear, refused, Bool.false_eq_true, if_false]

@[simp] theorem hear_board :
    (log.hear table frame board).board = board := by
  unfold hear
  split <;> rfl

end Hear

@[simp] theorem write_board (log : RegistrationLog) (board : Board)
    (bytes : List UInt8) : (log.write board bytes).board = board := by
  unfold write
  split <;> rfl

theorem holdsRegisterDone_iff {board : Board} (settled : board.Settled) :
    holdsRegisterDone board = true ↔ board.Sending registerDoneFrame := by
  simp only [holdsRegisterDone, decide_eq_true_eq]
  constructor
  · rintro ⟨state, bytes⟩
    rcases settled with idle | ⟨frame, sending⟩
    · rw [idle] at state
      cases state
    · have whole : frame.encoded ++ [] = registerDoneFrame.encoded ++ [] := by
        rw [← bytes, sending.length, sending.bytes]
      have same := (Frame.encoded_append_inj sending.deliverable.counts
        registerDoneFrame_deliverable.counts whole).1
      exact same ▸ sending
  · intro sending
    exact ⟨sending.state, by rw [sending.length, sending.bytes]⟩

/-! ## What the log says of the board -/

/-- The log agrees with the library's state. -/
structure Sound (table : TopicTable) (log : RegistrationLog) : Prop where
  registration : log.board.RegistrationInvariant table
  current : ∀ frame, log.board.Sending frame →
    log.current = log.board.tx.buffer.take log.board.tx.bytesSent
  loaded : log.board.Sending registerDoneFrame → log.doneLoaded = true
  awaited : log.board.rx.awaitingAck = true → log.doneLoaded = false

theorem sound_initial (table : TopicTable) : (initial table).Sound table where
  registration := registrationInvariant_initial table
  current := fun _ sending => by cases sending.state
  loaded := fun sending => by cases sending.state
  awaited := fun _ => rfl

/-- A library that awaits an ACK is not sending a REGISTER_DONE. -/
theorem not_closing_of_awaiting {table : TopicTable} {board : Board}
    (invariant : board.RegistrationInvariant table)
    (awaiting : board.rx.awaitingAck = true) :
    holdsRegisterDone board = false := by
  rw [Bool.eq_false_iff]
  intro holds
  have regDone :=
    invariant.closing ((holdsRegisterDone_iff invariant.settled).mp holds)
  rw [invariant.answered regDone] at awaiting
  cases awaiting

/-- A load starts a frame, or leaves the transmission alone. -/
theorem LoadStep.starts {table : TopicTable} {before after : Board}
    (step : before.LoadStep table after) :
    after.tx.bytesSent = 0 ∨ before.SameTransmission after := by
  cases step with
  | done _ _ start _ _ => exact .inl start
  | tooLong _ _ _ _ same => exact .inr (same ▸ ⟨rfl, rfl, rfl, rfl⟩)
  | register _ _ _ _ _ start _ _ => exact .inl start

theorem DispatchStep.starts {table : TopicTable} {before after : Board}
    {frame : Frame} (step : before.DispatchStep table frame after) :
    after.tx.bytesSent = 0 ∨ before.SameTransmission after := by
  cases step with
  | passed _ _ same => exact .inr (same ▸ ⟨rfl, rfl, rfl, rfl⟩)
  | ackIgnored _ _ same => exact .inr (same ▸ ⟨rfl, rfl, rfl, rfl⟩)
  | ackOutside _ _ _ cleared => exact .inr (cleared ▸ ⟨rfl, rfl, rfl, rfl⟩)
  | ackTaken _ _ _ loaded =>
      exact (LoadStep.starts loaded).imp_right fun same =>
        ⟨same.state, same.buffer, same.frameLen, same.bytesSent⟩
  | discoverDropped _ _ same => exact .inr (same ▸ ⟨rfl, rfl, rfl, rfl⟩)
  | discoverTaken _ _ loaded =>
      exact (LoadStep.starts loaded).imp_right fun same =>
        ⟨same.state, same.buffer, same.frameLen, same.bytesSent⟩

/-- Only a DISCOVER makes the library await an ACK where it did not. -/
theorem DispatchStep.awaited_before {table : TopicTable}
    {before after : Board} {frame : Frame}
    (step : before.DispatchStep table frame after)
    (other : ¬(frame.header.type = NrosPacketType.discover.toByte ∧
      before.tx.state = .idle))
    (awaiting : after.rx.awaitingAck = true) :
    before.rx.awaitingAck = true := by
  cases step with
  | passed _ _ same => exact same ▸ awaiting
  | ackIgnored _ _ same => exact same ▸ awaiting
  | ackOutside _ awaited _ _ => exact awaited
  | ackTaken _ awaited _ _ => exact awaited
  | discoverDropped _ _ same => exact same ▸ awaiting
  | discoverTaken discover idle _ => exact absurd ⟨discover, idle⟩ other

theorem Sound.hear {table : TopicTable} {log : RegistrationLog}
    {frame : Frame} {board : Board} (sound : log.Sound table)
    (dispatched : nrosDispatch table log.board frame = .ok board) :
    (log.hear table frame board).Sound table := by
  have dispatch := dispatchStep dispatched
  have registration := dispatch.invariant sound.registration
  have holds := holdsRegisterDone_iff registration.settled
  have starts := DispatchStep.starts dispatch
  by_cases accepted : frame.header.type = NrosPacketType.discover.toByte ∧
      log.board.tx.state = .idle
  · rw [hear_of_accepted dispatched accepted.1 accepted.2]
    refine ⟨registration, fun other sending => ?_, holds.mpr, fun awaiting =>
      not_closing_of_awaiting registration awaiting⟩
    rcases starts with start | same
    · rw [start, Buffer.take_zero]
    · exact absurd (same.state.trans accepted.2) (not_idle_of_sending sending)
  · rw [hear_of_other dispatched accepted]
    refine ⟨registration, fun other sending => ?_, fun closing => ?_,
      fun awaiting => ?_⟩
    · simp only [PublishLedger.sinceLoad]
      split
      next start => rw [start, Buffer.take_zero]
      next begun =>
        have same := starts.resolve_left begun
        have back : board.SameTransmission log.board :=
          ⟨same.state.symm, same.buffer.symm, same.frameLen.symm,
            same.bytesSent.symm⟩
        rw [sound.current other (back.sending sending), same.buffer,
          same.bytesSent]
    · simp [holds.mpr closing]
    · have before := DispatchStep.awaited_before dispatch accepted awaiting
      simp [sound.awaited before,
        not_closing_of_awaiting registration awaiting]

theorem Sound.write {table : TopicTable} {log : RegistrationLog}
    {board : Board} {bytes : List UInt8} (sound : log.Sound table)
    (wrote : log.board.TxStep board bytes) :
    (log.write board bytes).Sound table := by
  have registration := wrote.invariant sound.registration
  cases wrote with
  | quiet idle same nothing =>
      have notSending : ¬(log.board.tx.state = .sendingFrame ∧
          board.tx.state = .idle) := by
        simp [idle]
      rw [RegistrationLog.write, if_neg notSending, nothing, List.append_nil]
      rw [same] at registration ⊢
      exact ⟨registration, sound.current, sound.loaded, sound.awaited⟩
  | partly frame sending still sent _ _ rx =>
      have notFinished : ¬(log.board.tx.state = .sendingFrame ∧
          board.tx.state = .idle) := by
        simp [still.state]
      rw [RegistrationLog.write, if_neg notFinished]
      refine ⟨registration, fun other _ => ?_, fun closing => ?_, ?_⟩
      · simp only [sound.current frame sending]
        exact sent.symm
      · apply sound.loaded
        rw [← still.unique closing]
        exact sending
      · rw [rx]
        exact sound.awaited
  | finished frame sending _ completed =>
      rw [RegistrationLog.write, if_pos ⟨sending.state, completed.idle⟩]
      refine ⟨registration, fun other sends => ?_, fun closing => ?_, ?_⟩
      · exact absurd completed.idle (not_idle_of_sending sends)
      · exact absurd completed.idle (not_idle_of_sending closing)
      · rw [completed.rx]
        exact sound.awaited

theorem Sound.publish {table : TopicTable} {log : RegistrationLog}
    {board : Board} {topicId : UInt8} {serialized : SerializeResult}
    {result : Bool} (sound : log.Sound table)
    (published : log.board.PublishStep topicId serialized (result, board)) :
    Sound table { log with
      board, current := if result then [] else log.current } := by
  have registration := published.invariant sound.registration
  have rx : board.rx = log.board.rx := by
    cases published with
    | busy _ same => rw [same]
    | failed _ _ _ _ rx => exact rx
    | loaded _ _ _ _ _ _ _ rx => exact rx
  have awaited : board.rx.awaitingAck = true → log.doneLoaded = false := by
    rw [rx]
    exact sound.awaited
  cases published with
  | busy _ same =>
      rw [same]
      exact ⟨sound.registration, sound.current, sound.loaded, sound.awaited⟩
  | failed _ _ stillIdle _ _ =>
      refine ⟨registration, fun _ sending => ?_, fun closing => ?_, awaited⟩
      · exact absurd stillIdle (not_idle_of_sending sending)
      · exact absurd stillIdle (not_idle_of_sending closing)
  | loaded _ _ _ sending start outside _ _ =>
      refine ⟨registration, fun _ _ => ?_, fun closing => ?_, awaited⟩
      · rw [start, Buffer.take_zero]
        rfl
      · exact absurd (sending.unique closing)
          (dataFrame_ne_registerDone topicId serialized.bytes)

theorem sound_step {table : TopicTable} {before after : RegistrationLog}
    {event : BoardEvent} (sound : before.Sound table)
    (stepped : before.step table event = some after) : after.Sound table := by
  cases event with
  | receive frame =>
      obtain ⟨board, dispatched, rfl⟩ := step_receive stepped
      exact sound.hear dispatched
  | txPoll accepted =>
      obtain ⟨board, bytes, wrote, rfl⟩ :=
        step_txPoll sound.registration.settled stepped
      exact sound.write wrote
  | publish topicId serialized =>
      obtain ⟨result, board, published, rfl⟩ := step_publish stepped
      exact sound.publish published

theorem sound_run {table : TopicTable} {events : List BoardEvent}
    {final : RegistrationLog}
    (run : exec (step table) (initial table) events = some final) :
    final.Sound table := by
  apply exec_preserved _ (sound_initial table) run
  intro before event after sound stepped
  exact sound_step sound stepped

end RegistrationLog

end NanoRos
