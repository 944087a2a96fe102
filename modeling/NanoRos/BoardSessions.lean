import NanoRos.BoardRuns

/-!
# Registration sessions of the board

A session lasts from an accepted DISCOVER to the last byte of its
REGISTER_DONE.  The library has no variable for it: what it is doing shows in
`is_registration`, `sending_reg_done_frame` and the frame in the buffer.
-/

namespace NanoRos

open Board PartialRun

namespace BoardHistory

/-- A DATA frame is loaded only while no session is open. -/
def NoDataInSession (history : BoardHistory) : BoardEvent → Prop
  | .publish topicId serialized =>
      (history.board.nrosPublish topicId serialized).1 = true →
        history.sessionOpen = false
  | _ => True

/-- No message that fits is published while the library is idle between the
REGISTER frames of a session, with `registration_complete` still set by an
earlier session. -/
def NoPublishBetweenRegisters (history : BoardHistory) : BoardEvent → Prop
  | .publish _ serialized =>
      serialized.Fits →
        ¬(history.board.tx.state = .idle ∧
          history.board.registrationComplete = true ∧
          history.board.tx.isRegistration = true ∧
          history.board.tx.sendingRegDoneFrame = false)
  | _ => True

/-- Where a session is. -/
inductive SessionPhase (history : BoardHistory) : Prop
  | closed (shut : history.sessionOpen = false)
      (ended : history.board.tx.isRegistration = false ∨
        history.board.tx.sendingRegDoneFrame = true ∧
          history.board.tx.state = .idle)
  | registering (opened : history.sessionOpen = true)
      (inside : history.board.tx.isRegistration = true)
      (notDone : history.board.tx.sendingRegDoneFrame = false)
      (sends : history.board.tx.state = .idle ∨
        ∃ topic, history.board.Sending (registrationFrame topic))
  | finishing (opened : history.sessionOpen = true)
      (inside : history.board.tx.isRegistration = true)
      (done : history.board.tx.sendingRegDoneFrame = true)
      (sends : history.board.Sending registerDoneFrame)

structure SessionInvariant (history : BoardHistory) : Prop where
  settled : history.board.Settled
  phase : history.SessionPhase
  answered : history.board.tx.sendingRegDoneFrame = true →
    history.board.rx.awaitingAck = false

theorem sessionInvariant_initial (table : TopicTable) :
    (initial table).SessionInvariant :=
  ⟨initial_settled table, .closed rfl (.inl rfl), fun _ => rfl⟩

theorem noDataInSession_iff {history : BoardHistory} (event : BoardEvent)
    (invariant : history.SessionInvariant) :
    history.NoDataInSession event ↔
      history.NoPublishBetweenRegisters event := by
  cases event with
  | receive frame => exact Iff.rfl
  | txPoll accepted => exact Iff.rfl
  | publish topicId serialized =>
      have result := publish_eq_true_iff history.board topicId serialized
      simp only [NoDataInSession, NoPublishBetweenRegisters]
      cases invariant.phase with
      | closed shut ended =>
          constructor
          · rintro _ _ ⟨_, _, inside, notDone⟩
            rcases ended with outside | ⟨done, _⟩
            · rw [outside] at inside
              cases inside
            · rw [done] at notDone
              cases notDone
          · intro _ _
            exact shut
      | registering opened inside notDone _ =>
          rw [opened]
          constructor
          · rintro never fits ⟨idle, complete, _, _⟩
            cases never (result.mpr ⟨idle, complete, fits⟩)
          · intro never published
            obtain ⟨idle, complete, fits⟩ := result.mp published
            exact absurd ⟨idle, complete, inside, notDone⟩ (never fits)
      | finishing _ _ _ sends =>
          have notIdle := not_idle_of_sending sends
          constructor
          · rintro _ _ ⟨idle, _⟩
            exact notIdle idle
          · intro _ published
            exact absurd (result.mp published).1 notIdle

/-! ## What a step does to the phase -/

theorem LoadStep.answered {table : TopicTable} {before after : Board}
    (step : before.LoadStep table after)
    (answered : before.tx.sendingRegDoneFrame = true →
      before.rx.awaitingAck = false) :
    after.tx.sendingRegDoneFrame = true → after.rx.awaitingAck = false := by
  intro done
  cases step with
  | done regDone _ _ _ acks =>
      rw [acks]
      exact answered regDone
  | tooLong _ _ _ _ same =>
      rw [same] at done ⊢
      exact answered done
  | register _ _ notDone _ _ _ same _ =>
      rw [same.regDone, notDone] at done
      cases done

/-- A load inside an open session leaves the session registering, or sending
its REGISTER_DONE. -/
theorem LoadStep.phase {table : TopicTable} {loading : Board}
    {after : BoardHistory} (step : loading.LoadStep table after.board)
    (opened : after.sessionOpen = true)
    (inside : loading.tx.isRegistration = true)
    (sends : loading.tx.state = .idle ∨
      ∃ topic, loading.Sending (registrationFrame topic)) :
    after.SessionPhase := by
  cases step with
  | done regDone sending _ same _ =>
      exact .finishing opened (same.isRegistration.trans inside)
        (same.regDone.trans regDone) sending
  | tooLong _ _ notDone _ same =>
      rw [← same] at inside notDone sends
      exact .registering opened inside notDone sends
  | register topic _ notDone _ sending _ same _ =>
      exact .registering opened (same.isRegistration.trans inside)
        (same.regDone.trans notDone) (.inr ⟨topic, sending⟩)

theorem sessionInvariant_receive {table : TopicTable}
    {before : BoardHistory} {board : Board} {frame : Frame} {accepted : Bool}
    (invariant : before.SessionInvariant)
    (dispatch : before.board.DispatchStep table frame board)
    (accepts : accepted = true ↔
      frame.header.type = NrosPacketType.discover.toByte ∧
        before.board.tx.state = .idle) :
    SessionInvariant { before with
      board, sessionOpen := before.sessionOpen || accepted } := by
  have settled := dispatch.settled invariant.settled
  have notAccepted
      (other : ¬(frame.header.type = NrosPacketType.discover.toByte ∧
        before.board.tx.state = .idle)) :
      (before.sessionOpen || accepted) = before.sessionOpen := by
    have : accepted = false := by
      cases accepted with
      | false => rfl
      | true => exact absurd (accepts.mp rfl) other
    rw [this, Bool.or_false]
  have ackIsNot (ack : frame.header.type = NrosPacketType.ack.toByte) :
      ¬(frame.header.type = NrosPacketType.discover.toByte ∧
        before.board.tx.state = .idle) := by
    rintro ⟨discover, _⟩
    rw [ack] at discover
    exact absurd discover (by decide)
  cases dispatch with
  | passed _ notDiscover same =>
      rw [same, notAccepted (fun both => notDiscover both.1)]
      exact invariant
  | ackIgnored ack _ same =>
      rw [same, notAccepted (ackIsNot ack)]
      exact invariant
  | ackOutside ack _ outside cleared =>
      rw [notAccepted (ackIsNot ack)]
      refine ⟨settled, ?_, ?_⟩
      · rw [cleared]
        cases invariant.phase with
        | closed shut _ => exact .closed shut (.inl outside)
        | registering _ inside _ _ => simp [outside] at inside
        | finishing _ inside _ _ => simp [outside] at inside
      · rw [cleared]
        exact fun _ => rfl
  | ackTaken ack awaiting inside loaded =>
      rw [notAccepted (ackIsNot ack)]
      refine ⟨settled, ?_,
        LoadStep.answered loaded fun _ => rfl⟩
      have awaited := mt invariant.answered (by simp [awaiting])
      cases invariant.phase with
      | closed _ ended =>
          rcases ended with outside | ⟨done, _⟩
          · simp [outside] at inside
          · exact absurd done awaited
      | registering opened _ _ sends =>
          have same := advanceRegistration_transmission table before.board
          refine LoadStep.phase loaded opened inside ?_
          rcases sends with idle | ⟨topic, sending⟩
          · exact .inl (same.state.trans idle)
          · exact .inr ⟨topic, same.sending sending⟩
      | finishing _ _ done _ => exact absurd done awaited
  | discoverDropped _ busy same =>
      rw [same, notAccepted (fun both => busy both.2)]
      exact invariant
  | discoverTaken discover idle loaded =>
      refine ⟨settled, ?_,
        LoadStep.answered loaded nofun⟩
      exact LoadStep.phase loaded
        (by simp [accepts.mpr ⟨discover, idle⟩]) rfl (.inl idle)

theorem finishesSession_iff {before after : Board} {frame : Frame}
    (sending : before.Sending frame) :
    finishesSession before after = true ↔
      after.tx.state = .idle ∧ frame = registerDoneFrame := by
  simp only [finishesSession, sending.state, sending.length, sending.bytes,
    decide_eq_true_eq, true_and]
  constructor
  · rintro ⟨idle, bytes⟩
    refine ⟨idle, ?_⟩
    have whole : frame.encoded ++ [] = registerDoneFrame.encoded ++ [] := by
      rw [bytes]
    exact (Frame.encoded_append_inj sending.deliverable.counts
      registerDoneFrame_deliverable.counts whole).1
  · rintro ⟨idle, same⟩
    exact ⟨idle, by rw [same]⟩

/-- A part of a frame is written. -/
theorem SessionPhase.still {before : BoardHistory} {board : Board}
    {frame : Frame} (phase : before.SessionPhase)
    (sending : before.board.Sending frame) (still : board.Sending frame)
    (same : before.board.SameSession board) (written : List UInt8) :
    SessionPhase { before with board, written } := by
  cases phase with
  | closed shut ended =>
      rcases ended with outside | ⟨_, idle⟩
      · exact .closed shut (.inl (same.isRegistration.trans outside))
      · exact absurd idle (not_idle_of_sending sending)
  | registering opened inside notDone sends =>
      refine .registering opened (same.isRegistration.trans inside)
        (same.regDone.trans notDone) ?_
      rcases sends with idle | ⟨topic, sendsTopic⟩
      · exact absurd idle (not_idle_of_sending sending)
      · rw [sending.unique sendsTopic] at still
        exact .inr ⟨topic, still⟩
  | finishing opened inside done sends =>
      rw [sending.unique sends] at still
      exact .finishing opened (same.isRegistration.trans inside)
        (same.regDone.trans done) still

/-- The last byte of a frame is written; it closes the session if the frame
is the REGISTER_DONE. -/
theorem SessionPhase.finish {before : BoardHistory} {board : Board}
    {frame : Frame} (phase : before.SessionPhase)
    (sending : before.board.Sending frame)
    (completed : before.board.Completed board) (written : List UInt8) :
    SessionPhase
      { board, written
        sessionOpen :=
          before.sessionOpen && !finishesSession before.board board } := by
  have finishes : finishesSession before.board board = true ↔
      board.tx.state = .idle ∧ frame = registerDoneFrame :=
    finishesSession_iff sending
  cases phase with
  | closed shut ended =>
      rcases ended with outside | ⟨_, idle⟩
      · exact .closed (by simp [shut])
          (.inl (completed.isRegistration.trans outside))
      · exact absurd idle (not_idle_of_sending sending)
  | registering opened inside notDone sends =>
      refine .registering ?_ (completed.isRegistration.trans inside)
        (completed.regDone.trans notDone) (.inl completed.idle)
      rcases sends with idle | ⟨topic, sendsTopic⟩
      · exact absurd idle (not_idle_of_sending sending)
      · have notFinished : finishesSession before.board board = false := by
          rw [Bool.eq_false_iff]
          intro finished
          have same := sending.unique sendsTopic
          rw [(finishes.mp finished).2] at same
          exact registrationFrame_ne_registerDone topic same.symm
        simp [opened, notFinished]
  | finishing _ inside done sends =>
      have finished := finishes.mpr ⟨completed.idle, sending.unique sends⟩
      refine .closed ?_ (.inr ⟨completed.regDone.trans done, completed.idle⟩)
      simp [finished]

theorem sessionInvariant_txPoll {before : BoardHistory} {board : Board}
    {bytes : List UInt8} (invariant : before.SessionInvariant)
    (wrote : before.board.TxStep board bytes) :
    SessionInvariant
      { board
        written := before.written ++ bytes
        sessionOpen :=
          before.sessionOpen && !finishesSession before.board board } := by
  have settled := wrote.settled invariant.settled
  cases wrote with
  | quiet idle same _ =>
      have notFinished : finishesSession before.board board = false := by
        simp [finishesSession, idle]
      rw [notFinished, same, Bool.not_false, Bool.and_true]
      refine ⟨invariant.settled, ?_, invariant.answered⟩
      cases invariant.phase with
      | closed shut ended => exact .closed shut ended
      | registering opened inside notDone sends =>
          exact .registering opened inside notDone sends
      | finishing opened inside done sends =>
          exact .finishing opened inside done sends
  | partly frame sending still _ _ same rx =>
      have notFinished : finishesSession before.board board = false := by
        simp [finishesSession, still.state]
      rw [notFinished, Bool.not_false, Bool.and_true]
      refine ⟨settled, invariant.phase.still sending still same _, ?_⟩
      intro done
      rw [rx]
      exact invariant.answered (same.regDone.symm.trans done)
  | finished frame sending _ completed =>
      refine ⟨settled, invariant.phase.finish sending completed _, ?_⟩
      intro done
      rw [completed.rx]
      exact invariant.answered (completed.regDone.symm.trans done)

theorem sessionInvariant_publish {before : BoardHistory} {board : Board}
    {topicId : UInt8} {serialized : SerializeResult} {result : Bool}
    (invariant : before.SessionInvariant)
    (published : before.board.PublishStep topicId serialized (result, board))
    (outside : result = true → before.sessionOpen = false) :
    SessionInvariant { before with board } := by
  have settled := published.settled invariant.settled
  cases published with
  | busy _ same =>
      rw [same]
      exact invariant
  | failed idle _ stillIdle same rx =>
      refine ⟨settled, ?_, ?_⟩
      · cases invariant.phase with
        | closed shut ended =>
            refine .closed shut ?_
            rcases ended with outside | ⟨done, _⟩
            · exact .inl (same.isRegistration.trans outside)
            · exact .inr ⟨same.regDone.trans done, stillIdle⟩
        | registering opened inside notDone _ =>
            exact .registering opened (same.isRegistration.trans inside)
              (same.regDone.trans notDone) (.inl stillIdle)
        | finishing _ _ _ sends =>
            exact absurd idle (not_idle_of_sending sends)
      · intro done
        rw [rx]
        exact invariant.answered (same.regDone.symm.trans done)
  | loaded _ _ _ _ _ notRegistering same rx =>
      refine ⟨settled, .closed (outside rfl) (.inl notRegistering), ?_⟩
      intro done
      rw [rx]
      exact invariant.answered (same.regDone.symm.trans done)

theorem sessionInvariant_step {table : TopicTable}
    {before after : BoardHistory} {event : BoardEvent}
    (invariant : before.SessionInvariant)
    (outside : before.NoDataInSession event)
    (stepped : before.step table event = some after) :
    after.SessionInvariant := by
  cases event with
  | receive frame =>
      obtain ⟨board, accepted, dispatch, accepts, rfl⟩ := step_receive stepped
      exact sessionInvariant_receive invariant dispatch accepts
  | txPoll accepted =>
      obtain ⟨board, bytes, wrote, rfl⟩ :=
        step_txPoll invariant.settled stepped
      exact sessionInvariant_txPoll invariant wrote
  | publish topicId serialized =>
      obtain ⟨result, board, called, published, rfl⟩ := step_publish stepped
      apply sessionInvariant_publish invariant published
      intro returned
      apply outside
      rw [called]
      exact returned

/-- A run keeps its DATA frames out of its sessions exactly when it never
publishes between the REGISTER frames of one. -/
theorem data_outside_sessions (table : TopicTable)
    (events : List BoardEvent) :
    Along (step table) NoDataInSession (initial table) events ↔
      Along (step table) NoPublishBetweenRegisters (initial table) events := by
  refine along_iff ?_ ?_ (sessionInvariant_initial table) events
  · intro history event invariant
    exact noDataInSession_iff event invariant
  · intro before event after invariant outside stepped
    exact sessionInvariant_step invariant outside stepped

/-- The board registers, a new agent discovers it, and the application
publishes before the new agent acknowledges the REGISTER. -/
def publishInSecondSession : List BoardEvent :=
  [.receive discoverFrame, .txPoll 1024, .receive (ackFrame ⟨127, .ok⟩),
    .txPoll 1024, .receive discoverFrame, .txPoll 1024,
    .publish 127 ⟨true, [0x2A], by decide⟩]

instance (history : BoardHistory) :
    ∀ event, Decidable (history.NoDataInSession event)
  | .receive _ => isTrue trivial
  | .txPoll _ => isTrue trivial
  | .publish _ _ => inferInstanceAs (Decidable (_ → _))

theorem data_in_second_session :
    ¬Along (step onePublisher) NoDataInSession (initial onePublisher)
      publishInSecondSession := by
  decide +kernel

end BoardHistory

end NanoRos
