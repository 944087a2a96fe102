import NanoRos.BoardRuns

/-!
# State invariant of the board

The index of the topic being registered has no bound of its own: it is counted
up whenever an ACK is acted on.  What keeps it inside the table is that an ACK
is awaited only for a topic of the table, whose REGISTER is in the buffer or
was the last frame sent.
-/

namespace NanoRos

open Board PartialRun

namespace Board

/-- The topic the session has come to. -/
def currentTopic? (table : TopicTable) (board : Board) : Option NrosTopic :=
  table.topics[board.tx.topicRegistrationIdx.toNat]?

/-- What relates the index, the flags and the transmit buffer in every state
the library can be in. -/
structure RegistrationInvariant (table : TopicTable) (board : Board) :
    Prop where
  settled : board.Settled
  idx_le : board.tx.topicRegistrationIdx.toNat ≤ table.topics.length
  answered : board.tx.sendingRegDoneFrame = true →
    board.rx.awaitingAck = false
  first : board.rx.awaitingAck = true →
    ∃ topic ∈ table.topics[0]?, topic.NamesFit
  awaited : board.rx.awaitingAck = true → board.tx.isRegistration = true →
    ∃ topic, board.currentTopic? table = some topic ∧ topic.NamesFit ∧
      (board.tx.state = .idle ∨ board.Sending (registrationFrame topic))
  outside : board.tx.isRegistration = false → board.tx.state = .idle ∨
    ∃ frame, board.Sending frame ∧
      frame.header.type = NrosPacketType.data.toByte
  closing : board.Sending registerDoneFrame →
    board.tx.sendingRegDoneFrame = true

theorem registrationInvariant_initial (table : TopicTable) :
    (initial table).RegistrationInvariant table where
  settled := initial_settled table
  idx_le := Nat.zero_le _
  answered := nofun
  first := nofun
  awaited := nofun
  outside := fun _ => .inl rfl
  closing := fun sending => by cases sending.state

/-- The index of an awaited topic can be counted up. -/
theorem RegistrationInvariant.idx_succ {table : TopicTable} {board : Board}
    (invariant : board.RegistrationInvariant table)
    (awaiting : board.rx.awaitingAck = true)
    (inside : board.tx.isRegistration = true) :
    board.tx.topicRegistrationIdx.toNat < table.topics.length ∧
      (board.tx.topicRegistrationIdx + 1).toNat =
        board.tx.topicRegistrationIdx.toNat + 1 := by
  obtain ⟨topic, found, _⟩ := invariant.awaited awaiting inside
  have below := (List.getElem?_eq_some_iff.mp found).1
  have limit := table.count_le
  refine ⟨below, ?_⟩
  rw [UInt8.toNat_add, show (1 : UInt8).toNat = 1 from rfl,
    Nat.mod_eq_of_lt (by omega)]

/-- `load_next_registration_frame` returns when it has no topic to read, or
one of the table. -/
theorem load_returns {table : TopicTable} {board : Board}
    (inside : board.tx.sendingRegDoneFrame = true ∨
      board.tx.topicRegistrationIdx.toNat < table.topics.length) :
    ∃ after, loadNextRegistrationFrame table board = .ok after := by
  unfold loadNextRegistrationFrame
  split
  · exact ⟨_, rfl⟩
  next notDone =>
    have below := inside.resolve_left notDone
    rw [List.getElem?_eq_getElem below]
    dsimp only
    split <;> exact ⟨_, rfl⟩

/-- The ACK case reads a topic only inside the table. -/
theorem ack_returns (table : TopicTable) (board : Board) {frame : Frame}
    (ack : frame.header.type = NrosPacketType.ack.toByte) :
    ∃ after, nrosDispatch table board frame = .ok after := by
  simp only [nrosDispatch, ack, NrosPacketType.ofByte?_toByte, dispatchAck]
  split
  · exact ⟨_, rfl⟩
  split
  · exact ⟨_, rfl⟩
  apply load_returns
  simp only [advanceRegistration]
  split
  · exact .inl rfl
  next more => exact .inr (Nat.lt_of_not_le more)

/-- What `load_next_registration_frame` needs to keep the invariant. -/
structure ReadyToLoad (table : TopicTable) (board : Board) : Prop where
  settled : board.Settled
  idx_le : board.tx.topicRegistrationIdx.toNat ≤ table.topics.length
  inside : board.tx.isRegistration = true
  answered : board.tx.sendingRegDoneFrame = true →
    board.rx.awaitingAck = false
  first : board.tx.topicRegistrationIdx.toNat ≠ 0 ∨
    board.rx.awaitingAck = true → ∃ topic ∈ table.topics[0]?, topic.NamesFit
  notAwaited : board.rx.awaitingAck = true →
    board.tx.topicRegistrationIdx.toNat = 0
  closing : board.Sending registerDoneFrame →
    board.tx.sendingRegDoneFrame = true

theorem LoadStep.invariant {table : TopicTable} {before after : Board}
    (step : before.LoadStep table after) (ready : before.ReadyToLoad table) :
    after.RegistrationInvariant table := by
  cases step with
  | done regDone sending start same acks =>
      have notAwaiting : after.rx.awaitingAck = false := by
        rw [acks]
        exact ready.answered regDone
      refine ⟨.of_sending sending, ?_, fun _ => notAwaiting, ?_, ?_, ?_, ?_⟩
      · rw [same.idx]
        exact ready.idx_le
      · simp [notAwaiting]
      · simp [notAwaiting]
      · simp [same.isRegistration, ready.inside]
      · intro _
        rw [same.regDone]
        exact regDone
  | tooLong topic found notDone long same =>
      have notAwaiting : after.rx.awaitingAck = false := by
        rw [same, Bool.eq_false_iff]
        intro awaiting
        have zero := ready.notAwaited awaiting
        obtain ⟨other, found', fit⟩ := ready.first (.inr awaiting)
        rw [zero] at found
        rw [found] at found'
        cases found'
        exact long fit
      refine ⟨same ▸ ready.settled, same ▸ ready.idx_le,
        fun _ => notAwaiting, ?_, ?_, ?_, same ▸ ready.closing⟩
      · simp [notAwaiting]
      · simp [notAwaiting]
      · simp [same, ready.inside]
  | register topic found notDone fit sending start same awaiting =>
      have regDone : after.tx.sendingRegDoneFrame = false :=
        same.regDone.trans notDone
      refine ⟨.of_sending sending, ?_, ?_, ?_, ?_, ?_, ?_⟩
      · rw [same.idx]
        exact ready.idx_le
      · simp [regDone]
      · intro _
        by_cases zero : before.tx.topicRegistrationIdx.toNat = 0
        · rw [zero] at found
          exact ⟨topic, found, fit⟩
        · exact ready.first (.inl zero)
      · intro _ _
        refine ⟨topic, ?_, fit, .inr sending⟩
        rw [currentTopic?, same.idx]
        exact found
      · simp [same.isRegistration, ready.inside]
      · intro done
        have frames := sending.unique done
        exact absurd frames (registrationFrame_ne_registerDone topic)

theorem DispatchStep.invariant {table : TopicTable} {before after : Board}
    {frame : Frame} (step : before.DispatchStep table frame after)
    (invariant : before.RegistrationInvariant table) :
    after.RegistrationInvariant table := by
  cases step with
  | passed _ _ same => exact same ▸ invariant
  | ackIgnored _ _ same => exact same ▸ invariant
  | ackOutside _ _ outside cleared =>
      have same : before.SameTransmission
          { before with rx := { awaitingAck := false } } :=
        ⟨rfl, rfl, rfl, rfl⟩
      rw [cleared]
      refine ⟨same.settled invariant.settled, invariant.idx_le, fun _ => rfl,
        nofun, nofun, fun _ => ?_, ?_⟩
      · refine (invariant.outside outside).imp_right ?_
        rintro ⟨frame, sending, type⟩
        exact ⟨frame, same.sending sending, type⟩
      · intro closing
        have back : Board.SameTransmission
            { before with rx := { awaitingAck := false } } before :=
          ⟨rfl, rfl, rfl, rfl⟩
        exact invariant.closing (back.sending closing)
  | ackTaken _ awaiting inside loaded =>
      have same := advanceRegistration_transmission table before
      obtain ⟨below, next⟩ := invariant.idx_succ awaiting inside
      apply loaded.invariant
      refine ⟨same.settled invariant.settled, ?_, inside, fun _ => rfl,
        fun _ => invariant.first awaiting, nofun, ?_⟩
      · show (before.tx.topicRegistrationIdx + 1).toNat ≤ _
        omega
      · intro closing
        have back : (before.advanceRegistration table).SameTransmission
            before :=
          ⟨rfl, rfl, rfl, rfl⟩
        have regDone := invariant.closing (back.sending closing)
        rw [invariant.answered regDone] at awaiting
        cases awaiting
  | discoverDropped _ _ same => exact same ▸ invariant
  | discoverTaken _ idle loaded =>
      apply loaded.invariant
      refine ⟨.inl idle, Nat.zero_le _, rfl, nofun, ?_, fun _ => rfl, ?_⟩
      · rintro (zero | awaiting)
        · exact absurd rfl zero
        · exact invariant.first awaiting
      · intro closing
        have notIdle := not_idle_of_sending closing
        exact absurd idle notIdle

/-- A call that leaves the index and the ACK flag alone. -/
theorem RegistrationInvariant.carry {table : TopicTable}
    {before after : Board} (invariant : before.RegistrationInvariant table)
    (settled : after.Settled)
    (idx : after.tx.topicRegistrationIdx = before.tx.topicRegistrationIdx)
    (regDone : after.tx.sendingRegDoneFrame = before.tx.sendingRegDoneFrame)
    (rx : after.rx = before.rx)
    (awaited : before.rx.awaitingAck = true →
      after.tx.isRegistration = true →
      ∃ topic, before.currentTopic? table = some topic ∧ topic.NamesFit ∧
        (after.tx.state = .idle ∨ after.Sending (registrationFrame topic)))
    (outside : after.tx.isRegistration = false → after.tx.state = .idle ∨
      ∃ frame, after.Sending frame ∧
        frame.header.type = NrosPacketType.data.toByte)
    (closing : after.Sending registerDoneFrame →
      before.tx.sendingRegDoneFrame = true) :
    after.RegistrationInvariant table := by
  have current : after.currentTopic? table = before.currentTopic? table := by
    rw [currentTopic?, currentTopic?, idx]
  constructor
  · exact settled
  · rw [idx]
    exact invariant.idx_le
  · rw [regDone, rx]
    exact invariant.answered
  · rw [rx]
    exact invariant.first
  · rw [rx, current]
    exact awaited
  · exact outside
  · rw [regDone]
    exact closing

theorem TxStep.invariant {table : TopicTable} {before after : Board}
    {bytes : List UInt8} (step : before.TxStep after bytes)
    (invariant : before.RegistrationInvariant table) :
    after.RegistrationInvariant table := by
  have settled := step.settled invariant.settled
  cases step with
  | quiet _ same _ => exact same ▸ invariant
  | partly frame sending still _ _ same rx =>
      apply invariant.carry settled same.idx same.regDone rx
      · rw [same.isRegistration]
        intro awaiting inside
        obtain ⟨topic, found, fit, sends⟩ :=
          invariant.awaited awaiting inside
        refine ⟨topic, found, fit, .inr ?_⟩
        rcases sends with idle | sendsTopic
        · exact absurd idle (not_idle_of_sending sending)
        · rw [← sending.unique sendsTopic]
          exact still
      · rw [same.isRegistration]
        intro outside
        rcases invariant.outside outside with idle | ⟨other, sends, type⟩
        · exact absurd idle (not_idle_of_sending sending)
        · rw [← sending.unique sends] at type
          exact .inr ⟨frame, still, type⟩
      · intro closing
        apply invariant.closing
        rw [← still.unique closing]
        exact sending
  | finished frame _ _ completed =>
      apply invariant.carry settled completed.idx completed.regDone
        completed.rx
      · rw [completed.isRegistration]
        intro awaiting inside
        obtain ⟨topic, found, fit, _⟩ := invariant.awaited awaiting inside
        exact ⟨topic, found, fit, .inl completed.idle⟩
      · exact fun _ => .inl completed.idle
      · intro closing
        exact absurd completed.idle (not_idle_of_sending closing)

theorem PublishStep.invariant {table : TopicTable} {before after : Board}
    {topicId : UInt8} {serialized : SerializeResult} {result : Bool}
    (step : before.PublishStep topicId serialized (result, after))
    (invariant : before.RegistrationInvariant table) :
    after.RegistrationInvariant table := by
  have settled := step.settled invariant.settled
  cases step with
  | busy _ same => exact same ▸ invariant
  | failed idle _ stillIdle same rx =>
      apply invariant.carry settled same.idx same.regDone rx
      · rw [same.isRegistration]
        intro awaiting inside
        obtain ⟨topic, found, fit, _⟩ := invariant.awaited awaiting inside
        exact ⟨topic, found, fit, .inl stillIdle⟩
      · exact fun _ => .inl stillIdle
      · intro closing
        exact absurd stillIdle (not_idle_of_sending closing)
  | loaded _ _ _ sending _ outside same rx =>
      apply invariant.carry settled same.idx same.regDone rx
      · simp [outside]
      · exact fun _ => .inr ⟨_, sending, rfl⟩
      · intro closing
        exact absurd (sending.unique closing)
          (dataFrame_ne_registerDone topicId serialized.bytes)

end Board

namespace BoardHistory

theorem registrationInvariant_step {table : TopicTable}
    {before after : BoardHistory} {event : BoardEvent}
    (invariant : before.board.RegistrationInvariant table)
    (stepped : before.step table event = some after) :
    after.board.RegistrationInvariant table := by
  cases event with
  | receive frame =>
      obtain ⟨board, accepted, dispatch, _, rfl⟩ := step_receive stepped
      exact dispatch.invariant invariant
  | txPoll accepted =>
      obtain ⟨board, bytes, wrote, rfl⟩ :=
        step_txPoll invariant.settled stepped
      exact wrote.invariant invariant
  | publish topicId serialized =>
      obtain ⟨result, board, _, published, rfl⟩ := step_publish stepped
      exact published.invariant invariant

theorem registrationInvariant_from {table : TopicTable}
    {before after : BoardHistory} {events : List BoardEvent}
    (invariant : before.board.RegistrationInvariant table)
    (run : exec (step table) before events = some after) :
    after.board.RegistrationInvariant table := by
  have kept (before : BoardHistory) (event : BoardEvent)
      (after : BoardHistory)
      (invariant : before.board.RegistrationInvariant table)
      (stepped : before.step table event = some after) :
      after.board.RegistrationInvariant table :=
    registrationInvariant_step invariant stepped
  exact exec_preserved kept invariant run

theorem registrationInvariant_run {table : TopicTable}
    {events : List BoardEvent} {final : BoardHistory}
    (run : exec (step table) (initial table) events = some final) :
    final.board.RegistrationInvariant table :=
  registrationInvariant_from (registrationInvariant_initial table) run

end BoardHistory

end NanoRos
