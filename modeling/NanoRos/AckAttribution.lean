import NanoRos.RegistrationLog

/-!
# Attribution of ACKs

The library does not look at the topic an ACK is for, and it awaits the ACK of
a REGISTER from the moment the frame is loaded.  As long as every ACK it acts
on is for the topic it has come to and finds that topic's REGISTER completely
sent, a session sends and has acknowledged each topic in turn.
-/

namespace NanoRos

open Board PartialRun

namespace RegistrationLog

/-- The bytes of a topic's REGISTER frame. -/
def registrationBytes (topic : NrosTopic) : List UInt8 :=
  (registrationFrame topic).encoded

/-- The index goes past a topic only with an ACK that names the topic, when
the session has handed the topic's REGISTER to the transport; and a
REGISTER_DONE is loaded only when the session has sent every topic and had
every topic acknowledged. -/
structure Attributed (table : TopicTable) (log : RegistrationLog)
    (event : BoardEvent) : Prop where
  advance : ∀ next, log.step table event = some next →
    log.board.tx.topicRegistrationIdx.toNat <
      next.board.tx.topicRegistrationIdx.toNat →
    ∃ frame topic, event = .receive frame ∧
      frame.header.type = NrosPacketType.ack.toByte ∧
      log.board.currentTopic? table = some topic ∧
      frame.header.topicId = topic.topicId ∧
      log.sent[log.board.tx.topicRegistrationIdx.toNat]? =
        some (registrationBytes topic)
  done : ∀ next, log.step table event = some next →
    log.doneLoaded = false → next.doneLoaded = true →
    next.sent = table.topics.map registrationBytes ∧
      next.acked = table.topics.map NrosTopic.topicId

/-- An ACK that is acted on names the topic the session has come to, and does
not find the library sending. -/
def AcksInTurn (table : TopicTable) (log : RegistrationLog) :
    BoardEvent → Prop
  | .receive frame =>
      frame.header.type = NrosPacketType.ack.toByte →
      log.board.rx.awaitingAck = true →
      log.board.tx.isRegistration = true →
        (∃ topic ∈ log.board.currentTopic? table,
          frame.header.topicId = topic.topicId) ∧
          log.board.tx.state = .idle
  | _ => True

/-- What the session has sent and had acknowledged while an ACK is awaited. -/
structure Progress (table : TopicTable) (log : RegistrationLog) : Prop where
  acked : log.board.rx.awaitingAck = true →
    log.board.tx.isRegistration = true →
    log.acked = (table.topics.take
      log.board.tx.topicRegistrationIdx.toNat).map NrosTopic.topicId
  sent : log.board.rx.awaitingAck = true →
    log.board.tx.isRegistration = true →
    log.board.tx.state ≠ .idle ∧
        log.sent = (table.topics.take
          log.board.tx.topicRegistrationIdx.toNat).map registrationBytes ∨
      log.board.tx.state = .idle ∧
        log.sent = (table.topics.take
          (log.board.tx.topicRegistrationIdx.toNat + 1)).map registrationBytes

theorem progress_initial (table : TopicTable) :
    (initial table).Progress table :=
  ⟨nofun, nofun⟩

/-- Without an ACK to await there is nothing to keep. -/
theorem Progress.of_not_awaiting {table : TopicTable}
    {log : RegistrationLog} (notAwaiting : log.board.rx.awaitingAck = false) :
    log.Progress table :=
  ⟨by simp [notAwaiting], by simp [notAwaiting]⟩

theorem Progress.of_outside {table : TopicTable} {log : RegistrationLog}
    (outside : log.board.tx.isRegistration = false) :
    log.Progress table :=
  ⟨by simp [outside], by simp [outside]⟩

/-- The session's next topic after one more ACK. -/
theorem take_succ_map {α : Type*} (items : List NrosTopic)
    (view : NrosTopic → α) {index : Nat} {topic : NrosTopic}
    (found : items[index]? = some topic) :
    (items.take (index + 1)).map view =
      (items.take index).map view ++ [view topic] := by
  rw [List.take_add_one, found, List.map_append]
  rfl

/-! ## What a step does to the progress -/

section Hear

variable {table : TopicTable} {log : RegistrationLog} {frame : Frame}
  {board : Board}

/-- A frame that is no ACK acted on and no DISCOVER accepted. -/
theorem Progress.kept (progress : log.Progress table)
    (dispatched : nrosDispatch table log.board frame = .ok board)
    (other : ¬(frame.header.type = NrosPacketType.discover.toByte ∧
      log.board.tx.state = .idle))
    (notAck : frame.header.type ≠ NrosPacketType.ack.toByte)
    (same : board = log.board) :
    (log.hear table frame board).Progress table := by
  subst same
  rw [hear_of_other dispatched other]
  have ignored : actsOnAck log.board frame = false := by
    simp [actsOnAck, notAck]
  constructor
  · intro awaiting inside
    simp only [ignored, Bool.false_eq_true, if_false]
    exact progress.acked awaiting inside
  · exact progress.sent

/-- The ACK of the topic the session has come to, its REGISTER sent. -/
theorem Progress.acked_next (progress : log.Progress table)
    (dispatched : nrosDispatch table log.board frame = .ok board)
    (turn : log.AcksInTurn table (.receive frame))
    (ack : frame.header.type = NrosPacketType.ack.toByte)
    (awaiting : log.board.rx.awaitingAck = true)
    (inside : log.board.tx.isRegistration = true) :
    (log.hear table frame board).acked = (table.topics.take
        (log.board.tx.topicRegistrationIdx.toNat + 1)).map
          NrosTopic.topicId ∧
      (log.hear table frame board).sent = (table.topics.take
        (log.board.tx.topicRegistrationIdx.toNat + 1)).map
          registrationBytes := by
  obtain ⟨⟨topic, found, named⟩, idle⟩ := turn ack awaiting inside
  have other : ¬(frame.header.type = NrosPacketType.discover.toByte ∧
      log.board.tx.state = .idle) := by
    rw [ack]
    exact fun both => absurd both.1 (by decide)
  have acts : actsOnAck log.board frame = true := by
    simp [actsOnAck, ack, awaiting, inside]
  rw [hear_of_other dispatched other]
  constructor
  · simp only [acts, if_true]
    rw [progress.acked awaiting inside, take_succ_map _ _ found, named]
  · rcases progress.sent awaiting inside with ⟨busy, _⟩ | ⟨_, sent⟩
    · exact absurd idle busy
    · exact sent

/-- A session that awaits nothing after the frame. -/
theorem Progress.hear_quiet (notAwaiting : board.rx.awaitingAck = false) :
    (log.hear table frame board).Progress table := by
  apply Progress.of_not_awaiting
  rw [hear_board]
  exact notAwaiting

theorem Progress.hear_ack (sound : log.Sound table)
    (progress : log.Progress table)
    (turn : log.AcksInTurn table (.receive frame))
    (dispatched : nrosDispatch table log.board frame = .ok board)
    (ack : frame.header.type = NrosPacketType.ack.toByte)
    (awaiting : log.board.rx.awaitingAck = true)
    (inside : log.board.tx.isRegistration = true)
    (loaded : (log.board.advanceRegistration table).LoadStep table board) :
    (log.hear table frame board).Progress table := by
  obtain ⟨acked, sent⟩ :=
    progress.acked_next dispatched turn ack awaiting inside
  have next := (sound.registration.idx_succ awaiting inside).2
  cases loaded with
  | done _ _ _ _ acks =>
      apply Progress.hear_quiet
      rw [acks]
      rfl
  | tooLong _ _ _ _ same =>
      apply Progress.hear_quiet
      rw [same]
      rfl
  | register topic _ _ _ sending _ same _ =>
      have idx : board.tx.topicRegistrationIdx.toNat =
          log.board.tx.topicRegistrationIdx.toNat + 1 := by
        rw [same.idx]
        exact next
      constructor
      · intro _ _
        rw [hear_board, idx]
        exact acked
      · intro _ _
        rw [hear_board, idx]
        exact .inl ⟨not_idle_of_sending sending, sent⟩

theorem Progress.hear_discover (sound : log.Sound table)
    (dispatched : nrosDispatch table log.board frame = .ok board)
    (discover : frame.header.type = NrosPacketType.discover.toByte)
    (idle : log.board.tx.state = .idle)
    (loaded : log.board.startRegistration.LoadStep table board) :
    (log.hear table frame board).Progress table := by
  have registration := (sound.hear dispatched).registration
  rw [hear_board] at registration
  cases loaded with
  | done regDone _ _ _ _ => cases regDone
  | tooLong topic found _ long same =>
      apply Progress.hear_quiet
      rw [Bool.eq_false_iff]
      intro awaiting
      obtain ⟨other, current, fit, _⟩ :=
        registration.awaited awaiting (by rw [same]; rfl)
      rw [currentTopic?, same, found] at current
      cases current
      exact long fit
  | register topic _ _ _ sending _ same _ =>
      have idx : board.tx.topicRegistrationIdx.toNat = 0 := by
        rw [same.idx]
        rfl
      rw [hear_of_accepted dispatched discover idle]
      constructor
      · intro _ _
        simp only [idx, List.take_zero, List.map_nil]
      · intro _ _
        simp only [idx, List.take_zero, List.map_nil]
        exact .inl ⟨not_idle_of_sending sending, trivial⟩

theorem Progress.hear (sound : log.Sound table)
    (progress : log.Progress table)
    (turn : log.AcksInTurn table (.receive frame))
    (dispatched : nrosDispatch table log.board frame = .ok board) :
    (log.hear table frame board).Progress table := by
  cases dispatchStep dispatched with
  | passed notAck notDiscover same =>
      exact progress.kept dispatched (fun both => notDiscover both.1) notAck
        same
  | ackIgnored _ notAwaiting same =>
      apply Progress.hear_quiet
      rw [same]
      exact notAwaiting
  | ackOutside _ _ _ cleared =>
      apply Progress.hear_quiet
      rw [cleared]
  | ackTaken ack awaiting inside loaded =>
      exact progress.hear_ack sound turn dispatched ack awaiting inside loaded
  | discoverDropped discover busy same =>
      apply progress.kept dispatched (fun both => busy both.2) _ same
      rw [discover]
      decide
  | discoverTaken discover idle loaded =>
      exact Progress.hear_discover sound dispatched discover idle loaded

end Hear

theorem Progress.write {table : TopicTable} {log : RegistrationLog}
    {board : Board} {bytes : List UInt8} (sound : log.Sound table)
    (progress : log.Progress table)
    (wrote : log.board.TxStep board bytes) :
    (log.write board bytes).Progress table := by
  cases wrote with
  | quiet idle same nothing =>
      have notSending : ¬(log.board.tx.state = .sendingFrame ∧
          board.tx.state = .idle) := by
        simp [idle]
      rw [RegistrationLog.write, if_neg notSending, same]
      exact ⟨progress.acked, progress.sent⟩
  | partly frame sending still _ _ same rx =>
      have notFinished : ¬(log.board.tx.state = .sendingFrame ∧
          board.tx.state = .idle) := by
        simp [still.state]
      rw [RegistrationLog.write, if_neg notFinished]
      constructor
      · rw [rx, same.isRegistration, same.idx]
        exact progress.acked
      · rw [rx, same.isRegistration, same.idx]
        intro awaiting inside
        rcases progress.sent awaiting inside with ⟨_, sent⟩ | ⟨idle, _⟩
        · exact .inl ⟨not_idle_of_sending still, sent⟩
        · exact absurd idle (not_idle_of_sending sending)
  | finished frame sending whole completed =>
      rw [RegistrationLog.write, if_pos ⟨sending.state, completed.idle⟩]
      constructor
      · rw [completed.rx, completed.isRegistration, completed.idx]
        exact progress.acked
      · rw [completed.rx, completed.isRegistration, completed.idx]
        intro awaiting inside
        have bytesSent : log.current ++ bytes = frame.encoded := by
          rw [sound.current frame sending, whole]
          exact sending.take_append_unsent
        obtain ⟨topic, found, _, sends⟩ :=
          sound.registration.awaited awaiting inside
        have same : frame = registrationFrame topic := by
          rcases sends with idle | sendsTopic
          · exact absurd idle (not_idle_of_sending sending)
          · exact sending.unique sendsTopic
        rcases progress.sent awaiting inside with ⟨_, sent⟩ | ⟨idle, _⟩
        · refine .inr ⟨completed.idle, ?_⟩
          rw [take_succ_map _ _ found, sent, bytesSent, same]
          rfl
        · exact absurd idle (not_idle_of_sending sending)

theorem Progress.publish {table : TopicTable} {log : RegistrationLog}
    {board : Board} {topicId : UInt8} {serialized : SerializeResult}
    {result : Bool} (progress : log.Progress table)
    (published : log.board.PublishStep topicId serialized (result, board)) :
    Progress table { log with
      board, current := if result then [] else log.current } := by
  cases published with
  | busy _ same =>
      rw [same]
      exact ⟨progress.acked, progress.sent⟩
  | failed idle _ stillIdle same rx =>
      constructor
      · rw [rx, same.isRegistration, same.idx]
        exact progress.acked
      · have state : board.tx.state = log.board.tx.state :=
          stillIdle.trans idle.symm
        rw [rx, same.isRegistration, same.idx, state]
        exact progress.sent
  | loaded _ _ _ _ _ outside _ _ => exact .of_outside outside

theorem progress_step {table : TopicTable} {before after : RegistrationLog}
    {event : BoardEvent} (sound : before.Sound table)
    (progress : before.Progress table)
    (turn : before.AcksInTurn table event)
    (stepped : before.step table event = some after) :
    after.Progress table := by
  cases event with
  | receive frame =>
      obtain ⟨board, dispatched, rfl⟩ := step_receive stepped
      exact progress.hear sound turn dispatched
  | txPoll accepted =>
      obtain ⟨board, bytes, wrote, rfl⟩ :=
        step_txPoll sound.registration.settled stepped
      exact progress.write sound wrote
  | publish topicId serialized =>
      obtain ⟨result, board, published, rfl⟩ := step_publish stepped
      exact progress.publish published

/-! ## When ACKs are attributed -/

/-- The index is counted up only by an ACK that is acted on. -/
theorem DispatchStep.advances {table : TopicTable} {before after : Board}
    {frame : Frame} (step : before.DispatchStep table frame after)
    (advance : before.tx.topicRegistrationIdx.toNat <
      after.tx.topicRegistrationIdx.toNat) :
    frame.header.type = NrosPacketType.ack.toByte ∧
      before.rx.awaitingAck = true ∧ before.tx.isRegistration = true := by
  cases step with
  | passed _ _ same => exact absurd (same ▸ advance) (Nat.lt_irrefl _)
  | ackIgnored _ _ same => exact absurd (same ▸ advance) (Nat.lt_irrefl _)
  | ackOutside _ _ _ cleared =>
      rw [cleared] at advance
      exact absurd advance (Nat.lt_irrefl _)
  | ackTaken ack awaiting inside _ => exact ⟨ack, awaiting, inside⟩
  | discoverDropped _ _ same =>
      exact absurd (same ▸ advance) (Nat.lt_irrefl _)
  | discoverTaken _ _ loaded =>
      rw [LoadStep.idx loaded] at advance
      exact absurd advance (Nat.not_lt_zero _)

/-- Only an ACK that is acted on, and that ends the list of topics, makes the
library send a REGISTER_DONE. -/
theorem DispatchStep.closes {table : TopicTable} {before after : Board}
    {frame : Frame} (step : before.DispatchStep table frame after)
    (notClosing : ¬before.Sending registerDoneFrame)
    (closing : after.Sending registerDoneFrame) :
    frame.header.type = NrosPacketType.ack.toByte ∧
      before.rx.awaitingAck = true ∧ before.tx.isRegistration = true ∧
        (before.advanceRegistration table).tx.sendingRegDoneFrame = true := by
  cases step with
  | passed _ _ same => exact absurd (same ▸ closing) notClosing
  | ackIgnored _ _ same => exact absurd (same ▸ closing) notClosing
  | ackOutside _ _ _ cleared =>
      have same : after.SameTransmission before := by
        rw [cleared]
        exact ⟨rfl, rfl, rfl, rfl⟩
      exact absurd (same.sending closing) notClosing
  | ackTaken ack awaiting inside loaded =>
      refine ⟨ack, awaiting, inside, ?_⟩
      cases loaded with
      | done regDone _ _ _ _ => exact regDone
      | tooLong _ _ _ _ same =>
          have back : after.SameTransmission before := by
            rw [same]
            exact ⟨rfl, rfl, rfl, rfl⟩
          exact absurd (back.sending closing) notClosing
      | register topic _ _ _ sending _ _ _ =>
          exact absurd (sending.unique closing)
            (registrationFrame_ne_registerDone topic)
  | discoverDropped _ _ same => exact absurd (same ▸ closing) notClosing
  | discoverTaken _ idle loaded =>
      cases loaded with
      | done regDone _ _ _ _ => cases regDone
      | tooLong _ _ _ _ same =>
          rw [same] at closing
          have notIdle := not_idle_of_sending closing
          exact absurd idle notIdle
      | register topic _ _ _ sending _ _ _ =>
          exact absurd (sending.unique closing)
            (registrationFrame_ne_registerDone topic)

theorem advance_of_inTurn {table : TopicTable} {log next : RegistrationLog}
    {event : BoardEvent} (sound : log.Sound table)
    (progress : log.Progress table) (turn : log.AcksInTurn table event)
    (stepped : log.step table event = some next)
    (advance : log.board.tx.topicRegistrationIdx.toNat <
      next.board.tx.topicRegistrationIdx.toNat) :
    ∃ frame topic, event = .receive frame ∧
      frame.header.type = NrosPacketType.ack.toByte ∧
      log.board.currentTopic? table = some topic ∧
      frame.header.topicId = topic.topicId ∧
      log.sent[log.board.tx.topicRegistrationIdx.toNat]? =
        some (registrationBytes topic) := by
  cases event with
  | receive frame =>
      obtain ⟨board, dispatched, rfl⟩ := step_receive stepped
      rw [hear_board] at advance
      obtain ⟨ack, awaiting, inside⟩ :=
        DispatchStep.advances (dispatchStep dispatched) advance
      obtain ⟨⟨topic, found, named⟩, idle⟩ := turn ack awaiting inside
      refine ⟨frame, topic, rfl, ack, found, named, ?_⟩
      rcases progress.sent awaiting inside with ⟨busy, _⟩ | ⟨_, sent⟩
      · exact absurd idle busy
      · have found' : table.topics[
            log.board.tx.topicRegistrationIdx.toNat]? = some topic := found
        rw [sent, List.getElem?_map, List.getElem?_take,
          if_pos (Nat.lt_succ_self _), found']
        rfl
  | txPoll accepted =>
      obtain ⟨board, bytes, wrote, rfl⟩ :=
        step_txPoll sound.registration.settled stepped
      rw [write_board, TxStep.idx wrote] at advance
      exact absurd advance (Nat.lt_irrefl _)
  | publish topicId serialized =>
      obtain ⟨result, board, published, rfl⟩ := step_publish stepped
      rw [PublishStep.idx published] at advance
      exact absurd advance (Nat.lt_irrefl _)

theorem done_of_inTurn {table : TopicTable} {log next : RegistrationLog}
    {event : BoardEvent} (sound : log.Sound table)
    (progress : log.Progress table) (turn : log.AcksInTurn table event)
    (stepped : log.step table event = some next)
    (notYet : log.doneLoaded = false) (done : next.doneLoaded = true) :
    next.sent = table.topics.map registrationBytes ∧
      next.acked = table.topics.map NrosTopic.topicId := by
  cases event with
  | receive frame =>
      obtain ⟨board, dispatched, rfl⟩ := step_receive stepped
      have after := sound.hear dispatched
      have dispatch := dispatchStep dispatched
      have settled := after.registration.settled
      rw [hear_board] at settled
      have notClosing : ¬log.board.Sending registerDoneFrame := by
        intro closing
        rw [sound.loaded closing] at notYet
        cases notYet
      have closing : board.Sending registerDoneFrame := by
        apply (holdsRegisterDone_iff settled).mp
        by_cases accepted :
            frame.header.type = NrosPacketType.discover.toByte ∧
              log.board.tx.state = .idle
        · rwa [hear_of_accepted dispatched accepted.1 accepted.2] at done
        · rw [hear_of_other dispatched accepted] at done
          simpa [notYet] using done
      obtain ⟨ack, awaiting, inside, regDone⟩ :=
        DispatchStep.closes dispatch notClosing closing
      obtain ⟨acked, sent⟩ :=
        progress.acked_next dispatched turn ack awaiting inside
      have next := (sound.registration.idx_succ awaiting inside).2
      have last : table.topics.length ≤
          log.board.tx.topicRegistrationIdx.toNat + 1 := by
        rw [← next]
        by_contra more
        have open_ : log.board.tx.sendingRegDoneFrame = true := by
          simp only [advanceRegistration, ge_iff_le, if_neg more] at regDone
          exact regDone
        rw [sound.registration.answered open_] at awaiting
        cases awaiting
      rw [List.take_of_length_le last] at acked sent
      exact ⟨sent, acked⟩
  | txPoll accepted =>
      obtain ⟨board, bytes, _, rfl⟩ :=
        step_txPoll sound.registration.settled stepped
      have same : (log.write board bytes).doneLoaded = log.doneLoaded := by
        unfold RegistrationLog.write
        split <;> rfl
      rw [same, notYet] at done
      cases done
  | publish topicId serialized =>
      obtain ⟨result, board, _, rfl⟩ := step_publish stepped
      rw [notYet] at done
      cases done

theorem attributed_iff {table : TopicTable} {log : RegistrationLog}
    (event : BoardEvent) (sound : log.Sound table)
    (progress : log.Progress table) :
    log.Attributed table event ↔ log.AcksInTurn table event := by
  constructor
  · intro attributed
    cases event with
    | txPoll accepted => trivial
    | publish topicId serialized => trivial
    | receive frame =>
        intro ack awaiting inside
        obtain ⟨board, dispatched⟩ := ack_returns table log.board ack
        have stepped : log.step table (.receive frame) =
            some (log.hear table frame board) := by
          simp only [step, dispatched]
        obtain ⟨below, next⟩ := sound.registration.idx_succ awaiting inside
        have loaded := DispatchStep.taken (dispatchStep dispatched) ack
          awaiting inside
        have idx : board.tx.topicRegistrationIdx.toNat =
            log.board.tx.topicRegistrationIdx.toNat + 1 := by
          rw [LoadStep.idx loaded]
          exact next
        obtain ⟨_, topic, same, _, found, named, sent⟩ :=
          attributed.advance _ stepped (by
            rw [hear_board, idx]
            exact Nat.lt_succ_self _)
        cases same
        refine ⟨⟨topic, found, named⟩, ?_⟩
        rcases progress.sent awaiting inside with ⟨_, sentBefore⟩ | ⟨idle, _⟩
        · rw [sentBefore, List.getElem?_map, List.getElem?_take,
            if_neg (Nat.lt_irrefl _)] at sent
          cases sent
        · exact idle
  · intro turn
    exact ⟨fun _ stepped => advance_of_inTurn sound progress turn stepped,
      fun _ stepped => done_of_inTurn sound progress turn stepped⟩

theorem along_attributed_iff {table : TopicTable} {log : RegistrationLog}
    (sound : log.Sound table) (progress : log.Progress table)
    (events : List BoardEvent) :
    Along (step table) (Attributed table) log events ↔
      Along (step table) (AcksInTurn table) log events := by
  have agree (log : RegistrationLog) (event : BoardEvent)
      (kept : log.Sound table ∧ log.Progress table) :
      log.Attributed table event ↔ log.AcksInTurn table event :=
    attributed_iff event kept.1 kept.2
  refine along_iff agree ?_ ⟨sound, progress⟩ events
  intro log event next kept attributed stepped
  have turn := (agree log event kept).mp attributed
  exact ⟨sound_step kept.1 stepped,
    progress_step kept.1 kept.2 turn stepped⟩

/-- In every run: each step attributes its ACK if and only if each ACK that is
acted on names the topic the session has come to and finds its REGISTER
completely sent. -/
theorem acks_attributed_iff (table : TopicTable)
    (events : List BoardEvent) :
    Along (step table) (Attributed table) (initial table) events ↔
      Along (step table) (AcksInTurn table) (initial table) events :=
  along_attributed_iff (sound_initial table) (progress_initial table) events

instance (table : TopicTable) (log : RegistrationLog) :
    ∀ event, Decidable (log.AcksInTurn table event)
  | .receive _ => inferInstanceAs (Decidable (_ → _))
  | .txPoll _ => isTrue trivial
  | .publish _ _ => isTrue trivial

/-- A publisher and a subscriber. -/
def publisherAndSubscriber : TopicTable where
  topics :=
    [{ qos := 0
       topicId := 127
       topicName := [0x2F, 0x74]
       topicType := [0x73, 0x2F, 0x54]
       cb := none },
      { qos := 0
        topicId := 3
        topicName := [0x2F, 0x75]
        topicType := [0x73, 0x2F, 0x55]
        cb := some 1 }]
  count_le := by decide

/-- The ACK of the first topic arrives twice. -/
def duplicateAck : List BoardEvent :=
  [.receive discoverFrame, .txPoll 1024, .receive (ackFrame ⟨127, .ok⟩),
    .txPoll 1024, .receive (ackFrame ⟨127, .ok⟩)]

/-- The second ACK of topic 127 is taken for the one of topic 3. -/
theorem not_acks_attributed :
    ¬Along (step publisherAndSubscriber) (Attributed publisherAndSubscriber)
      (initial publisherAndSubscriber) duplicateAck := by
  intro attributed
  have inTurn := (along_attributed_iff (sound_initial _)
    (progress_initial _) duplicateAck).mp attributed
  exact absurd inTurn (by decide +kernel)

end RegistrationLog

end NanoRos
