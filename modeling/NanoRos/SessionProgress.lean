import NanoRos.BoardInvariant

/-!
# Progress of a session

Whether a DISCOVER starts a session, and whether an ACK makes one go on.
`tx_poll` never loads a frame, so what a call does not load is not loaded
later either.
-/

namespace NanoRos

open Board PartialRun

namespace Board

/-- The library after some calls of `tx_poll`. -/
def polled (board : Board) (polls : List Nat) : Board :=
  polls.foldl (fun board accepted => (board.txPoll accepted).1) board

/-- A frame whose bytes are all unsent is not begun. -/
theorem Sending.start_of_unsent {board : Board} {frame : Frame}
    (sending : board.Sending frame) (whole : frame.encoded <:+ board.unsent) :
    board.tx.bytesSent = 0 := by
  have joined := congrArg List.length sending.take_append_unsent
  have long := whole.length_le
  have inside := congrArg List.length sending.bytes
  have unfinished := sending.unfinished
  rw [List.length_append, Buffer.length_take] at joined
  rw [Buffer.length_take] at inside
  rw [sending.length] at unfinished
  omega

/-- What is being sent after some calls of `tx_poll` was being sent before
them, and none of it is sent if none is now. -/
theorem polled_sending {board : Board} (settled : board.Settled)
    (polls : List Nat) {frame : Frame}
    (sends : (board.polled polls).Sending frame) :
    board.Sending frame ∧ board.SameSession (board.polled polls) ∧
      ((board.polled polls).tx.bytesSent = 0 → board.tx.bytesSent = 0) := by
  induction polls generalizing board with
  | nil => exact ⟨sends, ⟨rfl, rfl, rfl, rfl, rfl, rfl⟩, id⟩
  | cons accepted polls induction =>
      have step := txStep settled accepted
      obtain ⟨sending, later, start⟩ :=
        induction (step.settled settled) sends
      cases step with
      | quiet idle same _ =>
          rw [same] at sending
          exact absurd idle (not_idle_of_sending sending)
      | partly other sendingOther still _ split same _ =>
          have frames := still.unique sending
          subst frames
          refine ⟨sendingOther, ?_, ?_⟩
          · exact ⟨later.idx.trans same.idx,
              later.isRegistration.trans same.isRegistration,
              later.regDone.trans same.regDone,
              later.complete.trans same.complete,
              later.topicMap.trans same.topicMap,
              later.parser.trans same.parser⟩
          · intro zero
            apply sendingOther.start_of_unsent
            rw [split, still.unsent_eq (start zero)]
            exact List.suffix_append _ _
      | finished _ _ _ completed =>
          exact absurd completed.idle (not_idle_of_sending sending)

/-! ## A DISCOVER -/

/-- A session was started: its variables are those of a new one, and the
REGISTER of the first topic is loaded, with nothing of it sent. -/
structure Restarted (table : TopicTable) (board : Board) : Prop where
  isRegistration : board.tx.isRegistration = true
  idx : board.tx.topicRegistrationIdx = 0
  regDone : board.tx.sendingRegDoneFrame = false
  loaded : ∃ topic ∈ table.topics[0]?,
    board.Sending (registrationFrame topic) ∧ board.tx.bytesSent = 0

/-- The session is started at once, or when the frame that is being sent is
complete. -/
def RestartsAfter (table : TopicTable) (board : Board) : Prop :=
  ∃ polls, (board.polled polls).Restarted table

theorem restartsAfter_iff {table : TopicTable} {board : Board}
    (settled : board.Settled) :
    board.RestartsAfter table ↔ board.Restarted table := by
  constructor
  · rintro ⟨polls, restarted⟩
    obtain ⟨topic, first, sends, start⟩ := restarted.loaded
    obtain ⟨sending, same, begins⟩ := polled_sending settled polls sends
    constructor
    · rw [← same.isRegistration]
      exact restarted.isRegistration
    · rw [← same.idx]
      exact restarted.idx
    · rw [← same.regDone]
      exact restarted.regDone
    · exact ⟨topic, first, sending, begins start⟩
  · intro restarted
    exact ⟨[], restarted⟩

/-- Loading a frame at the start of a session. -/
theorem LoadStep.restarted_iff {table : TopicTable} {board after : Board}
    (idle : board.tx.state = .idle)
    (step : board.startRegistration.LoadStep table after) :
    after.Restarted table ↔ ∃ topic ∈ table.topics[0]?, topic.NamesFit := by
  cases step with
  | done regDone _ _ _ _ => cases regDone
  | tooLong topic found _ long same =>
      have first : table.topics[0]? = some topic := found
      constructor
      · intro restarted
        obtain ⟨_, _, sending, _⟩ := restarted.loaded
        rw [same] at sending
        have notIdle := not_idle_of_sending sending
        exact absurd idle notIdle
      · rintro ⟨other, found', fit⟩
        rw [first] at found'
        cases found'
        exact absurd fit long
  | register topic found notDone fit sending start same _ =>
      have first : table.topics[0]? = some topic := found
      constructor
      · intro _
        exact ⟨topic, first, fit⟩
      · intro _
        exact ⟨same.isRegistration, same.idx, same.regDone,
          topic, first, sending, start⟩

/-- A DISCOVER is dropped by a library that is sending, whatever it sends. -/
theorem discover_busy {table : TopicTable} {board : Board} {frame : Frame}
    (discover : frame.header.type = NrosPacketType.discover.toByte)
    (busy : board.tx.state ≠ .idle) :
    nrosDispatch table board frame = .ok board := by
  simp only [nrosDispatch, discover, NrosPacketType.ofByte?_toByte,
    registerTopicsStart, if_pos busy]

theorem discover_iff {table : TopicTable} {board : Board} {frame : Frame}
    (settled : board.Settled)
    (discover : frame.header.type = NrosPacketType.discover.toByte) :
    (∃ after, nrosDispatch table board frame = .ok after ∧
        after.RestartsAfter table) ↔
      (board.tx.state = .idle ∧ ∃ topic ∈ table.topics[0]?, topic.NamesFit) ∨
        board.Restarted table := by
  by_cases idle : board.tx.state = .idle
  · have notRestarted : ¬board.Restarted table := by
      intro restarted
      obtain ⟨_, _, sending, _⟩ := restarted.loaded
      exact not_idle_of_sending sending idle
    have dispatch : nrosDispatch table board frame =
        loadNextRegistrationFrame table board.startRegistration := by
      simp only [nrosDispatch, discover, NrosPacketType.ofByte?_toByte,
        registerTopicsStart, idle, ne_eq, not_true, if_false]
      cases loadNextRegistrationFrame table board.startRegistration <;> rfl
    rw [dispatch, or_iff_left notRestarted, and_iff_right idle]
    constructor
    · rintro ⟨after, loaded, restarts⟩
      have step := loadStep loaded
      rw [restartsAfter_iff (step.settled (.inl idle))] at restarts
      exact (LoadStep.restarted_iff idle step).mp restarts
    · intro fits
      have first := fits
      obtain ⟨topic, found, _⟩ := first
      have below := (List.getElem?_eq_some_iff.mp found).1
      have returns : ∃ after, loadNextRegistrationFrame table
          board.startRegistration = .ok after :=
        load_returns (.inr below)
      obtain ⟨after, loaded⟩ := returns
      have step := loadStep loaded
      refine ⟨after, loaded, ?_⟩
      rw [restartsAfter_iff (step.settled (.inl idle))]
      exact (LoadStep.restarted_iff idle step).mpr fits
  · rw [discover_busy discover idle]
    have dropped : ¬(board.tx.state = .idle ∧
        ∃ topic ∈ table.topics[0]?, topic.NamesFit) :=
      fun both => idle both.1
    rw [or_iff_right dropped]
    constructor
    · rintro ⟨after, same, restarts⟩
      cases same
      exact (restartsAfter_iff settled).mp restarts
    · intro restarted
      exact ⟨board, rfl, (restartsAfter_iff settled).mpr restarted⟩

/-! ## An ACK -/

/-- The frame that comes after the REGISTER of the topic at `index`. -/
def followingFrame (table : TopicTable) (index : Nat) : Frame :=
  match table.topics[index + 1]? with
  | some topic => registrationFrame topic
  | none => registerDoneFrame

/-- The frame after the REGISTER of the topic at `index` is loaded, with
nothing of it sent: at once, or when the frame that is being sent is
complete. -/
def GoesOn (table : TopicTable) (index : Nat) (board : Board) : Prop :=
  ∃ polls, (board.polled polls).Sending (followingFrame table index) ∧
    (board.polled polls).tx.bytesSent = 0

/-- The ACK of the topic at `idx` is awaited, in a session that is `marked` as
a registration or no longer. -/
structure AwaitsAck (idx : UInt8) (complete marked : Bool) (board : Board) :
    Prop where
  settled : board.Settled
  awaiting : board.rx.awaitingAck = true
  index : board.tx.topicRegistrationIdx = idx
  regDone : board.tx.sendingRegDoneFrame = false
  completeness : board.registrationComplete = complete
  mark : board.tx.isRegistration = marked
  idle : marked = true → board.tx.state = .idle

theorem followingFrame_not_data (table : TopicTable) (index : Nat) :
    (followingFrame table index).header.type ≠
      NrosPacketType.data.toByte := by
  unfold followingFrame
  split
  · exact (by decide : NrosPacketType.register.toByte ≠
      NrosPacketType.data.toByte)
  · exact (by decide : NrosPacketType.registerDone.toByte ≠
      NrosPacketType.data.toByte)

/-- A library that is idle, or sends a DATA frame, has loaded nothing that a
session could go on with. -/
theorem not_goesOn {table : TopicTable} {index : Nat} {board : Board}
    (quiet : board.tx.state = .idle ∨ ∃ frame, board.Sending frame ∧
      frame.header.type = NrosPacketType.data.toByte) :
    ¬board.GoesOn table index := by
  rintro ⟨polls, sends, _⟩
  have settled : board.Settled :=
    quiet.imp_right fun ⟨frame, sending, _⟩ => ⟨frame, sending⟩
  have sending := (polled_sending settled polls sends).1
  rcases quiet with idle | ⟨frame, sendsData, type⟩
  · exact not_idle_of_sending sending idle
  · rw [sendsData.unique sending] at type
    exact followingFrame_not_data table index type

/-- An awaited ACK, with nothing being sent in the session. -/
theorem LoadStep.goesOn_iff {table : TopicTable} {board after : Board}
    (idle : board.tx.state = .idle)
    (regDone : board.tx.sendingRegDoneFrame = false)
    (next : (board.tx.topicRegistrationIdx + 1).toNat =
      board.tx.topicRegistrationIdx.toNat + 1)
    (step : (board.advanceRegistration table).LoadStep table after) :
    after.GoesOn table board.tx.topicRegistrationIdx.toNat ↔
      ∀ topic ∈ table.topics[board.tx.topicRegistrationIdx.toNat + 1]?,
        topic.NamesFit := by
  have idx : (board.advanceRegistration table).tx.topicRegistrationIdx.toNat =
      board.tx.topicRegistrationIdx.toNat + 1 := next
  cases step with
  | done closing sending start _ _ =>
      have last : table.topics[board.tx.topicRegistrationIdx.toNat + 1]? =
          none := by
        rw [List.getElem?_eq_none_iff, ← next]
        by_contra more
        simp only [advanceRegistration, regDone, if_neg more] at closing
        cases closing
      constructor
      · simp [last]
      · intro _
        refine ⟨[], ?_, start⟩
        simp only [followingFrame, last]
        exact sending
  | tooLong topic found _ long same =>
      rw [idx] at found
      have notLoaded : ¬after.GoesOn table
          board.tx.topicRegistrationIdx.toNat := by
        rw [same]
        exact not_goesOn (.inl idle)
      constructor
      · intro goesOn
        exact absurd goesOn notLoaded
      · intro fit
        exact absurd (fit topic found) long
  | register topic found _ fit sending start _ _ =>
      rw [idx] at found
      constructor
      · intro _ other found'
        rw [found] at found'
        cases found'
        exact fit
      · intro _
        refine ⟨[], ?_, start⟩
        simp only [followingFrame, found]
        exact sending

theorem AwaitsAck.keep {before after : Board} {idx : UInt8}
    {complete marked : Bool} (awaits : before.AwaitsAck idx complete marked)
    (settled : after.Settled) (same : before.SameSession after)
    (rx : after.rx = before.rx)
    (idle : marked = true → after.tx.state = .idle) :
    after.AwaitsAck idx complete marked where
  settled := settled
  awaiting := rx ▸ awaits.awaiting
  index := same.idx.trans awaits.index
  regDone := same.regDone.trans awaits.regDone
  completeness := same.complete.trans awaits.completeness
  mark := same.isRegistration.trans awaits.mark
  idle := idle

theorem AwaitsAck.write {before after : Board} {bytes : List UInt8}
    {idx : UInt8} {complete marked : Bool}
    (awaits : before.AwaitsAck idx complete marked)
    (wrote : before.TxStep after bytes) :
    after.AwaitsAck idx complete marked := by
  have settled := wrote.settled awaits.settled
  cases wrote with
  | quiet _ same _ => exact same ▸ awaits
  | partly _ sending _ _ _ same rx =>
      apply awaits.keep settled same rx
      intro marks
      exact absurd (awaits.idle marks) (not_idle_of_sending sending)
  | finished _ _ _ completed =>
      refine ⟨settled, ?_, completed.idx.trans awaits.index,
        completed.regDone.trans awaits.regDone, ?_,
        completed.isRegistration.trans awaits.mark, fun _ => completed.idle⟩
      · rw [completed.rx]
        exact awaits.awaiting
      · rw [completed.complete, awaits.regDone, Bool.and_false,
          Bool.or_false]
        exact awaits.completeness

/-- A publish that gets through takes the mark off the session. -/
theorem AwaitsAck.publish {before after : Board} {topicId : UInt8}
    {serialized : SerializeResult} {result : Bool} {idx : UInt8}
    {complete marked : Bool} (awaits : before.AwaitsAck idx complete marked)
    (published : before.PublishStep topicId serialized (result, after)) :
    after.AwaitsAck idx complete
      (marked && !(complete && serialized.Fits)) := by
  have settled := published.settled awaits.settled
  cases published with
  | busy closed same =>
      have kept : (marked && !(complete && serialized.Fits)) = marked := by
        cases marks : marked with
        | false => rfl
        | true =>
            have refused := closed.resolve_left
              (not_not.mpr (awaits.idle marks))
            rw [awaits.completeness] at refused
            simp [refused]
      rw [kept]
      exact same ▸ awaits
  | failed _ unfit stillIdle same rx =>
      rw [decide_eq_false unfit, Bool.and_false, Bool.not_false,
        Bool.and_true]
      exact awaits.keep settled same rx fun _ => stillIdle
  | loaded _ opened fits _ _ outside same rx =>
      have accepted : complete = true := by
        rw [← awaits.completeness]
        exact opened
      rw [decide_eq_true fits, accepted, Bool.and_self, Bool.not_true,
        Bool.and_false]
      refine ⟨settled, ?_, same.idx.trans awaits.index,
        same.regDone.trans awaits.regDone, same.complete.trans opened,
        outside, nofun⟩
      rw [rx]
      exact awaits.awaiting

end Board

namespace BoardHistory

/-- A call of `nros_publish` whose message is serialized and fits a frame. -/
def fittingPublish : BoardEvent → Bool
  | .publish _ serialized => serialized.Fits
  | _ => false

/-- The event is no ACK, and no DISCOVER that starts a session. -/
def Quiet (history : BoardHistory) : BoardEvent → Prop
  | .receive frame =>
      frame.header.type ≠ NrosPacketType.ack.toByte ∧
        (frame.header.type = NrosPacketType.discover.toByte →
          history.board.tx.state ≠ .idle)
  | _ => True

/-- Only a publish takes the mark off the session. -/
theorem awaitsAck_step {table : TopicTable} {before after : BoardHistory}
    {event : BoardEvent} {idx : UInt8} {complete marked : Bool}
    (awaits : before.board.AwaitsAck idx complete marked)
    (quiet : before.Quiet event)
    (stepped : before.step table event = some after) :
    after.board.AwaitsAck idx complete
      (marked && !(complete && fittingPublish event)) := by
  cases event with
  | receive frame =>
      obtain ⟨board, accepted, dispatch, _, rfl⟩ := step_receive stepped
      have same : board = before.board := by
        cases dispatch with
        | passed _ _ same => exact same
        | ackIgnored ack _ _ => exact absurd ack quiet.1
        | ackOutside ack _ _ _ => exact absurd ack quiet.1
        | ackTaken ack _ _ _ => exact absurd ack quiet.1
        | discoverDropped _ _ same => exact same
        | discoverTaken discover idle _ =>
            exact absurd idle (quiet.2 discover)
      simpa [fittingPublish, same] using awaits
  | txPoll accepted =>
      obtain ⟨board, bytes, wrote, rfl⟩ := step_txPoll awaits.settled stepped
      simp only [fittingPublish, Bool.and_false, Bool.not_false,
        Bool.and_true]
      exact awaits.write wrote
  | publish topicId serialized =>
      obtain ⟨result, board, _, published, rfl⟩ := step_publish stepped
      exact awaits.publish published

theorem awaitsAck_run {table : TopicTable} {before after : BoardHistory}
    {events : List BoardEvent} {idx : UInt8} {complete : Bool}
    (awaits : before.board.AwaitsAck idx complete true)
    (quiet : Along (step table) Quiet before events)
    (run : exec (step table) before events = some after) :
    after.board.AwaitsAck idx complete
      !(complete && events.any fittingPublish) := by
  have kept (past : List BoardEvent) (before : BoardHistory)
      (event : BoardEvent) (after : BoardHistory)
      (awaits : before.board.AwaitsAck idx complete
        !(complete && past.any fittingPublish))
      (quiet : before.Quiet event)
      (stepped : before.step table event = some after) :
      after.board.AwaitsAck idx complete
        !(complete && (past ++ [event]).any fittingPublish) := by
    have joined : (!(complete && (past ++ [event]).any fittingPublish)) =
        (!(complete && past.any fittingPublish) &&
          !(complete && fittingPublish event)) := by
      cases complete <;> simp
    rw [joined]
    exact awaitsAck_step awaits quiet stepped
  have start : before.board.AwaitsAck idx complete
      !(complete && ([] : List BoardEvent).any fittingPublish) := by
    rw [List.any_nil, Bool.and_false, Bool.not_false]
    exact awaits
  exact exec_trace kept [] start quiet run

/-- The transport takes the last byte of the REGISTER of the topic the session
has come to.  An ACK that had come since the REGISTER was loaded would have
cleared the flag. -/
structure RegisterSent (table : TopicTable) (topic : NrosTopic)
    (before after : BoardHistory) : Prop where
  current : before.board.currentTopic? table = some topic
  sending : before.board.Sending (registrationFrame topic)
  awaiting : before.board.rx.awaitingAck = true
  idle : after.board.tx.state = .idle

theorem RegisterSent.awaitsAck {table : TopicTable} {topic : NrosTopic}
    {before sent : BoardHistory} {accepted : Nat}
    (invariant : before.board.RegistrationInvariant table)
    (written : before.step table (.txPoll accepted) = some sent)
    (register : RegisterSent table topic before sent) :
    before.board.tx.isRegistration = true ∧
      sent.board.AwaitsAck before.board.tx.topicRegistrationIdx
        sent.board.registrationComplete true := by
  have inside : before.board.tx.isRegistration = true := by
    by_contra outside
    rw [Bool.not_eq_true] at outside
    rcases invariant.outside outside with idle | ⟨frame, sends, type⟩
    · exact not_idle_of_sending register.sending idle
    · rw [sends.unique register.sending] at type
      exact absurd type (by decide : NrosPacketType.register.toByte ≠
        NrosPacketType.data.toByte)
  have notDone : before.board.tx.sendingRegDoneFrame = false := by
    rw [Bool.eq_false_iff]
    intro regDone
    have answered := invariant.answered regDone
    rw [register.awaiting] at answered
    cases answered
  refine ⟨inside, ?_⟩
  obtain ⟨board, bytes, wrote, rfl⟩ := step_txPoll invariant.settled written
  have idle := register.idle
  cases wrote with
  | quiet idleBefore _ _ =>
      exact absurd idleBefore (not_idle_of_sending register.sending)
  | partly _ _ still _ _ _ _ =>
      exact absurd idle (not_idle_of_sending still)
  | finished _ _ _ completed =>
      refine ⟨.inl idle, ?_, completed.idx, completed.regDone.trans notDone,
        rfl, completed.isRegistration.trans inside, fun _ => idle⟩
      rw [completed.rx]
      exact register.awaiting

/-- A `tx_poll` that ends a frame while an ACK is awaited ends a REGISTER. -/
theorem registerSent_of_awaited {table : TopicTable}
    {before sent : BoardHistory}
    (invariant : before.board.RegistrationInvariant table)
    (awaiting : before.board.rx.awaitingAck = true)
    (inside : before.board.tx.isRegistration = true)
    (busy : before.board.tx.state ≠ .idle)
    (idle : sent.board.tx.state = .idle) :
    ∃ topic, RegisterSent table topic before sent := by
  obtain ⟨topic, current, _, sends⟩ := invariant.awaited awaiting inside
  have sending := sends.resolve_left busy
  exact ⟨topic, current, sending, awaiting, idle⟩

/-- An ACK makes a session go on that is still marked as a registration, if
the next topic can be loaded. -/
theorem goesOn_iff_of_awaits {table : TopicTable} {board : Board}
    {idx : UInt8} {complete marked : Bool} {frame : Frame}
    (invariant : board.RegistrationInvariant table)
    (awaits : board.AwaitsAck idx complete marked)
    (ack : frame.header.type = NrosPacketType.ack.toByte) :
    (∃ after, nrosDispatch table board frame = .ok after ∧
        after.GoesOn table idx.toNat) ↔
      marked = true ∧ ∀ next ∈ table.topics[idx.toNat + 1]?,
        next.NamesFit := by
  obtain ⟨board', dispatched⟩ := ack_returns table board ack
  have dispatch := dispatchStep dispatched
  have only : (∃ after, nrosDispatch table board frame = .ok after ∧
      after.GoesOn table idx.toNat) ↔ board'.GoesOn table idx.toNat := by
    rw [dispatched]
    constructor
    · rintro ⟨after, same, goesOn⟩
      cases same
      exact goesOn
    · intro goesOn
      exact ⟨board', rfl, goesOn⟩
  rw [only]
  cases marks : marked with
  | true =>
      have inside := awaits.mark.trans marks
      have loaded := dispatch.taken ack awaits.awaiting inside
      have next := (invariant.idx_succ awaits.awaiting inside).2
      rw [← awaits.index, LoadStep.goesOn_iff (awaits.idle marks)
        awaits.regDone next loaded]
      simp
  | false =>
      have outside := awaits.mark.trans marks
      have quiet := (dispatch.invariant invariant).outside
      have stillOutside : board'.tx.isRegistration = false := by
        cases dispatch with
        | passed notAck _ _ => exact absurd ack notAck
        | ackIgnored _ _ same => exact same ▸ outside
        | ackOutside _ _ _ cleared => exact cleared ▸ outside
        | ackTaken _ _ inside _ =>
            rw [outside] at inside
            cases inside
        | discoverDropped _ _ same => exact same ▸ outside
        | discoverTaken discover _ _ =>
            rw [ack] at discover
            exact absurd discover (by decide)
      have dropped : ¬board'.GoesOn table idx.toNat :=
        not_goesOn (quiet stillOutside)
      simp [dropped]

theorem moves_on_iff {table : TopicTable} {before sent later : BoardHistory}
    {between : List BoardEvent} {accepted : Nat} {topic : NrosTopic}
    {frame : Frame} (invariant : before.board.RegistrationInvariant table)
    (written : before.step table (.txPoll accepted) = some sent)
    (register : RegisterSent table topic before sent)
    (quiet : Along (step table) Quiet sent between)
    (calls : exec (step table) sent between = some later)
    (ack : frame.header.type = NrosPacketType.ack.toByte) :
    (∃ after, nrosDispatch table later.board frame = .ok after ∧
        after.GoesOn table before.board.tx.topicRegistrationIdx.toNat) ↔
      (sent.board.registrationComplete = true →
        ∀ event ∈ between, fittingPublish event = false) ∧
      ∀ next ∈
          table.topics[before.board.tx.topicRegistrationIdx.toNat + 1]?,
        next.NamesFit := by
  have started := (register.awaitsAck invariant written).2
  have awaits := awaitsAck_run started quiet calls
  have sentInvariant := registrationInvariant_step invariant written
  have laterInvariant := registrationInvariant_from sentInvariant calls
  rw [goesOn_iff_of_awaits laterInvariant awaits ack]
  apply and_congr_left'
  cases sent.board.registrationComplete with
  | false => simp
  | true => simp [List.any_eq_false]

/-- The REGISTER of a topic is completely sent; the ACK of it comes after any
publishes, polls and other frames.  The session goes on if and only if no
publish got through in between and the names of the next topic fit. -/
theorem ack_moves_on_iff {table : TopicTable}
    {events between : List BoardEvent} {before sent later : BoardHistory}
    {accepted : Nat} {topic : NrosTopic} {frame : Frame}
    (run : exec (step table) (initial table) events = some before)
    (written : before.step table (.txPoll accepted) = some sent)
    (register : RegisterSent table topic before sent)
    (quiet : Along (step table) Quiet sent between)
    (calls : exec (step table) sent between = some later)
    (ack : frame.header.type = NrosPacketType.ack.toByte) :
    (∃ after, nrosDispatch table later.board frame = .ok after ∧
        after.GoesOn table before.board.tx.topicRegistrationIdx.toNat) ↔
      (sent.board.registrationComplete = true →
        ∀ event ∈ between, fittingPublish event = false) ∧
      ∀ next ∈
          table.topics[before.board.tx.topicRegistrationIdx.toNat + 1]?,
        next.NamesFit :=
  moves_on_iff (registrationInvariant_run run) written register quiet calls
    ack

instance (history : BoardHistory) :
    ∀ event, Decidable (history.Quiet event)
  | .receive _ => inferInstanceAs (Decidable (_ ∧ (_ → _)))
  | .txPoll _ => isTrue trivial
  | .publish _ _ => isTrue trivial

/-- Publishing two bytes on topic 127. -/
def publishTwoBytes : BoardEvent :=
  .publish 127 { ok := true, bytes := [1, 2], fits := by decide }

/-- In the first session `nros_publish` is refused. -/
theorem ack_moves_on_iff_firstSession :
    ∃ before sent later,
      exec (step onePublisher) (initial onePublisher)
          [.receive discoverFrame] = some before ∧
        before.step onePublisher (.txPoll 1024) = some sent ∧
        exec (step onePublisher) sent [publishTwoBytes] = some later ∧
        ∃ after, nrosDispatch onePublisher later.board
            (ackFrame ⟨127, .ok⟩) = .ok after ∧
          after.GoesOn onePublisher
            before.board.tx.topicRegistrationIdx.toNat := by
  have run : ∃ before ∈ exec (step onePublisher) (initial onePublisher)
        [.receive discoverFrame],
      ∃ sent ∈ before.step onePublisher (.txPoll 1024),
        ∃ later ∈ exec (step onePublisher) sent [publishTwoBytes],
          (before.board.rx.awaitingAck = true ∧
            before.board.tx.isRegistration = true ∧
            before.board.tx.state ≠ .idle ∧ sent.board.tx.state = .idle) ∧
          Along (step onePublisher) Quiet sent [publishTwoBytes] ∧
          sent.board.registrationComplete = false ∧
          onePublisher.topics[
            before.board.tx.topicRegistrationIdx.toNat + 1]? = none := by
    decide +kernel
  obtain ⟨before, begun, sent, written, later, calls,
    ⟨awaiting, inside, busy, idle⟩, quiet, closed, last⟩ := run
  obtain ⟨topic, register⟩ := registerSent_of_awaited
    (registrationInvariant_run begun) awaiting inside busy idle
  refine ⟨before, sent, later, begun, written, calls, ?_⟩
  apply (ack_moves_on_iff begun written register quiet calls rfl).mpr
  simp [closed, last]

/-- A whole session, and the start of another one. -/
def secondSession : List BoardEvent :=
  [.receive discoverFrame, .txPoll 1024, .receive (ackFrame ⟨127, .ok⟩),
    .txPoll 1024, .receive discoverFrame]

/-- A publish takes the mark off the second session, and the ACK of its topic
is dropped. -/
theorem not_ack_moves_on :
    ∃ before sent later topic,
      exec (step onePublisher) (initial onePublisher) secondSession =
          some before ∧
        before.step onePublisher (.txPoll 1024) = some sent ∧
        RegisterSent onePublisher topic before sent ∧
        exec (step onePublisher) sent [publishTwoBytes, .txPoll 1024] =
          some later ∧
        ¬∃ after, nrosDispatch onePublisher later.board
            (ackFrame ⟨127, .ok⟩) = .ok after ∧
          after.GoesOn onePublisher
            before.board.tx.topicRegistrationIdx.toNat := by
  have run : ∃ before ∈ exec (step onePublisher) (initial onePublisher)
        secondSession,
      ∃ sent ∈ before.step onePublisher (.txPoll 1024),
        ∃ later ∈ exec (step onePublisher) sent
            [publishTwoBytes, .txPoll 1024],
          (before.board.rx.awaitingAck = true ∧
            before.board.tx.isRegistration = true ∧
            before.board.tx.state ≠ .idle ∧ sent.board.tx.state = .idle) ∧
          Along (step onePublisher) Quiet sent
            [publishTwoBytes, .txPoll 1024] ∧
          sent.board.registrationComplete = true := by
    decide +kernel
  obtain ⟨before, begun, sent, written, later, calls,
    ⟨awaiting, inside, busy, idle⟩, quiet, complete⟩ := run
  have invariant := registrationInvariant_run begun
  obtain ⟨topic, register⟩ :=
    registerSent_of_awaited invariant awaiting inside busy idle
  refine ⟨before, sent, later, topic, begun, written, register, calls, ?_⟩
  intro goesOn
  have undisturbed :=
    (moves_on_iff invariant written register quiet calls rfl).mp goesOn
  exact absurd (undisturbed.1 complete publishTwoBytes
    List.mem_cons_self) (by decide)

/-- In every state the library can be in: a DISCOVER starts a session, at
once or after the frame being sent, if and only if nothing is being sent and
the first topic can be loaded, or nothing was done yet since a session was
started. -/
theorem discover_heard_iff {table : TopicTable} {events : List BoardEvent}
    {history : BoardHistory} {frame : Frame}
    (run : exec (step table) (initial table) events = some history)
    (discover : frame.header.type = NrosPacketType.discover.toByte) :
    (∃ after, nrosDispatch table history.board frame = .ok after ∧
        after.RestartsAfter table) ↔
      (history.board.tx.state = .idle ∧
        ∃ topic ∈ table.topics[0]?, topic.NamesFit) ∨
      history.board.Restarted table :=
  discover_iff (registrationInvariant_run run).settled discover

/-- A DISCOVER while the ACK of a REGISTER is awaited. -/
theorem discover_heard_iff_awaiting :
    ∃ history, exec (step onePublisher) (initial onePublisher)
        [.receive discoverFrame, .txPoll 1024] = some history ∧
      ∃ after, nrosDispatch onePublisher history.board discoverFrame =
          .ok after ∧
        after.RestartsAfter onePublisher := by
  have run : ∃ history ∈ exec (step onePublisher) (initial onePublisher)
        [.receive discoverFrame, .txPoll 1024],
      history.board.tx.state = .idle ∧
        ∃ topic ∈ onePublisher.topics[0]?, topic.NamesFit := by
    decide +kernel
  obtain ⟨history, reached, ready⟩ := run
  exact ⟨history, reached, (discover_heard_iff reached rfl).mpr (.inl ready)⟩

/-- A DISCOVER is lost when three bytes of the REGISTER are sent. -/
theorem not_discover_heard :
    ∃ history, exec (step onePublisher) (initial onePublisher)
        [.receive discoverFrame, .txPoll 3] = some history ∧
      ¬∃ after, nrosDispatch onePublisher history.board discoverFrame =
          .ok after ∧
        after.RestartsAfter onePublisher := by
  have run : ∃ history ∈ exec (step onePublisher) (initial onePublisher)
        [.receive discoverFrame, .txPoll 3],
      history.board.tx.state ≠ .idle ∧ history.board.tx.bytesSent ≠ 0 := by
    decide +kernel
  obtain ⟨history, reached, busy, begun⟩ := run
  refine ⟨history, reached, ?_⟩
  intro heard
  have settled := (registrationInvariant_run reached).settled
  rcases (discover_iff settled rfl).mp heard with ⟨idle, _⟩ | restarted
  · exact busy idle
  · obtain ⟨_, _, _, start⟩ := restarted.loaded
    exact begun start

end BoardHistory

end NanoRos
