import NanoRos.BoardRuns

/-!
# Accepted publishes

The transmit buffer is shared between DATA frames and the registration path.
A ledger of the publishes that returned true and of the bytes written for each
DATA frame shows that the two never mix; and a publish that returned false
leaves nothing behind that is ever written.
-/

namespace NanoRos

open Board PartialRun

/-! ## The ledger -/

/-- The board, what its `nros_publish` calls that returned true were to send,
the bytes written since a frame was last loaded, and those written for each
DATA frame that was carried to completion. -/
structure PublishLedger where
  board : Board
  accepted : List Frame
  current : List UInt8
  completed : List (List UInt8)

namespace PublishLedger

def initial (table : TopicTable) : PublishLedger :=
  { board := .initial table, accepted := [], current := [], completed := [] }

/-- The frame in the buffer is a DATA frame. -/
def holdsData (board : Board) : Bool :=
  board.tx.buffer.load? 2 = some NrosPacketType.data.toByte

/-- The frame being sent has not been begun: it was just loaded. -/
def sinceLoad (board : Board) (current : List UInt8) : List UInt8 :=
  if board.tx.bytesSent = 0 then [] else current

def step (table : TopicTable) (ledger : PublishLedger) :
    BoardEvent → Option PublishLedger
  | .receive frame =>
      match nrosDispatch table ledger.board frame with
      | .error _ => none
      | .ok board =>
          some { ledger with board, current := sinceLoad board ledger.current }
  | .txPoll accepted =>
      let (board, bytes) := ledger.board.txPoll accepted
      let current := ledger.current ++ bytes
      if ledger.board.tx.state = .sendingFrame ∧ board.tx.state = .idle ∧
          holdsData ledger.board then
        some { ledger with
          board, current, completed := ledger.completed ++ [current] }
      else
        some { ledger with board, current }
  | .publish topicId serialized =>
      let (result, board) := ledger.board.nrosPublish topicId serialized
      if result then
        some { ledger with
          board
          current := sinceLoad board ledger.current
          accepted := ledger.accepted ++ [dataFrame topicId serialized.bytes] }
      else
        some { ledger with board }

end PublishLedger

/-- A DATA frame is being sent. -/
def Board.SendsData (board : Board) (frame : Frame) : Prop :=
  board.Sending frame ∧ frame.header.type = NrosPacketType.data.toByte

/-- No DATA frame is being sent. -/
def Board.Resting (board : Board) : Prop :=
  board.tx.state = .idle ∨
    ∃ frame, board.Sending frame ∧
      frame.header.type ≠ NrosPacketType.data.toByte

/-- The books: every accepted publish is completed, or it is the last one and
the frame being sent, outside of a registration. -/
inductive PublishLedger.Balanced (ledger : PublishLedger) : Prop
  | resting (resting : ledger.board.Resting)
      (done : ledger.completed = ledger.accepted.map Frame.encoded)
  | publishing (frame : Frame) (sending : ledger.board.SendsData frame)
      (outside : ledger.board.tx.isRegistration = false)
      (sent : ledger.current =
        ledger.board.tx.buffer.take ledger.board.tx.bytesSent)
      (last : ledger.completed ++ [frame.encoded] =
        ledger.accepted.map Frame.encoded)

namespace Board

theorem Sending.holdsData_iff {board : Board} {frame : Frame}
    (sending : board.Sending frame) :
    PublishLedger.holdsData board = true ↔
      frame.header.type = NrosPacketType.data.toByte := by
  have type : board.tx.buffer.load? 2 = some frame.header.type := by
    have cell := congrArg (·[2]?) sending.bytes
    simp only [Buffer.take, List.getElem?_take] at cell
    rw [Frame.length_encoded, if_pos (by simp [frameHeaderSize]; omega)]
      at cell
    exact cell
  rw [PublishLedger.holdsData, decide_eq_true_iff, type, Option.some.injEq]

theorem registrationFrame_not_data (topic : NrosTopic) :
    (registrationFrame topic).header.type ≠ NrosPacketType.data.toByte := by
  show NrosPacketType.register.toByte ≠ NrosPacketType.data.toByte
  decide

theorem registerDoneFrame_not_data :
    registerDoneFrame.header.type ≠ NrosPacketType.data.toByte := by
  decide

theorem SameTransmission.resting {before after : Board}
    (same : before.SameTransmission after) (resting : before.Resting) :
    after.Resting := by
  rcases resting with idle | ⟨frame, sending, other⟩
  · exact .inl (same.state.trans idle)
  · exact .inr ⟨frame, same.sending sending, other⟩

/-- Loading a registration frame over anything but a DATA frame. -/
theorem LoadStep.resting {table : TopicTable} {before after : Board}
    (step : before.LoadStep table after) (resting : before.Resting) :
    after.Resting := by
  cases step with
  | done _ sending _ _ _ =>
      exact .inr ⟨registerDoneFrame, sending, registerDoneFrame_not_data⟩
  | tooLong _ _ _ _ same =>
      rw [same]
      exact resting
  | register topic _ _ _ sending _ _ _ =>
      exact .inr ⟨_, sending, registrationFrame_not_data topic⟩

/-- A received frame meets a DATA frame being sent: nothing of the
transmission changes. -/
theorem DispatchStep.sameTransmission {table : TopicTable}
    {before after : Board} {frame : Frame}
    (step : before.DispatchStep table frame after)
    (busy : before.tx.state ≠ .idle)
    (outside : before.tx.isRegistration = false) :
    before.SameTransmission after ∧ after.tx.isRegistration = false := by
  cases step with
  | passed _ _ same => exact ⟨same ▸ ⟨rfl, rfl, rfl, rfl⟩, same ▸ outside⟩
  | ackIgnored _ _ same => exact ⟨same ▸ ⟨rfl, rfl, rfl, rfl⟩, same ▸ outside⟩
  | ackOutside _ _ _ cleared =>
      rw [cleared]
      exact ⟨⟨rfl, rfl, rfl, rfl⟩, outside⟩
  | ackTaken _ _ registering _ =>
      rw [outside] at registering
      cases registering
  | discoverDropped _ _ same =>
      exact ⟨same ▸ ⟨rfl, rfl, rfl, rfl⟩, same ▸ outside⟩
  | discoverTaken _ idle _ => exact absurd idle busy

/-- A received frame that meets no DATA frame being sent loads none. -/
theorem DispatchStep.resting {table : TopicTable} {before after : Board}
    {frame : Frame} (step : before.DispatchStep table frame after)
    (resting : before.Resting) : after.Resting := by
  cases step with
  | passed _ _ same => exact same ▸ resting
  | ackIgnored _ _ same => exact same ▸ resting
  | ackOutside _ _ _ cleared =>
      rw [cleared]
      have same : before.SameTransmission
          { before with rx := { awaitingAck := false } } :=
        ⟨rfl, rfl, rfl, rfl⟩
      exact same.resting resting
  | ackTaken _ _ _ loaded =>
      exact loaded.resting
        ((advanceRegistration_transmission table before).resting resting)
  | discoverDropped _ _ same => exact same ▸ resting
  | discoverTaken _ idle loaded => exact loaded.resting (.inl idle)

end Board

namespace PublishLedger

theorem Balanced.settled {ledger : PublishLedger}
    (balanced : ledger.Balanced) : ledger.board.Settled := by
  cases balanced with
  | resting resting _ =>
      exact resting.imp_right fun ⟨frame, sending, _⟩ => ⟨frame, sending⟩
  | publishing frame sending _ _ _ => exact .of_sending sending.1

/-- A board that sends nothing rests. -/
theorem Balanced.done_of_idle {ledger : PublishLedger}
    (balanced : ledger.Balanced) (idle : ledger.board.tx.state = .idle) :
    ledger.completed = ledger.accepted.map Frame.encoded := by
  cases balanced with
  | resting _ done => exact done
  | publishing frame sending _ _ _ =>
      have state := sending.1.state
      rw [idle] at state
      cases state

theorem balanced_initial (table : TopicTable) : (initial table).Balanced :=
  .resting (.inl rfl) rfl

theorem sinceLoad_take {board : Board} {current : List UInt8}
    (sent : current = board.tx.buffer.take board.tx.bytesSent) :
    sinceLoad board current = board.tx.buffer.take board.tx.bytesSent := by
  rw [sinceLoad]
  split
  next start => rw [start, Buffer.take_zero]
  next => exact sent

theorem balanced_receive {table : TopicTable} {before after : PublishLedger}
    {frame : Frame} (balanced : before.Balanced)
    (stepped : before.step table (.receive frame) = some after) :
    after.Balanced := by
  simp only [step] at stepped
  split at stepped
  · cases stepped
  next board dispatched =>
    cases stepped
    have step := dispatchStep dispatched
    cases balanced with
    | resting resting done => exact .resting (step.resting resting) done
    | publishing frame sending outside sent last =>
        have busy : before.board.tx.state ≠ .idle := by
          rw [sending.1.state]
          decide
        obtain ⟨same, still⟩ := step.sameTransmission busy outside
        refine .publishing frame ⟨same.sending sending.1, sending.2⟩ still ?_
          last
        apply sinceLoad_take
        rw [same.buffer, same.bytesSent]
        exact sent

theorem balanced_txPoll {table : TopicTable} {before after : PublishLedger}
    {accepted : Nat} (balanced : before.Balanced)
    (stepped : before.step table (.txPoll accepted) = some after) :
    after.Balanced := by
  have polled := txStep balanced.settled accepted
  simp only [step] at stepped
  rcases outcome : before.board.txPoll accepted with ⟨board, bytes⟩
  rw [outcome] at polled stepped
  simp only at polled stepped
  cases polled with
  | quiet idle same _ =>
      rw [if_neg (fun ⟨sending, _⟩ => by rw [idle] at sending; cases sending)]
        at stepped
      cases stepped
      exact .resting (.inl (same ▸ idle)) (balanced.done_of_idle idle)
  | partly frame sending still sent _ session _ =>
      rw [if_neg (fun ⟨_, idle, _⟩ => by rw [still.state] at idle; cases idle)]
        at stepped
      cases stepped
      cases balanced with
      | resting resting done =>
          refine .resting (.inr ⟨frame, still, ?_⟩) done
          rcases resting with idle | ⟨other, sendsOther, notData⟩
          · rw [sending.state] at idle
            cases idle
          · rw [sending.unique sendsOther]
            exact notData
      | publishing other sendsOther outside earlier last =>
          have same := sending.unique sendsOther.1
          rw [← same] at sendsOther last
          refine .publishing frame ⟨still, sendsOther.2⟩
            (session.isRegistration.trans outside) ?_ last
          rw [sent, ← earlier]
  | finished frame sending whole completed =>
      cases balanced with
      | resting resting done =>
          have notData : holdsData before.board = false := by
            rcases resting with idle | ⟨other, sendsOther, notData⟩
            · rw [sending.state] at idle
              cases idle
            · simpa using mt sendsOther.holdsData_iff.mp notData
          rw [if_neg (fun ⟨_, _, data⟩ => by
            rw [notData] at data
            cases data)] at stepped
          cases stepped
          exact .resting (.inl completed.idle) done
      | publishing other sendsOther outside earlier last =>
          have data := sendsOther.1.holdsData_iff.mpr sendsOther.2
          rw [if_pos ⟨sending.state, completed.idle, data⟩] at stepped
          cases stepped
          refine .resting (.inl completed.idle) ?_
          rw [← last, earlier, whole, sendsOther.1.take_append_unsent]

theorem balanced_publish {table : TopicTable} {before after : PublishLedger}
    {topicId : UInt8} {serialized : SerializeResult}
    (balanced : before.Balanced)
    (stepped : before.step table (.publish topicId serialized) = some after) :
    after.Balanced := by
  have published := publishStep before.board topicId serialized
  simp only [step] at stepped
  rcases outcome : before.board.nrosPublish topicId serialized with
    ⟨result, board⟩
  rw [outcome] at published stepped
  simp only at stepped
  cases published with
  | busy _ same =>
      rw [if_neg (by decide)] at stepped
      cases stepped
      rw [same]
      exact balanced
  | failed idle _ stillIdle _ _ =>
      rw [if_neg (by decide)] at stepped
      cases stepped
      exact .resting (.inl stillIdle) (balanced.done_of_idle idle)
  | loaded idle _ _ sending start outside _ _ =>
      rw [if_pos rfl] at stepped
      cases stepped
      refine .publishing (dataFrame topicId serialized.bytes) ⟨sending, rfl⟩
        outside ?_ ?_
      · simp only [sinceLoad, start, if_true, Buffer.take_zero]
      · simp [balanced.done_of_idle idle]

theorem balanced_step {table : TopicTable} {before after : PublishLedger}
    {event : BoardEvent} (balanced : before.Balanced)
    (stepped : before.step table event = some after) : after.Balanced := by
  cases event with
  | receive frame => exact balanced_receive balanced stepped
  | txPoll accepted => exact balanced_txPoll balanced stepped
  | publish topicId serialized => exact balanced_publish balanced stepped

theorem balanced_exec {table : TopicTable} {events : List BoardEvent}
    {ledger : PublishLedger}
    (run : exec (step table) (initial table) events = some ledger) :
    ledger.Balanced := by
  apply exec_preserved _ (balanced_initial table) run
  intro before event after balanced stepped
  exact balanced_step balanced stepped

end PublishLedger

/-! ## Rejected publishes -/

namespace Board

/-- Two boards whose later output is the same: they differ at most in what
the next load overwrites. -/
structure SameLater (left right : Board) : Prop where
  session : left.SameSession right
  rx : right.rx = left.rx
  state : right.tx.state = left.tx.state
  transmission : left.tx.state ≠ .idle →
    right.tx.frameLen = left.tx.frameLen ∧
      right.tx.bytesSent = left.tx.bytesSent ∧
      right.tx.buffer.take right.tx.frameLen =
        left.tx.buffer.take left.tx.frameLen

theorem SameSession.refl (board : Board) : board.SameSession board :=
  ⟨rfl, rfl, rfl, rfl, rfl, rfl⟩

theorem SameLater.refl (board : Board) : board.SameLater board :=
  ⟨.refl board, rfl, rfl, fun _ => ⟨rfl, rfl, rfl⟩⟩

theorem SameLater.symm {left right : Board} (same : left.SameLater right) :
    right.SameLater left := by
  refine ⟨⟨same.session.idx.symm, same.session.isRegistration.symm,
    same.session.regDone.symm, same.session.complete.symm,
    same.session.topicMap.symm, same.session.parser.symm⟩, same.rx.symm,
    same.state.symm, fun busy => ?_⟩
  obtain ⟨frameLen, bytesSent, taken⟩ :=
    same.transmission (by rwa [← same.state])
  exact ⟨frameLen.symm, bytesSent.symm, taken.symm⟩

theorem SameLater.trans {first second third : Board}
    (left : first.SameLater second) (right : second.SameLater third) :
    first.SameLater third := by
  refine ⟨⟨right.session.idx.trans left.session.idx,
    right.session.isRegistration.trans left.session.isRegistration,
    right.session.regDone.trans left.session.regDone,
    right.session.complete.trans left.session.complete,
    right.session.topicMap.trans left.session.topicMap,
    right.session.parser.trans left.session.parser⟩, right.rx.trans left.rx,
    right.state.trans left.state, fun busy => ?_⟩
  obtain ⟨frameLen, bytesSent, taken⟩ := left.transmission busy
  obtain ⟨frameLen', bytesSent', taken'⟩ :=
    right.transmission (by rwa [left.state])
  exact ⟨frameLen'.trans frameLen, bytesSent'.trans bytesSent,
    taken'.trans taken⟩

/-- A publish that returns false changes nothing that is later written. -/
theorem sameLater_of_rejected {board : Board} {topicId : UInt8}
    {serialized : SerializeResult}
    (rejected : (board.nrosPublish topicId serialized).1 = false) :
    board.SameLater (board.nrosPublish topicId serialized).2 := by
  have published := publishStep board topicId serialized
  rcases outcome : board.nrosPublish topicId serialized with ⟨result, after⟩
  rw [outcome] at published rejected
  simp only at rejected
  cases published with
  | busy _ same =>
      rw [same]
      exact .refl board
  | failed idle _ stillIdle session rx =>
      exact ⟨session, rx, stillIdle.trans idle.symm,
        fun busy => absurd idle busy⟩
  | loaded => cases rejected

/-- Two boards that send the same frame from its start. -/
theorem SameLater.of_sending {left right : Board} {frame : Frame}
    (session : left.SameSession right) (rx : right.rx = left.rx)
    (sendsLeft : left.Sending frame) (startLeft : left.tx.bytesSent = 0)
    (sendsRight : right.Sending frame) (startRight : right.tx.bytesSent = 0) :
    left.SameLater right := by
  refine ⟨session, rx, sendsRight.state.trans sendsLeft.state.symm,
    fun _ => ⟨sendsRight.length.trans sendsLeft.length.symm,
      startRight.trans startLeft.symm, ?_⟩⟩
  rw [sendsRight.length, sendsRight.bytes, sendsLeft.length, sendsLeft.bytes]

/-- Both or neither of two results is a fault; if neither, the boards go on
alike. -/
def SameOutcome (left right : Except BoardFault Board) : Prop :=
  match left, right with
  | .ok left, .ok right => left.SameLater right
  | .error _, .error _ => True
  | _, _ => False

/-- Steps that keep the session variables on both sides keep them equal. -/
theorem SameSession.trans_of {left right left' right' : Board}
    (session : left.SameSession right) (first : left.SameSession left')
    (second : right.SameSession right') : left'.SameSession right' where
  idx := by rw [second.idx, session.idx, first.idx]
  isRegistration := by
    rw [second.isRegistration, session.isRegistration, first.isRegistration]
  regDone := by rw [second.regDone, session.regDone, first.regDone]
  complete := by rw [second.complete, session.complete, first.complete]
  topicMap := by rw [second.topicMap, session.topicMap, first.topicMap]
  parser := by rw [second.parser, session.parser, first.parser]

/-- Loading a registration frame faults on the topic index alone. -/
theorem load_error_iff {table : TopicTable} {board : Board} :
    (∃ fault, loadNextRegistrationFrame table board = .error fault) ↔
      board.tx.sendingRegDoneFrame = false ∧
        table.topics[board.tx.topicRegistrationIdx.toNat]? = none := by
  unfold loadNextRegistrationFrame
  cases regDone : board.tx.sendingRegDoneFrame with
  | true => simp
  | false =>
      cases found : table.topics[board.tx.topicRegistrationIdx.toNat]? with
      | none => simp
      | some topic =>
          simp only [Bool.false_eq_true, if_false, reduceCtorEq, and_false,
            iff_false]
          split <;> simp

theorem load_sameOutcome (table : TopicTable) {left right : Board}
    (same : left.SameLater right) :
    SameOutcome (loadNextRegistrationFrame table left)
      (loadNextRegistrationFrame table right) := by
  have faults : (∃ fault, loadNextRegistrationFrame table left =
      .error fault) ↔
        ∃ fault, loadNextRegistrationFrame table right = .error fault := by
    rw [load_error_iff, load_error_iff, same.session.regDone,
      same.session.idx]
  cases leftLoad : loadNextRegistrationFrame table left with
  | error fault =>
      obtain ⟨other, rightLoad⟩ := faults.mp ⟨fault, leftLoad⟩
      rw [rightLoad]
      trivial
  | ok loadedLeft =>
      cases rightLoad : loadNextRegistrationFrame table right with
      | error fault =>
          obtain ⟨other, failed⟩ := faults.mpr ⟨fault, rightLoad⟩
          rw [leftLoad] at failed
          cases failed
      | ok loadedRight =>
          have leftStep := loadStep leftLoad
          have rightStep := loadStep rightLoad
          have regDone := same.session.regDone
          have idx := same.session.idx
          cases leftStep with
          | done flag sends start session rx =>
              cases rightStep with
              | done _ sends' start' session' rx' =>
                  exact .of_sending (same.session.trans_of session session')
                    (by rw [rx', rx, same.rx]) sends start sends' start'
              | tooLong _ _ flag' =>
                  rw [regDone, flag] at flag'
                  cases flag'
              | register _ _ flag' =>
                  rw [regDone, flag] at flag'
                  cases flag'
          | tooLong topic found flag long unchanged =>
              cases rightStep with
              | done flag' =>
                  rw [regDone, flag] at flag'
                  cases flag'
              | tooLong _ _ _ _ unchanged' =>
                  rw [unchanged, unchanged']
                  exact same
              | register topic' found' _ fit =>
                  rw [idx, found] at found'
                  cases found'
                  exact absurd fit long
          | register topic found flag fit sends start session awaiting =>
              cases rightStep with
              | done flag' =>
                  rw [regDone, flag] at flag'
                  cases flag'
              | tooLong topic' found' _ long =>
                  rw [idx, found] at found'
                  cases found'
                  exact absurd fit long
              | register topic' found' _ _ sends' start' session' awaiting' =>
                  rw [idx, found] at found'
                  cases found'
                  exact .of_sending (same.session.trans_of session session')
                    (by
                      cases leftRx : loadedLeft.rx
                      cases rightRx : loadedRight.rx
                      simp_all) sends start sends' start'

theorem SameLater.start {left right : Board} (same : left.SameLater right) :
    left.startRegistration.SameLater right.startRegistration :=
  ⟨⟨rfl, rfl, rfl, same.session.complete, same.session.topicMap,
    same.session.parser⟩, same.rx, same.state, same.transmission⟩

theorem SameLater.advance {left right : Board} (same : left.SameLater right)
    (table : TopicTable) :
    (left.advanceRegistration table).SameLater
      (right.advanceRegistration table) := by
  have idx := same.session.idx
  refine ⟨⟨?_, same.session.isRegistration, ?_, same.session.complete,
    same.session.topicMap, same.session.parser⟩, ?_, same.state,
    same.transmission⟩
  · simp only [advanceRegistration, idx]
  · simp only [advanceRegistration, idx, same.session.regDone]
  · simp only [advanceRegistration]

theorem dispatch_sameOutcome (table : TopicTable) {left right : Board}
    (same : left.SameLater right) (frame : Frame) :
    SameOutcome (nrosDispatch table left frame)
      (nrosDispatch table right frame) := by
  simp only [nrosDispatch]
  split
  · have handler : dispatchData right frame = dispatchData left frame := by
      simp only [dispatchData, same.session.topicMap]
    rw [handler]
    cases dispatchData left frame with
    | error fault => trivial
    | ok call => exact same
  · simp only [dispatchAck, same.rx, same.session.isRegistration]
    split
    · exact same
    · split
      · exact ⟨⟨same.session.idx, same.session.isRegistration,
          same.session.regDone, same.session.complete, same.session.topicMap,
          same.session.parser⟩, rfl, same.state, same.transmission⟩
      · exact load_sameOutcome table (same.advance table)
  · simp only [registerTopicsStart, same.state]
    by_cases busy : left.tx.state ≠ .idle
    · rw [if_pos busy, if_pos busy]
      exact same
    · rw [if_neg busy, if_neg busy]
      have loads := load_sameOutcome table same.start
      cases leftLoad : loadNextRegistrationFrame table
          left.startRegistration with
      | error fault =>
          cases rightLoad : loadNextRegistrationFrame table
              right.startRegistration with
          | error fault => trivial
          | ok loaded =>
              rw [leftLoad, rightLoad] at loads
              exact loads.elim
      | ok loadedLeft =>
          cases rightLoad : loadNextRegistrationFrame table
              right.startRegistration with
          | error fault =>
              rw [leftLoad, rightLoad] at loads
              exact loads.elim
          | ok loadedRight =>
              rw [leftLoad, rightLoad] at loads
              exact loads
  · exact same
  · exact same
  · exact same

/-- The offered bytes are a part of the frame being sent. -/
theorem slice_of_take {left right : NrosBuffer} {length start count : Nat}
    (same : right.take length = left.take length)
    (inside : start + count ≤ length) :
    right.slice start count = left.slice start count := by
  have cut (buffer : NrosBuffer) : buffer.slice start count =
      ((buffer.take length).drop start).take count := by
    simp only [Buffer.slice, Buffer.take, List.drop_take, List.take_take]
    rw [Nat.min_eq_left (by omega)]
  rw [cut, cut, same]

theorem SameLater.complete {left right : Board}
    (same : left.SameLater right) :
    left.txFrameComplete.SameLater right.txFrameComplete := by
  have leftDone := txFrameComplete_completed left
  have rightDone := txFrameComplete_completed right
  refine ⟨⟨?_, ?_, ?_, ?_, ?_, ?_⟩, ?_,
    rightDone.idle.trans leftDone.idle.symm,
    fun busy => absurd leftDone.idle busy⟩
  · rw [rightDone.idx, leftDone.idx, same.session.idx]
  · rw [rightDone.isRegistration, leftDone.isRegistration,
      same.session.isRegistration]
  · rw [rightDone.regDone, leftDone.regDone, same.session.regDone]
  · rw [rightDone.complete, leftDone.complete, same.session.complete,
      same.session.isRegistration, same.session.regDone]
  · rw [rightDone.topicMap, leftDone.topicMap, same.session.topicMap]
  · rw [rightDone.parser, leftDone.parser, same.session.parser]
  · rw [rightDone.rx, leftDone.rx, same.rx]

/-- The transport took `count` more bytes. -/
def advanceSent (board : Board) (count : Nat) : Board :=
  { board with
    tx := { board.tx with bytesSent := board.tx.bytesSent + count } }

theorem txPoll_sending {board : Board}
    (state : board.tx.state = .sendingFrame) (accepted : Nat) :
    board.txPoll accepted =
      let count := min accepted (board.tx.frameLen - board.tx.bytesSent)
      (if board.tx.bytesSent + count < board.tx.frameLen then
          board.advanceSent count
        else (board.advanceSent count).txFrameComplete,
        board.tx.buffer.slice board.tx.bytesSent count) := by
  simp only [txPoll, state, advanceSent]
  split <;> rfl

theorem txPoll_sameLater {left right : Board} (same : left.SameLater right)
    (accepted : Nat) :
    (left.txPoll accepted).1.SameLater (right.txPoll accepted).1 ∧
      (right.txPoll accepted).2 = (left.txPoll accepted).2 := by
  cases state : left.tx.state with
  | idle =>
      simp only [txPoll, same.state, state]
      exact ⟨same, trivial⟩
  | sendingHeader =>
      simp only [txPoll, same.state, state]
      exact ⟨same, trivial⟩
  | sendingPayload =>
      simp only [txPoll, same.state, state]
      exact ⟨same, trivial⟩
  | sendingFrame =>
      obtain ⟨frameLen, bytesSent, taken⟩ :=
        same.transmission (by rw [state]; decide)
      rw [frameLen] at taken
      rw [txPoll_sending state, txPoll_sending (same.state.trans state)]
      simp only [frameLen, bytesSent]
      generalize count : min accepted (left.tx.frameLen - left.tx.bytesSent)
        = n
      have advanced : (left.advanceSent n).SameLater (right.advanceSent n) :=
        ⟨⟨same.session.idx, same.session.isRegistration,
          same.session.regDone, same.session.complete, same.session.topicMap,
          same.session.parser⟩, same.rx, same.state,
          fun _ => ⟨frameLen, by simp only [advanceSent, bytesSent],
            by simpa only [advanceSent, frameLen] using taken⟩⟩
      constructor
      · split
        · exact advanced
        · exact advanced.complete
      · rcases Nat.eq_zero_or_pos n with rfl | some_
        · simp [Buffer.slice]
        · exact slice_of_take taken (by omega)

theorem publish_sameLater {left right : Board} (same : left.SameLater right)
    (topicId : UInt8) (serialized : SerializeResult) :
    (left.nrosPublish topicId serialized).2.SameLater
      (right.nrosPublish topicId serialized).2 := by
  have results : (left.nrosPublish topicId serialized).1 = true ↔
      (right.nrosPublish topicId serialized).1 = true := by
    rw [publish_eq_true_iff, publish_eq_true_iff, same.state,
      same.session.complete]
  cases leftResult : (left.nrosPublish topicId serialized).1 with
  | false =>
      have rightResult : (right.nrosPublish topicId serialized).1 = false := by
        rw [← Bool.not_eq_true, ← results, leftResult]
        decide
      exact ((sameLater_of_rejected leftResult).symm.trans same).trans
        (sameLater_of_rejected rightResult)
  | true =>
      have rightResult := results.mp leftResult
      have leftStep := publishStep left topicId serialized
      have rightStep := publishStep right topicId serialized
      generalize left.nrosPublish topicId serialized = leftOutcome
        at leftStep leftResult ⊢
      generalize right.nrosPublish topicId serialized = rightOutcome
        at rightStep rightResult ⊢
      cases leftStep with
      | busy => cases leftResult
      | failed => cases leftResult
      | loaded _ _ _ sends start _ session rx =>
          cases rightStep with
          | busy => cases rightResult
          | failed => cases rightResult
          | loaded _ _ _ sends' start' _ session' rx' =>
              have outside : SameSession
                  { left with tx := { left.tx with isRegistration := false } }
                  { right with
                    tx := { right.tx with isRegistration := false } } :=
                ⟨same.session.idx, rfl, same.session.regDone,
                  same.session.complete, same.session.topicMap,
                  same.session.parser⟩
              exact .of_sending (outside.trans_of session session')
                (by rw [rx', rx, same.rx]) sends start sends' start'

end Board

/-- The bytes written in the course of later events; `none` if the board runs
into a fault. -/
def laterBytes (table : TopicTable) (board : Board)
    (events : List BoardEvent) : Option (List UInt8) :=
  (exec (BoardHistory.step table)
    { board, written := [], sessionOpen := false } events).map
      BoardHistory.written

/-- Two histories that go on alike. -/
def SameHistory (left right : BoardHistory) : Prop :=
  left.board.SameLater right.board ∧ right.written = left.written

theorem step_sameHistory (table : TopicTable) (left right : BoardHistory)
    (event : BoardEvent) (same : SameHistory left right) :
    Option.Rel SameHistory (left.step table event)
      (right.step table event) := by
  obtain ⟨boards, written⟩ := same
  cases event with
  | receive frame =>
      have outcomes := dispatch_sameOutcome table boards frame
      simp only [BoardHistory.step]
      cases leftDispatch : nrosDispatch table left.board frame with
      | error fault =>
          rw [leftDispatch] at outcomes
          cases rightDispatch : nrosDispatch table right.board frame with
          | error fault => exact .none
          | ok after =>
              rw [rightDispatch] at outcomes
              exact outcomes.elim
      | ok leftAfter =>
          rw [leftDispatch] at outcomes
          cases rightDispatch : nrosDispatch table right.board frame with
          | error fault =>
              rw [rightDispatch] at outcomes
              exact outcomes.elim
          | ok rightAfter =>
              rw [rightDispatch] at outcomes
              exact .some ⟨outcomes, written⟩
  | txPoll accepted =>
      obtain ⟨after, bytes⟩ := txPoll_sameLater boards accepted
      have grown : right.written ++ (right.board.txPoll accepted).2 =
          left.written ++ (left.board.txPoll accepted).2 := by
        rw [written, bytes]
      exact .some ⟨after, grown⟩
  | publish topicId serialized =>
      exact .some ⟨publish_sameLater boards topicId serialized, written⟩

theorem laterBytes_of_sameLater (table : TopicTable) {left right : Board}
    (same : left.SameLater right) (events : List BoardEvent) :
    laterBytes table right events = laterBytes table left events := by
  have runs := exec_related (step_sameHistory table)
    (show SameHistory { board := left, written := [], sessionOpen := false }
      { board := right, written := [], sessionOpen := false } from
        ⟨same, rfl⟩) events
  rw [laterBytes, laterBytes]
  generalize exec (BoardHistory.step table)
    { board := left, written := [], sessionOpen := false } events = leftRun
    at runs ⊢
  generalize exec (BoardHistory.step table)
    { board := right, written := [], sessionOpen := false } events = rightRun
    at runs ⊢
  cases runs with
  | some after => exact congrArg some after.2
  | none => rfl

/-! ## Every run -/

/-- What holds of the publishes in a reachable state. -/
structure PublishLedger.Exact (table : TopicTable)
    (ledger : PublishLedger) : Prop where
  /-- The accepted publishes are the completed DATA frames, in order, and at
  most one more that is being sent. -/
  account :
    (ledger.board.Resting ∧
        ledger.completed = ledger.accepted.map Frame.encoded) ∨
      (∃ frame, ledger.board.SendsData frame) ∧
        ledger.completed ++ [ledger.current ++ ledger.board.unsent] =
          ledger.accepted.map Frame.encoded
  /-- Nothing received changes what is still to be written of it. -/
  received : ∀ sent frame after, ledger.board.SendsData sent →
    nrosDispatch table ledger.board frame = .ok after →
      after.SendsData sent ∧ after.unsent = ledger.board.unsent
  /-- Nor does another publish. -/
  published : ∀ sent topicId serialized, ledger.board.SendsData sent →
    ledger.board.nrosPublish topicId serialized = (false, ledger.board)
  /-- A publish that returns false changes no byte that is later written. -/
  rejected : ∀ topicId serialized,
    (ledger.board.nrosPublish topicId serialized).1 = false →
      ∀ events, laterBytes table
        (ledger.board.nrosPublish topicId serialized).2 events =
          laterBytes table ledger.board events

/-- In every run, accepted publishes are neither lost, duplicated nor
altered. -/
theorem publishes_exact (table : TopicTable) (events : List BoardEvent)
    (ledger : PublishLedger)
    (run : exec (PublishLedger.step table) (.initial table) events =
      some ledger) : ledger.Exact table := by
  have balanced := PublishLedger.balanced_exec run
  refine ⟨?_, ?_, ?_, ?_⟩
  · cases balanced with
    | resting resting done => exact .inl ⟨resting, done⟩
    | publishing frame sending _ sent last =>
        refine .inr ⟨⟨frame, sending⟩, ?_⟩
        rw [sent, sending.1.take_append_unsent]
        exact last
  · intro sent frame after sending dispatched
    cases balanced with
    | resting resting _ =>
        rcases resting with idle | ⟨other, sendsOther, notData⟩
        · have state := sending.1.state
          rw [idle] at state
          cases state
        · rw [← sending.1.unique sendsOther] at notData
          exact absurd sending.2 notData
    | publishing _ _ outside _ _ =>
        have busy : ledger.board.tx.state ≠ .idle := by
          rw [sending.1.state]
          decide
        have same := ((dispatchStep dispatched).sameTransmission busy
          outside).1
        exact ⟨⟨same.sending sending.1, sending.2⟩, same.unsent⟩
  · intro sent topicId serialized sending
    have busy : ledger.board.tx.state ≠ .idle := by
      rw [sending.1.state]
      decide
    rw [nrosPublish, if_pos (.inl busy)]
  · intro topicId serialized rejected later
    exact laterBytes_of_sameLater table (sameLater_of_rejected rejected) later

/-- One publish is carried to completion, one is begun, a third one is turned
down. -/
def threePublishes : List BoardEvent :=
  [.receive discoverFrame, .txPoll 1024, .receive (ackFrame ⟨127, .ok⟩),
    .txPoll 1024, .publish 127 ⟨true, [0x2B], by decide⟩, .txPoll 1024,
    .publish 127 ⟨true, [0x2C], by decide⟩, .txPoll 3,
    .receive discoverFrame, .publish 127 ⟨true, [0x2D], by decide⟩]

theorem publishes_exact_threePublishes :
    ∃ ledger, exec (PublishLedger.step BoardHistory.onePublisher)
        (.initial BoardHistory.onePublisher) threePublishes = some ledger ∧
      ledger.accepted.length = 2 ∧
        ledger.Exact BoardHistory.onePublisher := by
  have returns :
      ∃ ledger ∈ exec (PublishLedger.step BoardHistory.onePublisher)
        (.initial BoardHistory.onePublisher) threePublishes,
        ledger.accepted.length = 2 := by
    decide +kernel
  obtain ⟨ledger, run, two⟩ := returns
  exact ⟨ledger, run, two,
    publishes_exact BoardHistory.onePublisher threePublishes ledger run⟩

end NanoRos
