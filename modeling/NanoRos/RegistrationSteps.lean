import NanoRos.Registration

/-!
# The two parties take the steps of the protocol

As long as the parsers are in step with the bytes under way, each event of
the system is a step of the protocol, and they stay in step.
-/

namespace NanoRos

open Board PartialRun StopAndWait
open NrosStreamParser (Clears framesOf)
open Transducer (after emitted)

/-- The process is at the top of its loop, and its parser takes what is under
way to it for whole frames. -/
structure AgentProcess.Linked (process : AgentProcess)
    (flight : List UInt8) : Prop where
  clears : process.transport.parser.Clears flight
  answered : process.loop.agent.ack.needAck = false
  fresh : process.loop.needRegistration = true →
    process.loop = .initial
  queued : ∃ arrived, AgentHistory.QueueForwards arrived
    process.loop.agent.toClientMsgQueue

namespace TwoParty

structure Linked (table : TopicTable) (system : TwoParty) : Prop where
  settled : system.board.Settled
  inside : system.board.rx.awaitingAck = true →
    system.board.tx.topicRegistrationIdx.toNat < table.topics.length
  clears : system.board.parser.Clears system.toBoard
  process : ∀ process, system.agent = some process →
    process.Linked system.flight

/-- The last byte of the frame being sent completes it for the agent. -/
def Completing (system : TwoParty) : Prop :=
  ∀ process, system.agent = some process →
    NrosStreamParser.Completes
      (after NrosStreamParser.feedByte process.transport.parser system.toAgent)
      system.board.unsent

/-- One step of the system is one of the protocol, and keeps the parsers in
step. -/
structure Advances (table : TopicTable)
    (guard : State TopicKey → Backward → List Backward → Prop)
    (before after : TwoParty) : Prop where
  linked : after.Linked table
  completing : before.Completing → after.Completing
  step : Step table.keys guard before.view after.view

/-- The next byte on the link completes a frame. -/
def FrameArrives (system : TwoParty) : Prop :=
  system.board.parser.framesOf (system.toBoard.take 1) ≠ []

instance (system : TwoParty) : Decidable system.FrameArrives :=
  inferInstanceAs (Decidable (_ ≠ []))

/-- What the board hears next meets the guard. -/
def Guarded (guard : State TopicKey → Backward → List Backward → Prop)
    (system : TwoParty) : Prop :=
  ∀ message ∈ system.view.outbox.head?,
    guard system.view message system.view.outbox.tail

end TwoParty

section Board

variable {table : TopicTable} {system next : TwoParty}
  {guard : State TopicKey → Backward → List Backward → Prop}

/-- What is unsent grows by a frame, if one is loaded; before, nothing was
unsent then. -/
structure Board.Appends (before after : Board) (loaded : Option Frame) :
    Prop where
  unsent : after.unsent =
    before.unsent ++ loaded.toList.flatMap Frame.encoded
  behind : ∀ frame ∈ loaded, before.unsent = []
  deliverable : ∀ frame ∈ loaded, frame.Deliverable

theorem Board.Appends.of_sending {before after : Board} {frame : Frame}
    (idle : before.tx.state = .idle) (sending : after.Sending frame)
    (start : after.tx.bytesSent = 0) : before.Appends after (some frame) := by
  have nothing := unsent_of_idle idle
  refine ⟨?_, fun _ _ => nothing, ?_⟩
  · rw [nothing, sending.unsent_eq start]
    simp
  · intro loaded member
    cases member
    exact sending.deliverable

theorem Board.Hears.appends {before after : Board} {message : Backward}
    {loaded : Option Frame} (hears : before.Hears table message after loaded) :
    before.Appends after loaded := by
  cases loaded with
  | none =>
      refine ⟨?_, nofun, nofun⟩
      simpa using (hears.none rfl).unsent
  | some frame =>
      obtain ⟨idle, sending, start⟩ := hears.some frame rfl
      exact .of_sending idle sending start

theorem Board.Appends.moveParser {before after : Board}
    {loaded : Option Frame} (appends : before.Appends after loaded)
    (parser : NrosStreamParser) :
    before.Appends { after with parser } loaded :=
  ⟨appends.unsent, appends.behind, appends.deliverable⟩

/-- A frame put behind those under way to the agent. -/
theorem AgentProcess.Linked.post {process : AgentProcess}
    {flight : List UInt8} (linked : process.Linked flight)
    {loaded : Option Frame} (deliverable : ∀ frame ∈ loaded, frame.Deliverable) :
    process.Linked (flight ++ loaded.toList.flatMap Frame.encoded) ∧
      process.receiver (flight ++ loaded.toList.flatMap Frame.encoded) =
        (process.receiver flight).post (loaded.toList.map forwardMessage) := by
  cases loaded with
  | none => simpa [Receiver.post] using linked
  | some frame =>
      obtain ⟨clears, frames⟩ :=
        linked.clears.append_frame (deliverable frame rfl)
      simp only [Option.toList_some, List.flatMap_cons, List.flatMap_nil,
        List.append_nil, List.map_cons, List.map_nil]
      refine ⟨⟨clears, linked.answered, linked.fresh, linked.queued⟩, ?_⟩
      simp only [AgentProcess.receiver, Receiver.post,
        SerialTransport.pending, frames]
      simp

/-- What the agent's side sees when the board has loaded a frame or none. -/
theorem TwoParty.Linked.post (linked : system.Linked table)
    (agent : next.agent = system.agent)
    (toAgent : next.toAgent = system.toAgent) {loaded : Option Frame}
    (appends : system.board.Appends next.board loaded) :
    (∀ process, next.agent = some process → process.Linked next.flight) ∧
      next.view.receiver = system.view.receiver.map
        (·.post (loaded.toList.map forwardMessage)) := by
  have flight : next.flight =
      system.flight ++ loaded.toList.flatMap Frame.encoded := by
    rw [TwoParty.flight, TwoParty.flight, toAgent, appends.unsent,
      List.append_assoc]
  constructor
  · intro process running
    rw [agent] at running
    rw [flight]
    exact ((linked.process process running).post appends.deliverable).1
  · simp only [TwoParty.view, agent, flight]
    cases running : system.agent with
    | none => rfl
    | some process =>
        have posted :=
          (linked.process process running).post appends.deliverable
        simp only [Option.map_some, posted.2]

theorem Board.Settled.moveParser {board : Board} (settled : board.Settled)
    (parser : NrosStreamParser) :
    Board.Settled { board with parser } := by
  have same : board.SameTransmission { board with parser } :=
    ⟨rfl, rfl, rfl, rfl⟩
  exact same.settled settled

/-- A frame is loaded when nothing else is unsent. -/
theorem TwoParty.Completing.post (completing : system.Completing)
    (linked : system.Linked table) (agent : next.agent = system.agent)
    (toAgent : next.toAgent = system.toAgent) {loaded : Option Frame}
    (appends : system.board.Appends next.board loaded) : next.Completing := by
  intro process running
  rw [agent] at running
  rw [toAgent, appends.unsent]
  cases loaded with
  | none => simpa using completing process running
  | some frame =>
      have nothing := appends.behind frame rfl
      have hunting := (linked.process process running).clears
      rw [TwoParty.flight, nothing, List.append_nil] at hunting
      rw [nothing]
      simp only [Option.toList_some, List.flatMap_cons, List.flatMap_nil,
        List.append_nil, List.nil_append]
      exact NrosStreamParser.completes_frame hunting
        (appends.deliverable frame rfl)

/-- What reading one byte does: only the parser moves, or a frame is
dispatched as well. -/
inductive TwoParty.RxByte (table : TopicTable) (before after : TwoParty) : Prop
  | silent (parser : NrosStreamParser) (toBoard : List UInt8)
      (moved : after =
        { before with board := { before.board with parser }, toBoard })
      (frames : parser.framesOf toBoard =
        before.board.parser.framesOf before.toBoard)
      (ends : parser.Clears toBoard ↔
        before.board.parser.Clears before.toBoard)
  | dispatched (arrives : before.FrameArrives) (frame : Frame) (board : Board)
      (dispatch : before.board.DispatchStep table frame board)
      (parser : NrosStreamParser) (toBoard : List UInt8)
      (moved : after = { before with board := { board with parser }, toBoard })
      (frames : before.board.parser.framesOf before.toBoard =
        frame :: parser.framesOf toBoard)
      (ends : parser.Clears toBoard ↔
        before.board.parser.Clears before.toBoard)

theorem TwoParty.rxByte (stepped : system.rxPoll table 1 = some next) :
    system.RxByte table next := by
  unfold rxPoll at stepped
  rw [rxPoll_eq] at stepped
  cases link : system.toBoard with
  | nil =>
      rw [link] at stepped
      cases stepped
      refine .silent system.board.parser [] rfl ?_ ?_ <;> rw [link]
  | cons byte rest =>
      rw [link] at stepped
      simp only [List.take_succ_cons, List.take_zero, List.drop_succ_cons,
        List.drop_zero, Transducer.emitted_cons, Transducer.after_cons,
        Transducer.emitted_nil, Transducer.after_nil, List.append_nil]
        at stepped
      have frames := system.board.parser.framesOf_cons byte rest
      cases fires : (system.board.parser.feedByte byte).2 with
      | none =>
          rw [fires] at stepped frames
          cases stepped
          refine .silent (system.board.parser.feedByte byte).1 rest rfl ?_ ?_
          · rw [link, frames]
            rfl
          · rw [link]
            rfl
      | some event =>
          rw [fires] at stepped frames
          simp only [Option.toList_some, dispatchEach, List.foldl_cons,
            List.foldl_nil, onFrameCb] at stepped
          cases dispatched : nrosDispatch table system.board event.frame with
          | error fault =>
              rw [dispatched] at stepped
              cases stepped
          | ok board =>
              rw [dispatched] at stepped
              cases stepped
              refine .dispatched ?_ event.frame board (dispatchStep dispatched)
                (system.board.parser.feedByte byte).1 rest rfl ?_ ?_
              · rw [FrameArrives, link, List.take_succ_cons, List.take_zero,
                  NrosStreamParser.framesOf_cons, fires]
                exact List.cons_ne_nil _ _
              · rw [link, frames]
                rfl
              · rw [link]
                rfl

/-- One byte read by the board. -/
theorem TwoParty.Linked.rxByte
    (registrable : table.Registrable) (linked : system.Linked table)
    (guarded : system.FrameArrives → system.Guarded guard)
    (clear : system.FrameArrives →
      ∀ message ∈ system.view.outbox.head?, message = .ack →
        system.view.sender.awaiting = true →
          system.view.sender.active = true → system.view.sender.busy = false)
    (stepped : system.rxPoll table 1 = some next) :
    system.Advances table guard next := by
  cases TwoParty.rxByte stepped with
  | silent parser toBoard moved frames ends =>
      subst moved
      refine ⟨?_, id, ?_⟩
      · exact ⟨linked.settled.moveParser parser, linked.inside,
          ends.mpr linked.clears, linked.process⟩
      · have same : TwoParty.view { system with
            board := { system.board with parser }, toBoard } =
              system.view := by
          simp only [TwoParty.view, frames]
          rfl
        rw [same]
        exact .quiet
  | dispatched arrives frame board dispatch parser toBoard moved frames ends =>
      have head : system.view.outbox = backwardMessage frame ::
          (parser.framesOf toBoard).map backwardMessage := by
        simp only [TwoParty.view, frames, List.map_cons]
      have heard : backwardMessage frame ∈ system.view.outbox.head? := by
        rw [head]
        rfl
      have safe := clear arrives (backwardMessage frame) heard
      obtain ⟨loaded, hears⟩ := dispatch.hears registrable linked.inside (by
        intro ack awaiting active
        exact busy_eq_false_iff.mp (safe ack awaiting active))
      have agent : next.agent = system.agent := by rw [moved]
      have toAgent : next.toAgent = system.toAgent := by rw [moved]
      have appends : system.board.Appends next.board loaded := by
        rw [moved]
        exact hears.appends.moveParser parser
      obtain ⟨processes, receiver⟩ := linked.post agent toAgent appends
      refine ⟨?_, ?_, ?_⟩
      · refine ⟨?_, ?_, ?_, processes⟩
        · rw [moved]
          exact (dispatch.settled linked.settled).moveParser parser
        · rw [moved]
          exact hears.inside
        · rw [moved]
          exact ends.mpr linked.clears
      · intro completing
        exact completing.post linked agent toAgent appends
      · have view : next.view =
            { system.view with
              sender := (system.view.sender.hear table.keys
                (backwardMessage frame)).1
              receiver := system.view.receiver.map (·.post
                (system.view.sender.hear table.keys
                  (backwardMessage frame)).2)
              outbox := (parser.framesOf toBoard).map backwardMessage } := by
          have sender : system.view.sender.hear table.keys
              (backwardMessage frame) =
                (board.sender, loaded.toList.map forwardMessage) :=
            hears.sender
          rw [sender, ← receiver]
          simp only [TwoParty.view, moved]
          rfl
        rw [view]
        apply Step.hear _ _ head
        have permitted := guarded arrives (backwardMessage frame) heard
        rw [head] at permitted
        exact permitted

/-- Only the board's session variables have changed. -/
theorem TwoParty.view_of_sender (agent : next.agent = system.agent)
    (flight : next.flight = system.flight)
    (parser : next.board.parser = system.board.parser)
    (toBoard : next.toBoard = system.toBoard)
    (dispatched : next.dispatched = system.dispatched) :
    next.view = { system.view with sender := next.board.sender } := by
  simp only [TwoParty.view, agent, flight, parser, toBoard, dispatched]

theorem Board.TxStep.flight {before after : Board} {bytes : List UInt8}
    (step : before.TxStep after bytes) :
    bytes ++ after.unsent = before.unsent := by
  cases step with
  | quiet idle same nothing => rw [same, nothing, List.nil_append]
  | partly _ _ _ _ split _ _ => rw [split]
  | finished _ _ whole completed =>
      rw [whole, unsent_of_idle completed.idle, List.append_nil]

/-- What a write leaves of the session: nothing changes, or the last byte of
a frame is out. -/
theorem Board.TxStep.session {before after : Board} {bytes : List UInt8}
    (step : before.TxStep after bytes) :
    after.parser = before.parser ∧ after.rx = before.rx ∧
      after.tx.topicRegistrationIdx = before.tx.topicRegistrationIdx ∧
      (after.sender = before.sender ∨
        before.sender.busy = true ∧ after.sender = before.sender.finish) := by
  cases step with
  | quiet idle same nothing =>
      rw [same]
      exact ⟨rfl, rfl, rfl, .inl rfl⟩
  | partly frame sending still _ _ same rx =>
      refine ⟨same.parser, rx, same.idx, .inl ?_⟩
      rw [same.sender still, rx, ← busy_of_sending sending]
      rfl
  | finished frame sending _ completed =>
      refine ⟨completed.parser, completed.rx, completed.idx, .inr ?_⟩
      refine ⟨busy_of_sending sending, ?_⟩
      simp [Board.sender, Sender.finish, completed.idle, completed.idx,
        completed.isRegistration, completed.regDone, completed.complete,
        completed.rx]

/-- A write of the board. -/
theorem TwoParty.Linked.txPoll
    (linked : system.Linked table) (accepted : Nat) :
    system.Advances table guard (system.txPoll accepted) := by
  have step := txStep linked.settled accepted
  have flight : (system.txPoll accepted).flight = system.flight := by
    simp only [TwoParty.txPoll, TwoParty.flight, List.append_assoc,
      step.flight]
  obtain ⟨parser, rx, idx, sender⟩ := step.session
  refine ⟨?_, ?_, ?_⟩
  · refine ⟨step.settled linked.settled, ?_, ?_, ?_⟩
    · simp only [TwoParty.txPoll, rx, idx]
      exact linked.inside
    · simp only [TwoParty.txPoll, parser]
      exact linked.clears
    · intro process running
      rw [flight]
      exact linked.process process running
  · intro completing process running
    have completes := completing process running
    rw [← step.flight] at completes
    have advanced := completes.advance
    rwa [← Transducer.after_append] at advanced
  · have agent : (system.txPoll accepted).agent = system.agent := rfl
    rw [TwoParty.view_of_sender agent flight parser rfl rfl]
    rcases sender with same | ⟨busy, finished⟩
    · have unchanged : (system.txPoll accepted).board.sender =
          system.view.sender := same
      rw [unchanged]
      exact .quiet
    · have ends : (system.txPoll accepted).board.sender =
          system.view.sender.finish := finished
      rw [ends]
      exact .finish busy

/-- What `nros_publish` leaves of the session: nothing changes, or a DATA
frame is loaded, which ends it. -/
theorem Board.PublishStep.session {before after : Board} {topicId : UInt8}
    {serialized : SerializeResult} {accepted : Bool}
    (step : before.PublishStep topicId serialized (accepted, after)) :
    after.parser = before.parser ∧ after.rx = before.rx ∧
      after.tx.topicRegistrationIdx = before.tx.topicRegistrationIdx ∧
      (before.Appends after none ∧ after.sender = before.sender ∨
        before.Appends after (some (dataFrame topicId serialized.bytes)) ∧
          before.sender.busy = false ∧ before.sender.complete = true ∧
            after.sender = before.sender.publish) := by
  cases step with
  | busy closed same =>
      rw [same]
      refine ⟨rfl, rfl, rfl, .inl ⟨⟨?_, nofun, nofun⟩, rfl⟩⟩
      simp
  | failed idle unfit stillIdle same rx =>
      refine ⟨same.parser, rx, same.idx, .inl ⟨⟨?_, nofun, nofun⟩, ?_⟩⟩
      · rw [unsent_of_idle stillIdle, unsent_of_idle idle]
        rfl
      · simp only [Board.sender, same.idx, same.isRegistration, same.regDone,
          same.complete, idle, stillIdle, rx]
  | loaded idle complete fits sending start outside same rx =>
      refine ⟨same.parser, rx, same.idx, .inr ?_⟩
      refine ⟨.of_sending idle sending start, busy_eq_false_iff.mpr idle,
        complete, ?_⟩
      rw [same.sender sending, rx]
      rfl

/-- A call of `nros_publish`. -/
theorem TwoParty.Linked.publish
    (linked : system.Linked table) (topicId : UInt8)
    (serialized : SerializeResult) :
    system.Advances table guard (system.publish topicId serialized) := by
  have step := publishStep system.board topicId serialized
  generalize outcome : system.board.nrosPublish topicId serialized = result
    at step
  obtain ⟨accepted, board⟩ := result
  have published : system.publish topicId serialized =
      { system with board } := by
    rw [TwoParty.publish, outcome]
  rw [published]
  obtain ⟨parser, rx, idx, session⟩ := step.session
  have agent : TwoParty.agent { system with board } = system.agent := rfl
  have kept {loaded : Option Frame}
      (appends : system.board.Appends board loaded)
      (taken : Step table.keys guard system.view
        (TwoParty.view { system with board })) :
      system.Advances table guard { system with board } := by
    obtain ⟨processes, _⟩ := linked.post agent rfl appends
    refine ⟨?_, ?_, taken⟩
    · refine ⟨step.settled linked.settled, ?_, ?_, processes⟩
      · simp only [rx, idx]
        exact linked.inside
      · simp only [parser]
        exact linked.clears
    · intro completing
      exact completing.post linked agent rfl appends
  rcases session with ⟨appends, same⟩ | ⟨appends, idle, complete, ended⟩
  · apply kept appends
    have flight : TwoParty.flight { system with board } = system.flight := by
      simp [TwoParty.flight, appends.unsent]
    rw [TwoParty.view_of_sender agent flight parser rfl rfl]
    simp only [same]
    exact .quiet
  · apply kept appends
    obtain ⟨_, receiver⟩ := linked.post agent rfl appends
    have view : TwoParty.view { system with board } =
        { system.view with
          sender := system.view.sender.publish
          receiver := system.view.receiver.map (·.post [.data]) } := by
      have posted : [forwardMessage (dataFrame topicId serialized.bytes)] =
          [.data] := by
        rw [forwardMessage_data rfl]
      simp only [Option.toList_some, List.map_cons, List.map_nil, posted]
        at receiver
      rw [← receiver]
      simp only [TwoParty.view, ended, parser]
    rw [view]
    exact .publish idle complete

end Board

end NanoRos
