import NanoRos.AgentRuns
import NanoRos.RegistrationSteps

/-!
# A round of the agent as a step of the protocol

The agent takes at most one frame from the link and answers it in the same
round, behind its DISCOVER and the DATA that other threads have queued.
-/

namespace NanoRos

open Board PartialRun StopAndWait
open NrosStreamParser (Clears framesOf)
open SerialTransport (Counted frameBytes onLink)

/-! ## What one round handles and sends -/

/-- The topics that a frame adds to `new_topics_`. -/
theorem Agent.registerTopic_keys (agent : Agent) (frame : WireFrame) :
    (agent.registerTopic frame).newTopics.map Topic.key =
      agent.newTopics.map Topic.key ++ (registeredKey frame).toList := by
  rw [registerTopic_newTopics, List.map_append, registeredKey]
  cases acceptedTopic frame with
  | none => rfl
  | some t => rfl

/-- An ACK is due after every REGISTER. -/
theorem Agent.registerTopic_needAck (agent : Agent) (frame : WireFrame) :
    (agent.registerTopic frame).ack.needAck = true := by
  unfold registerTopic
  dsimp only
  split_ifs <;> rfl

theorem Agent.DispatchStep.message {rcl : Rclcpp} {before after : Agent}
    {frame : WireFrame} {published : Option Publication}
    (answered : before.ack.needAck = false)
    (step : Agent.DispatchStep rcl before frame after published) :
    after.newTopics.map Topic.key =
        before.newTopics.map Topic.key ++ (forwardMessage frame).items ∧
      (if after.ack.needAck then [Backward.ack] else []) =
        (forwardMessage frame).reply := by
  cases step with
  | data type _ _ _ same =>
      rw [forwardMessage_data type, same, answered]
      exact ⟨(List.append_nil _).symm, rfl⟩
  | register type registered _ =>
      rw [forwardMessage_register type, registered,
        Agent.registerTopic_needAck]
      exact ⟨Agent.registerTopic_keys before frame, rfl⟩
  | registerDone type _ _ spawned _ =>
      rw [forwardMessage_done type, spawned, answered]
      exact ⟨(List.append_nil _).symm, rfl⟩
  | other notData notRegister notDone same _ =>
      rw [forwardMessage_other notData notRegister notDone, same, answered]
      exact ⟨(List.append_nil _).symm, rfl⟩

/-- The messages on the link of frames that are sent. -/
def sentMessages (sent : List WireFrame) : List Backward :=
  (sent.flatMap onLink).map backwardMessage

theorem sentMessages_append (left right : List WireFrame) :
    sentMessages (left ++ right) = sentMessages left ++ sentMessages right := by
  simp [sentMessages]

theorem sentMessages_single {frame : WireFrame}
    (fits : frame.payload.length ≤ nrosMaxPayload) :
    sentMessages [frame] = [backwardMessage frame.onWire] := by
  simp [sentMessages, onLink, fits]

theorem sentMessages_data {sent : List WireFrame}
    (data : ∀ frame ∈ sent, frame.header.type = NrosPacketType.data.toByte) :
    ∃ others, sentMessages sent = List.replicate others .other := by
  refine ⟨(sentMessages sent).length, List.eq_replicate_iff.mpr ⟨rfl, ?_⟩⟩
  intro message member
  obtain ⟨arrived, inside, rfl⟩ := List.mem_map.mp member
  obtain ⟨frame, sentFrame, arrives⟩ := List.mem_flatMap.mp inside
  have type := data frame sentFrame
  unfold onLink at arrives
  split at arrives
  · rw [List.mem_singleton.mp arrives]
    apply backwardMessage_other
    · show frame.header.type ≠ _
      rw [type]
      decide
    · show frame.header.type ≠ _
      rw [type]
      decide
  · cases arrives

/-- What a round does, in terms of the messages. -/
structure AgentLoop.Answers (loop : AgentLoop) (received : Option WireFrame)
    (output : IterationOutput) : Prop where
  greeted : output.loop.needRegistration = false
  answered : output.loop.agent.ack.needAck = false
  queued : ∃ arrived, AgentHistory.QueueForwards arrived
    output.loop.agent.toClientMsgQueue
  topics : output.loop.agent.newTopics.map Topic.key =
    loop.agent.newTopics.map Topic.key ++
      received.toList.flatMap fun frame => (forwardMessage frame).items
  counted : ∀ frame ∈ output.sent, Counted frame
  sent : ∃ others, sentMessages output.sent =
    (if loop.needRegistration then [.start] else []) ++
      List.replicate others .other ++
        received.toList.flatMap fun frame => (forwardMessage frame).reply

/-- What `recv_frame` and `frame_dispatch` do, in terms of the messages. -/
theorem AgentLoop.Receives.message {rcl : Rclcpp} {before after : AgentLoop}
    {received : Option WireFrame} {published : Option Publication}
    (answered : before.agent.ack.needAck = false)
    (receives : AgentLoop.Receives rcl before received after published) :
    after.agent.newTopics.map Topic.key =
        before.agent.newTopics.map Topic.key ++
          (received.toList.flatMap fun frame => (forwardMessage frame).items) ∧
      (if after.agent.ack.needAck then [Backward.ack] else []) =
        received.toList.flatMap fun frame => (forwardMessage frame).reply := by
  cases receives with
  | nothing => simp [answered]
  | frame dispatch =>
      obtain ⟨topics, reply⟩ := dispatch.message answered
      simp [topics, reply]

/-- A DISCOVER that carries no stale payload. -/
theorem AgentLoop.discover_messages (loop : AgentLoop)
    (empty : loop.needRegistration = true → loop.frame.payload = []) :
    (∀ frame ∈ loop.discover.2, Counted frame) ∧
      sentMessages loop.discover.2 =
        if loop.needRegistration then [.start] else [] := by
  unfold AgentLoop.discover
  split_ifs with fresh
  · have empty := empty fresh
    constructor
    · intro frame member
      rw [List.mem_singleton.mp member]
      intro _
      show 0 = loop.frame.payload.length
      rw [empty]
      rfl
    · have fits : loop.frame.payload.length ≤ nrosMaxPayload := by
        rw [empty]
        exact Nat.zero_le _
      apply (sentMessages_single _).trans
      · rw [backwardMessage_discover rfl]
      · exact fits
  · exact ⟨nofun, rfl⟩

theorem Agent.ackFrame_messages (agent : Agent) :
    sentMessages (if agent.ack.needAck then [agent.ackFrame] else []) =
      if agent.ack.needAck then [.ack] else [] := by
  have length : agent.ackFrame.payload.length = 2 := rfl
  have fits : agent.ackFrame.payload.length ≤ nrosMaxPayload := by
    rw [length]
    decide
  split_ifs
  · rw [sentMessages_single fits, backwardMessage_ack rfl]
  · rfl

theorem AgentLoop.answers {rcl : Rclcpp} {loop : AgentLoop}
    {input : IterationInput} {output : IterationOutput}
    (result : loop.iterate rcl input = .ok output)
    (answered : loop.agent.ack.needAck = false)
    (clean : loop.needRegistration = true →
      (input.received.getD loop.frame).payload = [])
    (queued : ∃ arrived, AgentHistory.QueueForwards arrived
      loop.agent.toClientMsgQueue) :
    loop.Answers input.received output := by
  obtain ⟨after, received, round⟩ := AgentLoop.iterated result
  obtain ⟨topics, reply⟩ := received.message answered
  obtain ⟨arrived, forwards⟩ := queued
  rw [← received.queue] at forwards
  have outbound := (forwards.mono (List.subset_append_left arrived
    (input.beforeSize ++ input.beforePop))).takeOutbound
      (List.subset_append_of_subset_right _ (List.subset_append_left _ _))
      (List.subset_append_of_subset_right _ (List.subset_append_right _ _))
  have discovers := after.discover_messages (by
    intro fresh
    rw [received.frame_eq]
    exact clean (received.needRegistration ▸ fresh))
  rw [received.needRegistration] at discovers
  obtain ⟨others, data⟩ := sentMessages_data (fun frame member => by
    obtain ⟨arrival, _, forwarded⟩ := outbound.2 frame member
    exact forwarded.type)
  constructor
  · exact round.discovered
  · rw [round.agent]
  · rw [round.agent]
    exact ⟨_, outbound.1⟩
  · rw [round.agent]
    exact topics
  · intro frame member
    rw [round.sent] at member
    rcases List.mem_append.mp member with earlier | ack
    · rcases List.mem_append.mp earlier with discover | forwarded
      · exact discovers.1 frame discover
      · obtain ⟨arrival, _, forwards⟩ := outbound.2 frame forwarded
        exact forwards.counts
    · split at ack
      · rw [List.mem_singleton.mp ack]
        intro _
        rfl
      · cases ack
  · refine ⟨others, ?_⟩
    rw [round.sent, sentMessages_append, sentMessages_append, discovers.2,
      data, after.agent.ackFrame_messages, reply]

/-! ## One round -/

/-- The reads of a round take bytes off the link, and `EAGAIN` none. -/
theorem readsFrom_bytes (link : List UInt8) (counts : List Nat) :
    (readsFrom link counts).1.flatMap ReadOutcome.bytes ++
      (readsFrom link counts).2 = link := by
  induction counts generalizing link with
  | nil => rfl
  | cons count counts induction =>
      have rest := induction (link.drop (min count recvChunkSize))
      have chunk : ReadOutcome.bytes
          (if link.take (min count recvChunkSize) = [] then .interrupted
            else .data (link.take (min count recvChunkSize))) =
          link.take (min count recvChunkSize) := by
        split_ifs with nothing
        · rw [nothing]
          rfl
        · rfl
      simp only [readsFrom, List.flatMap_cons, chunk]
      rw [List.append_assoc, rest, List.take_append_drop]

/-- What a round reads: at most one frame of those under way. -/
structure AgentProcess.Reads (rcl : Rclcpp) (process : AgentProcess)
    (link : List UInt8) (reads : List Nat) (round : AgentProcess.Round) :
    Prop where
  returned : process.transport.recvFrame 0 (readsFrom link reads).1 =
    some round.received
  receives : ∀ behind, process.transport.Receives (link ++ behind)
    round.received (round.left ++ behind)
  outcome : ∃ input : IterationInput,
    input.received = round.received.frame ∧
      round.outcome = process.loop.iterate rcl input

theorem AgentProcess.reads {rcl : Rclcpp} {process : AgentProcess}
    {link : List UInt8} {reads : List Nat}
    {beforeSize beforePop : List Incoming} {round : AgentProcess.Round}
    (result : process.round rcl link reads beforeSize beforePop =
      some round) :
    process.Reads rcl link reads round := by
  unfold AgentProcess.round at result
  have bytes := readsFrom_bytes link reads
  generalize taken : readsFrom link reads = outcomes at bytes result
  obtain ⟨outcomes, left⟩ := outcomes
  dsimp only at bytes result
  split at result
  · cases result
  next received returned =>
    cases result
    refine ⟨?_, ?_, _, rfl, rfl⟩
    · rw [taken]
      exact returned
    · intro behind
      rw [← bytes, List.append_assoc, List.append_assoc]
      exact SerialTransport.recvFrame_receives returned _

/-- A round that fails has received a frame. -/
theorem AgentProcess.Reads.received_of_error {rcl : Rclcpp}
    {process : AgentProcess} {link : List UInt8} {reads : List Nat}
    {round : AgentProcess.Round} {fault : AgentFault}
    (read : process.Reads rcl link reads round)
    (failed : round.outcome = .error fault) :
    ∃ frame, round.received.frame = some frame := by
  obtain ⟨input, handled, outcome⟩ := read.outcome
  rw [failed] at outcome
  rw [← handled]
  cases arrived : input.received with
  | none =>
      simp only [AgentLoop.iterate, AgentLoop.receive, arrived] at outcome
      cases outcome
  | some frame => exact ⟨frame, rfl⟩

/-- In its first round the process receives no frame, or one without a
payload, or a DATA frame, which ends it. -/
def TwoParty.CleanStart (system : TwoParty) (reads : List Nat) : Prop :=
  ∀ process ∈ system.agent, process.loop.needRegistration = true →
    ∀ received ∈ process.transport.recvFrame 0
      (readsFrom system.toAgent reads).1,
      ∀ frame ∈ received.frame,
        frame.header.type = NrosPacketType.data.toByte ∨ frame.payload = []

instance (system : TwoParty) (reads : List Nat) :
    Decidable (system.CleanStart reads) :=
  inferInstanceAs (Decidable (∀ process ∈ system.agent, _ → ∀ received ∈ _,
    ∀ frame ∈ _, _ ∨ Frame.payload frame = []))

section Round

variable {table : TopicTable} {rcl : Rclcpp} {system : TwoParty}
  {process : AgentProcess} {reads : List Nat} {round : AgentProcess.Round}

/-- What a process that does not fail answers in a round. -/
theorem TwoParty.Linked.answers {output : IterationOutput}
    (linked : system.Linked table) (running : system.agent = some process)
    (clean : system.CleanStart reads)
    (read : process.Reads rcl system.toAgent reads round)
    (finished : round.outcome = .ok output) :
    process.loop.Answers round.received.frame output := by
  have before := linked.process process running
  obtain ⟨input, handled, outcome⟩ := read.outcome
  rw [finished] at outcome
  rw [← handled]
  refine AgentLoop.answers outcome.symm before.answered ?_ before.queued
  intro fresh
  have initial := before.fresh fresh
  cases arrived : input.received with
  | none =>
      rw [initial]
      rfl
  | some frame =>
      have first := clean process running fresh round.received read.returned
        frame (handled ▸ arrived)
      rcases first with data | empty
      · have unconnected : process.loop.agent.client = none := by
          rw [initial]
          rfl
        have ends : process.loop.iterate rcl input = .error .nullClient :=
          AgentLoop.iterate_nullClient_iff.mpr
            ⟨unconnected, frame, arrived, data⟩
        rw [ends] at outcome
        cases outcome
      · exact empty

/-- The messages under way to a process, before it reads. -/
theorem AgentProcess.Reads.inbox
    (read : process.Reads rcl system.toAgent reads round) :
    (process.receiver system.flight).inbox =
      round.received.frame.toList.map forwardMessage ++
        (round.received.transport.pending
          (round.left ++ system.board.unsent)).map forwardMessage := by
  rw [← List.map_append, ← (read.receives system.board.unsent).pending]
  rfl

theorem TwoParty.view_receiver (running : system.agent = some process) :
    system.view.receiver = some (process.receiver system.flight) := by
  simp only [TwoParty.view, running, Option.map_some]

/-- What a round adds to the history. -/
theorem TwoParty.reading_history (system : TwoParty) (process : AgentProcess)
    (round : AgentProcess.Round) :
    (system.reading process round).dispatched.map Dispatched.message =
      system.view.history ++ round.received.frame.toList.map fun frame =>
        (forwardMessage frame, (process.receiver system.flight).received) := by
  simp only [TwoParty.reading, TwoParty.view, List.map_append, List.map_map,
    Function.comp_def, Dispatched.message, AgentProcess.receiver]

/-- A round that ends in a fault. -/
theorem TwoParty.Linked.crash {fault : AgentFault}
    {guard : State TopicKey → Backward → List Backward → Prop}
    (linked : system.Linked table) (running : system.agent = some process)
    (read : process.Reads rcl system.toAgent reads round)
    (failed : round.outcome = .error fault) :
    system.Advances table guard
      { system.reading process round with agent := none } := by
  obtain ⟨frame, arrived⟩ := read.received_of_error failed
  have inbox := read.inbox
  have history := system.reading_history process round
  simp only [arrived, Option.toList_some, List.map_cons, List.map_nil,
    List.cons_append, List.nil_append] at inbox history
  refine ⟨?_, ?_, ?_⟩
  · refine ⟨linked.settled, linked.inside, linked.clears, ?_⟩
    intro process running
    cases running
  · intro _ process running
    cases running
  · have view :
        TwoParty.view { system.reading process round with agent := none } =
          { system.view with
            receiver := none
            history := system.view.history ++
              [(forwardMessage frame,
                (process.receiver system.flight).received)] } :=
      State.ext rfl rfl rfl history
    rw [view]
    exact .crash _ (TwoParty.view_receiver running) _ _ inbox

/-- The system after a round that did not fail. -/
def TwoParty.afterRound (system : TwoParty) (process : AgentProcess)
    (round : AgentProcess.Round) (output : IterationOutput) : TwoParty :=
  { system.reading process round with
    agent := some
      { loop := output.loop, transport := round.received.transport }
    toBoard := system.toBoard ++ output.sent.flatMap frameBytes }

section AfterRound

variable {output : IterationOutput}

theorem TwoParty.Linked.afterRound (linked : system.Linked table)
    (running : system.agent = some process)
    (read : process.Reads rcl system.toAgent reads round)
    (answers : process.loop.Answers round.received.frame output) :
    (system.afterRound process round output).Linked table := by
  have flight := read.receives system.board.unsent
  obtain ⟨clears, _⟩ :=
    SerialTransport.append_sent output.sent linked.clears answers.counted
  refine ⟨linked.settled, linked.inside, clears, ?_⟩
  intro after stillRunning
  cases stillRunning
  refine ⟨?_, answers.answered, ?_, answers.queued⟩
  · show Clears round.received.transport.parser
      (round.left ++ system.board.unsent)
    rw [Clears, flight.parser]
    exact (linked.process process running).clears
  · intro fresh
    rw [answers.greeted] at fresh
    cases fresh

theorem TwoParty.Completing.afterRound (completing : system.Completing)
    (running : system.agent = some process)
    (read : process.Reads rcl system.toAgent reads round) :
    (system.afterRound process round output).Completing := by
  intro after stillRunning
  cases stillRunning
  have parser := (read.receives []).parser
  rw [List.append_nil, List.append_nil] at parser
  show NrosStreamParser.Completes (Transducer.after _ _ round.left) _
  rw [parser]
  exact completing process running

/-- What the answers of a round add to the channel to the board. -/
theorem TwoParty.afterRound_outbox (linked : system.Linked table)
    (answers : process.loop.Answers round.received.frame output) :
    ∃ others, (system.afterRound process round output).view.outbox =
      system.view.outbox ++ ((process.receiver system.flight).greeting ++
        List.replicate others .other ++
          round.received.frame.toList.flatMap fun frame =>
            (forwardMessage frame).reply) := by
  obtain ⟨others, sent⟩ := answers.sent
  obtain ⟨_, frames⟩ :=
    SerialTransport.append_sent output.sent linked.clears answers.counted
  refine ⟨others, ?_⟩
  simp only [TwoParty.view, TwoParty.afterRound, TwoParty.reading, frames,
    List.map_append]
  exact congrArg _ sent

/-- The process after the round: what it has handled is no longer under way
to it. -/
theorem TwoParty.afterRound_receiver (system : TwoParty)
    (answers : process.loop.Answers round.received.frame output) :
    (system.afterRound process round output).view.receiver = some
      { fresh := false
        received := (process.receiver system.flight).received ++
          round.received.frame.toList.flatMap fun frame =>
            (forwardMessage frame).items
        inbox := (round.received.transport.pending
          (round.left ++ system.board.unsent)).map forwardMessage } := by
  simp only [TwoParty.view, TwoParty.flight, TwoParty.afterRound,
    TwoParty.reading, Option.map_some, AgentProcess.receiver, answers.greeted,
    answers.topics]

/-- The protocol's step is a round, or the handling of the frame received. -/
theorem TwoParty.afterRound_step
    {guard : State TopicKey → Backward → List Backward → Prop}
    (linked : system.Linked table) (running : system.agent = some process)
    (read : process.Reads rcl system.toAgent reads round)
    (answers : process.loop.Answers round.received.frame output) :
    Step table.keys guard system.view
      (system.afterRound process round output).view := by
  have wasRunning := TwoParty.view_receiver running
  have inbox := read.inbox
  have history := system.reading_history process round
  have receiver := TwoParty.afterRound_receiver system answers
  obtain ⟨others, outbox⟩ := TwoParty.afterRound_outbox linked answers
  cases arrived : round.received.frame with
  | none =>
      simp only [arrived, Option.toList_none, List.map_nil, List.flatMap_nil,
        List.append_nil, List.nil_append] at inbox outbox history receiver
      rw [← inbox] at receiver
      have view : (system.afterRound process round output).view =
          { system.view with
            receiver := some
              { process.receiver system.flight with fresh := false }
            outbox := system.view.outbox ++
              ((process.receiver system.flight).greeting ++
                List.replicate others .other) } :=
        State.ext rfl receiver outbox history
      rw [view]
      exact .round _ wasRunning others
  | some frame =>
      simp only [arrived, Option.toList_some, List.map_cons, List.map_nil,
        List.flatMap_cons, List.flatMap_nil, List.append_nil, List.cons_append,
        List.nil_append] at inbox outbox history receiver
      have view : (system.afterRound process round output).view =
          { system.view with
            receiver := some ((process.receiver system.flight).handled
              (forwardMessage frame) ((round.received.transport.pending
                (round.left ++ system.board.unsent)).map forwardMessage))
            outbox := system.view.outbox ++
              ((process.receiver system.flight).greeting ++
                List.replicate others .other ++ (forwardMessage frame).reply)
            history := system.view.history ++
              [(forwardMessage frame,
                (process.receiver system.flight).received)] } :=
        State.ext rfl receiver outbox history
      rw [view]
      exact .handle _ wasRunning _ _ inbox others

/-- A round that does not fail. -/
theorem TwoParty.Linked.finishRound
    {guard : State TopicKey → Backward → List Backward → Prop}
    (linked : system.Linked table) (running : system.agent = some process)
    (clean : system.CleanStart reads)
    (read : process.Reads rcl system.toAgent reads round)
    (finished : round.outcome = .ok output) :
    system.Advances table guard
      (system.afterRound process round output) := by
  have answers := linked.answers running clean read finished
  constructor
  · exact linked.afterRound running read answers
  · intro completing
    exact completing.afterRound running read
  · exact TwoParty.afterRound_step linked running read answers

end AfterRound

end Round

theorem TwoParty.Linked.agentRound {table : TopicTable} {rcl : Rclcpp}
    {system next : TwoParty}
    {guard : State TopicKey → Backward → List Backward → Prop}
    {reads : List Nat} {beforeSize beforePop : List Incoming}
    (linked : system.Linked table) (clean : system.CleanStart reads)
    (stepped : system.agentRound rcl reads beforeSize beforePop = some next) :
    system.Advances table guard next := by
  unfold TwoParty.agentRound at stepped
  split at stepped
  · cases stepped
  next process running =>
    split at stepped
    · cases stepped
    next round result =>
      have read := AgentProcess.reads result
      split at stepped
      next fault failed =>
        cases stepped
        exact linked.crash running read failed
      next output finished =>
        cases stepped
        exact linked.finishRound running clean read finished

end NanoRos
