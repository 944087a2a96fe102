import NanoRos.AgentFrames

/-!
# ACKs of the agent

The ACK that is due lives in one slot, which the next REGISTER overwrites.  No
round ends with the slot still full, so every REGISTER has its own ACK.
-/

namespace NanoRos

namespace WireFrame

def isRegister (frame : WireFrame) : Bool :=
  frame.header.type = NrosPacketType.register.toByte

def isAck (frame : WireFrame) : Bool :=
  frame.header.type = NrosPacketType.ack.toByte

/-- The ACK a REGISTER calls for: header and payload name its topic, and the
status is the one `decode_registration_frame` gives it. -/
def acknowledgement (frame : WireFrame) : WireFrame :=
  { header :=
      { NrosFrameHeader.zeroed with
        type := NrosPacketType.ack.toByte
        topicId := frame.header.topicId
        length := 2 }
    payload := NrosAckPayload.toBytes
      { topicId := frame.header.topicId
        status := (Agent.decodeRegistrationFrame frame .default).1 } }

end WireFrame

namespace Agent

theorem registerTopic_ack (agent : Agent) (frame : WireFrame) :
    (agent.registerTopic frame).ack =
      { needAck := true
        topicToAckId := frame.header.topicId
        status := (decodeRegistrationFrame frame .default).1 } := by
  simp only [registerTopic]
  split <;> rfl

theorem registerTopic_ackFrame (agent : Agent) (frame : WireFrame) :
    (agent.registerTopic frame).ackFrame = frame.acknowledgement := by
  simp only [ackFrame, registerTopic_ack]
  rfl

/-- A frame that is no REGISTER changes neither the slot nor the topics. -/
theorem DispatchStep.unregistered {rcl : Rclcpp} {before after : Agent}
    {frame : WireFrame} {published : Option Publication}
    (step : DispatchStep rcl before frame after published)
    (other : frame.isRegister = false) :
    after.ack = before.ack ∧ after.newTopics = before.newTopics := by
  cases step with
  | data _ _ _ _ same => rw [same]; exact ⟨rfl, rfl⟩
  | register type _ _ =>
      simp [WireFrame.isRegister, type] at other
  | registerDone _ _ _ spawned _ => rw [spawned]; exact ⟨rfl, rfl⟩
  | other _ _ _ same _ => rw [same]; exact ⟨rfl, rfl⟩

theorem DispatchStep.registered {rcl : Rclcpp} {before after : Agent}
    {frame : WireFrame} {published : Option Publication}
    (step : DispatchStep rcl before frame after published)
    (register : frame.isRegister = true) :
    after = before.registerTopic frame := by
  have type : frame.header.type = NrosPacketType.register.toByte := by
    simpa [WireFrame.isRegister] using register
  cases step with
  | data data _ _ _ _ =>
      rw [type] at data
      exact absurd data (by decide)
  | register _ registered _ => exact registered
  | registerDone done _ _ _ _ =>
      rw [type] at done
      exact absurd done (by decide)
  | other _ notRegister _ _ _ => exact absurd type notRegister

end Agent

namespace AgentHistory

/-- What was received has been answered, and nothing is due. -/
structure Answered (received : List WireFrame) (history : AgentHistory) :
    Prop where
  nothingDue : history.loop.agent.ack.needAck = false
  queued : QueueForwards history.arrived history.loop.agent.toClientMsgQueue
  acks : history.sent.filter WireFrame.isAck =
    (received.filter WireFrame.isRegister).map WireFrame.acknowledgement
  topics : history.loop.agent.newTopics =
    (received.filter WireFrame.isRegister).filterMap Agent.acceptedTopic

theorem answered_initial : initial.Answered [] where
  nothingDue := rfl
  queued := nofun
  acks := rfl
  topics := rfl

/-- A DISCOVER is no ACK. -/
theorem discover_filter_isAck (loop : AgentLoop) :
    loop.discover.2.filter WireFrame.isAck = [] := by
  unfold AgentLoop.discover
  split
  · rfl
  · rfl

/-- A forwarded ROS message is no ACK. -/
theorem forwarded_filter_isAck {arrived : List Incoming}
    {frames : List WireFrame}
    (forwards : ∀ frame ∈ frames, ∃ arrival ∈ arrived,
      Forwards arrival frame) :
    frames.filter WireFrame.isAck = [] := by
  rw [List.filter_eq_nil_iff]
  intro frame member
  obtain ⟨arrival, _, forwarded⟩ := forwards frame member
  simp only [WireFrame.isAck, forwarded.type, decide_eq_true_eq]
  decide

/-- The slot and the topics after `recv_frame` and `frame_dispatch`. -/
theorem receives_ack {rcl : Rclcpp} {before after : AgentLoop}
    {received : Option WireFrame} {published : Option Publication}
    (nothingDue : before.agent.ack.needAck = false)
    (receives : AgentLoop.Receives rcl before received after published) :
    (if after.agent.ack.needAck then [after.agent.ackFrame] else []) =
        (received.toList.filter WireFrame.isRegister).map
          WireFrame.acknowledgement ∧
      after.agent.newTopics = before.agent.newTopics ++
        (received.toList.filter WireFrame.isRegister).filterMap
          Agent.acceptedTopic := by
  cases receives with
  | nothing => simp [nothingDue]
  | @frame frame agent published dispatch =>
      cases register : frame.isRegister with
      | true =>
          have registered := dispatch.registered register
          have only : [frame].filter WireFrame.isRegister = [frame] := by
            simp [register]
          rw [Option.toList_some, only, registered]
          constructor
          · simp [Agent.registerTopic_ackFrame, Agent.registerTopic_ack]
          · rw [Agent.registerTopic_newTopics]
            cases accepted : Agent.acceptedTopic frame with
            | none => simp [accepted]
            | some t => simp [accepted]
      | false =>
          obtain ⟨ack, topics⟩ := dispatch.unregistered register
          constructor
          · simp [ack, nothingDue, register]
          · simp [topics, register]

theorem answered_step {rcl : Rclcpp} {before after : AgentHistory}
    {input : IterationInput} {received : List WireFrame}
    (answered : before.Answered received)
    (stepped : before.step rcl input = some after) :
    after.Answered (received ++ input.received.toList) := by
  unfold step at stepped
  split at stepped
  · cases stepped
  next output result =>
    cases stepped
    obtain ⟨loop, receives, round⟩ := AgentLoop.iterated result
    have earlier : before.arrived ⊆
        before.arrived ++ (input.beforeSize ++ input.beforePop) :=
      List.subset_append_left _ _
    have outbound := (answered.queued.mono earlier).takeOutbound
      (List.subset_append_of_subset_right _ (List.subset_append_left _ _))
      (List.subset_append_of_subset_right _ (List.subset_append_right _ _))
    rw [← receives.queue] at outbound
    obtain ⟨acks, topics⟩ := receives_ack answered.nothingDue receives
    constructor
    · rw [round.agent]
    · rw [round.agent]
      exact outbound.1
    · have ownAck : (if loop.agent.ack.needAck then [loop.agent.ackFrame]
          else []).filter WireFrame.isAck =
            if loop.agent.ack.needAck then [loop.agent.ackFrame] else [] := by
        split <;> rfl
      rw [round.sent, List.filter_append, List.filter_append,
        List.filter_append, answered.acks, discover_filter_isAck,
        forwarded_filter_isAck outbound.2, ownAck, acks, List.filter_append,
        List.map_append]
      rfl
    · rw [round.agent, List.filter_append, List.filterMap_append,
        ← answered.topics]
      exact topics

/-- The frames a list of rounds receives. -/
def received (inputs : List IterationInput) : List WireFrame :=
  inputs.flatMap fun input => input.received.toList

theorem answered_run {rcl : Rclcpp} {final : AgentHistory}
    {inputs : List IterationInput}
    (run : PartialRun.exec (step rcl) initial inputs = some final) :
    final.Answered (received inputs) := by
  have always : PartialRun.Along (step rcl) (fun _ _ => True) initial inputs :=
    PartialRun.along_of_forall (fun _ _ => trivial) _ _
  have kept (past : List IterationInput) (before : AgentHistory)
      (input : IterationInput) (after : AgentHistory)
      (answered : before.Answered (received past)) (_ : True)
      (stepped : before.step rcl input = some after) :
      after.Answered (received (past ++ [input])) := by
    rw [received, List.flatMap_append, List.flatMap_singleton]
    exact answered_step answered stepped
  exact PartialRun.exec_trace kept [] answered_initial always run

/-- In every run: the ACKs sent are, in order, one for each REGISTER received,
with its topic and its status, and the new topics are those of the accepted
ones. -/
theorem one_ack_per_registration (rcl : Rclcpp)
    (inputs : List IterationInput) (final : AgentHistory)
    (run : PartialRun.exec (step rcl) initial inputs = some final) :
    final.sent.filter WireFrame.isAck =
        ((received inputs).filter WireFrame.isRegister).map
          WireFrame.acknowledgement ∧
      final.loop.agent.newTopics =
        ((received inputs).filter WireFrame.isRegister).filterMap
          Agent.acceptedTopic := by
  have answered := answered_run run
  exact ⟨answered.acks, answered.topics⟩

theorem one_ack_per_registration_quietStart :
    ∃ final, PartialRun.exec (step Rclcpp.willing) initial quietStart =
        some final ∧
      final.sent.filter WireFrame.isAck = [registerFrame.acknowledgement] ∧
      final.loop.agent.newTopics.length = 1 := by
  have returns :
      (PartialRun.exec (step Rclcpp.willing) initial quietStart).isSome := by
    decide +kernel
  obtain ⟨final, run⟩ := Option.isSome_iff_exists.mp returns
  obtain ⟨acks, topics⟩ :=
    one_ack_per_registration Rclcpp.willing quietStart final run
  refine ⟨final, run, acks, ?_⟩
  rw [topics]
  decide

end AgentHistory

end NanoRos
