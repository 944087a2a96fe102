import NanoRos.Agent

/-!
# What one round of the agent does

The cases of `frame_dispatch`, and what each part of the loop leaves alone.
-/

namespace NanoRos

namespace Agent

/-- What `frame_dispatch` does when it returns. -/
inductive DispatchStep (rcl : Rclcpp) (before : Agent) (frame : WireFrame)
    (after : Agent) (published : Option Publication) : Prop
  | data (type : frame.header.type = NrosPacketType.data.toByte)
      (client : ClientHandlerNode) (connected : before.client = some client)
      (publishes : client.clientPublish frame = .ok published)
      (same : after = before)
  | register (type : frame.header.type = NrosPacketType.register.toByte)
      (registered : after = before.registerTopic frame)
      (nothing : published = none)
  | registerDone
      (type : frame.header.type = NrosPacketType.registerDone.toByte)
      (client : ClientHandlerNode)
      (connects : ClientHandlerNode.initial.onClientConnect rcl
        before.newTopics = .ok client)
      (spawned : after = { before with client := some client })
      (nothing : published = none)
  | other (notData : frame.header.type ≠ NrosPacketType.data.toByte)
      (notRegister : frame.header.type ≠ NrosPacketType.register.toByte)
      (notDone : frame.header.type ≠ NrosPacketType.registerDone.toByte)
      (same : after = before) (nothing : published = none)

theorem dispatchStep {rcl : Rclcpp} {before after : Agent} {frame : WireFrame}
    {published : Option Publication}
    (dispatched : before.frameDispatch rcl frame = .ok (after, published)) :
    DispatchStep rcl before frame after published := by
  unfold frameDispatch at dispatched
  split at dispatched
  next kind =>
    have type := NrosPacketType.ofByte?_eq_some_iff.mp kind
    split at dispatched
    · cases dispatched
    next client connected =>
      split at dispatched
      · cases dispatched
      next publication publishes =>
        cases dispatched
        exact .data type client connected publishes rfl
  next kind =>
    have type := NrosPacketType.ofByte?_eq_some_iff.mp kind
    cases dispatched
    exact .register type rfl rfl
  next kind =>
    have type := NrosPacketType.ofByte?_eq_some_iff.mp kind
    unfold spawnClient at dispatched
    split at dispatched
    · cases dispatched
    next spawned connected =>
      split at connected
      · cases connected
      next client connects =>
        cases connected
        cases dispatched
        exact .registerDone type client connects rfl rfl
  next kind =>
    have type := NrosPacketType.ofByte?_eq_some_iff.mp kind
    cases dispatched
    refine .other ?_ ?_ ?_ rfl rfl <;>
      · rw [type]
        decide
  next kind =>
    have type := NrosPacketType.ofByte?_eq_some_iff.mp kind
    cases dispatched
    refine .other ?_ ?_ ?_ rfl rfl <;>
      · rw [type]
        decide
  next kind =>
    cases dispatched
    refine .other ?_ ?_ ?_ rfl rfl <;>
      · intro type
        rw [type, NrosPacketType.ofByte?_toByte] at kind
        cases kind

theorem DispatchStep.queue {rcl : Rclcpp} {before after : Agent}
    {frame : WireFrame} {published : Option Publication}
    (step : DispatchStep rcl before frame after published) :
    after.toClientMsgQueue = before.toClientMsgQueue := by
  cases step with
  | data _ _ _ _ same => rw [same]
  | register _ registered _ =>
      rw [registered]
      simp only [registerTopic]
      split <;> rfl
  | registerDone _ _ _ spawned _ => rw [spawned]
  | other _ _ _ same _ => rw [same]

/-- The topic a REGISTER frame registers, if the agent accepts it. -/
def acceptedTopic (frame : WireFrame) : Option Topic :=
  match decodeRegistrationFrame frame .default with
  | (.ok, t) => some t
  | _ => none

theorem registerTopic_newTopics (agent : Agent) (frame : WireFrame) :
    (agent.registerTopic frame).newTopics =
      agent.newTopics ++ (acceptedTopic frame).toList := by
  unfold registerTopic acceptedTopic
  rcases decodeRegistrationFrame frame .default with ⟨status, t⟩
  cases status <;> simp

theorem registerTopic_client (agent : Agent) (frame : WireFrame) :
    (agent.registerTopic frame).client = agent.client := by
  simp only [registerTopic]
  split <;> rfl

theorem DispatchStep.connected {rcl : Rclcpp} {before after : Agent}
    {frame : WireFrame} {published : Option Publication}
    (step : DispatchStep rcl before frame after published)
    (connected : before.client ≠ none) : after.client ≠ none := by
  cases step with
  | data _ _ _ _ same => rwa [same]
  | register _ registered _ => rwa [registered, registerTopic_client]
  | registerDone _ _ _ spawned _ =>
      rw [spawned]
      nofun
  | other _ _ _ same _ => rwa [same]

end Agent

namespace AgentLoop

/-- What `recv_frame` and `frame_dispatch` leave for the rest of the round. -/
inductive Receives (rcl : Rclcpp) (before : AgentLoop) :
    Option WireFrame → AgentLoop → Option Publication → Prop
  | nothing : Receives rcl before none before none
  | frame {frame : WireFrame} {agent : Agent}
      {published : Option Publication}
      (dispatch : Agent.DispatchStep rcl before.agent frame agent published) :
      Receives rcl before (some frame) { before with agent, frame } published

theorem receives {rcl : Rclcpp} {before after : AgentLoop}
    {received : Option WireFrame} {published : Option Publication}
    (result : before.receive rcl received = .ok (after, published)) :
    Receives rcl before received after published := by
  unfold receive at result
  split at result
  · cases result
    exact .nothing
  · split at result
    · cases result
    next dispatched =>
      cases result
      exact .frame (Agent.dispatchStep dispatched)

section Receives

variable {rcl : Rclcpp} {before after : AgentLoop}
  {received : Option WireFrame} {published : Option Publication}

theorem Receives.queue
    (receives : Receives rcl before received after published) :
    after.agent.toClientMsgQueue = before.agent.toClientMsgQueue := by
  cases receives with
  | nothing => rfl
  | frame dispatch => exact dispatch.queue

theorem Receives.connected
    (receives : Receives rcl before received after published)
    (connected : before.agent.client ≠ none) : after.agent.client ≠ none := by
  cases receives with
  | nothing => exact connected
  | frame dispatch => exact dispatch.connected connected

theorem Receives.needRegistration
    (receives : Receives rcl before received after published) :
    after.needRegistration = before.needRegistration := by
  cases receives with
  | nothing => rfl
  | frame _ => rfl

/-- The loop's frame variable is the received frame, or what it was. -/
theorem Receives.frame_eq
    (receives : Receives rcl before received after published) :
    after.frame = received.getD before.frame := by
  cases receives with
  | nothing => rfl
  | frame _ => rfl

end Receives

theorem discover_agent (loop : AgentLoop) :
    loop.discover.1.agent = loop.agent := by
  unfold discover
  split <;> rfl

theorem discover_needRegistration (loop : AgentLoop) :
    loop.discover.1.needRegistration = false := by
  unfold discover
  split
  · rfl
  next discovered => simpa using discovered

theorem acknowledge_loop (loop : AgentLoop) :
    loop.acknowledge.1 =
      { loop with
        agent := { loop.agent with
          ack := { loop.agent.ack with needAck := false } } } := by
  unfold acknowledge
  split
  · rfl
  next nothingDue =>
    have nothingDue : loop.agent.ack.needAck = false := by
      simpa using nothingDue
    rw [← nothingDue]

theorem acknowledge_sent (loop : AgentLoop) :
    loop.acknowledge.2 =
      if loop.agent.ack.needAck then [loop.agent.ackFrame] else [] := by
  unfold acknowledge
  split <;> rfl

/-- The parts of a round after `frame_dispatch`. -/
structure Iterated (loop : AgentLoop) (input : IterationInput)
    (output : IterationOutput) : Prop where
  discovered : output.loop.needRegistration = false
  agent : output.loop.agent =
    { loop.agent with
      toClientMsgQueue := (takeOutbound loop.agent.toClientMsgQueue input).1
      ack := { loop.agent.ack with needAck := false } }
  sent : output.sent = loop.discover.2 ++
    (takeOutbound loop.agent.toClientMsgQueue input).2 ++
    (if loop.agent.ack.needAck then [loop.agent.ackFrame] else [])

theorem finishRound_iterated (loop : AgentLoop) (input : IterationInput)
    (published : Option Publication) :
    Iterated loop input (loop.finishRound input published) := by
  have agent := discover_agent loop
  have discovered := discover_needRegistration loop
  constructor
  · simp only [finishRound, forward, acknowledge_loop, discovered]
  · simp only [finishRound, forward, acknowledge_loop, agent]
  · simp only [finishRound, forward, acknowledge_sent, agent, Agent.ackFrame]

theorem iterated {rcl : Rclcpp} {before : AgentLoop} {input : IterationInput}
    {output : IterationOutput}
    (result : before.iterate rcl input = .ok output) :
    ∃ loop, Receives rcl before input.received loop output.published ∧
      Iterated loop input output := by
  unfold iterate at result
  split at result
  · cases result
  next loop published received =>
    cases result
    exact ⟨loop, receives received,
      finishRound_iterated loop input published⟩

end AgentLoop

end NanoRos
