import NanoRos.ClientHandler

/-!
# Agent

`Agent::run` and what it calls.  Header fields that the source leaves
uninitialised are zero here: they are magic bytes, which the encoder writes
itself.
-/

namespace NanoRos

structure AckStatus where
  needAck : Bool
  topicToAckId : UInt8
  status : NrosAckStatus
  deriving DecidableEq, Repr

structure Agent where
  toClientMsgQueue : ThreadSafeQueue OutboundMsg
  client : Option ClientHandlerNode
  newTopics : List Topic
  ack : AckStatus

namespace Agent

def initial : Agent :=
  { toClientMsgQueue := .empty
    client := none
    newTopics := []
    ack := { needAck := false, topicToAckId := 0, status := .ok } }

def decodeRegistrationFrame (frame : WireFrame) (t : Topic) :
    NrosAckStatus × Topic :=
  if frame.payload.length < registrationPayloadSize then
    (.malformed, t)
  else
    let payload := NrosRegistrationPayload.ofBytes frame.payload
    if frame.payload.length < registrationPayloadSize +
        payload.typeNameLen.toNat + payload.topicNameLen.toNat then
      (.malformed, t)
    else
      let rest := frame.payload.drop registrationPayloadSize
      let t :=
        { t with
          msgType := rest.take payload.typeNameLen.toNat
          topicName := (rest.drop payload.typeNameLen.toNat).take
            payload.topicNameLen.toNat
          id := frame.header.topicId
          qos := payload.qos }
      if payload.qos ≥ nrosQosCount then (.unsupportedQos, t) else (.ok, t)

/-- `spawn_client(false)`. -/
def spawnClient (rcl : Rclcpp) (agent : Agent) : Except AgentFault Agent :=
  match ClientHandlerNode.initial.onClientConnect rcl agent.newTopics with
  | .error fault => .error fault
  | .ok client => .ok { agent with client := some client }

/-- The REGISTER case of `frame_dispatch`. -/
def registerTopic (agent : Agent) (frame : WireFrame) : Agent :=
  let (status, t) := decodeRegistrationFrame frame .default
  let agent :=
    { agent with
      ack := { needAck := true, topicToAckId := frame.header.topicId, status } }
  if status ≠ .ok then agent
  else { agent with newTopics := agent.newTopics ++ [t] }

/-- `frame_dispatch`, and what it makes the client publish. -/
def frameDispatch (rcl : Rclcpp) (agent : Agent) (frame : WireFrame) :
    Except AgentFault (Agent × Option Publication) :=
  match NrosPacketType.ofByte? frame.header.type with
  | some .data =>
      match agent.client with
      | none => .error .nullClient
      | some client =>
          match client.clientPublish frame with
          | .error fault => .error fault
          | .ok publication => .ok (agent, publication)
  | some .register => .ok (agent.registerTopic frame, none)
  | some .registerDone =>
      match agent.spawnClient rcl with
      | .error fault => .error fault
      | .ok agent => .ok (agent, none)
  | some .ack | some .discover | none => .ok (agent, none)

/-- The frame `ack_client` sends. -/
def ackFrame (agent : Agent) : WireFrame :=
  let p : NrosAckPayload :=
    { topicId := agent.ack.topicToAckId, status := agent.ack.status }
  { header :=
      { NrosFrameHeader.zeroed with
        type := NrosPacketType.ack.toByte
        topicId := agent.ack.topicToAckId
        length := UInt16.ofNat p.toBytes.length }
    payload := p.toBytes }

end Agent

/-! ## The loop -/

/-- A ROS message that arrives for a subscription of the client. -/
structure Incoming where
  topicId : UInt8
  message : List UInt8
  deriving DecidableEq, Repr

/-- `Agent::run` at the top of its loop: the agent and the loop's variables. -/
structure AgentLoop where
  agent : Agent
  needRegistration : Bool
  frame : WireFrame

/-- What one round of the loop meets: the frame `recv_frame` returns, and the
messages pushed by other threads before `size()` and between `size()` and
`wait_and_pop()`. -/
structure IterationInput where
  received : Option WireFrame
  beforeSize : List Incoming
  beforePop : List Incoming

/-- What one round did: the frames passed to `send_frame`, in order, and what
the client published. -/
structure IterationOutput where
  loop : AgentLoop
  sent : List WireFrame
  published : Option Publication

namespace AgentLoop

def initial : AgentLoop :=
  { agent := .initial
    needRegistration := true
    frame := { header := .zeroed, payload := [] } }

/-- `recv_frame` and `frame_dispatch`. -/
def receive (rcl : Rclcpp) (loop : AgentLoop) (received : Option WireFrame) :
    Except AgentFault (AgentLoop × Option Publication) :=
  match received with
  | none => .ok (loop, none)
  | some frame =>
      match loop.agent.frameDispatch rcl frame with
      | .error fault => .error fault
      | .ok (agent, published) => .ok ({ loop with agent, frame }, published)

/-- The DISCOVER of the first round: it is put into the variable that
`recv_frame` fills, and only the header is set. -/
def discover (loop : AgentLoop) : AgentLoop × List WireFrame :=
  if loop.needRegistration then
    let frame :=
      { loop.frame with
        header := { loop.frame.header with
          type := NrosPacketType.discover.toByte, topicId := 0, length := 0 } }
    ({ loop with needRegistration := false, frame }, [frame])
  else
    (loop, [])

/-- Pushes of `client_subscription_callback`. -/
def pushIncoming (queue : ThreadSafeQueue OutboundMsg)
    (incoming : List Incoming) : ThreadSafeQueue OutboundMsg :=
  incoming.foldl
    (fun queue arrival =>
      match ClientHandlerNode.clientSubscriptionCallback arrival.topicId
        arrival.message with
      | none => queue
      | some message => queue.push message)
    queue

/-- What the outbound queue gives to `send_frame` in one round. -/
def takeOutbound (queue : ThreadSafeQueue OutboundMsg)
    (input : IterationInput) :
    ThreadSafeQueue OutboundMsg × List WireFrame :=
  let sized := pushIncoming queue input.beforeSize
  let queue := pushIncoming sized input.beforePop
  if sized.size > 0 then
    match queue.waitAndPop with
    | .item msg queue => (queue, [msg.frame])
    -- the loop is the only consumer: what was counted is still there
    | .waits | .frontOfEmpty => (queue, [])
  else
    (queue, [])

def forward (loop : AgentLoop) (input : IterationInput) :
    AgentLoop × List WireFrame :=
  let (toClientMsgQueue, sent) :=
    takeOutbound loop.agent.toClientMsgQueue input
  ({ loop with agent := { loop.agent with toClientMsgQueue } }, sent)

/-- `ack_client` when an ACK is due. -/
def acknowledge (loop : AgentLoop) : AgentLoop × List WireFrame :=
  if loop.agent.ack.needAck then
    ({ loop with
      agent := { loop.agent with
        ack := { loop.agent.ack with needAck := false } } },
      [loop.agent.ackFrame])
  else
    (loop, [])

/-- The rest of the round after `frame_dispatch`. -/
def finishRound (loop : AgentLoop) (input : IterationInput)
    (published : Option Publication) : IterationOutput :=
  let (loop, discovers) := loop.discover
  let (loop, forwarded) := loop.forward input
  let (loop, acks) := loop.acknowledge
  { loop, sent := discovers ++ forwarded ++ acks, published }

/-- One round of the loop. -/
def iterate (rcl : Rclcpp) (loop : AgentLoop) (input : IterationInput) :
    Except AgentFault IterationOutput :=
  match loop.receive rcl input.received with
  | .error fault => .error fault
  | .ok (loop, published) => .ok (loop.finishRound input published)

end AgentLoop

end NanoRos
