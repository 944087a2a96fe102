import NanoRos.SerialTransport
import NanoRos.ThreadSafeQueue

/-!
# Client handler

`ClientHandlerNode`: the agent's table of topics and the ROS handles behind
it.  Whether rclcpp can create a handle is a parameter; a handle is known by
what it was created with and by how many its node had created before it.
-/

namespace NanoRos

/-- `PUBLISHER_TOPIC_ID_START`. -/
def publisherTopicIdStart : UInt8 := 255 / 2

/-- Size of `topics_`. -/
def topicsSize : Nat := 255

/-- The profiles `qos_from_wire` chooses from. -/
inductive QosProfile where
  | sensorData
  | reliableKeepLast10
  | bestEffortKeepLast10
  | transientLocalKeepLast1
  | systemDefaults
  | keepLast10
  deriving DecidableEq, Repr

def qosFromWire (qos : UInt8) : QosProfile :=
  if qos = NrosQos.sensorData.toByte then .sensorData
  else if qos = NrosQos.reliable.toByte then .reliableKeepLast10
  else if qos = NrosQos.bestEffort.toByte then .bestEffortKeepLast10
  else if qos = NrosQos.transientLocal.toByte then .transientLocalKeepLast1
  else if qos = NrosQos.systemDefault.toByte then .systemDefaults
  else .keepLast10

/-- A publisher or a subscription as rclcpp created it. -/
structure RosHandle where
  topicName : List UInt8
  msgType : List UInt8
  qos : QosProfile
  serial : Nat
  deriving DecidableEq, Repr

/-- The variant of the two shared pointers; `none` is a null pointer. -/
inductive Handle where
  | publisher (pointer : Option RosHandle)
  | subscription (pointer : Option RosHandle)
  deriving DecidableEq, Repr

structure Topic where
  active : Bool
  id : UInt8
  qos : UInt8
  topicName : List UInt8
  msgType : List UInt8
  handle : Handle
  deriving DecidableEq, Repr

/-- A default-constructed topic; the source leaves its id uninitialised. -/
def Topic.default : Topic :=
  { active := false
    id := 0
    qos := NrosQos.default.toByte
    topicName := []
    msgType := []
    handle := .publisher none }

/-- What the run of the agent can end in. -/
inductive AgentFault where
  | nullClient
  | nullPublisher
  | topicIndexOutOfBounds
  | uncaughtException
  deriving DecidableEq, Repr

/-- Which handles rclcpp creates; it throws for the others. -/
structure Rclcpp where
  createsPublisher : List UInt8 → List UInt8 → QosProfile → Bool
  createsSubscription : List UInt8 → List UInt8 → QosProfile → Bool

/-- rclcpp that creates whatever it is asked for. -/
def Rclcpp.willing : Rclcpp where
  createsPublisher := fun _ _ _ => true
  createsSubscription := fun _ _ _ => true

/-- A message handed to a ROS publisher. -/
structure Publication where
  publisher : RosHandle
  payload : List UInt8
  deriving DecidableEq, Repr

/-- `OutboundMsg`, less the client id nothing reads. -/
structure OutboundMsg where
  frame : WireFrame
  deriving DecidableEq, Repr

structure ClientHandlerNode where
  topics : Buffer Topic topicsSize
  created : Nat
  deriving DecidableEq

namespace ClientHandlerNode

def initial : ClientHandlerNode :=
  { topics := .filled _ .default, created := 0 }

/-- The id is in the publisher range. -/
def isPublisherId (id : UInt8) : Bool := id ≥ publisherTopicIdStart

/-- The creation of a topic's handle returns. -/
def creates (rcl : Rclcpp) (t : Topic) : Bool :=
  if isPublisherId t.id then
    rcl.createsPublisher t.topicName t.msgType (qosFromWire t.qos)
  else
    rcl.createsSubscription t.topicName t.msgType (qosFromWire t.qos)

/-- The handle created for a topic. -/
def handleFor (t : Topic) (serial : Nat) : Handle :=
  let pointer : RosHandle :=
    { topicName := t.topicName
      msgType := t.msgType
      qos := qosFromWire t.qos
      serial }
  if isPublisherId t.id then .publisher (some pointer)
  else .subscription (some pointer)

/-- One round of `on_client_connect`. -/
def connectTopic (rcl : Rclcpp) (node : ClientHandlerNode) (t : Topic) :
    Except AgentFault ClientHandlerNode :=
  if t.id.toNat < topicsSize then
    if creates rcl t then
      .ok
        { topics := node.topics.store t.id.toNat
            { t with handle := handleFor t node.created, active := true }
          created := node.created + 1 }
    else
      .error .uncaughtException
  else
    .error .topicIndexOutOfBounds

def onClientConnect (rcl : Rclcpp) (node : ClientHandlerNode) :
    List Topic → Except AgentFault ClientHandlerNode
  | [] => .ok node
  | t :: topics =>
      match connectTopic rcl node t with
      | .error fault => .error fault
      | .ok node => onClientConnect rcl node topics

/-- `client_publish`: what it publishes. -/
def clientPublish (node : ClientHandlerNode) (frame : WireFrame) :
    Except AgentFault (Option Publication) :=
  match node.topics.load? frame.header.topicId.toNat with
  | none => .error .topicIndexOutOfBounds
  | some topic =>
      match topic.handle with
      | .publisher (some publisher) =>
          .ok (some { publisher, payload := frame.payload })
      | .publisher none => .error .nullPublisher
      | .subscription _ => .ok none

def encapHeaderSize : Nat := 4

/-- `client_subscription_callback`: the message it pushes. -/
def clientSubscriptionCallback (topicId : UInt8) (message : List UInt8) :
    Option OutboundMsg :=
  if message.length < encapHeaderSize then
    none
  else
    let bytes := message.drop encapHeaderSize
    some
      { frame :=
          { header :=
              { NrosFrameHeader.zeroed with
                topicId
                type := NrosPacketType.data.toByte
                length := UInt16.ofNat bytes.length }
            payload := bytes } }

end ClientHandlerNode

end NanoRos
