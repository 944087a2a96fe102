import NanoRos.Foundation.RunRecords
import NanoRos.ClientTable
import NanoRos.RegistrationAgreement
import NanoRos.Codegen.DataDispatch

/-!
# Messages between the board and ROS

What goes into the system and what comes out of it once topics are registered:
calls of `nros_publish` and the publications they become, ROS messages that
arrive and the handler calls they become, and the DATA frames in between.
-/

namespace NanoRos

open Board PartialRun
open ClientHandlerNode (isPublisherId)
open Transducer (after emitted)

/-! ## The table -/

/-- A table the firmware can be built with: names and QoS values that can be
registered, distinct ids inside the agent's table, and a handler exactly where
the id is a subscriber's. -/
structure TopicTable.WellFormed (table : TopicTable) : Prop where
  nonempty : table.topics ≠ []
  registrable : table.Registrable
  distinct : (table.topics.map NrosTopic.topicId).Nodup
  inside : ∀ topic ∈ table.topics, topic.topicId.toNat < topicsSize
  handlers : ∀ topic ∈ table.topics,
    topic.cb.isSome = !isPublisherId topic.topicId

/-- The ROS publisher that stands behind a topic id. -/
def TopicTable.publisher? (table : TopicTable) (topicId : UInt8) :
    Option RosHandle :=
  if isPublisherId topicId then
    (table.topics.zipIdx.find? (·.1.topicId = topicId)).map
      fun (topic, serial) =>
        { topicName := topic.topicName
          msgType := topic.topicType
          qos := qosFromWire topic.qos
          serial }
  else
    none

/-- The handler that stands behind a topic id. -/
def TopicTable.subscriber? (table : TopicTable) (topicId : UInt8) :
    Option CodePointer :=
  (table.topics.find? (·.topicId = topicId)).bind (·.cb)

/-- What ROS is to get of a payload sent under a topic id. -/
def TopicTable.publication (table : TopicTable) (topicId : UInt8)
    (payload : List UInt8) : Option Publication :=
  (table.publisher? topicId).map fun publisher => { publisher, payload }

/-- The handler call that a payload sent under a topic id is to cause. -/
def TopicTable.handlerCall (table : TopicTable) (topicId : UInt8)
    (payload : List UInt8) : Option HandlerCall :=
  (table.subscriber? topicId).map fun handler => { handler, payload }

/-- rclcpp creates a handle for every topic of the table. -/
def Rclcpp.CreatesAll (rcl : Rclcpp) (table : TopicTable) : Prop :=
  ∀ topic ∈ table.topics,
    if isPublisherId topic.topicId then
      rcl.createsPublisher topic.topicName topic.topicType
        (qosFromWire topic.qos) = true
    else
      rcl.createsSubscription topic.topicName topic.topicType
        (qosFromWire topic.qos) = true

/-- The firmware publishes on its publishers, and ROS messages arrive for its
subscriptions. -/
def PartyEvent.Permitted (table : TopicTable) : PartyEvent → Prop
  | .rxPoll _ | .txPoll _ => True
  | .publish topicId _ => (table.publisher? topicId).isSome
  | .agentRound _ beforeSize beforePop =>
      ∀ arrival ∈ beforeSize ++ beforePop,
        (table.subscriber? arrival.topicId).isSome

instance (table : TopicTable) (event : PartyEvent) :
    Decidable (event.Permitted table) :=
  match event with
  | .rxPoll _ | .txPoll _ => isTrue trivial
  | .publish _ _ => inferInstanceAs (Decidable (_ = true))
  | .agentRound _ _ _ => inferInstanceAs (Decidable (∀ _ ∈ _, _ = true))

/-! ## Frames that carry messages -/

def isData (frame : Frame) : Bool :=
  frame.header.type = NrosPacketType.data.toByte

theorem isData_iff {frame : Frame} :
    isData frame = true ↔ frame.header.type = NrosPacketType.data.toByte :=
  decide_eq_true_iff

theorem isData_of_forwardMessage {frame : Frame} :
    isData frame = true ↔ forwardMessage frame = .data := by
  rw [isData_iff]
  constructor
  · exact forwardMessage_data
  · intro data
    unfold forwardMessage at data
    split at data
    case h_3 kind => exact NrosPacketType.ofByte?_eq_some_iff.mp kind
    all_goals cases data

/-- The payload leaves room for header and CRC. -/
def fitsFrame (frame : Frame) : Bool :=
  frame.payload.length ≤ nrosMaxPayload

/-- What the agent pushes for a ROS message, if it reaches the board: the
message has an encapsulation header, and the rest fits in a frame. -/
def Incoming.payload? (arrival : Incoming) : Option (List UInt8) :=
  let payload := arrival.message.drop ClientHandlerNode.encapHeaderSize
  if arrival.message.length < ClientHandlerNode.encapHeaderSize ∨
      nrosMaxPayload < payload.length then
    none
  else
    some payload

/-- The call a ROS message is to cause. -/
def Incoming.handlerCall (table : TopicTable) (arrival : Incoming) :
    Option HandlerCall :=
  arrival.payload?.bind (table.handlerCall arrival.topicId)

namespace Board

/-- The handler calls of one chunk, in order. -/
def handlerCalls (table : TopicTable) :
    Board → List FrameEvent → List HandlerCall
  | _, [] => []
  | board, event :: events =>
      (if isData event.frame then
        (board.dispatchData event.frame).toOption.toList else []) ++
        match nrosDispatch table board event.frame with
        | .error _ => []
        | .ok board => handlerCalls table board events

end Board

namespace TwoParty

/-- What a round of the agent puts out, if it comes to its end. -/
def roundOutput (rcl : Rclcpp) (system : TwoParty) (reads : List Nat)
    (beforeSize beforePop : List Incoming) : Option IterationOutput := do
  let process ← system.agent
  let round ← process.round rcl system.toAgent reads beforeSize beforePop
  round.outcome.toOption

/-! ## What goes in and what comes out -/

/-- The call of `nros_publish`, if it returns true: the topic id and the
payload. -/
def accepted (system : TwoParty) : PartyEvent → List (UInt8 × List UInt8)
  | .publish topicId serialized =>
      if (system.board.nrosPublish topicId serialized).1 then
        [(topicId, cdrEncapHeader ++ serialized.bytes)]
      else
        []
  | .rxPoll _ | .txPoll _ | .agentRound _ _ _ => []

/-- The call of `publish` on a ROS publisher. -/
def published (rcl : Rclcpp) (system : TwoParty) :
    PartyEvent → List Publication
  | .agentRound reads beforeSize beforePop =>
      (system.roundOutput rcl reads beforeSize beforePop).toList.flatMap
        (·.published.toList)
  | .rxPoll _ | .txPoll _ | .publish _ _ => []

/-- The ROS messages that arrive for a subscription. -/
def arrived (_ : TwoParty) : PartyEvent → List Incoming
  | .agentRound _ beforeSize beforePop => beforeSize ++ beforePop
  | .rxPoll _ | .txPoll _ | .publish _ _ => []

/-- The calls of topic handlers on the board. -/
def handled (table : TopicTable) (system : TwoParty) :
    PartyEvent → List HandlerCall
  | .rxPoll count =>
      system.board.handlerCalls table
        (emitted NrosStreamParser.feedByte system.board.parser
          (system.toBoard.take (min count rxChunkSize)))
  | .txPoll _ | .publish _ _ | .agentRound _ _ _ => []

/-! ## What is in between -/

/-- Frames on the way to the agent. -/
def underway (system : TwoParty) : List Frame :=
  system.agent.toList.flatMap fun process =>
    process.transport.pending system.flight

/-- DATA on the way to the agent. -/
def uplink (system : TwoParty) : List Frame := system.underway.filter isData

/-- DATA on the way to the board. -/
def downlink (system : TwoParty) : List Frame :=
  (system.board.parser.framesOf system.toBoard).filter isData

/-- DATA that the agent still has to send; what is too long for a frame is
taken from the queue, but not sent. -/
def queued (system : TwoParty) : List Frame :=
  system.agent.toList.flatMap fun process =>
    (process.loop.agent.toClientMsgQueue.items.map OutboundMsg.frame).filter
      fitsFrame

/-- No message is pushed into a full queue. -/
def Spacious (system : TwoParty) : PartyEvent → Prop
  | .agentRound _ beforeSize beforePop =>
      ∀ process ∈ system.agent,
        process.loop.agent.toClientMsgQueue.size +
          (beforeSize ++ beforePop).length ≤ maxQueueSize
  | .rxPoll _ | .txPoll _ | .publish _ _ => True

instance (system : TwoParty) (event : PartyEvent) :
    Decidable (system.Spacious event) :=
  match event with
  | .rxPoll _ | .txPoll _ | .publish _ _ => isTrue trivial
  | .agentRound _ _ _ => inferInstanceAs (Decidable (∀ _ ∈ _, _ ≤ _))

end TwoParty

end NanoRos
