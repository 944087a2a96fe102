import NanoRos.Foundation.StopAndWait
import NanoRos.AgentFrames
import NanoRos.RegistrationPayload
import NanoRos.TwoParty

/-!
# Registration as stop-and-wait enrolment

Seen from afar, the board enrols its topics with the agent over two channels
of whole messages.  Every step of the two parties is a step of that protocol,
as long as no ACK makes the board replace a frame it is still sending.
-/

namespace NanoRos

open Board PartialRun StopAndWait
open NrosStreamParser (Clears framesOf)
open Transducer (after emitted)

/-! ## Messages -/

/-- What the two parties have to agree on about a topic. -/
structure TopicKey where
  id : UInt8
  qos : UInt8
  typeName : List UInt8
  topicName : List UInt8
  deriving DecidableEq

def NrosTopic.key (topic : NrosTopic) : TopicKey :=
  { id := topic.topicId
    qos := topic.qos
    typeName := topic.topicType
    topicName := topic.topicName }

def Topic.key (t : Topic) : TopicKey :=
  { id := t.id
    qos := t.qos
    typeName := t.msgType
    topicName := t.topicName }

def TopicTable.keys (table : TopicTable) : List TopicKey :=
  table.topics.map NrosTopic.key

/-- The topic that the agent takes from a REGISTER. -/
def registeredKey (frame : Frame) : Option TopicKey :=
  (Agent.acceptedTopic frame).map Topic.key

/-- A frame to the agent as a message. -/
def forwardMessage (frame : Frame) : Forward TopicKey :=
  match NrosPacketType.ofByte? frame.header.type with
  | some .register => .register (registeredKey frame)
  | some .registerDone => .done
  | some .data => .data
  | some .ack | some .discover | none => .other

/-- A frame to the board as a message. -/
def backwardMessage (frame : Frame) : Backward :=
  match NrosPacketType.ofByte? frame.header.type with
  | some .discover => .start
  | some .ack => .ack
  | some .register | some .registerDone | some .data | none => .other

/-- The library's session variables. -/
def Board.sender (board : Board) : Sender :=
  { next := board.tx.topicRegistrationIdx.toNat
    active := board.tx.isRegistration
    closing := board.tx.sendingRegDoneFrame
    awaiting := board.rx.awaitingAck
    complete := board.registrationComplete
    busy := decide (board.tx.state ≠ .idle) }

/-- The process, `flight` being under way to it. -/
def AgentProcess.receiver (process : AgentProcess) (flight : List UInt8) :
    Receiver TopicKey :=
  { fresh := process.loop.needRegistration
    received := process.loop.agent.newTopics.map Topic.key
    inbox := (process.transport.pending flight).map forwardMessage }

def Dispatched.message (entry : Dispatched) :
    Forward TopicKey × List TopicKey :=
  (forwardMessage entry.frame, entry.newTopics.map Topic.key)

namespace TwoParty

/-- The bytes under way to the agent, counting those still in the board's
transmit buffer. -/
def flight (system : TwoParty) : List UInt8 :=
  system.toAgent ++ system.board.unsent

/-- The system as a state of the protocol. -/
def view (system : TwoParty) : State TopicKey :=
  { sender := system.board.sender
    receiver := system.agent.map (·.receiver system.flight)
    outbox :=
      (system.board.parser.framesOf system.toBoard).map backwardMessage
    history := system.dispatched.map Dispatched.message }

end TwoParty

/-- What the board can register: names that fit and known QoS values. -/
structure TopicTable.Registrable (table : TopicTable) : Prop where
  names : ∀ topic ∈ table.topics, topic.NamesFit
  qos : ∀ topic ∈ table.topics, topic.qos < nrosQosCount

/-! ### The frames of the parties -/

theorem backwardMessage_discover {frame : Frame}
    (type : frame.header.type = NrosPacketType.discover.toByte) :
    backwardMessage frame = .start := by
  simp [backwardMessage, type]

theorem backwardMessage_ack {frame : Frame}
    (type : frame.header.type = NrosPacketType.ack.toByte) :
    backwardMessage frame = .ack := by
  simp [backwardMessage, type]

theorem backwardMessage_other {frame : Frame}
    (notAck : frame.header.type ≠ NrosPacketType.ack.toByte)
    (notDiscover : frame.header.type ≠ NrosPacketType.discover.toByte) :
    backwardMessage frame = .other := by
  unfold backwardMessage
  split
  next kind =>
    exact absurd (NrosPacketType.ofByte?_eq_some_iff.mp kind) notDiscover
  next kind =>
    exact absurd (NrosPacketType.ofByte?_eq_some_iff.mp kind) notAck
  all_goals rfl

theorem forwardMessage_register {frame : Frame}
    (type : frame.header.type = NrosPacketType.register.toByte) :
    forwardMessage frame = .register (registeredKey frame) := by
  simp [forwardMessage, type]

theorem forwardMessage_done {frame : Frame}
    (type : frame.header.type = NrosPacketType.registerDone.toByte) :
    forwardMessage frame = .done := by
  simp [forwardMessage, type]

theorem type_of_forwardMessage_done {frame : Frame}
    (done : forwardMessage frame = .done) :
    frame.header.type = NrosPacketType.registerDone.toByte := by
  unfold forwardMessage at done
  split at done
  next kind => cases done
  next kind => exact NrosPacketType.ofByte?_eq_some_iff.mp kind
  all_goals cases done

theorem forwardMessage_data {frame : Frame}
    (type : frame.header.type = NrosPacketType.data.toByte) :
    forwardMessage frame = .data := by
  simp [forwardMessage, type]

theorem forwardMessage_other {frame : Frame}
    (notData : frame.header.type ≠ NrosPacketType.data.toByte)
    (notRegister : frame.header.type ≠ NrosPacketType.register.toByte)
    (notDone : frame.header.type ≠ NrosPacketType.registerDone.toByte) :
    forwardMessage frame = .other := by
  unfold forwardMessage
  split
  next kind =>
    exact absurd (NrosPacketType.ofByte?_eq_some_iff.mp kind) notRegister
  next kind =>
    exact absurd (NrosPacketType.ofByte?_eq_some_iff.mp kind) notDone
  next kind =>
    exact absurd (NrosPacketType.ofByte?_eq_some_iff.mp kind) notData
  all_goals rfl

/-- The agent takes from a topic's REGISTER what the board put into it. -/
theorem registeredKey_registrationFrame {topic : NrosTopic}
    (fit : topic.NamesFit) (known : topic.qos < nrosQosCount) :
    registeredKey (registrationFrame topic) = some topic.key := by
  rw [registeredKey, Agent.acceptedTopic,
    Agent.decode_registrationFrame fit, if_pos known]
  rfl

/-! ## The board -/

namespace Board

variable {table : TopicTable}

/-- What hearing a frame does to the board: the session variables change as
the protocol says, and at most one frame is loaded, into an idle buffer. -/
structure Hears (table : TopicTable) (before : Board) (message : Backward)
    (after : Board) (loaded : Option Frame) : Prop where
  sender : before.sender.hear table.keys message =
    (after.sender, loaded.toList.map forwardMessage)
  none : loaded = none → before.SameTransmission after
  some : ∀ frame ∈ loaded, before.tx.state = .idle ∧ after.Sending frame ∧
    after.tx.bytesSent = 0
  inside : after.rx.awaitingAck = true →
    after.tx.topicRegistrationIdx.toNat < table.topics.length

theorem busy_of_sending {board : Board} {frame : Frame}
    (sending : board.Sending frame) : board.sender.busy = true := by
  simp [Board.sender, sending.state]

theorem busy_eq_false_iff {board : Board} :
    board.sender.busy = false ↔ board.tx.state = .idle := by
  simp [Board.sender]

/-- The session variables after a frame has been loaded. -/
theorem SameSession.sender {before after : Board} {frame : Frame}
    (same : before.SameSession after) (sending : after.Sending frame) :
    after.sender =
      { before.sender with busy := true, awaiting := after.rx.awaitingAck } := by
  simp only [Board.sender, same.idx, same.isRegistration, same.regDone,
    same.complete, sending.state]
  simp

theorem LoadStep.load {before after : Board}
    (registrable : table.Registrable) (step : before.LoadStep table after)
    (answered : before.tx.sendingRegDoneFrame = true →
      before.rx.awaitingAck = false) :
    ∃ frame, before.sender.load table.keys =
        (after.sender, [forwardMessage frame]) ∧
      after.Sending frame ∧ after.tx.bytesSent = 0 ∧
      (after.rx.awaitingAck = true →
        after.tx.topicRegistrationIdx.toNat < table.topics.length) := by
  cases step with
  | done regDone sending start same acks =>
      refine ⟨registerDoneFrame, ?_, sending, start, ?_⟩
      · rw [Sender.load_done regDone, same.sender sending, acks,
          forwardMessage_done rfl]
        rfl
      · intro awaiting
        rw [acks, answered regDone] at awaiting
        cases awaiting
  | tooLong topic found _ long _ =>
      exact absurd (registrable.names topic (List.mem_of_getElem? found)) long
  | register topic found regDone fit sending start same awaiting =>
      have member := List.mem_of_getElem? found
      have key := registeredKey_registrationFrame fit
        (registrable.qos topic member)
      have foundKey : table.keys[before.sender.next]? = some topic.key := by
        simp only [TopicTable.keys, List.getElem?_map, Board.sender, found]
        rfl
      refine ⟨registrationFrame topic, ?_, sending, start, ?_⟩
      · rw [Sender.load_item regDone foundKey, same.sender sending, awaiting,
          forwardMessage_register rfl, key]
      · intro _
        rw [same.idx]
        exact (List.getElem?_eq_some_iff.mp found).1

theorem startRegistration_sender (board : Board) :
    board.startRegistration.sender = board.sender.begin := rfl

theorem advanceRegistration_sender {board : Board}
    (inside : board.tx.topicRegistrationIdx.toNat < table.topics.length) :
    (board.advanceRegistration table).sender =
      board.sender.advance table.keys := by
  have short := table.count_le
  have next : (board.tx.topicRegistrationIdx + 1).toNat =
      board.tx.topicRegistrationIdx.toNat + 1 := by
    rw [UInt8.toNat_add]
    simp only [UInt8.reduceToNat]
    omega
  have count : table.keys.length = table.topics.length :=
    List.length_map ..
  simp only [advanceRegistration, Board.sender, Sender.advance, next, count]
  by_cases last : table.topics.length ≤ board.tx.topicRegistrationIdx.toNat + 1
  · simp [last]
  · simp [last]

/-- A received frame is heard as a message, if it does not make the board
replace the frame it is sending. -/
theorem DispatchStep.hears {before after : Board} {frame : Frame}
    (registrable : table.Registrable)
    (inside : before.rx.awaitingAck = true →
      before.tx.topicRegistrationIdx.toNat < table.topics.length)
    (clear : backwardMessage frame = .ack → before.rx.awaitingAck = true →
      before.tx.isRegistration = true → before.tx.state = .idle)
    (step : before.DispatchStep table frame after) :
    ∃ loaded, Hears table before (backwardMessage frame) after loaded := by
  cases step with
  | passed notAck notDiscover same =>
      rw [backwardMessage_other notAck notDiscover, same]
      exact ⟨none, rfl, fun _ => ⟨rfl, rfl, rfl, rfl⟩, nofun, inside⟩
  | ackIgnored ack notAwaiting same =>
      rw [backwardMessage_ack ack, same]
      refine ⟨none, ?_, fun _ => ⟨rfl, rfl, rfl, rfl⟩, nofun, inside⟩
      exact Sender.hear_ack_ignored notAwaiting
  | ackOutside ack awaiting outside cleared =>
      rw [backwardMessage_ack ack, cleared]
      refine ⟨none, ?_, fun _ => ⟨rfl, rfl, rfl, rfl⟩, nofun, nofun⟩
      exact Sender.hear_ack_outside awaiting outside
  | ackTaken ack awaiting registering loaded =>
      have idle := clear (backwardMessage_ack ack) awaiting registering
      rw [backwardMessage_ack ack]
      obtain ⟨next, loads, sending, start, stillInside⟩ :=
        loaded.load registrable (fun _ => rfl)
      refine ⟨some next, ?_, nofun, ?_, stillInside⟩
      · rw [Sender.hear_ack_taken awaiting registering,
          ← advanceRegistration_sender (inside awaiting), loads]
        rfl
      · intro frame member
        cases member
        exact ⟨idle, sending, start⟩
  | discoverDropped discover busy same =>
      rw [backwardMessage_discover discover, same]
      refine ⟨none, ?_, fun _ => ⟨rfl, rfl, rfl, rfl⟩, nofun, inside⟩
      apply Sender.hear_start_busy
      simpa [Board.sender] using busy
  | discoverTaken discover idle loaded =>
      rw [backwardMessage_discover discover]
      obtain ⟨next, loads, sending, start, stillInside⟩ :=
        loaded.load registrable (by
          intro regDone
          cases regDone)
      refine ⟨some next, ?_, nofun, ?_, stillInside⟩
      · rw [Sender.hear_start_idle (busy_eq_false_iff.mpr idle),
          ← startRegistration_sender, loads]
        rfl
      · intro frame member
        cases member
        exact ⟨idle, sending, start⟩

end Board

end NanoRos
