import NanoRos.AgentStep
import NanoRos.BoardInvariant

/-!
# The registration payload

The board writes the payload of a REGISTER and the agent takes it apart, each
by its own order of fields and names.  The agent's reads are stated once more
as reads that fail outside the payload; none of them does.
-/

namespace NanoRos

namespace Agent

/-- `count` bytes of the payload from `offset` on; `none` if they are not all
there. -/
def readPayload? (payload : List UInt8) (offset count : Nat) :
    Option (List UInt8) :=
  if offset + count ≤ payload.length then
    some ((payload.drop offset).take count)
  else
    none

/-- `decode_registration_frame` with every read of the payload checked. -/
def decodeChecked? (frame : WireFrame) (t : Topic) :
    Option (NrosAckStatus × Topic) :=
  if frame.payload.length < registrationPayloadSize then
    some (.malformed, t)
  else do
    let fixed ← readPayload? frame.payload 0 registrationPayloadSize
    let payload := NrosRegistrationPayload.ofBytes fixed
    if frame.payload.length < registrationPayloadSize +
        payload.typeNameLen.toNat + payload.topicNameLen.toNat then
      some (.malformed, t)
    else do
      let msgType ← readPayload? frame.payload registrationPayloadSize
        payload.typeNameLen.toNat
      let topicName ← readPayload? frame.payload
        (registrationPayloadSize + payload.typeNameLen.toNat)
        payload.topicNameLen.toNat
      let t :=
        { t with msgType, topicName, id := frame.header.topicId,
                 qos := payload.qos }
      some (if payload.qos ≥ nrosQosCount then .unsupportedQos else .ok, t)

theorem readPayload?_of_inside {payload : List UInt8} {offset count : Nat}
    (inside : offset + count ≤ payload.length) :
    readPayload? payload offset count =
      some ((payload.drop offset).take count) :=
  if_pos inside

/-- The fixed part is in the first bytes. -/
theorem ofBytes_take (bytes : List UInt8) :
    NrosRegistrationPayload.ofBytes (bytes.take registrationPayloadSize) =
      NrosRegistrationPayload.ofBytes bytes := by
  simp only [NrosRegistrationPayload.ofBytes, registrationPayloadSize,
    List.getD_eq_getElem?_getD, List.getElem?_take]
  rfl

/-- No read of `decode_registration_frame` goes past the payload. -/
theorem decodeChecked?_eq (frame : WireFrame) (t : Topic) :
    decodeChecked? frame t = some (decodeRegistrationFrame frame t) := by
  unfold decodeChecked? decodeRegistrationFrame
  split
  · rfl
  next fixedPart =>
    have fixed : readPayload? frame.payload 0 registrationPayloadSize =
        some ((frame.payload.drop 0).take registrationPayloadSize) :=
      readPayload?_of_inside (by omega)
    rw [fixed, List.drop_zero]
    simp only [Option.bind_eq_bind, Option.bind_some, ofBytes_take]
    split
    · rfl
    next whole =>
      rw [readPayload?_of_inside (by omega), readPayload?_of_inside (by omega)]
      simp only [Option.bind_some, List.drop_drop]
      split <;> rfl

theorem decode_malformed_iff (frame : WireFrame) (t : Topic) :
    (decodeRegistrationFrame frame t).1 = .malformed ↔
      frame.payload.length < registrationPayloadSize ∨
        frame.payload.length < registrationPayloadSize +
          (NrosRegistrationPayload.ofBytes frame.payload).typeNameLen.toNat +
          (NrosRegistrationPayload.ofBytes
            frame.payload).topicNameLen.toNat := by
  unfold decodeRegistrationFrame
  split
  next short => simp [short]
  next fixedPart =>
    dsimp only
    split
    next short => simp [short]
    next whole => split <;> simp [fixedPart, whole]

/-- The `uint8_t` lengths hold the lengths of names that fit. -/
theorem registrationPayload_lengths {topic : NrosTopic}
    (fit : topic.NamesFit) :
    (Board.registrationPayload topic).typeNameLen.toNat =
        topic.topicType.length ∧
      (Board.registrationPayload topic).topicNameLen.toNat =
        topic.topicName.length := by
  have typeShort := fit.1
  have nameShort := fit.2
  simp only [nrosMaxStrSize] at typeShort nameShort
  simp only [Board.registrationPayload, UInt8.toNat_ofNat']
  omega

/-- The agent takes from a topic's REGISTER what the board put into it. -/
theorem decode_registrationFrame {topic : NrosTopic} (fit : topic.NamesFit)
    (t : Topic) :
    decodeRegistrationFrame (registrationFrame topic) t =
      (if topic.qos < nrosQosCount then .ok else .unsupportedQos,
        { t with
          id := topic.topicId
          qos := topic.qos
          msgType := topic.topicType
          topicName := topic.topicName }) := by
  obtain ⟨typeLen, nameLen⟩ := registrationPayload_lengths fit
  have payload : NrosRegistrationPayload.ofBytes
      (registrationFrame topic).payload = Board.registrationPayload topic :=
    rfl
  have length : (registrationFrame topic).payload.length =
      registrationPayloadSize + topic.topicName.length +
        topic.topicType.length :=
    Board.registrationFrame_length
  have rest : (registrationFrame topic).payload.drop registrationPayloadSize =
      topic.topicType ++ topic.topicName := rfl
  have long : ¬(registrationFrame topic).payload.length <
      registrationPayloadSize := by
    omega
  have whole : ¬(registrationFrame topic).payload.length <
      registrationPayloadSize + topic.topicType.length +
        topic.topicName.length := by
    omega
  unfold decodeRegistrationFrame
  rw [if_neg long, payload]
  dsimp only
  rw [typeLen, nameLen, if_neg whole, rest, List.take_left, List.drop_left,
    List.take_length]
  have qos : (Board.registrationPayload topic).qos = topic.qos := rfl
  have id : (registrationFrame topic).header.topicId = topic.topicId := rfl
  rw [qos, id]
  by_cases known : topic.qos < nrosQosCount
  · rw [if_pos known, if_neg (UInt8.not_le.mpr known)]
  · rw [if_neg known, if_pos (UInt8.not_lt.mp known)]

end Agent

namespace Board

/-- A topic whose names fit is loaded. -/
theorem load_registers {table : TopicTable} {board : Board}
    {topic : NrosTopic} (notDone : board.tx.sendingRegDoneFrame = false)
    (current : board.currentTopic? table = some topic)
    (fit : topic.NamesFit) :
    ∃ after, loadNextRegistrationFrame table board = .ok after ∧
      after.Sending (registrationFrame topic) ∧ after.tx.bytesSent = 0 := by
  have below := (List.getElem?_eq_some_iff.mp current).1
  have returns : ∃ after, loadNextRegistrationFrame table board = .ok after :=
    load_returns (.inr below)
  obtain ⟨after, loaded⟩ := returns
  refine ⟨after, loaded, ?_⟩
  cases loadStep loaded with
  | done regDone _ _ _ _ =>
      rw [notDone] at regDone
      cases regDone
  | tooLong other found _ long _ =>
      have same : some topic = some other := current.symm.trans found
      cases same
      exact absurd fit long
  | register other found _ _ sending start _ _ =>
      have same : some topic = some other := current.symm.trans found
      cases same
      exact ⟨sending, start⟩

end Board

/-- For every topic whose names fit: the board loads its REGISTER, and the
agent decodes this to the same id, QoS and names, accepted exactly if the QoS
is known.  For every payload: the agent reads inside it, and rejects it as
malformed exactly if it is too short for the fixed part or for the lengths it
announces. -/
theorem registration_decoded {table : TopicTable} {board : Board}
    {topic : NrosTopic} (notDone : board.tx.sendingRegDoneFrame = false)
    (current : board.currentTopic? table = some topic)
    (fit : topic.NamesFit) (frame : WireFrame) (t : Topic) :
    (∃ after, Board.loadNextRegistrationFrame table board = .ok after ∧
        after.Sending (registrationFrame topic) ∧ after.tx.bytesSent = 0) ∧
      Agent.decodeRegistrationFrame (registrationFrame topic) t =
        (if topic.qos < nrosQosCount then .ok else .unsupportedQos,
          { t with
            id := topic.topicId
            qos := topic.qos
            msgType := topic.topicType
            topicName := topic.topicName }) ∧
      Agent.decodeChecked? frame t =
        some (Agent.decodeRegistrationFrame frame t) ∧
      ((Agent.decodeRegistrationFrame frame t).1 = .malformed ↔
        frame.payload.length < registrationPayloadSize ∨
          frame.payload.length < registrationPayloadSize +
            (NrosRegistrationPayload.ofBytes
              frame.payload).typeNameLen.toNat +
            (NrosRegistrationPayload.ofBytes
              frame.payload).topicNameLen.toNat) :=
  ⟨Board.load_registers notDone current fit,
    Agent.decode_registrationFrame fit t, Agent.decodeChecked?_eq frame t,
    Agent.decode_malformed_iff frame t⟩

/-- A topic with an empty type name and an unknown QoS. -/
def unknownQosTopic : NrosTopic :=
  { qos := 6
    topicId := 255
    topicName := [0x2F, 0x74]
    topicType := []
    cb := none }

def unknownQosTable : TopicTable where
  topics := [unknownQosTopic]
  count_le := by decide

theorem registration_decoded_unknownQos :
    (Agent.decodeRegistrationFrame (registrationFrame unknownQosTopic)
      .default).1 = .unsupportedQos := by
  have current : Board.powerUp.currentTopic? unknownQosTable =
      some unknownQosTopic := rfl
  have fit : unknownQosTopic.NamesFit := by decide
  have decoded := registration_decoded rfl current fit
    (registrationFrame unknownQosTopic) .default
  rw [decoded.2.1]
  rfl

end NanoRos
