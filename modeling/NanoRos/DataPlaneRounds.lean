import NanoRos.DataPlaneSteps

/-!
# A round of the agent and the messages under way

The agent publishes the DATA frame it takes off the link, if it takes one, and
sends the oldest message of its queue.
-/

namespace NanoRos

open Board PartialRun StopAndWait
open ClientHandlerNode
open AgentLoop (pushIncoming takeOutbound)
open NrosStreamParser (Clears framesOf)
open SerialTransport (Counted frameBytes onLink)

/-! ## The queue -/

theorem ThreadSafeQueue.push_suffix {α : Type*} (queue : ThreadSafeQueue α)
    (item : α) : (queue.push item).items <:+ queue.items ++ [item] := by
  simp only [push]
  split
  · obtain ⟨lost, whole⟩ := List.tail_suffix queue.items
    exact ⟨lost, by rw [← List.append_assoc, whole]⟩
  · exact List.suffix_rfl

theorem ThreadSafeQueue.push_items {α : Type*} {queue : ThreadSafeQueue α}
    (room : queue.size < maxQueueSize) (item : α) :
    (queue.push item).items = queue.items ++ [item] := by
  have notFull : ¬queue.items.length ≥ maxQueueSize := Nat.not_le.mpr room
  simp only [push, notFull, if_false]

/-- What a ROS message pushes. -/
def Incoming.pushed? (arrival : Incoming) : Option OutboundMsg :=
  clientSubscriptionCallback arrival.topicId arrival.message

theorem pushIncoming_cons (queue : ThreadSafeQueue OutboundMsg)
    (arrival : Incoming) (rest : List Incoming) :
    pushIncoming queue (arrival :: rest) =
      pushIncoming (arrival.pushed?.elim queue queue.push) rest := by
  rw [pushIncoming, List.foldl_cons, Incoming.pushed?]
  cases clientSubscriptionCallback arrival.topicId arrival.message <;> rfl

theorem pushIncoming_append (queue : ThreadSafeQueue OutboundMsg)
    (first rest : List Incoming) :
    pushIncoming queue (first ++ rest) =
      pushIncoming (pushIncoming queue first) rest :=
  List.foldl_append

/-- The queue is the last part of what was in it and what was pushed. -/
theorem pushIncoming_suffix (queue : ThreadSafeQueue OutboundMsg)
    (incoming : List Incoming) :
    (pushIncoming queue incoming).items <:+
      queue.items ++ incoming.filterMap Incoming.pushed? := by
  induction incoming generalizing queue with
  | nil => simp [pushIncoming]
  | cons arrival incoming induction =>
      rw [pushIncoming_cons, List.filterMap_cons]
      cases arrival.pushed? with
      | none => exact induction queue
      | some message =>
          obtain ⟨lost, whole⟩ := queue.push_suffix message
          apply (induction (queue.push message)).trans
          refine ⟨lost, ?_⟩
          rw [← List.append_assoc, whole, List.append_assoc]
          rfl

/-- With room for all of them no message is lost. -/
theorem pushIncoming_items (incoming : List Incoming)
    {queue : ThreadSafeQueue OutboundMsg}
    (room : queue.size + incoming.length ≤ maxQueueSize) :
    (pushIncoming queue incoming).items =
      queue.items ++ incoming.filterMap Incoming.pushed? := by
  induction incoming generalizing queue with
  | nil => simp [pushIncoming]
  | cons arrival incoming induction =>
      rw [List.length_cons] at room
      rw [pushIncoming_cons, List.filterMap_cons]
      cases arrival.pushed? with
      | none => exact induction (Nat.le_of_succ_le room)
      | some message =>
          have pushed := queue.push_items (by omega) message
          simp only [Option.elim_some]
          rw [induction, pushed, List.append_assoc]
          · rfl
          · simp only [ThreadSafeQueue.size, pushed, List.length_append,
              List.length_singleton] at room ⊢
            omega

/-- A round takes the oldest message, if it takes one. -/
theorem takeOutbound_items (queue : ThreadSafeQueue OutboundMsg)
    (input : IterationInput) :
    (takeOutbound queue input).2 ++
        (takeOutbound queue input).1.items.map OutboundMsg.frame =
      (pushIncoming queue
        (input.beforeSize ++ input.beforePop)).items.map OutboundMsg.frame := by
  rw [pushIncoming_append]
  simp only [takeOutbound]
  generalize pushIncoming (pushIncoming queue input.beforeSize)
    input.beforePop = full
  split
  · rcases full with ⟨items, stopping, length_le⟩
    cases items with
    | nil => cases stopping <;> rfl
    | cons message items => rfl
  · rfl

/-! ## The calls that queued messages are to cause -/

/-- The calls that frames are to cause which the agent is to send. -/
def TopicTable.callsOf (table : TopicTable) (frames : List WireFrame) :
    List HandlerCall :=
  (frames.filter fitsFrame).filterMap table.callOf

theorem TopicTable.callsOf_append (table : TopicTable)
    (left right : List WireFrame) :
    table.callsOf (left ++ right) =
      table.callsOf left ++ table.callsOf right := by
  rw [callsOf, List.filter_append, List.filterMap_append]
  rfl

theorem TopicTable.callsOf_arrived (table : TopicTable)
    (incoming : List Incoming) :
    table.callsOf ((incoming.filterMap Incoming.pushed?).map
        OutboundMsg.frame) =
      incoming.filterMap (Incoming.handlerCall table) := by
  induction incoming with
  | nil => rfl
  | cons arrival incoming induction =>
      have here : table.callsOf (arrival.pushed?.toList.map
          OutboundMsg.frame) = (arrival.handlerCall table).toList := by
        unfold Incoming.pushed? clientSubscriptionCallback
          Incoming.handlerCall Incoming.payload?
        by_cases short : arrival.message.length < encapHeaderSize
        · simp [short, callsOf]
        · by_cases long : nrosMaxPayload <
              (arrival.message.drop encapHeaderSize).length
          · have unfit := Nat.not_le.mpr long
            simp only [short, long, or_true, if_true, if_false]
            simp only [Option.toList_some, List.map_cons, List.map_nil,
              callsOf]
            rw [List.filter_cons_of_neg]
            · rfl
            · simpa [fitsFrame] using unfit
          · have fit := Nat.not_lt.mp long
            simp only [short, long, or_self, if_false]
            simp only [Option.toList_some, List.map_cons, List.map_nil,
              callsOf, Option.bind_some]
            rw [List.filter_cons_of_pos]
            · simp only [List.filter_nil, List.filterMap_cons,
                List.filterMap_nil, callOf]
              cases table.handlerCall arrival.topicId _ <;> rfl
            · simpa [fitsFrame] using fit
      rw [List.filterMap_cons, List.filterMap_cons]
      cases pushed : arrival.pushed? with
      | none =>
          rw [pushed] at here
          cases called : arrival.handlerCall table with
          | none => exact induction
          | some call =>
              rw [called] at here
              cases here
      | some message =>
          rw [pushed] at here
          rw [List.map_cons, ← List.singleton_append, callsOf_append,
            induction]
          cases called : arrival.handlerCall table with
          | none =>
              rw [called] at here
              exact congrArg (· ++ _) here
          | some call =>
              rw [called] at here
              exact congrArg (· ++ _) here

/-! ## What the agent sends -/

section Sent

variable {before : AgentLoop} {input : IterationInput}
  {output : IterationOutput}

theorem filter_onLink {frame : WireFrame} :
    (onLink frame).filter isData =
      if isData frame then onLink frame else [] := by
  have onWire : isData frame.onWire = isData frame := rfl
  unfold onLink
  cases data : isData frame with
  | true =>
      rw [data] at onWire
      split <;> simp [onWire]
  | false =>
      rw [data] at onWire
      split <;> simp [onWire]

/-- What fits is on the link. -/
theorem TopicTable.callsOf_onLink (table : TopicTable)
    (frames : List WireFrame) :
    (frames.flatMap onLink).filterMap table.callOf = table.callsOf frames := by
  induction frames with
  | nil => rfl
  | cons frame frames induction =>
      have here : (onLink frame).filterMap table.callOf =
          table.callsOf [frame] := by
        unfold onLink TopicTable.callsOf
        split
        next fits =>
          rw [List.filter_cons_of_pos (by simpa [fitsFrame] using fits)]
          rfl
        next long =>
          rw [List.filter_cons_of_neg (by simpa [fitsFrame] using long)]
          rfl
      rw [List.flatMap_cons, List.filterMap_append, here, induction,
        ← table.callsOf_append]
      rfl

/-- The DATA that a round sends is what it takes from the queue. -/
theorem AgentLoop.Iterated.data (iterated : before.Iterated input output)
    (queued : ∃ arrived, AgentHistory.QueueForwards arrived
      before.agent.toClientMsgQueue) :
    (output.sent.flatMap onLink).filter isData =
      (takeOutbound before.agent.toClientMsgQueue input).2.flatMap onLink := by
  obtain ⟨arrived, forwards⟩ := queued
  have outbound := (forwards.mono (List.subset_append_left arrived
    (input.beforeSize ++ input.beforePop))).takeOutbound
      (List.subset_append_of_subset_right _ (List.subset_append_left _ _))
      (List.subset_append_of_subset_right _ (List.subset_append_right _ _))
  have discovers : (before.discover.2.flatMap onLink).filter isData = [] := by
    unfold AgentLoop.discover
    split
    · simp only [List.flatMap_cons, List.flatMap_nil, List.append_nil]
      exact filter_onLink
    · rfl
  have acks : ((if before.agent.ack.needAck then [before.agent.ackFrame]
      else []).flatMap onLink).filter isData = [] := by
    split
    · simp only [List.flatMap_cons, List.flatMap_nil, List.append_nil]
      exact filter_onLink
    · rfl
  rw [iterated.sent, List.flatMap_append, List.flatMap_append,
    List.filter_append, List.filter_append, discovers, acks,
    List.nil_append, List.append_nil]
  apply List.filter_eq_self.mpr
  intro frame member
  obtain ⟨sent, taken, onTheLink⟩ := List.mem_flatMap.mp member
  obtain ⟨arrival, _, forwarded⟩ := outbound.2 sent taken
  have same : frame = sent.onWire := by
    unfold onLink at onTheLink
    split at onTheLink
    · exact List.mem_singleton.mp onTheLink
    · cases onTheLink
  rw [same]
  exact isData_iff.mpr forwarded.type

end Sent

/-! ## A round that does not fail -/

theorem SerialTransport.recvFrame_returns (transport : SerialTransport)
    (link : List UInt8) (reads : List Nat) :
    ∃ result, transport.recvFrame 0 (readsFrom link reads).1 = some result := by
  induction reads generalizing transport link with
  | nil =>
      cases popped : transport.popCompleted with
      | some pair => exact ⟨_, recvFrame_of_completed popped _⟩
      | none =>
          refine ⟨{ frame := none, transport, unread := [] }, ?_⟩
          rw [readsFrom, recvFrame_cons popped]
          simp [recvRound]
  | cons count reads induction =>
      simp only [readsFrom]
      cases popped : transport.popCompleted with
      | some pair => exact ⟨_, recvFrame_of_completed popped _⟩
      | none =>
          rw [recvFrame_cons popped]
          split
          next moved _ => exact induction moved _
          · exact ⟨_, rfl⟩

theorem AgentProcess.round_returns (rcl : Rclcpp) (process : AgentProcess)
    (link : List UInt8) (reads : List Nat)
    (beforeSize beforePop : List Incoming) :
    ∃ round, process.round rcl link reads beforeSize beforePop =
        some round ∧
      round.outcome = process.loop.iterate rcl
        { received := round.received.frame, beforeSize, beforePop } := by
  obtain ⟨received, returned⟩ :=
    process.transport.recvFrame_returns link reads
  unfold AgentProcess.round
  generalize readsFrom link reads = taken at returned ⊢
  obtain ⟨outcomes, left⟩ := taken
  simp only at returned
  simp only [returned]
  exact ⟨_, rfl, rfl⟩

/-- rclcpp creates a handle for a topic the agent has taken from the board. -/
theorem Rclcpp.CreatesAll.creates {rcl : Rclcpp} {table : TopicTable}
    (createsAll : rcl.CreatesAll table) {topics : List Topic}
    (agree : topics.map Topic.key = table.keys) :
    ∀ t ∈ topics, ClientHandlerNode.creates rcl t = true := by
  intro t member
  have known : t.key ∈ table.keys := agree ▸ List.mem_map_of_mem member
  obtain ⟨topic, inside, same⟩ := List.mem_map.mp known
  have created := createsAll topic inside
  have id : topic.topicId = t.id := congrArg TopicKey.id same
  have name : topic.topicName = t.topicName :=
    congrArg TopicKey.topicName same
  have type : topic.topicType = t.msgType := congrArg TopicKey.typeName same
  have qos : topic.qos = t.qos := congrArg TopicKey.qos same
  rw [id, name, type, qos] at created
  unfold ClientHandlerNode.creates
  split at created <;> simp [*]

theorem ids_inside {table : TopicTable}
    (inside : ∀ topic ∈ table.topics, topic.topicId.toNat < topicsSize)
    {topics : List Topic} (agree : topics.map Topic.key = table.keys) :
    ∀ t ∈ topics, t.id.toNat < topicsSize := by
  intro t member
  have known : t.key ∈ table.keys := agree ▸ List.mem_map_of_mem member
  obtain ⟨topic, topicMember, same⟩ := List.mem_map.mp known
  have id : topic.topicId = t.id := congrArg TopicKey.id same
  rw [← id]
  exact inside topic topicMember

/-- A frame is dispatched without a fault when it comes in its turn: DATA to a
client that knows its topic, REGISTER_DONE when everything is registered. -/
theorem Agent.frameDispatch_returns {rcl : Rclcpp} {table : TopicTable}
    {agent : Agent} {frame : WireFrame} (wellFormed : table.WellFormed)
    (createsAll : rcl.CreatesAll table)
    (data : isData frame = true → ∃ client, agent.client = some client ∧
      ∃ publication, client.clientPublish frame = .ok publication)
    (done : frame.header.type = NrosPacketType.registerDone.toByte →
      agent.newTopics.map Topic.key = table.keys) :
    ∃ result, agent.frameDispatch rcl frame = .ok result := by
  by_cases isDataFrame : isData frame = true
  · obtain ⟨client, connected, publication, publishes⟩ := data isDataFrame
    rw [frameDispatch_data rcl connected (isData_iff.mp isDataFrame),
      publishes]
    exact ⟨_, rfl⟩
  by_cases isDone : frame.header.type = NrosPacketType.registerDone.toByte
  · have agree := done isDone
    obtain ⟨client, connects⟩ := (onClientConnect_ok_iff
      (createsAll.creates agree) ClientHandlerNode.initial).mpr
        (ids_inside wellFormed.inside agree)
    rw [frameDispatch_done rcl agent isDone, connects]
    exact ⟨_, rfl⟩
  · apply agent.frameDispatch_ok rcl _ isDone
    intro type
    exact isDataFrame (isData_iff.mpr type)

end NanoRos
