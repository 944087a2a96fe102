import NanoRos.AgentStep

/-!
# The client's topic table

What `on_client_connect` makes of a list of registrations, and what a DATA
frame is published on afterwards.
-/

namespace NanoRos

namespace ClientHandlerNode

/-- The last registration of an id, with its place among all. -/
def lastRegistered (id : UInt8) (topics : List Topic) : Option (Topic × Nat) :=
  (topics.zipIdx.filter fun entry => entry.1.id = id).getLast?

theorem lastRegistered_append (id : UInt8) (topics : List Topic) (t : Topic) :
    lastRegistered id (topics ++ [t]) =
      if t.id = id then some (t, topics.length)
      else lastRegistered id topics := by
  unfold lastRegistered
  rw [List.zipIdx_append, List.filter_append]
  split
  next same => simp [List.zipIdx, same]
  next different => simp [List.zipIdx, different]

theorem lastRegistered_eq_none_iff {id : UInt8} {topics : List Topic} :
    lastRegistered id topics = none ↔ ∀ t ∈ topics, t.id ≠ id := by
  unfold lastRegistered
  rw [List.getLast?_eq_none_iff, List.filter_eq_nil_iff]
  constructor
  · intro unused t member same
    obtain ⟨index, bound, at_⟩ := List.mem_iff_getElem.mp member
    refine unused (t, index) ?_ (by simpa using same)
    rw [List.mem_zipIdx_iff_getElem?]
    simp [bound, at_]
  · intro unused entry member same
    exact unused entry.1 (List.fst_mem_of_mem_zipIdx member)
      (by simpa using same)

/-- The entry a registration leaves in the table. -/
def connected (t : Topic) (serial : Nat) : Topic :=
  { t with handle := handleFor t serial, active := true }

/-- The table holds each id's last registration, and default entries else. -/
structure TableHolds (topics : List Topic) (node : ClientHandlerNode) :
    Prop where
  created : node.created = topics.length
  entry : ∀ id : UInt8, id.toNat < topicsSize →
    node.topics.load? id.toNat = some
      (match lastRegistered id topics with
      | some (t, serial) => connected t serial
      | none => .default)

theorem tableHolds_initial : TableHolds [] initial := by
  constructor
  · rfl
  · intro id inside
    simp [initial, Buffer.filled, Buffer.load?, lastRegistered, inside]

theorem TableHolds.connectTopic {rcl : Rclcpp} {topics : List Topic}
    {node next : ClientHandlerNode} {t : Topic}
    (holds : TableHolds topics node)
    (connects : ClientHandlerNode.connectTopic rcl node t = .ok next) :
    TableHolds (topics ++ [t]) next := by
  unfold ClientHandlerNode.connectTopic at connects
  split at connects
  next inside =>
    split at connects
    · cases connects
      constructor
      · simp [holds.created]
      · intro id idInside
        rw [lastRegistered_append]
        by_cases same : t.id = id
        · rw [if_pos same, ← same, Buffer.load?_store_self _ inside,
            holds.created]
          rfl
        · rw [if_neg same, Buffer.load?_store_ne]
          · exact holds.entry id idInside
          · intro equal
            exact same (UInt8.toNat_inj.mp equal)
    · cases connects
  · cases connects

theorem TableHolds.onClientConnect {rcl : Rclcpp} (rest : List Topic)
    {topics : List Topic} {node final : ClientHandlerNode}
    (holds : TableHolds topics node)
    (connects : node.onClientConnect rcl rest = .ok final) :
    TableHolds (topics ++ rest) final := by
  induction rest generalizing topics node with
  | nil =>
      cases connects
      rwa [List.append_nil]
  | cons t rest induction =>
      unfold ClientHandlerNode.onClientConnect at connects
      split at connects
      · cases connects
      next next connected =>
        have later := induction (holds.connectTopic connected) connects
        rwa [List.append_assoc] at later

/-- If rclcpp creates every handle, connecting returns exactly when no
registration has an id beyond the table. -/
theorem onClientConnect_ok_iff {rcl : Rclcpp} {topics : List Topic}
    (created : ∀ t ∈ topics, creates rcl t = true)
    (node : ClientHandlerNode) :
    (∃ final, node.onClientConnect rcl topics = .ok final) ↔
      ∀ t ∈ topics, t.id.toNat < topicsSize := by
  induction topics generalizing node with
  | nil =>
      constructor
      · nofun
      · intro _
        exact ⟨node, rfl⟩
  | cons t topics induction =>
      have rest := induction fun other member =>
        created other (List.mem_cons_of_mem t member)
      have here := created t List.mem_cons_self
      unfold onClientConnect connectTopic
      by_cases inside : t.id.toNat < topicsSize
      · simp only [inside, here, if_true, rest, List.forall_mem_cons, true_and]
      · simp only [inside, if_false, List.forall_mem_cons, false_and, iff_false]
        rintro ⟨final, impossible⟩
        cases impossible

theorem lastRegistered_some {id : UInt8} {topics : List Topic} {t : Topic}
    {serial : Nat} (last : lastRegistered id topics = some (t, serial)) :
    t.id = id := by
  have member := List.mem_of_getLast? last
  simpa using (List.mem_filter.mp member).2

theorem used_of_lastRegistered {id : UInt8} {topics : List Topic}
    {found : Topic × Nat} (last : lastRegistered id topics = some found) :
    ∃ t ∈ topics, t.id = id := by
  by_contra unused
  have none := lastRegistered_eq_none_iff.mpr
    (fun t member same => unused ⟨t, member, same⟩)
  rw [last] at none
  cases none

theorem load?_outside (node : ClientHandlerNode) {index : Nat}
    (outside : ¬index < topicsSize) : node.topics.load? index = none := by
  rw [Buffer.load?, List.getElem?_eq_none_iff, node.topics.length_eq]
  exact Nat.not_lt.mp outside

/-- What a DATA frame is published as: on the publisher created for the last
registration of its id, if the id is a publisher's, and else not at all. -/
def expectedPublication (topics : List Topic) (frame : WireFrame) :
    Option Publication :=
  (lastRegistered frame.header.topicId topics).bind fun (t, serial) =>
    if isPublisherId frame.header.topicId then
      some
        { publisher :=
            { topicName := t.topicName
              msgType := t.msgType
              qos := qosFromWire t.qos
              serial }
          payload := frame.payload }
    else
      none

/-- A frame is published as expected exactly when its id is registered. -/
theorem clientPublish_ok_iff {topics : List Topic} {node : ClientHandlerNode}
    (holds : TableHolds topics node)
    (inside : ∀ t ∈ topics, t.id.toNat < topicsSize) (frame : WireFrame) :
    ((∃ published, node.clientPublish frame = .ok published) ↔
        ∃ t ∈ topics, t.id = frame.header.topicId) ∧
      ∀ published, node.clientPublish frame = .ok published →
        published = expectedPublication topics frame := by
  unfold clientPublish expectedPublication
  by_cases idInside : frame.header.topicId.toNat < topicsSize
  · rw [holds.entry _ idInside]
    cases last : lastRegistered frame.header.topicId topics with
    | none =>
        have unused := lastRegistered_eq_none_iff.mp last
        constructor
        · constructor
          · rintro ⟨published, impossible⟩
            cases impossible
          · rintro ⟨t, member, same⟩
            exact absurd same (unused t member)
        · intro published impossible
          cases impossible
    | some found =>
        obtain ⟨t, serial⟩ := found
        have same := lastRegistered_some last
        have used := used_of_lastRegistered last
        simp only [connected, handleFor, same, Option.bind_some]
        cases isPublisherId frame.header.topicId with
        | true =>
            refine ⟨⟨fun _ => used, fun _ => ⟨_, rfl⟩⟩, ?_⟩
            intro published result
            cases result
            rfl
        | false =>
            refine ⟨⟨fun _ => used, fun _ => ⟨_, rfl⟩⟩, ?_⟩
            intro published result
            cases result
            rfl
  · rw [node.load?_outside idInside]
    constructor
    · constructor
      · rintro ⟨published, impossible⟩
        cases impossible
      · rintro ⟨t, member, same⟩
        rw [← same] at idInside
        exact absurd (inside t member) idInside
    · intro published impossible
      cases impossible

end ClientHandlerNode

/-! ## Registrations, REGISTER_DONE, DATA -/

namespace Agent

open ClientHandlerNode

def acceptedTopics (registers : List WireFrame) : List Topic :=
  registers.filterMap acceptedTopic

/-- `frame_dispatch` for one frame after the other. -/
def dispatchAll (rcl : Rclcpp) : Agent → List WireFrame →
    Except AgentFault (Agent × List Publication)
  | agent, [] => .ok (agent, [])
  | agent, frame :: frames =>
      match agent.frameDispatch rcl frame with
      | .error fault => .error fault
      | .ok (agent, published) =>
          match dispatchAll rcl agent frames with
          | .error fault => .error fault
          | .ok (agent, later) => .ok (agent, published.toList ++ later)

theorem dispatchAll_cons (rcl : Rclcpp) (agent : Agent) (frame : WireFrame)
    (frames : List WireFrame) :
    agent.dispatchAll rcl (frame :: frames) =
      match agent.frameDispatch rcl frame with
      | .error fault => .error fault
      | .ok (agent, published) =>
          match agent.dispatchAll rcl frames with
          | .error fault => .error fault
          | .ok (agent, later) => .ok (agent, published.toList ++ later) :=
  rfl

/-- A frame that makes the client publish nothing. -/
theorem dispatchAll_cons_silent {rcl : Rclcpp} {agent next : Agent}
    {frame : WireFrame}
    (dispatched : agent.frameDispatch rcl frame = .ok (next, none))
    (frames : List WireFrame) :
    agent.dispatchAll rcl (frame :: frames) = next.dispatchAll rcl frames := by
  rw [dispatchAll_cons, dispatched]
  dsimp only
  cases next.dispatchAll rcl frames with
  | error fault => rfl
  | ok later => rfl

theorem frameDispatch_register (rcl : Rclcpp) (agent : Agent)
    {frame : WireFrame}
    (type : frame.header.type = NrosPacketType.register.toByte) :
    agent.frameDispatch rcl frame = .ok (agent.registerTopic frame, none) := by
  unfold frameDispatch
  rw [type, NrosPacketType.ofByte?_toByte]

theorem frameDispatch_data (rcl : Rclcpp) {agent : Agent}
    {client : ClientHandlerNode} (connected : agent.client = some client)
    {frame : WireFrame}
    (type : frame.header.type = NrosPacketType.data.toByte) :
    agent.frameDispatch rcl frame =
      (client.clientPublish frame).map fun published => (agent, published) := by
  unfold frameDispatch
  rw [type, NrosPacketType.ofByte?_toByte]
  simp only [connected]
  cases client.clientPublish frame <;> rfl

theorem frameDispatch_done (rcl : Rclcpp) (agent : Agent) {frame : WireFrame}
    (type : frame.header.type = NrosPacketType.registerDone.toByte) :
    agent.frameDispatch rcl frame =
      (ClientHandlerNode.initial.onClientConnect rcl agent.newTopics).map
        fun client => ({ agent with client := some client }, none) := by
  unfold frameDispatch spawnClient
  rw [type, NrosPacketType.ofByte?_toByte]
  cases ClientHandlerNode.initial.onClientConnect rcl agent.newTopics <;> rfl

/-- REGISTER frames only add to the accepted topics. -/
theorem dispatchAll_registers (rcl : Rclcpp) {registers : List WireFrame}
    (areRegisters : ∀ frame ∈ registers,
      frame.header.type = NrosPacketType.register.toByte)
    (agent : Agent) (frames : List WireFrame) :
    ∃ registered : Agent,
      registered.newTopics = agent.newTopics ++ acceptedTopics registers ∧
        agent.dispatchAll rcl (registers ++ frames) =
          registered.dispatchAll rcl frames := by
  induction registers generalizing agent with
  | nil => exact ⟨agent, by simp [acceptedTopics], rfl⟩
  | cons frame registers induction =>
      have type := areRegisters frame List.mem_cons_self
      obtain ⟨registered, newTopics, same⟩ := induction
        (fun other member =>
          areRegisters other (List.mem_cons_of_mem frame member))
        (agent.registerTopic frame)
      refine ⟨registered, ?_, ?_⟩
      · rw [newTopics, registerTopic_newTopics, acceptedTopics,
          acceptedTopics, List.append_assoc]
        cases accepted : acceptedTopic frame <;> simp [accepted]
      · rw [← same, List.cons_append]
        exact dispatchAll_cons_silent
          (frameDispatch_register rcl agent type) _

/-- DATA frames are published as expected exactly when their ids are
registered. -/
theorem dispatchAll_datas_iff (rcl : Rclcpp) {agent : Agent}
    {client : ClientHandlerNode} (connected : agent.client = some client)
    {topics : List Topic} (holds : TableHolds topics client)
    (inside : ∀ t ∈ topics, t.id.toNat < topicsSize)
    {datas : List WireFrame}
    (areData : ∀ frame ∈ datas,
      frame.header.type = NrosPacketType.data.toByte) :
    (∃ final, agent.dispatchAll rcl datas =
        .ok (final, datas.filterMap (expectedPublication topics))) ↔
      ∀ frame ∈ datas, ∃ t ∈ topics, t.id = frame.header.topicId := by
  induction datas with
  | nil => exact ⟨fun _ => nofun, fun _ => ⟨agent, rfl⟩⟩
  | cons frame datas induction =>
      have rest := induction fun other member =>
        areData other (List.mem_cons_of_mem frame member)
      have dispatched := frameDispatch_data rcl connected
        (areData frame List.mem_cons_self)
      obtain ⟨returns, expected⟩ := clientPublish_ok_iff holds inside frame
      rw [List.forall_mem_cons, ← returns, ← rest]
      rw [dispatchAll_cons, dispatched]
      cases published : client.clientPublish frame with
      | error fault =>
          simp only [Except.map]
          constructor
          · rintro ⟨final, impossible⟩
            cases impossible
          · rintro ⟨⟨published, impossible⟩, _⟩
            cases impossible
      | ok publication =>
          have same := expected publication published
          have split : (frame :: datas).filterMap (expectedPublication topics) =
              publication.toList ++
                datas.filterMap (expectedPublication topics) := by
            rw [same]
            cases found : expectedPublication topics frame <;> simp [found]
          rw [split]
          simp only [Except.map]
          cases agent.dispatchAll rcl datas with
          | error fault => simp
          | ok later => simp [Prod.ext_iff]

/-- After any REGISTER frames and a REGISTER_DONE, the DATA frames are
published on what was created for the last accepted registrations of their
ids, or dropped if those are subscribers' ids, exactly when no accepted id is
255 and every DATA frame's id was accepted. -/
theorem publishes_registered_iff (rcl : Rclcpp) (registers : List WireFrame)
    (areRegisters : ∀ frame ∈ registers,
      frame.header.type = NrosPacketType.register.toByte)
    (created : ∀ t ∈ acceptedTopics registers, creates rcl t = true)
    (done : WireFrame)
    (isDone : done.header.type = NrosPacketType.registerDone.toByte)
    (datas : List WireFrame)
    (areData : ∀ frame ∈ datas,
      frame.header.type = NrosPacketType.data.toByte) :
    (∃ final, initial.dispatchAll rcl (registers ++ done :: datas) =
        .ok (final,
          datas.filterMap (expectedPublication (acceptedTopics registers)))) ↔
      (∀ t ∈ acceptedTopics registers, t.id ≠ 255) ∧
        ∀ frame ∈ datas, ∃ t ∈ acceptedTopics registers,
          t.id = frame.header.topicId := by
  obtain ⟨registered, newTopics, same⟩ :=
    dispatchAll_registers rcl areRegisters initial (done :: datas)
  have newTopics : registered.newTopics = acceptedTopics registers := by
    simpa [initial] using newTopics
  rw [same]
  have dispatching := frameDispatch_done rcl registered isDone
  rw [← newTopics] at created ⊢
  have inside : (∀ t ∈ registered.newTopics, t.id ≠ 255) ↔
      ∀ t ∈ registered.newTopics, t.id.toNat < topicsSize := by
    apply forall₂_congr
    intro t _
    have bound := t.id.toNat_lt
    rw [ne_eq, ← UInt8.toNat_inj]
    simp only [topicsSize]
    change ¬t.id.toNat = 255 ↔ _
    omega
  have connecting := onClientConnect_ok_iff created ClientHandlerNode.initial
  rw [inside]
  cases connects : ClientHandlerNode.initial.onClientConnect rcl
    registered.newTopics with
  | error fault =>
      have outside : ¬∀ t ∈ registered.newTopics,
          t.id.toNat < topicsSize := by
        rw [← connecting, connects]
        rintro ⟨final, impossible⟩
        cases impossible
      rw [connects] at dispatching
      rw [dispatchAll_cons, dispatching]
      constructor
      · rintro ⟨final, impossible⟩
        cases impossible
      · rintro ⟨within, _⟩
        exact absurd within outside
  | ok client =>
      have within := connecting.mp ⟨client, connects⟩
      have holds := tableHolds_initial.onClientConnect _ connects
      rw [List.nil_append] at holds
      let spawned : Agent := { registered with client := some client }
      have connected : spawned.client = some client := rfl
      rw [connects] at dispatching
      rw [dispatchAll_cons_silent dispatching, and_iff_right within]
      exact dispatchAll_datas_iff rcl connected holds within areData

/-- The REGISTER of a publisher with id 127 and the given QoS. -/
def registerPublisher (qos : UInt8) : WireFrame :=
  { header := ⟨nrosMagic0, nrosMagic1, 0x01, 127, 9⟩
    payload := [127, qos, 3, 2, 0x73, 0x2F, 0x54, 0x2F, 0x74] }

def registerDone : WireFrame :=
  { header := ⟨nrosMagic0, nrosMagic1, 0x04, 0, 0⟩, payload := [] }

def dataOfPublisher : WireFrame :=
  { header := ⟨nrosMagic0, nrosMagic1, 0x02, 127, 1⟩, payload := [0x2A] }

/-- A topic registered twice is published on the second publisher. -/
theorem publishes_registered_twice :
    ∃ final, initial.dispatchAll Rclcpp.willing
        [registerPublisher 0, registerPublisher 1, registerDone,
          dataOfPublisher] =
      .ok (final, [⟨⟨[0x2F, 0x74], [0x73, 0x2F, 0x54], .sensorData, 1⟩,
        [0x2A]⟩]) :=
  (publishes_registered_iff Rclcpp.willing
    [registerPublisher 0, registerPublisher 1] (by decide) (by decide)
    registerDone rfl [dataOfPublisher] (by decide)).mpr (by decide)

/-- The board publishes on a topic whose registration was rejected for its
QoS: the table's default entry is a null publisher. -/
theorem null_publisher_rejectedTopic :
    initial.dispatchAll Rclcpp.willing
          [registerPublisher 6, registerDone, dataOfPublisher] =
        .error .nullPublisher ∧
      expectedPublication (acceptedTopics [registerPublisher 6])
        dataOfPublisher = none := by
  exact ⟨rfl, rfl⟩

end Agent

end NanoRos
