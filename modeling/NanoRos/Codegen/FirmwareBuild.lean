import NanoRos.DataPlane
import NanoRos.Codegen.PayloadFits
import NanoRos.Codegen.TopicMacros

/-!
# Firmware that builds

What the generator and the C compiler check, and that the table of a firmware
that passes is one both parties can work with: every topic has its own id, its
publisher or its handler behind it, and can be registered.
-/

namespace NanoRos.Codegen

open ClientHandlerNode (isPublisherId)

/-- The three assertions of `generate_wire_checks`. -/
structure PassesWireChecks (topic : Topic) : Prop where
  payload : PayloadCheck topic
  name : (utf8 topic.name).length ≤ nrosMaxStrSize
  type : (utf8 topic.msgType).length ≤ nrosMaxStrSize

namespace GeneratedTable

/-- The generator accepts the topics, the `.topic_id` of each entry is what its
macro expands to, no macro is defined twice, and the assertions hold. -/
structure Builds (upper : Char → List Char) (generated : GeneratedTable) :
    Prop where
  nonempty : generated.topics ≠ []
  ids : ∃ allocated, generateTopicIds generated.topics = .ok allocated ∧
    compiledTopicIds upper generated.topics allocated =
      generated.ids.map some
  macros : (generated.topics.map fun topic =>
    toUppercase upper topic.name).Nodup
  checks : ∀ topic ∈ generated.topics, PassesWireChecks topic

variable {upper : Char → List Char} {generated : GeneratedTable}

/-- The ids in the table are the allocated ones. -/
theorem Builds.allocated (builds : generated.Builds upper) :
    Assigns 0 127 generated.topics generated.ids := by
  obtain ⟨allocated, accepted, compiled⟩ := builds.ids
  have assigns := assignTopicIds_eq_ok_iff.mp accepted
  have macros := nodup_idMacro_iff.mpr builds.macros
  have firsts : (generated.topics.zip allocated).map Prod.fst =
      generated.topics := List.map_fst_zip (Nat.le_of_eq assigns.length.symm)
  have seconds : (generated.topics.zip allocated).map Prod.snd = allocated :=
    List.map_snd_zip (Nat.le_of_eq assigns.length)
  have own : compiledTopicIds upper generated.topics allocated =
      allocated.map some := by
    calc
      compiledTopicIds upper generated.topics allocated =
          (generated.topics.zip allocated).map fun pair =>
            expandMacro (idDefinitions upper generated.topics allocated)
              (idMacro upper pair.1) := by
        rw [compiledTopicIds]
        conv_lhs =>
          arg 2
          rw [← firsts]
        rw [List.map_map]
        rfl
      _ = (generated.topics.zip allocated).map fun pair => some pair.2 := by
        apply List.map_congr_left
        intro pair member
        exact expandMacro_own assigns.length macros member
      _ = allocated.map some := by
        conv_rhs => rw [← seconds]
        rw [List.map_map]
        rfl
  have same : generated.ids = allocated :=
    List.map_injective_iff.mpr (fun _ _ => Option.some.inj)
      (compiled.symm.trans own)
  rw [same]
  exact assigns

theorem table_topics (generated : GeneratedTable) :
    generated.table.topics = (generated.topics.zip generated.ids).map
      fun pair => topicEntry generated.handler pair.1 pair.2 :=
  generateTopicArray_eq _ _ _

theorem entry_mem (generated : GeneratedTable) {topic : Topic} {id : UInt8}
    (member : (topic, id) ∈ generated.topics.zip generated.ids) :
    topicEntry generated.handler topic id ∈ generated.table.topics := by
  rw [table_topics]
  exact List.mem_map.mpr ⟨_, member, rfl⟩

theorem Builds.distinct (builds : generated.Builds upper) :
    (generated.table.topics.map NrosTopic.topicId).Nodup := by
  have assigns := builds.allocated
  rw [show generated.table.topics.map NrosTopic.topicId = generated.ids from
    map_topicId_generateTopicArray generated.handler assigns.length]
  exact assigns.nodup (by decide)

/-- The entry with an id is that of its topic. -/
theorem Builds.eq_entry (builds : generated.Builds upper) {topic : Topic}
    {id : UInt8} (member : (topic, id) ∈ generated.topics.zip generated.ids)
    {entry : NrosTopic} (inside : entry ∈ generated.table.topics)
    (same : entry.topicId = id) :
    entry = topicEntry generated.handler topic id :=
  List.inj_on_of_nodup_map builds.distinct inside
    (generated.entry_mem member) same

/-- What passes the checks can be served. -/
theorem Builds.wellFormed (builds : generated.Builds upper) :
    generated.table.WellFormed := by
  have assigns := builds.allocated
  have agree := assigns.idsAgree generated.handler
  have entries {claim : NrosTopic → Prop}
      (holds : ∀ topic id, (topic, id) ∈ generated.topics.zip generated.ids →
        claim (topicEntry generated.handler topic id)) :
      ∀ entry ∈ generated.table.topics, claim entry := by
    intro entry inside
    rw [table_topics] at inside
    obtain ⟨⟨topic, id⟩, member, rfl⟩ := List.mem_map.mp inside
    exact holds topic id member
  refine ⟨?_, ⟨?_, ?_⟩, builds.distinct, ?_, ?_⟩
  · have lengths := congrArg List.length generated.table_topics
    rw [List.length_map, List.length_zip, assigns.length, Nat.min_self]
      at lengths
    have := List.length_pos_iff.mpr builds.nonempty
    exact List.length_pos_iff.mp (by omega)
  · apply entries
    intro topic id member
    have checks := builds.checks topic (List.of_mem_zip member).1
    exact ⟨checks.type, checks.name⟩
  · apply entries
    intro topic id _
    show topic.qos.toByte < nrosQosCount
    cases topic.qos <;> decide
  · apply entries
    intro topic id member
    exact agree.indexed id (List.of_mem_zip member).2
  · apply entries
    intro topic id member
    have classified := agree.classified topic id member
    simp only [topicEntry]
    cases kind : topic.topicType with
    | publisher => simp [classified.mpr kind]
    | subscriber =>
        rw [kind] at classified
        simp [Bool.eq_false_iff.mpr (mt classified.mp (by rintro ⟨⟩))]

/-- A publisher's id leads to a ROS publisher of its name and type. -/
theorem Builds.publisher? (builds : generated.Builds upper) {topic : Topic}
    {id : UInt8} (member : (topic, id) ∈ generated.topics.zip generated.ids)
    (kind : topic.topicType = .publisher) :
    ∃ serial, generated.table.publisher? id = some
      { topicName := utf8 topic.name
        msgType := utf8 topic.msgType
        qos := qosFromWire topic.qos.toByte
        serial } := by
  have agree := builds.allocated.idsAgree generated.handler
  have isPublisher := (agree.classified topic id member).mpr kind
  rw [TopicTable.publisher?, if_pos isPublisher]
  cases found : generated.table.topics.zipIdx.find? (·.1.topicId = id) with
  | none =>
      have inside := generated.entry_mem member
      rw [← List.zipIdx_map_fst 0 generated.table.topics] at inside
      obtain ⟨pair, indexed, entry⟩ := List.mem_map.mp inside
      have missed := List.find?_eq_none.mp found pair indexed
      simp [entry, topicEntry] at missed
  | some pair =>
      obtain ⟨entry, serial⟩ := pair
      have same : entry.topicId = id := by
        simpa using List.find?_some found
      have inside := List.fst_mem_of_mem_zipIdx
        (List.mem_of_find?_eq_some found)
      cases builds.eq_entry member inside same
      exact ⟨serial, rfl⟩

/-- A subscriber's id leads to its handler. -/
theorem Builds.subscriber? (builds : generated.Builds upper) {topic : Topic}
    {id : UInt8} (member : (topic, id) ∈ generated.topics.zip generated.ids)
    (kind : topic.topicType = .subscriber) :
    generated.table.subscriber? id = some (generated.handler topic) := by
  rw [TopicTable.subscriber?]
  cases found : generated.table.topics.find? (·.topicId = id) with
  | none =>
      have missed := List.find?_eq_none.mp found _ (generated.entry_mem member)
      simp [topicEntry] at missed
  | some entry =>
      have same : entry.topicId = id := by simpa using List.find?_some found
      rw [builds.eq_entry member (List.mem_of_find?_eq_some found) same]
      simp [topicEntry, kind]

end GeneratedTable

end NanoRos.Codegen
