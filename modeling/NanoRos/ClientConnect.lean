import NanoRos.ClientTable

/-!
# The table after connecting

`topics_` has 255 entries and the wire has 256 ids.  As long as no
registration of id 255 is reached, every write is inside the table, and what
it holds afterwards is what was registered last.
-/

namespace NanoRos

namespace ClientHandlerNode

/-- The table shows the registrations: the entries of the ids that were used
are active, and each holds the last registration of its id, with a publisher
or a subscription created for it. -/
structure Reflects (topics : List Topic) (node : ClientHandlerNode) :
    Prop where
  active : ∀ id : UInt8,
    (∃ entry ∈ node.topics.load? id.toNat, entry.active = true) ↔
      ∃ t ∈ topics, t.id = id
  last : ∀ before t after, topics = before ++ t :: after →
    (∀ later ∈ after, later.id ≠ t.id) →
    ∃ entry ∈ node.topics.load? t.id.toNat,
      entry.active = true ∧ entry.id = t.id ∧
        entry.topicName = t.topicName ∧ entry.msgType = t.msgType ∧
        entry.qos = t.qos ∧ entry.handle = handleFor t before.length

theorem lastRegistered_append_unused {id : UInt8} (rest : List Topic)
    {topics : List Topic} (unused : ∀ later ∈ rest, later.id ≠ id) :
    lastRegistered id (topics ++ rest) = lastRegistered id topics := by
  induction rest generalizing topics with
  | nil => rw [List.append_nil]
  | cons t rest induction =>
      have restUnused : ∀ later ∈ rest, later.id ≠ id := by
        intro later member
        exact unused later (List.mem_cons_of_mem t member)
      have here := unused t List.mem_cons_self
      rw [← List.singleton_append, ← List.append_assoc,
        induction restUnused, lastRegistered_append, if_neg here]

theorem lastRegistered_split {before after : List Topic} {t : Topic}
    (last : ∀ later ∈ after, later.id ≠ t.id) :
    lastRegistered t.id (before ++ t :: after) = some (t, before.length) := by
  rw [← List.singleton_append, ← List.append_assoc,
    lastRegistered_append_unused after last, lastRegistered_append,
    if_pos rfl]

theorem TableHolds.reflects {topics : List Topic} {node : ClientHandlerNode}
    (holds : TableHolds topics node)
    (inside : ∀ t ∈ topics, t.id.toNat < topicsSize) :
    Reflects topics node := by
  constructor
  · intro id
    by_cases idInside : id.toNat < topicsSize
    · rw [holds.entry id idInside]
      cases last : lastRegistered id topics with
      | none =>
          have unused := lastRegistered_eq_none_iff.mp last
          constructor
          · rintro ⟨entry, found, active⟩
            cases found
            cases active
          · rintro ⟨t, member, same⟩
            exact absurd same (unused t member)
      | some found =>
          have used := used_of_lastRegistered last
          exact ⟨fun _ => used, fun _ => ⟨_, rfl, rfl⟩⟩
    · rw [node.load?_outside idInside]
      constructor
      · rintro ⟨entry, found, _⟩
        cases found
      · rintro ⟨t, member, same⟩
        rw [← same] at idInside
        exact absurd (inside t member) idInside
  · rintro before t after rfl last
    have member : t ∈ before ++ t :: after :=
      List.mem_append_right before List.mem_cons_self
    refine ⟨connected t before.length, ?_, rfl, rfl, rfl, rfl, rfl, rfl⟩
    rw [holds.entry t.id (inside t member), lastRegistered_split last]
    rfl

/-- Connecting returns only if every registration was inside the table. -/
theorem inside_of_connects {rcl : Rclcpp} {topics : List Topic}
    {node final : ClientHandlerNode}
    (connects : node.onClientConnect rcl topics = .ok final) :
    ∀ t ∈ topics, t.id.toNat < topicsSize := by
  induction topics generalizing node with
  | nil => nofun
  | cons t topics induction =>
      unfold onClientConnect connectTopic at connects
      by_cases inside : t.id.toNat < topicsSize
      · by_cases created : creates rcl t = true
        · simp only [if_pos inside, if_pos created] at connects
          exact List.forall_mem_cons.mpr ⟨inside, induction connects⟩
        · simp only [if_pos inside, if_neg created] at connects
          cases connects
      · simp only [if_neg inside] at connects
        cases connects

/-- A write goes beyond the table exactly when a registration of an id that
has no entry is reached: rclcpp has thrown for none before it. -/
theorem connect_outOfBounds_iff {rcl : Rclcpp} (topics : List Topic)
    (node : ClientHandlerNode) :
    node.onClientConnect rcl topics = .error .topicIndexOutOfBounds ↔
      ∃ before t after, topics = before ++ t :: after ∧
        ¬t.id.toNat < topicsSize ∧
        ∀ earlier ∈ before, creates rcl earlier = true := by
  induction topics generalizing node with
  | nil =>
      constructor
      · intro impossible
        cases impossible
      · rintro ⟨before, t, after, split, _⟩
        exact absurd split.symm (by simp)
  | cons t topics induction =>
      unfold onClientConnect connectTopic
      by_cases inside : t.id.toNat < topicsSize
      · by_cases created : creates rcl t = true
        · simp only [if_pos inside, if_pos created]
          rw [induction]
          constructor
          · rintro ⟨before, other, after, rfl, outside, reached⟩
            exact ⟨t :: before, other, after, rfl, outside,
              List.forall_mem_cons.mpr ⟨created, reached⟩⟩
          · rintro ⟨before, other, after, split, outside, reached⟩
            cases before with
            | nil =>
                cases split
                exact absurd inside outside
            | cons first before =>
                cases split
                exact ⟨before, other, after, rfl, outside,
                  (List.forall_mem_cons.mp reached).2⟩
        · simp only [if_pos inside, if_neg created]
          constructor
          · intro impossible
            cases impossible
          · rintro ⟨before, other, after, split, outside, reached⟩
            cases before with
            | nil =>
                cases split
                exact absurd inside outside
            | cons first before =>
                cases split
                exact absurd (List.forall_mem_cons.mp reached).1 created
      · simp only [if_neg inside, true_iff]
        exact ⟨[], t, topics, rfl, inside, List.forall_mem_nil _⟩

theorem outside_iff (id : UInt8) : ¬id.toNat < topicsSize ↔ id = 255 := by
  have bound := id.toNat_lt
  rw [← UInt8.toNat_inj, show (255 : UInt8).toNat = 255 from rfl]
  simp only [topicsSize]
  omega

/-- For every list of registrations: the writes are inside the table and the
table shows the registrations if and only if none with id 255 is reached. -/
theorem table_reflects_iff (rcl : Rclcpp) (topics : List Topic) :
    (initial.onClientConnect rcl topics ≠ .error .topicIndexOutOfBounds ∧
      ∀ node, initial.onClientConnect rcl topics = .ok node →
        Reflects topics node) ↔
      ∀ before t after, topics = before ++ t :: after → t.id = 255 →
        ∃ earlier ∈ before, creates rcl earlier = false := by
  have reflects : ∀ node, initial.onClientConnect rcl topics = .ok node →
      Reflects topics node := by
    intro node connects
    have holds := tableHolds_initial.onClientConnect topics connects
    rw [List.nil_append] at holds
    exact holds.reflects (inside_of_connects connects)
  rw [and_iff_left reflects, ne_eq, connect_outOfBounds_iff]
  constructor
  · intro unreached before t after split last
    by_contra reached
    refine unreached ⟨before, t, after, split, (outside_iff t.id).mpr last, ?_⟩
    intro earlier member
    by_contra thrown
    exact reached ⟨earlier, member, by simpa using thrown⟩
  · rintro thrown ⟨before, t, after, split, outside, reached⟩
    obtain ⟨earlier, member, throws⟩ :=
      thrown before t after split ((outside_iff t.id).mp outside)
    rw [reached earlier member] at throws
    cases throws

/-- A publisher with the last id of the publisher range. -/
def lastPublisher : Topic :=
  { Topic.default with
    id := 255
    topicName := [0x2F, 0x74]
    msgType := [0x73, 0x2F, 0x54] }

theorem not_table_reflects :
    ¬(initial.onClientConnect Rclcpp.willing [lastPublisher] ≠
        .error .topicIndexOutOfBounds ∧
      ∀ node,
        initial.onClientConnect Rclcpp.willing [lastPublisher] = .ok node →
          Reflects [lastPublisher] node) := by
  rintro ⟨inside, _⟩
  exact inside rfl

end ClientHandlerNode

end NanoRos
