import NanoRos.Codegen.TopicIds

/-!
# The macros of topic ids

An id reaches the compiled code by the name of a macro, which is formed from
the topic's name alone.  `upper` is the Unicode table behind `to_uppercase`.
-/

namespace NanoRos.Codegen

variable (upper : Char → List Char)

/-- `str::to_uppercase`. -/
def toUppercase (name : Name) : Name := name.flatMap upper

/-- `{}_ID`, with `topic.name.to_uppercase()` filled in. -/
def idMacro (topic : Topic) : Name :=
  toUppercase upper topic.name ++ "_ID".toList

/-- The `#define` lines of `generate_topic_ids`. -/
def idDefinitions (topics : List Topic) (ids : List UInt8) :
    List (Name × UInt8) :=
  List.zipWith (fun topic id => (idMacro upper topic, id)) topics ids

/-- What a macro stands for after some definitions: a later one replaces an
earlier one of the same name. -/
def expandMacro (definitions : List (Name × UInt8)) (name : Name) :
    Option UInt8 :=
  (definitions.reverse.find? (·.1 = name)).map Prod.snd

/-- The `.topic_id` of each entry `generate_topic_array` writes. -/
def compiledTopicIds (topics : List Topic) (ids : List UInt8) :
    List (Option UInt8) :=
  topics.map fun topic =>
    expandMacro (idDefinitions upper topics ids) (idMacro upper topic)

/-- The id `nros_publish_<name>` hands to `nros_publish`. -/
def publishedTopicId (topics : List Topic) (ids : List UInt8)
    (topic : Topic) : Option UInt8 :=
  expandMacro (idDefinitions upper topics ids) (idMacro upper topic)

/-- Each topic is compiled to the id that was allocated to it. -/
structure CompilesToOwnIds (topics : List Topic) (ids : List UInt8) :
    Prop where
  entries : compiledTopicIds upper topics ids = ids.map some
  distinct : (compiledTopicIds upper topics ids).Nodup
  published : ∀ pair ∈ topics.zip ids, pair.1.topicType = .publisher →
    publishedTopicId upper topics ids pair.1 = some pair.2

/-- Topics that differ in name or in direction. -/
def Different (topic other : Topic) : Prop :=
  topic.name ≠ other.name ∨ topic.topicType ≠ other.topicType

theorem idDefinitions_eq (topics : List Topic) (ids : List UInt8) :
    idDefinitions upper topics ids =
      (topics.zip ids).map fun pair => (idMacro upper pair.1, pair.2) := by
  rw [idDefinitions, List.zip, List.map_zipWith]

/-- A macro that is defined once stands for that value. -/
theorem expandMacro_of_nodup {definitions : List (Name × UInt8)}
    (distinct : (definitions.map Prod.fst).Nodup) {name : Name} {id : UInt8}
    (member : (name, id) ∈ definitions) :
    expandMacro definitions name = some id := by
  rw [expandMacro]
  cases found : definitions.reverse.find? (·.1 = name) with
  | none =>
      have missed := List.find?_eq_none.mp found (name, id)
        (List.mem_reverse.mpr member)
      simp at missed
  | some other =>
      have same : other.1 = name := by
        simpa using List.find?_some found
      have otherMember : other ∈ definitions :=
        List.mem_reverse.mp (List.mem_of_find?_eq_some found)
      rw [List.inj_on_of_nodup_map distinct otherMember member same]
      rfl

variable {upper}

/-- Macros with names of their own carry the ids to their topics. -/
theorem expandMacro_own {topics : List Topic} {ids : List UInt8}
    (oneEach : ids.length = topics.length)
    (distinct : (topics.map (idMacro upper)).Nodup) {pair : Topic × UInt8}
    (member : pair ∈ topics.zip ids) :
    expandMacro (idDefinitions upper topics ids) (idMacro upper pair.1) =
      some pair.2 := by
  have keys : (idDefinitions upper topics ids).map Prod.fst =
      topics.map (idMacro upper) := by
    have topicsEq : (topics.zip ids).map Prod.fst = topics :=
      List.map_fst_zip (Nat.le_of_eq oneEach.symm)
    rw [idDefinitions_eq, List.map_map]
    conv_rhs => rw [← topicsEq]
    rw [List.map_map]
    rfl
  apply expandMacro_of_nodup
  · rw [keys]
    exact distinct
  · rw [idDefinitions_eq]
    exact List.mem_map_of_mem member

theorem nodup_idMacro_iff {topics : List Topic} :
    (topics.map (idMacro upper)).Nodup ↔
      (topics.map fun topic => toUppercase upper topic.name).Nodup := by
  have suffix : topics.map (idMacro upper) =
      (topics.map fun topic => toUppercase upper topic.name).map
        (· ++ "_ID".toList) := by
    rw [List.map_map]
    rfl
  rw [suffix]
  apply List.nodup_map_iff
  intro left right same
  exact List.append_cancel_right same

/-- Every topic is compiled to its own id exactly when the names are distinct
in upper case. -/
theorem compiles_to_own_ids_iff (upper : Char → List Char)
    (topics : List Topic) (ids : List UInt8)
    (accepted : generateTopicIds topics = .ok ids) :
    CompilesToOwnIds upper topics ids ↔
      (topics.map fun topic => toUppercase upper topic.name).Nodup := by
  have assigns := assignTopicIds_eq_ok_iff.mp accepted
  have oneEach := assigns.length
  have idsDistinct : (ids.map some).Nodup :=
    (List.nodup_map_iff fun _ _ same => Option.some.inj same).mpr
      (assigns.nodup (by decide))
  rw [← nodup_idMacro_iff]
  constructor
  · intro own
    -- distinct values come from distinct macros
    have values : ((topics.map (idMacro upper)).map
        (expandMacro (idDefinitions upper topics ids))).Nodup := by
      rw [List.map_map]
      exact own.distinct
    exact values.of_map _
  · intro distinct
    have entries : compiledTopicIds upper topics ids = ids.map some := by
      have topicsEq : (topics.zip ids).map Prod.fst = topics :=
        List.map_fst_zip (Nat.le_of_eq oneEach.symm)
      have idsEq : (topics.zip ids).map Prod.snd = ids :=
        List.map_snd_zip (Nat.le_of_eq oneEach)
      have pairs : (topics.zip ids).map (fun pair =>
          expandMacro (idDefinitions upper topics ids)
            (idMacro upper pair.1)) =
          (topics.zip ids).map (fun pair => some pair.2) := by
        apply List.map_congr_left
        intro pair member
        exact expandMacro_own oneEach distinct member
      calc
        compiledTopicIds upper topics ids =
            ((topics.zip ids).map Prod.fst).map (fun topic =>
              expandMacro (idDefinitions upper topics ids)
                (idMacro upper topic)) := by
          rw [topicsEq, compiledTopicIds]
        _ = (topics.zip ids).map (fun pair => some pair.2) := by
          rw [List.map_map]
          exact pairs
        _ = ids.map some := by
          conv_rhs => rw [← idsEq]
          rw [List.map_map]
          rfl
    refine ⟨entries, ?_, ?_⟩
    · rw [entries]
      exact idsDistinct
    · intro pair member _
      exact expandMacro_own oneEach distinct member

/-- Upper case of ASCII names. -/
def asciiUpper (char : Char) : List Char := [char.toUpper]

/-- One name, published and subscribed to. -/
def echoTopics : List Topic :=
  [{ name := "imu".toList
     topicType := .publisher
     msgType := "sensor_msgs/msg/Imu".toList
     qos := .default
     fields := [] },
    { name := "imu".toList
      topicType := .subscriber
      msgType := "sensor_msgs/msg/Imu".toList
      qos := .default
      fields := [] }]

theorem echoTopics_accepted : generateTopicIds echoTopics = .ok [127, 0] := by
  decide

theorem compiles_to_own_ids_iff_echoTopics :
    CompilesToOwnIds asciiUpper echoTopics [127, 0] ↔
      (echoTopics.map fun topic =>
        toUppercase asciiUpper topic.name).Nodup :=
  compiles_to_own_ids_iff asciiUpper echoTopics [127, 0] echoTopics_accepted

/-- Both entries have the id of the subscriber. -/
theorem not_compiles_to_own_ids :
    echoTopics.Pairwise Different ∧
      generateTopicIds echoTopics = .ok [127, 0] ∧
        compiledTopicIds asciiUpper echoTopics [127, 0] =
            [some 0, some 0] ∧
          ¬CompilesToOwnIds asciiUpper echoTopics [127, 0] := by
  refine ⟨?_, echoTopics_accepted, by decide, ?_⟩
  · simp [echoTopics, Different]
  · intro own
    exact absurd own.entries (by decide)

end NanoRos.Codegen
