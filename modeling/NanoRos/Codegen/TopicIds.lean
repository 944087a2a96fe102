import Mathlib.Data.List.Nodup
import NanoRos.Board
import NanoRos.ClientHandler
import NanoRos.Codegen.MsgField

/-!
# Topic ids

`generate_topic_ids` numbers subscribers from 0 and publishers from 127 with
`u8` counters; the table it fills is read by `nros_init` with a `uint8_t`
counter and by the agent through `topics_[UINT8_MAX]`.
-/

namespace NanoRos.Codegen

/-! ## The generator -/

/-- The error texts of `generate_topic_ids`. -/
def publisherIdError (name : Name) : Name :=
  "publisher ".toList ++ name ++ " id out of range".toList

def subscriberIdError (name : Name) : Name :=
  "subscriber ".toList ++ name ++ " id out of range".toList

/-- The loop of `generate_topic_ids`, with its two counters. -/
def assignTopicIds (subId pubId : UInt8) :
    List Topic → Except Name (List UInt8)
  | [] => .ok []
  | topic :: topics =>
      match topic.topicType with
      | .publisher =>
          if pubId ≥ 255 then
            .error (publisherIdError topic.name)
          else
            match assignTopicIds subId (pubId + 1) topics with
            | .ok ids => .ok (pubId :: ids)
            | .error message => .error message
      | .subscriber =>
          if subId ≥ 127 then
            .error (subscriberIdError topic.name)
          else
            match assignTopicIds (subId + 1) pubId topics with
            | .ok ids => .ok (subId :: ids)
            | .error message => .error message

/-- `generate_topic_ids`: the value of each topic's `_ID` macro. -/
def generateTopicIds (topics : List Topic) : Except Name (List UInt8) :=
  assignTopicIds 0 127 topics

/-- The bytes of a name in a C string literal. -/
def utf8 (name : Name) : List UInt8 := name.flatMap String.utf8EncodeChar

/-- One entry of `generate_topic_array`; `handler` is where the linker put the
topic's `nros_<name>_subscriber_handler`. -/
def topicEntry (handler : Topic → CodePointer) (topic : Topic) (id : UInt8) :
    NrosTopic :=
  { qos := topic.qos.toByte
    topicId := id
    topicName := utf8 topic.name
    topicType := utf8 topic.msgType
    cb :=
      match topic.topicType with
      | .publisher => none
      | .subscriber => some (handler topic) }

/-- `nros_topics`, each entry with the id given to it. -/
def generateTopicArray (handler : Topic → CodePointer) (topics : List Topic)
    (ids : List UInt8) : List NrosTopic :=
  List.zipWith (topicEntry handler) topics ids

/-- `nros_topic_count`, an `uint8_t`. -/
def nrosTopicCount (topics : List Topic) : UInt8 := UInt8.ofNat topics.length

/-! ## The loop of `nros_init` -/

/-- `for (uint8_t i = 0; i < nros_topic_count; i++)`; `none` when the fuel
runs out or `nros_topics` is read out of range. -/
def initLoop (entries : List NrosTopic) (count : UInt8) :
    Nat → UInt8 → Buffer (Option NrosTopic) 256 →
      Option (Buffer (Option NrosTopic) 256)
  | 0, _, _ => none
  | fuel + 1, i, map =>
      if i < count then
        match entries[i.toNat]? with
        | none => none
        | some topic =>
            initLoop entries count fuel (i + 1)
              (map.store topic.topicId.toNat (some topic))
      else
        some map

/-! ## The ids -/

def publishers (topics : List Topic) : Nat :=
  topics.countP (·.topicType = .publisher)

def subscribers (topics : List Topic) : Nat :=
  topics.countP (·.topicType = .subscriber)

theorem length_eq_publishers_add_subscribers (topics : List Topic) :
    topics.length = publishers topics + subscribers topics := by
  induction topics with
  | nil => rfl
  | cons topic topics induction =>
      simp only [publishers, subscribers, List.countP_cons,
        List.length_cons] at *
      cases topic.topicType <;> simp <;> omega

theorem toNat_add_one {counter : UInt8} (below : counter < 255) :
    (counter + 1).toNat = counter.toNat + 1 := by
  have bound : counter.toNat < 255 := below
  rw [UInt8.toNat_add]
  exact Nat.mod_eq_of_lt (by simp; omega)

/-- The ids given to topics from two counters on. -/
inductive Assigns : UInt8 → UInt8 → List Topic → List UInt8 → Prop
  | nil (subId pubId : UInt8) : Assigns subId pubId [] []
  | publisher {subId pubId : UInt8} {topic : Topic} {topics : List Topic}
      {ids : List UInt8} (kind : topic.topicType = .publisher)
      (below : pubId < 255) (rest : Assigns subId (pubId + 1) topics ids) :
      Assigns subId pubId (topic :: topics) (pubId :: ids)
  | subscriber {subId pubId : UInt8} {topic : Topic} {topics : List Topic}
      {ids : List UInt8} (kind : topic.topicType = .subscriber)
      (below : subId < 127) (rest : Assigns (subId + 1) pubId topics ids) :
      Assigns subId pubId (topic :: topics) (subId :: ids)

theorem assigns_publisher_iff {subId pubId : UInt8} {topic : Topic}
    {topics : List Topic} {ids : List UInt8}
    (kind : topic.topicType = .publisher) :
    Assigns subId pubId (topic :: topics) ids ↔
      pubId < 255 ∧ ∃ others, ids = pubId :: others ∧
        Assigns subId (pubId + 1) topics others := by
  constructor
  · intro assigns
    cases assigns with
    | publisher _ below rest => exact ⟨below, _, rfl, rest⟩
    | subscriber other => rw [kind] at other; cases other
  · rintro ⟨below, others, rfl, rest⟩
    exact .publisher kind below rest

theorem assigns_subscriber_iff {subId pubId : UInt8} {topic : Topic}
    {topics : List Topic} {ids : List UInt8}
    (kind : topic.topicType = .subscriber) :
    Assigns subId pubId (topic :: topics) ids ↔
      subId < 127 ∧ ∃ others, ids = subId :: others ∧
        Assigns (subId + 1) pubId topics others := by
  constructor
  · intro assigns
    cases assigns with
    | publisher other => rw [kind] at other; cases other
    | subscriber _ below rest => exact ⟨below, _, rfl, rest⟩
  · rintro ⟨below, others, rfl, rest⟩
    exact .subscriber kind below rest

/-- A topic's id in front of the ids of the later topics. -/
theorem cons_eq_ok_iff {rest : Except Name (List UInt8)} {id : UInt8}
    {ids : List UInt8} :
    (match rest with
      | .ok others => Except.ok (id :: others)
      | .error message => .error message) = (.ok ids : Except Name _) ↔
      ∃ others, ids = id :: others ∧ rest = .ok others := by
  cases rest with
  | error message => simp
  | ok others => simp [eq_comm]

theorem assignTopicIds_eq_ok_iff {subId pubId : UInt8} {topics : List Topic}
    {ids : List UInt8} :
    assignTopicIds subId pubId topics = .ok ids ↔
      Assigns subId pubId topics ids := by
  induction topics generalizing subId pubId ids with
  | nil =>
      constructor
      · rintro ⟨⟩
        exact .nil subId pubId
      · rintro ⟨⟩
        rfl
  | cons topic topics induction =>
      cases kind : topic.topicType with
      | publisher =>
          rw [assigns_publisher_iff kind]
          simp only [assignTopicIds, kind]
          by_cases full : pubId ≥ 255
          · simp [full, UInt8.not_lt.mpr full]
          · rw [if_neg full, cons_eq_ok_iff]
            simp only [induction, UInt8.not_le.mp full, true_and]
      | subscriber =>
          rw [assigns_subscriber_iff kind]
          simp only [assignTopicIds, kind]
          by_cases full : subId ≥ 127
          · simp [full, UInt8.not_lt.mpr full]
          · rw [if_neg full, cons_eq_ok_iff]
            simp only [induction, UInt8.not_le.mp full, true_and]

@[simp] theorem publishers_cons (topic : Topic) (topics : List Topic) :
    publishers (topic :: topics) =
      publishers topics + if topic.topicType = .publisher then 1 else 0 := by
  simp [publishers, List.countP_cons]

@[simp] theorem subscribers_cons (topic : Topic) (topics : List Topic) :
    subscribers (topic :: topics) =
      subscribers topics + if topic.topicType = .subscriber then 1 else 0 := by
  simp [subscribers, List.countP_cons]

theorem Assigns.counts {subId pubId : UInt8} {topics : List Topic}
    {ids : List UInt8} (assigns : Assigns subId pubId topics ids)
    (subLe : subId.toNat ≤ 127) :
    pubId.toNat + publishers topics ≤ 255 ∧
      subId.toNat + subscribers topics ≤ 127 := by
  induction assigns with
  | nil subId pubId =>
      have pubLe := pubId.toNat_lt
      simp only [publishers, subscribers, List.countP_nil]
      omega
  | publisher kind below _ induction =>
      have counted := induction subLe
      rw [toNat_add_one below] at counted
      simp only [publishers_cons, subscribers_cons, kind, if_true,
        reduceCtorEq, if_false]
      omega
  | subscriber kind below _ induction =>
      have bound : _ < 127 := UInt8.lt_iff_toNat_lt.mp below
      have wide := UInt8.lt_trans below (by decide : (127 : UInt8) < 255)
      have counted := induction (by rw [toNat_add_one wide]; exact bound)
      rw [toNat_add_one wide] at counted
      simp only [publishers_cons, subscribers_cons, kind, if_true,
        reduceCtorEq, if_false]
      omega

/-- Counters that are not used up give out ids for all topics. -/
theorem exists_assigns {subId pubId : UInt8} {topics : List Topic}
    (pubFits : pubId.toNat + publishers topics ≤ 255)
    (subFits : subId.toNat + subscribers topics ≤ 127) :
    ∃ ids, Assigns subId pubId topics ids := by
  induction topics generalizing subId pubId with
  | nil => exact ⟨[], .nil subId pubId⟩
  | cons topic topics induction =>
      cases kind : topic.topicType with
      | publisher =>
          simp only [publishers_cons, subscribers_cons, kind, if_true,
            reduceCtorEq, if_false] at pubFits subFits
          have below : pubId < 255 := UInt8.lt_iff_toNat_lt.mpr (by
            show pubId.toNat < 255
            omega)
          have nextFits : (pubId + 1).toNat + publishers topics ≤ 255 := by
            rw [toNat_add_one below]
            omega
          obtain ⟨ids, rest⟩ := induction nextFits subFits
          exact ⟨pubId :: ids, .publisher kind below rest⟩
      | subscriber =>
          simp only [publishers_cons, subscribers_cons, kind, if_true,
            reduceCtorEq, if_false] at pubFits subFits
          have below : subId < 127 := UInt8.lt_iff_toNat_lt.mpr (by
            show subId.toNat < 127
            omega)
          have wide := UInt8.lt_trans below (by decide : (127 : UInt8) < 255)
          have nextFits : (subId + 1).toNat + subscribers topics ≤ 127 := by
            rw [toNat_add_one wide]
            omega
          obtain ⟨ids, rest⟩ := induction pubFits nextFits
          exact ⟨subId :: ids, .subscriber kind below rest⟩

/-- The ids of each kind stay in their own range. -/
def InRange (subId pubId : UInt8) (topic : Topic) (id : UInt8) : Prop :=
  match topic.topicType with
  | .publisher => pubId.toNat ≤ id.toNat ∧ id.toNat < 255
  | .subscriber => subId.toNat ≤ id.toNat ∧ id.toNat < 127

theorem Assigns.length {subId pubId : UInt8} {topics : List Topic}
    {ids : List UInt8} (assigns : Assigns subId pubId topics ids) :
    ids.length = topics.length := by
  induction assigns with
  | nil => rfl
  | publisher _ _ _ induction => simp [induction]
  | subscriber _ _ _ induction => simp [induction]

theorem Assigns.inRange {subId pubId : UInt8} {topics : List Topic}
    {ids : List UInt8} (assigns : Assigns subId pubId topics ids) :
    ∀ pair ∈ topics.zip ids, InRange subId pubId pair.1 pair.2 := by
  induction assigns with
  | nil => simp
  | @publisher subId pubId topic topics ids kind below rest induction =>
      rintro pair member
      rcases List.mem_cons.mp member with rfl | later
      · simp only [InRange, kind]
        exact ⟨Nat.le_refl _, UInt8.lt_iff_toNat_lt.mp below⟩
      · have range := induction pair later
        rw [InRange, toNat_add_one below] at range
        rw [InRange]
        cases other : pair.1.topicType with
        | publisher =>
            simp only [other] at range ⊢
            omega
        | subscriber => simpa only [other] using range
  | @subscriber subId pubId topic topics ids kind below rest induction =>
      have wide := UInt8.lt_trans below (by decide : (127 : UInt8) < 255)
      rintro pair member
      rcases List.mem_cons.mp member with rfl | later
      · simp only [InRange, kind]
        exact ⟨Nat.le_refl _, UInt8.lt_iff_toNat_lt.mp below⟩
      · have range := induction pair later
        rw [InRange, toNat_add_one wide] at range
        rw [InRange]
        cases other : pair.1.topicType with
        | publisher => simpa only [other] using range
        | subscriber =>
            simp only [other] at range ⊢
            omega

/-- Every id was given to some topic. -/
theorem Assigns.exists_topic {subId pubId : UInt8} {topics : List Topic}
    {ids : List UInt8} (assigns : Assigns subId pubId topics ids)
    {id : UInt8} (member : id ∈ ids) :
    ∃ topic, (topic, id) ∈ topics.zip ids := by
  have snds : (topics.zip ids).map Prod.snd = ids :=
    List.map_snd_zip (Nat.le_of_eq assigns.length)
  rw [← snds] at member
  obtain ⟨⟨topic, _⟩, inZip, rfl⟩ := List.mem_map.mp member
  exact ⟨topic, inZip⟩

theorem Assigns.nodup {subId pubId : UInt8} {topics : List Topic}
    {ids : List UInt8} (assigns : Assigns subId pubId topics ids)
    (pubGe : 127 ≤ pubId.toNat) : ids.Nodup := by
  induction assigns with
  | nil => exact List.nodup_nil
  | publisher _ below rest induction =>
      have next := toNat_add_one below
      refine List.nodup_cons.mpr ⟨fun again => ?_, induction (by omega)⟩
      obtain ⟨topic, member⟩ := rest.exists_topic again
      have range := rest.inRange _ member
      simp only [InRange] at range
      split at range <;> omega
  | subscriber _ below rest induction =>
      have wide := UInt8.lt_trans below (by decide : (127 : UInt8) < 255)
      have next := toNat_add_one wide
      have small := UInt8.lt_iff_toNat_lt.mp below
      refine List.nodup_cons.mpr ⟨fun again => ?_, induction pubGe⟩
      obtain ⟨topic, member⟩ := rest.exists_topic again
      have range := rest.inRange _ member
      simp only [InRange] at range
      have bound : (127 : UInt8).toNat = 127 := rfl
      split at range <;> omega

/-! ## The table in `topic_map` -/

/-- What `nros_init` makes of its map. -/
def installTopics (entries : List NrosTopic)
    (map : Buffer (Option NrosTopic) 256) : Buffer (Option NrosTopic) 256 :=
  entries.foldl
    (fun map topic => map.store topic.topicId.toNat (some topic)) map

/-- The loop of `nros_init` terminates after one round for each entry. -/
theorem initLoop_eq {entries : List NrosTopic}
    (fits : entries.length ≤ 255) {fuel : Nat} {i : UInt8}
    (inside : i.toNat ≤ entries.length)
    (enough : entries.length < fuel + i.toNat)
    (map : Buffer (Option NrosTopic) 256) :
    initLoop entries (UInt8.ofNat entries.length) fuel i map =
      some (installTopics (entries.drop i.toNat) map) := by
  have count : (UInt8.ofNat entries.length).toNat = entries.length :=
    UInt8.toNat_ofNat_of_lt' (by simp [UInt8.size]; omega)
  induction fuel generalizing i map with
  | zero => omega
  | succ fuel induction =>
      by_cases more : i.toNat < entries.length
      · have next : (i + 1).toNat = i.toNat + 1 :=
          toNat_add_one (UInt8.lt_iff_toNat_lt.mpr (by
            show i.toNat < 255
            omega))
        have goesOn : i < UInt8.ofNat entries.length :=
          UInt8.lt_iff_toNat_lt.mpr (by rw [count]; exact more)
        rw [initLoop, if_pos goesOn, List.getElem?_eq_getElem more]
        simp only
        rw [induction (by omega) (by omega), next,
          List.drop_eq_getElem_cons more]
        rfl
      · have stops : ¬i < UInt8.ofNat entries.length := fun below =>
          more (by rwa [UInt8.lt_iff_toNat_lt, count] at below)
        rw [initLoop, if_neg stops, List.drop_of_length_le (by omega)]
        rfl

/-- The map points each id at the last entry that carries it. -/
theorem load?_installTopics (entries : List NrosTopic)
    (map : Buffer (Option NrosTopic) 256) (id : UInt8) :
    (installTopics entries map).load? id.toNat =
      match entries.reverse.find? (·.topicId = id) with
      | some topic => some (some topic)
      | none => map.load? id.toNat := by
  induction entries using List.reverseRecOn with
  | nil => rfl
  | append_singleton entries topic induction =>
      have inside : topic.topicId.toNat < 256 := topic.topicId.toNat_lt
      have last : installTopics (entries ++ [topic]) map =
          (installTopics entries map).store topic.topicId.toNat
            (some topic) := by
        simp [installTopics]
      rw [last, List.reverse_append, List.reverse_singleton,
        List.singleton_append]
      by_cases same : topic.topicId = id
      · rw [← same, Buffer.load?_store_self _ inside, List.find?_cons_of_pos]
        simp
      · have different : topic.topicId.toNat ≠ id.toNat := fun equal =>
          same (UInt8.toNat_inj.mp equal)
        rw [Buffer.load?_store_ne _ different, induction,
          List.find?_cons_of_neg]
        simpa using same

/-- Entries with distinct ids are all found under their ids. -/
theorem load?_installTopics_of_nodup {entries : List NrosTopic}
    (distinct : (entries.map NrosTopic.topicId).Nodup)
    (map : Buffer (Option NrosTopic) 256) {topic : NrosTopic}
    (member : topic ∈ entries) :
    (installTopics entries map).load? topic.topicId.toNat =
      some (some topic) := by
  rw [load?_installTopics]
  cases found : entries.reverse.find? (·.topicId = topic.topicId) with
  | none =>
      have missed := List.find?_eq_none.mp found topic (by simpa using member)
      simp at missed
  | some other =>
      have same : other.topicId = topic.topicId := by
        simpa using List.find?_some found
      have otherMember : other ∈ entries := by
        simpa using List.mem_of_find?_eq_some found
      simp only
      rw [List.inj_on_of_nodup_map distinct otherMember member same]

theorem generateTopicArray_eq (handler : Topic → CodePointer)
    (topics : List Topic) (ids : List UInt8) :
    generateTopicArray handler topics ids =
      (topics.zip ids).map fun pair => topicEntry handler pair.1 pair.2 := by
  rw [generateTopicArray, List.zip, List.map_zipWith]

/-- The generator, the agent and `nros_init` agree on the ids given out. -/
structure IdsAgree (handler : Topic → CodePointer) (topics : List Topic)
    (ids : List UInt8) : Prop where
  oneEach : ids.length = topics.length
  distinct : ids.Nodup
  indexed : ∀ id ∈ ids, id.toNat < topicsSize
  classified : ∀ topic id, (topic, id) ∈ topics.zip ids →
    (ClientHandlerNode.isPublisherId id = true ↔
      topic.topicType = .publisher)
  counted : (nrosTopicCount topics).toNat = topics.length
  installed : ∀ map, ∃ final,
    (∀ fuel, topics.length < fuel →
      initLoop (generateTopicArray handler topics ids) (nrosTopicCount topics)
        fuel 0 map = some final) ∧
      ∀ topic id, (topic, id) ∈ topics.zip ids →
        final.load? id.toNat = some (some (topicEntry handler topic id))

theorem Assigns.isPublisherId_iff {topics : List Topic} {ids : List UInt8}
    (assigns : Assigns 0 127 topics ids) {topic : Topic} {id : UInt8}
    (inZip : (topic, id) ∈ topics.zip ids) :
    ClientHandlerNode.isPublisherId id = true ↔
      topic.topicType = .publisher := by
  have range := assigns.inRange _ inZip
  have start : publisherTopicIdStart.toNat = 127 := rfl
  rw [ClientHandlerNode.isPublisherId, decide_eq_true_iff, ge_iff_le,
    UInt8.le_iff_toNat_le, start]
  simp only [InRange] at range
  cases kind : topic.topicType with
  | publisher =>
      simp only [kind, UInt8.reduceToNat] at range
      simp only [iff_true]
      omega
  | subscriber =>
      simp only [kind, UInt8.reduceToNat] at range
      simp only [reduceCtorEq, iff_false]
      omega

theorem map_topicId_generateTopicArray (handler : Topic → CodePointer)
    {topics : List Topic} {ids : List UInt8}
    (oneEach : ids.length = topics.length) :
    (generateTopicArray handler topics ids).map NrosTopic.topicId = ids := by
  have keys : (topics.zip ids).map Prod.snd = ids :=
    List.map_snd_zip (Nat.le_of_eq oneEach)
  rw [generateTopicArray_eq, List.map_map]
  exact keys

theorem Assigns.idsAgree {topics : List Topic} {ids : List UInt8}
    (assigns : Assigns 0 127 topics ids) (handler : Topic → CodePointer) :
    IdsAgree handler topics ids := by
  have counts := assigns.counts (by decide)
  have total := length_eq_publishers_add_subscribers topics
  have fits : topics.length ≤ 255 := by
    simp only [UInt8.reduceToNat] at counts
    omega
  have size : (generateTopicArray handler topics ids).length =
      topics.length := by
    rw [generateTopicArray, List.length_zipWith, assigns.length,
      Nat.min_self]
  have distinct : ((generateTopicArray handler topics ids).map
      NrosTopic.topicId).Nodup := by
    rw [map_topicId_generateTopicArray handler assigns.length]
    exact assigns.nodup (by decide)
  refine ⟨assigns.length, assigns.nodup (by decide), ?_,
    fun topic id inZip => assigns.isPublisherId_iff inZip, ?_, ?_⟩
  · intro id member
    obtain ⟨topic, inZip⟩ := assigns.exists_topic member
    have range := assigns.inRange _ inZip
    simp only [InRange] at range
    simp only [topicsSize]
    split at range <;> omega
  · rw [nrosTopicCount]
    exact UInt8.toNat_ofNat_of_lt' (by simp [UInt8.size]; omega)
  · intro map
    refine ⟨installTopics (generateTopicArray handler topics ids) map,
      fun fuel enough => ?_, ?_⟩
    · rw [nrosTopicCount, ← size]
      exact initLoop_eq (by omega) (Nat.zero_le _) (by simpa [size]) map
    · intro topic id inZip
      have member : topicEntry handler topic id ∈
          generateTopicArray handler topics ids := by
        rw [generateTopicArray_eq]
        exact List.mem_map.mpr ⟨(topic, id), inZip, rfl⟩
      exact load?_installTopics_of_nodup distinct map member

/-- `generate_topic_ids` succeeds exactly on tables within both limits, and
then all three sides agree on the ids. -/
theorem topic_ids_agree (handler : Topic → CodePointer)
    (topics : List Topic) :
    ((∃ ids, generateTopicIds topics = .ok ids) ↔
      publishers topics ≤ 128 ∧ subscribers topics ≤ 127) ∧
    ∀ ids, generateTopicIds topics = .ok ids →
      IdsAgree handler topics ids := by
  constructor
  · constructor
    · rintro ⟨ids, assigned⟩
      have counts := (assignTopicIds_eq_ok_iff.mp assigned).counts (by decide)
      simp only [UInt8.reduceToNat] at counts
      omega
    · rintro ⟨pubs, subs⟩
      have pubFits : (127 : UInt8).toNat + publishers topics ≤ 255 := by
        simp only [UInt8.reduceToNat]
        omega
      have subFits : (0 : UInt8).toNat + subscribers topics ≤ 127 := by
        simp only [UInt8.reduceToNat]
        omega
      obtain ⟨ids, assigns⟩ := exists_assigns pubFits subFits
      exact ⟨ids, assignTopicIds_eq_ok_iff.mpr assigns⟩
  · intro ids assigned
    exact (assignTopicIds_eq_ok_iff.mp assigned).idsAgree handler

end NanoRos.Codegen
