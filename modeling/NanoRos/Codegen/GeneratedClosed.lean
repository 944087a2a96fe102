import NanoRos.Foundation.Entries
import NanoRos.Codegen.GeneratedWalk

/-!
# The generated C is closed

Every struct is declared once and before it is used, and every serializer or
deserializer that is called exists, for all messages but one named `t`: its
nested functions and its users get a prefix that belongs to no struct.
-/

namespace NanoRos.Codegen

open Emission

/-- The struct types a struct is made of. -/
def usedStructs (members : List StructMember) : List Name :=
  members.filterMap fun member =>
    match member.type with
    | .base _ => none
    | .struct name => some name

/-- The output can be compiled as far as structs and serializers go. -/
structure CoreCode.Closed (code : CoreCode) (topics : List Topic) : Prop where
  typedefOnce : ∀ node ∈ messageTypes topics, code.typedefs.count node.1 = 1
  noRedefinition : code.typedefs.Nodup
  inOrder : ∀ (index : Nat) (entry : Name × List StructMember),
    code.structs.out[index]? = some entry →
      ∀ used ∈ usedStructs entry.2, ∃ earlier < index,
        code.typedefs[earlier]? = some used
  functions : ∀ function ∈ code.called,
    code.definitions.count function = 1 ∧
      ∃ prototype, code.prototypes.filter (·.name = function) = [prototype] ∧
        prototype.structType ∈ code.typedefs

/-! ## The two walks -/

theorem generateCoreCode_eq (topics : List Topic) :
    generateCoreCode topics =
      { structs := topics.foldl (fun emission topic =>
          generateUserCStruct topic.fields
            (rosTypeToCStructName topic.msgType) emission) .empty
        serde := topics.foldl (fun emission topic =>
          generateSerdeFunctions topic.fields
            (rosTypeToCPrefix topic.msgType) emission) .empty
        users := topics.map generateUserFunction } := by
  have loop (code : CoreCode) : topics.foldl generateTopic code =
      { structs := topics.foldl (fun emission topic =>
          generateUserCStruct topic.fields
            (rosTypeToCStructName topic.msgType) emission) code.structs
        serde := topics.foldl (fun emission topic =>
          generateSerdeFunctions topic.fields
            (rosTypeToCPrefix topic.msgType) emission) code.serde
        users := code.users ++ topics.map generateUserFunction } := by
    induction topics generalizing code with
    | nil => simp
    | cons topic topics induction =>
        rw [List.foldl_cons, induction]
        simp [generateTopic]
  exact loop _

/-- The fields behind a C type name. -/
def fieldsOf (topics : List Topic) (name : Name) : List MsgField :=
  match (messageTypes topics).find? (·.1 = name) with
  | some node => node.2
  | none => []

theorem OneMessageSet.fieldsOf_eq {topics : List Topic}
    (oneSet : OneMessageSet topics) {node : Name × List MsgField}
    (member : node ∈ messageTypes topics) :
    fieldsOf topics node.1 = node.2 := by
  rw [fieldsOf]
  cases found : (messageTypes topics).find? (·.1 = node.1) with
  | none =>
      have none_ := List.find?_eq_none.mp found node member
      simp at none_
  | some other =>
      have same := List.find?_some found
      exact oneSet.agree other (List.mem_of_find?_eq_some found) node member
        (by simpa using same)

/-- An item of the walk belongs to a type of the topics. -/
def Belongs {ν : Type} (topics : List Topic) (structOf : Name → Name)
    (item : List MsgField → ν) (key : Name) (written : ν) : Prop :=
  ∃ fields, (structOf key, fields) ∈ messageTypes topics ∧
    written = item fields

theorem OneMessageSet.writesTypes {ν : Type} {topics : List Topic}
    (oneSet : OneMessageSet topics) {key structOf : Name → Name}
    {item : List MsgField → ν} {needed : ν → List Name}
    (back : ∀ node ∈ messageTypes topics, structOf (key node.1) = node.1)
    (needs : ∀ fields, needed (item fields) = (directTypes fields).map key) :
    WritesTypes key item needed (Belongs topics structOf item)
      (fun name => sizeOf (fieldsOf topics (structOf name)))
      (messageTypes topics) where
  isAllowed node member := by
    refine ⟨node.2, ?_, rfl⟩
    rw [back node member]
    exact member
  rankEq node member := by
    rw [back node member, oneSet.fieldsOf_eq member]
  neededEq node _ := needs node.2
  unique node member other belongs := by
    obtain ⟨fields, there, rfl⟩ := belongs
    rw [back node member] at there
    have same : fields = node.2 := oneSet.agree _ there node member rfl
    rw [same]

theorem usedStructs_map (fields : List MsgField) :
    usedStructs (fields.map structMember) = directTypes fields := by
  rw [usedStructs, directTypes, List.filterMap_map]
  apply List.filterMap_congr
  rintro ⟨name, fieldType⟩ _
  cases fieldType with
  | primitive prim => cases prim <;> rfl
  | _ => rfl

/-- The prefixes of the functions a body calls. -/
def calledPrefixes (body : List SerdeStatement) : List Name :=
  body.filterMap fun statement =>
    match statement with
    | .call typePrefix _ _ => some typePrefix
    | _ => none

theorem calledPrefixes_map (fields : List MsgField) :
    calledPrefixes (fields.map serdeStatement) =
      (directTypes fields).map trimEndMatchesT := by
  rw [calledPrefixes, directTypes, List.filterMap_map, List.map_filterMap]
  apply List.filterMap_congr
  rintro ⟨name, fieldType⟩ _
  cases fieldType with
  | primitive prim => cases prim <;> rfl
  | _ => rfl

/-- The output of a walk over all topics, whose roots are entered under a key
of their own. -/
theorem OneMessageSet.walk {ν : Type} {topics : List Topic}
    (oneSet : OneMessageSet topics) {key rootKey structOf : Name → Name}
    {item : List MsgField → ν} {needed : ν → List Name}
    (back : ∀ node ∈ messageTypes topics, structOf (key node.1) = node.1)
    (rootBack : ∀ topic ∈ topics,
      structOf (rootKey topic.msgType) = rosTypeToCStructName topic.msgType)
    (needs : ∀ fields, needed (item fields) = (directTypes fields).map key) :
    let final := topics.foldl (fun emission topic =>
      once (rootKey topic.msgType) (item topic.fields)
        (emitNested key item topic.fields) emission) .empty
    Ordered needed (Belongs topics structOf item) final ∧
      ∀ topic ∈ topics, rootKey topic.msgType ∈ final.keys ∧
        ∀ node ∈ nestedTypes topic.fields, key node.1 ∈ final.keys := by
  intro final
  have writes := oneSet.writesTypes back needs
  have belongs {topic : Topic} (member : topic ∈ topics) :
      Belongs topics structOf item (rootKey topic.msgType)
        (item topic.fields) := by
    refine ⟨topic.fields, ?_, rfl⟩
    rw [rootBack topic member]
    exact messageTypes_topic member
  have visits : ∀ topic ∈ topics,
      Visits needed (Belongs topics structOf item)
        (fun name => sizeOf (fieldsOf topics (structOf name)))
        (once (rootKey topic.msgType) (item topic.fields)
          (emitNested key item topic.fields))
        (sizeOf topic.fields + 1) [rootKey topic.msgType] := by
    intro topic member
    refine visits_type (belongs member) ?_ (needs topic.fields)
      (Nat.lt_succ_self _)
      (visits_fields writes topic.fields
        (messageTypes_nested (messageTypes_topic member)) (Nat.le_refl _))
    rw [rootBack topic member, oneSet.fieldsOf_eq (messageTypes_topic member)]
  obtain ⟨ordered, _, reaches⟩ := ordered_foldl _ _ _ visits
    (ordered_empty needed (Belongs topics structOf item))
    (fun _ pending => nomatch pending.1)
  refine ⟨ordered, fun topic member => ?_⟩
  have reached := reaches topic member _ List.mem_cons_self
  refine ⟨reached, ?_⟩
  apply nestedTypes_mem writes ordered topic.fields
    (messageTypes_nested (messageTypes_topic member))
  intro cType direct
  refine direct_mem ordered ?_ (needs topic.fields) reached direct
  rintro other ⟨fields, there, rfl⟩
  rw [rootBack topic member] at there
  have same : fields = topic.fields :=
    oneSet.agree _ there _ (messageTypes_topic member) rfl
  rw [same]

section Output

variable {topics : List Topic} (oneSet : OneMessageSet topics)

include oneSet

theorem structs_ordered :
    Ordered usedStructs (Belongs topics id (List.map structMember))
        (generateCoreCode topics).structs ∧
      ∀ node ∈ messageTypes topics,
        node.1 ∈ (generateCoreCode topics).typedefs := by
  rw [generateCoreCode_eq, CoreCode.typedefs]
  have walk := oneSet.walk (fun _ _ => rfl)
    (fun _ _ => (rfl : id (rosTypeToCStructName _) = _))
    (fun fields => (usedStructs_map fields).trans (List.map_id _).symm)
  refine ⟨walk.1, ?_⟩
  intro node member
  obtain ⟨topic, ofTopic, here⟩ := List.mem_flatMap.mp member
  rcases List.mem_cons.mp here with rfl | nested
  · exact (walk.2 topic ofTopic).1
  · exact (walk.2 topic ofTopic).2 node nested

theorem serde_ordered :
    Ordered calledPrefixes
        (Belongs topics structOfPrefix (List.map serdeStatement))
        (generateCoreCode topics).serde ∧
      ∀ topic ∈ topics,
        rosTypeToCPrefix topic.msgType ∈
            (generateCoreCode topics).serde.keys ∧
          ∀ node ∈ nestedTypes topic.fields,
            trimEndMatchesT node.1 ∈ (generateCoreCode topics).serde.keys := by
  rw [generateCoreCode_eq]
  refine oneSet.walk ?_ ?_ calledPrefixes_map
  · intro node member
    obtain ⟨path, isPath, name⟩ := oneSet.path member
    rw [name]
    exact structOfPrefix_trim isPath
  · intro topic member
    exact structOfPrefix_rosPath (oneSet.topicPath topic member)

end Output

/-! ## Names of functions -/

theorem serdeName_inj {kind kind' : SerdeKind} {left right : Name}
    (same : serdeName kind left = serdeName kind' right) :
    kind = kind' ∧ left = right := by
  cases kind with
  | serialize =>
      cases kind' with
      | serialize => exact ⟨rfl, List.append_cancel_right same⟩
      | deserialize =>
          have ends := congrArg (fun name => name.reverse.take 11) same
          simp [serdeName] at ends
  | deserialize =>
      cases kind' with
      | serialize =>
          have ends := congrArg (fun name => name.reverse.take 11) same
          simp [serdeName] at ends
      | deserialize => exact ⟨rfl, List.append_cancel_right same⟩

/-- One function of each kind for each prefix. -/
theorem serdeNames_nodup {prefixes : List Name} (nodup : prefixes.Nodup) :
    (prefixes.flatMap fun typePrefix =>
      [serdeName .serialize typePrefix,
        serdeName .deserialize typePrefix]).Nodup := by
  rw [List.nodup_flatMap]
  refine ⟨?_, ?_⟩
  · intro typePrefix _
    refine List.nodup_cons.mpr ⟨?_, List.nodup_singleton _⟩
    intro member
    exact nomatch (serdeName_inj (List.mem_singleton.mp member)).1
  · refine nodup.imp fun {left right} different => ?_
    intro name inLeft inRight
    have ofPrefix {typePrefix : Name}
        (member : name ∈ [serdeName .serialize typePrefix,
          serdeName .deserialize typePrefix]) :
        ∃ kind, name = serdeName kind typePrefix := by
      rcases List.mem_cons.mp member with same | other
      · exact ⟨_, same⟩
      · exact ⟨_, List.mem_singleton.mp other⟩
    obtain ⟨_, nameLeft⟩ := ofPrefix inLeft
    obtain ⟨_, nameRight⟩ := ofPrefix inRight
    exact different (serdeName_inj (nameLeft.symm.trans nameRight)).2

namespace CoreCode

variable {code : CoreCode}

theorem definitions_eq :
    code.definitions = code.serde.keys.flatMap fun typePrefix =>
      [serdeName .serialize typePrefix,
        serdeName .deserialize typePrefix] := by
  rw [definitions, keys, List.flatMap_map]

theorem map_name_prototypes :
    code.prototypes.map SerdePrototype.name = code.definitions := by
  rw [prototypes, definitions, List.map_flatMap]
  rfl

theorem mem_definitions_iff {name : Name} :
    name ∈ code.definitions ↔
      ∃ kind, ∃ typePrefix ∈ code.serde.keys,
        name = serdeName kind typePrefix := by
  rw [definitions_eq, List.mem_flatMap]
  constructor
  · rintro ⟨typePrefix, member, inPair⟩
    rcases List.mem_cons.mp inPair with same | other
    · exact ⟨_, typePrefix, member, same⟩
    · exact ⟨_, typePrefix, member, List.mem_singleton.mp other⟩
  · rintro ⟨kind, typePrefix, member, rfl⟩
    refine ⟨typePrefix, member, ?_⟩
    cases kind <;> simp

/-- A function with a prefix that was written exists once, as does its
prototype, which takes the struct of that prefix. -/
theorem function_of_prefix (nodup : code.serde.keys.Nodup)
    {typePrefix : Name} (written : typePrefix ∈ code.serde.keys)
    (kind : SerdeKind) :
    code.definitions.count (serdeName kind typePrefix) = 1 ∧
      code.prototypes.filter (·.name = serdeName kind typePrefix) =
        [serdePrototype kind typePrefix] := by
  have names : code.definitions.Nodup := by
    rw [definitions_eq]
    exact serdeNames_nodup nodup
  refine ⟨?_, ?_⟩
  · exact List.count_eq_one_of_mem names
      (mem_definitions_iff.mpr ⟨kind, typePrefix, written, rfl⟩)
  · have declared : serdePrototype kind typePrefix ∈ code.prototypes := by
      obtain ⟨entry, inOut, rfl⟩ := List.mem_map.mp written
      refine List.mem_flatMap.mpr ⟨entry, inOut, ?_⟩
      cases kind <;> simp
    rw [← map_name_prototypes] at names
    exact Entries.filter_label_of_mem names declared

/-- The prototype of a function tells the struct by its prefix. -/
theorem prototype_structType {kind : SerdeKind} {typePrefix : Name}
    {prototype : SerdePrototype}
    (found : code.prototypes.filter (·.name = serdeName kind typePrefix) =
      [prototype]) :
    prototype.structType = typePrefix ++ ['_', 't'] := by
  have member : prototype ∈
      code.prototypes.filter (·.name = serdeName kind typePrefix) := by
    rw [found]
    exact List.mem_cons_self
  obtain ⟨declared, name⟩ := List.mem_filter.mp member
  obtain ⟨entry, _, inPair⟩ := List.mem_flatMap.mp declared
  have ofEntry : ∃ kind, prototype = serdePrototype kind entry.1 := by
    rcases List.mem_cons.mp inPair with same | other
    · exact ⟨_, same⟩
    · exact ⟨_, List.mem_singleton.mp other⟩
  obtain ⟨other, rfl⟩ := ofEntry
  have same : (serdePrototype other entry.1).name =
      serdeName kind typePrefix := by
    simpa using name
  show entry.1 ++ ['_', 't'] = typePrefix ++ ['_', 't']
  rw [(serdeName_inj same).2]

/-- A call by a function of its own output. -/
theorem mem_called_of_entry {entry : Name × List SerdeStatement}
    (member : entry ∈ code.serde.out) {typePrefix : Name}
    (calls : typePrefix ∈ calledPrefixes entry.2) :
    serdeName .serialize typePrefix ∈ code.called := by
  refine List.mem_append_left _ (List.mem_flatMap.mpr ⟨entry, member, ?_⟩)
  refine List.mem_append_left _ ?_
  obtain ⟨statement, inBody, found⟩ := List.mem_filterMap.mp calls
  refine List.mem_filterMap.mpr ⟨statement, inBody, ?_⟩
  cases statement with
  | call other _ _ =>
      cases found
      rfl
  | _ => cases found

theorem mem_called_of_user {user : UserFunction} (member : user ∈ code.users) :
    user.serdeFn ∈ code.called :=
  List.mem_append_right _ (List.mem_map_of_mem member)

theorem mem_called {function : Name} (member : function ∈ code.called) :
    (∃ kind, ∃ entry ∈ code.serde.out, ∃ typePrefix ∈ calledPrefixes entry.2,
        function = serdeName kind typePrefix) ∨
      ∃ user ∈ code.users, function = user.serdeFn := by
  rcases List.mem_append.mp member with inBodies | ofUser
  · obtain ⟨entry, inOut, inBody⟩ := List.mem_flatMap.mp inBodies
    have called {kind : SerdeKind} (inCalls : function ∈ calls kind entry.2) :
        ∃ typePrefix ∈ calledPrefixes entry.2,
          function = serdeName kind typePrefix := by
      obtain ⟨statement, there, found⟩ := List.mem_filterMap.mp inCalls
      cases statement with
      | call typePrefix field count =>
          exact ⟨typePrefix, List.mem_filterMap.mpr ⟨_, there, rfl⟩,
            (Option.some.inj found).symm⟩
      | _ => cases found
    rcases List.mem_append.mp inBody with first | second
    · exact .inl ⟨_, entry, inOut, called first⟩
    · exact .inl ⟨_, entry, inOut, called second⟩
  · obtain ⟨user, there, same⟩ := List.mem_map.mp ofUser
    exact .inr ⟨user, there, same.symm⟩

end CoreCode

/-! ## Calls -/

theorem generateUserFunction_serdeFn (topic : Topic) :
    ∃ kind, (generateUserFunction topic).serdeFn =
      serdeName kind
        (trimEndMatchesT (rosTypeToCStructName topic.msgType)) := by
  rw [generateUserFunction]
  cases topic.topicType with
  | publisher => exact ⟨.serialize, rfl⟩
  | subscriber => exact ⟨.deserialize, rfl⟩

section Calls

variable {topics : List Topic} (oneSet : OneMessageSet topics)

include oneSet

/-- The functions of a written prefix have the statements of its fields. -/
theorem serde_entry {root : Name} {node : Name × List MsgField}
    (written : root ∈ (generateCoreCode topics).serde.keys)
    (struct : structOfPrefix root = node.1)
    (known : node ∈ messageTypes topics) :
    (root, node.2.map serdeStatement) ∈
      (generateCoreCode topics).serde.out := by
  obtain ⟨index, other, found⟩ := mem_keys_iff.mp written
  have inOut := List.mem_of_getElem? found
  obtain ⟨fields, there, same⟩ :=
    (serde_ordered oneSet).1.allowed _ inOut
  have fieldsEq : fields = node.2 :=
    oneSet.agree _ there node known struct
  rw [← fieldsEq, ← show other = fields.map serdeStatement from same]
  exact inOut

/-- Every type is called for, by the functions around it or by a topic. -/
theorem type_called {node : Name × List MsgField}
    (known : node ∈ messageTypes topics) :
    ∃ kind, serdeName kind (trimEndMatchesT node.1) ∈
      (generateCoreCode topics).called := by
  obtain ⟨topic, ofTopic, here⟩ := List.mem_flatMap.mp known
  obtain ⟨rootWritten, nestedWritten⟩ :=
    (serde_ordered oneSet).2 topic ofTopic
  have root := messageTypes_topic ofTopic
  have calls {parent : Name × List MsgField} {prefix_ : Name}
      (isKnown : parent ∈ messageTypes topics)
      (written : prefix_ ∈ (generateCoreCode topics).serde.keys)
      (struct : structOfPrefix prefix_ = parent.1)
      (direct : node.1 ∈ directTypes parent.2) :
      serdeName .serialize (trimEndMatchesT node.1) ∈
        (generateCoreCode topics).called := by
    apply CoreCode.mem_called_of_entry
      (serde_entry oneSet written struct isKnown)
    rw [calledPrefixes_map]
    exact List.mem_map_of_mem direct
  rcases List.mem_cons.mp here with rfl | nested
  · have user : generateUserFunction topic ∈
        (generateCoreCode topics).users := by
      rw [generateCoreCode_eq]
      exact List.mem_map_of_mem ofTopic
    obtain ⟨kind, name⟩ := generateUserFunction_serdeFn topic
    refine ⟨kind, ?_⟩
    rw [← name]
    exact CoreCode.mem_called_of_user user
  · refine ⟨.serialize, ?_⟩
    rcases nestedTypes_parent topic.fields node nested with
      direct | ⟨parent, inTree, direct⟩
    · exact calls root rootWritten
        (structOfPrefix_rosPath (oneSet.topicPath topic ofTopic)) direct
    · have isKnown := messageTypes_nested root inTree
      obtain ⟨path, isPath, name⟩ := oneSet.path isKnown
      refine calls isKnown (nestedWritten parent inTree) ?_ direct
      rw [name]
      exact structOfPrefix_trim isPath

/-- What is called is a function of a type, by its trimmed prefix; unless the
type is a message named `t`, that prefix was written. -/
theorem called_type {function : Name}
    (called : function ∈ (generateCoreCode topics).called) :
    ∃ kind, ∃ node ∈ messageTypes topics,
      function = serdeName kind (trimEndMatchesT node.1) ∧
        (¬ IsNamedT node.1 → trimEndMatchesT node.1 ∈
          (generateCoreCode topics).serde.keys) := by
  obtain ⟨ordered, reached⟩ := serde_ordered oneSet
  rcases CoreCode.mem_called called with
    ⟨kind, entry, inOut, typePrefix, calls, rfl⟩ | ⟨user, isUser, rfl⟩
  · obtain ⟨index, found⟩ := List.mem_iff_getElem?.mp inOut
    obtain ⟨earlier, _, item, there⟩ :=
      ordered.inOrder index entry found typePrefix calls
    obtain ⟨fields, known, same⟩ := ordered.allowed entry inOut
    rw [same, calledPrefixes_map] at calls
    obtain ⟨cType, direct, rfl⟩ := List.mem_map.mp calls
    obtain ⟨inner, nested⟩ := directTypes_subset direct
    exact ⟨kind, (cType, inner), messageTypes_nested known nested, rfl,
      fun _ => mem_keys_iff.mpr ⟨earlier, item, there⟩⟩
  · rw [generateCoreCode_eq] at isUser
    obtain ⟨topic, ofTopic, rfl⟩ := List.mem_map.mp isUser
    have written (notT : ¬ IsNamedT (rosTypeToCStructName topic.msgType)) :
        trimEndMatchesT (rosTypeToCStructName topic.msgType) ∈
          (generateCoreCode topics).serde.keys := by
      rw [trim_append (oneSet.topicPath topic ofTopic) notT]
      exact (reached topic ofTopic).1
    obtain ⟨kind, name⟩ := generateUserFunction_serdeFn topic
    exact ⟨kind, _, messageTypes_topic ofTopic, name, written⟩

end Calls

/-! ## Closed -/

theorem closed_of_noneNamedT {topics : List Topic}
    (oneSet : OneMessageSet topics)
    (noT : ∀ node ∈ messageTypes topics, ¬ IsNamedT node.1) :
    (generateCoreCode topics).Closed topics := by
  obtain ⟨structs, declared⟩ := structs_ordered oneSet
  refine ⟨?_, structs.nodup, ?_, ?_⟩
  · intro node known
    exact List.count_eq_one_of_mem structs.nodup (declared node known)
  · intro index entry found used isUsed
    obtain ⟨earlier, before, item, there⟩ :=
      structs.inOrder index entry found used isUsed
    refine ⟨earlier, before, ?_⟩
    rw [CoreCode.typedefs, keys, List.getElem?_map, there]
    rfl
  · intro function called
    obtain ⟨kind, node, known, rfl, written⟩ := called_type oneSet called
    obtain ⟨path, isPath, name⟩ := oneSet.path known
    have notT := noT node known
    obtain ⟨once_, prototypes⟩ := CoreCode.function_of_prefix
      (serde_ordered oneSet).1.nodup (written notT) kind
    refine ⟨once_, _, prototypes, ?_⟩
    have struct : trimEndMatchesT node.1 ++ ['_', 't'] = node.1 := by
      rw [name] at notT ⊢
      rw [trim_append isPath notT]
      rfl
    show trimEndMatchesT node.1 ++ ['_', 't'] ∈ _
    rw [struct]
    exact declared node known

theorem noneNamedT_of_closed {topics : List Topic}
    (oneSet : OneMessageSet topics)
    (closed : (generateCoreCode topics).Closed topics)
    {node : Name × List MsgField} (known : node ∈ messageTypes topics) :
    ¬ IsNamedT node.1 := by
  intro isT
  obtain ⟨kind, called⟩ := type_called oneSet known
  obtain ⟨_, prototype, found, declared⟩ := closed.functions _ called
  rw [CoreCode.prototype_structType found] at declared
  obtain ⟨index, item, there⟩ := mem_keys_iff.mp declared
  obtain ⟨fields, isKnown, _⟩ := (structs_ordered oneSet).1.allowed _
    (List.mem_of_getElem? there)
  obtain ⟨path, isPath, name⟩ := oneSet.path isKnown
  exact trim_namedT isT isPath name

/-- For topics from one message set the generated C is closed and in order if
and only if no message is named `t`. -/
theorem generated_closed_iff {topics : List Topic}
    (oneSet : OneMessageSet topics) :
    (generateCoreCode topics).Closed topics ↔
      ∀ node ∈ messageTypes topics, ¬ IsNamedT node.1 :=
  ⟨fun closed _ known => noneNamedT_of_closed oneSet closed known,
    closed_of_noneNamedT oneSet⟩

/-! ### Two topics that share a type -/

def pointFields : List MsgField :=
  [.mk "x".toList (.primitive .float64), .mk "y".toList (.primitive .float64)]

def segmentFields : List MsgField :=
  [.mk "start".toList
      (.nested (rosTypeToCStructName "demo_msgs/msg/Point".toList) pointFields),
    .mk "rest".toList
      (.nestedArray (rosTypeToCStructName "demo_msgs/msg/Point".toList)
        pointFields 3)]

def segmentTopics : List Topic :=
  [{ name := "segment".toList
     topicType := .publisher
     msgType := "demo_msgs/msg/Segment".toList
     qos := .default
     fields := segmentFields },
    { name := "goal".toList
      topicType := .subscriber
      msgType := "demo_msgs/msg/Point".toList
      qos := .reliable
      fields := pointFields }]

theorem isTypePath_segment : IsTypePath "demo_msgs/msg/Segment".toList :=
  ⟨"demo_msgs/msg".toList, "Segment".toList, rfl, by decide, by decide,
    by decide⟩

theorem isTypePath_point : IsTypePath "demo_msgs/msg/Point".toList :=
  ⟨"demo_msgs/msg".toList, "Point".toList, rfl, by decide, by decide,
    by decide⟩

theorem segmentTopics_oneSet : OneMessageSet segmentTopics := by
  have nested : ∀ topic ∈ segmentTopics, ∀ node ∈ nestedTypes topic.fields,
      node = (rosTypeToCStructName "demo_msgs/msg/Point".toList,
        pointFields) := by
    simp [segmentTopics, segmentFields, pointFields, nestedTypes,
      MsgField.nestedTypes, FieldType.nestedTypes]
  have either : ∀ node ∈ messageTypes segmentTopics,
      node = (rosTypeToCStructName "demo_msgs/msg/Segment".toList,
          segmentFields) ∨
        node = (rosTypeToCStructName "demo_msgs/msg/Point".toList,
          pointFields) := by
    intro node member
    obtain ⟨topic, ofTopic, here⟩ := List.mem_flatMap.mp member
    rcases List.mem_cons.mp here with rfl | inside
    · rcases List.mem_cons.mp ofTopic with rfl | last
      · exact .inl rfl
      · rw [List.mem_singleton.mp last]
        exact .inr rfl
    · exact .inr (nested topic ofTopic node inside)
  refine ⟨?_, ?_, ?_⟩
  · intro topic member
    rcases List.mem_cons.mp member with rfl | last
    · exact isTypePath_segment
    · rw [List.mem_singleton.mp last]
      exact isTypePath_point
  · intro topic member node inside
    rw [nested topic member node inside]
    exact ⟨_, isTypePath_point, rfl⟩
  · intro left inLeft right inRight same
    rcases either left inLeft with rfl | rfl <;>
      rcases either right inRight with rfl | rfl
    · rfl
    · exact absurd same (by decide)
    · exact absurd same (by decide)
    · rfl

theorem generated_closed_iff_segmentTopics :
    (generateCoreCode segmentTopics).Closed segmentTopics ↔
      ∀ node ∈ messageTypes segmentTopics, ¬ IsNamedT node.1 :=
  generated_closed_iff segmentTopics_oneSet

example : (generateCoreCode segmentTopics).typedefs =
    ["demo_msgs__msg__Point_t".toList, "demo_msgs__msg__Segment_t".toList] := by
  decide

/-! ### A message named `t` -/

def clockTopics : List Topic :=
  [{ name := "clock".toList
     topicType := .publisher
     msgType := "demo_msgs/msg/t".toList
     qos := .default
     fields := pointFields }]

theorem clockTopics_oneSet : OneMessageSet clockTopics := by
  refine ⟨?_, ?_, ?_⟩
  · intro topic member
    rw [List.mem_singleton.mp member]
    exact ⟨"demo_msgs/msg".toList, "t".toList, rfl, by decide, by decide,
      by decide⟩
  · intro topic member node inside
    rw [List.mem_singleton.mp member] at inside
    exact nomatch inside
  · intro left inLeft right inRight _
    rw [List.mem_singleton.mp inLeft, List.mem_singleton.mp inRight]

/-- `nros_publish_clock` calls `demo_msgs__msg___serialize`, which is neither
declared nor defined. -/
theorem not_generated_closed :
    OneMessageSet clockTopics ∧
      ¬ (generateCoreCode clockTopics).Closed clockTopics := by
  refine ⟨clockTopics_oneSet, fun closed => ?_⟩
  exact noneNamedT_of_closed clockTopics_oneSet closed List.mem_cons_self
    ⟨"demo_msgs/msg".toList, rfl⟩

end NanoRos.Codegen
