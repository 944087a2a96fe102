import NanoRos.Codegen.TypeNames

/-!
# The walk over nested types

Both generators enter a name before they recurse into its fields.  A nested
type has a smaller field tree than the type around it, and types of one name
have one field tree, so a name that is skipped has always been written.
-/

namespace NanoRos.Codegen

open Emission

/-! ## The types of a message set -/

mutual

/-- The nested types of a field, at any depth. -/
def FieldType.nestedTypes : FieldType → List (Name × List MsgField)
  | .primitive _ => []
  | .primArray _ _ => []
  | .nested cType fields => (cType, fields) :: nestedTypes fields
  | .nestedArray cType fields _ => (cType, fields) :: nestedTypes fields

def MsgField.nestedTypes : MsgField → List (Name × List MsgField)
  | .mk _ fieldType => fieldType.nestedTypes

def nestedTypes : List MsgField → List (Name × List MsgField)
  | [] => []
  | field :: fields => field.nestedTypes ++ nestedTypes fields

end

/-- The nested type of a field, if it has one. -/
def MsgField.directType (field : MsgField) : Option Name :=
  match field.fieldType with
  | .primitive _ => none
  | .primArray _ _ => none
  | .nested cType _ => some cType
  | .nestedArray cType _ _ => some cType

def directTypes (fields : List MsgField) : List Name :=
  fields.filterMap MsgField.directType

/-- The types of all topics, with their fields. -/
def messageTypes (topics : List Topic) : List (Name × List MsgField) :=
  topics.flatMap fun topic =>
    (rosTypeToCStructName topic.msgType, topic.fields) ::
      nestedTypes topic.fields

theorem messageTypes_topic {topics : List Topic} {topic : Topic}
    (member : topic ∈ topics) :
    (rosTypeToCStructName topic.msgType, topic.fields) ∈
      messageTypes topics :=
  List.mem_flatMap.mpr ⟨topic, member, List.mem_cons_self⟩

/-- The topics' fields come from one set of message files: every type has a
type path, and equal C names mean equal fields. -/
structure OneMessageSet (topics : List Topic) : Prop where
  topicPath : ∀ topic ∈ topics, IsTypePath topic.msgType
  nestedPath : ∀ topic ∈ topics, ∀ node ∈ nestedTypes topic.fields,
    ∃ path, IsTypePath path ∧ node.1 = rosTypeToCStructName path
  agree : ∀ left ∈ messageTypes topics, ∀ right ∈ messageTypes topics,
    left.1 = right.1 → left.2 = right.2

theorem OneMessageSet.path {topics : List Topic}
    (oneSet : OneMessageSet topics) {node : Name × List MsgField}
    (member : node ∈ messageTypes topics) :
    ∃ path, IsTypePath path ∧ node.1 = rosTypeToCStructName path := by
  obtain ⟨topic, ofTopic, here⟩ := List.mem_flatMap.mp member
  rcases List.mem_cons.mp here with rfl | nested
  · exact ⟨topic.msgType, oneSet.topicPath topic ofTopic, rfl⟩
  · exact oneSet.nestedPath topic ofTopic node nested

theorem nestedTypes_cons_subset (cType : Name) {fields : List MsgField}
    (below : ∀ node ∈ nestedTypes fields,
      nestedTypes node.2 ⊆ nestedTypes fields) :
    ∀ node ∈ (cType, fields) :: nestedTypes fields,
      nestedTypes node.2 ⊆ (cType, fields) :: nestedTypes fields := by
  intro node member
  rcases List.mem_cons.mp member with rfl | inside
  · exact List.subset_cons_self _ _
  · exact List.Subset.trans (below node inside) (List.subset_cons_self _ _)

mutual

/-- A nested type has its nested types in the same tree. -/
theorem FieldType.nestedTypes_subset : (fieldType : FieldType) →
    ∀ node ∈ fieldType.nestedTypes,
      nestedTypes node.2 ⊆ fieldType.nestedTypes
  | .primitive _, _, member => nomatch member
  | .primArray _ _, _, member => nomatch member
  | .nested cType fields, node, member =>
      nestedTypes_cons_subset cType (nestedTypes_subset fields) node member
  | .nestedArray cType fields _, node, member =>
      nestedTypes_cons_subset cType (nestedTypes_subset fields) node member

theorem MsgField.nestedTypes_subset : (field : MsgField) →
    ∀ node ∈ field.nestedTypes, nestedTypes node.2 ⊆ field.nestedTypes
  | .mk _ fieldType, node, member => fieldType.nestedTypes_subset node member

theorem nestedTypes_subset : (fields : List MsgField) →
    ∀ node ∈ nestedTypes fields, nestedTypes node.2 ⊆ nestedTypes fields
  | [], _, member => nomatch member
  | field :: fields, node, member => by
      rcases List.mem_append.mp member with here | later
      · exact List.Subset.trans (field.nestedTypes_subset node here)
          (List.subset_append_left _ _)
      · exact List.Subset.trans (nestedTypes_subset fields node later)
          (List.subset_append_right _ _)

end

theorem messageTypes_nested {topics : List Topic}
    {node : Name × List MsgField} (member : node ∈ messageTypes topics) :
    nestedTypes node.2 ⊆ messageTypes topics := by
  obtain ⟨topic, ofTopic, here⟩ := List.mem_flatMap.mp member
  intro inner isInner
  refine List.mem_flatMap.mpr ⟨topic, ofTopic, ?_⟩
  exact nestedTypes_cons_subset _ (nestedTypes_subset topic.fields) node here
    isInner

/-- A direct type is one of the nested types. -/
theorem directTypes_subset {fields : List MsgField} {cType : Name}
    (member : cType ∈ directTypes fields) :
    ∃ inner, (cType, inner) ∈ nestedTypes fields := by
  induction fields with
  | nil => exact nomatch member
  | cons field fields induction =>
      obtain ⟨name, fieldType⟩ := field
      rw [directTypes, List.filterMap_cons] at member
      have later (there : cType ∈ directTypes fields) :
          ∃ inner, (cType, inner) ∈
            nestedTypes (.mk name fieldType :: fields) := by
        obtain ⟨inner, found⟩ := induction there
        exact ⟨inner, List.mem_append_right _ found⟩
      cases fieldType with
      | primitive prim => exact later member
      | primArray prim len => exact later member
      | nested other inner =>
          rcases List.mem_cons.mp member with rfl | there
          · exact ⟨inner, List.mem_append_left _ List.mem_cons_self⟩
          · exact later there
      | nestedArray other inner len =>
          rcases List.mem_cons.mp member with rfl | there
          · exact ⟨inner, List.mem_append_left _ List.mem_cons_self⟩
          · exact later there

theorem directTypes_cons (field : MsgField) (fields : List MsgField) :
    directTypes (field :: fields) =
      field.directType.toList ++ directTypes fields := by
  rw [directTypes, List.filterMap_cons]
  cases field.directType <;> rfl

theorem nestedTypes_cons_parent (cType : Name) {fields : List MsgField}
    {name : Name}
    (below : name ∈ directTypes fields ∨
      ∃ parent ∈ nestedTypes fields, name ∈ directTypes parent.2) :
    ∃ parent ∈ (cType, fields) :: nestedTypes fields,
      name ∈ directTypes parent.2 := by
  rcases below with direct | ⟨parent, inTree, isDirect⟩
  · exact ⟨(cType, fields), List.mem_cons_self, direct⟩
  · exact ⟨parent, List.mem_cons_of_mem _ inTree, isDirect⟩

mutual

/-- Every nested type is a direct type of the tree or of a type in it. -/
theorem FieldType.parent (name : Name) : (fieldType : FieldType) →
    ∀ node ∈ fieldType.nestedTypes,
      (MsgField.mk name fieldType).directType = some node.1 ∨
        ∃ parent ∈ fieldType.nestedTypes, node.1 ∈ directTypes parent.2
  | .primitive _, _, member => nomatch member
  | .primArray _ _, _, member => nomatch member
  | .nested cType fields, node, member => by
      rcases List.mem_cons.mp member with rfl | inside
      · exact .inl rfl
      · exact .inr (nestedTypes_cons_parent cType
          (nestedTypes_parent fields node inside))
  | .nestedArray cType fields _, node, member => by
      rcases List.mem_cons.mp member with rfl | inside
      · exact .inl rfl
      · exact .inr (nestedTypes_cons_parent cType
          (nestedTypes_parent fields node inside))

theorem MsgField.parent : (field : MsgField) → ∀ node ∈ field.nestedTypes,
    field.directType = some node.1 ∨
      ∃ parent ∈ field.nestedTypes, node.1 ∈ directTypes parent.2
  | .mk name fieldType, node, member => fieldType.parent name node member

theorem nestedTypes_parent : (fields : List MsgField) →
    ∀ node ∈ nestedTypes fields, node.1 ∈ directTypes fields ∨
      ∃ parent ∈ nestedTypes fields, node.1 ∈ directTypes parent.2
  | [], _, member => nomatch member
  | field :: fields, node, member => by
      rw [directTypes_cons]
      rcases List.mem_append.mp member with here | later
      · rcases field.parent node here with direct | ⟨parent, inTree, isDirect⟩
        · rw [direct]
          exact .inl List.mem_cons_self
        · exact .inr ⟨parent, List.mem_append_left _ inTree, isDirect⟩
      · rcases nestedTypes_parent fields node later with
          direct | ⟨parent, inTree, isDirect⟩
        · exact .inl (List.mem_append_right _ direct)
        · exact .inr ⟨parent, List.mem_append_right _ inTree, isDirect⟩

end

/-! ## The walk -/

section Walk

variable {ν : Type} {key : Name → Name} {item : List MsgField → ν}
  {needed : ν → List Name} {allowed : Name → ν → Prop} {rank : Name → Nat}
  {types : List (Name × List MsgField)}

/-- What the walk writes for each type: its item needs the items of its direct
types, and a key ranks by the field tree behind it. -/
structure WritesTypes (key : Name → Name) (item : List MsgField → ν)
    (needed : ν → List Name) (allowed : Name → ν → Prop) (rank : Name → Nat)
    (types : List (Name × List MsgField)) : Prop where
  isAllowed : ∀ node ∈ types, allowed (key node.1) (item node.2)
  rankEq : ∀ node ∈ types, rank (key node.1) = sizeOf node.2
  neededEq : ∀ node ∈ types,
    needed (item node.2) = (directTypes node.2).map key
  unique : ∀ node ∈ types, ∀ other, allowed (key node.1) other →
    other = item node.2

/-- One type: its fields have a smaller tree. -/
theorem visits_type {root : Name} {fields : List MsgField}
    (isAllowed : allowed root (item fields))
    (rankEq : rank root = sizeOf fields)
    (neededEq : needed (item fields) = (directTypes fields).map key)
    {bound : Nat} (small : sizeOf fields < bound)
    (visits : Visits needed allowed rank (emitNested key item fields)
      (sizeOf fields) ((directTypes fields).map key)) :
    Visits needed allowed rank
      (once root (item fields) (emitNested key item fields)) bound [root] := by
  apply visits_once isAllowed
  · rw [rankEq]
    exact small
  · rw [rankEq, neededEq]
    exact visits

/-- A type of the message set, by what the walk does on its fields. -/
theorem visits_nested
    (writes : WritesTypes key item needed allowed rank types) {cType : Name}
    {fields : List MsgField}
    (known : (cType, fields) :: nestedTypes fields ⊆ types) {bound : Nat}
    (smaller : sizeOf fields < bound)
    (visits : nestedTypes fields ⊆ types →
      Visits needed allowed rank (emitNested key item fields)
        (sizeOf fields) ((directTypes fields).map key)) :
    Visits needed allowed rank
      (once (key cType) (item fields) (emitNested key item fields)) bound
      [key cType] := by
  have here := known List.mem_cons_self
  have inside : nestedTypes fields ⊆ types :=
    List.Subset.trans (List.subset_cons_self _ _) known
  exact visits_type (writes.isAllowed _ here) (writes.rankEq _ here)
    (writes.neededEq _ here) smaller (visits inside)

mutual

theorem FieldType.visits
    (writes : WritesTypes key item needed allowed rank types) (name : Name) :
    (fieldType : FieldType) → fieldType.nestedTypes ⊆ types → ∀ {bound},
      sizeOf fieldType ≤ bound →
        Visits needed allowed rank (fieldType.emitNested key item) bound
          ((MsgField.mk name fieldType).directType.toList.map key)
  | .primitive _, _, _, _ => visits_nil _
  | .primArray _ _, _, _, _ => visits_nil _
  | .nested cType fields, known, bound, small => by
      rw [FieldType.nested.sizeOf_spec] at small
      exact visits_nested writes known (by omega) fun inside =>
        visits_fields writes fields inside (Nat.le_refl _)
  | .nestedArray cType fields _, known, bound, small => by
      rw [FieldType.nestedArray.sizeOf_spec] at small
      exact visits_nested writes known (by omega) fun inside =>
        visits_fields writes fields inside (Nat.le_refl _)

theorem MsgField.visits
    (writes : WritesTypes key item needed allowed rank types) :
    (field : MsgField) → field.nestedTypes ⊆ types → ∀ {bound},
      sizeOf field ≤ bound →
        Visits needed allowed rank (field.emitNested key item) bound
          (field.directType.toList.map key)
  | .mk name fieldType, known, bound, small => by
      rw [MsgField.mk.sizeOf_spec] at small
      exact fieldType.visits writes name known (by omega)

/-- The walk writes the direct types of the fields, and all they need. -/
theorem visits_fields
    (writes : WritesTypes key item needed allowed rank types) :
    (fields : List MsgField) → nestedTypes fields ⊆ types → ∀ {bound},
      sizeOf fields ≤ bound →
        Visits needed allowed rank (emitNested key item fields) bound
          ((directTypes fields).map key)
  | [], _, _, _ => visits_nil _
  | field :: fields, known, bound, small => by
      rw [List.cons.sizeOf_spec] at small
      rw [directTypes_cons, List.map_append]
      have first := field.visits writes
        (List.Subset.trans (List.subset_append_left _ _) known)
        (show sizeOf field ≤ bound by omega)
      have rest := visits_fields writes fields
        (List.Subset.trans (List.subset_append_right _ _) known)
        (show sizeOf fields ≤ bound by omega)
      exact first.andThen rest

end

/-- In an ordered output the types below a written type are written too. -/
theorem direct_mem {emission : Emission Name ν}
    (ordered : Ordered needed allowed emission) {root : Name}
    {fields : List MsgField}
    (unique : ∀ other, allowed root other → other = item fields)
    (neededEq : needed (item fields) = (directTypes fields).map key)
    (written : root ∈ emission.keys) {cType : Name}
    (direct : cType ∈ directTypes fields) : key cType ∈ emission.keys := by
  obtain ⟨index, other, found⟩ := mem_keys_iff.mp written
  have same := unique other (ordered.allowed _ (List.mem_of_getElem? found))
  have need : key cType ∈ needed other := by
    rw [same, neededEq]
    exact List.mem_map_of_mem direct
  obtain ⟨earlier, _, inner, there⟩ :=
    ordered.inOrder index _ found _ need
  exact mem_keys_iff.mpr ⟨earlier, inner, there⟩

theorem nestedTypes_cons_mem
    (writes : WritesTypes key item needed allowed rank types)
    {emission : Emission Name ν} (ordered : Ordered needed allowed emission)
    {cType : Name} {fields : List MsgField}
    (known : (cType, fields) :: nestedTypes fields ⊆ types)
    (written : key cType ∈ emission.keys)
    (below : nestedTypes fields ⊆ types →
      (∀ cType ∈ directTypes fields, key cType ∈ emission.keys) →
        ∀ node ∈ nestedTypes fields, key node.1 ∈ emission.keys) :
    ∀ node ∈ (cType, fields) :: nestedTypes fields,
      key node.1 ∈ emission.keys := by
  intro node member
  rcases List.mem_cons.mp member with rfl | inside
  · exact written
  · have here := known List.mem_cons_self
    have direct (other : Name) (isDirect : other ∈ directTypes fields) :
        key other ∈ emission.keys :=
      direct_mem ordered (writes.unique _ here) (writes.neededEq _ here)
        written isDirect
    exact below (List.Subset.trans (List.subset_cons_self _ _) known) direct
      node inside

mutual

theorem FieldType.nested_mem
    (writes : WritesTypes key item needed allowed rank types)
    {emission : Emission Name ν} (ordered : Ordered needed allowed emission)
    (name : Name) : (fieldType : FieldType) →
      fieldType.nestedTypes ⊆ types →
        (∀ cType ∈ (MsgField.mk name fieldType).directType,
          key cType ∈ emission.keys) →
          ∀ node ∈ fieldType.nestedTypes, key node.1 ∈ emission.keys
  | .primitive _, _, _, _, member => nomatch member
  | .primArray _ _, _, _, _, member => nomatch member
  | .nested cType fields, known, direct, node, member =>
      nestedTypes_cons_mem writes ordered known (direct cType rfl)
        (nestedTypes_mem writes ordered fields) node member
  | .nestedArray cType fields _, known, direct, node, member =>
      nestedTypes_cons_mem writes ordered known (direct cType rfl)
        (nestedTypes_mem writes ordered fields) node member

theorem MsgField.nested_mem
    (writes : WritesTypes key item needed allowed rank types)
    {emission : Emission Name ν} (ordered : Ordered needed allowed emission) :
    (field : MsgField) → field.nestedTypes ⊆ types →
      (∀ cType ∈ field.directType, key cType ∈ emission.keys) →
        ∀ node ∈ field.nestedTypes, key node.1 ∈ emission.keys
  | .mk name fieldType, known, direct, node, member =>
      fieldType.nested_mem writes ordered name known direct node member

/-- Once the direct types are written, the types at every depth are. -/
theorem nestedTypes_mem
    (writes : WritesTypes key item needed allowed rank types)
    {emission : Emission Name ν} (ordered : Ordered needed allowed emission) :
    (fields : List MsgField) → nestedTypes fields ⊆ types →
      (∀ cType ∈ directTypes fields, key cType ∈ emission.keys) →
        ∀ node ∈ nestedTypes fields, key node.1 ∈ emission.keys
  | [], _, _, _, member => nomatch member
  | field :: fields, known, direct, node, member => by
      rw [directTypes_cons] at direct
      rcases List.mem_append.mp member with here | later
      · exact field.nested_mem writes ordered
          (List.Subset.trans (List.subset_append_left _ _) known)
          (fun cType isDirect => direct cType
            (List.mem_append_left _ (Option.mem_toList.mpr isDirect)))
          node here
      · exact nestedTypes_mem writes ordered fields
          (List.Subset.trans (List.subset_append_right _ _) known)
          (fun cType isDirect =>
            direct cType (List.mem_append_right _ isDirect)) node later

end

end Walk

end NanoRos.Codegen
