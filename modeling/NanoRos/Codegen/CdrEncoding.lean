import NanoRos.Codegen.SerdeChunks

/-!
# Plain CDR

The encoding that the other side expects, element by element, and that the
generated serializers write it.  Micro-CDR moves an array as one block; a
block of at least one element lies where its elements would.
-/

namespace NanoRos.Codegen

open UcdrBuffer

/-! ## The encoding -/

/-- The elements of an array, `size` bytes each. -/
def arrayElements (size len : Nat) (cells : List UInt8) :
    List (List UInt8) :=
  (List.range len).map fun index => (cells.drop (index * size)).take size

/-- A string is its length with the NUL, then its characters and the NUL; any
other value is a little-endian number of its own size. -/
def PrimType.cdrItems : PrimType → List UInt8 → List (Chunk UInt8)
  | .string, object =>
      [lengthChunk ((text object).length + 1),
        bytesChunk (text object ++ [0])]
  | prim, object =>
      [valueChunk prim.cType.size prim.size_positive
        (ofLittleEndian object)]

mutual

def FieldType.cdrItems : (fieldType : FieldType) → fieldType.Object →
    List (Chunk UInt8)
  | .primitive prim, object => prim.cdrItems object.cells
  | .primArray prim len, object =>
      (arrayElements prim.cType.size len object.cells).flatMap prim.cdrItems
  | .nested _ fields, object => structCdrItems fields object
  | .nestedArray _ fields _, object =>
      object.cells.flatMap (structCdrItems fields)

def MsgField.cdrItems : (field : MsgField) → field.Object →
    List (Chunk UInt8)
  | .mk _ fieldType, object => fieldType.cdrItems object

def structCdrItems : (fields : List MsgField) → StructObject fields →
    List (Chunk UInt8)
  | [], _ => []
  | field :: fields, object =>
      field.cdrItems object.1 ++ structCdrItems fields object.2

end

/-- The bytes after the encapsulation header: every item at a multiple of its
size, counted from there. -/
def cdrEncoding (fields : List MsgField) (object : StructObject fields) :
    List (Option UInt8) :=
  Chunk.layout (structCdrItems fields object) 0

/-! ## The messages it covers -/

mutual

/-- No array of strings and no empty array of primitives. -/
def FieldType.IsPlain : FieldType → Prop
  | .primitive _ => True
  | .primArray prim len => prim ≠ .string ∧ 1 ≤ len
  | .nested _ fields => FieldsPlain fields
  | .nestedArray _ fields _ => FieldsPlain fields

def MsgField.IsPlain : MsgField → Prop
  | .mk _ fieldType => fieldType.IsPlain

def FieldsPlain : List MsgField → Prop
  | [] => True
  | field :: fields => field.IsPlain ∧ FieldsPlain fields

end

/-! ## Same layout -/

theorem flatten_arrayElements {size len : Nat} {cells : List UInt8}
    (whole : cells.length = len * size) :
    (arrayElements size len cells).flatten = cells := by
  have blocks (count : Nat) :
      ((List.range count).map
        fun index => (cells.drop (index * size)).take size).flatten =
          cells.take (count * size) := by
    induction count with
    | zero => simp
    | succ count induction =>
        rw [List.range_succ, List.map_append, List.flatten_append, induction,
          Nat.succ_mul, List.take_add]
        simp
  rw [arrayElements, blocks, ← whole, List.take_length]

theorem length_of_mem_arrayElements {size len : Nat} {cells : List UInt8}
    (whole : cells.length = len * size) {element : List UInt8}
    (member : element ∈ arrayElements size len cells) :
    element.length = size := by
  obtain ⟨index, inside, rfl⟩ := List.mem_map.mp member
  have below := Nat.mul_le_mul_right size (List.mem_range.mp inside)
  rw [Nat.succ_mul] at below
  rw [List.length_take, List.length_drop, whole]
  omega

theorem PrimType.layout_chunks (prim : PrimType) {object : List UInt8}
    (isValue : prim.IsValue object) (pos : Nat) :
    Chunk.layout (prim.chunks object) pos =
      Chunk.layout (prim.cdrItems object) pos := by
  cases prim with
  | string =>
      have content := terminated_eq isValue
      rw [PrimType.chunks, content]
      rfl
  | _ => rfl

/-- A block of elements is laid out like the elements. -/
theorem layout_arrayChunk {prim : PrimType} (other : prim ≠ .string)
    {len : Nat} (some_ : 1 ≤ len)
    (object : Buffer UInt8 (len * prim.cType.size)) (pos : Nat) :
    Chunk.layout [arrayChunk prim.cType object] pos =
      Chunk.layout ((arrayElements prim.cType.size len object.cells).flatMap
        prim.cdrItems) pos := by
  have items (element : List UInt8) : prim.cdrItems element =
      [valueChunk prim.cType.size prim.size_positive
        (ofLittleEndian element)] := by
    cases prim with
    | string => exact absurd rfl other
    | _ => rfl
  have mapped : (arrayElements prim.cType.size len object.cells).flatMap
      prim.cdrItems =
        (arrayElements prim.cType.size len object.cells).map fun element =>
          valueChunk prim.cType.size prim.size_positive
            (ofLittleEndian element) := by
    rw [List.flatMap_congr fun element _ => items element,
      List.map_eq_flatMap]
  rw [mapped]
  apply Chunk.layout_joined
  · intro empty
    have size := congrArg List.length empty
    simp only [arrayElements, List.length_map, List.length_range,
      List.length_nil] at size
    omega
  · intro chunk member
    obtain ⟨element, _, rfl⟩ := List.mem_map.mp member
    rfl
  · have bytes : ∀ element ∈
        arrayElements prim.cType.size len object.cells,
          (valueChunk prim.cType.size prim.size_positive
            (ofLittleEndian element)).bytes = element := by
      intro element member
      have size := length_of_mem_arrayElements object.length_eq member
      have whole := littleEndian_ofLittleEndian element
      rw [size] at whole
      exact whole
    rw [List.flatMap_map, List.flatMap_congr bytes, List.flatMap_id']
    exact (flatten_arrayElements object.length_eq).symm

mutual

theorem FieldType.layout_chunks : (fieldType : FieldType) →
    (object : fieldType.Object) → fieldType.IsPlain →
      fieldType.IsValue object → ∀ pos,
        Chunk.layout (fieldType.chunks object) pos =
          Chunk.layout (fieldType.cdrItems object) pos
  | .primitive prim, _, _, isValue, pos => prim.layout_chunks isValue pos
  | .primArray _ _, object, plain, _, pos =>
      layout_arrayChunk plain.1 plain.2 object pos
  | .nested _ fields, object, plain, isValue, pos =>
      layout_structChunks fields object plain isValue pos
  | .nestedArray _ fields _, _, plain, isValue, pos =>
      Chunk.layout_flatMap_congr (fun element member pos =>
        layout_structChunks fields element plain (isValue element member) pos)
        pos

theorem MsgField.layout_chunks : (field : MsgField) →
    (object : field.Object) → field.IsPlain → field.IsValue object → ∀ pos,
      Chunk.layout (field.chunks object) pos =
        Chunk.layout (field.cdrItems object) pos
  | .mk _ fieldType, object, plain, isValue, pos =>
      fieldType.layout_chunks object plain isValue pos

theorem layout_structChunks : (fields : List MsgField) →
    (object : StructObject fields) → FieldsPlain fields →
      StructIsValue fields object → ∀ pos,
        Chunk.layout (structChunks fields object) pos =
          Chunk.layout (structCdrItems fields object) pos
  | [], _, _, _, _ => rfl
  | field :: fields, object, plain, isValue, pos =>
      Chunk.layout_append_congr
        (fun pos => field.layout_chunks object.1 plain.1 isValue.1 pos)
        (fun pos => layout_structChunks fields object.2 plain.2 isValue.2 pos)
        pos

end

/-! ## The serializer writes it -/

/-- In a buffer that is large enough, a generated serializer succeeds and
writes the plain encoding; padding keeps what the buffer held. -/
theorem serialize_writes_cdr {capacity : Nat} (fields : List MsgField)
    (plain : FieldsPlain fields) (object : StructObject fields)
    (isValue : StructIsValue fields object)
    (memory : Buffer UInt8 capacity)
    (enough : (cdrEncoding fields object).length ≤ capacity) :
    let serialized := serializeStruct fields object (init memory)
    serialized.1 = true ∧
      serialized.2.written.length = (cdrEncoding fields object).length ∧
        Chunk.Agrees serialized.2.written (cdrEncoding fields object) := by
  intro serialized
  have emits : Emits (fun ub : UcdrBuffer capacity =>
      serializeStruct fields object ub) _ :=
    emits_struct fields object isValue
  exact emits.encoding memory
    (layout_structChunks fields object plain isValue 0) enough

theorem serialize_writes_cdr_taggedPoints :
    let serialized := serializeStruct taggedPointsFields taggedPoints
      (init (.filled 64 0))
    serialized.1 = true ∧
      serialized.2.written.length =
        (cdrEncoding taggedPointsFields taggedPoints).length ∧
          Chunk.Agrees serialized.2.written
            (cdrEncoding taggedPointsFields taggedPoints) :=
  serialize_writes_cdr taggedPointsFields
    ⟨trivial, ⟨trivial, ⟨by decide, by decide⟩, trivial⟩, trivial, trivial⟩
    taggedPoints taggedPoints_isValue (.filled 64 0) (by decide +kernel)

end NanoRos.Codegen
