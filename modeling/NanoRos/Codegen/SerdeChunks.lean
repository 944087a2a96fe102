import NanoRos.MicroCdrChunks
import NanoRos.Codegen.Serde

/-!
# The chunks of a struct

What the generated serializer of a struct emits, and that the deserializer
generated next to it reads the same chunks back.  Both generator functions
split the cases of a field in the same way; so do the proofs.
-/

namespace NanoRos.Codegen

open UcdrBuffer

theorem CType.isWidth (cType : CType) : IsWidth cType.size := by
  cases cType <;> simp [CType.size, IsWidth]

theorem PrimType.size_positive (prim : PrimType) : 0 < prim.cType.size :=
  prim.cType.isWidth.positive

/-! ## Values -/

/-- The memory is one of a value: a string ends within its array, and a
`bool` is 0 or 1. -/
def PrimType.IsValue (prim : PrimType) (object : List UInt8) : Prop :=
  match prim with
  | .string => 0 ∈ object
  | .bool => object = [0] ∨ object = [1]
  | _ => True

/-- Equal values; strings are compared up to their NUL. -/
def PrimType.SameValue (prim : PrimType) (object other : List UInt8) : Prop :=
  match prim with
  | .string => terminated other = terminated object
  | _ => other = object

mutual

def FieldType.IsValue : (fieldType : FieldType) → fieldType.Object → Prop
  | .primitive prim, object => prim.IsValue object.cells
  | .primArray _ _, _ => True
  | .nested _ fields, object => StructIsValue fields object
  | .nestedArray _ fields _, object =>
      ∀ element ∈ object.cells, StructIsValue fields element

def MsgField.IsValue : (field : MsgField) → field.Object → Prop
  | .mk _ fieldType, object => fieldType.IsValue object

def StructIsValue : (fields : List MsgField) → StructObject fields → Prop
  | [], _ => True
  | field :: fields, object =>
      field.IsValue object.1 ∧ StructIsValue fields object.2

end

mutual

def FieldType.SameValue : (fieldType : FieldType) →
    fieldType.Object → fieldType.Object → Prop
  | .primitive prim, object, other =>
      prim.SameValue object.cells other.cells
  | .primArray _ _, object, other => other = object
  | .nested _ fields, object, other => StructSameValue fields object other
  | .nestedArray _ fields _, object, other =>
      List.Forall₂ (StructSameValue fields) object.cells other.cells

def MsgField.SameValue : (field : MsgField) →
    field.Object → field.Object → Prop
  | .mk _ fieldType, object, other => fieldType.SameValue object other

def StructSameValue : (fields : List MsgField) →
    StructObject fields → StructObject fields → Prop
  | [], _, _ => True
  | field :: fields, object, other =>
      field.SameValue object.1 other.1 ∧
        StructSameValue fields object.2 other.2

end

/-! ## Chunks -/

/-- A string is its length and its bytes, any other value one number. -/
def PrimType.chunks (prim : PrimType) (object : List UInt8) :
    List (Chunk UInt8) :=
  match prim with
  | .string =>
      [lengthChunk (strlen object + 1), bytesChunk (terminated object)]
  | prim =>
      [valueChunk prim.cType.size prim.size_positive
        (ofLittleEndian object)]

/-- An array of primitives is moved as a whole. -/
def arrayChunk (cType : CType) {len : Nat}
    (object : Buffer UInt8 (len * cType.size)) : Chunk UInt8 where
  align := cType.size
  bytes := object.cells
  positive := cType.isWidth.positive
  divides := by
    rw [object.length_eq]
    exact Nat.dvd_mul_left _ _

mutual

def FieldType.chunks : (fieldType : FieldType) → fieldType.Object →
    List (Chunk UInt8)
  | .primitive prim, object => prim.chunks object.cells
  | .primArray prim _, object => [arrayChunk prim.cType object]
  | .nested _ fields, object => structChunks fields object
  | .nestedArray _ fields _, object =>
      object.cells.flatMap (structChunks fields)

def MsgField.chunks : (field : MsgField) → field.Object →
    List (Chunk UInt8)
  | .mk _ fieldType, object => fieldType.chunks object

def structChunks : (fields : List MsgField) → StructObject fields →
    List (Chunk UInt8)
  | [], _ => []
  | field :: fields, object =>
      field.chunks object.1 ++ structChunks fields object.2

end

/-! ## Serialization -/

variable {capacity : Nat}

theorem emits_each {α : Type}
    {serialize : α → UcdrBuffer capacity → Bool × UcdrBuffer capacity}
    {chunks : α → List (Chunk UInt8)} {elements : List α}
    (emits : ∀ element ∈ elements, Emits (serialize element) (chunks element)) :
    Emits (serializeEach serialize elements) (elements.flatMap chunks) := by
  induction elements with
  | nil => exact emits_nil
  | cons element elements induction =>
      have first := emits element List.mem_cons_self
      have rest := induction fun other member =>
        emits other (List.mem_cons_of_mem _ member)
      exact first.andThen rest

/-- A scalar is written as the number its memory stands for. -/
theorem emits_scalar (cType : CType) {object : List UInt8}
    (size : object.length = cType.size) :
    Emits (fun ub : UcdrBuffer capacity =>
      ub.serializeBasic cType.size object)
      [valueChunk cType.size cType.isWidth.positive
        (ofLittleEndian object)] := by
  have bytes : littleEndian cType.size (ofLittleEndian object) = object := by
    rw [← size]
    exact littleEndian_ofLittleEndian object
  have emits : Emits (fun ub : UcdrBuffer capacity =>
      ub.serializeBasic cType.size
        (littleEndian cType.size (ofLittleEndian object))) _ :=
    emits_basic (valueChunk cType.size cType.isWidth.positive
      (ofLittleEndian object)) cType.isWidth (length_littleEndian _ _)
  rw [bytes] at emits
  exact emits

theorem PrimType.emits (prim : PrimType)
    (object : Buffer UInt8 prim.memberSize)
    (isValue : prim.IsValue object.cells) :
    Emits (fun ub : UcdrBuffer capacity => prim.serialize object.cells ub)
      (prim.chunks object.cells) := by
  have size := object.length_eq
  cases prim with
  | string =>
      have short : object.cells.length < 2 ^ 32 := by
        rw [size]
        decide
      exact emits_string isValue short
  | _ => exact emits_scalar _ size

theorem emits_primArray (cType : CType) {len : Nat}
    (object : Buffer UInt8 (len * cType.size)) :
    Emits (fun ub : UcdrBuffer capacity =>
      ub.serializeArray cType.size object.cells len)
      [arrayChunk cType object] :=
  emits_array (arrayChunk cType object) cType.isWidth object.length_eq
    List.take_length

mutual

/-- The generated lines emit the chunks of the field. -/
theorem FieldType.emits : (fieldType : FieldType) →
    (object : fieldType.Object) → fieldType.IsValue object →
      Emits (fun ub : UcdrBuffer capacity => fieldType.serialize object ub)
        (fieldType.chunks object)
  | .primitive prim, object, isValue => prim.emits object isValue
  | .primArray prim _, object, _ => emits_primArray prim.cType object
  | .nested _ fields, object, isValue => emits_struct fields object isValue
  | .nestedArray _ fields _, _, isValue =>
      emits_each fun element member =>
        emits_struct fields element (isValue element member)

theorem MsgField.emits : (field : MsgField) → (object : field.Object) →
    field.IsValue object →
      Emits (fun ub : UcdrBuffer capacity => field.serialize object ub)
        (field.chunks object)
  | .mk _ fieldType, object, isValue => fieldType.emits object isValue

/-- A generated serializer emits the chunks of its struct. -/
theorem emits_struct : (fields : List MsgField) →
    (object : StructObject fields) → StructIsValue fields object →
      Emits (fun ub : UcdrBuffer capacity => serializeStruct fields object ub)
        (structChunks fields object)
  | [], _, _ => emits_nil
  | field :: fields, object, isValue =>
      (field.emits object.1 isValue.1).andThen
        (emits_struct fields object.2 isValue.2)

end

/-! ## Deserialization -/

theorem reads_each {α : Type}
    {deserialize : α → UcdrBuffer capacity → Outcome capacity α}
    {chunks : α → List (Chunk UInt8)} {same : α → α → Prop}
    {elements targets : List α} (lengths : targets.length = elements.length)
    (reads : ∀ element ∈ elements, ∀ target,
      Reads (deserialize target) (chunks element) (same element)) :
    Reads (deserializeEach deserialize targets) (elements.flatMap chunks)
      (List.Forall₂ same elements) := by
  induction elements generalizing targets with
  | nil =>
      rw [List.length_eq_zero_iff.mp lengths]
      exact reads_nil .nil
  | cons element elements induction =>
      cases targets with
      | nil => exact nomatch lengths
      | cons target targets =>
          have first := reads element List.mem_cons_self target
          have rest := induction (Nat.succ.inj lengths)
            fun other member => reads other (List.mem_cons_of_mem _ member)
          exact (first.andThen rest).map
            (fun pair : α × List α => pair.1 :: pair.2)
            fun pair holds => .cons holds.1 holds.2

/-- A scalar is read back byte for byte; the cast of a `bool` changes nothing
on the bytes of one. -/
theorem reads_scalar (cType : CType) {size : Nat} (same : size = cType.size)
    {object : List UInt8} (whole : object.length = cType.size)
    (kept : object.map cType.ofByte = object) (target : Buffer UInt8 size) :
    Reads (fun ub : UcdrBuffer capacity =>
      ub.deserializeBasic cType.ofByte cType.size target)
      [valueChunk cType.size cType.isWidth.positive (ofLittleEndian object)]
      (fun value => value.cells = object) := by
  have bytes : littleEndian cType.size (ofLittleEndian object) = object := by
    rw [← whole]
    exact littleEndian_ofLittleEndian object
  have reads : Reads (fun ub : UcdrBuffer capacity =>
      ub.deserializeBasic cType.ofByte cType.size target) _
      (fun value => value.cells =
        (littleEndian cType.size (ofLittleEndian object)).map
          cType.ofByte) :=
    reads_basic (valueChunk cType.size cType.isWidth.positive
      (ofLittleEndian object)) cType.isWidth (length_littleEndian _ _) same
      cType.ofByte (fun _ => target)
  rw [bytes, kept] at reads
  exact reads

section Deserialize

variable (stack : UcdrBuffer capacity → Buffer UInt8 4)

theorem PrimType.map_ofByte (prim : PrimType) {object : List UInt8}
    (isValue : prim.IsValue object) :
    object.map prim.cType.ofByte = object := by
  cases prim with
  | bool =>
      rcases isValue with zero | one
      · rw [zero]
        rfl
      · rw [one]
        rfl
  | _ => exact List.map_id _

theorem PrimType.reads (prim : PrimType)
    (object target : Buffer UInt8 prim.memberSize)
    (isValue : prim.IsValue object.cells) :
    Reads (prim.deserialize stack target) (prim.chunks object.cells)
      (fun value => prim.SameValue object.cells value.cells) := by
  have size := object.length_eq
  have kept := prim.map_ofByte isValue
  cases prim with
  | string =>
      have ends : strlen object.cells < PrimType.string.memberSize :=
        Nat.lt_of_lt_of_eq (strlen_lt isValue) size
      have short : PrimType.string.memberSize < 2 ^ 32 := by decide
      exact (reads_string isValue ends short target stack).map id
        fun _ taken => terminated_of_take isValue taken
  | _ => exact reads_scalar (PrimType.cType _) rfl size kept target

theorem reads_primArray (cType : CType) {len : Nat}
    (object target : Buffer UInt8 (len * cType.size)) :
    Reads (fun ub : UcdrBuffer capacity =>
      ub.deserializeArray cType.size target len)
      [arrayChunk cType object] (fun value => value = object) := by
  have whole : (arrayChunk cType object).bytes.length =
      len * cType.size := object.length_eq
  have reads : Reads (fun ub : UcdrBuffer capacity =>
      ub.deserializeArray cType.size target len) _ _ :=
    reads_array (arrayChunk cType object) cType.isWidth whole
      (Nat.le_of_eq whole) target
  refine reads.map id fun value taken => ?_
  apply Buffer.ext_cells
  rwa [whole, Buffer.take, List.take_of_length_le
    (Nat.le_of_eq value.length_eq)] at taken

mutual

/-- The generated lines read a field back. -/
theorem FieldType.reads : (fieldType : FieldType) →
    (object target : fieldType.Object) → fieldType.IsValue object →
      Reads (fieldType.deserialize stack target) (fieldType.chunks object)
        (fieldType.SameValue object)
  | .primitive prim, object, target, isValue =>
      prim.reads stack object target isValue
  | .primArray prim _, object, target, _ =>
      reads_primArray prim.cType object target
  | .nested _ fields, object, target, isValue =>
      reads_struct fields object target isValue
  | .nestedArray _ fields _, object, target, isValue => by
      have lengths := target.length_eq.trans object.length_eq.symm
      have each := reads_each lengths fun element member target =>
        reads_struct fields element target (isValue element member)
      exact ⟨each.result, each.state⟩

theorem MsgField.reads : (field : MsgField) →
    (object target : field.Object) → field.IsValue object →
      Reads (field.deserialize stack target) (field.chunks object)
        (field.SameValue object)
  | .mk _ fieldType, object, target, isValue =>
      fieldType.reads object target isValue

/-- A generated deserializer reads the struct back. -/
theorem reads_struct : (fields : List MsgField) →
    (object target : StructObject fields) → StructIsValue fields object →
      Reads (deserializeStruct stack fields target)
        (structChunks fields object) (StructSameValue fields object)
  | [], _, _, _ => reads_nil trivial
  | field :: fields, object, target, isValue =>
      (field.reads object.1 target.1 isValue.1).andThen
        (reads_struct fields object.2 target.2 isValue.2)

end

end Deserialize

/-! ## A message

A string, and padding after it and inside an array of messages. -/

def taggedPointsFields : List MsgField :=
  [.mk "name".toList (.primitive .string),
    .mk "points".toList (.nestedArray "demo__msg__Point_t".toList
      [.mk "x".toList (.primitive .float64),
        .mk "tags".toList (.primArray .uint16 3)] 2),
    .mk "flag".toList (.primitive .bool)]

def taggedPoints : StructObject taggedPointsFields :=
  ((Buffer.filled 256 0).copy 0 [104, 105],
    ⟨[(⟨[0, 0, 0, 0, 0, 0, 240, 63], rfl⟩, ⟨[1, 0, 2, 0, 3, 0], rfl⟩, ()),
      (⟨[0, 0, 0, 0, 0, 0, 0, 64], rfl⟩, ⟨[4, 0, 5, 0, 6, 0], rfl⟩, ())],
      rfl⟩,
    ⟨[1], rfl⟩, ())

theorem taggedPoints_isValue :
    StructIsValue taggedPointsFields taggedPoints := by
  refine ⟨?_, ?_, .inr rfl, trivial⟩
  · show 0 ∈ ((Buffer.filled 256 0).copy 0 [104, 105]).cells
    decide +kernel
  · intro element _
    exact ⟨trivial, trivial, trivial⟩

end NanoRos.Codegen
