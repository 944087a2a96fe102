import NanoRos.Codegen.SerdeChunks

/-!
# Round trip of a struct

The deserializer reads the chunks that the serializer emitted, at the same
places and up to the same end.
-/

namespace NanoRos.Codegen

open UcdrBuffer

/-- Deserialization of exactly the bytes a successful serialization wrote
succeeds, consumes all of them, and yields an equal struct, whatever the
target and the stack held before. -/
theorem deserialize_serialize {capacity : Nat} (fields : List MsgField)
    (object : StructObject fields) (isValue : StructIsValue fields object)
    (memory : Buffer UInt8 capacity)
    (serialized : (serializeStruct fields object (init memory)).1 = true) :
    let bytes := (serializeStruct fields object (init memory)).2.written
    ∀ (target : StructObject fields)
      (stack : UcdrBuffer bytes.length → Buffer UInt8 4),
      let read := deserializeStruct stack fields target (ofBytes bytes)
      read.1 = true ∧ read.2.1.iterator = bytes.length ∧
        StructSameValue fields object read.2.2 := by
  intro bytes target stack read
  have emits : Emits (fun ub : UcdrBuffer capacity =>
      serializeStruct fields object ub) _ :=
    emits_struct fields object isValue
  have fits : Chunk.endOf (structChunks fields object) 0 ≤ capacity := by
    by_cases fits : Chunk.endOf (structChunks fields object) 0 ≤ capacity
    · exact fits
    · rw [emits.full (ready_init memory) (Nat.lt_of_not_le fits)] at serialized
      cases serialized
  obtain ⟨size, held⟩ := emits.written memory fits
  have reads := reads_struct stack fields object target isValue
  have ready := ready_init (⟨bytes, rfl⟩ : Buffer UInt8 bytes.length)
  obtain ⟨ok, same⟩ := reads.result ready (Nat.le_of_eq size.symm) held
  obtain ⟨ended, offset, _⟩ :=
    reads.state ready (Nat.le_of_eq size.symm) held
  exact ⟨ok, (ended.offset.symm.trans offset).trans size.symm, same⟩

theorem deserialize_serialize_taggedPoints :
    let bytes := (serializeStruct taggedPointsFields taggedPoints
      (init (.filled 64 0))).2.written
    ∀ (target : StructObject taggedPointsFields)
      (stack : UcdrBuffer bytes.length → Buffer UInt8 4),
      let read := deserializeStruct stack taggedPointsFields target
        (ofBytes bytes)
      read.1 = true ∧ read.2.1.iterator = bytes.length ∧
        StructSameValue taggedPointsFields taggedPoints read.2.2 :=
  deserialize_serialize taggedPointsFields taggedPoints taggedPoints_isValue
    (.filled 64 0) (by decide +kernel)

end NanoRos.Codegen
