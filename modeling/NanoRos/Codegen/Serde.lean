import NanoRos.MicroCdr
import NanoRos.Codegen.MsgField

/-!
# Generated structs and serializers

The structs `generate_user_c_struct` declares, as the memory of their members,
and what the functions of `generate_serde_functions` do with them.  A call of
a nested type's function is the function generated for that type's fields.
-/

namespace NanoRos.Codegen

/-- Bytes of a member that is no array: a string is declared `char[256]`. -/
def PrimType.memberSize : PrimType → Nat
  | .string => 256
  | prim => prim.cType.size

mutual

/-- The memory of a struct member. -/
def FieldType.Object : FieldType → Type
  | .primitive prim => Buffer UInt8 prim.memberSize
  | .primArray prim len => Buffer UInt8 (len * prim.cType.size)
  | .nested _ fields => StructObject fields
  | .nestedArray _ fields len => Buffer (StructObject fields) len

def MsgField.Object : MsgField → Type
  | .mk _ fieldType => fieldType.Object

/-- The memory of a struct, member after member. -/
def StructObject : List MsgField → Type
  | [] => Unit
  | field :: fields => field.Object × StructObject fields

end

variable {capacity : Nat}

/-! ## Serialization -/

/-- A loop over an array of messages, `ok &=` each result.  The counter of the
generated loop is an `int`: more than `INT_MAX` elements are not covered. -/
def serializeEach {α : Type}
    (serialize : α → UcdrBuffer capacity → Bool × UcdrBuffer capacity) :
    List α → UcdrBuffer capacity → Bool × UcdrBuffer capacity
  | [], ub => (true, ub)
  | element :: elements, ub =>
      let first := serialize element ub
      let rest := serializeEach serialize elements first.2
      (first.1 && rest.1, rest.2)

/-- The line for a primitive member. -/
def PrimType.serialize (prim : PrimType) (object : List UInt8)
    (ub : UcdrBuffer capacity) : Bool × UcdrBuffer capacity :=
  match prim with
  | .string => ub.serializeString object
  | prim => ub.serializeBasic prim.cType.size object

mutual

/-- The lines `generate_serialize_function` writes for a field. -/
def FieldType.serialize : (fieldType : FieldType) → fieldType.Object →
    UcdrBuffer capacity → Bool × UcdrBuffer capacity
  | .primitive prim, object, ub => prim.serialize object.cells ub
  | .primArray prim len, object, ub =>
      ub.serializeArray prim.cType.size object.cells len
  | .nested _ fields, object, ub => serializeStruct fields object ub
  | .nestedArray _ fields _, object, ub =>
      serializeEach (serializeStruct fields) object.cells ub

def MsgField.serialize : (field : MsgField) → field.Object →
    UcdrBuffer capacity → Bool × UcdrBuffer capacity
  | .mk _ fieldType, object, ub => fieldType.serialize object ub

/-- `<prefix>__serialize`. -/
def serializeStruct : (fields : List MsgField) → StructObject fields →
    UcdrBuffer capacity → Bool × UcdrBuffer capacity
  | [], _, ub => (true, ub)
  | field :: fields, object, ub =>
      let first := field.serialize object.1 ub
      let rest := serializeStruct fields object.2 first.2
      (first.1 && rest.1, rest.2)

end

/-! ## Deserialization -/

/-- A loop over an array of messages, each overwritten; its counter is an
`int` as well. -/
def deserializeEach {α : Type}
    (deserialize : α → UcdrBuffer capacity → UcdrBuffer.Outcome capacity α) :
    List α → UcdrBuffer capacity → UcdrBuffer.Outcome capacity (List α)
  | [], ub => (true, ub, [])
  | element :: elements, ub =>
      let first := deserialize element ub
      let rest := deserializeEach deserialize elements first.2.1
      (first.1 && rest.1, rest.2.1, first.2.2 :: rest.2.2)

theorem length_deserializeEach {α : Type}
    (deserialize : α → UcdrBuffer capacity → UcdrBuffer.Outcome capacity α)
    (elements : List α) (ub : UcdrBuffer capacity) :
    (deserializeEach deserialize elements ub).2.2.length =
      elements.length := by
  induction elements generalizing ub with
  | nil => rfl
  | cons element elements induction =>
      rw [deserializeEach, List.length_cons, List.length_cons, induction]

/-- The cast of a byte to a type of one byte: a `bool` is 0 or 1. -/
def CType.ofByte : CType → UInt8 → UInt8
  | .bool, byte => if byte = 0 then 0 else 1
  | _, byte => byte

/-- The line for a primitive member.  `stack` is what the memory of the
uninitialised `length` in `ucdr_deserialize_string` holds at a call. -/
def PrimType.deserialize (stack : UcdrBuffer capacity → Buffer UInt8 4)
    (prim : PrimType) {width : Nat} (object : Buffer UInt8 width)
    (ub : UcdrBuffer capacity) :
    UcdrBuffer.Outcome capacity (Buffer UInt8 width) :=
  match prim with
  | .string => ub.deserializeString object (stack ub)
  | prim => ub.deserializeBasic prim.cType.ofByte prim.cType.size object

section Deserialize

variable (stack : UcdrBuffer capacity → Buffer UInt8 4)

mutual

/-- The lines `generate_deserialize_function` writes for a field. -/
def FieldType.deserialize : (fieldType : FieldType) → fieldType.Object →
    UcdrBuffer capacity → UcdrBuffer.Outcome capacity fieldType.Object
  | .primitive prim, object, ub => prim.deserialize stack object ub
  | .primArray prim len, object, ub =>
      ub.deserializeArray prim.cType.size object len
  | .nested _ fields, object, ub => deserializeStruct fields object ub
  | .nestedArray _ fields _, object, ub =>
      let each := deserializeEach (deserializeStruct fields) object.cells ub
      (each.1, each.2.1, ⟨each.2.2, by
        rw [length_deserializeEach, object.length_eq]⟩)

def MsgField.deserialize : (field : MsgField) → field.Object →
    UcdrBuffer capacity → UcdrBuffer.Outcome capacity field.Object
  | .mk _ fieldType, object, ub => fieldType.deserialize object ub

/-- `<prefix>__deserialize`, into a struct with any content. -/
def deserializeStruct : (fields : List MsgField) → StructObject fields →
    UcdrBuffer capacity → UcdrBuffer.Outcome capacity (StructObject fields)
  | [], object, ub => (true, ub, object)
  | field :: fields, object, ub =>
      let first := field.deserialize object.1 ub
      let rest := deserializeStruct fields object.2 first.2.1
      (first.1 && rest.1, rest.2.1, (first.2.2, rest.2.2))

end

end Deserialize

end NanoRos.Codegen
