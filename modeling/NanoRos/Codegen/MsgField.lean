import NanoRos.Protocol

/-!
# Message fields and topics

The data `msg_file_parser.rs` and `ros_toml_schema.rs` hand to the code
generator.  Names are lists of characters, array lengths natural numbers.
-/

namespace NanoRos.Codegen

abbrev Name := List Char

/-- `PrimType`. -/
inductive PrimType where
  | bool
  | byte
  | char
  | float32
  | float64
  | int8
  | int16
  | int32
  | int64
  | uint8
  | uint16
  | uint32
  | uint64
  | string
  deriving DecidableEq, Repr

/-- The C types a struct member can have an element of. -/
inductive CType where
  | bool
  | uint8
  | float
  | double
  | int8
  | int16
  | int32
  | int64
  | uint16
  | uint32
  | uint64
  | char
  deriving DecidableEq, Repr

/-- `sizeof`. -/
def CType.size : CType → Nat
  | .bool | .uint8 | .int8 | .char => 1
  | .int16 | .uint16 => 2
  | .float | .int32 | .uint32 => 4
  | .double | .int64 | .uint64 => 8

namespace PrimType

/-- `c_type`. -/
def cType : PrimType → CType
  | .bool => .bool
  | .byte | .uint8 | .char => .uint8
  | .float32 => .float
  | .float64 => .double
  | .int8 => .int8
  | .int16 => .int16
  | .int32 => .int32
  | .int64 => .int64
  | .uint16 => .uint16
  | .uint32 => .uint32
  | .uint64 => .uint64
  | .string => .char

/-- `align`; of a string it is that of its length prefix. -/
def align : PrimType → Nat
  | .bool | .byte | .char | .int8 | .uint8 => 1
  | .int16 | .uint16 => 2
  | .float32 | .int32 | .uint32 => 4
  | .float64 | .int64 | .uint64 => 8
  | .string => 4

/-- `size`. -/
def size : PrimType → Nat
  | .bool | .byte | .char | .int8 | .uint8 => 1
  | .int16 | .uint16 => 2
  | .float32 | .int32 | .uint32 => 4
  | .float64 | .int64 | .uint64 => 8
  | .string => 0

end PrimType

mutual

/-- `FieldType`; a nested type carries its C type name and its fields. -/
inductive FieldType where
  | primitive (prim : PrimType)
  | primArray (prim : PrimType) (len : Nat)
  | nested (cType : Name) (fields : List MsgField)
  | nestedArray (cType : Name) (fields : List MsgField) (len : Nat)

/-- `MsgField`. -/
inductive MsgField where
  | mk (name : Name) (fieldType : FieldType)

end

namespace MsgField

def name : MsgField → Name
  | .mk name _ => name

def fieldType : MsgField → FieldType
  | .mk _ fieldType => fieldType

end MsgField

/-- `TopicType`. -/
inductive TopicType where
  | publisher
  | subscriber
  deriving DecidableEq, Repr

/-- `Topic`, its fields resolved. -/
structure Topic where
  name : Name
  topicType : TopicType
  msgType : Name
  qos : NrosQos
  fields : List MsgField

end NanoRos.Codegen
