import Mathlib.Tactic.Common
import NanoRos.Foundation.Buffer

/-!
# Wire protocol

Constants and packed structs of `protocol.h`.  Multi-byte fields are
little-endian, so a struct and its wire image are two views of the same bytes.
-/

namespace NanoRos

def nrosMagic0 : UInt8 := 0xAA
def nrosMagic1 : UInt8 := 0x55

/-- A whole frame (header, payload, CRC) has to fit in this. -/
def nrosBufferSize : Nat := 1024
def nrosCrcLen : Nat := 2

/-- Longest topic name or type name a board can register. -/
def nrosMaxStrSize : Nat := 128

/-- `sizeof(nros_frame_header_t)`. -/
def frameHeaderSize : Nat := 6

/-- `sizeof(nros_registration_payload_t)`. -/
def registrationPayloadSize : Nat := 4

/-- The biggest payload one frame can carry. -/
def nrosMaxPayload : Nat := nrosBufferSize - frameHeaderSize - nrosCrcLen

abbrev NrosBuffer := Buffer UInt8 nrosBufferSize

inductive NrosPacketType where
  | register
  | data
  | ack
  | registerDone
  | discover
  deriving DecidableEq, Repr

namespace NrosPacketType

def toByte : NrosPacketType → UInt8
  | .register => 0x01
  | .data => 0x02
  | .ack => 0x03
  | .registerDone => 0x04
  | .discover => 0x05

/-- The case of a `switch` over a type byte; `none` where no case matches. -/
def ofByte? (byte : UInt8) : Option NrosPacketType :=
  if byte = 0x01 then some .register
  else if byte = 0x02 then some .data
  else if byte = 0x03 then some .ack
  else if byte = 0x04 then some .registerDone
  else if byte = 0x05 then some .discover
  else none

@[simp] theorem ofByte?_toByte (packet : NrosPacketType) :
    ofByte? packet.toByte = some packet := by
  cases packet <;> rfl

theorem toByte_injective {left right : NrosPacketType}
    (equal : left.toByte = right.toByte) : left = right := by
  have cases := congrArg ofByte? equal
  rw [ofByte?_toByte, ofByte?_toByte] at cases
  exact Option.some.inj cases

theorem ofByte?_eq_some_iff {byte : UInt8} {packet : NrosPacketType} :
    ofByte? byte = some packet ↔ byte = packet.toByte := by
  constructor
  · intro found
    unfold ofByte? at found
    split_ifs at found with first second third fourth fifth
    all_goals
      cases found
      assumption
  · rintro rfl
    exact ofByte?_toByte packet

end NrosPacketType

/-- Low byte of a 16-bit value. -/
def lowByte (value : UInt16) : UInt8 := value.toUInt8

/-- High byte of a 16-bit value. -/
def highByte (value : UInt16) : UInt8 := (value >>> 8).toUInt8

def getU16 (low high : UInt8) : UInt16 :=
  low.toUInt16 ||| (high.toUInt16 <<< 8)

def putU16 (value : UInt16) : List UInt8 :=
  [lowByte value, highByte value]

@[simp] theorem length_putU16 (value : UInt16) :
    (putU16 value).length = 2 := rfl

@[simp] theorem getU16_lowByte_highByte (value : UInt16) :
    getU16 (lowByte value) (highByte value) = value := by
  apply UInt16.eq_of_toBitVec_eq
  simp only [getU16, lowByte, highByte, UInt16.toBitVec_or,
    UInt16.toBitVec_shiftLeft, UInt8.toBitVec_toUInt16,
    UInt16.toBitVec_toUInt8, UInt16.toBitVec_shiftRight]
  ext index bound
  simp
  grind

@[simp] theorem lowByte_getU16 (low high : UInt8) :
    lowByte (getU16 low high) = low := by
  apply UInt8.eq_of_toBitVec_eq
  ext index bound
  simp [getU16, lowByte]

@[simp] theorem highByte_getU16 (low high : UInt8) :
    highByte (getU16 low high) = high := by
  apply UInt8.eq_of_toBitVec_eq
  ext index bound
  simp [getU16, highByte]
  grind

/-- `nros_frame_header_t`. -/
structure NrosFrameHeader where
  magic0 : UInt8
  magic1 : UInt8
  type : UInt8
  topicId : UInt8
  length : UInt16
  deriving DecidableEq, Repr

namespace NrosFrameHeader

/-- The six wire bytes of a header. -/
def toBytes (header : NrosFrameHeader) : List UInt8 :=
  [header.magic0, header.magic1, header.type, header.topicId,
    lowByte header.length, highByte header.length]

/-- `memcpy(&header, bytes, sizeof(header))`. -/
def ofBytes (bytes : List UInt8) : NrosFrameHeader :=
  { magic0 := bytes.getD 0 0
    magic1 := bytes.getD 1 0
    type := bytes.getD 2 0
    topicId := bytes.getD 3 0
    length := getU16 (bytes.getD 4 0) (bytes.getD 5 0) }

@[simp] theorem length_toBytes (header : NrosFrameHeader) :
    header.toBytes.length = 6 := rfl

theorem toBytes_ofBytes {bytes : List UInt8} (size : bytes.length = 6) :
    (ofBytes bytes).toBytes = bytes := by
  match bytes, size with
  | [_, _, _, _, _, _], _ => simp [ofBytes, toBytes]

/-- The header of a zero-initialised static object. -/
def zeroed : NrosFrameHeader :=
  { magic0 := 0, magic1 := 0, type := 0, topicId := 0, length := 0 }

end NrosFrameHeader

/-- A header together with the payload bytes it announces. -/
structure Frame where
  header : NrosFrameHeader
  payload : List UInt8
  deriving DecidableEq, Repr

/-- `nros_qos_t`. -/
inductive NrosQos where
  | default
  | sensorData
  | reliable
  | bestEffort
  | transientLocal
  | systemDefault
  deriving DecidableEq, Repr

/-- `NROS_QOS_COUNT`: number of valid values. -/
def nrosQosCount : UInt8 := 6

namespace NrosQos

def toByte : NrosQos → UInt8
  | .default => 0x00
  | .sensorData => 0x01
  | .reliable => 0x02
  | .bestEffort => 0x03
  | .transientLocal => 0x04
  | .systemDefault => 0x05

end NrosQos

/-- `nros_ack_status_t`. -/
inductive NrosAckStatus where
  | ok
  | unsupportedQos
  | malformed
  deriving DecidableEq, Repr

namespace NrosAckStatus

def toByte : NrosAckStatus → UInt8
  | .ok => 0x00
  | .unsupportedQos => 0x01
  | .malformed => 0x02

end NrosAckStatus

/-- `nros_registration_payload_t`; the type name and the topic name follow it
on the wire. -/
structure NrosRegistrationPayload where
  topicId : UInt8
  qos : UInt8
  typeNameLen : UInt8
  topicNameLen : UInt8
  deriving DecidableEq, Repr

namespace NrosRegistrationPayload

def toBytes (payload : NrosRegistrationPayload) : List UInt8 :=
  [payload.topicId, payload.qos, payload.typeNameLen, payload.topicNameLen]

def ofBytes (bytes : List UInt8) : NrosRegistrationPayload :=
  { topicId := bytes.getD 0 0
    qos := bytes.getD 1 0
    typeNameLen := bytes.getD 2 0
    topicNameLen := bytes.getD 3 0 }

@[simp] theorem length_toBytes (payload : NrosRegistrationPayload) :
    payload.toBytes.length = 4 := rfl

end NrosRegistrationPayload

/-- `nros_ack_payload_t`. -/
structure NrosAckPayload where
  topicId : UInt8
  status : NrosAckStatus
  deriving DecidableEq, Repr

def NrosAckPayload.toBytes (payload : NrosAckPayload) : List UInt8 :=
  [payload.topicId, payload.status.toByte]

end NanoRos
