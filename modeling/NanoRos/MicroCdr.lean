import NanoRos.Foundation.AlignedLayout
import NanoRos.Foundation.LittleEndian

/-!
# Micro-CDR

The buffer functions of the vendored Micro-CDR, as `ucdr_init_buffer` sets a
buffer up: origin zero, the endianness of the (little-endian) machine, and no
`on_full_buffer` callback.
-/

universe u

namespace NanoRos

/-- `ucdrBuffer`.  Positions count from `init`, so `final` is the capacity. -/
structure UcdrBuffer (capacity : Nat) where
  memory : Buffer UInt8 capacity
  iterator : Nat
  offset : Nat
  lastDataSize : Nat
  error : Bool
  deriving DecidableEq

/-- A `memcpy` between the buffer and an object, given the iterator, how many
bytes of the object came before, and how many are copied. -/
abbrev Memcpy (capacity : Nat) (σ : Type u) :=
  Buffer UInt8 capacity → σ → Nat → Nat → Nat → Buffer UInt8 capacity × σ

namespace Memcpy

variable {capacity : Nat}

/-- From an object into the buffer. -/
def into (source : List UInt8) : Memcpy capacity Unit :=
  fun memory _ iterator done count =>
    (memory.copy iterator ((source.drop done).take count), ())

/-- From the buffer to an object, each byte converted. -/
def outOf {size : Nat} (convert : UInt8 → UInt8) :
    Memcpy capacity (Buffer UInt8 size) :=
  fun memory object iterator done count =>
    (memory, object.copy done ((memory.slice iterator count).map convert))

/-- No copy: `ucdr_advance_buffer` only moves on. -/
def skip : Memcpy capacity Unit := fun memory _ _ _ _ => (memory, ())

end Memcpy

namespace UcdrBuffer

variable {capacity : Nat}

/-- `ucdr_init_buffer`. -/
def init (memory : Buffer UInt8 capacity) : UcdrBuffer capacity :=
  { memory, iterator := 0, offset := 0, lastDataSize := 0, error := false }

/-- `ucdr_init_buffer` over some bytes. -/
def ofBytes (bytes : List UInt8) : UcdrBuffer bytes.length :=
  init ⟨bytes, rfl⟩

/-- The first `ucdr_buffer_length` bytes. -/
def written (ub : UcdrBuffer capacity) : List UInt8 :=
  ub.memory.take ub.iterator

/-! ## Checks -/

def checkBufferAvailableFor (ub : UcdrBuffer capacity) (bytes : Nat) : Bool :=
  !ub.error && ub.iterator + bytes ≤ capacity

def checkFinalBufferBehavior (ub : UcdrBuffer capacity) :
    Bool × UcdrBuffer capacity :=
  let ub :=
    if !ub.error && capacity ≤ ub.iterator then { ub with error := true }
    else ub
  (!ub.error, ub)

def bufferRemaining (ub : UcdrBuffer capacity) : Nat := capacity - ub.iterator

def nextRemainingSize (ub : UcdrBuffer capacity) (bytes : Nat) : Nat :=
  if bytes ≤ ub.bufferRemaining then bytes else ub.bufferRemaining

def checkFinalBufferBehaviorArray (ub : UcdrBuffer capacity) (bytes : Nat) :
    Nat × UcdrBuffer capacity :=
  let ub :=
    if !ub.error && capacity ≤ ub.iterator && 0 < bytes then
      { ub with error := true }
    else ub
  (if !ub.error then ub.nextRemainingSize bytes else 0, ub)

def bufferAlignment (ub : UcdrBuffer capacity) (dataSize : Nat) : Nat :=
  if ub.lastDataSize < dataSize then
    (dataSize - ub.offset % 2 ^ 32 % dataSize) &&& (dataSize - 1)
  else 0

/-! ## Moving bytes -/

variable {σ : Type u}

/-- One `memcpy` and the iterator after it. -/
def block (memcpy : Memcpy capacity σ) (state : UcdrBuffer capacity × σ)
    (done count : Nat) : UcdrBuffer capacity × σ :=
  let copied := memcpy state.1.memory state.2 state.1.iterator done count
  ({ state.1 with
      memory := copied.1
      iterator := state.1.iterator + count
      offset := state.1.offset + count }, copied.2)

/-- The loop over blocks of a buffer that is too short.  A block has at least
one byte, so as many rounds as bytes are enough. -/
def blockLoop (memcpy : Memcpy capacity σ) (size : Nat) :
    Nat → UcdrBuffer capacity × σ → Nat → UcdrBuffer capacity × σ
  | 0, state, _ => state
  | rounds + 1, state, remaining =>
      let checked := state.1.checkFinalBufferBehaviorArray remaining
      let state := (checked.2, state.2)
      if 0 < checked.1 then
        blockLoop memcpy size rounds
          (block memcpy state (size - remaining) checked.1)
          (remaining - checked.1)
      else state

/-- What `ucdr_advance_buffer`, `ucdr_array_to_buffer` and
`ucdr_buffer_to_array` share. -/
def moveBytes (memcpy : Memcpy capacity σ) (state : UcdrBuffer capacity × σ)
    (size dataSize : Nat) : UcdrBuffer capacity × σ :=
  let state :=
    if state.1.checkBufferAvailableFor size then block memcpy state 0 size
    else blockLoop memcpy size size state size
  ({ state.1 with lastDataSize := dataSize }, state.2)

def advanceBuffer (ub : UcdrBuffer capacity) (size : Nat) :
    UcdrBuffer capacity :=
  (moveBytes .skip (ub, ()) size 1).1

/-! ## The macros

Each stands for its serializing and its deserializing form, which differ in
the `memcpy` alone. -/

/-- `!ub->error` and the state. -/
abbrev Outcome (capacity : Nat) (σ : Type u) :=
  Bool × UcdrBuffer capacity × σ

def outcome (state : UcdrBuffer capacity × σ) : Outcome capacity σ :=
  (!state.1.error, state)

/-- `UCDR_SERIALIZE_BYTE_1`, `UCDR_DESERIALIZE_BYTE_1`. -/
def byte1 (memcpy : Memcpy capacity σ) (state : UcdrBuffer capacity × σ) :
    Outcome capacity σ :=
  let checked := state.1.checkFinalBufferBehavior
  let state := (checked.2, state.2)
  if checked.1 then
    let moved := block memcpy state 0 1
    outcome ({ moved.1 with lastDataSize := 1 }, moved.2)
  else
    outcome state

/-- `UCDR_SERIALIZE_BYTE_N`, `UCDR_DESERIALIZE_BYTE_N`. -/
def byteN (memcpy : Memcpy capacity σ) (size : Nat)
    (state : UcdrBuffer capacity × σ) : Outcome capacity σ :=
  let alignment := state.1.bufferAlignment size
  let lastDataSize := state.1.lastDataSize
  let state := (state.1.advanceBuffer alignment, state.2)
  if state.1.checkBufferAvailableFor size then
    let moved := block memcpy state 0 size
    outcome ({ moved.1 with lastDataSize := size }, moved.2)
  else if state.1.iterator < capacity then
    let firstSlot := state.1.iterator
    let firstSlotSize := capacity - state.1.iterator
    let ub :=
      { state.1 with
        iterator := state.1.iterator + firstSlotSize
        offset := state.1.offset + firstSlotSize }
    let checked := ub.checkFinalBufferBehavior
    if checked.1 then
      let first :=
        memcpy checked.2.memory state.2 firstSlot 0 firstSlotSize
      let moved :=
        block memcpy ({ checked.2 with memory := first.1 }, first.2)
          firstSlotSize (size - firstSlotSize)
      outcome ({ moved.1 with lastDataSize := size }, moved.2)
    else
      outcome
        ({ checked.2 with
            iterator := checked.2.iterator - firstSlotSize
            offset := checked.2.offset - firstSlotSize
            lastDataSize }, state.2)
  else
    let checked := state.1.checkFinalBufferBehavior
    let state := (checked.2, state.2)
    if checked.1 then
      let moved := block memcpy state 0 size
      outcome ({ moved.1 with lastDataSize := size }, moved.2)
    else
      outcome state

/-- `UCDR_SERIALIZE_ARRAY_BYTE_1`, `UCDR_DESERIALIZE_ARRAY_BYTE_1`. -/
def arrayByte1 (memcpy : Memcpy capacity σ) (count : Nat)
    (state : UcdrBuffer capacity × σ) : Outcome capacity σ :=
  outcome (moveBytes memcpy state count 1)

/-- `UCDR_SERIALIZE_ARRAY_BYTE_N`, `UCDR_DESERIALIZE_ARRAY_BYTE_N`. -/
def arrayByteN (memcpy : Memcpy capacity σ) (size count : Nat)
    (state : UcdrBuffer capacity × σ) : Outcome capacity σ :=
  let alignment := state.1.bufferAlignment size
  let lastDataSize := state.1.lastDataSize
  let ub := state.1.advanceBuffer alignment
  outcome (moveBytes memcpy ({ ub with lastDataSize }, state.2)
    (count * size) size)

/-! ## Basic types and arrays of them

`UCDR_BASIC_TYPE_DEFINITIONS` and `UCDR_ARRAY_DEFINITIONS` pick the macro by
the size of the type. -/

def basic (memcpy : Memcpy capacity σ) (size : Nat) :
    UcdrBuffer capacity × σ → Outcome capacity σ :=
  if size = 1 then byte1 memcpy else byteN memcpy size

def array (memcpy : Memcpy capacity σ) (size count : Nat) :
    UcdrBuffer capacity × σ → Outcome capacity σ :=
  if size = 1 then arrayByte1 memcpy count else arrayByteN memcpy size count

/-- `ucdr_serialize_`*type*, given the memory of `value`. -/
def serializeBasic (ub : UcdrBuffer capacity) (size : Nat)
    (value : List UInt8) : Bool × UcdrBuffer capacity :=
  let outcome := basic (.into value) size (ub, ())
  (outcome.1, outcome.2.1)

/-- `ucdr_serialize_array_`*type*. -/
def serializeArray (ub : UcdrBuffer capacity) (size : Nat)
    (source : List UInt8) (count : Nat) : Bool × UcdrBuffer capacity :=
  let outcome := array (.into source) size count (ub, ())
  (outcome.1, outcome.2.1)

/-- `ucdr_deserialize_`*type*; `convert` is the cast of a byte to `TYPE`. -/
def deserializeBasic (ub : UcdrBuffer capacity) (convert : UInt8 → UInt8)
    (size : Nat) {width : Nat} (value : Buffer UInt8 width) :
    Outcome capacity (Buffer UInt8 width) :=
  basic (.outOf convert) size (ub, value)

/-- `ucdr_deserialize_array_`*type*. -/
def deserializeArray (ub : UcdrBuffer capacity) (size : Nat) {width : Nat}
    (target : Buffer UInt8 width) (count : Nat) :
    Outcome capacity (Buffer UInt8 width) :=
  array (.outOf id) size count (ub, target)

/-! ## Strings -/

/-- `strlen`. -/
def strlen (string : List UInt8) : Nat := (string.takeWhile (· ≠ 0)).length

/-- `ucdr_serialize_sequence_char`. -/
def serializeSequenceChar (ub : UcdrBuffer capacity) (source : List UInt8)
    (length : Nat) : Bool × UcdrBuffer capacity :=
  let ub := (ub.serializeBasic 4 (littleEndian 4 length)).2
  if length = 0 then (true, ub) else ub.serializeArray 1 source length

/-- `ucdr_serialize_string`. -/
def serializeString (ub : UcdrBuffer capacity) (string : List UInt8) :
    Bool × UcdrBuffer capacity :=
  ub.serializeSequenceChar string ((strlen string + 1) % 2 ^ 32)

/-- `ucdr_deserialize_sequence_header`. -/
def deserializeSequenceHeader (ub : UcdrBuffer capacity)
    (sequenceCapacity : Nat) (length : Buffer UInt8 4) :
    UcdrBuffer capacity × Buffer UInt8 4 :=
  let read := (ub.deserializeBasic id 4 length).2
  if sequenceCapacity < ofLittleEndian read.2.cells then
    ({ read.1 with error := true }, read.2)
  else
    read

/-- `ucdr_deserialize_sequence_char`. -/
def deserializeSequenceChar (ub : UcdrBuffer capacity) {width : Nat}
    (target : Buffer UInt8 width) (arrayCapacity : Nat)
    (length : Buffer UInt8 4) : Outcome capacity (Buffer UInt8 width) :=
  let header := ub.deserializeSequenceHeader arrayCapacity length
  let length := ofLittleEndian header.2.cells
  if length = 0 then (true, header.1, target)
  else header.1.deserializeArray 1 target length

/-- `ucdr_deserialize_string`, into all of `string`; its variable `length`
starts with whatever its memory holds. -/
def deserializeString (ub : UcdrBuffer capacity) {width : Nat}
    (string : Buffer UInt8 width) (length : Buffer UInt8 4) :
    Outcome capacity (Buffer UInt8 width) :=
  ub.deserializeSequenceChar string width length

end UcdrBuffer

end NanoRos
