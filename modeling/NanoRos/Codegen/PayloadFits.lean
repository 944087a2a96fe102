import NanoRos.BoardStep
import NanoRos.Codegen.CdrSize
import NanoRos.Codegen.SerdeChunks

/-!
# Messages that fit

Whether every message of a topic fits in a frame is a matter of its longest
one.  The compile-time check bounds that length, except that it takes an array
without elements to take no space, where Micro-CDR still aligns.
-/

namespace NanoRos.Codegen

open UcdrBuffer

/-! ## The longest message -/

/-- Where a primitive ends at most: a string with 255 characters. -/
def PrimType.longestEnd (prim : PrimType) (pos : Nat) : Nat :=
  match prim with
  | .string => alignUp 4 pos + 4 + 256
  | prim => alignUp prim.cType.size pos + prim.cType.size

theorem PrimType.longestEnd_eq {prim : PrimType} (other : prim ≠ .string) :
    prim.longestEnd =
      fun pos => alignUp prim.cType.size pos + prim.cType.size := by
  cases prim with
  | string => exact absurd rfl other
  | _ => rfl

mutual

/-- Where a field ends at most.  An array is aligned even if it is empty. -/
def FieldType.longestEnd : FieldType → Nat → Nat
  | .primitive prim, pos => prim.longestEnd pos
  | .primArray prim len, pos =>
      alignUp prim.cType.size pos + len * prim.cType.size
  | .nested _ fields, pos => longestEnd fields pos
  | .nestedArray _ fields len, pos => (longestEnd fields)^[len] pos

def MsgField.longestEnd : MsgField → Nat → Nat
  | .mk _ fieldType, pos => fieldType.longestEnd pos

def longestEnd : List MsgField → Nat → Nat
  | [], pos => pos
  | field :: fields, pos => longestEnd fields (field.longestEnd pos)

end

/-- The longest payload of a topic, encapsulation header included. -/
def longestPayload (topic : Topic) : Nat :=
  cdrEncapHeaderLen + longestEnd topic.fields 0

/-! ### No message is longer -/

theorem PrimType.endOf_chunks_le (prim : PrimType)
    (object : Buffer UInt8 prim.memberSize)
    (isValue : prim.IsValue object.cells) {pos later : Nat}
    (le : pos ≤ later) :
    Chunk.endOf (prim.chunks object.cells) pos ≤ prim.longestEnd later := by
  have size := object.length_eq
  have starts := alignUp_mono prim.size_positive le
  cases prim with
  | string =>
      have short : strlen object.cells < 256 :=
        Nat.lt_of_lt_of_eq (strlen_lt isValue) size
      have bytes := length_terminated isValue
      have starts : alignUp 4 pos ≤ alignUp 4 later :=
        alignUp_mono (by decide) le
      simp only [PrimType.chunks, Chunk.endOf_cons, Chunk.endOf_nil,
        Chunk.next, lengthChunk, valueChunk, bytesChunk, alignUp_one,
        length_littleEndian, bytes, PrimType.longestEnd]
      omega
  | _ =>
      exact Nat.add_le_add starts (Nat.le_of_eq (length_littleEndian _ _))

mutual

theorem FieldType.endOf_chunks_le : (fieldType : FieldType) →
    (object : fieldType.Object) → fieldType.IsValue object →
      ∀ {pos later : Nat}, pos ≤ later →
        Chunk.endOf (fieldType.chunks object) pos ≤
          fieldType.longestEnd later
  | .primitive prim, object, isValue, _, _, le =>
      prim.endOf_chunks_le object isValue le
  | .primArray prim _, object, _, _, _, le =>
      Nat.add_le_add (alignUp_mono prim.size_positive le)
        (Nat.le_of_eq object.length_eq)
  | .nested _ fields, object, isValue, _, _, le =>
      endOf_structChunks_le fields object isValue le
  | .nestedArray _ fields _, object, isValue, _, later, le => by
      have ends := Chunk.endOf_flatMap_le (fun element member _ _ le =>
        endOf_structChunks_le fields element (isValue element member) le) le
      rw [object.length_eq] at ends
      exact ends

theorem MsgField.endOf_chunks_le : (field : MsgField) →
    (object : field.Object) → field.IsValue object →
      ∀ {pos later : Nat}, pos ≤ later →
        Chunk.endOf (field.chunks object) pos ≤ field.longestEnd later
  | .mk _ fieldType, object, isValue, _, _, le =>
      fieldType.endOf_chunks_le object isValue le

theorem endOf_structChunks_le : (fields : List MsgField) →
    (object : StructObject fields) → StructIsValue fields object →
      ∀ {pos later : Nat}, pos ≤ later →
        Chunk.endOf (structChunks fields object) pos ≤
          longestEnd fields later
  | [], _, _, _, _, le => le
  | field :: fields, object, isValue, pos, later, le => by
      rw [structChunks, Chunk.endOf_append]
      exact endOf_structChunks_le fields object.2 isValue.2
        (field.endOf_chunks_le object.1 isValue.1 le)

end

/-! ### One message is as long -/

/-- A member filled up: bytes of one, a string with its NUL at the end. -/
def PrimType.full (prim : PrimType) : Buffer UInt8 prim.memberSize :=
  match prim with
  | .string => (Buffer.filled 256 1).store 255 0
  | _ => .filled _ 1

mutual

def FieldType.full : (fieldType : FieldType) → fieldType.Object
  | .primitive prim => prim.full
  | .primArray _ _ => Buffer.filled _ 1
  | .nested _ fields => fullStruct fields
  | .nestedArray _ fields _ => Buffer.filled _ (fullStruct fields)

def MsgField.full : (field : MsgField) → field.Object
  | .mk _ fieldType => fieldType.full

def fullStruct : (fields : List MsgField) → StructObject fields
  | [] => ()
  | field :: fields => (field.full, fullStruct fields)

end

theorem PrimType.full_isValue (prim : PrimType) :
    prim.IsValue prim.full.cells := by
  cases prim with
  | string =>
      show 0 ∈ ((Buffer.filled 256 1).store 255 0).cells
      decide +kernel
  | bool => exact .inr rfl
  | _ => trivial

theorem PrimType.endOf_full (prim : PrimType) (pos : Nat) :
    Chunk.endOf (prim.chunks prim.full.cells) pos = prim.longestEnd pos := by
  cases prim with
  | string =>
      have bytes : (terminated PrimType.string.full.cells).length = 256 := by
        show (terminated ((Buffer.filled 256 1).store 255 0).cells).length =
          256
        decide +kernel
      simp only [PrimType.chunks, Chunk.endOf_cons, Chunk.endOf_nil,
        Chunk.next, lengthChunk, valueChunk, bytesChunk, alignUp_one,
        length_littleEndian, bytes, PrimType.longestEnd]
  | _ => exact congrArg (_ + ·) (length_littleEndian _ _)

mutual

theorem FieldType.full_isValue : (fieldType : FieldType) →
    fieldType.IsValue fieldType.full
  | .primitive prim => prim.full_isValue
  | .primArray _ _ => trivial
  | .nested _ fields => fullStruct_isValue fields
  | .nestedArray _ fields _ => fun element member => by
      rw [List.eq_of_mem_replicate member]
      exact fullStruct_isValue fields

theorem MsgField.full_isValue : (field : MsgField) → field.IsValue field.full
  | .mk _ fieldType => fieldType.full_isValue

theorem fullStruct_isValue : (fields : List MsgField) →
    StructIsValue fields (fullStruct fields)
  | [] => trivial
  | field :: fields => ⟨field.full_isValue, fullStruct_isValue fields⟩

end

mutual

theorem FieldType.endOf_full : (fieldType : FieldType) → (pos : Nat) →
    Chunk.endOf (fieldType.chunks fieldType.full) pos =
      fieldType.longestEnd pos
  | .primitive prim, pos => prim.endOf_full pos
  | .primArray prim len, pos =>
      congrArg (alignUp prim.cType.size pos + ·)
        (Buffer.filled (len * prim.cType.size) 1).length_eq
  | .nested _ fields, pos => endOf_fullStruct fields pos
  | .nestedArray _ fields len, pos =>
      Chunk.endOf_flatMap_replicate (endOf_fullStruct fields) len pos

theorem MsgField.endOf_full : (field : MsgField) → (pos : Nat) →
    Chunk.endOf (field.chunks field.full) pos = field.longestEnd pos
  | .mk _ fieldType, pos => fieldType.endOf_full pos

theorem endOf_fullStruct : (fields : List MsgField) → (pos : Nat) →
    Chunk.endOf (structChunks fields (fullStruct fields)) pos =
      longestEnd fields pos
  | [], _ => rfl
  | field :: fields, pos => by
      rw [structChunks, Chunk.endOf_append]
      exact (congrArg _ (field.endOf_full pos)).trans
        (endOf_fullStruct fields _)

end

/-! ## The check bounds it -/

mutual

/-- Every array has elements, unless they are single bytes. -/
def FieldType.ArraysFilled : FieldType → Prop
  | .primitive _ => True
  | .primArray prim len => prim.cType.size = 1 ∨ 1 ≤ len
  | .nested _ fields => ArraysFilled fields
  | .nestedArray _ fields _ => ArraysFilled fields

def MsgField.ArraysFilled : MsgField → Prop
  | .mk _ fieldType => fieldType.ArraysFilled

def ArraysFilled : List MsgField → Prop
  | [] => True
  | field :: fields => field.ArraysFilled ∧ ArraysFilled fields

end

/-- The calculated size reaches where the item ends at most, and the position
after it knows that place. -/
def Covers (size : CdrPos → Nat × CdrPos) (longest : Nat → Nat) : Prop :=
  ∀ (pos : CdrPos) (offset : Nat), pos.Knows offset →
    longest offset ≤ offset + (size pos).1 ∧
      (size pos).2.Knows (longest offset)

theorem covers_repeated {element : CdrPos → Nat × CdrPos}
    {longest : Nat → Nat} (covers : Covers element longest) (count : Nat) :
    Covers (sumRepeated element count) longest^[count] := by
  induction count with
  | zero => exact fun _ _ knows => ⟨Nat.le_refl _, knows⟩
  | succ count induction =>
      intro pos offset knows
      have first := covers pos offset knows
      have rest := induction _ _ first.2
      rw [Function.iterate_succ_apply, sumRepeated]
      exact ⟨by omega, rest.2⟩

theorem PrimType.covers (prim : PrimType) :
    Covers (CdrPos.addPrim prim) prim.longestEnd := by
  intro pos offset knows
  have width := prim.cType.isWidth
  cases prim with
  | string =>
      have prefixWidth : IsWidth 4 := .inr (.inr (.inl rfl))
      have header := knows.le_add prefixWidth 4
      refine ⟨?_, CdrPos.knows_unknown _⟩
      simp only [PrimType.longestEnd, CdrPos.addPrim, stringMaxBytes]
      omega
  | _ => exact ⟨knows.le_add width _, knows.add width _⟩

/-- Elements that follow one another need padding before the first only. -/
theorem iterate_alignUp {size : Nat} (positive : 0 < size)
    (count offset : Nat) :
    (fun pos => alignUp size pos + size)^[count + 1] offset =
      alignUp size offset + (count + 1) * size := by
  induction count generalizing offset with
  | zero => rw [Nat.zero_add, Nat.one_mul]; rfl
  | succ count induction =>
      have aligned : size ∣ alignUp size offset + size :=
        Nat.dvd_add (dvd_alignUp positive offset) (Nat.dvd_refl size)
      rw [Function.iterate_succ_apply, induction, alignUp_of_dvd aligned,
        Nat.succ_mul (count + 1)]
      omega

/-- The check reckons with strings where the array has only characters. -/
theorem covers_stringArray (len : Nat) :
    Covers (sumRepeated (CdrPos.addPrim .string) len)
      (fun pos => alignUp 1 pos + len * 1) := by
  have enough (count : Nat) (pos : CdrPos) :
      count ≤ (sumRepeated (CdrPos.addPrim .string) count pos).1 ∧
        (1 ≤ count → (sumRepeated (CdrPos.addPrim .string) count pos).2 =
          { r := 0, m := 1 }) := by
    induction count generalizing pos with
    | zero => exact ⟨Nat.zero_le _, nofun⟩
    | succ count induction =>
        have rest := induction { r := 0, m := 1 }
        rw [sumRepeated]
        refine ⟨?_, fun _ => ?_⟩
        · simp only [CdrPos.addPrim, stringMaxBytes]
          omega
        · cases count with
          | zero => rfl
          | succ count => exact rest.2 (Nat.succ_pos count)
  intro pos offset knows
  have counted := enough len pos
  dsimp only
  rw [alignUp_one, Nat.mul_one]
  refine ⟨Nat.add_le_add_left counted.1 offset, ?_⟩
  cases len with
  | zero => exact knows
  | succ len =>
      rw [counted.2 (Nat.succ_pos len)]
      exact CdrPos.knows_unknown _

theorem covers_primArray (prim : PrimType) {len : Nat}
    (filled : prim.cType.size = 1 ∨ 1 ≤ len) :
    Covers (sumRepeated (CdrPos.addPrim prim) len)
      (fun pos => alignUp prim.cType.size pos + len * prim.cType.size) := by
  by_cases string : prim = .string
  · rw [string]
    exact covers_stringArray len
  · have element := PrimType.longestEnd_eq string
    intro pos offset knows
    cases len with
    | zero =>
        have byte : prim.cType.size = 1 := by
          rcases filled with byte | some_
          · exact byte
          · omega
        dsimp only
        rw [byte, alignUp_one, Nat.zero_mul, Nat.add_zero]
        exact ⟨Nat.le_refl _, knows⟩
    | succ len =>
        have covers := covers_repeated prim.covers (len + 1) pos offset knows
        rw [element, iterate_alignUp prim.size_positive] at covers
        exact covers

mutual

theorem FieldType.covers : (fieldType : FieldType) →
    fieldType.ArraysFilled →
      Covers fieldType.maxCdrSize fieldType.longestEnd
  | .primitive prim, _ => prim.covers
  | .primArray prim _, filled => covers_primArray prim filled
  | .nested _ fields, filled => covers_fields fields filled
  | .nestedArray _ fields len, filled =>
      covers_repeated (covers_fields fields filled) len

theorem MsgField.covers : (field : MsgField) → field.ArraysFilled →
    Covers field.maxCdrSize field.longestEnd
  | .mk _ fieldType, filled => fieldType.covers filled

/-- With no empty array to be aligned, `max_cdr_size` is enough. -/
theorem covers_fields : (fields : List MsgField) → ArraysFilled fields →
    Covers (maxCdrSize fields) (longestEnd fields)
  | [], _ => fun _ _ knows => ⟨Nat.le_refl _, knows⟩
  | field :: fields, filled => by
      intro pos offset knows
      have first := field.covers filled.1 pos offset knows
      have rest := covers_fields fields filled.2 _ _ first.2
      rw [maxCdrSize, longestEnd]
      exact ⟨by omega, rest.2⟩

end

theorem longestPayload_le {topic : Topic} (filled : ArraysFilled topic.fields) :
    longestPayload topic ≤ maxPayloadSize topic := by
  have covers := (covers_fields topic.fields filled _ _ CdrPos.knows_start).1
  rw [Nat.zero_add] at covers
  exact Nat.add_le_add_left covers cdrEncapHeaderLen

/-! ## Publishing -/

/-- The part of `payload_buffer` after the encapsulation header. -/
def payloadSpace (board : Board) :
    Buffer UInt8 (nrosBufferSize - Board.cdrEncapHeader.length) where
  cells := board.tx.payloadBuffer.cells.drop Board.cdrEncapHeader.length
  length_eq := by rw [List.length_drop, board.tx.payloadBuffer.length_eq]

/-- The topic's serializer, called by `nros_publish` in its buffer. -/
def serializeMessage (topic : Topic) (object : StructObject topic.fields)
    (board : Board) : Board.SerializeResult :=
  let serialized :=
    serializeStruct topic.fields object (init (payloadSpace board))
  { ok := serialized.1
    bytes := serialized.2.written
    fits := by
      rw [UcdrBuffer.written, Buffer.length_take]
      exact Nat.min_le_right _ _ }

/-- Every value can be published, on every board that is idle and has
registered. -/
def AlwaysPublishes (topic : Topic) : Prop :=
  ∀ object, StructIsValue topic.fields object →
    ∀ board : Board, board.tx.state = .idle →
      board.registrationComplete = true → ∀ topicId,
        (serializeMessage topic object board).ok = true ∧
          (board.nrosPublish topicId
            (serializeMessage topic object board)).1 = true

/-- A message fits if and only if its chunks end early enough. -/
theorem serializeMessage_fits_iff (topic : Topic)
    (object : StructObject topic.fields)
    (isValue : StructIsValue topic.fields object) (board : Board) :
    (serializeMessage topic object board).Fits ↔
      cdrEncapHeaderLen + Chunk.endOf (structChunks topic.fields object) 0 ≤
        nrosMaxPayload := by
  have emits : Emits (fun ub : UcdrBuffer
      (nrosBufferSize - Board.cdrEncapHeader.length) =>
        serializeStruct topic.fields object ub) _ :=
    emits_struct topic.fields object isValue
  have ready := ready_init (payloadSpace board)
  have space : nrosBufferSize - Board.cdrEncapHeader.length = 1020 := rfl
  have limit : nrosMaxPayload = 1016 := rfl
  have header : cdrEncapHeaderLen = 4 := rfl
  by_cases fits : Chunk.endOf (structChunks topic.fields object) 0 ≤
      nrosBufferSize - Board.cdrEncapHeader.length
  · have ok := emits.succeeds ready fits
    have size := (emits.written (payloadSpace board) fits).1
    constructor
    · intro small
      have total := small.2
      rw [show (serializeMessage topic object board).bytes.length = _
        from size] at total
      exact total
    · intro small
      refine ⟨ok, ?_⟩
      rw [show (serializeMessage topic object board).bytes.length = _
        from size]
      exact small
  · have failed := emits.full ready (Nat.lt_of_not_le fits)
    constructor
    · intro small
      have ok := small.1
      rw [show (serializeMessage topic object board).ok = _ from failed]
        at ok
      cases ok
    · intro small
      omega

theorem alwaysPublishes_iff (topic : Topic) :
    AlwaysPublishes topic ↔ longestPayload topic ≤ nrosMaxPayload := by
  constructor
  · intro always
    have published := (always (fullStruct topic.fields)
      (fullStruct_isValue topic.fields)
      { Board.powerUp with registrationComplete := true } rfl rfl 127).2
    obtain ⟨_, _, fits⟩ := (Board.publish_eq_true_iff _ _ _).mp published
    rw [serializeMessage_fits_iff _ _ (fullStruct_isValue topic.fields),
      endOf_fullStruct] at fits
    exact fits
  · intro short object isValue board idle complete topicId
    have ends := endOf_structChunks_le topic.fields object isValue
      (Nat.le_refl 0)
    have fits : (serializeMessage topic object board).Fits := by
      rw [serializeMessage_fits_iff topic object isValue]
      exact Nat.le_trans (Nat.add_le_add_left ends _) short
    exact ⟨fits.1, (board.publish_eq_true_iff topicId _).mpr
      ⟨idle, complete, fits⟩⟩

/-- What passes the compile-time check can always be published if and only if
its longest message fits; without empty arrays of wider elements the check is
enough. -/
theorem checked_publishes_iff (topic : Topic) (checked : PayloadCheck topic) :
    (AlwaysPublishes topic ↔ longestPayload topic ≤ nrosMaxPayload) ∧
      (ArraysFilled topic.fields → AlwaysPublishes topic) := by
  refine ⟨alwaysPublishes_iff topic, fun filled => ?_⟩
  rw [alwaysPublishes_iff]
  exact Nat.le_trans (longestPayload_le filled) checked

/-- 1009 bytes, then an array without elements. -/
def emptyTail : Topic where
  name := "gauge".toList
  topicType := .publisher
  msgType := "demo_msgs/msg/Gauge".toList
  qos := .default
  fields :=
    [.mk "samples".toList (.primArray .float64 126),
      .mk "count".toList (.primitive .uint8),
      .mk "extra".toList (.primArray .float64 0)]

theorem emptyTail_checked : PayloadCheck emptyTail := by decide +kernel

theorem checked_publishes_iff_emptyTail :
    (AlwaysPublishes emptyTail ↔ longestPayload emptyTail ≤ nrosMaxPayload) ∧
      (ArraysFilled emptyTail.fields → AlwaysPublishes emptyTail) :=
  checked_publishes_iff emptyTail emptyTail_checked

/-- The check passes and the message never fits: its last array is aligned to
1016 bytes and four bytes of header come on top. -/
theorem not_checked_publishes :
    emptyTail.topicType = .publisher ∧ PayloadCheck emptyTail ∧
      ¬ AlwaysPublishes emptyTail := by
  refine ⟨rfl, emptyTail_checked, ?_⟩
  rw [alwaysPublishes_iff]
  decide

end NanoRos.Codegen
