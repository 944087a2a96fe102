import NanoRos.Codegen.CdrEncoding
import NanoRos.Codegen.PayloadFits

/-!
# Arrays of strings

For a field `string[N]` the parser hands over an array of `PrimType::String`,
and `max_cdr_size` reckons with `N` strings.  The struct, the serializer and
the deserializer take it for an array of `char`.
-/

namespace NanoRos.Codegen

open UcdrBuffer

/-! ## Messages with arrays of strings -/

/-- The elements of an array: strings in `char[256]` each, or the bytes. -/
structure RosArray (prim : PrimType) (len : Nat) where
  strings : prim = .string → Buffer (Buffer UInt8 256) len
  bytes : prim ≠ .string → Buffer UInt8 (len * prim.cType.size)

mutual

/-- A field as ROS has it: an array of strings is so many strings. -/
def FieldType.RosObject : FieldType → Type
  | .primitive prim => Buffer UInt8 prim.memberSize
  | .primArray prim len => RosArray prim len
  | .nested _ fields => RosStruct fields
  | .nestedArray _ fields len => Buffer (RosStruct fields) len

def MsgField.RosObject : MsgField → Type
  | .mk _ fieldType => fieldType.RosObject

def RosStruct : List MsgField → Type
  | [] => Unit
  | field :: fields => field.RosObject × RosStruct fields

end

mutual

/-- Every string ends within its 256 bytes, and a `bool` is 0 or 1. -/
def FieldType.RosIsValue : (fieldType : FieldType) → fieldType.RosObject →
    Prop
  | .primitive prim, object => prim.IsValue object.cells
  | .primArray _ _, object =>
      ∀ isString, ∀ string ∈ (object.strings isString).cells,
        0 ∈ string.cells
  | .nested _ fields, object => RosStructIsValue fields object
  | .nestedArray _ fields _, object =>
      ∀ element ∈ object.cells, RosStructIsValue fields element

def MsgField.RosIsValue : (field : MsgField) → field.RosObject → Prop
  | .mk _ fieldType, object => fieldType.RosIsValue object

def RosStructIsValue : (fields : List MsgField) → RosStruct fields → Prop
  | [], _ => True
  | field :: fields, object =>
      field.RosIsValue object.1 ∧ RosStructIsValue fields object.2

end

/-- The chunks of one string of an array: its length and its bytes. -/
def stringChunks (string : Buffer UInt8 256) : List (Chunk UInt8) :=
  PrimType.string.chunks string.cells

/-- Strings one after the other, or the bytes as one block. -/
def RosArray.chunks {prim : PrimType} {len : Nat}
    (object : RosArray prim len) : List (Chunk UInt8) :=
  if isString : prim = .string then
    (object.strings isString).cells.flatMap stringChunks
  else
    [arrayChunk prim.cType (object.bytes isString)]

mutual

def FieldType.rosChunks : (fieldType : FieldType) → fieldType.RosObject →
    List (Chunk UInt8)
  | .primitive prim, object => prim.chunks object.cells
  | .primArray _ _, object => object.chunks
  | .nested _ fields, object => rosStructChunks fields object
  | .nestedArray _ fields _, object =>
      object.cells.flatMap (rosStructChunks fields)

def MsgField.rosChunks : (field : MsgField) → field.RosObject →
    List (Chunk UInt8)
  | .mk _ fieldType, object => fieldType.rosChunks object

def rosStructChunks : (fields : List MsgField) → RosStruct fields →
    List (Chunk UInt8)
  | [], _ => []
  | field :: fields, object =>
      field.rosChunks object.1 ++ rosStructChunks fields object.2

end

/-- The bytes of a message after the encapsulation header: what ROS expects,
with the padding that Micro-CDR puts before an array without elements. -/
def rosEncoding (fields : List MsgField) (message : RosStruct fields) :
    List (Option UInt8) :=
  Chunk.layout (rosStructChunks fields message) 0

/-- Every message has a place in the generated struct from which the generated
serializer writes it as ROS expects. -/
def HandlesStringArrays (fields : List MsgField) : Prop :=
  ∃ store : RosStruct fields → StructObject fields,
    ∀ message, RosStructIsValue fields message →
      StructIsValue fields (store message) ∧
        ∀ (capacity : Nat) (memory : Buffer UInt8 capacity),
          (rosEncoding fields message).length ≤ capacity →
            let serialized :=
              serializeStruct fields (store message) (init memory)
            serialized.1 = true ∧
              serialized.2.written.length =
                (rosEncoding fields message).length ∧
                Chunk.Agrees serialized.2.written
                  (rosEncoding fields message)

mutual

/-- Every array of strings is empty, or lies in an empty array of messages. -/
def FieldType.StringArraysEmpty : FieldType → Prop
  | .primitive _ => True
  | .primArray prim len => prim = .string → len = 0
  | .nested _ fields => StringArraysEmpty fields
  | .nestedArray _ fields len => len = 0 ∨ StringArraysEmpty fields

def MsgField.StringArraysEmpty : MsgField → Prop
  | .mk _ fieldType => fieldType.StringArraysEmpty

def StringArraysEmpty : List MsgField → Prop
  | [] => True
  | field :: fields => field.StringArraysEmpty ∧ StringArraysEmpty fields

end

/-! ## Messages that have a place -/

/-- The member for an array; that for an array of strings is left blank. -/
def RosArray.store {prim : PrimType} {len : Nat} (object : RosArray prim len) :
    Buffer UInt8 (len * prim.cType.size) :=
  if isString : prim = .string then Buffer.filled _ 0
  else object.bytes isString

mutual

/-- The struct that holds a message up to its arrays of strings. -/
def FieldType.store : (fieldType : FieldType) → fieldType.RosObject →
    fieldType.Object
  | .primitive _, object => object
  | .primArray _ _, object => object.store
  | .nested _ fields, object => storeStruct fields object
  | .nestedArray _ fields _, object =>
      ⟨object.cells.map (storeStruct fields), by
        rw [List.length_map, object.length_eq]⟩

def MsgField.store : (field : MsgField) → field.RosObject → field.Object
  | .mk _ fieldType, object => fieldType.store object

def storeStruct : (fields : List MsgField) → RosStruct fields →
    StructObject fields
  | [], _ => ()
  | field :: fields, object => (field.store object.1, storeStruct fields object.2)

end

mutual

theorem FieldType.store_isValue : (fieldType : FieldType) →
    (object : fieldType.RosObject) → fieldType.RosIsValue object →
      fieldType.IsValue (fieldType.store object)
  | .primitive _, _, isValue => isValue
  | .primArray _ _, _, _ => trivial
  | .nested _ fields, object, isValue =>
      storeStruct_isValue fields object isValue
  | .nestedArray _ fields _, object, isValue => fun element member => by
      obtain ⟨source, inside, rfl⟩ := List.mem_map.mp member
      exact storeStruct_isValue fields source (isValue source inside)

theorem MsgField.store_isValue : (field : MsgField) →
    (object : field.RosObject) → field.RosIsValue object →
      field.IsValue (field.store object)
  | .mk _ fieldType, object, isValue => fieldType.store_isValue object isValue

theorem storeStruct_isValue : (fields : List MsgField) →
    (object : RosStruct fields) → RosStructIsValue fields object →
      StructIsValue fields (storeStruct fields object)
  | [], _, _ => trivial
  | field :: fields, object, isValue =>
      ⟨field.store_isValue object.1 isValue.1,
        storeStruct_isValue fields object.2 isValue.2⟩

end

/-- Without strings in arrays, what is stored is laid out like the message. -/
theorem RosArray.layout_chunks {prim : PrimType} {len : Nat}
    (empty : prim = .string → len = 0) (object : RosArray prim len)
    (pos : Nat) :
    Chunk.layout [arrayChunk prim.cType object.store] pos =
      Chunk.layout object.chunks pos := by
  by_cases isString : prim = .string
  · subst isString
    have none_ : len = 0 := empty rfl
    subst none_
    have bytes : object.store.cells = [] :=
      List.length_eq_zero_iff.mp (object.store.length_eq.trans (Nat.zero_mul _))
    have strings : (object.strings rfl).cells = [] :=
      List.length_eq_zero_iff.mp (object.strings rfl).length_eq
    have start : alignUp PrimType.string.cType.size pos = pos :=
      alignUp_one pos
    rw [RosArray.chunks, dif_pos rfl, strings]
    simp [Chunk.layout, arrayChunk, bytes, start]
  · rw [RosArray.chunks, dif_neg isString, RosArray.store, dif_neg isString]

mutual

theorem FieldType.layout_store : (fieldType : FieldType) →
    fieldType.StringArraysEmpty → (object : fieldType.RosObject) → ∀ pos,
      Chunk.layout (fieldType.chunks (fieldType.store object)) pos =
        Chunk.layout (fieldType.rosChunks object) pos
  | .primitive _, _, _, _ => rfl
  | .primArray _ _, empty, object, pos => object.layout_chunks empty pos
  | .nested _ fields, empty, object, pos =>
      layout_storeStruct fields empty object pos
  | .nestedArray _ fields _, empty, object, pos => by
      rcases empty with none_ | empty
      · have cells : object.cells = [] :=
          List.length_eq_zero_iff.mp (object.length_eq.trans none_)
        simp [FieldType.chunks, FieldType.store, FieldType.rosChunks, cells]
      · rw [FieldType.chunks, FieldType.store, FieldType.rosChunks,
          List.flatMap_map]
        exact Chunk.layout_flatMap_congr (fun element _ pos =>
          layout_storeStruct fields empty element pos) pos

theorem MsgField.layout_store : (field : MsgField) →
    field.StringArraysEmpty → (object : field.RosObject) → ∀ pos,
      Chunk.layout (field.chunks (field.store object)) pos =
        Chunk.layout (field.rosChunks object) pos
  | .mk _ fieldType, empty, object, pos =>
      fieldType.layout_store empty object pos

theorem layout_storeStruct : (fields : List MsgField) →
    StringArraysEmpty fields → (object : RosStruct fields) → ∀ pos,
      Chunk.layout (structChunks fields (storeStruct fields object)) pos =
        Chunk.layout (rosStructChunks fields object) pos
  | [], _, _, _ => rfl
  | field :: fields, empty, object, pos =>
      Chunk.layout_append_congr
        (fun pos => field.layout_store empty.1 object.1 pos)
        (fun pos => layout_storeStruct fields empty.2 object.2 pos) pos

end

theorem handlesStringArrays_of_empty {fields : List MsgField}
    (empty : StringArraysEmpty fields) : HandlesStringArrays fields := by
  refine ⟨storeStruct fields, ?_⟩
  intro message isMessage
  have isValue := storeStruct_isValue fields message isMessage
  refine ⟨isValue, ?_⟩
  intro capacity memory enough
  have emits : Emits (fun ub : UcdrBuffer capacity =>
    serializeStruct fields (storeStruct fields message) ub) _ :=
    emits_struct fields (storeStruct fields message) isValue
  exact emits.encoding memory (layout_storeStruct fields empty message 0)
    enough

/-! ## A message that has none

The longest message of a type with strings in an array is longer than
anything the generated serializer writes. -/

def RosArray.full (prim : PrimType) (len : Nat) : RosArray prim len where
  strings := fun _ => Buffer.filled len PrimType.string.full
  bytes := fun _ => Buffer.filled _ 1

mutual

/-- Every string with 255 characters. -/
def FieldType.rosFull : (fieldType : FieldType) → fieldType.RosObject
  | .primitive prim => prim.full
  | .primArray prim len => RosArray.full prim len
  | .nested _ fields => rosFullStruct fields
  | .nestedArray _ fields _ => Buffer.filled _ (rosFullStruct fields)

def MsgField.rosFull : (field : MsgField) → field.RosObject
  | .mk _ fieldType => fieldType.rosFull

def rosFullStruct : (fields : List MsgField) → RosStruct fields
  | [] => ()
  | field :: fields => (field.rosFull, rosFullStruct fields)

end

mutual

theorem FieldType.rosFull_isValue : (fieldType : FieldType) →
    fieldType.RosIsValue fieldType.rosFull
  | .primitive prim => prim.full_isValue
  | .primArray _ _ => fun _ string member => by
      rw [List.eq_of_mem_replicate member]
      exact PrimType.string.full_isValue
  | .nested _ fields => rosFullStruct_isValue fields
  | .nestedArray _ fields _ => fun element member => by
      rw [List.eq_of_mem_replicate member]
      exact rosFullStruct_isValue fields

theorem MsgField.rosFull_isValue : (field : MsgField) →
    field.RosIsValue field.rosFull
  | .mk _ fieldType => fieldType.rosFull_isValue

theorem rosFullStruct_isValue : (fields : List MsgField) →
    RosStructIsValue fields (rosFullStruct fields)
  | [] => trivial
  | field :: fields => ⟨field.rosFull_isValue, rosFullStruct_isValue fields⟩

end

/-- A lead of whole blocks of eight is not lost. -/
def KeepsLead (ends rosEnds : Nat → Nat) : Prop :=
  ∀ lead, 8 ∣ lead → ∀ pos rosPos, pos + lead ≤ rosPos →
    ends pos + lead ≤ rosEnds rosPos

/-- A lead of eight is gained. -/
def GainsLead (ends rosEnds : Nat → Nat) : Prop :=
  ∀ pos rosPos, pos ≤ rosPos → ends pos + 8 ≤ rosEnds rosPos

theorem KeepsLead.iterate {ends rosEnds : Nat → Nat}
    (keeps : KeepsLead ends rosEnds) (count : Nat) :
    KeepsLead ends^[count] rosEnds^[count] := by
  induction count with
  | zero => exact fun _ _ _ _ le => le
  | succ count induction =>
      intro lead blocks pos rosPos le
      exact induction lead blocks _ _ (keeps lead blocks pos rosPos le)

theorem GainsLead.iterate {ends rosEnds : Nat → Nat}
    (keeps : KeepsLead ends rosEnds) (gains : GainsLead ends rosEnds)
    {count : Nat} (some_ : count ≠ 0) :
    GainsLead ends^[count] rosEnds^[count] := by
  obtain ⟨count, rfl⟩ := Nat.exists_eq_succ_of_ne_zero some_
  intro pos rosPos le
  exact keeps.iterate count 8 (Nat.dvd_refl 8) _ _ (gains pos rosPos le)

/-- An aligned item of a fixed size keeps the lead. -/
theorem keepsLead_aligned {align : Nat} (width : IsWidth align)
    (size : Nat) :
    KeepsLead (fun pos => alignUp align pos + size)
      (fun pos => alignUp align pos + size) := by
  intro lead blocks pos rosPos le
  have divides : align ∣ lead := by
    have eight : align ∣ 8 := by
      rcases width with rfl | rfl | rfl | rfl <;> decide
    exact Nat.dvd_trans eight blocks
  have shifted := alignUp_add divides pos
  have mono := alignUp_mono width.positive le
  dsimp only
  omega

theorem PrimType.keepsLead (prim : PrimType) :
    KeepsLead prim.longestEnd prim.longestEnd := by
  by_cases isString : prim = .string
  · rw [isString]
    have prefixWidth : IsWidth 4 := .inr (.inr (.inl rfl))
    exact keepsLead_aligned prefixWidth (4 + 256)
  · rw [PrimType.longestEnd_eq isString]
    exact keepsLead_aligned prim.cType.isWidth _

/-- Where the longest array of strings ends. -/
theorem le_longestEnd_string (count pos : Nat) :
    pos + count * 260 ≤ PrimType.string.longestEnd^[count] pos := by
  induction count generalizing pos with
  | zero => rw [Nat.zero_mul]; exact Nat.le_refl pos
  | succ count induction =>
      have rest := induction (PrimType.string.longestEnd pos)
      have start := le_alignUp 4 pos
      rw [Function.iterate_succ_apply]
      simp only [PrimType.longestEnd] at rest ⊢
      omega

theorem RosArray.endOf_full (prim : PrimType) (len pos : Nat) :
    Chunk.endOf (RosArray.full prim len).chunks pos =
      if prim = .string then PrimType.string.longestEnd^[len] pos
      else alignUp prim.cType.size pos + len * prim.cType.size := by
  by_cases isString : prim = .string
  · rw [if_pos isString, RosArray.chunks, dif_pos isString]
    have each (pos : Nat) :
        Chunk.endOf (stringChunks PrimType.string.full) pos =
          PrimType.string.longestEnd pos := PrimType.string.endOf_full pos
    exact Chunk.endOf_flatMap_replicate each len pos
  · rw [if_neg isString, RosArray.chunks, dif_neg isString]
    exact congrArg (alignUp prim.cType.size pos + ·)
      (Buffer.filled (len * prim.cType.size) 1).length_eq

theorem FieldType.keepsLead_primArray (prim : PrimType) (len : Nat) :
    KeepsLead (FieldType.primArray prim len).longestEnd
      (Chunk.endOf (RosArray.full prim len).chunks) := by
  intro lead blocks pos rosPos le
  rw [RosArray.endOf_full]
  by_cases isString : prim = .string
  · have ends := le_longestEnd_string len rosPos
    rw [if_pos isString, FieldType.longestEnd, isString]
    simp only [PrimType.cType, CType.size, alignUp_one]
    omega
  · rw [if_neg isString]
    exact keepsLead_aligned prim.cType.isWidth _ lead blocks pos rosPos le

theorem FieldType.gainsLead_primArray {len : Nat} (some_ : len ≠ 0) :
    GainsLead (FieldType.primArray .string len).longestEnd
      (Chunk.endOf (RosArray.full .string len).chunks) := by
  intro pos rosPos le
  have ends := le_longestEnd_string len rosPos
  rw [RosArray.endOf_full, if_pos rfl, FieldType.longestEnd]
  simp only [PrimType.cType, CType.size, alignUp_one]
  omega

mutual

theorem FieldType.keepsLead : (fieldType : FieldType) →
    KeepsLead fieldType.longestEnd
      (Chunk.endOf (fieldType.rosChunks fieldType.rosFull))
  | .primitive prim => by
      intro lead blocks pos rosPos le
      have keeps := prim.keepsLead lead blocks pos rosPos le
      rw [← prim.endOf_full rosPos] at keeps
      exact keeps
  | .primArray prim len => FieldType.keepsLead_primArray prim len
  | .nested _ fields => keepsLead_struct fields
  | .nestedArray _ fields len => by
      have ends : Chunk.endOf ((List.replicate len (rosFullStruct fields)).flatMap
          (rosStructChunks fields)) =
            (Chunk.endOf (rosStructChunks fields (rosFullStruct fields)))^[len] :=
        funext (Chunk.endOf_flatMap_replicate (fun _ => rfl) len)
      have keeps := (keepsLead_struct fields).iterate len
      rw [← ends] at keeps
      exact keeps

theorem MsgField.keepsLead : (field : MsgField) →
    KeepsLead field.longestEnd (Chunk.endOf (field.rosChunks field.rosFull))
  | .mk _ fieldType => fieldType.keepsLead

theorem keepsLead_struct : (fields : List MsgField) →
    KeepsLead (longestEnd fields)
      (Chunk.endOf (rosStructChunks fields (rosFullStruct fields)))
  | [] => fun _ _ _ _ le => le
  | field :: fields => by
      intro lead blocks pos rosPos le
      rw [longestEnd, rosStructChunks, Chunk.endOf_append]
      exact keepsLead_struct fields lead blocks _ _
        (field.keepsLead lead blocks pos rosPos le)

end

mutual

theorem FieldType.gainsLead : (fieldType : FieldType) →
    ¬fieldType.StringArraysEmpty →
      GainsLead fieldType.longestEnd
        (Chunk.endOf (fieldType.rosChunks fieldType.rosFull))
  | .primitive _, some_ => absurd trivial some_
  | .primArray prim len, some_ => by
      have parts : prim = .string ∧ len ≠ 0 := by
        simpa [FieldType.StringArraysEmpty] using some_
      rw [parts.1]
      exact FieldType.gainsLead_primArray parts.2
  | .nested _ fields, some_ => gainsLead_struct fields some_
  | .nestedArray _ fields len, some_ => by
      have parts := not_or.mp some_
      have ends : Chunk.endOf ((List.replicate len (rosFullStruct fields)).flatMap
          (rosStructChunks fields)) =
            (Chunk.endOf (rosStructChunks fields (rosFullStruct fields)))^[len] :=
        funext (Chunk.endOf_flatMap_replicate (fun _ => rfl) len)
      have gains := (gainsLead_struct fields parts.2).iterate
        (keepsLead_struct fields) parts.1
      rw [← ends] at gains
      exact gains

theorem MsgField.gainsLead : (field : MsgField) → ¬field.StringArraysEmpty →
    GainsLead field.longestEnd (Chunk.endOf (field.rosChunks field.rosFull))
  | .mk _ fieldType, some_ => fieldType.gainsLead some_

theorem gainsLead_struct : (fields : List MsgField) →
    ¬StringArraysEmpty fields →
      GainsLead (longestEnd fields)
        (Chunk.endOf (rosStructChunks fields (rosFullStruct fields)))
  | [], some_ => absurd trivial some_
  | field :: fields, some_ => by
      intro pos rosPos le
      rw [longestEnd, rosStructChunks, Chunk.endOf_append]
      rcases Classical.not_and_iff_not_or_not.mp some_ with here | later
      · exact keepsLead_struct fields 8 (Nat.dvd_refl 8) _ _
          (field.gainsLead here pos rosPos le)
      · have start := field.keepsLead 0 (Nat.dvd_zero 8) pos rosPos le
        exact gainsLead_struct fields later _ _ start

end

/-- What is written is no longer than the longest struct, and the longest
message is. -/
theorem stringArraysEmpty_of_handles {fields : List MsgField}
    (handles : HandlesStringArrays fields) : StringArraysEmpty fields := by
  by_contra some_
  obtain ⟨store, stored⟩ := handles
  obtain ⟨isValue, writes⟩ := stored _ (rosFullStruct_isValue fields)
  have total := Chunk.length_layout
    (rosStructChunks fields (rosFullStruct fields)) 0
  have written := writes _
    (Buffer.filled (rosEncoding fields (rosFullStruct fields)).length 0)
    (Nat.le_refl _)
  have sent := endOf_structChunks_le fields _ isValue (Nat.le_refl 0)
  have lead := gainsLead_struct fields some_ 0 0 (Nat.le_refl 0)
  have emits : Emits (fun ub : UcdrBuffer
      (rosEncoding fields (rosFullStruct fields)).length =>
        serializeStruct fields (store (rosFullStruct fields)) ub) _ :=
    emits_struct fields _ isValue
  have fits := emits.fits (ready_init _) written.1
  have size := (emits.written _ fits).1.symm.trans written.2.1
  rw [rosEncoding] at size
  omega

/-- The generated code handles the arrays of strings of a message type exactly
when they are all empty. -/
theorem handles_string_arrays_iff (fields : List MsgField) :
    HandlesStringArrays fields ↔ StringArraysEmpty fields := by
  constructor
  · exact stringArraysEmpty_of_handles
  · exact handlesStringArrays_of_empty

/-- The message `string[1] names`. -/
def oneName : List MsgField :=
  [.mk "names".toList (.primArray .string 1)]

/-- There are 260 bytes reckoned for the string, and one byte in the struct. -/
theorem not_handles_string_arrays :
    (maxCdrSize oneName { r := 0, m := 8 }).1 = 260 ∧
      StructObject oneName = (Buffer UInt8 1 × Unit) ∧
        ¬HandlesStringArrays oneName := by
  refine ⟨by decide, rfl, ?_⟩
  intro handles
  have empty := stringArraysEmpty_of_handles handles
  exact absurd (empty.1 rfl) (by decide)

end NanoRos.Codegen
