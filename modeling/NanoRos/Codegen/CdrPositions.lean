import NanoRos.Codegen.PayloadFits

/-!
# Where the fields lie

`max_cdr_size` walks through a message like the serializer does.  At every
field what it knows of the position is true, so that its sum is a bound, and
the exact size as long as no string has made the position unknown.
-/

namespace NanoRos.Codegen

open UcdrBuffer

/-! ## The fields a serializer comes to -/

section Positions

variable {capacity : Nat}

/-- The loop over an array of messages. -/
def positionsEach {α : Type}
    (positions : α → CdrPos → UcdrBuffer capacity →
      List (CdrPos × UcdrBuffer capacity))
    (size : CdrPos → Nat × CdrPos)
    (serialize : α → UcdrBuffer capacity → Bool × UcdrBuffer capacity) :
    List α → CdrPos → UcdrBuffer capacity →
      List (CdrPos × UcdrBuffer capacity)
  | [], _, _ => []
  | element :: elements, pos, ub =>
      positions element pos ub ++
        positionsEach positions size serialize elements (size pos).2
          (serialize element ub).2

mutual

/-- The fields inside a field. -/
def FieldType.positions : (fieldType : FieldType) → fieldType.Object →
    CdrPos → UcdrBuffer capacity → List (CdrPos × UcdrBuffer capacity)
  | .primitive _, _, _, _ => []
  | .primArray _ _, _, _, _ => []
  | .nested _ fields, object, pos, ub => structPositions fields object pos ub
  | .nestedArray _ fields _, object, pos, ub =>
      positionsEach (structPositions fields) (maxCdrSize fields)
        (serializeStruct fields) object.cells pos ub

def MsgField.positions : (field : MsgField) → field.Object →
    CdrPos → UcdrBuffer capacity → List (CdrPos × UcdrBuffer capacity)
  | .mk _ fieldType, object, pos, ub => fieldType.positions object pos ub

/-- At each field, the position `max_cdr_size` has come to and the buffer the
serializer has come to. -/
def structPositions : (fields : List MsgField) → StructObject fields →
    CdrPos → UcdrBuffer capacity → List (CdrPos × UcdrBuffer capacity)
  | [], _, _, _ => []
  | field :: fields, object, pos, ub =>
      (pos, ub) :: field.positions object.1 pos ub ++
        structPositions fields object.2 (field.maxCdrSize pos).2
          (field.serialize object.1 ub).2

end

end Positions

/-! ## Real ends -/

theorem PrimType.endOf_chunks {prim : PrimType} (other : prim ≠ .string)
    (object : List UInt8) (pos : Nat) :
    Chunk.endOf (prim.chunks object) pos = prim.longestEnd pos := by
  cases prim with
  | string => exact absurd rfl other
  | _ => exact congrArg (_ + ·) (length_littleEndian _ _)

theorem PrimType.covers_chunks (prim : PrimType)
    (object : Buffer UInt8 prim.memberSize)
    (isValue : prim.IsValue object.cells) :
    Covers (CdrPos.addPrim prim) (Chunk.endOf (prim.chunks object.cells)) := by
  intro pos offset knows
  have longest := prim.covers pos offset knows
  have le := prim.endOf_chunks_le object isValue (Nat.le_refl offset)
  refine ⟨Nat.le_trans le longest.1, ?_⟩
  by_cases string : prim = .string
  · have unknown : (CdrPos.addPrim prim pos).2 = { r := 0, m := 1 } := by
      rw [string]
      rfl
    rw [unknown]
    exact CdrPos.knows_unknown _
  · rw [PrimType.endOf_chunks string]
    exact longest.2

theorem endOf_arrayChunk (cType : CType) {len : Nat}
    (object : Buffer UInt8 (len * cType.size)) :
    Chunk.endOf [arrayChunk cType object] =
      fun pos => alignUp cType.size pos + len * cType.size := by
  funext pos
  exact congrArg (alignUp cType.size pos + ·) object.length_eq

/-- The sum over a loop covers the elements it goes through. -/
theorem covers_each {α : Type} {size : CdrPos → Nat × CdrPos}
    {chunks : α → List (Chunk UInt8)} {elements : List α}
    (covers : ∀ element ∈ elements,
      Covers size (Chunk.endOf (chunks element))) :
    Covers (sumRepeated size elements.length)
      (Chunk.endOf (elements.flatMap chunks)) := by
  induction elements with
  | nil => exact fun _ _ knows => ⟨Nat.le_refl _, knows⟩
  | cons element elements induction =>
      intro pos offset knows
      have first := covers element List.mem_cons_self pos offset knows
      have rest := induction
        (fun other member => covers other (List.mem_cons_of_mem _ member))
        _ _ first.2
      rw [List.flatMap_cons, Chunk.endOf_append, List.length_cons,
        sumRepeated]
      exact ⟨by omega, rest.2⟩

mutual

theorem FieldType.covers_chunks : (fieldType : FieldType) →
    fieldType.ArraysFilled → (object : fieldType.Object) →
      fieldType.IsValue object →
        Covers fieldType.maxCdrSize (Chunk.endOf (fieldType.chunks object))
  | .primitive prim, _, object, isValue => prim.covers_chunks object isValue
  | .primArray prim len, filled, object, _ => by
      have covers := covers_primArray prim filled
      rw [← endOf_arrayChunk prim.cType object] at covers
      exact covers
  | .nested _ fields, filled, object, isValue =>
      covers_structChunks fields filled object isValue
  | .nestedArray _ fields _, filled, object, isValue => by
      have covers := covers_each fun element member =>
        covers_structChunks fields filled element (isValue element member)
      rw [object.length_eq] at covers
      exact covers

theorem MsgField.covers_chunks : (field : MsgField) →
    field.ArraysFilled → (object : field.Object) → field.IsValue object →
      Covers field.maxCdrSize (Chunk.endOf (field.chunks object))
  | .mk _ fieldType, filled, object, isValue =>
      fieldType.covers_chunks filled object isValue

theorem covers_structChunks : (fields : List MsgField) →
    ArraysFilled fields → (object : StructObject fields) →
      StructIsValue fields object →
        Covers (maxCdrSize fields) (Chunk.endOf (structChunks fields object))
  | [], _, _, _ => fun _ _ knows => ⟨Nat.le_refl _, knows⟩
  | field :: fields, filled, object, isValue => by
      intro pos offset knows
      have first := field.covers_chunks filled.1 object.1 isValue.1 pos offset
        knows
      have rest := covers_structChunks fields filled.2 object.2 isValue.2 _ _
        first.2
      rw [structChunks, Chunk.endOf_append, maxCdrSize]
      exact ⟨by omega, rest.2⟩

end

/-! ## Without strings -/

mutual

/-- There is no string in the tree. -/
def FieldType.Stringless : FieldType → Prop
  | .primitive prim => prim ≠ .string
  | .primArray prim _ => prim ≠ .string
  | .nested _ fields => Stringless fields
  | .nestedArray _ fields _ => Stringless fields

def MsgField.Stringless : MsgField → Prop
  | .mk _ fieldType => fieldType.Stringless

def Stringless : List MsgField → Prop
  | [] => True
  | field :: fields => field.Stringless ∧ Stringless fields

end

/-- From a position known modulo 8 the size is exact, and the position stays
known modulo 8. -/
def Exact (size : CdrPos → Nat × CdrPos) (ends : Nat → Nat) : Prop :=
  ∀ (pos : CdrPos) (offset : Nat), pos.Knows offset → pos.m = 8 →
    ends offset = offset + (size pos).1 ∧ (size pos).2.m = 8

theorem PrimType.exact {prim : PrimType} (other : prim ≠ .string) :
    Exact (CdrPos.addPrim prim) prim.longestEnd := by
  have width := prim.cType.isWidth
  have added : CdrPos.addPrim prim =
      fun pos => pos.add prim.cType.size prim.cType.size := by
    cases prim with
    | string => exact absurd rfl other
    | _ => rfl
  intro pos offset knows eight
  have le : prim.cType.size ≤ pos.m := by
    rw [eight]
    rcases width with size | size | size | size <;> omega
  have padding := knows.pad_eq width le
  rw [PrimType.longestEnd_eq other, added]
  simp only [CdrPos.add, if_neg (Nat.not_lt.mpr le)]
  exact ⟨by omega, eight⟩

theorem exact_repeated {element : CdrPos → Nat × CdrPos}
    {ends : Nat → Nat} (covers : Covers element ends)
    (exact_ : Exact element ends) (count : Nat) :
    Exact (sumRepeated element count) ends^[count] := by
  induction count with
  | zero => exact fun _ _ _ eight => ⟨rfl, eight⟩
  | succ count induction =>
      intro pos offset knows eight
      have first := exact_ pos offset knows eight
      have rest := induction _ _ (covers pos offset knows).2 first.2
      rw [Function.iterate_succ_apply, sumRepeated]
      exact ⟨by omega, rest.2⟩

theorem exact_primArray {prim : PrimType} (other : prim ≠ .string) {len : Nat}
    (filled : prim.cType.size = 1 ∨ 1 ≤ len) :
    Exact (sumRepeated (CdrPos.addPrim prim) len)
      (fun pos => alignUp prim.cType.size pos + len * prim.cType.size) := by
  have exact_ := exact_repeated prim.covers (PrimType.exact other) len
  intro pos offset knows eight
  have elements := exact_ pos offset knows eight
  refine ⟨?_, elements.2⟩
  rw [← elements.1]
  cases len with
  | zero =>
      have byte : prim.cType.size = 1 := by
        rcases filled with byte | some_
        · exact byte
        · omega
      dsimp only
      rw [byte, alignUp_one, Nat.zero_mul]
      rfl
  | succ len =>
      rw [PrimType.longestEnd_eq other, iterate_alignUp prim.size_positive]

theorem exact_each {α : Type} {size : CdrPos → Nat × CdrPos}
    {chunks : α → List (Chunk UInt8)} {elements : List α}
    (covers : ∀ element ∈ elements,
      Covers size (Chunk.endOf (chunks element)))
    (exact_ : ∀ element ∈ elements,
      Exact size (Chunk.endOf (chunks element))) :
    Exact (sumRepeated size elements.length)
      (Chunk.endOf (elements.flatMap chunks)) := by
  induction elements with
  | nil => exact fun _ _ _ eight => ⟨rfl, eight⟩
  | cons element elements induction =>
      intro pos offset knows eight
      have here := covers element List.mem_cons_self pos offset knows
      have first := exact_ element List.mem_cons_self pos offset knows eight
      have rest := induction
        (fun other member => covers other (List.mem_cons_of_mem _ member))
        (fun other member => exact_ other (List.mem_cons_of_mem _ member))
        _ _ here.2 first.2
      rw [List.flatMap_cons, Chunk.endOf_append, List.length_cons,
        sumRepeated]
      exact ⟨by omega, rest.2⟩

mutual

theorem FieldType.exact_chunks : (fieldType : FieldType) →
    fieldType.Stringless → fieldType.ArraysFilled →
      (object : fieldType.Object) → fieldType.IsValue object →
        Exact fieldType.maxCdrSize (Chunk.endOf (fieldType.chunks object))
  | .primitive prim, other, _, object, _ => by
      have ends : Chunk.endOf (prim.chunks object.cells) =
          prim.longestEnd :=
        funext (PrimType.endOf_chunks other object.cells)
      have exact_ := PrimType.exact other
      rw [← ends] at exact_
      exact exact_
  | .primArray prim _, other, filled, object, _ => by
      have exact_ := exact_primArray other filled
      rw [← endOf_arrayChunk prim.cType object] at exact_
      exact exact_
  | .nested _ fields, stringless, filled, object, isValue =>
      exact_structChunks fields stringless filled object isValue
  | .nestedArray _ fields _, stringless, filled, object, isValue => by
      have exact_ := exact_each
        (fun element member =>
          covers_structChunks fields filled element (isValue element member))
        (fun element member => exact_structChunks fields stringless filled
          element (isValue element member))
      rw [object.length_eq] at exact_
      exact exact_

theorem MsgField.exact_chunks : (field : MsgField) →
    field.Stringless → field.ArraysFilled → (object : field.Object) →
      field.IsValue object →
        Exact field.maxCdrSize (Chunk.endOf (field.chunks object))
  | .mk _ fieldType, stringless, filled, object, isValue =>
      fieldType.exact_chunks stringless filled object isValue

theorem exact_structChunks : (fields : List MsgField) →
    Stringless fields → ArraysFilled fields →
      (object : StructObject fields) → StructIsValue fields object →
        Exact (maxCdrSize fields) (Chunk.endOf (structChunks fields object))
  | [], _, _, _, _ => fun _ _ _ eight => ⟨rfl, eight⟩
  | field :: fields, stringless, filled, object, isValue => by
      intro pos offset knows eight
      have here := field.covers_chunks filled.1 object.1 isValue.1 pos offset
        knows
      have first := field.exact_chunks stringless.1 filled.1 object.1
        isValue.1 pos offset knows eight
      have rest := exact_structChunks fields stringless.2 filled.2 object.2
        isValue.2 _ _ here.2 first.2
      rw [structChunks, Chunk.endOf_append, maxCdrSize]
      exact ⟨by omega, rest.2⟩

end

/-! ## At every field -/

section Positions

variable {capacity : Nat}

/-- The place where a field is visited agrees with what is known of it. -/
def VisitKnows (visit : CdrPos × UcdrBuffer capacity) : Prop :=
  visit.1.Knows visit.2.iterator

theorem positionsEach_knows {α : Type}
    {positions : α → CdrPos → UcdrBuffer capacity →
      List (CdrPos × UcdrBuffer capacity)}
    {size : CdrPos → Nat × CdrPos}
    {serialize : α → UcdrBuffer capacity → Bool × UcdrBuffer capacity}
    {chunks : α → List (Chunk UInt8)} {elements : List α}
    (emits : ∀ element ∈ elements, Emits (serialize element) (chunks element))
    (covers : ∀ element ∈ elements,
      Covers size (Chunk.endOf (chunks element)))
    (knows : ∀ element ∈ elements, ∀ {pos : CdrPos}
      {ub : UcdrBuffer capacity}, ub.Ready → pos.Knows ub.offset →
        Chunk.endOf (chunks element) ub.offset ≤ capacity →
          ∀ visit ∈ positions element pos ub, VisitKnows visit)
    {pos : CdrPos} {ub : UcdrBuffer capacity} (ready : ub.Ready)
    (known : pos.Knows ub.offset)
    (fits : Chunk.endOf (elements.flatMap chunks) ub.offset ≤ capacity) :
    ∀ visit ∈ positionsEach positions size serialize elements pos ub,
      VisitKnows visit := by
  induction elements generalizing pos ub with
  | nil => simp [positionsEach]
  | cons element elements induction =>
      have first := emits element List.mem_cons_self
      rw [List.flatMap_cons, Chunk.endOf_append] at fits
      have fitsFirst := Nat.le_trans (Chunk.le_endOf _ _) fits
      have next := covers element List.mem_cons_self pos _ known
      rw [← first.offset ready fitsFirst] at fits next
      intro visit member
      rcases List.mem_append.mp member with here | later
      · exact knows element List.mem_cons_self ready known fitsFirst visit here
      · exact induction
          (fun other member => emits other (List.mem_cons_of_mem _ member))
          (fun other member => covers other (List.mem_cons_of_mem _ member))
          (fun other member => knows other (List.mem_cons_of_mem _ member))
          (first.ready ready fitsFirst) next.2 fits visit later

mutual

theorem FieldType.positions_know : (fieldType : FieldType) →
    fieldType.ArraysFilled → (object : fieldType.Object) →
      fieldType.IsValue object → ∀ {pos : CdrPos} {ub : UcdrBuffer capacity},
        ub.Ready → pos.Knows ub.offset →
          Chunk.endOf (fieldType.chunks object) ub.offset ≤ capacity →
            ∀ visit ∈ fieldType.positions object pos ub, VisitKnows visit
  | .primitive _, _, _, _, _, _, _, _, _ => by simp [FieldType.positions]
  | .primArray _ _, _, _, _, _, _, _, _, _ => by simp [FieldType.positions]
  | .nested _ fields, filled, object, isValue, _, _, ready, known, fits =>
      structPositions_know fields filled object isValue ready known fits
  | .nestedArray _ fields _, filled, object, isValue, _, _, ready, known,
      fits =>
      positionsEach_knows
        (fun element member =>
          emits_struct fields element (isValue element member))
        (fun element member =>
          covers_structChunks fields filled element (isValue element member))
        (fun element member _ _ ready known fits =>
          structPositions_know fields filled element (isValue element member)
            ready known fits)
        ready known fits

theorem MsgField.positions_know : (field : MsgField) → field.ArraysFilled →
    (object : field.Object) → field.IsValue object →
      ∀ {pos : CdrPos} {ub : UcdrBuffer capacity},
        ub.Ready → pos.Knows ub.offset →
          Chunk.endOf (field.chunks object) ub.offset ≤ capacity →
            ∀ visit ∈ field.positions object pos ub, VisitKnows visit
  | .mk _ fieldType, filled, object, isValue, _, _, ready, known, fits =>
      fieldType.positions_know filled object isValue ready known fits

/-- The invariant that carries the walk: the buffer is ready, and its offset
is known to the position. -/
theorem structPositions_know : (fields : List MsgField) → ArraysFilled fields →
    (object : StructObject fields) → StructIsValue fields object →
      ∀ {pos : CdrPos} {ub : UcdrBuffer capacity},
        ub.Ready → pos.Knows ub.offset →
          Chunk.endOf (structChunks fields object) ub.offset ≤ capacity →
            ∀ visit ∈ structPositions fields object pos ub, VisitKnows visit
  | [], _, _, _, _, _, _, _, _ => by simp [structPositions]
  | field :: fields, filled, object, isValue, pos, ub, ready, known, fits => by
      have emits : Emits (fun ub : UcdrBuffer capacity =>
        field.serialize object.1 ub) _ := field.emits object.1 isValue.1
      rw [structChunks, Chunk.endOf_append] at fits
      have fitsFirst := Nat.le_trans (Chunk.le_endOf _ _) fits
      have next := field.covers_chunks filled.1 object.1 isValue.1 pos _ known
      rw [← emits.offset ready fitsFirst] at fits next
      intro visit member
      rcases List.mem_cons.mp member with here | inside
      · rw [here, VisitKnows, ← ready.offset]
        exact known
      · rcases List.mem_append.mp inside with nested | later
        · exact field.positions_know filled.1 object.1 isValue.1 ready known
            fitsFirst visit nested
        · exact structPositions_know fields filled.2 object.2 isValue.2
            (emits.ready ready fitsFirst) next.2 fits visit later

end

end Positions

/-! ## The calculation -/

/-- `max_cdr_size` bounds what the serializer writes, into any memory; it is
what is written when there is no string; and at every field that is written
the position is what the calculation takes it to be. -/
theorem max_cdr_size_sound (fields : List MsgField)
    (filled : ArraysFilled fields) (object : StructObject fields)
    (isValue : StructIsValue fields object) {capacity : Nat}
    (memory : Buffer UInt8 capacity) :
    (serializeStruct fields object (init memory)).2.written.length ≤
        (maxCdrSize fields { r := 0, m := 8 }).1 ∧
      ((maxCdrSize fields { r := 0, m := 8 }).1 ≤ capacity →
        (serializeStruct fields object (init memory)).1 = true) ∧
      ((serializeStruct fields object (init memory)).1 = true →
        (Stringless fields →
          (serializeStruct fields object (init memory)).2.written.length =
            (maxCdrSize fields { r := 0, m := 8 }).1) ∧
        ∀ visit ∈ structPositions fields object { r := 0, m := 8 }
            (init memory),
          IsWidth visit.1.m ∧ visit.1.r < visit.1.m ∧
            visit.2.iterator % visit.1.m = visit.1.r) := by
  have emits : Emits (fun ub : UcdrBuffer capacity =>
    serializeStruct fields object ub) _ := emits_struct fields object isValue
  have ready := ready_init memory
  have bound := (covers_structChunks fields filled object isValue _ _
    CdrPos.knows_start).1
  rw [Nat.zero_add] at bound
  refine ⟨?_, ?_, ?_⟩
  · by_cases fits : Chunk.endOf (structChunks fields object) 0 ≤ capacity
    · rw [(emits.written memory fits).1]
      exact bound
    · have inside : (serializeStruct fields object
          (init memory)).2.written.length ≤ capacity := by
        rw [UcdrBuffer.written, Buffer.length_take]
        exact Nat.min_le_right _ _
      omega
  · intro room
    exact emits.succeeds ready (Nat.le_trans bound room)
  · intro ok
    have fits : Chunk.endOf (structChunks fields object) 0 ≤ capacity :=
      emits.fits ready ok
    constructor
    · intro stringless
      have exact_ := (exact_structChunks fields stringless filled object
        isValue _ _ CdrPos.knows_start rfl).1
      rw [Nat.zero_add] at exact_
      rw [(emits.written memory fits).1]
      exact exact_
    · intro visit member
      have knows := structPositions_know fields filled object isValue ready
        CdrPos.knows_start fits visit member
      refine ⟨knows.width, ?_, knows.residue⟩
      rw [← knows.residue]
      exact Nat.mod_lt _ knows.width.positive

theorem arraysFilled_taggedPoints : ArraysFilled taggedPointsFields :=
  ⟨trivial, ⟨trivial, .inr (by decide), trivial⟩, trivial, trivial⟩

theorem max_cdr_size_sound_taggedPoints :
    (serializeStruct taggedPointsFields taggedPoints
        (init (Buffer.filled 512 0))).1 = true ∧
      (serializeStruct taggedPointsFields taggedPoints
        (init (Buffer.filled 512 0))).2.written.length ≤
          (maxCdrSize taggedPointsFields { r := 0, m := 8 }).1 := by
  have sound := max_cdr_size_sound taggedPointsFields
    arraysFilled_taggedPoints taggedPoints taggedPoints_isValue
    (Buffer.filled 512 0)
  exact ⟨sound.2.1 (by decide), sound.1⟩

end NanoRos.Codegen
