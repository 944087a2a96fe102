import Mathlib.Data.List.TakeWhile
import NanoRos.MicroCdrSteps

/-!
# Chunks through Micro-CDR

What a serializing function does is the list of chunks it emits; a
deserializing one reads the chunks that a memory holds.  Both compose by
appending the lists.
-/

namespace NanoRos

namespace UcdrBuffer

variable {capacity : Nat}

/-- The operation writes the chunks from the offset on if they fit, and fails
if they do not. -/
structure Emits
    (operation : UcdrBuffer capacity → Bool × UcdrBuffer capacity)
    (chunks : List (Chunk UInt8)) : Prop where
  succeeds {ub : UcdrBuffer capacity} (ready : ub.Ready)
    (fits : Chunk.endOf chunks ub.offset ≤ capacity) :
    (operation ub).1 = true
  ready {ub : UcdrBuffer capacity} (ready : ub.Ready)
    (fits : Chunk.endOf chunks ub.offset ≤ capacity) :
    (operation ub).2.Ready
  offset {ub : UcdrBuffer capacity} (ready : ub.Ready)
    (fits : Chunk.endOf chunks ub.offset ≤ capacity) :
    (operation ub).2.offset = Chunk.endOf chunks ub.offset
  memory {ub : UcdrBuffer capacity} (ready : ub.Ready)
    (fits : Chunk.endOf chunks ub.offset ≤ capacity) :
    (operation ub).2.memory = Chunk.write ub.memory chunks ub.offset
  full {ub : UcdrBuffer capacity} (ready : ub.Ready)
    (full : capacity < Chunk.endOf chunks ub.offset) :
    (operation ub).1 = false

/-- The operation reads the chunks that are held from the offset on, and ends
with a value that satisfies the postcondition. -/
structure Reads {α : Type}
    (operation : UcdrBuffer capacity → Outcome capacity α)
    (chunks : List (Chunk UInt8)) (post : α → Prop) : Prop where
  result {ub : UcdrBuffer capacity} (ready : ub.Ready)
    (fits : Chunk.endOf chunks ub.offset ≤ capacity)
    (held : Chunk.HeldBy ub.memory.cells chunks ub.offset) :
    (operation ub).1 = true ∧ post (operation ub).2.2
  state {ub : UcdrBuffer capacity} (ready : ub.Ready)
    (fits : Chunk.endOf chunks ub.offset ≤ capacity)
    (held : Chunk.HeldBy ub.memory.cells chunks ub.offset) :
    (operation ub).2.1.Ready ∧
      (operation ub).2.1.offset = Chunk.endOf chunks ub.offset ∧
        (operation ub).2.1.memory = ub.memory

/-! ## Composition -/

theorem emits_nil : Emits (fun ub : UcdrBuffer capacity => (true, ub)) [] where
  succeeds _ _ := rfl
  ready ready _ := ready
  offset _ _ := rfl
  memory _ _ := rfl
  full {ub} ready full := by
    have := ready.inside
    have := ready.offset
    rw [Chunk.endOf_nil] at full
    omega

theorem Emits.andThen
    {first second : UcdrBuffer capacity → Bool × UcdrBuffer capacity}
    {left right : List (Chunk UInt8)} (emitsLeft : Emits first left)
    (emitsRight : Emits second right) :
    Emits (fun ub => ((first ub).1 && (second (first ub).2).1,
      (second (first ub).2).2)) (left ++ right) := by
  have prefixFits {pos : Nat}
      (fits : Chunk.endOf (left ++ right) pos ≤ capacity) :
      Chunk.endOf left pos ≤ capacity ∧
        Chunk.endOf right (Chunk.endOf left pos) ≤ capacity := by
    rw [Chunk.endOf_append] at fits
    exact ⟨Nat.le_trans (Chunk.le_endOf right _) fits, fits⟩
  refine ⟨?_, ?_, ?_, ?_, ?_⟩
  · intro ub ready fits
    obtain ⟨fitsLeft, fitsRight⟩ := prefixFits fits
    rw [← emitsLeft.offset ready fitsLeft] at fitsRight
    rw [Bool.and_eq_true]
    exact ⟨emitsLeft.succeeds ready fitsLeft,
      emitsRight.succeeds (emitsLeft.ready ready fitsLeft) fitsRight⟩
  · intro ub ready fits
    obtain ⟨fitsLeft, fitsRight⟩ := prefixFits fits
    rw [← emitsLeft.offset ready fitsLeft] at fitsRight
    exact emitsRight.ready (emitsLeft.ready ready fitsLeft) fitsRight
  · intro ub ready fits
    obtain ⟨fitsLeft, fitsRight⟩ := prefixFits fits
    rw [← emitsLeft.offset ready fitsLeft] at fitsRight
    rw [emitsRight.offset (emitsLeft.ready ready fitsLeft) fitsRight,
      emitsLeft.offset ready fitsLeft, Chunk.endOf_append]
  · intro ub ready fits
    obtain ⟨fitsLeft, fitsRight⟩ := prefixFits fits
    rw [← emitsLeft.offset ready fitsLeft] at fitsRight
    rw [emitsRight.memory (emitsLeft.ready ready fitsLeft) fitsRight,
      emitsLeft.memory ready fitsLeft, emitsLeft.offset ready fitsLeft,
      Chunk.write_append]
  · intro ub ready full
    rw [Chunk.endOf_append] at full
    by_cases fitsLeft : Chunk.endOf left ub.offset ≤ capacity
    · rw [← emitsLeft.offset ready fitsLeft] at full
      rw [emitsRight.full (emitsLeft.ready ready fitsLeft) full,
        Bool.and_false]
    · rw [emitsLeft.full ready (Nat.lt_of_not_le fitsLeft), Bool.false_and]

/-- What succeeds fits. -/
theorem Emits.fits
    {operation : UcdrBuffer capacity → Bool × UcdrBuffer capacity}
    {chunks : List (Chunk UInt8)} (emits : Emits operation chunks)
    {ub : UcdrBuffer capacity} (ready : ub.Ready)
    (ok : (operation ub).1 = true) :
    Chunk.endOf chunks ub.offset ≤ capacity := by
  apply Nat.le_of_not_lt
  intro full
  rw [emits.full ready full] at ok
  cases ok

/-- A fresh buffer ends with the chunks and nothing else written. -/
theorem Emits.written
    {operation : UcdrBuffer capacity → Bool × UcdrBuffer capacity}
    {chunks : List (Chunk UInt8)} (emits : Emits operation chunks)
    (memory : Buffer UInt8 capacity)
    (fits : Chunk.endOf chunks 0 ≤ capacity) :
    (operation (init memory)).2.written.length = Chunk.endOf chunks 0 ∧
      Chunk.HeldBy (operation (init memory)).2.written chunks 0 := by
  have ready := ready_init memory
  have ended := emits.ready ready fits
  have iterator : (operation (init memory)).2.iterator =
      Chunk.endOf chunks 0 := by
    rw [← ended.offset, emits.offset ready fits]
    rfl
  have size : (operation (init memory)).2.written.length =
      Chunk.endOf chunks 0 := by
    rw [UcdrBuffer.written, Buffer.length_take, iterator]
    exact Nat.min_eq_left fits
  refine ⟨size, ?_⟩
  have held := Chunk.heldBy_write memory fits
  apply held.of_take (Nat.le_refl _)
  rw [UcdrBuffer.written, Buffer.take, emits.memory ready fits, iterator,
    List.take_take, Nat.min_self]
  rfl

/-- A fresh buffer that is large enough ends with the encoding, wherever it
has a value. -/
theorem Emits.encoding
    {operation : UcdrBuffer capacity → Bool × UcdrBuffer capacity}
    {chunks : List (Chunk UInt8)} (emits : Emits operation chunks)
    (memory : Buffer UInt8 capacity) {encoding : List (Option UInt8)}
    (layouts : Chunk.layout chunks 0 = encoding)
    (enough : encoding.length ≤ capacity) :
    (operation (init memory)).1 = true ∧
      (operation (init memory)).2.written.length = encoding.length ∧
        Chunk.Agrees (operation (init memory)).2.written encoding := by
  have total := Chunk.length_layout chunks 0
  rw [Nat.zero_add, layouts] at total
  have fits : Chunk.endOf chunks 0 ≤ capacity :=
    Nat.le_trans (Nat.le_of_eq total.symm) enough
  obtain ⟨size, held⟩ := emits.written memory fits
  refine ⟨emits.succeeds (ready_init memory) fits, size.trans total.symm, ?_⟩
  have agrees := held.agrees (Nat.le_of_eq size.symm)
  rw [layouts, List.drop_zero, List.take_of_length_le
    (Nat.le_of_eq (size.trans total.symm))] at agrees
  exact agrees

theorem reads_nil {α : Type} {value : α} {post : α → Prop}
    (holds : post value) :
    Reads (fun ub : UcdrBuffer capacity => (true, ub, value)) [] post where
  result _ _ _ := ⟨rfl, holds⟩
  state ready _ _ := ⟨ready, rfl, rfl⟩

theorem Reads.andThen {α β : Type}
    {first : UcdrBuffer capacity → Outcome capacity α}
    {second : UcdrBuffer capacity → Outcome capacity β}
    {left right : List (Chunk UInt8)} {postLeft : α → Prop}
    {postRight : β → Prop} (readsLeft : Reads first left postLeft)
    (readsRight : Reads second right postRight) :
    Reads (fun ub => ((first ub).1 && (second (first ub).2.1).1,
        (second (first ub).2.1).2.1,
        ((first ub).2.2, (second (first ub).2.1).2.2)))
      (left ++ right)
      (fun pair => postLeft pair.1 ∧ postRight pair.2) := by
  have parts {ub : UcdrBuffer capacity} (ready : ub.Ready)
      (fits : Chunk.endOf (left ++ right) ub.offset ≤ capacity)
      (held : Chunk.HeldBy ub.memory.cells (left ++ right) ub.offset) :
      (Chunk.endOf left ub.offset ≤ capacity ∧
          Chunk.HeldBy ub.memory.cells left ub.offset) ∧
        Chunk.endOf right (first ub).2.1.offset ≤ capacity ∧
          Chunk.HeldBy (first ub).2.1.memory.cells right
            (first ub).2.1.offset := by
    rw [Chunk.endOf_append] at fits
    rw [Chunk.heldBy_append] at held
    have fitsLeft := Nat.le_trans (Chunk.le_endOf right _) fits
    obtain ⟨_, offset, memory⟩ := readsLeft.state ready fitsLeft held.1
    rw [offset, memory]
    exact ⟨⟨fitsLeft, held.1⟩, fits, held.2⟩
  refine ⟨?_, ?_⟩
  · intro ub ready fits held
    obtain ⟨⟨fitsLeft, heldLeft⟩, fitsRight, heldRight⟩ :=
      parts ready fits held
    obtain ⟨okLeft, holdsLeft⟩ := readsLeft.result ready fitsLeft heldLeft
    obtain ⟨readyRight, _, _⟩ := readsLeft.state ready fitsLeft heldLeft
    obtain ⟨okRight, holdsRight⟩ :=
      readsRight.result readyRight fitsRight heldRight
    exact ⟨by rw [okLeft, okRight, Bool.true_and], holdsLeft, holdsRight⟩
  · intro ub ready fits held
    obtain ⟨⟨fitsLeft, heldLeft⟩, fitsRight, heldRight⟩ :=
      parts ready fits held
    obtain ⟨readyRight, offset, memory⟩ :=
      readsLeft.state ready fitsLeft heldLeft
    obtain ⟨readyEnd, offsetEnd, memoryEnd⟩ :=
      readsRight.state readyRight fitsRight heldRight
    refine ⟨readyEnd, ?_, memoryEnd.trans memory⟩
    rw [offsetEnd, offset, Chunk.endOf_append]

/-- A function of the value that was read. -/
theorem Reads.map {α β : Type}
    {operation : UcdrBuffer capacity → Outcome capacity α}
    {chunks : List (Chunk UInt8)} {post : α → Prop} {postMapped : β → Prop}
    (reads : Reads operation chunks post) (function : α → β)
    (implies : ∀ value, post value → postMapped (function value)) :
    Reads (fun ub => ((operation ub).1, (operation ub).2.1,
      function (operation ub).2.2)) chunks postMapped where
  result ready fits held :=
    ⟨(reads.result ready fits held).1,
      implies _ (reads.result ready fits held).2⟩
  state := reads.state

/-! ## Items and arrays -/

theorem Transfers.emits {chunk : Chunk UInt8} {source : List UInt8}
    {operation : UcdrBuffer capacity × Unit → Outcome capacity Unit}
    (transfers : Transfers operation (.into source) chunk.align
      chunk.bytes.length)
    (width : IsWidth chunk.align)
    (content : source.take chunk.bytes.length = chunk.bytes) :
    Emits (fun ub => ((operation (ub, ())).1, (operation (ub, ())).2.1))
      [chunk] := by
  refine ⟨?_, ?_, ?_, ?_, ?_⟩
  · intro ub ready fits
    rw [transfers.fits (ub, ()) ready fits]
  · intro ub ready fits
    rw [transfers.fits (ub, ()) ready fits]
    exact ready_transferred width chunk.divides fits
  · intro ub ready fits
    rw [transfers.fits (ub, ()) ready fits]
    rfl
  · intro ub ready fits
    rw [transfers.fits (ub, ()) ready fits]
    simp only [transferred, Memcpy.into, Chunk.write, List.drop_zero, content]
  · intro ub ready full
    exact (transfers.full (ub, ()) ready full).1

/-- What is read overwrites the start of the object. -/
theorem Transfers.reads {chunk : Chunk UInt8} {size : Nat}
    {convert : UInt8 → UInt8}
    (object : UcdrBuffer capacity → Buffer UInt8 size)
    {operation : UcdrBuffer capacity × Buffer UInt8 size →
      Outcome capacity (Buffer UInt8 size)}
    (transfers : Transfers operation (.outOf convert) chunk.align
      chunk.bytes.length)
    (width : IsWidth chunk.align) (inside : chunk.bytes.length ≤ size) :
    Reads (fun ub => operation (ub, object ub)) [chunk]
      (fun value =>
        value.take chunk.bytes.length = chunk.bytes.map convert) := by
  refine ⟨?_, ?_⟩
  · intro ub ready fits held
    rw [transfers.fits (ub, object ub) ready fits]
    refine ⟨rfl, ?_⟩
    have slice : ub.memory.slice (alignUp chunk.align ub.offset)
        chunk.bytes.length = chunk.bytes := held.1
    have copied := (object ub).take_copy 0 (chunk.bytes.map convert) (by
      rw [List.length_map, Nat.zero_add]
      exact inside)
    rw [List.length_map, Nat.zero_add, Buffer.take_zero, List.nil_append]
      at copied
    simp only [transferred, Memcpy.outOf, slice]
    exact copied
  · intro ub ready fits held
    rw [transfers.fits (ub, object ub) ready fits]
    exact ⟨ready_transferred width chunk.divides fits, rfl, rfl⟩

theorem emits_basic (chunk : Chunk UInt8) (width : IsWidth chunk.align)
    (size : chunk.bytes.length = chunk.align) :
    Emits (fun ub : UcdrBuffer capacity =>
      ub.serializeBasic chunk.align chunk.bytes) [chunk] := by
  apply Transfers.emits _ width List.take_length
  rw [size]
  exact transfers_basic _ width

theorem emits_array (chunk : Chunk UInt8) {source : List UInt8}
    (width : IsWidth chunk.align) {count : Nat}
    (size : chunk.bytes.length = count * chunk.align)
    (content : source.take chunk.bytes.length = chunk.bytes) :
    Emits (fun ub : UcdrBuffer capacity =>
      ub.serializeArray chunk.align source count) [chunk] := by
  apply Transfers.emits _ width content
  rw [size]
  exact transfers_array _ width count

theorem reads_basic (chunk : Chunk UInt8) (width : IsWidth chunk.align)
    (whole : chunk.bytes.length = chunk.align) {size : Nat}
    (same : size = chunk.align) (convert : UInt8 → UInt8)
    (value : UcdrBuffer capacity → Buffer UInt8 size) :
    Reads (fun ub => ub.deserializeBasic convert chunk.align (value ub))
      [chunk] (fun value => value.cells = chunk.bytes.map convert) := by
  have sizeEq : chunk.bytes.length = size := whole.trans same.symm
  have reads : Reads
      (fun ub => ub.deserializeBasic convert chunk.align (value ub)) [chunk]
      (fun value =>
        value.take chunk.bytes.length = chunk.bytes.map convert) := by
    apply Transfers.reads value _ width (Nat.le_of_eq sizeEq)
    rw [whole]
    exact transfers_basic _ width
  refine reads.map id fun value taken => ?_
  rwa [Buffer.take, sizeEq, List.take_of_length_le
    (Nat.le_of_eq value.length_eq)] at taken

theorem reads_array (chunk : Chunk UInt8) (width : IsWidth chunk.align)
    {count size : Nat} (whole : chunk.bytes.length = count * chunk.align)
    (inside : chunk.bytes.length ≤ size) (target : Buffer UInt8 size) :
    Reads (fun ub : UcdrBuffer capacity =>
      ub.deserializeArray chunk.align target count) [chunk]
      (fun value => value.take chunk.bytes.length = chunk.bytes) := by
  have reads : Reads (fun ub : UcdrBuffer capacity =>
      ub.deserializeArray chunk.align target count) [chunk]
      (fun value =>
        value.take chunk.bytes.length = chunk.bytes.map id) := by
    apply Transfers.reads (fun _ => target) _ width inside
    rw [whole]
    exact transfers_array _ width count
  rwa [List.map_id] at reads

/-! ## Values and strings -/

/-- A number of a given width. -/
def valueChunk (align : Nat) (positive : 0 < align) (value : Nat) :
    Chunk UInt8 where
  align
  bytes := littleEndian align value
  positive
  divides := ⟨1, by rw [length_littleEndian, Nat.mul_one]⟩

/-- The length in front of a string. -/
def lengthChunk (length : Nat) : Chunk UInt8 :=
  valueChunk 4 (by decide) length

def bytesChunk (bytes : List UInt8) : Chunk UInt8 where
  align := 1
  bytes
  positive := by decide
  divides := Nat.one_dvd _

theorem width_lengthChunk (length : Nat) :
    IsWidth (lengthChunk length).align := .inr (.inr (.inl rfl))

theorem width_bytesChunk (bytes : List UInt8) :
    IsWidth (bytesChunk bytes).align := .inl rfl

/-- The functions of a sequence drop the result for its length: when that
failed, the flag makes the bytes fail too. -/
theorem serializeSequenceChar_eq {ub : UcdrBuffer capacity}
    (ready : ub.Ready) (source : List UInt8) {length : Nat}
    (some_ : length ≠ 0) :
    ub.serializeSequenceChar source length =
      let header := ub.serializeBasic 4 (littleEndian 4 length)
      (header.1 && (header.2.serializeArray 1 source length).1,
        (header.2.serializeArray 1 source length).2) := by
  have width : IsWidth 4 := .inr (.inr (.inl rfl))
  have header : Transfers (basic (.into (littleEndian 4 length)) 4)
      (.into (littleEndian 4 length) : Memcpy capacity Unit) 4 4 :=
    transfers_basic _ width
  rw [serializeSequenceChar]
  dsimp only
  rw [if_neg some_]
  by_cases fits : alignUp 4 ub.offset + 4 ≤ capacity
  · have done : (ub.serializeBasic 4 (littleEndian 4 length)).1 = true := by
      rw [serializeBasic, header.fits (ub, ()) ready fits]
    rw [done, Bool.true_and]
  · have stuck := header.full (ub, ()) ready
      (Nat.lt_of_not_le fits)
    have bytes := (transfers_array (.into source) (.inl rfl) length).failed
      ((ub.serializeBasic 4 (littleEndian 4 length)).2, ())
      stuck.2
    have failed : ((ub.serializeBasic 4 (littleEndian 4 length)).2
        |>.serializeArray 1 source length).1 = false := bytes.1
    rw [failed, Bool.and_false]
    exact Prod.ext failed rfl

theorem Emits.congr
    {operation other : UcdrBuffer capacity → Bool × UcdrBuffer capacity}
    {chunks : List (Chunk UInt8)} (emits : Emits other chunks)
    (same : ∀ ub, ub.Ready → operation ub = other ub) :
    Emits operation chunks where
  succeeds ready fits := by
    rw [same _ ready]
    exact emits.succeeds ready fits
  ready ready fits := by
    rw [same _ ready]
    exact emits.ready ready fits
  offset ready fits := by
    rw [same _ ready]
    exact emits.offset ready fits
  memory ready fits := by
    rw [same _ ready]
    exact emits.memory ready fits
  full ready full := by
    rw [same _ ready]
    exact emits.full ready full

/-- A string with its NUL. -/
def terminated (string : List UInt8) : List UInt8 :=
  string.take (strlen string + 1)

/-- The characters of a string. -/
def text (string : List UInt8) : List UInt8 := string.takeWhile (· ≠ 0)

theorem terminated_eq {string : List UInt8} (nul : 0 ∈ string) :
    terminated string = text string ++ [0] := by
  induction string with
  | nil => exact nomatch nul
  | cons byte string induction =>
      by_cases zero : byte = 0
      · rw [zero]
        rfl
      · have later : 0 ∈ string := by
          rcases List.mem_cons.mp nul with equal | member
          · exact absurd equal.symm zero
          · exact member
        have rest := induction later
        simp only [terminated, text, strlen] at rest ⊢
        rw [List.takeWhile_cons_of_pos (by simpa using zero),
          List.length_cons, List.take_succ_cons, rest, List.cons_append]

theorem length_terminated {string : List UInt8} (nul : 0 ∈ string) :
    (terminated string).length = strlen string + 1 := by
  rw [terminated_eq nul, List.length_append, List.length_singleton]
  rfl

/-- What comes after the NUL does not belong to the string. -/
theorem terminated_of_take {string cells : List UInt8} (nul : 0 ∈ string)
    (same : cells.take (strlen string + 1) = terminated string) :
    terminated cells = terminated string := by
  have split : cells =
      text string ++ 0 :: cells.drop (strlen string + 1) := by
    conv_lhs => rw [← List.take_append_drop (strlen string + 1) cells]
    rw [same, terminated_eq nul, List.append_assoc, List.singleton_append]
  have here : 0 ∈ cells := by
    rw [split]
    simp
  have front : ∀ byte ∈ text string, decide (byte ≠ 0) = true := by
    intro byte member
    have holds := List.mem_takeWhile_imp member
    exact holds
  have texts : text cells = text string := by
    rw [split, text, List.takeWhile_append_of_pos front]
    simp
  rw [terminated_eq here, terminated_eq nul, texts]

theorem strlen_lt {string : List UInt8} (nul : 0 ∈ string) :
    strlen string < string.length := by
  have size := length_terminated nul
  rw [terminated, List.length_take] at size
  omega

theorem emits_string {string : List UInt8} (nul : 0 ∈ string)
    (short : string.length < 2 ^ 32) :
    Emits (fun ub : UcdrBuffer capacity => ub.serializeString string)
      [lengthChunk (strlen string + 1), bytesChunk (terminated string)] := by
  have ends := strlen_lt nul
  have count : (strlen string + 1) % 2 ^ 32 = strlen string + 1 :=
    Nat.mod_eq_of_lt (by omega)
  have size := length_terminated nul
  have header : Emits (fun ub : UcdrBuffer capacity =>
      ub.serializeBasic 4 (littleEndian 4 (strlen string + 1)))
      [lengthChunk (strlen string + 1)] :=
    emits_basic _ (width_lengthChunk _) (length_littleEndian _ _)
  have bytes : Emits (fun ub : UcdrBuffer capacity =>
      ub.serializeArray 1 string (strlen string + 1))
      [bytesChunk (terminated string)] := by
    apply emits_array (bytesChunk (terminated string)) (width_bytesChunk _)
    · exact size.trans (Nat.mul_one _).symm
    · show string.take (terminated string).length = terminated string
      rw [size, terminated]
  apply (header.andThen bytes).congr
  intro ub ready
  rw [serializeString, count]
  exact serializeSequenceChar_eq ready string (Nat.succ_ne_zero _)

/-- With the length in place, the rest of a sequence is its bytes. -/
theorem deserializeSequenceChar_eq {ub : UcdrBuffer capacity} {width : Nat}
    (target : Buffer UInt8 width) {arrayCapacity length : Nat}
    {stack : Buffer UInt8 4} (some_ : length ≠ 0)
    (fits : length ≤ arrayCapacity)
    (header : ofLittleEndian (ub.deserializeBasic id 4 stack).2.2.cells =
      length) :
    ub.deserializeSequenceChar target arrayCapacity stack =
      (ub.deserializeBasic id 4 stack).2.1.deserializeArray 1 target
        length := by
  have within : ¬ arrayCapacity <
      ofLittleEndian (ub.deserializeBasic id 4 stack).2.2.cells := by
    rw [header]
    exact Nat.not_lt_of_le fits
  rw [deserializeSequenceChar, deserializeSequenceHeader]
  dsimp only
  rw [if_neg within, header, if_neg some_]

/-- Where the length in front of a string is read back, the rest is its bytes,
the NUL included. -/
theorem deserializeString_eq {ub : UcdrBuffer capacity} (ready : ub.Ready)
    {string : List UInt8} {width : Nat} (fits : strlen string + 1 ≤ width)
    (short : width < 2 ^ 32) (target : Buffer UInt8 width)
    (stack : Buffer UInt8 4)
    (inside : Chunk.endOf [lengthChunk (strlen string + 1)] ub.offset ≤
      capacity)
    (held : Chunk.HeldBy ub.memory.cells [lengthChunk (strlen string + 1)]
      ub.offset) :
    let header := ub.deserializeBasic id 4 stack
    let bytes := header.2.1.deserializeArray 1 target (strlen string + 1)
    ub.deserializeString target stack = (header.1 && bytes.1, bytes.2) := by
  intro header bytes
  have reads := reads_basic (lengthChunk (strlen string + 1))
    (width_lengthChunk _) (length_littleEndian _ _) rfl id
    fun _ : UcdrBuffer capacity => stack
  obtain ⟨ok, value⟩ := reads.result ready inside held
  have done : header.1 = true := ok
  have cells : header.2.2.cells =
      (littleEndian 4 (strlen string + 1)).map id := value
  have number : ofLittleEndian header.2.2.cells = strlen string + 1 := by
    rw [cells, List.map_id]
    exact ofLittleEndian_littleEndian (by omega)
  rw [deserializeString, deserializeSequenceChar_eq target
    (Nat.succ_ne_zero _) fits number, done, Bool.true_and]

/-- A string is read back up to its NUL. -/
theorem reads_string {string : List UInt8} (nul : 0 ∈ string) {width : Nat}
    (fits : strlen string + 1 ≤ width) (short : width < 2 ^ 32)
    (target : Buffer UInt8 width)
    (stack : UcdrBuffer capacity → Buffer UInt8 4) :
    Reads (fun ub => ub.deserializeString target (stack ub))
      [lengthChunk (strlen string + 1), bytesChunk (terminated string)]
      (fun value => value.take (strlen string + 1) = terminated string) := by
  have size := length_terminated nul
  have header := reads_basic (lengthChunk (strlen string + 1))
    (width_lengthChunk _) (length_littleEndian _ _) rfl id stack
  have bytes : Reads (fun ub : UcdrBuffer capacity =>
      ub.deserializeArray 1 target (strlen string + 1))
      [bytesChunk (terminated string)]
      (fun value =>
        value.take (bytesChunk (terminated string)).bytes.length =
          terminated string) :=
    reads_array (bytesChunk (terminated string)) (width_bytesChunk _)
      (size.trans (Nat.mul_one _).symm)
      (Nat.le_trans (Nat.le_of_eq size) fits) target
  have both : Reads _ _ fun value : Buffer UInt8 width =>
      value.take (bytesChunk (terminated string)).bytes.length =
        terminated string :=
    (header.andThen bytes).map Prod.snd fun _ holds => holds.2
  refine ⟨?_, ?_⟩
  · intro ub ready inside held
    have headerInside := Nat.le_trans
      (Chunk.le_endOf [bytesChunk (terminated string)] _) inside
    rw [deserializeString_eq ready fits short target (stack ub) headerInside
      ⟨held.1, trivial⟩]
    have taken := both.result ready inside held
    rw [show (bytesChunk (terminated string)).bytes.length =
      strlen string + 1 from size] at taken
    exact taken
  · intro ub ready inside held
    have headerInside := Nat.le_trans
      (Chunk.le_endOf [bytesChunk (terminated string)] _) inside
    rw [deserializeString_eq ready fits short target (stack ub) headerInside
      ⟨held.1, trivial⟩]
    exact both.state ready inside held

end UcdrBuffer

end NanoRos
