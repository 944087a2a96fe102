import NanoRos.MicroCdr

/-!
# What the Micro-CDR functions do

A buffer that is ready skips exactly the padding that natural alignment asks
for, although Micro-CDR decides by the size of the last item.  From there on
every function either moves all its bytes or leaves the error flag set.
-/

universe u

namespace NanoRos

namespace UcdrBuffer

variable {capacity : Nat} {σ : Type u}

/-- The sizes of the basic types. -/
def IsWidth (size : Nat) : Prop :=
  size = 1 ∨ size = 2 ∨ size = 4 ∨ size = 8

theorem IsWidth.positive {size : Nat} (width : IsWidth size) : 0 < size := by
  rcases width with rfl | rfl | rfl | rfl <;> decide

/-- The invariant of a buffer without an error.  The offset is a multiple of
the size of the last item, which is why Micro-CDR may skip the padding of an
item that is not wider. -/
structure Ready (ub : UcdrBuffer capacity) : Prop where
  healthy : ub.error = false
  offset : ub.offset = ub.iterator
  inside : ub.iterator ≤ capacity
  last : ub.lastDataSize = 0 ∨
    IsWidth ub.lastDataSize ∧ ub.lastDataSize ∣ ub.offset

theorem ready_init (memory : Buffer UInt8 capacity) : (init memory).Ready where
  healthy := rfl
  offset := rfl
  inside := Nat.zero_le _
  last := .inl rfl

/-- The padding Micro-CDR computes with bit operations. -/
theorem padding_eq {size : Nat} (width : IsWidth size) (offset : Nat) :
    (size - offset % 2 ^ 32 % size) &&& (size - 1) =
      (size - offset % size) % size := by
  have exponent : ∃ power ≤ 32, size = 2 ^ power := by
    rcases width with rfl | rfl | rfl | rfl
    · exact ⟨0, by decide, rfl⟩
    · exact ⟨1, by decide, rfl⟩
    · exact ⟨2, by decide, rfl⟩
    · exact ⟨3, by decide, rfl⟩
  obtain ⟨power, small, rfl⟩ := exponent
  rw [Nat.and_two_pow_sub_one_eq_mod,
    Nat.mod_mod_of_dvd _ (Nat.pow_dvd_pow 2 small)]

theorem IsWidth.dvd_of_le {size last : Nat} (width : IsWidth size)
    (lastWidth : IsWidth last) (le : size ≤ last) : size ∣ last := by
  rcases width with rfl | rfl | rfl | rfl <;>
    rcases lastWidth with rfl | rfl | rfl | rfl <;>
      first | decide | omega

/-- The padding is that of natural alignment. -/
theorem Ready.bufferAlignment {ub : UcdrBuffer capacity} (ready : ub.Ready)
    {size : Nat} (width : IsWidth size) :
    ub.offset + ub.bufferAlignment size = alignUp size ub.offset := by
  rw [UcdrBuffer.bufferAlignment]
  split
  · rw [padding_eq width, alignUp]
  · next notWider =>
      have le : size ≤ ub.lastDataSize := Nat.le_of_not_gt notWider
      rcases ready.last with zero | ⟨lastWidth, aligned⟩
      · have := width.positive
        omega
      · have multiple := Nat.dvd_trans (width.dvd_of_le lastWidth le) aligned
        rw [alignUp_of_dvd multiple, Nat.add_zero]

/-! ## Blocks -/

theorem checkBufferAvailableFor_iff {ub : UcdrBuffer capacity} {bytes : Nat} :
    ub.checkBufferAvailableFor bytes = true ↔
      ub.error = false ∧ ub.iterator + bytes ≤ capacity := by
  simp [checkBufferAvailableFor]

theorem moveBytes_of_fits (memcpy : Memcpy capacity σ)
    (state : UcdrBuffer capacity × σ) {size : Nat} (dataSize : Nat)
    (healthy : state.1.error = false)
    (fits : state.1.iterator + size ≤ capacity) :
    moveBytes memcpy state size dataSize =
      ({ (block memcpy state 0 size).1 with lastDataSize := dataSize },
        (block memcpy state 0 size).2) := by
  have available := checkBufferAvailableFor_iff.mpr ⟨healthy, fits⟩
  rw [moveBytes, if_pos available]

/-- The loop ends with the error flag set: the buffer fills up first. -/
theorem blockLoop_of_full (memcpy : Memcpy capacity σ) (size : Nat)
    {rounds remaining : Nat} {state : UcdrBuffer capacity × σ}
    (enough : remaining ≤ rounds)
    (full : state.1.error = true ∨
      capacity < state.1.iterator + remaining ∧ 0 < remaining) :
    (blockLoop memcpy size rounds state remaining).1.error = true := by
  induction rounds generalizing state remaining with
  | zero =>
      rcases full with failed | ⟨_, some_⟩
      · exact failed
      · omega
  | succ rounds induction =>
      rw [blockLoop]
      rcases full with failed | ⟨short, some_⟩
      · have stays : state.1.checkFinalBufferBehaviorArray remaining =
            (0, state.1) := by
          simp [checkFinalBufferBehaviorArray, failed]
        rw [stays]
        exact failed
      · cases healthy : state.1.error with
        | true =>
            have stays : state.1.checkFinalBufferBehaviorArray remaining =
                (0, state.1) := by
              simp [checkFinalBufferBehaviorArray, healthy]
            rw [stays]
            exact healthy
        | false =>
            by_cases atEnd : capacity ≤ state.1.iterator
            · have raised : state.1.checkFinalBufferBehaviorArray remaining =
                  (0, { state.1 with error := true }) := by
                simp [checkFinalBufferBehaviorArray, healthy, atEnd, some_]
              rw [raised]
              rfl
            · have part : state.1.checkFinalBufferBehaviorArray remaining =
                  (capacity - state.1.iterator, state.1) := by
                have long : ¬ remaining ≤ capacity - state.1.iterator := by
                  omega
                simp [checkFinalBufferBehaviorArray, healthy, atEnd,
                  nextRemainingSize, bufferRemaining, long]
              rw [part]
              dsimp only
              rw [if_pos (by omega)]
              -- the rest meets a buffer that is exactly full
              apply induction (by omega)
              right
              simp only [block]
              omega

theorem moveBytes_of_full (memcpy : Memcpy capacity σ)
    {state : UcdrBuffer capacity × σ} {size : Nat} (dataSize : Nat)
    (full : state.1.error = true ∨
      capacity < state.1.iterator + size ∧ state.1.iterator ≤ capacity) :
    (moveBytes memcpy state size dataSize).1.error = true := by
  have unavailable : ¬ state.1.checkBufferAvailableFor size = true := by
    rw [checkBufferAvailableFor_iff]
    rintro ⟨healthy, fits⟩
    rcases full with failed | ⟨short, _⟩
    · rw [healthy] at failed
      cases failed
    · omega
  rw [moveBytes, if_neg unavailable]
  apply blockLoop_of_full memcpy size (Nat.le_refl size)
  rcases full with failed | ⟨short, inside⟩
  · exact .inl failed
  · exact .inr ⟨short, by omega⟩

/-! ## Transfers -/

/-- The state after `count` bytes have been moved at the next multiple of
`size`. -/
def transferred (memcpy : Memcpy capacity σ) (size count : Nat)
    (state : UcdrBuffer capacity × σ) : UcdrBuffer capacity × σ :=
  let start := alignUp size state.1.offset
  let copied := memcpy state.1.memory state.2 start 0 count
  ({ memory := copied.1
     iterator := start + count
     offset := start + count
     lastDataSize := size
     error := false }, copied.2)

theorem ready_transferred {memcpy : Memcpy capacity σ} {size count : Nat}
    {state : UcdrBuffer capacity × σ} (width : IsWidth size)
    (whole : size ∣ count)
    (fits : alignUp size state.1.offset + count ≤ capacity) :
    (transferred memcpy size count state).1.Ready where
  healthy := rfl
  offset := rfl
  inside := fits
  last := .inr ⟨width, Nat.dvd_add (dvd_alignUp width.positive _) whole⟩

/-- An operation moves `count` bytes at the next multiple of `size`, or fails
because there is no room for them. -/
structure Transfers
    (operation : UcdrBuffer capacity × σ → Outcome capacity σ)
    (memcpy : Memcpy capacity σ) (size count : Nat) : Prop where
  fits (state : UcdrBuffer capacity × σ) (ready : state.1.Ready)
    (fits : alignUp size state.1.offset + count ≤ capacity) :
    operation state = (true, transferred memcpy size count state)
  full (state : UcdrBuffer capacity × σ) (ready : state.1.Ready)
    (full : capacity < alignUp size state.1.offset + count) :
    (operation state).1 = false ∧ (operation state).2.1.error = true
  failed (state : UcdrBuffer capacity × σ) (failed : state.1.error = true) :
    (operation state).1 = false ∧ (operation state).2.1.error = true

theorem outcome_of_error {state : UcdrBuffer capacity × σ}
    (failed : state.1.error = true) :
    (outcome state).1 = false ∧ (outcome state).2.1.error = true := by
  simp [outcome, failed]

theorem alignUp_one (pos : Nat) : alignUp 1 pos = pos :=
  alignUp_of_dvd (Nat.one_dvd pos)

theorem transfers_byte1 (memcpy : Memcpy capacity σ) :
    Transfers (byte1 memcpy) memcpy 1 1 where
  fits state ready fits := by
    rw [alignUp_one, ready.offset] at fits
    have room : ¬ capacity ≤ state.1.iterator := by omega
    simp [byte1, checkFinalBufferBehavior, ready.healthy, room, outcome, block,
      transferred, alignUp_one, ready.offset]
  full state ready full := by
    rw [alignUp_one, ready.offset] at full
    have atEnd : capacity ≤ state.1.iterator := by omega
    simp [byte1, checkFinalBufferBehavior, ready.healthy, atEnd, outcome]
  failed state failed := by
    simp [byte1, checkFinalBufferBehavior, failed, outcome]

/-- `ucdr_advance_buffer` over the padding, when there is room for it. -/
theorem Ready.advanceBuffer {ub : UcdrBuffer capacity} (ready : ub.Ready)
    {size : Nat} (width : IsWidth size)
    (fits : alignUp size ub.offset ≤ capacity) :
    ub.advanceBuffer (ub.bufferAlignment size) =
      { ub with
        iterator := alignUp size ub.offset
        offset := alignUp size ub.offset
        lastDataSize := 1 } := by
  have natural := ready.bufferAlignment width
  have iterator : ub.iterator + ub.bufferAlignment size =
      alignUp size ub.offset := by
    rw [← ready.offset]
    exact natural
  have room : ub.iterator + ub.bufferAlignment size ≤ capacity := by
    rw [iterator]
    exact fits
  rw [UcdrBuffer.advanceBuffer,
    moveBytes_of_fits .skip (ub, ()) 1 ready.healthy room]
  simp only [block, Memcpy.skip, iterator, natural]

/-- Otherwise it sets the error flag. -/
theorem Ready.advanceBuffer_full {ub : UcdrBuffer capacity}
    (ready : ub.Ready) {size : Nat} (width : IsWidth size)
    (full : capacity < alignUp size ub.offset) :
    (ub.advanceBuffer (ub.bufferAlignment size)).error = true := by
  have natural := ready.bufferAlignment width
  have inside := ready.inside
  rw [ready.offset] at natural full
  have short : capacity < ub.iterator + ub.bufferAlignment size := by
    rw [natural]
    exact full
  exact moveBytes_of_full .skip 1 (.inr ⟨short, inside⟩)

theorem advanceBuffer_of_error {ub : UcdrBuffer capacity}
    (failed : ub.error = true) (size : Nat) :
    (ub.advanceBuffer size).error = true :=
  moveBytes_of_full .skip 1 (.inl failed)

/-- Without room for the item the flag is set, whichever branch is taken, and
the value it would have been copied to is left alone. -/
theorem byteN_of_unavailable (memcpy : Memcpy capacity σ) {size : Nat}
    {state : UcdrBuffer capacity × σ}
    (unavailable : ¬ (state.1.advanceBuffer
      (state.1.bufferAlignment size)).checkBufferAvailableFor size = true) :
    (byteN memcpy size state).1 = false ∧
      (byteN memcpy size state).2.1.error = true ∧
        (byteN memcpy size state).2.2 = state.2 := by
  rw [byteN]
  generalize state.1.advanceBuffer (state.1.bufferAlignment size) = ub
    at unavailable ⊢
  rw [if_neg unavailable]
  cases error : ub.error with
  | true =>
      split <;> simp [checkFinalBufferBehavior, error, outcome]
  | false =>
      split
      · next room =>
          have atEnd : capacity ≤ ub.iterator + (capacity - ub.iterator) := by
            omega
          simp [checkFinalBufferBehavior, error, outcome, atEnd]
      · next full =>
          have atEnd : capacity ≤ ub.iterator := Nat.le_of_not_lt full
          simp [checkFinalBufferBehavior, error, outcome, atEnd]

theorem Ready.unavailable {ub : UcdrBuffer capacity} (ready : ub.Ready)
    {size : Nat} (width : IsWidth size)
    (full : capacity < alignUp size ub.offset + size) :
    ¬ (ub.advanceBuffer
      (ub.bufferAlignment size)).checkBufferAvailableFor size = true := by
  rw [checkBufferAvailableFor_iff]
  rintro ⟨healthy, fits⟩
  by_cases room : alignUp size ub.offset ≤ capacity
  · rw [ready.advanceBuffer width room] at fits
    simp only at fits
    omega
  · rw [ready.advanceBuffer_full width (Nat.lt_of_not_le room)] at healthy
    cases healthy

theorem unavailable_of_error {ub : UcdrBuffer capacity}
    (failed : ub.error = true) (size : Nat) :
    ¬ (ub.advanceBuffer
      (ub.bufferAlignment size)).checkBufferAvailableFor size = true := by
  rw [checkBufferAvailableFor_iff, advanceBuffer_of_error failed]
  rintro ⟨healthy, _⟩
  cases healthy

theorem transfers_byteN (memcpy : Memcpy capacity σ) {size : Nat}
    (width : IsWidth size) :
    Transfers (byteN memcpy size) memcpy size size where
  fits state ready fits := by
    have advanced := ready.advanceBuffer width (by omega)
    have available : ({ state.1 with
        iterator := alignUp size state.1.offset
        offset := alignUp size state.1.offset
        lastDataSize := 1 } : UcdrBuffer capacity).checkBufferAvailableFor
          size = true :=
      checkBufferAvailableFor_iff.mpr ⟨ready.healthy, fits⟩
    rw [byteN, advanced, if_pos available]
    simp [outcome, block, transferred, ready.healthy]
  full _ ready full := by
    obtain ⟨notOk, stuck, _⟩ :=
      byteN_of_unavailable memcpy (ready.unavailable width full)
    exact ⟨notOk, stuck⟩
  failed _ failed := by
    obtain ⟨notOk, stuck, _⟩ :=
      byteN_of_unavailable memcpy (unavailable_of_error failed size)
    exact ⟨notOk, stuck⟩

theorem transfers_arrayByte1 (memcpy : Memcpy capacity σ) (count : Nat) :
    Transfers (arrayByte1 memcpy count) memcpy 1 count where
  fits state ready fits := by
    rw [alignUp_one, ready.offset] at fits
    rw [arrayByte1, moveBytes_of_fits memcpy state 1 ready.healthy fits]
    simp [outcome, block, transferred, alignUp_one, ready.healthy,
      ready.offset]
  full state ready full := by
    rw [alignUp_one, ready.offset] at full
    exact outcome_of_error
      (moveBytes_of_full memcpy 1 (.inr ⟨full, ready.inside⟩))
  failed _ failed := outcome_of_error (moveBytes_of_full memcpy 1 (.inl failed))

theorem transfers_arrayByteN (memcpy : Memcpy capacity σ) {size : Nat}
    (width : IsWidth size) (count : Nat) :
    Transfers (arrayByteN memcpy size count) memcpy size (count * size) where
  fits state ready fits := by
    rw [arrayByteN, ready.advanceBuffer width (by omega)]
    have moved := moveBytes_of_fits memcpy
      (({ state.1 with
          iterator := alignUp size state.1.offset
          offset := alignUp size state.1.offset } : UcdrBuffer capacity),
        state.2) size ready.healthy fits
    dsimp only
    rw [moved]
    simp [outcome, block, transferred, ready.healthy]
  full state ready full := by
    apply outcome_of_error
    apply moveBytes_of_full
    by_cases room : alignUp size state.1.offset ≤ capacity
    · rw [ready.advanceBuffer width room]
      exact .inr ⟨full, room⟩
    · exact .inl (ready.advanceBuffer_full width (Nat.lt_of_not_le room))
  failed _ failed :=
    outcome_of_error
      (moveBytes_of_full memcpy size (.inl (advanceBuffer_of_error failed _)))

theorem transfers_basic (memcpy : Memcpy capacity σ) {size : Nat}
    (width : IsWidth size) :
    Transfers (basic memcpy size) memcpy size size := by
  rw [basic]
  split
  · next one =>
      rw [one]
      exact transfers_byte1 memcpy
  · exact transfers_byteN memcpy width

theorem transfers_array (memcpy : Memcpy capacity σ) {size : Nat}
    (width : IsWidth size) (count : Nat) :
    Transfers (array memcpy size count) memcpy size (count * size) := by
  rw [array]
  split
  · next one =>
      rw [one, Nat.mul_one]
      exact transfers_arrayByte1 memcpy count
  · exact transfers_arrayByteN memcpy width count

end UcdrBuffer

end NanoRos
