import NanoRos.StreamParser
import NanoRos.Foundation.ShiftRegister

/-!
# The CRC as a shift register

`crc16Update` takes a byte at a time; bit by bit it is the shift register of
the polynomial `0x1021`, which the bits of a message enter with the most
significant bit of each byte first.
-/

namespace NanoRos

open ShiftRegister (shift enter feed pack)

/-! ## Bits of a message -/

/-- The bits of a byte, most significant first. -/
def byteBits (byte : UInt8) : List Bool :=
  (List.range 8).map fun place => byte.toBitVec.getMsbD place

/-- The bits of some bytes in order. -/
def messageBits (bytes : List UInt8) : List Bool :=
  bytes.flatMap byteBits

@[simp] theorem length_byteBits (byte : UInt8) :
    (byteBits byte).length = 8 := by
  simp [byteBits]

@[simp] theorem messageBits_nil : messageBits [] = [] := rfl

theorem messageBits_cons (byte : UInt8) (bytes : List UInt8) :
    messageBits (byte :: bytes) = byteBits byte ++ messageBits bytes :=
  List.flatMap_cons

theorem messageBits_append (front back : List UInt8) :
    messageBits (front ++ back) = messageBits front ++ messageBits back :=
  List.flatMap_append

@[simp] theorem length_messageBits (bytes : List UInt8) :
    (messageBits bytes).length = 8 * bytes.length := by
  induction bytes with
  | nil => rfl
  | cons byte bytes induction =>
      rw [messageBits_cons, List.length_append, induction, length_byteBits,
        List.length_cons]
      omega

theorem getD_byteBits (byte : UInt8) (place : Nat) :
    (byteBits byte).getD place false = byte.toBitVec.getMsbD place := by
  by_cases inside : place < 8
  · rw [List.getD_eq_getElem _ _ (by rwa [length_byteBits])]
    simp [byteBits]
  · rw [List.getD_eq_default _ _ (by rw [length_byteBits]; omega)]
    simp [BitVec.getMsbD, inside]

theorem byteBits_injective {left right : UInt8}
    (equal : byteBits left = byteBits right) : left = right := by
  apply UInt8.eq_of_toBitVec_eq
  apply BitVec.eq_of_getMsbD_eq
  intro place _
  rw [← getD_byteBits, equal, getD_byteBits]

theorem messageBits_injective {left right : List UInt8}
    (equal : messageBits left = messageBits right) : left = right := by
  induction left generalizing right with
  | nil =>
      cases right with
      | nil => rfl
      | cons byte bytes =>
          have lengths := congrArg List.length equal
          simp at lengths
  | cons byte bytes induction =>
      cases right with
      | nil =>
          have lengths := congrArg List.length equal
          simp at lengths
      | cons other others =>
          rw [messageBits_cons, messageBits_cons] at equal
          obtain ⟨heads, tails⟩ := List.append_inj equal (by simp)
          rw [byteBits_injective heads, induction tails]

/-! ## The register -/

/-- The polynomial without its leading term. -/
def crcPoly : BitVec 16 := nrosCrc16Poly.toBitVec

theorem crcPoly_odd : crcPoly.getLsbD 0 = true := by decide

theorem crcPoly_even : ShiftRegister.parity crcPoly = true := by decide

/-- The order of the polynomial is larger than the longest frame has bits. -/
theorem crcPoly_order (count : Nat) (positive : 0 < count)
    (bound : count < 8 * nrosBufferSize) :
    (shift crcPoly)^[count] crcPoly ≠ crcPoly := by
  have avoided :
      ShiftRegister.avoids crcPoly (8 * nrosBufferSize - 1) crcPoly =
        true := by
    decide +kernel
  exact ShiftRegister.shifts_ne_of_avoids crcPoly avoided positive
    (Nat.le_sub_one_of_lt bound)

theorem crc16Shift_toBitVec (crc : UInt16) :
    (crc16Shift crc).toBitVec = shift crcPoly crc.toBitVec := by
  have topBit : crc &&& 0x8000 ≠ 0 ↔ crc.toBitVec.msb = true := by
    have masked : (crc &&& 0x8000).toBitVec =
        if crc.toBitVec.getLsbD 15 then BitVec.twoPow 16 15 else 0#16 :=
      BitVec.and_twoPow crc.toBitVec 15
    have last : crc.toBitVec.msb = crc.toBitVec.getLsbD 15 :=
      BitVec.msb_eq_getLsbD_last _
    rw [last, ne_eq, ← UInt16.toBitVec_inj, masked]
    cases crc.toBitVec.getLsbD 15 <;> decide
  unfold crc16Shift shift
  by_cases out : crc &&& 0x8000 ≠ 0
  · rw [if_pos out, if_pos (topBit.mp out)]
    rfl
  · rw [if_neg out, if_neg (fun msb => out (topBit.mpr msb))]
    rfl

theorem pack_byteBits (byte : UInt8) :
    (pack (byteBits byte) : BitVec 16) =
      (byte.toUInt16 <<< 8).toBitVec := by
  apply BitVec.eq_of_getMsbD_eq
  intro place bound
  rw [ShiftRegister.getMsbD_pack _ bound, getD_byteBits]
  have shifted : (byte.toUInt16 <<< 8).toBitVec =
      byte.toBitVec.setWidth 16 <<< 8 := rfl
  rw [shifted, BitVec.getMsbD_shiftLeft, BitVec.getMsbD_setWidth]
  simp [Nat.add_assoc]

theorem crc16Update_toBitVec (crc : UInt16) (byte : UInt8) :
    (crc16Update crc byte).toBitVec =
      feed crcPoly crc.toBitVec (byteBits byte) := by
  have repeated (count : Nat) (register : UInt16) :
      (Nat.repeat crc16Shift count register).toBitVec =
        (shift crcPoly)^[count] register.toBitVec := by
    induction count with
    | zero => rfl
    | succ count induction =>
        rw [Function.iterate_succ_apply', ← induction]
        exact crc16Shift_toBitVec _
  rw [ShiftRegister.feed_eq_shifts_pack _ _ _ (by simp), pack_byteBits,
    length_byteBits, crc16Update, repeated, UInt16.toBitVec_xor]

theorem foldl_crc16Update_toBitVec (crc : UInt16) (data : List UInt8) :
    (data.foldl crc16Update crc).toBitVec =
      feed crcPoly crc.toBitVec (messageBits data) := by
  induction data generalizing crc with
  | nil => rfl
  | cons byte data induction =>
      rw [List.foldl_cons, induction, crc16Update_toBitVec,
        messageBits_cons, ShiftRegister.feed_append]

/-- The CRC is what the register holds when the message has entered it. -/
theorem crc16Buf_toBitVec (data : List UInt8) :
    (crc16Buf data).toBitVec =
      feed crcPoly nrosCrc16Init.toBitVec (messageBits data) :=
  foldl_crc16Update_toBitVec nrosCrc16Init data

end NanoRos
