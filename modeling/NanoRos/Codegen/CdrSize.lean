import NanoRos.MicroCdrSteps
import NanoRos.Codegen.MsgField

/-!
# Size of a message

The calculation behind `<TOPIC>_MAX_SIZE` and its compile-time check.  The
generator follows the position modulo 1, 2, 4 or 8, the exact position being
unknown after a string.
-/

namespace NanoRos.Codegen

open UcdrBuffer (IsWidth)

/-- `CDR_ENCAP_HEADER_LEN`. -/
def cdrEncapHeaderLen : Nat := 4

/-- `STRING_MAX_BYTES`. -/
def stringMaxBytes : Nat := 256

/-- `CdrPos`: the position is `r` modulo `m`. -/
structure CdrPos where
  r : Nat
  m : Nat
  deriving DecidableEq, Repr

namespace CdrPos

/-- The padding `add` reckons with, at worst. -/
def pad (pos : CdrPos) (align : Nat) : Nat :=
  if align ≤ pos.m then
    (align - pos.r % align) % align
  else
    ((List.range (align / pos.m)).map fun k =>
      (align - (pos.r + k * pos.m) % align) % align).max?.getD 0

/-- `CdrPos::add`. -/
def add (pos : CdrPos) (align size : Nat) : Nat × CdrPos :=
  (pos.pad align + size,
    if pos.m < align then
      { r := size % align, m := align }
    else
      { r := (pos.r + pos.pad align + size) % pos.m, m := pos.m })

/-- `CdrPos::add_prim`. -/
def addPrim (prim : PrimType) (pos : CdrPos) : Nat × CdrPos :=
  match prim with
  | .string => ((pos.add 4 4).1 + stringMaxBytes, { r := 0, m := 1 })
  | prim => pos.add prim.align prim.size

end CdrPos

/-- The sum over `count` elements, each from where the one before ended. -/
def sumRepeated (element : CdrPos → Nat × CdrPos) :
    Nat → CdrPos → Nat × CdrPos
  | 0, pos => (0, pos)
  | count + 1, pos =>
      let first := element pos
      let rest := sumRepeated element count first.2
      (first.1 + rest.1, rest.2)

mutual

/-- A field's part of `max_cdr_size`. -/
def FieldType.maxCdrSize : FieldType → CdrPos → Nat × CdrPos
  | .primitive prim, pos => CdrPos.addPrim prim pos
  | .primArray prim len, pos => sumRepeated (CdrPos.addPrim prim) len pos
  | .nested _ fields, pos => maxCdrSize fields pos
  | .nestedArray _ fields len, pos => sumRepeated (maxCdrSize fields) len pos

def MsgField.maxCdrSize : MsgField → CdrPos → Nat × CdrPos
  | .mk _ fieldType, pos => fieldType.maxCdrSize pos

/-- `max_cdr_size`. -/
def maxCdrSize : List MsgField → CdrPos → Nat × CdrPos
  | [], pos => (0, pos)
  | field :: fields, pos =>
      let first := field.maxCdrSize pos
      let rest := maxCdrSize fields first.2
      (first.1 + rest.1, rest.2)

end

/-- `max_payload_size`. -/
def maxPayloadSize (topic : Topic) : Nat :=
  cdrEncapHeaderLen + (maxCdrSize topic.fields { r := 0, m := 8 }).1

/-- The check of `generate_wire_checks` on a topic's payload. -/
def PayloadCheck (topic : Topic) : Prop :=
  maxPayloadSize topic ≤ nrosMaxPayload

instance (topic : Topic) : Decidable (PayloadCheck topic) :=
  inferInstanceAs (Decidable (_ ≤ _))

/-! ## What a position knows -/

/-- A place in the message agrees with what the generator knows of it. -/
structure CdrPos.Knows (pos : CdrPos) (offset : Nat) : Prop where
  width : IsWidth pos.m
  residue : offset % pos.m = pos.r

/-- After a string nothing is known. -/
theorem CdrPos.knows_unknown (offset : Nat) :
    CdrPos.Knows { r := 0, m := 1 } offset where
  width := .inl rfl
  residue := Nat.mod_one offset

theorem CdrPos.knows_start : CdrPos.Knows { r := 0, m := 8 } 0 where
  width := .inr (.inr (.inr rfl))
  residue := rfl

namespace CdrPos

variable {pos : CdrPos} {offset align : Nat}

/-- Where enough is known the padding is exact. -/
theorem Knows.pad_eq (knows : pos.Knows offset) (width : IsWidth align)
    (le : align ≤ pos.m) :
    offset + pos.pad align = alignUp align offset := by
  have divides := width.dvd_of_le knows.width le
  rw [pad, if_pos le, ← knows.residue, Nat.mod_mod_of_dvd _ divides, alignUp]

/-- Elsewhere it is the worst of the paddings the position may need. -/
theorem Knows.le_pad (knows : pos.Knows offset) (width : IsWidth align) :
    alignUp align offset ≤ offset + pos.pad align := by
  by_cases le : align ≤ pos.m
  · exact Nat.le_of_eq (knows.pad_eq width le).symm
  · have divides := knows.width.dvd_of_le width
      (Nat.le_of_lt (Nat.lt_of_not_le le))
    obtain ⟨blocks, rfl⟩ := divides
    have positive := knows.width.positive
    -- the residue in question is the one of the position itself
    have digits : offset % (pos.m * blocks) =
        pos.r + (offset / pos.m % blocks) * pos.m := by
      rw [Nat.mod_mul, knows.residue, Nat.mul_comm]
    have some_ : 0 < blocks := by
      have := width.positive
      exact Nat.pos_of_mul_pos_left this
    have member : (pos.m * blocks - offset % (pos.m * blocks)) %
        (pos.m * blocks) ∈
        (List.range (pos.m * blocks / pos.m)).map fun k =>
          (pos.m * blocks - (pos.r + k * pos.m) % (pos.m * blocks)) %
            (pos.m * blocks) := by
      refine List.mem_map.mpr ⟨offset / pos.m % blocks, ?_, ?_⟩
      · rw [List.mem_range, Nat.mul_div_cancel_left _ positive]
        exact Nat.mod_lt _ some_
      · rw [← digits, Nat.mod_mod]
    rw [pad, if_neg le, alignUp]
    exact Nat.add_le_add_left (List.le_max?_getD_of_mem member) offset

/-- The new position knows where an aligned item ends. -/
theorem Knows.add (knows : pos.Knows offset) (width : IsWidth align)
    (size : Nat) :
    (pos.add align size).2.Knows (alignUp align offset + size) := by
  rw [CdrPos.add]
  by_cases wider : pos.m < align
  · rw [if_pos wider]
    refine ⟨width, ?_⟩
    obtain ⟨blocks, aligned⟩ := dvd_alignUp width.positive offset
    rw [aligned]
    exact Nat.mul_add_mod _ _ _
  · rw [if_neg wider]
    refine ⟨knows.width, ?_⟩
    have le := Nat.le_of_not_lt wider
    rw [← knows.pad_eq width le, ← knows.residue]
    simp only [Nat.add_mod, Nat.mod_mod]

theorem Knows.le_add (knows : pos.Knows offset) (width : IsWidth align)
    (size : Nat) :
    alignUp align offset + size ≤ offset + (pos.add align size).1 := by
  have padding := knows.le_pad width
  simp only [CdrPos.add]
  omega

end CdrPos

end NanoRos.Codegen
