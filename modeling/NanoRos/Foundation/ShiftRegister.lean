import Mathlib.Algebra.Group.Nat.Defs
import Mathlib.Data.List.Count
import Mathlib.Data.List.GetD
import Mathlib.Logic.Function.Iterate
import Mathlib.Tactic.Common

/-!
# Linear feedback shift registers

A register of `width` bits divides the bits entered into it by a polynomial.
It is linear in the register and in the bits, so what it makes of two inputs
differs by what it makes of their difference.  From this follow the errors it
tells apart: every burst no longer than the register, and every set of at most
three bits when the polynomial has an even number of terms and a large order.
-/

namespace ShiftRegister

variable {width : Nat} (poly : BitVec width)

/-- One shift: the top bit goes out and, when set, the polynomial comes in. -/
def shift (register : BitVec width) : BitVec width :=
  if register.msb then (register <<< 1) ^^^ poly else register <<< 1

/-- A register with one bit, in the top place. -/
def top (bit : Bool) : BitVec width :=
  if bit then BitVec.twoPow width (width - 1) else 0#(width)

/-- Add a bit at the top and shift. -/
def enter (register : BitVec width) (bit : Bool) : BitVec width :=
  shift poly (register ^^^ top bit)

def feed (register : BitVec width) (bits : List Bool) : BitVec width :=
  bits.foldl (enter poly) register

theorem feed_append (register : BitVec width) (front back : List Bool) :
    feed poly register (front ++ back) =
      feed poly (feed poly register front) back :=
  List.foldl_append

/-! ## Linearity -/

theorem shift_xor (left right : BitVec width) :
    shift poly (left ^^^ right) = shift poly left ^^^ shift poly right := by
  simp only [shift, BitVec.msb_xor, BitVec.shiftLeft_xor_distrib]
  cases left.msb <;> cases right.msb
  · simp
  · simp [BitVec.xor_assoc]
  · simp only [Bool.xor_false, if_true, Bool.false_eq_true, if_false]
    ac_rfl
  · have cancelled : left <<< 1 ^^^ poly ^^^ (right <<< 1 ^^^ poly) =
        left <<< 1 ^^^ right <<< 1 ^^^ (poly ^^^ poly) := by
      ac_rfl
    simp [cancelled]

theorem shift_zero : shift poly 0#(width) = 0#(width) := by
  simp [shift]

theorem top_xor (left right : Bool) :
    (top (left ^^ right) : BitVec width) = top left ^^^ top right := by
  cases left <;> cases right <;> simp [top]

theorem enter_xor (left right : BitVec width) (bit other : Bool) :
    enter poly (left ^^^ right) (bit ^^ other) =
      enter poly left bit ^^^ enter poly right other := by
  have regrouped : left ^^^ right ^^^ (top bit ^^^ top other) =
      left ^^^ top bit ^^^ (right ^^^ top other) := by
    ac_rfl
  rw [enter, top_xor, regrouped, shift_xor]
  rfl

theorem enter_false (register : BitVec width) :
    enter poly register false = shift poly register := by
  simp [enter, top]

theorem feed_xor (left right : BitVec width) {bits others : List Bool}
    (sameLength : bits.length = others.length) :
    feed poly (left ^^^ right) (List.zipWith xor bits others) =
      feed poly left bits ^^^ feed poly right others := by
  induction bits generalizing left right others with
  | nil =>
      cases others with
      | nil => rfl
      | cons other others => cases sameLength
  | cons bit bits induction =>
      cases others with
      | nil => cases sameLength
      | cons other others =>
          have rest := Nat.succ.inj sameLength
          rw [List.zipWith_cons_cons]
          show feed poly (enter poly (left ^^^ right) (bit ^^ other)) _ = _
          rw [enter_xor, induction _ _ rest]
          rfl

theorem feed_replicate_false (register : BitVec width) (count : Nat) :
    feed poly register (List.replicate count false) =
      (shift poly)^[count] register := by
  induction count generalizing register with
  | zero => rfl
  | succ count induction =>
      rw [List.replicate_succ, Function.iterate_succ_apply]
      show feed poly (enter poly register false) _ = _
      rw [enter_false, induction]

theorem shifts_zero (count : Nat) :
    (shift poly)^[count] 0#(width) = 0#(width) := by
  induction count with
  | zero => rfl
  | succ count induction =>
      rw [Function.iterate_succ_apply, shift_zero, induction]

/-- The same bits carry a difference of registers along. -/
theorem feed_xor_feed (left right : BitVec width) (bits : List Bool) :
    feed poly left bits ^^^ feed poly right bits =
      (shift poly)^[bits.length] (left ^^^ right) := by
  have nothing :
      List.zipWith xor bits bits = List.replicate bits.length false := by
    induction bits with
    | nil => rfl
    | cons bit bits induction =>
        rw [List.zipWith_cons_cons, induction, List.length_cons,
          List.replicate_succ, Bool.xor_self]
  rw [← feed_xor poly left right rfl, nothing, feed_replicate_false]

/-! ## Nothing is lost -/

section Odd

variable (odd : poly.getLsbD 0 = true)

include odd

theorem width_pos : 0 < width := by
  rcases Nat.eq_zero_or_pos width with rfl | positive
  · rw [BitVec.getLsbD_of_ge poly 0 (Nat.le_refl 0)] at odd
    cases odd
  · exact positive

theorem eq_zero_of_shift_eq_zero {register : BitVec width}
    (zero : shift poly register = 0#(width)) : register = 0#(width) := by
  have positive := width_pos poly odd
  have clear : register.msb = false := by
    by_contra set_
    rw [Bool.not_eq_false] at set_
    have lowest := congrArg (BitVec.getLsbD · 0) zero
    simp [shift, set_, odd] at lowest
  apply BitVec.eq_of_getLsbD_eq
  intro index bound
  rw [BitVec.getLsbD_zero]
  by_cases last : index + 1 < width
  · have moved := congrArg (BitVec.getLsbD · (index + 1)) zero
    simpa [shift, clear, last, BitVec.getLsbD_eq_getElem bound] using moved
  · have top_ : index = width - 1 := by omega
    rw [top_, ← BitVec.msb_eq_getLsbD_last]
    exact clear

theorem shift_injective : Function.Injective (shift poly) := by
  intro left right equal
  apply BitVec.xor_eq_zero_iff.mp
  apply eq_zero_of_shift_eq_zero poly odd
  rw [shift_xor, equal, BitVec.xor_self]

theorem shifts_injective (count : Nat) :
    Function.Injective (shift poly)^[count] :=
  (shift_injective poly odd).iterate count

theorem feed_injective (bits : List Bool) :
    Function.Injective (feed poly · bits) := by
  intro left right equal
  apply BitVec.xor_eq_zero_iff.mp
  apply shifts_injective poly odd bits.length
  rw [← feed_xor_feed, shifts_zero, BitVec.xor_eq_zero_iff]
  exact equal

end Odd

/-! ## A register's worth of bits -/

/-- Some bits side by side, the first one in the top place. -/
def pack : List Bool → BitVec width
  | [] => 0#(width)
  | bit :: bits => top bit ^^^ (pack bits >>> 1)

theorem getMsbD_top (bit : Bool) {index : Nat} (bound : index < width) :
    (top bit : BitVec width).getMsbD index = (decide (index = 0) && bit) := by
  have positive : 0 < width := Nat.zero_lt_of_lt bound
  have place : width - (width - 1) - 1 = 0 := by omega
  cases bit with
  | false => simp [top]
  | true =>
      have below : width - 1 < width := Nat.sub_one_lt_of_lt positive
      simp [top, BitVec.getMsbD_twoPow, below, place]

theorem getMsbD_pack (bits : List Bool) {index : Nat}
    (bound : index < width) :
    (pack bits : BitVec width).getMsbD index = bits.getD index false := by
  induction bits generalizing index with
  | nil => simp [pack]
  | cons bit bits induction =>
      rw [pack, BitVec.getMsbD_xor, getMsbD_top bit bound,
        BitVec.getMsbD_ushiftRight]
      cases index with
      | zero => simp
      | succ index =>
          simp [bound, induction (Nat.lt_of_succ_lt bound)]

theorem pack_injective {bits others : List Bool}
    (sameLength : bits.length = others.length)
    (few : bits.length ≤ width)
    (equal : (pack bits : BitVec width) = pack others) : bits = others := by
  apply List.ext_getElem sameLength
  intro index bound otherBound
  have bits_ := congrArg (BitVec.getMsbD · index) equal
  simp only [getMsbD_pack _ (Nat.lt_of_lt_of_le bound few)] at bits_
  rwa [List.getD_eq_getElem _ _ bound, List.getD_eq_getElem _ _ otherBound]
    at bits_

/-- Bits that leave the lowest place free are shifted out to the top. -/
theorem shift_pack_tail {bits : List Bool} (few : bits.length < width) :
    shift poly (pack bits >>> 1) = pack bits := by
  have clear : (pack bits >>> 1 : BitVec width).msb = false := by
    simp [BitVec.msb_ushiftRight]
  simp only [shift, clear, Bool.false_eq_true, if_false]
  apply BitVec.eq_of_getMsbD_eq
  intro index bound
  rw [BitVec.getMsbD_shiftLeft, BitVec.getMsbD_ushiftRight]
  by_cases last : index + 1 < width
  · simp [last]
  · have free : bits.length ≤ index := by omega
    rw [getMsbD_pack bits bound, List.getD_eq_default _ _ free]
    simp [last]

/-- Entering no more bits than the register has is adding them at once. -/
theorem feed_eq_shifts_pack (register : BitVec width) (bits : List Bool)
    (few : bits.length ≤ width) :
    feed poly register bits =
      (shift poly)^[bits.length] (register ^^^ pack bits) := by
  induction bits generalizing register with
  | nil => simp [feed, pack]
  | cons bit bits induction =>
      have fewer : bits.length < width := few
      have split : enter poly register bit ^^^ pack bits =
          shift poly (register ^^^ pack (bit :: bits)) := by
        rw [pack, ← BitVec.xor_assoc, shift_xor, shift_pack_tail poly fewer]
        rfl
      show feed poly (enter poly register bit) bits = _
      rw [induction _ (Nat.le_of_lt fewer), split, List.length_cons,
        Function.iterate_succ_apply]

/-! ## Bursts -/

/-- Two inputs that differ in one stretch no longer than the register leave
different registers. -/
theorem feed_ne_of_burst (odd : poly.getLsbD 0 = true)
    (register : BitVec width) {bits others : List Bool}
    (sameLength : bits.length = others.length) (different : bits ≠ others)
    {start : Nat}
    (burst : ∀ index, bits[index]? ≠ others[index]? →
      start ≤ index ∧ index < start + width) :
    feed poly register bits ≠ feed poly register others := by
  have agree (index : Nat) (outside : index < start ∨ start + width ≤ index) :
      bits[index]? = others[index]? := by
    by_contra differ
    have inside := burst index differ
    omega
  have front : bits.take start = others.take start := by
    apply List.ext_getElem?
    intro index
    rw [List.getElem?_take, List.getElem?_take]
    split_ifs with before
    · exact agree index (.inl before)
    · rfl
  have back : bits.drop (start + width) = others.drop (start + width) := by
    apply List.ext_getElem?
    intro index
    rw [List.getElem?_drop, List.getElem?_drop]
    exact agree _ (.inr (Nat.le_add_right _ _))
  have cut (all : List Bool) : all = all.take start ++
      ((all.drop start).take width ++ all.drop (start + width)) := by
    rw [← List.drop_drop, List.take_append_drop, List.take_append_drop]
  intro equal
  rw [cut bits, cut others, feed_append, feed_append, feed_append,
    feed_append, front, back] at equal
  have windows := feed_injective poly odd _ equal
  have windowLength : ((bits.drop start).take width).length =
      ((others.drop start).take width).length := by
    simp [sameLength]
  have fits (all : List Bool) : ((all.drop start).take width).length ≤ width :=
    List.length_take_le _ _
  rw [feed_eq_shifts_pack _ _ _ (fits _), feed_eq_shifts_pack _ _ _ (fits _),
    windowLength] at windows
  have packed := (BitVec.xor_right_inj _).mp
    (shifts_injective poly odd _ windows)
  have middle := pack_injective windowLength (fits _) packed
  apply different
  rw [cut bits, cut others, front, middle, back]

/-! ## Parity -/

/-- Whether an odd number of the places below `count` are set. -/
def parityBelow : Nat → BitVec width → Bool
  | 0, _ => false
  | count + 1, register => parityBelow count register ^^ register.getLsbD count

def parity (register : BitVec width) : Bool := parityBelow width register

theorem parityBelow_xor (count : Nat) (left right : BitVec width) :
    parityBelow count (left ^^^ right) =
      (parityBelow count left ^^ parityBelow count right) := by
  induction count with
  | zero => rfl
  | succ count induction =>
      simp only [parityBelow, induction, BitVec.getLsbD_xor]
      cases parityBelow count right <;> cases left.getLsbD count <;> simp

theorem parity_xor (left right : BitVec width) :
    parity (left ^^^ right) = (parity left ^^ parity right) :=
  parityBelow_xor width left right

theorem parity_zero : parity 0#(width) = false := by
  have same := parity_xor 0#(width) 0#(width)
  rwa [BitVec.xor_self, Bool.xor_self] at same

theorem parityBelow_shiftLeft {count : Nat} (bound : count < width)
    (register : BitVec width) :
    parityBelow (count + 1) (register <<< 1) = parityBelow count register := by
  induction count with
  | zero => simp [parityBelow]
  | succ count induction =>
      rw [parityBelow, induction (Nat.lt_of_succ_lt bound)]
      simp [parityBelow, bound, BitVec.getLsbD_eq_getElem
        (Nat.lt_of_succ_lt bound)]

/-- With an even number of terms in all, the leading one included, the
polynomial keeps the parity. -/
theorem parity_shift (even : parity poly = true) (register : BitVec width) :
    parity (shift poly register) = parity register := by
  cases width with
  | zero => cases even
  | succ count =>
      have moved : parity (register <<< 1) = parityBelow count register :=
        parityBelow_shiftLeft (Nat.lt_succ_self count) register
      have whole : parity register =
          (parityBelow count register ^^ register.msb) := by
        rw [BitVec.msb_eq_getLsbD_last]
        rfl
      rw [whole]
      cases out : register.msb with
      | false => simp [shift, out, moved]
      | true => simp [shift, out, parity_xor, moved, even]

theorem parity_top (positive : 0 < width) (bit : Bool) :
    parity (top bit : BitVec width) = bit := by
  cases bit with
  | false => simp [top, parity_zero]
  | true =>
      have below {count : Nat} (bound : count < width) :
          parityBelow count (top true : BitVec width) = false := by
        induction count with
        | zero => rfl
        | succ count induction =>
            have other : width - 1 ≠ count := by omega
            rw [parityBelow, induction (Nat.lt_of_succ_lt bound)]
            simp [top, other]
      obtain ⟨count, rfl⟩ := Nat.exists_eq_succ_of_ne_zero
        (Nat.pos_iff_ne_zero.mp positive)
      rw [parity, parityBelow, below (Nat.lt_succ_self count)]
      simp [top]

theorem parity_feed (even : parity poly = true) (register : BitVec width)
    (bits : List Bool) :
    parity (feed poly register bits) =
      (parity register ^^ decide (bits.count true % 2 = 1)) := by
  have positive : 0 < width := by
    rcases Nat.eq_zero_or_pos width with rfl | positive
    · cases even
    · exact positive
  induction bits generalizing register with
  | nil => simp [feed]
  | cons bit bits induction =>
      show parity (feed poly (enter poly register bit) bits) = _
      rw [induction, enter, parity_shift poly even, parity_xor,
        parity_top positive, List.count_cons]
      cases bit with
      | false => simp
      | true =>
          rcases Nat.mod_two_eq_zero_or_one (bits.count true) with even_ | odd_
          · have next : (bits.count true + 1) % 2 = 1 := by omega
            simp [even_, next]
          · have next : (bits.count true + 1) % 2 = 0 := by omega
            simp [odd_, next]

/-! ## Few bits -/

theorem shift_top_true (positive : 0 < width) :
    shift poly (top true) = poly := by
  have below : width - 1 < width := Nat.sub_one_lt_of_lt positive
  have out : (top true : BitVec width).msb = true := by
    simp [top, BitVec.msb_twoPow, below]
  have gone : (top true : BitVec width) <<< 1 = 0#(width) := by
    apply BitVec.eq_of_getLsbD_eq
    intro index bound
    have other : ¬(1 ≤ index ∧ width - 1 = index - 1) := by omega
    simp only [top, BitVec.getLsbD_shiftLeft, BitVec.getLsbD_twoPow,
      BitVec.getLsbD_zero, if_true, bound, below, decide_true]
    grind
  simp [shift, out, gone]

/-- Two bits leave the difference of two powers of one shift. -/
theorem feed_two (positive : 0 < width) (before between behind : Nat) :
    feed poly 0#(width) (List.replicate before false ++
        true :: (List.replicate between false ++
          true :: List.replicate behind false)) =
      (shift poly)^[behind] ((shift poly)^[between + 1] poly ^^^ poly) := by
  have first : enter poly 0#(width) true = poly := by
    rw [enter, BitVec.zero_xor, shift_top_true poly positive]
  have second (register : BitVec width) :
      enter poly register true = shift poly register ^^^ poly := by
    rw [enter, shift_xor, shift_top_true poly positive]
  rw [feed_append, feed_replicate_false, shifts_zero]
  show feed poly (enter poly 0#(width) true) _ = _
  rw [first, feed_append, feed_replicate_false]
  show feed poly (enter poly ((shift poly)^[between] poly) true) _ = _
  rw [second, feed_replicate_false, Function.iterate_succ_apply']

theorem eq_replicate_of_count_eq_zero {bits : List Bool}
    (none_ : bits.count true = 0) :
    bits = List.replicate bits.length false := by
  apply List.eq_replicate_iff.mpr
  refine ⟨rfl, fun bit member => ?_⟩
  cases bit with
  | false => rfl
  | true => exact absurd member (List.count_eq_zero.mp none_)

/-- The first bit that is set, and the count of the others. -/
theorem exists_first {bits : List Bool} (member : true ∈ bits) :
    ∃ before rest, bits = List.replicate before false ++ true :: rest ∧
      bits.count true = rest.count true + 1 := by
  obtain ⟨front, rest, rfl, absent⟩ := List.eq_append_cons_of_mem member
  have clear := eq_replicate_of_count_eq_zero (List.count_eq_zero.mpr absent)
  refine ⟨front.length, rest, by rw [← clear], ?_⟩
  rw [List.count_append, List.count_eq_zero.mpr absent, List.count_cons_self,
    Nat.zero_add]

/-- One, two or three bits leave something in the register: an odd number of
them an odd register, and two of them as long as their distance is below the
order of the polynomial. -/
theorem feed_ne_zero_of_few (odd : poly.getLsbD 0 = true)
    (even : parity poly = true) {limit : Nat}
    (order : ∀ count, 0 < count → count < limit →
      (shift poly)^[count] poly ≠ poly)
    {bits : List Bool} (short : bits.length ≤ limit)
    (some_ : 1 ≤ bits.count true) (few : bits.count true ≤ 3) :
    feed poly 0#(width) bits ≠ 0#(width) := by
  intro zero
  by_cases two : bits.count true = 2
  · obtain ⟨before, rest, split, counted⟩ :=
      exists_first (List.count_pos_iff.mp some_)
    have another : 0 < rest.count true := by omega
    obtain ⟨between, last, restSplit, restCounted⟩ :=
      exists_first (List.count_pos_iff.mp another)
    have noOther : last.count true = 0 := by omega
    have clear := eq_replicate_of_count_eq_zero noOther
    rw [split, restSplit, clear, feed_two poly (width_pos poly odd)] at zero
    rw [← shifts_zero poly last.length] at zero
    have same := BitVec.xor_eq_zero_iff.mp
      (shifts_injective poly odd _ zero)
    have lengths : between + 1 < bits.length := by
      rw [split, restSplit]
      simp only [List.length_append, List.length_replicate,
        List.length_cons]
      omega
    exact order (between + 1) (Nat.succ_pos _)
      (Nat.lt_of_lt_of_le lengths short) same
  · have parities := parity_feed poly even 0#(width) bits
    have isOdd : bits.count true % 2 = 1 := by omega
    rw [zero, parity_zero, isOdd] at parities
    cases parities

/-- None of the next `count` shifts of the register gives the polynomial. -/
def avoids : Nat → BitVec width → Bool
  | 0, _ => true
  | count + 1, register =>
      shift poly register != poly && avoids count (shift poly register)

theorem shifts_ne_of_avoids {limit : Nat} {register : BitVec width}
    (avoided : avoids poly limit register = true) {count : Nat}
    (positive : 0 < count) (bound : count ≤ limit) :
    (shift poly)^[count] register ≠ poly := by
  induction limit generalizing register count with
  | zero => omega
  | succ limit induction =>
      simp only [avoids, Bool.and_eq_true, bne_iff_ne] at avoided
      cases count with
      | zero => omega
      | succ count =>
          rw [Function.iterate_succ_apply]
          cases count with
          | zero => exact avoided.1
          | succ count =>
              exact induction avoided.2 (Nat.succ_pos count)
                (Nat.le_of_succ_le_succ bound)

end ShiftRegister
