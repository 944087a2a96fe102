import Mathlib.Data.List.Forall2
import Mathlib.Logic.Function.Iterate
import NanoRos.Foundation.Buffer

/-!
# Aligned chunks

A message is laid out as chunks, one after another, each at the next multiple
of its own alignment.  Where the chunks end, what a memory that received them
holds, and what is read back at the same places are all functions of the list
of chunks and of the position it starts at.
-/

universe u v

/-- The first multiple of `align` from `pos` on. -/
def alignUp (align pos : Nat) : Nat := pos + (align - pos % align) % align

theorem le_alignUp (align pos : Nat) : pos ≤ alignUp align pos :=
  Nat.le_add_right _ _

theorem alignUp_of_dvd {align pos : Nat} (aligned : align ∣ pos) :
    alignUp align pos = pos := by
  rw [alignUp, Nat.mod_eq_zero_of_dvd aligned, Nat.sub_zero, Nat.mod_self,
    Nat.add_zero]

theorem dvd_alignUp {align : Nat} (positive : 0 < align) (pos : Nat) :
    align ∣ alignUp align pos := by
  by_cases aligned : align ∣ pos
  · rw [alignUp_of_dvd aligned]
    exact aligned
  · have residue : 0 < pos % align :=
      Nat.pos_of_ne_zero fun zero => aligned (Nat.dvd_of_mod_eq_zero zero)
    have below := Nat.mod_lt pos positive
    have whole := Nat.div_add_mod pos align
    refine ⟨pos / align + 1, ?_⟩
    rw [alignUp, Nat.mod_eq_of_lt (by omega), Nat.mul_add, Nat.mul_one]
    omega

/-- No smaller multiple would do. -/
theorem alignUp_le_of_dvd {align pos bound : Nat} (positive : 0 < align)
    (le : pos ≤ bound) (aligned : align ∣ bound) :
    alignUp align pos ≤ bound := by
  obtain ⟨quotient, rfl⟩ := aligned
  have below := Nat.mod_lt pos positive
  have whole := Nat.div_add_mod pos align
  by_cases residue : pos % align = 0
  · rw [alignUp_of_dvd (Nat.dvd_of_mod_eq_zero residue)]
    exact le
  · have next : pos / align < quotient :=
      Nat.div_lt_of_lt_mul (Nat.lt_of_le_of_ne le fun equal =>
        residue (by rw [equal, Nat.mul_mod_right]))
    have more : align * (pos / align + 1) ≤ align * quotient :=
      Nat.mul_le_mul_left align next
    rw [Nat.mul_add, Nat.mul_one] at more
    rw [alignUp, Nat.mod_eq_of_lt (by omega)]
    omega

/-- Padding does not depend on whole blocks. -/
theorem alignUp_add {align blocks : Nat} (divides : align ∣ blocks)
    (pos : Nat) : alignUp align (pos + blocks) = alignUp align pos + blocks := by
  obtain ⟨count, rfl⟩ := divides
  rw [alignUp, alignUp, Nat.add_mul_mod_self_left]
  omega

theorem alignUp_mono {align : Nat} (positive : 0 < align) {left right : Nat}
    (le : left ≤ right) : alignUp align left ≤ alignUp align right :=
  alignUp_le_of_dvd positive (Nat.le_trans le (le_alignUp align right))
    (dvd_alignUp positive right)

/-- Bytes that go to a multiple of `align` and end at one. -/
structure Chunk (α : Type u) where
  align : Nat
  bytes : List α
  positive : 0 < align
  divides : align ∣ bytes.length

namespace Chunk

variable {α : Type u}

/-- The position after a chunk. -/
def next (chunk : Chunk α) (pos : Nat) : Nat :=
  alignUp chunk.align pos + chunk.bytes.length

theorem le_next (chunk : Chunk α) (pos : Nat) : pos ≤ chunk.next pos :=
  Nat.le_trans (le_alignUp _ _) (Nat.le_add_right _ _)

theorem dvd_next (chunk : Chunk α) (pos : Nat) :
    chunk.align ∣ chunk.next pos :=
  Nat.dvd_add (dvd_alignUp chunk.positive pos) chunk.divides

/-- The position after a list of chunks. -/
def endOf (chunks : List (Chunk α)) (pos : Nat) : Nat :=
  chunks.foldl (fun pos chunk => chunk.next pos) pos

@[simp] theorem endOf_nil (pos : Nat) :
    endOf ([] : List (Chunk α)) pos = pos := rfl

@[simp] theorem endOf_cons (chunk : Chunk α) (chunks : List (Chunk α))
    (pos : Nat) : endOf (chunk :: chunks) pos = endOf chunks (chunk.next pos) :=
  rfl

theorem endOf_append (left right : List (Chunk α)) (pos : Nat) :
    endOf (left ++ right) pos = endOf right (endOf left pos) :=
  List.foldl_append

theorem le_endOf (chunks : List (Chunk α)) (pos : Nat) :
    pos ≤ endOf chunks pos := by
  induction chunks generalizing pos with
  | nil => exact Nat.le_refl pos
  | cons chunk chunks induction =>
      exact Nat.le_trans (chunk.le_next pos) (induction _)

/-- Where the chunks of the elements of a list end at most. -/
theorem endOf_flatMap_le {β : Type v} {chunks : β → List (Chunk α)}
    {longest : Nat → Nat} {elements : List β}
    (each : ∀ element ∈ elements, ∀ {pos later}, pos ≤ later →
      endOf (chunks element) pos ≤ longest later)
    {pos later : Nat} (le : pos ≤ later) :
    endOf (elements.flatMap chunks) pos ≤
      longest^[elements.length] later := by
  induction elements generalizing pos later with
  | nil => exact le
  | cons element elements induction =>
      rw [List.flatMap_cons, endOf_append, List.length_cons,
        Function.iterate_succ_apply]
      exact induction
        (fun other member => each other (List.mem_cons_of_mem _ member))
        (each element List.mem_cons_self le)

theorem endOf_flatMap_replicate {β : Type v} {chunks : β → List (Chunk α)}
    {longest : Nat → Nat} {element : β}
    (ends : ∀ pos, endOf (chunks element) pos = longest pos)
    (count pos : Nat) :
    endOf ((List.replicate count element).flatMap chunks) pos =
      longest^[count] pos := by
  induction count generalizing pos with
  | zero => rfl
  | succ count induction =>
      rw [List.replicate_succ, List.flatMap_cons, endOf_append, induction,
        ends, Function.iterate_succ_apply]

/-! ### What a memory holds -/

/-- The cells hold the bytes of each chunk at its place. -/
def HeldBy (cells : List α) : List (Chunk α) → Nat → Prop
  | [], _ => True
  | chunk :: chunks, pos =>
      (cells.drop (alignUp chunk.align pos)).take chunk.bytes.length =
          chunk.bytes ∧
        HeldBy cells chunks (chunk.next pos)

theorem heldBy_append {cells : List α} {left right : List (Chunk α)}
    {pos : Nat} :
    HeldBy cells (left ++ right) pos ↔
      HeldBy cells left pos ∧ HeldBy cells right (endOf left pos) := by
  induction left generalizing pos with
  | nil => simp [HeldBy]
  | cons chunk left induction =>
      simp only [List.cons_append, HeldBy, induction, endOf_cons, and_assoc]

/-- What is held is held by every memory that starts with the same cells. -/
theorem HeldBy.of_take {cells others : List α} {chunks : List (Chunk α)}
    {pos : Nat} (held : HeldBy cells chunks pos) {count : Nat}
    (inside : endOf chunks pos ≤ count)
    (same : others.take count = cells.take count) :
    HeldBy others chunks pos := by
  induction chunks generalizing pos with
  | nil => trivial
  | cons chunk chunks induction =>
      refine ⟨?_, induction held.2 inside⟩
      have here : alignUp chunk.align pos + chunk.bytes.length ≤ count :=
        Nat.le_trans (le_endOf chunks (chunk.next pos)) inside
      have cut (cells : List α) :
          (cells.drop (alignUp chunk.align pos)).take chunk.bytes.length =
            ((cells.take count).drop (alignUp chunk.align pos)).take
              chunk.bytes.length := by
        rw [List.drop_take, List.take_take, Nat.min_eq_left (by omega)]
      rw [cut, same, ← cut]
      exact held.1

/-! ### Writing -/

/-- Copy each chunk to its place. -/
def write {capacity : Nat} (memory : Buffer α capacity) :
    List (Chunk α) → Nat → Buffer α capacity
  | [], _ => memory
  | chunk :: chunks, pos =>
      write (memory.copy (alignUp chunk.align pos) chunk.bytes) chunks
        (chunk.next pos)

theorem write_append {capacity : Nat} (memory : Buffer α capacity)
    (left right : List (Chunk α)) (pos : Nat) :
    write memory (left ++ right) pos =
      write (write memory left pos) right (endOf left pos) := by
  induction left generalizing memory pos with
  | nil => rfl
  | cons chunk left induction =>
      rw [List.cons_append, write, induction, write, endOf_cons]

/-- Nothing before the position is touched. -/
theorem take_write {capacity : Nat} (memory : Buffer α capacity)
    {chunks : List (Chunk α)} {pos count : Nat} (before : count ≤ pos)
    (inside : endOf chunks pos ≤ capacity) :
    (write memory chunks pos).take count = memory.take count := by
  induction chunks generalizing memory pos with
  | nil => rfl
  | cons chunk chunks induction =>
      have start := le_alignUp chunk.align pos
      have here : alignUp chunk.align pos + chunk.bytes.length ≤ capacity :=
        Nat.le_trans (le_endOf chunks (chunk.next pos)) inside
      have later : count ≤ chunk.next pos :=
        Nat.le_trans before (chunk.le_next pos)
      rw [write, induction _ later inside, Buffer.take, Buffer.take,
        Buffer.copy_cells _ here, List.append_assoc,
        List.take_append_of_le_length, List.take_take,
        Nat.min_eq_left (by omega)]
      rw [List.length_take, memory.length_eq]
      omega

/-- What was written is held. -/
theorem heldBy_write {capacity : Nat} (memory : Buffer α capacity)
    {chunks : List (Chunk α)} {pos : Nat}
    (inside : endOf chunks pos ≤ capacity) :
    HeldBy (write memory chunks pos).cells chunks pos := by
  induction chunks generalizing memory pos with
  | nil => trivial
  | cons chunk chunks induction =>
      have here : alignUp chunk.align pos + chunk.bytes.length ≤ capacity :=
        Nat.le_trans (le_endOf chunks (chunk.next pos)) inside
      refine ⟨?_, induction _ inside⟩
      -- later chunks leave what lies before them alone
      have kept := take_write
        (memory.copy (alignUp chunk.align pos) chunk.bytes)
        (Nat.le_refl (chunk.next pos)) inside
      have taken := memory.take_copy (alignUp chunk.align pos) chunk.bytes here
      have cells : (write memory (chunk :: chunks) pos).cells.take
          (alignUp chunk.align pos + chunk.bytes.length) =
            memory.take (alignUp chunk.align pos) ++ chunk.bytes :=
        kept.trans taken
      have front : (memory.take (alignUp chunk.align pos)).length =
          alignUp chunk.align pos := by
        rw [Buffer.length_take]
        omega
      have cut : ((write memory (chunk :: chunks) pos).cells.drop
          (alignUp chunk.align pos)).take chunk.bytes.length =
            ((write memory (chunk :: chunks) pos).cells.take
              (alignUp chunk.align pos + chunk.bytes.length)).drop
                (alignUp chunk.align pos) := by
        rw [List.drop_take, Nat.add_sub_cancel_left]
      rw [cut, cells, List.drop_left' front]

/-! ### The encoding itself -/

/-- The bytes from a position on; padding has no value of its own. -/
def layout : List (Chunk α) → Nat → List (Option α)
  | [], _ => []
  | chunk :: chunks, pos =>
      List.replicate (alignUp chunk.align pos - pos) none ++
        chunk.bytes.map some ++ layout chunks (chunk.next pos)

/-- The bytes are those of an encoding, wherever it has one. -/
def Agrees (bytes : List α) (encoding : List (Option α)) : Prop :=
  List.Forall₂ (fun byte cell => ∀ value ∈ cell, byte = value) bytes encoding

theorem length_layout (chunks : List (Chunk α)) (pos : Nat) :
    pos + (layout chunks pos).length = endOf chunks pos := by
  induction chunks generalizing pos with
  | nil => rfl
  | cons chunk chunks induction =>
      have start := le_alignUp chunk.align pos
      have rest := induction (chunk.next pos)
      simp only [layout, List.length_append, List.length_replicate,
        List.length_map, endOf_cons, ← rest]
      simp only [next]
      omega

theorem layout_append (left right : List (Chunk α)) (pos : Nat) :
    layout (left ++ right) pos =
      layout left pos ++ layout right (endOf left pos) := by
  induction left generalizing pos with
  | nil => rfl
  | cons chunk left induction =>
      simp only [List.cons_append, layout, induction, endOf_cons,
        List.append_assoc]

/-- Lists laid out alike stay so when lists laid out alike follow. -/
theorem layout_append_congr {left left' right right' : List (Chunk α)}
    (first : ∀ pos, layout left pos = layout left' pos)
    (second : ∀ pos, layout right pos = layout right' pos) (pos : Nat) :
    layout (left ++ right) pos = layout (left' ++ right') pos := by
  have ends : endOf left pos = endOf left' pos := by
    rw [← length_layout, ← length_layout, first]
  rw [layout_append, layout_append, first, second, ends]

/-- Layouts agree on lists of elements when they agree on each. -/
theorem layout_flatMap_congr {β : Type v} {left right : β → List (Chunk α)}
    {elements : List β}
    (same : ∀ element ∈ elements, ∀ pos,
      layout (left element) pos = layout (right element) pos)
    (pos : Nat) :
    layout (elements.flatMap left) pos =
      layout (elements.flatMap right) pos := by
  induction elements generalizing pos with
  | nil => rfl
  | cons element elements induction =>
      rw [List.flatMap_cons, List.flatMap_cons]
      exact layout_append_congr (same element List.mem_cons_self)
        (induction fun other member =>
          same other (List.mem_cons_of_mem _ member)) pos

theorem agrees_map_some (bytes : List α) : Agrees bytes (bytes.map some) := by
  rw [Agrees, List.forall₂_map_right_iff]
  exact List.forall₂_same.mpr fun byte _ value member =>
    Option.some.inj member

theorem agrees_padding (bytes : List α) :
    Agrees bytes (List.replicate bytes.length none) := by
  induction bytes with
  | nil => exact .nil
  | cons byte bytes induction =>
      exact .cons (fun value member => nomatch member) induction

/-- A memory that holds the chunks agrees with their encoding. -/
theorem HeldBy.agrees {cells : List α} {chunks : List (Chunk α)} {pos : Nat}
    (held : HeldBy cells chunks pos)
    (inside : endOf chunks pos ≤ cells.length) :
    Agrees ((cells.drop pos).take (layout chunks pos).length)
      (layout chunks pos) := by
  induction chunks generalizing pos with
  | nil =>
      simp only [layout, List.length_nil, List.take_zero]
      exact .nil
  | cons chunk chunks induction =>
      obtain ⟨here, later⟩ := held
      have start := le_alignUp chunk.align pos
      have total := length_layout chunks (chunk.next pos)
      have rest := induction later inside
      have nextEq : chunk.next pos =
          alignUp chunk.align pos + chunk.bytes.length := rfl
      have size : (layout (chunk :: chunks) pos).length =
          (alignUp chunk.align pos - pos) + (chunk.bytes.length +
            (layout chunks (chunk.next pos)).length) := by
        simp only [layout, List.length_append, List.length_replicate,
          List.length_map, Nat.add_assoc]
      have padding : ((cells.drop pos).take
          (alignUp chunk.align pos - pos)).length =
            alignUp chunk.align pos - pos := by
        simp only [endOf_cons] at inside
        rw [List.length_take, List.length_drop]
        omega
      rw [size, List.take_add, List.drop_drop,
        Nat.add_sub_cancel' start, List.take_add, here, List.drop_drop,
        ← nextEq, layout, List.append_assoc]
      refine List.rel_append ?_ (List.rel_append (agrees_map_some _) rest)
      have blank := agrees_padding
        ((cells.drop pos).take (alignUp chunk.align pos - pos))
      rwa [padding] at blank

theorem Agrees.length_eq {bytes : List α} {encoding : List (Option α)}
    (agrees : Agrees bytes encoding) : bytes.length = encoding.length :=
  List.Forall₂.length_eq agrees

theorem eq_of_agrees_map_some {bytes values : List α}
    (agrees : Agrees bytes (values.map some)) : bytes = values := by
  rw [Agrees, List.forall₂_map_right_iff] at agrees
  apply List.forall₂_eq_eq_eq ▸ agrees.imp
  intro byte value holds
  exact holds value rfl

/-- What agrees with the encoding holds the chunks. -/
theorem HeldBy.of_agrees {cells : List α} {chunks : List (Chunk α)} {pos : Nat}
    (agrees : Agrees (cells.drop pos) (layout chunks pos)) :
    HeldBy cells chunks pos := by
  induction chunks generalizing pos with
  | nil => trivial
  | cons chunk chunks induction =>
      have start := le_alignUp chunk.align pos
      rw [layout, List.append_assoc] at agrees
      have onward := List.forall₂_drop_append _ _ _ agrees
      rw [List.length_replicate, List.drop_drop, Nat.add_sub_cancel' start]
        at onward
      have here := List.forall₂_take_append _ _ _ onward
      have later := List.forall₂_drop_append _ _ _ onward
      rw [List.length_map] at here later
      rw [List.drop_drop] at later
      exact ⟨eq_of_agrees_map_some here, induction later⟩

/-- Chunks of one alignment that start aligned have no padding. -/
theorem layout_of_aligned {align : Nat} {chunks : List (Chunk α)}
    (uniform : ∀ chunk ∈ chunks, chunk.align = align) {pos : Nat}
    (aligned : align ∣ pos) :
    layout chunks pos = (chunks.flatMap bytes).map some := by
  induction chunks generalizing pos with
  | nil => rfl
  | cons chunk chunks induction =>
      have same : chunk.align = align := uniform chunk List.mem_cons_self
      have later := induction
        (fun other member => uniform other (List.mem_cons_of_mem _ member))
        (same ▸ chunk.dvd_next pos)
      rw [layout, later, same, alignUp_of_dvd aligned, Nat.sub_self]
      simp

/-- One chunk for several of the same alignment. -/
theorem layout_joined {chunks : List (Chunk α)} (some_ : chunks ≠ [])
    (joined : Chunk α)
    (uniform : ∀ chunk ∈ chunks, chunk.align = joined.align)
    (content : joined.bytes = chunks.flatMap bytes) (pos : Nat) :
    layout [joined] pos = layout chunks pos := by
  obtain ⟨chunk, chunks, rfl⟩ := List.exists_cons_of_ne_nil some_
  have same : chunk.align = joined.align := uniform chunk List.mem_cons_self
  have later := layout_of_aligned
    (fun other member => uniform other (List.mem_cons_of_mem _ member))
    (same ▸ chunk.dvd_next pos)
  rw [layout, layout, layout, later, content, same]
  simp

end Chunk
