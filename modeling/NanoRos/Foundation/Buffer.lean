import Mathlib.Tactic.Common
import Mathlib.Data.List.Basic

/-!
# Fixed-capacity buffers

A buffer is a block of memory whose size never changes.  Stores and copies
outside the block leave it as it is; callers prove that theirs are inside.
-/

universe u

/-- A block of exactly `capacity` cells. -/
structure Buffer (α : Type u) (capacity : Nat) where
  cells : List α
  length_eq : cells.length = capacity
  deriving DecidableEq

namespace Buffer

variable {α : Type u} {capacity : Nat}

theorem ext_cells {left right : Buffer α capacity}
    (equality : left.cells = right.cells) : left = right := by
  cases left
  cases right
  cases equality
  rfl

def filled (capacity : Nat) (value : α) : Buffer α capacity :=
  ⟨List.replicate capacity value, List.length_replicate⟩

/-- Read one cell; `none` outside the block. -/
def load? (buffer : Buffer α capacity) (index : Nat) : Option α :=
  buffer.cells[index]?

/-- Write one cell. -/
def store (buffer : Buffer α capacity) (index : Nat) (value : α) :
    Buffer α capacity :=
  ⟨buffer.cells.set index value, by simp [buffer.length_eq]⟩

/-- The first `count` cells. -/
def take (buffer : Buffer α capacity) (count : Nat) : List α :=
  buffer.cells.take count

/-- The `count` cells from `offset` on. -/
def slice (buffer : Buffer α capacity) (offset count : Nat) : List α :=
  (buffer.cells.drop offset).take count

/-- Copy `source` to the cells from `offset` on. -/
def copy (buffer : Buffer α capacity) (offset : Nat) (source : List α) :
    Buffer α capacity :=
  if inside : offset + source.length ≤ capacity then
    ⟨buffer.cells.take offset ++ source ++
        buffer.cells.drop (offset + source.length), by
      have := buffer.length_eq
      simp only [List.length_append, List.length_take, List.length_drop]
      omega⟩
  else
    buffer

theorem load?_filled (value : α) {index : Nat} (inside : index < capacity) :
    (filled capacity value).load? index = some value := by
  simp only [load?, filled, List.getElem?_replicate, inside, if_true]

@[simp] theorem store_cells (buffer : Buffer α capacity) (index : Nat)
    (value : α) :
    (buffer.store index value).cells = buffer.cells.set index value := rfl

theorem load?_store_self (buffer : Buffer α capacity) {index : Nat}
    (inside : index < capacity) (value : α) :
    (buffer.store index value).load? index = some value := by
  have bound : index < buffer.cells.length := by
    rw [buffer.length_eq]
    exact inside
  simp [load?, bound]

theorem load?_store_ne (buffer : Buffer α capacity) {index other : Nat}
    (different : index ≠ other) (value : α) :
    (buffer.store index value).load? other = buffer.load? other := by
  simp [load?, different]

@[simp] theorem length_take (buffer : Buffer α capacity) (count : Nat) :
    (buffer.take count).length = min count capacity := by
  simp [take, buffer.length_eq]

@[simp] theorem take_zero (buffer : Buffer α capacity) :
    buffer.take 0 = [] := by
  simp [take]

theorem copy_cells (buffer : Buffer α capacity) {offset : Nat}
    {source : List α} (inside : offset + source.length ≤ capacity) :
    (buffer.copy offset source).cells =
      buffer.cells.take offset ++ source ++
        buffer.cells.drop (offset + source.length) := by
  simp [copy, inside]

/-- Storing right after the cells already taken extends them by one. -/
theorem take_succ_store (buffer : Buffer α capacity) {index : Nat}
    (inside : index < capacity) (value : α) :
    (buffer.store index value).take (index + 1) =
      buffer.take index ++ [value] := by
  have bound : index < buffer.cells.length := by
    rw [buffer.length_eq]
    exact inside
  simp only [take, store_cells, List.take_add_one]
  rw [List.take_set_of_le (Nat.le_refl index)]
  simp [bound]

/-- A store at or past `count` leaves the first `count` cells alone. -/
theorem take_store_of_le (buffer : Buffer α capacity) {count index : Nat}
    (beyond : count ≤ index) (value : α) :
    (buffer.store index value).take count = buffer.take count := by
  simp only [take, store_cells]
  exact List.take_set_of_le beyond

/-- Copying right after the cells already taken extends them by the source. -/
theorem take_copy (buffer : Buffer α capacity) (offset : Nat)
    (source : List α) (inside : offset + source.length ≤ capacity) :
    (buffer.copy offset source).take (offset + source.length) =
      buffer.take offset ++ source := by
  have size := buffer.length_eq
  have prefixLength : (buffer.cells.take offset).length = offset := by
    rw [List.length_take, size]
    omega
  rw [take, copy_cells buffer inside, List.append_assoc,
    ← List.append_assoc, List.take_append_of_le_length]
  · rw [List.take_of_length_le]
    · rfl
    · simp only [List.length_append, prefixLength, Nat.le_refl]
  · simp only [List.length_append, prefixLength, Nat.le_refl]

/-- Two copies to adjacent places are one copy of both sources. -/
theorem copy_copy (buffer : Buffer α capacity) (offset : Nat)
    (first second : List α)
    (inside : offset + (first.length + second.length) ≤ capacity) :
    (buffer.copy offset first).copy (offset + first.length) second =
      buffer.copy offset (first ++ second) := by
  apply ext_cells
  have size := buffer.length_eq
  have firstInside : offset + first.length ≤ capacity := by omega
  have bothInside : offset + (first ++ second).length ≤ capacity := by
    simpa using inside
  have headLength :
      (buffer.cells.take offset ++ first).length = offset + first.length := by
    simp only [List.length_append, List.length_take]
    omega
  rw [copy_cells _ (by omega), copy_cells _ bothInside,
    copy_cells _ firstInside, List.take_left' headLength]
  rw [List.drop_append, headLength, List.drop_of_length_le (by omega),
    List.drop_drop]
  simp [Nat.add_assoc]

theorem store_eq_copy (buffer : Buffer α capacity) {index : Nat}
    (inside : index < capacity) (value : α) :
    buffer.store index value = buffer.copy index [value] := by
  apply ext_cells
  have bound : index < buffer.cells.length := by
    rw [buffer.length_eq]
    exact inside
  rw [copy_cells _ (Nat.succ_le_of_lt inside), store_cells,
    List.set_eq_take_cons_drop _ bound]
  simp

/-- A copy is one store a cell. -/
theorem foldl_store (buffer : Buffer α capacity) (offset : Nat)
    (source : List α) (inside : offset + source.length ≤ capacity) :
    (source.zipIdx offset).foldl
        (fun written cell => written.store cell.2 cell.1) buffer =
      buffer.copy offset source := by
  induction source generalizing buffer offset with
  | nil =>
      apply ext_cells
      simp [copy_cells _ inside]
  | cons value source induction =>
      rw [List.length_cons] at inside
      have joined := buffer.copy_copy offset [value] source (by
        simp only [List.length_singleton]
        omega)
      rw [List.zipIdx_cons, List.foldl_cons, induction _ _ (by omega),
        store_eq_copy _ (by omega)]
      exact joined

/-- Two consecutive slices join into one. -/
theorem slice_append (buffer : Buffer α capacity)
    (offset first second : Nat) :
    buffer.slice offset first ++ buffer.slice (offset + first) second =
      buffer.slice offset (first + second) := by
  simp only [slice]
  rw [← List.drop_drop, ← List.take_add]

theorem slice_zero_offset (buffer : Buffer α capacity) (count : Nat) :
    buffer.slice 0 count = buffer.take count := by
  simp [slice, take]

end Buffer
