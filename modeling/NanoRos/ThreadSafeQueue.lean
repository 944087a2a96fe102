import Mathlib.Tactic.Common

/-!
# Thread-safe queue

`ThreadSafeQueue<T>`: each critical section is one operation here.
-/

namespace NanoRos

universe u

def maxQueueSize : Nat := 100

structure ThreadSafeQueue (α : Type u) where
  items : List α
  stopping : Bool
  length_le : items.length ≤ maxQueueSize

namespace ThreadSafeQueue

variable {α : Type u}

def empty : ThreadSafeQueue α :=
  { items := [], stopping := false, length_le := Nat.zero_le _ }

/-- `push`: a full queue loses its oldest item. -/
def push (queue : ThreadSafeQueue α) (item : α) : ThreadSafeQueue α :=
  { items :=
      (if queue.items.length ≥ maxQueueSize then queue.items.tail
        else queue.items) ++ [item]
    stopping := queue.stopping
    length_le := by
      have := queue.length_le
      have : 0 < maxQueueSize := by decide
      split
      · simp only [List.length_append, List.length_tail, List.length_singleton]
        omega
      · simp only [List.length_append, List.length_singleton]
        omega }

def size (queue : ThreadSafeQueue α) : Nat := queue.items.length

/-- `stop`; it does not take the lock. -/
def stop (queue : ThreadSafeQueue α) : ThreadSafeQueue α :=
  { queue with stopping := true }

/-- What a call of `wait_and_pop` that has the lock can do. -/
inductive PopResult (α : Type u) where
  | waits
  | item (item : α) (queue : ThreadSafeQueue α)
  | frontOfEmpty

def waitAndPop (queue : ThreadSafeQueue α) : PopResult α :=
  match queue with
  | ⟨[], false, _⟩ => .waits
  | ⟨[], true, _⟩ => .frontOfEmpty
  | ⟨item :: items, stopping, length_le⟩ =>
      .item item ⟨items, stopping, Nat.le_of_succ_le length_le⟩

theorem mem_push {queue : ThreadSafeQueue α} {item other : α}
    (member : other ∈ (queue.push item).items) :
    other ∈ queue.items ∨ other = item := by
  simp only [push, List.mem_append, List.mem_singleton] at member
  rcases member with old | new
  · split at old
    · exact .inl (List.mem_of_mem_tail old)
    · exact .inl old
  · exact .inr new

theorem items_of_waitAndPop {queue rest : ThreadSafeQueue α} {item : α}
    (taken : queue.waitAndPop = .item item rest) :
    queue.items = item :: rest.items := by
  obtain ⟨items, stopping, length_le⟩ := queue
  cases items with
  | nil => cases stopping <;> cases taken
  | cons first items =>
      cases taken
      rfl

end ThreadSafeQueue

end NanoRos
