import Mathlib.Data.Finset.Insert
import Mathlib.Data.Finset.Lattice.Lemmas
import Mathlib.Tactic.Common

/-!
# Runs that record what they read

A run may fail or not end, and it records the places it reads.  What it comes
to depends on the world it is made in; when everything it looks at is
recorded, it is repeated in every world that agrees on the places recorded.
-/

namespace RecordedReads

universe u v w x y

variable {κ : Type u} {ε : Type v} {α : Type w} {β : Type x} {χ : Type y}

/-- From the places recorded before to a result and the places recorded
after. -/
abbrev Run (κ : Type u) (ε : Type v) (α : Type w) :=
  Finset κ → Option (Except ε α × Finset κ)

/-- One run after another, unless the first fails. -/
def andThen (first : Run κ ε α) (next : α → Run κ ε β) : Run κ ε β :=
  fun places =>
    match first places with
    | none => none
    | some (.error error, places) => some (.error error, places)
    | some (.ok result, places) => next result places

/-- A place is read, and recorded if it can be. -/
def read [DecidableEq κ] (world : κ → Option χ) (place : κ) (unread : ε)
    (next : χ → Run κ ε α) : Run κ ε α :=
  fun places =>
    match world place with
    | none => some (.error unread, places)
    | some content => next content (insert place places)

/-- No place that was recorded is forgotten. -/
def Grows (run : Run κ ε α) : Prop :=
  ∀ before result after, run before = some (.ok result, after) →
    before ⊆ after

/-- What was recorded before is kept, and changes nothing else. -/
def Framed [DecidableEq κ] (run : Run κ ε α) : Prop :=
  ∀ places, run places =
    (run ∅).map fun done => (done.1, places ∪ done.2)

/-- What the run ends with, the other ends with as well. -/
def Extends (run other : Run κ ε α) : Prop :=
  ∀ before done, run before = some done → other before = some done

/-- Where the worlds agree on all that a run which succeeds has recorded, the
other run comes to the same. -/
def Repeats (same : κ → Prop) (run other : Run κ ε α) : Prop :=
  ∀ before result after, run before = some (.ok result, after) →
    (∀ place ∈ after, same place) → other before = some (.ok result, after)

theorem andThen_eq_ok {first : Run κ ε α} {next : α → Run κ ε β}
    {before after : Finset κ} {result : β}
    (done : andThen first next before = some (.ok result, after)) :
    ∃ middle between, first before = some (.ok middle, between) ∧
      next middle between = some (.ok result, after) := by
  rw [andThen] at done
  split at done
  · cases done
  · cases done
  · case _ middle between firstDone => exact ⟨middle, between, firstDone, done⟩

theorem andThen_of_ok {first : Run κ ε α} {before between : Finset κ}
    {middle : α} (done : first before = some (.ok middle, between))
    (next : α → Run κ ε β) :
    andThen first next before = next middle between := by
  rw [andThen, done]

/-! ## Runs that only record -/

theorem Grows.const (outcome : Except ε α) :
    Grows fun places : Finset κ => some (outcome, places) := by
  rintro before result after ⟨⟩
  exact fun _ member => member

theorem Grows.andThen {first : Run κ ε α} {next : α → Run κ ε β}
    (growsFirst : Grows first) (growsNext : ∀ middle, Grows (next middle)) :
    Grows (andThen first next) := by
  intro before result after done
  obtain ⟨middle, between, firstDone, nextDone⟩ := andThen_eq_ok done
  exact fun _ member => growsNext middle between result after nextDone
    (growsFirst before middle between firstDone member)

/-! ## Runs after any other -/

section Framed

variable [DecidableEq κ]

theorem Framed.const (outcome : Except ε α) :
    Framed fun places : Finset κ => some (outcome, places) := by
  intro places
  rw [Option.map_some, Finset.union_empty]

theorem Framed.andThen {first : Run κ ε α} {next : α → Run κ ε β}
    (framedFirst : Framed first) (framedNext : ∀ middle, Framed (next middle)) :
    Framed (andThen first next) := by
  intro places
  rw [RecordedReads.andThen, RecordedReads.andThen, framedFirst places]
  rcases first ∅ with _ | ⟨_ | middle, between⟩
  · rfl
  · rfl
  · dsimp only [Option.map_some]
    rw [framedNext middle (places ∪ between), framedNext middle between,
      Option.map_map]
    refine congrArg (Option.map · _) (funext fun done => ?_)
    exact congrArg (Prod.mk _) (Finset.union_assoc _ _ _)

theorem Framed.read {world : κ → Option χ} {place : κ} {unread : ε}
    {next : χ → Run κ ε α} (framedNext : ∀ content, Framed (next content)) :
    Framed (read world place unread next) := by
  intro places
  rw [RecordedReads.read, RecordedReads.read]
  cases world place with
  | none => exact Framed.const _ places
  | some content =>
      dsimp only
      rw [framedNext content (insert place places),
        framedNext content (insert place ∅), Option.map_map]
      refine congrArg (Option.map · _) (funext fun done => ?_)
      refine congrArg (Prod.mk _) ?_
      calc
        insert place places ∪ done.2 = insert place (places ∪ done.2) :=
          Finset.insert_union _ _ _
        _ = places ∪ insert place done.2 := (Finset.union_insert _ _ _).symm
        _ = places ∪ (insert place ∅ ∪ done.2) := by
          rw [Finset.insert_union, Finset.empty_union]

theorem Framed.grows {run : Run κ ε α} (framed : Framed run) : Grows run := by
  intro before result after done
  rw [framed before] at done
  obtain ⟨ended, _, same⟩ := Option.map_eq_some_iff.mp done
  rw [← (Prod.mk.inj same).2]
  exact Finset.subset_union_left

/-- A result does not depend on what was recorded before. -/
theorem Framed.result_eq {run : Run κ ε α} (framed : Framed run)
    (places other : Finset κ) :
    (run places).map Prod.fst = (run other).map Prod.fst := by
  rw [framed places, framed other, Option.map_map, Option.map_map]
  rfl

end Framed

/-! ## Runs that end where another does -/

theorem Extends.refl (run : Run κ ε α) : Extends run run :=
  fun _ _ ended => ended

theorem Extends.andThen {first first' : Run κ ε α}
    {next next' : α → Run κ ε β} (extendsFirst : Extends first first')
    (extendsNext : ∀ middle, Extends (next middle) (next' middle)) :
    Extends (andThen first next) (andThen first' next') := by
  intro before done ended
  rw [RecordedReads.andThen] at ended ⊢
  cases firstDone : first before with
  | none =>
      rw [firstDone] at ended
      cases ended
  | some outcome =>
      rw [firstDone] at ended
      rw [extendsFirst before outcome firstDone]
      obtain ⟨_ | middle, between⟩ := outcome
      · exact ended
      · exact extendsNext middle between done ended

theorem Extends.read [DecidableEq κ] {world : κ → Option χ} {place : κ}
    {unread : ε} {next next' : χ → Run κ ε α}
    (extendsNext : ∀ content, Extends (next content) (next' content)) :
    Extends (read world place unread next) (read world place unread next') := by
  intro before done ended
  rw [RecordedReads.read] at ended ⊢
  cases found : world place with
  | none =>
      rw [found] at ended
      exact ended
  | some content =>
      rw [found] at ended
      exact extendsNext content (insert place before) done ended

/-! ## Runs in two worlds -/

variable {same : κ → Prop}

theorem Repeats.refl (run : Run κ ε α) : Repeats same run run :=
  fun _ _ _ done _ => done

/-- A run that fails asks nothing of the other. -/
theorem Repeats.failed (error : ε) (other : Run κ ε α) :
    Repeats same (fun places => some (.error error, places)) other := by
  rintro before result after ⟨⟩

theorem Repeats.andThen {first first' : Run κ ε α}
    {next next' : α → Run κ ε β} (grows : ∀ middle, Grows (next middle))
    (repeatsFirst : Repeats same first first')
    (repeatsNext : ∀ middle, Repeats same (next middle) (next' middle)) :
    Repeats same (andThen first next) (andThen first' next') := by
  intro before result after done agree
  obtain ⟨middle, between, firstDone, nextDone⟩ := andThen_eq_ok done
  have early := grows middle between result after nextDone
  have firstAgain := repeatsFirst before middle between firstDone
    fun place member => agree place (early member)
  rw [andThen_of_ok firstAgain]
  exact repeatsNext middle between result after nextDone agree

/-- What was read is the same, since it was recorded. -/
theorem Repeats.read [DecidableEq κ] {world world' : κ → Option χ}
    (sound : ∀ place, same place → world place = world' place) {place : κ}
    {unread : ε} {next next' : χ → Run κ ε α}
    (grows : ∀ content, Grows (next content))
    (repeatsNext : ∀ content, Repeats same (next content) (next' content)) :
    Repeats same (read world place unread next)
      (read world' place unread next') := by
  intro before result after done agree
  rw [RecordedReads.read] at done ⊢
  split at done
  · cases done
  · case _ content found =>
      have recorded : place ∈ after :=
        grows content _ result after done (Finset.mem_insert_self _ _)
      rw [← sound place (agree place recorded), found]
      exact repeatsNext content _ result after done agree

end RecordedReads
