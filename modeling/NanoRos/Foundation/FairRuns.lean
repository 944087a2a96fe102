import Mathlib.Order.Monotone.Basic
import Mathlib.Order.WellFounded
import NanoRos.Foundation.RunRecords

/-!
# Endless runs

What is bound to happen in a run that never stops.  A rank says how far it is
off: no step makes it larger, and in every situation some kind of step makes it
smaller.  If steps of each kind come again and again, the end is reached.
-/

namespace PartialRun

universe u v w

variable {σ : Type u} {ε : Type v} {step : σ → ε → Option σ}
  {states : Nat → σ} {events : Nat → ε}

/-- A run that goes on for ever. -/
def EndlessRun (step : σ → ε → Option σ) (states : Nat → σ)
    (events : Nat → ε) : Prop :=
  ∀ time, step (states time) (events time) = some (states (time + 1))

/-- Events of this kind come again and again. -/
def Recurs (kind : ε → Prop) (events : Nat → ε) : Prop :=
  ∀ time, ∃ later, time ≤ later ∧ kind (events later)

/-- The events before a time. -/
def eventsUntil (events : Nat → ε) (time : Nat) : List ε :=
  (List.range time).map events

theorem eventsUntil_succ (events : Nat → ε) (time : Nat) :
    eventsUntil events (time + 1) =
      eventsUntil events time ++ [events time] := by
  rw [eventsUntil, List.range_succ, List.map_append]
  rfl

theorem mem_eventsUntil {claim : ε → Prop}
    (holds : ∀ time, claim (events time)) (time : Nat) :
    ∀ event ∈ eventsUntil events time, claim event := by
  intro event member
  obtain ⟨index, _, rfl⟩ := List.mem_map.mp member
  exact holds index

theorem EndlessRun.exec (run : EndlessRun step states events) (time : Nat) :
    exec step (states 0) (eventsUntil events time) = some (states time) := by
  induction time with
  | zero => rfl
  | succ time induction =>
      rw [eventsUntil_succ, exec_append, induction, Option.bind_some,
        exec_cons, run time]
      rfl

/-- What a step shows is added to the record. -/
theorem EndlessRun.record_succ {α : Type w}
    (run : EndlessRun step states events) (shows : σ → ε → List α)
    (time : Nat) :
    record step shows (states 0) (eventsUntil events (time + 1)) =
      record step shows (states 0) (eventsUntil events time) ++
        shows (states time) (events time) := by
  rw [eventsUntil_succ, record_append shows (run.exec time),
    record_cons shows (run time), record_nil, List.append_nil]

theorem EndlessRun.invariant {holds : σ → Prop}
    (run : EndlessRun step states events)
    (preserved : ∀ time, holds (states time) →
      step (states time) (events time) = some (states (time + 1)) →
        holds (states (time + 1)))
    (initially : holds (states 0)) (time : Nat) : holds (states time) := by
  induction time with
  | zero => exact initially
  | succ time induction => exact preserved time induction (run time)

/-- The states that a schedule leads through. -/
def statesOf (step : σ → ε → Option σ) (start : σ) (events : Nat → ε)
    (time : Nat) : σ :=
  (exec step start (eventsUntil events time)).getD start

theorem statesOf_eq {start state : σ} {time : Nat}
    (run : exec step start (eventsUntil events time) = some state) :
    statesOf step start events time = state := by
  rw [statesOf, run]
  rfl

theorem exec_eventsUntil_succ {start state next : σ} {time : Nat}
    (run : exec step start (eventsUntil events time) = some state)
    (stepped : step state (events time) = some next) :
    exec step start (eventsUntil events (time + 1)) = some next := by
  rw [eventsUntil_succ, exec_append, run, Option.bind_some, exec_cons, stepped]
  rfl

/-- Where every step of the schedule is defined, there is a run of it. -/
theorem endlessRun_statesOf {invariant : σ → Prop} {condition : ε → Prop}
    (advances : ∀ state event, invariant state → condition event →
      ∃ next, step state event = some next ∧ invariant next)
    {start : σ} (initially : invariant start)
    (meets : ∀ time, condition (events time)) :
    EndlessRun step (statesOf step start events) events := by
  intro time
  obtain ⟨state, run, holds⟩ := exec_total advances initially
    (along_of_forall_mem (mem_eventsUntil meets time) start)
  obtain ⟨next, stepped, _⟩ := advances state (events time) holds (meets time)
  rw [statesOf_eq run, statesOf_eq (exec_eventsUntil_succ run stepped)]
  exact stepped

/-- A relation that every step keeps relates each state to all later ones. -/
theorem related_of_steps {α : Type w} {related : α → α → Prop}
    (reflexive : ∀ value, related value value)
    (transitive : ∀ first second third, related first second →
      related second third → related first third)
    {values : Nat → α}
    (steps : ∀ time, related (values time) (values (time + 1)))
    {time later : Nat} (order : time ≤ later) :
    related (values time) (values later) := by
  induction later, order using Nat.le_induction with
  | base => exact reflexive _
  | succ later _ induction =>
      exact transitive _ _ _ induction (steps later)

/-- A record only grows. -/
theorem EndlessRun.record_prefix {α : Type w}
    (run : EndlessRun step states events) (shows : σ → ε → List α)
    {time later : Nat} (order : time ≤ later) :
    record step shows (states 0) (eventsUntil events time) <+:
      record step shows (states 0) (eventsUntil events later) := by
  have steps (time : Nat) :
      record step shows (states 0) (eventsUntil events time) <+:
        record step shows (states 0) (eventsUntil events (time + 1)) := by
    rw [run.record_succ]
    exact List.prefix_append _ _
  exact related_of_steps (fun _ => List.prefix_rfl)
    (fun _ _ _ => List.IsPrefix.trans) steps order

/-! ## The rank rule -/

/-- What one step may do while the goal is not reached: reach it, lower the
rank, or leave both the rank and what helps as they were, if the step is not
one that helps. -/
def RankStep {α : Type w} [LT α] (goal : Nat → Prop) (rank : Nat → α)
    (helps : Nat → ε → Prop) (events : Nat → ε) (time : Nat) : Prop :=
  goal (time + 1) ∨ rank (time + 1) < rank time ∨
    rank (time + 1) = rank time ∧ ¬helps time (events time) ∧
      ∀ event, helps time event → helps (time + 1) event

/-- If in every situation some events that recur help, the goal is reached. -/
theorem eventually_of_rank {α : Type w} [LT α] [WellFoundedLT α]
    {goal : Nat → Prop} {rank : Nat → α} {helps : Nat → ε → Prop}
    {start : Nat}
    (steps : ∀ time, start ≤ time → ¬goal time →
      RankStep goal rank helps events time)
    (fair : ∀ time, start ≤ time → ¬goal time →
      Recurs (helps time) events) :
    ∃ time, start ≤ time ∧ goal time := by
  by_contra never
  have away (time : Nat) (late : start ≤ time) : ¬goal time :=
    fun reached => never ⟨time, late, reached⟩
  -- from any time on the rank gets smaller
  have lowers (time : Nat) (late : start ≤ time) :
      ∃ later, start ≤ later ∧ rank later < rank time := by
    obtain ⟨last, order, helpful⟩ := fair time late (away time late) time
    obtain ⟨wait, rfl⟩ := Nat.exists_eq_add_of_le order
    induction wait generalizing time with
    | zero =>
        rcases steps time late (away time late) with reached | lower |
          ⟨_, idle, _⟩
        · exact absurd reached (away _ (Nat.le_succ_of_le late))
        · exact ⟨_, Nat.le_succ_of_le late, lower⟩
        · exact absurd helpful idle
    | succ wait induction =>
        rcases steps time late (away time late) with reached | lower |
          ⟨same, _, kept⟩
        · exact absurd reached (away _ (Nat.le_succ_of_le late))
        · exact ⟨_, Nat.le_succ_of_le late, lower⟩
        · rw [← same]
          have shifted : time + (wait + 1) = time + 1 + wait := by omega
          rw [shifted] at helpful
          exact induction (time + 1) (Nat.le_succ_of_le late) (by omega)
            (kept _ helpful)
  have none_below (value : α) :
      ∀ time, start ≤ time → rank time = value → False := by
    induction value using WellFoundedLT.induction with
    | ind value induction =>
        intro time late same
        obtain ⟨later, stillLate, lower⟩ := lowers time late
        exact induction (rank later) (same ▸ lower) later stillLate rfl
  exact none_below (rank start) start (Nat.le_refl start) rfl

/-- What grows in every situation in which it is short of a target reaches the
target. -/
theorem reaches_of_rank {α : Type w} [LT α] [WellFoundedLT α]
    {size : Nat → Nat} {rank : Nat → α} {helps : Nat → ε → Prop}
    {start target : Nat} (monotone : Monotone size)
    (steps : ∀ time, start ≤ time → size time < target →
      RankStep (fun later => size time < size later) rank helps events time)
    (fair : ∀ time, Recurs (helps time) events) :
    ∃ time, start ≤ time ∧ target ≤ size time := by
  induction target with
  | zero => exact ⟨start, Nat.le_refl start, Nat.zero_le _⟩
  | succ target induction =>
      obtain ⟨middle, order, reached⟩ := induction fun time late short =>
        steps time late (Nat.lt_succ_of_lt short)
      have nearer (time : Nat) (late : middle ≤ time)
          (away : ¬target < size time) :
          RankStep (fun later => target < size later) rank helps events
            time := by
        have least := monotone late
        rcases steps time (Nat.le_trans order late) (by omega) with
          more | lower
        · exact .inl (by omega)
        · exact .inr lower
      obtain ⟨time, late, more⟩ :=
        eventually_of_rank nearer fun time _ _ => fair time
      exact ⟨time, Nat.le_trans order late, more⟩

end PartialRun
