import Mathlib.Tactic.Common
import Mathlib.Data.List.Induction

/-!
# Runs of partial steps

A system takes one event after another; a step may be undefined, which ends
the run.  `Along` says that something holds of every step a run takes, in the
state before the step; an invariant that every such step keeps holds in every
state the run reaches.
-/

namespace PartialRun

universe u v

variable {σ : Type u} {ε : Type v}

/-- The state after a list of events. -/
def exec (step : σ → ε → Option σ) : σ → List ε → Option σ
  | state, [] => some state
  | state, event :: rest => (step state event).bind (exec step · rest)

/-- `claim` holds of each event of the list, in the state it meets. -/
def Along (step : σ → ε → Option σ) (claim : σ → ε → Prop) :
    σ → List ε → Prop
  | _, [] => True
  | state, event :: rest =>
      claim state event ∧
        ∀ next, step state event = some next → Along step claim next rest

/-- Whether a claim holds along a run is computed by making the run. -/
instance decidableAlong (step : σ → ε → Option σ) (claim : σ → ε → Prop)
    [∀ state event, Decidable (claim state event)] :
    ∀ (state : σ) (events : List ε), Decidable (Along step claim state events)
  | _, [] => isTrue trivial
  | state, event :: rest =>
      match result : step state event with
      | none =>
          decidable_of_iff (claim state event) (by
            simp [Along, result])
      | some next =>
          have := decidableAlong step claim next rest
          decidable_of_iff
            (claim state event ∧ Along step claim next rest) (by
              simp [Along, result])

variable {step : σ → ε → Option σ}

@[simp] theorem exec_nil (state : σ) : exec step state [] = some state := rfl

theorem exec_cons (state : σ) (event : ε) (rest : List ε) :
    exec step state (event :: rest) =
      (step state event).bind (exec step · rest) := rfl

theorem exec_cons_eq_some {state final : σ} {event : ε} {rest : List ε}
    (run : exec step state (event :: rest) = some final) :
    ∃ next, step state event = some next ∧ exec step next rest = some final := by
  rw [exec_cons] at run
  exact Option.bind_eq_some_iff.mp run

theorem exec_append (state : σ) (first rest : List ε) :
    exec step state (first ++ rest) =
      (exec step state first).bind (exec step · rest) := by
  induction first generalizing state with
  | nil => rfl
  | cons event first induction =>
      rw [List.cons_append, exec_cons, exec_cons, Option.bind_assoc]
      congr 1
      funext next
      exact induction next

/-- `Along` says of every point of the run what comes next there. -/
theorem along_iff_forall {claim : σ → ε → Prop} (state : σ)
    (events : List ε) :
    Along step claim state events ↔
      ∀ before event after reached, events = before ++ event :: after →
        exec step state before = some reached → claim reached event := by
  induction events generalizing state with
  | nil =>
      constructor
      · intro _ before event after reached split
        exact absurd split.symm (by simp)
      · intro _
        trivial
  | cons first rest induction =>
      constructor
      · rintro ⟨here, later⟩ before event after reached split run
        cases before with
        | nil =>
            cases split
            cases run
            exact here
        | cons other before =>
            cases split
            obtain ⟨next, stepped, remaining⟩ := exec_cons_eq_some run
            exact (induction next).mp (later next stepped) _ _ _ _ rfl
              remaining
      · intro holds
        refine ⟨holds [] first rest state rfl rfl, ?_⟩
        intro next stepped
        apply (induction next).mpr
        intro before event after reached split run
        apply holds (first :: before) event after reached
        · rw [split, List.cons_append]
        · rw [exec_cons, stepped]
          exact run

/-- A run goes through when each step is defined in the state it meets. -/
theorem exec_isSome_iff (state : σ) (events : List ε) :
    (∃ final, exec step state events = some final) ↔
      Along step (fun state event => step state event ≠ none) state
        events := by
  induction events generalizing state with
  | nil => exact ⟨fun _ => trivial, fun _ => ⟨state, rfl⟩⟩
  | cons event rest induction =>
      constructor
      · rintro ⟨final, run⟩
        obtain ⟨next, stepped, remaining⟩ := exec_cons_eq_some run
        refine ⟨Option.ne_none_iff_exists'.mpr ⟨next, stepped⟩, ?_⟩
        intro other otherStep
        cases stepped.symm.trans otherStep
        exact (induction next).mp ⟨final, remaining⟩
      · rintro ⟨defined, later⟩
        obtain ⟨next, stepped⟩ := Option.ne_none_iff_exists'.mp defined
        obtain ⟨final, remaining⟩ :=
          (induction next).mpr (later next stepped)
        refine ⟨final, ?_⟩
        rw [exec_cons, stepped]
        exact remaining

theorem along_of_forall {claim : σ → ε → Prop}
    (holds : ∀ state event, claim state event) (state : σ)
    (events : List ε) : Along step claim state events := by
  induction events generalizing state with
  | nil => trivial
  | cons event rest induction =>
      exact ⟨holds state event, fun next _ => induction next⟩

/-- What every step that meets `condition` keeps, of the events so far and the
state, holds at the end of every run whose steps all meet it. -/
theorem exec_trace {invariant : List ε → σ → Prop} {condition : σ → ε → Prop}
    (preserved : ∀ past state event next, invariant past state →
      condition state event → step state event = some next →
        invariant (past ++ [event]) next)
    (past : List ε) {events : List ε} {state final : σ}
    (initially : invariant past state)
    (respected : Along step condition state events)
    (run : exec step state events = some final) :
    invariant (past ++ events) final := by
  induction events generalizing past state with
  | nil =>
      cases run
      rw [List.append_nil]
      exact initially
  | cons event rest induction =>
      obtain ⟨next, stepped, remaining⟩ := exec_cons_eq_some run
      have later := induction _
        (preserved past state event next initially respected.1 stepped)
        (respected.2 next stepped) remaining
      rw [List.append_assoc] at later
      exact later

/-- An invariant kept by every step that meets `condition` holds at the end
of every run whose steps all meet it. -/
theorem exec_invariant {invariant : σ → Prop} {condition : σ → ε → Prop}
    (preserved : ∀ state event next, invariant state →
      condition state event → step state event = some next → invariant next)
    {state final : σ} {events : List ε} (initially : invariant state)
    (respected : Along step condition state events)
    (run : exec step state events = some final) : invariant final := by
  have kept (past : List ε) (state : σ) (event : ε) (next : σ) :
      invariant state → condition state event →
        step state event = some next → invariant next :=
    preserved state event next
  exact exec_trace kept [] initially respected run

/-- An invariant kept by every step holds at the end of every run. -/
theorem exec_preserved {invariant : σ → Prop}
    (preserved : ∀ state event next, invariant state →
      step state event = some next → invariant next)
    {state final : σ} {events : List ε} (initially : invariant state)
    (run : exec step state events = some final) : invariant final := by
  have always : Along step (fun _ _ => True) state events :=
    along_of_forall (fun _ _ => trivial) state events
  apply exec_invariant _ initially always run
  intro state event next holds _ stepped
  exact preserved state event next holds stepped

/-- Two claims that agree wherever an invariant holds agree along a run,
when the invariant survives the steps of which the first one holds. -/
theorem along_iff {invariant : σ → Prop} {left right : σ → ε → Prop}
    (agree : ∀ state event, invariant state →
      (left state event ↔ right state event))
    (preserved : ∀ state event next, invariant state → left state event →
      step state event = some next → invariant next)
    {state : σ} (initially : invariant state) (events : List ε) :
    Along step left state events ↔ Along step right state events := by
  induction events generalizing state with
  | nil => exact Iff.rfl
  | cons event rest induction =>
      have here := agree state event initially
      constructor
      · rintro ⟨holds, later⟩
        refine ⟨here.mp holds, ?_⟩
        intro next stepped
        exact (induction (preserved state event next initially holds
          stepped)).mp (later next stepped)
      · rintro ⟨holds, later⟩
        have holds := here.mpr holds
        refine ⟨holds, ?_⟩
        intro next stepped
        exact (induction (preserved state event next initially holds
          stepped)).mpr (later next stepped)

/-- Related states that step to related states, or both to none, do so for a
whole run. -/
theorem exec_related {related : σ → σ → Prop}
    (preserved : ∀ left right event, related left right →
      Option.Rel related (step left event) (step right event))
    {left right : σ} (initially : related left right) (events : List ε) :
    Option.Rel related (exec step left events) (exec step right events) := by
  induction events generalizing left right with
  | nil => exact .some initially
  | cons event rest induction =>
      rw [exec_cons, exec_cons]
      have stepped := preserved left right event initially
      cases leftStep : step left event with
      | none =>
          rw [leftStep] at stepped
          cases rightStep : step right event with
          | none => exact .none
          | some next =>
              rw [rightStep] at stepped
              cases stepped
      | some next =>
          rw [leftStep] at stepped
          cases rightStep : step right event with
          | none =>
              rw [rightStep] at stepped
              cases stepped
          | some other =>
              rw [rightStep] at stepped
              cases stepped with
              | some stillRelated => exact induction stillRelated

end PartialRun
