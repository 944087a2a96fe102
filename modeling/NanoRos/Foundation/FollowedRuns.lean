import NanoRos.Foundation.FairRuns

/-!
# Following a run

One system follows another when it can take every event that the other one
takes, and the two stay related.  Then it goes through whatever runs the other
one goes through.
-/

namespace PartialRun

universe u v w

variable {σ τ : Type u} {ε : Type v} {step : σ → ε → Option σ}
  {leads : τ → ε → Option τ} {related : σ → τ → Prop}
  {condition : σ → ε → Prop}

/-- From related states, what `leads` does `step` does as well, if the event
meets the condition. -/
def Follows (step : σ → ε → Option σ) (leads : τ → ε → Option τ)
    (related : σ → τ → Prop) (condition : σ → ε → Prop) : Prop :=
  ∀ state leader event ahead, related state leader → condition state event →
    leads leader event = some ahead →
      ∃ next, step state event = some next ∧ related next ahead

theorem Follows.exec (follows : Follows step leads related condition)
    {state : σ} {leader final : τ} {events : List ε}
    (initially : related state leader)
    (respected : Along step condition state events)
    (run : exec leads leader events = some final) :
    ∃ last, PartialRun.exec step state events = some last ∧
      related last final := by
  induction events generalizing state leader with
  | nil =>
      cases run
      exact ⟨state, rfl, initially⟩
  | cons event rest induction =>
      obtain ⟨ahead, led, remaining⟩ := exec_cons_eq_some run
      obtain ⟨next, stepped, still⟩ :=
        follows state leader event ahead initially respected.1 led
      obtain ⟨last, followed, kept⟩ :=
        induction still (respected.2 next stepped) remaining
      refine ⟨last, ?_, kept⟩
      rw [exec_cons, stepped]
      exact followed

/-- Endless runs of the same events stay related. -/
theorem Follows.endless (follows : Follows step leads related condition)
    {states : Nat → σ} {leaders : Nat → τ} {events : Nat → ε}
    (run : EndlessRun step states events)
    (led : EndlessRun leads leaders events)
    (initially : related (states 0) (leaders 0))
    (meets : ∀ time, condition (states time) (events time)) (time : Nat) :
    related (states time) (leaders time) := by
  induction time with
  | zero => exact initially
  | succ time induction =>
      obtain ⟨next, stepped, still⟩ :=
        follows _ _ _ _ induction (meets time) (led time)
      cases (run time).symm.trans stepped
      exact still

/-- A schedule that the other system can keep to for ever, this one can keep to
as well. -/
theorem Follows.endlessRun (follows : Follows step leads related condition)
    {start : σ} {leaders : Nat → τ} {events : Nat → ε}
    (led : EndlessRun leads leaders events)
    (initially : related start (leaders 0))
    (meets : ∀ time, condition (statesOf step start events time)
      (events time)) :
    EndlessRun step (statesOf step start events) events := by
  have reaches (time : Nat) :
      ∃ state, PartialRun.exec step start (eventsUntil events time) =
          some state ∧ related state (leaders time) := by
    induction time with
    | zero => exact ⟨start, rfl, initially⟩
    | succ time induction =>
        obtain ⟨state, run, still⟩ := induction
        have met := meets time
        rw [statesOf_eq run] at met
        obtain ⟨next, stepped, kept⟩ :=
          follows _ _ _ _ still met (led time)
        exact ⟨next, exec_eventsUntil_succ run stepped, kept⟩
  intro time
  obtain ⟨state, run, still⟩ := reaches time
  have met := meets time
  rw [statesOf_eq run] at met
  obtain ⟨next, stepped, _⟩ := follows _ _ _ _ still met (led time)
  rw [statesOf_eq run, statesOf_eq (exec_eventsUntil_succ run stepped)]
  exact stepped

/-- What two runs show alike at each time they show alike in whole. -/
theorem EndlessRun.record_eq {α : Type w} {states : Nat → σ}
    {leaders : Nat → τ} {events : Nat → ε}
    (run : EndlessRun step states events)
    (led : EndlessRun leads leaders events)
    {shows : σ → ε → List α} {shown : τ → ε → List α}
    (alike : ∀ time, shows (states time) (events time) =
      shown (leaders time) (events time)) (time : Nat) :
    record step shows (states 0) (eventsUntil events time) =
      record leads shown (leaders 0) (eventsUntil events time) := by
  induction time with
  | zero => rfl
  | succ time induction =>
      rw [run.record_succ, led.record_succ, induction, alike]

end PartialRun
