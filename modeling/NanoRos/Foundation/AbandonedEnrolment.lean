import NanoRos.Foundation.LossyEnrolment

/-!
# An enrolment whose receiver has gone

The sender does not know that the receiver has gone.  It still hears what the
receiver has left behind, and goes on sending.
-/

namespace StopAndWait

universe u

variable {τ : Type u} {items : List τ} {sender : Sender}
  {outbox left : List Backward}

/-- An acknowledgement under way is all that is under way, and the sender waits
for it. -/
def AnswerAwaited (sender : Sender) (outbox : List Backward) : Prop :=
  .ack ∈ outbox → control outbox = [.ack] ∧ sender.busy = false ∧
    ∃ index, sender.Enrolling index

theorem mem_control {message : Backward} (proper : message ≠ .other) :
    message ∈ control outbox ↔ message ∈ outbox := by
  simp [control, proper]

theorem answerAwaited_of_control (sender : Sender)
    (none : .ack ∉ control outbox) : AnswerAwaited sender outbox := by
  intro heard
  exact absurd ((mem_control Backward.noConfusion).mpr heard) none

theorem AnswerAwaited.of_sublist (awaited : AnswerAwaited sender outbox)
    (sublist : left.Sublist outbox) : AnswerAwaited sender left := by
  intro heard
  obtain ⟨only, waits⟩ := awaited (sublist.subset heard)
  have fewer : (control left).Sublist (control outbox) := sublist.filter _
  rw [only] at fewer
  rcases List.sublist_singleton.mp fewer with quiet | same
  · have inside := (mem_control Backward.noConfusion).mpr heard
    rw [quiet] at inside
    cases inside
  · exact ⟨same, waits⟩

theorem Phase.answerAwaited {receiver : Receiver τ}
    {history : List (Forward τ × List τ)}
    (phase : Phase items sender receiver outbox history)
    (flushed : sender.busy = true → receiver.inbox ≠ []) :
    AnswerAwaited sender outbox := by
  have quietly (quiet : control outbox = []) :
      AnswerAwaited sender outbox :=
    answerAwaited_of_control sender (quiet ▸ List.not_mem_nil)
  cases phase with
  | waiting _ quiet _ _ _ => exact quietly quiet
  | registering _ _ _ quiet _ _ _ => exact quietly quiet
  | finishing _ _ quiet _ _ _ => exact quietly quiet
  | opened _ quiet _ _ _ => exact quietly quiet
  | discovering _ asked _ _ _ =>
      apply answerAwaited_of_control
      rw [asked]
      decide
  | acknowledging index _ _ answered empty enrolling _ =>
      intro _
      refine ⟨answered, Bool.eq_false_iff.mpr ?_, index, enrolling⟩
      exact fun busy => flushed busy empty

/-- The receiver has gone; if it had concluded the enrolment, so has the
sender. -/
structure Abandoned (state : State τ) : Prop where
  gone : state.receiver = none
  concluded : closed state = true → state.sender.complete = true
  awaited : AnswerAwaited state.sender state.outbox

/-- What the sender does alone. -/
theorem Abandoned.step {before after : State τ}
    {guard : State τ → Backward → List Backward → Prop}
    (abandoned : Abandoned before)
    (step : LossyStep items guard before after) : Abandoned after := by
  obtain ⟨gone, concluded, awaited⟩ := abandoned
  have absent (receiver : Receiver τ)
      (running : before.receiver = some receiver) : Abandoned after := by
    rw [gone] at running
    cases running
  have still (messages : List (Forward τ)) :
      before.receiver.map (·.post messages) = none := by
    rw [gone]
    rfl
  cases step with
  | toReceiver receiver running inbox left => exact absent receiver running
  | toSender outbox left => exact ⟨gone, concluded, awaited.of_sublist left⟩
  | party step =>
      cases step with
      | quiet => exact ⟨gone, concluded, awaited⟩
      | round receiver running others => exact absent receiver running
      | handle receiver running message inbox head others =>
          exact absent receiver running
      | crash receiver running message inbox head =>
          exact absent receiver running
      | finish busy =>
          refine ⟨gone, ?_, ?_⟩
          · intro isClosed
            simp [Sender.finish, concluded isClosed]
          · intro heard
            obtain ⟨_, idle, _⟩ := awaited heard
            rw [idle] at busy
            cases busy
      | publish idle complete =>
          refine ⟨still _, fun _ => complete, ?_⟩
          intro heard
          obtain ⟨_, _, index, enrolling⟩ := awaited heard
          rw [enrolling.complete] at complete
          cases complete
      | hear message rest head guarded =>
          refine ⟨still _, ?_, ?_⟩
          · intro isClosed
            exact (before.sender.hear_complete items message).trans
              (concluded isClosed)
          · intro heard
            have before := awaited (head ▸ List.mem_cons_of_mem _ heard)
            rw [head] at before
            cases message with
            | other => exact before
            | start => cases before.1
            | ack =>
                -- there is no second one
                have none : control rest = [] := (List.cons.inj before.1).2
                have inside := (mem_control Backward.noConfusion).mpr heard
                rw [none] at inside
                cases inside

end StopAndWait
