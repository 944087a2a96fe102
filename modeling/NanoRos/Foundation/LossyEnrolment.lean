import NanoRos.Foundation.EnrolmentProgress

/-!
# The first enrolment over channels that lose messages

No message of the enrolment is sent twice, and exactly one is under way at a
time.  When that one is lost the enrolment stops where it is, for good.
-/

namespace StopAndWait

universe u

variable {τ : Type u}

def Forward.isData : Forward τ → Bool
  | .data => true
  | .register _ | .done | .other => false

/-- The messages of the enrolment among those to the receiver. -/
def proper (inbox : List (Forward τ)) : List (Forward τ) :=
  inbox.filter (!·.isData)

/-- A step of a party, or the loss of messages that are under way. -/
inductive LossyStep (items : List τ)
    (guard : State τ → Backward → List Backward → Prop) (before : State τ) :
    State τ → Prop
  | party {after : State τ} (step : Step items guard before after) :
      LossyStep items guard before after
  | toReceiver (receiver : Receiver τ)
      (running : before.receiver = some receiver) (inbox : List (Forward τ))
      (left : inbox.Sublist receiver.inbox) :
      LossyStep items guard before
        { before with receiver := some { receiver with inbox } }
  | toSender (outbox : List Backward) (left : outbox.Sublist before.outbox) :
      LossyStep items guard before { before with outbox }

/-- Nothing of the enrolment is under way, and its closing message was not
handled. -/
structure Stalled (items : List τ) (state : State τ) : Prop where
  quiet : control state.outbox = []
  unclosed : closed state = false
  greeted : ∀ receiver, state.receiver = some receiver →
    receiver.fresh = false
  dataOnly : ∀ receiver, state.receiver = some receiver →
    ∀ message ∈ receiver.inbox, message = .data
  accepted : ∀ receiver, state.receiver = some receiver →
    receiver.received <+: items

/-- The sender has not concluded the enrolment, and is not about to. -/
structure Blocked (sender : Sender) : Prop where
  incomplete : sender.complete = false
  open_ : sender.active = true → sender.closing = false

/-! ## After a loss -/

section Loss

variable {items : List τ} {before after : State τ}
  {guard : State τ → Backward → List Backward → Prop}

/-- A message that is handled without being the closing one. -/
theorem closed_push {state : State τ} {history : List (Forward τ × List τ)}
    {message : Forward τ} {received : List τ}
    (pushed : state.history = history ++ [(message, received)]) :
    closed state =
      ((history.any fun entry => entry.1.isDone) || message.isDone) := by
  simp [closed, pushed]

/-- Nothing brings a stalled enrolment back. -/
theorem Stalled.step (stalled : Stalled items before)
    (step : LossyStep items guard before after) : Stalled items after := by
  obtain ⟨quiet, unclosed, greeted, dataOnly, accepted⟩ := stalled
  cases step with
  | party step =>
      cases step with
      | quiet => exact ⟨quiet, unclosed, greeted, dataOnly, accepted⟩
      | finish busy => exact ⟨quiet, unclosed, greeted, dataOnly, accepted⟩
      | hear message rest head guarded =>
          rw [head] at quiet
          obtain ⟨rfl, stillQuiet⟩ := other_of_quiet quiet
          have same (receiver : Receiver τ) : receiver.post [] = receiver := by
            simp [Receiver.post]
          have receivers : before.receiver.map (·.post []) =
              before.receiver := by
            cases before.receiver with
            | none => rfl
            | some receiver => exact congrArg some (same receiver)
          refine ⟨stillQuiet, unclosed, ?_, ?_, ?_⟩
          · intro receiver running
            exact greeted receiver (receivers ▸ running)
          · intro receiver running
            exact dataOnly receiver (receivers ▸ running)
          · intro receiver running
            exact accepted receiver (receivers ▸ running)
      | publish idle complete =>
          refine ⟨quiet, unclosed, ?_, ?_, ?_⟩
          · intro receiver running
            obtain ⟨old, wasRunning, rfl⟩ := Option.map_eq_some_iff.mp running
            exact greeted old wasRunning
          · intro receiver running message member
            obtain ⟨old, wasRunning, rfl⟩ := Option.map_eq_some_iff.mp running
            rcases List.mem_append.mp member with earlier | new
            · exact dataOnly old wasRunning message earlier
            · exact List.mem_singleton.mp new
          · intro receiver running
            obtain ⟨old, wasRunning, rfl⟩ := Option.map_eq_some_iff.mp running
            exact accepted old wasRunning
      | round receiver running others =>
          refine ⟨?_, unclosed, ?_, ?_, ?_⟩
          · simp [Receiver.greeting, greeted receiver running, quiet]
          · rintro _ ⟨⟩
            rfl
          · rintro _ ⟨⟩
            exact dataOnly receiver running
          · rintro _ ⟨⟩
            exact accepted receiver running
      | handle receiver running message inbox head others =>
          have data := dataOnly receiver running
          rw [head] at data
          obtain rfl : message = .data := data message List.mem_cons_self
          refine ⟨?_, ?_, ?_, ?_, ?_⟩
          · simp [Receiver.greeting, greeted receiver running, quiet,
              Forward.reply]
          · exact (closed_push rfl).trans (by
              rw [show before.history.any _ = false from unclosed]
              rfl)
          · rintro _ ⟨⟩
            rfl
          · rintro _ ⟨⟩ later member
            exact data later (List.mem_cons_of_mem _ member)
          · rintro _ ⟨⟩
            simpa [Receiver.handled, Forward.items] using
              accepted receiver running
      | crash receiver running message inbox head =>
          have data := dataOnly receiver running
          rw [head] at data
          obtain rfl : message = .data := data message List.mem_cons_self
          refine ⟨quiet, ?_, ?_, ?_, ?_⟩
          · exact (closed_push rfl).trans (by
              rw [show before.history.any _ = false from unclosed]
              rfl)
          · rintro _ ⟨⟩
          · rintro _ ⟨⟩
          · rintro _ ⟨⟩
  | toReceiver receiver running inbox left =>
      refine ⟨quiet, unclosed, ?_, ?_, ?_⟩
      · rintro _ ⟨⟩
        exact greeted receiver running
      · rintro _ ⟨⟩ message member
        exact dataOnly receiver running message (left.subset member)
      · rintro _ ⟨⟩
        exact accepted receiver running
  | toSender outbox left =>
      refine ⟨?_, unclosed, greeted, dataOnly, accepted⟩
      have none := left.filter (· ≠ .other)
      rw [show before.outbox.filter _ = [] from quiet] at none
      exact List.sublist_nil.mp none

/-- A stalled enrolment stays blocked: its sender hears nothing that matters,
and has nothing to publish. -/
theorem Blocked.step (stalled : Stalled items before)
    (blocked : Blocked before.sender)
    (step : LossyStep items guard before after) : Blocked after.sender := by
  cases step with
  | toReceiver receiver running inbox left => exact blocked
  | toSender outbox left => exact blocked
  | party step =>
      cases step with
      | quiet => exact blocked
      | round receiver running others => exact blocked
      | handle receiver running message inbox head others => exact blocked
      | crash receiver running message inbox head => exact blocked
      | publish idle complete =>
          rw [blocked.incomplete] at complete
          cases complete
      | finish busy =>
          refine ⟨?_, blocked.open_⟩
          cases active : before.sender.active with
          | false => simp [Sender.finish, blocked.incomplete, active]
          | true =>
              simp [Sender.finish, blocked.incomplete, active,
                blocked.open_ active]
      | hear message rest head guarded =>
          have quiet := stalled.quiet
          rw [head] at quiet
          obtain ⟨rfl, _⟩ := other_of_quiet quiet
          exact blocked

/-! ### Losing messages -/

theorem proper_eq_nil {inbox : List (Forward τ)}
    (dataOnly : ∀ message ∈ inbox, message = .data) : proper inbox = [] := by
  rw [proper, List.filter_eq_nil_iff]
  intro message member
  simp [dataOnly message member, Forward.isData]

section Phase

variable {sender : Sender} {receiver : Receiver τ} {outbox : List Backward}
  {history : List (Forward τ × List τ)} {inbox : List (Forward τ)}

/-- Data is lost without a trace. -/
theorem Phase.lose_data
    (phase : Phase items sender receiver outbox history)
    (left : inbox.Sublist receiver.inbox)
    (kept : proper inbox = proper receiver.inbox) :
    Phase items sender { receiver with inbox } outbox history := by
  have nothing (empty : receiver.inbox = []) : inbox = [] := by
    rw [empty] at left
    exact List.sublist_nil.mp left
  cases phase with
  | waiting fresh quiet empty unstarted received =>
      exact .waiting fresh quiet (nothing empty) unstarted received
  | discovering greeted asked empty unstarted received =>
      exact .discovering greeted asked (nothing empty) unstarted received
  | acknowledging index inside greeted answered empty enrolling received =>
      exact .acknowledging index inside greeted answered (nothing empty)
        enrolling received
  | registering index inside greeted quiet sent enrolling received =>
      rw [sent] at left kept
      rcases List.sublist_singleton.mp left with rfl | same
      · cases kept
      · exact .registering index inside greeted quiet same enrolling received
  | finishing later greeted quiet sent dataOnly received =>
      rw [sent] at left kept
      cases left with
      | cons _ left =>
          have none : proper inbox = [] := proper_eq_nil
            fun message member => dataOnly message (left.subset member)
          rw [none] at kept
          cases kept
      | cons_cons _ left =>
          exact .finishing _ greeted quiet rfl
            (fun message member => dataOnly message (left.subset member))
            received
  | opened greeted quiet dataOnly received done =>
      exact .opened greeted quiet
        (fun message member => dataOnly message (left.subset member)) received
        done

/-- The message of the enrolment to the receiver is the only one. -/
theorem Phase.lose_control
    (phase : Phase items sender receiver outbox history)
    (left : inbox.Sublist receiver.inbox)
    (lost : proper inbox ≠ proper receiver.inbox) :
    receiver.fresh = false ∧ control outbox = [] ∧
      (∀ message ∈ inbox, message = .data) ∧
        (.done ∉ receiver.inbox → Blocked sender) := by
  have something (empty : receiver.inbox = []) : False := by
    rw [empty] at left lost
    exact lost (congrArg proper (List.sublist_nil.mp left))
  cases phase with
  | waiting _ _ empty _ _ => exact (something empty).elim
  | discovering _ _ empty _ _ => exact (something empty).elim
  | acknowledging _ _ _ _ empty _ _ => exact (something empty).elim
  | registering index inside greeted quiet sent enrolling _ =>
      rw [sent] at left lost
      rcases List.sublist_singleton.mp left with rfl | same
      · refine ⟨greeted, quiet, ?_, ?_⟩
        · rintro _ ⟨⟩
        · intro _
          exact ⟨enrolling.complete, fun _ => enrolling.closing⟩
      · exact absurd (congrArg proper same) lost
  | finishing later greeted quiet sent dataOnly _ =>
      have waits : .done ∈ receiver.inbox := sent ▸ List.mem_cons_self
      rw [sent] at left lost
      cases left with
      | cons _ left =>
          exact ⟨greeted, quiet,
            fun message member => dataOnly message (left.subset member),
            fun absent => absurd waits absent⟩
      | @cons_cons inbox _ _ left =>
          have none : proper inbox = [] := proper_eq_nil
            fun message member => dataOnly message (left.subset member)
          have same : Forward.done :: proper inbox = .done :: proper later :=
            congrArg _ (none.trans (proper_eq_nil dataOnly).symm)
          exact absurd same lost
  | opened _ _ dataOnly _ _ =>
      have none : proper inbox = [] := proper_eq_nil
        fun message member => dataOnly message (left.subset member)
      exact absurd (none.trans (proper_eq_nil dataOnly).symm) lost

/-- The message of the enrolment to the sender is the only one. -/
theorem Phase.lose_answer {heard : List Backward}
    (phase : Phase items sender receiver outbox history)
    (left : heard.Sublist outbox) (lost : control heard ≠ control outbox) :
    receiver.fresh = false ∧ control heard = [] ∧ receiver.inbox = [] ∧
      Blocked sender := by
  have fewer : (control heard).Sublist (control outbox) := left.filter _
  have something (quiet : control outbox = []) : False := by
    rw [quiet] at fewer lost
    exact lost (List.sublist_nil.mp fewer)
  have single {answer : Backward} (due : control outbox = [answer]) :
      control heard = [] := by
    rw [due] at fewer lost
    exact (List.sublist_singleton.mp fewer).resolve_right lost
  cases phase with
  | waiting _ quiet _ _ _ => exact (something quiet).elim
  | registering _ _ _ quiet _ _ _ => exact (something quiet).elim
  | finishing _ _ quiet _ _ _ => exact (something quiet).elim
  | opened _ quiet _ _ _ => exact (something quiet).elim
  | discovering greeted asked empty unstarted _ =>
      refine ⟨greeted, single asked, empty, unstarted.complete, ?_⟩
      intro active
      rw [unstarted.active] at active
      cases active
  | acknowledging _ _ greeted answered empty enrolling _ =>
      exact ⟨greeted, single answered, empty, enrolling.complete,
        fun _ => enrolling.closing⟩

end Phase

/-- The invariant of an enrolment over lossy channels. -/
structure Enrolled (items : List τ) (state : State τ) : Prop where
  agreed : Agreed items state
  opened : Opened items state

section Enrolled

variable {receiver : Receiver τ} {inbox : List (Forward τ)}
  {outbox : List Backward}

theorem Enrolled.lose_data (enrolled : Enrolled items before)
    (running : before.receiver = some receiver)
    (left : inbox.Sublist receiver.inbox)
    (kept : proper inbox = proper receiver.inbox) :
    Enrolled items
      { before with receiver := some { receiver with inbox } } := by
  obtain ⟨agreed, opened⟩ := enrolled
  constructor
  · refine ⟨agreed.ordered, ?_, ?_⟩
    · rintro ⟨⟩
    · rintro _ ⟨⟩
      exact (agreed.phase receiver running).lose_data left kept
  · rintro done _ ⟨⟩
    obtain ⟨greeted, quiet, dataOnly, received⟩ :=
      opened done receiver running
    exact ⟨greeted, quiet,
      fun message member => dataOnly message (left.subset member), received⟩

/-- The enrolment stalls when its message to the receiver is lost. -/
theorem Enrolled.lose_control (enrolled : Enrolled items before)
    (running : before.receiver = some receiver)
    (left : inbox.Sublist receiver.inbox)
    (lost : proper inbox ≠ proper receiver.inbox) :
    Stalled items
        { before with receiver := some { receiver with inbox } } ∧
      (.done ∉ receiver.inbox → Blocked before.sender) := by
  obtain ⟨agreed, opened⟩ := enrolled
  have phase := agreed.phase receiver running
  obtain ⟨greeted, quiet, dataOnly, blocked⟩ := phase.lose_control left lost
  have unclosed : closed before = false := by
    apply opened.not_closed running
    by_contra calm
    have onlyData : ∀ message ∈ receiver.inbox, message = .data := by
      intro message member
      by_contra other
      exact calm (.inr (.inr ⟨message, member, other⟩))
    exact lost ((proper_eq_nil dataOnly).trans (proper_eq_nil onlyData).symm)
  refine ⟨⟨quiet, unclosed, ?_, ?_, ?_⟩, blocked⟩
  · rintro _ ⟨⟩
    exact greeted
  · rintro _ ⟨⟩
    exact dataOnly
  · rintro _ ⟨⟩
    exact phase.prefix

theorem Enrolled.lose_other (enrolled : Enrolled items before)
    (kept : control outbox = control before.outbox) :
    Enrolled items { before with outbox } := by
  obtain ⟨agreed, opened⟩ := enrolled
  constructor
  · refine ⟨agreed.ordered, ?_, ?_⟩
    · intro gone
      exact kept.trans (agreed.gone gone)
    · intro receiver running
      exact (agreed.phase receiver running).outbox_congr kept
  · intro done receiver running
    obtain ⟨greeted, quiet, dataOnly, received⟩ :=
      opened done receiver running
    exact ⟨greeted, kept.trans quiet, dataOnly, received⟩

/-- The enrolment stalls when its message to the sender is lost. -/
theorem Enrolled.lose_answer (enrolled : Enrolled items before)
    (left : outbox.Sublist before.outbox)
    (lost : control outbox ≠ control before.outbox) :
    Stalled items { before with outbox } ∧ Blocked before.sender := by
  obtain ⟨agreed, opened⟩ := enrolled
  have loud : control before.outbox ≠ [] := by
    intro quiet
    have fewer : (control outbox).Sublist (control before.outbox) :=
      left.filter _
    rw [quiet] at fewer lost
    exact lost (List.sublist_nil.mp fewer)
  cases running : before.receiver with
  | none => exact absurd (agreed.gone running) loud
  | some receiver =>
      have phase := agreed.phase receiver running
      have unclosed := opened.not_closed running (.inr (.inl loud))
      obtain ⟨greeted, quiet, empty, blocked⟩ := phase.lose_answer left lost
      refine ⟨⟨quiet, unclosed, ?_, ?_, ?_⟩, blocked⟩
      · rintro _ ⟨⟩
        exact greeted
      · rintro _ ⟨⟩ message member
        rw [empty] at member
        cases member
      · rintro _ ⟨⟩
        exact phase.prefix

/-- A lossy run goes on as it should, or has stalled. -/
theorem Enrolled.lossyStep (nonempty : items ≠ [])
    (enrolled : Enrolled items before)
    (step : LossyStep items guard before after) :
    Enrolled items after ∨ Stalled items after := by
  cases step with
  | party step =>
      exact .inl ⟨enrolled.agreed.step nonempty step,
        enrolled.opened.step enrolled.agreed step⟩
  | toReceiver receiver running inbox left =>
      by_cases kept : proper inbox = proper receiver.inbox
      · exact .inl (enrolled.lose_data running left kept)
      · exact .inr (enrolled.lose_control running left kept).1
  | toSender outbox left =>
      by_cases kept : control outbox = control before.outbox
      · exact .inl (enrolled.lose_other kept)
      · exact .inr (enrolled.lose_answer left kept).1

end Enrolled

/-- A loss takes nothing from what the sender has concluded. -/
theorem Concludes.lose {receiver : Receiver τ} {inbox : List (Forward τ)}
    (concludes : Concludes before)
    (running : before.receiver = some receiver)
    (left : inbox.Sublist receiver.inbox) :
    Concludes { before with receiver := some { receiver with inbox } } := by
  constructor
  · rintro _ ⟨⟩ data
    exact concludes.data receiver running (left.subset data)
  · rintro _ ⟨⟩ done
    exact concludes.done receiver running (left.subset done)
  · intro _ closed
    exact concludes.closed (running ▸ Option.some_ne_none _) closed

theorem Concludes.lossyStep (agreed : Agreed items before)
    (concludes : Concludes before) (flushed : Flushed after)
    (step : LossyStep items guard before after) : Concludes after := by
  cases step with
  | party step => exact concludes.step agreed flushed step
  | toReceiver receiver running inbox left => exact concludes.lose running left
  | toSender outbox left =>
      exact ⟨concludes.data, concludes.done, concludes.closed⟩

/-- What was received when a closing message was handled is everything, and
what has been received is the beginning of it. -/
theorem agreement_of_lossy {state : State τ}
    (either : Enrolled items state ∨ Stalled items state) :
    (∀ receiver, state.receiver = some receiver →
        receiver.received <+: items) ∧
      ∀ entry ∈ state.history, entry.1 = .done → entry.2 = items := by
  rcases either with enrolled | stalled
  · constructor
    · intro receiver running
      exact Phase.prefix (enrolled.agreed.phase receiver running)
    · exact enrolled.agreed.ordered.whole
  · refine ⟨stalled.accepted, ?_⟩
    intro entry member done
    have closed := closed_iff.mpr ⟨entry, member, done⟩
    rw [stalled.unclosed] at closed
    cases closed

end Loss

end StopAndWait
