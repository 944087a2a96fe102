import NanoRos.Foundation.FirstEnrolment

/-!
# Progress of the first enrolment

How many messages the first enrolment still takes.  No step makes it more, and
what stands out is always with one of the parties.
-/

namespace StopAndWait

universe u

variable {τ : Type u}

namespace Forward

def isDone : Forward τ → Bool
  | .done => true
  | .register _ | .data | .other => false

theorem isDone_iff {message : Forward τ} :
    message.isDone = true ↔ message = .done := by
  cases message <;> simp [isDone]

end Forward

/-- The closing message was handled. -/
def closed (state : State τ) : Bool :=
  state.history.any fun entry => entry.1.isDone

theorem closed_iff {state : State τ} :
    closed state = true ↔ ∃ entry ∈ state.history, entry.1 = .done := by
  simp [closed, Forward.isDone_iff]

/-- How many messages are still to be sent or handled, two for each item. -/
def remaining (items : List τ) (state : State τ) : Nat :=
  match state.receiver with
  | none => 0
  | some receiver =>
      if receiver.fresh then 2 * items.length + 3
      else if control state.outbox = [.start] then 2 * items.length + 2
      else if closed state then 0
      else if receiver.inbox.any Forward.isDone then 1
      else if control state.outbox = [] then
        2 * (items.length - receiver.received.length) + 1
      else
        2 * (items.length - receiver.received.length) + 2

/-- Whose turn it is while so many messages remain. -/
inductive Turn (items : List τ) (state : State τ) (receiver : Receiver τ) :
    Nat → Prop
  | fresh (unasked : receiver.fresh = true) :
      Turn items state receiver (2 * items.length + 3)
  | toHear (due : control state.outbox ≠ []) (count : Nat)
      (bound : count ≤ items.length) :
      Turn items state receiver (2 * count + 2)
  | toHandle (due : receiver.inbox ≠ []) (count : Nat)
      (bound : count ≤ items.length) :
      Turn items state receiver (2 * count + 1)
  | opened (done : closed state = true) : Turn items state receiver 0

section Remaining

variable {items : List τ} {state : State τ} {receiver : Receiver τ}

/-- Before the closing message is handled, something else is under way. -/
theorem Opened.not_closed (opened : Opened items state)
    (running : state.receiver = some receiver)
    (busy : receiver.fresh = true ∨ control state.outbox ≠ [] ∨
      ∃ message ∈ receiver.inbox, message ≠ .data) :
    closed state = false := by
  cases done : closed state with
  | false => rfl
  | true =>
      obtain ⟨greeted, quiet, dataOnly, _⟩ :=
        opened (closed_iff.mp done) receiver running
      rcases busy with fresh | loud | ⟨message, member, other⟩
      · rw [greeted] at fresh
        cases fresh
      · exact absurd quiet loud
      · exact absurd (dataOnly message member) other

theorem remaining_fresh (running : state.receiver = some receiver)
    (fresh : receiver.fresh = true) :
    remaining items state = 2 * items.length + 3 := by
  simp [remaining, running, fresh]

theorem remaining_asked (running : state.receiver = some receiver)
    (greeted : receiver.fresh = false)
    (asked : control state.outbox = [.start]) :
    remaining items state = 2 * items.length + 2 := by
  simp [remaining, running, greeted, asked]

theorem remaining_closed (running : state.receiver = some receiver)
    (greeted : receiver.fresh = false) (quiet : control state.outbox = [])
    (done : closed state = true) : remaining items state = 0 := by
  simp [remaining, running, greeted, quiet, done]

theorem remaining_finishing (running : state.receiver = some receiver)
    (greeted : receiver.fresh = false) (quiet : control state.outbox = [])
    (undone : closed state = false)
    (sent : .done ∈ receiver.inbox) : remaining items state = 1 := by
  have waits : receiver.inbox.any Forward.isDone = true :=
    List.any_eq_true.mpr ⟨.done, sent, rfl⟩
  simp [remaining, running, greeted, quiet, undone, waits]

theorem remaining_sent (running : state.receiver = some receiver)
    (greeted : receiver.fresh = false) (quiet : control state.outbox = [])
    (undone : closed state = false)
    (notDone : receiver.inbox.any Forward.isDone = false) :
    remaining items state =
      2 * (items.length - receiver.received.length) + 1 := by
  simp [remaining, running, greeted, quiet, undone, notDone]

theorem remaining_answered (running : state.receiver = some receiver)
    (greeted : receiver.fresh = false)
    (answered : control state.outbox = [.ack])
    (undone : closed state = false)
    (notDone : receiver.inbox.any Forward.isDone = false) :
    remaining items state =
      2 * (items.length - receiver.received.length) + 2 := by
  simp [remaining, running, greeted, answered, undone, notDone]

/-- Something stands out until the closing message is handled. -/
theorem turn_of_agreed (agreed : Agreed items state)
    (opened : Opened items state)
    (running : state.receiver = some receiver) :
    Turn items state receiver (remaining items state) := by
  cases agreed.phase receiver running with
  | waiting fresh _ _ _ _ =>
      rw [remaining_fresh running fresh]
      exact .fresh fresh
  | discovering greeted asked _ _ _ =>
      rw [remaining_asked running greeted asked]
      exact .toHear (by rw [asked]; nofun) items.length (Nat.le_refl _)
  | registering index inside greeted quiet sent _ _ =>
      have waits : .register (some items[index]) ∈ receiver.inbox := by
        rw [sent]
        exact List.mem_cons_self
      have undone := opened.not_closed running
        (.inr (.inr ⟨_, waits, by rintro ⟨⟩⟩))
      rw [remaining_sent running greeted quiet undone (by simp [sent,
        Forward.isDone])]
      exact .toHandle (by rw [sent]; nofun) _ (Nat.sub_le _ _)
  | acknowledging index inside greeted answered empty _ _ =>
      have undone := opened.not_closed running (.inr (.inl (by
        rw [answered]
        nofun)))
      rw [remaining_answered running greeted answered undone (by
        rw [empty]
        rfl)]
      exact .toHear (by rw [answered]; nofun) _ (Nat.sub_le _ _)
  | finishing later greeted quiet sent _ _ =>
      have waits : .done ∈ receiver.inbox := sent ▸ List.mem_cons_self
      have undone := opened.not_closed running
        (.inr (.inr ⟨_, waits, by rintro ⟨⟩⟩))
      rw [remaining_finishing running greeted quiet undone waits]
      exact .toHandle (by rw [sent]; nofun) 0 (Nat.zero_le _)
  | opened greeted quiet _ _ done =>
      have closed := closed_iff.mpr done
      rw [remaining_closed running greeted quiet closed]
      exact .opened closed

theorem remaining_le_of_quiet (running : state.receiver = some receiver)
    (greeted : receiver.fresh = false) (quiet : control state.outbox = []) :
    remaining items state ≤
      2 * (items.length - receiver.received.length) + 1 := by
  simp only [remaining, running, greeted, quiet]
  split_ifs <;> simp_all

theorem remaining_le_of_greeted (running : state.receiver = some receiver)
    (greeted : receiver.fresh = false) :
    remaining items state ≤ 2 * items.length + 2 := by
  simp only [remaining, running, greeted, Bool.false_eq_true, if_false]
  split_ifs <;> omega

/-- At most one answer is under way. -/
theorem control_length_le (agreed : Agreed items state)
    (running : state.receiver = some receiver) :
    (control state.outbox).length ≤ 1 := by
  cases agreed.phase receiver running with
  | waiting _ quiet _ _ _ => rw [quiet]; exact Nat.zero_le 1
  | discovering _ asked _ _ _ => rw [asked]; exact Nat.le_refl 1
  | registering _ _ _ quiet _ _ _ => rw [quiet]; exact Nat.zero_le 1
  | acknowledging _ _ _ answered _ _ _ => rw [answered]; exact Nat.le_refl 1
  | finishing _ _ quiet _ _ _ => rw [quiet]; exact Nat.zero_le 1
  | opened _ quiet _ _ _ => rw [quiet]; exact Nat.zero_le 1

/-- While an answer is under way, so many messages remain. -/
theorem remaining_of_due (agreed : Agreed items state)
    (opened : Opened items state) (running : state.receiver = some receiver)
    (due : control state.outbox ≠ []) :
    ∃ count ≤ items.length, remaining items state = 2 * count + 2 := by
  cases agreed.phase receiver running with
  | waiting _ quiet _ _ _ => exact absurd quiet due
  | registering _ _ _ quiet _ _ _ => exact absurd quiet due
  | finishing _ _ quiet _ _ _ => exact absurd quiet due
  | opened _ quiet _ _ _ => exact absurd quiet due
  | discovering greeted asked _ _ _ =>
      exact ⟨items.length, Nat.le_refl _,
        remaining_asked running greeted asked⟩
  | acknowledging index inside greeted answered empty _ _ =>
      have undone := opened.not_closed running (.inr (.inl due))
      exact ⟨_, Nat.sub_le _ _, remaining_answered running greeted answered
        undone (by rw [empty]; rfl)⟩

/-- When the answer under way has been heard, fewer messages remain. -/
theorem remaining_lt_of_heard {heard : State τ} {listener : Receiver τ}
    (agreed : Agreed items state) (opened : Opened items state)
    (running : state.receiver = some receiver)
    (due : control state.outbox ≠ [])
    (later : Turn items heard listener (remaining items heard))
    (quiet : control heard.outbox = [])
    (bound : remaining items heard ≤ remaining items state) :
    remaining items heard < remaining items state := by
  obtain ⟨count, inside, total⟩ := remaining_of_due agreed opened running due
  rw [total] at bound ⊢
  generalize remaining items heard = left at later bound ⊢
  cases later with
  | fresh unasked => omega
  | toHear due _ _ => exact absurd quiet due
  | toHandle _ _ _ => omega
  | opened _ => omega

end Remaining

section Step

variable {items : List τ} {before after : State τ} {receiver : Receiver τ}

/-- An answer that is heard brings the next message. -/
theorem remaining_hear {message : Backward} {rest : List Backward}
    (agreed : Agreed items before) (opened : Opened items before)
    (head : before.outbox = message :: rest)
    (running : before.receiver = some receiver) :
    remaining items
        { before with
          sender := (before.sender.hear items message).1
          receiver := some
            (receiver.post (before.sender.hear items message).2)
          outbox := rest } ≤
      remaining items before := by
  have phase := agreed.phase receiver running
  cases message with
  | other =>
      have same : control before.outbox = control rest := by
        rw [head]
        exact control_cons_other rest
      simp only [remaining, running, same, Sender.hear, Receiver.post,
        List.append_nil, closed]
      exact Nat.le_refl _
  | start =>
      have proper : control before.outbox = .start :: control rest := by
        rw [head]
        exact control_cons (by decide) rest
      cases phase with
      | discovering greeted asked _ _ received =>
          have quiet : control rest = [] :=
            (List.cons.inj (proper.symm.trans asked)).2
          rw [remaining_asked running greeted asked]
          apply Nat.le_trans (remaining_le_of_quiet rfl
            (by exact greeted) quiet)
          omega
      | waiting _ quiet _ _ _ => rw [proper] at quiet; cases quiet
      | registering _ _ _ quiet _ _ _ => rw [proper] at quiet; cases quiet
      | acknowledging _ _ _ answered _ _ _ =>
          rw [proper] at answered
          cases answered
      | finishing _ _ quiet _ _ _ => rw [proper] at quiet; cases quiet
      | opened _ quiet _ _ _ => rw [proper] at quiet; cases quiet
  | ack =>
      have proper : control before.outbox = .ack :: control rest := by
        rw [head]
        exact control_cons (by decide) rest
      cases phase with
      | acknowledging index inside greeted answered empty _ received =>
          have quiet : control rest = [] :=
            (List.cons.inj (proper.symm.trans answered)).2
          have undone := opened.not_closed running
            (.inr (.inl (answered ▸ List.cons_ne_nil _ _)))
          rw [remaining_answered running greeted answered undone (by
            rw [empty]
            rfl)]
          exact Nat.le_trans (remaining_le_of_quiet rfl
            (by exact greeted) quiet)
            (Nat.le_succ _)
      | waiting _ quiet _ _ _ => rw [proper] at quiet; cases quiet
      | discovering _ asked _ _ _ => rw [proper] at asked; cases asked
      | registering _ _ _ quiet _ _ _ => rw [proper] at quiet; cases quiet
      | finishing _ _ quiet _ _ _ => rw [proper] at quiet; cases quiet
      | opened _ quiet _ _ _ => rw [proper] at quiet; cases quiet

/-- A message that is handled need not be handled again. -/
theorem remaining_handle {message : Forward τ} {inbox : List (Forward τ)}
    (agreed : Agreed items before) (opened : Opened items before)
    (running : before.receiver = some receiver)
    (head : receiver.inbox = message :: inbox) (others : Nat) :
    let after : State τ :=
      { before with
        receiver := some (receiver.handled message inbox)
        outbox := before.outbox ++ (receiver.greeting ++
          List.replicate others .other ++ message.reply)
        history := before.history ++ [(message, receiver.received)] }
    remaining items after < remaining items before ∨
      closed before = true ∧ remaining items after = 0 := by
  intro after
  cases agreed.phase receiver running with
  | waiting _ _ empty _ _ => rw [head] at empty; cases empty
  | discovering _ _ empty _ _ => rw [head] at empty; cases empty
  | acknowledging _ _ _ _ empty _ _ => rw [head] at empty; cases empty
  | registering index inside greeted quiet sent _ received =>
      have waits : .register (some items[index]) ∈ receiver.inbox := by
        rw [sent]
        exact List.mem_cons_self
      have undone := opened.not_closed running
        (.inr (.inr ⟨_, waits, by rintro ⟨⟩⟩))
      rw [sent] at head
      obtain ⟨rfl, rfl⟩ := List.cons.inj head
      have answered : control after.outbox = [.ack] := by
        simp only [after, Receiver.greeting, greeted, control_append, quiet,
          control_replicate_other]
        rfl
      have stillUndone : closed after = false := by
        simp only [after, closed, List.any_append, Bool.or_eq_false_iff]
        exact ⟨undone, rfl⟩
      left
      rw [remaining_answered rfl rfl answered stillUndone rfl,
        remaining_sent running greeted quiet undone (by simp [sent,
          Forward.isDone])]
      simp only [Receiver.handled, Forward.items, received, List.length_append,
        List.length_take, Option.toList_some, List.length_singleton]
      omega
  | finishing later greeted quiet sent _ _ =>
      have waits : .done ∈ receiver.inbox := sent ▸ List.mem_cons_self
      have undone := opened.not_closed running
        (.inr (.inr ⟨_, waits, by rintro ⟨⟩⟩))
      rw [sent] at head
      obtain ⟨rfl, rfl⟩ := List.cons.inj head
      left
      rw [remaining_finishing running greeted quiet undone waits,
        remaining_closed rfl rfl (by
          simp [after, Receiver.greeting, greeted, quiet, Forward.reply])
        (by simp [after, closed, Forward.isDone])]
      exact Nat.zero_lt_one
  | opened greeted quiet dataOnly _ done =>
      rw [head] at dataOnly
      obtain rfl : message = .data := dataOnly message List.mem_cons_self
      have was := closed_iff.mpr done
      right
      refine ⟨was, ?_⟩
      rw [remaining_closed rfl rfl (by
          simp [after, Receiver.greeting, greeted, quiet, Forward.reply])
        (by
          simp only [after, closed, List.any_append, Bool.or_eq_true]
          exact .inl was)]

/-- No step brings the parties further from the end. -/
theorem remaining_step
    {guard : State τ → Backward → List Backward → Prop}
    (agreed : Agreed items before) (opened : Opened items before)
    (step : Step items guard before after) :
    remaining items after ≤ remaining items before := by
  cases step with
  | quiet => exact Nat.le_refl _
  | finish busy => exact Nat.le_refl _
  | hear message rest head guarded =>
      cases running : before.receiver with
      | none => exact Nat.zero_le _
      | some receiver => exact remaining_hear agreed opened head running
  | publish idle complete =>
      cases running : before.receiver with
      | none => exact Nat.zero_le _
      | some receiver =>
          have notDone : ([.data] : List (Forward τ)).any Forward.isDone =
              false := rfl
          simp only [remaining, running, Option.map_some, Receiver.post,
            closed, List.any_append, notDone, Bool.or_false]
          exact Nat.le_refl _
  | round receiver running others =>
      cases fresh : receiver.fresh with
      | true =>
          rw [remaining_fresh running fresh]
          exact Nat.le_trans (remaining_le_of_greeted rfl rfl)
            (Nat.le_succ _)
      | false =>
          have same : control (before.outbox ++
              ([] ++ List.replicate others .other)) =
                control before.outbox := by simp
          simp only [remaining, running, fresh, Receiver.greeting, closed,
            Bool.false_eq_true, if_false, same]
          exact Nat.le_refl _
  | handle receiver running message inbox head others =>
      rcases remaining_handle agreed opened running head others with
        fewer | ⟨_, finished⟩
      · exact Nat.le_of_lt fewer
      · rw [finished]
        exact Nat.zero_le _
  | crash receiver running message inbox head => exact Nat.zero_le _

/-- A message that is handled brings the parties nearer to the end. -/
theorem remaining_lt_of_handled
    {guard : State τ → Backward → List Backward → Prop}
    (agreed : Agreed items before) (opened : Opened items before)
    (step : Step items guard before after) (undone : closed before = false)
    (alive : after.receiver ≠ none)
    (handled : before.history.length < after.history.length) :
    remaining items after < remaining items before := by
  cases step with
  | quiet => exact absurd handled (Nat.lt_irrefl _)
  | finish busy => exact absurd handled (Nat.lt_irrefl _)
  | hear message rest head guarded => exact absurd handled (Nat.lt_irrefl _)
  | publish idle complete => exact absurd handled (Nat.lt_irrefl _)
  | round receiver running others => exact absurd handled (Nat.lt_irrefl _)
  | handle receiver running message inbox head others =>
      rcases remaining_handle agreed opened running head others with
        fewer | ⟨done, _⟩
      · exact fewer
      · rw [undone] at done
        cases done
  | crash receiver running message inbox head => exact absurd rfl alive

end Step

/-! ## The sender's end -/

namespace Sender

/-- The closing message is being sent. -/
structure Closing (sender : Sender) : Prop where
  busy : sender.busy = true
  active : sender.active = true
  closing : sender.closing = true

theorem load_complete (sender : Sender) (items : List τ) :
    (sender.load items).1.complete = sender.complete := by
  unfold load
  split
  · rfl
  · split <;> rfl

theorem hear_complete (sender : Sender) (items : List τ)
    (message : Backward) :
    (sender.hear items message).1.complete = sender.complete := by
  unfold hear
  split
  · split
    · rfl
    · rw [load_complete]
      rfl
  · split
    · rfl
    · split
      · rfl
      · rw [load_complete]
        rfl
  · rfl

theorem closing_of_load {sender : Sender} {items : List τ}
    (active : sender.active = true) (done : .done ∈ (sender.load items).2) :
    sender.closing = true ∧ (sender.load items).1.Closing := by
  unfold load at done ⊢
  split
  next closing => exact ⟨closing, rfl, active, closing⟩
  next notClosing =>
    rw [if_neg notClosing] at done
    split at done
    · cases done
    · cases List.mem_singleton.mp done

/-- The closing message is sent within an enrolment. -/
theorem closing_of_hear {sender : Sender} {items : List τ}
    {message : Backward} (done : .done ∈ (sender.hear items message).2) :
    (sender.hear items message).1.Closing := by
  unfold hear at done ⊢
  split at done
  · split at done
    · cases done
    next idle =>
      have impossible := (closing_of_load rfl done).1
      cases impossible
  · split at done
    · cases done
    next awaited =>
      split at done
      · cases done
      next outside =>
        have active : sender.active = true := by simpa using outside
        have closes := (closing_of_load (by exact active) done).2
        rwa [if_neg awaited, if_neg outside]
  · cases done

end Sender

/-- The sender is through, or about to be, when the receiver is. -/
structure Concludes (state : State τ) : Prop where
  data : ∀ receiver, state.receiver = some receiver →
    .data ∈ receiver.inbox → state.sender.complete = true
  done : ∀ receiver, state.receiver = some receiver →
    .done ∈ receiver.inbox →
      state.sender.complete = true ∨ state.sender.Closing
  closed : state.receiver ≠ none → closed state = true →
    state.sender.complete = true

theorem Concludes.step {items : List τ}
    {guard : State τ → Backward → List Backward → Prop}
    {before after : State τ} (agreed : Agreed items before)
    (concludes : Concludes before) (flushed : Flushed after)
    (step : Step items guard before after) : Concludes after := by
  cases step with
  | quiet => exact concludes
  | hear message rest head guarded =>
      have complete := before.sender.hear_complete items message
      have noData := before.sender.hear_ne_data items message
      constructor
      · intro receiver running data
        obtain ⟨old, wasRunning, rfl⟩ := Option.map_eq_some_iff.mp running
        rcases List.mem_append.mp data with earlier | now
        · exact complete.trans (concludes.data old wasRunning earlier)
        · exact absurd rfl (noData _ now)
      · intro receiver running done
        obtain ⟨old, wasRunning, rfl⟩ := Option.map_eq_some_iff.mp running
        rcases List.mem_append.mp done with earlier | now
        · have quiet : control before.outbox = [] := by
            cases agreed.phase old wasRunning with
            | finishing _ _ quiet _ _ _ => exact quiet
            | opened _ quiet _ _ _ => exact quiet
            | waiting _ quiet _ _ _ => exact quiet
            | registering _ _ _ quiet _ _ _ => exact quiet
            | discovering _ _ empty _ _ => rw [empty] at earlier; cases earlier
            | acknowledging _ _ _ _ empty _ _ =>
                rw [empty] at earlier
                cases earlier
          rw [head] at quiet
          obtain ⟨rfl, _⟩ := other_of_quiet quiet
          exact concludes.done old wasRunning earlier
        · exact .inr (Sender.closing_of_hear now)
      · intro running done
        exact complete.trans (concludes.closed (by simpa using running) done)
  | finish busy =>
      have keeps (complete : before.sender.complete = true) :
          before.sender.finish.complete = true := by
        simp [Sender.finish, complete]
      constructor
      · intro receiver running data
        exact keeps (concludes.data receiver running data)
      · intro receiver running done
        rcases concludes.done receiver running done with complete | closing
        · exact .inl (keeps complete)
        · left
          simp [Sender.finish, closing.active, closing.closing]
      · intro running done
        exact keeps (concludes.closed running done)
  | publish idle complete =>
      exact ⟨fun _ _ _ => complete, fun _ _ _ => .inl complete,
        fun _ _ => complete⟩
  | round receiver wasRunning others =>
      constructor
      · intro after running data
        cases running
        exact concludes.data receiver wasRunning data
      · intro after running done
        cases running
        exact concludes.done receiver wasRunning done
      · intro _ done
        exact concludes.closed (wasRunning ▸ Option.some_ne_none _) done
  | handle receiver wasRunning message inbox head others =>
      have later {rest : Forward τ} (member : rest ∈ inbox) :
          rest ∈ receiver.inbox := by
        rw [head]
        exact List.mem_cons_of_mem _ member
      constructor
      · intro after running data
        cases running
        exact concludes.data receiver wasRunning (later data)
      · intro after running done
        cases running
        exact concludes.done receiver wasRunning (later done)
      · intro _ done
        simp only [StopAndWait.closed, List.any_append, Bool.or_eq_true]
          at done
        rcases done with past | now
        · exact concludes.closed (wasRunning ▸ Option.some_ne_none _) past
        · obtain rfl : message = .done := by
            simpa [Forward.isDone_iff] using now
          have opens := (agreed.phase receiver wasRunning).opens head
          rcases concludes.done receiver wasRunning
            (head ▸ List.mem_cons_self) with complete | closing
          · exact complete
          · -- the rest of the message being sent is still to come
            have more := flushed _ rfl closing.busy
            obtain ⟨next, member⟩ := List.exists_mem_of_ne_nil _ more
            obtain rfl := opens.2.2.1 next member
            exact concludes.data receiver wasRunning (later member)
  | crash receiver wasRunning message inbox head =>
      constructor
      · rintro _ ⟨⟩
      · rintro _ ⟨⟩
      · intro running
        exact absurd rfl running

end StopAndWait
