import NanoRos.Foundation.StopAndWait

/-!
# The first enrolment

Both parties start together.  Then exactly one message of the enrolment is
under way at a time, and where it is tells how far the enrolment has come.
-/

namespace StopAndWait

universe u

variable {τ : Type u}

/-- The messages of the enrolment among those to the sender. -/
def control (outbox : List Backward) : List Backward :=
  outbox.filter (· ≠ .other)

@[simp] theorem control_append (left right : List Backward) :
    control (left ++ right) = control left ++ control right :=
  List.filter_append ..

@[simp] theorem control_replicate_other (count : Nat) :
    control (List.replicate count .other) = [] := by
  simp [control]

theorem control_cons_other (rest : List Backward) :
    control (.other :: rest) = control rest := rfl

theorem control_cons {message : Backward} (proper : message ≠ .other)
    (rest : List Backward) :
    control (message :: rest) = message :: control rest := by
  simp [control, proper]

namespace Sender

/-- The sender before the first enrolment. -/
structure Unstarted (sender : Sender) : Prop where
  active : sender.active = false
  awaiting : sender.awaiting = false
  complete : sender.complete = false
  busy : sender.busy = false

/-- The sender has sent item `index` and no acknowledgement of it yet. -/
structure Enrolling (sender : Sender) (index : Nat) : Prop where
  active : sender.active = true
  closing : sender.closing = false
  awaiting : sender.awaiting = true
  complete : sender.complete = false
  next : sender.next = index

end Sender

/-- How far the first enrolment is. -/
inductive Phase (items : List τ) (sender : Sender) (receiver : Receiver τ)
    (outbox : List Backward) (history : List (Forward τ × List τ)) : Prop
  | waiting (fresh : receiver.fresh = true) (quiet : control outbox = [])
      (empty : receiver.inbox = []) (unstarted : sender.Unstarted)
      (received : receiver.received = [])
  | discovering (greeted : receiver.fresh = false)
      (asked : control outbox = [.start]) (empty : receiver.inbox = [])
      (unstarted : sender.Unstarted) (received : receiver.received = [])
  | registering (index : Nat) (inside : index < items.length)
      (greeted : receiver.fresh = false) (quiet : control outbox = [])
      (sent : receiver.inbox = [.register (some items[index])])
      (enrolling : sender.Enrolling index)
      (received : receiver.received = items.take index)
  | acknowledging (index : Nat) (inside : index < items.length)
      (greeted : receiver.fresh = false) (answered : control outbox = [.ack])
      (empty : receiver.inbox = []) (enrolling : sender.Enrolling index)
      (received : receiver.received = items.take (index + 1))
  | finishing (later : List (Forward τ)) (greeted : receiver.fresh = false)
      (quiet : control outbox = [])
      (sent : receiver.inbox = .done :: later)
      (dataOnly : ∀ message ∈ later, message = .data)
      (received : receiver.received = items)
  | opened (greeted : receiver.fresh = false) (quiet : control outbox = [])
      (dataOnly : ∀ message ∈ receiver.inbox, message = .data)
      (received : receiver.received = items)
      (done : ∃ entry ∈ history, entry.1 = .done)

/-- What was received when the closing message was handled is everything, and
no data is handled before it. -/
structure Ordered (items : List τ) (history : List (Forward τ × List τ)) :
    Prop where
  whole : ∀ entry ∈ history, entry.1 = .done → entry.2 = items
  later : ∀ before entry after, history = before ++ entry :: after →
    entry.1 = .data → ∃ earlier ∈ before, earlier.1 = .done

theorem Ordered.nil (items : List τ) : Ordered items [] := by
  constructor
  · intro entry member
    cases member
  · intro before entry after split
    cases before <;> cases split

theorem Ordered.push {items : List τ} {history : List (Forward τ × List τ)}
    (ordered : Ordered items history) {message : Forward τ} {received : List τ}
    (whole : message = .done → received = items)
    (later : message = .data → ∃ earlier ∈ history, earlier.1 = .done) :
    Ordered items (history ++ [(message, received)]) := by
  constructor
  · intro entry member done
    rcases List.mem_append.mp member with old | new
    · exact ordered.whole entry old done
    · rw [List.mem_singleton.mp new] at done ⊢
      exact whole done
  · intro before entry after split data
    rcases List.eq_nil_or_concat after with rfl | ⟨after, last, rfl⟩
    · obtain ⟨rfl, single⟩ := List.append_inj' split rfl
      rw [← (List.cons.inj single).1] at data
      exact later data
    · have shifted : before ++ entry :: after.concat last =
          (before ++ entry :: after) ++ [last] := by simp
      rw [shifted] at split
      obtain ⟨same, _⟩ := List.append_inj' split rfl
      exact ordered.later before entry after same data

/-- The invariant of the first enrolment.  A receiver that has crashed stays
away, and has left nothing of the enrolment behind. -/
structure Agreed (items : List τ) (state : State τ) : Prop where
  ordered : Ordered items state.history
  gone : state.receiver = none → control state.outbox = []
  phase : ∀ receiver, state.receiver = some receiver →
    Phase items state.sender receiver state.outbox state.history

/-- A message that is not completely sent is not yet handled. -/
def Flushed (state : State τ) : Prop :=
  ∀ receiver, state.receiver = some receiver →
    state.sender.busy = true → receiver.inbox ≠ []

theorem Phase.prefix {items : List τ} {sender : Sender}
    {receiver : Receiver τ} {outbox : List Backward}
    {history : List (Forward τ × List τ)}
    (phase : Phase items sender receiver outbox history) :
    receiver.received <+: items := by
  cases phase with
  | waiting _ _ _ _ received => exact received ▸ List.nil_prefix
  | discovering _ _ _ _ received => exact received ▸ List.nil_prefix
  | registering index _ _ _ _ _ received =>
      exact received ▸ List.take_prefix index items
  | acknowledging index _ _ _ _ _ received =>
      exact received ▸ List.take_prefix (index + 1) items
  | finishing _ _ _ _ _ received => exact received ▸ List.prefix_rfl
  | opened _ _ _ received _ => exact received ▸ List.prefix_rfl

/-- Nothing is sent before the receiver has asked. -/
theorem Phase.empty_of_fresh {items : List τ} {sender : Sender}
    {receiver : Receiver τ} {outbox : List Backward}
    {history : List (Forward τ × List τ)}
    (phase : Phase items sender receiver outbox history)
    (fresh : receiver.fresh = true) : receiver.inbox = [] := by
  cases phase with
  | waiting _ _ empty _ _ => exact empty
  | discovering _ _ empty _ _ => exact empty
  | acknowledging _ _ _ _ empty _ _ => exact empty
  | registering _ _ greeted _ _ _ _ => rw [greeted] at fresh; cases fresh
  | finishing _ greeted _ _ _ _ => rw [greeted] at fresh; cases fresh
  | opened greeted _ _ _ _ => rw [greeted] at fresh; cases fresh

/-! ## One step -/

section Step

variable {items : List τ} {sender : Sender} {receiver : Receiver τ}
  {outbox : List Backward} {history : List (Forward τ × List τ)}

/-- Neither party notices a message that is not of the enrolment. -/
theorem Phase.outbox_congr {other : List Backward}
    (phase : Phase items sender receiver outbox history)
    (same : control other = control outbox) :
    Phase items sender receiver other history := by
  cases phase with
  | waiting fresh quiet empty unstarted received =>
      exact .waiting fresh (same.trans quiet) empty unstarted received
  | discovering greeted asked empty unstarted received =>
      exact .discovering greeted (same.trans asked) empty unstarted received
  | registering index inside greeted quiet sent enrolling received =>
      exact .registering index inside greeted (same.trans quiet) sent enrolling
        received
  | acknowledging index inside greeted answered empty enrolling received =>
      exact .acknowledging index inside greeted (same.trans answered) empty
        enrolling received
  | finishing later greeted quiet sent dataOnly received =>
      exact .finishing later greeted (same.trans quiet) sent dataOnly received
  | opened greeted quiet dataOnly received done =>
      exact .opened greeted (same.trans quiet) dataOnly received done

theorem Phase.hear_start {rest : List Backward} (nonempty : items ≠ [])
    (phase : Phase items sender receiver (.start :: rest) history) :
    Phase items (sender.hear items .start).1
      (receiver.post (sender.hear items .start).2) rest history := by
  have proper : control (.start :: rest) = .start :: control rest :=
    control_cons (by decide) rest
  have inside : sender.begin.next < items.length :=
    List.length_pos_iff.mpr nonempty
  cases phase with
  | discovering greeted asked empty unstarted received =>
      rw [proper] at asked
      have quiet : control rest = [] := (List.cons.inj asked).2
      rw [Sender.hear_start_idle unstarted.busy,
        Sender.load_item rfl (List.getElem?_eq_getElem inside)]
      refine .registering 0 inside greeted quiet ?_ ?_ ?_
      · rw [Receiver.post, empty]
        rfl
      · exact ⟨rfl, rfl, rfl, unstarted.complete, rfl⟩
      · rw [List.take_zero]
        exact received
  | waiting _ quiet _ _ _ => rw [proper] at quiet; cases quiet
  | registering _ _ _ quiet _ _ _ => rw [proper] at quiet; cases quiet
  | acknowledging _ _ _ answered _ _ _ => rw [proper] at answered; cases answered
  | finishing _ _ quiet _ _ _ => rw [proper] at quiet; cases quiet
  | opened _ quiet _ _ _ => rw [proper] at quiet; cases quiet

theorem Phase.hear_ack {rest : List Backward}
    (phase : Phase items sender receiver (.ack :: rest) history) :
    Phase items (sender.hear items .ack).1
      (receiver.post (sender.hear items .ack).2) rest history := by
  have proper : control (.ack :: rest) = .ack :: control rest :=
    control_cons (by decide) rest
  cases phase with
  | acknowledging index inside greeted answered empty enrolling received =>
      rw [proper] at answered
      have quiet : control rest = [] := (List.cons.inj answered).2
      have next := enrolling.next
      rw [Sender.hear_ack_taken enrolling.awaiting enrolling.active]
      by_cases last : items.length ≤ index + 1
      · have closing : (sender.advance items).closing = true := by
          simp [Sender.advance, next, last]
        rw [Sender.load_done closing]
        refine .finishing [] greeted quiet ?_ ?_ ?_
        · simp [Receiver.post, empty]
        · intro message member
          cases member
        · exact received.trans (List.take_of_length_le last)
      · have more : (sender.advance items).next < items.length := by
          simp only [Sender.advance, next]
          omega
        have notClosing : (sender.advance items).closing = false := by
          simp [Sender.advance, next, enrolling.closing, last]
        rw [Sender.load_item notClosing (List.getElem?_eq_getElem more)]
        have following : (sender.advance items).next = index + 1 := by
          simp [Sender.advance, next]
        refine .registering (index + 1) (following ▸ more) greeted quiet
          ?_ ?_ ?_
        · simp [Receiver.post, empty, following]
        · exact ⟨enrolling.active, notClosing, rfl, enrolling.complete,
            following⟩
        · exact received
  | waiting _ quiet _ _ _ => rw [proper] at quiet; cases quiet
  | discovering _ asked _ _ _ => rw [proper] at asked; cases asked
  | registering _ _ _ quiet _ _ _ => rw [proper] at quiet; cases quiet
  | finishing _ _ quiet _ _ _ => rw [proper] at quiet; cases quiet
  | opened _ quiet _ _ _ => rw [proper] at quiet; cases quiet

theorem Phase.hear {message : Backward} {rest : List Backward}
    (nonempty : items ≠ [])
    (phase : Phase items sender receiver (message :: rest) history) :
    Phase items (sender.hear items message).1
      (receiver.post (sender.hear items message).2) rest history := by
  cases message with
  | start => exact phase.hear_start nonempty
  | ack => exact phase.hear_ack
  | other =>
      have same : receiver.post [] = receiver := by simp [Receiver.post]
      simp only [Sender.hear, same]
      exact phase.outbox_congr (control_cons_other rest).symm

theorem Phase.finish
    (phase : Phase items sender receiver outbox history)
    (busy : sender.busy = true) :
    Phase items sender.finish receiver outbox history := by
  cases phase with
  | waiting _ _ _ unstarted _ =>
      rw [unstarted.busy] at busy
      cases busy
  | discovering _ _ _ unstarted _ =>
      rw [unstarted.busy] at busy
      cases busy
  | registering index inside greeted quiet sent enrolling received =>
      apply Phase.registering index inside greeted quiet sent _ received
      refine ⟨enrolling.active, enrolling.closing, enrolling.awaiting, ?_,
        enrolling.next⟩
      simp [Sender.finish, enrolling.complete, enrolling.closing]
  | acknowledging index inside greeted answered empty enrolling received =>
      apply Phase.acknowledging index inside greeted answered empty _ received
      refine ⟨enrolling.active, enrolling.closing, enrolling.awaiting, ?_,
        enrolling.next⟩
      simp [Sender.finish, enrolling.complete, enrolling.closing]
  | finishing later greeted quiet sent dataOnly received =>
      exact .finishing later greeted quiet sent dataOnly received
  | opened greeted quiet dataOnly received done =>
      exact .opened greeted quiet dataOnly received done

theorem Phase.publish
    (phase : Phase items sender receiver outbox history)
    (complete : sender.complete = true) :
    Phase items sender.publish (receiver.post [.data]) outbox history := by
  have extended {later : List (Forward τ)}
      (dataOnly : ∀ message ∈ later, message = .data) :
      ∀ message ∈ later ++ [.data], message = .data := by
    intro message member
    rcases List.mem_append.mp member with old | new
    · exact dataOnly message old
    · exact List.mem_singleton.mp new
  cases phase with
  | waiting _ _ _ unstarted _ =>
      rw [unstarted.complete] at complete
      cases complete
  | discovering _ _ _ unstarted _ =>
      rw [unstarted.complete] at complete
      cases complete
  | registering _ _ _ _ _ enrolling _ =>
      rw [enrolling.complete] at complete
      cases complete
  | acknowledging _ _ _ _ _ enrolling _ =>
      rw [enrolling.complete] at complete
      cases complete
  | finishing later greeted quiet sent dataOnly received =>
      refine .finishing (later ++ [.data]) greeted quiet ?_
        (extended dataOnly) received
      simp [Receiver.post, sent]
  | opened greeted quiet dataOnly received done =>
      exact .opened greeted quiet (extended dataOnly) received done

/-- A round in which no message is handled. -/
theorem Phase.round
    (phase : Phase items sender receiver outbox history) (others : Nat) :
    Phase items sender { receiver with fresh := false }
      (outbox ++ (receiver.greeting ++ List.replicate others .other))
      history := by
  have same (greeted : receiver.fresh = false) :
      control (outbox ++ (receiver.greeting ++
        List.replicate others .other)) = control outbox := by
    simp [Receiver.greeting, greeted, control]
  cases phase with
  | waiting fresh quiet empty unstarted received =>
      refine .discovering rfl ?_ empty unstarted received
      rw [control_append, control_append, quiet, control_replicate_other]
      simp [Receiver.greeting, fresh, control]
  | discovering greeted asked empty unstarted received =>
      exact .discovering rfl ((same greeted).trans asked) empty unstarted
        received
  | registering index inside greeted quiet sent enrolling received =>
      exact .registering index inside rfl ((same greeted).trans quiet) sent
        enrolling received
  | acknowledging index inside greeted answered empty enrolling received =>
      exact .acknowledging index inside rfl ((same greeted).trans answered)
        empty enrolling received
  | finishing later greeted quiet sent dataOnly received =>
      exact .finishing later rfl ((same greeted).trans quiet) sent dataOnly
        received
  | opened greeted quiet dataOnly received done =>
      exact .opened rfl ((same greeted).trans quiet) dataOnly received done

/-- A message is handled in order. -/
theorem Phase.ordered {message : Forward τ} {inbox : List (Forward τ)}
    (phase : Phase items sender receiver outbox history)
    (head : receiver.inbox = message :: inbox)
    (ordered : Ordered items history) :
    Ordered items (history ++ [(message, receiver.received)]) := by
  cases phase with
  | waiting _ _ empty _ _ => rw [head] at empty; cases empty
  | discovering _ _ empty _ _ => rw [head] at empty; cases empty
  | acknowledging _ _ _ _ empty _ _ => rw [head] at empty; cases empty
  | registering index inside greeted quiet sent enrolling received =>
      rw [sent] at head
      obtain ⟨rfl, _⟩ := List.cons.inj head
      exact ordered.push nofun nofun
  | finishing later greeted quiet sent dataOnly received =>
      rw [sent] at head
      obtain ⟨rfl, _⟩ := List.cons.inj head
      exact ordered.push (fun _ => received) nofun
  | opened greeted quiet dataOnly received done =>
      have data : message = .data := by
        apply dataOnly
        rw [head]
        exact List.mem_cons_self
      exact ordered.push (fun _ => received) (fun _ => done)

/-- While a message is to be handled, the sender has nothing to hear. -/
theorem Phase.quiet {message : Forward τ} {inbox : List (Forward τ)}
    (phase : Phase items sender receiver outbox history)
    (head : receiver.inbox = message :: inbox) : control outbox = [] := by
  cases phase with
  | waiting _ quiet _ _ _ => exact quiet
  | discovering _ _ empty _ _ => rw [head] at empty; cases empty
  | registering _ _ _ quiet _ _ _ => exact quiet
  | acknowledging _ _ _ _ empty _ _ => rw [head] at empty; cases empty
  | finishing _ _ quiet _ _ _ => exact quiet
  | opened _ quiet _ _ _ => exact quiet

theorem Phase.handle {message : Forward τ} {inbox : List (Forward τ)}
    (phase : Phase items sender receiver outbox history)
    (head : receiver.inbox = message :: inbox) (others : Nat) :
    Phase items sender (receiver.handled message inbox)
      (outbox ++ (receiver.greeting ++ List.replicate others .other ++
        message.reply))
      (history ++ [(message, receiver.received)]) := by
  have answers (greeted : receiver.fresh = false) :
      control (outbox ++ (receiver.greeting ++
        List.replicate others .other ++ message.reply)) =
          control outbox ++ control message.reply := by
    simp [Receiver.greeting, greeted, control]
  cases phase with
  | waiting _ _ empty _ _ => rw [head] at empty; cases empty
  | discovering _ _ empty _ _ => rw [head] at empty; cases empty
  | acknowledging _ _ _ _ empty _ _ => rw [head] at empty; cases empty
  | registering index inside greeted quiet sent enrolling received =>
      rw [sent] at head
      obtain ⟨rfl, rfl⟩ := List.cons.inj head
      apply Phase.acknowledging index inside rfl _ rfl enrolling
      · simp [Receiver.handled, Forward.items, received]
      · rw [answers greeted, quiet]
        rfl
  | finishing later greeted quiet sent dataOnly received =>
      rw [sent] at head
      obtain ⟨rfl, rfl⟩ := List.cons.inj head
      apply Phase.opened rfl
      · rw [answers greeted, quiet]
        rfl
      · exact dataOnly
      · simp [Receiver.handled, Forward.items, received]
      · exact ⟨_, List.mem_append_right _ List.mem_cons_self, rfl⟩
  | opened greeted quiet dataOnly received done =>
      rw [head] at dataOnly
      obtain rfl : message = .data := dataOnly message List.mem_cons_self
      obtain ⟨entry, member, isDone⟩ := done
      apply Phase.opened rfl
      · rw [answers greeted, quiet]
        rfl
      · intro later inside
        exact dataOnly later (List.mem_cons_of_mem _ inside)
      · simp [Receiver.handled, Forward.items, received]
      · exact ⟨entry, List.mem_append_left _ member, isDone⟩

end Step

/-- Every step of the parties keeps the agreement. -/
theorem Agreed.step {items : List τ}
    {guard : State τ → Backward → List Backward → Prop}
    {before after : State τ} (nonempty : items ≠ [])
    (agreed : Agreed items before) (step : Step items guard before after) : Agreed items after := by
  cases step with
  | quiet => exact agreed
  | hear message rest head guarded =>
      refine ⟨agreed.ordered, ?_, ?_⟩
      · intro gone
        have nothing := agreed.gone (Option.map_eq_none_iff.mp gone)
        rw [head] at nothing
        exact (List.append_eq_nil_iff.mp
          ((control_append [message] rest).symm.trans nothing)).2
      · intro receiver running
        obtain ⟨old, wasRunning, rfl⟩ := Option.map_eq_some_iff.mp running
        have phase := agreed.phase old wasRunning
        rw [head] at phase
        exact phase.hear nonempty
  | finish busy =>
      refine ⟨agreed.ordered, agreed.gone, ?_⟩
      intro receiver running
      exact (agreed.phase receiver running).finish busy
  | publish idle complete =>
      refine ⟨agreed.ordered, ?_, ?_⟩
      · intro gone
        exact agreed.gone (Option.map_eq_none_iff.mp gone)
      · intro receiver running
        obtain ⟨old, wasRunning, rfl⟩ := Option.map_eq_some_iff.mp running
        exact (agreed.phase old wasRunning).publish complete
  | round receiver wasRunning others =>
      refine ⟨agreed.ordered, ?_, ?_⟩
      · intro gone
        cases gone
      · intro after running
        cases running
        exact (agreed.phase receiver wasRunning).round others
  | handle receiver wasRunning message inbox head others =>
      have phase := agreed.phase receiver wasRunning
      refine ⟨phase.ordered head agreed.ordered, ?_, ?_⟩
      · intro gone
        cases gone
      · intro after running
        cases running
        exact phase.handle head others
  | crash receiver wasRunning message inbox head =>
      have phase := agreed.phase receiver wasRunning
      refine ⟨phase.ordered head agreed.ordered, ?_, ?_⟩
      · intro _
        exact phase.quiet head
      · intro after running
        cases running

/-- In the first enrolment no acknowledgement is heard while the sender is
busy. -/
theorem Agreed.not_busy_of_ack {items : List τ} {state : State τ}
    (agreed : Agreed items state) (flushed : Flushed state)
    {rest : List Backward} (head : state.outbox = .ack :: rest) :
    state.sender.busy = false := by
  have asked : control state.outbox = .ack :: control rest := by
    rw [head]
    exact control_cons (by decide) rest
  cases running : state.receiver with
  | none =>
      rw [agreed.gone running] at asked
      cases asked
  | some receiver =>
      cases agreed.phase receiver running with
      | acknowledging _ _ _ _ empty _ _ =>
          by_contra busy
          exact flushed receiver running (by simpa using busy) empty
      | waiting _ quiet _ _ _ => rw [quiet] at asked; cases asked
      | discovering _ wanted _ _ _ => rw [wanted] at asked; cases asked
      | registering _ _ _ quiet _ _ _ => rw [quiet] at asked; cases asked
      | finishing _ _ quiet _ _ _ => rw [quiet] at asked; cases asked
      | opened _ quiet _ _ _ => rw [quiet] at asked; cases asked

/-! ## After the closing message -/

/-- Once the receiver has handled the closing message it has every item, only
data is under way to it, and the sender has nothing more to hear. -/
def Opened (items : List τ) (state : State τ) : Prop :=
  (∃ entry ∈ state.history, entry.1 = .done) →
    ∀ receiver, state.receiver = some receiver →
      receiver.fresh = false ∧ control state.outbox = [] ∧
        (∀ message ∈ receiver.inbox, message = .data) ∧
          receiver.received = items

/-- The first message heard is not of the enrolment, nor are those behind. -/
theorem other_of_quiet {message : Backward} {rest : List Backward}
    (quiet : control (message :: rest) = []) :
    message = .other ∧ control rest = [] := by
  cases message with
  | other => exact ⟨rfl, quiet⟩
  | start => cases quiet
  | ack => cases quiet

/-- The closing message is handled when everything is received. -/
theorem Phase.opens {items : List τ} {sender : Sender}
    {receiver : Receiver τ} {outbox : List Backward}
    {history : List (Forward τ × List τ)} {inbox : List (Forward τ)}
    (phase : Phase items sender receiver outbox history)
    (head : receiver.inbox = .done :: inbox) :
    receiver.fresh = false ∧ control outbox = [] ∧
      (∀ message ∈ inbox, message = .data) ∧ receiver.received = items := by
  cases phase with
  | waiting _ _ empty _ _ => rw [head] at empty; cases empty
  | discovering _ _ empty _ _ => rw [head] at empty; cases empty
  | acknowledging _ _ _ _ empty _ _ => rw [head] at empty; cases empty
  | registering _ _ _ _ sent _ _ => rw [head] at sent; cases sent
  | opened _ _ dataOnly _ _ =>
      have data := dataOnly .done (head ▸ List.mem_cons_self)
      cases data
  | finishing later greeted quiet sent dataOnly received =>
      rw [head] at sent
      obtain ⟨_, rfl⟩ := List.cons.inj sent
      exact ⟨greeted, quiet, dataOnly, received⟩

theorem Opened.step {items : List τ}
    {guard : State τ → Backward → List Backward → Prop}
    {before after : State τ} (agreed : Agreed items before)
    (opened : Opened items before) (step : Step items guard before after) :
    Opened items after := by
  intro done final running
  cases step with
  | quiet => exact opened done final running
  | finish busy => exact opened done final running
  | hear message rest head guarded =>
      obtain ⟨receiver, wasRunning, rfl⟩ := Option.map_eq_some_iff.mp running
      obtain ⟨greeted, quiet, dataOnly, received⟩ :=
        opened done receiver wasRunning
      rw [head] at quiet
      obtain ⟨rfl, stillQuiet⟩ := other_of_quiet quiet
      refine ⟨greeted, stillQuiet, ?_, received⟩
      simpa [Sender.hear, Receiver.post] using dataOnly
  | publish idle complete =>
      obtain ⟨receiver, wasRunning, rfl⟩ := Option.map_eq_some_iff.mp running
      obtain ⟨greeted, quiet, dataOnly, received⟩ :=
        opened done receiver wasRunning
      refine ⟨greeted, quiet, ?_, received⟩
      intro message member
      rcases List.mem_append.mp member with old | new
      · exact dataOnly message old
      · exact List.mem_singleton.mp new
  | round receiver wasRunning others =>
      cases running
      obtain ⟨greeted, quiet, dataOnly, received⟩ :=
        opened done receiver wasRunning
      refine ⟨rfl, ?_, dataOnly, received⟩
      simp [Receiver.greeting, greeted, quiet]
  | handle receiver wasRunning message inbox head others =>
      cases running
      have past : (∃ entry ∈ before.history, entry.1 = .done) ∨
          message = .done := by
        obtain ⟨entry, member, isDone⟩ := done
        rcases List.mem_append.mp member with old | new
        · exact .inl ⟨entry, old, isDone⟩
        · rw [List.mem_singleton.mp new] at isDone
          exact .inr isDone
      rcases past with earlier | rfl
      · obtain ⟨greeted, quiet, dataOnly, received⟩ :=
          opened earlier receiver wasRunning
        rw [head] at dataOnly
        obtain rfl : message = .data := dataOnly message List.mem_cons_self
        refine ⟨rfl, ?_, ?_, ?_⟩
        · simp [Receiver.greeting, greeted, quiet, Forward.reply]
        · intro later inside
          exact dataOnly later (List.mem_cons_of_mem _ inside)
        · simp [Receiver.handled, Forward.items, received]
      · obtain ⟨greeted, quiet, dataOnly, received⟩ :=
          (agreed.phase receiver wasRunning).opens head
        refine ⟨rfl, ?_, dataOnly, ?_⟩
        · simp [Receiver.greeting, greeted, quiet, Forward.reply]
        · simp [Receiver.handled, Forward.items, received]
  | crash receiver wasRunning message inbox head => cases running

end StopAndWait
