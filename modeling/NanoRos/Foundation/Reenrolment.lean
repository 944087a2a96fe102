import NanoRos.Foundation.StopAndWait

/-!
# Enrolment after a restart

A receiver that starts anew finds a sender in the middle of anything, and
messages meant for the receiver before it.  Its request begins the enrolment
again only if the sender is not busy when it hears it.
-/

namespace StopAndWait

universe u

variable {τ : Type u}

/-- When a closing message comes, every item has been received. -/
def DonesCovered (items : List τ) : List τ → List (Forward τ) → Prop
  | _, [] => True
  | received, message :: rest =>
      (message = .done → ∀ item ∈ items, item ∈ received) ∧
        DonesCovered items (received ++ message.items) rest

instance decidableDonesCovered [DecidableEq τ] (items : List τ) :
    ∀ (received : List τ) (inbox : List (Forward τ)),
      Decidable (DonesCovered items received inbox)
  | _, [] => isTrue trivial
  | received, message :: rest =>
      have := decidableDonesCovered items (received ++ message.items) rest
      inferInstanceAs (Decidable
        ((message = .done → ∀ item ∈ items, item ∈ received) ∧
          DonesCovered items (received ++ message.items) rest))

namespace Receiver

instance [DecidableEq τ] (receiver : Receiver τ) (item : τ) :
    Decidable (receiver.Reaches item) :=
  inferInstanceAs (Decidable (_ ∨ _))

/-- The sender has not heard the receiver's request yet. -/
def Unheard (receiver : Receiver τ) (outbox : List Backward) : Prop :=
  receiver.fresh = true ∨ .start ∈ outbox

instance (receiver : Receiver τ) (outbox : List Backward) :
    Decidable (receiver.Unheard outbox) :=
  inferInstanceAs (Decidable (_ ∨ _))

theorem Reaches.post {receiver : Receiver τ} {item : τ}
    (reaches : receiver.Reaches item) (messages : List (Forward τ)) :
    (receiver.post messages).Reaches item := by
  rcases reaches with received | coming
  · exact .inl received
  · exact .inr (List.mem_append_left messages coming)

theorem Reaches.handled {receiver : Receiver τ} {item : τ}
    {message : Forward τ} {inbox : List (Forward τ)}
    (reaches : receiver.Reaches item)
    (head : receiver.inbox = message :: inbox) :
    (receiver.handled message inbox).Reaches item := by
  rcases reaches with received | coming
  · exact .inl (List.mem_append_left _ received)
  · rw [head] at coming
    rcases List.mem_cons.mp coming with here | later
    · left
      apply List.mem_append_right
      rw [← here]
      exact List.mem_singleton.mpr rfl
    · exact .inr later

end Receiver

/-- A request that was not heard is not heard after a round either. -/
theorem unheard_round {receiver : Receiver τ} {outbox : List Backward}
    (answers : List Backward) (unheard : receiver.Unheard outbox) :
    .start ∈ outbox ++ (receiver.greeting ++ answers) := by
  rcases unheard with fresh | asked
  · apply List.mem_append_right
    apply List.mem_append_left
    simp [Receiver.greeting, fresh]
  · exact List.mem_append_left _ asked

/-- What is received at a closing message put behind the channel. -/
theorem donesCovered_append {items received : List τ}
    {inbox : List (Forward τ)} {message : Forward τ} :
    DonesCovered items received (inbox ++ [message]) ↔
      DonesCovered items received inbox ∧
        (message = .done → ∀ item ∈ items,
          item ∈ received ∨ .register (some item) ∈ inbox) := by
  induction inbox generalizing received with
  | nil => simp [DonesCovered]
  | cons first inbox induction =>
      have accepted (item : τ) : item ∈ received ++ first.items ∨
          .register (some item) ∈ inbox ↔
            item ∈ received ∨ .register (some item) ∈ first :: inbox := by
        rw [List.mem_append, List.mem_cons, or_assoc]
        have here : item ∈ first.items ↔ .register (some item) = first := by
          cases first with
          | register other => simp [Forward.items, eq_comm]
          | done => simp [Forward.items]
          | data => simp [Forward.items]
          | other => simp [Forward.items]
        rw [here]
      rw [List.cons_append]
      simp only [DonesCovered, induction, accepted]
      rw [and_assoc]

/-! ## Timely messages -/

/-- An acknowledgement that makes the sender go on finds it idle; and if it
ends an enrolment which the receiver has not asked for, nothing is missing. -/
def AckTimely (items : List τ) (state : State τ) : Prop :=
  state.sender.awaiting = true → state.sender.active = true →
    state.sender.busy = false ∧
      (items.length ≤ state.sender.next + 1 →
        ∀ receiver ∈ state.receiver, receiver.Unheard state.outbox →
          ∀ item ∈ items, receiver.Reaches item)

/-- The receiver's request is not dropped by a busy sender that is in the
middle of an enrolment the receiver has missed a part of. -/
def StartTimely (items : List τ) (state : State τ)
    (rest : List Backward) : Prop :=
  state.sender.busy = true → .start ∉ rest → state.sender.active = true →
    state.sender.awaiting = true →
      ∀ receiver ∈ state.receiver, receiver.fresh = false →
        ∀ item ∈ items.take (state.sender.next + 1), receiver.Reaches item

def Timely (items : List τ) (state : State τ) (message : Backward)
    (rest : List Backward) : Prop :=
  match message with
  | .ack => AckTimely items state
  | .start => StartTimely items state rest
  | .other => True

instance [DecidableEq τ] (items : List τ) (state : State τ)
    (message : Backward) (rest : List Backward) :
    Decidable (Timely items state message rest) :=
  match message with
  | .ack => inferInstanceAs (Decidable (_ → _ → _ ∧ (_ → ∀ _ ∈ _, _)))
  | .start => inferInstanceAs (Decidable (_ → _ → _ → _ → ∀ _ ∈ _, _))
  | .other => isTrue trivial

/-! ## The invariant -/

/-- What one running receiver has or will have. -/
structure Provided (items : List τ) (sender : Sender) (receiver : Receiver τ)
    (outbox : List Backward) : Prop where
  dones : DonesCovered items receiver.received receiver.inbox
  session : ¬receiver.Unheard outbox → sender.active = true →
    sender.awaiting = true →
      ∀ item ∈ items.take (sender.next + 1), receiver.Reaches item

structure Covered (items : List τ) (state : State τ) : Prop where
  handled : ∀ entry ∈ state.history, entry.1 = .done →
    ∀ item ∈ items, item ∈ entry.2
  answered : state.sender.awaiting = true → state.sender.closing = false
  provided : ∀ receiver, state.receiver = some receiver →
    Provided items state.sender receiver state.outbox

/-- A receiver that stops, whatever it leaves on the channel. -/
theorem Covered.leave {items : List τ} {state : State τ}
    (covered : Covered items state) (outbox : List Backward) :
    Covered items { state with receiver := none, outbox } := by
  refine ⟨covered.handled, covered.answered, ?_⟩
  intro receiver running
  cases running

section Step

variable {items : List τ} {sender : Sender} {receiver : Receiver τ}
  {outbox : List Backward}

/-- Sending the next item, all items before it being provided. -/
theorem provided_load (answered : sender.closing = true →
      sender.awaiting = false)
    (dones : DonesCovered items receiver.received receiver.inbox)
    (closed : sender.closing = true →
      ∀ item ∈ items, receiver.Reaches item)
    (before : ¬receiver.Unheard outbox →
      ∀ item ∈ items.take sender.next, receiver.Reaches item) :
    Provided items (sender.load items).1
      (receiver.post (sender.load items).2) outbox := by
  unfold Sender.load
  by_cases closing : sender.closing = true
  · rw [if_pos closing]
    constructor
    · exact donesCovered_append.mpr ⟨dones, fun _ => closed closing⟩
    · intro _ _ awaiting
      rw [answered closing] at awaiting
      cases awaiting
  · rw [if_neg closing]
    cases found : items[sender.next]? with
    | none =>
        constructor
        · simpa [Receiver.post] using dones
        · intro heard _ _ item member
          rw [List.take_add_one, found] at member
          apply (before heard item _).post
          simpa using member
    | some item =>
        constructor
        · apply donesCovered_append.mpr
          refine ⟨dones, ?_⟩
          intro impossible
          cases impossible
        · intro heard _ _ other member
          rw [List.take_add_one, found] at member
          rcases List.mem_append.mp member with earlier | last
          · exact (before heard other earlier).post _
          · right
            apply List.mem_append_right
            rw [List.mem_singleton.mp last]
            exact List.mem_singleton.mpr rfl

variable {state : State τ} {rest : List Backward}

/-- Hearing a message and doing nothing about it. -/
theorem Provided.ignore {message : Backward}
    (provided : Provided items sender receiver (message :: rest))
    (missed : receiver.Unheard (message :: rest) →
      ¬receiver.Unheard rest → sender.active = true →
        sender.awaiting = true →
          ∀ item ∈ items.take (sender.next + 1), receiver.Reaches item) :
    Provided items sender (receiver.post []) rest := by
  have same : receiver.post [] = receiver := by simp [Receiver.post]
  rw [same]
  refine ⟨provided.dones, ?_⟩
  intro heard
  by_cases unheard : receiver.Unheard (message :: rest)
  · exact missed unheard heard
  · exact provided.session unheard

theorem unheard_cons {message : Backward} (proper : message ≠ .start) :
    receiver.Unheard (message :: rest) ↔ receiver.Unheard rest := by
  unfold Receiver.Unheard
  rw [List.mem_cons]
  constructor
  · intro unheard
    rcases unheard with fresh | here | later
    · exact .inl fresh
    · exact absurd here.symm proper
    · exact .inr later
  · intro unheard
    rcases unheard with fresh | later
    · exact .inl fresh
    · exact .inr (.inr later)

theorem Provided.hear_start
    (provided : Provided items state.sender receiver (.start :: rest))
    (running : state.receiver = some receiver)
    (timely : StartTimely items state rest) :
    Provided items (state.sender.hear items .start).1
      (receiver.post (state.sender.hear items .start).2) rest := by
  cases busy : state.sender.busy with
  | true =>
      rw [Sender.hear_start_busy busy]
      apply provided.ignore
      intro _ heard active awaiting
      apply timely busy _ active awaiting receiver running
      · cases fresh : receiver.fresh with
        | false => rfl
        | true => exact absurd (.inl fresh) heard
      · intro again
        exact heard (.inr again)
  | false =>
      rw [Sender.hear_start_idle busy]
      apply provided_load
      · intro closing
        cases closing
      · exact provided.dones
      · intro closing
        cases closing
      · intro _ item member
        cases member

theorem Provided.hear_ack
    (head : state.outbox = .ack :: rest)
    (provided : Provided items state.sender receiver state.outbox)
    (running : state.receiver = some receiver)
    (timely : AckTimely items state)
    (answered : state.sender.awaiting = true →
      state.sender.closing = false) :
    Provided items (state.sender.hear items .ack).1
      (receiver.post (state.sender.hear items .ack).2) rest := by
  have same : receiver.Unheard state.outbox ↔ receiver.Unheard rest := by
    rw [head]
    exact unheard_cons (by decide)
  cases awaiting : state.sender.awaiting with
  | false =>
      rw [Sender.hear_ack_ignored awaiting]
      rw [head] at provided
      apply provided.ignore
      intro _ _ _ waits
      rw [awaiting] at waits
      cases waits
  | true =>
      cases active : state.sender.active with
      | false =>
          rw [Sender.hear_ack_outside awaiting active]
          refine ⟨?_, ?_⟩
          · simpa [Receiver.post] using provided.dones
          · intro _ registering
            rw [active] at registering
            cases registering
      | true =>
          rw [Sender.hear_ack_taken awaiting active]
          obtain ⟨_, complete⟩ := timely awaiting active
          apply provided_load
          · intro _
            rfl
          · exact provided.dones
          · intro closing
            have last : items.length ≤ state.sender.next + 1 := by
              simpa [Sender.advance, answered awaiting] using closing
            by_cases unheard : receiver.Unheard state.outbox
            · exact complete last receiver running unheard
            · have all := provided.session unheard active awaiting
              rwa [List.take_of_length_le last] at all
          · intro heard
            exact provided.session (mt same.mp heard) active awaiting

theorem Sender.load_answered
    (answered : sender.closing = true → sender.awaiting = false) :
    (sender.load items).1.awaiting = true →
      (sender.load items).1.closing = false := by
  unfold Sender.load
  by_cases closing : sender.closing = true
  · rw [if_pos closing]
    intro awaiting
    rw [answered closing] at awaiting
    cases awaiting
  · rw [if_neg closing]
    cases items[sender.next]? <;>
    · intro _
      simpa using closing

theorem Sender.hear_answered {message : Backward}
    (answered : sender.awaiting = true → sender.closing = false) :
    (sender.hear items message).1.awaiting = true →
      (sender.hear items message).1.closing = false := by
  cases message with
  | other => exact answered
  | start =>
      cases busy : sender.busy with
      | true =>
          rw [Sender.hear_start_busy busy]
          exact answered
      | false =>
          rw [Sender.hear_start_idle busy]
          apply Sender.load_answered
          intro closing
          cases closing
  | ack =>
      cases awaiting : sender.awaiting with
      | false =>
          rw [Sender.hear_ack_ignored awaiting]
          exact answered
      | true =>
          cases active : sender.active with
          | false =>
              rw [Sender.hear_ack_outside awaiting active]
              intro impossible
              cases impossible
          | true =>
              rw [Sender.hear_ack_taken awaiting active]
              apply Sender.load_answered
              intro _
              rfl

end Step

/-- The history stays as it should be when the first message is handled. -/
theorem Covered.pushed {items : List τ} {before : State τ}
    (covered : Covered items before) {message : Forward τ}
    {inbox : List (Forward τ)} {receiver : Receiver τ}
    (running : before.receiver = some receiver)
    (head : receiver.inbox = message :: inbox) :
    ∀ entry ∈ before.history ++ [(message, receiver.received)],
      entry.1 = .done → ∀ item ∈ items, item ∈ entry.2 := by
  obtain ⟨handled, _, provided⟩ := covered
  intro entry member done
  rcases List.mem_append.mp member with old | new
  · exact handled entry old done
  · have dones := (provided receiver running).dones
    rw [head] at dones
    rw [List.mem_singleton.mp new] at done ⊢
    exact dones.1 done

/-- Every step whose message, if one is heard, is timely. -/
theorem Covered.step {items : List τ} {before after : State τ}
    (covered : Covered items before)
    (step : Step items (Timely items) before after) : Covered items after := by
  have handled := covered.handled
  have answered := covered.answered
  have provided := covered.provided
  cases step with
  | quiet => exact covered
  | hear message rest head guarded =>
      refine ⟨handled, Sender.hear_answered answered, ?_⟩
      intro receiver running
      obtain ⟨old, wasRunning, rfl⟩ := Option.map_eq_some_iff.mp running
      have before := provided old wasRunning
      cases message with
      | start => exact (head ▸ before).hear_start wasRunning guarded
      | ack => exact before.hear_ack head wasRunning guarded answered
      | other =>
          rw [head] at before
          apply before.ignore
          intro unheard heard
          exact absurd ((unheard_cons (by decide)).mp unheard) heard
  | finish busy =>
      refine ⟨handled, answered, ?_⟩
      intro receiver running
      have before := provided receiver running
      exact ⟨before.dones, before.session⟩
  | publish idle complete =>
      refine ⟨handled, answered, ?_⟩
      intro receiver running
      obtain ⟨old, wasRunning, rfl⟩ := Option.map_eq_some_iff.mp running
      constructor
      · apply donesCovered_append.mpr
        refine ⟨(provided old wasRunning).dones, ?_⟩
        intro impossible
        cases impossible
      · intro _ active
        cases active
  | round receiver wasRunning others =>
      refine ⟨handled, answered, ?_⟩
      intro after running
      cases running
      have before := provided receiver wasRunning
      refine ⟨before.dones, ?_⟩
      intro heard
      apply before.session
      intro unheard
      exact heard (.inr (unheard_round _ unheard))
  | handle receiver wasRunning message inbox head others =>
      refine ⟨covered.pushed wasRunning head, answered, ?_⟩
      intro after running
      cases running
      have known := provided receiver wasRunning
      constructor
      · have dones := known.dones
        rw [head] at dones
        exact dones.2
      · intro heard active awaiting item member
        have earlier : ¬receiver.Unheard before.outbox := by
          intro unheard
          apply heard
          right
          rw [List.append_assoc]
          exact unheard_round _ unheard
        exact (known.session earlier active awaiting item member).handled head
  | crash receiver wasRunning message inbox head =>
      refine ⟨covered.pushed wasRunning head, answered, ?_⟩
      intro after running
      cases running

end StopAndWait
