import Mathlib.Tactic.Common
import Mathlib.Data.List.Basic

/-!
# Stop-and-wait enrolment

A sender enrols a list of items with a receiver over two FIFO channels, one
item at a time: the next item goes out when the last one is acknowledged, and
a closing message follows the last item.  The receiver asks for the enrolment
once, when it starts.
-/

namespace StopAndWait

universe u

variable {τ : Type u}

/-- Messages to the receiver.  A `register` it does not accept has no item. -/
inductive Forward (τ : Type u) where
  | register (item : Option τ)
  | done
  | data
  | other
  deriving DecidableEq

/-- Messages to the sender. -/
inductive Backward where
  | start
  | ack
  | other
  deriving DecidableEq

/-- What the sender remembers.  It is `busy` while its last message is not
completely sent. -/
structure Sender where
  next : Nat
  active : Bool
  closing : Bool
  awaiting : Bool
  complete : Bool
  busy : Bool

structure Receiver (τ : Type u) where
  fresh : Bool
  received : List τ
  inbox : List (Forward τ)

/-- Both parties and the channels, and each message the receiver has handled,
with what it had received by then. -/
@[ext]
structure State (τ : Type u) where
  sender : Sender
  receiver : Option (Receiver τ)
  outbox : List Backward
  history : List (Forward τ × List τ)

/-! ## The sender -/

namespace Sender

/-- Send the next item, or the closing message. -/
def load (items : List τ) (sender : Sender) : Sender × List (Forward τ) :=
  if sender.closing then
    ({ sender with busy := true }, [.done])
  else
    match items[sender.next]? with
    | none => (sender, [])
    | some item =>
        ({ sender with busy := true, awaiting := true },
          [.register (some item)])

def begin (sender : Sender) : Sender :=
  { sender with active := true, next := 0, closing := false }

def advance (items : List τ) (sender : Sender) : Sender :=
  { sender with
    next := sender.next + 1
    closing := decide (items.length ≤ sender.next + 1) || sender.closing
    awaiting := false }

/-- The answer to one message. -/
def hear (items : List τ) (sender : Sender) :
    Backward → Sender × List (Forward τ)
  | .start => if sender.busy then (sender, []) else sender.begin.load items
  | .ack =>
      if !sender.awaiting then (sender, [])
      else if !sender.active then ({ sender with awaiting := false }, [])
      else (sender.advance items).load items
  | .other => (sender, [])

section Hear

variable {items : List τ} {sender : Sender}

theorem load_item {item : τ} (notClosing : sender.closing = false)
    (found : items[sender.next]? = some item) :
    sender.load items =
      ({ sender with busy := true, awaiting := true },
        [.register (some item)]) := by
  simp [load, notClosing, found]

theorem load_done (closing : sender.closing = true) :
    sender.load items = ({ sender with busy := true }, [.done]) := by
  simp [load, closing]

theorem hear_start_busy (busy : sender.busy = true) :
    sender.hear items .start = (sender, []) := by
  simp [hear, busy]

theorem hear_start_idle (idle : sender.busy = false) :
    sender.hear items .start = sender.begin.load items := by
  simp [hear, idle]

theorem hear_ack_ignored (unexpected : sender.awaiting = false) :
    sender.hear items .ack = (sender, []) := by
  simp [hear, unexpected]

theorem hear_ack_outside (awaiting : sender.awaiting = true)
    (outside : sender.active = false) :
    sender.hear items .ack = ({ sender with awaiting := false }, []) := by
  simp [hear, awaiting, outside]

theorem hear_ack_taken (awaiting : sender.awaiting = true)
    (active : sender.active = true) :
    sender.hear items .ack = (sender.advance items).load items := by
  simp [hear, awaiting, active]

/-- What the sender answers belongs to the enrolment. -/
theorem load_ne_data (sender : Sender) (items : List τ) :
    ∀ answer ∈ (sender.load items).2, answer ≠ .data := by
  intro answer member
  unfold load at member
  split at member
  · rw [List.mem_singleton.mp member]
    nofun
  · split at member
    · cases member
    · rw [List.mem_singleton.mp member]
      nofun

theorem hear_ne_data (sender : Sender) (items : List τ) (message : Backward) :
    ∀ answer ∈ (sender.hear items message).2, answer ≠ .data := by
  cases message with
  | start =>
      cases busy : sender.busy with
      | true =>
          rw [hear_start_busy busy]
          nofun
      | false =>
          rw [hear_start_idle busy]
          exact load_ne_data _ items
  | ack =>
      cases awaiting : sender.awaiting with
      | false =>
          rw [hear_ack_ignored awaiting]
          nofun
      | true =>
          cases active : sender.active with
          | false =>
              rw [hear_ack_outside awaiting active]
              nofun
          | true =>
              rw [hear_ack_taken awaiting active]
              exact load_ne_data _ items
  | other => nofun

end Hear

/-- The last message is completely sent. -/
def finish (sender : Sender) : Sender :=
  { sender with
    busy := false
    complete := sender.complete || (sender.active && sender.closing) }

/-- A message outside the enrolment. -/
def publish (sender : Sender) : Sender :=
  { sender with busy := true, active := false }

end Sender

/-! ## The receiver -/

namespace Forward

/-- What the receiver accepts with a message. -/
def items : Forward τ → List τ
  | .register item => item.toList
  | .done | .data | .other => []

/-- The answer that is due after a message. -/
def reply : Forward τ → List Backward
  | .register _ => [.ack]
  | .done | .data | .other => []

end Forward

namespace Receiver

def post (messages : List (Forward τ)) (receiver : Receiver τ) : Receiver τ :=
  { receiver with inbox := receiver.inbox ++ messages }

/-- A receiver that has just started asks for the enrolment. -/
def greeting (receiver : Receiver τ) : List Backward :=
  if receiver.fresh then [.start] else []

/-- After a round in which it handled a message and was left with `inbox`. -/
def handled (receiver : Receiver τ) (message : Forward τ)
    (inbox : List (Forward τ)) : Receiver τ :=
  { fresh := false, received := receiver.received ++ message.items, inbox }

/-- The item is received, or on its way. -/
def Reaches (receiver : Receiver τ) (item : τ) : Prop :=
  item ∈ receiver.received ∨ .register (some item) ∈ receiver.inbox

end Receiver

/-! ## Steps -/

/-- One step of a party.  What the sender hears meets `guard`, which is given
the state before, the message and those behind it. -/
inductive Step (items : List τ)
    (guard : State τ → Backward → List Backward → Prop) (before : State τ) :
    State τ → Prop
  | quiet : Step items guard before before
  | hear (message : Backward) (rest : List Backward)
      (head : before.outbox = message :: rest)
      (guarded : guard before message rest) :
      Step items guard before
        { before with
          sender := (before.sender.hear items message).1
          receiver := before.receiver.map
            (·.post (before.sender.hear items message).2)
          outbox := rest }
  | finish (busy : before.sender.busy = true) :
      Step items guard before { before with sender := before.sender.finish }
  | publish (idle : before.sender.busy = false)
      (complete : before.sender.complete = true) :
      Step items guard before
        { before with
          sender := before.sender.publish
          receiver := before.receiver.map (·.post [.data]) }
  | round (receiver : Receiver τ) (running : before.receiver = some receiver)
      (others : Nat) :
      Step items guard before
        { before with
          receiver := some { receiver with fresh := false }
          outbox := before.outbox ++
            (receiver.greeting ++ List.replicate others .other) }
  | handle (receiver : Receiver τ) (running : before.receiver = some receiver)
      (message : Forward τ) (inbox : List (Forward τ))
      (head : receiver.inbox = message :: inbox) (others : Nat) :
      Step items guard before
        { before with
          receiver := some (receiver.handled message inbox)
          outbox := before.outbox ++ (receiver.greeting ++
            List.replicate others .other ++ message.reply)
          history := before.history ++ [(message, receiver.received)] }
  | crash (receiver : Receiver τ) (running : before.receiver = some receiver)
      (message : Forward τ) (inbox : List (Forward τ))
      (head : receiver.inbox = message :: inbox) :
      Step items guard before
        { before with
          receiver := none
          history := before.history ++ [(message, receiver.received)] }

end StopAndWait
