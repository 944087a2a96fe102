import NanoRos.DataDelivery

/-!
# Traffic on the links

However far the registration is, and even if it has come to a halt, each step
leaves the links readable, and the messages to the board are neither lost on
the way nor sent to a topic without a handler.
-/

namespace NanoRos

open Board PartialRun StopAndWait
open ClientHandlerNode
open NrosStreamParser (Clears framesOf framesOf_append feedByte)
open Transducer (after emitted)

namespace TwoParty

/-- The links can be read, and what is under way to the board has a
handler. -/
structure Carrying (table : TopicTable) (system : TwoParty) : Prop where
  linked : system.Linked table
  installed : system.board.Installed table
  subscribers : ∀ frame ∈ system.downlink ++ system.queued,
    (table.subscriber? frame.header.topicId).isSome

/-- The handler calls after a step are among those that were due, in order. -/
def KeepsCalls (table : TopicTable) (system : TwoParty) (event : PartyEvent)
    (next : TwoParty) : Prop :=
  (system.handled table event ++ next.inbound table).Sublist
    (system.inbound table ++ system.requested table event)

/-- The board does not hear an ACK while it is sending. -/
def Unhurried (system : TwoParty) : Prop :=
  ∀ message ∈ system.view.outbox.head?, message = .ack →
    system.view.sender.awaiting = true →
      system.view.sender.active = true → system.view.sender.busy = false

theorem Serving.carrying {table : TopicTable} {system : TwoParty}
    (serving : system.Serving table) : system.Carrying table :=
  ⟨serving.together.linked, serving.installed, serving.subscribers⟩

section Steps

variable {table : TopicTable} {rcl : Rclcpp} {system next : TwoParty}
  {process : AgentProcess}

/-- A step of the board. -/
theorem Carrying.boardStep (carrying : system.Carrying table)
    (linked : next.Linked table) (installed : next.board.Installed table)
    (agent : next.agent = system.agent)
    (subscribers : ∀ frame ∈ next.downlink, frame ∈ system.downlink) :
    next.Carrying table := by
  refine ⟨linked, installed, ?_⟩
  have queued : next.queued = system.queued := by
    rw [TwoParty.queued, TwoParty.queued, agent]
  intro frame member
  apply carrying.subscribers frame
  rw [queued] at member
  rcases List.mem_append.mp member with onLink | waiting
  · exact List.mem_append_left _ (subscribers frame onLink)
  · exact List.mem_append_right _ waiting

theorem Carrying.txPoll (carrying : system.Carrying table) (accepted : Nat) :
    (system.txPoll accepted).Carrying table ∧
      system.Advances table anyOrder (system.txPoll accepted) ∧
        system.KeepsCalls table (.txPoll accepted)
          (system.txPoll accepted) := by
  have advances : system.Advances table anyOrder (system.txPoll accepted) :=
    carrying.linked.txPoll accepted
  have downlink : (system.txPoll accepted).downlink = system.downlink := by
    simp only [TwoParty.downlink, TwoParty.txPoll,
      parser_txPoll carrying.linked.settled]
  have queued : (system.txPoll accepted).queued = system.queued := rfl
  refine ⟨?_, advances, ?_⟩
  · apply carrying.boardStep advances.linked _ rfl
    · rw [downlink]
      exact fun _ member => member
    · rw [Board.Installed, TwoParty.txPoll, Codegen.txPoll_topicMap]
      exact carrying.installed
  · simp [KeepsCalls, handled, requested, arrived, inbound, downlink, queued]

theorem Carrying.publish (carrying : system.Carrying table) (topicId : UInt8)
    (serialized : SerializeResult) :
    (system.publish topicId serialized).Carrying table ∧
      system.Advances table anyOrder (system.publish topicId serialized) ∧
        system.KeepsCalls table (.publish topicId serialized)
          (system.publish topicId serialized) := by
  have advances : system.Advances table anyOrder
      (system.publish topicId serialized) :=
    carrying.linked.publish topicId serialized
  have downlink : (system.publish topicId serialized).downlink =
      system.downlink := by
    simp only [TwoParty.downlink, TwoParty.publish, parser_publish]
  have queued : (system.publish topicId serialized).queued =
      system.queued := rfl
  refine ⟨?_, advances, ?_⟩
  · apply carrying.boardStep advances.linked _ rfl
    · rw [downlink]
      exact fun _ member => member
    · rw [Board.Installed, TwoParty.publish, Codegen.publish_topicMap]
      exact carrying.installed
  · simp [KeepsCalls, handled, requested, arrived, inbound, downlink, queued]

theorem Carrying.rxByte_returns (carrying : system.Carrying table)
    (wellFormed : table.WellFormed) :
    ∃ next, system.rxPoll table 1 = some next :=
  TwoParty.rxByte_returns carrying.installed wellFormed fun frame member =>
    carrying.subscribers frame (List.mem_append_left _ member)

theorem Carrying.rxByte (carrying : system.Carrying table)
    (wellFormed : table.WellFormed) (unhurried : system.Unhurried)
    (stepped : system.rxPoll table 1 = some next) :
    next.Carrying table ∧ system.Advances table anyOrder next := by
  obtain ⟨agent, _, _⟩ := rxPoll_agent stepped
  have advances : system.Advances table anyOrder next :=
    carrying.linked.rxByte wellFormed.registrable
      (fun _ _ _ => trivial) (fun _ => unhurried) stepped
  obtain ⟨_, suffix, installed⟩ := downlink_rxPoll carrying.installed
    wellFormed.distinct stepped
  refine ⟨?_, advances⟩
  exact carrying.boardStep advances.linked installed agent
    fun frame member => suffix.subset member

theorem Carrying.rxPoll_keepsCalls (carrying : system.Carrying table)
    (wellFormed : table.WellFormed) {count : Nat}
    (stepped : system.rxPoll table (min count rxChunkSize) = some next) :
    system.KeepsCalls table (.rxPoll count) next := by
  obtain ⟨agent, _, _⟩ := rxPoll_agent stepped
  have queued : next.queued = system.queued := by
    rw [TwoParty.queued, TwoParty.queued, agent]
  obtain ⟨calls, _, _⟩ := downlink_rxPoll carrying.installed
    wellFormed.distinct stepped
  simp only [KeepsCalls, handled, requested, arrived, inbound, queued,
    List.filterMap_append, List.filterMap_nil, List.append_nil]
  rw [← List.append_assoc, calls]

/-! ## A round of the agent -/

section Round

variable {reads : List Nat} {beforeSize beforePop : List Incoming}
  {round : AgentProcess.Round}

/-- A round that ends the process. -/
theorem Carrying.crash (carrying : system.Carrying table)
    (running : system.agent = some process)
    (read : process.Reads rcl system.toAgent reads round)
    {fault : AgentFault} (failed : round.outcome = .error fault) :
    let after := { system.reading process round with agent := none }
    after.Carrying table ∧ system.Advances table anyOrder after ∧
      (after.inbound table).Sublist (system.inbound table) := by
  intro after
  have advances : system.Advances table anyOrder after :=
    carrying.linked.crash running read failed
  have queued : after.queued = [] := rfl
  have downlink : after.downlink = system.downlink := rfl
  refine ⟨⟨advances.linked, carrying.installed, ?_⟩, advances, ?_⟩
  · intro frame member
    rw [queued, downlink, List.append_nil] at member
    exact carrying.subscribers frame (List.mem_append_left _ member)
  · rw [inbound, queued, downlink, inbound]
    exact (List.Sublist.append_left (List.nil_sublist _) _).filterMap _

/-- A round that does not fail. -/
theorem Carrying.finishRound (carrying : system.Carrying table)
    (running : system.agent = some process) (clean : system.CleanStart reads)
    (read : process.Reads rcl system.toAgent reads round)
    {output : IterationOutput} {loop : AgentLoop}
    (known : ∀ arrival ∈ beforeSize ++ beforePop,
      (table.subscriber? arrival.topicId).isSome)
    (finished : round.outcome = .ok output)
    (received : AgentLoop.Receives rcl process.loop round.received.frame loop
      output.published)
    (iterated : loop.Iterated
      { received := round.received.frame, beforeSize, beforePop } output) :
    (system.afterRound process round output).Carrying table ∧
      system.Advances table anyOrder (system.afterRound process round output) ∧
        system.KeepsCalls table (.agentRound reads beforeSize beforePop)
          (system.afterRound process round output) := by
  have linked := carrying.linked
  have advances : system.Advances table anyOrder
      (system.afterRound process round output) :=
    linked.finishRound running clean read finished
  have answers := linked.answers running clean read finished
  refine ⟨⟨advances.linked, carrying.installed, ?_⟩, advances, ?_⟩
  · exact linked.afterRound_subscribers carrying.subscribers running known
      received iterated answers
  · have after : (system.afterRound process round output).inbound table = _ :=
      linked.afterRound_inbound running received iterated answers
    have before : system.inbound table ++ system.requested table
        (.agentRound reads beforeSize beforePop) = _ :=
      inbound_requested running reads beforeSize beforePop
    have kept := (pushIncoming_suffix process.loop.agent.toClientMsgQueue
      (beforeSize ++ beforePop)).sublist.map OutboundMsg.frame
    rw [KeepsCalls, after, before]
    exact ((kept.filter fitsFrame).filterMap table.callOf).append_left _

end Round

end Steps

end TwoParty

end NanoRos
