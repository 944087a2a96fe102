import NanoRos.NoisyLinks

/-!
# A registration that has halted

When a frame of the registration is lost, nothing is sent again: the agent
waits for the board and the board for the agent.  All that still happens is
that messages for handlers reach the board, and that a DATA frame, if the board
believes to be registered and sends one, ends the process.
-/

namespace NanoRos

open Board PartialRun StopAndWait
open NrosStreamParser (framesOf)

namespace TwoParty

/-- Nothing of the registration is under way, and no REGISTER_DONE was
dispatched, nor any DATA unless the process has ended. -/
structure Halted (table : TopicTable) (system : TwoParty) : Prop where
  carrying : system.Carrying table
  stalled : Stalled table.keys system.view
  deaf : system.agent.isSome →
    (system.dispatched.map Dispatched.frame).filter isData = []

/-- What a step of a halted system does. -/
structure Idles (table : TopicTable) (rcl : Rclcpp) (system : TwoParty)
    (event : PartyEvent) (next : TwoParty) : Prop where
  halted : next.Halted table
  blocked : Blocked system.board.sender → Blocked next.board.sender
  silent : system.published rcl event = []
  calls : system.KeepsCalls table event next

section Halted

variable {table : TopicTable} {rcl : Rclcpp} {system next : TwoParty}
  {process : AgentProcess}

theorem Halted.undone (halted : system.Halted table) :
    ¬DoneDispatched system.dispatched := by
  intro done
  have closed := closed_iff.mpr ((doneDispatched_iff system).mp done)
  rw [halted.stalled.unclosed] at closed
  cases closed

/-- No ACK is under way to the board. -/
theorem Halted.unhurried (halted : system.Halted table) :
    system.Unhurried := by
  intro message member ack _ _
  obtain ⟨rest, head⟩ := List.head?_eq_some_iff.mp member
  have quiet := halted.stalled.quiet
  rw [head] at quiet
  rw [(other_of_quiet quiet).1] at ack
  cases ack

theorem Halted.cleanStart (halted : system.Halted table) (reads : List Nat) :
    system.CleanStart reads := by
  intro process running fresh
  have greeted := halted.stalled.greeted _ (view_receiver running)
  rw [show (process.receiver system.flight).fresh = true from fresh] at greeted
  cases greeted

theorem Halted.advance (halted : system.Halted table)
    (advances : system.Advances table anyOrder next) :
    Stalled table.keys next.view ∧
      (Blocked system.board.sender → Blocked next.board.sender) :=
  ⟨halted.stalled.step (.party advances.step),
    fun blocked => Blocked.step halted.stalled blocked
      (.party advances.step)⟩

theorem Halted.txPoll (halted : system.Halted table) (accepted : Nat) :
    system.Idles table rcl (.txPoll accepted) (system.txPoll accepted) := by
  obtain ⟨carrying, advances, calls⟩ := halted.carrying.txPoll accepted
  obtain ⟨stalled, blocked⟩ := halted.advance advances
  exact ⟨⟨carrying, stalled, halted.deaf⟩, blocked, rfl, calls⟩

theorem Halted.publish (halted : system.Halted table) (topicId : UInt8)
    (serialized : SerializeResult) :
    system.Idles table rcl (.publish topicId serialized)
      (system.publish topicId serialized) := by
  obtain ⟨carrying, advances, calls⟩ :=
    halted.carrying.publish topicId serialized
  obtain ⟨stalled, blocked⟩ := halted.advance advances
  exact ⟨⟨carrying, stalled, halted.deaf⟩, blocked, rfl, calls⟩

theorem Halted.rxByte (halted : system.Halted table)
    (wellFormed : table.WellFormed)
    (stepped : system.rxPoll table 1 = some next) :
    next.Halted table ∧
      (Blocked system.board.sender → Blocked next.board.sender) := by
  obtain ⟨agent, _, dispatched⟩ := rxPoll_agent stepped
  obtain ⟨carrying, advances⟩ :=
    halted.carrying.rxByte wellFormed halted.unhurried stepped
  obtain ⟨stalled, blocked⟩ := halted.advance advances
  refine ⟨⟨carrying, stalled, ?_⟩, blocked⟩
  rw [agent, dispatched]
  exact halted.deaf

theorem Halted.rxPoll (halted : system.Halted table)
    (wellFormed : table.WellFormed) (count : Nat) :
    ∃ next, system.step table rcl (.rxPoll count) = some next ∧
      system.Idles table rcl (.rxPoll count) next := by
  have byte (state : TwoParty) (event : Unit)
      (kept : state.Halted table ∧
        (Blocked system.board.sender → Blocked state.board.sender))
      (_ : True) :
      ∃ next, rxByteStep table state event = some next ∧
        next.Halted table ∧
          (Blocked system.board.sender → Blocked next.board.sender) := by
    obtain ⟨halted, blocked⟩ := kept
    obtain ⟨next, stepped⟩ := halted.carrying.rxByte_returns wellFormed
    obtain ⟨stillHalted, still⟩ := halted.rxByte wellFormed stepped
    exact ⟨next, stepped, stillHalted, still ∘ blocked⟩
  obtain ⟨next, stepped, stillHalted, blocked⟩ :=
    exec_total byte ⟨halted, id⟩ (along_of_forall
      (fun _ _ => trivial) system (List.replicate (min count rxChunkSize) ()))
  rw [← rxPoll_eq_exec] at stepped
  exact ⟨next, stepped, stillHalted, blocked, rfl,
    halted.carrying.rxPoll_keepsCalls wellFormed stepped⟩

/-- Nothing but DATA comes. -/
theorem Halted.received (halted : system.Halted table)
    (running : system.agent = some process) {frame : WireFrame}
    {rest : List WireFrame}
    (pending : process.transport.pending system.flight = frame :: rest) :
    frame.header.type = NrosPacketType.data.toByte := by
  have message := halted.stalled.dataOnly _ (view_receiver running)
    (forwardMessage frame) (by
      rw [view_inbox pending]
      exact List.mem_cons_self)
  exact isData_iff.mp (isData_of_forwardMessage.mpr message)

/-- A round receives nothing, or DATA that ends the process. -/
theorem Halted.agentRound (halted : system.Halted table)
    (traceable : system.Traceable) (running : system.agent = some process)
    (reads : List Nat) {beforeSize beforePop : List Incoming}
    (known : ∀ arrival ∈ beforeSize ++ beforePop,
      (table.subscriber? arrival.topicId).isSome) :
    ∃ next, system.agentRound rcl reads beforeSize beforePop = some next ∧
      system.Idles table rcl (.agentRound reads beforeSize beforePop)
        next := by
  have unconnected := traceable.unconnected halted.undone process running
  obtain ⟨round, result, outcome⟩ :=
    process.round_returns rcl system.toAgent reads beforeSize beforePop
  have read := AgentProcess.reads result
  have pending := (read.receives system.board.unsent).pending
  cases arrives : round.received.frame with
  | some frame =>
      rw [arrives] at pending
      have data := halted.received running pending
      have failed : round.outcome = .error .nullClient := by
        rw [outcome]
        exact AgentLoop.iterate_nullClient_iff.mpr
          ⟨unconnected, frame, arrives, data⟩
      obtain ⟨carrying, advances, fewer⟩ :=
        halted.carrying.crash running read failed
      obtain ⟨stalled, blocked⟩ := halted.advance advances
      refine ⟨_, ?_, ⟨carrying, stalled, ?_⟩, blocked, ?_,
        fewer.trans (List.sublist_append_left _ _)⟩
      · simp only [TwoParty.agentRound, running, result, failed]
      · rintro ⟨⟩
      · simp [published, roundOutput, running, result, failed,
          Except.toOption]
  | none =>
      obtain ⟨output, finished⟩ : ∃ output, round.outcome = .ok output := by
        rw [outcome, arrives]
        exact AgentLoop.iterate_ok rcl process.loop (by rintro _ ⟨⟩)
      obtain ⟨loop, received, iterated⟩ :=
        AgentLoop.iterated (outcome.symm.trans finished)
      obtain ⟨carrying, advances, calls⟩ := halted.carrying.finishRound
        running (halted.cleanStart reads) read known finished received iterated
      obtain ⟨stalled, blocked⟩ := halted.advance advances
      have silent : output.published = none := by
        dsimp only at received
        rw [arrives] at received
        generalize output.published = published at received
        cases received
        rfl
      refine ⟨_, ?_, ⟨carrying, stalled, ?_⟩, blocked, ?_, calls⟩
      · simp only [TwoParty.agentRound, running, result, finished]
        rfl
      · intro _
        rw [afterRound_dispatched, arrives]
        simpa using halted.deaf (running ▸ rfl)
      · simp [published, roundOutput, running, result, finished,
          Except.toOption, silent]

theorem Halted.step {event : PartyEvent} (halted : system.Halted table)
    (traceable : system.Traceable) (wellFormed : table.WellFormed)
    (permitted : event.Permitted table) (alive : system.Alive event) :
    ∃ next, system.step table rcl event = some next ∧
      system.Idles table rcl event next := by
  cases event with
  | rxPoll count => exact halted.rxPoll wellFormed count
  | txPoll accepted => exact ⟨_, rfl, halted.txPoll accepted⟩
  | publish topicId serialized =>
      exact ⟨_, rfl, halted.publish topicId serialized⟩
  | agentRound reads beforeSize beforePop =>
      obtain ⟨process, running⟩ := Option.isSome_iff_exists.mp alive
      exact halted.agentRound traceable running reads permitted

/-! ## Noise and halting -/

theorem Disturbed.halted (disturbed : Disturbed table system next)
    (halted : system.Halted table) : next.Halted table := by
  refine ⟨disturbed.carrying halted.carrying,
    halted.stalled.step disturbed.step, ?_⟩
  rw [disturbed.agent, disturbed.dispatched]
  exact halted.deaf

/-- Once the registration is hit the system is halted. -/
theorem Disturbed.halts (disturbed : Disturbed table system next)
    (serving : system.Serving table)
    (stalled : Stalled table.keys next.view) : next.Halted table := by
  refine ⟨disturbed.carrying serving.carrying, stalled, ?_⟩
  intro _
  rw [List.filter_eq_nil_iff]
  intro frame member data
  obtain ⟨entry, inside, rfl⟩ := List.mem_map.mp member
  rw [disturbed.dispatched] at inside
  obtain ⟨before, after, split⟩ := List.append_of_mem inside
  obtain ⟨earlier, early, done⟩ :=
    serving.together.agreement.dataLast before entry after split
      (isData_iff.mp data)
  have past : DoneDispatched next.dispatched := by
    rw [disturbed.dispatched, split]
    exact ⟨earlier, List.mem_append_left _ early, done⟩
  have closed := closed_iff.mpr ((doneDispatched_iff next).mp past)
  rw [stalled.unclosed] at closed
  cases closed

end Halted

end TwoParty

end NanoRos
