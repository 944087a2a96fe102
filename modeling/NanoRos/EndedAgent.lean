import Mathlib.Data.List.Flatten
import NanoRos.Foundation.AbandonedEnrolment
import NanoRos.AgentRestart
import NanoRos.NoisyRuns

/-!
# A board without an agent

The agent process is killed in the middle of a round, or has ended by itself.
The board hears what is left on the link, and goes on writing and publishing.
-/

namespace NanoRos

open Board PartialRun StopAndWait
open NrosStreamParser (Clears framesOf framesOf_append feedByte)

namespace TwoParty

/-- There is no process.  If it had dispatched REGISTER_DONE, the board's
registration is through; if it left an ACK behind, the board waits for it. -/
structure Ended (table : TopicTable) (system : TwoParty) : Prop where
  carrying : system.Carrying table
  abandoned : Abandoned system.view

section Ended

variable {table : TopicTable} {rcl : Rclcpp} {system next : TwoParty}

theorem Ended.gone (ended : system.Ended table) : system.agent = none :=
  Option.map_eq_none_iff.mp ended.abandoned.gone

theorem Ended.unhurried (ended : system.Ended table) : system.Unhurried := by
  intro message member ack _ _
  obtain ⟨rest, head⟩ := List.head?_eq_some_iff.mp member
  have heard : .ack ∈ system.view.outbox := by
    rw [head, ← ack]
    exact List.mem_cons_self
  exact (ended.abandoned.awaited heard).2.1

/-! ### Steps of the board -/

theorem Ended.advance (ended : system.Ended table)
    (carrying : next.Carrying table)
    (advances : system.Advances table anyOrder next) : next.Ended table :=
  ⟨carrying, ended.abandoned.step (.party advances.step)⟩

theorem Ended.rxByte (ended : system.Ended table)
    (wellFormed : table.WellFormed)
    (stepped : system.rxPoll table 1 = some next) : next.Ended table := by
  obtain ⟨carrying, advances⟩ :=
    ended.carrying.rxByte wellFormed ended.unhurried stepped
  exact ended.advance carrying advances

theorem Ended.rxPoll (ended : system.Ended table)
    (wellFormed : table.WellFormed) (count : Nat) :
    ∃ next, system.step table rcl (.rxPoll count) = some next ∧
      next.Ended table ∧ system.KeepsCalls table (.rxPoll count) next := by
  have byte (state : TwoParty) (event : Unit) (ended : state.Ended table)
      (_ : True) :
      ∃ next, rxByteStep table state event = some next ∧
        next.Ended table := by
    obtain ⟨next, stepped⟩ := ended.carrying.rxByte_returns wellFormed
    exact ⟨next, stepped, ended.rxByte wellFormed stepped⟩
  obtain ⟨next, stepped, still⟩ := exec_total byte ended (along_of_forall
    (fun _ _ => trivial) system (List.replicate (min count rxChunkSize) ()))
  rw [← rxPoll_eq_exec] at stepped
  exact ⟨next, stepped, still,
    ended.carrying.rxPoll_keepsCalls wellFormed stepped⟩

/-- The board goes on alone, and ROS gets nothing. -/
theorem Ended.step {event : PartyEvent} (ended : system.Ended table)
    (wellFormed : table.WellFormed) (alive : system.Alive event) :
    ∃ next, system.step table rcl event = some next ∧ next.Ended table ∧
      system.KeepsCalls table event next ∧ system.published rcl event = [] := by
  cases event with
  | rxPoll count =>
      obtain ⟨next, stepped, still, calls⟩ := ended.rxPoll wellFormed count
      exact ⟨next, stepped, still, calls, rfl⟩
  | txPoll accepted =>
      obtain ⟨carrying, advances, calls⟩ := ended.carrying.txPoll accepted
      exact ⟨_, rfl, ended.advance carrying advances, calls, rfl⟩
  | publish topicId serialized =>
      obtain ⟨carrying, advances, calls⟩ :=
        ended.carrying.publish topicId serialized
      exact ⟨_, rfl, ended.advance carrying advances, calls, rfl⟩
  | agentRound reads beforeSize beforePop =>
      rw [Alive, ended.gone] at alive
      cases alive

theorem Disturbed.ended (disturbed : Disturbed table system next)
    (ended : system.Ended table) : next.Ended table :=
  ⟨disturbed.carrying ended.carrying, ended.abandoned.step disturbed.step⟩

/-! ### Killing -/

section Killing

variable {reads : List Nat} {beforeSize beforePop : List Incoming}
  {kept : List UInt8}

/-- A killed round leaves of what the whole round sends some frames on the
link. -/
theorem Linked.killedRound (linked : system.Linked table)
    (clean : system.CleanStart reads) (sent : Nat)
    (stepped : system.agentRound rcl reads beforeSize beforePop = some next) :
    ∃ kept, system.killedRound rcl reads beforeSize beforePop sent =
        some { next with agent := none, toBoard := kept } ∧
      next.board.parser.Clears kept ∧
      (next.board.parser.framesOf kept).Sublist
        (next.board.parser.framesOf next.toBoard) := by
  rcases Option.eq_none_or_eq_some system.agent with
    gone | ⟨process, running⟩
  · simp [TwoParty.agentRound, gone] at stepped
  cases result : process.round rcl system.toAgent reads beforeSize
    beforePop with
  | none => simp [TwoParty.agentRound, running, result] at stepped
  | some round =>
      have read := AgentProcess.reads result
      cases outcome : round.outcome with
      | error fault =>
          have whole : system.agentRound rcl reads beforeSize beforePop =
              some { system.reading process round with agent := none } := by
            simp [TwoParty.agentRound, running, result, outcome]
          have killed : system.killedRound rcl reads beforeSize beforePop
              sent = some { system.reading process round with
                agent := none } := by
            simp [TwoParty.killedRound, running, result, outcome]
          cases stepped.symm.trans whole
          exact ⟨system.toBoard, killed, linked.clears, List.Sublist.refl _⟩
      | ok output =>
          have whole : system.agentRound rcl reads beforeSize beforePop =
              some (system.afterRound process round output) := by
            simp [TwoParty.agentRound, TwoParty.afterRound, reading, running,
              result, outcome]
          have killed : system.killedRound rcl reads beforeSize beforePop
              sent = some { system.reading process round with
                agent := none
                toBoard := system.toBoard ++
                  (output.sent.take sent).flatMap
                    SerialTransport.frameBytes } := by
            simp [TwoParty.killedRound, running, result, outcome, reading]
          cases stepped.symm.trans whole
          have counted := (linked.answers running clean read outcome).counted
          obtain ⟨clears, frames⟩ := SerialTransport.append_sent
            (output.sent.take sent) linked.clears (by
              intro frame member
              exact counted frame (List.mem_of_mem_take member))
          obtain ⟨_, all⟩ :=
            SerialTransport.append_sent output.sent linked.clears counted
          have fewer : (system.board.parser.framesOf (system.toBoard ++
                (output.sent.take sent).flatMap
                  SerialTransport.frameBytes)).Sublist
              (system.board.parser.framesOf (system.toBoard ++
                output.sent.flatMap SerialTransport.frameBytes)) := by
            rw [frames, all]
            apply List.Sublist.append_left
            exact (List.take_sublist sent output.sent).flatMap _
          exact ⟨_, killed, clears, fewer⟩

/-- The system after a round, the process killed. -/
theorem ended_of_round (carrying : next.Carrying table)
    (concluded : closed next.view = true →
      next.board.registrationComplete = true)
    (awaited : AnswerAwaited next.view.sender next.view.outbox)
    (clears : next.board.parser.Clears kept)
    (fewer : (next.board.parser.framesOf kept).Sublist
      (next.board.parser.framesOf next.toBoard)) :
    Ended table { next with agent := none, toBoard := kept } := by
  obtain ⟨⟨settled, inside, _, _⟩, installed, subscribers⟩ := carrying
  refine ⟨⟨⟨settled, inside, clears, ?_⟩, installed, ?_⟩, rfl, concluded,
    awaited.of_sublist (fewer.map backwardMessage)⟩
  · rintro _ ⟨⟩
  · intro frame member
    rcases List.mem_append.mp member with onLink | waiting
    · apply subscribers
      exact List.mem_append_left _ ((fewer.filter isData).subset onLink)
    · cases waiting

theorem Serving.ended (serving : next.Serving table)
    (clears : next.board.parser.Clears kept)
    (fewer : (next.board.parser.framesOf kept).Sublist
      (next.board.parser.framesOf next.toBoard)) :
    Ended table { next with agent := none, toBoard := kept } := by
  obtain ⟨process, running, _⟩ := serving.running
  have receiver := view_receiver running
  refine ended_of_round serving.carrying ?_ ?_ clears fewer
  · exact serving.concludes.closed (receiver ▸ Option.some_ne_none _)
  · exact (serving.together.agreed.phase _ receiver).answerAwaited
      (serving.together.flushed _ receiver)

theorem Halted.ended (halted : next.Halted table)
    (clears : next.board.parser.Clears kept)
    (fewer : (next.board.parser.framesOf kept).Sublist
      (next.board.parser.framesOf next.toBoard)) :
    Ended table { next with agent := none, toBoard := kept } := by
  refine ended_of_round halted.carrying ?_ ?_ clears fewer
  · intro isClosed
    rw [halted.stalled.unclosed] at isClosed
    cases isClosed
  · apply answerAwaited_of_control
    rw [halted.stalled.quiet]
    exact List.not_mem_nil

/-- Killing loses messages only. -/
theorem killed_inbound
    (fewer : (next.board.parser.framesOf kept).Sublist
      (next.board.parser.framesOf next.toBoard)) :
    (TwoParty.inbound table
        { next with agent := none, toBoard := kept }).Sublist
      (next.inbound table) := by
  apply List.Sublist.filterMap
  exact (fewer.filter isData).append (List.nil_sublist _)

end Killing

end Ended

end TwoParty

end NanoRos
