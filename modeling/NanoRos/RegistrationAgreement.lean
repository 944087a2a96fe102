import NanoRos.Foundation.FirstEnrolment
import NanoRos.BoardRuns
import NanoRos.RegistrationRounds

/-!
# Agreement from power-up

The board and the agent start together.  However their steps interleave, the
agent takes the topics in order, has all of them when REGISTER_DONE comes, and
handles no DATA before that.
-/

namespace NanoRos

open Board PartialRun StopAndWait

namespace TwoParty

/-- The invariant of a run from power-up. -/
structure Together (table : TopicTable) (system : TwoParty) : Prop where
  linked : system.Linked table
  completing : system.Completing
  agreed : Agreed table.keys system.view

/-- Nothing restricts what the board hears. -/
def anyOrder (_ : State TopicKey) (_ : Backward) (_ : List Backward) : Prop :=
  True

section Together

variable {table : TopicTable} {rcl : Rclcpp} {system next : TwoParty}

/-- A frame that is not completely sent is still to come for the agent. -/
theorem Together.flushed (together : system.Together table) :
    Flushed system.view := by
  intro receiver running busy
  obtain ⟨process, wasRunning, rfl⟩ := Option.map_eq_some_iff.mp running
  have sending : ∃ frame, system.board.Sending frame := by
    rcases together.linked.settled with idle | sending
    · rw [show system.view.sender.busy = false from
        busy_eq_false_iff.mpr idle] at busy
      cases busy
    · exact sending
  obtain ⟨frame, sending⟩ := sending
  have coming := together.completing process wasRunning [] system.board.unsent
    rfl sending.unsent_ne_nil
  intro empty
  simp only [AgentProcess.receiver, SerialTransport.pending, TwoParty.flight,
    NrosStreamParser.framesOf_append, List.map_append,
    List.append_eq_nil_iff, List.map_eq_nil_iff] at empty
  exact coming empty.2.2

/-- No ACK comes while the board is sending. -/
theorem Together.clear (together : system.Together table) :
    ∀ message ∈ system.view.outbox.head?, message = .ack →
      system.view.sender.awaiting = true →
        system.view.sender.active = true →
          system.view.sender.busy = false := by
  intro message member ack _ _
  subst ack
  obtain ⟨rest, head⟩ := List.head?_eq_some_iff.mp member
  exact together.agreed.not_busy_of_ack together.flushed head

/-- Nothing has come for a process before its first round. -/
theorem Together.cleanStart (together : system.Together table)
    (reads : List Nat) : system.CleanStart reads := by
  intro process running fresh received returned frame arrived
  have phase := together.agreed.phase (process.receiver system.flight) (by
    rw [TwoParty.view, running]
    rfl)
  have empty := List.map_eq_nil_iff.mp (phase.empty_of_fresh fresh)
  have receives := SerialTransport.recvFrame_receives returned
    ((readsFrom system.toAgent reads).2 ++ system.board.unsent)
  rw [← List.append_assoc, readsFrom_bytes] at receives
  have taken := receives.pending
  rw [Option.mem_def.mp arrived] at taken
  rw [TwoParty.flight, taken] at empty
  cases empty

theorem Together.advance (together : system.Together table)
    (nonempty : table.topics ≠ [])
    (advances : system.Advances table anyOrder next) : next.Together table := by
  refine ⟨advances.linked, advances.completing together.completing, ?_⟩
  exact together.agreed.step (by simpa [TopicTable.keys] using nonempty)
    advances.step

theorem Together.step {event : PartyEvent} (nonempty : table.topics ≠ [])
    (registrable : table.Registrable) (together : system.Together table)
    (stepped : system.step table rcl event = some next) :
    next.Together table := by
  cases event with
  | rxPoll count =>
      simp only [TwoParty.step, rxPoll_eq_exec] at stepped
      apply exec_preserved _ together stepped
      intro before _ after together read
      exact together.advance nonempty (together.linked.rxByte registrable
        (fun _ _ _ => trivial) (fun _ => together.clear) read)
  | txPoll accepted =>
      cases stepped
      exact together.advance nonempty (together.linked.txPoll accepted)
  | publish topicId serialized =>
      cases stepped
      exact together.advance nonempty
        (together.linked.publish topicId serialized)
  | agentRound reads beforeSize beforePop =>
      exact together.advance nonempty
        (together.linked.agentRound (together.cleanStart reads) stepped)

end Together

theorem together_initial (table : TopicTable) :
    (initial table).Together table := by
  refine ⟨?_, ?_, ?_⟩
  · refine ⟨initial_settled table, nofun, rfl, ?_⟩
    intro process running
    cases running
    exact ⟨rfl, rfl, fun _ => rfl, [], nofun⟩
  · intro process running
    cases running
    exact NrosStreamParser.completes_nil _
  · refine ⟨.nil _, nofun, ?_⟩
    intro receiver running
    cases running
    exact .waiting rfl rfl rfl ⟨rfl, rfl, rfl, rfl⟩ rfl

/-- What the agent knows of the board's topics: those it has accepted are the
first of the table, they are all of them whenever it handles a REGISTER_DONE,
and it handles no DATA before one. -/
structure Agreement (table : TopicTable) (system : TwoParty) : Prop where
  accepted : ∀ process, system.agent = some process →
    process.loop.agent.newTopics.map Topic.key <+: table.keys
  whole : ∀ entry ∈ system.dispatched,
    entry.frame.header.type = NrosPacketType.registerDone.toByte →
      entry.newTopics.map Topic.key = table.keys
  dataLast : ∀ before entry after,
    system.dispatched = before ++ entry :: after →
      entry.frame.header.type = NrosPacketType.data.toByte →
        ∃ earlier ∈ before, earlier.frame.header.type =
          NrosPacketType.registerDone.toByte

theorem Together.agreement {table : TopicTable} {system : TwoParty}
    (together : system.Together table) : system.Agreement table where
  accepted := by
    intro process running
    have phase := together.agreed.phase (process.receiver system.flight) (by
      rw [view, running]
      rfl)
    exact phase.prefix
  whole := by
    intro entry member done
    exact together.agreed.ordered.whole entry.message
      (List.mem_map_of_mem member) (forwardMessage_done done)
  dataLast := by
    intro before entry after split data
    obtain ⟨earlier, member, done⟩ := together.agreed.ordered.later
      (before.map Dispatched.message) entry.message
      (after.map Dispatched.message) (by
        rw [view, split]
        simp) (forwardMessage_data data)
    obtain ⟨dispatched, inside, rfl⟩ := List.mem_map.mp member
    exact ⟨dispatched, inside, type_of_forwardMessage_done done⟩

/-- From power-up the two parties agree, however their steps interleave. -/
theorem registration_agreement (table : TopicTable) (rcl : Rclcpp)
    (nonempty : table.topics ≠ []) (registrable : table.Registrable)
    (events : List PartyEvent) (final : TwoParty)
    (run : exec (step table rcl) (initial table) events = some final) :
    final.Agreement table := by
  have together : final.Together table := by
    apply exec_preserved _ (together_initial table) run
    intro before event after together stepped
    exact together.step nonempty registrable stepped
  exact together.agreement

/-- A session with split reads and writes, and a message published after it. -/
def firstSession : List PartyEvent :=
  [.agentRound [] [] [], .rxPoll 5, .rxPoll 64, .txPoll 3,
    .agentRound [256] [] [], .txPoll 1024,
    .agentRound [4, 256] [] [], .rxPoll 64, .txPoll 1024,
    .agentRound [256] [] [], .publish 127 ⟨true, [0x2A, 0x2B], by decide⟩,
    .txPoll 1024, .agentRound [256] [] []]

theorem registration_agreement_firstSession :
    ∃ final, exec (step BoardHistory.onePublisher Rclcpp.willing)
        (initial BoardHistory.onePublisher) firstSession = some final ∧
      final.dispatched.map (·.frame.header.type) = [0x01, 0x04, 0x02] ∧
      final.Agreement BoardHistory.onePublisher := by
  have returns : ∃ final ∈ exec
      (step BoardHistory.onePublisher Rclcpp.willing)
      (initial BoardHistory.onePublisher) firstSession,
      final.dispatched.map (·.frame.header.type) = [0x01, 0x04, 0x02] := by
    decide +kernel
  obtain ⟨final, run, handled⟩ := returns
  refine ⟨final, run, handled, ?_⟩
  apply registration_agreement BoardHistory.onePublisher
    Rclcpp.willing _ _ firstSession final run
  · decide
  · exact ⟨by decide, by decide⟩

end TwoParty

end NanoRos
