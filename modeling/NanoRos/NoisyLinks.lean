import NanoRos.Foundation.LossyEnrolment
import NanoRos.LinkNoise
import NanoRos.LinkTraffic

/-!
# The two parties on noisy links

Noise may change the bytes on either link at any moment.  As long as the
parsers detect it, it loses messages of the protocol and does nothing else.
-/

namespace NanoRos

open Board PartialRun StopAndWait
open NrosStreamParser (Clears framesOf framesOf_append feedByte)
open Transducer (after emitted)

/-- A step of the two parties, or noise: what is on a link from then on. -/
inductive NoisyEvent where
  | party (event : PartyEvent)
  | toAgent (noisy : List UInt8)
  | toBoard (noisy : List UInt8)

namespace SerialTransport

theorem popCompleted_parsed {transport other : SerialTransport}
    {frame : WireFrame}
    (popped : transport.popCompleted = some (frame, other)) :
    other.parser = transport.parser := by
  unfold popCompleted at popped
  split at popped
  · cases popped
  · cases popped
    rfl

/-- `recv_frame` only feeds its parser. -/
theorem recvFrame_legible {timeout : Int} {transport : SerialTransport}
    {outcomes : List ReadOutcome} {result : RecvResult}
    (returned : recvFrame timeout transport outcomes = some result)
    (legible : transport.parser.Legible) :
    result.transport.parser.Legible := by
  have fed (transport : SerialTransport) (outcome : ReadOutcome) :
      (recvRound timeout transport outcome).transport.parser =
        after feedByte transport.parser outcome.bytes := by
    simpa using (pending_recvRound timeout transport outcome []).2
  induction returned using recvFrame_induction with
  | completed popped outcomes =>
      rw [popCompleted_parsed popped]
      exact legible
  | @goesOn transport outcome other rest result popped round later induction =>
      apply induction
      have parser := fed transport outcome
      rw [round] at parser
      rw [show other.parser = _ from parser]
      exact legible.feed outcome.bytes
  | @ends transport outcome other popped round rest =>
      have parser := fed transport outcome
      rw [round] at parser
      rw [show other.parser = _ from parser]
      exact legible.feed outcome.bytes

end SerialTransport

namespace TwoParty

def noisyStep (table : TopicTable) (rcl : Rclcpp) (system : TwoParty) :
    NoisyEvent → Option TwoParty
  | .party event => system.step table rcl event
  | .toAgent noisy => some { system with toAgent := noisy }
  | .toBoard noisy => some { system with toBoard := noisy }

/-- Rounds are those of a process that is running. -/
def Alive (system : TwoParty) : PartyEvent → Prop
  | .agentRound _ _ _ => system.agent.isSome
  | .rxPoll _ | .txPoll _ | .publish _ _ => True

instance (system : TwoParty) (event : PartyEvent) :
    Decidable (system.Alive event) :=
  match event with
  | .agentRound _ _ _ => inferInstanceAs (Decidable (_ = true))
  | .rxPoll _ | .txPoll _ | .publish _ _ => isTrue trivial

/-- The parties use known topics, and the noise is detected. -/
def Expected (table : TopicTable) (system : TwoParty) : NoisyEvent → Prop
  | .party event => event.Permitted table ∧ system.Alive event
  | .toAgent noisy =>
      ∀ process ∈ system.agent,
        process.transport.parser.Detects system.toAgent noisy
  | .toBoard noisy => system.board.parser.Detects system.toBoard noisy

instance (table : TopicTable) (system : TwoParty) (event : NoisyEvent) :
    Decidable (system.Expected table event) :=
  match event with
  | .party _ => inferInstanceAs (Decidable (_ ∧ _))
  | .toAgent _ =>
      inferInstanceAs (Decidable (∀ process ∈ system.agent, _))
  | .toBoard _ =>
      inferInstanceAs (Decidable (system.board.parser.Detects _ _))

/-! ## What is known of the parsers and the client -/

/-- Both parsers are in a state that reading leads to, and the process has no
client before it has dispatched a REGISTER_DONE. -/
structure Traceable (system : TwoParty) : Prop where
  board : system.board.parser.Legible
  process : ∀ process, system.agent = some process →
    process.transport.parser.Legible
  unconnected : ¬DoneDispatched system.dispatched →
    ∀ process, system.agent = some process → process.loop.agent.client = none

section Traceable

variable {table : TopicTable} {rcl : Rclcpp} {system next : TwoParty}

theorem traceable_initial (table : TopicTable) :
    (initial table).Traceable := by
  refine ⟨NrosStreamParser.legible_init, ?_, ?_⟩
  · rintro _ ⟨⟩
    exact NrosStreamParser.legible_init
  · rintro _ _ ⟨⟩
    rfl

/-- A step of the board leaves the process alone. -/
theorem Traceable.boardStep (traceable : system.Traceable)
    (agent : next.agent = system.agent)
    (dispatched : next.dispatched = system.dispatched)
    (board : next.board.parser.Legible) : next.Traceable := by
  refine ⟨board, ?_, ?_⟩
  · rw [agent]
    exact traceable.process
  · rw [agent, dispatched]
    exact traceable.unconnected

theorem Traceable.agentRound {reads : List Nat}
    {beforeSize beforePop : List Incoming} (traceable : system.Traceable)
    (stepped : system.agentRound rcl reads beforeSize beforePop = some next) :
    next.Traceable := by
  unfold TwoParty.agentRound at stepped
  split at stepped
  · cases stepped
  next process running =>
    split at stepped
    · cases stepped
    next round result =>
      have read := AgentProcess.reads result
      split at stepped
      next fault failed =>
        cases stepped
        exact ⟨traceable.board, by rintro _ ⟨⟩, by rintro _ _ ⟨⟩⟩
      next output finished =>
        cases stepped
        refine ⟨traceable.board, ?_, ?_⟩
        · rintro _ ⟨⟩
          exact SerialTransport.recvFrame_legible read.returned
            (traceable.process process running)
        · rintro undone _ ⟨⟩
          obtain ⟨input, handled, outcome⟩ := read.outcome
          obtain ⟨loop, received, iterated⟩ :=
            AgentLoop.iterated (outcome.symm.trans finished)
          have client : output.loop.agent.client = loop.agent.client := by
            rw [iterated.agent]
          show output.loop.agent.client = none
          rw [client]
          rw [handled] at received
          apply received.unconnected
          · apply traceable.unconnected _ process running
            rintro ⟨entry, member, done⟩
            exact undone ⟨entry, List.mem_append_left _ member, done⟩
          · intro frame arrived done
            apply undone
            refine ⟨{ frame, newTopics := process.loop.agent.newTopics }, ?_,
              done⟩
            apply List.mem_append_right
            exact List.mem_map.mpr
              ⟨frame, Option.mem_toList.mpr arrived, rfl⟩

theorem Traceable.step {event : PartyEvent} (linked : system.Linked table)
    (traceable : system.Traceable)
    (stepped : system.step table rcl event = some next) :
    next.Traceable := by
  cases event with
  | rxPoll count =>
      obtain ⟨agent, _, dispatched⟩ := rxPoll_agent stepped
      apply traceable.boardStep agent dispatched
      rw [(rxPoll_takes stepped).2]
      exact traceable.board.feed _
  | txPoll accepted =>
      cases stepped
      refine traceable.boardStep (by rfl) (by rfl) ?_
      show (system.board.txPoll accepted).1.parser.Legible
      rw [parser_txPoll linked.settled]
      exact traceable.board
  | publish topicId serialized =>
      cases stepped
      refine traceable.boardStep (by rfl) (by rfl) ?_
      show (system.board.nrosPublish topicId serialized).2.parser.Legible
      rw [parser_publish]
      exact traceable.board
  | agentRound reads beforeSize beforePop =>
      exact traceable.agentRound stepped

end Traceable

/-! ## What noise does -/

/-- Messages get lost on the links, and everything else stays. -/
structure Disturbed (table : TopicTable) (before after : TwoParty) :
    Prop where
  board : after.board = before.board
  agent : after.agent = before.agent
  dispatched : after.dispatched = before.dispatched
  linked : before.Linked table → after.Linked table
  completing : before.Completing → after.Completing
  underway : after.underway.Sublist before.underway
  arriving : (after.board.parser.framesOf after.toBoard).Sublist
    (before.board.parser.framesOf before.toBoard)
  step : LossyStep table.keys anyOrder before.view after.view

section Disturbed

variable {table : TopicTable} {rcl : Rclcpp} {system next : TwoParty}
  {noisy : List UInt8}

theorem disturbed_toAgent (traceable : system.Traceable)
    (detects : ∀ process ∈ system.agent,
      process.transport.parser.Detects system.toAgent noisy) :
    Disturbed table system { system with toAgent := noisy } := by
  have fewer (process : AgentProcess) (running : system.agent = some process) :
      (process.transport.pending (noisy ++ system.board.unsent)).Sublist
          (process.transport.pending system.flight) ∧
        (process.transport.parser.Clears (noisy ++ system.board.unsent) ↔
          process.transport.parser.Clears system.flight) := by
    obtain ⟨frames, clears⟩ := (detects process running).behind
      (traceable.process process running) system.board.unsent
    exact ⟨frames.append_left _, clears⟩
  constructor
  · rfl
  · rfl
  · rfl
  · rintro ⟨settled, inside, clears, linked⟩
    refine ⟨settled, inside, clears, ?_⟩
    intro process running
    have linked := linked process running
    exact ⟨(fewer process running).2.mpr linked.clears, linked.answered,
      linked.fresh, linked.queued⟩
  · intro completing process running
    exact ((detects process running).completes
      (traceable.process process running) _).mpr (completing process running)
  · rcases Option.eq_none_or_eq_some system.agent with
      gone | ⟨process, running⟩
    · simp [underway, gone]
    · have after : TwoParty.underway { system with toAgent := noisy } =
          process.transport.pending (noisy ++ system.board.unsent) :=
        underway_of_running running
      rw [underway_of_running running, after]
      exact (fewer process running).1
  · exact List.Sublist.refl _
  · rcases Option.eq_none_or_eq_some system.agent with
      gone | ⟨process, running⟩
    · have same : TwoParty.view { system with toAgent := noisy } =
          system.view := by
        simp only [TwoParty.view, gone, Option.map_none]
      rw [same]
      exact .party .quiet
    · have view : TwoParty.view { system with toAgent := noisy } =
          { system.view with
            receiver := some { process.receiver system.flight with
              inbox := (process.transport.pending
                (noisy ++ system.board.unsent)).map forwardMessage } } := by
        simp only [TwoParty.view, running, Option.map_some]
        rfl
      rw [view]
      apply LossyStep.toReceiver _ (view_receiver running)
      exact (fewer process running).1.map forwardMessage

theorem disturbed_toBoard (traceable : system.Traceable)
    (detects : system.board.parser.Detects system.toBoard noisy) :
    Disturbed table system { system with toBoard := noisy } := by
  obtain ⟨frames, clears⟩ := detects.behind traceable.board []
  rw [List.append_nil, List.append_nil] at frames clears
  constructor
  · rfl
  · rfl
  · rfl
  · rintro ⟨settled, inside, linkClears, linked⟩
    exact ⟨settled, inside, clears.mpr linkClears, linked⟩
  · exact id
  · exact List.Sublist.refl _
  · exact frames
  · exact .toSender _ (frames.map backwardMessage)

/-! ### What is left under way -/

theorem Disturbed.downlink (disturbed : Disturbed table system next) :
    (next.downlink ++ next.queued).Sublist
      (system.downlink ++ system.queued) := by
  have queued : next.queued = system.queued := by
    rw [TwoParty.queued, TwoParty.queued, disturbed.agent]
  rw [queued]
  exact (disturbed.arriving.filter isData).append_right _

theorem Disturbed.inbound (disturbed : Disturbed table system next) :
    (next.inbound table).Sublist (system.inbound table) :=
  disturbed.downlink.filterMap table.callOf

theorem Disturbed.outbound (disturbed : Disturbed table system next) :
    (next.outbound table).Sublist (system.outbound table) :=
  (disturbed.underway.filter isData).map table.publicationOf

theorem Disturbed.traceable (disturbed : Disturbed table system next)
    (traceable : system.Traceable) : next.Traceable := by
  apply traceable.boardStep disturbed.agent disturbed.dispatched
  rw [disturbed.board]
  exact traceable.board

theorem Disturbed.carrying (disturbed : Disturbed table system next)
    (carrying : system.Carrying table) : next.Carrying table := by
  refine ⟨disturbed.linked carrying.linked, ?_, ?_⟩
  · rw [disturbed.board]
    exact carrying.installed
  · intro frame member
    exact carrying.subscribers frame (disturbed.downlink.subset member)

/-- A system goes on serving while the registration is not hit. -/
theorem Disturbed.serving (disturbed : Disturbed table system next)
    (serving : system.Serving table)
    (enrolled : Enrolled table.keys next.view) : next.Serving table := by
  have together : next.Together table :=
    ⟨disturbed.linked serving.together.linked,
      disturbed.completing serving.together.completing, enrolled.agreed⟩
  have carrying := disturbed.carrying serving.carrying
  refine ⟨together, enrolled.opened, ?_, carrying.installed, ?_, ?_,
    carrying.subscribers⟩
  · exact serving.concludes.lossyStep serving.together.agreed together.flushed
      disturbed.step
  · rw [disturbed.agent, disturbed.dispatched]
    exact serving.running
  · intro frame member
    exact serving.publishers frame
      ((disturbed.underway.filter isData).subset member)

end Disturbed

end TwoParty

end NanoRos
