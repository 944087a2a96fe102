import NanoRos.Foundation.Reenrolment
import NanoRos.BoardRuns
import NanoRos.RegistrationRounds

/-!
# Agreement across a restart of the agent

The agent process may end at any moment and be started again.  The board
knows nothing of it but the one DISCOVER of the new process, and drops that
one while it is sending.
-/

namespace NanoRos

open Board PartialRun StopAndWait

/-- A step of the two parties; the agent is killed in the middle of a round,
when it has sent the first frames of that round; or it is started anew, and
killed if it is still running. -/
inductive RestartEvent where
  | party (event : PartyEvent)
  | kill (reads : List Nat) (beforeSize beforePop : List Incoming)
      (sent : Nat)
  | restart

namespace TwoParty

/-- The new process starts from its initial state, the board and the bytes on
the links stay as they are.  `dispatched` is what the running process has
handled. -/
def restart (system : TwoParty) : TwoParty :=
  { system with agent := some .initial, dispatched := [] }

/-- A round that ends when `sent` frames are sent. -/
def killedRound (rcl : Rclcpp) (system : TwoParty) (reads : List Nat)
    (beforeSize beforePop : List Incoming) (sent : Nat) : Option TwoParty :=
  match system.agent with
  | none => none
  | some process =>
      match process.round rcl system.toAgent reads beforeSize beforePop with
      | none => none
      | some round =>
          let system := { system.reading process round with agent := none }
          match round.outcome with
          | .error _ => some system
          | .ok output =>
              some { system with
                toBoard := system.toBoard ++
                  (output.sent.take sent).flatMap SerialTransport.frameBytes }

def stepOrRestart (table : TopicTable) (rcl : Rclcpp) (system : TwoParty) :
    RestartEvent → Option TwoParty
  | .party event => system.step table rcl event
  | .kill reads beforeSize beforePop sent =>
      system.killedRound rcl reads beforeSize beforePop sent
  | .restart => some system.restart

/-- Whenever the running process has handled a REGISTER_DONE, it had accepted
every topic of the board. -/
def KnowsTopics (table : TopicTable) (system : TwoParty) : Prop :=
  ∀ entry ∈ system.dispatched,
    entry.frame.header.type = NrosPacketType.registerDone.toByte →
      ∀ topic ∈ table.topics, topic.key ∈ entry.newTopics.map Topic.key

instance (table : TopicTable) (system : TwoParty) :
    Decidable (system.KnowsTopics table) :=
  inferInstanceAs (Decidable (∀ entry ∈ system.dispatched, _ → ∀ topic ∈ _,
    NrosTopic.key topic ∈ entry.newTopics.map Topic.key))

/-- The new process can read what is on its way from the board, and finds no
REGISTER_DONE there without a REGISTER of every topic before it. -/
def CleanLink (table : TopicTable) (system : TwoParty) : Prop :=
  nrosStreamParserInit.Clears system.flight ∧
    DonesCovered table.keys []
      ((nrosStreamParserInit.framesOf system.flight).map forwardMessage)

/-- No frame that a byte of this read completes comes at a bad moment. -/
def TimelyRead (table : TopicTable) (system : TwoParty) (_ : Unit) : Prop :=
  system.FrameArrives → system.Guarded (Timely table.keys)

/-- Nothing is left over from the process before that the new one or the
board takes for its own. -/
def CleanRestart (table : TopicTable) (system : TwoParty) :
    RestartEvent → Prop
  | .restart => system.CleanLink table
  | .party (.rxPoll count) =>
      Along (rxByteStep table) (TimelyRead table) system
        (List.replicate (min count rxChunkSize) ())
  | .party (.agentRound reads _ _) | .kill reads _ _ _ =>
      system.CleanStart reads
  | .party (.txPoll _) | .party (.publish _ _) => True

instance (table : TopicTable) (system : TwoParty) (event : Unit) :
    Decidable (system.TimelyRead table event) :=
  inferInstanceAs (Decidable (_ → ∀ message ∈ system.view.outbox.head?,
    Timely table.keys system.view message system.view.outbox.tail))

instance (table : TopicTable) (system : TwoParty) :
    ∀ event, Decidable (system.CleanRestart table event)
  | .restart => inferInstanceAs (Decidable (_ ∧ _))
  | .party (.rxPoll _) => inferInstanceAs (Decidable (Along _ _ _ _))
  | .party (.agentRound reads _ _) =>
      inferInstanceAs (Decidable (system.CleanStart reads))
  | .kill reads _ _ _ =>
      inferInstanceAs (Decidable (system.CleanStart reads))
  | .party (.txPoll _) => isTrue trivial
  | .party (.publish _ _) => isTrue trivial

/-- The invariant of a run with restarts. -/
structure Following (table : TopicTable) (system : TwoParty) : Prop where
  linked : system.Linked table
  covered : Covered table.keys system.view

section Following

variable {table : TopicTable} {rcl : Rclcpp} {system next : TwoParty}

theorem Following.advance (following : system.Following table)
    (advances : system.Advances table (Timely table.keys) next) :
    next.Following table :=
  ⟨advances.linked, following.covered.step advances.step⟩

/-- A timely ACK never finds the board sending. -/
theorem clear_of_timely (timely : system.Guarded (Timely table.keys)) :
    ∀ message ∈ system.view.outbox.head?, message = .ack →
      system.view.sender.awaiting = true →
        system.view.sender.active = true →
          system.view.sender.busy = false := by
  intro message member ack awaiting active
  have here := timely message member
  subst ack
  exact (here awaiting active).1

theorem Following.step {event : PartyEvent} (registrable : table.Registrable)
    (following : system.Following table)
    (clean : system.CleanRestart table (.party event))
    (stepped : system.step table rcl event = some next) :
    next.Following table := by
  cases event with
  | rxPoll count =>
      simp only [TwoParty.step, rxPoll_eq_exec] at stepped
      apply exec_invariant _ following clean stepped
      intro before _ after following timely read
      exact following.advance (following.linked.rxByte registrable timely
        (fun arrives => clear_of_timely (timely arrives)) read)
  | txPoll accepted =>
      cases stepped
      exact following.advance (following.linked.txPoll accepted)
  | publish topicId serialized =>
      cases stepped
      exact following.advance (following.linked.publish topicId serialized)
  | agentRound reads beforeSize beforePop =>
      exact following.advance (following.linked.agentRound clean stepped)

theorem Following.restart (following : system.Following table)
    (clean : system.CleanLink table) : system.restart.Following table := by
  obtain ⟨linked, covered⟩ := following
  constructor
  · refine ⟨linked.settled, linked.inside, linked.clears, ?_⟩
    intro process running
    cases running
    exact ⟨clean.1, rfl, fun _ => rfl, [], nofun⟩
  · refine ⟨nofun, covered.answered, ?_⟩
    intro receiver running
    cases running
    refine ⟨clean.2, ?_⟩
    intro heard
    exact absurd (.inl rfl) heard

/-- A killed process leaves whole frames behind. -/
theorem Following.killedRound {reads : List Nat}
    {beforeSize beforePop : List Incoming} {sent : Nat}
    (following : system.Following table) (clean : system.CleanStart reads)
    (stepped : system.killedRound rcl reads beforeSize beforePop sent =
      some next) : next.Following table := by
  obtain ⟨linked, covered⟩ := following
  unfold TwoParty.killedRound at stepped
  split at stepped
  · cases stepped
  next process running =>
    split at stepped
    · cases stepped
    next round result =>
      have read := AgentProcess.reads result
      split at stepped
      next fault failed =>
        cases stepped
        exact Following.advance ⟨linked, covered⟩
          (linked.crash running read failed)
      next output finished =>
        cases stepped
        have counted := (linked.answers running clean read finished).counted
        obtain ⟨clears, _⟩ := SerialTransport.append_sent
          (output.sent.take sent) linked.clears (by
            intro frame member
            exact counted frame (List.mem_of_mem_take member))
        constructor
        · refine ⟨linked.settled, linked.inside, clears, ?_⟩
          intro process running
          cases running
        · -- as after the whole round, but for what is on the link
          have whole := covered.step
            (linked.finishRound running clean read finished).step
          exact whole.leave _

end Following

theorem following_initial (table : TopicTable) :
    (initial table).Following table := by
  constructor
  · refine ⟨initial_settled table, nofun, rfl, ?_⟩
    intro process running
    cases running
    exact ⟨rfl, rfl, fun _ => rfl, [], nofun⟩
  · refine ⟨nofun, nofun, ?_⟩
    intro receiver running
    cases running
    refine ⟨trivial, ?_⟩
    intro heard
    exact absurd (.inl rfl) heard

/-- In every run whose restarts are clean, a process that handles
REGISTER_DONE knows every topic. -/
theorem restart_agreement (table : TopicTable) (rcl : Rclcpp)
    (registrable : table.Registrable) (events : List RestartEvent)
    (final : TwoParty)
    (clean : Along (stepOrRestart table rcl) (CleanRestart table)
      (initial table) events)
    (run : exec (stepOrRestart table rcl) (initial table) events =
      some final) :
    final.KnowsTopics table := by
  have following : final.Following table := by
    apply exec_invariant _ (following_initial table) clean run
    intro before event after following clean stepped
    cases event with
    | party event => exact following.step registrable clean stepped
    | kill reads beforeSize beforePop sent =>
        exact following.killedRound clean stepped
    | restart =>
        cases stepped
        exact following.restart clean
  intro entry member done topic inside
  exact following.covered.handled entry.message (List.mem_map_of_mem member)
    (forwardMessage_done done) topic.key (List.mem_map_of_mem inside)

/-- A table with two publishers. -/
def twoPublishers : TopicTable where
  topics :=
    [{ qos := 0
       topicId := 127
       topicName := [0x2F, 0x74]
       topicType := [0x73, 0x2F, 0x54]
       cb := none },
      { qos := 2
        topicId := 128
        topicName := [0x2F, 0x75]
        topicType := [0x73, 0x2F, 0x55]
        cb := none }]
  count_le := by decide

theorem twoPublishers_registrable : twoPublishers.Registrable :=
  ⟨by decide, by decide⟩

/-- Whole chunks go to the board, from it, and to the agent. -/
def exchange : List RestartEvent :=
  [.party (.rxPoll 64), .party (.txPoll 1024),
    .party (.agentRound [256] [] [])]

/-- The agent is killed when it has read the second REGISTER and not yet
answered it.  The board has nothing to send, and takes the DISCOVER of the new
one. -/
def killedBeforeAck : List RestartEvent :=
  .party (.agentRound [] [] []) :: exchange ++
    [.party (.rxPoll 64), .party (.txPoll 1024), .kill [256] [] [] 0, .restart,
      .party (.agentRound [] [] [])] ++
    exchange ++ exchange ++ exchange

theorem restart_agreement_killedBeforeAck :
    ∃ final, exec (stepOrRestart twoPublishers Rclcpp.willing)
        (initial twoPublishers) killedBeforeAck = some final ∧
      final.dispatched.map (·.frame.header.type) = [0x01, 0x01, 0x04] ∧
      final.KnowsTopics twoPublishers := by
  have returns : ∃ final ∈ exec
      (stepOrRestart twoPublishers Rclcpp.willing)
      (initial twoPublishers) killedBeforeAck,
      final.dispatched.map (·.frame.header.type) = [0x01, 0x01, 0x04] := by
    decide +kernel
  obtain ⟨final, run, handled⟩ := returns
  refine ⟨final, run, handled, ?_⟩
  exact restart_agreement twoPublishers Rclcpp.willing
    twoPublishers_registrable killedBeforeAck final (by decide +kernel) run

/-- The agent is killed while the board is sending the second REGISTER: the
DISCOVER of the new one is dropped, and the session goes on with it. -/
def discoverWhileSending : List RestartEvent :=
  .party (.agentRound [] [] []) :: exchange ++
    [.party (.rxPoll 64), .restart, .party (.agentRound [] [] [])] ++
    exchange ++ exchange

theorem not_knowsTopics_discoverWhileSending :
    ¬∀ (table : TopicTable) (rcl : Rclcpp), table.topics ≠ [] →
      table.Registrable → ∀ (events : List RestartEvent) (final : TwoParty),
        exec (stepOrRestart table rcl) (initial table) events = some final →
          final.KnowsTopics table := by
  have incomplete : ∃ final ∈ exec
      (stepOrRestart twoPublishers Rclcpp.willing)
      (initial twoPublishers) discoverWhileSending,
      ¬final.KnowsTopics twoPublishers := by
    decide +kernel
  obtain ⟨final, run, missing⟩ := incomplete
  intro knows
  exact missing (knows twoPublishers Rclcpp.willing (by decide)
    twoPublishers_registrable discoverWhileSending final run)

end TwoParty

end NanoRos
