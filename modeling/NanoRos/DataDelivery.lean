import NanoRos.Foundation.EnrolmentProgress
import NanoRos.DataPlaneRounds

/-!
# Delivery of messages

From power-up, with a table the firmware can be built with, neither party ever
runs into a fault; every accepted publish becomes one publication, in order,
and every handler call was caused by one ROS message, in order.
-/

namespace NanoRos

open Board PartialRun StopAndWait
open ClientHandlerNode
open AgentLoop (pushIncoming takeOutbound)
open NrosStreamParser (Clears framesOf framesOf_append feedByte)
open SerialTransport (Counted frameBytes onLink)
open Transducer (after emitted)

/-- REGISTER_DONE was dispatched. -/
def DoneDispatched (dispatched : List Dispatched) : Prop :=
  ∃ entry ∈ dispatched,
    entry.frame.header.type = NrosPacketType.registerDone.toByte

/-- The client holds a handle for each topic that was registered. -/
def Agent.Connected (agent : Agent) : Prop :=
  ∃ client, agent.client = some client ∧ TableHolds agent.newTopics client

/-- The publication that a DATA frame is to become. -/
def TopicTable.publicationOf (table : TopicTable) (frame : Frame) :
    Option Publication :=
  table.publication frame.header.topicId frame.payload

namespace TwoParty

/-- The frames that the board has loaded for the agent. -/
def loaded (system : TwoParty) : List Frame :=
  system.dispatched.map Dispatched.frame ++ system.underway

/-- The publications that dispatched frames were to become. -/
def delivered (table : TopicTable) (system : TwoParty) :
    List (Option Publication) :=
  ((system.dispatched.map Dispatched.frame).filter isData).map
    table.publicationOf

/-- The publications under way to ROS. -/
def outbound (table : TopicTable) (system : TwoParty) :
    List (Option Publication) :=
  system.uplink.map table.publicationOf

/-- The handler calls under way to the board. -/
def inbound (table : TopicTable) (system : TwoParty) : List HandlerCall :=
  (system.downlink ++ system.queued).filterMap table.callOf

/-- The publications that accepted publishes are to become. -/
def submitted (table : TopicTable) (system : TwoParty) (event : PartyEvent) :
    List (Option Publication) :=
  (system.accepted event).map fun (topicId, payload) =>
    table.publication topicId payload

/-- The handler calls that ROS messages are to cause. -/
def requested (table : TopicTable) (system : TwoParty) (event : PartyEvent) :
    List HandlerCall :=
  (system.arrived event).filterMap (Incoming.handlerCall table)

/-- The invariant of a run from power-up in which only known topics are used:
both parties are at work, and what is under way has a destination. -/
structure Serving (table : TopicTable) (system : TwoParty) : Prop where
  together : system.Together table
  opened : Opened table.keys system.view
  concludes : Concludes system.view
  installed : system.board.Installed table
  running : ∃ process, system.agent = some process ∧
    (DoneDispatched system.dispatched → process.loop.agent.Connected)
  publishers : ∀ frame ∈ system.uplink,
    (table.publisher? frame.header.topicId).isSome
  subscribers : ∀ frame ∈ system.downlink ++ system.queued,
    (table.subscriber? frame.header.topicId).isSome

/-- What one step does to the messages. -/
structure Moves (table : TopicTable) (rcl : Rclcpp) (system : TwoParty)
    (event : PartyEvent) (next : TwoParty) : Prop where
  serving : next.Serving table
  loads : system.loaded <+: next.loaded
  dispatches : system.dispatched.map Dispatched.frame <+:
    next.dispatched.map Dispatched.frame
  delivers : next.delivered table =
    system.delivered table ++ (system.published rcl event).map some
  up : (system.published rcl event).map some ++ next.outbound table =
    system.outbound table ++ system.submitted table event
  down : (system.handled table event ++ next.inbound table).Sublist
    (system.inbound table ++ system.requested table event)
  exact : system.Spacious event →
    system.handled table event ++ next.inbound table =
      system.inbound table ++ system.requested table event

section Steps

variable {table : TopicTable} {rcl : Rclcpp} {system next : TwoParty}

theorem Serving.advance (serving : system.Serving table)
    (wellFormed : table.WellFormed)
    (advances : system.Advances table anyOrder next) :
    next.Together table ∧ Opened table.keys next.view ∧
      Concludes next.view := by
  have together := serving.together.advance wellFormed.nonempty advances
  have agreed := serving.together.agreed
  exact ⟨together, serving.opened.step agreed advances.step,
    serving.concludes.step agreed together.flushed advances.step⟩

/-- A step of the board at which no message gets lost. -/
theorem Serving.boardStep (serving : system.Serving table)
    (wellFormed : table.WellFormed)
    (advances : system.Advances table anyOrder next)
    (installed : next.board.Installed table)
    (agent : next.agent = system.agent)
    (dispatched : next.dispatched = system.dispatched)
    (publishers : ∀ frame ∈ next.uplink,
      (table.publisher? frame.header.topicId).isSome)
    (subscribers : ∀ frame ∈ next.downlink, frame ∈ system.downlink) :
    next.Serving table := by
  obtain ⟨together, opened, concludes⟩ := serving.advance wellFormed advances
  refine ⟨together, opened, concludes, installed, ?_, publishers, ?_⟩
  · rw [agent, dispatched]
    exact serving.running
  · have queued : next.queued = system.queued := by
      rw [TwoParty.queued, TwoParty.queued, agent]
    intro frame member
    apply serving.subscribers frame
    rw [queued] at member
    rcases List.mem_append.mp member with onLink | waiting
    · exact List.mem_append_left _ (subscribers frame onLink)
    · exact List.mem_append_right _ waiting

/-- A step of the board that loses no message. -/
theorem Moves.of_board {event : PartyEvent} (serving : next.Serving table)
    (dispatched : next.dispatched = system.dispatched)
    (underway : system.underway <+: next.underway)
    (silent : system.published rcl event = [])
    (up : (system.published rcl event).map some ++ next.outbound table =
      system.outbound table ++ system.submitted table event)
    (exact : system.handled table event ++ next.inbound table =
      system.inbound table ++ system.requested table event) :
    system.Moves table rcl event next := by
  refine ⟨serving, ?_, ?_, ?_, up, exact ▸ List.Sublist.refl _,
    fun _ => exact⟩
  · rw [loaded, loaded, dispatched]
    exact (List.prefix_append_right_inj _).mpr underway
  · simp only [dispatched, List.prefix_rfl]
  · rw [delivered, delivered, dispatched, silent]
    exact (List.append_nil _).symm

/-- Writing moves bytes from the buffer to the link. -/
theorem Serving.txPoll (serving : system.Serving table)
    (wellFormed : table.WellFormed) (accepted : Nat) :
    system.Moves table rcl (.txPoll accepted) (system.txPoll accepted) := by
  have underway := serving.together.linked.underway_txPoll accepted
  have uplink : (system.txPoll accepted).uplink = system.uplink := by
    rw [TwoParty.uplink, underway]
    rfl
  have downlink : (system.txPoll accepted).downlink = system.downlink := by
    simp only [TwoParty.downlink, TwoParty.txPoll,
      parser_txPoll serving.together.linked.settled]
  have queued : (system.txPoll accepted).queued = system.queued := rfl
  apply Moves.of_board _ (by rfl) (by simp only [underway, List.prefix_rfl])
    (by rfl)
  · simp [published, submitted, TwoParty.accepted, outbound, uplink]
  · simp [handled, requested, arrived, inbound, downlink, queued]
  · apply serving.boardStep wellFormed
      (serving.together.linked.txPoll accepted) _ rfl rfl
    · rw [uplink]
      exact serving.publishers
    · rw [downlink]
      exact fun _ member => member
    · rw [Board.Installed, TwoParty.txPoll, Codegen.txPoll_topicMap]
      exact serving.installed

/-- An accepted publish joins those under way. -/
theorem Serving.publish (serving : system.Serving table)
    (wellFormed : table.WellFormed) {topicId : UInt8}
    (known : (table.publisher? topicId).isSome)
    (serialized : SerializeResult) :
    system.Moves table rcl (.publish topicId serialized)
      (system.publish topicId serialized) := by
  obtain ⟨process, running, _⟩ := serving.running
  have linked := serving.together.linked
  have underway := linked.underway_publish running topicId serialized
  have uplink : (system.publish topicId serialized).uplink = system.uplink ++
      if (system.board.nrosPublish topicId serialized).1 then
        [dataFrame topicId serialized.bytes]
      else [] := by
    rw [TwoParty.uplink, underway, List.filter_append]
    split
    · rfl
    · rfl
  have downlink : (system.publish topicId serialized).downlink =
      system.downlink := by
    simp only [TwoParty.downlink, TwoParty.publish, parser_publish]
  have queued : (system.publish topicId serialized).queued =
      system.queued := rfl
  apply Moves.of_board _ (by rfl)
    (by rw [underway]; exact List.prefix_append _ _) (by rfl)
  · simp only [published, submitted, TwoParty.accepted, outbound, uplink,
      List.map_nil, List.nil_append, List.map_append]
    congr 1
    split <;> rfl
  · simp [handled, requested, arrived, inbound, downlink, queued]
  · apply serving.boardStep wellFormed
      (linked.publish topicId serialized) _ rfl rfl
    · rw [uplink]
      intro frame member
      rcases List.mem_append.mp member with old | new
      · exact serving.publishers frame old
      · split at new
        · rw [List.mem_singleton.mp new]
          exact known
        · cases new
    · rw [downlink]
      exact fun _ member => member
    · rw [Board.Installed, TwoParty.publish, Codegen.publish_topicMap]
      exact serving.installed

theorem rxByte_returns (installed : system.board.Installed table)
    (wellFormed : table.WellFormed)
    (subscribers : ∀ frame ∈ system.downlink,
      (table.subscriber? frame.header.topicId).isSome) :
    ∃ next, system.rxPoll table 1 = some next := by
  have returns : ∃ board, dispatchEach table system.board
      (emitted feedByte system.board.parser (system.toBoard.take 1)) =
        .ok board := by
    apply installed.dispatchEach_returns _ wellFormed
    intro event member data
    apply subscribers event.frame
    refine List.mem_filter.mpr ⟨?_, data⟩
    rw [← List.take_append_drop 1 system.toBoard, framesOf_append]
    exact List.mem_append_left _ (List.mem_map_of_mem member)
  obtain ⟨board, dispatched⟩ := returns
  rw [TwoParty.rxPoll, rxPoll_eq, dispatched]
  exact ⟨_, rfl⟩

/-- Reading one byte leaves the DATA under way to the agent alone. -/
theorem Serving.rxByte (serving : system.Serving table)
    (wellFormed : table.WellFormed)
    (stepped : system.rxPoll table 1 = some next) :
    next.Serving table ∧ next.uplink = system.uplink ∧
      system.underway <+: next.underway := by
  obtain ⟨process, running, _⟩ := serving.running
  obtain ⟨agent, _, dispatched⟩ := rxPoll_agent stepped
  obtain ⟨loaded, underway, noData⟩ :=
    serving.together.underway_rxByte wellFormed.registrable running stepped
  have uplink : next.uplink = system.uplink := by
    rw [TwoParty.uplink, underway, List.filter_append, noData,
      List.append_nil]
    rfl
  have advances : system.Advances table anyOrder next :=
    serving.together.linked.rxByte wellFormed.registrable
      (fun _ _ _ => trivial) (fun _ => serving.together.clear) stepped
  obtain ⟨_, suffix, installed⟩ := downlink_rxPoll serving.installed
    wellFormed.distinct stepped
  refine ⟨?_, uplink, underway ▸ List.prefix_append _ _⟩
  apply serving.boardStep wellFormed advances installed agent dispatched
  · rw [uplink]
    exact serving.publishers
  · exact fun frame member => suffix.subset member

/-- Reading handles the first DATA frames under way to the board. -/
theorem Serving.rxPoll (serving : system.Serving table)
    (wellFormed : table.WellFormed) (count : Nat) :
    ∃ next, system.step table rcl (.rxPoll count) = some next ∧
      system.Moves table rcl (.rxPoll count) next := by
  have byte (state : TwoParty) (event : Unit)
      (kept : state.Serving table ∧ state.uplink = system.uplink ∧
        system.underway <+: state.underway) (_ : True) :
      ∃ next, rxByteStep table state event = some next ∧
        next.Serving table ∧ next.uplink = system.uplink ∧
          system.underway <+: next.underway := by
    obtain ⟨serving, uplink, underway⟩ := kept
    obtain ⟨next, stepped⟩ := rxByte_returns serving.installed wellFormed
      fun frame member => serving.subscribers frame
        (List.mem_append_left _ member)
    obtain ⟨stillServing, same, more⟩ := serving.rxByte wellFormed stepped
    exact ⟨next, stepped, stillServing, same.trans uplink,
      underway.trans more⟩
  obtain ⟨next, stepped, stillServing, uplink, underway⟩ :=
    exec_total byte ⟨serving, rfl, List.prefix_rfl⟩ (along_of_forall
      (fun _ _ => trivial) system (List.replicate (min count rxChunkSize) ()))
  rw [← rxPoll_eq_exec] at stepped
  obtain ⟨agent, _, dispatched⟩ := rxPoll_agent stepped
  have queued : next.queued = system.queued := by
    rw [TwoParty.queued, TwoParty.queued, agent]
  refine ⟨next, stepped, .of_board stillServing dispatched underway (by rfl)
    ?_ ?_⟩
  · simp [published, submitted, TwoParty.accepted, outbound, uplink]
  · obtain ⟨calls, _, _⟩ := downlink_rxPoll serving.installed
      wellFormed.distinct stepped
    simp only [handled, requested, arrived, inbound, queued,
      List.filterMap_append, List.filterMap_nil, List.append_nil]
    rw [← List.append_assoc, calls]

/-! ### A round of the agent -/

theorem doneDispatched_iff (system : TwoParty) :
    DoneDispatched system.dispatched ↔
      ∃ entry ∈ system.view.history, entry.1 = .done := by
  constructor
  · rintro ⟨entry, member, done⟩
    exact ⟨entry.message, List.mem_map_of_mem member,
      forwardMessage_done done⟩
  · rintro ⟨message, member, done⟩
    obtain ⟨entry, inside, rfl⟩ := List.mem_map.mp member
    exact ⟨entry, inside, type_of_forwardMessage_done done⟩

/-- The id of a publisher is that of a topic the agent has taken. -/
theorem registered_of_publisher {topics : List Topic} {topicId : UInt8}
    (agree : topics.map Topic.key = table.keys)
    (known : (table.publisher? topicId).isSome) :
    ∃ t ∈ topics, t.id = topicId := by
  rw [table.publisher?_keys] at known
  split at known
  · rw [Option.isSome_map, List.find?_isSome] at known
    obtain ⟨⟨key, serial⟩, member, same⟩ := known
    have inside : key ∈ topics.map Topic.key :=
      agree ▸ List.fst_mem_of_mem_zipIdx member
    obtain ⟨t, taken, rfl⟩ := List.mem_map.mp inside
    exact ⟨t, taken, of_decide_eq_true same⟩
  · cases known

section Round

variable {process : AgentProcess} {frame : WireFrame} {rest : List WireFrame}

theorem view_inbox (pending : process.transport.pending system.flight =
      frame :: rest) :
    (process.receiver system.flight).inbox =
      forwardMessage frame :: rest.map forwardMessage := by
  rw [AgentProcess.receiver, pending]
  rfl

/-- When DATA comes, REGISTER_DONE was dispatched, and the agent knows the
table. -/
theorem Serving.connected_of_data (serving : system.Serving table)
    (running : system.agent = some process)
    (pending : process.transport.pending system.flight = frame :: rest)
    (data : isData frame = true) :
    process.loop.agent.Connected ∧
      process.loop.agent.newTopics.map Topic.key = table.keys := by
  have receiver := view_receiver running
  have phase := serving.together.agreed.phase _ receiver
  have ordered := phase.ordered (view_inbox pending)
    serving.together.agreed.ordered
  obtain ⟨earlier, member, done⟩ := ordered.later _ _ [] rfl
    (isData_of_forwardMessage.mp data)
  have history := (doneDispatched_iff system).mpr ⟨earlier, member, done⟩
  obtain ⟨other, otherRunning, connected⟩ := serving.running
  cases running.symm.trans otherRunning
  refine ⟨connected history, ?_⟩
  exact (serving.opened ⟨earlier, member, done⟩ _ receiver).2.2.2

/-- The next frame is dispatched without a fault. -/
theorem Serving.frameDispatch (serving : system.Serving table)
    (wellFormed : table.WellFormed) (createsAll : rcl.CreatesAll table)
    (running : system.agent = some process)
    (pending : process.transport.pending system.flight = frame :: rest) :
    ∃ result, process.loop.agent.frameDispatch rcl frame = .ok result := by
  apply Agent.frameDispatch_returns wellFormed createsAll
  · intro data
    obtain ⟨⟨client, connected, holds⟩, agree⟩ :=
      serving.connected_of_data running pending data
    refine ⟨client, connected, ?_⟩
    apply (clientPublish_ok_iff holds (ids_inside wellFormed.inside agree)
      frame).1.mpr
    apply registered_of_publisher agree
    apply serving.publishers
    rw [uplink_of_running running, pending]
    exact List.mem_filter.mpr ⟨List.mem_cons_self, data⟩
  · intro done
    have phase := serving.together.agreed.phase _ (view_receiver running)
    have head := view_inbox pending
    rw [forwardMessage_done done] at head
    exact (phase.opens head).2.2.2

/-- A DATA frame is published as the table says, and nothing else is. -/
theorem Serving.published_eq {agent : Agent}
    {publication : Option Publication} (serving : system.Serving table)
    (wellFormed : table.WellFormed) (running : system.agent = some process)
    (pending : process.transport.pending system.flight = frame :: rest)
    (dispatch : Agent.DispatchStep rcl process.loop.agent frame agent
      publication) :
    publication.toList.map some =
      ([frame].filter isData).map table.publicationOf := by
  have silent (other : frame.header.type ≠ NrosPacketType.data.toByte) :
      ([frame].filter isData).map table.publicationOf = [] := by
    rw [List.filter_cons_of_neg (fun data => other (isData_iff.mp data))]
    rfl
  cases dispatch with
  | data type client connected publishes same =>
      have data := isData_iff.mpr type
      obtain ⟨⟨other, otherConnected, holds⟩, agree⟩ :=
        serving.connected_of_data running pending data
      cases connected.symm.trans otherConnected
      have expected := (clientPublish_ok_iff holds
        (ids_inside wellFormed.inside agree) frame).2 publication publishes
      rw [expectedPublication_eq agree wellFormed.distinct] at expected
      have known := serving.publishers frame (by
        rw [uplink_of_running running, pending]
        exact List.mem_filter.mpr ⟨List.mem_cons_self, data⟩)
      obtain ⟨publisher, found⟩ := Option.isSome_iff_exists.mp known
      rw [TopicTable.publication, found] at expected
      rw [expected, List.filter_cons_of_pos data, List.filter_nil,
        List.map_singleton, TopicTable.publicationOf, TopicTable.publication,
        found]
      rfl
  | register type _ nothing =>
      rw [nothing, silent (by rw [type]; decide)]
      rfl
  | registerDone type _ _ _ nothing =>
      rw [nothing, silent (by rw [type]; decide)]
      rfl
  | other notData _ _ _ nothing =>
      rw [nothing, silent notData]
      rfl

/-- Once REGISTER_DONE is dispatched, the client stays connected. -/
theorem Serving.connected {agent : Agent}
    {publication : Option Publication} (serving : system.Serving table)
    (running : system.agent = some process)
    (pending : process.transport.pending system.flight = frame :: rest)
    (dispatch : Agent.DispatchStep rcl process.loop.agent frame agent
      publication)
    (done : DoneDispatched system.dispatched ∨
      frame.header.type = NrosPacketType.registerDone.toByte) :
    agent.Connected := by
  obtain ⟨other, otherRunning, connected⟩ := serving.running
  cases running.symm.trans otherRunning
  have dataOnly (past : DoneDispatched system.dispatched) :
      frame.header.type = NrosPacketType.data.toByte := by
    have message := (serving.opened ((doneDispatched_iff system).mp past) _
      (view_receiver running)).2.2.1 (forwardMessage frame) (by
        rw [view_inbox pending]
        exact List.mem_cons_self)
    exact isData_iff.mp (isData_of_forwardMessage.mpr message)
  cases dispatch with
  | data type client _ _ same =>
      rw [same]
      rcases done with past | now
      · exact connected past
      · rw [type] at now
        cases now
  | register type _ _ =>
      rcases done with past | now
      · rw [dataOnly past] at type
        cases type
      · rw [type] at now
        cases now
  | registerDone type client connects spawned _ =>
      rw [spawned]
      exact ⟨client, rfl, tableHolds_initial.onClientConnect _ connects⟩
  | other notData _ notDone same _ =>
      rcases done with past | now
      · exact absurd (dataOnly past) notData
      · exact absurd now notDone

/-- What is queued or taken from the queue in a round has a handler. -/
theorem outgoing_known
    (subscribers : ∀ frame ∈ system.downlink ++ system.queued,
      (table.subscriber? frame.header.topicId).isSome)
    (running : system.agent = some process) {input : IterationInput}
    (known : ∀ arrival ∈ input.beforeSize ++ input.beforePop,
      (table.subscriber? arrival.topicId).isSome) :
    ∀ frame ∈
      (takeOutbound process.loop.agent.toClientMsgQueue input).2 ++
        (takeOutbound process.loop.agent.toClientMsgQueue
          input).1.items.map OutboundMsg.frame,
      fitsFrame frame = true →
        (table.subscriber? frame.header.topicId).isSome := by
  intro frame member fits
  rw [takeOutbound_items] at member
  obtain ⟨message, inside, rfl⟩ := List.mem_map.mp member
  have source := (pushIncoming_suffix _ _).subset inside
  rcases List.mem_append.mp source with old | new
  · apply subscribers
    apply List.mem_append_right
    rw [queued_of_running running]
    exact List.mem_filter.mpr ⟨List.mem_map_of_mem old, fits⟩
  · obtain ⟨arrival, arrived, pushed⟩ := List.mem_filterMap.mp new
    have forwards := AgentHistory.forwards_of_callback pushed
    rw [forwards.topicId]
    exact known arrival arrived

section AfterRound

variable {round : AgentProcess.Round} {output : IterationOutput}
  {loop : AgentLoop} {input : IterationInput}

theorem afterRound_running (system : TwoParty) :
    (system.afterRound process round output).agent = some
      { loop := output.loop, transport := round.received.transport } := rfl

/-- The frame that is handled was the first under way to the agent. -/
theorem afterRound_underway (running : system.agent = some process)
    (pending : process.transport.pending system.flight =
      round.received.frame.toList ++
        round.received.transport.pending (round.left ++ system.board.unsent)) :
    system.underway = round.received.frame.toList ++
      (system.afterRound process round output).underway := by
  rw [underway_of_running running, pending]
  exact congrArg (_ ++ ·)
    (underway_of_running (afterRound_running system)).symm

theorem afterRound_dispatched (system : TwoParty) :
    (system.afterRound process round output).dispatched.map Dispatched.frame =
      system.dispatched.map Dispatched.frame ++
        round.received.frame.toList := by
  simp only [TwoParty.afterRound, TwoParty.reading, List.map_append,
    List.map_map]
  congr 1
  exact List.map_id _

/-- What is taken from the queue and fits is under way to the board. -/
theorem Linked.afterRound_downlink (linked : system.Linked table)
    (running : system.agent = some process)
    (received : AgentLoop.Receives rcl process.loop input.received loop
      output.published)
    (iterated : loop.Iterated input output)
    (answers : process.loop.Answers input.received output) :
    (system.afterRound process round output).downlink = system.downlink ++
      (takeOutbound process.loop.agent.toClientMsgQueue
        input).2.flatMap onLink := by
  have queued := (linked.process process running).queued
  rw [← received.queue] at queued
  obtain ⟨_, frames⟩ :=
    SerialTransport.append_sent output.sent linked.clears answers.counted
  simp only [downlink, TwoParty.afterRound, TwoParty.reading, frames,
    List.filter_append]
  rw [iterated.data queued, received.queue]

theorem afterRound_queued (system : TwoParty) {published : Option Publication}
    (received : AgentLoop.Receives rcl process.loop input.received loop
      published)
    (iterated : loop.Iterated input output) :
    (system.afterRound process round output).queued =
      ((takeOutbound process.loop.agent.toClientMsgQueue
        input).1.items.map OutboundMsg.frame).filter fitsFrame := by
  have taken : output.loop.agent.toClientMsgQueue =
      (takeOutbound process.loop.agent.toClientMsgQueue input).1 := by
    rw [iterated.agent, received.queue]
  rw [queued_of_running (afterRound_running system)]
  exact congrArg
    (fun queue => (queue.items.map OutboundMsg.frame).filter fitsFrame) taken

/-- What the round leaves to be handled by the board. -/
theorem Linked.afterRound_inbound (linked : system.Linked table)
    (running : system.agent = some process)
    (received : AgentLoop.Receives rcl process.loop input.received loop
      output.published)
    (iterated : loop.Iterated input output)
    (answers : process.loop.Answers input.received output) :
    (system.afterRound process round output).inbound table =
      system.downlink.filterMap table.callOf ++
        table.callsOf ((pushIncoming process.loop.agent.toClientMsgQueue
          (input.beforeSize ++ input.beforePop)).items.map
            OutboundMsg.frame) := by
  rw [inbound, linked.afterRound_downlink running received iterated answers,
    afterRound_queued system received iterated, List.filterMap_append,
    List.filterMap_append, table.callsOf_onLink, List.append_assoc,
    ← TopicTable.callsOf, ← table.callsOf_append, takeOutbound_items]

/-- What is under way to the board after a round has a handler. -/
theorem Linked.afterRound_subscribers (linked : system.Linked table)
    (subscribers : ∀ frame ∈ system.downlink ++ system.queued,
      (table.subscriber? frame.header.topicId).isSome)
    (running : system.agent = some process)
    (known : ∀ arrival ∈ input.beforeSize ++ input.beforePop,
      (table.subscriber? arrival.topicId).isSome)
    (received : AgentLoop.Receives rcl process.loop input.received loop
      output.published)
    (iterated : loop.Iterated input output)
    (answers : process.loop.Answers input.received output) :
    ∀ frame ∈ (system.afterRound process round output).downlink ++
        (system.afterRound process round output).queued,
      (table.subscriber? frame.header.topicId).isSome := by
  have outgoing := outgoing_known subscribers running known
  intro frame member
  rw [linked.afterRound_downlink running received iterated answers,
    afterRound_queued system received iterated] at member
  rcases List.mem_append.mp member with onTheLink | waiting
  · rcases List.mem_append.mp onTheLink with old | new
    · exact subscribers frame (List.mem_append_left _ old)
    · obtain ⟨sent, taken, arrives⟩ := List.mem_flatMap.mp new
      unfold onLink at arrives
      split at arrives
      next fits =>
        rw [List.mem_singleton.mp arrives]
        exact outgoing sent (List.mem_append_left _ taken)
          (by simpa [fitsFrame] using fits)
      · cases arrives
  · obtain ⟨inside, fits⟩ := List.mem_filter.mp waiting
    exact outgoing frame (List.mem_append_right _ inside) fits

theorem Serving.afterRound (serving : system.Serving table)
    (wellFormed : table.WellFormed) (running : system.agent = some process)
    (pending : process.transport.pending system.flight =
      round.received.frame.toList ++
        round.received.transport.pending (round.left ++ system.board.unsent))
    (handled : input.received = round.received.frame)
    (known : ∀ arrival ∈ input.beforeSize ++ input.beforePop,
      (table.subscriber? arrival.topicId).isSome)
    (received : AgentLoop.Receives rcl process.loop input.received loop
      output.published)
    (iterated : loop.Iterated input output)
    (answers : process.loop.Answers input.received output)
    (advances : system.Advances table anyOrder
      (system.afterRound process round output)) :
    (system.afterRound process round output).Serving table := by
  obtain ⟨together, opened, concludes⟩ := serving.advance wellFormed advances
  refine ⟨together, opened, concludes, serving.installed, ⟨_, rfl, ?_⟩, ?_,
    ?_⟩
  · rintro ⟨entry, member, done⟩
    have agent : output.loop.agent.Connected ↔ loop.agent.Connected := by
      rw [iterated.agent]
      rfl
    apply agent.mpr
    have past : DoneDispatched system.dispatched ∨
        ∃ frame ∈ round.received.frame,
          frame.header.type = NrosPacketType.registerDone.toByte := by
      rcases List.mem_append.mp member with old | new
      · exact .inl ⟨entry, old, done⟩
      · obtain ⟨frame, arrived, rfl⟩ := List.mem_map.mp new
        exact .inr ⟨frame, Option.mem_toList.mp arrived, done⟩
    rw [handled] at received
    generalize output.published = published at received
    cases arrived : round.received.frame with
    | none =>
        rw [arrived] at received past
        cases received
        rcases past with past | ⟨_, missing, _⟩
        · obtain ⟨other, otherRunning, connected⟩ := serving.running
          cases running.symm.trans otherRunning
          exact connected past
        · cases missing
    | some frame =>
        rw [arrived] at received past pending
        cases received with
        | frame dispatch =>
            apply serving.connected running pending dispatch
            rcases past with past | ⟨_, same, now⟩
            · exact .inl past
            · cases same
              exact .inr now
  · intro frame member
    apply serving.publishers frame
    rw [TwoParty.uplink, afterRound_underway running pending,
      List.filter_append]
    exact List.mem_append_right _ member
  · exact serving.together.linked.afterRound_subscribers serving.subscribers
      running known received iterated answers

end AfterRound

/-- A round ends without a fault. -/
theorem Serving.round_ok {round : AgentProcess.Round}
    {beforeSize beforePop : List Incoming} (serving : system.Serving table)
    (wellFormed : table.WellFormed) (createsAll : rcl.CreatesAll table)
    (running : system.agent = some process)
    (pending : process.transport.pending system.flight =
      round.received.frame.toList ++
        round.received.transport.pending (round.left ++ system.board.unsent))
    (outcome : round.outcome = process.loop.iterate rcl
      { received := round.received.frame, beforeSize, beforePop }) :
    ∃ output, round.outcome = .ok output := by
  rw [outcome]
  cases arrived : round.received.frame with
  | none => exact AgentLoop.iterate_ok rcl process.loop nofun
  | some frame =>
      rw [arrived] at pending
      obtain ⟨⟨agent, published⟩, dispatched⟩ :=
        serving.frameDispatch wellFormed createsAll running pending
      simp only [AgentLoop.iterate, AgentLoop.receive, dispatched]
      exact ⟨_, rfl⟩

/-- What is handled in a round is published as the table says. -/
theorem Serving.received_published {round : AgentProcess.Round}
    {loop : AgentLoop} {publication : Option Publication}
    (serving : system.Serving table) (wellFormed : table.WellFormed)
    (running : system.agent = some process)
    (pending : process.transport.pending system.flight =
      round.received.frame.toList ++
        round.received.transport.pending (round.left ++ system.board.unsent))
    (received : AgentLoop.Receives rcl process.loop round.received.frame loop
      publication) :
    publication.toList.map some =
      (round.received.frame.toList.filter isData).map table.publicationOf := by
  cases arrived : round.received.frame with
  | none =>
      rw [arrived] at received
      cases received
      rfl
  | some frame =>
      rw [arrived] at received pending
      cases received with
      | frame dispatch =>
          exact serving.published_eq wellFormed running pending dispatch

/-- How the queue's calls grow in a round. -/
theorem inbound_requested (running : system.agent = some process)
    (reads : List Nat) (beforeSize beforePop : List Incoming) :
    system.inbound table ++
        system.requested table (.agentRound reads beforeSize beforePop) =
      system.downlink.filterMap table.callOf ++ table.callsOf
        ((process.loop.agent.toClientMsgQueue.items ++
          (beforeSize ++ beforePop).filterMap Incoming.pushed?).map
            OutboundMsg.frame) := by
  rw [List.map_append, table.callsOf_append, table.callsOf_arrived,
    TwoParty.inbound, queued_of_running running, List.filterMap_append,
    List.append_assoc]
  rfl

/-- A round handles the next frame, if it has come, and sends the oldest
message of the queue. -/
theorem Serving.agentRound (serving : system.Serving table)
    (wellFormed : table.WellFormed) (createsAll : rcl.CreatesAll table)
    (reads : List Nat) {beforeSize beforePop : List Incoming}
    (known : ∀ arrival ∈ beforeSize ++ beforePop,
      (table.subscriber? arrival.topicId).isSome) :
    ∃ next, system.agentRound rcl reads beforeSize beforePop = some next ∧
      system.Moves table rcl (.agentRound reads beforeSize beforePop) next := by
  obtain ⟨process, running, _⟩ := serving.running
  have linked := serving.together.linked
  obtain ⟨round, result, outcome⟩ :=
    process.round_returns rcl system.toAgent reads beforeSize beforePop
  have read := AgentProcess.reads result
  have pending := (read.receives system.board.unsent).pending
  obtain ⟨output, finished⟩ :=
    serving.round_ok wellFormed createsAll running pending outcome
  obtain ⟨loop, received, iterated⟩ :=
    AgentLoop.iterated (outcome.symm.trans finished)
  have clean := serving.together.cleanStart reads
  have answers := linked.answers running clean read finished
  have inbound : (system.afterRound process round output).inbound table = _ :=
    linked.afterRound_inbound running received iterated answers
  have before : system.inbound table ++
      system.requested table (.agentRound reads beforeSize beforePop) = _ :=
    inbound_requested running reads beforeSize beforePop
  have underway : system.underway =
      _ ++ (system.afterRound process round output).underway :=
    afterRound_underway running pending
  have dispatched : (system.afterRound process round output).dispatched.map
      Dispatched.frame = _ := afterRound_dispatched system
  have published := serving.received_published wellFormed running pending
    received
  have put : system.roundOutput rcl reads beforeSize beforePop =
      some output := by
    simp [roundOutput, running, result, finished, Except.toOption]
  refine ⟨system.afterRound process round output, ?_, ?_, ?_, ?_, ?_, ?_,
    ?_, ?_⟩
  · simp only [TwoParty.agentRound, running, result, finished]
    rfl
  · exact serving.afterRound wellFormed running pending rfl known received
      iterated answers (linked.finishRound running clean read finished)
  · simp only [loaded, dispatched, underway, List.append_assoc,
      List.prefix_rfl]
  · rw [dispatched]
    exact List.prefix_append _ _
  · rw [delivered, delivered, dispatched, List.filter_append, List.map_append,
      ← published]
    simp [TwoParty.published, put]
  · rw [outbound, outbound, uplink, uplink, underway, List.filter_append,
      List.map_append, ← published]
    simp [TwoParty.published, put, submitted, accepted]
  · have kept := (pushIncoming_suffix process.loop.agent.toClientMsgQueue
      (beforeSize ++ beforePop)).sublist.map OutboundMsg.frame
    rw [inbound, before]
    exact ((kept.filter fitsFrame).filterMap table.callOf).append_left _
  · intro spacious
    have room := spacious process running
    rw [inbound, before, pushIncoming_items _ room]
    rfl

end Round

/-- Every permitted step is defined. -/
theorem Serving.step {event : PartyEvent} (serving : system.Serving table)
    (wellFormed : table.WellFormed) (createsAll : rcl.CreatesAll table)
    (permitted : event.Permitted table) :
    ∃ next, system.step table rcl event = some next ∧
      system.Moves table rcl event next := by
  cases event with
  | rxPoll count => exact serving.rxPoll wellFormed count
  | txPoll accepted => exact ⟨_, rfl, serving.txPoll wellFormed accepted⟩
  | publish topicId serialized =>
      exact ⟨_, rfl, serving.publish wellFormed permitted serialized⟩
  | agentRound reads beforeSize beforePop =>
      exact serving.agentRound wellFormed createsAll reads permitted

end Steps

/-! ## Runs -/

theorem serving_initial (table : TopicTable) :
    (initial table).Serving table where
  together := together_initial table
  opened := nofun
  concludes := by
    refine ⟨?_, ?_, nofun⟩
    · intro receiver running data
      cases running
      cases data
    · intro receiver running done
      cases running
      cases done
  installed := rfl
  running := ⟨_, rfl, nofun⟩
  publishers := nofun
  subscribers := nofun

section Runs

variable {table : TopicTable} {rcl : Rclcpp} {events : List PartyEvent}

theorem Serving.advances (wellFormed : table.WellFormed)
    (createsAll : rcl.CreatesAll table) (system : TwoParty)
    (event : PartyEvent) (serving : system.Serving table)
    (permitted : event.Permitted table) :
    ∃ next, system.step table rcl event = some next ∧ next.Serving table := by
  obtain ⟨next, stepped, moves⟩ :=
    serving.step wellFormed createsAll permitted
  exact ⟨next, stepped, moves.serving⟩

theorem Serving.moves (wellFormed : table.WellFormed)
    (createsAll : rcl.CreatesAll table) (system : TwoParty)
    (event : PartyEvent) (next : TwoParty) (serving : system.Serving table)
    (permitted : event.Permitted table)
    (stepped : system.step table rcl event = some next) :
    system.Moves table rcl event next := by
  obtain ⟨other, otherStep, moves⟩ :=
    serving.step wellFormed createsAll permitted
  cases stepped.symm.trans otherStep
  exact moves

/-- What has become a publication, and what is under way, is what was
submitted. -/
theorem submitted_balance (wellFormed : table.WellFormed)
    (createsAll : rcl.CreatesAll table)
    (permitted : ∀ event ∈ events, event.Permitted table) {final : TwoParty}
    (run : exec (step table rcl) (initial table) events = some final) :
    record (step table rcl)
          (fun system event => (system.published rcl event).map some)
          (initial table) events ++
        final.outbound table =
      record (step table rcl) (submitted table) (initial table) events := by
  have respected : Along (step table rcl) (fun _ event =>
      event.Permitted table) (initial table) events :=
    along_of_forall_mem permitted (initial table)
  have moves := Serving.moves wellFormed createsAll
  exact record_balance
    (fun state event next serving allowed stepped =>
      (moves state event next serving allowed stepped).serving)
    (fun state event next serving allowed stepped =>
      (moves state event next serving allowed stepped).up)
    (serving_initial table) respected run

end Runs

/-- With a table the firmware can be built with, and rclcpp creating its
handles, no run from power-up comes to a fault on either side. -/
theorem runs_without_fault (table : TopicTable) (rcl : Rclcpp)
    (wellFormed : table.WellFormed) (createsAll : rcl.CreatesAll table)
    (events : List PartyEvent)
    (permitted : ∀ event ∈ events, event.Permitted table) :
    ∃ final, exec (step table rcl) (initial table) events = some final ∧
      final.agent.isSome := by
  obtain ⟨final, run, serving⟩ := exec_total
    (Serving.advances wellFormed createsAll) (serving_initial table)
    (along_of_forall_mem permitted (initial table))
  obtain ⟨process, running, _⟩ := serving.running
  exact ⟨final, run, running ▸ rfl⟩

/-- A message of two bytes, as its serializer leaves it. -/
def twoBytes : SerializeResult :=
  ⟨true, [0x2A, 0x2B], Nat.le_of_ble_eq_true rfl⟩

/-- Two topics are registered with split reads and writes; then the board
publishes a message, and one arrives for it. -/
def conversation : List PartyEvent :=
  [.agentRound [] [] [], .rxPoll 64, .txPoll 1024, .agentRound [256] [] [],
    .rxPoll 3, .rxPoll 64, .txPoll 5, .agentRound [256] [] [], .txPoll 1024,
    .agentRound [256] [] [], .rxPoll 64, .txPoll 1024,
    .agentRound [256] [] [], .publish 127 twoBytes, .txPoll 1024,
    .agentRound [7, 256] [⟨0, [0x00, 0x01, 0x00, 0x00, 0x07]⟩] [],
    .rxPoll 64]

theorem pingPong_wellFormed : Codegen.pingPong.table.WellFormed :=
  ⟨by decide, ⟨by decide, by decide⟩, by decide, by decide, by decide⟩

theorem Rclcpp.willing_createsAll (table : TopicTable) :
    Rclcpp.willing.CreatesAll table := by
  intro topic _
  split <;> rfl

theorem runs_without_fault_conversation :
    ∃ final, exec (step Codegen.pingPong.table Rclcpp.willing)
        (initial Codegen.pingPong.table) conversation = some final ∧
      final.agent.isSome :=
  runs_without_fault Codegen.pingPong.table Rclcpp.willing
    pingPong_wellFormed (Rclcpp.willing_createsAll _) conversation
    (by decide +kernel)

/-- What ROS has got from the board, followed by what is under way to it, is
what `nros_publish` accepted: nothing is lost, doubled, reordered or altered,
and each payload comes out at the publisher of its topic. -/
theorem publishes_delivered (table : TopicTable) (rcl : Rclcpp)
    (wellFormed : table.WellFormed) (createsAll : rcl.CreatesAll table)
    (events : List PartyEvent)
    (permitted : ∀ event ∈ events, event.Permitted table)
    (final : TwoParty)
    (run : exec (step table rcl) (initial table) events = some final) :
    (record (step table rcl) (published rcl) (initial table) events).map some ++
        final.uplink.map table.publicationOf =
      (record (step table rcl) accepted (initial table) events).map
        fun (topicId, payload) => table.publication topicId payload := by
  rw [← record_map, ← record_map]
  exact submitted_balance wellFormed createsAll permitted run

theorem publishes_delivered_conversation :
    ∃ final, exec (step Codegen.pingPong.table Rclcpp.willing)
        (initial Codegen.pingPong.table) conversation = some final ∧
      final.uplink = [] ∧
      (record (step Codegen.pingPong.table Rclcpp.willing)
          (published Rclcpp.willing)
          (initial Codegen.pingPong.table) conversation).map some ++
        final.uplink.map Codegen.pingPong.table.publicationOf =
      (record (step Codegen.pingPong.table Rclcpp.willing) accepted
          (initial Codegen.pingPong.table) conversation).map
        fun (topicId, payload) =>
          Codegen.pingPong.table.publication topicId payload := by
  have returns : ∃ final ∈ exec
      (step Codegen.pingPong.table Rclcpp.willing)
      (initial Codegen.pingPong.table) conversation, final.uplink = [] := by
    decide +kernel
  obtain ⟨final, run, empty⟩ := returns
  refine ⟨final, run, empty, ?_⟩
  exact publishes_delivered Codegen.pingPong.table Rclcpp.willing
    pingPong_wellFormed (Rclcpp.willing_createsAll _) conversation
    (by decide +kernel) final run

example : (record (step Codegen.pingPong.table Rclcpp.willing)
    (published Rclcpp.willing) (initial Codegen.pingPong.table)
    conversation).map (·.payload) =
      [[0x00, 0x01, 0x00, 0x00, 0x2A, 0x2B]] := by
  decide +kernel

/-- The handler calls on the board, followed by those under way to it, are
calls that ROS messages were to cause, in the order in which these arrived:
none is doubled or altered, and none is lost unless the queue overflows. -/
theorem messages_handled (table : TopicTable) (rcl : Rclcpp)
    (wellFormed : table.WellFormed) (createsAll : rcl.CreatesAll table)
    (events : List PartyEvent)
    (permitted : ∀ event ∈ events, event.Permitted table)
    (final : TwoParty)
    (run : exec (step table rcl) (initial table) events = some final) :
    (record (step table rcl) (handled table) (initial table) events ++
        final.inbound table).Sublist
      ((record (step table rcl) arrived (initial table) events).filterMap
        (Incoming.handlerCall table)) ∧
    (Along (step table rcl) Spacious (initial table) events →
      record (step table rcl) (handled table) (initial table) events ++
          final.inbound table =
        (record (step table rcl) arrived (initial table) events).filterMap
          (Incoming.handlerCall table)) := by
  have respected : Along (step table rcl) (fun _ event =>
      event.Permitted table) (initial table) events :=
    along_of_forall_mem permitted (initial table)
  have moves := Serving.moves wellFormed createsAll
  have preserved (state : TwoParty) (event : PartyEvent) (next : TwoParty)
      (serving : state.Serving table) (allowed : event.Permitted table)
      (stepped : state.step table rcl event = some next) :
      next.Serving table :=
    (moves state event next serving allowed stepped).serving
  rw [← record_filterMap]
  constructor
  · exact record_sublist preserved
      (fun state event next serving allowed stepped =>
        (moves state event next serving allowed stepped).down)
      (serving_initial table) respected run
  · intro spacious
    exact record_balance
      (fun state event next serving allowed stepped =>
        preserved state event next serving allowed.1 stepped)
      (fun state event next serving allowed stepped =>
        (moves state event next serving allowed.1 stepped).exact allowed.2)
      (serving_initial table) (respected.and spacious) run

theorem messages_handled_conversation :
    ∃ final, exec (step Codegen.pingPong.table Rclcpp.willing)
        (initial Codegen.pingPong.table) conversation = some final ∧
      record (step Codegen.pingPong.table Rclcpp.willing)
          (handled Codegen.pingPong.table) (initial Codegen.pingPong.table)
          conversation ++ final.inbound Codegen.pingPong.table =
        (record (step Codegen.pingPong.table Rclcpp.willing)
          arrived (initial Codegen.pingPong.table) conversation).filterMap
            (Incoming.handlerCall Codegen.pingPong.table) := by
  have returns : ∃ final ∈ exec
      (step Codegen.pingPong.table Rclcpp.willing)
      (initial Codegen.pingPong.table) conversation, True := by
    decide +kernel
  obtain ⟨final, run, _⟩ := returns
  refine ⟨final, run, ?_⟩
  apply (messages_handled Codegen.pingPong.table Rclcpp.willing
    pingPong_wellFormed (Rclcpp.willing_createsAll _) conversation
    (by decide +kernel) final run).2
  decide +kernel

end TwoParty

end NanoRos
