import NanoRos.Foundation.Entries
import NanoRos.BoardInvariant
import NanoRos.DataPlane

/-!
# What each step does to the messages under way

The board loads a DATA frame only when it accepts a publish, and calls a
handler for each DATA frame it reads; a round of the agent takes at most one
frame off the link and sends what it takes from its queue.
-/

namespace NanoRos

open Board PartialRun StopAndWait
open ClientHandlerNode
open NrosStreamParser (Clears framesOf framesOf_append feedByte)
open SerialTransport (Counted frameBytes onLink)
open Transducer (after emitted)

/-! ## The table -/

/-- The handle behind a topic, as the board and the agent agree on it. -/
def TopicKey.handle (key : TopicKey) (serial : Nat) : RosHandle :=
  { topicName := key.topicName
    msgType := key.typeName
    qos := qosFromWire key.qos
    serial }

theorem TopicTable.publisher?_keys (table : TopicTable) (topicId : UInt8) :
    table.publisher? topicId =
      if isPublisherId topicId then
        (table.keys.zipIdx.find? (·.1.id = topicId)).map
          fun (key, serial) => key.handle serial
      else none := by
  rw [publisher?, keys, List.zipIdx_map, List.find?_map, Option.map_map]
  rfl

theorem lastRegistered_keys (topicId : UInt8) {topics : List Topic}
    (distinct : ((topics.map Topic.key).map TopicKey.id).Nodup) :
    (lastRegistered topicId topics).map (fun (t, serial) => (t.key, serial)) =
      (topics.map Topic.key).zipIdx.find? (·.1.id = topicId) := by
  have ids : (topics.zipIdx.map fun entry => entry.1.id).Nodup := by
    have same : (topics.zipIdx.map fun entry => entry.1.id) =
        (topics.map Topic.key).map TopicKey.id := by
      conv_rhs => rw [← List.zipIdx_map_fst 0 topics]
      rw [List.map_map, List.map_map]
      rfl
    rw [same]
    exact distinct
  rw [lastRegistered, Entries.getLast?_filter_label ids, List.zipIdx_map,
    List.find?_map]
  rfl

/-- With distinct ids the agent publishes what the table says. -/
theorem expectedPublication_eq {table : TopicTable} {topics : List Topic}
    (agree : topics.map Topic.key = table.keys)
    (distinct : (table.topics.map NrosTopic.topicId).Nodup)
    (frame : WireFrame) :
    expectedPublication topics frame =
      table.publication frame.header.topicId frame.payload := by
  have ids : (table.keys.map TopicKey.id).Nodup := by
    rw [TopicTable.keys, List.map_map]
    exact distinct
  have found := @lastRegistered_keys frame.header.topicId topics
    (agree ▸ ids)
  rw [TopicTable.publication, TopicTable.publisher?_keys, ← agree, ← found,
    expectedPublication]
  cases lastRegistered frame.header.topicId topics with
  | none => split <;> rfl
  | some entry =>
      cases isPublisherId frame.header.topicId <;> rfl

/-! ## The board -/

/-- No DATA is loaded when a frame is heard. -/
theorem Board.Hears.loads_no_data {table : TopicTable} {before after : Board}
    {message : Backward} {loaded : Option Frame}
    (hears : before.Hears table message after loaded) :
    loaded.toList.filter isData = [] := by
  rw [List.filter_eq_nil_iff]
  intro frame member data
  have answers := before.sender.hear_ne_data table.keys message
  rw [hears.sender] at answers
  exact answers _ (List.mem_map_of_mem member)
    (isData_of_forwardMessage.mp data)

section Uplink

variable {table : TopicTable} {system next : TwoParty}
  {process : AgentProcess}

theorem TwoParty.underway_of_running (running : system.agent = some process) :
    system.underway = process.transport.pending system.flight := by
  simp [underway, running]

theorem TwoParty.uplink_of_running (running : system.agent = some process) :
    system.uplink =
      (process.transport.pending system.flight).filter isData := by
  rw [uplink, underway_of_running running]

theorem TwoParty.queued_of_running (running : system.agent = some process) :
    system.queued =
      (process.loop.agent.toClientMsgQueue.items.map OutboundMsg.frame).filter
        fitsFrame := by
  simp [queued, running]

/-- A frame that the board loads is under way to the agent. -/
theorem TwoParty.Linked.underway_post (linked : system.Linked table)
    (running : system.agent = some process)
    (agent : next.agent = system.agent)
    (toAgent : next.toAgent = system.toAgent) {loaded : Option Frame}
    (appends : system.board.Appends next.board loaded) :
    next.underway = system.underway ++ loaded.toList := by
  have flight : next.flight =
      system.flight ++ loaded.toList.flatMap Frame.encoded := by
    rw [TwoParty.flight, TwoParty.flight, toAgent, appends.unsent,
      List.append_assoc]
  rw [underway_of_running running,
    underway_of_running (agent.trans running), flight]
  cases loaded with
  | none => simp
  | some frame =>
      obtain ⟨_, frames⟩ := (linked.process process running).clears.append_frame
        (appends.deliverable frame rfl)
      simp only [Option.toList_some, List.flatMap_cons, List.flatMap_nil,
        List.append_nil, SerialTransport.pending, frames]
      rw [List.append_assoc]

theorem TwoParty.underway_congr (agent : next.agent = system.agent)
    (flight : next.flight = system.flight) :
    next.underway = system.underway := by
  rw [underway, underway, agent, flight]

theorem Board.parser_txPoll {board : Board} (settled : board.Settled)
    (accepted : Nat) : (board.txPoll accepted).1.parser = board.parser :=
  (txStep settled accepted).session.1

theorem Board.parser_publish (board : Board) (topicId : UInt8)
    (serialized : SerializeResult) :
    (board.nrosPublish topicId serialized).2.parser = board.parser := by
  have published := publishStep board topicId serialized
  generalize board.nrosPublish topicId serialized = outcome at published ⊢
  exact published.session.1

theorem TwoParty.Linked.underway_txPoll (linked : system.Linked table)
    (accepted : Nat) : (system.txPoll accepted).underway = system.underway := by
  have step := txStep linked.settled accepted
  apply underway_congr (by rfl)
  simp only [TwoParty.txPoll, TwoParty.flight, List.append_assoc, step.flight]

/-- An accepted publish goes behind the frames under way; another leaves no
trace. -/
theorem TwoParty.Linked.underway_publish (linked : system.Linked table)
    (running : system.agent = some process) (topicId : UInt8)
    (serialized : SerializeResult) :
    (system.publish topicId serialized).underway = system.underway ++
      if (system.board.nrosPublish topicId serialized).1 then
        [dataFrame topicId serialized.bytes]
      else [] := by
  have step := publishStep system.board topicId serialized
  unfold TwoParty.publish
  generalize system.board.nrosPublish topicId serialized = outcome at step ⊢
  obtain ⟨accepted, board⟩ := outcome
  have appends : system.board.Appends board
      (if accepted then some (dataFrame topicId serialized.bytes)
        else none) := by
    cases step with
    | busy _ same =>
        rw [same]
        exact ⟨(List.append_nil _).symm, nofun, nofun⟩
    | failed idle _ stillIdle _ _ =>
        refine ⟨?_, nofun, nofun⟩
        rw [unsent_of_idle stillIdle, unsent_of_idle idle]
        rfl
    | loaded idle _ _ sending start _ _ _ =>
        exact .of_sending idle sending start
  have agent : TwoParty.agent { system with board } = system.agent := rfl
  rw [linked.underway_post running agent rfl appends]
  cases accepted <;> rfl

/-- Reading loads at most one frame, which is no DATA, and only when nothing
is being sent. -/
theorem TwoParty.Together.rxByte_appends (together : system.Together table)
    (registrable : table.Registrable)
    (stepped : system.rxPoll table 1 = some next) :
    ∃ loaded, system.board.Appends next.board loaded ∧
      loaded.toList.filter isData = [] := by
  cases TwoParty.rxByte stepped with
  | silent parser toBoard moved frames ends =>
      rw [moved]
      exact ⟨none, ⟨(List.append_nil _).symm, nofun, nofun⟩, rfl⟩
  | dispatched arrives frame board dispatch parser toBoard moved frames ends =>
      have heard : backwardMessage frame ∈ system.view.outbox.head? := by
        simp only [TwoParty.view, frames, List.map_cons, List.head?_cons]
        rfl
      obtain ⟨loaded, hears⟩ := dispatch.hears registrable
        together.linked.inside (by
          intro ack awaiting active
          exact busy_eq_false_iff.mp
            (together.clear _ heard ack awaiting active))
      rw [moved]
      exact ⟨loaded, hears.appends.moveParser parser, hears.loads_no_data⟩

theorem TwoParty.Together.underway_rxByte (together : system.Together table)
    (registrable : table.Registrable)
    (running : system.agent = some process)
    (stepped : system.rxPoll table 1 = some next) :
    ∃ loaded : List Frame, next.underway = system.underway ++ loaded ∧
      loaded.filter isData = [] := by
  obtain ⟨loaded, appends, noData⟩ :=
    together.rxByte_appends registrable stepped
  obtain ⟨agent, toAgent, _⟩ := rxPoll_agent stepped
  exact ⟨loaded.toList,
    together.linked.underway_post running agent toAgent appends, noData⟩

end Uplink

/-! ## Handler calls -/

/-- The map that `nros_init` installs. -/
def Board.Installed (table : TopicTable) (board : Board) : Prop :=
  board.topicMap = (Board.initial table).topicMap

section Downlink

variable {table : TopicTable} {board : Board} {system next : TwoParty}

theorem Board.Installed.load? (installed : board.Installed table)
    (distinct : (table.topics.map NrosTopic.topicId).Nodup)
    (topicId : UInt8) :
    (board.topicMap.load? topicId.toNat).join =
      table.topics.find? (·.topicId = topicId) := by
  have map : board.topicMap =
      Codegen.installTopics table.topics (.filled 256 none) := installed
  rw [map, Codegen.load?_installTopics, Entries.find?_reverse_label distinct]
  cases table.topics.find? (·.topicId = topicId) with
  | none =>
      rw [Buffer.load?_filled _ topicId.toNat_lt]
      rfl
  | some topic => rfl

/-- A DATA frame calls the handler of its id, if that is a subscriber's. -/
theorem Board.Installed.dispatchData (installed : board.Installed table)
    (distinct : (table.topics.map NrosTopic.topicId).Nodup) (frame : Frame) :
    (board.dispatchData frame).toOption =
      table.handlerCall frame.header.topicId frame.payload := by
  rw [Board.dispatchData, installed.load? distinct, TopicTable.handlerCall,
    TopicTable.subscriber?]
  cases table.topics.find? (·.topicId = frame.header.topicId) with
  | none => rfl
  | some topic => cases h : topic.cb <;> simp [h, Except.toOption]

theorem Board.Installed.dispatch {after : Board} {frame : Frame}
    (installed : board.Installed table)
    (step : board.DispatchStep table frame after) :
    after.Installed table := by
  rw [Board.Installed, Codegen.dispatchStep_topicMap step]
  exact installed

/-- The call that a DATA frame is to cause. -/
def TopicTable.callOf (table : TopicTable) (frame : Frame) :
    Option HandlerCall :=
  table.handlerCall frame.header.topicId frame.payload

theorem Board.Installed.handlerCalls {after : Board} (events : List FrameEvent)
    (installed : board.Installed table)
    (distinct : (table.topics.map NrosTopic.topicId).Nodup)
    (dispatched : dispatchEach table board events = .ok after) :
    board.handlerCalls table events =
        ((events.map FrameEvent.frame).filter isData).filterMap table.callOf ∧
      after.Installed table := by
  induction events generalizing board with
  | nil =>
      cases dispatched
      exact ⟨rfl, installed⟩
  | cons event events induction =>
      unfold dispatchEach at dispatched
      simp only [List.foldl_cons, onFrameCb] at dispatched
      cases result : nrosDispatch table board event.frame with
      | error fault =>
          rw [result, foldl_onFrameCb_error] at dispatched
          cases dispatched
      | ok middle =>
          rw [result] at dispatched
          obtain ⟨later, kept⟩ := induction
            (installed.dispatch (dispatchStep result)) dispatched
          refine ⟨?_, kept⟩
          have call := installed.dispatchData distinct event.frame
          rw [Board.handlerCalls, result, call, List.map_cons]
          simp only [later]
          cases data : isData event.frame with
          | false => simp [data]
          | true =>
              rw [List.filter_cons_of_pos data, List.filterMap_cons,
                if_pos rfl]
              rw [← TopicTable.callOf]
              cases table.callOf event.frame <;> rfl

/-- What is read is handled in order, and the rest stays on the link. -/
theorem TwoParty.downlink_rxPoll {count : Nat}
    (installed : system.board.Installed table)
    (distinct : (table.topics.map NrosTopic.topicId).Nodup)
    (stepped : system.rxPoll table count = some next) :
    system.board.handlerCalls table
          (emitted feedByte system.board.parser (system.toBoard.take count)) ++
        next.downlink.filterMap table.callOf =
      system.downlink.filterMap table.callOf ∧
    next.downlink <:+ system.downlink ∧ next.board.Installed table := by
  unfold rxPoll at stepped
  rw [rxPoll_eq] at stepped
  generalize events : emitted feedByte system.board.parser
    (system.toBoard.take count) = read at stepped ⊢
  cases dispatched : dispatchEach table system.board read with
  | error fault =>
      rw [dispatched] at stepped
      cases stepped
  | ok board =>
      rw [dispatched] at stepped
      cases stepped
      obtain ⟨calls, kept⟩ := installed.handlerCalls read distinct dispatched
      have frames : system.board.parser.framesOf system.toBoard =
          read.map FrameEvent.frame ++
            framesOf (after feedByte system.board.parser
              (system.toBoard.take count)) (system.toBoard.drop count) := by
        rw [← events, ← framesOf, ← framesOf_append, List.take_append_drop]
      have split : system.downlink =
          (read.map FrameEvent.frame).filter isData ++ downlink { system with
            board := { board with
              parser := after feedByte system.board.parser
                (system.toBoard.take count) }
            toBoard := system.toBoard.drop count } := by
        rw [downlink, downlink, frames, List.filter_append]
      refine ⟨?_, ⟨_, split.symm⟩, kept⟩
      rw [calls, split, List.filterMap_append]

/-- A frame on the link is dispatched without a fault, if DATA has a
handler. -/
theorem Board.Installed.dispatch_returns (installed : board.Installed table)
    (wellFormed : table.WellFormed) {frame : Frame}
    (handler : isData frame = true →
      (table.subscriber? frame.header.topicId).isSome) :
    ∃ after, nrosDispatch table board frame = .ok after := by
  by_cases ack : frame.header.type = NrosPacketType.ack.toByte
  · exact ack_returns table board ack
  by_cases discover : frame.header.type = NrosPacketType.discover.toByte
  · simp only [nrosDispatch, discover, NrosPacketType.ofByte?_toByte,
      registerTopicsStart]
    split
    next failed =>
      split at failed
      · cases failed
      · have returns : ∃ loaded, loadNextRegistrationFrame table
            board.startRegistration = .ok loaded :=
          load_returns (.inr (List.length_pos_iff.mpr wellFormed.nonempty))
        obtain ⟨loaded, returns⟩ := returns
        rw [returns] at failed
        cases failed
    · exact ⟨_, rfl⟩
  · by_cases data : isData frame = true
    · have call := installed.dispatchData wellFormed.distinct frame
      obtain ⟨pointer, found⟩ := Option.isSome_iff_exists.mp (handler data)
      rw [TopicTable.handlerCall, found] at call
      simp only [nrosDispatch, isData_iff.mp data,
        NrosPacketType.ofByte?_toByte]
      cases returned : board.dispatchData frame with
      | ok call => exact ⟨board, rfl⟩
      | error fault =>
          rw [returned] at call
          cases call
    · refine ⟨board, ?_⟩
      unfold nrosDispatch
      split
      next kind =>
        exact absurd (isData_iff.mpr
          (NrosPacketType.ofByte?_eq_some_iff.mp kind)) data
      next kind =>
        exact absurd (NrosPacketType.ofByte?_eq_some_iff.mp kind) ack
      next kind =>
        exact absurd (NrosPacketType.ofByte?_eq_some_iff.mp kind) discover
      all_goals rfl

theorem Board.Installed.dispatchEach_returns (events : List FrameEvent)
    (installed : board.Installed table) (wellFormed : table.WellFormed)
    (handlers : ∀ event ∈ events, isData event.frame = true →
      (table.subscriber? event.frame.header.topicId).isSome) :
    ∃ after, dispatchEach table board events = .ok after := by
  induction events generalizing board with
  | nil => exact ⟨board, rfl⟩
  | cons event events induction =>
      obtain ⟨middle, dispatched⟩ := installed.dispatch_returns wellFormed
        (handlers event List.mem_cons_self)
      obtain ⟨after, later⟩ := induction
        (installed.dispatch (dispatchStep dispatched))
        fun other member => handlers other (List.mem_cons_of_mem _ member)
      refine ⟨after, ?_⟩
      rw [← later, dispatchEach, List.foldl_cons, onFrameCb, dispatched]
      rfl

end Downlink

end NanoRos
