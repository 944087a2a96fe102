import NanoRos.Foundation.Entries
import NanoRos.HaltedRegistration

/-!
# Runs on noisy links

Detected noise costs messages, but none is doubled, altered or reordered, and
the agent never takes a part of the board's topics for all of them.  Noise that
hits the registration ends it: nothing is sent twice, so the two parties wait
for each other until the agent is started anew.
-/

namespace NanoRos

open Board PartialRun StopAndWait
open ClientHandlerNode
open NrosStreamParser (Clears framesOf framesOf_append feedByte)
open Transducer (after emitted)

namespace TwoParty

/-! ## Runs -/

/-- What the parties' steps show. -/
def during {α : Type*} (shows_ : TwoParty → PartyEvent → List α)
    (system : TwoParty) : NoisyEvent → List α
  | .party event => shows_ system event
  | .toAgent _ | .toBoard _ => []

/-- The publications still expected of a system: those under way, and none
once it is halted. -/
inductive Expecting (table : TopicTable) (system : TwoParty) :
    List (Option Publication) → Prop
  | serving (serving : system.Serving table) :
      Expecting table system (system.outbound table)
  | halted (halted : system.Halted table) : Expecting table system []

/-- What one event does, noise or not. -/
structure NoisyMoves (table : TopicTable) (rcl : Rclcpp) (system : TwoParty)
    (event : NoisyEvent) (expected : List (Option Publication))
    (next : TwoParty) : Prop where
  traceable : next.Traceable
  down : (during (handled table) system event ++ next.inbound table).Sublist
    (system.inbound table ++ during (requested table) system event)
  up : ∃ left, next.Expecting table left ∧
    ((during (published rcl) system event).map some ++ left).Sublist
      (expected ++ during (submitted table) system event)

section Runs

variable {table : TopicTable} {rcl : Rclcpp} {system next : TwoParty}
  {event : NoisyEvent}

theorem Disturbed.moves (disturbed : Disturbed table system next)
    (traceable : system.Traceable) {expected : List (Option Publication)}
    (nonempty : table.topics ≠ []) (expecting : system.Expecting table expected)
    (down : during (handled table) system event = [])
    (up : during (published rcl) system event = []) :
    system.NoisyMoves table rcl event expected next := by
  refine ⟨disturbed.traceable traceable, ?_, ?_⟩
  · rw [down]
    exact disturbed.inbound.trans (List.sublist_append_left _ _)
  · rw [up]
    cases expecting with
    | halted halted =>
        exact ⟨[], .halted (disturbed.halted halted), List.nil_sublist _⟩
    | serving serving =>
        have enrolled : Enrolled table.keys system.view :=
          ⟨serving.together.agreed, serving.opened⟩
        rcases enrolled.lossyStep (by simpa [TopicTable.keys] using nonempty)
          disturbed.step with stillEnrolled | stalled
        · refine ⟨_, .serving (disturbed.serving serving stillEnrolled), ?_⟩
          exact disturbed.outbound.trans (List.sublist_append_left _ _)
        · exact ⟨[], .halted (disturbed.halts serving stalled),
            List.nil_sublist _⟩

/-- Every expected event is defined. -/
theorem Expecting.step {expected : List (Option Publication)}
    (traceable : system.Traceable) (expecting : system.Expecting table expected)
    (wellFormed : table.WellFormed) (createsAll : rcl.CreatesAll table)
    (allowed : system.Expected table event) :
    ∃ next, system.noisyStep table rcl event = some next ∧
      system.NoisyMoves table rcl event expected next := by
  cases event with
  | toAgent noisy =>
      exact ⟨_, rfl, (disturbed_toAgent traceable allowed).moves traceable
        wellFormed.nonempty expecting rfl rfl⟩
  | toBoard noisy =>
      exact ⟨_, rfl, (disturbed_toBoard traceable allowed).moves traceable
        wellFormed.nonempty expecting rfl rfl⟩
  | party event =>
      obtain ⟨permitted, alive⟩ := allowed
      cases expecting with
      | serving serving =>
          obtain ⟨next, stepped, moves⟩ :=
            serving.step wellFormed createsAll permitted
          refine ⟨next, stepped,
            traceable.step serving.together.linked stepped, moves.down, ?_⟩
          exact ⟨_, .serving moves.serving, by rw [during, moves.up]; rfl⟩
      | halted halted =>
          obtain ⟨next, stepped, idles⟩ :=
            halted.step traceable wellFormed permitted alive
          refine ⟨next, stepped, traceable.step halted.carrying.linked stepped,
            idles.calls, ?_⟩
          refine ⟨[], .halted idles.halted, ?_⟩
          rw [during, idles.silent]
          exact List.nil_sublist _

theorem Expecting.moves {expected : List (Option Publication)}
    (traceable : system.Traceable) (expecting : system.Expecting table expected)
    (wellFormed : table.WellFormed) (createsAll : rcl.CreatesAll table)
    (allowed : system.Expected table event)
    (stepped : system.noisyStep table rcl event = some next) :
    system.NoisyMoves table rcl event expected next := by
  obtain ⟨other, otherStep, moves⟩ :=
    expecting.step traceable wellFormed createsAll allowed
  cases stepped.symm.trans otherStep
  exact moves

/-- What holds of all that the agent accepts, with or without noise. -/
theorem Expecting.accepted {expected : List (Option Publication)}
    (expecting : system.Expecting table expected) :
    (∀ process, system.agent = some process →
        process.loop.agent.newTopics.map Topic.key <+: table.keys) ∧
      ∀ entry ∈ system.dispatched,
        entry.frame.header.type = NrosPacketType.registerDone.toByte →
          entry.newTopics.map Topic.key = table.keys := by
  have either : Enrolled table.keys system.view ∨
      Stalled table.keys system.view := by
    cases expecting with
    | serving serving => exact .inl ⟨serving.together.agreed, serving.opened⟩
    | halted halted => exact .inr halted.stalled
  obtain ⟨beginning, whole⟩ := agreement_of_lossy either
  constructor
  · intro process running
    exact beginning _ (view_receiver running)
  · intro entry member done
    exact whole entry.message (List.mem_map_of_mem member)
      (forwardMessage_done done)

theorem during_map {α β : Type*} (shows_ : TwoParty → PartyEvent → List α)
    (label : α → β) (system : TwoParty) (event : NoisyEvent) :
    (during shows_ system event).map label =
      during (fun system event => (shows_ system event).map label) system
        event := by
  cases event <;> rfl

theorem during_filterMap {α β : Type*}
    (shows_ : TwoParty → PartyEvent → List α) (label : α → Option β)
    (system : TwoParty) (event : NoisyEvent) :
    (during shows_ system event).filterMap label =
      during (fun system event => (shows_ system event).filterMap label)
        system event := by
  cases event <;> rfl

/-- What is known of a system in a noisy run. -/
structure Noisy (table : TopicTable) (expected : List (Option Publication))
    (system : TwoParty) : Prop where
  traceable : system.Traceable
  expecting : system.Expecting table expected

theorem noisy_initial (table : TopicTable) : (initial table).Noisy table [] :=
  ⟨traceable_initial table, .serving (serving_initial table)⟩

theorem Noisy.after {expected : List (Option Publication)}
    (noisy : system.Noisy table expected) (wellFormed : table.WellFormed)
    (createsAll : rcl.CreatesAll table)
    (allowed : system.Expected table event)
    (stepped : system.noisyStep table rcl event = some next) :
    ∃ left, next.Noisy table left := by
  have moves := noisy.expecting.moves noisy.traceable wellFormed createsAll
    allowed stepped
  obtain ⟨left, expecting, _⟩ := moves.up
  exact ⟨left, moves.traceable, expecting⟩

section Run

variable {events : List NoisyEvent}

theorem noisy_run_returns (wellFormed : table.WellFormed)
    (createsAll : rcl.CreatesAll table) {start : TwoParty}
    {expected : List (Option Publication)}
    (noisy : start.Noisy table expected)
    (allowed : Along (noisyStep table rcl) (Expected table) start events) :
    ∃ final, exec (noisyStep table rcl) start events = some final ∧
      ∃ left, final.Noisy table left := by
  refine exec_total (fun state event kept allowed => ?_) ⟨expected, noisy⟩
    allowed
  obtain ⟨items, noisy⟩ := kept
  obtain ⟨next, stepped, _⟩ :=
    noisy.expecting.step noisy.traceable wellFormed createsAll allowed
  exact ⟨next, stepped, noisy.after wellFormed createsAll allowed stepped⟩

theorem noisy_run_up (wellFormed : table.WellFormed)
    (createsAll : rcl.CreatesAll table) {final : TwoParty}
    (allowed : Along (noisyStep table rcl) (Expected table) (initial table)
      events)
    (run : exec (noisyStep table rcl) (initial table) events = some final) :
    (record (noisyStep table rcl)
        (fun system event => (during (published rcl) system event).map some)
        (initial table) events).Sublist
      (record (noisyStep table rcl) (during (submitted table)) (initial table)
        events) := by
  have ordered (state : TwoParty) (event : NoisyEvent) (next : TwoParty)
      (items : List (Option Publication)) (noisy : state.Noisy table items)
      (allowed : state.Expected table event)
      (stepped : state.noisyStep table rcl event = some next) :
      ∃ left, next.Noisy table left ∧
        ((during (published rcl) state event).map some ++ left).Sublist
          (items ++ during (submitted table) state event) := by
    have moves := noisy.expecting.moves noisy.traceable wellFormed createsAll
      allowed stepped
    obtain ⟨left, expecting, up⟩ := moves.up
    exact ⟨left, ⟨moves.traceable, expecting⟩, up⟩
  obtain ⟨left, _, sublist⟩ :=
    record_sublist_carried ordered (noisy_initial table) allowed run
  rw [List.nil_append] at sublist
  exact (List.sublist_append_left _ _).trans sublist

theorem noisy_run_down (wellFormed : table.WellFormed)
    (createsAll : rcl.CreatesAll table) {final : TwoParty}
    (allowed : Along (noisyStep table rcl) (Expected table) (initial table)
      events)
    (run : exec (noisyStep table rcl) (initial table) events = some final) :
    (record (noisyStep table rcl) (during (handled table)) (initial table)
        events).Sublist
      (record (noisyStep table rcl) (during (requested table)) (initial table)
        events) := by
  have kept (state : TwoParty) (event : NoisyEvent) (next : TwoParty)
      (noisy : ∃ items, state.Noisy table items)
      (allowed : state.Expected table event)
      (stepped : state.noisyStep table rcl event = some next) :
      ∃ items, next.Noisy table items := by
    obtain ⟨items, noisy⟩ := noisy
    exact noisy.after wellFormed createsAll allowed stepped
  have ordered (state : TwoParty) (event : NoisyEvent) (next : TwoParty)
      (noisy : ∃ items, state.Noisy table items)
      (allowed : state.Expected table event)
      (stepped : state.noisyStep table rcl event = some next) :
      (during (handled table) state event ++ next.inbound table).Sublist
        (state.inbound table ++ during (requested table) state event) := by
    obtain ⟨items, noisy⟩ := noisy
    exact (noisy.expecting.moves noisy.traceable wellFormed createsAll allowed
      stepped).down
  have sublist :=
    record_sublist kept ordered ⟨[], noisy_initial table⟩ allowed run
  have nothing : (initial table).inbound table = [] := rfl
  rw [nothing, List.nil_append] at sublist
  exact (List.sublist_append_left _ _).trans sublist

end Run

end Runs

/-- Detected noise, on either link and at any moment, brings neither party to
a fault but the one of DATA without a client.  The agent takes no part of the
board's topics for all of them, and no message is doubled, altered or
reordered: what ROS gets is a part of what `nros_publish` accepted, and the
handler calls are a part of what ROS messages were to cause. -/
theorem noisy_runs_safe (table : TopicTable) (rcl : Rclcpp)
    (wellFormed : table.WellFormed) (createsAll : rcl.CreatesAll table)
    (events : List NoisyEvent)
    (allowed : Along (noisyStep table rcl) (Expected table) (initial table)
      events) :
    ∃ final, exec (noisyStep table rcl) (initial table) events = some final ∧
      (∀ process, final.agent = some process →
        process.loop.agent.newTopics.map Topic.key <+: table.keys) ∧
      (∀ entry ∈ final.dispatched,
        entry.frame.header.type = NrosPacketType.registerDone.toByte →
          entry.newTopics.map Topic.key = table.keys) ∧
      ((record (noisyStep table rcl) (during (published rcl)) (initial table)
          events).map some).Sublist
        ((record (noisyStep table rcl) (during accepted) (initial table)
          events).map fun (topicId, payload) =>
            table.publication topicId payload) ∧
      (record (noisyStep table rcl) (during (handled table)) (initial table)
          events).Sublist
        ((record (noisyStep table rcl) (during arrived) (initial table)
          events).filterMap (Incoming.handlerCall table)) := by
  obtain ⟨final, run, left, noisy⟩ :=
    noisy_run_returns wellFormed createsAll (noisy_initial table) allowed
  obtain ⟨beginning, whole⟩ := noisy.expecting.accepted
  refine ⟨final, run, beginning, whole, ?_, ?_⟩
  · have up := noisy_run_up wellFormed createsAll allowed run
    have submits : during (submitted table) = fun system event =>
        (during accepted system event).map fun (topicId, payload) =>
          table.publication topicId payload := by
      funext system event
      exact (during_map accepted _ system event).symm
    rwa [submits, record_map, record_map] at up
  · have down := noisy_run_down wellFormed createsAll allowed run
    have requests : during (requested table) = fun system event =>
        (during arrived system event).filterMap
          (Incoming.handlerCall table) := by
      funext system event
      exact (during_filterMap arrived _ system event).symm
    rwa [requests, record_filterMap] at down

/-- Noise comes before the DISCOVER and in the first of two published
messages. -/
def noisySession : List NoisyEvent :=
  [.party (.agentRound [] [] []),
    .toBoard [0xAA, 0x00, 0xAA, 0x55, 0x05, 0x00, 0x00, 0x00, 0x1A, 0xE3],
    .party (.rxPoll 64), .party (.txPoll 1024),
    .party (.agentRound [256] [] []), .party (.rxPoll 64),
    .party (.txPoll 1024), .party (.agentRound [256] [] []),
    .party (.rxPoll 64), .party (.txPoll 1024),
    .party (.agentRound [256] [] []), .party (.publish 127 twoBytes),
    .party (.txPoll 1024),
    .toAgent [0xAA, 0x55, 0x02, 0x7F, 0x06, 0x00, 0x00, 0x01, 0x00, 0x00,
      0x2B, 0x2B, 0xE7, 0x7E],
    .party (.agentRound [256] [] []), .party (.publish 127 twoBytes),
    .party (.txPoll 1024),
    .party (.agentRound [7, 256] [⟨0, [0x00, 0x01, 0x00, 0x00, 0x07]⟩] []),
    .party (.rxPoll 64)]

theorem noisy_runs_safe_noisySession :
    ∃ final, exec (noisyStep Codegen.pingPong.table Rclcpp.willing)
        (initial Codegen.pingPong.table) noisySession = some final ∧
      (∀ entry ∈ final.dispatched,
        entry.frame.header.type = NrosPacketType.registerDone.toByte →
          entry.newTopics.map Topic.key = Codegen.pingPong.table.keys) ∧
      ((record (noisyStep Codegen.pingPong.table Rclcpp.willing)
          (during (published Rclcpp.willing))
          (initial Codegen.pingPong.table) noisySession).map some).Sublist
        ((record (noisyStep Codegen.pingPong.table Rclcpp.willing)
          (during accepted) (initial Codegen.pingPong.table)
          noisySession).map fun (topicId, payload) =>
            Codegen.pingPong.table.publication topicId payload) := by
  obtain ⟨final, run, _, whole, up, _⟩ := noisy_runs_safe
    Codegen.pingPong.table Rclcpp.willing pingPong_wellFormed
    (Rclcpp.willing_createsAll _) noisySession (by decide +kernel)
  exact ⟨final, run, whole, up⟩

example : (record (noisyStep Codegen.pingPong.table Rclcpp.willing)
    (during (published Rclcpp.willing))
    (initial Codegen.pingPong.table) noisySession).length = 1 := by
  decide +kernel

/-! ## Noise that hits the registration -/

/-- A REGISTER or a REGISTER_DONE. -/
def registers (frame : Frame) : Bool :=
  frame.header.type = NrosPacketType.register.toByte ∨
    frame.header.type = NrosPacketType.registerDone.toByte

/-- A DISCOVER or an ACK. -/
def asks (frame : Frame) : Bool :=
  frame.header.type = NrosPacketType.discover.toByte ∨
    frame.header.type = NrosPacketType.ack.toByte

/-- Noise takes a frame of the registration from a link. -/
def HitsRegistration (system : TwoParty) : NoisyEvent → Prop
  | .party _ => False
  | .toAgent noisy =>
      (underway { system with toAgent := noisy }).filter registers ≠
        system.underway.filter registers
  | .toBoard noisy =>
      (system.board.parser.framesOf noisy).filter asks ≠
        (system.board.parser.framesOf system.toBoard).filter asks

instance (system : TwoParty) (event : NoisyEvent) :
    Decidable (system.HitsRegistration event) :=
  match event with
  | .party _ => isFalse id
  | .toAgent _ => inferInstanceAs (Decidable (_ ≠ _))
  | .toBoard _ => inferInstanceAs (Decidable (_ ≠ _))

section Hit

variable {table : TopicTable} {rcl : Rclcpp} {system next : TwoParty}

theorem isData_of_registers {frame : Frame} (here : registers frame = true) :
    (!(forwardMessage frame).isData) = true := by
  rcases of_decide_eq_true here with register | done
  · rw [forwardMessage_register register]
    rfl
  · rw [forwardMessage_done done]
    rfl

theorem other_of_asks {frame : Frame} (here : asks frame = true) :
    decide (backwardMessage frame ≠ .other) = true := by
  rcases of_decide_eq_true here with discover | ack
  · rw [backwardMessage_discover discover]
    rfl
  · rw [backwardMessage_ack ack]
    rfl

/-- A serving system that is hit is halted, and the board waits for ever if
REGISTER_DONE is not what was lost. -/
theorem Serving.hit {event : NoisyEvent} (serving : system.Serving table)
    (traceable : system.Traceable)
    (allowed : system.Expected table event)
    (hits : system.HitsRegistration event)
    (stepped : system.noisyStep table rcl event = some next) :
    next.Halted table ∧ next.Traceable ∧
      ((∀ frame ∈ system.underway,
          frame.header.type ≠ NrosPacketType.registerDone.toByte) →
        Blocked next.board.sender) := by
  have enrolled : Enrolled table.keys system.view :=
    ⟨serving.together.agreed, serving.opened⟩
  obtain ⟨process, running, _⟩ := serving.running
  have receiver := view_receiver running
  cases event with
  | party event => exact hits.elim
  | toAgent noisy =>
      cases stepped
      have disturbed : Disturbed table system _ :=
        disturbed_toAgent traceable allowed
      have after : TwoParty.underway { system with toAgent := noisy } =
          process.transport.pending (noisy ++ system.board.unsent) :=
        underway_of_running running
      have fewer := disturbed.underway
      simp only [HitsRegistration, after, underway_of_running running] at hits
      rw [after, underway_of_running running] at fewer
      have lost : proper ((process.transport.pending
            (noisy ++ system.board.unsent)).map forwardMessage) ≠
          proper ((process.transport.pending system.flight).map
            forwardMessage) := by
        intro kept
        apply hits
        unfold proper at kept
        refine Entries.filter_eq_of_sublist fewer ?_ kept
        exact fun _ => isData_of_registers
      obtain ⟨stalled, blocked⟩ := enrolled.lose_control receiver
        (fewer.map forwardMessage) lost
      have receiver : (TwoParty.view
          { system with toAgent := noisy }).receiver = _ :=
        view_receiver running
      have view : TwoParty.view { system with toAgent := noisy } = _ :=
        congrArg (fun receiver => { system.view with receiver }) receiver
      refine ⟨disturbed.halts serving (view ▸ stalled),
        disturbed.traceable traceable, ?_⟩
      intro undone
      apply blocked
      intro sent
      obtain ⟨frame, member, done⟩ := List.mem_map.mp sent
      exact undone frame (underway_of_running running ▸ member)
        (type_of_forwardMessage_done done)
  | toBoard noisy =>
      cases stepped
      have disturbed : Disturbed table system _ :=
        disturbed_toBoard traceable allowed
      have lost : StopAndWait.control ((system.board.parser.framesOf noisy).map
            backwardMessage) ≠
          StopAndWait.control ((system.board.parser.framesOf system.toBoard).map
            backwardMessage) := by
        intro kept
        apply hits
        unfold StopAndWait.control at kept
        refine Entries.filter_eq_of_sublist disturbed.arriving ?_ kept
        exact fun _ => other_of_asks
      obtain ⟨stalled, blocked⟩ := enrolled.lose_answer
        (disturbed.arriving.map backwardMessage) lost
      exact ⟨disturbed.halts serving stalled, disturbed.traceable traceable,
        fun _ => blocked⟩

/-- In a halted system there is nothing left to hit. -/
theorem Halted.not_hit {event : NoisyEvent} (halted : system.Halted table)
    (traceable : system.Traceable)
    (allowed : system.Expected table event) :
    ¬system.HitsRegistration event := by
  cases event with
  | party event => exact id
  | toAgent noisy =>
      have disturbed : Disturbed table system _ :=
        disturbed_toAgent traceable allowed
      have none : system.underway.filter registers = [] := by
        rw [List.filter_eq_nil_iff]
        intro frame member here
        obtain ⟨process, running, pending⟩ := List.mem_flatMap.mp member
        have data := halted.stalled.dataOnly _
          (view_receiver (Option.mem_toList.mp running))
          (forwardMessage frame) (List.mem_map_of_mem pending)
        have proper := isData_of_registers here
        rw [data] at proper
        cases proper
      have fewer := disturbed.underway.filter registers
      rw [none] at fewer
      simp only [HitsRegistration, none, List.sublist_nil.mp fewer, ne_eq,
        not_true_eq_false, not_false_eq_true]
  | toBoard noisy =>
      have disturbed : Disturbed table system _ :=
        disturbed_toBoard traceable allowed
      have none : (system.board.parser.framesOf system.toBoard).filter asks =
          [] := by
        rw [List.filter_eq_nil_iff]
        intro frame member here
        have quiet := List.filter_eq_nil_iff.mp halted.stalled.quiet
          (backwardMessage frame) (List.mem_map_of_mem member)
        exact quiet (other_of_asks here)
      have fewer := disturbed.arriving.filter asks
      rw [none] at fewer
      have left : (system.board.parser.framesOf noisy).filter asks = [] :=
        List.sublist_nil.mp fewer
      simp only [HitsRegistration, none, left, ne_eq, not_true_eq_false,
        not_false_eq_true]

/-- A halted system stays halted, publishes nothing, and its board stays as
blocked as it is. -/
theorem Halted.noisyStep {event : NoisyEvent} (halted : system.Halted table)
    (traceable : system.Traceable) (wellFormed : table.WellFormed)
    (allowed : system.Expected table event) :
    ∃ next, system.noisyStep table rcl event = some next ∧
      next.Halted table ∧ next.Traceable ∧
        during (published rcl) system event = [] ∧
          (Blocked system.board.sender → Blocked next.board.sender) := by
  cases event with
  | party event =>
      obtain ⟨next, stepped, idles⟩ :=
        halted.step traceable wellFormed allowed.1 allowed.2
      exact ⟨next, stepped, idles.halted,
        traceable.step halted.carrying.linked stepped, idles.silent,
        idles.blocked⟩
  | toAgent noisy =>
      have disturbed : Disturbed table system _ :=
        disturbed_toAgent traceable allowed
      exact ⟨_, rfl, disturbed.halted halted, disturbed.traceable traceable,
        rfl, id⟩
  | toBoard noisy =>
      have disturbed : Disturbed table system _ :=
        disturbed_toBoard traceable allowed
      exact ⟨_, rfl, disturbed.halted halted, disturbed.traceable traceable,
        rfl, id⟩

/-- A blocked board accepts no publish. -/
theorem accepted_of_blocked (blocked : Blocked system.board.sender)
    (event : NoisyEvent) : during accepted system event = [] := by
  cases event with
  | toAgent noisy => rfl
  | toBoard noisy => rfl
  | party event =>
      cases event with
      | rxPoll count => rfl
      | txPoll accepted => rfl
      | agentRound reads beforeSize beforePop => rfl
      | publish topicId serialized =>
          have incomplete : system.board.registrationComplete = false :=
            blocked.incomplete
          have refused : ¬(system.board.nrosPublish topicId serialized).1 =
              true := by
            rw [publish_eq_true_iff, incomplete]
            rintro ⟨_, complete, _⟩
            cases complete
          exact if_neg refused

section HaltedRun

variable {events : List NoisyEvent}

theorem Halted.after {event : NoisyEvent} (halted : system.Halted table)
    (traceable : system.Traceable) (wellFormed : table.WellFormed)
    (allowed : system.Expected table event)
    (stepped : system.noisyStep table rcl event = some next) :
    next.Halted table ∧ next.Traceable ∧
      during (published rcl) system event = [] ∧
        (Blocked system.board.sender → Blocked next.board.sender) := by
  obtain ⟨other, otherStep, moves⟩ :=
    halted.noisyStep traceable wellFormed allowed
  cases stepped.symm.trans otherStep
  exact moves

theorem Halted.run (wellFormed : table.WellFormed)
    (halted : system.Halted table) (traceable : system.Traceable)
    (allowed : Along (TwoParty.noisyStep table rcl) (Expected table) system
      events) :
    ∃ final, exec (TwoParty.noisyStep table rcl) system events = some final ∧
      final.Halted table ∧ final.Traceable ∧
        record (TwoParty.noisyStep table rcl) (during (published rcl)) system
          events = [] := by
  have advances (state : TwoParty) (event : NoisyEvent)
      (kept : state.Halted table ∧ state.Traceable)
      (allowed : state.Expected table event) :
      ∃ next, state.noisyStep table rcl event = some next ∧
        next.Halted table ∧ next.Traceable := by
    obtain ⟨next, stepped, halted, traceable, _⟩ :=
      kept.1.noisyStep kept.2 wellFormed allowed
    exact ⟨next, stepped, halted, traceable⟩
  obtain ⟨final, run, stillHalted, stillTraceable⟩ :=
    exec_total advances ⟨halted, traceable⟩ allowed
  refine ⟨final, run, stillHalted, stillTraceable, ?_⟩
  have preserved (state : TwoParty) (event : NoisyEvent) (next : TwoParty)
      (kept : state.Halted table ∧ state.Traceable)
      (allowed : state.Expected table event)
      (stepped : state.noisyStep table rcl event = some next) :
      next.Halted table ∧ next.Traceable := by
    obtain ⟨halted, traceable, _⟩ :=
      kept.1.after kept.2 wellFormed allowed stepped
    exact ⟨halted, traceable⟩
  apply record_eq_nil preserved _ ⟨halted, traceable⟩ allowed
  intro state event kept allowed
  obtain ⟨next, stepped, _, _, silent, _⟩ : ∃ next,
      state.noisyStep table rcl event = some next ∧ _ :=
    kept.1.noisyStep kept.2 wellFormed allowed
  exact silent

theorem Halted.run_blocked (wellFormed : table.WellFormed)
    (halted : system.Halted table) (traceable : system.Traceable)
    (blocked : Blocked system.board.sender)
    (allowed : Along (TwoParty.noisyStep table rcl) (Expected table) system
      events) {final : TwoParty}
    (run : exec (TwoParty.noisyStep table rcl) system events = some final) :
    Blocked final.board.sender ∧
      record (TwoParty.noisyStep table rcl) (during accepted) system
        events = [] := by
  have preserved (state : TwoParty) (event : NoisyEvent) (next : TwoParty)
      (kept : state.Halted table ∧ state.Traceable ∧
        Blocked state.board.sender)
      (allowed : state.Expected table event)
      (stepped : state.noisyStep table rcl event = some next) :
      next.Halted table ∧ next.Traceable ∧ Blocked next.board.sender := by
    obtain ⟨halted, traceable, blocked⟩ := kept
    obtain ⟨stillHalted, stillTraceable, _, still⟩ :=
      halted.after traceable wellFormed allowed stepped
    exact ⟨stillHalted, stillTraceable, still blocked⟩
  have initially : system.Halted table ∧ system.Traceable ∧
      Blocked system.board.sender := ⟨halted, traceable, blocked⟩
  constructor
  · exact (exec_invariant preserved initially allowed run).2.2
  · apply record_eq_nil preserved _ initially allowed
    intro state event kept _
    exact accepted_of_blocked kept.2.2 event

end HaltedRun

end Hit

/-- Noise that takes a frame of the registration from a link ends it: whatever
the two parties do from then on, no REGISTER_DONE is dispatched, ROS gets
nothing, and the first DATA frame ends the process.  Unless REGISTER_DONE
itself was under way, the board never holds its registration to be complete
and accepts no publish. -/
theorem lost_registration_halts (table : TopicTable) (rcl : Rclcpp)
    (wellFormed : table.WellFormed) (createsAll : rcl.CreatesAll table)
    (before after : List NoisyEvent) (noise : NoisyEvent) (system : TwoParty)
    (allowed : Along (noisyStep table rcl) (Expected table) (initial table)
      (before ++ noise :: after))
    (reached : exec (noisyStep table rcl) (initial table) before =
      some system)
    (hits : system.HitsRegistration noise) :
    ∃ final, exec (noisyStep table rcl) system (noise :: after) =
        some final ∧
      ¬DoneDispatched final.dispatched ∧
      (final.agent.isSome →
        (final.dispatched.map Dispatched.frame).filter isData = []) ∧
      record (noisyStep table rcl) (during (published rcl)) system
        (noise :: after) = [] ∧
      ((∀ frame ∈ system.underway,
          frame.header.type ≠ NrosPacketType.registerDone.toByte) →
        final.board.registrationComplete = false ∧
        record (noisyStep table rcl) (during accepted) system
          (noise :: after) = []) := by
  obtain ⟨allowedBefore, allowedNow, allowedAfter⟩ := allowed.parts reached
  obtain ⟨other, run, left, noisy⟩ :=
    noisy_run_returns wellFormed createsAll (noisy_initial table)
      allowedBefore
  cases reached.symm.trans run
  have traceable := noisy.traceable
  cases noisy.expecting with
  | halted halted => exact absurd hits (halted.not_hit traceable allowedNow)
  | serving serving =>
      obtain ⟨next, stepped, _⟩ := noisy.expecting.step traceable wellFormed
        createsAll allowedNow
      obtain ⟨halted, stillTraceable, blocked⟩ :=
        serving.hit traceable allowedNow hits stepped
      obtain ⟨final, run, finallyHalted, _, nothing⟩ :=
        halted.run wellFormed stillTraceable (allowedAfter next stepped)
      have whole : exec (noisyStep table rcl) system (noise :: after) =
          some final := by
        rw [exec_cons, stepped]
        exact run
      refine ⟨final, whole, finallyHalted.undone, finallyHalted.deaf, ?_, ?_⟩
      · rw [record_cons _ stepped, nothing, List.append_nil]
        cases noise with
        | party event => exact hits.elim
        | toAgent noisy => rfl
        | toBoard noisy => rfl
      · intro undone
        obtain ⟨stillBlocked, rejected⟩ := halted.run_blocked wellFormed
          stillTraceable (blocked undone) (allowedAfter next stepped) run
        refine ⟨stillBlocked.incomplete, ?_⟩
        rw [record_cons _ stepped, rejected, List.append_nil]
        cases noise with
        | party event => exact hits.elim
        | toAgent noisy => rfl
        | toBoard noisy => rfl

/-- The board has sent its first REGISTER. -/
def registerSent : List NoisyEvent :=
  [.party (.agentRound [] [] []), .party (.rxPoll 64), .party (.txPoll 1024)]

/-- One bit of that frame, the first of the topic's name, is flipped. -/
def damagedRegister : NoisyEvent :=
  .toAgent [0xAA, 0x55, 0x01, 0x7F, 0x1A, 0x00, 0x7F, 0x00, 0x12, 0x04, 0x73,
    0x74, 0x64, 0x5F, 0x6D, 0x73, 0x67, 0x73, 0x2F, 0x6D, 0x73, 0x67, 0x2F,
    0x45, 0x6D, 0x70, 0x74, 0x79, 0x71, 0x6F, 0x6E, 0x67, 0x44, 0xC1]

/-- Both parties go on. -/
def waitingForEachOther : List NoisyEvent :=
  [.party (.agentRound [256] [] []), .party (.rxPoll 64),
    .party (.publish 127 twoBytes), .party (.txPoll 1024),
    .party (.agentRound [256] [] [])]

theorem lost_registration_halts_damagedRegister :
    ∃ system final,
      exec (noisyStep Codegen.pingPong.table Rclcpp.willing)
          (initial Codegen.pingPong.table) registerSent = some system ∧
      exec (noisyStep Codegen.pingPong.table Rclcpp.willing)
          system (damagedRegister :: waitingForEachOther) = some final ∧
      ¬DoneDispatched final.dispatched ∧
      final.board.registrationComplete = false := by
  have reaches : ∃ system ∈ exec (noisyStep Codegen.pingPong.table
        Rclcpp.willing) (initial Codegen.pingPong.table)
        registerSent,
      system.HitsRegistration damagedRegister ∧
        ∀ frame ∈ system.underway,
          frame.header.type ≠ NrosPacketType.registerDone.toByte := by
    decide +kernel
  obtain ⟨system, reached, hits, undone⟩ := reaches
  obtain ⟨final, run, notDone, _, _, blocked⟩ := lost_registration_halts
    Codegen.pingPong.table Rclcpp.willing pingPong_wellFormed
    (Rclcpp.willing_createsAll _) registerSent waitingForEachOther
    damagedRegister system (by decide +kernel) reached hits
  exact ⟨system, final, reached, run, notDone, (blocked undone).1⟩

end TwoParty

end NanoRos
