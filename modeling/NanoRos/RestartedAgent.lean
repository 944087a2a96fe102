import NanoRos.AgentRestart
import NanoRos.Foundation.FollowedRuns
import NanoRos.Liveness
import NanoRos.NoisyRuns

/-!
# A new process and a board that has been running

What a board remembers of its session is set anew by the next DISCOVER.  Until
then, and with a process that has just been started, it does what a board does
that was switched on together with the process.
-/

namespace NanoRos

open Board PartialRun StopAndWait
open NrosStreamParser (framesOf framesOf_append feedByte)
open Transducer (after emitted)

namespace Board

/-- The board, its session forgotten. -/
def forget (board : Board) : Board :=
  { board with
    tx := { board.tx with isRegistration := false }
    rx := { awaitingAck := false }
    registrationComplete := false }

/-- The board, its registration not yet through. -/
def reopen (board : Board) : Board :=
  { board with registrationComplete := false }

/-- The board that was just switched on, in whose place this one is.  It may
still take its registration for complete; once it hears a DISCOVER, it does so
until it is right. -/
inductive Resumes (table : TopicTable) (board : Board) : Board → Prop
  | same : Resumes table board board
  | waiting (idle : board.tx.state = .idle)
      (inside : board.rx.awaitingAck = true →
        board.tx.topicRegistrationIdx.toNat < table.topics.length) :
      Resumes table board board.forget
  | renewing : Resumes table board board.reopen

section Resumes

variable {table : TopicTable} {board other after : Board} {frame : Frame}

theorem Resumes.parser (resumes : board.Resumes table other) :
    other.parser = board.parser := by
  cases resumes <;> rfl

theorem Resumes.topicMap (resumes : board.Resumes table other) :
    other.topicMap = board.topicMap := by
  cases resumes <;> rfl

theorem Resumes.unsent (resumes : board.Resumes table other) :
    other.unsent = board.unsent := by
  cases resumes <;> rfl

theorem Resumes.moveParser (resumes : board.Resumes table other)
    (parser : NrosStreamParser) :
    Resumes table { board with parser } { other with parser } := by
  cases resumes with
  | same => exact .same
  | waiting idle inside => exact .waiting idle inside
  | renewing => exact .renewing

/-! ### Frames -/

theorem loadNextRegistrationFrame_moveComplete (table : TopicTable)
    (board : Board) (registrationComplete : Bool) :
    loadNextRegistrationFrame table { board with registrationComplete } =
      (loadNextRegistrationFrame table board).map
        ({ · with registrationComplete }) := by
  unfold loadNextRegistrationFrame
  dsimp only
  split_ifs with regDone
  · rfl
  · cases table.topics[board.tx.topicRegistrationIdx.toNat]? with
    | none => rfl
    | some topic =>
        dsimp only
        split_ifs with long
        · rfl
        · rfl

/-- Dispatching does not look at `registration_complete`. -/
theorem nrosDispatch_moveComplete (table : TopicTable) (board : Board)
    (frame : Frame) (registrationComplete : Bool) :
    nrosDispatch table { board with registrationComplete } frame =
      (nrosDispatch table board frame).map
        ({ · with registrationComplete }) := by
  unfold nrosDispatch
  cases NrosPacketType.ofByte? frame.header.type with
  | none => rfl
  | some packet =>
      cases packet with
      | register => rfl
      | registerDone => rfl
      | data =>
          have same : dispatchData { board with registrationComplete } frame =
              dispatchData board frame := rfl
          simp only [same]
          cases dispatchData board frame with
          | error fault => rfl
          | ok call => rfl
      | ack =>
          have loads := loadNextRegistrationFrame_moveComplete table
            (board.advanceRegistration table) registrationComplete
          simp only [dispatchAck]
          split_ifs with ignored outside
          · rfl
          · rfl
          · exact loads
      | discover =>
          have loads := loadNextRegistrationFrame_moveComplete table
            board.startRegistration registrationComplete
          have same : startRegistration { board with registrationComplete } =
              { board.startRegistration with registrationComplete } := rfl
          simp only [registerTopicsStart, same, loads]
          split_ifs with busy
          · rfl
          · cases loadNextRegistrationFrame table board.startRegistration with
            | error fault => rfl
            | ok loaded => rfl

/-- DATA, and what a board ignores, do not depend on the session. -/
theorem nrosDispatch_forget
    (notAck : frame.header.type ≠ NrosPacketType.ack.toByte)
    (notDiscover : frame.header.type ≠ NrosPacketType.discover.toByte)
    (board : Board) :
    nrosDispatch table board.forget frame =
      (nrosDispatch table board frame).map forget := by
  unfold nrosDispatch
  cases kind : NrosPacketType.ofByte? frame.header.type with
  | none => rfl
  | some packet =>
      have type := NrosPacketType.ofByte?_eq_some_iff.mp kind
      cases packet with
      | register => rfl
      | registerDone => rfl
      | ack => exact absurd type notAck
      | discover => exact absurd type notDiscover
      | data =>
          have same : dispatchData board.forget frame =
              dispatchData board frame := rfl
          simp only [same]
          cases dispatchData board frame with
          | error fault => rfl
          | ok call => rfl

/-- A DISCOVER that is taken sets the session anew. -/
theorem nrosDispatch_discover (wellFormed : table.WellFormed)
    (discover : frame.header.type = NrosPacketType.discover.toByte)
    (idle : board.tx.state = .idle) :
    nrosDispatch table board.forget frame =
      (nrosDispatch table board frame).map reopen := by
  obtain ⟨topic, rest, topics⟩ := List.exists_cons_of_ne_nil
    wellFormed.nonempty
  have fit := wellFormed.registrable.names topic (by
    rw [topics]
    exact List.mem_cons_self)
  have short : ¬(topic.topicType.length > nrosMaxStrSize ∨
      topic.topicName.length > nrosMaxStrSize) := by
    rw [not_or, Nat.not_lt, Nat.not_lt]
    exact fit
  have kind := NrosPacketType.ofByte?_eq_some_iff.mpr discover
  simp [nrosDispatch, kind, registerTopicsStart, forget, reopen,
    startRegistration, idle, loadNextRegistrationFrame, topics, short,
    Except.map]

/-- What the other board does with a frame this one does as well. -/
theorem Resumes.dispatch (resumes : board.Resumes table other)
    (wellFormed : table.WellFormed)
    (calm : other.tx.isRegistration = false →
      frame.header.type ≠ NrosPacketType.ack.toByte)
    (dispatched : nrosDispatch table other frame = .ok after) :
    ∃ next, nrosDispatch table board frame = .ok next ∧
      next.Resumes table after := by
  have taken {change : Board → Board}
      (moved : nrosDispatch table other frame =
        (nrosDispatch table board frame).map change) :
      ∃ next, nrosDispatch table board frame = .ok next ∧
        after = change next := by
    rw [dispatched] at moved
    cases done : nrosDispatch table board frame with
    | error fault =>
        rw [done] at moved
        cases moved
    | ok next =>
        rw [done] at moved
        cases moved
        exact ⟨next, rfl, rfl⟩
  cases resumes with
  | same => exact ⟨after, dispatched, .same⟩
  | renewing =>
      obtain ⟨next, done, rfl⟩ :=
        taken (nrosDispatch_moveComplete table board frame false)
      exact ⟨next, done, .renewing⟩
  | waiting idle inside =>
      have notAck := calm rfl
      by_cases discover :
          frame.header.type = NrosPacketType.discover.toByte
      · obtain ⟨next, done, rfl⟩ :=
          taken (nrosDispatch_discover wellFormed discover idle)
        exact ⟨next, done, .renewing⟩
      · obtain ⟨next, done, rfl⟩ :=
          taken (nrosDispatch_forget notAck discover board)
        cases dispatchStep done with
        | passed _ _ same =>
            subst same
            exact ⟨_, done, .waiting idle inside⟩
        | ackIgnored ack _ _ => exact absurd ack notAck
        | ackOutside ack _ _ _ => exact absurd ack notAck
        | ackTaken ack _ _ _ => exact absurd ack notAck
        | discoverDropped here _ _ => exact absurd here discover
        | discoverTaken here _ _ => exact absurd here discover

/-! ### Writing and publishing -/

theorem Resumes.txPoll (resumes : board.Resumes table other)
    (accepted : Nat) :
    (other.txPoll accepted).2 = (board.txPoll accepted).2 ∧
      Resumes table (board.txPoll accepted).1
        (other.txPoll accepted).1 := by
  cases resumes with
  | same => exact ⟨rfl, .same⟩
  | waiting idle inside =>
      have here : board.txPoll accepted = (board, []) := by
        simp only [Board.txPoll, idle]
      have there : board.forget.txPoll accepted = (board.forget, []) := by
        simp only [Board.txPoll, forget, idle]
      rw [here, there]
      exact ⟨rfl, .waiting idle inside⟩
  | renewing =>
      have finished (board : Board) :
          Resumes table board.txFrameComplete board.reopen.txFrameComplete := by
        unfold txFrameComplete
        rw [show board.reopen.tx = board.tx from rfl]
        split_ifs with outside regDone
        · exact .renewing
        · exact .same
        · exact .renewing
      unfold Board.txPoll
      rw [show board.reopen.tx = board.tx from rfl]
      cases board.tx.state with
      | idle => exact ⟨rfl, .renewing⟩
      | sendingHeader => exact ⟨rfl, .renewing⟩
      | sendingPayload => exact ⟨rfl, .renewing⟩
      | sendingFrame =>
          dsimp only
          split_ifs with more
          · exact ⟨rfl, .renewing⟩
          · exact ⟨rfl, finished _⟩

/-- A publish is turned down by both boards, or taken by both, unless only
this one takes its registration for complete. -/
theorem Resumes.publish (resumes : board.Resumes table other)
    (topicId : UInt8) (serialized : SerializeResult)
    (through : board.registrationComplete = true →
      other.registrationComplete = true ∨ other.tx.state ≠ .idle) :
    (other.nrosPublish topicId serialized).1 =
        (board.nrosPublish topicId serialized).1 ∧
      Resumes table (board.nrosPublish topicId serialized).2
        (other.nrosPublish topicId serialized).2 := by
  have refuses (board : Board)
      (refused : board.tx.state ≠ .idle ∨
        board.registrationComplete = false) :
      board.nrosPublish topicId serialized = (false, board) := by
    rcases refused with busy | incomplete
    · simp [nrosPublish, busy]
    · simp [nrosPublish, incomplete]
  have both (other : Board) (resumes : board.Resumes table other)
      (here : board.tx.state ≠ .idle ∨ board.registrationComplete = false)
      (there : other.registrationComplete = false) :
      (other.nrosPublish topicId serialized).1 =
          (board.nrosPublish topicId serialized).1 ∧
        Resumes table (board.nrosPublish topicId serialized).2
          (other.nrosPublish topicId serialized).2 := by
    rw [refuses board here, refuses other (.inr there)]
    exact ⟨rfl, resumes⟩
  cases resumes with
  | same => exact ⟨rfl, .same⟩
  | renewing =>
      apply both _ .renewing _ rfl
      by_cases complete : board.registrationComplete = true
      · rcases through complete with renewed | busy
        · cases renewed
        · exact .inl busy
      · exact .inr (Bool.eq_false_iff.mpr complete)
  | waiting idle inside =>
      apply both _ (.waiting idle inside) _ rfl
      right
      apply Bool.eq_false_iff.mpr
      intro complete
      rcases through complete with renewed | busy
      · cases renewed
      · exact busy idle

end Resumes

end Board

namespace TwoParty

/-- The system with a board that was just switched on. -/
inductive Resumes (table : TopicTable) (system : TwoParty) : TwoParty → Prop
  | intro (other : Board) (board : system.board.Resumes table other) :
      Resumes table system { system with board := other }

/-- REGISTER_DONE has got to the process, or is on its way. -/
def DoneSent (system : TwoParty) : Prop :=
  DoneDispatched system.dispatched ∨ ∃ frame ∈ system.underway,
    frame.header.type = NrosPacketType.registerDone.toByte

instance (dispatched : List Dispatched) :
    Decidable (DoneDispatched dispatched) :=
  inferInstanceAs (Decidable (∃ entry ∈ dispatched, _ = _))

instance (system : TwoParty) : Decidable system.DoneSent :=
  inferInstanceAs (Decidable (_ ∨ ∃ frame ∈ system.underway, _ = _))

/-- A board that takes its registration for complete publishes only when the
process is to learn of it before. -/
def Discreet (system : TwoParty) : PartyEvent → Prop
  | .publish _ _ => system.board.registrationComplete = true → system.DoneSent
  | .rxPoll _ | .txPoll _ | .agentRound _ _ _ => True

instance (system : TwoParty) (event : PartyEvent) :
    Decidable (system.Discreet event) :=
  match event with
  | .publish _ _ => inferInstanceAs (Decidable (_ = _ → _))
  | .rxPoll _ | .txPoll _ | .agentRound _ _ _ => isTrue trivial

/-- No ACK comes outside a registration, and REGISTER_DONE is the last of
it. -/
structure Orderly (system : TwoParty) : Prop where
  acks : system.board.tx.isRegistration = false →
    ∀ frame ∈ system.board.parser.framesOf system.toBoard,
      frame.header.type ≠ NrosPacketType.ack.toByte
  through : system.DoneSent → system.board.registrationComplete = true ∨
    system.board.tx.state ≠ .idle

/-- An invariant of orderly systems, also while the board reads. -/
structure Leads (table : TopicTable) (invariant : TwoParty → Prop) :
    Prop where
  orderly : ∀ system, invariant system → system.Orderly
  rxByte : ∀ system next, invariant system →
    system.rxPoll table 1 = some next → invariant next

section Resumes

variable {table : TopicTable} {rcl : Rclcpp} {invariant : TwoParty → Prop}
  {system leader ahead next : TwoParty} {event : PartyEvent}

/-- The board reads a byte. -/
theorem Resumes.rxByte (resumes : system.Resumes table leader)
    (orderly : leader.Orderly) (wellFormed : table.WellFormed)
    (led : leader.rxPoll table 1 = some ahead) :
    ∃ next, system.rxPoll table 1 = some next ∧
      next.Resumes table ahead := by
  obtain ⟨other, board⟩ := resumes
  have calm := orderly.acks
  unfold rxPoll at led ⊢
  rw [rxPoll_eq] at led ⊢
  dsimp only at led calm
  rw [board.parser] at led calm
  cases link : system.toBoard with
  | nil =>
      rw [link] at led
      cases led
      exact ⟨_, rfl, .intro _ (board.moveParser _)⟩
  | cons byte rest =>
      rw [link, NrosStreamParser.framesOf_cons] at calm
      rw [link] at led
      simp only [List.take_succ_cons, List.take_zero, List.drop_succ_cons,
        List.drop_zero, Transducer.emitted_cons, Transducer.after_cons,
        Transducer.emitted_nil, Transducer.after_nil, List.append_nil]
        at led ⊢
      cases fires : (system.board.parser.feedByte byte).2 with
      | none =>
          rw [fires] at led
          cases led
          exact ⟨_, rfl, .intro _ (board.moveParser _)⟩
      | some event =>
          rw [fires] at led calm
          simp only [Option.toList_some, dispatchEach, List.foldl_cons,
            List.foldl_nil, onFrameCb] at led ⊢
          cases dispatched : nrosDispatch table other event.frame with
          | error fault =>
              rw [dispatched] at led
              cases led
          | ok after =>
              rw [dispatched] at led
              cases led
              obtain ⟨next, done, still⟩ :=
                board.dispatch wellFormed (fun outside => calm outside
                  event.frame List.mem_cons_self) dispatched
              rw [done]
              exact ⟨_, rfl, .intro _ (still.moveParser _)⟩

theorem Resumes.rxPoll (resumes : system.Resumes table leader)
    (leads : Leads table invariant) (holds : invariant leader)
    (wellFormed : table.WellFormed) {count : Nat}
    (led : leader.rxPoll table count = some ahead) :
    ∃ next, system.rxPoll table count = some next ∧
      next.Resumes table ahead := by
  have follows : Follows (rxByteStep table) (rxByteStep table)
      (fun system leader => system.Resumes table leader ∧ invariant leader)
      fun _ _ => True := by
    intro state leader _ ahead related _ led
    obtain ⟨resumes, holds⟩ := related
    obtain ⟨next, stepped, still⟩ :=
      resumes.rxByte (leads.orderly leader holds) wellFormed led
    exact ⟨next, stepped, still, leads.rxByte leader ahead holds led⟩
  rw [rxPoll_eq_exec] at led ⊢
  obtain ⟨next, stepped, still, _⟩ := follows.exec ⟨resumes, holds⟩
    (along_of_forall (fun _ _ => trivial) system _) led
  exact ⟨next, stepped, still⟩

/-- A round of the agent has nothing to do with the board. -/
theorem agentRound_moveBoard (system : TwoParty) (board : Board)
    (reads : List Nat) (beforeSize beforePop : List Incoming) :
    agentRound rcl { system with board } reads beforeSize beforePop =
      (system.agentRound rcl reads beforeSize beforePop).map
        ({ · with board }) := by
  unfold agentRound
  cases system.agent with
  | none => rfl
  | some process =>
      dsimp only
      cases process.round rcl system.toAgent reads beforeSize beforePop with
      | none => rfl
      | some round =>
          dsimp only
          cases round.outcome with
          | error fault => rfl
          | ok output => rfl

theorem agentRound_board {reads : List Nat}
    {beforeSize beforePop : List Incoming}
    (stepped : system.agentRound rcl reads beforeSize beforePop = some next) :
    next.board = system.board := by
  unfold agentRound at stepped
  split at stepped
  · cases stepped
  · split at stepped
    · cases stepped
    · split at stepped
      · cases stepped
        rfl
      · cases stepped
        rfl

/-! ### The rest of the system -/

theorem Resumes.agent (resumes : system.Resumes table leader) :
    leader.agent = system.agent := by
  cases resumes
  rfl

theorem Resumes.dispatched (resumes : system.Resumes table leader) :
    leader.dispatched = system.dispatched := by
  cases resumes
  rfl

theorem Resumes.parser (resumes : system.Resumes table leader) :
    leader.board.parser = system.board.parser := by
  obtain ⟨other, board⟩ := resumes
  exact board.parser

theorem Resumes.flight (resumes : system.Resumes table leader) :
    leader.flight = system.flight := by
  obtain ⟨other, board⟩ := resumes
  simp only [TwoParty.flight, board.unsent]

theorem Resumes.underway (resumes : system.Resumes table leader) :
    leader.underway = system.underway := by
  simp only [TwoParty.underway, resumes.agent, resumes.flight]

theorem Resumes.downlink (resumes : system.Resumes table leader) :
    leader.downlink = system.downlink := by
  obtain ⟨other, board⟩ := resumes
  simp only [TwoParty.downlink, board.parser]

theorem Resumes.queued (resumes : system.Resumes table leader) :
    leader.queued = system.queued := by
  rw [TwoParty.queued, TwoParty.queued, resumes.agent]

theorem Resumes.inbound (resumes : system.Resumes table leader) :
    leader.inbound table = system.inbound table := by
  rw [TwoParty.inbound, TwoParty.inbound, resumes.downlink, resumes.queued]

/-- The leading board is about to publish, too, if it may. -/
theorem Resumes.through (resumes : system.Resumes table leader)
    (orderly : leader.Orderly) {topicId : UInt8}
    {serialized : SerializeResult}
    (discreet : system.Discreet (.publish topicId serialized)) :
    system.board.registrationComplete = true →
      leader.board.registrationComplete = true ∨
        leader.board.tx.state ≠ .idle := by
  intro complete
  apply orderly.through
  rw [DoneSent, resumes.dispatched, resumes.underway]
  exact discreet complete

/-- What the leading system does this one does as well. -/
theorem Resumes.step (resumes : system.Resumes table leader)
    (leads : Leads table invariant) (holds : invariant leader)
    (wellFormed : table.WellFormed) (discreet : system.Discreet event)
    (led : leader.step table rcl event = some ahead) :
    ∃ next, system.step table rcl event = some next ∧
      next.Resumes table ahead := by
  have orderly := leads.orderly leader holds
  cases event with
  | rxPoll count => exact resumes.rxPoll leads holds wellFormed led
  | txPoll accepted =>
      obtain ⟨other, board⟩ := resumes
      cases led
      obtain ⟨bytes, still⟩ := board.txPoll accepted
      refine ⟨_, rfl, ?_⟩
      simp only [TwoParty.txPoll, bytes]
      exact .intro _ still
  | publish topicId serialized =>
      have through := resumes.through orderly discreet
      obtain ⟨other, board⟩ := resumes
      cases led
      exact ⟨_, rfl, .intro _ (board.publish topicId serialized through).2⟩
  | agentRound reads beforeSize beforePop =>
      obtain ⟨other, board⟩ := resumes
      rw [TwoParty.step, agentRound_moveBoard] at led
      obtain ⟨next, stepped, rfl⟩ := Option.map_eq_some_iff.mp led
      refine ⟨next, stepped, .intro other ?_⟩
      rw [agentRound_board stepped]
      exact board

/-! ### What both show -/

theorem Resumes.published (resumes : system.Resumes table leader)
    (event : PartyEvent) :
    system.published rcl event = leader.published rcl event := by
  obtain ⟨other, board⟩ := resumes
  cases event <;> rfl

theorem Resumes.accepted (resumes : system.Resumes table leader)
    (orderly : leader.Orderly) (discreet : system.Discreet event) :
    system.accepted event = leader.accepted event := by
  cases event with
  | rxPoll count => rfl
  | txPoll accepted => rfl
  | agentRound reads beforeSize beforePop => rfl
  | publish topicId serialized =>
      have through := resumes.through orderly discreet
      obtain ⟨other, board⟩ := resumes
      have same := (board.publish topicId serialized through).1
      simp only [TwoParty.accepted, same]

/-- A step of both makes the same handler calls. -/
theorem Resumes.handled (resumes : system.Resumes table leader)
    (installed : leader.board.Installed table)
    (wellFormed : table.WellFormed)
    (stepped : system.step table rcl event = some next)
    (led : leader.step table rcl event = some ahead)
    (still : next.Resumes table ahead) :
    system.handled table event = leader.handled table event := by
  cases event with
  | txPoll accepted => rfl
  | publish topicId serialized => rfl
  | agentRound reads beforeSize beforePop => rfl
  | rxPoll count =>
      have here : system.board.Installed table := by
        obtain ⟨other, board⟩ := resumes
        exact board.topicMap.symm.trans installed
      obtain ⟨calls, _, _⟩ := downlink_rxPoll here wellFormed.distinct stepped
      obtain ⟨callsAhead, _, _⟩ :=
        downlink_rxPoll installed wellFormed.distinct led
      rw [resumes.downlink, still.downlink] at callsAhead
      exact List.append_cancel_right (calls.trans callsAhead.symm)

/-- Traffic is the same for both. -/
theorem Resumes.carrying (resumes : system.Resumes table leader)
    (carrying : leader.Carrying table) : system.Carrying table := by
  have downlink := resumes.downlink
  have queued := resumes.queued
  have flight := resumes.flight
  obtain ⟨⟨settled, inside, clears, process⟩, installed, subscribers⟩ :=
    carrying
  rw [downlink, queued] at subscribers
  rw [flight, resumes.agent] at process
  obtain ⟨other, board⟩ := resumes
  dsimp only at settled inside clears
  rw [board.parser] at clears
  refine ⟨⟨?_, ?_, clears, process⟩, board.topicMap.symm.trans installed,
    subscribers⟩
  · cases board with
    | same => exact settled
    | waiting idle _ => exact .inl idle
    | renewing =>
        rcases settled with idle | ⟨frame, sending⟩
        · exact .inl idle
        · have same : SameTransmission system.board.reopen system.board :=
            ⟨rfl, rfl, rfl, rfl⟩
          exact .inr ⟨frame, same.sending sending⟩
  · cases board with
    | same => exact inside
    | waiting _ known => exact known
    | renewing => exact inside

end Resumes

/-! ## Starting the process anew -/

/-- The board is not sending, nothing is on its way to the agent, and no
DISCOVER or ACK is on its way to the board. -/
structure Drained (system : TwoParty) : Prop where
  idle : system.board.tx.state = .idle
  empty : system.toAgent = []
  quiet : ∀ frame ∈ system.board.parser.framesOf system.toBoard,
    asks frame = false

instance (system : TwoParty) : Decidable system.Drained :=
  decidable_of_iff (system.board.tx.state = .idle ∧ system.toAgent = [] ∧
      ∀ frame ∈ system.board.parser.framesOf system.toBoard,
        asks frame = false)
    ⟨fun ⟨idle, empty, quiet⟩ => ⟨idle, empty, quiet⟩,
      fun ⟨idle, empty, quiet⟩ => ⟨idle, empty, quiet⟩⟩

/-- A new process, and a board that was just switched on. -/
def afresh (system : TwoParty) : TwoParty :=
  { system.restart with board := system.board.forget }

section Afresh

variable {table : TopicTable} {system : TwoParty}

theorem Drained.flight (drained : system.Drained) :
    system.afresh.flight = [] := by
  have unsent : system.afresh.board.unsent = [] :=
    unsent_of_idle drained.idle
  rw [TwoParty.flight, unsent, List.append_nil]
  exact drained.empty

theorem Drained.underway (drained : system.Drained) :
    system.afresh.underway = [] := by
  rw [underway_of_running rfl, drained.flight]
  rfl

theorem Drained.control (drained : system.Drained) :
    StopAndWait.control system.afresh.view.outbox = [] := by
  rw [StopAndWait.control, List.filter_eq_nil_iff]
  intro message member
  obtain ⟨frame, inside, rfl⟩ := List.mem_map.mp member
  have calm := of_decide_eq_false (drained.quiet frame inside)
  rw [not_or] at calm
  rw [backwardMessage_other calm.2 calm.1]
  exact Bool.false_ne_true

theorem Drained.receiver (drained : system.Drained) :
    system.afresh.view.receiver =
      some { fresh := true, received := [], inbox := [] } := by
  have running : system.afresh.agent = some .initial := rfl
  rw [view_receiver running, drained.flight]
  rfl

theorem Drained.together (drained : system.Drained)
    (carrying : system.Carrying table) : system.afresh.Together table := by
  refine ⟨⟨.inl drained.idle, by rintro ⟨⟩, carrying.linked.clears, ?_⟩,
    ?_, ?_⟩
  · rintro _ ⟨⟩
    rw [drained.flight]
    exact ⟨rfl, rfl, fun _ => rfl, [], by rintro _ ⟨⟩⟩
  · rintro _ ⟨⟩
    have unsent : system.afresh.board.unsent = [] :=
      unsent_of_idle drained.idle
    rw [unsent]
    exact NrosStreamParser.completes_nil _
  · refine ⟨.nil _, fun _ => drained.control, ?_⟩
    rw [drained.receiver]
    rintro _ ⟨⟩
    refine .waiting rfl drained.control rfl ⟨rfl, rfl, rfl, ?_⟩ rfl
    exact busy_eq_false_iff.mpr drained.idle

/-- The two are at work as after power-up. -/
theorem Drained.serving (drained : system.Drained)
    (carrying : system.Carrying table) : system.afresh.Serving table where
  together := drained.together carrying
  opened := by rintro ⟨_, ⟨⟩, _⟩
  concludes := by
    refine ⟨?_, ?_, ?_⟩
    · rw [drained.receiver]
      rintro _ ⟨⟩ ⟨⟩
    · rw [drained.receiver]
      rintro _ ⟨⟩ ⟨⟩
    · rintro _ ⟨⟩
  installed := carrying.installed
  running := ⟨_, rfl, by rintro ⟨_, ⟨⟩, _⟩⟩
  publishers := by
    rw [uplink, drained.underway]
    rintro _ ⟨⟩
  subscribers := by
    intro frame member
    apply carrying.subscribers frame
    rcases List.mem_append.mp member with onLink | waiting
    · exact List.mem_append_left _ onLink
    · cases waiting

/-- With a new process the board does what one does that was just switched
on. -/
theorem Drained.resumes (drained : system.Drained)
    (carrying : system.Carrying table) :
    system.restart.Resumes table system.afresh :=
  .intro _ (.waiting drained.idle carrying.linked.inside)

theorem traceable_afresh (legible : system.board.parser.Legible) :
    system.afresh.Traceable := by
  refine ⟨legible, ?_, ?_⟩
  · rintro _ ⟨⟩
    exact NrosStreamParser.legible_init
  · rintro _ _ ⟨⟩
    rfl

end Afresh

end TwoParty

end NanoRos
