import NanoRos.Foundation.PartialRun
import NanoRos.InFlight
import NanoRos.Board
import NanoRos.Agent

/-!
# A board and an agent

The two parties, and the two byte links between them.  A link is the bytes
written to one end and not yet read at the other; none is lost, and what the
agent sends is written whole.  Either party may take its next step at any
moment.
-/

namespace NanoRos

open Board PartialRun
open Transducer (after emitted)

/-- The agent with its transport. -/
structure AgentProcess where
  loop : AgentLoop
  transport : SerialTransport

/-- A process that has just started, its port open. -/
def AgentProcess.initial : AgentProcess :=
  { loop := .initial, transport := .opened true }

/-- A frame as `frame_dispatch` is given it, and `new_topics_` at that moment. -/
structure Dispatched where
  frame : WireFrame
  newTopics : List Topic

/-- `agent` is `none` when the process has ended in a fault. -/
structure TwoParty where
  board : Board
  agent : Option AgentProcess
  toAgent : List UInt8
  toBoard : List UInt8
  dispatched : List Dispatched

/-- A call of `rx_poll`, `tx_poll` or `nros_publish` on the board, or a round
of the agent's loop: how much its reads return, and the ROS messages that
arrive meanwhile. -/
inductive PartyEvent where
  | rxPoll (count : Nat)
  | txPoll (accepted : Nat)
  | publish (topicId : UInt8) (serialized : SerializeResult)
  | agentRound (reads : List Nat) (beforeSize beforePop : List Incoming)

/-- Size of the buffer of `rx_poll`. -/
def rxChunkSize : Nat := 64

/-- Size of the buffer of `recv_frame`. -/
def recvChunkSize : Nat := 256

/-- Successive reads from a link, and what they leave there.  A read that
returns nothing is interrupted; after the last one comes `EAGAIN`. -/
def readsFrom : List UInt8 → List Nat → List ReadOutcome × List UInt8
  | link, [] => ([.wouldBlock 0 .timedOut], link)
  | link, count :: counts =>
      let chunk := link.take (min count recvChunkSize)
      let (outcomes, left) :=
        readsFrom (link.drop (min count recvChunkSize)) counts
      ((if chunk = [] then .interrupted else .data chunk) :: outcomes, left)

/-- What a process reads in one round, what it leaves on the link, and how the
round ends. -/
structure AgentProcess.Round where
  received : RecvResult
  left : List UInt8
  outcome : Except AgentFault IterationOutput

/-- One round; none if `recv_frame` does not return. -/
def AgentProcess.round (rcl : Rclcpp) (process : AgentProcess)
    (link : List UInt8) (reads : List Nat)
    (beforeSize beforePop : List Incoming) : Option AgentProcess.Round :=
  let (outcomes, left) := readsFrom link reads
  match process.transport.recvFrame 0 outcomes with
  | none => none
  | some received =>
      some
        { received
          left := received.unread.flatMap ReadOutcome.bytes ++ left
          outcome := process.loop.iterate rcl
            { received := received.frame, beforeSize, beforePop } }

namespace TwoParty

def initial (table : TopicTable) : TwoParty :=
  { board := .initial table
    agent := some .initial
    toAgent := []
    toBoard := []
    dispatched := [] }

/-- `rx_poll` when `read` returns `count` bytes, or what there is. -/
def rxPoll (table : TopicTable) (system : TwoParty) (count : Nat) :
    Option TwoParty :=
  match system.board.rxPoll table (system.toBoard.take count) with
  | .error _ => none
  | .ok board =>
      some { system with board, toBoard := system.toBoard.drop count }

def txPoll (system : TwoParty) (accepted : Nat) : TwoParty :=
  let (board, bytes) := system.board.txPoll accepted
  { system with board, toAgent := system.toAgent ++ bytes }

def publish (system : TwoParty) (topicId : UInt8)
    (serialized : SerializeResult) : TwoParty :=
  { system with board := (system.board.nrosPublish topicId serialized).2 }

/-- The system while a round is going on: the bytes are read, and the frame
is dispatched. -/
def reading (system : TwoParty) (process : AgentProcess)
    (round : AgentProcess.Round) : TwoParty :=
  { system with
    toAgent := round.left
    dispatched := system.dispatched ++
      round.received.frame.toList.map fun frame =>
        { frame, newTopics := process.loop.agent.newTopics } }

/-- One round of `Agent::run`. -/
def agentRound (rcl : Rclcpp) (system : TwoParty) (reads : List Nat)
    (beforeSize beforePop : List Incoming) : Option TwoParty :=
  match system.agent with
  | none => none
  | some process =>
      match process.round rcl system.toAgent reads beforeSize beforePop with
      | none => none
      | some round =>
          let system := system.reading process round
          match round.outcome with
          | .error _ => some { system with agent := none }
          | .ok output =>
              some { system with
                agent :=
                  some
                    { loop := output.loop
                      transport := round.received.transport }
                toBoard := system.toBoard ++
                  output.sent.flatMap SerialTransport.frameBytes }

def step (table : TopicTable) (rcl : Rclcpp) (system : TwoParty) :
    PartyEvent → Option TwoParty
  | .rxPoll count => system.rxPoll table (min count rxChunkSize)
  | .txPoll accepted => some (system.txPoll accepted)
  | .publish topicId serialized => some (system.publish topicId serialized)
  | .agentRound reads beforeSize beforePop =>
      system.agentRound rcl reads beforeSize beforePop

end TwoParty

/-! ## Reading byte by byte -/

namespace Board

theorem loadNextRegistrationFrame_moveParser (table : TopicTable)
    (board : Board) (parser : NrosStreamParser) :
    loadNextRegistrationFrame table { board with parser } =
      (loadNextRegistrationFrame table board).map ({ · with parser }) := by
  unfold loadNextRegistrationFrame
  dsimp only
  split_ifs with regDone
  · rfl
  · cases table.topics[board.tx.topicRegistrationIdx.toNat]? with
    | none => rfl
    | some topic =>
        dsimp only
        split_ifs with long
        · rfl
        · rfl

/-- Dispatching does not look at the parser. -/
theorem nrosDispatch_moveParser (table : TopicTable) (board : Board)
    (frame : Frame) (parser : NrosStreamParser) :
    nrosDispatch table { board with parser } frame =
      (nrosDispatch table board frame).map ({ · with parser }) := by
  unfold nrosDispatch
  cases NrosPacketType.ofByte? frame.header.type with
  | none => rfl
  | some packet =>
      cases packet with
      | register => rfl
      | registerDone => rfl
      | data =>
          have same : dispatchData { board with parser } frame =
              dispatchData board frame := rfl
          simp only [same]
          cases dispatchData board frame with
          | error fault => rfl
          | ok call => rfl
      | ack =>
          have loads := loadNextRegistrationFrame_moveParser table
            (board.advanceRegistration table) parser
          simp only [dispatchAck]
          split_ifs with ignored outside
          · rfl
          · rfl
          · exact loads
      | discover =>
          have loads := loadNextRegistrationFrame_moveParser table
            board.startRegistration parser
          have same : startRegistration { board with parser } =
              { board.startRegistration with parser } := rfl
          simp only [registerTopicsStart, same, loads]
          split_ifs with busy
          · rfl
          · cases loadNextRegistrationFrame table board.startRegistration with
            | error fault => rfl
            | ok loaded => rfl

/-- The callbacks of one chunk, one after the other. -/
def dispatchEach (table : TopicTable) (board : Board)
    (events : List FrameEvent) : Except BoardFault Board :=
  events.foldl (onFrameCb table) (.ok board)

theorem foldl_onFrameCb_error (table : TopicTable) (fault : BoardFault)
    (events : List FrameEvent) :
    events.foldl (onFrameCb table) (.error fault) = .error fault := by
  induction events with
  | nil => rfl
  | cons event events induction => exact induction

theorem dispatchEach_append (table : TopicTable) (board : Board)
    (left right : List FrameEvent) :
    dispatchEach table board (left ++ right) =
      (dispatchEach table board left).bind (dispatchEach table · right) := by
  unfold dispatchEach
  rw [List.foldl_append]
  cases left.foldl (onFrameCb table) (.ok board) with
  | error fault => exact foldl_onFrameCb_error table fault right
  | ok board => rfl

theorem dispatchEach_moveParser (table : TopicTable) (board : Board)
    (events : List FrameEvent) (parser : NrosStreamParser) :
    dispatchEach table { board with parser } events =
      (dispatchEach table board events).map ({ · with parser }) := by
  induction events generalizing board with
  | nil => rfl
  | cons event events induction =>
      have first := nrosDispatch_moveParser table board event.frame parser
      simp only [dispatchEach, List.foldl_cons, onFrameCb, first]
      cases nrosDispatch table board event.frame with
      | error fault =>
          simp only [Except.map, foldl_onFrameCb_error]
      | ok board => exact induction board

theorem rxPoll_eq (table : TopicTable) (board : Board)
    (chunk : List UInt8) :
    rxPoll table board chunk =
      (dispatchEach table board
        (emitted NrosStreamParser.feedByte board.parser chunk)).map
          ({ · with
            parser := after NrosStreamParser.feedByte board.parser chunk }) := by
  unfold rxPoll
  by_cases more : chunk.length > 0
  · simp only [more, if_true, nrosStreamParserFeed, Transducer.runWith_eq]
    unfold dispatchEach
    split
    next failed => rw [failed]; rfl
    next dispatched => rw [dispatched]; rfl
  · have empty : chunk = [] := by simpa using more
    subst empty
    rfl

/-- Reading a chunk is reading its parts. -/
theorem rxPoll_append (table : TopicTable) (board : Board)
    (left right : List UInt8) :
    rxPoll table board (left ++ right) =
      (rxPoll table board left).bind (rxPoll table · right) := by
  simp only [rxPoll_eq, Transducer.emitted_append, Transducer.after_append,
    dispatchEach_append]
  cases dispatchEach table board
    (emitted NrosStreamParser.feedByte board.parser left) with
  | error fault => rfl
  | ok halfway =>
      simp only [Except.bind, Except.map, dispatchEach_moveParser]
      generalize dispatchEach table halfway _ = dispatched
      cases dispatched with
      | error fault => rfl
      | ok board => rfl

end Board

namespace TwoParty

/-- Reading does not touch the agent. -/
theorem rxPoll_agent {table : TopicTable} {system next : TwoParty}
    {count : Nat} (stepped : system.rxPoll table count = some next) :
    next.agent = system.agent ∧ next.toAgent = system.toAgent ∧
      next.dispatched = system.dispatched := by
  unfold rxPoll at stepped
  split at stepped
  · cases stepped
  · cases stepped
    exact ⟨rfl, rfl, rfl⟩

/-- What is read is taken off the link. -/
theorem rxPoll_takes {table : TopicTable} {system next : TwoParty}
    {count : Nat} (stepped : system.rxPoll table count = some next) :
    next.toBoard = system.toBoard.drop count ∧
      next.board.parser = after NrosStreamParser.feedByte system.board.parser
        (system.toBoard.take count) := by
  unfold rxPoll at stepped
  rw [Board.rxPoll_eq] at stepped
  cases dispatched : Board.dispatchEach table system.board
      (emitted NrosStreamParser.feedByte system.board.parser
        (system.toBoard.take count)) with
  | error fault =>
      rw [dispatched] at stepped
      cases stepped
  | ok board =>
      rw [dispatched] at stepped
      cases stepped
      exact ⟨rfl, rfl⟩

/-- `rx_poll` with a single byte. -/
def rxByteStep (table : TopicTable) (system : TwoParty) (_ : Unit) :
    Option TwoParty :=
  system.rxPoll table 1

/-- However many bytes a call of `rx_poll` gets, it does what as many calls
with one byte do. -/
theorem rxPoll_eq_exec (table : TopicTable) (system : TwoParty)
    (count : Nat) :
    system.rxPoll table count =
      exec (rxByteStep table) system (List.replicate count ()) := by
  induction count generalizing system with
  | zero => rfl
  | succ count induction =>
      have split : system.toBoard.take (count + 1) =
          system.toBoard.take 1 ++ (system.toBoard.drop 1).take count := by
        rw [Nat.add_comm, List.take_add]
      have dropped : system.toBoard.drop (count + 1) =
          (system.toBoard.drop 1).drop count := by
        rw [List.drop_drop, Nat.add_comm]
      rw [List.replicate_succ, exec_cons, rxByteStep]
      simp only [rxPoll, split, dropped, Board.rxPoll_append]
      cases system.board.rxPoll table (system.toBoard.take 1) with
      | error fault => rfl
      | ok board => exact induction { system with board, toBoard := _ }

end TwoParty

end NanoRos
