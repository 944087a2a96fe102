import NanoRos.Foundation.FairRuns
import NanoRos.BoardPublishes
import NanoRos.DataDelivery

/-!
# Progress on the link to the agent

A frame under way to the agent comes nearer with each write of the board while
it is being sent, and with each read of the agent once it is on the link.
-/

namespace NanoRos

open Board PartialRun StopAndWait
open NrosStreamParser (framesOf framesOf_append feedByte)
open SerialTransport (recvFrame_cons recvFrame_of_completed recvRound)
open Transducer (after emitted symbolsTo)

/-! ## Schedules -/

namespace PartyEvent

/-- The board reads at least one byte, if there is one. -/
def BoardReads : PartyEvent → Prop
  | .rxPoll count => 0 < count
  | .txPoll _ | .publish _ _ | .agentRound _ _ _ => False

/-- The transport takes at least one byte, if it is offered one. -/
def BoardWrites : PartyEvent → Prop
  | .txPoll accepted => 0 < accepted
  | .rxPoll _ | .publish _ _ | .agentRound _ _ _ => False

/-- A round in which the agent reads at least one byte, if there is one. -/
def AgentReads : PartyEvent → Prop
  | .agentRound reads _ _ => ∃ count ∈ reads, 0 < count
  | .rxPoll _ | .txPoll _ | .publish _ _ => False

end PartyEvent

/-- Neither the board nor the agent stops reading and writing. -/
structure FairSchedule (events : Nat → PartyEvent) : Prop where
  boardReads : Recurs PartyEvent.BoardReads events
  boardWrites : Recurs PartyEvent.BoardWrites events
  agentReads : Recurs PartyEvent.AgentReads events

/-! ## One read, one write -/

theorem popCompleted_eq_none {transport : SerialTransport} :
    transport.popCompleted = none ↔ transport.completedFrames = [] := by
  unfold SerialTransport.popCompleted
  cases transport.completedFrames <;> simp

/-- What a round takes off the link when no frame is complete by its end. -/
structure QuietReads (transport : SerialTransport) (link : List UInt8)
    (reads : List Nat) (result : RecvResult) (left : List UInt8) : Prop where
  nothingBefore : transport.completedFrames = []
  nothingAfter : result.transport.completedFrames = []
  consumed : ∃ front, link = front ++ left ∧
    result.transport.parser = after feedByte transport.parser front ∧
    emitted feedByte transport.parser front = [] ∧
    ((∃ count ∈ reads, 0 < count) → link ≠ [] → front ≠ [])

/-- A call that returns no frame had none to return at once. -/
theorem idle_of_nothing {transport : SerialTransport}
    {outcomes : List ReadOutcome} {result : RecvResult}
    (returned : transport.recvFrame 0 outcomes = some result)
    (nothing : result.frame = none) : transport.popCompleted = none := by
  cases popped : transport.popCompleted with
  | none => rfl
  | some pair =>
      rw [recvFrame_of_completed popped] at returned
      cases returned
      cases nothing

theorem quietReads (reads : List Nat) {transport : SerialTransport}
    {link : List UInt8} {result : RecvResult}
    (returned : transport.recvFrame 0 (readsFrom link reads).1 = some result)
    (nothing : result.frame = none) :
    result.unread = [] ∧
      QuietReads transport link reads result (readsFrom link reads).2 := by
  induction reads generalizing transport link with
  | nil =>
      have idle := idle_of_nothing returned nothing
      have empty := popCompleted_eq_none.mp idle
      rw [readsFrom, recvFrame_cons idle] at returned
      simp only [recvRound, Int.le_refl, Int.sub_self, and_self, if_true,
        Int.natCast_zero] at returned
      cases returned
      refine ⟨rfl, empty, empty, [], rfl, rfl, rfl, ?_⟩
      rintro ⟨_, impossible, _⟩
      cases impossible
  | cons count reads induction =>
      have idle := idle_of_nothing returned nothing
      have empty := popCompleted_eq_none.mp idle
      have whole := List.take_append_drop (min count recvChunkSize) link
      simp only [readsFrom] at returned ⊢
      rw [recvFrame_cons idle] at returned
      generalize first : link.take (min count recvChunkSize) = chunk
        at returned whole
      generalize link.drop (min count recvChunkSize) = rest at returned whole ⊢
      by_cases absent : chunk = []
      · subst absent
        obtain rfl : rest = link := by simpa using whole
        simp only [if_true, recvRound] at returned
        obtain ⟨unread, quiet⟩ := induction returned
        obtain ⟨front, taken, parser, silent, moved⟩ := quiet.consumed
        refine ⟨unread, empty, quiet.nothingAfter, front, taken, parser,
          silent, ?_⟩
        rintro ⟨effective, member, positive⟩ more
        apply moved _ more
        rcases List.take_eq_nil_iff.mp first with zero | nothing
        · rcases List.mem_cons.mp member with rfl | later
          · simp only [recvChunkSize] at zero
            omega
          · exact ⟨effective, later, positive⟩
        · exact absurd nothing more
      · simp only [absent, if_false, recvRound] at returned
        obtain ⟨unread, quiet⟩ := induction returned
        obtain ⟨front, taken, parser, silent, _⟩ := quiet.consumed
        have before := quiet.nothingBefore
        rw [SerialTransport.completedFrames_feed, List.append_eq_nil_iff]
          at before
        rw [SerialTransport.parser_feed] at parser silent
        refine ⟨unread, empty, quiet.nothingAfter, chunk ++ front, ?_, ?_, ?_,
          ?_⟩
        · rw [List.append_assoc, ← taken]
          exact whole.symm
        · rw [parser, Transducer.after_append]
        · rw [Transducer.emitted_append, silent, List.append_nil]
          exact List.map_eq_nil_iff.mp before.2
        · intro _ _ nothing
          exact absent (List.append_eq_nil_iff.mp nothing).1

/-- A write that is offered bytes takes some of them. -/
theorem Board.Settled.writes {board : Board} (settled : board.Settled)
    (more : board.unsent ≠ []) {accepted : Nat} (positive : 0 < accepted) :
    (board.txPoll accepted).2 ≠ [] := by
  rcases settled with idle | ⟨frame, sending⟩
  · exact absurd (unsent_of_idle idle) more
  · have unfinished := sending.unfinished
    have room : frame.encoded.length ≤ nrosBufferSize := by
      have taken := congrArg List.length sending.bytes
      rw [Buffer.length_take] at taken
      omega
    rw [txPoll_sending sending.state]
    intro nothing
    have length := congrArg List.length nothing
    simp only [Buffer.slice, List.length_take, List.length_drop,
      board.tx.buffer.length_eq, List.length_nil] at length
    rw [sending.length] at length unfinished
    omega

/-! ## The distance of the next frame -/

/-- How many bytes the agent has to read to complete a frame. -/
def AgentProcess.distance (process : AgentProcess) (link : List UInt8) : Nat :=
  if process.transport.completedFrames = [] then
    symbolsTo feedByte (fun _ => true) process.transport.parser link
  else
    0

theorem AgentProcess.distance_le (process : AgentProcess)
    (link : List UInt8) : process.distance link ≤ link.length := by
  unfold distance
  split
  · exact Transducer.symbolsTo_le _ _ _
  · exact Nat.zero_le _

/-- What is put behind a frame does not make it farther. -/
theorem AgentProcess.distance_append {process : AgentProcess}
    {link : List UInt8} (near : process.transport.pending link ≠ [])
    (more : List UInt8) :
    process.distance (link ++ more) = process.distance link := by
  unfold distance
  split
  next empty =>
    apply Transducer.symbolsTo_append_of_any
    rw [SerialTransport.pending, empty, List.nil_append, framesOf] at near
    cases events : emitted feedByte process.transport.parser link with
    | nil =>
        rw [events] at near
        exact absurd rfl near
    | cons event events => rfl
  · rfl

namespace TwoParty

/-- How far the next frame is from the agent: twice the bytes that are not on
the link yet, and those that are, or the bytes up to its end. -/
def upRank (system : TwoParty) : Nat :=
  match system.agent with
  | none => 0
  | some process =>
      if process.transport.pending system.toAgent = [] then
        2 * system.board.unsent.length + system.toAgent.length
      else
        process.distance system.toAgent

/-- What brings the next frame nearer. -/
def UpHelps (system : TwoParty) (event : PartyEvent) : Prop :=
  ∀ process, system.agent = some process →
    if process.transport.pending system.toAgent = [] then event.BoardWrites
    else event.AgentReads

/-- The step that brings a frame to the agent, or nearer to it, or is not one
that could. -/
def UpProgress (system : TwoParty) (event : PartyEvent) (next : TwoParty) :
    Prop :=
  system.dispatched.length < next.dispatched.length ∨
    next.upRank < system.upRank ∨
      next.upRank = system.upRank ∧ ¬system.UpHelps event ∧
        ∀ other, system.UpHelps other → next.UpHelps other

section Steps

variable {table : TopicTable} {rcl : Rclcpp} {system next : TwoParty}
  {process : AgentProcess} {event : PartyEvent}

theorem upRank_far (running : system.agent = some process)
    (far : process.transport.pending system.toAgent = []) :
    system.upRank =
      2 * system.board.unsent.length + system.toAgent.length := by
  simp only [upRank, running, far, if_true]

theorem upRank_near (running : system.agent = some process)
    (near : process.transport.pending system.toAgent ≠ []) :
    system.upRank = process.distance system.toAgent := by
  simp only [upRank, running, near, if_false]

theorem upHelps_far (running : system.agent = some process)
    (far : process.transport.pending system.toAgent = []) :
    system.UpHelps event ↔ event.BoardWrites := by
  simp [UpHelps, running, far]

theorem upHelps_near (running : system.agent = some process)
    (near : process.transport.pending system.toAgent ≠ []) :
    system.UpHelps event ↔ event.AgentReads := by
  simp [UpHelps, running, near]

/-- A frame that is not at the agent's end is being sent. -/
theorem unsent_of_far (running : system.agent = some process)
    (waits : system.underway ≠ [])
    (far : process.transport.pending system.toAgent = []) :
    system.board.unsent ≠ [] := by
  intro nothing
  rw [underway_of_running running, flight, nothing, List.append_nil] at waits
  exact waits far

/-- A step of the board that neither writes nor changes what is unsent. -/
theorem UpProgress.of_silent (running : system.agent = some process)
    (agent : next.agent = system.agent)
    (toAgent : next.toAgent = system.toAgent)
    (unsent : system.board.unsent ≠ [] →
      next.board.unsent = system.board.unsent)
    (waits : system.underway ≠ []) (noWrite : ¬event.BoardWrites)
    (noRead : ¬event.AgentReads) : system.UpProgress event next := by
  have stillRunning : next.agent = some process := agent.trans running
  right
  right
  by_cases far : process.transport.pending system.toAgent = []
  · have stillFar : process.transport.pending next.toAgent = [] := by
      rwa [toAgent]
    refine ⟨?_, ?_, ?_⟩
    · rw [upRank_far running far, upRank_far stillRunning stillFar, toAgent,
        unsent (unsent_of_far running waits far)]
    · rw [upHelps_far running far]
      exact noWrite
    · intro other helps
      rw [upHelps_far running far] at helps
      rwa [upHelps_far stillRunning stillFar]
  · have stillNear : process.transport.pending next.toAgent ≠ [] := by
      rwa [toAgent]
    refine ⟨?_, ?_, ?_⟩
    · rw [upRank_near running far, upRank_near stillRunning stillNear, toAgent]
    · rw [upHelps_near running far]
      exact noRead
    · intro other helps
      rw [upHelps_near running far] at helps
      rwa [upHelps_near stillRunning stillNear]

theorem Serving.up_rxPoll (serving : system.Serving table)
    (wellFormed : table.WellFormed) {count : Nat}
    (stepped : system.rxPoll table count = some next)
    (waits : system.underway ≠ []) :
    system.UpProgress (.rxPoll count) next := by
  obtain ⟨process, running, _⟩ := serving.running
  obtain ⟨agent, toAgent, _⟩ := rxPoll_agent stepped
  apply UpProgress.of_silent running agent toAgent _ waits id id
  intro more
  rw [rxPoll_eq_exec] at stepped
  have kept : next.Serving table ∧
      next.board.unsent = system.board.unsent := by
    apply exec_preserved _ ⟨serving, rfl⟩ stepped
    rintro before _ after ⟨serving, unsent⟩ read
    refine ⟨(serving.rxByte wellFormed read).1, ?_⟩
    obtain ⟨loaded, appends, _⟩ :=
      serving.together.rxByte_appends wellFormed.registrable read
    cases loaded with
    | none => rw [appends.unsent, unsent]; exact List.append_nil _
    | some frame =>
        have nothing := appends.behind frame rfl
        rw [unsent] at nothing
        exact absurd nothing more
  exact kept.2

theorem Serving.up_publish (serving : system.Serving table)
    (topicId : UInt8) (serialized : SerializeResult)
    (waits : system.underway ≠ []) :
    system.UpProgress (.publish topicId serialized)
      (system.publish topicId serialized) := by
  obtain ⟨process, running, _⟩ := serving.running
  apply UpProgress.of_silent running (by rfl) (by rfl) _ waits id id
  intro more
  have step := publishStep system.board topicId serialized
  unfold TwoParty.publish
  generalize system.board.nrosPublish topicId serialized = outcome at step ⊢
  cases step with
  | busy _ same => rw [same]
  | failed idle _ _ _ _ => exact absurd (unsent_of_idle idle) more
  | loaded idle _ _ _ _ _ _ _ => exact absurd (unsent_of_idle idle) more

/-- Bytes that are written are on the link, and nearer by that. -/
theorem Serving.up_txPoll (serving : system.Serving table) (accepted : Nat)
    (waits : system.underway ≠ []) :
    system.UpProgress (.txPoll accepted) (system.txPoll accepted) := by
  obtain ⟨process, running, _⟩ := serving.running
  have settled := serving.together.linked.settled
  have stillRunning : (system.txPoll accepted).agent = some process := running
  have moved := (txStep settled accepted).flight
  have lengths := congrArg List.length moved
  rw [List.length_append] at lengths
  have toAgent : (system.txPoll accepted).toAgent =
      system.toAgent ++ (system.board.txPoll accepted).2 := rfl
  right
  by_cases far : process.transport.pending system.toAgent = []
  · have more := unsent_of_far running waits far
    have positive := List.length_pos_iff.mpr more
    by_cases stillFar :
        process.transport.pending (system.txPoll accepted).toAgent = []
    · rw [upRank_far running far, upRank_far stillRunning stillFar,
        upHelps_far running far]
      have shorter : (system.txPoll accepted).board.unsent.length =
          system.board.unsent.length -
            (system.board.txPoll accepted).2.length := by
        have same : (system.txPoll accepted).board =
            (system.board.txPoll accepted).1 := rfl
        rw [same]
        omega
      rw [shorter, toAgent, List.length_append]
      by_cases none_written : (system.board.txPoll accepted).2 = []
      · right
        rw [none_written]
        refine ⟨rfl, ?_, ?_⟩
        · intro writes
          exact settled.writes more writes none_written
        · intro other helps
          rw [upHelps_far running far] at helps
          rwa [upHelps_far stillRunning stillFar]
      · left
        have := List.length_pos_iff.mpr none_written
        omega
    · left
      rw [upRank_far running far, upRank_near stillRunning stillFar]
      have near := process.distance_le (system.txPoll accepted).toAgent
      rw [toAgent, List.length_append] at near
      rw [toAgent]
      omega
  · have stillNear :
        process.transport.pending (system.txPoll accepted).toAgent ≠ [] := by
      rw [toAgent, SerialTransport.pending, framesOf_append,
        ← List.append_assoc]
      intro nothing
      exact far (List.append_eq_nil_iff.mp nothing).1
    right
    refine ⟨?_, ?_, ?_⟩
    · rw [upRank_near running far, upRank_near stillRunning stillNear,
        toAgent, AgentProcess.distance_append far]
    · rw [upHelps_near running far]
      exact id
    · intro other helps
      rw [upHelps_near running far] at helps
      rwa [upHelps_near stillRunning stillNear]

/-- What a round that comes to its end has read and put out. -/
structure TakesRound (rcl : Rclcpp) (system : TwoParty)
    (process : AgentProcess) (reads : List Nat)
    (beforeSize beforePop : List Incoming) (round : AgentProcess.Round)
    (output : IterationOutput) : Prop where
  read : process.Reads rcl system.toAgent reads round
  finished : round.outcome = .ok output
  iterates : process.loop.iterate rcl
    { received := round.received.frame, beforeSize, beforePop } = .ok output
  left : round.left = round.received.unread.flatMap ReadOutcome.bytes ++
    (readsFrom system.toAgent reads).2

/-- A round of a system at work comes to its end. -/
theorem Serving.takesRound (serving : system.Serving table)
    (wellFormed : table.WellFormed) (createsAll : rcl.CreatesAll table)
    (running : system.agent = some process) {reads : List Nat}
    {beforeSize beforePop : List Incoming}
    (stepped : system.agentRound rcl reads beforeSize beforePop = some next) :
    ∃ round output, TakesRound rcl system process reads beforeSize beforePop
      round output ∧ next = system.afterRound process round output := by
  obtain ⟨round, result, outcome⟩ :=
    process.round_returns rcl system.toAgent reads beforeSize beforePop
  have read := AgentProcess.reads result
  have pending := (read.receives system.board.unsent).pending
  obtain ⟨output, finished⟩ :=
    serving.round_ok wellFormed createsAll running pending outcome
  refine ⟨round, output,
    ⟨read, finished, outcome.symm.trans finished, ?_⟩, ?_⟩
  · unfold AgentProcess.round at result
    have returned := read.returned
    generalize readsFrom system.toAgent reads = taken at result returned ⊢
    obtain ⟨outcomes, left⟩ := taken
    simp only at result returned
    rw [returned] at result
    exact (congrArg AgentProcess.Round.left (Option.some.inj result)).symm
  · simp only [TwoParty.agentRound, running, result, finished] at stepped
    exact (Option.some.inj stepped).symm

/-- A round takes the next frame, or reads on towards its end. -/
theorem Serving.up_agentRound (serving : system.Serving table)
    (wellFormed : table.WellFormed) (createsAll : rcl.CreatesAll table)
    {reads : List Nat} {beforeSize beforePop : List Incoming}
    (stepped : system.agentRound rcl reads beforeSize beforePop = some next) :
    system.UpProgress (.agentRound reads beforeSize beforePop) next := by
  obtain ⟨process, running, _⟩ := serving.running
  obtain ⟨round, output, ⟨read, _, _, left⟩, rfl⟩ :=
    serving.takesRound wellFormed createsAll running stepped
  have after : (system.afterRound process round output).agent = some _ :=
    afterRound_running system
  have dispatched : (system.afterRound process round output).dispatched.map
      Dispatched.frame = _ := afterRound_dispatched system
  cases arrived : round.received.frame with
  | some frame =>
      left
      have lengths := congrArg List.length dispatched
      rw [arrived] at lengths
      simp only [List.length_append, List.length_map, Option.toList_some,
        List.length_singleton] at lengths
      omega
  | none =>
      right
      obtain ⟨unread, quiet⟩ := quietReads reads read.returned arrived
      obtain ⟨front, taken, parser, silent, moved⟩ := quiet.consumed
      rw [unread, List.flatMap_nil, List.nil_append] at left
      rw [← left] at taken
      have toAgent : (system.afterRound process round output).toAgent =
          round.left := rfl
      have lengths := congrArg List.length taken
      rw [List.length_append] at lengths
      have frames : process.transport.pending system.toAgent =
          round.received.transport.pending round.left := by
        rw [SerialTransport.pending, SerialTransport.pending,
          quiet.nothingBefore, quiet.nothingAfter, parser, taken,
          framesOf_append, framesOf, silent]
        rfl
      by_cases far : process.transport.pending system.toAgent = []
      · have stillFar := frames.symm.trans far
        rw [upRank_far running far, upRank_far after stillFar, toAgent]
        rcases Nat.eq_zero_or_pos front.length with nothing | reading
        · right
          refine ⟨?_, ?_, ?_⟩
          · rw [nothing, Nat.zero_add] at lengths
            rw [lengths]
            rfl
          · rw [upHelps_far running far]
            exact id
          · intro other helps
            rw [upHelps_far running far] at helps
            rwa [upHelps_far after stillFar]
        · left
          have unsent : (system.afterRound process round output).board.unsent =
              system.board.unsent := rfl
          rw [unsent]
          omega
      · have stillNear : round.received.transport.pending round.left ≠ [] := by
          rwa [← frames]
        have distance : process.distance system.toAgent = front.length +
            AgentProcess.distance
              { loop := output.loop, transport := round.received.transport }
              round.left := by
          rw [AgentProcess.distance, AgentProcess.distance,
            if_pos quiet.nothingBefore, if_pos quiet.nothingAfter, taken,
            parser]
          apply Transducer.symbolsTo_append_quiet
          rw [silent]
          rfl
        rw [upRank_near running far, upRank_near after stillNear, toAgent,
          distance]
        rcases Nat.eq_zero_or_pos front.length with nothing | reading
        · right
          refine ⟨by rw [nothing, Nat.zero_add], ?_, ?_⟩
          · rw [upHelps_near running far]
            intro reads
            have more : system.toAgent ≠ [] := by
              intro empty
              rw [empty, SerialTransport.pending, quiet.nothingBefore] at far
              exact far rfl
            exact moved reads more (List.length_eq_zero_iff.mp nothing)
          · intro other helps
            rw [upHelps_near running far] at helps
            rwa [upHelps_near after stillNear]
        · left
          omega

/-- Every permitted step takes the next frame, or brings it nearer, or is not
one that could. -/
theorem Serving.up_progress (serving : system.Serving table)
    (wellFormed : table.WellFormed) (createsAll : rcl.CreatesAll table)
    (stepped : system.step table rcl event = some next)
    (waits : system.underway ≠ []) : system.UpProgress event next := by
  cases event with
  | rxPoll count =>
      have progress := serving.up_rxPoll wellFormed stepped waits
      exact progress
  | txPoll accepted =>
      cases stepped
      exact serving.up_txPoll accepted waits
  | publish topicId serialized =>
      cases stepped
      exact serving.up_publish topicId serialized waits
  | agentRound reads beforeSize beforePop =>
      exact serving.up_agentRound wellFormed createsAll stepped

end Steps

end TwoParty

end NanoRos
