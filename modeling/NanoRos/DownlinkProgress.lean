import Mathlib.Data.Prod.Lex
import NanoRos.RegistrationProgress

/-!
# Progress on the link to the board

A message for the board comes nearer with each round of the agent while it is
in the agent's queue, and with each read of the board once it is on the link.
-/

namespace NanoRos

open Board PartialRun StopAndWait
open AgentLoop (pushIncoming takeOutbound)
open NrosStreamParser (framesOf framesOf_append feedByte)
open SerialTransport (onLink)
open Transducer (after emitted symbolsTo)

namespace TwoParty

/-- The frames in the agent's queue, those included that do not fit. -/
def waiting (system : TwoParty) : List WireFrame :=
  system.agent.toList.flatMap fun process =>
    process.loop.agent.toClientMsgQueue.items.map OutboundMsg.frame

/-- How many bytes the board has to read to complete the next DATA frame. -/
def dataDistance (system : TwoParty) : Nat :=
  symbolsTo feedByte (fun event => isData event.frame) system.board.parser
    system.toBoard

/-- How far the next message is from its handler: the messages in front of it
in the queue, and then the bytes up to its end. -/
def downRank (system : TwoParty) : ℕ ×ₗ ℕ :=
  if system.downlink = [] then
    toLex (system.waiting.findIdx fitsFrame + 1, 0)
  else
    toLex (0, system.dataDistance)

/-- What brings the next message nearer. -/
def DownHelps (system : TwoParty) (event : PartyEvent) : Prop :=
  if system.downlink = [] then event.AgentReads else event.BoardReads

/-- The step that has a message handled, or nearer to its handler, or is not
one that could. -/
def DownProgress (table : TopicTable) (system : TwoParty) (event : PartyEvent)
    (next : TwoParty) : Prop :=
  system.handled table event ≠ [] ∨ next.downRank < system.downRank ∨
    next.downRank = system.downRank ∧ ¬system.DownHelps event ∧
      ∀ other, system.DownHelps other → next.DownHelps other

section Steps

variable {table : TopicTable} {rcl : Rclcpp} {system next : TwoParty}
  {process : AgentProcess} {event : PartyEvent}

theorem waiting_of_running (running : system.agent = some process) :
    system.waiting =
      process.loop.agent.toClientMsgQueue.items.map OutboundMsg.frame := by
  simp [waiting, running]

theorem queued_eq_filter (system : TwoParty) :
    system.queued = system.waiting.filter fitsFrame := by
  cases running : system.agent with
  | none => simp [queued, waiting, running]
  | some process => rw [queued_of_running running, waiting_of_running running]

theorem downRank_queued (empty : system.downlink = []) :
    system.downRank = toLex (system.waiting.findIdx fitsFrame + 1, 0) :=
  if_pos empty

theorem downRank_onLink (more : system.downlink ≠ []) :
    system.downRank = toLex (0, system.dataDistance) :=
  if_neg more

/-- A step that leaves the queue and the link as they were. -/
theorem DownProgress.of_silent (downlink : next.downlink = system.downlink)
    (waiting : next.waiting = system.waiting)
    (distance : next.dataDistance = system.dataDistance)
    (noRead : ¬event.BoardReads) (noRound : ¬event.AgentReads) :
    system.DownProgress table event next := by
  right
  right
  refine ⟨?_, ?_, ?_⟩
  · rw [downRank, downRank, downlink, waiting, distance]
  · unfold DownHelps
    split
    · exact noRound
    · exact noRead
  · intro other helps
    rwa [DownHelps, downlink]

theorem filter_isData_eq_nil {events : List FrameEvent} :
    (events.map FrameEvent.frame).filter isData = [] ↔
      events.any (fun event => isData event.frame) = false := by
  simp

/-- DATA is on the link when one of its frames completes. -/
theorem emits_data (more : system.downlink ≠ []) :
    (emitted feedByte system.board.parser system.toBoard).any
      (fun event => isData event.frame) = true := by
  cases silent : (emitted feedByte system.board.parser system.toBoard).any
      (fun event => isData event.frame) with
  | true => rfl
  | false => exact absurd (filter_isData_eq_nil.mpr silent) more

/-- Each DATA frame on the link has its handler. -/
theorem Serving.calls_length (serving : system.Serving table) :
    (system.downlink.filterMap table.callOf).length =
      system.downlink.length := by
  rw [List.filterMap_length_eq_length]
  intro frame member
  have known := serving.subscribers frame (List.mem_append_left _ member)
  simpa [TopicTable.callOf, TopicTable.handlerCall] using known

/-- A read handles the next message, or brings it nearer. -/
theorem Serving.down_rxPoll (serving : system.Serving table)
    (still : next.Serving table) (wellFormed : table.WellFormed) {count : Nat}
    (stepped : system.step table rcl (.rxPoll count) = some next) :
    system.DownProgress table (.rxPoll count) next := by
  obtain ⟨calls, suffix, _⟩ := downlink_rxPoll serving.installed
    wellFormed.distinct stepped
  obtain ⟨toBoard, parser⟩ := rxPoll_takes stepped
  obtain ⟨agent, _, _⟩ := rxPoll_agent stepped
  have waiting : next.waiting = system.waiting := by
    rw [TwoParty.waiting, TwoParty.waiting, agent]
  by_cases empty : system.downlink = []
  · have stillEmpty : next.downlink = [] := List.suffix_nil.mp (empty ▸ suffix)
    right
    right
    refine ⟨?_, ?_, ?_⟩
    · rw [downRank_queued empty, downRank_queued stillEmpty, waiting]
    · rw [DownHelps, if_pos empty]
      exact id
    · intro other helps
      rw [DownHelps, if_pos empty] at helps
      rwa [DownHelps, if_pos stillEmpty]
  · by_cases shorter : next.downlink.length < system.downlink.length
    · left
      intro nothing
      have lengths := congrArg List.length calls
      rw [List.length_append, serving.calls_length, still.calls_length,
        show system.board.handlerCalls table _ = [] from nothing] at lengths
      simp only [List.length_nil] at lengths
      omega
    · right
      have same : next.downlink = system.downlink :=
        suffix.eq_of_length_le (Nat.not_lt.mp shorter)
      have more : next.downlink ≠ [] := same ▸ empty
      rw [downRank_onLink empty, downRank_onLink more]
      rcases rxPoll_reads stepped (emits_data empty) with
        ⟨front, whole, parser, reads⟩ | nearer | ⟨idle, noRead⟩
      · have split : system.downlink = ((emitted feedByte system.board.parser
            front).map FrameEvent.frame).filter isData ++ next.downlink := by
          rw [downlink, downlink, whole, framesOf_append, List.filter_append,
            parser]
          rfl
        have taken := mt filter_isData_eq_nil.mp (ne_false_of_eq_true reads)
        rw [same] at split
        exact absurd (List.self_eq_append_left.mp split) taken
      · left
        exact Prod.Lex.toLex_lt_toLex.mpr (.inr ⟨rfl, nearer⟩)
      · right
        refine ⟨by rw [dataDistance, idle]; rfl, ?_, ?_⟩
        · rw [DownHelps, if_neg empty]
          exact noRead
        · intro other helps
          rw [DownHelps, if_neg empty] at helps
          rwa [DownHelps, if_neg more]

/-- A round sends the oldest message of the queue. -/
theorem takeOutbound_sends {queue : ThreadSafeQueue OutboundMsg}
    (input : IterationInput) {message : OutboundMsg} {rest : List OutboundMsg}
    (items : queue.items = message :: rest)
    (room : queue.size + (input.beforeSize ++ input.beforePop).length ≤
      maxQueueSize) :
    (takeOutbound queue input).2 = [message.frame] ∧
      (takeOutbound queue input).1.items = rest ++
        (input.beforeSize ++ input.beforePop).filterMap Incoming.pushed? := by
  have pushed := pushIncoming_items _ room
  rw [List.length_append, ← Nat.add_assoc] at room
  have sized := pushIncoming_items _ (Nat.le_of_add_right_le room)
  rw [pushIncoming_append, items, List.cons_append] at pushed
  rw [items, List.cons_append] at sized
  have counted : (pushIncoming queue input.beforeSize).size > 0 := by
    rw [ThreadSafeQueue.size, sized]
    exact Nat.succ_pos _
  simp only [takeOutbound, counted, if_true]
  generalize pushIncoming (pushIncoming queue input.beforeSize)
    input.beforePop = full at pushed
  rcases full with ⟨all, stopping, length_le⟩
  cases pushed
  exact ⟨rfl, rfl⟩

/-- A round sends the first message of the queue. -/
theorem Serving.down_agentRound (serving : system.Serving table)
    (wellFormed : table.WellFormed) (createsAll : rcl.CreatesAll table)
    {reads : List Nat} {beforeSize beforePop : List Incoming}
    (stepped : system.agentRound rcl reads beforeSize beforePop = some next)
    (spacious : system.Spacious (.agentRound reads beforeSize beforePop))
    (waits : system.downlink ++ system.queued ≠ []) :
    system.DownProgress table (.agentRound reads beforeSize beforePop)
      next := by
  obtain ⟨process, running, _⟩ := serving.running
  obtain ⟨round, output, ⟨read, finished, iterates, left⟩, rfl⟩ :=
    serving.takesRound wellFormed createsAll running stepped
  obtain ⟨loop, received, iterated⟩ := AgentLoop.iterated iterates
  have answers := serving.together.linked.answers running
    (serving.together.cleanStart reads) read finished
  have downlink : (system.afterRound process round output).downlink = _ :=
    serving.together.linked.afterRound_downlink running received iterated
      answers
  right
  by_cases empty : system.downlink = []
  · left
    rw [empty, List.nil_append, queued_eq_filter] at waits
    have queue := waiting_of_running running
    cases items : process.loop.agent.toClientMsgQueue.items with
    | nil =>
        rw [queue, items] at waits
        exact absurd rfl waits
    | cons message rest =>
        obtain ⟨sends, kept⟩ := takeOutbound_sends
          { received := round.received.frame, beforeSize, beforePop } items
          (spacious process running)
        rw [items, List.map_cons] at queue
        rw [empty, List.nil_append, sends, List.flatMap_cons, List.flatMap_nil,
          List.append_nil] at downlink
        rw [downRank_queued empty]
        by_cases fits : fitsFrame message.frame = true
        · have more : (system.afterRound process round output).downlink ≠
              [] := by
            rw [downlink, onLink, if_pos (by simpa [fitsFrame] using fits)]
            exact List.cons_ne_nil _ _
          rw [downRank_onLink more]
          exact Prod.Lex.toLex_lt_toLex.mpr (.inl (Nat.succ_pos _))
        · have none : (system.afterRound process round output).downlink =
              [] := by
            rw [downlink, onLink, if_neg (by simpa [fitsFrame] using fits)]
          rw [downRank_queued none]
          have later : (system.afterRound process round output).waiting =
              rest.map OutboundMsg.frame ++
                ((beforeSize ++ beforePop).filterMap Incoming.pushed?).map
                  OutboundMsg.frame := by
            rw [waiting_of_running (afterRound_running system), iterated.agent,
              received.queue]
            simp only [kept, List.map_append]
          rw [queue, List.filter_cons_of_neg fits, ne_eq,
            List.filter_eq_nil_iff] at waits
          have exists_fit : (rest.map OutboundMsg.frame).findIdx fitsFrame <
              (rest.map OutboundMsg.frame).length := by
            rw [List.findIdx_lt_length]
            simpa using waits
          apply Prod.Lex.toLex_lt_toLex.mpr
          left
          rw [later, queue, List.findIdx_append, if_pos exists_fit,
            List.findIdx_cons, Bool.eq_false_iff.mpr fits]
          exact Nat.lt_succ_self _
  · right
    have more : (system.afterRound process round output).downlink ≠ [] := by
      rw [downlink]
      exact fun nothing => empty (List.append_eq_nil_iff.mp nothing).1
    refine ⟨?_, ?_, ?_⟩
    · rw [downRank_onLink empty, downRank_onLink more]
      congr 2
      exact Transducer.symbolsTo_append_of_any (emits_data empty) _
    · rw [DownHelps, if_neg empty]
      exact id
    · intro other helps
      rw [DownHelps, if_neg empty] at helps
      rwa [DownHelps, if_neg more]

/-- Every permitted step has the next message handled, or brings it nearer, or
is not one that could. -/
theorem Serving.down_progress (serving : system.Serving table)
    (still : next.Serving table) (wellFormed : table.WellFormed)
    (createsAll : rcl.CreatesAll table)
    (stepped : system.step table rcl event = some next)
    (spacious : system.Spacious event)
    (waits : system.downlink ++ system.queued ≠ []) :
    system.DownProgress table event next := by
  cases event with
  | rxPoll count => exact serving.down_rxPoll still wellFormed stepped
  | txPoll accepted =>
      cases stepped
      have parser := parser_txPoll serving.together.linked.settled accepted
      apply DownProgress.of_silent _ (by rfl) _ id id
      · simp only [downlink, TwoParty.txPoll, parser]
      · simp only [dataDistance, TwoParty.txPoll, parser]
  | publish topicId serialized =>
      cases stepped
      apply DownProgress.of_silent _ (by rfl) _ id id
      · simp only [downlink, TwoParty.publish, parser_publish]
      · simp only [dataDistance, TwoParty.publish, parser_publish]
  | agentRound reads beforeSize beforePop =>
      exact serving.down_agentRound wellFormed createsAll stepped spacious
        waits

end Steps

end TwoParty

end NanoRos
