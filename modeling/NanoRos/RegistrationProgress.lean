import NanoRos.UplinkProgress

/-!
# Progress of the registration

No step makes the registration longer.  It gets shorter with the agent's first
round, with each frame the agent dispatches, and with each answer the board
reads; the next answer comes nearer with each byte the board reads.
-/

namespace NanoRos

open Board PartialRun StopAndWait
open NrosStreamParser (framesOf framesOf_append feedByte)
open Transducer (after emitted symbolsTo)

/-- A frame that is part of the registration. -/
def isAnswer (frame : Frame) : Bool :=
  backwardMessage frame ≠ .other

namespace TwoParty

/-- How many messages the registration still takes. -/
def remaining (table : TopicTable) (system : TwoParty) : Nat :=
  StopAndWait.remaining table.keys system.view

/-- How many bytes the board has to read to complete the next answer. -/
def answerDistance (system : TwoParty) : Nat :=
  symbolsTo feedByte (fun event => isAnswer event.frame) system.board.parser
    system.toBoard

section Steps

variable {table : TopicTable} {rcl : Rclcpp} {system next : TwoParty}
  {process : AgentProcess} {event : PartyEvent}

theorem Serving.remaining_advance (serving : system.Serving table)
    (advances : system.Advances table anyOrder next) :
    next.remaining table ≤ system.remaining table :=
  remaining_step serving.together.agreed serving.opened advances.step

theorem Serving.advances_round (serving : system.Serving table)
    {reads : List Nat} {beforeSize beforePop : List Incoming}
    (stepped : system.agentRound rcl reads beforeSize beforePop = some next) :
    system.Advances table anyOrder next :=
  serving.together.linked.agentRound (serving.together.cleanStart reads) stepped

/-- No step makes the registration longer. -/
theorem Serving.remaining_le (serving : system.Serving table)
    (wellFormed : table.WellFormed)
    (stepped : system.step table rcl event = some next) :
    next.remaining table ≤ system.remaining table := by
  cases event with
  | rxPoll count =>
      simp only [TwoParty.step, rxPoll_eq_exec] at stepped
      have kept : next.Serving table ∧
          next.remaining table ≤ system.remaining table := by
        apply exec_preserved _ ⟨serving, Nat.le_refl _⟩ stepped
        rintro before _ after ⟨serving, bound⟩ read
        have advances : before.Advances table anyOrder after :=
          serving.together.linked.rxByte wellFormed.registrable
            (fun _ _ _ => trivial) (fun _ => serving.together.clear) read
        exact ⟨(serving.rxByte wellFormed read).1,
          Nat.le_trans (serving.remaining_advance advances) bound⟩
      exact kept.2
  | txPoll accepted =>
      cases stepped
      exact serving.remaining_advance (serving.together.linked.txPoll accepted)
  | publish topicId serialized =>
      cases stepped
      exact serving.remaining_advance
        (serving.together.linked.publish topicId serialized)
  | agentRound reads beforeSize beforePop =>
      exact serving.remaining_advance (serving.advances_round stepped)

/-- Whose turn it is. -/
theorem Serving.turn (serving : system.Serving table)
    (running : system.agent = some process) :
    Turn table.keys system.view (process.receiver system.flight)
      (system.remaining table) :=
  turn_of_agreed serving.together.agreed serving.opened
    (view_receiver running)

/-- The first round makes it shorter. -/
theorem Serving.remaining_lt_of_round (serving : system.Serving table)
    (wellFormed : table.WellFormed) (createsAll : rcl.CreatesAll table)
    {reads : List Nat} {beforeSize beforePop : List Incoming}
    (stepped : system.agentRound rcl reads beforeSize beforePop = some next)
    (first : system.remaining table = 2 * table.keys.length + 3) :
    next.remaining table < system.remaining table := by
  obtain ⟨process, running, _⟩ := serving.running
  obtain ⟨round, output, ⟨read, finished, _, _⟩, rfl⟩ :=
    serving.takesRound wellFormed createsAll running stepped
  have answers := serving.together.linked.answers running
    (serving.together.cleanStart reads) read finished
  have greeted : (system.afterRound process round output).remaining table ≤
      2 * table.keys.length + 2 :=
    remaining_le_of_greeted (system.afterRound_receiver answers) rfl
  rw [first]
  exact Nat.lt_succ_of_le greeted

/-- A frame that is dispatched makes it shorter. -/
theorem Serving.remaining_lt_of_dispatched (serving : system.Serving table)
    (still : next.Serving table)
    (stepped : system.step table rcl event = some next)
    (more : system.remaining table ≠ 0)
    (grew : system.dispatched.length < next.dispatched.length) :
    next.remaining table < system.remaining table := by
  cases event with
  | rxPoll count =>
      rw [(rxPoll_agent stepped).2.2] at grew
      exact absurd grew (Nat.lt_irrefl _)
  | txPoll accepted =>
      cases stepped
      exact absurd grew (Nat.lt_irrefl _)
  | publish topicId serialized =>
      cases stepped
      exact absurd grew (Nat.lt_irrefl _)
  | agentRound reads beforeSize beforePop =>
      obtain ⟨process, running, _⟩ := still.running
      have alive : next.view.receiver ≠ none := by
        rw [view_receiver running]
        nofun
      have undone : closed system.view = false := by
        obtain ⟨process, running, _⟩ := serving.running
        cases done : closed system.view with
        | false => rfl
        | true =>
            obtain ⟨greeted, quiet, _⟩ := serving.opened (closed_iff.mp done)
              _ (view_receiver running)
            exact absurd (remaining_closed (view_receiver running) greeted
              quiet done) more
      apply remaining_lt_of_handled serving.together.agreed serving.opened
        (serving.advances_round stepped).step undone alive
      simpa [TwoParty.view] using grew

theorem control_map_eq_nil {events : List FrameEvent} :
    control ((events.map FrameEvent.frame).map backwardMessage) = [] ↔
      events.any (fun event => isAnswer event.frame) = false := by
  simp [StopAndWait.control, isAnswer]

/-- A read takes a frame that is awaited off the link, or brings it nearer, or
reads nothing. -/
theorem rxPoll_reads {wanted : FrameEvent → Bool} {count : Nat}
    (stepped : system.step table rcl (.rxPoll count) = some next)
    (due : (emitted feedByte system.board.parser system.toBoard).any wanted =
      true) :
    (∃ front, system.toBoard = front ++ next.toBoard ∧
      next.board.parser = after feedByte system.board.parser front ∧
      (emitted feedByte system.board.parser front).any wanted = true) ∨
    symbolsTo feedByte wanted next.board.parser next.toBoard <
      symbolsTo feedByte wanted system.board.parser system.toBoard ∨
    symbolsTo feedByte wanted next.board.parser next.toBoard =
        symbolsTo feedByte wanted system.board.parser system.toBoard ∧
      ¬0 < count := by
  obtain ⟨toBoard, parser⟩ := rxPoll_takes stepped
  have whole := List.take_append_drop (min count rxChunkSize) system.toBoard
  generalize first : system.toBoard.take (min count rxChunkSize) = front
    at parser whole
  rw [← toBoard] at whole
  cases reads : (emitted feedByte system.board.parser front).any wanted with
  | true => exact .inl ⟨front, whole.symm, parser, reads⟩
  | false =>
      have nearer := Transducer.symbolsTo_append_quiet reads next.toBoard
      rw [whole, ← parser] at nearer
      right
      rcases Nat.eq_zero_or_pos front.length with nothing | reading
      · right
        refine ⟨by omega, fun positive => ?_⟩
        have empty : system.toBoard = [] := by
          rw [List.length_eq_zero_iff.mp nothing, List.take_eq_nil_iff]
            at first
          simp only [rxChunkSize] at first
          exact first.resolve_left (by omega)
        rw [empty] at due
        cases due
      · left
        omega

/-- Reading brings the next answer nearer, until it is read. -/
theorem Serving.answer_progress (serving : system.Serving table)
    (still : next.Serving table) (wellFormed : table.WellFormed)
    (createsAll : rcl.CreatesAll table)
    (stepped : system.step table rcl event = some next)
    (due : control system.view.outbox ≠ []) :
    next.remaining table < system.remaining table ∨
      next.answerDistance < system.answerDistance ∨
        next.answerDistance = system.answerDistance ∧ ¬event.BoardReads := by
  have answered : (emitted feedByte system.board.parser system.toBoard).any
      (fun event => isAnswer event.frame) = true := by
    cases silent : (emitted feedByte system.board.parser system.toBoard).any
        (fun event => isAnswer event.frame) with
    | true => rfl
    | false => exact absurd (control_map_eq_nil.mpr silent) due
  obtain ⟨process, running, _⟩ := serving.running
  cases event with
  | txPoll accepted =>
      cases stepped
      have parser := parser_txPoll serving.together.linked.settled accepted
      refine .inr (.inr ⟨?_, id⟩)
      simp only [answerDistance, TwoParty.txPoll, parser]
  | publish topicId serialized =>
      cases stepped
      refine .inr (.inr ⟨?_, id⟩)
      simp only [answerDistance, TwoParty.publish, parser_publish]
  | agentRound reads beforeSize beforePop =>
      obtain ⟨round, output, _, rfl⟩ :=
        serving.takesRound wellFormed createsAll running stepped
      refine .inr (.inr ⟨?_, id⟩)
      exact Transducer.symbolsTo_append_of_any answered _
  | rxPoll count =>
      rcases rxPoll_reads stepped answered with
        ⟨front, whole, parser, reads⟩ | nearer
      · left
        obtain ⟨later, laterRunning, _⟩ := still.running
        apply remaining_lt_of_heard serving.together.agreed serving.opened
          (view_receiver running) due (still.turn laterRunning) _
          (serving.remaining_le wellFormed stepped)
        -- no second answer is under way behind the first
        have single := control_length_le serving.together.agreed
          (view_receiver running)
        have split : control system.view.outbox =
            control (((emitted feedByte system.board.parser front).map
              FrameEvent.frame).map backwardMessage) ++
              control next.view.outbox := by
          rw [TwoParty.view, TwoParty.view, whole, framesOf_append,
            List.map_append, control_append, parser]
          rfl
        have heard := mt control_map_eq_nil.mp (ne_false_of_eq_true reads)
        have := List.length_pos_iff.mpr heard
        rw [split, List.length_append] at single
        exact List.length_eq_zero_iff.mp (by omega)
      · exact .inr nearer

end Steps

end TwoParty

end NanoRos
