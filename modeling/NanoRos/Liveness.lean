import NanoRos.DownlinkProgress

/-!
# What is bound to happen

Runs that never stop and in which neither party stops reading and writing: the
registration comes to its end, and what the board publishes reaches ROS.
-/

namespace NanoRos

open Board PartialRun StopAndWait
open NrosStreamParser (framesOf framesOf_append feedByte)
open Transducer (after emitted symbolsTo)

namespace TwoParty

/-- An endless run from power-up in which only known topics are used. -/
structure ServiceRun (table : TopicTable) (rcl : Rclcpp)
    (states : Nat → TwoParty) (events : Nat → PartyEvent) : Prop where
  run : EndlessRun (step table rcl) states events
  start : states 0 = initial table
  permitted : ∀ time, (events time).Permitted table
  fair : FairSchedule events

/-- The same from any state of a system at work. -/
structure ServingRun (table : TopicTable) (rcl : Rclcpp)
    (states : Nat → TwoParty) (events : Nat → PartyEvent) : Prop where
  run : EndlessRun (step table rcl) states events
  start : (states 0).Serving table
  permitted : ∀ time, (events time).Permitted table
  fair : FairSchedule events

/-- The registration is through on both sides: the board may publish, and the
agent has a handle for each topic of the table. -/
structure Registered (table : TopicTable) (system : TwoParty) : Prop where
  board : system.board.registrationComplete = true
  agent : ∃ process, system.agent = some process ∧
    process.loop.agent.Connected ∧
    process.loop.agent.newTopics.map Topic.key = table.keys

theorem Serving.registered {table : TopicTable} {system : TwoParty}
    (serving : system.Serving table)
    (nothing : system.remaining table = 0) : system.Registered table := by
  obtain ⟨process, running, connected⟩ := serving.running
  have receiver := view_receiver running
  have done : closed system.view = true := by
    have turn := serving.turn running
    rw [nothing] at turn
    generalize zero : 0 = count at turn
    cases turn with
    | opened done => exact done
    | fresh _ => omega
    | toHear _ _ _ => omega
    | toHandle _ _ _ => omega
  have history := closed_iff.mp done
  refine ⟨?_, process, running,
    connected ((doneDispatched_iff system).mpr history), ?_⟩
  · exact serving.concludes.closed (by rw [receiver]; nofun) done
  · exact (serving.opened history _ receiver).2.2.2

section Run

variable {table : TopicTable} {rcl : Rclcpp} {states : Nat → TwoParty}
  {events : Nat → PartyEvent}

theorem ServiceRun.servingRun (service : ServiceRun table rcl states events) :
    ServingRun table rcl states events :=
  ⟨service.run, service.start ▸ serving_initial table, service.permitted,
    service.fair⟩

theorem ServingRun.serving (service : ServingRun table rcl states events)
    (wellFormed : table.WellFormed) (createsAll : rcl.CreatesAll table)
    (time : Nat) : (states time).Serving table := by
  apply service.run.invariant _ service.start time
  intro time serving stepped
  exact (Serving.moves wellFormed createsAll _ _ _ serving
    (service.permitted time) stepped).serving

theorem ServingRun.moves (service : ServingRun table rcl states events)
    (wellFormed : table.WellFormed) (createsAll : rcl.CreatesAll table)
    (time : Nat) :
    (states time).Moves table rcl (events time) (states (time + 1)) :=
  Serving.moves wellFormed createsAll _ _ _
    (service.serving wellFormed createsAll time) (service.permitted time)
    (service.run time)

/-- Frames are loaded one behind the other. -/
theorem ServingRun.loaded_prefix (service : ServingRun table rcl states events)
    (wellFormed : table.WellFormed) (createsAll : rcl.CreatesAll table)
    {time later : Nat} (order : time ≤ later) :
    (states time).loaded <+: (states later).loaded := by
  have steps (time : Nat) :
      (states time).loaded <+: (states (time + 1)).loaded :=
    (service.moves wellFormed createsAll time).loads
  exact related_of_steps (fun _ => List.prefix_rfl)
    (fun _ _ _ => List.IsPrefix.trans) steps order

/-- Frames are dispatched one behind the other. -/
theorem ServingRun.dispatched_prefix
    (service : ServingRun table rcl states events)
    (wellFormed : table.WellFormed) (createsAll : rcl.CreatesAll table)
    {time later : Nat} (order : time ≤ later) :
    (states time).dispatched.map Dispatched.frame <+:
      (states later).dispatched.map Dispatched.frame := by
  have steps (time : Nat) : (states time).dispatched.map Dispatched.frame <+:
      (states (time + 1)).dispatched.map Dispatched.frame :=
    (service.moves wellFormed createsAll time).dispatches
  exact related_of_steps (fun _ => List.prefix_rfl)
    (fun _ _ _ => List.IsPrefix.trans) steps order

/-- What brings the next frame nearer comes again and again. -/
theorem ServingRun.upHelps_recurs
    (service : ServingRun table rcl states events) (time : Nat) :
    Recurs (states time).UpHelps events := by
  intro earliest
  cases running : (states time).agent with
  | none => exact ⟨earliest, Nat.le_refl earliest, fun _ other => by
      rw [running] at other; cases other⟩
  | some process =>
      by_cases far : process.transport.pending (states time).toAgent = []
      · obtain ⟨later, order, writes⟩ := service.fair.boardWrites earliest
        exact ⟨later, order, (upHelps_far running far).mpr writes⟩
      · obtain ⟨later, order, reads⟩ := service.fair.agentReads earliest
        exact ⟨later, order, (upHelps_near running far).mpr reads⟩

/-- Every frame that is loaded is dispatched by the agent at some time. -/
theorem ServingRun.dispatches (service : ServingRun table rcl states events)
    (wellFormed : table.WellFormed) (createsAll : rcl.CreatesAll table)
    (start count : Nat) (bound : count ≤ (states start).loaded.length) :
    ∃ time, start ≤ time ∧ count ≤ (states time).dispatched.length := by
  have monotone : Monotone fun time => (states time).dispatched.length := by
    intro time later order
    simpa using
      (service.dispatched_prefix wellFormed createsAll order).length_le
  have steps (time : Nat) (late : start ≤ time)
      (short : (states time).dispatched.length < count) :
      RankStep
        (fun later => (states time).dispatched.length <
          (states later).dispatched.length)
        (fun time => (states time).upRank)
        (fun time => (states time).UpHelps) events time := by
    have loaded := (service.loaded_prefix wellFormed createsAll late).length_le
    have waits : (states time).underway ≠ [] := by
      intro nothing
      have same : (states time).loaded.length =
          (states time).dispatched.length := by
        rw [TwoParty.loaded, nothing, List.append_nil, List.length_map]
      omega
    exact (service.serving wellFormed createsAll time).up_progress wellFormed
      createsAll (service.run time) waits
  exact reaches_of_rank monotone steps service.upHelps_recurs

/-- What is loaded at one time is dispatched at a later one. -/
theorem ServingRun.loaded_dispatched
    (service : ServingRun table rcl states events)
    (wellFormed : table.WellFormed) (createsAll : rcl.CreatesAll table)
    (start : Nat) :
    ∃ time, start ≤ time ∧
      (states start).loaded <+:
        (states time).dispatched.map Dispatched.frame := by
  obtain ⟨time, late, enough⟩ := service.dispatches wellFormed createsAll
    start _ (Nat.le_refl (states start).loaded.length)
  refine ⟨time, late, ?_⟩
  have front := service.loaded_prefix wellFormed createsAll late
  have mine : (states time).dispatched.map Dispatched.frame <+:
      (states time).loaded := List.prefix_append _ _
  apply List.prefix_of_prefix_length_le front mine
  rwa [List.length_map]

/-! ### Registration -/

/-- No step makes the registration longer. -/
theorem ServingRun.remaining_le
    (service : ServingRun table rcl states events)
    (wellFormed : table.WellFormed) (createsAll : rcl.CreatesAll table)
    {time later : Nat} (order : time ≤ later) :
    (states later).remaining table ≤ (states time).remaining table := by
  have falls : Antitone fun time => (states time).remaining table := by
    apply antitone_nat_of_succ_le
    intro time
    exact (service.serving wellFormed createsAll time).remaining_le wellFormed
      (service.run time)
  exact falls order

/-- A frame that is dispatched on the way makes the registration shorter. -/
theorem ServingRun.remaining_lt_of_dispatched
    (service : ServingRun table rcl states events)
    (wellFormed : table.WellFormed) (createsAll : rcl.CreatesAll table)
    {time later : Nat} (order : time ≤ later)
    (more : (states time).remaining table ≠ 0)
    (grew : (states time).dispatched.length <
      (states later).dispatched.length) :
    (states later).remaining table < (states time).remaining table := by
  induction later, order using Nat.le_induction with
  | base => exact absurd grew (Nat.lt_irrefl _)
  | succ later order induction =>
      have bound := service.remaining_le wellFormed createsAll order
      have last := service.remaining_le wellFormed createsAll
        (Nat.le_succ later)
      by_cases before :
          (states time).dispatched.length < (states later).dispatched.length
      · exact Nat.lt_of_le_of_lt last (induction before)
      · rcases Nat.lt_or_eq_of_le bound with fewer | same
        · exact Nat.lt_of_le_of_lt last fewer
        · rw [← same] at more ⊢
          exact (service.serving wellFormed createsAll
            later).remaining_lt_of_dispatched
              (service.serving wellFormed createsAll (later + 1))
              (service.run later) more (by omega)

/-- While an answer is under way, the registration gets shorter at some
time: the board reads it. -/
theorem ServingRun.answer_read (service : ServingRun table rcl states events)
    (wellFormed : table.WellFormed) (createsAll : rcl.CreatesAll table)
    (start count : Nat) (total : (states start).remaining table = count)
    (due : ∀ time, start ≤ time → (states time).remaining table = count →
      control (states time).view.outbox ≠ []) :
    ∃ time, start ≤ time ∧ (states time).remaining table < count := by
  have steps (time : Nat) (late : start ≤ time)
      (away : ¬(states time).remaining table < count) :
      RankStep (fun time => (states time).remaining table < count)
        (fun time => (states time).answerDistance)
        (fun _ => PartyEvent.BoardReads) events time := by
    have bound := service.remaining_le wellFormed createsAll late
    have same : (states time).remaining table = count := by omega
    rcases (service.serving wellFormed createsAll time).answer_progress
      (service.serving wellFormed createsAll (time + 1)) wellFormed createsAll
      (service.run time) (due time late same) with fewer | nearer | ⟨idle, no⟩
    · exact .inl (same ▸ fewer)
    · exact .inr (.inl nearer)
    · exact .inr (.inr ⟨idle, no, fun _ => id⟩)
  exact eventually_of_rank steps fun _ _ _ => service.fair.boardReads

/-- As long as messages remain, there are fewer at some time. -/
theorem ServingRun.remaining_falls
    (service : ServingRun table rcl states events)
    (wellFormed : table.WellFormed) (createsAll : rcl.CreatesAll table)
    (time : Nat) (more : (states time).remaining table ≠ 0) :
    ∃ later, time ≤ later ∧
      (states later).remaining table < (states time).remaining table := by
  have serving := service.serving wellFormed createsAll
  obtain ⟨process, running, _⟩ := (serving time).running
  have turn := (serving time).turn running
  generalize total : (states time).remaining table = count at turn more ⊢
  cases turn with
  | opened _ => exact absurd rfl more
  | toHandle waits _ _ =>
      have frames : 0 < (states time).underway.length := by
        rw [underway_of_running running]
        apply List.length_pos_iff.mpr
        exact fun empty => waits (by rw [AgentProcess.receiver, empty]; rfl)
      have bound : (states time).dispatched.length + 1 ≤
          (states time).loaded.length := by
        rw [TwoParty.loaded, List.length_append, List.length_map]
        omega
      obtain ⟨later, order, grew⟩ :=
        service.dispatches wellFormed createsAll time _ bound
      refine ⟨later, order, ?_⟩
      rw [← total]
      exact service.remaining_lt_of_dispatched wellFormed createsAll order
        (total ▸ more) grew
  | fresh unasked =>
      obtain ⟨later, order, round⟩ := service.fair.agentReads time
      have bound := service.remaining_le wellFormed createsAll order
      rcases Nat.lt_or_eq_of_le bound with fewer | same
      · exact ⟨later, order, total ▸ fewer⟩
      · refine ⟨later + 1, Nat.le_succ_of_le order, ?_⟩
        have stepped := service.run later
        rw [← total, ← same]
        cases event : events later with
        | agentRound reads beforeSize beforePop =>
            rw [event] at stepped
            exact (serving later).remaining_lt_of_round wellFormed createsAll
              stepped (same.trans total)
        | rxPoll count => rw [event] at round; cases round
        | txPoll accepted => rw [event] at round; cases round
        | publish topicId serialized => rw [event] at round; cases round
  | toHear _ left _ =>
      apply service.answer_read wellFormed createsAll time _ total
      intro later _ same
      obtain ⟨process, running, _⟩ := (serving later).running
      have turn := (serving later).turn running
      rw [same] at turn
      generalize even : 2 * left + 2 = count at turn
      cases turn with
      | toHear due _ _ => exact due
      | fresh _ => omega
      | toHandle _ _ _ => omega
      | opened _ => cases even

/-- The registration comes to its end. -/
theorem ServingRun.closes (service : ServingRun table rcl states events)
    (wellFormed : table.WellFormed) (createsAll : rcl.CreatesAll table) :
    ∃ time, (states time).remaining table = 0 := by
  have falls (count : Nat) : ∀ time, (states time).remaining table = count →
      ∃ later, (states later).remaining table = 0 := by
    induction count using Nat.strong_induction_on with
    | h count induction =>
        intro time total
        by_cases nothing : (states time).remaining table = 0
        · exact ⟨time, nothing⟩
        · obtain ⟨later, _, fewer⟩ := service.remaining_falls wellFormed
            createsAll time nothing
          exact induction _ (total ▸ fewer) later rfl
  exact falls _ 0 rfl

/-- From some time on the registration is through. -/
theorem ServingRun.registers (service : ServingRun table rcl states events)
    (wellFormed : table.WellFormed) (createsAll : rcl.CreatesAll table) :
    ∃ time, ∀ later, time ≤ later → (states later).Registered table := by
  obtain ⟨time, nothing⟩ := service.closes wellFormed createsAll
  refine ⟨time, fun later order => ?_⟩
  apply (service.serving wellFormed createsAll later).registered
  have bound := service.remaining_le wellFormed createsAll order
  omega

/-! ### Publishing -/

/-- What ROS has got is what was dispatched. -/
theorem ServingRun.published_eq
    (service : ServingRun table rcl states events)
    (wellFormed : table.WellFormed) (createsAll : rcl.CreatesAll table)
    (time : Nat) :
    (states 0).delivered table ++
        (record (step table rcl) (published rcl) (states 0)
          (eventsUntil events time)).map some =
      (states time).delivered table := by
  induction time with
  | zero => exact List.append_nil _
  | succ time induction =>
      rw [service.run.record_succ, List.map_append, ← List.append_assoc,
        induction]
      exact (service.moves wellFormed createsAll time).delivers.symm

/-- The publications that loaded frames are to become, or have become. -/
theorem loaded_publications (system : TwoParty) :
    (system.loaded.filter isData).map table.publicationOf =
      system.delivered table ++ system.outbound table := by
  rw [loaded, List.filter_append, List.map_append]
  rfl

/-- What the board has accepted for publishing is what it has loaded. -/
theorem ServingRun.accepted_eq
    (service : ServingRun table rcl states events)
    (wellFormed : table.WellFormed) (createsAll : rcl.CreatesAll table)
    (time : Nat) :
    ((states 0).loaded.filter isData).map table.publicationOf ++
        (record (step table rcl) accepted (states 0)
            (eventsUntil events time)).map
          (fun (topicId, payload) => table.publication topicId payload) =
      ((states time).loaded.filter isData).map table.publicationOf := by
  induction time with
  | zero => exact List.append_nil _
  | succ time induction =>
      have moves := service.moves wellFormed createsAll time
      rw [service.run.record_succ, List.map_append, ← List.append_assoc,
        induction, loaded_publications, loaded_publications, moves.delivers,
        List.append_assoc, List.append_assoc, moves.up]
      rfl

/-- Whatever has been accepted by one time has been published by a later
one. -/
theorem ServingRun.publishes (service : ServingRun table rcl states events)
    (wellFormed : table.WellFormed) (createsAll : rcl.CreatesAll table)
    (time : Nat) :
    ∃ later, time ≤ later ∧
      ((states 0).loaded.filter isData).map table.publicationOf ++
          (record (step table rcl) accepted (states 0)
              (eventsUntil events time)).map
            (fun (topicId, payload) => table.publication topicId payload) <+:
        (states 0).delivered table ++
          (record (step table rcl) (published rcl) (states 0)
            (eventsUntil events later)).map some := by
  obtain ⟨later, order, dispatched⟩ :=
    service.loaded_dispatched wellFormed createsAll time
  refine ⟨later, order, ?_⟩
  rw [service.accepted_eq wellFormed createsAll,
    service.published_eq wellFormed createsAll]
  exact (dispatched.filter isData).map table.publicationOf

/-! ### Handling -/

/-- What brings the next message to the board nearer comes again and again. -/
theorem ServingRun.downHelps_recurs
    (service : ServingRun table rcl states events) (time : Nat) :
    Recurs (states time).DownHelps events := by
  intro earliest
  unfold DownHelps
  split
  · exact service.fair.agentReads earliest
  · exact service.fair.boardReads earliest

/-- What the board has handled, followed by what is under way to it, is what
was under way at first, followed by what arrived. -/
theorem ServingRun.handled_balance
    (service : ServingRun table rcl states events)
    (wellFormed : table.WellFormed) (createsAll : rcl.CreatesAll table)
    (spacious : ∀ time, (states time).Spacious (events time)) (time : Nat) :
    record (step table rcl) (handled table) (states 0)
          (eventsUntil events time) ++
        (states time).inbound table =
      (states 0).inbound table ++
        record (step table rcl) (requested table) (states 0)
          (eventsUntil events time) := by
  induction time with
  | zero => exact (List.append_nil _).symm
  | succ time induction =>
      have step := (service.moves wellFormed createsAll time).exact
        (spacious time)
      rw [service.run.record_succ, service.run.record_succ, List.append_assoc,
        step, ← List.append_assoc, induction, List.append_assoc]

/-- Everything that has arrived is handled at some time. -/
theorem ServingRun.handles (service : ServingRun table rcl states events)
    (wellFormed : table.WellFormed) (createsAll : rcl.CreatesAll table)
    (spacious : ∀ time, (states time).Spacious (events time))
    (start : Nat) :
    ∃ time, start ≤ time ∧
      ((states 0).inbound table ++
          record (step table rcl) (requested table) (states 0)
            (eventsUntil events start)).length ≤
        (record (step table rcl) (handled table) (states 0)
          (eventsUntil events time)).length := by
  have monotone : Monotone fun time =>
      (record (step table rcl) (handled table) (states 0)
        (eventsUntil events time)).length := by
    intro time later order
    exact (service.run.record_prefix (handled table) order).length_le
  have steps (time : Nat) (late : start ≤ time)
      (short : (record (step table rcl) (handled table) (states 0)
          (eventsUntil events time)).length <
        ((states 0).inbound table ++
          record (step table rcl) (requested table) (states 0)
            (eventsUntil events start)).length) :
      RankStep
        (fun later => (record (step table rcl) (handled table) (states 0)
            (eventsUntil events time)).length <
          (record (step table rcl) (handled table) (states 0)
            (eventsUntil events later)).length)
        (fun time => (states time).downRank)
        (fun time => (states time).DownHelps) events time := by
    have balance := congrArg List.length
      (service.handled_balance wellFormed createsAll spacious time)
    have more := (service.run.record_prefix (requested table) late).length_le
    rw [List.length_append, List.length_append] at balance
    rw [List.length_append] at short
    have waits : (states time).downlink ++ (states time).queued ≠ [] := by
      intro nothing
      rw [TwoParty.inbound, nothing, List.filterMap_nil, List.length_nil]
        at balance
      omega
    rcases (service.serving wellFormed createsAll time).down_progress
      (service.serving wellFormed createsAll (time + 1)) wellFormed createsAll
      (service.run time) (spacious time) waits with now | nearer
    · left
      dsimp only
      rw [service.run.record_succ, List.length_append]
      exact Nat.lt_add_of_pos_right (List.length_pos_iff.mpr now)
    · exact .inr nearer
  exact reaches_of_rank monotone steps service.downHelps_recurs

/-- Whatever has arrived by one time has been handled by a later one. -/
theorem ServingRun.delivers (service : ServingRun table rcl states events)
    (wellFormed : table.WellFormed) (createsAll : rcl.CreatesAll table)
    (spacious : ∀ time, (states time).Spacious (events time)) (time : Nat) :
    ∃ later, time ≤ later ∧
      (states 0).inbound table ++
          record (step table rcl) (requested table) (states 0)
            (eventsUntil events time) <+:
        record (step table rcl) (handled table) (states 0)
          (eventsUntil events later) := by
  obtain ⟨later, order, enough⟩ :=
    service.handles wellFormed createsAll spacious time
  refine ⟨later, order, ?_⟩
  have more := service.run.record_prefix (requested table) order
  have all := (List.prefix_append_right_inj
    ((states 0).inbound table)).mpr more
  have balance := service.handled_balance wellFormed createsAll spacious later
  exact List.prefix_of_prefix_length_le all
    (balance ▸ List.prefix_append _ _) enough

end Run

/-- If neither party stops reading and writing, the registration is through
from some time on, however their steps interleave. -/
theorem registration_completes (table : TopicTable) (rcl : Rclcpp)
    (wellFormed : table.WellFormed) (createsAll : rcl.CreatesAll table)
    (states : Nat → TwoParty) (events : Nat → PartyEvent)
    (service : ServiceRun table rcl states events) :
    ∃ time, ∀ later, time ≤ later → (states later).Registered table :=
  service.servingRun.registers wellFormed createsAll

/-- The parties take turns; the board publishes in each cycle, and one message
arrives for it. -/
def schedule (time : Nat) : PartyEvent :=
  if time = 8 then
    .agentRound [256] [⟨0, [0x00, 0x01, 0x00, 0x00, 0x07]⟩] []
  else if time % 4 = 0 then .agentRound [256] [] []
  else if time % 4 = 1 then .rxPoll 64
  else if time % 4 = 2 then .txPoll 1024
  else .publish 127 twoBytes

/-- After the arrival the schedule repeats four calls. -/
theorem schedule_cases {time : Nat} (other : time ≠ 8) :
    schedule time ∈ [.agentRound [256] [] [], .rxPoll 64, .txPoll 1024,
      .publish 127 twoBytes] := by
  rw [schedule, if_neg other]
  split
  · exact .head _
  · split
    · exact .tail _ (.head _)
    · split
      · exact .tail _ (.tail _ (.head _))
      · exact .tail _ (.tail _ (.tail _ (.head _)))

theorem schedule_fair : FairSchedule schedule := by
  have away (time : Nat) : 4 * (time + 3) ≠ 8 := by omega
  constructor
  · intro time
    refine ⟨4 * (time + 3) + 1, by omega, ?_⟩
    have turn : (4 * (time + 3) + 1) % 4 = 1 := by omega
    have other : 4 * (time + 3) + 1 ≠ 8 := by omega
    simp [schedule, turn, other, PartyEvent.BoardReads]
  · intro time
    refine ⟨4 * (time + 3) + 2, by omega, ?_⟩
    have turn : (4 * (time + 3) + 2) % 4 = 2 := by omega
    have other : 4 * (time + 3) + 2 ≠ 8 := by omega
    simp [schedule, turn, other, PartyEvent.BoardWrites]
  · intro time
    refine ⟨4 * (time + 3), by omega, ?_⟩
    have turn : 4 * (time + 3) % 4 = 0 := by omega
    simp [schedule, turn, away, PartyEvent.AgentReads]

theorem schedule_service :
    ServiceRun Codegen.pingPong.table Rclcpp.willing
      (statesOf (step Codegen.pingPong.table Rclcpp.willing)
        (initial Codegen.pingPong.table) schedule) schedule := by
  have permitted (time : Nat) :
      (schedule time).Permitted Codegen.pingPong.table := by
    by_cases arrival : time = 8
    · subst arrival
      decide
    · have calls := schedule_cases arrival
      revert calls
      generalize schedule time = event
      revert event
      decide
  refine ⟨?_, rfl, permitted, schedule_fair⟩
  exact endlessRun_statesOf
    (Serving.advances pingPong_wellFormed (Rclcpp.willing_createsAll _))
    (serving_initial _) permitted

theorem registration_completes_schedule :
    ∃ time, ∀ later, time ≤ later →
      (statesOf (step Codegen.pingPong.table Rclcpp.willing)
        (initial Codegen.pingPong.table) schedule later).Registered
          Codegen.pingPong.table :=
  registration_completes Codegen.pingPong.table Rclcpp.willing
    pingPong_wellFormed (Rclcpp.willing_createsAll _) _ schedule
    schedule_service

/-- If neither party stops reading and writing, everything that the board
accepts for publishing is published in ROS at some time, in the same order. -/
theorem publishes_reach_ros (table : TopicTable) (rcl : Rclcpp)
    (wellFormed : table.WellFormed) (createsAll : rcl.CreatesAll table)
    (states : Nat → TwoParty) (events : Nat → PartyEvent)
    (service : ServiceRun table rcl states events) (time : Nat) :
    ∃ later, time ≤ later ∧
      (record (step table rcl) accepted (states 0)
          (eventsUntil events time)).map
        (fun (topicId, payload) => table.publication topicId payload) <+:
      (record (step table rcl) (published rcl) (states 0)
        (eventsUntil events later)).map some := by
  obtain ⟨later, order, delivers⟩ :=
    service.servingRun.publishes wellFormed createsAll time
  have loaded : (states 0).loaded = [] := by
    rw [service.start]
    rfl
  have delivered : (states 0).delivered table = [] := by
    rw [service.start]
    rfl
  rw [loaded, delivered] at delivers
  exact ⟨later, order, delivers⟩

theorem publishes_reach_ros_schedule :
    ∃ later, 40 ≤ later ∧
      (record (step Codegen.pingPong.table Rclcpp.willing) accepted
          (initial Codegen.pingPong.table) (eventsUntil schedule 40)).map
        (fun (topicId, payload) =>
          Codegen.pingPong.table.publication topicId payload) <+:
      (record (step Codegen.pingPong.table Rclcpp.willing)
        (published Rclcpp.willing) (initial Codegen.pingPong.table)
        (eventsUntil schedule later)).map some :=
  publishes_reach_ros Codegen.pingPong.table Rclcpp.willing
    pingPong_wellFormed (Rclcpp.willing_createsAll _) _ schedule
    schedule_service 40

/-- If neither party stops reading and writing, and the agent's queue never
overflows, every ROS message that fits is handled on the board at some time,
in the same order. -/
theorem messages_reach_handlers (table : TopicTable) (rcl : Rclcpp)
    (wellFormed : table.WellFormed) (createsAll : rcl.CreatesAll table)
    (states : Nat → TwoParty) (events : Nat → PartyEvent)
    (service : ServiceRun table rcl states events)
    (spacious : ∀ time, (states time).Spacious (events time)) (time : Nat) :
    ∃ later, time ≤ later ∧
      (record (step table rcl) arrived (states 0)
          (eventsUntil events time)).filterMap (Incoming.handlerCall table) <+:
        record (step table rcl) (handled table) (states 0)
          (eventsUntil events later) := by
  obtain ⟨later, order, delivers⟩ :=
    service.servingRun.delivers wellFormed createsAll spacious time
  have inbound : (states 0).inbound table = [] := by
    rw [service.start]
    rfl
  rw [inbound] at delivers
  refine ⟨later, order, ?_⟩
  rw [← record_filterMap]
  exact delivers

/-- Only one message arrives, and the queue is empty then. -/
theorem schedule_spacious (time : Nat) :
    (statesOf (step Codegen.pingPong.table Rclcpp.willing)
      (initial Codegen.pingPong.table) schedule time).Spacious
        (schedule time) := by
  by_cases arrival : time = 8
  · subst arrival
    decide +kernel
  · have calls := schedule_cases arrival
    simp only [List.mem_cons, List.not_mem_nil, or_false] at calls
    obtain round | read | written | published := calls
    · rw [round]
      intro process _
      exact process.loop.agent.toClientMsgQueue.length_le
    · rw [read]
      trivial
    · rw [written]
      trivial
    · rw [published]
      trivial

theorem messages_reach_handlers_schedule :
    ∃ later, 9 ≤ later ∧
      (record (step Codegen.pingPong.table Rclcpp.willing) arrived
          (initial Codegen.pingPong.table)
          (eventsUntil schedule 9)).filterMap
        (Incoming.handlerCall Codegen.pingPong.table) <+:
      record (step Codegen.pingPong.table Rclcpp.willing)
        (handled Codegen.pingPong.table) (initial Codegen.pingPong.table)
        (eventsUntil schedule later) :=
  messages_reach_handlers Codegen.pingPong.table Rclcpp.willing
    pingPong_wellFormed (Rclcpp.willing_createsAll _) _ schedule
    schedule_service schedule_spacious 9

end TwoParty

end NanoRos
