import NanoRos.RestartRuns

/-!
# Recovery by a new process

Whatever has happened before: when nothing is left over, a new process is
enough to bring the registration to its end, and the messages through.
-/

namespace NanoRos

open Board PartialRun StopAndWait

namespace TwoParty

/-- An endless run of the two parties that starts with a new process. -/
structure RestartedRun (table : TopicTable) (rcl : Rclcpp)
    (system : TwoParty) (states : Nat → TwoParty)
    (events : Nat → PartyEvent) : Prop where
  run : EndlessRun (step table rcl) states events
  start : states 0 = system.restart
  permitted : ∀ time, (events time).Permitted table
  discreet : ∀ time, (states time).Discreet (events time)
  fair : FairSchedule events

section Recovery

variable {table : TopicTable} {rcl : Rclcpp} {system leader : TwoParty}
  {states : Nat → TwoParty} {events : Nat → PartyEvent}

theorem Resumes.registered (resumes : system.Resumes table leader)
    (registered : leader.Registered table) : system.Registered table := by
  obtain ⟨other, board⟩ := resumes
  obtain ⟨complete, agent⟩ := registered
  cases board with
  | same => exact ⟨complete, agent⟩
  | waiting _ _ => cases complete
  | renewing => cases complete

theorem Resumes.spacious {event : PartyEvent}
    (resumes : system.Resumes table leader)
    (spacious : system.Spacious event) : leader.Spacious event := by
  obtain ⟨other, board⟩ := resumes
  cases event <;> exact spacious

/-- What the two parties do from power-up on the same schedule. -/
theorem Drained.servingRun (drained : system.Drained)
    (carrying : system.Carrying table) (wellFormed : table.WellFormed)
    (createsAll : rcl.CreatesAll table)
    (restarted : RestartedRun table rcl system states events) :
    ServingRun table rcl (statesOf (step table rcl) system.afresh events)
      events :=
  ⟨endlessRun_statesOf (Serving.advances wellFormed createsAll)
      (drained.serving carrying) restarted.permitted,
    drained.serving carrying, restarted.permitted, restarted.fair⟩

theorem follows_serving (wellFormed : table.WellFormed)
    (createsAll : rcl.CreatesAll table) :
    Follows (step table rcl) (step table rcl)
      (fun system leader => system.Resumes table leader ∧
        leader.Serving table)
      fun system event => event.Permitted table ∧ system.Discreet event := by
  intro system leader event ahead related allowed led
  obtain ⟨resumes, serving⟩ := related
  obtain ⟨permitted, discreet⟩ := allowed
  obtain ⟨next, stepped, still⟩ := resumes.step (leads_serving wellFormed)
    serving wellFormed discreet led
  exact ⟨next, stepped, still, (Serving.moves wellFormed createsAll leader
    event ahead serving permitted led).serving⟩

/-- At any time the system is in the place of the one from power-up. -/
theorem Drained.follows (drained : system.Drained)
    (carrying : system.Carrying table) (wellFormed : table.WellFormed)
    (createsAll : rcl.CreatesAll table)
    (restarted : RestartedRun table rcl system states events)
    (time : Nat) :
    (states time).Resumes table
      (statesOf (step table rcl) system.afresh events time) := by
  have service :=
    drained.servingRun carrying wellFormed createsAll restarted
  have initially : (states 0).Resumes table system.afresh := by
    rw [restarted.start]
    exact drained.resumes carrying
  exact ((follows_serving wellFormed createsAll).endless restarted.run
    service.run ⟨initially, drained.serving carrying⟩
    (fun time => ⟨restarted.permitted time, restarted.discreet time⟩) time).1

/-- A schedule on which the board publishes at the right time can be kept to
for ever. -/
theorem Drained.restartedRun (drained : system.Drained)
    (carrying : system.Carrying table) (wellFormed : table.WellFormed)
    (createsAll : rcl.CreatesAll table)
    (permitted : ∀ time, (events time).Permitted table)
    (discreet : ∀ time,
      (statesOf (step table rcl) system.restart events time).Discreet
        (events time))
    (fair : FairSchedule events) :
    RestartedRun table rcl system
      (statesOf (step table rcl) system.restart events) events := by
  have serving := drained.serving carrying
  have led := endlessRun_statesOf (Serving.advances wellFormed createsAll)
    serving permitted
  have run := (follows_serving wellFormed createsAll).endlessRun led
    ⟨drained.resumes carrying, serving⟩
    fun time => ⟨permitted time, discreet time⟩
  exact ⟨run, rfl, permitted, discreet, fair⟩

end Recovery

/-- Whatever has happened before, killing and noise included: if nothing is
left over when a new process starts, and neither party stops reading and
writing from then on, the registration is through from some time on, and
everything accepted for publishing is published in ROS at some time.  If the
queue of the agent never overflows, all that was under way to the handlers of
the board, and all that arrives for them, is handled at some time. -/
theorem restart_recovers (table : TopicTable) (rcl : Rclcpp)
    (wellFormed : table.WellFormed) (createsAll : rcl.CreatesAll table)
    (before : List RecoveryEvent) (system : TwoParty)
    (tolerable : Along (recoveryStep table rcl) (Tolerable table)
      (initial table) before)
    (reached : exec (recoveryStep table rcl) (initial table) before =
      some system)
    (drained : system.Drained)
    (states : Nat → TwoParty) (events : Nat → PartyEvent)
    (restarted : RestartedRun table rcl system states events) :
    (∃ time, ∀ later, time ≤ later → (states later).Registered table) ∧
    (∀ time, ∃ later, time ≤ later ∧
      (record (step table rcl) accepted (states 0)
          (eventsUntil events time)).map
        (fun (topicId, payload) => table.publication topicId payload) <+:
      (record (step table rcl) (published rcl) (states 0)
        (eventsUntil events later)).map some) ∧
    ((∀ time, (states time).Spacious (events time)) →
      ∀ time, ∃ later, time ≤ later ∧
        (states 0).inbound table ++
          (record (step table rcl) arrived (states 0)
            (eventsUntil events time)).filterMap
              (Incoming.handlerCall table) <+:
        record (step table rcl) (handled table) (states 0)
          (eventsUntil events later)) := by
  obtain ⟨other, run, items, leader, recovers⟩ :=
    recovery_run_returns wellFormed createsAll tolerable
  cases reached.symm.trans run
  have carrying := recovers.resumes.carrying recovers.due.carrying
  have service :=
    drained.servingRun carrying wellFormed createsAll restarted
  have follows :=
    drained.follows carrying wellFormed createsAll restarted
  generalize same : statesOf (step table rcl) system.afresh events = leaders
    at service follows
  have start : leaders 0 = system.afresh := same ▸ rfl
  have orderly (time : Nat) : (leaders time).Orderly :=
    (service.serving wellFormed createsAll time).orderly
  refine ⟨?_, ?_, ?_⟩
  · obtain ⟨time, registered⟩ := service.registers wellFormed createsAll
    exact ⟨time, fun later order =>
      (follows later).registered (registered later order)⟩
  · intro time
    obtain ⟨later, order, publishes⟩ :=
      service.publishes wellFormed createsAll time
    have loaded : (leaders 0).loaded = [] := by
      rw [start, TwoParty.loaded, drained.underway]
      rfl
    have delivered : (leaders 0).delivered table = [] := by
      rw [start]
      rfl
    rw [loaded, delivered] at publishes
    refine ⟨later, order, ?_⟩
    rw [restarted.run.record_eq service.run fun time =>
        (follows time).accepted (orderly time) (restarted.discreet time),
      restarted.run.record_eq service.run fun time =>
        (follows time).published (events time)]
    exact publishes
  · intro spacious time
    obtain ⟨later, order, delivers⟩ := service.delivers wellFormed createsAll
      (fun time => (follows time).spacious (spacious time)) time
    refine ⟨later, order, ?_⟩
    have requests : record (step table rcl) (requested table) (leaders 0)
          (eventsUntil events time) =
        record (step table rcl) (requested table) (states 0)
          (eventsUntil events time) :=
      service.run.record_eq restarted.run (fun _ => rfl) time
    rw [(follows 0).inbound, requests] at delivers
    rw [← record_filterMap, restarted.run.record_eq service.run fun time =>
        (follows time).handled
          (service.serving wellFormed createsAll time).installed wellFormed
          (restarted.run time) (service.run time) (follows (time + 1))]
    exact delivers

/-- The parties take turns, and the board publishes once, when the
registration is through. -/
def recoverySchedule (time : Nat) : PartyEvent :=
  if time = 19 then .publish 127 twoBytes
  else if time % 3 = 0 then .agentRound [256] [] []
  else if time % 3 = 1 then .rxPoll 64
  else .txPoll 1024

theorem recoverySchedule_cases {time : Nat} (other : time ≠ 19) :
    recoverySchedule time ∈
      [.agentRound [256] [] [], .rxPoll 64, .txPoll 1024] := by
  rw [recoverySchedule, if_neg other]
  split
  · exact .head _
  · split
    · exact .tail _ (.head _)
    · exact .tail _ (.tail _ (.head _))

theorem recoverySchedule_permitted (time : Nat) :
    (recoverySchedule time).Permitted Codegen.pingPong.table := by
  by_cases published : time = 19
  · subst published
    decide
  · have calls := recoverySchedule_cases published
    revert calls
    generalize recoverySchedule time = event
    revert event
    decide

theorem recoverySchedule_fair : FairSchedule recoverySchedule := by
  have cyclic {time : Nat} (late : 20 ≤ time) :
      recoverySchedule time =
        if time % 3 = 0 then .agentRound [256] [] []
        else if time % 3 = 1 then .rxPoll 64
        else .txPoll 1024 := by
    rw [recoverySchedule, if_neg (by omega)]
  constructor
  · intro time
    refine ⟨3 * (time + 7) + 1, by omega, ?_⟩
    rw [cyclic (by omega), if_neg (by omega), if_pos (by omega)]
    exact Nat.zero_lt_succ _
  · intro time
    refine ⟨3 * (time + 7) + 2, by omega, ?_⟩
    rw [cyclic (by omega), if_neg (by omega), if_neg (by omega)]
    exact Nat.zero_lt_succ _
  · intro time
    refine ⟨3 * (time + 7), by omega, ?_⟩
    rw [cyclic (by omega), if_pos (by omega)]
    exact ⟨256, List.mem_singleton_self _, Nat.zero_lt_succ _⟩

theorem recoverySchedule_discreet {system : TwoParty}
    (published : system.Discreet (recoverySchedule 19)) {time : Nat}
    {state : TwoParty} (once : time = 19 → state = system) :
    state.Discreet (recoverySchedule time) := by
  by_cases now : time = 19
  · rw [once now, now]
    exact published
  · have calls := recoverySchedule_cases now
    simp only [List.mem_cons, List.not_mem_nil, or_false] at calls
    obtain round | read | written := calls
    · rw [round]
      trivial
    · rw [read]
      trivial
    · rw [written]
      trivial

/-- The board has been registered and has published when the new process
starts. -/
theorem restart_recovers_session :
    ∃ system,
      exec (recoveryStep Codegen.pingPong.table Rclcpp.willing)
        (initial Codegen.pingPong.table) session = some system ∧
      system.board.registrationComplete = true ∧
      ∃ time, ∀ later, time ≤ later →
        (statesOf (step Codegen.pingPong.table Rclcpp.willing)
          system.restart recoverySchedule later).Registered
            Codegen.pingPong.table := by
  have reaches : ∃ system ∈ exec (recoveryStep Codegen.pingPong.table
        Rclcpp.willing) (initial Codegen.pingPong.table) session,
      system.Drained ∧ system.board.registrationComplete = true ∧
        (statesOf (step Codegen.pingPong.table Rclcpp.willing)
          system.restart recoverySchedule 19).Discreet
            (recoverySchedule 19) := by
    decide +kernel
  obtain ⟨system, reached, drained, complete, published⟩ := reaches
  have tolerable : Along (recoveryStep Codegen.pingPong.table Rclcpp.willing)
      (Tolerable Codegen.pingPong.table) (initial Codegen.pingPong.table)
      session := by
    decide +kernel
  obtain ⟨other, run, items, leader, recovers⟩ := recovery_run_returns
    pingPong_wellFormed (Rclcpp.willing_createsAll _) tolerable
  cases (Option.mem_def.mp reached).symm.trans run
  have restarted := drained.restartedRun
    (recovers.resumes.carrying recovers.due.carrying) pingPong_wellFormed
    (Rclcpp.willing_createsAll _) recoverySchedule_permitted
    (fun time => recoverySchedule_discreet published (by rintro rfl; rfl))
    recoverySchedule_fair
  exact ⟨system, run, complete, (restart_recovers Codegen.pingPong.table
    Rclcpp.willing pingPong_wellFormed
    (Rclcpp.willing_createsAll _) session system tolerable run drained _
    recoverySchedule restarted).1⟩

end TwoParty

end NanoRos
