import NanoRos.EndedAgent
import NanoRos.RestartedAgent

/-!
# Runs with several processes

The agent process may be killed at any moment, and a new one started whenever
nothing of the session before is under way.  However often that happens, and
whatever noise there is on the links, the messages come through as in a single
session.
-/

namespace NanoRos

open Board PartialRun StopAndWait
open NrosStreamParser (Clears framesOf framesOf_append feedByte)

/-- A step of the parties or noise; or the process is killed, when it has sent
the first frames of a round; or a new one is started. -/
inductive RecoveryEvent where
  | noisy (event : NoisyEvent)
  | kill (reads : List Nat) (beforeSize beforePop : List Incoming)
      (sent : Nat)
  | restart

namespace TwoParty

def recoveryStep (table : TopicTable) (rcl : Rclcpp) (system : TwoParty) :
    RecoveryEvent → Option TwoParty
  | .noisy event => system.noisyStep table rcl event
  | .kill reads beforeSize beforePop sent =>
      system.killedRound rcl reads beforeSize beforePop sent
  | .restart => some system.restart

/-- Publishes come when they may; noise is no concern. -/
def DiscreetEvent (system : TwoParty) : NoisyEvent → Prop
  | .party event => system.Discreet event
  | .toAgent _ | .toBoard _ => True

/-- A process is only killed when it is running, and only started when nothing
is left over from the one before. -/
def Tolerable (table : TopicTable) (system : TwoParty) :
    RecoveryEvent → Prop
  | .noisy event => system.Expected table event ∧ system.DiscreetEvent event
  | .kill reads beforeSize beforePop _ =>
      (PartyEvent.agentRound reads beforeSize beforePop).Permitted table ∧
        system.agent.isSome
  | .restart => system.Drained

instance (system : TwoParty) (event : NoisyEvent) :
    Decidable (system.DiscreetEvent event) :=
  match event with
  | .party event => inferInstanceAs (Decidable (system.Discreet event))
  | .toAgent _ | .toBoard _ => isTrue trivial

instance (table : TopicTable) (system : TwoParty) (event : RecoveryEvent) :
    Decidable (system.Tolerable table event) :=
  match event with
  | .noisy _ => inferInstanceAs (Decidable (_ ∧ _))
  | .kill _ _ _ _ => inferInstanceAs (Decidable (_ ∧ _ = true))
  | .restart => inferInstanceAs (Decidable system.Drained)

/-- What the steps show; a killed round shows what the whole round does, or
less. -/
def throughout {α : Type*} (shows_ : TwoParty → PartyEvent → List α)
    (system : TwoParty) : RecoveryEvent → List α
  | .noisy event => during shows_ system event
  | .kill reads beforeSize beforePop _ =>
      shows_ system (.agentRound reads beforeSize beforePop)
  | .restart => []

/-! ## Who leads -/

section Leads

variable {table : TopicTable} {rcl : Rclcpp} {system next : TwoParty}

theorem ack_mem_outbox {frame : Frame}
    (member : frame ∈ system.board.parser.framesOf system.toBoard)
    (ack : frame.header.type = NrosPacketType.ack.toByte) :
    .ack ∈ system.view.outbox := by
  rw [← backwardMessage_ack ack]
  exact List.mem_map_of_mem member

theorem done_mem_inbox {process : AgentProcess} {frame : Frame}
    (running : system.agent = some process)
    (member : frame ∈ system.underway)
    (done : frame.header.type = NrosPacketType.registerDone.toByte) :
    .done ∈ (process.receiver system.flight).inbox := by
  rw [← forwardMessage_done done]
  rw [underway_of_running running] at member
  exact List.mem_map_of_mem member

theorem Serving.orderly (serving : system.Serving table) :
    system.Orderly := by
  obtain ⟨process, running, _⟩ := serving.running
  have receiver := view_receiver running
  constructor
  · intro outside frame member ack
    have heard := ack_mem_outbox member ack
    have phase := serving.together.agreed.phase _ receiver
    obtain ⟨_, _, index, enrolling⟩ := phase.answerAwaited
      (serving.together.flushed _ receiver) heard
    rw [show system.board.tx.isRegistration = true from enrolling.active]
      at outside
    cases outside
  · rintro (dispatched | ⟨frame, member, done⟩)
    · have closed := closed_iff.mpr ((doneDispatched_iff system).mp dispatched)
      exact .inl (serving.concludes.closed
        (receiver ▸ Option.some_ne_none _) closed)
    · rcases serving.concludes.done _ receiver
        (done_mem_inbox running member done) with complete | closing
      · exact .inl complete
      · exact .inr (of_decide_eq_true closing.busy)

theorem Halted.orderly (halted : system.Halted table) : system.Orderly := by
  constructor
  · intro _ frame member ack
    have heard := (mem_control Backward.noConfusion).mpr
      (ack_mem_outbox member ack)
    rw [halted.stalled.quiet] at heard
    cases heard
  · rintro (dispatched | ⟨frame, member, done⟩)
    · exact absurd dispatched halted.undone
    · obtain ⟨process, running, _⟩ := List.mem_flatMap.mp member
      have running := Option.mem_toList.mp running
      cases halted.stalled.dataOnly _ (view_receiver running) _
        (done_mem_inbox running member done)

theorem Ended.orderly (ended : system.Ended table) : system.Orderly := by
  constructor
  · intro outside frame member ack
    obtain ⟨_, _, index, enrolling⟩ :=
      ended.abandoned.awaited (ack_mem_outbox member ack)
    rw [show system.board.tx.isRegistration = true from enrolling.active]
      at outside
    cases outside
  · rintro (dispatched | ⟨frame, member, _⟩)
    · exact .inl (ended.abandoned.concluded
        (closed_iff.mpr ((doneDispatched_iff system).mp dispatched)))
    · rw [TwoParty.underway, ended.gone] at member
      cases member

theorem leads_serving (wellFormed : table.WellFormed) :
    Leads table (Serving table) :=
  ⟨fun _ serving => serving.orderly,
    fun _ _ serving stepped => (serving.rxByte wellFormed stepped).1⟩

theorem leads_halted (wellFormed : table.WellFormed) :
    Leads table (Halted table) :=
  ⟨fun _ halted => halted.orderly,
    fun _ _ halted stepped => (halted.rxByte wellFormed stepped).1⟩

theorem leads_ended (wellFormed : table.WellFormed) :
    Leads table (Ended table) :=
  ⟨fun _ ended => ended.orderly,
    fun _ _ ended stepped => ended.rxByte wellFormed stepped⟩

end Leads

/-! ## What the leading system does -/

/-- The publications that are still due. -/
inductive Due (table : TopicTable) (system : TwoParty) :
    List (Option Publication) → Prop
  | expecting {items : List (Option Publication)}
      (expecting : system.Expecting table items) :
      Due table system items
  | ended (ended : system.Ended table) : Due table system []

section Due

variable {table : TopicTable} {rcl : Rclcpp} {system next : TwoParty}
  {items : List (Option Publication)}

theorem Due.leads (due : system.Due table items)
    (wellFormed : table.WellFormed) :
    ∃ invariant, Leads table invariant ∧ invariant system := by
  cases due with
  | ended ended => exact ⟨_, leads_ended wellFormed, ended⟩
  | expecting expecting =>
      cases expecting with
      | serving serving => exact ⟨_, leads_serving wellFormed, serving⟩
      | halted halted => exact ⟨_, leads_halted wellFormed, halted⟩

theorem Due.carrying (due : system.Due table items) :
    system.Carrying table := by
  cases due with
  | ended ended => exact ended.carrying
  | expecting expecting =>
      cases expecting with
      | serving serving => exact serving.carrying
      | halted halted => exact halted.carrying

theorem Due.accepted (due : system.Due table items) :
    ∀ process, system.agent = some process →
      process.loop.agent.newTopics.map Topic.key <+: table.keys ∧
        ∀ entry ∈ system.dispatched,
          entry.frame.header.type = NrosPacketType.registerDone.toByte →
            entry.newTopics.map Topic.key = table.keys := by
  intro process running
  cases due with
  | expecting expecting =>
      obtain ⟨beginning, whole⟩ := expecting.accepted
      exact ⟨beginning process running, whole⟩
  | ended ended =>
      rw [ended.gone] at running
      cases running

/-- What one event does to a system and its messages. -/
structure Passes (table : TopicTable) (system : TwoParty)
    (items : List (Option Publication)) (calls : List HandlerCall)
    (publications : List Publication) (requests : List HandlerCall)
    (submissions : List (Option Publication)) (next : TwoParty) : Prop where
  traceable : next.Traceable
  down : (calls ++ next.inbound table).Sublist
    (system.inbound table ++ requests)
  up : ∃ left, next.Due table left ∧
    (publications.map some ++ left).Sublist (items ++ submissions)

theorem Due.noisyStep {event : NoisyEvent} (due : system.Due table items)
    (traceable : system.Traceable) (wellFormed : table.WellFormed)
    (createsAll : rcl.CreatesAll table)
    (allowed : system.Expected table event) :
    ∃ next, system.noisyStep table rcl event = some next ∧
      system.Passes table items (during (handled table) system event)
        (during (published rcl) system event)
        (during (requested table) system event)
        (during (submitted table) system event) next := by
  cases due with
  | expecting expecting =>
      obtain ⟨next, stepped, moves⟩ :=
        expecting.step traceable wellFormed createsAll allowed
      obtain ⟨left, still, up⟩ := moves.up
      exact ⟨next, stepped, moves.traceable, moves.down, left,
        .expecting still, up⟩
  | ended ended =>
      have disturbs {next : TwoParty}
          (disturbed : Disturbed table system next) :
          system.Passes table [] [] [] [] [] next := by
        refine ⟨disturbed.traceable traceable, ?_, [],
          .ended (disturbed.ended ended), List.Sublist.refl _⟩
        rw [List.append_nil]
        exact disturbed.inbound
      cases event with
      | toAgent noisy =>
          exact ⟨_, rfl, disturbs (disturbed_toAgent traceable allowed)⟩
      | toBoard noisy =>
          exact ⟨_, rfl, disturbs (disturbed_toBoard traceable allowed)⟩
      | party event =>
          obtain ⟨next, stepped, still, calls, silent⟩ :=
            ended.step wellFormed allowed.2
          refine ⟨next, stepped,
            traceable.step ended.carrying.linked stepped, calls, [],
            .ended still, ?_⟩
          rw [during, silent]
          exact List.nil_sublist _

/-- Killing the process leaves messages for the board at most. -/
theorem Due.killedRound {reads : List Nat}
    {beforeSize beforePop : List Incoming} (due : system.Due table items)
    (traceable : system.Traceable) (wellFormed : table.WellFormed)
    (createsAll : rcl.CreatesAll table)
    (permitted : (PartyEvent.agentRound reads beforeSize beforePop).Permitted
      table)
    (running : system.agent.isSome) (sent : Nat) :
    ∃ next, system.killedRound rcl reads beforeSize beforePop sent =
        some next ∧
      system.Passes table items []
        (system.published rcl (.agentRound reads beforeSize beforePop))
        (system.requested table (.agentRound reads beforeSize beforePop))
        [] next := by
  have linked := due.carrying.linked
  cases due with
  | ended ended =>
      rw [ended.gone] at running
      cases running
  | expecting expecting =>
      have clean : system.CleanStart reads := by
        cases expecting with
        | serving serving => exact serving.together.cleanStart reads
        | halted halted => exact halted.cleanStart reads
      obtain ⟨whole, stepped, moves⟩ : ∃ whole, system.noisyStep table rcl
          (.party (.agentRound reads beforeSize beforePop)) = some whole ∧
            _ :=
        expecting.step traceable wellFormed createsAll ⟨permitted, running⟩
      obtain ⟨kept, killed, clears, fewer⟩ :=
        linked.killedRound clean sent stepped
      obtain ⟨left, still, up⟩ := moves.up
      refine ⟨_, killed, ?_, ?_, [], .ended ?_, ?_⟩
      · refine ⟨moves.traceable.board, ?_, ?_⟩
        · rintro _ ⟨⟩
        · rintro _ _ ⟨⟩
      · exact (killed_inbound fewer).trans moves.down
      · cases still with
        | serving serving => exact serving.ended clears fewer
        | halted halted => exact halted.ended clears fewer
      · exact ((List.nil_sublist left).append_left _).trans up

/-- With a new process nothing is due. -/
theorem Drained.due (drained : system.Drained)
    (carrying : system.Carrying table) : system.afresh.Due table [] := by
  have nothing : system.afresh.outbound table = [] := by
    rw [outbound, uplink, drained.underway]
    rfl
  exact nothing ▸ .expecting (.serving (drained.serving carrying))

end Due

/-! ## Following -/

/-- A system, and the one in whose place it is. -/
structure Recovers (table : TopicTable) (items : List (Option Publication))
    (system leader : TwoParty) : Prop where
  resumes : system.Resumes table leader
  traceable : leader.Traceable
  due : leader.Due table items

/-- What one event does to a system that follows another one. -/
structure Survives (table : TopicTable) (system : TwoParty)
    (items : List (Option Publication)) (calls : List HandlerCall)
    (publications : List Publication) (requests : List HandlerCall)
    (submissions : List (Option Publication)) (next : TwoParty) : Prop where
  down : (calls ++ next.inbound table).Sublist
    (system.inbound table ++ requests)
  up : ∃ left leader, next.Recovers table left leader ∧
    (publications.map some ++ left).Sublist (items ++ submissions)

section Recovers

variable {table : TopicTable} {rcl : Rclcpp}
  {invariant : TwoParty → Prop} {system leader next ahead : TwoParty}
  {items : List (Option Publication)} {event : NoisyEvent}

theorem Passes.survives {calls requests : List HandlerCall}
    {publications : List Publication}
    {submissions : List (Option Publication)}
    (passes : leader.Passes table items calls publications requests
      submissions ahead)
    (resumes : system.Resumes table leader)
    (still : next.Resumes table ahead) :
    system.Survives table items calls publications requests submissions
      next := by
  obtain ⟨traceable, down, left, due, up⟩ := passes
  refine ⟨?_, left, ahead, ⟨still, traceable, due⟩, up⟩
  rw [← still.inbound, ← resumes.inbound]
  exact down

theorem Resumes.expected (resumes : system.Resumes table leader)
    (allowed : system.Expected table event) :
    leader.Expected table event := by
  obtain ⟨other, board⟩ := resumes
  cases event with
  | party event => cases event <;> exact allowed
  | toAgent noisy => exact allowed
  | toBoard noisy =>
      show other.parser.Detects system.toBoard noisy
      rw [board.parser]
      exact allowed

theorem Resumes.noisyStep (resumes : system.Resumes table leader)
    (leads : Leads table invariant) (holds : invariant leader)
    (wellFormed : table.WellFormed) (discreet : system.DiscreetEvent event)
    (led : leader.noisyStep table rcl event = some ahead) :
    ∃ next, system.noisyStep table rcl event = some next ∧
      next.Resumes table ahead := by
  cases event with
  | party event => exact resumes.step leads holds wellFormed discreet led
  | toAgent noisy =>
      obtain ⟨other, board⟩ := resumes
      cases led
      exact ⟨_, rfl, .intro other board⟩
  | toBoard noisy =>
      obtain ⟨other, board⟩ := resumes
      cases led
      exact ⟨_, rfl, .intro other board⟩

/-- Noise or a step of a party. -/
theorem Recovers.noisyStep (recovers : system.Recovers table items leader)
    (wellFormed : table.WellFormed) (createsAll : rcl.CreatesAll table)
    (allowed : system.Expected table event)
    (discreet : system.DiscreetEvent event) :
    ∃ next, system.noisyStep table rcl event = some next ∧
      system.Survives table items (during (handled table) system event)
        (during (published rcl) system event)
        (during (requested table) system event)
        (during (submitted table) system event) next := by
  obtain ⟨resumes, traceable, due⟩ := recovers
  obtain ⟨ahead, led, passes⟩ := due.noisyStep traceable wellFormed createsAll
    (resumes.expected allowed)
  obtain ⟨invariant, leads, holds⟩ := due.leads wellFormed
  obtain ⟨next, stepped, still⟩ :=
    resumes.noisyStep leads holds wellFormed discreet led
  refine ⟨next, stepped, ?_⟩
  have survives := passes.survives resumes still
  cases event with
  | toAgent noisy => exact survives
  | toBoard noisy => exact survives
  | party event =>
      have orderly := leads.orderly leader holds
      simp only [during, resumes.published,
        resumes.handled due.carrying.installed wellFormed stepped led still,
        submitted, resumes.accepted orderly discreet]
      exact survives

/-- A killed round has nothing to do with the board. -/
theorem killedRound_moveBoard (system : TwoParty) (board : Board)
    (reads : List Nat) (beforeSize beforePop : List Incoming) (sent : Nat) :
    killedRound rcl { system with board } reads beforeSize beforePop sent =
      (system.killedRound rcl reads beforeSize beforePop sent).map
        ({ · with board }) := by
  unfold killedRound
  cases system.agent with
  | none => rfl
  | some process =>
      dsimp only
      cases process.round rcl system.toAgent reads beforeSize beforePop with
      | none => rfl
      | some round =>
          dsimp only
          cases round.outcome with
          | error fault => rfl
          | ok output => rfl

theorem killedRound_board {reads : List Nat}
    {beforeSize beforePop : List Incoming} {sent : Nat}
    (stepped : system.killedRound rcl reads beforeSize beforePop sent =
      some next) : next.board = system.board := by
  unfold killedRound at stepped
  split at stepped
  · cases stepped
  · split at stepped
    · cases stepped
    · split at stepped
      · cases stepped
        rfl
      · cases stepped
        rfl

/-- Both processes are killed. -/
theorem Recovers.killedRound {reads : List Nat}
    {beforeSize beforePop : List Incoming}
    (recovers : system.Recovers table items leader)
    (wellFormed : table.WellFormed) (createsAll : rcl.CreatesAll table)
    (permitted : (PartyEvent.agentRound reads beforeSize beforePop).Permitted
      table)
    (running : system.agent.isSome) (sent : Nat) :
    ∃ next, system.killedRound rcl reads beforeSize beforePop sent =
        some next ∧
      system.Survives table items []
        (system.published rcl (.agentRound reads beforeSize beforePop))
        (system.requested table (.agentRound reads beforeSize beforePop))
        [] next := by
  obtain ⟨resumes, traceable, due⟩ := recovers
  obtain ⟨ahead, led, passes⟩ := due.killedRound traceable wellFormed
    createsAll permitted (resumes.agent ▸ running) sent
  rw [← resumes.published] at passes
  suffices follows : ∃ next,
      system.killedRound rcl reads beforeSize beforePop sent = some next ∧
        next.Resumes table ahead by
    obtain ⟨next, stepped, still⟩ := follows
    exact ⟨next, stepped, passes.survives resumes still⟩
  obtain ⟨other, board⟩ := resumes
  rw [killedRound_moveBoard] at led
  obtain ⟨next, stepped, rfl⟩ := Option.map_eq_some_iff.mp led
  refine ⟨next, stepped, .intro other ?_⟩
  rw [killedRound_board stepped]
  exact board

/-- From now on another system leads. -/
theorem Recovers.restart (recovers : system.Recovers table items leader)
    (drained : system.Drained) :
    system.Survives table items [] [] [] [] system.restart := by
  obtain ⟨resumes, traceable, due⟩ := recovers
  have carrying := resumes.carrying due.carrying
  have legible := traceable.board
  rw [resumes.parser] at legible
  refine ⟨?_, [], system.afresh, ⟨drained.resumes carrying,
    traceable_afresh legible, drained.due carrying⟩, List.nil_sublist _⟩
  rw [List.append_nil]
  have queued : system.restart.queued = [] := rfl
  have downlink : system.restart.downlink = system.downlink := rfl
  rw [inbound, queued, downlink, inbound]
  exact (List.Sublist.append_left (List.nil_sublist _) _).filterMap _

/-- Every event that is tolerable is defined, and loses messages at most. -/
theorem Recovers.step {event : RecoveryEvent}
    (recovers : system.Recovers table items leader)
    (wellFormed : table.WellFormed) (createsAll : rcl.CreatesAll table)
    (tolerable : system.Tolerable table event) :
    ∃ next, system.recoveryStep table rcl event = some next ∧
      system.Survives table items (throughout (handled table) system event)
        (throughout (published rcl) system event)
        (throughout (requested table) system event)
        (throughout (submitted table) system event) next := by
  cases event with
  | noisy event =>
      exact recovers.noisyStep wellFormed createsAll tolerable.1 tolerable.2
  | kill reads beforeSize beforePop sent =>
      exact recovers.killedRound wellFormed createsAll tolerable.1 tolerable.2
        sent
  | restart => exact ⟨_, rfl, recovers.restart tolerable⟩

theorem Recovers.survives {event : RecoveryEvent}
    (recovers : system.Recovers table items leader)
    (wellFormed : table.WellFormed) (createsAll : rcl.CreatesAll table)
    (tolerable : system.Tolerable table event)
    (stepped : system.recoveryStep table rcl event = some next) :
    system.Survives table items (throughout (handled table) system event)
      (throughout (published rcl) system event)
      (throughout (requested table) system event)
      (throughout (submitted table) system event) next := by
  obtain ⟨other, otherStep, survives⟩ :=
    recovers.step wellFormed createsAll tolerable
  cases stepped.symm.trans otherStep
  exact survives

end Recovers

/-- A system in a run with restarts. -/
def Recovering (table : TopicTable) (system : TwoParty)
    (items : List (Option Publication)) : Prop :=
  ∃ leader, system.Recovers table items leader

theorem recovering_initial (table : TopicTable) :
    (initial table).Recovering table [] :=
  ⟨initial table, .intro _ .same, traceable_initial table,
    .expecting (.serving (serving_initial table))⟩

section Run

variable {table : TopicTable} {rcl : Rclcpp} {final : TwoParty}
  {events : List RecoveryEvent}

theorem recovery_run_returns (wellFormed : table.WellFormed)
    (createsAll : rcl.CreatesAll table)
    (tolerable : Along (recoveryStep table rcl) (Tolerable table)
      (initial table) events) :
    ∃ final, exec (recoveryStep table rcl) (initial table) events =
        some final ∧
      ∃ items, final.Recovering table items := by
  refine exec_total (fun state event kept tolerable => ?_)
    ⟨[], recovering_initial table⟩ tolerable
  obtain ⟨items, leader, recovers⟩ := kept
  obtain ⟨next, stepped, survives⟩ :=
    recovers.step wellFormed createsAll tolerable
  obtain ⟨left, ahead, still, _⟩ := survives.up
  exact ⟨next, stepped, left, ahead, still⟩

theorem recovery_run_up (wellFormed : table.WellFormed)
    (createsAll : rcl.CreatesAll table)
    (tolerable : Along (recoveryStep table rcl) (Tolerable table)
      (initial table) events)
    (run : exec (recoveryStep table rcl) (initial table) events =
      some final) :
    (record (recoveryStep table rcl)
        (fun system event =>
          (throughout (published rcl) system event).map some)
        (initial table) events).Sublist
      (record (recoveryStep table rcl) (throughout (submitted table))
        (initial table) events) := by
  have ordered (state : TwoParty) (event : RecoveryEvent) (next : TwoParty)
      (items : List (Option Publication))
      (recovering : state.Recovering table items)
      (tolerable : state.Tolerable table event)
      (stepped : state.recoveryStep table rcl event = some next) :
      ∃ left, next.Recovering table left ∧
        ((throughout (published rcl) state event).map some ++ left).Sublist
          (items ++ throughout (submitted table) state event) := by
    obtain ⟨leader, recovers⟩ := recovering
    obtain ⟨left, ahead, still, up⟩ :=
      (recovers.survives wellFormed createsAll tolerable stepped).up
    exact ⟨left, ⟨ahead, still⟩, up⟩
  obtain ⟨left, _, sublist⟩ := record_sublist_carried ordered
    (recovering_initial table) tolerable run
  rw [List.nil_append] at sublist
  exact (List.sublist_append_left _ _).trans sublist

theorem recovery_run_down (wellFormed : table.WellFormed)
    (createsAll : rcl.CreatesAll table)
    (tolerable : Along (recoveryStep table rcl) (Tolerable table)
      (initial table) events)
    (run : exec (recoveryStep table rcl) (initial table) events =
      some final) :
    (record (recoveryStep table rcl) (throughout (handled table))
        (initial table) events).Sublist
      (record (recoveryStep table rcl) (throughout (requested table))
        (initial table) events) := by
  have kept (state : TwoParty) (event : RecoveryEvent) (next : TwoParty)
      (recovering : ∃ items, state.Recovering table items)
      (tolerable : state.Tolerable table event)
      (stepped : state.recoveryStep table rcl event = some next) :
      ∃ items, next.Recovering table items := by
    obtain ⟨items, leader, recovers⟩ := recovering
    obtain ⟨left, ahead, still, _⟩ :=
      (recovers.survives wellFormed createsAll tolerable stepped).up
    exact ⟨left, ahead, still⟩
  have ordered (state : TwoParty) (event : RecoveryEvent) (next : TwoParty)
      (recovering : ∃ items, state.Recovering table items)
      (tolerable : state.Tolerable table event)
      (stepped : state.recoveryStep table rcl event = some next) :
      (throughout (handled table) state event ++
          next.inbound table).Sublist
        (state.inbound table ++
          throughout (requested table) state event) := by
    obtain ⟨items, leader, recovers⟩ := recovering
    exact (recovers.survives wellFormed createsAll tolerable stepped).down
  have sublist := record_sublist kept ordered
    ⟨[], recovering_initial table⟩ tolerable run
  have nothing : (initial table).inbound table = [] := rfl
  rw [nothing, List.nil_append] at sublist
  exact (List.sublist_append_left _ _).trans sublist

theorem throughout_map {α β : Type*}
    (shows_ : TwoParty → PartyEvent → List α) (label : α → β)
    (system : TwoParty) (event : RecoveryEvent) :
    (throughout shows_ system event).map label =
      throughout (fun system event => (shows_ system event).map label) system
        event := by
  cases event with
  | noisy event => exact during_map shows_ label system event
  | kill reads beforeSize beforePop sent => rfl
  | restart => rfl

theorem throughout_filterMap {α β : Type*}
    (shows_ : TwoParty → PartyEvent → List α) (label : α → Option β)
    (system : TwoParty) (event : RecoveryEvent) :
    (throughout shows_ system event).filterMap label =
      throughout (fun system event => (shows_ system event).filterMap label)
        system event := by
  cases event with
  | noisy event => exact during_filterMap shows_ label system event
  | kill reads beforeSize beforePop sent => rfl
  | restart => rfl

end Run

/-- The agent may be killed and started again as often as one likes, on links
with detected noise, as long as nothing is left over when a process starts and
a registered board publishes only when the process learns of it before.  Then
no party runs into a fault but the one of DATA without a client, a process
takes no part of the board's topics for all of them, and no message is doubled,
altered or reordered: what ROS gets is a part of what `nros_publish` accepted,
and the handler calls are a part of what ROS messages were to cause. -/
theorem recovery_runs_safe (table : TopicTable) (rcl : Rclcpp)
    (wellFormed : table.WellFormed) (createsAll : rcl.CreatesAll table)
    (events : List RecoveryEvent)
    (tolerable : Along (recoveryStep table rcl) (Tolerable table)
      (initial table) events) :
    ∃ final, exec (recoveryStep table rcl) (initial table) events =
        some final ∧
      (∀ process, final.agent = some process →
        process.loop.agent.newTopics.map Topic.key <+: table.keys ∧
          ∀ entry ∈ final.dispatched,
            entry.frame.header.type = NrosPacketType.registerDone.toByte →
              entry.newTopics.map Topic.key = table.keys) ∧
      ((record (recoveryStep table rcl) (throughout (published rcl))
          (initial table) events).map some).Sublist
        ((record (recoveryStep table rcl) (throughout accepted)
          (initial table) events).map fun (topicId, payload) =>
            table.publication topicId payload) ∧
      (record (recoveryStep table rcl) (throughout (handled table))
          (initial table) events).Sublist
        ((record (recoveryStep table rcl) (throughout arrived)
          (initial table) events).filterMap (Incoming.handlerCall table)) := by
  obtain ⟨final, run, items, leader, recovers⟩ :=
    recovery_run_returns wellFormed createsAll tolerable
  refine ⟨final, run, ?_, ?_, ?_⟩
  · rw [← recovers.resumes.agent, ← recovers.resumes.dispatched]
    exact recovers.due.accepted
  · have up := recovery_run_up wellFormed createsAll tolerable run
    have submits : throughout (submitted table) = fun system event =>
        (throughout accepted system event).map fun (topicId, payload) =>
          table.publication topicId payload := by
      funext system event
      exact (throughout_map accepted _ system event).symm
    rwa [submits, record_map, record_map] at up
  · have down := recovery_run_down wellFormed createsAll tolerable run
    have requests : throughout (requested table) = fun system event =>
        (throughout arrived system event).filterMap
          (Incoming.handlerCall table) := by
      funext system event
      exact (throughout_filterMap arrived _ system event).symm
    rwa [requests, record_filterMap] at down

/-- Two topics are registered, and the board publishes a message. -/
def session : List RecoveryEvent :=
  [.noisy (.party (.agentRound [] [] [])), .noisy (.party (.rxPoll 64)),
    .noisy (.party (.txPoll 1024)), .noisy (.party (.agentRound [256] [] [])),
    .noisy (.party (.rxPoll 64)), .noisy (.party (.txPoll 1024)),
    .noisy (.party (.agentRound [256] [] [])), .noisy (.party (.rxPoll 64)),
    .noisy (.party (.txPoll 1024)), .noisy (.party (.publish 127 twoBytes)),
    .noisy (.party (.txPoll 1024)),
    .noisy (.party (.agentRound [256] [] [])),
    .noisy (.party (.agentRound [256] [] []))]

/-- The first process is killed before it can acknowledge a topic; the second
one ends when the board is registered, and a third one is started. -/
def threeProcesses : List RecoveryEvent :=
  session.take 3 ++ .kill [256] [] [] 0 :: .restart :: session ++
    .restart :: session

theorem recovery_runs_safe_threeProcesses :
    ∃ final, exec (recoveryStep Codegen.pingPong.table Rclcpp.willing)
        (initial Codegen.pingPong.table) threeProcesses = some final ∧
      ((record (recoveryStep Codegen.pingPong.table Rclcpp.willing)
          (throughout (published Rclcpp.willing))
          (initial Codegen.pingPong.table) threeProcesses).map some).Sublist
        ((record (recoveryStep Codegen.pingPong.table Rclcpp.willing)
          (throughout accepted) (initial Codegen.pingPong.table)
          threeProcesses).map fun (topicId, payload) =>
            Codegen.pingPong.table.publication topicId payload) := by
  obtain ⟨final, run, _, up, _⟩ := recovery_runs_safe
    Codegen.pingPong.table Rclcpp.willing pingPong_wellFormed
    (Rclcpp.willing_createsAll _) threeProcesses (by decide +kernel)
  exact ⟨final, run, up⟩

example : (record (recoveryStep Codegen.pingPong.table Rclcpp.willing)
    (throughout (published Rclcpp.willing)) (initial Codegen.pingPong.table)
    threeProcesses).length = 2 := by
  decide +kernel

end TwoParty

end NanoRos
