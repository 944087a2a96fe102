import NanoRos.AgentStep

/-!
# Runs of the agent

A run of the loop ends in a fault or is still going.  `client_` is null until
a REGISTER_DONE is handled, and a DATA frame handled before that ends the run.
-/

namespace NanoRos

/-! ## A null client -/

theorem ClientHandlerNode.onClientConnect_ne_nullClient (rcl : Rclcpp)
    (topics : List Topic) (node : ClientHandlerNode) :
    node.onClientConnect rcl topics ≠ .error .nullClient := by
  induction topics generalizing node with
  | nil => nofun
  | cons t topics induction =>
      intro failed
      simp only [onClientConnect, connectTopic] at failed
      by_cases inside : t.id.toNat < topicsSize
      · by_cases created : creates rcl t = true
        · simp only [inside, created, if_true] at failed
          exact induction _ failed
        · simp only [inside, created, if_true] at failed
          cases failed
      · simp only [inside, if_false] at failed
        cases failed

theorem ClientHandlerNode.clientPublish_ne_nullClient
    (node : ClientHandlerNode) (frame : WireFrame) :
    node.clientPublish frame ≠ .error .nullClient := by
  intro failed
  unfold clientPublish at failed
  split at failed
  · cases failed
  · split at failed <;> cases failed

/-- `frame_dispatch` uses a null client exactly for a DATA frame. -/
theorem Agent.frameDispatch_nullClient_iff {rcl : Rclcpp} {agent : Agent}
    {frame : WireFrame} :
    agent.frameDispatch rcl frame = .error .nullClient ↔
      agent.client = none ∧
        frame.header.type = NrosPacketType.data.toByte := by
  constructor
  · intro failed
    unfold frameDispatch at failed
    split at failed
    next kind =>
      split at failed
      next unconnected =>
        exact ⟨unconnected, NrosPacketType.ofByte?_eq_some_iff.mp kind⟩
      next client _ =>
        split at failed
        next publishing =>
          cases failed
          exact absurd publishing (client.clientPublish_ne_nullClient frame)
        · cases failed
    · cases failed
    · unfold spawnClient at failed
      generalize connecting : ClientHandlerNode.initial.onClientConnect rcl
        agent.newTopics = outcome at failed
      cases outcome with
      | error fault =>
          cases failed
          exact absurd connecting
            (ClientHandlerNode.onClientConnect_ne_nullClient rcl _ _)
      | ok client => cases failed
    all_goals cases failed
  · rintro ⟨unconnected, type⟩
    unfold frameDispatch
    rw [type, NrosPacketType.ofByte?_toByte]
    simp only [unconnected]

/-- Only DATA and REGISTER_DONE can end in a fault. -/
theorem Agent.frameDispatch_ok (rcl : Rclcpp) (agent : Agent)
    {frame : WireFrame}
    (notData : frame.header.type ≠ NrosPacketType.data.toByte)
    (notDone : frame.header.type ≠ NrosPacketType.registerDone.toByte) :
    ∃ result, agent.frameDispatch rcl frame = .ok result := by
  unfold frameDispatch
  split
  next kind =>
    exact absurd (NrosPacketType.ofByte?_eq_some_iff.mp kind) notData
  · exact ⟨_, rfl⟩
  next kind =>
    exact absurd (NrosPacketType.ofByte?_eq_some_iff.mp kind) notDone
  all_goals exact ⟨_, rfl⟩

namespace AgentLoop

/-- The rounds of the loop, up to the first fault. -/
def run (rcl : Rclcpp) : AgentLoop → List IterationInput →
    Except AgentFault AgentLoop
  | loop, [] => .ok loop
  | loop, input :: rest =>
      match loop.iterate rcl input with
      | .error fault => .error fault
      | .ok output => run rcl output.loop rest

/-- Some DATA frame is received before any REGISTER_DONE. -/
def DataBeforeDone : List IterationInput → Prop
  | [] => False
  | input :: rest =>
      match input.received with
      | none => DataBeforeDone rest
      | some frame =>
          frame.header.type = NrosPacketType.data.toByte ∨
            frame.header.type ≠ NrosPacketType.registerDone.toByte ∧
              DataBeforeDone rest

theorem iterate_nullClient_iff {rcl : Rclcpp} {loop : AgentLoop}
    {input : IterationInput} :
    loop.iterate rcl input = .error .nullClient ↔
      loop.agent.client = none ∧ ∃ frame ∈ input.received,
        frame.header.type = NrosPacketType.data.toByte := by
  unfold iterate receive
  cases input.received with
  | none => simp
  | some frame =>
      have dispatching :
          loop.agent.frameDispatch rcl frame = .error .nullClient ↔ _ :=
        Agent.frameDispatch_nullClient_iff
      cases dispatched : loop.agent.frameDispatch rcl frame with
      | error fault => simpa [dispatched] using dispatching
      | ok result => simpa [dispatched] using dispatching

/-- A round in which neither DATA nor REGISTER_DONE is received has no fault. -/
theorem iterate_ok (rcl : Rclcpp) (loop : AgentLoop) {input : IterationInput}
    (harmless : ∀ frame ∈ input.received,
      frame.header.type ≠ NrosPacketType.data.toByte ∧
        frame.header.type ≠ NrosPacketType.registerDone.toByte) :
    ∃ output, loop.iterate rcl input = .ok output := by
  unfold iterate receive
  cases received : input.received with
  | none => exact ⟨_, rfl⟩
  | some frame =>
      obtain ⟨notData, notDone⟩ := harmless frame received
      obtain ⟨result, dispatched⟩ :=
        loop.agent.frameDispatch_ok rcl notData notDone
      simp only [dispatched]
      exact ⟨_, rfl⟩

/-- Once there is a client, there is one to the end. -/
theorem run_of_connected {rcl : Rclcpp} (inputs : List IterationInput)
    {loop : AgentLoop} (connected : loop.agent.client ≠ none) :
    loop.run rcl inputs ≠ .error .nullClient := by
  induction inputs generalizing loop with
  | nil => nofun
  | cons input rest induction =>
      intro failed
      unfold run at failed
      cases round : loop.iterate rcl input with
      | error fault =>
          rw [round] at failed
          cases failed
          exact connected (iterate_nullClient_iff.mp round).1
      | ok output =>
          rw [round] at failed
          obtain ⟨received, receives, iterated⟩ := iterated round
          refine induction ?_ failed
          rw [iterated.agent]
          exact receives.connected connected

/-- A received frame that is neither DATA nor REGISTER_DONE leaves the agent
without a client. -/
theorem Receives.unconnected {rcl : Rclcpp} {before after : AgentLoop}
    {received : Option WireFrame} {published : Option Publication}
    (receives : Receives rcl before received after published)
    (unconnected : before.agent.client = none)
    (notDone : ∀ frame ∈ received,
      frame.header.type ≠ NrosPacketType.registerDone.toByte) :
    after.agent.client = none := by
  cases receives with
  | nothing => exact unconnected
  | frame dispatch =>
      cases dispatch with
      | data _ _ _ _ same => rwa [same]
      | register _ registered _ =>
          rwa [registered, Agent.registerTopic_client]
      | registerDone type _ _ _ _ => exact absurd type (notDone _ rfl)
      | other _ _ _ same _ => rwa [same]

theorem Receives.connected_of_done {rcl : Rclcpp} {before after : AgentLoop}
    {frame : WireFrame} {published : Option Publication}
    (receives : Receives rcl before (some frame) after published)
    (done : frame.header.type = NrosPacketType.registerDone.toByte) :
    after.agent.client ≠ none := by
  cases receives with
  | frame dispatch =>
      cases dispatch with
      | data type _ _ _ _ =>
          rw [type] at done
          exact absurd done (by decide)
      | register type _ _ =>
          rw [type] at done
          exact absurd done (by decide)
      | registerDone _ _ _ spawned _ =>
          rw [spawned]
          nofun
      | other _ _ notDone _ _ => exact absurd done notDone

theorem run_nullClient_iff {rcl : Rclcpp} (inputs : List IterationInput)
    {loop : AgentLoop} (unconnected : loop.agent.client = none) :
    loop.run rcl inputs = .error .nullClient ↔ DataBeforeDone inputs := by
  induction inputs generalizing loop with
  | nil =>
      constructor
      · intro impossible
        cases impossible
      · exact False.elim
  | cons input rest induction =>
      have null : loop.iterate rcl input = .error .nullClient ↔ _ :=
        iterate_nullClient_iff
      unfold run DataBeforeDone
      cases round : loop.iterate rcl input with
      | error fault =>
          have harmful : ¬∀ frame ∈ input.received,
              frame.header.type ≠ NrosPacketType.data.toByte ∧
                frame.header.type ≠ NrosPacketType.registerDone.toByte := by
            intro harmless
            obtain ⟨output, ok⟩ := iterate_ok rcl loop harmless
            rw [round] at ok
            cases ok
          cases received : input.received with
          | none =>
              rw [received] at harmful
              exact absurd nofun harmful
          | some frame =>
              simp only [round, unconnected, received, true_and,
                Option.mem_def, Option.some.injEq, exists_eq_left',
                Except.error.injEq, forall_eq'] at null harmful ⊢
              rw [null]
              constructor
              · exact Or.inl
              · rintro (data | ⟨notDone, _⟩)
                · exact data
                · by_contra notData
                  exact harmful ⟨notData, notDone⟩
      | ok output =>
          obtain ⟨after, receives, iterated⟩ := iterated round
          have client : output.loop.agent.client = after.agent.client := by
            rw [iterated.agent]
          cases received : input.received with
          | none =>
              rw [received] at receives
              apply induction
              rw [client]
              apply receives.unconnected unconnected
              intro frame member
              cases member
          | some frame =>
              rw [received] at receives
              have notData :
                  frame.header.type ≠ NrosPacketType.data.toByte := by
                intro data
                have failed := null.mpr ⟨unconnected, frame, received, data⟩
                rw [round] at failed
                cases failed
              simp only [notData, false_or]
              by_cases done :
                  frame.header.type = NrosPacketType.registerDone.toByte
              · have connected := receives.connected_of_done done
                rw [← client] at connected
                simp only [done, ne_eq, not_true_eq_false, false_and, iff_false]
                exact run_of_connected rest connected
              · simp only [ne_eq, done, not_false_eq_true, true_and]
                apply induction
                rw [client]
                apply receives.unconnected unconnected
                intro other member
                cases member
                exact done

/-- A run of the agent comes to use `client_` while it is null exactly when a
DATA frame is received before any REGISTER_DONE. -/
theorem null_client_iff (rcl : Rclcpp) (inputs : List IterationInput) :
    initial.run rcl inputs = .error .nullClient ↔ DataBeforeDone inputs :=
  run_nullClient_iff inputs rfl

/-- A board that registered with an earlier agent process goes on publishing. -/
def dataFromOldSession : List IterationInput :=
  [⟨none, [], []⟩,
    ⟨some { header := ⟨nrosMagic0, nrosMagic1, 0x02, 127, 1⟩,
            payload := [0x2A] }, [], []⟩]

theorem null_client_dataFromOldSession :
    ¬∀ (rcl : Rclcpp) (inputs : List IterationInput),
      initial.run rcl inputs ≠ .error .nullClient := by
  intro survives
  exact survives ⟨fun _ _ _ => true, fun _ _ _ => true⟩ dataFromOldSession rfl

end AgentLoop

end NanoRos
