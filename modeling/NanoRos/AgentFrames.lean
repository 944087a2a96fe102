import NanoRos.Foundation.PartialRun
import NanoRos.FrameEncoding
import NanoRos.AgentStep

/-!
# Frames the agent sends

Each of the three producers sets the length field and the payload of its
frame separately.  Where the two agree, the frame is decoded as itself.
-/

namespace NanoRos

open NrosStreamParser PartialRun

/-! ## Frames that decode as themselves -/

/-- If the frame can be encoded, a hunting parser that is fed the encoded
bytes calls back once, with the frame's type and topic id and this payload. -/
def DecodesAs (frame : WireFrame) (payload : List UInt8) : Prop :=
  ∀ (outBuf : NrosBuffer) (parser : NrosStreamParser),
    let (n, encoded) := nrosStreamEncodeFrame frame.header
      (some frame.payload) frame.payload.length outBuf
    n ≠ 0 → parser.state = .huntSync →
      ∃ delivered : Frame,
        (nrosStreamParserFeed recordFrame parser [] (encoded.take n)).2 =
            [delivered] ∧
          delivered.header.type = frame.header.type ∧
          delivered.header.topicId = frame.header.topicId ∧
          delivered.payload = payload

theorem decodesAs_of_counts {frame : WireFrame}
    (counts : frame.payload.length ≤ nrosMaxPayload →
      frame.header.length.toNat = frame.payload.length) :
    DecodesAs frame frame.payload := by
  intro outBuf parser
  have room : frame.payload.length ≤ nrosMaxPayload ↔
      frameHeaderSize + frame.payload.length + nrosCrcLen ≤ nrosBufferSize := by
    simp only [nrosMaxPayload, nrosBufferSize, frameHeaderSize, nrosCrcLen]
    omega
  by_cases fits : frame.payload.length ≤ nrosMaxPayload
  · have taken := nrosStreamEncodeFrame_take frame.header frame.payload outBuf
      (room.mp fits)
    generalize nrosStreamEncodeFrame frame.header (some frame.payload)
      frame.payload.length outBuf = written at taken ⊢
    intro _ hunting
    have sendable : frame.Sendable := ⟨counts fits, fits⟩
    have run := (cleanRun_frame hunting sendable.onWire_deliverable).1
    refine ⟨frame.onWire, ?_, rfl, rfl, rfl⟩
    have fed := feedChunks_recordFrame parser [written.2.take written.1]
    simp only [feedChunks, List.foldl_cons, List.foldl_nil, List.flatten_cons,
      List.flatten_nil, List.append_nil] at fed
    rw [fed, taken]
    exact run.delivered
  · rw [nrosStreamEncodeFrame_of_overflow _ _ _ _
      (Nat.not_le.mp (mt room.mpr fits))]
    intro nonzero
    exact absurd rfl nonzero

theorem decodesAs_of_long {frame : WireFrame} (payload : List UInt8)
    (long : nrosMaxPayload < frame.payload.length) :
    DecodesAs frame payload := by
  intro outBuf parser
  rw [nrosStreamEncodeFrame_of_overflow _ _ _ _ (by
    simp only [nrosMaxPayload, nrosBufferSize, frameHeaderSize, nrosCrcLen]
      at long ⊢
    omega)]
  intro nonzero
  exact absurd rfl nonzero

/-! ## Runs of the loop -/

/-- The loop, the ROS messages that arrived and the frames passed to
`send_frame`. -/
structure AgentHistory where
  loop : AgentLoop
  arrived : List Incoming
  sent : List WireFrame

/-- The payload that belongs into a frame of the agent: none for DISCOVER, the
status of its topic for ACK, a ROS message without its encapsulation header
for DATA. -/
inductive Intends (arrived : List Incoming) (frame : WireFrame) :
    List UInt8 → Prop
  | discover (type : frame.header.type = NrosPacketType.discover.toByte) :
      Intends arrived frame []
  | ack (status : NrosAckStatus)
      (type : frame.header.type = NrosPacketType.ack.toByte) :
      Intends arrived frame
        (NrosAckPayload.toBytes ⟨frame.header.topicId, status⟩)
  | data (arrival : Incoming) (member : arrival ∈ arrived)
      (type : frame.header.type = NrosPacketType.data.toByte)
      (topicId : frame.header.topicId = arrival.topicId) :
      Intends arrived frame
        (arrival.message.drop ClientHandlerNode.encapHeaderSize)

theorem Intends.mono {arrived later : List Incoming} {frame : WireFrame}
    {payload : List UInt8} (intends : Intends arrived frame payload)
    (subset : arrived ⊆ later) : Intends later frame payload := by
  cases intends with
  | discover type => exact .discover type
  | ack status type => exact .ack status type
  | data arrival member type topicId =>
      exact .data arrival (subset member) type topicId

namespace AgentHistory

def initial : AgentHistory :=
  { loop := .initial, arrived := [], sent := [] }

/-- One round; none if it ends in a fault. -/
def step (rcl : Rclcpp) (history : AgentHistory) (input : IterationInput) :
    Option AgentHistory :=
  match history.loop.iterate rcl input with
  | .error _ => none
  | .ok output =>
      some
        { loop := output.loop
          arrived := history.arrived ++ (input.beforeSize ++ input.beforePop)
          sent := history.sent ++ output.sent }

/-- A sent frame is decoded as what it is meant to be. -/
def Decodable (arrived : List Incoming) (frame : WireFrame) : Prop :=
  ∃ payload, Intends arrived frame payload ∧ DecodesAs frame payload

/-- The first `recv_frame` returns false, or a frame whose payload is empty or
too long to be sent again. -/
def NoStalePayload (history : AgentHistory) (input : IterationInput) : Prop :=
  history.loop.needRegistration = true →
    ∀ frame ∈ input.received,
      frame.payload = [] ∨ nrosMaxPayload < frame.payload.length

instance (history : AgentHistory) (input : IterationInput) :
    Decidable (history.NoStalePayload input) :=
  inferInstanceAs (Decidable (_ → ∀ frame ∈ input.received, _))

/-- A frame as `client_subscription_callback` builds it. -/
structure Forwards (arrival : Incoming) (frame : WireFrame) : Prop where
  type : frame.header.type = NrosPacketType.data.toByte
  topicId : frame.header.topicId = arrival.topicId
  length : frame.header.length = UInt16.ofNat frame.payload.length
  payload : frame.payload =
    arrival.message.drop ClientHandlerNode.encapHeaderSize

theorem Forwards.counts {arrival : Incoming} {frame : WireFrame}
    (forwards : Forwards arrival frame)
    (fits : frame.payload.length ≤ nrosMaxPayload) :
    frame.header.length.toNat = frame.payload.length := by
  rw [forwards.length, UInt16.toNat_ofNat']
  simp only [nrosMaxPayload, nrosBufferSize, frameHeaderSize, nrosCrcLen]
    at fits
  omega

theorem Forwards.decodable {arrival : Incoming} {frame : WireFrame}
    (forwards : Forwards arrival frame) {arrived : List Incoming}
    (member : arrival ∈ arrived) : Decodable arrived frame := by
  refine ⟨frame.payload, ?_, decodesAs_of_counts forwards.counts⟩
  rw [forwards.payload]
  exact .data arrival member forwards.type forwards.topicId

theorem forwards_of_callback {arrival : Incoming} {message : OutboundMsg}
    (pushed : ClientHandlerNode.clientSubscriptionCallback arrival.topicId
      arrival.message = some message) :
    Forwards arrival message.frame := by
  unfold ClientHandlerNode.clientSubscriptionCallback at pushed
  split at pushed
  · cases pushed
  · cases pushed
    exact ⟨rfl, rfl, rfl, rfl⟩

/-- Every queued message was put together for one that arrived. -/
def QueueForwards (arrived : List Incoming)
    (queue : ThreadSafeQueue OutboundMsg) : Prop :=
  ∀ message ∈ queue.items, ∃ arrival ∈ arrived, Forwards arrival message.frame

theorem QueueForwards.mono {arrived later : List Incoming}
    {queue : ThreadSafeQueue OutboundMsg}
    (forwards : QueueForwards arrived queue) (subset : arrived ⊆ later) :
    QueueForwards later queue := by
  intro message member
  obtain ⟨arrival, arrivedMember, forwarded⟩ := forwards message member
  exact ⟨arrival, subset arrivedMember, forwarded⟩

theorem QueueForwards.pushIncoming {arrived : List Incoming}
    (incoming : List Incoming) {queue : ThreadSafeQueue OutboundMsg}
    (forwards : QueueForwards arrived queue)
    (subset : incoming ⊆ arrived) :
    QueueForwards arrived (AgentLoop.pushIncoming queue incoming) := by
  induction incoming generalizing queue with
  | nil => exact forwards
  | cons arrival incoming induction =>
      have here : arrival ∈ arrived := subset List.mem_cons_self
      have rest : incoming ⊆ arrived := by
        intro other member
        exact subset (List.mem_cons_of_mem arrival member)
      simp only [AgentLoop.pushIncoming, List.foldl_cons]
      split
      · exact induction forwards rest
      next message pushed =>
        apply induction _ rest
        intro other member
        rcases ThreadSafeQueue.mem_push member with old | new
        · exact forwards other old
        · rw [new]
          exact ⟨arrival, here, forwards_of_callback pushed⟩

/-- What one round takes from the queue was put together for a message that
arrived, and so is what it leaves there. -/
theorem QueueForwards.takeOutbound {arrived : List Incoming}
    {queue : ThreadSafeQueue OutboundMsg} {input : IterationInput}
    (forwards : QueueForwards arrived queue)
    (sizeSubset : input.beforeSize ⊆ arrived)
    (popSubset : input.beforePop ⊆ arrived) :
    QueueForwards arrived (AgentLoop.takeOutbound queue input).1 ∧
      ∀ frame ∈ (AgentLoop.takeOutbound queue input).2,
        ∃ arrival ∈ arrived, Forwards arrival frame := by
  have pushed := (forwards.pushIncoming input.beforeSize
    sizeSubset).pushIncoming input.beforePop popSubset
  simp only [AgentLoop.takeOutbound]
  generalize AgentLoop.pushIncoming (AgentLoop.pushIncoming queue
    input.beforeSize) input.beforePop = full at pushed ⊢
  split
  · rcases full with ⟨items, stopping, length_le⟩
    cases items with
    | nil => cases stopping <;> exact ⟨pushed, nofun⟩
    | cons message items =>
        refine ⟨?_, ?_⟩
        · intro other member
          exact pushed other (List.mem_cons_of_mem message member)
        · intro frame member
          rw [List.mem_singleton.mp member]
          exact pushed message List.mem_cons_self
  · exact ⟨pushed, nofun⟩

/-- Everything sent decodes, and everything still to be sent will. -/
structure SendsDecodable (history : AgentHistory) : Prop where
  first : history.loop.needRegistration = true →
    history.loop.frame.payload = []
  queued : QueueForwards history.arrived history.loop.agent.toClientMsgQueue
  sent : ∀ frame ∈ history.sent, Decodable history.arrived frame

theorem ackFrame_decodable (arrived : List Incoming) (agent : Agent) :
    Decodable arrived agent.ackFrame := by
  refine ⟨agent.ackFrame.payload, ?_, decodesAs_of_counts ?_⟩
  · exact .ack agent.ack.status rfl
  · intro _
    rfl

theorem discover_decodable (arrived : List Incoming) {loop : AgentLoop}
    (clean : loop.needRegistration = true → loop.frame.payload = [] ∨
      nrosMaxPayload < loop.frame.payload.length) :
    ∀ frame ∈ loop.discover.2, Decodable arrived frame := by
  intro frame member
  unfold AgentLoop.discover at member
  split at member
  next first =>
    rw [List.mem_singleton.mp member]
    refine ⟨[], .discover rfl, ?_⟩
    rcases clean first with empty | long
    · rw [← empty]
      apply decodesAs_of_counts
      intro _
      show 0 = loop.frame.payload.length
      rw [empty]
      rfl
    · exact decodesAs_of_long [] long
  · cases member

theorem sendsDecodable_step {rcl : Rclcpp} {before after : AgentHistory}
    {input : IterationInput} (decodable : before.SendsDecodable)
    (fresh : before.NoStalePayload input)
    (stepped : before.step rcl input = some after) : after.SendsDecodable := by
  unfold step at stepped
  split at stepped
  · cases stepped
  next output result =>
    cases stepped
    obtain ⟨loop, received, round⟩ := AgentLoop.iterated result
    have earlier : before.arrived ⊆
        before.arrived ++ (input.beforeSize ++ input.beforePop) :=
      List.subset_append_left _ _
    have clean : loop.needRegistration = true → loop.frame.payload = [] ∨
        nrosMaxPayload < loop.frame.payload.length := by
      intro first
      rw [received.needRegistration] at first
      rw [received.frame_eq]
      cases arrival : input.received with
      | none => exact .inl (decodable.first first)
      | some frame => exact fresh first frame arrival
    have outbound := (decodable.queued.mono earlier).takeOutbound
      (List.subset_append_of_subset_right _ (List.subset_append_left _ _))
      (List.subset_append_of_subset_right _ (List.subset_append_right _ _))
    rw [← received.queue] at outbound
    constructor
    · intro first
      rw [round.discovered] at first
      cases first
    · rw [round.agent]
      exact outbound.1
    · intro frame member
      rw [round.sent] at member
      rcases List.mem_append.mp member with old | new
      · obtain ⟨payload, intends, decodes⟩ := decodable.sent frame old
        exact ⟨payload, intends.mono earlier, decodes⟩
      rcases List.mem_append.mp new with others | ack
      · rcases List.mem_append.mp others with discover | forwarded
        · exact discover_decodable _ clean frame discover
        · obtain ⟨arrival, arrived, forwards⟩ := outbound.2 frame forwarded
          exact forwards.decodable arrived
      · split at ack
        · rw [List.mem_singleton.mp ack]
          exact ackFrame_decodable _ loop.agent
        · cases ack

/-- Every frame the agent sends is decoded as what it is meant to be, as long
as the DISCOVER does not carry the payload of a frame received before it. -/
theorem sent_frames_decode (rcl : Rclcpp) (inputs : List IterationInput)
    (fresh : Along (step rcl) NoStalePayload initial inputs)
    (final : AgentHistory)
    (run : exec (step rcl) initial inputs = some final) :
    ∀ frame ∈ final.sent, Decodable final.arrived frame := by
  have started : initial.SendsDecodable := by
    refine ⟨fun _ => rfl, ?_, ?_⟩
    · intro message member
      cases member
    · intro frame member
      cases member
  have decodable : final.SendsDecodable := by
    apply exec_invariant _ started fresh run
    intro before input after decodable fresh stepped
    exact sendsDecodable_step decodable fresh stepped
  exact decodable.sent

/-- The REGISTER of a publisher with id 127. -/
def registerFrame : WireFrame :=
  { header :=
      { magic0 := nrosMagic0
        magic1 := nrosMagic1
        type := NrosPacketType.register.toByte
        topicId := 127
        length := 9 }
    payload := [127, 0, 3, 2, 0x73, 0x2F, 0x54, 0x2F, 0x74] }

/-- The board registers after the DISCOVER, and a ROS message arrives. -/
def quietStart : List IterationInput :=
  [⟨none, [], []⟩, ⟨some registerFrame, [⟨0, [0, 1, 0, 0, 0x2A]⟩], []⟩]

theorem sent_frames_decode_quietStart :
    ∃ final, exec (step Rclcpp.willing) initial quietStart = some final ∧
      final.sent.length = 3 ∧
      ∀ frame ∈ final.sent, Decodable final.arrived frame := by
  have returns : ∃ final ∈ exec (step Rclcpp.willing) initial quietStart,
      final.sent.length = 3 := by
    decide +kernel
  obtain ⟨final, run, three⟩ := returns
  exact ⟨final, run, three,
    sent_frames_decode Rclcpp.willing quietStart (by decide +kernel) final run⟩

/-- A REGISTER of an earlier session waits when the agent starts: its payload
is sent along with the DISCOVER. -/
theorem not_decodable_staleRegister :
    ∃ final,
      exec (step Rclcpp.willing) initial [⟨some registerFrame, [], []⟩] =
          some final ∧
        ∃ frame ∈ final.sent, ¬Decodable final.arrived frame := by
  have silent :
      ∃ final ∈ exec (step Rclcpp.willing) initial
          [⟨some registerFrame, [], []⟩],
        ∃ frame ∈ final.sent,
          let (n, encoded) := nrosStreamEncodeFrame frame.header
            (some frame.payload) frame.payload.length
            (Buffer.filled nrosBufferSize 0)
          n ≠ 0 ∧ (nrosStreamParserFeed recordFrame nrosStreamParserInit []
            (encoded.take n)).2 = [] := by
    decide +kernel
  obtain ⟨final, run, frame, member, encodes, nothing⟩ := silent
  refine ⟨final, run, frame, member, ?_⟩
  rintro ⟨payload, _, decodes⟩
  obtain ⟨delivered, fed, _⟩ := decodes (Buffer.filled nrosBufferSize 0)
    nrosStreamParserInit encodes rfl
  rw [nothing] at fed
  cases fed

end AgentHistory

end NanoRos
