import NanoRos.Codegen.CdrEncoding
import NanoRos.Codegen.FirmwareBuild
import NanoRos.Codegen.ReceivedStrings
import NanoRos.DataDelivery

/-!
# Delivery of typed messages

The board with its generated code, the agent and the two links between: what
`nros_publish_<name>` takes is published as the plain encoding of the same
value, and a callback gets the value that ROS encoded.
-/

namespace NanoRos.Codegen

open Board PartialRun TwoParty UcdrBuffer

/-! ## Messages -/

/-- A value of a topic's message type, as the generated struct holds it. -/
structure Message where
  topic : Topic
  topicId : UInt8
  value : StructObject topic.fields

/-- A value of a topic of the firmware. -/
structure Message.Of (generated : GeneratedTable) (kind : TopicType)
    (message : Message) : Prop where
  member : (message.topic, message.topicId) ∈
    generated.topics.zip generated.ids
  kind : message.topic.topicType = kind
  isValue : StructIsValue message.topic.fields message.value

/-- A message as ROS hands it to the agent: an encapsulation header, then the
encoding. -/
structure RosMessage where
  message : Message
  header : List UInt8
  body : List UInt8

def RosMessage.incoming (arrival : RosMessage) : Incoming :=
  { topicId := arrival.message.topicId
    message := arrival.header ++ arrival.body }

/-- ROS encodes the value in plain CDR. -/
structure RosMessage.Encodes (arrival : RosMessage) : Prop where
  header : arrival.header.length = ClientHandlerNode.encapHeaderSize
  body : Chunk.Agrees arrival.body
    (cdrEncoding arrival.message.topic.fields arrival.message.value)

/-- The publication is the message's: on its topic, with its type and QoS, and
the plain encoding of its value. -/
structure Carries (publication : Publication) (message : Message) : Prop where
  topicName : publication.publisher.topicName = utf8 message.topic.name
  msgType : publication.publisher.msgType = utf8 message.topic.msgType
  qos : publication.publisher.qos = qosFromWire message.topic.qos.toByte
  payload : ∃ body, publication.payload = cdrEncapHeader ++ body ∧
    Chunk.Agrees body (cdrEncoding message.topic.fields message.value)

/-- The call is one of the topic's handler, which hands the value to its
callback, whatever the memory held before. -/
structure Receives (generated : GeneratedTable) (call : HandlerCall)
    (message : Message) : Prop where
  handler : call.handler = generated.handler message.topic
  value : ∀ stack target, ∃ received,
    subscriberHandler message.topic.fields call.payload stack target =
        some received ∧
      StructSameValue message.topic.fields message.value received

/-! ### Plain fields have filled arrays -/

mutual

theorem FieldType.arraysFilled_of_plain : (fieldType : FieldType) →
    fieldType.IsPlain → fieldType.ArraysFilled
  | .primitive _, _ => trivial
  | .primArray _ _, plain => .inr plain.2
  | .nested _ fields, plain => arraysFilled_of_plain fields plain
  | .nestedArray _ fields _, plain => arraysFilled_of_plain fields plain

theorem MsgField.arraysFilled_of_plain : (field : MsgField) →
    field.IsPlain → field.ArraysFilled
  | .mk _ fieldType, plain => fieldType.arraysFilled_of_plain plain

theorem arraysFilled_of_plain : (fields : List MsgField) →
    FieldsPlain fields → ArraysFilled fields
  | [], _ => trivial
  | field :: fields, plain =>
      ⟨field.arraysFilled_of_plain plain.1,
        arraysFilled_of_plain fields plain.2⟩

end

/-! ## The system with the generated code -/

/-- An event of the system; the firmware publishes with `nros_publish_<name>`,
and ROS publishes on the topics the firmware subscribes to. -/
inductive FirmwareEvent where
  | rxPoll (count : Nat)
  | txPoll (accepted : Nat)
  | publish (message : Message)
  | agentRound (reads : List Nat) (beforeSize beforePop : List RosMessage)

namespace FirmwareEvent

/-- The generated function calls `nros_publish` with the topic's id and
serializer. -/
def party (board : Board) : FirmwareEvent → PartyEvent
  | .rxPoll count => .rxPoll count
  | .txPoll accepted => .txPoll accepted
  | .publish message =>
      .publish message.topicId
        (serializeMessage message.topic message.value board)
  | .agentRound reads beforeSize beforePop =>
      .agentRound reads (beforeSize.map RosMessage.incoming)
        (beforePop.map RosMessage.incoming)

/-- Only values of the firmware's topics are published. -/
def Sound (generated : GeneratedTable) : FirmwareEvent → Prop
  | .rxPoll _ | .txPoll _ => True
  | .publish message => message.Of generated .publisher
  | .agentRound _ beforeSize beforePop =>
      ∀ arrival ∈ beforeSize ++ beforePop,
        arrival.message.Of generated .subscriber ∧ arrival.Encodes

end FirmwareEvent

namespace Firmware

def step (table : TopicTable) (rcl : Rclcpp) (system : TwoParty)
    (event : FirmwareEvent) : Option TwoParty :=
  system.step table rcl (event.party system.board)

/-- The message, if `nros_publish_<name>` returns true. -/
def sent (system : TwoParty) : FirmwareEvent → List Message
  | .publish message =>
      if (system.board.nrosPublish message.topicId
          (serializeMessage message.topic message.value system.board)).1 then
        [message]
      else
        []
  | .rxPoll _ | .txPoll _ | .agentRound _ _ _ => []

/-- The messages that ROS publishes on the firmware's subscriptions. -/
def arriving (_ : TwoParty) : FirmwareEvent → List Message
  | .agentRound _ beforeSize beforePop =>
      (beforeSize ++ beforePop).map RosMessage.message
  | .rxPoll _ | .txPoll _ | .publish _ => []

/-- What the step of the generated code's system shows. -/
def ofParty {α : Type} (shows : TwoParty → PartyEvent → List α)
    (system : TwoParty) (event : FirmwareEvent) : List α :=
  shows system (event.party system.board)

section Steps

variable {upper : Char → List Char} {generated : GeneratedTable}

theorem permitted_of_sound (builds : generated.Builds upper)
    {event : FirmwareEvent} (sound : event.Sound generated) (board : Board) :
    (event.party board).Permitted generated.table := by
  cases event with
  | rxPoll count => trivial
  | txPoll accepted => trivial
  | publish message =>
      obtain ⟨serial, found⟩ := builds.publisher? sound.member sound.kind
      show (generated.table.publisher? message.topicId).isSome
      rw [found]
      rfl
  | agentRound reads beforeSize beforePop =>
      intro incoming member
      rw [← List.map_append] at member
      obtain ⟨arrival, inside, rfl⟩ := List.mem_map.mp member
      obtain ⟨ofTopic, _⟩ := sound arrival inside
      rw [RosMessage.incoming,
        builds.subscriber? ofTopic.member ofTopic.kind]
      rfl

/-- What a generated serializer writes is the plain encoding. -/
theorem serializeMessage_agrees {topic : Topic}
    {value : StructObject topic.fields} (plain : FieldsPlain topic.fields)
    (isValue : StructIsValue topic.fields value) (board : Board)
    (ok : (serializeMessage topic value board).ok = true) :
    Chunk.Agrees (serializeMessage topic value board).bytes
      (cdrEncoding topic.fields value) := by
  have emits : Emits (fun ub : UcdrBuffer
      (nrosBufferSize - Board.cdrEncapHeader.length) =>
        serializeStruct topic.fields value ub) _ :=
    emits_struct topic.fields value isValue
  have layouts := layout_structChunks topic.fields value plain isValue 0
  have fits := emits.fits (ready_init (payloadSpace board)) ok
  have total := Chunk.length_layout (structChunks topic.fields value) 0
  have enough : (cdrEncoding topic.fields value).length ≤
      nrosBufferSize - Board.cdrEncapHeader.length := by
    rw [cdrEncoding, ← layouts]
    exact Nat.le_trans (Nat.le_of_eq ((Nat.zero_add _).symm.trans total)) fits
  exact (emits.encoding (payloadSpace board) layouts enough).2.2

/-- What a publish submits is the message's publication. -/
theorem submitted_carries (builds : generated.Builds upper)
    (plain : ∀ topic ∈ generated.topics, FieldsPlain topic.fields)
    {event : FirmwareEvent} (sound : event.Sound generated)
    (system : TwoParty) :
    List.Forall₂ (fun expected message =>
        ∃ publication, expected = some publication ∧
          Carries publication message)
      (ofParty (submitted generated.table) system event)
      (sent system event) := by
  cases event with
  | rxPoll count => exact .nil
  | txPoll accepted => exact .nil
  | agentRound reads beforeSize beforePop => exact .nil
  | publish message =>
      simp only [ofParty, FirmwareEvent.party, submitted, TwoParty.accepted,
        sent]
      split
      next accepted =>
        obtain ⟨serial, found⟩ := builds.publisher? sound.member sound.kind
        obtain ⟨_, _, ok, _⟩ :=
          (system.board.publish_eq_true_iff _ _).mp accepted
        have agrees := serializeMessage_agrees
          (plain _ (List.of_mem_zip sound.member).1) sound.isValue
          system.board ok
        have expected (payload : List UInt8) :
            generated.table.publication message.topicId payload = some
              { publisher :=
                  { topicName := utf8 message.topic.name
                    msgType := utf8 message.topic.msgType
                    qos := qosFromWire message.topic.qos.toByte
                    serial }
                payload } := by
          rw [TopicTable.publication, found]
          rfl
        exact .cons ⟨_, expected _, rfl, rfl, rfl, _, rfl, agrees⟩ .nil
      · exact .nil

/-- An encoded message fits in a frame. -/
theorem length_body_le (builds : generated.Builds upper)
    (plain : ∀ topic ∈ generated.topics, FieldsPlain topic.fields)
    {arrival : RosMessage}
    (ofTopic : arrival.message.Of generated .subscriber)
    (encodes : arrival.Encodes) : arrival.body.length ≤ nrosMaxPayload := by
  have inside := (List.of_mem_zip ofTopic.member).1
  have fields := plain _ inside
  have length := encodes.body.length_eq
  have layouts := layout_structChunks _ _ fields ofTopic.isValue 0
  have total := Chunk.length_layout
    (structChunks _ arrival.message.value) 0
  have ends := endOf_structChunks_le _ _ ofTopic.isValue (Nat.le_refl 0)
  have longest := longestPayload_le (arraysFilled_of_plain _ fields)
  have checked := (builds.checks _ inside).payload
  rw [cdrEncoding, ← layouts] at length
  rw [longestPayload] at longest
  rw [PayloadCheck] at checked
  omega

/-- What ROS encodes reaches the callback as the same value. -/
theorem handlerCall_receives (builds : generated.Builds upper)
    (plain : ∀ topic ∈ generated.topics, FieldsPlain topic.fields)
    {arrival : RosMessage}
    (ofTopic : arrival.message.Of generated .subscriber)
    (encodes : arrival.Encodes) :
    ∃ call, arrival.incoming.handlerCall generated.table = some call ∧
      Receives generated call arrival.message := by
  have inside := (List.of_mem_zip ofTopic.member).1
  have fits := length_body_le builds plain ofTopic encodes
  have payload : arrival.incoming.payload? = some arrival.body := by
    have dropped : (arrival.header ++ arrival.body).drop
        ClientHandlerNode.encapHeaderSize = arrival.body :=
      List.drop_left' encodes.header
    have long : ¬(arrival.header ++ arrival.body).length <
        ClientHandlerNode.encapHeaderSize := by
      rw [List.length_append, encodes.header]
      omega
    simp only [Incoming.payload?, RosMessage.incoming, dropped, long,
      Nat.not_lt.mpr fits, or_self, if_false]
  refine ⟨{ handler := generated.handler arrival.message.topic
            payload := arrival.body }, ?_, rfl, ?_⟩
  · rw [Incoming.handlerCall, payload, Option.bind_some,
      TopicTable.handlerCall, RosMessage.incoming,
      builds.subscriber? ofTopic.member ofTopic.kind]
    rfl
  · intro stack target
    have layouts := layout_structChunks _ _ (plain _ inside) ofTopic.isValue 0
    have agrees := encodes.body
    rw [cdrEncoding, ← layouts] at agrees
    have size := agrees.length_eq
    have total := Chunk.length_layout
      (structChunks _ arrival.message.value) 0
    have ends : Chunk.endOf (structChunks _ arrival.message.value) 0 ≤
        arrival.body.length := by omega
    have held : Chunk.HeldBy arrival.body
        (structChunks _ arrival.message.value) 0 := .of_agrees agrees
    have reads := reads_struct stack _ arrival.message.value target
      ofTopic.isValue
    have ready := ready_init
      (⟨arrival.body, rfl⟩ : Buffer UInt8 arrival.body.length)
    obtain ⟨ok, same⟩ := reads.result ready ends held
    refine ⟨_, if_pos ok, same⟩

/-- What is requested of the board are the calls of the arriving messages. -/
theorem requested_receives (builds : generated.Builds upper)
    (plain : ∀ topic ∈ generated.topics, FieldsPlain topic.fields)
    {event : FirmwareEvent} (sound : event.Sound generated)
    (system : TwoParty) :
    List.Forall₂ (Receives generated)
      (ofParty (requested generated.table) system event)
      (arriving system event) := by
  cases event with
  | rxPoll count => exact .nil
  | txPoll accepted => exact .nil
  | publish message => exact .nil
  | agentRound reads beforeSize beforePop =>
      simp only [ofParty, FirmwareEvent.party, requested, TwoParty.arrived,
        arriving, ← List.map_append]
      have calls (arrivals : List RosMessage)
          (all : ∀ arrival ∈ arrivals,
            arrival.message.Of generated .subscriber ∧ arrival.Encodes) :
          List.Forall₂ (Receives generated)
            ((arrivals.map RosMessage.incoming).filterMap
              (Incoming.handlerCall generated.table))
            (arrivals.map RosMessage.message) := by
        induction arrivals with
        | nil => exact .nil
        | cons arrival arrivals induction =>
            obtain ⟨ofTopic, encodes⟩ := all arrival List.mem_cons_self
            obtain ⟨call, called, receives⟩ :=
              handlerCall_receives builds plain ofTopic encodes
            rw [List.map_cons, List.filterMap_cons_some called]
            exact .cons receives (induction fun other member =>
              all other (List.mem_cons_of_mem arrival member))
      exact calls _ sound

end Steps

/-! ## Runs -/

section Runs

variable {upper : Char → List Char} {generated : GeneratedTable}
  {rcl : Rclcpp}

/-- A step of the system with the generated code is one of the parties. -/
theorem moves (builds : generated.Builds upper)
    (createsAll : rcl.CreatesAll generated.table) (system : TwoParty)
    (event : FirmwareEvent) (next : TwoParty)
    (serving : system.Serving generated.table) (sound : event.Sound generated)
    (stepped : step generated.table rcl system event = some next) :
    system.Moves generated.table rcl (event.party system.board) next :=
  Serving.moves builds.wellFormed createsAll system _ next serving
    (permitted_of_sound builds sound system.board) stepped

/-- A run of sound events goes through. -/
theorem runs (builds : generated.Builds upper)
    (createsAll : rcl.CreatesAll generated.table)
    {events : List FirmwareEvent}
    (sound : ∀ event ∈ events, event.Sound generated) :
    ∃ final, exec (step generated.table rcl) (initial generated.table)
        events = some final ∧ final.Serving generated.table := by
  have advances (system : TwoParty) (event : FirmwareEvent)
      (serving : system.Serving generated.table)
      (sound : event.Sound generated) :
      ∃ next, step generated.table rcl system event = some next ∧
        next.Serving generated.table :=
    Serving.advances builds.wellFormed createsAll system _ serving
      (permitted_of_sound builds sound system.board)
  exact exec_total advances (serving_initial generated.table)
    (along_of_forall_mem sound _)

end Runs

/-- Whatever the generated code publishes comes out in ROS: every run of a
firmware that builds, with plain fields only, goes through, and the
publications so far, in order, are those of the first messages that
`nros_publish_<name>` accepted, in plain CDR; the others are under way. -/
theorem typed_publishes_delivered (upper : Char → List Char)
    (generated : GeneratedTable) (rcl : Rclcpp)
    (builds : generated.Builds upper)
    (plain : ∀ topic ∈ generated.topics, FieldsPlain topic.fields)
    (createsAll : rcl.CreatesAll generated.table)
    (events : List FirmwareEvent)
    (sound : ∀ event ∈ events, event.Sound generated) :
    ∃ final delivered underway,
      exec (step generated.table rcl) (initial generated.table) events =
          some final ∧
        record (step generated.table rcl) sent (initial generated.table)
            events = delivered ++ underway ∧
        List.Forall₂ Carries
          (record (step generated.table rcl) (ofParty (published rcl))
            (initial generated.table) events) delivered ∧
        underway.length = final.uplink.length := by
  obtain ⟨final, run, _⟩ := runs builds createsAll sound
  have respected : Along (step generated.table rcl)
      (fun _ event => event.Sound generated) (initial generated.table)
      events := along_of_forall_mem sound _
  have moves := moves builds createsAll
  have preserved (state : TwoParty) (event : FirmwareEvent) (next : TwoParty)
      (serving : state.Serving generated.table)
      (sound : event.Sound generated)
      (stepped : step generated.table rcl state event = some next) :
      next.Serving generated.table :=
    (moves state event next serving sound stepped).serving
  have balance : record (step generated.table rcl)
        (fun state event => (ofParty (published rcl) state event).map some)
        (initial generated.table) events ++ final.outbound generated.table =
      record (step generated.table rcl)
        (ofParty (submitted generated.table)) (initial generated.table)
        events :=
    record_balance preserved
      (fun state event next serving sound stepped =>
        (moves state event next serving sound stepped).up)
      (serving_initial generated.table) respected run
  have carried := record_forall₂ preserved
    (fun state event _ sound => submitted_carries builds plain sound state)
    (serving_initial generated.table) respected
  rw [← balance, record_map] at carried
  obtain ⟨delivered, underway, all, first, rest⟩ :=
    exists_append_of_forall₂ carried
  refine ⟨final, delivered, underway, run, all, ?_, ?_⟩
  · rw [List.forall₂_map_left_iff] at first
    apply first.imp
    rintro publication message ⟨other, same, carries⟩
    exact Option.some.inj same ▸ carries
  · rw [← rest.length_eq, outbound, List.length_map]

/-- A number and a short text. -/
def noteFields : List MsgField :=
  [.mk "count".toList (.primitive .uint32),
    .mk "label".toList (.primitive .string)]

def noteTopic : Topic where
  name := "note".toList
  topicType := .publisher
  msgType := "demo_msgs/msg/Note".toList
  qos := .reliable
  fields := noteFields

def replyTopic : Topic where
  name := "reply".toList
  topicType := .subscriber
  msgType := "demo_msgs/msg/Note".toList
  qos := .reliable
  fields := noteFields

/-- Notes in both directions. -/
def notes : GeneratedTable where
  topics := [noteTopic, replyTopic]
  ids := [127, 0]
  handler := fun _ => 0x10000000
  count_le := by decide

theorem notes_builds : notes.Builds asciiUpper where
  nonempty := by decide
  ids := ⟨[127, 0], by decide, by decide⟩
  macros := by decide
  checks := by
    intro topic member
    simp only [notes, List.mem_cons, List.not_mem_nil, or_false] at member
    rcases member with rfl | rfl <;>
      exact ⟨by decide +kernel, by decide, by decide⟩

theorem notes_plain : ∀ topic ∈ notes.topics, FieldsPlain topic.fields := by
  intro topic member
  simp only [notes, List.mem_cons, List.not_mem_nil, or_false] at member
  rcases member with rfl | rfl <;> exact ⟨trivial, trivial, trivial⟩

/-- The number 7 and the text "hi". -/
def noteValue : StructObject noteFields :=
  (⟨[7, 0, 0, 0], rfl⟩, (Buffer.filled 256 0).copy 0 [0x68, 0x69], ())

theorem noteValue_isValue : StructIsValue noteFields noteValue := by
  refine ⟨trivial, ?_, trivial⟩
  show (0 : UInt8) ∈ ((Buffer.filled 256 0).copy 0 [0x68, 0x69]).cells
  decide +kernel

/-- The note, encoded. -/
def noteBody : List UInt8 := [7, 0, 0, 0, 3, 0, 0, 0, 0x68, 0x69, 0]

def noteReply : RosMessage where
  message := { topic := replyTopic, topicId := 0, value := noteValue }
  header := [0, 1, 0, 0]
  body := noteBody

theorem noteReply_encodes : noteReply.Encodes where
  header := rfl
  body := by
    have encoding : cdrEncoding noteFields noteValue =
        noteBody.map some := by
      decide +kernel
    show Chunk.Agrees noteBody (cdrEncoding noteFields noteValue)
    rw [encoding]
    exact Chunk.agrees_map_some noteBody

/-- Both topics are registered, then a note is published and another one
arrives. -/
def exchangeNotes : List FirmwareEvent :=
  [.agentRound [] [] [], .rxPoll 64, .txPoll 1024, .agentRound [256] [] [],
    .rxPoll 64, .txPoll 1024, .agentRound [256] [] [], .rxPoll 64,
    .txPoll 1024, .agentRound [256] [] [],
    .publish { topic := noteTopic, topicId := 127, value := noteValue },
    .txPoll 1024, .agentRound [256] [noteReply] [], .rxPoll 64]

theorem exchangeNotes_sound : ∀ event ∈ exchangeNotes, event.Sound notes := by
  intro event member
  simp only [exchangeNotes, List.mem_cons, List.not_mem_nil, or_false]
    at member
  rcases member with rfl | rfl | rfl | rfl | rfl | rfl | rfl | rfl | rfl |
    rfl | rfl | rfl | rfl | rfl
  case inr.inr.inr.inr.inr.inr.inr.inr.inr.inr.inl =>
    exact ⟨List.mem_cons_self, rfl, noteValue_isValue⟩
  case inr.inr.inr.inr.inr.inr.inr.inr.inr.inr.inr.inr.inl =>
    intro arrival inside
    obtain rfl : arrival = noteReply := by simpa using inside
    exact ⟨⟨List.mem_cons_of_mem _ List.mem_cons_self, rfl,
      noteValue_isValue⟩, noteReply_encodes⟩
  all_goals first | trivial | (intro arrival inside; cases inside)

theorem typed_publishes_delivered_exchangeNotes :
    ∃ final delivered underway,
      exec (step notes.table Rclcpp.willing) (initial notes.table)
          exchangeNotes = some final ∧
        record (step notes.table Rclcpp.willing) sent
            (initial notes.table) exchangeNotes = delivered ++ underway ∧
        List.Forall₂ Carries
          (record (step notes.table Rclcpp.willing)
            (ofParty (published Rclcpp.willing))
            (initial notes.table) exchangeNotes) delivered ∧
        underway.length = final.uplink.length :=
  typed_publishes_delivered asciiUpper notes Rclcpp.willing
    notes_builds notes_plain (Rclcpp.willing_createsAll _) exchangeNotes
    exchangeNotes_sound

example : (record (step notes.table Rclcpp.willing)
    (ofParty (published Rclcpp.willing)) (initial notes.table)
    exchangeNotes).map (·.payload) = [cdrEncapHeader ++ noteBody] := by
  decide +kernel

/-- Values of the generated structs that ROS sends to the firmware's
subscriptions reach their callbacks: in every run of a firmware that builds,
with plain fields only, the handlers are called for some of the messages, in
order, and each callback gets the value that ROS encoded; if the agent's queue
never overflows, they are the first of them, and the others are under way. -/
theorem typed_messages_handled (upper : Char → List Char)
    (generated : GeneratedTable) (rcl : Rclcpp)
    (builds : generated.Builds upper)
    (plain : ∀ topic ∈ generated.topics, FieldsPlain topic.fields)
    (createsAll : rcl.CreatesAll generated.table)
    (events : List FirmwareEvent)
    (sound : ∀ event ∈ events, event.Sound generated) :
    ∃ final handledMessages,
      exec (step generated.table rcl) (initial generated.table) events =
          some final ∧
        List.Forall₂ (Receives generated)
          (record (step generated.table rcl)
            (ofParty (handled generated.table)) (initial generated.table)
            events) handledMessages ∧
        handledMessages.Sublist
          (record (step generated.table rcl) arriving
            (initial generated.table) events) ∧
        (Along (step generated.table rcl)
            (fun system event => system.Spacious (event.party system.board))
            (initial generated.table) events →
          ∃ underway, record (step generated.table rcl) arriving
              (initial generated.table) events =
                handledMessages ++ underway ∧
            underway.length = (final.inbound generated.table).length) := by
  obtain ⟨final, run, _⟩ := runs builds createsAll sound
  have respected : Along (step generated.table rcl)
      (fun _ event => event.Sound generated) (initial generated.table)
      events := along_of_forall_mem sound _
  have moves := moves builds createsAll
  have preserved (state : TwoParty) (event : FirmwareEvent) (next : TwoParty)
      (serving : state.Serving generated.table)
      (sound : event.Sound generated)
      (stepped : step generated.table rcl state event = some next) :
      next.Serving generated.table :=
    (moves state event next serving sound stepped).serving
  have ordered : (record (step generated.table rcl)
          (ofParty (handled generated.table)) (initial generated.table)
          events ++ final.inbound generated.table).Sublist
      (record (step generated.table rcl)
        (ofParty (requested generated.table)) (initial generated.table)
        events) :=
    record_sublist preserved
      (fun state event next serving sound stepped =>
        (moves state event next serving sound stepped).down)
      (serving_initial generated.table) respected run
  have received := record_forall₂ preserved
    (fun state event _ sound => requested_receives builds plain sound state)
    (serving_initial generated.table) respected
  obtain ⟨chosen, all, sublist⟩ := exists_sublist_of_forall₂ ordered received
  obtain ⟨front, rest, rfl, first, second⟩ := exists_append_of_forall₂ all
  refine ⟨final, front, run, first,
    (List.sublist_append_left front rest).trans sublist, ?_⟩
  intro spacious
  have balance : record (step generated.table rcl)
        (ofParty (handled generated.table)) (initial generated.table)
        events ++ final.inbound generated.table =
      record (step generated.table rcl)
        (ofParty (requested generated.table)) (initial generated.table)
        events :=
    record_balance
      (fun state event next serving allowed stepped =>
        preserved state event next serving allowed.1 stepped)
      (fun state event next serving allowed stepped =>
        (moves state event next serving allowed.1 stepped).exact allowed.2)
      (serving_initial generated.table) (respected.and spacious) run
  refine ⟨rest, (sublist.eq_of_length ?_).symm, second.length_eq.symm⟩
  rw [← all.length_eq, ← received.length_eq, balance]

theorem typed_messages_handled_exchangeNotes :
    ∃ final handledMessages,
      exec (step notes.table Rclcpp.willing) (initial notes.table)
          exchangeNotes = some final ∧
        List.Forall₂ (Receives notes)
          (record (step notes.table Rclcpp.willing)
            (ofParty (handled notes.table)) (initial notes.table)
            exchangeNotes) handledMessages ∧
        handledMessages.Sublist
          (record (step notes.table Rclcpp.willing) arriving
            (initial notes.table) exchangeNotes) ∧
        ∃ underway, record (step notes.table Rclcpp.willing)
            arriving (initial notes.table) exchangeNotes =
              handledMessages ++ underway ∧
          underway.length = (final.inbound notes.table).length := by
  obtain ⟨final, handledMessages, run, received, sublist, whole⟩ :=
    typed_messages_handled asciiUpper notes Rclcpp.willing
      notes_builds notes_plain (Rclcpp.willing_createsAll _) exchangeNotes
      exchangeNotes_sound
  exact ⟨final, handledMessages, run, received, sublist,
    whole (by decide +kernel)⟩

end Firmware

end NanoRos.Codegen
