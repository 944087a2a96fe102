import NanoRos.BoardRuns
import NanoRos.Codegen.TopicIds

/-!
# DATA frames for the board

`nros_dispatch` follows `topic_map[id]->cb` without looking at either pointer.
With a table the generator made, both are there exactly for the ids of
subscribers.
-/

namespace NanoRos.Codegen

open PartialRun

/-- A table as the generator writes it, with whatever values its `_ID` macros
expand to. -/
structure GeneratedTable where
  topics : List Topic
  ids : List UInt8
  handler : Topic → CodePointer
  count_le : (generateTopicArray handler topics ids).length ≤ 255

namespace GeneratedTable

def table (generated : GeneratedTable) : TopicTable where
  topics := generateTopicArray generated.handler generated.topics
    generated.ids
  count_le := generated.count_le

/-- The handler of the subscriber registered under an id.  Of several entries
with one id the last is the registered one. -/
def subscriber? (generated : GeneratedTable) (id : UInt8) :
    Option CodePointer :=
  ((generated.topics.zip generated.ids).reverse.find? (·.2 = id)).bind
    fun pair =>
      match pair.1.topicType with
      | .publisher => none
      | .subscriber => some (generated.handler pair.1)

end GeneratedTable

/-- A DATA frame goes to its subscriber's handler if there is one; otherwise
it is dropped, and no handler is called. -/
def SurvivesData (generated : GeneratedTable) (board : Board)
    (frame : Frame) : Prop :=
  Board.nrosDispatch generated.table board frame = .ok board ∧
    match generated.subscriber? frame.header.topicId with
    | some handler =>
        board.dispatchData frame = .ok { handler, payload := frame.payload }
    | none => ∀ call, board.dispatchData frame ≠ .ok call

/-- The installed map. -/
def Installed (generated : GeneratedTable) (board : Board) : Prop :=
  board.topicMap =
    installTopics generated.table.topics (.filled 256 none)

theorem installed_initial (generated : GeneratedTable) :
    Installed generated (.initial generated.table) := rfl

/-- The entry registered under an id. -/
theorem find?_table (generated : GeneratedTable) (id : UInt8) :
    generated.table.topics.reverse.find? (·.topicId = id) =
      ((generated.topics.zip generated.ids).reverse.find? (·.2 = id)).map
        fun pair => topicEntry generated.handler pair.1 pair.2 := by
  have entries : generated.table.topics =
      (generated.topics.zip generated.ids).map
        fun pair => topicEntry generated.handler pair.1 pair.2 :=
    generateTopicArray_eq _ _ _
  rw [entries, ← List.map_reverse, List.find?_map]
  rfl

/-- What `topic_map` holds under an id. -/
theorem Installed.load? {generated : GeneratedTable} {board : Board}
    (installed : Installed generated board) (id : UInt8) :
    (board.topicMap.load? id.toNat).join =
      ((generated.topics.zip generated.ids).reverse.find? (·.2 = id)).map
        fun pair => topicEntry generated.handler pair.1 pair.2 := by
  rw [installed, load?_installTopics, find?_table]
  cases (generated.topics.zip generated.ids).reverse.find? (·.2 = id) with
  | none => rw [Buffer.load?_filled _ id.toNat_lt]; rfl
  | some pair => rfl

/-- The two pointers are followed for the ids of subscribers only. -/
theorem Installed.dispatchData {generated : GeneratedTable} {board : Board}
    (installed : Installed generated board) (frame : Frame) :
    match generated.subscriber? frame.header.topicId with
    | some handler =>
        board.dispatchData frame = .ok { handler, payload := frame.payload }
    | none => ∃ fault, board.dispatchData frame = .error fault := by
  rw [Board.dispatchData, installed.load?, GeneratedTable.subscriber?]
  cases (generated.topics.zip generated.ids).reverse.find?
      (·.2 = frame.header.topicId) with
  | none => exact ⟨_, rfl⟩
  | some pair =>
      simp only [Option.map_some, Option.bind_some, topicEntry]
      cases pair.1.topicType with
      | publisher => exact ⟨_, rfl⟩
      | subscriber => rfl

/-! ## The map in a run -/

theorem dispatchStep_topicMap {table : TopicTable} {before after : Board}
    {frame : Frame} (step : before.DispatchStep table frame after) :
    after.topicMap = before.topicMap := by
  have loads {start : Board} (loaded : start.LoadStep table after) :
      after.topicMap = start.topicMap := by
    cases loaded with
    | done _ _ _ same _ => exact same.topicMap
    | tooLong _ _ _ _ same => rw [same]
    | register _ _ _ _ _ _ same _ => exact same.topicMap
  cases step with
  | passed _ _ same => rw [same]
  | ackIgnored _ _ same => rw [same]
  | ackOutside _ _ _ cleared => rw [cleared]
  | ackTaken _ _ _ loaded =>
      have same := loads loaded
      exact same
  | discoverDropped _ _ same => rw [same]
  | discoverTaken _ _ loaded =>
      have same := loads loaded
      exact same

theorem txPoll_topicMap (board : Board) (accepted : Nat) :
    (board.txPoll accepted).1.topicMap = board.topicMap := by
  unfold Board.txPoll
  split
  · dsimp only
    split
    · rfl
    · exact (Board.txFrameComplete_completed _).topicMap
  · rfl

theorem publish_topicMap (board : Board) (topicId : UInt8)
    (serialized : Board.SerializeResult) :
    (board.nrosPublish topicId serialized).2.topicMap = board.topicMap := by
  have published := Board.publishStep board topicId serialized
  generalize board.nrosPublish topicId serialized = outcome at published ⊢
  cases published with
  | busy _ same => rw [same]
  | failed _ _ _ same _ => exact same.topicMap
  | loaded _ _ _ _ _ _ same _ => exact same.topicMap

/-- No call of the library changes the map. -/
theorem installed_step {generated : GeneratedTable}
    {before after : BoardHistory} {event : BoardEvent}
    (installed : Installed generated before.board)
    (stepped : before.step generated.table event = some after) :
    Installed generated after.board := by
  have same : after.board.topicMap = before.board.topicMap := by
    cases event with
    | receive frame =>
        obtain ⟨board, accepted, dispatch, _, rfl⟩ :=
          BoardHistory.step_receive stepped
        exact dispatchStep_topicMap dispatch
    | txPoll accepted =>
        cases stepped
        exact txPoll_topicMap before.board accepted
    | publish topicId serialized =>
        cases stepped
        exact publish_topicMap before.board topicId serialized
  rw [Installed, same]
  exact installed

theorem installed_exec {generated : GeneratedTable}
    {events : List BoardEvent} {final : BoardHistory}
    (run : exec (BoardHistory.step generated.table)
      (.initial generated.table) events = some final) :
    Installed generated final.board := by
  have preserved (before : BoardHistory) (event : BoardEvent)
      (after : BoardHistory) (installed : Installed generated before.board)
      (stepped : before.step generated.table event = some after) :
      Installed generated after.board := installed_step installed stepped
  exact exec_preserved preserved (installed_initial generated) run

/-! ## The dispatch -/

/-- At any point of any run a DATA frame is survived exactly when its id is
that of a subscriber. -/
theorem data_survived_iff (generated : GeneratedTable)
    (events : List BoardEvent) (final : BoardHistory)
    (run : exec (BoardHistory.step generated.table)
      (.initial generated.table) events = some final)
    (frame : Frame)
    (data : frame.header.type = NrosPacketType.data.toByte) :
    SurvivesData generated final.board frame ↔
      (generated.subscriber? frame.header.topicId).isSome := by
  have dispatched := (installed_exec run).dispatchData frame
  have kind : NrosPacketType.ofByte? frame.header.type = some .data :=
    NrosPacketType.ofByte?_eq_some_iff.mpr data
  simp only [SurvivesData, Board.nrosDispatch, kind]
  cases found : generated.subscriber? frame.header.topicId with
  | none =>
      rw [found] at dispatched
      obtain ⟨fault, faults⟩ := dispatched
      simp [faults]
  | some handler =>
      rw [found] at dispatched
      simp only at dispatched
      simp [dispatched]

/-- A publisher, a subscriber, and their ids. -/
def pingPong : GeneratedTable where
  topics :=
    [{ name := "pong".toList
       topicType := .publisher
       msgType := "std_msgs/msg/Empty".toList
       qos := .default
       fields := [] },
      { name := "ping".toList
        topicType := .subscriber
        msgType := "std_msgs/msg/Empty".toList
        qos := .default
        fields := [] }]
  ids := [127, 0]
  handler := fun _ => 0x10000000
  count_le := by decide

example : generateTopicIds pingPong.topics = .ok pingPong.ids := by decide

/-- A DATA frame with an empty payload. -/
def emptyData (topicId : UInt8) : Frame :=
  { header :=
      { magic0 := nrosMagic0
        magic1 := nrosMagic1
        type := NrosPacketType.data.toByte
        topicId
        length := 0 }
    payload := [] }

theorem data_survived_ping :
    SurvivesData pingPong (.initial pingPong.table) (emptyData 0) :=
  (data_survived_iff pingPong [] (.initial pingPong.table) rfl (emptyData 0)
    rfl).mpr (by decide)

/-- The id of a publisher: a call through NULL. -/
theorem not_data_survived :
    ¬∀ (generated : GeneratedTable) (events : List BoardEvent)
      (final : BoardHistory),
      exec (BoardHistory.step generated.table) (.initial generated.table)
          events = some final →
        ∀ frame : Frame, frame.Deliverable →
          frame.header.type = NrosPacketType.data.toByte →
            SurvivesData generated final.board frame := by
  intro always
  have deliverable : (emptyData 127).Deliverable :=
    ⟨⟨rfl, rfl⟩, rfl, Nat.zero_le _⟩
  have survived := always pingPong [] (.initial pingPong.table) rfl
    (emptyData 127) deliverable rfl
  have faults : Board.dispatchData (.initial pingPong.table)
      (emptyData 127) = .error .nullHandler := by
    decide +kernel
  have kind : NrosPacketType.ofByte? (emptyData 127).header.type =
      some .data := by decide
  have returned := survived.1
  simp only [BoardHistory.initial, Board.nrosDispatch, kind, faults]
    at returned
  cases returned

end NanoRos.Codegen
