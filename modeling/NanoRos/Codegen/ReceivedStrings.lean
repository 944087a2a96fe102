import Mathlib.Logic.Function.Iterate
import NanoRos.Codegen.SerdeChunks

/-!
# Received strings

The handler of a subscriber deserializes into a struct on the stack, which
starts with anything.  What a callback may find in its strings is read off the
payload: the scan below goes through it as the generated deserializer does.
-/

namespace NanoRos.Codegen

open UcdrBuffer

/-! ## The handler -/

/-- `nros_<name>_subscriber_handler` with a callback set: the struct that the
callback gets.  `msg` and `stack` are what the memory holds before. -/
def subscriberHandler (fields : List MsgField) (payload : List UInt8)
    (stack : UcdrBuffer payload.length → Buffer UInt8 4)
    (msg : StructObject fields) : Option (StructObject fields) :=
  let outcome := deserializeStruct stack fields msg (ofBytes payload)
  if outcome.1 then some outcome.2.2 else none

/-- Something holds of the bytes of a string. -/
def PrimType.Strings (holds : List UInt8 → Prop) (prim : PrimType)
    (object : List UInt8) : Prop :=
  match prim with
  | .string => holds object
  | _ => True

section Strings

variable (holds : List UInt8 → Prop)

mutual

/-- Something holds of every string of a member. -/
def FieldType.Strings : (fieldType : FieldType) → fieldType.Object → Prop
  | .primitive prim, object => prim.Strings holds object.cells
  | .primArray _ _, _ => True
  | .nested _ fields, object => StructStrings fields object
  | .nestedArray _ fields _, object =>
      ∀ element ∈ object.cells, StructStrings fields element

def MsgField.Strings : (field : MsgField) → field.Object → Prop
  | .mk _ fieldType, object => fieldType.Strings object

def StructStrings : (fields : List MsgField) → StructObject fields → Prop
  | [], _ => True
  | field :: fields, object =>
      field.Strings object.1 ∧ StructStrings fields object.2

end

end Strings

/-- The array starts with bytes of the payload and contains a NUL. -/
def Received (payload string : List UInt8) : Prop :=
  (∃ bytes, bytes ≠ [] ∧ bytes <:+: payload ∧ bytes <+: string) ∧ 0 ∈ string

/-- Whatever the memory held, the callback gets strings that were received and
end within their arrays. -/
def StringsSafe (fields : List MsgField) (payload : List UInt8) : Prop :=
  ∀ stack msg received,
    subscriberHandler fields payload stack msg = some received →
      StructStrings (Received payload) fields received

/-! ## What a payload carries -/

/-- How far a payload carries a message: whole up to a position, and whether
all strings so far include their NUL; ended before the length of a string; or
refused. -/
inductive PayloadScan where
  | reached (pos : Nat) (terminated : Bool)
  | cut
  | rejected
  deriving DecidableEq

namespace PayloadScan

variable (payload : List UInt8)

/-- A number or an array of numbers. -/
def item (align size : Nat) : PayloadScan → PayloadScan
  | .reached pos terminated =>
      let stop := alignUp align pos + size
      if stop ≤ payload.length then .reached stop terminated else .rejected
  | .cut => .rejected
  | .rejected => .rejected

/-- A string: its length, at most 256, and so many bytes. -/
def string : PayloadScan → PayloadScan
  | .reached pos terminated =>
      let start := alignUp 4 pos + 4
      if start ≤ payload.length then
        let length := ofLittleEndian ((payload.drop (alignUp 4 pos)).take 4)
        if length ≤ 256 ∧ start + length ≤ payload.length then
          .reached (start + length)
            (terminated && ((payload.drop start).take length).contains 0)
        else
          .rejected
      else
        .cut
  | .cut => .cut
  | .rejected => .rejected

/-- The payload is refused, or it is whole and every string in it includes its
NUL. -/
def Safe : PayloadScan → Prop
  | .reached _ terminated => terminated = true
  | .cut => False
  | .rejected => True

instance (scan : PayloadScan) : Decidable scan.Safe :=
  match scan with
  | .reached _ terminated => inferInstanceAs (Decidable (terminated = true))
  | .cut => isFalse id
  | .rejected => isTrue trivial

end PayloadScan

def PrimType.scan (payload : List UInt8) (prim : PrimType) :
    PayloadScan → PayloadScan :=
  match prim with
  | .string => PayloadScan.string payload
  | prim => PayloadScan.item payload prim.cType.size prim.cType.size

section Scan

variable (payload : List UInt8)

mutual

def FieldType.scan : FieldType → PayloadScan → PayloadScan
  | .primitive prim, scan => prim.scan payload scan
  | .primArray prim len, scan =>
      scan.item payload prim.cType.size (len * prim.cType.size)
  | .nested _ fields, scan => structScan fields scan
  | .nestedArray _ fields len, scan => (structScan fields)^[len] scan

def MsgField.scan : MsgField → PayloadScan → PayloadScan
  | .mk _ fieldType, scan => fieldType.scan scan

/-- The scan over the fields of a struct. -/
def structScan : List MsgField → PayloadScan → PayloadScan
  | [], scan => scan
  | field :: fields, scan => structScan fields (field.scan scan)

end

end Scan

/-! ## The deserializer follows the scan -/

/-- An operation goes on, fails, or is at the mercy of the stack as the scan
says.  `good` holds of its value if every string in the payload has its NUL,
`bare` as soon as one has not. -/
structure Follows {capacity : Nat} {α : Type} (payload : List UInt8)
    (operation : UcdrBuffer capacity → Outcome capacity α)
    (scan : PayloadScan → PayloadScan) (good bare : α → Prop)
    (zeroed : Prop) : Prop where
  whole {ub : UcdrBuffer capacity} (ready : ub.Ready)
    (held : ub.memory.cells = payload) {terminated ends : Bool} {pos : Nat}
    (scanned : scan (.reached ub.offset terminated) = .reached pos ends) :
    (operation ub).1 = true ∧ (operation ub).2.1.Ready ∧
      (operation ub).2.1.offset = pos ∧
        (operation ub).2.1.memory.cells = payload
  strings {ub : UcdrBuffer capacity} (ready : ub.Ready)
    (held : ub.memory.cells = payload) {terminated ends : Bool} {pos : Nat}
    (scanned : scan (.reached ub.offset terminated) = .reached pos ends) :
    (ends = true → terminated = true ∧ good (operation ub).2.2) ∧
      (ends = false → terminated = false ∨ bare (operation ub).2.2)
  short {ub : UcdrBuffer capacity} (ready : ub.Ready)
    (held : ub.memory.cells = payload) {terminated : Bool}
    (scanned : scan (.reached ub.offset terminated) = .cut) :
    (operation ub).2.1.error = true ∧
      (zeroed → (operation ub).1 = true ∧ bare (operation ub).2.2)
  refused {ub : UcdrBuffer capacity} (ready : ub.Ready)
    (held : ub.memory.cells = payload) {terminated : Bool}
    (scanned : scan (.reached ub.offset terminated) = .rejected) :
    (operation ub).1 = false
  failed {ub : UcdrBuffer capacity} (failed : ub.error = true) :
    (operation ub).2.1.error = true ∧
      (scan .cut = .cut ∧ (zeroed → (operation ub).1 = true) ∨
        scan .cut = .rejected ∧ (operation ub).1 = false)
  rejected : scan .rejected = .rejected

section Follows

variable {capacity : Nat} {payload : List UInt8} {zeroed : Prop}

theorem follows_nil {α : Type} {value : α} {good bare : α → Prop}
    (holds : good value) :
    Follows payload (fun ub : UcdrBuffer capacity => (true, ub, value)) id
      good bare zeroed where
  whole ready held _ _ _ scanned := by
    cases scanned
    exact ⟨rfl, ready, rfl, held⟩
  strings _ _ _ _ _ scanned := by
    cases scanned
    exact ⟨fun ends => ⟨ends, holds⟩, .inl⟩
  short _ _ _ scanned := by cases scanned
  refused _ _ _ scanned := by cases scanned
  failed failed := ⟨failed, .inl ⟨rfl, fun _ => rfl⟩⟩
  rejected := rfl

/-- A scan that gets through two operations gets through the first. -/
theorem Follows.exists_reached {α β : Type}
    {first : UcdrBuffer capacity → Outcome capacity α}
    {second : UcdrBuffer capacity → Outcome capacity β}
    {scan scanNext : PayloadScan → PayloadScan} {good bare : α → Prop}
    {goodNext bareNext : β → Prop}
    (follows : Follows payload first scan good bare zeroed)
    (next : Follows payload second scanNext goodNext bareNext zeroed)
    {ub : UcdrBuffer capacity} (ready : ub.Ready)
    (held : ub.memory.cells = payload) {terminated ends : Bool} {pos : Nat}
    (scanned : scanNext (scan (.reached ub.offset terminated)) =
      .reached pos ends) :
    ∃ middle between,
      scan (.reached ub.offset terminated) = .reached middle between := by
  cases here : scan (.reached ub.offset terminated) with
  | reached middle between => exact ⟨middle, between, rfl⟩
  | cut =>
      have stuck := (follows.short ready held here).1
      rw [here] at scanned
      rcases (next.failed stuck).2 with ⟨stays, _⟩ | ⟨refuses, _⟩
      · rw [stays] at scanned
        cases scanned
      · rw [refuses] at scanned
        cases scanned
  | rejected =>
      rw [here, next.rejected] at scanned
      cases scanned

theorem Follows.andThen {α β : Type}
    {first : UcdrBuffer capacity → Outcome capacity α}
    {second : UcdrBuffer capacity → Outcome capacity β}
    {scan scanNext : PayloadScan → PayloadScan} {good bare : α → Prop}
    {goodNext bareNext : β → Prop}
    (follows : Follows payload first scan good bare zeroed)
    (next : Follows payload second scanNext goodNext bareNext zeroed) :
    Follows payload
      (fun ub => ((first ub).1 && (second (first ub).2.1).1,
        (second (first ub).2.1).2.1,
        ((first ub).2.2, (second (first ub).2.1).2.2)))
      (fun start => scanNext (scan start))
      (fun pair => good pair.1 ∧ goodNext pair.2)
      (fun pair => bare pair.1 ∨ bareNext pair.2) zeroed where
  whole {ub} ready held terminated ends pos scanned := by
    obtain ⟨middle, between, here⟩ :=
      follows.exists_reached next ready held scanned
    obtain ⟨ok, readyNext, offset, heldNext⟩ := follows.whole ready held here
    rw [here, ← offset] at scanned
    obtain ⟨okNext, rest⟩ := next.whole readyNext heldNext scanned
    exact ⟨by rw [ok, okNext, Bool.and_true], rest⟩
  strings {ub} ready held terminated ends pos scanned := by
    obtain ⟨middle, between, here⟩ :=
      follows.exists_reached next ready held scanned
    obtain ⟨_, readyNext, offset, heldNext⟩ := follows.whole ready held here
    have strings := follows.strings ready held here
    rw [here, ← offset] at scanned
    have stringsNext := next.strings readyNext heldNext scanned
    constructor
    · intro all
      obtain ⟨before, goodNext⟩ := stringsNext.1 all
      obtain ⟨start, good⟩ := strings.1 before
      exact ⟨start, good, goodNext⟩
    · intro missing
      rcases stringsNext.2 missing with before | bareNext
      · rcases strings.2 before with start | bare
        · exact .inl start
        · exact .inr (.inl bare)
      · exact .inr (.inr bareNext)
  short {ub} ready held terminated scanned := by
    cases here : scan (.reached ub.offset terminated) with
    | reached middle between =>
        obtain ⟨ok, readyNext, offset, heldNext⟩ :=
          follows.whole ready held here
        rw [here, ← offset] at scanned
        obtain ⟨stuck, atMercy⟩ := next.short readyNext heldNext scanned
        refine ⟨stuck, ?_⟩
        intro zeros
        obtain ⟨okNext, bareNext⟩ := atMercy zeros
        exact ⟨by rw [ok, okNext, Bool.and_true], .inr bareNext⟩
    | cut =>
        obtain ⟨stuck, atMercy⟩ := follows.short ready held here
        obtain ⟨stuckNext, outcome⟩ := next.failed stuck
        rw [here] at scanned
        refine ⟨stuckNext, ?_⟩
        intro zeros
        obtain ⟨ok, bare⟩ := atMercy zeros
        rcases outcome with ⟨_, okNext⟩ | ⟨refuses, _⟩
        · exact ⟨by rw [ok, okNext zeros, Bool.and_true], .inl bare⟩
        · rw [refuses] at scanned
          cases scanned
    | rejected =>
        rw [here, next.rejected] at scanned
        cases scanned
  refused {ub} ready held terminated scanned := by
    cases here : scan (.reached ub.offset terminated) with
    | reached middle between =>
        obtain ⟨ok, readyNext, offset, heldNext⟩ :=
          follows.whole ready held here
        rw [here, ← offset] at scanned
        rw [next.refused readyNext heldNext scanned, Bool.and_false]
    | cut =>
        have stuck := (follows.short ready held here).1
        rw [here] at scanned
        rcases (next.failed stuck).2 with ⟨stays, _⟩ | ⟨_, notOk⟩
        · rw [stays] at scanned
          cases scanned
        · rw [notOk, Bool.and_false]
    | rejected => rw [follows.refused ready held here, Bool.false_and]
  failed {ub} stuck := by
    obtain ⟨stuckFirst, outcome⟩ := follows.failed stuck
    obtain ⟨stuckNext, outcomeNext⟩ := next.failed stuckFirst
    refine ⟨stuckNext, ?_⟩
    rcases outcome with ⟨stays, ok⟩ | ⟨refuses, notOk⟩
    · rcases outcomeNext with ⟨staysNext, okNext⟩ | ⟨refusesNext, notOkNext⟩
      · refine .inl ⟨by rw [stays, staysNext], ?_⟩
        intro zeros
        rw [ok zeros, okNext zeros, Bool.and_true]
      · exact .inr ⟨by rw [stays, refusesNext],
          by rw [notOkNext, Bool.and_false]⟩
    · exact .inr ⟨by rw [refuses, next.rejected],
        by rw [notOk, Bool.false_and]⟩
  rejected := by rw [follows.rejected, next.rejected]

/-- A function of the value, with what follows for it. -/
theorem Follows.map {α β : Type}
    {operation : UcdrBuffer capacity → Outcome capacity α}
    {scan : PayloadScan → PayloadScan} {good bare : α → Prop}
    {goodMapped bareMapped : β → Prop}
    (follows : Follows payload operation scan good bare zeroed)
    (function : α → β)
    (goodImplies : ∀ value, good value → goodMapped (function value))
    (bareImplies : ∀ value, bare value → bareMapped (function value)) :
    Follows payload (fun ub => ((operation ub).1, (operation ub).2.1,
      function (operation ub).2.2)) scan goodMapped bareMapped zeroed where
  whole := follows.whole
  strings ready held _ _ _ scanned := by
    have strings := follows.strings ready held scanned
    constructor
    · intro all
      exact ⟨(strings.1 all).1, goodImplies _ (strings.1 all).2⟩
    · intro missing
      exact (strings.2 missing).imp_right (bareImplies _)
  short ready held _ scanned := by
    obtain ⟨stuck, atMercy⟩ := follows.short ready held scanned
    exact ⟨stuck, fun zeros =>
      ⟨(atMercy zeros).1, bareImplies _ (atMercy zeros).2⟩⟩
  refused := follows.refused
  failed := follows.failed
  rejected := follows.rejected

/-- Numbers have no strings. -/
theorem follows_item {size count : Nat} {convert : UInt8 → UInt8}
    {operation : UcdrBuffer payload.length × Buffer UInt8 count →
      Outcome payload.length (Buffer UInt8 count)} {bytes : Nat}
    (transfers : Transfers operation (.outOf convert) size bytes)
    (width : IsWidth size) (divides : size ∣ bytes)
    (object : Buffer UInt8 count) :
    Follows payload (fun ub => operation (ub, object))
      (PayloadScan.item payload size bytes) (fun _ => True)
      (fun _ => False) zeroed where
  whole {ub} ready held terminated ends pos scanned := by
    simp only [PayloadScan.item] at scanned
    split at scanned
    next fits =>
      cases scanned
      rw [transfers.fits (ub, object) ready fits]
      exact ⟨rfl, ready_transferred width divides fits, rfl, held⟩
    · cases scanned
  strings {ub} ready held terminated ends pos scanned := by
    simp only [PayloadScan.item] at scanned
    split at scanned
    · cases scanned
      exact ⟨fun all => ⟨all, trivial⟩, .inl⟩
    · cases scanned
  short {ub} ready held terminated scanned := by
    simp only [PayloadScan.item] at scanned
    split at scanned <;> cases scanned
  refused {ub} ready held terminated scanned := by
    simp only [PayloadScan.item] at scanned
    split at scanned
    · cases scanned
    next full =>
      exact (transfers.full (ub, object) ready (Nat.lt_of_not_le full)).1
  failed {ub} stuck := by
    have outcome := transfers.failed (ub, object) stuck
    exact ⟨outcome.2, .inr ⟨rfl, outcome.1⟩⟩
  rejected := rfl

end Follows

/-! ## A string -/

section StringCases

variable {payload : List UInt8} {ub : UcdrBuffer payload.length}
  {string : Buffer UInt8 256} {length : Buffer UInt8 4}

/-- What `ucdr_deserialize_string` does once it has a length, read or not. -/
theorem deserializeString_eq_of_read {header : UcdrBuffer payload.length}
    {word : Buffer UInt8 4}
    (read : (ub.deserializeBasic id 4 length).2 = (header, word)) :
    ub.deserializeString string length =
      if ofLittleEndian word.cells = 0 then (true, header, string)
      else if 256 < ofLittleEndian word.cells then
        ({ header with error := true } : UcdrBuffer _).deserializeArray 1
          string (ofLittleEndian word.cells)
      else header.deserializeArray 1 string (ofLittleEndian word.cells) := by
  rw [deserializeString, deserializeSequenceChar, deserializeSequenceHeader,
    read]
  dsimp only
  by_cases zero : ofLittleEndian word.cells = 0
  · have short : ¬256 < ofLittleEndian word.cells := by omega
    rw [if_pos zero, if_neg short]
    exact if_pos zero
  · rw [if_neg zero]
    by_cases long : 256 < ofLittleEndian word.cells
    · rw [if_pos long, if_pos long]
      dsimp only
      rw [if_neg zero]
    · rw [if_neg long, if_neg long]
      dsimp only
      rw [if_neg zero]

/-- The length is not there: what the stack held is taken for it. -/
theorem deserializeString_stuck
    (unavailable : ¬(ub.advanceBuffer
      (ub.bufferAlignment 4)).checkBufferAvailableFor 4 = true) :
    (ub.deserializeString string length).2.1.error = true ∧
      (ofLittleEndian length.cells = 0 →
        (ub.deserializeString string length).1 = true ∧
          (ub.deserializeString string length).2.2 = string) := by
  have arrays (header : UcdrBuffer payload.length)
      (failed : header.error = true) (count : Nat) :
      (header.deserializeArray 1 string count).2.1.error = true :=
    ((transfers_array (.outOf id) (.inl rfl) count).failed (header, string)
      failed).2
  obtain ⟨_, stuck, kept⟩ : (ub.deserializeBasic id 4 length).1 = false ∧
      (ub.deserializeBasic id 4 length).2.1.error = true ∧
        (ub.deserializeBasic id 4 length).2.2 = length :=
    byteN_of_unavailable (.outOf id) unavailable
  have read : (ub.deserializeBasic id 4 length).2 =
      ((ub.deserializeBasic id 4 length).2.1, length) := Prod.ext rfl kept
  rw [deserializeString_eq_of_read read]
  by_cases zero : ofLittleEndian length.cells = 0
  · rw [if_pos zero]
    exact ⟨stuck, fun _ => ⟨rfl, rfl⟩⟩
  · rw [if_neg zero]
    refine ⟨?_, fun zero' => absurd zero' zero⟩
    split
    · exact arrays _ rfl _
    · exact arrays _ stuck _

/-- The length is read if the payload has it. -/
theorem deserializeBasic_length (ready : ub.Ready)
    (held : ub.memory.cells = payload)
    (fits : alignUp 4 ub.offset + 4 ≤ payload.length) :
    ∃ header : UcdrBuffer payload.length, header.Ready ∧
      header.offset = alignUp 4 ub.offset + 4 ∧
      header.memory.cells = payload ∧
      ∃ word : Buffer UInt8 4,
        word.cells = (payload.drop (alignUp 4 ub.offset)).take 4 ∧
          (ub.deserializeBasic id 4 length).2 = (header, word) := by
  have width : IsWidth 4 := .inr (.inr (.inl rfl))
  have transfers : Transfers (basic (.outOf id) 4)
      (.outOf id : Memcpy payload.length (Buffer UInt8 4)) 4 4 :=
    transfers_basic _ width
  have done := transfers.fits (ub, length) ready fits
  let moved : UcdrBuffer payload.length × Buffer UInt8 4 :=
    transferred (.outOf id) 4 4 (ub, length)
  have read : (ub.deserializeBasic id 4 length).2 = moved := by
    rw [deserializeBasic, done]
  refine ⟨moved.1, ready_transferred width (Nat.dvd_refl 4) fits, rfl, held,
    moved.2, ?_, read⟩
  have slice : (ub.memory.slice (alignUp 4 ub.offset) 4).length = 4 := by
    rw [Buffer.slice, held, List.length_take, List.length_drop]
    omega
  show (length.copy 0 ((ub.memory.slice (alignUp 4 ub.offset) 4).map id)).cells
    = _
  rw [List.map_id, Buffer.copy_cells _ (by omega), slice,
    List.drop_of_length_le (Nat.le_of_eq length.length_eq)]
  simp [Buffer.slice, held]

/-- The bytes are read if the payload has them and the array takes them. -/
theorem deserializeArray_bytes (ready : ub.Ready)
    (held : ub.memory.cells = payload) {count : Nat} (inside : count ≤ 256)
    (fits : ub.offset + count ≤ payload.length) :
    ∃ next : UcdrBuffer payload.length, next.Ready ∧
      next.offset = ub.offset + count ∧ next.memory.cells = payload ∧
      ∃ value : Buffer UInt8 256,
        value.cells = (payload.drop ub.offset).take count ++
            string.cells.drop count ∧
          ub.deserializeArray 1 string count = (true, next, value) := by
  have width : IsWidth 1 := .inl rfl
  have transfers : Transfers (array (.outOf id) 1 count)
      (.outOf id : Memcpy payload.length (Buffer UInt8 256)) 1 (count * 1) :=
    transfers_array _ width count
  rw [Nat.mul_one] at transfers
  have room : alignUp 1 ub.offset + count ≤ payload.length := by
    rw [alignUp_one]
    exact fits
  have done := transfers.fits (ub, string) ready room
  let moved : UcdrBuffer payload.length × Buffer UInt8 256 :=
    transferred (.outOf id) 1 count (ub, string)
  have offset : moved.1.offset = ub.offset + count := by
    show alignUp 1 ub.offset + count = _
    rw [alignUp_one]
  refine ⟨moved.1, ready_transferred width (Nat.one_dvd count) room, offset,
    held, moved.2, ?_, by rw [deserializeArray, done]⟩
  have slice : (ub.memory.slice ub.offset count).length = count := by
    rw [Buffer.slice, held, List.length_take, List.length_drop]
    omega
  show (string.copy 0
    ((ub.memory.slice (alignUp 1 ub.offset) count).map id)).cells = _
  rw [List.map_id, alignUp_one, Buffer.copy_cells _ (by omega), slice]
  simp [Buffer.slice, held]

/-- Past its length, a string goes by the word that was read: so many bytes,
or it is refused. -/
theorem deserializeString_word (length : Buffer UInt8 4) (ready : ub.Ready)
    (held : ub.memory.cells = payload) {terminated : Bool}
    (notCut : PayloadScan.string payload (.reached ub.offset terminated) ≠
      .cut) :
    ∃ (header : UcdrBuffer payload.length) (word : Buffer UInt8 4),
      header.Ready ∧ header.memory.cells = payload ∧
        (ub.deserializeBasic id 4 length).2 = (header, word) ∧
        PayloadScan.string payload (.reached ub.offset terminated) =
          if ofLittleEndian word.cells ≤ 256 ∧
              header.offset + ofLittleEndian word.cells ≤ payload.length then
            .reached (header.offset + ofLittleEndian word.cells)
              (terminated && ((payload.drop header.offset).take
                (ofLittleEndian word.cells)).contains 0)
          else .rejected := by
  by_cases fits : alignUp 4 ub.offset + 4 ≤ payload.length
  · obtain ⟨header, readyHeader, offset, heldHeader, word, wordEq, read⟩ :=
      deserializeBasic_length ready held fits
    refine ⟨header, word, readyHeader, heldHeader, read, ?_⟩
    rw [wordEq, offset]
    exact if_pos fits
  · exact absurd (if_neg fits) notCut

/-- A string that is whole in the payload overwrites the start of the
array. -/
theorem deserializeString_whole (ready : ub.Ready)
    (held : ub.memory.cells = payload) {terminated ends : Bool} {pos : Nat}
    (scanned : PayloadScan.string payload (.reached ub.offset terminated) =
      .reached pos ends) :
    ∃ next value, ub.deserializeString string length = (true, next, value) ∧
      next.Ready ∧ next.offset = pos ∧ next.memory.cells = payload ∧
      ∃ start count,
        ends = (terminated && ((payload.drop start).take count).contains 0) ∧
          value.cells = (payload.drop start).take count ++
            string.cells.drop count := by
  have notCut : PayloadScan.string payload (.reached ub.offset terminated) ≠
      .cut := by
    rw [scanned]
    exact PayloadScan.noConfusion
  obtain ⟨header, word, readyHeader, heldHeader, read, byWord⟩ :=
    deserializeString_word length ready held notCut
  have eq : ub.deserializeString string length = _ :=
    deserializeString_eq_of_read read
  rw [byWord] at scanned
  split at scanned
  next room =>
    obtain ⟨short, bytes⟩ := room
    cases scanned
    by_cases zero : ofLittleEndian word.cells = 0
    · rw [if_pos zero] at eq
      refine ⟨header, string, eq, readyHeader, ?_, heldHeader,
        header.offset, 0, ?_, rfl⟩
      · rw [zero, Nat.add_zero]
      · rw [zero]
    · rw [if_neg zero, if_neg (Nat.not_lt.mpr short)] at eq
      obtain ⟨next, readyNext, offsetNext, heldNext, value, cells, done⟩ :=
        deserializeArray_bytes readyHeader heldHeader short bytes
      exact ⟨next, value, eq.trans done, readyNext, offsetNext, heldNext,
        header.offset, _, rfl, cells⟩
  · cases scanned

/-- A string that is too long for its array or for the payload. -/
theorem deserializeString_refused (ready : ub.Ready)
    (held : ub.memory.cells = payload) {terminated : Bool}
    (scanned : PayloadScan.string payload (.reached ub.offset terminated) =
      .rejected) :
    (ub.deserializeString string length).1 = false := by
  have notCut : PayloadScan.string payload (.reached ub.offset terminated) ≠
      .cut := by
    rw [scanned]
    exact PayloadScan.noConfusion
  obtain ⟨header, word, readyHeader, _, read, byWord⟩ :=
    deserializeString_word length ready held notCut
  have eq : ub.deserializeString string length = _ :=
    deserializeString_eq_of_read read
  rw [byWord] at scanned
  split at scanned
  · cases scanned
  next noRoom =>
    have zero : ofLittleEndian word.cells ≠ 0 := by
      intro zero
      apply noRoom
      rw [zero]
      exact ⟨Nat.zero_le _, readyHeader.offset ▸ readyHeader.inside⟩
    have arrays : Transfers (array (.outOf id) 1 (ofLittleEndian word.cells))
        (.outOf id : Memcpy payload.length (Buffer UInt8 256)) 1
        (ofLittleEndian word.cells * 1) :=
      transfers_array _ (.inl rfl) _
    rw [eq, if_neg zero]
    by_cases long : 256 < ofLittleEndian word.cells
    · rw [if_pos long]
      exact (arrays.failed ({ header with error := true }, string) rfl).1
    · rw [if_neg long]
      refine (arrays.full (header, string) readyHeader ?_).1
      show payload.length < alignUp 1 header.offset + _
      rw [alignUp_one]
      omega

end StringCases

/-- A string is safe exactly if the payload includes its NUL. -/
theorem follows_string {payload : List UInt8} (object : Buffer UInt8 256)
    (stack : UcdrBuffer payload.length → Buffer UInt8 4) :
    Follows payload (fun ub => ub.deserializeString object (stack ub))
      (PayloadScan.string payload)
      (fun value => Received payload value.cells)
      (fun value => 0 ∉ object.cells → 0 ∉ value.cells)
      (∀ ub, ofLittleEndian (stack ub).cells = 0) where
  whole ready held _ _ _ scanned := by
    obtain ⟨next, value, done, readyNext, offset, heldNext, _⟩ :=
      deserializeString_whole ready held scanned
    rw [done]
    exact ⟨rfl, readyNext, offset, heldNext⟩
  strings ready held terminated ends _ scanned := by
    obtain ⟨next, value, done, _, _, _, start, count, endsEq, cells⟩ :=
      deserializeString_whole ready held scanned
    rw [done, endsEq]
    constructor
    · intro all
      obtain ⟨before, nul⟩ := Bool.and_eq_true_iff.mp all
      have member : 0 ∈ (payload.drop start).take count := by
        simpa using nul
      refine ⟨before, ⟨_, List.ne_nil_of_mem member, ?_, ⟨_, cells.symm⟩⟩, ?_⟩
      · exact (List.take_prefix count _).isInfix.trans
          (List.drop_suffix start payload).isInfix
      · rw [cells]
        exact List.mem_append_left _ member
    · intro missing
      rcases Bool.and_eq_false_iff.mp missing with before | bare
      · exact .inl before
      · right
        intro blank
        rw [cells, List.mem_append, not_or]
        constructor
        · simpa using bare
        · exact fun member => blank (List.mem_of_mem_drop member)
  short {ub} ready held terminated scanned := by
    have width : IsWidth 4 := .inr (.inr (.inl rfl))
    simp only [PayloadScan.string] at scanned
    split at scanned
    · split at scanned <;> cases scanned
    next full =>
      obtain ⟨stuck, atMercy⟩ := deserializeString_stuck
        (ready.unavailable width (Nat.lt_of_not_le full))
      refine ⟨stuck, ?_⟩
      intro zeros
      obtain ⟨ok, same⟩ := atMercy (zeros ub)
      refine ⟨ok, ?_⟩
      intro blank
      rw [same]
      exact blank
  refused ready held _ scanned := deserializeString_refused ready held scanned
  failed {ub} stuck := by
    obtain ⟨stays, atMercy⟩ :=
      deserializeString_stuck (unavailable_of_error stuck 4)
    exact ⟨stays, .inl ⟨rfl, fun zeros => (atMercy (zeros ub)).1⟩⟩
  rejected := rfl

/-! ## A struct -/

section Struct

variable {payload : List UInt8}
  (stack : UcdrBuffer payload.length → Buffer UInt8 4)

/-- What holds of a member that was read: its strings were received if all
those of the payload have their NUL; one without shows in a member that was
blank. -/
abbrev MemberFollows {α : Type} (strings : (List UInt8 → Prop) → α → Prop)
    (object : α)
    (operation : UcdrBuffer payload.length → Outcome payload.length α)
    (scan : PayloadScan → PayloadScan) : Prop :=
  Follows payload operation scan (strings (Received payload))
    (fun value => strings (0 ∉ ·) object → ¬strings (0 ∈ ·) value)
    (∀ ub, ofLittleEndian (stack ub).cells = 0)

theorem PrimType.follows (prim : PrimType)
    (object : Buffer UInt8 prim.memberSize) :
    MemberFollows stack
      (fun holds (object : Buffer UInt8 prim.memberSize) =>
        prim.Strings holds object.cells) object
      (prim.deserialize stack object) (prim.scan payload) := by
  have width := prim.cType.isWidth
  cases prim with
  | string => exact follows_string object stack
  | _ =>
      exact (follows_item (transfers_basic _ width) width (Nat.dvd_refl _)
        object).map id (fun _ _ => trivial) (fun _ impossible => impossible.elim)

theorem follows_each {α : Type} {strings : (List UInt8 → Prop) → α → Prop}
    {deserialize : α → UcdrBuffer payload.length → Outcome payload.length α}
    {scan : PayloadScan → PayloadScan} {elements : List α}
    (follows : ∀ element ∈ elements,
      MemberFollows stack strings element (deserialize element) scan) :
    MemberFollows stack
      (fun holds elements => ∀ element ∈ elements, strings holds element)
      elements (deserializeEach deserialize elements) scan^[elements.length] := by
  induction elements with
  | nil => exact follows_nil (by simp)
  | cons element elements induction =>
      have first := follows element List.mem_cons_self
      have rest := induction fun other member =>
        follows other (List.mem_cons_of_mem _ member)
      refine (first.andThen rest).map (fun pair => pair.1 :: pair.2) ?_ ?_
      · rintro ⟨value, values⟩ ⟨good, goods⟩ other member
        rcases List.mem_cons.mp member with rfl | later
        · exact good
        · exact goods other later
      · rintro ⟨value, values⟩ bare blank all
        rcases bare with here | later
        · exact here (blank element List.mem_cons_self)
            (all value List.mem_cons_self)
        · exact later
            (fun other member => blank other (List.mem_cons_of_mem _ member))
            (fun other member => all other (List.mem_cons_of_mem _ member))

mutual

theorem FieldType.follows : (fieldType : FieldType) →
    (object : fieldType.Object) →
      MemberFollows stack fieldType.Strings object
        (fieldType.deserialize stack object) (fieldType.scan payload)
  | .primitive prim, object => prim.follows stack object
  | .primArray prim len, object =>
      (follows_item (transfers_array _ prim.cType.isWidth len)
        prim.cType.isWidth (Nat.dvd_mul_left _ _) object).map id
          (fun _ _ => trivial) (fun _ impossible => impossible.elim)
  | .nested _ fields, object => follows_struct fields object
  | .nestedArray _ fields _, object => by
      have each : MemberFollows stack
          (fun holds elements =>
            ∀ element ∈ elements, StructStrings holds fields element)
          object.cells (deserializeEach (deserializeStruct stack fields)
            object.cells) _ :=
        follows_each stack fun element _ => follows_struct fields element
      rw [object.length_eq] at each
      exact ⟨each.whole, each.strings, each.short, each.refused, each.failed,
        each.rejected⟩

theorem MsgField.follows : (field : MsgField) → (object : field.Object) →
    MemberFollows stack field.Strings object
      (field.deserialize stack object) (field.scan payload)
  | .mk _ fieldType, object => fieldType.follows object

/-- The generated deserializer follows the scan. -/
theorem follows_struct : (fields : List MsgField) →
    (object : StructObject fields) →
      MemberFollows stack (fun holds => StructStrings holds fields) object
        (deserializeStruct stack fields object) (structScan payload fields)
  | [], _ => follows_nil trivial
  | field :: fields, object => by
      have first := field.follows object.1
      have rest := follows_struct fields object.2
      refine (first.andThen rest).map id (fun _ good => good) ?_
      rintro value bare blank all
      rcases bare with here | later
      · exact here blank.1 all.1
      · exact later blank.2 all.2

end

end Struct

/-! ## Safe payloads -/

section Imp

variable {holds other : List UInt8 → Prop}

theorem PrimType.Strings.imp
    (implies : ∀ string, holds string → other string) {prim : PrimType}
    {object : List UInt8} (strings : prim.Strings holds object) :
    prim.Strings other object := by
  cases prim with
  | string => exact implies object strings
  | _ => trivial

mutual

theorem FieldType.Strings.imp
    (implies : ∀ string, holds string → other string) :
    (fieldType : FieldType) → (object : fieldType.Object) →
      fieldType.Strings holds object → fieldType.Strings other object
  | .primitive _, _, strings => PrimType.Strings.imp implies strings
  | .primArray _ _, _, _ => trivial
  | .nested _ fields, object, strings =>
      StructStrings.imp implies fields object strings
  | .nestedArray _ fields _, _, strings => fun element member =>
      StructStrings.imp implies fields element (strings element member)

theorem MsgField.Strings.imp
    (implies : ∀ string, holds string → other string) :
    (field : MsgField) → (object : field.Object) →
      field.Strings holds object → field.Strings other object
  | .mk _ fieldType, object, strings =>
      FieldType.Strings.imp implies fieldType object strings

theorem StructStrings.imp
    (implies : ∀ string, holds string → other string) :
    (fields : List MsgField) → (object : StructObject fields) →
      StructStrings holds fields object → StructStrings other fields object
  | [], _, _ => trivial
  | field :: fields, object, strings =>
      ⟨MsgField.Strings.imp implies field object.1 strings.1,
        StructStrings.imp implies fields object.2 strings.2⟩

end

end Imp

mutual

/-- Memory without a NUL. -/
def FieldType.ones : (fieldType : FieldType) → fieldType.Object
  | .primitive _ => Buffer.filled _ 1
  | .primArray _ _ => Buffer.filled _ 1
  | .nested _ fields => onesStruct fields
  | .nestedArray _ fields _ => Buffer.filled _ (onesStruct fields)

def MsgField.ones : (field : MsgField) → field.Object
  | .mk _ fieldType => fieldType.ones

def onesStruct : (fields : List MsgField) → StructObject fields
  | [] => ()
  | field :: fields => (field.ones, onesStruct fields)

end

mutual

theorem FieldType.ones_blank : (fieldType : FieldType) →
    fieldType.Strings (0 ∉ ·) fieldType.ones
  | .primitive prim => by
      have blank : 0 ∉ (Buffer.filled prim.memberSize (1 : UInt8)).cells := by
        intro member
        exact absurd (List.eq_of_mem_replicate member) (by decide)
      cases prim with
      | string => exact blank
      | _ => trivial
  | .primArray _ _ => trivial
  | .nested _ fields => onesStruct_blank fields
  | .nestedArray _ fields _ => fun element member => by
      rw [List.eq_of_mem_replicate member]
      exact onesStruct_blank fields

theorem MsgField.ones_blank : (field : MsgField) →
    field.Strings (0 ∉ ·) field.ones
  | .mk _ fieldType => fieldType.ones_blank

theorem onesStruct_blank : (fields : List MsgField) →
    StructStrings (0 ∉ ·) fields (onesStruct fields)
  | [] => trivial
  | field :: fields => ⟨field.ones_blank, onesStruct_blank fields⟩

end

theorem stringsSafe_of_scan {fields : List MsgField} {payload : List UInt8}
    (safe : (structScan payload fields (.reached 0 true)).Safe) :
    StringsSafe fields payload := by
  intro stack msg received handled
  have ready := ready_init (⟨payload, rfl⟩ : Buffer UInt8 payload.length)
  have follows := follows_struct stack fields msg
  simp only [subscriberHandler] at handled
  split at handled
  next ok =>
    cases handled
    cases scanned : structScan payload fields (.reached 0 true) with
    | reached pos terminated =>
        rw [scanned] at safe
        exact ((follows.strings ready rfl scanned).1 safe).2
    | cut =>
        rw [scanned] at safe
        exact safe.elim
    | rejected =>
        have refused := follows.refused ready rfl scanned
        exact absurd ok (by rw [ofBytes, refused]; exact Bool.false_ne_true)
  · cases handled

/-- Otherwise ones in the struct and zeros on the stack show. -/
theorem scan_of_stringsSafe {fields : List MsgField} {payload : List UInt8}
    (safe : StringsSafe fields payload) :
    (structScan payload fields (.reached 0 true)).Safe := by
  have ready := ready_init (⟨payload, rfl⟩ : Buffer UInt8 payload.length)
  let stack : UcdrBuffer payload.length → Buffer UInt8 4 :=
    fun _ => Buffer.filled 4 0
  have zeros (ub : UcdrBuffer payload.length) :
      ofLittleEndian (stack ub).cells = 0 := by decide
  have follows := follows_struct stack fields (onesStruct fields)
  have returned (ok : (deserializeStruct stack fields (onesStruct fields)
      (ofBytes payload)).1 = true) :
      StructStrings (0 ∈ ·) fields (deserializeStruct stack fields
        (onesStruct fields) (ofBytes payload)).2.2 := by
    have received := safe stack (onesStruct fields) _ (if_pos ok)
    exact StructStrings.imp (fun _ holds => holds.2) fields _ received
  cases scanned : structScan payload fields (.reached 0 true) with
  | reached pos terminated =>
      have ok := (follows.whole ready rfl scanned).1
      cases terminated with
      | true => rfl
      | false =>
          rcases (follows.strings ready rfl scanned).2 rfl with start | bare
          · cases start
          · exact absurd (returned ok) (bare (onesStruct_blank fields))
  | cut =>
      obtain ⟨ok, bare⟩ := (follows.short ready rfl scanned).2 zeros
      exact absurd (returned ok) (bare (onesStruct_blank fields))
  | rejected => trivial

/-- A payload is safe exactly if it is refused, or is whole and includes the
NUL of every string. -/
theorem strings_safe_iff (fields : List MsgField) (payload : List UInt8) :
    StringsSafe fields payload ↔
      (structScan payload fields (.reached 0 true)).Safe := by
  constructor
  · exact scan_of_stringsSafe
  · exact stringsSafe_of_scan

/-- `std_msgs/msg/String`. -/
def stringFields : List MsgField := [.mk "data".toList (.primitive .string)]

/-- A string of length 0 leaves the array as it was. -/
theorem not_strings_safe : ¬StringsSafe stringFields [0, 0, 0, 0] := by
  intro safe
  exact absurd (scan_of_stringsSafe safe) (by decide +kernel)

end NanoRos.Codegen
