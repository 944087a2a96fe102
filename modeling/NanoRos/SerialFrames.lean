import NanoRos.Foundation.PartialRun
import NanoRos.SerialTransport

/-!
# Frames on the serial link

`send_frame` writes a frame whole when it returns true.  When it returns
false on an open port, a poll has failed, and the link is left with what
`write` accepted before that.
-/

namespace NanoRos

open PartialRun

/-- `wait_fd` returns true. -/
def PollOutcome.Grants : PollOutcome → Prop
  | .interrupted again => again.Grants
  | .ready portError requested => portError = false ∧ requested = true
  | .failed | .timedOut => False

/-- The port shows no error, is not unplugged and takes bytes. -/
def PollOutcome.KeepsPort : PollOutcome → Prop
  | .interrupted again => again.KeepsPort
  | .ready portError _ => portError = false
  | .failed | .timedOut => True

def WriteOutcome.KeepsPort : WriteOutcome → Prop
  | .wrote count => 0 < count
  | .wouldBlock poll => poll.KeepsPort
  | .interrupted => True
  | .failed => False

/-- Of a frame of `n` bytes, `written` of them accepted so far: some poll
fails when at least one byte and not yet all are accepted. -/
def StallsMidFrame (n : Nat) : Nat → List WriteOutcome → Prop
  | _, [] => False
  | written, .wrote count :: rest =>
      StallsMidFrame n (written + min count (n - written)) rest
  | written, .wouldBlock poll :: rest =>
      0 < written ∧ written < n ∧ ¬poll.Grants ∨
        poll.Grants ∧ StallsMidFrame n written rest
  | written, .interrupted :: rest => StallsMidFrame n written rest
  | _, .failed :: _ => False

instance decidableGrants : ∀ poll : PollOutcome, Decidable poll.Grants
  | .interrupted again => decidableGrants again
  | .failed => isFalse id
  | .timedOut => isFalse id
  | .ready _ _ => inferInstanceAs (Decidable (_ ∧ _))

instance decidableKeepsPort : ∀ poll : PollOutcome, Decidable poll.KeepsPort
  | .interrupted again => decidableKeepsPort again
  | .failed => isTrue trivial
  | .timedOut => isTrue trivial
  | .ready portError _ => inferInstanceAs (Decidable (portError = false))

instance : ∀ outcome : WriteOutcome, Decidable outcome.KeepsPort
  | .wrote count => inferInstanceAs (Decidable (0 < count))
  | .wouldBlock poll => decidableKeepsPort poll
  | .interrupted => isTrue trivial
  | .failed => isFalse id

instance decidableStalls (n : Nat) : ∀ (written : Nat)
    (outcomes : List WriteOutcome), Decidable (StallsMidFrame n written outcomes)
  | _, [] => isFalse id
  | written, .wrote count :: rest =>
      decidableStalls n (written + min count (n - written)) rest
  | written, .wouldBlock poll :: rest =>
      have := decidableStalls n written rest
      inferInstanceAs (Decidable
        (0 < written ∧ written < n ∧ ¬poll.Grants ∨
          poll.Grants ∧ StallsMidFrame n written rest))
  | written, .interrupted :: rest => decidableStalls n written rest
  | _, .failed :: _ => isFalse id

namespace SerialTransport

theorem waitFd_fst_iff (transport : SerialTransport) (poll : PollOutcome) :
    (transport.waitFd poll).1 = true ↔ poll.Grants := by
  induction poll with
  | interrupted again induction => exact induction
  | failed => simp [waitFd, PollOutcome.Grants]
  | timedOut => simp [waitFd, PollOutcome.Grants]
  | ready portError requested =>
      cases portError <;> simp [waitFd, PollOutcome.Grants]

theorem not_stalls_of_complete {n written : Nat} (complete : n ≤ written)
    (outcomes : List WriteOutcome) : ¬StallsMidFrame n written outcomes := by
  induction outcomes with
  | nil => exact id
  | cons outcome rest induction =>
      cases outcome with
      | wrote count =>
          simpa [StallsMidFrame, Nat.sub_eq_zero_of_le complete] using induction
      | wouldBlock poll =>
          rintro (⟨_, short, _⟩ | ⟨_, later⟩)
          · exact absurd short (Nat.not_lt.mpr complete)
          · exact induction later
      | interrupted => exact induction
      | failed => exact id

/-- What a call that returned did with the bytes of its frame. -/
inductive Wrote (bytes : List UInt8) (stalls : Prop) (sent : SendResult) : Prop
  | whole (result : sent.result = true) (accepted : sent.accepted = bytes)
      (smooth : ¬stalls)
  | stopped (count : Nat) (result : sent.result = false)
      (accepted : sent.accepted = bytes.take count)
      (short : count = 0 ∨ count < bytes.length) (begun : 0 < count ↔ stalls)

theorem writeLoop_wrote {buf : NrosBuffer} {n : Nat} (inside : n ≤ nrosBufferSize)
    {transport : SerialTransport} {written : Nat} (bound : written ≤ n)
    {outcomes : List WriteOutcome} {sent : SendResult}
    (keeps : ∀ outcome ∈ outcomes, outcome.KeepsPort)
    (returned : writeLoop buf n transport written (buf.take written) outcomes =
      some sent) :
    Wrote (buf.take n) (StallsMidFrame n written outcomes) sent := by
  induction outcomes generalizing transport written with
  | nil =>
      unfold writeLoop at returned
      split at returned
      · cases returned
      next complete =>
        cases returned
        refine .whole rfl ?_ id
        rw [Nat.le_antisymm bound (Nat.not_lt.mp complete)]
  | cons outcome rest induction =>
      have restKeeps : ∀ other ∈ rest, other.KeepsPort := by
        intro other member
        exact keeps other (List.mem_cons_of_mem outcome member)
      have thisKeeps := keeps outcome List.mem_cons_self
      unfold writeLoop at returned
      split at returned
      next short =>
        cases outcome with
        | wrote count =>
            have positive : min count (n - written) > 0 := by
              have : 0 < count := thisKeeps
              omega
            simp only [positive, if_true] at returned
            have joined := buf.slice_append 0 written (min count (n - written))
            rw [Nat.zero_add, Buffer.slice_zero_offset,
              Buffer.slice_zero_offset] at joined
            rw [joined] at returned
            exact induction (by omega) restKeeps returned
        | wouldBlock poll =>
            have grants := waitFd_fst_iff transport poll
            simp only at returned
            split at returned
            next ready =>
              have granted := grants.mp ready
              have later := induction bound restKeeps returned
              simpa [StallsMidFrame, granted] using later
            next blocked =>
              have refused := mt grants.mpr blocked
              cases returned
              refine .stopped written rfl ?_ ?_ ?_
              · rw [Buffer.take, Buffer.take, List.take_take,
                  Nat.min_eq_left bound]
              · right
                rw [Buffer.length_take]
                omega
              · simp [StallsMidFrame, refused, short]
        | interrupted => exact induction bound restKeeps returned
        | failed => exact thisKeeps.elim
      next complete =>
        have finished := Nat.not_lt.mp complete
        cases returned
        refine .whole rfl ?_ (not_stalls_of_complete finished _)
        rw [Nat.le_antisymm bound finished]

/-- The bytes `send_frame` puts on the link when all goes well: those of the
frame, or none when it does not fit. -/
def frameBytes (frame : WireFrame) : List UInt8 :=
  if frame.payload.length ≤ nrosMaxPayload then frame.onWire.encoded else []

theorem frameBytes_of_fits {frame : WireFrame}
    (fits : frame.payload.length ≤ nrosMaxPayload) :
    frameBytes frame = frame.onWire.encoded :=
  if_pos fits

theorem frameBytes_of_long {frame : WireFrame}
    (long : ¬frame.payload.length ≤ nrosMaxPayload) : frameBytes frame = [] :=
  if_neg long

/-- What one returned call of `send_frame` did, on a port that stays open. -/
theorem sendFrame_wrote {transport : SerialTransport} {frame : WireFrame}
    {outcomes : List WriteOutcome} {sent : SendResult}
    (keeps : ∀ outcome ∈ outcomes, outcome.KeepsPort)
    (returned : transport.sendFrame frame outcomes = some sent) :
    Wrote (frameBytes frame)
      (StallsMidFrame (frameBytes frame).length 0 outcomes) sent := by
  have room : frame.payload.length ≤ nrosMaxPayload ↔
      frameHeaderSize + frame.payload.length + nrosCrcLen ≤ nrosBufferSize := by
    simp only [nrosMaxPayload, nrosBufferSize, frameHeaderSize, nrosCrcLen]
    omega
  unfold sendFrame at returned
  by_cases fits : frame.payload.length ≤ nrosMaxPayload
  · have taken := nrosStreamEncodeFrame_take frame.header frame.payload
      (Buffer.filled nrosBufferSize 0) (room.mp fits)
    have length : (nrosStreamEncodeFrame frame.header (some frame.payload)
        frame.payload.length (Buffer.filled nrosBufferSize 0)).1 =
        frame.onWire.encoded.length := by
      rw [nrosStreamEncodeFrame_of_fits _ _ _ (room.mp fits),
        Frame.length_encoded]
      rfl
    rw [length] at taken
    have nonzero : frame.onWire.encoded.length ≠ 0 := by
      intro zero
      exact Frame.encoded_ne_nil _ (List.length_eq_zero_iff.mp zero)
    simp only [length, if_neg nonzero] at returned
    rw [← Buffer.take_zero] at returned
    rw [frameBytes_of_fits fits]
    have wrote := writeLoop_wrote (by
      rw [Frame.length_encoded]
      exact room.mp fits) (Nat.zero_le _) keeps returned
    rwa [taken] at wrote
  · have overflow := Nat.not_le.mp (mt room.mpr fits)
    rw [nrosStreamEncodeFrame_of_overflow _ _ _ _ overflow] at returned
    cases returned
    rw [frameBytes_of_long fits]
    refine .stopped 0 rfl rfl (.inl rfl) ?_
    simp [not_stalls_of_complete (Nat.le_refl 0)]

end SerialTransport

/-! ## Sequences of calls -/

/-- One call of `send_frame` and how the port behaves during it. -/
structure SendCall where
  frame : WireFrame
  outcomes : List WriteOutcome

namespace SendCall

def KeepsPort (call : SendCall) : Prop :=
  ∀ outcome ∈ call.outcomes, outcome.KeepsPort

/-- A poll fails when the call's frame is begun and not finished. -/
def Stalls (call : SendCall) : Prop :=
  StallsMidFrame (SerialTransport.frameBytes call.frame).length 0 call.outcomes

end SendCall

instance (call : SendCall) : Decidable call.KeepsPort :=
  inferInstanceAs (Decidable (∀ outcome ∈ call.outcomes, outcome.KeepsPort))

instance (call : SendCall) : Decidable call.Stalls :=
  inferInstanceAs (Decidable (StallsMidFrame _ 0 call.outcomes))

/-- The agent's side of the serial link: what `write` accepted, and the
frames whose `send_frame` returned true. -/
structure SerialLink where
  transport : SerialTransport
  accepted : List UInt8
  sent : List WireFrame

namespace SerialLink

def initial (connected : Bool) : SerialLink :=
  { transport := .opened connected, accepted := [], sent := [] }

/-- One call; none if it does not return. -/
def step (link : SerialLink) (call : SendCall) : Option SerialLink :=
  match link.transport.sendFrame call.frame call.outcomes with
  | none => none
  | some sent =>
      some
        { transport := sent.transport
          accepted := link.accepted ++ sent.accepted
          sent := if sent.result then link.sent ++ [call.frame] else link.sent }

/-- The bytes of the frames that were sent. -/
def sentBytes (link : SerialLink) : List UInt8 :=
  link.sent.flatMap SerialTransport.frameBytes

/-- The link holds the bytes of the sent frames, and more bytes in between if
and only if a call stalled in the middle of its frame. -/
theorem step_bytes {link next : SerialLink} {call : SendCall}
    (keeps : call.KeepsPort) (stepped : link.step call = some next) :
    (¬call.Stalls ∧ ∃ bytes, next.accepted = link.accepted ++ bytes ∧
        next.sentBytes = link.sentBytes ++ bytes) ∨
      (call.Stalls ∧ next.sentBytes = link.sentBytes ∧
        link.accepted.length < next.accepted.length) := by
  unfold step at stepped
  split at stepped
  · cases stepped
  next sent returned =>
    cases stepped
    cases SerialTransport.sendFrame_wrote keeps returned with
    | whole result accepted smooth =>
        refine .inl ⟨smooth, SerialTransport.frameBytes call.frame, ?_, ?_⟩
        · rw [accepted]
        · simp [sentBytes, result]
    | stopped count result accepted short begun =>
        by_cases stalls : call.Stalls
        · refine .inr ⟨stalls, by simp [sentBytes, result], ?_⟩
          have positive := begun.mpr stalls
          rcases short with zero | short
          · omega
          · simp only [accepted, List.length_append, List.length_take]
            omega
        · refine .inl ⟨stalls, [], ?_, by simp [sentBytes, result]⟩
          have zero : count = 0 :=
            Nat.eq_zero_of_not_pos (mt begun.mp stalls)
          rw [accepted, zero, List.take_zero]

/-- The bytes beyond those of the sent frames never disappear. -/
theorem exec_bytes {link final : SerialLink} {calls : List SendCall}
    (keeps : ∀ call ∈ calls, call.KeepsPort)
    (run : exec step link calls = some final) :
    (∀ call ∈ calls, ¬call.Stalls) ∧
        (∃ bytes, final.accepted = link.accepted ++ bytes ∧
          final.sentBytes = link.sentBytes ++ bytes) ∨
      (¬∀ call ∈ calls, ¬call.Stalls) ∧
        final.sentBytes.length + link.accepted.length <
          final.accepted.length + link.sentBytes.length := by
  induction calls generalizing link with
  | nil =>
      cases run
      exact .inl ⟨by simp, [], by simp, by simp⟩
  | cons call calls induction =>
      obtain ⟨next, stepped, remaining⟩ := exec_cons_eq_some run
      have here := step_bytes (keeps call List.mem_cons_self) stepped
      have later := induction
        (fun other member => keeps other (List.mem_cons_of_mem call member))
        remaining
      rcases here with ⟨smooth, bytes, accepted, sent⟩ |
        ⟨stalls, sent, accepted⟩
      · rcases later with ⟨allSmooth, more, moreAccepted, moreSent⟩ |
          ⟨notAll, longer⟩
        · refine .inl ⟨?_, bytes ++ more, ?_, ?_⟩
          · simpa [smooth] using allSmooth
          · rw [moreAccepted, accepted, List.append_assoc]
          · rw [moreSent, sent, List.append_assoc]
        · refine .inr ⟨?_, ?_⟩
          · simpa [smooth] using notAll
          · simp only [accepted, sent, List.length_append] at longer
            omega
      · refine .inr ⟨?_, ?_⟩
        · intro allSmooth
          exact allSmooth call List.mem_cons_self stalls
        · rcases later with ⟨_, more, moreAccepted, moreSent⟩ | ⟨_, longer⟩
          · simp only [moreAccepted, moreSent, sent, List.length_append]
            omega
          · rw [sent] at longer
            omega

/-- On a port that stays open, the bytes `write` accepted are those of the
sent frames exactly when no poll failed in the middle of a frame. -/
theorem sent_frames_whole (connected : Bool) (calls : List SendCall)
    (keeps : ∀ call ∈ calls, call.KeepsPort) (final : SerialLink)
    (run : exec step (initial connected) calls = some final) :
    final.accepted = final.sentBytes ↔ ∀ call ∈ calls, ¬call.Stalls := by
  rcases exec_bytes keeps run with ⟨smooth, bytes, accepted, sent⟩ |
    ⟨notAll, longer⟩
  · constructor
    · intro _
      exact smooth
    · intro _
      rw [accepted, sent]
      rfl
  · constructor
    · intro same
      rw [same] at longer
      exact absurd longer (Nat.lt_irrefl _)
    · intro smooth
      exact absurd smooth notAll

/-- Short writes, waits that are granted, a timeout before the first byte. -/
def patientCalls : List SendCall :=
  [⟨discoverFrame, [.wrote 1, .wouldBlock (.interrupted (.ready false true)),
      .interrupted, .wrote 100]⟩,
    ⟨discoverFrame, [.wouldBlock .timedOut]⟩, ⟨discoverFrame, [.wrote 8]⟩]

theorem sent_frames_whole_patientCalls :
    ∃ final, exec step (initial false) patientCalls = some final ∧
      final.accepted = final.sentBytes := by
  have returns : (exec step (initial false) patientCalls).isSome := by
    decide +kernel
  obtain ⟨final, run⟩ := Option.isSome_iff_exists.mp returns
  exact ⟨final, run, (sent_frames_whole false patientCalls
    (by decide) final run).mpr (by decide)⟩

/-- A zero timeout strikes when one byte is written; then a frame is sent. -/
def stalledCalls : List SendCall :=
  [⟨discoverFrame, [.wrote 1, .wouldBlock .timedOut]⟩,
    ⟨discoverFrame, [.wrote 8]⟩]

/-- The link starts with `AA AA 55`, which no sequence of frames does. -/
theorem not_frames_stalledCalls :
    (∀ call ∈ stalledCalls, call.KeepsPort) ∧
      ∃ final, exec step (initial false) stalledCalls = some final ∧
        ¬∃ frames : List WireFrame,
          final.accepted = frames.flatMap fun frame => frame.onWire.encoded := by
  refine ⟨by decide, ?_⟩
  have doubled : ∃ final ∈ exec step (initial false) stalledCalls,
      final.accepted.take 2 = [0xAA, 0xAA] := by
    decide +kernel
  obtain ⟨final, run, starts⟩ := doubled
  refine ⟨final, run, ?_⟩
  rintro ⟨frames, accepted⟩
  rw [accepted] at starts
  cases frames with
  | nil => cases starts
  | cons frame frames =>
      have second := congrArg (fun bytes => bytes[1]?) starts
      exact absurd second (by decide : some nrosMagic1 ≠ some (0xAA : UInt8))

end SerialLink

end NanoRos
