import NanoRos.StreamRoundTrip

/-!
# Serial transport

`SerialTransport` of the agent.  What `read`, `write` and `poll` return is
given as a list of outcomes; a call that has used them all up is still
running, and has no result.
-/

namespace NanoRos

/-- `WireFrame`. -/
abbrev WireFrame := Frame

structure SerialTransport where
  parser : NrosStreamParser
  completedFrames : List WireFrame
  connected : Bool
  deriving DecidableEq

/-- What `poll` returns. -/
inductive PollOutcome where
  | interrupted (again : PollOutcome)
  | failed
  | timedOut
  | ready (portError requested : Bool)
  deriving DecidableEq, Repr

/-- What one `write` returns; it takes at most the bytes it is offered. -/
inductive WriteOutcome where
  | wrote (count : Nat)
  | wouldBlock (poll : PollOutcome)
  | interrupted
  | failed
  deriving DecidableEq, Repr

/-- What one `read` returns.  At `EAGAIN` the clock shows `elapsed`
milliseconds since the call began, rounded up. -/
inductive ReadOutcome where
  | data (chunk : List UInt8)
  | closed
  | wouldBlock (elapsed : Nat) (poll : PollOutcome)
  | interrupted
  | failed
  deriving DecidableEq, Repr

structure SendResult where
  result : Bool
  transport : SerialTransport
  accepted : List UInt8
  deriving DecidableEq

structure RecvResult where
  frame : Option WireFrame
  transport : SerialTransport
  unread : List ReadOutcome
  deriving DecidableEq

namespace SerialTransport

/-- The transport after `init` succeeded. -/
def opened (connected : Bool) : SerialTransport :=
  { parser := nrosStreamParserInit, completedFrames := [], connected }

/-- `wait_fd`; the timeout only reaches `poll`. -/
def waitFd (transport : SerialTransport) :
    PollOutcome → Bool × SerialTransport
  | .interrupted again => waitFd transport again
  | .failed => (false, transport)
  | .timedOut => (false, transport)
  | .ready true _ => (false, { transport with connected := false })
  | .ready false requested => (requested, transport)

/-- The loop of `send_frame` over the first `n` bytes of `buf`. -/
def writeLoop (buf : NrosBuffer) (n : Nat) (transport : SerialTransport)
    (written : Nat) (accepted : List UInt8) :
    List WriteOutcome → Option SendResult
  | [] =>
      if written < n then none
      else some { result := true, transport, accepted }
  | outcome :: rest =>
      if written < n then
        match outcome with
        | .wrote count =>
            let w := min count (n - written)
            if w > 0 then
              writeLoop buf n transport (written + w)
                (accepted ++ buf.slice written w) rest
            else
              some
                { result := false
                  transport := { transport with connected := false }
                  accepted }
        | .wouldBlock poll =>
            let (ready, transport) := transport.waitFd poll
            if ready then writeLoop buf n transport written accepted rest
            else some { result := false, transport, accepted }
        | .interrupted => writeLoop buf n transport written accepted rest
        | .failed =>
            some
              { result := false
                transport := { transport with connected := false }
                accepted }
      else
        some { result := true, transport, accepted }

/-- `send_frame`: its result, and the bytes `write` accepted. -/
def sendFrame (transport : SerialTransport) (frame : WireFrame)
    (outcomes : List WriteOutcome) : Option SendResult :=
  let (n, buf) := nrosStreamEncodeFrame frame.header (some frame.payload)
    frame.payload.length (Buffer.filled nrosBufferSize 0)
  if n = 0 then
    some { result := false, transport, accepted := [] }
  else
    writeLoop buf n transport 0 [] outcomes

/-- One `nros_stream_parser_feed` with `on_frame` as the callback. -/
def feed (transport : SerialTransport) (chunk : List UInt8) :
    SerialTransport :=
  let (parser, completedFrames) := nrosStreamParserFeed recordFrame
    transport.parser transport.completedFrames chunk
  { transport with parser, completedFrames }

/-- `completed_frames.front()` and `pop_front()`. -/
def popCompleted (transport : SerialTransport) :
    Option (WireFrame × SerialTransport) :=
  match transport.completedFrames with
  | [] => none
  | frame :: completedFrames => some (frame, { transport with completedFrames })

/-- `recv_frame`: the frame it fills in when it returns true. -/
def recvFrame (timeout : Int) (transport : SerialTransport)
    (outcomes : List ReadOutcome) : Option RecvResult :=
  match transport.popCompleted with
  | some (frame, transport) =>
      some { frame := some frame, transport, unread := outcomes }
  | none =>
      match outcomes with
      | [] => none
      | .data chunk :: rest => recvFrame timeout (transport.feed chunk) rest
      | .interrupted :: rest => recvFrame timeout transport rest
      | .wouldBlock elapsed poll :: rest =>
          if 0 ≤ timeout ∧ timeout - elapsed ≤ 0 then
            some { frame := none, transport, unread := rest }
          else
            let (ready, transport) := transport.waitFd poll
            if ready then recvFrame timeout transport rest
            else some { frame := none, transport, unread := rest }
      | .closed :: rest | .failed :: rest =>
          some
            { frame := none
              transport := { transport with connected := false }
              unread := rest }

end SerialTransport

end NanoRos
